import Motrix.Bridge.ProjectionRuns

/-!
# The admission tombstone

Once a cleanup is prepared its row is stored as pending, and no operation but
the end of that cleanup takes the mark away.  Memory that admits anyone is the
stored document, so failed saves and reloads cannot bring an older view back.
-/

namespace Motrix.Bridge.PairingProjection

variable {parseUrl : ParseUrl} {collator : Collator}
variable {s : System} {event : Event parseUrl}
variable {records next : List ExtensionPairingProjection}
variable {key : TransportIdentity} {answer : Answer} {outcome : SaveOutcome}

def HasPending (records : List ExtensionPairingProjection)
    (key : TransportIdentity) : Prop :=
  ∃ row ∈ records, row.identity = key ∧ row.status = .cleanupPending

def Event.PreparesCleanupOf (key : TransportIdentity) :
    Event parseUrl → Prop
  | .prepareCleanup witness _ => witness.identity = key
  | .prepareIdentityCleanup identity _ =>
      normalizeTransportIdentity parseUrl identity = some key
  | _ => False

def Event.EndsCleanupOf (key : TransportIdentity) : Event parseUrl → Prop
  | .completeCleanup lease _ => lease.identity = key
  | .cancelCleanup lease _ _ => lease.identity = key
  | _ => False

/-- The document of a `completeCleanup` or `cancelCleanup` for the identity
lands in the store. -/
def System.EndsCleanup (collator : Collator) (s : System)
    (key : TransportIdentity) (event : Event parseUrl) : Prop :=
  event.EndsCleanupOf key ∧ (s.step collator event).stored ≠ s.stored

/-! ## The mark stays -/

theorem HasPending.findRecord (formed : WellFormed parseUrl collator records)
    (pending : HasPending records key) :
    ∃ row, PairingProjection.findRecord records key = some row ∧
      row.status = .cleanupPending := by
  obtain ⟨row, listed, rfl, status⟩ := pending
  exact ⟨row, formed.findRecord_mem listed, status⟩

theorem HasPending.replaceRecord {updated : ExtensionPairingProjection}
    (pending : HasPending records key)
    (keeps : updated.identity = key → updated.status = .cleanupPending) :
    HasPending (replaceRecord collator records updated) key := by
  obtain ⟨row, listed, named, status⟩ := pending
  by_cases same : updated.identity = key
  · exact ⟨updated, mem_replaceRecord.mpr (.inr rfl), same, keeps same⟩
  · have different : row.identity ≠ updated.identity := by
      intro equal
      exact same (equal.symm.trans named)
    exact ⟨row, mem_replaceRecord.mpr (.inl ⟨listed, different⟩), named,
      status⟩

theorem HasPending.upsert {witness : CommittedWitness parseUrl}
    {updated : ExtensionPairingProjection}
    (formed : WellFormed parseUrl collator records)
    (pending : HasPending records key)
    (named : updated.identity = witness.identity)
    (unmarked : ∀ present ∈
        PairingProjection.findRecord records witness.identity,
      present.status ≠ .cleanupPending) :
    HasPending (PairingProjection.replaceRecord collator records updated)
      key := by
  apply pending.replaceRecord
  intro same
  obtain ⟨row, found, status⟩ := pending.findRecord formed
  rw [← same, named] at found
  exact absurd status (unmarked row found)

theorem HasPending.markPending {other : TransportIdentity}
    (pending : HasPending records key) :
    HasPending (markPending records other) key := by
  obtain ⟨row, listed, named, status⟩ := pending
  by_cases same : row.identity = other
  · refine ⟨_, List.mem_map_of_mem listed, ?_, ?_⟩
    · rw [if_pos same]
      exact named
    · rw [if_pos same]
  · refine ⟨_, List.mem_map_of_mem listed, ?_, ?_⟩
    · rw [if_neg same]
      exact named
    · rw [if_neg same]
      exact status

theorem HasPending.sortRecords (pending : HasPending records key) :
    HasPending (sortRecords collator records) key := by
  obtain ⟨row, listed, facts⟩ := pending
  exact ⟨row, mem_sortRecords.mpr listed, facts⟩

theorem HasPending.decision (formed : WellFormed parseUrl collator records)
    (pending : HasPending records key)
    (decided : event.decision collator records =
      some (.persist next answer, outcome))
    (unfinished : ¬ event.EndsCleanupOf key) : HasPending next key := by
  cases event with
  | load readable => cases decided
  | restart => cases decided
  | acceptLease lease => cases decided
  | stopAndDrain => cases decided
  | recordCommitted witness landing =>
      obtain ⟨persisted, -⟩ := Prod.mk.inj (Option.some.inj decided)
      obtain ⟨updated, -, named, rfl, unmarked, -⟩ :=
        upsert_persist formed (.inl persisted)
      exact pending.upsert formed named unmarked
  | recordAuthenticated witness observed landing =>
      obtain ⟨persisted, -⟩ := Prod.mk.inj (Option.some.inj decided)
      obtain ⟨updated, -, named, rfl, unmarked, -⟩ :=
        upsert_persist formed (.inr ⟨observed, persisted⟩)
      exact pending.upsert formed named unmarked
  | prepareCleanup witness landing =>
      obtain ⟨persisted, -⟩ := Prod.mk.inj (Option.some.inj decided)
      obtain ⟨row, -, -, status, rfl, -⟩ :=
        prepareCleanup_persist formed persisted
      exact pending.replaceRecord fun _ => status
  | prepareIdentityCleanup identity landing =>
      obtain ⟨persisted, -⟩ := Prod.mk.inj (Option.some.inj decided)
      obtain ⟨other, current, -, rfl, -⟩ :=
        prepareIdentityCleanup_persist persisted
      exact pending.markPending.sortRecords
  | completeCleanup lease landing =>
      obtain ⟨persisted, -⟩ := Prod.mk.inj (Option.some.inj decided)
      obtain ⟨rfl, -⟩ := completeCleanup_persist persisted
      obtain ⟨row, listed, named, status⟩ := pending
      have different : row.identity ≠ lease.identity := by
        intro same
        exact unfinished (same.symm.trans named)
      exact ⟨row, mem_withoutIdentity.mpr ⟨listed, different⟩, named, status⟩
  | cancelCleanup lease witness landing =>
      obtain ⟨persisted, -⟩ := Prod.mk.inj (Option.some.inj decided)
      obtain ⟨restored, -, named, -, rfl, -⟩ :=
        cancelCleanup_persist formed persisted
      apply pending.replaceRecord
      intro same
      exact absurd (named.symm.trans same) unfinished
  | reconcileCommitted witnesses landing =>
      obtain ⟨persisted, -⟩ := Prod.mk.inj (Option.some.inj decided)
      obtain ⟨aggregates, rows, gathers, -, mapped, rfl, -⟩ :=
        reconcileCommitted_persist persisted
      obtain ⟨row, listed, rfl, status⟩ := pending
      exact pending_reconciled formed gathers mapped listed status

theorem Sound.pending_step (sound : Sound parseUrl collator s)
    (pending : HasPending s.stored.records key)
    (unfinished : ¬ s.EndsCleanup collator key event) :
    HasPending (s.step collator event).stored.records key := by
  obtain ⟨written, -⟩ :=
    System.step_cases event sound.held sound.bounded sound.formed
  rcases written with ⟨stored, -⟩ | ⟨next, answer, revision, decided, wrote⟩
  · rw [stored]
    exact pending
  · obtain ⟨same, formed⟩ := sound.memory wrote.healthy
    rw [← same] at pending
    rw [wrote.stored]
    apply pending.decision formed decided
    intro ends
    refine unfinished ⟨ends, ?_⟩
    intro unchanged
    have revisions := congrArg StoreSnapshot.revision unchanged
    rw [wrote.stored, wrote.current] at revisions
    exact Nat.succ_ne_self _ revisions

/-! ## The mark is set -/

theorem prepareCleanup_settle {witness : CommittedWitness parseUrl}
    (decided : prepareCleanup collator records witness = .settle answer) :
    HasPending records witness.identity := by
  unfold prepareCleanup at decided
  cases found : findRecord records witness.identity with
  | none => simp [found] at decided
  | some current =>
      obtain ⟨listed, named⟩ := findRecord_eq_some found
      simp only [found] at decided
      split at decided
      · cases decided
      · split at decided
        · rename_i marked
          have status : current.status = .cleanupPending := by
            simpa using marked
          exact ⟨current, listed, named, status⟩
        · cases decided

theorem prepareIdentityCleanup_settle {identity : Json}
    (named : normalizeTransportIdentity parseUrl identity = some key)
    (decided : prepareIdentityCleanup collator records parseUrl identity =
      .settle answer) :
    HasPending records key := by
  unfold prepareIdentityCleanup at decided
  cases found : findRecord records key with
  | none => simp [named, found] at decided
  | some current =>
      obtain ⟨listed, same⟩ := findRecord_eq_some found
      simp only [named, found] at decided
      split at decided
      · cases decided
      · rename_i unready
        refine ⟨current, listed, same, ?_⟩
        cases status : current.status with
        | ready => exact absurd status unready
        | cleanupPending => rfl

theorem prepareIdentityCleanup_marks {identity : Json}
    (named : normalizeTransportIdentity parseUrl identity = some key)
    (decided : prepareIdentityCleanup collator records parseUrl identity =
      .persist next answer) :
    HasPending next key := by
  unfold prepareIdentityCleanup at decided
  cases found : findRecord records key with
  | none => simp [named, found] at decided
  | some current =>
      obtain ⟨listed, same⟩ := findRecord_eq_some found
      simp only [named, found] at decided
      split at decided
      · rw [Decision.persist.injEq] at decided
        obtain ⟨rfl, -⟩ := decided
        apply HasPending.sortRecords
        refine ⟨_, List.mem_map_of_mem listed, ?_, ?_⟩
        · rw [if_pos same]
          exact same
        · rw [if_pos same]
      · cases decided

/-- An operation that resolves has settled on the rows in memory or stored its
next ones. -/
theorem System.enqueue_isOk
    {operation : List ExtensionPairingProjection → Decision}
    (resolved : (s.enqueue operation outcome).2.isOk) :
    s.service.health = .ready ∧
      ((∃ answer, operation s.service.records = .settle answer ∧
          (s.enqueue operation outcome).1.stored = s.stored) ∨
        ∃ next answer, operation s.service.records = .persist next answer ∧
          (s.enqueue operation outcome).1.stored.records = next) := by
  unfold System.enqueue at resolved ⊢
  cases health : s.service.health with
  | uninitialized => simp [health, Except.isOk, Except.toBool] at resolved
  | degraded => simp [health, Except.isOk, Except.toBool] at resolved
  | stopped => simp [health, Except.isOk, Except.toBool] at resolved
  | ready =>
      simp only [health] at resolved ⊢
      refine ⟨trivial, ?_⟩
      cases decided : operation s.service.records with
      | reject failure =>
          simp [decided, System.execute, Except.isOk, Except.toBool]
            at resolved
      | degrade failure =>
          simp [decided, System.execute, Except.isOk, Except.toBool]
            at resolved
      | settle answer => exact .inl ⟨answer, rfl, rfl⟩
      | persist next answer =>
          refine .inr ⟨next, answer, rfl, ?_⟩
          simp only [decided, System.execute] at resolved ⊢
          rcases s.save_cases next outcome with failed |
            ⟨revision, landed, current, bounded, saved⟩
          · simp [System.persist, failed, Except.isOk, Except.toBool]
              at resolved
          · simp only [System.persist, saved]
            split <;> rfl

theorem Sound.prepared_pending (sound : Sound parseUrl collator s)
    (prepares : event.PreparesCleanupOf key)
    (resolved : (s.react collator event).2.isOk) :
    HasPending (s.step collator event).stored.records key := by
  unfold Event.PreparesCleanupOf at prepares
  split at prepares
  · rename_i witness outcome
    obtain ⟨healthy, done⟩ := System.enqueue_isOk resolved
    obtain ⟨same, formed⟩ := sound.memory healthy
    subst prepares
    rcases done with ⟨answer, decided, stored⟩ | ⟨next, answer, decided, rows⟩
    · simp only [System.step, System.react]
      rw [stored, ← same]
      exact prepareCleanup_settle decided
    · obtain ⟨pending, -, named, status, rfl, -⟩ :=
        prepareCleanup_persist formed decided
      simp only [System.step, System.react]
      rw [rows]
      exact ⟨pending, mem_replaceRecord.mpr (.inr rfl), named, status⟩
  · rename_i identity outcome
    obtain ⟨healthy, done⟩ := System.enqueue_isOk resolved
    obtain ⟨same, formed⟩ := sound.memory healthy
    rcases done with ⟨answer, decided, stored⟩ | ⟨next, answer, decided, rows⟩
    · simp only [System.step, System.react]
      rw [stored, ← same]
      exact prepareIdentityCleanup_settle prepares decided
    · simp only [System.step, System.react]
      rw [rows]
      exact prepareIdentityCleanup_marks prepares decided
  · cases prepares

/-! ## No admission while the mark stands -/

theorem Sound.not_admitted (sound : Sound parseUrl collator s)
    (pending : HasPending s.stored.records key) {identity : Json}
    (named : normalizeTransportIdentity parseUrl identity = some key) :
    s.service.canAdmitIdentity parseUrl identity = false := by
  obtain ⟨row, listed, same, status⟩ := pending
  by_cases healthy : s.service.health = .ready
  · rw [← (sound.memory healthy).1] at listed
    have marked : (s.service.records.any fun record =>
        record.identity = key && record.status = .cleanupPending) = true :=
      List.any_eq_true.mpr ⟨row, listed, by simp [same, status]⟩
    simp [Service.canAdmitIdentity, named, marked]
  · simp [Service.canAdmitIdentity, named, healthy]

theorem pending_until_end (before : List (Event parseUrl))
    (between : List (Event parseUrl)) (prepare : Event parseUrl)
    (prepares : prepare.PreparesCleanupOf key)
    (resolved : ((run collator before).react collator prepare).2.isOk)
    (unfinished : ∀ first event rest, between = first ++ event :: rest →
      ¬ (run collator (before ++ prepare :: first)).EndsCleanup collator key
        event) :
    HasPending (run collator (before ++ prepare :: between)).stored.records
      key := by
  induction between using List.reverseRecOn with
  | nil =>
      have sound : Sound parseUrl collator (run collator before) :=
        run_sound before
      rw [run_snoc]
      exact sound.prepared_pending prepares resolved
  | append_singleton between event induction =>
      have pending := induction fun first earlier rest split =>
        unfinished first earlier (rest ++ [event]) (by simp [split])
      have sound : Sound parseUrl collator
          (run collator (before ++ prepare :: between)) := run_sound _
      have last := unfinished between event [] rfl
      have whole : before ++ prepare :: (between ++ [event]) =
          (before ++ prepare :: between) ++ [event] := by simp
      rw [whole, run_snoc]
      exact sound.pending_step pending last

/-- From the moment a prepared cleanup resolves, through failed saves, reloads
and restarts, its identity is not admitted until the document of the cleanup's
end lands. -/
theorem cleanup_blocks_admission (collator : Collator)
    (before between : List (Event parseUrl)) (prepare : Event parseUrl)
    (prepares : prepare.PreparesCleanupOf key)
    (resolved : ((run collator before).react collator prepare).2.isOk)
    (unfinished : ∀ first event rest, between = first ++ event :: rest →
      ¬ (run collator (before ++ prepare :: first)).EndsCleanup collator key
        event)
    (identity : Json)
    (named : normalizeTransportIdentity parseUrl identity = some key) :
    (run collator (before ++ prepare :: between)).service.canAdmitIdentity
      parseUrl identity = false := by
  have pending := pending_until_end before between prepare prepares resolved
    unfinished
  have sound : Sound parseUrl collator
      (run collator (before ++ prepare :: between)) := run_sound _
  exact sound.not_admitted pending named

/-! ## A cleanup whose end lands unnoticed -/

def revokedWitness : CommittedWitness StoreWorld.sampleParseUrl :=
  sampleWitness 0 (Nat.zero_le _)

/-- The snapshot has lost the credential already, and the process restarts. -/
theorem revoked_not_admitted :
    (run sampleCollator
      [.load true, .prepareCleanup revokedWitness (.lands (some 1)),
        .reconcileCommitted [] (.lands (some 2)), .restart,
        .load true]).service.canAdmitIdentity StoreWorld.sampleParseUrl
      (identityToJson revokedWitness.identity) = false := by
  apply cleanup_blocks_admission sampleCollator [.load true]
    [.reconcileCommitted [] (.lands (some 2)), .restart, .load true]
    (.prepareCleanup revokedWitness (.lands (some 1))) rfl
  · decide +kernel
  · intro first event rest split ends
    have listed : event ∈ first ++ event :: rest :=
      List.mem_append_right _ List.mem_cons_self
    rw [← split] at listed
    simp only [List.mem_cons, List.not_mem_nil, or_false] at listed
    rcases listed with rfl | rfl | rfl
    · exact ends.1
    · exact ends.1
    · exact ends.1
  · exact normalizeTransportIdentity_toJson revokedWitness.normal

def revokedLease : CleanupLease :=
  { serial := 0
    identity := revokedWitness.identity
    authorizationEpoch := revokedWitness.authorizationEpoch }

/-- The save of the cleanup's end rejects after it replaced the document. -/
def unnoticedEnd : Event StoreWorld.sampleParseUrl :=
  .completeCleanup revokedLease (.lands none)

/-- The cleanup is still unresolved after the reload that admits its
identity. -/
theorem unresolvedCleanup_admitted :
    ((run sampleCollator [(.load true : Event StoreWorld.sampleParseUrl)]).react
        sampleCollator
        (.prepareCleanup revokedWitness (.lands (some 1)))).2.isOk = true ∧
      ((run sampleCollator [.load true,
          .prepareCleanup revokedWitness (.lands (some 1)),
          .acceptLease revokedLease]).react sampleCollator
        unnoticedEnd).2.isOk = false ∧
      (run sampleCollator [.load true,
          .prepareCleanup revokedWitness (.lands (some 1)),
          .acceptLease revokedLease, unnoticedEnd,
          .load true]).service.canAdmitIdentity StoreWorld.sampleParseUrl
        (identityToJson revokedWitness.identity) = true := by
  decide +kernel

end Motrix.Bridge.PairingProjection
