import Mathlib.Data.List.FinRange
import Motrix.Bridge.ProjectionReconcile
import Motrix.Bridge.CredentialRuns

/-!
# Runs of the pairing projection

Whatever happens between a load and the next one, memory in good health is the
stored document, and every document written is one the parser takes for its
rows.  Their number alone is not held down on every path.
-/

namespace Motrix.Bridge.PairingProjection

variable {parseUrl : ParseUrl} {collator : Collator}

/-! ## What a step may do -/

/-- Nothing was written. -/
def System.Unwritten (s t : System) : Prop :=
  t.stored = s.stored ∧ t.written = s.written

/-- The next document was written over the one in memory. -/
structure System.Wrote (s t : System)
    (next : List ExtensionPairingProjection) : Prop where
  healthy : s.service.health = .ready
  current : s.stored.revision = s.service.revision
  bounded : s.service.revision < maxSafeInteger
  stored : t.stored =
    { revision := s.service.revision + 1
      records := next }
  written : t.written = s.written ++ [t.stored]

/-- Memory in good health is the stored document. -/
def System.Held (s : System) : Prop :=
  s.service.health = .ready →
    s.service.records = s.stored.records ∧
      s.service.revision = s.stored.revision

namespace System

variable {s t : System}

theorem failDegraded_held (s : System) : s.failDegraded.Held := nofun

theorem resolve_fst_service (s : System) (answer : Answer) :
    (s.resolve answer).1.service.health = s.service.health ∧
      (s.resolve answer).1.service.records = s.service.records ∧
      (s.resolve answer).1.service.revision = s.service.revision := by
  cases answer with
  | record record => exact ⟨rfl, rfl, rfl⟩
  | records records => exact ⟨rfl, rfl, rfl⟩
  | completed lease => exact ⟨rfl, rfl, rfl⟩
  | restored lease record => exact ⟨rfl, rfl, rfl⟩
  | leaseFor pending =>
      simp only [resolve, Service.resolve, Service.issueCleanupLease]
      split <;> exact ⟨rfl, rfl, rfl⟩

theorem resolve_held (answer : Answer) (held : s.Held) :
    (s.resolve answer).1.Held := by
  obtain ⟨health, records, revision⟩ := s.resolve_fst_service answer
  intro ready
  rw [health] at ready
  rw [records, revision]
  exact held ready

theorem save_cases (s : System) (next : List ExtensionPairingProjection)
    (outcome : SaveOutcome) :
    (s.save next outcome = (s, none)) ∨
      ∃ revision, outcome = .lands revision ∧
        s.stored.revision = s.service.revision ∧
        s.service.revision < maxSafeInteger ∧
        s.save next outcome =
          ({ s with
              stored :=
                { revision := s.service.revision + 1
                  records := next }
              written := s.written ++
                [{ revision := s.service.revision + 1
                   records := next }] },
            revision) := by
  cases outcome with
  | fails => exact .inl rfl
  | lands revision =>
      by_cases swaps : s.stored.revision = s.service.revision ∧
          s.service.revision < maxSafeInteger
      · refine .inr ⟨revision, rfl, swaps.1, swaps.2, ?_⟩
        simp only [save]
        rw [if_pos swaps]
      · apply Or.inl
        simp only [save]
        rw [if_neg swaps]

/-- A save that lands leaves the next document behind, whether or not the
service learns of it. -/
theorem persist_cases (healthy : s.service.health = .ready)
    (next : List ExtensionPairingProjection) (outcome : SaveOutcome)
    (answer : Answer) :
    (s.Unwritten (s.persist next outcome answer).1 ∨
      (∃ revision, outcome = .lands revision) ∧
        s.Wrote (s.persist next outcome answer).1 next) ∧
      (s.persist next outcome answer).1.Held := by
  rcases s.save_cases next outcome with failed |
    ⟨revision, landed, current, bounded, saved⟩
  · have degraded : s.persist next outcome answer =
        (s.failDegraded, .error .persistenceFailed) := by
      simp [persist, failed]
    rw [degraded]
    exact ⟨.inl ⟨rfl, rfl⟩, s.failDegraded_held⟩
  · by_cases confirmed : revision = some (s.service.revision + 1) ∧
        s.service.revision + 1 ≤ maxSafeInteger
    · simp only [persist, saved]
      rw [if_pos confirmed]
      constructor
      · exact .inr ⟨⟨revision, landed⟩, healthy, current, bounded, rfl, rfl⟩
      · apply resolve_held
        intro _
        exact ⟨rfl, rfl⟩
    · simp only [persist, saved]
      rw [if_neg confirmed]
      constructor
      · exact .inr ⟨⟨revision, landed⟩, healthy, current, bounded, rfl, rfl⟩
      · exact failDegraded_held _

theorem execute_cases (healthy : s.service.health = .ready) (held : s.Held)
    (decision : Decision) (outcome : SaveOutcome) :
    (s.Unwritten (s.execute decision outcome).1 ∨
      ∃ next answer, decision = .persist next answer ∧
        (∃ revision, outcome = .lands revision) ∧
        s.Wrote (s.execute decision outcome).1 next) ∧
      (s.execute decision outcome).1.Held := by
  cases decision with
  | reject failure => exact ⟨.inl ⟨rfl, rfl⟩, held⟩
  | degrade failure => exact ⟨.inl ⟨rfl, rfl⟩, s.failDegraded_held⟩
  | settle answer => exact ⟨.inl ⟨rfl, rfl⟩, resolve_held answer held⟩
  | persist next answer =>
      obtain ⟨written, held⟩ := persist_cases healthy next outcome answer
      constructor
      · rcases written with unwritten | ⟨landed, wrote⟩
        · exact .inl unwritten
        · exact .inr ⟨next, answer, rfl, landed, wrote⟩
      · exact held

theorem enqueue_cases (held : s.Held)
    (operation : List ExtensionPairingProjection → Decision)
    (outcome : SaveOutcome) :
    (s.Unwritten (s.enqueue operation outcome).1 ∨
      ∃ next answer, operation s.service.records = .persist next answer ∧
        (∃ revision, outcome = .lands revision) ∧
        s.Wrote (s.enqueue operation outcome).1 next) ∧
      (s.enqueue operation outcome).1.Held := by
  cases health : s.service.health with
  | uninitialized =>
      simp only [enqueue, health]
      exact ⟨.inl ⟨rfl, rfl⟩, held⟩
  | degraded =>
      simp only [enqueue, health]
      exact ⟨.inl ⟨rfl, rfl⟩, held⟩
  | stopped =>
      simp only [enqueue, health]
      exact ⟨.inl ⟨rfl, rfl⟩, held⟩
  | ready =>
      simp only [enqueue, health]
      exact execute_cases health held _ outcome

end System

/-- The decision an event takes over the rows in memory, and how its save is
to end. -/
def Event.decision (collator : Collator)
    (records : List ExtensionPairingProjection) :
    Event parseUrl → Option (Decision × SaveOutcome)
  | .recordCommitted witness outcome =>
      some (PairingProjection.recordCommitted collator records witness,
        outcome)
  | .recordAuthenticated witness observed outcome =>
      some (PairingProjection.recordAuthenticated collator records witness
        observed, outcome)
  | .prepareCleanup witness outcome =>
      some (PairingProjection.prepareCleanup collator records witness,
        outcome)
  | .prepareIdentityCleanup identity outcome =>
      some (PairingProjection.prepareIdentityCleanup collator records
        parseUrl identity, outcome)
  | .completeCleanup lease outcome =>
      some (PairingProjection.completeCleanup records lease, outcome)
  | .cancelCleanup lease witness outcome =>
      some (PairingProjection.cancelCleanup collator records lease witness,
        outcome)
  | .reconcileCommitted witnesses outcome =>
      some (PairingProjection.reconcileCommitted collator records witnesses,
        outcome)
  | .load _ => none
  | .restart => none
  | .acceptLease _ => none
  | .stopAndDrain => none

/-- The event's save landed with `next`. -/
def System.Lands (collator : Collator) (s : System)
    (event : Event parseUrl) (next : List ExtensionPairingProjection) : Prop :=
  ∃ answer revision, event.decision collator s.service.records =
      some (.persist next answer, .lands revision) ∧
    s.Wrote (s.step collator event) next

section Steps

variable {s : System}

/-- All a step can do to the store, and that memory in good health still is
the stored document. -/
theorem System.step_cases (event : Event parseUrl) (held : s.Held)
    (bounded : s.stored.revision ≤ maxSafeInteger)
    (formed : WellFormed parseUrl collator s.stored.records) :
    (s.Unwritten (s.step collator event) ∨
      ∃ next, s.Lands collator event next) ∧
      (s.step collator event).Held := by
  have queued (calls : List CleanupLease)
      (operation : List ExtensionPairingProjection → Decision)
      (outcome : SaveOutcome)
      (same : s.step collator event =
        (({ s with
            service :=
              { s.service with accepted := calls } } : System).enqueue
            operation outcome).1)
      (decides : event.decision collator s.service.records =
        some (operation s.service.records, outcome)) :
      (s.Unwritten (s.step collator event) ∨
        ∃ next, s.Lands collator event next) ∧
        (s.step collator event).Held := by
    have heldQueue : ({ s with
        service := { s.service with accepted := calls } } : System).Held :=
      held
    obtain ⟨written, heldAfter⟩ :=
      System.enqueue_cases heldQueue operation outcome
    rw [← same] at written heldAfter
    refine ⟨?_, heldAfter⟩
    rcases written with unwritten | ⟨next, answer, decided, landed, wrote⟩
    · exact .inl unwritten
    · obtain ⟨revision, rfl⟩ := landed
      have persisted : operation s.service.records = .persist next answer :=
        decided
      rw [persisted] at decides
      exact .inr ⟨next, answer, revision, decides,
        { healthy := wrote.healthy
          current := wrote.current
          bounded := wrote.bounded
          stored := wrote.stored
          written := wrote.written }⟩
  cases event with
  | recordCommitted witness outcome =>
      exact queued s.service.accepted (fun records =>
        PairingProjection.recordCommitted collator records witness)
        outcome rfl rfl
  | recordAuthenticated witness observed outcome =>
      exact queued s.service.accepted (fun records =>
        PairingProjection.recordAuthenticated collator records witness
          observed) outcome rfl rfl
  | prepareCleanup witness outcome =>
      exact queued s.service.accepted (fun records =>
        PairingProjection.prepareCleanup collator records witness)
        outcome rfl rfl
  | prepareIdentityCleanup identity outcome =>
      exact queued s.service.accepted (fun records =>
        PairingProjection.prepareIdentityCleanup collator records parseUrl
          identity) outcome rfl rfl
  | reconcileCommitted witnesses outcome =>
      exact queued s.service.accepted (fun records =>
        PairingProjection.reconcileCommitted collator records witnesses)
        outcome rfl rfl
  | completeCleanup lease outcome =>
      by_cases called : lease ∈ s.service.accepted
      · apply queued (s.service.accepted.erase lease) (fun records =>
          PairingProjection.completeCleanup records lease) outcome _ rfl
        simp only [System.step, System.react]
        rw [if_pos called]
        rfl
      · simp only [System.step, System.react]
        rw [if_neg called]
        exact ⟨.inl ⟨rfl, rfl⟩, held⟩
  | cancelCleanup lease witness outcome =>
      by_cases called : lease ∈ s.service.accepted
      · apply queued (s.service.accepted.erase lease) (fun records =>
          PairingProjection.cancelCleanup collator records lease witness)
          outcome _ rfl
        simp only [System.step, System.react]
        rw [if_pos called]
        rfl
      · simp only [System.step, System.react]
        rw [if_neg called]
        exact ⟨.inl ⟨rfl, rfl⟩, held⟩
  | load readable =>
      simp only [System.step, System.react, System.load]
      rw [parseStoreSnapshot_toJson bounded formed]
      split
      · exact ⟨.inl ⟨rfl, rfl⟩, held⟩
      split
      · exact ⟨.inl ⟨rfl, rfl⟩, s.failDegraded_held⟩
      split
      · exact ⟨.inl ⟨rfl, rfl⟩, s.failDegraded_held⟩
      · rename_i parsed fits
        split at fits
        · cases fits
        · cases fits
          exact ⟨.inl ⟨rfl, rfl⟩, fun _ => ⟨rfl, rfl⟩⟩
  | restart => exact ⟨.inl ⟨rfl, rfl⟩, nofun⟩
  | acceptLease lease =>
      simp only [System.step, System.react, Service.acceptLease]
      split
      · exact ⟨.inl ⟨rfl, rfl⟩, held⟩
      · exact ⟨.inl ⟨rfl, rfl⟩, held⟩
  | stopAndDrain => exact ⟨.inl ⟨rfl, rfl⟩, nofun⟩

end Steps

/-! ## Every document written is well formed -/

section Documents

variable {s : System} {event : Event parseUrl}
variable {records next : List ExtensionPairingProjection}
variable {answer : Answer} {outcome : SaveOutcome}

theorem recordAuthenticated_persist {witness : CommittedWitness parseUrl}
    {observed : ClockReading}
    (decided : recordAuthenticated collator records witness observed =
      .persist next answer) :
    ∃ observedAt, witness.committedAt ≤ observedAt ∧
      observedAt ≤ maxSafeInteger ∧
      upsertLiveWitness collator records witness (some observedAt) =
        .persist next answer := by
  unfold recordAuthenticated at decided
  cases observed with
  | none => cases decided
  | some observedAt =>
      simp only at decided
      split at decided
      · cases decided
      · rename_i timely
        rw [not_or, Nat.not_lt, Nat.not_lt] at timely
        exact ⟨observedAt, timely.2, timely.1, decided⟩

/-- An upsert, with or without a time of authentication. -/
theorem upsert_persist {witness : CommittedWitness parseUrl}
    (formed : WellFormed parseUrl collator records)
    (decided : recordCommitted collator records witness =
        .persist next answer ∨
      ∃ observed, recordAuthenticated collator records witness observed =
        .persist next answer) :
    ∃ updated, updated.Valid parseUrl ∧
      updated.identity = witness.identity ∧
      next = replaceRecord collator records updated ∧
      (∀ present ∈ findRecord records witness.identity,
        present.status ≠ .cleanupPending) ∧
      (findRecord records witness.identity = none →
        records.length < maxProjectionRecords) ∧
      answer = .record updated := by
  rcases decided with committed | ⟨observed, authenticated⟩
  · apply upsertLiveWitness_persist formed _ committed
    rintro _ ⟨⟩
  · obtain ⟨observedAt, committed, bounded, decided⟩ :=
      recordAuthenticated_persist authenticated
    apply upsertLiveWitness_persist formed _ decided
    rintro _ ⟨⟩
    exact ⟨committed, bounded⟩

theorem Event.decision_wellFormed
    (formed : WellFormed parseUrl collator records)
    (decided : event.decision collator records =
      some (.persist next answer, outcome)) :
    WellFormed parseUrl collator next := by
  cases event with
  | load readable => cases decided
  | restart => cases decided
  | acceptLease lease => cases decided
  | stopAndDrain => cases decided
  | recordCommitted witness landing =>
      obtain ⟨persisted, -⟩ := Prod.mk.inj (Option.some.inj decided)
      obtain ⟨updated, valid, -, rfl, -⟩ :=
        upsert_persist formed (.inl persisted)
      exact formed.replaceRecord valid
  | recordAuthenticated witness observed landing =>
      obtain ⟨persisted, -⟩ := Prod.mk.inj (Option.some.inj decided)
      obtain ⟨updated, valid, -, rfl, -⟩ :=
        upsert_persist formed (.inr ⟨observed, persisted⟩)
      exact formed.replaceRecord valid
  | prepareCleanup witness landing =>
      obtain ⟨persisted, -⟩ := Prod.mk.inj (Option.some.inj decided)
      obtain ⟨pending, valid, -, -, rfl, -⟩ :=
        prepareCleanup_persist formed persisted
      exact formed.replaceRecord valid
  | prepareIdentityCleanup identity landing =>
      obtain ⟨persisted, -⟩ := Prod.mk.inj (Option.some.inj decided)
      obtain ⟨key, current, -, rfl, -⟩ :=
        prepareIdentityCleanup_persist persisted
      exact formed.markPending key
  | completeCleanup lease landing =>
      obtain ⟨persisted, -⟩ := Prod.mk.inj (Option.some.inj decided)
      obtain ⟨rfl, -⟩ := completeCleanup_persist persisted
      exact formed.withoutIdentity lease.identity
  | cancelCleanup lease witness landing =>
      obtain ⟨persisted, -⟩ := Prod.mk.inj (Option.some.inj decided)
      obtain ⟨restored, valid, -, -, rfl, -⟩ :=
        cancelCleanup_persist formed persisted
      exact formed.replaceRecord valid
  | reconcileCommitted witnesses landing =>
      obtain ⟨persisted, -⟩ := Prod.mk.inj (Option.some.inj decided)
      obtain ⟨aggregates, rows, gathers, -, mapped, rfl, -⟩ :=
        reconcileCommitted_persist persisted
      exact wellFormed_reconciled formed gathers mapped

/-- What holds of the service and its store in every run. -/
structure Sound (parseUrl : ParseUrl) (collator : Collator) (s : System) :
    Prop where
  formed : WellFormed parseUrl collator s.stored.records
  bounded : s.stored.revision ≤ maxSafeInteger
  held : s.Held
  latest : s.stored.records = [] ∨ s.stored ∈ s.written
  readable : ∀ document ∈ s.written,
    WellFormed parseUrl collator document.records ∧
      document.revision ≤ maxSafeInteger

theorem boot_sound : Sound parseUrl collator boot :=
  { formed := wellFormed_nil
    bounded := Nat.zero_le maxSafeInteger
    held := nofun
    latest := .inl rfl
    readable := fun _ listed => nomatch listed }

theorem Sound.step (sound : Sound parseUrl collator s)
    (event : Event parseUrl) :
    Sound parseUrl collator (s.step collator event) := by
  obtain ⟨written, held⟩ :=
    System.step_cases event sound.held sound.bounded sound.formed
  rcases written with ⟨stored, written⟩ |
    ⟨next, answer, revision, decided, wrote⟩
  · constructor
    · rw [stored]
      exact sound.formed
    · rw [stored]
      exact sound.bounded
    · exact held
    · rw [stored, written]
      exact sound.latest
    · rw [written]
      exact sound.readable
  · have formed : WellFormed parseUrl collator
        (s.step collator event).stored.records := by
      have before := sound.formed
      rw [← (sound.held wrote.healthy).1] at before
      rw [wrote.stored]
      exact Event.decision_wellFormed before decided
    have bounded : (s.step collator event).stored.revision ≤
        maxSafeInteger := by
      rw [wrote.stored]
      exact wrote.bounded
    constructor
    · exact formed
    · exact bounded
    · exact held
    · rw [wrote.written]
      exact .inr (List.mem_append_right _ List.mem_cons_self)
    · intro document listed
      rw [wrote.written] at listed
      rcases List.mem_append.mp listed with earlier | latest
      · exact sound.readable document earlier
      · rw [List.mem_singleton.mp latest]
        exact ⟨formed, bounded⟩

theorem run_snoc (events : List (Event parseUrl)) (event : Event parseUrl) :
    run collator (events ++ [event]) =
      (run collator events).step collator event := by
  rw [run, List.foldl_append]
  rfl

theorem run_sound (events : List (Event parseUrl)) :
    Sound parseUrl collator (run collator events) := by
  induction events using List.reverseRecOn with
  | nil => exact boot_sound
  | append_singleton events event induction =>
      rw [run_snoc]
      exact induction.step event

end Documents

end Motrix.Bridge.PairingProjection

/-!
# Capacity of the pairing projection

The parser takes at most 4096 rows.  An upsert counts before it adds a row;
preparing a cleanup for an unrecorded identity and reconciling next to cleanups
the snapshot does not list add rows without counting.
-/

namespace Motrix.Bridge.PairingProjection

variable {parseUrl : ParseUrl} {collator : Collator}
variable {s : System} {event : Event parseUrl}
variable {records next : List ExtensionPairingProjection}

/-! ## Room for every row -/

/-- A save that lands is written. -/
def System.Writable (s : System) : Prop :=
  s.service.health = .ready ∧ s.stored.revision = s.service.revision ∧
    s.service.revision < maxSafeInteger

/-- The step writes more rows than a document may hold: a cleanup prepared for
an unrecorded identity where every row is taken, or a reconciliation with a
snapshot that needs more rows together with the cleanups it does not list. -/
def System.Overfills (collator : Collator) (s : System) :
    Event parseUrl → Prop
  | .prepareCleanup witness (.lands _) =>
      s.Writable ∧ findRecord s.service.records witness.identity = none ∧
        maxProjectionRecords ≤ s.service.records.length
  | .reconcileCommitted witnesses (.lands _) =>
      s.Writable ∧ Reconcilable collator s.service.records witnesses ∧
        maxProjectionRecords < reconciledCount s.service.records witnesses
  | _ => False

theorem length_replaceRecord_le_max {updated : ExtensionPairingProjection}
    (fits : records.length ≤ maxProjectionRecords)
    (room : findRecord records updated.identity = none →
      records.length < maxProjectionRecords) :
    (replaceRecord collator records updated).length ≤
      maxProjectionRecords := by
  cases found : findRecord records updated.identity with
  | none =>
      rw [length_replaceRecord_of_absent found]
      exact room found
  | some current => exact (length_replaceRecord_le found).trans fits

/-- A step that does not overfill writes no more rows than fit. -/
theorem System.Lands.length_le
    (formed : WellFormed parseUrl collator s.service.records)
    (fits : s.service.records.length ≤ maxProjectionRecords)
    (lands : s.Lands collator event next)
    (roomy : ¬ s.Overfills collator event) :
    next.length ≤ maxProjectionRecords := by
  obtain ⟨answer, revision, decided, wrote⟩ := lands
  have writable : s.Writable := ⟨wrote.healthy, wrote.current, wrote.bounded⟩
  cases event with
  | load readable => cases decided
  | restart => cases decided
  | acceptLease lease => cases decided
  | stopAndDrain => cases decided
  | recordCommitted witness landing =>
      obtain ⟨persisted, -⟩ := Prod.mk.inj (Option.some.inj decided)
      obtain ⟨updated, -, key, rfl, -, room, -⟩ :=
        upsert_persist formed (.inl persisted)
      rw [← key] at room
      exact length_replaceRecord_le_max fits room
  | recordAuthenticated witness observed landing =>
      obtain ⟨persisted, -⟩ := Prod.mk.inj (Option.some.inj decided)
      obtain ⟨updated, -, key, rfl, -, room, -⟩ :=
        upsert_persist formed (.inr ⟨observed, persisted⟩)
      rw [← key] at room
      exact length_replaceRecord_le_max fits room
  | prepareCleanup witness landing =>
      obtain ⟨persisted, rfl⟩ := Prod.mk.inj (Option.some.inj decided)
      obtain ⟨pending, -, key, -, rfl, -⟩ :=
        prepareCleanup_persist formed persisted
      apply length_replaceRecord_le_max fits
      intro absent
      rw [key] at absent
      by_contra full
      exact roomy ⟨writable, absent, Nat.not_lt.mp full⟩
  | prepareIdentityCleanup identity landing =>
      obtain ⟨persisted, -⟩ := Prod.mk.inj (Option.some.inj decided)
      obtain ⟨key, current, -, rfl, -⟩ :=
        prepareIdentityCleanup_persist persisted
      rw [length_sortRecords, markPending, List.length_map]
      exact fits
  | completeCleanup lease landing =>
      obtain ⟨persisted, -⟩ := Prod.mk.inj (Option.some.inj decided)
      obtain ⟨rfl, -⟩ := completeCleanup_persist persisted
      exact (List.length_filter_le _ _).trans fits
  | cancelCleanup lease witness landing =>
      obtain ⟨persisted, -⟩ := Prod.mk.inj (Option.some.inj decided)
      obtain ⟨restored, -, -, ⟨current, found⟩, rfl, -⟩ :=
        cancelCleanup_persist formed persisted
      exact (length_replaceRecord_le found).trans fits
  | reconcileCommitted witnesses landing =>
      obtain ⟨persisted, rfl⟩ := Prod.mk.inj (Option.some.inj decided)
      obtain ⟨aggregates, rows, gathers, aggregated, mapped, rfl, -⟩ :=
        reconcileCommitted_persist persisted
      rw [length_reconciled gathers mapped]
      by_contra crowded
      apply roomy
      exact ⟨writable, reconcilable_of_mapM formed aggregated mapped,
        Nat.lt_of_not_le crowded⟩

/-- A save that lands over a writable store is written. -/
theorem System.enqueue_writes
    (operation : List ExtensionPairingProjection → Decision)
    (revision : Option Nat) (writable : s.Writable)
    (decided : operation s.service.records = .persist next answer) :
    (s.enqueue operation (.lands revision)).1.stored =
        { revision := s.service.revision + 1
          records := next } ∧
      (s.enqueue operation (.lands revision)).1.written = s.written ++
        [{ revision := s.service.revision + 1
           records := next }] := by
  obtain ⟨healthy, current, bounded⟩ := writable
  simp only [System.enqueue, healthy, System.execute, decided,
    System.persist, System.save, current, bounded, and_self, if_true]
  split
  · exact ⟨rfl, rfl⟩
  · exact ⟨rfl, rfl⟩

/-- A step that overfills leaves a document the parser turns away. -/
theorem System.Overfills.stored
    (formed : WellFormed parseUrl collator s.service.records)
    (fits : s.service.records.length ≤ maxProjectionRecords)
    (overfills : s.Overfills collator event) :
    maxProjectionRecords <
        (s.step collator event).stored.records.length ∧
      (s.step collator event).stored ∈ (s.step collator event).written := by
  unfold System.Overfills at overfills
  split at overfills
  · rename_i witness revision
    obtain ⟨writable, absent, full⟩ := overfills
    have decided : prepareCleanup collator s.service.records witness =
        .persist (replaceRecord collator s.service.records
          (pendingRecord none witness))
          (.leaseFor (pendingRecord none witness)) := by
      simp [prepareCleanup, absent]
    obtain ⟨stored, written⟩ := System.enqueue_writes
      (fun records => prepareCleanup collator records witness) revision
      writable decided
    have grown : (replaceRecord collator s.service.records
        (pendingRecord none witness)).length =
          s.service.records.length + 1 :=
      length_replaceRecord_of_absent absent
    simp only [System.step, System.react]
    rw [stored, written]
    constructor
    · change _ < (replaceRecord _ _ _).length
      omega
    · exact List.mem_append_right _ List.mem_cons_self
  · rename_i witnesses revision
    obtain ⟨writable, passes, crowded⟩ := overfills
    obtain ⟨next, decided, count⟩ := reconcileCommitted_of_count formed passes
      (Nat.lt_of_le_of_lt fits crowded)
    obtain ⟨stored, written⟩ := System.enqueue_writes
      (fun records => reconcileCommitted collator records witnesses) revision
      writable decided
    simp only [System.step, System.react]
    rw [stored, written]
    constructor
    · rw [count]
      exact crowded
    · exact List.mem_append_right _ List.mem_cons_self
  · cases overfills

/-! ## Runs that keep every document readable -/

theorem Sound.parses_iff (sound : Sound parseUrl collator s)
    {document : StoreSnapshot} (listed : document ∈ s.written) :
    parseStoreSnapshot parseUrl collator document.toJson = .ok document ↔
      document.records.length ≤ maxProjectionRecords := by
  obtain ⟨formed, bounded⟩ := sound.readable document listed
  exact parseStoreSnapshot_eq_ok_iff bounded formed

theorem Sound.stored_length (sound : Sound parseUrl collator s)
    (readable : ∀ document ∈ s.written,
      document.records.length ≤ maxProjectionRecords) :
    s.stored.records.length ≤ maxProjectionRecords := by
  rcases sound.latest with empty | listed
  · rw [empty]
    exact Nat.zero_le _
  · exact readable s.stored listed

/-- Memory a save may start from holds what the store holds. -/
theorem Sound.memory (sound : Sound parseUrl collator s)
    (healthy : s.service.health = .ready) :
    s.service.records = s.stored.records ∧
      WellFormed parseUrl collator s.service.records := by
  obtain ⟨same, -⟩ := sound.held healthy
  rw [same]
  exact ⟨rfl, sound.formed⟩

theorem System.Overfills.healthy (overfills : s.Overfills collator event) :
    s.service.health = .ready := by
  unfold System.Overfills at overfills
  split at overfills
  · exact overfills.1.1
  · exact overfills.1.1
  · cases overfills

theorem Sound.written_step (sound : Sound parseUrl collator s)
    (event : Event parseUrl) {document : StoreSnapshot}
    (listed : document ∈ s.written) :
    document ∈ (s.step collator event).written := by
  obtain ⟨written, -⟩ :=
    System.step_cases event sound.held sound.bounded sound.formed
  rcases written with ⟨-, same⟩ | ⟨next, answer, revision, -, wrote⟩
  · rw [same]
    exact listed
  · rw [wrote.written]
    exact List.mem_append_left _ listed

theorem run_written_append (before after : List (Event parseUrl))
    {document : StoreSnapshot}
    (listed : document ∈ (run collator before).written) :
    document ∈ (run collator (before ++ after)).written := by
  induction after using List.reverseRecOn with
  | nil =>
      rw [List.append_nil]
      exact listed
  | append_singleton after event induction =>
      rw [← List.append_assoc, run_snoc]
      exact (run_sound (before ++ after)).written_step event induction

/-- A step that overfills shows in every later history. -/
theorem readable_not_overfills {before after : List (Event parseUrl)}
    (readable : ∀ document ∈
        (run collator (before ++ event :: after)).written,
      parseStoreSnapshot parseUrl collator document.toJson = .ok document) :
    ¬ (run collator before).Overfills collator event := by
  intro overfills
  have sound : Sound parseUrl collator (run collator before) :=
    run_sound before
  have short : ∀ document ∈ (run collator before).written,
      document.records.length ≤ maxProjectionRecords := by
    intro document listed
    exact (sound.parses_iff listed).mp
      (readable document (run_written_append before _ listed))
  obtain ⟨same, formed⟩ := sound.memory overfills.healthy
  have fits := sound.stored_length short
  rw [← same] at fits
  obtain ⟨crowded, listed⟩ := overfills.stored formed fits
  rw [← run_snoc] at crowded listed
  have later : (run collator (before ++ [event])).stored ∈
      (run collator (before ++ event :: after)).written := by
    have appended := run_written_append (before ++ [event]) after listed
    rw [List.append_assoc] at appended
    exact appended
  have soundAfter : Sound parseUrl collator
      (run collator (before ++ [event])) := run_sound _
  have parsed := (soundAfter.parses_iff listed).mp (readable _ later)
  omega

theorem roomy_readable (events : List (Event parseUrl))
    (roomy : ∀ before event after, events = before ++ event :: after →
      ¬ (run collator before).Overfills collator event) :
    ∀ document ∈ (run collator events).written,
      document.records.length ≤ maxProjectionRecords := by
  induction events using List.reverseRecOn with
  | nil => exact fun _ listed => nomatch listed
  | append_singleton events event induction =>
      have short := induction fun before earlier after split =>
        roomy before earlier (after ++ [event]) (by simp [split])
      have sound : Sound parseUrl collator (run collator events) :=
        run_sound events
      rw [run_snoc]
      intro document listed
      obtain ⟨written, -⟩ :=
        System.step_cases event sound.held sound.bounded sound.formed
      rcases written with ⟨-, same⟩ | ⟨next, lands⟩
      · rw [same] at listed
        exact short document listed
      · have wrote := lands
        obtain ⟨answer, revision, -, wrote⟩ := wrote
        rw [wrote.written] at listed
        rcases List.mem_append.mp listed with earlier | latest
        · exact short document earlier
        · obtain ⟨same, formed⟩ := sound.memory wrote.healthy
          have fits := sound.stored_length short
          rw [← same] at fits
          rw [List.mem_singleton.mp latest, wrote.stored]
          exact lands.length_le formed fits (roomy events event [] rfl)

/-- Every document a run writes is read back as it was written exactly when no
step of the run overfills. -/
theorem written_readable_iff (collator : Collator)
    (events : List (Event parseUrl)) :
    (∀ document ∈ (run collator events).written,
      parseStoreSnapshot parseUrl collator document.toJson = .ok document) ↔
      ∀ before event after, events = before ++ event :: after →
        ¬ (run collator before).Overfills collator event := by
  constructor
  · intro readable before event after split
    subst split
    exact readable_not_overfills readable
  · intro roomy document listed
    have sound : Sound parseUrl collator (run collator events) :=
      run_sound events
    exact (sound.parses_iff listed).mpr
      (roomy_readable events roomy document listed)

/-! ## A cleanup of one identity too many -/

theorem aggregateWitness_of_new {byIdentity : List WitnessAggregate}
    {witness : CommittedWitness parseUrl}
    (fresh : ∀ present ∈ byIdentity, present.identity ≠ witness.identity)
    (few : byIdentity.length < maxProjectionRecords) :
    aggregateWitness byIdentity witness =
      .ok (byIdentity ++ [mergedAggregate none witness]) := by
  have absent : byIdentity.find? (fun present =>
      decide (present.identity = witness.identity)) = none := by
    rw [List.find?_eq_none]
    intro present listed
    simpa using fresh present listed
  have added : setAggregate byIdentity (mergedAggregate none witness) =
      byIdentity ++ [mergedAggregate none witness] := by
    unfold setAggregate
    apply if_neg
    rw [List.any_eq_true]
    rintro ⟨present, listed, same⟩
    exact fresh present listed (of_decide_eq_true same)
  simp only [aggregateWitness, absent, Option.any_none, added]
  rw [if_neg Bool.false_ne_true, if_neg]
  rw [List.length_append, List.length_singleton]
  exact Nat.not_lt.mpr few

theorem foldlM_aggregateWitness {byIdentity : List WitnessAggregate}
    {witnesses : List (CommittedWitness parseUrl)}
    (fresh : ∀ present ∈ byIdentity, ∀ witness ∈ witnesses,
      present.identity ≠ witness.identity)
    (distinct : (witnesses.map fun witness => witness.identity).Nodup)
    (few : byIdentity.length + witnesses.length ≤ maxProjectionRecords) :
    witnesses.foldlM aggregateWitness byIdentity =
      .ok (byIdentity ++ witnesses.map (mergedAggregate none)) := by
  induction witnesses generalizing byIdentity with
  | nil => simp [pure, Except.pure]
  | cons witness rest induction =>
      rw [List.length_cons] at few
      rw [List.map_cons, List.nodup_cons] at distinct
      rw [List.foldlM_cons, aggregateWitness_of_new
        (fun present listed => fresh present listed witness
          List.mem_cons_self) (by omega)]
      change rest.foldlM aggregateWitness
        (byIdentity ++ [mergedAggregate none witness]) = _
      rw [induction]
      · simp
      · intro present listed other later
        rcases List.mem_append.mp listed with earlier | now
        · exact fresh present earlier other (List.mem_cons_of_mem _ later)
        · rw [List.mem_singleton.mp now]
          intro same
          exact distinct.1 (List.mem_map.mpr ⟨other, later, same.symm⟩)
      · exact distinct.2
      · rw [List.length_append, List.length_singleton]
        omega

theorem aggregateWitnesses_of_distinct
    {witnesses : List (CommittedWitness parseUrl)}
    (distinct : (witnesses.map fun witness => witness.identity).Nodup)
    (few : witnesses.length ≤ maxProjectionRecords) :
    (aggregateWitnesses collator witnesses).isOk := by
  have folded : witnesses.foldlM aggregateWitness [] =
      .ok (witnesses.map (mergedAggregate none)) := by
    apply foldlM_aggregateWitness _ distinct
    · rw [List.length_nil, Nat.zero_add]
      exact few
    · exact fun _ listed => nomatch listed
  have short : ¬ witnesses.length > maxProjectionRecords * 4 := by
    omega
  simp only [aggregateWitnesses]
  rw [if_neg short, folded]
  rfl

/-- The system after a save that was confirmed. -/
def System.committed (s : System) (next : List ExtensionPairingProjection) :
    System :=
  { service :=
      { s.service with
        records := next
        revision := s.service.revision + 1 }
    stored :=
      { revision := s.service.revision + 1
        records := next }
    written := s.written ++
      [{ revision := s.service.revision + 1
         records := next }] }

theorem System.enqueue_committed
    (operation : List ExtensionPairingProjection → Decision)
    {answer : Answer} (writable : s.Writable)
    (decided : operation s.service.records = .persist next answer) :
    s.enqueue operation (.lands (some (s.service.revision + 1))) =
      (s.committed next).resolve answer := by
  obtain ⟨healthy, current, bounded⟩ := writable
  have last : s.service.revision + 1 ≤ maxSafeInteger := bounded
  simp only [System.enqueue, healthy, System.execute, decided,
    System.persist, System.save, current, bounded, last, and_self, if_true,
    System.committed]

/-- A save that is confirmed leaves the service ready for the next one. -/
theorem System.enqueue_commits
    (operation : List ExtensionPairingProjection → Decision)
    {answer : Answer} (writable : s.Writable)
    (decided : operation s.service.records = .persist next answer)
    (room : s.service.revision + 1 < maxSafeInteger) :
    (s.enqueue operation
        (.lands (some (s.service.revision + 1)))).1.Writable ∧
      (s.enqueue operation
        (.lands (some (s.service.revision + 1)))).1.service.records =
          next := by
  rw [System.enqueue_committed operation writable decided]
  obtain ⟨health, rows, revision⟩ :=
    System.resolve_fst_service (s.committed next) answer
  refine ⟨⟨health.trans writable.1, revision.symm, ?_⟩, rows⟩
  rw [revision]
  exact room

theorem load_boot (parseUrl : ParseUrl) (collator : Collator) :
    (run collator [(.load true : Event parseUrl)]).Writable ∧
      (run collator [(.load true : Event parseUrl)]).service.records = [] ∧
      (run collator [(.load true : Event parseUrl)]).service.revision =
        0 := by
  have parsed : parseStoreSnapshot parseUrl collator boot.stored.toJson =
      .ok boot.stored :=
    (parseStoreSnapshot_eq_ok_iff (Nat.zero_le _) wellFormed_nil).mpr
      (Nat.zero_le _)
  have loaded : run collator [(.load true : Event parseUrl)] =
      (boot.load collator parseUrl true).1 := rfl
  have running : ¬ boot.service.health = .stopped := nofun
  rw [loaded]
  simp only [System.load, parsed, running, not_true, if_false]
  exact ⟨⟨rfl, rfl, by decide⟩, rfl, rfl⟩

/-- After a snapshot that fills the projection, preparing the cleanup of one
more committed identity writes a document the next load turns away. -/
theorem unreadable_of_full (witnesses : List (CommittedWitness parseUrl))
    (extra : CommittedWitness parseUrl)
    (distinct : (witnesses.map fun witness => witness.identity).Nodup)
    (full : witnesses.length = maxProjectionRecords)
    (unlisted : extra.identity ∉
      witnesses.map fun witness => witness.identity) :
    ∃ document ∈ (run collator
        [.load true, .reconcileCommitted witnesses (.lands (some 1)),
          .prepareCleanup extra (.lands (some 2))]).written,
      parseStoreSnapshot parseUrl collator document.toJson =
        .error .storageRejected := by
  obtain ⟨writable, empty, zero⟩ := load_boot parseUrl collator
  have start : WellFormed parseUrl collator
      (run collator [(.load true : Event parseUrl)]).service.records := by
    rw [empty]
    exact wellFormed_nil
  have passes : Reconcilable collator
      (run collator [(.load true : Event parseUrl)]).service.records
      witnesses := by
    refine ⟨aggregateWitnesses_of_distinct distinct full.le, ?_⟩
    rw [empty]
    exact fun _ _ _ listed => nomatch listed
  have count : reconciledCount
      (run collator [(.load true : Event parseUrl)]).service.records
      witnesses = maxProjectionRecords := by
    rw [reconciledCount, empty, distinct.dedup, List.length_map, full]
    rfl
  obtain ⟨next, decided, length⟩ := reconcileCommitted_of_count start passes
    (by rw [count, empty]; decide)
  obtain ⟨aggregates, rows, gathers, -, mapped, sorted, -⟩ :=
    reconcileCommitted_persist decided
  have absent : findRecord next extra.identity = none := by
    rw [findRecord_eq_none]
    intro recorded
    obtain ⟨row, listed, key⟩ := List.mem_map.mp recorded
    rw [sorted, mem_sortRecords, empty] at listed
    have inRows : row ∈ rows := by
      simpa [unlistedPending] using listed
    have identity : extra.identity ∈
        rows.map fun row => row.identity :=
      List.mem_map.mpr ⟨row, inRows, key⟩
    rw [reconciledRows_identities mapped] at identity
    exact unlisted ((gathers.identities_iff _).mp identity)
  have committed := System.enqueue_commits (fun records =>
    reconcileCommitted collator records witnesses) writable decided
    (by rw [zero]; decide)
  rw [zero] at committed
  obtain ⟨writableFull, rowsFull⟩ := committed
  have overfills : (run collator
      [.load true, .reconcileCommitted witnesses
        (.lands (some 1))]).Overfills collator
        (.prepareCleanup extra (.lands (some 2))) := by
    refine ⟨writableFull, ?_, ?_⟩
    · exact (congrArg (findRecord · extra.identity) rowsFull).trans absent
    · refine Nat.le_of_eq (Eq.symm ?_)
      exact (congrArg List.length rowsFull).trans (length.trans count)
  have sound : Sound parseUrl collator (run collator
      [.load true, .reconcileCommitted witnesses (.lands (some 1))]) :=
    run_sound _
  obtain ⟨same, formed⟩ := sound.memory overfills.healthy
  have fits : (run collator [.load true, .reconcileCommitted witnesses
      (.lands (some 1))]).service.records.length ≤ maxProjectionRecords :=
    Nat.le_of_eq ((congrArg List.length rowsFull).trans (length.trans count))
  obtain ⟨crowded, listed⟩ := overfills.stored formed fits
  obtain ⟨readable, bounded⟩ := (sound.step _).readable _ listed
  refine ⟨_, listed, ?_⟩
  rw [parseStoreSnapshot_toJson bounded readable, if_pos crowded]

/-! ## 4097 extensions -/

theorem startsWith_append (start rest : String) :
    startsWith (start ++ rest) start = true := by
  rw [startsWith, String.toList_append]
  exact List.isPrefixOf_iff_prefix.mpr (List.prefix_append _ _)

/-- An id whose origin is canonical, and parses to just the id. -/
theorem normalizeTransportIdentity_of_url {parseUrl : ParseUrl}
    {browser : Browser} {extensionId : String} {url : Url}
    (visible : extensionId ≠ "")
    (short : jsLength extensionId ≤ maxExtensionIdLength)
    (caseless : toLowerCase extensionId = extensionId)
    (noSafari : browser ≠ .safari)
    (safe : containsUnsafeOriginSyntax (extensionOriginScheme browser ++
      "://" ++ extensionId) = false)
    (parsed : parseUrl (extensionOriginScheme browser ++ "://" ++
      extensionId) = some url)
    (protocol : url.protocol = extensionOriginScheme browser ++ ":")
    (hostname : url.hostname = extensionId)
    (bare : url.port = "" ∧ url.username = "" ∧ url.password = "" ∧
      url.pathname = "" ∧ url.search = "" ∧ url.hash = "") :
    Bridge.normalizeTransportIdentity parseUrl browser extensionId =
      some (browser, extensionId) := by
  obtain ⟨port, username, password, pathname, search, hash⟩ := bare
  have rendered := origin_eq (extensionOriginScheme browser) extensionId
  have starts : startsWith (extensionOriginScheme browser ++ "://" ++
      extensionId) (extensionOriginScheme browser ++ ":" ++ "//") = true := by
    rw [rendered]
    exact startsWith_append _ extensionId
  have present : extensionOriginScheme browser ++ "://" ++ extensionId ≠
      "" := by
    rw [Ne, String.append_eq_empty_iff]
    exact fun empty => visible empty.2
  have normalized : normalizeExtensionIdentity parseUrl
      { browser := browser
        verifiedOrigin := extensionOriginScheme browser ++ "://" ++
          extensionId
        claimedExtensionId := extensionId } =
      some
        { browser := browser
          originHost := extensionId
          verifiedExtensionId :=
            if browser = .chromium then some extensionId else none } := by
    simp only [normalizeExtensionIdentity, noSafari, false_and, if_false,
      present, starts, safe, parsed, port, username, password, pathname,
      search, hash, hostname, protocol, visible, ne_eq, not_true,
      or_self, and_false, if_false, Bool.false_eq_true]
    rw [if_neg (not_not.mpr rendered)]
  have bounded : ¬ (extensionId = "" ∨
      jsLength extensionId > maxExtensionIdLength ∨
        extensionId ≠ toLowerCase extensionId) := by
    rw [caseless]
    simp [visible, short]
  rw [Bridge.normalizeTransportIdentity, if_neg bounded, normalized]
  exact if_neg (not_not.mpr rfl)

theorem jsLength_of_narrow {characters : List Char}
    (narrow : ∀ character ∈ characters, character.toNat < 0x10000) :
    jsLength (String.ofList characters) = characters.length := by
  have counted (before : Nat) : characters.foldl (fun length character =>
      length + if character.toNat < 0x10000 then 1 else 2) before =
        before + characters.length := by
    induction characters generalizing before with
    | nil => rfl
    | cons character rest induction =>
        obtain ⟨head, tail⟩ := List.forall_mem_cons.mp narrow
        rw [List.foldl_cons, if_pos head, induction tail, List.length_cons]
        omega
  rw [jsLength, String.toList_ofList, counted, Nat.zero_add]

/-- Ids of lower-case letters on the sample origins. -/
theorem normalizeTransportIdentity_of_letters {letters : List Char}
    (nonempty : letters ≠ []) (short : letters.length ≤ maxExtensionIdLength)
    (plain : ∀ letter ∈ letters, letter.toLower = letter ∧
      97 ≤ letter.toNat ∧ letter.toNat ≤ 122) :
    Bridge.normalizeTransportIdentity StoreWorld.sampleParseUrl .chromium
        (String.ofList letters) =
      some (.chromium, String.ofList letters) := by
  have visible : String.ofList letters ≠ "" := by
    intro empty
    exact nonempty (String.ofList_injective empty)
  have caseless : toLowerCase (String.ofList letters) =
      String.ofList letters := by
    rw [toLowerCase, String.toList_ofList,
      List.map_congr_left fun letter listed => (plain letter listed).1,
      List.map_id']
  have length : jsLength (String.ofList letters) = letters.length := by
    apply jsLength_of_narrow
    intro letter listed
    obtain ⟨-, -, upper⟩ := plain letter listed
    omega
  have origin : (extensionOriginScheme .chromium ++ "://" ++
      String.ofList letters).toList =
        "chrome-extension://".toList ++ letters := by
    rw [String.toList_append, String.toList_ofList]
    rfl
  have safe : containsUnsafeOriginSyntax (extensionOriginScheme .chromium ++
      "://" ++ String.ofList letters) = false := by
    rw [containsUnsafeOriginSyntax, origin, List.any_append,
      Bool.or_eq_false_iff]
    constructor
    · decide
    · rw [List.any_eq_false]
      intro letter listed
      obtain ⟨-, lower, upper⟩ := plain letter listed
      have visible (other : Char) (earlier : other.toNat < 97) :
          letter ≠ other := by
        rintro rfl
        omega
      simp [visible '\\' (by decide), visible '%' (by decide),
        visible ' ' (by decide)]
      omega
  have noSafari : Browser.chromium ≠ .safari := nofun
  apply normalizeTransportIdentity_of_url visible _ caseless noSafari safe rfl
    rfl
  · have nineteen : "chrome-extension://".toList.length = 19 := by decide
    rw [origin, ← nineteen, List.drop_left]
  · exact ⟨rfl, rfl, rfl, rfl, rfl, rfl⟩
  · omega

def sampleLetter (n : Nat) : Char := Char.ofNat (97 + n)

theorem sampleLetter_plain : ∀ n < 26,
    (sampleLetter n).toLower = sampleLetter n ∧
      (sampleLetter n).toNat = 97 + n := by
  decide

def sampleLetters (n : Nat) : List Char :=
  [sampleLetter (n / 256), sampleLetter (n / 16 % 16), sampleLetter (n % 16)]

theorem sampleLetters_plain {n : Nat} (small : n ≤ maxProjectionRecords) :
    ∀ letter ∈ sampleLetters n, letter.toLower = letter ∧
      97 ≤ letter.toNat ∧ letter.toNat ≤ 122 := by
  rw [maxProjectionRecords] at small
  have plain (digit : Nat) (bounded : digit ≤ 16) :
      (sampleLetter digit).toLower = sampleLetter digit ∧
        97 ≤ (sampleLetter digit).toNat ∧
        (sampleLetter digit).toNat ≤ 122 := by
    obtain ⟨lower, code⟩ := sampleLetter_plain digit (by omega)
    exact ⟨lower, by omega, by omega⟩
  intro letter listed
  simp only [sampleLetters, List.mem_cons, List.not_mem_nil, or_false]
    at listed
  rcases listed with rfl | rfl | rfl
  · exact plain _ (by omega)
  · exact plain _ (by omega)
  · exact plain _ (by omega)

theorem sampleLetters_injective {left right : Nat}
    (smallLeft : left ≤ maxProjectionRecords)
    (smallRight : right ≤ maxProjectionRecords)
    (same : sampleLetters left = sampleLetters right) : left = right := by
  rw [maxProjectionRecords] at smallLeft smallRight
  have digit {first second : Nat} (firstSmall : first < 26)
      (secondSmall : second < 26)
      (equal : sampleLetter first = sampleLetter second) :
      first = second := by
    have codes := congrArg Char.toNat equal
    rw [(sampleLetter_plain first firstSmall).2,
      (sampleLetter_plain second secondSmall).2] at codes
    omega
  simp only [sampleLetters, List.cons.injEq, and_true] at same
  obtain ⟨high, middle, low⟩ := same
  have highSame := digit (by omega) (by omega) high
  have middleSame := digit (by omega) (by omega) middle
  have lowSame := digit (by omega) (by omega) low
  omega

def sampleWitness (n : Nat) (small : n ≤ maxProjectionRecords) :
    CommittedWitness StoreWorld.sampleParseUrl :=
  { identity := (.chromium, String.ofList (sampleLetters n))
    identityTrust := .official
    authorizationEpoch := "0f8fad5b-d9cb-469f-a165-70867728950e"
    committedAt := 1000
    normal := normalizeTransportIdentity_of_letters nofun
      (Nat.le_of_ble_eq_true rfl) (sampleLetters_plain small)
    epoch := by decide
    time := by decide }

def sampleCollator : Collator :=
  { localeCompare := compare
    consistent := inferInstance }

def fullSnapshot : List (CommittedWitness StoreWorld.sampleParseUrl) :=
  (List.finRange maxProjectionRecords).map fun (n : Fin _) =>
    sampleWitness n n.isLt.le

theorem fullSnapshot_distinct :
    (fullSnapshot.map fun witness => witness.identity).Nodup := by
  rw [fullSnapshot, List.map_map]
  apply (List.nodup_finRange maxProjectionRecords).map
  intro left right same
  have letters : sampleLetters left = sampleLetters right :=
    String.ofList_injective (congrArg Prod.snd same)
  exact Fin.ext (sampleLetters_injective left.isLt.le right.isLt.le letters)

/-- 4096 committed extensions are reconciled, and one that was committed since
is about to be revoked. -/
def crowdedRun : List (Event StoreWorld.sampleParseUrl) :=
  [.load true, .reconcileCommitted fullSnapshot (.lands (some 1)),
    .prepareCleanup (sampleWitness maxProjectionRecords (Nat.le_refl _))
      (.lands (some 2))]

theorem crowdedRun_unreadable :
    ∃ document ∈ (run sampleCollator crowdedRun).written,
      parseStoreSnapshot StoreWorld.sampleParseUrl sampleCollator
        document.toJson = .error .storageRejected := by
  apply unreadable_of_full fullSnapshot _ fullSnapshot_distinct
  · rw [fullSnapshot, List.length_map, List.length_finRange]
  · intro listed
    obtain ⟨witness, member, same⟩ := List.mem_map.mp listed
    obtain ⟨n, -, rfl⟩ := List.mem_map.mp member
    have letters : sampleLetters n = sampleLetters maxProjectionRecords :=
      String.ofList_injective (congrArg Prod.snd same)
    have equal := sampleLetters_injective n.isLt.le (Nat.le_refl _) letters
    exact absurd n.isLt (Nat.not_lt.mpr equal.ge)

end Motrix.Bridge.PairingProjection
