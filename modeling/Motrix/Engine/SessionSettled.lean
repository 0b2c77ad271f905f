import Motrix.Engine.SessionRecovery

/-!
# Settled sessions

A recovery throws with the engine as it was, finds nothing to do, or leaves a
session without candidates.
-/

namespace Motrix.SessionIdentity

open Lib TextLines

variable {env : Environment} {engine next : Engine} {candidate : Candidate}
  {prepared : Prepared} {row : TaskRow}

/-! ## Options of rewritten entries -/

def optionsOf (serialized : Text) : List (Text × Text) :=
  (contentLines serialized).tail.filterMap parseOption

/-- A line that is not owned has an option of another name. -/
theorem parseOption_unowned {line : Text} {option : Text × Text}
    (parsed : parseOption line = some option)
    (unowned : isOwned line = false) :
    option.1 ≠ "gid".toList ∧ option.1 ≠ "pause".toList := by
  unfold parseOption at parsed
  simp only at parsed
  split at parsed
  · next value rest =>
      obtain ⟨⟨shorter, -, -⟩, same⟩ :=
        Option.ite_none_right_eq_some.mp parsed
      have body : line.dropWhile isIndent = option.1 ++ '=' :: value := by
        cases same
        rw [← rest, List.takeWhile_append_dropWhile]
      rw [body] at shorter
      unfold isOwned at unowned
      simp only [body, decide_eq_true shorter, Bool.true_and] at unowned
      rw [List.any_eq_false] at unowned
      constructor
      · intro isGidKey
        rw [isGidKey] at unowned
        exact unowned "gid=" (by simp) (by simp [List.isPrefixOf])
      · intro isPauseKey
        rw [isPauseKey] at unowned
        exact unowned "pause=" (by simp) (by simp [List.isPrefixOf])
  · cases parsed

theorem parseOption_gid {gid : Text} (valid : isGid gid = true) :
    parseOption (" gid=".toList ++ gid) = some ("gid".toList, gid) := by
  have clean : gid.all (fun letter => !isTerminator letter) = true := by
    unfold isGid at valid
    rw [Bool.and_eq_true] at valid
    rw [List.all_eq_true]
    intro letter inside
    have plain : "0123456789abcdef".toList.all (fun letter =>
        !isTerminator letter) = true := by
      decide
    exact List.all_eq_true.mp plain letter
      (List.contains_iff_mem.mp (List.all_eq_true.mp valid.2 letter inside))
  simp [parseOption, isIndent, isKeyLetter, isSpace, clean]

theorem unowned_options (name : Text)
    (listed : name = "gid".toList ∨ name = "pause".toList)
    (lines : List Text) :
    ((lines.filter fun line => !isOwned line).filterMap parseOption).filter
      (fun option => option.1 == name) = [] := by
  rw [List.filter_eq_nil_iff]
  intro option inside
  obtain ⟨line, among, parsed⟩ := List.mem_filterMap.mp inside
  have unowned : isOwned line = false := by
    simpa using (List.mem_filter.mp among).2
  obtain ⟨notGid, notPause⟩ := parseOption_unowned parsed unowned
  rcases listed with rfl | rfl
  · simpa using notGid
  · simpa using notPause

/-- What a row has become in place of its candidate. -/
structure Rewritten (env : Environment) (candidate : Candidate)
    (row : TaskRow) : Prop where
  gid : row.gid = candidate.row.gid
  state : row.state = candidate.row.state
  torrent : row.btLocalPath = some (metadataPath env candidate.row.gid)
  lines : contentLines row.serialized = rewrittenLines env candidate
  digest : row.digest = env.digest row.serialized row.state
  named : (optionsOf row.serialized).filter
      (fun option => option.1 == "gid".toList) =
    [("gid".toList, candidate.row.gid)]
  paused : (optionsOf row.serialized).filter
      (fun option => option.1 == "pause".toList) =
    if staysPaused candidate then [("pause".toList, "true".toList)] else []

theorem rewrite_rewritten {change : Change}
    (isRow : change.row = candidate.row)
    (isText : change.serialized = serialize env candidate)
    (isPath : change.metadataPath = metadataPath env candidate.row.gid)
    (plain : Plain (metadataPath env candidate.row.gid))
    (valid : isGid candidate.row.gid = true)
    (parsed : parseEntry env.windows candidate.row.serialized =
      some candidate.entry) :
    Rewritten env candidate (rewrite env change candidate.row) := by
  have lines := contentLines_serialize valid plain parsed
  have options : optionsOf (serialize env candidate) =
      ("gid".toList, candidate.row.gid) ::
        ((pauseLines candidate).filterMap parseOption ++
          (candidate.entry.options.filter fun line =>
            !isOwned line).filterMap parseOption) := by
    unfold optionsOf
    rw [lines, rewrittenLines, List.tail_cons,
      List.filterMap_cons_some (parseOption_gid valid), List.filterMap_append]
  have pause : (pauseLines candidate).filterMap parseOption =
      if staysPaused candidate then [("pause".toList, "true".toList)]
      else [] := by
    unfold pauseLines
    split
    · decide
    · rfl
  exact {
    gid := rfl
    state := rfl
    torrent := by rw [← isPath]; rfl
    lines := by
      change contentLines change.serialized = _
      rw [isText, lines]
    digest := by
      change env.digest change.serialized change.row.state = _
      rw [isRow]
      rfl
    named := by
      change (optionsOf change.serialized).filter _ = _
      rw [isText, options, List.filter_cons_of_pos (by simp),
        List.filter_append, unowned_options _ (.inl rfl), pause]
      split
      · rfl
      · rfl
    paused := by
      change (optionsOf change.serialized).filter _ = _
      rw [isText, options, List.filter_cons_of_neg (by simp),
        List.filter_append, unowned_options _ (.inr rfl), pause]
      split
      · rfl
      · rfl }

/-! ## The rows of the next session -/

namespace Known

/-- The candidates of a prepared session are rewritten or quarantined. -/
theorem candidate_settled (known : Known env engine prepared)
    (inside : candidate ∈ candidates env.windows engine.tasks) :
    (Rewritten env candidate (updated env prepared.changes candidate.row) ∧
      candidate.row.gid ∉ removedGids prepared.verdicts) ∨
      ∃ failure ∈ quarantined prepared.verdicts,
        failure.task.engineTaskId = candidate.row.gid := by
  obtain ⟨verdict, among, judged⟩ := known.verdict candidate inside
  obtain ⟨same, -, -, named⟩ := judge_ok judged
  cases outcome : verdict.outcome with
  | inl failure =>
      right
      exact ⟨failure, mem_quarantined.mpr ⟨verdict, among, outcome⟩,
        named failure outcome⟩
  | inr bytes =>
      left
      obtain ⟨made, there, isRow, isText, isPath, plain⟩ :=
        known.change verdict among bytes outcome
      rw [same] at isRow isText isPath plain
      obtain ⟨isTask, parsed, -⟩ := mem_candidates.mp inside
      constructor
      · rw [← isRow, updated_row known.distinct there, isRow]
        exact rewrite_rewritten isRow isText isPath plain
          (known.gids _ isTask) parsed
      · intro removed
        rcases List.mem_append.mp removed with retired | kept
        · exact known.not_retired inside retired
        · apply known.not_quarantined among outcome
          rw [same]
          exact kept

/-- A row that is removed and no candidate is a proven ancestor. -/
theorem removed_other (known : Known env engine prepared)
    (inside : row ∈ engine.tasks)
    (other : ∀ candidate ∈ candidates env.windows engine.tasks,
      candidate.row ≠ row)
    (removed : row.gid ∈ removedGids prepared.verdicts) :
    ∃ candidate ∈ candidates env.windows engine.tasks,
      candidate.entry.gid = row.gid ∧ isVerified engine candidate = true := by
  rcases List.mem_append.mp removed with retired | kept
  · obtain ⟨verdict, among, same⟩ := List.mem_map.mp retired
    obtain ⟨among, verified⟩ := List.mem_filter.mp among
    obtain ⟨isCandidate, judged⟩ := known.candidate verdict among
    refine ⟨verdict.candidate, isCandidate, same, ?_⟩
    rw [← (judge_ok judged).2.1]
    exact verified
  · obtain ⟨failure, isFailure, same⟩ := List.mem_map.mp kept
    obtain ⟨verdict, among, outcome⟩ := mem_quarantined.mp isFailure
    obtain ⟨isCandidate, judged⟩ := known.candidate verdict among
    have gid := (judge_ok judged).2.2.2 failure outcome
    have equal := List.inj_on_of_nodup_map known.unique
      (mem_candidates.mp isCandidate).1 inside (gid.symm.trans same)
    exact absurd equal (other verdict.candidate isCandidate)

end Known

/-- A record that is no longer in the history confirmed a child. -/
theorem history_kept {record : HistoryRecord}
    (inside : record ∈ engine.history)
    (known : Known env engine prepared) :
    record ∈ engine.history.filter (fun record =>
        !(retiredHistoryIds engine prepared.verdicts).contains record.id) ∨
      ∃ candidate ∈ candidates env.windows engine.tasks,
        isVerified engine candidate = true ∧
          ∃ proof ∈ engine.history, proof.id = record.id ∧
            proof.gid = candidate.entry.gid ∧
              confirmsChild candidate.row.gid proof = true := by
  by_cases retired : record.id ∈ retiredHistoryIds engine prepared.verdicts
  · right
    obtain ⟨verdict, among, among'⟩ := List.mem_flatMap.mp retired
    obtain ⟨among, verified⟩ := List.mem_filter.mp among
    obtain ⟨isCandidate, judged⟩ := known.candidate verdict among
    obtain ⟨proof, isProof, same⟩ := List.mem_map.mp among'
    obtain ⟨isProof, confirms⟩ := List.mem_filter.mp isProof
    unfold historyOf at isProof
    rw [List.mem_insertionSort] at isProof
    obtain ⟨there, gid⟩ := List.mem_filter.mp isProof
    refine ⟨verdict.candidate, isCandidate, ?_, proof, there, same, ?_,
      confirms⟩
    · rw [← (judge_ok judged).2.1]
      exact verified
    · simpa using gid
  · left
    rw [List.mem_filter]
    exact ⟨inside, by simpa using retired⟩

/-! ## Outcomes -/

/-- A session that has been recovered. -/
structure Recovered (env : Environment) (before after : World) : Prop where
  application : before.application <+: after.application
  candidate : ∀ candidate ∈ candidates env.windows before.engine.tasks,
    (∃ row ∈ after.engine.tasks, Rewritten env candidate row) ∨
      (candidate.row.gid ∉ after.engine.tasks.map (·.gid) ∧
        ∃ failure ∈ after.application,
          failure.task.engineTaskId = candidate.row.gid)
  other : ∀ row ∈ before.engine.tasks,
    (∀ candidate ∈ candidates env.windows before.engine.tasks,
      candidate.row ≠ row) →
    row ∈ after.engine.tasks ∨
      ∃ candidate ∈ candidates env.windows before.engine.tasks,
        candidate.entry.gid = row.gid ∧
          isVerified before.engine candidate = true
  row : ∀ row ∈ after.engine.tasks, row ∈ before.engine.tasks ∨
    ∃ candidate ∈ candidates env.windows before.engine.tasks,
      Rewritten env candidate row
  unique : (after.engine.tasks.map (·.gid)).Nodup
  history : ∀ record ∈ before.engine.history,
    record ∈ after.engine.history ∨
      ∃ candidate ∈ candidates env.windows before.engine.tasks,
        isVerified before.engine candidate = true ∧
          ∃ proof ∈ before.engine.history, proof.id = record.id ∧
            proof.gid = candidate.entry.gid ∧
              confirmsChild candidate.row.gid proof = true
  settled : candidates env.windows after.engine.tasks = []

/-- The rows after a transaction. -/
theorem mem_committed (known : Known env engine prepared)
    (committed : commit env engine prepared = .ok next) :
    row ∈ next.tasks ↔ ∃ old ∈ engine.tasks,
      updated env prepared.changes old = row ∧
        old.gid ∉ removedGids prepared.verdicts := by
  rw [(commit_ok known.distinct committed).1, List.mem_filter, List.mem_map]
  constructor
  · rintro ⟨⟨old, inside, rfl⟩, kept⟩
    refine ⟨old, inside, rfl, ?_⟩
    simpa [updated_gid] using kept
  · rintro ⟨old, inside, rfl, kept⟩
    exact ⟨⟨old, inside, rfl⟩, by simpa [updated_gid] using kept⟩

/-- A row after a transaction is an old one or has been rewritten. -/
theorem row_committed (known : Known env engine prepared)
    (committed : commit env engine prepared = .ok next)
    (inside : row ∈ next.tasks) :
    (row ∈ engine.tasks ∧
      ∀ candidate ∈ candidates env.windows engine.tasks,
        candidate.row ≠ row) ∨
      ∃ candidate ∈ candidates env.windows engine.tasks,
        Rewritten env candidate row := by
  obtain ⟨old, there, same, kept⟩ :=
    (mem_committed known committed).mp inside
  by_cases isCandidate : ∃ candidate ∈ candidates env.windows engine.tasks,
      candidate.row = old
  · right
    obtain ⟨candidate, among, isRow⟩ := isCandidate
    refine ⟨candidate, among, ?_⟩
    rcases known.candidate_settled among with ⟨done, -⟩ | removed
    · rw [isRow, same] at done
      exact done
    · obtain ⟨failure, isFailure, gid⟩ := removed
      rw [isRow] at gid
      exact absurd (List.mem_append_right _
        (List.mem_map.mpr ⟨failure, isFailure, gid⟩)) kept
  · left
    have apart : ∀ candidate ∈ candidates env.windows engine.tasks,
        candidate.row ≠ old :=
      fun candidate among isRow => isCandidate ⟨candidate, among, isRow⟩
    rw [known.updated_other there apart] at same
    exact same ▸ ⟨there, apart⟩

theorem candidates_committed (known : Known env engine prepared)
    (committed : commit env engine prepared = .ok next) :
    candidates env.windows next.tasks = [] := by
  rw [List.eq_nil_iff_forall_not_mem]
  intro candidate inside
  obtain ⟨there, parsed, apart⟩ := mem_candidates.mp inside
  rcases row_committed known committed there with ⟨old, other⟩ | rewritten
  · exact other candidate (mem_candidates.mpr ⟨old, parsed, apart⟩) rfl
  · obtain ⟨before, -, done⟩ := rewritten
    rw [parseEntry_rewritten done.lines] at parsed
    cases parsed

theorem commit_recovered (application : List TaskFailure)
    (known : Known env engine prepared)
    (committed : commit env engine prepared = .ok next) :
    Recovered env
      { engine := engine
        application := application }
      { engine := next
        application := application ++ quarantined prepared.verdicts } where
  application := List.prefix_append _ _
  candidate := by
    intro candidate inside
    have there := (mem_candidates.mp inside).1
    rcases known.candidate_settled inside with ⟨done, kept⟩ | removed
    · left
      exact ⟨_, (mem_committed known committed).mpr
        ⟨candidate.row, there, rfl, kept⟩, done⟩
    · right
      obtain ⟨failure, isFailure, gid⟩ := removed
      refine ⟨?_, failure, List.mem_append_right _ isFailure, gid⟩
      intro among
      obtain ⟨row, isRow, same⟩ := List.mem_map.mp among
      obtain ⟨old, -, rfl, kept⟩ :=
        (mem_committed known committed).mp isRow
      rw [updated_gid, ← gid] at same
      exact kept (List.mem_append_right _
        (List.mem_map.mpr ⟨failure, isFailure, same.symm⟩))
  other := by
    intro row inside apart
    by_cases removed : row.gid ∈ removedGids prepared.verdicts
    · exact .inr (known.removed_other inside apart removed)
    · left
      exact (mem_committed known committed).mpr
        ⟨row, inside, known.updated_other inside apart, removed⟩
  row := by
    intro row inside
    rcases row_committed known committed inside with ⟨old, -⟩ | rewritten
    · exact .inl old
    · exact .inr rewritten
  unique := by
    change (next.tasks.map (·.gid)).Nodup
    rw [(commit_ok known.distinct committed).1]
    have same : (engine.tasks.map (updated env prepared.changes)).map
        (·.gid) = engine.tasks.map (·.gid) := by
      rw [List.map_map]
      exact List.map_congr_left fun row _ =>
        updated_gid env prepared.changes row
    have kept : ((engine.tasks.map (updated env prepared.changes)).map
        (·.gid)).Nodup := by
      rw [same]
      exact known.unique
    exact kept.sublist (List.filter_sublist.map _)
  history := by
    intro record inside
    change record ∈ next.history ∨ _
    rw [(commit_ok known.distinct committed).2]
    exact history_kept inside known
  settled := candidates_committed known committed

/-- A session in which there is nothing to do. -/
theorem prepare_nothing (idle : prepare env engine = .ok none) :
    env.database = .missing ∨ engine.version ∉ [1, 2, 3, 4, 5, 6] ∨
      candidates env.windows engine.tasks = [] := by
  unfold prepare at idle
  split at idle
  · next missing => exact .inl missing
  · cases idle
  · split at idle
    · next version => exact .inr (.inl (by simpa using version))
    · split at idle
      · cases idle
      · simp only at idle
        split at idle
        · next empty => exact .inr (.inr (by simpa using empty))
        · split at idle
          · cases idle
          · split at idle
            · cases idle
            · obtain ⟨verdicts, -, idle⟩ := bind_eq_ok.mp idle
              split at idle
              · cases idle
              · obtain ⟨-, -, idle⟩ := bind_eq_ok.mp idle
                obtain ⟨changes, -, idle⟩ := bind_eq_ok.mp idle
                cases idle

/-- What has happened to the world under an outcome. -/
def Settled (env : Environment) (before : World) : Outcome × World → Prop
  | (.threw _, after) => after.engine = before.engine ∧
      before.application <+: after.application
  | (.nothing, after) => after = before ∧
      (env.database = .missing ∨
        before.engine.version ∉ [1, 2, 3, 4, 5, 6] ∨
          candidates env.windows before.engine.tasks = [])
  | (.recovered .., after) => Recovered env before after

theorem recovery_settles (env : Environment) (world : World)
    (unique : (world.engine.tasks.map (·.gid)).Nodup) :
    Settled env world (recoverAria2SessionIdentity env world) := by
  unfold recoverAria2SessionIdentity
  split
  · exact ⟨rfl, List.prefix_refl _⟩
  · next idle => exact ⟨rfl, prepare_nothing idle⟩
  · next prepared ready =>
      have known := prepare_known unique ready
      simp only
      split
      · exact ⟨rfl, List.prefix_refl _⟩
      · split
        · exact ⟨rfl, List.prefix_append _ _⟩
        · next next committed =>
            exact commit_recovered world.application known committed

/-- A torrent with one file of one byte. -/
def savedTorrent : Bytes :=
  [100, 52, 58, 105, 110, 102, 111, 100, 54, 58, 108, 101, 110, 103, 116,
   104, 105, 49, 101, 52, 58, 110, 97, 109, 101, 49, 58, 97, 49, 50, 58, 112,
   105, 101, 99, 101, 32, 108, 101, 110, 103, 116, 104, 105, 49, 54, 51, 56,
   52, 101, 54, 58, 112, 105, 101, 99, 101, 115, 50, 48, 58, 17, 246, 173,
   142, 197, 42, 41, 132, 171, 170, 253, 124, 59, 81, 101, 3, 120, 92, 32,
   114, 101, 101]

def savedHash : Text := "e6e723a23c728aa215d646474354d4d322e02b81".toList

def lostHash : Text := "d0941e68da8f38151ff86a61fc59f7c5cf9fcaa2".toList

def savedHost : Environment where
  windows := false
  database := .file 4096
  canRepair := fun _ => true
  join := fun directory name => directory ++ '/' :: name
  stat := fun path =>
    if path = "/downloads".toList then .directory
    else if path = "/downloads/".toList ++ savedHash ++ ".torrent".toList then
      .file savedTorrent.length
    else .missing
  readFile := fun _ => .bytes savedTorrent
  parseTorrent := fun bytes =>
    if bytes = savedTorrent then
      some
        { infoHash := savedHash
          files := 1 }
    else none
  parseMagnet := fun source => some (source.drop "magnet:?xt=urn:btih:".length)
  store := some
    { getContext := fun _ =>
        { metadataPaths := []
          retired := false }
      quarantine := fun _ => pure () }
  recoveryDir := "/data/aria2.db.identity-recovery-a1B2c3".toList
  absolute := rfl
  backup := pure ()
  writeFile := fun _ _ => pure ()
  digest := fun _ _ =>
    [238, 246, 185, 33, 212, 16, 43, 208, 182, 119, 167, 120, 181, 143, 22,
      102, 156, 96, 161, 132]
  dataVersionKept := true
  now := 1700000000000
  commit := pure ()

def savedRow (gid state : String) (hash : Text) (ancestor : String) :
    TaskRow where
  gid := gid.toList
  state := state.toList
  serialized := "magnet:?xt=urn:btih:".toList ++ hash ++
    "\n gid=".toList ++ ancestor.toList ++ "\n dir=/downloads\n".toList
  digest := []
  btLocalPath := none
  updatedAt := 0

/-- A paused candidate with its ancestor and one whose metadata is lost. -/
def savedWorld (version : Int) : World where
  engine :=
    { version := version
      tasks := [
        savedRow "1111111111111111" "waiting" savedHash "1111111111111111",
        savedRow "2222222222222222" "paused" savedHash "1111111111111111",
        savedRow "3333333333333333" "waiting" lostHash "4444444444444444"]
      history := [
        { id := 7
          gid := "1111111111111111".toList
          status := "complete".toList
          followedBy := some ["2222222222222222".toList] }]
      progress := []
      legacyCheckpointImport := []
      legacyTorrentMetadata := [] }
  application := []

theorem savedWorld_settles :
    (recoverAria2SessionIdentity savedHost (savedWorld 6)).1 =
        .recovered ["2222222222222222".toList] ["1111111111111111".toList]
          ["3333333333333333".toList] ∧
      Settled savedHost (savedWorld 6)
        (recoverAria2SessionIdentity savedHost (savedWorld 6)) :=
  ⟨by decide +kernel,
    recovery_settles savedHost (savedWorld 6) (by decide +kernel)⟩

/-- In a later version of the engine the candidates stay as they are. -/
theorem laterVersion_kept :
    (recoverAria2SessionIdentity savedHost (savedWorld 7)).1 = .nothing ∧
      ¬ Recovered savedHost (savedWorld 7)
        (recoverAria2SessionIdentity savedHost (savedWorld 7)).2 := by
  constructor
  · decide +kernel
  · intro recovered
    have settled := congrArg List.isEmpty recovered.settled
    revert settled
    decide +kernel

end Motrix.SessionIdentity
