import Mathlib.Data.List.Nodup
import Mathlib.Data.List.TakeWhile
import Motrix.Engine.SessionIdentity

/-!
# What a recovery leaves behind

Every candidate is rewritten to its own torrent or kept by the application,
and only ancestors whose latest record names a candidate go with them.
-/

namespace Motrix.SessionIdentity

open Lib TextLines

variable {env : Environment} {engine : Engine} {candidate : Candidate}
  {verdict : Verdict} {verdicts : List Verdict} {changes : List Change}
  {tasks result : List TaskRow}

/-! ## Lines of entries -/

theorem parseOption_line {line : Text} {option : Text × Text}
    (parsed : parseOption line = some option) :
    Plain line ∧ line.all isSpace = false := by
  unfold parseOption at parsed
  simp only at parsed
  split at parsed
  · next value rest =>
      obtain ⟨⟨-, -, clean⟩, -⟩ :=
        Option.ite_none_right_eq_some.mp parsed
      have whole : line = line.takeWhile isIndent ++
          ((line.dropWhile isIndent).takeWhile isKeyLetter ++
            '=' :: value) := by
        rw [← rest, List.takeWhile_append_dropWhile,
          List.takeWhile_append_dropWhile]
      have letters : ∀ letter ∈ line,
          letter ≠ '\n' ∧ letter ≠ '\r' := by
        intro letter inside
        rw [whole] at inside
        rcases List.mem_append.mp inside with indent | inside
        · have blank := List.mem_takeWhile_imp indent
          constructor
          · rintro rfl
            exact absurd blank (by decide)
          · rintro rfl
            exact absurd blank (by decide)
        rcases List.mem_append.mp inside with key | inside
        · have good := List.mem_takeWhile_imp key
          constructor
          · rintro rfl
            exact absurd good (by decide)
          · rintro rfl
            exact absurd good (by decide)
        rcases List.mem_cons.mp inside with rfl | among
        · decide
        · have good := List.all_eq_true.mp clean letter among
          constructor
          · rintro rfl
            exact absurd good (by decide)
          · rintro rfl
            exact absurd good (by decide)
      refine ⟨⟨fun inside => (letters _ inside).1 rfl,
        fun inside => (letters _ inside).2 rfl⟩, ?_⟩
      rw [List.all_eq_false]
      exact ⟨'=', by rw [whole]; simp, by decide⟩
  · cases parsed

theorem mapM_parsed {lines : List Text} {options : List (Text × Text)}
    (parsed : lines.mapM parseOption = some options) :
    ∀ line ∈ lines, ∃ option, parseOption line = some option := by
  induction lines generalizing options with
  | nil => simp
  | cons line rest induction =>
      rw [List.mapM_cons] at parsed
      obtain ⟨option, here, parsed⟩ := Option.bind_eq_some_iff.mp parsed
      obtain ⟨others, later, -⟩ := Option.bind_eq_some_iff.mp parsed
      exact List.forall_mem_cons.mpr ⟨⟨option, here⟩, induction later⟩

theorem parseEntry_options {windows : Bool} {text : Text} {entry : Entry}
    (parsed : parseEntry windows text = some entry) :
    ∀ line ∈ entry.options, Plain line ∧ line.all isSpace = false := by
  unfold parseEntry at parsed
  split at parsed
  · cases parsed
  · next source lines found =>
      split at parsed
      · cases parsed
      · obtain ⟨options, isOptions, parsed⟩ :=
          Option.bind_eq_some_iff.mp parsed
        obtain ⟨gid, -, parsed⟩ := Option.bind_eq_some_iff.mp parsed
        obtain ⟨directory, -, parsed⟩ := Option.bind_eq_some_iff.mp parsed
        obtain ⟨-, same⟩ := Option.ite_none_right_eq_some.mp parsed
        cases same
        intro line inside
        obtain ⟨option, read⟩ := mapM_parsed isOptions line inside
        exact parseOption_line read

/-- Lines ended by line feeds are the content. -/
theorem contentLines_flatMap {lines : List Text}
    (good : ∀ line ∈ lines, Plain line ∧ line.all isSpace = false)
    {rest : Text} (blank : contentLines rest = []) :
    contentLines (lines.flatMap (· ++ ['\n']) ++ rest) = lines := by
  unfold contentLines at blank ⊢
  rw [splitLines_flatMap fun line inside => (good line inside).1,
    List.filter_append, blank, List.append_nil, List.filter_eq_self]
  intro line inside
  rw [(good line inside).2]
  rfl

theorem intercalate_feed (lines : List Text) :
    List.intercalate ['\n'] lines ++ ['\n'] =
      lines.flatMap (· ++ ['\n']) ++ if lines = [] then ['\n'] else [] := by
  induction lines with
  | nil => rfl
  | cons line rest induction =>
      cases rest with
      | nil => simp [List.intercalate]
      | cons other rest =>
          have step : List.intercalate ['\n'] (line :: other :: rest) =
              line ++ ['\n'] ++ List.intercalate ['\n'] (other :: rest) := by
            simp [List.intercalate]
          rw [step, List.append_assoc, induction]
          simp

def pauseLines (candidate : Candidate) : List Text :=
  if staysPaused candidate then [" pause=true".toList] else []

/-- The lines of a rewritten entry. -/
def rewrittenLines (env : Environment) (candidate : Candidate) : List Text :=
  metadataPath env candidate.row.gid ::
    (" gid=".toList ++ candidate.row.gid) :: (pauseLines candidate ++
      candidate.entry.options.filter fun line => !isOwned line)

theorem serialize_lines (env : Environment) (candidate : Candidate) :
    serialize env candidate =
      (rewrittenLines env candidate).flatMap (· ++ ['\n']) ++
        if (candidate.entry.options.filter fun line => !isOwned line) = [] then
          ['\n']
        else [] := by
  unfold serialize rewrittenLines pauseLines
  rw [intercalate_feed]
  cases staysPaused candidate with
  | true => simp
  | false => simp

theorem isGid_letters {gid : Text} (valid : isGid gid = true) :
    Plain gid ∧ ∀ letter ∈ gid, isSpace letter = false := by
  unfold isGid at valid
  rw [Bool.and_eq_true] at valid
  have hex : ∀ letter ∈ gid, letter ∈ "0123456789abcdef".toList := by
    intro letter inside
    exact List.contains_iff_mem.mp (List.all_eq_true.mp valid.2 letter inside)
  have dark : "0123456789abcdef".toList.all (fun letter =>
      !isSpace letter) = true := by
    decide
  have letters : ∀ letter ∈ gid, isSpace letter = false := by
    intro letter inside
    simpa using List.all_eq_true.mp dark letter (hex letter inside)
  refine ⟨⟨?_, ?_⟩, letters⟩
  · exact fun inside => absurd (letters _ inside) (by decide)
  · exact fun inside => absurd (letters _ inside) (by decide)

/-- An absolute path is no magnet link and is not blank. -/
theorem isAbsolute_source {windows : Bool} {path : Text}
    (absolute : isAbsolute windows path = true) :
    "magnet:".toList.isPrefixOf path = false ∧ path.all isSpace = false := by
  have first : ∀ letter, letter ∈ ['/', '\\'] → ∀ rest : Text,
      "magnet:".toList.isPrefixOf (letter :: rest) = false ∧
        (letter :: rest).all isSpace = false := by
    intro letter inside rest
    rcases List.mem_cons.mp inside with rfl | inside
    · exact ⟨by simp [List.isPrefixOf], by simp [isSpace]⟩
    · rw [List.mem_singleton.mp inside]
      exact ⟨by simp [List.isPrefixOf], by simp [isSpace]⟩
  unfold isAbsolute at absolute
  split at absolute
  · split at absolute
    · next rest => exact first '/' (by decide) rest
    · next rest => exact first '\\' (by decide) rest
    · next drive separator rest =>
        exact ⟨by simp [List.isPrefixOf], by simp [isSpace]⟩
    · cases absolute
  · cases path with
    | nil => cases absolute
    | cons letter rest =>
        have slash : letter = '/' := by simpa using absolute
        exact slash ▸ first '/' (by decide) rest

theorem isAbsolute_append {windows : Bool} {path : Text}
    (absolute : isAbsolute windows path = true) (rest : Text) :
    isAbsolute windows (path ++ rest) = true := by
  unfold isAbsolute at absolute ⊢
  split at absolute
  · next isWindows =>
      rw [if_pos isWindows]
      split at absolute
      · rfl
      · rfl
      · next drive separator others _ _ =>
          simp only [List.cons_append]
          exact absolute
      · cases absolute
  · next isPosix =>
      rw [if_neg isPosix]
      cases path with
      | nil => cases absolute
      | cons letter others => exact absolute

/-- The content of a rewritten entry. -/
theorem contentLines_serialize (isGid' : isGid candidate.row.gid = true)
    (plain : Plain (metadataPath env candidate.row.gid))
    (parsed : parseEntry env.windows candidate.row.serialized =
      some candidate.entry) :
    contentLines (serialize env candidate) = rewrittenLines env candidate := by
  rw [serialize_lines]
  apply contentLines_flatMap
  · have options := parseEntry_options parsed
    obtain ⟨plainGid, letters⟩ := isGid_letters isGid'
    have absolute := isAbsolute_append env.absolute
      (separator env :: (candidate.row.gid ++ ".torrent".toList))
    intro line inside
    unfold rewrittenLines at inside
    rcases List.mem_cons.mp inside with rfl | inside
    · exact ⟨plain, (isAbsolute_source absolute).2⟩
    rcases List.mem_cons.mp inside with rfl | inside
    · refine ⟨⟨?_, ?_⟩, ?_⟩
      · simp [plainGid.1]
      · simp [plainGid.2]
      · rw [List.all_append]
        have key : " gid=".toList.all isSpace = false := by decide
        rw [key, Bool.false_and]
    rcases List.mem_append.mp inside with pause | option
    · unfold pauseLines at pause
      split at pause
      · rw [List.mem_singleton.mp pause]
        exact ⟨⟨by decide, by decide⟩, by decide⟩
      · cases pause
    · exact options line (List.mem_filter.mp option).1
  · split
    · decide
    · decide

/-- A rewritten entry has no magnet link and is no candidate any more. -/
theorem parseEntry_rewritten {text : Text}
    (lines : contentLines text = rewrittenLines env candidate) :
    parseEntry env.windows text = none := by
  have absolute := isAbsolute_append env.absolute
    (separator env :: (candidate.row.gid ++ ".torrent".toList))
  unfold parseEntry
  rw [lines, rewrittenLines]
  simp only
  rw [if_pos]
  unfold metadataPath
  rw [(isAbsolute_source absolute).1]
  rfl

/-! ## Candidates and verdicts -/

theorem asCandidate_eq_some {windows : Bool} {row : TaskRow} :
    asCandidate windows row = some candidate ↔
      candidate.row = row ∧
        parseEntry windows row.serialized = some candidate.entry ∧
          row.gid ≠ candidate.entry.gid := by
  unfold asCandidate
  constructor
  · intro found
    obtain ⟨entry, parsed, found⟩ := Option.bind_eq_some_iff.mp found
    split at found
    · cases found
    · next apart =>
        cases found
        exact ⟨rfl, parsed, apart⟩
  · rintro ⟨rfl, parsed, apart⟩
    simp [parsed, apart]

theorem mem_candidates {windows : Bool} :
    candidate ∈ candidates windows tasks ↔
      candidate.row ∈ tasks ∧
        parseEntry windows candidate.row.serialized = some candidate.entry ∧
          candidate.row.gid ≠ candidate.entry.gid := by
  unfold candidates
  rw [List.mem_filterMap]
  constructor
  · rintro ⟨row, inside, found⟩
    obtain ⟨rfl, rest⟩ := asCandidate_eq_some.mp found
    exact ⟨inside, rest⟩
  · rintro ⟨inside, rest⟩
    exact ⟨candidate.row, inside, asCandidate_eq_some.mpr ⟨rfl, rest⟩⟩

theorem recoverable_task {task : SessionTask} {failure : TaskFailure}
    (settled : recoverable env task = .ok (.inl failure)) :
    failure.task = task := by
  unfold recoverable at settled
  obtain ⟨missing, -, settled⟩ := bind_eq_ok.mp settled
  obtain ⟨found, -, settled⟩ := bind_eq_ok.mp settled
  unfold settle at settled
  split at settled
  · cases settled
  · split at settled
    · cases settled
      rfl
    · cases settled

/-- What a verdict has been passed on. -/
theorem judge_ok (judged : judge env engine candidate = .ok verdict) :
    verdict.candidate = candidate ∧
      verdict.verified = isVerified engine candidate ∧
        checkParent env engine candidate = .ok () ∧
          ∀ failure, verdict.outcome = .inl failure →
            failure.task.engineTaskId = candidate.row.gid := by
  unfold judge at judged
  simp only at judged
  split at judged
  · cases judged
  · obtain ⟨⟨⟩, parent, judged⟩ := bind_eq_ok.mp judged
    obtain ⟨infoHash, -, judged⟩ := bind_eq_ok.mp judged
    obtain ⟨outcome, settled, judged⟩ := bind_eq_ok.mp judged
    cases judged
    refine ⟨rfl, rfl, parent, ?_⟩
    rintro failure rfl
    rw [recoverable_task settled]

theorem change_ok {plan : Candidate × Bytes} {made : Change}
    (changed : change env plan = .ok made) :
    made.row = plan.1.row ∧ made.serialized = serialize env plan.1 ∧
      made.metadataPath = metadataPath env plan.1.row.gid ∧
        Plain (metadataPath env plan.1.row.gid) := by
  unfold change at changed
  simp only at changed
  split at changed
  · cases changed
  · next clean =>
      obtain ⟨-, -, changed⟩ := bind_eq_ok.mp changed
      cases changed
      refine ⟨rfl, rfl, rfl, ?_, ?_⟩
      · exact fun inside => clean (List.any_eq_true.mpr ⟨_, inside, rfl⟩)
      · exact fun inside => clean (List.any_eq_true.mpr ⟨_, inside, rfl⟩)

/-- A preparation that has found something to do. -/
theorem prepare_ok {prepared : Prepared}
    (ready : prepare env engine = .ok (some prepared)) :
    (∀ row ∈ engine.tasks, isGid row.gid = true) ∧
      (candidates env.windows engine.tasks).mapM (judge env engine) =
        .ok prepared.verdicts ∧
        (plans prepared.verdicts).mapM (change env) =
          .ok prepared.changes := by
  unfold prepare at ready
  split at ready
  · cases ready
  · cases ready
  · split at ready
    · cases ready
    · split at ready
      · cases ready
      · next valid =>
          simp only at ready
          split at ready
          · cases ready
          · split at ready
            · cases ready
            · split at ready
              · cases ready
              · obtain ⟨verdicts, judged, ready⟩ := bind_eq_ok.mp ready
                split at ready
                · cases ready
                · obtain ⟨-, -, ready⟩ := bind_eq_ok.mp ready
                  obtain ⟨changes, changed, ready⟩ := bind_eq_ok.mp ready
                  cases ready
                  refine ⟨?_, judged, changed⟩
                  simpa using valid

/-! ## The transaction -/

/-- What the updates make of a row. -/
def updated (env : Environment) (changes : List Change) (row : TaskRow) :
    TaskRow :=
  match changes.find? fun change => isTarget change row with
  | some change => rewrite env change row
  | none => row

theorem isTarget_gid {change : Change} {row : TaskRow}
    (target : isTarget change row = true) : row.gid = change.row.gid := by
  unfold isTarget at target
  rw [Bool.and_eq_true, Bool.and_eq_true, beq_iff_eq] at target
  exact target.1.1

/-- Changes of different rows are made one by one. -/
theorem applyChanges_ok (distinct : (changes.map (·.row.gid)).Nodup)
    (applied : changes.foldlM (applyChange env) tasks = .ok result) :
    result = tasks.map (updated env changes) := by
  induction changes generalizing tasks with
  | nil =>
      cases pure_eq_ok.mp applied
      exact (List.map_id _).symm
  | cons change rest induction =>
      obtain ⟨apart, distinct'⟩ := List.nodup_cons.mp distinct
      rw [List.foldlM_cons] at applied
      obtain ⟨middle, step, applied⟩ := bind_eq_ok.mp applied
      obtain ⟨-, step⟩ := guard_eq_ok.mp step
      cases pure_eq_ok.mp step
      rw [induction distinct' applied, List.map_map]
      apply List.map_congr_left
      intro row _
      show updated env rest
        (if isTarget change row then rewrite env change row else row) = _
      cases target : isTarget change row with
      | true =>
          have none : rest.find? (fun other =>
              isTarget other (rewrite env change row)) = none := by
            rw [List.find?_eq_none]
            intro other inside hit
            have same : (rewrite env change row).gid = other.row.gid :=
              isTarget_gid hit
            change row.gid = other.row.gid at same
            rw [isTarget_gid target] at same
            exact apart (List.mem_map.mpr ⟨other, inside, same.symm⟩)
          simp [updated, target, none]
      | false => simp [updated, target]

theorem updated_gid (env : Environment) (changes : List Change)
    (row : TaskRow) : (updated env changes row).gid = row.gid := by
  unfold updated
  split
  · rfl
  · rfl

/-- The row of a change is rewritten by it. -/
theorem updated_row (distinct : (changes.map (·.row.gid)).Nodup)
    {change : Change} (inside : change ∈ changes) :
    updated env changes change.row = rewrite env change change.row := by
  have hit : isTarget change change.row = true := by simp [isTarget]
  unfold updated
  cases found : changes.find? fun other => isTarget other change.row with
  | none => exact absurd hit (List.find?_eq_none.mp found change inside)
  | some other =>
      have target : isTarget other change.row = true := by
        simpa using List.find?_some found
      have same := isTarget_gid target
      have equal := List.inj_on_of_nodup_map distinct inside
        (List.mem_of_find?_eq_some found) same
      rw [equal]

theorem commit_ok {prepared : Prepared} {next : Engine}
    (distinct : (prepared.changes.map (·.row.gid)).Nodup)
    (committed : commit env engine prepared = .ok next) :
    next.tasks = (engine.tasks.map (updated env prepared.changes)).filter
        (fun row => !(removedGids prepared.verdicts).contains row.gid) ∧
      next.history = engine.history.filter fun record =>
        !(retiredHistoryIds engine prepared.verdicts).contains record.id := by
  unfold commit at committed
  simp only at committed
  split at committed
  · cases committed
  · obtain ⟨tasks, applied, committed⟩ := bind_eq_ok.mp committed
    obtain ⟨-, -, committed⟩ := bind_eq_ok.mp committed
    cases pure_eq_ok.mp committed
    rw [applyChanges_ok distinct applied]
    exact ⟨rfl, rfl⟩

/-! ## A prepared recovery -/

/-- What a preparation knows of the candidates and their verdicts. -/
structure Known (env : Environment) (engine : Engine) (prepared : Prepared) :
    Prop where
  unique : (engine.tasks.map (·.gid)).Nodup
  gids : ∀ row ∈ engine.tasks, isGid row.gid = true
  verdict : ∀ candidate ∈ candidates env.windows engine.tasks,
    ∃ verdict ∈ prepared.verdicts, judge env engine candidate = .ok verdict
  candidate : ∀ verdict ∈ prepared.verdicts,
    verdict.candidate ∈ candidates env.windows engine.tasks ∧
      judge env engine verdict.candidate = .ok verdict
  change : ∀ verdict ∈ prepared.verdicts, ∀ bytes,
    verdict.outcome = .inr bytes → ∃ made ∈ prepared.changes,
      made.row = verdict.candidate.row ∧
        made.serialized = serialize env verdict.candidate ∧
          made.metadataPath = metadataPath env verdict.candidate.row.gid ∧
            Plain (metadataPath env verdict.candidate.row.gid)
  changed : ∀ made ∈ prepared.changes, ∃ verdict ∈ prepared.verdicts,
    made.row = verdict.candidate.row
  distinct : (prepared.changes.map (·.row.gid)).Nodup

theorem mem_plans {plan : Candidate × Bytes} :
    plan ∈ plans verdicts ↔ ∃ verdict ∈ verdicts,
      verdict.candidate = plan.1 ∧ verdict.outcome = .inr plan.2 := by
  unfold plans Verdict.plan
  rw [List.mem_filterMap]
  apply exists_congr
  intro verdict
  apply and_congr_right
  intro _
  cases verdict.outcome with
  | inl failure => simp
  | inr bytes => simp [Prod.ext_iff]

theorem mem_quarantined {failure : TaskFailure} :
    failure ∈ quarantined verdicts ↔
      ∃ verdict ∈ verdicts, verdict.outcome = .inl failure := by
  simp [quarantined]

/-- What is picked out of a list keeps the order of its keys. -/
theorem filterMap_keys {Item Picked Key : Type} {pick : Item → Option Picked}
    {key : Item → Key} {after : Picked → Key}
    (keeps : ∀ item picked, pick item = some picked →
      after picked = key item) (items : List Item) :
    ((items.filterMap pick).map after).Sublist (items.map key) := by
  induction items with
  | nil => exact .slnil
  | cons item rest induction =>
      cases found : pick item with
      | none =>
          rw [List.filterMap_cons_none found]
          exact induction.cons _
      | some picked =>
          rw [List.filterMap_cons_some found, List.map_cons, List.map_cons,
            keeps item picked found]
          exact induction.cons_cons _

theorem prepare_known {prepared : Prepared}
    (unique : (engine.tasks.map (·.gid)).Nodup)
    (ready : prepare env engine = .ok (some prepared)) :
    Known env engine prepared := by
  obtain ⟨gids, judged, changed⟩ := prepare_ok ready
  have candidate : ∀ verdict ∈ prepared.verdicts,
      verdict.candidate ∈ candidates env.windows engine.tasks ∧
        judge env engine verdict.candidate = .ok verdict := by
    intro verdict inside
    obtain ⟨candidate, among, step⟩ := mem_of_mapM judged inside
    rw [(judge_ok step).1]
    exact ⟨among, step⟩
  have verdictGids : prepared.verdicts.map (·.candidate.row.gid) =
      (candidates env.windows engine.tasks).map (·.row.gid) :=
    mapM_field (fun _ _ step => by rw [(judge_ok step).1]) judged
  have changeGids : prepared.changes.map (·.row.gid) =
      (plans prepared.verdicts).map (·.1.row.gid) :=
    mapM_field (fun _ _ step => by rw [(change_ok step).1]) changed
  have planned : ((plans prepared.verdicts).map (·.1.row.gid)).Sublist
      (prepared.verdicts.map (·.candidate.row.gid)) := by
    apply filterMap_keys
    intro verdict plan found
    obtain ⟨bytes, -, same⟩ := Option.map_eq_some_iff.mp found
    rw [← same]
  have found : ((candidates env.windows engine.tasks).map
      (·.row.gid)).Sublist (engine.tasks.map (·.gid)) := by
    apply filterMap_keys
    intro row candidate isCandidate
    rw [(asCandidate_eq_some.mp isCandidate).1]
  exact {
    unique := unique
    gids := gids
    verdict := fun candidate inside => mapM_of_mem judged inside
    candidate := candidate
    change := by
      intro verdict inside bytes outcome
      have planned : (verdict.candidate, bytes) ∈ plans prepared.verdicts :=
        mem_plans.mpr ⟨verdict, inside, rfl, outcome⟩
      obtain ⟨made, among, step⟩ := mapM_of_mem changed planned
      exact ⟨made, among, change_ok step⟩
    changed := by
      intro made inside
      obtain ⟨plan, among, step⟩ := mem_of_mapM changed inside
      obtain ⟨verdict, there, same, -⟩ := mem_plans.mp among
      exact ⟨verdict, there, by rw [(change_ok step).1, same]⟩
    distinct := by
      rw [changeGids]
      apply List.Nodup.sublist planned
      rw [verdictGids]
      exact unique.sublist found }

namespace Known

variable {prepared : Prepared}

/-- No candidate is the ancestor of another one. -/
theorem not_retired (known : Known env engine prepared)
    (inside : candidate ∈ candidates env.windows engine.tasks) :
    candidate.row.gid ∉ retiredMetadataGids prepared.verdicts := by
  intro retired
  obtain ⟨verdict, among, same⟩ := List.mem_map.mp retired
  obtain ⟨-, judged⟩ := known.candidate verdict (List.mem_filter.mp among).1
  have parent := (judge_ok judged).2.2.1
  obtain ⟨there, parsed, apart⟩ := mem_candidates.mp inside
  unfold checkParent at parent
  split at parent
  · next none =>
      rw [List.find?_eq_none] at none
      exact none candidate.row there (by simp [same])
  · next row found =>
      have isRow : row = candidate.row := by
        apply List.inj_on_of_nodup_map known.unique
          (List.mem_of_find?_eq_some found) there
        have hit := List.find?_some found
        rw [beq_iff_eq] at hit
        exact hit.trans same
      split at parent
      · next good =>
          rw [isRow, parsed] at good
          simp only [Option.any_some, Bool.and_eq_true, beq_iff_eq] at good
          exact apart good.1.2.symm
      · cases parent

/-- A task with saved metadata is not quarantined. -/
theorem not_quarantined (known : Known env engine prepared)
    {verdict : Verdict} (inside : verdict ∈ prepared.verdicts)
    {bytes : Bytes} (outcome : verdict.outcome = .inr bytes) :
    verdict.candidate.row.gid ∉
      (quarantined prepared.verdicts).map (·.task.engineTaskId) := by
  intro among
  obtain ⟨failure, isFailure, same⟩ := List.mem_map.mp among
  obtain ⟨other, there, isInl⟩ := mem_quarantined.mp isFailure
  obtain ⟨isCandidate, judged⟩ := known.candidate verdict inside
  obtain ⟨isCandidate', judged'⟩ := known.candidate other there
  have gid := (judge_ok judged').2.2.2 failure isInl
  have rows : verdict.candidate.row = other.candidate.row := by
    apply List.inj_on_of_nodup_map known.unique
      (mem_candidates.mp isCandidate).1 (mem_candidates.mp isCandidate').1
    exact same.symm.trans gid
  have parsed := (mem_candidates.mp isCandidate).2.1
  have parsed' := (mem_candidates.mp isCandidate').2.1
  rw [rows, parsed'] at parsed
  have equal : verdict.candidate = other.candidate := by
    cases isVerdict : verdict.candidate with
    | mk row entry =>
        cases isOther : other.candidate with
        | mk row' entry' =>
            rw [isVerdict, isOther] at rows
            rw [isVerdict, isOther] at parsed
            cases rows
            cases parsed
            rfl
  rw [equal, judged'] at judged
  cases judged
  rw [isInl] at outcome
  cases outcome

/-- Only rows of candidates are rewritten. -/
theorem updated_other (known : Known env engine prepared) {row : TaskRow}
    (inside : row ∈ engine.tasks)
    (other : ∀ candidate ∈ candidates env.windows engine.tasks,
      candidate.row ≠ row) : updated env prepared.changes row = row := by
  unfold updated
  split
  · next change found =>
      obtain ⟨verdict, among, same⟩ :=
        known.changed change (List.mem_of_find?_eq_some found)
      have isCandidate := (known.candidate verdict among).1
      have target : isTarget change row = true := by
        simpa using List.find?_some found
      have gid := isTarget_gid target
      rw [same] at gid
      have equal := List.inj_on_of_nodup_map known.unique inside
        (mem_candidates.mp isCandidate).1 gid
      exact absurd equal.symm (other verdict.candidate isCandidate)
  · rfl

end Known

end Motrix.SessionIdentity
