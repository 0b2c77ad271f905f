import Motrix.Lib.Trace
import Motrix.Task.MediaRun

/-!
# The outcome of a media run

In every interleaving in which no cancel comes between the check before the
rename and the end of the run, and the terminal commits are written, a media
task gets one terminal status, which tells whether the file was renamed.
-/

namespace Motrix.MediaTask

open Motrix.Activity (TaskStatus)

namespace MediaRun

/-! ## The invariant -/

/-- The commits of the lane, the one being executed first. -/
def commits (run : MediaRun) : List MediaCommit :=
  (run.active.map ActiveCommit.commit).toList ++ run.lane

def Fresh (run : MediaRun) : Prop :=
  run.status ≠ .completed ∧ run.status ≠ .error

/-- A cancel whose commit is not written yet. -/
def CancelToCome (run : MediaRun) : Prop :=
  0 < run.stopping ∨ 0 < run.releasing ∨ .cancellation ∈ run.lane

/-- The task is in error, or a cancel will see to it. -/
def Failing (run : MediaRun) : Prop :=
  run.status = .error ∨ run.CancelToCome ∨
    run.active = some
      { commit := .cancellation
        stage := .persisting }

def NotDone (run : MediaRun) : Prop :=
  run.finalFile = false ∧ run.status ≠ .completed

/-- Before the rename, and the run itself has not failed. -/
def Open (run : MediaRun) : Prop :=
  run.NotDone ∧ (run.cancelled = false → run.status ≠ .error)

def Renamed (run : MediaRun) : Prop :=
  run.finalFile = true ∧ run.cancelled = false

/-- What holds at an await of the run. -/
def Fits (run : MediaRun) : RunPoint → Prop
  | .submitting => run.Open ∧ run.cancelled = false ∧ run.running = false ∧
      run.commits = []
  | .awaiting .downloading => run.NotDone ∧ run.status ≠ .error ∧
      run.commits.head? = some .downloading
  | .awaiting .finalizing => run.Open ∧
      (run.active = some
        { commit := .finalizing
          stage := .persisting } → run.status ≠ .error)
  | .awaiting .completed => run.Renamed ∧
      ((run.Fresh ∧ ∀ occurrence, run.active ≠ some
          { commit := .completed
            stage := .publishing occurrence }) ∨
        (run.status = .completed ∧ run.active ≠ some
          { commit := .completed
            stage := .persisting } ∧ run.active.isSome = true))
  | .awaiting .failure => run.NotDone ∧
      ∀ occurrence, run.active = some
        { commit := .failure
          stage := .publishing occurrence } → run.status = .error
  | .awaiting .cancellation => False
  | .resumed .downloading result => run.Open ∧
      (result = .barrier → run.cancelled = true)
  | .resumed .finalizing result => run.Open ∧
      (result = .barrier → run.cancelled = true)
  | .resumed .completed result => run.Renamed ∧ run.status = .completed ∧
      ∃ published, result = .settled published
  | .resumed .failure _ => run.NotDone ∧ run.Failing
  | .resumed .cancellation _ => False
  | .working => run.Open
  | .moving => run.Open ∧ run.cancelled = false
  | .measuring => run.Renamed ∧ run.Fresh
  | .draining barrier => run.Open ∧ barrier = false
  | .closing => (run.Renamed ∧ run.status = .completed) ∨
      (run.NotDone ∧ run.Failing)
  | .ended => (run.Renamed ∧ run.status = .completed) ∨
      (run.NotDone ∧ run.Failing)

def awaited : RunPoint → List MediaCommit
  | .awaiting commit => [commit]
  | _ => []

/-- The run is under way and has no commit in the lane. -/
def between : RunPoint → Bool
  | .submitting => false
  | .awaiting _ => false
  | .ended => false
  | _ => true

structure Sound (run : MediaRun) : Prop where
  counted : run.terminals =
    if isTerminalTaskStatus run.status = true then [run.status] else []
  quiet : run.cancelled = false →
    run.stopping = 0 ∧ run.releasing = 0 ∧ .cancellation ∉ run.commits
  cancelling : run.cancelled = true → run.NotDone ∧ run.Failing
  ours : run.commits.filter (· ≠ .cancellation) = awaited run.point
  registered : run.cancelled = false → run.point ≠ .submitting →
    run.point ≠ .ended → run.running = true
  fits : run.Fits run.point

/-- Apart from its commits a point asks for the flags and the status of a run,
and for whether it fails. -/
theorem Fits.carry {run other : MediaRun} {point : RunPoint}
    (fits : run.Fits point) (submitted : point ≠ .submitting)
    (free : awaited point = [])
    (flags : other.finalFile = run.finalFile ∧
      other.cancelled = run.cancelled)
    (status : other.status = run.status)
    (failing : run.Failing → other.Failing) : other.Fits point := by
  obtain ⟨finalFile, cancelled⟩ := flags
  have notDone : run.NotDone → other.NotDone := by
    unfold NotDone
    rw [finalFile, status]
    exact id
  have unfinished : run.Open → other.Open := by
    unfold Open
    rw [cancelled, status]
    exact And.imp_left notDone
  have renamed : run.Renamed → other.Renamed := by
    unfold Renamed
    rw [finalFile, cancelled]
    exact id
  cases point with
  | submitting => exact absurd rfl submitted
  | awaiting commit => cases free
  | resumed commit result =>
      cases commit with
      | downloading => exact ⟨unfinished fits.1, cancelled ▸ fits.2⟩
      | finalizing => exact ⟨unfinished fits.1, cancelled ▸ fits.2⟩
      | completed => exact ⟨renamed fits.1, status ▸ fits.2.1, fits.2.2⟩
      | failure => exact ⟨notDone fits.1, failing fits.2⟩
      | cancellation => exact fits
  | working => exact unfinished fits
  | moving => exact ⟨unfinished fits.1, cancelled ▸ fits.2⟩
  | measuring => exact ⟨renamed fits.1, by
      unfold Fresh
      exact status ▸ fits.2⟩
  | draining barrier => exact ⟨unfinished fits.1, fits.2⟩
  | closing =>
      exact fits.imp (And.imp renamed fun completed => status ▸ completed)
        (And.imp notDone failing)
  | ended =>
      exact fits.imp (And.imp renamed fun completed => status ▸ completed)
        (And.imp notDone failing)

/-! ## Steps of the run -/

variable {run : MediaRun}

theorem between_awaited {point : RunPoint} (underway : between point = true) :
    awaited point = [] ∧ point ≠ .submitting ∧ point ≠ .ended := by
  cases point with
  | submitting => cases underway
  | awaiting commit => cases underway
  | ended => cases underway
  | resumed commit result =>
      exact ⟨rfl, RunPoint.noConfusion, RunPoint.noConfusion⟩
  | working => exact ⟨rfl, RunPoint.noConfusion, RunPoint.noConfusion⟩
  | moving => exact ⟨rfl, RunPoint.noConfusion, RunPoint.noConfusion⟩
  | measuring => exact ⟨rfl, RunPoint.noConfusion, RunPoint.noConfusion⟩
  | draining barrier =>
      exact ⟨rfl, RunPoint.noConfusion, RunPoint.noConfusion⟩
  | closing => exact ⟨rfl, RunPoint.noConfusion, RunPoint.noConfusion⟩

theorem Sound.goTo (sound : run.Sound) {point : RunPoint}
    (underway : between run.point = true) (after : awaited point = [])
    (fits : run.Fits point) : Sound (run.goTo point) where
  counted := sound.counted
  quiet := sound.quiet
  cancelling := sound.cancelling
  ours := by
    show _ = awaited point
    rw [after, ← (between_awaited underway).1]
    exact sound.ours
  registered active _ _ := sound.registered active
    (between_awaited underway).2.1 (between_awaited underway).2.2
  fits := fits

theorem commits_enqueue {commit : MediaCommit} :
    (run.enqueue commit).commits = run.commits ++ [commit] :=
  (List.append_assoc _ _ _).symm

theorem Sound.transition (sound : run.Sound) {commit : MediaCommit}
    (before : awaited run.point = []) (own : commit ≠ .cancellation)
    (running : run.cancelled = false → run.running = true)
    (fits : (run.enqueue commit).Fits (.awaiting commit)) :
    Sound (run.transition commit) where
  counted := sound.counted
  quiet active := by
    obtain ⟨stopping, releasing, absent⟩ := sound.quiet active
    refine ⟨stopping, releasing, ?_⟩
    show _ ∉ (run.enqueue commit).commits
    rw [commits_enqueue, List.mem_append, List.mem_singleton]
    rintro (old | new)
    · exact absent old
    · exact own new.symm
  cancelling cancelled := by
    obtain ⟨notDone, failing⟩ := sound.cancelling cancelled
    refine ⟨notDone, ?_⟩
    rcases failing with error | (stopping | releasing | waiting) | active
    · exact Or.inl error
    · exact Or.inr (Or.inl (Or.inl stopping))
    · exact Or.inr (Or.inl (Or.inr (Or.inl releasing)))
    · exact Or.inr (Or.inl (Or.inr (Or.inr
        (List.mem_append.mpr (Or.inl waiting)))))
    · exact Or.inr (Or.inr active)
  ours := by
    show (run.enqueue commit).commits.filter _ = [commit]
    rw [commits_enqueue, List.filter_append, sound.ours, before,
      List.nil_append]
    exact List.filter_eq_self.mpr fun other member => by
      rw [List.mem_singleton.mp member]
      exact decide_eq_true own
  registered active _ _ := running active
  fits := fits

/-- An error before the rename is handled; only a cancelled run may have
failed to write a commit. -/
theorem Sound.handle (sound : run.Sound) {barrier : Bool}
    (underway : between run.point = true) (unfinished : run.Open)
    (excused : barrier = true → run.cancelled = true) :
    Sound (run.handle barrier) := by
  unfold MediaRun.handle
  split
  · rename_i cancelled
    exact sound.goTo underway rfl (Or.inr (sound.cancelling cancelled))
  · rename_i active
    apply sound.goTo underway rfl
    refine ⟨unfinished, ?_⟩
    cases barrier with
    | false => rfl
    | true => exact absurd (excused rfl) active

theorem Sound.assertActive (sound : run.Sound)
    {next : MediaRun → MediaRun} (underway : between run.point = true)
    (unfinished : run.Open)
    (goesOn : run.cancelled = false → Sound (next run)) :
    Sound (run.assertActive next) := by
  unfold MediaRun.assertActive
  split
  · apply sound.handle underway unfinished
    intro barrier
    cases barrier
  · rename_i active
    exact goesOn (Bool.eq_false_iff.mpr active)

/-- No commit of the run is in the lane. -/
theorem Sound.absent (sound : run.Sound) (before : awaited run.point = [])
    {commit : MediaCommit} (own : commit ≠ .cancellation) :
    commit ∉ run.commits := by
  intro member
  have kept : commit ∈ run.commits.filter (· ≠ .cancellation) :=
    List.mem_filter.mpr ⟨member, decide_eq_true own⟩
  rw [sound.ours, before] at kept
  cases kept

theorem active_commits {commit : ActiveCommit}
    (active : run.active = some commit) :
    run.commits = commit.commit :: run.lane := by
  unfold commits
  rw [active]
  rfl

theorem active_mem {commit : ActiveCommit}
    (active : run.active = some commit) : commit.commit ∈ run.commits := by
  rw [active_commits active]
  exact List.mem_cons_self

theorem Sound.resume (sound : run.Sound) : Sound run.resume := by
  have fits := sound.fits
  unfold MediaRun.resume
  split
  · rename_i result point
    rw [point] at fits
    exact sound.goTo (point ▸ rfl) rfl (Or.inr fits)
  · rename_i commit apart point
    rw [point] at fits
    apply sound.handle (point ▸ rfl)
    · cases commit with
      | downloading => exact fits.1
      | finalizing => exact fits.1
      | completed =>
          obtain ⟨_, same⟩ := fits.2.2
          cases same
      | failure => exact (apart rfl).elim
      | cancellation => exact absurd fits id
    · intro barrier
      cases barrier
  · rename_i commit apart point
    rw [point] at fits
    have settled : run.Open ∧ run.cancelled = true := by
      cases commit with
      | downloading => exact ⟨fits.1, fits.2 rfl⟩
      | finalizing => exact ⟨fits.1, fits.2 rfl⟩
      | completed =>
          obtain ⟨_, same⟩ := fits.2.2
          cases same
      | failure => exact (apart rfl).elim
      | cancellation => exact absurd fits id
    exact sound.handle (point ▸ rfl) settled.1 (fun _ => settled.2)
  · rename_i point
    rw [point] at fits
    apply sound.assertActive (point ▸ rfl) fits.1
    intro _
    exact sound.goTo (point ▸ rfl) rfl fits.1
  · rename_i point
    rw [point] at fits
    apply sound.assertActive (point ▸ rfl) fits.1
    intro active
    exact sound.goTo (point ▸ rfl) rfl ⟨fits.1, active⟩
  · rename_i point
    rw [point] at fits
    exact sound.goTo (point ▸ rfl) rfl (Or.inl ⟨fits.1, fits.2.1⟩)
  · exact sound

theorem Sound.worked (sound : run.Sound) (result : WorkResult) :
    Sound (run.worked result) := by
  have fits := sound.fits
  unfold MediaRun.worked
  split
  · rename_i point
    rw [point] at fits
    have underway : between run.point = true := point ▸ rfl
    cases result with
    | more => exact sound.assertActive underway fits (fun _ => sound)
    | finished =>
        apply sound.assertActive underway fits
        intro active
        have before := (between_awaited underway).1
        have running := sound.registered active
          (between_awaited underway).2.1 (between_awaited underway).2.2
        apply sound.transition before (by decide) (fun _ => running)
        exact ⟨fits, fun _ => fits.2 active⟩
    | failed =>
        apply sound.handle underway fits
        intro barrier
        cases barrier
  · exact sound

theorem Sound.renamed (sound : run.Sound) (succeeds : Bool) :
    Sound (run.renamed succeeds) := by
  have fits := sound.fits
  unfold MediaRun.renamed
  split
  · rename_i point
    rw [point] at fits
    have underway : between run.point = true := point ▸ rfl
    obtain ⟨unfinished, active⟩ := fits
    split
    · have unchecked : ({ run with finalFile := true } : MediaRun).assertActive
          (fun run => run.goTo .measuring) =
          { run with finalFile := true }.goTo .measuring :=
        if_neg (by simp [active])
      rw [unchecked]
      have fresh : run.Fresh := ⟨unfinished.1.2, unfinished.2 active⟩
      exact
        { counted := sound.counted
          quiet := sound.quiet
          cancelling := fun cancelled =>
            absurd (active.symm.trans cancelled) Bool.false_ne_true
          ours := by
            show run.commits.filter _ = []
            rw [sound.ours, point]
            rfl
          registered := fun _ _ _ => sound.registered active
            (between_awaited underway).2.1 (between_awaited underway).2.2
          fits := ⟨⟨rfl, active⟩, fresh⟩ }
    · apply sound.handle underway unfinished
      intro barrier
      cases barrier
  · exact sound

theorem Sound.measured (sound : run.Sound) : Sound run.measured := by
  have fits := sound.fits
  unfold MediaRun.measured
  split
  · rename_i point
    rw [point] at fits
    have underway : between run.point = true := point ▸ rfl
    obtain ⟨renamed, fresh⟩ := fits
    have unchecked : run.assertActive (fun run => run.transition .completed) =
        run.transition .completed := if_neg (by simp [renamed.2])
    rw [unchecked]
    have before := (between_awaited underway).1
    have running := sound.registered renamed.2
      (between_awaited underway).2.1 (between_awaited underway).2.2
    apply sound.transition before (by decide) (fun _ => running)
    refine ⟨renamed, Or.inl ⟨fresh, ?_⟩⟩
    intro occurrence active
    exact sound.absent before MediaCommit.noConfusion (active_mem active)
  · exact sound

theorem Sound.drained (sound : run.Sound) : Sound run.drained := by
  have fits := sound.fits
  unfold MediaRun.drained
  split
  · rename_i barrier point
    rw [point] at fits
    have underway : between run.point = true := point ▸ rfl
    obtain ⟨unfinished, rfl⟩ := fits
    have before := (between_awaited underway).1
    have running : run.cancelled = false → run.running = true :=
      fun active => sound.registered active
        (between_awaited underway).2.1 (between_awaited underway).2.2
    split
    · apply sound.transition before (by decide) running
      refine ⟨unfinished.1, ?_⟩
      intro occurrence active
      have active' : run.active = some
          { commit := .failure
            stage := .publishing occurrence } := active
      exact absurd (active_mem active')
        (sound.absent before MediaCommit.noConfusion)
    · rename_i stopped
      apply sound.goTo underway rfl
      right
      apply sound.cancelling
      by_contra active
      have active' : run.cancelled = false := Bool.eq_false_iff.mpr active
      exact stopped ⟨running active', active', rfl⟩
  · exact sound

theorem Sound.closed (sound : run.Sound) : Sound run.closed := by
  have fits := sound.fits
  unfold MediaRun.closed
  split
  · rename_i point
    rw [point] at fits
    exact
      { counted := sound.counted
        quiet := sound.quiet
        cancelling := sound.cancelling
        ours := by
          show run.commits.filter _ = []
          rw [sound.ours, point]
          rfl
        registered := fun _ _ ongoing => absurd rfl ongoing
        fits := fits }
  · exact sound

theorem Sound.register (sound : run.Sound) : Sound run.register := by
  have fits := sound.fits
  unfold MediaRun.register
  split
  · rename_i point
    rw [point] at fits
    obtain ⟨unfinished, active, _, empty⟩ := fits
    obtain ⟨stopping, releasing, absent⟩ := sound.quiet active
    have lane : ({ run with running := true }.transition
        .downloading).commits = [.downloading] := by
      show ({ run with running := true }.enqueue .downloading).commits = _
      rw [commits_enqueue]
      show run.commits ++ _ = _
      rw [empty]
      rfl
    split
    · exact
        { counted := sound.counted
          quiet := fun _ => by
            refine ⟨stopping, releasing, ?_⟩
            rw [lane]
            decide
          cancelling := fun cancelled =>
            absurd (active.symm.trans cancelled) Bool.false_ne_true
          ours := by
            rw [lane]
            rfl
          registered := fun _ _ _ => rfl
          fits := ⟨unfinished.1, unfinished.2 active, by rw [lane]; rfl⟩ }
    · have toCome : 0 < run.stopping + 1 := Nat.succ_pos _
      exact
        { counted := sound.counted
          quiet := fun active => by cases active
          cancelling := fun _ =>
            ⟨unfinished.1, Or.inr (Or.inl (Or.inl toCome))⟩
          ours := by
            show run.commits.filter _ = []
            rw [empty]
            rfl
          registered := fun active => by cases active
          fits := Or.inr ⟨unfinished.1, Or.inr (Or.inl (Or.inl toCome))⟩ }
  · exact sound

/-! ## Steps of a cancel -/

/-- What is asked of the steps: no cancel comes between the check before the
rename and the end of the run, a commit that is not written has a cancel
behind it, and the occurrence of the completion is dispatched. -/
def Undisturbed (run : MediaRun) : MediaEvent → Prop
  | .cancel => run.running = true →
      run.point ≠ .moving ∧ run.finalFile = false
  | .stopAndDrain => run.running = true →
      run.acceptingSubmissions = true →
      run.point ≠ .moving ∧ run.finalFile = false
  | .persisted false => ∀ commit,
      run.active = some
        { commit := commit
          stage := .persisting } →
      commit ≠ .completed ∧ run.CancelToCome
  | .published false => ∀ active, run.active = some active →
      active.commit ≠ .completed
  | _ => True

/-- A cancelled run keeps its place. -/
theorem Fits.cancelled {point : RunPoint} {next : MediaRun}
    (fits : run.Fits point) (running : point = .submitting → False)
    (file : run.finalFile = false) (notMoving : point ≠ .moving)
    (same : next.finalFile = run.finalFile ∧ next.status = run.status ∧
      next.active = run.active ∧ ∃ more, next.lane = run.lane ++ more)
    (cancelled : next.cancelled = true) (toCome : next.Failing) :
    next.Fits point := by
  have notRenamed : ¬run.Renamed := by
    intro renamed
    exact Bool.false_ne_true (file.symm.trans renamed.1)
  obtain ⟨file', status, active, more, lane⟩ := same
  have commits : next.commits = run.commits ++ more := by
    unfold MediaRun.commits
    rw [active, lane, List.append_assoc]
  have notDone : run.NotDone → next.NotDone := by
    unfold NotDone
    rw [file', status]
    exact id
  have unfinished : run.Open → next.Open := by
    intro before
    refine ⟨notDone before.1, ?_⟩
    intro running
    exact absurd (running.symm.trans cancelled) Bool.false_ne_true
  cases point with
  | submitting => exact (running rfl).elim
  | awaiting commit =>
      cases commit with
      | downloading =>
          refine ⟨notDone fits.1, ?_, ?_⟩
          · rw [status]
            exact fits.2.1
          · rw [commits, List.head?_append, fits.2.2]
            rfl
      | finalizing =>
          refine ⟨unfinished fits.1, ?_⟩
          rw [active, status]
          exact fits.2
      | completed => exact absurd fits.1 notRenamed
      | failure =>
          refine ⟨notDone fits.1, ?_⟩
          rw [active, status]
          exact fits.2
      | cancellation => exact fits
  | resumed commit result =>
      cases commit with
      | downloading => exact ⟨unfinished fits.1, fun _ => cancelled⟩
      | finalizing => exact ⟨unfinished fits.1, fun _ => cancelled⟩
      | completed => exact absurd fits.1 notRenamed
      | failure => exact ⟨notDone fits.1, toCome⟩
      | cancellation => exact fits
  | working => exact unfinished fits
  | moving => exact absurd rfl notMoving
  | measuring => exact absurd fits.1 notRenamed
  | draining barrier => exact ⟨unfinished fits.1, fits.2⟩
  | closing =>
      rcases fits with renamed | failed
      · exact absurd renamed.1 notRenamed
      · exact Or.inr ⟨notDone failed.1, toCome⟩
  | ended =>
      rcases fits with renamed | failed
      · exact absurd renamed.1 notRenamed
      · exact Or.inr ⟨notDone failed.1, toCome⟩

theorem Fits.notDone {point : RunPoint} (fits : run.Fits point)
    (file : run.finalFile = false) : run.NotDone := by
  have notRenamed : ¬run.Renamed := by
    intro renamed
    exact Bool.false_ne_true (file.symm.trans renamed.1)
  cases point with
  | submitting => exact fits.1.1
  | awaiting commit =>
      cases commit with
      | downloading => exact fits.1
      | finalizing => exact fits.1.1
      | completed => exact absurd fits.1 notRenamed
      | failure => exact fits.1
      | cancellation => exact fits.elim
  | resumed commit result =>
      cases commit with
      | downloading => exact fits.1.1
      | finalizing => exact fits.1.1
      | completed => exact absurd fits.1 notRenamed
      | failure => exact fits.1
      | cancellation => exact fits.elim
  | working => exact fits.1
  | moving => exact fits.1.1
  | measuring => exact absurd fits.1 notRenamed
  | draining barrier => exact fits.1.1
  | closing =>
      rcases fits with renamed | failed
      · exact absurd renamed.1 notRenamed
      · exact failed.1
  | ended =>
      rcases fits with renamed | failed
      · exact absurd renamed.1 notRenamed
      · exact failed.1

theorem Sound.cancel (sound : run.Sound)
    (early : run.running = true →
      run.point ≠ .moving ∧ run.finalFile = false) :
    Sound run.cancel := by
  unfold MediaRun.cancel
  split
  · rename_i running
    obtain ⟨notMoving, file⟩ := early running
    have toCome : 0 < run.stopping + 1 := Nat.succ_pos _
    have notDone : run.NotDone := Fits.notDone sound.fits file
    have failing : ({ run with
        cancelled := true
        stopping := run.stopping + 1 } : MediaRun).Failing :=
      Or.inr (Or.inl (Or.inl toCome))
    exact
      { counted := sound.counted
        quiet := fun active => by cases active
        cancelling := fun _ => ⟨notDone, failing⟩
        ours := sound.ours
        registered := fun active => by cases active
        fits := by
          apply Fits.cancelled sound.fits _ file notMoving _ rfl failing
          · intro submitting
            have fits := sound.fits
            rw [submitting] at fits
            rw [fits.2.2.1] at running
            cases running
          · exact ⟨rfl, rfl, rfl, [], (List.append_nil _).symm⟩ }
  · exact sound

theorem Sound.stopAndDrain (sound : run.Sound)
    (early : run.running = true → run.acceptingSubmissions = true →
      run.point ≠ .moving ∧ run.finalFile = false) :
    Sound run.stopAndDrain := by
  unfold MediaRun.stopAndDrain
  split
  · rename_i accepting
    have closed : Sound { run with acceptingSubmissions := false } :=
      { counted := sound.counted
        quiet := sound.quiet
        cancelling := sound.cancelling
        ours := sound.ours
        registered := sound.registered
        fits := sound.fits }
    exact closed.cancel (fun running => early running accepting)
  · exact sound

/-- A step of a cancel that is under way. -/
theorem Sound.cancelStep (sound : run.Sound) {next : MediaRun}
    (cancelled : run.cancelled = true) (same : next.cancelled = true)
    (kept : next.finalFile = run.finalFile ∧ next.status = run.status ∧
      next.active = run.active ∧ ∃ more, next.lane = run.lane ++ more ∧
        more.filter (· ≠ .cancellation) = [])
    (point : next.point = run.point)
    (terminals : next.terminals = run.terminals)
    (failing : next.Failing) : Sound next := by
  obtain ⟨notDone, _⟩ := sound.cancelling cancelled
  obtain ⟨file, status, active, more, lane, others⟩ := kept
  have commits : next.commits = run.commits ++ more := by
    unfold MediaRun.commits
    rw [active, lane, List.append_assoc]
  exact
    { counted := by
        rw [terminals, status]
        exact sound.counted
      quiet := fun idle => absurd (idle.symm.trans same) Bool.false_ne_true
      cancelling := fun _ => by
        refine ⟨⟨file.trans notDone.1, ?_⟩, failing⟩
        rw [status]
        exact notDone.2
      ours := by
        rw [commits, List.filter_append, sound.ours, others, point,
          List.append_nil]
      registered := fun idle =>
        absurd (idle.symm.trans same) Bool.false_ne_true
      fits := by
        rw [point]
        apply Fits.cancelled sound.fits _ notDone.1 _
          ⟨file, status, active, more, lane⟩ same failing
        · intro submitting
          have fits := sound.fits
          rw [submitting] at fits
          exact absurd (fits.2.1.symm.trans cancelled) Bool.false_ne_true
        · intro moving
          have fits := sound.fits
          rw [moving] at fits
          exact absurd (fits.2.symm.trans cancelled) Bool.false_ne_true }

theorem Sound.downloadersCancelled (sound : run.Sound) :
    Sound run.downloadersCancelled := by
  unfold MediaRun.downloadersCancelled
  split
  · exact sound
  · rename_i some
    have cancelled : run.cancelled = true := by
      by_contra active
      exact some (sound.quiet (Bool.eq_false_iff.mpr active)).1
    refine sound.cancelStep cancelled cancelled
      ⟨rfl, rfl, rfl, [], (List.append_nil _).symm, rfl⟩ rfl rfl ?_
    exact Or.inr (Or.inl (Or.inr (Or.inl (Nat.succ_pos _))))

theorem Sound.metadataReleased (sound : run.Sound) :
    Sound run.metadataReleased := by
  unfold MediaRun.metadataReleased
  split
  · exact sound
  · rename_i some
    have cancelled : run.cancelled = true := by
      by_contra active
      exact some (sound.quiet (Bool.eq_false_iff.mpr active)).2.1
    refine sound.cancelStep cancelled cancelled
      ⟨rfl, rfl, rfl, [.cancellation], rfl, rfl⟩ rfl rfl ?_
    exact Or.inr (Or.inl (Or.inr (Or.inr
      (List.mem_append.mpr (Or.inr List.mem_cons_self)))))

/-! ## Steps of the lane -/

/-- A commit of the run in the lane is the one that it awaits. -/
theorem Sound.owner (sound : run.Sound) {commit : MediaCommit}
    (member : commit ∈ run.commits) (own : commit ≠ .cancellation) :
    run.point = .awaiting commit := by
  have kept : commit ∈ run.commits.filter (· ≠ .cancellation) :=
    List.mem_filter.mpr ⟨member, decide_eq_true own⟩
  rw [sound.ours] at kept
  cases point : run.point with
  | awaiting other =>
      rw [point] at kept
      rw [List.mem_singleton.mp kept]
  | submitting => rw [point] at kept; cases kept
  | resumed other result => rw [point] at kept; cases kept
  | working => rw [point] at kept; cases kept
  | moving => rw [point] at kept; cases kept
  | measuring => rw [point] at kept; cases kept
  | draining barrier => rw [point] at kept; cases kept
  | closing => rw [point] at kept; cases kept
  | ended => rw [point] at kept; cases kept

theorem Sound.cancelled_of (sound : run.Sound)
    (member : MediaCommit.cancellation ∈ run.commits) :
    run.cancelled = true := by
  by_contra active
  exact (sound.quiet (Bool.eq_false_iff.mpr active)).2.2 member

theorem settle_own {commit : MediaCommit} {result : CommitResult}
    (own : commit ≠ .cancellation) :
    run.settle commit result = run.goTo (.resumed commit result) :=
  if_neg own

theorem mem_lane_commits {commit : MediaCommit} (member : commit ∈ run.lane) :
    commit ∈ run.commits :=
  List.mem_append.mpr (Or.inr member)

/-- The commit of the run leaves the lane. -/
theorem Sound.settled (sound : run.Sound) {commit : MediaCommit}
    {rest : List MediaCommit} (front : run.commits = commit :: rest)
    (own : commit ≠ .cancellation) {result : CommitResult}
    (fits : ({ run with
      active := none
      lane := rest } : MediaRun).Fits (.resumed commit result)) :
    Sound ({ run with
      active := none
      lane := rest }.settle commit result) := by
  have point := sound.owner (front ▸ List.mem_cons_self) own
  have later : ∀ other ∈ run.commits, other ≠ commit → other ∈ rest := by
    intro other member different
    rw [front] at member
    rcases List.mem_cons.mp member with same | behind
    · exact absurd same different
    · exact behind
  have behind : rest.filter (· ≠ .cancellation) = [] := by
    have ours := sound.ours
    rw [front, point, List.filter_cons, if_pos (decide_eq_true own)] at ours
    exact (List.cons.inj ours).2
  rw [settle_own own]
  exact
    { counted := sound.counted
      quiet := fun active => by
        obtain ⟨stopping, releasing, absent⟩ := sound.quiet active
        refine ⟨stopping, releasing, ?_⟩
        intro member
        rw [front] at absent
        exact absent (List.mem_cons_of_mem commit member)
      cancelling := fun cancelled => by
        obtain ⟨notDone, failing⟩ := sound.cancelling cancelled
        refine ⟨notDone, ?_⟩
        rcases failing with error | (stop | release | waiting) | doing
        · exact Or.inl error
        · exact Or.inr (Or.inl (Or.inl stop))
        · exact Or.inr (Or.inl (Or.inr (Or.inl release)))
        · exact Or.inr (Or.inl (Or.inr (Or.inr
            (later _ (mem_lane_commits waiting) own.symm))))
        · exact Or.inr (Or.inl (Or.inr (Or.inr
            (later _ (active_mem doing) own.symm))))
      ours := behind
      registered := fun active _ _ => by
        apply sound.registered active
        · rw [point]
          exact RunPoint.noConfusion
        · rw [point]
          exact RunPoint.noConfusion
      fits := fits }

/-- A cancellation leaves the lane once it is written, or if another one is
to come. -/
theorem Sound.unlock (sound : run.Sound) {stage : CommitStage}
    (active : run.active = some
      { commit := .cancellation
        stage := stage })
    (failing : run.status = .error ∨ run.CancelToCome) :
    Sound { run with active := none } := by
  have front := active_commits active
  have cancelled : run.cancelled = true :=
    sound.cancelled_of (front ▸ List.mem_cons_self)
  have notRenamed : ¬run.Renamed := fun renamed =>
    Bool.false_ne_true (renamed.2.symm.trans cancelled)
  have failing' : ({ run with active := none } : MediaRun).Failing :=
    failing.imp_right Or.inl
  exact
    { counted := sound.counted
      quiet := fun idle =>
        absurd (idle.symm.trans cancelled) Bool.false_ne_true
      cancelling := fun _ => ⟨(sound.cancelling cancelled).1, failing'⟩
      ours := by
        have ours := sound.ours
        rw [front] at ours
        exact ours
      registered := sound.registered
      fits := by
        have fits := sound.fits
        show ({ run with active := none } : MediaRun).Fits run.point
        cases point : run.point with
        | submitting =>
            rw [point] at fits
            exact absurd (fits.2.1.symm.trans cancelled) Bool.false_ne_true
        | awaiting commit =>
            rw [point] at fits
            cases commit with
            | downloading =>
                have head := fits.2.2
                rw [front] at head
                cases head
            | finalizing =>
                refine ⟨fits.1, ?_⟩
                intro none'
                cases none'
            | completed => exact absurd fits.1 notRenamed
            | failure =>
                refine ⟨fits.1, ?_⟩
                intro _ none'
                cases none'
            | cancellation => exact fits
        | _ =>
            rw [point] at fits
            exact fits.carry RunPoint.noConfusion rfl ⟨rfl, rfl⟩ rfl
              fun _ => failing' }

/-- The next commit is in the works; a finalization only of a run that is not
cancelled. -/
theorem Sound.started (sound : run.Sound) {commit : MediaCommit}
    {rest : List MediaCommit} (active : run.active = none)
    (lane : run.lane = commit :: rest)
    (proceeds : commit = .finalizing → run.cancelled = false) :
    Sound { run with
      active := some
        { commit := commit
          stage := .persisting }
      lane := rest } := by
  have front : run.commits = commit :: rest := by
    unfold commits
    rw [active, lane]
    rfl
  have failing : run.Failing → ({ run with
      active := some
        { commit := commit
          stage := .persisting }
      lane := rest } : MediaRun).Failing := by
    rintro (error | (stop | release | waiting) | doing)
    · exact Or.inl error
    · exact Or.inr (Or.inl (Or.inl stop))
    · exact Or.inr (Or.inl (Or.inr (Or.inl release)))
    · rw [lane] at waiting
      rcases List.mem_cons.mp waiting with same | later
      · right
        right
        rw [← same]
      · exact Or.inr (Or.inl (Or.inr (Or.inr later)))
    · rw [active] at doing
      cases doing
  exact
    { counted := sound.counted
      quiet := fun idle => by
        obtain ⟨stopping, releasing, absent⟩ := sound.quiet idle
        rw [front] at absent
        exact ⟨stopping, releasing, absent⟩
      cancelling := fun cancelled =>
        (sound.cancelling cancelled).imp id failing
      ours := by
        have ours := sound.ours
        rw [front] at ours
        exact ours
      registered := sound.registered
      fits := by
        have fits := sound.fits
        show MediaRun.Fits _ run.point
        cases point : run.point with
        | submitting =>
            rw [point] at fits
            have empty := front.symm.trans fits.2.2.2
            cases empty
        | awaiting other =>
            rw [point] at fits
            cases other with
            | downloading =>
                refine ⟨fits.1, fits.2.1, ?_⟩
                have head := fits.2.2
                rw [front] at head
                exact head
            | finalizing =>
                refine ⟨fits.1, ?_⟩
                intro same
                cases same
                exact fits.1.2 (proceeds rfl)
            | completed =>
                refine ⟨fits.1, Or.inl ⟨?_, ?_⟩⟩
                · rcases fits.2 with apart | completed
                  · exact apart.1
                  · rw [active] at completed
                    cases completed.2.2
                · intro _ same
                  cases same
            | failure =>
                refine ⟨fits.1, ?_⟩
                intro _ same
                cases same
            | cancellation => exact fits
        | _ =>
            rw [point] at fits
            exact fits.carry RunPoint.noConfusion rfl ⟨rfl, rfl⟩ rfl failing }

theorem Sound.beginCommit (sound : run.Sound) : Sound run.beginCommit := by
  unfold MediaRun.beginCommit
  split
  · rename_i commit rest active lane
    have front : run.commits = commit :: rest := by
      unfold commits
      rw [active, lane]
      rfl
    split
    · rename_i both
      obtain ⟨rfl, cancelled⟩ := both
      have own : MediaCommit.finalizing ≠ .cancellation :=
        MediaCommit.noConfusion
      have point := sound.owner (front ▸ List.mem_cons_self) own
      have fits := sound.fits
      rw [point] at fits
      apply sound.settled front own
      exact ⟨fits.1, fun _ => cancelled⟩
    · rename_i proceeds
      apply sound.started active lane
      rintro rfl
      by_contra cancelled
      exact proceeds ⟨rfl, Bool.not_eq_false _ ▸ cancelled⟩
  · exact sound

theorem Sound.published (sound : run.Sound) {succeeds : Bool}
    (dispatched : succeeds = false → ∀ active, run.active = some active →
      active.commit ≠ .completed) : Sound (run.published succeeds) := by
  unfold MediaRun.published
  split
  · rename_i commit occurrence active
    have front := active_commits active
    have fits := sound.fits
    by_cases own : commit = .cancellation
    · subst own
      rw [settle, if_pos rfl]
      apply sound.unlock active
      have failing := sound.cancelling
        (sound.cancelled_of (front ▸ List.mem_cons_self))
      rcases failing.2 with error | toCome | doing
      · exact Or.inl error
      · exact Or.inr toCome
      · rw [active] at doing
        cases doing
    · have point := sound.owner (front ▸ List.mem_cons_self) own
      rw [point] at fits
      apply sound.settled front own
      cases commit with
      | downloading =>
          refine ⟨⟨fits.1, fun _ => fits.2.1⟩, ?_⟩
          intro barrier
          split at barrier
          · cases barrier
          · cases barrier
      | finalizing =>
          refine ⟨fits.1, ?_⟩
          intro barrier
          split at barrier
          · cases barrier
          · cases barrier
      | completed =>
          have succeeded : succeeds = true := by
            by_contra failed
            exact dispatched (Bool.eq_false_iff.mpr failed) _ active rfl
          refine ⟨fits.1, ?_, true, if_neg (by simp [succeeded])⟩
          rcases fits.2 with apart | completed
          · exact absurd active (apart.2 occurrence)
          · exact completed.1
      | failure =>
          exact ⟨fits.1, Or.inl (fits.2 occurrence active)⟩
      | cancellation => exact absurd rfl own
  · exact sound

theorem counted_setStatus {status : TaskStatus}
    (counted : run.terminals =
      if isTerminalTaskStatus run.status = true then [run.status] else [])
    (fine : run.status = status ∨
      isTerminalTaskStatus run.status = false) :
    (run.setStatus status).terminals =
      if isTerminalTaskStatus status = true then [status] else [] := by
  show (if isTerminalTaskStatus status = true ∧ run.status ≠ status then
    run.terminals ++ [status] else run.terminals) = _
  rcases fine with same | plain
  · rw [if_neg fun both => both.2 same, counted, same]
  · rw [plain, if_neg Bool.false_ne_true] at counted
    rw [counted]
    by_cases terminal : isTerminalTaskStatus status = true
    · have different : run.status ≠ status := by
        rintro rfl
        exact Bool.false_ne_true (plain.symm.trans terminal)
      rw [if_pos ⟨terminal, different⟩, if_pos terminal]
      rfl
    · rw [if_neg fun both => terminal both.1, if_neg terminal]

theorem Fresh.plain (fresh : run.Fresh) :
    isTerminalTaskStatus run.status = false := by
  unfold isTerminalTaskStatus
  rw [Bool.or_eq_false_iff, beq_eq_false_iff_ne, beq_eq_false_iff_ne]
  exact fresh

/-- The commit being written, once the task has its new status. -/
def write (run : MediaRun) (commit : MediaCommit) (occurrence : Bool) :
    MediaRun :=
  { run.setStatus commit.nextStatus with
    active := some
      { commit := commit
        stage := .publishing occurrence } }

/-- What does not depend on which commit is written. -/
theorem Sound.write (sound : run.Sound) {commit : MediaCommit}
    {occurrence : Bool}
    (active : run.active = some
      { commit := commit
        stage := .persisting })
    (fine : run.status = commit.nextStatus ∨
      isTerminalTaskStatus run.status = false)
    (cancelling : run.cancelled = true →
      (run.write commit occurrence).NotDone ∧
      (run.write commit occurrence).Failing)
    (fits : (run.write commit occurrence).Fits run.point) :
    Sound (run.write commit occurrence) := by
  have front := active_commits active
  exact
    { counted := counted_setStatus sound.counted fine
      quiet := fun idle => by
        obtain ⟨stopping, releasing, absent⟩ := sound.quiet idle
        rw [front] at absent
        exact ⟨stopping, releasing, absent⟩
      cancelling := cancelling
      ours := by
        have ours := sound.ours
        rw [front] at ours
        exact ours
      registered := sound.registered
      fits := fits }

/-- A status that is not completed is in error or not terminal. -/
theorem NotDone.fine (notDone : run.NotDone) :
    run.status = .error ∨ isTerminalTaskStatus run.status = false := by
  by_cases error : run.status = .error
  · exact Or.inl error
  · exact Or.inr (Fresh.plain ⟨notDone.2, error⟩)

theorem Sound.cancellationWritten (sound : run.Sound) {occurrence : Bool}
    (active : run.active = some
      { commit := .cancellation
        stage := .persisting }) :
    Sound (run.write .cancellation occurrence) := by
  have front := active_commits active
  have cancelled : run.cancelled = true :=
    sound.cancelled_of (front ▸ List.mem_cons_self)
  have notDone := (sound.cancelling cancelled).1
  have notRenamed : ¬run.Renamed := fun renamed =>
    Bool.false_ne_true (renamed.2.symm.trans cancelled)
  have written : (run.write .cancellation occurrence).NotDone ∧
      (run.write .cancellation occurrence).Failing :=
    ⟨⟨notDone.1, TaskStatus.noConfusion⟩, Or.inl rfl⟩
  have unfinished : (run.write .cancellation occurrence).Open :=
    ⟨written.1, fun idle =>
      absurd (idle.symm.trans cancelled) Bool.false_ne_true⟩
  apply sound.write active notDone.fine (fun _ => written)
  have fits := sound.fits
  cases point : run.point with
  | submitting =>
      rw [point] at fits
      exact absurd (fits.2.1.symm.trans cancelled) Bool.false_ne_true
  | awaiting commit =>
      rw [point] at fits
      cases commit with
      | downloading =>
          have head := fits.2.2
          rw [front] at head
          cases head
      | finalizing =>
          refine ⟨unfinished, ?_⟩
          intro same
          cases same
      | completed => exact absurd fits.1 notRenamed
      | failure =>
          refine ⟨written.1, ?_⟩
          intro _ same
          cases same
      | cancellation => exact fits
  | resumed commit result =>
      rw [point] at fits
      cases commit with
      | downloading => exact ⟨unfinished, fun _ => cancelled⟩
      | finalizing => exact ⟨unfinished, fun _ => cancelled⟩
      | completed => exact absurd fits.1 notRenamed
      | failure => exact written
      | cancellation => exact fits
  | working => exact unfinished
  | moving =>
      rw [point] at fits
      exact absurd (fits.2.symm.trans cancelled) Bool.false_ne_true
  | measuring =>
      rw [point] at fits
      exact absurd fits.1 notRenamed
  | draining barrier =>
      rw [point] at fits
      exact ⟨unfinished, fits.2⟩
  | closing => exact Or.inr written
  | ended => exact Or.inr written

theorem Sound.written (sound : run.Sound) {commit : MediaCommit}
    {occurrence : Bool}
    (active : run.active = some
      { commit := commit
        stage := .persisting }) :
    Sound (run.write commit occurrence) := by
  by_cases own : commit = .cancellation
  · subst own
    exact sound.cancellationWritten active
  · have front := active_commits active
    have point := sound.owner (front ▸ List.mem_cons_self) own
    have fits := sound.fits
    rw [point] at fits
    -- the cancel whose commit is still behind this one
    have toCome : run.cancelled = true → run.status ≠ .error →
        run.CancelToCome := by
      intro cancelled alive
      rcases (sound.cancelling cancelled).2 with error | toCome | doing
      · exact absurd error alive
      · exact toCome
      · rw [active] at doing
        cases doing
        exact absurd rfl own
    cases commit with
    | downloading =>
        have fresh : run.Fresh := ⟨fits.1.2, fits.2.1⟩
        have notDone : (run.write .downloading occurrence).NotDone :=
          ⟨fits.1.1, TaskStatus.noConfusion⟩
        apply sound.write active (Or.inr fresh.plain)
        · exact fun cancelled =>
            ⟨notDone, Or.inr (Or.inl (toCome cancelled fresh.2))⟩
        · rw [point]
          exact ⟨notDone, TaskStatus.noConfusion, rfl⟩
    | finalizing =>
        have fresh : run.Fresh := ⟨fits.1.1.2, fits.2 active⟩
        have notDone : (run.write .finalizing occurrence).NotDone :=
          ⟨fits.1.1.1, TaskStatus.noConfusion⟩
        apply sound.write active (Or.inr fresh.plain)
        · exact fun cancelled =>
            ⟨notDone, Or.inr (Or.inl (toCome cancelled fresh.2))⟩
        · rw [point]
          refine ⟨⟨notDone, fun _ => TaskStatus.noConfusion⟩, ?_⟩
          intro _
          exact TaskStatus.noConfusion
    | completed =>
        obtain ⟨renamed, stages⟩ := fits
        have fresh : run.Fresh := by
          rcases stages with apart | completed
          · exact apart.1
          · exact absurd active completed.2.1
        apply sound.write active (Or.inr fresh.plain)
        · exact fun cancelled =>
            absurd (renamed.2.symm.trans cancelled) Bool.false_ne_true
        · rw [point]
          refine ⟨renamed, Or.inr ⟨rfl, ?_, rfl⟩⟩
          intro same
          cases same
    | failure =>
        have notDone : (run.write .failure occurrence).NotDone :=
          ⟨fits.1.1, TaskStatus.noConfusion⟩
        apply sound.write active fits.1.fine
        · exact fun _ => ⟨notDone, Or.inl rfl⟩
        · rw [point]
          exact ⟨notDone, fun _ _ => rfl⟩
    | cancellation => exact absurd rfl own

theorem Sound.persisted (sound : run.Sound) {succeeds : Bool}
    (excused : succeeds = false → ∀ commit,
      run.active = some
        { commit := commit
          stage := .persisting } →
      commit ≠ .completed ∧ run.CancelToCome) :
    Sound (run.persisted succeeds) := by
  unfold MediaRun.persisted
  split
  · rename_i commit active
    split
    · exact sound.written active
    · rename_i fails
      obtain ⟨unfinished, toCome⟩ :=
        excused (Bool.eq_false_iff.mpr fails) commit active
      have front := active_commits active
      have cancelled : run.cancelled = true := by
        by_contra idle
        obtain ⟨stopping, releasing, absent⟩ :=
          sound.quiet (Bool.eq_false_iff.mpr idle)
        rcases toCome with stop | release | waiting
        · exact absurd stop (by omega)
        · exact absurd release (by omega)
        · exact absent (mem_lane_commits waiting)
      by_cases own : commit = .cancellation
      · subst own
        rw [settle, if_pos rfl]
        exact sound.unlock active (Or.inr toCome)
      · have point := sound.owner (front ▸ List.mem_cons_self) own
        have fits := sound.fits
        rw [point] at fits
        apply sound.settled front own
        cases commit with
        | downloading =>
            exact ⟨⟨fits.1, fun _ => fits.2.1⟩, fun _ => cancelled⟩
        | finalizing => exact ⟨fits.1, fun _ => cancelled⟩
        | completed => exact absurd rfl unfinished
        | failure => exact ⟨fits.1, Or.inr (Or.inl toCome)⟩
        | cancellation => exact absurd rfl own
  · exact sound

/-! ## Whole runs -/

theorem Sound.apply (sound : run.Sound) {event : MediaEvent}
    (undisturbed : run.Undisturbed event) : Sound (run.apply event) := by
  cases event with
  | register => exact sound.register
  | cancel => exact sound.cancel undisturbed
  | stopAndDrain => exact sound.stopAndDrain undisturbed
  | downloadersCancelled => exact sound.downloadersCancelled
  | metadataReleased => exact sound.metadataReleased
  | beginCommit => exact sound.beginCommit
  | persisted succeeds =>
      apply sound.persisted
      rintro rfl
      exact undisturbed
  | published succeeds =>
      apply sound.published
      rintro rfl
      exact undisturbed
  | resume => exact sound.resume
  | worked result => exact sound.worked result
  | renamed succeeds => exact sound.renamed succeeds
  | measured => exact sound.measured
  | drained => exact sound.drained
  | closed => exact sound.closed

theorem sound_start : Sound {} where
  counted := rfl
  quiet _ := ⟨rfl, rfl, List.not_mem_nil⟩
  cancelling cancelled := by cases cancelled
  ours := rfl
  registered _ started := absurd rfl started
  fits := ⟨⟨⟨rfl, TaskStatus.noConfusion⟩, fun _ => TaskStatus.noConfusion⟩,
    rfl, rfl, rfl⟩

/-- A task has at most one terminal status, which tells whether its file is
at the final path, and has one once everything is over. -/
structure OneOutcome (run : MediaRun) : Prop where
  single : run.terminals.length ≤ 1
  completed : run.status = .completed → run.finalFile = true
  failed : run.status = .error → run.finalFile = false
  decided : run.Over → run.terminals = [run.status] ∧
    (run.status = .completed ↔ run.finalFile = true)

theorem Fits.renamed {point : RunPoint} (fits : run.Fits point)
    (file : run.finalFile = true) : run.status ≠ .error := by
  have notDone : ¬run.NotDone := fun notDone =>
    Bool.false_ne_true (notDone.1.symm.trans file)
  have succeeded : ∀ status, run.status = status → status = .completed →
      run.status ≠ .error := by
    rintro status same rfl
    rw [same]
    exact TaskStatus.noConfusion
  cases point with
  | submitting => exact absurd fits.1.1 notDone
  | awaiting commit =>
      cases commit with
      | downloading => exact absurd fits.1 notDone
      | finalizing => exact absurd fits.1.1 notDone
      | completed =>
          rcases fits.2 with apart | completed
          · exact apart.1.2
          · exact succeeded _ completed.1 rfl
      | failure => exact absurd fits.1 notDone
      | cancellation => exact fits.elim
  | resumed commit result =>
      cases commit with
      | downloading => exact absurd fits.1.1 notDone
      | finalizing => exact absurd fits.1.1 notDone
      | completed => exact succeeded _ fits.2.1 rfl
      | failure => exact absurd fits.1 notDone
      | cancellation => exact fits.elim
  | working => exact absurd fits.1 notDone
  | moving => exact absurd fits.1.1 notDone
  | measuring => exact fits.2.2
  | draining barrier => exact absurd fits.1.1 notDone
  | closing =>
      rcases fits with renamed | failed
      · exact succeeded _ renamed.2 rfl
      · exact absurd failed.1 notDone
  | ended =>
      rcases fits with renamed | failed
      · exact succeeded _ renamed.2 rfl
      · exact absurd failed.1 notDone

theorem Sound.oneOutcome (sound : run.Sound) : run.OneOutcome := by
  have completed : run.status = .completed → run.finalFile = true := by
    intro completed
    by_contra file
    have notDone := Fits.notDone sound.fits (Bool.eq_false_iff.mpr file)
    exact notDone.2 completed
  constructor
  · rw [sound.counted]
    split
    · exact Nat.le_refl 1
    · exact Nat.zero_le 1
  · exact completed
  · intro error
    by_contra file
    exact Fits.renamed sound.fits (Bool.not_eq_false _ ▸ file) error
  · rintro ⟨point, stopping, releasing, active, lane⟩
    have fits := sound.fits
    rw [point] at fits
    rcases fits with ⟨renamed, status⟩ | ⟨notDone, failing⟩
    · refine ⟨?_, fun _ => renamed.1, fun _ => status⟩
      rw [sound.counted, status]
      rfl
    · have error : run.status = .error := by
        rcases failing with error | (stop | release | waiting) | doing
        · exact error
        · rw [stopping] at stop
          cases stop
        · rw [releasing] at release
          cases release
        · rw [lane] at waiting
          cases waiting
        · rw [active] at doing
          cases doing
      refine ⟨?_, completed, ?_⟩
      · rw [sound.counted, error]
        rfl
      · intro file
        exact absurd (notDone.1.symm.trans file) Bool.false_ne_true

theorem run_oneOutcome {events : List MediaEvent}
    (undisturbed : Lib.Steps apply Undisturbed {} events) :
    OneOutcome (interleave {} events) := by
  have sound : Sound (interleave {} events) :=
    Lib.Steps.invariant (fun _ _ before rule => before.apply rule)
      sound_start undisturbed
  exact sound.oneOutcome

/-! ## Runs with a cancel -/

/-- A run up to the rename in flight. -/
def upToRename : List MediaEvent :=
  [.register, .beginCommit, .persisted true, .published true, .resume,
    .worked .finished, .beginCommit, .persisted true, .published true,
    .resume]

/-- The commit of the cancellation. -/
def cancelCommit : List MediaEvent :=
  [.downloadersCancelled, .metadataReleased, .beginCommit, .persisted true,
    .published true]

/-- The completion after the rename. -/
def completion : List MediaEvent :=
  [.renamed true, .measured, .beginCommit, .persisted true, .published true,
    .resume]

theorem cancelledEarly_oneOutcome :
    OneOutcome (interleave {} ([.register, .beginCommit, .persisted true,
      .cancel, .published true, .resume] ++ cancelCommit ++ [.closed])) ∧
    (interleave {} ([.register, .beginCommit, .persisted true, .cancel,
      .published true, .resume] ++ cancelCommit ++ [.closed])).terminals =
        [.error] := by
  constructor
  · apply run_oneOutcome
    refine ⟨trivial, trivial, trivial, ?_, trivial, trivial, trivial,
      trivial, trivial, trivial, trivial, trivial, trivial⟩
    exact fun _ => ⟨by decide, rfl⟩
  · decide

/-- A cancel during the rename leaves the file of a task in error; a cancel
before the run has left the map turns a completed task into one in error. -/
theorem cancelledLate_twoOutcomes :
    ((interleave {} (upToRename ++ [.cancel, .renamed true, .closed] ++
        cancelCommit)).status = .error ∧
      (interleave {} (upToRename ++ [.cancel, .renamed true, .closed] ++
        cancelCommit)).finalFile = true) ∧
    (interleave {} (upToRename ++ completion ++ [.cancel, .closed] ++
      cancelCommit)).terminals = [.completed, .error] := by
  decide

end MediaRun

end Motrix.MediaTask
