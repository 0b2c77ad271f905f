import Motrix.Task.UploadSettlement

/-!
# The upload of every engine id a task had

Beside the task stand the books: for every engine id the largest upload that
was reported, and what of it a settlement of an interrupted finalize left out.
The lifetime upload is what the books say, in every state of every run.
-/

namespace Motrix.UploadSettlement

open Motrix.Activity (TaskStatus)
open Motrix.Lib
open Motrix.ReAdd

/-! ## Runs -/

/-- The upload that one engine id reported, and what of it was waived. -/
structure Account where
  gid : String
  reported : Int
  waived : Int
  deriving DecidableEq

structure Books where
  task : ReAddTask
  current : Account
  retired : List Account
  deriving DecidableEq

/-- The saved rows and what the books said when they were saved. -/
structure World where
  live : Books
  saved : Books
  deriving DecidableEq

inductive Event where
  | poll (counter : Int)
  | settle (upload : Option Int) (recovering : Bool)
  | swap (gid : String) (now : Nat) (status : Option TaskStatus)
  | save
  | restart
  deriving DecidableEq

namespace Books

def accounts (books : Books) : List Account :=
  books.current :: books.retired

/-- A recovering settlement without a marker waives what it finds. -/
def settle (books : Books) (upload : Option Int) (recovering : Bool) :
    Books :=
  let task := books.task
  let reported := max books.current.reported (upload.getD 0)
  { books with
    task := settleBtUpload task upload recovering
    current :=
      { books.current with
        reported := reported
        waived :=
          if recovering &&
              (accountedUpload task.instances task.engineTaskId).isNone then
            reported
          else books.current.waived } }

/-- Of the current engine id a restart knows what the rows hold. -/
def restart (books : Books) : Books :=
  let row := books.task
  { books with
    task := taskRowToDownloadTask row
    current :=
      { books.current with
        reported :=
          max ((accountedUpload row.instances row.engineTaskId).getD 0 : Nat)
            ((row.instances.head?.map (·.uploadedBytes)).getD 0) } }

end Books

def World.apply (world : World) : Event → World
  | .poll counter =>
      { world with
        live :=
          { world.live with
            task := mergeEngineTask world.live.task counter
            current := { world.live.current with reported := counter } } }
  | .settle upload recovering =>
      { world with live := world.live.settle upload recovering }
  | .swap gid now status =>
      { world with
        live :=
          { task := withReservedGid world.live.task gid now status
            current := ⟨gid, 0, 0⟩
            retired := world.live.accounts } }
  | .save => { world with saved := world.live }
  | .restart => { world with live := world.saved.restart }

/-- Counters of one engine id do not fall, and a new id takes the place of one
that is settled. -/
def Allowed (world : World) : Event → Prop
  | .poll counter => world.live.current.reported ≤ counter
  | .swap gid _ _ =>
      world.live.task.uploadedBytes = world.live.task.uploadedBytesBaseline ∧
        ∀ account ∈ world.live.accounts, account.gid ≠ gid
  | _ => True

/-- A task of one engine id that nothing was settled for. -/
structure Fresh (task : ReAddTask) : Prop where
  named : task.instances.head?.bind (·.gid) = some task.engineTaskId
  unmarked : ∀ entry ∈ task.instances, entry.upload = none
  baseline : task.uploadedBytesBaseline = 0
  uploaded : 0 ≤ task.uploadedBytes

def World.start (task : ReAddTask) : World :=
  let books : Books := ⟨task, ⟨task.engineTaskId, task.uploadedBytes, 0⟩, []⟩
  ⟨books, books⟩

/-! ## What the books say -/

/-- The reported uploads of all engine ids. -/
def reportedTotal (accounts : List Account) : Int :=
  accounts.foldr (fun account total => account.reported + total) 0

/-- The reported uploads less what was waived. -/
def creditedTotal (accounts : List Account) : Int :=
  accounts.foldr
    (fun account total => account.reported - account.waived + total) 0

theorem creditedTotal_cons (account : Account) (rest : List Account) :
    creditedTotal (account :: rest) =
      account.reported - account.waived + creditedTotal rest :=
  rfl

theorem creditedTotal_unwaived {accounts : List Account}
    (unwaived : ∀ account ∈ accounts, account.waived = 0) :
    creditedTotal accounts = reportedTotal accounts := by
  induction accounts with
  | nil => rfl
  | cons account rest induction =>
      have head := unwaived account List.mem_cons_self
      have tail := induction fun other member =>
        unwaived other (List.mem_cons_of_mem account member)
      simp only [creditedTotal, reportedTotal, List.foldr_cons] at tail ⊢
      omega

/-- What of the current engine id is accounted. -/
def Books.level (books : Books) : Int :=
  ((accountedUpload books.task.instances books.task.engineTaskId).getD 0 : Nat)

/-- The baseline holds the retired ids and the current one up to its level. -/
structure Sound (books : Books) : Prop where
  primary : ∃ marker, PrimaryMarked books.task.instances marker ∧
    ∀ entry ∈ marker, entry.gid ∈ books.accounts.map (·.gid)
  named : books.task.instances.head?.bind (·.gid) =
    some books.task.engineTaskId
  current : books.current.gid = books.task.engineTaskId
  apart : (books.accounts.map (·.gid)).Nodup
  bounds : ∀ account ∈ books.accounts,
    0 ≤ account.waived ∧ account.waived ≤ account.reported
  level : books.current.waived ≤ books.level ∧
    books.level ≤ books.current.reported
  baseline : books.task.uploadedBytesBaseline =
    books.level - books.current.waived + creditedTotal books.retired
  uploaded : books.task.uploadedBytes = creditedTotal books.accounts

namespace Sound

variable {books : Books}

/-- Books that keep their engine ids and instances stay sound. -/
theorem update (sound : Sound books) {task : ReAddTask} {current : Account}
    (instances : task.instances = books.task.instances)
    (engine : task.engineTaskId = books.task.engineTaskId)
    (baseline :
      task.uploadedBytesBaseline = books.task.uploadedBytesBaseline)
    (gid : current.gid = books.current.gid)
    (waived : current.waived = books.current.waived)
    (reported : books.level ≤ current.reported)
    (uploaded : task.uploadedBytes =
      task.uploadedBytesBaseline + (current.reported - books.level)) :
    Sound { books with
      task := task
      current := current } := by
  have level : Books.level { books with
      task := task
      current := current } = books.level := by
    simp [Books.level, instances, engine]
  have gids : (current :: books.retired).map (·.gid) =
      books.accounts.map (·.gid) := by
    simp [Books.accounts, gid]
  obtain ⟨marker, primary, known⟩ := sound.primary
  have bounds := sound.bounds books.current List.mem_cons_self
  have waivedLevel := sound.level.1
  constructor
  · refine ⟨marker, ?_, ?_⟩
    · simpa [instances] using primary
    · intro entry member
      simpa [Books.accounts, gid] using known entry member
  · simpa [instances, engine] using sound.named
  · simpa [engine, gid] using sound.current
  · simpa [Books.accounts, gid] using sound.apart
  · intro account member
    rcases List.mem_cons.mp member with rfl | member
    · omega
    · exact sound.bounds account (List.mem_cons_of_mem _ member)
  · rw [level]
    dsimp only
    omega
  · rw [level]
    have before := sound.baseline
    dsimp only
    omega
  · have before := sound.baseline
    simp only [Books.accounts, creditedTotal_cons]
    omega

theorem poll (sound : Sound books) {counter : Int}
    (rises : books.current.reported ≤ counter) :
    Sound { books with
      task := mergeEngineTask books.task counter
      current := { books.current with reported := counter } } := by
  have level := sound.level.2
  apply sound.update
  · rfl
  · rfl
  · rfl
  · rfl
  · rfl
  · exact Int.le_trans level rises
  · have whole : max 0 (counter - books.level) = counter - books.level := by
      omega
    exact congrArg (books.task.uploadedBytesBaseline + ·) whole

theorem restart (sound : Sound books) : Sound books.restart := by
  have named : (books.task.instances.head?.bind (·.gid)).getD "" =
      books.task.engineTaskId := by
    simp [sound.named]
  apply sound.update
  · rfl
  · exact named
  · rfl
  · rfl
  · rfl
  · exact Int.le_max_left _ _
  · simp only [taskRowToDownloadTask, named, unsettledBtUpload]
    simp only [Books.level]
    omega

/-- What a settlement finds accounted of what it reaches. -/
def previousLevel (books : Books) (upload : Option Int)
    (recovering : Bool) : Int :=
  if (accountedUpload books.task.instances
      books.task.engineTaskId).isNone && recovering then
    max books.current.reported (upload.getD 0)
  else books.level

/-- A settlement reaches the largest upload that was reported. -/
theorem settleBtUpload (sound : Sound books) (upload : Option Int)
    (recovering : Bool) :
    UploadSettlement.settleBtUpload books.task upload recovering =
      moveUpload books.task (max books.current.reported (upload.getD 0))
        (previousLevel books upload recovering) := by
  obtain ⟨marker, primary, -⟩ := sound.primary
  have some := primary.position
  have baseline := sound.baseline
  have total := sound.uploaded
  rw [Books.accounts, creditedTotal_cons] at total
  apply settleBtUpload_eq
  · show max (upload.getD 0) (books.task.uploadedBytes -
      books.task.uploadedBytesBaseline + books.level) =
        max books.current.reported (upload.getD 0)
    omega
  · simp only [previousLevel, Books.level]
    cases accountedUpload books.task.instances books.task.engineTaskId with
    | some bytes => simp
    | none => cases recovering <;> simp [some]

theorem previousLevel_le (sound : Sound books) (upload : Option Int)
    (recovering : Bool) :
    previousLevel books upload recovering ≤
      max books.current.reported (upload.getD 0) := by
  have level := sound.level.2
  unfold previousLevel
  split
  · exact Int.le_refl _
  · omega

/-- A settlement moves all that was reported into the baseline. -/
theorem settlement (sound : Sound books) (upload : Option Int)
    (recovering : Bool) :
    let settled := books.settle upload recovering
    settled.task.uploadedBytesBaseline = creditedTotal settled.accounts ∧
      settled.task.instances = mark books.task.instances
        ⟨books.task.engineTaskId, settled.current.reported.toNat⟩ ∧
      0 ≤ settled.current.waived ∧
      settled.current.waived ≤ settled.current.reported := by
  intro settled
  have bounds := sound.bounds books.current List.mem_cons_self
  have level := sound.level
  have previous := sound.previousLevel_le upload recovering
  have baseline := sound.baseline
  have waived : settled.current.waived = books.current.waived +
      (previousLevel books upload recovering - books.level) := by
    simp only [settled, Books.settle, previousLevel]
    simp only [Books.level] at level ⊢
    cases accounted :
        accountedUpload books.task.instances books.task.engineTaskId with
    | some bytes => simp
    | none =>
        simp only [accounted, Option.getD_none] at level
        cases recovering with
        | true =>
            simp
            omega
        | false => simp
  refine ⟨?_, ?_, ?_, ?_⟩
  · show (UploadSettlement.settleBtUpload books.task upload
      recovering).uploadedBytesBaseline =
        creditedTotal (settled.current :: books.retired)
    rw [creditedTotal_cons, waived, sound.settleBtUpload upload recovering]
    show books.task.uploadedBytesBaseline + _ =
      max books.current.reported (upload.getD 0) - _ + _
    omega
  · show (UploadSettlement.settleBtUpload books.task upload
      recovering).instances = _
    rw [sound.settleBtUpload upload recovering]
    simp only [moveUpload, Int.max_eq_right previous]
    rfl
  · have above : books.level ≤ previousLevel books upload recovering := by
      unfold previousLevel
      split
      · omega
      · exact Int.le_refl _
    omega
  · show _ ≤ max books.current.reported (upload.getD 0)
    omega

theorem settled_level (sound : Sound books) (upload : Option Int)
    (recovering : Bool) :
    (books.settle upload recovering).level =
      (books.settle upload recovering).current.reported := by
  obtain ⟨marker, primary, -⟩ := sound.primary
  obtain ⟨-, instances, lower, upper⟩ := sound.settlement upload recovering
  have marked := primary.mark
    ⟨books.task.engineTaskId,
      (books.settle upload recovering).current.reported.toNat⟩
  have accounted := marked.accounted books.task.engineTaskId
  have engine : (books.settle upload recovering).task.engineTaskId =
      books.task.engineTaskId := rfl
  unfold Books.level
  rw [instances, engine, accounted]
  simp
  omega

theorem settle (sound : Sound books) (upload : Option Int)
    (recovering : Bool) : Sound (books.settle upload recovering) := by
  obtain ⟨baseline, instances, lower, upper⟩ :=
    sound.settlement upload recovering
  have level := sound.settled_level upload recovering
  obtain ⟨marker, primary, -⟩ := sound.primary
  constructor
  · refine ⟨_, instances ▸ primary.mark _, ?_⟩
    intro entry same
    cases same
    exact List.mem_map.mpr ⟨(books.settle upload recovering).current,
      List.mem_cons_self, sound.current⟩
  · have named := sound.named
    rw [instances]
    show (mark books.task.instances _).head?.bind (·.gid) =
      some books.task.engineTaskId
    cases empty : books.task.instances with
    | nil => simp [empty] at named
    | cons head rest =>
        simp only [empty, List.head?_cons, Option.bind_some] at named
        simp only [mark, List.mapIdx_cons, List.head?_cons, Option.bind_some]
        split
        · exact named
        · exact named
  · exact sound.current
  · exact sound.apart
  · intro account member
    rcases List.mem_cons.mp member with rfl | member
    · exact ⟨lower, upper⟩
    · exact sound.bounds account (List.mem_cons_of_mem _ member)
  · rw [level]
    exact ⟨upper, Int.le_refl _⟩
  · rw [level, baseline]
    rfl
  · rw [← baseline]
    rfl

/-- A new engine id starts with nothing accounted. -/
theorem swap (sound : Sound books) {gid : String} {now : Nat}
    {status : Option TaskStatus}
    (settled :
      books.task.uploadedBytes = books.task.uploadedBytesBaseline)
    (fresh : ∀ account ∈ books.accounts, account.gid ≠ gid) :
    Sound
      { task := withReservedGid books.task gid now status
        current := ⟨gid, 0, 0⟩
        retired := books.accounts } := by
  obtain ⟨marker, primary, known⟩ := sound.primary
  have total := sound.uploaded
  have kept : PrimaryMarked
      (withReservedGid books.task gid now status).instances marker := by
    apply primary.mapIdx
    · intro index entry
      split
      · rfl
      · rfl
    · intro index entry
      split
      · rfl
      · rfl
  have nothing : accountedUpload
      (withReservedGid books.task gid now status).instances gid = none := by
    rw [kept.accounted]
    cases marker with
    | none => rfl
    | some entry =>
        have member := known entry rfl
        obtain ⟨account, member, same⟩ := List.mem_map.mp member
        have apart : entry.gid ≠ gid := same ▸ fresh account member
        simp [apart]
  have level : Books.level
      { task := withReservedGid books.task gid now status
        current := ⟨gid, 0, 0⟩
        retired := books.accounts } = 0 := by
    have engine : (withReservedGid books.task gid now status).engineTaskId =
        gid := rfl
    simp only [Books.level, engine, nothing, Option.getD_none]
    rfl
  have bytes : (withReservedGid books.task gid now status).uploadedBytes =
        books.task.uploadedBytes ∧
      (withReservedGid books.task gid now status).uploadedBytesBaseline =
        books.task.uploadedBytesBaseline := by
    cases status with
    | none => exact ⟨rfl, rfl⟩
    | some status => exact ⟨rfl, rfl⟩
  constructor
  · refine ⟨marker, kept, ?_⟩
    intro entry same
    exact List.mem_cons_of_mem _ (known entry same)
  · have named := sound.named
    show (List.mapIdx _ books.task.instances).head?.bind
      (fun entry : ReAddInstance => entry.gid) = some gid
    cases empty : books.task.instances with
    | nil => simp [empty] at named
    | cons head rest =>
        simp only [empty, List.head?_cons, Option.bind_some] at named
        have first : primaryIndex books.task = 0 := by
          simp only [primaryIndex, empty, List.findIdx?_cons]
          rw [named]
          simp
        simp only [List.mapIdx_cons, first, if_true, List.head?_cons,
          Option.bind_some]
  · rfl
  · refine List.nodup_cons.mpr ⟨?_, sound.apart⟩
    intro member
    obtain ⟨account, member, same⟩ := List.mem_map.mp member
    exact fresh account member same
  · intro account member
    rcases List.mem_cons.mp member with rfl | member
    · exact ⟨Int.le_refl 0, Int.le_refl 0⟩
    · exact sound.bounds account member
  · rw [level]
    exact ⟨Int.le_refl 0, Int.le_refl 0⟩
  · rw [level]
    show _ = 0 - 0 + creditedTotal books.accounts
    dsimp only
    omega
  · show _ = 0 - 0 + creditedTotal books.accounts
    dsimp only
    omega

end Sound

/-! ## Every run -/

theorem sound_start {task : ReAddTask} (fresh : Fresh task) :
    Sound (World.start task).live := by
  have marked : PrimaryMarked task.instances none := by
    apply PrimaryMarked.of_unmarked
    · intro empty
      have named := fresh.named
      simp [empty] at named
    · exact fresh.unmarked
  have level : (World.start task).live.level = 0 := by
    simp only [World.start, Books.level, marked.accounted]
    rfl
  have uploaded := fresh.uploaded
  constructor
  · exact ⟨none, marked, fun entry same => by cases same⟩
  · exact fresh.named
  · rfl
  · simp [World.start, Books.accounts]
  · simpa [World.start, Books.accounts] using uploaded
  · rw [level]
    exact ⟨Int.le_refl 0, uploaded⟩
  · rw [level]
    exact fresh.baseline
  · simp [World.start, Books.accounts, creditedTotal]

theorem sound_step (world : World) (event : Event)
    (sound : Sound world.live ∧ Sound world.saved)
    (allowed : Allowed world event) :
    Sound (world.apply event).live ∧ Sound (world.apply event).saved := by
  obtain ⟨live, saved⟩ := sound
  cases event with
  | poll counter => exact ⟨live.poll allowed, saved⟩
  | settle upload recovering => exact ⟨live.settle upload recovering, saved⟩
  | swap gid now status => exact ⟨live.swap allowed.1 allowed.2, saved⟩
  | save => exact ⟨live, live⟩
  | restart => exact ⟨saved.restart, saved⟩

theorem sound_run {task : ReAddTask} {events : List Event}
    (fresh : Fresh task)
    (steps : Steps World.apply Allowed (World.start task) events) :
    Sound (events.foldl World.apply (World.start task)).live := by
  have start := sound_start fresh
  have both : Sound (events.foldl World.apply (World.start task)).live ∧
      Sound (events.foldl World.apply (World.start task)).saved :=
    Steps.invariant sound_step ⟨start, start⟩ steps
  exact both.1

/-- Nothing of any engine id was waived. -/
def Unwaived (books : Books) : Prop :=
  ∀ account ∈ books.accounts, account.waived = 0

theorem unwaived_step {world : World} {event : Event}
    (unwaived : Unwaived world.live ∧ Unwaived world.saved)
    (normal : ∀ upload, event ≠ .settle upload true) :
    Unwaived (world.apply event).live ∧
      Unwaived (world.apply event).saved := by
  obtain ⟨live, saved⟩ := unwaived
  have change : ∀ {books changed : Books}, Unwaived books →
      changed.current.waived = books.current.waived →
      changed.retired = books.retired → Unwaived changed := by
    intro books changed kept here rest entry member
    rcases List.mem_cons.mp member with rfl | member
    · exact here.trans (kept books.current List.mem_cons_self)
    · exact kept entry (List.mem_cons_of_mem _ (rest ▸ member))
  cases event with
  | poll counter => exact ⟨change live rfl rfl, saved⟩
  | settle upload recovering =>
      cases recovering with
      | true => exact absurd rfl (normal upload)
      | false => exact ⟨change live rfl rfl, saved⟩
  | swap gid now status =>
      refine ⟨?_, saved⟩
      intro account member
      rcases List.mem_cons.mp member with rfl | member
      · rfl
      · exact live account member
  | save => exact ⟨live, live⟩
  | restart =>
      exact ⟨change saved rfl rfl, saved⟩

theorem unwaived_run {world : World} {events : List Event}
    (unwaived : Unwaived world.live ∧ Unwaived world.saved)
    (normal : ∀ upload, .settle upload true ∉ events) :
    Unwaived (events.foldl World.apply world).live := by
  induction events generalizing world with
  | nil => exact unwaived.1
  | cons event rest induction =>
      apply induction
      · apply unwaived_step unwaived
        intro upload same
        exact normal upload (same ▸ List.mem_cons_self)
      · intro upload member
        exact normal upload (List.mem_cons_of_mem event member)

/-- A poll and a settlement that does not recover add to the total. -/
def Event.adds : Event → Bool
  | .poll _ => true
  | .settle _ recovering => !recovering
  | _ => false

theorem Sound.adds {world : World} {event : Event}
    (live : Sound world.live) (allowed : Allowed world event)
    (adds : event.adds = true) :
    world.live.task.uploadedBytes ≤
      (world.apply event).live.task.uploadedBytes := by
  cases event with
  | poll counter =>
      have after := (live.poll allowed).uploaded
      have before := live.uploaded
      simp only [Books.accounts, creditedTotal_cons] at before after
      simp only [Allowed] at allowed
      simp only [World.apply]
      omega
  | settle upload recovering =>
      cases recovering with
      | true => simp [Event.adds] at adds
      | false =>
          have after := (live.settle upload false).uploaded
          have before := live.uploaded
          simp only [Books.accounts, Books.settle, creditedTotal_cons,
            Bool.false_and, Bool.false_eq_true, if_false] at before after
          simp only [World.apply, Books.settle]
          omega
  | swap gid now status => simp [Event.adds] at adds
  | save => simp [Event.adds] at adds
  | restart => simp [Event.adds] at adds

/-- A second settlement of the same upload finds all of it accounted. -/
theorem Sound.settle_again {books : Books} (sound : Sound books)
    (upload : Option Int) (first again : Bool) :
    UploadSettlement.settleBtUpload
        (UploadSettlement.settleBtUpload books.task upload first) upload again =
      UploadSettlement.settleBtUpload books.task upload first := by
  have settled := sound.settle upload first
  have level := sound.settled_level upload first
  have reported : (books.settle upload first).current.reported =
      max books.current.reported (upload.getD 0) := rfl
  have whole : max (books.settle upload first).current.reported
      (upload.getD 0) = (books.settle upload first).current.reported := by
    omega
  have previous : Sound.previousLevel (books.settle upload first) upload again =
      (books.settle upload first).current.reported := by
    unfold Sound.previousLevel
    split
    · exact whole
    · exact level
  have once := sound.settleBtUpload upload first
  have twice := settled.settleBtUpload upload again
  rw [previous, whole] at twice
  refine twice.trans ?_
  show moveUpload (UploadSettlement.settleBtUpload books.task upload first)
    (max books.current.reported (upload.getD 0))
    (max books.current.reported (upload.getD 0)) = _
  rw [once]
  exact moveUpload_again (sound.previousLevel_le upload first)

/-- The lifetime upload is what the books credit to the engine ids, each once
and none above what it reported; only what an interrupted finalize left without
a marker is missing. -/
theorem run_uploadAccounted {task : ReAddTask} {events : List Event}
    (fresh : Fresh task)
    (steps : Steps World.apply Allowed (World.start task) events) :
    let world := events.foldl World.apply (World.start task)
    world.live.task.uploadedBytes = creditedTotal world.live.accounts ∧
      (world.live.accounts.map (·.gid)).Nodup ∧
      (∀ account ∈ world.live.accounts,
        0 ≤ account.waived ∧ account.waived ≤ account.reported) ∧
      ((∀ upload, .settle upload true ∉ events) →
        world.live.task.uploadedBytes = reportedTotal world.live.accounts) ∧
      (∀ event, Allowed world event → event.adds = true →
        world.live.task.uploadedBytes ≤
          (world.apply event).live.task.uploadedBytes) ∧
      ∀ upload first again,
        settleBtUpload (settleBtUpload world.live.task upload first) upload
            again =
          settleBtUpload world.live.task upload first := by
  intro world
  have sound := sound_run fresh steps
  refine ⟨sound.uploaded, sound.apart, sound.bounds, ?_, ?_, ?_⟩
  · intro normal
    have unwaived : Unwaived (World.start task).live ∧
        Unwaived (World.start task).saved := by
      constructor <;> simp [Unwaived, World.start, Books.accounts]
    rw [← creditedTotal_unwaived (unwaived_run unwaived normal)]
    exact sound.uploaded
  · intro event allowed adds
    exact sound.adds allowed adds
  · exact sound.settle_again

/-! ## An interrupted finalize -/

/-- A torrent that seeds and has uploaded nothing. -/
def seedingTask : ReAddTask where
  id := "t1"
  type := .bt
  kind := .bt
  status := .seeding
  transitionPhase := .idle
  engineTaskId := "g1"
  diskPath := "/d/a"
  torrentMetaPath := none
  instances := [
    { gid := some "g1"
      phase := .btDownload
      status := .seeding
      uris := []
      diskPath := "/d/a"
      hasLegacyImport := false
      uploadedBytes := 0
      upload := none
      replay := none
      updatedAt := 0 }]
  uploadedBytes := 0
  uploadedBytesBaseline := 0
  finishedAt := none
  errorMessage := none
  errorCode := none
  errorDetailKey := none
  diagnosisRevision := 0
  updatedAt := 0

theorem seedingTask_fresh : Fresh seedingTask := by
  constructor
  · rfl
  · simp [seedingTask]
  · rfl
  · exact Int.le_refl 0

/-- The recovering settlement of an id without a marker credits nothing, and a
later settlement finds its upload accounted. -/
theorem waivedSettlement_unaccounted :
    ¬ ∀ (task : ReAddTask) (events : List Event) (upload : Option Int),
      Fresh task →
      Steps World.apply Allowed (World.start task)
        (events ++ [Event.settle upload false]) →
      let world := (events ++ [Event.settle upload false]).foldl World.apply
        (World.start task)
      world.live.task.uploadedBytes =
        reportedTotal world.live.accounts := by
  intro exact'
  have steps : Steps World.apply Allowed (World.start seedingTask)
      ([.poll 100, .settle (some 100) true] ++
        [Event.settle (some 100) false]) := by
    refine ⟨?_, trivial, trivial, trivial⟩
    show (0 : Int) ≤ 100
    omega
  have wrong := exact' seedingTask [.poll 100, .settle (some 100) true]
    (some 100) seedingTask_fresh steps
  exact absurd wrong (by decide)

/-- A finalize that settles, crashes and settles again, and the new id. -/
theorem run_uploadAccounted_finalize :
    let world := [Event.poll 100, .settle (some 120) false, .save, .restart,
      .settle (some 120) true, .swap "g2" 7 none, .poll 5].foldl World.apply
        (World.start seedingTask)
    world.live.task.uploadedBytes = creditedTotal world.live.accounts ∧
      creditedTotal world.live.accounts = 125 := by
  have steps : Steps World.apply Allowed (World.start seedingTask)
      [.poll 100, .settle (some 120) false, .save, .restart,
        .settle (some 120) true, .swap "g2" 7 none, .poll 5] := by
    refine ⟨?_, trivial, trivial, trivial, trivial, ?_, ?_, trivial⟩
    · show (0 : Int) ≤ 100
      omega
    · refine ⟨by decide, ?_⟩
      intro account member
      rcases List.mem_singleton.mp member with rfl
      decide
    · show (0 : Int) ≤ 5
      omega
  exact ⟨(run_uploadAccounted seedingTask_fresh steps).1, by decide⟩

end Motrix.UploadSettlement
