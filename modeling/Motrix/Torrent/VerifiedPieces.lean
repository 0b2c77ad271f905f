import Mathlib.Data.List.ReduceOption
import Motrix.Lib.Except
import Motrix.Torrent.FileVerifier

/-!
# The pieces that are verified

The laid out ranges number the pieces that a selected file lies in.  While the
pieces of a range are hashed, the cursor always stands at the file the next
byte is in, so that what is hashed for a piece is its part of the payload.
-/

namespace Motrix.BtFileVerifier

open Lib Ranges

/-! ## The layout -/

/-- Each file begins where the one before it ends. -/
def Contiguous : Nat → List Entry → Prop
  | _, [] => True
  | offset, entry :: rest =>
      entry.offset = offset ∧ Contiguous entry.endOffset rest

def extent (offset : Nat) (entries : List Entry) : Nat :=
  entries.foldl (fun offset entry => offset + entry.length) offset

/-- A piece lies in a file that is selected and not empty. -/
def Covers (pieceLength : Nat) (selected : List Int)
    (entry : Entry × Nat) (piece : Nat) : Prop :=
  (entry.2 : Int) ∈ selected ∧ 0 < entry.1.length ∧
    entry.1.offset < (piece + 1) * pieceLength ∧
      piece * pieceLength < entry.1.endOffset

structure LaidOut.Sound (pieceLength : Nat) (selected : List Int)
    (laid : LaidOut) : Prop where
  contiguous : Contiguous 0 laid.entries
  extent : extent 0 laid.entries = laid.offset
  ordered : Ordered laid.ranges
  bound : ∀ range ∈ laid.ranges, range.2 * pieceLength < laid.offset
  covers : ∀ piece, piece ∈ numbers laid.ranges ↔
    ∃ entry ∈ laid.entries.zipIdx, Covers pieceLength selected entry piece

theorem contiguous_append {entry : Entry} {entries : List Entry} :
    ∀ {offset}, Contiguous offset entries →
      entry.offset = extent offset entries →
        Contiguous offset (entries ++ [entry]) := by
  induction entries with
  | nil =>
      intro offset _ here
      exact ⟨here, trivial⟩
  | cons first rest induction =>
      intro offset contiguous here
      obtain ⟨start, others⟩ := contiguous
      refine ⟨start, induction others ?_⟩
      rw [here, extent, extent, List.foldl_cons, Entry.endOffset, start]

theorem mem_selectedRange {pieceLength offset length piece : Nat}
    (positive : 0 < pieceLength) (filled : 0 < length) :
    ((selectedRange pieceLength offset length).1 ≤ piece ∧
        piece ≤ (selectedRange pieceLength offset length).2) ↔
      offset < (piece + 1) * pieceLength ∧
        piece * pieceLength < offset + length := by
  unfold selectedRange
  rw [← Nat.lt_succ_iff, Nat.div_lt_iff_lt_mul positive,
    Nat.le_div_iff_mul_le positive]
  constructor
  · intro inside
    exact ⟨inside.1, by omega⟩
  · intro inside
    exact ⟨inside.1, by omega⟩

theorem not_refused {invalid : Bool} {message : String} {done : Unit}
    (accepted : refuse invalid message = .ok done) : invalid = false := by
  cases invalid with
  | false => rfl
  | true => contradiction

section Layout

variable {tree : FileTree} {payload : String} {pieceLength : Nat}
  {selected : List Int} {laid next : LaidOut} {file : TorrentFile}

/-- What an accepted file adds. -/
theorem layOutFile_ok {index : Nat}
    (accepted : layOutFile tree payload pieceLength selected laid (file, index) =
      .ok next) :
    file.offset = laid.offset ∧
      (∃ absolute, next.entries = laid.entries ++ [⟨file, absolute⟩]) ∧
        next.offset = laid.offset + file.length ∧
          next.ranges =
            if selected.contains index && file.length != 0 then
              push (selectedRange pieceLength file.offset file.length)
                laid.ranges
            else laid.ranges := by
  obtain ⟨_, start, accepted⟩ := bind_eq_ok.mp accepted
  obtain ⟨_, -, accepted⟩ := bind_eq_ok.mp accepted
  obtain ⟨_, -, accepted⟩ := bind_eq_ok.mp accepted
  have start := not_refused start
  cases accepted
  refine ⟨?_, ⟨_, rfl⟩, rfl, rfl⟩
  simp only [Bool.or_eq_false_iff, bne_eq_false_iff_eq] at start
  exact start.2

theorem LaidOut.Sound.grow (positive : 0 < pieceLength)
    (sound : laid.Sound pieceLength selected)
    (accepted : layOutFile tree payload pieceLength selected laid
      (file, laid.entries.length) = .ok next) :
    next.Sound pieceLength selected := by
  obtain ⟨start, ⟨absolute, entries⟩, offset, ranges⟩ := layOutFile_ok accepted
  have room : ∀ range ∈ laid.ranges, range.2 ≤ file.offset / pieceLength := by
    intro range member
    apply (Nat.le_div_iff_mul_le positive).mpr
    have below := sound.bound range member
    omega
  have found : ∀ piece,
      (∃ entry ∈ next.entries.zipIdx, Covers pieceLength selected entry piece) ↔
        piece ∈ numbers laid.ranges ∨ Covers pieceLength selected
          (⟨file, absolute⟩, laid.entries.length) piece := by
    intro piece
    rw [sound.covers, entries, List.zipIdx_append]
    simp [or_and_right, exists_or]
  have extents : BtFileVerifier.extent 0 next.entries = next.offset := by
    rw [entries, BtFileVerifier.extent, List.foldl_append]
    exact (congrArg (· + file.length) sound.extent).trans offset.symm
  have contiguous : Contiguous 0 next.entries := by
    rw [entries]
    exact contiguous_append sound.contiguous (start.trans sound.extent.symm)
  split at ranges
  · next chosen =>
      simp only [Bool.and_eq_true, List.contains_iff_mem, bne_iff_ne,
        ne_eq] at chosen
      have filled : 0 < file.length := Nat.pos_of_ne_zero chosen.2
      have order : (selectedRange pieceLength file.offset file.length).1 ≤
          (selectedRange pieceLength file.offset file.length).2 :=
        Nat.div_le_div_right (by omega)
      refine ⟨contiguous, extents, ?_, ?_, ?_⟩
      · rw [ranges]
        exact sound.ordered.push order room
      · rw [ranges]
        intro range member
        have most := push_bound (Nat.le_refl
          (selectedRange pieceLength file.offset file.length).2)
          (fun other inside => Nat.le_trans (room other inside) order)
          range member
        have reach := (Nat.le_div_iff_mul_le positive).mp most
        omega
      · intro piece
        rw [found, ranges, mem_push order fun other member =>
          ⟨sound.ordered.filled other member, room other member⟩,
          mem_selectedRange positive filled]
        apply or_congr Iff.rfl
        constructor
        · intro inside
          exact ⟨chosen.1, filled, inside⟩
        · intro covers
          exact covers.2.2
  · next skipped =>
      refine ⟨contiguous, extents, ?_, ?_, ?_⟩
      · rw [ranges]
        exact sound.ordered
      · rw [ranges]
        intro range member
        have below := sound.bound range member
        omega
      · intro piece
        rw [found, ranges]
        constructor
        · exact Or.inl
        · intro covers
          apply covers.elim id
          intro covers
          apply absurd _ skipped
          simp only [Bool.and_eq_true, List.contains_iff_mem, bne_iff_ne, ne_eq]
          exact ⟨covers.1, Nat.ne_of_gt covers.2.1⟩

theorem LaidOut.Sound.growAll (positive : 0 < pieceLength)
    {files : List TorrentFile} :
    ∀ {laid}, LaidOut.Sound pieceLength selected laid →
      (files.zipIdx laid.entries.length).foldlM
        (layOutFile tree payload pieceLength selected) laid = .ok next →
      next.Sound pieceLength selected ∧
        next.entries.map Entry.toTorrentFile =
          laid.entries.map Entry.toTorrentFile ++ files := by
  induction files with
  | nil =>
      intro laid sound accepted
      cases accepted
      exact ⟨sound, (List.append_nil _).symm⟩
  | cons file rest induction =>
      intro laid sound accepted
      rw [List.zipIdx_cons, List.foldlM_cons] at accepted
      cases step : layOutFile tree payload pieceLength selected laid
          (file, laid.entries.length) with
      | error error =>
          rw [step] at accepted
          cases accepted
      | ok middle =>
          rw [step] at accepted
          obtain ⟨-, ⟨absolute, entries⟩, -⟩ := layOutFile_ok step
          have count : laid.entries.length + 1 = middle.entries.length := by
            rw [entries, List.length_append, List.length_singleton]
          rw [count] at accepted
          obtain ⟨final, same⟩ := induction (sound.grow positive step) accepted
          refine ⟨final, ?_⟩
          rw [same, entries]
          simp

end Layout

/-- What the accepted metadata says about a plan. -/
structure Plan.Sound (plan : Plan) : Prop where
  positive : 0 < plan.pieceLength
  contiguous : Contiguous 0 plan.entries
  extent : extent 0 plan.entries = plan.totalLength
  ordered : Ordered plan.ranges
  bound : ∀ range ∈ plan.ranges, range.2 * plan.pieceLength < plan.totalLength
  covers : ∀ piece, piece ∈ numbers plan.ranges ↔
    ∃ entry ∈ plan.entries.zipIdx,
      Covers plan.pieceLength plan.selected entry piece

theorem pieceTable_positive {torrent : EngineTorrent}
    {table : Nat × Nat × List String} (accepted : pieceTable torrent = .ok table) :
    0 < table.1 := by
  simp only [pieceTable] at accepted
  split at accepted
  · split at accepted
    · next valid =>
        cases accepted
        exact valid.1
    · contradiction
  · contradiction

theorem prepare_sound {tree : FileTree} {input : VerifyBtFilesInput}
    {plan : Plan} (accepted : prepare tree input = .ok plan) :
    plan.Sound ∧
      plan.entries.map Entry.toTorrentFile = input.torrent.files ∧
        selection input = .ok plan.selected ∧
          pieceTable input.torrent =
            .ok (plan.pieceLength, plan.totalLength, plan.pieces) := by
  obtain ⟨⟨pieceLength, totalLength, pieces⟩, table, accepted⟩ :=
    bind_eq_ok.mp accepted
  obtain ⟨selected, chosen, accepted⟩ := bind_eq_ok.mp accepted
  obtain ⟨_, -, accepted⟩ := bind_eq_ok.mp accepted
  obtain ⟨parent, -, accepted⟩ := bind_eq_ok.mp accepted
  obtain ⟨laid, files, accepted⟩ := bind_eq_ok.mp accepted
  obtain ⟨_, total, accepted⟩ := bind_eq_ok.mp accepted
  obtain ⟨_, -, accepted⟩ := bind_eq_ok.mp accepted
  cases accepted
  have total := bne_eq_false_iff_eq.mp (not_refused total)
  have positive := pieceTable_positive table
  have fresh : LaidOut.Sound pieceLength selected ⟨[], [], [], 0⟩ :=
    ⟨trivial, rfl, ⟨by simp, List.Pairwise.nil⟩, by simp, by simp [numbers]⟩
  obtain ⟨sound, same⟩ := fresh.growAll positive files
  refine ⟨⟨positive, sound.contiguous, sound.extent.trans total, sound.ordered,
    ?_, sound.covers⟩, same, chosen, table⟩
  intro range member
  exact total ▸ sound.bound range member

/-! ## The declared files -/

section Files

variable (tree : FileTree) (plan : Plan)

/-- The bytes a file has to offer, none of which are known of a missing one. -/
def bytes (entry : Entry) : List (Option UInt8) :=
  match inspect tree plan entry with
  | .ok content => content.map some
  | .error _ => List.replicate entry.length none

def payload (entries : List Entry) : List (Option UInt8) :=
  entries.flatMap (bytes tree plan)

/-- A regular file, or none at all. -/
def Readable (entry : Entry) : Prop :=
  ∀ error, inspect tree plan entry = .error error → error.missing = true

/-- There if it is selected, and not of another length than declared. -/
def Settled (entry : Entry × Nat) : Prop :=
  ((entry.2 : Int) ∈ plan.selected →
      ∃ content, inspect tree plan entry.1 = .ok content) ∧
    ∀ content, inspect tree plan entry.1 = .ok content →
      content.length = entry.1.length

/-- What is read of a file is as long as declared. -/
def Intact (entry : Entry) : Prop :=
  Readable tree plan entry ∧
    ∀ content, inspect tree plan entry = .ok content →
      content.length = entry.length

def Clean (result : BtVerificationResult) : Prop :=
  result.missingFiles = [] ∧ result.invalidFiles = []

/-- A look at the files changes neither of these. -/
def SameCounts (result next : BtVerificationResult) : Prop :=
  next.checkedPieces = result.checkedPieces ∧ next.complete = result.complete

theorem SameCounts.trans {first second third : BtVerificationResult}
    (start : SameCounts first second) (later : SameCounts second third) :
    SameCounts first third :=
  ⟨later.1.trans start.1, later.2.trans start.2⟩

variable {tree plan} {entry : Entry × Nat} {result : BtVerificationResult}

theorem addExample_ne_nil (list : List String) (name : String) :
    addExample list name ≠ [] := by
  unfold addExample
  split
  · simp
  · next kept =>
      intro empty
      rw [empty] at kept
      simp [maxExamples] at kept

theorem inspectEntry_settled (readable : Readable tree plan entry.1)
    (settled : Settled tree plan entry) :
    inspectEntry tree plan result entry = .ok result := by
  unfold inspectEntry
  split
  · next content found => exact if_pos (settled.2 content found)
  · next error found =>
      have unselected : (plan.selected.contains (entry.2 : Int)) = false := by
        rw [← Bool.not_eq_true, List.contains_iff_mem]
        intro selected
        obtain ⟨content, other⟩ := settled.1 selected
        cases other.symm.trans found
      simp only [readable error found, unselected]
      rfl

theorem inspectEntry_unsettled (readable : Readable tree plan entry.1)
    (unsettled : ¬ Settled tree plan entry) :
    ∃ next, inspectEntry tree plan result entry = .ok next ∧ ¬ Clean next ∧
      SameCounts result next := by
  unfold inspectEntry
  split
  · next content found =>
      rw [if_neg]
      · exact ⟨_, rfl, fun clean => addExample_ne_nil _ _ clean.2, rfl, rfl⟩
      · intro same
        apply unsettled
        refine ⟨fun _ => ⟨content, found⟩, ?_⟩
        intro other again
        cases found.symm.trans again
        exact same
  · next error found =>
      have selected : (plan.selected.contains (entry.2 : Int)) = true := by
        rw [← Bool.not_eq_false]
        intro unselected
        apply unsettled
        constructor
        · intro selected
          rw [List.contains_iff_mem.mpr selected] at unselected
          contradiction
        · intro content other
          cases other.symm.trans found
      simp only [readable error found, selected]
      exact ⟨_, rfl, fun clean => addExample_ne_nil _ _ clean.1, rfl, rfl⟩

variable {entries : List (Entry × Nat)}

theorem inspectAll_settled
    (readable : ∀ entry ∈ entries, Readable tree plan entry.1)
    (settled : ∀ entry ∈ entries, Settled tree plan entry) :
    entries.foldlM (inspectEntry tree plan) result = .ok result := by
  induction entries with
  | nil => rfl
  | cons first rest induction =>
      obtain ⟨here, others⟩ := List.forall_mem_cons.mp readable
      obtain ⟨sound, later⟩ := List.forall_mem_cons.mp settled
      rw [List.foldlM_cons, inspectEntry_settled here sound]
      exact induction others later

/-- A blemish stays. -/
theorem inspectEntry_unclean (readable : Readable tree plan entry.1)
    (unclean : ¬ Clean result) :
    ∃ next, inspectEntry tree plan result entry = .ok next ∧ ¬ Clean next ∧
      SameCounts result next := by
  by_cases settled : Settled tree plan entry
  · exact ⟨result, inspectEntry_settled readable settled, unclean,
      rfl, rfl⟩
  · exact inspectEntry_unsettled readable settled

theorem inspectAll_unclean
    (readable : ∀ entry ∈ entries, Readable tree plan entry.1) :
    ∀ {result}, ¬ Clean result →
      ∃ next, entries.foldlM (inspectEntry tree plan) result = .ok next ∧
        ¬ Clean next ∧ SameCounts result next := by
  induction entries with
  | nil =>
      intro result unclean
      exact ⟨result, rfl, unclean, rfl, rfl⟩
  | cons first rest induction =>
      intro result unclean
      obtain ⟨here, others⟩ := List.forall_mem_cons.mp readable
      obtain ⟨middle, step, still, same⟩ := inspectEntry_unclean here unclean
      obtain ⟨next, steps, final, kept⟩ := induction others still
      refine ⟨next, ?_, final, same.trans kept⟩
      rw [List.foldlM_cons, step]
      exact steps

theorem inspectAll_unsettled
    (readable : ∀ entry ∈ entries, Readable tree plan entry.1)
    (unsettled : ¬ ∀ entry ∈ entries, Settled tree plan entry) :
    ∃ next, entries.foldlM (inspectEntry tree plan) result = .ok next ∧
      ¬ Clean next ∧ SameCounts result next := by
  induction entries with
  | nil => exact absurd (fun _ member => by contradiction) unsettled
  | cons first rest induction =>
      obtain ⟨here, others⟩ := List.forall_mem_cons.mp readable
      rw [List.foldlM_cons]
      by_cases settled : Settled tree plan first
      · rw [inspectEntry_settled here settled]
        apply induction others
        intro later
        exact unsettled (List.forall_mem_cons.mpr ⟨settled, later⟩)
      · obtain ⟨middle, step, unclean, same⟩ :=
          @inspectEntry_unsettled tree plan first result here settled
        obtain ⟨next, steps, final, kept⟩ := inspectAll_unclean others unclean
        rw [step]
        exact ⟨next, steps, final, same.trans kept⟩

/-- Anything but a file is refused. -/
theorem inspectAll_refuses
    (unreadable : ¬ ∀ entry ∈ entries, Readable tree plan entry.1) :
    ∀ result, ∃ error,
      entries.foldlM (inspectEntry tree plan) result = .error error := by
  induction entries with
  | nil => exact absurd (fun _ member => by contradiction) unreadable
  | cons first rest induction =>
      intro result
      rw [List.foldlM_cons]
      cases step : inspectEntry tree plan result first with
      | error error => exact ⟨error, rfl⟩
      | ok next =>
          apply induction
          intro others
          apply unreadable
          refine List.forall_mem_cons.mpr ⟨?_, others⟩
          intro error found
          simp only [inspectEntry, found] at step
          cases missing : error.missing with
          | true => rfl
          | false =>
              rw [missing] at step
              contradiction

/-! ## Reading -/

theorem bytesRead_length (content : List UInt8) (position remaining : Nat) :
    (bytesRead tree content position remaining).length =
      min (max 1 (min (tree.offered position) (min readBytes remaining)))
        (content.length - position) := by
  rw [bytesRead, List.length_take, List.length_drop]

theorem bytesRead_eq_take (content : List UInt8) (position remaining : Nat) :
    bytesRead tree content position remaining =
      (content.drop position).take
        (bytesRead tree content position remaining).length := by
  apply List.prefix_iff_eq_take.mp
  apply List.take_prefix

/-- A file that is long enough is read however many bytes each read offers. -/
theorem readAll_enough {content : List UInt8} {position remaining : Nat}
    (enough : position + remaining ≤ content.length) :
    readAll tree content position remaining =
      ((content.drop position).take remaining, true) := by
  fun_induction readAll tree content position remaining with
  | case1 position => rfl
  | case2 position remaining more bytes empty =>
      have count : bytes.length = _ :=
        bytesRead_length content position remaining
      omega
  | case3 position remaining more bytes found later induction =>
      have count : bytes.length = _ :=
        bytesRead_length content position remaining
      have most : bytes.length ≤ remaining := by omega
      have rest := induction (by omega)
      have joined : bytes ++ later.1 =
          (content.drop position).take remaining := by
        rw [show later.1 = _ from congrArg Prod.fst rest, ← List.drop_drop]
        calc
          bytes ++ ((content.drop position).drop bytes.length).take
                (remaining - bytes.length) =
              (content.drop position).take bytes.length ++
                ((content.drop position).drop bytes.length).take
                  (remaining - bytes.length) :=
            congrArg (· ++ _) (bytesRead_eq_take content position remaining)
          _ = (content.drop position).take remaining := by
            rw [← List.take_add, Nat.add_sub_cancel' most]
      rw [joined, show later.2 = true from congrArg Prod.snd rest]

variable {file : Entry}

theorem bytes_length (intact : Intact tree plan file) :
    (bytes tree plan file).length = file.length := by
  unfold bytes
  split
  · next content found => exact (List.length_map _).trans (intact.2 _ found)
  · exact List.length_replicate

theorem reduceOption_some (content : List UInt8) :
    (content.map some).reduceOption = content := by
  induction content with
  | nil => rfl
  | cons first rest induction =>
      rw [List.map_cons, List.reduceOption_cons_of_some, induction]

/-- What a read adds to the hash. -/
theorem read_adds {position length : Nat} {hash : Hashing}
    (intact : Intact tree plan file) (filled : 0 < length)
    (inside : position + length ≤ file.length) :
    ∃ missing, read tree plan file position length hash = .ok {
        bytes := hash.bytes ++
          (((bytes tree plan file).drop position).take length).reduceOption
        valid := hash.valid &&
          (((bytes tree plan file).drop position).take length).all
            Option.isSome
        result := { hash.result with missingFiles := missing }
      } ∧ (missing = hash.result.missingFiles ∨
        (((bytes tree plan file).drop position).take length).all
          Option.isSome = false) := by
  cases found : inspect tree plan file with
  | ok content =>
      have whole := intact.2 content found
      refine ⟨hash.result.missingFiles, ?_, Or.inl rfl⟩
      have full := @readAll_enough tree content position length (whole ▸ inside)
      have known : ((content.drop position).take length).all
          (Option.isSome ∘ some) = true :=
        List.all_eq_true.mpr fun _ _ => rfl
      simp only [read, bytes, found, if_pos whole, full, ← List.map_drop,
        ← List.map_take, reduceOption_some, List.all_map, known]
      rfl
  | error error =>
      have unknown : ((List.replicate file.length (none : Option UInt8)).drop
          position).take length = List.replicate length none := by
        rw [List.drop_replicate, List.take_replicate]
        congr 1
        omega
      have lost : (List.replicate length (none : Option UInt8)).all
          Option.isSome = false := by
        obtain ⟨rest, rfl⟩ := Nat.exists_eq_succ_of_ne_zero
          (Nat.ne_of_gt filled)
        rfl
      refine ⟨addExample hash.result.missingFiles file.path, ?_, Or.inr ?_⟩
      · simp only [read, bytes, found, intact.1 error found, unknown, lost,
          List.reduceOption_replicate_none, List.append_nil, Bool.and_false]
        rfl
      · simp only [bytes, found, unknown, lost]

/-! ## The cursor -/

variable {cursor later : List Entry} {position : Nat}

theorem payload_cons :
    payload tree plan (file :: later) =
      bytes tree plan file ++ payload tree plan later :=
  List.flatMap_cons

/-- The files from the cursor on hold what is left of the payload. -/
def Stands (tree : FileTree) (plan : Plan) (cursor : List Entry)
    (position : Nat) : Prop :=
  ∃ base, Contiguous base cursor ∧ base ≤ position ∧
    extent base cursor = plan.totalLength ∧
      (∀ file ∈ cursor, Intact tree plan file) ∧
        (payload tree plan cursor).drop (position - base) =
          (payload tree plan plan.entries).drop position

namespace Stands

theorem skip (stands : Stands tree plan (file :: later) position)
    (behind : file.endOffset ≤ position) :
    Stands tree plan later position := by
  obtain ⟨base, ⟨start, contiguous⟩, low, total, intact, same⟩ := stands
  obtain ⟨here, others⟩ := List.forall_mem_cons.mp intact
  have length := bytes_length here
  have ends : file.endOffset = base + file.length := by
    rw [Entry.endOffset, start]
  refine ⟨file.endOffset, contiguous, behind, ?_, others, ?_⟩
  · rw [ends]
    exact total
  · have passed : (bytes tree plan file).drop (position - base) = [] :=
      List.drop_eq_nil_of_le (by omega)
    rw [← same, payload_cons, List.drop_append, passed, List.nil_append]
    congr 1
    omega

theorem skipped (stands : Stands tree plan cursor position) :
    Stands tree plan
      (cursor.dropWhile fun entry => entry.endOffset ≤ position) position := by
  induction cursor with
  | nil => exact stands
  | cons file later induction =>
      rw [List.dropWhile_cons]
      split
      · next behind => exact induction (stands.skip (of_decide_eq_true behind))
      · exact stands

theorem advance {further : Nat} (stands : Stands tree plan cursor position)
    (ahead : position ≤ further) : Stands tree plan cursor further := by
  obtain ⟨base, contiguous, low, total, intact, same⟩ := stands
  refine ⟨base, contiguous, Nat.le_trans low ahead, total, intact, ?_⟩
  obtain ⟨more, rfl⟩ := Nat.exists_eq_add_of_le ahead
  rw [← List.drop_drop, ← same, List.drop_drop]
  congr 1
  omega

/-- A cursor behind the last file stands behind the payload. -/
theorem nonempty (stands : Stands tree plan [] position) :
    plan.totalLength ≤ position := by
  obtain ⟨base, -, low, total, -⟩ := stands
  exact total ▸ low

/-- What the file at the cursor holds of the payload. -/
theorem head {length : Nat} (stands : Stands tree plan (file :: later) position)
    (inside : position + length ≤ file.endOffset) :
    Intact tree plan file ∧ file.offset ≤ position ∧
      ((bytes tree plan file).drop (position - file.offset)).take length =
        ((payload tree plan plan.entries).drop position).take length := by
  obtain ⟨base, ⟨start, contiguous⟩, low, total, intact, same⟩ := stands
  obtain ⟨here, others⟩ := List.forall_mem_cons.mp intact
  have whole := bytes_length here
  refine ⟨here, start ▸ low, ?_⟩
  have ends : file.endOffset = base + file.length := by
    rw [Entry.endOffset, start]
  rw [← same, payload_cons, start, List.drop_append_of_le_length (by omega),
    List.take_append_of_le_length (by rw [List.length_drop]; omega)]

end Stands

/-! ## Hashing a piece -/

/-- The payload from one position up to another one. -/
def between (tree : FileTree) (plan : Plan) (position endOffset : Nat) :
    List (Option UInt8) :=
  ((payload tree plan plan.entries).drop position).take (endOffset - position)

theorem between_self : between tree plan position position = [] := by
  rw [between, Nat.sub_self, List.take_zero]

theorem between_append {middle endOffset : Nat} (first : position ≤ middle)
    (second : middle ≤ endOffset) :
    between tree plan position endOffset =
      between tree plan position middle ++
        between tree plan middle endOffset := by
  obtain ⟨some, rfl⟩ := Nat.exists_eq_add_of_le first
  unfold between
  rw [← List.drop_drop, Nat.add_sub_cancel_left, ← List.take_add]
  congr 1
  omega

/-- The rest of a piece is hashed, and the cursor is left behind it. -/
theorem hashLoop_hashes {endOffset : Nat} {hash : Hashing}
    (most : endOffset ≤ plan.totalLength)
    (stands : Stands tree plan cursor position) (ahead : position ≤ endOffset) :
    ∃ further missing, hashLoop tree plan endOffset cursor position hash =
        .ok (further, {
          bytes := hash.bytes ++
            (between tree plan position endOffset).reduceOption
          valid := hash.valid &&
            (between tree plan position endOffset).all Option.isSome
          result := { hash.result with missingFiles := missing }
        }) ∧ (missing = hash.result.missingFiles ∨
          (between tree plan position endOffset).all Option.isSome = false) ∧
            Stands tree plan further endOffset := by
  fun_induction hashLoop tree plan endOffset cursor position hash with
  | case1 position hash before =>
      have behind := stands.nonempty
      omega
  | case2 position hash before file later behind induction =>
      exact induction (stands.skip behind) ahead
  | case3 position hash before file later inside length induction =>
      have within : position + length ≤ file.endOffset := by omega
      obtain ⟨intact, low, part⟩ := stands.head within
      have ends : file.endOffset = file.offset + file.length := rfl
      obtain ⟨missing, step, lost⟩ := @read_adds tree plan file
        (position - file.offset) length hash intact (by omega) (by omega)
      have first : ((bytes tree plan file).drop
          (position - file.offset)).take length =
            between tree plan position (position + length) := by
        rw [part, between, Nat.add_sub_cancel_left]
      have whole := @between_append tree plan position (position + length)
        endOffset (Nat.le_add_right _ _) (by omega)
      rw [first] at step lost
      obtain ⟨further, others, rest, more, after⟩ := induction _
        (stands.advance (Nat.le_add_right _ _)) (by omega)
      rw [step]
      refine ⟨further, others, rest.trans ?_, ?_, after⟩
      · rw [whole, List.reduceOption_append, List.all_append,
          ← List.append_assoc, ← Bool.and_assoc]
      · rw [whole, List.all_append, Bool.and_eq_false_iff]
        rcases more with same | unknown
        · exact (lost.imp_left same.trans).imp_right Or.inl
        · exact Or.inr (Or.inr unknown)
  | case4 cursor position hash done =>
      obtain rfl : position = endOffset := by omega
      refine ⟨cursor, hash.result.missingFiles, ?_, Or.inl rfl, stands⟩
      rw [between_self, List.reduceOption_nil, List.append_nil, List.all_nil,
        Bool.and_true]
      rfl

/-! ## The pieces -/

variable {run : Run} {pieces : List Nat} {piece : Nat}

/-- The part of the payload that is a piece. -/
def pieceBytes (tree : FileTree) (plan : Plan) (piece : Nat) :
    List (Option UInt8) :=
  between tree plan (piece * plan.pieceLength)
    (min ((piece + 1) * plan.pieceLength) plan.totalLength)

/-- All of the piece is there, and its digest is the one in the table. -/
def soundPiece (tree : FileTree) (plan : Plan) (piece : Nat) : Bool :=
  (pieceBytes tree plan piece).all Option.isSome &&
    plan.pieces[piece]? ==
      some (tree.sha1 (pieceBytes tree plan piece).reduceOption)

/-- What is known once some pieces are checked. -/
structure Checked (tree : FileTree) (plan : Plan) (run : Run)
    (pieces : List Nat) : Prop where
  hashed : run.hashed =
    pieces.map fun piece => (piece, (pieceBytes tree plan piece).reduceOption)
  checkedPieces : run.result.checkedPieces = pieces.length
  validPieces : run.result.validPieces = pieces.countP (soundPiece tree plan)
  totalPieces : run.result.totalPieces = (numbers plan.ranges).length
  invalidFiles : run.result.invalidFiles = []
  missingFiles : run.result.missingFiles = [] ∨
    ∃ piece ∈ pieces, soundPiece tree plan piece = false

/-- What a piece adds to a run. -/
def Run.add (tree : FileTree) (plan : Plan) (run : Run) (piece : Nat)
    (missing : List String) : Run where
  result := {
    run.result with
    checkedPieces := run.result.checkedPieces + 1
    validPieces := run.result.validPieces + (soundPiece tree plan piece).toNat
    missingFiles := missing
  }
  hashed :=
    run.hashed ++ [(piece, (pieceBytes tree plan piece).reduceOption)]

theorem Checked.add {missing : List String}
    (checked : Checked tree plan run pieces)
    (lost : missing = run.result.missingFiles ∨
      soundPiece tree plan piece = false) :
    Checked tree plan (run.add tree plan piece missing)
      (pieces ++ [piece]) where
  hashed := by
    rw [List.map_append, ← checked.hashed]
    rfl
  checkedPieces := by
    rw [List.length_append, ← checked.checkedPieces]
    rfl
  validPieces := by
    rw [List.countP_append, ← checked.validPieces, List.countP_singleton]
    cases sound : soundPiece tree plan piece <;> simp [Run.add, sound]
  totalPieces := checked.totalPieces
  invalidFiles := checked.invalidFiles
  missingFiles := by
    rcases lost with same | unsound
    · rcases checked.missingFiles with empty | found
      · exact Or.inl (same.trans empty)
      · obtain ⟨other, member, unsound⟩ := found
        exact Or.inr ⟨other, List.mem_append_left _ member, unsound⟩
    · exact Or.inr ⟨piece, List.mem_append_right _ List.mem_cons_self, unsound⟩

theorem checkPiece_checks (checked : Checked tree plan run pieces)
    (inside : piece * plan.pieceLength < plan.totalLength)
    (stands : Stands tree plan cursor (piece * plan.pieceLength)) :
    ∃ further next, checkPiece tree plan (cursor, run) piece =
        .ok (further, next) ∧ Checked tree plan next (pieces ++ [piece]) ∧
          Stands tree plan further
            (min ((piece + 1) * plan.pieceLength) plan.totalLength) := by
  have step : (piece + 1) * plan.pieceLength =
      piece * plan.pieceLength + plan.pieceLength := Nat.succ_mul _ _
  obtain ⟨further, missing, hashes, lost, after⟩ :=
    @hashLoop_hashes tree plan cursor (piece * plan.pieceLength) _
      ⟨[], true, run.result⟩ (Nat.min_le_right _ _) stands
        (show _ ≤ min ((piece + 1) * plan.pieceLength) _ by omega)
  refine ⟨further, run.add tree plan piece missing, ?_, checked.add ?_, after⟩
  · rw [checkPiece, ← step, hashes]
    rfl
  · apply lost.imp_right
    intro unknown
    rw [soundPiece, pieceBytes, unknown, Bool.false_and]

/-- A range is checked piece by piece. -/
theorem checkPieces_checks {count : Nat} :
    ∀ {cursor run pieces start}, Checked tree plan run pieces →
      (0 < count →
        (start + count - 1) * plan.pieceLength < plan.totalLength ∧
          Stands tree plan cursor (start * plan.pieceLength)) →
      ∃ further next, (List.range' start count).foldlM
          (checkPiece tree plan) (cursor, run) = .ok (further, next) ∧
        Checked tree plan next (pieces ++ List.range' start count) := by
  induction count with
  | zero =>
      intro cursor run pieces start checked _
      refine ⟨cursor, run, rfl, ?_⟩
      rw [List.range'_zero, List.append_nil]
      exact checked
  | succ count induction =>
      intro cursor run pieces start checked inside
      obtain ⟨bound, stands⟩ := inside (Nat.succ_pos _)
      have here : start * plan.pieceLength < plan.totalLength := by
        apply Nat.lt_of_le_of_lt _ bound
        exact Nat.mul_le_mul_right _ (by omega)
      obtain ⟨cursor, middle, step, more, after⟩ :=
        checkPiece_checks checked here stands
      have later : 0 < count →
          (start + 1 + count - 1) * plan.pieceLength < plan.totalLength ∧
            Stands tree plan cursor ((start + 1) * plan.pieceLength) := by
        intro left
        have next : (start + 1) * plan.pieceLength ≤ plan.totalLength := by
          apply Nat.le_of_lt (Nat.lt_of_le_of_lt _ bound)
          exact Nat.mul_le_mul_right _ (by omega)
        rw [Nat.min_eq_left next] at after
        rw [show start + 1 + count - 1 = start + (count + 1) - 1 by omega]
        exact ⟨bound, after⟩
      obtain ⟨further, next, steps, all⟩ := induction more later
      refine ⟨further, next, ?_, ?_⟩
      · rw [List.range'_succ, List.foldlM_cons, step]
        exact steps
      · rw [List.range'_succ, ← List.singleton_append, ← List.append_assoc]
        exact all

theorem checkRange_checks {range : Nat × Nat} (sound : plan.Sound)
    (intact : ∀ file ∈ plan.entries, Intact tree plan file)
    (bound : range.2 * plan.pieceLength < plan.totalLength)
    (order : range.1 ≤ range.2) (checked : Checked tree plan run pieces) :
    ∃ next, checkRange tree plan run range = .ok next ∧
      Checked tree plan next
        (pieces ++ List.range' range.1 (range.2 + 1 - range.1)) := by
  have stands : Stands tree plan plan.entries (range.1 * plan.pieceLength) :=
    ⟨0, sound.contiguous, Nat.zero_le _, sound.extent, intact, rfl⟩
  obtain ⟨further, next, steps, all⟩ := checkPieces_checks checked
    fun _ => ⟨by
      rw [show range.1 + (range.2 + 1 - range.1) - 1 = range.2 by omega]
      exact bound, stands.skipped⟩
  refine ⟨next, ?_, all⟩
  rw [checkRange, steps]
  rfl

theorem checkRanges_checks {ranges : List (Nat × Nat)} (sound : plan.Sound)
    (intact : ∀ file ∈ plan.entries, Intact tree plan file)
    (bound : ∀ range ∈ ranges, range.1 ≤ range.2 ∧
      range.2 * plan.pieceLength < plan.totalLength) :
    ∀ {run pieces}, Checked tree plan run pieces →
      ∃ next, ranges.foldlM (checkRange tree plan) run = .ok next ∧
        Checked tree plan next (pieces ++ numbers ranges) := by
  induction ranges with
  | nil =>
      intro run pieces checked
      refine ⟨run, rfl, ?_⟩
      rw [numbers, List.flatMap_nil, List.append_nil]
      exact checked
  | cons first rest induction =>
      intro run pieces checked
      obtain ⟨here, others⟩ := List.forall_mem_cons.mp bound
      obtain ⟨middle, step, more⟩ :=
        checkRange_checks sound intact here.2 here.1 checked
      obtain ⟨next, steps, all⟩ := induction others more
      refine ⟨next, ?_, ?_⟩
      · rw [List.foldlM_cons, step]
        exact steps
      · rw [numbers, List.flatMap_cons, ← List.append_assoc]
        exact all

/-! ## The whole check -/

/-- The pieces that a selected file lies in. -/
def Wanted (plan : Plan) (piece : Nat) : Prop :=
  ∃ entry ∈ plan.entries.zipIdx,
    Covers plan.pieceLength plan.selected entry piece

theorem clean_iff :
    (!result.missingFiles.isEmpty || !result.invalidFiles.isEmpty) = false ↔
      Clean result := by
  simp [Clean]

/-- Not a byte is hashed unless all files are as declared. -/
theorem verifyPlan_unsettled
    (readable : ∀ entry ∈ plan.entries.zipIdx, Readable tree plan entry.1)
    (unsettled : ¬ ∀ entry ∈ plan.entries.zipIdx, Settled tree plan entry) :
    ∃ run, verifyPlan tree plan = .ok run ∧ run.hashed = [] ∧
      run.result.checkedPieces = 0 ∧ run.result.complete = false := by
  obtain ⟨next, step, unclean, count, complete⟩ :=
    @inspectAll_unsettled tree plan (initialResult plan) _ readable unsettled
  refine ⟨⟨next, []⟩, ?_, rfl, count, complete⟩
  have left := mt clean_iff.mp unclean
  rw [Bool.not_eq_false] at left
  exact bind_eq_ok.mpr ⟨next, step, if_pos left⟩

theorem verifyPlan_settled (sound : plan.Sound)
    (readable : ∀ entry ∈ plan.entries.zipIdx, Readable tree plan entry.1)
    (settled : ∀ entry ∈ plan.entries.zipIdx, Settled tree plan entry) :
    ∃ run, verifyPlan tree plan = .ok run ∧
      run.hashed = (numbers plan.ranges).map (fun piece =>
        (piece, (pieceBytes tree plan piece).reduceOption)) ∧
      run.result.checkedPieces = (numbers plan.ranges).length ∧
      run.result.totalPieces = (numbers plan.ranges).length ∧
      (run.result.complete = true ↔
        ∀ piece ∈ numbers plan.ranges, soundPiece tree plan piece = true) := by
  have intact : ∀ file ∈ plan.entries, Intact tree plan file := by
    intro file member
    obtain ⟨index, inside⟩ := List.mem_iff_getElem?.mp member
    have entry := List.mk_mem_zipIdx_iff_getElem?.mpr inside
    exact ⟨readable _ entry, (settled _ entry).2⟩
  have look : ∀ result, inspectLayout tree plan result = .ok result :=
    fun _ => inspectAll_settled readable settled
  have start : Checked tree plan ⟨initialResult plan, []⟩ [] :=
    ⟨rfl, rfl, rfl, numbers_length.symm, rfl, Or.inl rfl⟩
  obtain ⟨run, checks, checked⟩ := checkRanges_checks sound intact
    (fun range member =>
      ⟨sound.ordered.filled range member, sound.bound range member⟩) start
  rw [List.nil_append] at checked
  refine ⟨{ run with result := withVerdict run.result }, ?_, checked.hashed,
    checked.checkedPieces, checked.totalPieces, ?_⟩
  · apply bind_eq_ok.mpr ⟨initialResult plan, look _, _⟩
    apply (if_neg (by simp [initialResult])).trans
    apply bind_eq_ok.mpr ⟨run, checks, _⟩
    exact bind_eq_ok.mpr ⟨run.result, look _, rfl⟩
  · simp only [withVerdict, Bool.and_eq_true, beq_iff_eq, List.isEmpty_iff,
      checked.invalidFiles, checked.validPieces, checked.totalPieces,
      and_true, List.countP_eq_length]
    constructor
    · exact And.left
    · intro all
      refine ⟨all, checked.missingFiles.elim id ?_⟩
      intro found
      obtain ⟨piece, member, unsound⟩ := found
      rw [all piece member] at unsound
      contradiction

end Files

/-- The check of an accepted torrent against files that do not change.  The
wanted pieces are hashed only when every selected file is there and none is of
another length than declared. -/
theorem verifyBtFiles_checks {tree : FileTree} {input : VerifyBtFilesInput}
    {plan : Plan} (accepted : prepare tree input = .ok plan) :
    (plan.entries.map Entry.toTorrentFile = input.torrent.files ∧
      selection input = .ok plan.selected ∧
        pieceTable input.torrent =
          .ok (plan.pieceLength, plan.totalLength, plan.pieces)) ∧
    ((¬ ∀ entry ∈ plan.entries.zipIdx, Readable tree plan entry.1) →
      ∃ error, verifyBtFiles tree input = .error error) ∧
    ((∀ entry ∈ plan.entries.zipIdx, Readable tree plan entry.1) →
      ∃ run, verifyBtFiles tree input = .ok run ∧
        ((∀ entry ∈ plan.entries.zipIdx, Settled tree plan entry) →
          ∃ pieces : List Nat, pieces.Pairwise (· < ·) ∧
            (∀ piece, piece ∈ pieces ↔ Wanted plan piece) ∧
              run.hashed = pieces.map (fun piece =>
                (piece, (pieceBytes tree plan piece).reduceOption)) ∧
              run.result.checkedPieces = pieces.length ∧
                run.result.totalPieces = pieces.length) ∧
        ((¬ ∀ entry ∈ plan.entries.zipIdx, Settled tree plan entry) →
          run.hashed = [] ∧ run.result.checkedPieces = 0) ∧
        (run.result.complete = true ↔
          (∀ entry ∈ plan.entries.zipIdx, Settled tree plan entry) ∧
            ∀ piece, Wanted plan piece →
              soundPiece tree plan piece = true)) := by
  obtain ⟨sound, same⟩ := prepare_sound accepted
  have whole : verifyBtFiles tree input = verifyPlan tree plan := by
    rw [verifyBtFiles, accepted]
    rfl
  rw [whole]
  refine ⟨same, ?_, ?_⟩
  · intro unreadable
    obtain ⟨error, refused⟩ := inspectAll_refuses unreadable (initialResult plan)
    refine ⟨error, ?_⟩
    rw [verifyPlan, inspectLayout, refused]
    rfl
  · intro readable
    by_cases settled : ∀ entry ∈ plan.entries.zipIdx, Settled tree plan entry
    · obtain ⟨run, done, hashed, checked, total, complete⟩ :=
        verifyPlan_settled sound readable settled
      refine ⟨run, done, fun _ => ⟨numbers plan.ranges, sound.ordered.numbers,
        sound.covers, hashed, checked, total⟩, absurd settled, ?_⟩
      rw [complete]
      constructor
      · intro all
        refine ⟨settled, fun piece wanted => ?_⟩
        exact all piece ((sound.covers piece).mpr wanted)
      · intro all piece member
        exact all.2 piece ((sound.covers piece).mp member)
    · obtain ⟨run, done, hashed, checked, incomplete⟩ :=
        verifyPlan_unsettled readable settled
      refine ⟨run, done, fun sound => absurd sound settled,
        fun _ => ⟨hashed, checked⟩, ?_⟩
      rw [incomplete]
      constructor
      · intro complete
        contradiction
      · intro all
        exact absurd all.1 settled

/-! ## A file of one byte -/

def oneByteTree (found : Except String Stat) : FileTree where
  lstat _ := found
  realpath path := .ok path
  isAbsolute _ := true
  resolve path := path
  dirname path := path
  basename path := path
  join _ path := path
  fold path := path
  sha1 content := toString content.length
  offered _ := 1

def oneByteInput : VerifyBtFilesInput where
  torrent := {
    multiFile := false
    files := [⟨"f", 1, 0, false, none⟩]
    pieceLength := some 1
    length := some 1
    pieces := some ["1"]
  }
  payloadPath := "f"
  selectedFiles := none

def oneBytePlan : Plan where
  multiFile := false
  payload := "f"
  selected := [0]
  entries := [⟨⟨"f", 1, 0, false, none⟩, "f"⟩]
  ranges := [(0, 0)]
  pieceLength := 1
  totalLength := 1
  pieces := ["1"]

theorem oneByte_accepted (found : Except String Stat) :
    prepare (oneByteTree found) oneByteInput = .ok oneBytePlan := rfl

theorem verifyBtFiles_checks_oneByte :
    ∃ run, verifyBtFiles (oneByteTree (.ok (.file [7]))) oneByteInput =
      .ok run ∧ run.result.complete = true := by
  obtain ⟨-, -, checks⟩ :=
    verifyBtFiles_checks (oneByte_accepted (.ok (.file [7])))
  have found : inspect (oneByteTree (.ok (.file [7]))) oneBytePlan
      ⟨⟨"f", 1, 0, false, none⟩, "f"⟩ = .ok [7] := rfl
  have only : ∀ entry ∈ oneBytePlan.entries.zipIdx,
      entry = (⟨⟨"f", 1, 0, false, none⟩, "f"⟩, 0) :=
    fun _ member => List.mem_singleton.mp member
  have readable : ∀ entry ∈ oneBytePlan.entries.zipIdx,
      Readable (oneByteTree (.ok (.file [7]))) oneBytePlan entry.1 := by
    intro entry member error failed
    rw [only entry member] at failed
    cases found.symm.trans failed
  obtain ⟨run, done, -, -, complete⟩ := checks readable
  refine ⟨run, done, complete.mpr ⟨?_, ?_⟩⟩
  · intro entry member
    rw [only entry member]
    refine ⟨fun _ => ⟨[7], found⟩, ?_⟩
    intro content again
    cases found.symm.trans again
    rfl
  · intro piece wanted
    obtain ⟨entry, member, -, -, -, inside⟩ := wanted
    rw [only entry member] at inside
    have first : piece * 1 < 1 := inside
    obtain rfl : piece = 0 := by omega
    rfl

/-- A file that is not there keeps its pieces from being checked. -/
theorem missingFile_unchecked :
    ¬ ∀ tree input plan, prepare tree input = .ok plan →
      ∃ run, verifyBtFiles tree input = .ok run ∧
        ∀ piece, piece ∈ run.hashed.map Prod.fst ↔ Wanted plan piece := by
  intro claimed
  obtain ⟨run, done, all⟩ := claimed (oneByteTree (.error "ENOENT"))
    oneByteInput oneBytePlan (oneByte_accepted _)
  have unchecked : verifyBtFiles (oneByteTree (.error "ENOENT")) oneByteInput =
      .ok ⟨⟨false, 0, 1, 0, ["f"], []⟩, []⟩ := rfl
  cases unchecked.symm.trans done
  have wanted : Wanted oneBytePlan 0 :=
    ⟨_, List.mem_cons_self, by decide, by decide, by decide, by decide⟩
  have member := (all 0).mpr wanted
  contradiction

end Motrix.BtFileVerifier
