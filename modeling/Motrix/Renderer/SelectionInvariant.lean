import Motrix.Lib.Trace
import Motrix.Renderer.SelectionStore

/-!
# Selected ids stay in the list

Every operation keeps the selections inside the present list and the focus
and the range anchor at their items, except that a marquee brings back the
ids it was told to keep, which a new list does not prune.
-/

namespace Motrix.Renderer

variable {Item Id : Type}

/-! ## Positions -/

theorem clamp_bounds {value low high : Int} (fits : low ≤ high) :
    low ≤ clamp value low high ∧ clamp value low high ≤ high := by
  unfold clamp
  omega

theorem lastWhere_some {test : Id → Bool} {ids : List Id} {place : Nat}
    (found : lastWhere test ids = some place) :
    ∃ id, ids[place]? = some id ∧ test id = true := by
  induction ids generalizing place with
  | nil => cases found
  | cons first rest induction =>
      simp only [lastWhere] at found
      split at found
      · next later inRest =>
          cases found
          obtain ⟨id, there, meets⟩ := induction inRest
          exact ⟨id, by simpa using there, meets⟩
      · split at found
        · next meets =>
            cases found
            exact ⟨first, rfl, meets⟩
        · cases found

theorem lastWhere_none {test : Id → Bool} {ids : List Id}
    (missing : lastWhere test ids = none) :
    ∀ id ∈ ids, test id = false := by
  induction ids with
  | nil => simp
  | cons first rest induction =>
      simp only [lastWhere] at missing
      split at missing
      · cases missing
      · next inRest =>
          split at missing
          · cases missing
          · next fails =>
              simpa [fails] using induction inRest

theorem itemAt_some {ids : List Id} {index : Int} {id : Id}
    (found : itemAt ids index = some id) :
    ∃ place : Nat, index = place ∧ ids[place]? = some id := by
  unfold itemAt at found
  split at found
  · cases found
  · next nonneg => exact ⟨index.toNat, by omega, found⟩

theorem itemAt_mem {ids : List Id} {index : Int} {id : Id}
    (found : itemAt ids index = some id) : id ∈ ids := by
  obtain ⟨place, -, there⟩ := itemAt_some found
  exact List.mem_of_getElem? there

/-! ## Anchors -/

/-- An index that is a position of the list, and that of the anchor's id as
long as the list has it. -/
structure Anchored (ids : List Id) (anchor : Option Id)
    (index : Option Int) : Prop where
  valid : ∀ position ∈ index, 0 ≤ position ∧ position < ids.length
  follows : ∀ id ∈ anchor, ∀ place : Nat, ids[place]? = some id →
    index = some (place : Int)

namespace Anchored

variable {ids : List Id}

theorem none : Anchored ids none none where
  valid position member := by cases member
  follows id member := by cases member

theorem loose {index : Int} (low : 0 ≤ index) (high : index < ids.length) :
    Anchored ids Option.none (some index) where
  valid position member := by
    cases member
    exact ⟨low, high⟩
  follows id member := by cases member

theorem at' (distinct : ids.Nodup) {place : Nat} {id : Id}
    (there : ids[place]? = some id) :
    Anchored ids (some id) (some (place : Int)) where
  valid position member := by
    cases member
    have inside := (List.getElem?_eq_some_iff.mp there).1
    omega
  follows id' member place' there' := by
    cases member
    have inside := (List.getElem?_eq_some_iff.mp there).1
    have same := (List.getElem?_inj inside distinct).mp
      (there.trans there'.symm)
    rw [same]

theorem itemAt (distinct : ids.Nodup) {index : Int} {id : Id}
    (there : itemAt ids index = some id) :
    Anchored ids (some id) (some index) := by
  obtain ⟨place, rfl, found⟩ := itemAt_some there
  exact at' distinct found

end Anchored

variable [DecidableEq Id]

theorem indexById_some {ids : List Id} {id : Id} {place : Nat}
    (found : indexById ids id = some place) : ids[place]? = some id := by
  obtain ⟨id', there, same⟩ := lastWhere_some found
  rw [there, eq_of_beq same]

namespace Anchored

variable {ids : List Id}

theorem reanchor (distinct : ids.Nodup) (anchor : Option Id) :
    Anchored ids (reanchor ids anchor).1 (reanchor ids anchor).2 := by
  unfold Renderer.reanchor
  split
  · split
    · next found => exact at' distinct (indexById_some found)
    · exact none
  · exact none

theorem refocus (distinct : ids.Nodup) (anchor : Option Id)
    (index : Option Int) :
    Anchored ids (refocus ids anchor index).1 (refocus ids anchor index).2 := by
  unfold Renderer.refocus
  split
  · next filled =>
      have kept : Anchored ids Option.none
          (index.map (clamp · 0 (ids.length - 1))) := by
        cases index with
        | none => exact none
        | some position =>
            have bounds := @clamp_bounds position 0 (ids.length - 1) (by omega)
            exact loose bounds.1 (Int.lt_of_le_sub_one bounds.2)
      dsimp only
      split
      · split
        · next found => exact at' distinct (indexById_some found)
        · exact kept
      · exact kept
  · exact none

end Anchored

theorem between_subset (ids : List Id) (start last : Int) :
    between ids start last ⊆ ids.toFinset := by
  intro id member
  simp only [between, List.mem_toFinset, List.mem_map,
    List.mem_filter] at member
  obtain ⟨entry, ⟨inside, -⟩, rfl⟩ := member
  rw [List.mem_toFinset]
  exact List.fst_mem_of_mem_zipIdx inside

namespace SelectionStore

/-! ## What a view relies on -/

structure Faithful (store : SelectionStore Item Id) (getId : Item → Id) :
    Prop where
  selected : store.selectedIds ⊆ (store.ids getId).toFinset
  committed : store.committedSelectedIds ⊆ (store.ids getId).toFinset
  focus : Anchored (store.ids getId) store.focusedId store.focusedIndex
  range : Anchored (store.ids getId) store.lastActionId store.lastActionIndex

/-- What the callers of the store promise. -/
def Admitted (getId : Item → Id) (store : SelectionStore Item Id) :
    Operation Item Id → Prop
  | .select id | .toggle id => id ∈ store.ids getId
  | .setItems newItems _ => (newItems.map getId).Nodup
  | .preserve ids => ids ⊆ (store.ids getId).toFinset
  | _ => True

instance (getId : Item → Id) (store : SelectionStore Item Id) :
    (operation : Operation Item Id) →
      Decidable (Admitted getId store operation)
  | .select id | .toggle id =>
      inferInstanceAs (Decidable (id ∈ store.ids getId))
  | .setItems newItems _ =>
      inferInstanceAs (Decidable (newItems.map getId).Nodup)
  | .preserve ids =>
      inferInstanceAs (Decidable (ids ⊆ (store.ids getId).toFinset))
  | .rangeSelect _ | .selectAll | .clearSelection | .marqueeSelect _ _
  | .marqueeEnd | .moveFocus _ | .focus _ | .extendSelection _
  | .moveSelection _ _ | .focusedSelect | .shiftMoveFocus _ =>
      inferInstanceAs (Decidable True)

/-- A marquee that is not where it was keeps ids of the present list only. -/
def KeepsPresent (getId : Item → Id) (store : SelectionStore Item Id) :
    Operation Item Id → Prop
  | .marqueeSelect startIndex endIndex =>
      store.lastMarqueeRange ≠ some (store.marqueeRange startIndex endIndex) →
        store.preservedIds ⊆ (store.ids getId).toFinset
  | _ => True

structure Sound (getId : Item → Id) (store : SelectionStore Item Id) :
    Prop where
  distinct : (store.ids getId).Nodup
  faithful : store.Faithful getId

theorem empty_sound (getId : Item → Id) :
    (empty : SelectionStore Item Id).Sound getId where
  distinct := List.nodup_nil
  faithful := {
    selected := Finset.empty_subset _
    committed := Finset.empty_subset _
    focus := Anchored.none
    range := Anchored.none
  }

namespace Sound

variable {getId : Item → Id} {store : SelectionStore Item Id}

theorem reset (sound : store.Sound getId) :
    store.resetMarqueeRange.Sound getId :=
  ⟨sound.distinct, ⟨sound.faithful.selected, sound.faithful.committed,
    sound.faithful.focus, sound.faithful.range⟩⟩

theorem commit (sound : store.Sound getId) {selected : Finset Id}
    (inside : selected ⊆ (store.ids getId).toFinset) :
    (store.commit selected).Sound getId :=
  ⟨sound.distinct, ⟨inside, inside, sound.faithful.focus,
    sound.faithful.range⟩⟩

theorem setFocus (sound : store.Sound getId) {id : Option Id}
    {index : Option Int} (anchored : Anchored (store.ids getId) id index) :
    { store with
      focusedId := id
      focusedIndex := index }.Sound getId :=
  ⟨sound.distinct, ⟨sound.faithful.selected, sound.faithful.committed,
    anchored, sound.faithful.range⟩⟩

theorem setRange (sound : store.Sound getId) {id : Option Id}
    {index : Option Int} (anchored : Anchored (store.ids getId) id index) :
    { store with
      lastActionId := id
      lastActionIndex := index }.Sound getId :=
  ⟨sound.distinct, ⟨sound.faithful.selected, sound.faithful.committed,
    sound.faithful.focus, anchored⟩⟩

theorem select (sound : store.Sound getId) {id : Id}
    (member : id ∈ store.ids getId) : (store.select getId id).Sound getId := by
  have committed : (store.resetMarqueeRange.commit {id}).Sound getId := by
    apply sound.reset.commit
    exact Finset.singleton_subset_iff.mpr (List.mem_toFinset.mpr member)
  unfold SelectionStore.select
  dsimp only
  split
  · next found =>
      have anchored := Anchored.at' sound.distinct (indexById_some found)
      exact (committed.setFocus anchored).setRange anchored
  · exact committed

theorem toggle (sound : store.Sound getId) {id : Id}
    (member : id ∈ store.ids getId) : (store.toggle getId id).Sound getId := by
  unfold SelectionStore.toggle
  dsimp only
  generalize following : (if id ∈ store.selectedIds then
    store.selectedIds.erase id else insert id store.selectedIds) = next
  have committed : (store.resetMarqueeRange.commit next).Sound getId := by
    apply sound.reset.commit
    rw [← following]
    split
    · exact (Finset.erase_subset _ _).trans sound.faithful.selected
    · exact Finset.insert_subset (List.mem_toFinset.mpr member)
        sound.faithful.selected
  split
  · next found =>
      exact committed.setRange
        (Anchored.at' sound.distinct (indexById_some found))
  · exact committed

theorem rangeSelect (sound : store.Sound getId) (toIndex : Int) :
    (store.rangeSelect getId toIndex).Sound getId := by
  apply sound.reset.commit
  exact between_subset _ _ _

theorem focus (sound : store.Sound getId) (id : Id) :
    (store.focus getId id).Sound getId := by
  unfold SelectionStore.focus
  split
  · exact sound
  · next found =>
      exact sound.setFocus (Anchored.at' sound.distinct (indexById_some found))

theorem clearSelection (sound : store.Sound getId) :
    store.clearSelection.Sound getId := by
  unfold SelectionStore.clearSelection
  dsimp only
  split
  · exact sound.reset
  · exact (sound.reset.commit (Finset.empty_subset _)).setRange Anchored.none

theorem setItems (sound : store.Sound getId) {newItems : List Item}
    (distinct : (newItems.map getId).Nodup) (sameReference : Bool) :
    (store.setItems getId newItems sameReference).Sound getId := by
  have pruned : ∀ selected : Finset Id,
      selected.filter (· ∈ newItems.map getId) ⊆
        (newItems.map getId).toFinset := by
    intro selected id member
    exact List.mem_toFinset.mpr (Finset.mem_filter.mp member).2
  unfold SelectionStore.setItems
  split
  · exact sound
  · exact ⟨distinct, ⟨pruned _, pruned _, Anchored.refocus distinct _ _,
      Anchored.reanchor distinct _⟩⟩

theorem marqueeSelect (sound : store.Sound getId) {startIndex endIndex : Int}
    (keeps : KeepsPresent getId store (.marqueeSelect startIndex endIndex)) :
    (store.marqueeSelect getId startIndex endIndex).Sound getId := by
  unfold SelectionStore.marqueeSelect
  dsimp only
  split
  · exact sound
  · next elsewhere =>
      refine ⟨sound.distinct, ⟨?_, sound.faithful.committed,
        sound.faithful.focus, sound.faithful.range⟩⟩
      exact Finset.union_subset (keeps elsewhere) (between_subset _ _ _)

theorem marqueeEnd (sound : store.Sound getId) :
    (store.marqueeEnd getId).Sound getId := by
  have anchored : Anchored (store.ids getId)
      (store.marqueeEnd getId).lastActionId
      (store.marqueeEnd getId).lastActionIndex := by
    unfold SelectionStore.marqueeEnd
    dsimp only
    split
    · exact Anchored.none
    · next some' =>
        cases found : lastWhere (· ∈ store.selectedIds) (store.ids getId) with
        | none =>
            obtain ⟨id, member⟩ := Finset.nonempty_iff_ne_empty.mpr some'
            have present := List.mem_toFinset.mp
              (sound.faithful.selected member)
            have unselected := lastWhere_none found id present
            simp [member] at unselected
        | some place =>
            obtain ⟨id, there, -⟩ := lastWhere_some found
            simp only [Option.bind_some, there, Option.getD_some]
            exact Anchored.at' sound.distinct there
  exact ⟨sound.distinct, ⟨sound.faithful.selected, sound.faithful.selected,
    sound.faithful.focus, anchored⟩⟩

theorem anchorRange (sound : store.Sound getId) {target : Int}
    {anchored : SelectionStore Item Id}
    (done : store.anchorRange getId target = some anchored) :
    anchored.Sound getId := by
  unfold SelectionStore.anchorRange at done
  split at done
  · cases done
    exact sound
  · obtain ⟨id, found, rfl⟩ := Option.map_eq_some_iff.mp done
    exact sound.setRange (Anchored.itemAt sound.distinct found)

theorem extendSelection (sound : store.Sound getId) (toIndex : Int) :
    (store.extendSelection getId toIndex).Sound getId := by
  unfold SelectionStore.extendSelection
  dsimp only
  split
  · next anchored done =>
      exact ((sound.anchorRange done).rangeSelect _).focus _
  · exact sound

theorem moveFocus (sound : store.Sound getId) (delta : Int) :
    (store.moveFocus getId delta).Sound getId := by
  unfold SelectionStore.moveFocus
  split
  · exact sound
  · next found =>
      exact sound.setFocus (Anchored.itemAt sound.distinct found)

theorem moveSelection (sound : store.Sound getId) (delta : Int)
    (extend : Bool) :
    (store.moveSelection getId delta extend).Sound getId := by
  unfold SelectionStore.moveSelection
  dsimp only
  split
  · exact sound
  · next found =>
      split
      · exact sound.extendSelection _
      · exact sound.select (itemAt_mem found)

theorem focusedSelect (sound : store.Sound getId) :
    (store.focusedSelect getId).Sound getId := by
  unfold SelectionStore.focusedSelect
  dsimp only
  split
  · exact sound.reset
  · next found =>
      obtain ⟨index, -, there⟩ := Option.bind_eq_some_iff.mp found
      exact sound.reset.toggle (itemAt_mem there)

theorem shiftMoveFocus (sound : store.Sound getId) (delta : Int) :
    (store.shiftMoveFocus getId delta).Sound getId := by
  unfold SelectionStore.shiftMoveFocus
  dsimp only
  split
  · exact sound.reset
  · next id found =>
      have focused := sound.reset.setFocus
        (Anchored.itemAt sound.distinct found)
      split
      · exact focused
      · apply focused.commit
        exact Finset.insert_subset
          (List.mem_toFinset.mpr (itemAt_mem found))
          sound.faithful.selected

end Sound

/-! ## Runs -/

theorem apply_sound (getId : Item → Id) (store : SelectionStore Item Id)
    (operation : Operation Item Id) (sound : store.Sound getId)
    (rule : Admitted getId store operation ∧
      KeepsPresent getId store operation) :
    (store.apply getId operation).Sound getId := by
  obtain ⟨admitted, keeps⟩ := rule
  cases operation with
  | select id => exact sound.select admitted
  | toggle id => exact sound.toggle admitted
  | rangeSelect toIndex => exact sound.rangeSelect toIndex
  | selectAll => exact sound.reset.commit (Finset.Subset.refl _)
  | clearSelection => exact sound.clearSelection
  | setItems newItems sameReference =>
      exact sound.setItems admitted sameReference
  | preserve ids =>
      exact ⟨sound.distinct, ⟨sound.faithful.selected,
        sound.faithful.committed, sound.faithful.focus,
        sound.faithful.range⟩⟩
  | marqueeSelect startIndex endIndex => exact sound.marqueeSelect keeps
  | marqueeEnd => exact sound.marqueeEnd
  | moveFocus delta => exact sound.moveFocus delta
  | focus id => exact sound.focus id
  | extendSelection toIndex => exact sound.extendSelection toIndex
  | moveSelection delta extend => exact sound.moveSelection delta extend
  | focusedSelect => exact sound.focusedSelect
  | shiftMoveFocus delta => exact sound.shiftMoveFocus delta

/-- A marquee that reads the kept ids shows all of them. -/
theorem marqueeSelect_keeps {getId : Item → Id}
    {store : SelectionStore Item Id} {startIndex endIndex : Int}
    (faithful :
      (store.marqueeSelect getId startIndex endIndex).Faithful getId) :
    KeepsPresent getId store (.marqueeSelect startIndex endIndex) := by
  intro elsewhere
  have selected := faithful.selected
  unfold SelectionStore.marqueeSelect at selected
  rw [if_neg elsewhere] at selected
  exact Finset.subset_union_left.trans selected

theorem keepsPresent_of_faithful (getId : Item → Id)
    {store : SelectionStore Item Id} {operation : Operation Item Id}
    (faithful : (store.apply getId operation).Faithful getId) :
    KeepsPresent getId store operation := by
  cases operation with
  | marqueeSelect startIndex endIndex => exact marqueeSelect_keeps faithful
  | _ => trivial

theorem steps_keep (getId : Item → Id) {store : SelectionStore Item Id}
    {operations : List (Operation Item Id)} (sound : store.Sound getId)
    (admitted : Lib.Steps (·.apply getId) (Admitted getId) store operations)
    (faithful : ∀ before after, operations = before ++ after →
      (before.foldl (·.apply getId) store).Faithful getId) :
    Lib.Steps (·.apply getId) (KeepsPresent getId) store operations := by
  induction operations generalizing store with
  | nil => trivial
  | cons operation rest induction =>
      have keeps : KeepsPresent getId store operation :=
        keepsPresent_of_faithful getId (faithful [operation] rest rfl)
      refine ⟨keeps, induction ?_ admitted.2 ?_⟩
      · exact apply_sound getId store operation sound ⟨admitted.1, keeps⟩
      · intro before after split
        exact faithful (operation :: before) after (by rw [split]; rfl)

/-- The selections stay inside the list, and focus and range anchor at their
items, in every state of a run exactly if no marquee reads kept ids that have
left the list. -/
theorem selection_faithful_iff (getId : Item → Id)
    (operations : List (Operation Item Id))
    (admitted :
      Lib.Steps (·.apply getId) (Admitted getId) empty operations) :
    (∀ before after, operations = before ++ after →
      (before.foldl (·.apply getId) empty).Faithful getId) ↔
      Lib.Steps (·.apply getId) (KeepsPresent getId) empty operations := by
  constructor
  · exact steps_keep getId (empty_sound getId) admitted
  · rintro keeps before after rfl
    have steps := admitted.front.both keeps.front
    exact (Lib.Steps.invariant (apply_sound getId) (empty_sound getId)
      steps).faithful

/-! ## A marquee over a list that changes -/

/-- One of two selected ids is kept for a marquee and leaves the list before
the marquee moves. -/
def removedWhileDragging : List (Operation String String) :=
  [.setItems ["a", "b"] false, .toggle "a", .preserve {"a"},
    .setItems ["b"] false, .marqueeSelect 0 0, .marqueeEnd]

def movedWhileDragging : List (Operation String String) :=
  [.setItems ["a", "b", "c"] false, .toggle "a", .preserve {"a"},
    .marqueeSelect 2 1, .setItems ["b", "a"] false, .marqueeSelect 5 0,
    .marqueeEnd, .moveSelection 1 true, .shiftMoveFocus (-4)]

theorem selection_faithful_iff_moved :
    (∀ before after, movedWhileDragging = before ++ after →
      (before.foldl (·.apply id) empty).Faithful id) ↔
      Lib.Steps (·.apply id) (KeepsPresent id) empty movedWhileDragging :=
  selection_faithful_iff id movedWhileDragging (by decide)

theorem removedWhileDragging_selected :
    ¬ ∀ operations : List (Operation String String),
      Lib.Steps (·.apply id) (Admitted id) empty operations →
      (operations.foldl (·.apply id) empty).Faithful id := by
  intro faithful
  have selected := (faithful removedWhileDragging (by decide)).committed
  revert selected
  decide

end SelectionStore

end Motrix.Renderer
