import Mathlib.Data.Finset.Image

/-!
# The selection store

The items of a list with the ids selected among them.  Focus and range anchor
are kept twice: as positions, which the views read, and as ids, from which a
new list finds the positions again.
-/

namespace Motrix.Renderer

variable {Item Id : Type} [DecidableEq Id]

def clamp (value low high : Int) : Int :=
  max low (min high value)

/-- The last position whose entry meets the test. -/
def lastWhere (test : Id → Bool) : List Id → Option Nat
  | [] => none
  | first :: rest =>
      match lastWhere test rest with
      | some place => some (place + 1)
      | none => if test first then some 0 else none

/-- Of two equal ids the map keeps the later position. -/
def indexById (ids : List Id) (id : Id) : Option Nat :=
  lastWhere (· == id) ids

/-- An array read at an index; outside it there is nothing. -/
def itemAt {Entry : Type} (entries : List Entry) (index : Int) :
    Option Entry :=
  if index < 0 then none else entries[index.toNat]?

def between (ids : List Id) (start last : Int) : Finset Id :=
  (ids.zipIdx.filter fun entry =>
    start ≤ (entry.2 : Int) ∧ (entry.2 : Int) ≤ last).map Prod.fst
    |>.toFinset

structure MarqueeRangeSnapshot where
  start : Int
  last : Int
  itemsRevision : Nat
deriving DecidableEq

structure SelectionStore (Item Id : Type) where
  items : List Item
  selectedIds : Finset Id
  committedSelectedIds : Finset Id
  focusedIndex : Option Int
  lastActionIndex : Option Int
  preservedIds : Finset Id
  focusedId : Option Id
  lastActionId : Option Id
  itemsRevision : Nat
  lastMarqueeRange : Option MarqueeRangeSnapshot

/-- An operation of the store; `preserve` is the view keeping ids for a
marquee that starts. -/
inductive Operation (Item Id : Type) where
  | select (id : Id)
  | toggle (id : Id)
  | rangeSelect (toIndex : Int)
  | selectAll
  | clearSelection
  | setItems (newItems : List Item) (sameReference : Bool)
  | preserve (ids : Finset Id)
  | marqueeSelect (startIndex endIndex : Int)
  | marqueeEnd
  | moveFocus (delta : Int)
  | focus (id : Id)
  | extendSelection (toIndex : Int)
  | moveSelection (delta : Int) (extend : Bool)
  | focusedSelect
  | shiftMoveFocus (delta : Int)

/-- The focus in a new list: the position of its id, or else the old position
as far as the list goes. -/
def refocus (ids : List Id) (focusedId : Option Id)
    (prevFocusedIndex : Option Int) : Option Id × Option Int :=
  if ids.length > 0 then
    let kept := prevFocusedIndex.map (clamp · 0 (ids.length - 1))
    match focusedId with
    | some id =>
        match indexById ids id with
        | some index => (some id, some index)
        | none => (none, kept)
    | none => (none, kept)
  else (none, none)

/-- The range anchor in a new list goes with its item. -/
def reanchor (ids : List Id) (lastActionId : Option Id) :
    Option Id × Option Int :=
  match lastActionId with
  | some id =>
      match indexById ids id with
      | some index => (some id, some index)
      | none => (none, none)
  | none => (none, none)

namespace SelectionStore

variable (store : SelectionStore Item Id) (getId : Item → Id)

def empty : SelectionStore Item Id where
  items := []
  selectedIds := ∅
  committedSelectedIds := ∅
  focusedIndex := none
  lastActionIndex := none
  preservedIds := ∅
  focusedId := none
  lastActionId := none
  itemsRevision := 0
  lastMarqueeRange := none

def ids : List Id :=
  store.items.map getId

def resetMarqueeRange : SelectionStore Item Id :=
  { store with lastMarqueeRange := none }

/-- Both selections at once. -/
def commit (selected : Finset Id) : SelectionStore Item Id :=
  { store with
    selectedIds := selected
    committedSelectedIds := selected }

def select (id : Id) : SelectionStore Item Id :=
  let store := store.resetMarqueeRange.commit {id}
  match indexById (store.ids getId) id with
  | some index =>
      { store with
        focusedId := some id
        lastActionId := some id
        focusedIndex := some index
        lastActionIndex := some index }
  | none => store

def toggle (id : Id) : SelectionStore Item Id :=
  let next :=
    if id ∈ store.selectedIds then store.selectedIds.erase id
    else insert id store.selectedIds
  let store := store.resetMarqueeRange.commit next
  match indexById (store.ids getId) id with
  | some index =>
      { store with
        lastActionId := some id
        lastActionIndex := some index }
  | none => store

def rangeSelect (toIndex : Int) : SelectionStore Item Id :=
  let from' := store.lastActionIndex.getD 0
  store.resetMarqueeRange.commit
    (between (store.ids getId) (min from' toIndex) (max from' toIndex))

def selectAll : SelectionStore Item Id :=
  store.resetMarqueeRange.commit (store.ids getId).toFinset

def clearSelection : SelectionStore Item Id :=
  let store := store.resetMarqueeRange
  if store.selectedIds = ∅ ∧ store.lastActionIndex = none then store
  else
    { store.commit ∅ with
      lastActionId := none
      lastActionIndex := none }

def setItems (newItems : List Item) (sameReference : Bool) :
    SelectionStore Item Id :=
  if sameReference then store
  else
    let ids := newItems.map getId
    let focus := refocus ids store.focusedId store.focusedIndex
    let anchor := reanchor ids store.lastActionId
    { store with
      items := newItems
      itemsRevision := store.itemsRevision + 1
      selectedIds := store.selectedIds.filter (· ∈ ids)
      committedSelectedIds := store.committedSelectedIds.filter (· ∈ ids)
      focusedId := focus.1
      focusedIndex := focus.2
      lastActionId := anchor.1
      lastActionIndex := anchor.2 }

def preserve (ids : Finset Id) : SelectionStore Item Id :=
  { store with preservedIds := ids }

/-- The range of a marquee in the present list; empty for an empty one. -/
def marqueeRange (startIndex endIndex : Int) : MarqueeRangeSnapshot where
  start :=
    if store.items.length = 0 then 0
    else clamp (min startIndex endIndex) 0 (store.items.length - 1)
  last :=
    if store.items.length = 0 then -1
    else clamp (max startIndex endIndex) 0 (store.items.length - 1)
  itemsRevision := store.itemsRevision

def marqueeSelect (startIndex endIndex : Int) : SelectionStore Item Id :=
  let range := store.marqueeRange startIndex endIndex
  if store.lastMarqueeRange = some range then store
  else
    { store with
      lastMarqueeRange := some range
      selectedIds := store.preservedIds ∪
        between (store.ids getId) range.start range.last }

def marqueeEnd : SelectionStore Item Id :=
  let place := lastWhere (· ∈ store.selectedIds) (store.ids getId)
  let anchorId := place.bind ((store.ids getId)[·]?)
  let maxIndex : Int := (place.getD 0 : Nat)
  { store.resetMarqueeRange with
    committedSelectedIds := store.selectedIds
    preservedIds := ∅
    lastActionId := if store.selectedIds = ∅ then none else anchorId
    lastActionIndex := if store.selectedIds = ∅ then none else maxIndex }

/-- The position that a movement of the focus comes to. -/
def moved (delta : Int) : Int :=
  clamp (store.focusedIndex.getD (-1) + delta) 0 (store.items.length - 1)

def moveFocus (delta : Int) : SelectionStore Item Id :=
  match itemAt (store.ids getId) (store.moved delta) with
  | none => store
  | some id =>
      { store with
        focusedId := some id
        focusedIndex := some (store.moved delta) }

def focus (id : Id) : SelectionStore Item Id :=
  match indexById (store.ids getId) id with
  | none => store
  | some index =>
      { store with
        focusedId := some id
        focusedIndex := some index }

/-- A missing range anchor is put at the focus, or at the target. -/
def anchorRange (target : Int) : Option (SelectionStore Item Id) :=
  match store.lastActionIndex with
  | some _ => some store
  | none =>
      let anchor := store.focusedIndex.getD target
      (itemAt (store.ids getId) anchor).map fun id =>
        { store with
          lastActionId := some id
          lastActionIndex := some anchor }

def extendSelection (toIndex : Int) : SelectionStore Item Id :=
  let target := clamp toIndex 0 (store.items.length - 1)
  match itemAt (store.ids getId) target, store.anchorRange getId target with
  | some id, some anchored => (anchored.rangeSelect getId target).focus getId id
  | _, _ => store

def moveSelection (delta : Int) (extend : Bool) : SelectionStore Item Id :=
  let next :=
    match store.focusedIndex with
    | none => 0
    | some index => clamp (index + delta) 0 (store.items.length - 1)
  match itemAt (store.ids getId) next with
  | none => store
  | some id =>
      if extend then store.extendSelection getId next
      else store.select getId id

def focusedSelect : SelectionStore Item Id :=
  let store := store.resetMarqueeRange
  match store.focusedIndex.bind (itemAt (store.ids getId)) with
  | none => store
  | some id => store.toggle getId id

def shiftMoveFocus (delta : Int) : SelectionStore Item Id :=
  let store := store.resetMarqueeRange
  match itemAt (store.ids getId) (store.moved delta) with
  | none => store
  | some id =>
      let focused :=
        { store with
          focusedId := some id
          focusedIndex := some (store.moved delta) }
      if id ∈ store.selectedIds then focused
      else focused.commit (insert id store.selectedIds)

def apply : Operation Item Id → SelectionStore Item Id
  | .select id => store.select getId id
  | .toggle id => store.toggle getId id
  | .rangeSelect toIndex => store.rangeSelect getId toIndex
  | .selectAll => store.selectAll getId
  | .clearSelection => store.clearSelection
  | .setItems newItems sameReference =>
      store.setItems getId newItems sameReference
  | .preserve ids => store.preserve ids
  | .marqueeSelect startIndex endIndex =>
      store.marqueeSelect getId startIndex endIndex
  | .marqueeEnd => store.marqueeEnd getId
  | .moveFocus delta => store.moveFocus getId delta
  | .focus id => store.focus getId id
  | .extendSelection toIndex => store.extendSelection getId toIndex
  | .moveSelection delta extend => store.moveSelection getId delta extend
  | .focusedSelect => store.focusedSelect getId
  | .shiftMoveFocus delta => store.shiftMoveFocus getId delta

end SelectionStore

end Motrix.Renderer
