/-!
# JSON trees

The values of JSON texts.  Objects are compared without the order of their
members.  What stands in a tree is reached by the keys and places on the way.
-/

namespace Motrix.Lib

inductive JsonTree where
  | null
  | boolean (value : Bool)
  | number (value : Rat)
  | string (value : String)
  | array (items : List JsonTree)
  | object (members : List (String × JsonTree))

namespace JsonTree

/-! ## Equality -/

mutual

/-- Deep equality; of an object, every member has an equal one. -/
def same : JsonTree → JsonTree → Bool
  | null, null => true
  | boolean left, boolean right => left == right
  | number left, number right => left == right
  | string left, string right => left == right
  | array left, array right => sameItems left right
  | object left, object right =>
      left.length == right.length && sameMembers left right
  | _, _ => false

def sameItems : List JsonTree → List JsonTree → Bool
  | [], [] => true
  | left :: rest, right :: others => same left right && sameItems rest others
  | _, _ => false

def sameMembers :
    List (String × JsonTree) → List (String × JsonTree) → Bool
  | [], _ => true
  | member :: rest, others => sameMember member others && sameMembers rest others

def sameMember : String × JsonTree → List (String × JsonTree) → Bool
  | (key, value), others =>
      others.any fun other => other.1 == key && same value other.2

end

mutual

@[simp] theorem same_self : ∀ tree : JsonTree, same tree tree = true
  | null => by simp [same]
  | boolean value => by simp [same]
  | number value => by simp [same]
  | string value => by simp [same]
  | array items => by
      rw [same]
      exact sameItems_self items
  | object members => by
      rw [same, sameMembers_self members members fun _ inside => inside]
      simp

theorem sameItems_self : ∀ items : List JsonTree,
    sameItems items items = true
  | [] => by simp [sameItems]
  | item :: rest => by
      rw [sameItems, same_self item, sameItems_self rest]
      rfl

theorem sameMembers_self : ∀ members others : List (String × JsonTree),
    (∀ member ∈ members, member ∈ others) →
      sameMembers members others = true
  | [], _, _ => by simp [sameMembers]
  | member :: rest, others, inside => by
      rw [sameMembers, sameMember_self member others
          (inside member List.mem_cons_self),
        sameMembers_self rest others fun other later =>
          inside other (List.mem_cons_of_mem _ later)]
      rfl

theorem sameMember_self : ∀ (member : String × JsonTree)
    (others : List (String × JsonTree)), member ∈ others →
      sameMember member others = true
  | (key, value), others, inside => by
      rw [sameMember, List.any_eq_true]
      exact ⟨(key, value), inside, by simp [same_self value]⟩

end

/-! ## Places -/

inductive Place where
  | key (name : String)
  | index (index : Nat)

/-- What stands at the end of a way through a tree. -/
def get : List Place → JsonTree → Option JsonTree
  | [], tree => some tree
  | .key name :: rest, object members =>
      (members.lookup name).bind (get rest)
  | .index index :: rest, array items => items[index]?.bind (get rest)
  | _, _ => none

end JsonTree

end Motrix.Lib
