import Mathlib.Data.Fintype.Card
import Mathlib.Data.Set.Finite.Basic
import Mathlib.Data.Set.Finite.List
import Mathlib.Logic.Relation
import Mathlib.Order.WellFounded

/-!
# Relations without cycles

A relation has no cycle exactly when no finite set of nodes keeps it going:
in every such set some node has no successor.
-/

namespace Motrix.Lib

open Relation (TransGen)

variable {Node : Type} {edge other : Node → Node → Prop}

def Acyclic (edge : Node → Node → Prop) : Prop :=
  ∀ node, ¬TransGen edge node node

namespace Acyclic

theorem mono (acyclic : Acyclic other)
    (inside : ∀ first second, edge first second → other first second) :
    Acyclic edge :=
  fun node cycle => acyclic node (TransGen.mono inside _ _ cycle)

theorem exists_sink (acyclic : Acyclic edge) {nodes : List Node}
    (some' : nodes ≠ []) :
    ∃ node ∈ nodes, ∀ next ∈ nodes, ¬edge node next := by
  let later : { node // node ∈ nodes } → { node // node ∈ nodes } → Prop :=
    fun second first => TransGen edge first.1 second.1
  have transitive : IsTrans _ later :=
    ⟨fun _ _ _ second first => first.trans second⟩
  have irreflexive : Std.Irrefl later := ⟨fun node => acyclic node.1⟩
  have finite : Finite { node // node ∈ nodes } :=
    (List.finite_toSet nodes).to_subtype
  have founded : WellFounded later :=
    Finite.wellFounded_of_trans_of_irrefl later
  obtain ⟨first, member⟩ := List.exists_mem_of_ne_nil nodes some'
  obtain ⟨last, _, least⟩ := founded.has_min Set.univ ⟨⟨first, member⟩, trivial⟩
  refine ⟨last.1, last.2, ?_⟩
  intro next inside step
  exact least ⟨next, inside⟩ trivial (TransGen.single step)

end Acyclic

/-- A path runs through nodes each of which has a successor on it. -/
theorem exists_walk {first last : Node} (path : TransGen edge first last) :
    ∃ nodes : List Node, first ∈ nodes ∧
      ∀ node ∈ nodes, edge node last ∨ ∃ next ∈ nodes, edge node next := by
  induction path using TransGen.head_induction_on with
  | single step =>
      refine ⟨[_], List.mem_cons_self, ?_⟩
      intro node member
      rw [List.mem_singleton.mp member]
      exact Or.inl step
  | head step _ induction =>
      obtain ⟨nodes, inside, walk⟩ := induction
      refine ⟨_ :: nodes, List.mem_cons_self, ?_⟩
      intro node member
      rcases List.mem_cons.mp member with rfl | later
      · exact Or.inr ⟨_, List.mem_cons_of_mem _ inside, step⟩
      · rcases walk node later with ends | ⟨next, among, steps⟩
        · exact Or.inl ends
        · exact Or.inr ⟨next, List.mem_cons_of_mem _ among, steps⟩

/-- A cycle is a set of nodes that keeps the relation going. -/
theorem exists_circuit (cyclic : ¬Acyclic edge) : ∃ nodes : List Node,
    nodes ≠ [] ∧ ∀ node ∈ nodes, ∃ next ∈ nodes, edge node next := by
  unfold Acyclic at cyclic
  rw [not_forall] at cyclic
  obtain ⟨start, cyclic⟩ := cyclic
  have cycle : TransGen edge start start := Classical.not_not.mp cyclic
  obtain ⟨nodes, inside, walk⟩ := exists_walk cycle
  refine ⟨nodes, List.ne_nil_of_mem inside, ?_⟩
  intro node member
  rcases walk node member with ends | found
  · exact ⟨start, inside, ends⟩
  · exact found

end Motrix.Lib
