/-!
# Successful `Except` computations

How a result `.ok` came about: every step before it succeeded and no guard
threw.
-/

namespace Motrix.Lib

variable {ε α β : Type}

theorem bind_eq_ok {first : Except ε α} {next : α → Except ε β}
    {result : β} :
    (first >>= next) = .ok result ↔
      ∃ value, first = .ok value ∧ next value = .ok result := by
  cases first with
  | error failure =>
      simp only [bind, Except.bind, reduceCtorEq, false_and, exists_false]
  | ok value =>
      simp only [bind, Except.bind, Except.ok.injEq, exists_eq_left']

theorem throw_bind (failure : ε) (next : α → Except ε β) :
    ((throw failure : Except ε α) >>= next) = throw failure := rfl

theorem throw_eq_ok {failure : ε} {result : α} :
    (throw failure : Except ε α) = .ok result ↔ False := by
  simp only [throw, throwThe, MonadExceptOf.throw, reduceCtorEq]

theorem pure_eq_ok {value result : α} :
    (pure value : Except ε α) = .ok result ↔ value = result := by
  simp only [pure, Except.pure, Except.ok.injEq]

/-- A computation without a result succeeded. -/
theorem exists_ok_of_isOk {computed : Except ε α}
    (succeeded : computed.isOk = true) : ∃ value, computed = .ok value := by
  cases computed with
  | error failure => cases succeeded
  | ok value => exact ⟨value, rfl⟩

/-- A guard that throws was not taken. -/
theorem guard_eq_ok {condition : Prop} [Decidable condition] {failure : ε}
    {rest : Except ε α} {result : α} :
    (if condition then throw failure else rest) = .ok result ↔
      ¬ condition ∧ rest = .ok result := by
  by_cases taken : condition
  · simp only [taken, if_true, throw_eq_ok, not_true, false_and]
  · simp only [taken, if_false, not_false_eq_true, true_and]

/-- What every successful step of a fold keeps, the fold keeps. -/
theorem foldlM_keeps {holds : β → Prop} {step : β → α → Except ε β}
    (keeps : ∀ state item next, holds state → step state item = .ok next →
      holds next)
    {items : List α} {state final : β} (initial : holds state)
    (folded : items.foldlM step state = .ok final) : holds final := by
  induction items generalizing state with
  | nil =>
      cases folded
      exact initial
  | cons item rest induction =>
      rw [List.foldlM_cons, bind_eq_ok] at folded
      obtain ⟨next, stepped, folded⟩ := folded
      exact induction (keeps state item next initial stepped) folded

/-- A pass over a list succeeds when each of its steps does. -/
theorem mapM_eq_ok_iff {step : α → Except ε β} {good : α → Prop}
    {image : α → β}
    (step_iff : ∀ item result,
      step item = .ok result ↔ good item ∧ result = image item)
    {items : List α} {results : List β} :
    items.mapM step = .ok results ↔
      (∀ item ∈ items, good item) ∧ results = items.map image := by
  induction items generalizing results with
  | nil =>
      rw [List.mapM_nil, pure_eq_ok]
      simp [eq_comm]
  | cons item rest induction =>
      rw [List.mapM_cons, bind_eq_ok]
      constructor
      · rintro ⟨first, stepped, mapped⟩
        obtain ⟨others, passed, same⟩ := bind_eq_ok.mp mapped
        obtain ⟨here, rfl⟩ := (step_iff item first).mp stepped
        obtain ⟨later, rfl⟩ := induction.mp passed
        exact ⟨List.forall_mem_cons.mpr ⟨here, later⟩,
          (pure_eq_ok.mp same).symm⟩
      · rintro ⟨all, rfl⟩
        obtain ⟨here, later⟩ := List.forall_mem_cons.mp all
        refine ⟨image item, (step_iff _ _).mpr ⟨here, rfl⟩, ?_⟩
        exact bind_eq_ok.mpr ⟨_, induction.mpr ⟨later, rfl⟩, rfl⟩

/-- Every result of a successful pass over a list is that of one item. -/
theorem mem_of_mapM {step : α → Except ε β} {items : List α}
    {results : List β} (mapped : items.mapM step = .ok results) {result : β}
    (inside : result ∈ results) : ∃ item ∈ items, step item = .ok result := by
  induction items generalizing results with
  | nil =>
      rw [List.mapM_nil, pure_eq_ok] at mapped
      rw [← mapped] at inside
      cases inside
  | cons item rest induction =>
      rw [List.mapM_cons, bind_eq_ok] at mapped
      obtain ⟨first, stepped, mapped⟩ := mapped
      rw [bind_eq_ok] at mapped
      obtain ⟨others, mapped, same⟩ := mapped
      rw [pure_eq_ok] at same
      rw [← same] at inside
      rcases List.mem_cons.mp inside with rfl | later
      · exact ⟨item, List.mem_cons_self, stepped⟩
      · obtain ⟨source, among, found⟩ := induction mapped later
        exact ⟨source, List.mem_cons_of_mem _ among, found⟩

theorem mapM_of_mem {step : α → Except ε β} {items : List α}
    {results : List β} (mapped : items.mapM step = .ok results) {item : α}
    (inside : item ∈ items) : ∃ result ∈ results, step item = .ok result := by
  induction items generalizing results with
  | nil => cases inside
  | cons first rest induction =>
      rw [List.mapM_cons, bind_eq_ok] at mapped
      obtain ⟨here, stepped, mapped⟩ := mapped
      rw [bind_eq_ok] at mapped
      obtain ⟨others, mapped, same⟩ := mapped
      rw [pure_eq_ok] at same
      subst same
      rcases List.mem_cons.mp inside with rfl | later
      · exact ⟨here, List.mem_cons_self, stepped⟩
      · obtain ⟨result, among, found⟩ := induction mapped later
        exact ⟨result, List.mem_cons_of_mem _ among, found⟩

/-- A test of all items that answered yes asked all of them. -/
theorem allM_eq_true {test : α → Except ε Bool} {items : List α}
    (passed : items.allM test = .ok true) :
    ∀ item ∈ items, test item = .ok true := by
  induction items with
  | nil => simp
  | cons first rest induction =>
      rw [List.allM, bind_eq_ok] at passed
      obtain ⟨answer, here, rest'⟩ := passed
      cases answer with
      | false => cases rest'
      | true => exact List.forall_mem_cons.mpr ⟨here, induction rest'⟩

theorem anyM_eq_true {test : α → Except ε Bool} {items : List α}
    (passed : items.anyM test = .ok true) :
    ∃ item ∈ items, test item = .ok true := by
  induction items with
  | nil => cases passed
  | cons first rest induction =>
      rw [List.anyM, bind_eq_ok] at passed
      obtain ⟨answer, here, rest'⟩ := passed
      cases answer with
      | true => exact ⟨first, List.mem_cons_self, here⟩
      | false =>
          obtain ⟨item, inside, found⟩ := induction rest'
          exact ⟨item, List.mem_cons_of_mem _ inside, found⟩

/-- A pass keeps what each of its steps keeps. -/
theorem mapM_field {γ : Type} {step : α → Except ε β} {before : α → γ}
    {after : β → γ}
    (keeps : ∀ item result, step item = .ok result →
      after result = before item)
    {items : List α} {results : List β}
    (mapped : items.mapM step = .ok results) :
    results.map after = items.map before := by
  induction items generalizing results with
  | nil =>
      cases pure_eq_ok.mp mapped
      rfl
  | cons item rest induction =>
      rw [List.mapM_cons, bind_eq_ok] at mapped
      obtain ⟨first, stepped, mapped⟩ := mapped
      obtain ⟨others, later, same⟩ := bind_eq_ok.mp mapped
      cases pure_eq_ok.mp same
      rw [List.map_cons, List.map_cons, keeps item first stepped,
        induction later]

end Motrix.Lib
