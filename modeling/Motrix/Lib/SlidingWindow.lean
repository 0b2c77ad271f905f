import Mathlib.Data.List.AList
import Mathlib.Algebra.Order.Group.Defs
import Mathlib.Algebra.Order.Monoid.Unbundled.Basic
import Mathlib.Algebra.Order.Sub.Basic
import Mathlib.Data.List.Basic

/-!
# Pruning a map

A loop over the entries of a map that erases the stale ones leaves, for every
key, the value that was there unless it is stale.
-/

namespace Motrix.Lib

variable {Key Value : Type} [DecidableEq Key]

/-- The body of the loop, from any entries. -/
def eraseStale (stale : Value → Prop) [DecidablePred stale]
    (entries : List (Sigma fun _ : Key => Value))
    (map : AList fun _ : Key => Value) : AList fun _ : Key => Value :=
  entries.foldl (fun map entry =>
    if stale entry.2 then map.erase entry.1 else map) map

def prune (stale : Value → Prop) [DecidablePred stale]
    (map : AList fun _ : Key => Value) : AList fun _ : Key => Value :=
  eraseStale stale map.entries map

section Loop

variable {stale : Value → Prop} [DecidablePred stale]

theorem lookup_eraseStale (entries : List (Sigma fun _ : Key => Value))
    (map : AList fun _ : Key => Value) (key : Key) (value : Value) :
    (eraseStale stale entries map).lookup key = some value ↔
      map.lookup key = some value ∧
        ∀ old, ⟨key, old⟩ ∈ entries → ¬stale old := by
  induction entries generalizing map with
  | nil => simp [eraseStale]
  | cons entry rest induction =>
      obtain ⟨name, held⟩ := entry
      rw [eraseStale, List.foldl_cons]
      apply (induction _).trans
      by_cases same : key = name
      · subst same
        by_cases aged : stale held
        · simp [aged]
        · simp [aged]
      · have kept : (if stale held then map.erase name else map).lookup key =
            map.lookup key := by
          split
          · exact AList.lookup_erase_ne same
          · rfl
        simp [kept, same]

/-- What stays is what was there and is not stale. -/
theorem lookup_prune (map : AList fun _ : Key => Value) (key : Key)
    (value : Value) :
    (prune stale map).lookup key = some value ↔
      map.lookup key = some value ∧ ¬stale value := by
  apply (lookup_eraseStale map.entries map key value).trans
  constructor
  · rintro ⟨found, fresh⟩
    exact ⟨found, fresh value (AList.mem_lookup_iff.mp found)⟩
  · rintro ⟨found, fresh⟩
    refine ⟨found, fun old listed => ?_⟩
    have again : map.lookup key = some old := AList.mem_lookup_iff.mpr listed
    rw [found] at again
    cases again
    exact fresh

theorem prune_lookup (map : AList fun _ : Key => Value) (key : Key) :
    (prune stale map).lookup key =
      (map.lookup key).filter fun value => ¬stale value := by
  apply Option.ext
  intro value
  rw [lookup_prune, Option.filter_eq_some_iff, decide_eq_true_iff]

theorem eraseStale_keys (entries : List (Sigma fun _ : Key => Value))
    (map : AList fun _ : Key => Value) :
    (eraseStale stale entries map).keys.length ≤ map.keys.length := by
  induction entries generalizing map with
  | nil => exact Nat.le_refl _
  | cons entry rest induction =>
      rw [eraseStale, List.foldl_cons]
      refine Nat.le_trans (induction _) ?_
      split
      · rw [AList.keys_erase]
        exact List.length_erase_le
      · exact Nat.le_refl _

theorem prune_keys (map : AList fun _ : Key => Value) :
    (prune stale map).keys.length ≤ map.keys.length :=
  eraseStale_keys map.entries map

end Loop

end Motrix.Lib

/-!
# Sliding-window counters

A limiter keeps the instants of its recent admissions and drops those that
have left the window before it counts.  Whatever was dropped cannot fall into
a window that a later admission belongs to, so the counter bounds every window
of the full log.
-/

namespace Motrix.Lib

variable {Time : Type} [LinearOrder Time]

/-- The instants after `cutoff`. -/
def recent (cutoff : Time) (times : List Time) : List Time :=
  times.filter fun time => cutoff < time

theorem recent_append (cutoff : Time) (left right : List Time) :
    recent cutoff (left ++ right) =
      recent cutoff left ++ recent cutoff right :=
  List.filter_append ..

theorem recent_sublist (cutoff : Time) (times : List Time) :
    (recent cutoff times).Sublist times :=
  List.filter_sublist

theorem recent_recent {earlier later : Time} (order : earlier ≤ later)
    (times : List Time) :
    recent later (recent earlier times) = recent later times := by
  unfold recent
  rw [List.filter_filter]
  apply List.filter_congr
  intro time _
  have implied : later < time → earlier < time := order.trans_lt
  by_cases inside : later < time
  · simp [inside, implied inside]
  · simp [inside]

/-- The limiter kept what the log holds after some instant before `bound`. -/
def Keeps (bound : Time) (log kept : List Time) : Prop :=
  ∃ horizon ≤ bound, kept = recent horizon log

namespace Keeps

variable {bound : Time} {log kept : List Time}

theorem nil (bound : Time) : Keeps bound ([] : List Time) [] :=
  ⟨bound, le_refl bound, rfl⟩

theorem mono {later : Time} (keeps : Keeps bound log kept)
    (order : bound ≤ later) : Keeps later log kept := by
  obtain ⟨horizon, below, same⟩ := keeps
  exact ⟨horizon, below.trans order, same⟩

theorem recent_eq (keeps : Keeps bound log kept) :
    recent bound kept = recent bound log := by
  obtain ⟨horizon, below, rfl⟩ := keeps
  exact recent_recent below log

theorem recent (keeps : Keeps bound log kept) :
    Keeps bound log (Lib.recent bound kept) :=
  ⟨bound, le_refl bound, keeps.recent_eq⟩

/-- What has left the window need not be kept. -/
theorem drop (keeps : Keeps bound log kept)
    (old : ∀ time ∈ kept, time ≤ bound) : Keeps bound log [] := by
  refine ⟨bound, le_refl bound, ?_⟩
  rw [← keeps.recent_eq, eq_comm]
  apply List.filter_eq_nil_iff.mpr
  intro time listed
  simpa using old time listed

theorem push {now : Time} (keeps : Keeps bound log kept)
    (order : bound < now) :
    Keeps bound (log ++ [now]) (Lib.recent bound kept ++ [now]) := by
  refine ⟨bound, le_refl bound, ?_⟩
  rw [recent_append, keeps.recent_eq]
  simp [Lib.recent, order]

end Keeps

section Windows

variable [AddCommGroup Time]

/-- How many instants fall into the window that opens after `start`. -/
def windowCount (width start : Time) (times : List Time) : Nat :=
  times.countP fun time => start < time ∧ time ≤ start + width

/-- No window of the log holds more than `limit` instants. -/
def WindowBounded (limit : Nat) (width : Time) (log : List Time) : Prop :=
  ∀ start, windowCount width start log ≤ limit

theorem WindowBounded.nil (limit : Nat) (width : Time) :
    WindowBounded limit width [] :=
  fun _ => Nat.zero_le limit

/-- One more instant, counted by a limiter with room for it. -/
theorem WindowBounded.push [IsOrderedAddMonoid Time] {limit : Nat}
    {width now : Time} {log kept : List Time}
    (bounded : WindowBounded limit width log)
    (keeps : Keeps (now - width) log kept)
    (room : (Lib.recent (now - width) kept).length < limit) :
    WindowBounded limit width (log ++ [now]) := by
  intro start
  unfold windowCount
  rw [List.countP_append, List.countP_singleton]
  by_cases inside : start < now ∧ now ≤ start + width
  · have later : now - width ≤ start := sub_le_iff_le_add.mpr inside.2
    -- The window opens no earlier than the limiter's cutoff.
    have fewer : windowCount width start log ≤
        (Lib.recent (now - width) kept).length := by
      rw [keeps.recent_eq, windowCount, Lib.recent,
        ← List.countP_eq_length_filter]
      apply List.countP_mono_left
      intro time _ counted
      have opened := (of_decide_eq_true counted).1
      exact decide_eq_true (later.trans_lt opened)
    simp only [inside, and_self, decide_true, if_true]
    exact Nat.lt_of_le_of_lt fewer room
  · rw [if_neg]
    · exact bounded start
    · simpa using inside

end Windows

end Motrix.Lib
