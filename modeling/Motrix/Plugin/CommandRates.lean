import Mathlib.Algebra.Order.Group.Int
import Motrix.Lib.SlidingWindow

/-!
# The rate of commands across plugins

For every pair of plugins the limiter keeps a window of the calls it let
through, and it answers what the log of all these calls says.
-/

namespace Motrix.CommandRates

open Lib Function

def RATE_LIMIT_PER_PAIR : Nat := 10
def RATE_LIMIT_WINDOW_MS : Int := 1000

/-- A key that is absent from the map has an empty window. -/
structure RateLimiter where
  windows : String → List Int

def pairKey (caller callee : String) : String :=
  caller ++ "->" ++ callee

def RateLimiter.consume (limiter : RateLimiter) (caller callee : String)
    (now : Int) : RateLimiter × Bool :=
  let key := pairKey caller callee
  let fresh := recent (now - RATE_LIMIT_WINDOW_MS) (limiter.windows key)
  if fresh.length ≥ RATE_LIMIT_PER_PAIR then
    (⟨update limiter.windows key fresh⟩, false)
  else (⟨update limiter.windows key (fresh ++ [now])⟩, true)

structure Call where
  caller : String
  callee : String
  elapsed : Nat

/-- The limiter, the clock and, for every key, what was let through. -/
structure World where
  limiter : RateLimiter
  now : Int
  log : String → List Int

def Call.answer (call : Call) (world : World) : RateLimiter × Bool :=
  world.limiter.consume call.caller call.callee (world.now + call.elapsed)

def World.step (world : World) (call : Call) : World :=
  let key := pairKey call.caller call.callee
  { limiter := (call.answer world).1
    now := world.now + call.elapsed
    log :=
      if (call.answer world).2 then
        update world.log key (world.log key ++ [world.now + call.elapsed])
      else world.log }

def run (now : Int) (calls : List Call) : World :=
  calls.foldl World.step ⟨⟨fun _ => []⟩, now, fun _ => []⟩

structure Sound (world : World) : Prop where
  kept : ∀ key, Keeps (world.now - RATE_LIMIT_WINDOW_MS) (world.log key)
    (world.limiter.windows key)
  bounded : ∀ key,
    WindowBounded RATE_LIMIT_PER_PAIR RATE_LIMIT_WINDOW_MS (world.log key)

theorem Sound.step {world : World} (sound : Sound world) (call : Call) :
    Sound (world.step call) := by
  have later : ∀ key, Keeps (world.now + call.elapsed - RATE_LIMIT_WINDOW_MS)
      (world.log key) (world.limiter.windows key) :=
    fun key => (sound.kept key).mono (by omega)
  have inside : world.now + call.elapsed - RATE_LIMIT_WINDOW_MS <
      world.now + call.elapsed := by
    simp [RATE_LIMIT_WINDOW_MS]
  unfold World.step Call.answer RateLimiter.consume
  dsimp only
  split
  · refine ⟨fun key => ?_, sound.bounded⟩
    by_cases same : key = pairKey call.caller call.callee
    · subst same
      simpa using (later _).recent
    · simpa [same] using later key
  · rename_i room
    constructor <;> intro key <;>
      by_cases same : key = pairKey call.caller call.callee
    · subst same
      simpa using (later _).push inside
    · simpa [same] using later key
    · subst same
      simpa using (sound.bounded _).push (later _) (not_le.mp room)
    · simpa [same] using sound.bounded key

theorem run_sound (now : Int) (calls : List Call) : Sound (run now calls) :=
  List.foldlRecOn calls World.step ⟨fun _ => .nil _, fun _ => .nil _ _⟩
    fun _ sound call _ => sound.step call

/-- However the calls mix, no pair is let through more often than the limit in
any window, and a call is let through exactly when the log of its pair has room
for it. -/
theorem calls_limited (now : Int) (calls : List Call) :
    (∀ key, WindowBounded RATE_LIMIT_PER_PAIR RATE_LIMIT_WINDOW_MS
      ((run now calls).log key)) ∧
    ∀ call : Call, (call.answer (run now calls)).2 = true ↔
      (recent ((run now calls).now + call.elapsed - RATE_LIMIT_WINDOW_MS)
        ((run now calls).log (pairKey call.caller call.callee))).length <
          RATE_LIMIT_PER_PAIR := by
  have sound := run_sound now calls
  refine ⟨sound.bounded, fun call => ?_⟩
  have kept : Keeps
      ((run now calls).now + call.elapsed - RATE_LIMIT_WINDOW_MS) _ _ :=
    (sound.kept (pairKey call.caller call.callee)).mono (by omega)
  rw [← kept.recent_eq]
  unfold Call.answer RateLimiter.consume
  dsimp only
  split <;> simp_all

end Motrix.CommandRates
