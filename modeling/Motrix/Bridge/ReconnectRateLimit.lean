import Mathlib.Algebra.Order.Group.Int
import Mathlib.Data.List.Induction
import Motrix.Lib.SlidingWindow

/-!
# Reconnect rate limiting

Attempts are limited per verified origin and globally.  A refusal records
nothing, so what the limiter decides is a function of the attempts that it
admitted, and no more origins are tracked than attempts fit into a window.
-/

namespace Motrix.Bridge.RateLimit

open Motrix.Lib

def defaultPerOriginPerMinute : Nat := 10
def defaultGlobalPerMinute : Nat := 60
def rateWindowMs : Int := 60000

structure ReconnectRateLimitOptions where
  perOriginPerMinute : Option Nat := none
  globalPerMinute : Option Nat := none

structure ReconnectRateLimit where
  perOriginPerMinute : Nat
  globalPerMinute : Nat
  globalAttempts : List Int
  originAttempts : AList fun _ : String => List Int

/-- The newest attempt of the bucket has left the window. -/
def IsStale (cutoff : Int) (times : List Int) : Prop :=
  ∀ last ∈ times.getLast?, last ≤ cutoff

instance (cutoff : Int) (times : List Int) :
    Decidable (IsStale cutoff times) :=
  inferInstanceAs (Decidable (∀ last ∈ times.getLast?, last ≤ cutoff))

namespace ReconnectRateLimit

def construct (opts : ReconnectRateLimitOptions) : ReconnectRateLimit :=
  { perOriginPerMinute :=
      opts.perOriginPerMinute.getD defaultPerOriginPerMinute
    globalPerMinute := opts.globalPerMinute.getD defaultGlobalPerMinute
    globalAttempts := []
    originAttempts := ∅ }

def attempts (limiter : ReconnectRateLimit) (origin : String) : List Int :=
  (limiter.originAttempts.lookup origin).getD []

def trackedOrigins (limiter : ReconnectRateLimit) : Nat :=
  limiter.originAttempts.keys.length

def setOrigin (limiter : ReconnectRateLimit) (origin : String)
    (times : List Int) : ReconnectRateLimit :=
  { limiter with originAttempts := limiter.originAttempts.insert origin times }

def pruneStaleOrigins (limiter : ReconnectRateLimit) (cutoff : Int) :
    ReconnectRateLimit :=
  { limiter with
    originAttempts := prune (IsStale cutoff) limiter.originAttempts }

def admitOrigin (limiter : ReconnectRateLimit) (verifiedOrigin : String)
    (t : Int) : ReconnectRateLimit × Bool :=
  let cutoff := t - rateWindowMs
  let globalAttempts := recent cutoff limiter.globalAttempts
  if globalAttempts.length ≥ limiter.globalPerMinute then
    ({ limiter with globalAttempts := globalAttempts }, false)
  else
    let times := recent cutoff (limiter.attempts verifiedOrigin)
    if times.length ≥ limiter.perOriginPerMinute then
      ({ limiter with globalAttempts := globalAttempts }.setOrigin
        verifiedOrigin times, false)
    else
      (({ limiter with globalAttempts := globalAttempts ++ [t] }.setOrigin
        verifiedOrigin (times ++ [t])).pruneStaleOrigins cutoff, true)

end ReconnectRateLimit

/-! ## Runs -/

structure Attempt where
  verifiedOrigin : String
  time : Int

/-- The limiter and what it admitted. -/
structure System where
  limiter : ReconnectRateLimit
  history : List Attempt

def boot (opts : ReconnectRateLimitOptions) : System :=
  { limiter := .construct opts
    history := [] }

namespace System

def admits (s : System) (attempt : Attempt) : Bool :=
  (s.limiter.admitOrigin attempt.verifiedOrigin attempt.time).2

def step (s : System) (attempt : Attempt) : System :=
  { limiter := (s.limiter.admitOrigin attempt.verifiedOrigin attempt.time).1
    history := if s.admits attempt then s.history ++ [attempt] else s.history }

/-- What each of the attempts is told. -/
def decisions (s : System) : List Attempt → List Bool
  | [] => []
  | attempt :: rest => s.admits attempt :: (s.step attempt).decisions rest

end System

def run (opts : ReconnectRateLimitOptions) (attempts : List Attempt) :
    System :=
  attempts.foldl System.step (boot opts)

def Clocked (attempts : List Attempt) : Prop :=
  attempts.Pairwise fun earlier later => earlier.time ≤ later.time

def globalLog (history : List Attempt) : List Int :=
  history.map Attempt.time

def originLog (origin : String) (history : List Attempt) : List Int :=
  globalLog (history.filter fun attempt => attempt.verifiedOrigin = origin)

/-! ## The log alone -/

/-- A limiter that looks at the whole log of what it admitted. -/
def LogAdmits (opts : ReconnectRateLimitOptions) (history : List Attempt)
    (attempt : Attempt) : Prop :=
  let limits := ReconnectRateLimit.construct opts
  let cutoff := attempt.time - rateWindowMs
  (recent cutoff (globalLog history)).length < limits.globalPerMinute ∧
    (recent cutoff (originLog attempt.verifiedOrigin history)).length <
      limits.perOriginPerMinute

/-- What holds after attempts no later than `now`. -/
structure Sound (opts : ReconnectRateLimitOptions) (now : Int) (s : System) :
    Prop where
  perOriginPerMinute : s.limiter.perOriginPerMinute =
    (ReconnectRateLimit.construct opts).perOriginPerMinute
  globalPerMinute : s.limiter.globalPerMinute =
    (ReconnectRateLimit.construct opts).globalPerMinute
  clocked : Clocked s.history
  past : ∀ attempt ∈ s.history, attempt.time ≤ now
  kept : Keeps (now - rateWindowMs) (globalLog s.history)
    s.limiter.globalAttempts
  originKept : ∀ origin, Keeps (now - rateWindowMs)
    (originLog origin s.history) (s.limiter.attempts origin)
  rate : WindowBounded s.limiter.globalPerMinute rateWindowMs
    (globalLog s.history)
  originRate : ∀ origin, WindowBounded s.limiter.perOriginPerMinute
    rateWindowMs (originLog origin s.history)
  tracked : s.limiter.trackedOrigins ≤ s.limiter.globalPerMinute

theorem boot_sound (opts : ReconnectRateLimitOptions) (now : Int) :
    Sound opts now (boot opts) := by
  constructor
  · rfl
  · rfl
  · exact List.Pairwise.nil
  · intro attempt listed
    cases listed
  · exact .nil _
  · exact fun _ => .nil _
  · exact .nil _ _
  · exact fun _ => .nil _ _
  · exact Nat.zero_le _

namespace ReconnectRateLimit

variable {limiter : ReconnectRateLimit} {origin : String} {t : Int}

/-- What `admitOrigin` can do. -/
inductive Admits (limiter : ReconnectRateLimit) (origin : String) (t : Int) :
    ReconnectRateLimit × Bool → Prop
  | full
      (reached : limiter.globalPerMinute ≤
        (recent (t - rateWindowMs) limiter.globalAttempts).length) :
      Admits limiter origin t
        ({ limiter with
            globalAttempts :=
              recent (t - rateWindowMs) limiter.globalAttempts }, false)
  | overQuota
      (reached : limiter.perOriginPerMinute ≤
        (recent (t - rateWindowMs) (limiter.attempts origin)).length) :
      Admits limiter origin t
        ({ limiter with
            globalAttempts :=
              recent (t - rateWindowMs) limiter.globalAttempts }.setOrigin
          origin (recent (t - rateWindowMs) (limiter.attempts origin)), false)
  | admitted
      (room : (recent (t - rateWindowMs) limiter.globalAttempts).length <
        limiter.globalPerMinute)
      (originRoom : (recent (t - rateWindowMs)
        (limiter.attempts origin)).length < limiter.perOriginPerMinute) :
      Admits limiter origin t
        (({ limiter with
              globalAttempts :=
                recent (t - rateWindowMs) limiter.globalAttempts ++ [t]
            }.setOrigin origin
          (recent (t - rateWindowMs) (limiter.attempts origin) ++
            [t])).pruneStaleOrigins (t - rateWindowMs), true)

theorem admitOrigin_admits (limiter : ReconnectRateLimit) (origin : String)
    (t : Int) : Admits limiter origin t (limiter.admitOrigin origin t) := by
  unfold admitOrigin
  dsimp only
  split
  · rename_i reached
    exact .full reached
  · rename_i room
    split
    · rename_i reached
      exact .overQuota reached
    · rename_i originRoom
      exact .admitted (Nat.lt_of_not_ge room) (Nat.lt_of_not_ge originRoom)

theorem attempts_setOrigin (limiter : ReconnectRateLimit)
    (origin other : String) (times : List Int) :
    (limiter.setOrigin origin times).attempts other =
      if other = origin then times else limiter.attempts other := by
  by_cases same : other = origin
  · subst same
    simp [attempts, setOrigin]
  · rw [if_neg same, attempts, setOrigin, AList.lookup_insert_ne same]
    rfl

/-- Pruning leaves a bucket, or it empties one that was stale. -/
theorem attempts_pruneStaleOrigins (limiter : ReconnectRateLimit)
    (cutoff : Int) (origin : String) :
    (limiter.pruneStaleOrigins cutoff).attempts origin =
      if IsStale cutoff (limiter.attempts origin) then []
      else limiter.attempts origin := by
  unfold attempts pruneStaleOrigins
  rw [prune_lookup]
  cases limiter.originAttempts.lookup origin with
  | none => simp
  | some times =>
      by_cases stale : IsStale cutoff times
      · simp [Option.filter, stale]
      · simp [Option.filter, stale]

end ReconnectRateLimit

/-! ## Preservation -/

theorem originLog_concat (origin : String) (history : List Attempt)
    (attempt : Attempt) :
    originLog origin (history ++ [attempt]) =
      if attempt.verifiedOrigin = origin then
        originLog origin history ++ [attempt.time]
      else originLog origin history := by
  by_cases same : attempt.verifiedOrigin = origin
  · simp [originLog, globalLog, same]
  · simp [originLog, globalLog, same]

theorem IsStale.all {cutoff : Int} {times : List Int}
    (ordered : times.Pairwise (· ≤ ·)) (stale : IsStale cutoff times) :
    ∀ time ∈ times, time ≤ cutoff := by
  rcases List.eq_nil_or_concat times with rfl | ⟨init, last, rfl⟩
  · intro time listed
    cases listed
  · rw [List.concat_eq_append] at *
    have newest : last ≤ cutoff := stale last (by simp)
    intro time listed
    rw [List.mem_append, List.mem_singleton] at listed
    rcases listed with earlier | rfl
    · have below := (List.pairwise_append.mp ordered).2.2 time earlier last
        List.mem_cons_self
      exact Int.le_trans below newest
    · exact newest

namespace Sound

variable {opts : ReconnectRateLimitOptions} {now t : Int} {s : System}
  {origin : String}

theorem mono (sound : Sound opts now s) (order : now ≤ t) :
    Sound opts t s := by
  have later : now - rateWindowMs ≤ t - rateWindowMs := by omega
  exact
    { sound with
      past := fun attempt listed =>
        Int.le_trans (sound.past attempt listed) order
      kept := sound.kept.mono later
      originKept := fun origin => (sound.originKept origin).mono later }

theorem full (sound : Sound opts t s) :
    Sound opts t
      { s with
        limiter :=
          { s.limiter with
            globalAttempts :=
              recent (t - rateWindowMs) s.limiter.globalAttempts } } :=
  { sound with
    kept := sound.kept.recent }

/-- A bucket at its limit is no new bucket. -/
theorem overQuota (sound : Sound opts t s)
    (positive : 1 ≤ (ReconnectRateLimit.construct opts).perOriginPerMinute)
    (reached : s.limiter.perOriginPerMinute ≤
      (recent (t - rateWindowMs) (s.limiter.attempts origin)).length) :
    Sound opts t
      { s with
        limiter := { s.limiter with
            globalAttempts :=
              recent (t - rateWindowMs) s.limiter.globalAttempts }.setOrigin
          origin (recent (t - rateWindowMs) (s.limiter.attempts origin)) } := by
  have tracks : origin ∈ s.limiter.originAttempts.keys := by
    by_contra untracked
    have missing : s.limiter.originAttempts.lookup origin = none :=
      AList.lookup_eq_none.mpr untracked
    rw [sound.perOriginPerMinute, ReconnectRateLimit.attempts,
      missing] at reached
    exact absurd (Nat.le_trans positive reached) (by simp [recent])
  refine
    { sound with
      kept := sound.kept.recent
      originKept := ?_
      tracked := ?_ }
  · intro other
    rw [ReconnectRateLimit.attempts_setOrigin]
    split
    · rename_i same
      rw [same]
      exact (sound.originKept origin).recent
    · exact sound.originKept other
  · have size : (s.limiter.originAttempts.insert origin (recent
        (t - rateWindowMs) (s.limiter.attempts origin))).keys.length =
        s.limiter.originAttempts.keys.length := by
      rw [AList.keys_insert, List.length_cons, List.length_erase_of_mem tracks,
        Nat.sub_add_cancel (List.length_pos_of_mem tracks)]
    exact Nat.le_trans (Nat.le_of_eq size) sound.tracked

end Sound

theorem Clocked.ordered {history : List Attempt} (clocked : Clocked history)
    {bound : Int} {origin : String} {times : List Int}
    (kept : Keeps bound (originLog origin history) times) :
    times.Pairwise (· ≤ ·) := by
  obtain ⟨horizon, -, rfl⟩ := kept
  apply List.Pairwise.sublist (recent_sublist _ _)
  apply List.pairwise_map.mpr
  exact List.Pairwise.sublist List.filter_sublist clocked

/-- Pruning forgets nothing that a later attempt counts. -/
theorem Clocked.pruned {history : List Attempt} (clocked : Clocked history)
    {limiter : ReconnectRateLimit} {cutoff : Int} {origin : String}
    (kept : Keeps cutoff (originLog origin history)
      (limiter.attempts origin)) :
    Keeps cutoff (originLog origin history)
      ((limiter.pruneStaleOrigins cutoff).attempts origin) := by
  rw [ReconnectRateLimit.attempts_pruneStaleOrigins]
  split
  · rename_i stale
    exact kept.drop (stale.all (clocked.ordered kept))
  · exact kept

/-- Every bucket that stays has an attempt in the window. -/
theorem tracked_pruned {history : List Attempt}
    {limiter : ReconnectRateLimit} {cutoff : Int}
    (kept : ∀ origin, Keeps cutoff (originLog origin history)
      (limiter.attempts origin)) :
    (limiter.pruneStaleOrigins cutoff).trackedOrigins ≤
      (recent cutoff (globalLog history)).length := by
  have covered : (limiter.pruneStaleOrigins cutoff).originAttempts.keys ⊆
      (history.filter fun attempt => cutoff < attempt.time).map
        Attempt.verifiedOrigin := by
    intro origin tracks
    obtain ⟨times, found⟩ := Option.isSome_iff_exists.mp
      (AList.lookup_isSome.mpr tracks)
    obtain ⟨held, fresh⟩ := (lookup_prune _ origin times).mp found
    simp only [IsStale, not_forall, Int.not_le, exists_prop] at fresh
    obtain ⟨last, newest, inside⟩ := fresh
    have listed : last ∈ originLog origin history := by
      obtain ⟨horizon, -, same⟩ := kept origin
      rw [ReconnectRateLimit.attempts, held, Option.getD_some] at same
      have member : last ∈ times := List.mem_of_getLast? newest
      rw [same] at member
      exact (recent_sublist _ _).subset member
    simp only [originLog, globalLog, List.mem_map, List.mem_filter,
      decide_eq_true_iff] at listed
    obtain ⟨attempt, ⟨recorded, itself⟩, rfl⟩ := listed
    simp only [List.mem_map, List.mem_filter, decide_eq_true_iff]
    exact ⟨attempt, ⟨recorded, inside⟩, itself⟩
  have fewer := (List.subperm_of_subset
    (limiter.pruneStaleOrigins cutoff).originAttempts.keys_nodup
    covered).length_le
  have counted : ((history.filter fun attempt => cutoff < attempt.time).map
      Attempt.verifiedOrigin).length =
        (recent cutoff (globalLog history)).length := by
    simp only [recent, globalLog, List.filter_map, List.length_map]
    rfl
  exact Nat.le_trans fewer (Nat.le_of_eq counted)

namespace Sound

variable {opts : ReconnectRateLimitOptions} {t : Int} {s : System}
  {origin : String}

theorem admitted (sound : Sound opts t s)
    (room : (recent (t - rateWindowMs) s.limiter.globalAttempts).length <
      s.limiter.globalPerMinute)
    (originRoom : (recent (t - rateWindowMs)
      (s.limiter.attempts origin)).length < s.limiter.perOriginPerMinute) :
    Sound opts t
      { limiter :=
          ({ s.limiter with
              globalAttempts :=
                recent (t - rateWindowMs) s.limiter.globalAttempts ++ [t]
            }.setOrigin origin
          (recent (t - rateWindowMs) (s.limiter.attempts origin) ++
            [t])).pruneStaleOrigins (t - rateWindowMs)
        history := s.history ++ [⟨origin, t⟩] } := by
  have before : t - rateWindowMs < t := by
    unfold rateWindowMs
    omega
  have clocked : Clocked (s.history ++ [⟨origin, t⟩]) := by
    apply List.pairwise_append.mpr
    refine ⟨sound.clocked, List.pairwise_singleton _ _, ?_⟩
    intro attempt listed last newest
    rw [List.mem_singleton] at newest
    rw [newest]
    exact sound.past attempt listed
  have logged : globalLog (s.history ++ [⟨origin, t⟩]) =
      globalLog s.history ++ [t] := List.map_append ..
  have originKept : ∀ other, Keeps (t - rateWindowMs)
      (originLog other (s.history ++ [⟨origin, t⟩]))
      (({ s.limiter with
            globalAttempts :=
              recent (t - rateWindowMs) s.limiter.globalAttempts ++ [t]
          }.setOrigin origin
        (recent (t - rateWindowMs) (s.limiter.attempts origin) ++
          [t])).attempts other) := by
    intro other
    rw [ReconnectRateLimit.attempts_setOrigin, originLog_concat]
    by_cases same : other = origin
    · subst same
      rw [if_pos rfl, if_pos rfl]
      exact (sound.originKept other).push before
    · rw [if_neg same, if_neg (Ne.symm same)]
      exact sound.originKept other
  have kept : Keeps (t - rateWindowMs)
      (globalLog (s.history ++ [⟨origin, t⟩]))
      (recent (t - rateWindowMs) s.limiter.globalAttempts ++ [t]) := by
    rw [logged]
    exact sound.kept.push before
  constructor
  · exact sound.perOriginPerMinute
  · exact sound.globalPerMinute
  · exact clocked
  · intro attempt listed
    rw [List.mem_append, List.mem_singleton] at listed
    rcases listed with earlier | rfl
    · exact sound.past attempt earlier
    · exact Int.le_refl t
  · exact kept
  · intro other
    exact clocked.pruned (originKept other)
  · dsimp only
    rw [logged]
    exact sound.rate.push sound.kept room
  · intro other
    dsimp only
    rw [originLog_concat]
    split
    · rename_i same
      dsimp only at same
      subst same
      exact (sound.originRate origin).push (sound.originKept origin) originRoom
    · exact sound.originRate other
  · apply Nat.le_trans (tracked_pruned originKept)
    rw [logged, recent_append, List.length_append, ← sound.kept.recent_eq]
    have one : (recent (t - rateWindowMs) [t]).length = 1 := by
      simp [recent, before]
    rw [one]
    exact room

theorem step (sound : Sound opts t s)
    (positive : 1 ≤ (ReconnectRateLimit.construct opts).perOriginPerMinute) :
    Sound opts t (s.step ⟨origin, t⟩) := by
  have does := ReconnectRateLimit.admitOrigin_admits s.limiter origin t
  unfold System.step System.admits
  dsimp only
  generalize s.limiter.admitOrigin origin t = result at *
  cases does with
  | full reached => exact sound.full
  | overQuota reached => exact sound.overQuota positive reached
  | admitted room originRoom => exact sound.admitted room originRoom

/-- The limiter decides as one that has the whole log. -/
theorem admits_iff (sound : Sound opts t s) :
    s.admits ⟨origin, t⟩ = true ↔ LogAdmits opts s.history ⟨origin, t⟩ := by
  unfold LogAdmits
  dsimp only
  rw [← sound.kept.recent_eq, ← (sound.originKept origin).recent_eq,
    ← sound.globalPerMinute, ← sound.perOriginPerMinute]
  have does := ReconnectRateLimit.admitOrigin_admits s.limiter origin t
  unfold System.admits
  dsimp only
  generalize s.limiter.admitOrigin origin t = result at *
  cases does with
  | full reached =>
      simp [Nat.not_lt.mpr reached]
  | overQuota reached =>
      simp [Nat.not_lt.mpr reached]
  | admitted room originRoom =>
      simp [room, originRoom]

end Sound

/-! ## All runs -/

theorem run_concat (opts : ReconnectRateLimitOptions)
    (attempts : List Attempt) (attempt : Attempt) :
    run opts (attempts ++ [attempt]) = (run opts attempts).step attempt := by
  rw [run, List.foldl_append]
  rfl

variable {opts : ReconnectRateLimitOptions}

theorem run_sound
    (positive : 1 ≤ (ReconnectRateLimit.construct opts).perOriginPerMinute)
    (attempts : List Attempt) (clocked : Clocked attempts) (now : Int)
    (past : ∀ attempt ∈ attempts, attempt.time ≤ now) :
    Sound opts now (run opts attempts) := by
  induction attempts using List.reverseRecOn generalizing now with
  | nil => exact boot_sound opts now
  | append_singleton attempts attempt induction =>
      obtain ⟨earlier, -, order⟩ := List.pairwise_append.mp clocked
      have sound : Sound opts attempt.time (run opts attempts) :=
        induction earlier attempt.time fun other listed =>
          order other listed attempt List.mem_cons_self
      rw [run_concat]
      exact (sound.step positive).mono (past attempt (by simp))

/-- What two limiters decide depends on their logs only. -/
theorem decisions_eq {now : Int} {s other : System}
    (positive : 1 ≤ (ReconnectRateLimit.construct opts).perOriginPerMinute)
    (sound : Sound opts now s) (otherSound : Sound opts now other)
    (same : s.history = other.history) (attempts : List Attempt)
    (clocked : Clocked attempts)
    (later : ∀ attempt ∈ attempts, now ≤ attempt.time) :
    s.decisions attempts = other.decisions attempts := by
  induction attempts generalizing now s other with
  | nil => rfl
  | cons attempt rest induction =>
      have order := later attempt List.mem_cons_self
      have earlier := sound.mono order
      have otherEarlier := otherSound.mono order
      have alike : s.admits attempt = other.admits attempt := by
        apply Bool.eq_iff_iff.mpr
        rw [earlier.admits_iff, otherEarlier.admits_iff, same]
      obtain ⟨follows, clockedRest⟩ := List.pairwise_cons.mp clocked
      have recorded : (s.step attempt).history =
          (other.step attempt).history := by
        unfold System.step
        rw [alike, same]
      unfold System.decisions
      rw [alike, induction (earlier.step positive)
        (otherEarlier.step positive) recorded clockedRest follows]

theorem reconnects_limited (opts : ReconnectRateLimitOptions)
    (positive : 1 ≤ (ReconnectRateLimit.construct opts).perOriginPerMinute)
    (attempts : List Attempt) (clocked : Clocked attempts) :
    let limits := ReconnectRateLimit.construct opts
    let reached := run opts attempts
    WindowBounded limits.globalPerMinute rateWindowMs
        (globalLog reached.history) ∧
      (∀ origin, WindowBounded limits.perOriginPerMinute rateWindowMs
        (originLog origin reached.history)) ∧
      reached.limiter.trackedOrigins ≤ limits.globalPerMinute ∧
      ∀ attempt later, Clocked (attempts ++ attempt :: later) →
        reached.admits attempt = false →
          (reached.step attempt).decisions later =
            reached.decisions later := by
  intro limits reached
  obtain ⟨now, past⟩ : ∃ now, ∀ attempt ∈ attempts, attempt.time ≤ now := by
    rcases List.eq_nil_or_concat attempts with rfl | ⟨init, last, rfl⟩
    · exact ⟨0, fun attempt listed => by cases listed⟩
    · refine ⟨last.time, fun attempt listed => ?_⟩
      rw [List.concat_eq_append] at *
      rw [List.mem_append, List.mem_singleton] at listed
      rcases listed with earlier | rfl
      · exact (List.pairwise_append.mp clocked).2.2 attempt earlier last
          List.mem_cons_self
      · exact Int.le_refl _
  have sound := run_sound positive attempts clocked now past
  refine ⟨?_, ?_, ?_, ?_⟩
  · rw [← sound.globalPerMinute]
    exact sound.rate
  · rw [← sound.perOriginPerMinute]
    exact sound.originRate
  · rw [← sound.globalPerMinute]
    exact sound.tracked
  · intro attempt later all refused
    obtain ⟨-, after, order⟩ := List.pairwise_append.mp all
    obtain ⟨follows, clockedLater⟩ := List.pairwise_cons.mp after
    have here : Sound opts attempt.time reached :=
      run_sound positive attempts clocked attempt.time fun other listed =>
        order other listed attempt List.mem_cons_self
    have unrecorded : (reached.step attempt).history = reached.history := by
      simp [System.step, refused]
    exact decisions_eq positive (here.step positive) here unrecorded later
      clockedLater follows

/-- The second attempt of an origin that may make one is refused, and the
next origin is let in all the same. -/
theorem refusal_limited :
    let reached := run { perOriginPerMinute := some 1 }
      [⟨"chrome-extension://a", 0⟩]
    (reached.step ⟨"chrome-extension://a", 5⟩).decisions
        [⟨"chrome-extension://b", 6⟩] =
      reached.decisions [⟨"chrome-extension://b", 6⟩] := by
  have limited := reconnects_limited { perOriginPerMinute := some 1 }
    (by decide) [⟨"chrome-extension://a", 0⟩]
    (by simp [Clocked])
  exact limited.2.2.2 ⟨"chrome-extension://a", 5⟩ [⟨"chrome-extension://b", 6⟩]
    (by simp [Clocked]) (by decide +kernel)

end Motrix.Bridge.RateLimit
