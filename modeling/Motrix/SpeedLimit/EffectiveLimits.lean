import Mathlib.Data.List.Basic

/-!
# Effective speed limits

The settings choose between the standard and the low speed profile, by the
turtle switch or by the clock, and an adaptive cap may lower what they choose.
Zero stands for no limit.
-/

namespace Motrix.SpeedLimit

/-- Bytes per second; zero is unlimited. -/
structure SpeedLimitProfile where
  download : Nat
  upload : Nat
deriving DecidableEq

inductive TurtleState where
  | off
  | on
  | auto
deriving DecidableEq

inductive SpeedLimitReason where
  | none
  | base
  | turtle
  | schedule
  | videoApp
  | adaptive
deriving DecidableEq

/-- The times that the settings schema lets through as `HH:MM`. -/
structure ClockTime where
  hour : Fin 24
  minute : Fin 60
deriving DecidableEq

structure SpeedLimitSchedule where
  enabled : Bool
  from' : ClockTime
  to' : ClockTime
  days : List Nat

structure SpeedLimitAdaptive where
  enabled : Bool
  linkDown : Nat
  linkUp : Nat
  headroomPercent : Nat

structure SpeedLimitAutoSettings where
  schedule : SpeedLimitSchedule
  videoAppEnabled : Bool
  adaptive : SpeedLimitAdaptive

structure SpeedLimitSettings where
  base : SpeedLimitProfile
  alt : SpeedLimitProfile
  turtle : TurtleState
  auto : SpeedLimitAutoSettings

/-- What of a date the schedule reads: the weekday and the local time. -/
structure Now where
  day : Nat
  time : ClockTime

structure EffectiveLimitContext where
  now : Now
  videoAppRunning : Bool

def minCap (values : List Nat) : Nat :=
  values.foldl (fun min value =>
    if value = 0 then min
    else if min = 0 ∨ value < min then value
    else min) 0

def toMinutes (time : ClockTime) : Nat :=
  time.hour * 60 + time.minute

def withinWindow (now : Now) (schedule : SpeedLimitSchedule) : Bool :=
  if schedule.days.length > 0 ∧ ¬ schedule.days.contains now.day then false
  else
    let cur := toMinutes now.time
    let start := toMinutes schedule.from'
    let stop := toMinutes schedule.to'
    if start = stop then false
    else if start < stop then start ≤ cur ∧ cur < stop
    else start ≤ cur ∨ cur < stop

/-- An empty low speed field inherits the standard one. -/
def lowSpeed (settings : SpeedLimitSettings) : SpeedLimitProfile where
  download :=
    if settings.alt.download > 0 then settings.alt.download
    else settings.base.download
  upload :=
    if settings.alt.upload > 0 then settings.alt.upload
    else settings.base.upload

def altActive (settings : SpeedLimitSettings)
    (context : EffectiveLimitContext) : Bool :=
  (settings.auto.schedule.enabled &&
      withinWindow context.now settings.auto.schedule) ||
    (settings.auto.videoAppEnabled && context.videoAppRunning)

/-- The caps of one direction: the chosen one and, if adaptive, a share of
the link. -/
def caps (adaptive : SpeedLimitAdaptive) (selected link : Nat) : List Nat :=
  if adaptive.enabled then [selected, link * adaptive.headroomPercent / 100]
  else [selected]

def computeEffectiveLimits (settings : SpeedLimitSettings)
    (context : EffectiveLimitContext) : SpeedLimitProfile :=
  match settings.turtle with
  | .off => settings.base
  | .on => lowSpeed settings
  | .auto =>
      let adaptive := settings.auto.adaptive
      let selected :=
        if altActive settings context then lowSpeed settings
        else settings.base
      {
        download := minCap (caps adaptive selected.download adaptive.linkDown)
        upload := minCap (caps adaptive selected.upload adaptive.linkUp)
      }

def reasonFor (settings : SpeedLimitSettings)
    (context : EffectiveLimitContext) : SpeedLimitReason :=
  match settings.turtle with
  | .off =>
      if settings.base.download > 0 ∨ settings.base.upload > 0 then .base
      else .none
  | .on => .turtle
  | .auto =>
      let auto := settings.auto
      if auto.schedule.enabled && withinWindow context.now auto.schedule then
        .schedule
      else if auto.videoAppEnabled && context.videoAppRunning then .videoApp
      else if auto.adaptive.enabled then .adaptive
      else .none

end Motrix.SpeedLimit
