/-
Handoff.Settings — how a queue is set up.

`QueueSettings.validate` is the check that every way of loading settings ends with. It looks at the
initial capacity first, then at the ceiling, then at the poll interval, and reports the first fault.
-/
import Handoff.Error

namespace Handoff

/-- How one queue is set up. -/
structure QueueSettings where
  name : String
  /-- The number of slots that the queue starts with. -/
  initialCapacity : Nat
  /-- The number of slots that the queue never grows past. -/
  maxCapacity : Option Nat
  /-- For how many milliseconds an idle consumer sleeps before it looks again. -/
  pollInterval : Nat
  deriving DecidableEq, Repr

namespace QueueSettings

/-- The settings of a queue about which nothing was said. -/
def standard : QueueSettings := ⟨"work", 16, none, 100⟩

/-- The standard settings with another initial capacity. -/
def withCapacity (initial : Nat) : QueueSettings := { standard with initialCapacity := initial }

/-- The fault of a ceiling, if it has one. -/
def ceilingFault? (initial : Nat) : Option Nat → Option ConfigFault
  | none => none
  | some max =>
    if max < 2 then some (.ceilingTooLow max)
    else if max < initial then some (.ceilingBelowInitial max initial)
    else none

/-- The first fault of the settings, if they have one. -/
def fault? (s : QueueSettings) : Option ConfigFault :=
  if s.initialCapacity = 0 then some .initialCapacityZero
  else match ceilingFault? s.initialCapacity s.maxCapacity with
    | some fault => some fault
    | none => if s.pollInterval = 0 then some .pollIntervalZero else none

/-- Accepts settings without a fault. -/
def validate (s : QueueSettings) : Except Error Unit :=
  match s.fault? with
  | some fault => .error (.config fault)
  | none => .ok ()

/-- The whole seconds of the poll interval. -/
def pollSeconds (s : QueueSettings) : Nat := s.pollInterval / 1000

/-- The milliseconds of the poll interval past its whole seconds. -/
def pollSubsecondMillis (s : QueueSettings) : Nat := s.pollInterval % 1000

end QueueSettings

/-- How the program is set up. -/
structure Settings where
  /-- Where telemetry is exported to. -/
  endpoint : Option String
  logLevel : String
  queue : QueueSettings
  deriving DecidableEq, Repr

namespace Settings

/-- The settings of a program about which nothing was said. -/
def standard : Settings := ⟨none, "info", .standard⟩

/-- Accepts settings whose queue is without a fault. -/
def validated (s : Settings) : Except Error Settings :=
  match s.queue.validate with
  | .error e => .error e
  | .ok () => .ok s

end Settings

end Handoff
