/-
Handoff.Settings.Environment — settings from environment variables.

A variable that is not set, or whose bytes are not text, leaves the standard value. A number may have
blanks around it and a plus sign before it. The first variable that holds no number is an error, in
the order initial capacity, ceiling, poll interval; then the settings are checked.
-/
import Handoff.Settings
import Handoff.Text.Blank
import Handoff.Text.Decimal
import Handoff.Text.Utf8

namespace Handoff

/-- The variables that are set, with their bytes. The first of a name counts. -/
abbrev Environment := List (String × List UInt8)

namespace Environment

/-- The text of a variable, if it is set and is text. -/
def get? (env : Environment) (name : String) : Option String :=
  (List.lookup name env).bind Text.textOfBytes?

/-- The number that a text is, apart from blanks around it. -/
def number? (raw : String) : Option Nat := Text.word? (Text.trim raw.toList)

/-- The number that a variable holds, if it is set. -/
def getNumber (env : Environment) (name : String) : Except Error (Option Nat) :=
  match env.get? name with
  | none => .ok none
  | some raw =>
    match number? raw with
    | none => .error (.config (.badVariable name raw))
    | some n => .ok (some n)

end Environment

namespace Settings

/-- The settings that the variables give, before they are checked. -/
def gather (env : Environment) : Except Error Settings :=
  match env.getNumber "WORKQ_INITIAL_CAPACITY" with
  | .error e => .error e
  | .ok initial =>
    match env.getNumber "WORKQ_MAX_CAPACITY" with
    | .error e => .error e
    | .ok max =>
      match env.getNumber "WORKQ_POLL_INTERVAL_MS" with
      | .error e => .error e
      | .ok poll =>
        .ok
          { endpoint := env.get? "OTEL_ENDPOINT"
            logLevel := (env.get? "LOG_LEVEL").getD standard.logLevel
            queue :=
              { name := (env.get? "WORKQ_QUEUE_NAME").getD standard.queue.name
                initialCapacity := initial.getD standard.queue.initialCapacity
                maxCapacity := max
                pollInterval := poll.getD standard.queue.pollInterval } }

/-- The settings that the variables give, which are checked. -/
def ofEnvironment (env : Environment) : Except Error Settings :=
  match gather env with
  | .error e => .error e
  | .ok settings => settings.validated

end Settings

end Handoff
