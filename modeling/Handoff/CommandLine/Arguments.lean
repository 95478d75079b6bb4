/-
Handoff.CommandLine.Arguments — what the arguments of the program ask for.

The arguments name one of three commands and give options. An option with a value takes it after an
equals sign or from the next argument, which then must not look like an option; a flag takes none.
No option may be given twice, except that `--config` may stand once before the command and once
after it, where the second counts.
-/
import Handoff.Settings
import Handoff.Text.Decimal

namespace Handoff.CommandLine

/-! ## §1 Invocations -/

/-- The options that change the settings of the queue. -/
structure Overrides where
  initialCapacity : Option Nat
  maxCapacity : Option Nat
  deriving DecidableEq, Repr

/-- What the program is to do. -/
inductive Task where
  /-- Pushes a load through a queue and prints figures, as JSON if `json`. -/
  | run (producers items : Nat) (json : Bool) (overrides : Overrides)
  /-- Pushes the lines of the input through a queue and prints their lengths. -/
  | pipe (overrides : Overrides)
  /-- Prints the settings. -/
  | config
  deriving DecidableEq, Repr

/-- What the program is to do, and the file that its settings come from. -/
structure Invocation where
  config : Option String
  task : Task
  deriving DecidableEq, Repr

/-- The settings with what the options override. -/
def Overrides.apply (o : Overrides) (s : Settings) : Settings :=
  { s with
    queue := { s.queue with
      initialCapacity := o.initialCapacity.getD s.queue.initialCapacity
      maxCapacity := o.maxCapacity.or s.queue.maxCapacity } }

/-! ## §2 Options -/

/-- The commands. -/
inductive Verb where
  | run
  | pipe
  | config
  deriving DecidableEq, Repr

/-- The command that an argument names. -/
def verb? (argument : String) : Option Verb :=
  if argument = "run" then some .run
  else if argument = "pipe" then some .pipe
  else if argument = "config" then some .config
  else none

/-- The options. -/
inductive OptionName where
  | config
  | producers
  | items
  | json
  | initialCapacity
  | maxCapacity
  deriving DecidableEq, Repr

/-- The options that there are before a command, and after each. -/
def optionsOf : Option Verb → List (String × OptionName)
  | none => [("--config", .config)]
  | some .run =>
    [("--config", .config), ("--producers", .producers), ("--items", .items), ("--json", .json),
      ("--initial-capacity", .initialCapacity), ("--max-capacity", .maxCapacity)]
  | some .pipe =>
    [("--config", .config), ("--initial-capacity", .initialCapacity),
      ("--max-capacity", .maxCapacity)]
  | some .config => [("--config", .config)]

/-- The options that were given, with their values; a flag has none. -/
abbrev Given := List (OptionName × String)

/-- The part of an argument before the first equals sign, and the part after it if there is one. -/
def splitEquals (argument : List Char) : List Char × Option (List Char) :=
  (argument.takeWhile (· != '='), (argument.dropWhile (· != '=')).tail?)

/-- Whether an argument looks like an option. A single dash does not. -/
def looksLikeOption (argument : String) : Bool := argument.startsWith "-" && argument != "-"

/-- Whether an option accepts a value. -/
def accepts : OptionName → String → Bool
  | .config, value => !value.isEmpty
  | .json, _ => false
  | _, value => (Text.word? value.toList).isSome

/-- Adds an option that was not given yet, with a value that it accepts. -/
def giveValue (given : Given) (name : OptionName) (value : String) : Option Given :=
  if (given.lookup name).isSome || !accepts name value then none
  else some ((name, value) :: given)

/-- Adds a flag that was not given yet. -/
def giveFlag (given : Given) (name : OptionName) : Option Given :=
  if (given.lookup name).isSome then none else some ((name, "") :: given)

/-- Reads options up to the first argument that is none. With it, what was given is returned, and the
arguments from it on; a double dash ends the options and is no argument itself. -/
def readOptions (verb : Option Verb) :
    Given → List String → Option (Given × Bool × List String)
  | given, [] => some (given, false, [])
  | given, argument :: rest =>
    if argument = "--" then some (given, true, rest)
    else if !looksLikeOption argument then some (given, false, argument :: rest)
    else
      let (name, value) := splitEquals argument.toList
      match (optionsOf verb).lookup (String.ofList name) with
      | none => none
      | some .json =>
        match value with
        | some _ => none
        | none => (giveFlag given .json).bind fun more => readOptions verb more rest
      | some option =>
        match value with
        | some v => (giveValue given option (String.ofList v)).bind fun more =>
            readOptions verb more rest
        | none =>
          match rest with
          | [] => none
          | next :: others =>
            if looksLikeOption next then none
            else (giveValue given option next).bind fun more => readOptions verb more others

/-! ## §3 Arguments -/

/-- The number that was given for an option. -/
def Given.number? (given : Given) (name : OptionName) : Option Nat :=
  (given.lookup name).bind fun value => Text.word? value.toList

/-- The overrides that were given. -/
def Given.overrides (given : Given) : Overrides :=
  ⟨given.number? .initialCapacity, given.number? .maxCapacity⟩

/-- What a command with these options is to do. -/
def Given.task (given : Given) : Verb → Task
  | .run =>
    .run ((given.number? .producers).getD 2) ((given.number? .items).getD 1000)
      (given.lookup .json).isSome given.overrides
  | .pipe => .pipe given.overrides
  | .config => .config

/-- What the arguments ask for, unless they are wrong. -/
def parse (arguments : List String) : Option Invocation :=
  match readOptions none [] arguments with
  | some (before, false, name :: rest) =>
    match verb? name with
    | none => none
    | some verb =>
      match readOptions (some verb) [] rest with
      | some (after, _, []) =>
        some ⟨(after.lookup .config).or (before.lookup .config), after.task verb⟩
      | _ => none
  | _ => none

end Handoff.CommandLine
