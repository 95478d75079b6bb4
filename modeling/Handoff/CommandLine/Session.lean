/-
Handoff.CommandLine.Session — what the program does when it is called.

The environment is first completed by the environment file. Then the settings are loaded, from the
file that the arguments name or else from the environment, the options override some of them, and the
task is done. Everything that the program reads is an argument here, and everything that it writes is
in the result.
-/
import Handoff.CommandLine.Arguments
import Handoff.CommandLine.Endpoint
import Handoff.CommandLine.Report
import Handoff.EnvironmentFile
import Handoff.Pipeline.Feeds
import Handoff.Settings.Document

namespace Handoff.CommandLine

/-! ## §1 What is read and written -/

/-- What the program reads. -/
structure Inputs where
  environment : Environment
  /-- The environment file, if there is one. -/
  environmentFile : Option (List UInt8)
  /-- The file that the arguments name, if they name one. -/
  configFile : Except Settings.ReadFault (List UInt8)
  standardInput : List UInt8

/-- What the program writes, and the number that it ends with. -/
structure Result where
  code : Nat
  output : String
  complaint : String
  deriving DecidableEq, Repr

/-- A run that went well. -/
def Result.success (output : String) : Result := ⟨0, output, ""⟩

/-- A run that ended with an error; something may have been written before. -/
def Result.failure (output message : String) : Result := ⟨1, output, "Error: " ++ message ++ "\n"⟩

/-- A run that could not go on; what it says is about the program and not about its task. -/
def Result.crash (message : String) : Result := ⟨101, "", message ++ "\n"⟩

/-- A call with wrong arguments. -/
def Result.usage : Result := ⟨2, "", "wrong arguments\n"⟩

/-- The message of an error with the cause below it. -/
def explain (e : Error) : String :=
  match e.source? with
  | none => e.message
  | some cause => e.message ++ "\n\nCaused by:\n    " ++ cause

/-! ## §2 Tasks -/

/-- The memory of the program's queues. -/
def memory : Memory := .ofSlotBytes 32

/-- The number of bytes of a producer's handle, which is a pointer. -/
def handleBytes : Nat := 8

/-- The figures of a load whose consumer has made its report. -/
def figuresOf (p : Pipeline) (report : Report) : Figures where
  queue := p.queue.stats
  consumer := report
  payloadBytes := p.items.foldl (fun bytes item => bytes + UInt64.ofNat item.length) 0

/-- What is written at the end of a load. -/
def loadResult (json : Bool) (p : Pipeline) : Result :=
  match p.error?, p.report? with
  | some e, _ => .failure "" (explain e)
  | none, some report =>
    .success (if json then (figuresOf p report).json else (figuresOf p report).lines)
  | none, none => .failure "" "the consumer has not ended"

/-- Pushes a load through a queue. The program waits for each producer by a handle, and keeps the
handles in one block of memory; if there can be no block for so many, it stops before any producer
begins. -/
def runLoad (memory : Memory) (handleBytes : Nat) (s : QueueSettings) (producers items : Nat)
    (json : Bool) : Result :=
  match Queue.ofSettings memory s with
  | .error e => .failure "" (explain e)
  | .ok queue =>
    if maxBlockBytes < producers * handleBytes then .crash "capacity overflow"
    else
      loadResult json
        ((Pipeline.ofFeeds queue s.pollInterval (loadFeeds producers items)).run memory)

/-- The line that is printed for an item. -/
def itemLine (item : WorkItem) : String := s!"{item.tag}\t{item.length}\n"

/-- What has been printed of the lines. -/
def printedLines (p : Pipeline) : String := String.join (p.items.map itemLine)

/-- What is written at the end of the lines; there may be one that could not be read. -/
def linesResult (fault : Option Text.Utf8Fault) (p : Pipeline) : Result :=
  match p.error?, fault with
  | some e, _ => .failure (printedLines p) (explain e)
  | none, some f => .failure (printedLines p) f.message
  | none, none => .success (printedLines p)

/-- Pushes the lines of the input through a queue. -/
def runLines (memory : Memory) (s : QueueSettings) (input : List UInt8) : Result :=
  match Queue.ofSettings memory s with
  | .error e => .failure "" (explain e)
  | .ok queue =>
    let (lines, fault) := readLines (Text.cutLines input)
    linesResult fault
      ((Pipeline.ofFeeds queue s.pollInterval [lineFeedOf lines.toArray]).run memory)

/-- The message for an address to which telemetry cannot be exported. -/
def exportFault? (endpoint : Option String) : Option String :=
  match endpoint with
  | none => none
  | some address =>
    match Address.check address with
    | .ok () => none
    | .error f =>
      some ("failed to create OTLP span exporter: invalid URI " ++ address ++ ". Reason " ++
        f.message)

/-- Starts telemetry and goes on if that succeeds. -/
def withTelemetry (s : Settings) (next : Result) : Result :=
  match exportFault? s.endpoint with
  | some message => .failure "" message
  | none => next

/-- Does a task with settings. -/
def perform (s : Settings) (input : List UInt8) : Task → Result
  | .run producers items json overrides =>
    let t := overrides.apply s
    withTelemetry t (runLoad memory handleBytes t.queue producers items json)
  | .pipe overrides =>
    let t := overrides.apply s
    withTelemetry t (runLines memory t.queue input)
  | .config =>
    match s.document? with
    | some text => .success (text ++ "\n")
    | none => .failure "" "out-of-range value for u64 type"

/-! ## §3 The program -/

/-- The settings of an invocation. -/
def settingsOf (invocation : Invocation) (inputs : Inputs) : Except Error Settings :=
  match invocation.config with
  | some path => Settings.ofFile path inputs.configFile
  | none => Settings.ofEnvironment (EnvironmentFile.load inputs.environment inputs.environmentFile)

/-- What the program does for an invocation. -/
def execute (invocation : Invocation) (inputs : Inputs) : Result :=
  match settingsOf invocation inputs with
  | .error e => .failure "" (explain e)
  | .ok s => perform s inputs.standardInput invocation.task

end Handoff.CommandLine
