/-
  The part of the Debug Adapter Protocol the adapter speaks.

  * the argument structs of the handled requests, with their decoders (members that no handler
    reads are checked for their type and dropped);
  * the responses and events the adapter sends.
-/
import DapDbgeng.Json

namespace DapDbgeng

/-! ## Enumerations -/

inductive SteppingGranularity where
  | statement | line | instruction
  deriving DecidableEq, Repr

inductive VariablesArgumentsFilter where
  | indexed | named
  deriving DecidableEq, Repr

inductive EvaluateArgumentsContext where
  | watch | repl | hover | clipboard | variables_
  deriving DecidableEq, Repr

inductive DataBreakpointAccessType where
  | read | write | readWrite
  deriving DecidableEq, Repr

inductive SourcePresentationHint where
  | normal | emphasize | deemphasize
  deriving DecidableEq, Repr

inductive ChecksumAlgorithm where
  | MD5 | SHA1 | SHA256 | timestamp
  deriving DecidableEq, Repr

inductive StoppedEventBodyReason where
  | step | breakpoint | exception | pause | entry
  deriving DecidableEq, Repr

inductive ThreadEventBodyReason where
  | started | exited
  deriving DecidableEq, Repr

inductive ProcessEventBodyStartMethod where
  | launch | attach
  deriving DecidableEq, Repr

inductive OutputEventBodyCategory where
  | console | important
  deriving DecidableEq, Repr

inductive BreakpointReason where
  | failed
  deriving DecidableEq, Repr

inductive ExceptionBreakMode where
  | always | unhandled
  deriving DecidableEq, Repr

inductive ScopePresentationHint where
  | locals | registers
  deriving DecidableEq, Repr

/-! ## Sources -/

structure Source where
  name : Option String := none
  path : Option String := none
  sourceReference : Option Int := none
  presentationHint : Option SourcePresentationHint := none
  origin : Option String := none
  sources : Option (List Source) := none
  adapterData : Option Json := none
  checksums : Option (List (ChecksumAlgorithm × String)) := none

namespace Json

mutual

/-- Nesting depth, a bound on how deep a `Source` can nest. -/
def depth : Json → Nat
  | .arr items => depthItems items + 1
  | .obj members => depthMembers members + 1
  | _ => 0

def depthItems : List Json → Nat
  | [] => 0
  | x :: xs => max (depth x) (depthItems xs)

def depthMembers : List (String × Json) → Nat
  | [] => 0
  | (_, v) :: rest => max (depth v) (depthMembers rest)

end

end Json

namespace Decoder

def checksum : Decoder (ChecksumAlgorithm × String) := fun j => do
  let algorithm ← field "algorithm" (enum "ChecksumAlgorithm"
    [("MD5", .MD5), ("SHA1", .SHA1), ("SHA256", .SHA256), ("timestamp", .timestamp)]) .MD5 j
  let checksum ← field "checksum" string "" j
  return (algorithm, checksum)

def sourceAt : Nat → Decoder Source
  | 0, _ => .ok {}
  | n + 1, j => do
    let name ← opt "name" string j
    let path ← opt "path" string j
    let sourceReference ← opt "sourceReference" int32 j
    let presentationHint ← opt "presentationHint" (enum "SourcePresentationHint"
      [("normal", .normal), ("emphasize", .emphasize), ("deemphasize", .deemphasize)]) j
    let origin ← opt "origin" string j
    let sources ← opt "sources" (array (sourceAt n)) j
    let checksums ← opt "checksums" (array checksum) j
    return { name, path, sourceReference, presentationHint, origin, sources,
             adapterData := j.find "adapterData", checksums }

def source : Decoder Source := fun j => sourceAt (j.depth + 1) j

/-- `ValueFormat`, which no handler reads. -/
def valueFormat : Decoder Unit := check "hex" boolean

/-- `StackFrameFormat`, which no handler reads. -/
def stackFrameFormat : Decoder Unit := fun j => do
  check "hex" boolean j
  check "parameters" boolean j
  check "parameterTypes" boolean j
  check "parameterNames" boolean j
  check "parameterValues" boolean j
  check "line" boolean j
  check "module" boolean j
  check "includeAll" boolean j

def granularity : Decoder SteppingGranularity := enum "SteppingGranularity"
  [("statement", .statement), ("line", .line), ("instruction", .instruction)]

end Decoder

/-! ## Arguments -/

structure StackTraceArguments where
  threadId : Int := 0
  startFrame : Option Int := none
  levels : Option Int := none

structure ScopesArguments where
  frameId : Int := 0

structure VariablesArguments where
  variablesReference : Int := 0
  filter : Option VariablesArgumentsFilter := none
  start : Option Int := none
  count : Option Int := none

structure SetVariableArguments where
  variablesReference : Int := 0
  name : String := ""
  value : String := ""

structure SourceBreakpoint where
  line : Int := 0
  column : Option Int := none
  condition : Option String := none
  hitCondition : Option String := none
  logMessage : Option String := none
  mode : Option String := none
  deriving DecidableEq

structure SetBreakpointsArguments where
  source : Source := {}
  breakpoints : Option (List SourceBreakpoint) := none
  lines : Option (List Int) := none

/-- The arguments of continue, next, stepIn and stepOut. -/
structure ExecutionArguments where
  threadId : Int := 0
  singleThread : Option Bool := none
  targetId : Option Int := none
  granularity : Option SteppingGranularity := none

structure ThreadArguments where
  threadId : Int := 0

structure EvaluateArguments where
  expression : String := ""
  frameId : Option Int := none
  line : Option Int := none
  column : Option Int := none
  source : Option Source := none
  context : Option EvaluateArgumentsContext := none

structure DisassembleArguments where
  memoryReference : String := ""
  offset : Option Int := none
  instructionOffset : Option Int := none
  instructionCount : Int := 0
  resolveSymbols : Option Bool := none

structure DisconnectArguments where
  restart : Option Bool := none
  terminateDebuggee : Option Bool := none
  suspendDebuggee : Option Bool := none

structure SourceArguments where
  source : Option Source := none

structure ModulesArguments where
  startModule : Option Int := none
  moduleCount : Option Int := none

structure ReadMemoryArguments where
  memoryReference : String := ""
  offset : Option Int := none
  count : Int := 0

structure WriteMemoryArguments where
  memoryReference : String := ""
  offset : Option Int := none
  data : String := ""

structure SetExpressionArguments where
  expression : String := ""
  value : String := ""
  frameId : Option Int := none

structure InstructionBreakpoint where
  instructionReference : String := ""
  offset : Option Int := none

structure DataBreakpoint where
  dataId : String := ""
  accessType : Option DataBreakpointAccessType := none

structure DataBreakpointInfoArguments where
  variablesReference : Option Int := none
  name : String := ""
  frameId : Option Int := none

namespace Decoder

def initializeArguments : Decoder Unit := fun j => do
  check "clientID" string j
  check "clientName" string j
  check "adapterID" string j
  check "locale" string j
  check "linesStartAt1" boolean j
  check "columnsStartAt1" boolean j
  check "pathFormat" (enum "InitializeRequestArgumentsPathFormat"
    [("path", ()), ("uri", ())]) j
  check "supportsVariableType" boolean j
  check "supportsVariablePaging" boolean j
  check "supportsRunInTerminalRequest" boolean j
  check "supportsMemoryReferences" boolean j
  check "supportsProgressReporting" boolean j
  check "supportsInvalidatedEvent" boolean j
  check "supportsMemoryEvent" boolean j
  check "supportsArgsCanBeInterpretedByShell" boolean j
  check "supportsStartDebuggingRequest" boolean j
  check "supportsANSIStyling" boolean j

/-- `LaunchRequestArguments`; the handler reads the raw arguments. -/
def launchArguments : Decoder Unit := check "noDebug" boolean

def stackTraceArguments : Decoder StackTraceArguments := fun j => do
  let threadId ← field "threadId" int32 0 j
  let startFrame ← opt "startFrame" int64 j
  let levels ← opt "levels" int64 j
  check "format" stackFrameFormat j
  return { threadId, startFrame, levels }

def scopesArguments : Decoder ScopesArguments := fun j => do
  let frameId ← field "frameId" int32 0 j
  return { frameId }

def variablesArguments : Decoder VariablesArguments := fun j => do
  let variablesReference ← field "variablesReference" int32 0 j
  let filter ← opt "filter" (enum "VariablesArgumentsFilter"
    [("indexed", .indexed), ("named", .named)]) j
  let start ← opt "start" int64 j
  let count ← opt "count" int64 j
  check "format" valueFormat j
  return { variablesReference, filter, start, count }

def setVariableArguments : Decoder SetVariableArguments := fun j => do
  let variablesReference ← field "variablesReference" int32 0 j
  let name ← field "name" string "" j
  let value ← field "value" string "" j
  check "format" valueFormat j
  return { variablesReference, name, value }

def sourceBreakpoint : Decoder SourceBreakpoint := fun j => do
  let line ← field "line" int64 0 j
  let column ← opt "column" int64 j
  let condition ← opt "condition" string j
  let hitCondition ← opt "hitCondition" string j
  let logMessage ← opt "logMessage" string j
  let mode ← opt "mode" string j
  return { line, column, condition, hitCondition, logMessage, mode }

def setBreakpointsArguments : Decoder SetBreakpointsArguments := fun j => do
  let source ← field "source" source {} j
  let breakpoints ← opt "breakpoints" (array sourceBreakpoint) j
  let lines ← opt "lines" (array int64) j
  check "sourceModified" boolean j
  return { source, breakpoints, lines }

def continueArguments : Decoder ExecutionArguments := fun j => do
  let threadId ← field "threadId" int32 0 j
  let singleThread ← opt "singleThread" boolean j
  return { threadId, singleThread }

/-- The arguments of next and stepOut. -/
def nextArguments : Decoder ExecutionArguments := fun j => do
  let threadId ← field "threadId" int32 0 j
  let singleThread ← opt "singleThread" boolean j
  let granularity ← opt "granularity" granularity j
  return { threadId, singleThread, granularity }

def stepInArguments : Decoder ExecutionArguments := fun j => do
  let threadId ← field "threadId" int32 0 j
  let singleThread ← opt "singleThread" boolean j
  let targetId ← opt "targetId" int32 j
  let granularity ← opt "granularity" granularity j
  return { threadId, singleThread, targetId, granularity }

/-- The arguments of pause and exceptionInfo. -/
def threadArguments : Decoder ThreadArguments := fun j => do
  let threadId ← field "threadId" int32 0 j
  return { threadId }

def terminateArguments : Decoder Unit := check "restart" boolean

def evaluateArguments : Decoder EvaluateArguments := fun j => do
  let expression ← field "expression" string "" j
  let frameId ← opt "frameId" int32 j
  let line ← opt "line" int64 j
  let column ← opt "column" int64 j
  let source ← opt "source" source j
  let context ← opt "context" (enum "EvaluateArgumentsContext"
    [("watch", .watch), ("repl", .repl), ("hover", .hover), ("clipboard", .clipboard),
      ("variables", .variables_)]) j
  check "format" valueFormat j
  return { expression, frameId, line, column, source, context }

def disassembleArguments : Decoder DisassembleArguments := fun j => do
  let memoryReference ← field "memoryReference" string "" j
  let offset ← opt "offset" int64 j
  let instructionOffset ← opt "instructionOffset" int64 j
  let instructionCount ← field "instructionCount" int64 0 j
  let resolveSymbols ← opt "resolveSymbols" boolean j
  return { memoryReference, offset, instructionOffset, instructionCount, resolveSymbols }

def disconnectArguments : Decoder DisconnectArguments := fun j => do
  let restart ← opt "restart" boolean j
  let terminateDebuggee ← opt "terminateDebuggee" boolean j
  let suspendDebuggee ← opt "suspendDebuggee" boolean j
  return { restart, terminateDebuggee, suspendDebuggee }

def sourceArguments : Decoder SourceArguments := fun j => do
  let source ← opt "source" source j
  check "sourceReference" int32 j
  return { source }

def modulesArguments : Decoder ModulesArguments := fun j => do
  let startModule ← opt "startModule" int32 j
  let moduleCount ← opt "moduleCount" int64 j
  return { startModule, moduleCount }

def readMemoryArguments : Decoder ReadMemoryArguments := fun j => do
  let memoryReference ← field "memoryReference" string "" j
  let offset ← opt "offset" int64 j
  let count ← field "count" int64 0 j
  return { memoryReference, offset, count }

def writeMemoryArguments : Decoder WriteMemoryArguments := fun j => do
  let memoryReference ← field "memoryReference" string "" j
  let offset ← opt "offset" int64 j
  check "allowPartial" boolean j
  let data ← field "data" string "" j
  return { memoryReference, offset, data }

def setExpressionArguments : Decoder SetExpressionArguments := fun j => do
  let expression ← field "expression" string "" j
  let value ← field "value" string "" j
  let frameId ← opt "frameId" int32 j
  check "format" valueFormat j
  return { expression, value, frameId }

/-- The names of the function breakpoints; a handler reads nothing else of them. -/
def functionBreakpoint : Decoder String := fun j => do
  let name ← field "name" string "" j
  check "condition" string j
  check "hitCondition" string j
  return name

def instructionBreakpoint : Decoder InstructionBreakpoint := fun j => do
  let instructionReference ← field "instructionReference" string "" j
  let offset ← opt "offset" int64 j
  check "condition" string j
  check "hitCondition" string j
  check "mode" string j
  return { instructionReference, offset }

def dataBreakpoint : Decoder DataBreakpoint := fun j => do
  let dataId ← field "dataId" string "" j
  let accessType ← opt "accessType" (enum "DataBreakpointAccessType"
    [("read", .read), ("write", .write), ("readWrite", .readWrite)]) j
  check "condition" string j
  check "hitCondition" string j
  return { dataId, accessType }

/-- The `breakpoints` array of the function, instruction and data breakpoint requests. -/
def breakpointsArguments {α : Type} (dec : Decoder α) : Decoder (List α) :=
  field "breakpoints" (array dec) []

/-- The enabled filters of `setExceptionBreakpoints`. -/
def exceptionFilterArguments : Decoder (List String) := fun j => do
  let filters ← field "filters" (array string) [] j
  check "filterOptions" (array fun o => do
    check "filterId" string o
    check "condition" string o
    check "mode" string o) j
  check "exceptionOptions" (array fun o => do
    check "path" (array fun p => do
      check "negate" boolean p
      check "names" (array string) p) o
    check "breakMode" (enum "ExceptionBreakMode"
      [("never", ()), ("always", ()), ("unhandled", ()), ("userUnhandled", ())]) o) j
  return filters

def dataBreakpointInfoArguments : Decoder DataBreakpointInfoArguments := fun j => do
  let variablesReference ← opt "variablesReference" int32 j
  let name ← field "name" string "" j
  let frameId ← opt "frameId" int32 j
  check "bytes" int64 j
  check "asAddress" boolean j
  check "mode" string j
  return { variablesReference, name, frameId }

/-! ## Requests without a handler

Their arguments are decoded before the request is refused. -/

def object (dec : Decoder Unit) : Decoder Unit
  | .obj members => members.forM fun m => dec m.2
  | j => typeError "object" j

def unhandledArguments : String → Decoder Unit
  | "breakpointLocations" => fun j => do
    check "source" source j
    check "line" int64 j
    check "column" int64 j
    check "endLine" int64 j
    check "endColumn" int64 j
  | "cancel" => fun j => do
    check "requestId" int32 j
    check "progressId" string j
  | "completions" => fun j => do
    check "frameId" int32 j
    check "text" string j
    check "column" int64 j
    check "line" int64 j
  | "goto" => fun j => do
    check "threadId" int32 j
    check "targetId" int32 j
  | "gotoTargets" => fun j => do
    check "source" source j
    check "line" int64 j
    check "column" int64 j
  | "locations" => check "locationReference" int32
  | "restartFrame" => check "frameId" int32
  | "reverseContinue" => fun j => do
    check "threadId" int32 j
    check "singleThread" boolean j
  | "runInTerminal" => fun j => do
    check "kind" (enum "RunInTerminalRequestArgumentsKind"
      [("integrated", ()), ("external", ())]) j
    check "title" string j
    check "cwd" string j
    check "args" (array string) j
    check "env" (object fun v => (string v).map fun _ => ()) j
    check "argsCanBeInterpretedByShell" boolean j
  | "startDebugging" => fun j => do
    check "configuration" (object fun _ => .ok ()) j
    check "outputPresentation" (enum "StartDebuggingRequestArgumentsOutputPresentation"
      [("separate", ()), ("mergeWithParent", ())]) j
    check "request" (enum "StartDebuggingRequestArgumentsRequest"
      [("launch", ()), ("attach", ())]) j
  | "stepBack" => fun j => do
    check "threadId" int32 j
    check "singleThread" boolean j
    check "granularity" granularity j
  | "stepInTargets" => check "frameId" int32
  | "terminateThreads" => check "threadIds" (array int32)
  | _ => fun _ => .ok ()

end Decoder

/-- The members every request struct starts with. -/
structure RequestHead where
  seq : Int
  command : String

namespace Decoder

/-- `seq`, `type` and `command`; `name` is the struct's default command. -/
def requestHead (name : String) : Decoder RequestHead := fun j => do
  let seq ← field "seq" int32 0 j
  check "type" (enum "ProtocolMessageType"
    [("request", ()), ("response", ()), ("event", ())]) j
  let command ← field "command" string name j
  return { seq, command }

end Decoder

end DapDbgeng
