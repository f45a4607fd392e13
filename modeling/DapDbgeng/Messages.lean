/-
  What the adapter sends, and the factory functions that build it.
-/
import DapDbgeng.Protocol

namespace DapDbgeng

/-! ## Debugger types -/

/-- A resolved source position (file path + 1-based line). -/
structure SourceLocation where
  path : String
  line : Int
  deriving DecidableEq

structure DisassembledInstructionInfo where
  address : Nat := 0
  instruction : String := ""
  instructionBytes : Option String := none
  symbol : Option String := none
  source : Option SourceLocation := none
  isInvalid : Bool := false

structure NamedValueInfo where
  name : String
  value : String

/-- A local variable as a tree node, so structured values can be expanded. -/
structure VariableNode where
  name : String := ""
  value : String := ""
  type : String := ""
  isExpandable : Bool := false
  address : Nat := 0
  size : Nat := 0
  children : List VariableNode := []

structure ModuleInfo where
  name : String
  imagePath : String
  base : Nat
  size : Nat
  symbolStatus : String

structure LastExceptionInfo where
  code : Nat
  address : Nat
  firstChance : Bool
  deriving DecidableEq

structure DataBreakpointSpec where
  address : Nat
  size : Nat
  breakOnRead : Bool

structure StackFrameInfo where
  frameNumber : Nat := 0
  instructionOffset : Nat := 0
  name : Option String := none
  source : Option SourceLocation := none

structure StackTraceDetails where
  frames : List StackFrameInfo := []
  totalFrames : Int := 0

structure SourceBreakpointSpec where
  line : Int
  condition : Option String := none
  deriving DecidableEq

structure SourceBreakpointResult where
  id : Option Int := none
  line : Int := 0
  verified : Bool := false
  message : Option String := none

/-! ## Bodies -/

structure Thread where
  id : Int
  name : String

structure Variable where
  name : String := ""
  value : String := ""
  type : Option String := none
  evaluateName : Option String := none
  variablesReference : Int := 0
  namedVariables : Option Int := none
  indexedVariables : Option Int := none
  memoryReference : Option String := none
  valueLocationReference : Option Int := none

structure Scope where
  name : String
  presentationHint : ScopePresentationHint
  variablesReference : Int
  namedVariables : Int
  expensive : Bool := false
  source : Option Source := none
  line : Option Int := none
  column : Option Int := none

structure StackFrame where
  id : Int
  name : String
  source : Option Source
  line : Int
  column : Int
  instructionPointerReference : String

structure Breakpoint where
  id : Option Int := none
  verified : Bool := false
  message : Option String := none
  source : Option Source := none
  line : Option Int := none
  column : Option Int := none
  instructionReference : Option String := none
  reason : Option BreakpointReason := none

structure Module where
  id : String
  name : String
  path : String
  symbolStatus : String
  addressRange : String

structure DisassembledInstruction where
  address : String
  instructionBytes : Option String
  instruction : String
  symbol : Option String
  location : Option Source
  line : Option Int := none
  column : Option Int := none
  invalid : Bool := false

/-- A capability and whether it is supported. -/
abbrev Capabilities := List (String × Bool)

structure ExceptionBreakpointsFilter where
  filter : String
  label : String
  description : String
  default : Bool

structure StoppedEventBody where
  reason : StoppedEventBodyReason
  description : Option String := none
  threadId : Option Int := none
  allThreadsStopped : Bool := true
  hitBreakpointIds : Option (List Int) := none
  deriving DecidableEq

inductive Event where
  | initialized
  | process (name : String) (systemProcessId : Option Int) (isLocalProcess : Bool)
      (startMethod : ProcessEventBodyStartMethod)
  | stopped (body : StoppedEventBody)
  | continued (threadId : Int) (allThreadsContinued : Bool)
  | exited (exitCode : Int)
  | terminated
  | thread (reason : ThreadEventBodyReason) (threadId : Int)
  | output (category : OutputEventBodyCategory) (output : String)
  deriving DecidableEq

inductive Body where
  | empty
  | error (id : Int) (format : String) (showUser : Bool)
  | capabilities (supports : Capabilities) (filters : List ExceptionBreakpointsFilter)
  | threads (threads : List Thread)
  | stackTrace (stackFrames : List StackFrame) (totalFrames : Int)
  | scopes (scopes : List Scope)
  | variables_ (values : List Variable)
  | setVariable (value : String) (type : Option String) (variablesReference : Option Int)
      (namedVariables indexedVariables : Option Int) (memoryReference : Option String)
      (valueLocationReference : Option Int)
  | setExpression (value : String) (type : Option String)
  | evaluate (result : String) (variablesReference : Int)
  | breakpoints (breakpoints : List Breakpoint)
  | continue_ (allThreadsContinued : Bool)
  | disassemble (instructions : List DisassembledInstruction)
  | source (content : String)
  | modules (modules : List Module) (totalModules : Int)
  | readMemory (address : String) (unreadableBytes : Option Int) (data : String)
  | writeMemory (bytesWritten : Int)
  | exceptionInfo (exceptionId description : String) (breakMode : ExceptionBreakMode)
      (details : String)
  | dataBreakpointInfo (dataId description : String)
      (accessTypes : List DataBreakpointAccessType) (canPersist : Bool)

structure Response where
  requestSeq : Int
  success : Bool
  command : String
  body : Body

inductive Message where
  | response (r : Response)
  | event (e : Event)

namespace Message

def asResponse : Message → Option Response
  | .response r => some r
  | .event _ => none

@[simp] theorem asResponse_response (r : Response) : asResponse (.response r) = some r := rfl
@[simp] theorem asResponse_event (e : Event) : asResponse (.event e) = none := rfl

end Message

/-! ## Factory -/

namespace Factory

open Text

def int32Max : Int := 2147483647

/-- `static_cast<int>` of a 32-bit value. -/
def toInt32 (n : Nat) : Int := (n : Int).bmod (2 ^ 32)

/-- `static_cast<std::uint32_t>` of an `int`. -/
def toUInt32 (i : Int) : Nat := (i % 2 ^ 32).toNat

/-- The thread list; a thread id beyond the range of `int` is an error. -/
def createThreads (currentThreadId : Option Int) : List Nat → Except String (List Thread)
  | [] => .ok []
  | threadId :: rest =>
    if (threadId : Int) > int32Max then
      .error "Value was either too large or too small for an Int32."
    else do
      let name := if currentThreadId = some (threadId : Int) then s!"Thread {threadId} (current)"
        else s!"Thread {threadId}"
      let threads ← createThreads currentThreadId rest
      return { id := threadId, name } :: threads

def createProcessEvent (name : String) (processId : Option Int)
    (startMethod : ProcessEventBodyStartMethod) : Event :=
  .process name processId true startMethod

def createStoppedEvent (reason : StoppedEventBodyReason) (description : Option String)
    (threadId : Option Int) (hitBreakpointIds : Option (List Int) := none) : Event :=
  .stopped { reason, description, threadId, hitBreakpointIds }

def createOutputEvent (output : String)
    (category : OutputEventBodyCategory := .console) : Event := .output category output

/-- One byte of the FNV-1a hash. -/
def mixByte (hash : UInt32) (byte : UInt32) : UInt32 := (hash ^^^ byte) * 16777619

def mix (hash value : UInt32) : UInt32 :=
  ([0, 8, 16, 24] : List UInt32).foldl (fun h shift => mixByte h ((value >>> shift) &&& 0xff)) hash

def createFrameId (threadId : Int) (frameNumber : Nat) : Int :=
  let hash := mix (mix 2166136261 (UInt32.ofNat (toUInt32 threadId))) (UInt32.ofNat frameNumber)
  let id := (hash &&& 0x7fffffff).toNat
  if id = 0 then 1 else id

def createSource (source : Option SourceLocation) : Option Source :=
  source.map fun s => { name := some (fileName s.path), path := some s.path }

def formatAddress (address : Nat) : String := "0x" ++ hexUpper address

def createStackFrame (threadId : Int) (frame : StackFrameInfo) : StackFrame :=
  let name := frame.name.getD ""
  { id := createFrameId threadId frame.frameNumber
    name := if isBlank name then formatAddress frame.instructionOffset else name
    source := createSource frame.source
    line := (frame.source.map SourceLocation.line).getD 0
    column := if frame.source.isSome then 1 else 0
    instructionPointerReference := formatAddress frame.instructionOffset }

def createDisassembledInstruction (i : DisassembledInstructionInfo) : DisassembledInstruction :=
  { address := formatAddress i.address
    instructionBytes := i.instructionBytes
    instruction := i.instruction
    symbol := i.symbol
    location := createSource i.source
    line := i.source.map SourceLocation.line
    column := i.source.map fun _ => 1
    invalid := i.isInvalid }

end Factory

end DapDbgeng
