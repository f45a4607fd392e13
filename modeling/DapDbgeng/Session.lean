/-
  The methods of `debugger_session`.

  They run on the dispatcher thread, all but `interrupt`.  What the engine is asked and how its
  failures become exceptions is as in the source; the buffers behind one query, and what is read of
  one decoded instruction, are one call here.
-/
import DapDbgeng.Disassembly
import DapDbgeng.Ops
import Mathlib.Data.List.Sort

namespace DapDbgeng

namespace Session

/-! ## Checks -/

/-- Throw with the failing HRESULT. -/
def checkHr {α : Type} (r : Reply α) (message : String) : Dap α :=
  match r with
  | .ok a => return a
  | .error hr => throwRuntime (message ++ ". HRESULT=0x" ++ Text.hex08 hr)

def throwIfDisposed (id : SessionId) : Dap Unit := do
  let s ← readSession id
  if s.disposed then throwRuntime "debugger_session has been disposed." else return

def throwIfNullOrWhitespace (value what : String) : Dap Unit :=
  if value.toList.all Text.isSpace then
    throwRuntime (what ++ " must not be null or whitespace.")
  else return

/-! ## Output capture -/

def beginOutputCapture (id : SessionId) (suppress : Bool) : Dap Unit := do
  let s ← readSession id
  if s.outputCapture.isSome then
    throwRuntime "A debugger output capture is already in progress."
  else updateSession id (.beginCapture suppress)

def endOutputCapture (id : SessionId) : Dap String := do
  let s ← readSession id
  updateSession id .endCapture
  return (s.outputCapture.map Text.trimEnd).getD ""

def discardOutputCapture (id : SessionId) : Dap Unit := updateSession id .endCapture

/-- `on_output_received`. -/
def onOutputReceived (output : String) : Dap Unit :=
  if output.isEmpty then return
  else send (.event (Factory.createOutputEvent output))

def handleOutputReceived (id : SessionId) (text : String) : Dap Unit := do
  let s ← readSession id
  updateSession id (.appendCapture text)
  if s.outputCapture.isNone || !s.suppressCapturedOutputForwarding then onOutputReceived text
  else return

/-! ## Commands -/

/-- `IDebugControl::Execute` with the output it prints. -/
def execute (id : SessionId) (command : Command) : Dap (Reply Unit) := do
  let r ← if (Call.execute command).pump?.isSome then pumpCall id (.execute command)
    else call id (.execute command)
  .forEach (handleOutputReceived id) (r.output.filter fun text => !text.isEmpty)
  return r.status

def executeDebuggerCommand (id : SessionId) (command : Command) (message : String) :
    Dap Unit := do
  throwIfDisposed id
  let r ← execute id command
  checkHr r message

def executeCommandWithOutput (id : SessionId) (command : Command)
    (suppressOutputEvents : Bool := true) : Dap String := do
  throwIfDisposed id
  throwIfNullOrWhitespace command.render "command"
  beginOutputCapture id suppressOutputEvents
  Concurrent.Prog.catching
    (do
      executeDebuggerCommand id command
        ("Could not execute debugger command '" ++ command.render ++ "'")
      endOutputCapture id)
    fun e => do
      discardOutputCapture id
      .throw e

/-! ## Execution -/

/-- `continue_`, `step_into`, `step_over` and `step_out`: resuming forgets the last exception. -/
def resume (id : SessionId) (command : Command) (message : String) : Dap Unit := do
  updateSession id (.lastException none)
  executeDebuggerCommand id command message

def continue_ (id : SessionId) : Dap Unit := resume id .go "Could not continue execution"
def stepInto (id : SessionId) : Dap Unit := resume id .stepInto "Could not step into"
def stepOver (id : SessionId) : Dap Unit := resume id .stepOver "Could not step over"
def stepOut (id : SessionId) : Dap Unit := resume id .stepOut "Could not step out"

def enableInstructionStepping (id : SessionId) : Dap Unit := do
  throwIfDisposed id
  executeDebuggerCommand id .instructionStepping "Could not enable instruction stepping"

def enableSourceLineStepping (id : SessionId) : Dap Unit := do
  throwIfDisposed id
  executeDebuggerCommand id .sourceStepping "Could not enable source-based stepping"

def interrupt (id : SessionId) : Dap Unit := do
  throwIfDisposed id
  let r ← call id .setInterrupt
  checkHr r "Could not interrupt target"

def waitForEvent (id : SessionId) : Dap Unit := do
  throwIfDisposed id
  let r ← pumpCall id .waitForEvent
  checkHr r "WaitForEvent failed"

/-! ## Threads -/

/-- The system ids by index. -/
def readThreadIds (id : SessionId) : Dap (List Nat) := do
  let r ← call id .numberThreads
  let count ← checkHr r "Could not enumerate threads"
  if count = 0 then return []
  else do
    let r ← call id (.threadIdsByIndex count)
    checkHr r "Could not read thread ids"

def getThreadIds (id : SessionId) : Dap (List Nat) := do
  throwIfDisposed id
  readThreadIds id

def getCurrentThreadId (id : SessionId) : Dap Nat := do
  throwIfDisposed id
  let r ← call id .currentThreadId
  let engineThreadId ← checkHr r "Could not read current thread id"
  let systemIds ← readThreadIds id
  match systemIds[engineThreadId]? with
  | some systemId => return systemId
  | none => throwRuntime s!"Current engine thread id {engineThreadId} is out of range."

def setCurrentThreadUser (id : SessionId) (systemThreadId : Nat) : Dap Unit := do
  let r ← call id (.threadIdBySystemId systemThreadId)
  let engineThreadId ← checkHr r "Could not resolve engine thread id"
  let r ← call id (.setCurrentThreadId engineThreadId)
  checkHr r "Could not select thread"

def setCurrentThreadKernel (id : SessionId) (systemThreadId : Nat) : Dap Unit := do
  let systemIds ← readThreadIds id
  match systemIds.findIdx? (· = systemThreadId) with
  | none => throwRuntime s!"Thread id {systemThreadId} is not a current kernel processor context."
  | some index => do
    let r ← call id (.setCurrentThreadId index)
    checkHr r "Could not select thread"

def setCurrentThread (id : SessionId) (systemThreadId : Nat) : Dap Unit := do
  throwIfDisposed id
  let s ← readSession id
  if s.isKernel then setCurrentThreadKernel id systemThreadId
  else setCurrentThreadUser id systemThreadId

/-! ## Symbols and source -/

def setSymbolPath (id : SessionId) (paths : List String) : Dap Unit := do
  throwIfDisposed id
  let r ← call id (.setSymbolPath (";".intercalate paths))
  checkHr r "Could not set symbol path"

def setSourcePath (id : SessionId) (paths : List String) : Dap Unit := do
  throwIfDisposed id
  executeDebuggerCommand id (.sourcePath (";".intercalate paths)) "Could not set source path"

def enableSourceLineSupport (id : SessionId) : Dap Unit := do
  throwIfDisposed id
  executeDebuggerCommand id .lines "Could not enable source line support"
  enableSourceLineStepping id

def getModules (id : SessionId) : Dap (List ModuleInfo) := do
  throwIfDisposed id
  let r ← call id .modules
  checkHr r "Could not enumerate modules"

/-! ## Stack, variables and memory -/

def getStackTraceFetchCount (totalFrames maxFrames : Int) : Dap Int :=
  if totalFrames < 0 then throwRuntime "totalFrames"
  else if maxFrames < 0 then throwRuntime "maxFrames"
  else return min totalFrames maxFrames

/-- The frames a walk has room for. -/
def kMaxStackDepth : Nat := 1024

def getStackTraceDetails (id : SessionId) (maxFrames : Int) : Dap StackTraceDetails := do
  throwIfDisposed id
  if maxFrames < 0 then throwRuntime "maxFrames"
  else do
    let r ← call id .stackTrace
    let stack ← checkHr r "Could not enumerate stack trace"
    let frames := stack.take kMaxStackDepth
    let totalFrames : Int := frames.length
    let fetchCount ← getStackTraceFetchCount totalFrames maxFrames
    return { frames := frames.take fetchCount.toNat, totalFrames }

def getStackTrace (id : SessionId) (maxFrames : Int) : Dap (List StackFrameInfo) := do
  let details ← getStackTraceDetails id maxFrames
  return details.frames

/-- Strip WinDbg's "0n" decimal display prefix; other value formats pass through unchanged. -/
def normalizeValueText (value : String) : String :=
  match value.toList with
  | '0' :: n :: d :: rest =>
    let digits := if d = '+' ∨ d = '-' then rest else d :: rest
    if (n = 'n' ∨ n = 'N') ∧ ¬digits.isEmpty ∧ digits.all (Text.isDigitIn 10) then
      String.ofList (d :: rest)
    else value
  | _ => value

def getLocals (id : SessionId) (frameNumber : Nat) : Dap (List NamedValueInfo) := do
  throwIfDisposed id
  let _ ← executeCommandWithOutput id (.frame frameNumber)
  let group ← call id .scopeLocals
  match group with
  | none => return []
  | some symbols =>
    return (symbols.filter fun v => !v.name.isEmpty).map fun v =>
      { v with value := normalizeValueText v.value }

/-- Link the symbols from the last to the first: a symbol with a parent is put in front of its
parent's children, one without becomes a root. -/
def linkSymbols (symbols : List FlatSymbol) : List VariableNode :=
  let node (s : FlatSymbol) : VariableNode :=
    { name := s.name, value := normalizeValueText s.value, type := s.type
      isExpandable := s.isExpandable, address := s.address, size := s.size }
  let nodes := symbols.map node
  let linked := (List.range symbols.length).reverse.foldl (fun (ns : List VariableNode) idx =>
    match symbols[idx]?.bind FlatSymbol.parent, ns[idx]? with
    | some parent, some child =>
      ns.modify parent fun p => { p with children := child :: p.children }
    | _, _ => ns) nodes
  (symbols.zip linked).filterMap fun p => if p.1.parent.isNone then some p.2 else none

def getLocalsTree (id : SessionId) (frameNumber : Nat) : Dap (List VariableNode) := do
  throwIfDisposed id
  let _ ← executeCommandWithOutput id (.frame frameNumber)
  let group ← call id .scopeSymbols
  match group with
  | none => return []
  | some symbols => return linkSymbols symbols

/-- The part of an expression after its last `.` or `]`. -/
def displayName (expression : String) : String :=
  String.ofList ((expression.toList.reverse.takeWhile fun c => c != '.' && c != ']').reverse)

/-- Scope to the frame and add the expression to the scope symbol group. -/
def openScopeSymbolGroup (id : SessionId) (frameNumber : Nat) (expression : String) :
    Dap Unit := do
  let _ ← executeCommandWithOutput id (.frame frameNumber)
  let outcome ← call id (.openSymbol expression)
  match outcome with
  | .noGroup => throwRuntime "Could not open the scope symbol group."
  | .noInterface => throwRuntime "Could not access the scope symbol group."
  | .unresolved => throwRuntime ("Could not resolve '" ++ expression ++ "' in the current frame.")
  | .opened => return

def createSymbolNode (id : SessionId) (expression : String) : Dap VariableNode := do
  let s ← call id (.readSymbol expression)
  return { name := displayName expression, value := normalizeValueText s.value, type := s.type
           isExpandable := s.isExpandable }

def setLocalValue (id : SessionId) (frameNumber : Nat) (expression value : String) :
    Dap VariableNode := do
  throwIfDisposed id
  openScopeSymbolGroup id frameNumber expression
  let r ← call id (.writeSymbol expression value)
  checkHr r ("Could not assign '" ++ value ++ "' to '" ++ expression ++ "'")
  createSymbolNode id expression

def getLocalValue (id : SessionId) (frameNumber : Nat) (expression : String) :
    Dap VariableNode := do
  throwIfDisposed id
  openScopeSymbolGroup id frameNumber expression
  let node ← createSymbolNode id expression
  if node.type.isEmpty then
    throwRuntime ("Could not resolve '" ++ expression ++ "' in the current frame.")
  else return node

def getSymbolAddress (id : SessionId) (frameNumber : Nat) (expression : String) :
    Dap (Nat × Nat) := do
  throwIfDisposed id
  openScopeSymbolGroup id frameNumber expression
  let offset ← call id (.symbolOffset expression)
  match offset with
  | none | some 0 =>
    throwRuntime ("'" ++ expression ++ "' has no memory address (it may be enregistered).")
  | some offset => do
    let size ← call id (.symbolSize expression)
    match size with
    | none | some 0 => throwRuntime ("Could not determine the size of '" ++ expression ++ "'.")
    | some size => return (offset, size)

def getRegisters (id : SessionId) (frameNumber : Nat) : Dap (List NamedValueInfo) := do
  throwIfDisposed id
  let inScope ← call id (.setScopeFrame frameNumber)
  if !inScope then return []
  else call id .registers

/-! ### Code -/

section

/-- An `int` that overflows, which leaves the result undefined, is an exception. -/
def checked {α : Type} : Except String α → Dap α
  | .ok a => return a
  | .error message => throwRuntime message

variable (id : SessionId) (resolveSymbols : Bool)

def disassembleOne (address : Nat) : Dap (Option (DisassembledInstructionInfo × Nat)) :=
  call id (.disassembleOne address resolveSymbols)

def disassembleRange (start : Nat) : Nat → Dap (List DisassembledInstructionInfo)
  | 0 => return []
  | count + 1 => do
    match ← disassembleOne id resolveSymbols start with
    | none => return []
    | some (info, next) => do
      let rest ← disassembleRange next count
      return info :: rest

/-- The instructions from `address` that end exactly at `endAddress`; each decoded one is a step of
the fuel and at least a byte nearer to the end. -/
def alignedRange (endAddress : Nat) :
    Nat → Nat → Dap (Option (List DisassembledInstructionInfo))
  | 0, _ => return none
  | fuel + 1, address => do
    match ← disassembleOne id resolveSymbols address with
    | none => return none
    | some (info, next) =>
      if next = endAddress then return some [info]
      else if next ≤ address ∨ endAddress < next then return none
      else do
        let rest ← alignedRange endAddress fuel next
        return rest.map (info :: ·)

/-- The instructions from the first probe that decodes up to `endAddress`. -/
def firstAligned (endAddress window : Nat) :
    List Nat → Dap (Option (List DisassembledInstructionInfo))
  | [] => return none
  | probe :: probes => do
    match ← alignedRange id resolveSymbols endAddress window probe with
    | some decoded => return some decoded
    | none => firstAligned endAddress window probes

def disassembleBackward (endAddress : Nat) (count : Int) :
    Dap (List DisassembledInstructionInfo) := do
  if count ≤ 0 ∨ endAddress = 0 then return []
  else
    let window := Disassembly.scanWindow endAddress count.toNat
    let probes := (List.range window).map (endAddress - window + ·)
    match ← firstAligned id resolveSymbols endAddress window probes with
    | some decoded => return Disassembly.takeLast count decoded
    | none => return []

/-- The instructions in front of the address, from the start of its symbol or scanned for. -/
def previousInstructions (memoryAddress previousCount count : Nat) :
    Dap (List DisassembledInstructionInfo) := do
  let scanned := disassembleBackward id resolveSymbols memoryAddress previousCount
  match ← call id (.symbolStart memoryAddress) with
  | none => scanned
  | some start =>
    if start ≤ memoryAddress then do
      let symbolInstructions ← disassembleRange id resolveSymbols start
        (Disassembly.requestedFromSymbol start memoryAddress count)
      return Disassembly.takeLast previousCount
        (symbolInstructions.filter fun info => info.address < memoryAddress)
    else scanned

/-- Placeholders, the instructions in front of the address and those from it on. -/
def backwardWindow (memoryAddress previousCount count : Nat) :
    Dap (List DisassembledInstructionInfo) := do
  let previous ← previousInstructions id resolveSymbols memoryAddress previousCount count
  let missing ← checked (Disassembly.subtract previousCount (Disassembly.toInt previous.length))
  let firstAvailable := (previous.head?.map fun info => info.address).getD memoryAddress
  let instructions :=
    Disassembly.createInvalidLeadingInstructions firstAvailable missing.toNat ++ previous
  let remaining ← checked (Disassembly.subtract count (Disassembly.toInt instructions.length))
  let forward ← disassembleRange id resolveSymbols memoryAddress remaining.toNat
  return instructions ++ forward

/-- The instructions before they are cut and padded. -/
def collectInstructions (memoryAddress : Nat) (instructionOffset instructionCount : Int) :
    Dap (List DisassembledInstructionInfo) := do
  if instructionOffset < 0 then
    if 2 ^ 31 ≤ -instructionOffset then throwRuntime "signed integer overflow"
    else
      backwardWindow id resolveSymbols memoryAddress
        (min (-instructionOffset) instructionCount).toNat instructionCount.toNat
  else if 2 ^ 31 ≤ instructionOffset + instructionCount then
    throwRuntime "signed integer overflow"
  else do
    let forward ← disassembleRange id resolveSymbols memoryAddress
      (instructionOffset + instructionCount).toNat
    return forward.drop instructionOffset.toNat

end

def disassemble (id : SessionId) (memoryAddress : Nat) (instructionOffset instructionCount : Int)
    (resolveSymbols : Bool) : Dap (List DisassembledInstructionInfo) := do
  throwIfDisposed id
  if instructionCount < 0 then throwRuntime "instructionCount"
  else if instructionCount = 0 then return []
  else do
    let instructions ← collectInstructions id resolveSymbols memoryAddress instructionOffset
      instructionCount
    return Disassembly.pad memoryAddress instructionCount.toNat
      ((Disassembly.firstBy (fun info => info.address) [] instructions).take
        instructionCount.toNat)

/-! ### Memory -/

def readMemory (id : SessionId) (address count : Nat) : Dap (List Nat) := do
  throwIfDisposed id
  if count = 0 then return []
  else do
    let r ← call id (.readVirtual address count)
    return r.getD []

def writeMemory (id : SessionId) (address : Nat) (bytes : List Nat) : Dap Nat := do
  throwIfDisposed id
  if bytes.isEmpty then return 0
  else do
    let r ← call id (.writeVirtual address bytes)
    checkHr r s!"Could not write {bytes.length} bytes at 0x{Text.hexUpper address}"

def getLastException (id : SessionId) : Dap (Option LastExceptionInfo) := do
  let s ← readSession id
  return s.lastException

end Session

end DapDbgeng
