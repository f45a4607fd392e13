/-
  The handlers for code, memory, modules, sources, exceptions and data breakpoint information.
-/
import DapDbgeng.Inspection

namespace DapDbgeng

open Concurrent

namespace Server

/-! ## disassemble -/

structure DisassembleRequest where
  memoryAddress : Nat
  instructionOffset : Int
  instructionCount : Int
  resolveSymbols : Bool

def isInt32 (i : Int) : Bool := -2147483648 ≤ i && i ≤ 2147483647

def tryReadDisassembleArguments (arguments : DisassembleArguments) :
    Except String DisassembleRequest :=
  if Text.isBlank arguments.memoryReference then
    .error "The disassemble request requires a non-empty 'memoryReference'."
  else if arguments.instructionCount < 0 ∨ arguments.instructionCount > Factory.int32Max then
    .error ("The disassemble request requires an 'instructionCount' that fits in a 32-bit integer " ++
      "and is not negative.")
  else if (arguments.instructionOffset.any fun o => !isInt32 o) then
    .error "The disassemble request 'instructionOffset' must fit in a 32-bit integer."
  else
    match Text.tryParseMemoryReference arguments.memoryReference with
    | none => .error ("The disassemble request 'memoryReference' value '" ++
        arguments.memoryReference ++ "' is not a valid address.")
    | some address =>
      match Text.tryApplyByteOffset address (arguments.offset.getD 0) with
      | none => .error "The disassemble request offset moves the target address out of range."
      | some adjusted => .ok
        { memoryAddress := adjusted
          instructionOffset := arguments.instructionOffset.getD 0
          instructionCount := arguments.instructionCount
          resolveSymbols := arguments.resolveSymbols.getD false }

/-- The instructions of the response: the current frame's source goes to the instruction at its
address, and to the first one if that has no location. -/
def locateInstructions (currentFrame : Option StackFrameInfo)
    (instructions : List DisassembledInstructionInfo) : List DisassembledInstruction :=
  match currentFrame.bind fun f => f.source.map fun s => (f.instructionOffset, s) with
  | none => instructions.map Factory.createDisassembledInstruction
  | some (offset, source) =>
    let located := instructions.map fun i => if i.address = offset then { i with source } else i
    match located.map Factory.createDisassembledInstruction with
    | [] => []
    | first :: rest =>
      if first.location.isNone then
        { first with location := Factory.createSource (some source) } :: rest
      else first :: rest

def handleDisassembleRequest (request : Request DisassembleArguments) : Dap Unit := do
  match tryReadDisassembleArguments request.arguments with
  | .error message => fail request message
  | .ok a =>
    if ← load .isExecutionRunning then
      fail request ("The debuggee is currently running. Wait until execution stops before " ++
        "disassembling code.")
    else
      match ← getSession with
      | none => fail request "The disassemble request requires an active debugger session."
      | some _ =>
        Prog.catching
          (do
            let instructions ← readSessionDataOrDefault (fun id => invoke .request
              (Session.disassemble id a.memoryAddress a.instructionOffset a.instructionCount
                a.resolveSymbols)) []
            let currentFrame ← readSessionDataOrDefault (fun id => do
              let frames ← invoke .request (Session.getStackTrace id 1)
              return frames.head?) none
            sendResponse request (.disassemble (locateInstructions currentFrame instructions)))
          (failUnwrapped request)

/-! ## source and modules -/

def handleSourceRequest (request : Request SourceArguments) : Dap Unit := do
  match (request.arguments.source.bind Source.path).filter fun p => !Text.isBlank p with
  | none => fail request "Source content is unavailable: the source has no path to read."
  | some path =>
    match ← .perform (.readFile path) with
    | none => fail request ("Could not open source file '" ++ path ++ "'.")
    | some content => sendResponse request (.source content)

def createModule (info : ModuleInfo) : Module :=
  { id := "0x" ++ Text.hex info.base
    name := info.name
    path := info.imagePath
    symbolStatus := info.symbolStatus
    addressRange := s!"0x{Text.hex info.base}-0x{Text.hex ((info.base + info.size) % 2 ^ 64)}" }

def handleModulesRequest (request : Request ModulesArguments) : Dap Unit := do
  let start := request.arguments.startModule.getD 0
  let count := request.arguments.moduleCount.getD 0
  if start < 0 ∨ count < 0 then
    fail request "The modules request requires non-negative startModule and moduleCount."
  else if ← load .isExecutionRunning then
    fail request ("The debuggee is currently running. The module list is only available while " ++
      "stopped.")
  else
    match ← getSession with
    | none => fail request "The modules request requires an active debugger session."
    | some _ =>
      Prog.catching
        (do
          let modules ← readSessionDataOrDefault
            (fun id => invoke .request (Session.getModules id)) []
          sendResponse request
            (.modules ((window start count modules).map createModule) modules.length))
        (failUnwrapped request)

/-! ## readMemory and writeMemory -/

/-- The address of a reference that is not blank. -/
def referenceAddress (memoryReference : String) : Option Nat :=
  if Text.isBlank memoryReference then none else Text.tryParseMemoryReference memoryReference

def invalidMemoryReference (command memoryReference : String) : String :=
  "The " ++ command ++ " request 'memoryReference' value '" ++ memoryReference ++
    "' is not a valid address."

def handleReadMemoryRequest (request : Request ReadMemoryArguments) : Dap Unit := do
  let arguments := request.arguments
  match referenceAddress arguments.memoryReference with
  | none => fail request (invalidMemoryReference "readMemory" arguments.memoryReference)
  | some reference =>
    let count := arguments.count
    if count < 0 ∨ count > 16777216 then
      fail request "The readMemory request 'count' must be between 0 and 16 MiB."
    else
      match Text.tryApplyByteOffset reference (arguments.offset.getD 0) with
      | none =>
        fail request ("The readMemory request 'offset' moves the address outside the 64-bit " ++
          "address space.")
      | some address =>
        if ← load .isExecutionRunning then
          fail request ("The debuggee is currently running. Wait until execution stops before " ++
            "reading memory.")
        else
          match ← getSession with
          | none => fail request "The readMemory request requires an active debugger session."
          | some _ =>
            Prog.catching
              (do
                let bytes ← readSessionDataOrDefault (fun id => invoke .request
                  (Session.readMemory id address count.toNat)) []
                sendResponse request (.readMemory ("0x" ++ Text.hex address)
                  (if (bytes.length : Int) < count then some (count - bytes.length) else none)
                  (Text.base64Encode bytes)))
              (failUnwrapped request)

def handleWriteMemoryRequest (request : Request WriteMemoryArguments) : Dap Unit := do
  let arguments := request.arguments
  match referenceAddress arguments.memoryReference with
  | none => fail request (invalidMemoryReference "writeMemory" arguments.memoryReference)
  | some reference =>
    match Text.tryBase64Decode arguments.data with
    | none => fail request "The writeMemory request 'data' value is not valid base64."
    | some bytes =>
      match Text.tryApplyByteOffset reference (arguments.offset.getD 0) with
      | none =>
        fail request ("The writeMemory request 'offset' moves the address outside the 64-bit " ++
          "address space.")
      | some address =>
        if ← load .isExecutionRunning then
          fail request ("The debuggee is currently running. Wait until execution stops before " ++
            "writing memory.")
        else
          match ← getSession with
          | none => fail request "The writeMemory request requires an active debugger session."
          | some _ =>
            Prog.catching
              (do
                let id ← requireDebuggerSession
                let written ← invoke .request (Session.writeMemory id address bytes)
                sendResponse request (.writeMemory written))
              (failUnwrapped request)

/-! ## exceptionInfo -/

def describeExceptionCode (code : Nat) : String :=
  if code = 0xC0000005 then "Access violation"
  else if code = 0xC0000094 then "Integer division by zero"
  else if code = 0xC00000FD then "Stack overflow"
  else if code = 0xC0000409 then "Stack buffer overrun / fail fast"
  else if code = 0xE06D7363 then "C++ exception"
  else if code = 0x80000003 then "Break instruction"
  else "Exception 0x" ++ Text.hex08 code

def exceptionInfoBody (e : LastExceptionInfo) : Body :=
  .exceptionInfo ("0x" ++ Text.hex08 e.code) (describeExceptionCode e.code)
    (if e.firstChance then .always else .unhandled)
    (describeExceptionCode e.code ++ " at 0x" ++ Text.hex e.address ++ " (" ++
      (if e.firstChance then "first" else "second") ++ " chance).")

def handleExceptionInfoRequest (request : Request ThreadArguments) : Dap Unit := do
  if ← load .isExecutionRunning then
    fail request ("The debuggee is currently running. Exception details are only available while " ++
      "stopped.")
  else
    match ← getSession with
    | none => fail request "The exceptionInfo request requires an active debugger session."
    | some _ =>
      Prog.catching
        (do
          let id ← requireDebuggerSession
          match ← invoke .request (Session.getLastException id) with
          | none => fail request "No exception has been observed in this session."
          | some e => sendResponse request (exceptionInfoBody e))
        (failUnwrapped request)

/-! ## dataBreakpointInfo -/

/-- The thread, frame and expression a dataBreakpointInfo request is about. -/
structure DataBreakpointTarget where
  threadId : Int
  frameNumber : Nat
  expression : String

def resolveDataBreakpointTarget (arguments : DataBreakpointInfoArguments) (d : Tables) :
    Except String DataBreakpointTarget :=
  match arguments.variablesReference with
  | some reference =>
    match d.variablesByReference.get? reference with
    | none => .error (unknownReference reference)
    | some c =>
      let child := c.variables_.find? fun v => v.name = arguments.name ∧ v.evaluateName.isSome
      .ok { threadId := c.threadId, frameNumber := c.frameNumber
            expression := (child.bind Variable.evaluateName).getD arguments.name }
  | none =>
    match arguments.frameId with
    | none => .error "The dataBreakpointInfo request requires a variablesReference or a frameId."
    | some frameId =>
      match d.frameContexts.get? frameId with
      | none => .error (unknownFrame frameId)
      | some c =>
        .ok { threadId := c.threadId, frameNumber := c.frameNumber, expression := arguments.name }

/-- `ba` accepts 1, 2, 4 and 8 bytes; anything else becomes 8. -/
def watchSize (size : Nat) : Nat :=
  if size ≠ 1 ∧ size ≠ 2 ∧ size ≠ 4 ∧ size ≠ 8 then 8 else size

def dataBreakpointInfoBody (expression : String) (location : Nat × Nat) : Body :=
  let size := watchSize location.2
  .dataBreakpointInfo s!"0x{Text.hex location.1}:{size}"
    s!"{expression} ({size} bytes at 0x{Text.hex location.1})" [.write, .readWrite] false

def handleDataBreakpointInfoRequest (request : Request DataBreakpointInfoArguments) :
    Dap Unit := do
  if Text.isBlank request.arguments.name then
    fail request "The dataBreakpointInfo request requires a non-empty name."
  else do
    let d ← getTables
    match resolveDataBreakpointTarget request.arguments d with
    | .error message => fail request message
    | .ok target =>
      match ← getSession with
      | none => fail request "The dataBreakpointInfo request requires an active debugger session."
      | some _ =>
        Prog.catching
          (do
            let id ← requireDebuggerSession
            let location ← invoke .request (withThread id target.threadId
              (Session.getSymbolAddress id target.frameNumber target.expression))
            sendResponse request (dataBreakpointInfoBody target.expression location))
          (failUnwrapped request)

end Server

end DapDbgeng
