/-
  The handlers that inspect a stopped target: threads, stack, scopes, variables, evaluation,
  disassembly, source, modules, memory, exceptions, data breakpoint information.
-/
import DapDbgeng.Server

namespace DapDbgeng

open Concurrent

namespace Server

/-- The positive `int` value of an optional argument, 0 for anything else. -/
def clampArgument (value : Option Int) : Int :=
  match value with
  | some v => if v > 0 ∧ v ≤ Factory.int32Max then v else 0
  | none => 0

/-- The slice of a list from `start`, at most `count` of it when `count` is positive. -/
def window {α : Type} (start count : Int) (xs : List α) : List α :=
  let rest := xs.drop start.toNat
  if count > 0 then rest.take count.toNat else rest

/-! ## Threads and stack -/

def handleThreadsRequest (request : Request Unit) : Dap Unit := do
  let threads ← getThreads
  sendResponse request (.threads threads)

structure StackTraceWindow where
  startFrame : Int := 0
  levels : Int := 0

def readStackTraceWindow (arguments : StackTraceArguments) : StackTraceWindow :=
  { startFrame := clampArgument arguments.startFrame, levels := clampArgument arguments.levels }

def applyStackTraceWindow (frames : List StackFrameInfo) (w : StackTraceWindow) :
    List StackFrameInfo := window w.startFrame w.levels frames

def getStackTraceFetchLimit (w : StackTraceWindow) : Int :=
  if w.levels ≤ 0 then Factory.int32Max
  else min (w.startFrame + w.levels) Factory.int32Max

/-- Remember the frames by the ids the client gets for them. -/
def registerFrames (threadId : Int) (frames : List StackFrameInfo)
    (m : AssocMap Int FrameContext) : AssocMap Int FrameContext :=
  frames.foldl (fun m frame => m.set (Factory.createFrameId threadId frame.frameNumber)
    { threadId, frameNumber := frame.frameNumber, source := frame.source }) m

def handleStackTraceRequest (request : Request StackTraceArguments) : Dap Unit := do
  let threadId := request.arguments.threadId
  let w := readStackTraceWindow request.arguments
  if ← requirePositiveThreadId request threadId then do
    let details ← readSessionDataOrDefault (fun id => invoke .request (do
      Session.setCurrentThread id (Factory.toUInt32 threadId)
      Session.getStackTraceDetails id (getStackTraceFetchLimit w))) {}
    let frames := applyStackTraceWindow details.frames w
    modifyTables fun d => { d with frameContexts := registerFrames threadId frames d.frameContexts }
    sendResponse request
      (.stackTrace (frames.map (Factory.createStackFrame threadId)) details.totalFrames)
  else return

/-! ## Scopes and variables -/

def createVariablesReference (context : FrameContext) (kind : VariableContainerKind)
    (values : List Variable) (d : Tables) : Int × Tables :=
  if values.isEmpty then (0, d)
  else (d.nextVariablesReference,
    { d with
      nextVariablesReference := d.nextVariablesReference + 1
      variablesByReference := d.variablesByReference.set d.nextVariablesReference
        { threadId := context.threadId, frameNumber := context.frameNumber, kind
          variables_ := values } })

def createVariable (value : NamedValueInfo) : Variable :=
  { name := value.name, value := value.value, evaluateName := some value.name }

/-- The access path of a node: a field appends ".field", an array element appends directly, a
nameless node inherits its parent's path. -/
def evaluateNameOf (name parentEvaluateName : String) : String :=
  if name.isEmpty then parentEvaluateName
  else if parentEvaluateName.isEmpty ∨ name.toList.head? = some '[' then parentEvaluateName ++ name
  else parentEvaluateName ++ "." ++ name

mutual

def buildVariableTree (context : FrameContext) (parentEvaluateName : String) :
    VariableNode → Tables → Variable × Tables
  | { name, value, type, address, children, .. }, d =>
    let evaluateName := evaluateNameOf name parentEvaluateName
    let variable_ : Variable :=
      { name, value
        type := if type.isEmpty then none else some type
        memoryReference := if address = 0 then none else some ("0x" ++ Text.hex address)
        evaluateName := some evaluateName }
    if children.isEmpty then (variable_, d)
    else
      let (values, d) := buildVariableTrees context evaluateName children d
      let (reference, d) := createVariablesReference context .structure_ values d
      ({ variable_ with
          namedVariables := some values.length, variablesReference := reference }, d)

def buildVariableTrees (context : FrameContext) (parentEvaluateName : String) :
    List VariableNode → Tables → List Variable × Tables
  | [], d => ([], d)
  | node :: rest, d =>
    let (v, d) := buildVariableTree context parentEvaluateName node d
    let (vs, d) := buildVariableTrees context parentEvaluateName rest d
    (v :: vs, d)

end

def createScope (name : String) (presentationHint : ScopePresentationHint)
    (variablesReference namedVariables : Int) (source : Option SourceLocation) : Scope :=
  { name, presentationHint, variablesReference, namedVariables
    source := Factory.createSource source
    line := source.map SourceLocation.line
    column := source.map fun _ => 1 }

/-- The two scopes of a frame and the tables with their containers. -/
def createScopes (context : FrameContext) (locals : List VariableNode)
    (registers : List NamedValueInfo) (d : Tables) : List Scope × Tables :=
  let (localVariables, d) := buildVariableTrees context "" locals d
  let (localsReference, d) := createVariablesReference context .locals localVariables d
  let (registersReference, d) :=
    createVariablesReference context .registers (registers.map createVariable) d
  ([createScope "Locals" .locals localsReference locals.length context.source,
    createScope "Registers" .registers registersReference registers.length none], d)

def unknownFrame (frameId : Int) : String :=
  s!"Unknown frame id '{frameId}'. Request stackTrace again for the current stop."

def unknownReference (reference : Int) : String :=
  s!"Unknown variablesReference '{reference}'. Request scopes again for the current stop."

def handleScopesRequest (request : Request ScopesArguments) : Dap Unit := do
  let frameId := request.arguments.frameId
  if frameId ≤ 0 then fail request "The scopes request requires a positive frameId."
  else do
    let d ← getTables
    match d.frameContexts.get? frameId with
    | none => fail request (unknownFrame frameId)
    | some context => do
      let values ← readSessionDataOrDefault (fun id => do
        let locals ← invoke .request (Session.getLocalsTree id context.frameNumber)
        let registers ← invoke .request (Session.getRegisters id context.frameNumber)
        return (locals, registers)) ([], [])
      let scopes ← .perform (.modify (createScopes context values.1 values.2))
      sendResponse request (.scopes scopes)

def handleVariablesRequest (request : Request VariablesArguments) : Dap Unit := do
  let reference := request.arguments.variablesReference
  let start := clampArgument request.arguments.start
  let count := clampArgument request.arguments.count
  if reference ≤ 0 then fail request "The variables request requires a positive variablesReference."
  else do
    let d ← getTables
    match d.variablesByReference.get? reference with
    | none => fail request (unknownReference reference)
    | some container =>
      let values := if request.arguments.filter = some .indexed then [] else container.variables_
      sendResponse request (.variables_ (window start count values))

/-! ## Working on another thread -/

/-- Run an operation with a thread selected, and select the original thread again, also when the
operation fails. -/
def withThread {α : Type} (id : SessionId) (threadId : Int) (action : Dap α) : Dap α := do
  let original ← Session.getCurrentThreadId id
  Prog.catching
    (do
      Session.setCurrentThread id (Factory.toUInt32 threadId)
      let result ← action
      Session.setCurrentThread id original
      return result)
    fun e => do
      Session.setCurrentThread id original
      .throw e

/-! ## setVariable -/

def buildSetCommands (kind : VariableContainerKind) (frameNumber : Nat) (name value : String) :
    List Command :=
  match kind with
  | .locals =>
    [.raw s!".frame {frameNumber};?? {name}={value}",
     .raw s!".frame {frameNumber};? @@c++({name}={value})",
     .raw s!".frame {frameNumber};?? $!{name}={value}",
     .raw s!".frame {frameNumber};? @@c++($!{name}={value})"]
  | _ => [.raw s!"r {name}={value}"]

def readVariables (id : SessionId) (c : VariableContainerContext) : Dap (List Variable) := do
  let values ← if c.kind = .locals then Session.getLocals id c.frameNumber
    else Session.getRegisters id c.frameNumber
  return values.map createVariable

/-- A failure that lets the next candidate be tried. -/
def isInvalidAssignment (command : Command) (message : String) : Bool :=
  Text.contains message ("Could not execute debugger command '" ++ command.render ++ "'") &&
    Text.contains message "HRESULT=0x"

/-- Try the candidates until one is accepted. -/
def executeSet (id : SessionId) (kind : VariableContainerKind) :
    List Command → Option String → Dap Unit
  | [], lastFailure =>
    throwRuntime (lastFailure.getD "No setVariable command candidates were generated.")
  | command :: rest, _ => do
    let r ← (Session.executeCommandWithOutput id command).attempt
    match r with
    | .ok _ => return
    | .error e =>
      if kind ≠ .locals then .throw e
      else if !isInvalidAssignment command e.what then .throw e
      else executeSet id kind rest (some e.what)

/-- Assign on the engine and read the container back. -/
def assignVariable (id : SessionId) (container : VariableContainerContext) (name value : String) :
    Dap (VariableContainerContext × Variable) := do
  executeSet id container.kind
    (buildSetCommands container.kind container.frameNumber name value) none
  let refreshed ← readVariables id container
  match refreshed.find? fun v => v.name = name with
  | none => throwRuntime ("Variable '" ++ name ++ "' was not found after assignment.")
  | some updated => return ({ container with variables_ := refreshed }, updated)

/-- Replace the first variable of the given name. -/
def refreshChild (name : String) (updated : VariableNode) : List Variable → List Variable × Variable
  | [] => ([], {})
  | v :: rest =>
    if v.name = name then
      let v := { v with
        value := updated.value
        type := if updated.type.isEmpty then v.type else some updated.type }
      (v :: rest, v)
    else
      let (rest, result) := refreshChild name updated rest
      (v :: rest, result)

/-- Assign a struct field by its access path and refresh it in the cached container. -/
def assignStructField (id : SessionId) (container : VariableContainerContext)
    (name expression value : String) : Dap (VariableContainerContext × Variable) := do
  let updated ← Session.setLocalValue id container.frameNumber expression value
  let (values, result) := refreshChild name updated container.variables_
  return ({ container with variables_ := values }, result)

def storeContainer (reference : Int) (container : VariableContainerContext) : Dap Unit :=
  modifyTables fun d =>
    { d with variablesByReference := d.variablesByReference.set reference container }

def positiveReference (v : Variable) : Option Int :=
  if v.variablesReference > 0 then some v.variablesReference else none

def handleSetStructField (request : Request SetVariableArguments)
    (container : VariableContainerContext) : Dap Unit := do
  let name := request.arguments.name
  match container.variables_.find? fun v => v.name = name with
  | none => fail request ("Variable '" ++ name ++ "' was not found in this struct.")
  | some child =>
    Prog.catching
      (do
        let id ← requireDebuggerSession
        let (container, v) ← invoke .request (withThread id container.threadId
          (assignStructField id container name (child.evaluateName.getD name)
            request.arguments.value))
        storeContainer request.arguments.variablesReference container
        sendResponse request (.setVariable v.value v.type (positiveReference v) v.namedVariables
          v.indexedVariables none none))
      (failUnwrapped request)

def handleSetTopLevelVariable (request : Request SetVariableArguments)
    (container : VariableContainerContext) : Dap Unit := do
  let id ← requireDebuggerSession
  Prog.catching
    (do
      let (container, v) ← invoke .request (withThread id container.threadId
        (assignVariable id container request.arguments.name request.arguments.value))
      storeContainer request.arguments.variablesReference container
      sendResponse request (.setVariable v.value v.type (positiveReference v) v.namedVariables
        v.indexedVariables v.memoryReference v.valueLocationReference))
    (failUnwrapped request)

def handleSetVariableRequest (request : Request SetVariableArguments) : Dap Unit := do
  let reference := request.arguments.variablesReference
  if reference ≤ 0 then
    fail request "The setVariable request requires a positive variablesReference."
  else if Text.isBlank request.arguments.name then
    fail request "The setVariable request requires a non-empty variable name."
  else if Text.isBlank request.arguments.value then
    fail request "The setVariable request requires a non-empty value expression."
  else if ← load .isExecutionRunning then
    fail request ("The debuggee is currently running. Wait until execution stops before changing " ++
      "variables.")
  else do
    let d ← getTables
    match d.variablesByReference.get? reference with
    | none => fail request (unknownReference reference)
    | some container =>
      if container.kind = .structure_ then handleSetStructField request container
      else handleSetTopLevelVariable request container

/-! ## Evaluation -/

def createEvaluateCommand (expression : String) (frameNumber : Option Nat) : Dap Command :=
  if Text.isBlank expression then throwRuntime "expression must be non-empty"
  else
    match frameNumber with
    | some n => return .raw s!".frame {n};{expression}"
    | none => return .raw expression

/-- Evaluate in a frame: as an expression if preferred and possible, else as a command. -/
def evaluateInFrame (id : SessionId) (context : FrameContext) (preferExpression : Bool)
    (expression : String) : Dap String := do
  let resolved ← if preferExpression then
      Prog.catching
        (do
          let node ← Session.getLocalValue id context.frameNumber expression
          return some node.value)
        fun _ => .ret none
    else pure none
  match resolved with
  | some value => return value
  | none => do
    let command ← createEvaluateCommand expression (some context.frameNumber)
    Session.executeCommandWithOutput id command

def evaluate (id : SessionId) (context : Option FrameContext) (preferExpression : Bool)
    (expression : String) : Dap String :=
  match context with
  | none => Session.executeCommandWithOutput id (.raw expression)
  | some c => withThread id c.threadId (evaluateInFrame id c preferExpression expression)

/-- The part of evaluate past the argument checks. -/
def evaluateAtStop (request : Request EvaluateArguments) (context : Option FrameContext) :
    Dap Unit := do
  let expression := request.arguments.expression
  if request.arguments.context = some .hover then sendResponse request (.evaluate "" 0)
  else if ← load .isExecutionRunning then
    fail request ("The debuggee is currently running. Wait until execution stops before evaluating " ++
      "commands.")
  else if Text.isExecutionControlCommand expression then
    fail request ("Execution-control WinDbg commands are not supported in evaluate. Use the DAP " ++
      "continue and stepping requests instead.")
  else do
    let preferExpression := context.isSome && (request.arguments.context == some .watch ||
      request.arguments.context == some .clipboard)
    let id ← requireDebuggerSession
    Prog.catching
      (do
        let result ← invoke .request (evaluate id context preferExpression expression)
        sendResponse request
          (.evaluate (if Text.isBlank result then "(no output)" else result) 0))
      (failUnwrapped request)

def handleEvaluateRequest (request : Request EvaluateArguments) : Dap Unit := do
  let arguments := request.arguments
  if Text.isBlank arguments.expression then
    fail request "The evaluate request requires a non-empty expression."
  else if arguments.column.isSome && arguments.line.isNone then
    fail request "The evaluate request requires line when column is provided."
  else if arguments.line.isSome && arguments.source.isNone then
    fail request "The evaluate request requires source when line is provided."
  else
    match arguments.frameId with
    | none => evaluateAtStop request none
    | some frameId =>
      if frameId ≤ 0 then
        fail request "The evaluate request requires a positive frameId when frameId is provided."
      else do
        let d ← getTables
        match d.frameContexts.get? frameId with
        | none => fail request (unknownFrame frameId)
        | some context => evaluateAtStop request (some context)

def handleSetExpressionRequest (request : Request SetExpressionArguments) : Dap Unit := do
  let arguments := request.arguments
  if Text.isBlank arguments.expression then
    fail request "The setExpression request requires a non-empty expression."
  else if Text.isBlank arguments.value then
    fail request "The setExpression request requires a non-empty value."
  else
    match arguments.frameId with
    | none =>
      fail request ("The setExpression request requires a frameId (global assignments are not " ++
        "supported).")
    | some frameId => do
      let d ← getTables
      match d.frameContexts.get? frameId with
      | none => fail request (unknownFrame frameId)
      | some context =>
        if ← load .isExecutionRunning then
          fail request ("The debuggee is currently running. Wait until execution stops before " ++
            "changing expressions.")
        else
          Prog.catching
            (do
              let id ← requireDebuggerSession
              let updated ← invoke .request (withThread id context.threadId
                (Session.setLocalValue id context.frameNumber arguments.expression
                  arguments.value))
              sendResponse request (.setExpression updated.value
                (if updated.type.isEmpty then none else some updated.type)))
            (failUnwrapped request)

end Server

end DapDbgeng
