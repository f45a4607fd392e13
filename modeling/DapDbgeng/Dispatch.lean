/-
  From a JSON message to its handler.
-/
import DapDbgeng.Callbacks
import DapDbgeng.Memory
import DapDbgeng.BreakpointRequests
import DapDbgeng.ExecutionRequests
import DapDbgeng.LifecycleRequests

namespace DapDbgeng

open Concurrent

namespace Server

/-! ## Decoding -/

/-- A request struct whose arguments default to an empty object. -/
def decodeRequest {α : Type} (name : String) (dec : Decoder α) : Decoder (Request α) := fun m => do
  let head ← Decoder.requestHead name m
  let arguments ← dec ((m.member "arguments").getD (.obj []))
  return { seq := head.seq, command := head.command, arguments }

/-- A request struct whose arguments are optional. -/
def decodeOptionalRequest {α : Type} (name : String) (dec : Decoder α) :
    Decoder (Request (Option α)) := fun m => do
  let head ← Decoder.requestHead name m
  let arguments ← Decoder.opt "arguments" dec m
  return { seq := head.seq, command := head.command, arguments }

def noArguments : Decoder Unit := fun _ => .ok ()

/-- Decode, then handle; a failure to decode is an exception. -/
def run {α : Type} (dec : Decoder (Request α)) (handler : Request α → Dap Unit) (m : Json) :
    Dap Unit :=
  match dec m with
  | .error what => throwRuntime what
  | .ok request => handler request

/-- A request with plain arguments. -/
def on {α : Type} (name : String) (dec : Decoder α) (handler : Request α → Dap Unit) :
    String × (Json → Dap Unit) := (name, run (decodeRequest name dec) handler)

/-- A request the base class refuses. -/
def refuse (name : String) : String × (Json → Dap Unit) :=
  (name, run (decodeRequest name (Decoder.unhandledArguments name)) fun request =>
    .throw (.unhandledRequest request.seq name))

/-! ## Dispatch -/

open Decoder in
/-- The requests `dispatch_request` knows. -/
def handlers : List (String × (Json → Dap Unit)) :=
  [on "attach" noArguments handleAttachRequest,
   on "configurationDone" noArguments handleConfigurationDoneRequest,
   on "continue" continueArguments handleContinueRequest,
   on "dataBreakpointInfo" dataBreakpointInfoArguments handleDataBreakpointInfoRequest,
   on "disassemble" disassembleArguments handleDisassembleRequest,
   ("disconnect", run (decodeOptionalRequest "disconnect" disconnectArguments)
      handleDisconnectRequest),
   on "evaluate" evaluateArguments handleEvaluateRequest,
   on "exceptionInfo" threadArguments handleExceptionInfoRequest,
   on "initialize" initializeArguments handleInitializeRequest,
   on "launch" launchArguments handleLaunchRequest,
   on "modules" modulesArguments handleModulesRequest,
   on "next" nextArguments handleNextRequest,
   on "pause" threadArguments handlePauseRequest,
   on "readMemory" readMemoryArguments handleReadMemoryRequest,
   on "scopes" scopesArguments handleScopesRequest,
   on "setBreakpoints" setBreakpointsArguments handleSetBreakpointsRequest,
   on "setDataBreakpoints" (breakpointsArguments dataBreakpoint) handleSetDataBreakpointsRequest,
   on "setExceptionBreakpoints" exceptionFilterArguments handleSetExceptionBreakpointsRequest,
   on "setExpression" setExpressionArguments handleSetExpressionRequest,
   on "setFunctionBreakpoints" (breakpointsArguments functionBreakpoint)
      handleSetFunctionBreakpointsRequest,
   on "setInstructionBreakpoints" (breakpointsArguments instructionBreakpoint)
      handleSetInstructionBreakpointsRequest,
   on "setVariable" setVariableArguments handleSetVariableRequest,
   on "source" sourceArguments handleSourceRequest,
   on "stackTrace" stackTraceArguments handleStackTraceRequest,
   on "stepIn" stepInArguments handleStepInRequest,
   on "stepOut" nextArguments handleStepOutRequest,
   on "terminate" terminateArguments handleTerminateRequest,
   on "threads" noArguments handleThreadsRequest,
   on "variables" variablesArguments handleVariablesRequest,
   on "writeMemory" writeMemoryArguments handleWriteMemoryRequest,
   refuse "breakpointLocations", refuse "cancel", refuse "completions", refuse "goto",
   refuse "gotoTargets", refuse "loadedSources", refuse "locations", refuse "restart",
   refuse "restartFrame", refuse "reverseContinue", refuse "runInTerminal",
   refuse "startDebugging", refuse "stepBack", refuse "stepInTargets", refuse "terminateThreads"]

theorem mem_of_lookup {β : Type*} {key : String} {v : β} {entries : List (String × β)}
    (h : entries.lookup key = some v) : (key, v) ∈ entries := by
  induction entries with
  | nil => cases h
  | cons e rest ih =>
    rw [List.lookup_cons] at h
    split at h
    · rename_i he
      cases h; rw [eq_of_beq he]; exact List.mem_cons_self
    · exact List.mem_cons_of_mem _ (ih h)

/-- Any other command: a generic request, refused under its own name. -/
def handleUnknownRequest : Json → Dap Unit :=
  run (decodeRequest "" noArguments) fun request =>
    .throw (.unhandledRequest request.seq request.command)

def dispatchRequest (m : Json) : Dap Unit :=
  match Decoder.valueString "command" m with
  | .error what => throwRuntime what
  | .ok command => (handlers.lookup command).getD handleUnknownRequest m

/-- `dap_service::handle`.  The base class ignores events and responses. -/
def handle (m : Json) : Dap Unit :=
  match Decoder.valueString "type" m with
  | .error what => throwRuntime what
  | .ok type =>
    if type = "request" then dispatchRequest m
    else if type = "event" ∨ type = "response" then return
    else throwRuntime ("Unsupported DAP message type: " ++ type)

/-- The error response of a request that failed with an exception, when it has a sequence number
and a command. -/
def reportFailure (root : Json) (e : Exn) : Dap Unit :=
  match MessageInspector.tryGetSequence root, MessageInspector.tryGetCommand root with
  | some requestSeq, some command =>
    if command.isEmpty ∨ command = "<unknown>" then return
    else sendErrorResponse requestSeq command e.unwrapFailureMessage
  | _, _ => return

/-- The catch clauses of `handle_request`. -/
def recover (root : Json) : Exn → Dap Unit
  | .unhandledRequest requestSeq command =>
    sendErrorResponse requestSeq command ("Unsupported command: <" ++ command ++ ">")
  | e => reportFailure root e

/-- Handle one message; the result tells whether the server should exit. -/
def handleRequest (root : Json) : Dap Bool := do
  store .shouldExit false
  modifyTables fun d => { d with currentRequestJson := root }
  store .hasCurrentRequestJson true
  (handle root).catching (recover root)
  let shouldExit ← load .shouldExit
  store .hasCurrentRequestJson false
  return shouldExit

/-- The destructor. -/
def teardown : Dap Unit := do
  disposeDebuggerSession .request
  joinWaitLoop

end Server

end DapDbgeng
