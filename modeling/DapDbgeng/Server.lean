/-
  `dap_server`: what the handlers share.

  Functions that run both in handlers and in callbacks take the thread they run on.
-/
import DapDbgeng.Targets

namespace DapDbgeng

open Concurrent

/-- A decoded request. -/
structure Request (α : Type) where
  seq : Int
  command : String
  arguments : α

namespace Server

/-! ## Outbound -/

def sendResponse {α : Type} (request : Request α) (body : Body) : Dap Unit :=
  send (.response { requestSeq := request.seq, success := true, command := request.command, body })

def sendErrorResponse (requestSeq : Int) (command message : String) : Dap Unit :=
  send (.response { requestSeq, success := false, command, body := .error 1 message true })

def sendEvent (e : Event) : Dap Unit := send (.event e)

/-- Send the error response of a request. -/
def fail {α : Type} (request : Request α) (message : String) : Dap Unit :=
  sendErrorResponse request.seq request.command message

/-- The catch block most handlers end with. -/
def failUnwrapped {α : Type} (request : Request α) (e : Exn) : Dap Unit :=
  fail request e.unwrapFailureMessage

/-! ## Current thread, suspended state -/

def tryGetCurrentThreadId (t : Tid) : Dap (Option Int) := do
  match ← getSession with
  | none => return none
  | some id =>
    Prog.catching
      (do
        let threadId ← invoke t (Session.getCurrentThreadId id)
        return if (threadId : Int) > Factory.int32Max then none else some (threadId : Int))
      fun _ => .ret none

def resetLaunchConfigurationState : Dap Unit := do
  store .launchAwaitingConfigurationDone false
  store .launchStopAtEntry false
  modifyTables fun d => { d with launchThreadId := none }

def resetSuspendedState : Dap Unit := do
  modifyTables fun d => { d with
    frameContexts := [], variablesByReference := [], nextVariablesReference := 1 }
  .perform .clearThreadEvents

def sendStoppedEvent (reason : StoppedEventBodyReason) (description : String) : Dap Unit := do
  let threadId ← tryGetCurrentThreadId .request
  sendEvent (Factory.createStoppedEvent reason (some description) threadId)

/-! ## Session lifecycle -/

/-- Give up the session object: off a callback, destroy it on the dispatcher; in a callback, park
it for the wait loop (a `unique_ptr` that already held one destroys it). -/
def releaseSession (t : Tid) (id : SessionId) : Dap Unit :=
  if t = .callback then do
    match ← .perform (.park id) with
    | none => return
    | some old => Session.destroy t old
  else (invoke t (Session.destroy t id)).catching fun _ => .ret ()

/-- Forget all conditions of breakpoints, one table after the other. -/
def clearConditions : Dap Unit := do
  modifyTables fun d => { d with conditionalBreakpointConditionsById := [] }
  modifyTables fun d => { d with conditionalBreakpointIdsByPath := [] }

/-- The members `dispose_debugger_session` resets. -/
def resetAfterDispose : Dap Unit := do
  .perform (.setSession none)
  store .detachOnDisconnect false
  store .isExecutionRunning false
  resetLaunchConfigurationState
  clearPendingStoppedEvent
  store .sessionStopOrExitObserved true
  clearConditions
  resetSuspendedState
  store .suppressSessionEvents false
  store .terminateDebuggeeOnDisconnect false
  store .kernelInitialResumePending false
  store .skipNextBreakHitEvent false

def disposeDebuggerSession (t : Tid) : Dap Unit := do
  match ← .perform .takeSession with
  | none => pure ()
  | some id => releaseSession t id
  resetAfterDispose

def createDebuggerSession (enginePath : String) : Dap SessionId := do
  disposeDebuggerSession .request
  let id ← invoke .request (Session.create enginePath)
  .perform (.setSession (some id))
  return id

def requireDebuggerSession : Dap SessionId := do
  match ← getSession with
  | none => throwRuntime "No active debugger session is available."
  | some id => return id

/-- The first candidate that exists. -/
def firstExisting : List String → Dap (Option String)
  | [] => return none
  | candidate :: rest => do
    if ← .perform (.pathExists candidate) then return some candidate else firstExisting rest

/-- The installed Windows SDK Debugging Tools under one of the Program Files variants. -/
def sdkCandidate (variable_ : String) : Dap (List String) := do
  let programFiles ← .perform (.envVar variable_)
  return (programFiles.filter fun p => !p.isEmpty).toList.map
    (· ++ "\\Windows Kits\\10\\Debuggers\\x64\\dbgeng.dll")

def tryResolveDebuggerEnginePath (requested : Option String) : Dap (Option String) := do
  match requested.filter fun p => !Text.isBlank p with
  | some path => firstExisting [path]
  | none => do
    let base ← .perform .executableDirectory
    let bundled ← firstExisting (if base.isEmpty then [] else [base ++ "\\amd64\\dbgeng.dll"])
    match bundled with
    | some path => return some path
    | none => do
      let installed ← .mapEach sdkCandidate ["ProgramFiles(x86)", "ProgramW6432", "ProgramFiles"]
      firstExisting (installed.flatten ++
        ["C:\\Program Files (x86)\\Windows Kits\\10\\Debuggers\\x64\\dbgeng.dll"])

structure SessionConfiguration where
  symbolPath : Option (List String)
  sourcePath : Option (List String)

def applySessionConfiguration (id : SessionId) (configuration : SessionConfiguration) :
    Dap Unit := do
  invoke .request (Session.enableSourceLineSupport id)
  match configuration.symbolPath with
  | none => pure ()
  | some paths => invoke .request (Session.setSymbolPath id paths)
  match configuration.sourcePath with
  | none => pure ()
  | some paths => invoke .request (Session.setSourcePath id paths)

/-- `run_with_suppressed_session_events`. -/
def runWithSuppressedSessionEvents {α : Type} (action : Dap α) : Dap α := do
  store .suppressSessionEvents true
  let result ← action.catching fun e => do
    store .suppressSessionEvents false
    .throw e
  store .suppressSessionEvents false
  return result

/-! ## Reading session data -/

def isSessionUnavailable : Dap Bool := do
  if ← load .shouldExit then return true
  else return (← getSession).isNone

/-- Run a reader against the active session, unless there is none or the target is running. -/
def readSessionDataOrDefault {α : Type} (reader : SessionId → Dap α) (fallback : α) : Dap α := do
  match ← getSession with
  | none => return fallback
  | some id =>
    if ← load .isExecutionRunning then return fallback
    else (reader id).catching fun e => do
      if ← isSessionUnavailable then return fallback else .throw e

def getThreads : Dap (List Thread) :=
  readSessionDataOrDefault (fun id => do
    let current ← tryGetCurrentThreadId .request
    let ids ← invoke .request (Session.getThreadIds id)
    match Factory.createThreads current ids with
    | .ok threads => return threads
    | .error message => throwRuntime message) []

/-! ## The wait loop -/

/-- Destroy a session parked by a callback. -/
def drainPendingDisposedSession (t : Tid) : Dap Unit := do
  match ← .perform .unpark with
  | none => return
  | some id => (invoke t (Session.destroy t id)).catching fun _ => .ret ()

def joinWaitLoop : Dap Unit := do
  .perform .lockGate
  let joinable ← .perform .takeLoop
  .perform .unlockGate
  if joinable then .perform .joinLoop else pure ()
  drainPendingDisposedSession .request

def startWaitingForSessionEvent (id : SessionId) : Dap Unit := do
  .perform .lockGate
  if ← load .waitLoopActive then .perform .unlockGate
  else do
    if ← .perform .loopJoinable then .perform .joinLoop else pure ()
    store .sessionStopOrExitObserved false
    store .waitLoopActive true
    .perform (.spawnLoop id)
    .perform .unlockGate

/-- `restore_source_line_stepping_if_needed`. -/
def restoreSourceLineSteppingIfNeeded (t : Tid) (id : SessionId) : Dap Unit := do
  if ← load .restoreSourceLineSteppingAfterStop then do
    (invoke t (Session.enableSourceLineStepping id)).catching fun _ => .ret ()
    store .restoreSourceLineSteppingAfterStop false
  else return

/-- The condition of the wait loop. -/
def waitLoopCondition (id : SessionId) : Dap Bool := do
  if (← getSession) = some id then return !(← load .sessionStopOrExitObserved)
  else return false

/-- The body of the wait loop. -/
def waitLoopBody (id : SessionId) : Dap Unit := do
  invoke .loop (Session.waitForEvent id)
  if ← load .sessionStopOrExitObserved then restoreSourceLineSteppingIfNeeded .loop id
  else return

/-- What the wait-loop thread does after the loop. -/
def waitLoopEnd : Dap Unit := do
  drainPendingDisposedSession .loop
  .perform .lockGate
  store .waitLoopActive false
  .perform .unlockGate
  store .restoreSourceLineSteppingAfterStop false

/-- The detached wait of a kernel disconnect. -/
def pumpAfterKernelDisconnect (id : SessionId) : Dap Unit :=
  (invoke .pump (Session.waitForEvent id)).catching fun _ => .ret ()

/-! ## Execution helpers -/

/-- Send an error response unless the thread id is positive. -/
def requirePositiveThreadId {α : Type} (request : Request α) (threadId : Int) : Dap Bool :=
  if threadId > 0 then return true
  else do
    fail request ("The " ++ request.command ++ " request requires a positive threadId.")
    return false

def rejectSingleThread {α : Type} (request : Request α) (singleThread : Bool) : Dap Bool :=
  if !singleThread then return true
  else do
    fail request ("The " ++ request.command ++ " request does not support singleThread because " ++
      "supportsSingleThreadExecutionRequests is false.")
    return false

def rejectTargetId {α : Type} (request : Request α) (hasTargetId : Bool) : Dap Bool :=
  if !hasTargetId then return true
  else do
    fail request ("The " ++ request.command ++ " request does not support targetId because " ++
      "supportsStepInTargetsRequest is false.")
    return false

def prepareSteppingGranularity (id : SessionId) (granularity : Option SteppingGranularity) :
    Dap Unit :=
  if granularity = some .instruction then do
    invoke .request (Session.enableInstructionStepping id)
    store .restoreSourceLineSteppingAfterStop true
  else do
    invoke .request (Session.enableSourceLineStepping id)
    store .restoreSourceLineSteppingAfterStop false

/-- Interrupt to a stop with events suppressed, apply the update, and resume. -/
def applyBreakpointUpdateWhileRunning {α : Type} (id : SessionId) (update : Dap α) : Dap α := do
  let result ← runWithSuppressedSessionEvents (do
    Session.interrupt id
    joinWaitLoop
    let result ← update
    store .isExecutionRunning true
    invoke .request (Session.continue_ id)
    return result)
  startWaitingForSessionEvent id
  return result

end Server

end DapDbgeng
