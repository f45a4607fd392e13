/-
  The handlers that set the target going or stop it: continue, next, stepIn, stepOut, pause,
  configurationDone.
-/
import DapDbgeng.Server

namespace DapDbgeng

open Concurrent

namespace Server

/-! ## continue -/

/-- Select the thread and resume. -/
def continueTarget (id : SessionId) (threadId : Int) : Dap Unit :=
  Prog.catching
    (do
      invoke .request (Session.setCurrentThread id (Factory.toUInt32 threadId))
      store .isExecutionRunning true
      invoke .request (Session.continue_ id)
      resetSuspendedState)
    fun e => do
      store .isExecutionRunning false
      .throw e

def handleContinueRequest (request : Request ExecutionArguments) : Dap Unit := do
  let threadId := request.arguments.threadId
  if ← requirePositiveThreadId request threadId then
    if ← rejectSingleThread request (request.arguments.singleThread.getD false) then
      if ← load .isExecutionRunning then fail request "The debuggee is already running."
      else do
        let id ← requireDebuggerSession
        continueTarget id threadId
        sendResponse request (.continue_ true)
        sendEvent (.continued threadId true)
        startWaitingForSessionEvent id
    else return
  else return

/-! ## next, stepIn, stepOut -/

/-- What tells the step requests apart: the description of the stop and the engine command. -/
structure StepKind where
  description : String
  step : SessionId → Dap Unit

/-- Select the thread, prepare the granularity, announce the stop and step. -/
def stepTarget (kind : StepKind) (id : SessionId) (threadId : Int)
    (granularity : Option SteppingGranularity) : Dap Unit :=
  Prog.catching
    (do
      invoke .request (Session.setCurrentThread id (Factory.toUInt32 threadId))
      prepareSteppingGranularity id granularity
      setPendingStoppedEvent .step (some kind.description)
      store .isExecutionRunning true
      invoke .request (kind.step id)
      resetSuspendedState
      startWaitingForSessionEvent id)
    fun e => do
      store .isExecutionRunning false
      clearPendingStoppedEvent
      restoreSourceLineSteppingIfNeeded .request id
      .throw e

/-- The step requests past their argument checks. -/
def handleStep (kind : StepKind) (request : Request ExecutionArguments) : Dap Unit := do
  if ← load .isExecutionRunning then
    fail request "Cannot step while the debuggee is running."
  else do
    let id ← requireDebuggerSession
    stepTarget kind id request.arguments.threadId request.arguments.granularity
    sendResponse request .empty

/-- The argument checks next and stepOut make. -/
def handleCheckedStep (kind : StepKind) (request : Request ExecutionArguments) : Dap Unit := do
  if ← requirePositiveThreadId request request.arguments.threadId then
    if ← rejectSingleThread request (request.arguments.singleThread.getD false) then
      handleStep kind request
    else return
  else return

def handleNextRequest : Request ExecutionArguments → Dap Unit :=
  handleCheckedStep { description := "Step completed.", step := Session.stepOver }

def handleStepOutRequest : Request ExecutionArguments → Dap Unit :=
  handleCheckedStep { description := "Step out completed.", step := Session.stepOut }

/-- stepIn checks `targetId` besides. -/
def handleStepInRequest (request : Request ExecutionArguments) : Dap Unit := do
  if ← requirePositiveThreadId request request.arguments.threadId then
    if ← rejectSingleThread request (request.arguments.singleThread.getD false) then
      if ← rejectTargetId request request.arguments.targetId.isSome then
        handleStep { description := "Step in completed.", step := Session.stepInto } request
      else return
    else return
  else return

/-! ## pause -/

/-- Announce the stop and break in, off the dispatcher. -/
def pauseTarget (id : SessionId) : Dap Unit :=
  Prog.catching
    (do
      resetSuspendedState
      setPendingStoppedEvent .pause (some "Execution paused.")
      Session.interrupt id
      startWaitingForSessionEvent id)
    fun e => do
      clearPendingStoppedEvent
      .throw e

def handlePauseRequest (request : Request ThreadArguments) : Dap Unit := do
  if ← requirePositiveThreadId request request.arguments.threadId then
    if ← load .isExecutionRunning then do
      let id ← requireDebuggerSession
      pauseTarget id
      sendResponse request .empty
    else fail request "The debuggee is not running."
  else return

/-! ## configurationDone -/

/-- Resume after the configuration; a failure is only logged. -/
def resumeAfterConfigurationDone (id : SessionId) (threadId : Int) : Dap Unit :=
  Prog.catching
    (do
      resetSuspendedState
      store .isExecutionRunning true
      invoke .request (Session.continue_ id)
      sendEvent (.continued threadId true)
      startWaitingForSessionEvent id)
    fun _ => store .isExecutionRunning false

def continueAfterConfigurationDone : Dap Unit := do
  match ← getSession with
  | none => return
  | some id =>
    if ← load .isExecutionRunning then return
    else do
      let d ← getTables
      let threadId ← if d.launchThreadId.isSome then pure d.launchThreadId
        else tryGetCurrentThreadId .request
      match threadId with
      | none => return
      | some threadId => resumeAfterConfigurationDone id threadId

def handleConfigurationDoneRequest (request : Request Unit) : Dap Unit := do
  sendResponse request .empty
  let awaiting ← load .launchAwaitingConfigurationDone
  let stopAtEntry ← load .launchStopAtEntry
  if awaiting && !stopAtEntry then continueAfterConfigurationDone else pure ()
  resetLaunchConfigurationState

end Server

end DapDbgeng
