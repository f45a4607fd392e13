/-
  The handlers that begin and end a debug session: initialize, launch, attach, terminate,
  disconnect.
-/
import DapDbgeng.Server

namespace DapDbgeng

open Concurrent

namespace Server

/-! ## initialize -/

def capabilities : Capabilities :=
  [("supportsClipboardContext", true), ("supportsConfigurationDoneRequest", true),
   ("supportsConditionalBreakpoints", true), ("supportsDataBreakpoints", true),
   ("supportsDelayedStackTraceLoading", true), ("supportsDisassembleRequest", true),
   ("supportsEvaluateForHovers", false), ("supportsExceptionInfoRequest", true),
   ("supportsFunctionBreakpoints", true), ("supportsHitConditionalBreakpoints", false),
   ("supportsInstructionBreakpoints", true), ("supportsLogPoints", false),
   ("supportsModulesRequest", true), ("supportsReadMemoryRequest", true),
   ("supportsRestartRequest", false), ("supportsRestartFrame", false),
   ("supportsStepBack", false), ("supportsSetVariable", true), ("supportsSetExpression", true),
   ("supportsSingleThreadExecutionRequests", false), ("supportsSteppingGranularity", true),
   ("supportsTerminateRequest", true), ("supportsValueFormattingOptions", false),
   ("supportsWriteMemoryRequest", true), ("supportTerminateDebuggee", true),
   ("supportSuspendDebuggee", false)]

def cppFilter : ExceptionBreakpointsFilter :=
  { filter := "cpp", label := "C++ exceptions"
    description := "Break when a C++ exception is thrown (first chance).", default := false }

def handleInitializeRequest (request : Request Unit) : Dap Unit := do
  if ← load .initializeRequestHandled then
    fail request "The initialize request may only be sent once per debug adapter session."
  else do
    sendResponse request (.capabilities capabilities [cppFilter])
    store .initializeRequestHandled true
    sendEvent .initialized

/-! ## launch -/

def missingEngine : String :=
  ("Could not locate dbgeng.dll. Set 'dbgengPath' to your dbgeng.dll, or install the Windows SDK " ++
    "Debugging Tools.")

open ArgumentReader in
def readSessionConfiguration (arguments : Json) : SessionConfiguration :=
  { symbolPath := tryGetStringList arguments "symbolPath"
    sourcePath := tryGetStringList arguments "sources" }

/-- Run a target-connecting call on the dispatcher with session events suppressed. -/
def connectTarget (action : Dap Unit) : Dap Unit :=
  runWithSuppressedSessionEvents (invoke .request action)

/-- Launch on this machine, or on the process server a connection string names. -/
def launchTarget (id : SessionId) (arguments : Json) (program : String) : Dap Unit :=
  let commandLineArguments := ArgumentReader.tryGetCommandLineArguments arguments
  let workingDirectory := ArgumentReader.resolveWorkingDirectory arguments
  match (ArgumentReader.tryGetString arguments "connectionString").filter
      fun c => !Text.isBlank c with
  | some connectionString =>
    Session.launchRemote id connectionString program commandLineArguments workingDirectory
  | none => Session.launch id program commandLineArguments workingDirectory

/-- How a new session ends when the client disconnects. -/
def setDisconnectBehavior (detach terminateDebuggee : Bool) : Dap Unit := do
  store .detachOnDisconnect detach
  store .terminateDebuggeeOnDisconnect terminateDebuggee

/-- Remember that configurationDone is to resume the target unless it stops at entry. -/
def awaitConfigurationDone (stopAtEntry : Bool) : Dap Unit := do
  store .launchAwaitingConfigurationDone true
  store .launchStopAtEntry stopAtEntry
  let threadId ← tryGetCurrentThreadId .request
  modifyTables fun d => { d with launchThreadId := threadId }

/-- Answer, announce the process, and report the stop if it is to be seen. -/
def finishStart {α : Type} (request : Request α) (name : String) (processId : Option Int)
    (startMethod : ProcessEventBodyStartMethod) (stop : Option (StoppedEventBodyReason × String)) :
    Dap Unit := do
  sendResponse request .empty
  sendEvent (Factory.createProcessEvent name processId startMethod)
  store .isExecutionRunning false
  match stop with
  | none => return
  | some (reason, description) => sendStoppedEvent reason description

def startLaunch (request : Request Unit) (arguments : Json) (program enginePath : String) :
    Dap Unit := do
  let stopAtEntry := (ArgumentReader.tryGetBoolean arguments "stopAtEntry").getD false
  let id ← createDebuggerSession enginePath
  applySessionConfiguration id (readSessionConfiguration arguments)
  connectTarget (launchTarget id arguments program)
  awaitConfigurationDone stopAtEntry
  setDisconnectBehavior false true
  finishStart request program none .launch
    (if stopAtEntry then some (.entry, "Paused at process entry.") else none)

def handleLaunchRequest (request : Request Unit) : Dap Unit := do
  let arguments := ArgumentReader.getArguments (← getTables).currentRequestJson
  if ArgumentReader.tryGetBoolean arguments "noDebug" = some true then
    fail request "Launching without debugging is not supported."
  else
    match (ArgumentReader.tryGetString arguments "program").filter fun p => !Text.isBlank p with
    | none => fail request "The launch request requires a 'program' argument."
    | some program =>
      match ← tryResolveDebuggerEnginePath (ArgumentReader.tryGetString arguments "dbgengPath") with
      | none => fail request missingEngine
      | some enginePath => startLaunch request arguments program enginePath

/-! ## attach -/

def missingTransport : String :=
  "Kernel attach requires a 'connectionString' transport, e.g. 'net:port=50000,key=...' or " ++
    "'com:pipe,port=\\\\.\\pipe\\kd,resets=0,reconnect'."

/-- Poll until a process of this name exists or the timeout elapses.  Every round sleeps for the
poll interval, so that the deadline has passed after `rounds` of them. -/
def pollForProcessId (id : SessionId) (executableName : String) : Nat → Dap (Option Nat)
  | 0 => invoke .request (Session.tryFindProcessIdByExecutableName id executableName)
  | rounds + 1 => do
    let found ← invoke .request (Session.tryFindProcessIdByExecutableName id executableName)
    if found.isSome then return found
    else if ← .perform .deadlinePassed then return found
    else do
      .perform (.sleep 200)
      pollForProcessId id executableName rounds

/-- The arguments of an attach request. -/
structure AttachTarget where
  dumpFile : Option String
  processId : Option Int
  processName : Option String
  connectionString : Option String
  stopAtEntry : Bool
  processNameTimeout : Int

open ArgumentReader in
def readAttachTarget (arguments : Json) : AttachTarget :=
  let nonBlank (key : String) := (tryGetString arguments key).filter fun s => !Text.isBlank s
  { dumpFile := nonBlank "dumpFile"
    processId := tryGetInt32 arguments "processId"
    processName := nonBlank "processName"
    connectionString := nonBlank "connectionString"
    stopAtEntry := (tryGetBoolean arguments "stopAtEntry").getD true
    processNameTimeout := max ((tryGetInt32 arguments "processNameTimeout").getD 15000) 0 }

def attachKernelTarget (request : Request Unit) (arguments : Json) (target : AttachTarget)
    (connectionString enginePath : String) : Dap Unit := do
  let id ← createDebuggerSession enginePath
  applySessionConfiguration id (readSessionConfiguration arguments)
  connectTarget (Session.attachKernel id connectionString)
  setDisconnectBehavior false false
  store .kernelInitialResumePending true
  awaitConfigurationDone target.stopAtEntry
  finishStart request ("kernel target " ++ connectionString) none .attach
    (if target.stopAtEntry then some (.pause, "Paused after kernel attach.") else none)

def attachDumpFile (request : Request Unit) (arguments : Json) (dumpFile enginePath : String) :
    Dap Unit := do
  let id ← createDebuggerSession enginePath
  applySessionConfiguration id (readSessionConfiguration arguments)
  connectTarget (Session.openDumpFile id dumpFile)
  setDisconnectBehavior false false
  finishStart request dumpFile none .attach (some (.pause, "Paused after opening dump file."))

/-- Find the process by its name: connect the process server first, so that the lookup runs on
the machine the process will appear on. -/
def findProcess (id : SessionId) (target : AttachTarget) (processName : String) :
    Dap (Option Int) := do
  match target.connectionString with
  | none => pure ()
  | some connectionString => connectTarget (Session.connectProcessServer id connectionString)
  let found ← pollForProcessId id processName (target.processNameTimeout.toNat / 200 + 1)
  return found.map Factory.toInt32

/-- The answer to a live attach, once the target is attached. -/
def finishAttach (request : Request Unit) (target : AttachTarget) (processId : Int) :
    Dap Unit := do
  awaitConfigurationDone target.stopAtEntry
  setDisconnectBehavior true false
  finishStart request s!"process {processId}" (some processId) .attach
    (if target.stopAtEntry then some (.pause, "Paused after attach.") else none)

def attachLiveTarget (request : Request Unit) (arguments : Json) (target : AttachTarget)
    (enginePath : String) : Dap Unit := do
  let id ← createDebuggerSession enginePath
  applySessionConfiguration id (readSessionConfiguration arguments)
  match target.processId with
  | none => do
    let processName := target.processName.getD ""
    match ← findProcess id target processName with
    | none =>
      fail request (s!"No process named '{processName}' appeared within " ++
        s!"{target.processNameTimeout} ms.")
    | some processId => do
      connectTarget (Session.attach id processId)
      finishAttach request target processId
  | some processId => do
    match target.connectionString with
    | none => connectTarget (Session.attach id processId)
    | some connectionString => connectTarget (Session.attachRemote id connectionString processId)
    finishAttach request target processId

def handleAttachRequest (request : Request Unit) : Dap Unit := do
  let arguments := ArgumentReader.getArguments (← getTables).currentRequestJson
  let target := readAttachTarget arguments
  match ← tryResolveDebuggerEnginePath (ArgumentReader.tryGetString arguments "dbgengPath") with
  | none => fail request missingEngine
  | some enginePath =>
    if (ArgumentReader.tryGetBoolean arguments "kernel").getD false then
      match target.connectionString with
      | none => fail request missingTransport
      | some connectionString =>
        attachKernelTarget request arguments target connectionString enginePath
    else
      match target.dumpFile with
      | some dumpFile => attachDumpFile request arguments dumpFile enginePath
      | none =>
        if target.processId.isNone ∧ target.processName.isNone then
          fail request
            "The attach request requires 'processId', 'processName', or 'dumpFile'."
        else attachLiveTarget request arguments target enginePath

/-! ## terminate -/

def terminateTarget (id : SessionId) : Dap Unit := do
  let previous ← load .sessionStopOrExitObserved
  -- reset first, so that a terminate event that comes at once is seen below
  store .sessionStopOrExitObserved false
  (invoke .request (Session.terminateCurrentProcess id)).catching fun e => do
    store .sessionStopOrExitObserved previous
    .throw e
  if ← load .sessionStopOrExitObserved then return else startWaitingForSessionEvent id

def handleTerminateRequest (request : Request Unit) : Dap Unit := do
  match ← getSession with
  | none => do
    sendResponse request .empty
    sendEvent .terminated
    store .shouldExit true
  | some id => do
    terminateTarget id
    sendResponse request .empty

/-! ## disconnect -/

def tryInterrupt (id : SessionId) : Dap Unit := (Session.interrupt id).catching fun _ => .ret ()

/-- Clear the breakpoints, resume, and leave the machine running under a detached wait. -/
def resumeKernelTarget (id : SessionId) : Dap Unit := do
  if ← load .isExecutionRunning then tryInterrupt id else pure ()
  invoke .request (do
    Session.clearAllBreakpoints id
    Session.continue_ id)
  .perform (.spawnPump id)
  .perform (.sleep 400)

def disconnectKernelLeavingMachineRunning (id : SessionId) : Dap Unit := do
  (resumeKernelTarget id).catching fun _ => .ret ()
  -- ownership is released without ending the session
  .perform (.setSession none)
  store .isExecutionRunning false
  store .detachOnDisconnect false
  store .terminateDebuggeeOnDisconnect false
  store .sessionStopOrExitObserved true

/-- Whether a disconnect detaches the target before the session is disposed. -/
def shouldDetachDebuggee (requested : Option Bool) (terminateOnDisconnect detachOnDisconnect : Bool) :
    Bool :=
  !requested.getD terminateOnDisconnect && (detachOnDisconnect || terminateOnDisconnect)

def disconnectUserTarget (id : SessionId) (terminateDebuggee : Option Bool) : Dap Unit := do
  if ← load .isExecutionRunning then do
    tryInterrupt id
    store .isExecutionRunning false
  else pure ()
  let terminateOnDisconnect ← load .terminateDebuggeeOnDisconnect
  let detachOnDisconnect ← load .detachOnDisconnect
  if shouldDetachDebuggee terminateDebuggee terminateOnDisconnect detachOnDisconnect then
    invoke .request (Session.detachCurrentProcess id)
  else pure ()
  disposeDebuggerSession .request

def disconnectDebuggerSession (terminateDebuggee : Option Bool) : Dap Unit := do
  match ← getSession with
  | none => return
  | some id => do
    store .kernelInitialResumePending false
    let s ← readSession id
    if s.isKernel then disconnectKernelLeavingMachineRunning id
    else disconnectUserTarget id terminateDebuggee

def handleDisconnectRequest (request : Request (Option DisconnectArguments)) : Dap Unit := do
  let shouldSendTerminatedEvent ← match ← getSession with
    | none => pure false
    | some _ => do pure !(← load .sessionStopOrExitObserved)
  disconnectDebuggerSession (request.arguments.bind DisconnectArguments.terminateDebuggee)
  sendResponse request .empty
  if shouldSendTerminatedEvent then sendEvent .terminated else pure ()
  store .shouldExit true

end Server

end DapDbgeng
