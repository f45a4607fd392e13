/-
  The life of a `debugger_session`: constructor, targets, detach and terminate, destructor.
-/
import DapDbgeng.Breakpoints

namespace DapDbgeng

namespace Session

/-! ## Constructor and destructor -/

def getDbgengDirectory (enginePath : String) : Dap String := do
  if ← .perform (.isDirectory enginePath) then return enginePath
  else if Text.hasParentPath enginePath then return Text.parentPath enginePath
  else throwRuntime "The debugger engine path must resolve to a directory."

/-- The constructor: load the engine and register the callbacks. -/
def create (enginePath : String) : Dap SessionId := do
  let id ← .perform .newSession
  throwIfNullOrWhitespace enginePath "enginePath"
  let directory ← getDbgengDirectory enginePath
  let r ← call id (.createEngine directory)
  match r with
  | .error message => throwRuntime message
  | .ok dbghelpLoaded => do
    updateSession id (.dbghelpLoaded dbghelpLoaded)
    return id

def disconnectProcessServer (id : SessionId) : Dap Unit := do
  let s ← readSession id
  if s.processServerHandle = 0 then return
  else do
    call id (.disconnectProcessServer s.processServerHandle)
    updateSession id (.processServerHandle 0)

/-- `EndSession(DEBUG_END_ACTIVE_TERMINATE)`.  A call from inside a callback is not one during
which further callbacks run. -/
def endSession (t : Tid) (id : SessionId) : Dap Unit :=
  if t = .callback then call id .endSessionTerminate else pumpCall id .endSessionTerminate

/-- The destructor. -/
def destroy (t : Tid) (id : SessionId) : Dap Unit := do
  let s ← readSession id
  if s.disposed then return
  else do
    call id .clearCallbacks
    if s.terminateDebuggeeOnDispose then endSession t id else pure ()
    disconnectProcessServer id
    updateSession id .dispose

/-! ## Targets -/

def connectProcessServer (id : SessionId) (connectionString : String) : Dap Unit := do
  throwIfDisposed id
  throwIfNullOrWhitespace connectionString "connectionString"
  let s ← readSession id
  if !s.dbghelpLoaded then
    throwRuntime ("This debug engine cannot be used for remote (dbgsrv) debugging: its dbghelp.dll " ++
      "could not be loaded, which the engine needs for process-server connections. The Store " ++
      "version of WinDbg does not allow it. Install the Debugging Tools for Windows and point " ++
      "'dbgengPath' at that dbgeng.dll (or omit it).")
  else do
    let r ← call id (.connectProcessServer connectionString)
    let server ← checkHr r ("Could not connect to the process server '" ++ connectionString ++ "'")
    updateSession id (.processServerHandle server)

def buildCommandLine (executablePath : String) (arguments : Option String) : String :=
  let quoted := if executablePath.toList.contains ' ' then "\"" ++ executablePath ++ "\""
    else executablePath
  match arguments with
  | none => quoted
  | some a => if a.isEmpty then quoted else quoted ++ " " ++ a

def launch (id : SessionId) (executablePath : String) (arguments : Option String)
    (workingDirectory : String) : Dap Unit := do
  throwIfDisposed id
  throwIfNullOrWhitespace executablePath "executablePath"
  let directory ←
    if !(Text.trimBoth workingDirectory).isEmpty then pure workingDirectory
    else if Text.hasParentPath executablePath then pure (Text.parentPath executablePath)
    else .perform .currentDirectory
  let r ← call id
    (.createProcess 0 (buildCommandLine executablePath arguments) (some directory))
  checkHr r "Could not launch target"
  waitForEvent id

def launchRemote (id : SessionId) (connectionString executablePath : String)
    (arguments : Option String) (workingDirectory : String) : Dap Unit := do
  throwIfDisposed id
  throwIfNullOrWhitespace executablePath "executablePath"
  connectProcessServer id connectionString
  let s ← readSession id
  let directory := if (Text.trimBoth workingDirectory).isEmpty then none else some workingDirectory
  let r ← call id (.createProcess s.processServerHandle
    (buildCommandLine executablePath arguments) directory)
  checkHr r ("Could not launch target on the process server '" ++ connectionString ++ "'")
  waitForEvent id

def attach (id : SessionId) (processId : Int) : Dap Unit := do
  throwIfDisposed id
  let r ← call id .addInitialBreak
  checkHr r "Could not enable initial break"
  let s ← readSession id
  let r ← call id (.attachProcess s.processServerHandle processId)
  checkHr r "Could not attach to target process"
  waitForEvent id

def attachRemote (id : SessionId) (connectionString : String) (processId : Int) : Dap Unit := do
  connectProcessServer id connectionString
  attach id processId

def attachKernel (id : SessionId) (connectionString : String) : Dap Unit := do
  throwIfDisposed id
  throwIfNullOrWhitespace connectionString "connectionString"
  let r ← call id .addInitialBreak
  checkHr r "Could not enable initial break"
  let r ← call id (.attachKernel connectionString)
  checkHr r ("Could not attach to the kernel target '" ++ connectionString ++ "'")
  -- a kernel target cannot be terminated
  updateSession id (.terminateDebuggeeOnDispose false)
  updateSession id .isKernel
  waitForEvent id

def openDumpFile (id : SessionId) (dumpFilePath : String) : Dap Unit := do
  throwIfDisposed id
  throwIfNullOrWhitespace dumpFilePath "dumpFilePath"
  let r ← call id (.openDumpFile dumpFilePath)
  checkHr r "Could not open dump file"
  waitForEvent id

def tryFindProcessIdByExecutableName (id : SessionId) (executableName : String) :
    Dap (Option Nat) := do
  throwIfDisposed id
  let s ← readSession id
  let r ← call id (.processIdByName s.processServerHandle executableName)
  return r.filter (· ≠ 0)

/-! ## Detach and terminate -/

/-- Clearing the breakpoints and the debug registers is best effort. -/
def clearBeforeDetach (id : SessionId) : Dap Unit :=
  Concurrent.Prog.catching
    (do
      clearAllBreakpoints id
      let s ← readSession id
      if s.isKernel then return
      else do
        let _ ← executeCommandWithOutput id .clearDebugRegisters)
    fun _ => .ret ()

def detachAllProcesses (id : SessionId) : Dap Unit := do
  throwIfDisposed id
  clearBeforeDetach id
  updateSession id (.terminateDebuggeeOnDispose false)
  Concurrent.Prog.catching
    (do
      let r ← pumpCall id .detachProcesses
      checkHr r "Could not detach processes")
    fun e => do
      updateSession id (.terminateDebuggeeOnDispose true)
      .throw e

def detachCurrentProcess (id : SessionId) : Dap Unit := do
  throwIfDisposed id
  detachAllProcesses id

def terminateCurrentProcess (id : SessionId) : Dap Unit := do
  throwIfDisposed id
  pumpCall id .endSessionTerminate
  updateSession id (.terminateDebuggeeOnDispose false)

end Session

end DapDbgeng
