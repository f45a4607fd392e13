/-
  The engine's callbacks and the handlers `wire_debugger_session` installs.

  All of this runs on the dispatcher thread, inside an engine call.
-/
import DapDbgeng.Server

namespace DapDbgeng

open Concurrent

namespace Server

/-! ## Queueing events -/

def sendThreadEvent (e : ThreadEvent) : Dap Unit := sendEvent (.thread e.reason e.threadId)

/-- `flush_pending_thread_events`. -/
def flushPendingThreadEvents : Dap Unit := do
  let events ← .perform .takeThreadEvents
  .forEach sendThreadEvent events

def queueThreadEvent (reason : ThreadEventBodyReason) : Dap Unit := do
  match ← tryGetCurrentThreadId .callback with
  | none => return
  | some threadId => do
    let held ← if ← load .isExecutionRunning then pure true else hasPendingStoppedEvent
    if held then .perform (.pushThreadEvent { reason, threadId })
    else sendThreadEvent { reason, threadId }

def queueSessionTermination (exitCode : Int) : Dap Unit := do
  store .isExecutionRunning false
  store .sessionStopOrExitObserved true
  flushPendingThreadEvents
  sendEvent (.exited exitCode)
  sendEvent .terminated
  disposeDebuggerSession .callback
  store .shouldExit true

def queueSessionEnded : Dap Unit := do
  store .isExecutionRunning false
  store .sessionStopOrExitObserved true
  match ← getSession with
  | none => return
  | some _ => do
    flushPendingThreadEvents
    sendEvent .terminated
    disposeDebuggerSession .callback
    store .shouldExit true

/-! ## Automatic continuation -/

def isWordChar (c : Char) : Bool := c.isAlphanum || c = '_'

/-- The last word of a text that is `true` or `false`, case ignored. -/
def lastVerdict (output : String) : Option Bool :=
  let words := (Text.splitList (fun c => !isWordChar c) output.toList).map fun w =>
    Text.toLowerAscii (String.ofList w)
  (words.reverse.find? fun w => w = "true" || w = "false").map fun w => w = "true"

def tryEvaluateConditionalBreakpoint (id : SessionId) (condition : String) : Dap (Option Bool) :=
  Prog.catching
    (do
      let output ← Session.executeCommandWithOutput id (.condition condition)
      return lastVerdict output)
    fun _ => .ret none

/-- What both automatic continuations do. -/
def autoContinue (id : SessionId) : Dap Unit := do
  resetSuspendedState
  clearPendingStoppedEvent
  store .sessionStopOrExitObserved false
  store .isExecutionRunning true
  store .skipNextBreakHitEvent true
  Session.continue_ id

def tryAutoContinueConditionalBreakpointHit (id : SessionId) (breakpointId : Nat) : Dap Bool := do
  let d ← getTables
  match d.conditionalBreakpointConditionsById.get? (Factory.toInt32 breakpointId) with
  | none => return false
  | some condition => do
    let result ← tryEvaluateConditionalBreakpoint id condition
    -- anything but false surfaces the stop
    if result.getD true then return false
    else do
      autoContinue id
      return true

def tryAutoContinueKernelInitialBreak (id : SessionId) : Dap Bool := do
  if !(← load .kernelInitialResumePending) then return false
  else if ← load .suppressSessionEvents then return false
  else do
    store .kernelInitialResumePending false
    autoContinue id
    return true

def isRepresentedStopWhileHalted : Dap Bool := do return !(← load .isExecutionRunning)

/-! ## Wired handlers -/

/-- A stop that is not continued: halt, and unless events are suppressed record its reason. -/
def recordStop (record : Dap Unit) : Dap Unit := do
  if ← isRepresentedStopWhileHalted then return
  else do
    store .isExecutionRunning false
    store .sessionStopOrExitObserved true
    if ← load .suppressSessionEvents then clearPendingStoppedEvent else record

def onBreakpointHit (id : SessionId) (breakpointId : Nat) : Dap Unit := do
  if ← tryAutoContinueConditionalBreakpointHit id breakpointId then return
  else recordStop (setPendingStoppedEvent .breakpoint
    (some s!"Paused on breakpoint {breakpointId}.") (some [Factory.toInt32 breakpointId]))

def onExceptionHit (id : SessionId) (exceptionCode : Nat) : Dap Unit := do
  if ← tryAutoContinueKernelInitialBreak id then return
  else recordStop do
    -- a reason the request thread already set (pause, step) stays
    if ← hasPendingStoppedEvent then return
    else
      setPendingStoppedEvent .exception
        (some ("Paused on exception 0x" ++ Text.hex08 exceptionCode ++ "."))

def onBreakHit : Dap Unit := do
  if ← load .skipNextBreakHitEvent then store .skipNextBreakHitEvent false
  else do
    store .isExecutionRunning false
    store .sessionStopOrExitObserved true
    let pending ← .perform .takePending
    if ← load .suppressSessionEvents then return
    else
      match pending with
      | none => return
      | some p => do
        flushPendingThreadEvents
        let threadId ← tryGetCurrentThreadId .callback
        sendEvent (Factory.createStoppedEvent p.reason p.description threadId p.hitBreakpointIds)

/-! ## Callbacks -/

def onException (id : SessionId) (code address : Nat) (firstChance : Bool) : Dap Unit := do
  let s ← readSession id
  -- a first-chance C++ exception stops only when the filter is on
  if firstChance && code == 0xE06D7363 && !s.cppFirstChanceBreak then return
  else do
    updateSession id (.lastException (some { code, address, firstChance }))
    onExceptionHit id code

/-- The methods of `event_callbacks` and `output_callbacks`. -/
def onCallback (id : SessionId) : Callback → Dap Unit
  | .breakpoint => do
    let breakpointId ← Session.getLastBreakpointId id
    onBreakpointHit id breakpointId
  | .exception code address firstChance => onException id code address firstChance
  | .systemError error => onExceptionHit id error
  | .break_ => onBreakHit
  | .noDebuggee => queueSessionEnded
  | .sessionEnd => queueSessionEnded
  | .exitProcess exitCode => queueSessionTermination (Factory.toInt32 exitCode)
  | .createThread => queueThreadEvent .started
  | .exitThread => queueThreadEvent .exited
  | .output text => if text.isEmpty then return else Session.handleOutputReceived id text

end Server

end DapDbgeng
