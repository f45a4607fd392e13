/-
  The shared state of the adapter and the operations its threads perform on it.

  Threads:

  * `request`: reads the requests and runs their handlers, then the destructor;
  * `loop`: the wait loop started by a resume;
  * `callback`: the engine's callbacks.  They run on the dispatcher thread while it is inside an
    engine call, so at most one runs at a time and the call returns only when it is done;
  * `pump`: the detached wait of a kernel disconnect.

  The dispatcher thread is a queue of callers and the caller whose function it runs.
-/
import DapDbgeng.Engine
import DapDbgeng.Concurrent.Threads

namespace DapDbgeng

abbrev SessionId := Nat

inductive Tid where
  | request | loop | callback | pump
  deriving DecidableEq, Repr

/-! ## State -/

/-- The boolean members of `dap_server`. -/
inductive Flag where
  | isExecutionRunning
  | sessionStopOrExitObserved
  | suppressSessionEvents
  | kernelInitialResumePending
  | skipNextBreakHitEvent
  | detachOnDisconnect
  | terminateDebuggeeOnDisconnect
  | launchAwaitingConfigurationDone
  | launchStopAtEntry
  | restoreSourceLineSteppingAfterStop
  | shouldExit
  | initializeRequestHandled
  | hasCurrentRequestJson
  | waitLoopActive
  deriving DecidableEq, Repr

/-- A thread event held back until the next stop. -/
structure ThreadEvent where
  reason : ThreadEventBodyReason
  threadId : Int
  deriving DecidableEq

structure PendingStoppedEvent where
  reason : StoppedEventBodyReason
  description : Option String
  hitBreakpointIds : Option (List Int) := none
  deriving DecidableEq

inductive VariableContainerKind where
  | locals | registers | structure_
  deriving DecidableEq, Repr

structure FrameContext where
  threadId : Int := 0
  frameNumber : Nat := 0
  source : Option SourceLocation := none
  deriving DecidableEq

structure VariableContainerContext where
  threadId : Int := 0
  frameNumber : Nat := 0
  kind : VariableContainerKind := .locals
  variables_ : List Variable := []

/-- Maps of the source, as association lists with one entry for each key. -/
abbrev AssocMap (κ ν : Type) := List (κ × ν)

namespace AssocMap

variable {κ ν : Type} [DecidableEq κ]

def get? (m : AssocMap κ ν) (k : κ) : Option ν :=
  match m with
  | [] => none
  | (k', v) :: rest => if k' = k then some v else get? rest k

def erase (m : AssocMap κ ν) (k : κ) : AssocMap κ ν := m.filter fun p => p.1 ≠ k

/-- Insert or assign. -/
def set (m : AssocMap κ ν) (k : κ) (v : ν) : AssocMap κ ν := (k, v) :: erase m k

@[simp] theorem get?_nil (k : κ) : get? ([] : AssocMap κ ν) k = none := rfl

theorem get?_cons (p : κ × ν) (m : AssocMap κ ν) (k : κ) :
    get? (p :: m) k = if p.1 = k then some p.2 else get? m k := rfl

theorem get?_erase (m : AssocMap κ ν) (k k' : κ) :
    get? (erase m k) k' = if k' = k then none else get? m k' := by
  induction m with
  | nil => simp [erase]
  | cons p m ih =>
    have hcons : erase (p :: m) k = if p.1 = k then erase m k else p :: erase m k := by
      by_cases h : p.1 = k <;> simp [erase, h]
    rw [hcons, get?_cons]
    by_cases h : p.1 = k
    · rw [if_pos h, ih, h]
      by_cases h' : k' = k
      · simp [h']
      · rw [if_neg h', if_neg h', if_neg (Ne.symm h')]
    · rw [if_neg h, get?_cons, ih]
      by_cases h' : p.1 = k'
      · rw [if_pos h', if_pos h', if_neg (h' ▸ h)]
      · rw [if_neg h', if_neg h']

@[simp] theorem get?_set (m : AssocMap κ ν) (k k' : κ) (v : ν) :
    get? (set m k v) k' = if k' = k then some v else get? m k' := by
  rw [set, get?_cons, get?_erase]
  by_cases h : k' = k
  · simp [h]
  · rw [if_neg (Ne.symm h), if_neg h, if_neg h]

end AssocMap

/-- The members of `dap_server` that only request handlers and resets touch. -/
structure Tables where
  frameContexts : AssocMap Int FrameContext := []
  nextVariablesReference : Int := 1
  variablesByReference : AssocMap Int VariableContainerContext := []
  conditionalBreakpointConditionsById : AssocMap Int String := []
  conditionalBreakpointIdsByPath : AssocMap String (List Int) := []
  launchThreadId : Option Int := none
  currentRequestJson : Json := .null

inductive BreakpointKind where
  | function | instruction | data
  deriving DecidableEq, Repr

/-- A `debugger_session` object. -/
structure Session where
  disposed : Bool := false
  terminateDebuggeeOnDispose : Bool := true
  isKernel : Bool := false
  processServerHandle : Nat := 0
  dbghelpLoaded : Bool := false
  outputCapture : Option String := none
  suppressCapturedOutputForwarding : Bool := false
  sourceBreakpointIdsByPath : AssocMap String (List Int) := []
  commandBreakpointIds : BreakpointKind → List Int := fun _ => []
  lastException : Option LastExceptionInfo := none
  cppFirstChanceBreak : Bool := false
  engine : EngineState := {}

/-- The writes to the members of a `debugger_session`. -/
inductive SessionUpdate where
  | dispose
  | terminateDebuggeeOnDispose (b : Bool)
  | isKernel
  | processServerHandle (handle : Nat)
  | dbghelpLoaded (b : Bool)
  | beginCapture (suppress : Bool)
  | appendCapture (text : String)
  | endCapture
  | eraseSource (key : String)
  | trackSource (key : String) (ids : List Int)
  | track (kind : BreakpointKind) (ids : List Int)
  | lastException (info : Option LastExceptionInfo)
  | cppFirstChanceBreak (b : Bool)

def Session.update (s : Session) : SessionUpdate → Session
  | .dispose => { s with disposed := true }
  | .terminateDebuggeeOnDispose b => { s with terminateDebuggeeOnDispose := b }
  | .isKernel => { s with isKernel := true }
  | .processServerHandle handle => { s with processServerHandle := handle }
  | .dbghelpLoaded b => { s with dbghelpLoaded := b }
  | .beginCapture suppress =>
    { s with outputCapture := some "", suppressCapturedOutputForwarding := suppress }
  | .appendCapture text => { s with outputCapture := s.outputCapture.map (· ++ text) }
  | .endCapture => { s with outputCapture := none, suppressCapturedOutputForwarding := false }
  | .eraseSource key =>
    { s with sourceBreakpointIdsByPath := s.sourceBreakpointIdsByPath.erase key }
  | .trackSource key ids =>
    { s with sourceBreakpointIdsByPath := s.sourceBreakpointIdsByPath.set key ids }
  | .track kind ids =>
    { s with commandBreakpointIds := Function.update s.commandBreakpointIds kind ids }
  | .lastException info => { s with lastException := info }
  | .cppFirstChanceBreak b => { s with cppFirstChanceBreak := b }

/-- Where the wait-loop thread is; `idle` is a thread that does not exist or has finished. -/
inductive LoopPhase where
  | idle
  /-- About to evaluate the loop condition. -/
  | check (session : SessionId)
  /-- In the loop body. -/
  | body (session : SessionId)
  /-- Past the loop, before the thread ends. -/
  | leaving
  deriving DecidableEq, Repr

/-- What the main thread will do next: read requests, leave `run`, or nothing. -/
inductive Mode where
  | serving | exiting | gone
  deriving DecidableEq, Repr

structure Server where
  flags : Flag → Bool := fun _ => false
  pendingStoppedEvent : Option PendingStoppedEvent := none
  pendingThreadEvents : List ThreadEvent := []
  tables : Tables := {}
  /-- Messages handed to the writer, and whether it still takes any. -/
  sent : List Message := []
  outboundOpen : Bool := true
  /-- `debugger_session_` and `pending_disposed_session_`. -/
  session : Option SessionId := none
  parked : Option SessionId := none
  sessions : SessionId → Session := fun _ => {}
  sessionCount : Nat := 0
  /-- The dispatcher: callers waiting, the caller being served, the engine call it is inside of. -/
  queue : List Tid := []
  holder : Option Tid := none
  inCall : Option (SessionId × Call.Pump) := none
  callbackActive : Bool := false
  /-- `session_event_wait_gate_` and the wait-loop thread. -/
  gate : Option Tid := none
  loop : LoopPhase := .idle
  loopJoinable : Bool := false
  pump : Option SessionId := none
  mode : Mode := .serving
  /-- `std::filesystem::absolute(path).lexically_normal()`. -/
  fullPath : String → String := id

namespace Server

def setFlag (s : Server) (f : Flag) (b : Bool) : Server :=
  { s with flags := Function.update s.flags f b }

def modifySession (s : Server) (id : SessionId) (f : Session → Session) : Server :=
  { s with sessions := Function.update s.sessions id (f (s.sessions id)) }

/-- The engine behind a session. -/
def engine (s : Server) (id : SessionId) : EngineState := (s.sessions id).engine

def updateEngine (s : Server) (id : SessionId) (f : EngineState → EngineState) : Server :=
  s.modifySession id fun x => { x with engine := f x.engine }

end Server

/-! ## Operations -/

/-- What a thread does in one step. -/
inductive DapOp : Type → Type 1 where
  | load (f : Flag) : DapOp Bool
  | store (f : Flag) (b : Bool) : DapOp Unit
  -- under `pending_stopped_gate_`
  | setPending (p : PendingStoppedEvent) : DapOp Unit
  | clearPending : DapOp Unit
  | takePending : DapOp (Option PendingStoppedEvent)
  | hasPending : DapOp Bool
  -- under `pending_thread_events_gate_`
  | pushThreadEvent (e : ThreadEvent) : DapOp Unit
  | takeThreadEvents : DapOp (List ThreadEvent)
  | clearThreadEvents : DapOp Unit
  | tables : DapOp Tables
  | modify {β : Type} (f : Tables → β × Tables) : DapOp β
  | send (m : Message) : DapOp Unit
  -- the session pointers
  | session : DapOp (Option SessionId)
  | setSession (id : Option SessionId) : DapOp Unit
  | takeSession : DapOp (Option SessionId)
  | park (id : SessionId) : DapOp (Option SessionId)
  | unpark : DapOp (Option SessionId)
  -- session objects and their engine
  | newSession : DapOp SessionId
  | readSession (id : SessionId) : DapOp Session
  | updateSession (id : SessionId) (u : SessionUpdate) : DapOp Unit
  | call {β : Type} (id : SessionId) (c : Call β) : DapOp β
  | enter {β : Type} (id : SessionId) (c : Call β) : DapOp Unit
  | leave {β : Type} (id : SessionId) (c : Call β) : DapOp β
  -- the dispatcher
  | enqueue : DapOp Unit
  | acquire : DapOp Unit
  | release : DapOp Unit
  -- the wait loop
  | lockGate : DapOp Unit
  | unlockGate : DapOp Unit
  | loopJoinable : DapOp Bool
  | takeLoop : DapOp Bool
  | joinLoop : DapOp Unit
  | spawnLoop (id : SessionId) : DapOp Unit
  | spawnPump (id : SessionId) : DapOp Unit
  -- the machine
  | deadlinePassed : DapOp Bool
  | sleep (milliseconds : Nat) : DapOp Unit
  | pathExists (path : String) : DapOp Bool
  | isDirectory (path : String) : DapOp Bool
  | executableDirectory : DapOp String
  | currentDirectory : DapOp String
  | envVar (name : String) : DapOp (Option String)
  | fullPath (path : String) : DapOp String
  | readFile (path : String) : DapOp (Option String)

/-- An exception: a `std::runtime_error`, the dispatcher's wrapper, or a request without a
handler. -/
inductive Exn where
  | runtime (what : String)
  | dispatcherFailure (inner : String)
  | unhandledRequest (seq : Int) (command : String)
  deriving DecidableEq

namespace Exn

def what : Exn → String
  | .runtime what => what
  | .dispatcherFailure _ => "A debugger session operation failed on the dispatcher thread."
  | .unhandledRequest _ command => "No handler implemented for DAP request " ++ command

/-- `debugger_session_dispatcher::unwrap_failure_message`, with the text itself as fallback. -/
def unwrapFailureMessage : Exn → String
  | .dispatcherFailure inner => inner
  | e => e.what

end Exn

abbrev Dap (α : Type) := Concurrent.Prog DapOp Exn α

end DapDbgeng
