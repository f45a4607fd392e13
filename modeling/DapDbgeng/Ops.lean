/-
  What the operations do, and the operations as programs.

  `apply` is executable: given what the engine and the operating system answer, an operation of a
  thread either has a result and a next state or is not enabled (a lock is held, the dispatcher
  serves another caller, the loop thread has not finished).  `sem` forgets the answers.
-/
import DapDbgeng.State

namespace DapDbgeng

open Concurrent

/-! ## Answers -/

/-- A truthful answer for every call: queries succeed, commands succeed and print nothing. -/
def Call.default : ∀ {β : Type}, Call β → EngineState → β
  | _, .createEngine _, _ => .ok true
  | _, .clearCallbacks, _ => ()
  | _, .endSessionTerminate, _ => ()
  | _, .connectProcessServer _, _ => .ok 1
  | _, .disconnectProcessServer _, _ => ()
  | _, .createProcess .., _ => .ok ()
  | _, .addInitialBreak, _ => .ok ()
  | _, .attachProcess .., _ => .ok ()
  | _, .attachKernel _, _ => .ok ()
  | _, .openDumpFile _, _ => .ok ()
  | _, .detachProcesses, _ => .ok ()
  | _, .processIdByName .., _ => none
  | _, .execute _, _ => {}
  | _, .setInterrupt, _ => .ok ()
  | _, .waitForEvent, _ => .ok ()
  | _, .lastEvent, _ => none
  | _, .numberThreads, e => .ok e.threads.length
  | _, .threadIdsByIndex _, e => .ok e.systemIds
  | _, .currentThreadId, e => .ok e.current
  | _, .threadIdBySystemId s, e =>
    match e.threads.find? fun p => p.2 = s with
    | some p => .ok p.1
    | none => .error 0x80004002
  | _, .setCurrentThreadId id, e =>
    if (e.threads.lookup id).isSome then .ok () else .error 0x80070057
  | _, .visibleBreakpointIds, e => e.breakpointIds
  | _, .stackTrace, _ => .ok []
  | _, .scopeLocals, _ => some []
  | _, .scopeSymbols, _ => some []
  | _, .openSymbol _, _ => .unresolved
  | _, .writeSymbol .., _ => .ok ()
  | _, .readSymbol _, _ => {}
  | _, .symbolOffset _, _ => none
  | _, .symbolSize _, _ => none
  | _, .setScopeFrame _, _ => true
  | _, .registers, _ => []
  | _, .setSymbolPath _, _ => .ok ()
  | _, .modules, _ => .ok []
  | _, .disassembleOne .., _ => none
  | _, .symbolStart _, _ => none
  | _, .readVirtual .., _ => none
  | _, .writeVirtual _ bytes, _ => .ok bytes.length

/-- What the world outside the adapter answers. -/
structure Answers where
  answer : ∀ {β : Type}, Call β → EngineState → β := Call.default
  created : EngineState → List Int := fun _ => []
  after : EngineState → EngineState := id
  deadlinePassed : Bool := true
  pathExists : String → Bool := fun _ => true
  isDirectory : String → Bool := fun _ => false
  executableDirectory : String := ""
  currentDirectory : String := ""
  envVar : String → Option String := fun _ => none
  readFile : String → Option String := fun _ => none

/-! ## Semantics -/

/-- One engine call under the given answers. -/
def applyCall (a : Answers) (id : SessionId) {β : Type} (c : Call β) (s : Server) :
    Option (β × Server) :=
  let e := s.engine id
  let r := a.answer c e
  if c.admissible r e && Call.mayCreate (a.created e) e c then
    some (r, s.updateEngine id (c.effect (a.created e) a.after r))
  else none

def apply (t : Tid) (a : Answers) : ∀ {β : Type}, DapOp β → Server → Option (β × Server)
  | _, .load f, s => some (s.flags f, s)
  | _, .store f b, s => some ((), s.setFlag f b)
  | _, .setPending p, s => some ((), { s with pendingStoppedEvent := some p })
  | _, .clearPending, s => some ((), { s with pendingStoppedEvent := none })
  | _, .takePending, s => some (s.pendingStoppedEvent, { s with pendingStoppedEvent := none })
  | _, .hasPending, s => some (s.pendingStoppedEvent.isSome, s)
  | _, .pushThreadEvent e, s =>
    some ((), { s with pendingThreadEvents := s.pendingThreadEvents ++ [e] })
  | _, .takeThreadEvents, s => some (s.pendingThreadEvents, { s with pendingThreadEvents := [] })
  | _, .clearThreadEvents, s => some ((), { s with pendingThreadEvents := [] })
  | _, .tables, s => some (s.tables, s)
  | _, .modify f, s => some ((f s.tables).1, { s with tables := (f s.tables).2 })
  | _, .send m, s => some ((), if s.outboundOpen then { s with sent := s.sent ++ [m] } else s)
  | _, .session, s => some (s.session, s)
  | _, .setSession id, s => some ((), { s with session := id })
  | _, .takeSession, s => some (s.session, { s with session := none })
  | _, .park id, s => some (s.parked, { s with parked := some id })
  | _, .unpark, s => some (s.parked, { s with parked := none })
  | _, .newSession, s =>
    some (s.sessionCount,
      { s with
        sessions := Function.update s.sessions s.sessionCount {}
        sessionCount := s.sessionCount + 1 })
  | _, .readSession id, s => some (s.sessions id, s)
  | _, .updateSession id u, s => some ((), s.modifySession id (·.update u))
  | _, .call id c, s => applyCall a id c s
  | _, .enter id c, s =>
    match c.pump? with
    | none => none
    | some p =>
      if s.inCall = none ∧ s.holder = some t then some ((), { s with inCall := some (id, p) })
      else none
  | _, .leave id c, s =>
    if s.inCall = c.pump?.map (fun p => (id, p)) ∧ s.callbackActive = false then
      applyCall a id c { s with inCall := none }
    else none
  | _, .enqueue, s => some ((), { s with queue := s.queue ++ [t] })
  | _, .acquire, s =>
    match s.queue with
    | u :: rest =>
      if u = t ∧ s.holder = none then some ((), { s with queue := rest, holder := some t })
      else none
    | [] => none
  | _, .release, s => some ((), { s with holder := none })
  | _, .lockGate, s => if s.gate = none then some ((), { s with gate := some t }) else none
  | _, .unlockGate, s => some ((), { s with gate := none })
  | _, .loopJoinable, s => some (s.loopJoinable, s)
  | _, .takeLoop, s => some (s.loopJoinable, { s with loopJoinable := false })
  | _, .joinLoop, s => if s.loop = .idle then some ((), { s with loopJoinable := false }) else none
  | _, .spawnLoop id, s => some ((), { s with loop := .check id, loopJoinable := true })
  | _, .spawnPump id, s => some ((), { s with pump := some id })
  | _, .deadlinePassed, s => some (a.deadlinePassed, s)
  | _, .sleep _, s => some ((), s)
  | _, .pathExists path, s => some (a.pathExists path, s)
  | _, .isDirectory path, s => some (a.isDirectory path, s)
  | _, .executableDirectory, s => some (a.executableDirectory, s)
  | _, .currentDirectory, s => some (a.currentDirectory, s)
  | _, .envVar name, s => some (a.envVar name, s)
  | _, .fullPath path, s => some (s.fullPath path, s)
  | _, .readFile path, s => some (a.readFile path, s)

/-- What an operation of thread `t` may do. -/
def sem (t : Tid) : StepRel DapOp Server := fun _ o s b s' => ∃ a, apply t a o s = some (b, s')

/-! ## Operations as programs -/

def load (f : Flag) : Dap Bool := .perform (.load f)
def store (f : Flag) (b : Bool) : Dap Unit := .perform (.store f b)
def getTables : Dap Tables := .perform .tables
def modifyTables (f : Tables → Tables) : Dap Unit := .perform (.modify fun d => ((), f d))
def send (m : Message) : Dap Unit := .perform (.send m)
def getSession : Dap (Option SessionId) := .perform .session
def readSession (id : SessionId) : Dap Session := .perform (.readSession id)
def updateSession (id : SessionId) (u : SessionUpdate) : Dap Unit := .perform (.updateSession id u)
def call {β : Type} (id : SessionId) (c : Call β) : Dap β := .perform (.call id c)
def hasPendingStoppedEvent : Dap Bool := .perform .hasPending
def clearPendingStoppedEvent : Dap Unit := .perform .clearPending

def setPendingStoppedEvent (reason : StoppedEventBodyReason) (description : Option String)
    (hitBreakpointIds : Option (List Int) := none) : Dap Unit :=
  .perform (.setPending { reason, description, hitBreakpointIds })

/-- An engine call during which callbacks may run. -/
def pumpCall {β : Type} (id : SessionId) (c : Call β) : Dap β := do
  .perform (.enter id c)
  .perform (.leave id c)

def throwRuntime {α : Type} (what : String) : Dap α := .throw (.runtime what)

/-! ## The dispatcher -/

/-- Run a function on the dispatcher thread and return its result.  On that thread already (in a
callback) it is called directly; otherwise an exception comes back wrapped. -/
def invoke {α : Type} (t : Tid) (body : Dap α) : Dap α :=
  if t = .callback then body
  else do
    .perform .enqueue
    .perform .acquire
    let r ← body.attempt
    .perform .release
    match r with
    | .ok a => return a
    | .error e => .throw (.dispatcherFailure e.what)

end DapDbgeng
