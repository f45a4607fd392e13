/-
  How the programs of the adapter are put together.

  The threads meet in few places: a function is passed to the dispatcher thread and waited for, the
  wait loop is started and joined under its gate, events are suppressed around an update, and a
  session is opened to a kernel or ended.  All the rest of a program is operations that concern no
  other thread's progress.

  * `Orderly`: the programs put together from these;
  * `Session.*_orderly`: the methods of `debugger_session` are;
  * `Server.handleRequest_orderly`, `Server.onCallback_orderly`: the handlers of requests and of
    engine callbacks are.
-/
import DapDbgeng.Permits

namespace DapDbgeng

open Concurrent Concurrent.Prog

/-! ## Operations -/

/-- Which side of the dispatcher a program runs on: it calls the dispatcher, is a function passed to
it, or is an engine callback. -/
inductive Side where
  | caller | dispatcher | callback
  deriving DecidableEq

/-- The sides that are on the dispatcher thread. -/
class Side.OnThread (side : Side) : Prop where
  ne_caller : side ≠ .caller

instance : Side.OnThread .dispatcher := ⟨by rintro ⟨⟩⟩
instance : Side.OnThread .callback := ⟨by rintro ⟨⟩⟩

/-- The one engine call that may be made from any thread. -/
def Call.isInterrupt : ∀ {β : Type}, Call β → Bool
  | _, .setInterrupt => true
  | _, _ => false

/-- The calls that do not end the session. -/
def Call.mild : ∀ {β : Type}, Call β → Prop
  | _, .endSessionTerminate => False
  | _, _ => True

/-- The writes to a session that have no say in how it ends. -/
def SessionUpdate.plain : SessionUpdate → Prop
  | .terminateDebuggeeOnDispose _ | .isKernel => False
  | _ => True

/-- The same conditions of breakpoints, listed under the same paths. -/
def Tables.SameConditions (d d' : Tables) : Prop :=
  d'.conditionalBreakpointConditionsById = d.conditionalBreakpointConditionsById ∧
    d'.conditionalBreakpointIdsByPath = d.conditionalBreakpointIdsByPath

theorem Tables.SameConditions.trans {d d' d'' : Tables} (h : d.SameConditions d')
    (h' : d'.SameConditions d'') : d.SameConditions d'' :=
  ⟨h'.1.trans h.1, h'.2.trans h.2⟩

/-- A write to the tables that leaves the conditions of breakpoints alone. -/
def SparesConditions {β : Type} (f : Tables → β × Tables) : Prop :=
  ∀ d : Tables, d.SameConditions (f d).2

/-- The operations that concern no other thread's progress. -/
def DapOp.plainOn (side : Side) : ∀ {β : Type}, DapOp β → Prop
  | _, .store .waitLoopActive _ | _, .store .suppressSessionEvents true => False
  | _, .store .initializeRequestHandled _ | _, .send (.event .initialized) => False
  | _, .modify f => SparesConditions f
  | _, .updateSession _ u => u.plain
  | _, .newSession => side = .dispatcher
  | _, .call _ c => c.mild ∧ (side = .caller → c.isInterrupt = true)
  | _, .enter .. | _, .leave .. | _, .enqueue | _, .acquire | _, .release => False
  | _, .lockGate | _, .unlockGate | _, .loopJoinable => False
  | _, .takeLoop | _, .joinLoop | _, .spawnLoop _ => False
  | _, _ => True

/-- The events after which there is no session. -/
def Callback.endsSession : Callback → Bool
  | .noDebuggee | .sessionEnd | .exitProcess _ => true
  | _ => false

/-- What a program may rely on and do: sessions that are known not to be opened to a kernel, whether
it may open one, whether the client has asked to end the target or to set breakpoints in a file, and
whether the engine has reported the end of the session. -/
structure Licence where
  users : SessionId → Prop := fun _ => False
  opensKernel : Prop := False
  terminates : Prop := False
  records : Prop := False
  ends : Prop := False

def Licence.withUser (L : Licence) (id : SessionId) : Licence :=
  { L with users := fun x => x = id ∨ L.users x }

/-! ## Programs -/

/-! The parts of the methods of a session that decide how it ends. -/

namespace Session

def markKernel (id : SessionId) : Dap Unit := do
  updateSession id (.terminateDebuggeeOnDispose false)
  updateSession id .isKernel

def leaveTarget (id : SessionId) : Dap Unit := do
  updateSession id (.terminateDebuggeeOnDispose false)
  Prog.catching
    (do
      let r ← pumpCall id .detachProcesses
      checkHr r "Could not detach processes")
    fun e => do
      updateSession id (.terminateDebuggeeOnDispose true)
      .throw e

def killTarget (id : SessionId) : Dap Unit := do
  pumpCall id .endSessionTerminate
  updateSession id (.terminateDebuggeeOnDispose false)

end Session

open Server in
/-- The programs put together from plain operations and the places where the threads meet. -/
inductive Orderly : Licence → Side → ∀ {α : Type}, Dap α → Prop where
  | ret {L : Licence} {side : Side} {α : Type} (a : α) : Orderly L side (.ret a)
  | throw {L : Licence} {side : Side} {α : Type} (e : Exn) : Orderly L side (.throw e : Dap α)
  | bind {L : Licence} {side : Side} {α β : Type} {p : Dap α} {f : α → Dap β}
      (hp : Orderly L side p) (hf : ∀ a, Orderly L side (f a)) : Orderly L side (p.bind f)
  | catching {L : Licence} {side : Side} {α : Type} {p : Dap α} {h : Exn → Dap α}
      (hp : Orderly L side p) (hh : ∀ e, Orderly L side (h e)) : Orderly L side (p.catching h)
  | perform {L : Licence} {side : Side} {α : Type} {o : DapOp α} (h : o.plainOn side) :
      Orderly L side (Prog.perform o)
  /-- A call during which the engine may run callbacks. -/
  | pumpCall {L : Licence} {α : Type} {c : Call α} (id : SessionId) (hc : c.mild)
      (hp : c.pump?.isSome = true) : Orderly L .dispatcher (pumpCall id c)
  /-- A function passed to the dispatcher. -/
  | dispatch {L : Licence} {t : Tid} {α : Type} {p : Dap α} (ht : t ≠ .callback)
      (hp : Orderly L .dispatcher p) : Orderly L .caller (invoke t p)
  | suppressed {L : Licence} {α : Type} {p : Dap α} (hp : Orderly L .caller p) :
      Orderly L .caller (runWithSuppressedSessionEvents p)
  | joinLoop {L : Licence} : Orderly L .caller joinWaitLoop
  | startLoop {L : Licence} (id : SessionId) : Orderly L .caller (startWaitingForSessionEvent id)
  | handleInitialize {L : Licence} (request : Request Unit) :
      Orderly L .caller (handleInitializeRequest request)
  /-- All conditions are forgotten with the session. -/
  | clearConditions {L : Licence} {side : Side} (h : side = .caller ∨ side = .callback ∧ L.ends) :
      Orderly L side clearConditions
  | recordConditions {L : Licence} (h : L.records) (sourcePath : String)
      (configured : List SourceBreakpointResult) (requested : List SourceBreakpoint) :
      Orderly L .caller (updateConditionalBreakpointState sourcePath configured requested)
  /-- The destructor, inside a callback or not. -/
  | destroy {L : Licence} {side : Side} [side.OnThread] {t : Tid} (id : SessionId)
      (ht : t = .callback ↔ side = .callback) : Orderly L side (Session.destroy t id)
  | markKernel {L : Licence} (h : L.opensKernel) (hL : ∀ id, ¬L.users id) (id : SessionId) :
      Orderly L .dispatcher (Session.markKernel id)
  /-- A look at the kind of the session, and what is done with one that is not a kernel's. -/
  | byKind {L : Licence} {α : Type} {id : SessionId} {p q : Dap α} (hp : Orderly L .caller p)
      (hq : Orderly (L.withUser id) .caller q) :
      Orderly L .caller ((readSession id).bind fun s => if s.isKernel then p else q)
  | leaveTarget {L : Licence} {id : SessionId} (h : L.users id) :
      Orderly L .dispatcher (Session.leaveTarget id)
  | killTarget {L : Licence} (id : SessionId) (h : L.terminates) :
      Orderly L .dispatcher (Session.killTarget id)

namespace Orderly

variable {L : Licence} {side : Side} {α β : Type}

theorem ite {c : Prop} [Decidable c] {p q : Dap α} (hp : Orderly L side p)
    (hq : Orderly L side q) : Orderly L side (if c then p else q) := by
  split
  · exact hp
  · exact hq

theorem attempt {p : Dap α} (hp : Orderly L side p) : Orderly L side p.attempt := by
  have h : p.attempt = (p.bind fun a => .ret (Except.ok a)).catching fun e => .ret (.error e) := by
    clear hp
    induction p with
    | ret | throw => rfl
    | op o k ih =>
      simp only [Prog.attempt, op_bind, Prog.catching]
      exact congrArg _ (funext fun b => ih b)
  rw [h]
  exact .catching (.bind hp fun _ => .ret _) fun _ => .ret _

theorem forEach {f : α → Dap Unit} (hf : ∀ a, Orderly L side (f a)) (xs : List α) :
    Orderly L side (Prog.forEach f xs) := by
  induction xs with
  | nil => exact .ret _
  | cons x xs ih => exact .bind (hf x) fun _ => ih

theorem mapEach {f : α → Dap β} (hf : ∀ a, Orderly L side (f a)) (xs : List α) :
    Orderly L side (Prog.mapEach f xs) := by
  induction xs with
  | nil => exact .ret _
  | cons x xs ih => exact .bind (hf x) fun _ => .bind ih fun _ => .ret _

/-- In a callback a function for the dispatcher is called in place. -/
theorem inPlace {p : Dap α} (hp : Orderly L .callback p) :
    Orderly L .callback (invoke .callback p) := by
  rw [invoke, if_pos rfl]
  exact hp

theorem call [hs : side.OnThread] {c : Call β} (id : SessionId) (hc : c.mild) :
    Orderly L side (DapDbgeng.call id c) :=
  .perform ⟨hc, fun h => absurd h hs.ne_caller⟩

theorem store {f : Flag} {b : Bool} (h : (DapOp.store f b).plainOn side) :
    Orderly L side (DapDbgeng.store f b) := .perform h

theorem modifyTables {f : Tables → Tables} (h : SparesConditions fun d => ((), f d)) :
    Orderly L side (DapDbgeng.modifyTables f) := .perform h

end Orderly

/-! ## The methods of a session -/

namespace Session

variable {L : Licence} {side : Side} (id : SessionId)

section

variable {α : Type}

theorem checkHr_orderly (r : Reply α) (message : String) :
    Orderly L side (checkHr r message) := by
  cases r
  · exact .throw _
  · exact .ret _

theorem throwIfDisposed_orderly : Orderly L side (throwIfDisposed id) :=
  .bind (.perform trivial) fun _ => .ite (.throw _) (.ret _)

theorem throwIfNullOrWhitespace_orderly (value what : String) :
    Orderly L side (throwIfNullOrWhitespace value what) := .ite (.throw _) (.ret _)

theorem interrupt_orderly : Orderly L side (interrupt id) :=
  .bind (throwIfDisposed_orderly id) fun _ =>
    .bind (.perform ⟨trivial, fun _ => rfl⟩) fun _ => checkHr_orderly _ _

end

/-! ### Commands -/

theorem beginOutputCapture_orderly (suppress : Bool) :
    Orderly L side (beginOutputCapture id suppress) :=
  .bind (.perform trivial) fun _ => .ite (.throw _) (.perform trivial)

theorem endOutputCapture_orderly : Orderly L side (endOutputCapture id) :=
  .bind (.perform trivial) fun _ => .bind (.perform trivial) fun _ => .ret _

theorem handleOutputReceived_orderly (text : String) :
    Orderly L side (handleOutputReceived id text) :=
  .bind (.perform trivial) fun _ => .bind (.perform trivial) fun _ =>
    .ite (.ite (.ret _) (.perform trivial)) (.ret _)

variable [side.OnThread]

/-- Only a command of the user may run callbacks, and not inside one. -/
theorem execute_orderly {command : Command}
    (h : (Call.execute command).pump?.isSome = true → side = .dispatcher) :
    Orderly L side (execute id command) := by
  have rest (r : ExecuteResult) : Orderly L side (do
      .forEach (handleOutputReceived id) (r.output.filter fun text => !text.isEmpty)
      return r.status) :=
    .bind (.forEach (handleOutputReceived_orderly id) _) fun _ => .ret _
  unfold execute
  by_cases hp : (Call.execute command).pump?.isSome = true
  · obtain rfl := h hp
    rw [if_pos hp]
    exact .bind (.pumpCall id trivial hp) rest
  · rw [if_neg hp]
    exact .bind (.call id trivial) rest

theorem executeDebuggerCommand_orderly {command : Command}
    (h : (Call.execute command).pump?.isSome = true → side = .dispatcher) (message : String) :
    Orderly L side (executeDebuggerCommand id command message) :=
  .bind (throwIfDisposed_orderly id) fun _ => .bind (execute_orderly id h) fun _ =>
    checkHr_orderly _ _

theorem executeCommandWithOutput_orderly {command : Command}
    (h : (Call.execute command).pump?.isSome = true → side = .dispatcher) (suppress : Bool) :
    Orderly L side (executeCommandWithOutput id command suppress) :=
  .bind (throwIfDisposed_orderly id) fun _ => .bind (throwIfNullOrWhitespace_orderly _ _) fun _ =>
    .bind (beginOutputCapture_orderly id suppress) fun _ =>
      .catching (.bind (executeDebuggerCommand_orderly id h _) fun _ => endOutputCapture_orderly id)
        fun _ => .bind (.perform trivial) fun _ => .throw _

/-- A command that is not the user's. -/
theorem ownCommand_orderly {command : Command} (h : (Call.execute command).pump? = none)
    (suppress : Bool) : Orderly L side (executeCommandWithOutput id command suppress) :=
  executeCommandWithOutput_orderly id (fun hp => by rw [h] at hp; cases hp) suppress

theorem ownDebuggerCommand_orderly {command : Command} (h : (Call.execute command).pump? = none)
    (message : String) : Orderly L side (executeDebuggerCommand id command message) :=
  executeDebuggerCommand_orderly id (fun hp => by rw [h] at hp; cases hp) message

/-! ### Execution -/

theorem resume_orderly {command : Command} (h : (Call.execute command).pump? = none)
    (message : String) : Orderly L side (resume id command message) :=
  .bind (.perform trivial) fun _ => ownDebuggerCommand_orderly id h message

theorem continue_orderly : Orderly L side (continue_ id) := resume_orderly id rfl _

theorem enableInstructionStepping_orderly : Orderly L side (enableInstructionStepping id) :=
  .bind (throwIfDisposed_orderly id) fun _ => ownDebuggerCommand_orderly id rfl _

theorem enableSourceLineStepping_orderly : Orderly L side (enableSourceLineStepping id) :=
  .bind (throwIfDisposed_orderly id) fun _ => ownDebuggerCommand_orderly id rfl _

theorem waitForEvent_orderly : Orderly L .dispatcher (waitForEvent id) :=
  .bind (throwIfDisposed_orderly id) fun _ => .bind (.pumpCall id trivial rfl) fun _ =>
    checkHr_orderly _ _

/-! ### Threads -/

theorem readThreadIds_orderly : Orderly L side (readThreadIds id) :=
  .bind (.call id trivial) fun _ => .bind (checkHr_orderly _ _) fun _ => .ite (.ret _)
    (.bind (.call id trivial) fun _ => checkHr_orderly _ _)

theorem getThreadIds_orderly : Orderly L side (getThreadIds id) :=
  .bind (throwIfDisposed_orderly id) fun _ => readThreadIds_orderly id

theorem getCurrentThreadId_orderly : Orderly L side (getCurrentThreadId id) := by
  refine .bind (throwIfDisposed_orderly id) fun _ => .bind (.call id trivial) fun _ =>
    .bind (checkHr_orderly _ _) fun n => .bind (readThreadIds_orderly id) fun systemIds => ?_
  cases systemIds[n]?
  · exact .throw _
  · exact .ret _

theorem setCurrentThread_orderly (systemThreadId : Nat) :
    Orderly L side (setCurrentThread id systemThreadId) := by
  have user : Orderly L side (setCurrentThreadUser id systemThreadId) :=
    .bind (.call id trivial) fun _ => .bind (checkHr_orderly _ _) fun _ =>
      .bind (.call id trivial) fun _ => checkHr_orderly _ _
  have kernel : Orderly L side (setCurrentThreadKernel id systemThreadId) := by
    refine .bind (readThreadIds_orderly id) fun systemIds => ?_
    cases systemIds.findIdx? (· = systemThreadId) with
    | none => exact .throw _
    | some index => exact .bind (.call id trivial) fun _ => checkHr_orderly _ _
  exact .bind (throwIfDisposed_orderly id) fun _ => .bind (.perform trivial) fun _ =>
    .ite kernel user

/-! ### Symbols, stack, variables, memory -/

theorem setSymbolPath_orderly (paths : List String) : Orderly L side (setSymbolPath id paths) :=
  .bind (throwIfDisposed_orderly id) fun _ => .bind (.call id trivial) fun _ => checkHr_orderly _ _

theorem setSourcePath_orderly (paths : List String) : Orderly L side (setSourcePath id paths) :=
  .bind (throwIfDisposed_orderly id) fun _ => ownDebuggerCommand_orderly id rfl _

theorem enableSourceLineSupport_orderly : Orderly L side (enableSourceLineSupport id) :=
  .bind (throwIfDisposed_orderly id) fun _ => .bind (ownDebuggerCommand_orderly id rfl _) fun _ =>
    enableSourceLineStepping_orderly id

theorem getModules_orderly : Orderly L side (getModules id) :=
  .bind (throwIfDisposed_orderly id) fun _ => .bind (.call id trivial) fun _ => checkHr_orderly _ _

theorem getStackTraceDetails_orderly (maxFrames : Int) :
    Orderly L side (getStackTraceDetails id maxFrames) :=
  .bind (throwIfDisposed_orderly id) fun _ => .ite (.throw _) <| .bind (.call id trivial) fun _ =>
    .bind (checkHr_orderly _ _) fun _ =>
      .bind (.ite (.throw _) (.ite (.throw _) (.ret _))) fun _ => .ret _

theorem getStackTrace_orderly (maxFrames : Int) : Orderly L side (getStackTrace id maxFrames) :=
  .bind (getStackTraceDetails_orderly id maxFrames) fun _ => .ret _

theorem getLocals_orderly (frameNumber : Nat) : Orderly L side (getLocals id frameNumber) := by
  refine .bind (throwIfDisposed_orderly id) fun _ => .bind (ownCommand_orderly id rfl _) fun _ =>
    .bind (.call id trivial) fun group => ?_
  cases group
  · exact .ret _
  · exact .ret _

theorem getLocalsTree_orderly (frameNumber : Nat) :
    Orderly L side (getLocalsTree id frameNumber) := by
  refine .bind (throwIfDisposed_orderly id) fun _ => .bind (ownCommand_orderly id rfl _) fun _ =>
    .bind (.call id trivial) fun group => ?_
  cases group
  · exact .ret _
  · exact .ret _

theorem openScopeSymbolGroup_orderly (frameNumber : Nat) (expression : String) :
    Orderly L side (openScopeSymbolGroup id frameNumber expression) := by
  refine .bind (ownCommand_orderly id rfl _) fun _ => .bind (.call id trivial) fun outcome => ?_
  cases outcome with
  | opened => exact .ret _
  | _ => exact .throw _

theorem createSymbolNode_orderly (expression : String) :
    Orderly L side (createSymbolNode id expression) := .bind (.call id trivial) fun _ => .ret _

theorem setLocalValue_orderly (frameNumber : Nat) (expression value : String) :
    Orderly L side (setLocalValue id frameNumber expression value) :=
  .bind (throwIfDisposed_orderly id) fun _ => .bind (openScopeSymbolGroup_orderly id _ _) fun _ =>
    .bind (.call id trivial) fun _ => .bind (checkHr_orderly _ _) fun _ =>
      createSymbolNode_orderly id _

theorem getLocalValue_orderly (frameNumber : Nat) (expression : String) :
    Orderly L side (getLocalValue id frameNumber expression) :=
  .bind (throwIfDisposed_orderly id) fun _ => .bind (openScopeSymbolGroup_orderly id _ _) fun _ =>
    .bind (createSymbolNode_orderly id _) fun _ => .ite (.throw _) (.ret _)

theorem getSymbolAddress_orderly (frameNumber : Nat) (expression : String) :
    Orderly L side (getSymbolAddress id frameNumber expression) := by
  refine .bind (throwIfDisposed_orderly id) fun _ =>
    .bind (openScopeSymbolGroup_orderly id _ _) fun _ => .bind (.call id trivial) fun offset => ?_
  split
  · exact .throw _
  · exact .throw _
  · refine .bind (.call id trivial) fun size => ?_
    split
    · exact .throw _
    · exact .throw _
    · exact .ret _

theorem getRegisters_orderly (frameNumber : Nat) :
    Orderly L side (getRegisters id frameNumber) :=
  .bind (throwIfDisposed_orderly id) fun _ => .bind (.call id trivial) fun _ =>
    .ite (.ret _) (.call id trivial)

theorem disassemble_orderly (address : Nat) (offset count : Int) (resolveSymbols : Bool) :
    Orderly L side (disassemble id address offset count resolveSymbols) :=
  disassemble_composed id (Q := fun {_} p => Orderly L side p) .ret .throw
    (fun hp hf => .bind hp hf) (throwIfDisposed_orderly id) (fun _ => .call id trivial)
    fun _ => .call id trivial

theorem readMemory_orderly (address count : Nat) : Orderly L side (readMemory id address count) :=
  .bind (throwIfDisposed_orderly id) fun _ => .ite (.ret _)
    (.bind (.call id trivial) fun _ => .ret _)

theorem writeMemory_orderly (address : Nat) (bytes : List Nat) :
    Orderly L side (writeMemory id address bytes) :=
  .bind (throwIfDisposed_orderly id) fun _ => .ite (.ret _)
    (.bind (.call id trivial) fun _ => checkHr_orderly _ _)

/-! ### Breakpoints -/

theorem getConfiguredBreakpointIds_orderly : Orderly L side (getConfiguredBreakpointIds id) :=
  .bind (throwIfDisposed_orderly id) fun _ => .bind (.call id trivial) fun _ => .ret _

theorem clearBreakpoint_orderly (breakpoint : Int) :
    Orderly L side (clearBreakpoint id breakpoint) :=
  .bind (ownCommand_orderly id rfl _) fun _ => .ret _

theorem clearAllBreakpoints_orderly : Orderly L side (clearAllBreakpoints id) :=
  .bind (throwIfDisposed_orderly id) fun _ => .bind (ownCommand_orderly id rfl _) fun _ => .ret _

theorem clearSourceBreakpoints_orderly (path : String) :
    Orderly L side (clearSourceBreakpoints id path) := by
  refine .bind (.perform trivial) fun s => ?_
  cases s.sourceBreakpointIdsByPath.get? (Text.toUpperInvariant path) with
  | none => exact .ret _
  | some ids => exact .bind (.perform trivial) fun _ => .forEach (clearBreakpoint_orderly id) _

theorem configureSourceBreakpoints_orderly (path : String) (specs : List SourceBreakpointSpec) :
    ∀ configured, Orderly L side (configureSourceBreakpoints id path configured specs) := by
  induction specs with
  | nil => exact fun _ => .ret _
  | cons bp rest ih =>
    exact fun configured => .bind
      (.bind (getConfiguredBreakpointIds_orderly id) fun _ => .bind (ownCommand_orderly id rfl _)
        fun _ => .bind (getConfiguredBreakpointIds_orderly id) fun _ => .ret _) ih

theorem setSourceBreakpoints_orderly (filePath : String) (specs : List SourceBreakpointSpec) :
    Orderly L side (setSourceBreakpoints id filePath specs) :=
  .bind (throwIfDisposed_orderly id) fun _ => .bind (throwIfNullOrWhitespace_orderly _ _) fun _ =>
    .bind (.perform trivial) fun path => .bind (ownCommand_orderly id rfl _) fun _ =>
      .bind (clearSourceBreakpoints_orderly id _) fun _ => .ite (.ret _)
        (.bind (configureSourceBreakpoints_orderly id path _ _) fun _ =>
          .bind (.perform trivial) fun _ => .ret _)

theorem setCommandBreakpoints_orderly (kind : BreakpointKind) {commands : List (Command × String)}
    (h : ∀ c ∈ commands, (Call.execute c.1).pump? = none) :
    Orderly L side (setCommandBreakpoints id kind commands) := by
  have set {command : Command} (hc : (Call.execute command).pump? = none) (label : String) :
      Orderly L side (setCommandBreakpoint id kind command label) := by
    refine .bind (getConfiguredBreakpointIds_orderly id) fun before =>
      .bind (.catching (ownCommand_orderly id hc _) fun _ => .ret _) fun _ =>
        .bind (getConfiguredBreakpointIds_orderly id) fun after => ?_
    split
    · exact .bind (.perform trivial) fun _ => .bind (.perform trivial) fun _ => .ret _
    · exact .ret _
  refine .bind (throwIfDisposed_orderly id) fun _ => .bind (.perform trivial) fun _ =>
    .bind (.forEach (clearBreakpoint_orderly id) _) fun _ => .bind (.perform trivial) fun _ => ?_
  induction commands with
  | nil => exact .ret _
  | cons c rest ih =>
    refine .bind (set (h c (.head _)) _) fun _ => .bind ?_ fun _ => .ret _
    exact ih fun c' hc' => h c' (.tail _ hc')

theorem setFunctionBreakpoints_orderly (names : List String) :
    Orderly L side (setFunctionBreakpoints id names) :=
  setCommandBreakpoints_orderly id _ fun c hc => by
    obtain ⟨name, -, rfl⟩ := List.mem_map.1 hc; rfl

theorem setInstructionBreakpoints_orderly (addresses : List Nat) :
    Orderly L side (setInstructionBreakpoints id addresses) :=
  setCommandBreakpoints_orderly id _ fun c hc => by
    obtain ⟨a, -, rfl⟩ := List.mem_map.1 hc; rfl

theorem setDataBreakpoints_orderly (specs : List DataBreakpointSpec) :
    Orderly L side (setDataBreakpoints id specs) :=
  setCommandBreakpoints_orderly id _ fun c hc => by
    obtain ⟨s, -, rfl⟩ := List.mem_map.1 hc; rfl

theorem setCppFirstChanceBreak_orderly (enabled : Bool) :
    Orderly L side (setCppFirstChanceBreak id enabled) :=
  .bind (throwIfDisposed_orderly id) fun _ => .bind (ownCommand_orderly id rfl _) fun _ =>
    .perform trivial

theorem getLastBreakpointId_orderly : Orderly L side (getLastBreakpointId id) :=
  .bind (.call id trivial) fun _ => .ret _

/-! ### Targets -/

theorem create_orderly (enginePath : String) : Orderly L .dispatcher (create enginePath) := by
  refine .bind (.perform rfl) fun id => .bind (throwIfNullOrWhitespace_orderly _ _) fun _ =>
    .bind (.bind (.perform trivial) fun _ => .ite (.ret _) (.ite (.ret _) (.throw _))) fun _ =>
      .bind (.call id trivial) fun r => ?_
  cases r with
  | error message => exact .throw _
  | ok loaded => exact .bind (.perform trivial) fun _ => .ret _

theorem connectProcessServer_orderly (connectionString : String) :
    Orderly L side (connectProcessServer id connectionString) :=
  .bind (throwIfDisposed_orderly id) fun _ => .bind (throwIfNullOrWhitespace_orderly _ _) fun _ =>
    .bind (.perform trivial) fun _ => .ite (.throw _) <| .bind (.call id trivial) fun _ =>
      .bind (checkHr_orderly _ _) fun _ => .perform trivial

theorem launch_orderly (path : String) (arguments : Option String) (directory : String) :
    Orderly L .dispatcher (launch id path arguments directory) := by
  have start (d : String) : Orderly L .dispatcher (do
      let r ← call id (.createProcess 0 (buildCommandLine path arguments) (some d))
      checkHr r "Could not launch target"
      waitForEvent id) :=
    .bind (.call id trivial) fun _ => .bind (checkHr_orderly _ _) fun _ => waitForEvent_orderly id
  exact .bind (throwIfDisposed_orderly id) fun _ =>
    .bind (throwIfNullOrWhitespace_orderly _ _) fun _ =>
      .ite (start _) (.ite (start _) (.bind (.perform trivial) start))

theorem launchRemote_orderly (connectionString path : String) (arguments : Option String)
    (directory : String) :
    Orderly L .dispatcher (launchRemote id connectionString path arguments directory) :=
  .bind (throwIfDisposed_orderly id) fun _ => .bind (throwIfNullOrWhitespace_orderly _ _) fun _ =>
    .bind (connectProcessServer_orderly id _) fun _ => .bind (.perform trivial) fun _ =>
      .bind (.call id trivial) fun _ => .bind (checkHr_orderly _ _) fun _ =>
        waitForEvent_orderly id

theorem attach_orderly (processId : Int) : Orderly L .dispatcher (attach id processId) :=
  .bind (throwIfDisposed_orderly id) fun _ => .bind (.call id trivial) fun _ =>
    .bind (checkHr_orderly _ _) fun _ => .bind (.perform trivial) fun _ =>
      .bind (.call id trivial) fun _ => .bind (checkHr_orderly _ _) fun _ =>
        waitForEvent_orderly id

theorem attachRemote_orderly (connectionString : String) (processId : Int) :
    Orderly L .dispatcher (attachRemote id connectionString processId) :=
  .bind (connectProcessServer_orderly id _) fun _ => attach_orderly id processId

theorem attachKernel_orderly (h : L.opensKernel) (hL : ∀ id, ¬L.users id)
    (connectionString : String) :
    Orderly L .dispatcher (attachKernel id connectionString) :=
  .bind (throwIfDisposed_orderly id) fun _ => .bind (throwIfNullOrWhitespace_orderly _ _) fun _ =>
    .bind (.call id trivial) fun _ => .bind (checkHr_orderly _ _) fun _ =>
      .bind (.call id trivial) fun _ => .bind (checkHr_orderly _ _) fun _ =>
        .bind (p := markKernel id) (.markKernel h hL id) fun _ => waitForEvent_orderly id

theorem openDumpFile_orderly (path : String) : Orderly L .dispatcher (openDumpFile id path) :=
  .bind (throwIfDisposed_orderly id) fun _ => .bind (throwIfNullOrWhitespace_orderly _ _) fun _ =>
    .bind (.call id trivial) fun _ => .bind (checkHr_orderly _ _) fun _ => waitForEvent_orderly id

theorem tryFindProcessIdByExecutableName_orderly (name : String) :
    Orderly L side (tryFindProcessIdByExecutableName id name) :=
  .bind (throwIfDisposed_orderly id) fun _ => .bind (.perform trivial) fun _ =>
    .bind (.call id trivial) fun _ => .ret _

/-! ### Detach and terminate -/

theorem clearBeforeDetach_orderly : Orderly L .dispatcher (clearBeforeDetach id) :=
  .catching (.bind (clearAllBreakpoints_orderly id) fun _ => .bind (.perform trivial) fun _ =>
    .ite (.ret _) (.bind (ownCommand_orderly id rfl _) fun _ => .ret _)) fun _ => .ret _

theorem detachCurrentProcess_orderly (h : L.users id) :
    Orderly L .dispatcher (detachCurrentProcess id) :=
  .bind (throwIfDisposed_orderly id) fun _ => .bind (throwIfDisposed_orderly id) fun _ =>
    .bind (clearBeforeDetach_orderly id) fun _ => .leaveTarget h

theorem terminateCurrentProcess_orderly (h : L.terminates) :
    Orderly L .dispatcher (terminateCurrentProcess id) :=
  .bind (throwIfDisposed_orderly id) fun _ => .killTarget id h

end Session

end DapDbgeng
