/-
  Requests served at a stop, one after the other.

  At a stop the engine reports nothing, so the request thread works alone.  Main definitions:

  * `AtStop id v s`: the target of the live session `id` is halted; `v` says where the request
    thread is with respect to the dispatcher and whether it captures output;
  * `Steady id place p`: `p` keeps the target halted and, however it ends, leaves the dispatcher
    and the capture as it found them;
  * `Served roots s s'`: the request thread serves the messages `roots`.
-/
import DapDbgeng.Dispatch
import DapDbgeng.Semantics

namespace DapDbgeng

open Concurrent Concurrent.Prog

/-- The request thread and the dispatcher. -/
inductive Place where
  | outside | queued | inside | inCall
  deriving DecidableEq

structure StopView where
  place : Place := .outside
  capturing : Bool := false

/-- The target of the live session `id` is halted and the dispatcher serves nobody else. -/
structure AtStop (id : SessionId) (v : StopView) (s : Server) : Prop where
  halted : s.flags .isExecutionRunning = false
  session : s.session = some id
  alive : (s.sessions id).disposed = false
  capture : (s.sessions id).outputCapture.isSome = v.capturing
  queue : s.queue = if v.place = .queued then [.request] else []
  holder : s.holder = if v.place = .inside ∨ v.place = .inCall then some .request else none
  inCall : v.place ≠ .inCall → s.inCall = none

/-! ## Weakest preconditions -/

/-- The operations at a stop, by what they do to the view. -/
def stopPre (id : SessionId) :
    ∀ {β : Type}, DapOp β → (β → StopView → Prop) → StopView → Prop
  | _, .store .isExecutionRunning _ => fun _ _ => False
  | _, .setSession _ => fun _ _ => False
  | _, .takeSession => fun _ _ => False
  | _, .newSession => fun _ _ => False
  | _, .updateSession _ .dispose => fun _ _ => False
  | _, .updateSession id' (.beginCapture _) => fun K v =>
    id' = id ∧ K () { v with capturing := true }
  | _, .updateSession id' .endCapture => fun K v => id' = id ∧ K () { v with capturing := false }
  | _, .load .isExecutionRunning => fun K v => K false v
  | _, .session => fun K v => K (some id) v
  | _, .readSession id' => fun K v => ∀ x : Session,
    (id' = id → x.disposed = false ∧ x.outputCapture.isSome = v.capturing) → K x v
  | _, .enqueue => fun K v => v.place = .outside ∧ K () { v with place := .queued }
  | _, .acquire => fun K v => v.place = .queued ∧ K () { v with place := .inside }
  | _, .release => fun K v => v.place = .inside ∧ K () { v with place := .outside }
  | _, .enter _ _ => fun K v => v.place = .inside ∧ K () { v with place := .inCall }
  | _, .leave _ _ => fun K v => v.place = .inCall ∧ ∀ b, K b { v with place := .inside }
  | _, _ => fun K v => ∀ b, K b v

def stopSpec (id : SessionId) : Spec DapOp StopView where
  pre := stopPre id
  mono o K K' hK v h := by
    cases o with
    | load f => cases f <;> first | exact hK _ _ h | exact fun b => hK _ _ (h b)
    | store f b => cases f <;> first | exact h | exact fun b => hK _ _ (h b)
    | updateSession id' u =>
      cases u <;> first | exact h | exact ⟨h.1, hK _ _ h.2⟩ | exact fun b => hK _ _ (h b)
    | session => exact hK _ _ h
    | readSession => exact fun x hx => hK _ _ (h x hx)
    | enqueue | acquire | release | enter => exact ⟨h.1, hK _ _ h.2⟩
    | leave => exact ⟨h.1, fun b => hK _ _ (h.2 b)⟩
    | setSession | takeSession | newSession => exact h
    | _ => exact fun b => hK _ _ (h b)

namespace AtStop

variable {id : SessionId} {v : StopView} {s : Server}

/-- An update of the session object. -/
theorem modifySession (h : AtStop id v s) {capturing : Bool} {f : Session → Session}
    (ha : (f (s.sessions id)).disposed = false)
    (hc : (f (s.sessions id)).outputCapture.isSome = capturing) :
    AtStop id { v with capturing } (s.modifySession id f) :=
  { h with
    alive := by rw [Server.modifySession_sessions, if_pos rfl]; exact ha
    capture := by rw [Server.modifySession_sessions, if_pos rfl]; exact hc }

/-- An update of another session object. -/
theorem modifySession_of_ne (h : AtStop id v s) {id' : SessionId} (hn : id ≠ id')
    (f : Session → Session) : AtStop id v (s.modifySession id' f) :=
  { h with
    alive := by rw [Server.modifySession_sessions, if_neg hn]; exact h.alive
    capture := by rw [Server.modifySession_sessions, if_neg hn]; exact h.capture }

theorem updateEngine (h : AtStop id v s) (id' : SessionId) (f : EngineState → EngineState) :
    AtStop id v (s.updateEngine id' f) := by
  by_cases hn : id = id'
  · subst hn
    exact h.modifySession h.alive h.capture
  · exact h.modifySession_of_ne hn _

end AtStop

/-- One step of the request thread at a stop. -/
theorem stopPre_step {id : SessionId} {β : Type} (o : DapOp β) {K : β → StopView → Prop}
    {v : StopView} {s s' : Server} {b : β} (hs : AtStop id v s) (hw : (stopSpec id).pre o K v)
    (h : sem .request β o s b s') : ∃ v', AtStop id v' s' ∧ K b v' := by
  cases o with
  | load f =>
    obtain ⟨rfl, rfl⟩ := sem_load.1 h
    refine ⟨v, hs, ?_⟩
    cases f <;> first | exact hw _ | exact hs.halted ▸ hw
  | store f value =>
    rw [sem_store.1 h]
    refine ⟨v, ?_⟩
    cases f <;> first | exact hw.elim | exact ⟨{ hs with }, hw _⟩
  | session => obtain ⟨rfl, rfl⟩ := sem_session.1 h; exact ⟨v, hs, hs.session ▸ hw⟩
  | readSession id' =>
    obtain ⟨rfl, rfl⟩ := sem_readSession.1 h
    exact ⟨v, hs, hw _ fun he => he ▸ ⟨hs.alive, hs.capture⟩⟩
  | updateSession id' u =>
    rw [sem_updateSession.1 h]
    by_cases hn : id = id'
    · subst hn
      cases u with
      | dispose => exact hw.elim
      | beginCapture suppress =>
        exact ⟨{ v with capturing := true }, hs.modifySession hs.alive rfl, hw.2⟩
      | endCapture => exact ⟨{ v with capturing := false }, hs.modifySession hs.alive rfl, hw.2⟩
      | appendCapture text =>
        have capture := hs.capture
        exact ⟨v, hs.modifySession hs.alive (by simpa [Session.update] using capture), hw _⟩
      | _ => exact ⟨v, hs.modifySession hs.alive hs.capture, hw _⟩
    · refine ⟨v, hs.modifySession_of_ne hn _, ?_⟩
      cases u with
      | dispose => exact hw.elim
      | beginCapture | endCapture => exact absurd hw.1.symm hn
      | _ => exact hw _
  | call id' c =>
    obtain ⟨_, _, -, -, rfl⟩ := sem_call h
    exact ⟨v, hs.updateEngine id' _, hw _⟩
  | enqueue =>
    obtain ⟨hp, hw⟩ := hw
    rw [sem_enqueue.1 h]
    refine ⟨{ v with place := .queued }, ⟨hs.halted, hs.session, hs.alive, hs.capture, ?_, ?_,
      fun _ => hs.inCall (by simp [hp])⟩, hw⟩
    · simp [hs.queue, hp]
    · simp [hs.holder, hp]
  | acquire =>
    obtain ⟨hp, hw⟩ := hw
    obtain ⟨rest, hq, -, rfl⟩ := sem_acquire.1 h
    refine ⟨{ v with place := .inside }, ⟨hs.halted, hs.session, hs.alive, hs.capture, ?_, rfl,
      fun _ => hs.inCall (by simp [hp])⟩, hw⟩
    have hrest : [Tid.request] = .request :: rest := by rw [← hq, hs.queue, if_pos hp]
    exact (List.cons.inj hrest).2.symm
  | release =>
    obtain ⟨hp, hw⟩ := hw
    rw [sem_release.1 h]
    refine ⟨{ v with place := .outside }, ⟨hs.halted, hs.session, hs.alive, hs.capture, ?_, rfl,
      fun _ => hs.inCall (by simp [hp])⟩, hw⟩
    simp [hs.queue, hp]
  | enter id' c =>
    obtain ⟨hp, hw⟩ := hw
    obtain ⟨_, -, -, -, rfl⟩ := sem_enter.1 h
    refine ⟨{ v with place := .inCall }, ⟨hs.halted, hs.session, hs.alive, hs.capture, ?_, ?_,
      fun hc => absurd rfl hc⟩, hw⟩
    · simp [hs.queue, hp]
    · simp [hs.holder, hp]
  | leave id' c =>
    obtain ⟨hp, hw⟩ := hw
    obtain ⟨-, -, _, _, -, rfl⟩ := sem_leave h
    have left : AtStop id { v with place := .inside } { s with inCall := none } :=
      { hs with
        queue := by simp [hs.queue, hp]
        holder := by simp [hs.holder, hp]
        inCall := fun _ => rfl }
    exact ⟨{ v with place := .inside }, left.updateEngine id' _, hw _⟩
  | send m =>
    rw [sem_send.1 h]
    exact ⟨v, by split <;> exact { hs with }, hw _⟩
  | lockGate => obtain ⟨-, rfl⟩ := sem_lockGate.1 h; exact ⟨v, { hs with }, hw _⟩
  | joinLoop => obtain ⟨-, rfl⟩ := sem_joinLoop.1 h; exact ⟨v, { hs with }, hw _⟩
  | setSession | takeSession | newSession => exact hw.elim
  | _ => obtain ⟨_, h⟩ := h; cases h; exact ⟨v, { hs with }, hw _⟩

/-! ## Steady programs -/

/-- `p` keeps the target halted and ends where it began. -/
def Steady {α : Type} (id : SessionId) (place : Place) (p : Dap α) : Prop :=
  ∀ capturing, p.wp (stopSpec id) (fun _ v => v = ⟨place, capturing⟩)
    (fun _ v => v = ⟨place, capturing⟩) ⟨place, capturing⟩

/-- The operations that keep every view. -/
def DapOp.plain : ∀ {β : Type}, DapOp β → Prop
  | _, .store .isExecutionRunning _ => False
  | _, .setSession _ | _, .takeSession | _, .newSession => False
  | _, .updateSession _ .dispose => False
  | _, .updateSession _ (.beginCapture _) | _, .updateSession _ .endCapture => False
  | _, .enqueue | _, .acquire | _, .release | _, .enter .. | _, .leave .. => False
  | _, _ => True

namespace Steady

variable {id : SessionId} {place : Place} {α β : Type}

theorem ret (a : α) : Steady id place (.ret a : Dap α) := fun _ => rfl

theorem throw (e : Exn) : Steady id place (.throw e : Dap α) := fun _ => rfl

theorem bind {p : Dap α} {f : α → Dap β} (hp : Steady id place p)
    (hf : ∀ a, Steady id place (f a)) : Steady id place (p.bind f) := by
  intro capturing
  rw [wp_bind]
  refine wp_mono_val (fun a v hv => ?_) (hp capturing)
  rw [hv]
  exact hf a capturing

theorem catching {p : Dap α} {h : Exn → Dap α} (hp : Steady id place p)
    (hh : ∀ e, Steady id place (h e)) : Steady id place (p.catching h) := by
  intro capturing
  rw [wp_catching]
  refine wp_mono (fun _ _ hv => hv) (fun e v hv => ?_) (hp capturing)
  rw [hv]
  exact hh e capturing

theorem attempt {p : Dap α} (hp : Steady id place p) : Steady id place p.attempt := by
  intro capturing
  rw [wp_attempt]
  exact hp capturing

theorem ite {c : Prop} [Decidable c] {p q : Dap α} (hp : Steady id place p)
    (hq : Steady id place q) : Steady id place (if c then p else q) := by
  split
  · exact hp
  · exact hq

theorem forEach {f : α → Dap Unit} (hf : ∀ a, Steady id place (f a)) (xs : List α) :
    Steady id place (Prog.forEach f xs) := by
  induction xs with
  | nil => exact .ret _
  | cons x xs ih => exact .bind (hf x) fun _ => ih

theorem mapEach {f : α → Dap β} (hf : ∀ a, Steady id place (f a)) (xs : List α) :
    Steady id place (Prog.mapEach f xs) := by
  induction xs with
  | nil => exact .ret _
  | cons x xs ih => exact .bind (hf x) fun _ => .bind ih fun _ => .ret _

theorem perform {o : DapOp α} (h : o.plain) : Steady id place (Prog.perform o) := by
  intro capturing
  cases o with
  | load f => cases f <;> first | exact rfl | exact fun _ => rfl
  | store f b => cases f <;> first | exact h.elim | exact fun _ => rfl
  | updateSession _ u => cases u <;> first | exact h.elim | exact fun _ => rfl
  | session => exact rfl
  | readSession => exact fun _ _ => rfl
  | setSession | takeSession | newSession | enqueue | acquire | release | enter | leave =>
    exact h.elim
  | _ => exact fun _ => rfl

/-- At a stop the target does not run. -/
theorem loadHalted {f : Bool → Dap α} (h : Steady id place (f false)) :
    Steady id place ((load .isExecutionRunning).bind f) := h

theorem getSession {f : Option SessionId → Dap α} (h : Steady id place (f (some id))) :
    Steady id place (DapDbgeng.getSession.bind f) := h

theorem requireDebuggerSession {f : SessionId → Dap α} (h : Steady id place (f id)) :
    Steady id place (Server.requireDebuggerSession.bind f) := h

/-- The dispatcher is left when the function is done. -/
theorem invoke {p : Dap α} (h : Steady id .inside p) :
    Steady id .outside (DapDbgeng.invoke .request p) := by
  intro capturing
  refine ⟨rfl, rfl, ?_⟩
  change (p.attempt.bind _).wp _ _ _ _
  rw [wp_bind, wp_attempt]
  refine wp_mono (fun _ v hv => ?_) (fun _ v hv => ?_) (h capturing)
  all_goals rw [hv]; exact ⟨rfl, rfl⟩

theorem pumpCall {id' : SessionId} (c : Call α) : Steady id .inside (DapDbgeng.pumpCall id' c) :=
  fun _ => ⟨rfl, rfl, fun _ => rfl⟩

end Steady

/-! ## The methods of a session -/

namespace Session

variable {id : SessionId} {place : Place}

theorem checkHr_steady {α : Type} (r : Reply α) (message : String) :
    Steady id place (checkHr r message) := by
  cases r with
  | ok a => exact .ret a
  | error hr => exact .throw _

theorem throwIfDisposed_steady : Steady id place (throwIfDisposed id) :=
  .bind (.perform trivial) fun _ => .ite (.throw _) (.ret _)

theorem handleOutputReceived_steady (text : String) :
    Steady id place (handleOutputReceived id text) :=
  .bind (.perform trivial) fun _ => .bind (.perform trivial) fun _ =>
    .ite (.ite (.ret _) (.perform trivial)) (.ret _)

theorem executeDebuggerCommand_steady (command : Command) (message : String) :
    Steady id .inside (executeDebuggerCommand id command message) := by
  have rest (r : ExecuteResult) : Steady id .inside (do
      Prog.forEach (handleOutputReceived id) (r.output.filter fun text => !text.isEmpty)
      return r.status) :=
    .bind (.forEach handleOutputReceived_steady _) fun _ => .ret _
  exact .bind throwIfDisposed_steady fun _ =>
    .bind (.ite (.bind (.pumpCall _) rest) (.bind (.perform trivial) rest)) fun _ =>
      checkHr_steady _ _

/-- The capture ends with the command, however that ends; a capture in progress goes on. -/
theorem executeCommandWithOutput_steady (command : Command) (suppress : Bool) :
    Steady id .inside (executeCommandWithOutput id command suppress) := by
  refine .bind throwIfDisposed_steady fun _ => .bind (.ite (.throw _) (.ret _)) fun _ => ?_
  intro capturing x hx
  obtain ⟨-, hc⟩ := hx rfl
  change (Prog.bind (if x.outputCapture.isSome = true then _ else _) _).wp _ _ _ _
  cases capturing with
  | true => rw [if_pos hc]; exact rfl
  | false =>
    rw [if_neg (by simp [hc])]
    refine ⟨rfl, ?_⟩
    change ((Prog.bind _ _).catching _).wp _ _ _ _
    rw [wp_catching, wp_bind]
    refine wp_mono (fun _ v hv => ?_) (fun e v hv => ?_)
      (executeDebuggerCommand_steady command _ true)
    · rw [hv]
      exact fun _ _ => ⟨rfl, rfl⟩
    · rw [hv]
      exact ⟨rfl, rfl⟩

/-! ### Threads -/

theorem readThreadIds_steady : Steady id place (readThreadIds id) :=
  .bind (.perform trivial) fun _ => .bind (checkHr_steady _ _) fun _ => .ite (.ret _) <|
    .bind (.perform trivial) fun _ => checkHr_steady _ _

theorem getThreadIds_steady : Steady id place (getThreadIds id) :=
  .bind throwIfDisposed_steady fun _ => readThreadIds_steady

theorem getCurrentThreadId_steady : Steady id place (getCurrentThreadId id) := by
  refine .bind throwIfDisposed_steady fun _ => .bind (.perform trivial) fun _ =>
    .bind (checkHr_steady _ _) fun n => .bind readThreadIds_steady fun systemIds => ?_
  cases systemIds[n]? with
  | none => exact .throw _
  | some systemId => exact .ret _

theorem setCurrentThread_steady (systemThreadId : Nat) :
    Steady id place (setCurrentThread id systemThreadId) := by
  have user : Steady id place (setCurrentThreadUser id systemThreadId) :=
    .bind (.perform trivial) fun _ => .bind (checkHr_steady _ _) fun _ =>
      .bind (.perform trivial) fun _ => checkHr_steady _ _
  have kernel : Steady id place (setCurrentThreadKernel id systemThreadId) := by
    refine .bind readThreadIds_steady fun systemIds => ?_
    cases systemIds.findIdx? (· = systemThreadId) with
    | none => exact .throw _
    | some index => exact .bind (.perform trivial) fun _ => checkHr_steady _ _
  exact .bind throwIfDisposed_steady fun _ => .bind (.perform trivial) fun _ => .ite kernel user

/-! ### Stack, variables and memory -/

theorem getModules_steady : Steady id place (getModules id) :=
  .bind throwIfDisposed_steady fun _ => .bind (.perform trivial) fun _ => checkHr_steady _ _

theorem getStackTraceDetails_steady (maxFrames : Int) :
    Steady id place (getStackTraceDetails id maxFrames) :=
  .bind throwIfDisposed_steady fun _ => .ite (.throw _) <| .bind (.perform trivial) fun _ =>
    .bind (checkHr_steady _ _) fun _ =>
      .bind (.ite (.throw _) (.ite (.throw _) (.ret _))) fun _ => .ret _

theorem getStackTrace_steady (maxFrames : Int) : Steady id place (getStackTrace id maxFrames) :=
  .bind (getStackTraceDetails_steady maxFrames) fun _ => .ret _

theorem getLocals_steady (frameNumber : Nat) : Steady id .inside (getLocals id frameNumber) := by
  refine .bind throwIfDisposed_steady fun _ => .bind (executeCommandWithOutput_steady _ _) fun _ =>
    .bind (.perform trivial) fun group => ?_
  cases group with
  | none => exact .ret _
  | some symbols => exact .ret _

theorem getLocalsTree_steady (frameNumber : Nat) :
    Steady id .inside (getLocalsTree id frameNumber) := by
  refine .bind throwIfDisposed_steady fun _ => .bind (executeCommandWithOutput_steady _ _) fun _ =>
    .bind (.perform trivial) fun group => ?_
  cases group with
  | none => exact .ret _
  | some symbols => exact .ret _

theorem openScopeSymbolGroup_steady (frameNumber : Nat) (expression : String) :
    Steady id .inside (openScopeSymbolGroup id frameNumber expression) := by
  refine .bind (executeCommandWithOutput_steady _ _) fun _ => .bind (.perform trivial) fun outcome =>
    ?_
  cases outcome with
  | noGroup | noInterface | unresolved => exact .throw _
  | opened => exact .ret _

theorem createSymbolNode_steady (expression : String) :
    Steady id place (createSymbolNode id expression) := .bind (.perform trivial) fun _ => .ret _

theorem setLocalValue_steady (frameNumber : Nat) (expression value : String) :
    Steady id .inside (setLocalValue id frameNumber expression value) :=
  .bind throwIfDisposed_steady fun _ => .bind (openScopeSymbolGroup_steady _ _) fun _ =>
    .bind (.perform trivial) fun _ => .bind (checkHr_steady _ _) fun _ => createSymbolNode_steady _

theorem getLocalValue_steady (frameNumber : Nat) (expression : String) :
    Steady id .inside (getLocalValue id frameNumber expression) :=
  .bind throwIfDisposed_steady fun _ => .bind (openScopeSymbolGroup_steady _ _) fun _ =>
    .bind (createSymbolNode_steady _) fun _ => .ite (.throw _) (.ret _)

theorem getSymbolAddress_steady (frameNumber : Nat) (expression : String) :
    Steady id .inside (getSymbolAddress id frameNumber expression) := by
  refine .bind throwIfDisposed_steady fun _ => .bind (openScopeSymbolGroup_steady _ _) fun _ =>
    .bind (.perform trivial) fun offset => ?_
  split
  · exact .throw _
  · exact .throw _
  · refine .bind (.perform trivial) fun size => ?_
    split
    · exact .throw _
    · exact .throw _
    · exact .ret _

theorem getRegisters_steady (frameNumber : Nat) : Steady id place (getRegisters id frameNumber) :=
  .bind throwIfDisposed_steady fun _ => .bind (.perform trivial) fun _ =>
    .ite (.ret _) (.perform trivial)

theorem disassemble_steady (address : Nat) (offset count : Int) (resolveSymbols : Bool) :
    Steady id place (disassemble id address offset count resolveSymbols) :=
  disassemble_composed id (Q := fun {_} p => Steady id place p) .ret .throw
    (fun hp hf => .bind hp hf) throwIfDisposed_steady (fun _ => .perform trivial)
    fun _ => .perform trivial

theorem readMemory_steady (address count : Nat) :
    Steady id place (readMemory id address count) :=
  .bind throwIfDisposed_steady fun _ => .ite (.ret _) <| .bind (.perform trivial) fun _ => .ret _

theorem writeMemory_steady (address : Nat) (bytes : List Nat) :
    Steady id place (writeMemory id address bytes) :=
  .bind throwIfDisposed_steady fun _ => .ite (.ret _) <| .bind (.perform trivial) fun _ =>
    checkHr_steady _ _

theorem getLastException_steady : Steady id place (getLastException id) :=
  .bind (.perform trivial) fun _ => .ret _

/-! ### Breakpoints -/

theorem clearBreakpoint_steady (breakpoint : Int) :
    Steady id .inside (clearBreakpoint id breakpoint) :=
  .bind (executeCommandWithOutput_steady _ _) fun _ => .ret _

theorem getConfiguredBreakpointIds_steady : Steady id place (getConfiguredBreakpointIds id) :=
  .bind throwIfDisposed_steady fun _ => .bind (.perform trivial) fun _ => .ret _

theorem clearSourceBreakpoints_steady (path : String) :
    Steady id .inside (clearSourceBreakpoints id path) := by
  refine .bind (.perform trivial) fun s => ?_
  cases s.sourceBreakpointIdsByPath.get? (Text.toUpperInvariant path) with
  | none => exact .ret _
  | some ids => exact .bind (.perform trivial) fun _ => .forEach clearBreakpoint_steady _

theorem configureSourceBreakpoints_steady (path : String) (specs : List SourceBreakpointSpec) :
    ∀ configured, Steady id .inside (configureSourceBreakpoints id path configured specs) := by
  induction specs with
  | nil => exact fun _ => .ret _
  | cons bp rest ih =>
    refine fun configured => .bind (.bind getConfiguredBreakpointIds_steady fun _ =>
      .bind (executeCommandWithOutput_steady _ _) fun _ =>
        .bind getConfiguredBreakpointIds_steady fun _ => .ret _) ih

theorem setSourceBreakpoints_steady (filePath : String) (specs : List SourceBreakpointSpec) :
    Steady id .inside (setSourceBreakpoints id filePath specs) :=
  .bind throwIfDisposed_steady fun _ => .bind (.ite (.throw _) (.ret _)) fun _ =>
    .bind (.perform trivial) fun _ => .bind (executeCommandWithOutput_steady _ _) fun _ =>
      .bind (clearSourceBreakpoints_steady _) fun _ => .ite (.ret _) <|
        .bind (configureSourceBreakpoints_steady _ _ _) fun _ => .bind (.perform trivial) fun _ =>
          .ret _

theorem setCommandBreakpoint_steady (kind : BreakpointKind) (command : Command) (label : String) :
    Steady id .inside (setCommandBreakpoint id kind command label) := by
  refine .bind getConfiguredBreakpointIds_steady fun before =>
    .bind (.catching (executeCommandWithOutput_steady _ _) fun _ => .ret _) fun _ =>
      .bind getConfiguredBreakpointIds_steady fun after => ?_
  split
  · exact .bind (.perform trivial) fun _ => .bind (.perform trivial) fun _ => .ret _
  · exact .ret _

theorem setCommandBreakpoints_steady (kind : BreakpointKind) (commands : List (Command × String)) :
    Steady id .inside (setCommandBreakpoints id kind commands) :=
  .bind throwIfDisposed_steady fun _ => .bind (.perform trivial) fun _ =>
    .bind (.forEach clearBreakpoint_steady _) fun _ => .bind (.perform trivial) fun _ =>
      .mapEach (fun _ => setCommandBreakpoint_steady _ _ _) _

theorem setCppFirstChanceBreak_steady (enabled : Bool) :
    Steady id .inside (setCppFirstChanceBreak id enabled) :=
  .bind throwIfDisposed_steady fun _ => .bind (executeCommandWithOutput_steady _ _) fun _ =>
    .perform trivial

end Session

end DapDbgeng
