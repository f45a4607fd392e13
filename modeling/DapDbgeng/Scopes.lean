/-
  Which thread a scopes request reads.

  The engine reads locals and registers of its current thread.  `handle_scopes_request` selects
  the frame but not the thread, so it reads the right thread exactly when that thread happens to
  be current.

  Main result: `scopes_reads_own_thread_iff`.
-/
import DapDbgeng.StoppedRequests

namespace DapDbgeng

open Concurrent Concurrent.Prog

/-! ## The current thread -/

/-- The calls that leave the current thread alone. -/
def Call.keepsThread : ∀ {β : Type}, Call β → Prop
  | _, .execute (.raw _) | _, .execute (.condition _) => False
  | _, .setCurrentThreadId _ => False
  | _, _ => True

/-- The calls that read locals or registers of the current thread. -/
def Call.readsFrame : ∀ {β : Type}, Call β → Prop
  | _, .scopeLocals | _, .scopeSymbols | _, .setScopeFrame _ | _, .registers => True
  | _, _ => False

def DapOp.keepsThread : ∀ {β : Type}, DapOp β → Prop
  | _, .call _ c | _, .leave _ c => c.keepsThread
  | _, .newSession => False
  | _, _ => True

theorem Call.effect_keepsThread {β : Type} {c : Call β} (h : c.keepsThread) (created : List Int)
    (after : EngineState → EngineState) (b : β) (e : EngineState) :
    (c.effect created after b e).currentSystemId = e.currentSystemId := by
  have executed (command : Command) (r : ExecuteResult) :
      (executed command r created e).currentSystemId = e.currentSystemId := by
    unfold Call.executed
    split
    · split <;> rfl
    · rfl
  cases c with
  | execute command => cases command <;> first | exact h.elim | exact executed _ _
  | setCurrentThreadId => exact h.elim
  | createProcess | attachProcess | attachKernel | openDumpFile | detachProcesses =>
    cases b <;> rfl
  | _ => rfl

theorem sem_keepsThread {t : Tid} {β : Type} {o : DapOp β} (ho : o.keepsThread) {s s' : Server}
    {b : β} (h : sem t β o s b s') (id : SessionId) :
    (s'.engine id).currentSystemId = (s.engine id).currentSystemId := by
  have effect {id' : SessionId} {c : Call β} (hc : c.keepsThread) (created : List Int)
      (after : EngineState → EngineState) (s : Server) :
      ((s.updateEngine id' (c.effect created after b)).engine id).currentSystemId =
        (s.engine id).currentSystemId := by
    rw [Server.updateEngine_engine]
    split
    · rename_i he
      rw [Call.effect_keepsThread hc, he]
    · rfl
  cases o with
  | call id' c => obtain ⟨_, _, -, -, rfl⟩ := sem_call h; exact effect ho _ _ s
  | leave id' c =>
    obtain ⟨-, -, _, _, -, rfl⟩ := sem_leave h
    exact effect ho _ _ { s with inCall := none }
  | updateSession id' u =>
    rw [sem_updateSession.1 h, Server.engine, Server.modifySession_sessions]
    split
    · rename_i he
      subst he
      cases u <;> rfl
    · rfl
  | enter => obtain ⟨_, -, -, -, rfl⟩ := sem_enter.1 h; rfl
  | acquire => obtain ⟨_, -, -, rfl⟩ := sem_acquire.1 h; rfl
  | send => rw [sem_send.1 h]; split <;> rfl
  | lockGate => obtain ⟨-, rfl⟩ := sem_lockGate.1 h; rfl
  | joinLoop => obtain ⟨-, rfl⟩ := sem_joinLoop.1 h; rfl
  | newSession => exact ho.elim
  | _ => obtain ⟨_, h⟩ := h; cases h; rfl

/-- A program that keeps the current thread, step after step. -/
theorem steps_keepsThread {t : Tid} {α : Type} {p q : Dap α} {s s' : Server}
    {es : List (Concurrent.Event DapOp)} (hp : AllOps DapOp.keepsThread p)
    (h : Steps (sem t) p s es q s') (id : SessionId) : AllOps DapOp.keepsThread q ∧
      (s'.engine id).currentSystemId = (s.engine id).currentSystemId := by
  induction h with
  | nil => exact ⟨hp, rfl⟩
  | cons hstep _ ih =>
    obtain ⟨hq, he⟩ := ih (hp.2 _)
    exact ⟨hq, he.trans (sem_keepsThread hp.1 hstep id)⟩

namespace Server

/-! ## Reading on a thread -/

/-- Wherever `p` reads locals or registers of session `id`, the given thread is current. -/
def ReadsOn {α : Type} (id : SessionId) (threadId : Nat) (p : Dap α) (s : Server) : Prop :=
  ∀ es (β : Type) (c : Call β) k s', Steps (sem .request) p s es (.op (.call id c) k) s' →
    c.readsFrame → (s'.engine id).currentSystemId = some threadId

/-- The reads of locals or registers of session `id` while another thread is current. -/
def IsReadOff (id : SessionId) (threadId : Nat) {β : Type} (o : DapOp β) (s : Server) : Prop :=
  ∃ c : Call β, o = .call id c ∧ c.readsFrame ∧ (s.engine id).currentSystemId ≠ some threadId

abbrev ReadsOff {α : Type} (id : SessionId) (threadId : Nat) (p : Dap α) (s : Server) : Prop :=
  Reaches (sem .request) (fun _ => True) (IsReadOff id threadId) p s

section

variable {id : SessionId} {threadId : Nat} {α : Type} {s : Server}

theorem ReadsOff.not_readsOn {p : Dap α} (h : ReadsOff id threadId p s) :
    ¬ReadsOn id threadId p s := by
  intro hr
  obtain ⟨es, β, o, k, s', hs, -, c, rfl, hc, hne⟩ := h
  exact hne (hr es β c k s' hs hc)

theorem readsOn_of_keepsThread {p : Dap α} (hp : AllOps DapOp.keepsThread p)
    (hs : (s.engine id).currentSystemId = some threadId) : ReadsOn id threadId p s := by
  intro es β c k s' h _
  rw [(steps_keepsThread hp h id).2, hs]

/-! ## The handler keeps the thread -/

theorem invoke_keepsThread {p : Dap α} (h : AllOps DapOp.keepsThread p) :
    AllOps DapOp.keepsThread (invoke .request p) := by
  refine .bind (.perform trivial) fun _ => .bind (.perform trivial) fun _ =>
    .bind h.attempt fun r => .bind (.perform trivial) fun _ => ?_
  cases r with
  | ok a => trivial
  | error e => trivial

theorem throwIfDisposed_keepsThread : AllOps DapOp.keepsThread (Session.throwIfDisposed id) :=
  .bind (.perform trivial) fun _ => .ite trivial trivial

/-- Selecting the frame, with its output captured. -/
theorem selectFrame_keepsThread (frameNumber : Nat) :
    AllOps DapOp.keepsThread (Session.executeCommandWithOutput id (.frame frameNumber)) := by
  have received (text : String) :
      AllOps DapOp.keepsThread (Session.handleOutputReceived id text) :=
    .bind (.perform trivial) fun _ => .bind (.perform trivial) fun _ =>
      .ite (.ite trivial (.perform trivial)) trivial
  have checked (r : Reply Unit) (message : String) :
      AllOps DapOp.keepsThread (Session.checkHr r message) := by
    cases r with
    | ok => trivial
    | error => trivial
  have executed : AllOps DapOp.keepsThread (Session.executeDebuggerCommand id (.frame frameNumber)
      ("Could not execute debugger command '" ++ (Command.frame frameNumber).render ++ "'")) :=
    .bind throwIfDisposed_keepsThread fun _ => .bind (.bind (.perform trivial) fun _ =>
      .bind (.forEach received _) fun _ => trivial) fun _ => checked _ _
  exact .bind throwIfDisposed_keepsThread fun _ => .bind (.ite trivial trivial) fun _ =>
    .bind (.bind (.perform trivial) fun _ => .ite trivial (.perform trivial)) fun _ =>
      .catching (.bind executed fun _ => .bind (.perform trivial) fun _ =>
        .bind (.perform trivial) fun _ => trivial) fun _ => .bind (.perform trivial) fun _ => trivial

theorem getLocalsTree_keepsThread (frameNumber : Nat) :
    AllOps DapOp.keepsThread (Session.getLocalsTree id frameNumber) := by
  refine .bind throwIfDisposed_keepsThread fun _ => .bind (selectFrame_keepsThread _) fun _ =>
    .bind (.perform trivial) fun group => ?_
  cases group with
  | none => trivial
  | some symbols => trivial

theorem getRegisters_keepsThread (frameNumber : Nat) :
    AllOps DapOp.keepsThread (Session.getRegisters id frameNumber) :=
  .bind throwIfDisposed_keepsThread fun _ => .bind (.perform trivial) fun _ =>
    .ite trivial (.perform trivial)

theorem readSessionDataOrDefault_keepsThread {reader : SessionId → Dap α} {fallback : α}
    (h : ∀ id, AllOps DapOp.keepsThread (reader id)) :
    AllOps DapOp.keepsThread (readSessionDataOrDefault reader fallback) := by
  have unavailable : AllOps DapOp.keepsThread isSessionUnavailable :=
    .bind (.perform trivial) fun _ => .ite trivial (.bind (.perform trivial) fun _ => trivial)
  refine .bind (.perform trivial) fun session => ?_
  cases session with
  | none => trivial
  | some id =>
    exact .bind (.perform trivial) fun _ => .ite trivial <| .catching (h id) fun _ =>
      .bind unavailable fun _ => .ite trivial trivial

theorem handleScopesRequest_keepsThread (request : Request ScopesArguments) :
    AllOps DapOp.keepsThread (handleScopesRequest request) := by
  refine .ite (.perform trivial) (.bind (.perform trivial) fun d => ?_)
  cases d.frameContexts.get? request.arguments.frameId with
  | none => exact .perform trivial
  | some context =>
    refine .bind (readSessionDataOrDefault_keepsThread fun id => ?_) fun _ =>
      .bind (.perform trivial) fun _ => .perform trivial
    exact .bind (invoke_keepsThread (getLocalsTree_keepsThread _)) fun _ =>
      .bind (invoke_keepsThread (getRegisters_keepsThread _)) fun _ => trivial

/-! ## An execution that reads -/

theorem throwIfDisposed_returns (ha : (s.sessions id).disposed = false) :
    Returns (sem .request) (Session.throwIfDisposed id) s () s := by
  refine .op ⟨{}, rfl⟩ ?_
  change Returns _ (if (s.sessions id).disposed = true then _ else _) _ _ _
  rw [ha]
  exact .ret ()

/-- Selecting the frame may succeed. -/
theorem selectFrame_returns (hs : AtStop id ⟨.inside, false⟩ s) (frameNumber : Nat) :
    ∃ text s', Returns (sem .request)
      (Session.executeCommandWithOutput id (.frame frameNumber)) s text s' := by
  have named : Returns (sem .request)
      (Session.throwIfNullOrWhitespace (Command.frame frameNumber).render "command") s () s := by
    have hm : '.' ∈ (Command.frame frameNumber).render.toList := by
      have hd : '.' ∈ (toString ".frame ").toList := by decide
      simp [Command.render, hd]
    have hn : ((Command.frame frameNumber).render.toList.all Text.isSpace) = false :=
      List.all_eq_false.2 ⟨'.', hm, by decide⟩
    rw [Session.throwIfNullOrWhitespace, hn]
    exact .ret ()
  have begun : Returns (sem .request) (Session.beginOutputCapture id true) s ()
      (s.modifySession id (·.update (.beginCapture true))) := by
    refine .op ⟨{}, rfl⟩ ?_
    change Returns _ (if (s.sessions id).outputCapture.isSome = true then _ else _) _ _ _
    rw [hs.capture]
    exact .perform ⟨{}, rfl⟩
  have alive : ((s.modifySession id (·.update (.beginCapture true))).sessions id).disposed =
      false := by
    rw [modifySession_sessions, if_pos rfl]
    exact hs.alive
  exact ⟨_, _, .bind (throwIfDisposed_returns hs.alive) <| .bind named <| .bind begun <|
    .catching <| .bind (.bind (throwIfDisposed_returns alive) <| .bind (.op ⟨{}, rfl⟩ (.ret _))
      (.ret ())) <| .op ⟨{}, rfl⟩ <| .op ⟨{}, rfl⟩ <| .ret _⟩

theorem getLocalsTree_readsOff (hs : AtStop id ⟨.inside, false⟩ s)
    (hne : (s.engine id).currentSystemId ≠ some threadId) (frameNumber : Nat) :
    ReadsOff id threadId (Session.getLocalsTree id frameNumber) s := by
  obtain ⟨text, s', es, hsteps⟩ := selectFrame_returns hs frameNumber
  have kept := (steps_keepsThread (selectFrame_keepsThread frameNumber) hsteps id).2
  refine .right (throwIfDisposed_returns hs.alive) (fun _ => trivial) <|
    .right ⟨es, hsteps⟩ (fun _ => trivial) <| .here ⟨.scopeSymbols, rfl, trivial, ?_⟩
  rw [kept]
  exact hne

/-- The dispatcher is idle, so the function runs at once. -/
theorem invoke_readsOff (hs : AtStop id {} s) {p : Dap α}
    (h : ∀ s', AtStop id ⟨.inside, false⟩ s' → s'.engine id = s.engine id →
      ReadsOff id threadId p s') : ReadsOff id threadId (invoke .request p) s := by
  have hq : s.queue = [] := hs.queue
  have hh : s.holder = none := hs.holder
  have enqueued : sem .request Unit .enqueue s () { s with queue := [.request] } :=
    sem_enqueue.2 (by rw [hq]; rfl)
  have acquired : sem .request Unit .acquire { s with queue := [.request] } ()
      { s with queue := [], holder := some .request } := sem_acquire.2 ⟨[], rfl, hh, rfl⟩
  refine .op enqueued trivial <| .op acquired trivial <| .left (p := p.attempt) <| .attempt ?_
  exact h _ ⟨hs.halted, hs.session, hs.alive, hs.capture, rfl, rfl,
    fun _ => hs.inCall (by decide)⟩ rfl

theorem handleScopesRequest_readsOff (hs : AtStop id {} s)
    (hne : (s.engine id).currentSystemId ≠ some threadId) {request : Request ScopesArguments}
    (hf : 0 < request.arguments.frameId) {context : FrameContext}
    (hc : s.tables.frameContexts.get? request.arguments.frameId = some context) :
    ReadsOff id threadId (handleScopesRequest request) s := by
  unfold handleScopesRequest
  rw [if_neg (by omega)]
  refine .op ⟨{}, rfl⟩ trivial ?_
  simp only [ret_bind]
  rw [hc]
  have session : sem .request (Option SessionId) .session s (some id) s :=
    sem_session.2 ⟨hs.session.symm, rfl⟩
  have halted : sem .request Bool (.load .isExecutionRunning) s false s :=
    sem_load.2 ⟨hs.halted.symm, rfl⟩
  refine .left <| .op session trivial <| .op halted trivial <| .catching <| .left <|
    invoke_readsOff hs fun s' hs' he => ?_
  exact getLocalsTree_readsOff hs' (he ▸ hne) _

/-! ## Scopes requests at a stop -/

/-- **Scopes.**  After any sequence of requests at a stop, a scopes request for a registered frame
reads locals and registers on the thread the frame was registered under, if and only if that
thread is the engine's current one when the request arrives (a frame id that is not positive is
refused). -/
theorem scopes_reads_own_thread_iff {roots : List Json} {s₀ : Server} (h₀ : AtStop id {} s₀)
    (hk : ∀ root ∈ roots, KeepsStop root) (hs : Served roots s₀ s)
    {request : Request ScopesArguments} {context : FrameContext}
    (hc : s.tables.frameContexts.get? request.arguments.frameId = some context) :
    ReadsOn id (Factory.toUInt32 context.threadId) (handleScopesRequest request) s ↔
      request.arguments.frameId ≤ 0 ∨
        (s.engine id).currentSystemId = some (Factory.toUInt32 context.threadId) := by
  have hs := hs.atStop hk h₀
  constructor
  · intro h
    by_contra hn
    rw [not_or] at hn
    exact (handleScopesRequest_readsOff hs hn.2 (by omega) hc).not_readsOn h
  · rintro (hf | ht)
    · intro es β c k s' hsteps hr
      rw [handleScopesRequest, if_pos hf] at hsteps
      cases hsteps with
      | cons _ hrest => cases hrest
    · exact readsOn_of_keepsThread (handleScopesRequest_keepsThread request) ht

end

/-! ## Two threads -/

/-- A launch of a target with two threads that stops at its entry. -/
def launchTwoThreads : Schedule :=
  Schedule.enter .request (.request (Schedule.message 1 "launch"
    [("program", .str "a.exe"), ("stopAtEntry", .bool true)])) 51 ++
    Schedule.run .callback (.callback 0 .createThread [(0, 100), (1, 101)] 0) ++
      Schedule.leave .request

/-- Every thread has one frame. -/
def oneFrame : Answers where
  answer := fun c e => match c with
    | .stackTrace => .ok [{}]
    | c => c.default e

def stackTraceMessage (seq threadId : Int) : Json :=
  Schedule.message seq "stackTrace" [("threadId", .int threadId)]

theorem stackTraceMessage_keepsStop (seq threadId : Int) :
    KeepsStop (stackTraceMessage seq threadId) := ⟨rfl, "stackTrace", by decide, rfl⟩

/-- A scopes request for the first frame of thread 100. -/
def scopesRequest : Request ScopesArguments :=
  { seq := 4, command := "scopes", arguments := { frameId := Factory.createFrameId 100 0 } }

/-- The frame is registered under thread 100. -/
def knowsFrame (s : Server) : Bool :=
  (s.tables.frameContexts.get? scopesRequest.arguments.frameId).any fun x => x.threadId = 100

theorem exists_context {s : Server} (h : knowsFrame s = true) : ∃ context,
    s.tables.frameContexts.get? scopesRequest.arguments.frameId = some context ∧
      context.threadId = 100 := by
  obtain ⟨context, hc, ht⟩ := (Option.any_eq_true _ _).1 h
  exact ⟨context, hc, by simpa using ht⟩

/-- Right after the stack trace of thread 100. -/
theorem scopes_reads_own_thread_at_launch : ∃ s₀ s : Server,
    (∃ c : Conf, Reachable {} c ∧ c.state = s₀) ∧
      Served [stackTraceMessage 2 101, stackTraceMessage 3 100] s₀ s ∧
        ReadsOn 0 (Factory.toUInt32 100) (handleScopesRequest scopesRequest) s := by
  obtain ⟨c, hr, -, ht⟩ := reachable_of_exec launchTwoThreads
    (fun c => isAtStop c.state &&
      (serveAll oneFrame [stackTraceMessage 2 101, stackTraceMessage 3 100] c.state).any fun s =>
        knowsFrame s && (s.engine 0).currentSystemId == some 100) (by decide +kernel)
  obtain ⟨h₀, ht⟩ := Bool.and_eq_true_iff.1 ht
  obtain ⟨s, hs, ht⟩ := (Option.any_eq_true _ _).1 ht
  obtain ⟨hk, hcur⟩ := Bool.and_eq_true_iff.1 ht
  obtain ⟨context, hc, hthread⟩ := exists_context hk
  have served := served_of_serveAll hs
  refine ⟨c.state, s, ⟨c, hr, rfl⟩, served, ?_⟩
  have keep : ∀ root ∈ [stackTraceMessage 2 101, stackTraceMessage 3 100], KeepsStop root := by
    simp [stackTraceMessage_keepsStop]
  have iff := scopes_reads_own_thread_iff (atStop_of_isAtStop h₀) keep served hc
  rw [hthread] at iff
  exact iff.2 (.inr (eq_of_beq hcur))

/-- After the stack trace of another thread, a scopes request may read that thread. -/
theorem scopes_reads_selected_thread : ¬∀ (c : Conf) (id : SessionId)
    (request : Request ScopesArguments) (context : FrameContext), Reachable {} c →
      AtStop id {} c.state → 0 < request.arguments.frameId →
        c.state.tables.frameContexts.get? request.arguments.frameId = some context →
          ReadsOn id (Factory.toUInt32 context.threadId) (handleScopesRequest request) c.state := by
  intro hall
  obtain ⟨c, hr, -, ht⟩ := reachable_of_exec
    (launchTwoThreads ++ Schedule.serve (stackTraceMessage 2 100) oneFrame ++
      Schedule.serve (stackTraceMessage 3 101) oneFrame)
    (fun c => isAtStop c.state && knowsFrame c.state &&
      (c.state.engine 0).currentSystemId == some 101) (by decide +kernel)
  simp only [Bool.and_eq_true, beq_iff_eq] at ht
  obtain ⟨⟨h₀, hk⟩, hcur⟩ := ht
  obtain ⟨context, hc, hthread⟩ := exists_context hk
  have hs := atStop_of_isAtStop h₀
  have off : ReadsOff 0 (Factory.toUInt32 context.threadId) (handleScopesRequest scopesRequest)
      c.state := by
    refine handleScopesRequest_readsOff hs ?_ (by decide) hc
    rw [hcur, hthread]
    decide
  exact off.not_readsOn (hall c 0 scopesRequest context hr hs (by decide) hc)

end Server

end DapDbgeng
