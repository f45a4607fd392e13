/-
  Requests that fail to set the target going: continue, next, stepIn and stepOut.

  A handler selects the thread, prepares the engine and resumes; where one of these fails it undoes
  what it has done and the request is answered by an error response.

  * `FailedResume`: a request accepted at a stop, up to its failure;
  * `FailedResume.Undone`: the stop is as it was before the request;
  * `FailedResume.undone_iff`: when that is so.
-/
import DapDbgeng.AtStop
import DapDbgeng.ExecutionRequests
import DapDbgeng.Machine

namespace DapDbgeng

open Concurrent Concurrent.Prog

/-! ## What is undone -/

/-- Whether the target was told to go, and whether the request has begun to undo itself. -/
structure ResumeLog where
  resumed : Bool := false
  undoing : Bool := false

/-- The command of a call fails. -/
def Call.fails : ∀ {β : Type}, Call β → β → Bool
  | _, .execute _, r => !r.status.isOk
  | _, _, _ => false

/-- The call tells the target to go. -/
def Call.resumes : ∀ {β : Type}, Call β → Bool
  | _, .execute command => command.resumes
  | _, _ => false

def DapOp.fails : ∀ {β : Type}, DapOp β → β → Bool
  | _, .call _ c, b => c.fails b
  | _, _, _ => false

def ResumeLog.record (e : Concurrent.Event DapOp) (log : ResumeLog) : ResumeLog :=
  match e with
  | ⟨.call _ c, _⟩ => { log with resumed := log.resumed || c.resumes }
  | ⟨.clearPending, _⟩ => { log with undoing := true }
  | _ => log

/-- The steps of the request thread.  What undoes a failed request does not fail itself. -/
def resumeSteps : StepRel DapOp (Server × ResumeLog) := fun β o p b p' =>
  (sem .request).recording ResumeLog.record β o p b p' ∧ (p.2.undoing = true → o.fails b = false)

/-- What a failed request can have changed. -/
structure ResumeView where
  running : Bool
  pending : Option PendingStoppedEvent
  frames : AssocMap Int FrameContext
  containers : AssocMap Int VariableContainerContext
  sourceStepping : Bool
  lastException : Option LastExceptionInfo
  restore : Bool
  log : ResumeLog

/-- The session in use, and these parts of the server. -/
structure ResumeView.At (id : SessionId) (v : ResumeView) (p : Server × ResumeLog) : Prop where
  session : p.1.session = some id
  alive : (p.1.sessions id).disposed = false
  running : v.running = p.1.flags .isExecutionRunning
  pending : v.pending = p.1.pendingStoppedEvent
  frames : v.frames = p.1.tables.frameContexts
  containers : v.containers = p.1.tables.variablesByReference
  sourceStepping : v.sourceStepping = (p.1.sessions id).engine.sourceStepping
  lastException : v.lastException = (p.1.sessions id).lastException
  restore : v.restore = p.1.flags .restoreSourceLineSteppingAfterStop
  log : v.log = p.2

/-- The calls that run a command composed from texts of the client. -/
def Call.composed : ∀ {β : Type}, Call β → Prop
  | _, .execute (.raw _) | _, .execute (.condition _) => True
  | _, _ => False

/-- The stepping mode after a call. -/
def Call.modeAfter : ∀ {β : Type}, Call β → β → Bool → Bool
  | _, .execute .sourceStepping, r, mode => r.status.isOk || mode
  | _, .execute .instructionStepping, r, mode => !r.status.isOk && mode
  | _, _, _, mode => mode

def resumePre (id : SessionId) :
    ∀ {β : Type}, DapOp β → (β → ResumeView → Prop) → ResumeView → Prop
  | _, .load .isExecutionRunning => fun K v => K v.running v
  | _, .load .restoreSourceLineSteppingAfterStop => fun K v => K v.restore v
  | _, .store .isExecutionRunning b => fun K v => K () { v with running := b }
  | _, .store .restoreSourceLineSteppingAfterStop b => fun K v => K () { v with restore := b }
  | _, .setPending p => fun K v => K () { v with pending := some p }
  | _, .clearPending => fun K v =>
    K () { v with pending := none, log := { v.log with undoing := true } }
  | _, .takePending => fun _ _ => False
  | _, .modify _ => fun K v => ∀ b frames containers, K b { v with frames, containers }
  | _, .session => fun K v => K (some id) v
  | _, .setSession _ | _, .takeSession | _, .newSession | _, .enter .. | _, .leave .. =>
    fun _ _ => False
  | _, .readSession i => fun K v => i = id ∧ ∀ x : Session, x.disposed = false → K x v
  | _, .updateSession i (.lastException e) => fun K v => i = id ∧ K () { v with lastException := e }
  | _, .updateSession i (.appendCapture _) => fun K v => i = id ∧ K () v
  | _, .updateSession .. => fun _ _ => False
  | _, .call i c => fun K v => i = id ∧ ¬c.composed ∧
    ∀ b, (v.log.undoing = true → c.fails b = false) →
      K b { v with
        sourceStepping := c.modeAfter b v.sourceStepping
        log := { v.log with resumed := v.log.resumed || c.resumes } }
  | _, _ => fun K v => ∀ b, K b v

def resumeSpec (id : SessionId) : Spec DapOp ResumeView where
  pre := resumePre id
  mono o K K' hK v h := by
    cases o with
    | load f => cases f <;> first | exact hK _ _ h | exact fun b => hK _ _ (h b)
    | store f b => cases f <;> first | exact hK _ _ h | exact fun b => hK _ _ (h b)
    | setPending | clearPending | session => exact hK _ _ h
    | modify => exact fun b frames containers => hK _ _ (h b frames containers)
    | readSession => exact ⟨h.1, fun x hx => hK _ _ (h.2 x hx)⟩
    | updateSession i u => cases u <;> first | exact h | exact ⟨h.1, hK _ _ h.2⟩
    | call => exact ⟨h.1, h.2.1, fun b hb => hK _ _ (h.2.2 b hb)⟩
    | takePending | setSession | takeSession | newSession | enter | leave => exact h.elim
    | _ => exact fun b => hK _ _ (h b)

theorem Call.effect_mode {β : Type} {c : Call β} {b : β} {created : List Int}
    {after : EngineState → EngineState} {e : EngineState} (hc : ¬c.composed) :
    (c.effect created after b e).sourceStepping = c.modeAfter b e.sourceStepping := by
  cases c with
  | execute command =>
    have hexecuted : (executed command b created e).sourceStepping =
        (Call.execute command).modeAfter b e.sourceStepping := by
      rcases b with ⟨status | status, output⟩ <;> cases command <;> rfl
    cases command with
    | raw | condition => exact absurd trivial hc
    | _ => exact hexecuted
  | setCurrentThreadId | createProcess | attachProcess | attachKernel | openDumpFile
  | detachProcesses => cases b <;> rfl
  | _ => rfl

namespace ResumeView.At

variable {id : SessionId} {v : ResumeView} {s : Server} {log : ResumeLog}

/-- An update of the session that keeps it alive. -/
theorem modifySession (h : v.At id (s, log)) {f : Session → Session} {mode : Bool}
    {exception_ : Option LastExceptionInfo} {log' : ResumeLog}
    (ha : (f (s.sessions id)).disposed = false)
    (hm : mode = (f (s.sessions id)).engine.sourceStepping)
    (he : exception_ = (f (s.sessions id)).lastException) :
    ResumeView.At id
      { v with sourceStepping := mode, lastException := exception_, log := log' }
      (s.modifySession id f, log') :=
  { h with
    alive := by rw [Server.modifySession_sessions, if_pos rfl]; exact ha
    sourceStepping := by rw [Server.modifySession_sessions, if_pos rfl]; exact hm
    lastException := by rw [Server.modifySession_sessions, if_pos rfl]; exact he
    log := rfl }

end ResumeView.At

/-- One step of the request thread. -/
theorem resumePre_step {id : SessionId} {β : Type} (o : DapOp β) {K : β → ResumeView → Prop}
    {v : ResumeView} {p p' : Server × ResumeLog} {b : β} (hv : v.At id p)
    (hw : (resumeSpec id).pre o K v) (h : resumeSteps β o p b p') :
    ∃ v' : ResumeView, v'.At id p' ∧ K b v' := by
  rcases p with ⟨s, log⟩
  rcases p' with ⟨s', log'⟩
  obtain ⟨⟨hsem, hlog⟩, hundo⟩ := h
  dsimp only at hsem hlog hundo
  subst hlog
  obtain rfl : v.log = log := hv.log
  cases o with
  | load f =>
    obtain ⟨rfl, rfl⟩ := sem_load.1 hsem
    refine ⟨v, hv, ?_⟩
    cases f with
    | isExecutionRunning => exact hv.running ▸ hw
    | restoreSourceLineSteppingAfterStop => exact hv.restore ▸ hw
    | _ => exact hw _
  | store f value =>
    rw [sem_store.1 hsem]
    cases f with
    | isExecutionRunning => exact ⟨{ v with running := value }, { hv with running := rfl }, hw⟩
    | restoreSourceLineSteppingAfterStop =>
      exact ⟨{ v with restore := value }, { hv with restore := rfl }, hw⟩
    | _ => exact ⟨v, { hv with }, hw _⟩
  | setPending p =>
    rw [sem_setPending.1 hsem]
    exact ⟨{ v with pending := some p }, { hv with pending := rfl }, hw⟩
  | clearPending =>
    obtain ⟨_, hsem⟩ := hsem
    cases hsem
    exact ⟨{ v with pending := none, log := { v.log with undoing := true } },
      { hv with pending := rfl, log := rfl }, hw⟩
  | modify f =>
    obtain ⟨_, hsem⟩ := hsem
    cases hsem
    let d := (f s.tables).2
    exact ⟨{ v with frames := d.frameContexts, containers := d.variablesByReference },
      { hv with frames := rfl, containers := rfl }, hw _ _ _⟩
  | session =>
    obtain ⟨rfl, rfl⟩ := sem_session.1 hsem
    exact ⟨v, hv, hv.session ▸ hw⟩
  | readSession i =>
    obtain ⟨rfl, rfl⟩ := sem_readSession.1 hsem
    obtain ⟨rfl, hK⟩ := hw
    exact ⟨v, hv, hK _ hv.alive⟩
  | updateSession i u =>
    rw [sem_updateSession.1 hsem]
    cases u with
    | lastException e =>
      obtain ⟨rfl, hK⟩ := hw
      exact ⟨{ v with lastException := e }, hv.modifySession hv.alive hv.sourceStepping rfl, hK⟩
    | appendCapture text =>
      obtain ⟨rfl, hK⟩ := hw
      exact ⟨v, hv.modifySession hv.alive hv.sourceStepping hv.lastException, hK⟩
    | _ => exact hw.elim
  | call i c =>
    obtain ⟨rfl, hc, hK⟩ := hw
    obtain ⟨created, after, -, -, rfl⟩ := sem_call hsem
    refine ⟨_, hv.modifySession hv.alive ?_ hv.lastException, hK b hundo⟩
    rw [hv.sourceStepping]
    exact (Call.effect_mode hc).symm
  | send m =>
    rw [sem_send.1 hsem]
    exact ⟨v, by split <;> exact { hv with }, hw _⟩
  | lockGate => obtain ⟨-, rfl⟩ := sem_lockGate.1 hsem; exact ⟨v, { hv with }, hw _⟩
  | joinLoop => obtain ⟨-, rfl⟩ := sem_joinLoop.1 hsem; exact ⟨v, { hv with }, hw _⟩
  | acquire => obtain ⟨_, -, -, rfl⟩ := sem_acquire.1 hsem; exact ⟨v, { hv with }, hw _⟩
  | takePending | setSession | takeSession | newSession | enter | leave => exact hw.elim
  | _ => obtain ⟨_, hsem⟩ := hsem; cases hsem; exact ⟨v, { hv with }, hw _⟩

/-- The view after a command. -/
def ResumeView.ran (v : ResumeView) (command : Command) (r : ExecuteResult) : ResumeView :=
  { v with
    sourceStepping := (Call.execute command).modeAfter r v.sourceStepping
    log := { v.log with resumed := v.log.resumed || command.resumes } }

/-- The operations that select a thread of the session. -/
def DapOp.selecting (id : SessionId) : ∀ {β : Type}, DapOp β → Prop
  | _, .readSession i => i = id
  | _, .call i c => i = id ∧ c.selectsThread
  | _, _ => False

/-- What a request leaves behind that fails before it tells the target to go. -/
def ResumeView.failedBefore (v : ResumeView) : Bool → ResumeView
  | true =>
    { v with
      running := false
      pending := none
      sourceStepping := v.restore || v.sourceStepping
      restore := false
      log := { v.log with undoing := true } }
  | false => { v with running := false }

/-- What a request leaves behind that fails to tell the target to go. -/
def ResumeView.failedResuming (v : ResumeView) : Bool → ResumeView
  | true =>
    { v with
      running := false
      pending := none
      sourceStepping := true
      lastException := none
      restore := false
      log := ⟨true, true⟩ }
  | false =>
    { v with running := false, lastException := none, log := { v.log with resumed := true } }

/-! ## What the parts of a handler do -/

section

variable {id : SessionId} {v : ResumeView} {α : Type}

theorem invoke_resume {p : Dap α} {Q : α → ResumeView → Prop} {E : Exn → ResumeView → Prop}
    (h : p.wp (resumeSpec id) Q (fun _ w => ∀ e, E e w) v) :
    (invoke .request p).wp (resumeSpec id) Q E v := by
  intro _ _
  change (p.attempt.bind _).wp _ _ _ _
  rw [wp_bind, wp_attempt]
  exact wp_mono (fun _ _ hQ _ => hQ) (fun _ _ hE _ => hE _) h

namespace Session

theorem throwIfDisposed_resume {Q : Unit → ResumeView → Prop} {E : Exn → ResumeView → Prop}
    (hQ : Q () v) : (throwIfDisposed id).wp (resumeSpec id) Q E v := by
  refine ⟨rfl, fun x hx => ?_⟩
  change (if x.disposed = true then _ else _ : Dap Unit).wp _ _ _ _
  rw [if_neg (by simp [hx])]
  exact hQ

theorem handleOutput_resume {E : Exn → ResumeView → Prop} (text : String) :
    (handleOutputReceived id text).wp (resumeSpec id) (fun _ w => w = v) E v := by
  refine ⟨rfl, fun x _ => ⟨rfl, ?_⟩⟩
  dsimp only [ret_bind]
  split
  · rw [onOutputReceived]
    split
    · rfl
    · exact fun _ => rfl
  · rfl

theorem executeDebuggerCommand_resume {command : Command} {message : String}
    {Q : Unit → ResumeView → Prop} {E : Exn → ResumeView → Prop}
    (hc : ¬(Call.execute command).composed) (hQ : ∀ r : ExecuteResult, r.status.isOk = true →
      Q () (v.ran command r))
    (hE : ∀ r : ExecuteResult, r.status.isOk = false → v.log.undoing = false →
      ∀ e, E e (v.ran command r)) :
    (executeDebuggerCommand id command message).wp (resumeSpec id) Q E v := by
  have hpump : (Call.execute command).pump? = none := by
    cases command with
    | raw => exact absurd trivial hc
    | _ => rfl
  rw [executeDebuggerCommand, bind_eq, wp_bind]
  refine throwIfDisposed_resume ?_
  rw [execute, hpump]
  simp only [Option.isSome_none, Bool.false_eq_true, if_false, bind_eq, wp_bind]
  refine ⟨rfl, hc, fun r hr => ?_⟩
  dsimp only [wp_ret]
  refine wp_mono_val (fun _ w hw => ?_) (wp_forEach (I := fun w => w = v.ran command r)
    (fun text _ w hw => ?_) rfl)
  · subst hw
    cases hstatus : r.status with
    | ok => exact hQ r (by rw [hstatus]; rfl)
    | error =>
      have hnot : r.status.isOk = false := by rw [hstatus]; rfl
      refine hE r hnot ?_ _
      by_contra hundoing
      have hfails := hr (Bool.eq_true_of_not_eq_false hundoing)
      rw [Call.fails, hnot] at hfails
      cases hfails
  · subst hw
    exact handleOutput_resume text

/-! ### Selecting the thread -/

theorem setCurrentThread_selecting (systemThreadId : Nat) :
    AllOps (DapOp.selecting id) (setCurrentThread id systemThreadId) := by
  have checked {β γ : Type} (r : Reply β) (message : String) {f : β → Dap γ}
      (h : ∀ b, AllOps (DapOp.selecting id) (f b)) :
      AllOps (DapOp.selecting id) ((checkHr r message).bind f) := by
    refine .bind ?_ h
    cases r <;> trivial
  have ids : AllOps (DapOp.selecting id) (readThreadIds id) := by
    refine .bind (.perform ⟨rfl, trivial⟩) fun r => checked r _ fun count => .ite trivial ?_
    refine .bind (.perform ⟨rfl, trivial⟩) fun r => ?_
    cases r <;> trivial
  have select (i : Nat) : AllOps (DapOp.selecting id) (do
      let r ← call id (.setCurrentThreadId i)
      checkHr r "Could not select thread") := by
    refine .bind (.perform ⟨rfl, trivial⟩) fun r => ?_
    cases r <;> trivial
  refine .bind (.bind (.perform rfl) fun _ => .ite trivial trivial) fun _ =>
    .bind (.perform rfl) fun _ => .ite (.bind ids fun systemIds => ?_)
      (.bind (.perform ⟨rfl, trivial⟩) fun r => checked r _ fun i => select i)
  cases systemIds.findIdx? (· = systemThreadId) with
  | none => trivial
  | some index => exact select index

/-- Selecting a thread changes nothing of the view, however it ends. -/
theorem setCurrentThread_resume (systemThreadId : Nat) :
    (setCurrentThread id systemThreadId).wp (resumeSpec id) (fun _ w => w = v) (fun _ w => w = v)
      v := by
  refine wp_of_allOps (fun {β} o ho w hw => ?_) (setCurrentThread_selecting systemThreadId) rfl
  subst hw
  cases o with
  | readSession i => exact ⟨ho, fun _ _ => rfl⟩
  | call i c =>
    obtain ⟨rfl, hc⟩ := ho
    cases c with
    | numberThreads | threadIdsByIndex | currentThreadId | threadIdBySystemId
    | setCurrentThreadId =>
      refine ⟨rfl, False.elim, fun b _ => ?_⟩
      simp [Call.modeAfter, Call.resumes]
    | _ => exact hc.elim
  | _ => exact ho.elim

end Session

theorem storeRunning_resume {b : Bool} {Q : Unit → ResumeView → Prop}
    {E : Exn → ResumeView → Prop} (hQ : Q () { v with running := b }) :
    (store .isExecutionRunning b).wp (resumeSpec id) Q E v := hQ

theorem clearPending_resume {Q : Unit → ResumeView → Prop} {E : Exn → ResumeView → Prop}
    (hQ : Q () { v with pending := none, log := { v.log with undoing := true } }) :
    clearPendingStoppedEvent.wp (resumeSpec id) Q E v := hQ

theorem storeRestore_resume {b : Bool} {Q : Unit → ResumeView → Prop}
    {E : Exn → ResumeView → Prop} (hQ : Q () { v with restore := b }) :
    (store .restoreSourceLineSteppingAfterStop b).wp (resumeSpec id) Q E v := hQ

namespace Server

def FailsAs (stepping : Bool) (v w : ResumeView) : Prop :=
  w = v.failedBefore stepping ∨ w = v.failedResuming stepping

theorem resume_fails {command : Command} {message : String} {Q : Unit → ResumeView → Prop}
    {E : Exn → ResumeView → Prop} (hc : command.resumes = true) (hQ : ∀ w, Q () w) (hE : ∀ e, E e
      { v with lastException := none, log := { v.log with resumed := true } }) :
    (invoke .request (Session.resume id command message)).wp (resumeSpec id) Q E v := by
  have hcomposed : ¬(Call.execute command).composed := by
    cases command <;> first | exact False.elim | cases hc
  have hmode (r : ExecuteResult) (mode : Bool) :
      (Call.execute command).modeAfter r mode = mode := by
    cases command <;> first | rfl | cases hc
  refine invoke_resume ⟨rfl, ?_⟩
  refine Session.executeDebuggerCommand_resume hcomposed (fun _ _ => hQ _) fun r _ _ _ e => ?_
  have h := hE e
  simp only [ResumeView.ran, hmode, hc, Bool.or_true]
  exact h

theorem continueTarget_fails (threadId : Int) : (continueTarget id threadId).wp (resumeSpec id)
    (fun _ _ => True) (fun _ w => FailsAs false v w) v := by
  simp only [continueTarget, bind_eq, wp_catching, wp_bind]
  refine invoke_resume (wp_mono (fun _ w hw => ?_) (fun _ w hw _ => ?_)
    (Session.setCurrentThread_resume _))
  · subst hw
    exact resume_fails rfl (fun _ _ _ _ _ => trivial) fun _ => .inr rfl
  · subst hw
    exact .inl rfl

theorem startWaiting_resume {E : Exn → ResumeView → Prop} :
    (startWaitingForSessionEvent id).wp (resumeSpec id) (fun _ _ => True) E v := by
  intro _ active
  cases active with
  | true => exact fun _ => trivial
  | false =>
    rintro (_ | _)
    · exact fun _ _ _ _ => trivial
    · exact fun _ _ _ _ _ => trivial

/-- A command that changes the stepping mode. -/
theorem enable_resume {command : Command} {message : String} {Q : Unit → ResumeView → Prop}
    {E : Exn → ResumeView → Prop} (hc : ¬(Call.execute command).composed)
    (hQ : ∀ r : ExecuteResult, r.status.isOk = true → Q () (v.ran command r))
    (hE : ∀ r : ExecuteResult, r.status.isOk = false → v.log.undoing = false →
      ∀ e, E e (v.ran command r)) :
    (invoke .request (do
      Session.throwIfDisposed id
      Session.executeDebuggerCommand id command message)).wp (resumeSpec id) Q E v := by
  refine invoke_resume ?_
  rw [bind_eq, wp_bind]
  exact Session.throwIfDisposed_resume (Session.executeDebuggerCommand_resume hc hQ
    fun r hr hundoing _ => hE r hr hundoing)

theorem enableSourceLineStepping_resume {Q : Unit → ResumeView → Prop}
    {E : Exn → ResumeView → Prop} (hQ : Q () { v with sourceStepping := true })
    (hE : v.log.undoing = false → ∀ e, E e v) :
    (invoke .request (Session.enableSourceLineStepping id)).wp (resumeSpec id) Q E v := by
  refine enable_resume not_false (fun r hr => ?_) fun r hr hundoing e => ?_
  · simpa [ResumeView.ran, Call.modeAfter, Command.resumes, hr] using hQ
  · simpa [ResumeView.ran, Call.modeAfter, Command.resumes, hr] using hE hundoing e

theorem enableInstructionStepping_resume {Q : Unit → ResumeView → Prop}
    {E : Exn → ResumeView → Prop} (hQ : Q () { v with sourceStepping := false })
    (hE : v.log.undoing = false → ∀ e, E e v) :
    (invoke .request (Session.enableInstructionStepping id)).wp (resumeSpec id) Q E v := by
  refine enable_resume not_false (fun r hr => ?_) fun r hr hundoing e => ?_
  · simpa [ResumeView.ran, Call.modeAfter, Command.resumes, hr] using hQ
  · simpa [ResumeView.ran, Call.modeAfter, Command.resumes, hr] using hE hundoing e

/-- What undoing a step leaves behind. -/
def undone (v : ResumeView) : ResumeView :=
  { v with
    running := false
    pending := none
    sourceStepping := v.restore || v.sourceStepping
    restore := false
    log := { v.log with undoing := true } }

/-- Undoing a step puts the engine back into source mode if that is to be done. -/
theorem undoStep_resume {E : Exn → ResumeView → Prop} {e : Exn} (hE : E e (undone v)) :
    (do
      store .isExecutionRunning false
      clearPendingStoppedEvent
      restoreSourceLineSteppingIfNeeded .request id
      Prog.throw e : Dap Unit).wp (resumeSpec id) (fun _ _ => True) E v := by
  simp only [bind_eq, wp_bind, wp_throw]
  refine storeRunning_resume (clearPending_resume ?_)
  rw [restoreSourceLineSteppingIfNeeded, bind_eq, wp_bind]
  change (if v.restore = true then _ else _ : Dap Unit).wp _ _ _ _
  cases hrestore : v.restore with
  | false =>
    rw [if_neg (by simp)]
    simpa [undone, hrestore] using hE
  | true =>
    rw [if_pos rfl, bind_eq, wp_bind, wp_catching]
    refine enableSourceLineStepping_resume (storeRestore_resume ?_) ?_
    · simpa [undone, hrestore] using hE
    · intro hundoing
      cases hundoing

theorem setPending_resume {reason : StoppedEventBodyReason} {description : Option String}
    {Q : Unit → ResumeView → Prop} {E : Exn → ResumeView → Prop}
    (hQ : ∀ pending, Q () { v with pending }) :
    (setPendingStoppedEvent reason description).wp (resumeSpec id) Q E v := hQ _

/-- Announcing the stop and stepping. -/
theorem stepOff_fails {kind : StepKind} {command : Command} {message : String}
    {E : Exn → ResumeView → Prop} (hk : kind.step id = Session.resume id command message)
    (hc : command.resumes = true) (hE : ∀ pending e, E e { v with
      running := true, pending, lastException := none, log := { v.log with resumed := true } }) :
    (do
      setPendingStoppedEvent .step (some kind.description)
      store .isExecutionRunning true
      invoke .request (kind.step id)
      resetSuspendedState
      startWaitingForSessionEvent id : Dap Unit).wp (resumeSpec id) (fun _ _ => True) E v := by
  simp only [bind_eq, wp_bind, hk]
  refine setPending_resume fun pending => storeRunning_resume ?_
  refine resume_fails hc (fun _ _ _ _ => ?_) (hE pending)
  exact fun _ => startWaiting_resume

/-- Up to its failure a step has changed only what undoing it puts right, and the exception. -/
theorem stepUp_fails {kind : StepKind} {command : Command} {message : String}
    (hk : kind.step id = Session.resume id command message) (hc : command.resumes = true)
    (threadId : Int) (granularity : Option SteppingGranularity) :
    (do
      invoke .request (Session.setCurrentThread id (Factory.toUInt32 threadId))
      prepareSteppingGranularity id granularity
      setPendingStoppedEvent .step (some kind.description)
      store .isExecutionRunning true
      invoke .request (kind.step id)
      resetSuspendedState
      startWaitingForSessionEvent id : Dap Unit).wp (resumeSpec id) (fun _ _ => True)
        (fun _ w => FailsAs true v (undone w)) v := by
  rw [bind_eq, wp_bind]
  refine invoke_resume (wp_mono (fun _ w hw => ?_) (fun _ w hw _ => ?_)
    (Session.setCurrentThread_resume _))
  · subst hw
    rw [bind_eq, wp_bind, prepareSteppingGranularity]
    split
    · rw [bind_eq, wp_bind]
      refine enableInstructionStepping_resume (storeRestore_resume ?_) fun _ _ => .inl rfl
      exact stepOff_fails hk hc fun _ _ => .inr rfl
    · rw [bind_eq, wp_bind]
      refine enableSourceLineStepping_resume (storeRestore_resume ?_) fun _ _ => .inl rfl
      exact stepOff_fails hk hc fun _ _ => .inr rfl
  · subst hw
    exact .inl rfl

theorem stepTarget_fails {kind : StepKind} {command : Command} {message : String}
    (hk : kind.step id = Session.resume id command message) (hc : command.resumes = true)
    (threadId : Int) (granularity : Option SteppingGranularity) :
    (stepTarget kind id threadId granularity).wp (resumeSpec id) (fun _ _ => True)
      (fun _ w => FailsAs true v w) v := by
  rw [stepTarget, wp_catching]
  exact wp_mono (fun _ _ hQ => hQ)
    (fun _ _ hw => undoStep_resume (E := fun _ w => FailsAs true v w) hw)
    (stepUp_fails hk hc threadId granularity)

/-! ## The handlers -/

theorem requireDebuggerSession_resume {f : SessionId → Dap Unit} {Q : Unit → ResumeView → Prop}
    {E : Exn → ResumeView → Prop} (h : (f id).wp (resumeSpec id) Q E v) :
    (requireDebuggerSession.bind f).wp (resumeSpec id) Q E v := h

/-- A check of the arguments changes nothing. -/
theorem checked_resume {α : Type} {request : Request α} {message : String} {c : Prop} [Decidable c]
    {p : Dap Unit} {E : Exn → ResumeView → Prop}
    (h : p.wp (resumeSpec id) (fun _ _ => True) E v) :
    (do
      if ← (if c then return true else do
        fail request message
        return false : Dap Bool) then p else return).wp (resumeSpec id) (fun _ _ => True) E v := by
  rw [bind_eq, wp_bind]
  by_cases hc : c
  · rw [if_pos hc]
    exact h
  · rw [if_neg hc]
    exact fun _ => trivial

theorem handleContinueRequest_fails (request : Request ExecutionArguments) :
    (handleContinueRequest request).wp (resumeSpec id) (fun _ _ => True)
      (fun _ w => FailsAs false v w) v := by
  refine checked_resume (checked_resume ?_)
  change (if v.running = true then _ else _ : Dap Unit).wp _ _ _ _
  split
  · exact fun _ => trivial
  · refine requireDebuggerSession_resume ?_
    rw [bind_eq, wp_bind]
    refine wp_mono_val (fun _ _ _ => ?_) (continueTarget_fails request.arguments.threadId)
    exact fun _ _ => startWaiting_resume

theorem handleStep_fails {kind : StepKind} {command : Command} {message : String}
    (hk : kind.step id = Session.resume id command message) (hc : command.resumes = true)
    (request : Request ExecutionArguments) :
    (handleStep kind request).wp (resumeSpec id) (fun _ _ => True)
      (fun _ w => FailsAs true v w) v := by
  change (if v.running = true then _ else _ : Dap Unit).wp _ _ _ _
  split
  · exact fun _ => trivial
  · refine requireDebuggerSession_resume ?_
    rw [bind_eq, wp_bind]
    refine wp_mono_val (fun _ _ _ => ?_) (stepTarget_fails hk hc request.arguments.threadId
      request.arguments.granularity)
    exact fun _ => trivial

end Server

end

/-! ## Failed requests -/

/-- The requests that set the target going. -/
inductive ResumeRequest where
  | continue_ | next | stepIn | stepOut
  deriving DecidableEq

namespace ResumeRequest

def isStep : ResumeRequest → Bool
  | .continue_ => false
  | _ => true

def handler : ResumeRequest → Request ExecutionArguments → Dap Unit
  | .continue_ => Server.handleContinueRequest
  | .next => Server.handleNextRequest
  | .stepIn => Server.handleStepInRequest
  | .stepOut => Server.handleStepOutRequest

theorem handler_fails (kind : ResumeRequest) (request : Request ExecutionArguments)
    {id : SessionId} {v : ResumeView} : (kind.handler request).wp (resumeSpec id) (fun _ _ => True)
      (fun _ w => Server.FailsAs kind.isStep v w) v := by
  cases kind with
  | continue_ => exact Server.handleContinueRequest_fails request
  | next | stepOut =>
    refine Server.checked_resume (Server.checked_resume ?_)
    exact Server.handleStep_fails rfl rfl request
  | stepIn =>
    refine Server.checked_resume (Server.checked_resume (Server.checked_resume ?_))
    exact Server.handleStep_fails rfl rfl request

end ResumeRequest

/-- What exceptionInfo answers with at a stop; without an exception it fails. -/
def exceptionInfoAnswer (id : SessionId) (s : Server) : Option Body :=
  (s.sessions id).lastException.map Server.exceptionInfoBody

/-- A request served at a stop that fails: it ends in an exception, for which the client is sent an
error response. -/
structure FailedResume where
  kind : ResumeRequest
  request : Request ExecutionArguments
  id : SessionId
  before : Server
  after : Server
  log : ResumeLog
  error : Exn
  atStop : AtStop id {} before
  ends : Ends resumeSteps (kind.handler request) (before, {}) (.error error) (after, log)

namespace FailedResume

/-- The stop is as it was, in source mode. -/
structure Undone (f : FailedResume) : Prop where
  halted : f.after.flags .isExecutionRunning = false
  pending : f.after.pendingStoppedEvent = none
  frames : f.after.tables.frameContexts = f.before.tables.frameContexts
  containers : f.after.tables.variablesByReference = f.before.tables.variablesByReference
  sourceStepping : (f.after.engine f.id).sourceStepping = true
  exceptionInfo : exceptionInfoAnswer f.id f.after = exceptionInfoAnswer f.id f.before

/-- What undoing puts right, and what there is to put right. -/
structure Harmless (f : FailedResume) : Prop where
  pending : f.kind.isStep = true ∨ f.before.pendingStoppedEvent = none
  sourceStepping : (f.before.engine f.id).sourceStepping = true ∨ f.kind.isStep = true ∧
    (f.before.flags .restoreSourceLineSteppingAfterStop = true ∨ f.log.resumed = true)
  exceptionInfo : (f.before.sessions f.id).lastException = none ∨ f.log.resumed = false

/-- The view before the request. -/
def view (f : FailedResume) : ResumeView where
  running := false
  pending := f.before.pendingStoppedEvent
  frames := f.before.tables.frameContexts
  containers := f.before.tables.variablesByReference
  sourceStepping := (f.before.engine f.id).sourceStepping
  lastException := (f.before.sessions f.id).lastException
  restore := f.before.flags .restoreSourceLineSteppingAfterStop
  log := {}

theorem view_at (f : FailedResume) : f.view.At f.id (f.before, {}) where
  session := f.atStop.session
  alive := f.atStop.alive
  running := f.atStop.halted.symm
  pending := rfl
  frames := rfl
  containers := rfl
  sourceStepping := rfl
  lastException := rfl
  restore := rfl
  log := rfl

/-- What the request leaves behind. -/
theorem failed (f : FailedResume) :
    ∃ w : ResumeView, w.At f.id (f.after, f.log) ∧ Server.FailsAs f.kind.isStep f.view w := by
  obtain ⟨events, hsteps⟩ := f.ends
  exact wp_view resumePre_step hsteps f.view_at (f.kind.handler_fails f.request)

/-- **Failing to resume.**  A continue, next, stepIn or stepOut request that fails at a stop leaves
the stop as it was if and only if it is a step or no stopped event was pending; the engine was in
source mode, or a step puts it back; and no exception was recorded, or the target was not told to
go. -/
theorem undone_iff (f : FailedResume) : f.Undone ↔ f.Harmless := by
  obtain ⟨w, hw, hfails⟩ := f.failed
  have answer : exceptionInfoAnswer f.id f.after =
      w.lastException.map Server.exceptionInfoBody := by
    rw [exceptionInfoAnswer, hw.lastException]
  have undone : f.Undone ↔ w.running = false ∧ w.pending = none ∧ w.frames = f.view.frames ∧
      w.containers = f.view.containers ∧ w.sourceStepping = true ∧
        w.lastException.map Server.exceptionInfoBody =
          f.view.lastException.map Server.exceptionInfoBody := by
    rw [hw.running, hw.pending, hw.frames, hw.containers, hw.sourceStepping, ← answer]
    exact ⟨fun h => ⟨h.halted, h.pending, h.frames, h.containers, h.sourceStepping,
      h.exceptionInfo⟩, fun ⟨h₁, h₂, h₃, h₄, h₅, h₆⟩ => ⟨h₁, h₂, h₃, h₄, h₅, h₆⟩⟩
  have harmless : f.Harmless ↔ (f.kind.isStep = true ∨ f.view.pending = none) ∧
      (f.view.sourceStepping = true ∨ f.kind.isStep = true ∧
        (f.view.restore = true ∨ w.log.resumed = true)) ∧
          (f.view.lastException = none ∨ w.log.resumed = false) := by
    rw [hw.log]
    exact ⟨fun h => ⟨h.pending, h.sourceStepping, h.exceptionInfo⟩,
      fun ⟨h₁, h₂, h₃⟩ => ⟨h₁, h₂, h₃⟩⟩
  rw [undone, harmless]
  have untold : f.view.log.resumed = false := rfl
  have cleared : (none : Option Body) = f.view.lastException.map Server.exceptionInfoBody ↔
      f.view.lastException = none := by
    cases f.view.lastException <;> simp
  cases hstep : f.kind.isStep with
  | true =>
    rw [hstep] at hfails
    rcases hfails with rfl | rfl
    · simp [ResumeView.failedBefore, untold, or_comm]
    · simp [ResumeView.failedResuming, cleared]
  | false =>
    rw [hstep] at hfails
    rcases hfails with rfl | rfl
    · simp [ResumeView.failedBefore, untold]
    · simp [ResumeView.failedResuming, cleared]

/-! ## An exception forgotten -/

/-- An access violation stops the target. -/
def accessViolation : Schedule :=
  Schedule.launchAndPark ++ Schedule.report (.exception 0xC0000005 0x1000 false) ++
    Schedule.report .break_ ++ Schedule.leave .loop ++ Schedule.run .loop (.loopCondition 0) ++
    Schedule.run .loop .loopEnd

/-- The engine does not go. -/
def refusesToGo : Answers where
  answer := fun c e => match c with
    | .execute .go => { status := .error 0x80004005 }
    | c => c.default e

def refusedContinue : Request ExecutionArguments :=
  { seq := 5, command := "continue", arguments := { threadId := 100 } }

def refusedSteps {β : Type} (o : DapOp β) (p : Server × ResumeLog) :
    Option (β × Server × ResumeLog) :=
  (apply .request refusesToGo o p.1).bind fun x =>
    if p.2.undoing && o.fails x.1 then none else some (x.1, x.2, ResumeLog.record ⟨o, x.1⟩ p.2)

theorem resumeSteps_of_refusedSteps {β : Type} (o : DapOp β) (p : Server × ResumeLog) (b : β)
    (p' : Server × ResumeLog) (h : refusedSteps o p = some (b, p')) : resumeSteps β o p b p' := by
  obtain ⟨⟨b', s'⟩, happly, h⟩ := Option.bind_eq_some_iff.1 h
  split at h
  · cases h
  · rename_i hnot
    cases h
    refine ⟨⟨⟨_, happly⟩, rfl⟩, fun hundoing => ?_⟩
    simpa [hundoing] using hnot

/-- Whether the session `id` is in use at a stop and the dispatcher idle. -/
def atStop? (id : SessionId) (s : Server) : Bool :=
  !s.flags .isExecutionRunning && s.session == some id && !(s.sessions id).disposed &&
    (s.sessions id).outputCapture.isNone && s.queue == [] && s.holder == none && s.inCall.isNone

theorem atStop_of_atStop? {id : SessionId} {s : Server} (h : atStop? id s = true) :
    AtStop id {} s := by
  simp only [atStop?, Bool.and_eq_true, Bool.not_eq_true', beq_iff_eq, Option.isNone_iff_eq_none]
    at h
  obtain ⟨⟨⟨⟨⟨⟨hhalted, hsession⟩, halive⟩, hcapture⟩, hqueue⟩, hholder⟩, hcall⟩ := h
  exact ⟨hhalted, hsession, halive, by rw [hcapture]; rfl, hqueue, hholder, fun _ => hcall⟩

/-- Whether a continue request that fails loses the exception of the stop. -/
def forgetsException (c : Conf) : Bool :=
  atStop? 0 c.state && (exceptionInfoAnswer 0 c.state).isSome &&
    match (Server.handleContinueRequest refusedContinue).eval refusedSteps 200 (c.state, {}) with
    | some (.error _, s, _) => (exceptionInfoAnswer 0 s).isNone
    | _ => false

/-- A continue request that fails at a stop for an exception; the exception is forgotten. -/
theorem exception_forgotten : ∃ (c : Conf) (f : FailedResume), Reachable {} c ∧
    f.before = c.state ∧ f.kind = .continue_ ∧ (exceptionInfoAnswer f.id f.before).isSome = true ∧
      ¬f.Undone := by
  obtain ⟨c, hr, -, ht⟩ := reachable_of_exec accessViolation forgetsException (by decide +kernel)
  simp only [forgetsException, Bool.and_eq_true] at ht
  obtain ⟨⟨hstop, hbefore⟩, hafter⟩ := ht
  split at hafter
  · rename_i error s log heval
    refine ⟨c, ⟨.continue_, refusedContinue, 0, c.state, s, log, error, atStop_of_atStop? hstop,
      .of_eval resumeSteps_of_refusedSteps heval⟩, hr, rfl, rfl, hbefore, fun hundone => ?_⟩
    have hsame := hundone.exceptionInfo
    dsimp only at hsame
    rw [← hsame] at hbefore
    rw [Option.isNone_iff_eq_none.1 hafter] at hbefore
    cases hbefore
  · cases hafter

/-- A request that fails may leave a stop without its exception. -/
theorem not_undone : ¬∀ f : FailedResume, f.Undone := by
  intro hall
  obtain ⟨_, f, -, -, -, -, hnot⟩ := exception_forgotten
  exact hnot (hall f)

end FailedResume

end DapDbgeng
