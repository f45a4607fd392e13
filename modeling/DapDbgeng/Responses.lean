/-
  Counting the responses of a handler.

  Every operation may give any result here, so that what is proved covers every outcome of every
  engine call and every interleaving.  Main definitions:

  * `Silent F p`: `p` sends no response, and throws only exceptions of `F`;
  * `Responds seq command p`: if `p` returns, it has sent one response, to the request `seq` with
    that command; if it throws, none.
-/
import DapDbgeng.Footprint
import DapDbgeng.Server

namespace DapDbgeng

open Concurrent Concurrent.Prog

/-! ## The log of responses -/

/-- The responses an operation hands to the writer. -/
def DapOp.responses : ∀ {β : Type}, DapOp β → List Response
  | _, .send m => m.asResponse.toList
  | _, _ => []

def responses (es : List (Concurrent.Event DapOp)) : List Response :=
  es.flatMap fun e => e.op.responses

/-- Operations append to the log; any result is possible. -/
def logRel : StepRel DapOp (List Response) := fun _ o log _ log' => log' = log ++ o.responses

abbrev logSpec : Spec DapOp (List Response) := .ofRel logRel

@[simp] theorem logSpec_pre {β : Type} (o : DapOp β) (K : β → List Response → Prop)
    (log : List Response) : logSpec.pre o K log ↔ ∀ b, K b (log ++ o.responses) :=
  ⟨fun h b => h b _ rfl, fun h b _ hl => hl ▸ h b⟩

theorem runs_responses (es : List (Concurrent.Event DapOp)) (log : List Response) :
    Runs logRel es log (log ++ responses es) := by
  induction es generalizing log with
  | nil => simpa [responses] using Runs.nil log
  | cons e es ih =>
    have h : Runs logRel (e :: es) log ((log ++ e.op.responses) ++ responses es) :=
      .cons rfl (ih _)
    simpa [responses] using h

theorem DapOp.responses_of_quiet {C : ∀ {γ : Type}, Call γ → Prop} {β : Type} {o : DapOp β}
    (h : o.quiet C) : o.responses = [] := by
  cases o with
  | send m => cases m with
    | response r => cases h
    | event e => rfl
  | _ => rfl

/-! ## Silent programs -/

section Silent

variable {α β : Type} {F F' : Exn → Prop}

/-- No response, and only exceptions of `F`. -/
def Silent (F : Exn → Prop) (p : Dap α) : Prop :=
  ∀ log, p.wp logSpec (fun _ l => l = log) (fun e l => l = log ∧ F e) log

/-- No response and no exception. -/
abbrev Mute (p : Dap α) : Prop := Silent (fun _ => False) p

namespace Silent

theorem ret (a : α) : Silent F (.ret a : Dap α) := fun _ => rfl

theorem throw {e : Exn} (h : F e) : Silent F (.throw e : Dap α) := fun _ => ⟨rfl, h⟩

theorem perform {o : DapOp α} (h : o.responses = []) : Silent F (Prog.perform o) := by
  intro log; simp [h]

theorem bind {p : Dap α} {f : α → Dap β} (hp : Silent F p) (hf : ∀ a, Silent F (f a)) :
    Silent F (p.bind f) := by
  intro log
  rw [wp_bind]
  exact wp_mono_val (fun a l hl => hl ▸ hf a l) (hp log)

theorem catching {p : Dap α} {h : Exn → Dap α} (hp : Silent F p) (hh : ∀ e, F e → Silent F' (h e)) :
    Silent F' (p.catching h) := by
  intro log
  rw [wp_catching]
  refine wp_mono (fun _ _ hl => hl) (fun e l hl => ?_) (hp log)
  obtain ⟨rfl, he⟩ := hl
  exact hh e he l

theorem ite {c : Prop} [Decidable c] {p q : Dap α} (hp : Silent F p) (hq : Silent F q) :
    Silent F (if c then p else q) := by
  split
  · exact hp
  · exact hq

theorem mono {p : Dap α} (h : Silent F p) (hF : ∀ e, F e → F' e) : Silent F' p :=
  fun log => wp_mono (fun _ _ hl => hl) (fun e _ hl => ⟨hl.1, hF e hl.2⟩) (h log)

theorem of_mute {p : Dap α} (h : Mute p) : Silent F p := h.mono fun _ => False.elim

theorem forEach {γ : Type} {f : γ → Dap Unit} (hf : ∀ x, Silent F (f x)) (xs : List γ) :
    Silent F (.forEach f xs) := by
  induction xs with
  | nil => exact ret _
  | cons x xs ih => exact bind (hf x) fun _ => ih

theorem mapEach {γ : Type} {f : γ → Dap β} (hf : ∀ x, Silent F (f x)) (xs : List γ) :
    Silent F (.mapEach f xs) := by
  induction xs with
  | nil => exact ret _
  | cons x xs ih => exact bind (hf x) fun _ => bind ih fun _ => ret _

end Silent

theorem silent_of_allOps {p : Dap α} (h : AllOps (fun o => DapOp.responses o = []) p) :
    Silent (fun _ => True) p :=
  fun log => wp_mono (fun _ _ hl => hl) (fun _ _ hl => ⟨hl, trivial⟩)
    (wp_of_allOps (I := fun l => l = log) (fun o ho l hl => by simp [ho, hl]) h rfl)

/-- A quiet program sends no response. -/
theorem Engaging.wp_log {p : Dap α} (h : Engaging p) (log : List Response) :
    p.wp logSpec (fun _ l => l = log) (fun _ l => l = log) log :=
  wp_of_allOps (fun o ho l hl => by simp [DapOp.responses_of_quiet ho, hl]) h rfl

end Silent

/-! ## Responding -/

section Responding

variable (seq : Int) (command : String)

/-- A refusal names the request it refuses. -/
def Exn.About : Exn → Prop
  | .unhandledRequest s c => s = seq ∧ c = command
  | _ => True

/-- The log grew by one response to the request. -/
def Answered (log log' : List Response) : Prop :=
  ∃ response : Response, log' = log ++ [response] ∧ response.requestSeq = seq ∧
    response.command = command

def Responds {α : Type} (p : Dap α) : Prop :=
  ∀ log, p.wp logSpec (fun _ l => Answered seq command log l)
    (fun e l => l = log ∧ e.About seq command) log

variable {seq command} {α β : Type}

namespace Responds

theorem throw {e : Exn} (h : e.About seq command) : Responds seq command (.throw e : Dap α) :=
  fun _ => ⟨rfl, h⟩

theorem after {p : Dap α} {f : α → Dap β} (hp : Silent (Exn.About seq command) p)
    (hf : ∀ a, Responds seq command (f a)) : Responds seq command (p.bind f) := by
  intro log
  rw [wp_bind]
  exact wp_mono_val (fun a l hl => hl ▸ hf a l) (hp log)

theorem before {p : Dap α} {f : α → Dap β} (hp : Responds seq command p) (hf : ∀ a, Mute (f a)) :
    Responds seq command (p.bind f) := by
  intro log
  rw [wp_bind]
  refine wp_mono_val (fun a l hl => ?_) (hp log)
  exact wp_mono (fun _ _ h => h ▸ hl) (fun _ _ h => h.2.elim) (hf a l)

theorem catching {p : Dap α} {h : Exn → Dap α} (hp : Responds seq command p)
    (hh : ∀ e, Responds seq command (h e)) : Responds seq command (p.catching h) := by
  intro log
  rw [wp_catching]
  refine wp_mono (fun _ _ hl => hl) (fun e l hl => ?_) (hp log)
  exact hl.1 ▸ hh e l

theorem ite {c : Prop} [Decidable c] {p q : Dap α} (hp : Responds seq command p)
    (hq : Responds seq command q) : Responds seq command (if c then p else q) := by
  split
  · exact hp
  · exact hq

theorem send {r : Response} (hs : r.requestSeq = seq) (hc : r.command = command) :
    Responds seq command (DapDbgeng.send (.response r)) :=
  fun _ _ _ hl => ⟨r, hl, hs, hc⟩

end Responds

end Responding

/-! ## Shared parts of the handlers -/

section Parts

variable {seq : Int} {command : String} {α : Type}

theorem throwRuntime_silent (what : String) :
    Silent (Exn.About seq command) (throwRuntime what : Dap α) := .throw trivial

/-- On the dispatcher any failure comes back wrapped. -/
theorem Silent.invoke {F F' : Exn → Prop} {p : Dap α} (h : Silent F' p)
    (hF : ∀ inner, F (.dispatcherFailure inner)) : Silent F (invoke .request p) := by
  refine .bind (.perform rfl) fun _ => .bind (.perform rfl) fun _ =>
    .bind (fun log => ?_) fun r => .bind (.perform rfl) fun _ => ?_
  · rw [wp_attempt]
    exact wp_mono (fun _ _ hl => hl) (fun _ _ hl => hl.1) (h log)
  · cases r with
    | ok a => exact .ret a
    | error e => exact .throw (hF _)

theorem invoke_silent_of {F : Exn → Prop} {p : Dap α} (h : Engaging p)
    (hF : ∀ inner, F (.dispatcherFailure inner)) : Silent F (invoke .request p) :=
  (silent_of_allOps (h.mono fun _ => DapOp.responses_of_quiet)).invoke hF

theorem invoke_silent {p : Dap α} (h : Engaging p) :
    Silent (Exn.About seq command) (invoke .request p) :=
  invoke_silent_of h fun _ => trivial

/-- A dispatched call whose failure is ignored. -/
theorem invoke_ignored {p : Dap Unit} (h : Engaging p) :
    Mute ((invoke .request p).catching fun _ => .ret ()) :=
  .catching (invoke_silent_of (F := fun _ => True) h fun _ => trivial) fun _ _ => .ret _

/-- `interrupt` runs off the dispatcher. -/
theorem interrupt_silent_of {F : Exn → Prop} (id : SessionId) (hF : ∀ what, F (.runtime what)) :
    Silent F (Session.interrupt id) := by
  refine .bind (.bind (.perform rfl) fun s => .ite (.throw (hF _)) (.ret _)) fun _ =>
    .bind (.perform rfl) fun r => ?_
  cases r with
  | ok a => exact .ret a
  | error e => exact .throw (hF _)

theorem interrupt_silent (id : SessionId) :
    Silent (Exn.About seq command) (Session.interrupt id) :=
  interrupt_silent_of id fun _ => trivial

namespace Server

theorem sendEvent_mute (e : Event) : Mute (sendEvent e) := .perform rfl

theorem resetSuspendedState_mute : Mute resetSuspendedState :=
  .bind (.perform rfl) fun _ => .perform rfl

theorem resetLaunchConfigurationState_mute : Mute resetLaunchConfigurationState :=
  .bind (.perform rfl) fun _ => .bind (.perform rfl) fun _ => .perform rfl

theorem resetAfterDispose_mute : Mute resetAfterDispose :=
  .bind (.perform rfl) fun _ => .bind (.perform rfl) fun _ => .bind (.perform rfl) fun _ =>
    .bind resetLaunchConfigurationState_mute fun _ => .bind (.perform rfl) fun _ =>
      .bind (.perform rfl) fun _ => .bind (.bind (.perform rfl) fun _ => .perform rfl) fun _ =>
        .bind resetSuspendedState_mute fun _ => .bind (.perform rfl) fun _ =>
          .bind (.perform rfl) fun _ => .bind (.perform rfl) fun _ => .perform rfl

theorem disposeDebuggerSession_mute : Mute (disposeDebuggerSession .request) := by
  refine .bind (.perform rfl) fun taken => ?_
  cases taken with
  | none => exact resetAfterDispose_mute
  | some id =>
    exact .bind (invoke_ignored (Session.destroy_engaging id _)) fun _ => resetAfterDispose_mute

theorem createDebuggerSession_silent (enginePath : String) :
    Silent (Exn.About seq command) (createDebuggerSession enginePath) :=
  .bind (.of_mute disposeDebuggerSession_mute) fun _ =>
    .bind ((silent_of_allOps (Session.create_allowed rfl (fun _ => DapOp.responses_of_quiet)
      enginePath)).invoke fun _ => trivial) fun _ => .bind (.perform rfl) fun _ => .ret _

theorem requireDebuggerSession_silent :
    Silent (Exn.About seq command) requireDebuggerSession := by
  refine .bind (.perform rfl) fun s => ?_
  cases s with
  | none => exact .throw trivial
  | some id => exact .ret id

theorem tryGetCurrentThreadId_mute : Mute (tryGetCurrentThreadId .request) := by
  refine .bind (.perform rfl) fun s => ?_
  cases s with
  | none => exact .ret _
  | some id =>
    exact .catching (F := fun _ => True) (.bind (invoke_silent_of
      (Session.getCurrentThreadId_quiet id) fun _ => trivial) fun _ => .ret _)
        fun _ _ => .ret _

theorem firstExisting_mute : ∀ candidates, Mute (firstExisting candidates)
  | [] => .ret _
  | _ :: rest => .bind (.perform rfl) fun _ => .ite (.ret _) (firstExisting_mute rest)

theorem tryResolveDebuggerEnginePath_mute (requested : Option String) :
    Mute (tryResolveDebuggerEnginePath requested) := by
  unfold tryResolveDebuggerEnginePath
  cases requested.filter fun p => !Text.isBlank p with
  | some path => exact firstExisting_mute _
  | none =>
    refine .bind (.perform rfl) fun base => .bind (firstExisting_mute _) fun bundled => ?_
    cases bundled with
    | some path => exact .ret _
    | none =>
      exact .bind (.mapEach (fun _ => .bind (.perform rfl) fun _ => .ret _) _) fun _ =>
        firstExisting_mute _

theorem applySessionConfiguration_silent (id : SessionId) (configuration : SessionConfiguration) :
    Silent (Exn.About seq command) (applySessionConfiguration id configuration) := by
  obtain ⟨symbolPath, sourcePath⟩ := configuration
  refine .bind (invoke_silent (Session.enableSourceLineSupport_quiet id).engaging) fun _ => ?_
  cases sourcePath with
  | none =>
    cases symbolPath with
    | none => exact .ret _
    | some paths =>
      exact .bind (invoke_silent (Session.setSymbolPath_quiet id paths).engaging) fun _ => .ret _
  | some sources =>
    have sources : Silent (Exn.About seq command)
        (invoke .request (Session.setSourcePath id sources)) :=
      invoke_silent (Session.setSourcePath_quiet id sources).engaging
    cases symbolPath with
    | none => exact sources
    | some paths =>
      exact .bind (invoke_silent (Session.setSymbolPath_quiet id paths).engaging) fun _ => sources

theorem runWithSuppressedSessionEvents_silent {p : Dap α}
    (h : Silent (Exn.About seq command) p) :
    Silent (Exn.About seq command) (runWithSuppressedSessionEvents p) :=
  .bind (.perform rfl) fun _ => .bind
    (.catching h fun _ he => .bind (.perform rfl) fun _ => .throw he) fun _ =>
      .bind (.perform rfl) fun _ => .ret _

theorem readSessionDataOrDefault_silent {reader : SessionId → Dap α}
    (h : ∀ id, Silent (Exn.About seq command) (reader id)) (fallback : α) :
    Silent (Exn.About seq command) (readSessionDataOrDefault reader fallback) := by
  refine .bind (.perform rfl) fun s => ?_
  cases s with
  | none => exact .ret _
  | some id =>
    refine .bind (.perform rfl) fun _ => .ite (.ret _) (.catching (h id) fun e he => ?_)
    refine .bind (.bind (.perform rfl) fun _ => ?_) fun _ => .ite (.ret _) (.throw he)
    exact .ite (.ret _) (.bind (.perform rfl) fun _ => .ret _)

theorem drainPendingDisposedSession_mute : Mute (drainPendingDisposedSession .request) := by
  refine .bind (.perform rfl) fun parked => ?_
  cases parked with
  | none => exact .ret _
  | some id => exact invoke_ignored (Session.destroy_engaging id _)

theorem joinWaitLoop_mute : Mute joinWaitLoop :=
  .bind (.perform rfl) fun _ => .bind (.perform rfl) fun _ => .bind (.perform rfl) fun _ =>
    .ite (.bind (.perform rfl) fun _ => drainPendingDisposedSession_mute)
      drainPendingDisposedSession_mute

theorem startWaitingForSessionEvent_mute (id : SessionId) :
    Mute (startWaitingForSessionEvent id) := by
  have start : Mute (do
      store .sessionStopOrExitObserved false
      store .waitLoopActive true
      Prog.perform (.spawnLoop id)
      Prog.perform .unlockGate) :=
    .bind (.perform rfl) fun _ => .bind (.perform rfl) fun _ => .bind (.perform rfl) fun _ =>
      .perform rfl
  exact .bind (.perform rfl) fun _ => .bind (.perform rfl) fun _ => .ite (.perform rfl)
    (.bind (.perform rfl) fun _ => .ite (.bind (.perform rfl) fun _ => start) start)

theorem restoreSourceLineSteppingIfNeeded_mute (id : SessionId) :
    Mute (restoreSourceLineSteppingIfNeeded .request id) :=
  .bind (.perform rfl) fun _ => .ite (.bind
    (invoke_ignored (Session.enableSourceLineStepping_quiet id).engaging) fun _ => .perform rfl)
    (.ret _)

theorem prepareSteppingGranularity_silent (id : SessionId)
    (granularity : Option SteppingGranularity) :
    Silent (Exn.About seq command) (prepareSteppingGranularity id granularity) :=
  .ite (.bind (invoke_silent (Session.enableInstructionStepping_quiet id).engaging) fun _ =>
      .perform rfl)
    (.bind (invoke_silent (Session.enableSourceLineStepping_quiet id).engaging) fun _ =>
      .perform rfl)

theorem applyBreakpointUpdateWhileRunning_silent (id : SessionId) {update : Dap α}
    (h : Silent (Exn.About seq command) update) :
    Silent (Exn.About seq command) (applyBreakpointUpdateWhileRunning id update) :=
  .bind (runWithSuppressedSessionEvents_silent (.bind (interrupt_silent id) fun _ =>
    .bind (.of_mute joinWaitLoop_mute) fun _ => .bind h fun _ => .bind (.perform rfl) fun _ =>
      .bind (invoke_silent (Session.resume_engaging id _ _)) fun _ => .ret _)) fun _ =>
    .bind (.of_mute (startWaitingForSessionEvent_mute id)) fun _ => .ret _

end Server

end Parts

end DapDbgeng
