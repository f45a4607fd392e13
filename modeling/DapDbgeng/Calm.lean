/-
  The request thread on its own.

  Between two resumes no wait loop is left, and the engine runs no callbacks.  As long as that is so
  no other thread takes a step, whatever the interleaving.

  * `Server.calm`: no wait loop is left, no detached wait is due and no call runs callbacks;
  * `request_of_calm`: in such a state only the request thread takes a step;
  * `inCall_of_callback`: a callback runs while some thread is inside a call that may run it;
  * `stepPlaced_run`: a run with a history may be taken for one whose steps are placed so.
-/
import DapDbgeng.OrderlyRuns
import DapDbgeng.Progress

namespace DapDbgeng

open Concurrent Concurrent.Prog Control

/-- No wait loop is left, no detached wait is due, and no call that runs callbacks is going on. -/
def Server.calm (s : Server) : Bool := s.loop = .idle && s.pump.isNone && s.inCall.isNone

theorem Server.calm_iff {s : Server} :
    s.calm = true ↔ s.loop = .idle ∧ s.pump = none ∧ s.inCall = none := by
  simp [Server.calm, and_assoc]

section

variable {fullPath : String → String} {ls : List Lab} {c c' : Conf} {l : Lab}

/-- Nobody but the request thread can begin anything in a calm state. -/
theorem startJob_calm {t : Tid} {j : Job} {s s' : Server} (hc : s.calm = true)
    (h : Server.startJob t j s = some s') : t = .request := by
  obtain ⟨hloop, hpump, hcall⟩ := Server.calm_iff.1 hc
  have ht := Server.startJob_thread h
  cases j with
  | request | teardown => exact ht
  | callback id event threads current =>
    obtain ⟨hreport, -⟩ := Server.startJob_callback h
    simp [Server.mayReport, hcall] at hreport
  | pump id =>
    subst ht
    simp [Server.startJob, Job.thread, hpump] at h
  | loopCondition | loopBody | loopEnd =>
    exact absurd hloop ((startJob_loop h).2 ht)

/-- **The request thread on its own**: in a calm state, with no detached wait going on, only the
request thread takes a step. -/
theorem request_of_calm (hr : adapter.system.Run (.init { fullPath }) ls c)
    (hc : c.state.calm = true) (hpump : c.threads .pump = none)
    (hs : adapter.system.Step c l c') : l.thread = .request := by
  obtain ⟨hloop, -, hcall⟩ := Server.calm_iff.1 hc
  have busy (t : Tid) (j : Job) (p : Dap Bool) (h : c.threads t = some (j, p)) : t = .request := by
    cases t with
    | request => rfl
    | loop => exact absurd hloop ((busy_of_run hr .loop j p h).2.1 rfl)
    | pump => rw [hpump] at h; cases h
    | callback =>
      have hactive : c.state.control.callbackActive = true :=
        (busy_of_run hr .callback j p h).2.2 rfl
      have hbusy : c.state.inCall.isSome = true :=
        (Demands.sound (turns_valid fullPath) hr).inv.active hactive
      rw [hcall] at hbusy
      cases hbusy
  cases hs with
  | start _ h => exact startJob_calm hc h
  | op h => exact busy _ _ _ h
  | finish h => exact busy _ _ _ h

/-- A callback runs inside a call. -/
theorem inCall_of_callback (hr : adapter.system.Run (.init { fullPath }) ls c)
    (ht : l.thread = .callback) (hs : adapter.system.Step c l c') :
    c.state.inCall.isSome = true := by
  have busy {t : Tid} {j : Job} {p : Dap Bool} (h : c.threads t = some (j, p))
      (ht : t = .callback) : c.state.inCall.isSome = true := by
    have hactive : c.state.control.callbackActive = true := (busy_of_run hr t j p h).2.2 ht
    exact (Demands.sound (turns_valid fullPath) hr).inv.active hactive
  cases hs with
  | @start t j s' _ h =>
    have hj := Server.startJob_thread h
    cases j with
    | callback id event threads current =>
      obtain ⟨hreport, -⟩ := Server.startJob_callback h
      cases hcall : c.state.inCall with
      | none => simp [Server.mayReport, hcall] at hreport
      | some call => rfl
    | _ => cases hj.symm.trans ht
  | op h => exact busy h ht
  | finish h => exact busy h ht

end

/-! ## Runs with a history -/

section

variable {μ : Type} {record : Lab → Server → μ → μ} {pumping : μ → Bool} {h₀ : μ}
  {fullPath : String → String} {ok : Lab → Server × μ → Prop} {ls : List Lab}
  {c : Config Tid DapOp Job Exn Bool (Server × μ)}

/-- The state is calm, and by the history no detached wait is going on. -/
def Alone (pumping : μ → Bool) (p : Server × μ) : Prop := p.1.calm = true ∧ pumping p.2 = false

/-- Where a step may be: only the request thread takes one where it is alone, and the callback thread
only where some thread is inside a call. -/
structure StepPlaced (pumping : μ → Bool) (l : Lab) (p : Server × μ) : Prop where
  alone : Alone pumping p → l.thread = .request
  called : l.thread = .callback → p.1.inCall.isSome = true

/-- A run with a history may be taken for one whose steps are placed so. -/
theorem stepPlaced_run (hrecord : ∀ l s h, pumping (record l s h) = l.busy .pump (pumping h))
    (h₀' : pumping h₀ = false)
    (hr : ((adapter.system.instrument record).restrict ok).Run (.init ({ fullPath }, h₀)) ls c) :
    (((adapter.system.instrument record).restrict ok).restrict (StepPlaced pumping)).Run
      (.init ({ fullPath }, h₀)) ls c := by
  refine System.restrict_run (fun {_ c _ _} hr hs => ?_) hr
  have hrun := hr.of_restrict
  have hstep := (System.step_restrict.1 hs).1.of_instrument
  refine ⟨fun hcalm => ?_, fun ht => inCall_of_callback hrun.of_instrument ht hstep⟩
  have hpump : c.threads .pump = none := by
    have hbusy := System.busy_of_run hrecord h₀' hrun
    rw [hcalm.2] at hbusy
    exact Option.not_isSome_iff_eq_none.1 fun h => by rw [h] at hbusy; cases hbusy
  exact request_of_calm hrun.of_instrument hcalm.1 hpump hstep

end

/-! ## The operations of the request thread -/

/-- The operations that begin a wait loop, a detached wait or a call that runs callbacks. -/
def DapOp.stirs : ∀ {β : Type}, DapOp β → Bool
  | _, .spawnLoop _ | _, .spawnPump _ | _, .enter .. => true
  | _, _ => false

theorem sem_calm {t : Tid} {β : Type} {o : DapOp β} {b : β} {s s' : Server}
    (h : sem t β o s b s') (ho : o.stirs = false) (hc : s.calm = true) : s'.calm = true := by
  cases o with
  | leave id f =>
    obtain ⟨-, -, _, _, -, rfl⟩ := sem_leave h
    obtain ⟨hloop, hpump, -⟩ := Server.calm_iff.1 hc
    exact Server.calm_iff.2 ⟨hloop, hpump, rfl⟩
  | acquire =>
    obtain ⟨_, -, -, rfl⟩ := sem_acquire.1 h
    exact hc
  | lockGate =>
    obtain ⟨-, rfl⟩ := sem_lockGate.1 h
    exact hc
  | joinLoop =>
    obtain ⟨-, rfl⟩ := sem_joinLoop.1 h
    exact hc
  | call id f =>
    obtain ⟨_, _, -, -, rfl⟩ := sem_call h
    exact hc
  | send m =>
    rw [sem_send.1 h]
    split <;> exact hc
  | spawnLoop | spawnPump | enter => cases ho
  | _ =>
    obtain ⟨_, h⟩ := h
    cases h
    exact hc

def DapOp.enters : ∀ {β : Type}, DapOp β → Bool
  | _, .enter .. => true
  | _, _ => false

/-- Outside a call, only entering one changes that. -/
theorem sem_outside {t : Tid} {β : Type} {o : DapOp β} {b : β} {s s' : Server}
    (h : sem t β o s b s') (ho : o.enters = false) (hs : s.inCall = none) : s'.inCall = none := by
  cases o with
  | leave id f =>
    obtain ⟨-, -, _, _, -, rfl⟩ := sem_leave h
    rfl
  | acquire =>
    obtain ⟨_, -, -, rfl⟩ := sem_acquire.1 h
    exact hs
  | lockGate =>
    obtain ⟨-, rfl⟩ := sem_lockGate.1 h
    exact hs
  | joinLoop =>
    obtain ⟨-, rfl⟩ := sem_joinLoop.1 h
    exact hs
  | call id f =>
    obtain ⟨_, _, -, -, rfl⟩ := sem_call h
    exact hs
  | send m =>
    rw [sem_send.1 h]
    split <;> exact hs
  | enter => cases ho
  | _ =>
    obtain ⟨_, h⟩ := h
    cases h
    exact hs

/-- The programs without operations that stir. -/
abbrev Unstirring {α : Type} (p : Dap α) : Prop := AllOps (fun o => o.stirs = false) p

theorem invoke_unstirring {t : Tid} {α : Type} {p : Dap α} (h : Unstirring p) :
    Unstirring (invoke t p) := invoke_allOps rfl rfl rfl h

namespace Session

variable (id : SessionId)

theorem checkHr_unstirring {α : Type} (r : Reply α) (message : String) :
    Unstirring (checkHr r message) := by
  cases r <;> trivial

theorem throwIfDisposed_unstirring : Unstirring (throwIfDisposed id) :=
  .bind (.perform rfl) fun _ => .ite trivial trivial

theorem setCurrentThread_unstirring (systemThreadId : Nat) :
    Unstirring (setCurrentThread id systemThreadId) := by
  have readThreadIds : Unstirring (readThreadIds id) :=
    .bind (.perform rfl) fun _ => .bind (checkHr_unstirring _ _) fun _ => .ite trivial
      (.bind (.perform rfl) fun _ => checkHr_unstirring _ _)
  have user : Unstirring (setCurrentThreadUser id systemThreadId) :=
    .bind (.perform rfl) fun _ => .bind (checkHr_unstirring _ _) fun _ =>
      .bind (.perform rfl) fun _ => checkHr_unstirring _ _
  have kernel : Unstirring (setCurrentThreadKernel id systemThreadId) := by
    refine .bind readThreadIds fun systemIds => ?_
    cases systemIds.findIdx? (· = systemThreadId) with
    | none => trivial
    | some index => exact .bind (.perform rfl) fun _ => checkHr_unstirring _ _
  exact .bind (throwIfDisposed_unstirring id) fun _ => .bind (.perform rfl) fun _ =>
    .ite kernel user

end Session

theorem Server.requireDebuggerSession_unstirring : Unstirring requireDebuggerSession := by
  refine .bind (.perform rfl) fun session => ?_
  cases session <;> trivial

end DapDbgeng
