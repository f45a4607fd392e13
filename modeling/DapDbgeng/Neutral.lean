/-
  What does not bear on stops.

  A neutral operation touches no pending stopped event, no session pointer, no wait loop and none
  but minor flags, and sends no stopped event.  Main results:

  * `sem_stops`: how the stopped events sent grow;
  * `sem_neutral`: a neutral operation keeps the members above;
  * the parts of the callbacks that are neutral.
-/
import DapDbgeng.Callbacks
import DapDbgeng.Semantics

namespace DapDbgeng

open Concurrent Concurrent.Prog

/-- A stopped event. -/
def Message.isStopped : Message → Bool
  | .event (.stopped _) => true
  | _ => false

/-- Handing a stopped event to the writer. -/
def DapOp.isStop : ∀ {β : Type}, DapOp β → Bool
  | _, .send m => m.isStopped
  | _, _ => false

/-- The stopped events handed to the writer so far. -/
def Server.stops (s : Server) : ℕ := s.sent.countP Message.isStopped

theorem sem_stops {t : Tid} {β : Type} {o : DapOp β} {s s' : Server} {b : β}
    (h : sem t β o s b s') : s'.outboundOpen = s.outboundOpen ∧
      s'.stops = s.stops + (o.isStop && s.outboundOpen).toNat := by
  cases o with
  | send m =>
    rw [sem_send.1 h]
    split
    · rename_i ho
      refine ⟨rfl, ?_⟩
      cases hm : m.isStopped <;> simp [Server.stops, DapOp.isStop, hm, ho]
    · rename_i ho
      exact ⟨rfl, by simp [ho]⟩
  | call id c => obtain ⟨_, _, -, -, rfl⟩ := sem_call h; exact ⟨rfl, rfl⟩
  | leave id c => obtain ⟨-, -, _, _, -, rfl⟩ := sem_leave h; exact ⟨rfl, rfl⟩
  | enter id c => obtain ⟨_, -, -, -, rfl⟩ := sem_enter.1 h; exact ⟨rfl, rfl⟩
  | acquire => obtain ⟨_, -, -, rfl⟩ := sem_acquire.1 h; exact ⟨rfl, rfl⟩
  | lockGate => obtain ⟨-, rfl⟩ := sem_lockGate.1 h; exact ⟨rfl, rfl⟩
  | joinLoop => obtain ⟨-, rfl⟩ := sem_joinLoop.1 h; exact ⟨rfl, rfl⟩
  | _ => obtain ⟨_, h⟩ := h; cases h; exact ⟨rfl, rfl⟩

/-- The flags that keep track of the session's configuration, not of its target. -/
def Flag.minor : Flag → Bool
  | .launchAwaitingConfigurationDone | .launchStopAtEntry | .restoreSourceLineSteppingAfterStop
  | .shouldExit | .initializeRequestHandled | .hasCurrentRequestJson => true
  | _ => false

/-- Quiet operations, and those that touch tables, thread events or minor flags, or send messages
other than stopped events. -/
def DapOp.minor (C : ∀ {γ : Type}, Call γ → Prop) : ∀ {β : Type}, DapOp β → Prop
  | _, .store f _ => f.minor = true
  | _, .modify _ => True
  | _, .pushThreadEvent _ | _, .takeThreadEvents | _, .clearThreadEvents => True
  | _, .send m => m.isStopped = false
  | _, o => o.quiet C

abbrev DapOp.neutral {β : Type} (o : DapOp β) : Prop := o.minor fun _ => True

abbrev Neutral {α : Type} (p : Dap α) : Prop := AllOps DapOp.neutral p

/-- Neutral programs whose engine calls are routine. -/
abbrev Routine {α : Type} (p : Dap α) : Prop := AllOps (DapOp.minor Call.routine) p

theorem DapOp.minor_of_quiet {C : ∀ {γ : Type}, Call γ → Prop} {β : Type} {o : DapOp β}
    (h : o.quiet C) : o.minor C := by
  cases o with
  | send m => cases m with
    | response r => exact h.elim
    | event e => cases e <;> first | exact h.elim | rfl
  | store | modify | pushThreadEvent | takeThreadEvents | clearThreadEvents => exact h.elim
  | _ => exact h

theorem DapOp.minor.neutral {C : ∀ {γ : Type}, Call γ → Prop} {β : Type} {o : DapOp β}
    (h : o.minor C) : o.neutral := by
  cases o with
  | call | enter | leave => trivial
  | _ => exact h

theorem DapOp.minor.isStop {C : ∀ {γ : Type}, Call γ → Prop} {β : Type} {o : DapOp β}
    (h : o.minor C) : o.isStop = false := by
  cases o with
  | send m => exact h
  | _ => rfl

theorem Routine.neutral {α : Type} {p : Dap α} (h : Routine p) : Neutral p :=
  h.mono fun _ ho => ho.neutral

theorem Engaging.neutral {α : Type} {p : Dap α} (h : Engaging p) : Neutral p :=
  h.mono fun _ => DapOp.minor_of_quiet

theorem Quiet.routine {α : Type} {p : Dap α} (h : Quiet p) : Routine p :=
  h.mono fun _ => DapOp.minor_of_quiet

theorem Quiet.neutral {α : Type} {p : Dap α} (h : Quiet p) : Neutral p := h.engaging.neutral

/-- The same flags but for the minor ones, pending stopped event, session pointers and wait loop. -/
structure SameControl (s s' : Server) : Prop where
  flags : ∀ f, f.minor = false → s'.flags f = s.flags f
  pendingStoppedEvent : s'.pendingStoppedEvent = s.pendingStoppedEvent
  session : s'.session = s.session
  parked : s'.parked = s.parked
  gate : s'.gate = s.gate
  loop : s'.loop = s.loop
  loopJoinable : s'.loopJoinable = s.loopJoinable
  pump : s'.pump = s.pump
  callbackActive : s'.callbackActive = s.callbackActive
  mode : s'.mode = s.mode

theorem SameControl.refl (s : Server) : SameControl s s :=
  ⟨fun _ _ => rfl, rfl, rfl, rfl, rfl, rfl, rfl, rfl, rfl, rfl⟩

theorem sem_neutral {t : Tid} {β : Type} {o : DapOp β} (ho : o.neutral) {s s' : Server} {b : β}
    (h : sem t β o s b s') : SameControl s s' := by
  have same := SameControl.refl s
  have quiet (ho : o.quiet fun _ => True) : SameControl s s' := by
    have hs := sem_quiet ho h
    exact { hs with flags := fun _ _ => congrFun hs.flags _ }
  cases o with
  | store f value =>
    have hf : f.minor = true := ho
    rw [sem_store.1 h]
    refine { same with flags := fun g hg => ?_ }
    have hne : g ≠ f := by
      rintro rfl
      rw [hf] at hg
      cases hg
    rw [Server.setFlag_flags, if_neg hne]
  | modify f => obtain ⟨-, rfl⟩ := sem_modify.1 h; exact { same with }
  | pushThreadEvent e => rw [sem_pushThreadEvent.1 h]; exact { same with }
  | takeThreadEvents => obtain ⟨-, rfl⟩ := sem_takeThreadEvents.1 h; exact { same with }
  | clearThreadEvents => rw [sem_clearThreadEvents.1 h]; exact { same with }
  | send m => rw [sem_send.1 h]; split <;> exact { same with }
  | _ => exact quiet ho

namespace Server

theorem sendThreadEvent_neutral (e : ThreadEvent) : Neutral (sendThreadEvent e) := .perform rfl

theorem flushPendingThreadEvents_neutral : Neutral flushPendingThreadEvents :=
  .bind (.perform trivial) fun _ => .forEach sendThreadEvent_neutral _

theorem resetSuspendedState_neutral : Neutral resetSuspendedState :=
  .bind (.perform trivial) fun _ => .perform trivial

theorem tryGetCurrentThreadId_neutral (t : Tid) : Neutral (tryGetCurrentThreadId t) := by
  refine .bind (.perform trivial) fun session => ?_
  cases session with
  | none => trivial
  | some id =>
    exact .catching (.bind (Quiet.neutral (invoke_quiet (Session.getCurrentThreadId_quiet id)))
      fun _ => trivial) fun _ => trivial

theorem queueThreadEvent_neutral (reason : ThreadEventBodyReason) :
    Neutral (queueThreadEvent reason) := by
  refine .bind (tryGetCurrentThreadId_neutral _) fun threadId => ?_
  cases threadId with
  | none => trivial
  | some threadId =>
    have report (held : Bool) : Neutral (if held then
        Prog.perform (.pushThreadEvent { reason, threadId })
        else sendThreadEvent { reason, threadId }) :=
      .ite (.perform trivial) (sendThreadEvent_neutral _)
    exact .bind (.perform trivial) fun _ => .ite (report true) (.bind (.perform trivial) report)

theorem tryEvaluateConditionalBreakpoint_neutral (id : SessionId) (condition : String) :
    Neutral (tryEvaluateConditionalBreakpoint id condition) :=
  .catching (.bind (Quiet.neutral (Session.executeCommandWithOutput_quiet id rfl _))
    fun _ => trivial) fun _ => trivial

theorem getLastBreakpointId_neutral (id : SessionId) : Neutral (Session.getLastBreakpointId id) :=
  (Session.getLastBreakpointId_quiet id).neutral

theorem continue_neutral (id : SessionId) : Neutral (Session.continue_ id) :=
  (Session.resume_engaging id _ _).neutral

theorem handleOutputReceived_neutral (id : SessionId) (text : String) :
    Neutral (Session.handleOutputReceived id text) :=
  (Session.handleOutputReceived_quiet (C := fun _ => True) id text).mono fun _ =>
    DapOp.minor_of_quiet

end Server

end DapDbgeng
