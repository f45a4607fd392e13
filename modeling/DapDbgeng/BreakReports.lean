/-
  Which breaks the client hears of.

  The engine reports a halt as a sequence of callbacks that ends in a break.  Only the break sends
  a stopped event, and only if an earlier callback or a request has left its reason.

  * `HaltView`: the members a halt is about; `HaltView.afterBreak`: what `on_break_hit` does to
    them;
  * `Delivered id events s s'`: the engine delivers callbacks, one after the other, and answers;
  * `announced`: that the break will find a reason, by the state before the callbacks;
  * `break_reports_once_iff`: when a sequence that ends in a break sends one stopped event.
-/
import DapDbgeng.HitSequences
import DapDbgeng.Neutral

namespace DapDbgeng

open Concurrent Concurrent.Prog

/-! ## The view of a halt -/

structure HaltView where
  running : Bool
  skip : Bool
  suppressed : Bool
  pending : Option PendingStoppedEvent
  session : Option SessionId
  outbound : Bool
  /-- The stopped events handed to the writer. -/
  stops : ℕ

namespace HaltView

def of (s : Server) : HaltView where
  running := s.flags .isExecutionRunning
  skip := s.flags .skipNextBreakHitEvent
  suppressed := s.flags .suppressSessionEvents
  pending := s.pendingStoppedEvent
  session := s.session
  outbound := s.outboundOpen
  stops := s.stops

theorem of_same {s s' : Server} (same : SameControl s s') (hout : s'.outboundOpen = s.outboundOpen) :
    of s' = { of s with stops := s'.stops } := by
  simp only [of, same.flags .isExecutionRunning rfl, same.flags .skipNextBreakHitEvent rfl,
    same.flags .suppressSessionEvents rfl, same.pendingStoppedEvent, same.session, hout]

/-- What `on_break_hit` does. -/
def afterBreak (v : HaltView) : HaltView :=
  if v.skip then { v with skip := false }
  else { v with
    running := false
    pending := none
    stops := v.stops + (!v.suppressed && v.pending.isSome && v.outbound).toNat }

end HaltView

def haltPre : ∀ {β : Type}, DapOp β → (β → HaltView → Prop) → HaltView → Prop
  | _, .load .isExecutionRunning => fun K v => K v.running v
  | _, .load .skipNextBreakHitEvent => fun K v => K v.skip v
  | _, .load .suppressSessionEvents => fun K v => K v.suppressed v
  | _, .store .isExecutionRunning b => fun K v => K () { v with running := b }
  | _, .store .skipNextBreakHitEvent b => fun K v => K () { v with skip := b }
  | _, .store .suppressSessionEvents b => fun K v => K () { v with suppressed := b }
  | _, .setPending p => fun K v => K () { v with pending := some p }
  | _, .clearPending => fun K v => K () { v with pending := none }
  | _, .takePending => fun K v => K v.pending { v with pending := none }
  | _, .hasPending => fun K v => K v.pending.isSome v
  | _, .session => fun K v => K v.session v
  | _, .setSession id => fun K v => K () { v with session := id }
  | _, .takeSession => fun K v => K v.session { v with session := none }
  | _, .send m => fun K v => K () { v with stops := v.stops + (m.isStopped && v.outbound).toNat }
  | _, _ => fun K v => ∀ b, K b v

def haltSpec : Spec DapOp HaltView where
  pre := haltPre
  mono o K K' hK v h := by
    cases o with
    | load f => cases f <;> first | exact hK _ _ h | exact fun b => hK _ _ (h b)
    | store f b => cases f <;> first | exact hK _ _ h | exact fun b => hK _ _ (h b)
    | setPending | clearPending | takePending | hasPending | session | setSession | takeSession
    | send => exact hK _ _ h
    | _ => exact fun b => hK _ _ (h b)

theorem haltPre_step {t : Tid} {β : Type} (o : DapOp β) {K : β → HaltView → Prop} {v : HaltView}
    {s s' : Server} {b : β} (hv : v = .of s) (hw : haltSpec.pre o K v) (h : sem t β o s b s') :
    ∃ v', v' = HaltView.of s' ∧ K b v' := by
  subst hv
  refine ⟨_, rfl, ?_⟩
  have neutral (ho : o.neutral) (hk : ∀ b, K b (.of s)) : K b (.of s') := by
    have same : SameControl s s' := sem_neutral ho h
    obtain ⟨hout, hstops⟩ := sem_stops h
    rw [HaltView.of_same same hout, hstops, ho.isStop]
    exact hk b
  cases o with
  | load f => obtain ⟨rfl, rfl⟩ := sem_load.1 h; cases f <;> first | exact hw _ | exact hw
  | store f value => rw [sem_store.1 h]; cases f <;> first | exact hw _ | exact hw
  | setPending p => rw [sem_setPending.1 h]; exact hw
  | clearPending => rw [sem_clearPending.1 h]; exact hw
  | takePending => obtain ⟨rfl, rfl⟩ := sem_takePending.1 h; exact hw
  | hasPending => obtain ⟨rfl, rfl⟩ := sem_hasPending.1 h; exact hw
  | session => obtain ⟨rfl, rfl⟩ := sem_session.1 h; exact hw
  | setSession => rw [sem_setSession.1 h]; exact hw
  | takeSession => obtain ⟨rfl, rfl⟩ := sem_takeSession.1 h; exact hw
  | send m =>
    obtain ⟨hout, hstops⟩ := sem_stops h
    have same : SameControl { s with sent := s'.sent } s' := by
      rw [sem_send.1 h]
      split <;> exact .refl _
    rw [HaltView.of_same same hout, hstops]
    exact hw
  | unlockGate | park | unpark | takeLoop | spawnLoop | spawnPump | newSession =>
    obtain ⟨_, h⟩ := h
    cases h
    exact hw _
  | lockGate => obtain ⟨-, rfl⟩ := sem_lockGate.1 h; exact hw _
  | joinLoop => obtain ⟨-, rfl⟩ := sem_joinLoop.1 h; exact hw _
  | _ => exact neutral trivial hw

/-- A neutral program keeps the view. -/
theorem Neutral.wp_halt {α : Type} {p : Dap α} (h : Neutral p) (v : HaltView) :
    p.wp haltSpec (fun _ v' => v' = v) (fun _ v' => v' = v) v := by
  refine wp_of_allOps (I := fun v' => v' = v) (fun o ho v' hv => ?_) h rfl
  subst hv
  cases o with
  | load f => cases f <;> first | exact rfl | exact fun _ => rfl
  | hasPending | session => exact rfl
  | send m =>
    have hm : m.isStopped = false := ho
    change _ = v'
    simp [hm]
  | store f b =>
    have hf : f.minor = true := ho
    cases f <;> first | exact fun _ => rfl | cases hf
  | setPending | clearPending | takePending | setSession | takeSession => exact ho.elim
  | _ => exact fun _ => rfl

theorem Neutral.wp_halt_bind {α β : Type} {p : Dap α} (h : Neutral p) {f : α → Dap β}
    {Q : β → HaltView → Prop} {v : HaltView}
    (hf : ∀ a, (f a).wp haltSpec Q (fun _ _ => True) v) :
    (p.bind f).wp haltSpec Q (fun _ _ => True) v := by
  rw [wp_bind]
  refine wp_mono (fun a v' hv => ?_) (fun _ _ _ => trivial) (h.wp_halt v)
  rw [hv]
  exact hf a

namespace Server

/-! ## on_break_hit -/

/-- A break sends the reason that was left for it, unless it is to be skipped. -/
theorem onBreakHit_wp (v : HaltView) :
    onBreakHit.wp haltSpec (fun _ v' => v' = v.afterBreak) (fun _ _ => True) v := by
  obtain ⟨running, skip, suppressed, pending, session, stops⟩ := v
  cases skip with
  | true => exact rfl
  | false =>
    intro _
    cases suppressed with
    | true => exact rfl
    | false =>
      cases pending with
      | none => exact rfl
      | some p =>
        exact flushPendingThreadEvents_neutral.wp_halt_bind fun _ =>
          (tryGetCurrentThreadId_neutral _).wp_halt_bind fun _ => rfl

/-! ## The other callbacks -/

end Server

/-- The operations that send no stopped event and suppress no events. -/
def DapOp.calm : ∀ {β : Type}, DapOp β → Prop
  | _, .store .suppressSessionEvents true => False
  | _, o => o.isStop = false

theorem DapOp.neutral_calm {β : Type} {o : DapOp β} (h : o.neutral) : o.calm := by
  cases o with
  | store f b =>
    have hf : f.minor = true := h
    cases f <;> first | exact rfl | cases hf
  | send m => exact h
  | _ => rfl

abbrev Calm {α : Type} (p : Dap α) : Prop := AllOps DapOp.calm p

theorem Neutral.calm {α : Type} {p : Dap α} (h : Neutral p) : Calm p :=
  h.mono fun _ => DapOp.neutral_calm

/-- A calm program sends no stopped event. -/
theorem Calm.wp_halt {α : Type} {p : Dap α} (h : Calm p) {v : HaltView}
    (hv : v.suppressed = false) :
    p.wp haltSpec (fun _ v' => v'.suppressed = false ∧ v'.stops = v.stops ∧
        v'.outbound = v.outbound)
      (fun _ v' => v'.suppressed = false ∧ v'.stops = v.stops ∧ v'.outbound = v.outbound) v := by
  refine wp_of_allOps (I := fun v' : HaltView => v'.suppressed = false ∧ v'.stops = v.stops ∧
    v'.outbound = v.outbound) (fun o ho v' hv' => ?_) h ⟨hv, rfl, rfl⟩
  cases o with
  | load f => cases f <;> first | exact hv' | exact fun _ => hv'
  | store f b =>
    cases f with
    | suppressSessionEvents => cases b with
      | true => exact ho.elim
      | false => exact ⟨rfl, hv'.2⟩
    | isExecutionRunning | skipNextBreakHitEvent => exact hv'
    | _ => exact fun _ => hv'
  | send m =>
    have hm : m.isStopped = false := ho
    exact ⟨hv'.1, by simp [hm, hv'.2.1], hv'.2.2⟩
  | setPending | clearPending | takePending | hasPending | session | setSession | takeSession =>
    exact hv'
  | _ => exact fun _ => hv'

namespace Server

variable {id : SessionId}

theorem autoContinue_calm : Calm (autoContinue id) :=
  .bind resetSuspendedState_neutral.calm fun _ => .bind (.perform rfl) fun _ =>
    .bind (.perform rfl) fun _ => .bind (.perform rfl) fun _ => .bind (.perform rfl) fun _ =>
      (continue_neutral id).calm

theorem recordStop_calm {record : Dap Unit} (h : Calm record) : Calm (recordStop record) := by
  refine .bind (.bind (.perform rfl) fun _ => trivial) fun _ => .ite trivial <|
    .bind (.perform rfl) fun _ => .bind (.perform rfl) fun _ => .bind (.perform rfl) fun _ =>
      .ite (.perform rfl) h

theorem onBreakpointHit_calm (breakpointId : Nat) : Calm (onBreakpointHit id breakpointId) := by
  have auto : Calm (tryAutoContinueConditionalBreakpointHit id breakpointId) := by
    refine .bind (.perform rfl) fun d => ?_
    cases d.conditionalBreakpointConditionsById.get? (Factory.toInt32 breakpointId) with
    | none => trivial
    | some condition =>
      exact .bind (tryEvaluateConditionalBreakpoint_neutral id condition).calm fun _ =>
        .ite trivial (.bind autoContinue_calm fun _ => trivial)
  exact .bind auto fun _ => .ite trivial (recordStop_calm (.perform rfl))

theorem onExceptionHit_calm (exceptionCode : Nat) : Calm (onExceptionHit id exceptionCode) := by
  have auto : Calm (tryAutoContinueKernelInitialBreak id) :=
    .bind (.perform rfl) fun _ => .ite trivial <| .bind (.perform rfl) fun _ => .ite trivial <|
      .bind (.perform rfl) fun _ => .bind autoContinue_calm fun _ => trivial
  exact .bind auto fun _ => .ite trivial <| recordStop_calm <| .bind (.perform rfl) fun _ =>
    .ite trivial (.perform rfl)

theorem disposeDebuggerSession_calm : Calm (disposeDebuggerSession .callback) := by
  have reset : Calm resetAfterDispose :=
    .bind (.perform rfl) fun _ => .bind (.perform rfl) fun _ => .bind (.perform rfl) fun _ =>
      .bind (.bind (.perform rfl) fun _ => .bind (.perform rfl) fun _ => .perform rfl) fun _ =>
        .bind (.perform rfl) fun _ => .bind (.perform rfl) fun _ =>
          .bind (.bind (.perform rfl) fun _ => .perform rfl) fun _ =>
            .bind resetSuspendedState_neutral.calm fun _ => .bind (.perform rfl) fun _ =>
              .bind (.perform rfl) fun _ => .bind (.perform rfl) fun _ => .perform rfl
  have release (id : SessionId) : Calm (releaseSession .callback id) := by
    refine .bind (.perform rfl) fun old => ?_
    cases old with
    | none => trivial
    | some old => exact (Engaging.neutral (Session.destroy_engaging old _)).calm
  refine .bind (.perform rfl) fun session => ?_
  cases session with
  | none => exact reset
  | some id => exact .bind (release id) fun _ => reset

theorem queueSessionTermination_calm (exitCode : Int) : Calm (queueSessionTermination exitCode) :=
  .bind (.perform rfl) fun _ => .bind (.perform rfl) fun _ =>
    .bind flushPendingThreadEvents_neutral.calm fun _ => .bind (.perform rfl) fun _ =>
      .bind (.perform rfl) fun _ => .bind disposeDebuggerSession_calm fun _ => .perform rfl

theorem queueSessionEnded_calm : Calm queueSessionEnded := by
  refine .bind (.perform rfl) fun _ => .bind (.perform rfl) fun _ => .bind (.perform rfl)
    fun session => ?_
  cases session with
  | none => trivial
  | some id =>
    exact .bind flushPendingThreadEvents_neutral.calm fun _ => .bind (.perform rfl) fun _ =>
      .bind disposeDebuggerSession_calm fun _ => .perform rfl

/-- Only a break sends a stopped event. -/
theorem onCallback_calm {event : Callback} (h : event ≠ .break_) : Calm (onCallback id event) := by
  cases event with
  | breakpoint => exact .bind (getLastBreakpointId_neutral id).calm onBreakpointHit_calm
  | exception code address firstChance =>
    exact .bind (.perform rfl) fun _ => .ite trivial <| .bind (.perform rfl) fun _ =>
      onExceptionHit_calm code
  | systemError error => exact onExceptionHit_calm error
  | break_ => exact absurd rfl h
  | noDebuggee | sessionEnd => exact queueSessionEnded_calm
  | exitProcess exitCode => exact queueSessionTermination_calm _
  | createThread | exitThread => exact (queueThreadEvent_neutral _).calm
  | output text => exact .ite trivial (handleOutputReceived_neutral id text).calm

end Server

/-! ## Sequences of callbacks -/

/-- From `s`, the engine of session `id` delivers the callbacks one after the other, answers what it
is asked meanwhile, and leaves `s'`. -/
inductive Delivered (id : SessionId) : List (Callback × HitAnswers) → Server → Server → Prop where
  | nil (s : Server) : Delivered id [] s s
  | cons {event : Callback} {told : HitAnswers} {threads : List (Nat × Nat)} {current : Nat}
      {events : List (Callback × HitAnswers)} {s s₁ s₂ s₃ s' : Server} {b : Bool}
      (hstart : adapter.system.start .callback (.callback id event threads current) s s₁)
      (hrun : Returns ((sem .callback).recording HitAnswers.record)
        (Job.body (.callback id event threads current)) (s₁, {}) b (s₂, told))
      (hend : adapter.system.finish .callback (.callback id event threads current) (.ok b) s₂ s₃)
      (hrest : Delivered id events s₃ s') : Delivered id ((event, told) :: events) s s'

/-- The last hit before a break decides: it is continued; or it surfaces, no break is to be skipped
for an earlier one, and the client listens.  Without a hit, a break is to be skipped or has its reason
already. -/
def HaltFlags.announce (h : HaltFlags) (hits : List Bool) (opened : Bool) : Bool :=
  match hits.getLast? with
  | none => h.skip || h.pending && opened
  | some true => true
  | some false => !h.skip && !hits.contains true && opened

/-- That the break after the callbacks is told of, or halts nothing. -/
def announced (s : Server) (id : SessionId) (events : List (Callback × HitAnswers)) : Bool :=
  s.session.isNone || events.any (fun e => e.1.endsSession) ||
    (HitView.of s {}).flags.announce (continuations s.tables.conditions
      (s.sessions id).cppFirstChanceBreak (s.flags .kernelInitialResumePending) events)
      s.outboundOpen

namespace HitView

variable {v : HitView} {filter : Bool} {event : Callback} {told : HitAnswers}

theorem after_kept : (v.after filter event told).kept = v.kept := by
  cases event <;> first | rfl | (rw [after]; split <;> rfl)

theorem after_session : (v.after filter event told).session = v.session := by
  cases event <;> first | rfl | (rw [after]; split <;> rfl)

/-- The hit of a callback comes before those of the callbacks after it. -/
theorem hits_cons (hends : event.endsSession = false) (hbreak : event ≠ .break_)
    (events : List (Callback × HitAnswers)) :
    (continuations v.kept filter v.initial ((event, told) :: events)).foldl HaltFlags.hit v.flags =
      (continuations v.kept filter (v.after filter event told).initial events).foldl HaltFlags.hit
        (v.after filter event told).flags := by
  cases event with
  | exception code address firstChance =>
    rw [continuations, after]
    split <;> rfl
  | break_ => exact absurd rfl hbreak
  | breakpoint | systemError | createThread | exitThread | output => rfl
  | _ => cases hends

end HitView

namespace Delivered

variable {id : SessionId} {events : List (Callback × HitAnswers)} {event : Callback}
  {told : HitAnswers} {s s₁ s' : Server}

theorem view_of_start {job : Job} (h : adapter.system.start .callback job s s₁) :
    HaltView.of s₁ = .of s := by
  cases job with
  | callback id event threads current =>
    have h : Server.startJob .callback (.callback id event threads current) s = some s₁ := h
    obtain ⟨-, rfl⟩ := Server.startJob_callback h
    rfl
  | _ => cases h

/-- One callback, from the view before it. -/
theorem one {Q : HaltView → Prop} (h : Delivered id [(event, told)] s s')
    (hw : (Server.onCallback id event).wp haltSpec (fun _ => Q) (fun _ _ => True) (.of s)) :
    Q (.of s') := by
  cases h with
  | @cons _ _ threads current _ _ s₁ s₂ s₃ _ b hstart hrun hend hrest =>
    cases hrest
    cases hend
    obtain ⟨es, hsteps⟩ := hrun
    have hw' : (Job.body (.callback id event threads current)).wp haltSpec (fun _ => Q)
        (fun _ _ => True) (.of s) := by
      simp only [Job.body, bind_eq, wp_bind]
      exact hw
    obtain ⟨_, rfl, hq⟩ := wp_view haltPre_step hsteps.of_recording.1
      (view_of_start hstart).symm hw'
    exact hq

/-- One callback, and what the engine has answered. -/
theorem one_hit {Q : Session × HitView → Prop} (h : Delivered id [(event, told)] s s')
    (hs : s.flags .suppressSessionEvents = false)
    (hw : ∀ x : Session, x.cppFirstChanceBreak = (s.sessions id).cppFirstChanceBreak →
      (Server.onCallback id event).wp (hitSpec id) (fun _ => Q) (fun _ _ => True)
        (x, HitView.of s {})) :
    Q (s'.sessions id, HitView.of s' told) ∧ s'.flags .suppressSessionEvents = false := by
  cases h with
  | @cons _ _ threads current _ _ s₁ s₂ s₃ _ b hstart hrun hend hrest =>
    cases hrest
    cases hend
    obtain ⟨es, hsteps⟩ := hrun
    have hstart : Server.startJob .callback (.callback id event threads current) s = some s₁ := hstart
    obtain ⟨-, rfl⟩ := Server.startJob_callback hstart
    have hw' : (Job.body (.callback id event threads current)).wp (hitSpec id) (fun _ => Q)
        (fun _ _ => True) ((s.updateEngine id fun e =>
          { event.effect e with threads, current }).sessions id, HitView.of s {}) := by
      simp only [Job.body, bind_eq, wp_bind]
      refine hw _ ?_
      rw [Server.updateEngine_sessions, if_pos rfl]
    obtain ⟨⟨x, w⟩, ⟨hx, hview, hsup⟩, hq⟩ := wp_view hitPre_step hsteps
      (v := ((s.updateEngine id fun e => { event.effect e with threads, current }).sessions id,
        HitView.of s {})) ⟨rfl, rfl, hs⟩ hw'
    obtain rfl : x = s₂.sessions id := hx
    obtain rfl : w = HitView.of s₂ told := hview
    exact ⟨hq, hsup⟩

/-- **Callbacks before a break** send no stopped event. -/
theorem calm (h : Delivered id events s s') (hbreak : ∀ e ∈ events, e.1 ≠ .break_)
    (hs : s.flags .suppressSessionEvents = false) :
    s'.flags .suppressSessionEvents = false ∧ s'.stops = s.stops ∧
      s'.outboundOpen = s.outboundOpen := by
  induction h with
  | nil => exact ⟨hs, rfl, rfl⟩
  | @cons event told threads current events s s₁ s₂ s₃ s' b hstart hrun hend _ ih =>
    have hfirst : Delivered id [(event, told)] s s₃ := .cons hstart hrun hend (.nil s₃)
    have hkept := hfirst.one (Q := fun v => v.suppressed = false ∧ v.stops = (HaltView.of s).stops ∧
        v.outbound = (HaltView.of s).outbound)
      (wp_mono (fun _ _ hv => hv) (fun _ _ _ => trivial)
        ((Server.onCallback_calm (hbreak _ List.mem_cons_self)).wp_halt hs))
    obtain ⟨hsup, hstops, hopen⟩ := ih (fun e he => hbreak e (List.mem_cons_of_mem _ he)) hkept.1
    exact ⟨hsup, hstops.trans hkept.2.1, hopen.trans hkept.2.2⟩

/-- A break. -/
theorem afterBreak (h : Delivered id [(.break_, told)] s s') :
    HaltView.of s' = (HaltView.of s).afterBreak :=
  h.one (Q := fun v => v = (HaltView.of s).afterBreak) (Server.onBreakHit_wp _)

/-- What the callbacks make of the state, by their hits. -/
theorem hits (h : Delivered id events s s') (hends : ∀ e ∈ events, e.1.endsSession = false)
    (hbreak : ∀ e ∈ events, e.1 ≠ .break_) (hs : s.flags .suppressSessionEvents = false) :
    (HitView.of s' {}).flags = (continuations s.tables.conditions
      (s.sessions id).cppFirstChanceBreak (s.flags .kernelInitialResumePending) events).foldl
        HaltFlags.hit (HitView.of s {}).flags ∧ s'.session = s.session := by
  induction h with
  | nil => exact ⟨rfl, rfl⟩
  | @cons event told threads current events s s₁ s₂ s₃ s' b hstart hrun hend _ ih =>
    have hfirst : Delivered id [(event, told)] s s₃ := .cons hstart hrun hend (.nil s₃)
    have hends' := hends _ List.mem_cons_self
    have hbreak' := hbreak _ List.mem_cons_self
    obtain ⟨⟨hview, hfilter⟩, hsup⟩ := hfirst.one_hit
      (Q := fun w => w.2 = (HitView.of s {}).after (s.sessions id).cppFirstChanceBreak event w.2.told ∧
        w.1.cppFirstChanceBreak = (s.sessions id).cppFirstChanceBreak) hs fun x hx => by
        rw [← hx]
        exact Server.onCallback_hit (v := (x, HitView.of s {})) hends' hbreak' rfl
    have hview : HitView.of s₃ told =
        (HitView.of s {}).after (s.sessions id).cppFirstChanceBreak event told := hview
    have hfilter : (s₃.sessions id).cppFirstChanceBreak = (s.sessions id).cppFirstChanceBreak :=
      hfilter
    have hkept : s₃.tables.conditions = s.tables.conditions :=
      (congrArg HitView.kept hview).trans HitView.after_kept
    have hinitial : s₃.flags .kernelInitialResumePending = ((HitView.of s {}).after
        (s.sessions id).cppFirstChanceBreak event told).initial := congrArg HitView.initial hview
    have hflags₃ : (HitView.of s₃ {}).flags = ((HitView.of s {}).after
        (s.sessions id).cppFirstChanceBreak event told).flags :=
      (congrArg HitView.flags hview : (HitView.of s₃ told).flags = _)
    have hsession₃ : s₃.session = s.session :=
      (congrArg HitView.session hview).trans HitView.after_session
    obtain ⟨hflags, hsession⟩ := ih (fun e he => hends e (List.mem_cons_of_mem _ he))
      (fun e he => hbreak e (List.mem_cons_of_mem _ he)) hsup
    refine ⟨?_, hsession.trans hsession₃⟩
    rw [hflags, hkept, hfilter, hinitial, hflags₃]
    exact (HitView.hits_cons (v := HitView.of s {}) hends' hbreak' events).symm

/-- After a callback that ends it there is no session. -/
theorem ended (h : Delivered id events s s') (hbreak : ∀ e ∈ events, e.1 ≠ .break_)
    (hs : s.flags .suppressSessionEvents = false)
    (hends : s.session = none ∨ ∃ e ∈ events, e.1.endsSession = true) : s'.session = none := by
  induction h with
  | nil =>
    obtain hnone | ⟨e, he, -⟩ := hends
    · exact hnone
    · cases he
  | @cons event told threads current events s s₁ s₂ s₃ s' b hstart hrun hend _ ih =>
    have hfirst : Delivered id [(event, told)] s s₃ := .cons hstart hrun hend (.nil s₃)
    have hrest : ∀ e ∈ events, e.1 ≠ .break_ := fun e he => hbreak e (List.mem_cons_of_mem _ he)
    -- the session is gone after the callback, or ends later
    by_cases hgone : s.session = none ∨ event.endsSession = true
    · obtain ⟨hnone, hsup⟩ := hfirst.one_hit (Q := fun w => w.2.session = none) hs fun x _ => by
        obtain hnone | hend := hgone
        · exact wp_mono (fun _ _ hw => hw) (fun _ _ _ => trivial)
            (Server.gone_hit (Server.onCallback_forCallback event) hnone)
        · exact Server.onCallback_endsSession hend _
      exact ih hrest hsup (.inl hnone)
    · obtain ⟨e, he, hlater⟩ := hends.resolve_left fun hnone => hgone (.inl hnone)
      obtain ⟨hsup, -, -⟩ := hfirst.calm (List.forall_mem_singleton.2 (hbreak _ List.mem_cons_self)) hs
      refine ih hrest hsup (.inr ?_)
      obtain rfl | he := List.mem_cons.1 he
      · exact absurd (.inr hlater) hgone
      · exact ⟨e, he, hlater⟩

end Delivered

/-- What the break finds, by the hits before it. -/
theorem HaltFlags.announce_iff {h : HaltFlags} (hr : h.running = true) (hits : List Bool)
    (opened : Bool) : h.announce hits opened = true ↔
      if (hits.foldl hit h).skip = true then (hits.foldl hit h).running = true
      else (hits.foldl hit h).pending = true ∧ opened = true := by
  have hskip := skip_hits h hits
  have hrunning := running_hits h hits
  have hpending := pending_hits (h := h) (fun hno => by rw [hr] at hno; cases hno) hits
  rw [hr] at hrunning
  rw [announce]
  rcases hlast : hits.getLast? with _ | _ | _
  · rw [List.getLast?_eq_none_iff.1 hlast, List.foldl_nil, hr]
    cases h.skip <;> simp
  · -- the last hit surfaces
    rw [hlast] at hrunning
    have hhalted : (hits.foldl hit h).running = false := hrunning
    rw [hhalted]
    cases hskips : (hits.foldl hit h).skip with
    | true =>
      rw [hskip] at hskips
      simp only [Bool.or_eq_true] at hskips
      refine iff_of_false (fun hno => ?_) Bool.false_ne_true
      simp only [Bool.and_eq_true, Bool.not_eq_true'] at hno
      obtain hyes | hmem := hskips
      · exact Bool.false_ne_true (hno.1.1.symm.trans hyes)
      · exact Bool.false_ne_true (hno.1.2.symm.trans hmem)
    | false =>
      rw [hpending hhalted hskips]
      rw [hskip] at hskips
      simp only [Bool.or_eq_false_iff] at hskips
      rw [hskips.1, hskips.2]
      simp
  · -- the last hit is continued
    rw [hlast] at hrunning
    have hmem : hits.contains true = true := List.contains_iff_mem.2 (List.mem_of_getLast? hlast)
    rw [hskip, hmem, Bool.or_true, if_pos rfl]
    exact iff_of_true rfl hrunning

/-- **Breaks.**  A sequence of callbacks that finds the target running outside a suppressed scope and
ends in a break sends one stopped event whenever it leaves the target halted and the session alive,
if and only if the break is announced. -/
theorem break_reports_once_iff {id : SessionId} {events : List (Callback × HitAnswers)}
    {told : HitAnswers} {s₀ s₁ s₂ : Server} (hr : s₀.flags .isExecutionRunning = true)
    (hs : s₀.flags .suppressSessionEvents = false) (hbreak : ∀ e ∈ events, e.1 ≠ .break_)
    (h₁ : Delivered id events s₀ s₁) (h₂ : Delivered id [(.break_, told)] s₁ s₂) :
    (s₂.flags .isExecutionRunning = false → s₂.session ≠ none → s₂.stops = s₀.stops + 1) ↔
      announced s₀ id events = true := by
  obtain ⟨hsup, hstops, hopen⟩ := h₁.calm hbreak hs
  have hview := h₂.afterBreak
  have hrunning₂ := congrArg HaltView.running hview
  have hsession₂ := congrArg HaltView.session hview
  have hsent := congrArg HaltView.stops hview
  simp only [HaltView.of, HaltView.afterBreak, hsup] at hrunning₂ hsession₂ hsent
  by_cases hgone : s₀.session = none ∨ ∃ e ∈ events, e.1.endsSession = true
  · have hnone : s₂.session = none := by
      rw [hsession₂]
      split <;> exact h₁.ended hbreak hs hgone
    refine iff_of_true (fun _ hsession => absurd hnone hsession) (Bool.or_eq_true_iff.2 (.inl ?_))
    rw [Bool.or_eq_true, Option.isNone_iff_eq_none, List.any_eq_true]
    exact hgone
  have hends : ∀ e ∈ events, e.1.endsSession = false := fun e he =>
    Bool.eq_false_iff.2 fun hend => hgone (.inr ⟨e, he, hend⟩)
  obtain ⟨hflags, hsession₁⟩ := h₁.hits hends hbreak hs
  have hsession : s₂.session ≠ none := by
    have hsame : s₂.session = s₁.session := by
      rw [hsession₂]
      split <;> rfl
    rw [hsame, hsession₁]
    exact fun hnone => hgone (.inl hnone)
  have hleft : (s₀.session.isNone || events.any fun e => e.1.endsSession) = false := by
    rw [← Bool.not_eq_true, Bool.or_eq_true, Option.isNone_iff_eq_none, List.any_eq_true]
    exact hgone
  rw [announced, hleft, Bool.false_or, HaltFlags.announce_iff hr]
  rw [← hflags, ← hopen]
  change _ ↔ if s₁.flags .skipNextBreakHitEvent = true then s₁.flags .isExecutionRunning = true
    else s₁.pendingStoppedEvent.isSome = true ∧ s₁.outboundOpen = true
  cases hskip : s₁.flags .skipNextBreakHitEvent with
  | true =>
    simp only [hskip, if_true] at hrunning₂ hsent ⊢
    rw [hrunning₂, hsent, hstops]
    cases s₁.flags .isExecutionRunning <;> simp [hsession]
  | false =>
    simp only [hskip, Bool.false_eq_true, if_false] at hrunning₂ hsent ⊢
    rw [hrunning₂, hsent, hstops]
    cases s₁.pendingStoppedEvent.isSome <;> cases s₁.outboundOpen <;> simp [hsession]

/-! ## Executions -/

/-- One operation of a callback, and what is recorded of it. -/
def recordedApply (a : Answers) {β : Type} (o : DapOp β) (p : Server × HitAnswers) :
    Option (β × (Server × HitAnswers)) :=
  (apply .callback a o p.1).map fun r => (r.1, r.2, HitAnswers.record ⟨o, r.1⟩ p.2)

/-- Deliver callbacks of session 0, whose one thread has system id 100. -/
def deliverAll (a : Answers) : List Callback → Server →
    Option (List (Callback × HitAnswers) × Server)
  | [], s => some ([], s)
  | event :: events, s => do
    let job := Job.callback 0 event [(0, 100)] 0
    let s₁ ← Server.startJob .callback job s
    match job.body.eval (recordedApply a) 4000 (s₁, {}) with
    | some (.ok b, s₂, told) =>
      let s₃ ← Server.finishJob job (.ok b) s₂
      let (rest, s') ← deliverAll a events s₃
      return ((event, told) :: rest, s')
    | _ => none

theorem delivered_of_deliverAll {a : Answers} {events : List Callback}
    {told : List (Callback × HitAnswers)} {s s' : Server}
    (h : deliverAll a events s = some (told, s')) :
    Delivered 0 told s s' ∧ told.map Prod.fst = events := by
  induction events generalizing s told with
  | nil => cases h; exact ⟨.nil _, rfl⟩
  | cons event events ih =>
    simp only [deliverAll, Option.bind_eq_bind] at h
    obtain ⟨s₁, hstart, h⟩ := Option.bind_eq_some_iff.1 h
    split at h
    · rename_i b s₂ told₂ he
      obtain ⟨s₃, hend, h⟩ := Option.bind_eq_some_iff.1 h
      obtain ⟨⟨rest, s₄⟩, hrest, h⟩ := Option.bind_eq_some_iff.1 h
      cases h
      obtain ⟨hdelivered, hevents⟩ := ih hrest
      refine ⟨.cons hstart (.of_eval (fun o p b p' ho => ?_) he) hend hdelivered,
        congrArg (event :: ·) hevents⟩
      obtain ⟨⟨b', s'⟩, ha, hp⟩ := Option.map_eq_some_iff.1 ho
      cases hp
      exact ⟨⟨a, ha⟩, rfl⟩
    · cases h

theorem delivered_one {a : Answers} {event : Callback} {told : List (Callback × HitAnswers)}
    {s s' : Server} (h : deliverAll a [event] s = some (told, s')) :
    ∃ t, told = [(event, t)] ∧ Delivered 0 [(event, t)] s s' := by
  obtain ⟨hdelivered, hevents⟩ := delivered_of_deliverAll h
  obtain ⟨⟨_, t⟩, rfl, rfl⟩ := List.map_eq_singleton_iff.1 hevents
  exact ⟨t, rfl, hdelivered⟩

/-- A target that runs, outside a suppressed scope. -/
def runsUnsuppressed (s : Server) : Bool :=
  s.flags .isExecutionRunning && !s.flags .suppressSessionEvents

/-- A breakpoint and its break. -/
theorem breakpoint_reports_once : ∃ (c : Conf) (s₁ s₂ : Server) (hit told : HitAnswers),
    Reachable {} c ∧ runsUnsuppressed c.state = true ∧ Delivered 0 [(.breakpoint, hit)] c.state s₁ ∧
      Delivered 0 [(.break_, told)] s₁ s₂ ∧ s₂.flags .isExecutionRunning = false ∧
        s₂.session ≠ none ∧ s₂.stops = c.state.stops + 1 := by
  obtain ⟨c, hr, -, ht⟩ := reachable_of_exec Schedule.launchAndPark
    (fun c => runsUnsuppressed c.state && (deliverAll {} [.breakpoint] c.state).any fun p =>
      announced c.state 0 p.1 && (deliverAll {} [.break_] p.2).any fun q =>
        !q.2.flags .isExecutionRunning && q.2.session == some 0) (by decide +kernel)
  obtain ⟨hruns, ht⟩ := Bool.and_eq_true_iff.1 ht
  obtain ⟨⟨hits, s₁⟩, h₁, ht⟩ := (Option.any_eq_true _ _).1 ht
  obtain ⟨hannounced, ht⟩ := Bool.and_eq_true_iff.1 ht
  obtain ⟨⟨broken, s₂⟩, h₂, ht⟩ := (Option.any_eq_true _ _).1 ht
  obtain ⟨hit, rfl, hhit⟩ := delivered_one h₁
  obtain ⟨told, rfl, hbreak⟩ := delivered_one h₂
  simp only [Bool.and_eq_true, Bool.not_eq_true', beq_iff_eq] at ht
  obtain ⟨hhalted, hsession⟩ := ht
  have hsession : s₂.session ≠ none := by rw [hsession]; nofun
  obtain ⟨hrunning, hsup⟩ := Bool.and_eq_true_iff.1 hruns
  rw [Bool.not_eq_true'] at hsup
  have once := (break_reports_once_iff hrunning hsup (by simp) hhit hbreak).2 hannounced
  exact ⟨c, s₁, s₂, hit, told, hr, hruns, hhit, hbreak, hhalted, hsession, once hhalted hsession⟩

/-- A break that no other callback announces halts the target silently. -/
theorem bare_break_is_silent : ¬∀ (c : Conf) (events : List (Callback × HitAnswers))
    (told : HitAnswers) (s₁ s₂ : Server), Reachable {} c → runsUnsuppressed c.state = true →
      (∀ e ∈ events, e.1 ≠ .break_) → Delivered 0 events c.state s₁ →
        Delivered 0 [(.break_, told)] s₁ s₂ → s₂.flags .isExecutionRunning = false →
          s₂.session ≠ none → s₂.stops = c.state.stops + 1 := by
  intro hall
  obtain ⟨c, hr, -, ht⟩ := reachable_of_exec Schedule.launchAndPark
    (fun c => runsUnsuppressed c.state && (deliverAll {} [.break_] c.state).any fun p =>
      !p.2.flags .isExecutionRunning && p.2.session == some 0 && p.2.stops == c.state.stops)
    (by decide +kernel)
  obtain ⟨hruns, ht⟩ := Bool.and_eq_true_iff.1 ht
  obtain ⟨⟨broken, s⟩, hs, ht⟩ := (Option.any_eq_true _ _).1 ht
  obtain ⟨told, rfl, hbreak⟩ := delivered_one hs
  simp only [Bool.and_eq_true, Bool.not_eq_true', beq_iff_eq] at ht
  obtain ⟨⟨hhalted, hsession⟩, hsilent⟩ := ht
  have hone := hall c [] told c.state s hr hruns (by simp) (.nil _) hbreak hhalted
    (by rw [hsession]; nofun)
  omega

end DapDbgeng
