/-
  How the requests report on a session and end it.

  launch and attach report before any end, continue and configurationDone on a session they have
  found, disconnect once it has given the session up, terminate when there is none.  Main results:

  * `requestEnd_outline`: what a handler establishes of its view holds under the outline;
  * `handleRequest_ends`: every request keeps to its view.
-/
import DapDbgeng.EndPhase

namespace DapDbgeng

open Concurrent Concurrent.Prog

/-! ## Views -/

/-- What the handler of a request knows: nothing of the end has been sent and no callback can send
it now; there is no session. -/
structure RequestView where
  alive : Bool := false
  gone : Bool := false

structure RequestView.Sees (command : String) (v : RequestView) (p : Server × EndLog) : Prop where
  command : p.2.command = command
  alive : v.alive = true → p.1.outboundOpen = true → p.1.endPhase = .alive ∧ EndCalm p
  gone : v.gone = true → p.1.session = none

theorem RequestView.Sees.rely {command : String} {v : RequestView} {p p' : Server × EndLog}
    (h : v.Sees command p) (hr : RequestRely p p') : v.Sees command p' where
  command := hr.command.trans h.command
  alive ha ho := by
    obtain ⟨hp, hc⟩ := h.alive ha (hr.outboundOpen ▸ ho)
    obtain ⟨hp', hc'⟩ := hr.calm hc
    exact ⟨hp'.trans hp, hc'⟩
  gone hg := hr.session (h.gone hg)

/-- What a handler may report, and its view afterwards. -/
def RequestView.reports (v : RequestView) : Event → Option RequestView
  | .exited _ => none
  | .terminated => if v.alive && v.gone then some { v with alive := false } else none
  | e => if !e.isReport || v.alive then some v else none

def requestEndPre (command : String) :
    ∀ {β : Type}, DapOp β → (β → RequestView → Prop) → RequestView → Prop
  | _, .session => fun K v =>
    K none { alive := v.alive || command = "terminate", gone := true } ∧
      ∀ id, K (some id) { v with alive := v.alive || isReporting command }
  | _, .takeSession => fun K v => isReporting command = true ∧ ∀ r, K r { v with gone := true }
  | _, .setSession none => fun K v => isReporting command = true ∧ K () { v with gone := true }
  | _, .setSession (some _) => fun K v =>
    isReporting command = true ∧ v.alive = true ∧ K () { v with gone := false }
  | _, .send (.event e) => fun K v => ∃ v', v.reports e = some v' ∧ K () v'
  | _, _ => fun K v => ∀ b, K b v

def requestEndSpec (command : String) : Spec DapOp RequestView where
  pre := requestEndPre command
  mono o K K' hK v h := by
    cases o with
    | session => exact ⟨hK _ _ h.1, fun id => hK _ _ (h.2 id)⟩
    | takeSession => exact ⟨h.1, fun r => hK _ _ (h.2 r)⟩
    | setSession session => cases session with
      | none => exact ⟨h.1, hK _ _ h.2⟩
      | some id => exact ⟨h.1, h.2.1, hK _ _ h.2.2⟩
    | send m => cases m with
      | response r => exact fun b => hK _ _ (h b)
      | event e =>
        obtain ⟨v', hv, hk⟩ := h
        exact ⟨v', hv, hK _ _ hk⟩
    | _ => exact fun b => hK _ _ (h b)

section

variable {command : String} {p p' : Server × EndLog} {v : RequestView}

theorem RequestView.Sees.same (hv : v.Sees command p) (hs : SameEnd p.1 p'.1) (hl : p'.2 = p.2) :
    v.Sees command p' := hv.rely (hs.rely hl .request)

/-- A request that reports excludes an end callback. -/
theorem RequestView.Sees.quiet (hv : v.Sees command p) (hi : EndInv p)
    (hr : isReporting command = true) : p.2.ends = false ∧ p.2.ending = false := by
  have ends := hi.reporting (hv.command ▸ hr)
  exact ⟨ends, hi.not_ending ends⟩

theorem request_session {r : Option SessionId} (hv : v.Sees command p) (hi : EndInv p)
    (h : EndStep .request .session r p p') {K : Option SessionId → RequestView → Prop}
    (hw : requestEndPre command .session K v) :
    ∃ v' : RequestView, v'.Sees command p' ∧ K r v' := by
  have hread := (sem_session.1 h.sem).1
  have same : SameEnd p.1 p'.1 := sem_sameEnd rfl h.sem
  cases r with
  | none =>
    have gone : p.1.session = none := hread.symm
    refine ⟨_, RequestView.Sees.same ⟨hv.command, fun ha ho => ?_, fun _ => gone⟩ same h.log, hw.1⟩
    rcases Bool.or_eq_true_iff.1 ha with ha | hc
    · exact hv.alive ha ho
    · have hcommand : p.2.command = "terminate" := by
        rw [hv.command]
        exact of_decide_eq_true hc
      have hk : (command != "terminate" || p.1.endPhase != .ended) = true := hv.command ▸ h.keeps
      have hp : p.1.endPhase ≠ .ended := by
        rw [← hv.command, hcommand] at hk
        simpa using hk
      have ending : p.2.ending = false := by
        cases he : p.2.ending with
        | false => rfl
        | true => exact absurd ((hi.settled ho).gone he gone) hp
      exact ⟨hi.alive ending hp ho, .inr ⟨gone, ending⟩⟩
  | some id =>
    have learnt : RequestView.Sees command
        { v with alive := v.alive || isReporting command } p := by
      refine ⟨hv.command, fun ha ho => ?_, hv.gone⟩
      rcases Bool.or_eq_true_iff.1 ha with ha | hr
      · exact hv.alive ha ho
      · obtain ⟨-, ending⟩ := hv.quiet hi hr
        have hp := hi.not_ended ending hread.symm ho
        exact ⟨hi.alive ending hp ho, .inl (hv.command ▸ hr)⟩
    exact ⟨_, learnt.same same h.log, hw.2 id⟩

/-- Writing the session pointer in a request that reports. -/
theorem request_setSession {session : Option SessionId} (hv : v.Sees command p) (hi : EndInv p)
    (hr : isReporting command = true) (hs : p'.1 = { p.1 with session }) (hl : p'.2 = p.2)
    (ha : session.isSome = true → v.alive = true) :
    endOutline.Keeps .request p p' ∧
      ({ v with gone := session.isNone } : RequestView).Sees command p' := by
  obtain ⟨ends, ending⟩ := hv.quiet hi hr
  have phase : p'.1.endPhase = p.1.endPhase := by rw [hs]; rfl
  have hopen : p'.1.outboundOpen = p.1.outboundOpen := by rw [hs]
  have inv : EndInv p' := by
    refine ⟨phase ▸ hi.inOrder, fun ho => ?_, hl ▸ hi.ending, ?_, hl ▸ hi.reporting⟩
    · rw [hopen] at ho
      obtain ⟨he, hleft, -⟩ := hi.settled ho
      refine ⟨fun hp => .inr ?_, fun hp => ?_, fun hending => ?_⟩
      · cases session with
        | none => rw [hs]
        | some id =>
          rw [phase, (hv.alive (ha rfl) ho).1] at hp
          cases hp
      · rw [hl]
        exact hleft (phase ▸ hp)
      · rw [hl, ending] at hending
        cases hending
    · rw [hl, hs]
      exact hi.active
  refine ⟨⟨inv, fun u hu => ?_⟩, ?_⟩
  · cases u with
    | request => exact absurd rfl hu
    | callback =>
      refine ⟨fun ho => hopen ▸ ho, by rw [hs], by rw [hl], by rw [hl], fun _ => phase,
        fun he => ?_⟩
      rw [ends] at he
      cases he
    | _ => trivial
  · refine ⟨hl ▸ hv.command, fun ha ho => ?_, fun hg => ?_⟩
    · have reporting : isReporting p'.2.command = true := by rw [hl, hv.command]; exact hr
      exact ⟨phase.trans (hv.alive ha (hopen ▸ ho)).1, .inl reporting⟩
    · rw [hs]
      exact Option.isNone_iff_eq_none.1 hg

theorem request_send {e : Event} (hv : v.Sees command p) (hi : EndInv p)
    {u : Unit} (h : EndStep .request (.send (.event e)) u p p') {v' : RequestView}
    (hr : v.reports e = some v') : endOutline.Keeps .request p p' ∧ v'.Sees command p' := by
  have hs := sem_send.1 h.sem
  have hl := h.log
  have plain (hnext : p.1.outboundOpen = true → p.1.endPhase.next (.event e) = p.1.endPhase)
      (he : v' = v) : endOutline.Keeps .request p p' ∧ v'.Sees command p' := by
    subst he
    have same := sameEnd_send hs hnext
    exact ⟨same.keeps hl hi, hv.same same hl⟩
  cases e with
  | exited code => cases hr
  | initialized | output | process =>
    simp only [RequestView.reports, Event.isReport, Bool.not_false, Bool.true_or, ↓reduceIte,
      Option.some.injEq] at hr
    exact plain (fun _ => EndPhase.next_silent rfl) hr.symm
  | stopped | continued | thread =>
    simp only [RequestView.reports, Event.isReport, Bool.not_true, Bool.false_or,
      Option.ite_none_right_eq_some, Option.some.injEq] at hr
    obtain ⟨ha, he⟩ := hr
    refine plain (fun ho => ?_) he.symm
    rw [(hv.alive ha ho).1]
    rfl
  | terminated =>
    simp only [RequestView.reports, Option.ite_none_right_eq_some, Bool.and_eq_true,
      Option.some.injEq] at hr
    obtain ⟨⟨ha, hg⟩, rfl⟩ := hr
    have gone := hv.gone hg
    have idle : p.1.callbackActive = false := by
      have hk : (!p.1.callbackActive) = true := h.keeps
      simpa using hk
    have phase := endPhase_send hs
    have hopen : p'.1.outboundOpen = p.1.outboundOpen := by rw [hs]; split <;> rfl
    have hsession : p'.1.session = none := by rw [hs]; split <;> exact gone
    have hactive : p'.1.callbackActive = p.1.callbackActive := by rw [hs]; split <;> rfl
    have ended (ho : p.1.outboundOpen = true) : p'.1.endPhase = .ended := by
      rw [phase, if_pos ho, (hv.alive ha ho).1]
      rfl
    have inv : EndInv p' := by
      refine ⟨?_, fun ho => ?_, hl ▸ hi.ending, ?_, hl ▸ hi.reporting⟩
      · by_cases ho : p.1.outboundOpen = true
        · rw [ended ho]
          decide
        · rw [phase, if_neg ho]
          exact hi.inOrder
      · have ended := ended (hopen ▸ ho)
        refine ⟨fun _ => .inr hsession, fun hleft => ?_, fun _ _ => ended⟩
        rw [ended] at hleft
        cases hleft
      · rw [hl, hactive]
        exact hi.active
    refine ⟨⟨inv, fun w hw => ?_⟩, hl ▸ hv.command, nofun, fun _ => hsession⟩
    cases w with
    | request => exact absurd rfl hw
    | callback =>
      refine ⟨fun ho => hopen ▸ ho, hactive, by rw [hl], by rw [hl], fun hc => ?_,
        fun _ _ => hsession⟩
      rw [idle] at hc
      cases hc
    | _ => trivial

theorem requestEnd_step {β : Type} (o : DapOp β) {K : β → RequestView → Prop} {b : β}
    (hv : v.Sees command p) (hw : (requestEndSpec command).pre o K v) (hi : EndInv p)
    (h : EndStep .request o b p p') :
    endOutline.Keeps .request p p' ∧ ∃ v' : RequestView, v'.Sees command p' ∧ K b v' := by
  have plain (ho : o.bearsOnEnd = false) : endOutline.Keeps .request p p' ∧ v.Sees command p' := by
    have same := sem_sameEnd ho h.sem
    exact ⟨same.keeps h.log hi, hv.same same h.log⟩
  cases o with
  | session => exact ⟨(plain rfl).1, request_session hv hi h hw⟩
  | takeSession =>
    obtain ⟨hk, hv'⟩ := request_setSession hv hi hw.1 (sem_takeSession.1 h.sem).2 h.log nofun
    exact ⟨hk, _, hv', hw.2 b⟩
  | setSession session => cases session with
    | none =>
      obtain ⟨hk, hv'⟩ := request_setSession hv hi hw.1 (sem_setSession.1 h.sem) h.log nofun
      exact ⟨hk, _, hv', hw.2⟩
    | some id =>
      obtain ⟨hk, hv'⟩ := request_setSession hv hi hw.1 (sem_setSession.1 h.sem) h.log
        fun _ => hw.2.1
      exact ⟨hk, _, hv', hw.2.2⟩
  | send m => cases m with
    | response r => exact ⟨(plain rfl).1, v, (plain rfl).2, hw b⟩
    | event e =>
      obtain ⟨v', hr, hk⟩ := hw
      obtain ⟨hkeeps, hv'⟩ := request_send hv hi h hr
      exact ⟨hkeeps, v', hv', hk⟩
  | _ => exact ⟨(plain rfl).1, v, (plain rfl).2, hw b⟩

theorem requestEnd_outline {β : Type} (o : DapOp β) {K : β → RequestView → Prop}
    (hv : v.Sees command p) (hw : (requestEndSpec command).pre o K v) :
    (endOutline.spec endSystem .request).pre o
      (fun b p' => ∃ v' : RequestView, v'.Sees command p' ∧ K b v') p := by
  intro b p' hi h
  obtain ⟨hk, v', hv', hK⟩ := requestEnd_step o hv hw hi (endStep_of_sem h)
  exact ⟨hk, fun p'' hr _ => ⟨v', hv'.rely hr, hK⟩⟩

end

namespace Server

/-! ## The handlers that report -/

variable {command : String}

/-- Where `alive` nothing of the end has been sent, and where `gone` there is no session. -/
def Knows (alive gone : Prop) (v : RequestView) : Prop :=
  (alive → v.alive = true) ∧ (gone → v.gone = true)

/-- A permit that keeps to what a handler knows. -/
structure Harmless (P : Permit) (command : String) (alive gone : Prop) : Prop where
  reports : ∀ e, P.reports e → alive ∧ (∀ code, e ≠ .exited code) ∧ e ≠ .terminated
  replaces : P.replaces → isReporting command = true
  creates : P.creates → isReporting command = true ∧ alive ∧ ¬gone

theorem knows_of_permitted {P : Permit} {alive gone : Prop} (hP : Harmless P command alive gone)
    {α : Type} {p : Dap α} (hp : Permitted P p) {v : RequestView} (hv : Knows alive gone v) :
    p.wp (requestEndSpec command) (fun _ => Knows alive gone) (fun _ => Knows alive gone) v := by
  refine wp_of_allOps (fun {β} o ho v hv => ?_) hp hv
  cases o with
  | session =>
    exact ⟨⟨fun ha => by simp [hv.1 ha], fun _ => rfl⟩,
      fun id => ⟨fun ha => by simp [hv.1 ha], hv.2⟩⟩
  | takeSession => exact ⟨hP.replaces ho, fun _ => ⟨hv.1, fun _ => rfl⟩⟩
  | setSession session => cases session with
    | none => exact ⟨hP.replaces ho, hv.1, fun _ => rfl⟩
    | some id =>
      obtain ⟨hr, ha, hg⟩ := hP.creates ho
      exact ⟨hr, hv.1 ha, hv.1, fun h => absurd h hg⟩
  | send m => cases m with
    | response r => exact fun _ => hv
    | event e =>
      refine ⟨v, ?_, hv⟩
      cases hrep : e.isReport with
      | false => cases e <;> first | rfl | cases hrep
      | true =>
        obtain ⟨ha, he, ht⟩ := hP.reports e (ho hrep)
        have alive := hv.1 ha
        cases e with
        | exited code => exact absurd rfl (he code)
        | terminated => exact absurd rfl ht
        | _ => simp [RequestView.reports, alive]
  | _ => exact fun _ => hv

theorem silent_keeps {alive gone : Prop} : Harmless {} command alive gone :=
  ⟨fun _ => False.elim, False.elim, False.elim⟩

/-- Whatever a handler knows. -/
def Unknown (_ : RequestView) : Prop := True

theorem knows_nothing (v : RequestView) : Knows False False v := ⟨nofun, nofun⟩

/-- A program that neither reports nor touches the session pointer. -/
theorem any_of_permitted {P : Permit} (hP : Harmless P command False False)
    {α : Type} {p : Dap α} (hp : Permitted P p) (v : RequestView) :
    p.wp (requestEndSpec command) (fun _ => Unknown) (fun _ => Unknown) v :=
  wp_mono (fun _ _ _ => trivial) (fun _ _ _ => trivial)
    (knows_of_permitted hP hp (knows_nothing v))

/-- A program that may report stops and continuations, once nothing of the end has been sent. -/
theorem any_of_alive {P : Permit} (hP : Harmless P command True False)
    {α : Type} {p : Dap α} (hp : Permitted P p) {v : RequestView} (ha : v.alive = true) :
    p.wp (requestEndSpec command) (fun _ => Unknown) (fun _ => Unknown) v :=
  wp_mono (fun _ _ _ => trivial) (fun _ _ _ => trivial)
    (knows_of_permitted hP hp ⟨fun _ => ha, nofun⟩)

/-! continue and configurationDone find the session first. -/

/-- The permit of a handler that resumes. -/
def resuming : Permit where
  reports
    | .continued .. => True
    | _ => False
  resumes := True

theorem resuming_keeps : Harmless resuming command True False where
  reports e h := by
    cases e with
    | continued => exact ⟨trivial, fun _ => nofun, nofun⟩
    | _ => exact h.elim
  replaces := False.elim
  creates := False.elim

theorem check_ends {α : Type} (request : Request α) {c : Prop} [Decidable c] (message : String)
    {p : Dap Unit}
    (h : ∀ v, p.wp (requestEndSpec command) (fun _ => Unknown) (fun _ => Unknown) v)
    (v : RequestView) : (do
      if ← (if c then return true else do fail request message; return false) then p
      else return : Dap Unit).wp (requestEndSpec command) (fun _ => Unknown)
      (fun _ => Unknown) v := by
  by_cases hc : c
  · rw [if_pos hc]
    exact h v
  · rw [if_neg hc]
    exact fun _ => trivial

theorem handleContinueRequest_ends (hr : isReporting command = true)
    (request : Request ExecutionArguments) (v : RequestView) :
    (handleContinueRequest request).wp (requestEndSpec command) (fun _ => Unknown)
      (fun _ => Unknown) v := by
  have resume (v : RequestView) : (do
      let id ← requireDebuggerSession
      continueTarget id request.arguments.threadId
      sendResponse request (.continue_ true)
      sendEvent (.continued request.arguments.threadId true)
      startWaitingForSessionEvent id).wp (requestEndSpec command) (fun _ => Unknown)
      (fun _ => Unknown) v := by
    refine ⟨trivial, fun id => ?_⟩
    have rest : Permitted resuming (do
        continueTarget id request.arguments.threadId
        sendResponse request (.continue_ true)
        sendEvent (.continued request.arguments.threadId true)
        startWaitingForSessionEvent id) :=
      .bind (continueTarget_permitted trivial id _) fun _ =>
        .bind (sendResponse_permitted request _) fun _ =>
          .bind (.perform fun _ => trivial) fun _ => startWaitingForSessionEvent_permitted id
    exact any_of_alive resuming_keeps rest (by simp [hr])
  refine check_ends request _ (check_ends request _ fun v => ?_) v
  intro running
  cases running with
  | true => exact fun _ => trivial
  | false => exact resume v

theorem handleConfigurationDoneRequest_ends (hr : isReporting command = true)
    (request : Request Unit) (v : RequestView) :
    (handleConfigurationDoneRequest request).wp (requestEndSpec command) (fun _ => Unknown)
      (fun _ => Unknown) v := by
  have reset (v : RequestView) : resetLaunchConfigurationState.wp (requestEndSpec command)
      (fun _ => Unknown) (fun _ => Unknown) v :=
    any_of_permitted silent_keeps resetLaunchConfigurationState_permitted v
  have resume (v : RequestView) : (do
      continueAfterConfigurationDone
      resetLaunchConfigurationState).wp (requestEndSpec command) (fun _ => Unknown)
      (fun _ => Unknown) v := by
    refine ⟨reset _, fun id => ?_⟩
    have rest : Permitted resuming (Prog.bind _ fun _ => resetLaunchConfigurationState) :=
      .bind (continueAfterConfigurationDone_permitted trivial (fun _ _ => trivial) id)
        fun _ => resetLaunchConfigurationState_permitted
    exact any_of_alive resuming_keeps rest (by simp [hr])
  intro _ awaiting stopAtEntry
  cases awaiting with
  | false => exact reset v
  | true => cases stopAtEntry with
    | true => exact reset v
    | false => exact resume v

/-! launch and attach begin before any end. -/

/-- The permit of a handler that brings a session up. -/
def starting : Permit where
  reports := reportsStart
  replaces := True
  creates := True

theorem starting_keeps (hr : isReporting command = true) :
    Harmless starting command True False where
  reports e h := by
    cases e with
    | stopped => exact ⟨trivial, fun _ => nofun, nofun⟩
    | _ => exact h.elim
  replaces _ := hr
  creates _ := ⟨hr, trivial, not_false⟩

/-! terminate reports the end of a session that is not there. -/

theorem handleTerminateRequest_ends (hc : command = "terminate") (request : Request Unit)
    (v : RequestView) :
    (handleTerminateRequest request).wp (requestEndSpec command) (fun _ => Unknown)
      (fun _ => Unknown) v := by
  refine ⟨?_, fun id => ?_⟩
  · have report (v : RequestView) (hv : v.alive = true ∧ v.gone = true) : (do
        sendResponse request .empty
        sendEvent .terminated
        store .shouldExit true).wp (requestEndSpec command) (fun _ => Unknown)
        (fun _ => Unknown) v :=
      fun _ => ⟨{ v with alive := false }, by simp [RequestView.reports, hv.1, hv.2],
        fun _ => trivial⟩
    exact report _ ⟨by simp [hc], rfl⟩
  · have rest : Permitted {} (do
        terminateTarget id
        sendResponse request .empty) :=
      .bind (terminateTarget_permitted id) fun _ => sendResponse_permitted request _
    exact any_of_permitted silent_keeps rest _

/-! disconnect reports the end once it has given the session up. -/

/-- The permit of a handler that gives the session up. -/
def leaving : Permit where
  replaces := True

theorem leaving_keeps (hr : isReporting command = true) {alive gone : Prop} :
    Harmless leaving command alive gone :=
  ⟨fun _ => False.elim, fun _ => hr, False.elim⟩

theorem Knows.any {alive gone : Prop} {v : RequestView} (_ : Knows alive gone v) : Unknown v :=
  trivial

theorem disposeDebuggerSession_ends (hr : isReporting command = true) {v : RequestView}
    (hv : Knows True False v) :
    (disposeDebuggerSession .request).wp (requestEndSpec command) (fun _ => Knows True True)
      (fun _ => Unknown) v := by
  have given_up : Knows True True { v with gone := true } := ⟨hv.1, fun _ => rfl⟩
  refine ⟨hr, fun session => ?_⟩
  cases session with
  | none =>
    exact wp_mono (fun _ _ h => h) (fun _ _ h => h.any)
      (knows_of_permitted (leaving_keeps hr) (resetAfterDispose_permitted trivial) given_up)
  | some id =>
    have rest : Permitted leaving (do
        (invoke .request (Session.destroy .request id)).catching fun _ => .ret ()
        resetAfterDispose) :=
      .bind (.catching (invoke_permitted (destroy_permitted _ id)) fun _ => trivial)
        fun _ => resetAfterDispose_permitted trivial
    exact wp_mono (fun _ _ h => h) (fun _ _ h => h.any)
      (knows_of_permitted (leaving_keeps hr) rest given_up)

/-- A program under a permit, and what comes after it. -/
theorem knows_bind {P : Permit} {alive gone : Prop} (hP : Harmless P command alive gone)
    {α β : Type} {p : Dap α} (hp : Permitted P p) {f : α → Dap β} {Q : β → RequestView → Prop}
    (hf : ∀ a v, Knows alive gone v →
      (f a).wp (requestEndSpec command) Q (fun _ => Unknown) v) {v : RequestView}
    (hv : Knows alive gone v) :
    (p.bind f).wp (requestEndSpec command) Q (fun _ => Unknown) v := by
  rw [wp_bind]
  exact wp_mono (fun a v h => hf a v h) (fun _ _ h => h.any) (knows_of_permitted hP hp hv)

theorem disconnectUserTarget_ends (hr : isReporting command = true) (id : SessionId)
    (terminateDebuggee : Option Bool) {v : RequestView} (hv : Knows True False v) :
    (disconnectUserTarget id terminateDebuggee).wp (requestEndSpec command)
      (fun _ => Knows True True) (fun _ => Unknown) v := by
  have dispose {v : RequestView} (hv : Knows True False v) :
      (disposeDebuggerSession .request).wp (requestEndSpec command) (fun _ => Knows True True)
        (fun _ => Unknown) v := disposeDebuggerSession_ends hr hv
  have detach {v : RequestView} (hv : Knows True False v) : (do
      let terminateOnDisconnect ← load .terminateDebuggeeOnDisconnect
      let detachOnDisconnect ← load .detachOnDisconnect
      if shouldDetachDebuggee terminateDebuggee terminateOnDisconnect detachOnDisconnect then
        invoke .request (Session.detachCurrentProcess id)
      else pure ()
      disposeDebuggerSession .request).wp (requestEndSpec command) (fun _ => Knows True True)
      (fun _ => Unknown) v := by
    intro terminateOnDisconnect detachOnDisconnect
    change (ite _ _ _ : Dap Unit).wp _ _ _ v
    split
    · have detached : Permitted {} (invoke .request (Session.detachCurrentProcess id)) :=
        invoke_permitted (Session.detachCurrentProcess_quiet id).permitted
      exact knows_bind silent_keeps detached (fun _ _ hv => dispose hv) hv
    · exact dispose hv
  intro running
  cases running with
  | true =>
    have halted {v : RequestView} (hv : Knows True False v) : (do
        store .isExecutionRunning false
        let terminateOnDisconnect ← load .terminateDebuggeeOnDisconnect
        let detachOnDisconnect ← load .detachOnDisconnect
        if shouldDetachDebuggee terminateDebuggee terminateOnDisconnect detachOnDisconnect then
          invoke .request (Session.detachCurrentProcess id)
        else pure ()
        disposeDebuggerSession .request).wp (requestEndSpec command) (fun _ => Knows True True)
        (fun _ => Unknown) v := fun _ => detach hv
    exact knows_bind silent_keeps (tryInterrupt_permitted id) (fun _ _ hv => halted hv) hv
  | false => exact detach hv

theorem disconnectKernelLeavingMachineRunning_ends (hr : isReporting command = true)
    (id : SessionId) {v : RequestView} (hv : Knows True False v) :
    (disconnectKernelLeavingMachineRunning id).wp (requestEndSpec command)
      (fun _ => Knows True True) (fun _ => Unknown) v := by
  have resumed : Permitted {} ((resumeKernelTarget id).catching fun _ => .ret ()) :=
    .catching (resumeKernelTarget_permitted id) fun _ => trivial
  refine knows_bind silent_keeps resumed (fun _ v hv => ?_) hv
  exact ⟨hr, fun _ _ _ _ => ⟨hv.1, fun _ => rfl⟩⟩

/-- What disconnecting leaves of what a handler knows: nothing sent, and no session. -/
theorem disconnectDebuggerSession_ends (hr : isReporting command = true)
    (terminateDebuggee : Option Bool) {v : RequestView} (hv : Knows True False v) :
    (disconnectDebuggerSession terminateDebuggee).wp (requestEndSpec command)
      (fun _ => Knows True True) (fun _ => Unknown) v := by
  refine ⟨⟨fun ha => by simp [hv.1 ha], fun _ => rfl⟩, fun id _ session => ?_⟩
  have known : Knows True False { v with alive := v.alive || isReporting command } :=
    ⟨fun ha => by simp [hv.1 ha], nofun⟩
  change (ite _ _ _ : Dap Unit).wp _ _ _ _
  split
  · exact disconnectKernelLeavingMachineRunning_ends hr id known
  · exact disconnectUserTarget_ends hr id terminateDebuggee known

theorem handleDisconnectRequest_ends (hr : isReporting command = true)
    (request : Request (Option DisconnectArguments)) (v : RequestView) :
    (handleDisconnectRequest request).wp (requestEndSpec command) (fun _ => Unknown)
      (fun _ => Unknown) v := by
  have silent (v : RequestView) : (do
      disconnectDebuggerSession (request.arguments.bind DisconnectArguments.terminateDebuggee)
      sendResponse request .empty
      store .shouldExit true).wp (requestEndSpec command) (fun _ => Unknown)
      (fun _ => Unknown) v := by
    have rest : Permitted leaving (do
        disconnectDebuggerSession (request.arguments.bind DisconnectArguments.terminateDebuggee)
        sendResponse request .empty
        store .shouldExit true) :=
      .bind (disconnectDebuggerSession_permitted trivial _) fun _ =>
        .bind (sendResponse_permitted request _) fun _ => .perform trivial
    exact any_of_permitted (leaving_keeps hr) rest v
  have telling {v : RequestView} (hv : Knows True False v) : (do
      disconnectDebuggerSession (request.arguments.bind DisconnectArguments.terminateDebuggee)
      sendResponse request .empty
      sendEvent .terminated
      store .shouldExit true).wp (requestEndSpec command) (fun _ => Unknown)
      (fun _ => Unknown) v := by
    rw [bind_eq, wp_bind]
    refine wp_mono_val (fun _ v hv _ => ?_) (disconnectDebuggerSession_ends hr _ hv)
    exact ⟨{ v with alive := false }, by simp [RequestView.reports, hv.1 trivial, hv.2 trivial],
      fun _ => trivial⟩
  refine ⟨silent _, fun id observed => ?_⟩
  cases observed with
  | true => exact silent _
  | false => exact telling ⟨fun _ => by simp [hr], nofun⟩

/-! ## Every request -/

/-- What the handler of a command knows at its start. -/
def startKnows (command : String) (v : RequestView) : Prop :=
  isStartCommand command = true → v.alive = true

/-- The commands with a report of their own. -/
def reportingCommands : List String :=
  ["launch", "attach", "continue", "configurationDone", "terminate", "disconnect"]

variable {root : Json}

theorem keeps_of_command (h : command ∉ reportingCommands) :
    Harmless (commandPermit command) command False False := by
  simp only [reportingCommands, List.mem_cons, List.not_mem_nil, or_false, not_or] at h
  obtain ⟨hl, ha, hc, hd, ht, hx⟩ := h
  refine ⟨fun e he => ?_, fun he => ?_, fun he => ?_⟩
  · cases e <;> simp [commandPermit, hl, ha, hc, hd, ht, hx] at he
  · simp [commandPermit, hl, ha, hx] at he
  · simp [commandPermit, hl, ha] at he

/-- Decode, then handle. -/
theorem run_ends {α : Type} {dec : Decoder (Request α)} {handler : Request α → Dap Unit}
    {v : RequestView} (h : ∀ request, (handler request).wp (requestEndSpec command)
      (fun _ => Unknown) (fun _ => Unknown) v) :
    (run dec handler root).wp (requestEndSpec command) (fun _ => Unknown) (fun _ => Unknown) v := by
  unfold run
  split
  · trivial
  · exact h _

/-- The handler of a command with a report of its own. -/
theorem reporting_ends (h : command ∈ reportingCommands) {handler : Json → Dap Unit}
    (hl : handlers.lookup command = some handler) {v : RequestView} (hv : startKnows command v) :
    (handler root).wp (requestEndSpec command) (fun _ => Unknown) (fun _ => Unknown) v := by
  simp only [reportingCommands, List.mem_cons, List.not_mem_nil, or_false] at h
  rcases h with rfl | rfl | rfl | rfl | rfl | rfl
  · cases hl
    exact run_ends fun request => any_of_alive (starting_keeps rfl)
      (handleLaunchRequest_permitted trivial trivial (fun _ h => h) request) (hv rfl)
  · cases hl
    exact run_ends fun request => any_of_alive (starting_keeps rfl)
      (handleAttachRequest_permitted trivial trivial (fun _ h => h) request) (hv rfl)
  · cases hl
    exact run_ends fun request => handleContinueRequest_ends rfl request v
  · cases hl
    exact run_ends fun request => handleConfigurationDoneRequest_ends rfl request v
  · cases hl
    exact run_ends fun request => handleTerminateRequest_ends rfl request v
  · cases hl
    exact run_ends fun request => handleDisconnectRequest_ends rfl request v

theorem dispatchRequest_ends {v : RequestView} (hv : startKnows (requestCommand root) v) :
    (dispatchRequest root).wp (requestEndSpec (requestCommand root)) (fun _ => Unknown)
      (fun _ => Unknown) v := by
  by_cases h : requestCommand root ∈ reportingCommands
  · unfold dispatchRequest
    unfold requestCommand at h hv ⊢
    cases hc : Decoder.valueString "command" root with
    | error what => trivial
    | ok command =>
      rw [hc] at h hv
      dsimp only at h hv ⊢
      cases hl : handlers.lookup command with
      | none => exact run_ends fun _ => trivial
      | some handler => exact reporting_ends h hl hv
  · exact any_of_permitted (keeps_of_command h) dispatchRequest_permitted v

theorem handleRequest_ends {v : RequestView} (hv : startKnows (requestCommand root) v) :
    (handleRequest root).wp (requestEndSpec (requestCommand root)) (fun _ => Unknown)
      (fun _ => Unknown) v := by
  have rest (v : RequestView) : (do
      let shouldExit ← load .shouldExit
      store .hasCurrentRequestJson false
      return shouldExit).wp (requestEndSpec (requestCommand root)) (fun _ => Unknown)
      (fun _ => Unknown) v := fun _ _ => trivial
  have dispatched : (handle root).wp (requestEndSpec (requestCommand root)) (fun _ => Unknown)
      (fun _ => Unknown) v := by
    unfold handle
    split
    · trivial
    · split
      · exact dispatchRequest_ends hv
      · split <;> trivial
  have handled : ((handle root).catching (recover root)).wp (requestEndSpec (requestCommand root))
      (fun _ => Unknown) (fun _ => Unknown) v := by
    rw [wp_catching]
    exact wp_mono (fun _ _ h => h) (fun e v _ =>
      any_of_permitted silent_keeps (recover_permitted e) v) dispatched
  intro _ _ _
  change (Prog.bind ((handle root).catching (recover root)) _).wp _ _ _ v
  rw [wp_bind]
  exact wp_mono_val (fun _ v _ => rest v) handled

end Server

end DapDbgeng
