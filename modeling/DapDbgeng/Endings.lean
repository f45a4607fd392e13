/-
  How a session ends for the client.

  Main result: `ends_in_order`, on every run in which no session ends twice and none ends under a
  request that is about to report.
-/
import DapDbgeng.EndCallbacks
import DapDbgeng.EndRequests

namespace DapDbgeng

open Concurrent Concurrent.Prog

/-! ## Every run -/

namespace Endings

open Server

variable {t : Tid} {j : Job} {p p' : Server × EndLog}

theorem request_safe {root : Json} {v : RequestView} (hv : v.Sees (requestCommand root) p)
    (hs : startKnows (requestCommand root) v) :
    endOutline.Safe endSystem .request (.request root) (Job.request root).body p := by
  intro p' hr _
  have hw := wp_of_view (fun o _ _ _ => requestEnd_outline o) (hv.rely hr)
    (handleRequest_ends hs)
  exact wp_mono (fun _ _ _ => ⟨rfl, nofun⟩) (fun _ _ _ => ⟨rfl, nofun⟩) hw

/-- Once no message is taken the destructor may give the session up. -/
theorem teardown_keeps {β : Type} (o : DapOp β) {b : β}
    (ho : Job.teardown.permit.allows o) (hi : EndInv p) (hl : p.1.outboundOpen = false)
    (h : endSystem.sem .request β o p b p') :
    endOutline.Keeps .request p p' ∧ p'.1.outboundOpen = false := by
  have step := endStep_of_sem h
  have same (h : SameEnd p.1 p'.1) :
      endOutline.Keeps .request p p' ∧ p'.1.outboundOpen = false :=
    ⟨h.keeps step.log hi, h.outboundOpen.trans hl⟩
  have cleared (hs : p'.1 = { p.1 with session := none }) :
      endOutline.Keeps .request p p' ∧ p'.1.outboundOpen = false := by
    have phase : p'.1.endPhase = p.1.endPhase := by rw [hs]; rfl
    have closed : p'.1.outboundOpen = false := by rw [hs]; exact hl
    refine ⟨⟨⟨phase ▸ hi.inOrder, fun ho => ?_, step.log ▸ hi.ending, ?_,
      step.log ▸ hi.reporting⟩, fun u hu => ?_⟩, closed⟩
    · rw [closed] at ho
      cases ho
    · rw [step.log, hs]
      exact hi.active
    · cases u with
      | request => exact absurd rfl hu
      | callback =>
        refine ⟨fun ho => ?_, by rw [hs], by rw [step.log], by rw [step.log], fun _ => phase,
          fun _ _ => by rw [hs]⟩
        rw [closed] at ho
        cases ho
      | _ => trivial
  cases o with
  | takeSession => exact cleared (sem_takeSession.1 step.sem).2
  | setSession session => cases session with
    | none => exact cleared (sem_setSession.1 step.sem)
    | some id => exact ho.elim
  | send m =>
    refine same (sameEnd_send (sem_send.1 step.sem) fun h => ?_)
    rw [hl] at h
    cases h
  | _ => exact same (sem_sameEnd rfl step.sem)

/-- The destructor runs once no message is taken any more. -/
theorem teardown_safe (ho : p.1.outboundOpen = false) :
    endOutline.Safe endSystem .request .teardown Job.teardown.body p := by
  intro p' hr _
  have closed : p'.1.outboundOpen = false := hr.outboundOpen.trans ho
  have permitted : Permitted Job.teardown.permit Job.teardown.body := Job.body_permitted nofun
  have stays {p p' : Server × EndLog} (h : p.1.outboundOpen = false)
      (hr : endOutline.rely .request p p') (_ : EndInv p') : p'.1.outboundOpen = false :=
    RequestRely.outboundOpen hr ▸ h
  have kept : Job.teardown.body.wp (endOutline.spec endSystem .request)
      (fun _ p => p.1.outboundOpen = false) (fun _ p => p.1.outboundOpen = false) p' :=
    Outline.wp_of_allOps permitted stays (fun o _ _ _ => teardown_keeps o) closed
  exact wp_mono (fun _ _ _ => ⟨rfl, nofun⟩) (fun _ _ _ => ⟨rfl, nofun⟩) kept

/-- The wait loop and the detached wait bear on no end. -/
theorem silent_safe (hj : Permitted {} j.body) (ht : j.thread ≠ .callback) (p : Server × EndLog) :
    endOutline.Safe endSystem j.thread j j.body p := by
  refine Outline.safe_of_allOps (A := endOutline) hj (fun {β} o b p p' ho hi h => ?_)
    (fun _ _ => ⟨rfl, fun h => absurd h ht⟩) p
  have step := endStep_of_sem h
  have silent : o.bearsOnEnd = false := by
    cases o with
    | send m => cases m with
      | response r => rfl
      | event e =>
        have he : e.isReport = false := by
          cases h : e.isReport with
          | false => rfl
          | true => exact (ho h).elim
        exact he
    | takeSession => exact ho.elim
    | setSession session => cases session <;> exact ho.elim
    | _ => rfl
  exact (sem_sameEnd silent step.sem).keeps step.log hi

theorem callback_safe (id : SessionId) (event : Callback) (threads : List (Nat × Nat))
    (current : Nat) (session : Option SessionId)
    (hexit : event.isExit = true → session.isSome = true)
    (h : (startView event session).Sees p) :
    endOutline.Safe endSystem .callback (.callback id event threads current)
      (Job.callback id event threads current).body p := by
  intro p' hr _
  have done {p : Server × EndLog} (h : ∃ v : CallbackView, v.Sees p ∧ CallbackOver v) :
      EndDone p := by
    obtain ⟨v, hv, hover⟩ := h
    intro he
    have hstage := hv.stage
    rw [hover (hv.ends ▸ he)] at hstage
    exact ⟨hstage.1, hstage.2.2⟩
  have hw := wp_of_view (fun o _ _ _ => callbackEnd_outline o) (h.rely hr)
    (onCallback_ends id event session hexit)
  change (Prog.bind (onCallback id event) fun _ => .ret false).wp _ _ _ p'
  rw [wp_bind]
  exact wp_mono (fun _ _ h => ⟨rfl, fun _ => done h⟩) (fun _ _ h => ⟨rfl, fun _ => done h⟩) hw

theorem start_request {root : Json} (hi : EndInv p) (hs : p'.1 = p.1)
    (hl : p'.2 = { p.2 with command := requestCommand root })
    (hk : keepsEnd (.start .request (.request root)) p = true) :
    endOutline.Keeps .request p p' ∧
      endOutline.Safe endSystem .request (.request root) (Job.request root).body p' := by
  simp only [keepsEnd, Bool.and_eq_true, Bool.or_eq_true, Bool.not_eq_true', bne_iff_ne] at hk
  obtain ⟨hends, hstart⟩ := hk
  have reporting (h : isReporting (requestCommand root) = true) : p.2.ends = false := by
    rcases hends with hr | he
    · rw [hr] at h
      cases h
    · exact he
  have inv : EndInv p' := by
    obtain ⟨s', l'⟩ := p'
    dsimp only at hs hl
    subst hs hl
    exact ⟨hi.inOrder, fun ho => { hi.settled ho with }, hi.ending, hi.active, reporting⟩
  refine ⟨⟨inv, fun u hu => ?_⟩, ?_⟩
  · cases u with
    | request => exact absurd rfl hu
    | callback =>
      rw [show p' = (p'.1, p'.2) from rfl, hs, hl]
      exact ⟨id, rfl, rfl, rfl, fun _ => rfl, fun _ => id⟩
    | _ => trivial
  · have sees : RequestView.Sees (requestCommand root)
        { alive := isStartCommand (requestCommand root) } p' := by
      refine ⟨by rw [hl], fun ha ho => ?_, nofun⟩
      have hr : isReporting (requestCommand root) = true := by
        have ha : isStartCommand (requestCommand root) = true := ha
        simp [isReporting, ha]
      have hp : p.1.endPhase ≠ .ended := by
        rcases hstart with h | h
        · have ha : isStartCommand (requestCommand root) = true := ha
          rw [h] at ha
          cases ha
        · exact h
      have alive := hi.alive (hi.not_ending (reporting hr)) hp (hs ▸ ho)
      exact ⟨by rw [hs]; exact alive, .inl (by rw [hl]; exact hr)⟩
    exact request_safe sees id

theorem start_callback {id : SessionId} {event : Callback} {threads : List (Nat × Nat)}
    {current : Nat} (hi : EndInv p) (hidle : p.1.callbackActive = false)
    (hs : p'.1 = { p.1.updateEngine id fun e => { event.effect e with threads, current } with
      callbackActive := true })
    (hl : p'.2 = { p.2 with ends := event.ends, ending := event.ends && p.1.session.isSome })
    (hk : keepsEnd (.start .callback (.callback id event threads current)) p = true) :
    endOutline.Keeps .callback p p' ∧ endOutline.Safe endSystem .callback
      (.callback id event threads current) (Job.callback id event threads current).body p' := by
  simp only [keepsEnd, Bool.or_eq_true, Bool.and_eq_true, Bool.not_eq_true'] at hk
  have ends : p.2.ends = false := by
    cases he : p.2.ends with
    | false => rfl
    | true =>
      have := hi.active he
      rw [hidle] at this
      cases this
  have ending : p.2.ending = false := hi.not_ending ends
  have phase : p'.1.endPhase = p.1.endPhase := by rw [hs]; rfl
  have hopen : p'.1.outboundOpen = p.1.outboundOpen := by rw [hs]; rfl
  have hsession : p'.1.session = p.1.session := by rw [hs]; rfl
  have inv : EndInv p' := by
    refine ⟨phase ▸ hi.inOrder, fun ho => ?_, ?_, fun _ => by rw [hs], ?_⟩
    · have settled := hi.settled (hopen ▸ ho)
      refine ⟨fun hp => .inr ?_, fun hp => ?_, fun he hn => ?_⟩
      · rcases settled.ended (phase ▸ hp) with he | hn
        · rw [ending] at he
          cases he
        · exact hsession.trans hn
      · have := settled.left (phase ▸ hp)
        rw [ending] at this
        cases this
      · rw [hl] at he
        rw [hsession] at hn
        simp [hn] at he
    · rw [hl]
      intro he
      exact (Bool.and_eq_true_iff.1 he).1
    · rw [hl]
      intro hr
      rcases hk with he | ⟨hc, -⟩
      · exact he
      · have hr : isReporting p.2.command = true := hr
        rw [hc] at hr
        cases hr
  refine ⟨⟨inv, fun u hu => ?_⟩, ?_⟩
  · cases u with
    | request =>
      refine ⟨hopen, by rw [hl], fun hn => hsession.trans hn, fun hc => ⟨phase, ?_⟩⟩
      rcases hc with hr | ⟨hn, -⟩
      · exact .inl (by rw [hl]; exact hr)
      · exact .inr ⟨hsession.trans hn, by rw [hl]; simp [hn]⟩
    | callback => exact absurd rfl hu
    | _ => trivial
  · refine callback_safe id event threads current p.1.session (fun he => ?_) ?_
    · rcases hk with h | ⟨-, h | h⟩
      · cases event with
        | exitProcess => cases h
        | _ => cases he
      · rw [he] at h
        cases h
      · exact h
    · refine ⟨by rw [hs], by rw [hl]; rfl, ?_⟩
      cases he : event.ends with
      | false =>
        have hstage : (startView event p.1.session).stage = .watching := by simp [startView, he]
        rw [hstage]
        exact show p'.2.ends = false by rw [hl]; exact he
      | true =>
        cases hsome : p.1.session with
        | none =>
          have hstage : (startView event none).stage = .gone := by simp [startView, he]
          rw [hstage]
          refine ⟨hsession.trans hsome, by rw [hl]; exact he, fun ho hp => ?_⟩
          have := (hi.settled (hopen ▸ ho)).left (phase ▸ hp)
          rw [ending] at this
          cases this
        | some id =>
          have hstage : (startView event (some id)).stage = .alive := by simp [startView, he]
          rw [hstage]
          refine ⟨fun _ => by rw [hl]; simp [he, hsome], fun ho => phase.trans ?_⟩
          have ho := hopen ▸ ho
          exact hi.alive ending (hi.not_ended ending hsome ho) ho

theorem start_valid (hi : EndInv p) (h : endSystem.start t j p p') :
    endOutline.Keeps t p p' ∧ endOutline.Safe endSystem t j j.body p' := by
  obtain ⟨⟨hs, hl⟩, hk⟩ := h
  have hs : startJob t j p.1 = some p'.1 := hs
  have ht := startJob_thread hs
  subst ht
  -- a start that writes nothing the end depends on
  have silent (pump : Option SessionId) (mode : Mode) (hs : p'.1 = { p.1 with pump, mode })
      (hl : p'.2 = p.2) (hj : j.permit = {}) (ht : j.thread ≠ .callback) :
      endOutline.Keeps j.thread p p' ∧ endOutline.Safe endSystem j.thread j j.body p' := by
    have same : SameEnd p.1 p'.1 := by rw [hs]; exact ⟨rfl, rfl, rfl, rfl⟩
    exact ⟨same.keeps hl hi, silent_safe (hj ▸ Job.body_permitted ht) ht p'⟩
  cases j with
  | request root =>
    simp only [startJob, Job.thread, Option.ite_none_right_eq_some, Option.some.injEq] at hs
    exact start_request hi hs.2.symm hl hk
  | teardown =>
    simp only [startJob, Job.thread, Option.ite_none_left_eq_some, Option.some.injEq] at hs
    have hs := hs.2.symm
    have hl : p'.2 = p.2 := hl
    have phase : p'.1.endPhase = p.1.endPhase := by rw [hs]; rfl
    have closed : p'.1.outboundOpen = false := by rw [hs]
    refine ⟨⟨⟨phase ▸ hi.inOrder, fun ho => ?_, hl ▸ hi.ending, ?_, hl ▸ hi.reporting⟩,
      fun u hu => ?_⟩, teardown_safe closed⟩
    · rw [closed] at ho
      cases ho
    · rw [hl, hs]
      exact hi.active
    · cases u with
      | request => exact absurd rfl hu
      | callback =>
        refine ⟨fun ho => ?_, by rw [hs], by rw [hl], by rw [hl], fun _ => phase, fun _ hn => ?_⟩
        · rw [closed] at ho
          cases ho
        · rw [hs]
          exact hn
      | _ => trivial
  | loopCondition id | loopBody id | loopEnd =>
    simp only [startJob, Job.thread, Option.ite_none_right_eq_some, Option.some.injEq] at hs
    exact silent p.1.pump p.1.mode hs.2.symm hl rfl (by rintro ⟨⟩)
  | pump id =>
    simp only [startJob, Job.thread, Option.ite_none_right_eq_some, Option.some.injEq] at hs
    exact silent none p.1.mode hs.2.symm hl rfl (by rintro ⟨⟩)
  | callback id event threads current =>
    obtain ⟨hreport, hs⟩ := startJob_callback hs
    simp only [mayReport, Bool.and_eq_true, Bool.not_eq_true'] at hreport
    exact start_callback hi hreport.1.1 hs hl hk

theorem finish_valid {r : Except Exn Bool} (hi : EndInv p) (hp : endOutline.post t j r p)
    (h : endSystem.finish t j r p p') : endOutline.Keeps t p p' := by
  obtain ⟨⟨hf, hl⟩, -⟩ := h
  have hf : finishJob j r p.1 = some p'.1 := hf
  obtain ⟨rfl, hb⟩ := hp
  by_cases hc : j.thread = .callback
  · cases j with
    | callback id event threads current =>
      have hs := finishJob_callback hf
      have hl : p'.2 = { p.2 with ends := false, ending := false } := hl
      have phase : p'.1.endPhase = p.1.endPhase := by rw [hs]; rfl
      have hopen : p'.1.outboundOpen = p.1.outboundOpen := by rw [hs]
      have hsession : p'.1.session = p.1.session := by rw [hs]
      have done := hb rfl
      refine ⟨⟨phase ▸ hi.inOrder, fun ho => ?_, ?_, ?_, ?_⟩, fun u hu => ?_⟩
      · have ho := hopen ▸ ho
        have settled := hi.settled ho
        refine ⟨fun hphase => .inr ?_, fun hphase => ?_, fun he => ?_⟩
        · rw [hsession]
          rw [phase] at hphase
          rcases settled.ended hphase with he | hn
          · exact (done (hi.ending he)).1
          · exact hn
        · rw [phase] at hphase
          exact absurd hphase ((done (hi.ending (settled.left hphase))).2 ho)
        · rw [hl] at he
          cases he
      · rw [hl]
        nofun
      · rw [hl]
        nofun
      · rw [hl]
        exact fun _ => rfl
      · cases u with
        | request =>
          refine ⟨hopen, by rw [hl], fun hn => hsession.trans hn, fun hcalm => ⟨phase, ?_⟩⟩
          rcases hcalm with hr | ⟨hn, -⟩
          · exact .inl (by rw [hl]; exact hr)
          · exact .inr ⟨hsession.trans hn, by rw [hl]⟩
        | callback => exact absurd rfl hu
        | _ => trivial
    | _ => cases hc
  · obtain ⟨mode, loop, hs⟩ := finishJob_of_ne hc hf
    have same : SameEnd p.1 p'.1 := by rw [hs]; exact ⟨rfl, rfl, rfl, rfl⟩
    cases j with
    | request root =>
      have hl : p'.2 = { p.2 with command := "" } := hl
      refine ⟨⟨same.phase ▸ hi.inOrder, fun ho => ?_, ?_, ?_, ?_⟩, fun u hu => ?_⟩
      · have settled := hi.settled (same.outboundOpen ▸ ho)
        refine ⟨?_, ?_, ?_⟩ <;> rw [same.phase, hl]
        · rw [same.session]
          exact settled.ended
        · exact settled.left
        · rw [same.session]
          exact settled.gone
      · rw [hl]
        exact hi.ending
      · rw [hl, same.callbackActive]
        exact hi.active
      · rw [hl]
        nofun
      · cases u with
        | request => exact absurd rfl hu
        | callback =>
          exact ⟨fun ho => same.outboundOpen ▸ ho, same.callbackActive, by rw [hl], by rw [hl],
            fun _ => same.phase, fun _ hn => same.session.trans hn⟩
        | _ => trivial
    | callback => exact absurd rfl hc
    | _ => exact same.keeps hl hi

theorem outline_valid (fullPath : String → String) :
    endOutline.Valid endSystem ({ fullPath }, {}) where
  init := ⟨nofun, fun _ => ⟨nofun, nofun, nofun⟩, nofun, nofun, nofun⟩
  start hi h := start_valid hi h
  finish hi hp h := finish_valid hi hp h

end Endings

/-- **The end of a session.**  In every run in which no session ends twice and none ends under a
request that is about to report, the client gets at most one exit and at most one end, the exit
first, and no report after the end. -/
theorem ends_in_order {fullPath : String → String} {ls : List Lab}
    {c : Config Tid DapOp Job Exn Bool (Server × EndLog)}
    (hr : endSystem.Run (.init ({ fullPath }, {})) ls c) : EndsInOrder c.state.1.sent :=
  endsInOrder_of_phase (Outline.sound (Endings.outline_valid fullPath) hr).inOrder

theorem endSystem_eq : (endMachine.guarded keepsEnd).system = endSystem := by
  rw [Machine.guarded_system, endMachine, Machine.instrument_system]
  rfl

/-- The process exits, and the client disconnects. -/
def exitAndDisconnect : Schedule :=
  Schedule.launchAndPark ++ Schedule.report (.exitProcess 7) ++
    Schedule.leave .loop ++ Schedule.serve (Schedule.message 3 "disconnect")

/-- The process exits, and the client asks to terminate it. -/
def exitAndTerminate : Schedule :=
  Schedule.launchAndPark ++ Schedule.report (.exitProcess 7) ++
    Schedule.serve (Schedule.message 3 "terminate")

/-- A disconnect after the exit reports nothing more. -/
theorem disconnect_after_exit : ∃ (ls : List Lab)
    (c : Config Tid DapOp Job Exn Bool (Server × EndLog)),
      endSystem.Run (.init ({}, {})) ls c ∧ c.state.1.mode = .exiting ∧
        (∃ m ∈ c.state.1.sent, m.isTerminated = true) ∧ EndsInOrder c.state.1.sent := by
  have hrun : ((endMachine.guarded keepsEnd).exec exitAndDisconnect (.init ({}, {}))).any
      (fun c => c.state.1.mode == .exiting && c.state.1.sent.any Message.isTerminated) = true := by
    decide +kernel
  obtain ⟨c, hc, ht⟩ := (Option.any_eq_true _ _).1 hrun
  obtain ⟨ls, hr⟩ := Machine.exec_run hc
  rw [endSystem_eq] at hr
  simp only [Bool.and_eq_true, beq_iff_eq, List.any_eq_true] at ht
  exact ⟨ls, c, hr, ht.1, ht.2, @ends_in_order id ls c hr⟩

/-- A terminate request after the exit reports the end again. -/
theorem terminate_ends_twice : ¬∀ c, Reachable {} c → EndsInOrder c.state.sent := by
  intro hall
  obtain ⟨c, hc, -, ht⟩ := reachable_of_exec exitAndTerminate
    (fun c => c.state.sent.countP Message.isTerminated == 2) (by decide +kernel)
  have once := (hall c hc).terminated
  rw [beq_iff_eq.1 ht] at once
  exact absurd once (by decide)

end DapDbgeng
