/-
  How the engine callbacks end a session.

  A callback reports an exit and then the end, or the end alone, and gives the session up; the others
  report stops and threads before any end.  Main results:

  * `callbackEnd_outline`: what a callback establishes of its view holds under the outline;
  * `onCallback_ends`: every callback keeps to its view.
-/
import DapDbgeng.EndPhase

namespace DapDbgeng

open Concurrent Concurrent.Prog

/-! ## Views -/

/-- How far a callback has come with the end. -/
inductive EndStage where
  /-- Of no end. -/
  | watching
  /-- Nothing about the end has been sent. -/
  | alive
  | left
  | done
  /-- There is no session any more. -/
  | gone
  deriving DecidableEq

structure CallbackView where
  ends : Bool
  stage : EndStage

def EndStage.Holds : EndStage → Server × EndLog → Prop
  | .watching, p => p.2.ends = false
  | .alive, p => (p.2.ends = true → p.2.ending = true) ∧
    (p.1.outboundOpen = true → p.1.endPhase = .alive)
  | .left, p => p.2.ending = true ∧ (p.1.outboundOpen = true → p.1.endPhase = .left)
  | .done, p => p.2.ending = true ∧ (p.1.outboundOpen = true → p.1.endPhase = .ended)
  | .gone, p => p.1.session = none ∧ p.2.ends = true ∧
    (p.1.outboundOpen = true → p.1.endPhase ≠ .left)

structure CallbackView.Sees (v : CallbackView) (p : Server × EndLog) : Prop where
  active : p.1.callbackActive = true
  ends : p.2.ends = v.ends
  stage : v.stage.Holds p

theorem EndStage.Holds.rely {stage : EndStage} {p p' : Server × EndLog} (h : stage.Holds p)
    (ha : p.1.callbackActive = true) (hr : CallbackRely p p') : stage.Holds p' := by
  have phase := hr.phase ha
  cases stage with
  | watching => exact hr.ends.trans h
  | alive =>
    exact ⟨fun he => hr.ending.trans (h.1 (hr.ends ▸ he)),
      fun ho => phase.trans (h.2 (hr.outboundOpen ho))⟩
  | left | done =>
    exact ⟨hr.ending.trans h.1, fun ho => phase.trans (h.2 (hr.outboundOpen ho))⟩
  | gone =>
    obtain ⟨hs, he, hp⟩ := h
    exact ⟨hr.session he hs, hr.ends.trans he, fun ho => phase ▸ hp (hr.outboundOpen ho)⟩

theorem CallbackView.Sees.rely {v : CallbackView} {p p' : Server × EndLog} (h : v.Sees p)
    (hr : CallbackRely p p') : v.Sees p' :=
  ⟨hr.callbackActive.trans h.active, hr.ends.trans h.ends, h.stage.rely h.active hr⟩

/-- The view of a callback that finds no session, and of one that finds one or a recorded stop. -/
def CallbackView.onNone (v : CallbackView) : CallbackView :=
  if v.ends && v.stage = .alive then { v with stage := .gone } else v

def CallbackView.onSome (v : CallbackView) : CallbackView :=
  if v.ends then v else { v with stage := .alive }

/-- What a callback may report, and its view afterwards. -/
def CallbackView.reports (v : CallbackView) : Event → Option CallbackView
  | .exited _ => if v.ends && v.stage = .alive then some { v with stage := .left } else none
  | .terminated =>
    if v.ends && (v.stage = .alive || v.stage = .left) then some { v with stage := .done }
    else none
  | e => if !e.isReport || v.stage = .alive then some v else none

def callbackEndPre : ∀ {β : Type}, DapOp β → (β → CallbackView → Prop) → CallbackView → Prop
  | _, .session => fun K v => K none v.onNone ∧ (v.stage ≠ .gone → ∀ id, K (some id) v.onSome)
  | _, .takePending => fun K v => K none v ∧ ∀ p, K (some p) v.onSome
  | _, .takeSession => fun K v =>
    (v.stage = .done ∨ v.stage = .gone) ∧ ∀ r, K r { v with stage := .gone }
  | _, .setSession none => fun K v => v.stage = .gone ∧ K () v
  | _, .setSession (some _) => fun _ _ => False
  | _, .send (.event e) => fun K v => ∃ v', v.reports e = some v' ∧ K () v'
  | _, _ => fun K v => ∀ b, K b v

def callbackEndSpec : Spec DapOp CallbackView where
  pre := callbackEndPre
  mono o K K' hK v h := by
    cases o with
    | session => exact ⟨hK _ _ h.1, fun hg id => hK _ _ (h.2 hg id)⟩
    | takePending => exact ⟨hK _ _ h.1, fun p => hK _ _ (h.2 p)⟩
    | takeSession => exact ⟨h.1, fun r => hK _ _ (h.2 r)⟩
    | setSession session => cases session with
      | none => exact ⟨h.1, hK _ _ h.2⟩
      | some id => exact h
    | send m => cases m with
      | response r => exact fun b => hK _ _ (h b)
      | event e =>
        obtain ⟨v', hv, hk⟩ := h
        exact ⟨v', hv, hK _ _ hk⟩
    | _ => exact fun b => hK _ _ (h b)

section

variable {p p' : Server × EndLog} {v : CallbackView}

/-- A callback that reports the exit or the end. -/
theorem callback_ends {m : Message} (hi : EndInv p) (hl : p'.2 = p.2)
    (hs : p'.1 = if p.1.outboundOpen then { p.1 with sent := p.1.sent ++ [m] } else p.1)
    (hending : p.2.ending = true)
    (hnext : p.1.outboundOpen = true → p.1.endPhase.next m = .left ∨ p.1.endPhase.next m = .ended)
    (hleft : p.1.outboundOpen = true → p.1.endPhase.next m = .left → p.1.session ≠ none) :
    endOutline.Keeps .callback p p' := by
  have hphase := endPhase_send hs
  have hopen : p'.1.outboundOpen = p.1.outboundOpen := by rw [hs]; split <;> rfl
  have hsession : p'.1.session = p.1.session := by rw [hs]; split <;> rfl
  have hactive : p'.1.callbackActive = p.1.callbackActive := by rw [hs]; split <;> rfl
  have inv : EndInv p' := by
    refine ⟨?_, fun ho => ?_, hl ▸ hi.ending, ?_, hl ▸ hi.reporting⟩
    · rw [hphase]
      split
      · rename_i ho
        rcases hnext ho with h | h <;> rw [h] <;> decide
      · exact hi.inOrder
    · rw [hopen] at ho
      rw [if_pos ho] at hphase
      refine ⟨fun _ => .inl (hl ▸ hending), fun _ => hl ▸ hending, fun _ hn => ?_⟩
      rcases hnext ho with h | h
      · rw [hsession] at hn
        exact absurd hn (hleft ho h)
      · exact hphase.trans h
    · rw [hl, hactive]
      exact hi.active
  refine ⟨inv, fun u hu => ?_⟩
  cases u with
  | request =>
    exact ⟨hopen, by rw [hl], fun h => hsession.trans h, fun hc => absurd hc (hi.not_endCalm hending)⟩
  | callback => exact absurd rfl hu
  | _ => trivial

theorem CallbackView.Sees.same (hv : v.Sees p) (hs : SameEnd p.1 p'.1) (hl : p'.2 = p.2) :
    v.Sees p' := hv.rely (hs.rely hl .callback)

/-- What a callback learns from a session, or from a stop recorded before the end. -/
theorem CallbackView.Sees.onSome (hv : v.Sees p) (hi : EndInv p)
    (hp : v.ends = false → p.1.outboundOpen = true → p.1.endPhase ≠ .ended) : v.onSome.Sees p := by
  unfold CallbackView.onSome
  split
  · exact hv
  · rename_i he
    have ends : v.ends = false := by simpa using he
    have quiet : p.2.ends = false := hv.ends.trans ends
    refine ⟨hv.active, hv.ends, fun h => ?_, fun ho => ?_⟩
    · rw [quiet] at h
      cases h
    · exact hi.alive (hi.not_ending quiet) (hp ends ho) ho

theorem CallbackView.Sees.onNone (hv : v.Sees p) (hs : p.1.session = none) :
    v.onNone.Sees p := by
  unfold CallbackView.onNone
  split
  · rename_i h
    simp only [Bool.and_eq_true, decide_eq_true_eq] at h
    have hstage := hv.stage
    rw [h.2] at hstage
    have ends : p.2.ends = true := hv.ends.trans h.1
    refine ⟨hv.active, hv.ends, hs, ends, fun ho => ?_⟩
    rw [hstage.2 ho]
    decide
  · exact hv

theorem callback_session {r : Option SessionId} (hv : v.Sees p) (hi : EndInv p)
    (h : EndStep .callback .session r p p') {K : Option SessionId → CallbackView → Prop}
    (hw : callbackEndPre .session K v) : ∃ v' : CallbackView, v'.Sees p' ∧ K r v' := by
  obtain ⟨rfl, hs⟩ := sem_session.1 h.sem
  have same : SameEnd p.1 p'.1 := sem_sameEnd rfl h.sem
  have hl := h.log
  cases hsession : p.1.session with
  | none => exact ⟨_, (hv.onNone hsession).same same hl, hw.1⟩
  | some id =>
    have stage : v.stage ≠ .gone := by
      intro hg
      have hstage := hv.stage
      rw [hg] at hstage
      rw [hstage.1] at hsession
      cases hsession
    have learnt : v.onSome.Sees p := hv.onSome hi fun ends ho =>
      hi.not_ended (hi.not_ending (hv.ends.trans ends)) hsession ho
    exact ⟨_, learnt.same same hl, hw.2 stage id⟩

theorem callback_takePending {r : Option PendingStoppedEvent} (hv : v.Sees p) (hi : EndInv p)
    (h : EndStep .callback .takePending r p p')
    {K : Option PendingStoppedEvent → CallbackView → Prop}
    (hw : callbackEndPre .takePending K v) : ∃ v' : CallbackView, v'.Sees p' ∧ K r v' := by
  have same : SameEnd p.1 p'.1 := sem_sameEnd rfl h.sem
  have hl := h.log
  cases r with
  | none => exact ⟨v, hv.same same hl, hw.1⟩
  | some pending =>
    have hk : (p.1.endPhase != .ended) = true := h.keeps
    have learnt : v.onSome.Sees p := hv.onSome hi fun _ _ => by simpa using hk
    exact ⟨_, learnt.same same hl, hw.2 pending⟩

theorem callback_send {e : Event} (hv : v.Sees p) (hi : EndInv p)
    {u : Unit} (h : EndStep .callback (.send (.event e)) u p p') {v' : CallbackView}
    (hr : v.reports e = some v') : endOutline.Keeps .callback p p' ∧ v'.Sees p' := by
  have hs := sem_send.1 h.sem
  have hl := h.log
  have hstage := hv.stage
  have plain (hnext : p.1.outboundOpen = true → p.1.endPhase.next (.event e) = p.1.endPhase)
      (he : v' = v) : endOutline.Keeps .callback p p' ∧ v'.Sees p' := by
    subst he
    have same := sameEnd_send hs hnext
    exact ⟨same.keeps hl hi, hv.same same hl⟩
  have sees (stage : EndStage) (hends : p.2.ending = true) (hholds : stage.Holds p')
      (hv' : v' = { v with stage }) : v'.Sees p' := by
    subst hv'
    refine ⟨?_, (by rw [hl]; exact hv.ends), hholds⟩
    rw [hs]
    split <;> exact hv.active
  have hopen : p'.1.outboundOpen = p.1.outboundOpen := by rw [hs]; split <;> rfl
  have phase := endPhase_send hs
  cases e with
  | exited code =>
    simp only [CallbackView.reports, Option.ite_none_right_eq_some, Bool.and_eq_true,
      decide_eq_true_eq, Option.some.injEq] at hr
    obtain ⟨⟨hends, hst⟩, rfl⟩ := hr
    rw [hst] at hstage
    obtain ⟨hending, halive⟩ := hstage
    have ending : p.2.ending = true := hending (hv.ends.trans hends)
    have next (ho : p.1.outboundOpen = true) :
        p.1.endPhase.next (.event (.exited code)) = .left := by
      rw [halive ho]; rfl
    refine ⟨callback_ends hi hl hs ending (fun ho => .inl (next ho)) fun ho _ hn => ?_, ?_⟩
    · have := (hi.settled ho).gone ending hn
      rw [halive ho] at this
      cases this
    · refine sees .left ending ⟨hl ▸ ending, fun ho => ?_⟩ rfl
      rw [hopen] at ho
      rw [phase, if_pos ho]
      exact next ho
  | terminated =>
    simp only [CallbackView.reports, Option.ite_none_right_eq_some, Bool.and_eq_true,
      Bool.or_eq_true, decide_eq_true_eq, Option.some.injEq] at hr
    obtain ⟨⟨hends, hst⟩, rfl⟩ := hr
    have known : p.2.ending = true ∧ (p.1.outboundOpen = true →
        p.1.endPhase.next (.event .terminated) = .ended) := by
      rcases hst with hst | hst <;> rw [hst] at hstage
      · exact ⟨hstage.1 (hv.ends.trans hends), fun ho => by rw [hstage.2 ho]; rfl⟩
      · exact ⟨hstage.1, fun ho => by rw [hstage.2 ho]; rfl⟩
    obtain ⟨ending, next⟩ := known
    refine ⟨callback_ends hi hl hs ending (fun ho => .inr (next ho)) fun ho hleft => ?_, ?_⟩
    · rw [next ho] at hleft
      cases hleft
    · refine sees .done ending ⟨hl ▸ ending, fun ho => ?_⟩ rfl
      rw [hopen] at ho
      rw [phase, if_pos ho]
      exact next ho
  | initialized | output | process =>
    simp only [CallbackView.reports, Event.isReport, Bool.not_false, Bool.true_or, ↓reduceIte,
      Option.some.injEq] at hr
    exact plain (fun _ => EndPhase.next_silent rfl) hr.symm
  | stopped | continued | thread =>
    simp only [CallbackView.reports, Event.isReport, Bool.not_true, Bool.false_or,
      decide_eq_true_eq, Option.ite_none_right_eq_some, Option.some.injEq] at hr
    obtain ⟨hst, he⟩ := hr
    rw [hst] at hstage
    refine plain (fun ho => ?_) he.symm
    rw [hstage.2 ho]
    rfl

/-- Clearing the session pointer again. -/
theorem callback_clearSession (hv : v.Sees p) (hs : p'.1 = { p.1 with session := none })
    (hstage : v.stage = .gone) : SameEnd p.1 p'.1 := by
  have hgone := hv.stage
  rw [hstage] at hgone
  have gone : p'.1.session = p.1.session := by rw [hs, hgone.1]
  exact ⟨by rw [hs]; rfl, gone, by rw [hs], by rw [hs]⟩

theorem callback_takeSession {r : Option SessionId} (hv : v.Sees p) (hi : EndInv p)
    (h : EndStep .callback .takeSession r p p') (hstage : v.stage = .done ∨ v.stage = .gone) :
    endOutline.Keeps .callback p p' ∧ ({ v with stage := .gone } : CallbackView).Sees p' := by
  obtain ⟨-, hs⟩ := sem_takeSession.1 h.sem
  have hl := h.log
  have hdone := hv.stage
  rcases hstage with hstage | hstage
  on_goal 2 =>
    have same := callback_clearSession hv hs hstage
    have unchanged : ({ v with stage := .gone } : CallbackView) = v := by rw [← hstage]
    exact ⟨same.keeps hl hi, unchanged ▸ hv.same same hl⟩
  rw [hstage] at hdone
  obtain ⟨ending, hended⟩ := hdone
  have phase : p'.1.endPhase = p.1.endPhase := by rw [hs]; rfl
  have hopen : p'.1.outboundOpen = p.1.outboundOpen := by rw [hs]
  have gone : p'.1.session = none := by rw [hs]
  have inv : EndInv p' := by
    refine ⟨phase ▸ hi.inOrder, fun ho => ?_, hl ▸ hi.ending, ?_, hl ▸ hi.reporting⟩
    · have ended := phase.trans (hended (hopen ▸ ho))
      exact ⟨fun _ => .inr gone, fun _ => hl ▸ ending, fun _ _ => ended⟩
    · rw [hl, hs]
      exact hi.active
  refine ⟨⟨inv, fun u hu => ?_⟩, ?_, hl ▸ hv.ends, gone, hl ▸ hi.ending ending, fun ho => ?_⟩
  · cases u with
    | request => exact ⟨hopen, by rw [hl], fun _ => gone, fun hc => absurd hc (hi.not_endCalm ending)⟩
    | callback => exact absurd rfl hu
    | _ => trivial
  · rw [hs]
    exact hv.active
  · rw [phase, hended (hopen ▸ ho)]
    decide

theorem callbackEnd_step {β : Type} (o : DapOp β) {K : β → CallbackView → Prop} {b : β}
    (hv : v.Sees p) (hw : callbackEndSpec.pre o K v) (hi : EndInv p)
    (h : EndStep .callback o b p p') :
    endOutline.Keeps .callback p p' ∧ ∃ v' : CallbackView, v'.Sees p' ∧ K b v' := by
  have plain (ho : o.bearsOnEnd = false) : endOutline.Keeps .callback p p' ∧ v.Sees p' := by
    have same := sem_sameEnd ho h.sem
    exact ⟨same.keeps h.log hi, hv.same same h.log⟩
  cases o with
  | session => exact ⟨(plain rfl).1, callback_session hv hi h hw⟩
  | takePending => exact ⟨(plain rfl).1, callback_takePending hv hi h hw⟩
  | takeSession =>
    obtain ⟨hk, hv'⟩ := callback_takeSession hv hi h hw.1
    exact ⟨hk, _, hv', hw.2 b⟩
  | setSession session => cases session with
    | none =>
      have same := callback_clearSession hv (sem_setSession.1 h.sem) hw.1
      exact ⟨same.keeps h.log hi, v, hv.same same h.log, hw.2⟩
    | some id => exact hw.elim
  | send m => cases m with
    | response r => exact ⟨(plain rfl).1, v, (plain rfl).2, hw b⟩
    | event e =>
      obtain ⟨v', hr, hk⟩ := hw
      obtain ⟨hkeeps, hv'⟩ := callback_send hv hi h hr
      exact ⟨hkeeps, v', hv', hk⟩
  | _ => exact ⟨(plain rfl).1, v, (plain rfl).2, hw b⟩

/-- What a callback establishes of its view holds under the outline. -/
theorem callbackEnd_outline {β : Type} (o : DapOp β) {K : β → CallbackView → Prop}
    (hv : v.Sees p) (hw : callbackEndSpec.pre o K v) :
    (endOutline.spec endSystem .callback).pre o
      (fun b p' => ∃ v' : CallbackView, v'.Sees p' ∧ K b v') p := by
  intro b p' hi h
  obtain ⟨hk, v', hv', hK⟩ := callbackEnd_step o hv hw hi (endStep_of_sem h)
  exact ⟨hk, fun p'' hr _ => ⟨v', hv'.rely hr, hK⟩⟩

end

/-! ### The callbacks -/

namespace Server

/-! ## The callbacks that end nothing -/

/-- Of no end, and, where `known`, before any. -/
def Watching (known : Prop) (v : CallbackView) : Prop :=
  v.ends = false ∧ (known → v.stage = .alive)

theorem Watching.onSome {known : Prop} {v : CallbackView} (h : Watching known v) :
    Watching True v.onSome := by
  have he := h.1
  exact ⟨by simp [CallbackView.onSome, he], fun _ => by simp [CallbackView.onSome, he]⟩

theorem Watching.onNone {known : Prop} {v : CallbackView} (h : Watching known v) :
    Watching known v.onNone := by
  have same : v.onNone = v := by simp [CallbackView.onNone, h.1]
  rw [same]
  exact h

theorem Watching.weaken {known : Prop} {v : CallbackView} (h : Watching True v) :
    Watching known v := ⟨h.1, fun _ => h.2 trivial⟩

theorem reports_alive {v : CallbackView} {e : Event} (hs : v.stage = .alive)
    (he : ∀ code, e ≠ .exited code) (ht : e ≠ .terminated) : v.reports e = some v := by
  cases e with
  | exited code => exact absurd rfl (he code)
  | terminated => exact absurd rfl ht
  | _ => simp [CallbackView.reports, hs]

theorem reports_silent {v : CallbackView} {e : Event} (h : e.isReport = false) :
    v.reports e = some v := by
  cases e <;> first | rfl | cases h

theorem watching_of_silent {known : Prop} {β : Type} {o : DapOp β} (ho : o.bearsOnEnd = false)
    {v : CallbackView} (hv : Watching known v) :
    callbackEndSpec.pre o (fun _ => Watching known) v := by
  cases o with
  | session => exact ⟨hv.onNone, fun _ _ => hv.onSome.weaken⟩
  | takePending => exact ⟨hv, fun _ => hv.onSome.weaken⟩
  | takeSession | setSession => cases ho
  | send m => cases m with
    | response r => exact fun _ => hv
    | event e => exact ⟨v, reports_silent ho, hv⟩
  | _ => exact fun _ => hv

/-- A program that bears on no end keeps what a callback knows. -/
theorem watching_of_allOps {α : Type} {p : Dap α} (hp : AllOps (fun o => o.bearsOnEnd = false) p)
    {known : Prop} {v : CallbackView} (hv : Watching known v) :
    p.wp callbackEndSpec (fun _ => Watching known) (fun _ => Watching known) v :=
  wp_of_allOps (fun _ ho _ hv => watching_of_silent ho hv) hp hv

theorem silent_of_quiet {α : Type} {p : Dap α} (h : Quiet p) :
    AllOps (fun o => o.bearsOnEnd = false) p := by
  refine h.mono fun {β} o ho => ?_
  cases o with
  | send m => cases m with
    | response r => rfl
    | event e => cases e <;> first | rfl | exact ho.elim
  | setSession | takeSession => exact ho.elim
  | _ => rfl

theorem silent_of_unreporting {α : Type} {p : Dap α} (h : AllOps DapOp.unreporting p) :
    AllOps (fun o => o.bearsOnEnd = false) p := by
  refine h.mono fun {β} o ho => ?_
  cases o with
  | send m => exact ho
  | setSession | takeSession => exact ho.elim
  | _ => rfl

/-- A callback that finds a thread has found a session. -/
theorem tryGetCurrentThreadId_ends {known : Prop} {v : CallbackView} (hv : Watching known v)
    {E : Exn → CallbackView → Prop} : (tryGetCurrentThreadId .callback).wp callbackEndSpec
      (fun threadId => Watching (known ∨ threadId.isSome = true)) E v := by
  have absent : Watching (known ∨ (none : Option Int).isSome = true) v.onNone :=
    ⟨hv.onNone.1, fun h => hv.onNone.2 (h.resolve_right nofun)⟩
  refine ⟨absent, fun _ id => ?_⟩
  have found : Watching True v.onSome := hv.onSome
  have lookup := watching_of_allOps (silent_of_quiet (Session.getCurrentThreadId_quiet id))
    found
  change (Prog.catching (Prog.bind (DapDbgeng.invoke .callback (Session.getCurrentThreadId id)) _)
    _).wp _ _ _ v.onSome
  rw [wp_catching, wp_bind, invoke_callback]
  exact wp_mono (fun _ _ hv' => hv'.weaken) (fun _ _ hv' => hv'.weaken) lookup

theorem sendEvent_alive (e : Event) {v : CallbackView} (hv : Watching True v)
    (he : ∀ code, e ≠ .exited code) (ht : e ≠ .terminated) {E : Exn → CallbackView → Prop} :
    (sendEvent e).wp callbackEndSpec (fun _ => Watching True) E v :=
  ⟨v, reports_alive (hv.2 trivial) he ht, hv⟩

theorem queueThreadEvent_ends (reason : ThreadEventBodyReason) {v : CallbackView}
    (hv : Watching False v) {E : Exn → CallbackView → Prop} :
    (queueThreadEvent reason).wp callbackEndSpec (fun _ => Watching False) E v := by
  rw [queueThreadEvent, bind_eq, wp_bind]
  refine wp_mono_val (fun threadId v' hv' => ?_) (tryGetCurrentThreadId_ends hv)
  cases threadId with
  | none => exact ⟨hv'.1, False.elim⟩
  | some threadId =>
    have known : Watching True v' := ⟨hv'.1, fun _ => hv'.2 (.inr rfl)⟩
    have queue (held : Bool) : (if held then Prog.perform (.pushThreadEvent { reason, threadId })
        else sendThreadEvent { reason, threadId } : Dap Unit).wp callbackEndSpec
        (fun _ => Watching False) E v' := by
      cases held with
      | true => exact fun _ => known.weaken
      | false =>
        have sent : (sendEvent (.thread reason threadId)).wp callbackEndSpec
            (fun _ => Watching True) E v' :=
          sendEvent_alive (.thread reason threadId) known (by rintro _ ⟨⟩) (by rintro ⟨⟩)
        exact wp_mono_val (fun _ _ h => h.weaken) sent
    intro running
    cases running with
    | true => exact queue true
    | false => exact fun held => queue held

/-- Thread events leave the view of a callback that has sent nothing of the end. -/
theorem flushPendingThreadEvents_ends {v : CallbackView} (hs : v.stage = .alive)
    {E : Exn → CallbackView → Prop} :
    flushPendingThreadEvents.wp callbackEndSpec (fun _ v' => v' = v) E v := by
  intro events
  have each : ∀ e ∈ events, ∀ v', v' = v →
      (sendThreadEvent e).wp callbackEndSpec (fun _ v' => v' = v) E v' := by
    rintro e - v' rfl
    exact ⟨_, reports_alive (e := .thread e.reason e.threadId) hs (fun _ => nofun) nofun, rfl⟩
  exact wp_forEach each rfl

theorem onBreakHit_ends {v : CallbackView} (hv : Watching False v)
    {E : Exn → CallbackView → Prop} :
    onBreakHit.wp callbackEndSpec (fun _ => Watching False) E v := by
  have report (p : PendingStoppedEvent) {v : CallbackView} (hv : Watching True v) : (do
      flushPendingThreadEvents
      let threadId ← tryGetCurrentThreadId .callback
      sendEvent (Factory.createStoppedEvent p.reason p.description threadId p.hitBreakpointIds)).wp
      callbackEndSpec (fun _ => Watching False) E v := by
    rw [bind_eq, wp_bind]
    refine wp_mono_val (fun _ v' hv' => ?_) (flushPendingThreadEvents_ends (hv.2 trivial))
    subst hv'
    rw [bind_eq, wp_bind]
    refine wp_mono_val (fun threadId v' hv' => ?_) (tryGetCurrentThreadId_ends hv)
    have known : Watching True v' := ⟨hv'.1, fun _ => hv'.2 (.inl trivial)⟩
    have sent : (sendEvent (Factory.createStoppedEvent p.reason p.description threadId
        p.hitBreakpointIds)).wp callbackEndSpec (fun _ => Watching True) E v' :=
      sendEvent_alive (Factory.createStoppedEvent p.reason p.description threadId
        p.hitBreakpointIds) known (fun _ => nofun) nofun
    exact wp_mono_val (fun _ _ h => h.weaken) sent
  intro skip
  cases skip with
  | true => exact fun _ => hv
  | false =>
    intro _ _
    refine ⟨fun suppressed => ?_, fun p suppressed => ?_⟩
    · cases suppressed <;> exact hv
    · cases suppressed with
      | true => exact hv.onSome.weaken
      | false => exact report p hv.onSome

/-! ## The callbacks that end the session -/

/-- A callback that ends a session has nothing left to do, or there is none. -/
def Over (v : CallbackView) : Prop := v.ends = true ∧ v.stage = .gone

/-- What is left after the session pointer has been cleared. -/
theorem over_of_allOps {α : Type} {p : Dap α}
    (hp : Permitted { replaces := True } p) {v : CallbackView} (hv : Over v) :
    p.wp callbackEndSpec (fun _ => Over) (fun _ => Over) v := by
  refine wp_of_allOps (fun {β} o ho v hv => ?_) hp hv
  obtain ⟨he, hs⟩ := hv
  have none_ : v.onNone = v := by simp [CallbackView.onNone, hs]
  have some_ : v.onSome = v := by simp [CallbackView.onSome, he]
  have isOver : Over v := ⟨he, hs⟩
  cases o with
  | session => exact ⟨none_.symm ▸ isOver, fun hg => absurd hs hg⟩
  | takePending => exact ho.elim
  | takeSession => exact ⟨.inr hs, fun _ => ⟨he, rfl⟩⟩
  | setSession session => cases session with
    | none => exact ⟨hs, isOver⟩
    | some id => exact ho.elim
  | send m => cases m with
    | response r => exact fun _ => isOver
    | event e =>
      have silent : e.isReport = false := by simpa [Permit.allows] using ho
      exact ⟨v, reports_silent silent, isOver⟩
  | _ => exact fun _ => isOver

theorem finish_ends {v : CallbackView} (he : v.ends = true)
    (hs : v.stage = .alive ∨ v.stage = .left) : (do
      sendEvent .terminated
      disposeDebuggerSession .callback
      store .shouldExit true).wp callbackEndSpec (fun _ => Over) (fun _ => Over) v := by
  have rest (p : Dap Unit) (hp : Permitted { replaces := True } p) : (do
      (do
        p
        resetAfterDispose)
      store .shouldExit true : Dap Unit).wp callbackEndSpec (fun _ => Over) (fun _ => Over)
      { v with stage := .gone } := by
    have permitted : Permitted { replaces := True } (do
        (do
          p
          resetAfterDispose)
        store .shouldExit true : Dap Unit) :=
      .bind (.bind hp fun _ => resetAfterDispose_permitted trivial) fun _ => .perform trivial
    exact over_of_allOps permitted ⟨he, rfl⟩
  have report : v.reports .terminated = some { v with stage := .done } := by
    simp [CallbackView.reports, he, hs]
  refine ⟨_, report, .inl rfl, fun session => ?_⟩
  cases session with
  | none => exact rest (pure ()) trivial
  | some id =>
    -- parking is not for other threads, so it stands outside the permit
    intro old
    cases old with
    | none => exact rest (pure ()) trivial
    | some old => exact rest (Session.destroy .callback old) (destroy_permitted .callback old)

theorem queueSessionTermination_ends (exitCode : Int) {v : CallbackView} (he : v.ends = true)
    (hs : v.stage = .alive) :
    (queueSessionTermination exitCode).wp callbackEndSpec (fun _ => Over) (fun _ => Over) v := by
  have rest : (do
      flushPendingThreadEvents
      sendEvent (.exited exitCode)
      sendEvent .terminated
      disposeDebuggerSession .callback
      store .shouldExit true).wp callbackEndSpec (fun _ => Over) (fun _ => Over) v := by
    rw [bind_eq, wp_bind]
    refine wp_mono_val (fun _ v' hv' => ?_) (flushPendingThreadEvents_ends hs)
    subst hv'
    have report : v'.reports (.exited exitCode) = some { v' with stage := .left } := by
      simp [CallbackView.reports, he, hs]
    have finished := finish_ends (v := { v' with stage := .left }) he (.inr rfl)
    exact ⟨_, report, finished⟩
  exact fun _ _ => rest

theorem queueSessionEnded_ends {v : CallbackView} (he : v.ends = true)
    (hs : v.stage = .alive ∨ v.stage = .gone) :
    queueSessionEnded.wp callbackEndSpec (fun _ => Over) (fun _ => Over) v := by
  have isOver : Over v.onNone := by
    rcases hs with hs | hs <;> exact ⟨by simp [CallbackView.onNone, he, hs],
      by simp [CallbackView.onNone, he, hs]⟩
  refine fun _ _ => ⟨isOver, fun hg id => ?_⟩
  have some_ : v.onSome = v := by simp [CallbackView.onSome, he]
  rw [some_]
  have alive : v.stage = .alive := hs.resolve_right hg
  have rest : (do
      flushPendingThreadEvents
      sendEvent .terminated
      disposeDebuggerSession .callback
      store .shouldExit true).wp callbackEndSpec (fun _ => Over) (fun _ => Over) v := by
    rw [bind_eq, wp_bind]
    refine wp_mono_val (fun _ v' hv' => ?_) (flushPendingThreadEvents_ends alive)
    subst hv'
    exact finish_ends he (.inl alive)
  exact rest

/-- How a callback begins. -/
def startView (event : Callback) (session : Option SessionId) : CallbackView where
  ends := event.ends
  stage := if event.ends then (if session.isSome then .alive else .gone) else .watching

/-- A callback ends nothing, or has done so by its end. -/
def CallbackOver (v : CallbackView) : Prop := v.ends = true → v.stage = .gone

theorem onCallback_ends (id : SessionId) (event : Callback) (session : Option SessionId)
    (hexit : event.isExit = true → session.isSome = true) :
    (onCallback id event).wp callbackEndSpec (fun _ => CallbackOver) (fun _ => CallbackOver)
      (startView event session) := by
  have watching {v : CallbackView} (h : Watching False v) : CallbackOver v := by
    intro he
    rw [h.1] at he
    cases he
  have isOver {v : CallbackView} (h : Over v) : CallbackOver v := fun _ => h.2
  have start (he : event.ends = false) : Watching False (startView event session) :=
    ⟨he, nofun⟩
  have ended (he : event.ends = true) :
      (startView event session).stage = .alive ∨ (startView event session).stage = .gone := by
    cases session <;> simp [startView, he]
  have none_ (hr : event.reports = false) (he : event.ends = false) :
      (onCallback id event).wp callbackEndSpec (fun _ => CallbackOver) (fun _ => CallbackOver)
        (startView event session) :=
    wp_mono (fun _ _ => watching) (fun _ _ => watching)
      (watching_of_allOps (silent_of_unreporting (onCallback_unreporting id hr)) (start he))
  cases event with
  | break_ => exact wp_mono_val (fun _ _ => watching) (onBreakHit_ends (start rfl))
  | createThread =>
    exact wp_mono_val (fun _ _ => watching) (queueThreadEvent_ends .started (start rfl))
  | exitThread =>
    exact wp_mono_val (fun _ _ => watching) (queueThreadEvent_ends .exited (start rfl))
  | noDebuggee | sessionEnd =>
    exact wp_mono (fun _ _ => isOver) (fun _ _ => isOver) (queueSessionEnded_ends rfl (ended rfl))
  | exitProcess exitCode =>
    have alive : (startView (.exitProcess exitCode) session).stage = .alive := by
      simp [startView, Callback.ends, hexit rfl]
    exact wp_mono (fun _ _ => isOver) (fun _ _ => isOver) (queueSessionTermination_ends _ rfl alive)
  | _ => exact none_ rfl rfl

end Server

end DapDbgeng
