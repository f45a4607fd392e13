/-
  The jobs of the threads take turns.

  * `Orderly.takesTurns`: orderly programs keep a thread where it stands;
  * `*_safe`: so every job begins and ends as it should;
  * `turns_valid`: and what is demanded of the threads holds throughout every run.
-/
import DapDbgeng.InboundMessages
import DapDbgeng.Turns

namespace DapDbgeng

open Concurrent Concurrent.Prog Control

section

variable {t : Tid} {side : Side}

theorem Orderly.takesTurns {L : Licence} {α : Type} {p : Dap α} (h : Orderly L side p)
    (hc : side = .caller → t = .request) (hf : Fits side t) : TakesTurns side t p := by
  have modify {side : Side} (hf : Fits side t) (f : Tables → Tables) :
      TakesTurns side t (DapDbgeng.modifyTables f) :=
    .still hf trivial fun _ hi h => h.unqueued hf hi
  induction h with
  | ret a => exact .ret a
  | throw e => exact .throw e
  | bind _ _ ihp ihf => exact .bind (ihp hc hf) fun a => ihf a hc hf
  | catching _ _ ihp ihh => exact .catching (ihp hc hf) fun e => ihh e hc hf
  | perform ho => exact .plain hf ho
  | pumpCall id _ hp => exact .pumpCall hf id hp
  | dispatch ht _ ih => exact .invoke ht hf (ih (by rintro ⟨⟩) hf)
  | suppressed _ ih => exact .suppressed hf (ih hc hf)
  | joinLoop =>
    obtain rfl := hc rfl
    exact .joinLoop
  | startLoop id =>
    obtain rfl := hc rfl
    exact .startLoop id
  | handleInitialize request =>
    have send (m : Message) : TakesTurns .caller t (DapDbgeng.send m) :=
      .still hf trivial fun _ hi h => h.unqueued hf hi
    exact .bind (.plain hf trivial) fun _ => .ite (send _) <| .bind (send _) fun _ =>
      .bind (.store hf (by rintro ⟨⟩) _) fun _ => send _
  | clearConditions _ =>
    exact .bind (modify hf _) fun _ => modify hf _
  | recordConditions _ path configured requested =>
    exact Server.updateConditionalBreakpointState_composed
      (Q := fun {_} p => TakesTurns .caller t p) (.ret _) (fun hp hf => .bind hp hf)
      (.plain hf trivial) fun f _ => modify hf f
  | destroy id ht => exact .destroy id hf ht
  | markKernel _ _ id => exact .bind (.settle id hf not_false) fun _ => .settle id hf not_false
  | byKind _ _ ihp ihq =>
    refine .bind (.plain hf trivial) fun s => ?_
    split
    · exact ihp hc hf
    · exact ihq hc hf
  | leaveTarget _ => exact .leaveTarget _ hf
  | killTarget id _ => exact .bind (.pumpCall hf id rfl) fun _ => .settle id hf not_false

/-! ## Jobs -/

/-- From where a job starts it is safe. -/
theorem safe_of {j : Job} {K : Control → Prop} {s : Server} (hs : K s.control)
    (hstable : ∀ {c c'}, K c → Rely t c c' → K c')
    (hbody : ∀ s : Server, K s.control → j.body.wp (turns.spec adapter.system t j)
      (fun b s => Ended t j (.ok b) s.control) (fun e s => Ended t j (.error e) s.control) s) :
    turns.Safe adapter.system t j j.body s :=
  fun s' hr _ => hbody s' (hstable hs hr)

theorem sem_mode {β : Type} {o : DapOp β} {b : β} {s s' : Server} (h : sem t β o s b s') :
    s'.mode = s.mode := by
  cases o with
  | call id c =>
    obtain ⟨_, _, -, -, rfl⟩ := sem_call h
    rfl
  | leave id c =>
    obtain ⟨-, -, _, _, -, rfl⟩ := sem_leave h
    rfl
  | enter id c =>
    obtain ⟨_, -, -, -, rfl⟩ := sem_enter.1 h
    rfl
  | acquire =>
    obtain ⟨_, -, -, rfl⟩ := sem_acquire.1 h
    rfl
  | lockGate =>
    obtain ⟨-, rfl⟩ := sem_lockGate.1 h
    rfl
  | joinLoop =>
    obtain ⟨-, rfl⟩ := sem_joinLoop.1 h
    rfl
  | send m =>
    rw [sem_send.1 h]
    split <;> rfl
  | _ =>
    obtain ⟨_, h⟩ := h
    cases h
    rfl

open Server in
theorem request_safe (root : Json) {s : Server} (h : Standing .caller .request s.control)
    (hm : s.mode = .serving) :
    turns.Safe adapter.system .request (.request root) (handleRequest root) s := by
  refine safe_of (j := .request root)
    (K := fun c => Standing .caller .request c ∧ c.mode = .serving) ⟨h, hm⟩
    (fun hK hr => ⟨hK.1.rely (by rintro ⟨⟩) hr, (hr.request rfl).mode.trans hK.2⟩) fun s hK => ?_
  obtain ⟨h, hm⟩ := hK
  have orderly : Orderly _ .caller (handleRequest root) := handleRequest_orderly
  have turns := orderly.takesTurns (fun _ => rfl) (by rintro ⟨⟩) (.request root) s h
  have framed := Demands.wp_frame (L := fun s : Server => s.mode = .serving)
    (.of_forall (P := fun _ => True) (fun _ => trivial) (handleRequest root))
    (fun hm hr => (hr.request rfl).mode.trans hm)
    (fun _ _ _ _ _ hm hsem => (sem_mode hsem).trans hm) hm turns
  refine wp_mono_val (fun b s' h' => ?_) ((handleRequest_neverThrows root).wp framed)
  exact ⟨rfl, h'.1.1, h'.1.2, h'.2⟩

section

open Server

theorem teardown_neverThrows : teardown.NeverThrows := by
  have reset : resetAfterDispose.NeverThrows :=
    .bind (.perform _) fun _ => .bind (.perform _) fun _ => .bind (.perform _) fun _ =>
      .bind (.bind (.perform _) fun _ => .bind (.perform _) fun _ => .perform _) fun _ =>
        .bind (.perform _) fun _ => .bind (.perform _) fun _ =>
          .bind (.bind (.perform _) fun _ => .perform _) fun _ =>
            .bind (.bind (.perform _) fun _ => .perform _) fun _ => .bind (.perform _) fun _ =>
              .bind (.perform _) fun _ => .bind (.perform _) fun _ => .perform _
  refine .bind (.bind (.perform _) fun session => ?_) fun _ => joinWaitLoop_neverThrows
  cases session with
  | none => exact reset
  | some id => exact .bind (.catching _ fun _ => .ret _) fun _ => reset

theorem teardown_safe {s : Server} (h : Standing .caller .request s.control) :
    turns.Safe adapter.system .request .teardown (Job.body .teardown) s := by
  refine safe_of (K := Standing .caller .request) h (fun hK hr => hK.rely (by rintro ⟨⟩) hr)
    fun s hK => ?_
  have dispose : TakesTurns .caller .request (disposeDebuggerSession .request) :=
    (disposeDebuggerSession_orderly (L := {})).takesTurns (fun _ => rfl) (by rintro ⟨⟩)
  refine NeverThrows.wp (E := fun _ s => Standing .caller .request s.control)
    (.bind teardown_neverThrows fun _ => .ret _) ?_
  change (((disposeDebuggerSession .request).bind fun _ => joinWaitLoop).bind
    fun _ => .ret false).wp _ _ _ s
  rw [wp_bind, wp_bind]
  refine wp_mono (fun _ s' h' => ?_) (fun _ _ h' => ?_) (dispose _ s hK)
  · exact wp_mono (fun _ _ hj => ⟨rfl, hj⟩) (fun _ _ hj => ⟨hj.away, fun _ => hj.loop⟩)
      (TakesTurns.join h')
  · exact h'

theorem loopCondition_safe (id : SessionId) {s : Server} (h : Standing .caller .loop s.control) :
    turns.Safe adapter.system .loop (.loopCondition id) (waitLoopCondition id) s := by
  have hf : Fits .caller .loop := by rintro ⟨⟩
  refine safe_of (j := .loopCondition id) h (fun hK hr => hK.rely hf hr) fun s hK => ?_
  have turns : TakesTurns .caller .loop (waitLoopCondition id) :=
    .bind (.plain hf trivial) fun _ => .ite (.bind (.plain hf trivial) fun _ => .ret _) (.ret _)
  have quiet : (waitLoopCondition id).NeverThrows :=
    .bind (.perform _) fun _ => .ite (.bind (.perform _) fun _ => .ret _) (.ret _)
  exact wp_mono_val (fun _ _ h' => ⟨rfl, h'.1, h'.2⟩) (quiet.wp (turns _ s hK))

theorem loopBody_safe (id : SessionId) {s : Server} (h : Standing .caller .loop s.control) :
    turns.Safe adapter.system .loop (.loopBody id) (Job.body (.loopBody id)) s := by
  have hf : Fits .caller .loop := by rintro ⟨⟩
  have dispatched {α : Type} {p : Dap α} (hp : Orderly {} .dispatcher p) :
      TakesTurns .caller .loop (invoke .loop p) :=
    .invoke hf hf (hp.takesTurns (by rintro ⟨⟩) hf)
  refine safe_of h (fun hK hr => hK.rely hf hr) fun s hK => ?_
  have restore : TakesTurns .caller .loop (restoreSourceLineSteppingIfNeeded .loop id) :=
    .bind (.plain hf trivial) fun _ => .ite
      (.bind (.catching (dispatched (Session.enableSourceLineStepping_orderly id)) fun _ => .ret _)
        fun _ => .store hf (by rintro ⟨⟩) _) (.ret _)
  have turns : TakesTurns .caller .loop (Job.body (.loopBody id)) :=
    .bind (.bind (dispatched (Session.waitForEvent_orderly id)) fun _ =>
      .bind (.plain hf trivial) fun _ => .ite restore (.ret _)) fun _ => .ret _
  exact wp_mono (fun _ _ h' => h') (fun _ _ h' => h') (turns _ s hK)

theorem pump_safe (id : SessionId) {s : Server} (h : Uninvolved .pump s.control) :
    turns.Safe adapter.system .pump (.pump id) (Job.body (.pump id)) s := by
  have hf : Fits .caller .pump := by rintro ⟨⟩
  refine safe_of (K := Standing .caller .pump) ⟨h, trivial⟩ (fun hK hr => hK.rely hf hr)
    fun s hK => ?_
  have turns : TakesTurns .caller .pump (Job.body (.pump id)) :=
    .bind (.catching (.invoke hf hf ((Session.waitForEvent_orderly (L := {}) id).takesTurns
      (by rintro ⟨⟩) hf)) fun _ => .ret _) fun _ => .ret _
  have quiet : (Job.body (.pump id)).NeverThrows :=
    .bind (.catching _ fun _ => .ret _) fun _ => .ret _
  exact wp_mono_val (fun _ _ h' => ⟨rfl, h'.1⟩) (quiet.wp (turns _ s hK))

theorem callback_safe (id : SessionId) (event : Callback) (threads : List (Nat × Nat))
    (current : Nat) {s : Server} (h : s.callbackActive = true) :
    turns.Safe adapter.system .callback (.callback id event threads current)
      (Job.body (.callback id event threads current)) s := by
  refine safe_of (K := Standing .callback .callback) h (fun hK hr => hK.rely rfl hr) fun s hK => ?_
  have turns : TakesTurns .callback .callback (Job.body (.callback id event threads current)) :=
    .bind ((onCallback_orderly (L := { ends := True }) event fun _ => trivial).takesTurns
      (by rintro ⟨⟩) rfl) fun _ => .ret _
  exact wp_mono (fun _ _ h' => h') (fun _ _ h' => h') (turns _ s hK)

/-- Where the wait loop ends, it is left as announced until the gate is taken. -/
theorem loopEnd_safe {s : Server} (h : Standing .caller .loop s.control)
    (hl : s.loop = .leaving) :
    turns.Safe adapter.system .loop .loopEnd (Job.body .loopEnd) s := by
  have hf : Fits .caller .loop := by rintro ⟨⟩
  have leaving {c c' : Control} (hl : c.loop = .leaving) (hr : Rely .loop c c') :
      c'.loop = .leaving := ((hr.loop rfl).loop (by rw [hl]; rintro ⟨⟩)).trans hl
  refine safe_of (K := fun c => Standing .caller .loop c ∧ c.loop = .leaving) ⟨h, hl⟩
    (fun hK hr => ⟨hK.1.rely hf hr, leaving hK.2 hr⟩) fun s hK => ?_
  have quiet : (Job.body .loopEnd).NeverThrows :=
    .bind (.bind (drain_neverThrows _) fun _ => .bind (.perform _) fun _ => .bind (.perform _)
      fun _ => .bind (.perform _) fun _ => .perform _) fun _ => .ret _
  refine quiet.wp (E := fun _ s => Standing .caller .loop s.control ∧ s.loop = .leaving) ?_
  change (((drainPendingDisposedSession .loop).bind fun _ => (_ : Dap Unit)).bind
    fun _ => .ret false).wp _ _ _ s
  rw [wp_bind, wp_bind]
  refine wp_mono_val (fun _ s₁ h₁ => ?_) (TakesTurns.drain_frame hf hK.1
    (L := fun loop _ => loop = .leaving) hK.2 fun hL hr => leaving hL hr)
  obtain ⟨⟨ha₁, ho₁⟩, hl₁⟩ := h₁
  refine turns_op (K := fun _ c => Locked .loop c ∧ Own .loop c ∧ c.loop = .leaving)
    (fun _ => ⟨ha₁, .inr ⟨rfl, ho₁.2⟩⟩) (fun _ s' _ hs => ?_)
    (fun _ _ _ hK hr => ⟨hK.1.rely hr, hK.2.1.rely hr, leaving hK.2.2 hr⟩) fun _ s₂ h₂ => ?_
  · obtain ⟨-, rfl⟩ := sem_lockGate.1 hs
    exact ⟨⟨ha₁.queue, ha₁.holder, rfl⟩, ho₁, hl₁⟩
  obtain ⟨hg₂, ho₂, hl₂⟩ := h₂
  have retired {c c' : Control} (h : c.loop = .leaving ∧ c.waitLoopActive = false)
      (hr : Rely .loop c c') : c'.loop = .leaving ∧ c'.waitLoopActive = false :=
    ⟨leaving h.1 hr, ((hr.loop rfl).waitLoopActive (by rw [h.1]; rintro ⟨⟩)).trans h.2⟩
  refine turns_op (K := fun _ c => Locked .loop c ∧ c.loop = .leaving ∧ c.waitLoopActive = false)
    (fun _ => ⟨rfl, hg₂.queue, hg₂.gate, by rw [hl₂]; exact id⟩) (fun _ s' _ hs => ?_)
    (fun _ _ _ hK hr => ⟨hK.1.rely hr, retired hK.2 hr⟩) fun _ s₃ h₃ => ?_
  · rw [sem_store.1 hs]
    refine ⟨⟨hg₂.queue, hg₂.holder, hg₂.gate⟩, hl₂, ?_⟩
    exact (Server.setFlag_flags s₂ .waitLoopActive .waitLoopActive false).trans (if_pos rfl)
  obtain ⟨hg₃, hw₃⟩ := h₃
  have away {c c' : Control} (h : Uninvolved .loop c ∧ c.loop = .leaving ∧ c.waitLoopActive = false)
      (hr : Rely .loop c c') :
      Uninvolved .loop c' ∧ c'.loop = .leaving ∧ c'.waitLoopActive = false :=
    ⟨h.1.rely hr, retired h.2 hr⟩
  refine turns_op
    (K := fun _ c => Uninvolved .loop c ∧ c.loop = .leaving ∧ c.waitLoopActive = false)
    (fun _ => ⟨hg₃.queue, hg₃.gate, by rintro ⟨⟩⟩) (fun _ s' _ hs => ?_)
    (fun _ _ _ hK hr => away hK hr) fun _ s₄ h₄ => ?_
  · rw [sem_unlockGate.1 hs]
    exact ⟨⟨hg₃.queue, hg₃.holder, by rintro ⟨⟩⟩, hw₃⟩
  refine turns_op
    (K := fun _ c => Uninvolved .loop c ∧ c.loop = .leaving ∧ c.waitLoopActive = false)
    (fun _ => h₄.1.queue) (fun _ s' _ hs => ?_) (fun _ _ _ hK hr => away hK hr) fun _ s₅ h₅ => ?_
  · rw [sem_still (by rintro ⟨⟩) hs]
    exact h₄
  · exact ⟨rfl, h₅.1, by rw [h₅.2.1]; rintro ⟨⟩, h₅.2.2⟩

end

/-! ## Runs -/

theorem keeps_of_eq {t : Tid} {s s' : Server} (hi : s.control.Inv) (h : s'.control = s.control) :
    turns.Keeps t s s' := by
  refine ⟨?_, fun u _ => ?_⟩
  · change s'.control.Inv
    rw [h]
    exact hi
  · change Rely u s.control s'.control
    rw [h]
    exact .refl u _

theorem keeps_of_move {t : Tid} {s s' : Server} (hi : s.control.Inv)
    (h : Move t s.control s'.control) : turns.Keeps t s s' := ⟨h.inv hi, fun _ hu => h.rely hu⟩

theorem startJob_safe {t : Tid} {j : Job} {s s' : Server} (hi : s.control.Inv)
    (hrest : Resting t s.control) (h : Server.startJob t j s = some s') :
    turns.Keeps t s s' ∧ turns.Safe adapter.system t j j.body s' := by
  unfold Server.startJob at h
  split at h
  · -- a request
    rename_i root
    split at h
    · rename_i hc
      cases h
      exact ⟨keeps_of_eq hi rfl, request_safe root ⟨hrest.1, hrest.2.1⟩ hc.1⟩
    · cases h
  · -- the destructor
    split at h
    · cases h
    · cases h
      refine ⟨keeps_of_move hi (.mode .gone rfl), teardown_safe ⟨?_, hrest.2.1⟩⟩
      exact ⟨hrest.1.queue, hrest.1.holder, hrest.1.gate⟩
  · -- the condition of the wait loop
    rename_i id
    split at h
    · rename_i hl
      cases h
      have hl : s.control.loop ≠ .idle := by rw [show s.control.loop = .check id from hl]; rintro ⟨⟩
      exact ⟨keeps_of_eq hi rfl, loopCondition_safe id ⟨hrest.1, hl, hrest.2 hl⟩⟩
    · cases h
  · rename_i id
    split at h
    · rename_i hl
      cases h
      have hl : s.control.loop ≠ .idle := by rw [show s.control.loop = .body id from hl]; rintro ⟨⟩
      exact ⟨keeps_of_eq hi rfl, loopBody_safe id ⟨hrest.1, hl, hrest.2 hl⟩⟩
    · cases h
  · split at h
    · rename_i hl
      cases h
      have hl' : s.control.loop ≠ .idle := by
        rw [show s.control.loop = .leaving from hl]; rintro ⟨⟩
      exact ⟨keeps_of_eq hi rfl, loopEnd_safe ⟨hrest.1, hl', hrest.2 hl'⟩ hl⟩
    · cases h
  · -- an event of the engine
    rename_i id event threads current
    split at h
    · rename_i hm
      cases h
      have hcall : s.inCall.isSome = true := by
        cases hc : s.inCall with
        | none =>
          rw [Server.mayReport, hc] at hm
          simp at hm
        | some c => rfl
      exact ⟨keeps_of_move hi (.callback true rfl fun _ => hcall),
        callback_safe id event threads current rfl⟩
    · cases h
  · -- the detached wait
    rename_i id
    split at h
    · cases h
      exact ⟨keeps_of_eq hi rfl, pump_safe id hrest⟩
    · cases h
  · cases h

theorem finishJob_rests {t : Tid} {j : Job} {r : Except Exn Bool} {s s' : Server}
    (hi : s.control.Inv) (hpost : Ended t j r s.control)
    (h : Server.finishJob j r s = some s') :
    turns.Keeps t s s' ∧ Resting t s'.control := by
  -- the wait loop goes on to a phase before its end
  have advance {phase : LoopPhase} (hp : phase ≠ .idle) (ha : Uninvolved .loop s.control)
      (ho : Own .loop s.control) : turns.Keeps .loop s { s with loop := phase } ∧
        Resting .loop { s with loop := phase }.control :=
    ⟨keeps_of_move hi (.advance phase rfl ho.1 (fun _ => ho.2) fun h => absurd h hp),
      ⟨ha.queue, ha.holder, ha.gate⟩, fun _ => ho.2⟩
  cases j with
  | request root =>
    cases t with
    | request =>
      obtain ⟨-, ha, ho, hm⟩ := hpost
      cases r with
      | error e => cases h
      | ok exit =>
        cases exit with
        | false =>
          cases h
          exact ⟨keeps_of_eq hi rfl, ha, ho, fun h => by cases hm.symm.trans h⟩
        | true =>
          cases h
          exact ⟨keeps_of_move hi (.mode .exiting rfl), ⟨ha.queue, ha.holder, ha.gate⟩, ho,
            by rintro ⟨⟩⟩
    | _ => exact hpost.elim
  | teardown =>
    cases t with
    | request =>
      obtain ⟨-, hj⟩ := hpost
      cases r with
      | error e => cases h
      | ok =>
        cases h
        exact ⟨keeps_of_eq hi rfl, hj.away, fun _ => hj.loop, fun _ => ⟨hj.loop, hj.loopJoinable⟩⟩
    | _ => exact hpost.elim
  | loopCondition id =>
    cases t with
    | loop =>
      obtain ⟨-, ha, ho⟩ := hpost
      cases r with
      | error e => cases h
      | ok continues =>
        cases continues with
        | false => cases h; exact advance (by rintro ⟨⟩) ha ho
        | true => cases h; exact advance (by rintro ⟨⟩) ha ho
    | _ => exact hpost.elim
  | loopBody id =>
    cases t with
    | loop =>
      obtain ⟨ha, ho⟩ := hpost
      cases r with
      | error e => cases h; exact advance (by rintro ⟨⟩) ha ho
      | ok => cases h; exact advance (by rintro ⟨⟩) ha ho
    | _ => exact hpost.elim
  | loopEnd =>
    cases t with
    | loop =>
      obtain ⟨-, ha, hl, hw⟩ := hpost
      cases r with
      | error e => cases h
      | ok =>
        cases h
        refine ⟨keeps_of_move hi (.advance .idle rfl hl ?_ fun _ => hw),
          ⟨ha.queue, ha.holder, ha.gate⟩, fun h => absurd rfl h⟩
        exact fun h => h.elim
    | _ => exact hpost.elim
  | callback id event threads current =>
    cases t with
    | callback =>
      cases r with
      | error e => cases h
      | ok =>
        cases h
        exact ⟨keeps_of_move hi (.callback false rfl (by rintro ⟨⟩)), rfl⟩
    | _ => exact hpost.elim
  | pump id =>
    cases t with
    | pump =>
      cases r with
      | error e => cases h
      | ok => cases h; exact ⟨keeps_of_eq hi rfl, hpost.2⟩
    | _ => exact hpost.elim

theorem turns_valid (fullPath : String → String) :
    turns.Valid adapter.system { fullPath } where
  init := by
    constructor <;> simp [Server.control, Looping]
  rest t := by
    cases t with
    | request => exact ⟨⟨by rintro ⟨⟩, by rintro ⟨⟩, by rintro ⟨⟩⟩, fun _ => rfl, by rintro ⟨⟩⟩
    | loop => exact ⟨⟨by rintro ⟨⟩, by rintro ⟨⟩, by rintro ⟨⟩⟩, fun h => absurd rfl h⟩
    | callback => rfl
    | pump => exact ⟨by rintro ⟨⟩, by rintro ⟨⟩, by rintro ⟨⟩⟩
  start hi hrest h := startJob_safe hi hrest h
  finish hi hpost h := finishJob_rests hi hpost h

end

end DapDbgeng
