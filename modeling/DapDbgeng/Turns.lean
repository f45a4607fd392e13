/-
  The threads take turns, along every run.

  * `turns`: what always holds, what each operation needs, and what holds of an idle thread;
  * `TakesTurns`: a program that keeps a thread where it stands and needs nothing it does not have.
-/
import DapDbgeng.Concurrent.Demands
import DapDbgeng.OrderlyRequests
import DapDbgeng.ThreadControl

namespace DapDbgeng

open Concurrent Concurrent.Prog

namespace Control

variable {t : Tid} {c c' : Control}

/-! ## Where a thread stands -/

/-- What a thread knows of the wait loop while it does not hold the gate. -/
def Own : Tid → Control → Prop
  | .request, c => c.loopJoinable = false → c.loop = .idle
  | .loop, c => c.loop ≠ .idle ∧ c.waitLoopActive = true
  | _, _ => True

theorem Own.congr (h : Own t c) (hj : c'.loopJoinable = c.loopJoinable) (hl : c'.loop = c.loop)
    (hw : c'.waitLoopActive = c.waitLoopActive) : Own t c' := by
  cases t with
  | request => exact fun h' => hl.trans (h (hj ▸ h'))
  | loop => exact ⟨hl ▸ h.1, hw.trans h.2⟩
  | callback | pump => trivial

theorem Own.rely (h : Own t c) (hr : Rely t c c') : Own t c' := by
  cases t with
  | request =>
    have hr := hr.request rfl
    exact fun hj => hr.idle (h (hr.loopJoinable ▸ hj))
  | loop =>
    have hr := hr.loop rfl
    exact ⟨by rw [hr.loop h.1]; exact h.1, by rw [hr.waitLoopActive h.1]; exact h.2⟩
  | callback | pump => trivial

theorem Uninvolved.rely (h : Uninvolved t c) (hr : Rely t c c') : Uninvolved t c' where
  queue := mt hr.queue.1 h.queue
  holder := mt hr.holder.1 h.holder
  gate := mt hr.gate.1 h.gate

/-- Waiting for the dispatcher. -/
structure Queued (t : Tid) (c : Control) : Prop where
  queue : t ∈ c.queue
  holder : c.holder ≠ some t
  gate : c.gate ≠ some t
  own : Own t c

theorem Queued.rely (h : Queued t c) (hr : Rely t c c') : Queued t c' where
  queue := hr.queue.2 h.queue
  holder := mt hr.holder.1 h.holder
  gate := mt hr.gate.1 h.gate
  own := h.own.rely hr

/-- Served by the dispatcher, inside the given call. -/
structure Served (t : Tid) (call : Option (SessionId × Call.Pump)) (c : Control) : Prop where
  queue : t ∉ c.queue
  holder : c.holder = some t
  inCall : c.inCall = call
  gate : c.gate ≠ some t
  own : Own t c

theorem Served.rely {call : Option (SessionId × Call.Pump)} (h : Served t call c)
    (hr : Rely t c c') : Served t call c' where
  queue := mt hr.queue.1 h.queue
  holder := hr.holder.2 h.holder
  inCall := (hr.inCall h.holder).trans h.inCall
  gate := mt hr.gate.1 h.gate
  own := h.own.rely hr

/-- Holding the gate. -/
structure Locked (t : Tid) (c : Control) : Prop where
  queue : t ∉ c.queue
  holder : c.holder ≠ some t
  gate : c.gate = some t

theorem Locked.rely (h : Locked t c) (hr : Rely t c c') : Locked t c' where
  queue := mt hr.queue.1 h.queue
  holder := mt hr.holder.1 h.holder
  gate := hr.gate.2 h.gate

/-- A wait loop that is announced is there. -/
def Announced (c : Control) : Prop := c.waitLoopActive = true → c.loop ≠ .idle

theorem Announced.rely (h : Announced c) (hl : Locked .request c) (hr : Rely .request c c') :
    Announced c' := by
  intro hw
  have hr := hr.request rfl
  exact hr.busy (h (hr.gated hl.gate ▸ hw)) hw

/-- No wait loop is left. -/
structure Joined (c : Control) : Prop where
  away : Uninvolved .request c
  loop : c.loop = .idle
  loopJoinable : c.loopJoinable = false

theorem Joined.rely (h : Joined c) (hr : Rely .request c c') : Joined c' where
  away := h.away.rely hr
  loop := (hr.request rfl).idle h.loop
  loopJoinable := (hr.request rfl).loopJoinable.trans h.loopJoinable

/-- Where a thread stands while it runs a program of one of the sides. -/
def Standing : Side → Tid → Control → Prop
  | .caller, t, c => Uninvolved t c ∧ Own t c
  | .dispatcher, t, c => Served t none c
  | .callback, _, c => c.callbackActive = true

/-- The threads that run programs of a side. -/
def Fits : Side → Tid → Prop
  | .callback, t => t = .callback
  | _, t => t ≠ .callback

theorem Standing.rely {side : Side} (hf : Fits side t) (h : Standing side t c)
    (hr : Rely t c c') : Standing side t c' := by
  cases side with
  | caller => exact ⟨h.1.rely hr, h.2.rely hr⟩
  | dispatcher => exact Served.rely h hr
  | callback => exact (hr.active hf).trans h

theorem Standing.unqueued {side : Side} (hf : Fits side t) (hi : c.Inv) (h : Standing side t c) :
    t ∉ c.queue := by
  cases side with
  | caller => exact h.1.queue
  | dispatcher => exact Served.queue h
  | callback =>
    obtain rfl : t = .callback := hf
    exact hi.queued

theorem Standing.serves {side : Side} [hs : side.OnThread] (hf : Fits side t)
    (h : Standing side t c) : Serves t c := by
  cases side with
  | caller => exact absurd rfl hs.ne_caller
  | dispatcher =>
    rw [Serves, if_neg hf]
    exact ⟨Served.holder h, Served.inCall h⟩
  | callback =>
    obtain rfl : t = .callback := hf
    rw [Serves, if_pos rfl]
    exact h

/-- What holds of an idle thread. -/
def Resting (t : Tid) (c : Control) : Prop :=
  match t with
  | .request => Uninvolved .request c ∧ Own .request c ∧
      (c.mode = .gone → c.loop = .idle ∧ c.loopJoinable = false)
  | .loop => Uninvolved .loop c ∧ (c.loop ≠ .idle → c.waitLoopActive = true)
  | .callback => c.callbackActive = false
  | .pump => Uninvolved .pump c

theorem Resting.rely (h : Resting t c) (hr : Rely t c c') : Resting t c' := by
  cases t with
  | request =>
    obtain ⟨ha, ho, hg⟩ := h
    refine ⟨ha.rely hr, ho.rely hr, fun hm => ?_⟩
    have hr := hr.request rfl
    obtain ⟨hl, hj⟩ := hg (hr.mode ▸ hm)
    exact ⟨hr.idle hl, hr.loopJoinable.trans hj⟩
  | loop =>
    obtain ⟨ha, hw⟩ := h
    refine ⟨ha.rely hr, fun hl => ?_⟩
    have hr := hr.loop rfl
    by_cases hc : c.loop = .idle
    · exact hr.begun hc hl
    · exact (hr.waitLoopActive hc).trans (hw hc)
  | callback => exact (hr.active rfl).trans h
  | pump => exact Uninvolved.rely h hr

/-- Where a job may end: in an exception only in a callback and in the body of the wait loop. -/
def Ended : Tid → Job → Except Exn Bool → Control → Prop
  | .request, .request _, r, c => r.isOk = true ∧ Uninvolved .request c ∧ Own .request c ∧
      c.mode = .serving
  | .request, .teardown, r, c => r.isOk = true ∧ Joined c
  | .loop, .loopCondition _, r, c => r.isOk = true ∧ Uninvolved .loop c ∧ Own .loop c
  | .loop, .loopBody _, _, c => Uninvolved .loop c ∧ Own .loop c
  | .loop, .loopEnd, r, c => r.isOk = true ∧ Uninvolved .loop c ∧ c.loop ≠ .idle ∧
      c.waitLoopActive = false
  | .callback, .callback .., _, c => c.callbackActive = true
  | .pump, .pump _, r, c => r.isOk = true ∧ Uninvolved .pump c
  | _, _, _, _ => False

end Control

open Control

/-- The threads take turns. -/
def turns : Demands Tid DapOp Job Exn Bool Server where
  Inv s := s.control.Inv
  rely t s s' := Rely t s.control s'.control
  post t j r s := Ended t j r s.control
  rely_refl t s := .refl t s.control
  rely_trans := .trans
  need t _ _ o s := o.need t s.control
  rest t s := Resting t s.control
  rest_rely h hr _ := h.rely hr

/-! ## One operation -/

section

variable {t : Tid} {j : Job} {side : Side}

/-- An operation that leads from one assertion to the next. -/
theorem turns_pre {β : Type} {o : DapOp β} {K : β → Control → Prop} {s : Server}
    (hneed : s.control.Inv → o.need t s.control)
    (hop : ∀ b s', s.control.Inv → sem t β o s b s' → K b s'.control)
    (hstable : ∀ b {c c'}, K b c → Rely t c c' → K b c') :
    (turns.spec adapter.system t j).pre o (fun b s => K b s.control) s := by
  refine Demands.pre_of hneed (fun b s' hi h => ?_) fun b _ _ hK hr _ => hstable b hK hr
  have hs : sem t β o s b s' := h
  refine ⟨?_, hop b s' hi hs⟩
  rcases sem_move (hneed hi) hs with heq | hmove
  · have hinv : s'.control.Inv := by rw [heq]; exact hi
    refine ⟨hinv, fun u _ => ?_⟩
    change Rely u s.control s'.control
    rw [heq]
    exact .refl u s.control
  · exact ⟨hmove.inv hi, fun u hu => hmove.rely hu⟩

/-- The same, with what comes after the operation. -/
theorem turns_op {α β : Type} {o : DapOp β} {k : β → Dap α} {K : β → Control → Prop}
    {Q : α → Server → Prop} {E : Exn → Server → Prop} {s : Server}
    (hneed : s.control.Inv → o.need t s.control)
    (hop : ∀ b s', s.control.Inv → sem t β o s b s' → K b s'.control)
    (hstable : ∀ b {c c'}, K b c → Rely t c c' → K b c')
    (hk : ∀ b s', K b s'.control → (k b).wp (turns.spec adapter.system t j) Q E s') :
    (Prog.op o k).wp (turns.spec adapter.system t j) Q E s :=
  (turns.spec adapter.system t j).mono o hk (turns_pre hneed hop hstable)

/-- An operation by which no thread waits for another leaves the thread where it stands. -/
theorem turns_still {β : Type} {o : DapOp β} (ho : o.still) (hf : Fits side t) {s : Server}
    (hneed : s.control.Inv → o.need t s.control) (h : Standing side t s.control) :
    (turns.spec adapter.system t j).pre o (fun _ s => Standing side t s.control) s :=
  turns_pre (K := fun _ c => Standing side t c) hneed
    (fun _ _ _ hs => (sem_still ho hs).symm ▸ h) fun _ _ _ hK hr => hK.rely hf hr

/-! ## Programs -/

/-- The program keeps a thread where it stands. -/
def TakesTurns (side : Side) (t : Tid) {α : Type} (p : Dap α) : Prop :=
  ∀ (j : Job) (s : Server), Standing side t s.control → p.wp (turns.spec adapter.system t j)
    (fun _ s => Standing side t s.control) (fun _ s => Standing side t s.control) s

namespace TakesTurns

variable {α β : Type}

theorem ret (a : α) : TakesTurns side t (.ret a : Dap α) := fun _ _ h => h

theorem throw (e : Exn) : TakesTurns side t (.throw e : Dap α) := fun _ _ h => h

theorem bind {p : Dap α} {f : α → Dap β} (hp : TakesTurns side t p)
    (hf : ∀ a, TakesTurns side t (f a)) : TakesTurns side t (p.bind f) := by
  intro j s h
  rw [wp_bind]
  exact wp_mono (fun a s' h' => hf a j s' h') (fun _ _ h' => h') (hp j s h)

theorem catching {p : Dap α} {f : Exn → Dap α} (hp : TakesTurns side t p)
    (hf : ∀ e, TakesTurns side t (f e)) : TakesTurns side t (p.catching f) := by
  intro j s h
  rw [wp_catching]
  exact wp_mono (fun _ _ h' => h') (fun e s' h' => hf e j s' h') (hp j s h)

theorem attempt {p : Dap α} (hp : TakesTurns side t p) : TakesTurns side t p.attempt := by
  intro j s h
  rw [wp_attempt]
  exact hp j s h

theorem ite {c : Prop} [Decidable c] {p q : Dap α} (hp : TakesTurns side t p)
    (hq : TakesTurns side t q) : TakesTurns side t (if c then p else q) := by
  split
  · exact hp
  · exact hq

theorem still {o : DapOp α} (hf : Fits side t) (ho : o.still)
    (hneed : ∀ c : Control, c.Inv → Standing side t c → o.need t c) :
    TakesTurns side t (Prog.perform o) :=
  fun _ s h => turns_still ho hf (fun hi => hneed s.control hi h) h

/-- A call on the dispatcher thread. -/
theorem call [side.OnThread] (hf : Fits side t) (id : SessionId) (c : Call α) :
    TakesTurns side t (DapDbgeng.call id c) :=
  still hf trivial fun _ hi h => ⟨h.unqueued hf hi, .inr (h.serves hf)⟩

theorem plain {o : DapOp α} (hf : Fits side t) (ho : o.plainOn side) :
    TakesTurns side t (Prog.perform o) := by
  refine still hf (DapOp.still_of_plainOn ho) fun c hi h => ?_
  have hq := h.unqueued hf hi
  cases o with
  | call id c =>
    refine ⟨hq, ?_⟩
    cases side with
    | caller => exact .inl (ho.2 rfl)
    | dispatcher | callback => exact .inr (h.serves hf)
  | store f v =>
    cases f with
    | waitLoopActive => exact ho.elim
    | _ => exact hq
  | updateSession id u =>
    cases u with
    | terminateDebuggeeOnDispose | isKernel => exact ho.elim
    | _ => exact hq
  | newSession =>
    obtain rfl : side = .dispatcher := ho
    exact ⟨hf, hq, h.serves hf⟩
  | enter | leave | enqueue | acquire | release => exact ho.elim
  | lockGate | unlockGate | takeLoop | joinLoop | spawnLoop | loopJoinable => exact ho.elim
  | _ => exact hq

/-- The engine runs its callbacks between the two ends of the call. -/
theorem pumpCall (ht : t ≠ .callback) (id : SessionId) {c : Call α}
    (hc : c.pump?.isSome = true) : TakesTurns .dispatcher t (DapDbgeng.pumpCall id c) := by
  obtain ⟨p, hp⟩ := Option.isSome_iff_exists.1 hc
  intro j s h
  have hs : Served t none s.control := h
  have hserves : Serves t s.control := by
    rw [Serves, if_neg ht]
    exact ⟨hs.holder, hs.inCall⟩
  refine turns_op (K := fun _ c => Served t (some (id, p)) c)
    (fun _ => ⟨ht, hs.queue, hc, hserves⟩) (fun u s' _ henter => ?_)
    (fun _ _ _ hK hr => hK.rely hr) fun u s' hs' => ?_
  · obtain ⟨p', hp', -, -, rfl⟩ := sem_enter.1 henter
    rw [hp] at hp'
    cases hp'
    exact ⟨hs.queue, hs.holder, rfl, hs.gate, hs.own.congr rfl rfl rfl⟩
  · refine turns_pre (K := fun _ c => Standing .dispatcher t c)
      (fun _ => ⟨ht, hs'.queue, hc, hs'.holder, ?_⟩) (fun b s'' _ hleave => ?_)
      (fun _ _ _ hK hr => hK.rely ht hr)
    · rw [hs'.inCall, hp]
      rfl
    · obtain ⟨-, -, created, after, -, rfl⟩ := sem_leave hleave
      exact ⟨hs'.queue, hs'.holder, rfl, hs'.gate, hs'.own.congr rfl rfl rfl⟩

/-- A function passed to the dispatcher. -/
theorem invoke {t' : Tid} (ht' : t' ≠ .callback) (ht : t ≠ .callback) {p : Dap α}
    (hp : TakesTurns .dispatcher t p) : TakesTurns .caller t (DapDbgeng.invoke t' p) := by
  intro j s h
  obtain ⟨ha, ho⟩ : Uninvolved t s.control ∧ Own t s.control := h
  rw [DapDbgeng.invoke, if_neg ht']
  refine turns_op (K := fun _ c => Queued t c) (fun _ => ⟨ht, ha.queue, ha.holder⟩)
    (fun _ s' _ hs => ?_) (fun _ _ _ hK hr => hK.rely hr) fun _ s₁ h₁ => ?_
  · rw [sem_enqueue.1 hs]
    exact ⟨List.mem_append_right _ (.head _), ha.holder, ha.gate, ho.congr rfl rfl rfl⟩
  refine turns_op (K := fun _ c => Served t none c) (fun _ => ⟨h₁.queue, h₁.holder⟩)
    (fun _ s' hi hs => ?_) (fun _ _ _ hK hr => hK.rely hr) fun _ s₂ h₂ => ?_
  · obtain ⟨rest, hq, hh, rfl⟩ := sem_acquire.1 hs
    refine ⟨?_, rfl, ?_, h₁.gate, h₁.own.congr rfl rfl rfl⟩
    · have hnodup : s₁.queue.Nodup := hi.nodup
      rw [hq] at hnodup
      exact (List.nodup_cons.1 hnodup).1
    · have hin := hi.inCall
      rw [show s₁.control.holder = none from hh] at hin
      exact Option.not_isSome_iff_eq_none.1 fun h => by cases hin h
  have after {rest : Dap α} (hrest : TakesTurns .caller t rest) (s₃ : Server)
      (h₃ : Served t none s₃.control) : (Prog.bind (.perform .release) fun _ => rest).wp
        (turns.spec adapter.system t j) (fun _ s => Standing .caller t s.control)
        (fun _ s => Standing .caller t s.control) s₃ := by
    refine turns_op (K := fun _ c => Standing .caller t c)
      (fun _ => ⟨ht, h₃.queue, ?_⟩) (fun _ s' _ hs => ?_) (fun _ _ _ hK hr => hK.rely ht hr)
      fun _ s₄ h₄ => ?_
    · rw [Serves, if_neg ht]
      exact ⟨h₃.holder, h₃.inCall⟩
    · rw [sem_release.1 hs]
      exact ⟨⟨h₃.queue, by rintro ⟨⟩, h₃.gate⟩, h₃.own.congr rfl rfl rfl⟩
    · exact hrest j s₄ h₄
  change (Prog.bind p.attempt _).wp _ _ _ s₂
  rw [wp_bind, wp_attempt]
  exact wp_mono (fun a s₃ h₃ => after (.ret a) s₃ h₃) (fun e s₃ h₃ => after (.throw _) s₃ h₃)
    (hp j s₂ h₂)

/-! ### The places where the threads meet -/

section

variable (id : SessionId)

theorem store {f : Flag} (hf : Fits side t) (h : f ≠ .waitLoopActive) (b : Bool) :
    TakesTurns side t (DapDbgeng.store f b) :=
  still hf h fun _ hi hs => by
    cases f with
    | waitLoopActive => exact absurd rfl h
    | _ => exact hs.unqueued hf hi

theorem updateSession {u : SessionUpdate} (hf : Fits side t) (hu : u.plain) :
    TakesTurns side t (DapDbgeng.updateSession id u) := plain hf hu

/-- What decides how a session ends is for the dispatcher alone. -/
theorem settle {u : SessionUpdate} (ht : t ≠ .callback) (hu : ¬u.plain) :
    TakesTurns .dispatcher t (DapDbgeng.updateSession id u) :=
  still ht trivial fun c _ h => by
    have serves : Serves t c := h.serves (by exact ht)
    cases u with
    | terminateDebuggeeOnDispose | isKernel => exact ⟨ht, Served.queue h, serves⟩
    | _ => exact absurd trivial hu

theorem suppressed {p : Dap α} (ht : t ≠ .callback) (hp : TakesTurns .caller t p) :
    TakesTurns .caller t (Server.runWithSuppressedSessionEvents p) := by
  have hf : Fits .caller t := ht
  have put (b : Bool) : TakesTurns .caller t (DapDbgeng.store .suppressSessionEvents b) :=
    store hf (by rintro ⟨⟩) b
  exact .bind (put true) fun _ => .bind (.catching hp fun _ => .bind (put false) fun _ => .throw _)
    fun _ => .bind (put false) fun _ => .ret _

theorem destroy [side.OnThread] {t' : Tid} (hf : Fits side t)
    (ht : t' = .callback ↔ side = .callback) : TakesTurns side t (Session.destroy t' id) := by
  have endSession : TakesTurns side t (Session.endSession t' id) := by
    unfold Session.endSession
    by_cases hside : side = .callback
    · rw [if_pos (ht.2 hside)]
      exact .call hf id _
    · rw [if_neg (mt ht.1 hside)]
      cases side with
      | caller => exact absurd rfl Side.OnThread.ne_caller
      | dispatcher => exact .pumpCall hf id rfl
      | callback => exact absurd rfl hside
  have disconnect : TakesTurns side t (Session.disconnectProcessServer id) :=
    .bind (.plain hf trivial) fun _ => .ite (.ret _)
      (.bind (.call hf id _) fun _ => .updateSession id hf trivial)
  have rest : TakesTurns side t (do
      Session.disconnectProcessServer id
      DapDbgeng.updateSession id .dispose) := .bind disconnect fun _ => .updateSession id hf trivial
  exact .bind (.plain hf trivial) fun _ => .ite (.ret _) <| .bind (.call hf id _) fun _ =>
    .ite (.bind endSession fun _ => rest) rest

theorem leaveTarget (ht : t ≠ .callback) : TakesTurns .dispatcher t (Session.leaveTarget id) := by
  have checkHr (r : Reply Unit) (message : String) :
      TakesTurns .dispatcher t (Session.checkHr r message) := by
    cases r
    · exact .throw _
    · exact .ret _
  exact .bind (.settle id ht not_false) fun _ =>
    .catching (.bind (.pumpCall ht id rfl) fun r => checkHr r _) fun _ =>
      .bind (.settle id ht not_false) fun _ => .throw _

theorem drain (ht : t ≠ .callback) :
    TakesTurns .caller t (Server.drainPendingDisposedSession t) := by
  have hf : Fits .caller t := ht
  refine .bind (.plain hf trivial) fun parked => ?_
  cases parked with
  | none => exact .ret _
  | some id =>
    refine .catching (.invoke ht ht (.destroy id ht ?_)) fun _ => .ret _
    exact iff_of_false ht (by rintro ⟨⟩)

end

/-- The request thread takes the gate. -/
theorem lock {k : Unit → Dap α} {Q : α → Server → Prop} {E : Exn → Server → Prop} {s : Server}
    (h : Standing .caller .request s.control)
    (hk : ∀ u s', Locked .request s'.control → Announced s'.control → Own .request s'.control →
      (k u).wp (turns.spec adapter.system .request j) Q E s') :
    (Prog.op .lockGate k).wp (turns.spec adapter.system .request j) Q E s := by
  obtain ⟨ha, ho⟩ : Uninvolved .request s.control ∧ Own .request s.control := h
  refine turns_op (K := fun _ c => Locked .request c ∧ Announced c ∧ Own .request c)
    (fun _ => ⟨ha, .inl rfl⟩) (fun _ s' hi hs => ?_)
    (fun _ _ _ hK hr => ⟨hK.1.rely hr, hK.2.1.rely hK.1 hr, hK.2.2.rely hr⟩)
    fun u s' hK => hk u s' hK.1 hK.2.1 hK.2.2
  obtain ⟨hg, rfl⟩ := sem_lockGate.1 hs
  have hg : s.control.gate = none := hg
  exact ⟨⟨ha.queue, ha.holder, rfl⟩, fun hw => hi.announced hw (by rw [hg]; rintro ⟨⟩),
    ho.congr rfl rfl rfl⟩

/-- Draining a parked session does not touch the wait loop. -/
theorem drain_frame (ht : t ≠ .callback) {s : Server} (h : Standing .caller t s.control)
    {L : LoopPhase → Bool → Prop} (hL : L s.loop s.loopJoinable)
    (hstable : ∀ {c c' : Control}, L c.loop c.loopJoinable → Rely t c c' →
      L c'.loop c'.loopJoinable) :
    (Server.drainPendingDisposedSession t).wp (turns.spec adapter.system t j)
      (fun _ s => Standing .caller t s.control ∧ L s.loop s.loopJoinable)
      (fun _ s => Standing .caller t s.control ∧ L s.loop s.loopJoinable) s := by
  have ops : AllOps (fun {β} o => ∀ {b s s'}, sem t β o s b s' →
      s'.loop = s.loop ∧ s'.loopJoinable = s.loopJoinable)
      (Server.drainPendingDisposedSession t) := by
    refine .bind (.perform fun hs => ?_) fun parked => ?_
    · obtain ⟨-, rfl⟩ := sem_unpark.1 hs
      exact ⟨rfl, rfl⟩
    · cases parked with
      | none => trivial
      | some id =>
        refine .catching ((invoke_quiet (Session.destroy_engaging id t)).mono ?_) fun _ => trivial
        exact fun o ho _ _ _ hs => ⟨(sem_quiet ho hs).loop, (sem_quiet ho hs).loopJoinable⟩
  exact Demands.wp_frame (M := adapter.system) (D := turns) (t := t) (j := j)
    (L := fun s : Server => L s.loop s.loopJoinable) ops (fun hL hr => hstable hL hr)
    (fun o _ _ _ ho hL hs => by rwa [(ho hs).1, (ho hs).2]) hL (drain ht j s h)

/-- After the join there is no wait loop. -/
theorem join {s : Server} (h : Standing .caller .request s.control) :
    Server.joinWaitLoop.wp (turns.spec adapter.system .request j)
      (fun _ s => Joined s.control) (fun _ s => Joined s.control) s := by
  refine lock h fun _ s₁ hl₁ hw₁ ho₁ => ?_
  refine turns_op (K := fun joinable c => Locked .request c ∧ Announced c ∧
      (joinable = false → c.loop = .idle) ∧ c.loopJoinable = false)
    (fun _ => ⟨rfl, hl₁.queue, hl₁.gate⟩) (fun _ s' _ hs => ?_)
    (fun _ _ _ hK hr => ⟨hK.1.rely hr, hK.2.1.rely hK.1 hr,
      fun h => (hr.request rfl).idle (hK.2.2.1 h), (hr.request rfl).loopJoinable.trans hK.2.2.2⟩)
    fun joinable s₂ hK => ?_
  · obtain ⟨rfl, rfl⟩ := sem_takeLoop.1 hs
    exact ⟨⟨hl₁.queue, hl₁.holder, hl₁.gate⟩, hw₁, ho₁, rfl⟩
  obtain ⟨hl₂, hw₂, hi₂, hj₂⟩ := hK
  refine turns_op (K := fun _ c => Uninvolved .request c ∧ (joinable = false → c.loop = .idle) ∧
      c.loopJoinable = false) (fun _ => ⟨hl₂.queue, hl₂.gate, fun _ => hw₂⟩) (fun _ s' _ hs => ?_)
    (fun _ _ _ hK hr => ⟨hK.1.rely hr, fun h => (hr.request rfl).idle (hK.2.1 h),
      (hr.request rfl).loopJoinable.trans hK.2.2⟩) fun _ s₃ hK => ?_
  · rw [sem_unlockGate.1 hs]
    exact ⟨⟨hl₂.queue, hl₂.holder, by rintro ⟨⟩⟩, hi₂, hj₂⟩
  obtain ⟨ha₃, hi₃, hj₃⟩ := hK
  have drained (s : Server) (h : Joined s.control) :
      (Server.drainPendingDisposedSession .request).wp (turns.spec adapter.system .request j)
        (fun _ s => Joined s.control) (fun _ s => Joined s.control) s := by
    have framed := drain_frame (t := .request) (j := j) (by rintro ⟨⟩) ⟨h.away, fun _ => h.loop⟩
      (L := fun loop joinable => loop = .idle ∧ joinable = false) ⟨h.loop, h.loopJoinable⟩
      fun hL hr => ⟨(hr.request rfl).idle hL.1, (hr.request rfl).loopJoinable.trans hL.2⟩
    exact wp_mono (fun _ _ h => ⟨h.1.1, h.2.1, h.2.2⟩) (fun _ _ h => ⟨h.1.1, h.2.1, h.2.2⟩) framed
  cases joinable with
  | false => exact drained s₃ ⟨ha₃, hi₃ rfl, hj₃⟩
  | true =>
    refine turns_op (K := fun _ c => Joined c)
      (fun _ => ⟨rfl, ha₃.queue, ha₃.holder, fun h => absurd h ha₃.gate⟩) (fun _ s' _ hs => ?_)
      (fun _ _ _ hK hr => hK.rely hr) fun _ s₄ h₄ => drained s₄ h₄
    obtain ⟨hloop, rfl⟩ := sem_joinLoop.1 hs
    exact ⟨⟨ha₃.queue, ha₃.holder, ha₃.gate⟩, hloop, rfl⟩

theorem joinLoop : TakesTurns .caller .request Server.joinWaitLoop := fun _ _ h =>
  wp_mono (fun _ _ h => ⟨h.away, fun _ => h.loop⟩) (fun _ _ h => ⟨h.away, fun _ => h.loop⟩) (join h)

/-- With the gate held and no wait loop left, one is started. -/
theorem spawnLoop (id : SessionId) {s : Server} (hl : Locked .request s.control)
    (hloop : s.control.loop = .idle) (hj : s.control.loopJoinable = false) :
    (do DapDbgeng.store .sessionStopOrExitObserved false
        DapDbgeng.store .waitLoopActive true
        .perform (.spawnLoop id)
        .perform .unlockGate : Dap Unit).wp (turns.spec adapter.system .request j)
      (fun _ s => Standing .caller .request s.control)
      (fun _ s => Standing .caller .request s.control) s := by
  have gone {c c' : Control} (h : Locked .request c ∧ c.loop = .idle ∧ c.loopJoinable = false)
      (hr : Rely .request c c') : Locked .request c' ∧ c'.loop = .idle ∧ c'.loopJoinable = false :=
    ⟨h.1.rely hr, (hr.request rfl).idle h.2.1, (hr.request rfl).loopJoinable.trans h.2.2⟩
  refine turns_op (K := fun _ c => Locked .request c ∧ c.loop = .idle ∧ c.loopJoinable = false)
    (fun _ => hl.queue) (fun _ s' _ hs => ?_) (fun _ _ _ hK hr => gone hK hr) fun _ s₁ h₁ => ?_
  · rw [sem_still (by rintro ⟨⟩) hs]
    exact ⟨hl, hloop, hj⟩
  obtain ⟨hl₁, hloop₁, hj₁⟩ := h₁
  refine turns_op (K := fun _ c => c.waitLoopActive = true ∧ Locked .request c ∧ c.loop = .idle ∧
      c.loopJoinable = false) (fun _ => ⟨rfl, hl₁.queue, hl₁.gate, hloop₁⟩) (fun _ s' _ hs => ?_)
    (fun _ _ _ hK hr => ⟨((hr.request rfl).gated hK.2.1.gate).trans hK.1, gone hK.2 hr⟩)
    fun _ s₂ h₂ => ?_
  · rw [sem_store.1 hs]
    refine ⟨?_, ⟨hl₁.queue, hl₁.holder, hl₁.gate⟩, hloop₁, hj₁⟩
    exact (Server.setFlag_flags s₁ .waitLoopActive .waitLoopActive true).trans (if_pos rfl)
  obtain ⟨hw₂, hl₂, hloop₂, hj₂⟩ := h₂
  refine turns_op (K := fun _ c => Locked .request c ∧ Announced c ∧ c.loopJoinable = true)
    (fun _ => ⟨rfl, hl₂.queue, hl₂.gate, hloop₂, hj₂, hw₂⟩) (fun _ s' _ hs => ?_)
    (fun _ _ _ hK hr => ⟨hK.1.rely hr, hK.2.1.rely hK.1 hr,
      (hr.request rfl).loopJoinable.trans hK.2.2⟩) fun _ s₃ h₃ => ?_
  · rw [sem_spawnLoop.1 hs]
    exact ⟨⟨hl₂.queue, hl₂.holder, hl₂.gate⟩, by rintro - ⟨⟩, rfl⟩
  obtain ⟨hl₃, hw₃, hj₃⟩ := h₃
  refine turns_pre (K := fun _ c => Standing .caller .request c)
    (fun _ => ⟨hl₃.queue, hl₃.gate, fun _ => hw₃⟩) (fun _ s' _ hs => ?_)
    (fun _ _ _ hK hr => hK.rely (by rintro ⟨⟩) hr)
  rw [sem_unlockGate.1 hs]
  exact ⟨⟨hl₃.queue, hl₃.holder, by rintro ⟨⟩⟩, fun h => by cases hj₃.symm.trans h⟩

theorem startLoop (id : SessionId) :
    TakesTurns .caller .request (Server.startWaitingForSessionEvent id) := by
  intro j s h
  refine lock h fun _ s₁ hl₁ hw₁ ho₁ => ?_
  refine turns_op
    (K := fun active c =>
      c.waitLoopActive = active ∧ Locked .request c ∧ Announced c ∧ Own .request c)
    (fun _ => hl₁.queue) (fun _ s' _ hs => ?_)
    (fun _ _ _ hK hr => ⟨((hr.request rfl).gated hK.2.1.gate).trans hK.1, hK.2.1.rely hr,
      hK.2.2.1.rely hK.2.1 hr, hK.2.2.2.rely hr⟩) fun active s₂ hK => ?_
  · obtain ⟨rfl, rfl⟩ := sem_load.1 hs
    exact ⟨rfl, hl₁, hw₁, ho₁⟩
  obtain ⟨hactive, hl₂, hw₂, ho₂⟩ := hK
  cases active with
  | true =>
    refine turns_pre (K := fun _ c => Standing .caller .request c)
      (fun _ => ⟨hl₂.queue, hl₂.gate, fun _ => hw₂⟩) (fun _ s' _ hs => ?_)
      (fun _ _ _ hK hr => hK.rely (by rintro ⟨⟩) hr)
    rw [sem_unlockGate.1 hs]
    exact ⟨⟨hl₂.queue, hl₂.holder, by rintro ⟨⟩⟩, ho₂⟩
  | false =>
    refine turns_op (K := fun joinable c => c.waitLoopActive = false ∧ Locked .request c ∧
        (joinable = false → c.loop = .idle ∧ c.loopJoinable = false))
      (fun _ => ⟨rfl, hl₂.queue, hl₂.gate⟩) (fun _ s' _ hs => ?_)
      (fun _ _ _ hK hr => ⟨(hr.request rfl).retired hK.1, hK.2.1.rely hr, fun h =>
        ⟨(hr.request rfl).idle (hK.2.2 h).1, (hr.request rfl).loopJoinable.trans (hK.2.2 h).2⟩⟩)
      fun joinable s₃ hK => ?_
    · obtain ⟨rfl, rfl⟩ := sem_loopJoinable.1 hs
      exact ⟨hactive, hl₂, fun hj => ⟨ho₂ hj, hj⟩⟩
    obtain ⟨hactive₃, hl₃, hj₃⟩ := hK
    cases joinable with
    | false =>
      obtain ⟨hloop, hj⟩ := hj₃ rfl
      exact spawnLoop id hl₃ hloop hj
    | true =>
      -- the old wait loop no longer needs the gate, so it may be joined with the gate held
      refine turns_op (K := fun _ c => Locked .request c ∧ c.loop = .idle ∧ c.loopJoinable = false)
        (fun _ => ⟨rfl, hl₃.queue, hl₃.holder, fun _ => hactive₃⟩) (fun _ s' _ hs => ?_)
        (fun _ _ _ hK hr => ⟨hK.1.rely hr, (hr.request rfl).idle hK.2.1,
          (hr.request rfl).loopJoinable.trans hK.2.2⟩)
        fun _ s₄ h₄ => spawnLoop id h₄.1 h₄.2.1 h₄.2.2
      obtain ⟨hloop, rfl⟩ := sem_joinLoop.1 hs
      exact ⟨⟨hl₃.queue, hl₃.holder, hl₃.gate⟩, hloop, rfl⟩

end TakesTurns

end

end DapDbgeng
