/-
  A kernel target is not ended with its session.

  The destructor of a session ends the target unless the session says otherwise, and a session that
  is opened to a kernel does.  What a session says is changed on the dispatcher only, so nobody
  comes between the look at it and the call that ends the target.

  * `Custody`: what a thread can count on while it is on the dispatcher;
  * `Spares`: programs that spare the kernel;
  * `kernel_spared`: along every run, only a terminate request ends a kernel target.
-/
import DapDbgeng.TurnJobs

namespace DapDbgeng

open Concurrent Concurrent.Prog Control

/-! ## Who may change what a session says -/

/-- Being on the dispatcher: served by it, or in a callback. -/
def Server.Held (t : Tid) (s : Server) : Prop :=
  if t = .callback then s.callbackActive = true else s.holder = some t

/-- What decides how a session ends. -/
def Server.kind (s : Server) (id : SessionId) : Bool × Bool :=
  ((s.sessions id).isKernel, (s.sessions id).terminateDebuggeeOnDispose)

/-- The operations that change the kind of a session. -/
def DapOp.settles : ∀ {β : Type}, DapOp β → Prop
  | _, .newSession | _, .updateSession _ (.terminateDebuggeeOnDispose _) => True
  | _, .updateSession _ .isKernel => True
  | _, _ => False

section

variable {t u : Tid} {β : Type} {o : DapOp β} {b : β} {s s' : Server}

theorem updateEngine_kind (id id' : SessionId) (f : EngineState → EngineState) :
    (s.updateEngine id f).kind id' = s.kind id' := by
  unfold Server.kind
  rw [Server.updateEngine_sessions]
  split
  · rename_i h
    rw [h]
  · rfl

theorem modifySession_kind {id : SessionId} {f : Session → Session}
    (hf : ∀ x, (f x).isKernel = x.isKernel ∧
      (f x).terminateDebuggeeOnDispose = x.terminateDebuggeeOnDispose) (id' : SessionId) :
    (s.modifySession id f).kind id' = s.kind id' := by
  unfold Server.kind
  rw [Server.modifySession_sessions]
  split
  · rename_i h
    rw [h, (hf _).1, (hf _).2]
  · rfl

theorem sem_kind (ho : ¬o.settles) (h : sem t β o s b s') (id : SessionId) :
    s'.kind id = s.kind id := by
  cases o with
  | updateSession id' v =>
    rw [sem_updateSession.1 h]
    cases v with
    | terminateDebuggeeOnDispose | isKernel => exact absurd trivial ho
    | _ => exact modifySession_kind (f := (·.update _)) (fun _ => ⟨rfl, rfl⟩) id
  | newSession => exact absurd trivial ho
  | call id' c =>
    obtain ⟨_, _, -, -, rfl⟩ := sem_call h
    exact updateEngine_kind _ _ _
  | leave id' c =>
    obtain ⟨-, -, _, _, -, rfl⟩ := sem_leave h
    exact updateEngine_kind _ _ _
  | enter id' c =>
    obtain ⟨_, -, -, -, rfl⟩ := sem_enter.1 h
    rfl
  | acquire =>
    obtain ⟨_, -, -, rfl⟩ := sem_acquire.1 h
    rfl
  | lockGate =>
    obtain ⟨-, rfl⟩ := sem_lockGate.1 h
    rfl
  | joinLoop =>
    obtain ⟨-, rfl⟩ := sem_joinLoop.1 h
    rfl
  | send m =>
    rw [sem_send.1 h]
    split <;> rfl
  | _ =>
    obtain ⟨_, h⟩ := h
    cases h
    rfl

/-- Only the thread on the dispatcher changes the kind of a session. -/
theorem alone_of_settles (ho : o.settles) (hi : s.control.Inv) (hn : o.need t s.control)
    (hu : u ≠ t) : ¬s.Held u := by
  have serves : t ≠ .callback ∧ Serves t s.control := by
    cases o with
    | newSession => exact ⟨hn.1, hn.2.2⟩
    | updateSession id v =>
      cases v with
      | terminateDebuggeeOnDispose | isKernel => exact ⟨hn.1, hn.2.2⟩
      | _ => exact ho.elim
    | _ => exact ho.elim
  obtain ⟨ht, hserves⟩ := serves
  rw [Serves, if_neg ht] at hserves
  unfold Server.Held
  split
  · intro ha
    have hc := hi.active ha
    rw [hserves.2] at hc
    cases hc
  · intro hh
    exact hu (Option.some.inj (hh.symm.trans hserves.1))

theorem held_rely (h : s.Held t) (hr : Rely t s.control s'.control) : s'.Held t := by
  unfold Server.Held at h ⊢
  split
  · rename_i ht
    rw [if_pos ht] at h
    exact (hr.active ht).trans h
  · rename_i ht
    rw [if_neg ht] at h
    exact hr.holder.2 h

/-- What a thread can count on. -/
structure Custody (t : Tid) (s s' : Server) : Prop where
  control : Rely t s.control s'.control
  kind : s.Held t → ∀ id, s'.kind id = s.kind id
  user : t = .request → ∀ id, (s.sessions id).isKernel = false → (s'.sessions id).isKernel = false

theorem Custody.trans {s'' : Server} (h : Custody t s s') (h' : Custody t s' s'') :
    Custody t s s'' where
  control := h.control.trans h'.control
  kind hh id := (h'.kind (held_rely hh h.control) id).trans (h.kind hh id)
  user ht id hs := h'.user ht id (h.user ht id hs)

end

/-- The request asks to end the target. -/
def Job.terminates (j : Job) : Prop :=
  ∃ root, j = .request root ∧ Server.requestCommand root = "terminate"

/-- The operation is part of a call that ends the target of the session. -/
def DapOp.endsTarget (id : SessionId) : ∀ {β : Type}, DapOp β → Prop
  | _, .call id' .endSessionTerminate | _, .enter id' .endSessionTerminate => id' = id
  | _, .leave id' .endSessionTerminate => id' = id
  | _, _ => False

/-- The operation does not end the target of a kernel session, unless the job is to. -/
def DapOp.spares (j : Job) (s : Server) {β : Type} (o : DapOp β) : Prop :=
  ∀ id, o.endsTarget id → (s.sessions id).isKernel = false ∨ j.terminates

/-- A kernel session does not end its target. -/
def Server.KernelsKept (s : Server) : Prop :=
  ∀ id, (s.sessions id).isKernel = true → (s.sessions id).terminateDebuggeeOnDispose = false

/-- The kernel is spared. -/
def custody : Demands Tid DapOp Job Exn Bool Server where
  Inv := Server.KernelsKept
  rely := Custody
  post _ _ _ _ := True
  rely_refl t s := ⟨.refl t s.control, fun _ _ => rfl, fun _ _ h => h⟩
  rely_trans := .trans
  need _ j _ o s := o.spares j s
  rest _ _ := True
  rest_rely _ _ _ := trivial

/-- The adapter, its threads taking turns. -/
def custodySystem : System Tid DapOp Job Exn Bool Server := adapter.system.restrict turns.meets

/-! ## One operation -/

/-- What a thread knows while it runs an orderly program. -/
structure Knows (L : Licence) (side : Side) (t : Tid) (s : Server) : Prop where
  held : side ≠ .caller → s.Held t
  users : ∀ id, L.users id → (s.sessions id).isKernel = false

section

variable {L : Licence} {side : Side} {t : Tid} {j : Job} {s s' : Server}

theorem kind_eq {id : SessionId} (h : s'.kind id = s.kind id) :
    (s'.sessions id).isKernel = (s.sessions id).isKernel ∧
      (s'.sessions id).terminateDebuggeeOnDispose = (s.sessions id).terminateDebuggeeOnDispose :=
  Prod.mk.inj h

/-- Off the dispatcher, only the request thread knows of sessions. -/
def Licensed (L : Licence) (side : Side) (t : Tid) : Prop :=
  side = .caller → t = .request ∨ ∀ id, ¬L.users id

theorem Knows.rely (hc : Licensed L side t) (h : Knows L side t s) (hr : Custody t s s') :
    Knows L side t s' where
  held hs := held_rely (h.held hs) hr.control
  users id hid := by
    by_cases hs : side = .caller
    · rcases hc hs with ht | hnone
      · exact hr.user ht id (h.users id hid)
      · exact absurd hid (hnone id)
    · exact (kind_eq (hr.kind (h.held hs) id)).1.trans (h.users id hid)

/-- The other threads are left what they count on. -/
theorem custody_other {β : Type} {o : DapOp β} {b : β}
    (hmark : t = .request ∨ ∀ id, (s.sessions id).isKernel = false →
      (s'.sessions id).isKernel = false)
    (h : custodySystem.sem t β o s b s') (u : Tid) (hu : u ≠ t) : Custody u s s' := by
  obtain ⟨hs, hi, j', hn⟩ := h
  have hs : sem t β o s b s' := hs
  have hi : s.control.Inv := hi
  have hn : o.need t s.control := hn
  refine ⟨?_, fun hh id => ?_, fun hut => ?_⟩
  · rcases sem_move hn hs with heq | hmove
    · rw [heq]
      exact .refl u _
    · exact hmove.rely hu
  · by_cases ho : o.settles
    · exact absurd hh (alone_of_settles ho hi hn hu)
    · exact sem_kind ho hs id
  · rcases hmark with ht | hmark
    · exact absurd (hut.trans ht.symm) hu
    · exact hmark

/-- One operation, from what is known to what is known then. -/
theorem custody_op {α β : Type} {o : DapOp β} {k : β → Dap α} {K : β → Server → Prop}
    {Q : α → Server → Prop} {E : Exn → Server → Prop} (hspares : s.KernelsKept → o.spares j s)
    (hop : ∀ b s', s.KernelsKept → sem t β o s b s' → s'.KernelsKept ∧ K b s' ∧
      (t = .request ∨ ∀ id, (s.sessions id).isKernel = false → (s'.sessions id).isKernel = false))
    (hstable : ∀ b {s s'}, K b s → Custody t s s' → K b s')
    (hk : ∀ b s', K b s' → (k b).wp (custody.spec custodySystem t j) Q E s') :
    (Prog.op o k).wp (custody.spec custodySystem t j) Q E s := by
  refine (custody.spec custodySystem t j).mono o hk ?_
  refine Demands.pre_of hspares (fun b s' hi h => ?_) fun b _ _ hK hr _ => hstable b hK hr
  obtain ⟨hkept, hK, hmark⟩ := hop b s' hi h.1
  exact ⟨⟨hkept, custody_other hmark h⟩, hK⟩

/-- An operation that settles nothing. -/
theorem custody_step {α β : Type} {o : DapOp β} {k : β → Dap α} {K : β → Server → Prop}
    {Q : α → Server → Prop} {E : Exn → Server → Prop} (ho : ¬o.settles)
    (hspares : s.KernelsKept → o.spares j s)
    (hop : ∀ b s', s.KernelsKept → sem t β o s b s' → K b s')
    (hstable : ∀ b {s s'}, K b s → Custody t s s' → K b s')
    (hk : ∀ b s', K b s' → (k b).wp (custody.spec custodySystem t j) Q E s') :
    (Prog.op o k).wp (custody.spec custodySystem t j) Q E s := by
  refine custody_op hspares (fun b s' hi h => ⟨fun id => ?_, hop b s' hi h, .inr fun id => ?_⟩)
    hstable hk
  · rw [(kind_eq (sem_kind ho h id)).1, (kind_eq (sem_kind ho h id)).2]
    exact hi id
  · rw [(kind_eq (sem_kind ho h id)).1]
    exact fun h => h

/-! ## Programs -/

/-- The program spares the kernel targets. -/
def Spares (L : Licence) (side : Side) (t : Tid) (j : Job) {α : Type} (p : Dap α) : Prop :=
  ∀ s : Server, Knows L side t s → p.wp (custody.spec custodySystem t j)
    (fun _ s => Knows L side t s) (fun _ s => Knows L side t s) s

theorem held_of_control (h : s'.control = s.control) (hh : s.Held t) : s'.Held t :=
  held_rely hh (by rw [h]; exact .refl t _)

/-- Where the engine is entered or left, the thread stays on the dispatcher. -/
theorem held_of_pump {β : Type} {id : SessionId} {c : Call β} (ht : t ≠ .callback) :
    (∀ {u : Unit}, sem t Unit (.enter id c) s u s' → s.Held t → s'.Held t) ∧
      ∀ {b : β}, sem t β (.leave id c) s b s' → s.Held t → s'.Held t := by
  unfold Server.Held
  rw [if_neg ht, if_neg ht]
  refine ⟨fun h hh => ?_, fun h hh => ?_⟩
  · obtain ⟨_, -, -, -, rfl⟩ := sem_enter.1 h
    exact hh
  · obtain ⟨-, -, _, _, -, rfl⟩ := sem_leave h
    exact hh

/-- The operation keeps a thread on the dispatcher. -/
def Stays (side : Side) (t : Tid) {β : Type} (o : DapOp β) : Prop :=
  side = .caller ∨ ∀ {b s s'}, sem t β o s b s' → s.Held t → s'.Held t

theorem Stays.still {β : Type} {o : DapOp β} (h : o.still) : Stays side t o :=
  .inr fun hs hh => held_of_control (sem_still h hs) hh

theorem Knows.step {β : Type} {o : DapOp β} {b : β} (ho : ¬o.settles) (hstays : Stays side t o)
    (h : Knows L side t s) (hs : sem t β o s b s') : Knows L side t s' where
  held hside := hstays.resolve_left hside hs (h.held hside)
  users id hid := (kind_eq (sem_kind ho hs id)).1.trans (h.users id hid)

/-- What a thread on the dispatcher has seen a session say. -/
structure Told (L : Licence) (side : Side) (t : Tid) (id : SessionId) (ends : Bool)
    (s : Server) : Prop extends Knows L side t s where
  ends : (s.sessions id).terminateDebuggeeOnDispose = ends

theorem Told.rely [side.OnThread] {id : SessionId} {ends : Bool} (h : Told L side t id ends s)
    (hr : Custody t s s') : Told L side t id ends s' where
  toKnows := h.toKnows.rely (fun h => absurd h Side.OnThread.ne_caller) hr
  ends := (kind_eq (hr.kind (h.held Side.OnThread.ne_caller) id)).2.trans h.ends

theorem Told.step {id : SessionId} {ends : Bool} {β : Type} {o : DapOp β} {b : β}
    (ho : ¬o.settles) (hstays : Stays side t o) (h : Told L side t id ends s)
    (hs : sem t β o s b s') : Told L side t id ends s' where
  toKnows := h.toKnows.step ho hstays hs
  ends := (kind_eq (sem_kind ho hs id)).2.trans h.ends

/-- What a session says of its end is changed. -/
theorem settle_op {id : SessionId} {b : Bool} {u : Unit} (h : Knows L side t s)
    (hi : s.KernelsKept)
    (hs : sem t Unit (.updateSession id (.terminateDebuggeeOnDispose b)) s u s')
    (hb : b = true → L.users id) : s'.KernelsKept ∧ Knows L side t s' ∧
      (t = .request ∨
        ∀ id, (s.sessions id).isKernel = false → (s'.sessions id).isKernel = false) := by
  have hkernel (id' : SessionId) : (s'.sessions id').isKernel = (s.sessions id').isKernel := by
    rw [sem_updateSession.1 hs, Server.modifySession_sessions]
    split
    · rename_i h
      rw [h]
      rfl
    · rfl
  refine ⟨fun id' hk => ?_, ⟨fun hside => ?_, fun id' hid => ?_⟩, .inr fun id' hk => ?_⟩
  · rw [hkernel] at hk
    rw [sem_updateSession.1 hs, Server.modifySession_sessions]
    split
    · rename_i hid
      subst hid
      cases b with
      | false => rfl
      | true =>
        rw [h.users _ (hb rfl)] at hk
        cases hk
    · exact hi id' hk
  · exact held_of_control (sem_still (by trivial) hs) (h.held hside)
  · exact (hkernel id').trans (h.users id' hid)
  · exact (hkernel id').trans hk

namespace Spares

variable {α β : Type}

theorem ret (a : α) : Spares L side t j (.ret a : Dap α) := fun _ h => h

theorem throw (e : Exn) : Spares L side t j (.throw e : Dap α) := fun _ h => h

theorem bind {p : Dap α} {f : α → Dap β} (hp : Spares L side t j p)
    (hf : ∀ a, Spares L side t j (f a)) : Spares L side t j (p.bind f) := by
  intro s h
  rw [wp_bind]
  exact wp_mono (fun a s' h' => hf a s' h') (fun _ _ h' => h') (hp s h)

theorem catching {p : Dap α} {f : Exn → Dap α} (hp : Spares L side t j p)
    (hf : ∀ e, Spares L side t j (f e)) : Spares L side t j (p.catching f) := by
  intro s h
  rw [wp_catching]
  exact wp_mono (fun _ _ h' => h') (fun e s' h' => hf e s' h') (hp s h)

theorem ite {c : Prop} [Decidable c] {p q : Dap α} (hp : Spares L side t j p)
    (hq : Spares L side t j q) : Spares L side t j (if c then p else q) := by
  split
  · exact hp
  · exact hq

/-- An operation that settles nothing and does not leave the dispatcher. -/
theorem step {o : DapOp α} (hc : Licensed L side t) (ho : ¬o.settles)
    (hspares : ∀ s, o.spares j s) (hstays : Stays side t o) :
    Spares L side t j (Prog.perform o) := fun s h =>
  custody_step (K := fun _ s => Knows L side t s) ho (fun _ => hspares s)
    (fun _ _ _ hs => h.step ho hstays hs) (fun _ _ _ hK hr => hK.rely hc hr) fun _ _ hK => hK

theorem still {o : DapOp α} (hc : Licensed L side t) (hstill : o.still) (ho : ¬o.settles)
    (hspares : ∀ s, o.spares j s) : Spares L side t j (Prog.perform o) :=
  step hc ho hspares (.still hstill)

theorem plain {o : DapOp α} (hc : Licensed L side t) (hp : o.plainOn side) :
    Spares L side t j (Prog.perform o) := by
  by_cases ho : o.settles
  · cases o with
    | newSession =>
      intro s h
      refine custody_op (K := fun _ s => Knows L side t s) (fun _ _ h => h.elim)
        (fun b s' hi hs => ?_) (fun _ _ _ hK hr => hK.rely hc hr) fun _ _ hK => hK
      have fresh (id : SessionId) : s'.sessions id = s.sessions id ∨ s'.sessions id = {} := by
        obtain ⟨-, rfl⟩ := sem_newSession.1 hs
        by_cases hid : id = s.sessionCount
        · exact .inr (by rw [hid]; exact Function.update_self ..)
        · exact .inl (Function.update_of_ne hid ..)
      have mark (id : SessionId) (hk : (s.sessions id).isKernel = false) :
          (s'.sessions id).isKernel = false := by
        rcases fresh id with h' | h'
        · rw [h']
          exact hk
        · rw [h']
      refine ⟨fun id hk => ?_, ⟨fun hside => ?_, fun id hid => mark id (h.users id hid)⟩, .inr mark⟩
      · rcases fresh id with h' | h'
        · rw [h'] at hk ⊢
          exact hi id hk
        · rw [h'] at hk
          cases hk
      · exact held_of_control (sem_still (by trivial) hs) (h.held hside)
    | updateSession id u => cases u <;> first | exact hp.elim | exact ho.elim
    | _ => exact ho.elim
  · refine still hc (DapOp.still_of_plainOn hp) ho fun s => ?_
    cases o with
    | call id c => cases c <;> first | exact fun _ h => h.elim | exact hp.1.elim
    | enter | leave => exact hp.elim
    | _ => exact fun _ h => h.elim

/-- An operation off the dispatcher. -/
theorem off {o : DapOp α} (hc : Licensed L .caller t) (ho : ¬o.settles)
    (hspares : ∀ s, o.spares j s) : Spares L .caller t j (Prog.perform o) :=
  step hc ho hspares (.inl rfl)

theorem pumpCall (ht : t ≠ .callback) (id : SessionId) {c : Call α}
    (hc : c.mild) : Spares L .dispatcher t j (DapDbgeng.pumpCall id c) := by
  have licensed : Licensed L .dispatcher t := by rintro ⟨⟩
  refine .bind (step licensed not_false (fun s => ?_) (.inr (held_of_pump ht).1)) fun _ =>
    step licensed not_false (fun s => ?_) (.inr (held_of_pump ht).2)
  · cases c <;> first | exact fun _ h => h.elim | exact hc.elim
  · cases c <;> first | exact fun _ h => h.elim | exact hc.elim

/-- A function passed to the dispatcher. -/
theorem invoke {t' : Tid} (ht' : t' ≠ .callback) (ht : t ≠ .callback) (hc : Licensed L .caller t)
    {p : Dap α} (hp : Spares L .dispatcher t j p) :
    Spares L .caller t j (DapDbgeng.invoke t' p) := by
  have licensed : Licensed L .dispatcher t := by rintro ⟨⟩
  have none' {β : Type} {o : DapOp β} (s : Server) (h : ∀ id, ¬o.endsTarget id) : o.spares j s :=
    fun id hid => absurd hid (h id)
  have release {rest : Dap α} (h : Spares L .caller t j rest) :
      Spares L .caller t j (Prog.bind (.perform .release) fun _ => rest) :=
    .bind (off hc not_false fun s => none' s fun _ => not_false) fun _ => h
  rw [DapDbgeng.invoke, if_neg ht']
  refine .bind (off hc not_false fun s => none' s fun _ => not_false) fun _ s h => ?_
  refine custody_step (K := fun _ s => Knows L .dispatcher t s) not_false
    (fun _ => none' _ fun _ => not_false) (fun u s' _ hs => ⟨fun _ => ?_, fun id hid => ?_⟩)
    (fun _ _ _ hK hr => hK.rely licensed hr) fun u s' h' => ?_
  · obtain ⟨rest, -, -, rfl⟩ := sem_acquire.1 hs
    unfold Server.Held
    rw [if_neg ht]
  · exact (kind_eq (sem_kind (by exact not_false) hs id)).1.trans (h.users id hid)
  · change (Prog.bind p.attempt _).wp _ _ _ s'
    rw [wp_bind, wp_attempt]
    have off {s : Server} (h : Knows L .dispatcher t s) : Knows L .caller t s :=
      ⟨fun h => absurd rfl h, h.users⟩
    exact wp_mono (fun a s₃ h₃ => release (.ret a) s₃ (off h₃))
      (fun e s₃ h₃ => release (.throw _) s₃ (off h₃)) (hp s' h')

/-- What the session says may be changed, unless a kernel would be ended for it. -/
theorem settle (hside : side ≠ .caller) (id : SessionId) (b : Bool) (hb : b = true → L.users id) :
    Spares L side t j (updateSession id (.terminateDebuggeeOnDispose b)) := fun _ h =>
  custody_op (K := fun _ s => Knows L side t s) (fun _ _ h => h.elim)
    (fun _ _ hi hs => settle_op h hi hs hb)
    (fun _ _ _ hK hr => hK.rely (fun h => absurd h hside) hr) fun _ _ hK => hK

/-- The end of a session that says its target ends with it: it is not a kernel's. -/
theorem endSession [side.OnThread] {t' : Tid} (hf : Control.Fits side t)
    (ht : t' = .callback ↔ side = .callback) (id : SessionId) {s : Server}
    (h : Told L side t id true s) :
    (Session.endSession t' id).wp (custody.spec custodySystem t j) (fun _ s => Knows L side t s)
      (fun _ s => Knows L side t s) s := by
  have spares {s : Server} (h : Told L side t id true s) (hi : s.KernelsKept) {id' : SessionId}
      (hid : id = id') : (s.sessions id').isKernel = false ∨ j.terminates := by
    subst hid
    refine .inl (Bool.eq_false_iff.2 fun hk => ?_)
    cases (hi id hk).symm.trans h.ends
  have told {β : Type} {o : DapOp β} {k : β → Dap Unit} {s : Server}
      (h : Told L side t id true s) (ho : ¬o.settles) (hends : ∀ id', o.endsTarget id' → id = id')
      (hstays : Stays side t o)
      (hk : ∀ b s', Told L side t id true s' → (k b).wp (custody.spec custodySystem t j)
        (fun _ s => Knows L side t s) (fun _ s => Knows L side t s) s') :
      (Prog.op o k).wp (custody.spec custodySystem t j) (fun _ s => Knows L side t s)
        (fun _ s => Knows L side t s) s :=
    custody_step (K := fun _ s => Told L side t id true s) ho
      (fun hi id' hid => spares h hi (hends id' hid)) (fun _ _ _ hs => h.step ho hstays hs)
      (fun _ _ _ hK hr => hK.rely hr) hk
  unfold Session.endSession
  split
  · exact told h not_false (fun _ hid => hid) (.still trivial) fun _ _ h' => h'.toKnows
  · rename_i ht'
    have hne : t ≠ .callback := by
      cases side with
      | caller =>
        have hcaller : Side.caller ≠ Side.caller := Side.OnThread.ne_caller
        exact absurd rfl hcaller
      | dispatcher => exact hf
      | callback => exact absurd (ht.2 rfl) ht'
    exact told h not_false (fun _ hid => hid) (.inr (held_of_pump hne).1) fun _ _ h' =>
      told h' not_false (fun _ hid => hid) (.inr (held_of_pump hne).2) fun _ _ h' => h'.toKnows

/-- The destructor ends the target of no kernel session. -/
theorem destroy [side.OnThread] {t' : Tid} (hf : Control.Fits side t)
    (ht : t' = .callback ↔ side = .callback) (id : SessionId) :
    Spares L side t j (Session.destroy t' id) := by
  have licensed : Licensed L side t := fun h => absurd h Side.OnThread.ne_caller
  have mild {c : Call Unit} (hc : c.mild) : Spares L side t j (DapDbgeng.call id c) :=
    plain licensed ⟨hc, fun h => absurd h Side.OnThread.ne_caller⟩
  have rest : Spares L side t j (do
      Session.disconnectProcessServer id
      updateSession id .dispose) :=
    .bind (.bind (plain licensed trivial) fun _ => .ite (.ret _)
      (.bind (mild trivial) fun _ => plain licensed trivial)) fun _ => plain licensed trivial
  intro s h
  -- nobody changes what the session says before its target is ended
  refine custody_step
    (K := fun (b : Session) s => Told L side t id b.terminateDebuggeeOnDispose s) not_false
    (fun _ _ h => h.elim) (fun b s' _ hs => ?_) (fun _ _ _ hK hr => hK.rely hr) fun b s₁ h₁ => ?_
  · obtain ⟨rfl, rfl⟩ := sem_readSession.1 hs
    exact ⟨h, rfl⟩
  change (if b.disposed = true then _ else _ : Dap Unit).wp _ _ _ s₁
  split
  · exact h₁.toKnows
  refine custody_step (K := fun _ s => Told L side t id b.terminateDebuggeeOnDispose s) not_false
    (fun _ _ h => h.elim) (fun _ _ _ hs => h₁.step (by exact not_false) (.still (by trivial)) hs)
    (fun _ _ _ hK hr => hK.rely hr) fun u s₂ h₂ => ?_
  change (if b.terminateDebuggeeOnDispose = true then _ else _ : Dap Unit).wp _ _ _ s₂
  split
  · rename_i hb
    rw [hb] at h₂
    change (Prog.bind (Session.endSession t' id) fun _ => _ : Dap Unit).wp _ _ _ s₂
    rw [wp_bind]
    exact wp_mono (fun _ s₃ h₃ => rest s₃ h₃) (fun _ _ h₃ => h₃) (endSession hf ht id h₂)
  · exact rest s₂ h₂.toKnows

/-- The request thread, and it alone, turns a session over to a kernel. -/
theorem markKernel (ht : t = .request) (hL : ∀ id, ¬L.users id) (id : SessionId) :
    Spares L .dispatcher t j (Session.markKernel id) := by
  have licensed : Licensed L .dispatcher t := by rintro ⟨⟩
  intro s h
  refine custody_op (K := fun _ s => Told L .dispatcher t id false s) (fun _ _ h => h.elim)
    (fun u s' hi hs => ?_) (fun _ _ _ hK hr => hK.rely hr) fun u s' h' => ?_
  · obtain ⟨hkept, hknows, hmark⟩ := settle_op (b := false) h hi hs (by rintro ⟨⟩)
    refine ⟨hkept, ⟨hknows, ?_⟩, hmark⟩
    rw [sem_updateSession.1 hs, Server.modifySession_sessions, if_pos rfl]
    rfl
  · refine custody_op (K := fun _ s => Knows L .dispatcher t s) (fun _ _ h => h.elim)
      (fun u s'' hi hs => ⟨fun id' hk => ?_, ⟨fun hside => ?_, fun id' hid => ?_⟩, .inl ht⟩)
      (fun _ _ _ hK hr => hK.rely licensed hr) fun _ _ hK => hK
    · rw [sem_updateSession.1 hs, Server.modifySession_sessions] at hk ⊢
      split
      · exact h'.ends
      · rename_i hne
        rw [if_neg hne] at hk
        exact hi id' hk
    · exact held_of_control (sem_still (by trivial) hs) (h'.held hside)
    · exact absurd hid (hL id')

/-- Ending the target at the client's wish. -/
theorem killTarget (ht : t ≠ .callback) (id : SessionId) (hj : j.terminates) :
    Spares L .dispatcher t j (Session.killTarget id) := by
  have licensed : Licensed L .dispatcher t := by rintro ⟨⟩
  exact .bind (.bind (step licensed not_false (fun _ _ _ => .inr hj) (.inr (held_of_pump ht).1))
    fun _ => step licensed not_false (fun _ _ _ => .inr hj) (.inr (held_of_pump ht).2)) fun _ =>
      .settle (by rintro ⟨⟩) id false (by rintro ⟨⟩)

theorem checkHr (r : Reply α) (message : String) :
    Spares L side t j (Session.checkHr r message) := by
  cases r
  · exact .throw _
  · exact .ret _

theorem leaveTarget (ht : t ≠ .callback) {id : SessionId} (hid : L.users id) :
    Spares L .dispatcher t j (Session.leaveTarget id) :=
  .bind (.settle (by rintro ⟨⟩) id false fun _ => hid) fun _ =>
    .catching (.bind (.pumpCall ht id trivial) fun r => checkHr r _) fun _ =>
      .bind (.settle (by rintro ⟨⟩) id true fun _ => hid) fun _ => .throw _

/-- A session that is seen not to be a kernel's stays so for the request thread. -/
theorem byKind (ht : t = .request) {id : SessionId} {p q : Dap α}
    (hp : Spares L .caller t j p) (hq : Spares (L.withUser id) .caller t j q) :
    Spares L .caller t j ((readSession id).bind fun s => if s.isKernel then p else q) := by
  have licensed (L : Licence) : Licensed L .caller t := fun _ => .inl ht
  intro s h
  refine custody_step (K := fun (b : Session) s => Knows L .caller t s ∧
      (b.isKernel = false → (s.sessions id).isKernel = false)) not_false (fun _ _ h => h.elim)
    (fun b s' _ hs => ?_) (fun b _ _ hK hr => ⟨hK.1.rely (licensed L) hr, fun hb =>
      hr.user ht id (hK.2 hb)⟩) fun b s₁ h₁ => ?_
  · obtain ⟨rfl, rfl⟩ := sem_readSession.1 hs
    exact ⟨h, fun hb => hb⟩
  change (if b.isKernel = true then p else q : Dap α).wp _ _ _ s₁
  split
  · exact hp s₁ h₁.1
  · rename_i hb
    have knows : Knows (L.withUser id) .caller t s₁ := by
      refine ⟨fun h => absurd rfl h, ?_⟩
      rintro id' (rfl | hid)
      · exact h₁.2 (Bool.eq_false_iff.2 hb)
      · exact h₁.1.users id' hid
    have back {s : Server} (h : Knows (L.withUser id) .caller t s) : Knows L .caller t s :=
      ⟨h.held, fun id' hid => h.users id' (.inr hid)⟩
    exact wp_mono (fun _ _ h => back h) (fun _ _ h => back h) (hq s₁ knows)

theorem drain (hc : Licensed L .caller t) (ht : t ≠ .callback) :
    Spares L .caller t j (Server.drainPendingDisposedSession t) := by
  refine .bind (plain hc trivial) fun parked => ?_
  cases parked with
  | none => exact .ret _
  | some id =>
    have hf : Control.Fits .dispatcher t := ht
    have destroyed : Spares L .dispatcher t j (Session.destroy t id) :=
      .destroy hf (iff_of_false ht (by rintro ⟨⟩)) id
    exact .catching (.invoke ht ht hc destroyed) fun _ => .ret _

theorem suppressed (hc : Licensed L .caller t) {p : Dap α} (hp : Spares L .caller t j p) :
    Spares L .caller t j (Server.runWithSuppressedSessionEvents p) := by
  have put (b : Bool) : Spares L .caller t j (store .suppressSessionEvents b) :=
    off hc not_false fun _ _ h => h.elim
  exact .bind (put true) fun _ => .bind (.catching hp fun _ => .bind (put false) fun _ => .throw _)
    fun _ => .bind (put false) fun _ => .ret _

theorem handleInitialize (hc : Licensed L .caller t) (request : Request Unit) :
    Spares L .caller t j (Server.handleInitializeRequest request) := by
  have off {β : Type} {o : DapOp β} (ho : ¬o.settles) (h : ∀ id, ¬o.endsTarget id) :
      Spares L .caller t j (Prog.perform o) := off hc ho fun _ id hid => absurd hid (h id)
  exact .bind (off not_false fun _ => not_false) fun _ => .ite (off not_false fun _ => not_false) <|
    .bind (off not_false fun _ => not_false) fun _ => .bind (off not_false fun _ => not_false)
      fun _ => off not_false fun _ => not_false

theorem joinLoop (hc : Licensed L .caller .request) :
    Spares L .caller .request j Server.joinWaitLoop := by
  have off {β : Type} {o : DapOp β} (ho : ¬o.settles) (h : ∀ id, ¬o.endsTarget id) :
      Spares L .caller .request j (Prog.perform o) := off hc ho fun _ id hid => absurd hid (h id)
  have drain : Spares L .caller .request j (Server.drainPendingDisposedSession .request) :=
    drain hc (by rintro ⟨⟩)
  exact .bind (off not_false fun _ => not_false) fun _ => .bind (off not_false fun _ => not_false)
    fun _ => .bind (off not_false fun _ => not_false) fun _ => .ite
      (.bind (off not_false fun _ => not_false) fun _ => drain) drain

theorem startLoop (hc : Licensed L .caller t) (id : SessionId) :
    Spares L .caller t j (Server.startWaitingForSessionEvent id) := by
  have off {β : Type} {o : DapOp β} (ho : ¬o.settles) (h : ∀ id, ¬o.endsTarget id) :
      Spares L .caller t j (Prog.perform o) := off hc ho fun _ id hid => absurd hid (h id)
  have start : Spares L .caller t j (do
      store .sessionStopOrExitObserved false
      store .waitLoopActive true
      Prog.perform (.spawnLoop id)
      Prog.perform .unlockGate) :=
    .bind (off not_false fun _ => not_false) fun _ => .bind (off not_false fun _ => not_false)
      fun _ => .bind (off not_false fun _ => not_false) fun _ => off not_false fun _ => not_false
  exact .bind (off not_false fun _ => not_false) fun _ => .bind (off not_false fun _ => not_false)
    fun _ => .ite (off not_false fun _ => not_false) (.bind (off not_false fun _ => not_false)
      fun _ => .ite (.bind (off not_false fun _ => not_false) fun _ => start) start)

end Spares

/-- Orderly programs spare the kernel targets. -/
theorem Orderly.spares {α : Type} {p : Dap α} (h : Orderly L side p) (hf : Control.Fits side t)
    (hc : side = .caller → t = .request) (hopens : L.opensKernel → t = .request)
    (hterminates : L.terminates → j.terminates) : Spares L side t j p := by
  have licensed {L : Licence} {side : Side} (hc : side = .caller → t = .request) :
      Licensed L side t := fun h => .inl (hc h)
  induction h with
  | ret a => exact .ret a
  | throw e => exact .throw e
  | bind _ _ ihp ihf =>
    exact .bind (ihp hf hc hopens hterminates) fun a => ihf a hf hc hopens hterminates
  | catching _ _ ihp ihh =>
    exact .catching (ihp hf hc hopens hterminates) fun e => ihh e hf hc hopens hterminates
  | perform ho => exact .plain (licensed hc) ho
  | pumpCall id hm _ => exact .pumpCall hf id hm
  | dispatch ht _ ih =>
    exact .invoke ht hf (licensed hc) (ih hf (by rintro ⟨⟩) hopens hterminates)
  | suppressed _ ih => exact .suppressed (licensed hc) (ih hf hc hopens hterminates)
  | joinLoop =>
    obtain rfl := hc rfl
    exact .joinLoop (licensed fun _ => rfl)
  | startLoop id => exact .startLoop (licensed hc) id
  | handleInitialize request => exact .handleInitialize (licensed hc) request
  | @clearConditions L side _ =>
    have modify (f : Tables → Tables) : Spares L side t j (DapDbgeng.modifyTables f) :=
      .still (licensed hc) trivial not_false fun _ _ h => h.elim
    exact .bind (modify _) fun _ => modify _
  | @recordConditions L _ path configured requested =>
    have off {β : Type} {o : DapOp β} (ho : ¬o.settles) (h : ∀ id, ¬o.endsTarget id) :
        Spares L .caller t j (Prog.perform o) :=
      .off (licensed hc) ho fun _ id hid => absurd hid (h id)
    exact Server.updateConditionalBreakpointState_composed (Q := fun {_} p => Spares L .caller t j p)
      (.ret _) (fun hp hf => .bind hp hf) (off not_false fun _ => not_false)
      fun _ _ => off not_false fun _ => not_false
  | destroy id ht => exact .destroy hf ht id
  | markKernel h hL id => exact .markKernel (hopens h) hL id
  | byKind _ _ ihp ihq =>
    exact .byKind (hc rfl) (ihp hf hc hopens hterminates) (ihq hf hc hopens hterminates)
  | leaveTarget h => exact .leaveTarget hf h
  | killTarget id h => exact .killTarget hf id (hterminates h)

end

/-! ## Runs -/

section

open Server

variable {t : Tid} {j : Job} {s s' : Server}

theorem startJob_kind (h : startJob t j s = some s') (id : SessionId) : s'.kind id = s.kind id := by
  by_cases hj : j.thread = .callback
  · cases j with
    | callback id' event threads current =>
      obtain ⟨-, rfl⟩ := startJob_callback h
      exact updateEngine_kind (s := s) id' id fun e => { event.effect e with threads, current }
    | _ => cases hj
  · obtain ⟨_, _, _, rfl, -⟩ := startJob_of_ne hj h
    rfl

theorem finishJob_kind {r : Except Exn Bool} (h : finishJob j r s = some s') (id : SessionId) :
    s'.kind id = s.kind id := by
  by_cases hj : j.thread = .callback
  · cases j with
    | callback id' event threads current =>
      rw [finishJob_callback h]
      rfl
    | _ => cases hj
  · obtain ⟨_, _, rfl⟩ := finishJob_of_ne hj h
    rfl

theorem custody_keeps (hi : s.KernelsKept) (hcontrol : turns.Keeps t s s')
    (hkind : ∀ id, s'.kind id = s.kind id) : custody.Keeps t s s' := by
  refine ⟨fun id => ?_, fun u hu => ⟨hcontrol.2 u hu, fun _ => hkind, fun _ id => ?_⟩⟩
  · rw [(kind_eq (hkind id)).1, (kind_eq (hkind id)).2]
    exact hi id
  · rw [(kind_eq (hkind id)).1]
    exact fun h => h

/-- The jobs spare the kernel targets. -/
theorem Job.body_spares (ht : t = j.thread) {s : Server}
    (hcallback : t = .callback → s.callbackActive = true) :
    j.body.wp (custody.spec custodySystem t j) (fun _ _ => True) (fun _ _ => True) s := by
  have spared {L : Licence} {side : Side} {p : Dap Bool} (h : Spares L side t j p)
      (hk : Knows L side t s) :
      p.wp (custody.spec custodySystem t j) (fun _ _ => True) (fun _ _ => True) s :=
    wp_mono (fun _ _ _ => trivial) (fun _ _ _ => trivial) (h s hk)
  have nothing : Knows {} .caller t s := ⟨fun h => absurd rfl h, fun _ h => h.elim⟩
  have off : Licensed {} .caller t := fun _ => .inr fun _ => not_false
  have dispatched {p : Dap Unit} (hne : t ≠ .callback) (h : Orderly {} .dispatcher p) :
      Spares {} .caller t j (invoke t p) :=
    .invoke hne hne off (h.spares hne (by rintro ⟨⟩) False.elim False.elim)
  cases j with
  | request root =>
    obtain rfl : t = .request := ht
    have orderly : Orderly _ .caller (handleRequest root) := handleRequest_orderly
    exact spared (orderly.spares (by rintro ⟨⟩) (fun _ => rfl) (fun _ => rfl)
      fun h => ⟨root, rfl, h⟩) ⟨fun h => absurd rfl h, fun _ h => h.elim⟩
  | teardown =>
    obtain rfl : t = .request := ht
    have orderly : Orderly {} .caller Server.teardown := teardown_orderly
    exact spared (.bind (orderly.spares (by rintro ⟨⟩) (fun _ => rfl) (fun _ => rfl) False.elim)
      fun _ => .ret _) nothing
  | loopCondition id =>
    exact spared (.bind (.plain off trivial) fun _ => .ite
      (.bind (.plain off trivial) fun _ => .ret _) (.ret _)) nothing
  | loopBody id =>
    obtain rfl : t = .loop := ht
    have restore : Spares {} .caller .loop _ (restoreSourceLineSteppingIfNeeded .loop id) :=
      .bind (.plain off trivial) fun _ => .ite
        (.bind (.catching (dispatched (by rintro ⟨⟩) (Session.enableSourceLineStepping_orderly id))
          fun _ => .ret _) fun _ => .plain off trivial) (.ret _)
    exact spared (.bind (.bind (dispatched (by rintro ⟨⟩) (Session.waitForEvent_orderly id))
      fun _ => .bind (.plain off trivial) fun _ => .ite restore (.ret _)) fun _ => .ret _) nothing
  | loopEnd =>
    obtain rfl : t = .loop := ht
    exact spared (.bind (.bind (.drain off (by rintro ⟨⟩)) fun _ =>
      .bind (.off off not_false fun _ _ h => h.elim) fun _ =>
        .bind (.off off not_false fun _ _ h => h.elim) fun _ =>
          .bind (.off off not_false fun _ _ h => h.elim) fun _ => .plain off trivial)
      fun _ => .ret _) nothing
  | callback id event threads current =>
    obtain rfl : t = .callback := ht
    have orderly : Orderly { ends := event.endsSession = true } .callback (onCallback id event) :=
      onCallback_orderly event fun h => h
    refine spared (.bind (orderly.spares rfl (by rintro ⟨⟩) False.elim False.elim) fun _ => .ret _)
      ⟨fun _ => ?_, fun _ h => h.elim⟩
    unfold Server.Held
    rw [if_pos rfl]
    exact hcallback rfl
  | pump id =>
    obtain rfl : t = .pump := ht
    exact spared (.bind (.catching (dispatched (by rintro ⟨⟩) (Session.waitForEvent_orderly id))
      fun _ => .ret _) fun _ => .ret _) nothing

theorem custody_valid (fullPath : String → String) :
    custody.Valid custodySystem { fullPath } where
  init := by rintro id ⟨⟩
  rest _ := trivial
  start {t j s s'} hi _ h := by
    obtain ⟨h, hinv, hrest⟩ := h
    have hkeeps := (startJob_safe hinv hrest h).1
    refine ⟨custody_keeps hi hkeeps (startJob_kind h), fun s'' hr _ => ?_⟩
    refine Job.body_spares (startJob_thread h) fun ht => ?_
    have hactive : s'.callbackActive = true := by
      have hthread := startJob_thread h
      cases j with
      | callback id event threads current =>
        obtain ⟨-, rfl⟩ := startJob_callback h
        rfl
      | _ => cases ht.symm.trans hthread
    exact (hr.control.active ht).trans hactive
  finish {t j r s s'} hi _ h := by
    obtain ⟨h, hinv, hpost⟩ := h
    exact ⟨custody_keeps hi (finishJob_rests hinv hpost h).1 (finishJob_kind h), trivial⟩

/-- **Kernel targets are spared**: along every run, where a thread comes to the call that ends the
target of a session, and all through that call, the session is not open to a kernel, unless the
thread is handling a terminate request. -/
theorem kernel_spared {fullPath : String → String} {ls : List Lab} {c : Conf}
    (hr : adapter.system.Run (.init { fullPath }) ls c) {t : Tid} {j : Job} {β : Type}
    {o : DapOp β} {k : β → Dap Bool} (busy : c.threads t = some (j, .op o k)) {id : SessionId}
    (ho : o.endsTarget id) :
    (c.state.sessions id).isKernel = false ∨
      ∃ root, j = .request root ∧ requestCommand root = "terminate" :=
  Demands.need_of_run (custody_valid fullPath)
    (Demands.restrict_run (turns_valid fullPath) hr) busy id ho

/-- The request thread comes to the call that ends a kernel target. -/
def Conf.endsKernel (c : Conf) : Bool :=
  match c.threads .request with
  | some (_, .op (.enter id .endSessionTerminate) _) => (c.state.sessions id).isKernel
  | _ => false

theorem exists_of_endsKernel {c : Conf} (h : c.endsKernel = true) :
    ∃ (j : Job) (β : Type) (o : DapOp β) (k : β → Dap Bool) (id : SessionId),
      c.threads .request = some (j, .op o k) ∧ o.endsTarget id ∧
        (c.state.sessions id).isKernel = true := by
  unfold Conf.endsKernel at h
  split at h
  · rename_i j id k hb
    exact ⟨j, _, _, k, id, hb, rfl, h⟩
  · cases h

/-- A kernel is attached to, and the client asks to terminate it. -/
def Schedule.terminateKernel : Schedule :=
  enter .request (.request (message 1 "attach" [("kernel", .bool true),
      ("connectionString", .str "net:port=50000")])) 53 ++
    report .createThread ++ leave .request ++ enter .request (.request (message 2 "terminate")) 9

theorem kernel_spared_terminate : ∃ (ls : List Lab) (c : Conf) (j : Job) (p : Dap Bool)
    (id : SessionId), adapter.system.Run (.init {}) ls c ∧ c.threads .request = some (j, p) ∧
      (c.state.sessions id).isKernel = true ∧
        ∃ root, j = .request root ∧ requestCommand root = "terminate" := by
  obtain ⟨c, ⟨ls, hr⟩, -, htest⟩ := reachable_of_exec Schedule.terminateKernel Conf.endsKernel
    (by decide +kernel)
  obtain ⟨j, β, o, k, id, busy, ho, hkernel⟩ := exists_of_endsKernel htest
  exact ⟨ls, c, j, _, id, hr, busy, hkernel,
    (@kernel_spared _ ls c hr _ _ _ _ _ busy _ ho).resolve_left (by rw [hkernel]; rintro ⟨⟩)⟩

end

end DapDbgeng
