/-
  Requests that arrive while the dispatcher is parked in `wait_for_event`.

  A function handed to the dispatcher then waits until the target stops, and with it every later
  request.  Main definitions:

  * `InterruptsFirst p s`: from `s`, as long as the target does not stop by itself, `p` hands
    nothing to the dispatcher before it has interrupted the target;
  * `Safe id p`: the same by weakest preconditions, from every parked state of session `id`;
  * `Queues p s`: `p` does hand something to the dispatcher before it interrupts.
-/
import DapDbgeng.Semantics
import DapDbgeng.Server

namespace DapDbgeng

open Concurrent Concurrent.Prog

/-- The target of the live session `id` runs. -/
structure TargetRuns (id : SessionId) (s : Server) : Prop where
  running : s.flags .isExecutionRunning = true
  session : s.session = some id
  alive : (s.sessions id).disposed = false

/-- The target runs and the dispatcher is inside `wait_for_event`. -/
structure Parked (id : SessionId) (s : Server) : Prop extends TargetRuns id s where
  holder : s.holder = some .loop
  inCall : s.inCall = some (id, .wait)

/-- What the other threads leave alone while the target does not stop. -/
structure Undisturbed (s s' : Server) : Prop where
  running : s'.flags .isExecutionRunning = s.flags .isExecutionRunning
  session : s'.session = s.session
  tables : s'.tables = s.tables
  alive : ∀ id, s.session = some id → (s'.sessions id).disposed = (s.sessions id).disposed

/-- The request thread, the others leaving the target running. -/
abbrev undisturbed : StepRel DapOp Server := StepRel.under Undisturbed (sem .request)

def DapOp.interrupts : ∀ {β : Type}, DapOp β → Prop
  | _, .call _ .setInterrupt => True
  | _, _ => False

/-- An interrupt was issued. -/
def Interrupted (es : List (Concurrent.Event DapOp)) : Prop := ∃ e ∈ es, e.op.interrupts

/-- Nothing is handed to the dispatcher before an interrupt. -/
def InterruptsFirst {α : Type} (p : Dap α) (s : Server) : Prop :=
  ∀ es (k : Unit → Dap α) s', Steps undisturbed p s es (.op .enqueue k) s' → Interrupted es

/-! ## Weakest preconditions -/

/-- Operations before the interrupt: only the tables matter.  Nothing is asked once the interrupt
is issued. -/
def parkedPre (id : SessionId) :
    ∀ {β : Type}, DapOp β → (β → Tables → Prop) → Tables → Prop
  | _, .enqueue => fun _ _ => False
  | _, .store .isExecutionRunning _ => fun _ _ => False
  | _, .setSession _ => fun _ _ => False
  | _, .takeSession => fun _ _ => False
  | _, .newSession => fun _ _ => False
  | _, .updateSession _ .dispose => fun _ _ => False
  | _, .call _ .setInterrupt => fun _ _ => True
  | _, .load .isExecutionRunning => fun K d => K true d
  | _, .session => fun K d => K (some id) d
  | _, .readSession id' => fun K d => ∀ x : Session, (id' = id → x.disposed = false) → K x d
  | _, .tables => fun K d => K d d
  | _, .modify f => fun K d => K (f d).1 (f d).2
  | _, _ => fun K d => ∀ b, K b d

def parkedSpec (id : SessionId) : Spec DapOp Tables where
  pre := parkedPre id
  mono o K K' hK d h := by
    cases o with
    | load f => cases f <;> first | exact hK _ _ h | exact fun b => hK _ _ (h b)
    | store f v => cases f <;> first | exact h | exact fun b => hK _ _ (h b)
    | updateSession _ u => cases u <;> first | exact h | exact fun b => hK _ _ (h b)
    | call _ c => cases c <;> first | exact h | exact fun b => hK _ _ (h b)
    | tables | modify | session => exact hK _ _ h
    | readSession => exact fun x hx => hK _ _ (h x hx)
    | enqueue | setSession | takeSession | newSession => exact h
    | _ => exact fun b => hK _ _ (h b)

/-- The operations that neither use the dispatcher nor touch the session or the running flag. -/
def DapOp.aside : ∀ {β : Type}, DapOp β → Prop
  | _, .enqueue => False
  | _, .store .isExecutionRunning _ => False
  | _, .setSession _ => False
  | _, .takeSession => False
  | _, .newSession => False
  | _, .updateSession _ .dispose => False
  | _, _ => True

theorem Session.update_disposed {x : Session} {u : SessionUpdate} (h : u ≠ .dispose) :
    (x.update u).disposed = x.disposed := by
  cases u <;> first | rfl | exact absurd rfl h

/-- One step before the interrupt. -/
theorem parkedPre_step {id : SessionId} {β : Type} {o : DapOp β} {K : β → Tables → Prop}
    {s s' : Server} {b : β} (hr : TargetRuns id s) (ho : ¬o.interrupts)
    (hw : parkedPre id o K s.tables) (h : undisturbed β o s b s') :
    TargetRuns id s' ∧ K b s'.tables := by
  obtain ⟨s₁, hu, h⟩ := h
  have hr₁ : TargetRuns id s₁ :=
    ⟨hu.running.trans hr.running, hu.session.trans hr.session,
      (hu.alive id hr.session).trans hr.alive⟩
  rw [← hu.tables] at hw
  clear hu hr s
  cases o with
  | load f =>
    obtain ⟨rfl, rfl⟩ := sem_load.1 h
    refine ⟨hr₁, ?_⟩
    cases f <;> first | exact hw _ | exact hr₁.running ▸ hw
  | store f v =>
    rw [sem_store.1 h]
    cases f <;> first | exact hw.elim | exact ⟨⟨hr₁.running, hr₁.session, hr₁.alive⟩, hw _⟩
  | tables => obtain ⟨rfl, rfl⟩ := sem_tables.1 h; exact ⟨hr₁, hw⟩
  | modify f =>
    obtain ⟨rfl, rfl⟩ := sem_modify.1 h
    exact ⟨⟨hr₁.running, hr₁.session, hr₁.alive⟩, hw⟩
  | session => obtain ⟨rfl, rfl⟩ := sem_session.1 h; exact ⟨hr₁, hr₁.session ▸ hw⟩
  | readSession id' =>
    obtain ⟨rfl, rfl⟩ := sem_readSession.1 h
    exact ⟨hr₁, hw _ fun he => he ▸ hr₁.alive⟩
  | updateSession id' u =>
    have hu : u ≠ .dispose := by rintro rfl; exact hw
    rw [sem_updateSession.1 h]
    refine ⟨⟨hr₁.running, hr₁.session, ?_⟩, ?_⟩
    · by_cases he : id = id'
      · subst he; simp [Session.update_disposed hu, hr₁.alive]
      · simp [he, hr₁.alive]
    · cases u <;> first | exact hw.elim | exact hw _
  | call id' c =>
    obtain ⟨_, _, -, -, rfl⟩ := sem_call h
    refine ⟨⟨hr₁.running, hr₁.session, by simpa using hr₁.alive⟩, ?_⟩
    cases c <;> first | exact (ho trivial).elim | exact hw _
  | leave id' c =>
    obtain ⟨-, -, _, _, -, rfl⟩ := sem_leave h
    exact ⟨⟨hr₁.running, hr₁.session, by simpa using hr₁.alive⟩, hw _⟩
  | enter id' c =>
    obtain ⟨_, -, -, -, rfl⟩ := sem_enter.1 h
    exact ⟨⟨hr₁.running, hr₁.session, hr₁.alive⟩, hw _⟩
  | acquire =>
    obtain ⟨_, -, -, rfl⟩ := sem_acquire.1 h
    exact ⟨⟨hr₁.running, hr₁.session, hr₁.alive⟩, hw _⟩
  | send m =>
    rw [sem_send.1 h]
    split <;> exact ⟨⟨hr₁.running, hr₁.session, hr₁.alive⟩, hw _⟩
  | lockGate =>
    obtain ⟨-, rfl⟩ := sem_lockGate.1 h
    exact ⟨⟨hr₁.running, hr₁.session, hr₁.alive⟩, hw _⟩
  | joinLoop =>
    obtain ⟨-, rfl⟩ := sem_joinLoop.1 h
    exact ⟨⟨hr₁.running, hr₁.session, hr₁.alive⟩, hw _⟩
  | enqueue | setSession | takeSession | newSession => exact hw.elim
  | _ => obtain ⟨_, h⟩ := h; cases h; exact ⟨⟨hr₁.running, hr₁.session, hr₁.alive⟩, hw _⟩

/-- From a parked state with the given tables, nothing is handed to the dispatcher before the
interrupt. -/
def SafeFrom {α : Type} (id : SessionId) (p : Dap α) (d : Tables) : Prop :=
  p.wp (parkedSpec id) (fun _ _ => True) (fun _ _ => True) d

theorem SafeFrom.interruptsFirst {α : Type} {id : SessionId} {p : Dap α} {s : Server}
    (hr : TargetRuns id s) (hw : SafeFrom id p s.tables) : InterruptsFirst p s := by
  intro es k s' h
  by_contra hi
  suffices hq : ∀ q, Steps undisturbed p s es q s' → SafeFrom id q s'.tables from hq _ h
  clear h
  intro q h
  induction h with
  | nil => exact hw
  | @cons β o k b es q s s₁ s' hstep _ ih =>
    have ho : ¬o.interrupts := fun ho => hi ⟨⟨o, b⟩, List.mem_cons_self, ho⟩
    obtain ⟨hr₁, hw₁⟩ := parkedPre_step hr ho hw hstep
    exact ih hr₁ hw₁ fun ⟨e, he, ho⟩ => hi ⟨e, List.mem_cons_of_mem _ he, ho⟩

/-! ## Rules -/

/-- Safe whatever the tables. -/
def Safe {α : Type} (id : SessionId) (p : Dap α) : Prop := ∀ d, SafeFrom id p d

namespace Safe

variable {id : SessionId} {α β : Type}

theorem ret (a : α) : Safe id (.ret a : Dap α) := fun _ => trivial

theorem throw (e : Exn) : Safe id (.throw e : Dap α) := fun _ => trivial

theorem bind {p : Dap α} {f : α → Dap β} (hp : Safe id p) (hf : ∀ a, Safe id (f a)) :
    Safe id (p.bind f) := by
  intro d
  rw [SafeFrom, wp_bind]
  exact wp_mono (fun a d' _ => hf a d') (fun _ _ h => h) (hp d)

theorem catching {p : Dap α} {h : Exn → Dap α} (hp : Safe id p) (hh : ∀ e, Safe id (h e)) :
    Safe id (p.catching h) := by
  intro d
  rw [SafeFrom, wp_catching]
  exact wp_mono (fun _ _ h => h) (fun e d' _ => hh e d') (hp d)

theorem ite {c : Prop} [Decidable c] {p q : Dap α} (hp : Safe id p) (hq : Safe id q) :
    Safe id (if c then p else q) := by
  split
  · exact hp
  · exact hq

/-- Programs of operations aside. -/
theorem of_aside {p : Dap α} (h : AllOps DapOp.aside p) : Safe id p := by
  intro d
  refine wp_of_allOps (I := fun _ => True) (fun o ho d _ => ?_) h trivial
  cases o with
  | load f => cases f <;> first | exact trivial | exact fun _ => trivial
  | store f v => cases f <;> first | exact ho.elim | exact fun _ => trivial
  | updateSession _ u => cases u <;> first | exact ho.elim | exact fun _ => trivial
  | call _ c => cases c <;> first | exact trivial | exact fun _ => trivial
  | tables | modify | session => exact trivial
  | readSession => exact fun _ _ => trivial
  | enqueue | setSession | takeSession | newSession => exact ho.elim
  | _ => exact fun _ => trivial

theorem perform {o : DapOp α} (h : o.aside) : Safe id (Prog.perform o) := of_aside (.perform h)

/-- The target runs. -/
theorem loadRunning {f : Bool → Dap α} (h : Safe id (f true)) :
    Safe id ((load .isExecutionRunning).bind f) := h

/-- The session is there. -/
theorem getSession {f : Option SessionId → Dap α} (h : Safe id (f (some id))) :
    Safe id (DapDbgeng.getSession.bind f) := h

theorem requireDebuggerSession {f : SessionId → Dap α} (h : Safe id (f id)) :
    Safe id (Server.requireDebuggerSession.bind f) := h

/-- The reader of a stopped target is not called. -/
theorem readSessionDataOrDefault {reader : SessionId → Dap α} {fallback : α} :
    Safe id (Server.readSessionDataOrDefault reader fallback) := fun _ => trivial

end Safe

/-- `p` does not end before it has interrupted the target. -/
def Breaks {α : Type} (id : SessionId) (p : Dap α) : Prop :=
  ∀ d, p.wp (parkedSpec id) (fun _ _ => False) (fun _ _ => False) d

namespace Breaks

variable {id : SessionId} {α β : Type}

theorem safe {p : Dap α} (h : Breaks id p) : Safe id p :=
  fun d => wp_mono (fun _ _ => False.elim) (fun _ _ => False.elim) (h d)

/-- Nothing is asked of what follows. -/
theorem bind {p : Dap α} {f : α → Dap β} (h : Breaks id p) : Breaks id (p.bind f) := by
  intro d
  rw [wp_bind]
  exact wp_mono (fun _ _ => False.elim) (fun _ _ he => he) (h d)

theorem catching {p : Dap α} {f : Exn → Dap α} (h : Breaks id p) : Breaks id (p.catching f) := by
  intro d
  rw [wp_catching]
  exact wp_mono (fun _ _ hq => hq) (fun _ _ => False.elim) (h d)

theorem loadRunning {f : Bool → Dap α} (h : Breaks id (f true)) :
    Breaks id ((load .isExecutionRunning).bind f) := h

/-- The interrupt of a live session. -/
theorem interrupt : Breaks id (Session.interrupt id) := by
  intro d x hx
  change ((if x.disposed = true then throwRuntime _ else pure ()).bind _).wp _ _ _ d
  rw [hx rfl]
  exact trivial

end Breaks

/-! ## The other direction -/

def DapOp.enqueues : ∀ {β : Type}, DapOp β → Prop
  | _, .enqueue => True
  | _, _ => False

/-- Something is handed to the dispatcher before an interrupt. -/
abbrev Queues {α : Type} (p : Dap α) (s : Server) : Prop :=
  Reaches undisturbed (fun e => ¬e.op.interrupts) (fun o _ => o.enqueues) p s

namespace Queues

variable {α : Type} {s s₁ : Server}

theorem not_interruptsFirst {p : Dap α} (h : Queues p s) : ¬InterruptsFirst p s := by
  intro hi
  obtain ⟨es, β, o, k, s', hs, hn, ho⟩ := h
  cases o with
  | enqueue =>
    obtain ⟨e, he, h⟩ := hi es k s' hs
    exact hn e he h
  | _ => exact ho

theorem enqueue {k : Unit → Dap α} : Queues (.op .enqueue k) s := .here trivial

theorem op {γ : Type} {o : DapOp γ} {b : γ} {k : γ → Dap α} (a : Answers)
    (h : apply .request a o s = some (b, s₁)) (ho : ¬o.interrupts) (hk : Queues (k b) s₁) :
    Queues (.op o k) s :=
  Reaches.op ⟨s, ⟨rfl, rfl, rfl, fun _ _ => rfl⟩, a, h⟩ ho hk

end Queues

end DapDbgeng
