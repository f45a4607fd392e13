/-
  The client is greeted once.

  The initialized event follows the response to initialize, and the request is refused from then on.

  * `initialize_greets`: only a client that was not greeted is greeted;
  * `greeted_once`: along every run, there is one initialized event at most.
-/
import DapDbgeng.OrderlyRuns

namespace DapDbgeng

open Concurrent Concurrent.Prog

def Message.isGreeting : Message → Bool
  | .event .initialized => true
  | _ => false

namespace Server

/-- How often the client was greeted. -/
def greetings (s : Server) : Nat := s.sent.countP Message.isGreeting

/-- Where the client was greeted, the adapter knows. -/
structure Greeted (s : Server) : Prop where
  once : s.greetings ≤ 1
  known : s.flags .initializeRequestHandled = false → s.greetings = 0

/-- The same as far as greeting goes. -/
def SameGreeting (s s' : Server) : Prop :=
  s'.flags .initializeRequestHandled = s.flags .initializeRequestHandled ∧
    s'.greetings = s.greetings

variable {s s' s'' : Server}

theorem SameGreeting.refl (s : Server) : SameGreeting s s := ⟨rfl, rfl⟩

theorem SameGreeting.trans (h : SameGreeting s s') (h' : SameGreeting s' s'') :
    SameGreeting s s'' := ⟨h'.1.trans h.1, h'.2.trans h.2⟩

theorem Greeted.same (h : s.Greeted) (hs : SameGreeting s s') : s'.Greeted where
  once := hs.2 ▸ h.once
  known hf := hs.2 ▸ h.known (hs.1 ▸ hf)

end Server

/-- The operations with no part in greeting. -/
def DapOp.greetless : ∀ {β : Type}, DapOp β → Prop
  | _, .store .initializeRequestHandled _ | _, .send (.event .initialized) => False
  | _, _ => True

theorem DapOp.greetless_of_common {β : Type} {o : DapOp β} (h : o.common) : o.greetless := by
  cases o with
  | store f b => cases f <;> trivial
  | send m =>
    cases m with
    | response r => trivial
    | event e => cases e <;> trivial
  | _ => trivial

open Server in
theorem sem_greeting {t : Tid} {β : Type} {o : DapOp β} {b : β} {s s' : Server} (ho : o.greetless)
    (h : sem t β o s b s') : SameGreeting s s' := by
  cases o with
  | store f v =>
    rw [sem_store.1 h]
    refine ⟨?_, rfl⟩
    rw [Server.setFlag_flags]
    split
    · rename_i hf
      subst hf
      exact ho.elim
    · rfl
  | send m =>
    have hm : m.isGreeting = false := by
      cases m with
      | response r => rfl
      | event e => cases e <;> first | rfl | exact ho.elim
    rw [sem_send.1 h]
    split
    · refine ⟨rfl, ?_⟩
      rw [greetings, greetings, List.countP_append, List.countP_singleton, hm]
      rfl
    · exact .refl s
  | call id c =>
    obtain ⟨_, _, -, -, rfl⟩ := sem_call h
    exact ⟨rfl, rfl⟩
  | leave id c =>
    obtain ⟨-, -, _, _, -, rfl⟩ := sem_leave h
    exact ⟨rfl, rfl⟩
  | enter id c =>
    obtain ⟨_, -, -, -, rfl⟩ := sem_enter.1 h
    exact ⟨rfl, rfl⟩
  | acquire =>
    obtain ⟨_, -, -, rfl⟩ := sem_acquire.1 h
    exact ⟨rfl, rfl⟩
  | lockGate =>
    obtain ⟨-, rfl⟩ := sem_lockGate.1 h
    exact ⟨rfl, rfl⟩
  | joinLoop =>
    obtain ⟨-, rfl⟩ := sem_joinLoop.1 h
    exact ⟨rfl, rfl⟩
  | _ =>
    obtain ⟨_, h⟩ := h
    cases h
    exact ⟨rfl, rfl⟩

open Server in
/-- Only the request thread greets. -/
def greeting : Outline Tid Job Exn Bool Server where
  Inv := Greeted
  rely t s s' := t = .request → SameGreeting s s'
  post _ _ _ _ := True
  rely_refl _ s := fun _ => .refl s
  rely_trans h h' := fun ht => (h ht).trans (h' ht)

section

open Server

variable {t : Tid}

theorem greeting_keeps {s s' : Server} (hi : s.Greeted) (h : SameGreeting s s') :
    greeting.Keeps t s s' := ⟨hi.same h, fun _ _ _ => h⟩

theorem greeting_pre {β : Type} {o : DapOp β} (ho : o.greetless) (s : Server) :
    (greeting.spec adapter.system t).pre o (fun _ _ => True) s :=
  fun _ _ hi h => ⟨greeting_keeps hi (sem_greeting ho h), fun _ _ _ => trivial⟩

/-- Only a client that was not greeted is greeted. -/
theorem initialize_greets (request : Request Unit) (s : Server) :
    (handleInitializeRequest request).wp (greeting.spec adapter.system .request)
      (fun _ _ => True) (fun _ _ => True) s := by
  let S := greeting.spec adapter.system .request
  -- what the request thread knows of the greeting the others leave alone
  have step {β : Type} {o : DapOp β} {f : β → Dap Unit} {K : β → Server → Prop} {s : Server}
      (hop : ∀ b s', s.Greeted → sem .request β o s b s' → s'.Greeted ∧ K b s')
      (hstable : ∀ b {s s'}, K b s → SameGreeting s s' → K b s')
      (hf : ∀ b s', K b s' → (f b).wp S (fun _ _ => True) (fun _ _ => True) s') :
      (Prog.op o f).wp S (fun _ _ => True) (fun _ _ => True) s :=
    S.mono o hf fun b s' hi h => ⟨⟨(hop b s' hi h).1, fun _ hu hr => absurd hr hu⟩,
      fun _ hr _ => hstable b (hop b s' hi h).2 (hr rfl)⟩
  refine step (K := fun b s => s.flags .initializeRequestHandled = b) (fun b s' hi h => ?_)
    (fun b _ _ hK hs => hs.1.trans hK) fun b s₁ hb => ?_
  · obtain ⟨rfl, rfl⟩ := sem_load.1 h
    exact ⟨hi, rfl⟩
  cases b with
  | true => exact greeting_pre (by trivial) s₁
  | false =>
    refine step (K := fun _ s => s.flags .initializeRequestHandled = false) (fun _ s' hi h => ?_)
      (fun _ _ _ hK hs => hs.1.trans hK) fun _ s₂ h₂ => ?_
    · have hs := sem_greeting (by trivial) h
      exact ⟨hi.same hs, hs.1.trans hb⟩
    refine step (K := fun _ s => s.greetings = 0 ∧ s.flags .initializeRequestHandled = true)
      (fun _ s' hi h => ?_) (fun _ _ _ hK hs => ⟨hs.2.trans hK.1, hs.1.trans hK.2⟩)
      fun _ s₃ h₃ => ?_
    · have hnone := hi.known h₂
      rw [sem_store.1 h]
      have hf : (s₂.setFlag .initializeRequestHandled true).flags .initializeRequestHandled =
          true := (Server.setFlag_flags _ _ _ _).trans (if_pos rfl)
      exact ⟨⟨hnone.trans_le zero_le_one, fun h => by cases hf.symm.trans h⟩, hnone, hf⟩
    refine step (K := fun _ _ => True) (fun _ s' hi h => ⟨?_, trivial⟩) (fun _ _ _ _ _ => trivial)
      fun _ _ _ => trivial
    rw [sem_send.1 h]
    split
    · refine ⟨?_, fun h => by cases h₃.2.symm.trans h⟩
      change (s₃.sent ++ [Message.event .initialized]).countP Message.isGreeting ≤ 1
      rw [List.countP_append, show s₃.sent.countP Message.isGreeting = 0 from h₃.1]
      exact le_refl 1
    · exact hi

theorem suppressed_greets {α : Type} {p : Dap α}
    (hp : ∀ s, True → p.wp (greeting.spec adapter.system .request) (fun _ _ => True)
      (fun _ _ => True) s) (s : Server) :
    (runWithSuppressedSessionEvents p).wp (greeting.spec adapter.system .request)
      (fun _ _ => True) (fun _ _ => True) s := by
  have put (b : Bool) (s : Server) : (greeting.spec adapter.system .request).pre
      (.store .suppressSessionEvents b) (fun _ _ => True) s := greeting_pre (by trivial) s
  rw [runWithSuppressedSessionEvents, bind_eq, wp_bind]
  refine (greeting.spec adapter.system .request).mono _ (fun _ s₁ _ => ?_) (put true s)
  rw [bind_eq, wp_ret, wp_bind, wp_catching]
  exact wp_mono (fun _ s' _ => put false s') (fun _ s' _ => put false s') (hp s₁ trivial)

theorem greeting_valid (fullPath : String → String) :
    greeting.Valid adapter.system { fullPath } where
  init := ⟨Nat.zero_le _, fun _ => rfl⟩
  start {t j s s'} hi h := by
    have hm := startJob_members h
    have hsame : SameGreeting s s' := ⟨by rw [hm.2.1], by rw [greetings, greetings, hm.2.2]⟩
    refine ⟨greeting_keeps hi hsame, fun s'' _ _ => ?_⟩
    have hthread := startJob_thread h
    by_cases ht : t = .request
    · have keeps {p : Dap Bool} {L : Licence} (hp : Orderly L .caller p) :
          p.wp (greeting.spec adapter.system .request) (fun _ _ => True) (fun _ _ => True) s'' :=
        hp.wp_keeps (I := fun _ => True)
          (fun o ho s _ => greeting_pre (DapOp.greetless_of_common ho) s)
          (fun _ s _ => greeting_pre (by trivial) s) (fun hp s _ => suppressed_greets hp s)
          (fun request s _ => initialize_greets request s) trivial
      subst ht
      cases j with
      | request root => exact keeps handleRequest_orderly
      | teardown => exact keeps (.bind (teardown_orderly (L := {})) fun _ => .ret _)
      | _ => cases hthread
    · have hj : j.thread ≠ .request := fun hj => ht (hthread.trans hj)
      have greetless : AllOps DapOp.greetless j.body :=
        Job.body_allOps hj (fun _ => DapOp.greetless_of_common) fun _ _ => trivial
      exact wp_of_allOps (I := fun _ => True) (fun o ho s _ => greeting_pre ho s) greetless trivial
  finish {t j r s s'} hi _ h := by
    have hm := finishJob_members h
    exact greeting_keeps hi ⟨by rw [hm.2.1], by rw [greetings, greetings, hm.2.2]⟩

end

/-- **One greeting**: along every run, the client gets at most one initialized event. -/
theorem greeted_once {fullPath : String → String} {ls : List Lab} {c : Conf}
    (hr : adapter.system.Run (.init { fullPath }) ls c) :
    c.state.sent.countP Message.isGreeting ≤ 1 :=
  (Outline.sound (greeting_valid fullPath) hr).once

/-- initialize is sent twice. -/
def Schedule.greetTwice : Schedule :=
  Schedule.serve (Schedule.message 1 "initialize") ++
    Schedule.serve (Schedule.message 2 "initialize")

theorem greeted_once_twice : ∃ (ls : List Lab) (c : Conf),
    adapter.system.Run (.init {}) ls c ∧ c.state.sent.length = 3 ∧
      c.state.sent.any Message.isGreeting = true ∧
        c.state.sent.countP Message.isGreeting ≤ 1 := by
  obtain ⟨c, ⟨ls, hr⟩, -, htest⟩ := reachable_of_exec Schedule.greetTwice
    (fun c => c.state.sent.length == 3 && c.state.sent.any Message.isGreeting)
    (by decide +kernel)
  obtain ⟨hlength, hany⟩ := Bool.and_eq_true_iff.1 htest
  exact ⟨ls, c, hr, eq_of_beq hlength, hany, @greeted_once _ ls c hr⟩

end DapDbgeng
