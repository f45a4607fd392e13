/-
  The addresses the adapter gives the engine.

  * `given`: the addresses passed in an execution;
  * `GivesOnly`: the programs that pass addresses of some set only;
  * `applyUpdate_giving`: a setter of breakpoints passes the addresses of its commands, in order,
    unless something refuses it.
-/
import DapDbgeng.InboundMessages
import DapDbgeng.RespondsOnce
import DapDbgeng.SessionWp

namespace DapDbgeng

open Concurrent Concurrent.Prog

/-! ## The calls of a program -/

/-- The operations that make calls of the kind `C` only. -/
def DapOp.calls (C : ∀ {γ : Type}, Call γ → Prop) : ∀ {β : Type}, DapOp β → Prop
  | _, .call _ c | _, .enter _ c | _, .leave _ c => C c
  | _, _ => True

section

variable {C : ∀ {γ : Type}, Call γ → Prop} {α β : Type}

namespace Server

section

variable [AllowsCommon C]

end

end Server

end

/-! ## What the engine is given -/

/-- The address a call passes. -/
def Call.address? : ∀ {β : Type}, Call β → Option ℕ
  | _, .execute (.instructionBreakpoint a) | _, .execute (.dataBreakpoint a _ _) => some a
  | _, .disassembleOne a _ | _, .symbolStart a => some a
  | _, .readVirtual a _ | _, .writeVirtual a _ => some a
  | _, _ => none

def DapOp.address? : ∀ {β : Type}, DapOp β → Option ℕ
  | _, .call _ c | _, .leave _ c => c.address?
  | _, _ => none

/-- The addresses passed to the engine, in order. -/
def given (es : List (Concurrent.Event DapOp)) : List ℕ := es.filterMap fun e => e.op.address?

/-- The address passed is in `A`. -/
def Call.gives (A : ℕ → Prop) {β : Type} (c : Call β) : Prop := ∀ a, c.address? = some a → A a

theorem Call.common.address {β : Type} {c : Call β} (h : c.common) : c.address? = none := by
  cases c with
  | execute command => cases command <;> first | rfl | exact h.elim
  | disassembleOne | symbolStart | readVirtual | writeVirtual => exact h.elim
  | _ => rfl

instance {A : ℕ → Prop} : AllowsCommon (Call.gives A) where
  allows c hc := by
    intro a ha
    rw [hc.address] at ha
    cases ha

abbrev GivesOnly (A : ℕ → Prop) {α : Type} (p : Dap α) : Prop :=
  AllOps (DapOp.calls (Call.gives A)) p

/-- The addresses of an execution are among those its program may give. -/
theorem GivesOnly.given {A : ℕ → Prop} {α : Type} {p : Dap α} (h : GivesOnly A p)
    {es : List (Concurrent.Event DapOp)} {r : Except Exn α} (hp : Path p es r) :
    ∀ a ∈ given es, A a := by
  intro a ha
  obtain ⟨⟨o, b⟩, he, ha⟩ := List.mem_filterMap.1 ha
  have hcalls := h.of_path hp _ he
  cases o with
  | call id c => exact hcalls a ha
  | leave id c => exact hcalls a ha
  | _ => cases ha

/-! ## What refuses an update -/

/-- There is no session, it is disposed of, or the engine refuses. -/
def DapOp.refuses : ∀ {β : Type}, DapOp β → β → Bool
  | _, .session, r => r.isNone
  | _, .readSession _, x => x.disposed
  | _, .call _ .setInterrupt, r => !r.isOk
  | _, .call _ (.execute _), r => !r.status.isOk
  | _, _, _ => false

def Refused (es : List (Concurrent.Event DapOp)) : Prop := ∃ e ∈ es, e.op.refuses e.result = true

/-- What of an execution matters here: the addresses passed, and whether anything was refused. -/
structure Passed where
  addresses : List ℕ := []
  refused : Bool := false

def Passed.after (e : Concurrent.Event DapOp) (p : Passed) : Passed :=
  ⟨p.addresses ++ e.op.address?.toList, p.refused || e.op.refuses e.result⟩

theorem Passed.foldl (es : List (Concurrent.Event DapOp)) (p : Passed) :
    (es.foldl (fun p e => p.after e) p).addresses = p.addresses ++ given es ∧
      ((es.foldl (fun p e => p.after e) p).refused = true ↔ p.refused = true ∨ Refused es) := by
  induction es generalizing p with
  | nil => simp [given, Refused]
  | cons e es ih =>
    obtain ⟨haddresses, hrefused⟩ := ih (p.after e)
    refine ⟨?_, hrefused.trans ?_⟩
    · rw [List.foldl_cons, haddresses, Passed.after, given, given, List.filterMap_cons]
      cases e.op.address? <;> simp
    · simp [Refused, Passed.after, or_assoc]

/-- The same addresses, and no more refused. -/
structure Passed.Within (p q : Passed) : Prop where
  addresses : p.addresses = q.addresses
  refused : p.refused = true → q.refused = true

theorem Passed.Within.after {p q : Passed} (h : p.Within q) (e : Concurrent.Event DapOp) :
    (p.after e).Within (q.after e) where
  addresses := by rw [Passed.after, Passed.after, h.addresses]
  refused hr := by
    dsimp only [Passed.after] at hr ⊢
    rw [Bool.or_eq_true] at hr ⊢
    exact hr.imp_left h.refused

/-- An event that passes no address may be left out. -/
theorem Passed.Within.skip {p q : Passed} (h : p.Within q) {e : Concurrent.Event DapOp}
    (he : e.op.address? = none) : p.Within (q.after e) where
  addresses := by simp [Passed.after, he, h.addresses]
  refused hr := by rw [Passed.after, h.refused hr, Bool.true_or]

/-! ## On the dispatcher -/

/-- The record of a session and what has been passed. -/
abbrev GivenView := Session × Passed

def givingPre (id : SessionId) :
    ∀ {β : Type}, DapOp β → (β → GivenView → Prop) → GivenView → Prop
  | _, .readSession i => fun K v => i = id ∧
    (K v.1 v ∨ K v.1 (v.1, v.2.after ⟨.readSession i, v.1⟩))
  | _, .updateSession i u => fun K v => i = id ∧ K () (v.1.update u, v.2)
  | _, .call i c => fun K v => i = id ∧ ∀ b created after,
    K b ({ v.1 with engine := c.effect created after b v.1.engine }, v.2.after ⟨.call i c, b⟩)
  | _, .send _ => fun K v => K () v
  | _, _ => fun _ _ => False

def givingSpec (id : SessionId) : Spec DapOp GivenView where
  pre := givingPre id
  mono o K K' hK v h := by
    cases o with
    | readSession i => exact ⟨h.1, h.2.imp (hK _ _) (hK _ _)⟩
    | updateSession i u => exact ⟨h.1, hK _ _ h.2⟩
    | call i c => exact ⟨h.1, fun b created after => hK _ _ (h.2 b created after)⟩
    | send m => exact hK _ _ h
    | _ => exact h.elim

/-- What the other threads do while the request thread handles a request: no other session is
opened, nobody else is served while it is, and nobody leaves an output captured behind. -/
structure Tended (id : SessionId) (s s' : Server) : Prop where
  session : ∀ id' ∈ s'.session, id' = id
  served : s.holder = some .request → s'.holder = some .request ∧ s'.sessions id = s.sessions id
  free : s'.holder = none → (s'.sessions id).outputCapture = none

/-- The steps of the request thread, with what has been passed. -/
abbrev givingSteps (id : SessionId) : StepRel DapOp (Server × Passed) :=
  ((sem .request).under (Tended id)).recording fun e p => p.after e

/-- The request thread is served, and the view says what it has passed. -/
structure Serving (id : SessionId) (v : GivenView) (p : Server × Passed) : Prop where
  holder : p.1.holder = some .request
  session : v.1 = p.1.sessions id
  within : v.2.Within p.2

theorem Serving.step {id : SessionId} {v : GivenView} {p : Server × Passed} {β : Type} {o : DapOp β}
    {K : β → GivenView → Prop} (hv : Serving id v p) (hw : (givingSpec id).pre o K v) {b : β}
    {p' : Server × Passed} (h : givingSteps id β o p b p') : ∃ v', Serving id v' p' ∧ K b v' := by
  rcases v with ⟨x, passed⟩
  rcases p with ⟨s, q⟩
  rcases p' with ⟨s', q'⟩
  obtain ⟨hholder, hsession, hwithin⟩ := hv
  obtain ⟨⟨s₁, htended, hsem⟩, hq⟩ := h
  dsimp only at hholder hsession hwithin hsem hq
  obtain ⟨hserved, hsame⟩ := htended.served hholder
  dsimp only at hsame
  rw [← hsame] at hsession
  subst hsession hq
  cases o with
  | readSession i =>
    obtain ⟨rfl, rfl⟩ := sem_readSession.1 hsem
    obtain ⟨rfl, hK | hK⟩ := hw
    · exact ⟨_, ⟨hserved, rfl, hwithin.skip rfl⟩, hK⟩
    · exact ⟨_, ⟨hserved, rfl, hwithin.after _⟩, hK⟩
  | updateSession i u =>
    obtain ⟨rfl, hK⟩ := hw
    obtain rfl := sem_updateSession.1 hsem
    refine ⟨_, ⟨hserved, ?_, hwithin.skip rfl⟩, hK⟩
    exact (if_pos rfl).symm.trans (Server.modifySession_sessions s₁ i i (·.update u)).symm
  | call i c =>
    obtain ⟨rfl, hK⟩ := hw
    obtain ⟨created, after, -, -, rfl⟩ := sem_call hsem
    refine ⟨_, ⟨hserved, ?_, hwithin.after _⟩, hK b created after⟩
    exact (Server.updateEngine_sessions ..).trans (if_pos rfl) |>.symm
  | send m =>
    have hs : s'.sessions = s₁.sessions ∧ s'.holder = s₁.holder := by
      rw [sem_send.1 hsem]
      split <;> exact ⟨rfl, rfl⟩
    exact ⟨_, ⟨hs.2.trans hserved, (congrFun hs.1 id).symm, hwithin.skip rfl⟩, hw⟩
  | _ => exact hw.elim

namespace Session

variable {id : SessionId} {v : GivenView}

end Session

/-! ## The handler of a setter -/

/-- The update has passed its addresses, or it was refused. -/
def Passed.Gave (as : List ℕ) (p : Passed) : Prop :=
  p.addresses = as ∨ p.addresses = [] ∧ p.refused = true

theorem Passed.Gave.mono {as : List ℕ} {p q : Passed} (h : p.Gave as) (hw : p.Within q) :
    q.Gave as := by
  rw [Passed.Gave, ← hw.addresses]
  exact h.imp_right fun h => ⟨h.1, hw.refused h.2⟩

theorem Passed.Within.refl (p : Passed) : p.Within p := ⟨rfl, fun h => h⟩

section

variable {α : Type} {id : SessionId} {as : List ℕ}

abbrev handing (id : SessionId) : Spec DapOp (Server × Passed) := .ofRel (givingSteps id)

theorem Serving.pre {β : Type} (o : DapOp β) {K : β → GivenView → Prop} {v : GivenView}
    {q : Server × Passed} (hv : Serving id v q) (hw : (givingSpec id).pre o K v) :
    (handing id).pre o (fun b q' => ∃ v', Serving id v' q' ∧ K b v') q :=
  fun _ _ h => hv.step hw h

open Server

variable {update : Dap α}

end

end DapDbgeng
