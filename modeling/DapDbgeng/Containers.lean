/-
  What a variable container keeps when one of its variables is set.

  A scopes request builds a container from the expanded symbol tree.  A setVariable request edits
  a structure in place, but rebuilds locals and registers from a flat read, which has names and
  values only.

  * `KeepsOthers name xs ys`: `ys` are the variables `xs` after setting the first one called
    `name`;
  * `isFlat`: a variable that says no more than a flat read;
  * `handleVariablesRequest_lists`: what a variables request answers;
  * `setVariable_keeps_others_iff`: when a successful setVariable keeps the others.
-/
import DapDbgeng.RespondsOnce
import DapDbgeng.Semantics
import DapDbgeng.Machine

namespace DapDbgeng

open Concurrent Concurrent.Prog

/-! ## Containers before and after -/

/-- The same variable, its value apart. -/
def SameButValue (x y : Variable) : Prop := y = { x with value := y.value }

/-- The same variables in the same order; the first one called `name` may change value and type,
the others only their value. -/
def KeepsOthers (name : String) : List Variable → List Variable → Prop
  | [], [] => True
  | x :: xs, y :: ys =>
    if x.name = name then
      y = { x with value := y.value, type := y.type } ∧ List.Forall₂ SameButValue xs ys
    else SameButValue x y ∧ KeepsOthers name xs ys
  | _, _ => False

/-- A variable that says no more than a flat read does. -/
def isFlat (x : Variable) : Prop := x = Server.createVariable { name := x.name, value := x.value }

/-- All variables are flat, but for the type of the first one called `name`. -/
def FlatBut (name : String) : List Variable → Prop
  | [] => True
  | x :: xs =>
    if x.name = name then isFlat { x with type := none } ∧ ∀ y ∈ xs, isFlat y
    else isFlat x ∧ FlatBut name xs

theorem SameButValue.refl (x : Variable) : SameButValue x x := rfl

theorem forall₂_sameButValue_refl (xs : List Variable) : List.Forall₂ SameButValue xs xs := by
  induction xs with
  | nil => exact .nil
  | cons x xs ih => exact .cons (.refl x) ih

open Server (createVariable)

theorem sameButValue_createVariable (x : Variable) (v : NamedValueInfo) :
    SameButValue x (createVariable v) ↔ isFlat x ∧ v.name = x.name := by
  obtain ⟨name, value, type, evaluateName, reference, named, indexed, memory, location⟩ := x
  obtain ⟨name', value'⟩ := v
  simp only [SameButValue, isFlat, createVariable, Variable.mk.injEq]
  constructor
  · rintro ⟨rfl, -, rfl, rfl, rfl, rfl, rfl, rfl, rfl⟩
    simp
  · rintro ⟨⟨-, -, rfl, rfl, rfl, rfl, rfl, rfl, rfl⟩, rfl⟩
    simp

theorem assigned_createVariable (x : Variable) (v : NamedValueInfo) :
    createVariable v = { x with
        value := (createVariable v).value, type := (createVariable v).type } ↔
      isFlat { x with type := none } ∧ v.name = x.name := by
  obtain ⟨name, value, type, evaluateName, reference, named, indexed, memory, location⟩ := x
  obtain ⟨name', value'⟩ := v
  simp only [isFlat, createVariable, Variable.mk.injEq]
  constructor
  · rintro ⟨rfl, -, -, rfl, rfl, rfl, rfl, rfl, rfl⟩
    simp
  · rintro ⟨⟨-, -, -, rfl, rfl, rfl, rfl, rfl, rfl⟩, rfl⟩
    simp

theorem forall₂_createVariable (xs : List Variable) (vs : List NamedValueInfo) :
    List.Forall₂ SameButValue xs (vs.map createVariable) ↔
      (∀ x ∈ xs, isFlat x) ∧ vs.map NamedValueInfo.name = xs.map Variable.name := by
  induction xs generalizing vs with
  | nil => cases vs <;> simp
  | cons x xs ih =>
    cases vs with
    | nil => simp
    | cons v vs =>
      simp only [List.map_cons, List.forall₂_cons, sameButValue_createVariable, ih,
        List.forall_mem_cons, List.cons.injEq]
      tauto

/-- Rebuilding a container from a flat read keeps the others exactly when there was no more to
keep and the read lists the same names. -/
theorem keepsOthers_createVariable (name : String) (xs : List Variable)
    (vs : List NamedValueInfo) : KeepsOthers name xs (vs.map createVariable) ↔
      FlatBut name xs ∧ vs.map NamedValueInfo.name = xs.map Variable.name := by
  induction xs generalizing vs with
  | nil => cases vs <;> simp [KeepsOthers, FlatBut]
  | cons x xs ih =>
    cases vs with
    | nil => simp [KeepsOthers]
    | cons v vs =>
      simp only [List.map_cons, KeepsOthers, FlatBut, List.cons.injEq]
      split
      · rw [assigned_createVariable, forall₂_createVariable]
        tauto
      · rw [sameButValue_createVariable, ih]
        tauto

/-- Editing the first variable called `name` in place keeps the others. -/
theorem keepsOthers_refreshChild (name : String) (updated : VariableNode) (xs : List Variable) :
    KeepsOthers name xs (Server.refreshChild name updated xs).1 := by
  induction xs with
  | nil => trivial
  | cons x xs ih =>
    unfold Server.refreshChild
    split
    · rename_i hn
      rw [KeepsOthers, if_pos hn]
      exact ⟨rfl, forall₂_sameButValue_refl xs⟩
    · rename_i hn
      rw [KeepsOthers, if_neg hn]
      exact ⟨.refl x, ih⟩

theorem SameButValue.reference {x y : Variable} (h : SameButValue x y) :
    y.variablesReference = x.variablesReference := by
  rw [h]

theorem forall₂_references {xs ys : List Variable} (h : List.Forall₂ SameButValue xs ys) :
    ys.map Variable.variablesReference = xs.map Variable.variablesReference := by
  induction h with
  | nil => rfl
  | cons hx _ ih => rw [List.map_cons, List.map_cons, SameButValue.reference hx, ih]

theorem KeepsOthers.references {name : String} {xs ys : List Variable}
    (h : KeepsOthers name xs ys) :
    ys.map Variable.variablesReference = xs.map Variable.variablesReference := by
  induction xs generalizing ys with
  | nil =>
    cases ys with
    | nil => rfl
    | cons => exact h.elim
  | cons x xs ih =>
    cases ys with
    | nil => exact h.elim
    | cons y ys =>
      rw [KeepsOthers] at h
      rw [List.map_cons, List.map_cons]
      split at h
      · rw [forall₂_references h.2, h.1]
      · rw [SameButValue.reference h.1, ih h.2]

/-! ## What an execution reads and answers -/

/-- What can be seen of an execution: the last flat read, and the responses. -/
structure Seen where
  read : List NamedValueInfo := []
  answers : List Response := []

def Seen.succeeded (m : Seen) : Bool := m.answers.any Response.success

/-- The variables a read of the scope's locals gives: the named ones. -/
def readLocals (group : Option (List NamedValueInfo)) : List NamedValueInfo :=
  ((group.getD []).filter fun v => !v.name.isEmpty).map fun v =>
    { v with value := Session.normalizeValueText v.value }

def DapOp.see : ∀ {β : Type}, DapOp β → β → Seen → Seen
  | _, .call _ .scopeLocals, group, m => { m with read := readLocals group }
  | _, .call _ .registers, values, m => { m with read := values }
  | _, .send (.response r), _, m => { m with answers := m.answers ++ [r] }
  | _, _, _, m => m

structure TableView where
  tables : Tables
  seen : Seen := {}

def tablePre : ∀ {β : Type}, DapOp β → (β → TableView → Prop) → TableView → Prop
  | _, .tables => fun K v => K v.tables v
  | _, .modify f => fun K v => K (f v.tables).1 { v with tables := (f v.tables).2 }
  | _, o => fun K v => ∀ b, K b { v with seen := o.see b v.seen }

def tableSpec : Spec DapOp TableView where
  pre := tablePre
  mono o K K' hK v h := by
    cases o with
    | tables | modify => exact hK _ _ h
    | _ => exact fun b => hK _ _ (h b)

/-- The steps of a request while the other threads leave the tables alone. -/
abbrev tableSteps : StepRel DapOp Server :=
  StepRel.under (fun s s' => s'.tables = s.tables) (sem .request)

def DapOp.keepsTables : ∀ {β : Type}, DapOp β → Prop
  | _, .modify _ => False
  | _, _ => True

theorem sem_keepsTables {t : Tid} {β : Type} {o : DapOp β} (ho : o.keepsTables) {s s' : Server}
    {b : β} (h : sem t β o s b s') : s'.tables = s.tables := by
  cases o with
  | modify => exact ho.elim
  | send m => rw [sem_send.1 h]; split <;> rfl
  | call id c => obtain ⟨_, _, -, -, rfl⟩ := sem_call h; rfl
  | leave id c => obtain ⟨-, -, _, _, -, rfl⟩ := sem_leave h; rfl
  | enter id c => obtain ⟨_, -, -, -, rfl⟩ := sem_enter.1 h; rfl
  | acquire => obtain ⟨_, -, -, rfl⟩ := sem_acquire.1 h; rfl
  | lockGate => obtain ⟨-, rfl⟩ := sem_lockGate.1 h; rfl
  | joinLoop => obtain ⟨-, rfl⟩ := sem_joinLoop.1 h; rfl
  | _ => obtain ⟨_, h⟩ := h; cases h; rfl

/-- These steps, with what can be seen of them. -/
abbrev seenSteps : StepRel DapOp (Server × Seen) :=
  tableSteps.recording fun e m => e.op.see e.result m

theorem tablePre_step {β : Type} (o : DapOp β) {K : β → TableView → Prop} {v : TableView}
    {s s' : Server × Seen} {b : β} (hv : v = ⟨s.1.tables, s.2⟩) (hw : tableSpec.pre o K v)
    (h : seenSteps β o s b s') :
    ∃ v', v' = TableView.mk s'.1.tables s'.2 ∧ K b v' := by
  obtain ⟨s, m⟩ := s
  obtain ⟨s', m'⟩ := s'
  obtain ⟨⟨s₁, (hs₁ : s₁.tables = s.tables), hsem⟩, (rfl : m' = o.see b m)⟩ := h
  subst hv
  refine ⟨_, rfl, ?_⟩
  dsimp only at *
  have keep (ho : o.keepsTables) : s'.tables = s.tables := (sem_keepsTables ho hsem).trans hs₁
  cases o with
  | tables =>
    obtain ⟨rfl, rfl⟩ := sem_tables.1 hsem
    rw [hs₁]
    exact hw
  | modify f =>
    obtain ⟨rfl, rfl⟩ := sem_modify.1 hsem
    rw [hs₁]
    exact hw
  | _ =>
    rw [keep trivial]
    exact hw b

/-- What a program establishes of the view holds where it returns. -/
theorem wp_seenSteps {α : Type} {p : Dap α} {s s' : Server} {m m' : Seen} {a : α}
    {Q : α → TableView → Prop} {E : Exn → TableView → Prop}
    (h : Returns seenSteps p (s, m) a (s', m')) (hw : p.wp tableSpec Q E ⟨s.tables, m⟩) :
    Q a ⟨s'.tables, m'⟩ := by
  obtain ⟨es, hsteps⟩ := h
  obtain ⟨_, rfl, hq⟩ := wp_view tablePre_step hsteps rfl hw
  exact hq

/-! ## Programs that leave the view alone -/

/-- Operations that neither touch the tables nor show in what is seen. -/
def DapOp.inert {β : Type} (o : DapOp β) : Prop :=
  (∀ b m, o.see b m = m) ∧ ∀ (K : β → TableView → Prop) v,
    (∀ b, K b { v with seen := o.see b v.seen }) → tableSpec.pre o K v

theorem DapOp.inert_of_selects {β : Type} {o : DapOp β} (h : o.quiet Call.selectsThread) :
    o.inert := by
  cases o with
  | call id c => cases c <;> first | exact h.elim | exact ⟨fun _ _ => rfl, fun _ _ hK => hK⟩
  | send m => cases m with
    | response => exact h.elim
    | event => exact ⟨fun _ _ => rfl, fun _ _ hK => hK⟩
  | modify => exact h.elim
  | tables => exact ⟨fun _ _ => rfl, fun _ v hK => hK v.tables⟩
  | _ => exact ⟨fun _ _ => rfl, fun _ _ hK => hK⟩

variable {α : Type} {v : TableView}

theorem inert_wp {p : Dap α} (h : AllOps DapOp.inert p) :
    p.wp tableSpec (fun _ v' => v' = v) (fun _ v' => v' = v) v := by
  refine wp_of_allOps (I := fun v' : TableView => v' = v) (fun o ho v' hv => ?_) h rfl
  refine ho.2 _ _ fun b => ?_
  rw [hv, ho.1]

/-- The tables and the answer of a view. -/
def TableView.Like (v v' : TableView) : Prop :=
  v'.tables = v.tables ∧ v'.seen.answers = v.seen.answers

theorem Quiet.wp_tables {p : Dap α} (h : Quiet p) {v₁ : TableView} (hv : v.Like v₁) :
    p.wp tableSpec (fun _ v' => v.Like v') (fun _ v' => v.Like v') v₁ := by
  refine wp_of_allOps (I := fun v' => v.Like v') (fun o ho v' hv => ?_) h hv
  cases o with
  | tables => exact hv
  | modify => exact ho.elim
  | send m => cases m with
    | response => exact ho.elim
    | event => exact fun _ => hv
  | call id c => cases c <;> exact fun _ => hv
  | _ => exact fun _ => hv

namespace Server

/-! ## setVariable -/

theorem wp_getTables {f : Tables → Dap α} {Q : α → TableView → Prop}
    {E : Exn → TableView → Prop} :
    (getTables.bind f).wp tableSpec Q E v = (f v.tables).wp tableSpec Q E v := rfl

theorem invoke_wp_tables {p : Dap α} {Q : α → TableView → Prop} {E : Exn → TableView → Prop}
    (hE : ∀ e v', E e v' → E (.dispatcherFailure e.what) v')
    (h : p.wp tableSpec Q E v) : (invoke .request p).wp tableSpec Q E v := by
  intro _ _
  simp only [bind_eq, wp_bind, wp_attempt]
  exact wp_mono (fun _ _ hq _ => hq) (fun e _ he _ => hE e _ he) h

theorem withThread_wp_tables (id : SessionId) (threadId : Int) {action : Dap α}
    {Q : α → TableView → Prop} {E : Exn → TableView → Prop} (hE : ∀ e, E e v)
    (hEE : ∀ e e' v', E e v' → E e' v') (h : action.wp tableSpec Q E v)
    (hQE : ∀ a v', Q a v' → ∀ e, E e v') :
    (withThread id threadId action).wp tableSpec Q E v := by
  have select (systemId : Nat) : AllOps DapOp.inert (Session.setCurrentThread id systemId) :=
    (Session.setCurrentThread_selects id systemId).mono fun _ => DapOp.inert_of_selects
  have current : AllOps DapOp.inert (Session.getCurrentThreadId id) :=
    (Session.getCurrentThreadId_selects id).mono fun _ => DapOp.inert_of_selects
  have restore (original : Nat) {e : Exn} {v' : TableView} (he : E e v') :
      (Session.setCurrentThread id original).wp tableSpec (fun _ => E e) E v' := by
    refine wp_mono (fun _ _ hv => ?_) (fun e' _ hv => ?_) (inert_wp (select original))
    · rwa [hv]
    · rw [hv]
      exact hEE _ _ _ he
  simp only [withThread, bind_eq, wp_bind, wp_catching, pure_eq, wp_ret]
  refine wp_mono (fun original v₁ hv₁ => ?_) (fun e _ hv => ?_) (inert_wp current)
  · subst hv₁
    refine wp_mono (fun _ v₂ hv₂ => ?_) (fun e _ hv => ?_) (inert_wp (select _))
    · subst hv₂
      refine wp_mono (fun a v₃ ha => ?_) (fun e v₃ he => restore original he) h
      refine wp_mono (fun _ _ hv => ?_) (fun e _ hv => ?_) (inert_wp (select _))
      · rwa [hv]
      · rw [hv]; exact restore original (hQE a v₃ ha e)
    · rw [hv]; exact restore original (hE e)
  · rw [hv]; exact hE e

/-- What a flat read returned, unless it returned nothing. -/
def Reads (v : TableView) (values : List NamedValueInfo) (v' : TableView) : Prop :=
  v.Like v' ∧ ∀ x ∈ values, values = v'.seen.read

theorem getLocals_wp (id : SessionId) (frameNumber : Nat) {v₁ : TableView} (hv : v.Like v₁) :
    (Session.getLocals id frameNumber).wp tableSpec (Reads v) (fun _ v' => v.Like v') v₁ := by
  have selected : Quiet (do
      Session.throwIfDisposed id
      let _ ← Session.executeCommandWithOutput id (.frame frameNumber)) :=
    .bind (Session.throwIfDisposed_quiet id) fun _ => .bind (Session.frame_quiet id frameNumber)
      fun _ => trivial
  have hw := selected.wp_tables hv
  simp only [Session.getLocals, bind_eq, wp_bind, pure_eq, wp_ret] at hw ⊢
  refine wp_mono_val (fun _ v₂ h₂ => wp_mono_val (fun _ v₃ h₃ group => ?_) h₂) hw
  cases group with
  | none => exact ⟨h₃, by simp⟩
  | some symbols => exact ⟨h₃, fun _ _ => rfl⟩

theorem getRegisters_wp (id : SessionId) (frameNumber : Nat) {v₁ : TableView} (hv : v.Like v₁) :
    (Session.getRegisters id frameNumber).wp tableSpec (Reads v) (fun _ v' => v.Like v') v₁ := by
  simp only [Session.getRegisters, bind_eq, wp_bind]
  refine wp_mono_val (fun _ v₂ h₂ inScope => ?_)
    (Quiet.wp_tables (Session.throwIfDisposed_quiet id) hv)
  cases inScope with
  | false => exact ⟨h₂, by simp⟩
  | true => exact fun values => ⟨h₂, fun _ _ => rfl⟩

/-- A container read back is the flat read, unless it is empty. -/
theorem readVariables_wp (id : SessionId) (container : VariableContainerContext) {v₁ : TableView}
    (hv : v.Like v₁) : (readVariables id container).wp tableSpec
      (fun xs v' => v.Like v' ∧ ∀ x ∈ xs, xs = v'.seen.read.map createVariable)
      (fun _ v' => v.Like v') v₁ := by
  have mapped {values : List NamedValueInfo} {v' : TableView} (h : Reads v values v') :
      v.Like v' ∧ ∀ x ∈ values.map createVariable,
        values.map createVariable = v'.seen.read.map createVariable := by
    refine ⟨h.1, fun x hx => ?_⟩
    obtain ⟨value, hvalue, -⟩ := List.mem_map.1 hx
    rw [← h.2 value hvalue]
  rw [readVariables]
  split
  · rw [bind_eq, wp_bind]
    exact wp_mono_val (fun _ _ h => mapped h) (getLocals_wp id _ hv)
  · rw [bind_eq, wp_bind]
    exact wp_mono_val (fun _ _ h => mapped h) (getRegisters_wp id _ hv)

theorem assignVariable_wp (id : SessionId) (container : VariableContainerContext)
    (name value : String) : (assignVariable id container name value).wp tableSpec
      (fun r v' => v.Like v' ∧
        r.1 = { container with variables_ := v'.seen.read.map createVariable })
      (fun _ v' => v.Like v') v := by
  have executed : Quiet (executeSet id container.kind
      (buildSetCommands container.kind container.frameNumber name value) none) :=
    executeSet_allowed id _ _ _ fun c hc => buildSetCommands_resumes _ _ _ _ hc
  simp only [assignVariable, bind_eq, wp_bind]
  refine wp_mono_val (fun _ v₁ h₁ => ?_) (executed.wp_tables ⟨rfl, rfl⟩)
  refine wp_mono_val (fun refreshed v₂ h₂ => ?_) (readVariables_wp id container h₁)
  cases hf : refreshed.find? fun x => x.name = name with
  | none => exact h₂.1
  | some updated =>
    refine ⟨h₂.1, ?_⟩
    rw [← h₂.2 updated (List.mem_of_find?_eq_some hf)]

theorem assignStructField_wp (id : SessionId) (container : VariableContainerContext)
    (name expression value : String) :
    (assignStructField id container name expression value).wp tableSpec
      (fun r v' => v.Like v' ∧ ∃ xs, KeepsOthers name container.variables_ xs ∧
        r.1 = { container with variables_ := xs })
      (fun _ v' => v.Like v') v := by
  simp only [assignStructField, bind_eq, wp_bind]
  refine wp_mono_val (fun updated v' hv => ?_)
    (Quiet.wp_tables (Session.setLocalValue_quiet id _ _ _) ⟨rfl, rfl⟩)
  exact ⟨hv, _, keepsOthers_refreshChild name updated container.variables_, rfl⟩

/-- The variables of a container once the one called `name` was set: a structure was edited in
place, anything else rebuilt from the flat read. -/
def SetIn (name : String) (container : VariableContainerContext) (xs : List Variable) (m : Seen) :
    Prop :=
  if container.kind = .structure_ then KeepsOthers name container.variables_ xs
  else xs = m.read.map createVariable

/-- What a setVariable request leaves behind when it succeeds. -/
def Stored (reference : Int) (name : String) (container : VariableContainerContext)
    (v : TableView) : Prop :=
  v.seen.succeeded = true → ∃ container',
    v.tables.variablesByReference.get? reference = some container' ∧
      SetIn name container container'.variables_ v.seen

theorem stored_of_not_succeeded {reference : Int} {name : String}
    {container : VariableContainerContext} {v : TableView} (h : v.seen.succeeded = false) :
    Stored reference name container v := by
  intro hs
  rw [h] at hs
  cases hs

section

variable {request : Request SetVariableArguments} {container : VariableContainerContext}

/-- An error response leaves nothing to show. -/
theorem fail_stored (h : v.seen.succeeded = false) (message : String) {E : Exn → TableView → Prop} :
    (fail request message).wp tableSpec
      (fun _ => Stored request.arguments.variablesReference request.arguments.name container)
      E v := by
  intro _
  refine stored_of_not_succeeded ?_
  change (v.seen.answers ++ [_]).any Response.success = false
  rw [List.any_append, Bool.or_eq_false_iff]
  exact ⟨h, rfl⟩

/-- Run the assignment on the dispatcher, store its container and answer. -/
theorem assigned_stored (h : v.seen.succeeded = false) {id : SessionId}
    {assign : Dap (VariableContainerContext × Variable)}
    (ha : assign.wp tableSpec (fun r v' => v.Like v' ∧ ∃ xs,
        r.1 = { container with variables_ := xs } ∧
          SetIn request.arguments.name container xs v'.seen)
      (fun _ v' => v.Like v') v)
    {answer : VariableContainerContext × Variable → Body} :
    (do
      let r ← invoke .request (withThread id container.threadId assign)
      storeContainer request.arguments.variablesReference r.1
      sendResponse request (answer r) : Dap Unit).wp tableSpec
      (fun _ => Stored request.arguments.variablesReference request.arguments.name container)
      (fun _ v' => v'.seen.succeeded = false) v := by
  simp only [bind_eq, wp_bind]
  refine wp_mono ?_ (fun e v' hv => by rw [Seen.succeeded, hv.2]; exact h)
    (invoke_wp_tables (fun _ _ hv => hv) <| withThread_wp_tables id container.threadId
      (fun _ => ⟨rfl, rfl⟩) (fun _ _ _ hv => hv) ha fun _ _ hv _ => hv.1)
  rintro r v₁ ⟨hv, xs, hr, hset⟩ _ _
  refine ⟨r.1, (AssocMap.get?_set _ _ _ _).trans (if_pos rfl), ?_⟩
  rw [hr]
  exact hset

theorem requireDebuggerSession_stored (h : v.seen.succeeded = false) {p : SessionId → Dap Unit}
    {Q : Unit → TableView → Prop}
    (hp : ∀ id, (p id).wp tableSpec Q (fun _ v' => v'.seen.succeeded = false) v) :
    (do
      let id ← requireDebuggerSession
      p id).wp tableSpec Q (fun _ v' => v'.seen.succeeded = false) v := by
  intro session
  cases session with
  | none => exact h
  | some id => exact hp id

theorem catching_stored {p : Dap Unit}
    (hp : p.wp tableSpec
      (fun _ => Stored request.arguments.variablesReference request.arguments.name container)
      (fun _ v' => v'.seen.succeeded = false) v) :
    (p.catching (failUnwrapped request)).wp tableSpec
      (fun _ => Stored request.arguments.variablesReference request.arguments.name container)
      (fun _ v' => v'.seen.succeeded = false) v := by
  rw [wp_catching]
  exact wp_mono (fun _ _ hq => hq) (fun e v' hv => fail_stored hv _) hp

theorem handleSetStructField_stored (h : v.seen.succeeded = false)
    (hk : container.kind = .structure_) :
    (handleSetStructField request container).wp tableSpec
      (fun _ => Stored request.arguments.variablesReference request.arguments.name container)
      (fun _ v' => v'.seen.succeeded = false) v := by
  unfold handleSetStructField
  dsimp only
  cases container.variables_.find? fun x => x.name = request.arguments.name with
  | none => exact fail_stored h _
  | some child =>
    refine catching_stored (requireDebuggerSession_stored h fun id => assigned_stored h ?_)
    refine wp_mono_val ?_ (assignStructField_wp id container _ _ _)
    rintro r v' ⟨hv, xs, hkeep, hr⟩
    exact ⟨hv, xs, hr, by rw [SetIn, if_pos hk]; exact hkeep⟩

theorem handleSetTopLevelVariable_stored (h : v.seen.succeeded = false)
    (hk : container.kind ≠ .structure_) :
    (handleSetTopLevelVariable request container).wp tableSpec
      (fun _ => Stored request.arguments.variablesReference request.arguments.name container)
      (fun _ v' => v'.seen.succeeded = false) v := by
  refine requireDebuggerSession_stored h fun id => catching_stored (assigned_stored h ?_)
  refine wp_mono_val ?_ (assignVariable_wp id container _ _)
  rintro r v' ⟨hv, hr⟩
  exact ⟨hv, _, hr, by rw [SetIn, if_neg hk]⟩

theorem handleSetVariableRequest_stored (h : v.seen.succeeded = false)
    (hc : v.tables.variablesByReference.get? request.arguments.variablesReference =
      some container) :
    (handleSetVariableRequest request).wp tableSpec
      (fun _ => Stored request.arguments.variablesReference request.arguments.name container)
      (fun _ v' => v'.seen.succeeded = false) v := by
  have failed (message : String) : (fail request message).wp tableSpec
      (fun _ => Stored request.arguments.variablesReference request.arguments.name container)
      (fun _ v' => v'.seen.succeeded = false) v := fail_stored h message
  unfold handleSetVariableRequest
  dsimp only
  split
  · exact failed _
  split
  · exact failed _
  split
  · exact failed _
  intro running
  cases running with
  | true => exact failed _
  | false =>
    change (getTables.bind _).wp _ _ _ _
    rw [wp_getTables, hc]
    dsimp only
    split
    · rename_i hk
      exact handleSetStructField_stored h hk
    · rename_i hk
      exact handleSetTopLevelVariable_stored h hk

end

/-! ## The requests -/

/-- What a variables request for the whole of a container answers. -/
theorem handleVariablesRequest_wp {request : Request VariablesArguments}
    {container : VariableContainerContext} (hr : 0 < request.arguments.variablesReference)
    (hc : v.tables.variablesByReference.get? request.arguments.variablesReference =
      some container) :
    (handleVariablesRequest request).wp tableSpec (fun _ v' => v'.seen.answers = v.seen.answers ++
      [{ requestSeq := request.seq, success := true, command := request.command
         body := .variables_ (window (clampArgument request.arguments.start)
           (clampArgument request.arguments.count)
           (if request.arguments.filter = some .indexed then [] else container.variables_)) }])
      (fun _ _ => False) v := by
  unfold handleVariablesRequest
  dsimp only
  rw [if_neg (by omega)]
  change (getTables.bind _).wp _ _ _ _
  rw [wp_getTables, hc]
  exact fun _ => rfl

theorem positive_of_succeeded {request : Request SetVariableArguments} {s s' : Server} {m : Seen}
    (h : Returns seenSteps (handleSetVariableRequest request) (s, {}) () (s', m))
    (hok : m.succeeded = true) : 0 < request.arguments.variablesReference := by
  by_contra hr
  have failed : (handleSetVariableRequest request).wp tableSpec
      (fun _ v' => v'.seen.succeeded = false) (fun _ _ => True) ⟨s.tables, {}⟩ := by
    rw [handleSetVariableRequest, if_pos (by omega)]
    exact fun _ => rfl
  rw [wp_seenSteps h failed] at hok
  cases hok

/-- In `s`, a variables request for all of a container lists the variables `xs`. -/
def Lists (reference : Int) (s : Server) (xs : List Variable) : Prop :=
  ∃ (request : Request VariablesArguments) (m : Seen) (s' : Server),
    request.arguments = { variablesReference := reference } ∧
      Returns seenSteps (handleVariablesRequest request) (s, {}) () (s', m) ∧
        m.answers.map Response.body = [.variables_ xs]

theorem Lists.variables {reference : Int} {s : Server} {xs : List Variable}
    {container : VariableContainerContext} (h : Lists reference s xs) (hr : 0 < reference)
    (hc : s.tables.variablesByReference.get? reference = some container) :
    xs = container.variables_ := by
  obtain ⟨request, m, s', ha, hreturns, hanswers⟩ := h
  have hw := wp_seenSteps hreturns
    (handleVariablesRequest_wp (v := ⟨s.tables, {}⟩) (by rw [ha]; exact hr) (by rw [ha]; exact hc))
  simp only [ha, List.nil_append] at hw
  rw [hw] at hanswers
  have hwindow : window 0 0 container.variables_ = container.variables_ := by
    simp [window]
  simp [clampArgument, hwindow] at hanswers
  exact hanswers.symm

/-- **Assignments.**  After a successful setVariable request, a variables request for the container
lists the same variables as before, changed only in the value and type of the assigned one and in
the values of others, if and only if the container is a structure, or its variables say no more
than the flat read (the type of the assigned one apart) and the flat read lists the same names in
the same order. -/
theorem setVariable_keeps_others_iff {request : Request SetVariableArguments}
    {container : VariableContainerContext} {s s' : Server} {m : Seen} {xs ys : List Variable}
    (hc : s.tables.variablesByReference.get? request.arguments.variablesReference =
      some container)
    (hset : Returns seenSteps (handleSetVariableRequest request) (s, {}) () (s', m))
    (hok : m.succeeded = true) (hbefore : Lists request.arguments.variablesReference s xs)
    (hafter : Lists request.arguments.variablesReference s' ys) :
    KeepsOthers request.arguments.name xs ys ↔ container.kind = .structure_ ∨
      FlatBut request.arguments.name container.variables_ ∧
        m.read.map NamedValueInfo.name = container.variables_.map Variable.name := by
  have hr := positive_of_succeeded hset hok
  obtain ⟨container', hc', hin⟩ := wp_seenSteps hset
    (handleSetVariableRequest_stored (v := ⟨s.tables, {}⟩) rfl hc) hok
  rw [hbefore.variables hr hc, hafter.variables hr hc']
  rw [SetIn] at hin
  by_cases hk : container.kind = .structure_
  · rw [if_pos hk] at hin
    exact ⟨fun _ => .inl hk, fun _ => hin⟩
  · rw [if_neg hk] at hin
    rw [hin, keepsOthers_createVariable]
    exact ⟨.inr, fun h => h.resolve_left hk⟩

/-! ## Executions -/

/-- Run a handler with the given answers, and see what it does. -/
def runSeen (a : Answers) (p : Dap Unit) (s : Server) : Option (Server × Seen) :=
  match p.eval (fun o r => (apply .request a o r.1).map fun x => (x.1, (x.2, o.see x.1 r.2)))
    4000 (s, {}) with
  | some (.ok (), r) => some r
  | _ => none

theorem returns_of_runSeen {a : Answers} {p : Dap Unit} {s : Server} {r : Server × Seen}
    (h : runSeen a p s = some r) : Returns seenSteps p (s, {}) () r := by
  unfold runSeen at h
  split at h
  · rename_i r' he
    cases h
    refine .of_eval (fun o x b x' ho => ?_) he
    obtain ⟨⟨b', s'⟩, ha, hx⟩ := Option.map_eq_some_iff.1 ho
    cases hx
    exact ⟨⟨x.1, rfl, a, ha⟩, rfl⟩
  · cases h

/-- What a variables request for all of a container lists. -/
def listed (reference : Int) (s : Server) : Option (List Variable) :=
  match runSeen {} (handleVariablesRequest
    { seq := 9, command := "variables", arguments := { variablesReference := reference } }) s with
  | some (_, { answers := [{ body := .variables_ xs, .. }], .. }) => some xs
  | _ => none

theorem lists_of_listed {reference : Int} {s : Server} {xs : List Variable}
    (h : listed reference s = some xs) : Lists reference s xs := by
  unfold listed at h
  split at h
  · rename_i hrun
    cases h
    exact ⟨_, _, _, rfl, returns_of_runSeen hrun, rfl⟩
  · cases h

/-- A frame with a structure `p`, of one field `x`, and an integer `i`; every symbol can be
written. -/
def oneStructure : Answers where
  answer := fun c e => match c with
    | .stackTrace => .ok [{}]
    | .scopeSymbols => some [{ name := "p", isExpandable := true },
        { name := "x", value := "1", parent := some 0 }, { name := "i", value := "2" }]
    | .scopeLocals => some [{ name := "p", value := "" }, { name := "i", value := "5" }]
    | .openSymbol _ => .opened
    | c => c.default e

/-- A stop at entry whose locals have been expanded: the fields of `p` are container 1, the locals
container 2. -/
def expandedLocals : Schedule :=
  Schedule.enter .request (.request (Schedule.message 1 "launch"
    [("program", .str "a.exe"), ("stopAtEntry", .bool true)])) 51 ++
    Schedule.report .createThread ++ Schedule.leave .request ++
      Schedule.serve (Schedule.message 2 "stackTrace" [("threadId", .int 100)]) oneStructure ++
        Schedule.serve (Schedule.message 3 "scopes"
          [("frameId", .int (Factory.createFrameId 100 0))]) oneStructure

def setVariableRequest (reference : Int) (name : String) : Request SetVariableArguments :=
  { seq := 4, command := "setVariable"
    arguments := { variablesReference := reference, name, value := "5" } }

/-- Whether a variable of the container can be set, with containers listed before and after as the
test says. -/
def setsVariable (reference : Int) (name : String) (test : List Variable → List Variable → Bool)
    (s : Server) : Bool :=
  (listed reference s).any fun xs =>
    (runSeen oneStructure (handleSetVariableRequest (setVariableRequest reference name)) s).any
      fun r => r.2.succeeded && (listed reference r.1).any (test xs)

theorem exists_of_setsVariable {reference : Int} {name : String}
    {test : List Variable → List Variable → Bool} {s : Server}
    (h : setsVariable reference name test s = true) : ∃ (xs ys : List Variable) (r : Server × Seen),
      Lists reference s xs ∧ Lists reference r.1 ys ∧ r.2.succeeded = true ∧ test xs ys = true ∧
        Returns seenSteps (handleSetVariableRequest (setVariableRequest reference name)) (s, {}) ()
          r := by
  obtain ⟨xs, hxs, h⟩ := (Option.any_eq_true _ _).1 h
  obtain ⟨r, hr, h⟩ := (Option.any_eq_true _ _).1 h
  obtain ⟨hok, h⟩ := Bool.and_eq_true_iff.1 h
  obtain ⟨ys, hys, h⟩ := (Option.any_eq_true _ _).1 h
  exact ⟨xs, ys, r, lists_of_listed hxs, lists_of_listed hys, hok, h, returns_of_runSeen hr⟩

/-- Setting a field of a structure keeps the others. -/
theorem setVariable_keeps_fields : ∃ (c : Conf) (s' : Server) (m : Seen) (xs ys : List Variable),
    Reachable {} c ∧
      Returns seenSteps (handleSetVariableRequest (setVariableRequest 1 "x")) (c.state, {}) ()
        (s', m) ∧
      Lists 1 c.state xs ∧ Lists 1 s' ys ∧ KeepsOthers "x" xs ys := by
  obtain ⟨c, hr, -, ht⟩ := reachable_of_exec expandedLocals
    (fun c => ((c.state.tables.variablesByReference.get? 1).any fun container =>
      container.kind == .structure_) && setsVariable 1 "x" (fun _ _ => true) c.state)
    (by decide +kernel)
  obtain ⟨hkind, hset⟩ := Bool.and_eq_true_iff.1 ht
  obtain ⟨container, hc, hk⟩ := (Option.any_eq_true _ _).1 hkind
  obtain ⟨xs, ys, r, hxs, hys, hok, -, hreturns⟩ := exists_of_setsVariable hset
  have hkeep : KeepsOthers (setVariableRequest 1 "x").arguments.name xs ys :=
    (setVariable_keeps_others_iff hc hreturns hok hxs hys).2 (.inl (eq_of_beq hk))
  exact ⟨c, r.1, r.2, xs, ys, hr, hreturns, hxs, hys, hkeep⟩

/-- Setting the local `i` makes the structure `p` beside it impossible to expand. -/
theorem setVariable_loses_structure : ¬∀ (c : Conf) (request : Request SetVariableArguments)
    (s' : Server) (m : Seen) (xs ys : List Variable), Reachable {} c →
      Returns seenSteps (handleSetVariableRequest request) (c.state, {}) () (s', m) →
        m.succeeded = true → Lists request.arguments.variablesReference c.state xs →
          Lists request.arguments.variablesReference s' ys →
            KeepsOthers request.arguments.name xs ys := by
  intro hall
  obtain ⟨c, hr, -, ht⟩ := reachable_of_exec expandedLocals
    (fun c => setsVariable 2 "i" (fun xs ys =>
      ys.map Variable.variablesReference != xs.map Variable.variablesReference) c.state)
    (by decide +kernel)
  obtain ⟨xs, ys, r, hxs, hys, hok, hne, hreturns⟩ := exists_of_setsVariable ht
  have hkeep := hall c (setVariableRequest 2 "i") r.1 r.2 xs ys hr hreturns hok hxs hys
  rw [hkeep.references] at hne
  simp at hne

end Server

end DapDbgeng
