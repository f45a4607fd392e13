/-
  Conditions while an update runs.

  On a running target setBreakpoints resumes inside the update and records the conditions of the new
  breakpoints afterwards, entry by entry, so that a hit in between is judged by what is kept then.

  * `UpdateLog`: the conditions kept at every moment since the request has resumed the target;
  * `Recording`, `Registered`: what the entry-by-entry recording passes through;
  * `updates`: no other thread writes conditions while the session lasts.

  Main result: `hits_judged_iff`, on every run.
-/
import DapDbgeng.ConditionalHits
import DapDbgeng.Containers
import DapDbgeng.OrderlyRuns
import DapDbgeng.Updates

namespace DapDbgeng

open Concurrent Concurrent.Prog

/-! ## What is asked for -/

/-- The condition a breakpoint is asked for with; a blank one is none. -/
def SourceBreakpoint.asked (b : SourceBreakpoint) : Option String :=
  b.condition.filter fun condition => !Text.isBlank condition

/-- A hit is to be continued where the condition asked for comes to false. -/
def SourceBreakpoint.continues (b : SourceBreakpoint) (verdict : String → Option Bool) : Bool :=
  b.asked.any fun condition => verdict condition == some false

/-- The breakpoints of a request with the ids that its answer gives them. -/
def Configured (requested : List SourceBreakpoint) (answer : List Breakpoint)
    (b : SourceBreakpoint) (n : Int) : Prop :=
  ∃ result, (b, result) ∈ requested.zip answer ∧ result.verified = true ∧ result.id = some n

/-- The condition asked for is kept for every breakpoint of the request. -/
def Describes (requested : List SourceBreakpoint) (answer : List Breakpoint) (kept : Conditions) :
    Prop :=
  ∀ b n, Configured requested answer b n → kept.get? n = b.asked

/-- The ids that are listed under a path. -/
def Tables.listed (d : Tables) (sourcePath : String) : List Int :=
  (d.conditionalBreakpointIdsByPath.get? sourcePath).getD []

abbrev Entries := List (SourceBreakpointResult × SourceBreakpoint)

/-- The entry configures the breakpoint with this id. -/
def IsFor (n : Int) (entry : SourceBreakpointResult × SourceBreakpoint) : Prop :=
  entry.1.verified = true ∧ entry.1.id = some n

/-- The conditions asked for are kept. -/
def RightFor (entries : Entries) (kept : Conditions) : Prop :=
  ∀ entry ∈ entries, ∀ n, IsFor n entry → kept.get? n = entry.2.asked

/-- No entry with a condition is among the ids. -/
def Fresh (entries : Entries) (ids : List Int) : Prop :=
  ∀ entry ∈ entries, ∀ n, IsFor n entry → entry.2.asked.isSome = true → n ∉ ids

section

variable {entries : Entries} {ids : List Int} {d : Tables} {n : Int}
  {entry : SourceBreakpointResult × SourceBreakpoint}

theorem eraseCondition_get? (d : Tables) (m n : Int) :
    (d.eraseCondition m).conditions.get? n = if n = m then none else d.conditions.get? n :=
  AssocMap.get?_erase _ _ _

theorem setCondition_get? (d : Tables) (m n : Int) (condition : String) :
    (d.setCondition m condition).conditions.get? n =
      if n = m then some condition else d.conditions.get? n :=
  AssocMap.get?_set _ _ _ _

/-- What is forgotten was kept for no entry. -/
theorem RightFor.erase (h : RightFor entries d.conditions) (hfresh : Fresh entries ids)
    (hn : n ∈ ids) : RightFor entries (d.eraseCondition n).conditions := by
  intro entry he m hm
  rw [eraseCondition_get?]
  split
  · rename_i heq
    subst heq
    cases hasked : entry.2.asked with
    | none => rfl
    | some condition => exact absurd hn (hfresh entry he m hm (by rw [hasked]; rfl))
  · exact h entry he m hm

/-- What is recorded was kept already. -/
theorem RightFor.set (h : RightFor entries d.conditions) (he : entry ∈ entries) (hn : IsFor n entry)
    {condition : String} (hasked : entry.2.asked = some condition) :
    RightFor entries (d.setCondition n condition).conditions := by
  intro other ho m hm
  rw [setCondition_get?]
  split
  · rename_i heq
    subst heq
    rw [← hasked, ← h entry he m hn]
    exact h other ho m hm
  · exact h other ho m hm

end

namespace Server

variable {n : Int}

/-! ## The answer -/

/-- The requested breakpoints that are configured. -/
def configurable (requested : List SourceBreakpoint) : List SourceBreakpoint :=
  ((requested.map parseSourceBreakpoint).filter fun p => p.spec.isSome).map fun p => p.request

end Server

/-! ## History -/

/-- The operations that resume the target. -/
def DapOp.resumesTarget : ∀ {β : Type}, DapOp β → β → Bool
  | _, .call _ (.execute command), r => command.resumes && r.status.isOk
  | _, _, _ => false

/-- The breakpoints that an operation answers with. -/
def DapOp.answers : ∀ {β : Type}, DapOp β → Option (List Breakpoint)
  | _, .send (.response ⟨_, _, _, .breakpoints answer⟩) => some answer
  | _, _ => none

/-- What has happened since the last request has begun. -/
structure UpdateLog where
  /-- A callback that reports the end of the session is running. -/
  ending : Bool := false
  /-- One has run meanwhile. -/
  ended : Bool := false
  /-- The tables when the request began. -/
  before : Tables := {}
  /-- The request has resumed the target. -/
  resumed : Bool := false
  /-- The conditions kept at every moment since then. -/
  moments : List Conditions := []
  answer : List Breakpoint := []

namespace UpdateLog

/-- A step passes a moment. -/
def pass (s : Server) (h : UpdateLog) : UpdateLog :=
  { h with moments := if h.resumed then s.tables.conditions :: h.moments else h.moments }

/-- An operation of the request thread. -/
def after {β : Type} (h : UpdateLog) (o : DapOp β) (b : β) : UpdateLog :=
  { h with resumed := h.resumed || o.resumesTarget b, answer := o.answers.getD h.answer }

def note : Lab → Server → UpdateLog → UpdateLog
  | .start _ (.request _), s, h => { ending := h.ending, ended := h.ending, before := s.tables }
  | .start _ (.callback _ event _ _), _, h =>
    { h with ending := event.endsSession, ended := h.ended || event.endsSession }
  | .finish _ (.callback ..) _, _, h => { h with ending := false }
  | .op .request e, _, h => h.after e.op e.result
  | _, _, h => h

def record (l : Lab) (s : Server) (h : UpdateLog) : UpdateLog := note l s (h.pass s)

end UpdateLog

def updateSystem : System Tid DapOp Job Exn Bool (Server × UpdateLog) :=
  adapter.system.instrument UpdateLog.record

/-! ## Assertions -/

abbrev UpdateState := Server × UpdateLog

/-- The steps of the other threads while the session lasts. -/
structure UpdateRely (p p' : UpdateState) : Prop where
  ended : p'.2.ended = false → p.2.ended = false
  before : p'.2.before = p.2.before
  resumed : p'.2.resumed = p.2.resumed
  answer : p'.2.answer = p.2.answer
  same : p'.2.ended = false → p.1.tables.SameConditions p'.1.tables
  passed : ∀ m ∈ p.2.moments, m ∈ p'.2.moments
  moments : p'.2.ended = false → ∀ m ∈ p'.2.moments,
    m ∈ p.2.moments ∨ p.2.resumed = true ∧ m = p.1.tables.conditions

namespace UpdateRely

variable {p p' p'' : UpdateState}

theorem refl (p : UpdateState) : UpdateRely p p :=
  ⟨id, rfl, rfl, rfl, fun _ => ⟨rfl, rfl⟩, fun _ => id, fun _ _ => .inl⟩

theorem conditions (h : UpdateRely p p') (hended : p'.2.ended = false) :
    p'.1.tables.conditions = p.1.tables.conditions := (h.same hended).1

theorem trans (h : UpdateRely p p') (h' : UpdateRely p' p'') : UpdateRely p p'' where
  ended := h.ended ∘ h'.ended
  before := h'.before.trans h.before
  resumed := h'.resumed.trans h.resumed
  answer := h'.answer.trans h.answer
  same hended := (h.same (h'.ended hended)).trans (h'.same hended)
  passed m hm := h'.passed m (h.passed m hm)
  moments hended m hm := by
    have hended' := h'.ended hended
    rcases h'.moments hended m hm with hmoment | ⟨hresumed, rfl⟩
    · exact h.moments hended' m hmoment
    · exact .inr ⟨h.resumed ▸ hresumed, h.conditions hended'⟩

end UpdateRely

/-- Nothing is recorded and nothing is answered. -/
structure Untouched (p : UpdateState) : Prop where
  same : p.2.before.SameConditions p.1.tables
  moments : ∀ m ∈ p.2.moments, m = p.2.before.conditions
  answer : p.2.answer = []

/-- While conditions are recorded for a path under which `ids` were listed: those of `done` have
been forgotten. -/
structure Recording (entries : Entries) (ids done : List Int) (p : UpdateState) : Prop where
  right : RightFor entries p.2.before.conditions → Fresh entries ids →
    RightFor entries p.1.tables.conditions ∧ ∀ m ∈ p.2.moments, RightFor entries m
  first : p.2.resumed = true →
    p.2.before.conditions ∈ p.2.moments ∨ p.1.tables.conditions = p.2.before.conditions
  erased : p.2.resumed = true → ∀ n ∈ done,
    (∃ m ∈ p.2.moments, m.get? n = none) ∨ p.1.tables.conditions.get? n = none

/-- After the conditions have been recorded. -/
structure Registered (entries : Entries) (ids : List Int) (p : UpdateState) : Prop where
  right : RightFor entries p.2.before.conditions → Fresh entries ids →
    RightFor entries p.1.tables.conditions ∧ ∀ m ∈ p.2.moments, RightFor entries m
  first : p.2.resumed = true → p.2.before.conditions ∈ p.2.moments
  erased : p.2.resumed = true → ∀ n ∈ ids, ∃ m ∈ p.2.moments, m.get? n = none

section

variable {entries : Entries} {ids done : List Int} {p p' : UpdateState} {β : Type} {o : DapOp β}
  {b : β}

theorem Untouched.rely (h : Untouched p) (hr : UpdateRely p p') (hended : p'.2.ended = false) :
    Untouched p' where
  same := hr.before ▸ h.same.trans (hr.same hended)
  moments m hm := by
    rw [hr.before]
    rcases hr.moments hended m hm with hmoment | ⟨-, rfl⟩
    · exact h.moments m hmoment
    · exact h.same.1
  answer := hr.answer.trans h.answer

theorem Recording.rely (h : Recording entries ids done p) (hr : UpdateRely p p')
    (hended : p'.2.ended = false) : Recording entries ids done p' := by
  have hsame := hr.conditions hended
  refine ⟨fun hright hfresh => ?_, fun hresumed => ?_, fun hresumed n hn => ?_⟩
  · rw [hr.before] at hright
    obtain ⟨hnow, hthen⟩ := h.right hright hfresh
    refine ⟨hsame ▸ hnow, fun m hm => ?_⟩
    rcases hr.moments hended m hm with hmoment | ⟨-, rfl⟩
    · exact hthen m hmoment
    · exact hnow
  · rw [hr.before, hsame]
    exact (h.first (hr.resumed ▸ hresumed)).imp (hr.passed _) id
  · rw [hsame]
    refine (h.erased (hr.resumed ▸ hresumed) n hn).imp ?_ id
    exact fun ⟨m, hm, hnone⟩ => ⟨m, hr.passed m hm, hnone⟩

theorem Registered.rely (h : Registered entries ids p) (hr : UpdateRely p p')
    (hended : p'.2.ended = false) : Registered entries ids p' := by
  refine ⟨fun hright hfresh => ?_, fun hresumed => ?_, fun hresumed n hn => ?_⟩
  · rw [hr.before] at hright
    obtain ⟨hnow, hthen⟩ := h.right hright hfresh
    refine ⟨hr.conditions hended ▸ hnow, fun m hm => ?_⟩
    rcases hr.moments hended m hm with hmoment | ⟨-, rfl⟩
    · exact hthen m hmoment
    · exact hnow
  · rw [hr.before]
    exact hr.passed _ (h.first (hr.resumed ▸ hresumed))
  · obtain ⟨m, hm, hnone⟩ := h.erased (hr.resumed ▸ hresumed) n hn
    exact ⟨m, hr.passed m hm, hnone⟩

/-! ### Steps of the request thread -/

/-- An operation of the request thread, and what is logged of it. -/
def UpdateStep (o : DapOp β) (b : β) (p p' : UpdateState) : Prop :=
  sem .request β o p.1 b p'.1 ∧ p'.2 = (p.2.pass p.1).after o b

namespace UpdateStep

theorem moments (h : UpdateStep o b p p') : p'.2.moments =
    if p.2.resumed then p.1.tables.conditions :: p.2.moments else p.2.moments := by rw [h.2]; rfl

theorem resumed (h : UpdateStep o b p p') :
    p'.2.resumed = (p.2.resumed || o.resumesTarget b) := by rw [h.2]; rfl

theorem answer (h : UpdateStep o b p p') : p'.2.answer = o.answers.getD p.2.answer := by
  rw [h.2]; rfl

theorem before (h : UpdateStep o b p p') : p'.2.before = p.2.before := by rw [h.2]; rfl
theorem ended (h : UpdateStep o b p p') : p'.2.ended = p.2.ended := by rw [h.2]; rfl

theorem passed (h : UpdateStep o b p p') {m : Conditions} (hm : m ∈ p.2.moments) :
    m ∈ p'.2.moments := by
  rw [h.moments]
  split
  · exact List.mem_cons_of_mem _ hm
  · exact hm

/-- The state before the step is one of the moments after it. -/
theorem here (h : UpdateStep o b p p') (hresumed : p.2.resumed = true) :
    p.1.tables.conditions ∈ p'.2.moments := by
  rw [h.moments, if_pos hresumed]
  exact List.mem_cons_self

theorem of_moment (h : UpdateStep o b p p') {m : Conditions} (hm : m ∈ p'.2.moments) :
    m ∈ p.2.moments ∨ m = p.1.tables.conditions := by
  rw [h.moments] at hm
  split at hm
  · exact (List.mem_cons.1 hm).symm
  · exact .inl hm

end UpdateStep

theorem Untouched.step (h : Untouched p) (hs : UpdateStep o b p p')
    (hsame : p.1.tables.SameConditions p'.1.tables) (ho : o.answers = none) : Untouched p' where
  same := hs.before ▸ h.same.trans hsame
  moments m hm := by
    rw [hs.before]
    rcases hs.of_moment hm with hmoment | rfl
    · exact h.moments m hmoment
    · exact h.same.1
  answer := by
    rw [hs.answer, ho]
    exact h.answer

/-- The recording begins: the first step shows what was kept before. -/
theorem Untouched.recording (h : Untouched p) (entries : Entries) (ids : List Int) :
    Recording entries ids [] p where
  right hright _ := by
    have hnow : p.1.tables.conditions = p.2.before.conditions := h.same.1
    refine ⟨hnow ▸ hright, fun m hm => ?_⟩
    rw [h.moments m hm]
    exact hright
  first _ := .inr h.same.1
  erased _ n hn := by cases hn

theorem Recording.step (h : Recording entries ids done p) (hs : UpdateStep o b p p')
    (hright : RightFor entries p.1.tables.conditions → Fresh entries ids →
      RightFor entries p'.1.tables.conditions) (ho : o.resumesTarget b = false) :
    Recording entries ids done p' := by
  have hresumed (h : p'.2.resumed = true) : p.2.resumed = true := by
    rw [hs.resumed, ho, Bool.or_false] at h
    exact h
  refine ⟨fun hbefore hfresh => ?_, fun hr => .inl ?_, fun hr n hn => .inl ?_⟩
  · rw [hs.before] at hbefore
    obtain ⟨hnow, hthen⟩ := h.right hbefore hfresh
    refine ⟨hright hnow hfresh, fun m hm => ?_⟩
    rcases hs.of_moment hm with hmoment | rfl
    · exact hthen m hmoment
    · exact hnow
  · rw [hs.before]
    rcases h.first (hresumed hr) with hmoment | hnow
    · exact hs.passed hmoment
    · rw [← hnow]
      exact hs.here (hresumed hr)
  · rcases h.erased (hresumed hr) n hn with ⟨m, hm, hnone⟩ | hnone
    · exact ⟨m, hs.passed hm, hnone⟩
    · exact ⟨_, hs.here (hresumed hr), hnone⟩

/-- One more id has been forgotten. -/
theorem Recording.erase {n : Int} (h : Recording entries ids done p)
    (hn : p.1.tables.conditions.get? n = none) : Recording entries ids (done ++ [n]) p :=
  { h with
    erased := fun hr m hm => by
      rcases List.mem_append.1 hm with hdone | hlast
      · exact h.erased hr m hdone
      · rw [List.mem_singleton.1 hlast]
        exact .inr hn }

/-- The step after the recording shows what was forgotten. -/
theorem Recording.recorded (h : Recording entries ids ids p) (hs : UpdateStep o b p p')
    (hsame : p.1.tables.SameConditions p'.1.tables) (ho : o.resumesTarget b = false) :
    Registered entries ids p' := by
  have hresumed (h : p'.2.resumed = true) : p.2.resumed = true := by
    rw [hs.resumed, ho, Bool.or_false] at h
    exact h
  have hnow : p'.1.tables.conditions = p.1.tables.conditions := hsame.1
  refine ⟨(h.step hs (fun hright _ => hnow ▸ hright) ho).right, fun hr => ?_, fun hr n hn => ?_⟩
  · rw [hs.before]
    rcases h.first (hresumed hr) with hmoment | hfirst
    · exact hs.passed hmoment
    · rw [← hfirst]
      exact hs.here (hresumed hr)
  · rcases h.erased (hresumed hr) n hn with ⟨m, hm, hnone⟩ | hnone
    · exact ⟨m, hs.passed hm, hnone⟩
    · exact ⟨_, hs.here (hresumed hr), hnone⟩

theorem Registered.step (h : Registered entries ids p) (hs : UpdateStep o b p p')
    (hsame : p.1.tables.SameConditions p'.1.tables) (ho : o.resumesTarget b = false) :
    Registered entries ids p' := by
  have hresumed (h : p'.2.resumed = true) : p.2.resumed = true := by
    rw [hs.resumed, ho, Bool.or_false] at h
    exact h
  have hnow : p'.1.tables.conditions = p.1.tables.conditions := hsame.1
  refine ⟨fun hright hfresh => ?_, fun hr => ?_, fun hr n hn => ?_⟩
  · rw [hs.before] at hright
    obtain ⟨hright, hthen⟩ := h.right hright hfresh
    refine ⟨hnow ▸ hright, fun m hm => ?_⟩
    rcases hs.of_moment hm with hmoment | rfl
    · exact hthen m hmoment
    · exact hright
  · rw [hs.before]
    exact hs.passed (h.first (hresumed hr))
  · obtain ⟨m, hm, hnone⟩ := h.erased (hresumed hr) n hn
    exact ⟨m, hs.passed hm, hnone⟩

end

/-! ## The outline -/

/-- The root of a message that asks to set these breakpoints. -/
def Asks (root : Json) (request : Request SetBreakpointsArguments) : Prop :=
  Decoder.valueString "command" root = .ok "setBreakpoints" ∧
    Server.decodeRequest "setBreakpoints" Decoder.setBreakpointsArguments root = .ok request

/-- Nothing is answered, or what has been recorded is what is answered. -/
def Agreed (request : Request SetBreakpointsArguments) (p : UpdateState) : Prop :=
  let requested := Server.readRequestedSourceBreakpoints request.arguments
  p.2.answer = [] ∨ ∃ sourcePath configured, request.arguments.source.path = some sourcePath ∧
    p.2.answer = Server.createResponseBreakpoints request.arguments.source
      (requested.map Server.parseSourceBreakpoint) configured ∧
    Registered (configured.zip (Server.configurable requested)) (p.2.before.listed sourcePath) p

/-- As long as the session has not ended. -/
def Lasting (A : UpdateState → Prop) (p : UpdateState) : Prop := p.2.ended = false → A p

/-- The other threads write no conditions while the session lasts. -/
def updates : Demands Tid DapOp Job Exn Bool UpdateState where
  Inv p := p.2.ending = true → p.2.ended = true
  rely
    | .request => UpdateRely
    | .callback => fun p p' => p'.2.ending = p.2.ending
    | _ => fun _ _ => True
  post t j _ p := t = j.thread ∧ ∀ root request, j = .request root → Asks root request →
    Lasting (Agreed request) p
  rely_refl t p := by
    cases t with
    | request => exact .refl p
    | callback => rfl
    | _ => trivial
  rely_trans {t} _ _ _ h h' := by
    cases t with
    | request => exact h.trans h'
    | callback => exact Eq.trans h' h
    | _ => trivial
  need _ _ _ _ _ := True
  rest _ _ := True
  rest_rely _ _ _ := trivial

section

variable {t : Tid} {j : Job} {p p' : UpdateState} {β : Type} {o : DapOp β} {b : β}

/-- A step that another thread takes. -/
theorem updateRely_of_pass {ending ended : Bool}
    (hl : p'.2 = { p.2.pass p.1 with ending, ended }) (hended : ended = false → p.2.ended = false)
    (hsame : ended = false → p.1.tables.SameConditions p'.1.tables) : UpdateRely p p' := by
  have hmoments : p'.2.moments =
      if p.2.resumed then p.1.tables.conditions :: p.2.moments else p.2.moments := by rw [hl]; rfl
  have hlasting : p'.2.ended = ended := by rw [hl]
  refine ⟨fun h => hended (hlasting ▸ h), hl ▸ rfl, hl ▸ rfl, hl ▸ rfl,
    fun h => hsame (hlasting ▸ h), fun m hm => ?_, fun _ m hm => ?_⟩
  · rw [hmoments]
    split
    · exact List.mem_cons_of_mem _ hm
    · exact hm
  · rw [hmoments] at hm
    split at hm
    · rename_i hresumed
      exact (List.mem_cons.1 hm).elim (fun h => .inr ⟨hresumed, h⟩) .inl
    · exact .inl hm

/-- The common operations leave the conditions alone. -/
theorem sem_sameConditions (ho : o.common) {s s' : Server} (h : sem t β o s b s') :
    s.tables.SameConditions s'.tables := by
  have same (ho : o.keepsTables) : s.tables.SameConditions s'.tables := by
    rw [sem_keepsTables ho h]
    exact ⟨rfl, rfl⟩
  cases o with
  | modify f =>
    obtain ⟨-, rfl⟩ := sem_modify.1 h
    exact ho s.tables
  | _ => exact same trivial

/-- An operation of the request thread. -/
theorem updates_pre {A : β → UpdateState → Prop}
    (hop : p.2.ended = false → ∀ b p', UpdateStep o b p p' → A b p')
    (hstable : ∀ b p p', A b p → UpdateRely p p' → p'.2.ended = false → A b p') :
    (updates.spec updateSystem .request j).pre o (fun b => Lasting (A b)) p := by
  refine Demands.pre_of (fun _ => trivial) (fun b p' hi h => ?_)
    fun b p p' hA hr _ hended => hstable b p p' (hA (hr.ended hended)) hr hended
  have hs : UpdateStep o b p p' := h
  refine ⟨⟨fun h => ?_, fun u hu => ?_⟩, fun hended => hop (hs.ended ▸ hended) b p' hs⟩
  · rw [hs.ended]
    refine hi ?_
    rw [hs.2] at h
    exact h
  · cases u with
    | request => exact absurd rfl hu
    | callback =>
      change p'.2.ending = p.2.ending
      rw [hs.2]
      rfl
    | _ => trivial

end

/-! ## Before the recording -/

/-- The operations that leave the conditions alone and answer with no breakpoints. -/
def DapOp.beforeAnswer : ∀ {β : Type}, DapOp β → Prop
  | _, .modify f => SparesConditions f
  | _, .send (.response r) => (DapOp.send (.response r)).answers = none
  | _, _ => True

abbrev BeforeAnswer {α : Type} (p : Dap α) : Prop := AllOps DapOp.beforeAnswer p

theorem beforeAnswer_of_quiet {α : Type} {C : ∀ {γ : Type}, Call γ → Prop} {p : Dap α}
    (h : AllOps (DapOp.quiet C) p) : BeforeAnswer p := by
  refine h.mono fun {β} o ho => ?_
  cases o with
  | send m => cases m with
    | response r => exact ho.elim
    | event e => trivial
  | modify f => exact ho.elim
  | _ => trivial

theorem DapOp.beforeAnswer.answers {β : Type} {o : DapOp β} (ho : o.beforeAnswer) :
    o.answers = none := by
  cases o with
  | send m => cases m with
    | response r => exact ho
    | event e => rfl
  | _ => rfl

theorem DapOp.beforeAnswer.sameConditions {t : Tid} {β : Type} {o : DapOp β} {b : β}
    (ho : o.beforeAnswer) {s s' : Server} (h : sem t β o s b s') :
    s.tables.SameConditions s'.tables := by
  have same (ho : o.keepsTables) : s.tables.SameConditions s'.tables := by
    rw [sem_keepsTables ho h]
    exact ⟨rfl, rfl⟩
  cases o with
  | modify f =>
    obtain ⟨-, rfl⟩ := sem_modify.1 h
    exact ho s.tables
  | _ => exact same trivial

section

variable {j : Job} {p : UpdateState}

theorem untouched_of_beforeAnswer {α : Type} {q : Dap α} (h : BeforeAnswer q)
    (hp : Lasting Untouched p) : q.wp (updates.spec updateSystem .request j)
      (fun _ => Lasting Untouched) (fun _ => Lasting Untouched) p := by
  refine wp_of_allOps (I := Lasting Untouched) (fun {β} o ho p hp => ?_) h hp
  exact updates_pre (A := fun _ => Untouched) (fun hended b p' hs =>
    (hp hended).step hs (ho.sameConditions hs.1) ho.answers) fun _ _ _ hA hr => hA.rely hr

end

namespace Server

theorem joinWaitLoop_beforeAnswer : BeforeAnswer joinWaitLoop := by
  have drain : BeforeAnswer (drainPendingDisposedSession .request) := by
    refine .bind (.perform trivial) fun session => ?_
    cases session with
    | none => trivial
    | some id =>
      exact .catching (beforeAnswer_of_quiet (invoke_quiet (C := fun _ => True)
        (Session.destroy_quiet id trivial .request))) fun _ => trivial
  exact .bind (.perform trivial) fun _ => .bind (.perform trivial) fun _ =>
    .bind (.perform trivial) fun _ => .ite (.bind (.perform trivial) fun _ => drain) drain

theorem startWaitingForSessionEvent_beforeAnswer (id : SessionId) :
    BeforeAnswer (startWaitingForSessionEvent id) := by
  have start : BeforeAnswer (do
      store .sessionStopOrExitObserved false
      store .waitLoopActive true
      Prog.perform (.spawnLoop id)
      Prog.perform .unlockGate) :=
    .bind (.perform trivial) fun _ => .bind (.perform trivial) fun _ =>
      .bind (.perform trivial) fun _ => .perform trivial
  exact .bind (.perform trivial) fun _ => .bind (.perform trivial) fun _ =>
    .ite (.perform trivial) (.bind (.perform trivial) fun _ =>
      .ite (.bind (.perform trivial) fun _ => start) start)

/-- The update and its resume answer nothing and leave the conditions alone. -/
theorem setBreakpointsWhileRunning_beforeAnswer (id : SessionId) (path : String)
    (specs : List SourceBreakpointSpec) :
    BeforeAnswer (setBreakpointsWhileRunning id path specs) := by
  have update : BeforeAnswer (invoke .request (Session.setSourceBreakpoints id path specs)) :=
    beforeAnswer_of_quiet (invoke_quiet (Session.setSourceBreakpoints_quiet id path specs))
  have action : BeforeAnswer (do
      Session.interrupt id
      joinWaitLoop
      let result ← invoke .request (Session.setSourceBreakpoints id path specs)
      store .isExecutionRunning true
      invoke .request (Session.continue_ id)
      return result) :=
    .bind (beforeAnswer_of_quiet (C := fun _ => True) (Session.interrupt_quiet id)) fun _ =>
      .bind joinWaitLoop_beforeAnswer fun _ => .bind update fun _ => .bind (.perform trivial)
        fun _ => .bind (beforeAnswer_of_quiet (invoke_quiet (C := fun _ => True)
          (Session.resume_quiet id trivial _))) fun _ => trivial
  exact .bind (.bind (.perform trivial) fun _ => .bind (.catching action fun _ =>
    .bind (.perform trivial) fun _ => trivial) fun _ => .bind (.perform trivial) fun _ => trivial)
      fun _ => .bind (startWaitingForSessionEvent_beforeAnswer id) fun _ => trivial

/-! ## The recording -/

section

variable {j : Job} {p : UpdateState} {entries : Entries} {ids done : List Int} {path : String}

/-- While conditions are recorded under a path. -/
def RecordingUnder (path : String) (entries : Entries) (ids done : List Int) (p : UpdateState) :
    Prop := p.2.before.listed path = ids ∧ Recording entries ids done p

theorem RecordingUnder.rely {p p' : UpdateState} (h : RecordingUnder path entries ids done p)
    (hr : UpdateRely p p') (hended : p'.2.ended = false) :
    RecordingUnder path entries ids done p' :=
  ⟨hr.before ▸ h.1, h.2.rely hr hended⟩

/-- A write to the tables while conditions are recorded. -/
theorem modifyTables_recording {f : Tables → Tables} {done' : List Int}
    (hp : Lasting (RecordingUnder path entries ids done) p)
    (hright : ∀ d, RightFor entries d.conditions → Fresh entries ids →
      RightFor entries (f d).conditions)
    (hdone : ∀ {p : UpdateState} {d : Tables}, p.1.tables = f d → Recording entries ids done p →
      Recording entries ids done' p) :
    (modifyTables f).wp (updates.spec updateSystem .request j)
      (fun _ => Lasting (RecordingUnder path entries ids done')) (fun _ _ => False) p := by
  refine updates_pre (A := fun _ => RecordingUnder path entries ids done')
    (fun hended b p' hs => ?_) fun _ _ _ hA hr => hA.rely hr
  obtain ⟨hlisted, hrecording⟩ := hp hended
  have htables : p'.1.tables = f p.1.tables := by rw [(sem_modify.1 hs.1).2]
  refine ⟨hs.before ▸ hlisted, hdone htables (hrecording.step hs (fun hr hfresh => ?_) rfl)⟩
  rw [htables]
  exact hright _ hr hfresh

theorem forget_recording {rest : List Int} (hids : done ++ rest = ids)
    (hp : Lasting (RecordingUnder path entries ids done) p) :
    (Prog.forEach (fun n => modifyTables (·.eraseCondition n)) rest).wp
      (updates.spec updateSystem .request j)
      (fun _ => Lasting (RecordingUnder path entries ids ids)) (fun _ _ => False) p := by
  induction rest generalizing done p with
  | nil =>
    rw [List.append_nil] at hids
    exact hids ▸ hp
  | cons n rest ih =>
    rw [Prog.forEach, wp_bind]
    have hn : n ∈ ids := by
      rw [← hids]
      exact List.mem_append_right _ List.mem_cons_self
    have hids' : (done ++ [n]) ++ rest = ids := by simpa using hids
    refine wp_mono_val (fun _ p' hp' => ih hids' hp') ?_
    refine modifyTables_recording hp (fun d hr hfresh => hr.erase hfresh hn) fun ht h => h.erase ?_
    rw [ht, eraseCondition_get?, if_pos rfl]

theorem clearConditionalBreakpointState_recording (entries : Entries)
    (hp : Lasting Untouched p) :
    (clearConditionalBreakpointState path).wp (updates.spec updateSystem .request j)
      (fun _ => Lasting fun p =>
        RecordingUnder path entries (p.2.before.listed path) (p.2.before.listed path) p)
      (fun _ _ => False) p := by
  have named {ids : List Int} {p : UpdateState}
      (h : Lasting (RecordingUnder path entries ids ids) p) :
      Lasting (fun p => RecordingUnder path entries (p.2.before.listed path)
        (p.2.before.listed path) p) p := by
    intro hended
    obtain ⟨rfl, hrecording⟩ := h hended
    exact ⟨rfl, hrecording⟩
  have read : (updates.spec updateSystem .request j).pre .tables (fun (d : Tables) =>
      Lasting fun p => p.2.before.SameConditions d ∧ Untouched p) p := by
    refine updates_pre (A := fun d p => p.2.before.SameConditions d ∧ Untouched p)
      (fun hended d p' hs => ?_) fun d p p' hA hr hended => ⟨hr.before ▸ hA.1, hA.2.rely hr hended⟩
    obtain ⟨rfl, hsame⟩ := sem_tables.1 hs.1
    have hold := hp hended
    refine ⟨hs.before ▸ hold.same, hold.step hs ?_ rfl⟩
    rw [hsame]
    exact ⟨rfl, rfl⟩
  refine (updates.spec updateSystem .request j).mono _ (fun d p hp => ?_) read
  have begun : Lasting (RecordingUnder path entries (d.listed path) []) p := by
    intro hended
    obtain ⟨hsame, hold⟩ := hp hended
    refine ⟨?_, hold.recording entries _⟩
    rw [Tables.listed, Tables.listed, hsame.2]
  dsimp only [ret_bind]
  cases hids : d.conditionalBreakpointIdsByPath.get? path with
  | none =>
    have hlisted : d.listed path = [] := by rw [Tables.listed, hids]; rfl
    rw [hlisted] at begun
    exact named begun
  | some ids =>
    have hlisted : d.listed path = ids := by rw [Tables.listed, hids]; rfl
    rw [hlisted] at begun
    dsimp only
    rw [bind_eq, wp_bind]
    refine wp_mono_val (fun _ p hp => ?_) (forget_recording (List.nil_append ids) begun)
    exact wp_mono_val (fun _ _ => named) (modifyTables_recording (f := (·.erasePath path)) hp
      (fun _ hr _ => hr) fun _ h => h)

theorem recordCondition_recording {entry : SourceBreakpointResult × SourceBreakpoint}
    (he : entry ∈ entries) (hp : Lasting (RecordingUnder path entries ids ids) p) :
    (recordCondition path entry).wp (updates.spec updateSystem .request j)
      (fun _ => Lasting (RecordingUnder path entries ids ids)) (fun _ _ => False) p := by
  unfold recordCondition
  split
  · rename_i condition n hcondition hn
    split
    · exact hp
    · rename_i hset
      rw [not_or, not_not] at hset
      have hasked : entry.2.asked = some condition := by
        rw [SourceBreakpoint.asked, hcondition, Option.filter_some, if_pos (by simpa using hset.1)]
      rw [bind_eq, wp_bind]
      refine wp_mono_val (fun _ p hp => modifyTables_recording (f := (·.listUnder path n)) hp
        (fun _ hr _ => hr) fun _ h => h) ?_
      exact modifyTables_recording hp (fun d hr _ => hr.set he ⟨hset.2, hn⟩ hasked) fun _ h => h
  · exact hp

end

/-! ## The handler -/

section

variable {j : Job} {p : UpdateState} {request : Request SetBreakpointsArguments}

/-- What is answered is what was recorded; a failure has recorded nothing. -/
abbrev Agrees (j : Job) (request : Request SetBreakpointsArguments) (q : Dap Unit)
    (p : UpdateState) : Prop :=
  q.wp (updates.spec updateSystem .request j) (fun _ => Lasting (Agreed request))
    (fun _ => Lasting Untouched) p

theorem agreed_of_untouched (h : Lasting Untouched p) : Lasting (Agreed request) p :=
  fun hended => .inl (h hended).answer

/-- Once it has answered, the request leaves the conditions alone. -/
theorem agreed_pre {β : Type} {o : DapOp β} (ho : o.beforeAnswer)
    (hresumes : ∀ b, o.resumesTarget b = false) (hp : Lasting (Agreed request) p) :
    (updates.spec updateSystem .request j).pre o (fun _ => Lasting (Agreed request)) p := by
  refine updates_pre (A := fun _ => Agreed request) (fun hended b p' hs => ?_)
    fun b p p' hA hr hended => ?_
  · have hanswer : p'.2.answer = p.2.answer := by rw [hs.answer, ho.answers]; rfl
    rcases hp hended with hnone | ⟨path, configured, hpath, hconfigured, hrecorded⟩
    · exact .inl (hanswer.trans hnone)
    · refine .inr ⟨path, configured, hpath, hanswer.trans hconfigured, hs.before ▸ ?_⟩
      exact hrecorded.step hs (ho.sameConditions hs.1) (hresumes b)
  · rcases hA with hnone | ⟨path, configured, hpath, hconfigured, hrecorded⟩
    · exact .inl (hr.answer.trans hnone)
    · refine .inr ⟨path, configured, hpath, hr.answer.trans hconfigured, hr.before ▸ ?_⟩
      exact hrecorded.rely hr hended

theorem updateConditionalBreakpointState_recording {path : String}
    (configured : List SourceBreakpointResult) (requested : List SourceBreakpoint)
    (hp : Lasting Untouched p) :
    (updateConditionalBreakpointState path configured requested).wp
      (updates.spec updateSystem .request j) (fun _ => Lasting fun p => Recording
        (configured.zip requested) (p.2.before.listed path) (p.2.before.listed path) p)
      (fun _ _ => False) p := by
  rw [updateConditionalBreakpointState, bind_eq, wp_bind]
  refine wp_mono_val (fun _ p hp => ?_)
    (clearConditionalBreakpointState_recording (configured.zip requested) hp)
  refine wp_mono_val (fun _ p' hp' hended => ?_) (wp_forEach
    (I := Lasting (RecordingUnder path _ (p.2.before.listed path) (p.2.before.listed path)))
    (fun entry he p hp => recordCondition_recording he hp) hp)
  obtain ⟨hlisted, hrecording⟩ := hp' hended
  rw [hlisted]
  exact hrecording

/-- The breakpoints are answered. -/
theorem answer_agreed {path : String} (hpath : request.arguments.source.path = some path)
    (configured : List SourceBreakpointResult)
    (hp : Lasting (fun p => Recording (configured.zip (configurable
      (readRequestedSourceBreakpoints request.arguments))) (p.2.before.listed path)
        (p.2.before.listed path) p) p) :
    (sendResponse request (.breakpoints (createResponseBreakpoints request.arguments.source
      ((readRequestedSourceBreakpoints request.arguments).map parseSourceBreakpoint)
        configured))).wp (updates.spec updateSystem .request j)
      (fun _ => Lasting (Agreed request)) (fun _ => Lasting Untouched) p := by
  refine updates_pre (A := fun _ => Agreed request) (fun hended b p' hs => ?_)
    fun b p p' hA hr hended => ?_
  · refine .inr ⟨path, configured, hpath, hs.answer, hs.before ▸ ?_⟩
    refine (hp hended).recorded hs ?_ rfl
    rw [sem_send.1 hs.1]
    split <;> exact ⟨rfl, rfl⟩
  · rcases hA with hnone | ⟨path, configured, hpath, hconfigured, hrecorded⟩
    · exact .inl (hr.answer.trans hnone)
    · refine .inr ⟨path, configured, hpath, hr.answer.trans hconfigured, hr.before ▸ ?_⟩
      exact hrecorded.rely hr hended

theorem record_agrees {path : String} (hpath : request.arguments.source.path = some path)
    (configured : List SourceBreakpointResult) (reported : Bool) (e : Event)
    (hp : Lasting Untouched p) : Agrees j request (do
      updateConditionalBreakpointState path configured
        (configurable (readRequestedSourceBreakpoints request.arguments))
      sendResponse request (.breakpoints (createResponseBreakpoints request.arguments.source
        ((readRequestedSourceBreakpoints request.arguments).map parseSourceBreakpoint) configured))
      if reported then return else sendEvent e) p := by
  rw [Agrees, bind_eq, wp_bind]
  refine wp_mono (fun _ p hp => ?_) (fun _ _ h => h.elim)
    (updateConditionalBreakpointState_recording configured _ hp)
  rw [bind_eq, wp_bind]
  refine wp_mono_val (fun _ p hp => ?_) (answer_agreed hpath configured hp)
  split
  · exact hp
  · exact agreed_pre (o := .send (.event e)) trivial (fun _ => rfl) hp

theorem configureSetBreakpoints_agrees {path : String}
    (hpath : request.arguments.source.path = some path) (hp : Lasting Untouched p) :
    Agrees j request (configureSetBreakpoints request path) p := by
  have session : BeforeAnswer requireDebuggerSession := by
    refine .bind (.perform trivial) fun session => ?_
    cases session <;> trivial
  have running : BeforeAnswer (load .isExecutionRunning) := .perform trivial
  rw [configureSetBreakpoints, Agrees, bind_eq, wp_bind]
  refine wp_mono_val (fun id p hp => ?_) (untouched_of_beforeAnswer session hp)
  rw [bind_eq, wp_bind]
  refine wp_mono_val (fun resumeAfterUpdate p hp => ?_) (untouched_of_beforeAnswer running hp)
  split
  · rw [bind_eq, wp_bind]
    refine wp_mono_val (fun configured p hp => ?_)
      (untouched_of_beforeAnswer (setBreakpointsWhileRunning_beforeAnswer id path _) hp)
    exact record_agrees hpath configured _ _ hp
  · rw [bind_eq, wp_bind]
    refine wp_mono_val (fun configured p hp => ?_)
      (untouched_of_beforeAnswer (beforeAnswer_of_quiet (invoke_quiet
        (Session.setSourceBreakpoints_quiet id path _))) hp)
    exact record_agrees hpath configured _ _ hp

theorem handleSetBreakpointsRequest_agrees (hp : Lasting Untouched p) :
    Agrees j request (handleSetBreakpointsRequest request) p := by
  have refused (message : String) : Agrees j request (fail request message) p :=
    wp_mono_val (fun _ _ => agreed_of_untouched)
      (untouched_of_beforeAnswer (q := fail request message) (.perform rfl) hp)
  rw [handleSetBreakpointsRequest]
  split
  · exact refused _
  · split
    · exact refused _
    · rename_i path hpath
      exact configureSetBreakpoints_agrees (Option.filter_eq_some_iff.1 hpath).1 hp

theorem recover_beforeAnswer (root : Json) (e : Exn) : BeforeAnswer (recover root e) := by
  have report (e : Exn) : BeforeAnswer (reportFailure root e) := by
    unfold reportFailure
    split
    · exact .ite trivial (.perform rfl)
    · trivial
  cases e with
  | unhandledRequest seq command => exact .perform rfl
  | _ => exact report _

/-- The handler of a message that asks to set breakpoints. -/
theorem Asks.handle {root : Json} (h : Asks root request) (haccepts : accepts root = true) :
    handle root = handleSetBreakpointsRequest request := by
  rw [handle_of_accepts haccepts, dispatchRequest, h.1]
  change run (decodeRequest "setBreakpoints" Decoder.setBreakpointsArguments)
    handleSetBreakpointsRequest root = _
  rw [run, h.2]

theorem handleRequest_agrees {root : Json} (h : Asks root request) (haccepts : accepts root = true)
    (hp : Lasting Untouched p) : (handleRequest root).wp (updates.spec updateSystem .request j)
      (fun _ => Lasting (Agreed request)) (fun _ => Lasting (Agreed request)) p := by
  have first : BeforeAnswer (do
      store .shouldExit false
      modifyTables fun d => { d with currentRequestJson := root }
      store .hasCurrentRequestJson true) :=
    .bind (.perform trivial) fun _ => .bind (.perform fun _ => ⟨rfl, rfl⟩) fun _ => .perform trivial
  have started : handleRequest root = (do
      store .shouldExit false
      modifyTables fun d => { d with currentRequestJson := root }
      store .hasCurrentRequestJson true).bind fun _ => (do
        (handle root).catching (recover root)
        let shouldExit ← load .shouldExit
        store .hasCurrentRequestJson false
        return shouldExit) := rfl
  have finished {p : UpdateState} (hp : Lasting (Agreed request) p) : (do
      let shouldExit ← load .shouldExit
      store .hasCurrentRequestJson false
      return shouldExit).wp (updates.spec updateSystem .request j)
        (fun _ => Lasting (Agreed request)) (fun _ => Lasting (Agreed request)) p := by
    refine (updates.spec updateSystem .request j).mono _ (fun _ _ hp => ?_)
      (agreed_pre (o := .load .shouldExit) trivial (fun _ => rfl) hp)
    exact agreed_pre (o := .store .hasCurrentRequestJson false) trivial (fun _ => rfl) hp
  rw [started, wp_bind]
  refine wp_mono (fun _ p hp => ?_) (fun _ _ => agreed_of_untouched)
    (untouched_of_beforeAnswer first hp)
  rw [bind_eq, wp_bind, wp_catching, Asks.handle h haccepts]
  refine wp_mono (fun _ p hp => finished hp) (fun e p hp => ?_)
    (handleSetBreakpointsRequest_agrees hp)
  exact wp_mono (fun _ p hp => finished (agreed_of_untouched hp)) (fun _ _ => agreed_of_untouched)
    (untouched_of_beforeAnswer (recover_beforeAnswer root e) hp)

end

end Server

/-! ## Every run -/

namespace Updates

open Server

variable {t : Tid} {j : Job} {p p' : UpdateState}

/-- An operation of a job that only the end of the session makes write conditions. -/
theorem other_pre (ht : t ≠ .request) {β : Type} {o : DapOp β} (ho : o.common ∨ j.ends)
    (hthread : t = j.thread) (hp : j.ends → p.2.ending = true) :
    (updates.spec updateSystem t j).pre o (fun _ p => j.ends → p.2.ending = true) p := by
  refine Demands.pre_of (fun _ => trivial) (fun b p' hi h => ?_) fun b p p' hK hr _ hends => ?_
  · have hl : p'.2 = p.2.pass p.1 := by
      refine h.2.trans ?_
      cases t with
      | request => exact absurd rfl ht
      | _ => rfl
    have hsame (hended : p.2.ended = false) : p.1.tables.SameConditions p'.1.tables := by
      rcases ho with ho | hends
      · exact sem_sameConditions ho h.1
      · rw [hi (hp hends)] at hended
        cases hended
    refine ⟨⟨fun hending => ?_, fun u _ => ?_⟩, fun hends => ?_⟩
    · rw [hl] at hending ⊢
      exact hi hending
    · cases u with
      | request => exact updateRely_of_pass hl id hsame
      | callback =>
        change p'.2.ending = p.2.ending
        rw [hl]
        rfl
      | _ => trivial
    · rw [hl]
      exact hp hends
  · have hcallback : t = .callback := by
      rw [hthread]
      cases j with
      | callback => rfl
      | _ => exact hends.elim
    subst hcallback
    exact Eq.trans hr (hK hends)

theorem other_safe (ht : j.thread ≠ .request) (hp : j.ends → p.2.ending = true) :
    updates.Safe updateSystem j.thread j j.body p := by
  intro p' hr _
  have hp' (hends : j.ends) : p'.2.ending = true := by
    cases j with
    | callback => exact Eq.trans hr (hp hends)
    | _ => exact hends.elim
  have ops : AllOps (fun o => o.common ∨ j.ends) j.body :=
    Job.body_allOps ht (fun _ => .inl) fun hends _ => .inr hends
  refine wp_mono ?_ ?_ (wp_of_allOps (I := fun p => j.ends → p.2.ending = true)
    (fun o ho p hp => other_pre ht ho rfl hp) ops hp')
  all_goals
    refine fun _ _ _ => ⟨rfl, ?_⟩
    rintro root request rfl
    exact absurd rfl ht

/-- Whatever the request thread does besides. -/
theorem request_any {α : Type} (q : Dap α) (p : UpdateState) :
    q.wp (updates.spec updateSystem .request j) (fun _ _ => True) (fun _ _ => True) p :=
  wp_of_allOps (P := fun _ => True) (I := fun _ => True) (fun o _ _ _ =>
    (updates.spec updateSystem .request j).mono o (fun _ _ _ => trivial)
      (updates_pre (A := fun _ _ => True) (fun _ _ _ _ => trivial) fun _ _ _ _ _ _ => trivial))
    (.of_forall (fun _ => trivial) q) trivial

theorem request_safe {root : Json} (haccepts : accepts root = true) (hp : Lasting Untouched p) :
    updates.Safe updateSystem .request (.request root) (Job.request root).body p := by
  intro p' hr _
  have hp' : Lasting Untouched p' := fun hended => (hp (hr.ended hended)).rely hr hended
  by_cases hroot : ∃ request, Asks root request
  · obtain ⟨request, hroot⟩ := hroot
    have hagrees : (Job.request root).body.wp (updates.spec updateSystem .request (.request root))
        (fun _ => Lasting (Agreed request)) (fun _ => Lasting (Agreed request)) p' :=
      handleRequest_agrees hroot haccepts hp'
    refine wp_mono ?_ ?_ hagrees
    all_goals
      refine fun _ _ hagreed => ⟨rfl, ?_⟩
      rintro _ other ⟨⟩ hother
      obtain rfl : request = other := Except.ok.inj (hroot.2.symm.trans hother.2)
      exact hagreed
  · refine wp_mono ?_ ?_ (request_any (Job.request root).body p')
    all_goals
      refine fun _ _ _ => ⟨rfl, ?_⟩
      rintro _ other ⟨⟩ hother
      exact absurd ⟨other, hother⟩ hroot

theorem start_valid (hi : updates.Inv p) (h : updateSystem.start t j p p') :
    updates.Keeps t p p' ∧ updates.Safe updateSystem t j j.body p' := by
  obtain ⟨hs, hl⟩ := h
  have hs : startJob t j p.1 = some p'.1 := hs
  have htables := (startJob_members hs).1
  have hsame : p.1.tables.SameConditions p'.1.tables := by rw [htables]; exact ⟨rfl, rfl⟩
  have ht := startJob_thread hs
  subst ht
  have keeps {ending ended : Bool} (hl : p'.2 = { p.2.pass p.1 with ending, ended })
      (hended : ended = false → p.2.ended = false) (hinv : ending = true → ended = true)
      (hending : j.thread ≠ .callback → ending = p.2.ending) : updates.Keeps j.thread p p' := by
    refine ⟨fun h => ?_, fun u hu => ?_⟩
    · rw [hl] at h ⊢
      exact hinv h
    · cases u with
      | request => exact updateRely_of_pass hl hended fun _ => hsame
      | callback =>
        change p'.2.ending = p.2.ending
        rw [hl]
        exact hending hu.symm
      | _ => trivial
  cases j with
  | request root =>
    simp only [startJob, Job.thread, Option.ite_none_right_eq_some, Option.some.injEq] at hs
    refine ⟨⟨fun h => ?_, fun u hu => ?_⟩, request_safe hs.1.2 fun _ => ⟨?_, ?_, ?_⟩⟩
    · rw [hl] at h ⊢
      exact h
    · cases u with
      | request => exact absurd rfl hu
      | callback =>
        change p'.2.ending = p.2.ending
        rw [hl]
        rfl
      | _ => trivial
    · rw [hl]
      exact hsame
    · rw [hl]
      simp [UpdateLog.record, UpdateLog.note]
    · rw [hl]
      rfl
  | teardown =>
    refine ⟨keeps hl id hi fun _ => rfl, fun p _ _ => wp_mono ?_ ?_ (request_any _ p)⟩
    all_goals
      refine fun _ _ _ => ⟨rfl, ?_⟩
      rintro root request ⟨⟩
  | callback id event threads current =>
    refine ⟨keeps hl ?_ ?_ fun h => absurd rfl h, other_safe (by rintro ⟨⟩) fun hends => ?_⟩
    · exact fun h => (Bool.or_eq_false_iff.1 h).1
    · intro h
      rw [h, Bool.or_true]
    · rw [hl]
      exact hends
  | _ => exact ⟨keeps hl id hi fun _ => rfl, other_safe (by rintro ⟨⟩) fun hends => hends.elim⟩

theorem finish_keeps {r : Except Exn Bool} (hi : updates.Inv p) (hp : updates.post t j r p)
    (h : updateSystem.finish t j r p p') : updates.Keeps t p p' := by
  obtain ⟨ht, -⟩ : t = j.thread ∧ _ := hp
  obtain ⟨hf, hl⟩ := h
  have hsame : p.1.tables.SameConditions p'.1.tables := by
    rw [(finishJob_members hf).1]
    exact ⟨rfl, rfl⟩
  subst ht
  have keeps {ending : Bool} (hl : p'.2 = { p.2.pass p.1 with ending, ended := p.2.ended })
      (hinv : ending = true → p.2.ending = true)
      (hending : j.thread ≠ .callback → ending = p.2.ending) : updates.Keeps j.thread p p' := by
    refine ⟨fun h => ?_, fun u hu => ?_⟩
    · rw [hl] at h ⊢
      exact hi (hinv h)
    · cases u with
      | request => exact updateRely_of_pass hl id fun _ => hsame
      | callback =>
        change p'.2.ending = p.2.ending
        rw [hl]
        exact hending hu.symm
      | _ => trivial
  cases j with
  | callback id event threads current =>
    exact keeps hl (by rintro ⟨⟩) fun h => absurd rfl h
  | _ => exact keeps hl id fun _ => rfl

theorem valid (fullPath : String → String) : updates.Valid updateSystem ({ fullPath }, {}) where
  init := by rintro ⟨⟩
  rest _ := trivial
  start hi _ h := start_valid hi h
  finish hi hp h := ⟨finish_keeps hi hp h, trivial⟩

end Updates

section

open Server

variable {source : Source} {requested : List SourceBreakpoint}
  {configured : List SourceBreakpointResult}

end

/-! ## Two updates -/

namespace Schedule

end Schedule

end DapDbgeng
