/-
  Threads that run programs over one shared state.

  Every thread is idle or busy with a job; a busy thread performs one operation of its program
  at a time, in any order with the other threads.  Main results:

  * `Outline.sound`: the rely-guarantee rule.  If every job keeps the invariant and stays within
    what the other threads rely on, all of it checked by `wp`, every reachable configuration
    satisfies the invariant;
  * `restrict_run`: what is known of every step may be assumed of it;
  * `busy_of_run`: a history variable may say whether a thread is busy;
  * `Machine.exec_run`: what an executable schedule computes is a run.
-/
import DapDbgeng.Concurrent.Wp
import Mathlib.Logic.Function.Basic

namespace Concurrent

universe u v w

/-- Threads `Tid`, each running jobs as programs, over a shared state. -/
structure System (Tid : Type) (Op : Type → Type w) (Job ε ρ : Type) (σ : Type u) where
  body : Job → Prog Op ε ρ
  sem : Tid → StepRel Op σ
  start : Tid → Job → σ → σ → Prop
  finish : Tid → Job → Except ε ρ → σ → σ → Prop

/-- What a thread does in one step. -/
inductive Label (Tid : Type) (Op : Type → Type w) (Job ε ρ : Type) : Type (max 1 w) where
  | start (t : Tid) (j : Job)
  | op (t : Tid) (e : Event Op)
  | finish (t : Tid) (j : Job) (r : Except ε ρ)

/-- The thread a step is of. -/
def Label.thread {Tid : Type} {Op : Type → Type w} {Job ε ρ : Type} :
    Label Tid Op Job ε ρ → Tid
  | .start t _ | .op t _ | .finish t _ _ => t

/-- Whether thread `t` is busy after a step. -/
def Label.busy {Tid : Type} [DecidableEq Tid] {Op : Type → Type w} {Job ε ρ : Type} (t : Tid) :
    Label Tid Op Job ε ρ → Bool → Bool
  | .start u _, b => if u = t then true else b
  | .op .., b => b
  | .finish u _ _, b => if u = t then false else b

/-- The job a step begins. -/
def Label.begins {Tid : Type} {Op : Type → Type w} {Job ε ρ : Type} :
    Label Tid Op Job ε ρ → Option (Tid × Job)
  | .start t j => some (t, j)
  | _ => none

/-- The shared state and, for each busy thread, its job and what is left of its program. -/
structure Config (Tid : Type) (Op : Type → Type w) (Job ε ρ : Type) (σ : Type u) where
  state : σ
  threads : Tid → Option (Job × Prog Op ε ρ)

/-- The outcome of a program with no operation left. -/
def Prog.outcome? {Op : Type → Type w} {ε α : Type} : Prog Op ε α → Option (Except ε α)
  | .ret a => some (.ok a)
  | .throw e => some (.error e)
  | .op _ _ => none

section

variable {Tid : Type} {Op : Type → Type w} {Job ε ρ : Type} {σ : Type u}

namespace Config

def init (s : σ) : Config Tid Op Job ε ρ σ := ⟨s, fun _ => none⟩

variable [DecidableEq Tid]

/-- The configuration after a step of thread `t`. -/
def set (c : Config Tid Op Job ε ρ σ) (t : Tid) (s : σ) (th : Option (Job × Prog Op ε ρ)) :
    Config Tid Op Job ε ρ σ := ⟨s, Function.update c.threads t th⟩

@[simp] theorem set_state (c : Config Tid Op Job ε ρ σ) (t : Tid) (s : σ)
    (th : Option (Job × Prog Op ε ρ)) : (c.set t s th).state = s := rfl

@[simp] theorem set_threads_self (c : Config Tid Op Job ε ρ σ) (t : Tid) (s : σ)
    (th : Option (Job × Prog Op ε ρ)) : (c.set t s th).threads t = th := by simp [set]

theorem set_threads_of_ne (c : Config Tid Op Job ε ρ σ) {t u : Tid} (h : u ≠ t) (s : σ)
    (th : Option (Job × Prog Op ε ρ)) : (c.set t s th).threads u = c.threads u := by simp [set, h]

end Config

/-- The configuration without the history. -/
def Config.bare {μ : Type v} (c : Config Tid Op Job ε ρ (σ × μ)) : Config Tid Op Job ε ρ σ :=
  ⟨c.state.1, c.threads⟩

namespace System

variable [DecidableEq Tid] (M : System Tid Op Job ε ρ σ)

inductive Step : Config Tid Op Job ε ρ σ → Label Tid Op Job ε ρ → Config Tid Op Job ε ρ σ → Prop
  | start {c t j s'} (idle : c.threads t = none) (h : M.start t j c.state s') :
      Step c (.start t j) (c.set t s' (some (j, M.body j)))
  | op {c t j s'} {β : Type} {o : Op β} {k : β → Prog Op ε ρ} {b : β}
      (busy : c.threads t = some (j, .op o k)) (h : M.sem t β o c.state b s') :
      Step c (.op t ⟨o, b⟩) (c.set t s' (some (j, k b)))
  | finish {c t j p r s'} (busy : c.threads t = some (j, p)) (hr : p.outcome? = some r)
      (h : M.finish t j r c.state s') : Step c (.finish t j r) (c.set t s' none)

/-- A run, with its labels. -/
inductive Run : Config Tid Op Job ε ρ σ → List (Label Tid Op Job ε ρ) →
    Config Tid Op Job ε ρ σ → Prop
  | nil (c) : Run c [] c
  | snoc {c c₁ c₂ ls l} (hr : Run c ls c₁) (h : M.Step c₁ l c₂) : Run c (ls ++ [l]) c₂

theorem Run.trans {M : System Tid Op Job ε ρ σ} {c c₁ c₂ : Config Tid Op Job ε ρ σ}
    {ls ls' : List (Label Tid Op Job ε ρ)} (h : M.Run c ls c₁) (h' : M.Run c₁ ls' c₂) :
    M.Run c (ls ++ ls') c₂ := by
  induction h' with
  | nil => simpa using h
  | snoc _ hs ih => rw [← List.append_assoc]; exact .snoc ih hs

/-- Only the steps that meet a condition. -/
def restrict (ok : Label Tid Op Job ε ρ → σ → Prop) : System Tid Op Job ε ρ σ where
  body := M.body
  sem t β o s b s' := M.sem t β o s b s' ∧ ok (.op t ⟨o, b⟩) s
  start t j s s' := M.start t j s s' ∧ ok (.start t j) s
  finish t j r s s' := M.finish t j r s s' ∧ ok (.finish t j r) s

section

variable {M} {ok : Label Tid Op Job ε ρ → σ → Prop} {c c' : Config Tid Op Job ε ρ σ}
  {l : Label Tid Op Job ε ρ} {ls : List (Label Tid Op Job ε ρ)}

theorem step_restrict : (M.restrict ok).Step c l c' ↔ M.Step c l c' ∧ ok l c.state := by
  constructor
  · rintro (⟨idle, h⟩ | ⟨busy, h⟩ | ⟨busy, hr, h⟩)
    · exact ⟨.start idle h.1, h.2⟩
    · exact ⟨.op busy h.1, h.2⟩
    · exact ⟨.finish busy hr h.1, h.2⟩
  · rintro ⟨⟨idle, h⟩ | ⟨busy, h⟩ | ⟨busy, hr, h⟩, hok⟩
    · exact .start (M := M.restrict ok) idle ⟨h, hok⟩
    · exact .op (M := M.restrict ok) busy ⟨h, hok⟩
    · exact .finish (M := M.restrict ok) busy hr ⟨h, hok⟩

theorem Run.of_restrict (hr : (M.restrict ok).Run c ls c') : M.Run c ls c' := by
  induction hr with
  | nil => exact .nil _
  | snoc _ hs ih => exact .snoc ih (step_restrict.1 hs).1

/-- What is known of the steps of all runs may be assumed of them. -/
theorem restrict_run {c₀ : Config Tid Op Job ε ρ σ}
    (h : ∀ {ls c l c'}, M.Run c₀ ls c → M.Step c l c' → ok l c.state)
    (hr : M.Run c₀ ls c) : (M.restrict ok).Run c₀ ls c := by
  induction hr with
  | nil => exact .nil _
  | snoc hr hs ih => exact .snoc ih (step_restrict.2 ⟨hs, h hr hs⟩)

end

/-- The system together with a history variable, which no step reads. -/
def instrument {μ : Type v} (record : Label Tid Op Job ε ρ → σ → μ → μ) :
    System Tid Op Job ε ρ (σ × μ) where
  body := M.body
  sem t β o s b s' := M.sem t β o s.1 b s'.1 ∧ s'.2 = record (.op t ⟨o, b⟩) s.1 s.2
  start t j s s' := M.start t j s.1 s'.1 ∧ s'.2 = record (.start t j) s.1 s.2
  finish t j r s s' := M.finish t j r s.1 s'.1 ∧ s'.2 = record (.finish t j r) s.1 s.2

section

variable {M} {μ : Type v} {record : Label Tid Op Job ε ρ → σ → μ → μ}
  {c c' : Config Tid Op Job ε ρ (σ × μ)} {l : Label Tid Op Job ε ρ}
  {ls : List (Label Tid Op Job ε ρ)}

theorem Step.of_instrument (h : (M.instrument record).Step c l c') : M.Step c.bare l c'.bare := by
  cases h with
  | start idle h => exact .start idle h.1
  | op busy h => exact .op busy h.1
  | finish busy hr h => exact .finish busy hr h.1

theorem Step.recorded (h : (M.instrument record).Step c l c') :
    c'.state.2 = record l c.state.1 c.state.2 := by
  cases h with
  | start _ h => exact h.2
  | op _ h => exact h.2
  | finish _ _ h => exact h.2

theorem Run.of_instrument (hr : (M.instrument record).Run c ls c') :
    M.Run c.bare ls c'.bare := by
  induction hr with
  | nil => exact .nil _
  | snoc _ hs ih => exact .snoc ih hs.of_instrument

/-- A history variable says whether a thread is busy. -/
theorem busy_of_run {t : Tid} {busy : μ → Bool}
    (hrecord : ∀ l s h, busy (record l s h) = l.busy t (busy h)) {s₀ : σ} {h₀ : μ}
    (h₀' : busy h₀ = false) (hr : (M.instrument record).Run (.init (s₀, h₀)) ls c) :
    busy c.state.2 = (c.threads t).isSome := by
  -- a step of another thread leaves it as it was
  have set {c : Config Tid Op Job ε ρ (σ × μ)} (u : Tid) (p : σ × μ)
      (th : Option (Job × Prog Op ε ρ)) (ih : busy c.state.2 = (c.threads t).isSome) :
      (if u = t then th.isSome else busy c.state.2) = ((c.set u p th).threads t).isSome := by
    split
    · rename_i h
      rw [h, Config.set_threads_self]
    · rename_i h
      rw [Config.set_threads_of_ne _ (Ne.symm h), ih]
  induction hr with
  | nil => exact h₀'
  | snoc _ hs ih =>
    rw [hs.recorded, hrecord]
    cases hs with
    | @start u j s' _ _ => exact set u s' (some (j, M.body j)) ih
    | @op u j s' β o k b hb _ =>
      by_cases h : u = t
      · subst h
        rw [Config.set_threads_self]
        exact ih.trans (by rw [hb]; rfl)
      · rw [Config.set_threads_of_ne _ (Ne.symm h)]
        exact ih
    | @finish u j p r s' _ _ _ => exact set u s' none ih

end

end System

/-! ## The rely-guarantee rule -/

/-- An invariant, what each thread relies on, and what holds where a job ends. -/
structure Outline (Tid Job ε ρ : Type) (σ : Type u) where
  Inv : σ → Prop
  rely : Tid → σ → σ → Prop
  post : Tid → Job → Except ε ρ → σ → Prop
  rely_refl : ∀ t s, rely t s s
  rely_trans : ∀ {t s s' s''}, rely t s s' → rely t s' s'' → rely t s s''

namespace Outline

variable (M : System Tid Op Job ε ρ σ) (A : Outline Tid Job ε ρ σ)

/-- What a step of `t` has to keep. -/
def Keeps (t : Tid) (s s' : σ) : Prop := A.Inv s' ∧ ∀ u, u ≠ t → A.rely u s s'

/-- `K` holds now and whatever the other threads do. -/
def Stable (t : Tid) (K : σ → Prop) (s : σ) : Prop := ∀ s', A.rely t s s' → A.Inv s' → K s'

/-- An operation of `t` between the steps of the others. -/
def spec (t : Tid) : Spec Op σ where
  pre o K s := ∀ b s', A.Inv s → M.sem t _ o s b s' → A.Keeps t s s' ∧ A.Stable t (K b) s'
  mono _ _ _ hK _ h b s' hi hs :=
    ⟨(h b s' hi hs).1, fun s'' hr hi' => hK b s'' ((h b s' hi hs).2 s'' hr hi')⟩

/-- What is left of a job of `t`, from the state `s` on. -/
def Safe (t : Tid) (j : Job) (p : Prog Op ε ρ) : σ → Prop :=
  A.Stable t (p.wp (A.spec M t) (fun a => A.post t j (.ok a)) fun e => A.post t j (.error e))

/-- The obligations of an outline. -/
structure Valid (s₀ : σ) : Prop where
  init : A.Inv s₀
  start : ∀ {t j s s'}, A.Inv s → M.start t j s s' → A.Keeps t s s' ∧ A.Safe M t j (M.body j) s'
  finish : ∀ {t j r s s'}, A.Inv s → A.post t j r s → M.finish t j r s s' → A.Keeps t s s'

variable {M A}

theorem Stable.rely {t : Tid} {K : σ → Prop} {s s' : σ} (h : A.Stable t K s)
    (hr : A.rely t s s') : A.Stable t K s' :=
  fun s'' hr' hi => h s'' (A.rely_trans hr hr') hi

theorem wp_outcome {t : Tid} {j : Job} {p : Prog Op ε ρ} {r : Except ε ρ} {s : σ}
    (hr : p.outcome? = some r)
    (h : p.wp (A.spec M t) (fun a => A.post t j (.ok a)) (fun e => A.post t j (.error e)) s) :
    A.post t j r s := by
  cases p with
  | ret a => cases hr; exact h
  | throw e => cases hr; exact h
  | op o k => cases hr

/-- A local assertion that the other threads leave alone and that every operation keeps. -/
theorem wp_of_allOps {t : Tid} {α : Type} {p : Prog Op ε α} {C : ∀ {β : Type}, Op β → Prop}
    {L : σ → Prop} (hp : p.AllOps C) (hstable : ∀ {s s'}, L s → A.rely t s s' → A.Inv s' → L s')
    (hop : ∀ {β : Type} (o : Op β) {b : β} {s s' : σ}, C o → A.Inv s → L s → M.sem t β o s b s' →
      A.Keeps t s s' ∧ L s') {s : σ} (hs : L s) :
    p.wp (A.spec M t) (fun _ => L) (fun _ => L) s := by
  have each {β : Type} (o : Op β) (ho : C o) (s : σ) (hs : L s) :
      (A.spec M t).pre o (fun _ => L) s := by
    intro b s' hi h
    obtain ⟨hk, hl⟩ := hop o ho hi hs h
    exact ⟨hk, fun _ hr hi' => hstable hl hr hi'⟩
  exact Prog.wp_of_allOps (I := L) each hp hs

/-- A job whose operations keep the invariant, each by itself, is safe. -/
theorem safe_of_allOps {t : Tid} {j : Job} {p : Prog Op ε ρ} {C : ∀ {β : Type}, Op β → Prop}
    (hp : p.AllOps C)
    (hop : ∀ {β : Type} (o : Op β) {b : β} {s s' : σ}, C o → A.Inv s → M.sem t β o s b s' →
      A.Keeps t s s')
    (hpost : ∀ r s, A.post t j r s) (s : σ) : A.Safe M t j p s := by
  intro s₁ _ _
  have kept : p.wp (A.spec M t) (fun _ _ => True) (fun _ _ => True) s₁ :=
    wp_of_allOps (L := fun _ => True) hp (fun _ _ _ => trivial)
      (fun o _ _ _ ho hi _ h => ⟨hop o ho hi h, trivial⟩) trivial
  exact Prog.wp_mono (fun _ _ _ => hpost _ _) (fun _ _ _ => hpost _ _) kept

variable [DecidableEq Tid]

/-- One step keeps the invariant and leaves every thread safe. -/
theorem step_safe {s₀ : σ} (hv : A.Valid M s₀) {c c' : Config Tid Op Job ε ρ σ}
    {l : Label Tid Op Job ε ρ} (hi : A.Inv c.state)
    (ht : ∀ t j p, c.threads t = some (j, p) → A.Safe M t j p c.state) (hs : M.Step c l c') :
    A.Inv c'.state ∧ ∀ t j p, c'.threads t = some (j, p) → A.Safe M t j p c'.state := by
  -- a thread that did not move is safe since it relies on the step
  have others : ∀ {t s' th}, A.Keeps t c.state s' → (∀ j p, th = some (j, p) → A.Safe M t j p s') →
      ∀ u j p, (c.set t s' th).threads u = some (j, p) → A.Safe M u j p s' := by
    intro t s' th hk hth u j p hu
    by_cases h : u = t
    · subst h; rw [Config.set_threads_self] at hu; exact hth j p hu
    · rw [Config.set_threads_of_ne _ h] at hu; exact (ht u j p hu).rely (hk.2 u h)
  cases hs with
  | start idle h =>
    obtain ⟨hk, hw⟩ := hv.start hi h
    exact ⟨hk.1, others hk fun j p hjp => by cases hjp; exact hw⟩
  | @op t j s' β o k b busy h =>
    obtain ⟨hk, hw⟩ := ht t j _ busy c.state (A.rely_refl t _) hi b s' hi h
    exact ⟨hk.1, others hk fun j p hjp => by cases hjp; exact hw⟩
  | finish busy hr h =>
    have hk := hv.finish hi (wp_outcome hr (ht _ _ _ busy _ (A.rely_refl _ _) hi)) h
    exact ⟨hk.1, others hk fun j p hjp => by cases hjp⟩

/-- **The rely-guarantee rule**: a valid outline's invariant holds throughout every run. -/
theorem sound {s₀ : σ} (hv : A.Valid M s₀) {ls : List (Label Tid Op Job ε ρ)}
    {c : Config Tid Op Job ε ρ σ} (hr : M.Run (.init s₀) ls c) : A.Inv c.state := by
  suffices h : A.Inv c.state ∧ ∀ t j p, c.threads t = some (j, p) → A.Safe M t j p c.state from h.1
  induction hr with
  | nil => exact ⟨hv.init, fun t j p h => by cases h⟩
  | snoc _ hs ih => exact step_safe hv ih.1 ih.2 hs

end Outline

/-! ## Executable systems -/

/-- A system whose steps are computed, given the answers of the world outside. -/
structure Machine (Tid : Type) (Op : Type → Type w) (Job ε ρ : Type) (σ : Type u)
    (Ans : Type v) where
  body : Job → Prog Op ε ρ
  apply : Tid → Ans → ∀ {β : Type}, Op β → σ → Option (β × σ)
  start : Tid → Job → σ → Option σ
  finish : Tid → Job → Except ε ρ → σ → Option σ

namespace Machine

variable {Ans : Type v} (M : Machine Tid Op Job ε ρ σ Ans)

/-- The system: an operation may do whatever it does under some answers. -/
def system : System Tid Op Job ε ρ σ where
  body := M.body
  sem t _ o s b s' := ∃ a, M.apply t a o s = some (b, s')
  start t j s s' := M.start t j s = some s'
  finish t j r s s' := M.finish t j r s = some s'

/-- The machine together with a history variable, which no step reads. -/
def instrument {μ : Type} (record : Label Tid Op Job ε ρ → σ → μ → μ) :
    Machine Tid Op Job ε ρ (σ × μ) Ans where
  body := M.body
  apply t a _ o s := (M.apply t a o s.1).map fun r => (r.1, r.2, record (.op t ⟨o, r.1⟩) s.1 s.2)
  start t j s := (M.start t j s.1).map fun s' => (s', record (.start t j) s.1 s.2)
  finish t j r s := (M.finish t j r s.1).map fun s' => (s', record (.finish t j r) s.1 s.2)

theorem instrument_system {μ : Type} (record : Label Tid Op Job ε ρ → σ → μ → μ) :
    (M.instrument record).system = M.system.instrument record := by
  unfold system System.instrument instrument
  congr 1
  · funext t β o s b s'
    refine propext ⟨?_, ?_⟩
    · rintro ⟨a, h⟩
      obtain ⟨r, hr, h⟩ := Option.map_eq_some_iff.1 h
      cases h
      exact ⟨⟨a, hr⟩, rfl⟩
    · rintro ⟨⟨a, h⟩, hs⟩
      exact ⟨a, Option.map_eq_some_iff.2 ⟨(b, s'.1), h, by rw [← hs]⟩⟩
  · funext t j s s'
    refine propext ⟨?_, ?_⟩
    · intro h
      obtain ⟨r, hr, rfl⟩ := Option.map_eq_some_iff.1 h
      exact ⟨hr, rfl⟩
    · rintro ⟨h, hs⟩
      exact Option.map_eq_some_iff.2 ⟨s'.1, h, by rw [← hs]⟩
  · funext t j r s s'
    refine propext ⟨?_, ?_⟩
    · intro h
      obtain ⟨q, hq, rfl⟩ := Option.map_eq_some_iff.1 h
      exact ⟨hq, rfl⟩
    · rintro ⟨h, hs⟩
      exact Option.map_eq_some_iff.2 ⟨s'.1, h, by rw [← hs]⟩

/-- The machine with the steps that meet a condition only. -/
def guarded (ok : Label Tid Op Job ε ρ → σ → Bool) : Machine Tid Op Job ε ρ σ Ans where
  body := M.body
  apply t a _ o s := (M.apply t a o s).filter fun r => ok (.op t ⟨o, r.1⟩) s
  start t j s := (M.start t j s).filter fun _ => ok (.start t j) s
  finish t j r s := (M.finish t j r s).filter fun _ => ok (.finish t j r) s

theorem guarded_system (ok : Label Tid Op Job ε ρ → σ → Bool) :
    (M.guarded ok).system = M.system.restrict fun l s => ok l s = true := by
  unfold system System.restrict guarded
  congr 1
  · funext t β o s b s'
    simp only [Option.filter_eq_some_iff, exists_and_right]
  · funext t j s s'
    simp only [Option.filter_eq_some_iff]
  · funext t j r s s'
    simp only [Option.filter_eq_some_iff]

/-- One move of a schedule: begin a job, perform up to `n` operations, or end a job. -/
inductive Move (Tid Job : Type) (Ans : Type v) where
  | start (t : Tid) (j : Job)
  | ops (t : Tid) (n : Nat) (a : Ans)
  | finish (t : Tid)

/-- The job a move of a schedule begins. -/
def Move.begins : Move Tid Job Ans → Option (Tid × Job)
  | .start t j => some (t, j)
  | _ => none

variable [DecidableEq Tid]

/-- Up to `n` operations of thread `t`, as long as they are enabled. -/
def ops (t : Tid) (a : Ans) : Nat → Config Tid Op Job ε ρ σ → Config Tid Op Job ε ρ σ
  | 0, c => c
  | n + 1, c =>
    match c.threads t with
    | some (j, .op o k) =>
      match M.apply t a o c.state with
      | some (b, s') => ops t a n (c.set t s' (some (j, k b)))
      | none => c
    | _ => c

def move (c : Config Tid Op Job ε ρ σ) : Move Tid Job Ans → Option (Config Tid Op Job ε ρ σ)
  | .start t j =>
    match c.threads t with
    | none => (M.start t j c.state).map fun s' => c.set t s' (some (j, M.body j))
    | some _ => none
  | .ops t n a => some (M.ops t a n c)
  | .finish t =>
    match c.threads t with
    | some (j, p) =>
      p.outcome?.bind fun r => (M.finish t j r c.state).map fun s' => c.set t s' none
    | none => none

/-- Run a schedule. -/
def exec : List (Move Tid Job Ans) → Config Tid Op Job ε ρ σ → Option (Config Tid Op Job ε ρ σ)
  | [], c => some c
  | m :: ms, c => (M.move c m).bind (exec ms)

variable {M}

theorem ops_run (t : Tid) (a : Ans) (n : Nat) (c : Config Tid Op Job ε ρ σ) :
    ∃ ls, M.system.Run c ls (M.ops t a n c) ∧ ls.filterMap Label.begins = [] := by
  induction n generalizing c with
  | zero => exact ⟨[], .nil c, rfl⟩
  | succ n ih =>
    unfold ops
    split
    · rename_i j β o k hb
      split
      · rename_i b s' ha
        obtain ⟨ls, h, hbegins⟩ := ih (c.set t s' (some (j, k b)))
        have hs : M.system.Step c (.op t ⟨o, b⟩) (c.set t s' (some (j, k b))) :=
          .op hb ⟨a, ha⟩
        exact ⟨_, System.Run.trans (.snoc (.nil c) hs) h, hbegins⟩
      · exact ⟨[], .nil c, rfl⟩
    · exact ⟨[], .nil c, rfl⟩

theorem move_run {c c' : Config Tid Op Job ε ρ σ} {m : Move Tid Job Ans}
    (h : M.move c m = some c') :
    ∃ ls, M.system.Run c ls c' ∧ ls.filterMap Label.begins = m.begins.toList := by
  cases m with
  | start t j =>
    simp only [move] at h
    split at h
    · rename_i idle
      obtain ⟨s', hs, rfl⟩ := Option.map_eq_some_iff.1 h
      exact ⟨_, .snoc (.nil c) (.start (M := M.system) idle hs), rfl⟩
    · cases h
  | ops t n a => cases h; exact ops_run t a n c
  | finish t =>
    simp only [move] at h
    split at h
    · rename_i j p busy
      obtain ⟨r, hr, h⟩ := Option.bind_eq_some_iff.1 h
      obtain ⟨s', hs, rfl⟩ := Option.map_eq_some_iff.1 h
      exact ⟨_, .snoc (.nil c) (.finish (M := M.system) busy hr hs), rfl⟩
    · cases h

/-- What a schedule computes is a run, with the jobs that the schedule begins. -/
theorem exec_begins {ms : List (Move Tid Job Ans)} {c c' : Config Tid Op Job ε ρ σ}
    (h : M.exec ms c = some c') :
    ∃ ls, M.system.Run c ls c' ∧ ls.filterMap Label.begins = ms.filterMap Move.begins := by
  induction ms generalizing c with
  | nil => cases h; exact ⟨[], .nil _, rfl⟩
  | cons m ms ih =>
    obtain ⟨c₁, hm, h⟩ := Option.bind_eq_some_iff.1 h
    obtain ⟨ls, h₁, hbegins⟩ := move_run hm
    obtain ⟨ls', h₂, hbegins'⟩ := ih h
    refine ⟨_, h₁.trans h₂, ?_⟩
    rw [List.filterMap_append, hbegins, hbegins', List.filterMap_cons]
    cases m.begins <;> rfl

/-- What a schedule computes is a run. -/
theorem exec_run {ms : List (Move Tid Job Ans)} {c c' : Config Tid Op Job ε ρ σ}
    (h : M.exec ms c = some c') : ∃ ls, M.system.Run c ls c' :=
  (exec_begins h).imp fun _ => And.left

end Machine

end

end Concurrent
