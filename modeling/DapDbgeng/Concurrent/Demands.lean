/-
  Demands on the operations of threads.

  An outline says what the steps of a thread keep.  Demands say besides what has to hold where a
  thread is about to perform an operation, whether the operation is enabled or not, and what holds
  of a thread without a job.  Main results:

  * `Demands.sound`: along every run, the idle threads are at rest and the busy ones are safe;
  * `Demands.need_of_run`: every operation a thread comes to meets its demand;
  * `Demands.post_of_run`: every job that has come to its end is where it should be;
  * `Demands.restrict_run`: what is known where a step is taken may be assumed by another outline.
-/
import DapDbgeng.Concurrent.Threads

namespace Concurrent

universe u w

/-- An outline with a demand on each operation and an assertion for the threads without a job. -/
structure Demands (Tid : Type) (Op : Type → Type w) (Job ε ρ : Type) (σ : Type u) extends
    Outline Tid Job ε ρ σ where
  need : Tid → Job → ∀ {β : Type}, Op β → σ → Prop
  rest : Tid → σ → Prop
  rest_rely : ∀ {t s s'}, rest t s → rely t s s' → Inv s' → rest t s'

namespace Demands

variable {Tid : Type} {Op : Type → Type w} {Job ε ρ : Type} {σ : Type u}
  (M : System Tid Op Job ε ρ σ) (D : Demands Tid Op Job ε ρ σ)

/-- An operation of `t` in the job `j` between the steps of the others, its demand met. -/
def spec (t : Tid) (j : Job) : Spec Op σ where
  pre o K s := (D.Inv s → D.need t j o s) ∧ (D.toOutline.spec M t).pre o K s
  mono o _ _ hK _ h := ⟨h.1, (D.toOutline.spec M t).mono o hK h.2⟩

/-- What is left of a job of `t`, from the state `s` on. -/
def Safe (t : Tid) (j : Job) (p : Prog Op ε ρ) : σ → Prop :=
  D.Stable t (p.wp (D.spec M t j) (fun a => D.post t j (.ok a)) fun e => D.post t j (.error e))

structure Valid (s₀ : σ) : Prop where
  init : D.Inv s₀
  rest : ∀ t, D.rest t s₀
  start : ∀ {t j s s'}, D.Inv s → D.rest t s → M.start t j s s' →
    D.Keeps t s s' ∧ D.Safe M t j (M.body j) s'
  finish : ∀ {t j r s s'}, D.Inv s → D.post t j r s → M.finish t j r s s' →
    D.Keeps t s s' ∧ D.rest t s'

variable {M D}

theorem wp_outcome {t : Tid} {j : Job} {p : Prog Op ε ρ} {r : Except ε ρ} {s : σ}
    (hr : p.outcome? = some r)
    (h : p.wp (D.spec M t j) (fun a => D.post t j (.ok a)) (fun e => D.post t j (.error e)) s) :
    D.post t j r s := by
  cases p with
  | ret a => cases hr; exact h
  | throw e => cases hr; exact h
  | op o k => cases hr

/-- One operation, from a local assertion to the next. -/
theorem pre_of {t : Tid} {j : Job} {β : Type} {o : Op β} {K : β → σ → Prop} {s : σ}
    (hneed : D.Inv s → D.need t j o s)
    (hop : ∀ b s', D.Inv s → M.sem t β o s b s' → D.Keeps t s s' ∧ K b s')
    (hstable : ∀ b {s s'}, K b s → D.rely t s s' → D.Inv s' → K b s') :
    (D.spec M t j).pre o K s := by
  refine ⟨hneed, fun b s' hi h => ?_⟩
  obtain ⟨hk, hK⟩ := hop b s' hi h
  exact ⟨hk, fun _ hr hi' => hstable b hK hr hi'⟩

/-- The frame rule: an assertion that the operations of a program and the other threads leave alone
holds in the end. -/
theorem wp_frame {t : Tid} {j : Job} {α : Type} {p : Prog Op ε α} {C : ∀ {β : Type}, Op β → Prop}
    {L : σ → Prop} (hp : p.AllOps C) (hstable : ∀ {s s'}, L s → D.rely t s s' → L s')
    (hop : ∀ {β : Type} (o : Op β) {b : β} {s s' : σ}, C o → L s → M.sem t β o s b s' → L s')
    {Q : α → σ → Prop} {E : ε → σ → Prop} {s : σ} (hs : L s) (h : p.wp (D.spec M t j) Q E s) :
    p.wp (D.spec M t j) (fun a s => Q a s ∧ L s) (fun e s => E e s ∧ L s) s := by
  induction p generalizing s with
  | ret a => exact ⟨h, hs⟩
  | throw e => exact ⟨h, hs⟩
  | op o k ih =>
    obtain ⟨hneed, hpost⟩ := h
    refine ⟨hneed, fun b s' hi hsem => ?_⟩
    obtain ⟨hk, hwp⟩ := hpost b s' hi hsem
    exact ⟨hk, fun s'' hr hi' =>
      ih b (hp.2 b) (hstable (hop o hp.1 hs hsem) hr) (hwp s'' hr hi')⟩

variable [DecidableEq Tid]

/-- What holds throughout a run. -/
structure Holds (M : System Tid Op Job ε ρ σ) (D : Demands Tid Op Job ε ρ σ)
    (c : Config Tid Op Job ε ρ σ) : Prop where
  inv : D.Inv c.state
  rest : ∀ t, c.threads t = none → D.rest t c.state
  safe : ∀ t j p, c.threads t = some (j, p) → D.Safe M t j p c.state

/-- After a step of `t`, the other threads are as they were. -/
theorem Holds.set {c : Config Tid Op Job ε ρ σ} (h : Holds M D c) {t : Tid} {s' : σ}
    {th : Option (Job × Prog Op ε ρ)} (hk : D.Keeps t c.state s') (hrest : th = none → D.rest t s')
    (hsafe : ∀ j p, th = some (j, p) → D.Safe M t j p s') : Holds M D (c.set t s' th) where
  inv := hk.1
  rest u hu := by
    by_cases htu : u = t
    · subst htu; rw [Config.set_threads_self] at hu; exact hrest hu
    · rw [Config.set_threads_of_ne _ htu] at hu
      exact D.rest_rely (h.rest u hu) (hk.2 u htu) hk.1
  safe u j p hu := by
    by_cases htu : u = t
    · subst htu; rw [Config.set_threads_self] at hu; exact hsafe j p hu
    · rw [Config.set_threads_of_ne _ htu] at hu
      exact (h.safe u j p hu).rely (hk.2 u htu)

theorem Holds.step {s₀ : σ} (hv : D.Valid M s₀) {c c' : Config Tid Op Job ε ρ σ}
    {l : Label Tid Op Job ε ρ} (h : Holds M D c) (hs : M.Step c l c') : Holds M D c' := by
  cases hs with
  | start idle hstart =>
    obtain ⟨hk, hw⟩ := hv.start h.inv (h.rest _ idle) hstart
    exact h.set hk (fun hn => by cases hn) fun j p hjp => by cases hjp; exact hw
  | @op t j s' β o k b busy hop =>
    obtain ⟨hk, hw⟩ := (h.safe t j _ busy c.state (D.rely_refl t _) h.inv).2 b s' h.inv hop
    exact h.set hk (fun hn => by cases hn) fun j p hjp => by cases hjp; exact hw
  | finish busy hr hfin =>
    have hpost := wp_outcome hr (h.safe _ _ _ busy _ (D.rely_refl _ _) h.inv)
    obtain ⟨hk, hrest⟩ := hv.finish h.inv hpost hfin
    exact h.set hk (fun _ => hrest) fun j p hjp => by cases hjp

/-- **Soundness**: along every run, the idle threads are at rest and the busy ones are safe. -/
theorem sound {s₀ : σ} (hv : D.Valid M s₀) {ls : List (Label Tid Op Job ε ρ)}
    {c : Config Tid Op Job ε ρ σ} (hr : M.Run (.init s₀) ls c) : Holds M D c := by
  induction hr with
  | nil => exact ⟨hv.init, fun t _ => hv.rest t, fun t j p h => by cases h⟩
  | snoc _ hs ih => exact ih.step hv hs

section

variable {s₀ : σ} (hv : D.Valid M s₀) {ls : List (Label Tid Op Job ε ρ)}
  {c : Config Tid Op Job ε ρ σ} (hr : M.Run (.init s₀) ls c)
include hv hr

theorem need_of_run {t : Tid} {j : Job} {β : Type} {o : Op β} {k : β → Prog Op ε ρ}
    (busy : c.threads t = some (j, .op o k)) : D.need t j o c.state :=
  have h := sound hv hr
  (h.safe t j _ busy c.state (D.rely_refl t _) h.inv).1 h.inv

theorem post_of_run {t : Tid} {j : Job} {p : Prog Op ε ρ} {r : Except ε ρ}
    (busy : c.threads t = some (j, p)) (hp : p.outcome? = some r) : D.post t j r c.state :=
  have h := sound hv hr
  wp_outcome hp (h.safe t j _ busy c.state (D.rely_refl t _) h.inv)

end

/-- What is known where a step is taken. -/
def meets (D : Demands Tid Op Job ε ρ σ) : Label Tid Op Job ε ρ → σ → Prop
  | .start t _, s => D.Inv s ∧ D.rest t s
  | .op t e, s => D.Inv s ∧ ∃ j, D.need t j e.op s
  | .finish t j r, s => D.Inv s ∧ D.post t j r s

theorem restrict_run {s₀ : σ} (hv : D.Valid M s₀) {ls : List (Label Tid Op Job ε ρ)}
    {c : Config Tid Op Job ε ρ σ} (hr : M.Run (.init s₀) ls c) :
    (M.restrict D.meets).Run (.init s₀) ls c := by
  refine System.restrict_run (fun {_ c _ _} hr hs => ?_) hr
  have h := sound hv hr
  cases hs with
  | start idle => exact ⟨h.inv, h.rest _ idle⟩
  | op busy => exact ⟨h.inv, _, need_of_run hv hr busy⟩
  | finish busy hout => exact ⟨h.inv, post_of_run hv hr busy hout⟩

end Demands

end Concurrent
