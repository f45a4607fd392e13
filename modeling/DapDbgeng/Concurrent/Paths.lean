/-
  The paths of composed programs.

  * `Path.of_bind`: a path of a sequence is one of its first part, followed by one of the second
    where the first returns;
  * `Prog.AllOps.of_path`: what holds of the operations of a program holds along its paths;
  * `Steps.outcome_path`: an execution that ends follows a path;
  * `Prog.NeverThrows`: the programs without a path to an exception, one rule for each way to
    compose them.
-/
import DapDbgeng.Concurrent.Wp

universe u w

namespace Concurrent

open Prog

variable {Op : Type → Type w} {ε α β : Type} {σ : Type u} {R : StepRel Op σ}

theorem Path.of_bind {p : Prog Op ε α} {f : α → Prog Op ε β} {es : List (Event Op)}
    {r : Except ε β} (h : Path (p.bind f) es r) :
    (∃ e, Path p es (.error e) ∧ r = .error e) ∨
      ∃ a es₁ es₂, es = es₁ ++ es₂ ∧ Path p es₁ (.ok a) ∧ Path (f a) es₂ r := by
  induction p generalizing es with
  | ret a => exact .inr ⟨a, [], es, rfl, .ret a, h⟩
  | throw e =>
    cases h
    exact .inl ⟨e, .throw e, rfl⟩
  | op o k ih =>
    cases h with
    | @op _ _ _ b es _ h =>
      rcases ih b h with ⟨e, hp, rfl⟩ | ⟨a, es₁, es₂, rfl, hp, hf⟩
      · exact .inl ⟨e, .op hp, rfl⟩
      · exact .inr ⟨a, ⟨o, b⟩ :: es₁, es₂, rfl, .op hp, hf⟩

theorem Prog.AllOps.of_path {P : ∀ {β : Type}, Op β → Prop} {p : Prog Op ε α} (hp : AllOps P p)
    {es : List (Event Op)} {r : Except ε α} (h : Path p es r) : ∀ e ∈ es, P e.op := by
  induction h with
  | ret | throw => simp
  | op _ ih => exact List.forall_mem_cons.2 ⟨hp.1, ih (hp.2 _)⟩

theorem Steps.outcome_path {p : Prog Op ε α} {s s' : σ} {r : Except ε α} {es : List (Event Op)}
    (h : Steps R p s es (.ofExcept r) s') : Path p es r := by
  generalize hq : Prog.ofExcept r = q at h
  induction h with
  | nil =>
    subst hq
    cases r with
    | ok a => exact .ret a
    | error e => exact .throw e
  | cons _ _ ih => exact .op (ih hq)

theorem Path.of_catching {p : Prog Op ε α} {h : ε → Prog Op ε α} {es : List (Event Op)}
    {r : Except ε α} (hp : Path (p.catching h) es r) :
    (∃ a, Path p es (.ok a) ∧ r = .ok a) ∨
      ∃ e es₁ es₂, es = es₁ ++ es₂ ∧ Path p es₁ (.error e) ∧ Path (h e) es₂ r := by
  induction p generalizing es with
  | ret a =>
    cases hp
    exact .inl ⟨a, .ret a, rfl⟩
  | throw e => exact .inr ⟨e, [], es, rfl, .throw e, hp⟩
  | op o k ih =>
    cases hp with
    | @op _ _ _ b es _ hp =>
      rcases ih b hp with ⟨a, ha, rfl⟩ | ⟨e, es₁, es₂, rfl, he, hh⟩
      · exact .inl ⟨a, .op ha, rfl⟩
      · exact .inr ⟨e, ⟨o, b⟩ :: es₁, es₂, rfl, .op he, hh⟩

/-! ## Programs without exceptions -/

namespace Prog

/-- No path ends in an exception. -/
def NeverThrows (p : Prog Op ε α) : Prop := ∀ es e, ¬Path p es (.error e)

namespace NeverThrows

theorem ret (a : α) : (Prog.ret a : Prog Op ε α).NeverThrows := nofun

theorem perform (o : Op α) : (Prog.perform o : Prog Op ε α).NeverThrows := by
  rintro es e (_ | _ | h)
  cases h

theorem bind {p : Prog Op ε α} {f : α → Prog Op ε β} (hp : p.NeverThrows)
    (hf : ∀ a, (f a).NeverThrows) : (p.bind f).NeverThrows := by
  intro es e h
  rcases Path.of_bind h with ⟨e, hthrow, -⟩ | ⟨a, es₁, es₂, -, -, hthrow⟩
  · exact hp es e hthrow
  · exact hf a es₂ e hthrow

theorem catching (p : Prog Op ε α) {h : ε → Prog Op ε α} (hh : ∀ e, (h e).NeverThrows) :
    (p.catching h).NeverThrows := by
  intro es e hthrow
  rcases Path.of_catching hthrow with ⟨a, -, heq⟩ | ⟨e', es₁, es₂, -, -, hthrow⟩
  · cases heq
  · exact hh e' es₂ e hthrow

theorem ite {c : Prop} [Decidable c] {p q : Prog Op ε α} (hp : p.NeverThrows)
    (hq : q.NeverThrows) : (if c then p else q).NeverThrows := by
  split
  · exact hp
  · exact hq

end NeverThrows

theorem throw_not_neverThrows (e : ε) : ¬(Prog.throw e : Prog Op ε α).NeverThrows :=
  fun h => h [] e (.throw e)

/-- What is asked of the exceptions of a program without any does not matter. -/
theorem NeverThrows.wp {S : Spec Op σ} {p : Prog Op ε α} (h : p.NeverThrows) {Q : α → σ → Prop}
    {E E' : ε → σ → Prop} {s : σ} (hp : p.wp S Q E s) : p.wp S Q E' s := by
  induction p generalizing s with
  | ret a => exact hp
  | throw e => exact absurd h (throw_not_neverThrows e)
  | op o k ih =>
    exact S.mono o (fun b _ hb => ih b (fun es e hthrow => h _ e (.op hthrow)) hb) hp

end Prog

end Concurrent
