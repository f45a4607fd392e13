/-
  Programs as trees of operations.

  A program either stops (with a value or an exception) or performs one operation and goes on
  with its result.  What an operation does is not part of the program: it is fixed by whoever
  runs it.  Main results:

  * `LawfulMonad (Prog Op ε)`;
-/
import Mathlib.Logic.Basic
import Mathlib.Data.List.Basic

namespace Concurrent

universe w

/-- Programs over the operations `Op`, with exceptions in `ε` and results in `α`. -/
inductive Prog (Op : Type → Type w) (ε α : Type) : Type (max 1 w) where
  | ret (a : α)
  | throw (e : ε)
  | op {β : Type} (o : Op β) (k : β → Prog Op ε α)

namespace Prog

variable {Op : Type → Type w} {ε α β γ : Type}

def bind : Prog Op ε α → (α → Prog Op ε β) → Prog Op ε β
  | .ret a, f => f a
  | .throw e, _ => .throw e
  | .op o k, f => .op o fun b => (k b).bind f

/-- Run `p`; where it throws, go on with the handler. -/
def catching : Prog Op ε α → (ε → Prog Op ε α) → Prog Op ε α
  | .ret a, _ => .ret a
  | .throw e, h => h e
  | .op o k, h => .op o fun b => (k b).catching h

/-- Perform one operation and return its result. -/
def perform (o : Op α) : Prog Op ε α := .op o .ret

/-- Run `p` and return its outcome, value or exception. -/
def attempt : Prog Op ε α → Prog Op ε (Except ε α)
  | .ret a => .ret (.ok a)
  | .throw e => .ret (.error e)
  | .op o k => .op o fun b => (k b).attempt

/-- An outcome as the end of a program. -/
def ofExcept : Except ε α → Prog Op ε α
  | .ok a => .ret a
  | .error e => .throw e

instance : Monad (Prog Op ε) where
  pure := .ret
  bind := Prog.bind

instance : MonadExceptOf ε (Prog Op ε) where
  throw := .throw
  tryCatch := Prog.catching

/-- Visit the elements of a list in order. -/
def forEach (f : α → Prog Op ε Unit) : List α → Prog Op ε Unit
  | [] => .ret ()
  | x :: xs => (f x).bind fun _ => forEach f xs

/-- Visit the elements of a list in order and collect the results. -/
def mapEach (f : α → Prog Op ε β) : List α → Prog Op ε (List β)
  | [] => .ret []
  | x :: xs => (f x).bind fun y => (mapEach f xs).bind fun ys => .ret (y :: ys)

section Laws

@[simp] theorem pure_eq (a : α) : (pure a : Prog Op ε α) = .ret a := rfl
@[simp] theorem bind_eq (p : Prog Op ε α) (f : α → Prog Op ε β) : p >>= f = p.bind f := rfl
@[simp] theorem map_eq (f : α → β) (p : Prog Op ε α) :
    f <$> p = p.bind fun a => .ret (f a) := rfl
@[simp] theorem throw_eq (e : ε) : (MonadExcept.throw e : Prog Op ε α) = .throw e := rfl
@[simp] theorem throwThe_eq (e : ε) : (throwThe ε e : Prog Op ε α) = .throw e := rfl
@[simp] theorem tryCatch_eq (p : Prog Op ε α) (h : ε → Prog Op ε α) :
    MonadExcept.tryCatch p h = p.catching h := rfl

@[simp] theorem ret_bind (a : α) (f : α → Prog Op ε β) : (Prog.ret a).bind f = f a := rfl
@[simp] theorem throw_bind (e : ε) (f : α → Prog Op ε β) :
    (Prog.throw e : Prog Op ε α).bind f = .throw e := rfl
@[simp] theorem op_bind {δ : Type} (o : Op δ) (k : δ → Prog Op ε α) (f : α → Prog Op ε β) :
    (Prog.op o k).bind f = .op o fun b => (k b).bind f := rfl

theorem bind_ret (p : Prog Op ε α) : p.bind .ret = p := by
  induction p with
  | ret a => rfl
  | throw e => rfl
  | op o k ih => simp only [op_bind, ih]

theorem bind_assoc (p : Prog Op ε α) (f : α → Prog Op ε β) (g : β → Prog Op ε γ) :
    (p.bind f).bind g = p.bind fun a => (f a).bind g := by
  induction p with
  | ret a => rfl
  | throw e => rfl
  | op o k ih => simp only [op_bind, ih]

instance : LawfulMonad (Prog Op ε) :=
  LawfulMonad.mk' _ bind_ret (fun _ _ => rfl) bind_assoc

end Laws

/-! ## The operations a program can perform -/

/-- Every operation `p` can perform, on any path, satisfies `P`. -/
def AllOps (P : ∀ {β : Type}, Op β → Prop) : Prog Op ε α → Prop
  | .ret _ => True
  | .throw _ => True
  | .op o k => P o ∧ ∀ b, AllOps P (k b)

namespace AllOps

variable {P P' : ∀ {β : Type}, Op β → Prop}

theorem mono (h : ∀ {β : Type} (o : Op β), P o → P' o) {p : Prog Op ε α} (hp : AllOps P p) :
    AllOps P' p := by
  induction p with
  | ret a => trivial
  | throw e => trivial
  | op o k ih => exact ⟨h o hp.1, fun b => ih b (hp.2 b)⟩

theorem of_forall (h : ∀ {β : Type} (o : Op β), P o) (p : Prog Op ε α) : AllOps P p := by
  induction p with
  | ret a => trivial
  | throw e => trivial
  | op o k ih => exact ⟨h o, ih⟩

theorem and {p : Prog Op ε α} (hp : AllOps P p) (hp' : AllOps P' p) :
    AllOps (fun o => P o ∧ P' o) p := by
  induction p with
  | ret a => trivial
  | throw e => trivial
  | op o k ih => exact ⟨⟨hp.1, hp'.1⟩, fun b => ih b (hp.2 b) (hp'.2 b)⟩

theorem bind {p : Prog Op ε α} {f : α → Prog Op ε β} (hp : AllOps P p)
    (hf : ∀ a, AllOps P (f a)) : AllOps P (p.bind f) := by
  induction p with
  | ret a => exact hf a
  | throw e => trivial
  | op o k ih => exact ⟨hp.1, fun b => ih b (hp.2 b)⟩

theorem catching {p : Prog Op ε α} {h : ε → Prog Op ε α} (hp : AllOps P p)
    (hh : ∀ e, AllOps P (h e)) : AllOps P (p.catching h) := by
  induction p with
  | ret a => trivial
  | throw e => exact hh e
  | op o k ih => exact ⟨hp.1, fun b => ih b (hp.2 b)⟩

theorem attempt {p : Prog Op ε α} (hp : AllOps P p) : AllOps P p.attempt := by
  induction p with
  | ret a => trivial
  | throw e => trivial
  | op o k ih => exact ⟨hp.1, fun b => ih b (hp.2 b)⟩

theorem perform {o : Op α} (h : P o) : AllOps P (Prog.perform o : Prog Op ε α) :=
  ⟨h, fun _ => trivial⟩

theorem ofExcept (r : Except ε α) : AllOps P (Prog.ofExcept r : Prog Op ε α) := by
  cases r <;> trivial

theorem ite {c : Prop} [Decidable c] {p q : Prog Op ε α} (hp : AllOps P p) (hq : AllOps P q) :
    AllOps P (if c then p else q) := by
  split
  · exact hp
  · exact hq

theorem forEach {f : α → Prog Op ε Unit} (hf : ∀ a, AllOps P (f a)) (xs : List α) :
    AllOps P (Prog.forEach f xs) := by
  induction xs with
  | nil => trivial
  | cons x xs ih => exact bind (hf x) fun _ => ih

theorem mapEach {f : α → Prog Op ε β} (hf : ∀ a, AllOps P (f a)) (xs : List α) :
    AllOps P (Prog.mapEach f xs) := by
  induction xs with
  | nil => trivial
  | cons x xs ih => exact bind (hf x) fun _ => bind ih fun _ => trivial

end AllOps

end Prog

end Concurrent
