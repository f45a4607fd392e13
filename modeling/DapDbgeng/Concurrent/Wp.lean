/-
  Weakest preconditions of programs.

  A `Spec` says, for each operation, from which states it establishes a condition on its result
  and the state after it; `Prog.wp` extends this to programs by recursion on the tree, with one
  postcondition for values and one for exceptions.  Main results:

  * `wp_bind`, `wp_catching`, `wp_attempt`: the equations of the composite programs;
  * `wp_of_allOps`: what every operation of a program preserves, the program preserves;
  * `wp_path`: for a `Spec` given by a step relation, `wp` speaks about the paths of the program;
  * `Steps`: programs and states, several steps; `Steps.bind`, `Steps.bindLeft`;
  * `wp_view`: a specification on views of the state is sound for the steps it describes;
  * `Returns`, `Ends`, `Reaches`: some steps lead to a value, to a result, or to an operation of a
    given kind, with their rules; `Prog.eval` computes a result.
-/
import DapDbgeng.Concurrent.Prog

namespace Concurrent

universe u w

/-- The predicate transformers of the operations, on the states `σ`. -/
structure Spec (Op : Type → Type w) (σ : Type u) where
  pre : ∀ {β : Type}, Op β → (β → σ → Prop) → σ → Prop
  mono : ∀ {β : Type} (o : Op β) {K K' : β → σ → Prop}, (∀ b s, K b s → K' b s) →
    ∀ {s}, pre o K s → pre o K' s

namespace Prog

variable {Op : Type → Type w} {ε α β : Type} {σ : Type u} (S : Spec Op σ)

/-- From which states `p` ends in `Q` (with a value) or in `E` (with an exception). -/
def wp : Prog Op ε α → (α → σ → Prop) → (ε → σ → Prop) → σ → Prop
  | .ret a, Q, _ => Q a
  | .throw e, _, E => E e
  | .op o k, Q, E => S.pre o fun b => wp (k b) Q E

variable {S} {Q Q' : α → σ → Prop} {E E' : ε → σ → Prop}

@[simp] theorem wp_ret (a : α) : wp S (.ret a : Prog Op ε α) Q E = Q a := rfl
@[simp] theorem wp_throw (e : ε) : wp S (.throw e : Prog Op ε α) Q E = E e := rfl
@[simp] theorem wp_op (o : Op β) (k : β → Prog Op ε α) :
    wp S (.op o k) Q E = S.pre o fun b => wp S (k b) Q E := rfl
@[simp] theorem wp_perform (o : Op α) : wp S (perform o : Prog Op ε α) Q E = S.pre o Q := rfl

@[simp] theorem wp_bind (p : Prog Op ε β) (f : β → Prog Op ε α) :
    wp S (p.bind f) Q E = wp S p (fun b => wp S (f b) Q E) E := by
  induction p with
  | ret a => rfl
  | throw e => rfl
  | op o k ih => simp only [op_bind, wp_op, ih]

@[simp] theorem wp_catching (p : Prog Op ε α) (h : ε → Prog Op ε α) :
    wp S (p.catching h) Q E = wp S p Q fun e => wp S (h e) Q E := by
  induction p with
  | ret a => rfl
  | throw e => rfl
  | op o k ih => simp only [catching, wp_op, ih]

@[simp] theorem wp_attempt (p : Prog Op ε β) {Q : Except ε β → σ → Prop} :
    wp S p.attempt Q E = wp S p (fun b => Q (.ok b)) fun e => Q (.error e) := by
  induction p with
  | ret a => rfl
  | throw e => rfl
  | op o k ih => simp only [attempt, wp_op, ih]

theorem wp_mono (hQ : ∀ a s, Q a s → Q' a s) (hE : ∀ e s, E e s → E' e s) {p : Prog Op ε α}
    {s : σ} (h : wp S p Q E s) : wp S p Q' E' s := by
  induction p generalizing s with
  | ret a => exact hQ a s h
  | throw e => exact hE e s h
  | op o k ih => exact S.mono o (fun b _ hb => ih b hb) h

theorem wp_mono_val (hQ : ∀ a s, Q a s → Q' a s) {p : Prog Op ε α} {s : σ}
    (h : wp S p Q E s) : wp S p Q' E s :=
  wp_mono hQ (fun _ _ he => he) h

/-! ## Invariants -/

/-- What every operation of a program preserves, the program preserves. -/
theorem wp_of_allOps {P : ∀ {β : Type}, Op β → Prop} {I : σ → Prop}
    (h : ∀ {β : Type} (o : Op β), P o → ∀ s, I s → S.pre o (fun _ => I) s)
    {p : Prog Op ε α} (hp : AllOps P p) {s : σ} (hs : I s) :
    wp S p (fun _ => I) (fun _ => I) s := by
  induction p generalizing s with
  | ret a => exact hs
  | throw e => exact hs
  | op o k ih => exact S.mono o (fun b _ hb => ih b (hp.2 b) hb) (h o hp.1 s hs)

theorem wp_forEach {γ : Type} {f : γ → Prog Op ε Unit} {I : σ → Prop} {E : ε → σ → Prop}
    {xs : List γ} (hf : ∀ x ∈ xs, ∀ s, I s → wp S (f x) (fun _ => I) E s) {s : σ} (hs : I s) :
    wp S (forEach f xs) (fun _ => I) E s := by
  induction xs generalizing s with
  | nil => exact hs
  | cons x xs ih =>
    simp only [forEach, wp_bind]
    refine wp_mono_val (fun _ s' hs' => ?_) (hf x (by simp) s hs)
    exact ih (fun y hy => hf y (by simp [hy])) hs'

theorem wp_mapEach {γ : Type} {f : γ → Prog Op ε β} {I : σ → Prop} {E : ε → σ → Prop}
    {xs : List γ} (hf : ∀ x ∈ xs, ∀ s, I s → wp S (f x) (fun _ => I) E s) {s : σ} (hs : I s) :
    wp S (mapEach f xs) (fun _ => I) E s := by
  induction xs generalizing s with
  | nil => exact hs
  | cons x xs ih =>
    simp only [mapEach, wp_bind]
    refine wp_mono_val (fun _ s' hs' => ?_) (hf x (by simp) s hs)
    exact ih (fun y hy => hf y (by simp [hy])) hs'

end Prog

/-! ## Paths -/

/-- An operation together with the result it gave. -/
structure Event (Op : Type → Type w) : Type (max 1 w) where
  {res : Type}
  op : Op res
  result : res

/-- `p` may perform the events `es` and end with `r`. -/
inductive Path {Op : Type → Type w} {ε α : Type} :
    Prog Op ε α → List (Event Op) → Except ε α → Prop where
  | ret (a : α) : Path (.ret a) [] (.ok a)
  | throw (e : ε) : Path (.throw e) [] (.error e)
  | op {β : Type} {o : Op β} {k : β → Prog Op ε α} {b : β} {es : List (Event Op)}
      {r : Except ε α} (h : Path (k b) es r) : Path (.op o k) (⟨o, b⟩ :: es) r

/-- What the operations do to a state. -/
abbrev StepRel (Op : Type → Type w) (σ : Type u) := ∀ β : Type, Op β → σ → β → σ → Prop

/-- The events `es`, one after the other, lead from one state to another. -/
inductive Runs {Op : Type → Type w} {σ : Type u} (R : StepRel Op σ) :
    List (Event Op) → σ → σ → Prop where
  | nil (s : σ) : Runs R [] s s
  | cons {β : Type} {o : Op β} {b : β} {es : List (Event Op)} {s s₁ s₂ : σ}
      (h : R β o s b s₁) (hs : Runs R es s₁ s₂) : Runs R (⟨o, b⟩ :: es) s s₂

/-- The specification of a step relation: whatever the operation does. -/
def Spec.ofRel {Op : Type → Type w} {σ : Type u} (R : StepRel Op σ) : Spec Op σ where
  pre o K s := ∀ b s', R _ o s b s' → K b s'
  mono _ _ _ hK _ h b s' hR := hK b s' (h b s' hR)

section Paths

variable {Op : Type → Type w} {ε α : Type} {σ : Type u} {R : StepRel Op σ}

/-- The two postconditions as one, on the outcome. -/
def outcome (Q : α → σ → Prop) (E : ε → σ → Prop) : Except ε α → σ → Prop
  | .ok a => Q a
  | .error e => E e

theorem wp_path {p : Prog Op ε α} {es : List (Event Op)} {r : Except ε α} (h : Path p es r) :
    ∀ {Q : α → σ → Prop} {E : ε → σ → Prop} {s s' : σ}, p.wp (.ofRel R) Q E s →
      Runs R es s s' → outcome Q E r s' := by
  induction h with
  | ret a => rintro Q E s s' hw ⟨⟩; exact hw
  | throw e => rintro Q E s s' hw ⟨⟩; exact hw
  | op _ ih =>
    rintro Q E s s' hw (_ | ⟨hR, hs⟩)
    exact ih (hw _ _ hR) hs

/-! ## Several steps -/

/-- From `s`, `p` performs the events `es` and is then `q`, in state `s'`. -/
inductive Steps (R : StepRel Op σ) :
    Prog Op ε α → σ → List (Event Op) → Prog Op ε α → σ → Prop where
  | nil (p : Prog Op ε α) (s : σ) : Steps R p s [] p s
  | cons {β : Type} {o : Op β} {k : β → Prog Op ε α} {b : β} {es : List (Event Op)}
      {q : Prog Op ε α} {s s₁ s' : σ} (h : R β o s b s₁) (hs : Steps R (k b) s₁ es q s') :
      Steps R (.op o k) s (⟨o, b⟩ :: es) q s'

namespace Steps

variable {α' : Type} {p q : Prog Op ε α} {s s₁ s' : σ} {es es' : List (Event Op)}

theorem trans {q' : Prog Op ε α} (h : Steps R p s es q s₁) (h' : Steps R q s₁ es' q' s') :
    Steps R p s (es ++ es') q' s' := by
  induction h with
  | nil => exact h'
  | cons hR _ ih => exact .cons hR (ih h')

/-- The first part of a sequence steps. -/
theorem bindLeft {f : α → Prog Op ε α'} (h : Steps R p s es q s') :
    Steps R (p.bind f) s es (q.bind f) s' := by
  induction h with
  | nil => exact .nil _ _
  | cons hR _ ih => exact .cons hR ih

/-- The first part of a sequence returns and the second steps. -/
theorem bind {a : α} {f : α → Prog Op ε α'} {q' : Prog Op ε α'} (h : Steps R p s es (.ret a) s₁)
    (h' : Steps R (f a) s₁ es' q' s') : Steps R (p.bind f) s (es ++ es') q' s' :=
  (bindLeft h).trans h'

theorem catching {f : ε → Prog Op ε α} (h : Steps R p s es q s') :
    Steps R (p.catching f) s es (q.catching f) s' := by
  induction h with
  | nil => exact .nil _ _
  | cons hR _ ih => exact .cons hR ih

theorem attempt (h : Steps R p s es q s') : Steps R p.attempt s es q.attempt s' := by
  induction h with
  | nil => exact .nil _ _
  | cons hR _ ih => exact .cons hR ih

end Steps

/-- **Views.**  Where every step of `R` does to a view of the state what a specification on views
says, `wp` on views speaks about the steps of a program. -/
theorem wp_view {τ : Type*} {S : Spec Op τ} {view : τ → σ → Prop}
    (hstep : ∀ {β : Type} (o : Op β) {K : β → τ → Prop} {v : τ} {s s' : σ} {b : β},
      view v s → S.pre o K v → R β o s b s' → ∃ v', view v' s' ∧ K b v')
    {p q : Prog Op ε α} {s s' : σ} {es : List (Event Op)} (h : Steps R p s es q s') {v : τ}
    (hv : view v s) {Q : α → τ → Prop} {E : ε → τ → Prop} (hw : p.wp S Q E v) :
    ∃ v', view v' s' ∧ q.wp S Q E v' := by
  induction h generalizing v with
  | nil => exact ⟨v, hv, hw⟩
  | cons hR _ ih =>
    obtain ⟨v₁, hv₁, hw₁⟩ := hstep _ hv hw hR
    exact ih hv₁ hw₁

/-- **Abstraction.**  Where a specification on views allows no operation that `T` does not, and the
states it leads to have a view again, `wp` on views gives `wp` on states. -/
theorem wp_of_view {τ : Type*} {S : Spec Op τ} {T : Spec Op σ} {view : τ → σ → Prop}
    (hpre : ∀ {β : Type} (o : Op β) {K : β → τ → Prop} {v : τ} {s : σ}, view v s → S.pre o K v →
      T.pre o (fun b s' => ∃ v', view v' s' ∧ K b v') s)
    {p : Prog Op ε α} {Q : α → τ → Prop} {E : ε → τ → Prop} {v : τ} {s : σ} (hv : view v s)
    (hw : p.wp S Q E v) : p.wp T (fun a s' => ∃ v', view v' s' ∧ Q a v')
      (fun e s' => ∃ v', view v' s' ∧ E e v') s := by
  induction p generalizing v s with
  | ret a => exact ⟨v, hv, hw⟩
  | throw e => exact ⟨v, hv, hw⟩
  | op o k ih =>
    exact T.mono o (fun b s' ⟨v', hv', hw'⟩ => ih b hv' hw') (hpre o hv hw)

/-- The steps of `R` together with a history variable. -/
def StepRel.recording {μ : Type*} (R : StepRel Op σ) (record : Event Op → μ → μ) :
    StepRel Op (σ × μ) :=
  fun _ o s b s' => R _ o s.1 b s'.1 ∧ s'.2 = record ⟨o, b⟩ s.2

theorem Steps.recording {μ : Type*} {record : Event Op → μ → μ} {p q : Prog Op ε α} {s s' : σ}
    {es : List (Event Op)} (h : Steps R p s es q s') (m : μ) :
    Steps (R.recording record) p (s, m) es q (s', es.foldl (fun m e => record e m) m) := by
  induction h generalizing m with
  | nil => exact .nil _ _
  | @cons β o k b es q s s₁ s' hR _ ih =>
    have hrec := ih (record ⟨o, b⟩ m)
    exact .cons ⟨hR, rfl⟩ hrec

/-- A recorded execution, and what was recorded of it. -/
theorem Steps.of_recording {μ : Type*} {record : Event Op → μ → μ} {p q : Prog Op ε α}
    {s s' : σ × μ} {es : List (Event Op)} (h : Steps (R.recording record) p s es q s') :
    Steps R p s.1 es q s'.1 ∧ s'.2 = es.foldl (fun m e => record e m) s.2 := by
  induction h with
  | nil => exact ⟨.nil _ _, rfl⟩
  | cons hR _ ih =>
    refine ⟨.cons hR.1 ih.1, ?_⟩
    rw [ih.2, hR.2]
    rfl

/-- An execution follows a path. -/
theorem Steps.path {p : Prog Op ε α} {s s' : σ} {a : α} {es : List (Event Op)}
    (h : Steps R p s es (.ret a) s') : Path p es (.ok a) := by
  generalize hq : Prog.ret a = q at h
  induction h with
  | nil => exact hq ▸ .ret a
  | cons _ _ ih => exact .op (ih hq)

/-- `p` may return `a`. -/
def Returns (R : StepRel Op σ) (p : Prog Op ε α) (s : σ) (a : α) (s' : σ) : Prop :=
  ∃ es, Steps R p s es (.ret a) s'

namespace Returns

variable {α' : Type} {s s₁ s' : σ}

theorem ret (a : α) : Returns R (.ret a : Prog Op ε α) s a s := ⟨[], .nil _ _⟩

theorem op {β : Type} {o : Op β} {b : β} {k : β → Prog Op ε α} {a : α} (h : R β o s b s₁)
    (hk : Returns R (k b) s₁ a s') : Returns R (.op o k) s a s' := by
  obtain ⟨es, hs⟩ := hk
  exact ⟨_, .cons h hs⟩

theorem perform {o : Op α} {a : α} (h : R α o s a s') :
    Returns R (Prog.perform o : Prog Op ε α) s a s' := .op h (.ret a)

theorem bind {p : Prog Op ε α} {f : α → Prog Op ε α'} {a : α} {a' : α'}
    (h : Returns R p s a s₁) (hf : Returns R (f a) s₁ a' s') : Returns R (p.bind f) s a' s' := by
  obtain ⟨es, hs⟩ := h
  obtain ⟨es', hs'⟩ := hf
  exact ⟨_, hs.bind hs'⟩

theorem catching {p : Prog Op ε α} {f : ε → Prog Op ε α} {a : α} (h : Returns R p s a s') :
    Returns R (p.catching f) s a s' := by
  obtain ⟨es, hs⟩ := h
  exact ⟨es, hs.catching⟩

theorem attempt {p : Prog Op ε α} {a : α} (h : Returns R p s a s') :
    Returns R p.attempt s (.ok a) s' := by
  obtain ⟨es, hs⟩ := h
  exact ⟨es, hs.attempt⟩

end Returns

/-- Some outcome of each operation is as wanted. -/
def Spec.angelic (R : StepRel Op σ) : Spec Op σ where
  pre o K s := ∃ b s', R _ o s b s' ∧ K b s'
  mono := by
    rintro β o K K' hK s ⟨b, s', hR, h⟩
    exact ⟨b, s', hR, hK b s' h⟩

theorem wp_angelic {p : Prog Op ε α} {Q : α → σ → Prop} {s : σ}
    (h : p.wp (.angelic R) Q (fun _ _ => False) s) : ∃ a s', Returns R p s a s' ∧ Q a s' := by
  induction p generalizing s with
  | ret a => exact ⟨a, s, .ret a, h⟩
  | throw e => exact h.elim
  | op o k ih =>
    obtain ⟨b, s₁, hR, hk⟩ := h
    obtain ⟨a, s', hret, hQ⟩ := ih b hk
    exact ⟨a, s', .op hR hret, hQ⟩

/-- Run a program with computed steps, for at most `n` of them. -/
def Prog.eval (f : ∀ {β : Type}, Op β → σ → Option (β × σ)) :
    ℕ → Prog Op ε α → σ → Option (Except ε α × σ)
  | _, .ret a, s => some (.ok a, s)
  | _, .throw e, s => some (.error e, s)
  | 0, .op _ _, _ => none
  | n + 1, .op o k, s => (f o s).bind fun r => eval f n (k r.1) r.2

/-- `p` may end with `r`. -/
def Ends (R : StepRel Op σ) (p : Prog Op ε α) (s : σ) (r : Except ε α) (s' : σ) : Prop :=
  ∃ es, Steps R p s es (.ofExcept r) s'

theorem wp_ofExcept {S : Spec Op σ} {r : Except ε α} {Q : α → σ → Prop} {E : ε → σ → Prop} {s : σ}
    (h : (Prog.ofExcept r : Prog Op ε α).wp S Q E s) : outcome Q E r s := by
  cases r with
  | ok a => exact h
  | error e => exact h

theorem Ends.of_eval {f : ∀ {β : Type}, Op β → σ → Option (β × σ)}
    (hf : ∀ {β : Type} (o : Op β) s b s', f o s = some (b, s') → R β o s b s') {n : ℕ}
    {p : Prog Op ε α} {s s' : σ} {r : Except ε α} (h : p.eval f n s = some (r, s')) :
    Ends R p s r s' := by
  induction p generalizing n s with
  | ret a => cases n <;> (cases h; exact ⟨[], .nil _ _⟩)
  | throw e => cases n <;> (cases h; exact ⟨[], .nil _ _⟩)
  | op o k ih =>
    cases n with
    | zero => cases h
    | succ n =>
      obtain ⟨⟨b, s₁⟩, ho, hk⟩ := Option.bind_eq_some_iff.1 h
      obtain ⟨es, hs⟩ := ih b hk
      exact ⟨_, .cons (hf o s b s₁ ho) hs⟩

theorem Returns.of_eval {f : ∀ {β : Type}, Op β → σ → Option (β × σ)}
    (hf : ∀ {β : Type} (o : Op β) s b s', f o s = some (b, s') → R β o s b s') {n : ℕ}
    {p : Prog Op ε α} {s s' : σ} {a : α} (h : p.eval f n s = some (.ok a, s')) :
    Returns R p s a s' :=
  Ends.of_eval hf h

/-! ## Reaching an operation -/

/-- `p` gets to an operation of the kind `P`, past events of the kind `N` only. -/
def Reaches (R : StepRel Op σ) (N : Event Op → Prop) (P : ∀ {β : Type}, Op β → σ → Prop)
    (p : Prog Op ε α) (s : σ) : Prop :=
  ∃ es, ∃ (β : Type) (o : Op β) (k : β → Prog Op ε α) (s' : σ),
    Steps R p s es (.op o k) s' ∧ (∀ e ∈ es, N e) ∧ P o s'

namespace Reaches

variable {α' : Type} {N : Event Op → Prop} {P : ∀ {β : Type}, Op β → σ → Prop} {s s₁ : σ}

theorem here {β : Type} {o : Op β} {k : β → Prog Op ε α} (h : P o s) :
    Reaches R N P (.op o k) s := ⟨[], β, o, k, s, .nil _ _, by simp, h⟩

theorem op {β : Type} {o : Op β} {b : β} {k : β → Prog Op ε α} (h : R β o s b s₁) (hn : N ⟨o, b⟩)
    (hk : Reaches R N P (k b) s₁) : Reaches R N P (.op o k) s := by
  obtain ⟨es, _, _, _, _, hs, he, hp⟩ := hk
  exact ⟨⟨o, b⟩ :: es, _, _, _, _, .cons h hs, List.forall_mem_cons.2 ⟨hn, he⟩, hp⟩

theorem left {p : Prog Op ε α} {f : α → Prog Op ε α'} (h : Reaches R N P p s) :
    Reaches R N P (p.bind f) s := by
  obtain ⟨es, _, _, _, _, hs, he, hp⟩ := h
  exact ⟨es, _, _, _, _, hs.bindLeft, he, hp⟩

theorem catching {p : Prog Op ε α} {f : ε → Prog Op ε α} (h : Reaches R N P p s) :
    Reaches R N P (p.catching f) s := by
  obtain ⟨es, _, _, _, _, hs, he, hp⟩ := h
  exact ⟨es, _, _, _, _, hs.catching, he, hp⟩

theorem attempt {p : Prog Op ε α} (h : Reaches R N P p s) : Reaches R N P p.attempt s := by
  obtain ⟨es, _, _, _, _, hs, he, hp⟩ := h
  exact ⟨es, _, _, _, _, hs.attempt, he, hp⟩

/-- The first part of a sequence returns and the second gets there. -/
theorem right {p : Prog Op ε α} {f : α → Prog Op ε α'} {a : α} (h : Returns R p s a s₁)
    (hn : ∀ e, N e) (hf : Reaches R N P (f a) s₁) : Reaches R N P (p.bind f) s := by
  obtain ⟨es, h⟩ := h
  obtain ⟨es', _, _, _, _, hs, -, hp⟩ := hf
  exact ⟨es ++ es', _, _, _, _, h.bind hs, fun e _ => hn e, hp⟩

/-- Some outcome of the first part leads on. -/
theorem after {p : Prog Op ε α} {f : α → Prog Op ε α'}
    (h : p.wp (.angelic R) (fun a s' => Reaches R N P (f a) s') (fun _ _ => False) s)
    (hn : ∀ e, N e) : Reaches R N P (p.bind f) s := by
  obtain ⟨a, s', hret, hf⟩ := wp_angelic h
  exact right hret hn hf

end Reaches

/-- The steps of `R` between steps of others that stay within `rely`. -/
def StepRel.under (rely : σ → σ → Prop) (R : StepRel Op σ) : StepRel Op σ :=
  fun β o s b s' => ∃ s₁, rely s s₁ ∧ R β o s₁ b s'

end Paths

end Concurrent
