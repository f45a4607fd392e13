/-
  Lists that are kept coalesced.

  Some elements can be joined with their neighbours.  A list grows at its end, one element at a
  time, and a new element is joined with the last one if both can be joined.

  * `collapse`: the list that results;
  * `collapse_eq_runs`: it has one element for each maximal run of elements that can be joined, and
    one for each other element;
  * `filter_collapse`, `isChain_collapse`, `collapse_of_isChain`: the other elements stay, no two
    neighbours can be joined, and a list with this property is its own result.
-/
import Mathlib.Data.List.SplitBy

namespace Coalescing

variable {α : Type*} (p : α → Bool) (join : α → α → α)

/-- Append an element, or join it with the last one. -/
def push (xs : List α) (a : α) : List α :=
  match xs.getLast? with
  | some b => if p b && p a then xs.dropLast ++ [join b a] else xs ++ [a]
  | none => [a]

def collapse (xs : List α) : List α := xs.foldl (push p join) []

/-- Two neighbours can be joined. -/
def both (a b : α) : Bool := p a && p b

/-- All elements of a list joined. -/
def joinAll : List α → Option α
  | [] => none
  | a :: as => some (as.foldl join a)

variable {p join}

@[simp] theorem push_nil (a : α) : push p join [] a = [a] := rfl

theorem push_append (xs : List α) (b a : α) :
    push p join (xs ++ [b]) a = if both p b a then xs ++ [join b a] else xs ++ [b] ++ [a] := by
  simp [push, both]

theorem push_singleton (b a : α) :
    push p join [b] a = if both p b a then [join b a] else [b] ++ [a] := push_append [] b a

/-- Only the last element is looked at. -/
theorem foldl_push_append (as : List α) :
    ∀ (xs : List α) (b : α),
      as.foldl (push p join) (xs ++ [b]) = xs ++ as.foldl (push p join) [b] := by
  induction as with
  | nil => exact fun xs b => rfl
  | cons a as ih =>
    intro xs b
    rw [List.foldl_cons, List.foldl_cons, push_append, push_singleton]
    by_cases h : both p b a = true
    · rw [if_pos h, if_pos h]
      exact ih xs _
    · rw [if_neg h, if_neg h, ih (xs ++ [b]) a, ih [b] a, List.append_assoc]

theorem joinAll_append {run : List α} {b : α} (h : joinAll join run = some b) (a : α) :
    joinAll join (run ++ [a]) = some (join b a) := by
  cases run with
  | nil => cases h
  | cons x run =>
    cases h
    simp [joinAll]

/-- A run, joined to `b`, is followed by `as`. -/
theorem foldl_push_run (hjoin : ∀ a b, p a → p b → p (join a b)) (as : List α) :
    ∀ (run : List α) (b x : α), joinAll join run = some b → run.getLast? = some x → p b = p x →
      run.IsChain (fun a b => both p a b) →
        as.foldl (push p join) [b] =
          ((run ++ as).splitBy (both p)).filterMap (joinAll join) := by
  induction as with
  | nil =>
    intro run b x hb hx _ hrun
    have hne : run ≠ [] := by rintro rfl; cases hx
    rw [List.append_nil, List.splitBy_of_isChain hne hrun]
    simp [hb]
  | cons a as ih =>
    intro run b x hb hx hbx hrun
    have hne : run ≠ [] := by rintro rfl; cases hx
    have hboth : both p b a = both p x a := by rw [both, both, hbx]
    rw [List.foldl_cons, push_singleton, hboth]
    by_cases h : both p x a = true
    · have hp : p x = true ∧ p a = true := by simpa [both] using h
      rw [if_pos h, List.append_cons]
      refine ih (run ++ [a]) (join b a) a (joinAll_append hb a) (by simp) ?_ ?_
      · rw [hp.2, hjoin b a (hbx.trans hp.1) hp.2]
      · refine List.isChain_append.2 ⟨hrun, .singleton a, fun y hy z hz => ?_⟩
        rw [hx] at hy
        cases hy
        cases hz
        exact h
    · rw [if_neg h, foldl_push_append, List.splitBy_append_cons as, List.filterMap_append,
        List.splitBy_of_isChain hne hrun]
      · rw [ih [a] a a rfl rfl rfl (.singleton a)]
        simp [hb]
      · intro y hy
        rw [hx] at hy
        cases hy
        exact Bool.eq_false_iff.2 h

/-- One element for each maximal run. -/
theorem collapse_eq_runs (hjoin : ∀ a b, p a → p b → p (join a b)) (xs : List α) :
    collapse p join xs = (xs.splitBy (both p)).filterMap (joinAll join) := by
  cases xs with
  | nil => rfl
  | cons a as => exact foldl_push_run hjoin as [a] a a rfl rfl rfl (.singleton a)

/-- In a run of more than one element all can be joined. -/
theorem forall_of_isChain {a : α} {run : List α} (ha : p a = true)
    (h : (a :: run).IsChain fun a b => both p a b) : ∀ x ∈ run, p x = true := by
  induction run generalizing a with
  | nil => exact fun x hx => absurd hx List.not_mem_nil
  | cons b run ih =>
    obtain ⟨hab, hrun⟩ := List.isChain_cons_cons.1 h
    have hb : p b = true := (Bool.and_eq_true_iff.1 hab).2
    exact List.forall_mem_cons.2 ⟨hb, ih hb hrun⟩

/-- What holds of every run and what it is joined to holds of the runs and the result. -/
theorem forall₂_collapse (hjoin : ∀ a b, p a → p b → p (join a b)) {P : List α → α → Prop}
    (h : ∀ run a, run.IsChain (fun a b => both p a b) → joinAll join run = some a → P run a)
    (xs : List α) : List.Forall₂ P (xs.splitBy (both p)) (collapse p join xs) := by
  rw [collapse_eq_runs hjoin]
  have hchain := fun run (hrun : run ∈ xs.splitBy (both p)) => List.isChain_of_mem_splitBy hrun
  have hne := List.nil_notMem_splitBy (both p) xs
  generalize xs.splitBy (both p) = runs at hchain hne ⊢
  induction runs with
  | nil => exact .nil
  | cons run runs ih =>
    obtain ⟨hrun, hruns⟩ := List.forall_mem_cons.1 hchain
    rw [List.mem_cons, not_or] at hne
    cases run with
    | nil => exact absurd rfl hne.1
    | cons a as => exact .cons (h _ _ hrun rfl) (ih hruns hne.2)

/-! ## What stays -/

theorem collapse_append (xs : List α) (a : α) :
    collapse p join (xs ++ [a]) = push p join (collapse p join xs) a := by
  simp [collapse]

theorem filter_push (hjoin : ∀ a b, p a → p b → p (join a b)) (xs : List α) (a : α) :
    (push p join xs a).filter (fun x => !p x) = (xs ++ [a]).filter fun x => !p x := by
  rcases List.eq_nil_or_concat xs with rfl | ⟨ys, b, rfl⟩
  · rfl
  · rw [List.concat_eq_append, push_append]
    by_cases h : both p b a = true
    · have hp : p b = true ∧ p a = true := by simpa [both] using h
      simp [h, hp, hjoin b a hp.1 hp.2]
    · rw [if_neg h]

/-- The elements that cannot be joined. -/
theorem filter_collapse (hjoin : ∀ a b, p a → p b → p (join a b)) (xs : List α) :
    (collapse p join xs).filter (fun x => !p x) = xs.filter fun x => !p x := by
  induction xs using List.reverseRecOn with
  | nil => rfl
  | append_singleton xs a ih =>
    rw [collapse_append, filter_push hjoin, List.filter_append, ih, ← List.filter_append]

theorem isChain_push {xs : List α} (h : xs.IsChain fun a b => both p a b = false) (a : α) :
    (push p join xs a).IsChain fun a b => both p a b = false := by
  rcases List.eq_nil_or_concat xs with rfl | ⟨ys, b, rfl⟩
  · exact .singleton a
  · rw [List.concat_eq_append] at h ⊢
    obtain ⟨hys, -, hlast⟩ := List.isChain_append.1 h
    rw [push_append]
    by_cases hboth : both p b a = true
    · rw [if_pos hboth]
      refine List.isChain_append.2 ⟨hys, .singleton _, fun x hx y hy => ?_⟩
      have hb : p b = true := (Bool.and_eq_true_iff.1 hboth).1
      have hxb := hlast x hx b rfl
      rw [both, hb, Bool.and_true] at hxb
      rw [both, hxb, Bool.false_and]
    · rw [if_neg hboth]
      refine List.isChain_append.2 ⟨h, .singleton a, fun x hx y hy => ?_⟩
      rw [List.getLast?_append] at hx
      cases hx
      cases hy
      exact Bool.eq_false_iff.2 hboth

/-- No two neighbours can be joined. -/
theorem isChain_collapse (xs : List α) :
    (collapse p join xs).IsChain fun a b => both p a b = false := by
  induction xs using List.reverseRecOn with
  | nil => exact .nil
  | append_singleton xs a ih =>
    rw [collapse_append]
    exact isChain_push ih a

theorem collapse_of_isChain {xs : List α} (h : xs.IsChain fun a b => both p a b = false) :
    collapse p join xs = xs := by
  induction xs using List.reverseRecOn with
  | nil => rfl
  | append_singleton xs a ih =>
    obtain ⟨hxs, -, hlast⟩ := List.isChain_append.1 h
    rw [collapse_append, ih hxs]
    rcases List.eq_nil_or_concat xs with rfl | ⟨ys, b, rfl⟩
    · rfl
    · rw [List.concat_eq_append, push_append, if_neg]
      rw [hlast b (by simp) a rfl]
      simp

end Coalescing
