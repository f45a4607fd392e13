/-
  A queue between threads.

  Any thread pushes and closes, one consumer pops.  Each operation is one critical section of the
  queue's lock, so what the threads do to the queue, in whatever order they get the lock, is a list
  of operations with their results.

  * `Channel.Run`: the operations and the queue they lead to;
  * `Run.fifo`: what was popped, and behind it what is queued, is what was accepted;
  * `Run.closed_iff`, `Run.rejects`: the queue accepts exactly until it is closed;
  * `Run.drained`: a consumer that is told the end has popped all that was accepted.
-/
import Mathlib.Data.List.Induction
import Mathlib.Tactic.TypeStar

namespace Concurrent

universe u v

structure Channel (α : Type u) where
  queue : List α := []
  closed : Bool := false

namespace Channel

variable {α : Type u} {ι : Type v}

/-- Enqueue an item.  A closed queue drops it and says so. -/
def push (c : Channel α) (a : α) : Channel α × Bool :=
  if c.closed then (c, false) else ({ c with queue := c.queue ++ [a] }, true)

/-- The next item, or the end of a queue that is closed and empty; nothing while the consumer has
to wait. -/
def pop (c : Channel α) : Option (Option α × Channel α) :=
  match c.queue with
  | a :: queue => some (some a, { c with queue })
  | [] => if c.closed then some (none, c) else none

def close (c : Channel α) : Channel α := { c with closed := true }

/-- An operation with its result. -/
inductive Act (ι : Type v) (α : Type u) where
  | push (t : ι) (a : α) (accepted : Bool)
  | pop (a : Option α)
  | close

def Does (c : Channel α) : Act ι α → Channel α → Prop
  | .push _ a accepted, c' => c.push a = (c', accepted)
  | .pop a, c' => c.pop = some (a, c')
  | .close, c' => c.close = c'

inductive Run : Channel α → List (Act ι α) → Channel α → Prop
  | nil (c) : Run c [] c
  | snoc {c c₁ c₂ acts act} : Run c acts c₁ → Does c₁ act c₂ → Run c (acts ++ [act]) c₂

/-! ## One operation -/

def Act.accepted? : Act ι α → Option α
  | .push _ a true => some a
  | _ => none

def Act.popped? : Act ι α → Option α
  | .pop a => a
  | _ => none

def accepted (acts : List (Act ι α)) : List α := acts.filterMap Act.accepted?

def popped (acts : List (Act ι α)) : List α := acts.filterMap Act.popped?

/-- What an operation does to the queue and to the closed mark. -/
theorem does_cases {c c' : Channel α} {act : Act ι α} (h : Does c act c') :
    (∃ t a, act = .push t a false ∧ c.closed = true ∧ c' = c) ∨
    (∃ t a, act = .push t a true ∧ c.closed = false ∧
      c' = { c with queue := c.queue ++ [a] }) ∨
    (∃ a queue, act = .pop (some a) ∧ c.queue = a :: queue ∧ c' = { c with queue }) ∨
    (act = .pop none ∧ c.queue = [] ∧ c.closed = true ∧ c' = c) ∨
    (act = .close ∧ c' = { c with closed := true }) := by
  cases act with
  | push t a ok =>
    simp only [Does, push] at h
    split at h
    · rename_i hclosed
      obtain ⟨rfl, rfl⟩ := Prod.mk.inj h
      exact .inl ⟨t, a, rfl, hclosed, rfl⟩
    · rename_i hopen
      obtain ⟨rfl, rfl⟩ := Prod.mk.inj h
      exact .inr (.inl ⟨t, a, rfl, Bool.eq_false_iff.2 hopen, rfl⟩)
  | pop r =>
    simp only [Does, pop] at h
    split at h
    · rename_i a queue hq
      obtain ⟨rfl, rfl⟩ := Prod.mk.inj (Option.some.inj h)
      exact .inr (.inr (.inl ⟨a, queue, rfl, hq, rfl⟩))
    · rename_i hq
      split at h
      · rename_i hclosed
        obtain ⟨rfl, rfl⟩ := Prod.mk.inj (Option.some.inj h)
        exact .inr (.inr (.inr (.inl ⟨rfl, hq, hclosed, rfl⟩)))
      · cases h
  | close => exact .inr (.inr (.inr (.inr ⟨rfl, h.symm⟩)))

theorem accepted_snoc (acts : List (Act ι α)) (act : Act ι α) :
    accepted (acts ++ [act]) = accepted acts ++ act.accepted?.toList := by
  rw [accepted, List.filterMap_append]
  cases h : act.accepted? <;> simp [accepted, h]

theorem popped_snoc (acts : List (Act ι α)) (act : Act ι α) :
    popped (acts ++ [act]) = popped acts ++ act.popped?.toList := by
  rw [popped, List.filterMap_append]
  cases h : act.popped? <;> simp [popped, h]

/-! ## Runs -/

namespace Run

variable {c c' : Channel α} {acts : List (Act ι α)}

/-- **First in, first out.** -/
theorem fifo (h : Run c acts c') : popped acts ++ c'.queue = c.queue ++ accepted acts := by
  induction h with
  | nil => simp [popped, accepted]
  | snoc _ hstep ih =>
    rw [popped_snoc, accepted_snoc, ← List.append_assoc, ← ih]
    rcases does_cases hstep with ⟨t, a, rfl, -, rfl⟩ | ⟨t, a, rfl, -, rfl⟩ |
      ⟨a, queue, rfl, hq, rfl⟩ | ⟨rfl, -, -, rfl⟩ | ⟨rfl, rfl⟩
    · simp [Act.accepted?, Act.popped?]
    · simp [Act.accepted?, Act.popped?]
    · simp [Act.accepted?, Act.popped?, hq]
    · simp [Act.accepted?, Act.popped?]
    · simp [Act.accepted?, Act.popped?]

/-- The queue is closed once it was, or was closed on the way. -/
theorem closed_iff (h : Run c acts c') :
    c'.closed = true ↔ c.closed = true ∨ Act.close ∈ acts := by
  induction h with
  | nil => simp
  | snoc _ hstep ih =>
    rw [List.mem_append, List.mem_singleton, ← or_assoc, ← ih]
    rcases does_cases hstep with ⟨t, a, rfl, -, rfl⟩ | ⟨t, a, rfl, -, rfl⟩ |
      ⟨a, queue, rfl, -, rfl⟩ | ⟨rfl, -, -, rfl⟩ | ⟨rfl, rfl⟩ <;> simp

/-- A push is accepted exactly while the queue is open. -/
theorem rejects (h : Run c acts c') (hclosed : c.closed = true) :
    accepted acts = [] ∧ ∀ t a ok, .push t a ok ∈ acts → ok = false := by
  induction h with
  | nil => exact ⟨rfl, fun _ _ _ hmem => absurd hmem List.not_mem_nil⟩
  | @snoc c₁ c₂ acts act hrun hstep ih =>
    obtain ⟨hnone, hrejected⟩ := ih
    have hclosed₁ : c₁.closed = true := hrun.closed_iff.2 (.inl hclosed)
    have hact : act.accepted? = none ∧ ∀ t a ok, act = .push t a ok → ok = false := by
      rcases does_cases hstep with ⟨t, a, rfl, -, rfl⟩ | ⟨t, a, rfl, hopen, rfl⟩ |
        ⟨a, queue, rfl, -, rfl⟩ | ⟨rfl, -, -, rfl⟩ | ⟨rfl, rfl⟩
      · refine ⟨rfl, fun t a ok heq => ?_⟩
        cases heq
        rfl
      · rw [hclosed₁] at hopen
        cases hopen
      all_goals exact ⟨rfl, nofun⟩
    refine ⟨by rw [accepted_snoc, hnone, hact.1]; rfl, fun t a ok hmem => ?_⟩
    rcases List.mem_append.1 hmem with hmem | hmem
    · exact hrejected t a ok hmem
    · exact hact.2 t a ok (List.mem_singleton.1 hmem).symm

theorem accepts (h : Run c acts c') (hopen : c'.closed = false) :
    ∀ t a ok, .push t a ok ∈ acts → ok = true := by
  induction h with
  | nil => exact fun _ _ _ hmem => absurd hmem List.not_mem_nil
  | @snoc c₁ c₂ acts act hrun hstep ih =>
    have hopen₁ : c₁.closed = false := by
      rcases does_cases hstep with ⟨t, a, rfl, -, rfl⟩ | ⟨t, a, rfl, h, rfl⟩ |
        ⟨a, queue, rfl, -, rfl⟩ | ⟨rfl, -, -, rfl⟩ | ⟨rfl, rfl⟩
      · exact hopen
      · exact h
      · exact hopen
      · exact hopen
      · cases hopen
    intro t a ok hmem
    rcases List.mem_append.1 hmem with hmem | hmem
    · exact ih hopen₁ t a ok hmem
    · cases List.mem_singleton.1 hmem
      simp only [Does, push, hopen₁, Bool.false_eq_true, if_false] at hstep
      exact (Prod.mk.inj hstep).2.symm

theorem split {before after : List (Act ι α)} (h : Run c (before ++ after) c') :
    ∃ c₁, Run c before c₁ ∧ Run c₁ after c' := by
  induction after using List.reverseRecOn generalizing c' with
  | nil => exact ⟨c', by simpa using h, .nil c'⟩
  | append_singleton after act ih =>
    rw [← List.append_assoc] at h
    generalize hacts : before ++ after ++ [act] = acts at h
    cases h with
    | nil => simp at hacts
    | snoc hrun hstep =>
      obtain ⟨rfl, rfl⟩ := List.append_singleton_inj.1 hacts
      obtain ⟨c₁, hbefore, hafter⟩ := ih hrun
      exact ⟨c₁, hbefore, .snoc hafter hstep⟩

/-- **The close separates the accepted from the rejected.** -/
theorem around_close {before after : List (Act ι α)} (h : Run c (before ++ .close :: after) c')
    (hfirst : .close ∉ before) (hopen : c.closed = false) :
    accepted (before ++ .close :: after) = accepted before ∧
      (∀ t a ok, .push t a ok ∈ before → ok = true) ∧
      ∀ t a ok, .push t a ok ∈ after → ok = false := by
  obtain ⟨c₁, hbefore, hrest⟩ := h.split
  rw [← List.singleton_append] at hrest
  obtain ⟨c₂, hclose, hafter⟩ := hrest.split
  have hopen₁ : c₁.closed = false := by
    rw [← Bool.not_eq_true, hbefore.closed_iff, not_or, hopen]
    exact ⟨nofun, hfirst⟩
  have hclosed : c₂.closed = true := hclose.closed_iff.2 (.inr (List.mem_singleton.2 rfl))
  obtain ⟨hnone, hrejected⟩ := hafter.rejects hclosed
  refine ⟨?_, hbefore.accepts hopen₁, hrejected⟩
  have hafter' : (after.filterMap Act.accepted?) = [] := hnone
  rw [accepted, List.filterMap_append, List.filterMap_cons_none rfl, hafter', List.append_nil,
    accepted]

/-- **At the end of the queue everything accepted was popped.** -/
theorem drained (h : Run c acts c') (hend : .pop none ∈ acts) :
    c'.closed = true ∧ c'.queue = [] := by
  induction h with
  | nil => exact absurd hend List.not_mem_nil
  | snoc _ hstep ih =>
    rcases List.mem_append.1 hend with hend | hend
    · obtain ⟨hclosed, hempty⟩ := ih hend
      rcases does_cases hstep with ⟨t, a, rfl, -, rfl⟩ | ⟨t, a, rfl, hopen, rfl⟩ |
        ⟨a, queue, rfl, hq, rfl⟩ | ⟨rfl, -, -, rfl⟩ | ⟨rfl, rfl⟩
      · exact ⟨hclosed, hempty⟩
      · rw [hclosed] at hopen
        cases hopen
      · rw [hempty] at hq
        cases hq
      · exact ⟨hclosed, hempty⟩
      · exact ⟨rfl, hempty⟩
    · cases List.mem_singleton.1 hend
      rcases does_cases hstep with ⟨t, a, heq, -⟩ | ⟨t, a, heq, -⟩ | ⟨a, queue, heq, -⟩ |
        ⟨-, hempty, hclosed, rfl⟩ | ⟨heq, -⟩
      · cases heq
      · cases heq
      · cases heq
      · exact ⟨hclosed, hempty⟩
      · cases heq

end Run

end Channel

end Concurrent
