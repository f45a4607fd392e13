/-
  The task queue does what the session model takes the dispatcher to do.

  In the session model a thread that passes a function to the dispatcher waits in a queue, is served
  when its turn comes, and lets go of the dispatcher when the function has ended.  The task queue
  has a channel of packaged tasks and a worker instead.

  * `TaskQueue.Label.turn`: what a step of the task queue is for the thread that submitted the task;
  * `Step.simulates`: a step of the task queue is that operation, or none;
  * `dispatcher_refined`: every run of the task queue is a run of the dispatcher.
-/
import DapDbgeng.Semantics
import DapDbgeng.TaskQueue

namespace DapDbgeng

open Concurrent

/-! ## The dispatcher of the session model -/

/-- The operations of the threads on the dispatcher, one after the other. -/
inductive Turns : Server → List (Tid × DapOp Unit) → Server → Prop
  | nil (s) : Turns s [] s
  | snoc {s s₁ s₂ ops t o} : Turns s ops s₁ → sem t Unit o s₁ () s₂ → Turns s (ops ++ [(t, o)]) s₂

namespace TaskQueue

variable {E V : Type}

/-- What a step is for the thread that submitted the task.  A rejected task never reaches the
dispatcher, and the steps within a task are the thread's own. -/
def Label.turn (caller : ℕ → Tid) : Label Tid E V → Option (Tid × DapOp Unit)
  | .channel (.push t _ true) => some (t, .enqueue)
  | .channel (.pop (some work)) => some (caller work.id, .acquire)
  | .finish work _ => some (caller work.id, .release)
  | _ => none

/-- The threads are those that pushed the tasks. -/
def Callers (caller : ℕ → Tid) (ls : List (Label Tid E V)) : Prop :=
  ∀ t work ok, .channel (.push t work ok) ∈ ls → caller work.id = t

/-- The dispatcher of the session model where the task queue is. -/
def seenFrom (q : TaskQueue E V) (caller : ℕ → Tid) (s : Server) : Server :=
  { s with
    queue := q.channel.queue.map fun work => caller work.id
    holder := q.worker.current.head?.map fun work => caller work.id }

variable {q q' : TaskQueue E V} {ls : List (Label Tid E V)} {l : Label Tid E V}

/-- **A step of the task queue** is an operation of the thread it concerns, or nothing. -/
theorem Step.simulates (h : Step q l q') {caller : ℕ → Tid} (hcaller : Callers caller [l])
    (s : Server) :
    match l.turn caller with
    | some (t, o) => sem t Unit o (q.seenFrom caller s) () (q'.seenFrom caller s)
    | none => q'.seenFrom caller s = q.seenFrom caller s := by
  cases h with
  | @push t submitted ok task c hpush =>
    unfold Channel.push at hpush
    split at hpush
    · obtain ⟨rfl, rfl⟩ := Prod.mk.inj hpush
      rfl
    · obtain ⟨rfl, rfl⟩ := Prod.mk.inj hpush
      have ht := hcaller t _ true (List.mem_singleton.2 rfl)
      refine sem_enqueue.2 ?_
      simp only [seenFrom, List.map_append, List.map_cons, List.map_nil]
      rw [ht]
  | stop => rfl
  | pop hworker hpop =>
    unfold Channel.pop at hpop
    split at hpop
    · rename_i work' queue hq
      obtain ⟨heq, rfl⟩ := Prod.mk.inj (Option.some.inj hpop)
      cases heq
      refine sem_acquire.2 ⟨queue.map fun work => caller work.id, ?_, ?_, rfl⟩
      · simp only [seenFrom, hq, List.map_cons]
      · simp only [seenFrom, hworker, Worker.current, List.head?_nil, Option.map_none]
    · split at hpop <;> cases hpop
  | drained hworker hpop =>
    unfold Channel.pop at hpop
    split at hpop
    · cases hpop
    · split at hpop
      · obtain ⟨-, rfl⟩ := Prod.mk.inj (Option.some.inj hpop)
        simp only [Label.turn, seenFrom, hworker, Worker.current]
      · cases hpop
  | step hworker | enter hworker | leave hworker | escape hworker =>
    simp only [Label.turn, seenFrom, hworker, Worker.current]
  | finish hworker => exact sem_release.2 rfl

/-- Tasks have numbers of their own, so each has the thread that pushed it. -/
theorem exists_callers (h : Run {} ls q) : ∃ caller, Callers caller ls ∧
    ∀ t work ok, .channel (.push t work ok) ∈ ls → work.id < q.nextId := by
  induction h with
  | nil => exact ⟨fun _ => .request, fun _ _ _ h => absurd h List.not_mem_nil,
      fun _ _ _ h => absurd h List.not_mem_nil⟩
  | @snoc q₁ q₂ ls l _ hstep ih =>
    obtain ⟨caller, hcaller, hbelow⟩ := ih
    by_cases hl : ∃ t work ok, l = .channel (.push t work ok)
    · obtain ⟨t, work, ok, rfl⟩ := hl
      cases hstep with
      | push hpush =>
        refine ⟨Function.update caller q₁.nextId t, fun t' work' ok' hmem => ?_,
          fun t' work' ok' hmem => ?_⟩
        · rcases List.mem_append.1 hmem with hmem | hmem
          · rw [Function.update_of_ne (Nat.ne_of_lt (hbelow _ _ _ hmem))]
            exact hcaller _ _ _ hmem
          · cases List.mem_singleton.1 hmem
            exact Function.update_self ..
        · rcases List.mem_append.1 hmem with hmem | hmem
          · exact (hbelow _ _ _ hmem).trans (Nat.lt_succ_self _)
          · cases List.mem_singleton.1 hmem
            exact Nat.lt_succ_self _
    · have hmem {t work ok} (hmem : Label.channel (.push t work ok) ∈ ls ++ [l]) :
          .channel (.push t work ok) ∈ ls := by
        rcases List.mem_append.1 hmem with hmem | hmem
        · exact hmem
        · exact absurd ⟨t, work, ok, (List.mem_singleton.1 hmem).symm⟩ hl
      have hnext : q₂.nextId = q₁.nextId := by
        cases hstep with
        | push => exact absurd ⟨_, _, _, rfl⟩ hl
        | _ => rfl
      refine ⟨caller, fun t work ok h => hcaller _ _ _ (hmem h), fun t work ok h => ?_⟩
      rw [hnext]
      exact hbelow _ _ _ (hmem h)

/-- **The dispatcher is refined by the task queue**: in whatever order threads push tasks, the
worker runs them and the queue is stopped, the threads that pushed them wait in order, are served
one at a time and let go, just as the session model has it. -/
theorem dispatcher_refined (h : Run {} ls q) (fullPath : String → String) :
    ∃ caller, Callers caller ls ∧
      Turns { fullPath } (ls.filterMap (Label.turn caller)) (q.seenFrom caller { fullPath }) := by
  obtain ⟨caller, hcaller, -⟩ := exists_callers h
  refine ⟨caller, hcaller, ?_⟩
  induction h with
  | nil => exact .nil _
  | @snoc q₁ q₂ ls l _ hstep ih =>
    have hbefore := ih fun t work ok h => hcaller t work ok (List.mem_append_left _ h)
    have hlast : Callers caller [l] := fun t work ok h =>
      hcaller t work ok (List.mem_append_right _ h)
    have hsim := hstep.simulates hlast { fullPath }
    rw [List.filterMap_append]
    cases hturn : l.turn caller with
    | none =>
      rw [hturn] at hsim
      rw [List.filterMap_cons_none hturn, List.filterMap_nil, List.append_nil, hsim]
      exact hbefore
    | some turn =>
      rw [hturn] at hsim
      rw [List.filterMap_cons_some hturn, List.filterMap_nil]
      exact .snoc hbefore hsim

/-- Two threads submit; the first is served, the second waits, and the queue is stopped. -/
theorem dispatcher_refined_two : ∃ (ls : List (Label Tid String ℕ)) (q : TaskQueue String ℕ)
    (caller : ℕ → Tid), Run {} ls q ∧ ls.length = 4 ∧ Callers caller ls ∧
      Turns {} (ls.filterMap (Label.turn caller)) (q.seenFrom caller {}) := by
  have hrun := Run.snoc (.snoc (.snoc (.snoc (.nil ({} : TaskQueue String ℕ))
    (@Step.push _ _ _ _ Tid.request true _ (.ret 0) _ rfl))
    (@Step.push _ _ _ _ Tid.loop true _ (.ret 1) _ rfl)) (.pop rfl rfl)) .stop
  obtain ⟨caller, hcaller, hturns⟩ := @dispatcher_refined _ _ _ _ hrun id
  exact ⟨_, _, caller, hrun, rfl, hcaller, hturns⟩

end TaskQueue

end DapDbgeng
