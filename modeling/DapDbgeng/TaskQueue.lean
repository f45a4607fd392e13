/-
  The task queue of the dispatcher thread.

  `submit` and `post` push work onto the queue from any thread, the worker runs it in `run`, and
  `stop` closes the queue.  A submitted task is packaged: its value or exception goes to the
  caller's future, and a package that is dropped leaves its future with an error.  A posted task is
  run as it is.  A task that calls `invoke` is on the worker thread already, so the inner function
  is called in its place.

  * `TaskQueue.Run`: the interleavings of the callers, the worker and the stop;
  * `TaskQueue.executes`: the worker computes the outcome of a task, however deep its calls nest;
  * `TaskQueue.served_iff`: the tasks are served unless a posted one throws.
-/
import DapDbgeng.Concurrent.Channel
import Mathlib.Logic.Function.Basic
import Mathlib.Tactic.TypeStar

namespace DapDbgeng

open Concurrent

/-! ## Tasks -/

/-- What a callable does on the worker thread. -/
inductive Task (E V : Type) where
  | ret (v : V)
  | throw (e : E)
  /-- Any work of its own. -/
  | step (rest : Task E V)
  /-- `invoke` of another callable, which returns a value or throws. -/
  | invoke (function : Task E V) (rest : Except E V → Task E V)

variable {E V : Type}

namespace Task

/-- What the callable comes to. -/
def outcome : Task E V → Except E V
  | ret v => .ok v
  | throw e => .error e
  | step rest => rest.outcome
  | invoke function rest => (rest function.outcome).outcome

/-- A callable that has come to its end. -/
def ended : Except E V → Task E V
  | .ok v => ret v
  | .error e => throw e

@[simp] theorem outcome_ended (r : Except E V) : (ended r).outcome = r := by cases r <;> rfl

end Task

/-- An entry of the queue. -/
structure Work (E V : Type) where
  id : ℕ
  /-- Packaged by `submit`, or posted as it is. -/
  submitted : Bool
  task : Task E V

inductive Future (E V : Type) where
  | pending
  | ready (r : Except E V)
  | brokenPromise

/-! ## The threads -/

/-- The worker thread in `run`, with the calls that are under way in the current task. -/
inductive Worker (E V : Type) where
  | waiting
  | running (work : Work E V) (calls : List (Except E V → Task E V)) (task : Task E V)
  | returned
  /-- An exception left `run`. -/
  | escaped (work : Work E V)

def Worker.current : Worker E V → List (Work E V)
  | .running work _ _ | .escaped work => [work]
  | _ => []

structure TaskQueue (E V : Type) where
  channel : Channel (Work E V) := {}
  worker : Worker E V := .waiting
  nextId : ℕ := 0
  futures : ℕ → Option (Future E V) := fun _ => none

namespace TaskQueue

variable {ι : Type*}

inductive Label (ι : Type*) (E V : Type) where
  | channel (act : Channel.Act ι (Work E V))
  | step
  | enter
  | leave
  | finish (work : Work E V) (r : Except E V)
  | escape

/-- The futures after `submit` or `post`.  The future of a rejected package is broken when `submit`
returns it. -/
def offer (q : TaskQueue E V) (submitted accepted : Bool) : ℕ → Option (Future E V) :=
  if submitted then
    Function.update q.futures q.nextId (some (if accepted then .pending else .brokenPromise))
  else q.futures

/-- The futures after a task came to its end. -/
def settle (q : TaskQueue E V) (work : Work E V) (r : Except E V) : ℕ → Option (Future E V) :=
  if work.submitted then Function.update q.futures work.id (some (.ready r)) else q.futures

/-- A step of one of the threads. -/
inductive Step : TaskQueue E V → Label ι E V → TaskQueue E V → Prop
  | push {q : TaskQueue E V} {t : ι} {submitted ok : Bool} {task : Task E V}
      {c : Channel (Work E V)} (h : q.channel.push ⟨q.nextId, submitted, task⟩ = (c, ok)) :
      Step q (.channel (.push t ⟨q.nextId, submitted, task⟩ ok))
        { q with channel := c, nextId := q.nextId + 1, futures := q.offer submitted ok }
  | stop {q : TaskQueue E V} : Step q (.channel .close) { q with channel := q.channel.close }
  | pop {q : TaskQueue E V} {work : Work E V} {c : Channel (Work E V)}
      (hworker : q.worker = .waiting) (h : q.channel.pop = some (some work, c)) :
      Step q (.channel (.pop (some work)))
        { q with channel := c, worker := .running work [] work.task }
  | drained {q : TaskQueue E V} {c : Channel (Work E V)} (hworker : q.worker = .waiting)
      (h : q.channel.pop = some (none, c)) :
      Step q (.channel (.pop none)) { q with channel := c, worker := .returned }
  | step {q : TaskQueue E V} {work : Work E V} {calls : List (Except E V → Task E V)}
      {rest : Task E V} (hworker : q.worker = .running work calls (.step rest)) :
      Step q .step { q with worker := .running work calls rest }
  | enter {q : TaskQueue E V} {work : Work E V} {calls : List (Except E V → Task E V)}
      {function : Task E V} {rest : Except E V → Task E V}
      (hworker : q.worker = .running work calls (.invoke function rest)) :
      Step q .enter { q with worker := .running work (rest :: calls) function }
  | leave {q : TaskQueue E V} {work : Work E V} {calls : List (Except E V → Task E V)}
      {rest : Except E V → Task E V} {r : Except E V}
      (hworker : q.worker = .running work (rest :: calls) (.ended r)) :
      Step q .leave { q with worker := .running work calls (rest r) }
  | finish {q : TaskQueue E V} {work : Work E V} {r : Except E V}
      (hworker : q.worker = .running work [] (.ended r))
      (hcaught : work.submitted = true ∨ r.isOk = true) :
      Step q (.finish work r) { q with worker := .waiting, futures := q.settle work r }
  | escape {q : TaskQueue E V} {work : Work E V} {e : E}
      (hworker : q.worker = .running work [] (.throw e)) (hposted : work.submitted = false) :
      Step q .escape { q with worker := .escaped work }

inductive Run : TaskQueue E V → List (Label ι E V) → TaskQueue E V → Prop
  | nil (q) : Run q [] q
  | snoc {q q₁ q₂ ls l} : Run q ls q₁ → Step q₁ l q₂ → Run q (ls ++ [l]) q₂

def Label.act? : Label ι E V → Option (Channel.Act ι (Work E V))
  | .channel act => some act
  | _ => none

/-- What happened to the queue. -/
def acts (ls : List (Label ι E V)) : List (Channel.Act ι (Work E V)) := ls.filterMap Label.act?

def Label.finished? : Label ι E V → Option (Work E V × Except E V)
  | .finish work r => some (work, r)
  | _ => none

/-- The tasks that came to their end, with what they came to. -/
def finished (ls : List (Label ι E V)) : List (Work E V × Except E V) :=
  ls.filterMap Label.finished?

/-- The worker's own steps. -/
def Label.ofWorker : Label ι E V → Bool
  | .channel (.push _ _ _) | .channel .close => false
  | _ => true

/-- The steps of the worker within a task. -/
def Label.inside : Label ι E V → Bool
  | .step | .enter | .leave => true
  | _ => false

/-! ## What is promised -/

/-- No task that was posted throws. -/
def PostsReturn (ls : List (Label ι E V)) : Prop :=
  ∀ work ∈ Channel.accepted (acts ls), work.submitted = false → work.task.outcome.isOk = true

structure Served (ls : List (Label ι E V)) (q : TaskQueue E V) : Prop where
  /-- The worker has run the accepted tasks one after the other, up to the current one. -/
  inOrder : ∃ done, Channel.popped (acts ls) = done ++ q.worker.current ∧
    Channel.popped (acts ls) <+: Channel.accepted (acts ls) ∧
    finished ls = done.map fun work => (work, work.task.outcome)
  once : ((Channel.accepted (acts ls)).map Work.id).Nodup
  /-- The future of an accepted task has its outcome once it was run. -/
  results : ∀ work ∈ Channel.accepted (acts ls), work.submitted = true →
    q.futures work.id = some (.ready work.task.outcome) ∨
      q.futures work.id = some .pending ∧ work ∉ (finished ls).map Prod.fst
  /-- A rejected task is never run, and its future has an error. -/
  rejected : ∀ t work, .push t work false ∈ acts ls →
    work.id ∉ (Channel.popped (acts ls)).map Work.id ∧
      (work.submitted = true → q.futures work.id = some .brokenPromise)
  opened : .close ∉ acts ls → ∀ t work ok, .push t work ok ∈ acts ls → ok = true
  stopped : ∀ before after, acts ls = before ++ .close :: after → .close ∉ before →
    Channel.accepted (acts ls) = Channel.accepted before ∧
      (∀ t work ok, .push t work ok ∈ before → ok = true) ∧
      ∀ t work ok, .push t work ok ∈ after → ok = false
  /-- When `run` has returned, everything accepted was run and no future is pending. -/
  returned : q.worker = .returned →
    finished ls = (Channel.accepted (acts ls)).map (fun work => (work, work.task.outcome)) ∧
      ∀ id, q.futures id ≠ some .pending
  /-- A task runs to its end whatever it invokes, without a look at the queue. -/
  nested : ∀ work calls task, q.worker = .running work calls task →
    ∃ (ls' : List (Label ι E V)) (r : Except E V),
      Run q ls' { q with worker := .running work [] (.ended r) } ∧ ∀ l ∈ ls', l.inside = true
  /-- After the stop, the worker comes to the end of `run` by itself. -/
  completes : .close ∈ acts ls → ∃ (ls' : List (Label ι E V)) (q' : TaskQueue E V),
    Run q ls' q' ∧ (∀ l ∈ ls', l.ofWorker = true) ∧ q'.worker = .returned ∧
      finished (ls ++ ls') =
        (Channel.accepted (acts ls)).map fun work => (work, work.task.outcome)

/-! ## The queue within the threads -/

theorem acts_append (ls ls' : List (Label ι E V)) : acts (ls ++ ls') = acts ls ++ acts ls' :=
  List.filterMap_append

theorem finished_append (ls ls' : List (Label ι E V)) :
    finished (ls ++ ls') = finished ls ++ finished ls' := List.filterMap_append

theorem acts_single (l : Label ι E V) : acts [l] = l.act?.toList := by
  cases h : l.act? <;> simp [acts, h]

theorem finished_single (l : Label ι E V) : finished [l] = l.finished?.toList := by
  cases h : l.finished? <;> simp [finished, h]

theorem Step.channel {q q' : TaskQueue E V} {act : Channel.Act ι (Work E V)}
    (h : Step q (.channel act) q') : Channel.Does q.channel act q'.channel := by
  cases h with
  | push h => exact h
  | stop => rfl
  | pop _ h => exact h
  | drained _ h => exact h

theorem Step.channel_eq {q q' : TaskQueue E V} {l : Label ι E V} (h : Step q l q')
    (hl : l.act? = none) : q'.channel = q.channel := by
  cases h with
  | push | stop | pop | drained => cases hl
  | step | enter | leave | finish | escape => rfl

/-- **What the threads do to the queue is a run of the queue.** -/
theorem Run.channel {q q' : TaskQueue E V} {ls : List (Label ι E V)} (h : Run q ls q') :
    Channel.Run q.channel (acts ls) q'.channel := by
  induction h with
  | nil => exact .nil _
  | @snoc q₁ q₂ ls l _ hstep ih =>
    rw [acts_append, acts_single]
    cases hl : l.act? with
    | none => rwa [Option.toList_none, List.append_nil, hstep.channel_eq hl]
    | some act =>
      cases l with
      | channel act' =>
        cases hl
        exact .snoc ih hstep.channel
      | step | enter | leave | finish | escape => cases hl

theorem Run.trans {q q' q'' : TaskQueue E V} {ls ls' : List (Label ι E V)} (h : Run q ls q')
    (h' : Run q' ls' q'') : Run q (ls ++ ls') q'' := by
  induction h' with
  | nil => rwa [List.append_nil]
  | snoc _ hstep ih => rw [← List.append_assoc]; exact .snoc ih hstep

theorem Run.single {q q' : TaskQueue E V} {l : Label ι E V} (h : Step q l q') : Run q [l] q' :=
  @Run.snoc _ _ _ _ _ _ [] _ (.nil q) h

/-! ## Numbers of the tasks -/

/-- The tasks are numbered in the order in which they were offered. -/
structure Numbered (acts : List (Channel.Act ι (Work E V))) (nextId : ℕ) : Prop where
  below : ∀ t work ok, .push t work ok ∈ acts → work.id < nextId
  unique : ∀ t work ok t' work' ok', .push t work ok ∈ acts → .push t' work' ok' ∈ acts →
    work.id = work'.id → work = work' ∧ ok = ok'
  covers : ∀ id < nextId, ∃ t work ok, .push t work ok ∈ acts ∧ work.id = id
  nodup : ((Channel.accepted acts).map Work.id).Nodup

theorem numbered_nil : Numbered ([] : List (Channel.Act ι (Work E V))) 0 where
  below := fun _ _ _ h => absurd h List.not_mem_nil
  unique := fun _ _ _ _ _ _ h => absurd h List.not_mem_nil
  covers := fun _ h => absurd h (Nat.not_lt_zero _)
  nodup := List.nodup_nil

theorem push_of_accepted {acts : List (Channel.Act ι (Work E V))} {work : Work E V}
    (h : work ∈ Channel.accepted acts) : ∃ t, .push t work true ∈ acts := by
  obtain ⟨act, hact, hm⟩ := List.mem_filterMap.1 h
  cases act with
  | push t work' ok =>
    cases ok with
    | true => cases hm; exact ⟨t, hact⟩
    | false => cases hm
  | pop | close => cases hm

theorem accepted_of_push {acts : List (Channel.Act ι (Work E V))} {t : ι} {work : Work E V}
    (h : .push t work true ∈ acts) : work ∈ Channel.accepted acts :=
  List.mem_filterMap.2 ⟨_, h, rfl⟩

theorem Numbered.push {acts : List (Channel.Act ι (Work E V))} {n : ℕ} (h : Numbered acts n)
    (t : ι) (work : Work E V) (ok : Bool) (hid : work.id = n) :
    Numbered (acts ++ [.push t work ok]) (n + 1) where
  below := by
    intro t' work' ok' hmem
    rcases List.mem_append.1 hmem with hmem | hmem
    · have := h.below t' work' ok' hmem
      omega
    · cases List.mem_singleton.1 hmem
      omega
  unique := by
    intro t₁ work₁ ok₁ t₂ work₂ ok₂ h₁ h₂ heq
    rcases List.mem_append.1 h₁ with h₁ | h₁ <;> rcases List.mem_append.1 h₂ with h₂ | h₂
    · exact h.unique _ _ _ _ _ _ h₁ h₂ heq
    · cases List.mem_singleton.1 h₂
      have := h.below _ _ _ h₁
      omega
    · cases List.mem_singleton.1 h₁
      have := h.below _ _ _ h₂
      omega
    · cases List.mem_singleton.1 h₁
      cases List.mem_singleton.1 h₂
      exact ⟨rfl, rfl⟩
  covers := by
    intro id hlt
    rcases Nat.lt_succ_iff_lt_or_eq.1 hlt with hlt | rfl
    · obtain ⟨t', work', ok', hmem, hid'⟩ := h.covers id hlt
      exact ⟨t', work', ok', List.mem_append_left _ hmem, hid'⟩
    · exact ⟨t, work, ok, List.mem_append_right _ (List.mem_singleton.2 rfl), hid⟩
  nodup := by
    rw [Channel.accepted_snoc, List.map_append]
    refine List.nodup_append.2 ⟨h.nodup, ?_, ?_⟩
    · cases ok <;> simp [Channel.Act.accepted?]
    · intro id hold id' hnew
      obtain ⟨work', hwork', rfl⟩ := List.mem_map.1 hold
      obtain ⟨t', hpush⟩ := push_of_accepted hwork'
      have hlt := h.below _ _ _ hpush
      cases ok with
      | true =>
        rw [List.mem_singleton.1 hnew]
        omega
      | false => cases hnew

/-- Another operation offers nothing. -/
theorem Numbered.other {acts acts' : List (Channel.Act ι (Work E V))} {n : ℕ} (h : Numbered acts n)
    (hpush : ∀ t work ok, .push t work ok ∈ acts' ↔ .push t work ok ∈ acts)
    (haccepted : Channel.accepted acts' = Channel.accepted acts) : Numbered acts' n where
  below := fun t work ok hmem => h.below t work ok ((hpush t work ok).1 hmem)
  unique := fun t work ok t' work' ok' hmem hmem' =>
    h.unique t work ok t' work' ok' ((hpush t work ok).1 hmem) ((hpush t' work' ok').1 hmem')
  covers := by
    intro id hlt
    obtain ⟨t, work, ok, hmem, hid⟩ := h.covers id hlt
    exact ⟨t, work, ok, (hpush t work ok).2 hmem, hid⟩
  nodup := haccepted ▸ h.nodup

/-! ## The worker -/

/-- What the calls under way make of the result of the innermost one. -/
def unwind : List (Except E V → Task E V) → Except E V → Except E V
  | [], r => r
  | rest :: calls, r => unwind calls (rest r).outcome

/-- The future of an offered task, once the tasks `done` have been run. -/
def expected (done : List (Work E V)) (work : Work E V) (ok : Bool) : Option (Future E V) :=
  if work.submitted then
    some (if ok then
      if work.id ∈ done.map Work.id then .ready work.task.outcome else .pending
    else .brokenPromise)
  else none

/-- The worker has run the tasks `done`, and the calls under way will come to what the current task
comes to. -/
structure WorkerAt (ls : List (Label ι E V)) (done : List (Work E V)) (q : TaskQueue E V) :
    Prop where
  popped : Channel.popped (acts ls) = done ++ q.worker.current
  finished : finished ls = done.map fun work => (work, work.task.outcome)
  caught : ∀ work ∈ done, work.submitted = true ∨ work.task.outcome.isOk = true
  unwound : ∀ work calls task, q.worker = .running work calls task →
    unwind calls task.outcome = work.task.outcome
  escaped : ∀ work, q.worker = .escaped work →
    work.submitted = false ∧ work.task.outcome.isOk = false
  numbered : Numbered (acts ls) q.nextId
  futures : ∀ t work ok, .push t work ok ∈ acts ls → q.futures work.id = expected done work ok
  unborn : ∀ id, q.nextId ≤ id → q.futures id = none
  drained : q.worker = .returned → .pop none ∈ acts ls

theorem workerAt_nil : WorkerAt ([] : List (Label ι E V)) [] {} where
  popped := rfl
  finished := rfl
  caught := fun _ h => absurd h List.not_mem_nil
  unwound := nofun
  escaped := nofun
  numbered := numbered_nil
  futures := fun _ _ _ h => absurd h List.not_mem_nil
  unborn := fun _ _ => rfl
  drained := nofun

section

variable {ls : List (Label ι E V)} {done : List (Work E V)} {q : TaskQueue E V}

/-- The tasks that left the queue were accepted. -/
theorem Run.fifo (h : Run {} ls q) :
    Channel.popped (acts ls) ++ q.channel.queue = Channel.accepted (acts ls) := h.channel.fifo

theorem Run.push_of_popped (h : Run {} ls q) {work : Work E V}
    (hwork : work ∈ Channel.popped (acts ls)) : ∃ t, .push t work true ∈ acts ls := by
  refine push_of_accepted ?_
  rw [← h.fifo]
  exact List.mem_append_left _ hwork

/-- A step that neither offers nor finishes a task. -/
theorem WorkerAt.other (h : WorkerAt ls done q) {l : Label ι E V} {q' : TaskQueue E V}
    (hact : ∀ act, l.act? = some act → act.accepted? = none ∧ ∀ t work ok, act ≠ .push t work ok)
    (hfinished : l.finished? = none) (hfutures : q'.futures = q.futures)
    (hnext : q'.nextId = q.nextId)
    (hpopped : q.worker.current ++ (l.act?.bind Channel.Act.popped?).toList = q'.worker.current)
    (hunwound : ∀ work calls task, q'.worker = .running work calls task →
      unwind calls task.outcome = work.task.outcome)
    (hescaped : ∀ work, q'.worker = .escaped work →
      work.submitted = false ∧ work.task.outcome.isOk = false)
    (hdrained : q'.worker = .returned → .pop none ∈ acts (ls ++ [l])) :
    WorkerAt (ls ++ [l]) done q' := by
  have hpush : ∀ t work ok, .push t work ok ∈ acts (ls ++ [l]) ↔ .push t work ok ∈ acts ls := by
    intro t work ok
    rw [acts_append, acts_single, List.mem_append, Option.mem_toList]
    constructor
    · rintro (hmem | hmem)
      · exact hmem
      · exact absurd rfl ((hact _ hmem).2 t work ok)
    · exact .inl
  have haccepted : Channel.accepted (acts (ls ++ [l])) = Channel.accepted (acts ls) := by
    rw [acts_append, acts_single]
    cases hl : l.act? with
    | none => rw [Option.toList_none, List.append_nil]
    | some act =>
      rw [Option.toList_some, Channel.accepted_snoc, (hact act hl).1, Option.toList_none,
        List.append_nil]
  have hpops : Channel.popped (acts (ls ++ [l])) =
      Channel.popped (acts ls) ++ (l.act?.bind Channel.Act.popped?).toList := by
    rw [acts_append, acts_single]
    cases l.act? with
    | none => exact (congrArg Channel.popped (List.append_nil _)).trans (List.append_nil _).symm
    | some act => exact Channel.popped_snoc (acts ls) act
  exact {
    popped := by rw [hpops, h.popped, List.append_assoc, hpopped]
    finished := by
      rw [finished_append, finished_single, hfinished, Option.toList_none, List.append_nil,
        h.finished]
    caught := h.caught
    unwound := hunwound
    escaped := hescaped
    numbered := hnext ▸ h.numbered.other hpush haccepted
    futures := fun t work ok hmem => hfutures ▸ h.futures t work ok ((hpush t work ok).1 hmem)
    unborn := fun id hid => hfutures ▸ h.unborn id (hnext ▸ hid)
    drained := hdrained }

/-- A task is offered. -/
theorem WorkerAt.offered (h : WorkerAt ls done q) (hrun : Run {} ls q) {t : ι}
    {submitted ok : Bool} {task : Task E V} {c : Channel (Work E V)} :
    WorkerAt (ls ++ [.channel (.push t ⟨q.nextId, submitted, task⟩ ok)]) done
      { q with channel := c, nextId := q.nextId + 1, futures := q.offer submitted ok } := by
  have hacts : acts (ls ++ [.channel (.push t ⟨q.nextId, submitted, task⟩ ok)]) =
      acts ls ++ [.push t ⟨q.nextId, submitted, task⟩ ok] := acts_append ls _
  have hfresh : q.nextId ∉ done.map Work.id := by
    intro hmem
    obtain ⟨work, hwork, hid⟩ := List.mem_map.1 hmem
    obtain ⟨t', hpush⟩ := hrun.push_of_popped (show work ∈ Channel.popped (acts ls) by
      rw [h.popped]
      exact List.mem_append_left _ hwork)
    have := h.numbered.below _ _ _ hpush
    omega
  have hold {id : ℕ} (hid : id ≠ q.nextId) : q.offer submitted ok id = q.futures id := by
    rw [offer]
    split
    · exact Function.update_of_ne hid _ _
    · rfl
  exact {
    popped := by
      rw [hacts, Channel.popped_snoc]
      exact (List.append_nil _).trans h.popped
    finished := (finished_append ls _).trans ((List.append_nil _).trans h.finished)
    caught := h.caught
    unwound := h.unwound
    escaped := h.escaped
    numbered := hacts ▸ h.numbered.push t _ ok rfl
    futures := by
      intro t' work ok' hmem
      rw [hacts] at hmem
      rcases List.mem_append.1 hmem with hmem | hmem
      · have := h.numbered.below _ _ _ hmem
        exact (hold (by omega)).trans (h.futures t' work ok' hmem)
      · cases List.mem_singleton.1 hmem
        cases submitted with
        | false => exact h.unborn _ (Nat.le_refl _)
        | true =>
          have hnew : q.offer true ok q.nextId =
              some (if ok then .pending else .brokenPromise) := Function.update_self ..
          simp only [expected, hnew, if_true, if_neg hfresh]
    unborn := by
      intro id hid
      have hid : q.nextId + 1 ≤ id := hid
      exact (hold (by omega)).trans (h.unborn id (by omega))
    drained := fun hw => hacts ▸ List.mem_append_left _ (h.drained hw) }

/-- A task came to its end. -/
theorem WorkerAt.ended (h : WorkerAt ls done q) (hrun : Run {} ls q) {work : Work E V}
    {r : Except E V} (hworker : q.worker = .running work [] (.ended r))
    (hcaught : work.submitted = true ∨ r.isOk = true) :
    WorkerAt (ls ++ [.finish work r]) (done ++ [work])
      { q with worker := .waiting, futures := q.settle work r } := by
  have hoffered : acts (ls ++ [.finish work r]) = acts ls :=
    (acts_append ls _).trans (List.append_nil _)
  have hr : r = work.task.outcome := by
    have := h.unwound work [] _ hworker
    rwa [unwind, Task.outcome_ended] at this
  have hpopped := h.popped
  rw [hworker] at hpopped
  obtain ⟨t, hpush⟩ := hrun.push_of_popped (show work ∈ Channel.popped (acts ls) by
    rw [hpopped]
    exact List.mem_append_right _ (List.mem_singleton.2 rfl))
  exact {
    popped := by
      rw [hoffered, hpopped]
      exact (List.append_nil _).symm
    finished := by
      rw [finished_append, h.finished, List.map_append, hr]
      rfl
    caught := by
      intro work' hmem
      rcases List.mem_append.1 hmem with hmem | hmem
      · exact h.caught work' hmem
      · rw [List.mem_singleton.1 hmem, ← hr]
        exact hcaught
    unwound := nofun
    escaped := nofun
    numbered := hoffered ▸ h.numbered
    futures := by
      intro t' work' ok' hmem
      rw [hoffered] at hmem
      by_cases hid : work'.id = work.id
      · obtain ⟨rfl, rfl⟩ := h.numbered.unique _ _ _ _ _ _ hmem hpush hid
        cases hsubmitted : work'.submitted with
        | false =>
          have hold := h.futures t' work' true hmem
          simp only [expected, hsubmitted, Bool.false_eq_true, if_false] at hold ⊢
          simpa only [settle, hsubmitted, Bool.false_eq_true, if_false] using hold
        | true =>
          have hin : work'.id ∈ (done ++ [work']).map Work.id := by simp
          simp only [expected, settle, hsubmitted, if_true, if_pos hin, Function.update_self, hr]
      · have hin : work'.id ∈ (done ++ [work]).map Work.id ↔ work'.id ∈ done.map Work.id := by
          simp [hid]
        have hold := h.futures t' work' ok' hmem
        have hsame : q.settle work r work'.id = q.futures work'.id := by
          rw [settle]
          split
          · exact Function.update_of_ne hid _ _
          · rfl
        simp only [expected, hin] at hold ⊢
        exact hsame.trans hold
    unborn := by
      intro id hid
      have hlt := h.numbered.below _ _ _ hpush
      have hid : q.nextId ≤ id := hid
      have hne : id ≠ work.id := by omega
      have hsame : q.settle work r id = q.futures id := by
        rw [settle]
        split
        · exact Function.update_of_ne hne _ _
        · rfl
      exact hsame.trans (h.unborn id hid)
    drained := nofun }

/-- **The worker invariant**, step by step. -/
theorem WorkerAt.step (h : WorkerAt ls done q) (hrun : Run {} ls q) {l : Label ι E V}
    {q' : TaskQueue E V} (hstep : Step q l q') : ∃ done', WorkerAt (ls ++ [l]) done' q' := by
  cases hstep with
  | push => exact ⟨done, h.offered hrun⟩
  | stop =>
    refine ⟨done, h.other ?_ rfl rfl rfl (List.append_nil _) h.unwound h.escaped fun hw => ?_⟩
    · rintro act ⟨⟩
      exact ⟨rfl, nofun⟩
    · rw [acts_append]
      exact List.mem_append_left _ (h.drained hw)
  | @pop work c hworker hpop =>
    refine ⟨done, h.other ?_ rfl rfl rfl ?_ ?_ nofun nofun⟩
    · rintro act ⟨⟩
      exact ⟨rfl, nofun⟩
    · rw [hworker]
      rfl
    · rintro _ _ _ ⟨⟩
      rfl
  | drained hworker hpop =>
    refine ⟨done, h.other ?_ rfl rfl rfl ?_ nofun nofun fun _ => ?_⟩
    · rintro act ⟨⟩
      exact ⟨rfl, nofun⟩
    · rw [hworker]
      rfl
    · rw [acts_append]
      exact List.mem_append_right _ (List.mem_singleton.2 rfl)
  | step hworker =>
    refine ⟨done, h.other nofun rfl rfl rfl ?_ ?_ nofun nofun⟩
    · rw [hworker]
      rfl
    · rintro _ _ _ ⟨⟩
      have hcurrent := h.unwound _ _ _ hworker
      exact hcurrent
  | enter hworker =>
    refine ⟨done, h.other nofun rfl rfl rfl ?_ ?_ nofun nofun⟩
    · rw [hworker]
      rfl
    · rintro _ _ _ ⟨⟩
      have hcurrent := h.unwound _ _ _ hworker
      exact hcurrent
  | leave hworker =>
    refine ⟨done, h.other nofun rfl rfl rfl ?_ ?_ nofun nofun⟩
    · rw [hworker]
      rfl
    · rintro _ _ _ ⟨⟩
      have := h.unwound _ _ _ hworker
      rwa [unwind, Task.outcome_ended] at this
  | finish hworker hcaught => exact ⟨_, h.ended hrun hworker hcaught⟩
  | escape hworker hposted =>
    refine ⟨done, h.other nofun rfl rfl rfl ?_ nofun ?_ nofun⟩
    · rw [hworker]
      rfl
    · rintro _ ⟨⟩
      refine ⟨hposted, ?_⟩
      rw [← h.unwound _ _ _ hworker]
      rfl

theorem Run.workerAt (h : Run {} ls q) : ∃ done, WorkerAt ls done q := by
  generalize hstart : ({} : TaskQueue E V) = q₀ at h
  induction h with
  | nil =>
    subst hstart
    exact ⟨[], workerAt_nil⟩
  | snoc hrun hstep ih =>
    subst hstart
    obtain ⟨done, hdone⟩ := ih
    exact hdone.step hrun hstep

end

/-! ## Running a task -/

/-- **The worker computes the outcome of a task**, under whatever calls are under way, and touches
nothing but its own stack. -/
theorem executes (task : Task E V) (q : TaskQueue E V) (work : Work E V)
    (calls : List (Except E V → Task E V)) (h : q.worker = .running work calls task) :
    ∃ ls : List (Label ι E V),
      Run q ls { q with worker := .running work calls (.ended task.outcome) } ∧
        ∀ l ∈ ls, l.inside = true := by
  induction task generalizing q calls with
  | ret | throw =>
    obtain ⟨channel, worker, nextId, futures⟩ := q
    cases h
    exact ⟨[], .nil _, fun _ hl => absurd hl List.not_mem_nil⟩
  | step rest ih =>
    obtain ⟨ls, hrun, hls⟩ := ih { q with worker := .running work calls rest } calls rfl
    exact ⟨.step :: ls, (Run.single (.step h)).trans hrun, by simpa using ⟨rfl, hls⟩⟩
  | invoke function rest ihf ihr =>
    obtain ⟨ls, hrun, hls⟩ := ihf { q with worker := .running work (rest :: calls) function }
      (rest :: calls) rfl
    obtain ⟨ls', hrun', hls'⟩ := ihr function.outcome
      { q with worker := .running work calls (rest function.outcome) } calls rfl
    refine ⟨.enter :: (ls ++ .leave :: ls'), (Run.single (.enter h)).trans (hrun.trans
      ((Run.single (.leave rfl)).trans hrun')), ?_⟩
    intro l hl
    rcases List.mem_cons.1 hl with rfl | hl
    · rfl
    · rcases List.mem_append.1 hl with hl | hl
      · exact hls l hl
      · rcases List.mem_cons.1 hl with rfl | hl
        · rfl
        · exact hls' l hl

/-- The calls under way come to their ends, too. -/
theorem unwinds (calls : List (Except E V → Task E V)) (task : Task E V) (q : TaskQueue E V)
    (work : Work E V) (h : q.worker = .running work calls task) :
    ∃ ls : List (Label ι E V),
      Run q ls { q with worker := .running work [] (.ended (unwind calls task.outcome)) } ∧
        ∀ l ∈ ls, l.inside = true := by
  induction calls generalizing q task with
  | nil => exact executes task q work [] h
  | cons rest calls ih =>
    obtain ⟨ls, hrun, hls⟩ := executes (ι := ι) task q work (rest :: calls) h
    obtain ⟨ls', hrun', hls'⟩ := ih (rest task.outcome)
      { q with worker := .running work calls (rest task.outcome) } rfl
    refine ⟨ls ++ .leave :: ls', hrun.trans ((Run.single (.leave rfl)).trans hrun'), ?_⟩
    intro l hl
    rcases List.mem_append.1 hl with hl | hl
    · exact hls l hl
    · rcases List.mem_cons.1 hl with rfl | hl
      · rfl
      · exact hls' l hl

/-- The worker's own steps, one after the other. -/
def WorkerRun (ι : Type*) (q q' : TaskQueue E V) : Prop :=
  ∃ ls : List (Label ι E V), Run q ls q' ∧ ∀ l ∈ ls, l.ofWorker = true

theorem WorkerRun.trans {q q' q'' : TaskQueue E V} (h : WorkerRun ι q q')
    (h' : WorkerRun ι q' q'') : WorkerRun ι q q'' := by
  obtain ⟨ls, hrun, hls⟩ := h
  obtain ⟨ls', hrun', hls'⟩ := h'
  refine ⟨ls ++ ls', hrun.trans hrun', fun l hl => ?_⟩
  exact (List.mem_append.1 hl).elim (hls l) (hls' l)

theorem WorkerRun.single {q q' : TaskQueue E V} {l : Label ι E V} (h : Step q l q')
    (hl : l.ofWorker = true) : WorkerRun ι q q' :=
  ⟨[l], .single h, fun l' hl' => by rwa [List.mem_singleton.1 hl']⟩

/-- A task whose exception is caught leaves the worker waiting. -/
theorem settles (q : TaskQueue E V) {work : Work E V} {calls : List (Except E V → Task E V)}
    {task : Task E V} (h : q.worker = .running work calls task)
    (hcaught : work.submitted = true ∨ (unwind calls task.outcome).isOk = true) :
    ∃ q', WorkerRun ι q q' ∧ q'.worker = .waiting ∧ q'.channel = q.channel := by
  obtain ⟨ls, hrun, hls⟩ := unwinds (ι := ι) calls task q work h
  have hworker : WorkerRun ι q _ := ⟨ls, hrun, fun l hl => by
    have hinside := hls l hl
    cases l with
    | step | enter | leave => rfl
    | channel | finish | escape => cases hinside⟩
  exact ⟨_, hworker.trans (.single (.finish rfl hcaught) rfl), rfl, rfl⟩

/-- The exceptions of the tasks still to be run are caught. -/
def Catches (works : List (Work E V)) : Prop :=
  ∀ work ∈ works, work.submitted = true ∨ work.task.outcome.isOk = true

/-- **A closed queue is worked off**, by the worker alone. -/
theorem drains (q : TaskQueue E V) (hclosed : q.channel.closed = true)
    (hqueue : Catches q.channel.queue)
    (hworker : q.worker = .waiting ∨ q.worker = .returned ∧ q.channel.queue = []) :
    ∃ q', WorkerRun ι q q' ∧ q'.worker = .returned := by
  generalize hq : q.channel.queue = queue at hqueue hworker
  induction queue generalizing q with
  | nil =>
    rcases hworker with hwaiting | ⟨hreturned, -⟩
    · have hpop : q.channel.pop = some (none, q.channel) := by
        rw [Channel.pop, hq]
        exact if_pos hclosed
      exact ⟨_, .single (.drained hwaiting hpop) rfl, rfl⟩
    · exact ⟨q, ⟨[], .nil q, fun _ hl => absurd hl List.not_mem_nil⟩, hreturned⟩
  | cons work queue ih =>
    have hwaiting : q.worker = .waiting := hworker.resolve_right fun h => List.cons_ne_nil _ _ h.2
    obtain ⟨hwork, hqueue⟩ := List.forall_mem_cons.1 hqueue
    have hpop : q.channel.pop = some (some work, { q.channel with queue }) := by
      rw [Channel.pop, hq]
    obtain ⟨q₁, hrun, hwaiting₁, hchannel⟩ := settles (ι := ι) { q with
      channel := { q.channel with queue }
      worker := .running work [] work.task } rfl hwork
    obtain ⟨q₂, hrest, hdone⟩ := ih q₁ (by rw [hchannel]; exact hclosed) (by rw [hchannel]) hqueue
      (.inl hwaiting₁)
    exact ⟨q₂, (WorkerRun.single (.pop hwaiting hpop) rfl).trans (hrun.trans hrest), hdone⟩

/-- The worker offers nothing. -/
theorem acts_ofWorker {ls : List (Label ι E V)} (h : ∀ l ∈ ls, l.ofWorker = true) :
    Channel.accepted (acts ls) = [] := by
  refine List.eq_nil_iff_forall_not_mem.2 fun work hwork => ?_
  obtain ⟨t, hmem⟩ := push_of_accepted hwork
  obtain ⟨l, hl, hact⟩ := List.mem_filterMap.1 hmem
  have hworker := h l hl
  cases l with
  | channel act =>
    cases hact
    cases hworker
  | step | enter | leave | finish | escape => cases hact

/-! ## The promise -/

section

variable {ls : List (Label ι E V)} {done : List (Work E V)} {q : TaskQueue E V}

theorem WorkerAt.done_eq (h : WorkerAt ls done q) (hrun : Run {} ls q)
    (hreturned : q.worker = .returned) : done = Channel.accepted (acts ls) := by
  have hqueue := (hrun.channel.drained (h.drained hreturned)).2
  have hpopped := h.popped
  rw [hreturned] at hpopped
  rw [← hrun.fifo, hqueue, List.append_nil, hpopped]
  exact (List.append_nil done).symm

/-- When `run` has returned, every accepted task was run and every future is ready. -/
theorem Run.returned (h : Run {} ls q) (hreturned : q.worker = .returned) :
    finished ls = (Channel.accepted (acts ls)).map (fun work => (work, work.task.outcome)) ∧
      ∀ id, q.futures id ≠ some .pending := by
  obtain ⟨done, hdone⟩ := h.workerAt
  have hall := hdone.done_eq h hreturned
  refine ⟨hall ▸ hdone.finished, fun id hpending => ?_⟩
  rcases Nat.lt_or_ge id q.nextId with hlt | hge
  · obtain ⟨t, work, ok, hpush, rfl⟩ := hdone.numbered.covers id hlt
    rw [hdone.futures t work ok hpush, expected] at hpending
    split at hpending
    · cases ok with
      | false => cases hpending
      | true =>
        have hin : work.id ∈ done.map Work.id :=
          List.mem_map_of_mem (hall ▸ accepted_of_push hpush)
        rw [if_pos rfl, if_pos hin] at hpending
        cases hpending
    · cases hpending
  · rw [hdone.unborn id hge] at hpending
    cases hpending

/-- The worker is not stopped by an exception while the posted tasks return. -/
theorem WorkerAt.not_escaped (h : WorkerAt ls done q) (hrun : Run {} ls q)
    (hposts : PostsReturn ls) (work : Work E V) : q.worker ≠ .escaped work := by
  intro hworker
  have hpopped := h.popped
  rw [hworker] at hpopped
  have haccepted : work ∈ Channel.accepted (acts ls) := by
    rw [← hrun.fifo, hpopped]
    exact List.mem_append_left _ (List.mem_append_right _ (List.mem_singleton.2 rfl))
  obtain ⟨hposted, hthrows⟩ := h.escaped work hworker
  rw [hposts work haccepted hposted] at hthrows
  cases hthrows

theorem PostsReturn.catches (h : PostsReturn ls) {works : List (Work E V)}
    (hworks : ∀ work ∈ works, work ∈ Channel.accepted (acts ls)) : Catches works := by
  intro work hwork
  cases hsubmitted : work.submitted with
  | true => exact .inl rfl
  | false => exact .inr (h work (hworks work hwork) hsubmitted)

/-- After the stop the worker comes to the end of `run`. -/
theorem Run.completes (h : Run {} ls q) (hposts : PostsReturn ls) (hclose : .close ∈ acts ls) :
    ∃ q', WorkerRun ι q q' ∧ q'.worker = .returned := by
  obtain ⟨done, hdone⟩ := h.workerAt
  have hclosed := h.channel.closed_iff.2 (.inr hclose)
  have hqueue : Catches q.channel.queue := by
    refine hposts.catches fun work hwork => ?_
    rw [← h.fifo]
    exact List.mem_append_right _ hwork
  cases hworker : q.worker with
  | waiting => exact drains q hclosed hqueue (.inl hworker)
  | returned =>
    exact drains q hclosed hqueue (.inr ⟨hworker, (h.channel.drained (hdone.drained hworker)).2⟩)
  | escaped work => exact absurd hworker (hdone.not_escaped h hposts work)
  | running work calls task =>
    have hpopped := hdone.popped
    rw [hworker] at hpopped
    have hcaught : Catches [work] := by
      refine hposts.catches fun work' hwork => ?_
      rw [← h.fifo, hpopped]
      exact List.mem_append_left _ (List.mem_append_right _ hwork)
    obtain ⟨q₁, hrun, hwaiting, hchannel⟩ := settles (ι := ι) q hworker
      (hdone.unwound _ _ _ hworker ▸ hcaught work (List.mem_singleton.2 rfl))
    obtain ⟨q₂, hrest, hreturned⟩ := drains (ι := ι) q₁ (by rw [hchannel]; exact hclosed)
      (by rw [hchannel]; exact hqueue) (.inl hwaiting)
    exact ⟨q₂, hrun.trans hrest, hreturned⟩

/-- **Every task is served**, in every run whose posted tasks return. -/
theorem served (h : Run {} ls q) (hposts : PostsReturn ls) : Served ls q := by
  obtain ⟨done, hdone⟩ := h.workerAt
  exact {
    inOrder := ⟨done, hdone.popped, ⟨_, h.fifo⟩, hdone.finished⟩
    once := hdone.numbered.nodup
    results := by
      intro work hwork hsubmitted
      obtain ⟨t, hpush⟩ := push_of_accepted hwork
      rw [hdone.futures t work true hpush, expected, if_pos hsubmitted, if_pos rfl]
      split
      · exact .inl rfl
      · rename_i hnot
        refine .inr ⟨rfl, fun hmem => hnot ?_⟩
        rw [hdone.finished, List.map_map] at hmem
        obtain ⟨work', hwork', rfl⟩ := List.mem_map.1 hmem
        exact List.mem_map_of_mem hwork'
    rejected := by
      intro t work hpush
      refine ⟨fun hmem => ?_, fun hsubmitted => ?_⟩
      · obtain ⟨work', hwork', hid⟩ := List.mem_map.1 hmem
        obtain ⟨t', hpush'⟩ := h.push_of_popped hwork'
        cases (hdone.numbered.unique _ _ _ _ _ _ hpush' hpush hid).2
      · rw [hdone.futures t work false hpush, expected, if_pos hsubmitted]
        rfl
    opened := by
      intro hopen
      refine h.channel.accepts ?_
      rw [← Bool.not_eq_true, h.channel.closed_iff, not_or]
      exact ⟨nofun, hopen⟩
    stopped := by
      intro before after hacts hfirst
      have hrun := h.channel
      rw [hacts] at hrun ⊢
      exact hrun.around_close hfirst rfl
    returned := h.returned
    nested := by
      intro work calls task hworker
      obtain ⟨ls', hrun, hinside⟩ := unwinds (ι := ι) calls task q work hworker
      exact ⟨ls', _, hrun, hinside⟩
    completes := by
      intro hclose
      obtain ⟨q', ⟨ls', hrun, hls'⟩, hreturned⟩ := h.completes hposts hclose
      have haccepted : Channel.accepted (acts (ls ++ ls')) = Channel.accepted (acts ls) := by
        rw [acts_append, Channel.accepted, List.filterMap_append]
        exact (congrArg (Channel.accepted (acts ls) ++ ·) (acts_ofWorker hls')).trans
          (List.append_nil _)
      exact ⟨ls', q', hrun, hls', hreturned, haccepted ▸ ((h.trans hrun).returned hreturned).1⟩ }

/-- A worker that comes to the end of `run` has met no exception of a posted task. -/
theorem postsReturn_of_served (h : Run {} ls q) (hclose : .close ∈ acts ls) (hs : Served ls q) :
    PostsReturn ls := by
  obtain ⟨ls', q', hrun, hls', hreturned, -⟩ := hs.completes hclose
  obtain ⟨done, hdone⟩ := (h.trans hrun).workerAt
  have hall := hdone.done_eq (h.trans hrun) hreturned
  intro work hwork hposted
  have hmem : work ∈ done := by
    rw [hall, acts_append, Channel.accepted, List.filterMap_append]
    exact List.mem_append_left _ hwork
  exact (hdone.caught work hmem).resolve_left (by rw [hposted]; exact Bool.false_ne_true)

/-- **When the task queue keeps its promise**: in every run whose posted tasks return, and in no
run that stops the queue after accepting a posted task that throws. -/
theorem served_iff (h : Run {} ls q) :
    (PostsReturn ls → Served ls q) ∧ (.close ∈ acts ls → (Served ls q ↔ PostsReturn ls)) :=
  ⟨served h, fun hclose => ⟨postsReturn_of_served h hclose, served h⟩⟩

end

/-- One task is offered, then the queue is stopped. -/
def offerAndStop (submitted : Bool) (task : Task E V) : List (Label Unit E V) :=
  [.channel (.push () ⟨0, submitted, task⟩ true), .channel .close]

theorem run_offerAndStop (submitted : Bool) (task : Task E V) :
    ∃ q, Run {} (offerAndStop submitted task) q :=
  ⟨_, .snoc (.snoc (.nil _) (.push rfl)) .stop⟩

/-- A submitted task that invokes a call which invokes another, and catches what it throws. -/
def nestedTask : Task String ℕ :=
  .invoke (.invoke (.throw "no session") fun r => if r.isOk then .ret 0 else .ret 1) .ended

/-- A posted task. -/
def postedTask : Task String ℕ := .step (.ret 7)

/-- The first task is submitted, the second is posted while it runs. -/
def nestedRun : List (Label Unit String ℕ) :=
  [.channel (.push () ⟨0, true, nestedTask⟩ true), .channel (.pop (some ⟨0, true, nestedTask⟩)),
    .enter, .enter, .channel (.push () ⟨1, false, postedTask⟩ true), .leave, .leave,
    .finish ⟨0, true, nestedTask⟩ (.ok 1), .channel (.pop (some ⟨1, false, postedTask⟩)), .step,
    .finish ⟨1, false, postedTask⟩ (.ok 7), .channel .close, .channel (.pop none)]

theorem nestedRun_run : ∃ q : TaskQueue String ℕ, Run {} nestedRun q ∧ q.worker = .returned := by
  have h := Run.snoc (.nil ({} : TaskQueue String ℕ))
    (@Step.push _ _ _ _ () true true nestedTask _ rfl)
  have h := Run.snoc h (.pop rfl rfl)
  have h := Run.snoc h (.enter rfl)
  have h := Run.snoc h (.enter rfl)
  obtain ⟨f, h⟩ : ∃ f, Run {} (nestedRun.take 4) ⟨{}, .running ⟨0, true, nestedTask⟩
      [fun r => if r.isOk then .ret 0 else .ret 1, .ended] (.throw "no session"), 1, f⟩ := ⟨_, h⟩
  have h := Run.snoc h (@Step.push _ _ _ _ () false true postedTask _ rfl)
  -- the inner call throws, and the outer one catches it
  have h := Run.snoc h (@Step.leave _ _ _ _ _ _ _ (.error "no session") rfl)
  have h := Run.snoc h (@Step.leave _ _ _ _ _ _ _ (.ok 1) rfl)
  have h := Run.snoc h (@Step.finish _ _ _ _ _ (.ok 1) rfl (.inl rfl))
  obtain ⟨f, h⟩ : ∃ f, Run {} (nestedRun.take 8)
      ⟨{ queue := [⟨1, false, postedTask⟩] }, .waiting, 2, f⟩ := ⟨_, h⟩
  have h := Run.snoc h (.pop rfl rfl)
  have h := Run.snoc h (.step rfl)
  have h := Run.snoc h (@Step.finish _ _ _ _ _ (.ok 7) rfl (.inr rfl))
  have h := Run.snoc h .stop
  exact ⟨_, Run.snoc h (.drained rfl rfl), rfl⟩

/-- Both tasks run to their end. -/
theorem nested_served : ∃ q : TaskQueue String ℕ, Run {} nestedRun q ∧ q.worker = .returned ∧
    finished nestedRun = [(⟨0, true, nestedTask⟩, .ok 1), (⟨1, false, postedTask⟩, .ok 7)] ∧
      Served nestedRun q := by
  obtain ⟨q, hrun, hreturned⟩ := nestedRun_run
  refine ⟨q, hrun, hreturned, rfl, (served_iff hrun).1 fun work hwork hposted => ?_⟩
  rcases List.mem_cons.1 hwork with rfl | hwork
  · cases hposted
  · obtain rfl := List.mem_singleton.1 hwork
    rfl

/-- A posted task that throws ends the worker. -/
theorem throwing_post_not_served : ∃ q : TaskQueue String ℕ,
    Run {} (offerAndStop false (.throw "boom")) q ∧
      ¬ Served (offerAndStop false (.throw "boom")) q := by
  obtain ⟨q, h⟩ := run_offerAndStop false (.throw "boom" : Task String ℕ)
  refine ⟨q, h, fun hs => ?_⟩
  have hclose : Channel.Act.close ∈ acts (offerAndStop false (.throw "boom" : Task String ℕ)) :=
    List.mem_cons_of_mem _ (List.mem_singleton.2 rfl)
  have hreturns := postsReturn_of_served h hclose hs
  cases hreturns ⟨0, false, .throw "boom"⟩ (List.mem_singleton.2 rfl) rfl

end TaskQueue

end DapDbgeng
