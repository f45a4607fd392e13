/-
  No run gets stuck.

  For every run of the adapter:

  * `engine_on_dispatcher`: who may be in the engine;
  * `one_wait_loop`, `wait_loop_joined`: when a wait loop is started, and that it is joined;
  * `no_deadlock`: while a thread is busy, one of them can go on, or the one that is served waits
    for the engine to report an event.

  A thread that cannot go on otherwise waits for the dispatcher, the gate, the wait loop or a
  callback, and whoever it waits for does not wait for it.
-/
import DapDbgeng.TurnJobs

namespace DapDbgeng

open Concurrent Concurrent.Prog Control

/-! ## Who is in the engine -/

/-- The operations that go to the engine, the interrupt apart. -/
def DapOp.inEngine : ∀ {β : Type}, DapOp β → Bool
  | _, .call _ f => !f.isInterrupt
  | _, .enter .. | _, .leave .. => true
  | _, _ => false

/-- A call that has begun. -/
def DapOp.pending : ∀ {β : Type}, DapOp β → Bool
  | _, .leave .. => true
  | _, _ => false

/-- The thread is the one that the dispatcher serves, or the callback inside its pending call. -/
def OnDispatcher (t : Tid) (s : Server) : Prop :=
  if t = .callback then s.inCall.isSome = true ∧ s.holder.isSome = true else s.holder = some t

theorem onDispatcher_of_need {t : Tid} {β : Type} {o : DapOp β} {s : Server} (hi : s.control.Inv)
    (ho : o.inEngine = true) (hn : o.need t s.control) : OnDispatcher t s := by
  unfold OnDispatcher
  cases o with
  | call id f =>
    have hserves : Serves t s.control := hn.2.resolve_left fun h => by
      rw [DapOp.inEngine, h] at ho
      cases ho
    unfold Serves at hserves
    split at hserves
    · rename_i ht
      have hc := hi.active hserves
      rw [if_pos ht]
      exact ⟨hc, hi.inCall hc⟩
    · rename_i ht
      rw [if_neg ht]
      exact hserves.1
  | enter id f =>
    obtain ⟨ht, -, -, hserves⟩ := hn
    rw [Serves, if_neg ht] at hserves
    rw [if_neg ht]
    exact hserves.1
  | leave id f =>
    obtain ⟨ht, -, -, hh, -⟩ := hn
    rw [if_neg ht]
    exact hh
  | _ => cases ho

/-- Inside a callback, the thread that the dispatcher serves waits for its pending call. -/
theorem pending_of_need {t : Tid} {β : Type} {o : DapOp β} {s : Server} (ho : o.inEngine = true)
    (ht : t ≠ .callback) (hc : s.inCall.isSome = true) (hn : o.need t s.control) :
    o.pending = true := by
  have busy : s.control.inCall ≠ none := fun h => by
    rw [show s.inCall = none from h] at hc
    cases hc
  cases o with
  | call id f =>
    have hserves : Serves t s.control := hn.2.resolve_left fun h => by
      rw [DapOp.inEngine, h] at ho
      cases ho
    rw [Serves, if_neg ht] at hserves
    exact absurd hserves.2 busy
  | enter id f =>
    obtain ⟨-, -, -, hserves⟩ := hn
    rw [Serves, if_neg ht] at hserves
    exact absurd hserves.2 busy
  | leave => rfl
  | _ => cases ho

section

variable {fullPath : String → String} {ls : List Lab} {c : Conf}
  (hr : adapter.system.Run (.init { fullPath }) ls c)
include hr

/-- **The engine is used from the dispatcher thread**: a thread that comes to an engine call other
than the interrupt is the one being served, or the callback inside its pending call; and no two
threads come to such calls at once, the callback and the one it interrupts apart. -/
theorem engine_on_dispatcher {t : Tid} {j : Job} {β : Type} {o : DapOp β} {k : β → Dap Bool}
    (ht : c.threads t = some (j, .op o k)) (ho : o.inEngine = true) :
    OnDispatcher t c.state ∧ ∀ (u : Tid) (j' : Job) (γ : Type) (o' : DapOp γ) (k' : γ → Dap Bool),
      c.threads u = some (j', .op o' k') → o'.inEngine = true → u ≠ t →
        t = .callback ∧ o'.pending = true ∨ u = .callback ∧ o.pending = true := by
  have hv := turns_valid fullPath
  have hi : c.state.control.Inv := (Demands.sound hv hr).inv
  have hn : o.need t c.state.control := Demands.need_of_run hv hr ht
  have hd := onDispatcher_of_need hi ho hn
  refine ⟨hd, fun u j' γ o' k' hu ho' hut => ?_⟩
  have hn' : o'.need u c.state.control := Demands.need_of_run hv hr hu
  have hd' := onDispatcher_of_need hi ho' hn'
  unfold OnDispatcher at hd hd'
  by_cases htc : t = .callback
  · rw [if_pos htc] at hd
    exact .inl ⟨htc, pending_of_need ho' (fun h => hut (h.trans htc.symm)) hd.1 hn'⟩
  · by_cases huc : u = .callback
    · rw [if_pos huc] at hd'
      exact .inr ⟨huc, pending_of_need ho htc hd'.1 hn⟩
    · rw [if_neg htc] at hd
      rw [if_neg huc, hd] at hd'
      exact absurd (Option.some.inj hd').symm hut

end

/-- The threads that are about to use the engine. -/
def usesEngine (c : Conf) (t : Tid) : Bool :=
  match c.threads t with
  | some (_, .op o _) => o.inEngine
  | _ => false

theorem exists_of_usesEngine {c : Conf} {t : Tid} (h : usesEngine c t = true) :
    ∃ (j : Job) (β : Type) (o : DapOp β) (k : β → Dap Bool),
      c.threads t = some (j, .op o k) ∧ o.inEngine = true := by
  unfold usesEngine at h
  split at h
  · rename_i j β o k hb
    exact ⟨j, β, o, k, hb, h⟩
  · cases h

/-- A breakpoint is hit while the wait loop waits for an event: both are in the engine. -/
theorem engine_on_dispatcher_breakpoint : ∃ (ls : List Lab) (c : Conf) (j : Job) (β : Type)
    (o : DapOp β) (k : β → Dap Bool), adapter.system.Run (.init {}) ls c ∧
      c.threads .callback = some (j, .op o k) ∧ usesEngine c .loop = true ∧
      OnDispatcher .callback c.state := by
  obtain ⟨c, ⟨ls, hr⟩, -, htest⟩ := reachable_of_exec
    (Schedule.launchAndPark ++ [.start .callback (.callback 0 .breakpoint [(0, 100)] 0)])
    (fun c => usesEngine c .callback && usesEngine c .loop) (by decide +kernel)
  obtain ⟨hcallback, hloop⟩ := Bool.and_eq_true_iff.1 htest
  obtain ⟨j, β, o, k, busy, ho⟩ := exists_of_usesEngine hcallback
  exact ⟨ls, c, j, β, o, k, hr, busy, hloop, (@engine_on_dispatcher _ ls c hr _ _ _ _ _ busy ho).1⟩

/-! ## The wait loop -/

theorem sem_loop {t : Tid} {β : Type} {o : DapOp β} {b : β} {s s' : Server}
    (h : sem t β o s b s') (hl : s.loop ≠ .idle) : s'.loop ≠ .idle := by
  cases o with
  | spawnLoop id =>
    rw [sem_spawnLoop.1 h]
    rintro ⟨⟩
  | enter id f =>
    obtain ⟨_, -, -, -, rfl⟩ := sem_enter.1 h
    exact hl
  | leave id f =>
    obtain ⟨-, -, _, _, -, rfl⟩ := sem_leave h
    exact hl
  | acquire =>
    obtain ⟨_, -, -, rfl⟩ := sem_acquire.1 h
    exact hl
  | lockGate =>
    obtain ⟨-, rfl⟩ := sem_lockGate.1 h
    exact hl
  | joinLoop =>
    obtain ⟨-, rfl⟩ := sem_joinLoop.1 h
    exact hl
  | call id f =>
    obtain ⟨_, _, -, -, rfl⟩ := sem_call h
    exact hl
  | send m =>
    rw [sem_send.1 h]
    split <;> exact hl
  | _ =>
    obtain ⟨_, h⟩ := h
    cases h
    exact hl

open Server in
theorem startJob_loop {t : Tid} {j : Job} {s s' : Server} (h : startJob t j s = some s') :
    s'.loop = s.loop ∧ (t = .loop → s.loop ≠ .idle) := by
  have ht := startJob_thread h
  cases j with
  | callback id event threads current =>
    obtain ⟨-, rfl⟩ := startJob_callback h
    exact ⟨rfl, fun hl => by cases hl.symm.trans ht⟩
  | loopCondition id | loopBody id | loopEnd =>
    subst ht
    simp only [startJob, Job.thread, Option.ite_none_right_eq_some, Option.some.injEq] at h
    exact ⟨by rw [h.2], fun _ => by rw [h.1]; rintro ⟨⟩⟩
  | request | teardown | pump =>
    obtain ⟨_, _, _, rfl, -⟩ := startJob_of_ne (by rintro ⟨⟩) h
    exact ⟨rfl, fun hl => by cases hl.symm.trans ht⟩

open Server in
theorem finishJob_loop {j : Job} {r : Except Exn Bool} {s s' : Server} (hj : j.thread ≠ .loop)
    (h : finishJob j r s = some s') : s'.loop = s.loop := by
  cases j with
  | callback id event threads current => rw [finishJob_callback h]
  | request root =>
    cases r with
    | ok exit => cases exit <;> (cases h; rfl)
    | error e => cases h
  | teardown | pump => cases r <;> cases h; rfl
  | _ => exact absurd rfl hj

/-- No operation begins or ends a callback. -/
theorem sem_callbackActive {t : Tid} {β : Type} {o : DapOp β} {b : β} {s s' : Server}
    (h : sem t β o s b s') : s'.callbackActive = s.callbackActive := by
  cases o with
  | enter id f =>
    obtain ⟨_, -, -, -, rfl⟩ := sem_enter.1 h
    rfl
  | leave id f =>
    obtain ⟨-, -, _, _, -, rfl⟩ := sem_leave h
    rfl
  | acquire =>
    obtain ⟨_, -, -, rfl⟩ := sem_acquire.1 h
    rfl
  | lockGate =>
    obtain ⟨-, rfl⟩ := sem_lockGate.1 h
    rfl
  | joinLoop =>
    obtain ⟨-, rfl⟩ := sem_joinLoop.1 h
    rfl
  | call id f =>
    obtain ⟨_, _, -, -, rfl⟩ := sem_call h
    rfl
  | send m =>
    rw [sem_send.1 h]
    split <;> rfl
  | _ =>
    obtain ⟨_, h⟩ := h
    cases h
    rfl

/-- What the state shows of a busy thread. -/
def Shows (t : Tid) (s : Server) : Prop :=
  (t = .loop → s.loop ≠ .idle) ∧ (t = .callback → s.callbackActive = true)

open Server in
theorem startJob_shows {t : Tid} {j : Job} {s s' : Server} (h : startJob t j s = some s') :
    Shows t s' ∧ ∀ u, u ≠ t → Shows u s → Shows u s' := by
  obtain ⟨heq, hloop⟩ := startJob_loop h
  have ht := startJob_thread h
  by_cases hj : j.thread = .callback
  · cases j with
    | callback id event threads current =>
      obtain ⟨-, hs⟩ := startJob_callback h
      have hactive : s'.callbackActive = true := by rw [hs]
      exact ⟨⟨fun hl => heq ▸ hloop hl, fun _ => hactive⟩, fun u _ hu =>
        ⟨fun hl => heq ▸ hu.1 hl, fun _ => hactive⟩⟩
    | _ => cases hj
  · obtain ⟨_, _, _, hs, -⟩ := startJob_of_ne hj h
    have hactive : s'.callbackActive = s.callbackActive := by rw [hs]
    exact ⟨⟨fun hl => heq ▸ hloop hl, fun hc => absurd (ht.symm.trans hc) hj⟩, fun u _ hu =>
      ⟨fun hl => heq ▸ hu.1 hl, fun hc => hactive ▸ hu.2 hc⟩⟩

open Server in
theorem finishJob_shows {j : Job} {r : Except Exn Bool} {s s' : Server} {u : Tid}
    (h : finishJob j r s = some s') (hu : u ≠ j.thread) (hs : Shows u s) : Shows u s' := by
  refine ⟨fun hl => ?_, fun hc => ?_⟩
  · rw [finishJob_loop (fun ht => hu (hl.trans ht.symm)) h]
    exact hs.1 hl
  · obtain ⟨_, _, rfl⟩ := finishJob_of_ne (fun ht => hu (hc.trans ht.symm)) h
    exact hs.2 hc

/-- A busy thread runs a job of its own, the wait-loop thread is between its start and its end, and
a callback is active. -/
theorem busy_of_run {s₀ : Server} {ls : List Lab} {c : Conf}
    (hr : adapter.system.Run (.init s₀) ls c) : ∀ t j p, c.threads t = some (j, p) →
      t = j.thread ∧ Shows t c.state := by
  -- a thread that does not move keeps its job, and the state goes on showing it
  have others {c : Conf} {t : Tid} {s' : Server} {th : Option (Job × Prog DapOp Exn Bool)}
      (ih : ∀ t j p, c.threads t = some (j, p) → t = j.thread ∧ Shows t c.state)
      (hshows : ∀ u, u ≠ t → Shows u c.state → Shows u s')
      (hth : ∀ j p, th = some (j, p) → t = j.thread ∧ Shows t s') :
      ∀ u j p, (c.set t s' th).threads u = some (j, p) →
        u = j.thread ∧ Shows u (c.set t s' th).state := by
    intro u j p hu
    by_cases h : u = t
    · subst h
      rw [Config.set_threads_self] at hu
      exact hth j p hu
    · rw [Config.set_threads_of_ne _ h] at hu
      exact ⟨(ih u j p hu).1, hshows u h (ih u j p hu).2⟩
  induction hr with
  | nil => intro t j p h; cases h
  | snoc _ hs ih =>
    cases hs with
    | @start t j s' idle h =>
      refine others ih (startJob_shows h).2 fun j' p hjp => ?_
      cases hjp
      exact ⟨Server.startJob_thread h, (startJob_shows h).1⟩
    | @op t j s' β o k b busy h =>
      have kept (u : Tid) (hu : Shows u _) : Shows u s' :=
        ⟨fun hl => sem_loop h (hu.1 hl), fun hc => (sem_callbackActive h).trans (hu.2 hc)⟩
      refine others ih (fun u _ => kept u) fun j' p hjp => ?_
      cases hjp
      obtain ⟨hthread, hshows⟩ := ih t j _ busy
      exact ⟨hthread, kept t hshows⟩
    | @finish t j p r s' busy hout h =>
      obtain ⟨hthread, -⟩ := ih t j p busy
      exact others ih (fun u hu => finishJob_shows h (hthread ▸ hu)) fun j' p hjp => by cases hjp

section

variable {fullPath : String → String} {ls : List Lab} {c : Conf}
  (hr : adapter.system.Run (.init { fullPath }) ls c)
include hr

/-- **One wait loop at a time**: where a wait loop is started, the gate is held, and no wait loop is
running or waits to be joined. -/
theorem one_wait_loop {t : Tid} {j : Job} {id : SessionId} {k : Unit → Dap Bool}
    (busy : c.threads t = some (j, .op (.spawnLoop id) k)) :
    t = .request ∧ c.state.gate = some .request ∧ c.state.loopJoinable = false ∧
      c.state.loop = .idle ∧ c.threads .loop = none := by
  have hn : (DapOp.spawnLoop id).need t c.state.control :=
    Demands.need_of_run (turns_valid fullPath) hr busy
  obtain ⟨ht, -, hg, hl, hj, -⟩ := hn
  refine ⟨ht, ht ▸ hg, hj, hl, ?_⟩
  cases hloop : c.threads .loop with
  | none => rfl
  | some job => exact absurd hl ((busy_of_run hr .loop job.1 job.2 hloop).2.1 rfl)

/-- **The wait loop is joined**: when the server is gone, no wait loop is running or waits to be
joined. -/
theorem wait_loop_joined (hm : c.state.mode = .gone) (hidle : c.threads .request = none) :
    c.state.loop = .idle ∧ c.state.loopJoinable = false ∧ c.threads .loop = none := by
  have hrest : Resting .request c.state.control :=
    (Demands.sound (turns_valid fullPath) hr).rest .request hidle
  obtain ⟨hl, hj⟩ := hrest.2.2 hm
  refine ⟨hl, hj, ?_⟩
  cases hloop : c.threads .loop with
  | none => rfl
  | some job => exact absurd hl ((busy_of_run hr .loop job.1 job.2 hloop).2.1 rfl)

end

def startsLoop (c : Conf) : Bool :=
  match c.threads .request with
  | some (_, .op (.spawnLoop _) _) => true
  | _ => false

/-- configurationDone starts the wait loop of a launched target. -/
theorem one_wait_loop_launched : ∃ (ls : List Lab) (c : Conf) (j : Job) (id : SessionId)
    (k : Unit → Dap Bool), adapter.system.Run (.init {}) ls c ∧
      c.threads .request = some (j, .op (.spawnLoop id) k) ∧ c.threads .loop = none := by
  obtain ⟨c, ⟨ls, hr⟩, -, htest⟩ := reachable_of_exec
    (Schedule.launch ++ Schedule.enter .request
      (.request (Schedule.message 2 "configurationDone")) 24) startsLoop (by decide +kernel)
  unfold startsLoop at htest
  split at htest
  · rename_i j id k busy
    exact ⟨ls, c, j, id, k, hr, busy, (@one_wait_loop _ ls c hr _ _ _ _ busy).2.2.2.2⟩
  · cases htest

/-- The target of a running wait loop is given up, and the wait loop is joined. -/
theorem wait_loop_joined_running : ∃ (ls : List Lab) (c : Conf),
    adapter.system.Run (.init {}) ls c ∧ c.state.mode = .gone ∧
      c.state.loop = .idle ∧ c.state.loopJoinable = false ∧ c.threads .loop = none := by
  obtain ⟨c, ⟨ls, hr⟩, -, htest⟩ := reachable_of_exec
    (Schedule.launchAndPark ++ Schedule.enter .request .teardown 100 ++ Schedule.leave .loop ++
      [.ops .request 100 {}] ++ Schedule.run .loop (.loopCondition 0) ++
      Schedule.run .loop .loopEnd ++ Schedule.leave .request)
    (fun c => c.state.mode = .gone && (c.threads .request).isNone) (by decide +kernel)
  obtain ⟨hm, hidle⟩ := Bool.and_eq_true_iff.1 htest
  have hm := of_decide_eq_true hm
  have hidle := Option.isNone_iff_eq_none.1 hidle
  exact ⟨ls, c, hr, hm, @wait_loop_joined _ ls c hr hm hidle⟩

/-! ## Progress -/

/-- The end of a wait for an event, which the engine may put off for ever. -/
def DapOp.awaitsEvent : ∀ {β : Type}, DapOp β → Prop
  | _, .leave _ .waitForEvent => True
  | _, _ => False

/-- The operation can be performed now, and does not wait for an event. -/
def DapOp.Ready (t : Tid) (s : Server) : ∀ {β : Type}, DapOp β → Prop
  | _, .enter _ f => f.pump?.isSome = true ∧ s.inCall = none ∧ s.holder = some t
  | _, .leave id f => s.inCall = f.pump?.map (fun p => (id, p)) ∧ s.callbackActive = false ∧
    f.pump? ≠ some .wait
  | _, .acquire => s.queue.head? = some t ∧ s.holder = none
  | _, .lockGate => s.gate = none
  | _, .joinLoop => s.loop = .idle
  | _, _ => True

theorem Call.default_admissible {β : Type} (f : Call β) (e : EngineState) :
    f.admissible (f.default e) e = true ∧ Call.mayCreate [] e f = true := by
  cases f with
  | execute command =>
    refine ⟨rfl, ?_⟩
    rw [Call.mayCreate]
    split <;> rfl
  | numberThreads | threadIdsByIndex | currentThreadId => exact ⟨decide_eq_true rfl, rfl⟩
  | threadIdBySystemId systemId =>
    refine ⟨?_, rfl⟩
    rw [Call.default]
    split
    · rename_i p hp
      have hsystem : p.2 = systemId := by simpa using List.find?_some hp
      exact List.contains_iff_mem.2 (hsystem ▸ List.mem_of_find?_eq_some hp)
    · rfl
  | setCurrentThreadId id =>
    refine ⟨?_, rfl⟩
    rw [Call.default]
    split
    · rename_i h
      exact h
    · rfl
  | visibleBreakpointIds => exact ⟨List.isSublist_iff_sublist.2 (List.Sublist.refl _), rfl⟩
  | _ => exact ⟨rfl, rfl⟩

theorem step_of_ready {t : Tid} {β : Type} {o : DapOp β} {s : Server} (h : o.Ready t s) :
    ∃ b s', sem t β o s b s' := by
  have answered {β : Type} (id : SessionId) (f : Call β) (s : Server) :
      ∃ r, applyCall {} id f s = some r := by
    have hf := f.default_admissible (s.engine id)
    exact ⟨_, if_pos (Bool.and_eq_true_iff.2 hf)⟩
  cases o with
  | call id f =>
    obtain ⟨r, hr⟩ := answered id f s
    exact ⟨r.1, r.2, {}, hr⟩
  | enter id f =>
    obtain ⟨hp, hc, hh⟩ := h
    obtain ⟨p, hp⟩ := Option.isSome_iff_exists.1 hp
    exact ⟨(), _, sem_enter.2 ⟨p, hp, hc, hh, rfl⟩⟩
  | leave id f =>
    obtain ⟨r, hr⟩ := answered id f { s with inCall := none }
    refine ⟨r.1, r.2, {}, ?_⟩
    exact (if_pos ⟨h.1, h.2.1⟩).trans hr
  | acquire =>
    obtain ⟨hq, hh⟩ := h
    obtain ⟨rest, hq⟩ := List.head?_eq_some_iff.1 hq
    exact ⟨(), _, sem_acquire.2 ⟨rest, hq, hh, rfl⟩⟩
  | lockGate => exact ⟨(), _, sem_lockGate.2 ⟨h, rfl⟩⟩
  | joinLoop => exact ⟨(), _, sem_joinLoop.2 ⟨h, rfl⟩⟩
  | _ => exact ⟨_, _, {}, rfl⟩

/-- Why a thread cannot go on. -/
inductive Waits (t : Tid) (c : Control) : Prop
  /-- The dispatcher does not serve it yet. -/
  | turn (hq : t ∈ c.queue) (hn : ¬(c.queue.head? = some t ∧ c.holder = none))
  | gate (ha : Uninvolved t c) (ht : t = .request ∨ t = .loop ∧ c.waitLoopActive = true)
      (hg : c.gate ≠ none)
  | join (ht : t = .request) (hq : t ∉ c.queue) (hh : c.holder ≠ some t)
      (hg : c.gate = some t → c.waitLoopActive = false) (hl : c.loop ≠ .idle)
  /-- The engine has not returned from a callback. -/
  | callback (hh : c.holder = some t) (ha : c.callbackActive = true)

/-- The thread is served, and waits for the engine to report an event. -/
def AwaitsEvent (t : Tid) (p : Dap Bool) (s : Server) : Prop :=
  s.holder = some t ∧ s.callbackActive = false ∧
    ∃ (id : SessionId) (k : Reply Unit → Dap Bool), p = .op (.leave id .waitForEvent) k

theorem wait_of_pump {β : Type} {f : Call β} (h : f.pump? = some .wait) (id : SessionId)
    (k : β → Dap Bool) :
    ∃ k', (Prog.op (.leave id f) k : Dap Bool) = .op (.leave id .waitForEvent) k' := by
  cases f with
  | waitForEvent => exact ⟨k, rfl⟩
  | execute command => cases command <;> cases h
  | _ => cases h

theorem ready_or_waits {t : Tid} {β : Type} {o : DapOp β} {k : β → Dap Bool} {s : Server}
    (hn : o.need t s.control) :
    o.Ready t s ∨ Waits t s.control ∨ AwaitsEvent t (.op o k) s := by
  cases o with
  | enter id f =>
    obtain ⟨ht, -, hp, hserves⟩ := hn
    rw [Serves, if_neg ht] at hserves
    exact .inl ⟨hp, hserves.2, hserves.1⟩
  | leave id f =>
    obtain ⟨-, -, -, hh, hc⟩ := hn
    by_cases ha : s.callbackActive = true
    · exact .inr (.inl (.callback hh ha))
    have ha := Bool.eq_false_iff.2 ha
    by_cases hw : f.pump? = some .wait
    · exact .inr (.inr ⟨hh, ha, id, wait_of_pump hw id k⟩)
    · exact .inl ⟨hc, ha, hw⟩
  | acquire => exact (Classical.em _).imp id fun hr => .inl (.turn hn.1 hr)
  | lockGate => exact (Classical.em (s.gate = none)).imp id fun hg => .inl (.gate hn.1 hn.2 hg)
  | joinLoop =>
    obtain ⟨ht, hq, hh, hg⟩ := hn
    exact (Classical.em (s.loop = .idle)).imp id fun hl => .inl (.join ht hq hh hg hl)
  | _ => exact .inl trivial

/-- A job that may end does, unless an exception leaves a callback. -/
theorem finish_of_ended {t : Tid} {j : Job} {r : Except Exn Bool} {s : Server}
    (h : Ended t j r s.control) (hr : t = .callback → r.isOk = true) :
    ∃ s', Server.finishJob j r s = some s' := by
  have ok (hok : r.isOk = true) : ∃ s', Server.finishJob j r s = some s' := by
    cases r with
    | error e => cases hok
    | ok b => cases j <;> exact ⟨_, rfl⟩
  cases t with
  | request =>
    cases j with
    | request | teardown => exact ok h.1
    | _ => exact h.elim
  | loop =>
    cases j with
    | loopCondition | loopEnd => exact ok h.1
    | loopBody => cases r <;> exact ⟨_, rfl⟩
    | _ => exact h.elim
  | callback => exact ok (hr rfl)
  | pump =>
    cases j with
    | pump => exact ok h.1
    | _ => exact h.elim

/-- The steps by which what has begun goes on: those of busy threads, but for the end of a wait for
an event, and the phases of the wait loop. -/
def GoesOn : Lab → Prop
  | .start t _ => t = .loop
  | .op _ e => ¬e.op.awaitsEvent
  | .finish .. => True

theorem DapOp.Ready.goesOn {t : Tid} {s : Server} {β : Type} {o : DapOp β} (h : o.Ready t s) :
    ¬o.awaitsEvent := by
  cases o with
  | leave id f =>
    cases f with
    | waitForEvent => exact absurd rfl h.2.2
    | _ => exact not_false
  | _ => exact not_false

section

variable {c : Conf}

/-- A busy thread goes on or waits. -/
theorem goes_on_or_waits (h : Demands.Holds adapter.system turns c) {t : Tid} {j : Job}
    {p : Dap Bool} (busy : c.threads t = some (j, p))
    (hcallback : t = .callback → ∀ e, p ≠ .throw e) :
    (∃ l c', GoesOn l ∧ adapter.system.Step c l c') ∨ Waits t c.state.control ∨
      AwaitsEvent t p c.state := by
  have hsafe := h.safe t j p busy c.state (turns.rely_refl t c.state) h.inv
  have ends {r : Except Exn Bool} (hp : p.outcome? = some r) (hr : t = .callback → r.isOk = true) :
      ∃ l c', GoesOn l ∧ adapter.system.Step c l c' := by
    have hpost : Ended t j r c.state.control := Demands.wp_outcome hp hsafe
    obtain ⟨s', hs'⟩ := finish_of_ended hpost hr
    refine ⟨_, _, ?_, .finish busy hp hs'⟩
    trivial
  cases p with
  | ret b => exact .inl (ends rfl fun _ => rfl)
  | throw e => exact .inl (ends rfl fun ht => absurd rfl (hcallback ht e))
  | op o k =>
    have hneed : o.need t c.state.control := hsafe.1 h.inv
    refine (ready_or_waits hneed).imp_left fun hready => ?_
    obtain ⟨b, s', hs'⟩ := step_of_ready hready
    refine ⟨.op t ⟨o, b⟩, _, ?_, .op busy hs'⟩
    exact hready.goesOn

/-- The wait-loop thread has a next job as long as it is there. -/
theorem loop_starts (hidle : c.threads .loop = none) (hl : c.state.loop ≠ .idle) :
    ∃ l c', GoesOn l ∧ adapter.system.Step c l c' := by
  have started {j : Job} (h : Server.startJob .loop j c.state = some c.state) :
      ∃ l c', GoesOn l ∧ adapter.system.Step c l c' := by
    refine ⟨_, _, ?_, .start hidle h⟩
    rfl
  cases hphase : c.state.loop with
  | idle => exact absurd hphase hl
  | check id => exact started (j := .loopCondition id) (if_pos hphase)
  | body id => exact started (j := .loopBody id) (if_pos hphase)
  | leaving => exact started (j := .loopEnd) (if_pos hphase)

end

/-- Every busy thread waits, and the others rest; a wait loop that is due has begun. -/
structure Stuck (busy : Tid → Prop) (c : Control) : Prop where
  inv : c.Inv
  waits : ∀ t, busy t → Waits t c
  rests : ∀ t, ¬busy t → Resting t c
  begun : ¬busy .loop → c.loop = .idle

namespace Stuck

variable {busy : Tid → Prop} {c : Control} (h : Stuck busy c)
include h

theorem uninvolved {t : Tid} (ht : t ≠ .callback) (hn : ¬busy t) : Uninvolved t c := by
  have hrest := h.rests t hn
  cases t with
  | request => exact hrest.1
  | loop => exact hrest.1
  | callback => exact absurd rfl ht
  | pump => exact hrest

/-- No callback is running: it would wait for nobody. -/
theorem callbackActive : c.callbackActive = false := by
  by_cases hb : busy .callback
  · rcases h.waits .callback hb with ⟨hq, -⟩ | ⟨-, ht, -⟩ | ⟨ht, -, -, -, -⟩ | ⟨hh, -⟩
    · exact absurd hq h.inv.queued
    · rcases ht with ht | ⟨ht, -⟩ <;> cases ht
    · cases ht
    · exact absurd hh h.inv.held
  · exact h.rests .callback hb

/-- The thread that is served would go on. -/
theorem holder : c.holder = none := by
  by_contra hh
  obtain ⟨t, hh⟩ := Option.ne_none_iff_exists'.1 hh
  have ht : t ≠ .callback := fun ht => h.inv.held (ht ▸ hh)
  by_cases hb : busy t
  · rcases h.waits t hb with ⟨hq, -⟩ | ⟨ha, -, -⟩ | ⟨-, -, hh', -, -⟩ | ⟨-, ha⟩
    · exact h.inv.unqueued t hh hq
    · exact ha.holder hh
    · exact hh' hh
    · cases h.callbackActive.symm.trans ha
  · exact (h.uninvolved ht hb).holder hh

/-- The next one in the queue would be served. -/
theorem queue : c.queue = [] := by
  cases hq : c.queue with
  | nil => rfl
  | cons t rest =>
    have hmem : t ∈ c.queue := hq ▸ List.mem_cons_self
    have ht : t ≠ .callback := fun ht => h.inv.queued (ht ▸ hmem)
    by_cases hb : busy t
    · rcases h.waits t hb with ⟨-, hn⟩ | ⟨ha, -, -⟩ | ⟨-, hq', -, -, -⟩ | ⟨hh, -⟩
      · exact absurd ⟨by rw [hq]; rfl, h.holder⟩ hn
      · exact absurd hmem ha.queue
      · exact absurd hmem hq'
      · cases h.holder.symm.trans hh
    · exact absurd hmem (h.uninvolved ht hb).queue

theorem unqueued (t : Tid) : t ∉ c.queue := by
  rw [h.queue]
  rintro ⟨⟩

/-- A wait loop that is being joined does not wait for the gate. -/
theorem loop (hg : c.gate = none ∨ c.waitLoopActive = false) : c.loop = .idle := by
  by_cases hb : busy .loop
  · rcases h.waits .loop hb with ⟨hq, -⟩ | ⟨-, ht, hg'⟩ | ⟨ht, -, -, -, -⟩ | ⟨hh, -⟩
    · exact absurd hq (h.unqueued .loop)
    · rcases hg with hg | hw
      · exact absurd hg hg'
      · rcases ht with ht | ⟨-, hw'⟩
        · cases ht
        · cases hw.symm.trans hw'
    · cases ht
    · cases h.holder.symm.trans hh
  · exact h.begun hb

/-- Whoever has the gate would go on. -/
theorem gate : c.gate = none := by
  by_contra hg
  obtain ⟨t, hg⟩ := Option.ne_none_iff_exists'.1 hg
  have ht : t ≠ .callback := by
    rintro rfl
    rcases h.inv.gate _ hg with ht | ht <;> cases ht
  by_cases hb : busy t
  · rcases h.waits t hb with ⟨hq, -⟩ | ⟨ha, -, -⟩ | ⟨-, -, -, hw, hl⟩ | ⟨hh, -⟩
    · exact h.unqueued t hq
    · exact ha.gate hg
    · exact hl (h.loop (.inr (hw hg)))
    · cases h.holder.symm.trans hh
  · exact (h.uninvolved ht hb).gate hg

/-- Nobody is left to wait. -/
theorem not_busy (t : Tid) : ¬busy t := by
  intro hb
  rcases h.waits t hb with ⟨hq, -⟩ | ⟨-, -, hg⟩ | ⟨-, -, -, -, hl⟩ | ⟨hh, -⟩
  · exact h.unqueued t hq
  · exact hg h.gate
  · exact hl (h.loop (.inl h.gate))
  · cases h.holder.symm.trans hh

end Stuck

/-- **No run gets stuck**: as long as a thread is busy, one of the threads goes on, or the one that
is served waits for the engine to report an event, unless an exception leaves an engine callback. -/
theorem no_deadlock {fullPath : String → String} {ls : List Lab} {c : Conf}
    (hr : adapter.system.Run (.init { fullPath }) ls c)
    (hcallback : ∀ j e, c.threads .callback ≠ some (j, .throw e))
    {t : Tid} (busy : c.threads t ≠ none) :
    (∃ l c', GoesOn l ∧ adapter.system.Step c l c') ∨
      ∃ u j p, c.threads u = some (j, p) ∧ AwaitsEvent u p c.state := by
  by_contra hneither
  obtain ⟨hstuck, hawaits⟩ := not_or.1 hneither
  have h : Demands.Holds adapter.system turns c := Demands.sound (turns_valid fullPath) hr
  have stuck : Stuck (fun t => c.threads t ≠ none) c.state.control := by
    refine ⟨h.inv, fun t hb => ?_, fun t hn => h.rest t (not_not.1 hn), fun hn => ?_⟩
    · obtain ⟨⟨j, p⟩, hb⟩ := Option.ne_none_iff_exists'.1 hb
      rcases goes_on_or_waits h hb fun ht e hp => by subst ht hp; exact hcallback j e hb with
        hgoes | hwaits | hevent
      · exact absurd hgoes hstuck
      · exact hwaits
      · exact absurd ⟨t, j, p, hb, hevent⟩ hawaits
    · by_contra hl
      exact hstuck (loop_starts (not_not.1 hn) hl)
  exact stuck.not_busy t busy

/-- A breakpoint is hit while the wait loop waits for an event, and its callback goes on. -/
theorem no_deadlock_breakpoint : ∃ (ls : List Lab) (c : Conf), adapter.system.Run (.init {}) ls c ∧
    c.state.callbackActive = true ∧ ∃ l c', GoesOn l ∧ adapter.system.Step c l c' := by
  obtain ⟨c, ⟨ls, hr⟩, -, htest⟩ := reachable_of_exec
    (Schedule.launchAndPark ++ [.start .callback (.callback 0 .breakpoint [(0, 100)] 0)])
    (fun c => usesEngine c .callback && c.state.callbackActive) (by decide +kernel)
  obtain ⟨hcallback, hactive⟩ := Bool.and_eq_true_iff.1 htest
  obtain ⟨j, β, o, k, busy, -⟩ := exists_of_usesEngine hcallback
  refine ⟨ls, c, hr, hactive, (@no_deadlock _ ls c hr (fun j e => ?_) .callback ?_).resolve_right ?_⟩
  · rw [busy]
    rintro ⟨⟩
  · rw [busy]
    rintro ⟨⟩
  · rintro ⟨u, j, p, -, -, hfree, -⟩
    cases hactive.symm.trans hfree

end DapDbgeng
