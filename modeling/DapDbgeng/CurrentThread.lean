/-
  The current thread of the engine, over the requests that inspect the target or assign to it.

  Several of these requests work on another thread.  They ask for the current thread, select the
  other one, and select the first one again at the end.

  * `selectionSteps`: the steps of a request, with what happens to the current thread;
  * `Touch`, `Does`: what a request does with the thread, however it ends;
  * `Inspection`: a request served at a stop, from its beginning to its end;
  * `Inspection.kept_iff`: when the current thread is the same after it.
-/
import DapDbgeng.Inspection
import DapDbgeng.Machine
import DapDbgeng.Memory
import DapDbgeng.Semantics

namespace DapDbgeng

open Concurrent Concurrent.Prog

/-! ## What happens to the thread -/

/-- A call about threads fails. -/
def Call.failsOnThreads : ∀ {β : Type}, Call β → β → Bool
  | _, .numberThreads, r => !r.isOk
  | _, .threadIdsByIndex _, r => !r.isOk
  | _, .currentThreadId, r => !r.isOk
  | _, .threadIdBySystemId _, r => !r.isOk
  | _, .setCurrentThreadId _, r => !r.isOk
  | _, _, _ => false

/-- The call selects a thread. -/
def Call.selected : ∀ {β : Type}, Call β → β → Bool
  | _, .setCurrentThreadId _, r => r.isOk
  | _, _, _ => false

/-- The call runs a command of the client. -/
def Call.isRaw : ∀ {β : Type}, Call β → Bool
  | _, .execute (.raw _) => true
  | _, _ => false

/-- What a request has done with the current thread so far. -/
structure SelectionLog where
  /-- A thread was selected. -/
  selected : Bool := false
  /-- After the last selection a call about threads failed. -/
  failed : Bool := false
  /-- A command of the client left another thread current. -/
  strayed : Bool := false

def SelectionLog.record {β : Type} (c : Call β) (b : β) (e e' : EngineState) (log : SelectionLog) :
    SelectionLog where
  selected := log.selected || c.selected b
  failed := !c.selected b && (log.failed || log.selected && c.failsOnThreads b)
  strayed := log.strayed || c.isRaw && e'.current != e.current

def DapOp.selectionLog {β : Type} (o : DapOp β) (b : β) (s s' : Server) (log : SelectionLog) :
    SelectionLog :=
  match o, b with
  | .call i c, b | .leave i c, b => log.record c b (s.engine i) (s'.engine i)
  | _, _ => log

/-- The operation runs a command of the client. -/
def DapOp.isRaw : ∀ {β : Type}, DapOp β → Bool
  | _, .call _ c | _, .leave _ c => c.isRaw
  | _, _ => false

/-- The steps of the request thread while the target is halted: the commands of the client neither
start nor end a thread. -/
def selectionSteps : StepRel DapOp (Server × SelectionLog) := fun β o p b p' =>
  sem .request β o p.1 b p'.1 ∧ p'.2 = o.selectionLog b p.1 p'.1 p.2 ∧
    (o.isRaw = true → ∀ id, (p'.1.engine id).threads = (p.1.engine id).threads)

/-! ## The view -/

/-- The session is for a kernel target; the threads of its engine, each with its system id; the
current one. -/
structure SelectionView where
  kernel : Bool
  threads : List (Nat × Nat)
  current : Nat
  log : SelectionLog

namespace SelectionView

def systemIds (v : SelectionView) : List Nat := v.threads.map Prod.snd

/-- The thread that is selected by a system id. -/
def selectedBy (v : SelectionView) (systemId : Nat) : Option Nat :=
  if v.kernel then v.systemIds.findIdx? (· = systemId)
  else (v.threads.find? fun p => p.2 = systemId).map Prod.fst

/-- After an answer about threads. -/
def asked (v : SelectionView) (ok : Bool) : SelectionView :=
  { v with log := { v.log with failed := v.log.failed || v.log.selected && !ok } }

def select (v : SelectionView) (n : Nat) : SelectionView :=
  { v with current := n, log := { selected := true, failed := false, strayed := v.log.strayed } }

/-- After a command of the client. -/
def ran (v : SelectionView) (current : Nat) : SelectionView :=
  { v with
    current
    log := { v.log with strayed := v.log.strayed || current != v.current } }

structure At (id : SessionId) (v : SelectionView) (p : Server × SelectionLog) : Prop where
  session : p.1.session = some id
  alive : (p.1.sessions id).disposed = false
  kernel : v.kernel = (p.1.sessions id).isKernel
  threads : v.threads = (p.1.sessions id).engine.threads
  current : v.current = (p.1.sessions id).engine.current
  log : v.log = p.2

end SelectionView

/-- What a call of the requests does. -/
def selectionCallPre : ∀ {β : Type}, Call β → (β → SelectionView → Prop) → SelectionView → Prop
  | _, .numberThreads => fun K v =>
    ∀ r : Reply Nat, (∀ n, r = .ok n → n = v.threads.length) → K r (v.asked r.isOk)
  | _, .threadIdsByIndex _ => fun K v =>
    ∀ r : Reply (List Nat), (∀ ids, r = .ok ids → ids = v.systemIds) → K r (v.asked r.isOk)
  | _, .currentThreadId => fun K v =>
    ∀ r : Reply Nat, (∀ n, r = .ok n → n = v.current) → K r (v.asked r.isOk)
  | _, .threadIdBySystemId systemId => fun K v =>
    ∀ r : Reply Nat, (∀ n, r = .ok n → (n, systemId) ∈ v.threads) → K r (v.asked r.isOk)
  | _, .setCurrentThreadId n => fun K v =>
    (∀ hr, K (.error hr) (v.asked false)) ∧ K (.ok ()) (v.select n)
  | _, .execute (.raw _) => fun K v => ∀ r current, K r (v.ran current)
  | _, .execute (.condition _) => fun _ _ => False
  | _, _ => fun K v => ∀ b, K b v

theorem selectionCallPre_mono {β : Type} (c : Call β) {K K' : β → SelectionView → Prop}
    (hK : ∀ b v, K b v → K' b v) {v : SelectionView} (h : selectionCallPre c K v) :
    selectionCallPre c K' v := by
  cases c with
  | numberThreads | threadIdsByIndex | currentThreadId | threadIdBySystemId =>
    exact fun r hr => hK _ _ (h r hr)
  | setCurrentThreadId => exact ⟨fun hr => hK _ _ (h.1 hr), hK _ _ h.2⟩
  | execute command =>
    cases command with
    | raw => exact fun r current => hK _ _ (h r current)
    | condition => exact h
    | _ => exact fun b => hK _ _ (h b)
  | _ => exact fun b => hK _ _ (h b)

def selectionPre (id : SessionId) :
    ∀ {β : Type}, DapOp β → (β → SelectionView → Prop) → SelectionView → Prop
  | _, .session => fun K v => K (some id) v
  | _, .setSession _ | _, .takeSession | _, .newSession => fun _ _ => False
  | _, .readSession i => fun K v => ∀ x : Session,
    (i = id → x.disposed = false ∧ x.isKernel = v.kernel) → K x v
  | _, .updateSession _ (.beginCapture _) | _, .updateSession _ (.appendCapture _)
  | _, .updateSession _ .endCapture => fun K v => K () v
  | _, .updateSession .. => fun _ _ => False
  | _, .call i c | _, .leave i c => fun K v => i = id ∧ selectionCallPre c K v
  | _, _ => fun K v => ∀ b, K b v

def selectionSpec (id : SessionId) : Spec DapOp SelectionView where
  pre := selectionPre id
  mono o K K' hK v h := by
    cases o with
    | session => exact hK _ _ h
    | setSession | takeSession | newSession => exact h
    | readSession => exact fun x hx => hK _ _ (h x hx)
    | updateSession i u => cases u <;> first | exact h | exact hK _ _ h
    | call i c => exact ⟨h.1, selectionCallPre_mono c hK h.2⟩
    | leave i c => exact ⟨h.1, selectionCallPre_mono c hK h.2⟩
    | _ => exact fun b => hK _ _ (h b)

/-- One call. -/
theorem selectionCallPre_step {β : Type} {c : Call β} {K : β → SelectionView → Prop}
    {v : SelectionView}
    {e e' : EngineState} {b : β} {created : List Int} {after : EngineState → EngineState}
    (hthreads : v.threads = e.threads) (hcurrent : v.current = e.current)
    (hb : c.admissible b e = true) (he' : e' = c.effect created after b e)
    (hraw : c.isRaw = true → e'.threads = e.threads) (h : selectionCallPre c K v) :
    K b { v with
      threads := e'.threads, current := e'.current, log := v.log.record c b e e' } := by
  rcases v with ⟨kernel, threads, current, log⟩
  dsimp only at hthreads hcurrent
  subst hthreads hcurrent he'
  -- a command of the adapter itself leaves the threads alone
  have executed (command : Command) (r : ExecuteResult) :
      (Call.executed command r created e).threads = e.threads ∧
        (Call.executed command r created e).current = e.current := by
    rcases r with ⟨status | status, output⟩ <;> cases command <;> exact ⟨rfl, rfl⟩
  cases c with
  | numberThreads =>
    have h := h b fun n hn => by simpa [hn, Call.admissible] using hb
    simpa [SelectionLog.record, SelectionView.asked, Call.selected, Call.failsOnThreads, Call.isRaw,
      Call.effect] using h
  | threadIdsByIndex count =>
    have h := h b fun ids hids => by
      subst hids
      exact of_decide_eq_true hb
    simpa [SelectionLog.record, SelectionView.asked, Call.selected, Call.failsOnThreads, Call.isRaw,
      Call.effect] using h
  | currentThreadId =>
    have h := h b fun n hn => by simpa [hn, Call.admissible] using hb
    simpa [SelectionLog.record, SelectionView.asked, Call.selected, Call.failsOnThreads, Call.isRaw,
      Call.effect] using h
  | threadIdBySystemId systemId =>
    have h := h b fun n hn => by simpa [hn, Call.admissible] using hb
    simpa [SelectionLog.record, SelectionView.asked, Call.selected, Call.failsOnThreads, Call.isRaw,
      Call.effect] using h
  | setCurrentThreadId n =>
    cases b with
    | error hr =>
      simpa [SelectionLog.record, SelectionView.asked, Call.selected, Call.failsOnThreads,
        Call.isRaw, Call.effect, Except.isOk, Except.toBool] using h.1 hr
    | ok u =>
      simpa [SelectionLog.record, SelectionView.select, Call.selected, Call.failsOnThreads,
        Call.isRaw, Call.effect, Except.isOk, Except.toBool] using h.2
  | execute command =>
    have plain (h : K b ⟨kernel, e.threads, e.current, log⟩)
        (hc : (Call.execute command).isRaw = false) : K b ⟨kernel,
          (Call.executed command b created e).threads, (Call.executed command b created e).current,
            log.record (Call.execute command) b e (Call.executed command b created e)⟩ := by
      rw [(executed command b).1, (executed command b).2]
      simpa [SelectionLog.record, Call.selected, Call.failsOnThreads, hc] using h
    cases command with
    | raw text =>
      have hkept : (after e).threads = e.threads := hraw rfl
      simpa [SelectionLog.record, SelectionView.ran, Call.selected, Call.failsOnThreads, Call.isRaw,
        Call.effect, hkept] using h b (after e).current
    | condition => exact h.elim
    | _ => exact plain (h b) rfl
  | createProcess | attachProcess | attachKernel | openDumpFile | detachProcesses =>
    cases b <;> simpa [SelectionLog.record, Call.selected, Call.failsOnThreads, Call.isRaw,
      Call.effect] using h _
  | _ =>
    simpa [SelectionLog.record, Call.selected, Call.failsOnThreads, Call.isRaw, Call.effect]
      using h b

namespace SelectionView.At

variable {id : SessionId} {v : SelectionView} {s : Server} {log : SelectionLog}

/-- An update of a session object that the view does not show. -/
theorem modifySession (h : v.At id (s, log)) (i : SessionId) {f : Session → Session}
    (hd : ∀ x : Session, (f x).disposed = x.disposed)
    (hk : ∀ x : Session, (f x).isKernel = x.isKernel)
    (he : ∀ x : Session, (f x).engine = x.engine) : v.At id (s.modifySession i f, log) := by
  by_cases hi : id = i
  · subst hi
    exact { h with
      alive := by rw [Server.modifySession_sessions, if_pos rfl, hd]; exact h.alive
      kernel := by rw [Server.modifySession_sessions, if_pos rfl, hk]; exact h.kernel
      threads := by rw [Server.modifySession_sessions, if_pos rfl, he]; exact h.threads
      current := by rw [Server.modifySession_sessions, if_pos rfl, he]; exact h.current }
  · exact { h with
      alive := by rw [Server.modifySession_sessions, if_neg hi]; exact h.alive
      kernel := by rw [Server.modifySession_sessions, if_neg hi]; exact h.kernel
      threads := by rw [Server.modifySession_sessions, if_neg hi]; exact h.threads
      current := by rw [Server.modifySession_sessions, if_neg hi]; exact h.current }

theorem updateEngine (h : v.At id (s, log)) (f : EngineState → EngineState) (log' : SelectionLog) :
    SelectionView.At id { v with
      threads := (f (s.engine id)).threads, current := (f (s.engine id)).current, log := log' }
        (s.updateEngine id f, log') where
  session := h.session
  alive := by rw [Server.updateEngine_sessions, if_pos rfl]; exact h.alive
  kernel := by rw [Server.updateEngine_sessions, if_pos rfl]; exact h.kernel
  threads := by rw [Server.updateEngine_sessions, if_pos rfl]
  current := by rw [Server.updateEngine_sessions, if_pos rfl]
  log := rfl

end SelectionView.At

/-- One step of the request thread. -/
theorem selectionPre_step {id : SessionId} {β : Type} (o : DapOp β) {K : β → SelectionView → Prop}
    {v : SelectionView} {p p' : Server × SelectionLog} {b : β} (hv : v.At id p)
    (hw : (selectionSpec id).pre o K v) (h : selectionSteps β o p b p') :
    ∃ v' : SelectionView, v'.At id p' ∧ K b v' := by
  rcases p with ⟨s, log⟩
  rcases p' with ⟨s', log'⟩
  obtain ⟨hsem, hlog, hraw⟩ := h
  dsimp only at hsem hlog hraw
  obtain rfl : v.log = log := hv.log
  subst hlog
  cases o with
  | session =>
    obtain ⟨rfl, rfl⟩ := sem_session.1 hsem
    exact ⟨v, hv, hv.session ▸ hw⟩
  | readSession i =>
    obtain ⟨rfl, rfl⟩ := sem_readSession.1 hsem
    exact ⟨v, hv, hw _ fun hi => hi ▸ ⟨hv.alive, hv.kernel.symm⟩⟩
  | updateSession i u =>
    rw [sem_updateSession.1 hsem]
    refine ⟨v, ?_, ?_⟩
    · cases u with
      | beginCapture | appendCapture | endCapture =>
        exact hv.modifySession i (fun _ => rfl) (fun _ => rfl) fun _ => rfl
      | _ => exact hw.elim
    · cases u <;> first | exact hw | exact hw.elim
  | call i c =>
    obtain ⟨rfl, hK⟩ := hw
    obtain ⟨created, after, hb, -, rfl⟩ := sem_call hsem
    have hengine : (s.updateEngine i (c.effect created after b)).engine i =
        c.effect created after b (s.engine i) := by rw [Server.updateEngine_engine, if_pos rfl]
    refine ⟨_, hv.updateEngine (c.effect created after b) _, ?_⟩
    rw [← hengine]
    exact selectionCallPre_step hv.threads hv.current hb hengine (fun hc => hraw hc i) hK
  | leave i c =>
    obtain ⟨rfl, hK⟩ := hw
    obtain ⟨-, -, created, after, hb, rfl⟩ := sem_leave hsem
    have left : v.At i ({ s with inCall := none }, v.log) := { hv with }
    have hengine : (({ s with inCall := none } : Server).updateEngine i
        (c.effect created after b)).engine i =
          c.effect created after b (({ s with inCall := none } : Server).engine i) := by
      rw [Server.updateEngine_engine, if_pos rfl]
    refine ⟨_, left.updateEngine (c.effect created after b) _, ?_⟩
    rw [← hengine]
    exact selectionCallPre_step left.threads left.current hb hengine (fun hc => hraw hc i) hK
  | enter i c =>
    obtain ⟨_, -, -, -, rfl⟩ := sem_enter.1 hsem
    exact ⟨v, { hv with }, hw _⟩
  | send m =>
    rw [sem_send.1 hsem]
    exact ⟨v, by split <;> exact { hv with }, hw _⟩
  | lockGate => obtain ⟨-, rfl⟩ := sem_lockGate.1 hsem; exact ⟨v, { hv with }, hw _⟩
  | joinLoop => obtain ⟨-, rfl⟩ := sem_joinLoop.1 hsem; exact ⟨v, { hv with }, hw _⟩
  | acquire => obtain ⟨_, -, -, rfl⟩ := sem_acquire.1 hsem; exact ⟨v, { hv with }, hw _⟩
  | setSession | takeSession | newSession => exact hw.elim
  | _ => obtain ⟨_, hsem⟩ := hsem; cases hsem; exact ⟨v, { hv with }, hw _⟩

/-! ## Asking and selecting -/

namespace SelectionView

variable {v : SelectionView}

@[simp] theorem asked_true : v.asked true = v := by simp [asked]

/-- As long as nothing is selected, failures do not matter. -/
theorem asked_of_unselected (h : v.log.selected = false) (ok : Bool) : v.asked ok = v := by
  rcases v with ⟨kernel, threads, current, selected, failed, strayed⟩
  cases h
  simp [asked]

/-- The system ids name threads. -/
def Named (v : SelectionView) : Prop := v.kernel = true ∨ v.systemIds.Nodup

theorem selectedBy_of_mem (h : v.systemIds.Nodup) (hk : v.kernel = false) {n systemId : Nat}
    (hn : (n, systemId) ∈ v.threads) : v.selectedBy systemId = some n := by
  rw [selectedBy, hk, if_neg Bool.false_ne_true]
  cases hfind : v.threads.find? fun p => p.2 = systemId with
  | none =>
    have hnot := List.find?_eq_none.1 hfind _ hn
    simp at hnot
  | some p =>
    have hp := List.find?_some hfind
    have heq : p = (n, systemId) :=
      List.inj_on_of_nodup_map h (List.mem_of_find?_eq_some hfind) hn (of_decide_eq_true hp)
    rw [heq]
    rfl

end SelectionView

section

variable {id : SessionId} {v : SelectionView} {α : Type}

namespace Session

theorem throwIfDisposed_thread {Q : Unit → SelectionView → Prop} {E : Exn → SelectionView → Prop}
    (hQ : Q () v) : (throwIfDisposed id).wp (selectionSpec id) Q E v := by
  intro x hx
  change (if x.disposed = true then _ else _ : Dap Unit).wp _ _ _ _
  rw [if_neg (by simp [(hx rfl).1])]
  exact hQ

theorem checkHr_thread {r : Reply α} {message : String} {Q : α → SelectionView → Prop}
    {E : Exn → SelectionView → Prop} (hQ : ∀ a, r = .ok a → Q a v)
    (hE : ∀ hr, r = .error hr → ∀ e, E e v) : (checkHr r message).wp (selectionSpec id) Q E v := by
  cases r with
  | ok a => exact hQ a rfl
  | error hr => exact hE hr rfl _

theorem call_thread {β : Type} {c : Call β} {f : β → Dap α} {Q : α → SelectionView → Prop}
    {E : Exn → SelectionView → Prop}
    (h : selectionCallPre c (fun b => (f b).wp (selectionSpec id) Q E) v) :
    ((call id c).bind f).wp (selectionSpec id) Q E v := ⟨rfl, h⟩

theorem readThreadIds_thread {Q : List Nat → SelectionView → Prop} {E : Exn → SelectionView → Prop}
    (hQ : Q v.systemIds v) (hE : ∀ e, E e (v.asked false)) :
    (readThreadIds id).wp (selectionSpec id) Q E v := by
  refine call_thread fun r hr => ?_
  dsimp only
  rw [bind_eq, wp_bind]
  refine checkHr_thread (fun n hn => ?_) fun hr hn => by subst hn; exact hE
  subst hn
  rw [Except.isOk, Except.toBool, SelectionView.asked_true]
  by_cases hzero : n = 0
  · have hnil : v.systemIds = [] := by
      rw [SelectionView.systemIds, List.eq_nil_of_length_eq_zero ((hr n rfl).symm.trans hzero)]
      rfl
    rw [if_pos hzero]
    rwa [hnil] at hQ
  · rw [if_neg hzero]
    refine call_thread fun r hr => checkHr_thread (fun ids hids => ?_) fun hr hids => ?_
    · subst hids
      rw [Except.isOk, Except.toBool, SelectionView.asked_true, hr ids rfl]
      exact hQ
    · subst hids
      exact hE

theorem getCurrentThreadId_thread {Q : Nat → SelectionView → Prop} {E : Exn → SelectionView → Prop}
    (hv : v.log.selected = false) (hQ : ∀ x, v.systemIds[v.current]? = some x → Q x v)
    (hE : ∀ e, E e v) : (getCurrentThreadId id).wp (selectionSpec id) Q E v := by
  rw [getCurrentThreadId, bind_eq, wp_bind]
  refine throwIfDisposed_thread (call_thread fun r hr => ?_)
  dsimp only
  rw [SelectionView.asked_of_unselected hv, bind_eq, wp_bind]
  refine checkHr_thread (fun n hn => ?_) fun _ _ => hE
  rw [bind_eq, wp_bind, hr n hn]
  refine readThreadIds_thread ?_ (by rw [SelectionView.asked_of_unselected hv]; exact hE)
  cases hx : v.systemIds[v.current]? with
  | none => exact hE _
  | some x => exact hQ x hx

theorem setCurrentThread_thread {x : Nat} {Q : Unit → SelectionView → Prop}
    {E : Exn → SelectionView → Prop} (hv : v.Named)
    (hQ : ∀ n, v.selectedBy x = some n → Q () (v.select n)) (hE : ∀ e, E e (v.asked false))
    (hE' : x ∉ v.systemIds → ∀ e, E e v) :
    (setCurrentThread id x).wp (selectionSpec id) Q E v := by
  have select {n : Nat} (hn : v.selectedBy x = some n) : (do
      let r ← call id (.setCurrentThreadId n)
      checkHr r "Could not select thread" : Dap Unit).wp (selectionSpec id) Q E v :=
    call_thread ⟨fun _ => hE _, hQ n hn⟩
  rw [setCurrentThread, bind_eq, wp_bind]
  refine throwIfDisposed_thread fun s hs => ?_
  obtain ⟨-, hkernel⟩ := hs rfl
  change (if s.isKernel = true then _ else _ : Dap Unit).wp _ _ _ _
  cases hk : v.kernel with
  | true =>
    rw [if_pos (hkernel.trans hk), setCurrentThreadKernel, bind_eq, wp_bind]
    refine readThreadIds_thread ?_ hE
    cases hindex : v.systemIds.findIdx? (· = x) with
    | none =>
      refine hE' (fun hmem => ?_) _
      have hnot := List.findIdx?_eq_none_iff.1 hindex x hmem
      simp at hnot
    | some index => exact select (by rw [SelectionView.selectedBy, if_pos hk, hindex])
  | false =>
    rw [if_neg (by simp [hkernel, hk]), setCurrentThreadUser]
    refine call_thread fun r hr => ?_
    dsimp only
    rw [bind_eq, wp_bind]
    refine checkHr_thread (fun n hn => ?_) fun hr hn => by subst hn; exact hE
    subst hn
    rw [Except.isOk, Except.toBool, SelectionView.asked_true]
    refine select (SelectionView.selectedBy_of_mem (hv.resolve_left ?_) hk (hr n rfl))
    simp [hk]

end Session

end

/-! ## Working on a thread -/

/-- The calls that read and write variables, code and memory. -/
def Call.views : ∀ {β : Type}, Call β → Prop
  | _, .execute (.frame _) => True
  | _, .stackTrace | _, .scopeLocals | _, .scopeSymbols | _, .openSymbol _ => True
  | _, .writeSymbol .. | _, .readSymbol _ | _, .symbolOffset _ | _, .symbolSize _ => True
  | _, .setScopeFrame _ | _, .registers | _, .modules => True
  | _, .disassembleOne .. | _, .symbolStart _ | _, .readVirtual .. => True
  | _, _ => False

/-- The operations that work on the current thread, with commands of the client or without. -/
def DapOp.works (id : SessionId) (raw : Prop) : ∀ {β : Type}, DapOp β → Prop
  | _, .setSession _ | _, .takeSession | _, .newSession => False
  | _, .updateSession _ (.beginCapture _) | _, .updateSession _ (.appendCapture _)
  | _, .updateSession _ .endCapture => True
  | _, .updateSession .. => False
  | _, .call i c | _, .leave i c => i = id ∧ (c.views ∨ raw ∧ c.isRaw = true)
  | _, _ => True

/-- Another thread may be current. -/
def Strays (v w : SelectionView) : Prop :=
  ∃ current strayed, w = { v with current, log := { v.log with strayed } }

theorem selectionCallPre_of_views {β : Type} {c : Call β} (hc : c.views)
    {K : β → SelectionView → Prop}
    {v : SelectionView} (h : ∀ b, K b v) : selectionCallPre c K v := by
  cases c with
  | execute command => cases command <;> first | exact fun b => h b | exact hc.elim
  | numberThreads | threadIdsByIndex | currentThreadId | threadIdBySystemId | setCurrentThreadId =>
    exact hc.elim
  | _ => exact fun b => h b

section

variable {id : SessionId} {α : Type}

/-- Without commands of the client nothing happens to the thread. -/
theorem works_wp {p : Dap α} (h : AllOps (DapOp.works id False) p) (v : SelectionView) :
    p.wp (selectionSpec id) (fun _ w => w = v) (fun _ w => w = v) v := by
  refine wp_of_allOps (fun {β} o ho w hw => ?_) h rfl
  subst hw
  cases o with
  | setSession | takeSession | newSession => exact ho.elim
  | updateSession i u => cases u <;> first | exact ho.elim | exact rfl
  | session => exact rfl
  | readSession => exact fun _ _ => rfl
  | call | leave =>
    obtain ⟨rfl, hc | ⟨hraw, -⟩⟩ := ho
    · exact ⟨rfl, selectionCallPre_of_views hc fun _ => rfl⟩
    · exact hraw.elim
  | _ => exact fun _ => rfl

theorem works_wp_strays {p : Dap α} (h : AllOps (DapOp.works id True) p) (v : SelectionView) :
    p.wp (selectionSpec id) (fun _ w => Strays v w) (fun _ w => Strays v w) v := by
  have command {β : Type} {c : Call β} (hc : c.views ∨ True ∧ c.isRaw = true) {w : SelectionView}
      (hw : Strays v w) : selectionCallPre c (fun _ w => Strays v w) w := by
    obtain hc | ⟨-, hraw⟩ := hc
    · exact selectionCallPre_of_views hc fun _ => hw
    · cases c with
      | execute command =>
        cases command with
        | raw text =>
          obtain ⟨_, _, rfl⟩ := hw
          exact fun _ current => ⟨current, _, rfl⟩
        | _ => cases hraw
      | _ => cases hraw
  refine wp_of_allOps (I := fun w => Strays v w) (fun {β} o ho w hw => ?_) h ⟨_, _, rfl⟩
  cases o with
  | setSession | takeSession | newSession => exact ho.elim
  | updateSession i u => cases u <;> first | exact ho.elim | exact hw
  | session => exact hw
  | readSession => exact fun _ _ => hw
  | call | leave => exact ⟨ho.1, command ho.2 hw⟩
  | _ => exact fun _ => hw

variable {raw : Prop}

namespace Session

theorem checkHr_works (r : Reply α) (message : String) :
    AllOps (DapOp.works id raw) (checkHr r message) := by
  cases r <;> trivial

theorem throwIfDisposed_works : AllOps (DapOp.works id raw) (throwIfDisposed id) :=
  .bind (.perform trivial) fun _ => .ite trivial trivial

theorem handleOutputReceived_works (text : String) :
    AllOps (DapOp.works id raw) (handleOutputReceived id text) :=
  .bind (.perform trivial) fun _ => .bind (.perform trivial) fun _ =>
    .ite (.ite trivial (.perform trivial)) trivial

/-- What is printed is passed on. -/
theorem printed_works (r : ExecuteResult) : AllOps (DapOp.works id raw) (do
    Prog.forEach (handleOutputReceived id) (r.output.filter fun text => !text.isEmpty)
    return r.status) :=
  .bind (.forEach handleOutputReceived_works _) fun _ => trivial

theorem executeDebuggerCommand_works {command : Command}
    (h : (Call.execute command).views ∨ raw ∧ (Call.execute command).isRaw = true)
    (message : String) : AllOps (DapOp.works id raw) (executeDebuggerCommand id command message) :=
  .bind throwIfDisposed_works fun _ => .bind
    (.ite (.bind (.bind (.perform trivial) fun _ => .perform ⟨rfl, h⟩) printed_works)
      (.bind (.perform ⟨rfl, h⟩) printed_works)) fun _ => checkHr_works _ _

theorem throwIfNullOrWhitespace_works (text name : String) :
    AllOps (DapOp.works id raw) (throwIfNullOrWhitespace text name) := .ite trivial trivial

theorem beginOutputCapture_works (suppress : Bool) :
    AllOps (DapOp.works id raw) (beginOutputCapture id suppress) :=
  .bind (.perform trivial) fun _ => .ite trivial (.perform trivial)

theorem endOutputCapture_works : AllOps (DapOp.works id raw) (endOutputCapture id) :=
  .bind (.perform trivial) fun _ => .bind (.perform trivial) fun _ => trivial

theorem discarded_works {α : Type} (e : Exn) : AllOps (DapOp.works id raw) (do
    discardOutputCapture id
    Prog.throw e : Dap α) := .bind (.perform trivial) fun _ => trivial

theorem executeCommandWithOutput_works {command : Command}
    (h : (Call.execute command).views ∨ raw ∧ (Call.execute command).isRaw = true) :
    AllOps (DapOp.works id raw) (executeCommandWithOutput id command) :=
  .bind throwIfDisposed_works fun _ => .bind (throwIfNullOrWhitespace_works _ _) fun _ =>
    .bind (beginOutputCapture_works _) fun _ => .catching
      (.bind (executeDebuggerCommand_works h _) fun _ => endOutputCapture_works) discarded_works

theorem call_works {β : Type} {c : Call β} (h : c.views) :
    AllOps (DapOp.works id raw) (call id c) := .perform ⟨rfl, .inl h⟩

theorem frame_works (frameNumber : Nat) :
    AllOps (DapOp.works id raw) (executeCommandWithOutput id (.frame frameNumber)) :=
  executeCommandWithOutput_works (.inl trivial)

theorem getStackTraceDetails_works (maxFrames : Int) :
    AllOps (DapOp.works id raw) (getStackTraceDetails id maxFrames) :=
  .bind throwIfDisposed_works fun _ => .ite trivial (.bind (call_works trivial) fun _ =>
    .bind (checkHr_works _ _) fun _ => .bind (.ite trivial (.ite trivial trivial)) fun _ => trivial)

theorem getLocals_works (frameNumber : Nat) :
    AllOps (DapOp.works id raw) (getLocals id frameNumber) := by
  refine .bind throwIfDisposed_works fun _ => .bind (frame_works _) fun _ =>
    .bind (call_works trivial) fun group => ?_
  cases group <;> trivial

theorem getLocalsTree_works (frameNumber : Nat) :
    AllOps (DapOp.works id raw) (getLocalsTree id frameNumber) := by
  refine .bind throwIfDisposed_works fun _ => .bind (frame_works _) fun _ =>
    .bind (call_works trivial) fun group => ?_
  cases group <;> trivial

theorem openScopeSymbolGroup_works (frameNumber : Nat) (expression : String) :
    AllOps (DapOp.works id raw) (openScopeSymbolGroup id frameNumber expression) := by
  refine .bind (frame_works _) fun _ => .bind (call_works trivial) fun outcome => ?_
  cases outcome <;> trivial

theorem createSymbolNode_works (expression : String) :
    AllOps (DapOp.works id raw) (createSymbolNode id expression) :=
  .bind (call_works trivial) fun _ => trivial

theorem setLocalValue_works (frameNumber : Nat) (expression value : String) :
    AllOps (DapOp.works id raw) (setLocalValue id frameNumber expression value) :=
  .bind throwIfDisposed_works fun _ => .bind (openScopeSymbolGroup_works _ _) fun _ =>
    .bind (call_works trivial) fun _ => .bind (checkHr_works _ _) fun _ => createSymbolNode_works _

theorem getLocalValue_works (frameNumber : Nat) (expression : String) :
    AllOps (DapOp.works id raw) (getLocalValue id frameNumber expression) :=
  .bind throwIfDisposed_works fun _ => .bind (openScopeSymbolGroup_works _ _) fun _ =>
    .bind (createSymbolNode_works _) fun _ => .ite trivial trivial

theorem getSymbolAddress_works (frameNumber : Nat) (expression : String) :
    AllOps (DapOp.works id raw) (getSymbolAddress id frameNumber expression) := by
  refine .bind throwIfDisposed_works fun _ => .bind (openScopeSymbolGroup_works _ _) fun _ =>
    .bind (call_works trivial) fun offset => ?_
  split
  · trivial
  · trivial
  · refine .bind (call_works trivial) fun size => ?_
    split <;> trivial

theorem getRegisters_works (frameNumber : Nat) :
    AllOps (DapOp.works id raw) (getRegisters id frameNumber) :=
  .bind throwIfDisposed_works fun _ => .bind (call_works trivial) fun _ =>
    .ite trivial (call_works trivial)

theorem disassemble_works (address : Nat) (offset count : Int) (resolveSymbols : Bool) :
    AllOps (DapOp.works id raw) (disassemble id address offset count resolveSymbols) :=
  disassemble_composed id (Q := fun {_} p => AllOps (DapOp.works id raw) p) (fun _ => trivial)
    (fun _ => trivial) (fun hp hf => .bind hp hf) throwIfDisposed_works
    (fun _ => call_works trivial) fun _ => call_works trivial

theorem readMemory_works (address count : Nat) :
    AllOps (DapOp.works id raw) (readMemory id address count) :=
  .bind throwIfDisposed_works fun _ => .ite trivial (.bind (call_works trivial) fun _ => trivial)

theorem getModules_works : AllOps (DapOp.works id raw) (getModules id) :=
  .bind throwIfDisposed_works fun _ => .bind (call_works trivial) fun _ => checkHr_works _ _

end Session

namespace Server

theorem executeSet_works (kind : VariableContainerKind) :
    ∀ (commands : List Command) (lastFailure : Option String),
      (∀ c ∈ commands, (Call.execute c).isRaw = true) →
        AllOps (DapOp.works id True) (executeSet id kind commands lastFailure)
  | [], _, _ => trivial
  | command :: rest, _, h => by
    have hraw := h command (by simp)
    refine .bind (AllOps.attempt (Session.executeCommandWithOutput_works (.inr ⟨trivial, hraw⟩)))
      fun r => ?_
    cases r with
    | ok _ => trivial
    | error e =>
      exact .ite trivial (.ite trivial
        (executeSet_works kind rest _ fun c hc => h c (by simp [hc])))

theorem buildSetCommands_raw (kind : VariableContainerKind) (frameNumber : Nat)
    (name value : String) {c : Command} (h : c ∈ buildSetCommands kind frameNumber name value) :
    (Call.execute c).isRaw = true := by
  cases kind <;> simp only [buildSetCommands, List.mem_cons, List.not_mem_nil, or_false] at h
  · rcases h with rfl | rfl | rfl | rfl <;> rfl
  · subst h; rfl
  · subst h; rfl

theorem assignVariable_works (container : VariableContainerContext) (name value : String) :
    AllOps (DapOp.works id True) (assignVariable id container name value) := by
  have read : AllOps (DapOp.works id True) (readVariables id container) :=
    .ite (.bind (Session.getLocals_works _) fun _ => trivial)
      (.bind (Session.getRegisters_works _) fun _ => trivial)
  refine .bind (executeSet_works _ _ _ fun _ => buildSetCommands_raw _ _ _ _) fun _ =>
    .bind read fun refreshed => ?_
  cases refreshed.find? fun v => v.name = name <;> trivial

theorem assignStructField_works (container : VariableContainerContext)
    (name expression value : String) :
    AllOps (DapOp.works id True) (assignStructField id container name expression value) :=
  .bind (Session.setLocalValue_works _ _ _) fun _ => trivial

theorem evaluateInFrame_works (context : FrameContext) (preferExpression : Bool)
    (expression : String) :
    AllOps (DapOp.works id True) (evaluateInFrame id context preferExpression expression) := by
  have evaluated : AllOps (DapOp.works id True) (do
      let command ← createEvaluateCommand expression (some context.frameNumber)
      Session.executeCommandWithOutput id command) := by
    unfold createEvaluateCommand
    by_cases hblank : Text.isBlank expression
    · rw [if_pos hblank]; trivial
    · rw [if_neg hblank]; exact Session.executeCommandWithOutput_works (.inr ⟨trivial, rfl⟩)
  refine .ite (.bind (.catching (.bind (Session.getLocalValue_works _ _) fun _ => trivial)
    fun _ => trivial) fun resolved => ?_) evaluated
  cases resolved with
  | some value => trivial
  | none => exact evaluated

end Server

end

/-! ## What a request does with the thread -/

/-- A request leaves the thread alone, or selects one, or runs a command of the client, or works on
another thread and returns to the one before. -/
inductive Touch where
  | nothing
  | moves (systemId : Nat)
  | runs
  | returns

/-- What may be the view after a request. -/
def Touch.leads : Touch → SelectionView → SelectionView → Prop
  | .nothing, v, w => w = v
  | .moves x, v, w => w = v ∨ w.log.selected = true ∧ v.selectedBy x = some w.current
  | .runs, v, w => w.log.strayed = (w.current != v.current)
  | .returns, v, w => w.log.failed = true ∨ w.log.selected = false ∧ w.current = v.current ∨
    w.log.selected = true ∧ ∃ x, v.systemIds[v.current]? = some x ∧ v.selectedBy x = some w.current

theorem Touch.refl (touch : Touch) {v : SelectionView} (hv : v.log = {}) : touch.leads v v := by
  cases touch with
  | nothing => rfl
  | moves x => exact .inl rfl
  | runs => simp [leads, hv]
  | returns => exact .inr (.inl ⟨by rw [hv], rfl⟩)

/-- `p` does with the thread what `touch` says, however it ends. -/
def Does {α : Type} (id : SessionId) (touch : Touch) (p : Dap α) : Prop :=
  ∀ v : SelectionView, v.log = {} → v.Named →
    p.wp (selectionSpec id) (fun _ w => touch.leads v w) (fun _ w => touch.leads v w) v

namespace Does

variable {id : SessionId} {touch : Touch} {α β : Type}

theorem aside {p : Dap α} (h : AllOps (DapOp.works id False) p) : Does id touch p := by
  intro v hv _
  refine wp_mono (fun _ w hw => ?_) (fun _ w hw => ?_) (works_wp h v)
  all_goals subst hw; exact touch.refl hv

theorem after {p : Dap α} {f : α → Dap β} (hp : Does id .nothing p)
    (hf : ∀ a, Does id touch (f a)) : Does id touch (p.bind f) := by
  intro v hv hn
  rw [wp_bind]
  refine wp_mono (fun a w hw => ?_) (fun _ w hw => ?_) (hp v hv hn)
  · obtain rfl : w = v := hw
    exact hf a w hv hn
  · obtain rfl : w = v := hw
    exact touch.refl hv

theorem before {p : Dap α} {f : α → Dap β} (hp : Does id touch p)
    (hf : ∀ a, AllOps (DapOp.works id False) (f a)) : Does id touch (p.bind f) := by
  intro v hv hn
  rw [wp_bind]
  refine wp_mono_val (fun a w hw => ?_) (hp v hv hn)
  refine wp_mono (fun _ u hu => ?_) (fun _ u hu => ?_) (works_wp (hf a) w)
  all_goals subst hu; exact hw

theorem catching {p : Dap α} {h : Exn → Dap α} (hp : Does id touch p)
    (hh : ∀ e, AllOps (DapOp.works id False) (h e)) : Does id touch (p.catching h) := by
  intro v hv hn
  rw [wp_catching]
  refine wp_mono (fun _ _ hw => hw) (fun e w hw => ?_) (hp v hv hn)
  refine wp_mono (fun _ u hu => ?_) (fun _ u hu => ?_) (works_wp (hh e) w)
  all_goals subst hu; exact hw

theorem ite {c : Prop} [Decidable c] {p q : Dap α} (hp : Does id touch p) (hq : Does id touch q) :
    Does id touch (if c then p else q) := by
  split
  · exact hp
  · exact hq

theorem getSession {f : Option SessionId → Dap α} (h : Does id touch (f (some id))) :
    Does id touch (DapDbgeng.getSession.bind f) := h

theorem requireDebuggerSession {f : SessionId → Dap α} (h : Does id touch (f id)) :
    Does id touch (Server.requireDebuggerSession.bind f) := h

theorem invoke {p : Dap α} (h : Does id touch p) : Does id touch (DapDbgeng.invoke .request p) := by
  intro v hv hn _ _
  change (p.attempt.bind _).wp _ _ _ _
  rw [wp_bind, wp_attempt]
  exact wp_mono (fun _ _ hw _ => hw) (fun _ _ hw _ => hw) (h v hv hn)

theorem readSessionDataOrDefault {reader : SessionId → Dap α} {fallback : α}
    (h : Does id touch (reader id)) :
    Does id touch (Server.readSessionDataOrDefault reader fallback) := by
  have unavailable : AllOps (DapOp.works id False) Server.isSessionUnavailable :=
    .bind (.perform trivial) fun _ => .ite trivial (.bind (.perform trivial) fun _ => trivial)
  exact .getSession <| .after (.aside (.perform trivial)) fun _ => .ite (.aside trivial) <|
    .catching h fun _ => .bind unavailable fun _ => .ite trivial trivial

end Does

section

variable {id : SessionId} {α : Type}

namespace Session

theorem getCurrentThreadId_does : Does id .nothing (getCurrentThreadId id) := by
  intro v hv _
  have hunselected : v.log.selected = false := by rw [hv]
  exact getCurrentThreadId_thread hunselected (fun _ _ => rfl) fun _ => rfl

theorem getThreadIds_does : Does id .nothing (getThreadIds id) := by
  intro v hv _
  rw [getThreadIds, bind_eq, wp_bind]
  refine throwIfDisposed_thread (readThreadIds_thread rfl fun _ => ?_)
  exact SelectionView.asked_of_unselected (by rw [hv]) _

theorem setCurrentThread_does (x : Nat) : Does id (.moves x) (setCurrentThread id x) := by
  intro v hv hn
  refine setCurrentThread_thread hn (fun n h => .inr ⟨rfl, h⟩) (fun _ => .inl ?_)
    fun _ _ => .inl rfl
  exact SelectionView.asked_of_unselected (by rw [hv]) _

end Session

/-- A thread is selected, or none was. -/
structure Away (v w : SelectionView) : Prop where
  kernel : w.kernel = v.kernel
  threads : w.threads = v.threads
  away : w.log.selected = true ∨ w.log.selected = false ∧ w.current = v.current

/-- Selecting the original thread again. -/
theorem selectBack {v w : SelectionView} {x : Nat} (h : Away v w) (hn : v.Named)
    (hx : v.systemIds[v.current]? = some x) :
    (Session.setCurrentThread id x).wp (selectionSpec id) (fun _ u => Touch.returns.leads v u)
      (fun _ u => Away v u ∧ Touch.returns.leads v u) w := by
  have hids : w.systemIds = v.systemIds := by rw [SelectionView.systemIds, h.threads]; rfl
  have hnamed : w.Named := by rw [SelectionView.Named, hids, h.kernel]; exact hn
  have hby : w.selectedBy x = v.selectedBy x := by
    rw [SelectionView.selectedBy, hids, h.kernel, h.threads]; rfl
  refine Session.setCurrentThread_thread hnamed (fun n hsel => ?_) (fun _ => ?_) fun hnot => ?_
  · exact .inr (.inr ⟨rfl, x, hx, hby ▸ hsel⟩)
  · refine ⟨⟨h.kernel, h.threads, h.away⟩, ?_⟩
    obtain hsel | ⟨hsel, hcurrent⟩ := h.away
    · exact .inl (by simp [SelectionView.asked, hsel])
    · exact .inr (.inl ⟨hsel, hcurrent⟩)
  · rw [hids] at hnot
    exact absurd (List.mem_of_getElem? hx) hnot

namespace Server

/-- Working on another thread. -/
theorem withThread_does (threadId : Int) {action : Dap α}
    (h : AllOps (DapOp.works id True) action) :
    Does id .returns (withThread id threadId action) := by
  intro v hv hn
  have hunselected : v.log.selected = false := by rw [hv]
  rw [withThread, bind_eq, wp_bind]
  refine Session.getCurrentThreadId_thread hunselected (fun x hx => ?_) fun _ =>
    Touch.returns.refl hv
  have back {w : SelectionView} (hw : Away v w) (e : Exn) : (do
      Session.setCurrentThread id x
      Prog.throw e : Dap α).wp (selectionSpec id) (fun _ u => Touch.returns.leads v u)
        (fun _ u => Touch.returns.leads v u) w := by
    rw [bind_eq, wp_bind]
    exact wp_mono (fun _ _ hu => hu) (fun _ _ hu => hu.2) (selectBack hw hn hx)
  rw [wp_catching, bind_eq, wp_bind]
  refine Session.setCurrentThread_thread hn (fun n _ => ?_) (fun e => back ?_ e)
    fun _ e => back ⟨rfl, rfl, .inr ⟨hunselected, rfl⟩⟩ e
  · rw [bind_eq, wp_bind]
    have away {w : SelectionView} (hw : Strays (v.select n) w) : Away v w := by
      obtain ⟨_, _, rfl⟩ := hw
      exact ⟨rfl, rfl, .inl rfl⟩
    refine wp_mono (fun _ w hw => ?_) (fun e w hw => back (away hw) e)
      (works_wp_strays h (v.select n))
    rw [bind_eq, wp_bind]
    exact wp_mono (fun _ _ hu => hu) (fun e _ hu => back hu.1 e) (selectBack (away hw) hn hx)
  · rw [SelectionView.asked_of_unselected hunselected]
    exact ⟨rfl, rfl, .inr ⟨hunselected, rfl⟩⟩

/-! ### The requests -/

theorem fail_works (request : Request α) (message : String) :
    AllOps (DapOp.works id False) (fail request message) := .perform trivial

theorem sendResponse_works (request : Request α) (body : Body) :
    AllOps (DapOp.works id False) (sendResponse request body) := .perform trivial

theorem fail_does {touch : Touch} (request : Request α) (message : String) :
    Does id touch (fail request message) := .aside (fail_works request message)

theorem loaded_does {touch : Touch} {f : Flag} {p q : Dap α} (hp : Does id touch p)
    (hq : Does id touch q) : Does id touch (do if ← load f then p else q) :=
  .after (.aside (.perform trivial)) fun _ => .ite hp hq

theorem handleThreadsRequest_does (request : Request Unit) :
    Does id .nothing (handleThreadsRequest request) := by
  refine .before (.readSessionDataOrDefault ?_) fun _ => sendResponse_works request _
  refine .after (.getSession <| .catching (.before (.invoke Session.getCurrentThreadId_does)
    fun _ => trivial) fun _ => trivial) fun current => ?_
  refine .before (.invoke Session.getThreadIds_does) fun ids => ?_
  cases Factory.createThreads current ids <;> trivial

theorem handleStackTraceRequest_does (request : Request StackTraceArguments) :
    Does id (.moves (Factory.toUInt32 request.arguments.threadId))
      (handleStackTraceRequest request) := by
  refine .after (.aside (.ite trivial (.bind (fail_works request _) fun _ => trivial)))
    fun _ => .ite ?_ (.aside trivial)
  refine .before (.readSessionDataOrDefault (.invoke (.before (Session.setCurrentThread_does _)
    fun _ => Session.getStackTraceDetails_works _))) fun _ => ?_
  exact .bind (.perform trivial) fun _ => sendResponse_works request _

theorem handleScopesRequest_does (request : Request ScopesArguments) :
    Does id .nothing (handleScopesRequest request) := by
  refine .ite (fail_does request _) (.after (.aside (.perform trivial)) fun d => ?_)
  cases d.frameContexts.get? request.arguments.frameId with
  | none => exact fail_does request _
  | some context =>
    refine .before (.readSessionDataOrDefault ?_) fun _ =>
      .bind (.perform trivial) fun _ => sendResponse_works request _
    exact .after (.invoke (.aside (Session.getLocalsTree_works _))) fun _ =>
      .before (.invoke (.aside (Session.getRegisters_works _))) fun _ => trivial

theorem handleVariablesRequest_does (request : Request VariablesArguments) :
    Does id .nothing (handleVariablesRequest request) := by
  refine .ite (fail_does request _) (.after (.aside (.perform trivial)) fun d => ?_)
  cases d.variablesByReference.get? request.arguments.variablesReference with
  | none => exact fail_does request _
  | some container => exact .aside (sendResponse_works request _)

/-- A command of the client. -/
theorem executeRaw_does (text : String) :
    Does id .runs (Session.executeCommandWithOutput id (.raw text)) := by
  have ran {v : SelectionView} (hv : v.log = {}) (current : Nat) :
      Touch.runs.leads v (v.ran current) := by
    simp [Touch.leads, SelectionView.ran, hv]
  have called : Does id .runs (call id (.execute (.raw text))) :=
    fun v hv _ => ⟨rfl, fun _ current => ran hv current⟩
  have pumped : Does id .runs (pumpCall id (.execute (.raw text))) :=
    fun v hv _ _ => ⟨rfl, fun _ current => ran hv current⟩
  have execute : Does id .runs (Session.execute id (.raw text)) := by
    unfold Session.execute
    exact .ite (.before pumped Session.printed_works) (.before called Session.printed_works)
  have executed (message : String) :
      Does id .runs (Session.executeDebuggerCommand id (.raw text) message) :=
    .after (.aside Session.throwIfDisposed_works) fun _ =>
      .before execute fun _ => Session.checkHr_works _ _
  refine .after (.aside Session.throwIfDisposed_works) fun _ => ?_
  refine .after (.aside (Session.throwIfNullOrWhitespace_works _ _)) fun _ => ?_
  refine .after (.aside (Session.beginOutputCapture_works _)) fun _ => ?_
  exact .catching (.before (executed _) fun _ => Session.endOutputCapture_works)
    Session.discarded_works

theorem evaluate_does (preferExpression : Bool) (expression : String) :
    ∀ context : Option FrameContext,
      Does id (if context.isSome then .returns else .runs)
        (evaluate id context preferExpression expression)
  | some c => withThread_does _ (evaluateInFrame_works c _ _)
  | none => executeRaw_does expression

theorem evaluateAtStop_does (request : Request EvaluateArguments) (context : Option FrameContext) :
    Does id (if context.isSome then .returns else .runs) (evaluateAtStop request context) := by
  refine .ite (.aside (sendResponse_works request _)) <| loaded_does (fail_does request _) <|
    .ite (fail_does request _) <| .requireDebuggerSession <| .catching ?_ fun _ =>
      fail_works request _
  exact .before (.invoke (evaluate_does _ _ context)) fun _ => sendResponse_works request _

theorem handleEvaluateRequest_does (request : Request EvaluateArguments) :
    Does id (if request.arguments.frameId.isSome then .returns else .runs)
      (handleEvaluateRequest request) := by
  refine .ite (fail_does request _) (.ite (fail_does request _) (.ite (fail_does request _) ?_))
  cases request.arguments.frameId with
  | none => exact evaluateAtStop_does request none
  | some frameId =>
    refine .ite (fail_does request _) (.after (.aside (.perform trivial)) fun d => ?_)
    cases d.frameContexts.get? frameId with
    | none => exact fail_does request _
    | some context => exact evaluateAtStop_does request (some context)

theorem handleSetStructField_does (request : Request SetVariableArguments)
    (container : VariableContainerContext) :
    Does id .returns (handleSetStructField request container) := by
  unfold handleSetStructField
  dsimp only
  cases container.variables_.find? fun v => v.name = request.arguments.name with
  | none => exact fail_does request _
  | some child =>
    refine .catching (.requireDebuggerSession <| .before (.invoke (withThread_does _
      (assignStructField_works _ _ _ _))) fun _ => ?_) fun _ => fail_works request _
    exact .bind (.perform trivial) fun _ => sendResponse_works request _

theorem handleSetTopLevelVariable_does (request : Request SetVariableArguments)
    (container : VariableContainerContext) :
    Does id .returns (handleSetTopLevelVariable request container) := by
  refine .requireDebuggerSession <| .catching (.before (.invoke (withThread_does _
    (assignVariable_works _ _ _))) fun _ => ?_) fun _ => fail_works request _
  exact .bind (.perform trivial) fun _ => sendResponse_works request _

theorem handleSetVariableRequest_does (request : Request SetVariableArguments) :
    Does id .returns (handleSetVariableRequest request) := by
  refine .ite (fail_does request _) (.ite (fail_does request _) (.ite (fail_does request _)
    (loaded_does (fail_does request _) (.after (.aside (.perform trivial)) fun d => ?_))))
  cases d.variablesByReference.get? request.arguments.variablesReference with
  | none => exact fail_does request _
  | some container =>
    exact .ite (handleSetStructField_does request container)
      (handleSetTopLevelVariable_does request container)

theorem handleSetExpressionRequest_does (request : Request SetExpressionArguments) :
    Does id .returns (handleSetExpressionRequest request) := by
  refine .ite (fail_does request _) (.ite (fail_does request _) ?_)
  cases request.arguments.frameId with
  | none => exact fail_does request _
  | some frameId =>
    refine .after (.aside (.perform trivial)) fun d => ?_
    cases d.frameContexts.get? frameId with
    | none => exact fail_does request _
    | some context =>
      exact loaded_does (fail_does request _) <| .catching (.requireDebuggerSession <|
        .before (.invoke (withThread_does _ (Session.setLocalValue_works _ _ _))) fun _ =>
          sendResponse_works request _) fun _ => fail_works request _

theorem handleDataBreakpointInfoRequest_does (request : Request DataBreakpointInfoArguments) :
    Does id .returns (handleDataBreakpointInfoRequest request) := by
  refine .ite (fail_does request _) (.after (.aside (.perform trivial)) fun d => ?_)
  cases resolveDataBreakpointTarget request.arguments d with
  | error message => exact fail_does request _
  | ok target =>
    exact .getSession <| .catching (.requireDebuggerSession <| .before
      (.invoke (withThread_does _ (Session.getSymbolAddress_works _ _))) fun _ =>
        sendResponse_works request _) fun _ => fail_works request _

theorem handleDisassembleRequest_does (request : Request DisassembleArguments) :
    Does id .nothing (handleDisassembleRequest request) := by
  unfold handleDisassembleRequest
  cases tryReadDisassembleArguments request.arguments with
  | error message => exact fail_does request _
  | ok a =>
    refine loaded_does (fail_does request _) <| .getSession <| .catching ?_ fun _ =>
      fail_works request _
    refine .after (.readSessionDataOrDefault
      (.invoke (.aside (Session.disassemble_works _ _ _ _)))) fun _ => ?_
    refine .before (.readSessionDataOrDefault (.before (.invoke (.aside ?_)) fun _ => trivial))
      fun _ => sendResponse_works request _
    exact .bind (Session.getStackTraceDetails_works _) fun _ => trivial

theorem handleModulesRequest_does (request : Request ModulesArguments) :
    Does id .nothing (handleModulesRequest request) :=
  .ite (fail_does request _) <| loaded_does (fail_does request _) <| .getSession <|
    .catching (.before (.readSessionDataOrDefault (.invoke (.aside Session.getModules_works)))
      fun _ => sendResponse_works request _) fun _ => fail_works request _

theorem handleReadMemoryRequest_does (request : Request ReadMemoryArguments) :
    Does id .nothing (handleReadMemoryRequest request) := by
  unfold handleReadMemoryRequest
  dsimp only
  cases referenceAddress request.arguments.memoryReference with
  | none => exact fail_does request _
  | some reference =>
    refine .ite (fail_does request _) ?_
    cases Text.tryApplyByteOffset reference (request.arguments.offset.getD 0) with
    | none => exact fail_does request _
    | some address =>
      exact loaded_does (fail_does request _) <| .getSession <| .catching
        (.before (.readSessionDataOrDefault (.invoke (.aside (Session.readMemory_works _ _))))
          fun _ => sendResponse_works request _) fun _ => fail_works request _

end Server

end

/-! ## The requests -/

/-- The requests that inspect the target or assign to it. -/
inductive InspectionRequest where
  | threads (request : Request Unit)
  | stackTrace (request : Request StackTraceArguments)
  | scopes (request : Request ScopesArguments)
  | variables_ (request : Request VariablesArguments)
  | evaluate (request : Request EvaluateArguments)
  | setVariable (request : Request SetVariableArguments)
  | setExpression (request : Request SetExpressionArguments)
  | dataBreakpointInfo (request : Request DataBreakpointInfoArguments)
  | disassemble (request : Request DisassembleArguments)
  | readMemory (request : Request ReadMemoryArguments)
  | modules (request : Request ModulesArguments)

namespace InspectionRequest

def handler : InspectionRequest → Dap Unit
  | .threads request => Server.handleThreadsRequest request
  | .stackTrace request => Server.handleStackTraceRequest request
  | .scopes request => Server.handleScopesRequest request
  | .variables_ request => Server.handleVariablesRequest request
  | .evaluate request => Server.handleEvaluateRequest request
  | .setVariable request => Server.handleSetVariableRequest request
  | .setExpression request => Server.handleSetExpressionRequest request
  | .dataBreakpointInfo request => Server.handleDataBreakpointInfoRequest request
  | .disassemble request => Server.handleDisassembleRequest request
  | .readMemory request => Server.handleReadMemoryRequest request
  | .modules request => Server.handleModulesRequest request

def touch : InspectionRequest → Touch
  | .stackTrace request => .moves (Factory.toUInt32 request.arguments.threadId)
  | .evaluate request => if request.arguments.frameId.isSome then .returns else .runs
  | .setVariable _ | .setExpression _ | .dataBreakpointInfo _ => .returns
  | _ => .nothing

theorem handler_does {id : SessionId} (r : InspectionRequest) : Does id r.touch r.handler := by
  cases r with
  | threads request => exact Server.handleThreadsRequest_does request
  | stackTrace request => exact Server.handleStackTraceRequest_does request
  | scopes request => exact Server.handleScopesRequest_does request
  | variables_ request => exact Server.handleVariablesRequest_does request
  | evaluate request => exact Server.handleEvaluateRequest_does request
  | setVariable request => exact Server.handleSetVariableRequest_does request
  | setExpression request => exact Server.handleSetExpressionRequest_does request
  | dataBreakpointInfo request => exact Server.handleDataBreakpointInfoRequest_does request
  | disassemble request => exact Server.handleDisassembleRequest_does request
  | readMemory request => exact Server.handleReadMemoryRequest_does request
  | modules request => exact Server.handleModulesRequest_does request

end InspectionRequest

/-- What a server shows of the thread of session `id`. -/
def Server.selectionView (s : Server) (id : SessionId) : SelectionView where
  kernel := (s.sessions id).isKernel
  threads := (s.engine id).threads
  current := (s.engine id).current
  log := {}

/-- A request served at a stop, whatever the engine answers; going back to the first thread does not
fail. -/
structure Inspection where
  request : InspectionRequest
  id : SessionId
  before : Server
  after : Server
  log : SelectionLog
  result : Except Exn Unit
  session : before.session = some id
  alive : (before.sessions id).disposed = false
  named : (before.selectionView id).Named
  ends : Ends selectionSteps request.handler (before, {}) result (after, log)
  returned : log.failed = false

namespace Inspection

/-- The current thread is the one before the request. -/
def Kept (f : Inspection) : Prop :=
  (f.after.engine f.id).current = (f.before.engine f.id).current

/-- A stack trace does not select a thread, or the current one; a command of the client does not
change threads; the current thread is the one that its system id selects. -/
def Harmless (f : Inspection) : Prop :=
  let v := f.before.selectionView f.id
  match f.request.touch with
  | .nothing => True
  | .moves x => f.log.selected = false ∨ v.selectedBy x = some v.current
  | .runs => f.log.strayed = false
  | .returns => f.log.selected = false ∨
    ∃ x, v.systemIds[v.current]? = some x ∧ v.selectedBy x = some v.current

/-- What the request does with the thread. -/
theorem touched (f : Inspection) : ∃ w : SelectionView, w.At f.id (f.after, f.log) ∧
    f.request.touch.leads (f.before.selectionView f.id) w := by
  obtain ⟨events, hsteps⟩ := f.ends
  have hview : (f.before.selectionView f.id).At f.id (f.before, {}) :=
    ⟨f.session, f.alive, rfl, rfl, rfl, rfl⟩
  obtain ⟨w, hw, hends⟩ := wp_view selectionPre_step hsteps hview
    (f.request.handler_does _ rfl f.named)
  have houtcome := wp_ofExcept hends
  cases hresult : f.result with
  | ok u => rw [hresult] at houtcome; exact ⟨w, hw, houtcome⟩
  | error e => rw [hresult] at houtcome; exact ⟨w, hw, houtcome⟩

/-- **Looking at threads.**  A request leaves the current thread as it was if and only if it is no
stack trace that selects another thread, no command of the client changes threads, and the thread
to return to is the one that its system id selects. -/
theorem kept_iff (f : Inspection) : f.Kept ↔ f.Harmless := by
  obtain ⟨w, hw, hleads⟩ := f.touched
  have kept : f.Kept ↔ w.current = (f.before.selectionView f.id).current := by
    rw [hw.current]
    exact Iff.rfl
  have hreturned : w.log.failed = false := by rw [hw.log]; exact f.returned
  rw [kept, Harmless, ← show w.log = f.log from hw.log]
  have hlog : (f.before.selectionView f.id).log = {} := rfl
  generalize f.before.selectionView f.id = v at *
  cases htouch : f.request.touch with
  | nothing =>
    rw [htouch] at hleads
    obtain rfl : w = v := hleads
    simp
  | moves x =>
    rw [htouch] at hleads
    obtain rfl | ⟨hselected, hcurrent⟩ := hleads
    · simp [hlog]
    · simp [hselected, hcurrent]
  | runs =>
    rw [htouch] at hleads
    have hstrayed : w.log.strayed = (w.current != v.current) := hleads
    simp [hstrayed]
  | returns =>
    rw [htouch] at hleads
    obtain hfailed | ⟨hselected, hcurrent⟩ | ⟨hselected, x, hx, hcurrent⟩ := hleads
    · rw [hreturned] at hfailed
      cases hfailed
    · simp [hselected, hcurrent]
    · simp [hselected, hx, hcurrent]

/-- One request after the other. -/
theorem kept_along {f : Inspection} {fs : List Inspection}
    (hchain : (f :: fs).IsChain fun f g => g.id = f.id ∧ g.before = f.after)
    (h : ∀ g ∈ f :: fs, g.Harmless) :
    ∀ g ∈ f :: fs, (g.after.engine f.id).current = (f.before.engine f.id).current := by
  induction fs generalizing f with
  | nil =>
    intro g hg
    obtain rfl := List.mem_singleton.1 hg
    exact g.kept_iff.2 (h g hg)
  | cons f' fs ih =>
    intro g hg
    have hkept : f.Kept := f.kept_iff.2 (h f (by simp))
    obtain ⟨⟨hid, hbefore⟩, hrest⟩ := List.isChain_cons_cons.1 hchain
    obtain rfl | hg := List.mem_cons.1 hg
    · exact hkept
    · have hlater := ih hrest (fun g hg => h g (List.mem_cons_of_mem _ hg)) g hg
      rw [hid, hbefore] at hlater
      exact hlater.trans hkept

/-! ## A stack trace of another thread -/

/-- A target with two threads stops at its entry. -/
def twoThreads : Schedule :=
  Schedule.enter .request (.request (Schedule.message 1 "launch"
    [("program", .str "a.exe"), ("stopAtEntry", .bool true)])) 51 ++
    Schedule.run .callback (.callback 0 .createThread [(0, 100), (1, 200)] 0) ++
      Schedule.leave .request

/-- A stack trace of the thread that is not current. -/
def otherThread : InspectionRequest :=
  .stackTrace { seq := 2, command := "stackTrace", arguments := { threadId := 200 } }

def truthfulSteps {β : Type} (o : DapOp β) (p : Server × SelectionLog) :
    Option (β × Server × SelectionLog) :=
  (apply .request {} o p.1).bind fun x =>
    if o.isRaw then none else some (x.1, x.2, o.selectionLog x.1 p.1 x.2 p.2)

theorem selectionSteps_of_truthfulSteps {β : Type} (o : DapOp β) (p : Server × SelectionLog) (b : β)
    (p' : Server × SelectionLog) (h : truthfulSteps o p = some (b, p')) :
    selectionSteps β o p b p' := by
  obtain ⟨⟨b', s'⟩, happly, h⟩ := Option.bind_eq_some_iff.1 h
  split at h
  · cases h
  · rename_i hraw
    cases h
    exact ⟨⟨_, happly⟩, rfl, fun hraw' => absurd hraw' hraw⟩

/-- Whether the session `id` is in use. -/
def inUse? (id : SessionId) (s : Server) : Bool :=
  s.session == some id && !(s.sessions id).disposed &&
    decide (s.selectionView id).systemIds.Nodup && !s.flags .isExecutionRunning

/-- Whether a stack trace of another thread leaves that one current. -/
def leavesThread (c : Conf) : Bool :=
  inUse? 0 c.state && (c.state.engine 0).current == 0 &&
    match otherThread.handler.eval truthfulSteps 200 (c.state, {}) with
    | some (_, s, log) => (s.engine 0).current == 1 && !log.failed
    | _ => false

/-- A stack trace of another thread makes it the current one. -/
theorem thread_left : ∃ (c : Conf) (f : Inspection), Reachable {} c ∧ f.before = c.state ∧
    f.request = otherThread ∧ (f.before.engine f.id).current = 0 ∧
      (f.after.engine f.id).current = 1 := by
  obtain ⟨c, hr, -, ht⟩ := reachable_of_exec twoThreads leavesThread (by decide +kernel)
  simp only [leavesThread, Bool.and_eq_true, inUse?, beq_iff_eq, Bool.not_eq_true',
    decide_eq_true_eq] at ht
  obtain ⟨⟨⟨⟨⟨hsession, halive⟩, hnodup⟩, -⟩, hbefore⟩, hafter⟩ := ht
  split at hafter
  · rename_i result s log heval
    simp only [Bool.and_eq_true, beq_iff_eq, Bool.not_eq_true'] at hafter
    exact ⟨c, ⟨otherThread, 0, c.state, s, log, result, hsession, halive, .inr hnodup,
      .of_eval selectionSteps_of_truthfulSteps heval, hafter.2⟩, hr, rfl, rfl, hbefore, hafter.1⟩
  · cases hafter

/-- A request may leave another thread current. -/
theorem not_kept : ¬∀ f : Inspection, f.Kept := by
  intro hall
  obtain ⟨_, f, -, -, -, hbefore, hafter⟩ := thread_left
  have hkept := hall f
  rw [Kept, hbefore, hafter] at hkept
  cases hkept

end Inspection

end DapDbgeng
