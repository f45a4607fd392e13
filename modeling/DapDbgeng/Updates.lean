/-
  Breakpoint updates while the target runs.

  The adapter interrupts the target with its events suppressed, joins the wait loop, applies the
  update, resumes and starts the loop again.  Main definitions:

  * `updateSteps`: the steps of the request thread, the target stopping only for the interrupt;
  * `Reported p`: `p` throws exactly when one of its commands has failed;
  * `UpdateView`: how far the handshake has got.

  Main result: `Server.update_resumes_iff`.
-/
import DapDbgeng.Machine
import DapDbgeng.Neutral
import DapDbgeng.RespondsOnce
import DapDbgeng.Tracking

namespace DapDbgeng

open Concurrent Concurrent.Prog

/-! ## The target while the request is handled -/

/-- The commands whose failure is an exception; the setters of function, instruction and data
breakpoints catch that of their own commands. -/
def Command.throws : Command → Bool
  | .functionBreakpoint _ | .instructionBreakpoint _ | .dataBreakpoint .. => false
  | _ => true

/-- What has happened so far: whether the target has been interrupted, whether its halt is still to
come, and whether a command has failed with an exception. -/
structure Course where
  interrupted : Bool := false
  owed : Bool := false
  failed : Bool := false

def DapOp.course : ∀ {β : Type}, DapOp β → β → Course → Course
  | _, .call _ .setInterrupt, .ok (), g => { g with interrupted := true, owed := true }
  | _, .joinLoop, _, g => { g with owed := false }
  | _, .call _ (.execute c), r, g => { g with failed := g.failed || (!r.status.isOk && c.throws) }
  | _, _, _, g => g

/-- What the other threads do meanwhile: the target stops for the interrupt and for nothing else,
and then the wait loop ends. -/
structure Yields (id : SessionId) (owed : Bool) (s s' : Server) : Prop where
  session : s'.session = s.session
  parked : s'.parked = s.parked
  loopJoinable : s'.loopJoinable = s.loopJoinable
  disposed : (s'.sessions id).disposed = (s.sessions id).disposed
  outputCapture : (s'.sessions id).outputCapture = (s.sessions id).outputCapture
  stops : s'.stops = s.stops
  running : owed = false ∨ s.loop = .idle →
    s'.flags .isExecutionRunning = s.flags .isExecutionRunning
  active : owed = false ∨ s.loop = .idle → s'.flags .waitLoopActive = s.flags .waitLoopActive
  loop : owed = false ∨ s.loop = .idle → (s'.loop = .idle ↔ s.loop = .idle)
  ended : s.loop ≠ .idle → s'.loop = .idle → s'.flags .waitLoopActive = false

/-- The steps of the request thread, with their course. -/
def updateSteps (id : SessionId) : StepRel DapOp (Server × Course) := fun β o p b p' =>
  ∃ s₁, Yields id p.2.owed p.1 s₁ ∧ sem .request β o s₁ b p'.1 ∧ p'.2 = o.course b p.2

/-- The target runs, and the wait loop waits for it. -/
structure Up (s : Server) : Prop where
  running : s.flags .isExecutionRunning = true
  active : s.flags .waitLoopActive = true
  loop : s.loop ≠ .idle

/-- The target of session `id` runs, and no other command is in progress. -/
structure Engaged (id : SessionId) (s : Server) : Prop extends Up s where
  session : s.session = some id
  parked : s.parked = none
  loopJoinable : s.loopJoinable = true
  disposed : (s.sessions id).disposed = false
  outputCapture : (s.sessions id).outputCapture = none

/-! ## The handshake -/

inductive Phase where
  | up
  /-- The interrupt is issued and the wait loop is not joined. -/
  | halting
  | joined (running : Bool)
  /-- The new wait loop is announced and not started. -/
  | starting (running : Bool)

def Phase.Holds : Phase → Course → Server → Prop
  | .up, g, s => g.owed = false ∧ Up s
  | .halting, g, s => g.owed = true ∧ (s.loop = .idle → s.flags .waitLoopActive = false)
  | .joined running, g, s => g.owed = false ∧ s.loop = .idle ∧
    s.flags .isExecutionRunning = running ∧ s.flags .waitLoopActive = false
  | .starting running, g, s => g.owed = false ∧ s.loop = .idle ∧
    s.flags .isExecutionRunning = running ∧ s.flags .waitLoopActive = true

structure UpdateView where
  phase : Phase
  joinable : Bool := true
  capturing : Bool := false
  interrupted : Bool := false
  failed : Bool := false

structure UpdateView.Sees (id : SessionId) (stops : ℕ) (v : UpdateView) (p : Server × Course) :
    Prop where
  phase : v.phase.Holds p.2 p.1
  joinable : p.1.loopJoinable = v.joinable
  capturing : (p.1.sessions id).outputCapture.isSome = v.capturing
  interrupted : p.2.interrupted = v.interrupted
  failed : p.2.failed = v.failed
  session : p.1.session = some id
  parked : p.1.parked = none
  disposed : (p.1.sessions id).disposed = false
  stops : p.1.stops = stops

def loadPre : Flag → Phase → (Bool → Prop) → Prop
  | .isExecutionRunning, .up => fun K => K true
  | .isExecutionRunning, .joined running => fun K => K running
  | .waitLoopActive, .up => fun K => K true
  | .waitLoopActive, .joined _ => fun K => K false
  | _, _ => fun K => ∀ b, K b

def storePre : Flag → Bool → Phase → (Phase → Prop) → Prop
  | .isExecutionRunning, b, .joined _ => fun K => K (.joined b)
  | .isExecutionRunning, _, _ => fun _ => False
  | .waitLoopActive, true, .joined running => fun K => K (.starting running)
  | .waitLoopActive, _, _ => fun _ => False
  | _, _, phase => fun K => K phase

def interruptPre (K : Reply Unit → UpdateView → Prop) (v : UpdateView) : Prop :=
  match v.phase with
  | .up => K (.ok ()) { v with phase := .halting, interrupted := true } ∧ ∀ hr, K (.error hr) v
  | _ => False

def updateSessionPre : SessionUpdate → Bool → (Bool → Prop) → Prop
  | .beginCapture _, _ => fun K => K true
  | .endCapture, _ => fun K => K false
  | .dispose, _ => fun _ => False
  | _, capturing => fun K => K capturing

def callPre : ∀ {β : Type}, Call β → (β → UpdateView → Prop) → UpdateView → Prop
  | _, .setInterrupt => interruptPre
  | _, .execute c => fun K v =>
    ∀ r, K r { v with failed := v.failed || (!r.status.isOk && c.throws) }
  | _, _ => fun K v => ∀ b, K b v

def updatePre (id : SessionId) :
    ∀ {β : Type}, DapOp β → (β → UpdateView → Prop) → UpdateView → Prop
  | _, .load f => fun K v => loadPre f v.phase fun b => K b v
  | _, .store f b => fun K v => storePre f b v.phase fun phase => K () { v with phase }
  | _, .takeLoop => fun K v => K v.joinable { v with joinable := false }
  | _, .joinLoop => fun K v => v.phase matches .halting ∧
    ∀ running, K () { v with phase := .joined running, joinable := false }
  | _, .loopJoinable => fun K v => K v.joinable v
  | _, .spawnLoop _ => fun K v => v.phase matches .starting true ∧
    K () { v with phase := .up, joinable := true }
  | _, .unpark => fun K v => K none v
  | _, .session => fun K v => K (some id) v
  | _, .readSession i => fun K v => i = id ∧ ∀ x : Session, x.disposed = false →
    x.outputCapture.isSome = v.capturing → K x v
  | _, .updateSession i u => fun K v => i = id ∧
    updateSessionPre u v.capturing fun capturing => K () { v with capturing }
  | _, .call i c => fun K v => i = id ∧ callPre c K v
  | _, .send m => fun K v => m.isStopped = false ∧ K () v
  | _, .enqueue | _, .acquire | _, .release | _, .lockGate | _, .unlockGate => fun K v => K () v
  | _, .tables => fun K v => ∀ d, K d v
  | _, .modify _ => fun K v => ∀ b, K b v
  | _, .fullPath _ => fun K v => ∀ path, K path v
  | _, _ => fun _ _ => False

section Mono

variable {K K' : Bool → Prop} {L L' : Phase → Prop} {phase : Phase}

theorem loadPre_mono (h : ∀ b, K b → K' b) {f : Flag} (hk : loadPre f phase K) :
    loadPre f phase K' := by
  cases f <;> cases phase <;> first | exact h _ hk | exact fun b => h b (hk b)

theorem storePre_mono (h : ∀ phase, L phase → L' phase) {f : Flag} {b : Bool}
    (hk : storePre f b phase L) : storePre f b phase L' := by
  cases f <;> cases phase <;> cases b <;> first | exact h _ hk | exact hk

theorem updateSessionPre_mono (h : ∀ b, K b → K' b) {u : SessionUpdate} {capturing : Bool}
    (hk : updateSessionPre u capturing K) : updateSessionPre u capturing K' := by
  cases u <;> first | exact h _ hk | exact hk

theorem callPre_mono {β : Type} {c : Call β} {M M' : β → UpdateView → Prop} {v : UpdateView}
    (h : ∀ b v, M b v → M' b v) (hm : callPre c M v) : callPre c M' v := by
  cases c with
  | setInterrupt =>
    obtain ⟨phase, _, _, _, _⟩ := v
    cases phase with
    | up => exact ⟨h _ _ hm.1, fun hr => h _ _ (hm.2 hr)⟩
    | _ => exact hm
  | _ => exact fun b => h _ _ (hm b)

end Mono

def updateSpec (id : SessionId) : Spec DapOp UpdateView where
  pre := updatePre id
  mono o K K' hK v h := by
    cases o with
    | load f => exact loadPre_mono (fun b => hK b v) h
    | store f b => exact storePre_mono (fun phase => hK () { v with phase }) h
    | takeLoop | loopJoinable | unpark | session => exact hK _ _ h
    | enqueue | acquire | release | lockGate | unlockGate => exact hK _ _ h
    | joinLoop => exact ⟨h.1, fun running => hK _ _ (h.2 running)⟩
    | spawnLoop i => exact ⟨h.1, hK _ _ h.2⟩
    | readSession i => exact ⟨h.1, fun x hx hc => hK _ _ (h.2 x hx hc)⟩
    | updateSession i u => exact ⟨h.1, updateSessionPre_mono (fun _ => hK _ _) h.2⟩
    | call i c => exact ⟨h.1, callPre_mono hK h.2⟩
    | send m => exact ⟨h.1, hK _ _ h.2⟩
    | tables | modify | fullPath => exact fun b => hK _ _ (h b)
    | _ => exact h.elim

variable {id : SessionId}

theorem Engaged.sees {s : Server} (h : Engaged id s) :
    UpdateView.Sees id s.stops { phase := .up } (s, {}) where
  phase := ⟨rfl, h.toUp⟩
  joinable := h.loopJoinable
  capturing := by rw [h.outputCapture]; rfl
  interrupted := rfl
  failed := rfl
  session := h.session
  parked := h.parked
  disposed := h.disposed
  stops := rfl

/-- What the other threads do shows in no phase. -/
theorem UpdateView.Sees.yields {stops : ℕ} {v : UpdateView} {s s₁ : Server} {g : Course}
    (hv : v.Sees id stops (s, g)) (hy : Yields id g.owed s s₁) : v.Sees id stops (s₁, g) := by
  refine ⟨?_, hy.loopJoinable.trans hv.joinable, ?_, hv.interrupted, hv.failed,
    hy.session.trans hv.session, hy.parked.trans hv.parked, hy.disposed.trans hv.disposed,
    hy.stops.trans hv.stops⟩
  · obtain ⟨phase, _, _, _⟩ := v
    have hp := hv.phase
    cases phase with
    | up =>
      obtain ⟨ho, hup⟩ := hp
      exact ⟨ho, (hy.running (.inl ho)).trans hup.running, (hy.active (.inl ho)).trans hup.active,
        fun h => hup.loop ((hy.loop (.inl ho)).1 h)⟩
    | halting =>
      obtain ⟨ho, hactive⟩ := hp
      refine ⟨ho, fun h => ?_⟩
      by_cases hl : s.loop = .idle
      · exact (hy.active (.inr hl)).trans (hactive hl)
      · exact hy.ended hl h
    | joined running =>
      obtain ⟨ho, hl, hr, ha⟩ := hp
      exact ⟨ho, (hy.loop (.inr hl)).2 hl, (hy.running (.inr hl)).trans hr,
        (hy.active (.inr hl)).trans ha⟩
    | starting running =>
      obtain ⟨ho, hl, hr, ha⟩ := hp
      exact ⟨ho, (hy.loop (.inr hl)).2 hl, (hy.running (.inr hl)).trans hr,
        (hy.active (.inr hl)).trans ha⟩
  · have h := hv.capturing
    dsimp only at h ⊢
    rw [hy.outputCapture]
    exact h

theorem Phase.Holds.congr {phase : Phase} {g g' : Course} {s s' : Server} (h : phase.Holds g s)
    (ho : g'.owed = g.owed)
    (hr : s'.flags .isExecutionRunning = s.flags .isExecutionRunning)
    (ha : s'.flags .waitLoopActive = s.flags .waitLoopActive) (hl : s'.loop = s.loop) :
    phase.Holds g' s' := by
  cases phase with
  | up => exact ⟨ho.trans h.1, hr.trans h.2.running, ha.trans h.2.active, hl ▸ h.2.loop⟩
  | halting => exact ⟨ho.trans h.1, fun hi => ha.trans (h.2 (hl ▸ hi))⟩
  | joined => exact ⟨ho.trans h.1, hl.trans h.2.1, hr.trans h.2.2.1, ha.trans h.2.2.2⟩
  | starting => exact ⟨ho.trans h.1, hl.trans h.2.1, hr.trans h.2.2.1, ha.trans h.2.2.2⟩

theorem loadPre_holds {phase : Phase} {g : Course} {s : Server} (h : phase.Holds g s) {f : Flag}
    {K : Bool → Prop} (hk : loadPre f phase K) : K (s.flags f) := by
  cases f with
  | isExecutionRunning =>
    cases phase with
    | up => rw [h.2.running]; exact hk
    | joined running => rw [h.2.2.1]; exact hk
    | _ => exact hk _
  | waitLoopActive =>
    cases phase with
    | up => rw [h.2.active]; exact hk
    | joined running => rw [h.2.2.2]; exact hk
    | _ => exact hk _
  | _ => exact hk _

theorem storePre_holds {phase : Phase} {g : Course} {s : Server} (h : phase.Holds g s) {f : Flag}
    {b : Bool} {L : Phase → Prop} (hk : storePre f b phase L) :
    ∃ phase', phase'.Holds g (s.setFlag f b) ∧ L phase' := by
  cases f with
  | isExecutionRunning =>
    cases phase with
    | joined running => exact ⟨.joined b, ⟨h.1, h.2.1, by simp, by simpa using h.2.2.2⟩, hk⟩
    | _ => exact hk.elim
  | waitLoopActive =>
    cases phase with
    | joined running =>
      cases b with
      | true => exact ⟨.starting running, ⟨h.1, h.2.1, by simpa using h.2.2.1, by simp⟩, hk⟩
      | false => exact hk.elim
    | _ => cases b <;> exact hk.elim
  | _ => exact ⟨phase, h.congr rfl (by simp) (by simp) rfl, hk⟩

theorem updateSessionPre_holds {x : Session} {u : SessionUpdate} {capturing : Bool}
    {K : Bool → Prop} (hc : x.outputCapture.isSome = capturing) (hd : x.disposed = false)
    (hk : updateSessionPre u capturing K) : ∃ capturing',
      (x.update u).outputCapture.isSome = capturing' ∧ (x.update u).disposed = false ∧
        K capturing' := by
  cases u with
  | dispose => exact hk.elim
  | beginCapture suppress => exact ⟨true, rfl, hd, hk⟩
  | endCapture => exact ⟨false, rfl, hd, hk⟩
  | appendCapture text => exact ⟨capturing, by simpa [Session.update] using hc, hd, hk⟩
  | _ => exact ⟨capturing, hc, hd, hk⟩

theorem callPre_holds {stops : ℕ} {β : Type} {c : Call β} {K : β → UpdateView → Prop}
    {v : UpdateView} {s : Server} {g : Course} {b : β} (hv : v.Sees id stops (s, g))
    (hk : callPre c K v) (f : EngineState → EngineState) :
    ∃ v', v'.Sees id stops (s.updateEngine id f, (DapOp.call id c).course b g) ∧ K b v' := by
  have hsame : v.Sees id stops (s.updateEngine id f, g) := by
    refine { hv with phase := hv.phase.congr rfl rfl rfl rfl, capturing := ?_, disposed := ?_ }
    · rw [Server.updateEngine_sessions, if_pos rfl]; exact hv.capturing
    · rw [Server.updateEngine_sessions, if_pos rfl]; exact hv.disposed
  cases c with
  | setInterrupt =>
    obtain ⟨phase, joinable, capturing, interrupted, failed⟩ := v
    cases phase with
    | up =>
      cases b with
      | ok _ =>
        have hphase : Phase.halting.Holds { g with interrupted := true, owed := true }
            (s.updateEngine id f) := ⟨rfl, fun hl => absurd hl hv.phase.2.loop⟩
        exact ⟨⟨.halting, joinable, capturing, true, failed⟩,
          { hsame with phase := hphase, interrupted := rfl }, hk.1⟩
      | error hr => exact ⟨_, hsame, hk.2 hr⟩
    | _ => exact hk.elim
  | execute command =>
    refine ⟨{ v with failed := v.failed || (!b.status.isOk && command.throws) },
      { hsame with phase := hsame.phase.congr rfl rfl rfl rfl, failed := ?_ }, hk b⟩
    exact congrArg (· || _) hv.failed
  | _ => exact ⟨v, hsame, hk b⟩

/-- A step of the request thread in a phase. -/
theorem updatePre_sem {stops : ℕ} {β : Type} (o : DapOp β) {K : β → UpdateView → Prop}
    {v : UpdateView} {s s' : Server} {g : Course} {b : β} (hv : v.Sees id stops (s, g))
    (hw : (updateSpec id).pre o K v) (h : sem .request β o s b s') :
    ∃ v', v'.Sees id stops (s', o.course b g) ∧ K b v' := by
  have hp := hv.phase
  cases o with
  | load f =>
    obtain ⟨rfl, rfl⟩ := sem_load.1 h
    exact ⟨v, hv, loadPre_holds (K := fun b => K b v) hp hw⟩
  | store f b =>
    rw [sem_store.1 h]
    obtain ⟨phase, hphase, hk⟩ := storePre_holds (L := fun phase => K () { v with phase }) hp hw
    exact ⟨{ v with phase }, { hv with phase := hphase }, hk⟩
  | takeLoop =>
    obtain ⟨rfl, rfl⟩ := sem_takeLoop.1 h
    have hk : K v.joinable { v with joinable := false } := hw
    rw [← show s.loopJoinable = v.joinable from hv.joinable] at hk
    exact ⟨{ v with joinable := false },
      { hv with phase := hp.congr rfl rfl rfl rfl, joinable := rfl }, hk⟩
  | joinLoop =>
    obtain ⟨hl, rfl⟩ := sem_joinLoop.1 h
    obtain ⟨hm, hk⟩ := hw
    refine ⟨_, ?_, hk (s.flags .isExecutionRunning)⟩
    obtain ⟨phase, _, _, _, _⟩ := v
    cases phase with
    | halting => exact { hv with phase := ⟨rfl, hl, rfl, hp.2 hl⟩, joinable := rfl }
    | _ => cases hm
  | loopJoinable =>
    obtain ⟨rfl, rfl⟩ := sem_loopJoinable.1 h
    refine ⟨v, hv, ?_⟩
    rw [show s'.loopJoinable = v.joinable from hv.joinable]
    exact hw
  | spawnLoop i =>
    rw [sem_spawnLoop.1 h]
    obtain ⟨hm, hk⟩ := hw
    refine ⟨_, ?_, hk⟩
    obtain ⟨phase, _, _, _, _⟩ := v
    match phase, hm with
    | .starting true, _ =>
      exact { hv with phase := ⟨hp.1, hp.2.2.1, hp.2.2.2, fun h => by cases h⟩, joinable := rfl }
  | unpark =>
    obtain ⟨rfl, rfl⟩ := sem_unpark.1 h
    have hk : K none v := hw
    rw [show s.parked = none from hv.parked]
    exact ⟨v, { hv with phase := hp.congr rfl rfl rfl rfl, parked := rfl }, hk⟩
  | session =>
    obtain ⟨rfl, rfl⟩ := sem_session.1 h
    rw [show s'.session = some id from hv.session]
    exact ⟨v, hv, hw⟩
  | readSession i =>
    obtain ⟨rfl, rfl⟩ := sem_readSession.1 h
    obtain ⟨rfl, hk⟩ := hw
    exact ⟨v, hv, hk _ hv.disposed hv.capturing⟩
  | updateSession i u =>
    rw [sem_updateSession.1 h]
    obtain ⟨rfl, hk⟩ := hw
    obtain ⟨capturing, hc, hd, hk⟩ := updateSessionPre_holds hv.capturing hv.disposed hk
    refine ⟨{ v with capturing }, { hv with
      phase := hp.congr rfl rfl rfl rfl, capturing := ?_, disposed := ?_ }, hk⟩
    · rw [Server.modifySession_sessions, if_pos rfl]; exact hc
    · rw [Server.modifySession_sessions, if_pos rfl]; exact hd
  | call i c =>
    obtain ⟨rfl, hk⟩ := hw
    obtain ⟨created, after, -, -, rfl⟩ := sem_call h
    exact callPre_holds hv hk _
  | send m =>
    obtain ⟨hm, hk⟩ := hw
    have hstops : s'.stops = s.stops := by
      rw [(sem_stops h).2, DapOp.isStop, hm]
      rfl
    rw [sem_send.1 h] at hstops ⊢
    refine ⟨v, ?_, hk⟩
    split at hstops
    · rename_i ho
      rw [if_pos ho]
      exact { hv with phase := hp.congr rfl rfl rfl rfl, stops := hstops.trans hv.stops }
    · rename_i ho
      rw [if_neg ho]
      exact hv
  | enqueue =>
    rw [sem_enqueue.1 h]
    exact ⟨v, { hv with phase := hp.congr rfl rfl rfl rfl }, hw⟩
  | acquire =>
    obtain ⟨_, -, -, rfl⟩ := sem_acquire.1 h
    exact ⟨v, { hv with phase := hp.congr rfl rfl rfl rfl }, hw⟩
  | release =>
    rw [sem_release.1 h]
    exact ⟨v, { hv with phase := hp.congr rfl rfl rfl rfl }, hw⟩
  | lockGate =>
    obtain ⟨-, rfl⟩ := sem_lockGate.1 h
    exact ⟨v, { hv with phase := hp.congr rfl rfl rfl rfl }, hw⟩
  | unlockGate =>
    rw [sem_unlockGate.1 h]
    exact ⟨v, { hv with phase := hp.congr rfl rfl rfl rfl }, hw⟩
  | tables =>
    obtain ⟨-, rfl⟩ := sem_tables.1 h
    exact ⟨v, hv, hw b⟩
  | modify f =>
    obtain ⟨-, rfl⟩ := sem_modify.1 h
    exact ⟨v, { hv with phase := hp.congr rfl rfl rfl rfl }, hw b⟩
  | fullPath path =>
    obtain ⟨-, rfl⟩ := sem_fullPath.1 h
    exact ⟨v, hv, hw b⟩
  | _ => exact hw.elim

theorem updatePre_step {stops : ℕ} {β : Type} (o : DapOp β) {K : β → UpdateView → Prop}
    {v : UpdateView} {p p' : Server × Course} {b : β} (hv : v.Sees id stops p)
    (hw : (updateSpec id).pre o K v) (h : updateSteps id β o p b p') :
    ∃ v', v'.Sees id stops p' ∧ K b v' := by
  obtain ⟨s, g⟩ := p
  obtain ⟨s', g'⟩ := p'
  obtain ⟨s₁, hy, hsem, (rfl : g' = o.course b g)⟩ := h
  exact updatePre_sem o (hv.yields hy) hw hsem

/-! ## Reported failures -/

/-- `p` throws exactly when one of its commands has failed. -/
def Reported (id : SessionId) {α : Type} (p : Dap α) : Prop :=
  ∀ v : UpdateView, v.capturing = false → v.failed = false →
    p.wp (updateSpec id) (fun _ v' => v' = v) (fun _ v' => v' = { v with failed := true }) v

namespace Reported

variable {α β : Type}

theorem ret (a : α) : Reported id (.ret a : Dap α) := fun _ _ _ => rfl

theorem bind {p : Dap α} {f : α → Dap β} (hp : Reported id p) (hf : ∀ a, Reported id (f a)) :
    Reported id (p.bind f) := by
  intro v hc hn
  rw [wp_bind]
  refine wp_mono_val (fun a v' hv => ?_) (hp v hc hn)
  rw [hv]
  exact hf a v hc hn

theorem ite {c : Prop} [Decidable c] {p q : Dap α} (hp : Reported id p) (hq : Reported id q) :
    Reported id (if c then p else q) := by
  split
  · exact hp
  · exact hq

theorem forEach {f : α → Dap Unit} (hf : ∀ a, Reported id (f a)) (xs : List α) :
    Reported id (Prog.forEach f xs) := by
  induction xs with
  | nil => exact ret ()
  | cons x xs ih => exact (hf x).bind fun _ => ih

theorem mapEach {f : α → Dap β} {xs : List α} (hf : ∀ x ∈ xs, Reported id (f x)) :
    Reported id (Prog.mapEach f xs) := by
  induction xs with
  | nil => exact ret []
  | cons x xs ih =>
    obtain ⟨hx, hxs⟩ := List.forall_mem_cons.1 hf
    exact hx.bind fun _ => (ih hxs).bind fun _ => ret _

theorem invoke {p : Dap α} (hp : Reported id p) : Reported id (invoke .request p) := by
  intro v hc hn
  change (Prog.bind p.attempt _).wp _ _ _ v
  rw [wp_bind, wp_attempt]
  exact wp_mono (fun _ _ hv => hv) (fun _ _ hv => hv) (hp v hc hn)

theorem readSession {f : Session → Dap α}
    (hf : ∀ x : Session, x.disposed = false → x.outputCapture = none → Reported id (f x)) :
    Reported id ((readSession id).bind f) := by
  intro v hc hn
  refine ⟨rfl, fun x hd ho => hf x hd ?_ v hc hn⟩
  rw [hc] at ho
  exact Option.isNone_iff_eq_none.1 (by simpa using ho)

end Reported

namespace Session

theorem throwIfDisposed_view {v : UpdateView} {Q : Unit → UpdateView → Prop}
    {E : Exn → UpdateView → Prop} (h : Q () v) :
    (throwIfDisposed id).wp (updateSpec id) Q E v := by
  refine ⟨rfl, fun x hd _ => ?_⟩
  change (ite _ _ _ : Dap Unit).wp _ _ _ v
  rw [if_neg (by simp [hd])]
  exact h

theorem throwIfDisposed_reported : Reported id (throwIfDisposed id) :=
  fun _ _ _ => throwIfDisposed_view rfl

theorem throwIfNullOrWhitespace_reported {value : String} (what : String)
    (h : value.toList.all Text.isSpace = false) :
    Reported id (throwIfNullOrWhitespace value what) := by
  rw [throwIfNullOrWhitespace, if_neg (by simp [h])]
  exact .ret _

theorem getConfiguredBreakpointIds_reported : Reported id (getConfiguredBreakpointIds id) :=
  throwIfDisposed_reported.bind fun _ _ _ _ => ⟨rfl, fun _ => rfl⟩

/-- Printed output shows in no view. -/
theorem handleOutput_view (texts : List String) (v : UpdateView) {E : Exn → UpdateView → Prop} :
    (Prog.forEach (handleOutputReceived id) texts).wp (updateSpec id) (fun _ v' => v' = v) E v := by
  refine wp_forEach (I := fun v' => v' = v) (fun text _ v' hv => ?_) rfl
  subst hv
  rw [handleOutputReceived, bind_eq, wp_bind]
  refine ⟨rfl, fun x _ _ => ⟨rfl, ?_⟩⟩
  change (ite _ _ _ : Dap Unit).wp _ _ _ v'
  split
  · rw [onOutputReceived]
    split
    · rfl
    · exact ⟨rfl, rfl⟩
  · rfl

theorem executeDebuggerCommand_view {command : Command} (hp : command.plain = true)
    (message : String) (v : UpdateView) :
    (executeDebuggerCommand id command message).wp (updateSpec id) (fun _ v' => v' = v)
      (fun _ v' => v' = { v with failed := v.failed || command.throws }) v := by
  rw [executeDebuggerCommand, bind_eq, wp_bind]
  refine throwIfDisposed_view ?_
  rw [execute, Command.pump_of_plain hp]
  simp only [Option.isSome_none, Bool.false_eq_true, if_false, bind_eq, wp_bind]
  refine ⟨rfl, fun r => ?_⟩
  simp only [wp_ret]
  refine wp_mono_val (fun _ v' hv => ?_) (handleOutput_view _ _)
  subst hv
  change (checkHr r.status message).wp _ _ _ _
  cases hr : r.status with
  | ok => simp [checkHr, Except.isOk, Except.toBool]
  | error hr => simp [checkHr, Except.isOk, Except.toBool, throwRuntime]

theorem executeCommandWithOutput_view {command : Command} (hp : command.plain = true)
    {v : UpdateView} (hc : v.capturing = false) :
    (executeCommandWithOutput id command).wp (updateSpec id) (fun _ v' => v' = v)
      (fun _ v' => v' = { v with failed := v.failed || command.throws }) v := by
  rw [executeCommandWithOutput]
  simp only [bind_eq, wp_bind]
  refine throwIfDisposed_view ?_
  rw [throwIfNullOrWhitespace, if_neg (by simp [Command.render_of_plain hp]), pure_eq, wp_ret,
    beginOutputCapture, bind_eq, wp_bind]
  refine ⟨rfl, fun x _ ho => ?_⟩
  rw [hc] at ho
  rw [wp_ret, if_neg (by simp [ho])]
  refine ⟨rfl, ?_⟩
  have hend (failed : Bool) : ({ v with capturing := false, failed } : UpdateView) =
      { v with failed } := by rw [← hc]
  simp only [wp_ret, wp_catching, wp_bind]
  refine wp_mono (fun _ v' hv => ?_) (fun e v' hv => ?_) (executeDebuggerCommand_view hp _ _)
  · subst hv
    exact ⟨rfl, fun _ _ _ => ⟨rfl, hend v.failed⟩⟩
  · subst hv
    exact ⟨rfl, hend _⟩

theorem executeCommandWithOutput_reported {command : Command} (hp : command.plain = true)
    (ht : command.throws = true) : Reported id (executeCommandWithOutput id command) := by
  intro v hc hn
  refine wp_mono (fun _ _ hv => hv) (fun _ v' hv => ?_) (executeCommandWithOutput_view hp hc)
  rw [hv, hn, ht, Bool.false_or]

/-! ### The setters -/

theorem clearBreakpoint_reported (breakpoint : Int) : Reported id (clearBreakpoint id breakpoint) :=
  (executeCommandWithOutput_reported rfl rfl).bind fun _ => .ret _

theorem updateSession_reported {u : SessionUpdate}
    (h : ∀ capturing K, updateSessionPre u capturing K = K capturing) :
    Reported id (updateSession id u) := by
  intro v _ _
  refine ⟨rfl, ?_⟩
  rw [h]
  rfl

theorem clearSourceBreakpoints_reported (path : String) :
    Reported id (clearSourceBreakpoints id path) := by
  refine .readSession fun x _ _ => ?_
  split
  · exact .ret _
  · exact (updateSession_reported fun _ _ => rfl).bind fun _ => .forEach clearBreakpoint_reported _

theorem configureSourceBreakpoint_reported (path : String) (configured : ConfiguredBreakpoints)
    (bp : SourceBreakpointSpec) :
    Reported id (configureSourceBreakpoint id path configured bp) :=
  getConfiguredBreakpointIds_reported.bind fun _ =>
    (executeCommandWithOutput_reported rfl rfl).bind fun _ =>
      getConfiguredBreakpointIds_reported.bind fun _ => .ret _

theorem configureSourceBreakpoints_reported (path : String) (configured : ConfiguredBreakpoints)
    (specs : List SourceBreakpointSpec) :
    Reported id (configureSourceBreakpoints id path configured specs) := by
  induction specs generalizing configured with
  | nil => exact .ret _
  | cons bp specs ih =>
    exact (configureSourceBreakpoint_reported path configured bp).bind fun configured => ih configured

theorem setSourceBreakpoints_reported {filePath : String} (specs : List SourceBreakpointSpec)
    (h : filePath.toList.all Text.isSpace = false) :
    Reported id (setSourceBreakpoints id filePath specs) := by
  refine throwIfDisposed_reported.bind fun _ =>
    (throwIfNullOrWhitespace_reported _ h).bind fun _ => ?_
  refine Reported.bind (fun _ _ _ _ => rfl) fun path => ?_
  refine (executeCommandWithOutput_reported rfl rfl).bind fun _ =>
    (clearSourceBreakpoints_reported path).bind fun _ => ?_
  refine .ite (.ret _) ?_
  exact (configureSourceBreakpoints_reported path _ _).bind fun _ =>
    (updateSession_reported fun _ _ => rfl).bind fun _ => .ret _

theorem setCommandBreakpoint_reported (kind : BreakpointKind) {command : Command} (label : String)
    (hp : command.plain = true) (ht : command.throws = false) :
    Reported id (setCommandBreakpoint id kind command label) := by
  refine getConfiguredBreakpointIds_reported.bind fun before => ?_
  refine Reported.bind (fun v hc _ => ?_) fun _ =>
    getConfiguredBreakpointIds_reported.bind fun after => ?_
  · -- a rejected command is caught
    rw [wp_catching]
    refine wp_mono (fun _ _ hv => hv) (fun _ v' hv => ?_) (executeCommandWithOutput_view hp hc)
    rw [hv, ht, Bool.or_false]
    rfl
  · split
    · exact .readSession fun _ _ _ => (updateSession_reported fun _ _ => rfl).bind fun _ => .ret _
    · exact .ret _

theorem setCommandBreakpoints_reported (kind : BreakpointKind) (commands : List (Command × String))
    (h : ∀ c ∈ commands, c.1.plain = true ∧ c.1.throws = false) :
    Reported id (setCommandBreakpoints id kind commands) := by
  refine throwIfDisposed_reported.bind fun _ => .readSession fun x _ _ => ?_
  refine (Reported.forEach clearBreakpoint_reported _).bind fun _ =>
    (updateSession_reported fun _ _ => rfl).bind fun _ => ?_
  exact .mapEach fun c hc => setCommandBreakpoint_reported kind c.2 (h c hc).1 (h c hc).2

theorem setCppFirstChanceBreak_reported (enabled : Bool) :
    Reported id (setCppFirstChanceBreak id enabled) :=
  throwIfDisposed_reported.bind fun _ => (executeCommandWithOutput_reported rfl rfl).bind fun _ =>
    updateSession_reported fun _ _ => rfl

theorem continue_reported : Reported id (continue_ id) := by
  refine (updateSession_reported fun _ _ => rfl).bind fun _ v hc hn => ?_
  refine wp_mono (fun _ _ hv => hv) (fun _ v' hv => ?_) (executeDebuggerCommand_view rfl _ v)
  rw [hv, hn]
  rfl

end Session

namespace Server

/-! ## The handshake step by step -/

/-- Without an interrupt the target runs as before; after one it runs again, unless a command has
failed or the update was refused: then no wait loop was started. -/
def Settled (refused : Prop) (v : UpdateView) : Prop :=
  v.phase = .up ∧ v.failed = false ∧ (v.interrupted = true → ¬refused) ∨
    (∃ running, v.phase = .joined running) ∧ v.interrupted = true ∧ (v.failed = true ∨ refused)

variable {α : Type} {update : Dap α} {refused : Prop}

theorem settled_up : Settled refused { phase := .up } := .inl ⟨rfl, rfl, fun h => by cases h⟩

theorem interrupt_view {Q : Unit → UpdateView → Prop}
    (hQ : Q () { phase := .halting, interrupted := true }) :
    (Session.interrupt id).wp (updateSpec id) Q (fun _ => Settled refused) { phase := .up } := by
  rw [Session.interrupt, bind_eq, wp_bind]
  refine Session.throwIfDisposed_view ⟨rfl, ?_, fun hr => ?_⟩
  · exact hQ
  · exact settled_up

theorem joinWaitLoop_view {Q : Unit → UpdateView → Prop} {E : Exn → UpdateView → Prop}
    (hQ : ∀ running, Q () { phase := .joined running, joinable := false, interrupted := true }) :
    joinWaitLoop.wp (updateSpec id) Q E { phase := .halting, interrupted := true } :=
  ⟨rfl, fun running => hQ running⟩

theorem startWaiting_view {Q : Unit → UpdateView → Prop} {E : Exn → UpdateView → Prop}
    (hQ : Q () { phase := .up, interrupted := true }) :
    (startWaitingForSessionEvent id).wp (updateSpec id) Q E
      { phase := .joined true, joinable := false, interrupted := true } :=
  ⟨rfl, hQ⟩

/-- The target is halted and the wait loop joined. -/
abbrev halted (running : Bool) : UpdateView :=
  { phase := .joined running, joinable := false, interrupted := true }

/-- An update that is refused throws at once; another one throws when a command has failed. -/
def Attempts (id : SessionId) (refused : Prop) (update : Dap α) : Prop :=
  ¬refused ∧ Reported id update ∨ refused ∧ ∀ v, update.wp (updateSpec id)
    (fun _ _ => False) (fun _ v' => v' = v) v

theorem Attempts.invoke (hu : Attempts id refused update) :
    Attempts id refused (invoke .request update) := by
  rcases hu with ⟨hr, hu⟩ | ⟨hr, hu⟩
  · exact .inl ⟨hr, hu.invoke⟩
  · refine .inr ⟨hr, fun v => ?_⟩
    change (Prog.bind update.attempt _).wp _ _ _ v
    rw [wp_bind, wp_attempt]
    exact wp_mono (fun _ _ h => h.elim) (fun _ _ hv => hv) (hu v)

/-- What happens between the join and the new wait loop. -/
theorem updateAndResume_view (hu : Attempts id refused update) {running : Bool} :
    (update.bind fun result => (store .isExecutionRunning true).bind fun _ =>
      (invoke .request (Session.continue_ id)).bind fun _ => .ret result).wp (updateSpec id)
      (fun _ v' => v' = halted true ∧ ¬refused) (fun _ => Settled refused) (halted running) := by
  rw [wp_bind]
  rcases hu with ⟨hr, hu⟩ | ⟨hr, hu⟩
  · refine wp_mono (fun result v' hv => ?_) (fun e v' hv => ?_) (hu (halted running) rfl rfl)
    · subst hv
      have hresume : Reported id (invoke .request (Session.continue_ id)) :=
        Session.continue_reported.invoke
      have hwp := hresume (halted true) rfl rfl
      have hafter : ((DapDbgeng.invoke .request (Session.continue_ id)).bind fun _ =>
          .ret result).wp (updateSpec id) (fun _ v' => v' = halted true ∧ ¬refused)
          (fun _ => Settled refused) (halted true) := by
        rw [wp_bind]
        refine wp_mono (fun _ v' hv => ⟨hv, hr⟩) (fun e v' hv => ?_) hwp
        exact hv ▸ .inr ⟨⟨true, rfl⟩, rfl, .inl rfl⟩
      rw [wp_bind]
      exact hafter
    · exact hv ▸ .inr ⟨⟨running, rfl⟩, rfl, .inl rfl⟩
  · refine wp_mono (fun _ _ h => h.elim) (fun e v' hv => ?_) (hu (halted running))
    exact hv ▸ .inr ⟨⟨running, rfl⟩, rfl, .inr hr⟩

theorem applyBreakpointUpdateWhileRunning_view (hu : Attempts id refused update) :
    (applyBreakpointUpdateWhileRunning id update).wp (updateSpec id)
      (fun _ => Settled refused) (fun _ => Settled refused) { phase := .up } := by
  have action : (Prog.bind (Session.interrupt id) fun _ => joinWaitLoop.bind fun _ =>
      update.bind fun result => (store .isExecutionRunning true).bind fun _ =>
        (invoke .request (Session.continue_ id)).bind fun _ => .ret result).wp (updateSpec id)
      (fun _ v' => v' = halted true ∧ ¬refused) (fun _ => Settled refused) { phase := .up } := by
    rw [wp_bind]
    refine interrupt_view ?_
    rw [wp_bind]
    exact joinWaitLoop_view fun running => updateAndResume_view hu
  rw [applyBreakpointUpdateWhileRunning, bind_eq, wp_bind, runWithSuppressedSessionEvents, bind_eq,
    wp_bind]
  change (Prog.bind (Prog.catching _ _) _).wp _ _ _ ({ phase := .up } : UpdateView)
  rw [wp_bind, wp_catching]
  refine wp_mono (fun result v' hv => ?_) (fun e v' hv => ?_) action
  · obtain ⟨rfl, hr⟩ := hv
    have hstart : (startWaitingForSessionEvent id).wp (updateSpec id) (fun _ => Settled refused)
        (fun _ => Settled refused) (halted true) :=
      startWaiting_view (.inl ⟨rfl, rfl, fun _ => hr⟩)
    simp only [bind_eq, wp_bind, pure_eq, wp_ret]
    exact hstart
  · exact hv

/-! ## The handlers -/

theorem send_view {v : UpdateView} {E : Exn → UpdateView → Prop} {m : Message}
    (hm : m.isStopped = false) (hv : Settled refused v) :
    (send m).wp (updateSpec id) (fun _ => Settled refused) E v := ⟨hm, hv⟩

theorem settled_fail {β : Type} (request : Request β) (e : Exn) {v : UpdateView}
    (hv : Settled refused v) : (failUnwrapped request e).wp (updateSpec id)
      (fun _ => Settled refused) (fun _ => Settled refused) v := ⟨rfl, hv⟩

/-- A handler finds the target running. -/
theorem whileRunning_view {f : SessionId → Bool → Dap α} {Q : α → UpdateView → Prop}
    {E : Exn → UpdateView → Prop} (h : (f id true).wp (updateSpec id) Q E { phase := .up }) :
    (do
      let id ← requireDebuggerSession
      let resumeAfterUpdate ← load .isExecutionRunning
      f id resumeAfterUpdate).wp (updateSpec id) Q E { phase := .up } := h

theorem applyUpdate_view {β γ : Type} (request : Request β) (name : String)
    {update : SessionId → Dap γ} (respond : γ → Body) (hu : Attempts id refused (update id)) :
    (applyUpdate request name update respond).wp (updateSpec id) (fun _ => Settled refused)
      (fun _ => Settled refused) { phase := .up } := by
  have apply : (Prog.bind (applyBreakpointUpdateWhileRunning id (DapDbgeng.invoke .request
      (update id))) fun results => sendResponse request (respond results)).wp (updateSpec id)
      (fun _ => Settled refused) (fun _ => Settled refused) { phase := .up } := by
    rw [wp_bind]
    refine wp_mono_val (fun results v' hv => ?_) (applyBreakpointUpdateWhileRunning_view hu.invoke)
    exact send_view rfl hv
  unfold applyUpdate
  change (Prog.catching _ _).wp _ _ _ ({ phase := .up } : UpdateView)
  rw [wp_catching]
  exact wp_mono (fun _ _ hv => hv) (fun e v' hv => settled_fail request e hv) apply

theorem setSourceBreakpoints_attempts {filePath : String} (specs : List SourceBreakpointSpec)
    (h : refused ↔ filePath.toList.all Text.isSpace = true) :
    Attempts id refused (Session.setSourceBreakpoints id filePath specs) := by
  by_cases hr : refused
  · refine .inr ⟨hr, fun v => ?_⟩
    rw [Session.setSourceBreakpoints, bind_eq, wp_bind]
    refine Session.throwIfDisposed_view ?_
    rw [bind_eq, wp_bind, Session.throwIfNullOrWhitespace, if_pos (h.1 hr)]
    rfl
  · refine .inl ⟨hr, Session.setSourceBreakpoints_reported specs ?_⟩
    rwa [h, Bool.not_eq_true] at hr

/-- Recording conditions leaves the handshake alone. -/
theorem updateConditionalBreakpointState_view (sourcePath : String)
    (configured : List SourceBreakpointResult) (requested : List SourceBreakpoint)
    (v : UpdateView) : (updateConditionalBreakpointState sourcePath configured requested).wp
      (updateSpec id) (fun _ v' => v' = v) (fun _ _ => False) v := by
  refine updateConditionalBreakpointState_composed (Q := fun {_} p => ∀ v : UpdateView,
    p.wp (updateSpec id) (fun _ v' => v' = v) (fun _ _ => False) v) (fun _ => rfl)
    (fun hp hf v => ?_) (fun _ _ => rfl) (fun _ _ _ _ => rfl) v
  rw [wp_bind]
  exact wp_mono_val (fun a _ hv => hv ▸ hf a v) (hp v)

theorem configureSetBreakpoints_view (request : Request SetBreakpointsArguments)
    {sourcePath : String} (h : refused ↔ sourcePath.toList.all Text.isSpace = true) :
    (configureSetBreakpoints request sourcePath).wp (updateSpec id) (fun _ => Settled refused)
      (fun _ => Settled refused) { phase := .up } := by
  unfold configureSetBreakpoints
  dsimp only
  have update (specs : List SourceBreakpointSpec) :
      (setBreakpointsWhileRunning id sourcePath specs).wp (updateSpec id)
        (fun _ => Settled refused) (fun _ => Settled refused) { phase := .up } :=
    applyBreakpointUpdateWhileRunning_view (setSourceBreakpoints_attempts specs h).invoke
  refine whileRunning_view ?_
  rw [if_pos rfl, bind_eq, wp_bind]
  refine wp_mono_val (fun configured v' hv => ?_) (update _)
  rw [bind_eq, wp_bind]
  refine wp_mono (fun _ v'' heq => ?_) (fun _ _ h => h.elim)
    (updateConditionalBreakpointState_view sourcePath configured _ v')
  subst heq
  refine ⟨rfl, ?_⟩
  change (ite _ _ _ : Dap Unit).wp _ _ _ v''
  split
  · exact hv
  · exact ⟨rfl, hv⟩

/-! ### The requests -/

/-- The commands that update breakpoints. -/
def updateCommands : List String :=
  ["setBreakpoints", "setFunctionBreakpoints", "setInstructionBreakpoints", "setDataBreakpoints",
    "setExceptionBreakpoints"]

/-- A message that updates breakpoints. -/
def updatesBreakpoints (root : Json) : Bool :=
  accepts root && match Decoder.valueString "command" root with
    | .error _ => false
    | .ok command => updateCommands.contains command

/-- A setBreakpoints request whose path is white space for the session and not for the handler. -/
def refusesPath (root : Json) : Bool :=
  match Decoder.valueString "command" root,
      decodeRequest "setBreakpoints" Decoder.setBreakpointsArguments root with
  | .ok "setBreakpoints", .ok request =>
    request.arguments.source.path.any fun path => path.toList.all Text.isSpace
  | _, _ => false

variable {root : Json}

/-- `p` leaves the handshake settled, from a running target. -/
abbrev Settles (id : SessionId) (refused : Prop) {α : Type} (p : Dap α) : Prop :=
  p.wp (updateSpec id) (fun _ => Settled refused) (fun _ => Settled refused) { phase := .up }

theorem fail_settles {β : Type} (request : Request β) (message : String) :
    Settles id refused (fail request message) := ⟨rfl, settled_up⟩

theorem handleSetBreakpointsRequest_settles (request : Request SetBreakpointsArguments)
    (h : refused ↔ request.arguments.source.path.any fun path => path.toList.all Text.isSpace) :
    Settles id refused (handleSetBreakpointsRequest request) := by
  unfold handleSetBreakpointsRequest
  dsimp only
  split
  · exact fail_settles request _
  · split
    · exact fail_settles request _
    · rename_i path hp
      obtain ⟨hpath, -⟩ := Option.filter_eq_some_iff.1 hp
      refine configureSetBreakpoints_view request (h.trans ?_)
      rw [hpath, Option.any_some]

theorem setCommandBreakpoints_attempts (hr : ¬refused) (kind : BreakpointKind)
    {commands : List (Command × String)}
    (h : ∀ c ∈ commands, c.1.plain = true ∧ c.1.throws = false) :
    Attempts id refused (Session.setCommandBreakpoints id kind commands) :=
  .inl ⟨hr, Session.setCommandBreakpoints_reported kind commands h⟩

theorem handleSetFunctionBreakpointsRequest_settles (hr : ¬refused)
    (request : Request (List String)) :
    Settles id refused (handleSetFunctionBreakpointsRequest request) := by
  unfold handleSetFunctionBreakpointsRequest
  split
  · exact fail_settles request _
  · refine applyUpdate_view request _ _ (setCommandBreakpoints_attempts hr .function ?_)
    intro c hc
    obtain ⟨name, -, rfl⟩ := List.mem_map.1 hc
    exact ⟨rfl, rfl⟩

theorem handleSetInstructionBreakpointsRequest_settles (hr : ¬refused)
    (request : Request (List InstructionBreakpoint)) :
    Settles id refused (handleSetInstructionBreakpointsRequest request) := by
  unfold handleSetInstructionBreakpointsRequest
  split
  · exact fail_settles request _
  · refine applyUpdate_view request _ _ (setCommandBreakpoints_attempts hr .instruction ?_)
    intro c hc
    obtain ⟨address, -, rfl⟩ := List.mem_map.1 hc
    exact ⟨rfl, rfl⟩

theorem handleSetDataBreakpointsRequest_settles (hr : ¬refused)
    (request : Request (List DataBreakpoint)) :
    Settles id refused (handleSetDataBreakpointsRequest request) := by
  unfold handleSetDataBreakpointsRequest
  split
  · exact fail_settles request _
  · refine applyUpdate_view request _ _ (setCommandBreakpoints_attempts hr .data ?_)
    intro c hc
    obtain ⟨spec, -, rfl⟩ := List.mem_map.1 hc
    exact ⟨rfl, rfl⟩

theorem handleSetExceptionBreakpointsRequest_settles (hr : ¬refused)
    (request : Request (List String)) :
    Settles id refused (handleSetExceptionBreakpointsRequest request) :=
  applyUpdate_view request _ _ (.inl ⟨hr, Session.setCppFirstChanceBreak_reported _⟩)

theorem run_settles {dec : Decoder (Request α)} {handler : Request α → Dap Unit}
    (h : ∀ request, dec root = .ok request → Settles id refused (handler request)) :
    Settles id refused (run dec handler root) := by
  unfold run
  cases hd : dec root with
  | error what => exact settled_up
  | ok request => exact h request hd

theorem dispatchRequest_settles {command : String}
    (hc : Decoder.valueString "command" root = .ok command) (hm : command ∈ updateCommands) :
    Settles id (refusesPath root = true) (dispatchRequest root) := by
  have other (hn : command ≠ "setBreakpoints") : ¬refusesPath root = true := by
    simp only [refusesPath, hc]
    split
    · rename_i hs _
      cases hs
      exact absurd rfl hn
    · simp
  simp only [dispatchRequest, hc]
  simp only [updateCommands, List.mem_cons, List.not_mem_nil, or_false] at hm
  obtain rfl | rfl | rfl | rfl | rfl := hm
  · have settles : Settles id (refusesPath root = true) (run (decodeRequest "setBreakpoints"
        Decoder.setBreakpointsArguments) handleSetBreakpointsRequest root) :=
      run_settles fun request hd => handleSetBreakpointsRequest_settles request
        (by simp [refusesPath, hc, hd])
    simpa [handlers, List.lookup_cons, on] using settles
  · have settles : Settles id (refusesPath root = true) (run (decodeRequest "setFunctionBreakpoints"
        (Decoder.breakpointsArguments Decoder.functionBreakpoint))
        handleSetFunctionBreakpointsRequest root) :=
      run_settles fun request _ => handleSetFunctionBreakpointsRequest_settles (other (by decide)) _
    simpa [handlers, List.lookup_cons, on] using settles
  · have settles : Settles id (refusesPath root = true)
        (run (decodeRequest "setInstructionBreakpoints"
        (Decoder.breakpointsArguments Decoder.instructionBreakpoint))
        handleSetInstructionBreakpointsRequest root) :=
      run_settles fun request _ =>
        handleSetInstructionBreakpointsRequest_settles (other (by decide)) _
    simpa [handlers, List.lookup_cons, on] using settles
  · have settles : Settles id (refusesPath root = true) (run (decodeRequest "setDataBreakpoints"
        (Decoder.breakpointsArguments Decoder.dataBreakpoint))
        handleSetDataBreakpointsRequest root) :=
      run_settles fun request _ => handleSetDataBreakpointsRequest_settles (other (by decide)) _
    simpa [handlers, List.lookup_cons, on] using settles
  · have settles : Settles id (refusesPath root = true)
        (run (decodeRequest "setExceptionBreakpoints" Decoder.exceptionFilterArguments)
        handleSetExceptionBreakpointsRequest root) :=
      run_settles fun request _ => handleSetExceptionBreakpointsRequest_settles (other (by decide)) _
    simpa [handlers, List.lookup_cons, on] using settles

theorem recover_settled (e : Exn) {v : UpdateView} (hv : Settled refused v)
    {E : Exn → UpdateView → Prop} :
    (recover root e).wp (updateSpec id) (fun _ => Settled refused) E v := by
  have report (e : Exn) : (reportFailure root e).wp (updateSpec id)
      (fun _ => Settled refused) E v := by
    unfold reportFailure
    split
    · split
      · exact hv
      · exact ⟨rfl, hv⟩
    · exact hv
  unfold recover
  split
  · exact ⟨rfl, hv⟩
  · exact report _

theorem handleRequest_settles (hu : updatesBreakpoints root = true) :
    Settles id (refusesPath root = true) (handleRequest root) := by
  obtain ⟨ha, hcommand⟩ := Bool.and_eq_true_iff.1 hu
  have handled : Settles id (refusesPath root = true) (handle root) := by
    rw [handle_of_accepts ha]
    cases hc : Decoder.valueString "command" root with
    | error what => simp [hc] at hcommand
    | ok command => exact dispatchRequest_settles hc (by simpa [hc] using hcommand)
  have recovered : Settles id (refusesPath root = true)
      ((handle root).catching (recover root)) := by
    rw [Settles, wp_catching]
    exact wp_mono (fun _ _ hv => hv) (fun e v' hv => recover_settled e hv) handled
  refine fun _ => ?_
  change (Prog.bind ((handle root).catching (recover root)) _).wp _ _ _
    ({ phase := .up } : UpdateView)
  rw [wp_bind]
  exact wp_mono_val (fun _ v' hv _ => hv) recovered

/-- **A breakpoint update while the target runs.**  Where the target stops for the interrupt of the
request and for nothing else, the handled request has left it running with a wait loop, or has
reported a stop, if and only if no command has failed, other than one whose failure the setter
catches, and the session has not refused the path. -/
theorem update_resumes_iff {s s' : Server} {g : Course} {r : Except Exn Bool}
    (h : Engaged id s) (hu : updatesBreakpoints root = true)
    (hs : Ends (updateSteps id) (handleRequest root) (s, {}) r (s', g)) :
    (Up s' ∨ s.stops < s'.stops) ↔
      g.failed = false ∧ (g.interrupted = true → refusesPath root = false) := by
  obtain ⟨es, hsteps⟩ := hs
  obtain ⟨v, hv, hw⟩ := wp_view updatePre_step hsteps h.sees (handleRequest_settles hu)
  have settled : Settled (refusesPath root = true) v := by
    cases r with
    | ok shouldExit => exact hw
    | error e => exact hw
  have hstops : s'.stops = s.stops := hv.stops
  rw [show g.failed = v.failed from hv.failed, show g.interrupted = v.interrupted from hv.interrupted,
    hstops]
  rcases settled with ⟨hphase, hfailed, hrefused⟩ | ⟨⟨running, hphase⟩, hinterrupted, hfailed⟩
  · have hup : Up s' := by
      have := hv.phase
      rw [hphase] at this
      exact this.2
    exact ⟨fun _ => ⟨hfailed, fun hi => by simpa using hrefused hi⟩, fun _ => .inl hup⟩
  · have hidle : s'.loop = .idle := by
      have := hv.phase
      rw [hphase] at this
      exact this.2.1
    constructor
    · rintro (hup | hlt)
      · exact absurd hidle hup.loop
      · exact absurd hlt (lt_irrefl _)
    · rintro ⟨hn, hp⟩
      rcases hfailed with hf | hr
      · rw [hn] at hf; cases hf
      · rw [hp hinterrupted] at hr; cases hr

/-- The wait loop ends for the interrupt. -/
def yielded (s : Server) : Server :=
  { (s.setFlag .isExecutionRunning false).setFlag .waitLoopActive false with
    loop := .idle, holder := none }

theorem yields_yielded {s : Server} (h : s.loop ≠ .idle) : Yields id true s (yielded s) where
  session := rfl
  parked := rfl
  loopJoinable := rfl
  disposed := rfl
  outputCapture := rfl
  stops := rfl
  running h' := (h'.elim nofun h).elim
  active h' := (h'.elim nofun h).elim
  loop h' := (h'.elim nofun h).elim
  ended _ _ := by simp [yielded]

theorem yields_refl (owed : Bool) (s : Server) : Yields id owed s s :=
  ⟨rfl, rfl, rfl, rfl, rfl, rfl, fun _ => rfl, fun _ => rfl, fun _ => Iff.rfl,
    fun h h' => absurd h' h⟩

/-- The state in which the request thread takes its next step. -/
def beforeStep (g : Course) (s : Server) : Server :=
  if g.owed ∧ s.loop ≠ .idle then yielded s else s

theorem yields_beforeStep (g : Course) (s : Server) : Yields id g.owed s (beforeStep g s) := by
  unfold beforeStep
  split
  · rename_i h
    rw [h.1]
    exact yields_yielded h.2
  · exact yields_refl _ _

/-- One step of the request thread, the commands of `fails` failing. -/
def updateApply (fails : Command → Bool) {β : Type} (o : DapOp β) (p : Server × Course) :
    Option (β × (Server × Course)) :=
  (apply .request (failingAnswers fails o) o (beforeStep p.2 p.1)).map fun r =>
    (r.1, r.2, o.course r.1 p.2)

theorem updateSteps_of_apply {fails : Command → Bool} {β : Type} (o : DapOp β)
    (p : Server × Course) (b : β) (p' : Server × Course)
    (h : updateApply fails o p = some (b, p')) : updateSteps id β o p b p' := by
  obtain ⟨r, hr, h⟩ := Option.map_eq_some_iff.1 h
  cases h
  exact ⟨_, yields_beforeStep _ _, ⟨_, hr⟩, rfl⟩

/-- The target of session 0 runs, by what a test can see of it. -/
def isEngaged (s : Server) : Bool :=
  s.flags .isExecutionRunning && s.flags .waitLoopActive && s.loop != .idle &&
    s.session == some 0 && s.parked.isNone && s.loopJoinable && !(s.sessions 0).disposed &&
    (s.sessions 0).outputCapture.isNone

theorem engaged_of_isEngaged {s : Server} (h : isEngaged s = true) : Engaged 0 s := by
  simp only [isEngaged, Bool.and_eq_true, beq_iff_eq, bne_iff_ne, Bool.not_eq_true',
    Option.isNone_iff_eq_none] at h
  obtain ⟨⟨⟨⟨⟨⟨⟨hr, ha⟩, hl⟩, hs⟩, hp⟩, hj⟩, hd⟩, ho⟩ := h
  exact ⟨⟨hr, ha, hl⟩, hs, hp, hj, hd, ho⟩

/-- A breakpoint at line 5 of a file. -/
def breakpointAtFive : Json := Schedule.message 3 "setBreakpoints"
  [("source", .obj [("path", .str "a.cpp")]),
    ("breakpoints", .arr [.obj [("line", .int 5)]])]

/-- The target runs again after a breakpoint update. -/
theorem setBreakpoints_resumes : ∃ c : Conf, ∃ s' : Server, ∃ g : Course, ∃ r : Except Exn Bool,
    Reachable {} c ∧ Engaged 0 c.state ∧
      Ends (updateSteps 0) (handleRequest breakpointAtFive) (c.state, {}) r (s', g) ∧
        g.interrupted = true ∧ (Up s' ∨ c.state.stops < s'.stops) := by
  obtain ⟨c, hr, -, ht⟩ := reachable_of_exec Schedule.launchAndPark
    (fun c => isEngaged c.state && ((handleRequest breakpointAtFive).eval
      (updateApply fun _ => false) 400 (c.state, {})).any fun r =>
        r.2.2.interrupted && !r.2.2.failed) (by decide +kernel)
  obtain ⟨he, ht⟩ := Bool.and_eq_true_iff.1 ht
  obtain ⟨⟨r, s', g⟩, hend, ht⟩ := (Option.any_eq_true _ _).1 ht
  simp only [Bool.and_eq_true, Bool.not_eq_true'] at ht
  have ends : Ends (updateSteps 0) (handleRequest breakpointAtFive) (c.state, {}) r (s', g) :=
    Ends.of_eval updateSteps_of_apply hend
  have engaged := engaged_of_isEngaged he
  exact ⟨c, s', g, r, hr, engaged, ends, ht.1,
    (update_resumes_iff engaged (by decide) ends).2 ⟨ht.2, fun _ => by decide⟩⟩

/-- A breakpoint the engine rejects leaves the target halted, and nothing reports it. -/
theorem rejected_breakpoint_halts : ¬∀ (c : Conf) (id : SessionId) (root : Json) (s' : Server)
    (g : Course) (r : Except Exn Bool), Reachable {} c → Engaged id c.state →
      updatesBreakpoints root = true →
        Ends (updateSteps id) (handleRequest root) (c.state, {}) r (s', g) →
          Up s' ∨ c.state.stops < s'.stops := by
  intro hall
  obtain ⟨c, hr, -, ht⟩ := reachable_of_exec Schedule.launchAndPark
    (fun c => isEngaged c.state && ((handleRequest breakpointAtFive).eval
      (updateApply fun command => command matches .sourceBreakpoint ..) 400 (c.state, {})).any
        fun r => !r.2.1.flags .isExecutionRunning && r.2.1.stops == c.state.stops)
    (by decide +kernel)
  obtain ⟨he, ht⟩ := Bool.and_eq_true_iff.1 ht
  obtain ⟨⟨r, s', g⟩, hend, ht⟩ := (Option.any_eq_true _ _).1 ht
  simp only [Bool.and_eq_true, Bool.not_eq_true', beq_iff_eq] at ht
  rcases hall c 0 breakpointAtFive s' g r hr (engaged_of_isEngaged he) (by decide)
    (Ends.of_eval updateSteps_of_apply hend) with hup | hlt
  · rw [hup.running] at ht
    cases ht.1
  · rw [ht.2] at hlt
    exact lt_irrefl _ hlt

end Server

end DapDbgeng
