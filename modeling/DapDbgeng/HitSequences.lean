/-
  The hits before a break.

  The engine announces a halt by breakpoints and exceptions.  Each of them is continued
  automatically or surfaces: by the condition kept for the breakpoint and what the engine evaluates
  it to, or because the initial break of a kernel target has not been continued yet.

  * `HitAnswers`: what the engine answers while a callback runs;
  * `continuations`: which hits of a sequence are continued, from the state before it;
  * `HaltFlags.hit`: what a hit does to the members a halt is about;
  * `onCallback_hit`: what a callback does, by the above.
-/
import DapDbgeng.ConditionalHits
import DapDbgeng.Conduct
import DapDbgeng.Permits
import DapDbgeng.SessionWp
import Mathlib.Data.List.Induction

namespace DapDbgeng

open Concurrent Concurrent.Prog

/-! ## What the engine tells -/

/-- The number the engine gives for the breakpoint, and what came of evaluating its condition. -/
structure HitAnswers where
  named : ℕ := 0
  evaluation : Option ExecuteResult := none

namespace HitAnswers

def record : Concurrent.Event DapOp → HitAnswers → HitAnswers
  | ⟨.call _ .lastEvent, description⟩, told =>
    { told with named := (description.bind Session.tryParseBreakpointId).getD 0 }
  | ⟨.call _ (.execute (.condition _)), r⟩, told => { told with evaluation := some r }
  | _, told => told

/-- What the printed text says of the condition. -/
def verdict (told : HitAnswers) : Option Bool :=
  told.evaluation.bind fun r =>
    if r.status.isOk then Server.lastVerdict (Text.trimEnd (String.join r.output)) else none

/-- The breakpoint named is continued. -/
def continued (told : HitAnswers) (kept : Conditions) : Bool :=
  hitContinues kept (fun _ => told.verdict) (Factory.toInt32 told.named)

end HitAnswers

/-- A first-chance C++ exception whose filter is off. -/
def filteredOut (filter : Bool) : Callback → Bool
  | .exception code _ firstChance => firstChance && code == 0xE06D7363 && !filter
  | _ => false

/-- Which hits of a sequence are continued; only the first exception continues the initial break of a
kernel target. -/
def continuations (kept : Conditions) (filter : Bool) :
    Bool → List (Callback × HitAnswers) → List Bool
  | _, [] => []
  | initial, (event, told) :: events =>
    match event with
    | .breakpoint => told.continued kept :: continuations kept filter initial events
    | .exception .. =>
      if filteredOut filter event then continuations kept filter initial events
      else initial :: continuations kept filter false events
    | .systemError _ => initial :: continuations kept filter false events
    | _ => continuations kept filter initial events

/-! ## What a hit does -/

structure HaltFlags where
  running : Bool
  skip : Bool
  pending : Bool

namespace HaltFlags

/-- A hit is continued, or halts a target that runs. -/
def hit (h : HaltFlags) (continued : Bool) : HaltFlags :=
  if continued then { running := true, skip := true, pending := false }
  else if h.running then { h with running := false, pending := true } else h

theorem skip_hits (h : HaltFlags) (hits : List Bool) :
    (hits.foldl hit h).skip = (h.skip || hits.contains true) := by
  induction hits generalizing h with
  | nil => simp
  | cons continued hits ih =>
    rw [List.foldl_cons, ih]
    cases continued with
    | true => simp [hit]
    | false =>
      have hskip : (h.hit false).skip = h.skip := by
        rw [hit, if_neg Bool.false_ne_true]
        split <;> rfl
      simp [hskip]

/-- A halt is recorded unless it is to be skipped. -/
theorem pending_hits {h : HaltFlags}
    (hh : h.running = false → h.skip = false → h.pending = true) (hits : List Bool) :
    (hits.foldl hit h).running = false → (hits.foldl hit h).skip = false →
      (hits.foldl hit h).pending = true := by
  induction hits generalizing h with
  | nil => exact hh
  | cons continued hits ih =>
    refine ih fun hrunning hskip => ?_
    cases continued with
    | true => cases hskip
    | false =>
      rw [hit, if_neg Bool.false_ne_true] at hrunning hskip ⊢
      split at hrunning
      · rename_i hr
        rw [if_pos hr]
      · rename_i hr
        rw [if_neg hr] at hskip ⊢
        exact hh hrunning hskip

/-- The last hit decides whether the target runs. -/
theorem running_hits (h : HaltFlags) (hits : List Bool) :
    (hits.foldl hit h).running = hits.getLast?.getD h.running := by
  induction hits using List.reverseRecOn with
  | nil => rfl
  | append_singleton hits continued _ =>
    rw [List.foldl_append, List.getLast?_concat]
    cases continued with
    | true => rfl
    | false =>
      rw [List.foldl_cons, List.foldl_nil, hit, if_neg Bool.false_ne_true]
      split
      · rfl
      · rename_i hr
        simpa using hr

end HaltFlags

/-! ## The view of a callback -/

/-- The members the hits are about, and what the engine has answered so far. -/
structure HitView where
  flags : HaltFlags
  initial : Bool
  kept : Conditions
  session : Option SessionId
  told : HitAnswers

namespace HitView

def of (s : Server) (told : HitAnswers) : HitView where
  flags := {
    running := s.flags .isExecutionRunning
    skip := s.flags .skipNextBreakHitEvent
    pending := s.pendingStoppedEvent.isSome }
  initial := s.flags .kernelInitialResumePending
  kept := s.tables.conditions
  session := s.session
  told

/-- Outside a suppressed scope, with the record of session `id`. -/
structure Sees (id : SessionId) (v : Session × HitView) (p : Server × HitAnswers) : Prop where
  session : v.1 = p.1.sessions id
  view : v.2 = of p.1 p.2
  unsuppressed : p.1.flags .suppressSessionEvents = false

def setFlag (v : HitView) : Flag → Bool → HitView
  | .isExecutionRunning, b => { v with flags := { v.flags with running := b } }
  | .skipNextBreakHitEvent, b => { v with flags := { v.flags with skip := b } }
  | .kernelInitialResumePending, b => { v with initial := b }
  | _, _ => v

def flag (v : HitView) : Flag → Option Bool
  | .isExecutionRunning => some v.flags.running
  | .skipNextBreakHitEvent => some v.flags.skip
  | .kernelInitialResumePending => some v.initial
  | .suppressSessionEvents => some false
  | _ => none

def setPending (v : HitView) (b : Bool) : HitView :=
  { v with flags := { v.flags with pending := b } }

end HitView

def hitPre (id : SessionId) : ∀ {β : Type}, DapOp β → (β → Session × HitView → Prop) →
    Session × HitView → Prop
  | _, .load f => fun K v => ∀ b, (∀ b' ∈ v.2.flag f, b = b') → K b v
  | _, .store f b => fun K v => (f = .suppressSessionEvents → b = false) ∧
    K () (v.1, v.2.setFlag f b)
  | _, .setPending _ => fun K v => K () (v.1, v.2.setPending true)
  | _, .clearPending => fun K v => K () (v.1, v.2.setPending false)
  | _, .takePending => fun K v => ∀ r, K r (v.1, v.2.setPending false)
  | _, .hasPending => fun K v => K v.2.flags.pending v
  | _, .tables => fun K v => ∀ d : Tables, d.conditions = v.2.kept → K d v
  | _, .modify f => fun K v => ∀ d : Tables, d.conditions = v.2.kept →
    K (f d).1 (v.1, { v.2 with kept := (f d).2.conditions })
  | _, .session => fun K v => K v.2.session v
  | _, .setSession session => fun K v => K () (v.1, { v.2 with session })
  | _, .takeSession => fun K v => K v.2.session (v.1, { v.2 with session := none })
  | _, .readSession i => fun K v => (i = id → K v.1 v) ∧ (i ≠ id → ∀ x, K x v)
  | _, .updateSession i u => fun K v => (i = id → K () (v.1.update u, v.2)) ∧ (i ≠ id → K () v)
  | _, .call i c => fun K v => ∀ b engine, K b ({ v.1 with engine },
    { v.2 with told := HitAnswers.record ⟨.call i c, b⟩ v.2.told })
  | _, .leave _ _ => fun K v => ∀ b engine, K b ({ v.1 with engine }, v.2)
  | _, .newSession => fun _ _ => False
  | _, _ => fun K v => ∀ b, K b v

def hitSpec (id : SessionId) : Spec DapOp (Session × HitView) where
  pre := hitPre id
  mono o K K' hK v h := by
    cases o with
    | load => exact fun b hb => hK _ _ (h b hb)
    | store => exact ⟨h.1, hK _ _ h.2⟩
    | setPending | clearPending | hasPending | session | setSession | takeSession => exact hK _ _ h
    | tables => exact fun d hd => hK _ _ (h d hd)
    | modify => exact fun d hd => hK _ _ (h d hd)
    | readSession => exact ⟨fun hi => hK _ _ (h.1 hi), fun hi x => hK _ _ (h.2 hi x)⟩
    | updateSession => exact ⟨fun hi => hK _ _ (h.1 hi), fun hi => hK _ _ (h.2 hi)⟩
    | call | leave => exact fun b engine => hK _ _ (h b engine)
    | newSession => exact h
    | _ => exact fun b => hK _ _ (h b)

theorem hitSpec_follows (id : SessionId) : Follows id (hitSpec id) where
  read h := ⟨fun _ => h, fun hi => absurd rfl hi⟩
  update h := ⟨fun _ => h, fun hi => absurd rfl hi⟩
  send h := fun _ => h

theorem HitView.of_setFlag (s : Server) (told : HitAnswers) (f : Flag) (b : Bool) :
    HitView.of (s.setFlag f b) told = (HitView.of s told).setFlag f b := by
  cases f <;> rfl

theorem hitPre_step {id : SessionId} {β : Type} (o : DapOp β)
    {K : β → Session × HitView → Prop} {v : Session × HitView} {p p' : Server × HitAnswers} {b : β}
    (hv : HitView.Sees id v p) (hw : (hitSpec id).pre o K v)
    (h : ((sem .callback).recording HitAnswers.record) β o p b p') :
    ∃ v', HitView.Sees id v' p' ∧ K b v' := by
  obtain ⟨s, told⟩ := p
  obtain ⟨s', told'⟩ := p'
  obtain ⟨h, rfl⟩ := h
  obtain ⟨x, w⟩ := v
  obtain ⟨rfl, rfl, hs⟩ := hv
  have h : sem .callback β o s b s' := h
  have called (s : Server) (i : SessionId) (f : EngineState → EngineState) :
      (s.updateEngine i f).sessions id =
        { s.sessions id with engine := (s.updateEngine i f).engine id } := by
    rw [Server.updateEngine_engine, Server.updateEngine_sessions]
    split <;> rename_i hi
    · rw [hi]
    · rfl
  cases o with
  | load f =>
    obtain ⟨rfl, rfl⟩ := sem_load.1 h
    refine ⟨_, ⟨rfl, rfl, hs⟩, hw _ fun b' hb' => ?_⟩
    cases f <;> first | exact Option.some.inj hb' | cases hb'
    exact hs
  | store f value =>
    rw [sem_store.1 h]
    refine ⟨_, ⟨rfl, (HitView.of_setFlag s told f value).symm, ?_⟩, hw.2⟩
    rw [Server.setFlag_flags]
    split
    · rename_i hf
      exact hw.1 hf.symm
    · exact hs
  | setPending | clearPending =>
    first | rw [sem_setPending.1 h] | rw [sem_clearPending.1 h]
    exact ⟨_, ⟨rfl, rfl, hs⟩, hw⟩
  | takePending =>
    obtain ⟨rfl, rfl⟩ := sem_takePending.1 h
    exact ⟨_, ⟨rfl, rfl, hs⟩, hw _⟩
  | hasPending =>
    obtain ⟨rfl, rfl⟩ := sem_hasPending.1 h
    exact ⟨_, ⟨rfl, rfl, hs⟩, hw⟩
  | tables =>
    obtain ⟨rfl, rfl⟩ := sem_tables.1 h
    exact ⟨_, ⟨rfl, rfl, hs⟩, hw _ rfl⟩
  | modify f =>
    obtain ⟨rfl, rfl⟩ := sem_modify.1 h
    exact ⟨_, ⟨rfl, rfl, hs⟩, hw _ rfl⟩
  | session =>
    obtain ⟨rfl, rfl⟩ := sem_session.1 h
    exact ⟨_, ⟨rfl, rfl, hs⟩, hw⟩
  | setSession session =>
    rw [sem_setSession.1 h]
    exact ⟨_, ⟨rfl, rfl, hs⟩, hw⟩
  | takeSession =>
    obtain ⟨rfl, rfl⟩ := sem_takeSession.1 h
    exact ⟨_, ⟨rfl, rfl, hs⟩, hw⟩
  | readSession i =>
    obtain ⟨rfl, rfl⟩ := sem_readSession.1 h
    by_cases hi : i = id
    · subst hi
      exact ⟨_, ⟨rfl, rfl, hs⟩, hw.1 rfl⟩
    · exact ⟨_, ⟨rfl, rfl, hs⟩, hw.2 hi _⟩
  | updateSession i u =>
    rw [sem_updateSession.1 h]
    by_cases hi : i = id
    · subst hi
      refine ⟨_, ⟨?_, rfl, hs⟩, hw.1 rfl⟩
      exact (by rw [Server.modifySession_sessions, if_pos rfl] :
        (s.modifySession i fun x => x.update u).sessions i = _).symm
    · refine ⟨_, ⟨?_, rfl, hs⟩, hw.2 hi⟩
      exact (by rw [Server.modifySession_sessions, if_neg (Ne.symm hi)] :
        (s.modifySession i fun x => x.update u).sessions id = _).symm
  | call i c =>
    obtain ⟨created, after, -, -, rfl⟩ := sem_call h
    exact ⟨_, ⟨(called _ _ _).symm, rfl, hs⟩, hw b _⟩
  | leave i c =>
    obtain ⟨-, -, created, after, -, rfl⟩ := sem_leave h
    exact ⟨_, ⟨(called { s with inCall := none } _ _).symm, rfl, hs⟩, hw b _⟩
  | newSession => exact hw.elim
  | send m =>
    rw [sem_send.1 h]
    refine ⟨_, ⟨?_, ?_, ?_⟩, hw b⟩ <;> split <;> first | rfl | exact hs
  | acquire =>
    obtain ⟨_, -, -, rfl⟩ := sem_acquire.1 h
    exact ⟨_, ⟨rfl, rfl, hs⟩, hw _⟩
  | enter =>
    obtain ⟨_, -, -, -, rfl⟩ := sem_enter.1 h
    exact ⟨_, ⟨rfl, rfl, hs⟩, hw _⟩
  | lockGate =>
    obtain ⟨-, rfl⟩ := sem_lockGate.1 h
    exact ⟨_, ⟨rfl, rfl, hs⟩, hw _⟩
  | joinLoop =>
    obtain ⟨-, rfl⟩ := sem_joinLoop.1 h
    exact ⟨_, ⟨rfl, rfl, hs⟩, hw _⟩
  | _ =>
    obtain ⟨_, h⟩ := h
    cases h
    exact ⟨_, ⟨rfl, rfl, hs⟩, hw _⟩

/-! ## What passes by -/

section

variable {id : SessionId} {α β : Type} {v : Session × HitView}

/-- Nothing a hit looks at has changed. -/
structure HitView.Kept (v w : Session × HitView) : Prop where
  view : w.2 = v.2
  filter : w.1.cppFirstChanceBreak = v.1.cppFirstChanceBreak

def DapOp.passing : ∀ {β : Type}, DapOp β → Prop
  | _, .store f b => f ≠ .suppressSessionEvents ∧ ∀ v : HitView, v.setFlag f b = v
  | _, .setPending _ | _, .clearPending | _, .takePending => False
  | _, .setSession _ | _, .takeSession | _, .newSession => False
  | _, .modify f => ∀ d, (f d).2.conditions = d.conditions
  | _, .updateSession _ (.cppFirstChanceBreak _) => False
  | _, .call _ .lastEvent | _, .call _ (.execute (.condition _)) => False
  | _, _ => True

abbrev Passing (p : Dap α) : Prop := AllOps DapOp.passing p

theorem Passing.wp_hit {p : Dap α} (h : Passing p) (v : Session × HitView) :
    p.wp (hitSpec id) (fun _ w => HitView.Kept v w) (fun _ w => HitView.Kept v w) v := by
  refine wp_of_allOps (I := HitView.Kept v) (fun {β} o ho w hw => ?_) h ⟨rfl, rfl⟩
  cases o with
  | load => exact fun _ _ => hw
  | store f b =>
    refine ⟨fun hf => absurd hf ho.1, ?_⟩
    rw [ho.2 w.2]
    exact hw
  | setPending | clearPending | takePending | setSession | takeSession | newSession => exact ho.elim
  | hasPending | session => exact hw
  | tables => exact fun _ _ => hw
  | modify f =>
    intro d hd
    have hkept : (f d).2.conditions = w.2.kept := (ho d).trans hd
    rw [hkept]
    exact hw
  | readSession => exact ⟨fun _ => hw, fun _ _ => hw⟩
  | updateSession i u =>
    refine ⟨fun _ => ⟨hw.view, ?_⟩, fun _ => hw⟩
    cases u with
    | cppFirstChanceBreak => exact ho.elim
    | _ => exact hw.filter
  | call i c =>
    intro b engine
    have htold : HitAnswers.record ⟨.call i c, b⟩ w.2.told = w.2.told := by
      cases c with
      | lastEvent => exact ho.elim
      | execute command =>
        cases command with
        | condition => exact ho.elim
        | _ => rfl
      | _ => rfl
    rw [htold]
    exact ⟨hw.view, hw.filter⟩
  | leave => exact fun _ _ => ⟨hw.view, hw.filter⟩
  | _ => exact fun _ => hw

/-- Past a program that passes by. -/
theorem Passing.then {p : Dap α} {f : α → Dap β} {Q : β → Session × HitView → Prop}
    (h : Passing p) (hf : ∀ a w, HitView.Kept v w →
      (f a).wp (hitSpec id) Q (fun _ _ => True) w) :
    (p.bind f).wp (hitSpec id) Q (fun _ _ => True) v := by
  rw [wp_bind]
  exact wp_mono hf (fun _ _ _ => trivial) (h.wp_hit v)

namespace Session

theorem checkHr_passing {γ : Type} (r : Reply γ) (message : String) :
    Passing (checkHr r message) := by
  cases r <;> trivial

theorem throwIfDisposed_passing : Passing (throwIfDisposed id) :=
  .bind (.perform trivial) fun _ => .ite trivial trivial

theorem getCurrentThreadId_passing : Passing (getCurrentThreadId id) := by
  have readThreadIds : Passing (readThreadIds id) :=
    .bind (.perform trivial) fun _ => .bind (checkHr_passing _ _) fun _ => .ite trivial
      (.bind (.perform trivial) fun _ => checkHr_passing _ _)
  refine .bind throwIfDisposed_passing fun _ => .bind (.perform trivial) fun _ =>
    .bind (checkHr_passing _ _) fun engineThreadId => .bind readThreadIds fun systemIds => ?_
  cases systemIds[engineThreadId]? <;> trivial

theorem handleOutputReceived_passing (text : String) : Passing (handleOutputReceived id text) :=
  .bind (.perform trivial) fun _ => .bind (.perform trivial) fun _ =>
    .ite (.ite trivial (.perform trivial)) trivial

theorem continue_passing : Passing (continue_ id) := by
  have printed (r : ExecuteResult) : Passing (do
      .forEach (handleOutputReceived id) (r.output.filter fun text => !text.isEmpty)
      return r.status : Dap (Reply Unit)) :=
    .bind (.forEach handleOutputReceived_passing _) fun _ => trivial
  have executed : Passing (execute id .go) := .bind (.perform trivial) printed
  exact .bind (.perform trivial) fun _ => .bind throwIfDisposed_passing fun _ =>
    .bind executed fun _ => checkHr_passing _ _

end Session

namespace Server

theorem resetSuspendedState_passing : Passing resetSuspendedState :=
  .bind (.perform fun _ => rfl) fun _ => .perform trivial

theorem queueThreadEvent_passing (reason : ThreadEventBodyReason) :
    Passing (queueThreadEvent reason) := by
  have current : Passing (tryGetCurrentThreadId .callback) := by
    refine .bind (.perform trivial) fun session => ?_
    cases session with
    | none => trivial
    | some id =>
      have called : Passing (invoke .callback (Session.getCurrentThreadId id)) := by
        rw [invoke, if_pos rfl]
        exact Session.getCurrentThreadId_passing
      exact .catching (.bind called fun _ => trivial) fun _ => trivial
  refine .bind current fun threadId => ?_
  cases threadId with
  | none => trivial
  | some threadId =>
    have report (held : Bool) : Passing (if held then
        Prog.perform (.pushThreadEvent { reason, threadId })
        else sendThreadEvent { reason, threadId } : Dap Unit) :=
      .ite (.perform trivial) (.perform trivial)
    exact .bind (.perform trivial) fun _ => .ite (report true) (.bind (.perform trivial) report)

end Server

/-! ## The hits -/

/-- What a callback does that ends no session and is no break. -/
def HitView.after (filter : Bool) (event : Callback) (told : HitAnswers) (v : HitView) : HitView :=
  match event with
  | .breakpoint => { v with flags := v.flags.hit (told.continued v.kept), told }
  | .exception .. =>
    if filteredOut filter event then { v with told }
    else { v with flags := v.flags.hit v.initial, initial := false, told }
  | .systemError _ => { v with flags := v.flags.hit v.initial, initial := false, told }
  | _ => { v with told }

namespace Server

theorem autoContinue_hit (v : Session × HitView) : (autoContinue id).wp (hitSpec id)
    (fun _ w => w.2 = { v.2 with flags := v.2.flags.hit true } ∧
      w.1.cppFirstChanceBreak = v.1.cppFirstChanceBreak) (fun _ _ => True) v := by
  refine resetSuspendedState_passing.then fun _ w hw => ⟨nofun, nofun, nofun, ?_⟩
  refine wp_mono (fun _ w' hw' => ⟨hw'.view.trans ?_, hw'.filter.trans hw.filter⟩)
    (fun _ _ _ => trivial) (Session.continue_passing.wp_hit _)
  rw [hw.view]
  rfl

/-- A hit that surfaces. -/
theorem recordStop_hit {record : Dap Unit} (hrecord : ∀ w : Session × HitView,
      record.wp (hitSpec id) (fun _ w' => w' = (w.1, w.2.setPending true)) (fun _ _ => True) w)
    (v : Session × HitView) : (recordStop record).wp (hitSpec id)
      (fun _ w => w = (v.1, { v.2 with flags := v.2.flags.hit false })) (fun _ _ => True) v := by
  rw [recordStop]
  refine fun running hrunning => ?_
  obtain rfl : running = v.2.flags.running := hrunning _ rfl
  dsimp only [ret_bind]
  cases hr : v.2.flags.running with
  | false =>
    have hsame : v.2.flags.hit false = v.2.flags := by
      rw [HaltFlags.hit, if_neg Bool.false_ne_true, hr, if_neg Bool.false_ne_true]
    rw [hsame]
    exact rfl
  | true =>
    refine ⟨nofun, nofun, fun suppressed hsuppressed => ?_⟩
    obtain rfl : suppressed = false := hsuppressed _ rfl
    refine wp_mono (fun _ w hw => hw.trans ?_) (fun _ _ _ => trivial) (hrecord _)
    rw [HaltFlags.hit, if_neg Bool.false_ne_true, hr, if_pos rfl]
    rfl

/-- A condition is evaluated; what comes of it is what the engine has printed. -/
theorem tryEvaluateConditionalBreakpoint_hit (condition : String) {v : Session × HitView}
    (hv : v.2.told.evaluation = none) :
    (tryEvaluateConditionalBreakpoint id condition).wp (hitSpec id)
      (fun result w => (∃ evaluation, w.2 = { v.2 with told := { v.2.told with evaluation } }) ∧
        result = w.2.told.verdict ∧ w.1.cppFirstChanceBreak = v.1.cppFirstChanceBreak)
      (fun _ _ => True) v := by
  rw [tryEvaluateConditionalBreakpoint, wp_catching, bind_eq, wp_bind]
  refine (hitSpec_follows id).executeCapturing rfl (Command.condition_not_blank condition)
    (fun _ _ => ?_) (fun hi r engine => ?_)
  · refine ⟨⟨v.2.told.evaluation, rfl⟩, ?_, rfl⟩
    rw [HitAnswers.verdict, hv]
    rfl
  · dsimp only
    split
    · rename_i hok
      refine ⟨⟨some r, rfl⟩, ?_, rfl⟩
      change lastVerdict (Text.trimEnd ("" ++ String.join r.output)) = _
      rw [String.empty_append]
      exact (if_pos hok).symm
    · rename_i hok
      refine fun _ => ⟨⟨some r, rfl⟩, ?_, rfl⟩
      exact (if_neg hok).symm

/-- A breakpoint. -/
theorem onBreakpointHit_hit {n : ℕ} {v : Session × HitView} (hn : v.2.told = { named := n }) :
    (onBreakpointHit id n).wp (hitSpec id)
      (fun _ w => w.2 = v.2.after v.1.cppFirstChanceBreak .breakpoint w.2.told ∧
        w.1.cppFirstChanceBreak = v.1.cppFirstChanceBreak) (fun _ _ => True) v := by
  -- it surfaces
  have surfaces {w : Session × HitView} (hw : ∃ evaluation,
        w.2 = { v.2 with told := { v.2.told with evaluation } })
      (hfilter : w.1.cppFirstChanceBreak = v.1.cppFirstChanceBreak)
      (hno : w.2.told.continued v.2.kept = false) :
      (recordStop (setPendingStoppedEvent .breakpoint
        (some s!"Paused on breakpoint {n}.") (some [Factory.toInt32 n]))).wp (hitSpec id)
        (fun _ w => w.2 = v.2.after v.1.cppFirstChanceBreak .breakpoint w.2.told ∧
          w.1.cppFirstChanceBreak = v.1.cppFirstChanceBreak) (fun _ _ => True) w := by
    have recorded (w : Session × HitView) : (setPendingStoppedEvent .breakpoint
        (some s!"Paused on breakpoint {n}.") (some [Factory.toInt32 n])).wp (hitSpec id)
        (fun _ w' => w' = (w.1, w.2.setPending true)) (fun _ _ => True) w := rfl
    refine wp_mono (fun _ w' hw' => ?_) (fun _ _ _ => trivial) (recordStop_hit recorded w)
    subst hw'
    obtain ⟨evaluation, heq⟩ := hw
    refine ⟨?_, hfilter⟩
    rw [HitView.after, hno, heq]
  rw [onBreakpointHit, tryAutoContinueConditionalBreakpointHit, bind_eq, wp_bind]
  refine fun d hd => ?_
  dsimp only [ret_bind]
  have kept : d.conditionalBreakpointConditionsById.get? (Factory.toInt32 n) =
      v.2.kept.get? (Factory.toInt32 n) := congrArg (·.get? (Factory.toInt32 n)) hd
  rw [kept]
  cases hcondition : v.2.kept.get? (Factory.toInt32 n) with
  | none =>
    refine surfaces ⟨v.2.told.evaluation, rfl⟩ rfl ?_
    rw [HitAnswers.continued, hitContinues, hn, hcondition]
    rfl
  | some condition =>
    dsimp only
    rw [bind_eq, wp_bind]
    refine wp_mono (fun result w hw => ?_) (fun _ _ _ => trivial)
      (tryEvaluateConditionalBreakpoint_hit condition (by rw [hn]))
    obtain ⟨hview, hresult, hfilter⟩ := hw
    have hcontinued : w.2.told.continued v.2.kept = (w.2.told.verdict == some false) := by
      obtain ⟨evaluation, heq⟩ := hview
      rw [HitAnswers.continued, hitContinues]
      have hnamed : w.2.told.named = n := by rw [heq, hn]
      rw [hnamed, hcondition]
      rfl
    rw [← hresult] at hcontinued
    by_cases hr : result.getD true = true
    · rw [if_pos hr]
      refine surfaces hview hfilter ?_
      rw [hcontinued]
      rcases result with _ | _ | _
      · rfl
      · cases hr
      · rfl
    · rw [if_neg hr, bind_eq, wp_bind]
      refine wp_mono (fun _ w' hw' => ?_) (fun _ _ _ => trivial) (autoContinue_hit w)
      obtain ⟨hview', hfilter'⟩ := hw'
      obtain ⟨evaluation, heq⟩ := hview
      refine ⟨?_, hfilter'.trans hfilter⟩
      have hyes : w.2.told.continued v.2.kept = true := by
        rw [hcontinued]
        rcases result with _ | _ | _
        · exact absurd rfl hr
        · rfl
        · exact absurd rfl hr
      rw [HitView.after, hview']
      dsimp only
      rw [hyes, heq]

/-- An exception that is not filtered out. -/
theorem onExceptionHit_hit (code : ℕ) (v : Session × HitView) :
    (onExceptionHit id code).wp (hitSpec id) (fun _ w =>
      w.2 = { v.2 with flags := v.2.flags.hit v.2.initial, initial := false } ∧
        w.1.cppFirstChanceBreak = v.1.cppFirstChanceBreak) (fun _ _ => True) v := by
  rw [onExceptionHit, tryAutoContinueKernelInitialBreak, bind_eq, wp_bind]
  refine fun initial hinitial => ?_
  obtain rfl : initial = v.2.initial := hinitial _ rfl
  dsimp only [ret_bind]
  cases hi : v.2.initial with
  | false =>
    -- a reason that was recorded before stays
    have recorded (w : Session × HitView) : (do
        if ← hasPendingStoppedEvent then return
        else
          setPendingStoppedEvent .exception
            (some ("Paused on exception 0x" ++ Text.hex08 code ++ ".")) : Dap Unit).wp (hitSpec id)
        (fun _ w' => w' = (w.1, w.2.setPending true)) (fun _ _ => True) w := by
      change Prog.wp (hitSpec id) (if w.2.flags.pending = true then _ else _ : Dap Unit) _ _ w
      split
      · rename_i hpending
        change w = _
        rw [HitView.setPending, ← hpending]
      · exact rfl
    simp only [Bool.not_false, if_true, pure_eq, wp_ret, Bool.false_eq_true, if_false]
    refine wp_mono (fun _ w hw => ?_) (fun _ _ _ => trivial) (recordStop_hit recorded v)
    subst hw
    exact ⟨by rw [← hi], rfl⟩
  | true =>
    simp only [Bool.not_true, Bool.false_eq_true, if_false]
    refine fun suppressed hsuppressed => ?_
    obtain rfl : suppressed = false := hsuppressed _ rfl
    refine ⟨nofun, ?_⟩
    change Prog.wp (hitSpec id) (Prog.bind (autoContinue id) _) _ _ _
    rw [wp_bind]
    refine wp_mono (fun _ w hw => ?_) (fun _ _ _ => trivial) (autoContinue_hit _)
    exact ⟨hw.1, hw.2⟩

/-- **A callback**, by what the engine has answered while it ran. -/
theorem onCallback_hit {event : Callback} (hends : event.endsSession = false)
    (hbreak : event ≠ .break_) {v : Session × HitView} (hv : v.2.told = {}) :
    (onCallback id event).wp (hitSpec id)
      (fun _ w => w.2 = v.2.after v.1.cppFirstChanceBreak event w.2.told ∧
        w.1.cppFirstChanceBreak = v.1.cppFirstChanceBreak) (fun _ _ => True) v := by
  -- a callback that is no hit
  have passes {p : Dap Unit} (hp : Passing p) : p.wp (hitSpec id)
      (fun _ w => w.2 = { v.2 with told := w.2.told } ∧
        w.1.cppFirstChanceBreak = v.1.cppFirstChanceBreak) (fun _ _ => True) v := by
    refine wp_mono (fun _ w hw => ⟨?_, hw.filter⟩) (fun _ _ _ => trivial) (hp.wp_hit v)
    rw [hw.view]
  -- what an exception does leaves the answers as they were
  have excepts {w : Session × HitView} (hw : w.2 = { v.2 with
        flags := v.2.flags.hit v.2.initial, initial := false }) :
      w.2 = { v.2 with flags := v.2.flags.hit v.2.initial, initial := false, told := w.2.told } := by
    rw [hw]
  cases event with
  | breakpoint =>
    refine fun description engine => ?_
    dsimp only [ret_bind]
    refine wp_mono (fun _ w hw => ?_) (fun _ _ _ => trivial)
      (onBreakpointHit_hit (n := (description.bind Session.tryParseBreakpointId).getD 0) ?_)
    · exact hw
    · dsimp only
      rw [hv]
      rfl
  | exception code address firstChance =>
    refine (hitSpec_follows id).readSession ?_
    change Prog.wp (hitSpec id) (if filteredOut v.1.cppFirstChanceBreak
      (.exception code address firstChance) = true then _ else _ : Dap Unit) _ _ _
    by_cases hout : filteredOut v.1.cppFirstChanceBreak (.exception code address firstChance)
    · rw [if_pos hout]
      refine ⟨?_, rfl⟩
      rw [HitView.after, if_pos hout]
    · rw [if_neg hout]
      refine (hitSpec_follows id).update ?_
      refine wp_mono (fun _ w hw => ⟨?_, hw.2⟩) (fun _ _ _ => trivial)
        (onExceptionHit_hit code (v.1.update _, v.2))
      rw [HitView.after, if_neg hout]
      exact excepts hw.1
  | systemError error =>
    refine wp_mono (fun _ w hw => ⟨excepts hw.1, hw.2⟩) (fun _ _ _ => trivial)
      (onExceptionHit_hit error v)
  | createThread | exitThread => exact passes (queueThreadEvent_passing _)
  | output text => exact passes (.ite trivial (Session.handleOutputReceived_passing text))
  | break_ => exact absurd rfl hbreak
  | _ => cases hends

/-! ## The end of the session -/

/-- No callback connects a session. -/
theorem gone_hit {p : Dap α} (h : ForCallback p) (hv : v.2.session = none) : p.wp (hitSpec id)
    (fun _ w => w.2.session = none) (fun _ w => w.2.session = none) v := by
  refine wp_of_allOps (I := fun w : Session × HitView => w.2.session = none)
    (fun {β} o ho w hw => ?_) h hv
  cases o with
  | load => exact fun _ _ => hw
  | store f b =>
    refine ⟨fun hf => ?_, ?_⟩
    · subst hf
      cases b with
      | true => exact ho.elim
      | false => rfl
    · cases f <;> exact hw
  | setPending | clearPending | hasPending | session => exact hw
  | takePending => exact fun _ => hw
  | tables | modify => exact fun _ _ => hw
  | setSession session =>
    cases session with
    | none => rfl
    | some id => exact ho.elim
  | takeSession => rfl
  | readSession => exact ⟨fun _ => hw, fun _ _ => hw⟩
  | updateSession => exact ⟨fun _ => hw, fun _ => hw⟩
  | call | leave => exact fun _ _ => hw
  | newSession => exact ho.elim
  | _ => exact fun _ => hw

theorem disposeDebuggerSession_hit (v : Session × HitView) :
    (disposeDebuggerSession .callback).wp (hitSpec id) (fun _ w => w.2.session = none)
      (fun _ _ => True) v :=
  wp_mono (fun _ _ hw => hw) (fun _ _ _ => trivial)
    (gone_hit (v := (v.1, { v.2 with session := none }))
      (disposeDebuggerSession_forCallback.2 v.2.session) rfl)

theorem onCallback_endsSession {event : Callback} (h : event.endsSession = true)
    (v : Session × HitView) : (onCallback id event).wp (hitSpec id)
      (fun _ w => w.2.session = none) (fun _ _ => True) v := by
  have flushed : Passing flushPendingThreadEvents :=
    .bind (.perform trivial) fun _ => .forEach (fun _ => .perform trivial) _
  have disposed (w : Session × HitView) : (do
      disposeDebuggerSession .callback
      store .shouldExit true : Dap Unit).wp (hitSpec id) (fun _ w => w.2.session = none)
      (fun _ _ => True) w := by
    rw [bind_eq, wp_bind]
    exact wp_mono (fun _ _ hw => ⟨nofun, hw⟩) (fun _ _ _ => trivial)
      (disposeDebuggerSession_hit w)
  have ended (w : Session × HitView) : queueSessionEnded.wp (hitSpec id)
      (fun _ w => w.2.session = none) (fun _ _ => True) w := by
    obtain ⟨x, flags, initial, kept, session, told⟩ := w
    cases session with
    | none => exact ⟨nofun, nofun, rfl⟩
    | some session => exact ⟨nofun, nofun, flushed.then fun _ w _ _ => disposed w⟩
  cases event with
  | exitProcess exitCode =>
    exact ⟨nofun, nofun, flushed.then fun _ w _ _ _ => disposed w⟩
  | noDebuggee | sessionEnd => exact ended v
  | _ => cases h

end Server

end

end DapDbgeng
