/-
  What each operation does, one lemma for each.

  * the fields of the state after each of its updates;
  * `sem_*`: from which states an operation goes to which, with what result;
  * `sem_call`, `sem_leave`: an engine call changes the engine behind one session and nothing else;
  * `sem_quiet`: a quiet operation changes no member of the server.
-/
import DapDbgeng.Footprint

namespace DapDbgeng

open Concurrent

/-! ## Fields -/

namespace Server

variable (s : Server)

@[simp] theorem setFlag_flags (f g : Flag) (b : Bool) :
    (s.setFlag f b).flags g = if g = f then b else s.flags g := by
  simp [setFlag, Function.update_apply]

@[simp] theorem modifySession_sessions (id id' : SessionId) (f : Session → Session) :
    (s.modifySession id f).sessions id' = if id' = id then f (s.sessions id) else s.sessions id' := by
  simp [modifySession, Function.update_apply]

theorem updateEngine_sessions (id id' : SessionId) (f : EngineState → EngineState) :
    (s.updateEngine id f).sessions id' =
      if id' = id then { s.sessions id with engine := f (s.engine id) } else s.sessions id' :=
  s.modifySession_sessions id id' _

@[simp] theorem updateEngine_engine (id id' : SessionId) (f : EngineState → EngineState) :
    (s.updateEngine id f).engine id' = if id' = id then f (s.engine id) else s.engine id' := by
  by_cases h : id' = id <;> simp [engine, updateEngine_sessions, h]

@[simp] theorem updateEngine_disposed (id id' : SessionId) (f : EngineState → EngineState) :
    ((s.updateEngine id f).sessions id').disposed = (s.sessions id').disposed := by
  by_cases h : id' = id <;> simp [updateEngine_sessions, h]

section

variable (f : Flag) (b : Bool)

@[simp] theorem setFlag_pendingStoppedEvent :
    (s.setFlag f b).pendingStoppedEvent = s.pendingStoppedEvent := rfl
@[simp] theorem setFlag_pendingThreadEvents :
    (s.setFlag f b).pendingThreadEvents = s.pendingThreadEvents := rfl
@[simp] theorem setFlag_tables : (s.setFlag f b).tables = s.tables := rfl
@[simp] theorem setFlag_sent : (s.setFlag f b).sent = s.sent := rfl
@[simp] theorem setFlag_outboundOpen : (s.setFlag f b).outboundOpen = s.outboundOpen := rfl
@[simp] theorem setFlag_session : (s.setFlag f b).session = s.session := rfl
@[simp] theorem setFlag_parked : (s.setFlag f b).parked = s.parked := rfl
@[simp] theorem setFlag_sessionCount : (s.setFlag f b).sessionCount = s.sessionCount := rfl
@[simp] theorem setFlag_queue : (s.setFlag f b).queue = s.queue := rfl
@[simp] theorem setFlag_holder : (s.setFlag f b).holder = s.holder := rfl
@[simp] theorem setFlag_inCall : (s.setFlag f b).inCall = s.inCall := rfl
@[simp] theorem setFlag_callbackActive : (s.setFlag f b).callbackActive = s.callbackActive := rfl
@[simp] theorem setFlag_gate : (s.setFlag f b).gate = s.gate := rfl
@[simp] theorem setFlag_loop : (s.setFlag f b).loop = s.loop := rfl
@[simp] theorem setFlag_loopJoinable : (s.setFlag f b).loopJoinable = s.loopJoinable := rfl
@[simp] theorem setFlag_pump : (s.setFlag f b).pump = s.pump := rfl
@[simp] theorem setFlag_mode : (s.setFlag f b).mode = s.mode := rfl
@[simp] theorem setFlag_fullPath : (s.setFlag f b).fullPath = s.fullPath := rfl
@[simp] theorem setFlag_sessions : (s.setFlag f b).sessions = s.sessions := rfl

end

section

variable (id : SessionId) (f : Session → Session)

@[simp] theorem modifySession_pendingStoppedEvent :
    (s.modifySession id f).pendingStoppedEvent = s.pendingStoppedEvent := rfl
@[simp] theorem modifySession_pendingThreadEvents :
    (s.modifySession id f).pendingThreadEvents = s.pendingThreadEvents := rfl
@[simp] theorem modifySession_tables : (s.modifySession id f).tables = s.tables := rfl
@[simp] theorem modifySession_sent : (s.modifySession id f).sent = s.sent := rfl
@[simp] theorem modifySession_outboundOpen :
    (s.modifySession id f).outboundOpen = s.outboundOpen := rfl
@[simp] theorem modifySession_session : (s.modifySession id f).session = s.session := rfl
@[simp] theorem modifySession_parked : (s.modifySession id f).parked = s.parked := rfl
@[simp] theorem modifySession_sessionCount :
    (s.modifySession id f).sessionCount = s.sessionCount := rfl
@[simp] theorem modifySession_queue : (s.modifySession id f).queue = s.queue := rfl
@[simp] theorem modifySession_holder : (s.modifySession id f).holder = s.holder := rfl
@[simp] theorem modifySession_inCall : (s.modifySession id f).inCall = s.inCall := rfl
@[simp] theorem modifySession_callbackActive :
    (s.modifySession id f).callbackActive = s.callbackActive := rfl
@[simp] theorem modifySession_gate : (s.modifySession id f).gate = s.gate := rfl
@[simp] theorem modifySession_loop : (s.modifySession id f).loop = s.loop := rfl
@[simp] theorem modifySession_loopJoinable :
    (s.modifySession id f).loopJoinable = s.loopJoinable := rfl
@[simp] theorem modifySession_pump : (s.modifySession id f).pump = s.pump := rfl
@[simp] theorem modifySession_mode : (s.modifySession id f).mode = s.mode := rfl
@[simp] theorem modifySession_fullPath : (s.modifySession id f).fullPath = s.fullPath := rfl
@[simp] theorem modifySession_flags : (s.modifySession id f).flags = s.flags := rfl

end

section

variable (id : SessionId) (f : EngineState → EngineState)

@[simp] theorem updateEngine_pendingStoppedEvent :
    (s.updateEngine id f).pendingStoppedEvent = s.pendingStoppedEvent := rfl
@[simp] theorem updateEngine_pendingThreadEvents :
    (s.updateEngine id f).pendingThreadEvents = s.pendingThreadEvents := rfl
@[simp] theorem updateEngine_tables : (s.updateEngine id f).tables = s.tables := rfl
@[simp] theorem updateEngine_sent : (s.updateEngine id f).sent = s.sent := rfl
@[simp] theorem updateEngine_outboundOpen :
    (s.updateEngine id f).outboundOpen = s.outboundOpen := rfl
@[simp] theorem updateEngine_session : (s.updateEngine id f).session = s.session := rfl
@[simp] theorem updateEngine_parked : (s.updateEngine id f).parked = s.parked := rfl
@[simp] theorem updateEngine_sessionCount :
    (s.updateEngine id f).sessionCount = s.sessionCount := rfl
@[simp] theorem updateEngine_queue : (s.updateEngine id f).queue = s.queue := rfl
@[simp] theorem updateEngine_holder : (s.updateEngine id f).holder = s.holder := rfl
@[simp] theorem updateEngine_inCall : (s.updateEngine id f).inCall = s.inCall := rfl
@[simp] theorem updateEngine_callbackActive :
    (s.updateEngine id f).callbackActive = s.callbackActive := rfl
@[simp] theorem updateEngine_gate : (s.updateEngine id f).gate = s.gate := rfl
@[simp] theorem updateEngine_loop : (s.updateEngine id f).loop = s.loop := rfl
@[simp] theorem updateEngine_loopJoinable :
    (s.updateEngine id f).loopJoinable = s.loopJoinable := rfl
@[simp] theorem updateEngine_pump : (s.updateEngine id f).pump = s.pump := rfl
@[simp] theorem updateEngine_mode : (s.updateEngine id f).mode = s.mode := rfl
@[simp] theorem updateEngine_fullPath : (s.updateEngine id f).fullPath = s.fullPath := rfl
@[simp] theorem updateEngine_flags : (s.updateEngine id f).flags = s.flags := rfl

end

end Server

/-! ## Operations -/

instance : Inhabited Answers := ⟨{}⟩

section

variable {t : Tid} {s s' : Server}

/-- An operation that does one thing whatever the answers. -/
theorem sem_iff {β : Type} {o : DapOp β} {b b₀ : β} {s₀ : Server}
    (h : ∀ a, apply t a o s = some (b₀, s₀)) : sem t β o s b s' ↔ b = b₀ ∧ s' = s₀ := by
  simp [sem, h, eq_comm]

@[simp] theorem sem_load {f : Flag} {b : Bool} :
    sem t Bool (.load f) s b s' ↔ b = s.flags f ∧ s' = s :=
  sem_iff fun _ => rfl

@[simp] theorem sem_store {f : Flag} {v : Bool} {u : Unit} :
    sem t Unit (.store f v) s u s' ↔ s' = s.setFlag f v :=
  (sem_iff fun _ => rfl).trans (by simp)

@[simp] theorem sem_setPending {p : PendingStoppedEvent} {u : Unit} :
    sem t Unit (.setPending p) s u s' ↔ s' = { s with pendingStoppedEvent := some p } :=
  (sem_iff fun _ => rfl).trans (by simp)

@[simp] theorem sem_clearPending {u : Unit} :
    sem t Unit (.clearPending) s u s' ↔ s' = { s with pendingStoppedEvent := none } :=
  (sem_iff fun _ => rfl).trans (by simp)

@[simp] theorem sem_takePending {p : Option PendingStoppedEvent} :
    sem t (Option PendingStoppedEvent) (.takePending) s p s' ↔
    p = s.pendingStoppedEvent ∧ s' = { s with pendingStoppedEvent := none } :=
  sem_iff fun _ => rfl

@[simp] theorem sem_hasPending {b : Bool} :
    sem t Bool (.hasPending) s b s' ↔ b = s.pendingStoppedEvent.isSome ∧ s' = s :=
  sem_iff fun _ => rfl

@[simp] theorem sem_pushThreadEvent {e : ThreadEvent} {u : Unit} :
    sem t Unit (.pushThreadEvent e) s u s' ↔
    s' = { s with pendingThreadEvents := s.pendingThreadEvents ++ [e] } :=
  (sem_iff fun _ => rfl).trans (by simp)

@[simp] theorem sem_takeThreadEvents {es : List ThreadEvent} :
    sem t (List ThreadEvent) .takeThreadEvents s es s' ↔
    es = s.pendingThreadEvents ∧ s' = { s with pendingThreadEvents := [] } :=
  sem_iff fun _ => rfl

@[simp] theorem sem_clearThreadEvents {u : Unit} :
    sem t Unit (.clearThreadEvents) s u s' ↔ s' = { s with pendingThreadEvents := [] } :=
  (sem_iff fun _ => rfl).trans (by simp)

@[simp] theorem sem_tables {d : Tables} :
    sem t Tables (.tables) s d s' ↔ d = s.tables ∧ s' = s :=
  sem_iff fun _ => rfl

@[simp] theorem sem_modify {β : Type} {f : Tables → β × Tables} {b : β} :
    sem t β (.modify f) s b s' ↔ b = (f s.tables).1 ∧ s' = { s with tables := (f s.tables).2 } :=
  sem_iff fun _ => rfl

@[simp] theorem sem_send {m : Message} {u : Unit} : sem t Unit (.send m) s u s' ↔
    s' = if s.outboundOpen then { s with sent := s.sent ++ [m] } else s :=
  (sem_iff fun _ => rfl).trans (by simp)

@[simp] theorem sem_session {r : Option SessionId} :
    sem t (Option SessionId) (.session) s r s' ↔ r = s.session ∧ s' = s :=
  sem_iff fun _ => rfl

@[simp] theorem sem_setSession {r : Option SessionId} {u : Unit} :
    sem t Unit (.setSession r) s u s' ↔ s' = { s with session := r } :=
  (sem_iff fun _ => rfl).trans (by simp)

@[simp] theorem sem_takeSession {r : Option SessionId} :
    sem t (Option SessionId) (.takeSession) s r s' ↔
    r = s.session ∧ s' = { s with session := none } :=
  sem_iff fun _ => rfl

@[simp] theorem sem_park {id : SessionId} {r : Option SessionId} :
    sem t (Option SessionId) (.park id) s r s' ↔
    r = s.parked ∧ s' = { s with parked := some id } :=
  sem_iff fun _ => rfl

@[simp] theorem sem_unpark {r : Option SessionId} :
    sem t (Option SessionId) (.unpark) s r s' ↔ r = s.parked ∧ s' = { s with parked := none } :=
  sem_iff fun _ => rfl

@[simp] theorem sem_readSession {id : SessionId} {x : Session} :
    sem t Session (.readSession id) s x s' ↔ x = s.sessions id ∧ s' = s :=
  sem_iff fun _ => rfl

@[simp] theorem sem_updateSession {id : SessionId} {v : SessionUpdate} {u : Unit} :
    sem t Unit (.updateSession id v) s u s' ↔ s' = s.modifySession id (·.update v) :=
  (sem_iff fun _ => rfl).trans (by simp)

@[simp] theorem sem_enqueue {u : Unit} :
    sem t Unit (.enqueue) s u s' ↔ s' = { s with queue := s.queue ++ [t] } :=
  (sem_iff fun _ => rfl).trans (by simp)

@[simp] theorem sem_release {u : Unit} :
    sem t Unit (.release) s u s' ↔ s' = { s with holder := none } :=
  (sem_iff fun _ => rfl).trans (by simp)

@[simp] theorem sem_lockGate {u : Unit} :
    sem t Unit (.lockGate) s u s' ↔ s.gate = none ∧ s' = { s with gate := some t } := by
  by_cases h : s.gate = none <;> simp [sem, apply, h, eq_comm]

@[simp] theorem sem_unlockGate {u : Unit} :
    sem t Unit (.unlockGate) s u s' ↔ s' = { s with gate := none } :=
  (sem_iff fun _ => rfl).trans (by simp)

@[simp] theorem sem_loopJoinable {b : Bool} :
    sem t Bool (.loopJoinable) s b s' ↔ b = s.loopJoinable ∧ s' = s :=
  sem_iff fun _ => rfl

@[simp] theorem sem_takeLoop {b : Bool} :
    sem t Bool (.takeLoop) s b s' ↔ b = s.loopJoinable ∧ s' = { s with loopJoinable := false } :=
  sem_iff fun _ => rfl

@[simp] theorem sem_joinLoop {u : Unit} :
    sem t Unit (.joinLoop) s u s' ↔ s.loop = .idle ∧ s' = { s with loopJoinable := false } := by
  by_cases h : s.loop = .idle <;> simp [sem, apply, h, eq_comm]

@[simp] theorem sem_spawnLoop {id : SessionId} {u : Unit} : sem t Unit (.spawnLoop id) s u s' ↔
    s' = { s with loop := .check id, loopJoinable := true } :=
  (sem_iff fun _ => rfl).trans (by simp)

@[simp] theorem sem_spawnPump {id : SessionId} {u : Unit} :
    sem t Unit (.spawnPump id) s u s' ↔ s' = { s with pump := some id } :=
  (sem_iff fun _ => rfl).trans (by simp)

@[simp] theorem sem_acquire {u : Unit} : sem t Unit .acquire s u s' ↔
    ∃ rest, s.queue = t :: rest ∧ s.holder = none ∧
      s' = { s with queue := rest, holder := some t } := by
  simp only [sem, apply]
  cases hq : s.queue with
  | nil => simp
  | cons v rest =>
    by_cases h : v = t ∧ s.holder = none
    · obtain ⟨rfl, hh⟩ := h
      simp [hh, eq_comm]
    · simp only [if_neg h, exists_const, reduceCtorEq, false_iff, not_exists]
      rintro rest' ⟨he, hh, -⟩
      cases he
      exact h ⟨rfl, hh⟩

@[simp] theorem sem_newSession {id : SessionId} : sem t SessionId .newSession s id s' ↔
    id = s.sessionCount ∧ s' = { s with
      sessions := Function.update s.sessions s.sessionCount {}
      sessionCount := s.sessionCount + 1 } :=
  sem_iff fun _ => rfl

/-! ## Engine calls -/

theorem applyCall_eq {a : Answers} {id : SessionId} {β : Type} {c : Call β} {b : β}
    (h : applyCall a id c s = some (b, s')) :
    b = a.answer c (s.engine id) ∧ c.admissible b (s.engine id) = true ∧
      Call.mayCreate (a.created (s.engine id)) (s.engine id) c = true ∧
      s' = s.updateEngine id (c.effect (a.created (s.engine id)) a.after b) := by
  simp only [applyCall] at h
  split at h
  · rename_i hc
    cases h
    exact ⟨rfl, (Bool.and_eq_true_iff.1 hc).1, (Bool.and_eq_true_iff.1 hc).2, rfl⟩
  · cases h

/-- An engine call changes the engine behind its session, by its effect. -/
theorem sem_call {id : SessionId} {β : Type} {c : Call β} {b : β}
    (h : sem t β (.call id c) s b s') : ∃ created after,
      c.admissible b (s.engine id) = true ∧ Call.mayCreate created (s.engine id) c = true ∧
      s' = s.updateEngine id (c.effect created after b) := by
  obtain ⟨a, h⟩ := h
  obtain ⟨rfl, h⟩ := applyCall_eq h
  exact ⟨_, _, h⟩

@[simp] theorem sem_enter {id : SessionId} {β : Type} {c : Call β} {u : Unit} :
    sem t Unit (.enter id c) s u s' ↔ ∃ p, c.pump? = some p ∧ s.inCall = none ∧
      s.holder = some t ∧ s' = { s with inCall := some (id, p) } := by
  simp only [sem, apply]
  cases c.pump? with
  | none => simp
  | some p =>
    by_cases h : s.inCall = none ∧ s.holder = some t
    · simp [h, eq_comm]
    · simp only [if_neg h, exists_const, reduceCtorEq, false_iff, not_exists]
      rintro p' ⟨-, h₁, h₂, -⟩
      exact h ⟨h₁, h₂⟩

theorem sem_leave {id : SessionId} {β : Type} {c : Call β} {b : β}
    (h : sem t β (.leave id c) s b s') : s.inCall = c.pump?.map (fun p => (id, p)) ∧
      s.callbackActive = false ∧ ∃ created after, c.admissible b (s.engine id) = true ∧
      s' = { s with inCall := none }.updateEngine id (c.effect created after b) := by
  obtain ⟨a, h⟩ := h
  simp only [apply] at h
  split at h
  · rename_i hc
    obtain ⟨rfl, ha, -, he⟩ := applyCall_eq h
    exact ⟨hc.1, hc.2, _, _, ha, he⟩
  · cases h

/-! ## The machine -/

@[simp] theorem sem_deadlinePassed {b : Bool} : sem t Bool .deadlinePassed s b s' ↔ s' = s :=
  ⟨fun ⟨_, h⟩ => by cases h; rfl, fun h => ⟨{ deadlinePassed := b }, by rw [h]; rfl⟩⟩

@[simp] theorem sem_sleep {n : Nat} {u : Unit} : sem t Unit (.sleep n) s u s' ↔ s' = s :=
  (sem_iff fun _ => rfl).trans (by simp)

@[simp] theorem sem_pathExists {path : String} {b : Bool} :
    sem t Bool (.pathExists path) s b s' ↔ s' = s :=
  ⟨fun ⟨_, h⟩ => by cases h; rfl, fun h => ⟨{ pathExists := fun _ => b }, by rw [h]; rfl⟩⟩

@[simp] theorem sem_isDirectory {path : String} {b : Bool} :
    sem t Bool (.isDirectory path) s b s' ↔ s' = s :=
  ⟨fun ⟨_, h⟩ => by cases h; rfl, fun h => ⟨{ isDirectory := fun _ => b }, by rw [h]; rfl⟩⟩

@[simp] theorem sem_executableDirectory {path : String} :
    sem t String .executableDirectory s path s' ↔ s' = s :=
  ⟨fun ⟨_, h⟩ => by cases h; rfl, fun h => ⟨{ executableDirectory := path }, by rw [h]; rfl⟩⟩

@[simp] theorem sem_currentDirectory {path : String} :
    sem t String .currentDirectory s path s' ↔ s' = s :=
  ⟨fun ⟨_, h⟩ => by cases h; rfl, fun h => ⟨{ currentDirectory := path }, by rw [h]; rfl⟩⟩

@[simp] theorem sem_envVar {name : String} {r : Option String} :
    sem t (Option String) (.envVar name) s r s' ↔ s' = s :=
  ⟨fun ⟨_, h⟩ => by cases h; rfl, fun h => ⟨{ envVar := fun _ => r }, by rw [h]; rfl⟩⟩

@[simp] theorem sem_fullPath {path r : String} :
    sem t String (.fullPath path) s r s' ↔ r = s.fullPath path ∧ s' = s :=
  sem_iff fun _ => rfl

@[simp] theorem sem_readFile {path : String} {r : Option String} :
    sem t (Option String) (.readFile path) s r s' ↔ s' = s :=
  ⟨fun ⟨_, h⟩ => by cases h; rfl, fun h => ⟨{ readFile := fun _ => r }, by rw [h]; rfl⟩⟩

/-! ## Quiet operations -/

/-- The same members; sessions, messages and the dispatcher may differ. -/
structure SameMembers (s s' : Server) : Prop where
  flags : s'.flags = s.flags
  pendingStoppedEvent : s'.pendingStoppedEvent = s.pendingStoppedEvent
  pendingThreadEvents : s'.pendingThreadEvents = s.pendingThreadEvents
  tables : s'.tables = s.tables
  session : s'.session = s.session
  parked : s'.parked = s.parked
  gate : s'.gate = s.gate
  loop : s'.loop = s.loop
  loopJoinable : s'.loopJoinable = s.loopJoinable
  pump : s'.pump = s.pump
  callbackActive : s'.callbackActive = s.callbackActive
  mode : s'.mode = s.mode

namespace SameMembers

theorem refl : SameMembers s s := ⟨rfl, rfl, rfl, rfl, rfl, rfl, rfl, rfl, rfl, rfl, rfl, rfl⟩

end SameMembers

theorem sem_quiet {C : ∀ {γ : Type}, Call γ → Prop} {β : Type} {o : DapOp β} {b : β}
    (ho : o.quiet C) (h : sem t β o s b s') : SameMembers s s' := by
  have same : SameMembers s s := .refl
  cases o with
  | call id c =>
    obtain ⟨_, _, -, -, rfl⟩ := sem_call h
    exact { same with }
  | leave id c =>
    obtain ⟨-, -, _, _, -, rfl⟩ := sem_leave h
    exact { same with }
  | enter id c =>
    obtain ⟨_, -, -, -, rfl⟩ := sem_enter.1 h
    exact { same with }
  | acquire =>
    obtain ⟨_, -, -, rfl⟩ := sem_acquire.1 h
    exact { same with }
  | send m =>
    rw [sem_send.1 h]
    split <;> exact { same with }
  | load | hasPending | tables | session | readSession | loopJoinable | fullPath =>
    obtain ⟨_, h⟩ := h; cases h; exact same
  | updateSession | enqueue | release =>
    obtain ⟨_, h⟩ := h; cases h; exact { same with }
  | deadlinePassed | sleep | pathExists | isDirectory | executableDirectory | currentDirectory
  | envVar | readFile =>
    obtain ⟨_, h⟩ := h; cases h; exact same
  | _ => exact ho.elim

end

end DapDbgeng
