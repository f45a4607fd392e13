/-
  Which breakpoints a session tracks.

  A session tracks the ids of its breakpoints in one list for each source path and one for each
  other kind; each setter replaces one of the lists.

  * `Tracked`: every live breakpoint of the adapter is in exactly one list, and nothing else is;
  * `SetterRun`: calls of the setters one after the other, each of which returns or throws;
  * `regular`: what the engine must not do in the middle of a call;
  * `SetterRun.keeps_tracked`: regular calls keep the breakpoints tracked.
-/
import DapDbgeng.Ledger
import DapDbgeng.SessionWp

namespace DapDbgeng

open Concurrent Concurrent.Prog

/-- The lists of a session. -/
inductive Owner where
  | source (key : String)
  | command (kind : BreakpointKind)
  deriving DecidableEq

namespace Session

/-- The live breakpoints the adapter created. -/
def ownIds (x : Session) : List Int :=
  (x.engine.breakpoints.filter fun b => b.origin.creates).map LiveBreakpoint.id

def recorded (x : Session) : Owner → List Int
  | .source key => (x.sourceBreakpointIdsByPath.get? key).getD []
  | .command kind => x.commandBreakpointIds kind

/-- Every live breakpoint of the adapter is in exactly one list, and every id in a list is live. -/
def Tracked (x : Session) : Prop := Accounted x.ownIds x.recorded

/-- What each list holds, and the ids a setter has learnt and not yet tracked. -/
def held (x : Session) (hand : List Int) : Option Owner → List Int
  | none => hand
  | some o => x.recorded o

/-- The ids that appeared between two states. -/
def made (x x' : Session) : List Int := newIds x.engine.breakpointIds x'.engine.breakpointIds

end Session

/-! ## Calls of the setters -/

/-- A call of one of the setters. -/
inductive Setter where
  | source (filePath : String) (breakpoints : List SourceBreakpointSpec)
  | function (names : List String)
  | instruction (addresses : List Nat)
  | data (specs : List DataBreakpointSpec)

def Setter.body (id : SessionId) : Setter → Dap (List SourceBreakpointResult)
  | .source filePath breakpoints => Session.setSourceBreakpoints id filePath breakpoints
  | .function names => Session.setFunctionBreakpoints id names
  | .instruction addresses => Session.setInstructionBreakpoints id addresses
  | .data specs => Session.setDataBreakpoints id specs

/-- How far a call has got. -/
structure Progress where
  /-- It has cleared a breakpoint. -/
  cleared : Bool := false
  /-- It has made one. -/
  created : Bool := false
  /-- What the enumeration before the command under way showed, and what was live then. -/
  before : Option (List Int × List Int) := none

def DapOp.progress : ∀ {β : Type}, DapOp β → β → Session → Session → Progress → Progress
  | _, .call _ (.execute (.clear _)), r, _, _, g => { g with cleared := g.cleared || r.status.isOk }
  | _, .call _ (.execute c), _, x, x', g =>
    if c.creates then { g with created := g.created || !(x.made x').isEmpty } else g
  | _, .call _ .visibleBreakpointIds, ids, x, _, g =>
    { g with before := match g.before with
        | none => some (ids, x.engine.breakpointIds)
        | some _ => none }
  | _, _, _, _, _, g => g

/-- A command makes at most one breakpoint.  A `bc` fails only as the first of a function,
instruction or data setter, and a `bu` of the source setter only where the call has made no
breakpoint yet. -/
def Command.regular : Command → ExecuteResult → Session → Session → Progress → Bool
  | .clear n, r, x, _, g => r.status.isOk || !g.cleared &&
    [BreakpointKind.function, .instruction, .data].any fun kind =>
      (x.commandBreakpointIds kind).contains n
  | .sourceBreakpoint .., r, x, x', g =>
    (x.made x').length ≤ 1 && (r.status.isOk || !g.created && (x.made x').isEmpty)
  | _, _, x, x', _ => (x.made x').length ≤ 1

/-- The id in a list of one. -/
def sole : List Int → List Int
  | [n] => [n]
  | _ => []

/-- Where exactly one id appears between the enumerations around a command, the command made that
breakpoint, and otherwise it made none. -/
def DapOp.regular : ∀ {β : Type}, DapOp β → β → Session → Session → Progress → Bool
  | _, .call _ (.execute c), r, x, x', g => c.regular r x x' g
  | _, .call _ .visibleBreakpointIds, ids, x, _, g => g.before.all fun before =>
    sole (Session.newIds before.1 ids) = Session.newIds before.2 x.engine.breakpointIds
  | _, _, _, _, _, _ => true

/-- A condition on the operations of a call. -/
abbrev CallCondition :=
  ∀ β : Type, DapOp β → β → Session → Session → Progress → Bool

def regular : CallCondition := fun _ o => o.regular

/-- The steps of a call that meet a condition. -/
def setterSteps (ok : CallCondition) (id : SessionId) : StepRel DapOp (Server × Progress) :=
  fun β o p b p' => sem .request β o p.1 b p'.1 ∧
    p'.2 = o.progress b (p.1.sessions id) (p'.1.sessions id) p.2 ∧
    ok β o b (p.1.sessions id) (p'.1.sessions id) p.2 = true

/-- Calls of the setters, one after the other. -/
inductive SetterRun (ok : CallCondition) (id : SessionId) : Server → Server → Prop where
  | nil (s : Server) : SetterRun ok id s s
  | call {s s₁ s₂ : Server} {g : Progress} {r : Except Exn (List SourceBreakpointResult)}
      (prev : SetterRun ok id s s₁) (c : Setter)
      (h : Ends (setterSteps ok id) (c.body id) (s₁, {}) r (s₂, g)) : SetterRun ok id s s₂

/-! ## What a call does to its session -/

abbrev SetterView := Session × Progress

def setterPre (id : SessionId) : ∀ {β : Type}, DapOp β → (β → SetterView → Prop) →
    SetterView → Prop
  | _, .readSession i => fun K v => i = id ∧ K v.1 v
  | _, .updateSession i u => fun K v => i = id ∧ K () (v.1.update u, v.2)
  | _, .call i c => fun K v => i = id ∧ ∀ b created after x',
    Call.mayCreate created v.1.engine c = true →
      x' = { v.1 with engine := c.effect created after b v.1.engine } →
        (DapOp.call i c).regular b v.1 x' v.2 = true → K b (x', (DapOp.call i c).progress b v.1 x' v.2)
  | _, .send _ => fun K v => K () v
  | _, .fullPath _ => fun K v => ∀ path, K path v
  | _, _ => fun _ _ => False

def setterSpec (id : SessionId) : Spec DapOp SetterView where
  pre := setterPre id
  mono o K K' hK v h := by
    cases o with
    | readSession i => exact ⟨h.1, hK _ _ h.2⟩
    | updateSession i u => exact ⟨h.1, hK _ _ h.2⟩
    | call i c =>
      exact ⟨h.1, fun b created after x' hc hx hr => hK _ _ (h.2 b created after x' hc hx hr)⟩
    | send m => exact hK _ _ h
    | fullPath path => exact fun r => hK _ _ (h r)
    | _ => exact h.elim

theorem setterPre_step {id : SessionId} {β : Type} (o : DapOp β) {K : β → SetterView → Prop}
    {v : SetterView} {s s' : Server × Progress} {b : β} (hv : v = (s.1.sessions id, s.2))
    (hw : (setterSpec id).pre o K v) (h : setterSteps regular id β o s b s') :
    ∃ v', v' = (s'.1.sessions id, s'.2) ∧ K b v' := by
  obtain ⟨s, g⟩ := s
  obtain ⟨s', g'⟩ := s'
  obtain ⟨hsem, hg, hok⟩ := h
  dsimp only at hsem hg hok
  subst hv hg
  refine ⟨_, rfl, ?_⟩
  cases o with
  | readSession i =>
    obtain ⟨rfl, rfl⟩ := sem_readSession.1 hsem
    obtain ⟨rfl, hK⟩ := hw
    exact hK
  | updateSession i u =>
    obtain ⟨rfl, hK⟩ := hw
    rw [sem_updateSession.1 hsem, Server.modifySession_sessions, if_pos rfl]
    exact hK
  | call i c =>
    obtain ⟨rfl, hK⟩ := hw
    obtain ⟨created, after, -, hc, rfl⟩ := sem_call hsem
    refine hK b created after _ hc ?_ hok
    rw [Server.updateEngine_sessions, if_pos rfl]
    rfl
  | send m =>
    have hs : s'.sessions = s.sessions := by
      rw [sem_send.1 hsem]
      split <;> rfl
    rw [hs]
    exact hw
  | fullPath path =>
    obtain ⟨-, rfl⟩ := sem_fullPath.1 hsem
    exact hw b
  | _ => exact hw.elim

/-- What a program establishes of a session holds where a regular execution of it ends. -/
theorem wp_setter {id : SessionId} {α : Type} {p : Dap α} {r : Except Exn α} {s s' : Server}
    {g g' : Progress} {Q : α → SetterView → Prop} {E : Exn → SetterView → Prop}
    (h : Ends (setterSteps regular id) p (s, g) r (s', g'))
    (hw : p.wp (setterSpec id) Q E (s.sessions id, g)) : outcome Q E r (s'.sessions id, g') := by
  obtain ⟨es, hs⟩ := h
  obtain ⟨_, rfl, hw'⟩ := wp_view setterPre_step hs rfl hw
  exact wp_ofExcept hw'

/-! ## Commands and enumerations -/

namespace Command

variable {command : Command}

/-- The condition speaks about breakpoints only. -/
theorem regular_congr {r : ExecuteResult} {x x' y y' : Session} {g : Progress}
    (he : y.engine = x.engine) (he' : y'.engine = x'.engine)
    (hc : y.commandBreakpointIds = x.commandBreakpointIds) :
    command.regular r y y' g = command.regular r x x' g := by
  have hmade : y.made y' = x.made x' := by rw [Session.made, Session.made, he, he']
  cases command <;> simp only [regular, hc, hmade]

theorem regular_clear {n : Int} {r : ExecuteResult} {x x' : Session} {g : Progress} :
    (Command.clear n).regular r x x' g = true ↔
      r.status.isOk = true ∨ g.cleared = false ∧ ∃ kind, n ∈ x.commandBreakpointIds kind := by
  have hkinds : (∃ kind, n ∈ x.commandBreakpointIds kind) ↔
      n ∈ x.commandBreakpointIds .function ∨ n ∈ x.commandBreakpointIds .instruction ∨
        n ∈ x.commandBreakpointIds .data := by
    constructor
    · rintro ⟨_ | _ | _, h⟩ <;> simp [h]
    · rintro (h | h | h) <;> exact ⟨_, h⟩
  rw [hkinds]
  simp [regular]

theorem regular_source {path : String} {spec : SourceBreakpointSpec} {r : ExecuteResult}
    {x x' : Session} {g : Progress} : (Command.sourceBreakpoint path spec).regular r x x' g = true ↔
      (x.made x').length ≤ 1 ∧ (r.status.isOk = true ∨ g.created = false ∧ x.made x' = []) := by
  simp [regular]

theorem progress_congr {id : SessionId} {r : ExecuteResult} {x x' y y' : Session} {g : Progress}
    (he : y.engine = x.engine) (he' : y'.engine = x'.engine) :
    (DapOp.call id (.execute command)).progress r y y' g =
      (DapOp.call id (.execute command)).progress r x x' g := by
  have hmade : y.made y' = x.made x' := by rw [Session.made, Session.made, he, he']
  cases command <;> simp only [DapOp.progress, hmade]

end Command

theorem DapOp.regular_visible {id : SessionId} {ids : List Int} {x x' : Session} {g : Progress}
    {before live : List Int} (h : g.before = some (before, live)) :
    (DapOp.call id .visibleBreakpointIds).regular ids x x' g = true ↔
      sole (Session.newIds before ids) = Session.newIds live x.engine.breakpointIds := by
  simp [DapOp.regular, h]

namespace Session

variable {id : SessionId} {v : SetterView}

theorem wp_readSession {α : Type} {f : Session → Dap α} {Q : α → SetterView → Prop}
    {E : Exn → SetterView → Prop} : ((readSession id).bind f).wp (setterSpec id) Q E v ↔
      (f v.1).wp (setterSpec id) Q E v :=
  ⟨fun h => h.2, fun h => ⟨rfl, h⟩⟩

theorem setterSpec_follows (id : SessionId) : Follows id (setterSpec id) :=
  ⟨fun h => ⟨rfl, h⟩, fun h => ⟨rfl, h⟩, fun h => h⟩

theorem throwIfDisposed_wp {Q : Unit → SetterView → Prop} {E : Exn → SetterView → Prop}
    (h : v.1.disposed = true → ∀ e, E e v) (hQ : v.1.disposed = false → Q () v) :
    (throwIfDisposed id).wp (setterSpec id) Q E v :=
  (setterSpec_follows id).throwIfDisposed h hQ

theorem throwIfNullOrWhitespace_wp {value what : String} {Q : Unit → SetterView → Prop}
    {E : Exn → SetterView → Prop} (h : ∀ e, E e v) (hQ : Q () v) :
    (throwIfNullOrWhitespace value what).wp (setterSpec id) Q E v := by
  rw [throwIfNullOrWhitespace]
  split
  · exact h _
  · exact hQ

/-- A command that prints into the capture: what it does to the engine, whether it fails or not. -/
theorem executeCommandWithOutput_wp {command : Command} {Q : String → SetterView → Prop}
    {E : Exn → SetterView → Prop} (hc : command.plain = true) (hbusy : ¬v.1.Idle → ∀ e, E e v)
    (hdone : v.1.Idle → ∀ r created, Call.mayCreate created v.1.engine (.execute command) = true →
      command.regular r v.1 (v.1.ran command r created) v.2 = true →
        let v' := (v.1.ran command r created,
          (DapOp.call id (.execute command)).progress r v.1 (v.1.ran command r created) v.2)
        if r.status.isOk then ∀ output, Q output v' else ∀ e, E e v') :
    (executeCommandWithOutput id command).wp (setterSpec id) Q E v := by
  refine (setterSpec_follows id).executeCommandWithOutput hc hbusy fun hi => ?_
  refine ⟨rfl, fun r created after x' hcreated hx' hreg capture => ?_⟩
  rw [Command.effect_of_plain hc] at hx'
  have hran : ({ x' with outputCapture := capture } : Session).update .endCapture =
      v.1.ran command r created := by
    rw [hx']
    rfl
  have hreg' : command.regular r v.1 (v.1.ran command r created) v.2 =
      command.regular r (v.1.update (.beginCapture true)) x' v.2 := by
    refine Command.regular_congr ?_ ?_ ?_
    · rfl
    · rw [hx']; rfl
    · rfl
  have hprogress : (DapOp.call id (.execute command)).progress r (v.1.update (.beginCapture true))
      x' v.2 = (DapOp.call id (.execute command)).progress r v.1 (v.1.ran command r created) v.2 := by
    refine Command.progress_congr ?_ ?_
    · rfl
    · rw [hx']; rfl
  have hafter := hdone hi r created hcreated (hreg'.trans hreg)
  dsimp only at hafter ⊢
  rw [hprogress, hran]
  exact hafter

theorem getConfiguredBreakpointIds_wp {Q : List Int → SetterView → Prop} {E : Exn → SetterView → Prop}
    (hd : v.1.disposed = false)
    (hQ : ∀ ids, (DapOp.call id .visibleBreakpointIds).regular ids v.1 v.1 v.2 = true →
      Q (ids.insertionSort (· ≤ ·))
        (v.1, (DapOp.call id .visibleBreakpointIds).progress ids v.1 v.1 v.2)) :
    (getConfiguredBreakpointIds id).wp (setterSpec id) Q E v := by
  rw [getConfiguredBreakpointIds, bind_eq, wp_bind]
  refine throwIfDisposed_wp (fun hd' => by rw [hd] at hd'; cases hd') fun _ => ?_
  refine ⟨rfl, fun ids _ _ x' _ hx' hreg => ?_⟩
  have hx : x' = v.1 := hx'
  subst hx
  exact hQ ids hreg

/-! ## Accounts -/

/-- The account of a session whose setter has learnt the ids in `hand`. -/
def Account (x : Session) (hand : List Int) : Prop := Accounted x.ownIds (x.held hand)

theorem tracked_iff {x : Session} : x.Tracked ↔ x.Account [] := by
  constructor
  · intro h
    constructor
    · intro n hn
      obtain ⟨o, ho⟩ := h.owned n hn
      exact ⟨some o, ho⟩
    · rintro (_ | o) n hn
      · cases hn
      · exact h.live o n hn
    · rintro (_ | o) (_ | o') n hn hn'
      · rfl
      · cases hn
      · cases hn'
      · rw [h.one hn hn']
    · rintro (_ | o)
      · exact List.nodup_nil
      · exact h.nodup o
  · intro h
    constructor
    · intro n hn
      obtain ⟨_ | o, ho⟩ := h.owned n hn
      · cases ho
      · exact ⟨o, ho⟩
    · exact fun o n hn => h.live (some o) n hn
    · exact fun hn hn' => Option.some.inj (h.one (h := some _) (k := some _) hn hn')
    · exact fun o => h.nodup (some o)

theorem breakpoints_ran {x : Session} {command : Command} (created : List Int)
    (hc : command.creates = true) (r : ExecuteResult) :
    (x.ran command r created).engine.breakpoints =
      x.engine.breakpoints ++ created.map fun id => { id, origin := command } := by
  have hafter : (x.ran command r created).engine.breakpoints =
      Call.breakpointsAfter command created x.engine.breakpoints := by
    cases hr : r.status <;> simp [ran, Session.update, Call.executed, hr, hc]
  rw [hafter]
  cases command <;> first | rfl | cases hc

theorem ownIds_ran_of_creates {x : Session} {command : Command} {created : List Int}
    (hc : command.creates = true) (r : ExecuteResult) :
    (x.ran command r created).ownIds = x.ownIds ++ created := by
  have hall : (created.map fun id => ({ id, origin := command } : LiveBreakpoint)).filter
      (fun b => b.origin.creates) = created.map fun id => { id, origin := command } :=
    List.filter_eq_self.2 (by simp [hc])
  rw [ownIds, ownIds, breakpoints_ran created hc, List.filter_append, List.map_append, hall,
    List.map_map]
  exact congrArg _ (List.map_id _)

theorem ownIds_ran_clear {x : Session} {n : Int} {r : ExecuteResult} (created : List Int)
    (hr : r.status.isOk = true) :
    (x.ran (.clear n) r created).ownIds = x.ownIds.filter (· ≠ n) := by
  have hbps : (x.ran (.clear n) r created).engine.breakpoints =
      x.engine.breakpoints.filter fun b => b.id ≠ n := by
    cases hs : r.status with
    | ok => simp [ran, Session.update, Call.executed, Call.breakpointsAfter, hs]
    | error => rw [hs] at hr; cases hr
  rw [ownIds, ownIds, hbps, List.filter_map, List.filter_filter, List.filter_filter]
  simp only [Function.comp_def, Bool.and_comm]

/-- A command that makes nothing and clears nothing. -/
theorem ownIds_ran_of_keeps {x : Session} {command : Command} {r : ExecuteResult}
    (h : (Call.executed command r [] x.engine).breakpoints = x.engine.breakpoints) :
    (x.ran command r []).ownIds = x.ownIds := by
  rw [ownIds, ownIds]
  exact congrArg (fun bps => (List.filter _ bps).map _) h

/-- What a command makes is what appeared. -/
theorem made_ran {x : Session} {command : Command} {created : List Int}
    (hc : command.creates = true) (r : ExecuteResult)
    (hm : Call.mayCreate created x.engine (.execute command) = true) :
    x.made (x.ran command r created) = created ∧ ∀ n ∈ created, n ∉ x.ownIds := by
  rw [Call.mayCreate, if_pos hc, Bool.and_eq_true, List.all_eq_true] at hm
  have hfresh : ∀ n ∈ created, n ∉ x.engine.breakpointIds := by
    intro n hn
    simpa using hm.2 n hn
  have hids : (x.ran command r created).engine.breakpointIds =
      x.engine.breakpointIds ++ created := by
    rw [EngineState.breakpointIds, breakpoints_ran created hc, List.map_append, List.map_map]
    exact congrArg _ (List.map_id _)
  refine ⟨?_, fun n hn hown => ?_⟩
  · rw [made, hids, newIds, List.filter_append, List.filter_eq_nil_iff.2 (by simp),
      List.filter_eq_self.2 (by simpa using hfresh), List.nil_append]
  · obtain ⟨b, hb, rfl⟩ := List.mem_map.1 hown
    exact hfresh _ hn (List.mem_map.2 ⟨b, (List.mem_filter.1 hb).1, rfl⟩)

/-! ## What each step does to the account -/

variable {x : Session} {ids : List Int}

theorem held_update_none (x : Session) (ids ids' : List Int) :
    Function.update (x.held ids) none ids' = x.held ids' := by
  funext o
  cases o <;> rfl

theorem Account.clear {n : Int} {r : ExecuteResult} {created : List Int}
    (h : x.Account (n :: ids)) (hr : r.status.isOk = true) :
    (x.ran (.clear n) r created).Account ids := by
  rw [Account, ownIds_ran_clear created hr]
  have hdrop := h.drop (h := none) rfl
  rwa [held_update_none] at hdrop

theorem Account.create {command : Command} {created : List Int} (h : x.Account ids)
    (hc : command.creates = true) (r : ExecuteResult)
    (hm : Call.mayCreate created x.engine (.execute command) = true)
    (hone : (x.made (x.ran command r created)).length ≤ 1) :
    (x.ran command r created).Account (ids ++ created) := by
  obtain ⟨hmade, hfresh⟩ := made_ran hc r hm
  rw [Account, ownIds_ran_of_creates hc]
  rw [hmade] at hone
  match created, hone with
  | [], _ => rw [List.append_nil, List.append_nil]; exact h
  | [n], _ =>
    have hadd := h.add (hfresh n (by simp)) none
    rwa [held_update_none] at hadd

theorem Account.eraseSource {key : String} (h : x.Account [])
    (hids : x.sourceBreakpointIdsByPath.get? key = some ids) :
    (x.update (.eraseSource key)).Account ids := by
  have hmove := h.move (h := some (.source key)) (k := none) (by simp)
  have hheld : x.held [] (some (.source key)) = ids := by
    change (x.sourceBreakpointIdsByPath.get? key).getD [] = ids
    rw [hids]
    rfl
  rw [hheld] at hmove
  refine cast (congrArg (Accounted _) ?_) hmove
  funext o
  match o with
  | none => rfl
  | some (.command kind) => rfl
  | some (.source key') =>
    change Function.update (x.held []) (some (.source key)) [] (some (.source key')) =
      ((x.sourceBreakpointIdsByPath.erase key).get? key').getD []
    rw [AssocMap.get?_erase]
    by_cases hk : key' = key
    · rw [hk, Function.update_self, if_pos rfl]; rfl
    · rw [Function.update_of_ne (by simpa using hk), if_neg hk]; rfl

theorem Account.trackSource {key : String} (h : x.Account ids)
    (hnone : x.recorded (.source key) = []) :
    (x.update (.trackSource key ids)).Account [] := by
  have hmove := h.move (h := none) (k := some (.source key)) (by simp)
  rw [held_update_none, show x.held ids (some (.source key)) = [] from hnone] at hmove
  refine cast (congrArg (Accounted _) ?_) hmove
  funext o
  match o with
  | none => rfl
  | some (.command kind) => rfl
  | some (.source key') =>
    change _ = ((x.sourceBreakpointIdsByPath.set key ids).get? key').getD []
    rw [AssocMap.get?_set]
    by_cases hk : key' = key
    · rw [hk, Function.update_self, if_pos rfl]; rfl
    · rw [Function.update_of_ne (by simpa using hk), if_neg hk]; rfl

theorem update_track (kind : BreakpointKind) (ids : List Int) :
    (x.update (.track kind ids)).held [] =
      Function.update (x.held []) (some (.command kind)) ids := by
  funext o
  match o with
  | none => rfl
  | some (.source key) => rfl
  | some (.command kind') =>
    change Function.update x.commandBreakpointIds kind ids kind' = _
    by_cases hk : kind' = kind
    · rw [hk, Function.update_self, Function.update_self]
    · rw [Function.update_of_ne hk, Function.update_of_ne (by simpa using hk)]; rfl

theorem Account.track {kind : BreakpointKind} (h : x.Account ids) :
    (x.update (.track kind (x.commandBreakpointIds kind ++ ids))).Account [] := by
  have hmove := h.move (h := none) (k := some (.command kind)) (by simp)
  rw [held_update_none] at hmove
  rw [Account, update_track]
  exact hmove

/-! ## The source setter -/

theorem Account.not_command (h : x.Account ids) {n : Int} (hn : n ∈ ids) (kind : BreakpointKind) :
    n ∉ x.commandBreakpointIds kind := by
  intro hc
  cases h.one (h := none) (k := some (.command kind)) hn hc

theorem clearBreakpoints_wp {E : Exn → SetterView → Prop} (hi : v.1.Idle) (ha : v.1.Account ids) :
    (Prog.forEach (clearBreakpoint id) ids).wp (setterSpec id) (fun _ v' => v'.1.Idle ∧
      v'.1.Account [] ∧ v'.1.sourceBreakpointIdsByPath = v.1.sourceBreakpointIdsByPath ∧
      v'.2.before = v.2.before) E v := by
  induction ids generalizing v with
  | nil => exact ⟨hi, ha, rfl, rfl⟩
  | cons n ids ih =>
    rw [Prog.forEach, wp_bind, clearBreakpoint, bind_eq, wp_bind]
    refine executeCommandWithOutput_wp rfl (fun hn => absurd hi hn) fun _ r created _ hreg => ?_
    have hok : r.status.isOk = true := by
      rcases Command.regular_clear.1 hreg with hok | ⟨-, kind, hk⟩
      · exact hok
      · exact absurd hk (ha.not_command (by simp) kind)
    dsimp only
    rw [if_pos hok]
    intro _
    exact ih (v := (v.1.ran (.clear n) r created, { v.2 with cleared := v.2.cleared || r.status.isOk }))
      (hi.ran _ r created) (ha.clear hok)

theorem sole_perm {xs ys : List Int} (h : xs.Perm ys) : sole xs = sole ys := by
  match xs, ys with
  | [], ys => rw [h.symm.eq_nil]
  | [n], ys => rw [List.perm_singleton.1 h.symm]
  | _ :: _ :: _, _ :: _ :: _ => rfl
  | _ :: _ :: _, [] | _ :: _ :: _, [_] => have hlen := h.length_eq; simp at hlen

/-- Sorting the enumerations does not matter. -/
theorem sole_newIds_sorted (before after : List Int) :
    sole (newIds (before.insertionSort (· ≤ ·)) (after.insertionSort (· ≤ ·))) =
      sole (newIds before after) := by
  have hmem : (fun id => !(before.insertionSort (· ≤ ·)).contains id) =
      fun id => !before.contains id := by
    funext n
    rw [Bool.eq_iff_iff]
    simp [(List.perm_insertionSort (· ≤ ·) before).mem_iff]
  refine sole_perm ?_
  rw [newIds, newIds, hmem]
  exact (List.perm_insertionSort _ after).filter _

/-! The first enumeration is remembered, and the second one looks at it. -/

theorem before_some {x x' : Session} {g : Progress} {command : Command} {r : ExecuteResult}
    (h : g.before = none) (ids : List Int) :
    ((DapOp.call id (.execute command)).progress r x x'
      ((DapOp.call id .visibleBreakpointIds).progress ids x x g)).before =
        some (ids, x.engine.breakpointIds) := by
  have hexecute : ∀ g : Progress,
      ((DapOp.call id (.execute command)).progress r x x' g).before = g.before := by
    intro g
    cases command <;> rfl
  rw [hexecute]
  simp only [DapOp.progress, h]

theorem before_none {x : Session} {g : Progress} {b : List Int × List Int}
    (h : g.before = some b) (ids : List Int) :
    ((DapOp.call id .visibleBreakpointIds).progress ids x x g).before = none := by
  simp only [DapOp.progress, h]

/-- In the middle of the source setter for a path. -/
structure Midway (key : String) (ids : List Int) (v : SetterView) : Prop where
  idle : v.1.Idle
  account : v.1.Account ids
  erased : v.1.recorded (.source key) = []
  created : v.2.created = false → ids = []
  before : v.2.before = none

theorem configureSourceBreakpoint_wp {key : String} {normalizedPath : String}
    {configured : ConfiguredBreakpoints} {bp : SourceBreakpointSpec}
    (hm : Midway key configured.ids v) :
    (configureSourceBreakpoint id normalizedPath configured bp).wp (setterSpec id)
      (fun configured' v' => Midway key configured'.ids v') (fun _ v' => v'.1.Tracked) v := by
  rw [configureSourceBreakpoint]
  simp only [bind_eq, wp_bind]
  refine getConfiguredBreakpointIds_wp hm.idle.1 fun before _ => ?_
  refine executeCommandWithOutput_wp rfl (fun hn => absurd hm.idle hn) fun _ r created hc hreg => ?_
  obtain ⟨hone, hfail⟩ := Command.regular_source.1 hreg
  obtain ⟨hmade, -⟩ := made_ran rfl r hc
  have ha := hm.account.create rfl r hc hone
  dsimp only at hmade ha hone hfail ⊢
  split
  · intro _
    refine getConfiguredBreakpointIds_wp hm.idle.1 fun after hreg => ?_
    have hbefore : ((DapOp.call id (.execute (.sourceBreakpoint normalizedPath bp))).progress r v.1
        (v.1.ran (.sourceBreakpoint normalizedPath bp) r created)
        ((DapOp.call id .visibleBreakpointIds).progress before v.1 v.1 v.2)).before =
          some (before, v.1.engine.breakpointIds) := before_some hm.before before
    have hids : sole (newIds before after) = created :=
      (DapOp.regular_visible hbefore).1 hreg |>.trans hmade
    have hresult (ids : List Int) : (sourceResult normalizedPath bp.line ids).id.toList = sole ids := by
      match ids with
      | [] | [_] | _ :: _ :: _ => rfl
    rw [pure_eq, wp_ret, hresult, sole_newIds_sorted, hids]
    refine ⟨hm.idle.ran _ r created, ha, hm.erased, fun hcreated => ?_, ?_⟩
    · change (v.2.created || !(v.1.made _).isEmpty) = false at hcreated
      rw [hmade, Bool.or_eq_false_iff] at hcreated
      rw [hm.created hcreated.1, List.nil_append]
      exact List.isEmpty_iff.1 (by simpa using hcreated.2)
    · exact before_none hbefore after
  · rename_i herror
    intro e
    obtain ⟨hcreated, hnone⟩ := hfail.resolve_left herror
    rw [hmade] at hnone
    rw [hm.created hcreated, hnone, List.append_nil] at ha
    exact tracked_iff.2 (hnone ▸ ha)

theorem configureSourceBreakpoints_wp {key : String} {normalizedPath : String}
    {configured : ConfiguredBreakpoints} (specs : List SourceBreakpointSpec)
    (hm : Midway key configured.ids v) :
    (configureSourceBreakpoints id normalizedPath configured specs).wp (setterSpec id)
      (fun configured' v' => Midway key configured'.ids v') (fun _ v' => v'.1.Tracked) v := by
  induction specs generalizing configured v with
  | nil => exact hm
  | cons bp specs ih =>
    rw [configureSourceBreakpoints, bind_eq, wp_bind]
    exact wp_mono_val (fun _ _ hm' => ih hm') (configureSourceBreakpoint_wp hm)

theorem clearSourceBreakpoints_wp {normalizedPath : String} {E : Exn → SetterView → Prop}
    (hi : v.1.Idle) (ha : v.1.Account []) (hb : v.2.before = none) :
    (clearSourceBreakpoints id normalizedPath).wp (setterSpec id)
      (fun _ => Midway (Text.toUpperInvariant normalizedPath) []) E v := by
  rw [clearSourceBreakpoints, bind_eq, wp_readSession]
  have hrecorded {x : Session} {key : String} {found : Option (List Int)}
      (h : x.sourceBreakpointIdsByPath.get? key = found) :
      x.recorded (.source key) = found.getD [] := by rw [recorded, h]
  split
  · rename_i hnone
    exact ⟨hi, ha, hrecorded hnone, fun _ => rfl, hb⟩
  · rename_i ids hsome
    refine ⟨rfl, wp_mono_val ?_ (clearBreakpoints_wp hi (ha.eraseSource hsome))⟩
    rintro _ v' ⟨hi', ha', hsource, hb'⟩
    have hnone : v'.1.sourceBreakpointIdsByPath.get? (Text.toUpperInvariant normalizedPath) =
        none := by
      rw [hsource]
      exact (AssocMap.get?_erase _ _ _).trans (if_pos rfl)
    exact ⟨hi', ha', hrecorded hnone, fun _ => rfl, hb'.trans hb⟩

/-- The source setter keeps the breakpoints tracked, whether it returns or throws. -/
theorem setSourceBreakpoints_wp (filePath : String) (breakpoints : List SourceBreakpointSpec)
    (ht : v.1.Tracked) (hg : v.2 = {}) :
    (setSourceBreakpoints id filePath breakpoints).wp (setterSpec id)
      (fun _ v' => v'.1.Tracked) (fun _ v' => v'.1.Tracked) v := by
  rw [setSourceBreakpoints]
  simp only [bind_eq, wp_bind]
  refine throwIfDisposed_wp (fun _ _ => ht) fun hd => ?_
  refine throwIfNullOrWhitespace_wp (fun _ => ht) ?_
  intro normalizedPath
  refine executeCommandWithOutput_wp rfl (fun _ _ => ht) fun hi r created hc _ => ?_
  obtain rfl : created = [] := List.isEmpty_iff.1 hc
  have hown : (v.1.ran .lines r []).ownIds = v.1.ownIds := ownIds_ran_of_keeps (by
    cases hr : r.status <;> simp [Call.executed, Call.breakpointsAfter, hr, Command.creates])
  have ha : (v.1.ran .lines r []).Account [] := by
    rw [Account, hown]
    exact tracked_iff.1 ht
  dsimp only
  split
  · intro _
    refine wp_mono_val (fun _ v' hm => ?_)
      (clearSourceBreakpoints_wp (hi.ran _ r []) ha (by rw [hg]; rfl))
    split
    · exact tracked_iff.2 hm.account
    rw [wp_bind]
    refine wp_mono_val (fun configured v'' hm' => ?_) (configureSourceBreakpoints_wp _ hm)
    exact ⟨rfl, tracked_iff.2 (hm'.account.trackSource hm'.erased)⟩
  · exact fun _ => tracked_iff.2 ha

/-! ## The other setters -/

/-- While the last breakpoints of a kind are cleared; `ids` remain. -/
structure Clearing (kind : BreakpointKind) (ids : List Int) (v : SetterView) : Prop where
  alive : v.1.disposed = false
  idle : v.2.cleared = true → v.1.Idle
  account : Accounted v.1.ownIds (Function.update (v.1.held []) (some (.command kind)) ids)
  first : v.2.cleared = false → v.1.commandBreakpointIds kind = ids
  before : v.2.before = none

theorem Clearing.tracked {kind : BreakpointKind} (hc : Clearing kind ids v)
    (h : v.2.cleared = false) : v.1.Tracked := by
  have hids : ids = v.1.held [] (some (.command kind)) := (hc.first h).symm
  have ha := hc.account
  rw [hids, Function.update_eq_self] at ha
  exact tracked_iff.2 ha

theorem clearCommandBreakpoints_wp {kind : BreakpointKind} (hc : Clearing kind ids v) :
    (Prog.forEach (clearBreakpoint id) ids).wp (setterSpec id) (fun _ => Clearing kind [])
      (fun _ v' => v'.1.Tracked) v := by
  induction ids generalizing v with
  | nil => exact hc
  | cons n ids ih =>
    rw [Prog.forEach, wp_bind, clearBreakpoint, bind_eq, wp_bind]
    refine executeCommandWithOutput_wp rfl (fun hn _ => ?_) fun hi r created _ hreg => ?_
    · refine hc.tracked (Bool.eq_false_iff.2 fun hcleared => hn (hc.idle hcleared))
    dsimp only
    split
    · rename_i hok
      intro _
      have hdrop := hc.account.drop (h := some (.command kind)) (Function.update_self _ _ _)
      rw [Function.update_idem, ← ownIds_ran_clear created hok] at hdrop
      refine ih (v := (v.1.ran (.clear n) r created, { v.2 with
        cleared := v.2.cleared || r.status.isOk }))
        ⟨hc.alive, fun _ => hi.ran _ r created, hdrop, fun hcleared => ?_, hc.before⟩
      rw [hok, Bool.or_true] at hcleared
      cases hcleared
    · rename_i herror
      intro _
      -- a failing `bc` is the first one, and nothing has happened yet
      obtain ⟨hcleared, -⟩ := (Command.regular_clear.1 hreg).resolve_left herror
      have hown : (v.1.ran (.clear n) r created).ownIds = v.1.ownIds := by
        cases hr : r.status with
        | ok => rw [hr] at herror; exact absurd rfl herror
        | error hr' => simp [ownIds, ran, Session.update, Call.executed, hr, Command.creates]
      have ha := tracked_iff.1 (hc.tracked hcleared)
      refine tracked_iff.2 ?_
      rw [Account, hown]
      exact ha

theorem regular_one {command : Command} {r : ExecuteResult} {x x' : Session} {g : Progress}
    (hc : command.creates = true) (h : command.regular r x x' g = true) :
    (x.made x').length ≤ 1 := by
  cases command with
  | sourceBreakpoint => exact (Command.regular_source.1 h).1
  | _ => first | exact of_decide_eq_true h | cases hc

/-- Between two commands of a setter. -/
structure Between (v : SetterView) : Prop where
  alive : v.1.disposed = false
  account : v.1.Account []
  before : v.2.before = none

/-- The id that appeared is tracked. -/
def trackAppeared (id : SessionId) (kind : BreakpointKind) (failureLabel : String)
    (before after : List Int) : Dap SourceBreakpointResult :=
  match newIds before after with
  | [new] => do
    let s ← readSession id
    updateSession id (.track kind (s.commandBreakpointIds kind ++ [new]))
    return { id := some new, verified := true }
  | _ =>
    return { verified := false
             message := some ("Unable to set breakpoint at '" ++ failureLabel ++ "'.") }

theorem trackAppeared_wp {x : Session} {g : Progress} {kind : BreakpointKind} {label : String}
    {E : Exn → SetterView → Prop} {before : List Int} (live created : List Int)
    (hd : x.disposed = false) (ha : x.Account created) (hb : g.before = some (before, live))
    (hmade : newIds live x.engine.breakpointIds = created) :
    (getConfiguredBreakpointIds id).wp (setterSpec id) (fun after v' =>
      (trackAppeared id kind label (before.insertionSort (· ≤ ·)) after).wp (setterSpec id)
        (fun _ v'' => Between v'') E v') E (x, g) := by
  refine getConfiguredBreakpointIds_wp hd fun after hreg => ?_
  have hids : sole (newIds before after) = created :=
    (DapOp.regular_visible hb).1 hreg |>.trans hmade
  rw [← sole_newIds_sorted] at hids
  rw [← hids] at ha
  rw [trackAppeared]
  split
  · rename_i hone
    rw [hone] at ha
    exact ⟨rfl, rfl, hd, ha.track, before_none hb after⟩
  · rename_i hne
    rw [sole.eq_def] at ha
    split at ha
    · exact absurd ‹_› (hne _)
    · exact ⟨hd, ha, before_none hb after⟩

theorem setCommandBreakpoint_wp {kind : BreakpointKind} {command : Command} {failureLabel : String}
    {E : Exn → SetterView → Prop} (hs : command.plain = true) (hc : command.creates = true)
    (hb : Between v) :
    (setCommandBreakpoint id kind command failureLabel).wp (setterSpec id)
      (fun _ v' => Between v') E v := by
  rw [setCommandBreakpoint]
  simp only [bind_eq, wp_bind, wp_catching]
  refine getConfiguredBreakpointIds_wp hb.alive fun before _ => ?_
  refine executeCommandWithOutput_wp hs (fun _ _ => ?_) fun _ r created hm hreg => ?_
  · -- nothing was executed
    refine trackAppeared_wp v.1.engine.breakpointIds [] hb.alive hb.account ?_ ?_
    · simp only [DapOp.progress, hb.before]
    · simp [newIds]
  obtain ⟨hmade, -⟩ := made_ran hc r hm
  have hone := regular_one hc hreg
  have ha := hb.account.create hc r hm hone
  -- rejected or not, what the enumerations show is what the command made
  dsimp only
  split
  · exact fun _ => trackAppeared_wp _ created hb.alive ha (before_some hb.before before) hmade
  · exact fun _ => trackAppeared_wp _ created hb.alive ha (before_some hb.before before) hmade

theorem setCommandBreakpoints_wp (kind : BreakpointKind) (commands : List (Command × String))
    (hc : ∀ c ∈ commands, c.1.plain = true ∧ c.1.creates = true) (ht : v.1.Tracked)
    (hg : v.2 = {}) :
    (setCommandBreakpoints id kind commands).wp (setterSpec id)
      (fun _ v' => v'.1.Tracked) (fun _ v' => v'.1.Tracked) v := by
  rw [setCommandBreakpoints]
  simp only [bind_eq, wp_bind]
  refine throwIfDisposed_wp (fun _ _ => ht) fun hd => ?_
  have ha := tracked_iff.1 ht
  have hclearing : Clearing kind (v.1.commandBreakpointIds kind) v := by
    refine ⟨hd, fun hc => ?_, ?_, fun _ => rfl, by rw [hg]⟩
    · rw [hg] at hc
      cases hc
    · rw [show v.1.commandBreakpointIds kind = v.1.held [] (some (.command kind)) from rfl,
        Function.update_eq_self]
      exact ha
  refine ⟨rfl, ?_⟩
  simp only [wp_ret]
  refine wp_mono_val (fun _ v' hc' => ?_) (clearCommandBreakpoints_wp hclearing)
  have hbetween : Between (v'.1.update (.track kind []), v'.2) := by
    refine ⟨hc'.alive, ?_, hc'.before⟩
    rw [Account, update_track]
    exact hc'.account
  refine ⟨rfl, wp_mono_val (fun _ _ hb => tracked_iff.2 hb.account)
    (wp_mapEach (I := Between) (fun c hmem v'' hb => ?_) hbetween)⟩
  exact setCommandBreakpoint_wp (hc c hmem).1 (hc c hmem).2 hb

end Session

/-! ## Every sequence of calls -/

theorem Setter.body_wp {id : SessionId} (c : Setter) {x : Session} (ht : x.Tracked) :
    (c.body id).wp (setterSpec id) (fun _ v' => v'.1.Tracked) (fun _ v' => v'.1.Tracked)
      (x, {}) := by
  cases c with
  | source filePath breakpoints => exact Session.setSourceBreakpoints_wp _ _ ht rfl
  | function names =>
    exact Session.setCommandBreakpoints_wp _ _ (by simp [Command.plain, Command.creates]) ht rfl
  | instruction addresses =>
    exact Session.setCommandBreakpoints_wp _ _ (by simp [Command.plain, Command.creates]) ht rfl
  | data specs =>
    exact Session.setCommandBreakpoints_wp _ _ (by simp [Command.plain, Command.creates]) ht rfl

/-- **Regular calls keep the breakpoints tracked**, whether they return or throw. -/
theorem SetterRun.keeps_tracked {id : SessionId} {s s' : Server} (ht : (s.sessions id).Tracked)
    (h : SetterRun regular id s s') : (s'.sessions id).Tracked := by
  induction h with
  | nil => exact ht
  | @call s₁ s₂ g r prev c hend ih =>
    have hout := wp_setter hend (c.body_wp ih)
    cases r with
    | ok => exact hout
    | error => exact hout

/-! ## Executable calls -/

/-- Commands may fail; everything else is answered by default. -/
def failingAnswer (fails : Command → Bool) : ∀ {β : Type}, Call β → EngineState → β
  | _, .execute c, _ => { status := if fails c then .error 0x80004005 else .ok () }
  | _, c, e => c.default e

/-- A command that creates breakpoints and does not fail makes one. -/
def failingAnswers (fails : Command → Bool) : ∀ {β : Type}, DapOp β → Answers
  | _, .call _ (.execute c) =>
    { answer := failingAnswer fails
      created := fun e => if c.creates && !fails c then [e.breakpoints.length] else [] }
  | _, _ => { answer := failingAnswer fails }

/-- Perform an operation of a call if it meets the condition. -/
def setterApply (ok : CallCondition) (fails : Command → Bool) (id : SessionId) {β : Type}
    (o : DapOp β) (p : Server × Progress) : Option (β × (Server × Progress)) :=
  (apply .request (failingAnswers fails o) o p.1).bind fun r =>
    if ok β o r.1 (p.1.sessions id) (r.2.sessions id) p.2 then
      some (r.1, r.2, o.progress r.1 (p.1.sessions id) (r.2.sessions id) p.2)
    else none

theorem setterSteps_of_apply {ok : CallCondition} {fails : Command → Bool} {id : SessionId}
    {β : Type} (o : DapOp β) (p : Server × Progress) (b : β) (p' : Server × Progress)
    (h : setterApply ok fails id o p = some (b, p')) : setterSteps ok id β o p b p' := by
  obtain ⟨r, hr, h⟩ := Option.bind_eq_some_iff.1 h
  split at h
  · rename_i hok
    cases h
    exact ⟨⟨_, hr⟩, rfl, hok⟩
  · cases h

def runSetter (ok : CallCondition) (fails : Command → Bool) (id : SessionId) (c : Setter)
    (s : Server) : Option (Except Exn (List SourceBreakpointResult) × (Server × Progress)) :=
  (c.body id).eval (setterApply ok fails id) 200 (s, {})

theorem SetterRun.of_run {ok : CallCondition} {fails : Command → Bool} {id : SessionId}
    {c : Setter} {s s₁ : Server} {r : Except Exn (List SourceBreakpointResult) × (Server × Progress)}
    (prev : SetterRun ok id s s₁) (h : runSetter ok fails id c s₁ = some r) :
    SetterRun ok id s r.2.1 :=
  .call prev c (Ends.of_eval setterSteps_of_apply h)

theorem tracked_fresh : ({} : Session).Tracked :=
  ⟨by simp [Session.ownIds], fun o n h => (by cases o <;> cases h),
    fun {o _ _} h => (by cases o <;> cases h), fun o => (by cases o <;> exact List.nodup_nil)⟩

/-- Two breakpoints in a file, the second of them at line 2. -/
def twoBreakpoints : Setter := .source "a.cpp" [{ line := 1 }, { line := 2 }]

theorem twoBreakpoints_tracked : ∃ s' : Server, SetterRun regular 0 {} s' ∧
    (s'.sessions 0).ownIds = [0, 1] ∧ (s'.sessions 0).Tracked := by
  have hrun : (runSetter regular (fun _ => false) 0 twoBreakpoints {}).any
      (fun r => (r.2.1.sessions 0).ownIds = [0, 1]) = true := by decide +kernel
  obtain ⟨r, hr, hown⟩ := (Option.any_eq_true _ _).1 hrun
  have h : SetterRun regular 0 {} r.2.1 := .of_run (.nil {}) hr
  exact ⟨r.2.1, h, by simpa using hown, SetterRun.keeps_tracked tracked_fresh h⟩

/-- A `bu` that fails throws before the setter tracks the breakpoint it made before. -/
theorem failing_command_orphans : ¬∀ (s s' : Server), (s.sessions 0).Tracked →
    SetterRun (fun _ _ _ _ _ _ => true) 0 s s' → (s'.sessions 0).Tracked := by
  intro hall
  have hrun : (runSetter (fun _ _ _ _ _ _ => true)
      (fun | .sourceBreakpoint _ spec => spec.line = 2 | _ => false) 0 twoBreakpoints {}).any
      (fun r => (r.2.1.sessions 0).ownIds = [0] && (r.2.1.sessions 0).sourceBreakpointIdsByPath.isEmpty
        && [BreakpointKind.function, .instruction, .data].all fun kind =>
          ((r.2.1.sessions 0).commandBreakpointIds kind).isEmpty) = true := by decide +kernel
  obtain ⟨r, hr, htest⟩ := (Option.any_eq_true _ _).1 hrun
  have ht := hall {} r.2.1 tracked_fresh (.of_run (.nil {}) hr)
  simp only [Bool.and_eq_true, decide_eq_true_eq, List.isEmpty_iff, List.all_cons,
    List.all_nil] at htest
  obtain ⟨⟨hown, hsource⟩, hf, hi, hd, -⟩ := htest
  obtain ⟨o, ho⟩ := ht.owned 0 (by rw [hown]; simp)
  match o with
  | .source key =>
    rw [Session.recorded, hsource] at ho
    cases ho
  | .command .function => rw [Session.recorded, hf] at ho; cases ho
  | .command .instruction => rw [Session.recorded, hi] at ho; cases ho
  | .command .data => rw [Session.recorded, hd] at ho; cases ho

end DapDbgeng
