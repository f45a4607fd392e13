/-
  What each call of a breakpoint setter does, on an engine that works.

  The engine's commands succeed, its enumerations are complete, and a command makes at most one
  breakpoint.  A history notes the commands of a call that create breakpoints with the ids they
  made, and the path the file name stands for.

  * `Calls`: calls of the setters one after the other, with what each of them saw and left;
  * `CallRecord.Replaced`: the breakpoints of the setter's kind or file are replaced and the others
    are left alone, and the results tell what each command made;
  * `Calls.replaced`: every call does this whose specs are told apart.
-/
import DapDbgeng.Tracking
import Mathlib.Data.List.Forall2

namespace DapDbgeng

open Concurrent Concurrent.Prog

/-! ## Calls with a history -/

structure CallLog where
  /-- What the operating system made of the file name. -/
  path : Option String := none
  /-- The commands that create breakpoints, with the ids of those they made. -/
  made : List (Command × List Int) := []

namespace CallLog

def ids (g : CallLog) : List Int := g.made.flatMap Prod.snd

def breakpoints (g : CallLog) : List LiveBreakpoint :=
  g.made.flatMap fun m => m.2.map fun id => { id, origin := m.1 }

end CallLog

def DapOp.logged : ∀ {β : Type}, DapOp β → β → Session → Session → CallLog → CallLog
  | _, .call _ (.execute c), _, x, x', g =>
    if c.creates then { g with made := g.made ++ [(c, x.made x')] } else g
  | _, .fullPath _, path, _, _, g => { g with path := some path }
  | _, _, _, _, _, g => g

/-- Commands succeed and make at most one breakpoint; an enumeration shows all breakpoints. -/
def DapOp.wellBehaved : ∀ {β : Type}, DapOp β → β → Session → Session → Bool
  | _, .call _ (.execute _), r, x, x' => r.status.isOk && (x.made x').length ≤ 1
  | _, .call _ .visibleBreakpointIds, ids, x, _ => ids = x.engine.breakpointIds
  | _, _, _, _, _ => true

/-- The steps of a call on an engine that works. -/
def workingSteps (id : SessionId) : StepRel DapOp (Server × CallLog) :=
  fun β o p b p' => sem .request β o p.1 b p'.1 ∧
    p'.2 = o.logged b (p.1.sessions id) (p'.1.sessions id) p.2 ∧
    o.wellBehaved b (p.1.sessions id) (p'.1.sessions id) = true

structure CallRecord where
  before : Session
  setter : Setter
  outcome : Except Exn (List SourceBreakpointResult)
  log : CallLog
  after : Session

/-- Calls of the setters, one after the other. -/
inductive Calls (id : SessionId) : Server → List CallRecord → Server → Prop where
  | nil (s : Server) : Calls id s [] s
  | call {s s₁ s₂ : Server} {records : List CallRecord} {g : CallLog}
      {r : Except Exn (List SourceBreakpointResult)} (prev : Calls id s records s₁) (c : Setter)
      (h : Ends (workingSteps id) (c.body id) (s₁, {}) r (s₂, g)) :
      Calls id s (records ++ [⟨s₁.sessions id, c, r, g, s₂.sessions id⟩]) s₂

/-! ## What a call is to do -/

namespace Setter

/-- The list a setter replaces; files are told by their upper-cased full path. -/
def owner (g : CallLog) : Setter → Owner
  | .source _ _ => .source (Text.toUpperInvariant (g.path.getD ""))
  | .function _ => .command .function
  | .instruction _ => .command .instruction
  | .data _ => .command .data

/-- The result for a command that made these breakpoints. -/
def Reports (created : List Int) (r : SourceBreakpointResult) : Prop :=
  r.verified = !created.isEmpty ∧ r.id = created.head?

/-- One command for each request, in order, and its result. -/
def ReportsEach (commands : List Command) (g : CallLog) (rs : List SourceBreakpointResult) : Prop :=
  g.made.map Prod.fst = commands ∧ List.Forall₂ (fun m r => Reports m.2 r) g.made rs

/-- The results are those of the requests, in order.  A source breakpoint requested twice has one
command, and one on no line of the file has none. -/
def Reported (g : CallLog) : Setter → List SourceBreakpointResult → Prop
  | .source _ breakpoints, rs => (g.made.map Prod.fst).Nodup ∧
    List.Forall₂ (fun bp r => if bp.line ≤ 0 then Reports [] r
      else ∃ created, (.sourceBreakpoint (g.path.getD "") bp, created) ∈ g.made ∧
        Reports created r) breakpoints rs
  | .function names, rs => ReportsEach (names.map .functionBreakpoint) g rs
  | .instruction addresses, rs => ReportsEach (addresses.map .instructionBreakpoint) g rs
  | .data specs, rs =>
    ReportsEach (specs.map fun s => .dataBreakpoint s.address s.size s.breakOnRead) g rs

/-- No line is requested both without a condition and with the text that stands for none. -/
def toldApart : Setter → Prop
  | .source _ breakpoints => ∀ bp ∈ breakpoints, ∀ bp' ∈ breakpoints, 0 < bp.line →
    bp.line = bp'.line → bp.condition = none → bp'.condition ≠ some "\x1e"
  | _ => True

end Setter

namespace CallRecord

/-- The breakpoints of the setter's list are replaced by those its commands made. -/
structure Replaces (c : CallRecord) (rs : List SourceBreakpointResult) : Prop where
  live : c.after.engine.breakpoints =
    (c.before.engine.breakpoints.filter fun b =>
      !(c.before.recorded (c.setter.owner c.log)).contains b.id) ++ c.log.breakpoints
  recorded : c.after.recorded (c.setter.owner c.log) = c.log.ids
  reported : c.setter.Reported c.log rs
  untouched : ∀ o, o ≠ c.setter.owner c.log → c.after.recorded o = c.before.recorded o ∧
    ∀ b ∈ c.before.engine.breakpoints, b.id ∈ c.before.recorded o →
      b ∈ c.after.engine.breakpoints

/-- A call replaces its breakpoints, or throws and changes nothing. -/
def Replaced (c : CallRecord) : Prop :=
  match c.outcome with
  | .ok rs => c.Replaces rs
  | .error _ => c.after = c.before

end CallRecord

/-! ## What a call does to its session -/

abbrev LogView := Session × CallLog

def workingPre (id : SessionId) : ∀ {β : Type}, DapOp β → (β → LogView → Prop) → LogView → Prop
  | _, .readSession i => fun K v => i = id ∧ K v.1 v
  | _, .updateSession i u => fun K v => i = id ∧ K () (v.1.update u, v.2)
  | _, .call i c => fun K v => i = id ∧ ∀ b created after x',
    Call.mayCreate created v.1.engine c = true →
      x' = { v.1 with engine := c.effect created after b v.1.engine } →
        (DapOp.call i c).wellBehaved b v.1 x' = true → K b (x', (DapOp.call i c).logged b v.1 x' v.2)
  | _, .send _ => fun K v => K () v
  | _, .fullPath _ => fun K v => ∀ path, K path (v.1, { v.2 with path := some path })
  | _, _ => fun _ _ => False

def workingSpec (id : SessionId) : Spec DapOp LogView where
  pre := workingPre id
  mono o K K' hK v h := by
    cases o with
    | readSession i => exact ⟨h.1, hK _ _ h.2⟩
    | updateSession i u => exact ⟨h.1, hK _ _ h.2⟩
    | call i c =>
      exact ⟨h.1, fun b created after x' hc hx hr => hK _ _ (h.2 b created after x' hc hx hr)⟩
    | send m => exact hK _ _ h
    | fullPath path => exact fun r => hK _ _ (h r)
    | _ => exact h.elim

theorem workingSpec_follows (id : SessionId) : Follows id (workingSpec id) :=
  ⟨fun h => ⟨rfl, h⟩, fun h => ⟨rfl, h⟩, fun h => h⟩

theorem workingPre_step {id : SessionId} {β : Type} (o : DapOp β) {K : β → LogView → Prop}
    {v : LogView} {s s' : Server × CallLog} {b : β} (hv : v = (s.1.sessions id, s.2))
    (hw : (workingSpec id).pre o K v) (h : workingSteps id β o s b s') :
    ∃ v', v' = (s'.1.sessions id, s'.2) ∧ K b v' := by
  obtain ⟨s, g⟩ := s
  obtain ⟨s', g'⟩ := s'
  obtain ⟨hsem, hg, hok⟩ := h
  dsimp only at hsem hg hok
  subst hv hg
  refine ⟨_, rfl, ?_⟩
  cases o with
  | readSession i =>
    obtain ⟨rfl, rfl⟩ := sem_readSession.1 hsem
    obtain ⟨rfl, hK⟩ := hw
    exact hK
  | updateSession i u =>
    obtain ⟨rfl, hK⟩ := hw
    rw [sem_updateSession.1 hsem, Server.modifySession_sessions, if_pos rfl]
    exact hK
  | call i c =>
    obtain ⟨rfl, hK⟩ := hw
    obtain ⟨created, after, -, hc, rfl⟩ := sem_call hsem
    refine hK b created after _ hc ?_ hok
    rw [Server.updateEngine_sessions, if_pos rfl]
    rfl
  | send m =>
    have hs : s'.sessions = s.sessions := by
      rw [sem_send.1 hsem]
      split <;> rfl
    rw [hs]
    exact hw
  | fullPath path =>
    obtain ⟨-, rfl⟩ := sem_fullPath.1 hsem
    exact hw b
  | _ => exact hw.elim

/-- What a program establishes of a session holds where an execution of it ends. -/
theorem wp_working {id : SessionId} {α : Type} {p : Dap α} {r : Except Exn α} {s s' : Server}
    {g g' : CallLog} {Q : α → LogView → Prop} {E : Exn → LogView → Prop}
    (h : Ends (workingSteps id) p (s, g) r (s', g'))
    (hw : p.wp (workingSpec id) Q E (s.sessions id, g)) : outcome Q E r (s'.sessions id, g') := by
  obtain ⟨es, hs⟩ := h
  obtain ⟨_, rfl, hw'⟩ := wp_view workingPre_step hs rfl hw
  exact wp_ofExcept hw'

namespace Session

variable {id : SessionId} {v : LogView}

/-- After a command: what it made is noted. -/
def noted (g : CallLog) (command : Command) (created : List Int) : CallLog :=
  if command.creates then { g with made := g.made ++ [(command, created)] } else g

/-- A command succeeds. -/
theorem command_wp {command : Command} {Q : String → LogView → Prop} {E : Exn → LogView → Prop}
    (hc : command.plain = true) (hi : v.1.Idle)
    (hdone : ∀ r created, r.status.isOk = true →
      Call.mayCreate created v.1.engine (.execute command) = true →
      (command.creates = true → created.length ≤ 1) →
        ∀ output, Q output (v.1.ran command r created, noted v.2 command created)) :
    (executeCommandWithOutput id command).wp (workingSpec id) Q E v := by
  refine (workingSpec_follows id).executeCommandWithOutput hc (fun hn => absurd hi hn) fun _ => ?_
  refine ⟨rfl, fun r created after x' hcreated hx' hok capture => ?_⟩
  rw [Command.effect_of_plain hc] at hx'
  have hran : ({ x' with outputCapture := capture } : Session).update .endCapture =
      v.1.ran command r created := by
    rw [hx']
    rfl
  rw [DapOp.wellBehaved, Bool.and_eq_true, decide_eq_true_eq] at hok
  have hmade : (v.1.update (.beginCapture true)).made x' = v.1.made (v.1.ran command r created) := by
    rw [made, made, hx']
    rfl
  have hcreated' : Call.mayCreate created v.1.engine (.execute command) = true := hcreated
  have hsame (hcreates : command.creates = true) :
      v.1.made (v.1.ran command r created) = created := (made_ran hcreates r hcreated').1
  have hlog : (DapOp.call id (.execute command)).logged r (v.1.update (.beginCapture true)) x' v.2 =
      noted v.2 command created := by
    rw [DapOp.logged, noted]
    split
    · rename_i hcreates
      rw [hmade, hsame hcreates]
    · rfl
  have hone (hcreates : command.creates = true) : created.length ≤ 1 := by
    rw [← hsame hcreates, ← hmade]
    exact hok.2
  dsimp only
  rw [hran, hlog, if_pos hok.1]
  exact hdone r created hok.1 hcreated' hone

theorem enumerate_wp {Q : List Int → LogView → Prop} {E : Exn → LogView → Prop}
    (hi : v.1.Idle) (hQ : Q (v.1.engine.breakpointIds.insertionSort (· ≤ ·)) v) :
    (getConfiguredBreakpointIds id).wp (workingSpec id) Q E v := by
  rw [getConfiguredBreakpointIds, bind_eq, wp_bind]
  refine (workingSpec_follows id).throwIfDisposed (fun hd => ?_) fun _ => ?_
  · rw [hi.1] at hd
    cases hd
  refine ⟨rfl, fun ids _ _ x' _ hx' hok => ?_⟩
  have hx : x' = v.1 := hx'
  subst hx
  rw [of_decide_eq_true hok]
  exact hQ

theorem breakpointIds_ran {x : Session} {command : Command} {created : List Int}
    (hc : command.creates = true) {r : ExecuteResult} :
    (x.ran command r created).engine.breakpointIds = x.engine.breakpointIds ++ created := by
  rw [EngineState.breakpointIds, breakpoints_ran created hc, List.map_append, List.map_map]
  exact congrArg _ (List.map_id _)

theorem fresh_of_mayCreate {command : Command} {created : List Int} {e : EngineState}
    (hc : command.creates = true) (hm : Call.mayCreate created e (.execute command) = true) :
    ∀ n ∈ created, n ∉ e.breakpointIds := by
  rw [Call.mayCreate, if_pos hc, Bool.and_eq_true, List.all_eq_true] at hm
  intro n hn
  simpa using hm.2 n hn

/-- What appears between two enumerations. -/
theorem newIds_of_created {before created : List Int} (hfresh : ∀ n ∈ created, n ∉ before)
    (hone : created.length ≤ 1) :
    newIds (before.insertionSort (· ≤ ·)) ((before ++ created).insertionSort (· ≤ ·)) = created := by
  have hmem : (fun id => !(before.insertionSort (· ≤ ·)).contains id) =
      fun id => !before.contains id := by
    funext n
    rw [Bool.eq_iff_iff]
    simp [(List.perm_insertionSort (· ≤ ·) before).mem_iff]
  have hperm : (newIds (before.insertionSort (· ≤ ·))
      ((before ++ created).insertionSort (· ≤ ·))).Perm created := by
    rw [newIds, hmem]
    refine ((List.perm_insertionSort _ (before ++ created)).filter _).trans ?_
    rw [List.filter_append, List.filter_eq_nil_iff.2 (by simp),
      List.filter_eq_self.2 (by simpa using hfresh), List.nil_append]
  rcases created with _ | ⟨n, _ | ⟨m, rest⟩⟩
  · exact hperm.eq_nil
  · exact List.perm_singleton.1 hperm
  · simp at hone

/-! ## Clearing -/

theorem clearAll_wp {ids : List Int} {E : Exn → LogView → Prop} (hi : v.1.Idle) :
    (Prog.forEach (clearBreakpoint id) ids).wp (workingSpec id) (fun _ v' => v'.1.Idle ∧
      v'.1.engine.breakpoints = v.1.engine.breakpoints.filter (fun b => !ids.contains b.id) ∧
      v'.1.recorded = v.1.recorded ∧ v'.2 = v.2) E v := by
  induction ids generalizing v with
  | nil =>
    refine ⟨hi, ?_, rfl, rfl⟩
    rw [List.filter_eq_self.2 (by simp)]
  | cons n ids ih =>
    rw [Prog.forEach, wp_bind, clearBreakpoint, bind_eq, wp_bind]
    refine command_wp rfl hi fun r created hok _ _ _ => ?_
    have hbps : (v.1.ran (.clear n) r created).engine.breakpoints =
        v.1.engine.breakpoints.filter fun b => b.id ≠ n := by
      cases hs : r.status with
      | ok => simp [ran, Session.update, Call.executed, Call.breakpointsAfter, hs]
      | error => rw [hs] at hok; cases hok
    rw [pure_eq, wp_ret]
    refine wp_mono_val ?_ (ih (v := (v.1.ran (.clear n) r created, v.2)) (hi.ran _ r created))
    rintro _ v' ⟨hi', hlive, hlists, hlog⟩
    refine ⟨hi', ?_, hlists, hlog⟩
    rw [hlive, hbps, List.filter_filter]
    refine List.filter_congr fun b _ => ?_
    rw [Bool.eq_iff_iff]
    simp [and_comm]

/-- Between two commands of a setter for the list `o`, called in the session `x₀`; the ids in `hand`
are not yet tracked. -/
structure Configuring (x₀ : Session) (o : Owner) (hand : List Int) (v : LogView) : Prop where
  idle : v.1.Idle
  account : v.1.Account hand
  live : v.1.engine.breakpoints = (x₀.engine.breakpoints.filter fun b =>
    !(x₀.recorded o).contains b.id) ++ v.2.breakpoints
  others : ∀ o', o' ≠ o → v.1.recorded o' = x₀.recorded o'
  ids : v.1.recorded o ++ hand = v.2.ids

/-- The breakpoints of the list are cleared. -/
theorem Configuring.start {x₀ : Session} {o : Owner} (ht : x₀.Tracked) (hi : v.1.Idle)
    (hlive : v.1.engine.breakpoints =
      x₀.engine.breakpoints.filter fun b => !(x₀.recorded o).contains b.id)
    (hlists : v.1.recorded = Function.update x₀.recorded o []) (hlog : v.2.made = []) :
    Configuring x₀ o [] v := by
  have hown : v.1.ownIds = x₀.ownIds.filter (· ∉ x₀.recorded o) := by
    rw [ownIds, ownIds, hlive, List.filter_map, List.filter_filter, List.filter_filter]
    refine congrArg _ (List.filter_congr fun b _ => ?_)
    rw [Bool.eq_iff_iff]
    simp [and_comm]
  refine ⟨hi, tracked_iff.1 ?_, ?_, fun o' ho' => ?_, ?_⟩
  · rw [Tracked, hown, hlists]
    exact ht.dropAll rfl
  · rw [hlive, CallLog.breakpoints, hlog, List.flatMap_nil, List.append_nil]
  · rw [hlists, Function.update_of_ne ho']
  · rw [hlists, Function.update_self, CallLog.ids, hlog]
    rfl

/-- A command is executed. -/
theorem Configuring.create {x₀ : Session} {o : Owner} {hand : List Int} {command : Command}
    {created : List Int} (h : Configuring x₀ o hand v) (hc : command.creates = true)
    (r : ExecuteResult) (hm : Call.mayCreate created v.1.engine (.execute command) = true)
    (hone : created.length ≤ 1) :
    Configuring x₀ o (hand ++ created) (v.1.ran command r created, noted v.2 command created) := by
  have hlog : (noted v.2 command created).made = v.2.made ++ [(command, created)] := by
    rw [noted, if_pos hc]
  refine ⟨h.idle.ran _ r created, h.account.create hc r hm ?_, ?_, h.others, ?_⟩
  · rw [(made_ran hc r hm).1]
    exact hone
  · rw [breakpoints_ran created hc, h.live, List.append_assoc, CallLog.breakpoints,
      CallLog.breakpoints, hlog, List.flatMap_append, List.flatMap_singleton]
  · change v.1.recorded o ++ (hand ++ created) = _
    rw [← List.append_assoc, h.ids, CallLog.ids, CallLog.ids, hlog, List.flatMap_append,
      List.flatMap_singleton]

/-! ## The source setter -/

theorem split_inj {c : Char} {xs xs' ys ys' : List Char} (hx : c ∉ xs) (hx' : c ∉ xs')
    (h : xs ++ c :: ys = xs' ++ c :: ys') : xs = xs' ∧ ys = ys' := by
  rcases List.append_eq_append_iff.1 h with ⟨as, rfl, has⟩ | ⟨as, rfl, has⟩
  · cases as with
    | nil => exact ⟨(List.append_nil _).symm, (List.cons.inj has).2⟩
    | cons a as =>
      rw [List.cons_append, List.cons.injEq] at has
      exact absurd (List.mem_append_right _ (has.1 ▸ .head _)) hx'
  · cases as with
    | nil => exact ⟨List.append_nil _, (List.cons.inj has).2.symm⟩
    | cons a as =>
      rw [List.cons_append, List.cons.injEq] at has
      exact absurd (List.mem_append_right _ (has.1 ▸ .head _)) hx

/-- The key tells the lines above zero, and the conditions up to the text that stands for none. -/
theorem specKey_inj {a b : SourceBreakpointSpec} (ha : 0 < a.line) (hb : 0 < b.line)
    (h : specKey a = specKey b) :
    a.line = b.line ∧ a.condition.getD "\x1e" = b.condition.getD "\x1e" := by
  obtain ⟨m, hm⟩ := Int.eq_ofNat_of_zero_le ha.le
  obtain ⟨n, hn⟩ := Int.eq_ofNat_of_zero_le hb.le
  have hkey (s : SourceBreakpointSpec) (k : Nat) (hk : s.line = k) : (specKey s).toList =
      Nat.toDigits 10 k ++ '\x1f' :: (s.condition.getD "\x1e").toList := by
    rw [specKey, hk, String.toList_append, String.toList_append, List.append_assoc]
    exact congrArg (· ++ _) Nat.toList_repr
  have hdigits (k : Nat) : '\x1f' ∉ Nat.toDigits 10 k := fun hmem =>
    absurd (Nat.isDigit_of_mem_toDigits (by decide) (by decide) hmem) (by decide)
  have hlist := congrArg String.toList h
  rw [hkey a m hm, hkey b n hn] at hlist
  obtain ⟨hd, hcond⟩ := split_inj (hdigits m) (hdigits n) hlist
  refine ⟨?_, String.toList_inj.1 hcond⟩
  have hmn := congrArg (Nat.ofDigitChars 10 · 0) hd
  simp only [Nat.ofDigitChars_ten_toDigits] at hmn
  rw [hm, hn, hmn]

theorem distinctSpecs_sub {seen : List String} {breakpoints : List SourceBreakpointSpec} :
    ∀ bp ∈ distinctSpecs seen breakpoints, bp ∈ breakpoints ∧ 0 < bp.line := by
  induction breakpoints generalizing seen with
  | nil => exact fun _ h => absurd h List.not_mem_nil
  | cons b rest ih =>
    intro bp hbp
    rw [distinctSpecs] at hbp
    split at hbp
    · exact (ih bp hbp).imp_left (.tail _)
    split at hbp
    · exact (ih bp hbp).imp_left (.tail _)
    · rcases List.mem_cons.1 hbp with rfl | hbp
      · exact ⟨.head _, by omega⟩
      · exact (ih bp hbp).imp_left (.tail _)

/-- No two of the distinct specs have one key. -/
theorem distinctSpecs_nodup (seen : List String) (breakpoints : List SourceBreakpointSpec) :
    ((distinctSpecs seen breakpoints).map specKey).Nodup ∧
      ∀ bp ∈ distinctSpecs seen breakpoints, specKey bp ∉ seen := by
  induction breakpoints generalizing seen with
  | nil => exact ⟨List.nodup_nil, fun _ h => absurd h List.not_mem_nil⟩
  | cons b rest ih =>
    rw [distinctSpecs]
    split
    · exact ih seen
    split
    · exact ih seen
    · rename_i hb
      obtain ⟨hnodup, hseen⟩ := ih (specKey b :: seen)
      constructor
      · rw [List.map_cons, List.nodup_cons]
        refine ⟨fun hmem => ?_, hnodup⟩
        obtain ⟨bp, hbp, hkey⟩ := List.mem_map.1 hmem
        exact hseen bp hbp (by rw [hkey]; exact .head _)
      · rintro bp hbp hmem
        rcases List.mem_cons.1 hbp with rfl | hbp
        · exact hb (List.contains_iff_mem.2 hmem)
        · exact hseen bp hbp (.tail _ hmem)

/-- Every requested spec has its key among the distinct ones. -/
theorem distinctSpecs_covers (seen : List String) {breakpoints : List SourceBreakpointSpec}
    {bp : SourceBreakpointSpec} (hbp : bp ∈ breakpoints) (hline : 0 < bp.line) :
    specKey bp ∈ seen ∨ ∃ b ∈ distinctSpecs seen breakpoints, specKey b = specKey bp := by
  induction breakpoints generalizing seen with
  | nil => cases hbp
  | cons b rest ih =>
    rw [distinctSpecs]
    rcases List.mem_cons.1 hbp with rfl | hrest
    · rw [if_neg (by omega)]
      split
      · rename_i hseen
        exact .inl (List.contains_iff_mem.1 hseen)
      · exact .inr ⟨bp, .head _, rfl⟩
    · split
      · exact ih seen hrest
      split
      · exact ih seen hrest
      · rcases ih (specKey b :: seen) hrest with hseen | ⟨b', hb', hkey⟩
        · rcases List.mem_cons.1 hseen with hkey | hseen
          · exact .inr ⟨b, .head _, hkey.symm⟩
          · exact .inl hseen
        · exact .inr ⟨b', .tail _ hb', hkey⟩

theorem reports_sourceResult {created : List Int} (h : created.length ≤ 1) (path : String)
    (line : Int) : Setter.Reports created (sourceResult path line created) ∧
      (sourceResult path line created).id.toList = created := by
  match created, h with
  | [], _ => exact ⟨⟨rfl, rfl⟩, rfl⟩
  | [n], _ => exact ⟨⟨rfl, rfl⟩, rfl⟩

/-- In the loop of the source setter: `done` are the specs so far, with what their commands made. -/
structure ConfiguringSource (x₀ : Session) (path : String)
    (done : List (SourceBreakpointSpec × List Int)) (configured : ConfiguredBreakpoints)
    (v : LogView) : Prop where
  configuring : Configuring x₀ (.source (Text.toUpperInvariant path)) configured.ids v
  erased : v.1.recorded (.source (Text.toUpperInvariant path)) = []
  resolved : v.2.path = some path
  made : v.2.made = done.map fun d => (.sourceBreakpoint path d.1, d.2)
  results : ∀ d ∈ done, ∃ r, configured.results.get? (specKey d.1) = some r ∧
    Setter.Reports d.2 r

theorem configureOne_wp {x₀ : Session} {path : String} {bp : SourceBreakpointSpec}
    {done : List (SourceBreakpointSpec × List Int)} {configured : ConfiguredBreakpoints}
    {E : Exn → LogView → Prop} (h : ConfiguringSource x₀ path done configured v)
    (hnew : ∀ d ∈ done, specKey d.1 ≠ specKey bp) :
    (configureSourceBreakpoint id path configured bp).wp (workingSpec id)
      (fun configured' v' => ∃ created,
        ConfiguringSource x₀ path (done ++ [(bp, created)]) configured' v') E v := by
  rw [configureSourceBreakpoint]
  simp only [bind_eq, wp_bind]
  refine enumerate_wp h.configuring.idle ?_
  refine command_wp rfl h.configuring.idle fun r created hok hm hone _ => ?_
  have hone := hone rfl
  have hnext := h.configuring.create rfl r hm hone
  refine enumerate_wp hnext.idle ?_
  dsimp only
  rw [pure_eq, wp_ret, breakpointIds_ran rfl, newIds_of_created (fresh_of_mayCreate rfl hm) hone]
  obtain ⟨hreports, hid⟩ := reports_sourceResult hone path bp.line
  rw [hid]
  refine ⟨created, hnext, h.erased, ?_, ?_, ?_⟩
  · exact h.resolved
  · rw [List.map_append]
    exact congrArg (· ++ _) h.made
  · intro d hd
    rw [AssocMap.get?_set]
    rcases List.mem_append.1 hd with hd | hd
    · rw [if_neg (hnew d hd)]
      exact h.results d hd
    · obtain rfl := List.mem_singleton.1 hd
      exact ⟨_, if_pos rfl, hreports⟩

theorem configureEach_wp {x₀ : Session} {path : String} (specs : List SourceBreakpointSpec)
    {done : List (SourceBreakpointSpec × List Int)} {configured : ConfiguredBreakpoints}
    {E : Exn → LogView → Prop} (h : ConfiguringSource x₀ path done configured v)
    (hnodup : (done.map (fun d => specKey d.1) ++ specs.map specKey).Nodup) :
    (configureSourceBreakpoints id path configured specs).wp (workingSpec id)
      (fun configured' v' => ∃ done', done'.map Prod.fst = done.map Prod.fst ++ specs ∧
        ConfiguringSource x₀ path done' configured' v') E v := by
  induction specs generalizing done configured v with
  | nil => exact ⟨done, (List.append_nil _).symm, h⟩
  | cons bp specs ih =>
    rw [configureSourceBreakpoints, bind_eq, wp_bind]
    have hnew : ∀ d ∈ done, specKey d.1 ≠ specKey bp := fun d hd =>
      (List.nodup_append.1 hnodup).2.2 _ (List.mem_map.2 ⟨d, hd, rfl⟩) _ (.head _)
    refine wp_mono_val ?_ (configureOne_wp h hnew)
    rintro configured' v' ⟨created, h'⟩
    refine wp_mono_val ?_ (ih h' (by simpa using hnodup))
    rintro configured'' v'' ⟨done', hdone, h''⟩
    exact ⟨done', by simpa using hdone, h''⟩

theorem recorded_eraseSource (x : Session) (key : String) :
    (x.update (.eraseSource key)).recorded = Function.update x.recorded (.source key) [] := by
  funext o
  match o with
  | .command kind => rfl
  | .source key' =>
    change ((x.sourceBreakpointIdsByPath.erase key).get? key').getD [] = _
    rw [AssocMap.get?_erase]
    by_cases hk : key' = key
    · rw [hk, Function.update_self, if_pos rfl]
      rfl
    · rw [Function.update_of_ne (by simpa using hk), if_neg hk]
      rfl

theorem recorded_trackSource (x : Session) (key : String) (ids : List Int) :
    (x.update (.trackSource key ids)).recorded = Function.update x.recorded (.source key) ids := by
  funext o
  match o with
  | .command kind => rfl
  | .source key' =>
    change ((x.sourceBreakpointIdsByPath.set key ids).get? key').getD [] = _
    rw [AssocMap.get?_set]
    by_cases hk : key' = key
    · rw [hk, Function.update_self, if_pos rfl]
      rfl
    · rw [Function.update_of_ne (by simpa using hk), if_neg hk]
      rfl

theorem recorded_track (x : Session) (kind : BreakpointKind) (ids : List Int) :
    (x.update (.track kind ids)).recorded = Function.update x.recorded (.command kind) ids := by
  funext o
  match o with
  | .source key => rfl
  | .command kind' =>
    change Function.update x.commandBreakpointIds kind ids kind' = _
    by_cases hk : kind' = kind
    · rw [hk, Function.update_self, Function.update_self]
    · rw [Function.update_of_ne hk, Function.update_of_ne (by simpa using hk)]
      rfl

theorem clearSource_wp {x₀ : Session} {path : String} {E : Exn → LogView → Prop}
    (ht : x₀.Tracked) (hi : v.1.Idle) (hlive : v.1.engine.breakpoints = x₀.engine.breakpoints)
    (hlists : v.1.recorded = x₀.recorded) (hlog : v.2 = { path := some path }) :
    (clearSourceBreakpoints id path).wp (workingSpec id)
      (fun _ v' => ConfiguringSource x₀ path [] {} v') E v := by
  have hstart {v' : LogView} (hi' : v'.1.Idle) (hlive' : v'.1.engine.breakpoints =
      v.1.engine.breakpoints.filter fun b =>
        !(v.1.recorded (.source (Text.toUpperInvariant path))).contains b.id)
      (hlists' : v'.1.recorded =
        Function.update v.1.recorded (.source (Text.toUpperInvariant path)) [])
      (hlog' : v'.2 = v.2) : ConfiguringSource x₀ path [] {} v' := by
    rw [hlive, hlists] at hlive'
    rw [hlists] at hlists'
    rw [hlog] at hlog'
    have hstart := Configuring.start ht hi' hlive' hlists' (by rw [hlog'])
    refine ⟨hstart, ?_, by rw [hlog'], by rw [hlog']; rfl, fun _ hd => absurd hd List.not_mem_nil⟩
    rw [hlists', Function.update_self]
  rw [clearSourceBreakpoints, bind_eq]
  refine (workingSpec_follows id).readSession ?_
  have hrecorded {found : Option (List Int)}
      (h : v.1.sourceBreakpointIdsByPath.get? (Text.toUpperInvariant path) = found) :
      v.1.recorded (.source (Text.toUpperInvariant path)) = found.getD [] := by rw [recorded, h]
  split
  · rename_i hnone
    have hnil : v.1.recorded (.source (Text.toUpperInvariant path)) = [] := hrecorded hnone
    refine hstart hi ?_ ?_ rfl
    · rw [hnil]
      exact (List.filter_eq_self.2 (by simp)).symm
    · rw [← hnil, Function.update_eq_self]
  · rename_i ids hsome
    have hids := hrecorded hsome
    refine ⟨rfl, wp_mono_val ?_ (clearAll_wp
      (v := (v.1.update (.eraseSource (Text.toUpperInvariant path)), v.2)) hi)⟩
    rintro _ v' ⟨hi', hlive', hlists', hlog'⟩
    refine hstart hi' ?_ ?_ hlog'
    · rw [hids]
      exact hlive'
    · rw [hlists', recorded_eraseSource]

/-- The account of the results a source setter gives. -/
theorem ConfiguringSource.reported {x₀ : Session} {filePath path : String}
    {done : List (SourceBreakpointSpec × List Int)} {configured : ConfiguredBreakpoints}
    {breakpoints : List SourceBreakpointSpec} (h : ConfiguringSource x₀ path done configured v)
    (hdone : done.map Prod.fst = distinctSpecs [] breakpoints)
    (hapart : (Setter.source filePath breakpoints).toldApart) :
    (Setter.source filePath breakpoints).Reported v.2
      (breakpoints.map (projectResult configured.results)) := by
  have hcommands : v.2.made.map Prod.fst =
      (distinctSpecs [] breakpoints).map (.sourceBreakpoint path) := by
    rw [h.made, ← hdone, List.map_map, List.map_map]
    rfl
  obtain ⟨hkeys, -⟩ := distinctSpecs_nodup [] breakpoints
  constructor
  · rw [hcommands]
    exact hkeys.of_map.map fun _ _ heq => by injection heq
  rw [h.resolved, List.forall₂_map_right_iff, List.forall₂_same]
  intro bp hbp
  rw [projectResult]
  split
  · exact ⟨rfl, rfl⟩
  rename_i hline
  obtain hseen | ⟨b, hb, hkey⟩ := distinctSpecs_covers [] hbp (by omega)
  · cases hseen
  obtain ⟨hmem, hb0⟩ := distinctSpecs_sub b hb
  -- the spec that was configured under the key is the one requested
  obtain ⟨hlines, hconds⟩ := specKey_inj hb0 (by omega) hkey
  have heq : b = bp := by
    obtain ⟨l, cond⟩ := b
    obtain ⟨l', cond'⟩ := bp
    dsimp only at hlines hconds hb0 hline
    subst hlines
    cases cond with
    | none =>
      cases cond' with
      | none => rfl
      | some c' =>
        have hne := hapart _ hmem _ hbp hb0 rfl rfl
        exact absurd (congrArg some hconds.symm) hne
    | some c =>
      cases cond' with
      | none =>
        have hne := hapart _ hbp _ hmem hb0 rfl rfl
        exact absurd (congrArg some hconds) hne
      | some c' => exact congrArg _ (congrArg some hconds)
  subst heq
  rw [← hdone] at hb
  obtain ⟨⟨b, created⟩, hd, rfl⟩ := List.mem_map.1 hb
  obtain ⟨r, hr, hreports⟩ := h.results _ hd
  refine ⟨created, ?_, ?_⟩
  · rw [h.made]
    exact List.mem_map.2 ⟨_, hd, rfl⟩
  · rw [hr]
    exact hreports

/-- What holds at the end of a call that returns `rs`. -/
structure Configured (x₀ : Session) (c : Setter) (rs : List SourceBreakpointResult) (v : LogView) :
    Prop where
  configuring : Configuring x₀ (c.owner v.2) [] v
  reported : c.toldApart → c.Reported v.2 rs

/-- The source setter replaces its breakpoints, or throws at once. -/
theorem setSource_wp {x : Session} (filePath : String) (breakpoints : List SourceBreakpointSpec)
    (ht : x.Tracked) (hi : x.Idle) :
    (setSourceBreakpoints id filePath breakpoints).wp (workingSpec id)
      (fun rs v' => Configured x (.source filePath breakpoints) rs v') (fun _ v' => v'.1 = x)
      (x, {}) := by
  rw [setSourceBreakpoints]
  simp only [bind_eq, wp_bind]
  refine (workingSpec_follows id).throwIfDisposed (fun _ _ => rfl) fun _ => ?_
  rw [throwIfNullOrWhitespace]
  split
  · rfl
  intro path
  refine command_wp rfl hi fun r created _ hm _ _ => ?_
  obtain rfl : created = [] := List.isEmpty_iff.1 hm
  have hlive : (x.ran .lines r []).engine.breakpoints = x.engine.breakpoints := by
    cases hr : r.status <;>
      simp [ran, Session.update, Call.executed, Call.breakpointsAfter, hr, Command.creates]
  refine wp_mono_val (fun _ v' h => ?_)
    (clearSource_wp (v := (x.ran .lines r [], noted { path := some path } .lines [])) ht
      (hi.ran _ r []) hlive rfl rfl)
  have howner (v' : LogView) (hp : v'.2.path = some path) :
      (Setter.source filePath breakpoints).owner v'.2 = .source (Text.toUpperInvariant path) := by
    rw [Setter.owner, hp]
    rfl
  split
  · rename_i hnil
    rw [List.isEmpty_iff.1 hnil] at howner ⊢
    refine ⟨?_, fun hapart => @ConfiguringSource.reported _ _ _ _ _ _ [] h rfl hapart⟩
    rw [howner v' h.resolved]
    exact h.configuring
  · rw [wp_bind]
    refine wp_mono_val ?_ (configureEach_wp (distinctSpecs [] breakpoints) h
      (distinctSpecs_nodup [] breakpoints).1)
    rintro configured v'' ⟨done, hdone, h'⟩
    refine ⟨rfl, ⟨?_, fun hapart => h'.reported hdone hapart⟩⟩
    rw [howner (v''.1.update _, v''.2) h'.resolved]
    have hids := h'.configuring.ids
    rw [h'.erased, List.nil_append] at hids
    refine ⟨h'.configuring.idle, h'.configuring.account.trackSource h'.erased,
      h'.configuring.live, fun o ho => ?_, ?_⟩
    · rw [recorded_trackSource, Function.update_of_ne ho]
      exact h'.configuring.others o ho
    · rw [recorded_trackSource, Function.update_self, List.append_nil]
      exact hids

/-! ## The other setters -/

/-- A command is executed and what it made is tracked. -/
theorem setCommand_wp {x₀ : Session} {kind : BreakpointKind} {command : Command} {label : String}
    {E : Exn → LogView → Prop} (hs : command.plain = true) (hc : command.creates = true)
    (h : Configuring x₀ (.command kind) [] v) :
    (setCommandBreakpoint id kind command label).wp (workingSpec id) (fun r v' =>
      Configuring x₀ (.command kind) [] v' ∧ ∃ created,
        v'.2.made = v.2.made ++ [(command, created)] ∧ Setter.Reports created r) E v := by
  rw [setCommandBreakpoint]
  simp only [bind_eq, wp_bind, wp_catching]
  refine enumerate_wp h.idle ?_
  refine command_wp hs h.idle fun r created hok hm hone _ => ?_
  have hone := hone hc
  have hnext := h.create hc r hm hone
  have hlog : (noted v.2 command created).made = v.2.made ++ [(command, created)] := by
    rw [noted, if_pos hc]
  refine enumerate_wp hnext.idle ?_
  dsimp only
  rw [breakpointIds_ran hc, newIds_of_created (fresh_of_mayCreate hc hm) hone]
  rcases created with _ | ⟨n, _ | ⟨m, rest⟩⟩
  · exact ⟨hnext, [], hlog, rfl, rfl⟩
  · refine ⟨rfl, rfl, ⟨hnext.idle, hnext.account.track, hnext.live, fun o ho => ?_, ?_⟩,
      [n], hlog, rfl, rfl⟩
    · rw [recorded_track, Function.update_of_ne ho]
      exact hnext.others o ho
    · rw [recorded_track, Function.update_self, List.append_nil]
      exact hnext.ids
  · simp at hone

theorem setEachCommand_wp {x₀ : Session} {kind : BreakpointKind}
    (commands : List (Command × String)) {E : Exn → LogView → Prop}
    (hc : ∀ c ∈ commands, c.1.plain = true ∧ c.1.creates = true)
    (h : Configuring x₀ (.command kind) [] v) :
    (Prog.mapEach (fun c => setCommandBreakpoint id kind c.1 c.2) commands).wp (workingSpec id)
      (fun rs v' => Configuring x₀ (.command kind) [] v' ∧ ∃ new, v'.2.made = v.2.made ++ new ∧
        new.map Prod.fst = commands.map Prod.fst ∧
        List.Forall₂ (fun m r => Setter.Reports m.2 r) new rs) E v := by
  induction commands generalizing v with
  | nil => exact ⟨h, [], (List.append_nil _).symm, rfl, .nil⟩
  | cons c commands ih =>
    rw [Prog.mapEach, wp_bind]
    refine wp_mono_val ?_ (setCommand_wp (hc c (.head _)).1 (hc c (.head _)).2 h)
    rintro r v' ⟨h', created, hmade, hreports⟩
    rw [wp_bind]
    refine wp_mono_val ?_ (ih (fun c' hc' => hc c' (.tail _ hc')) h')
    rintro rs v'' ⟨h'', new, hmade', hnew, hrs⟩
    refine ⟨h'', (c.1, created) :: new, ?_, ?_, .cons hreports hrs⟩
    · rw [hmade', hmade, List.append_assoc]
      rfl
    · rw [List.map_cons, List.map_cons, hnew]

/-- The setters of the other kinds replace their breakpoints. -/
theorem setCommands_wp {x : Session} (kind : BreakpointKind) (commands : List (Command × String))
    {E : Exn → LogView → Prop} (hc : ∀ c ∈ commands, c.1.plain = true ∧ c.1.creates = true)
    (ht : x.Tracked) (hi : x.Idle) :
    (setCommandBreakpoints id kind commands).wp (workingSpec id) (fun rs v' =>
      Configuring x (.command kind) [] v' ∧ Setter.ReportsEach (commands.map Prod.fst) v'.2 rs) E
      (x, {}) := by
  rw [setCommandBreakpoints]
  simp only [bind_eq, wp_bind]
  refine (workingSpec_follows id).throwIfDisposed (fun hd => ?_) fun _ => ?_
  · rw [hi.1] at hd
    cases hd
  refine ⟨rfl, ?_⟩
  simp only [wp_ret]
  refine wp_mono_val ?_ (clearAll_wp (v := (x, {})) hi)
  rintro _ v' ⟨hi', hlive, hlists, hlog⟩
  refine ⟨rfl, ?_⟩
  simp only [wp_ret]
  refine wp_mono_val ?_ (setEachCommand_wp commands hc
    (Configuring.start (v := (v'.1.update (.track kind []), v'.2)) ht hi' hlive ?_ ?_))
  · rintro rs v'' ⟨h, new, hmade, hnew, hrs⟩
    have hnil : v'.2.made = [] := congrArg CallLog.made hlog
    rw [hnil, List.nil_append] at hmade
    refine ⟨h, ?_, ?_⟩
    · rw [hmade, hnew]
    · rw [hmade]
      exact hrs
  · rw [recorded_track, hlists]
  · exact congrArg CallLog.made hlog

theorem Setter.body_working {x : Session} (c : Setter) (ht : x.Tracked) (hi : x.Idle) :
    (c.body id).wp (workingSpec id) (fun rs v' => Configured x c rs v') (fun _ v' => v'.1 = x)
      (x, {}) := by
  have hcommands {kind : BreakpointKind} (commands : List (Command × String)) :
      (∀ c ∈ commands, c.1.plain = true ∧ c.1.creates = true) →
        (∀ g, c.owner g = .command kind) →
        (∀ g rs, Setter.ReportsEach (commands.map Prod.fst) g rs → c.Reported g rs) →
          (setCommandBreakpoints id kind commands).wp (workingSpec id)
            (fun rs v' => Configured x c rs v') (fun _ v' => v'.1 = x) (x, {}) := by
    intro hc ho hr
    refine wp_mono_val ?_ (setCommands_wp kind commands hc ht hi)
    rintro rs v' ⟨h, hrs⟩
    exact ⟨by rw [ho]; exact h, fun _ => hr _ _ hrs⟩
  cases c with
  | source filePath breakpoints => exact setSource_wp filePath breakpoints ht hi
  | function names =>
    refine hcommands _ (by simp [Command.plain, Command.creates]) (fun _ => rfl) fun g rs h => ?_
    rw [List.map_map] at h
    exact h
  | instruction addresses =>
    refine hcommands _ (by simp [Command.plain, Command.creates]) (fun _ => rfl) fun g rs h => ?_
    rw [List.map_map] at h
    exact h
  | data specs =>
    refine hcommands _ (by simp [Command.plain, Command.creates]) (fun _ => rfl) fun g rs h => ?_
    rw [List.map_map] at h
    exact h

end Session

/-! ## Every sequence of calls -/

/-- The breakpoints of the other lists are not among those cleared. -/
theorem Session.Configured.replaces {x : Session} {c : Setter} {rs : List SourceBreakpointResult}
    {v : LogView} (h : Session.Configured x c rs v) (ht : x.Tracked) (hapart : c.toldApart) :
    CallRecord.Replaces ⟨x, c, .ok rs, v.2, v.1⟩ rs := by
  have hids := h.configuring.ids
  rw [List.append_nil] at hids
  refine ⟨h.configuring.live, hids, h.reported hapart, fun o ho => ⟨h.configuring.others o ho, ?_⟩⟩
  intro b hb hmem
  change b ∈ v.1.engine.breakpoints
  rw [h.configuring.live]
  refine List.mem_append_left _ (List.mem_filter.2 ⟨hb, ?_⟩)
  have hnot : b.id ∉ x.recorded (c.owner v.2) := fun hmem' => ho (ht.one hmem hmem')
  simpa using hnot

/-- What a call leaves behind, and whether it replaces its breakpoints. -/
theorem call_replaced {id : SessionId} {c : Setter} {s s' : Server} {g : CallLog}
    {r : Except Exn (List SourceBreakpointResult)} (ht : (s.sessions id).Tracked)
    (hi : (s.sessions id).Idle) (h : Ends (workingSteps id) (c.body id) (s, {}) r (s', g)) :
    (s'.sessions id).Tracked ∧ (s'.sessions id).Idle ∧
      (c.toldApart → (CallRecord.mk (s.sessions id) c r g (s'.sessions id)).Replaced) := by
  have hout := wp_working h (Session.Setter.body_working c ht hi)
  cases r with
  | ok rs =>
    refine ⟨Session.tracked_iff.2 hout.configuring.account, hout.configuring.idle, fun hapart => ?_⟩
    exact hout.replaces ht hapart
  | error e =>
    have hsame : s'.sessions id = s.sessions id := hout
    rw [hsame]
    exact ⟨ht, hi, fun _ => rfl⟩

/-- **Every call replaces the breakpoints of its list** and nothing else, where the specs of each
call are told apart. -/
theorem Calls.replaced {id : SessionId} {s s' : Server} {records : List CallRecord}
    (ht : (s.sessions id).Tracked) (hi : (s.sessions id).Idle) (h : Calls id s records s')
    (hapart : ∀ c ∈ records, c.setter.toldApart) : ∀ c ∈ records, c.Replaced := by
  have hall : (s'.sessions id).Tracked ∧ (s'.sessions id).Idle ∧ ∀ c ∈ records, c.Replaced := by
    induction h with
    | nil => exact ⟨ht, hi, fun _ hc => absurd hc List.not_mem_nil⟩
    | call prev c hend ih =>
      obtain ⟨ht', hi', hprev⟩ := ih fun c hc => hapart c (List.mem_append_left _ hc)
      obtain ⟨ht'', hi'', hlast⟩ := call_replaced ht' hi' hend
      refine ⟨ht'', hi'', fun c' hc' => ?_⟩
      rcases List.mem_append.1 hc' with hc' | hc'
      · exact hprev c' hc'
      · obtain rfl := List.mem_singleton.1 hc'
        exact hlast (hapart _ (List.mem_append_right _ (.head _)))
  exact hall.2.2

/-! ## Executable calls -/

/-- Perform an operation of a call on an engine that works. -/
def workingApply (id : SessionId) {β : Type} (o : DapOp β) (p : Server × CallLog) :
    Option (β × (Server × CallLog)) :=
  (apply .request (failingAnswers (fun _ => false) o) o p.1).bind fun r =>
    if o.wellBehaved r.1 (p.1.sessions id) (r.2.sessions id) then
      some (r.1, r.2, o.logged r.1 (p.1.sessions id) (r.2.sessions id) p.2)
    else none

theorem workingSteps_of_apply {id : SessionId} {β : Type} (o : DapOp β) (p : Server × CallLog)
    (b : β) (p' : Server × CallLog) (h : workingApply id o p = some (b, p')) :
    workingSteps id β o p b p' := by
  obtain ⟨r, hr, h⟩ := Option.bind_eq_some_iff.1 h
  split at h
  · rename_i hok
    cases h
    exact ⟨⟨_, hr⟩, rfl, hok⟩
  · cases h

def runCall (id : SessionId) (c : Setter) (s : Server) :
    Option (Except Exn (List SourceBreakpointResult) × (Server × CallLog)) :=
  (c.body id).eval (workingApply id) 200 (s, {})

theorem Calls.of_run {id : SessionId} {c : Setter} {s : Server}
    {r : Except Exn (List SourceBreakpointResult) × (Server × CallLog)}
    (h : runCall id c s = some r) :
    Calls id s [⟨s.sessions id, c, r.1, r.2.2, r.2.1.sessions id⟩] r.2.1 :=
  .call (.nil s) c (Ends.of_eval workingSteps_of_apply h)

/-- One of two breakpoints of a file stays, and another one joins it. -/
theorem twoBreakpoints_replaced : ∃ (s' : Server) (c c' : CallRecord), Calls 0 {} [c, c'] s' ∧
    c.log.ids = [0, 1] ∧ c'.setter = .source "a.cpp" [{ line := 2 }, { line := 7 }] ∧
      c'.log.ids.length = 2 ∧ c.Replaced ∧ c'.Replaced := by
  have hrun : (runCall 0 twoBreakpoints {}).any (fun r => r.2.2.ids = [0, 1] &&
      (runCall 0 (.source "a.cpp" [{ line := 2 }, { line := 7 }]) r.2.1).any fun r' =>
        r'.2.2.ids.length = 2) = true := by decide +kernel
  obtain ⟨r, hr, ht⟩ := (Option.any_eq_true _ _).1 hrun
  obtain ⟨hids, ht⟩ := Bool.and_eq_true_iff.1 ht
  obtain ⟨r', hr', hids'⟩ := (Option.any_eq_true _ _).1 ht
  have h := Calls.call (Calls.of_run hr) _ (Ends.of_eval workingSteps_of_apply hr')
  have hapart : ∀ c ∈ [twoBreakpoints, .source "a.cpp" [{ line := 2 }, { line := 7 }]],
      c.toldApart := by
    rintro c hc
    rcases List.mem_cons.1 hc with rfl | hc
    · intro bp _ bp' hbp' _ _ _
      simp only [List.mem_cons, List.not_mem_nil, or_false] at hbp'
      rcases hbp' with rfl | rfl <;> decide
    · obtain rfl := List.mem_singleton.1 hc
      intro bp _ bp' hbp' _ _ _
      simp only [List.mem_cons, List.not_mem_nil, or_false] at hbp'
      rcases hbp' with rfl | rfl <;> decide
  have replaced := Calls.replaced tracked_fresh ⟨rfl, rfl⟩ h fun c hc => by
    rcases List.mem_cons.1 hc with rfl | hc
    · exact hapart _ List.mem_cons_self
    · obtain rfl := List.mem_singleton.1 hc
      exact hapart _ (.tail _ (.head _))
  exact ⟨_, _, _, h, by simpa using hids, rfl, by simpa using hids', replaced _ (.head _),
    replaced _ (.tail _ (.head _))⟩

/-- One line with no condition and with the text that stands for none. -/
def separatorCondition : Setter := .source "a.cpp" [{ line := 5 }, { line := 5, condition := "\x1e" }]

/-- The second breakpoint is verified though no command was executed for it. -/
theorem separator_not_replaced : ¬∀ (s s' : Server) (records : List CallRecord),
    (s.sessions 0).Tracked → (s.sessions 0).Idle → Calls 0 s records s' →
      ∀ c ∈ records, c.Replaced := by
  intro hall
  have hrun : (runCall 0 separatorCondition {}).any (fun r => match r.1 with
      | .ok rs => rs.map (·.verified) = [true, true] ∧ r.2.2.made.map Prod.fst =
          [.sourceBreakpoint (r.2.2.path.getD "") { line := 5 }]
      | .error _ => false) = true := by decide +kernel
  obtain ⟨r, hr, htest⟩ := (Option.any_eq_true _ _).1 hrun
  have h := hall {} _ _ tracked_fresh ⟨rfl, rfl⟩ (Calls.of_run hr) _ (.head _)
  obtain ⟨outcome, s', g⟩ := r
  cases outcome with
  | error => cases htest
  | ok rs =>
    obtain ⟨hverified, hmade⟩ := of_decide_eq_true htest
    obtain ⟨-, hrs⟩ := CallRecord.Replaces.reported h
    obtain ⟨created, hmem⟩ : ∃ created, (Command.sourceBreakpoint (g.path.getD "")
        { line := 5, condition := some "\x1e" }, created) ∈ g.made := by
      cases hrs with
      | cons _ hrest => cases hrest with
        | cons hsecond _ =>
          rw [if_neg (by decide)] at hsecond
          obtain ⟨created, hmem, -⟩ := hsecond
          exact ⟨created, hmem⟩
    have hcommand := List.mem_map_of_mem (f := Prod.fst) hmem
    rw [hmade] at hcommand
    simp at hcommand

end DapDbgeng
