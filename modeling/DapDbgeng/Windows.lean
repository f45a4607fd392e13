/-
  What part of a list a request with a start and a count gets.

  * `page start count xs`: what is left of `xs` after `start` elements, or `count` of them;
  * `fetched_window`: the window of the frames that were fetched is the page of all frames;
  * `flatMap_page`: consecutive pages are the whole list;
  * `windows`: the stackTrace, variables and modules requests answer with pages.
-/
import DapDbgeng.Containers

namespace DapDbgeng

open Concurrent Concurrent.Prog

/-! ## Pages -/

/-- After `start` elements, `count` elements, or all where no count is given. -/
def page {α : Type} (start count : Option Nat) (xs : List α) : List α :=
  match count with
  | some n => (xs.drop (start.getD 0)).take n
  | none => xs.drop (start.getD 0)

/-- A value that is present: positive and an `int`. -/
def present : Option Int → Option Nat
  | some v => if 0 < v ∧ v ≤ Factory.int32Max then some v.toNat else none
  | none => none

/-- A value that is present: positive. -/
def positive : Option Int → Option Nat
  | some v => if 0 < v then some v.toNat else none
  | none => none

namespace Server

variable {α : Type}

theorem clampArgument_toNat (value : Option Int) :
    (clampArgument value).toNat = (present value).getD 0 := by
  cases value with
  | none => rfl
  | some v =>
    simp only [clampArgument, present, gt_iff_lt]
    split <;> rfl

theorem clampArgument_nonneg (value : Option Int) :
    0 ≤ clampArgument value ∧ clampArgument value ≤ Factory.int32Max := by
  cases value with
  | none => exact ⟨le_rfl, by decide⟩
  | some v =>
    rw [clampArgument]
    split
    · omega
    · exact ⟨le_rfl, by decide⟩

/-- A count of 0 stands for no count. -/
theorem window_eq_page {start count : Int} {s c : Option Nat} (hs : start.toNat = s.getD 0)
    (hc : count.toNat = c.getD 0) (hpos : ∀ n ∈ c, 0 < n) (xs : List α) :
    window start count xs = page s c xs := by
  rw [window, hs, hc]
  cases c with
  | none =>
    rw [Option.getD_none] at hc
    exact if_neg (by omega)
  | some n =>
    have hn : 0 < n := hpos n rfl
    rw [Option.getD_some] at hc
    exact if_pos (by omega)

theorem present_pos {value : Option Int} : ∀ n ∈ present value, 0 < n := by
  intro n hn
  cases value with
  | none => cases hn
  | some v =>
    simp only [present] at hn
    split at hn
    · cases hn
      omega
    · cases hn

theorem present_natCast {n : Nat} (h : (n : Int) ≤ Factory.int32Max) :
    (present (some (n : Int))).getD 0 = n := by
  rw [present]
  split
  · rfl
  · rw [Option.getD_none]
    omega

theorem positive_pos {value : Option Int} : ∀ n ∈ positive value, 0 < n := by
  intro n hn
  cases value with
  | none => cases hn
  | some v =>
    simp only [positive] at hn
    split at hn
    · cases hn
      omega
    · cases hn

theorem positive_getD (value : Option Int) : (value.getD 0).toNat = (positive value).getD 0 := by
  cases value with
  | none => rfl
  | some v =>
    rw [Option.getD_some, positive]
    split
    · rfl
    · rw [Option.getD_none]
      omega

theorem window_clampArgument (start count : Option Int) (xs : List α) :
    window (clampArgument start) (clampArgument count) xs =
      page (present start) (present count) xs :=
  window_eq_page (clampArgument_toNat start) (clampArgument_toNat count) present_pos xs

/-- A prefix that ends behind the window shows the same window. -/
theorem window_take (start count : Int) {n : Nat} {xs : List α} (hstart : 0 ≤ start)
    (h : xs.length ≤ n ∨ 0 < count ∧ start + count ≤ n) :
    window start count (xs.take n) = window start count xs := by
  rcases h with h | ⟨hcount, h⟩
  · rw [List.take_of_length_le h]
  · simp only [window, gt_iff_lt, hcount, if_true]
    rw [List.drop_take, List.take_take, min_eq_left (by omega)]

theorem getStackTraceFetchLimit_covers (w : StackTraceWindow) {depth : Int}
    (h : depth ≤ Factory.int32Max) :
    depth ≤ getStackTraceFetchLimit w ∨
      0 < w.levels ∧ w.startFrame + w.levels = getStackTraceFetchLimit w := by
  rw [getStackTraceFetchLimit]
  split
  · exact .inl h
  · rcases le_total (w.startFrame + w.levels) Factory.int32Max with hle | hle
    · exact .inr ⟨by omega, (min_eq_left hle).symm⟩
    · exact .inl (by rwa [min_eq_right hle])

theorem getStackTraceFetchLimit_nonneg (arguments : StackTraceArguments) :
    0 ≤ getStackTraceFetchLimit (readStackTraceWindow arguments) := by
  have hstart := (clampArgument_nonneg arguments.startFrame).1
  have hlevels := (clampArgument_nonneg arguments.levels).1
  rw [getStackTraceFetchLimit, readStackTraceWindow]
  split
  · decide
  · exact le_min (by dsimp only; omega) (by decide)

theorem getStackTraceFetchCount_eq {totalFrames maxFrames : Int} (ht : 0 ≤ totalFrames)
    (hm : 0 ≤ maxFrames) :
    Session.getStackTraceFetchCount totalFrames maxFrames = .ret (min totalFrames maxFrames) := by
  rw [Session.getStackTraceFetchCount, if_neg (by omega), if_neg (by omega)]
  rfl

/-- **Fetching.**  Of the frames fetched for a window, the window is the page of all frames. -/
theorem fetched_window (arguments : StackTraceArguments) {stack : List StackFrameInfo}
    (h : (stack.length : Int) ≤ Factory.int32Max) :
    applyStackTraceWindow (stack.take (min (stack.length : Int)
        (getStackTraceFetchLimit (readStackTraceWindow arguments))).toNat)
      (readStackTraceWindow arguments) =
        page (present arguments.startFrame) (present arguments.levels) stack := by
  have hstart := (clampArgument_nonneg arguments.startFrame).1
  rw [applyStackTraceWindow, window_take (readStackTraceWindow arguments).startFrame _ hstart]
  · exact window_clampArgument _ _ _
  · rcases getStackTraceFetchLimit_covers (readStackTraceWindow arguments) h with hall | ⟨hl, hw⟩
    · left
      omega
    · rcases le_total (stack.length : Int)
        (getStackTraceFetchLimit (readStackTraceWindow arguments)) with hle | hle
      · left
        omega
      · right
        omega

/-! ## Consecutive pages -/

theorem flatMap_page_take (xs : List α) (k m : Nat) :
    (List.range m).flatMap (fun i => (xs.drop (i * k)).take k) = xs.take (m * k) := by
  induction m with
  | zero => simp
  | succ m ih =>
    rw [List.range_succ, List.flatMap_append, ih, List.flatMap_singleton, Nat.succ_mul,
      List.take_add]

/-- **Consecutive pages.**  Every element is on exactly one of them, in its place. -/
theorem flatMap_page (xs : List α) {k : Nat} (hk : 0 < k) (hk' : (k : Int) ≤ Factory.int32Max)
    (hxs : (xs.length : Int) ≤ Factory.int32Max) :
    (List.range ((xs.length + k - 1) / k)).flatMap (fun i =>
      page (present (some (i * k : Nat))) (present (some k)) xs) = xs := by
  have hcount : present (some (k : Int)) = some k := if_pos ⟨by omega, hk'⟩
  have hpages : xs.length ≤ (xs.length + k - 1) / k * k := by
    have := Nat.lt_div_mul_add (a := xs.length + k - 1) hk
    omega
  have hstart : ∀ i ∈ List.range ((xs.length + k - 1) / k),
      page (present (some (i * k : Nat))) (present (some k)) xs = (xs.drop (i * k)).take k := by
    intro i hi
    have hi' : (i + 1) * k ≤ xs.length + k - 1 :=
      (Nat.mul_le_mul_right k (List.mem_range.1 hi)).trans (Nat.div_mul_le_self _ _)
    have hsmall : ((i * k : Nat) : Int) ≤ Factory.int32Max := by
      rw [Nat.succ_mul] at hi'
      omega
    rw [hcount, page, present_natCast hsmall]
  rw [List.flatMap_congr hstart, flatMap_page_take, List.take_of_length_le hpages]

end Server

/-! ## What an execution shows -/

/-- The lists the engine gives a request, and its responses. -/
structure Shown where
  stack : Option (List StackFrameInfo) := none
  modules : Option (List ModuleInfo) := none
  answers : List Response := []

def DapOp.shows : ∀ {β : Type}, DapOp β → β → Shown → Shown
  | _, .call _ .stackTrace, .ok frames, m => { m with stack := some frames }
  | _, .call _ .modules, .ok infos, m => { m with modules := some infos }
  | _, .send (.response r), _, m => { m with answers := m.answers ++ [r] }
  | _, _, _, m => m

/-- The steps of a request, whatever the other threads do, with what they show. -/
abbrev shownSteps : StepRel DapOp (Server × Shown) :=
  (StepRel.under (fun _ _ => True) (sem .request)).recording fun e m => e.op.shows e.result m

def shownSpec : Spec DapOp Shown where
  pre o K m := ∀ b, K b (o.shows b m)
  mono _ _ _ hK _ h b := hK b _ (h b)

variable {α : Type} {m : Shown}

theorem wp_shownSteps {p : Dap α} {s s' : Server} {m' : Shown} {a : α} {Q : α → Shown → Prop}
    {E : Exn → Shown → Prop} (h : Returns shownSteps p (s, m) a (s', m'))
    (hw : p.wp shownSpec Q E m) : Q a m' := by
  obtain ⟨es, hsteps⟩ := h
  have step : ∀ {β : Type} (o : DapOp β) {K : β → Shown → Prop} {v : Shown}
      {r r' : Server × Shown} {b : β}, v = r.2 → shownSpec.pre o K v → shownSteps β o r b r' →
        ∃ v', v' = r'.2 ∧ K b v' := by
    rintro β o K v r r' b rfl hpre hR
    refine ⟨r'.2, rfl, ?_⟩
    rw [hR.2]
    exact hpre b
  obtain ⟨_, rfl, hq⟩ := wp_view step hsteps rfl hw
  exact hq

/-- Operations that show nothing. -/
def DapOp.unseen {β : Type} (o : DapOp β) : Prop := ∀ b m, o.shows b m = m

theorem DapOp.unseen_of_selects {β : Type} {o : DapOp β} (h : o.quiet Call.selectsThread) :
    o.unseen := by
  cases o with
  | call id c => cases c <;> first | exact h.elim | exact fun _ _ => rfl
  | send m => cases m with
    | response => exact h.elim
    | event => exact fun _ _ => rfl
  | _ => exact fun _ _ => rfl

theorem unseen_wp {p : Dap α} (h : AllOps DapOp.unseen p) :
    p.wp shownSpec (fun _ m' => m' = m) (fun _ m' => m' = m) m := by
  refine wp_of_allOps (I := fun m' : Shown => m' = m) (fun o ho m' hm b => ?_) h rfl
  rw [ho, hm]

theorem throwIfDisposed_unseen (id : SessionId) :
    AllOps DapOp.unseen (Session.throwIfDisposed id) :=
  .bind (.perform fun _ _ => rfl) fun _ => .ite trivial trivial

namespace Server

theorem invoke_wp_shown {p : Dap α} {Q : α → Shown → Prop} {E : Exn → Shown → Prop}
    (hE : ∀ e m', E e m' → E (.dispatcherFailure e.what) m') (h : p.wp shownSpec Q E m) :
    (invoke .request p).wp shownSpec Q E m := by
  intro _ _
  simp only [bind_eq, wp_bind, wp_attempt]
  exact wp_mono (fun _ _ hq _ => hq) (fun e _ he _ => hE e _ he) h

theorem readSessionDataOrDefault_wp_shown {reader : SessionId → Dap α} {fallback : α}
    {Q : α → Shown → Prop} {E : Exn → Shown → Prop} (hfallback : Q fallback m)
    (hE : ∀ e m', E e m' → Q fallback m')
    (h : ∀ id, (reader id).wp shownSpec Q E m) :
    (readSessionDataOrDefault reader fallback).wp shownSpec Q E m := by
  intro session
  cases session with
  | none => exact hfallback
  | some id =>
    intro running
    cases running with
    | true => exact hfallback
    | false =>
      change ((reader id).catching _).wp _ _ _ _
      rw [wp_catching]
      refine wp_mono_val (fun _ _ hq => hq) (wp_mono (fun _ _ hq => hq) (fun e m' he => ?_) (h id))
      intro exits
      cases exits with
      | true => exact hE e m' he
      | false =>
        intro session
        cases session with
        | none => exact hE e m' he
        | some _ => exact he

/-! ## stackTrace -/

/-- The details of a stack that was delivered, unless none was. -/
def Detailed (maxFrames : Int) (details : StackTraceDetails) (m : Shown) : Prop :=
  m.answers = [] ∧ ∀ stack ∈ m.stack,
    details = { frames := (stack.take Session.kMaxStackDepth).take
                  (min ((stack.take Session.kMaxStackDepth).length : Int) maxFrames).toNat
                totalFrames := (stack.take Session.kMaxStackDepth).length }

theorem getStackTraceDetails_wp (id : SessionId) {maxFrames : Int} (h : 0 ≤ maxFrames)
    (hm : m = {}) : (Session.getStackTraceDetails id maxFrames).wp shownSpec
      (Detailed maxFrames) (fun _ m' => m' = {}) m := by
  subst hm
  simp only [Session.getStackTraceDetails, bind_eq, wp_bind]
  refine wp_mono_val (fun _ m₁ hm₁ => ?_) (unseen_wp (throwIfDisposed_unseen id))
  subst hm₁
  rw [if_neg (by omega)]
  intro reply
  cases reply with
  | error hr => rfl
  | ok stack =>
    change ((Session.getStackTraceFetchCount _ maxFrames).bind _).wp _ _ _ _
    rw [getStackTraceFetchCount_eq (Int.natCast_nonneg _) h]
    refine ⟨rfl, ?_⟩
    rintro _ ⟨⟩
    rfl

/-- The response to a request for frames of a stack. -/
def stackTraceResponse (request : Request StackTraceArguments) (stack : List StackFrameInfo) :
    Response :=
  { requestSeq := request.seq, success := true, command := request.command
    body := .stackTrace ((page (present request.arguments.startFrame)
      (present request.arguments.levels) stack).map
        (Factory.createStackFrame request.arguments.threadId)) stack.length }

theorem handleStackTraceRequest_wp (request : Request StackTraceArguments) :
    (handleStackTraceRequest request).wp shownSpec (fun _ m => ∀ stack ∈ m.stack,
      m.answers = [stackTraceResponse request (stack.take Session.kMaxStackDepth)])
      (fun _ _ => True) {} := by
  have nothing {m : Shown} (h : m.stack = none) : ∀ stack ∈ m.stack,
      m.answers = [stackTraceResponse request (stack.take Session.kMaxStackDepth)] := by
    intro stack hstack
    rw [h] at hstack
    cases hstack
  simp only [handleStackTraceRequest, requirePositiveThreadId, bind_eq, wp_bind]
  by_cases ht : request.arguments.threadId > 0
  · rw [if_pos ht]
    have details : (readSessionDataOrDefault (fun id => invoke .request (do
        Session.setCurrentThread id (Factory.toUInt32 request.arguments.threadId)
        Session.getStackTraceDetails id
          (getStackTraceFetchLimit (readStackTraceWindow request.arguments)))) {}).wp shownSpec
        (Detailed (getStackTraceFetchLimit (readStackTraceWindow request.arguments)))
        (fun _ m => m = {}) {} := by
      refine readSessionDataOrDefault_wp_shown ⟨rfl, nofun⟩ ?_ fun id =>
        invoke_wp_shown (fun _ _ h => h) ?_
      · rintro e m rfl
        exact ⟨rfl, nofun⟩
      · rw [bind_eq, wp_bind]
        refine wp_mono_val (fun _ m hm => getStackTraceDetails_wp id
          (getStackTraceFetchLimit_nonneg _) hm) (unseen_wp ?_)
        exact (Session.setCurrentThread_selects id _).mono fun _ => DapOp.unseen_of_selects
    rw [pure_eq, wp_ret, if_pos rfl, wp_bind]
    refine wp_mono (fun d m hd => ?_) (fun _ _ _ => trivial) details
    intro _ _ stack hstack
    obtain ⟨hanswers, hdetails⟩ := hd
    have hdepth : ((stack.take Session.kMaxStackDepth).length : Int) ≤ Factory.int32Max := by
      rw [List.length_take, Session.kMaxStackDepth, Factory.int32Max]
      omega
    change m.answers ++ [_] = _
    rw [hanswers, hdetails stack hstack, stackTraceResponse]
    dsimp only
    rw [fetched_window _ hdepth]
    rfl
  · rw [if_neg ht]
    exact fun _ => nothing rfl

/-! ## modules -/

def modulesResponse (request : Request ModulesArguments) (infos : List ModuleInfo) : Response :=
  { requestSeq := request.seq, success := true, command := request.command
    body := .modules ((page (positive request.arguments.startModule)
      (positive request.arguments.moduleCount) infos).map createModule) infos.length }

/-- The modules of a list that was delivered, unless none was. -/
def Listed (infos : List ModuleInfo) (m : Shown) : Prop :=
  m.answers = [] ∧ ∀ delivered ∈ m.modules, infos = delivered

theorem getModules_wp (id : SessionId) :
    (Session.getModules id).wp shownSpec Listed (fun _ m => m = {}) {} := by
  simp only [Session.getModules, bind_eq, wp_bind]
  refine wp_mono_val (fun _ m hm => ?_) (unseen_wp (throwIfDisposed_unseen id))
  subst hm
  intro reply
  cases reply with
  | error hr => rfl
  | ok infos =>
    refine ⟨rfl, ?_⟩
    rintro _ ⟨⟩
    rfl

theorem handleModulesRequest_wp (request : Request ModulesArguments) :
    (handleModulesRequest request).wp shownSpec
      (fun _ m => ∀ infos ∈ m.modules, m.answers = [modulesResponse request infos])
      (fun _ _ => False) {} := by
  have failed (message : String) : (fail request message).wp shownSpec
      (fun _ m => ∀ infos ∈ m.modules, m.answers = [modulesResponse request infos])
      (fun _ _ => False) {} := fun _ => nofun
  unfold handleModulesRequest
  dsimp only
  split
  · exact failed _
  rename_i hargs
  intro running
  cases running with
  | true => exact failed _
  | false =>
    intro session
    cases session with
    | none => exact failed _
    | some _ =>
      change (Prog.catching (Prog.bind _ _) _).wp shownSpec _ _ ({} : Shown)
      rw [wp_catching, wp_bind]
      refine wp_mono (fun infos m hm => ?_) (fun e m hm => ?_)
        (readSessionDataOrDefault_wp_shown (Q := Listed) (E := fun _ m => m = {})
          ⟨rfl, nofun⟩ ?_
          fun id => invoke_wp_shown (fun _ _ h => h) (getModules_wp id))
      · intro _ delivered hdelivered
        obtain ⟨hanswers, hlisted⟩ := hm
        have hwindow := window_eq_page (positive_getD request.arguments.startModule)
          (positive_getD request.arguments.moduleCount) positive_pos delivered
        change m.answers ++ [_] = _
        rw [hanswers, hlisted delivered hdelivered, hwindow]
        rfl
      · subst hm
        exact failed _
      · rintro e m rfl
        exact ⟨rfl, nofun⟩

/-! ## The requests -/

/-- What a variables request for a container answers. -/
def variablesResponse (request : Request VariablesArguments) (values : List Variable) : Response :=
  { requestSeq := request.seq, success := true, command := request.command
    body := .variables_ (page (present request.arguments.start) (present request.arguments.count)
      (if request.arguments.filter = some .indexed then [] else values)) }

/-- **Windows.**  The window of what is fetched is the page of the whole stack; a stackTrace request
answers with a page of the frames there is room for and their number; variables and modules
requests answer with a page of their list; and consecutive pages have every element once. -/
theorem windows :
    (∀ (arguments : StackTraceArguments) (stack : List StackFrameInfo),
      (stack.length : Int) ≤ Factory.int32Max → ∃ n : Int,
        Session.getStackTraceFetchCount stack.length
          (getStackTraceFetchLimit (readStackTraceWindow arguments)) = .ret n ∧
        applyStackTraceWindow (stack.take n.toNat) (readStackTraceWindow arguments) =
          page (present arguments.startFrame) (present arguments.levels) stack) ∧
    (∀ (request : Request StackTraceArguments) (s s' : Server) (m : Shown),
      Returns shownSteps (handleStackTraceRequest request) (s, {}) () (s', m) →
        ∀ stack ∈ m.stack,
          m.answers = [stackTraceResponse request (stack.take Session.kMaxStackDepth)]) ∧
    (∀ (request : Request VariablesArguments) (s s' : Server) (m : Seen)
      (container : VariableContainerContext),
      Returns seenSteps (handleVariablesRequest request) (s, {}) () (s', m) →
        0 < request.arguments.variablesReference →
          s.tables.variablesByReference.get? request.arguments.variablesReference =
            some container →
              m.answers = [variablesResponse request container.variables_]) ∧
    (∀ (request : Request ModulesArguments) (s s' : Server) (m : Shown),
      Returns shownSteps (handleModulesRequest request) (s, {}) () (s', m) →
        ∀ infos ∈ m.modules, m.answers = [modulesResponse request infos]) ∧
    ∀ {α : Type} (xs : List α) (k : Nat), 0 < k → (k : Int) ≤ Factory.int32Max →
      (xs.length : Int) ≤ Factory.int32Max →
        (List.range ((xs.length + k - 1) / k)).flatMap (fun i =>
          page (present (some (i * k : Nat))) (present (some k)) xs) = xs := by
  refine ⟨fun arguments stack h => ?_, fun request s s' m h => ?_,
    fun request s s' m c h hr hc => ?_, fun request s s' m h => ?_,
    fun xs k hk hk' hxs => flatMap_page xs hk hk' hxs⟩
  · exact ⟨_, getStackTraceFetchCount_eq (Int.natCast_nonneg _)
      (getStackTraceFetchLimit_nonneg arguments), fetched_window arguments h⟩
  · exact wp_shownSteps h (handleStackTraceRequest_wp request)
  · have hw := wp_seenSteps h (handleVariablesRequest_wp (v := ⟨s.tables, {}⟩) hr hc)
    rw [hw, window_clampArgument]
    rfl
  · exact wp_shownSteps h (handleModulesRequest_wp request)

/-! ## A deep stack -/

/-- A launch that stops at the entry of its only thread. -/
def launchAtEntry : Schedule :=
  Schedule.enter .request (.request (Schedule.message 1 "launch"
    [("program", .str "a.exe"), ("stopAtEntry", .bool true)])) 51 ++
    Schedule.report .createThread ++ Schedule.leave .request

/-- One frame more than there is room for, and two modules. -/
def deepStack : Answers where
  answer := fun c e => match c with
    | .stackTrace => .ok (List.replicate 1025 {})
    | .modules => .ok [⟨"a", "a.exe", 0x400000, 0x1000, "pdb"⟩, ⟨"b", "b.dll", 0x500000, 0x1000, ""⟩]
    | c => c.default e

def deepRequest : Request StackTraceArguments :=
  { seq := 2, command := "stackTrace", arguments := { threadId := 100, levels := some 1 } }

def shownTotals (m : Shown) : List Int :=
  m.answers.filterMap fun r => match r.body with
    | .stackTrace _ totalFrames => some totalFrames
    | _ => none

/-- The second module. -/
def secondModule : Request ModulesArguments :=
  { seq := 3, command := "modules", arguments := { startModule := some 1, moduleCount := some 1 } }

/-- What a request shows when it runs on its own. -/
def runDeep (handler : Dap Unit) (s : Server) : Option (Server × Shown) :=
  match handler.eval
    (fun o r => (apply .request deepStack o r.1).map fun x => (x.1, (x.2, o.shows x.1 r.2)))
    4000 (s, {}) with
  | some (.ok (), r) => some r
  | _ => none

theorem returns_of_runDeep {handler : Dap Unit} {s : Server} {r : Server × Shown}
    (h : runDeep handler s = some r) : Returns shownSteps handler (s, {}) () r := by
  unfold runDeep at h
  split at h
  · rename_i r' he
    cases h
    refine .of_eval (fun o x b x' ho => ?_) he
    obtain ⟨⟨b', s'⟩, ha, hx⟩ := Option.map_eq_some_iff.1 ho
    cases hx
    exact ⟨⟨x.1, trivial, deepStack, ha⟩, rfl⟩
  · cases h

/-- At a stop, a request about a stack of 1025 frames. -/
theorem deepStack_shown : ∃ (c : Conf) (s' : Server) (m : Shown) (stack : List StackFrameInfo),
    Reachable {} c ∧
      Returns shownSteps (handleStackTraceRequest deepRequest) (c.state, {}) () (s', m) ∧
      m.stack = some stack ∧ stack.length = 1025 ∧ shownTotals m = [1024] := by
  obtain ⟨c, hr, -, ht⟩ := reachable_of_exec launchAtEntry
    (fun c => (runDeep (handleStackTraceRequest deepRequest) c.state).any fun r =>
      (r.2.stack.any fun stack => stack.length == 1025) && shownTotals r.2 == [1024])
    (by decide +kernel)
  obtain ⟨⟨s', m⟩, hrun, ht⟩ := (Option.any_eq_true _ _).1 ht
  obtain ⟨hstack, htotals⟩ := Bool.and_eq_true_iff.1 ht
  obtain ⟨stack, hs, hlength⟩ := (Option.any_eq_true _ _).1 hstack
  exact ⟨c, s', m, stack, hr, returns_of_runDeep hrun, hs, eq_of_beq hlength, eq_of_beq htotals⟩

/-- A stack trace of a deep stack does not tell its depth. -/
theorem stackTrace_cut : ¬∀ (c : Conf) (request : Request StackTraceArguments) (s' : Server)
    (m : Shown), Reachable {} c →
      Returns shownSteps (handleStackTraceRequest request) (c.state, {}) () (s', m) →
        ∀ stack ∈ m.stack, (stack.length : Int) ≤ Factory.int32Max →
          m.answers = [stackTraceResponse request stack] := by
  intro hall
  obtain ⟨c, s', m, stack, hr, hreturns, hs, hlength, htotals⟩ := deepStack_shown
  have hanswers := hall c deepRequest s' m hr hreturns stack hs (by rw [hlength]; decide)
  rw [shownTotals, hanswers] at htotals
  simp [stackTraceResponse, hlength] at htotals

/-- The frames there is room for, the second of two modules, and a list page by page. -/
theorem windows_deepStack : ∃ (c : Conf) (m m' : Shown) (stack : List StackFrameInfo)
    (infos : List ModuleInfo), Reachable {} c ∧ stack.length = 1025 ∧
      m.answers = [stackTraceResponse deepRequest (stack.take 1024)] ∧ infos.length = 2 ∧
        m'.answers = [modulesResponse secondModule infos] ∧
          (List.range 3).flatMap (fun i =>
            page (present (some (i * 2 : Nat))) (present (some (2 : Nat))) ["a", "b", "c", "d", "e"]) =
              ["a", "b", "c", "d", "e"] := by
  obtain ⟨c, hr, -, ht⟩ := reachable_of_exec launchAtEntry
    (fun c => ((runDeep (handleStackTraceRequest deepRequest) c.state).any fun r =>
      r.2.stack.any fun stack => stack.length == 1025) &&
        (runDeep (handleModulesRequest secondModule) c.state).any fun r =>
          r.2.modules.any fun infos => infos.length == 2) (by decide +kernel)
  obtain ⟨hdeep, hmodules⟩ := Bool.and_eq_true_iff.1 ht
  obtain ⟨⟨s₁, m⟩, hrun, hstack⟩ := (Option.any_eq_true _ _).1 hdeep
  obtain ⟨stack, hs, hlength⟩ := (Option.any_eq_true _ _).1 hstack
  obtain ⟨⟨s₂, m'⟩, hrun', hinfos⟩ := (Option.any_eq_true _ _).1 hmodules
  obtain ⟨infos, hi, hcount⟩ := (Option.any_eq_true _ _).1 hinfos
  exact ⟨c, m, m', stack, infos, hr, eq_of_beq hlength,
    windows.2.1 deepRequest c.state s₁ m (returns_of_runDeep hrun) stack hs, eq_of_beq hcount,
    windows.2.2.2.1 secondModule c.state s₂ m' (returns_of_runDeep hrun') infos hi,
    windows.2.2.2.2 ["a", "b", "c", "d", "e"] 2 (by decide) (by decide) (by decide)⟩

end Server

end DapDbgeng
