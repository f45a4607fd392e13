/-
  What the methods of a session can touch.

  A quiet operation leaves the members of the server alone: it reads them, or works on session
  objects and their engine, or waits for the dispatcher, or asks the machine.  Main results:

  * `Session.*_quiet`: the methods of `debugger_session` are quiet;
  * `invoke_quiet`: running a quiet program on the dispatcher is quiet.

  A quiet program makes no call that sets the target going, attaches or ends a session; the
  methods that do are `Engaging`.
-/
import DapDbgeng.Targets

namespace DapDbgeng

open Concurrent Concurrent.Prog

/-- The calls that neither set the target going, nor attach, nor end the session. -/
def Call.routine : ∀ {β : Type}, Call β → Prop
  | _, .execute c => c.resumes = false
  | _, .attachProcess .. => False
  | _, .endSessionTerminate => False
  | _, _ => True

def Command.isStep : Command → Bool
  | .stepInto | .stepOver | .stepOut => true
  | _ => false

/-- The calls that do not step. -/
def Call.stepless : ∀ {β : Type}, Call β → Prop
  | _, .execute c => c.isStep = false
  | _, _ => True

theorem Call.routine.stepless {β : Type} {c : Call β} (h : c.routine) : c.stepless := by
  cases c with
  | execute command => cases command <;> first | rfl | cases h
  | _ => trivial

/-- The calls that ask for threads or select one. -/
def Call.selectsThread : ∀ {β : Type}, Call β → Prop
  | _, .numberThreads | _, .threadIdsByIndex _ | _, .currentThreadId => True
  | _, .threadIdBySystemId _ | _, .setCurrentThreadId _ => True
  | _, _ => False

/-- The calls with a fixed command or with none, that neither set the target going, nor attach, nor
end the session. -/
def Call.fixed : ∀ {β : Type}, Call β → Prop
  | _, .execute (.lines) | _, .execute (.clear _) | _, .execute (.clearAll) => True
  | _, .execute (.clearDebugRegisters) | _, .execute (.cppFirstChance _) => True
  | _, .execute (.frame _) => True
  | _, .execute _ => False
  | _, .attachProcess .. => False
  | _, .endSessionTerminate => False
  | _, _ => True

/-- What may be called includes the calls with fixed commands. -/
class AllowsFixed (C : ∀ {γ : Type}, Call γ → Prop) : Prop where
  allows : ∀ {γ : Type} (c : Call γ), c.fixed → C c

instance : AllowsFixed Call.routine where
  allows c hc := by
    cases c with
    | execute command => cases command <;> first | rfl | exact hc.elim
    | attachProcess | endSessionTerminate => exact hc.elim
    | _ => trivial

instance : AllowsFixed Call.stepless where
  allows c hc := (AllowsFixed.allows (C := Call.routine) c hc).stepless

instance : AllowsFixed fun {_} _ => True where
  allows _ _ := trivial

/-- The fixed calls that pass no address. -/
def Call.common : ∀ {β : Type}, Call β → Prop
  | _, .disassembleOne .. | _, .symbolStart _ => False
  | _, .readVirtual .. | _, .writeVirtual .. => False
  | _, c => c.fixed

theorem Call.common.fixed {β : Type} {c : Call β} (h : c.common) : c.fixed := by
  cases c <;> first | exact h | exact h.elim

/-- What may be called includes the fixed calls that pass no address. -/
class AllowsCommon (C : ∀ {γ : Type}, Call γ → Prop) : Prop where
  allows : ∀ {γ : Type} (c : Call γ), c.common → C c

instance {C : ∀ {γ : Type}, Call γ → Prop} [AllowsFixed C] : AllowsCommon C where
  allows c hc := AllowsFixed.allows c hc.fixed

/-- The operations that leave the members of the server alone, with the calls they may make. -/
def DapOp.quiet (C : ∀ {γ : Type}, Call γ → Prop) : ∀ {β : Type}, DapOp β → Prop
  | _, .load _ | _, .hasPending | _, .tables | _, .session => True
  | _, .readSession _ | _, .updateSession .. => True
  | _, .call _ c | _, .enter _ c | _, .leave _ c => C c
  | _, .enqueue | _, .acquire | _, .release | _, .loopJoinable => True
  | _, .deadlinePassed | _, .sleep _ | _, .pathExists _ | _, .isDirectory _ => True
  | _, .executableDirectory | _, .currentDirectory | _, .envVar _ => True
  | _, .fullPath _ | _, .readFile _ => True
  | _, .send (.event (.output ..)) => True
  | _, _ => False

/-- Programs of quiet operations. -/
abbrev Quiet {α : Type} (p : Dap α) : Prop := AllOps (DapOp.quiet Call.routine) p

/-- Programs of quiet operations, any call allowed. -/
abbrev Engaging {α : Type} (p : Dap α) : Prop := AllOps (DapOp.quiet fun _ => True) p

theorem DapOp.quiet_mono {C C' : ∀ {γ : Type}, Call γ → Prop}
    (h : ∀ {γ : Type} (c : Call γ), C c → C' c) {β : Type} (o : DapOp β) (ho : o.quiet C) :
    o.quiet C' := by
  cases o with
  | send m => cases m with
    | response r => exact ho
    | event e => cases e <;> exact ho
  | call | enter | leave => exact h _ ho
  | _ => exact ho

theorem Quiet.engaging {α : Type} {p : Dap α} (h : Quiet p) : Engaging p :=
  h.mono fun o => DapOp.quiet_mono (fun _ _ => trivial) o

section

variable {C : ∀ {γ : Type}, Call γ → Prop}

theorem quiet_of_selects [AllowsCommon C] {α : Type} {p : Dap α}
    (h : AllOps (DapOp.quiet Call.selectsThread) p) : AllOps (DapOp.quiet C) p := by
  refine h.mono fun o => DapOp.quiet_mono (fun c hc => AllowsCommon.allows c ?_) o
  cases c <;> trivial

theorem invoke_quiet {α : Type} {t : Tid} {p : Dap α} (h : AllOps (DapOp.quiet C) p) :
    AllOps (DapOp.quiet C) (invoke t p) := by
  unfold invoke
  refine .ite h (.bind (.perform trivial) fun _ => .bind (.perform trivial) fun _ =>
    .bind h.attempt fun r => .bind (.perform trivial) fun _ => ?_)
  cases r <;> trivial

theorem pumpCall_quiet {β : Type} {id : SessionId} {c : Call β} (h : C c) :
    AllOps (DapOp.quiet C) (pumpCall id c) :=
  .bind (.perform h) fun _ => .perform h

namespace Session

variable (id : SessionId)

theorem checkHr_quiet {α : Type} (r : Reply α) (message : String) :
    AllOps (DapOp.quiet C) (checkHr r message) := by
  cases r <;> trivial

theorem throwIfDisposed_quiet : AllOps (DapOp.quiet C) (throwIfDisposed id) :=
  .bind (.perform trivial) fun _ => .ite trivial trivial

theorem throwIfNullOrWhitespace_quiet (value what : String) :
    AllOps (DapOp.quiet C) (throwIfNullOrWhitespace value what) :=
  .ite trivial trivial

/-! ## Commands -/

theorem beginOutputCapture_quiet (suppress : Bool) :
    AllOps (DapOp.quiet C) (beginOutputCapture id suppress) :=
  .bind (.perform trivial) fun _ => .ite trivial (.perform trivial)

theorem endOutputCapture_quiet : AllOps (DapOp.quiet C) (endOutputCapture id) :=
  .bind (.perform trivial) fun _ => .bind (.perform trivial) fun _ => trivial

theorem handleOutputReceived_quiet (text : String) :
    AllOps (DapOp.quiet C) (handleOutputReceived id text) :=
  .bind (.perform trivial) fun _ => .bind (.perform trivial) fun _ =>
    .ite (.ite trivial (.perform trivial)) trivial

theorem execute_quiet {command : Command} (h : C (.execute command)) :
    AllOps (DapOp.quiet C) (execute id command) :=
  have rest (r : ExecuteResult) : AllOps (DapOp.quiet C) (do
      .forEach (handleOutputReceived id) (r.output.filter fun text => !text.isEmpty)
      return r.status) :=
    .bind (.forEach (handleOutputReceived_quiet id) _) fun _ => trivial
  .ite (.bind (pumpCall_quiet h) rest) (.bind (.perform h) rest)

theorem executeDebuggerCommand_quiet {command : Command} (h : C (.execute command))
    (message : String) : AllOps (DapOp.quiet C) (executeDebuggerCommand id command message) :=
  .bind (throwIfDisposed_quiet id) fun _ => .bind (execute_quiet id h) fun _ =>
    checkHr_quiet _ _

theorem executeCommandWithOutput_quiet {command : Command} (h : C (.execute command))
    (suppress : Bool) : AllOps (DapOp.quiet C) (executeCommandWithOutput id command suppress) :=
  .bind (throwIfDisposed_quiet id) fun _ => .bind (throwIfNullOrWhitespace_quiet _ _) fun _ =>
    .bind (beginOutputCapture_quiet id suppress) fun _ =>
      .catching (.bind (executeDebuggerCommand_quiet id h _) fun _ => endOutputCapture_quiet id)
        fun _ => .bind (.perform trivial) fun _ => trivial

end Session

end

namespace Session

variable (id : SessionId) {C : ∀ {γ : Type}, Call γ → Prop} [AllowsCommon C]

theorem call_quiet {β : Type} {c : Call β} (h : c.common) : AllOps (DapOp.quiet C) (call id c) :=
  .perform (AllowsCommon.allows c h)

theorem fixedCommand_quiet {command : Command} (h : (Call.execute command).common)
    (suppress : Bool) : AllOps (DapOp.quiet C) (executeCommandWithOutput id command suppress) :=
  executeCommandWithOutput_quiet id (AllowsCommon.allows _ h) suppress

/-! ## Execution -/

omit [AllowsCommon C] in
theorem resume_quiet {command : Command} (h : C (.execute command)) (message : String) :
    AllOps (DapOp.quiet C) (resume id command message) :=
  .bind (.perform trivial) fun _ => executeDebuggerCommand_quiet id h message

theorem resume_engaging (command : Command) (message : String) :
    Engaging (resume id command message) := resume_quiet id trivial message

theorem enableInstructionStepping_quiet : Quiet (enableInstructionStepping id) :=
  .bind (throwIfDisposed_quiet id) fun _ => executeDebuggerCommand_quiet id rfl _

theorem enableSourceLineStepping_quiet : Quiet (enableSourceLineStepping id) :=
  .bind (throwIfDisposed_quiet id) fun _ => executeDebuggerCommand_quiet id rfl _

theorem interrupt_quiet : AllOps (DapOp.quiet C) (interrupt id) :=
  .bind (throwIfDisposed_quiet id) fun _ => .bind (call_quiet id trivial) fun _ => checkHr_quiet _ _

theorem waitForEvent_quiet : AllOps (DapOp.quiet C) (waitForEvent id) :=
  .bind (throwIfDisposed_quiet id) fun _ =>
    .bind (pumpCall_quiet (AllowsCommon.allows _ trivial)) fun _ =>
    checkHr_quiet _ _

/-! ## Threads -/

theorem readThreadIds_selects : AllOps (DapOp.quiet Call.selectsThread) (readThreadIds id) :=
  .bind (.perform trivial) fun _ => .bind (checkHr_quiet _ _) fun _ => .ite trivial
    (.bind (.perform trivial) fun _ => checkHr_quiet _ _)

theorem getThreadIds_quiet : AllOps (DapOp.quiet C) (getThreadIds id) :=
  .bind (throwIfDisposed_quiet id) fun _ => quiet_of_selects (readThreadIds_selects id)

theorem getCurrentThreadId_selects :
    AllOps (DapOp.quiet Call.selectsThread) (getCurrentThreadId id) := by
  refine .bind (throwIfDisposed_quiet id) fun _ => .bind (.perform trivial) fun _ =>
    .bind (checkHr_quiet _ _) fun n => .bind (readThreadIds_selects id) fun systemIds => ?_
  cases systemIds[n]? <;> trivial

theorem getCurrentThreadId_quiet : AllOps (DapOp.quiet C) (getCurrentThreadId id) :=
  quiet_of_selects (getCurrentThreadId_selects id)

theorem setCurrentThreadUser_selects (systemThreadId : Nat) :
    AllOps (DapOp.quiet Call.selectsThread) (setCurrentThreadUser id systemThreadId) :=
  .bind (.perform trivial) fun _ => .bind (checkHr_quiet _ _) fun _ =>
    .bind (.perform trivial) fun _ => checkHr_quiet _ _

theorem setCurrentThreadKernel_selects (systemThreadId : Nat) :
    AllOps (DapOp.quiet Call.selectsThread) (setCurrentThreadKernel id systemThreadId) := by
  refine .bind (readThreadIds_selects id) fun systemIds => ?_
  cases systemIds.findIdx? (· = systemThreadId) with
  | none => trivial
  | some index => exact .bind (.perform trivial) fun _ => checkHr_quiet _ _

theorem setCurrentThread_selects (systemThreadId : Nat) :
    AllOps (DapOp.quiet Call.selectsThread) (setCurrentThread id systemThreadId) :=
  .bind (throwIfDisposed_quiet id) fun _ => .bind (.perform trivial) fun _ =>
    .ite (setCurrentThreadKernel_selects id _) (setCurrentThreadUser_selects id _)

theorem setCurrentThread_quiet (systemThreadId : Nat) :
    AllOps (DapOp.quiet C) (setCurrentThread id systemThreadId) :=
  quiet_of_selects (setCurrentThread_selects id _)

/-! ## Symbols, stack, variables, memory -/

theorem setSymbolPath_quiet (paths : List String) : Quiet (setSymbolPath id paths) :=
  .bind (throwIfDisposed_quiet id) fun _ => .bind (.perform trivial) fun _ => checkHr_quiet _ _

theorem setSourcePath_quiet (paths : List String) : Quiet (setSourcePath id paths) :=
  .bind (throwIfDisposed_quiet id) fun _ => executeDebuggerCommand_quiet id rfl _

theorem enableSourceLineSupport_quiet : Quiet (enableSourceLineSupport id) :=
  .bind (throwIfDisposed_quiet id) fun _ => .bind (executeDebuggerCommand_quiet id rfl _) fun _ =>
    enableSourceLineStepping_quiet id

theorem getModules_quiet : Quiet (getModules id) :=
  .bind (throwIfDisposed_quiet id) fun _ => .bind (.perform trivial) fun _ => checkHr_quiet _ _

theorem getStackTraceDetails_quiet (maxFrames : Int) :
    AllOps (DapOp.quiet C) (getStackTraceDetails id maxFrames) :=
  .bind (throwIfDisposed_quiet id) fun _ => .ite trivial (.bind (call_quiet id trivial) fun _ =>
    .bind (checkHr_quiet _ _) fun _ => .bind (.ite trivial (.ite trivial trivial)) fun _ => trivial)

theorem getStackTrace_quiet (maxFrames : Int) : Quiet (getStackTrace id maxFrames) :=
  .bind (getStackTraceDetails_quiet id maxFrames) fun _ => trivial

theorem frame_quiet (frameNumber : Nat) :
    AllOps (DapOp.quiet C) (executeCommandWithOutput id (.frame frameNumber)) :=
  fixedCommand_quiet id (by trivial) _

theorem getLocals_quiet (frameNumber : Nat) :
    AllOps (DapOp.quiet C) (getLocals id frameNumber) := by
  refine .bind (throwIfDisposed_quiet id) fun _ => .bind (frame_quiet id _) fun _ =>
    .bind (call_quiet id trivial) fun group => ?_
  cases group <;> trivial

theorem getLocalsTree_quiet (frameNumber : Nat) :
    AllOps (DapOp.quiet C) (getLocalsTree id frameNumber) := by
  refine .bind (throwIfDisposed_quiet id) fun _ => .bind (frame_quiet id _) fun _ =>
    .bind (call_quiet id trivial) fun group => ?_
  cases group <;> trivial

theorem openScopeSymbolGroup_quiet (frameNumber : Nat) (expression : String) :
    AllOps (DapOp.quiet C) (openScopeSymbolGroup id frameNumber expression) := by
  refine .bind (frame_quiet id _) fun _ => .bind (call_quiet id trivial) fun outcome => ?_
  cases outcome <;> trivial

theorem createSymbolNode_quiet (expression : String) :
    AllOps (DapOp.quiet C) (createSymbolNode id expression) :=
  .bind (call_quiet id trivial) fun _ => trivial

theorem setLocalValue_quiet (frameNumber : Nat) (expression value : String) :
    AllOps (DapOp.quiet C) (setLocalValue id frameNumber expression value) :=
  .bind (throwIfDisposed_quiet id) fun _ => .bind (openScopeSymbolGroup_quiet id _ _) fun _ =>
    .bind (call_quiet id trivial) fun _ => .bind (checkHr_quiet _ _) fun _ =>
      createSymbolNode_quiet id _

theorem getLocalValue_quiet (frameNumber : Nat) (expression : String) :
    AllOps (DapOp.quiet C) (getLocalValue id frameNumber expression) :=
  .bind (throwIfDisposed_quiet id) fun _ => .bind (openScopeSymbolGroup_quiet id _ _) fun _ =>
    .bind (createSymbolNode_quiet id _) fun _ => .ite trivial trivial

theorem getSymbolAddress_quiet (frameNumber : Nat) (expression : String) :
    AllOps (DapOp.quiet C) (getSymbolAddress id frameNumber expression) := by
  refine .bind (throwIfDisposed_quiet id) fun _ => .bind (openScopeSymbolGroup_quiet id _ _) fun _ =>
    .bind (call_quiet id trivial) fun offset => ?_
  split
  · trivial
  · trivial
  · refine .bind (call_quiet id trivial) fun size => ?_
    split <;> trivial

theorem getRegisters_quiet (frameNumber : Nat) :
    AllOps (DapOp.quiet C) (getRegisters id frameNumber) :=
  .bind (throwIfDisposed_quiet id) fun _ => .bind (call_quiet id trivial) fun _ =>
    .ite trivial (call_quiet id trivial)

/-- What holds of the single queries and is kept by sequencing holds of the whole window. -/
theorem disassemble_composed {Q : ∀ {α : Type}, Dap α → Prop} {address : Nat} {offset count : Int}
    {resolveSymbols : Bool} (ret : ∀ {α : Type} (a : α), Q (.ret a))
    (throw : ∀ {α : Type} (e : Exn), Q (.throw e : Dap α))
    (bind : ∀ {α β : Type} {p : Dap α} {f : α → Dap β}, Q p → (∀ a, Q (f a)) → Q (p.bind f))
    (hdisposed : Q (throwIfDisposed id))
    (hone : ∀ a, Q (call id (.disassembleOne a resolveSymbols)))
    (hstart : ∀ a, Q (call id (.symbolStart a))) :
    Q (disassemble id address offset count resolveSymbols) := by
  have range (start count : ℕ) : Q (disassembleRange id resolveSymbols start count) := by
    induction count generalizing start with
    | zero => exact ret _
    | succ count ih =>
      refine bind (hone start) fun decoded => ?_
      cases decoded with
      | none => exact ret _
      | some one => exact bind (ih one.2) fun _ => ret _
  have aligned (endAddress fuel a : ℕ) : Q (alignedRange id resolveSymbols endAddress fuel a) := by
    induction fuel generalizing a with
    | zero => exact ret _
    | succ fuel ih =>
      refine bind (hone a) fun decoded => ?_
      cases decoded with
      | none => exact ret _
      | some one =>
        dsimp only
        split
        · exact ret _
        · split
          · exact ret _
          · exact bind (ih one.2) fun _ => ret _
  have first (endAddress window : ℕ) (probes : List ℕ) :
      Q (firstAligned id resolveSymbols endAddress window probes) := by
    induction probes with
    | nil => exact ret _
    | cons probe probes ih =>
      refine bind (aligned endAddress window probe) fun decoded => ?_
      cases decoded with
      | none => exact ih
      | some decoded => exact ret _
  have backward (a : ℕ) (count : Int) : Q (disassembleBackward id resolveSymbols a count) := by
    unfold disassembleBackward
    split
    · exact ret _
    · refine bind (first a _ _) fun decoded => ?_
      cases decoded <;> exact ret _
  have previous (a n count : ℕ) : Q (previousInstructions id resolveSymbols a n count) := by
    refine bind (hstart a) fun start => ?_
    cases start with
    | none => exact backward a n
    | some start =>
      dsimp only
      split
      · exact bind (range start _) fun _ => ret _
      · exact backward a n
  have checked {α : Type} (r : Except String α) : Q (checked r) := by
    cases r with
    | ok a => exact ret a
    | error message => exact throw _
  have collected : Q (collectInstructions id resolveSymbols address offset count) := by
    unfold collectInstructions
    split
    · split
      · exact throw _
      · exact bind (previous address _ _) fun _ => bind (checked _) fun _ => bind (checked _)
          fun _ => bind (range address _) fun _ => ret _
    · split
      · exact throw _
      · exact bind (range address _) fun _ => ret _
  unfold disassemble
  refine bind hdisposed fun _ => ?_
  split
  · exact throw _
  · split
    · exact ret _
    · exact bind collected fun _ => ret _

theorem disassemble_quiet (address : Nat) (offset count : Int) (resolveSymbols : Bool) :
    Quiet (disassemble id address offset count resolveSymbols) :=
  disassemble_composed id (Q := fun {_} p => Quiet p) (fun _ => trivial) (fun _ => trivial)
    (fun hp hf => .bind hp hf) (throwIfDisposed_quiet id) (fun _ => .perform trivial)
    fun _ => .perform trivial

theorem readMemory_quiet (address count : Nat) : Quiet (readMemory id address count) :=
  .bind (throwIfDisposed_quiet id) fun _ => .ite trivial
    (.bind (.perform trivial) fun _ => trivial)

theorem writeMemory_quiet (address : Nat) (bytes : List Nat) :
    Quiet (writeMemory id address bytes) :=
  .bind (throwIfDisposed_quiet id) fun _ => .ite trivial
    (.bind (.perform trivial) fun _ => checkHr_quiet _ _)

theorem getLastException_quiet : Quiet (getLastException id) :=
  .bind (.perform trivial) fun _ => trivial

/-! ## Breakpoints -/

theorem getConfiguredBreakpointIds_quiet : AllOps (DapOp.quiet C) (getConfiguredBreakpointIds id) :=
  .bind (throwIfDisposed_quiet id) fun _ => .bind (call_quiet id trivial) fun _ => trivial

theorem clearBreakpoint_quiet (breakpoint : Int) :
    AllOps (DapOp.quiet C) (clearBreakpoint id breakpoint) :=
  .bind (fixedCommand_quiet id (by trivial) _) fun _ => trivial

theorem clearAllBreakpoints_quiet : AllOps (DapOp.quiet C) (clearAllBreakpoints id) :=
  .bind (throwIfDisposed_quiet id) fun _ => .bind (fixedCommand_quiet id (by trivial) _) fun _ =>
    trivial

theorem clearSourceBreakpoints_quiet (path : String) :
    AllOps (DapOp.quiet C) (clearSourceBreakpoints id path) := by
  refine .bind (.perform trivial) fun s => ?_
  cases s.sourceBreakpointIdsByPath.get? (Text.toUpperInvariant path) with
  | none => trivial
  | some ids => exact .bind (.perform trivial) fun _ => .forEach (clearBreakpoint_quiet id) _

theorem configureSourceBreakpoint_allowed {path : String} (configured : ConfiguredBreakpoints)
    {bp : SourceBreakpointSpec} (h : C (.execute (.sourceBreakpoint path bp))) :
    AllOps (DapOp.quiet C) (configureSourceBreakpoint id path configured bp) :=
  .bind (getConfiguredBreakpointIds_quiet id) fun _ =>
    .bind (executeCommandWithOutput_quiet id h _) fun _ =>
      .bind (getConfiguredBreakpointIds_quiet id) fun _ => trivial

theorem configureSourceBreakpoints_allowed {path : String} {specs : List SourceBreakpointSpec}
    (h : ∀ bp ∈ specs, C (.execute (.sourceBreakpoint path bp))) : ∀ configured,
      AllOps (DapOp.quiet C) (configureSourceBreakpoints id path configured specs) := by
  induction specs with
  | nil => exact fun _ => trivial
  | cons bp rest ih =>
    intro configured
    refine .bind (configureSourceBreakpoint_allowed id configured (h bp (.head _))) ?_
    exact ih fun bp' hbp' => h bp' (.tail _ hbp')

theorem setSourceBreakpoints_allowed {filePath : String} {specs : List SourceBreakpointSpec}
    (h : ∀ path, ∀ bp ∈ distinctSpecs [] specs, C (.execute (.sourceBreakpoint path bp))) :
    AllOps (DapOp.quiet C) (setSourceBreakpoints id filePath specs) :=
  .bind (throwIfDisposed_quiet id) fun _ => .bind (throwIfNullOrWhitespace_quiet _ _) fun _ =>
    .bind (.perform trivial) fun path => .bind (fixedCommand_quiet id (by trivial) _) fun _ =>
      .bind (clearSourceBreakpoints_quiet id _) fun _ => .ite trivial
        (.bind (configureSourceBreakpoints_allowed id (h path) _) fun _ =>
          .bind (.perform trivial) fun _ => trivial)

theorem setSourceBreakpoints_quiet (filePath : String) (specs : List SourceBreakpointSpec) :
    Quiet (setSourceBreakpoints id filePath specs) :=
  setSourceBreakpoints_allowed id fun _ _ _ => rfl

theorem setCommandBreakpoint_quiet (kind : BreakpointKind) {command : Command}
    (h : C (.execute command)) (label : String) :
    AllOps (DapOp.quiet C) (setCommandBreakpoint id kind command label) := by
  refine .bind (getConfiguredBreakpointIds_quiet id) fun before =>
    .bind (.catching (executeCommandWithOutput_quiet id h _) fun _ => trivial) fun _ =>
      .bind (getConfiguredBreakpointIds_quiet id) fun after => ?_
  split
  · exact .bind (.perform trivial) fun _ => .bind (.perform trivial) fun _ => trivial
  · trivial

theorem setCommandBreakpoints_quiet (kind : BreakpointKind) {commands : List (Command × String)}
    (h : ∀ c ∈ commands, C (.execute c.1)) :
    AllOps (DapOp.quiet C) (setCommandBreakpoints id kind commands) := by
  refine .bind (throwIfDisposed_quiet id) fun _ => .bind (.perform trivial) fun _ =>
    .bind (.forEach (clearBreakpoint_quiet id) _) fun _ => .bind (.perform trivial) fun _ => ?_
  induction commands with
  | nil => trivial
  | cons c rest ih =>
    refine .bind (setCommandBreakpoint_quiet id kind (h c (.head _)) _) fun _ => .bind ?_ fun _ =>
      trivial
    exact ih fun c' hc' => h c' (.tail _ hc')

theorem setFunctionBreakpoints_quiet (names : List String) :
    Quiet (setFunctionBreakpoints id names) :=
  setCommandBreakpoints_quiet id _ fun c hc => by
    obtain ⟨name, -, rfl⟩ := List.mem_map.1 hc; rfl

theorem setInstructionBreakpoints_quiet (addresses : List Nat) :
    Quiet (setInstructionBreakpoints id addresses) :=
  setCommandBreakpoints_quiet id _ fun c hc => by
    obtain ⟨a, -, rfl⟩ := List.mem_map.1 hc; rfl

theorem setDataBreakpoints_quiet (specs : List DataBreakpointSpec) :
    Quiet (setDataBreakpoints id specs) :=
  setCommandBreakpoints_quiet id _ fun c hc => by
    obtain ⟨s, -, rfl⟩ := List.mem_map.1 hc; rfl

theorem setCppFirstChanceBreak_quiet (enabled : Bool) :
    Quiet (setCppFirstChanceBreak id enabled) :=
  .bind (throwIfDisposed_quiet id) fun _ => .bind (executeCommandWithOutput_quiet id rfl _) fun _ =>
    .perform trivial

theorem getLastBreakpointId_quiet : Quiet (getLastBreakpointId id) :=
  .bind (.perform trivial) fun _ => trivial

/-! ## Targets -/

/-- The constructor is quiet but for the new object. -/
theorem create_allowed {Q : ∀ {β : Type}, DapOp β → Prop} (hnew : Q .newSession)
    (hquiet : ∀ {β : Type} (o : DapOp β), o.quiet Call.routine → Q o) (enginePath : String) :
    AllOps Q (create enginePath) := by
  refine .bind (.perform hnew) fun id => AllOps.mono hquiet ?_
  refine .bind (throwIfNullOrWhitespace_quiet _ _) fun _ =>
    .bind (.bind (.perform trivial) fun _ => .ite trivial (.ite trivial trivial)) fun _ =>
      .bind (.perform trivial) fun r => ?_
  cases r with
  | error message => trivial
  | ok loaded => exact .bind (.perform trivial) fun _ => trivial

theorem disconnectProcessServer_quiet : AllOps (DapOp.quiet C) (disconnectProcessServer id) :=
  .bind (.perform trivial) fun _ => .ite trivial
    (.bind (call_quiet id trivial) fun _ => .perform trivial)

omit [AllowsCommon C] in
theorem endSession_quiet (h : C .endSessionTerminate) (t : Tid) :
    AllOps (DapOp.quiet C) (endSession t id) :=
  .ite (.perform h) (pumpCall_quiet h)

theorem destroy_quiet (h : C .endSessionTerminate) (t : Tid) :
    AllOps (DapOp.quiet C) (destroy t id) :=
  have rest : AllOps (DapOp.quiet C) (do
      disconnectProcessServer id
      updateSession id .dispose) :=
    .bind (disconnectProcessServer_quiet id) fun _ => .perform trivial
  .bind (.perform trivial) fun _ => .ite trivial (.bind (call_quiet id trivial) fun _ =>
    .ite (.bind (endSession_quiet id h t) fun _ => rest) rest)

theorem destroy_engaging (t : Tid) : Engaging (destroy t id) := destroy_quiet id trivial t

theorem connectProcessServer_quiet (connectionString : String) :
    AllOps (DapOp.quiet C) (connectProcessServer id connectionString) :=
  .bind (throwIfDisposed_quiet id) fun _ => .bind (throwIfNullOrWhitespace_quiet _ _) fun _ =>
    .bind (.perform trivial) fun _ => .ite trivial (.bind (call_quiet id trivial) fun _ =>
      .bind (checkHr_quiet _ _) fun _ => .perform trivial)

theorem launch_quiet (path : String) (arguments : Option String) (directory : String) :
    Quiet (launch id path arguments directory) :=
  have start (d : String) : Quiet (do
      let r ← call id (.createProcess 0 (buildCommandLine path arguments) (some d))
      checkHr r "Could not launch target"
      waitForEvent id) :=
    .bind (.perform trivial) fun _ => .bind (checkHr_quiet _ _) fun _ => waitForEvent_quiet id
  .bind (throwIfDisposed_quiet id) fun _ => .bind (throwIfNullOrWhitespace_quiet _ _) fun _ =>
    .ite (start _) (.ite (start _) (.bind (.perform trivial) start))

theorem launchRemote_quiet (connectionString path : String) (arguments : Option String)
    (directory : String) : Quiet (launchRemote id connectionString path arguments directory) :=
  .bind (throwIfDisposed_quiet id) fun _ => .bind (throwIfNullOrWhitespace_quiet _ _) fun _ =>
    .bind (connectProcessServer_quiet id _) fun _ => .bind (.perform trivial) fun _ =>
      .bind (.perform trivial) fun _ => .bind (checkHr_quiet _ _) fun _ => waitForEvent_quiet id

theorem attach_quiet (h : ∀ server processId, C (.attachProcess server processId))
    (processId : Int) : AllOps (DapOp.quiet C) (attach id processId) :=
  .bind (throwIfDisposed_quiet id) fun _ => .bind (call_quiet id trivial) fun _ =>
    .bind (checkHr_quiet _ _) fun _ => .bind (.perform trivial) fun _ =>
      .bind (.perform (h _ _)) fun _ => .bind (checkHr_quiet _ _) fun _ =>
        waitForEvent_quiet id

theorem attach_engaging (processId : Int) : Engaging (attach id processId) :=
  attach_quiet id (fun _ _ => trivial) processId

theorem attachRemote_quiet (h : ∀ server processId, C (.attachProcess server processId))
    (connectionString : String) (processId : Int) :
    AllOps (DapOp.quiet C) (attachRemote id connectionString processId) :=
  .bind (connectProcessServer_quiet id _) fun _ => attach_quiet id h processId

theorem attachRemote_engaging (connectionString : String) (processId : Int) :
    Engaging (attachRemote id connectionString processId) :=
  attachRemote_quiet id (fun _ _ => trivial) connectionString processId

theorem attachKernel_quiet (connectionString : String) :
    Quiet (attachKernel id connectionString) :=
  .bind (throwIfDisposed_quiet id) fun _ => .bind (throwIfNullOrWhitespace_quiet _ _) fun _ =>
    .bind (.perform trivial) fun _ => .bind (checkHr_quiet _ _) fun _ =>
      .bind (.perform trivial) fun _ => .bind (checkHr_quiet _ _) fun _ =>
        .bind (.perform trivial) fun _ => .bind (.perform trivial) fun _ => waitForEvent_quiet id

theorem openDumpFile_quiet (path : String) : Quiet (openDumpFile id path) :=
  .bind (throwIfDisposed_quiet id) fun _ => .bind (throwIfNullOrWhitespace_quiet _ _) fun _ =>
    .bind (.perform trivial) fun _ => .bind (checkHr_quiet _ _) fun _ => waitForEvent_quiet id

theorem tryFindProcessIdByExecutableName_quiet (name : String) :
    Quiet (tryFindProcessIdByExecutableName id name) :=
  .bind (throwIfDisposed_quiet id) fun _ => .bind (.perform trivial) fun _ =>
    .bind (.perform trivial) fun _ => trivial

theorem detachCurrentProcess_quiet : Quiet (detachCurrentProcess id) :=
  .bind (throwIfDisposed_quiet id) fun _ => .bind (throwIfDisposed_quiet id) fun _ =>
    .bind (.catching (.bind (clearAllBreakpoints_quiet id) fun _ => .bind (.perform trivial) fun _ =>
        .ite trivial (.bind (executeCommandWithOutput_quiet id rfl _) fun _ => trivial))
      fun _ => trivial) fun _ =>
      .bind (.perform trivial) fun _ => .catching
        (.bind (pumpCall_quiet trivial) fun _ => checkHr_quiet _ _)
        fun _ => .bind (.perform trivial) fun _ => trivial

omit [AllowsCommon C] in
theorem terminateCurrentProcess_quiet (h : C .endSessionTerminate) :
    AllOps (DapOp.quiet C) (terminateCurrentProcess id) :=
  .bind (throwIfDisposed_quiet id) fun _ => .bind (pumpCall_quiet h) fun _ => .perform trivial

theorem terminateCurrentProcess_engaging : Engaging (terminateCurrentProcess id) :=
  terminateCurrentProcess_quiet id trivial

end Session

end DapDbgeng
