/-
  Every request gets exactly one response.

  Main results:

  * one lemma per handler: it responds, or throws before it has sent anything;
  * `handlers_respond`: so does whatever `dispatch_request` finds for a command;
  * `handleRequest_responds_once`: with the catch clauses of `handle_request`, every message of
    type `request` with a sequence number and a command is answered once, on every path.
-/
import DapDbgeng.Dispatch
import DapDbgeng.Responses

namespace DapDbgeng

open Concurrent Concurrent.Prog

namespace Server

/-! ## Sending and refusing -/

section

variable {seq : Int} {command : String} {α : Type}

theorem sendResponse_responds (request : Request α) (body : Body) :
    Responds request.seq request.command (sendResponse request body) := .send rfl rfl

theorem fail_responds (request : Request α) (message : String) :
    Responds request.seq request.command (fail request message) := .send rfl rfl

/-- A check that either passes silently or responds. -/
def Guards (seq : Int) (command : String) (p : Dap Bool) : Prop :=
  ∀ log, p.wp logSpec (fun ok l => if ok then l = log else Answered seq command log l)
    (fun e l => l = log ∧ e.About seq command) log

theorem Guards.responds {g : Dap Bool} {p : Dap Unit} (hg : Guards seq command g)
    (hp : Responds seq command p) :
    Responds seq command (g.bind fun ok => if ok then p else .ret ()) := by
  intro log
  rw [wp_bind]
  refine wp_mono_val (fun ok l hl => ?_) (hg log)
  cases ok with
  | true => exact hl ▸ hp l
  | false => exact hl

theorem guards_of_fail (request : Request α) {c : Prop} [Decidable c] (message : String) :
    Guards request.seq request.command
      (if c then return true else do fail request message; return false) := by
  intro log
  split
  · exact rfl
  · exact Responds.send rfl rfl log

theorem requirePositiveThreadId_guards (request : Request α) (threadId : Int) :
    Guards request.seq request.command (requirePositiveThreadId request threadId) :=
  guards_of_fail request _

theorem rejectSingleThread_guards (request : Request α) (singleThread : Bool) :
    Guards request.seq request.command (rejectSingleThread request singleThread) :=
  guards_of_fail request _

theorem rejectTargetId_guards (request : Request α) (hasTargetId : Bool) :
    Guards request.seq request.command (rejectTargetId request hasTargetId) :=
  guards_of_fail request _

/-- The common shape: some silent work and a response, with any failure turned into an error
response. -/
theorem catching_responds (request : Request α) {p : Dap Unit}
    (h : Responds request.seq request.command p) :
    Responds request.seq request.command (p.catching (failUnwrapped request)) :=
  h.catching fun _ => fail_responds request _

/-- A handler that needs the target at rest. -/
theorem atStop_responds (request : Request α) (message : String) {p : Dap Unit}
    (h : Responds request.seq request.command p) : Responds request.seq request.command (do
      if ← load .isExecutionRunning then fail request message else p) :=
  .after (.perform rfl) fun _ => .ite (fail_responds request message) h

/-- A handler that needs a session. -/
theorem inSession_responds (request : Request α) (message : String) {p : SessionId → Dap Unit}
    (h : ∀ id, Responds request.seq request.command (p id)) :
    Responds request.seq request.command (do
      match ← getSession with
      | none => fail request message
      | some id => p id) := by
  refine .after (.perform rfl) fun s => ?_
  cases s with
  | none => exact fail_responds request message
  | some id => exact h id

end

/-! ## Execution -/

theorem continueTarget_silent {seq : Int} {command : String} (id : SessionId) (threadId : Int) :
    Silent (Exn.About seq command) (continueTarget id threadId) :=
  .catching (.bind (invoke_silent (Session.setCurrentThread_quiet id _)) fun _ =>
      .bind (.perform rfl) fun _ => .bind (invoke_silent (Session.resume_engaging id _ _)) fun _ =>
        .of_mute resetSuspendedState_mute)
    fun _ he => .bind (.perform rfl) fun _ => .throw he

theorem handleContinueRequest_responds (request : Request ExecutionArguments) :
    Responds request.seq request.command (handleContinueRequest request) :=
  (requirePositiveThreadId_guards request _).responds <|
    (rejectSingleThread_guards request _).responds <| atStop_responds request _ <|
      .after requireDebuggerSession_silent fun id => .after (continueTarget_silent id _) fun _ =>
        (sendResponse_responds request _).before fun _ => .bind (sendEvent_mute _) fun _ =>
          startWaitingForSessionEvent_mute id

theorem stepTarget_silent {seq : Int} {command : String} (kind : StepKind)
    (hk : ∀ id, Engaging (kind.step id)) (id : SessionId) (threadId : Int)
    (granularity : Option SteppingGranularity) :
    Silent (Exn.About seq command) (stepTarget kind id threadId granularity) :=
  .catching (.bind (invoke_silent (Session.setCurrentThread_quiet id _)) fun _ =>
      .bind (prepareSteppingGranularity_silent id granularity) fun _ =>
        .bind (.perform rfl) fun _ => .bind (.perform rfl) fun _ =>
          .bind (invoke_silent (hk id)) fun _ => .bind (.of_mute resetSuspendedState_mute) fun _ =>
            .of_mute (startWaitingForSessionEvent_mute id))
    fun _ he => .bind (.perform rfl) fun _ => .bind (.perform rfl) fun _ =>
      .bind (.of_mute (restoreSourceLineSteppingIfNeeded_mute id)) fun _ => .throw he

theorem handleStep_responds (kind : StepKind) (hk : ∀ id, Engaging (kind.step id))
    (request : Request ExecutionArguments) :
    Responds request.seq request.command (handleStep kind request) :=
  atStop_responds request _ <| .after requireDebuggerSession_silent fun id =>
    .after (stepTarget_silent kind hk id _ _) fun _ => sendResponse_responds request _

theorem handleCheckedStep_responds (kind : StepKind) (hk : ∀ id, Engaging (kind.step id))
    (request : Request ExecutionArguments) :
    Responds request.seq request.command (handleCheckedStep kind request) :=
  (requirePositiveThreadId_guards request _).responds <|
    (rejectSingleThread_guards request _).responds <| handleStep_responds kind hk request

theorem handleNextRequest_responds (request : Request ExecutionArguments) :
    Responds request.seq request.command (handleNextRequest request) :=
  handleCheckedStep_responds _ (fun id => Session.resume_engaging id _ _) request

theorem handleStepOutRequest_responds (request : Request ExecutionArguments) :
    Responds request.seq request.command (handleStepOutRequest request) :=
  handleCheckedStep_responds _ (fun id => Session.resume_engaging id _ _) request

theorem handleStepInRequest_responds (request : Request ExecutionArguments) :
    Responds request.seq request.command (handleStepInRequest request) :=
  (requirePositiveThreadId_guards request _).responds <|
    (rejectSingleThread_guards request _).responds <|
      (rejectTargetId_guards request _).responds <|
        handleStep_responds _ (fun id => Session.resume_engaging id _ _) request

theorem pauseTarget_silent {seq : Int} {command : String} (id : SessionId) :
    Silent (Exn.About seq command) (pauseTarget id) :=
  .catching (.bind (.of_mute resetSuspendedState_mute) fun _ => .bind (.perform rfl) fun _ =>
      .bind (interrupt_silent id) fun _ => .of_mute (startWaitingForSessionEvent_mute id))
    fun _ he => .bind (.perform rfl) fun _ => .throw he

theorem handlePauseRequest_responds (request : Request ThreadArguments) :
    Responds request.seq request.command (handlePauseRequest request) :=
  (requirePositiveThreadId_guards request _).responds <| .after (.perform rfl) fun _ =>
    .ite (.after requireDebuggerSession_silent fun id => .after (pauseTarget_silent id) fun _ =>
        sendResponse_responds request _)
      (fail_responds request _)

theorem resumeAfterConfigurationDone_mute (id : SessionId) (threadId : Int) :
    Mute (resumeAfterConfigurationDone id threadId) :=
  .catching (F := fun _ => True) (.bind (.of_mute resetSuspendedState_mute) fun _ =>
      .bind (.perform rfl) fun _ =>
        .bind (invoke_silent_of (Session.resume_engaging id _ _) fun _ => trivial) fun _ =>
          .bind (.of_mute (sendEvent_mute _)) fun _ =>
            .of_mute (startWaitingForSessionEvent_mute id))
    fun _ _ => .perform rfl

theorem continueAfterConfigurationDone_mute : Mute continueAfterConfigurationDone := by
  refine .bind (.perform rfl) fun s => ?_
  cases s with
  | none => exact .ret _
  | some id =>
    refine .bind (.perform rfl) fun _ => .ite (.ret _) (.bind (.perform rfl) fun _ =>
      .ite (.bind (.ret _) fun threadId => ?_)
        (.bind tryGetCurrentThreadId_mute fun threadId => ?_))
    all_goals
      cases threadId with
      | none => exact .ret _
      | some threadId => exact resumeAfterConfigurationDone_mute id threadId

theorem handleConfigurationDoneRequest_responds (request : Request Unit) :
    Responds request.seq request.command (handleConfigurationDoneRequest request) :=
  (sendResponse_responds request _).before fun _ => .bind (.perform rfl) fun _ =>
    .bind (.perform rfl) fun _ => .ite
      (.bind continueAfterConfigurationDone_mute fun _ => resetLaunchConfigurationState_mute)
      resetLaunchConfigurationState_mute

/-! ## Inspection -/

theorem getThreads_silent {seq : Int} {command : String} :
    Silent (Exn.About seq command) getThreads := by
  refine readSessionDataOrDefault_silent (fun id => .bind (.of_mute tryGetCurrentThreadId_mute)
    fun current => .bind (invoke_silent (Session.getThreadIds_quiet id)) fun ids => ?_) _
  cases Factory.createThreads current ids with
  | ok threads => exact .ret _
  | error message => exact throwRuntime_silent _

theorem handleThreadsRequest_responds (request : Request Unit) :
    Responds request.seq request.command (handleThreadsRequest request) :=
  .after getThreads_silent fun _ => sendResponse_responds request _

theorem handleStackTraceRequest_responds (request : Request StackTraceArguments) :
    Responds request.seq request.command (handleStackTraceRequest request) :=
  (requirePositiveThreadId_guards request _).responds <| .after
    (readSessionDataOrDefault_silent (fun id => invoke_silent
      (.bind (Session.setCurrentThread_quiet id _) fun _ =>
        (Session.getStackTraceDetails_quiet id _))) _)
    fun _ => .after (.perform rfl) fun _ => sendResponse_responds request _

theorem handleScopesRequest_responds (request : Request ScopesArguments) :
    Responds request.seq request.command (handleScopesRequest request) := by
  refine .ite (fail_responds request _) (.after (.perform rfl) fun d => ?_)
  cases d.frameContexts.get? request.arguments.frameId with
  | none => exact fail_responds request _
  | some context =>
    refine .after (readSessionDataOrDefault_silent (fun id => ?_) _) fun _ =>
      .after (.perform rfl) fun _ => sendResponse_responds request _
    exact .bind (invoke_silent (Session.getLocalsTree_quiet id _)) fun _ =>
      .bind (invoke_silent (Session.getRegisters_quiet id _)) fun _ => .ret _

theorem handleVariablesRequest_responds (request : Request VariablesArguments) :
    Responds request.seq request.command (handleVariablesRequest request) := by
  refine .ite (fail_responds request _) (.after (.perform rfl) fun d => ?_)
  cases d.variablesByReference.get? request.arguments.variablesReference with
  | none => exact fail_responds request _
  | some container => exact sendResponse_responds request _

section

variable {C : ∀ {γ : Type}, Call γ → Prop} [AllowsCommon C]

theorem withThread_allowed {α : Type} (id : SessionId) (threadId : Int) {action : Dap α}
    (h : AllOps (DapOp.quiet C) action) : AllOps (DapOp.quiet C) (withThread id threadId action) :=
  .bind (Session.getCurrentThreadId_quiet id) fun _ => .catching
    (.bind (Session.setCurrentThread_quiet id _) fun _ => .bind h fun _ =>
      .bind (Session.setCurrentThread_quiet id _) fun _ => trivial)
    fun _ => .bind (Session.setCurrentThread_quiet id _) fun _ => trivial

omit [AllowsCommon C] in
theorem executeSet_allowed (id : SessionId) (kind : VariableContainerKind) :
    ∀ (commands : List Command) (lastFailure : Option String),
      (∀ c ∈ commands, C (.execute c)) →
        AllOps (DapOp.quiet C) (executeSet id kind commands lastFailure)
  | [], _, _ => trivial
  | command :: rest, _, h => by
    refine .bind (AllOps.attempt (Session.executeCommandWithOutput_quiet id
      (h command (by simp)) _)) fun r => ?_
    cases r with
    | ok _ => trivial
    | error e =>
      exact .ite trivial (.ite trivial
        (executeSet_allowed id kind rest _ fun c hc => h c (by simp [hc])))

theorem assignVariable_allowed (id : SessionId) (container : VariableContainerContext)
    (name value : String)
    (h : ∀ c ∈ buildSetCommands container.kind container.frameNumber name value, C (.execute c)) :
    AllOps (DapOp.quiet C) (assignVariable id container name value) := by
  have read : AllOps (DapOp.quiet C) (readVariables id container) :=
    .ite (.bind (Session.getLocals_quiet id _) fun _ => trivial)
      (.bind (Session.getRegisters_quiet id _) fun _ => trivial)
  refine .bind (executeSet_allowed id _ _ _ h) fun _ => .bind read fun refreshed => ?_
  cases refreshed.find? fun v => v.name = name <;> trivial

theorem evaluateInFrame_allowed (id : SessionId) (context : FrameContext) (preferExpression : Bool)
    {expression : String} (h : C (.execute (.raw s!".frame {context.frameNumber};{expression}"))) :
    AllOps (DapOp.quiet C) (evaluateInFrame id context preferExpression expression) := by
  have evaluated : AllOps (DapOp.quiet C) (do
      let command ← createEvaluateCommand expression (some context.frameNumber)
      Session.executeCommandWithOutput id command) := by
    unfold createEvaluateCommand
    by_cases hblank : Text.isBlank expression
    · rw [if_pos hblank]; trivial
    · rw [if_neg hblank]; exact Session.executeCommandWithOutput_quiet id h _
  refine .ite (.bind (.catching (.bind (Session.getLocalValue_quiet id _ _) fun _ => trivial)
    fun _ => trivial) fun resolved => ?_) evaluated
  cases resolved with
  | some value => trivial
  | none => exact evaluated

theorem evaluate_allowed (id : SessionId) (context : Option FrameContext) (preferExpression : Bool)
    {expression : String} (h : C (.execute (.raw expression)))
    (hframe : ∀ n : Nat, C (.execute (.raw s!".frame {n};{expression}"))) :
    AllOps (DapOp.quiet C) (evaluate id context preferExpression expression) := by
  cases context with
  | none => exact Session.executeCommandWithOutput_quiet id h _
  | some c => exact withThread_allowed id _ (evaluateInFrame_allowed id c _ (hframe _))

end

theorem withThread_quiet {α : Type} (id : SessionId) (threadId : Int) {action : Dap α}
    (h : Quiet action) : Quiet (withThread id threadId action) :=
  withThread_allowed id threadId h

theorem buildSetCommands_resumes (kind : VariableContainerKind) (frameNumber : Nat)
    (name value : String) {c : Command} (h : c ∈ buildSetCommands kind frameNumber name value) :
    c.resumes = false := by
  cases kind <;> simp only [buildSetCommands, List.mem_cons, List.not_mem_nil, or_false] at h
  · rcases h with rfl | rfl | rfl | rfl <;> rfl
  · subst h; rfl
  · subst h; rfl

theorem assignVariable_quiet (id : SessionId) (container : VariableContainerContext)
    (name value : String) : Quiet (assignVariable id container name value) :=
  assignVariable_allowed id container name value fun _ => buildSetCommands_resumes _ _ _ _

theorem assignStructField_quiet (id : SessionId) (container : VariableContainerContext)
    (name expression value : String) :
    Quiet (assignStructField id container name expression value) :=
  .bind (Session.setLocalValue_quiet id _ _ _) fun _ => trivial

theorem handleSetStructField_responds (request : Request SetVariableArguments)
    (container : VariableContainerContext) :
    Responds request.seq request.command (handleSetStructField request container) := by
  unfold handleSetStructField
  dsimp only
  cases container.variables_.find? fun v => v.name = request.arguments.name with
  | none => exact fail_responds request _
  | some child =>
    exact catching_responds request (.after requireDebuggerSession_silent fun id =>
      .after (invoke_silent (withThread_quiet id _
        (assignStructField_quiet id container _ _ _)).engaging) fun (_, _) =>
          .after (.perform rfl) fun _ => sendResponse_responds request _)

theorem handleSetTopLevelVariable_responds (request : Request SetVariableArguments)
    (container : VariableContainerContext) :
    Responds request.seq request.command (handleSetTopLevelVariable request container) :=
  .after requireDebuggerSession_silent fun id => catching_responds request
    (.after (invoke_silent (withThread_quiet id _ (assignVariable_quiet id _ _ _)).engaging)
      fun (_, _) => .after (.perform rfl) fun _ => sendResponse_responds request _)

theorem handleSetVariableRequest_responds (request : Request SetVariableArguments) :
    Responds request.seq request.command (handleSetVariableRequest request) := by
  refine .ite (fail_responds request _) (.ite (fail_responds request _)
    (.ite (fail_responds request _) (atStop_responds request _ (.after (.perform rfl) fun d => ?_))))
  cases d.variablesByReference.get? request.arguments.variablesReference with
  | none => exact fail_responds request _
  | some container =>
    exact .ite (handleSetStructField_responds request container)
      (handleSetTopLevelVariable_responds request container)

theorem evaluate_quiet (id : SessionId) (context : Option FrameContext) (preferExpression : Bool)
    (expression : String) : Quiet (evaluate id context preferExpression expression) :=
  evaluate_allowed id context preferExpression rfl fun _ => rfl

theorem evaluateAtStop_responds (request : Request EvaluateArguments)
    (context : Option FrameContext) :
    Responds request.seq request.command (evaluateAtStop request context) :=
  .ite (sendResponse_responds request _) <| atStop_responds request _ <|
    .ite (fail_responds request _) <| .after requireDebuggerSession_silent fun id =>
      catching_responds request (.after (invoke_silent (evaluate_quiet id _ _ _).engaging) fun _ =>
        sendResponse_responds request _)

theorem handleEvaluateRequest_responds (request : Request EvaluateArguments) :
    Responds request.seq request.command (handleEvaluateRequest request) := by
  refine .ite (fail_responds request _) (.ite (fail_responds request _)
    (.ite (fail_responds request _) ?_))
  cases request.arguments.frameId with
  | none => exact evaluateAtStop_responds request _
  | some frameId =>
    refine .ite (fail_responds request _) (.after (.perform rfl) fun d => ?_)
    cases d.frameContexts.get? frameId with
    | none => exact fail_responds request _
    | some context => exact evaluateAtStop_responds request _

theorem handleSetExpressionRequest_responds (request : Request SetExpressionArguments) :
    Responds request.seq request.command (handleSetExpressionRequest request) := by
  refine .ite (fail_responds request _) (.ite (fail_responds request _) ?_)
  cases request.arguments.frameId with
  | none => exact fail_responds request _
  | some frameId =>
    refine .after (.perform rfl) fun d => ?_
    cases d.frameContexts.get? frameId with
    | none => exact fail_responds request _
    | some context =>
      exact atStop_responds request _ (catching_responds request
        (.after requireDebuggerSession_silent fun id => .after (invoke_silent
          (withThread_quiet id _ (Session.setLocalValue_quiet id _ _ _)).engaging) fun _ =>
            sendResponse_responds request _))

/-! ## Code, memory, modules -/

theorem handleDisassembleRequest_responds (request : Request DisassembleArguments) :
    Responds request.seq request.command (handleDisassembleRequest request) := by
  unfold handleDisassembleRequest
  cases tryReadDisassembleArguments request.arguments with
  | error message => exact fail_responds request _
  | ok a =>
    exact atStop_responds request _ (inSession_responds request _ fun _ =>
      catching_responds request (.after (readSessionDataOrDefault_silent (fun id =>
        invoke_silent (Session.disassemble_quiet id _ _ _ _).engaging) _) fun _ =>
          .after (readSessionDataOrDefault_silent (fun id =>
            .bind (invoke_silent (Session.getStackTrace_quiet id _).engaging) fun _ => .ret _) _)
              fun _ => sendResponse_responds request _))

theorem handleSourceRequest_responds (request : Request SourceArguments) :
    Responds request.seq request.command (handleSourceRequest request) := by
  unfold handleSourceRequest
  cases (request.arguments.source.bind Source.path).filter fun p => !Text.isBlank p with
  | none => exact fail_responds request _
  | some path =>
    refine .after (.perform rfl) fun content => ?_
    cases content with
    | none => exact fail_responds request _
    | some content => exact sendResponse_responds request _

theorem handleModulesRequest_responds (request : Request ModulesArguments) :
    Responds request.seq request.command (handleModulesRequest request) :=
  .ite (fail_responds request _) <| atStop_responds request _ <|
    inSession_responds request _ fun _ => catching_responds request
      (.after (readSessionDataOrDefault_silent (fun id =>
        invoke_silent (Session.getModules_quiet id).engaging) _) fun _ =>
          sendResponse_responds request _)

theorem handleReadMemoryRequest_responds (request : Request ReadMemoryArguments) :
    Responds request.seq request.command (handleReadMemoryRequest request) := by
  unfold handleReadMemoryRequest
  dsimp only
  cases referenceAddress request.arguments.memoryReference with
  | none => exact fail_responds request _
  | some reference =>
    refine .ite (fail_responds request _) ?_
    cases Text.tryApplyByteOffset reference (request.arguments.offset.getD 0) with
    | none => exact fail_responds request _
    | some address =>
      exact atStop_responds request _ (inSession_responds request _ fun _ =>
        catching_responds request (.after (readSessionDataOrDefault_silent (fun id =>
          invoke_silent (Session.readMemory_quiet id _ _).engaging) _) fun _ =>
            sendResponse_responds request _))

theorem handleWriteMemoryRequest_responds (request : Request WriteMemoryArguments) :
    Responds request.seq request.command (handleWriteMemoryRequest request) := by
  unfold handleWriteMemoryRequest
  dsimp only
  split
  · exact fail_responds request _
  · split
    · exact fail_responds request _
    · split
      · exact fail_responds request _
      · exact atStop_responds request _ (inSession_responds request _ fun _ =>
          catching_responds request (.after requireDebuggerSession_silent fun id =>
            .after (invoke_silent (Session.writeMemory_quiet id _ _).engaging) fun _ =>
              sendResponse_responds request _))

theorem handleExceptionInfoRequest_responds (request : Request ThreadArguments) :
    Responds request.seq request.command (handleExceptionInfoRequest request) := by
  refine atStop_responds request _ (inSession_responds request _ fun _ =>
    catching_responds request (.after requireDebuggerSession_silent fun id =>
      .after (invoke_silent (Session.getLastException_quiet id).engaging) fun e => ?_))
  cases e with
  | none => exact fail_responds request _
  | some e => exact sendResponse_responds request _

theorem handleDataBreakpointInfoRequest_responds (request : Request DataBreakpointInfoArguments) :
    Responds request.seq request.command (handleDataBreakpointInfoRequest request) := by
  refine .ite (fail_responds request _) (.after (.perform rfl) fun d => ?_)
  cases resolveDataBreakpointTarget request.arguments d with
  | error message => exact fail_responds request _
  | ok target =>
    exact inSession_responds request _ fun _ => catching_responds request
      (.after requireDebuggerSession_silent fun id => .after (invoke_silent
        (withThread_quiet id _ (Session.getSymbolAddress_quiet id _ _)).engaging) fun _ =>
          sendResponse_responds request _)

/-! ## Breakpoints -/

theorem updateConditionalBreakpointState_mute (sourcePath : String)
    (configured : List SourceBreakpointResult) (requested : List SourceBreakpoint) :
    Mute (updateConditionalBreakpointState sourcePath configured requested) :=
  updateConditionalBreakpointState_composed (Q := fun {_} p => Mute p) (.ret _)
    (fun hp hf => .bind hp hf) (.perform rfl) fun _ _ => .perform rfl

theorem configureSetBreakpoints_responds (request : Request SetBreakpointsArguments)
    (sourcePath : String) :
    Responds request.seq request.command (configureSetBreakpoints request sourcePath) := by
  refine .after requireDebuggerSession_silent fun id => .after (.perform rfl) fun resume => ?_
  have update : Silent (Exn.About request.seq request.command)
      (invoke .request (Session.setSourceBreakpoints id sourcePath
        ((((readRequestedSourceBreakpoints request.arguments).map parseSourceBreakpoint).filter
          fun p => p.spec.isSome).filterMap fun p => p.spec))) :=
    invoke_silent (Session.setSourceBreakpoints_quiet id _ _).engaging
  exact .ite
    (.after (applyBreakpointUpdateWhileRunning_silent id update) fun _ =>
      .after (.of_mute (updateConditionalBreakpointState_mute _ _ _)) fun _ =>
        (sendResponse_responds request _).before fun _ => .ite (.ret _) (sendEvent_mute _))
    (.after update fun _ => .after (.of_mute (updateConditionalBreakpointState_mute _ _ _))
      fun _ => (sendResponse_responds request _).before fun _ =>
        .ite (.ret _) (sendEvent_mute _))

theorem handleSetBreakpointsRequest_responds (request : Request SetBreakpointsArguments) :
    Responds request.seq request.command (handleSetBreakpointsRequest request) := by
  refine .ite (fail_responds request _) ?_
  cases request.arguments.source.path.filter fun p => !Text.isBlank p with
  | none => exact fail_responds request _
  | some sourcePath => exact configureSetBreakpoints_responds request sourcePath

theorem applyUpdate_responds {α β : Type} (request : Request α) (name : String)
    {update : SessionId → Dap β} (respond : β → Body) (h : ∀ id, Quiet (update id)) :
    Responds request.seq request.command (applyUpdate request name update respond) :=
  inSession_responds request _ fun _ => catching_responds request
    (.after requireDebuggerSession_silent fun id => .after (.perform rfl) fun _ => .ite
      (.after (applyBreakpointUpdateWhileRunning_silent id (invoke_silent (h id).engaging))
        fun _ => sendResponse_responds request _)
      (.after (invoke_silent (h id).engaging) fun _ => sendResponse_responds request _))

theorem handleSetFunctionBreakpointsRequest_responds (request : Request (List String)) :
    Responds request.seq request.command (handleSetFunctionBreakpointsRequest request) :=
  .ite (fail_responds request _) (applyUpdate_responds request _ _ fun id =>
    Session.setFunctionBreakpoints_quiet id _)

theorem handleSetInstructionBreakpointsRequest_responds
    (request : Request (List InstructionBreakpoint)) :
    Responds request.seq request.command (handleSetInstructionBreakpointsRequest request) := by
  unfold handleSetInstructionBreakpointsRequest
  cases request.arguments.mapM instructionAddress with
  | error message => exact fail_responds request _
  | ok addresses =>
    exact applyUpdate_responds request _ _ fun id => Session.setInstructionBreakpoints_quiet id _

theorem handleSetDataBreakpointsRequest_responds (request : Request (List DataBreakpoint)) :
    Responds request.seq request.command (handleSetDataBreakpointsRequest request) := by
  unfold handleSetDataBreakpointsRequest
  cases request.arguments.mapM dataBreakpointSpec with
  | error message => exact fail_responds request _
  | ok specs =>
    exact applyUpdate_responds request _ _ fun id => Session.setDataBreakpoints_quiet id _

theorem handleSetExceptionBreakpointsRequest_responds (request : Request (List String)) :
    Responds request.seq request.command (handleSetExceptionBreakpointsRequest request) :=
  applyUpdate_responds request _ _ fun id => Session.setCppFirstChanceBreak_quiet id _

/-! ## The session -/

theorem handleInitializeRequest_responds (request : Request Unit) :
    Responds request.seq request.command (handleInitializeRequest request) :=
  .after (.perform rfl) fun _ => .ite (fail_responds request _)
    ((sendResponse_responds request _).before fun _ => .bind (.perform rfl) fun _ =>
      sendEvent_mute _)

theorem connectTarget_silent {seq : Int} {command : String} {p : Dap Unit} (h : Engaging p) :
    Silent (Exn.About seq command) (connectTarget p) :=
  runWithSuppressedSessionEvents_silent (invoke_silent h)

theorem setDisconnectBehavior_mute (detach terminateDebuggee : Bool) :
    Mute (setDisconnectBehavior detach terminateDebuggee) :=
  .bind (.perform rfl) fun _ => .perform rfl

theorem awaitConfigurationDone_mute (stopAtEntry : Bool) :
    Mute (awaitConfigurationDone stopAtEntry) :=
  .bind (.perform rfl) fun _ => .bind (.perform rfl) fun _ =>
    .bind tryGetCurrentThreadId_mute fun _ => .perform rfl

theorem finishStart_responds {α : Type} (request : Request α) (name : String)
    (processId : Option Int) (startMethod : ProcessEventBodyStartMethod)
    (stop : Option (StoppedEventBodyReason × String)) :
    Responds request.seq request.command
      (finishStart request name processId startMethod stop) := by
  refine (sendResponse_responds request _).before fun _ => .bind (sendEvent_mute _) fun _ =>
    .bind (.perform rfl) fun _ => ?_
  cases stop with
  | none => exact .ret _
  | some stop => exact .bind tryGetCurrentThreadId_mute fun _ => sendEvent_mute _

theorem launchTarget_quiet (id : SessionId) (arguments : Json) (program : String) :
    Quiet (launchTarget id arguments program) := by
  unfold launchTarget
  cases (ArgumentReader.tryGetString arguments "connectionString").filter
      fun c => !Text.isBlank c with
  | some connectionString => exact Session.launchRemote_quiet id _ _ _ _
  | none => exact Session.launch_quiet id _ _ _

theorem startLaunch_responds (request : Request Unit) (arguments : Json)
    (program enginePath : String) :
    Responds request.seq request.command (startLaunch request arguments program enginePath) :=
  .after (createDebuggerSession_silent enginePath) fun id =>
    .after (applySessionConfiguration_silent id _) fun _ =>
      .after (connectTarget_silent (launchTarget_quiet id _ _).engaging) fun _ =>
        .after (.of_mute (awaitConfigurationDone_mute _)) fun _ =>
          .after (.of_mute (setDisconnectBehavior_mute _ _)) fun _ =>
            finishStart_responds request _ _ _ _

theorem handleLaunchRequest_responds (request : Request Unit) :
    Responds request.seq request.command (handleLaunchRequest request) := by
  refine .after (.perform rfl) fun d => .ite (fail_responds request _) ?_
  cases (ArgumentReader.tryGetString (ArgumentReader.getArguments d.currentRequestJson)
      "program").filter fun p => !Text.isBlank p with
  | none => exact fail_responds request _
  | some program =>
    refine .after (.of_mute (tryResolveDebuggerEnginePath_mute _)) fun enginePath => ?_
    cases enginePath with
    | none => exact fail_responds request _
    | some enginePath => exact startLaunch_responds request _ _ _

theorem attachKernelTarget_responds (request : Request Unit) (arguments : Json)
    (target : AttachTarget) (connectionString enginePath : String) :
    Responds request.seq request.command
      (attachKernelTarget request arguments target connectionString enginePath) :=
  .after (createDebuggerSession_silent enginePath) fun id =>
    .after (applySessionConfiguration_silent id _) fun _ =>
      .after (connectTarget_silent (Session.attachKernel_quiet id _).engaging) fun _ =>
        .after (.of_mute (setDisconnectBehavior_mute _ _)) fun _ => .after (.perform rfl) fun _ =>
          .after (.of_mute (awaitConfigurationDone_mute _)) fun _ =>
            finishStart_responds request _ _ _ _

theorem attachDumpFile_responds (request : Request Unit) (arguments : Json)
    (dumpFile enginePath : String) :
    Responds request.seq request.command
      (attachDumpFile request arguments dumpFile enginePath) :=
  .after (createDebuggerSession_silent enginePath) fun id =>
    .after (applySessionConfiguration_silent id _) fun _ =>
      .after (connectTarget_silent (Session.openDumpFile_quiet id _).engaging) fun _ =>
        .after (.of_mute (setDisconnectBehavior_mute _ _)) fun _ =>
          finishStart_responds request _ _ _ _

theorem pollForProcessId_silent {seq : Int} {command : String} (id : SessionId) (name : String) :
    ∀ rounds, Silent (Exn.About seq command) (pollForProcessId id name rounds)
  | 0 => invoke_silent (Session.tryFindProcessIdByExecutableName_quiet id name).engaging
  | rounds + 1 =>
    .bind (invoke_silent (Session.tryFindProcessIdByExecutableName_quiet id name).engaging)
      fun _ => .ite (.ret _) (.bind (.perform rfl) fun _ => .ite (.ret _)
        (.bind (.perform rfl) fun _ => pollForProcessId_silent id name rounds))

theorem findProcess_silent {seq : Int} {command : String} (id : SessionId) (target : AttachTarget)
    (processName : String) :
    Silent (Exn.About seq command) (findProcess id target processName) := by
  unfold findProcess
  cases target.connectionString with
  | none => exact .bind (pollForProcessId_silent id _ _) fun _ => .ret _
  | some connectionString =>
    exact .bind (connectTarget_silent (Session.connectProcessServer_quiet id _)) fun _ =>
      .bind (pollForProcessId_silent id _ _) fun _ => .ret _

theorem finishAttach_responds (request : Request Unit) (target : AttachTarget) (processId : Int) :
    Responds request.seq request.command (finishAttach request target processId) :=
  .after (.of_mute (awaitConfigurationDone_mute _)) fun _ =>
    .after (.of_mute (setDisconnectBehavior_mute _ _)) fun _ => finishStart_responds request _ _ _ _

theorem attachLiveTarget_responds (request : Request Unit) (arguments : Json)
    (target : AttachTarget) (enginePath : String) :
    Responds request.seq request.command
      (attachLiveTarget request arguments target enginePath) := by
  refine .after (createDebuggerSession_silent enginePath) fun id =>
    .after (applySessionConfiguration_silent id _) fun _ => ?_
  cases target.processId with
  | none =>
    refine .after (findProcess_silent id target _) fun found => ?_
    cases found with
    | none => exact fail_responds request _
    | some processId =>
      exact .after (connectTarget_silent (Session.attach_engaging id _)) fun _ =>
        finishAttach_responds request target _
  | some processId =>
    cases target.connectionString with
    | none =>
      exact .after (connectTarget_silent (Session.attach_engaging id _)) fun _ =>
        finishAttach_responds request target _
    | some connectionString =>
      exact .after (connectTarget_silent (Session.attachRemote_engaging id _ _)) fun _ =>
        finishAttach_responds request target _

theorem handleAttachRequest_responds (request : Request Unit) :
    Responds request.seq request.command (handleAttachRequest request) := by
  refine .after (.perform rfl) fun d =>
    .after (.of_mute (tryResolveDebuggerEnginePath_mute _)) fun enginePath => ?_
  cases enginePath with
  | none => exact fail_responds request _
  | some enginePath =>
    refine .ite ?_ ?_
    · split
      · exact fail_responds request _
      · exact attachKernelTarget_responds request _ _ _ _
    · split
      · exact attachDumpFile_responds request _ _ _
      · exact .ite (fail_responds request _) (attachLiveTarget_responds request _ _ _)

theorem terminateTarget_silent {seq : Int} {command : String} (id : SessionId) :
    Silent (Exn.About seq command) (terminateTarget id) :=
  .bind (.perform rfl) fun _ => .bind (.perform rfl) fun _ => .bind
    (.catching (invoke_silent (Session.terminateCurrentProcess_engaging id)) fun _ he =>
      .bind (.perform rfl) fun _ => .throw he) fun _ =>
        .bind (.perform rfl) fun _ => .ite (.ret _)
          (.of_mute (startWaitingForSessionEvent_mute id))

theorem handleTerminateRequest_responds (request : Request Unit) :
    Responds request.seq request.command (handleTerminateRequest request) := by
  refine .after (.perform rfl) fun s => ?_
  cases s with
  | none =>
    exact (sendResponse_responds request _).before fun _ => .bind (sendEvent_mute _) fun _ =>
      .perform rfl
  | some id => exact .after (terminateTarget_silent id) fun _ => sendResponse_responds request _

theorem tryInterrupt_mute (id : SessionId) : Mute (tryInterrupt id) :=
  .catching (interrupt_silent_of (F := fun _ => True) id fun _ => trivial) fun _ _ => .ret _

theorem resumeKernelTarget_silent (id : SessionId) :
    Silent (fun _ => True) (resumeKernelTarget id) := by
  have resume : Silent (fun _ => True) (do
      invoke .request (do
        Session.clearAllBreakpoints id
        Session.continue_ id)
      Prog.perform (.spawnPump id)
      Prog.perform (.sleep 400) : Dap Unit) :=
    .bind (invoke_silent_of (.bind (Session.clearAllBreakpoints_quiet id) fun _ =>
      Session.resume_engaging id _ _) fun _ => trivial) fun _ =>
        .bind (.perform rfl) fun _ => .perform rfl
  exact .bind (.perform rfl) fun _ => .ite
    (.bind (.of_mute (tryInterrupt_mute id)) fun _ => resume) resume

theorem disconnectKernelLeavingMachineRunning_mute (id : SessionId) :
    Mute (disconnectKernelLeavingMachineRunning id) :=
  .bind (.catching (resumeKernelTarget_silent id) fun _ _ => .ret _) fun _ =>
    .bind (.perform rfl) fun _ => .bind (.perform rfl) fun _ => .bind (.perform rfl) fun _ =>
      .bind (.perform rfl) fun _ => .perform rfl

theorem disconnectUserTarget_silent {seq : Int} {command : String} (id : SessionId)
    (terminateDebuggee : Option Bool) :
    Silent (Exn.About seq command) (disconnectUserTarget id terminateDebuggee) := by
  have rest : Silent (Exn.About seq command) (do
      let terminateOnDisconnect ← load .terminateDebuggeeOnDisconnect
      let detachOnDisconnect ← load .detachOnDisconnect
      if shouldDetachDebuggee terminateDebuggee terminateOnDisconnect detachOnDisconnect then
        invoke .request (Session.detachCurrentProcess id)
      else pure ()
      disposeDebuggerSession .request) :=
    .bind (.perform rfl) fun _ => .bind (.perform rfl) fun _ => .ite
      (.bind (invoke_silent (Session.detachCurrentProcess_quiet id).engaging) fun _ =>
        .of_mute disposeDebuggerSession_mute)
      (.of_mute disposeDebuggerSession_mute)
  exact .bind (.perform rfl) fun _ => .ite
    (.bind (.of_mute (tryInterrupt_mute id)) fun _ => .bind (.perform rfl) fun _ => rest) rest

theorem disconnectDebuggerSession_silent {seq : Int} {command : String}
    (terminateDebuggee : Option Bool) :
    Silent (Exn.About seq command) (disconnectDebuggerSession terminateDebuggee) := by
  refine .bind (.perform rfl) fun s => ?_
  cases s with
  | none => exact .ret _
  | some id =>
    exact .bind (.perform rfl) fun _ => .bind (.perform rfl) fun _ => .ite
      (.of_mute (disconnectKernelLeavingMachineRunning_mute id))
      (disconnectUserTarget_silent id terminateDebuggee)

theorem handleDisconnectRequest_responds (request : Request (Option DisconnectArguments)) :
    Responds request.seq request.command (handleDisconnectRequest request) := by
  have rest (shouldSendTerminatedEvent : Bool) : Responds request.seq request.command (do
      disconnectDebuggerSession (request.arguments.bind DisconnectArguments.terminateDebuggee)
      sendResponse request .empty
      if shouldSendTerminatedEvent then sendEvent .terminated else pure ()
      store .shouldExit true) :=
    .after (disconnectDebuggerSession_silent _) fun _ =>
      (sendResponse_responds request _).before fun _ => .ite
        (.bind (sendEvent_mute _) fun _ => .perform rfl) (.perform rfl)
  refine .after (.perform rfl) fun s => ?_
  cases s with
  | none => exact rest false
  | some id => exact .after (.perform rfl) fun _ => rest _

/-! ## Dispatch -/

/-- A message with type "request", an `int` sequence number and a command. -/
structure IsRequest (root : Json) (seq : Int) (command : String) : Prop where
  hasType : root.find "type" = some (.str "request")
  hasSeq : root.find "seq" = some (.int seq)
  range : -2 ^ 31 ≤ seq ∧ seq < 2 ^ 31
  hasCommand : root.find "command" = some (.str command)
  named : command ≠ ""

namespace IsRequest

variable {root : Json} {seq : Int} {command : String}

theorem wrap (h : IsRequest root seq command) : seq.bmod (2 ^ 32) = seq := by
  have hr := h.range
  simp only [Int.bmod]
  omega

theorem valueString {root : Json} {key s : String} (h : root.find key = some (.str s)) :
    Decoder.valueString key root = .ok s := by
  cases root with
  | obj members =>
    have h : Json.lookup key members = some (.str s) := h
    simp [Decoder.valueString, h, Decoder.string]
  | _ => cases h

/-- What every request struct starts with decodes, whatever the default command. -/
theorem requestHead (h : IsRequest root seq command) (name : String) :
    Decoder.requestHead name root = .ok { seq, command } := by
  have hs : root.member "seq" = some (.int seq) := by simp [Json.member, h.hasSeq]
  have ht : root.member "type" = some (.str "request") := by simp [Json.member, h.hasType]
  have hc : root.member "command" = some (.str command) := by simp [Json.member, h.hasCommand]
  have hi : Decoder.int32 (.int seq) = .ok seq := congrArg Except.ok h.wrap
  simp [Decoder.requestHead, Decoder.field, Decoder.check, Decoder.enum, Decoder.string, hs, ht,
    hc, hi, Bind.bind, Except.bind, Except.map, pure, Except.pure]

theorem tryGetSequence (h : IsRequest root seq command) :
    MessageInspector.tryGetSequence root = some seq := by
  rw [MessageInspector.tryGetSequence, h.hasSeq]
  exact congrArg some h.wrap

theorem tryGetCommand (h : IsRequest root seq command) :
    MessageInspector.tryGetCommand root = some command := by
  rw [MessageInspector.tryGetCommand, h.hasCommand]

end IsRequest

section

variable {root : Json} {seq : Int} {command : String} {α : Type}

theorem decodeRequest_head (h : IsRequest root seq command) {name : String} {dec : Decoder α}
    {request : Request α} (hr : decodeRequest name dec root = .ok request) :
    request.seq = seq ∧ request.command = command := by
  simp only [decodeRequest, h.requestHead, Bind.bind, Except.bind] at hr
  cases hd : dec ((root.member "arguments").getD (.obj [])) with
  | error e => rw [hd] at hr; cases hr
  | ok arguments => rw [hd] at hr; cases hr; exact ⟨rfl, rfl⟩

theorem decodeOptionalRequest_head (h : IsRequest root seq command) {name : String}
    {dec : Decoder α} {request : Request (Option α)}
    (hr : decodeOptionalRequest name dec root = .ok request) :
    request.seq = seq ∧ request.command = command := by
  simp only [decodeOptionalRequest, h.requestHead, Bind.bind, Except.bind] at hr
  cases hd : Decoder.opt "arguments" dec root with
  | error e => rw [hd] at hr; cases hr
  | ok arguments => rw [hd] at hr; cases hr; exact ⟨rfl, rfl⟩

theorem run_responds {dec : Decoder (Request α)} {handler : Request α → Dap Unit}
    (hd : ∀ {request}, dec root = .ok request → request.seq = seq ∧ request.command = command)
    (hh : ∀ request : Request α, request.seq = seq → request.command = command →
      Responds seq command (handler request)) : Responds seq command (run dec handler root) := by
  unfold run
  cases hr : dec root with
  | error what => exact .throw trivial
  | ok request => exact hh request (hd hr).1 (hd hr).2

theorem on_responds (h : IsRequest root seq command) (name : String) (dec : Decoder α)
    {handler : Request α → Dap Unit}
    (hh : ∀ request, Responds request.seq request.command (handler request)) :
    Responds seq command ((on name dec handler).2 root) :=
  run_responds (decodeRequest_head h) fun request hs hc => hs ▸ hc ▸ hh request

theorem refuse_responds (h : IsRequest root seq command) :
    Responds seq command ((refuse command).2 root) :=
  run_responds (decodeRequest_head h) fun _ hs _ => .throw ⟨hs, rfl⟩

theorem handlers_respond (h : IsRequest root seq command) :
    ∀ entry ∈ handlers, entry.1 = command → Responds seq command (entry.2 root) := by
  have disconnect : Responds seq command (run (decodeOptionalRequest "disconnect"
      Decoder.disconnectArguments) handleDisconnectRequest root) :=
    run_responds (decodeOptionalRequest_head h) fun request hs hc =>
      hs ▸ hc ▸ handleDisconnectRequest_responds request
  have refused (name : String) (hn : name = command) :
      Responds seq command ((refuse name).2 root) := by
    subst hn; exact refuse_responds h
  simp only [handlers, List.forall_mem_cons]
  exact ⟨fun _ => on_responds h _ _ handleAttachRequest_responds,
    fun _ => on_responds h _ _ handleConfigurationDoneRequest_responds,
    fun _ => on_responds h _ _ handleContinueRequest_responds,
    fun _ => on_responds h _ _ handleDataBreakpointInfoRequest_responds,
    fun _ => on_responds h _ _ handleDisassembleRequest_responds,
    fun _ => disconnect,
    fun _ => on_responds h _ _ handleEvaluateRequest_responds,
    fun _ => on_responds h _ _ handleExceptionInfoRequest_responds,
    fun _ => on_responds h _ _ handleInitializeRequest_responds,
    fun _ => on_responds h _ _ handleLaunchRequest_responds,
    fun _ => on_responds h _ _ handleModulesRequest_responds,
    fun _ => on_responds h _ _ handleNextRequest_responds,
    fun _ => on_responds h _ _ handlePauseRequest_responds,
    fun _ => on_responds h _ _ handleReadMemoryRequest_responds,
    fun _ => on_responds h _ _ handleScopesRequest_responds,
    fun _ => on_responds h _ _ handleSetBreakpointsRequest_responds,
    fun _ => on_responds h _ _ handleSetDataBreakpointsRequest_responds,
    fun _ => on_responds h _ _ handleSetExceptionBreakpointsRequest_responds,
    fun _ => on_responds h _ _ handleSetExpressionRequest_responds,
    fun _ => on_responds h _ _ handleSetFunctionBreakpointsRequest_responds,
    fun _ => on_responds h _ _ handleSetInstructionBreakpointsRequest_responds,
    fun _ => on_responds h _ _ handleSetVariableRequest_responds,
    fun _ => on_responds h _ _ handleSourceRequest_responds,
    fun _ => on_responds h _ _ handleStackTraceRequest_responds,
    fun _ => on_responds h _ _ handleStepInRequest_responds,
    fun _ => on_responds h _ _ handleStepOutRequest_responds,
    fun _ => on_responds h _ _ handleTerminateRequest_responds,
    fun _ => on_responds h _ _ handleThreadsRequest_responds,
    fun _ => on_responds h _ _ handleVariablesRequest_responds,
    fun _ => on_responds h _ _ handleWriteMemoryRequest_responds,
    refused _, refused _, refused _, refused _, refused _, refused _, refused _, refused _,
    refused _, refused _, refused _, refused _, refused _, refused _, refused _, by simp⟩

/-- A command without an entry is refused under its own name. -/
theorem handleUnknownRequest_eq (h : IsRequest root seq command) :
    handleUnknownRequest root = .throw (.unhandledRequest seq command) := by
  simp [handleUnknownRequest, run, decodeRequest, h.requestHead, noArguments, Bind.bind, Except.bind,
    pure, Except.pure]

theorem handle_eq (h : IsRequest root seq command) :
    handle root = ((handlers.lookup command).getD handleUnknownRequest) root := by
  simp [handle, IsRequest.valueString h.hasType, dispatchRequest, IsRequest.valueString h.hasCommand]

theorem handle_responds (h : IsRequest root seq command) :
    Responds seq command (handle root) := by
  rw [handle_eq h]
  cases hl : handlers.lookup command with
  | none => rw [Option.getD_none, handleUnknownRequest_eq h]; exact .throw ⟨rfl, rfl⟩
  | some handler => exact handlers_respond h (command, handler) (mem_of_lookup hl) rfl

/-! ## The catch clauses -/

/-- A request that failed is answered with an error, whatever the exception; the command that
stands for a missing one never fails this way. -/
theorem recover_responds (h : IsRequest root seq command) {e : Exn} (he : e.About seq command)
    (hu : command = "<unknown>" → e = .unhandledRequest seq command) (log : List Response) :
    (recover root e).wp logSpec (fun _ l => Answered seq command log l) (fun _ _ => False) log := by
  have report (hc : command ≠ "<unknown>") : reportFailure root e =
      sendErrorResponse seq command e.unwrapFailureMessage := by
    simp [reportFailure, h.tryGetSequence, h.tryGetCommand, h.named, hc]
  cases e with
  | unhandledRequest s c =>
    obtain ⟨rfl, rfl⟩ := he
    exact fun _ _ hl => ⟨_, hl, rfl, rfl⟩
  | runtime what =>
    change (reportFailure root _).wp _ _ _ _
    rw [report fun hc => by cases hu hc]
    exact fun _ _ hl => ⟨_, hl, rfl, rfl⟩
  | dispatcherFailure inner =>
    change (reportFailure root _).wp _ _ _ _
    rw [report fun hc => by cases hu hc]
    exact fun _ _ hl => ⟨_, hl, rfl, rfl⟩

theorem handle_recover_responds (h : IsRequest root seq command) (log : List Response) :
    ((handle root).catching (recover root)).wp logSpec (fun _ l => Answered seq command log l)
      (fun _ _ => False) log := by
  rw [wp_catching]
  by_cases hc : command = "<unknown>"
  · have hl : handlers.lookup command = none := by subst hc; decide +kernel
    rw [handle_eq h, hl, Option.getD_none, handleUnknownRequest_eq h]
    exact recover_responds (e := .unhandledRequest seq command) h ⟨rfl, rfl⟩ (fun _ => rfl) log
  · refine wp_mono (fun _ _ hl => hl) (fun e l he => ?_) (handle_responds h log)
    obtain ⟨rfl, he⟩ := he
    exact recover_responds h he (fun hc' => absurd hc' hc) l

/-- **One response**: however a request of any kind goes, it gets exactly one response, with its
sequence number and its command, and no exception leaves `handle_request`. -/
theorem handleRequest_responds_once (h : IsRequest root seq command)
    {es : List (Concurrent.Event DapOp)} {r : Except Exn Bool}
    (hp : Path (handleRequest root) es r) :
    (∃ response, responses es = [response] ∧ response.requestSeq = seq ∧
      response.command = command) ∧ ∃ shouldExit, r = .ok shouldExit := by
  have hw : (handleRequest root).wp logSpec (fun _ l => Answered seq command [] l)
      (fun _ _ => False) [] := by
    simp only [handleRequest, store, modifyTables, load, bind_eq, pure_eq, wp_bind, wp_perform,
      wp_ret, logSpec_pre, DapOp.responses, List.append_nil]
    refine fun _ _ _ => wp_mono_val (fun _ l hl => ?_) (handle_recover_responds h [])
    simp only [logSpec_pre, DapOp.responses, List.append_nil]
    exact fun _ _ => hl
  have ho := wp_path hp hw (runs_responses es [])
  cases r with
  | error e => exact ho.elim
  | ok shouldExit =>
    obtain ⟨response, hl, hs, hc⟩ := ho
    exact ⟨⟨response, by simpa using hl, hs, hc⟩, shouldExit, rfl⟩

end

/-- A `threads` request before any launch. -/
def threadsMessage : Json :=
  .obj [("seq", .int 7), ("type", .str "request"), ("command", .str "threads")]

theorem threadsMessage_isRequest : IsRequest threadsMessage 7 "threads" :=
  ⟨rfl, rfl, by decide, rfl, by decide⟩

/-- What the handler does when there is no session. -/
def threadsEvents : List (Concurrent.Event DapOp) :=
  [⟨.store .shouldExit false, ()⟩,
   ⟨.modify (fun d => ((), { d with currentRequestJson := threadsMessage })), ()⟩,
   ⟨.store .hasCurrentRequestJson true, ()⟩,
   ⟨.session, none⟩,
   ⟨.send (.response ⟨7, true, "threads", .threads []⟩), ()⟩,
   ⟨.load .shouldExit, false⟩,
   ⟨.store .hasCurrentRequestJson false, ()⟩]

theorem threadsEvents_path : Path (handleRequest threadsMessage) threadsEvents (.ok false) :=
  .op (.op (.op (.op (.op (.op (.op (.ret false)))))))

theorem threadsMessage_responds_once :
    ∃ response, responses threadsEvents = [response] ∧ response.requestSeq = 7 ∧
      response.command = "threads" :=
  (handleRequest_responds_once threadsMessage_isRequest threadsEvents_path).1

end Server

end DapDbgeng
