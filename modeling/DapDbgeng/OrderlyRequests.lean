/-
  The requests and the callbacks are orderly.

  * `Server.handleRequest_orderly`: what a message makes the request thread do; only a terminate
    request is licensed to end the target;
  * `Server.onCallback_orderly`: what an engine callback does; only one that reports the end of the
    session forgets the conditions of breakpoints.
-/
import DapDbgeng.Conduct

namespace DapDbgeng

open Concurrent Concurrent.Prog

namespace Server

section

variable {L : Licence} {α β : Type}

/-! ## What the handlers share -/

section

variable {side : Side}

theorem fail_orderly (request : Request α) (message : String) :
    Orderly L side (fail request message) := .perform trivial

theorem failUnwrapped_orderly (request : Request α) (e : Exn) :
    Orderly L side (failUnwrapped request e) := .perform trivial

theorem sendResponse_orderly (request : Request α) (body : Body) :
    Orderly L side (sendResponse request body) := .perform trivial

theorem requireDebuggerSession_orderly : Orderly L side requireDebuggerSession := by
  refine .bind (.perform trivial) fun session => ?_
  cases session
  · exact .throw _
  · exact .ret _

theorem resetLaunchConfigurationState_orderly : Orderly L side resetLaunchConfigurationState :=
  .bind (.perform trivial) fun _ => .bind (.perform trivial) fun _ =>
    .modifyTables fun _ => ⟨rfl, rfl⟩

theorem resetSuspendedState_orderly : Orderly L side resetSuspendedState :=
  .bind (.modifyTables fun _ => ⟨rfl, rfl⟩) fun _ => .perform trivial

theorem resetAfterDispose_orderly (h : side = .caller ∨ side = .callback ∧ L.ends) :
    Orderly L side resetAfterDispose :=
  .bind (.perform trivial) fun _ => .bind (.perform trivial) fun _ => .bind (.perform trivial)
    fun _ => .bind resetLaunchConfigurationState_orderly fun _ => .bind (.perform trivial) fun _ =>
      .bind (.perform trivial) fun _ => .bind (.clearConditions h) fun _ =>
          .bind resetSuspendedState_orderly fun _ => .bind (.perform trivial) fun _ =>
            .bind (.perform trivial) fun _ => .bind (.perform trivial) fun _ => .perform trivial

end

theorem tryGetCurrentThreadId_orderly : Orderly L .caller (tryGetCurrentThreadId .request) := by
  refine .bind (.perform trivial) fun session => ?_
  cases session with
  | none => exact .ret _
  | some id =>
    exact .catching (.bind (.dispatch (by rintro ⟨⟩) (Session.getCurrentThreadId_orderly id))
      fun _ => .ret _) fun _ => .ret _

/-- A function that the request thread passes to the dispatcher. -/
theorem invoke_orderly {p : Dap α} (h : Orderly L .dispatcher p) :
    Orderly L .caller (invoke .request p) := .dispatch (by rintro ⟨⟩) h

theorem sendStoppedEvent_orderly (reason : StoppedEventBodyReason) (description : String) :
    Orderly L .caller (sendStoppedEvent reason description) :=
  .bind tryGetCurrentThreadId_orderly fun _ => .perform trivial

/-! ### The session -/

theorem destroy_orderly (t : Tid) (ht : t ≠ .callback) (id : SessionId) :
    Orderly L .dispatcher (Session.destroy t id) :=
  .destroy id (by constructor <;> intro h <;> first | exact absurd h ht | cases h)

theorem disposeDebuggerSession_orderly : Orderly L .caller (disposeDebuggerSession .request) := by
  refine .bind (.perform trivial) fun session => ?_
  cases session with
  | none => exact resetAfterDispose_orderly (.inl rfl)
  | some id =>
    exact .bind (.catching (invoke_orderly (destroy_orderly _ (by rintro ⟨⟩) id)) fun _ => .ret _)
      fun _ => resetAfterDispose_orderly (.inl rfl)

theorem createDebuggerSession_orderly (enginePath : String) :
    Orderly L .caller (createDebuggerSession enginePath) :=
  .bind disposeDebuggerSession_orderly fun _ =>
    .bind (invoke_orderly (Session.create_orderly enginePath)) fun _ =>
      .bind (.perform trivial) fun _ => .ret _

theorem firstExisting_orderly : ∀ candidates, Orderly L .caller (firstExisting candidates)
  | [] => .ret _
  | _ :: rest => .bind (.perform trivial) fun _ => .ite (.ret _) (firstExisting_orderly rest)

theorem tryResolveDebuggerEnginePath_orderly (requested : Option String) :
    Orderly L .caller (tryResolveDebuggerEnginePath requested) := by
  unfold tryResolveDebuggerEnginePath
  cases requested.filter fun p => !Text.isBlank p with
  | some path => exact firstExisting_orderly _
  | none =>
    refine .bind (.perform trivial) fun base => .bind (firstExisting_orderly _) fun bundled => ?_
    cases bundled with
    | some path => exact .ret _
    | none =>
      have candidate (v : String) : Orderly L .caller (sdkCandidate v) :=
        .bind (.perform trivial) fun _ => .ret _
      exact .bind (.mapEach candidate _) fun _ => firstExisting_orderly _

theorem applySessionConfiguration_orderly (id : SessionId) (configuration : SessionConfiguration) :
    Orderly L .caller (applySessionConfiguration id configuration) := by
  obtain ⟨symbolPath, sourcePath⟩ := configuration
  have source (paths : List String) :
      Orderly L .caller (invoke .request (Session.setSourcePath id paths)) :=
    invoke_orderly (Session.setSourcePath_orderly id paths)
  refine .bind (invoke_orderly (Session.enableSourceLineSupport_orderly id)) fun _ => ?_
  cases symbolPath with
  | none =>
    cases sourcePath with
    | none => exact .ret _
    | some sources => exact source sources
  | some symbols =>
    refine .bind (invoke_orderly (Session.setSymbolPath_orderly id symbols)) fun _ => ?_
    cases sourcePath with
    | none => exact .ret _
    | some sources => exact source sources

theorem readSessionDataOrDefault_orderly {reader : SessionId → Dap α} {fallback : α}
    (h : ∀ id, Orderly L .caller (reader id)) :
    Orderly L .caller (readSessionDataOrDefault reader fallback) := by
  have unavailable : Orderly L .caller isSessionUnavailable :=
    .bind (.perform trivial) fun _ => .ite (.ret _) (.bind (.perform trivial) fun _ => .ret _)
  refine .bind (.perform trivial) fun session => ?_
  cases session with
  | none => exact .ret _
  | some id =>
    exact .bind (.perform trivial) fun _ => .ite (.ret _) <| .catching (h id) fun _ =>
      .bind unavailable fun _ => .ite (.ret _) (.throw _)

/-! ### The wait loop -/

theorem restoreSourceLineSteppingIfNeeded_orderly (t : Tid) (ht : t ≠ .callback) (id : SessionId) :
    Orderly L .caller (restoreSourceLineSteppingIfNeeded t id) :=
  .bind (.perform trivial) fun _ => .ite
    (.bind (.catching (.dispatch ht (Session.enableSourceLineStepping_orderly id))
      fun _ => .ret _) fun _ => .perform trivial) (.ret _)

theorem teardown_orderly : Orderly L .caller teardown :=
  .bind disposeDebuggerSession_orderly fun _ => .joinLoop

/-! ## Setting the target going and stopping it -/

theorem check_orderly (request : Request α) {c : Prop} [Decidable c] (message : String)
    {p : Dap Unit} (h : Orderly L .caller p) : Orderly L .caller (do
      if ← (if c then return true else do fail request message; return false) then p
      else return) :=
  .bind (.ite (.ret _) (.bind (fail_orderly request _) fun _ => .ret _)) fun _ =>
    .ite h (.ret _)

/-- A guard that refuses while the target runs. -/
theorem atStop_orderly {p q : Dap α} (hp : Orderly L .caller p) (hq : Orderly L .caller q) :
    Orderly L .caller (do if ← load .isExecutionRunning then p else q) :=
  .bind (.perform trivial) fun _ => .ite hp hq

theorem handleContinueRequest_orderly (request : Request ExecutionArguments) :
    Orderly L .caller (handleContinueRequest request) := by
  have target (id : SessionId) (threadId : Int) : Orderly L .caller (continueTarget id threadId) :=
    .catching (.bind (invoke_orderly (Session.setCurrentThread_orderly id _)) fun _ =>
      .bind (.perform trivial) fun _ => .bind (invoke_orderly (Session.continue_orderly id))
        fun _ => resetSuspendedState_orderly) fun _ => .bind (.perform trivial) fun _ => .throw _
  exact check_orderly request _ <| check_orderly request _ <|
    atStop_orderly (fail_orderly request _) <| .bind requireDebuggerSession_orderly fun id =>
      .bind (target id _) fun _ => .bind (sendResponse_orderly request _) fun _ =>
        .bind (.perform trivial) fun _ => .startLoop id

theorem prepareSteppingGranularity_orderly (id : SessionId)
    (granularity : Option SteppingGranularity) :
    Orderly L .caller (prepareSteppingGranularity id granularity) :=
  .ite (.bind (invoke_orderly (Session.enableInstructionStepping_orderly id)) fun _ =>
      .perform trivial)
    (.bind (invoke_orderly (Session.enableSourceLineStepping_orderly id)) fun _ =>
      .perform trivial)

theorem handleStep_orderly {kind : StepKind} (hk : ∀ id, Orderly L .dispatcher (kind.step id))
    (request : Request ExecutionArguments) : Orderly L .caller (handleStep kind request) := by
  refine atStop_orderly (fail_orderly request _) <|
    .bind requireDebuggerSession_orderly fun id => .bind ?_ fun _ => sendResponse_orderly request _
  refine .catching (.bind (invoke_orderly (Session.setCurrentThread_orderly id _)) fun _ =>
    .bind (prepareSteppingGranularity_orderly id _) fun _ => ?_) fun _ => ?_
  · exact .bind (.perform trivial) fun _ => .bind (.perform trivial) fun _ =>
      .bind (invoke_orderly (hk id)) fun _ => .bind resetSuspendedState_orderly
        fun _ => .startLoop id
  · exact .bind (.perform trivial) fun _ => .bind (.perform trivial) fun _ =>
      .bind (restoreSourceLineSteppingIfNeeded_orderly _ (by rintro ⟨⟩) id) fun _ => .throw _

theorem handleCheckedStep_orderly {kind : StepKind}
    (hk : ∀ id, Orderly L .dispatcher (kind.step id)) (request : Request ExecutionArguments) :
    Orderly L .caller (handleCheckedStep kind request) :=
  check_orderly request _ <| check_orderly request _ <| handleStep_orderly hk request

theorem handleStepInRequest_orderly (request : Request ExecutionArguments) :
    Orderly L .caller (handleStepInRequest request) :=
  check_orderly request _ <| check_orderly request _ <| check_orderly request _ <|
    handleStep_orderly (fun id => Session.resume_orderly id rfl _) request

theorem handlePauseRequest_orderly (request : Request ThreadArguments) :
    Orderly L .caller (handlePauseRequest request) := by
  have pause (id : SessionId) : Orderly L .caller (pauseTarget id) :=
    .catching (.bind resetSuspendedState_orderly fun _ => .bind (.perform trivial) fun _ =>
      .bind (Session.interrupt_orderly id) fun _ => .startLoop id)
      fun _ => .bind (.perform trivial) fun _ => .throw _
  exact check_orderly request _ <| atStop_orderly
    (.bind requireDebuggerSession_orderly fun id => .bind (pause id) fun _ =>
      sendResponse_orderly request _) (fail_orderly request _)

theorem continueAfterConfigurationDone_orderly :
    Orderly L .caller continueAfterConfigurationDone := by
  have resume (id : SessionId) (threadId : Int) :
      Orderly L .caller (resumeAfterConfigurationDone id threadId) :=
    .catching (.bind resetSuspendedState_orderly fun _ => .bind (.perform trivial) fun _ =>
      .bind (invoke_orderly (Session.continue_orderly id)) fun _ =>
        .bind (.perform trivial) fun _ => .startLoop id) fun _ => .perform trivial
  refine .bind (.perform trivial) fun session => ?_
  cases session with
  | none => exact .ret _
  | some id =>
    refine .bind (.perform trivial) fun _ => .ite (.ret _) <| .bind (.perform trivial) fun d =>
      .ite ?_ (.bind tryGetCurrentThreadId_orderly fun threadId => ?_)
    · cases d.launchThreadId with
      | none => exact .ret _
      | some threadId => exact resume id threadId
    · cases threadId with
      | none => exact .ret _
      | some threadId => exact resume id threadId

theorem handleConfigurationDoneRequest_orderly (request : Request Unit) :
    Orderly L .caller (handleConfigurationDoneRequest request) :=
  .bind (sendResponse_orderly request _) fun _ => .bind (.perform trivial) fun _ =>
    .bind (.perform trivial) fun _ => .ite
      (.bind continueAfterConfigurationDone_orderly fun _ => resetLaunchConfigurationState_orderly)
      resetLaunchConfigurationState_orderly

/-! ## Breakpoints -/

theorem applyBreakpointUpdateWhileRunning_orderly (id : SessionId) {update : Dap α}
    (hu : Orderly L .caller update) :
    Orderly L .caller (applyBreakpointUpdateWhileRunning id update) := by
  refine .bind (.suppressed ?_) fun _ => .bind (.startLoop id) fun _ => .ret _
  exact .bind (Session.interrupt_orderly id) fun _ => .bind .joinLoop fun _ =>
    .bind hu fun _ => .bind (.perform trivial) fun _ =>
      .bind (invoke_orderly (Session.continue_orderly id)) fun _ => .ret _

theorem handleSetBreakpointsRequest_orderly (h : L.records)
    (request : Request SetBreakpointsArguments) :
    Orderly L .caller (handleSetBreakpointsRequest request) := by
  have update (id : SessionId) (path : String) (specs : List SourceBreakpointSpec) :
      Orderly L .caller (invoke .request (Session.setSourceBreakpoints id path specs)) :=
    invoke_orderly (Session.setSourceBreakpoints_orderly id path specs)
  unfold handleSetBreakpointsRequest
  refine .ite (fail_orderly request _) ?_
  cases request.arguments.source.path.filter fun p => !Text.isBlank p with
  | none => exact fail_orderly request _
  | some sourcePath =>
    have finish (configured : List SourceBreakpointResult) (requested : List SourceBreakpoint)
        (body : Body) (c : Prop) [Decidable c] (message : String) :
        Orderly L .caller (do
          updateConditionalBreakpointState sourcePath configured requested
          sendResponse request body
          if c then return else sendEvent (Factory.createOutputEvent message .important)) :=
      .bind (.recordConditions h _ _ _) fun _ =>
        .bind (sendResponse_orderly request _) fun _ => .ite (.ret _) (.perform trivial)
    exact .bind requireDebuggerSession_orderly fun id => .bind (.perform trivial) fun _ =>
      .ite (.bind (applyBreakpointUpdateWhileRunning_orderly id (update id _ _)) fun _ =>
        finish _ _ _ _ _) (.bind (update id _ _) fun _ => finish _ _ _ _ _)

theorem applyUpdate_orderly (request : Request α) (name : String) {update : SessionId → Dap β}
    (hu : ∀ id, Orderly L .dispatcher (update id)) (respond : β → Body) :
    Orderly L .caller (applyUpdate request name update respond) := by
  refine .bind (.perform trivial) fun session => ?_
  cases session with
  | none => exact fail_orderly request _
  | some _ =>
    refine .catching (.bind requireDebuggerSession_orderly fun id => ?_)
      (failUnwrapped_orderly request)
    have apply : Orderly L .caller (invoke .request (update id)) := invoke_orderly (hu id)
    exact .bind (.perform trivial) fun _ => .ite
      (.bind (applyBreakpointUpdateWhileRunning_orderly id apply) fun _ =>
        sendResponse_orderly request _)
      (.bind apply fun _ => sendResponse_orderly request _)

theorem handleSetFunctionBreakpointsRequest_orderly (request : Request (List String)) :
    Orderly L .caller (handleSetFunctionBreakpointsRequest request) :=
  .ite (fail_orderly request _)
    (applyUpdate_orderly request _ (fun id => Session.setFunctionBreakpoints_orderly id _) _)

theorem handleSetInstructionBreakpointsRequest_orderly
    (request : Request (List InstructionBreakpoint)) :
    Orderly L .caller (handleSetInstructionBreakpointsRequest request) := by
  unfold handleSetInstructionBreakpointsRequest
  split
  · exact fail_orderly request _
  · exact applyUpdate_orderly request _
      (fun id => Session.setInstructionBreakpoints_orderly id _) _

theorem handleSetDataBreakpointsRequest_orderly (request : Request (List DataBreakpoint)) :
    Orderly L .caller (handleSetDataBreakpointsRequest request) := by
  unfold handleSetDataBreakpointsRequest
  split
  · exact fail_orderly request _
  · exact applyUpdate_orderly request _ (fun id => Session.setDataBreakpoints_orderly id _) _

theorem handleSetExceptionBreakpointsRequest_orderly (request : Request (List String)) :
    Orderly L .caller (handleSetExceptionBreakpointsRequest request) :=
  applyUpdate_orderly request _ (fun id => Session.setCppFirstChanceBreak_orderly id _) _

/-! ## Inspection -/

theorem handleThreadsRequest_orderly (request : Request Unit) :
    Orderly L .caller (handleThreadsRequest request) := by
  refine .bind (readSessionDataOrDefault_orderly fun id => .bind tryGetCurrentThreadId_orderly
    fun current => .bind (invoke_orderly (Session.getThreadIds_orderly id)) fun ids => ?_)
    fun _ => sendResponse_orderly request _
  split
  · exact .ret _
  · exact .throw _

theorem handleStackTraceRequest_orderly (request : Request StackTraceArguments) :
    Orderly L .caller (handleStackTraceRequest request) := by
  have details (id : SessionId) (threadId : Nat) (limit : Int) :
      Orderly L .caller (invoke .request (do
        Session.setCurrentThread id threadId
        Session.getStackTraceDetails id limit)) :=
    invoke_orderly <| .bind (Session.setCurrentThread_orderly id _) fun _ =>
      Session.getStackTraceDetails_orderly id _
  exact check_orderly request _ <| .bind (readSessionDataOrDefault_orderly fun id =>
    details id _ _) fun _ => .bind (.modifyTables fun _ => ⟨rfl, rfl⟩) fun _ =>
      sendResponse_orderly request _

theorem createVariablesReference_same (context : FrameContext) (kind : VariableContainerKind)
    (values : List Variable) (d : Tables) :
    d.SameConditions (createVariablesReference context kind values d).2 := by
  unfold createVariablesReference
  split <;> exact ⟨rfl, rfl⟩

mutual

theorem buildVariableTree_same (context : FrameContext) (parentEvaluateName : String) :
    ∀ (node : VariableNode) (d : Tables),
      d.SameConditions (buildVariableTree context parentEvaluateName node d).2
  | { name, value, type, isExpandable, address, size, children }, d => by
    unfold buildVariableTree
    dsimp only
    split
    · exact ⟨rfl, rfl⟩
    · exact (buildVariableTrees_same context _ children d).trans
        (createVariablesReference_same _ _ _ _)

theorem buildVariableTrees_same (context : FrameContext) (parentEvaluateName : String) :
    ∀ (nodes : List VariableNode) (d : Tables),
      d.SameConditions (buildVariableTrees context parentEvaluateName nodes d).2
  | [], d => by
    unfold buildVariableTrees
    exact ⟨rfl, rfl⟩
  | node :: rest, d => by
    unfold buildVariableTrees
    exact (buildVariableTree_same context _ node d).trans
      (buildVariableTrees_same context _ rest _)

end

theorem createScopes_spares (context : FrameContext) (locals : List VariableNode)
    (registers : List NamedValueInfo) : SparesConditions (createScopes context locals registers) :=
  fun d => (buildVariableTrees_same context _ locals d).trans <|
    (createVariablesReference_same _ _ _ _).trans (createVariablesReference_same _ _ _ _)

theorem handleScopesRequest_orderly (request : Request ScopesArguments) :
    Orderly L .caller (handleScopesRequest request) := by
  refine .ite (fail_orderly request _) (.bind (.perform trivial) fun d => ?_)
  cases d.frameContexts.get? request.arguments.frameId with
  | none => exact fail_orderly request _
  | some context =>
    refine .bind (readSessionDataOrDefault_orderly fun id => ?_) fun _ =>
      .bind (.perform (createScopes_spares _ _ _)) fun _ => sendResponse_orderly request _
    exact .bind (invoke_orderly (Session.getLocalsTree_orderly id _)) fun _ =>
      .bind (invoke_orderly (Session.getRegisters_orderly id _)) fun _ => .ret _

theorem handleVariablesRequest_orderly (request : Request VariablesArguments) :
    Orderly L .caller (handleVariablesRequest request) := by
  refine .ite (fail_orderly request _) (.bind (.perform trivial) fun d => ?_)
  cases d.variablesByReference.get? request.arguments.variablesReference with
  | none => exact fail_orderly request _
  | some container => exact sendResponse_orderly request _

theorem withThread_orderly (id : SessionId) (threadId : Int) {action : Dap α}
    (h : Orderly L .dispatcher action) : Orderly L .dispatcher (withThread id threadId action) :=
  .bind (Session.getCurrentThreadId_orderly id) fun _ => .catching
    (.bind (Session.setCurrentThread_orderly id _) fun _ => .bind h fun _ =>
      .bind (Session.setCurrentThread_orderly id _) fun _ => .ret _)
    fun _ => .bind (Session.setCurrentThread_orderly id _) fun _ => .throw _

/-- A command of the user, which may run callbacks. -/
theorem userCommand_orderly (id : SessionId) (command : Command) (suppress : Bool) :
    Orderly L .dispatcher (Session.executeCommandWithOutput id command suppress) :=
  Session.executeCommandWithOutput_orderly id (fun _ => rfl) suppress

theorem executeSet_orderly (id : SessionId) (kind : VariableContainerKind) :
    ∀ (commands : List Command) (lastFailure : Option String),
      Orderly L .dispatcher (executeSet id kind commands lastFailure)
  | [], _ => .throw _
  | command :: rest, _ => by
    refine .bind (Orderly.attempt (userCommand_orderly id command _)) fun r => ?_
    cases r with
    | ok _ => exact .ret _
    | error e => exact .ite (.throw _) (.ite (.throw _) (executeSet_orderly id kind rest _))

theorem assignVariable_orderly (id : SessionId) (container : VariableContainerContext)
    (name value : String) : Orderly L .dispatcher (assignVariable id container name value) := by
  have read : Orderly L .dispatcher (readVariables id container) :=
    .ite (.bind (Session.getLocals_orderly id _) fun _ => .ret _)
      (.bind (Session.getRegisters_orderly id _) fun _ => .ret _)
  refine .bind (executeSet_orderly id _ _ _) fun _ => .bind read fun refreshed => ?_
  cases refreshed.find? fun v => v.name = name
  · exact .throw _
  · exact .ret _

theorem evaluate_orderly (id : SessionId) (context : Option FrameContext) (preferExpression : Bool)
    (expression : String) :
    Orderly L .dispatcher (evaluate id context preferExpression expression) := by
  cases context with
  | none => exact userCommand_orderly id _ _
  | some c =>
    have asCommand : Orderly L .dispatcher (do
        let command ← createEvaluateCommand expression (some c.frameNumber)
        Session.executeCommandWithOutput id command) := by
      refine .bind ?_ fun _ => userCommand_orderly id _ _
      exact .ite (.throw _) (.ret _)
    refine withThread_orderly id _ (.ite (.bind (.catching
      (.bind (Session.getLocalValue_orderly id _ _) fun _ => .ret _) fun _ => .ret _)
      fun resolved => ?_) asCommand)
    cases resolved with
    | some value => exact .ret _
    | none => exact asCommand

theorem handleSetStructField_orderly (request : Request SetVariableArguments)
    (container : VariableContainerContext) :
    Orderly L .caller (handleSetStructField request container) := by
  unfold handleSetStructField
  dsimp only
  split
  · exact fail_orderly request _
  · exact .catching (.bind requireDebuggerSession_orderly fun id =>
      .bind (invoke_orderly (withThread_orderly id _
        (.bind (Session.setLocalValue_orderly id _ _ _) fun _ => .ret _))) fun _ =>
          .bind (.modifyTables fun _ => ⟨rfl, rfl⟩) fun _ => sendResponse_orderly request _)
      (failUnwrapped_orderly request)

theorem handleSetVariableRequest_orderly (request : Request SetVariableArguments) :
    Orderly L .caller (handleSetVariableRequest request) := by
  refine .ite (fail_orderly request _) <| .ite (fail_orderly request _) <|
    .ite (fail_orderly request _) <| atStop_orderly (fail_orderly request _) <|
      .bind (.perform trivial) fun d => ?_
  cases d.variablesByReference.get? request.arguments.variablesReference with
  | none => exact fail_orderly request _
  | some container =>
    exact .ite (handleSetStructField_orderly request container) <|
      .bind requireDebuggerSession_orderly fun id => .catching
        (.bind (invoke_orderly (withThread_orderly id _ (assignVariable_orderly id _ _ _)))
          fun _ => .bind (.modifyTables fun _ => ⟨rfl, rfl⟩) fun _ => sendResponse_orderly request _)
        (failUnwrapped_orderly request)

theorem evaluateAtStop_orderly (request : Request EvaluateArguments)
    (context : Option FrameContext) : Orderly L .caller (evaluateAtStop request context) :=
  .ite (sendResponse_orderly request _) <| atStop_orderly (fail_orderly request _) <|
    .ite (fail_orderly request _) <| .bind requireDebuggerSession_orderly fun id =>
      .catching (.bind (invoke_orderly (evaluate_orderly id _ _ _)) fun _ =>
        sendResponse_orderly request _) (failUnwrapped_orderly request)

theorem handleEvaluateRequest_orderly (request : Request EvaluateArguments) :
    Orderly L .caller (handleEvaluateRequest request) := by
  unfold handleEvaluateRequest
  refine .ite (fail_orderly request _) <| .ite (fail_orderly request _) <|
    .ite (fail_orderly request _) ?_
  cases request.arguments.frameId with
  | none => exact evaluateAtStop_orderly request none
  | some frameId =>
    refine .ite (fail_orderly request _) (.bind (.perform trivial) fun d => ?_)
    cases d.frameContexts.get? frameId with
    | none => exact fail_orderly request _
    | some context => exact evaluateAtStop_orderly request (some context)

theorem handleSetExpressionRequest_orderly (request : Request SetExpressionArguments) :
    Orderly L .caller (handleSetExpressionRequest request) := by
  unfold handleSetExpressionRequest
  refine .ite (fail_orderly request _) <| .ite (fail_orderly request _) ?_
  cases request.arguments.frameId with
  | none => exact fail_orderly request _
  | some frameId =>
    refine .bind (.perform trivial) fun d => ?_
    cases d.frameContexts.get? frameId with
    | none => exact fail_orderly request _
    | some context =>
      exact atStop_orderly (fail_orderly request _) <| .catching
        (.bind requireDebuggerSession_orderly fun id => .bind (invoke_orderly
          (withThread_orderly id _ (Session.setLocalValue_orderly id _ _ _))) fun _ =>
            sendResponse_orderly request _) (failUnwrapped_orderly request)

/-- A reader of session data for a request that needs a session at a stop. -/
theorem inSession_orderly (request : Request α) (message : String) {p : Dap Unit}
    (h : Orderly L .caller p) : Orderly L .caller (do
      match ← getSession with
      | none => fail request message
      | some _ => Prog.catching p (failUnwrapped request)) := by
  refine .bind (.perform trivial) fun session => ?_
  cases session with
  | none => exact fail_orderly request _
  | some _ => exact .catching h (failUnwrapped_orderly request)

theorem handleDisassembleRequest_orderly (request : Request DisassembleArguments) :
    Orderly L .caller (handleDisassembleRequest request) := by
  unfold handleDisassembleRequest
  cases tryReadDisassembleArguments request.arguments with
  | error message => exact fail_orderly request _
  | ok a =>
    refine atStop_orderly (fail_orderly request _) (inSession_orderly request _ ?_)
    refine .bind (readSessionDataOrDefault_orderly fun id =>
      invoke_orderly (Session.disassemble_orderly id _ _ _ _)) fun _ => ?_
    exact .bind (readSessionDataOrDefault_orderly fun id =>
      .bind (invoke_orderly (Session.getStackTrace_orderly id _)) fun _ => .ret _)
      fun _ => sendResponse_orderly request _

theorem handleSourceRequest_orderly (request : Request SourceArguments) :
    Orderly L .caller (handleSourceRequest request) := by
  unfold handleSourceRequest
  cases (request.arguments.source.bind Source.path).filter fun p => !Text.isBlank p with
  | none => exact fail_orderly request _
  | some path =>
    refine .bind (.perform trivial) fun content => ?_
    cases content with
    | none => exact fail_orderly request _
    | some content => exact sendResponse_orderly request _

theorem handleModulesRequest_orderly (request : Request ModulesArguments) :
    Orderly L .caller (handleModulesRequest request) :=
  .ite (fail_orderly request _) <| atStop_orderly (fail_orderly request _) <|
    inSession_orderly request _ <| .bind (readSessionDataOrDefault_orderly fun id =>
      invoke_orderly (Session.getModules_orderly id)) fun _ => sendResponse_orderly request _

theorem handleReadMemoryRequest_orderly (request : Request ReadMemoryArguments) :
    Orderly L .caller (handleReadMemoryRequest request) := by
  unfold handleReadMemoryRequest
  dsimp only
  cases referenceAddress request.arguments.memoryReference with
  | none => exact fail_orderly request _
  | some reference =>
    refine .ite (fail_orderly request _) ?_
    cases Text.tryApplyByteOffset reference (request.arguments.offset.getD 0) with
    | none => exact fail_orderly request _
    | some address =>
      exact atStop_orderly (fail_orderly request _) <| inSession_orderly request _ <|
        .bind (readSessionDataOrDefault_orderly fun id =>
          invoke_orderly (Session.readMemory_orderly id _ _)) fun _ =>
            sendResponse_orderly request _

theorem handleWriteMemoryRequest_orderly (request : Request WriteMemoryArguments) :
    Orderly L .caller (handleWriteMemoryRequest request) := by
  unfold handleWriteMemoryRequest
  dsimp only
  cases referenceAddress request.arguments.memoryReference with
  | none => exact fail_orderly request _
  | some reference =>
    dsimp only
    cases Text.tryBase64Decode request.arguments.data with
    | none => exact fail_orderly request _
    | some bytes =>
      dsimp only
      cases Text.tryApplyByteOffset reference (request.arguments.offset.getD 0) with
      | none => exact fail_orderly request _
      | some address =>
        exact atStop_orderly (fail_orderly request _) <| inSession_orderly request _ <|
          .bind requireDebuggerSession_orderly fun id =>
            .bind (invoke_orderly (Session.writeMemory_orderly id _ _)) fun _ =>
              sendResponse_orderly request _

theorem handleExceptionInfoRequest_orderly (request : Request ThreadArguments) :
    Orderly L .caller (handleExceptionInfoRequest request) := by
  refine atStop_orderly (fail_orderly request _) <| inSession_orderly request _ <|
    .bind requireDebuggerSession_orderly fun id =>
      .bind (invoke_orderly (.bind (.perform trivial) fun _ => .ret _)) fun info => ?_
  cases info with
  | none => exact fail_orderly request _
  | some e => exact sendResponse_orderly request _

theorem handleDataBreakpointInfoRequest_orderly (request : Request DataBreakpointInfoArguments) :
    Orderly L .caller (handleDataBreakpointInfoRequest request) := by
  refine .ite (fail_orderly request _) (.bind (.perform trivial) fun d => ?_)
  cases resolveDataBreakpointTarget request.arguments d with
  | error message => exact fail_orderly request _
  | ok target =>
    exact inSession_orderly request _ <| .bind requireDebuggerSession_orderly fun id =>
      .bind (invoke_orderly (withThread_orderly id _
        (Session.getSymbolAddress_orderly id _ _))) fun _ => sendResponse_orderly request _

/-! ## Beginning and ending a session -/

theorem finishStart_orderly (request : Request α) (name : String) (processId : Option Int)
    (startMethod : ProcessEventBodyStartMethod) (stop : Option (StoppedEventBodyReason × String)) :
    Orderly L .caller (finishStart request name processId startMethod stop) := by
  refine .bind (sendResponse_orderly request _) fun _ => .bind (.perform trivial) fun _ =>
    .bind (.perform trivial) fun _ => ?_
  cases stop with
  | none => exact .ret _
  | some stop => exact sendStoppedEvent_orderly _ _

theorem connectTarget_orderly {p : Dap Unit} (h : Orderly L .dispatcher p) :
    Orderly L .caller (connectTarget p) := .suppressed (invoke_orderly h)

theorem awaitConfigurationDone_orderly (stopAtEntry : Bool) :
    Orderly L .caller (awaitConfigurationDone stopAtEntry) :=
  .bind (.perform trivial) fun _ => .bind (.perform trivial) fun _ =>
    .bind tryGetCurrentThreadId_orderly fun _ => .modifyTables fun _ => ⟨rfl, rfl⟩

theorem setDisconnectBehavior_orderly (detach terminateDebuggee : Bool) :
    Orderly L .caller (setDisconnectBehavior detach terminateDebuggee) :=
  .bind (.perform trivial) fun _ => .perform trivial

theorem launchTarget_orderly (id : SessionId) (arguments : Json) (program : String) :
    Orderly L .dispatcher (launchTarget id arguments program) := by
  unfold launchTarget
  cases (ArgumentReader.tryGetString arguments "connectionString").filter
      fun c => !Text.isBlank c with
  | some connectionString => exact Session.launchRemote_orderly id _ _ _ _
  | none => exact Session.launch_orderly id _ _ _

theorem handleLaunchRequest_orderly (request : Request Unit) :
    Orderly L .caller (handleLaunchRequest request) := by
  have start (arguments : Json) (program enginePath : String) :
      Orderly L .caller (startLaunch request arguments program enginePath) :=
    .bind (createDebuggerSession_orderly enginePath) fun id =>
      .bind (applySessionConfiguration_orderly id _) fun _ =>
        .bind (connectTarget_orderly (launchTarget_orderly id _ _)) fun _ =>
          .bind (awaitConfigurationDone_orderly _) fun _ =>
            .bind (setDisconnectBehavior_orderly _ _) fun _ => finishStart_orderly request _ _ _ _
  refine .bind (.perform trivial) fun d => .ite (fail_orderly request _) ?_
  split
  · exact fail_orderly request _
  · refine .bind (tryResolveDebuggerEnginePath_orderly _) fun enginePath => ?_
    cases enginePath with
    | none => exact fail_orderly request _
    | some enginePath => exact start _ _ _

theorem pollForProcessId_orderly (id : SessionId) (executableName : String) (rounds : Nat) :
    Orderly L .caller (pollForProcessId id executableName rounds) := by
  have find : Orderly L .caller (invoke .request
      (Session.tryFindProcessIdByExecutableName id executableName)) :=
    invoke_orderly (Session.tryFindProcessIdByExecutableName_orderly id _)
  induction rounds with
  | zero => exact find
  | succ rounds ih =>
    exact .bind find fun _ => .ite (.ret _) <| .bind (.perform trivial) fun _ =>
      .ite (.ret _) <| .bind (.perform trivial) fun _ => ih

theorem findProcess_orderly (id : SessionId) (target : AttachTarget) (processName : String) :
    Orderly L .caller (findProcess id target processName) := by
  unfold findProcess
  cases target.connectionString with
  | none => exact .bind (pollForProcessId_orderly id _ _) fun _ => .ret _
  | some connectionString =>
    exact .bind (connectTarget_orderly (Session.connectProcessServer_orderly id _)) fun _ =>
      .bind (pollForProcessId_orderly id _ _) fun _ => .ret _

theorem attachLiveTarget_orderly (request : Request Unit) (arguments : Json)
    (target : AttachTarget) (enginePath : String) :
    Orderly L .caller (attachLiveTarget request arguments target enginePath) := by
  have finish (processId : Int) : Orderly L .caller (finishAttach request target processId) :=
    .bind (awaitConfigurationDone_orderly _) fun _ =>
      .bind (setDisconnectBehavior_orderly _ _) fun _ => finishStart_orderly request _ _ _ _
  have attach (id : SessionId) (processId : Int) :
      Orderly L .caller (connectTarget (Session.attach id processId)) :=
    connectTarget_orderly (Session.attach_orderly id _)
  refine .bind (createDebuggerSession_orderly enginePath) fun id =>
    .bind (applySessionConfiguration_orderly id _) fun _ => ?_
  cases target.processId with
  | none =>
    refine .bind (findProcess_orderly id _ _) fun found => ?_
    cases found with
    | none => exact fail_orderly request _
    | some processId => exact .bind (attach id _) fun _ => finish _
  | some processId =>
    dsimp only
    cases target.connectionString with
    | none => exact .bind (attach id _) fun _ => finish _
    | some connectionString =>
      exact .bind (connectTarget_orderly (Session.attachRemote_orderly id _ _)) fun _ => finish _

theorem attachKernelTarget_orderly (h : L.opensKernel) (hL : ∀ id, ¬L.users id)
    (request : Request Unit) (arguments : Json) (target : AttachTarget)
    (connectionString enginePath : String) :
    Orderly L .caller (attachKernelTarget request arguments target connectionString enginePath) :=
  .bind (createDebuggerSession_orderly enginePath) fun id =>
    .bind (applySessionConfiguration_orderly id _) fun _ =>
      .bind (connectTarget_orderly (Session.attachKernel_orderly id h hL _)) fun _ =>
        .bind (setDisconnectBehavior_orderly _ _) fun _ => .bind (.perform trivial) fun _ =>
          .bind (awaitConfigurationDone_orderly _) fun _ => finishStart_orderly request _ _ _ _

theorem attachDumpFile_orderly (request : Request Unit) (arguments : Json)
    (dumpFile enginePath : String) :
    Orderly L .caller (attachDumpFile request arguments dumpFile enginePath) :=
  .bind (createDebuggerSession_orderly enginePath) fun id =>
    .bind (applySessionConfiguration_orderly id _) fun _ =>
      .bind (connectTarget_orderly (Session.openDumpFile_orderly id _)) fun _ =>
        .bind (setDisconnectBehavior_orderly _ _) fun _ => finishStart_orderly request _ _ _ _

theorem handleAttachRequest_orderly (h : L.opensKernel) (hL : ∀ id, ¬L.users id)
    (request : Request Unit) : Orderly L .caller (handleAttachRequest request) := by
  refine .bind (.perform trivial) fun d => .bind (tryResolveDebuggerEnginePath_orderly _)
    fun enginePath => ?_
  cases enginePath with
  | none => exact fail_orderly request _
  | some enginePath =>
    dsimp only
    split
    · split
      · exact fail_orderly request _
      · exact attachKernelTarget_orderly h hL request _ _ _ _
    · split
      · exact attachDumpFile_orderly request _ _ _
      · exact .ite (fail_orderly request _) (attachLiveTarget_orderly request _ _ _)

theorem handleTerminateRequest_orderly (hL : L.terminates) (request : Request Unit) :
    Orderly L .caller (handleTerminateRequest request) := by
  have terminate (id : SessionId) : Orderly L .caller (terminateTarget id) :=
    .bind (.perform trivial) fun _ => .bind (.perform trivial) fun _ =>
      .bind (.catching (invoke_orderly (Session.terminateCurrentProcess_orderly id hL)) fun _ =>
        .bind (.perform trivial) fun _ => .throw _) fun _ =>
          .bind (.perform trivial) fun _ => .ite (.ret _) (.startLoop id)
  refine .bind (.perform trivial) fun session => ?_
  cases session with
  | none =>
    exact .bind (sendResponse_orderly request _) fun _ => .bind (.perform trivial) fun _ =>
      .perform trivial
  | some id => exact .bind (terminate id) fun _ => sendResponse_orderly request _

theorem disconnectKernelLeavingMachineRunning_orderly (id : SessionId) :
    Orderly L .caller (disconnectKernelLeavingMachineRunning id) := by
  have resume : Orderly L .caller (do
      invoke .request (do
        Session.clearAllBreakpoints id
        Session.continue_ id)
      Prog.perform (.spawnPump id)
      Prog.perform (.sleep 400)) :=
    .bind (invoke_orderly (.bind (Session.clearAllBreakpoints_orderly id) fun _ =>
      Session.continue_orderly id)) fun _ => .bind (.perform trivial) fun _ => .perform trivial
  have interrupt : Orderly L .caller (tryInterrupt id) :=
    .catching (Session.interrupt_orderly id) fun _ => .ret _
  exact .bind (.catching (.bind (.perform trivial) fun _ =>
      .ite (.bind interrupt fun _ => resume) resume) fun _ => .ret _) fun _ =>
    .bind (.perform trivial) fun _ => .bind (.perform trivial) fun _ => .bind (.perform trivial)
      fun _ => .bind (.perform trivial) fun _ => .perform trivial

theorem disconnectUserTarget_orderly {id : SessionId} (hL : L.users id)
    (terminateDebuggee : Option Bool) :
    Orderly L .caller (disconnectUserTarget id terminateDebuggee) := by
  have detach : Orderly L .caller (invoke .request (Session.detachCurrentProcess id)) :=
    invoke_orderly (Session.detachCurrentProcess_orderly id hL)
  have rest : Orderly L .caller (do
      let terminateOnDisconnect ← load .terminateDebuggeeOnDisconnect
      let detachOnDisconnect ← load .detachOnDisconnect
      if shouldDetachDebuggee terminateDebuggee terminateOnDisconnect detachOnDisconnect then
        invoke .request (Session.detachCurrentProcess id)
      else pure ()
      disposeDebuggerSession .request) :=
    .bind (.perform trivial) fun _ => .bind (.perform trivial) fun _ => .ite
      (.bind detach fun _ => disposeDebuggerSession_orderly) disposeDebuggerSession_orderly
  have interrupt : Orderly L .caller (tryInterrupt id) :=
    .catching (Session.interrupt_orderly id) fun _ => .ret _
  exact .bind (.perform trivial) fun _ => .ite
    (.bind interrupt fun _ => .bind (.perform trivial) fun _ => rest) rest

theorem handleDisconnectRequest_orderly (request : Request (Option DisconnectArguments)) :
    Orderly L .caller (handleDisconnectRequest request) := by
  have disconnect (terminateDebuggee : Option Bool) :
      Orderly L .caller (disconnectDebuggerSession terminateDebuggee) := by
    refine .bind (.perform trivial) fun session => ?_
    cases session with
    | none => exact .ret _
    | some id =>
      exact .bind (.perform trivial) fun _ =>
        .byKind (disconnectKernelLeavingMachineRunning_orderly id)
          (disconnectUserTarget_orderly (Or.inl rfl) _)
  have rest (shouldSendTerminatedEvent : Bool) : Orderly L .caller (do
      disconnectDebuggerSession (request.arguments.bind DisconnectArguments.terminateDebuggee)
      sendResponse request .empty
      if shouldSendTerminatedEvent then sendEvent .terminated else pure ()
      store .shouldExit true) :=
    .bind (disconnect _) fun _ => .bind (sendResponse_orderly request _) fun _ => .ite
      (.bind (.perform trivial) fun _ => .perform trivial) (.perform trivial)
  refine .bind (.perform trivial) fun session => ?_
  cases session with
  | none => exact rest false
  | some id => exact .bind (.perform trivial) fun _ => rest _

/-! ## Dispatch -/

section

variable {root : Json}

/-- Only an attach request may open a kernel, only a terminate request may end the target, and only
a setBreakpoints request records conditions. -/
def commandLicence (command : String) : Licence where
  opensKernel := command = "attach"
  terminates := command = "terminate"
  records := command = "setBreakpoints"

theorem run_orderly {dec : Decoder (Request α)} {handler : Request α → Dap Unit}
    (h : ∀ request, Orderly L .caller (handler request)) :
    Orderly L .caller (run dec handler root) := by
  unfold run
  split
  · exact .throw _
  · exact h _

theorem on_orderly (name : String) (dec : Decoder α) {handler : Request α → Dap Unit}
    (h : ∀ request, Orderly L .caller (handler request)) :
    Orderly L .caller ((on name dec handler).2 root) := run_orderly h

theorem refuse_orderly (name : String) : Orderly L .caller ((refuse name).2 root) :=
  run_orderly fun _ => .throw _

theorem handlers_orderly :
    ∀ entry ∈ handlers, Orderly (commandLicence entry.1) .caller (entry.2 root) := by
  simp only [handlers, List.forall_mem_cons]
  exact ⟨on_orderly _ _ (handleAttachRequest_orderly rfl fun _ h => h),
    on_orderly _ _ handleConfigurationDoneRequest_orderly,
    on_orderly _ _ handleContinueRequest_orderly,
    on_orderly _ _ handleDataBreakpointInfoRequest_orderly,
    on_orderly _ _ handleDisassembleRequest_orderly,
    run_orderly handleDisconnectRequest_orderly,
    on_orderly _ _ handleEvaluateRequest_orderly,
    on_orderly _ _ handleExceptionInfoRequest_orderly,
    on_orderly _ _ .handleInitialize,
    on_orderly _ _ handleLaunchRequest_orderly,
    on_orderly _ _ handleModulesRequest_orderly,
    on_orderly _ _ (handleCheckedStep_orderly fun id => Session.resume_orderly id rfl _),
    on_orderly _ _ handlePauseRequest_orderly,
    on_orderly _ _ handleReadMemoryRequest_orderly,
    on_orderly _ _ handleScopesRequest_orderly,
    on_orderly _ _ (handleSetBreakpointsRequest_orderly rfl),
    on_orderly _ _ handleSetDataBreakpointsRequest_orderly,
    on_orderly _ _ handleSetExceptionBreakpointsRequest_orderly,
    on_orderly _ _ handleSetExpressionRequest_orderly,
    on_orderly _ _ handleSetFunctionBreakpointsRequest_orderly,
    on_orderly _ _ handleSetInstructionBreakpointsRequest_orderly,
    on_orderly _ _ handleSetVariableRequest_orderly,
    on_orderly _ _ handleSourceRequest_orderly,
    on_orderly _ _ handleStackTraceRequest_orderly,
    on_orderly _ _ handleStepInRequest_orderly,
    on_orderly _ _ (handleCheckedStep_orderly fun id => Session.resume_orderly id rfl _),
    on_orderly _ _ (handleTerminateRequest_orderly rfl),
    on_orderly _ _ handleThreadsRequest_orderly,
    on_orderly _ _ handleVariablesRequest_orderly,
    on_orderly _ _ handleWriteMemoryRequest_orderly,
    refuse_orderly _, refuse_orderly _, refuse_orderly _, refuse_orderly _, refuse_orderly _,
    refuse_orderly _, refuse_orderly _, refuse_orderly _, refuse_orderly _, refuse_orderly _,
    refuse_orderly _, refuse_orderly _, refuse_orderly _, refuse_orderly _, refuse_orderly _,
    by simp⟩

theorem recover_orderly (e : Exn) : Orderly L .caller (recover root e) := by
  have report (e : Exn) : Orderly L .caller (reportFailure root e) := by
    unfold reportFailure
    split
    · exact .ite (.ret _) (.perform trivial)
    · exact .ret _
  cases e with
  | unhandledRequest seq command => exact .perform trivial
  | _ => exact report _

/-- What a message makes the handler of its command do. -/
theorem handle_orderly : Orderly (commandLicence (requestCommand root)) .caller (handle root) := by
  have dispatched :
      Orderly (commandLicence (requestCommand root)) .caller (dispatchRequest root) := by
    unfold dispatchRequest requestCommand
    cases hc : Decoder.valueString "command" root with
    | error what => exact .throw _
    | ok command =>
      dsimp only
      cases hl : handlers.lookup command with
      | none => exact run_orderly fun _ => .throw _
      | some handler => exact handlers_orderly (command, handler) (mem_of_lookup hl)
  unfold handle
  split
  · exact .throw _
  · exact .ite dispatched (.ite (.ret _) (.throw _))

theorem handleRequest_orderly :
    Orderly (commandLicence (requestCommand root)) .caller (handleRequest root) :=
  .bind (.perform trivial) fun _ => .bind (.modifyTables fun _ => ⟨rfl, rfl⟩) fun _ =>
    .bind (.perform trivial) fun _ => .bind (.catching handle_orderly recover_orderly) fun _ =>
      .bind (.perform trivial) fun _ => .bind (.perform trivial) fun _ => .ret _

end

/-! ## Callbacks -/

section

variable {id : SessionId}

theorem tryGetCurrentThreadId_onCallback :
    Orderly L .callback (tryGetCurrentThreadId .callback) := by
  refine .bind (.perform trivial) fun session => ?_
  cases session with
  | none => exact .ret _
  | some id =>
    exact .catching (.bind (.inPlace (Session.getCurrentThreadId_orderly id)) fun _ => .ret _)
      fun _ => .ret _

theorem sendThreadEvent_orderly (e : ThreadEvent) : Orderly L .callback (sendThreadEvent e) :=
  .perform trivial

theorem flushPendingThreadEvents_orderly : Orderly L .callback flushPendingThreadEvents :=
  .bind (.perform trivial) fun events => .forEach sendThreadEvent_orderly events

theorem queueThreadEvent_orderly (reason : ThreadEventBodyReason) :
    Orderly L .callback (queueThreadEvent reason) := by
  refine .bind tryGetCurrentThreadId_onCallback fun threadId => ?_
  cases threadId with
  | none => exact .ret _
  | some threadId =>
    have report (held : Bool) : Orderly L .callback (if held then
        Prog.perform (.pushThreadEvent { reason, threadId })
        else sendThreadEvent { reason, threadId } : Dap Unit) :=
      .ite (.perform trivial) (sendThreadEvent_orderly _)
    exact .bind (.perform trivial) fun _ => .ite (report true) (.bind (.perform trivial) report)

theorem autoContinue_orderly : Orderly L .callback (autoContinue id) :=
  .bind resetSuspendedState_orderly fun _ => .bind (.perform trivial)
    fun _ => .bind (.perform trivial) fun _ => .bind (.perform trivial) fun _ =>
      .bind (.perform trivial) fun _ => Session.continue_orderly id

theorem recordStop_orderly {record : Dap Unit} (h : Orderly L .callback record) :
    Orderly L .callback (recordStop record) :=
  .bind (.bind (.perform trivial) fun _ => .ret _) fun _ => .ite (.ret _) <|
    .bind (.perform trivial) fun _ => .bind (.perform trivial) fun _ =>
      .bind (.perform trivial) fun _ => .ite (.perform trivial) h

theorem onBreakpointHit_orderly (breakpointId : Nat) :
    Orderly L .callback (onBreakpointHit id breakpointId) := by
  have evaluated (condition : String) :
      Orderly L .callback (tryEvaluateConditionalBreakpoint id condition) :=
    .catching (.bind (Session.ownCommand_orderly id rfl _) fun _ => .ret _) fun _ => .ret _
  have auto : Orderly L .callback (tryAutoContinueConditionalBreakpointHit id breakpointId) := by
    refine .bind (.perform trivial) fun d => ?_
    cases d.conditionalBreakpointConditionsById.get? (Factory.toInt32 breakpointId) with
    | none => exact .ret _
    | some condition =>
      exact .bind (evaluated condition) fun _ => .ite (.ret _)
        (.bind autoContinue_orderly fun _ => .ret _)
  exact .bind auto fun _ => .ite (.ret _) (recordStop_orderly (.perform trivial))

theorem onExceptionHit_orderly (exceptionCode : Nat) :
    Orderly L .callback (onExceptionHit id exceptionCode) := by
  have auto : Orderly L .callback (tryAutoContinueKernelInitialBreak id) :=
    .bind (.perform trivial) fun _ => .ite (.ret _) <| .bind (.perform trivial) fun _ =>
      .ite (.ret _) <| .bind (.perform trivial) fun _ =>
        .bind autoContinue_orderly fun _ => .ret _
  exact .bind auto fun _ => .ite (.ret _) <| recordStop_orderly <|
    .bind (.perform trivial) fun _ => .ite (.ret _) (.perform trivial)

theorem onBreakHit_orderly : Orderly L .callback onBreakHit := by
  refine .bind (.perform trivial) fun _ => .ite (.perform trivial) <| .bind (.perform trivial)
    fun _ => .bind (.perform trivial) fun _ => .bind (.perform trivial) fun pending =>
      .bind (.perform trivial) fun _ => .ite (.ret _) ?_
  cases pending with
  | none => exact .ret _
  | some p =>
    exact .bind flushPendingThreadEvents_orderly fun _ =>
      .bind tryGetCurrentThreadId_onCallback fun _ => .perform trivial

theorem disposeDebuggerSession_onCallback (h : L.ends) :
    Orderly L .callback (disposeDebuggerSession .callback) := by
  have release (id : SessionId) : Orderly L .callback (releaseSession .callback id) := by
    refine .bind (.perform trivial) fun old => ?_
    cases old with
    | none => exact .ret _
    | some old => exact .destroy old (iff_of_true rfl rfl)
  refine .bind (.perform trivial) fun session => ?_
  cases session with
  | none => exact resetAfterDispose_orderly (.inr ⟨rfl, h⟩)
  | some id => exact .bind (release id) fun _ => resetAfterDispose_orderly (.inr ⟨rfl, h⟩)

theorem queueSessionTermination_orderly (h : L.ends) (exitCode : Int) :
    Orderly L .callback (queueSessionTermination exitCode) :=
  .bind (.perform trivial) fun _ => .bind (.perform trivial) fun _ =>
    .bind flushPendingThreadEvents_orderly fun _ => .bind (.perform trivial) fun _ =>
      .bind (.perform trivial) fun _ => .bind (disposeDebuggerSession_onCallback h) fun _ =>
        .perform trivial

theorem queueSessionEnded_orderly (h : L.ends) : Orderly L .callback queueSessionEnded := by
  refine .bind (.perform trivial) fun _ => .bind (.perform trivial) fun _ =>
    .bind (.perform trivial) fun session => ?_
  cases session with
  | none => exact .ret _
  | some id =>
    exact .bind flushPendingThreadEvents_orderly fun _ => .bind (.perform trivial) fun _ =>
      .bind (disposeDebuggerSession_onCallback h) fun _ => .perform trivial

theorem onCallback_orderly (event : Callback) (h : event.endsSession = true → L.ends) :
    Orderly L .callback (onCallback id event) := by
  cases event with
  | breakpoint => exact .bind (Session.getLastBreakpointId_orderly id) onBreakpointHit_orderly
  | exception code address firstChance =>
    exact .bind (.perform trivial) fun _ => .ite (.ret _) <| .bind (.perform trivial) fun _ =>
      onExceptionHit_orderly code
  | systemError error => exact onExceptionHit_orderly error
  | break_ => exact onBreakHit_orderly
  | noDebuggee | sessionEnd => exact queueSessionEnded_orderly (h rfl)
  | exitProcess exitCode => exact queueSessionTermination_orderly (h rfl) _
  | createThread | exitThread => exact queueThreadEvent_orderly _
  | output text => exact .ite (.ret _) (Session.handleOutputReceived_orderly id text)

end

end

end Server

end DapDbgeng
