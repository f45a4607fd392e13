/-
  Which requests queue behind a parked wait.

  Main results:

  * one lemma per handler: it hands nothing to the dispatcher before it has interrupted a running
    target, or it does;
  * `handleRequest_interruptsFirst_iff`: the requests that do are those of `queuesBehindWait`; so
    does the destructor.
-/
import DapDbgeng.Machine
import DapDbgeng.Parked
import DapDbgeng.RespondsOnce

namespace DapDbgeng

open Concurrent Concurrent.Prog

namespace Server

/-! ## The requests without a guard -/

/-- A launch that gets past its argument checks. -/
def launchStarts (arguments : Json) : Bool :=
  ArgumentReader.tryGetBoolean arguments "noDebug" != some true &&
    ((ArgumentReader.tryGetString arguments "program").filter fun p => !Text.isBlank p).isSome

/-- An attach that gets past its argument checks. -/
def attachStarts (arguments : Json) : Bool :=
  let target := readAttachTarget arguments
  if (ArgumentReader.tryGetBoolean arguments "kernel").getD false then
    target.connectionString.isSome
  else target.dumpFile.isSome || target.processId.isSome || target.processName.isSome

/-- A dataBreakpointInfo that finds its variable or frame. -/
def dataBreakpointInfoStarts (arguments : DataBreakpointInfoArguments) (d : Tables) : Bool :=
  !Text.isBlank arguments.name && (resolveDataBreakpointTarget arguments d).isOk

/-- The well-formed requests whose handlers use the dispatcher although the target runs, by
command. -/
def commandQueues (command : String) (root : Json) (d : Tables) : Bool :=
  if command = "terminate" then
    (decodeRequest "terminate" Decoder.terminateArguments root).isOk
  else if command = "launch" then
    (decodeRequest "launch" Decoder.launchArguments root).isOk &&
      launchStarts (ArgumentReader.getArguments root)
  else if command = "attach" then
    (decodeRequest "attach" noArguments root).isOk &&
      attachStarts (ArgumentReader.getArguments root)
  else if command = "dataBreakpointInfo" then
    match decodeRequest "dataBreakpointInfo" Decoder.dataBreakpointInfoArguments root with
    | .error _ => false
    | .ok request => dataBreakpointInfoStarts request.arguments d
  else false

/-- The messages that queue behind the wait for a running target. -/
def queuesBehindWait (root : Json) (d : Tables) : Bool :=
  accepts root &&
    match Decoder.valueString "command" root with
    | .error _ => false
    | .ok command => commandQueues command root d

/-! ## Handlers with a guard -/

section

variable {id : SessionId} {α : Type}

theorem fail_safe (request : Request α) (message : String) : Safe id (fail request message) :=
  .perform trivial

theorem sendResponse_safe (request : Request α) (body : Body) :
    Safe id (sendResponse request body) := .perform trivial

theorem failUnwrapped_safe (request : Request α) (e : Exn) : Safe id (failUnwrapped request e) :=
  .perform trivial

/-- A handler that refuses while the target runs. -/
theorem atStop_safe {p q : Dap α} (h : Safe id p) : Safe id (do
    if ← load .isExecutionRunning then p else q) := .loadRunning h

/-- An argument check. -/
theorem check_safe (request : Request α) {c : Prop} [Decidable c] (message : String)
    {p : Dap Unit} (h : Safe id p) : Safe id (do
      if ← (if c then return true else do fail request message; return false) then p
      else return) :=
  .bind (.ite (.ret _) (.bind (fail_safe request message) fun _ => .ret _)) fun _ =>
    .ite h (.ret _)

theorem resetSuspendedState_safe : Safe id resetSuspendedState :=
  .bind (.perform trivial) fun _ => .perform trivial

theorem startWaitingForSessionEvent_safe (session : SessionId) :
    Safe id (startWaitingForSessionEvent session) := by
  have start : Safe id (do
      store .sessionStopOrExitObserved false
      store .waitLoopActive true
      Prog.perform (.spawnLoop session)
      Prog.perform .unlockGate) :=
    .bind (.perform trivial) fun _ => .bind (.perform trivial) fun _ =>
      .bind (.perform trivial) fun _ => .perform trivial
  exact .bind (.perform trivial) fun _ => .bind (.perform trivial) fun _ =>
    .ite (.perform trivial) (.bind (.perform trivial) fun _ =>
      .ite (.bind (.perform trivial) fun _ => start) start)

theorem tryInterrupt_breaks : Breaks id (tryInterrupt id) := Breaks.interrupt.catching

/-! ### Setting the target going and stopping it -/

theorem handleContinueRequest_safe (request : Request ExecutionArguments) :
    Safe id (handleContinueRequest request) :=
  check_safe request _ <| check_safe request _ <| atStop_safe <| fail_safe request _

theorem handleStep_safe (kind : StepKind) (request : Request ExecutionArguments) :
    Safe id (handleStep kind request) := atStop_safe <| fail_safe request _

theorem handleCheckedStep_safe (kind : StepKind) (request : Request ExecutionArguments) :
    Safe id (handleCheckedStep kind request) :=
  check_safe request _ <| check_safe request _ <| handleStep_safe kind request

theorem handleStepInRequest_safe (request : Request ExecutionArguments) :
    Safe id (handleStepInRequest request) :=
  check_safe request _ <| check_safe request _ <| check_safe request _ <| handleStep_safe _ request

theorem pauseTarget_safe : Safe id (pauseTarget id) :=
  .catching (.bind resetSuspendedState_safe fun _ => .bind (.perform trivial) fun _ =>
    Breaks.interrupt.bind.safe) fun _ => .bind (.perform trivial) fun _ => .throw _

theorem handlePauseRequest_safe (request : Request ThreadArguments) :
    Safe id (handlePauseRequest request) :=
  check_safe request _ <| atStop_safe <| .requireDebuggerSession <|
    .bind pauseTarget_safe fun _ => sendResponse_safe request _

theorem handleConfigurationDoneRequest_safe (request : Request Unit) :
    Safe id (handleConfigurationDoneRequest request) := by
  have reset : Safe id resetLaunchConfigurationState :=
    .bind (.perform trivial) fun _ => .bind (.perform trivial) fun _ => .perform trivial
  have running : Safe id continueAfterConfigurationDone :=
    .getSession (.loadRunning (.ret _))
  exact .bind (sendResponse_safe request _) fun _ => .bind (.perform trivial) fun _ =>
    .bind (.perform trivial) fun _ => .ite (.bind running fun _ => reset) reset

/-! ### Breakpoints -/

/-- A breakpoint update begins with an interrupt. -/
theorem applyBreakpointUpdateWhileRunning_safe (update : Dap α) :
    Safe id (applyBreakpointUpdateWhileRunning id update) :=
  .bind (.bind (.perform trivial) fun _ => .bind
    (.catching Breaks.interrupt.bind.safe fun _ => .bind (.perform trivial) fun _ => .throw _)
    fun _ => .bind (.perform trivial) fun _ => .ret _) fun _ =>
      .bind (startWaitingForSessionEvent_safe id) fun _ => .ret _

theorem updateConditionalBreakpointState_safe (sourcePath : String)
    (configured : List SourceBreakpointResult) (requested : List SourceBreakpoint) :
    Safe id (updateConditionalBreakpointState sourcePath configured requested) :=
  updateConditionalBreakpointState_composed (Q := fun {_} p => Safe id p) (.ret _)
    (fun hp hf => .bind hp hf) (.perform trivial) fun _ _ => .perform trivial

theorem configureSetBreakpoints_safe (request : Request SetBreakpointsArguments)
    (sourcePath : String) : Safe id (configureSetBreakpoints request sourcePath) :=
  .requireDebuggerSession <| .loadRunning <|
    .bind (applyBreakpointUpdateWhileRunning_safe _) fun _ =>
      .bind (updateConditionalBreakpointState_safe _ _ _) fun _ =>
        .bind (sendResponse_safe request _) fun _ => .ite (.ret _) (.perform trivial)

theorem handleSetBreakpointsRequest_safe (request : Request SetBreakpointsArguments) :
    Safe id (handleSetBreakpointsRequest request) := by
  unfold handleSetBreakpointsRequest
  refine .ite (fail_safe request _) ?_
  cases request.arguments.source.path.filter fun p => !Text.isBlank p with
  | none => exact fail_safe request _
  | some sourcePath => exact configureSetBreakpoints_safe request sourcePath

theorem applyUpdate_safe {β : Type} (request : Request α) (name : String)
    (update : SessionId → Dap β) (respond : β → Body) :
    Safe id (applyUpdate request name update respond) :=
  .getSession <| .catching
    (.requireDebuggerSession <| .loadRunning <|
      .bind (applyBreakpointUpdateWhileRunning_safe _) fun _ => sendResponse_safe request _)
    (failUnwrapped_safe request)

theorem handleSetFunctionBreakpointsRequest_safe (request : Request (List String)) :
    Safe id (handleSetFunctionBreakpointsRequest request) :=
  .ite (fail_safe request _) (applyUpdate_safe request _ _ _)

theorem handleSetInstructionBreakpointsRequest_safe
    (request : Request (List InstructionBreakpoint)) :
    Safe id (handleSetInstructionBreakpointsRequest request) := by
  unfold handleSetInstructionBreakpointsRequest
  split
  · exact fail_safe request _
  · exact applyUpdate_safe request _ _ _

theorem handleSetDataBreakpointsRequest_safe (request : Request (List DataBreakpoint)) :
    Safe id (handleSetDataBreakpointsRequest request) := by
  unfold handleSetDataBreakpointsRequest
  split
  · exact fail_safe request _
  · exact applyUpdate_safe request _ _ _

theorem handleSetExceptionBreakpointsRequest_safe (request : Request (List String)) :
    Safe id (handleSetExceptionBreakpointsRequest request) := applyUpdate_safe request _ _ _

/-! ### Inspection -/

theorem handleThreadsRequest_safe (request : Request Unit) : Safe id (handleThreadsRequest request) :=
  .bind .readSessionDataOrDefault fun _ => sendResponse_safe request _

theorem handleStackTraceRequest_safe (request : Request StackTraceArguments) :
    Safe id (handleStackTraceRequest request) :=
  check_safe request _ <| .bind .readSessionDataOrDefault fun _ => .bind (.perform trivial) fun _ =>
    sendResponse_safe request _

theorem handleScopesRequest_safe (request : Request ScopesArguments) :
    Safe id (handleScopesRequest request) := by
  refine .ite (fail_safe request _) (.bind (.perform trivial) fun d => ?_)
  cases d.frameContexts.get? request.arguments.frameId with
  | none => exact fail_safe request _
  | some context =>
    exact .bind .readSessionDataOrDefault fun _ => .bind (.perform trivial) fun _ =>
      sendResponse_safe request _

theorem handleVariablesRequest_safe (request : Request VariablesArguments) :
    Safe id (handleVariablesRequest request) := by
  refine .ite (fail_safe request _) (.bind (.perform trivial) fun d => ?_)
  cases d.variablesByReference.get? request.arguments.variablesReference with
  | none => exact fail_safe request _
  | some container => exact sendResponse_safe request _

theorem handleSetVariableRequest_safe (request : Request SetVariableArguments) :
    Safe id (handleSetVariableRequest request) :=
  .ite (fail_safe request _) <| .ite (fail_safe request _) <| .ite (fail_safe request _) <|
    atStop_safe <| fail_safe request _

theorem evaluateAtStop_safe (request : Request EvaluateArguments) (context : Option FrameContext) :
    Safe id (evaluateAtStop request context) :=
  .ite (sendResponse_safe request _) <| atStop_safe <| fail_safe request _

theorem handleEvaluateRequest_safe (request : Request EvaluateArguments) :
    Safe id (handleEvaluateRequest request) := by
  unfold handleEvaluateRequest
  refine .ite (fail_safe request _) <| .ite (fail_safe request _) <| .ite (fail_safe request _) ?_
  cases request.arguments.frameId with
  | none => exact evaluateAtStop_safe request none
  | some frameId =>
    refine .ite (fail_safe request _) (.bind (.perform trivial) fun d => ?_)
    cases d.frameContexts.get? frameId with
    | none => exact fail_safe request _
    | some context => exact evaluateAtStop_safe request (some context)

theorem handleSetExpressionRequest_safe (request : Request SetExpressionArguments) :
    Safe id (handleSetExpressionRequest request) := by
  unfold handleSetExpressionRequest
  refine .ite (fail_safe request _) <| .ite (fail_safe request _) ?_
  cases request.arguments.frameId with
  | none => exact fail_safe request _
  | some frameId =>
    refine .bind (.perform trivial) fun d => ?_
    cases d.frameContexts.get? frameId with
    | none => exact fail_safe request _
    | some context => exact atStop_safe <| fail_safe request _

theorem handleDisassembleRequest_safe (request : Request DisassembleArguments) :
    Safe id (handleDisassembleRequest request) := by
  unfold handleDisassembleRequest
  cases tryReadDisassembleArguments request.arguments with
  | error message => exact fail_safe request _
  | ok a => exact atStop_safe <| fail_safe request _

theorem handleSourceRequest_safe (request : Request SourceArguments) :
    Safe id (handleSourceRequest request) := by
  unfold handleSourceRequest
  cases (request.arguments.source.bind Source.path).filter fun p => !Text.isBlank p with
  | none => exact fail_safe request _
  | some path =>
    refine .bind (.perform trivial) fun content => ?_
    cases content with
    | none => exact fail_safe request _
    | some content => exact sendResponse_safe request _

theorem handleModulesRequest_safe (request : Request ModulesArguments) :
    Safe id (handleModulesRequest request) :=
  .ite (fail_safe request _) <| atStop_safe <| fail_safe request _

theorem handleReadMemoryRequest_safe (request : Request ReadMemoryArguments) :
    Safe id (handleReadMemoryRequest request) := by
  unfold handleReadMemoryRequest
  dsimp only
  cases referenceAddress request.arguments.memoryReference with
  | none => exact fail_safe request _
  | some reference =>
    refine .ite (fail_safe request _) ?_
    cases Text.tryApplyByteOffset reference (request.arguments.offset.getD 0) with
    | none => exact fail_safe request _
    | some address => exact atStop_safe <| fail_safe request _

theorem handleWriteMemoryRequest_safe (request : Request WriteMemoryArguments) :
    Safe id (handleWriteMemoryRequest request) := by
  unfold handleWriteMemoryRequest
  dsimp only
  cases referenceAddress request.arguments.memoryReference with
  | none => exact fail_safe request _
  | some reference =>
    dsimp only
    cases Text.tryBase64Decode request.arguments.data with
    | none => exact fail_safe request _
    | some bytes =>
      dsimp only
      cases Text.tryApplyByteOffset reference (request.arguments.offset.getD 0) with
      | none => exact fail_safe request _
      | some address => exact atStop_safe <| fail_safe request _

theorem handleExceptionInfoRequest_safe (request : Request ThreadArguments) :
    Safe id (handleExceptionInfoRequest request) := atStop_safe <| fail_safe request _

/-! ### initialize and disconnect -/

theorem handleInitializeRequest_safe (request : Request Unit) :
    Safe id (handleInitializeRequest request) :=
  .bind (.perform trivial) fun _ => .ite (fail_safe request _) <|
    .bind (sendResponse_safe request _) fun _ => .bind (.perform trivial) fun _ => .perform trivial

/-- A disconnect interrupts a running target before it does anything on the dispatcher. -/
theorem disconnectDebuggerSession_safe (terminateDebuggee : Option Bool) :
    Safe id (disconnectDebuggerSession terminateDebuggee) := by
  have kernel : Breaks id (disconnectKernelLeavingMachineRunning id) :=
    .bind <| .catching <| .loadRunning tryInterrupt_breaks.bind
  have user : Breaks id (disconnectUserTarget id terminateDebuggee) :=
    .loadRunning tryInterrupt_breaks.bind
  exact .getSession <| .bind (.perform trivial) fun _ => .bind (.perform trivial) fun _ =>
    .ite kernel.safe user.safe

theorem handleDisconnectRequest_safe (request : Request (Option DisconnectArguments)) :
    Safe id (handleDisconnectRequest request) := by
  have rest (shouldSendTerminatedEvent : Bool) : Safe id (do
      disconnectDebuggerSession (request.arguments.bind DisconnectArguments.terminateDebuggee)
      sendResponse request .empty
      if shouldSendTerminatedEvent then sendEvent .terminated else pure ()
      store .shouldExit true) := by
    refine .bind (disconnectDebuggerSession_safe _) fun _ =>
      .bind (sendResponse_safe request _) fun _ => ?_
    split
    · exact .bind (.perform trivial) fun _ => .perform trivial
    · exact .perform trivial
  exact .getSession (.bind (.perform trivial) fun _ => rest _)

/-! ## Handlers without a guard -/

theorem safeFrom_getTables {d : Tables} {f : Tables → Dap α} (h : SafeFrom id (f d) d) :
    SafeFrom id (getTables.bind f) d := h

theorem firstExisting_safe : ∀ candidates, Safe id (firstExisting candidates)
  | [] => .ret _
  | _ :: rest => .bind (.perform trivial) fun _ => .ite (.ret _) (firstExisting_safe rest)

theorem tryResolveDebuggerEnginePath_safe (requested : Option String) :
    Safe id (tryResolveDebuggerEnginePath requested) := by
  unfold tryResolveDebuggerEnginePath
  cases requested.filter fun p => !Text.isBlank p with
  | some path => exact firstExisting_safe _
  | none =>
    refine .bind (.perform trivial) fun base => .bind (firstExisting_safe _) fun bundled => ?_
    cases bundled with
    | some path => exact .ret _
    | none =>
      have candidate (name : String) : AllOps DapOp.aside (sdkCandidate name) :=
        .bind (.perform trivial) fun _ => trivial
      exact .bind (.of_aside (.mapEach candidate _)) fun _ => firstExisting_safe _

/-- A launch that fails its argument checks. -/
theorem handleLaunchRequest_safe (request : Request Unit) {d : Tables}
    (h : launchStarts (ArgumentReader.getArguments d.currentRequestJson) = false) :
    SafeFrom id (handleLaunchRequest request) d := by
  refine safeFrom_getTables ?_
  dsimp only
  by_cases hn : ArgumentReader.tryGetBoolean
      (ArgumentReader.getArguments d.currentRequestJson) "noDebug" = some true
  · rw [if_pos hn]
    exact fail_safe request _ d
  · rw [if_neg hn]
    cases hp : (ArgumentReader.tryGetString (ArgumentReader.getArguments d.currentRequestJson)
        "program").filter fun p => !Text.isBlank p with
    | none => exact fail_safe request _ d
    | some program => simp [launchStarts, hn, hp] at h

/-- An attach that fails its argument checks. -/
theorem handleAttachRequest_safe (request : Request Unit) {d : Tables}
    (h : attachStarts (ArgumentReader.getArguments d.currentRequestJson) = false) :
    SafeFrom id (handleAttachRequest request) d := by
  refine safeFrom_getTables (Safe.bind (tryResolveDebuggerEnginePath_safe _) (fun path => ?_) d)
  generalize ArgumentReader.getArguments d.currentRequestJson = arguments at h
  cases path with
  | none => exact fail_safe request _
  | some enginePath =>
    simp only [attachStarts] at h
    dsimp only
    split at h
    · rename_i hk
      rw [if_pos hk]
      cases hc : (readAttachTarget arguments).connectionString with
      | none => exact fail_safe request _
      | some connectionString => simp [hc] at h
    · rename_i hk
      rw [if_neg hk]
      simp only [Bool.or_eq_false_iff, Option.isSome_eq_false_iff] at h
      obtain ⟨⟨hd, hi⟩, hn⟩ := h
      rw [Option.isNone_iff_eq_none.1 hd, if_pos ⟨hi, hn⟩]
      exact fail_safe request _

/-- A dataBreakpointInfo about an unknown variable or frame. -/
theorem handleDataBreakpointInfoRequest_safe (request : Request DataBreakpointInfoArguments)
    {d : Tables} (h : dataBreakpointInfoStarts request.arguments d = false) :
    SafeFrom id (handleDataBreakpointInfoRequest request) d := by
  unfold handleDataBreakpointInfoRequest
  by_cases hn : Text.isBlank request.arguments.name = true
  · rw [if_pos hn]
    exact fail_safe request _ d
  · rw [if_neg hn]
    refine safeFrom_getTables ?_
    cases hr : resolveDataBreakpointTarget request.arguments d with
    | error message => exact fail_safe request _ d
    | ok target => simp [dataBreakpointInfoStarts, hn, hr, Except.isOk, Except.toBool] at h

end

/-! ## They queue -/

section

variable {id : SessionId} {α β : Type} {s : Server}

theorem invoke_queues (p : Dap α) : Queues (invoke .request p) s := Queues.enqueue

theorem queues_getTables {f : Tables → Dap α} (h : Queues (f s.tables) s) :
    Queues (getTables.bind f) s := .op {} rfl (fun h => h) h

theorem queues_getSession {f : Option SessionId → Dap α} (hs : s.session = some id)
    (h : Queues (f (some id)) s) : Queues (getSession.bind f) s :=
  .op {} (by rw [apply, hs]) (fun h => h) h

theorem queues_requireDebuggerSession {f : SessionId → Dap α} (hs : s.session = some id)
    (h : Queues (f id) s) : Queues (requireDebuggerSession.bind f) s :=
  .op {} (b := some id) (by rw [apply, hs]) (fun h => h) h

/-- Giving up a live session waits for the dispatcher. -/
theorem disposeDebuggerSession_queues (hs : s.session = some id) :
    Queues (disposeDebuggerSession .request) s := by
  have taken : apply .request {} .takeSession s = some (some id, { s with session := none }) := by
    rw [apply, hs]
  exact .op {} taken (fun h => h)
    (Reaches.left (p := releaseSession .request id) (invoke_queues _).catching)

theorem createDebuggerSession_queues {f : SessionId → Dap α} (enginePath : String)
    (hs : s.session = some id) : Queues ((createDebuggerSession enginePath).bind f) s :=
  .left (.left (disposeDebuggerSession_queues hs))

/-- The engine may be found. -/
theorem tryResolveDebuggerEnginePath_queues {f : Option String → Dap α} (requested : Option String)
    (h : ∀ path, Queues (f (some path)) s) :
    Queues ((tryResolveDebuggerEnginePath requested).bind f) s := by
  unfold tryResolveDebuggerEnginePath
  cases requested.filter fun p => !Text.isBlank p with
  | some path => exact .op {} rfl (fun h => h) (h path)
  | none =>
    -- nothing bundled, no variable set, the fixed path exists
    exact .op {} rfl (fun h => h) <| .op {} rfl (fun h => h) <| .op {} rfl (fun h => h) <|
      .op {} rfl (fun h => h) <| .op {} rfl (fun h => h) (h _)

theorem handleTerminateRequest_queues (request : Request Unit) (hs : s.session = some id) :
    Queues (handleTerminateRequest request) s := by
  refine queues_getSession hs ?_
  have interruptible : Queues (terminateTarget id) s :=
    .op {} rfl (fun h => h) <| .op {} rfl (fun h => h) <|
      .left (p := (invoke .request (Session.terminateCurrentProcess id)).catching _)
        (invoke_queues _).catching
  exact interruptible.left

theorem handleLaunchRequest_queues (request : Request Unit) (hs : s.session = some id)
    (h : launchStarts (ArgumentReader.getArguments s.tables.currentRequestJson) = true) :
    Queues (handleLaunchRequest request) s := by
  obtain ⟨hn, hp⟩ := Bool.and_eq_true_iff.1 h
  obtain ⟨program, hp⟩ := Option.isSome_iff_exists.1 hp
  refine queues_getTables ?_
  dsimp only
  rw [if_neg (by simpa using hn), hp]
  exact tryResolveDebuggerEnginePath_queues _ fun path => createDebuggerSession_queues path hs

theorem handleAttachRequest_queues (request : Request Unit) (hs : s.session = some id)
    (h : attachStarts (ArgumentReader.getArguments s.tables.currentRequestJson) = true) :
    Queues (handleAttachRequest request) s := by
  refine queues_getTables (tryResolveDebuggerEnginePath_queues _ fun path => ?_)
  generalize ArgumentReader.getArguments s.tables.currentRequestJson = arguments at h
  simp only [attachStarts] at h
  dsimp only
  split at h
  · rename_i hk
    obtain ⟨connectionString, hc⟩ := Option.isSome_iff_exists.1 h
    rw [if_pos hk, hc]
    exact createDebuggerSession_queues path hs
  · rename_i hk
    rw [if_neg hk]
    cases hd : (readAttachTarget arguments).dumpFile with
    | some dumpFile => exact createDebuggerSession_queues path hs
    | none =>
      have hlive : ¬((readAttachTarget arguments).processId.isNone = true ∧
          (readAttachTarget arguments).processName.isNone = true) := by
        rintro ⟨hi, hn⟩
        simp [hd, Option.isNone_iff_eq_none.1 hi, Option.isNone_iff_eq_none.1 hn] at h
      dsimp only
      rw [if_neg hlive]
      exact createDebuggerSession_queues path hs

theorem handleDataBreakpointInfoRequest_queues (request : Request DataBreakpointInfoArguments)
    (hs : s.session = some id) (h : dataBreakpointInfoStarts request.arguments s.tables = true) :
    Queues (handleDataBreakpointInfoRequest request) s := by
  obtain ⟨hn, hr⟩ := Bool.and_eq_true_iff.1 h
  unfold handleDataBreakpointInfoRequest
  rw [if_neg (by simpa using hn)]
  refine queues_getTables ?_
  cases hd : resolveDataBreakpointTarget request.arguments s.tables with
  | error message => rw [hd] at hr; cases hr
  | ok target =>
    refine queues_getSession hs (.catching ?_)
    exact queues_requireDebuggerSession hs (invoke_queues _).left

theorem run_queues {dec : Decoder (Request α)} {f : Request α → Dap Unit} {root : Json}
    {request : Request α} (hd : dec root = .ok request) (h : Queues (f request) s) :
    Queues (run dec f root) s := by
  rw [run, hd]
  exact h

end

/-! ## Dispatch -/

section

variable {id : SessionId} {α : Type} {root : Json} {command : String} {d : Tables}

theorem run_safe {dec : Decoder (Request α)} {handler : Request α → Dap Unit}
    (h : ∀ request, dec root = .ok request → SafeFrom id (handler request) d) :
    SafeFrom id (run dec handler root) d := by
  unfold run
  cases hd : dec root with
  | error what => exact trivial
  | ok request => exact h request hd

theorem on_safe (name : String) (dec : Decoder α) {handler : Request α → Dap Unit}
    (h : ∀ request, Safe id (handler request)) : SafeFrom id ((on name dec handler).2 root) d :=
  run_safe fun request _ => h request d

theorem refuse_safe (name : String) : SafeFrom id ((refuse name).2 root) d :=
  run_safe fun _ _ => trivial

/-- The tables when the handler begins. -/
abbrev tablesFor (root : Json) (d : Tables) : Tables := { d with currentRequestJson := root }

theorem handlers_safe (h : commandQueues command root d = false) :
    ∀ entry ∈ handlers, entry.1 = command → SafeFrom id (entry.2 root) (tablesFor root d) := by
  have attach (hc : "attach" = command) : SafeFrom id
      ((on "attach" noArguments handleAttachRequest).2 root) (tablesFor root d) := by
    subst hc
    refine run_safe fun request hd => handleAttachRequest_safe request ?_
    simpa [commandQueues, hd, Except.isOk, Except.toBool] using h
  have launch (hc : "launch" = command) : SafeFrom id
      ((on "launch" Decoder.launchArguments handleLaunchRequest).2 root) (tablesFor root d) := by
    subst hc
    refine run_safe fun request hd => handleLaunchRequest_safe request ?_
    simpa [commandQueues, hd, Except.isOk, Except.toBool] using h
  have terminate (hc : "terminate" = command) : SafeFrom id
      ((on "terminate" Decoder.terminateArguments handleTerminateRequest).2 root)
      (tablesFor root d) := by
    subst hc
    refine run_safe fun request hd => ?_
    simp [commandQueues, hd, Except.isOk, Except.toBool] at h
  have info (hc : "dataBreakpointInfo" = command) : SafeFrom id ((on "dataBreakpointInfo"
      Decoder.dataBreakpointInfoArguments handleDataBreakpointInfoRequest).2 root)
      (tablesFor root d) := by
    subst hc
    refine run_safe fun request hd => handleDataBreakpointInfoRequest_safe request ?_
    have h : dataBreakpointInfoStarts request.arguments d = false := by
      simpa [commandQueues, hd] using h
    exact h
  have disconnect : SafeFrom id (run (decodeOptionalRequest "disconnect"
      Decoder.disconnectArguments) handleDisconnectRequest root) (tablesFor root d) :=
    run_safe fun request _ => handleDisconnectRequest_safe request _
  simp only [handlers, List.forall_mem_cons]
  exact ⟨attach, fun _ => on_safe _ _ handleConfigurationDoneRequest_safe,
    fun _ => on_safe _ _ handleContinueRequest_safe, info,
    fun _ => on_safe _ _ handleDisassembleRequest_safe, fun _ => disconnect,
    fun _ => on_safe _ _ handleEvaluateRequest_safe,
    fun _ => on_safe _ _ handleExceptionInfoRequest_safe,
    fun _ => on_safe _ _ handleInitializeRequest_safe, launch,
    fun _ => on_safe _ _ handleModulesRequest_safe,
    fun _ => on_safe _ _ (handleCheckedStep_safe _),
    fun _ => on_safe _ _ handlePauseRequest_safe,
    fun _ => on_safe _ _ handleReadMemoryRequest_safe,
    fun _ => on_safe _ _ handleScopesRequest_safe,
    fun _ => on_safe _ _ handleSetBreakpointsRequest_safe,
    fun _ => on_safe _ _ handleSetDataBreakpointsRequest_safe,
    fun _ => on_safe _ _ handleSetExceptionBreakpointsRequest_safe,
    fun _ => on_safe _ _ handleSetExpressionRequest_safe,
    fun _ => on_safe _ _ handleSetFunctionBreakpointsRequest_safe,
    fun _ => on_safe _ _ handleSetInstructionBreakpointsRequest_safe,
    fun _ => on_safe _ _ handleSetVariableRequest_safe,
    fun _ => on_safe _ _ handleSourceRequest_safe,
    fun _ => on_safe _ _ handleStackTraceRequest_safe,
    fun _ => on_safe _ _ handleStepInRequest_safe,
    fun _ => on_safe _ _ (handleCheckedStep_safe _), terminate,
    fun _ => on_safe _ _ handleThreadsRequest_safe,
    fun _ => on_safe _ _ handleVariablesRequest_safe,
    fun _ => on_safe _ _ handleWriteMemoryRequest_safe,
    fun _ => refuse_safe _, fun _ => refuse_safe _, fun _ => refuse_safe _,
    fun _ => refuse_safe _, fun _ => refuse_safe _, fun _ => refuse_safe _,
    fun _ => refuse_safe _, fun _ => refuse_safe _, fun _ => refuse_safe _,
    fun _ => refuse_safe _, fun _ => refuse_safe _, fun _ => refuse_safe _,
    fun _ => refuse_safe _, fun _ => refuse_safe _, fun _ => refuse_safe _, by simp⟩

theorem dispatchRequest_safe (hc : Decoder.valueString "command" root = .ok command)
    (h : commandQueues command root d = false) :
    SafeFrom id (dispatchRequest root) (tablesFor root d) := by
  simp only [dispatchRequest, hc]
  cases hl : handlers.lookup command with
  | none => exact run_safe fun _ _ => trivial
  | some handler => exact handlers_safe h (command, handler) (mem_of_lookup hl) rfl

theorem handle_safe (h : queuesBehindWait root d = false) :
    SafeFrom id (handle root) (tablesFor root d) := by
  unfold handle
  cases ht : Decoder.valueString "type" root with
  | error what => exact trivial
  | ok type =>
    dsimp only
    split
    · rename_i hr
      have ha : accepts root = true := by simp [accepts, ht, hr]
      cases hc : Decoder.valueString "command" root with
      | error what => simp only [dispatchRequest, hc]; exact trivial
      | ok command =>
        exact dispatchRequest_safe hc (by simpa [queuesBehindWait, ha, hc] using h)
    · split <;> exact trivial

theorem recover_safe (e : Exn) : Safe id (recover root e) := by
  have report (e : Exn) : Safe id (reportFailure root e) := by
    unfold reportFailure
    split
    · exact .ite (.ret _) (.perform trivial)
    · exact .ret _
  cases e with
  | unhandledRequest => exact .perform trivial
  | runtime => exact report _
  | dispatcherFailure => exact report _

theorem handleRequest_safe (h : queuesBehindWait root d = false) :
    SafeFrom id (handleRequest root) d := by
  intro _ _
  change SafeFrom id (((handle root).catching (recover root)).bind _) (tablesFor root d)
  rw [SafeFrom, wp_bind, wp_catching]
  refine wp_mono (fun _ d' _ => ?_) (fun e d' _ => ?_) (handle_safe h)
  · exact fun _ _ => trivial
  · exact wp_mono (fun _ _ _ => fun _ _ => trivial) (fun _ _ he => he) (recover_safe e d')

theorem exists_of_isOk {ε : Type} {r : Except ε α} (h : r.isOk = true) : ∃ a, r = .ok a := by
  cases r with
  | error e => cases h
  | ok a => exact ⟨a, rfl⟩

theorem dispatchRequest_queues {s : Server} (hs : s.session = some id)
    (ht : s.tables = tablesFor root d) (hc : Decoder.valueString "command" root = .ok command)
    (h : commandQueues command root d = true) : Queues (dispatchRequest root) s := by
  simp only [dispatchRequest, hc]
  have arguments : s.tables.currentRequestJson = root := by rw [ht]
  unfold commandQueues at h
  split at h
  · rename_i hn
    subst hn
    obtain ⟨request, hd⟩ := exists_of_isOk h
    have queues := run_queues (s := s) (f := handleTerminateRequest) hd
      (handleTerminateRequest_queues request hs)
    simpa [handlers, List.lookup_cons, on] using queues
  · split at h
    · rename_i hn
      subst hn
      obtain ⟨hk, hl⟩ := Bool.and_eq_true_iff.1 h
      obtain ⟨request, hd⟩ := exists_of_isOk hk
      have queues := run_queues (s := s) (f := handleLaunchRequest) hd
        (handleLaunchRequest_queues request hs (arguments ▸ hl))
      simpa [handlers, List.lookup_cons, on] using queues
    · split at h
      · rename_i hn
        subst hn
        obtain ⟨hk, hl⟩ := Bool.and_eq_true_iff.1 h
        obtain ⟨request, hd⟩ := exists_of_isOk hk
        have queues := run_queues (s := s) (f := handleAttachRequest) hd
          (handleAttachRequest_queues request hs (arguments ▸ hl))
        simpa [handlers, List.lookup_cons, on] using queues
      · split at h
        · rename_i hn
          subst hn
          cases hd : decodeRequest "dataBreakpointInfo" Decoder.dataBreakpointInfoArguments
              root with
          | error what => rw [hd] at h; cases h
          | ok request =>
            rw [hd] at h
            have starts : dataBreakpointInfoStarts request.arguments s.tables = true := by
              rw [ht]; exact h
            have queues := run_queues (s := s) (f := handleDataBreakpointInfoRequest) hd
              (handleDataBreakpointInfoRequest_queues request hs starts)
            simpa [handlers, List.lookup_cons, on] using queues
        · cases h

theorem handleRequest_queues {s : Server} (hs : s.session = some id)
    (h : queuesBehindWait root s.tables = true) : Queues (handleRequest root) s := by
  obtain ⟨ha, hq⟩ := Bool.and_eq_true_iff.1 h
  cases hc : Decoder.valueString "command" root with
  | error what => simp [hc] at hq
  | ok command =>
    have dispatch (s' : Server) (hs' : s'.session = s.session)
        (ht : s'.tables = tablesFor root s.tables) : Queues (handle root) s' := by
      rw [handle_of_accepts ha]
      exact dispatchRequest_queues (hs'.trans hs) ht hc (by simpa [hc] using hq)
    refine .op {} rfl (fun h => h) <| .op {} rfl (fun h => h) <| .op {} rfl (fun h => h) <|
      .left (p := (handle root).catching (recover root)) (.catching ?_)
    exact dispatch _ rfl rfl

/-! ## The requests that interrupt first -/

/-- **While the dispatcher is parked** and the target does not stop by itself, a message interrupts
the target before it hands anything to the dispatcher, if it hands anything at all, exactly when it
is none of `queuesBehindWait`.  The destructor never does. -/
theorem interruptsFirst_iff {s : Server} (h : Parked id s) :
    (∀ root, InterruptsFirst (handleRequest root) s ↔ queuesBehindWait root s.tables = false) ∧
      ¬InterruptsFirst teardown s := by
  refine ⟨fun root => ⟨fun hi => ?_, fun hq => ?_⟩, ?_⟩
  · by_contra hq
    exact (handleRequest_queues h.session (by simpa using hq)).not_interruptsFirst hi
  · exact (handleRequest_safe hq).interruptsFirst h.toTargetRuns
  · exact Queues.not_interruptsFirst (.left (disposeDebuggerSession_queues h.session))

/-- The state of a parked target, by what a test can see of it. -/
def isParked (s : Server) : Bool :=
  s.flags .isExecutionRunning && s.session == some 0 && !(s.sessions 0).disposed &&
    s.holder == some .loop && s.inCall == some (0, .wait)

theorem parked_of_isParked {s : Server} (h : isParked s = true) : Parked 0 s := by
  simp only [isParked, Bool.and_eq_true, beq_iff_eq, Bool.not_eq_true'] at h
  obtain ⟨⟨⟨⟨hr, hs⟩, ha⟩, hh⟩, hc⟩ := h
  exact ⟨⟨hr, hs, ha⟩, hh, hc⟩

theorem parked_reachable :
    ∃ c : Conf, Reachable {} c ∧ c.threads .request = none ∧ Parked 0 c.state := by
  obtain ⟨c, hr, -, ht⟩ := reachable_of_exec Schedule.launchAndPark
    (fun c => (c.threads .request).isNone && isParked c.state) (by decide +kernel)
  obtain ⟨hn, hp⟩ := Bool.and_eq_true_iff.1 ht
  exact ⟨c, hr, Option.isNone_iff_eq_none.1 hn, parked_of_isParked hp⟩

/-- A pause interrupts, a terminate does not, in a reachable state. -/
theorem pause_interrupts_terminate_queues : ∃ c : Conf, Reachable {} c ∧ Parked 0 c.state ∧
    InterruptsFirst (handleRequest (Schedule.message 3 "pause" [("threadId", .int 100)])) c.state ∧
    ¬InterruptsFirst (handleRequest (Schedule.message 3 "terminate")) c.state := by
  obtain ⟨c, hr, -, hp⟩ := parked_reachable
  refine ⟨c, hr, hp, ((interruptsFirst_iff hp).1 _).2 rfl, fun hi => ?_⟩
  cases ((interruptsFirst_iff hp).1 _).1 hi

/-- A terminate request queues behind the wait for a running target. -/
theorem terminate_queues_behind_wait : ¬∀ (c : Conf) (id : SessionId) (root : Json),
    Reachable {} c → c.threads .request = none → Parked id c.state → accepts root = true →
      InterruptsFirst (handleRequest root) c.state := by
  intro hall
  obtain ⟨c, hr, hn, hp⟩ := parked_reachable
  have queues : Queues (handleRequest (Schedule.message 3 "terminate")) c.state :=
    handleRequest_queues hp.session rfl
  exact queues.not_interruptsFirst (hall c 0 _ hr hn hp rfl)

end

end Server

end DapDbgeng
