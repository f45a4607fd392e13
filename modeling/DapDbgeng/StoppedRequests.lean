/-
  The requests that keep a halted target halted.

  Main results:

  * one lemma per handler: it is steady;
  * `Served.atStop`: after any sequence of these requests the target of the same session is still
    halted and the dispatcher idle.
-/
import DapDbgeng.AtStop
import DapDbgeng.Machine
import DapDbgeng.RespondsOnce

namespace DapDbgeng

open Concurrent Concurrent.Prog

namespace Server

section

variable {id : SessionId} {α : Type}

theorem fail_steady (request : Request α) (message : String) :
    Steady id .outside (fail request message) := .perform trivial

theorem sendResponse_steady (request : Request α) (body : Body) :
    Steady id .outside (sendResponse request body) := .perform trivial

theorem failUnwrapped_steady (request : Request α) (e : Exn) :
    Steady id .outside (failUnwrapped request e) := .perform trivial

/-- A handler that refuses while the target runs. -/
theorem atStop_steady {p q : Dap α} (h : Steady id .outside q) : Steady id .outside (do
    if ← load .isExecutionRunning then p else q) := .loadHalted h

theorem requirePositiveThreadId_steady (request : Request α) (threadId : Int) {p : Dap Unit}
    (h : Steady id .outside p) : Steady id .outside (do
      if ← requirePositiveThreadId request threadId then p else return) :=
  .bind (.ite (.ret _) (.bind (fail_steady request _) fun _ => .ret _)) fun _ => .ite h (.ret _)

theorem readSessionDataOrDefault_steady {reader : SessionId → Dap α} {fallback : α}
    (h : Steady id .outside (reader id)) :
    Steady id .outside (readSessionDataOrDefault reader fallback) := by
  refine .getSession <| .loadHalted <| .catching h fun e => ?_
  have unavailable : Steady id .outside isSessionUnavailable :=
    .bind (.perform trivial) fun _ => .ite (.ret _) <| .bind (.perform trivial) fun _ => .ret _
  exact .bind unavailable fun _ => .ite (.ret _) (.throw _)

theorem tryGetCurrentThreadId_steady : Steady id .outside (tryGetCurrentThreadId .request) :=
  .getSession <| .catching (.bind (.invoke Session.getCurrentThreadId_steady) fun _ => .ret _)
    fun _ => .ret _

/-! ## Inspection -/

theorem handleThreadsRequest_steady (request : Request Unit) :
    Steady id .outside (handleThreadsRequest request) := by
  have threads : Steady id .outside getThreads := by
    refine readSessionDataOrDefault_steady <| .bind tryGetCurrentThreadId_steady fun current =>
      .bind (.invoke Session.getThreadIds_steady) fun ids => ?_
    cases Factory.createThreads current ids with
    | ok threads => exact .ret _
    | error message => exact .throw _
  exact .bind threads fun _ => sendResponse_steady request _

theorem handleStackTraceRequest_steady (request : Request StackTraceArguments) :
    Steady id .outside (handleStackTraceRequest request) :=
  requirePositiveThreadId_steady request _ <|
    .bind (readSessionDataOrDefault_steady (.invoke (.bind (Session.setCurrentThread_steady _)
      fun _ => Session.getStackTraceDetails_steady _))) fun _ =>
        .bind (.perform trivial) fun _ => sendResponse_steady request _

theorem handleScopesRequest_steady (request : Request ScopesArguments) :
    Steady id .outside (handleScopesRequest request) := by
  refine .ite (fail_steady request _) (.bind (.perform trivial) fun d => ?_)
  cases d.frameContexts.get? request.arguments.frameId with
  | none => exact fail_steady request _
  | some context =>
    exact .bind (readSessionDataOrDefault_steady
      (.bind (.invoke (Session.getLocalsTree_steady _)) fun _ =>
        .bind (.invoke (Session.getRegisters_steady _)) fun _ => .ret _)) fun _ =>
          .bind (.perform trivial) fun _ => sendResponse_steady request _

theorem handleVariablesRequest_steady (request : Request VariablesArguments) :
    Steady id .outside (handleVariablesRequest request) := by
  refine .ite (fail_steady request _) (.bind (.perform trivial) fun d => ?_)
  cases d.variablesByReference.get? request.arguments.variablesReference with
  | none => exact fail_steady request _
  | some container => exact sendResponse_steady request _

theorem withThread_steady {action : Dap α} (threadId : Int) (h : Steady id .inside action) :
    Steady id .inside (withThread id threadId action) :=
  .bind Session.getCurrentThreadId_steady fun _ => .catching
    (.bind (Session.setCurrentThread_steady _) fun _ => .bind h fun _ =>
      .bind (Session.setCurrentThread_steady _) fun _ => .ret _) fun _ =>
        .bind (Session.setCurrentThread_steady _) fun _ => .throw _

theorem executeSet_steady (kind : VariableContainerKind) (commands : List Command) :
    ∀ lastFailure, Steady id .inside (executeSet id kind commands lastFailure) := by
  induction commands with
  | nil => exact fun _ => .throw _
  | cons command rest ih =>
    refine fun _ => .bind (.attempt (Session.executeCommandWithOutput_steady _ _)) fun r => ?_
    cases r with
    | ok _ => exact .ret _
    | error e => exact .ite (.throw _) <| .ite (.throw _) <| ih _

theorem assignVariable_steady (container : VariableContainerContext) (name value : String) :
    Steady id .inside (assignVariable id container name value) := by
  have readBack : Steady id .inside (readVariables id container) :=
    .ite (.bind (Session.getLocals_steady _) fun _ => .ret _)
      (.bind (Session.getRegisters_steady _) fun _ => .ret _)
  refine .bind (executeSet_steady _ _ _) fun _ => .bind readBack fun refreshed => ?_
  cases refreshed.find? fun v => v.name = name with
  | none => exact .throw _
  | some updated => exact .ret _

theorem assignStructField_steady (container : VariableContainerContext)
    (name expression value : String) :
    Steady id .inside (assignStructField id container name expression value) :=
  .bind (Session.setLocalValue_steady _ _ _) fun _ => .ret _

theorem handleSetStructField_steady (request : Request SetVariableArguments)
    (container : VariableContainerContext) :
    Steady id .outside (handleSetStructField request container) := by
  unfold handleSetStructField
  dsimp only
  cases container.variables_.find? fun v => v.name = request.arguments.name with
  | none => exact fail_steady request _
  | some child =>
    exact .catching (.requireDebuggerSession <| .bind
      (.invoke (withThread_steady _ (assignStructField_steady _ _ _ _))) fun _ =>
        .bind (.perform trivial) fun _ => sendResponse_steady request _)
      (failUnwrapped_steady request)

theorem handleSetTopLevelVariable_steady (request : Request SetVariableArguments)
    (container : VariableContainerContext) :
    Steady id .outside (handleSetTopLevelVariable request container) :=
  .requireDebuggerSession <| .catching
    (.bind (.invoke (withThread_steady _ (assignVariable_steady _ _ _))) fun _ =>
      .bind (.perform trivial) fun _ => sendResponse_steady request _)
    (failUnwrapped_steady request)

theorem handleSetVariableRequest_steady (request : Request SetVariableArguments) :
    Steady id .outside (handleSetVariableRequest request) := by
  refine .ite (fail_steady request _) <| .ite (fail_steady request _) <|
    .ite (fail_steady request _) <| atStop_steady <| .bind (.perform trivial) fun d => ?_
  cases d.variablesByReference.get? request.arguments.variablesReference with
  | none => exact fail_steady request _
  | some container =>
    exact .ite (handleSetStructField_steady request container)
      (handleSetTopLevelVariable_steady request container)

theorem evaluateInFrame_steady (context : FrameContext) (preferExpression : Bool)
    (expression : String) :
    Steady id .inside (evaluateInFrame id context preferExpression expression) := by
  have evaluated : Steady id .inside (do
      let command ← createEvaluateCommand expression (some context.frameNumber)
      Session.executeCommandWithOutput id command) :=
    .bind (.ite (.throw _) (.ret _)) fun _ => Session.executeCommandWithOutput_steady _ _
  refine .ite (.bind (.catching (.bind (Session.getLocalValue_steady _ _) fun _ => .ret _)
    fun _ => .ret _) fun resolved => ?_) (.bind (.ret _) fun resolved => ?_)
  all_goals
    cases resolved with
    | some value => exact .ret _
    | none => exact evaluated

theorem evaluate_steady (context : Option FrameContext) (preferExpression : Bool)
    (expression : String) :
    Steady id .inside (evaluate id context preferExpression expression) := by
  cases context with
  | none => exact Session.executeCommandWithOutput_steady _ _
  | some c => exact withThread_steady _ (evaluateInFrame_steady _ _ _)

theorem evaluateAtStop_steady (request : Request EvaluateArguments)
    (context : Option FrameContext) : Steady id .outside (evaluateAtStop request context) :=
  .ite (sendResponse_steady request _) <| atStop_steady <| .ite (fail_steady request _) <|
    .requireDebuggerSession <| .catching
      (.bind (.invoke (evaluate_steady _ _ _)) fun _ => sendResponse_steady request _)
      (failUnwrapped_steady request)

theorem handleEvaluateRequest_steady (request : Request EvaluateArguments) :
    Steady id .outside (handleEvaluateRequest request) := by
  unfold handleEvaluateRequest
  refine .ite (fail_steady request _) <| .ite (fail_steady request _) <|
    .ite (fail_steady request _) ?_
  cases request.arguments.frameId with
  | none => exact evaluateAtStop_steady request none
  | some frameId =>
    refine .ite (fail_steady request _) (.bind (.perform trivial) fun d => ?_)
    cases d.frameContexts.get? frameId with
    | none => exact fail_steady request _
    | some context => exact evaluateAtStop_steady request (some context)

theorem handleSetExpressionRequest_steady (request : Request SetExpressionArguments) :
    Steady id .outside (handleSetExpressionRequest request) := by
  unfold handleSetExpressionRequest
  refine .ite (fail_steady request _) <| .ite (fail_steady request _) ?_
  cases request.arguments.frameId with
  | none => exact fail_steady request _
  | some frameId =>
    refine .bind (.perform trivial) fun d => ?_
    cases d.frameContexts.get? frameId with
    | none => exact fail_steady request _
    | some context =>
      exact atStop_steady <| .catching (.requireDebuggerSession <| .bind
        (.invoke (withThread_steady _ (Session.setLocalValue_steady _ _ _))) fun _ =>
          sendResponse_steady request _) (failUnwrapped_steady request)

/-! ## Code, memory, modules, exceptions -/

theorem handleDisassembleRequest_steady (request : Request DisassembleArguments) :
    Steady id .outside (handleDisassembleRequest request) := by
  unfold handleDisassembleRequest
  cases tryReadDisassembleArguments request.arguments with
  | error message => exact fail_steady request _
  | ok a =>
    exact atStop_steady <| .getSession <| .catching
      (.bind (readSessionDataOrDefault_steady (.invoke (Session.disassemble_steady _ _ _ _)))
        fun _ => .bind (readSessionDataOrDefault_steady
          (.bind (.invoke (Session.getStackTrace_steady _)) fun _ => .ret _)) fun _ =>
            sendResponse_steady request _)
      (failUnwrapped_steady request)

theorem handleSourceRequest_steady (request : Request SourceArguments) :
    Steady id .outside (handleSourceRequest request) := by
  unfold handleSourceRequest
  cases (request.arguments.source.bind Source.path).filter fun p => !Text.isBlank p with
  | none => exact fail_steady request _
  | some path =>
    refine .bind (.perform trivial) fun content => ?_
    cases content with
    | none => exact fail_steady request _
    | some content => exact sendResponse_steady request _

theorem handleModulesRequest_steady (request : Request ModulesArguments) :
    Steady id .outside (handleModulesRequest request) :=
  .ite (fail_steady request _) <| atStop_steady <| .getSession <| .catching
    (.bind (readSessionDataOrDefault_steady (.invoke Session.getModules_steady)) fun _ =>
      sendResponse_steady request _)
    (failUnwrapped_steady request)

theorem handleReadMemoryRequest_steady (request : Request ReadMemoryArguments) :
    Steady id .outside (handleReadMemoryRequest request) := by
  unfold handleReadMemoryRequest
  dsimp only
  cases referenceAddress request.arguments.memoryReference with
  | none => exact fail_steady request _
  | some reference =>
    refine .ite (fail_steady request _) ?_
    cases Text.tryApplyByteOffset reference (request.arguments.offset.getD 0) with
    | none => exact fail_steady request _
    | some address =>
      exact atStop_steady <| .getSession <| .catching
        (.bind (readSessionDataOrDefault_steady (.invoke (Session.readMemory_steady _ _))) fun _ =>
          sendResponse_steady request _)
        (failUnwrapped_steady request)

theorem handleWriteMemoryRequest_steady (request : Request WriteMemoryArguments) :
    Steady id .outside (handleWriteMemoryRequest request) := by
  unfold handleWriteMemoryRequest
  dsimp only
  cases referenceAddress request.arguments.memoryReference with
  | none => exact fail_steady request _
  | some reference =>
    dsimp only
    cases Text.tryBase64Decode request.arguments.data with
    | none => exact fail_steady request _
    | some bytes =>
      dsimp only
      cases Text.tryApplyByteOffset reference (request.arguments.offset.getD 0) with
      | none => exact fail_steady request _
      | some address =>
        exact atStop_steady <| .getSession <| .catching (.requireDebuggerSession <|
          .bind (.invoke (Session.writeMemory_steady _ _)) fun _ => sendResponse_steady request _)
          (failUnwrapped_steady request)

theorem handleExceptionInfoRequest_steady (request : Request ThreadArguments) :
    Steady id .outside (handleExceptionInfoRequest request) := by
  refine atStop_steady <| .getSession <| .catching (.requireDebuggerSession <|
    .bind (.invoke Session.getLastException_steady) fun info => ?_) (failUnwrapped_steady request)
  cases info with
  | none => exact fail_steady request _
  | some e => exact sendResponse_steady request _

theorem handleDataBreakpointInfoRequest_steady (request : Request DataBreakpointInfoArguments) :
    Steady id .outside (handleDataBreakpointInfoRequest request) := by
  refine .ite (fail_steady request _) (.bind (.perform trivial) fun d => ?_)
  cases resolveDataBreakpointTarget request.arguments d with
  | error message => exact fail_steady request _
  | ok target =>
    exact .getSession <| .catching (.requireDebuggerSession <| .bind
      (.invoke (withThread_steady _ (Session.getSymbolAddress_steady _ _))) fun _ =>
        sendResponse_steady request _) (failUnwrapped_steady request)

/-! ## Breakpoints -/

theorem updateConditionalBreakpointState_steady (sourcePath : String)
    (configured : List SourceBreakpointResult) (requested : List SourceBreakpoint) :
    Steady id .outside (updateConditionalBreakpointState sourcePath configured requested) :=
  updateConditionalBreakpointState_composed (Q := fun {_} p => Steady id .outside p) (.ret _)
    (fun hp hf => .bind hp hf) (.perform trivial) fun _ _ => .perform trivial

theorem configureSetBreakpoints_steady (request : Request SetBreakpointsArguments)
    (sourcePath : String) : Steady id .outside (configureSetBreakpoints request sourcePath) :=
  .requireDebuggerSession <| .loadHalted <|
    .bind (.invoke (Session.setSourceBreakpoints_steady _ _)) fun _ =>
      .bind (updateConditionalBreakpointState_steady _ _ _) fun _ =>
        .bind (sendResponse_steady request _) fun _ => .ite (.ret _) (.perform trivial)

theorem handleSetBreakpointsRequest_steady (request : Request SetBreakpointsArguments) :
    Steady id .outside (handleSetBreakpointsRequest request) := by
  unfold handleSetBreakpointsRequest
  refine .ite (fail_steady request _) ?_
  cases request.arguments.source.path.filter fun p => !Text.isBlank p with
  | none => exact fail_steady request _
  | some sourcePath => exact configureSetBreakpoints_steady request sourcePath

theorem applyUpdate_steady {β : Type} (request : Request α) (name : String)
    {update : SessionId → Dap β} (h : Steady id .inside (update id)) (respond : β → Body) :
    Steady id .outside (applyUpdate request name update respond) :=
  .getSession <| .catching
    (.requireDebuggerSession <| .loadHalted <| .bind (.invoke h) fun _ =>
      sendResponse_steady request _)
    (failUnwrapped_steady request)

theorem handleSetFunctionBreakpointsRequest_steady (request : Request (List String)) :
    Steady id .outside (handleSetFunctionBreakpointsRequest request) :=
  .ite (fail_steady request _)
    (applyUpdate_steady request _ (Session.setCommandBreakpoints_steady _ _) _)

theorem handleSetInstructionBreakpointsRequest_steady
    (request : Request (List InstructionBreakpoint)) :
    Steady id .outside (handleSetInstructionBreakpointsRequest request) := by
  unfold handleSetInstructionBreakpointsRequest
  split
  · exact fail_steady request _
  · exact applyUpdate_steady request _ (Session.setCommandBreakpoints_steady _ _) _

theorem handleSetDataBreakpointsRequest_steady (request : Request (List DataBreakpoint)) :
    Steady id .outside (handleSetDataBreakpointsRequest request) := by
  unfold handleSetDataBreakpointsRequest
  split
  · exact fail_steady request _
  · exact applyUpdate_steady request _ (Session.setCommandBreakpoints_steady _ _) _

theorem handleSetExceptionBreakpointsRequest_steady (request : Request (List String)) :
    Steady id .outside (handleSetExceptionBreakpointsRequest request) :=
  applyUpdate_steady request _ (Session.setCppFirstChanceBreak_steady _) _

/-! ## Sequences -/

/-- The commands that keep a halted target halted. -/
def stoppedCommands : List String :=
  ["threads", "stackTrace", "scopes", "variables", "evaluate", "setVariable", "setExpression",
   "disassemble", "source", "modules", "readMemory", "writeMemory", "exceptionInfo",
   "dataBreakpointInfo", "setBreakpoints", "setFunctionBreakpoints", "setInstructionBreakpoints",
   "setDataBreakpoints", "setExceptionBreakpoints"]

variable {root : Json} {command : String}

theorem on_steady (name : String) (dec : Decoder α) {handler : Request α → Dap Unit}
    (h : ∀ request, Steady id .outside (handler request)) :
    Steady id .outside ((on name dec handler).2 root) := by
  change Steady id .outside (run _ _ _)
  unfold run
  cases decodeRequest name dec root with
  | error what => exact .throw _
  | ok request => exact h request

theorem handlers_steady (hc : command ∈ stoppedCommands) :
    ∀ entry ∈ handlers, entry.1 = command → Steady id .outside (entry.2 root) := by
  have other (name : String) {p : Dap Unit} (hn : name ∉ stoppedCommands) (he : name = command) :
      Steady id .outside p := absurd hc (he ▸ hn)
  simp only [handlers, List.forall_mem_cons]
  exact ⟨other _ (by decide), other _ (by decide), other _ (by decide),
    fun _ => on_steady _ _ handleDataBreakpointInfoRequest_steady,
    fun _ => on_steady _ _ handleDisassembleRequest_steady, other _ (by decide),
    fun _ => on_steady _ _ handleEvaluateRequest_steady,
    fun _ => on_steady _ _ handleExceptionInfoRequest_steady, other _ (by decide),
    other _ (by decide), fun _ => on_steady _ _ handleModulesRequest_steady,
    other _ (by decide), other _ (by decide),
    fun _ => on_steady _ _ handleReadMemoryRequest_steady,
    fun _ => on_steady _ _ handleScopesRequest_steady,
    fun _ => on_steady _ _ handleSetBreakpointsRequest_steady,
    fun _ => on_steady _ _ handleSetDataBreakpointsRequest_steady,
    fun _ => on_steady _ _ handleSetExceptionBreakpointsRequest_steady,
    fun _ => on_steady _ _ handleSetExpressionRequest_steady,
    fun _ => on_steady _ _ handleSetFunctionBreakpointsRequest_steady,
    fun _ => on_steady _ _ handleSetInstructionBreakpointsRequest_steady,
    fun _ => on_steady _ _ handleSetVariableRequest_steady,
    fun _ => on_steady _ _ handleSourceRequest_steady,
    fun _ => on_steady _ _ handleStackTraceRequest_steady,
    other _ (by decide), other _ (by decide), other _ (by decide),
    fun _ => on_steady _ _ handleThreadsRequest_steady,
    fun _ => on_steady _ _ handleVariablesRequest_steady,
    fun _ => on_steady _ _ handleWriteMemoryRequest_steady,
    other _ (by decide), other _ (by decide), other _ (by decide), other _ (by decide),
    other _ (by decide), other _ (by decide), other _ (by decide), other _ (by decide),
    other _ (by decide), other _ (by decide), other _ (by decide), other _ (by decide),
    other _ (by decide), other _ (by decide), other _ (by decide), by simp⟩

/-- A request that keeps a halted target halted. -/
def KeepsStop (root : Json) : Prop :=
  accepts root = true ∧ ∃ command ∈ stoppedCommands, Decoder.valueString "command" root = .ok command

theorem recover_steady (e : Exn) : Steady id .outside (recover root e) := by
  have report (e : Exn) : Steady id .outside (reportFailure root e) := by
    unfold reportFailure
    split
    · exact .ite (.ret _) (.perform trivial)
    · exact .ret _
  cases e with
  | unhandledRequest => exact .perform trivial
  | runtime => exact report _
  | dispatcherFailure => exact report _

theorem handle_steady (h : KeepsStop root) : Steady id .outside (handle root) := by
  obtain ⟨ha, command, hm, hc⟩ := h
  rw [handle_of_accepts ha, dispatchRequest, hc]
  dsimp only
  cases hl : handlers.lookup command with
  | none =>
    change Steady id .outside (run _ _ _)
    unfold run
    split
    · exact .throw _
    · exact .throw _
  | some handler => exact handlers_steady hm (command, handler) (mem_of_lookup hl) rfl

theorem handleRequest_steady (h : KeepsStop root) : Steady id .outside (handleRequest root) :=
  .bind (.perform trivial) fun _ => .bind (.perform trivial) fun _ => .bind (.perform trivial)
    fun _ => .bind (.catching (handle_steady h) recover_steady) fun _ =>
      .bind (.perform trivial) fun _ => .bind (.perform trivial) fun _ => .ret _

/-- The request thread serves the messages one after the other, alone. -/
inductive Served : List Json → Server → Server → Prop
  | nil (s : Server) : Served [] s s
  | cons {root roots s s₁ s₂ shouldExit}
      (h : Returns (sem .request) (handleRequest root) s shouldExit s₁)
      (hs : Served roots s₁ s₂) : Served (root :: roots) s s₂

/-- **At a stop**: whatever these requests do, the target stays halted and the dispatcher idle. -/
theorem Served.atStop {roots : List Json} {s s' : Server} (h : Served roots s s')
    (hk : ∀ root ∈ roots, KeepsStop root) (hs : AtStop id {} s) : AtStop id {} s' := by
  induction h with
  | nil => exact hs
  | cons h _ ih =>
    obtain ⟨es, h⟩ := h
    obtain ⟨v, hv, hw⟩ := wp_view stopPre_step h hs (handleRequest_steady (hk _ (by simp)) false)
    have hv' : v = {} := hw
    exact ih (fun root hr => hk root (by simp [hr])) (hv' ▸ hv)

/-- Serve the messages with the given answers. -/
def serveAll (a : Answers) : List Json → Server → Option Server
  | [], s => some s
  | root :: roots, s =>
    match (handleRequest root).eval (apply .request a) 4000 s with
    | some (.ok _, s') => serveAll a roots s'
    | _ => none

theorem served_of_serveAll {a : Answers} {roots : List Json} {s s' : Server}
    (h : serveAll a roots s = some s') : Served roots s s' := by
  induction roots generalizing s with
  | nil => cases h; exact .nil _
  | cons root roots ih =>
    simp only [serveAll] at h
    split at h
    · rename_i b s₁ he
      exact .cons (.of_eval (fun o s b s' ho => ⟨a, ho⟩) he) (ih h)
    · cases h

/-- A stop of session 0, by what a test can see of it. -/
def isAtStop (s : Server) : Bool :=
  !s.flags .isExecutionRunning && s.session == some 0 && !(s.sessions 0).disposed &&
    (s.sessions 0).outputCapture.isNone && s.queue == [] && s.holder == none && s.inCall == none

theorem atStop_of_isAtStop {s : Server} (h : isAtStop s = true) : AtStop 0 {} s := by
  simp only [isAtStop, Bool.and_eq_true, beq_iff_eq, Bool.not_eq_true',
    Option.isNone_iff_eq_none] at h
  obtain ⟨⟨⟨⟨⟨⟨hr, hs⟩, ha⟩, ho⟩, hq⟩, hh⟩, hc⟩ := h
  exact ⟨hr, hs, ha, by rw [ho]; rfl, hq, hh, fun _ => hc⟩

end

end Server

end DapDbgeng
