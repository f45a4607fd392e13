/-
  What the handlers of the requests may do.

  A permit says which reports a program may send and whether it may give up or create a session,
  register frames and containers, record a stop and set the target running.  Main results:

  * one lemma per handler: the operations it performs are those of its permit;
  * `handleRequest_permitted`: no request takes what the engine callbacks record, and none skips
    a break;
  * the same for the wait loop, the detached wait and the destructor.
-/
import DapDbgeng.Machine
import DapDbgeng.RespondsOnce

namespace DapDbgeng

open Concurrent Concurrent.Prog

/-- The events that report on the target or its threads. -/
def Event.isReport : Event → Bool
  | .stopped _ | .continued .. | .exited _ | .terminated | .thread .. => true
  | _ => false

def Message.isReport : Message → Bool
  | .event e => e.isReport
  | .response _ => false

/-- A write to the tables that registers no frame and no container where there was none. -/
def KeepsEmpty {β : Type} (f : Tables → β × Tables) : Prop :=
  ∀ d, d.frameContexts = [] → d.variablesByReference = [] →
    (f d).2.frameContexts = [] ∧ (f d).2.variablesByReference = []

structure Permit where
  reports : Event → Prop := fun _ => False
  replaces : Prop := False
  creates : Prop := False
  registers : Prop := False
  records : Prop := False
  resumes : Prop := False

/-- The operations under a permit.  The recorded stop, the buffered thread events and the parked
session are for the callbacks; only what records a stop and sets the target running steps. -/
def Permit.allows (P : Permit) : ∀ {β : Type}, DapOp β → Prop
  | _, .store .isExecutionRunning true => P.resumes
  | _, .store .skipNextBreakHitEvent true => False
  | _, .setPending p => P.records ∧ (p.reason = .step ∨ p.reason = .pause)
  | _, .takePending | _, .pushThreadEvent _ | _, .takeThreadEvents | _, .park _ => False
  | _, .modify f => P.registers ∨ KeepsEmpty f
  | _, .send (.event e) => e.isReport = true → P.reports e
  | _, .setSession (some _) | _, .newSession => P.creates
  | _, .setSession none | _, .takeSession => P.replaces
  | _, .call _ (.execute c) => c.isStep = true → P.records ∧ P.resumes
  | _, _ => True

abbrev Permitted {α : Type} (P : Permit) (p : Dap α) : Prop := AllOps P.allows p

/-- The calls under a permit. -/
def Permit.calls (P : Permit) : ∀ {β : Type}, Call β → Prop
  | _, .execute c => c.isStep = true → P.records ∧ P.resumes
  | _, _ => True

theorem Call.stepless.permitted {P : Permit} {β : Type} {c : Call β} (h : c.stepless) :
    P.calls c := by
  cases c with
  | execute command =>
    intro hs
    have h : command.isStep = false := h
    rw [h] at hs
    cases hs
  | _ => trivial

instance {P : Permit} : AllowsFixed P.calls where
  allows c hc := (AllowsFixed.allows (C := Call.stepless) c hc).permitted

theorem Permit.allows_of_quiet {P : Permit} {β : Type} {o : DapOp β}
    (h : o.quiet P.calls) : P.allows o := by
  cases o with
  | call id c => cases c <;> exact h
  | send m => cases m with
    | response r => exact h.elim
    | event e => cases e <;> first | exact h.elim | exact nofun
  | store | setPending | takePending | pushThreadEvent | takeThreadEvents | park => exact h.elim
  | modify | setSession | takeSession | newSession => exact h.elim
  | _ => trivial

theorem permitted_of_quiet {P : Permit} {α : Type} {p : Dap α}
    (h : AllOps (DapOp.quiet P.calls) p) : Permitted P p := h.mono fun _ => Permit.allows_of_quiet

theorem permitted_of_stepless {P : Permit} {α : Type} {p : Dap α}
    (h : AllOps (DapOp.quiet Call.stepless) p) : Permitted P p :=
  permitted_of_quiet (h.mono (DapOp.quiet_mono fun _ => Call.stepless.permitted))

theorem Quiet.permitted {P : Permit} {α : Type} {p : Dap α} (h : Quiet p) : Permitted P p :=
  permitted_of_stepless (h.mono (DapOp.quiet_mono fun _ => Call.routine.stepless))

/-- `P` permits no more than `P'`. -/
structure Permit.Within (P P' : Permit) : Prop where
  reports : ∀ e, P.reports e → P'.reports e
  replaces : P.replaces → P'.replaces
  creates : P.creates → P'.creates
  registers : P.registers → P'.registers
  records : P.records → P'.records
  resumes : P.resumes → P'.resumes

theorem Permit.Within.allows {P P' : Permit} (h : P.Within P') {β : Type} {o : DapOp β}
    (ho : P.allows o) : P'.allows o := by
  cases o with
  | store f b =>
    cases f with
    | isExecutionRunning => cases b <;> first | trivial | exact h.resumes ho
    | skipNextBreakHitEvent => cases b <;> trivial
    | _ => trivial
  | setPending p => exact ⟨h.records ho.1, ho.2⟩
  | modify f => exact ho.imp h.registers id
  | send m => cases m with
    | response r => trivial
    | event e => exact fun he => h.reports e (ho he)
  | setSession session => cases session with
    | none => exact h.replaces ho
    | some id => exact h.creates ho
  | newSession => exact h.creates ho
  | takeSession => exact h.replaces ho
  | call id c =>
    cases c with
    | execute command => exact fun hs => (ho hs).imp h.records h.resumes
    | _ => trivial
  | takePending | pushThreadEvent | takeThreadEvents | park => exact ho
  | _ => trivial

theorem Permitted.mono {P P' : Permit} {α : Type} {p : Dap α} (hp : Permitted P p)
    (h : P.Within P') : Permitted P' p := AllOps.mono (fun _ ho => h.allows ho) hp

namespace Server

section

variable {P : Permit} {α : Type}

/-! ## What the handlers share -/

theorem fail_permitted (request : Request α) (message : String) :
    Permitted P (fail request message) := .perform trivial

theorem failUnwrapped_permitted (request : Request α) (e : Exn) :
    Permitted P (failUnwrapped request e) := .perform trivial

theorem sendResponse_permitted (request : Request α) (body : Body) :
    Permitted P (sendResponse request body) := .perform trivial

theorem store_permitted (f : Flag) : Permitted P (store f false) := by
  refine .perform ?_
  cases f <;> trivial

theorem modifyTables_permitted {f : Tables → Tables} (h : KeepsEmpty fun d => ((), f d)) :
    Permitted P (modifyTables f) := .perform (.inr h)

theorem invoke_permitted {t : Tid} {p : Dap α} (h : Permitted P p) :
    Permitted P (invoke t p) := by
  refine .ite h (.bind (.perform trivial) fun _ => .bind (.perform trivial) fun _ =>
    .bind h.attempt fun r => .bind (.perform trivial) fun _ => ?_)
  cases r <;> trivial

theorem requireDebuggerSession_permitted : Permitted P requireDebuggerSession := by
  refine .bind (.perform trivial) fun session => ?_
  cases session <;> trivial

theorem tryGetCurrentThreadId_permitted (t : Tid) : Permitted P (tryGetCurrentThreadId t) := by
  refine .bind (.perform trivial) fun session => ?_
  cases session with
  | none => trivial
  | some id =>
    exact .catching (.bind (Quiet.permitted (invoke_quiet (Session.getCurrentThreadId_quiet id)))
      fun _ => trivial) fun _ => trivial

theorem resetLaunchConfigurationState_permitted : Permitted P resetLaunchConfigurationState :=
  .bind (store_permitted _) fun _ => .bind (store_permitted _) fun _ =>
    modifyTables_permitted fun _ hf hv => ⟨hf, hv⟩

theorem resetSuspendedState_permitted : Permitted P resetSuspendedState :=
  .bind (modifyTables_permitted fun _ _ _ => ⟨rfl, rfl⟩) fun _ => .perform trivial

/-! ### The session -/

theorem destroy_permitted (t : Tid) (id : SessionId) : Permitted P (Session.destroy t id) :=
  permitted_of_stepless (Session.destroy_quiet id trivial t)

theorem clearConditions_permitted : Permitted P clearConditions :=
  .bind (modifyTables_permitted fun _ hf hv => ⟨hf, hv⟩) fun _ =>
    modifyTables_permitted fun _ hf hv => ⟨hf, hv⟩

theorem resetAfterDispose_permitted (h : P.replaces) : Permitted P resetAfterDispose :=
  .bind (.perform h) fun _ => .bind (store_permitted _) fun _ => .bind (store_permitted _) fun _ =>
    .bind resetLaunchConfigurationState_permitted fun _ => .bind (.perform trivial) fun _ =>
      .bind (.perform trivial) fun _ => .bind clearConditions_permitted fun _ =>
          .bind resetSuspendedState_permitted fun _ => .bind (store_permitted _) fun _ =>
            .bind (store_permitted _) fun _ => .bind (store_permitted _) fun _ => store_permitted _

theorem disposeDebuggerSession_permitted (h : P.replaces) :
    Permitted P (disposeDebuggerSession .request) := by
  refine .bind (.perform h) fun session => ?_
  cases session with
  | none => exact resetAfterDispose_permitted h
  | some id =>
    exact .bind (.catching (invoke_permitted (destroy_permitted _ id)) fun _ => trivial)
      fun _ => resetAfterDispose_permitted h

theorem createDebuggerSession_permitted (h : P.replaces) (hc : P.creates) (enginePath : String) :
    Permitted P (createDebuggerSession enginePath) :=
  .bind (disposeDebuggerSession_permitted h) fun _ =>
    .bind (invoke_permitted (Session.create_allowed hc (fun _ ho => Permit.allows_of_quiet
      (DapOp.quiet_mono (fun _ hr => hr.stepless.permitted) _ ho)) enginePath)) fun _ =>
      .bind (.perform hc) fun _ => trivial

theorem firstExisting_permitted : ∀ candidates, Permitted P (firstExisting candidates)
  | [] => trivial
  | _ :: rest => .bind (.perform trivial) fun _ => .ite trivial (firstExisting_permitted rest)

theorem tryResolveDebuggerEnginePath_permitted (requested : Option String) :
    Permitted P (tryResolveDebuggerEnginePath requested) := by
  unfold tryResolveDebuggerEnginePath
  cases requested.filter fun p => !Text.isBlank p with
  | some path => exact firstExisting_permitted _
  | none =>
    refine .bind (.perform trivial) fun base => .bind (firstExisting_permitted _) fun bundled => ?_
    cases bundled with
    | some path => trivial
    | none =>
      have candidate (v : String) : Permitted P (sdkCandidate v) :=
        .bind (.perform trivial) fun _ => trivial
      exact .bind (.mapEach candidate _) fun _ => firstExisting_permitted _

theorem applySessionConfiguration_permitted (id : SessionId) (configuration : SessionConfiguration) :
    Permitted P (applySessionConfiguration id configuration) := by
  obtain ⟨symbolPath, sourcePath⟩ := configuration
  refine .bind (invoke_permitted (Session.enableSourceLineSupport_quiet id).permitted) fun _ => ?_
  cases sourcePath with
  | none =>
    cases symbolPath with
    | none => trivial
    | some paths =>
      exact .bind (invoke_permitted (Session.setSymbolPath_quiet id paths).permitted)
        fun _ => trivial
  | some sources =>
    have source : Permitted P (invoke .request (Session.setSourcePath id sources)) :=
      invoke_permitted (Session.setSourcePath_quiet id sources).permitted
    cases symbolPath with
    | none => exact source
    | some paths =>
      exact .bind (invoke_permitted (Session.setSymbolPath_quiet id paths).permitted)
        fun _ => source

theorem runWithSuppressedSessionEvents_permitted {p : Dap α} (h : Permitted P p) :
    Permitted P (runWithSuppressedSessionEvents p) :=
  .bind (.perform trivial) fun _ =>
    .bind (.catching h fun _ => .bind (.perform trivial) fun _ => trivial) fun _ =>
      .bind (.perform trivial) fun _ => trivial

theorem readSessionDataOrDefault_permitted {reader : SessionId → Dap α} {fallback : α}
    (h : ∀ id, Permitted P (reader id)) :
    Permitted P (readSessionDataOrDefault reader fallback) := by
  have unavailable : Permitted P isSessionUnavailable :=
    .bind (.perform trivial) fun _ => .ite trivial (.bind (.perform trivial) fun _ => trivial)
  refine .bind (.perform trivial) fun session => ?_
  cases session with
  | none => trivial
  | some id =>
    exact .bind (.perform trivial) fun _ => .ite trivial <| .catching (h id) fun _ =>
      .bind unavailable fun _ => .ite trivial trivial

/-! ### The wait loop -/

theorem drainPendingDisposedSession_permitted (t : Tid) :
    Permitted P (drainPendingDisposedSession t) := by
  refine .bind (.perform trivial) fun session => ?_
  cases session with
  | none => trivial
  | some id => exact .catching (invoke_permitted (destroy_permitted t id)) fun _ => trivial

theorem joinWaitLoop_permitted : Permitted P joinWaitLoop :=
  .bind (.perform trivial) fun _ => .bind (.perform trivial) fun _ =>
    .bind (.perform trivial) fun _ => .ite
      (.bind (.perform trivial) fun _ => drainPendingDisposedSession_permitted _)
      (drainPendingDisposedSession_permitted _)

theorem startWaitingForSessionEvent_permitted (id : SessionId) :
    Permitted P (startWaitingForSessionEvent id) := by
  have start : Permitted P (do
      store .sessionStopOrExitObserved false
      store .waitLoopActive true
      Prog.perform (.spawnLoop id)
      Prog.perform .unlockGate) :=
    .bind (.perform trivial) fun _ => .bind (.perform trivial) fun _ =>
      .bind (.perform trivial) fun _ => .perform trivial
  exact .bind (.perform trivial) fun _ => .bind (.perform trivial) fun _ =>
    .ite (.perform trivial) (.bind (.perform trivial) fun _ =>
      .ite (.bind (.perform trivial) fun _ => start) start)

theorem restoreSourceLineSteppingIfNeeded_permitted (t : Tid) (id : SessionId) :
    Permitted P (restoreSourceLineSteppingIfNeeded t id) :=
  .bind (.perform trivial) fun _ => .ite
    (.bind (.catching (invoke_permitted (Session.enableSourceLineStepping_quiet id).permitted)
      fun _ => trivial) fun _ => .perform trivial) trivial

theorem waitLoopCondition_permitted (id : SessionId) : Permitted P (waitLoopCondition id) :=
  .bind (.perform trivial) fun _ => .ite (.bind (.perform trivial) fun _ => trivial) trivial

theorem waitLoopBody_permitted (id : SessionId) : Permitted P (waitLoopBody id) :=
  .bind (invoke_permitted (Quiet.permitted (Session.waitForEvent_quiet id))) fun _ =>
    .bind (.perform trivial) fun _ => .ite (restoreSourceLineSteppingIfNeeded_permitted _ id) trivial

theorem waitLoopEnd_permitted : Permitted P waitLoopEnd :=
  .bind (drainPendingDisposedSession_permitted _) fun _ => .bind (.perform trivial) fun _ =>
    .bind (.perform trivial) fun _ => .bind (.perform trivial) fun _ => .perform trivial

theorem pumpAfterKernelDisconnect_permitted (id : SessionId) :
    Permitted P (pumpAfterKernelDisconnect id) :=
  .catching (invoke_permitted (Quiet.permitted (Session.waitForEvent_quiet id))) fun _ => trivial

theorem teardown_permitted (h : P.replaces) : Permitted P teardown :=
  .bind (disposeDebuggerSession_permitted h) fun _ => joinWaitLoop_permitted

/-! ## Setting the target going and stopping it -/

theorem check_permitted (request : Request α) {c : Prop} [Decidable c] (message : String)
    {p : Dap Unit} (h : Permitted P p) : Permitted P (do
      if ← (if c then return true else do fail request message; return false) then p
      else return) :=
  .bind (.ite trivial (.bind (fail_permitted request message) fun _ => trivial)) fun _ =>
    .ite h trivial

/-- A guard that refuses while the target runs. -/
theorem atStop_permitted {p q : Dap α} (hp : Permitted P p) (hq : Permitted P q) :
    Permitted P (do if ← load .isExecutionRunning then p else q) :=
  .bind (.perform trivial) fun _ => .ite hp hq

theorem go_permitted (id : SessionId) (message : String) :
    Permitted P (Session.resume id .go message) :=
  permitted_of_stepless (Session.resume_quiet id rfl message)

/-- Stepping is for what records a stop and sets the target running. -/
theorem step_permitted (hr : P.records) (h : P.resumes) (id : SessionId) (command : Command)
    (message : String) : Permitted P (Session.resume id command message) :=
  permitted_of_quiet (Session.resume_quiet id (fun _ => ⟨hr, h⟩) message)

theorem continueTarget_permitted (h : P.resumes) (id : SessionId) (threadId : Int) :
    Permitted P (continueTarget id threadId) :=
  .catching (.bind (invoke_permitted (Quiet.permitted (Session.setCurrentThread_quiet id _))) fun _ =>
    .bind (.perform h) fun _ =>
      .bind (invoke_permitted (go_permitted id _)) fun _ =>
        resetSuspendedState_permitted) fun _ => .bind (.perform trivial) fun _ => trivial

theorem handleContinueRequest_permitted (h : P.resumes) (hr : ∀ t a, P.reports (.continued t a))
    (request : Request ExecutionArguments) : Permitted P (handleContinueRequest request) :=
  check_permitted request _ <| check_permitted request _ <|
    atStop_permitted (fail_permitted request _) <| .bind requireDebuggerSession_permitted fun id =>
      .bind (continueTarget_permitted h id _) fun _ =>
        .bind (sendResponse_permitted request _) fun _ =>
          .bind (.perform fun _ => hr _ _) fun _ => startWaitingForSessionEvent_permitted id

theorem prepareSteppingGranularity_permitted (id : SessionId)
    (granularity : Option SteppingGranularity) :
    Permitted P (prepareSteppingGranularity id granularity) :=
  .ite (.bind (invoke_permitted (Session.enableInstructionStepping_quiet id).permitted) fun _ =>
      .perform trivial)
    (.bind (invoke_permitted (Session.enableSourceLineStepping_quiet id).permitted) fun _ =>
      .perform trivial)

theorem handleStep_permitted (h : P.resumes) (hr : P.records) {kind : StepKind}
    (hk : ∀ id, Permitted P (kind.step id)) (request : Request ExecutionArguments) :
    Permitted P (handleStep kind request) := by
  refine atStop_permitted (fail_permitted request _) <|
    .bind requireDebuggerSession_permitted fun id => .bind ?_ fun _ =>
      sendResponse_permitted request _
  refine .catching (.bind (invoke_permitted (Quiet.permitted (Session.setCurrentThread_quiet id _)))
    fun _ => .bind (prepareSteppingGranularity_permitted id _) fun _ => ?_) fun _ => ?_
  · exact .bind (.perform ⟨hr, .inl rfl⟩) fun _ => .bind (.perform h) fun _ =>
      .bind (invoke_permitted (hk id)) fun _ => .bind resetSuspendedState_permitted
        fun _ => startWaitingForSessionEvent_permitted id
  · exact .bind (.perform trivial) fun _ => .bind (.perform trivial) fun _ =>
      .bind (restoreSourceLineSteppingIfNeeded_permitted _ id) fun _ => trivial

theorem handleCheckedStep_permitted (h : P.resumes) (hr : P.records) {kind : StepKind}
    (hk : ∀ id, Permitted P (kind.step id)) (request : Request ExecutionArguments) :
    Permitted P (handleCheckedStep kind request) :=
  check_permitted request _ <| check_permitted request _ <| handleStep_permitted h hr hk request

theorem handleStepInRequest_permitted (h : P.resumes) (hr : P.records)
    (request : Request ExecutionArguments) : Permitted P (handleStepInRequest request) :=
  check_permitted request _ <| check_permitted request _ <| check_permitted request _ <|
    handleStep_permitted h hr (fun id => step_permitted hr h id _ _) request

theorem interrupt_permitted (id : SessionId) : Permitted P (Session.interrupt id) :=
  (Quiet.permitted (Session.interrupt_quiet id))

theorem handlePauseRequest_permitted (h : P.records) (request : Request ThreadArguments) :
    Permitted P (handlePauseRequest request) := by
  have pause (id : SessionId) : Permitted P (pauseTarget id) :=
    .catching (.bind resetSuspendedState_permitted fun _ =>
      .bind (.perform ⟨h, .inr rfl⟩) fun _ => .bind (interrupt_permitted id) fun _ =>
        startWaitingForSessionEvent_permitted id) fun _ => .bind (.perform trivial) fun _ => trivial
  exact check_permitted request _ <| atStop_permitted
    (.bind requireDebuggerSession_permitted fun id => .bind (pause id) fun _ =>
      sendResponse_permitted request _) (fail_permitted request _)

theorem resumeAfterConfigurationDone_permitted (h : P.resumes)
    (hr : ∀ t a, P.reports (.continued t a)) (id : SessionId) (threadId : Int) :
    Permitted P (resumeAfterConfigurationDone id threadId) :=
  .catching (.bind resetSuspendedState_permitted fun _ => .bind (.perform h) fun _ =>
    .bind (invoke_permitted (go_permitted id _)) fun _ =>
      .bind (.perform fun _ => hr _ _) fun _ => startWaitingForSessionEvent_permitted id)
    fun _ => .perform trivial

/-- What is left of the automatic resume once a session is found. -/
theorem continueAfterConfigurationDone_permitted (h : P.resumes)
    (hr : ∀ t a, P.reports (.continued t a)) (id : SessionId) : Permitted P (do
      if ← load .isExecutionRunning then return
      else do
        let d ← getTables
        let threadId ← if d.launchThreadId.isSome then pure d.launchThreadId
          else tryGetCurrentThreadId .request
        match threadId with
        | none => return
        | some threadId => resumeAfterConfigurationDone id threadId) := by
  have resumeOn (threadId : Option Int) : Permitted P (match threadId with
      | none => pure ()
      | some threadId => resumeAfterConfigurationDone id threadId) := by
    cases threadId with
    | none => trivial
    | some threadId => exact resumeAfterConfigurationDone_permitted h hr id threadId
  exact .bind (.perform trivial) fun _ => .ite trivial <| .bind (.perform trivial) fun _ =>
    .ite (resumeOn _) (.bind (tryGetCurrentThreadId_permitted _) fun _ => resumeOn _)

theorem handleConfigurationDoneRequest_permitted (h : P.resumes)
    (hr : ∀ t a, P.reports (.continued t a)) (request : Request Unit) :
    Permitted P (handleConfigurationDoneRequest request) := by
  have continueAfter : Permitted P continueAfterConfigurationDone := by
    refine .bind (.perform trivial) fun session => ?_
    cases session with
    | none => trivial
    | some id => exact continueAfterConfigurationDone_permitted h hr id
  exact .bind (sendResponse_permitted request _) fun _ => .bind (.perform trivial) fun _ =>
    .bind (.perform trivial) fun _ => .ite
      (.bind continueAfter fun _ => resetLaunchConfigurationState_permitted)
      resetLaunchConfigurationState_permitted

/-! ## Breakpoints -/

theorem applyBreakpointUpdateWhileRunning_permitted (h : P.resumes) (id : SessionId)
    {update : Dap α} (hu : Permitted P update) :
    Permitted P (applyBreakpointUpdateWhileRunning id update) := by
  have action : Permitted P (do
      Session.interrupt id
      joinWaitLoop
      let result ← update
      store .isExecutionRunning true
      invoke .request (Session.continue_ id)
      return result) :=
    .bind (interrupt_permitted id) fun _ => .bind joinWaitLoop_permitted fun _ =>
      .bind hu fun _ => .bind (.perform h) fun _ =>
        .bind (invoke_permitted (go_permitted id _)) fun _ => trivial
  exact .bind (runWithSuppressedSessionEvents_permitted action) fun _ =>
    .bind (startWaitingForSessionEvent_permitted id) fun _ => trivial

theorem updateConditionalBreakpointState_permitted (sourcePath : String)
    (configured : List SourceBreakpointResult) (requested : List SourceBreakpoint) :
    Permitted P (updateConditionalBreakpointState sourcePath configured requested) :=
  updateConditionalBreakpointState_composed (Q := fun {_} p => Permitted P p) trivial
    (fun hp hf => .bind hp hf) (.perform trivial) fun _ h =>
      modifyTables_permitted fun d hf hv => ⟨(h d).1.trans hf, (h d).2.trans hv⟩

theorem handleSetBreakpointsRequest_permitted (h : P.resumes)
    (request : Request SetBreakpointsArguments) :
    Permitted P (handleSetBreakpointsRequest request) := by
  have update (id : SessionId) (path : String) (specs : List SourceBreakpointSpec) :
      Permitted P (invoke .request (Session.setSourceBreakpoints id path specs)) :=
    invoke_permitted (Session.setSourceBreakpoints_quiet id path specs).permitted
  unfold handleSetBreakpointsRequest
  refine .ite (fail_permitted request _) ?_
  cases request.arguments.source.path.filter fun p => !Text.isBlank p with
  | none => exact fail_permitted request _
  | some sourcePath =>
    have finish (configured : List SourceBreakpointResult) (requested : List SourceBreakpoint)
        (body : Body) (c : Prop) [Decidable c] (e : Event) (he : e.isReport = false) :
        Permitted P (do
          updateConditionalBreakpointState sourcePath configured requested
          sendResponse request body
          if c then return else sendEvent e) :=
      .bind (updateConditionalBreakpointState_permitted _ _ _) fun _ =>
        .bind (sendResponse_permitted request _) fun _ =>
          .ite trivial (.perform fun h => by rw [he] at h; cases h)
    exact .bind requireDebuggerSession_permitted fun id => .bind (.perform trivial) fun _ =>
      .ite (.bind (applyBreakpointUpdateWhileRunning_permitted h id (update id _ _)) fun _ =>
        finish _ _ _ _ _ rfl) (.bind (update id _ _) fun _ => finish _ _ _ _ _ rfl)

theorem applyUpdate_permitted {β : Type} (h : P.resumes) (request : Request α) (name : String)
    {update : SessionId → Dap β} (hu : ∀ id, Quiet (update id)) (respond : β → Body) :
    Permitted P (applyUpdate request name update respond) := by
  refine .bind (.perform trivial) fun session => ?_
  cases session with
  | none => exact fail_permitted request _
  | some _ =>
    refine .catching (.bind requireDebuggerSession_permitted fun id => ?_) fun e =>
      failUnwrapped_permitted request e
    have apply : Permitted P (invoke .request (update id)) := invoke_permitted (hu id).permitted
    exact .bind (.perform trivial) fun _ => .ite
      (.bind (applyBreakpointUpdateWhileRunning_permitted h id apply) fun _ =>
        sendResponse_permitted request _)
      (.bind apply fun _ => sendResponse_permitted request _)

theorem handleSetFunctionBreakpointsRequest_permitted (h : P.resumes)
    (request : Request (List String)) :
    Permitted P (handleSetFunctionBreakpointsRequest request) :=
  .ite (fail_permitted request _)
    (applyUpdate_permitted h request _ (fun id => Session.setFunctionBreakpoints_quiet id _) _)

theorem handleSetInstructionBreakpointsRequest_permitted (h : P.resumes)
    (request : Request (List InstructionBreakpoint)) :
    Permitted P (handleSetInstructionBreakpointsRequest request) := by
  unfold handleSetInstructionBreakpointsRequest
  split
  · exact fail_permitted request _
  · exact applyUpdate_permitted h request _
      (fun id => Session.setInstructionBreakpoints_quiet id _) _

theorem handleSetDataBreakpointsRequest_permitted (h : P.resumes)
    (request : Request (List DataBreakpoint)) :
    Permitted P (handleSetDataBreakpointsRequest request) := by
  unfold handleSetDataBreakpointsRequest
  split
  · exact fail_permitted request _
  · exact applyUpdate_permitted h request _ (fun id => Session.setDataBreakpoints_quiet id _) _

theorem handleSetExceptionBreakpointsRequest_permitted (h : P.resumes)
    (request : Request (List String)) :
    Permitted P (handleSetExceptionBreakpointsRequest request) :=
  applyUpdate_permitted h request _ (fun id => Session.setCppFirstChanceBreak_quiet id _) _

/-! ## Inspection -/

theorem getThreads_permitted : Permitted P getThreads := by
  refine readSessionDataOrDefault_permitted fun id =>
    .bind (tryGetCurrentThreadId_permitted _) fun current =>
      .bind (invoke_permitted (Quiet.permitted (Session.getThreadIds_quiet id))) fun ids => ?_
  split <;> trivial

theorem handleThreadsRequest_permitted (request : Request Unit) :
    Permitted P (handleThreadsRequest request) :=
  .bind getThreads_permitted fun _ => sendResponse_permitted request _

theorem handleStackTraceRequest_permitted (h : P.registers) (request : Request StackTraceArguments) :
    Permitted P (handleStackTraceRequest request) := by
  have details (id : SessionId) (threadId : Nat) (limit : Int) :
      Permitted P (invoke .request (do
        Session.setCurrentThread id threadId
        Session.getStackTraceDetails id limit)) :=
    invoke_permitted <| .bind (Quiet.permitted (Session.setCurrentThread_quiet id _)) fun _ =>
      (Quiet.permitted (Session.getStackTraceDetails_quiet id _))
  exact check_permitted request _ <| .bind (readSessionDataOrDefault_permitted fun id =>
    details id _ _) fun _ => .bind (.perform (.inl h)) fun _ => sendResponse_permitted request _

theorem handleScopesRequest_permitted (h : P.registers) (request : Request ScopesArguments) :
    Permitted P (handleScopesRequest request) := by
  refine .ite (fail_permitted request _) (.bind (.perform trivial) fun d => ?_)
  cases d.frameContexts.get? request.arguments.frameId with
  | none => exact fail_permitted request _
  | some context =>
    refine .bind (readSessionDataOrDefault_permitted fun id => ?_) fun _ =>
      .bind (.perform (.inl h)) fun _ => sendResponse_permitted request _
    exact .bind (invoke_permitted (Quiet.permitted (Session.getLocalsTree_quiet id _))) fun _ =>
      .bind (invoke_permitted (Quiet.permitted (Session.getRegisters_quiet id _))) fun _ => trivial

theorem handleVariablesRequest_permitted (request : Request VariablesArguments) :
    Permitted P (handleVariablesRequest request) := by
  refine .ite (fail_permitted request _) (.bind (.perform trivial) fun d => ?_)
  cases d.variablesByReference.get? request.arguments.variablesReference with
  | none => exact fail_permitted request _
  | some container => exact sendResponse_permitted request _

theorem handleSetStructField_permitted (h : P.registers) (request : Request SetVariableArguments)
    (container : VariableContainerContext) :
    Permitted P (handleSetStructField request container) := by
  unfold handleSetStructField
  dsimp only
  split
  · exact fail_permitted request _
  · exact .catching (.bind requireDebuggerSession_permitted fun id =>
      .bind (invoke_permitted
        (withThread_quiet id _ (assignStructField_quiet id _ _ _ _)).permitted) fun _ =>
          .bind (.perform (.inl h)) fun _ => sendResponse_permitted request _)
      (failUnwrapped_permitted request)

theorem handleSetTopLevelVariable_permitted (h : P.registers)
    (request : Request SetVariableArguments) (container : VariableContainerContext) :
    Permitted P (handleSetTopLevelVariable request container) :=
  .bind requireDebuggerSession_permitted fun id => .catching
    (.bind (invoke_permitted (withThread_quiet id _ (assignVariable_quiet id _ _ _)).permitted)
      fun _ => .bind (.perform (.inl h)) fun _ => sendResponse_permitted request _)
    (failUnwrapped_permitted request)

theorem handleSetVariableRequest_permitted (h : P.registers)
    (request : Request SetVariableArguments) : Permitted P (handleSetVariableRequest request) := by
  refine .ite (fail_permitted request _) <| .ite (fail_permitted request _) <|
    .ite (fail_permitted request _) <| atStop_permitted (fail_permitted request _) <|
      .bind (.perform trivial) fun d => ?_
  cases d.variablesByReference.get? request.arguments.variablesReference with
  | none => exact fail_permitted request _
  | some container =>
    exact .ite (handleSetStructField_permitted h request container)
      (handleSetTopLevelVariable_permitted h request container)

theorem evaluateAtStop_permitted (request : Request EvaluateArguments)
    (context : Option FrameContext) : Permitted P (evaluateAtStop request context) :=
  .ite (sendResponse_permitted request _) <| atStop_permitted (fail_permitted request _) <|
    .ite (fail_permitted request _) <| .bind requireDebuggerSession_permitted fun id =>
      .catching (.bind (invoke_permitted (evaluate_quiet id _ _ _).permitted) fun _ =>
        sendResponse_permitted request _) (failUnwrapped_permitted request)

theorem handleEvaluateRequest_permitted (request : Request EvaluateArguments) :
    Permitted P (handleEvaluateRequest request) := by
  unfold handleEvaluateRequest
  refine .ite (fail_permitted request _) <| .ite (fail_permitted request _) <|
    .ite (fail_permitted request _) ?_
  cases request.arguments.frameId with
  | none => exact evaluateAtStop_permitted request none
  | some frameId =>
    refine .ite (fail_permitted request _) (.bind (.perform trivial) fun d => ?_)
    cases d.frameContexts.get? frameId with
    | none => exact fail_permitted request _
    | some context => exact evaluateAtStop_permitted request (some context)

theorem handleSetExpressionRequest_permitted (request : Request SetExpressionArguments) :
    Permitted P (handleSetExpressionRequest request) := by
  unfold handleSetExpressionRequest
  refine .ite (fail_permitted request _) <| .ite (fail_permitted request _) ?_
  cases request.arguments.frameId with
  | none => exact fail_permitted request _
  | some frameId =>
    refine .bind (.perform trivial) fun d => ?_
    cases d.frameContexts.get? frameId with
    | none => exact fail_permitted request _
    | some context =>
      refine atStop_permitted (fail_permitted request _) <| .catching
        (.bind requireDebuggerSession_permitted fun id => .bind (invoke_permitted
          (withThread_quiet id _ (Session.setLocalValue_quiet id _ _ _)).permitted) fun _ =>
            sendResponse_permitted request _) (failUnwrapped_permitted request)

/-- A reader of session data for a request that needs a session at a stop. -/
theorem inSession_permitted (request : Request α) (message : String) {p : Dap Unit}
    (h : Permitted P p) : Permitted P (do
      match ← getSession with
      | none => fail request message
      | some _ => Prog.catching p (failUnwrapped request)) := by
  refine .bind (.perform trivial) fun session => ?_
  cases session with
  | none => exact fail_permitted request _
  | some _ => exact .catching h (failUnwrapped_permitted request)

theorem handleDisassembleRequest_permitted (request : Request DisassembleArguments) :
    Permitted P (handleDisassembleRequest request) := by
  unfold handleDisassembleRequest
  cases tryReadDisassembleArguments request.arguments with
  | error message => exact fail_permitted request _
  | ok a =>
    refine atStop_permitted (fail_permitted request _) (inSession_permitted request _ ?_)
    refine .bind (readSessionDataOrDefault_permitted fun id =>
      invoke_permitted (Session.disassemble_quiet id _ _ _ _).permitted) fun _ => ?_
    exact .bind (readSessionDataOrDefault_permitted fun id =>
      .bind (invoke_permitted (Session.getStackTrace_quiet id _).permitted) fun _ => trivial)
      fun _ => sendResponse_permitted request _

theorem handleSourceRequest_permitted (request : Request SourceArguments) :
    Permitted P (handleSourceRequest request) := by
  unfold handleSourceRequest
  cases (request.arguments.source.bind Source.path).filter fun p => !Text.isBlank p with
  | none => exact fail_permitted request _
  | some path =>
    refine .bind (.perform trivial) fun content => ?_
    cases content with
    | none => exact fail_permitted request _
    | some content => exact sendResponse_permitted request _

theorem handleModulesRequest_permitted (request : Request ModulesArguments) :
    Permitted P (handleModulesRequest request) :=
  .ite (fail_permitted request _) <| atStop_permitted (fail_permitted request _) <|
    inSession_permitted request _ <| .bind (readSessionDataOrDefault_permitted fun id =>
      invoke_permitted (Session.getModules_quiet id).permitted) fun _ =>
        sendResponse_permitted request _

theorem handleReadMemoryRequest_permitted (request : Request ReadMemoryArguments) :
    Permitted P (handleReadMemoryRequest request) := by
  unfold handleReadMemoryRequest
  dsimp only
  cases referenceAddress request.arguments.memoryReference with
  | none => exact fail_permitted request _
  | some reference =>
    refine .ite (fail_permitted request _) ?_
    cases Text.tryApplyByteOffset reference (request.arguments.offset.getD 0) with
    | none => exact fail_permitted request _
    | some address =>
      exact atStop_permitted (fail_permitted request _) <| inSession_permitted request _ <|
        .bind (readSessionDataOrDefault_permitted fun id =>
          invoke_permitted (Session.readMemory_quiet id _ _).permitted) fun _ =>
            sendResponse_permitted request _

theorem handleWriteMemoryRequest_permitted (request : Request WriteMemoryArguments) :
    Permitted P (handleWriteMemoryRequest request) := by
  unfold handleWriteMemoryRequest
  dsimp only
  cases referenceAddress request.arguments.memoryReference with
  | none => exact fail_permitted request _
  | some reference =>
    dsimp only
    cases Text.tryBase64Decode request.arguments.data with
    | none => exact fail_permitted request _
    | some bytes =>
      dsimp only
      cases Text.tryApplyByteOffset reference (request.arguments.offset.getD 0) with
      | none => exact fail_permitted request _
      | some address =>
        exact atStop_permitted (fail_permitted request _) <| inSession_permitted request _ <|
          .bind requireDebuggerSession_permitted fun id =>
            .bind (invoke_permitted (Session.writeMemory_quiet id _ _).permitted) fun _ =>
              sendResponse_permitted request _

theorem handleExceptionInfoRequest_permitted (request : Request ThreadArguments) :
    Permitted P (handleExceptionInfoRequest request) := by
  refine atStop_permitted (fail_permitted request _) <| inSession_permitted request _ <|
    .bind requireDebuggerSession_permitted fun id =>
      .bind (invoke_permitted (Session.getLastException_quiet id).permitted) fun info => ?_
  cases info with
  | none => exact fail_permitted request _
  | some e => exact sendResponse_permitted request _

theorem handleDataBreakpointInfoRequest_permitted (request : Request DataBreakpointInfoArguments) :
    Permitted P (handleDataBreakpointInfoRequest request) := by
  refine .ite (fail_permitted request _) (.bind (.perform trivial) fun d => ?_)
  cases resolveDataBreakpointTarget request.arguments d with
  | error message => exact fail_permitted request _
  | ok target =>
    exact inSession_permitted request _ <| .bind requireDebuggerSession_permitted fun id =>
      .bind (invoke_permitted (withThread_quiet id _
        (Session.getSymbolAddress_quiet id _ _)).permitted) fun _ => sendResponse_permitted request _

/-! ## Beginning and ending a session -/

theorem handleInitializeRequest_permitted (request : Request Unit) :
    Permitted P (handleInitializeRequest request) :=
  .bind (.perform trivial) fun _ => .ite (fail_permitted request _) <|
    .bind (sendResponse_permitted request _) fun _ => .bind (.perform trivial) fun _ =>
      .perform nofun

/-- The reports of a launch or an attach. -/
def reportsStart : Event → Prop
  | .stopped body => body.reason = .entry ∨ body.reason = .pause
  | _ => False

theorem sendStoppedEvent_permitted (h : ∀ e, reportsStart e → P.reports e)
    {reason : StoppedEventBodyReason} (hr : reason = .entry ∨ reason = .pause)
    (description : String) : Permitted P (sendStoppedEvent reason description) :=
  .bind (tryGetCurrentThreadId_permitted _) fun _ => .perform fun _ => h _ hr

theorem finishStart_permitted (h : ∀ e, reportsStart e → P.reports e) (request : Request α)
    (name : String) (processId : Option Int) (startMethod : ProcessEventBodyStartMethod)
    {stop : Option (StoppedEventBodyReason × String)}
    (hs : ∀ reason description, stop = some (reason, description) →
      reason = .entry ∨ reason = .pause) :
    Permitted P (finishStart request name processId startMethod stop) := by
  refine .bind (sendResponse_permitted request _) fun _ => .bind (.perform nofun) fun _ =>
    .bind (.perform trivial) fun _ => ?_
  cases stop with
  | none => trivial
  | some stop => exact sendStoppedEvent_permitted h (hs _ _ rfl) _

theorem connectTarget_permitted {p : Dap Unit} (h : Permitted P p) :
    Permitted P (connectTarget p) :=
  runWithSuppressedSessionEvents_permitted (invoke_permitted h)

theorem awaitConfigurationDone_permitted (stopAtEntry : Bool) :
    Permitted P (awaitConfigurationDone stopAtEntry) :=
  .bind (.perform trivial) fun _ => .bind (.perform trivial) fun _ =>
    .bind (tryGetCurrentThreadId_permitted _) fun _ =>
      modifyTables_permitted fun _ hf hv => ⟨hf, hv⟩

theorem setDisconnectBehavior_permitted (detach terminateDebuggee : Bool) :
    Permitted P (setDisconnectBehavior detach terminateDebuggee) :=
  .bind (.perform trivial) fun _ => .perform trivial

theorem handleLaunchRequest_permitted (hp : P.replaces) (hc : P.creates)
    (h : ∀ e, reportsStart e → P.reports e) (request : Request Unit) :
    Permitted P (handleLaunchRequest request) := by
  have start (arguments : Json) (program enginePath : String) :
      Permitted P (startLaunch request arguments program enginePath) := by
    refine .bind (createDebuggerSession_permitted hp hc enginePath) fun id =>
      .bind (applySessionConfiguration_permitted id _) fun _ =>
        .bind (connectTarget_permitted (launchTarget_quiet id _ _).permitted) fun _ =>
          .bind (awaitConfigurationDone_permitted _) fun _ =>
            .bind (setDisconnectBehavior_permitted _ _) fun _ =>
              finishStart_permitted h request _ _ _ fun reason description hs => ?_
    split at hs
    · cases hs; exact .inl rfl
    · cases hs
  refine .bind (.perform trivial) fun d => .ite (fail_permitted request _) ?_
  split
  · exact fail_permitted request _
  · refine .bind (tryResolveDebuggerEnginePath_permitted _) fun enginePath => ?_
    cases enginePath with
    | none => exact fail_permitted request _
    | some enginePath => exact start _ _ _

theorem pollForProcessId_permitted (id : SessionId) (executableName : String) (rounds : Nat) :
    Permitted P (pollForProcessId id executableName rounds) := by
  have find : Permitted P (invoke .request
      (Session.tryFindProcessIdByExecutableName id executableName)) :=
    invoke_permitted (Session.tryFindProcessIdByExecutableName_quiet id _).permitted
  induction rounds with
  | zero => exact find
  | succ rounds ih =>
    exact .bind find fun _ => .ite trivial <| .bind (.perform trivial) fun _ =>
      .ite trivial <| .bind (.perform trivial) fun _ => ih

theorem findProcess_permitted (id : SessionId) (target : AttachTarget) (processName : String) :
    Permitted P (findProcess id target processName) := by
  unfold findProcess
  cases target.connectionString with
  | none => exact .bind (pollForProcessId_permitted id _ _) fun _ => trivial
  | some connectionString =>
    exact .bind (connectTarget_permitted (Quiet.permitted (Session.connectProcessServer_quiet id _)))
      fun _ => .bind (pollForProcessId_permitted id _ _) fun _ => trivial

theorem finishAttach_permitted (h : ∀ e, reportsStart e → P.reports e) (request : Request Unit)
    (target : AttachTarget) (processId : Int) :
    Permitted P (finishAttach request target processId) := by
  refine .bind (awaitConfigurationDone_permitted _) fun _ =>
    .bind (setDisconnectBehavior_permitted _ _) fun _ =>
      finishStart_permitted h request _ _ _ fun reason description hs => ?_
  split at hs
  · cases hs; exact .inr rfl
  · cases hs

theorem attachLiveTarget_permitted (hp : P.replaces) (hc : P.creates)
    (h : ∀ e, reportsStart e → P.reports e)
    (request : Request Unit) (arguments : Json) (target : AttachTarget) (enginePath : String) :
    Permitted P (attachLiveTarget request arguments target enginePath) := by
  have attach (id : SessionId) (processId : Int) :
      Permitted P (connectTarget (Session.attach id processId)) :=
    connectTarget_permitted (permitted_of_stepless (Session.attach_quiet id (fun _ _ => trivial) _))
  refine .bind (createDebuggerSession_permitted hp hc enginePath) fun id =>
    .bind (applySessionConfiguration_permitted id _) fun _ => ?_
  cases target.processId with
  | none =>
    refine .bind (findProcess_permitted id _ _) fun found => ?_
    cases found with
    | none => exact fail_permitted request _
    | some processId =>
      exact .bind (attach id _) fun _ => finishAttach_permitted h request target _
  | some processId =>
    dsimp only
    cases target.connectionString with
    | none => exact .bind (attach id _) fun _ => finishAttach_permitted h request target _
    | some connectionString =>
      exact .bind (connectTarget_permitted (permitted_of_stepless
        (Session.attachRemote_quiet id (fun _ _ => trivial) _ _))) fun _ =>
        finishAttach_permitted h request target _

theorem attachKernelTarget_permitted (hp : P.replaces) (hc : P.creates)
    (h : ∀ e, reportsStart e → P.reports e)
    (request : Request Unit) (arguments : Json) (target : AttachTarget)
    (connectionString enginePath : String) :
    Permitted P (attachKernelTarget request arguments target connectionString enginePath) := by
  refine .bind (createDebuggerSession_permitted hp hc enginePath) fun id =>
    .bind (applySessionConfiguration_permitted id _) fun _ =>
      .bind (connectTarget_permitted (Session.attachKernel_quiet id _).permitted) fun _ =>
        .bind (setDisconnectBehavior_permitted _ _) fun _ => .bind (.perform trivial) fun _ =>
          .bind (awaitConfigurationDone_permitted _) fun _ =>
            finishStart_permitted h request _ _ _ fun reason description hs => ?_
  split at hs
  · cases hs; exact .inr rfl
  · cases hs

theorem attachDumpFile_permitted (hp : P.replaces) (hc : P.creates)
    (h : ∀ e, reportsStart e → P.reports e)
    (request : Request Unit) (arguments : Json) (dumpFile enginePath : String) :
    Permitted P (attachDumpFile request arguments dumpFile enginePath) := by
  refine .bind (createDebuggerSession_permitted hp hc enginePath) fun id =>
    .bind (applySessionConfiguration_permitted id _) fun _ =>
      .bind (connectTarget_permitted (Session.openDumpFile_quiet id _).permitted) fun _ =>
        .bind (setDisconnectBehavior_permitted _ _) fun _ =>
          finishStart_permitted h request _ _ _ fun reason description hs => ?_
  cases hs
  exact .inr rfl

theorem handleAttachRequest_permitted (hp : P.replaces) (hc : P.creates)
    (h : ∀ e, reportsStart e → P.reports e) (request : Request Unit) :
    Permitted P (handleAttachRequest request) := by
  refine .bind (.perform trivial) fun d => .bind (tryResolveDebuggerEnginePath_permitted _)
    fun enginePath => ?_
  cases enginePath with
  | none => exact fail_permitted request _
  | some enginePath =>
    dsimp only
    split
    · split
      · exact fail_permitted request _
      · exact attachKernelTarget_permitted hp hc h request _ _ _ _
    · split
      · exact attachDumpFile_permitted hp hc h request _ _ _
      · exact .ite (fail_permitted request _) (attachLiveTarget_permitted hp hc h request _ _ _)

theorem terminateTarget_permitted (id : SessionId) : Permitted P (terminateTarget id) := by
  refine .bind (.perform trivial) fun previous => .bind (.perform trivial) fun _ =>
    .bind (.catching (invoke_permitted
      (permitted_of_stepless (Session.terminateCurrentProcess_quiet id trivial)))
      fun _ => ?_) fun _ => ?_
  · cases previous <;> exact .bind (.perform trivial) fun _ => trivial
  · exact .bind (.perform trivial) fun _ => .ite trivial (startWaitingForSessionEvent_permitted id)

theorem handleTerminateRequest_permitted (h : P.reports .terminated) (request : Request Unit) :
    Permitted P (handleTerminateRequest request) := by
  refine .bind (.perform trivial) fun session => ?_
  cases session with
  | none =>
    exact .bind (sendResponse_permitted request _) fun _ => .bind (.perform fun _ => h) fun _ =>
      .perform trivial
  | some id =>
    exact .bind (terminateTarget_permitted id) fun _ => sendResponse_permitted request _

theorem tryInterrupt_permitted (id : SessionId) : Permitted P (tryInterrupt id) :=
  .catching (interrupt_permitted id) fun _ => trivial

theorem resumeKernelTarget_permitted (id : SessionId) : Permitted P (resumeKernelTarget id) := by
  have resume : Permitted P (do
      invoke .request (do
        Session.clearAllBreakpoints id
        Session.continue_ id)
      Prog.perform (.spawnPump id)
      Prog.perform (.sleep 400)) :=
    .bind (invoke_permitted (.bind (Quiet.permitted (Session.clearAllBreakpoints_quiet id)) fun _ =>
      go_permitted id _)) fun _ => .bind (.perform trivial) fun _ =>
        .perform trivial
  exact .bind (.perform trivial) fun _ =>
    .ite (.bind (tryInterrupt_permitted id) fun _ => resume) resume

theorem disconnectKernelLeavingMachineRunning_permitted (hp : P.replaces) (id : SessionId) :
    Permitted P (disconnectKernelLeavingMachineRunning id) := by
  refine .bind (.catching (resumeKernelTarget_permitted id) fun _ => trivial) fun _ => ?_
  exact .bind (.perform hp) fun _ => .bind (.perform trivial) fun _ => .bind (.perform trivial)
    fun _ => .bind (.perform trivial) fun _ => .perform trivial

theorem disconnectUserTarget_permitted (hp : P.replaces) (id : SessionId)
    (terminateDebuggee : Option Bool) :
    Permitted P (disconnectUserTarget id terminateDebuggee) := by
  have detach : Permitted P (invoke .request (Session.detachCurrentProcess id)) :=
    invoke_permitted (Session.detachCurrentProcess_quiet id).permitted
  have rest : Permitted P (do
      let terminateOnDisconnect ← load .terminateDebuggeeOnDisconnect
      let detachOnDisconnect ← load .detachOnDisconnect
      if shouldDetachDebuggee terminateDebuggee terminateOnDisconnect detachOnDisconnect then
        invoke .request (Session.detachCurrentProcess id)
      else pure ()
      disposeDebuggerSession .request) :=
    .bind (.perform trivial) fun _ => .bind (.perform trivial) fun _ => .ite
      (.bind detach fun _ => disposeDebuggerSession_permitted hp)
      (disposeDebuggerSession_permitted hp)
  exact .bind (.perform trivial) fun _ => .ite (.bind (tryInterrupt_permitted id) fun _ =>
    .bind (.perform trivial) fun _ => rest) rest

theorem disconnectDebuggerSession_permitted (hp : P.replaces) (terminateDebuggee : Option Bool) :
    Permitted P (disconnectDebuggerSession terminateDebuggee) := by
  refine .bind (.perform trivial) fun session => ?_
  cases session with
  | none => trivial
  | some id =>
    exact .bind (.perform trivial) fun _ => .bind (.perform trivial) fun _ =>
      .ite (disconnectKernelLeavingMachineRunning_permitted hp id)
        (disconnectUserTarget_permitted hp id _)

theorem handleDisconnectRequest_permitted (hp : P.replaces) (h : P.reports .terminated)
    (request : Request (Option DisconnectArguments)) :
    Permitted P (handleDisconnectRequest request) := by
  have rest (shouldSendTerminatedEvent : Bool) : Permitted P (do
      disconnectDebuggerSession (request.arguments.bind DisconnectArguments.terminateDebuggee)
      sendResponse request .empty
      if shouldSendTerminatedEvent then sendEvent .terminated else pure ()
      store .shouldExit true) :=
    .bind (disconnectDebuggerSession_permitted hp _) fun _ =>
      .bind (sendResponse_permitted request _) fun _ => .ite
        (.bind (.perform fun _ => h) fun _ => .perform trivial) (.perform trivial)
  refine .bind (.perform trivial) fun session => ?_
  cases session with
  | none => exact rest false
  | some id => exact .bind (.perform trivial) fun _ => rest _

/-! ## Dispatch -/

/-- The commands that record the stop they are to lead to. -/
def recordingCommands : List String := ["next", "stepIn", "stepOut", "pause"]

/-- The commands that may set the target running. -/
def resumingCommands : List String :=
  ["continue", "next", "stepIn", "stepOut", "configurationDone", "setBreakpoints",
    "setFunctionBreakpoints", "setInstructionBreakpoints", "setDataBreakpoints",
    "setExceptionBreakpoints"]

/-- What a request with a given command may do. -/
def commandPermit (command : String) : Permit where
  reports
    | .continued .. => command = "continue" ∨ command = "configurationDone"
    | .stopped body =>
      (command = "launch" ∨ command = "attach") ∧ (body.reason = .entry ∨ body.reason = .pause)
    | .terminated => command = "terminate" ∨ command = "disconnect"
    | _ => False
  replaces := command = "launch" ∨ command = "attach" ∨ command = "disconnect"
  creates := command = "launch" ∨ command = "attach"
  registers := command = "stackTrace" ∨ command = "scopes" ∨ command = "setVariable"
  records := command ∈ recordingCommands
  resumes := command ∈ resumingCommands

variable {root : Json}

theorem run_permitted {dec : Decoder (Request α)} {handler : Request α → Dap Unit}
    (h : ∀ request, Permitted P (handler request)) : Permitted P (run dec handler root) := by
  unfold run
  split
  · trivial
  · exact h _

theorem on_permitted (name : String) (dec : Decoder α) {handler : Request α → Dap Unit}
    (h : ∀ request, Permitted P (handler request)) : Permitted P ((on name dec handler).2 root) :=
  run_permitted h

theorem refuse_permitted (name : String) : Permitted P ((refuse name).2 root) :=
  run_permitted fun _ => trivial

theorem handlers_permitted :
    ∀ entry ∈ handlers, Permitted (commandPermit entry.1) (entry.2 root) := by
  have start {command : String} (h : command = "launch" ∨ command = "attach") (e : Event)
      (he : reportsStart e) : (commandPermit command).reports e := by
    cases e with
    | stopped body => exact ⟨h, he⟩
    | _ => exact he.elim
  have resumes (command : String) (h : command ∈ resumingCommands) :
      (commandPermit command).resumes := h
  have records (command : String) (h : command ∈ recordingCommands) :
      (commandPermit command).records := h
  simp only [handlers, List.forall_mem_cons]
  exact ⟨on_permitted _ _
      (handleAttachRequest_permitted (.inr (.inl rfl)) (.inr rfl) (start (.inr rfl))),
    on_permitted _ _
      (handleConfigurationDoneRequest_permitted (resumes "configurationDone" (by decide))
        fun _ _ => .inr rfl),
    on_permitted _ _
      (handleContinueRequest_permitted (resumes "continue" (by decide)) fun _ _ => .inl rfl),
    on_permitted _ _ handleDataBreakpointInfoRequest_permitted,
    on_permitted _ _ handleDisassembleRequest_permitted,
    run_permitted (handleDisconnectRequest_permitted (.inr (.inr rfl)) (.inr rfl)),
    on_permitted _ _ handleEvaluateRequest_permitted,
    on_permitted _ _ handleExceptionInfoRequest_permitted,
    on_permitted _ _ handleInitializeRequest_permitted,
    on_permitted _ _ (handleLaunchRequest_permitted (.inl rfl) (.inl rfl) (start (.inl rfl))),
    on_permitted _ _ handleModulesRequest_permitted,
    on_permitted _ _ (handleCheckedStep_permitted (resumes "next" (by decide))
      (records "next" (by decide)) fun id => step_permitted (records "next" (by decide))
        (resumes "next" (by decide)) id _ _),
    on_permitted _ _ (handlePauseRequest_permitted (records "pause" (by decide))),
    on_permitted _ _ handleReadMemoryRequest_permitted,
    on_permitted _ _ (handleScopesRequest_permitted (.inr (.inl rfl))),
    on_permitted _ _ (handleSetBreakpointsRequest_permitted (resumes "setBreakpoints" (by decide))),
    on_permitted _ _
      (handleSetDataBreakpointsRequest_permitted (resumes "setDataBreakpoints" (by decide))),
    on_permitted _ _
      (handleSetExceptionBreakpointsRequest_permitted
        (resumes "setExceptionBreakpoints" (by decide))),
    on_permitted _ _ handleSetExpressionRequest_permitted,
    on_permitted _ _
      (handleSetFunctionBreakpointsRequest_permitted (resumes "setFunctionBreakpoints" (by decide))),
    on_permitted _ _
      (handleSetInstructionBreakpointsRequest_permitted
        (resumes "setInstructionBreakpoints" (by decide))),
    on_permitted _ _ (handleSetVariableRequest_permitted (.inr (.inr rfl))),
    on_permitted _ _ handleSourceRequest_permitted,
    on_permitted _ _ (handleStackTraceRequest_permitted (.inl rfl)),
    on_permitted _ _ (handleStepInRequest_permitted (resumes "stepIn" (by decide))
      (records "stepIn" (by decide))),
    on_permitted _ _ (handleCheckedStep_permitted (resumes "stepOut" (by decide))
      (records "stepOut" (by decide)) fun id => step_permitted (records "stepOut" (by decide))
        (resumes "stepOut" (by decide)) id _ _),
    on_permitted _ _ (handleTerminateRequest_permitted (.inl rfl)),
    on_permitted _ _ handleThreadsRequest_permitted,
    on_permitted _ _ handleVariablesRequest_permitted,
    on_permitted _ _ handleWriteMemoryRequest_permitted,
    refuse_permitted _, refuse_permitted _, refuse_permitted _, refuse_permitted _,
    refuse_permitted _, refuse_permitted _, refuse_permitted _, refuse_permitted _,
    refuse_permitted _, refuse_permitted _, refuse_permitted _, refuse_permitted _,
    refuse_permitted _, refuse_permitted _, refuse_permitted _, by simp⟩

/-- The command of a message, empty where there is none. -/
def requestCommand (root : Json) : String :=
  match Decoder.valueString "command" root with
  | .ok command => command
  | .error _ => ""

theorem dispatchRequest_permitted :
    Permitted (commandPermit (requestCommand root)) (dispatchRequest root) := by
  unfold dispatchRequest requestCommand
  cases hc : Decoder.valueString "command" root with
  | error what => trivial
  | ok command =>
    dsimp only
    cases hl : handlers.lookup command with
    | none => exact run_permitted fun _ => trivial
    | some handler => exact handlers_permitted (command, handler) (mem_of_lookup hl)

theorem recover_permitted (e : Exn) : Permitted P (recover root e) := by
  have report (e : Exn) : Permitted P (reportFailure root e) := by
    unfold reportFailure
    split
    · exact .ite trivial (.perform trivial)
    · trivial
  cases e with
  | unhandledRequest seq command => exact .perform trivial
  | _ => exact report _

/-- What a message makes the request thread do is what its command permits. -/
theorem handleRequest_permitted :
    Permitted (commandPermit (requestCommand root)) (handleRequest root) := by
  have handled : Permitted (commandPermit (requestCommand root)) (handle root) := by
    unfold handle
    split
    · trivial
    · exact .ite dispatchRequest_permitted (.ite trivial trivial)
  exact .bind (.perform trivial) fun _ =>
    .bind (modifyTables_permitted fun _ hf hv => ⟨hf, hv⟩) fun _ => .bind (.perform trivial) fun _ =>
      .bind (.catching handled recover_permitted) fun _ => .bind (.perform trivial) fun _ =>
        .bind (.perform trivial) fun _ => trivial

end

end Server

/-! ## The callbacks -/

/-- What a callback may do: it creates no session, takes no lock, handles no thread, answers no
request and does not step. -/
def DapOp.forCallback : ∀ {β : Type}, DapOp β → Prop
  | _, .newSession | _, .setSession (some _) | _, .unpark => False
  | _, .lockGate | _, .unlockGate | _, .takeLoop | _, .joinLoop | _, .spawnLoop _ => False
  | _, .spawnPump _ | _, .send (.response _) => False
  | _, .store .suppressSessionEvents true | _, .store .waitLoopActive _ => False
  | _, .call _ c => c.stepless
  | _, _ => True

theorem DapOp.forCallback_of_quiet {β : Type} {o : DapOp β} (h : o.quiet Call.stepless) :
    o.forCallback := by
  cases o with
  | send m => cases m with
    | response r => exact h.elim
    | event e => trivial
  | store | setSession | lockGate | unlockGate | takeLoop | joinLoop | spawnLoop | spawnPump =>
    exact h.elim
  | newSession | unpark => exact h.elim
  | call id c => exact h
  | _ => trivial

abbrev ForCallback {α : Type} (p : Dap α) : Prop := AllOps DapOp.forCallback p

theorem forCallback_of_stepless {α : Type} {p : Dap α}
    (h : AllOps (DapOp.quiet Call.stepless) p) : ForCallback p :=
  h.mono fun _ => DapOp.forCallback_of_quiet

theorem Quiet.forCallback {α : Type} {p : Dap α} (h : Quiet p) : ForCallback p :=
  forCallback_of_stepless (h.mono (DapOp.quiet_mono fun _ => Call.routine.stepless))

namespace Server

variable {id : SessionId}

theorem tryGetCurrentThreadId_forCallback : ForCallback (tryGetCurrentThreadId .callback) := by
  refine .bind (.perform trivial) fun session => ?_
  cases session with
  | none => trivial
  | some id =>
    exact .catching (.bind (Quiet.forCallback (invoke_quiet (Session.getCurrentThreadId_quiet id)))
      fun _ => trivial) fun _ => trivial

theorem flushPendingThreadEvents_forCallback : ForCallback flushPendingThreadEvents :=
  .bind (.perform trivial) fun events => .forEach (fun _ => .perform trivial) events

theorem queueThreadEvent_forCallback (reason : ThreadEventBodyReason) :
    ForCallback (queueThreadEvent reason) := by
  refine .bind tryGetCurrentThreadId_forCallback fun threadId => ?_
  cases threadId with
  | none => trivial
  | some threadId =>
    have report (held : Bool) : ForCallback (if held then
        Prog.perform (.pushThreadEvent { reason, threadId })
        else sendThreadEvent { reason, threadId } : Dap Unit) :=
      .ite (.perform trivial) (.perform trivial)
    exact .bind (.perform trivial) fun _ => .ite (report true) (.bind (.perform trivial) report)

theorem autoContinue_forCallback : ForCallback (autoContinue id) :=
  .bind (.bind (.perform trivial) fun _ => .perform trivial) fun _ => .bind (.perform trivial)
    fun _ => .bind (.perform trivial) fun _ => .bind (.perform trivial) fun _ =>
      .bind (.perform trivial) fun _ => forCallback_of_stepless (Session.resume_quiet id rfl _)

theorem recordStop_forCallback {record : Dap Unit} (h : ForCallback record) :
    ForCallback (recordStop record) :=
  .bind (.bind (.perform trivial) fun _ => trivial) fun _ => .ite trivial <|
    .bind (.perform trivial) fun _ => .bind (.perform trivial) fun _ =>
      .bind (.perform trivial) fun _ => .ite (.perform trivial) h

theorem onBreakpointHit_forCallback (breakpointId : Nat) :
    ForCallback (onBreakpointHit id breakpointId) := by
  have evaluated (condition : String) :
      ForCallback (tryEvaluateConditionalBreakpoint id condition) :=
    .catching (.bind (Quiet.forCallback (Session.executeCommandWithOutput_quiet id rfl _))
      fun _ => trivial) fun _ => trivial
  have auto : ForCallback (tryAutoContinueConditionalBreakpointHit id breakpointId) := by
    refine .bind (.perform trivial) fun d => ?_
    cases d.conditionalBreakpointConditionsById.get? (Factory.toInt32 breakpointId) with
    | none => trivial
    | some condition =>
      exact .bind (evaluated condition) fun _ => .ite trivial
        (.bind autoContinue_forCallback fun _ => trivial)
  exact .bind auto fun _ => .ite trivial (recordStop_forCallback (.perform trivial))

theorem onExceptionHit_forCallback (exceptionCode : Nat) :
    ForCallback (onExceptionHit id exceptionCode) := by
  have auto : ForCallback (tryAutoContinueKernelInitialBreak id) :=
    .bind (.perform trivial) fun _ => .ite trivial <| .bind (.perform trivial) fun _ =>
      .ite trivial <| .bind (.perform trivial) fun _ =>
        .bind autoContinue_forCallback fun _ => trivial
  exact .bind auto fun _ => .ite trivial <| recordStop_forCallback <|
    .bind (.perform trivial) fun _ => .ite trivial (.perform trivial)

theorem onBreakHit_forCallback : ForCallback onBreakHit := by
  refine .bind (.perform trivial) fun _ => .ite (.perform trivial) <| .bind (.perform trivial)
    fun _ => .bind (.perform trivial) fun _ => .bind (.perform trivial) fun pending =>
      .bind (.perform trivial) fun _ => .ite trivial ?_
  cases pending with
  | none => trivial
  | some p =>
    exact .bind flushPendingThreadEvents_forCallback fun _ =>
      .bind tryGetCurrentThreadId_forCallback fun _ => .perform trivial

theorem disposeDebuggerSession_forCallback : ForCallback (disposeDebuggerSession .callback) := by
  have reset : ForCallback resetAfterDispose :=
    .bind (.perform trivial) fun _ => .bind (.perform trivial) fun _ => .bind (.perform trivial)
      fun _ => .bind (.bind (.perform trivial) fun _ => .bind (.perform trivial) fun _ =>
        .perform trivial) fun _ => .bind (.perform trivial) fun _ => .bind (.perform trivial)
          fun _ => .bind (.bind (.perform trivial) fun _ => .perform trivial) fun _ =>
            .bind (.bind (.perform trivial) fun _ => .perform trivial) fun _ =>
              .bind (.perform trivial) fun _ => .bind (.perform trivial) fun _ =>
                .bind (.perform trivial) fun _ => .perform trivial
  have release (id : SessionId) : ForCallback (releaseSession .callback id) := by
    refine .bind (.perform trivial) fun old => ?_
    cases old with
    | none => trivial
    | some old => exact forCallback_of_stepless (Session.destroy_quiet old trivial _)
  refine .bind (.perform trivial) fun session => ?_
  cases session with
  | none => exact reset
  | some id => exact .bind (release id) fun _ => reset

theorem queueSessionTermination_forCallback (exitCode : Int) :
    ForCallback (queueSessionTermination exitCode) :=
  .bind (.perform trivial) fun _ => .bind (.perform trivial) fun _ =>
    .bind flushPendingThreadEvents_forCallback fun _ => .bind (.perform trivial) fun _ =>
      .bind (.perform trivial) fun _ => .bind disposeDebuggerSession_forCallback fun _ =>
        .perform trivial

theorem queueSessionEnded_forCallback : ForCallback queueSessionEnded := by
  refine .bind (.perform trivial) fun _ => .bind (.perform trivial) fun _ =>
    .bind (.perform trivial) fun session => ?_
  cases session with
  | none => trivial
  | some id =>
    exact .bind flushPendingThreadEvents_forCallback fun _ => .bind (.perform trivial) fun _ =>
      .bind disposeDebuggerSession_forCallback fun _ => .perform trivial

theorem onCallback_forCallback (event : Callback) : ForCallback (onCallback id event) := by
  cases event with
  | breakpoint =>
    exact .bind (Session.getLastBreakpointId_quiet id).forCallback onBreakpointHit_forCallback
  | exception code address firstChance =>
    exact .bind (.perform trivial) fun _ => .ite trivial <| .bind (.perform trivial) fun _ =>
      onExceptionHit_forCallback code
  | systemError error => exact onExceptionHit_forCallback error
  | break_ => exact onBreakHit_forCallback
  | noDebuggee | sessionEnd => exact queueSessionEnded_forCallback
  | exitProcess exitCode => exact queueSessionTermination_forCallback _
  | createThread | exitThread => exact queueThreadEvent_forCallback _
  | output text =>
    exact .ite trivial (Quiet.forCallback (Session.handleOutputReceived_quiet id text))

end Server

/-! ## Jobs -/

namespace Job

open Server

/-- The thread a job runs on. -/
def thread : Job → Tid
  | .request _ | .teardown => .request
  | .loopCondition _ | .loopBody _ | .loopEnd => .loop
  | .callback .. => .callback
  | .pump _ => .pump

/-- What a job off the callback thread may do. -/
def permit : Job → Permit
  | .request root => commandPermit (requestCommand root)
  | .teardown => { replaces := True }
  | _ => {}

theorem body_permitted {j : Job} (h : j.thread ≠ .callback) : Permitted j.permit j.body := by
  cases j with
  | request root => exact handleRequest_permitted
  | teardown => exact .bind (teardown_permitted trivial) fun _ => trivial
  | loopCondition id => exact waitLoopCondition_permitted id
  | loopBody id => exact .bind (waitLoopBody_permitted id) fun _ => trivial
  | loopEnd => exact .bind waitLoopEnd_permitted fun _ => trivial
  | callback => exact absurd rfl h
  | pump id => exact .bind (pumpAfterKernelDisconnect_permitted id) fun _ => trivial

/-- Only the request thread reports. -/
theorem permit_reports {j : Job} (h : j.thread ≠ .request) (e : Event) : ¬j.permit.reports e := by
  cases j with
  | request | teardown => exact absurd rfl h
  | _ => exact fun h => h

/-- No job off the callback thread reports a thread. -/
theorem permit_thread (j : Job) (reason : ThreadEventBodyReason) (threadId : Int) :
    ¬j.permit.reports (.thread reason threadId) := by
  cases j <;> exact fun h => h

end Job

namespace Server

variable {t : Tid} {j : Job} {s s' : Server}

theorem startJob_thread (h : startJob t j s = some s') : t = j.thread := by
  cases t <;> cases j <;> first | rfl | cases h

/-- Beginning a job off the callback thread closes the output at most. -/
theorem startJob_of_ne (ht : j.thread ≠ .callback) (h : startJob t j s = some s') :
    ∃ pump mode outboundOpen, s' = { s with pump, mode, outboundOpen } ∧
      (outboundOpen = true → s.outboundOpen = true) := by
  have ht' := startJob_thread h
  subst ht'
  cases j with
  | request root =>
    simp only [startJob, Job.thread, Option.ite_none_right_eq_some, Option.some.injEq] at h
    exact ⟨s.pump, s.mode, s.outboundOpen, h.2 ▸ rfl, fun h => h⟩
  | teardown =>
    simp only [startJob, Job.thread, Option.ite_none_left_eq_some, Option.some.injEq] at h
    exact ⟨s.pump, .gone, false, h.2 ▸ rfl, nofun⟩
  | loopCondition id | loopBody id | loopEnd =>
    simp only [startJob, Job.thread, Option.ite_none_right_eq_some, Option.some.injEq] at h
    exact ⟨s.pump, s.mode, s.outboundOpen, h.2 ▸ rfl, fun h => h⟩
  | callback => exact absurd rfl ht
  | pump id =>
    simp only [startJob, Job.thread, Option.ite_none_right_eq_some, Option.some.injEq] at h
    exact ⟨none, s.mode, s.outboundOpen, h.2 ▸ rfl, fun h => h⟩

theorem startJob_callback {id : SessionId} {event : Callback} {threads : List (Nat × Nat)}
    {current : Nat} (h : startJob t (.callback id event threads current) s = some s') :
    s.mayReport id event = true ∧ s' = { s.updateEngine id fun e =>
      { event.effect e with threads, current } with callbackActive := true } := by
  have ht := startJob_thread h
  subst ht
  simp only [startJob, Job.thread, Option.ite_none_right_eq_some, Option.some.injEq] at h
  exact ⟨h.1, h.2.symm⟩

/-- Where a job ends off the callback thread. -/
theorem finishJob_of_ne {r : Except Exn Bool} (ht : j.thread ≠ .callback)
    (h : finishJob j r s = some s') : ∃ mode loop, s' = { s with mode, loop } := by
  cases j with
  | request root =>
    cases r with
    | ok shouldExit =>
      cases h
      split
      · exact ⟨_, _, rfl⟩
      · exact ⟨_, _, rfl⟩
    | error e => cases h
  | callback => exact absurd rfl ht
  | _ => cases r <;> first | (cases h; exact ⟨_, _, rfl⟩) | cases h

theorem finishJob_callback {id : SessionId} {event : Callback} {threads : List (Nat × Nat)}
    {current : Nat} {r : Except Exn Bool}
    (h : finishJob (.callback id event threads current) r s = some s') :
    s' = { s with callbackActive := false } := by
  cases r <;> cases h
  rfl

end Server

end DapDbgeng
