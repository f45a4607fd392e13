/-
  The breakpoint handlers.

  A setter applies its update directly at a stop, and through
  `applyBreakpointUpdateWhileRunning` while the target runs.
-/
import DapDbgeng.Server

namespace DapDbgeng

open Concurrent

/-! ## Conditions by engine id -/

namespace Tables

variable (d : Tables)

def eraseCondition (breakpointId : Int) : Tables :=
  { d with
    conditionalBreakpointConditionsById :=
      d.conditionalBreakpointConditionsById.erase breakpointId }

def setCondition (breakpointId : Int) (condition : String) : Tables :=
  { d with
    conditionalBreakpointConditionsById :=
      d.conditionalBreakpointConditionsById.set breakpointId condition }

def erasePath (sourcePath : String) : Tables :=
  { d with
    conditionalBreakpointIdsByPath := d.conditionalBreakpointIdsByPath.erase sourcePath }

/-- `push_back` on the ids of a path. -/
def listUnder (sourcePath : String) (breakpointId : Int) : Tables :=
  { d with
    conditionalBreakpointIdsByPath := d.conditionalBreakpointIdsByPath.set sourcePath
      ((d.conditionalBreakpointIdsByPath.get? sourcePath).getD [] ++ [breakpointId]) }

end Tables

namespace Server

/-! The tables are not locked: an engine callback may look at them between any two of the writes. -/

/-- Forget the conditions recorded for a path, one after the other. -/
def clearConditionalBreakpointState (sourcePath : String) : Dap Unit := do
  let d ← getTables
  match d.conditionalBreakpointIdsByPath.get? sourcePath with
  | none => return
  | some ids => do
    .forEach (fun breakpointId => modifyTables (·.eraseCondition breakpointId)) ids
    modifyTables (·.erasePath sourcePath)

/-- Record the condition of one configured breakpoint, if it has one. -/
def recordCondition (sourcePath : String) (entry : SourceBreakpointResult × SourceBreakpoint) :
    Dap Unit :=
  match entry.2.condition, entry.1.id with
  | some condition, some breakpointId =>
    if Text.isBlank condition ∨ ¬entry.1.verified then return
    else do
      modifyTables (·.setCondition breakpointId condition)
      modifyTables (·.listUnder sourcePath breakpointId)
  | _, _ => return

def updateConditionalBreakpointState (sourcePath : String)
    (configured : List SourceBreakpointResult) (requested : List SourceBreakpoint) : Dap Unit := do
  clearConditionalBreakpointState sourcePath
  .forEach (recordCondition sourcePath) (configured.zip requested)

/-- A write to the tables that is about conditions only. -/
def AboutConditions (f : Tables → Tables) : Prop := ∀ d : Tables,
  (f d).frameContexts = d.frameContexts ∧ (f d).variablesByReference = d.variablesByReference

/-- What holds of the single accesses and is kept by sequencing holds of the whole update. -/
theorem updateConditionalBreakpointState_composed {Q : ∀ {α : Type}, Dap α → Prop}
    {sourcePath : String} {configured : List SourceBreakpointResult}
    {requested : List SourceBreakpoint} (ret : Q (.ret () : Dap Unit))
    (bind : ∀ {α : Type} {p : Dap α} {f : α → Dap Unit}, Q p → (∀ a, Q (f a)) → Q (p.bind f))
    (hread : Q getTables) (hmodify : ∀ f, AboutConditions f → Q (modifyTables f)) :
    Q (updateConditionalBreakpointState sourcePath configured requested) := by
  have each {α : Type} {f : α → Dap Unit} (hf : ∀ a, Q (f a)) (xs : List α) :
      Q (Prog.forEach f xs) := by
    induction xs with
    | nil => exact ret
    | cons x xs ih => exact bind (hf x) fun _ => ih
  have clear : Q (clearConditionalBreakpointState sourcePath) := by
    refine bind hread fun d => ?_
    cases d.conditionalBreakpointIdsByPath.get? sourcePath with
    | none => exact ret
    | some ids =>
      exact bind (each (fun id => hmodify (·.eraseCondition id) fun _ => ⟨rfl, rfl⟩) ids)
        fun _ => hmodify (·.erasePath sourcePath) fun _ => ⟨rfl, rfl⟩
  refine bind clear fun _ => each (fun entry => ?_) _
  unfold recordCondition
  split
  · split
    · exact ret
    · exact bind (hmodify (·.setCondition _ _) fun _ => ⟨rfl, rfl⟩) fun _ =>
        hmodify (·.listUnder sourcePath _) fun _ => ⟨rfl, rfl⟩
  · exact ret

/-! ## setBreakpoints -/

/-- A requested source breakpoint after parsing: a configurable spec or an error. -/
structure ParsedSourceBreakpoint where
  request : SourceBreakpoint
  spec : Option SourceBreakpointSpec := none
  errorMessage : Option String := none
  hasUnsupportedOptions : Bool := false

def readRequestedSourceBreakpoints (arguments : SetBreakpointsArguments) : List SourceBreakpoint :=
  match arguments.breakpoints, arguments.lines with
  | some breakpoints, _ => breakpoints
  | none, some lines => lines.map fun line => { line }
  | none, none => []

def hasUnsupportedOptions (b : SourceBreakpoint) : Bool :=
  b.column.isSome || !Text.isBlank? b.hitCondition || !Text.isBlank? b.logMessage ||
    !Text.isBlank? b.mode

def parseSourceBreakpoint (b : SourceBreakpoint) : ParsedSourceBreakpoint :=
  if hasUnsupportedOptions b then
    { request := b
      errorMessage :=
        some "Hit-count, logpoint, mode, and column source breakpoints are not supported."
      hasUnsupportedOptions := true }
  else if b.line ≤ 0 ∨ b.line > Factory.int32Max then
    { request := b, errorMessage := some "Breakpoint lines must be between 1 and 2147483647." }
  else { request := b, spec := some { line := b.line, condition := b.condition } }

def insertLine (line : Int) : List Int → List Int
  | [] => [line]
  | l :: ls => if line < l then line :: l :: ls else if line = l then l :: ls
    else l :: insertLine line ls

def createUnsupportedBreakpointMessage (source : Source) (breakpoints : List SourceBreakpoint) :
    String :=
  let label := match source.path with
    | some path => if Text.isBlank path then source.name.getD "<unknown source>" else path
    | none => source.name.getD "<unknown source>"
  let lines := breakpoints.foldl (fun ls b => insertLine b.line ls) []
  "Rejected unsupported breakpoint options for " ++ label ++ " at line(s) " ++
    ", ".intercalate (lines.map toString) ++
    ": hit-count, logpoint, mode, and column source breakpoints are not supported.\r\n"

def createSourceBreakpointResponse (source : Source) (breakpoint : SourceBreakpoint)
    (verified : Bool) (message : Option String) (reason : Option BreakpointReason)
    (id : Option Int) : Breakpoint :=
  { id, verified, message, reason, source := some source, line := some breakpoint.line
    column := breakpoint.column }

/-- One response breakpoint for each parsed one; the configured results are consumed in order. -/
def createResponseBreakpoints (source : Source) :
    List ParsedSourceBreakpoint → List SourceBreakpointResult → List Breakpoint
  | [], _ => []
  | p :: ps, configured =>
    if p.errorMessage.isSome then
      createSourceBreakpointResponse source p.request false p.errorMessage (some .failed) none ::
        createResponseBreakpoints source ps configured
    else
      let result := configured.head?.getD {}
      createSourceBreakpointResponse source p.request result.verified result.message
        (if result.verified then none else some .failed) result.id ::
        createResponseBreakpoints source ps configured.tail

def setBreakpointsWhileRunning (id : SessionId) (sourcePath : String)
    (specs : List SourceBreakpointSpec) : Dap (List SourceBreakpointResult) :=
  applyBreakpointUpdateWhileRunning id
    (invoke .request (Session.setSourceBreakpoints id sourcePath specs))

/-- The part of setBreakpoints past the argument checks. -/
def configureSetBreakpoints (request : Request SetBreakpointsArguments) (sourcePath : String) :
    Dap Unit := do
  let source := request.arguments.source
  let parsed := (readRequestedSourceBreakpoints request.arguments).map parseSourceBreakpoint
  let id ← requireDebuggerSession
  let resumeAfterUpdate ← load .isExecutionRunning
  let unsupported := (parsed.filter fun p => p.hasUnsupportedOptions).map fun p => p.request
  let configurable := parsed.filter fun p => p.spec.isSome
  let supported := configurable.filterMap fun p => p.spec
  let configured ← if resumeAfterUpdate then setBreakpointsWhileRunning id sourcePath supported
    else invoke .request (Session.setSourceBreakpoints id sourcePath supported)
  updateConditionalBreakpointState sourcePath configured (configurable.map fun p => p.request)
  sendResponse request (.breakpoints (createResponseBreakpoints source parsed configured))
  if unsupported.isEmpty then return
  else sendEvent (Factory.createOutputEvent
    (createUnsupportedBreakpointMessage source unsupported) .important)

def handleSetBreakpointsRequest (request : Request SetBreakpointsArguments) : Dap Unit := do
  let source := request.arguments.source
  if source.sourceReference.any (· > 0) then
    fail request ("The setBreakpoints request does not support 'source.sourceReference'; provide " ++
      "'source.path'.")
  else
    match source.path.filter fun p => !Text.isBlank p with
    | none => fail request "The setBreakpoints request requires 'source.path'."
    | some sourcePath => configureSetBreakpoints request sourcePath

/-! ## The other setters -/

/-- What the setters without a source path share: they need a session, apply their update at a
stop or while running, and turn any failure into an error response. -/
def applyUpdate {α β : Type} (request : Request α) (name : String) (update : SessionId → Dap β)
    (respond : β → Body) : Dap Unit := do
  match ← getSession with
  | none => fail request ("The " ++ name ++ " request requires an active debugger session.")
  | some _ =>
    Prog.catching
      (do
        let id ← requireDebuggerSession
        let resumeAfterUpdate ← load .isExecutionRunning
        let apply := invoke .request (update id)
        let results ← if resumeAfterUpdate then applyBreakpointUpdateWhileRunning id apply
          else apply
        sendResponse request (respond results))
      (failUnwrapped request)

def createBreakpoint (result : SourceBreakpointResult) : Breakpoint :=
  { id := result.id, verified := result.verified, message := result.message }

def handleSetFunctionBreakpointsRequest (request : Request (List String)) : Dap Unit :=
  if request.arguments.any Text.isBlank then
    fail request "Every function breakpoint requires a non-empty name."
  else
    applyUpdate request "setFunctionBreakpoints"
      (fun id => Session.setFunctionBreakpoints id (request.arguments.map Text.trimBoth))
      fun results => .breakpoints (results.map createBreakpoint)

/-- The address of one instruction breakpoint. -/
def instructionAddress (b : InstructionBreakpoint) : Except String Nat :=
  match Text.tryParseMemoryReference b.instructionReference with
  | none => .error ("The instruction reference '" ++ b.instructionReference ++
      "' is not a valid address.")
  | some address =>
    let offset := b.offset.getD 0
    match Text.tryApplyByteOffset address offset with
    | none => .error (s!"The offset {offset} moves '{b.instructionReference}' outside the 64-bit " ++
        "address space.")
    | some adjusted => .ok adjusted

def createInstructionBreakpoint (result : SourceBreakpointResult) (address : Nat) : Breakpoint :=
  { createBreakpoint result with instructionReference := some ("0x" ++ Text.hex address) }

def handleSetInstructionBreakpointsRequest (request : Request (List InstructionBreakpoint)) :
    Dap Unit :=
  match request.arguments.mapM instructionAddress with
  | .error message => fail request message
  | .ok addresses =>
    applyUpdate request "setInstructionBreakpoints"
      (fun id => Session.setInstructionBreakpoints id addresses)
      fun results => .breakpoints (List.zipWith createInstructionBreakpoint results addresses)

/-- A dataId is "0x<address>:<size>" as produced by dataBreakpointInfo. -/
def tryParseDataId (dataId : String) : Option (Nat × Nat) := do
  let cs := dataId.toList
  let reference := cs.takeWhile (· ≠ ':')
  let rest := cs.drop reference.length
  if rest.isEmpty then none
  else do
    let address ← Text.tryParseMemoryReference (String.ofList reference)
    let sizeText := rest.tail
    let (size, consumed) ← Text.scanUnsigned 32 10 sizeText
    if consumed ≠ sizeText.length then none
    else if size = 1 ∨ size = 2 ∨ size = 4 ∨ size = 8 then some (address, size)
    else none

def dataBreakpointSpec (b : DataBreakpoint) : Except String DataBreakpointSpec :=
  match tryParseDataId b.dataId with
  | none => .error ("The dataId '" ++ b.dataId ++
      "' is not valid. Request dataBreakpointInfo again for the current stop.")
  | some (address, size) =>
    .ok { address, size, breakOnRead := b.accessType.any (· ≠ .write) }

def handleSetDataBreakpointsRequest (request : Request (List DataBreakpoint)) : Dap Unit :=
  match request.arguments.mapM dataBreakpointSpec with
  | .error message => fail request message
  | .ok specs =>
    applyUpdate request "setDataBreakpoints" (fun id => Session.setDataBreakpoints id specs)
      fun results => .breakpoints (results.map createBreakpoint)

def createFilterBreakpoint (filter : String) : Breakpoint :=
  if filter = "cpp" then { verified := true }
  else { verified := false, message := some ("Unknown exception filter '" ++ filter ++ "'.") }

def handleSetExceptionBreakpointsRequest (request : Request (List String)) : Dap Unit :=
  applyUpdate request "setExceptionBreakpoints"
    (fun id => Session.setCppFirstChanceBreak id (request.arguments.contains "cpp"))
    fun _ => .breakpoints (request.arguments.map createFilterBreakpoint)

end Server

end DapDbgeng
