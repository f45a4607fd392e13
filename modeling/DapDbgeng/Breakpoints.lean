/-
  The breakpoint methods of `debugger_session`.

  Both setters replace what they configured before: they clear the ids they track, create the new
  breakpoints one command at a time, and learn each new id by comparing the engine's breakpoints
  before and after.
-/
import DapDbgeng.Session

namespace DapDbgeng

namespace Session

def getConfiguredBreakpointIds (id : SessionId) : Dap (List Int) := do
  throwIfDisposed id
  let ids ← call id .visibleBreakpointIds
  return ids.insertionSort (· ≤ ·)

/-- The ids that appeared. -/
def newIds (before after : List Int) : List Int := after.filter fun id => !before.contains id

def clearBreakpoint (id : SessionId) (breakpoint : Int) : Dap Unit := do
  let _ ← executeCommandWithOutput id (.clear breakpoint)

def clearAllBreakpoints (id : SessionId) : Dap Unit := do
  throwIfDisposed id
  let _ ← executeCommandWithOutput id .clearAll

/-! ## Source breakpoints -/

/-- Spec equality is (line, condition), as text. -/
def specKey (s : SourceBreakpointSpec) : String :=
  toString s.line ++ "\x1f" ++ s.condition.getD "\x1e"

/-- Distinct by key, only lines above zero, the first occurrence of each. -/
def distinctSpecs : List String → List SourceBreakpointSpec → List SourceBreakpointSpec
  | _, [] => []
  | seen, bp :: rest =>
    if bp.line ≤ 0 then distinctSpecs seen rest
    else if seen.contains (specKey bp) then distinctSpecs seen rest
    else bp :: distinctSpecs (specKey bp :: seen) rest

def clearSourceBreakpoints (id : SessionId) (normalizedPath : String) : Dap Unit := do
  let key := Text.toUpperInvariant normalizedPath
  let s ← readSession id
  match s.sourceBreakpointIdsByPath.get? key with
  | none => return
  | some ids => do
    updateSession id (.eraseSource key)
    .forEach (clearBreakpoint id) ids

/-- The result of one `bu` command, from the ids that appeared. -/
def sourceResult (normalizedPath : String) (line : Int) : List Int → SourceBreakpointResult
  | [id] => { id := some id, line, verified := true }
  | _ =>
    { line, verified := false
      message := some (s!"Unable to resolve breakpoint at '{normalizedPath}:{line}'.") }

/-- What the loop over the distinct specs has gathered. -/
structure ConfiguredBreakpoints where
  results : AssocMap String SourceBreakpointResult := []
  ids : List Int := []

def configureSourceBreakpoint (id : SessionId) (normalizedPath : String)
    (configured : ConfiguredBreakpoints) (bp : SourceBreakpointSpec) :
    Dap ConfiguredBreakpoints := do
  let before ← getConfiguredBreakpointIds id
  let _ ← executeCommandWithOutput id (.sourceBreakpoint normalizedPath bp)
  let after ← getConfiguredBreakpointIds id
  let result := sourceResult normalizedPath bp.line (newIds before after)
  return { results := configured.results.set (specKey bp) result
           ids := configured.ids ++ (result.id).toList }

def configureSourceBreakpoints (id : SessionId) (normalizedPath : String) :
    ConfiguredBreakpoints → List SourceBreakpointSpec → Dap ConfiguredBreakpoints
  | configured, [] => return configured
  | configured, bp :: rest => do
    let configured ← configureSourceBreakpoint id normalizedPath configured bp
    configureSourceBreakpoints id normalizedPath configured rest

/-- The result of a requested spec. -/
def projectResult (results : AssocMap String SourceBreakpointResult) (bp : SourceBreakpointSpec) :
    SourceBreakpointResult :=
  if bp.line ≤ 0 then
    { line := bp.line, verified := false
      message := some "Breakpoint lines must be greater than zero." }
  else (results.get? (specKey bp)).getD {}

def setSourceBreakpoints (id : SessionId) (filePath : String)
    (breakpoints : List SourceBreakpointSpec) : Dap (List SourceBreakpointResult) := do
  throwIfDisposed id
  throwIfNullOrWhitespace filePath "filePath"
  let normalizedPath ← .perform (.fullPath filePath)
  let _ ← executeCommandWithOutput id .lines
  clearSourceBreakpoints id normalizedPath
  if breakpoints.isEmpty then return []
  else do
    let configured ← configureSourceBreakpoints id normalizedPath {} (distinctSpecs [] breakpoints)
    updateSession id (.trackSource (Text.toUpperInvariant normalizedPath) configured.ids)
    return breakpoints.map (projectResult configured.results)

/-! ## Function, instruction and data breakpoints -/

/-- One command and the label of its failure message; a rejected command adds no id. -/
def setCommandBreakpoint (id : SessionId) (kind : BreakpointKind) (command : Command)
    (failureLabel : String) : Dap SourceBreakpointResult := do
  let before ← getConfiguredBreakpointIds id
  let _ ← (executeCommandWithOutput id command).catching fun _ => .ret ""
  let after ← getConfiguredBreakpointIds id
  match newIds before after with
  | [new] => do
    let s ← readSession id
    updateSession id (.track kind (s.commandBreakpointIds kind ++ [new]))
    return { id := some new, verified := true }
  | _ =>
    return { verified := false
             message := some ("Unable to set breakpoint at '" ++ failureLabel ++ "'.") }

def setCommandBreakpoints (id : SessionId) (kind : BreakpointKind)
    (commands : List (Command × String)) : Dap (List SourceBreakpointResult) := do
  throwIfDisposed id
  let s ← readSession id
  .forEach (clearBreakpoint id) (s.commandBreakpointIds kind)
  updateSession id (.track kind [])
  .mapEach (fun c => setCommandBreakpoint id kind c.1 c.2) commands

def setFunctionBreakpoints (id : SessionId) (names : List String) :
    Dap (List SourceBreakpointResult) :=
  setCommandBreakpoints id .function (names.map fun name => (.functionBreakpoint name, name))

def setInstructionBreakpoints (id : SessionId) (addresses : List Nat) :
    Dap (List SourceBreakpointResult) :=
  setCommandBreakpoints id .instruction
    (addresses.map fun a => (.instructionBreakpoint a, "0x" ++ Text.hex a))

def setDataBreakpoints (id : SessionId) (specs : List DataBreakpointSpec) :
    Dap (List SourceBreakpointResult) :=
  setCommandBreakpoints id .data (specs.map fun s =>
    (.dataBreakpoint s.address s.size s.breakOnRead, s!"0x{Text.hex s.address} ({s.size} bytes)"))

def setCppFirstChanceBreak (id : SessionId) (enabled : Bool) : Dap Unit := do
  throwIfDisposed id
  let _ ← executeCommandWithOutput id (.cppFirstChance enabled)
  updateSession id (.cppFirstChanceBreak enabled)

/-! ## The breakpoint of the last event -/

/-- The number after the first occurrence of a token, white space skipped. -/
def tryParseBreakpointIdAfterToken (description token : String) : Option Nat := do
  let index ← Text.findList (Text.toUpperInvariant token).toList
    (Text.toUpperInvariant description).toList
  let rest := (description.toList.drop (index + token.length)).dropWhile Text.isSpace
  let digits := rest.takeWhile (Text.isDigitIn 10)
  if digits.isEmpty then none
  else
    let parsed := Text.ofDigits 10 digits
    if parsed < 2 ^ 32 then some parsed else none

def tryParseBreakpointId (description : String) : Option Nat :=
  if (Text.trimBoth description).isEmpty then none
  else tryParseBreakpointIdAfterToken description "breakpoint" <|>
    tryParseBreakpointIdAfterToken description "bp"

def getLastBreakpointId (id : SessionId) : Dap Nat := do
  let description ← call id .lastEvent
  return (description.bind tryParseBreakpointId).getD 0

end Session

end DapDbgeng
