/-
  The debug engine as the adapter sees it.

  A `Call` is one call into the engine, typed by what it returns.  The engine is free in what it
  answers, except that a query it answers successfully is answered according to its state; what a
  call does to that state is given by `Call.effect`.
-/
import DapDbgeng.Messages

namespace DapDbgeng

/-- An HRESULT-returning call: a value, or the failing HRESULT. -/
abbrev Reply (α : Type) := Except Nat α

/-! ## Commands -/

/-- The commands the adapter hands to the engine's command processor. -/
inductive Command where
  | lines
  | sourceStepping
  | instructionStepping
  | go
  | stepInto
  | stepOver
  | stepOut
  | clear (id : Int)
  | clearAll
  | sourceBreakpoint (path : String) (spec : SourceBreakpointSpec)
  | functionBreakpoint (name : String)
  | instructionBreakpoint (address : Nat)
  | dataBreakpoint (address size : Nat) (breakOnRead : Bool)
  | clearDebugRegisters
  | cppFirstChance (enabled : Bool)
  | sourcePath (path : String)
  | frame (number : Nat)
  | condition (expression : String)
  | raw (text : String)
  deriving DecidableEq

namespace Command

def escapeCondition (cs : List Char) : List Char :=
  cs.flatMap fun c => if c = '\\' then ['\\', '\\'] else if c = '"' then ['\\', '"'] else [c]

/-- ``bu `path:line` ``, with `/w "condition"` if there is one. -/
def renderSourceBreakpoint (path : String) (spec : SourceBreakpointSpec) : String :=
  let token := "\x60" ++ path ++ ":" ++ toString spec.line ++ "\x60"
  match spec.condition with
  | none => "bu " ++ token
  | some c =>
    if (Text.trimBoth c).isEmpty then "bu " ++ token
    else "bu /w \"" ++ String.ofList (escapeCondition c.toList) ++ "\" " ++ token

/-- The text the command processor gets. -/
def render : Command → String
  | .lines => ".lines -e"
  | .sourceStepping => "l+t"
  | .instructionStepping => "l-t"
  | .go => "g"
  | .stepInto => "t"
  | .stepOver => "p"
  | .stepOut => "gu"
  | .clear id => s!"bc {id}"
  | .clearAll => "bc *"
  | .sourceBreakpoint path spec => renderSourceBreakpoint path spec
  | .functionBreakpoint name => "bu " ++ name
  | .instructionBreakpoint address => "bp 0x" ++ Text.hex address
  | .dataBreakpoint address size breakOnRead =>
    "ba " ++ (if breakOnRead then "r" else "w") ++ toString size ++ " 0x" ++ Text.hex address
  | .clearDebugRegisters => "~*e r dr7=0; r dr0=0; r dr1=0; r dr2=0; r dr3=0; r dr6=0"
  | .cppFirstChance enabled => if enabled then "sxe e06d7363" else "sxd e06d7363"
  | .sourcePath path => ".srcpath " ++ path
  | .frame number => s!".frame {number}"
  | .condition expression => "dx (" ++ expression ++ ")"
  | .raw text => text

/-- The commands that create breakpoints. -/
def creates : Command → Bool
  | .sourceBreakpoint .. | .functionBreakpoint _ | .instructionBreakpoint _
  | .dataBreakpoint .. => true
  | _ => false

/-- The commands that set the target going. -/
def resumes : Command → Bool
  | .go | .stepInto | .stepOver | .stepOut => true
  | _ => false

end Command

/-! ## Engine state -/

/-- What the engine is connected to. -/
inductive Target where
  | none | launched | attached | dump | kernel
  deriving DecidableEq, Repr

/-- A live breakpoint and the command that created it. -/
structure LiveBreakpoint where
  id : Int
  origin : Command
  deriving DecidableEq

structure EngineState where
  target : Target := .none
  /-- Event callbacks are registered. -/
  callbacks : Bool := true
  /-- Engine id and system id of each thread. -/
  threads : List (Nat × Nat) := []
  /-- Engine id of the current thread. -/
  current : Nat := 0
  breakpoints : List LiveBreakpoint := []
  /-- The last mode switch was `l+t`. -/
  sourceStepping : Bool := false

namespace EngineState

def systemIds (e : EngineState) : List Nat := e.threads.map Prod.snd

def breakpointIds (e : EngineState) : List Int := e.breakpoints.map LiveBreakpoint.id

/-- System id of the current thread. -/
def currentSystemId (e : EngineState) : Option Nat := e.threads.lookup e.current

end EngineState

/-! ## Calls -/

/-- A symbol of the scope symbol group; `parent` is the index of its parent. -/
structure FlatSymbol where
  name : String := ""
  value : String := ""
  type : String := ""
  isExpandable : Bool := false
  address : Nat := 0
  size : Nat := 0
  parent : Option Nat := none

/-- What opening the scope symbol group on an expression gives. -/
inductive OpenedSymbol where
  | noGroup
  | noInterface
  | unresolved
  | opened

/-- Value, type and expandability of an opened symbol. -/
structure SymbolText where
  value : String := ""
  type : String := ""
  isExpandable : Bool := false

/-- The outcome of a command and the texts it printed. -/
structure ExecuteResult where
  status : Reply Unit := .ok ()
  output : List String := []

inductive Call : Type → Type where
  -- life of the engine; creation answers whether the engine's own dbghelp.dll was loaded
  | createEngine (enginePath : String) : Call (Except String Bool)
  | clearCallbacks : Call Unit
  | endSessionTerminate : Call Unit
  -- targets
  | connectProcessServer (connectionString : String) : Call (Reply Nat)
  | disconnectProcessServer (handle : Nat) : Call Unit
  | createProcess (server : Nat) (commandLine : String) (directory : Option String) :
      Call (Reply Unit)
  | addInitialBreak : Call (Reply Unit)
  | attachProcess (server : Nat) (processId : Int) : Call (Reply Unit)
  | attachKernel (connectionString : String) : Call (Reply Unit)
  | openDumpFile (path : String) : Call (Reply Unit)
  | detachProcesses : Call (Reply Unit)
  | processIdByName (server : Nat) (name : String) : Call (Option Nat)
  -- execution
  | execute (command : Command) : Call ExecuteResult
  | setInterrupt : Call (Reply Unit)
  | waitForEvent : Call (Reply Unit)
  | lastEvent : Call (Option String)
  -- threads
  | numberThreads : Call (Reply Nat)
  | threadIdsByIndex (count : Nat) : Call (Reply (List Nat))
  | currentThreadId : Call (Reply Nat)
  | threadIdBySystemId (systemId : Nat) : Call (Reply Nat)
  | setCurrentThreadId (engineId : Nat) : Call (Reply Unit)
  -- breakpoints: the ids the enumeration gets to see
  | visibleBreakpointIds : Call (List Int)
  -- stack (all of it: the adapter's buffer cuts it), variables, memory
  | stackTrace : Call (Reply (List StackFrameInfo))
  | scopeLocals : Call (Option (List NamedValueInfo))
  | scopeSymbols : Call (Option (List FlatSymbol))
  | openSymbol (expression : String) : Call OpenedSymbol
  | writeSymbol (expression value : String) : Call (Reply Unit)
  | readSymbol (expression : String) : Call SymbolText
  | symbolOffset (expression : String) : Call (Option Nat)
  | symbolSize (expression : String) : Call (Option Nat)
  | setScopeFrame (number : Nat) : Call Bool
  | registers : Call (List NamedValueInfo)
  | setSymbolPath (path : String) : Call (Reply Unit)
  | modules : Call (Reply (List ModuleInfo))
  -- code: the instruction at an address with the address behind it, and where a symbol starts
  | disassembleOne (address : Nat) (resolveSymbols : Bool) :
      Call (Option (DisassembledInstructionInfo × Nat))
  | symbolStart (address : Nat) : Call (Option Nat)
  | readVirtual (address count : Nat) : Call (Option (List Nat))
  | writeVirtual (address : Nat) (bytes : List Nat) : Call (Reply Nat)

namespace Call

/-- The part of a call during which the engine may run the adapter's event callbacks. -/
inductive Pump where
  | endSession | detach | wait | command
  deriving DecidableEq, Repr

/-- The calls during which the engine may run the adapter's event callbacks. -/
def pump? : ∀ {β : Type}, Call β → Option Pump
  | _, .endSessionTerminate => some .endSession
  | _, .detachProcesses => some .detach
  | _, .waitForEvent => some .wait
  | _, .execute (.raw _) => some .command
  | _, _ => none

/-- Whether the engine may give this answer: a query that succeeds tells the truth, and a decoded
instruction ends behind its address. -/
def admissible : ∀ {β : Type}, Call β → β → EngineState → Bool
  | _, .numberThreads, .ok n, e => n = e.threads.length
  | _, .threadIdsByIndex _, .ok ids, e => ids = e.systemIds
  | _, .currentThreadId, .ok id, e => id = e.current
  | _, .threadIdBySystemId s, .ok id, e => e.threads.contains (id, s)
  | _, .setCurrentThreadId id, .ok (), e => (e.threads.lookup id).isSome
  | _, .visibleBreakpointIds, ids, e => ids.isSublist e.breakpointIds
  | _, .disassembleOne address _, some (info, next), _ =>
    info.address = address && !info.isInvalid && address < next && next < 2 ^ 64
  | _, _, _, _ => true

/-- The breakpoints after a command; `created` are the ids of the breakpoints it made. -/
def breakpointsAfter (command : Command) (created : List Int) (bps : List LiveBreakpoint) :
    List LiveBreakpoint :=
  match command with
  | .clear id => bps.filter fun b => b.id ≠ id
  | .clearAll => []
  | _ => bps ++ created.map fun id => { id, origin := command }

/-- A command that fails clears no breakpoint. -/
def executed (command : Command) (r : ExecuteResult) (created : List Int) (e : EngineState) :
    EngineState :=
  match r.status with
  | .error _ =>
    if command.creates then
      { e with breakpoints := breakpointsAfter command created e.breakpoints }
    else e
  | .ok () =>
    { e with
      breakpoints := breakpointsAfter command created e.breakpoints
      sourceStepping := match command with
        | .sourceStepping => true
        | .instructionStepping => false
        | _ => e.sourceStepping }

/-- What a call does to the engine's state. -/
def effect (created : List Int) (after : EngineState → EngineState) :
    ∀ {β : Type}, Call β → β → EngineState → EngineState
  | _, .clearCallbacks, _, e => { e with callbacks := false }
  | _, .endSessionTerminate, _, e => { e with target := .none }
  | _, .createProcess .., .ok (), e => { e with target := .launched }
  | _, .attachProcess .., .ok (), e => { e with target := .attached }
  | _, .attachKernel _, .ok (), e => { e with target := .kernel }
  | _, .openDumpFile _, .ok (), e => { e with target := .dump }
  | _, .detachProcesses, .ok (), e => { e with target := .none }
  | _, .execute (.raw _), _, e => after e
  | _, .execute (.condition _), _, e => after e
  | _, .execute c, r, e => executed c r created e
  | _, .setCurrentThreadId id, .ok (), e => { e with current := id }
  | _, _, _, e => e

/-- Ids a command may give to new breakpoints: none that is live, none twice, and none at all
unless the command creates breakpoints. -/
def mayCreate (created : List Int) (e : EngineState) : ∀ {β : Type}, Call β → Bool
  | _, .execute c =>
    if c.creates then created.Nodup && created.all fun id => !e.breakpointIds.contains id
    else created.isEmpty
  | _, _ => created.isEmpty

end Call

/-- An event the engine reports through the adapter's callbacks. -/
inductive Callback where
  | breakpoint
  | exception (code address : Nat) (firstChance : Bool)
  | systemError (error : Nat)
  | break_
  | noDebuggee
  | sessionEnd
  | exitProcess (exitCode : Nat)
  | createThread
  | exitThread
  | output (text : String)
  deriving DecidableEq, Repr

namespace Callback

/-- Whether the engine may report the event: stops and thread events need a target and a wait. -/
def reportedIn (e : EngineState) : Callback → Call.Pump → Bool
  | .noDebuggee, _ => true
  | .sessionEnd, _ => true
  | .output _, _ => true
  | .exitProcess _, .endSession => e.target ≠ .none
  | _, .wait => e.target ≠ .none
  | _, _ => false

/-- What the event itself does to the engine's state: a process that exited and a session that
ended leave no target. -/
def effect (e : EngineState) : Callback → EngineState
  | .exitProcess _ => { e with target := .none }
  | .noDebuggee => { e with target := .none }
  | .sessionEnd => { e with target := .none }
  | _ => e

end Callback

end DapDbgeng
