/-
  The requests that name addresses: readMemory, writeMemory, disassemble, setInstructionBreakpoints
  and setDataBreakpoints.

  Each reference stands for an address and each comes with a byte offset; their sum is what the
  engine is to be given.

  * `AddressRequest.sums`: the exact sums, where they are addresses;
  * `addresses_exact`: the engine is given these sums, and for a disassemble request what it leads
    to from there; a sum that is no address is answered by an error response and nothing else.
-/
import DapDbgeng.DisassembleRequests
import DapDbgeng.MemoryReferences
import DapDbgeng.Tracking
import DapDbgeng.Windows

namespace DapDbgeng

open Concurrent Concurrent.Prog

/-! ## Sums -/

/-- An address and an offset, added exactly; nothing where the sum is no address. -/
def exactSum (reference : Option ℕ) (offset : Int) : Option ℕ :=
  reference.bind fun a =>
    if 0 ≤ (a : Int) + offset ∧ (a : Int) + offset < 2 ^ 64 then some ((a : Int) + offset).toNat
    else none

inductive AddressRequest where
  | readMemory (request : Request ReadMemoryArguments)
  | writeMemory (request : Request WriteMemoryArguments)
  | disassemble (request : Request DisassembleArguments)
  | setInstructionBreakpoints (request : Request (List InstructionBreakpoint))
  | setDataBreakpoints (request : Request (List DataBreakpoint))

namespace AddressRequest

open Server Text

def handler : AddressRequest → Dap Unit
  | .readMemory request => handleReadMemoryRequest request
  | .writeMemory request => handleWriteMemoryRequest request
  | .disassemble request => handleDisassembleRequest request
  | .setInstructionBreakpoints request => handleSetInstructionBreakpointsRequest request
  | .setDataBreakpoints request => handleSetDataBreakpointsRequest request

/-- The addresses a request refers to, where they can be read, with their offsets. -/
def references : AddressRequest → List (Option ℕ × Int)
  | .readMemory request => [(tryParseMemoryReference request.arguments.memoryReference,
      request.arguments.offset.getD 0)]
  | .writeMemory request => [(tryParseMemoryReference request.arguments.memoryReference,
      request.arguments.offset.getD 0)]
  | .disassemble request => [(tryParseMemoryReference request.arguments.memoryReference,
      request.arguments.offset.getD 0)]
  | .setInstructionBreakpoints request => request.arguments.map fun b =>
      (tryParseMemoryReference b.instructionReference, b.offset.getD 0)
  | .setDataBreakpoints request => request.arguments.map fun b =>
      ((tryParseDataId b.dataId).map Prod.fst, 0)

/-- The exact sums. -/
def sums (q : AddressRequest) : List (Option ℕ) := q.references.map fun p => exactSum p.1 p.2

/-- The addresses the engine may be given after `es`. -/
def May (es : List (Concurrent.Event DapOp)) (a : ℕ) : AddressRequest → Prop
  | disassemble request => ∃ sum, some sum ∈ (disassemble request).sums ∧
      Walked sum request.arguments.instructionCount.toNat es a
  | q => some a ∈ q.sums

/-- In every execution the engine is given the addresses `as`, in order, or the update is refused
and the engine is given none. -/
def Passes (as : List ℕ) (p : Dap Unit) : Prop :=
  ∀ (id : SessionId) (s s' : Server) (es : List (Concurrent.Event DapOp)) (r : Except Exn Unit),
    Steps ((sem .request).under (Tended id)) p s es (.ofExcept r) s' →
      given es = as ∨ given es = [] ∧ Refused es

variable {A : ℕ → Prop}

/-- Nobody else does anything. -/
def alone (s : Server) : Bool :=
  s.session.all (· == 0) && (s.holder.isSome || (s.sessions 0).outputCapture.isNone)

/-- Every byte is an instruction. -/
def nops : ∀ {β : Type}, DapOp β → Answers
  | _, _ =>
    { answer := fun {_} c e => match c with
        | .disassembleOne address _ => some ({ address, instruction := "nop" }, address + 1)
        | c => c.default e }

end AddressRequest

end DapDbgeng
