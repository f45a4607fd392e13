/-
  The values of the JSON library, as they are printed.

  The strings of a message are bytes: output of the debuggee, symbol names and source text are
  never checked on their way here.  Printing a message throws when one of its strings is not UTF-8.

  * `Value`: a JSON value, `clean`: all its strings are UTF-8;
  * `Value.dump`: a printer that follows `nlohmann::json::dump` with its default arguments.
-/
import Mathlib.Algebra.Group.Int.Defs
import Mathlib.Algebra.Group.Nat.Defs

/-- The bytes of a `std::string`. -/
abbrev Bytes := List UInt8

/-! ## UTF-8 -/

namespace Utf8

/-- What the decoder expects next: `owed` continuation bytes, the first of them in a range.  It
reads a byte at a time. -/
structure Expect where
  owed : ℕ := 0
  low : UInt8 := 0x80
  high : UInt8 := 0xBF
  deriving DecidableEq

/-- The first byte of a character. -/
def lead (b : UInt8) : Option Expect :=
  if b ≤ 0x7F then some {}
  else if 0xC2 ≤ b ∧ b ≤ 0xDF then some { owed := 1 }
  else if b = 0xE0 then some { owed := 2, low := 0xA0 }
  else if b = 0xED then some { owed := 2, high := 0x9F }
  else if 0xE1 ≤ b ∧ b ≤ 0xEF then some { owed := 2 }
  else if b = 0xF0 then some { owed := 3, low := 0x90 }
  else if b = 0xF4 then some { owed := 3, high := 0x8F }
  else if 0xF1 ≤ b ∧ b ≤ 0xF3 then some { owed := 3 }
  else none

def step (e : Expect) (b : UInt8) : Option Expect :=
  match e.owed with
  | 0 => lead b
  | owed + 1 => if e.low ≤ b ∧ b ≤ e.high then some { owed } else none

def decode : Expect → Bytes → Option Expect
  | e, [] => some e
  | e, b :: bs => (step e b).bind fun e' => decode e' bs

/-- The bytes are UTF-8: every character is complete. -/
def valid (bs : Bytes) : Bool := (decode {} bs).any fun e => e.owed = 0

end Utf8

namespace DapDbgeng

/-- The bytes of a text of ASCII characters. -/
def ascii (s : String) : Bytes := s.toList.map fun c => UInt8.ofNat c.toNat

/-! ## JSON values -/

/-- A JSON value whose strings are bytes.  The members of an object are in the order of their
keys. -/
inductive Value where
  | null
  | bool (b : Bool)
  | int (i : Int)
  | str (s : Bytes)
  | arr (values : List Value)
  | obj (members : List (Bytes × Value))

abbrev Members := List (Bytes × Value)

def seqKey : Bytes := ascii "seq"

theorem seqKey_valid : Utf8.valid seqKey = true := by decide

namespace Value

def hexDigit (n : UInt8) : UInt8 := if n < 10 then 0x30 + n else 0x57 + n

/-- What a byte of a string becomes; bytes of longer characters stay as they are. -/
def escape (b : UInt8) : Bytes :=
  if b = 0x22 then ascii "\\\""
  else if b = 0x5C then ascii "\\\\"
  else if b = 0x08 then ascii "\\b"
  else if b = 0x09 then ascii "\\t"
  else if b = 0x0A then ascii "\\n"
  else if b = 0x0C then ascii "\\f"
  else if b = 0x0D then ascii "\\r"
  else if b < 0x20 then ascii "\\u00" ++ [hexDigit (b / 16), hexDigit (b % 16)]
  else [b]

/-- `dump` throws on a string that is not UTF-8. -/
def dumpString (s : Bytes) : Except String Bytes :=
  if Utf8.valid s then .ok (ascii "\"" ++ s.flatMap escape ++ ascii "\"")
  else .error "invalid UTF-8 byte"

/-- The elements with commas between them. -/
def commas (parts : List Bytes) : Bytes := (ascii ",").intercalate parts

mutual

def dump : Value → Except String Bytes
  | .null => .ok (ascii "null")
  | .bool b => .ok (ascii (if b then "true" else "false"))
  | .int i => .ok (ascii (toString i))
  | .str s => dumpString s
  | .arr values => do
    let parts ← dumpAll values
    return ascii "[" ++ commas parts ++ ascii "]"
  | .obj members => do
    let parts ← dumpMembers members
    return ascii "\x7b" ++ commas parts ++ ascii "\x7d"

def dumpAll : List Value → Except String (List Bytes)
  | [] => .ok []
  | v :: vs => do
    let part ← dump v
    let parts ← dumpAll vs
    return part :: parts

def dumpMembers : List (Bytes × Value) → Except String (List Bytes)
  | [] => .ok []
  | (key, v) :: ms => do
    let name ← dumpString key
    let part ← dump v
    let parts ← dumpMembers ms
    return (name ++ ascii ":" ++ part) :: parts

end

/-! ## Clean values -/

mutual

/-- All strings and keys are UTF-8. -/
def clean : Value → Bool
  | .str s => Utf8.valid s
  | .arr values => cleanAll values
  | .obj members => cleanMembers members
  | _ => true

def cleanAll : List Value → Bool
  | [] => true
  | v :: vs => clean v && cleanAll vs

def cleanMembers : List (Bytes × Value) → Bool
  | [] => true
  | (key, v) :: ms => Utf8.valid key && clean v && cleanMembers ms

end

theorem dumpString_isOk (s : Bytes) : (dumpString s).isOk = Utf8.valid s := by
  rw [dumpString]
  split
  · rename_i h
    exact h.symm
  · rename_i h
    exact (Bool.eq_false_iff.2 h).symm

theorem isOk_bind_of {ε α β : Type} {x : Except ε α} {f : α → Except ε β} {b : Bool}
    (h : ∀ a, (f a).isOk = b) : (x >>= f).isOk = (x.isOk && b) := by
  cases x with
  | error => rfl
  | ok a => exact h a

mutual

/-- A value can be serialised exactly when it is clean. -/
theorem dump_isOk : ∀ v : Value, (dump v).isOk = clean v
  | .null | .bool _ | .int _ => by simp [dump, clean, Except.isOk, Except.toBool]
  | .str s => by rw [dump, clean, dumpString_isOk]
  | .arr values => by
    rw [dump, clean, ← dumpAll_isOk values, isOk_bind_of (b := true) fun _ => rfl, Bool.and_true]
  | .obj members => by
    rw [dump, clean, ← dumpMembers_isOk members, isOk_bind_of (b := true) fun _ => rfl,
      Bool.and_true]

theorem dumpAll_isOk : ∀ vs : List Value, (dumpAll vs).isOk = cleanAll vs
  | [] => rfl
  | v :: vs => by
    have rest (part : Bytes) : (do
        let parts ← dumpAll vs
        return part :: parts : Except String (List Bytes)).isOk = cleanAll vs := by
      rw [isOk_bind_of (b := true) fun _ => rfl, Bool.and_true, dumpAll_isOk vs]
    rw [dumpAll, cleanAll, isOk_bind_of rest, dump_isOk v]

theorem dumpMembers_isOk : ∀ ms : List (Bytes × Value), (dumpMembers ms).isOk = cleanMembers ms
  | [] => rfl
  | (key, v) :: ms => by
    have rest (name part : Bytes) : (do
        let parts ← dumpMembers ms
        return (name ++ ascii ":" ++ part) :: parts : Except String (List Bytes)).isOk =
          cleanMembers ms := by
      rw [isOk_bind_of (b := true) fun _ => rfl, Bool.and_true, dumpMembers_isOk ms]
    have value (name : Bytes) : (do
        let part ← dump v
        let parts ← dumpMembers ms
        return (name ++ ascii ":" ++ part) :: parts : Except String (List Bytes)).isOk =
          (clean v && cleanMembers ms) := by
      rw [isOk_bind_of (rest name), dump_isOk v]
    rw [dumpMembers, cleanMembers, isOk_bind_of value, dumpString_isOk, Bool.and_assoc]

end

end Value

end DapDbgeng
