/-
  The string helpers of the adapter.

  Strings are lists of characters here; only ASCII characters are treated specially, as in the
  byte strings of the source.  The number scanners follow the C library: leading white space and a
  sign are accepted, the longest run of digits is read, and the caller compares the consumed
  length with the length of the text.
-/
import Mathlib.Algebra.Group.Int.Defs
import Mathlib.Algebra.Group.Nat.Defs
import Mathlib.Data.Nat.Notation

namespace DapDbgeng

namespace Text

/-! ## White space -/

/-- The characters `is_blank` and the argument checks skip. -/
def isBlankChar (c : Char) : Bool := c = ' ' || c = '\t' || c = '\r' || c = '\n'

/-- The characters `std::isspace` accepts. -/
def isSpace (c : Char) : Bool := isBlankChar c || c = '\x0b' || c = '\x0c'

/-- True when a string is empty or only ASCII whitespace. -/
def isBlank (s : String) : Bool := s.toList.all isBlankChar

/-- True when an optional string is unset, empty, or only ASCII whitespace. -/
def isBlank? : Option String → Bool
  | none => true
  | some s => isBlank s

def trimEndList (p : Char → Bool) (cs : List Char) : List Char := (cs.reverse.dropWhile p).reverse

def trimList (p : Char → Bool) (cs : List Char) : List Char := trimEndList p (cs.dropWhile p)

def trimEnd (s : String) : String := String.ofList (trimEndList isSpace s.toList)

def trimBoth (s : String) : String := String.ofList (trimList isSpace s.toList)

/-! ## Case -/

def toUpperInvariant (s : String) : String := String.ofList (s.toList.map Char.toUpper)

def toLowerAscii (s : String) : String := String.ofList (s.toList.map Char.toLower)

/-! ## Searching -/

/-- Whether `pat` occurs in `cs`. -/
def containsList (pat : List Char) : List Char → Bool
  | [] => pat.isEmpty
  | c :: cs => pat.isPrefixOf (c :: cs) || containsList pat cs

def contains (s pat : String) : Bool := containsList pat.toList s.toList

/-- Where `pat` first occurs in `cs`. -/
def findList (pat : List Char) : List Char → Option Nat
  | [] => if pat.isEmpty then some 0 else none
  | c :: cs => if pat.isPrefixOf (c :: cs) then some 0 else (findList pat cs).map (· + 1)

/-- The pieces of `cs` between the separators. -/
def splitList (p : Char → Bool) : List Char → List (List Char)
  | [] => [[]]
  | c :: cs =>
    if p c then [] :: splitList p cs
    else
      match splitList p cs with
      | [] => [[c]]
      | w :: ws => (c :: w) :: ws

/-- The part of a path after its last separator. -/
def fileName (path : String) : String :=
  String.ofList ((path.toList.reverse.takeWhile fun c => c != '\\' && c != '/').reverse)

/-- The part of a path before its last separator. -/
def parentPath (path : String) : String :=
  String.ofList ((path.toList.reverse.dropWhile fun c => c != '\\' && c != '/').tail.reverse)

def hasParentPath (path : String) : Bool := path.toList.any fun c => c = '\\' || c = '/'

/-! ## Numbers -/

/-- Digits in the given base, padded with zeros to a width. -/
def digits (base width n : Nat) : String :=
  let ds := Nat.toDigits base n
  String.ofList (List.replicate (width - ds.length) '0' ++ ds)

/-- `{:x}`. -/
def hex (n : Nat) : String := digits 16 0 n

/-- `{:X}`. -/
def hexUpper (n : Nat) : String := toUpperInvariant (hex n)

/-- `{:08X}`. -/
def hex08 (n : Nat) : String := toUpperInvariant (digits 16 8 n)

def digitValue (c : Char) : Option Nat :=
  if '0' ≤ c ∧ c ≤ '9' then some (c.toNat - '0'.toNat)
  else if 'a' ≤ c ∧ c ≤ 'z' then some (c.toNat - 'a'.toNat + 10)
  else if 'A' ≤ c ∧ c ≤ 'Z' then some (c.toNat - 'A'.toNat + 10)
  else none

def isDigitIn (base : Nat) (c : Char) : Bool := (digitValue c).any (· < base)

/-- The value of a list of digits. -/
def ofDigits (base : Nat) (cs : List Char) : Nat :=
  cs.foldl (fun n c => n * base + (digitValue c).getD 0) 0

/-- What `strtoull` and its kin read: a sign and a magnitude, and the number of characters
consumed; nothing when there is no digit. -/
structure Scanned where
  negative : Bool
  magnitude : Nat
  consumed : Nat
  deriving DecidableEq, Repr

/-- In base 16 an optional `0x` in front of at least one digit is consumed too. -/
def hexPrefix (base : Nat) : List Char → Nat
  | '0' :: x :: d :: _ => if base = 16 ∧ (x = 'x' ∨ x = 'X') ∧ isDigitIn 16 d then 2 else 0
  | _ => 0

def scan (base : Nat) (cs : List Char) : Option Scanned :=
  let afterSpace := cs.dropWhile isSpace
  let (negative, afterSign) :=
    match afterSpace with
    | '-' :: rest => (true, rest)
    | '+' :: rest => (false, rest)
    | rest => (false, rest)
  let skip := hexPrefix base afterSign
  let ds := (afterSign.drop skip).takeWhile (isDigitIn base)
  if ds.isEmpty then none
  else some ⟨negative, ofDigits base ds, cs.length - afterSign.length + skip + ds.length⟩

/-- An unsigned conversion to `w` bits; out of range is an error. -/
def scanUnsigned (w base : Nat) (cs : List Char) : Option (Nat × Nat) := do
  let r ← scan base cs
  if r.magnitude < 2 ^ w then
    some ((if r.negative then (2 ^ w - r.magnitude) % 2 ^ w else r.magnitude), r.consumed)
  else none

/-- `std::stoi`: a conversion to a 32-bit signed integer. -/
def stoi (s : String) : Option (Int × Nat) := do
  let r ← scan 10 s.toList
  let v : Int := if r.negative then -r.magnitude else r.magnitude
  if -2 ^ 31 ≤ v ∧ v < 2 ^ 31 then some (v, r.consumed) else none

/-- Parses a DAP memory reference into an address. -/
def tryParseMemoryReference (memoryReference : String) : Option Nat :=
  let cs := memoryReference.toList
  let (base, body) :=
    match cs with
    | '0' :: x :: rest => if x = 'x' ∨ x = 'X' then (16, rest) else (10, cs)
    | _ => (10, cs)
  let value := body.filter (· ≠ '\x60')
  match value with
  | [] => none
  | c :: _ =>
    if isDigitIn 16 c then
      match scanUnsigned 64 base value with
      | some (parsed, consumed) => if consumed = value.length then some parsed else none
      | none => none
    else none

/-- Applies a signed byte offset to an address, rejecting a result that would wrap around. -/
def tryApplyByteOffset (address : Nat) (offset : Int) : Option Nat :=
  if 0 ≤ offset then
    if address > 2 ^ 64 - 1 - offset.toNat then none else some (address + offset.toNat)
  else if address < (-offset).toNat then none
  else some (address - (-offset).toNat)

/-! ## Base64 -/

def base64Alphabet : List Char :=
  "ABCDEFGHIJKLMNOPQRSTUVWXYZabcdefghijklmnopqrstuvwxyz0123456789+/".toList

def base64Char (n : Nat) : Char := base64Alphabet.getD (n % 64) 'A'

def base64EncodeList : List Nat → List Char
  | a :: b :: c :: rest =>
    let chunk := a * 65536 + b * 256 + c
    base64Char (chunk / 262144) :: base64Char (chunk / 4096) :: base64Char (chunk / 64) ::
      base64Char chunk :: base64EncodeList rest
  | [a, b] =>
    let chunk := a * 65536 + b * 256
    [base64Char (chunk / 262144), base64Char (chunk / 4096), base64Char (chunk / 64), '=']
  | [a] =>
    let chunk := a * 65536
    [base64Char (chunk / 262144), base64Char (chunk / 4096), '=', '=']
  | [] => []

/-- Bytes are numbers below 256. -/
def base64Encode (bytes : List Nat) : String := String.ofList (base64EncodeList bytes)

def base64Value (c : Char) : Option Nat :=
  if 'A' ≤ c ∧ c ≤ 'Z' then some (c.toNat - 'A'.toNat)
  else if 'a' ≤ c ∧ c ≤ 'z' then some (c.toNat - 'a'.toNat + 26)
  else if '0' ≤ c ∧ c ≤ '9' then some (c.toNat - '0'.toNat + 52)
  else if c = '+' then some 62
  else if c = '/' then some 63
  else none

/-- The decoder's loop variables. -/
structure Base64State where
  accumulator : Nat := 0
  bits : Nat := 0
  group : Nat := 0
  pad : Nat := 0
  bytes : List Nat := []

/-- One character; `none` is a rejected text. -/
def base64Step (st : Base64State) (c : Char) : Option Base64State :=
  if c = '\r' ∨ c = '\n' then some st
  else if c = '=' then
    if st.group < 2 ∨ 4 ≤ st.group + st.pad then none else some { st with pad := st.pad + 1 }
  else if st.pad ≠ 0 then none
  else
    match base64Value c with
    | none => none
    | some value =>
      let accumulator := (st.accumulator * 64 + value) % 2 ^ 32
      let bits := st.bits + 6
      let group := if st.group + 1 = 4 then 0 else st.group + 1
      if 8 ≤ bits then
        some { st with
          accumulator, group, bits := bits - 8
          bytes := st.bytes ++ [accumulator / 2 ^ (bits - 8) % 256] }
      else some { st with accumulator, group, bits }

def tryBase64Decode (text : String) : Option (List Nat) :=
  match text.toList.foldlM base64Step {} with
  | none => none
  | some st =>
    if st.pad ≠ 0 then if st.group + st.pad = 4 then some st.bytes else none
    else if st.group ≠ 1 then some st.bytes else none

/-! ## Command classification -/

def executionControlCommands : List String :=
  ["g", "gh", "gn", "gc", "p", "pa", "pc", "ph", "t", "ta", "tc", "th", "gu", ".breakin"]

/-- Whether a segment's first token is an execution-control command. -/
def isExecutionControlSegment (segment : List Char) : Bool :=
  let segment := trimList isBlankChar segment
  !segment.isEmpty && executionControlCommands.contains
    (toLowerAscii (String.ofList (segment.takeWhile fun c => c != ' ' && c != '\t')))

def isExecutionControlCommand (command : String) : Bool :=
  (splitList (· = ';') command.toList).any isExecutionControlSegment

end Text

end DapDbgeng
