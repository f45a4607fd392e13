/-
  The window of instructions around an address.

  The engine decodes one instruction at an address and says where the next one starts.  From this
  the adapter assembles the window a `disassemble` request asks for: placeholders where nothing
  can be decoded, instructions before the address, the instructions from the address on, and
  placeholders again.

  * `disassemble`: the window as the adapter assembles it;
  * `ForwardChain`: the instructions from an address to the first byte that cannot be decoded;
  * `disassemble_window_iff`: when the window is the requested part of the chain.
-/
import DapDbgeng.Messages
import Mathlib.Data.List.Nodup
import Mathlib.Data.List.TakeDrop

namespace DapDbgeng

namespace Disassembly

abbrev Info := DisassembledInstructionInfo

/-- `disassemble_one`: the instruction at an address and the address behind it. -/
structure Decoder where
  decode : ℕ → Option (Info × ℕ)
  address_eq : ∀ {a info next}, decode a = some (info, next) → info.address = a
  valid : ∀ {a info next}, decode a = some (info, next) → info.isInvalid = false
  forward : ∀ {a info next}, decode a = some (info, next) → a < next
  fits : ∀ {a info next}, decode a = some (info, next) → next < 2 ^ 64

def intMax : ℕ := 2 ^ 31 - 1

def invalidInstruction (address : ℕ) : Info :=
  { address, instruction := "<invalid instruction>", isInvalid := true }

/-- A size cast to an `int`. -/
def toInt (size : ℕ) : Int := (size : Int).bmod (2 ^ 32)

/-- The difference of two `int`s. -/
def subtract (a b : Int) : Except String Int :=
  if a - b < -2 ^ 31 ∨ 2 ^ 31 ≤ a - b then .error "signed integer overflow" else .ok (a - b)

/-- The last `count` of a list, whose size is compared as an `int`. -/
def takeLast {α : Type} (count : Int) (l : List α) : List α :=
  if count < toInt l.length then l.drop (toInt l.length - count).toNat else l

def createInvalidLeadingInstructions (memoryAddress count : ℕ) : List Info :=
  let startAddress := if count ≤ memoryAddress then memoryAddress - count else 0
  (List.range count).map fun index => invalidInstruction (startAddress + index)

/-- The first element of every group with the same key, in order. -/
def firstBy {α β : Type} [DecidableEq β] (key : α → β) : List β → List α → List α
  | _, [] => []
  | seen, a :: as =>
    if key a ∈ seen then firstBy key seen as else a :: firstBy key (key a :: seen) as

variable (D : Decoder)

def disassembleRange (start : ℕ) : ℕ → List Info
  | 0 => []
  | count + 1 =>
    match D.decode start with
    | none => []
    | some (info, next) => info :: disassembleRange next count

/-- The instructions from `address` that end exactly at `endAddress`, decoded in at most `fuel`
steps. -/
def alignedRange (endAddress : ℕ) : ℕ → ℕ → Option (List Info)
  | 0, _ => none
  | fuel + 1, address =>
    match D.decode address with
    | none => none
    | some (info, next) =>
      if next = endAddress then some [info]
      else if endAddress < next then none
      else (alignedRange endAddress fuel next).map (info :: ·)

/-- The bytes in front of an address that are scanned for a start. -/
def scanWindow (endAddress count : ℕ) : ℕ := min endAddress (15 * (count + 1) + 15)

/-- The earliest start in front of an address that decodes up to it. -/
def disassembleBackward (endAddress : ℕ) (count : Int) : List Info :=
  if count ≤ 0 ∨ endAddress = 0 then []
  else
    let window := scanWindow endAddress count.toNat
    match (List.range window).findSome? fun i =>
      alignedRange D endAddress window (endAddress - window + i) with
    | some decoded => takeLast count decoded
    | none => []

/-- How many instructions are decoded from the start of a symbol. -/
def requestedFromSymbol (symbolStart memoryAddress count : ℕ) : ℕ :=
  min intMax ((memoryAddress - symbolStart + count) % 2 ^ 64)

variable (symbolStart : ℕ → Option ℕ)

/-- The instructions in front of the address. -/
def previousInstructions (memoryAddress previousCount count : ℕ) : List Info :=
  match symbolStart memoryAddress with
  | some start =>
    if start ≤ memoryAddress then
      takeLast previousCount
        ((disassembleRange D start (requestedFromSymbol start memoryAddress count)).filter
          fun info => info.address < memoryAddress)
    else disassembleBackward D memoryAddress previousCount
  | none => disassembleBackward D memoryAddress previousCount

/-- With a negative offset: placeholders, the instructions in front of the address and those from
it on. -/
def backwardWindow (memoryAddress previousCount count : ℕ) : Except String (List Info) := do
  let previous := previousInstructions D symbolStart memoryAddress previousCount count
  let missing ← subtract previousCount (toInt previous.length)
  let firstAvailable := (previous.head?.map fun info => info.address).getD memoryAddress
  let instructions := createInvalidLeadingInstructions firstAvailable missing.toNat ++ previous
  let remaining ← subtract count (toInt instructions.length)
  return instructions ++ disassembleRange D memoryAddress remaining.toNat

/-- Placeholders up to the requested number. -/
def pad (memoryAddress count : ℕ) (instructions : List Info) : List Info :=
  let nextAddress := (instructions.getLast?.map fun info => info.address + 1).getD memoryAddress
  instructions ++ (List.range (count - instructions.length)).map fun i =>
    invalidInstruction ((nextAddress + i) % 2 ^ 64)

def collect (memoryAddress : ℕ) (instructionOffset instructionCount : Int) :
    Except String (List Info) :=
  if instructionOffset < 0 then
    if 2 ^ 31 ≤ -instructionOffset then .error "signed integer overflow"
    else
      backwardWindow D symbolStart memoryAddress
        (min (-instructionOffset) instructionCount).toNat instructionCount.toNat
  else if 2 ^ 31 ≤ instructionOffset + instructionCount then .error "signed integer overflow"
  else
    .ok ((disassembleRange D memoryAddress (instructionOffset + instructionCount).toNat).drop
      instructionOffset.toNat)

/-- `disassemble`.  An `int` that overflows, which leaves the result undefined, is an error. -/
def disassemble (memoryAddress : ℕ) (instructionOffset instructionCount : Int) :
    Except String (List Info) :=
  if instructionCount < 0 then .error "instructionCount"
  else if instructionCount = 0 then .ok []
  else
    (collect D symbolStart memoryAddress instructionOffset instructionCount).map fun instructions =>
      pad memoryAddress instructionCount.toNat
        ((firstBy (fun info => info.address) [] instructions).take instructionCount.toNat)

/-! ## The chain -/

/-- All that can be decoded from an address on. -/
inductive ForwardChain : ℕ → List Info → Prop
  | stop {a : ℕ} : D.decode a = none → ForwardChain a []
  | next {a next : ℕ} {info : Info} {chain : List Info} :
      D.decode a = some (info, next) → ForwardChain next chain → ForwardChain a (info :: chain)

/-- Every requested instruction that lies in the chain is the one at its place. -/
def Window (memoryAddress : ℕ) (instructionOffset instructionCount : Int) (chain : List Info)
    (j : ℕ) : Prop :=
  ∀ k i : ℕ, (k : Int) < instructionCount → (i : Int) = j + instructionOffset + k →
    i < chain.length →
    ∃ instructions,
      disassemble D symbolStart memoryAddress instructionOffset instructionCount =
        .ok instructions ∧ instructions[k]? = chain[i]?

/-- One of the requested instructions lies in the chain. -/
def Touches (instructionOffset instructionCount : Int) (chain : List Info) (j : ℕ) : Prop :=
  ∃ k i : ℕ, (k : Int) < instructionCount ∧ (i : Int) = j + instructionOffset + k ∧
    i < chain.length

/-- The sums fit an `int`.  With a negative offset, the placeholders fit in front of the symbol, the
count covers the offset and the decoding from the symbol reaches the address; or the decoding is
cut off by exactly what the offset exceeds the count. -/
def Fits (start memoryAddress j : ℕ) (instructionOffset instructionCount : Int) : Prop :=
  if 0 ≤ instructionOffset then instructionOffset + instructionCount < 2 ^ 31
  else
    -instructionOffset < 2 ^ 31 ∧ instructionOffset + instructionCount < 2 ^ 31 ∧
      -instructionOffset - j ≤ start ∧
      if -instructionOffset ≤ instructionCount then
        j ≤ requestedFromSymbol start memoryAddress instructionCount.toNat
      else
        requestedFromSymbol start memoryAddress instructionCount.toNat < j ∧
          requestedFromSymbol start memoryAddress instructionCount.toNat - instructionOffset =
            j + instructionCount

variable {D symbolStart}

namespace ForwardChain

variable {a : ℕ} {chain : List Info}

theorem range_eq (h : ForwardChain D a chain) (count : ℕ) :
    disassembleRange D a count = chain.take count := by
  induction h generalizing count with
  | stop h =>
    cases count with
    | zero => rfl
    | succ count => rw [disassembleRange, h, List.take_nil]
  | next h _ ih =>
    cases count with
    | zero => rfl
    | succ count =>
      rw [disassembleRange, h, List.take_succ_cons]
      exact congrArg _ (ih count)

theorem le_address (h : ForwardChain D a chain) : ∀ info ∈ chain, a ≤ info.address := by
  induction h with
  | stop => exact fun _ hmem => absurd hmem List.not_mem_nil
  | next h _ ih =>
    refine List.forall_mem_cons.2 ⟨Nat.le_of_eq (D.address_eq h).symm, fun info hmem => ?_⟩
    exact Nat.le_trans (Nat.le_of_lt (D.forward h)) (ih info hmem)

/-- The addresses of a chain grow. -/
theorem increasing (h : ForwardChain D a chain) :
    chain.Pairwise fun info info' => info.address < info'.address := by
  induction h with
  | stop => exact .nil
  | next h hrest ih =>
    refine .cons (fun info hmem => ?_) ih
    rw [D.address_eq h]
    exact Nat.lt_of_lt_of_le (D.forward h) (hrest.le_address info hmem)

theorem valid (h : ForwardChain D a chain) : ∀ info ∈ chain, info.isInvalid = false := by
  induction h with
  | stop => exact fun _ hmem => absurd hmem List.not_mem_nil
  | next h _ ih => exact List.forall_mem_cons.2 ⟨D.valid h, ih⟩

theorem head_address (h : ForwardChain D a chain) {info : Info} (hhead : chain[0]? = some info) :
    info.address = a := by
  cases h with
  | stop => cases hhead
  | next h _ =>
    cases hhead
    exact D.address_eq h

/-- The rest of a chain is the chain from the address there. -/
theorem drop (h : ForwardChain D a chain) {j : ℕ} {info : Info} (hj : chain[j]? = some info) :
    ForwardChain D info.address (chain.drop j) := by
  induction h generalizing j with
  | stop => cases hj
  | next hd hrest ih =>
    cases j with
    | zero =>
      cases hj
      rw [D.address_eq hd]
      exact .next hd hrest
    | succ j => exact ih hj

end ForwardChain

/-! ## First elements of groups -/

section

variable {α β : Type} [DecidableEq β] {key : α → β}

theorem firstBy_eq_self {seen : List β} {as : List α} (hnodup : (as.map key).Nodup)
    (hseen : ∀ a ∈ as, key a ∉ seen) : firstBy key seen as = as := by
  induction as generalizing seen with
  | nil => rfl
  | cons a as ih =>
    obtain ⟨ha, has⟩ := List.forall_mem_cons.1 hseen
    obtain ⟨hfresh, hnodup⟩ := List.nodup_cons.1 hnodup
    rw [firstBy, if_neg ha, ih hnodup]
    intro a' hmem
    rw [List.mem_cons, not_or]
    refine ⟨fun heq => hfresh ?_, has a' hmem⟩
    exact heq ▸ List.mem_map_of_mem hmem

theorem mem_of_mem_firstBy {seen : List β} {as : List α} {a : α} (h : a ∈ firstBy key seen as) :
    a ∈ as ∧ key a ∉ seen := by
  induction as generalizing seen with
  | nil => cases h
  | cons b as ih =>
    rw [firstBy] at h
    split at h
    · exact ⟨List.mem_cons_of_mem _ (ih h).1, (ih h).2⟩
    · rename_i hb
      rcases List.mem_cons.1 h with rfl | h
      · exact ⟨List.mem_cons_self, hb⟩
      · obtain ⟨hmem, hfresh⟩ := ih h
        exact ⟨List.mem_cons_of_mem _ hmem, fun hold => hfresh (List.mem_cons_of_mem _ hold)⟩

/-- An element whose key occurs in the front part comes from there. -/
theorem mem_front_of_mem_firstBy {seen : List β} {as bs : List α} {a : α}
    (h : a ∈ firstBy key seen (as ++ bs)) (hkey : key a ∈ as.map key) : a ∈ as := by
  induction as generalizing seen with
  | nil => cases hkey
  | cons b as ih =>
    rw [List.cons_append, firstBy] at h
    rw [List.map_cons, List.mem_cons] at hkey
    split at h
    · rename_i hseen
      have hne : key a ≠ key b := fun heq => (mem_of_mem_firstBy h).2 (heq ▸ hseen)
      exact List.mem_cons_of_mem _ (ih h (hkey.resolve_left hne))
    · rcases List.mem_cons.1 h with rfl | h
      · exact List.mem_cons_self
      · have hne : key a ≠ key b := fun heq =>
          (mem_of_mem_firstBy h).2 (heq ▸ List.mem_cons_self)
        exact List.mem_cons_of_mem _ (ih h (hkey.resolve_left hne))

end

/-! ## The pieces of the window -/

theorem filter_take_before {chain : List Info} {a j memoryAddress : ℕ} {info : Info}
    (h : ForwardChain D a chain) (hj : chain[j]? = some info)
    (hmem : info.address = memoryAddress) (r : ℕ) :
    (chain.take r).filter (fun info => info.address < memoryAddress) = chain.take (min j r) := by
  obtain ⟨hlt, hget⟩ := List.getElem?_eq_some_iff.1 hj
  rw [← List.take_append_drop j (chain.take r), List.take_take, List.drop_take, List.filter_append]
  have hbefore : ∀ info' ∈ chain.take (min j r), info'.address < memoryAddress := by
    intro info' hmem'
    obtain ⟨i, hi, rfl⟩ := List.mem_take_iff_getElem.1 hmem'
    rw [← hmem, ← hget]
    exact List.pairwise_iff_getElem.1 h.increasing i j (by omega) hlt (by omega)
  have hafter : ∀ info' ∈ (chain.drop j).take (r - j), memoryAddress ≤ info'.address := by
    intro info' hmem'
    rw [← hmem]
    exact (h.drop hj).le_address info' (List.mem_of_mem_take hmem')
  rw [List.filter_eq_self.2 fun info' hmem' => by simpa using hbefore info' hmem',
    List.filter_eq_nil_iff.2 fun info' hmem' => by simpa using hafter info' hmem', List.append_nil]

/-- A size below `2 ^ 31` is cast to itself. -/
theorem toInt_eq {size : ℕ} (h : (size : Int) < 2 ^ 31) : toInt size = size := by
  exact Int.bmod_eq_of_le (by omega) (by omega)

theorem takeLast_take {α : Type} (l : List α) (b p : ℕ) (hb : b ≤ l.length)
    (hint : (b : Int) < 2 ^ 31) :
    takeLast p (l.take b) = (l.take b).drop (b - p) := by
  rw [takeLast, List.length_take_of_le hb, toInt_eq hint]
  split
  · congr 1
    omega
  · rw [show b - p = 0 by omega, List.drop_zero]

/-- What is decoded from the start of a symbol is counted by an `int`. -/
theorem min_requested_lt {start memoryAddress n : ℕ} (j : ℕ) :
    ((min j (requestedFromSymbol start memoryAddress n) : ℕ) : Int) < 2 ^ 31 := by
  have hle : min j (requestedFromSymbol start memoryAddress n) ≤ intMax :=
    Nat.le_trans (Nat.min_le_right _ _) (Nat.min_le_left _ _)
  rw [intMax] at hle
  omega

theorem ok_bind {α β : Type} (a : α) (f : α → Except String β) : (.ok a >>= f) = f a := rfl

theorem subtract_eq {a b : Int} (h : -2 ^ 31 ≤ a - b) (h' : a - b < 2 ^ 31) :
    subtract a b = .ok (a - b) := if_neg (by omega)

theorem eq_sub_of_subtract {a b c : Int} (h : subtract a b = .ok c) : c = a - b := by
  rw [subtract] at h
  split at h <;> cases h
  rfl

theorem subtract_error {a b : Int} (h : 2 ^ 31 ≤ a - b) :
    subtract a b = .error "signed integer overflow" := if_pos (Or.inr h)

/-- The number of placeholders, and the size of what stands in front of the address. -/
theorem subtract_sizes {b p : ℕ} (hint : (p : Int) < 2 ^ 31) :
    subtract p (toInt (min b p)) = .ok (p - b : ℕ) ∧ toInt (p - b + min b p) = p := by
  rw [toInt_eq (by omega), toInt_eq (by omega), subtract_eq (by omega) (by omega)]
  constructor
  · congr 1
    omega
  · omega

theorem length_leading (memoryAddress count : ℕ) :
    (createInvalidLeadingInstructions memoryAddress count).length = count := by
  simp [createInvalidLeadingInstructions]

theorem invalid_of_mem_leading {memoryAddress count : ℕ} {info : Info}
    (h : info ∈ createInvalidLeadingInstructions memoryAddress count) : info.isInvalid = true := by
  obtain ⟨_, _, rfl⟩ := List.mem_map.1 h
  rfl

/-- Placeholders that fit in front of an address lie in front of it. -/
theorem address_lt_of_mem_leading {memoryAddress count : ℕ} (h : count ≤ memoryAddress) {info : Info}
    (hmem : info ∈ createInvalidLeadingInstructions memoryAddress count) :
    info.address < memoryAddress := by
  obtain ⟨index, hindex, rfl⟩ := List.mem_map.1 hmem
  have hlt := List.mem_range.1 hindex
  simp only [invalidInstruction, if_pos h]
  omega

/-- Placeholders that do not fit take the lowest addresses. -/
theorem leading_covers {memoryAddress count : ℕ} (h : memoryAddress < count) {address : ℕ}
    (haddress : address < count) :
    address ∈ (createInvalidLeadingInstructions memoryAddress count).map fun info => info.address := by
  rw [createInvalidLeadingInstructions, List.map_map, List.mem_map]
  refine ⟨address, List.mem_range.2 haddress, ?_⟩
  simp [invalidInstruction, Nat.not_le.2 h]

theorem leading_nodup (memoryAddress count : ℕ) :
    ((createInvalidLeadingInstructions memoryAddress count).map fun info => info.address).Nodup := by
  rw [createInvalidLeadingInstructions, List.map_map]
  refine List.Nodup.map (fun index index' heq => ?_) List.nodup_range
  simp only [Function.comp_apply, invalidInstruction] at heq
  omega

/-- Placeholders, the last `p` of the first `b` instructions of the chain, and those from `j` on. -/
def pieces (chain : List Info) (j b p n firstAvailable : ℕ) : List Info :=
  createInvalidLeadingInstructions firstAvailable (p - b) ++
    ((chain.take b).drop (b - p) ++ (chain.drop j).take (n - p))

section

variable {memoryAddress start j : ℕ} {chain : List Info} {info : Info}
  (hstart : symbolStart memoryAddress = some start) (hchain : ForwardChain D start chain)
  (hj : chain[j]? = some info) (haddress : info.address = memoryAddress)
include hchain hj haddress

theorem start_le : start ≤ memoryAddress :=
  haddress ▸ hchain.le_address info (List.mem_of_getElem? hj)

include hstart

theorem previousInstructions_eq {b : ℕ} (p n : ℕ)
    (hb : b = min j (requestedFromSymbol start memoryAddress n)) :
    previousInstructions D symbolStart memoryAddress p n = (chain.take b).drop (b - p) := by
  have hlt := (List.getElem?_eq_some_iff.1 hj).1
  rw [previousInstructions, hstart]
  simp only [if_pos (start_le hchain hj haddress), hchain.range_eq,
    filter_take_before hchain hj haddress]
  rw [← hb, takeLast_take chain b p (by omega) (hb ▸ min_requested_lt j)]

/-- The window with a negative offset, piece by piece. -/
theorem backwardWindow_eq {b p n : ℕ} (hint : (p : Int) < 2 ^ 31)
    (hb : b = min j (requestedFromSymbol start memoryAddress n)) :
    ∃ firstAvailable, (b < p → firstAvailable = if b = 0 then memoryAddress else start) ∧
      backwardWindow D symbolStart memoryAddress p n =
        (subtract n p).map fun _ => pieces chain j b p n firstAvailable := by
  have hlt := (List.getElem?_eq_some_iff.1 hj).1
  have hlength : ((chain.take b).drop (b - p)).length = min b p := by
    rw [List.length_drop, List.length_take_of_le (by omega)]
    omega
  refine ⟨((((chain.take b).drop (b - p)).head?.map fun info => info.address).getD memoryAddress),
    fun hfew => ?_, ?_⟩
  · have hzero : b - p = 0 := by omega
    rw [hzero, List.drop_zero]
    split
    · rename_i hnone
      rw [hnone]
      rfl
    · rename_i hsome
      cases chain with
      | nil => cases hlt
      | cons head rest =>
        obtain ⟨b', rfl⟩ := Nat.exists_eq_succ_of_ne_zero hsome
        exact hchain.head_address rfl
  · have hrange : disassembleRange D memoryAddress (n - p) = (chain.drop j).take (n - p) := by
      rw [← haddress]
      exact (hchain.drop hj).range_eq _
    obtain ⟨hmissing, hsize⟩ := @subtract_sizes b p hint
    rw [backwardWindow, previousInstructions_eq hstart hchain hj haddress p n hb]
    simp only [hlength]
    rw [hmissing, ok_bind, Int.toNat_natCast, List.length_append, length_leading, hlength, hsize]
    cases hremaining : subtract n p with
    | error message => rfl
    | ok remaining =>
      rw [ok_bind, eq_sub_of_subtract hremaining, show ((n : Int) - p).toNat = n - p by omega,
        hrange, List.append_assoc]
      rfl

end

section

variable {chain : List Info} {start j b p n firstAvailable : ℕ}

theorem pieces_placeholder {k : ℕ} (hk : k < p - b) :
    ∃ info, (pieces chain j b p n firstAvailable)[k]? = some info ∧ info.isInvalid = true := by
  rw [← length_leading firstAvailable (p - b)] at hk
  refine ⟨_, (List.getElem?_append_left hk).trans (List.getElem?_eq_getElem hk), ?_⟩
  exact invalid_of_mem_leading (List.getElem_mem hk)

theorem pieces_before {k : ℕ} (hb : b ≤ chain.length) (hk : p - b ≤ k) (hkp : k < p) :
    (pieces chain j b p n firstAvailable)[k]? = chain[b + k - p]? := by
  have hlength : ((chain.take b).drop (b - p)).length = b - (b - p) := by
    rw [List.length_drop, List.length_take_of_le hb]
  rw [pieces, List.getElem?_append_right (by rw [length_leading]; exact hk), length_leading,
    List.getElem?_append_left (by rw [hlength]; omega), List.getElem?_drop,
    List.getElem?_take_of_lt (by omega)]
  congr 1
  omega

theorem pieces_from {k : ℕ} (hb : b ≤ chain.length) (hk : p ≤ k) (hkn : k < n) :
    (pieces chain j b p n firstAvailable)[k]? = chain[j + k - p]? := by
  have hlength : ((chain.take b).drop (b - p)).length = b - (b - p) := by
    rw [List.length_drop, List.length_take_of_le hb]
  rw [pieces, List.getElem?_append_right (by rw [length_leading]; omega), length_leading,
    List.getElem?_append_right (by rw [hlength]; omega), hlength,
    List.getElem?_take_of_lt (by omega), List.getElem?_drop]
  congr 1
  omega

theorem pieces_length (hb : b ≤ chain.length) (hp : p ≤ n) :
    (pieces chain j b p n firstAvailable).length ≤ n := by
  have hbefore : ((chain.take b).drop (b - p)).length = b - (b - p) := by
    rw [List.length_drop, List.length_take_of_le hb]
  have hfrom : ((chain.drop j).take (n - p)).length ≤ n - p := List.length_take_le _ _
  rw [pieces, List.length_append, List.length_append, length_leading, hbefore]
  omega

/-- The decoded pieces are a part of the chain. -/
theorem decoded_sublist (hb : b ≤ j) :
    ((chain.take b).drop (b - p) ++ (chain.drop j).take (n - p)).Sublist chain := by
  have hfront : ((chain.take b).drop (b - p)).Sublist (chain.take j) :=
    (List.drop_sublist _ _).trans (List.take_sublist_take_left hb)
  have hback : ((chain.drop j).take (n - p)).Sublist (chain.drop j) := List.take_sublist _ _
  have happend := hfront.append hback
  rwa [List.take_append_drop] at happend

theorem addresses_nodup {l : List Info} (hchain : ForwardChain D start chain) (h : l.Sublist chain) :
    (l.map fun info => info.address).Nodup := by
  refine List.pairwise_map.2 ((hchain.increasing.sublist h).imp fun hlt => ?_)
  exact Nat.ne_of_lt hlt

end

/-! ## The window -/

theorem pad_get {memoryAddress n k : ℕ} {l : List Info} (hk : k < l.length) :
    (pad memoryAddress n l)[k]? = l[k]? := List.getElem?_append_left hk

/-- A decoded instruction of the window was collected. -/
theorem get_of_pad {memoryAddress n k : ℕ} {l : List Info} {info : Info}
    (h : (pad memoryAddress n l)[k]? = some info) (hvalid : info.isInvalid = false) :
    l[k]? = some info := by
  rcases Nat.lt_or_ge k l.length with hk | hk
  · rwa [pad_get hk] at h
  · rw [pad, List.getElem?_append_right hk] at h
    obtain ⟨i, -, rfl⟩ := List.mem_map.1 (List.mem_of_getElem? h)
    cases hvalid

/-- What becomes of the collected instructions. -/
def finish (memoryAddress n : ℕ) (instructions : List Info) : List Info :=
  pad memoryAddress n ((firstBy (fun info => info.address) [] instructions).take n)

theorem finish_get {memoryAddress n k : ℕ} {l : List Info} (hlength : l.length ≤ n)
    (hnodup : (l.map fun info => info.address).Nodup) {info : Info} (h : l[k]? = some info) :
    (finish memoryAddress n l)[k]? = some info := by
  have hself : firstBy (fun info => info.address) [] l = l :=
    firstBy_eq_self hnodup fun _ _ => List.not_mem_nil
  rw [finish, hself, List.take_of_length_le hlength,
    pad_get (List.getElem?_eq_some_iff.1 h).1, h]

theorem get_of_finish {memoryAddress n k : ℕ} {l : List Info} {info : Info}
    (h : (finish memoryAddress n l)[k]? = some info) (hvalid : info.isInvalid = false) :
    (firstBy (fun info => info.address) [] l)[k]? = some info := by
  have hget := get_of_pad h hvalid
  rw [List.getElem?_take] at hget
  split at hget
  · exact hget
  · cases hget

section

variable {memoryAddress start j b p n firstAvailable : ℕ} {chain : List Info} {info : Info}
  (hchain : ForwardChain D start chain) (hj : chain[j]? = some info)
  (haddress : info.address = memoryAddress)
include hchain

/-- A place of the chain is known by its instruction. -/
theorem index_unique {i i' : ℕ} (h : chain[i]? = chain[i']?) (hi : i < chain.length) : i = i' := by
  have hi' : i' < chain.length := by
    by_contra hout
    rw [List.getElem?_eq_getElem hi, List.getElem?_eq_none (Nat.not_lt.1 hout)] at h
    cases h
  rw [List.getElem?_eq_getElem hi, List.getElem?_eq_getElem hi'] at h
  have hsame := congrArg (fun info => info.address) (Option.some.inj h)
  have hless {i i' : ℕ} (hi : i < chain.length) (hi' : i' < chain.length) (hlt : i < i') :
      chain[i].address < chain[i'].address :=
    List.pairwise_iff_getElem.1 hchain.increasing i i' hi hi' hlt
  rcases Nat.lt_trichotomy i i' with hlt | heq | hgt
  · exact absurd hsame (Nat.ne_of_lt (hless hi hi' hlt))
  · exact heq
  · exact absurd hsame (Nat.ne_of_gt (hless hi' hi hgt))

include hj haddress

/-- The pieces have different addresses when the placeholders fit in front of them. -/
theorem pieces_nodup (hb : b ≤ j)
    (hfirst : b < p → firstAvailable = if b = 0 then memoryAddress else start)
    (hfits : b < p → p - b ≤ firstAvailable) :
    ((pieces chain j b p n firstAvailable).map fun info => info.address).Nodup := by
  rw [pieces, List.map_append]
  refine List.nodup_append.2 ⟨leading_nodup _ _,
    addresses_nodup hchain (decoded_sublist hb), ?_⟩
  intro address hlead address' hdecoded
  obtain ⟨placeholder, hplaceholder, rfl⟩ := List.mem_map.1 hlead
  obtain ⟨decoded, hmem, rfl⟩ := List.mem_map.1 hdecoded
  have hfew : b < p := by
    by_contra hmany
    rw [show p - b = 0 by omega] at hplaceholder
    exact absurd hplaceholder List.not_mem_nil
  have hlt := address_lt_of_mem_leading (hfits hfew) hplaceholder
  have hle : firstAvailable ≤ decoded.address := by
    rw [hfirst hfew]
    split
    · rename_i hzero
      rw [hzero, List.take_zero, List.drop_nil, List.nil_append] at hmem
      exact haddress ▸ (hchain.drop hj).le_address decoded (List.mem_of_mem_take hmem)
    · exact hchain.le_address decoded ((decoded_sublist hb).subset hmem)
  omega

/-- **The window is right** when it starts at the right place and its placeholders fit. -/
theorem finish_pieces {d : ℕ} (hb : b ≤ j) (hp : p = min d n)
    (hfirst : b < p → firstAvailable = if b = 0 then memoryAddress else start)
    (hplace : b + d = j + p) (hfits : p - b ≤ start) {k i : ℕ} (hk : k < n) (hi : i + d = j + k)
    (hlen : i < chain.length) :
    (finish memoryAddress n (pieces chain j b p n firstAvailable))[k]? = chain[i]? := by
  have hlt := (List.getElem?_eq_some_iff.1 hj).1
  have hbelow : b < p → p - b ≤ firstAvailable := by
    intro hfew
    rw [hfirst hfew]
    split
    · exact Nat.le_trans hfits (start_le hchain hj haddress)
    · exact hfits
  have hget : (pieces chain j b p n firstAvailable)[k]? = chain[i]? := by
    rcases Nat.lt_or_ge k p with hkp | hkp
    · rw [pieces_before (by omega) (by omega) hkp]
      congr 1
      omega
    · rw [pieces_from (by omega) hkp hk]
      congr 1
      omega
  rw [List.getElem?_eq_getElem hlen] at hget ⊢
  exact finish_get (pieces_length (by omega) (by omega))
    (pieces_nodup hchain hj haddress hb hfirst hbelow) hget

/-- A placeholder does not have the address of the first instruction, which would then be
dropped. -/
theorem not_clash {d k₀ : ℕ} (hpd : p ≤ d)
    (hfirst : b < p → firstAvailable = if b = 0 then memoryAddress else start)
    (hk₀ : k₀ < n) (hdk₀ : d ≤ j + k₀)
    (hcollected : ∀ k i : ℕ, k < n → i + d = j + k → ∀ hlen : i < chain.length,
      (firstBy (fun info => info.address) [] (pieces chain j b p n firstAvailable))[k]? =
        some chain[i]) :
    ¬(b < p ∧ firstAvailable < p - b) := by
  rintro ⟨hfew, hless⟩
  have hlt := (List.getElem?_eq_some_iff.1 hj).1
  have hle := start_le hchain hj haddress
  have hstart : start < p - b := by
    rw [hfirst hfew] at hless
    split at hless
    · exact Nat.lt_of_le_of_lt hle hless
    · exact hless
  rcases Nat.lt_or_ge d j with hdj | hdj
  · have hzero := hcollected 0 (j - d) (by omega) (by omega) (by omega)
    obtain ⟨placeholder, hplaceholder, hinvalid⟩ :=
      @pieces_placeholder chain j b p n firstAvailable 0 (by omega)
    cases hpieces : pieces chain j b p n firstAvailable with
    | nil => rw [hpieces] at hplaceholder; cases hplaceholder
    | cons head rest =>
      rw [hpieces] at hplaceholder hzero
      rw [firstBy, if_neg List.not_mem_nil] at hzero
      cases hplaceholder.symm.trans hzero
      rw [hchain.valid _ (List.getElem_mem _)] at hinvalid
      cases hinvalid
  · have hhead := hcollected (d - j) 0 (by omega) (by omega) (by omega)
    have hmem := List.mem_of_getElem? hhead
    have hcovered : chain[0].address ∈
        (createInvalidLeadingInstructions firstAvailable (p - b)).map fun info => info.address := by
      rw [hchain.head_address (List.getElem?_eq_getElem (by omega))]
      exact leading_covers hless hstart
    have hinvalid := invalid_of_mem_leading (mem_front_of_mem_firstBy hmem hcovered)
    rw [hchain.valid _ (List.getElem_mem _)] at hinvalid
    cases hinvalid

omit hchain hj haddress in
/-- Where a window begins is known from what it shows. -/
theorem place_eq {d k₀ i₀ l : ℕ} (hb : b ≤ j) (hj : j < l) (hp : p = min d n) (hd : 0 < d)
    (hk₀ : k₀ < n) (hi₀ : i₀ + d = j + k₀) (hlen₀ : i₀ < l)
    (hdecoded : ∀ k i : ℕ, k < n → i + d = j + k → i < l → p - b ≤ k)
    (hbefore : ∀ k i : ℕ, k < p → i + d = j + k → i < l → b + k - p = i) : b + d = j + p := by
  rcases Nat.lt_or_ge k₀ p with hkp | hkp
  · have hplace := hbefore k₀ i₀ hkp hi₀ hlen₀
    have hfew := hdecoded k₀ i₀ hk₀ hi₀ hlen₀
    omega
  · rcases Nat.eq_zero_or_pos j with rfl | hpos
    · omega
    · have hpd : p = d := by omega
      subst hpd
      have hplace := hbefore (p - 1) (j - 1) (by omega) (by omega) (by omega)
      have hfew := hdecoded (p - 1) (j - 1) (by omega) (by omega) (by omega)
      omega

/-- **A right window starts at the right place**, and its placeholders fit. -/
theorem place_of_finish {d k₀ i₀ : ℕ} (hb : b ≤ j) (hp : p = min d n) (hd : 0 < d)
    (hfirst : b < p → firstAvailable = if b = 0 then memoryAddress else start)
    (hk₀ : k₀ < n) (hi₀ : i₀ + d = j + k₀) (hlen₀ : i₀ < chain.length)
    (h : ∀ k i : ℕ, k < n → i + d = j + k → i < chain.length →
      (finish memoryAddress n (pieces chain j b p n firstAvailable))[k]? = chain[i]?) :
    b + d = j + p ∧ p - b ≤ start := by
  have hlt := (List.getElem?_eq_some_iff.1 hj).1
  have hpd : p ≤ d := hp ▸ Nat.min_le_left d n
  have hpn : p ≤ n := hp ▸ Nat.min_le_right d n
  -- what the window shows in the chain was collected, and is no placeholder
  have hcollected (k i : ℕ) (hk : k < n) (hi : i + d = j + k) (hlen : i < chain.length) :
      (firstBy (fun info => info.address) [] (pieces chain j b p n firstAvailable))[k]? =
        some chain[i] := by
    have hget := h k i hk hi hlen
    rw [List.getElem?_eq_getElem hlen] at hget
    exact get_of_finish hget (hchain.valid _ (List.getElem_mem hlen))
  have hclash := not_clash hchain hj haddress hpd hfirst hk₀ (Nat.le.intro (Nat.add_comm _ _ ▸ hi₀))
    hcollected
  have hbelow : b < p → p - b ≤ firstAvailable := fun hfew =>
    Nat.not_lt.1 fun hlt => hclash ⟨hfew, hlt⟩
  have hnodup := pieces_nodup (n := n) hchain hj haddress hb hfirst hbelow
  have hself : firstBy (fun info => info.address) [] (pieces chain j b p n firstAvailable) =
      pieces chain j b p n firstAvailable :=
    firstBy_eq_self hnodup fun _ _ => List.not_mem_nil
  have hpieces (k i : ℕ) (hk : k < n) (hi : i + d = j + k) (hlen : i < chain.length) :
      (pieces chain j b p n firstAvailable)[k]? = chain[i]? := by
    rw [← hself, hcollected k i hk hi hlen, List.getElem?_eq_getElem hlen]
  have hdecoded (k i : ℕ) (hk : k < n) (hi : i + d = j + k) (hlen : i < chain.length) :
      p - b ≤ k := by
    by_contra hplaceholder
    obtain ⟨info, hinfo, hinvalid⟩ :=
      @pieces_placeholder chain j b p n firstAvailable k (Nat.not_le.1 hplaceholder)
    rw [hpieces k i hk hi hlen, List.getElem?_eq_getElem hlen] at hinfo
    cases hinfo
    rw [hchain.valid _ (List.getElem_mem hlen)] at hinvalid
    cases hinvalid
  have hbefore (k i : ℕ) (hk : k < p) (hi : i + d = j + k) (hlen : i < chain.length) :
      b + k - p = i := by
    have hkn := Nat.lt_of_lt_of_le hk hpn
    have hget := hpieces k i hkn hi hlen
    rw [pieces_before (Nat.le_trans hb (Nat.le_of_lt hlt)) (hdecoded k i hkn hi hlen) hk] at hget
    exact (index_unique hchain hget.symm hlen).symm
  refine ⟨place_eq hb hlt hp hd hk₀ hi₀ hlen₀ hdecoded hbefore, ?_⟩
  rcases Nat.lt_or_ge b p with hfew | hmany
  · have hfits := hbelow hfew
    rw [hfirst hfew] at hfits
    split at hfits
    · rename_i hzero
      have hplace := place_eq hb hlt hp hd hk₀ hi₀ hlen₀ hdecoded hbefore
      have hj₀ : j = 0 := by omega
      subst hj₀
      rw [← haddress, hchain.head_address hj] at hfits
      exact hfits
    · exact hfits
  · exact Nat.le_trans (Nat.le_of_eq (Nat.sub_eq_zero_of_le hmany)) (Nat.zero_le _)

end

/-- `disassemble` of a positive count. -/
theorem disassemble_eq {memoryAddress : ℕ} {o n : Int} (hn : 0 < n) :
    disassemble D symbolStart memoryAddress o n =
      (collect D symbolStart memoryAddress o n).map (finish memoryAddress n.toNat) := by
  rw [disassemble, if_neg (by omega), if_neg (by omega)]
  rfl

section

variable {memoryAddress start j : ℕ} {chain : List Info} {info : Info}
  (hstart : symbolStart memoryAddress = some start) (hchain : ForwardChain D start chain)
  (hj : chain[j]? = some info) (haddress : info.address = memoryAddress)
include hchain hj haddress

theorem window_forward {o n : Int} (ho : 0 ≤ o) (hsum : o + n < 2 ^ 31) :
    Window D symbolStart memoryAddress o n chain j := by
  intro k i hk hi hlen
  have hrange : disassembleRange D memoryAddress (o + n).toNat =
      (chain.drop j).take (o + n).toNat := by
    rw [← haddress]
    exact (hchain.drop hj).range_eq _
  have hcollect : collect D symbolStart memoryAddress o n =
      .ok (((chain.drop j).take (o + n).toNat).drop o.toNat) := by
    rw [collect, if_neg (by omega), if_neg (by omega), hrange]
  refine ⟨_, by rw [disassemble_eq (by omega), hcollect]; rfl, ?_⟩
  have hsub : (((chain.drop j).take (o + n).toNat).drop o.toNat).Sublist chain :=
    (List.drop_sublist _ _).trans ((List.take_sublist _ _).trans (List.drop_sublist _ _))
  have hget : (((chain.drop j).take (o + n).toNat).drop o.toNat)[k]? = some chain[i] := by
    rw [List.getElem?_drop, List.getElem?_take_of_lt (by omega), List.getElem?_drop,
      ← List.getElem?_eq_getElem hlen]
    congr 1
    omega
  rw [List.getElem?_eq_getElem hlen]
  refine finish_get ?_ (addresses_nodup hchain hsub) hget
  rw [List.length_drop]
  have := List.length_take_le (o + n).toNat (chain.drop j)
  omega

include hstart

/-- The window with a negative offset, in natural numbers. -/
theorem window_backward {d n : ℕ} (hd : 0 < d) (hn : 0 < n) (hint : (d : Int) < 2 ^ 31)
    (hsum : (n : Int) - d < 2 ^ 31) :
    ∃ firstAvailable,
      (min j (requestedFromSymbol start memoryAddress n) < min d n → firstAvailable =
        if min j (requestedFromSymbol start memoryAddress n) = 0 then memoryAddress else start) ∧
      (Window D symbolStart memoryAddress (-d) n chain j ↔
        ∀ k i : ℕ, k < n → i + d = j + k → i < chain.length →
          (finish memoryAddress n (pieces chain j
            (min j (requestedFromSymbol start memoryAddress n)) (min d n) n firstAvailable))[k]? =
            chain[i]?) := by
  obtain ⟨firstAvailable, hfirst, hwindow⟩ := backwardWindow_eq hstart hchain hj haddress
    (by omega : ((min d n : ℕ) : Int) < 2 ^ 31) rfl
  have hmin : (min (-(-(d : Int))) n).toNat = min d n := by omega
  have hcollect : collect D symbolStart memoryAddress (-d) n =
      .ok (pieces chain j (min j (requestedFromSymbol start memoryAddress n)) (min d n) n
        firstAvailable) := by
    rw [collect, if_pos (by omega), if_neg (by omega), Int.toNat_natCast, hmin, hwindow,
      subtract_eq (by omega) (by omega)]
    rfl
  have hresult : disassemble D symbolStart memoryAddress (-d) n =
      .ok (finish memoryAddress n (pieces chain j
        (min j (requestedFromSymbol start memoryAddress n)) (min d n) n firstAvailable)) := by
    rw [disassemble_eq (by omega), hcollect]
    rfl
  refine ⟨firstAvailable, hfirst, fun h k i hk hi hlen => ?_, fun h k i hk hi hlen => ?_⟩
  · obtain ⟨instructions, hok, hget⟩ := h k i (by omega) (by omega) hlen
    rw [hresult] at hok
    cases hok
    exact hget
  · exact ⟨_, hresult, h k i (by omega) (by omega) hlen⟩

/-- **When the window is the requested part of the chain**: exactly when the request touches no
instruction of the chain, or it fits. -/
theorem disassemble_window_iff (instructionOffset instructionCount : Int) :
    Window D symbolStart memoryAddress instructionOffset instructionCount chain j ↔
      (Touches instructionOffset instructionCount chain j →
        Fits start memoryAddress j instructionOffset instructionCount) := by
  generalize ho : instructionOffset = o
  generalize hn : instructionCount = n
  by_cases htouch : Touches o n chain j
  swap
  · refine iff_of_true (fun k i hk hi hlen => ?_) fun h => absurd h htouch
    exact absurd ⟨k, i, hk, hi, hlen⟩ htouch
  rw [forall_prop_of_true htouch]
  obtain ⟨k₀, i₀, hk₀, hi₀, hlen₀⟩ := htouch
  rw [Fits]
  split
  · rename_i hpos
    refine ⟨fun h => ?_, window_forward hchain hj haddress hpos⟩
    obtain ⟨instructions, hok, -⟩ := h k₀ i₀ hk₀ hi₀ hlen₀
    by_contra hover
    rw [disassemble_eq (by omega), collect, if_neg (by omega), if_pos (by omega)] at hok
    cases hok
  · rename_i hneg
    obtain ⟨d, rfl⟩ : ∃ d : ℕ, o = -d := ⟨o.natAbs, by omega⟩
    obtain ⟨n, rfl⟩ : ∃ m : ℕ, n = m := ⟨n.toNat, by omega⟩
    simp only [Int.toNat_natCast]
    by_cases hint : (d : Int) < 2 ^ 31 ∧ (n : Int) - d < 2 ^ 31
    · obtain ⟨firstAvailable, hfirst, hwindow⟩ := window_backward hstart hchain hj haddress
        (d := d) (n := n) (by omega) (by omega) hint.1 hint.2
      rw [hwindow]
      constructor
      · intro h
        obtain ⟨hplace, hfits⟩ := place_of_finish hchain hj haddress (Nat.min_le_left _ _) rfl
          (by omega) hfirst (by omega) (by omega : i₀ + d = j + k₀) hlen₀ h
        refine ⟨by omega, by omega, by omega, ?_⟩
        split <;> omega
      · rintro ⟨-, -, hfits, hplace⟩ k i hk hi hlen
        refine finish_pieces hchain hj haddress (Nat.min_le_left _ _) rfl hfirst ?_ ?_ hk hi hlen
        · split at hplace <;> omega
        · split at hplace <;> omega
    · refine iff_of_false (fun h => ?_) fun h => by omega
      obtain ⟨instructions, hok, -⟩ := h k₀ i₀ hk₀ hi₀ hlen₀
      rw [disassemble_eq (by omega), collect, if_pos (by omega)] at hok
      split at hok
      · cases hok
      · obtain ⟨firstAvailable, -, hwindow⟩ := backwardWindow_eq hstart hchain hj haddress
          (p := d) (n := n) (by omega) rfl
        rw [show (min (-(-(d : Int))) (n : Int)).toNat = d by omega, Int.toNat_natCast, hwindow,
          subtract_error (by omega)] at hok
        cases hok

end

/-- Instructions of one byte up to an address. -/
def oneByte (limit : ℕ) (hlimit : limit < 2 ^ 64) : Decoder where
  decode a := if a < limit then some ({ address := a, instruction := "nop" }, a + 1) else none
  address_eq := by
    intro a info next h
    split at h <;> cases h
    rfl
  valid := by
    intro a info next h
    split at h <;> cases h
    rfl
  forward := by
    intro a info next h
    split at h <;> cases h
    exact Nat.lt_succ_self a
  fits := by
    intro a info next h
    split at h <;> cases h
    omega

/-- The instructions from `a` on. -/
def nops (a count : ℕ) : List Info :=
  (List.range' a count).map fun address => { address, instruction := "nop" }

theorem oneByte_chain {limit : ℕ} (hlimit : limit < 2 ^ 64) (count : ℕ) {a : ℕ}
    (h : a + count = limit) : ForwardChain (oneByte limit hlimit) a (nops a count) := by
  induction count generalizing a with
  | zero => exact .stop (if_neg (by omega))
  | succ count ih => exact .next (if_pos (by omega)) (ih (by omega))

/-- A window of three instructions from one before the address. -/
theorem window_around :
    Window (oneByte 15 (by decide)) (fun _ => some 10) 12 (-1) 3 (nops 10 5) 2 := by
  have hchain := @oneByte_chain 15 (by decide) 5 10 rfl
  have hat : (nops 10 5)[2]? = some { address := 12, instruction := "nop" } := rfl
  have hfits : Fits 10 12 2 (-1) 3 := by
    rw [Fits, if_neg (by decide)]
    exact ⟨by decide, by decide, by decide, by decide +kernel⟩
  exact (@disassemble_window_iff _ (fun _ => some 10) 12 10 2 _ _ rfl hchain hat rfl (-1) 3).2
    fun _ => hfits

/-- A window that ends before the address, and one whose placeholders take addresses of decoded
instructions. -/
theorem windows_wrong :
    ¬ Window (oneByte 15 (by decide)) (fun _ => some 10) 12 (-2) 1 (nops 10 5) 2 ∧
      ¬ Window (oneByte 5 (by decide)) (fun _ => some 0) 1 (-3) 5 (nops 0 5) 1 := by
  have addresses {D : Decoder} {symbolStart : ℕ → Option ℕ} {memoryAddress : ℕ} {o n : Int}
      {instructions : List Info} (shown : List ℕ)
      (hshown : (disassemble D symbolStart memoryAddress o n).map (List.map fun info =>
        info.address) = .ok shown)
      (hok : disassemble D symbolStart memoryAddress o n = .ok instructions) (k : ℕ) :
      instructions[k]?.map (fun info => info.address) = shown[k]? := by
    rw [hok] at hshown
    rw [← Except.ok.inj hshown, List.getElem?_map]
  constructor
  · intro h
    obtain ⟨instructions, hok, hget⟩ := h 0 0 (by decide) (by decide) (by decide)
    have hshown := addresses [11] (by decide +kernel) hok 0
    rw [hget] at hshown
    cases hshown
  · intro h
    obtain ⟨instructions, hok, hget⟩ := h 2 0 (by decide) (by decide) (by decide)
    have hshown := addresses [0, 1, 2, 3, 4] (by decide +kernel) hok 2
    rw [hget] at hshown
    cases hshown

end Disassembly

end DapDbgeng
