/-
  Memory references: the texts that stand for addresses.

  * `tryParseMemoryReference_eq_some`: what the parser accepts, and with which value;
  * `asDocumented_iff`: it accepts the documented form and nothing else, except for a repeated
    prefix and for backticks outside the digits;
  * `groupedAddress_parsed_iff`: the form with a backtick and without a prefix;
  * `issued_parsed`: every text the adapter issues is read back.
-/
import DapDbgeng.BreakpointRequests
import DapDbgeng.Memory
import DapDbgeng.Numerals
import Mathlib.Data.List.Induction
import Mathlib.Tactic.Ring

namespace DapDbgeng

namespace Text

/-! ## What is accepted -/

/-- A text without its backticks. -/
def withoutTicks (cs : List Char) : List Char := cs.filter (· ≠ '\x60')

/-- The base of a reference and the text after its prefix. -/
inductive Form : List Char → ℕ → List Char → Prop
  | hex {x : Char} {body : List Char} (hx : x = 'x' ∨ x = 'X') : Form ('0' :: x :: body) 16 body
  | decimal {cs : List Char} (h : ∀ x body, cs = '0' :: x :: body → ¬(x = 'x' ∨ x = 'X')) :
      Form cs 10 cs

theorem Form.unique {cs body body' : List Char} {base base' : ℕ} (h : Form cs base body)
    (h' : Form cs base' body') : base = base' ∧ body = body' := by
  cases h with
  | hex hx =>
    cases h' with
    | hex => exact ⟨rfl, rfl⟩
    | decimal hn => exact absurd hx (hn _ _ rfl)
  | decimal hn =>
    cases h' with
    | hex hx => exact absurd hx (hn _ _ rfl)
    | decimal => exact ⟨rfl, rfl⟩

theorem Form.base_le {cs body : List Char} {base : ℕ} (h : Form cs base body) : base ≤ 16 := by
  cases h <;> omega

theorem exists_form (cs : List Char) : ∃ base body, Form cs base body := by
  by_cases h : ∃ x body, cs = '0' :: x :: body ∧ (x = 'x' ∨ x = 'X')
  · obtain ⟨x, body, rfl, hx⟩ := h
    exact ⟨16, body, .hex hx⟩
  · exact ⟨10, cs, .decimal fun x body hcs hx => h ⟨x, body, hcs, hx⟩⟩

/-- The parser past the prefix. -/
def parseDigits (base : ℕ) (value : List Char) : Option ℕ :=
  match value with
  | [] => none
  | c :: _ =>
    if isDigitIn 16 c then
      match scanUnsigned 64 base value with
      | some (parsed, consumed) => if consumed = value.length then some parsed else none
      | none => none
    else none

/-- The parser's look at the prefix. -/
def splitReference (cs : List Char) : ℕ × List Char :=
  match cs with
  | '0' :: x :: rest => if x = 'x' ∨ x = 'X' then (16, rest) else (10, cs)
  | _ => (10, cs)

theorem Form.split {cs body : List Char} {base : ℕ} (h : Form cs base body) :
    splitReference cs = (base, body) := by
  cases h with
  | hex hx => exact if_pos hx
  | decimal hn =>
    unfold splitReference
    split
    · rename_i x rest
      exact if_neg (hn x rest rfl)
    · rfl

theorem tryParseMemoryReference_form {s : String} {base : ℕ} {body : List Char}
    (h : Form s.toList base body) :
    tryParseMemoryReference s = parseDigits base (withoutTicks body) := by
  have hparse : tryParseMemoryReference s = parseDigits (splitReference s.toList).1
      (withoutTicks (splitReference s.toList).2) := rfl
  rw [hparse, h.split]

theorem parseDigits_eq_some {base a : ℕ} (hb : base ≤ 16) {value : List Char} :
    parseDigits base value = some a ↔ a < 2 ^ 64 ∧
      (Numeral base value a ∨ ∃ ds, SecondPrefix base value ds ∧ Numeral base ds a) := by
  cases value with
  | nil =>
    constructor
    · rintro ⟨⟩
    · rintro ⟨-, hn | ⟨ds, ⟨-, x, -, hnil⟩, -⟩⟩
      · exact absurd rfl hn.nonempty
      · cases hnil
  | cons c rest =>
    by_cases hc : isDigitIn 16 c = true
    · rw [← scanUnsigned_iff ⟨c, rest, rfl, hc⟩]
      simp only [parseDigits, if_pos hc]
      cases scanUnsigned 64 base (c :: rest) with
      | none => simp
      | some r =>
        rcases r with ⟨parsed, consumed⟩
        simp [and_comm]
    · constructor
      · simp [parseDigits, hc]
      · rintro ⟨-, hn | ⟨ds, ⟨-, x, -, hcons⟩, -⟩⟩
        · exact absurd (isDigitIn_mono hb (hn.digits c List.mem_cons_self)) hc
        · cases hcons
          exact absurd rfl hc

/-- **What the parser accepts**, and the address it gives. -/
theorem tryParseMemoryReference_eq_some {s : String} {base a : ℕ} {body : List Char}
    (h : Form s.toList base body) :
    tryParseMemoryReference s = some a ↔ a < 2 ^ 64 ∧ (Numeral base (withoutTicks body) a ∨
      ∃ ds, SecondPrefix base (withoutTicks body) ds ∧ Numeral base ds a) := by
  rw [tryParseMemoryReference_form h, parseDigits_eq_some h.base_le]

/-! ## The documented form -/

/-- A numeral that may have backticks between its digits. -/
structure Grouped (base : ℕ) (cs : List Char) (n : ℕ) : Prop where
  numeral : Numeral base (withoutTicks cs) n
  between : ∀ pre post, cs = pre ++ '\x60' :: post →
    withoutTicks pre ≠ [] ∧ withoutTicks post ≠ []

/-- The address a reference in the documented form stands for. -/
def Denotes (s : String) (a : ℕ) : Prop :=
  a < 2 ^ 64 ∧ ∃ base body, Form s.toList base body ∧ Grouped base body a

/-- The parser takes `s` for what it denotes, and refuses it if it denotes nothing. -/
def AsDocumented (s : String) : Prop := ∀ a, tryParseMemoryReference s = some a ↔ Denotes s a

/-- The other texts the parser takes: a prefix after the prefix, and a backtick before the first
or after the last digit. -/
inductive Stray (s : String) : Prop
  | prefixTwice {base a : ℕ} {body ds : List Char} (hf : Form s.toList base body)
      (hp : SecondPrefix base (withoutTicks body) ds) (hn : Numeral base ds a) (ha : a < 2 ^ 64)
  | tickOutside {base a : ℕ} {body pre post : List Char} (hf : Form s.toList base body)
      (hn : Numeral base (withoutTicks body) a) (ha : a < 2 ^ 64)
      (hb : body = pre ++ '\x60' :: post) (ht : withoutTicks pre = [] ∨ withoutTicks post = [])

theorem Stray.not_asDocumented {s : String} (h : Stray s) : ¬AsDocumented s := by
  intro hdoc
  cases h with
  | @prefixTwice base a body ds hf hp hn ha =>
    have haccepted := (tryParseMemoryReference_eq_some hf).2 ⟨ha, .inr ⟨ds, hp, hn⟩⟩
    obtain ⟨-, base', body', hf', hg⟩ := (hdoc a).1 haccepted
    obtain ⟨rfl, rfl⟩ := hf.unique hf'
    exact hp.not_numeral hg.numeral
  | @tickOutside base a body pre post hf hn ha hb ht =>
    have haccepted := (tryParseMemoryReference_eq_some hf).2 ⟨ha, .inl hn⟩
    obtain ⟨-, base', body', hf', hg⟩ := (hdoc a).1 haccepted
    obtain ⟨rfl, rfl⟩ := hf.unique hf'
    rcases ht with ht | ht
    · exact (hg.between pre post hb).1 ht
    · exact (hg.between pre post hb).2 ht

theorem asDocumented_of_not_stray {s : String} (h : ¬Stray s) : AsDocumented s := by
  obtain ⟨base, body, hf⟩ := exists_form s.toList
  intro a
  rw [tryParseMemoryReference_eq_some hf]
  constructor
  · rintro ⟨ha, hn | ⟨ds, hp, hn⟩⟩
    · refine ⟨ha, base, body, hf, hn, ?_⟩
      intro pre post hb
      by_contra ht
      refine h (.tickOutside hf hn ha hb ?_)
      tauto
    · exact absurd (.prefixTwice hf hp hn ha) h
  · rintro ⟨ha, base', body', hf', hg⟩
    obtain ⟨rfl, rfl⟩ := hf.unique hf'
    exact ⟨ha, .inl hg.numeral⟩

/-- **The accepted texts are the documented ones**, except for the stray forms. -/
theorem asDocumented_iff (s : String) : AsDocumented s ↔ ¬Stray s := by
  constructor
  · intro hdoc hstray
    exact hstray.not_asDocumented hdoc
  · exact asDocumented_of_not_stray

/-- A second prefix is skipped. -/
theorem prefix_twice_accepted : ¬∀ s, AsDocumented s := by
  intro hall
  have haccepted : tryParseMemoryReference "0x0x12" = some 0x12 := by decide
  obtain ⟨-, base, body, hf, hg⟩ := (hall "0x0x12" 0x12).1 haccepted
  have hfixed : Form "0x0x12".toList 16 "0x12".toList := .hex (.inl rfl)
  obtain ⟨rfl, rfl⟩ := hf.unique hfixed
  have hdigit := hg.numeral.digits 'x' (by decide)
  simp [isDigitIn, digitValue] at hdigit

/-! ## Groups without a prefix -/

/-- How the debugger prints an address: two groups of eight digits. -/
def groupedAddress (a : ℕ) : String :=
  digits 16 8 (a / 2 ^ 32) ++ "\x60" ++ digits 16 8 (a % 2 ^ 32)

theorem length_digits {width n : ℕ} (hw : 0 < width) (h : n < 16 ^ width) :
    (digits 16 width n).toList.length = width := by
  have hlen := (Nat.length_toDigits_le_iff (show 1 < 16 by omega) hw).2 h
  simp [digits]
  omega

theorem foldl_digits (base : ℕ) (cs : List Char) (n : ℕ) :
    cs.foldl (fun n c => n * base + (digitValue c).getD 0) n =
      n * base ^ cs.length + ofDigits base cs := by
  induction cs using List.reverseRecOn with
  | nil => simp [ofDigits]
  | append_singleton cs c ih =>
    rw [List.foldl_append, ih, ofDigits_append]
    simp only [List.foldl_cons, List.foldl_nil, List.length_append, List.length_singleton]
    ring

theorem numeral_append {base m n : ℕ} {cs ds : List Char} (hc : Numeral base cs m)
    (hd : Numeral base ds n) : Numeral base (cs ++ ds) (m * base ^ ds.length + n) where
  nonempty := by simp [hc.nonempty]
  digits := by
    intro c h
    rcases List.mem_append.1 h with h | h
    · exact hc.digits c h
    · exact hd.digits c h
  value := by
    have happend : ofDigits base (cs ++ ds) =
        ds.foldl (fun n c => n * base + (digitValue c).getD 0) (ofDigits base cs) := by
      simp [ofDigits]
    rw [happend, foldl_digits, hc.value, hd.value]

theorem withoutTicks_append (cs ds : List Char) :
    withoutTicks (cs ++ ds) = withoutTicks cs ++ withoutTicks ds := List.filter_append ..

theorem withoutTicks_of_digits {base : ℕ} {cs : List Char}
    (h : ∀ c ∈ cs, isDigitIn base c = true) : withoutTicks cs = cs := by
  rw [withoutTicks, List.filter_eq_self]
  intro c hc
  simpa using ne_of_digit (h c hc) (by simp)

/-- The digits of a grouped address are a numeral in base 16. -/
theorem numeral_groupedAddress (a : ℕ) :
    Numeral 16 (withoutTicks (groupedAddress a).toList) a := by
  have hhigh := numeral_digits 8 (a / 2 ^ 32)
  have hlow := numeral_digits 8 (a % 2 ^ 32)
  have hlength : (digits 16 8 (a % 2 ^ 32)).toList.length = 8 := length_digits (by omega) (by omega)
  have hsplit : withoutTicks (groupedAddress a).toList =
      (digits 16 8 (a / 2 ^ 32)).toList ++ (digits 16 8 (a % 2 ^ 32)).toList := by
    have htick : withoutTicks "\x60".toList = [] := rfl
    rw [groupedAddress, String.toList_append, String.toList_append, withoutTicks_append,
      withoutTicks_append, withoutTicks_of_digits hhigh.digits, withoutTicks_of_digits hlow.digits,
      htick, List.append_nil]
  have hnum := numeral_append hhigh hlow
  rw [hsplit]
  rw [hlength] at hnum
  convert hnum using 1
  omega

/-- A grouped address has no prefix. -/
theorem form_groupedAddress (a : ℕ) :
    Form (groupedAddress a).toList 10 (groupedAddress a).toList := by
  refine .decimal fun x body hcs hx => ?_
  have hmem : x ∈ withoutTicks (groupedAddress a).toList := by
    rw [hcs]
    rcases hx with rfl | rfl <;> simp [withoutTicks]
  have hdigit := (numeral_groupedAddress a).digits x hmem
  rcases hx with rfl | rfl <;> simp [isDigitIn, digitValue] at hdigit

theorem ofDigits_le {cs : List Char} {base base' : ℕ} (h : base ≤ base') :
    ofDigits base cs ≤ ofDigits base' cs := by
  induction cs using List.reverseRecOn with
  | nil => simp [ofDigits]
  | append_singleton cs c ih =>
    rw [ofDigits_append, ofDigits_append]
    exact Nat.add_le_add_right (Nat.mul_le_mul ih h) _

/-- A numeral in both bases is a digit. -/
theorem Numeral.lt_ten {cs : List Char} {n : ℕ} (h : Numeral 10 cs n) (h' : Numeral 16 cs n) :
    n < 10 := by
  obtain ⟨init, c, rfl⟩ : ∃ init c, cs = init ++ [c] := by
    rcases List.eq_nil_or_concat cs with hnil | ⟨init, c, hcs⟩
    · exact absurd hnil h.nonempty
    · exact ⟨init, c, by rw [hcs, List.concat_eq_append]⟩
  obtain ⟨v, hv, hlt⟩ := isDigitIn_iff.1 (h.digits c (by simp))
  have hten := h.value
  have hsixteen := h'.value
  rw [ofDigits_append, hv] at hten hsixteen
  have hle : ofDigits 10 init ≤ ofDigits 16 init := ofDigits_le (by omega)
  simp only [Option.getD_some] at hten hsixteen
  omega

/-- **Groups without a prefix** are read in base 10: only the addresses below ten are read back. -/
theorem groupedAddress_parsed_iff {a : ℕ} (h : a < 2 ^ 64) :
    tryParseMemoryReference (groupedAddress a) = some a ↔ a < 10 := by
  constructor
  · intro hp
    have hread := (tryParseMemoryReference_eq_some (form_groupedAddress _)).1 hp
    obtain ⟨-, hn | ⟨ds, ⟨hb, -⟩, -⟩⟩ := hread
    · exact hn.lt_ten (numeral_groupedAddress _)
    · cases hb
  · intro ha
    interval_cases a <;> decide +kernel

theorem groupedAddress_parsed_five :
    tryParseMemoryReference (groupedAddress 5) = some 5 ↔ 5 < 10 :=
  groupedAddress_parsed_iff (by norm_num)

/-- A grouped address of decimal digits is taken for another address. -/
theorem groupedAddress_misread : ¬∀ a < 2 ^ 64,
    tryParseMemoryReference (groupedAddress a) = some a := by
  intro hall
  have hread := hall 0x10 (by norm_num)
  have hten : tryParseMemoryReference (groupedAddress 0x10) = some 10 := by decide +kernel
  rw [hten] at hread
  cases hread

end Text

namespace Server

open Text

/-! ## The texts the adapter issues -/

theorem prefixed_parsed {a : ℕ} {cs : List Char} (ha : a < 2 ^ 64) (hn : Numeral 16 cs a) :
    tryParseMemoryReference ("0x" ++ String.ofList cs) = some a := by
  have hf : Form ("0x" ++ String.ofList cs).toList 16 cs := by
    have hchars : ("0x" ++ String.ofList cs).toList = '0' :: 'x' :: cs := by simp
    rw [hchars]
    exact .hex (.inl rfl)
  refine (tryParseMemoryReference_eq_some hf).2 ⟨ha, .inl ?_⟩
  rwa [withoutTicks_of_digits hn.digits]

theorem hex_parsed {a : ℕ} (ha : a < 2 ^ 64) :
    tryParseMemoryReference ("0x" ++ hex a) = some a := by
  have h := prefixed_parsed ha (numeral_hex a)
  rwa [String.ofList_toList] at h

theorem formatAddress_parsed {a : ℕ} (ha : a < 2 ^ 64) :
    tryParseMemoryReference (Factory.formatAddress a) = some a := by
  have h := prefixed_parsed ha (numeral_hexUpper a)
  rwa [String.ofList_toList] at h

/-- The texts the adapter issues for an address. -/
inductive IssuedFor (a : ℕ) : String → Prop
  | frame (threadId : Int) (f : StackFrameInfo) (h : f.instructionOffset = a) :
      IssuedFor a (Factory.createStackFrame threadId f).instructionPointerReference
  | instruction (i : DisassembledInstructionInfo) (h : i.address = a) :
      IssuedFor a (Factory.createDisassembledInstruction i).address
  | variable_ (context : FrameContext) (parent : String) (node : VariableNode) (d : Tables)
      (text : String) (h : node.address = a)
      (ht : (buildVariableTree context parent node d).1.memoryReference = some text) :
      IssuedFor a text
  | breakpoint (result : SourceBreakpointResult) (text : String)
      (ht : (createInstructionBreakpoint result a).instructionReference = some text) :
      IssuedFor a text
  | memory : IssuedFor a ("0x" ++ hex a)

theorem IssuedFor.text {a : ℕ} {text : String} (h : IssuedFor a text) :
    text = Factory.formatAddress a ∨ text = "0x" ++ hex a := by
  cases h with
  | frame threadId f h => exact .inl (h ▸ rfl)
  | instruction i h => exact .inl (h ▸ rfl)
  | breakpoint result text ht =>
    refine .inr ?_
    cases ht
    rfl
  | variable_ context parent node d text h ht =>
    refine .inr ?_
    rcases node with ⟨name, value, type, isExpandable, address, size, children⟩
    simp only at h
    subst h
    have hreference : (buildVariableTree context parent
        ⟨name, value, type, isExpandable, address, size, children⟩ d).1.memoryReference =
          if address = 0 then none else some ("0x" ++ hex address) := by
      rw [buildVariableTree]
      split_ifs <;> rfl
    rw [hreference] at ht
    split at ht
    · cases ht
    · cases ht
      rfl
  | memory => exact .inr rfl

/-- The text of a dataId. -/
def dataId (a size : ℕ) : String := s!"0x{hex a}:{size}"

theorem toList_dataId (a size : ℕ) :
    (dataId a size).toList = ("0x" ++ hex a).toList ++ ':' :: (toString size).toList := by
  have hid : dataId a size = "0x" ++ hex a ++ ":" ++ toString size := rfl
  simp [hid]

theorem tryParseDataId_split {a size : ℕ} {reference sizeText : List Char} {s : String}
    (hs : s.toList = reference ++ ':' :: sizeText) (hcolon : ':' ∉ reference)
    (ha : tryParseMemoryReference (String.ofList reference) = some a)
    (hn : scanUnsigned 32 10 sizeText = some (size, sizeText.length))
    (hsize : size = 1 ∨ size = 2 ∨ size = 4 ∨ size = 8) : tryParseDataId s = some (a, size) := by
  have htake : s.toList.takeWhile (· ≠ ':') = reference := by
    rw [hs, List.takeWhile_append_of_pos]
    · simp
    · intro c hc
      have hne : c ≠ ':' := fun h => hcolon (h ▸ hc)
      simpa using hne
  have hdrop : s.toList.drop reference.length = ':' :: sizeText := by
    rw [hs, List.drop_left]
  unfold tryParseDataId
  simp only [htake, hdrop, ha]
  simp [hn, hsize]

theorem dataId_parsed {a size : ℕ} (ha : a < 2 ^ 64)
    (hs : size = 1 ∨ size = 2 ∨ size = 4 ∨ size = 8) :
    tryParseDataId (dataId a size) = some (a, size) := by
  have hcolon : ':' ∉ ("0x" ++ hex a).toList := by
    intro hmem
    rw [String.toList_append] at hmem
    rcases List.mem_append.1 hmem with hmem | hmem
    · revert hmem
      decide
    · exact ne_of_digit ((numeral_hex a).digits ':' hmem) (.inr (.inr (.inr rfl))) rfl
  have haddress : tryParseMemoryReference (String.ofList ("0x" ++ hex a).toList) = some a := by
    rw [String.ofList_toList]
    exact hex_parsed ha
  have hnum : scanUnsigned 32 10 (toString size).toList =
      some (size, (toString size).toList.length) := by
    obtain ⟨c, rest, hcs, hc⟩ := (numeral_decimal size).head
    refine (scanUnsigned_iff ⟨c, rest, hcs, isDigitIn_mono (by omega) hc⟩).2
      ⟨?_, .inl (numeral_decimal size)⟩
    rcases hs with rfl | rfl | rfl | rfl <;> norm_num
  exact tryParseDataId_split (toList_dataId a size) hcolon haddress hnum hs

/-- **Every text the adapter issues is read back** as the address, and every dataId as the address
and the size. -/
theorem issued_parsed {a : ℕ} (ha : a < 2 ^ 64) :
    (∀ text, IssuedFor a text → tryParseMemoryReference text = some a) ∧
      ∀ (size : ℕ) (expression dataId description : String)
        (accessTypes : List DataBreakpointAccessType) (canPersist : Bool),
        size = 1 ∨ size = 2 ∨ size = 4 ∨ size = 8 →
          dataBreakpointInfoBody expression (a, size) =
            .dataBreakpointInfo dataId description accessTypes canPersist →
              tryParseDataId dataId = some (a, size) := by
  constructor
  · intro text h
    rcases h.text with rfl | rfl
    · exact formatAddress_parsed ha
    · exact hex_parsed ha
  · intro size expression id description accessTypes canPersist hs hbody
    have hid : id = dataId a size := by
      have hsize : watchSize size = size := by
        rcases hs with rfl | rfl | rfl | rfl <;> rfl
      simp only [dataBreakpointInfoBody, hsize, Body.dataBreakpointInfo.injEq] at hbody
      exact hbody.1.symm
    rw [hid]
    exact dataId_parsed ha hs

/-- The last address. -/
theorem issued_parsed_last : 2 ^ 64 - 1 < 2 ^ 64 ∧
    tryParseMemoryReference (Factory.formatAddress (2 ^ 64 - 1)) = some (2 ^ 64 - 1) :=
  ⟨by norm_num, (issued_parsed (by norm_num)).1 _
    (.instruction { address := 2 ^ 64 - 1 } rfl)⟩

end Server

end DapDbgeng
