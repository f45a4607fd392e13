/-
  The base64 payloads of readMemory and writeMemory.

  The decoder accumulates six bits a character and takes off eight whenever it can.  What it has
  taken off and what it holds are together the bits of the characters read (`ReadSoFar`), so what it
  accepts can be said of the text alone.

  * `Payload`: a text without line breaks that is whole;
  * `base64_roundTrip`: what is encoded is decoded, with line breaks put in and without its padding;
  * `tryBase64Decode_iff`: what is accepted, what it decodes to, and what is then written.
-/
import DapDbgeng.BitStrings
import DapDbgeng.Permits
import Mathlib.Data.List.Induction

namespace DapDbgeng

open BitStrings Concurrent Concurrent.Prog

namespace Text

/-! ## Texts -/

def isLineBreak (c : Char) : Bool := c = '\r' ∨ c = '\n'

/-- The text without its line breaks. -/
def unbroken (text : String) : List Char := text.toList.filter fun c => !isLineBreak c

/-- Alphabet characters and the padding after them. -/
def padded (data : List Char) (p : Nat) : List Char := data ++ List.replicate p '='

/-- `n` characters are padded with `p`: whole quanta are not, the last one may be. -/
def PaddingFits (n p : Nat) : Prop :=
  n % 4 = 0 ∧ p = 0 ∨ n % 4 = 2 ∧ (p = 0 ∨ p = 2) ∨ n % 4 = 3 ∧ (p = 0 ∨ p = 1)

/-- The texts a payload may have. -/
def Payload (cs data : List Char) : Prop :=
  (∀ c ∈ data, c ∈ base64Alphabet) ∧ ∃ p, cs = padded data p ∧ PaddingFits data.length p

/-- The bits of alphabet characters, six for each. -/
def sextetBits (data : List Char) : List Bool :=
  data.flatMap fun c => bits 6 (base64Alphabet.idxOf c)

/-- The bytes the bits of alphabet characters make up; bits left over stand for nothing. -/
def sextetBytes (data : List Char) : List Nat := words 8 (sextetBits data)

@[simp] theorem sextetBits_snoc (data : List Char) (c : Char) :
    sextetBits (data ++ [c]) = sextetBits data ++ bits 6 (base64Alphabet.idxOf c) := by
  simp [sextetBits]

@[simp] theorem length_sextetBits (data : List Char) :
    (sextetBits data).length = 6 * data.length := by
  induction data with
  | nil => rfl
  | cons c data ih =>
    rw [sextetBits, List.flatMap_cons, List.length_append, length_bits]
    rw [sextetBits] at ih
    rw [ih, List.length_cons]
    omega

/-! ## The alphabet -/

def charsFrom (c : Char) (n : Nat) : List Char :=
  (List.range n).map fun i => Char.ofNat (c.toNat + i)

theorem base64Alphabet_eq : base64Alphabet =
    charsFrom 'A' 26 ++ charsFrom 'a' 26 ++ charsFrom '0' 10 ++ ['+', '/'] := by
  rfl

theorem toNat_ofNat_ascii {k : Nat} (h : k < 128) : (Char.ofNat k).toNat = k := by
  rw [Char.ofNat, dif_pos (.inl (by omega))]
  rfl

theorem charsFrom_nodup {c : Char} {n : Nat} (h : c.toNat + n ≤ 128) : (charsFrom c n).Nodup := by
  refine List.nodup_range.map_on fun i hi j hj heq => ?_
  have hnat := congrArg Char.toNat heq
  rw [List.mem_range] at hi hj
  rw [toNat_ofNat_ascii (by omega), toNat_ofNat_ascii (by omega)] at hnat
  omega

theorem mem_charsFrom {c x : Char} {n : Nat} (h : c.toNat + n ≤ 128) :
    x ∈ charsFrom c n ↔ c.toNat ≤ x.toNat ∧ x.toNat < c.toNat + n := by
  simp only [charsFrom, List.mem_map, List.mem_range]
  constructor
  · rintro ⟨i, hi, rfl⟩
    rw [toNat_ofNat_ascii (by omega)]
    omega
  · rintro ⟨hlow, hhigh⟩
    refine ⟨x.toNat - c.toNat, by omega, ?_⟩
    rw [Nat.add_sub_cancel' hlow, Char.ofNat_toNat]

theorem idxOf_charsFrom {c x : Char} {n : Nat} (h : c.toNat + n ≤ 128) (hx : x ∈ charsFrom c n) :
    (charsFrom c n).idxOf x = x.toNat - c.toNat := by
  obtain ⟨hlow, hhigh⟩ := (mem_charsFrom h).1 hx
  have hlength : (charsFrom c n).length = n := by simp [charsFrom]
  have hin : x.toNat - c.toNat < (charsFrom c n).length := by omega
  have hget : (charsFrom c n)[x.toNat - c.toNat] = x := by
    simp only [charsFrom, List.getElem_map, List.getElem_range, Nat.add_sub_cancel' hlow,
      Char.ofNat_toNat]
  rw [← (charsFrom_nodup h).idxOf_getElem (x.toNat - c.toNat) hin, hget]

/-- A range of characters in the decoder is a run of the alphabet. -/
theorem between_iff {a z c : Char} {n : Nat} (h : a.toNat + n ≤ 128)
    (hz : z.toNat + 1 = a.toNat + n) :
    a ≤ c ∧ c ≤ z ↔ c ∈ charsFrom a n := by
  have hle (c d : Char) : c ≤ d ↔ c.toNat ≤ d.toNat := UInt32.le_iff_toNat_le
  rw [mem_charsFrom h, hle, hle]
  omega

theorem base64Value_eq (c : Char) : base64Value c =
    if c ∈ base64Alphabet then some (base64Alphabet.idxOf c) else none := by
  rw [base64Value, base64Alphabet_eq]
  simp only [@between_iff 'A' 'Z' c 26 (by decide) (by decide),
    @between_iff 'a' 'z' c 26 (by decide) (by decide),
    @between_iff '0' '9' c 10 (by decide) (by decide), List.mem_append, List.idxOf_append,
    List.mem_cons, List.not_mem_nil, or_false]
  by_cases h₁ : c ∈ charsFrom 'A' 26
  · simp only [h₁, true_or, if_true, idxOf_charsFrom (by decide) h₁]
  by_cases h₂ : c ∈ charsFrom 'a' 26
  · simp only [h₁, h₂, false_or, true_or, if_true, if_false, idxOf_charsFrom (by decide) h₂]
    rfl
  by_cases h₃ : c ∈ charsFrom '0' 10
  · simp only [h₁, h₂, h₃, false_or, true_or, if_true, if_false, idxOf_charsFrom (by decide) h₃]
    rfl
  by_cases h₄ : c = '+'
  · subst h₄
    rfl
  by_cases h₅ : c = '/'
  · subst h₅
    rfl
  simp only [h₁, h₂, h₃, h₄, h₅, or_self, if_false]

theorem pad_notMem_alphabet : '=' ∉ base64Alphabet := by
  rw [base64Alphabet_eq]
  decide +kernel

theorem idxOf_lt_of_mem {c : Char} (h : c ∈ base64Alphabet) : base64Alphabet.idxOf c < 64 :=
  List.idxOf_lt_length_of_mem h

theorem base64Char_mem (n : Nat) : base64Char n ∈ base64Alphabet := by
  have hall : ∀ v < 64, base64Alphabet.getD v 'A' ∈ base64Alphabet := by
    rw [base64Alphabet_eq]
    decide +kernel
  exact hall _ (Nat.mod_lt _ (by omega))

theorem bits_base64Char (n : Nat) : bits 6 (base64Alphabet.idxOf (base64Char n)) = bits 6 n := by
  have hall : ∀ v < 64, base64Alphabet.idxOf (base64Alphabet.getD v 'A') = v := by
    rw [base64Alphabet_eq]
    decide +kernel
  rw [base64Char, hall _ (Nat.mod_lt _ (by omega))]
  exact bits_mod 6 6 n le_rfl

/-! ## The decoder -/

theorem base64Step_lineBreak {c : Char} (h : isLineBreak c = true) (st : Base64State) :
    base64Step st c = some st := if_pos (of_decide_eq_true h)

theorem foldlM_unbroken (cs : List Char) (st : Base64State) :
    cs.foldlM base64Step st = (cs.filter fun c => !isLineBreak c).foldlM base64Step st := by
  induction cs generalizing st with
  | nil => rfl
  | cons c cs ih =>
    by_cases h : isLineBreak c = true
    · have hdrop : (!isLineBreak c) = false := by rw [h]; rfl
      rw [List.filter_cons_of_neg (by rw [hdrop]; exact Bool.false_ne_true), List.foldlM_cons,
        base64Step_lineBreak h, ← ih]
      rfl
    · rw [List.filter_cons_of_pos (by simpa using h), List.foldlM_cons, List.foldlM_cons]
      exact bind_congr ih

/-- What the loop variables hold after the characters `data` and `p` characters of padding: the
bytes taken off and the bits still held are the bits read. -/
structure ReadSoFar (data : List Char) (p : Nat) (st : Base64State) : Prop where
  alphabet : ∀ c ∈ data, c ∈ base64Alphabet
  group : st.group = data.length % 4
  pad : st.pad = p
  closes : p ≠ 0 → 2 ≤ st.group ∧ st.group + p ≤ 4
  held : st.bits < 8
  bytes : ∀ b ∈ st.bytes, b < 2 ^ 8
  read : st.bytes.flatMap (bits 8) ++ bits st.bits st.accumulator = sextetBits data

theorem ReadSoFar.start : ReadSoFar [] 0 {} where
  alphabet := by simp
  group := rfl
  pad := rfl
  closes h := (h rfl).elim
  held := by decide
  bytes := by simp
  read := rfl

theorem base64Step_data {c : Char} (hc : c ∈ base64Alphabet) {st : Base64State}
    (hp : st.pad = 0) : base64Step st c = some
      (let accumulator := (st.accumulator * 64 + base64Alphabet.idxOf c) % 2 ^ 32
       let bits := st.bits + 6
       let group := if st.group + 1 = 4 then 0 else st.group + 1
       if 8 ≤ bits then
         { st with accumulator, group, bits := bits - 8
                   bytes := st.bytes ++ [accumulator / 2 ^ (bits - 8) % 256] }
       else { st with accumulator, group, bits }) := by
  have hbreak : ¬(c = '\r' ∨ c = '\n') := by
    rw [base64Alphabet_eq] at hc
    rintro (rfl | rfl) <;> revert hc <;> decide +kernel
  have heq : c ≠ '=' := fun h => pad_notMem_alphabet (h ▸ hc)
  rw [base64Step, if_neg hbreak, if_neg heq, if_neg (not_not_intro hp), base64Value_eq, if_pos hc]
  dsimp only
  split <;> rfl

/-- The bits held and the bits of one more character. -/
theorem bits_accumulate {held accumulator value : Nat} (hheld : held < 8) (hv : value < 64) :
    bits (held + 6) ((accumulator * 64 + value) % 2 ^ 32) =
      bits held accumulator ++ bits 6 value := by
  rw [bits_mod _ _ _ (by omega)]
  exact bits_append held 6 accumulator hv

theorem ReadSoFar.data {data : List Char} {st st' : Base64State} {c : Char}
    (h : ReadSoFar data 0 st) (hc : c ∈ base64Alphabet) (hstep : base64Step st c = some st') :
    ReadSoFar (data ++ [c]) 0 st' := by
  have hall : ∀ d ∈ data ++ [c], d ∈ base64Alphabet := by
    intro d hd
    rcases List.mem_append.1 hd with hd | hd
    · exact h.alphabet d hd
    · rwa [List.mem_singleton.1 hd]
  have hgroup : (if st.group + 1 = 4 then 0 else st.group + 1) = (data ++ [c]).length % 4 := by
    rw [h.group, List.length_append, List.length_singleton]
    split <;> omega
  have hread : bits (st.bits + 6) ((st.accumulator * 64 + base64Alphabet.idxOf c) % 2 ^ 32) =
      bits st.bits st.accumulator ++ bits 6 (base64Alphabet.idxOf c) :=
    bits_accumulate h.held (idxOf_lt_of_mem hc)
  rw [base64Step_data hc h.pad] at hstep
  cases hstep
  dsimp only
  split
  · rename_i hbits
    refine ⟨hall, hgroup, h.pad, fun hne => (hne rfl).elim, ?_, ?_, ?_⟩
    · have := h.held
      dsimp only
      omega
    · intro b hb
      rcases List.mem_append.1 hb with hb | hb
      · exact h.bytes b hb
      · rw [List.mem_singleton.1 hb]
        exact Nat.mod_lt _ (by omega)
    · -- the byte taken off has the eight bits in front of those still held
      have htaken := bits_add 8 (st.bits + 6 - 8)
        ((st.accumulator * 64 + base64Alphabet.idxOf c) % 2 ^ 32)
      rw [Nat.add_sub_cancel' hbits, hread] at htaken
      rw [sextetBits_snoc, ← h.read, List.append_assoc, htaken, List.flatMap_append,
        List.append_assoc]
      have hbyte (n : Nat) : bits 8 (n % 256) = bits 8 n := bits_mod 8 8 n le_rfl
      dsimp only
      rw [List.flatMap_singleton, hbyte]
  · rename_i hbits
    refine ⟨hall, hgroup, h.pad, fun hne => (hne rfl).elim, by dsimp only; omega, h.bytes, ?_⟩
    rw [sextetBits_snoc, ← h.read, List.append_assoc, ← hread]

theorem base64Step_pad {data : List Char} {p : Nat} {st st' : Base64State}
    (h : ReadSoFar data p st) : base64Step st '=' = some st' ↔
      2 ≤ st.group ∧ st.group + p < 4 ∧ st' = { st with pad := p + 1 } := by
  have hbreak : ¬('=' = '\r' ∨ '=' = '\n') := by decide
  rw [base64Step, if_neg hbreak, if_pos rfl, h.pad]
  split
  · rename_i hfull
    constructor
    · rintro ⟨⟩
    · rintro ⟨h₁, h₂, -⟩
      omega
  · rename_i hfull
    obtain ⟨hopen, hroom⟩ := not_or.1 hfull
    rw [Option.some.injEq]
    constructor
    · rintro rfl
      exact ⟨by omega, by omega, rfl⟩
    · rintro ⟨-, -, rfl⟩
      rfl

theorem ReadSoFar.padding {data : List Char} {p : Nat} {st st' : Base64State}
    (h : ReadSoFar data p st) (hstep : base64Step st '=' = some st') :
    ReadSoFar data (p + 1) st' := by
  obtain ⟨hopen, hroom, rfl⟩ := (base64Step_pad h).1 hstep
  exact { h with pad := rfl, closes := fun _ => ⟨hopen, by dsimp only; omega⟩ }

/-- One character that is no line break: data before the padding, or padding. -/
theorem ReadSoFar.step {data : List Char} {p : Nat} {st st' : Base64State} {c : Char}
    (h : ReadSoFar data p st) (hc : isLineBreak c = false) (hstep : base64Step st c = some st') :
    c = '=' ∧ ReadSoFar data (p + 1) st' ∨
      p = 0 ∧ c ∈ base64Alphabet ∧ ReadSoFar (data ++ [c]) 0 st' := by
  by_cases heq : c = '='
  · subst heq
    exact .inl ⟨rfl, h.padding hstep⟩
  · have hbreak : ¬(c = '\r' ∨ c = '\n') := of_decide_eq_false hc
    have hstep' := hstep
    rw [base64Step, if_neg hbreak, if_neg heq, h.pad, base64Value_eq] at hstep'
    by_cases hp : p = 0
    · subst hp
      by_cases hmem : c ∈ base64Alphabet
      · exact .inr ⟨rfl, hmem, h.data hmem hstep⟩
      · rw [if_neg (by simp), if_neg hmem] at hstep'
        cases hstep'
    · rw [if_pos hp] at hstep'
      cases hstep'

/-- **Runs.**  Where the loop goes on, it has read alphabet characters and then padding. -/
theorem readSoFar_of_foldlM {cs : List Char} (hcs : ∀ c ∈ cs, isLineBreak c = false)
    {st : Base64State} (h : cs.foldlM base64Step {} = some st) :
    ∃ data p, cs = padded data p ∧ ReadSoFar data p st := by
  induction cs using List.reverseRecOn generalizing st with
  | nil =>
    cases h
    exact ⟨[], 0, rfl, .start⟩
  | append_singleton cs c ih =>
    rw [List.foldlM_append] at h
    obtain ⟨st₁, hrun, hlast⟩ := Option.bind_eq_some_iff.1 h
    have hstep : base64Step st₁ c = some st := by
      simpa using hlast
    obtain ⟨data, p, rfl, hread⟩ := ih (fun d hd => hcs d (List.mem_append_left _ hd)) hrun
    rcases hread.step (hcs c (by simp)) hstep with ⟨rfl, h'⟩ | ⟨rfl, -, h'⟩
    · refine ⟨data, p + 1, ?_, h'⟩
      rw [padded, padded, List.replicate_succ', List.append_assoc]
    · exact ⟨data ++ [c], 0, by simp [padded], h'⟩

theorem foldlM_data {data : List Char} (h : ∀ c ∈ data, c ∈ base64Alphabet) :
    ∃ st, data.foldlM base64Step {} = some st ∧ ReadSoFar data 0 st := by
  induction data using List.reverseRecOn with
  | nil => exact ⟨{}, rfl, .start⟩
  | append_singleton data c ih =>
    obtain ⟨st, hrun, hread⟩ := ih fun d hd => h d (List.mem_append_left _ hd)
    have hc : c ∈ base64Alphabet := h c (by simp)
    obtain ⟨st', hstep⟩ : ∃ st', base64Step st c = some st' := ⟨_, base64Step_data hc hread.pad⟩
    refine ⟨st', ?_, hread.data hc hstep⟩
    rw [List.foldlM_append, hrun]
    simpa using hstep

/-- What has the form of a payload, up to padding still to come, is read to its end. -/
theorem foldlM_padded {data : List Char} (h : ∀ c ∈ data, c ∈ base64Alphabet) {p : Nat}
    (hp : p ≠ 0 → 2 ≤ data.length % 4 ∧ data.length % 4 + p ≤ 4) :
    ∃ st, (padded data p).foldlM base64Step {} = some st ∧ ReadSoFar data p st := by
  induction p with
  | zero =>
    obtain ⟨st, hrun, hread⟩ := foldlM_data h
    exact ⟨st, by rwa [padded, List.replicate_zero, List.append_nil], hread⟩
  | succ p ih =>
    obtain ⟨hopen, hroom⟩ := hp (by omega)
    obtain ⟨st, hrun, hread⟩ := ih fun _ => ⟨hopen, by omega⟩
    have hstep : base64Step st '=' = some { st with pad := p + 1 } :=
      (base64Step_pad hread).2 ⟨by rwa [hread.group], by rw [hread.group]; omega, rfl⟩
    refine ⟨_, ?_, hread.padding hstep⟩
    rw [padded, List.replicate_succ', ← List.append_assoc, List.foldlM_append]
    rw [padded] at hrun
    rw [hrun]
    simpa using hstep

theorem unbroken_notBreak (text : String) : ∀ c ∈ unbroken text, isLineBreak c = false := by
  intro c hc
  simpa using (List.mem_filter.1 hc).2

/-- What the final check of the counters accepts. -/
theorem ReadSoFar.fits_iff {data : List Char} {p : Nat} {st : Base64State}
    (h : ReadSoFar data p st) : PaddingFits data.length p ↔
      if st.pad ≠ 0 then st.group + st.pad = 4 else st.group ≠ 1 := by
  have hgroup := h.group
  have hcloses := h.closes
  rw [h.pad]
  unfold PaddingFits
  split
  · rename_i hp
    have := hcloses hp
    omega
  · omega

theorem ReadSoFar.bytes_eq {data : List Char} {p : Nat} {st : Base64State}
    (h : ReadSoFar data p st) : st.bytes = sextetBytes data := by
  rw [sextetBytes, ← h.read]
  exact (words_flatMap_bits h.bytes (by rw [length_bits]; exact h.held)).symm

/-- **Payloads.**  A text is accepted exactly when it is a payload, for the bytes its bits make
up. -/
theorem tryBase64Decode_some (text : String) (bytes : List Nat) :
    tryBase64Decode text = some bytes ↔
      ∃ data, Payload (unbroken text) data ∧ bytes = sextetBytes data := by
  have hrun : text.toList.foldlM base64Step {} = (unbroken text).foldlM base64Step {} :=
    foldlM_unbroken _ _
  have hend {data : List Char} {p : Nat} {st : Base64State} (h : ReadSoFar data p st)
      (hst : (unbroken text).foldlM base64Step {} = some st) :
      tryBase64Decode text = some bytes ↔
        PaddingFits data.length p ∧ bytes = sextetBytes data := by
    rw [tryBase64Decode, hrun, hst, h.fits_iff, ← h.bytes_eq]
    dsimp only
    split <;> split <;> simp_all [eq_comm]
  constructor
  · intro h
    cases hst : (unbroken text).foldlM base64Step {} with
    | none =>
      rw [tryBase64Decode, hrun, hst] at h
      cases h
    | some st =>
      obtain ⟨data, p, hcs, hread⟩ := readSoFar_of_foldlM (unbroken_notBreak text) hst
      obtain ⟨hfits, hbytes⟩ := (hend hread hst).1 h
      exact ⟨data, ⟨hread.alphabet, p, hcs, hfits⟩, hbytes⟩
  · rintro ⟨data, ⟨halphabet, p, hcs, hfits⟩, hbytes⟩
    have hcloses : p ≠ 0 → 2 ≤ data.length % 4 ∧ data.length % 4 + p ≤ 4 := by
      unfold PaddingFits at hfits
      omega
    obtain ⟨st, hst, hread⟩ := foldlM_padded halphabet hcloses
    rw [← hcs] at hst
    exact (hend hread hst).2 ⟨hfits, hbytes⟩

/-! ## The encoder -/

theorem sextetBits_base64Char (ns : List Nat) :
    sextetBits (ns.map base64Char) = ns.flatMap (bits 6) := by
  rw [sextetBits, List.flatMap_map]
  exact List.flatMap_congr fun n _ => bits_base64Char n

/-- What the encoder writes: characters whose bits are those of the bytes and then fewer than
eight zeros, and the padding of the last quantum. -/
def Encoded (bytes : List Nat) (cs : List Char) : Prop :=
  ∃ ns : List Nat, cs = padded (ns.map base64Char) ((3 - bytes.length % 3) % 3) ∧
    ns.length = (4 * bytes.length + 2) / 3 ∧ ∃ zeros : List Bool, zeros.length < 8 ∧
      ns.flatMap (bits 6) = bytes.flatMap (bits 8) ++ zeros

/-- The characters of `n` bytes, their padding apart. -/
theorem quanta_cases (n : Nat) : n % 3 = 0 ∧ (4 * n + 2) / 3 = 4 * (n / 3) ∨
    n % 3 = 1 ∧ (4 * n + 2) / 3 = 4 * (n / 3) + 2 ∨
      n % 3 = 2 ∧ (4 * n + 2) / 3 = 4 * (n / 3) + 3 := by
  omega

theorem bits_twelve (n : Nat) : bits 12 n = bits 6 (n / 64) ++ bits 6 n := bits_add 6 6 n

theorem bits_eighteen (n : Nat) :
    bits 18 n = bits 6 (n / 4096) ++ bits 6 (n / 64) ++ bits 6 n := by
  rw [List.append_assoc, ← bits_twelve]
  exact bits_add 6 12 n

theorem bits_twentyFour (n : Nat) :
    bits 24 n = bits 6 (n / 262144) ++ bits 6 (n / 4096) ++ bits 6 (n / 64) ++ bits 6 n := by
  rw [List.append_assoc, List.append_assoc, ← List.append_assoc, ← List.append_assoc,
    List.append_assoc (bits 6 (n / 262144)), List.append_assoc (bits 6 (n / 262144)),
    ← bits_eighteen]
  exact bits_add 6 18 n

/-- One byte takes two characters, with four bits to spare. -/
theorem sextets_one (a : Nat) :
    bits 6 (a * 65536 / 262144) ++ bits 6 (a * 65536 / 4096) = bits 8 a ++ bits 4 0 := by
  have hbits : bits (8 + 4) (a * 2 ^ 4 + 0) = bits 8 a ++ bits 4 0 := bits_append 8 4 a (by omega)
  rw [← hbits, bits_twelve]
  congr 2 <;> omega

/-- Two bytes take three characters, with two bits to spare. -/
theorem sextets_two (a : Nat) {b : Nat} (hb : b < 256) :
    bits 6 ((a * 65536 + b * 256) / 262144) ++ bits 6 ((a * 65536 + b * 256) / 4096) ++
      bits 6 ((a * 65536 + b * 256) / 64) = bits 8 a ++ bits 8 b ++ bits 2 0 := by
  have hlow : bits (8 + 2) (b * 2 ^ 2 + 0) = bits 8 b ++ bits 2 0 := bits_append 8 2 b (by omega)
  have hbits : bits (8 + 10) (a * 2 ^ 10 + b * 4) = bits 8 a ++ bits 10 (b * 4) :=
    bits_append 8 10 a (by omega)
  have hfirst : (a * 65536 + b * 256) / 262144 = (a * 2 ^ 10 + b * 4) / 4096 := by omega
  have hsecond : (a * 65536 + b * 256) / 4096 = (a * 2 ^ 10 + b * 4) / 64 := by omega
  have hthird : (a * 65536 + b * 256) / 64 = a * 2 ^ 10 + b * 4 := by omega
  rw [hfirst, hsecond, hthird, ← bits_eighteen, List.append_assoc]
  exact hbits.trans (congrArg (bits 8 a ++ ·) hlow)

/-- Three bytes take four characters. -/
theorem sextets_three (a : Nat) {b c : Nat} (hb : b < 256) (hc : c < 256) :
    bits 6 ((a * 65536 + b * 256 + c) / 262144) ++ bits 6 ((a * 65536 + b * 256 + c) / 4096) ++
        bits 6 ((a * 65536 + b * 256 + c) / 64) ++ bits 6 (a * 65536 + b * 256 + c) =
      bits 8 a ++ bits 8 b ++ bits 8 c := by
  have hlow : bits (8 + 8) (b * 2 ^ 8 + c) = bits 8 b ++ bits 8 c := bits_append 8 8 b hc
  have hbits : bits (8 + 16) (a * 2 ^ 16 + (b * 256 + c)) = bits 8 a ++ bits 16 (b * 256 + c) :=
    bits_append 8 16 a (by omega)
  rw [← bits_twentyFour, List.append_assoc, ← hlow, Nat.add_assoc]
  exact hbits

theorem encoded_base64EncodeList : ∀ bytes : List Nat, (∀ b ∈ bytes, b < 256) →
    Encoded bytes (base64EncodeList bytes)
  | [], _ => ⟨[], rfl, rfl, [], by simp, rfl⟩
  | [a], _ => by
    refine ⟨[a * 65536 / 262144, a * 65536 / 4096], rfl, by simp, bits 4 0, by simp, ?_⟩
    simpa using sextets_one a
  | [a, b], h => by
    refine ⟨[(a * 65536 + b * 256) / 262144, (a * 65536 + b * 256) / 4096,
      (a * 65536 + b * 256) / 64], rfl, by simp, bits 2 0, by simp, ?_⟩
    simpa using sextets_two a (h b (by simp))
  | a :: b :: c :: rest, h => by
    obtain ⟨ns, hcs, hlength, zeros, hzeros, hbits⟩ :=
      encoded_base64EncodeList rest fun d hd => h d (by simp [hd])
    have hthree := sextets_three a (h b (by simp)) (h c (by simp))
    refine ⟨(a * 65536 + b * 256 + c) / 262144 :: (a * 65536 + b * 256 + c) / 4096 ::
      (a * 65536 + b * 256 + c) / 64 :: (a * 65536 + b * 256 + c) :: ns, ?_, ?_, zeros, hzeros, ?_⟩
    · have hcount : (3 - (a :: b :: c :: rest).length % 3) % 3 = (3 - rest.length % 3) % 3 := by
        simp only [List.length_cons]
        omega
      rw [base64EncodeList, hcs, hcount]
      rfl
    · simp only [List.length_cons, hlength]
      omega
    · simp only [List.flatMap_cons, hbits, ← List.append_assoc, hthree]

/-- **Round trip.**  An encoded byte vector has four characters for every three bytes or part of
them, with padding only at its end, and it is decoded to the bytes again, also with line breaks
put in and also without its padding. -/
theorem base64_roundTrip (bytes : List UInt8) :
    ∃ data p, (base64Encode (bytes.map UInt8.toNat)).toList = padded data p ∧
      (∀ c ∈ data, c ∈ base64Alphabet) ∧
      (base64Encode (bytes.map UInt8.toNat)).length = 4 * ((bytes.length + 2) / 3) ∧
      ∀ text, unbroken text = padded data p ∨ unbroken text = data →
        tryBase64Decode text = some (bytes.map UInt8.toNat) := by
  have hbytes : ∀ b ∈ bytes.map UInt8.toNat, b < 2 ^ 8 := by
    intro b hb
    obtain ⟨x, -, rfl⟩ := List.mem_map.1 hb
    exact x.toNat_lt
  obtain ⟨ns, hcs, hlength, zeros, hzeros, hbits⟩ :=
    encoded_base64EncodeList (bytes.map UInt8.toNat) hbytes
  rw [List.length_map] at hcs hlength
  have halphabet : ∀ c ∈ ns.map base64Char, c ∈ base64Alphabet := by
    intro c hc
    obtain ⟨n, -, rfl⟩ := List.mem_map.1 hc
    exact base64Char_mem n
  have hdecoded : bytes.map UInt8.toNat = sextetBytes (ns.map base64Char) := by
    rw [sextetBytes, sextetBits_base64Char, hbits, words_flatMap_bits hbytes hzeros]
  have hfits {p : Nat} (hp : p = (3 - bytes.length % 3) % 3 ∨ p = 0) :
      PaddingFits (ns.map base64Char).length p := by
    rw [PaddingFits, List.length_map, hlength]
    rcases quanta_cases bytes.length with ⟨hr, hn⟩ | ⟨hr, hn⟩ | ⟨hr, hn⟩ <;> omega
  refine ⟨ns.map base64Char, (3 - bytes.length % 3) % 3, ?_, halphabet, ?_, ?_⟩
  · rw [base64Encode, String.toList_ofList, hcs]
  · rw [base64Encode, String.length_ofList, hcs, padded, List.length_append, List.length_map,
      List.length_replicate, hlength]
    rcases quanta_cases bytes.length with ⟨hr, hn⟩ | ⟨hr, hn⟩ | ⟨hr, hn⟩ <;> omega
  · rintro text (h | h)
    · exact (tryBase64Decode_some text _).2
        ⟨_, ⟨halphabet, _, h, hfits (.inl rfl)⟩, hdecoded⟩
    · refine (tryBase64Decode_some text _).2 ⟨_, ⟨halphabet, 0, ?_, hfits (.inr rfl)⟩, hdecoded⟩
      rw [h, padded, List.replicate_zero, List.append_nil]

/-- Two bytes, with a line break inside the quantum and one inside the padding. -/
theorem base64_broken : tryBase64Decode "TW\r\nE\n=" = some [77, 97] := by
  obtain ⟨data, p, hencoded, -, -, hdecode⟩ := base64_roundTrip [77, 97]
  exact hdecode _ (.inl (by rw [← hencoded]; decide +kernel))

end Text

/-! ## Writes to memory -/

/-- Memory is written only with the bytes of a payload. -/
def DapOp.writesPayload (text : String) : ∀ {β : Type}, DapOp β → Prop
  | _, .call _ (.writeVirtual _ bytes) =>
    ∃ data, Text.Payload (Text.unbroken text) data ∧ bytes = Text.sextetBytes data
  | _, _ => True

namespace Server

theorem writeMemory_writesPayload {text : String} {bytes : List Nat}
    (h : Text.tryBase64Decode text = some bytes) (id : SessionId) (address : Nat) :
    AllOps (DapOp.writesPayload text) (Session.writeMemory id address bytes) := by
  refine .bind (.bind (.perform trivial) fun s => .ite trivial trivial) fun _ =>
    .ite trivial (.bind (.perform ((Text.tryBase64Decode_some text bytes).1 h)) fun r => ?_)
  cases r <;> trivial

theorem handleWriteMemoryRequest_writesPayload (request : Request WriteMemoryArguments) :
    AllOps (DapOp.writesPayload request.arguments.data) (handleWriteMemoryRequest request) := by
  have failed (message : String) :
      AllOps (DapOp.writesPayload request.arguments.data) (fail request message) :=
    .perform trivial
  unfold handleWriteMemoryRequest
  dsimp only
  cases referenceAddress request.arguments.memoryReference with
  | none => exact failed _
  | some reference =>
    dsimp only
    cases hdecode : Text.tryBase64Decode request.arguments.data with
    | none => exact failed _
    | some bytes =>
      dsimp only
      cases Text.tryApplyByteOffset reference (request.arguments.offset.getD 0) with
      | none => exact failed _
      | some address =>
        refine .bind (.perform trivial) fun running => .ite (failed _) ?_
        refine .bind (.perform trivial) fun session => ?_
        cases session with
        | none => exact failed _
        | some _ =>
          refine .catching (.bind (.bind (.perform trivial) fun session => ?_) fun id => ?_)
            fun e => failed _
          · cases session <;> trivial
          · refine .bind (.ite ?_ (.bind (.perform trivial) fun _ => .bind (.perform trivial)
              fun _ => .bind (.attempt (writeMemory_writesPayload hdecode id address)) fun r =>
                .bind (.perform trivial) fun _ => ?_)) fun _ => .perform trivial
            · exact writeMemory_writesPayload hdecode id address
            · cases r <;> trivial

/-- **Payloads.**  A text is accepted exactly when, its line breaks apart, it is alphabet characters
and then the padding their number calls for or, where it may be left out, none; its bytes are the
whole ones its bits make up, and a writeMemory request writes no others. -/
theorem tryBase64Decode_iff :
    (∀ text bytes, Text.tryBase64Decode text = some bytes ↔
      ∃ data, Text.Payload (Text.unbroken text) data ∧ bytes = Text.sextetBytes data) ∧
    (∀ data, (Text.sextetBytes data).length = 6 * data.length / 8) ∧
    ∀ request : Request WriteMemoryArguments,
      AllOps (DapOp.writesPayload request.arguments.data) (handleWriteMemoryRequest request) := by
  refine ⟨Text.tryBase64Decode_some, fun data => ?_, handleWriteMemoryRequest_writesPayload⟩
  rw [Text.sextetBytes, length_words, Text.length_sextetBits]

end Server

end DapDbgeng
