/-
  Numerals, as the adapter prints and reads them.

  * `Numeral base cs n`: `cs` is one or more digits of the base with the value `n`;
  * `scan_iff`: what the scanners of the C library make of a text that begins with a digit;
  * `numeral_hex`, `numeral_hexUpper`: the printed forms are numerals.
-/
import DapDbgeng.Text
import Mathlib.Data.List.TakeWhile
import Mathlib.Tactic.IntervalCases

namespace DapDbgeng

namespace Text

/-! ## Digits -/

theorem digitValue_digitChar {n : ℕ} (h : n < 16) : digitValue n.digitChar = some n := by
  interval_cases n <;> rfl

theorem digitValue_toUpper {n : ℕ} (h : n < 16) : digitValue n.digitChar.toUpper = some n := by
  interval_cases n <;> rfl

theorem isDigitIn_iff {base : ℕ} {c : Char} :
    isDigitIn base c = true ↔ ∃ v, digitValue c = some v ∧ v < base := by
  simp [isDigitIn, Option.any_eq_true]

theorem isDigitIn_mono {base base' : ℕ} {c : Char} (hb : base ≤ base')
    (h : isDigitIn base c = true) : isDigitIn base' c = true := by
  obtain ⟨v, hv, hlt⟩ := isDigitIn_iff.1 h
  exact isDigitIn_iff.2 ⟨v, hv, hlt.trans_le hb⟩

/-- Anything that is a digit in some base is no white space, no sign and no separator. -/
theorem digitValue_other {c : Char}
    (h : isSpace c = true ∨ c = '-' ∨ c = '+' ∨ c = '\x60' ∨ c = ':') : digitValue c = none := by
  have blank : isSpace c = true ↔
      ((((c = ' ' ∨ c = '\t') ∨ c = '\r') ∨ c = '\n') ∨ c = '\x0b') ∨ c = '\x0c' := by
    simp [isSpace, isBlankChar]
  rw [blank] at h
  rcases h with (((((rfl | rfl) | rfl) | rfl) | rfl) | rfl) | rfl | rfl | rfl | rfl <;> rfl

theorem isSpace_of_digit {base : ℕ} {c : Char} (h : isDigitIn base c = true) :
    isSpace c = false := by
  rw [Bool.eq_false_iff]
  intro hs
  obtain ⟨v, hv, -⟩ := isDigitIn_iff.1 h
  rw [digitValue_other (.inl hs)] at hv
  cases hv

theorem ne_of_digit {base : ℕ} {c d : Char} (h : isDigitIn base c = true)
    (hd : d = '-' ∨ d = '+' ∨ d = '\x60' ∨ d = ':') : c ≠ d := by
  rintro rfl
  obtain ⟨v, hv, -⟩ := isDigitIn_iff.1 h
  rw [digitValue_other (.inr hd)] at hv
  cases hv

theorem ofDigits_append (base : ℕ) (cs : List Char) (c : Char) :
    ofDigits base (cs ++ [c]) = ofDigits base cs * base + (digitValue c).getD 0 := by
  simp [ofDigits]

/-! ## Numerals -/

/-- One or more digits of a base, with their value. -/
structure Numeral (base : ℕ) (cs : List Char) (n : ℕ) : Prop where
  nonempty : cs ≠ []
  digits : ∀ c ∈ cs, isDigitIn base c = true
  value : ofDigits base cs = n

namespace Numeral

variable {base n : ℕ} {cs : List Char}

theorem single {c : Char} (h : digitValue c = some n) (hn : n < base) : Numeral base [c] n where
  nonempty := by simp
  digits := by
    intro d hd
    rw [List.mem_singleton.1 hd]
    exact isDigitIn_iff.2 ⟨n, h, hn⟩
  value := by simp [ofDigits, h]

theorem snoc {c : Char} {v : ℕ} (h : Numeral base cs n) (hc : digitValue c = some v)
    (hv : v < base) : Numeral base (cs ++ [c]) (n * base + v) where
  nonempty := by simp
  digits := by
    intro d hd
    rcases List.mem_append.1 hd with hd | hd
    · exact h.digits d hd
    · rw [List.mem_singleton.1 hd]
      exact isDigitIn_iff.2 ⟨v, hc, hv⟩
  value := by rw [ofDigits_append, h.value, hc]; rfl

/-- Zeros in front change nothing. -/
theorem zeros (h : Numeral base cs n) (hb : 0 < base) (k : ℕ) :
    Numeral base (List.replicate k '0' ++ cs) n where
  nonempty := by simp [h.nonempty]
  digits := by
    intro d hd
    rcases List.mem_append.1 hd with hd | hd
    · rw [List.eq_of_mem_replicate hd]
      exact isDigitIn_iff.2 ⟨0, rfl, hb⟩
    · exact h.digits d hd
  value := by
    have hzeros : (List.replicate k '0').foldl
        (fun n c => n * base + (digitValue c).getD 0) 0 = 0 := by
      induction k with
      | zero => rfl
      | succ k ih => simpa [List.replicate_succ, digitValue] using ih
    rw [← h.value, ofDigits, List.foldl_append, hzeros]
    rfl

theorem head (h : Numeral base cs n) : ∃ c rest, cs = c :: rest ∧ isDigitIn base c = true := by
  obtain ⟨c, rest, rfl⟩ := List.exists_cons_of_ne_nil h.nonempty
  exact ⟨c, rest, rfl, h.digits c List.mem_cons_self⟩

end Numeral

/-! ## Printing -/

/-- `toDigits`, and any rendering of its digits. -/
theorem numeral_toDigits {base : ℕ} (hb : 1 < base) {f : Char → Char}
    (hf : ∀ v < base, digitValue (f v.digitChar) = some v) (n : ℕ) :
    Numeral base ((Nat.toDigits base n).map f) n := by
  induction n using Nat.strongRecOn with
  | _ n ih =>
    rw [Nat.toDigits_eq_if hb]
    split
    · rename_i hn
      simpa using Numeral.single (hf n hn) hn
    · rename_i hn
      have hmod := Nat.mod_lt n (Nat.zero_lt_of_lt hb)
      have prev := ih (n / base) (Nat.div_lt_self (by omega) hb)
      have hsnoc := prev.snoc (hf _ hmod) hmod
      rw [Nat.div_add_mod'] at hsnoc
      simpa using hsnoc

theorem toList_hex (n : ℕ) : (hex n).toList = Nat.toDigits 16 n := by
  simp [hex, digits]

theorem toList_hexUpper (n : ℕ) : (hexUpper n).toList = (Nat.toDigits 16 n).map Char.toUpper := by
  simp [hexUpper, toUpperInvariant, toList_hex]

theorem numeral_hex (n : ℕ) : Numeral 16 (hex n).toList n := by
  have h := numeral_toDigits (f := id) (by omega) (fun v hv => digitValue_digitChar hv) n
  rw [toList_hex]
  simpa using h

theorem numeral_hexUpper (n : ℕ) : Numeral 16 (hexUpper n).toList n := by
  rw [toList_hexUpper]
  exact numeral_toDigits (by omega) (fun v hv => digitValue_toUpper hv) n

theorem numeral_decimal (n : ℕ) : Numeral 10 (toString n).toList n := by
  have h := numeral_toDigits (f := id) (show 1 < 10 by omega)
    (fun v hv => digitValue_digitChar (hv.trans (by omega))) n
  rw [Nat.toString_eq_ofList_toDigits, String.toList_ofList]
  simpa using h

theorem numeral_digits (width n : ℕ) : Numeral 16 (digits 16 width n).toList n := by
  have h := (numeral_hex n).zeros (by omega) (width - (Nat.toDigits 16 n).length)
  simpa [digits, toList_hex] using h

/-! ## Scanning -/

/-- A second prefix the scanner skips: `0x` in front of hex digits. -/
def SecondPrefix (base : ℕ) (cs ds : List Char) : Prop :=
  base = 16 ∧ ∃ x, (x = 'x' ∨ x = 'X') ∧ cs = '0' :: x :: ds

theorem hexPrefix_le (base : ℕ) (cs : List Char) :
    hexPrefix base cs = 0 ∨ hexPrefix base cs = 2 ∧ ∃ ds, SecondPrefix base cs ds ∧
      ∃ d rest, ds = d :: rest ∧ isDigitIn 16 d = true := by
  unfold hexPrefix
  split
  · rename_i x d rest
    split
    · rename_i h
      obtain ⟨hb, hx, hd⟩ := h
      exact .inr ⟨rfl, d :: rest, ⟨hb, x, hx, rfl⟩, d, rest, rfl, hd⟩
    · exact .inl rfl
  · exact .inl rfl

theorem SecondPrefix.not_numeral {base n : ℕ} {cs ds : List Char} (h : SecondPrefix base cs ds) :
    ¬Numeral base cs n := by
  obtain ⟨rfl, x, hx, rfl⟩ := h
  intro hn
  have hd := hn.digits x (by simp)
  rcases hx with rfl | rfl <;> simp [isDigitIn, digitValue] at hd

theorem hexPrefix_of_secondPrefix {base n : ℕ} {cs ds : List Char} (h : SecondPrefix base cs ds)
    (hn : Numeral base ds n) : hexPrefix base cs = 2 := by
  obtain ⟨rfl, x, hx, rfl⟩ := h
  obtain ⟨d, rest, rfl, hd⟩ := hn.head
  simp [hexPrefix, hx, hd]

/-- The scan of a text that begins with a digit. -/
theorem scan_digit {base : ℕ} {c : Char} {rest : List Char} (h : isDigitIn 16 c = true) :
    scan base (c :: rest) =
      let ds := ((c :: rest).drop (hexPrefix base (c :: rest))).takeWhile (isDigitIn base)
      if ds.isEmpty then none
      else some ⟨false, ofDigits base ds, hexPrefix base (c :: rest) + ds.length⟩ := by
  have hspace : (c :: rest).dropWhile isSpace = c :: rest := by
    rw [List.dropWhile_cons, isSpace_of_digit h]
    rfl
  have hminus : c ≠ '-' := ne_of_digit h (by simp)
  have hplus : c ≠ '+' := ne_of_digit h (by simp)
  simp [scan, hspace, hminus, hplus]

/-- **The scanners take a whole text** that begins with a digit if and only if it is a numeral, or
in base 16 a second prefix and a numeral. -/
theorem scan_iff {base n : ℕ} {cs : List Char}
    (h : ∃ c rest, cs = c :: rest ∧ isDigitIn 16 c = true) :
    (∃ negative, scan base cs = some ⟨negative, n, cs.length⟩) ↔
      Numeral base cs n ∨ ∃ ds, SecondPrefix base cs ds ∧ Numeral base ds n := by
  obtain ⟨c, rest, hcs, hc⟩ := h
  have all (ds : List Char) (hd : (ds.takeWhile (isDigitIn base)).length = ds.length) :
      ds.takeWhile (isDigitIn base) = ds :=
    (List.takeWhile_prefix _).eq_of_length hd
  have ofAll {ds : List Char} (hne : ds ≠ []) (hd : ds.takeWhile (isDigitIn base) = ds) :
      Numeral base ds (ofDigits base ds) := ⟨hne, List.takeWhile_eq_self_iff.1 hd, rfl⟩
  have toAll {ds : List Char} (hn : Numeral base ds n) : ds.takeWhile (isDigitIn base) = ds :=
    List.takeWhile_eq_self_iff.2 hn.digits
  constructor
  · rintro ⟨negative, hs⟩
    rw [hcs, scan_digit hc, ← hcs] at hs
    simp only at hs
    split at hs
    · cases hs
    · rename_i hne
      simp only [Option.some.injEq, Scanned.mk.injEq] at hs
      obtain ⟨-, hval, hlen⟩ := hs
      rcases hexPrefix_le base cs with hp | ⟨hp, ds, hds, -⟩
      · rw [hp, List.drop_zero] at hne hval hlen
        have hself := all cs (by omega)
        rw [hself] at hne hval
        exact .inl (hval ▸ ofAll (by simpa using hne) hself)
      · have hdrop : cs.drop 2 = ds := by
          obtain ⟨-, x, -, rfl⟩ := hds
          rfl
        rw [hp, hdrop] at hne hval hlen
        have hself := all ds (by
          obtain ⟨-, x, -, rfl⟩ := hds
          simp only [List.length_cons] at hlen
          omega)
        rw [hself] at hne hval
        exact .inr ⟨ds, hds, hval ▸ ofAll (by simpa using hne) hself⟩
  · intro hn
    refine ⟨false, ?_⟩
    rw [hcs, scan_digit hc, ← hcs]
    rcases hn with hn | ⟨ds, hds, hn⟩
    · have hp : hexPrefix base cs = 0 := by
        rcases hexPrefix_le base cs with hp | ⟨-, ds, hds, -⟩
        · exact hp
        · exact absurd hn hds.not_numeral
      simp [hp, toAll hn, hn.nonempty, hn.value]
    · rw [hexPrefix_of_secondPrefix hds hn]
      obtain ⟨-, x, -, rfl⟩ := hds
      simp [toAll hn, hn.nonempty, hn.value]
      omega

/-- The scan of a text that begins with a digit has no sign. -/
theorem scan_negative {base : ℕ} {cs : List Char} {r : Scanned}
    (h : ∃ c rest, cs = c :: rest ∧ isDigitIn 16 c = true) (hr : scan base cs = some r) :
    r.negative = false := by
  obtain ⟨c, rest, rfl, hc⟩ := h
  rw [scan_digit hc] at hr
  simp only at hr
  split at hr
  · cases hr
  · cases hr
    rfl

/-- The whole text is read as an unsigned number of `w` bits. -/
theorem scanUnsigned_iff {w base n : ℕ} {cs : List Char}
    (h : ∃ c rest, cs = c :: rest ∧ isDigitIn 16 c = true) :
    scanUnsigned w base cs = some (n, cs.length) ↔ n < 2 ^ w ∧
      (Numeral base cs n ∨ ∃ ds, SecondPrefix base cs ds ∧ Numeral base ds n) := by
  rw [← scan_iff h]
  constructor
  · intro hs
    obtain ⟨r, hr, hs⟩ := Option.bind_eq_some_iff.1 hs
    have hneg := scan_negative h hr
    simp only [hneg, Bool.false_eq_true, if_false, Option.ite_none_right_eq_some,
      Option.some.injEq, Prod.mk.injEq] at hs
    obtain ⟨hlt, hval, hlen⟩ := hs
    refine ⟨hval ▸ hlt, r.negative, ?_⟩
    rw [hr, ← hval, ← hlen]
  · rintro ⟨hlt, negative, hr⟩
    have hneg := scan_negative h hr
    simp only at hneg
    subst hneg
    simp [scanUnsigned, hr, hlt]

end Text

end DapDbgeng
