/-
  Integer arguments.

  An argument that is to be a 32-bit integer may be a JSON number or a text with its digits.  The
  text is refused when the number does not fit; the number is wrapped.

  Main result: `tryGetInt32_iff`, the numbers for which both are read as they should be.
-/
import DapDbgeng.Json
import DapDbgeng.Numerals

namespace DapDbgeng

namespace Text

theorem hexPrefix_ten (cs : List Char) : hexPrefix 10 cs = 0 := by
  rcases hexPrefix_le 10 cs with h | ⟨-, ds, ⟨hb, -⟩, -⟩
  · exact h
  · cases hb

/-- A minus sign and a numeral. -/
theorem scan_minus {cs : List Char} {n : ℕ} (h : Numeral 10 cs n) :
    scan 10 ('-' :: cs) = some ⟨true, n, cs.length + 1⟩ := by
  have htake : cs.takeWhile (isDigitIn 10) = cs := List.takeWhile_eq_self_iff.2 h.digits
  have hspace : ('-' :: cs).dropWhile isSpace = '-' :: cs := rfl
  simp [scan, hspace, hexPrefix_ten, htake, h.nonempty, h.value]
  omega

/-- The decimal text of a number is scanned as the number. -/
theorem scan_toString (v : Int) :
    scan 10 (toString v).toList = some ⟨v < 0, v.natAbs, (toString v).length⟩ := by
  cases v with
  | ofNat n =>
    have hn := numeral_decimal n
    obtain ⟨c, rest, hcs, hc⟩ := hn.head
    have hhead : ∃ c rest, (toString n).toList = c :: rest ∧ isDigitIn 16 c = true :=
      ⟨c, rest, hcs, isDigitIn_mono (by decide) hc⟩
    obtain ⟨negative, hscan⟩ := (scan_iff hhead).2 (.inl hn)
    obtain rfl : negative = false := scan_negative hhead hscan
    exact hscan
  | negSucc n =>
    have htext : (toString (Int.negSucc n)).toList = '-' :: (toString (n + 1)).toList := by
      show ("-" ++ toString (n + 1)).toList = _
      rw [String.toList_append]
      rfl
    rw [← String.length_toList, htext, scan_minus (numeral_decimal (n + 1)),
      decide_eq_true (Int.negSucc_lt_zero n)]
    rfl

/-- `std::stoi` takes a decimal text when the number fits. -/
theorem stoi_toString (v : Int) : stoi (toString v) =
    if -2 ^ 31 ≤ v ∧ v < 2 ^ 31 then some (v, (toString v).length) else none := by
  have hsigned : (if v < 0 then -(v.natAbs : Int) else v.natAbs) = v := by
    split <;> omega
  rw [stoi, scan_toString]
  simp only [Option.bind_eq_bind, Option.bind_some, decide_eq_true_eq, hsigned]

end Text

namespace ArgumentReader

/-- The number, if it fits. -/
def int32? (v : Int) : Option Int := if -2 ^ 31 ≤ v ∧ v < 2 ^ 31 then some v else none

theorem tryGetInt32_text {arguments : Json} {key : String} {v : Int}
    (h : arguments.find key = some (.str (toString v))) :
    tryGetInt32 arguments key = int32? v := by
  rw [tryGetInt32, h]
  by_cases hfit : -2 ^ 31 ≤ v ∧ v < 2 ^ 31
  · simp only [Text.stoi_toString, int32?, if_pos hfit, if_true]
  · simp only [Text.stoi_toString, int32?, if_neg hfit]

theorem tryGetInt32_number {arguments : Json} {key : String} {v : Int}
    (h : arguments.find key = some (.int v)) :
    tryGetInt32 arguments key = some (v.bmod (2 ^ 32)) := by
  rw [tryGetInt32, h]

theorem bmod_eq_self {v : Int} (h : -2 ^ 31 ≤ v ∧ v < 2 ^ 31) : v.bmod (2 ^ 32) = v :=
  Int.bmod_eq_of_le h.1 h.2

/-- **Integer arguments.**  A number is read as itself or refused, and its text as the number,
exactly when it fits. -/
theorem tryGetInt32_iff (v : Int) :
    (∀ (key : String) (number text : Json), number.find key = some (.int v) →
        text.find key = some (.str (toString v)) →
          tryGetInt32 number key = int32? v ∧ tryGetInt32 text key = tryGetInt32 number key) ↔
      -2 ^ 31 ≤ v ∧ v < 2 ^ 31 := by
  constructor
  · intro h
    have hread := (h "processId" (.obj [("processId", .int v)])
      (.obj [("processId", .str (toString v))]) rfl rfl).1
    rw [tryGetInt32_number rfl, int32?] at hread
    by_contra hout
    rw [if_neg hout] at hread
    cases hread
  · intro hfit key number text hnumber htext
    have hnumber : tryGetInt32 number key = int32? v := by
      rw [tryGetInt32_number hnumber, bmod_eq_self hfit, int32?, if_pos hfit]
    exact ⟨hnumber, (tryGetInt32_text htext).trans hnumber.symm⟩

/-- The number 2^32 + 1234. -/
theorem processId_wrapped : ¬∀ (v : Int) (key : String) (number text : Json),
    number.find key = some (.int v) → text.find key = some (.str (toString v)) →
      tryGetInt32 number key = int32? v ∧ tryGetInt32 text key = tryGetInt32 number key := by
  intro hall
  have hread := (hall 4294968530 "processId" (.obj [("processId", .int 4294968530)])
    (.obj [("processId", .str (toString (4294968530 : Int)))]) rfl rfl).1
  have hwrapped : tryGetInt32 (.obj [("processId", .int 4294968530)]) "processId" = some 1234 :=
    rfl
  rw [hwrapped] at hread
  cases hread

end ArgumentReader

end DapDbgeng
