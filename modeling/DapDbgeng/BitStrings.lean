/-
  Numbers as strings of bits, the most significant bit first.

  * `bits w n` are the low `w` bits of `n`; `bits_add`: a number is its high bits followed by its
    low ones;
  * `number` reads a string back (`number_bits`);
  * `words w bs` are the whole `w`-bit numbers at the front of `bs`; `words_flatMap_bits`: numbers
    written one after the other are read back, whatever shorter rest follows them.
-/
import Mathlib.Data.Nat.Bitwise
import Mathlib.Data.List.Basic
import Mathlib.Tactic.Ring

namespace BitStrings

/-- The low `w` bits of `n`. -/
def bits : Nat → Nat → List Bool
  | 0, _ => []
  | w + 1, n => n.testBit w :: bits w n

/-- The number a string of bits stands for. -/
def number (bs : List Bool) : Nat := bs.foldl (fun n b => 2 * n + b.toNat) 0

/-- The whole `w`-bit numbers at the front of a string. -/
def words (w : Nat) (bs : List Bool) : List Nat :=
  (List.range (bs.length / w)).map fun i => number ((bs.drop (i * w)).take w)

@[simp] theorem length_bits (w n : Nat) : (bits w n).length = w := by
  induction w with
  | zero => rfl
  | succ w ih => rw [bits, List.length_cons, ih]

@[simp] theorem length_words (w : Nat) (bs : List Bool) : (words w bs).length = bs.length / w := by
  rw [words, List.length_map, List.length_range]

/-! ## Bits of sums -/

theorem bits_add (k w n : Nat) : bits (k + w) n = bits k (n / 2 ^ w) ++ bits w n := by
  induction k with
  | zero => rw [Nat.zero_add, bits, List.nil_append]
  | succ k ih =>
    rw [Nat.succ_add, bits, bits, List.cons_append, ← ih, Nat.testBit_div_two_pow, Nat.add_comm k w]

theorem bits_mod (w k n : Nat) (h : w ≤ k) : bits w (n % 2 ^ k) = bits w n := by
  induction w with
  | zero => rfl
  | succ w ih =>
    have hw : decide (w < k) = true := decide_eq_true (by omega)
    rw [bits, bits, ih (by omega), Nat.testBit_mod_two_pow, hw, Bool.true_and]

/-- Appending `w` low bits to a number. -/
theorem bits_append (k w a : Nat) {b : Nat} (h : b < 2 ^ w) :
    bits (k + w) (a * 2 ^ w + b) = bits k a ++ bits w b := by
  have hhigh : (a * 2 ^ w + b) / 2 ^ w = a := by
    rw [Nat.mul_comm, Nat.mul_add_div (Nat.two_pow_pos w), Nat.div_eq_of_lt h, Nat.add_zero]
  have hlow : bits w (a * 2 ^ w + b) = bits w b := by
    rw [← bits_mod w w (a * 2 ^ w + b) le_rfl, ← bits_mod w w b le_rfl, Nat.mul_add_mod']
  rw [bits_add, hhigh, hlow]

/-! ## Reading back -/

theorem foldl_bits (w n m : Nat) :
    (bits w n).foldl (fun n b => 2 * n + b.toNat) m = m * 2 ^ w + n % 2 ^ w := by
  induction w generalizing m with
  | zero => simp [bits, Nat.mod_one]
  | succ w ih =>
    rw [bits, List.foldl_cons, ih, Nat.mod_pow_succ, Nat.toNat_testBit]
    ring

theorem number_bits (w n : Nat) : number (bits w n) = n % 2 ^ w := by
  rw [number, foldl_bits, Nat.zero_mul, Nat.zero_add]

theorem words_cons {w : Nat} (hw : 0 < w) {front : List Bool} (h : front.length = w)
    (rest : List Bool) : words w (front ++ rest) = number front :: words w rest := by
  have hcount : (front ++ rest).length / w = rest.length / w + 1 := by
    rw [List.length_append, h, Nat.add_comm, Nat.add_div_right _ hw]
  rw [words, hcount, List.range_succ_eq_map, List.map_cons, List.map_map, words]
  refine congrArg₂ List.cons ?_ (List.map_congr_left fun i _ => ?_)
  · rw [Nat.zero_mul, List.drop_zero, List.take_left' h]
  · have hdrop : (front ++ rest).drop ((i + 1) * w) = rest.drop (i * w) := by
      rw [Nat.succ_mul, Nat.add_comm, ← List.drop_drop, List.drop_left' h]
    rw [Function.comp_apply, hdrop]

theorem words_short {w : Nat} {bs : List Bool} (h : bs.length < w) : words w bs = [] := by
  rw [words, Nat.div_eq_of_lt h, List.range_zero, List.map_nil]

/-- **Reading back.**  Numbers written with `w` bits each are read back. -/
theorem words_flatMap_bits {w : Nat} {ns : List Nat} (hns : ∀ n ∈ ns, n < 2 ^ w)
    {rest : List Bool} (h : rest.length < w) : words w (ns.flatMap (bits w) ++ rest) = ns := by
  induction ns with
  | nil => exact words_short h
  | cons n ns ih =>
    rw [List.flatMap_cons, List.append_assoc, words_cons (by omega) (length_bits w n),
      ih fun m hm => hns m (List.mem_cons_of_mem n hm), number_bits,
      Nat.mod_eq_of_lt (hns n List.mem_cons_self)]

end BitStrings
