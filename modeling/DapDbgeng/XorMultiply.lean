/-
  Hashes that xor a byte into the low end of their value and multiply.

  * `mixAll`: the hash of a list of bytes, modulo `2 ^ w`;
  * `changes`: by how much each byte changes the value; the running low byte alone decides it;
  * `mixAll_modEq`: the hash is a linear form in the changes.
-/
import Mathlib.Data.Int.ModEq
import Mathlib.Tactic.Ring

namespace XorMultiply

section

variable (w multiplier : ℕ)

def mixAll (x : ℕ) (bytes : List ℕ) : ℕ :=
  bytes.foldl (fun x b => (x ^^^ b) * multiplier % 2 ^ w) x

/-- The changes that bytes make when mixed in one after the other, from a low byte on. -/
def changes : ℕ → List ℕ → List ℤ
  | _, [] => []
  | low, b :: bytes =>
    (((low ^^^ b : ℕ) : ℤ) - low) :: changes ((low ^^^ b) * multiplier % 2 ^ 8) bytes

/-- A change is multiplied when it is made and with every later byte. -/
def weigh : List ℤ → ℤ
  | [] => 0
  | d :: ds => d * multiplier ^ (ds.length + 1) + weigh ds

end

variable (multiplier : ℕ)

@[simp] theorem length_changes (low : ℕ) (bytes : List ℕ) :
    (changes multiplier low bytes).length = bytes.length := by
  induction bytes generalizing low with
  | nil => rfl
  | cons b bytes ih => rw [changes, List.length_cons, List.length_cons, ih]

/-- A byte changes the low byte only. -/
theorem xor_byte {x b : ℕ} (hb : b < 2 ^ 8) :
    ((x ^^^ b : ℕ) : ℤ) = x + (((x % 2 ^ 8 ^^^ b : ℕ) : ℤ) - (x % 2 ^ 8 : ℕ)) := by
  have hhigh : (x ^^^ b) / 2 ^ 8 = x / 2 ^ 8 := by
    rw [Nat.xor_div_two_pow, Nat.div_eq_of_lt hb, Nat.xor_zero]
  have hlow : (x ^^^ b) % 2 ^ 8 = x % 2 ^ 8 ^^^ b := by
    rw [Nat.xor_mod_two_pow, Nat.mod_eq_of_lt hb]
  have hsplit := Nat.div_add_mod (x ^^^ b) (2 ^ 8)
  have hsplit' := Nat.div_add_mod x (2 ^ 8)
  rw [hhigh, hlow] at hsplit
  omega

/-- **The hash adds up what its bytes change**, each change weighed by its place. -/
theorem mixAll_modEq {w : ℕ} (hw : 8 ≤ w) {bytes : List ℕ} (hb : ∀ b ∈ bytes, b < 2 ^ 8) (x : ℕ) :
    (mixAll w multiplier x bytes : ℤ) ≡ x * multiplier ^ bytes.length +
      weigh multiplier (changes multiplier (x % 2 ^ 8) bytes) [ZMOD 2 ^ w] := by
  induction bytes generalizing x with
  | nil => simp [mixAll, changes, weigh]
  | cons b bytes ih =>
    obtain ⟨hbyte, hbytes⟩ := List.forall_mem_cons.1 hb
    have hlow : (x ^^^ b) * multiplier % 2 ^ w % 2 ^ 8 =
        (x % 2 ^ 8 ^^^ b) * multiplier % 2 ^ 8 := by
      rw [Nat.mod_mod_of_dvd _ (Nat.pow_dvd_pow 2 hw), ← Nat.mod_mul_mod, Nat.xor_mod_two_pow,
        Nat.mod_eq_of_lt hbyte]
    have hmixed : (((x ^^^ b) * multiplier % 2 ^ w : ℕ) : ℤ) ≡
        (x + (((x % 2 ^ 8 ^^^ b : ℕ) : ℤ) - (x % 2 ^ 8 : ℕ))) * multiplier [ZMOD 2 ^ w] := by
      rw [← xor_byte hbyte]
      push_cast
      exact Int.mod_modEq _ _
    have hrest := ih hbytes ((x ^^^ b) * multiplier % 2 ^ w)
    rw [hlow] at hrest
    refine hrest.trans ?_
    rw [changes, weigh, length_changes, List.length_cons]
    have hsum := (hmixed.mul_right (multiplier ^ bytes.length)).add_right
      (weigh multiplier (changes multiplier ((x % 2 ^ 8 ^^^ b) * multiplier % 2 ^ 8) bytes))
    convert hsum using 1
    ring

end XorMultiply
