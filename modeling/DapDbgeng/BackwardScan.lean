/-
  The instructions in front of an address.

  An instruction set with instructions of different lengths cannot be decoded backwards.  The
  adapter tries the starts in a window in front of the address and takes the first one whose
  decoding ends exactly at the address, then keeps the last instructions of it.

  * `ChainTo`: the instructions from a start that end exactly at an address;
  * `disassembleBackward_chain_iff`: when the result is the end of the first such chain;
  * `disassembleBackward_most_iff`: when there is no longer chain in the window;
  * `disassemble_complete_iff`: when a request is answered with the requested number.
-/
import DapDbgeng.Disassembly
import DapDbgeng.Memory
import Mathlib.Order.Lattice.Nat

namespace DapDbgeng

namespace Disassembly

variable (D : Decoder)

/-- The instructions from an address on, the last of which ends exactly at `endAddress`. -/
inductive ChainTo (endAddress : ℕ) : ℕ → List Info → Prop
  | last {a : ℕ} {info : Info} :
      D.decode a = some (info, endAddress) → ChainTo endAddress a [info]
  | next {a next : ℕ} {info : Info} {chain : List Info} :
      D.decode a = some (info, next) → ChainTo endAddress next chain →
        ChainTo endAddress a (info :: chain)

/-- A start in the window in front of an address. -/
def Probe (endAddress : ℕ) (count : Int) (probe : ℕ) : Prop :=
  endAddress - scanWindow endAddress count.toNat ≤ probe ∧ probe < endAddress

/-- The chain from the smallest start in the window that has one. -/
def FirstChain (endAddress : ℕ) (count : Int) (chain : List Info) : Prop :=
  ∃ probe, Probe endAddress count probe ∧ ChainTo D endAddress probe chain ∧
    ∀ probe' < probe, Probe endAddress count probe' → ∀ chain', ¬ ChainTo D endAddress probe' chain'

variable {D}

/-! ## Chains -/

namespace ChainTo

variable {endAddress a : ℕ} {chain : List Info}

theorem ne_nil (h : ChainTo D endAddress a chain) : chain ≠ [] := by
  cases h <;> exact List.cons_ne_nil _ _

/-- Every instruction of a chain takes at least a byte. -/
theorem add_length_le (h : ChainTo D endAddress a chain) : a + chain.length ≤ endAddress := by
  induction h with
  | last h => exact D.forward h
  | next h _ ih =>
    have hlt := D.forward h
    rw [List.length_cons]
    omega

theorem lt (h : ChainTo D endAddress a chain) : a < endAddress := by
  have hle := h.add_length_le
  have hpos := List.length_pos_iff.2 h.ne_nil
  omega

/-- An address has at most one chain. -/
theorem unique {chain' : List Info} (h : ChainTo D endAddress a chain)
    (h' : ChainTo D endAddress a chain') : chain = chain' := by
  induction h generalizing chain' with
  | last hd =>
    cases h' with
    | last hd' =>
      cases hd.symm.trans hd'
      rfl
    | next hd' hrest =>
      cases hd.symm.trans hd'
      exact absurd hrest.lt (Nat.lt_irrefl _)
  | next hd hrest ih =>
    cases h' with
    | last hd' =>
      cases hd.symm.trans hd'
      exact absurd hrest.lt (Nat.lt_irrefl _)
    | next hd' hrest' =>
      cases hd.symm.trans hd'
      exact congrArg _ (ih hrest')

/-- The end of a chain is a chain. -/
theorem drop (h : ChainTo D endAddress a chain) {k : ℕ} (hk : k < chain.length) :
    ∃ a', ChainTo D endAddress a' (chain.drop k) := by
  induction h generalizing k with
  | last hd =>
    obtain rfl : k = 0 := Nat.lt_one_iff.1 hk
    exact ⟨_, .last hd⟩
  | next hd hrest ih =>
    cases k with
    | zero => exact ⟨_, .next hd hrest⟩
    | succ k => exact ih (Nat.lt_of_succ_lt_succ hk)

end ChainTo

/-- **The inner loop decodes the chain**: a step for every byte in front of the end is enough. -/
theorem alignedRange_eq_some_iff {endAddress fuel a : ℕ} {chain : List Info}
    (hfuel : endAddress - a ≤ fuel) (ha : a < endAddress) :
    alignedRange D endAddress fuel a = some chain ↔ ChainTo D endAddress a chain := by
  induction fuel generalizing a chain with
  | zero => omega
  | succ fuel ih =>
    rw [alignedRange]
    split
    · rename_i hnone
      refine iff_of_false (fun h => nomatch h) fun h => ?_
      cases h with
      | last h => cases hnone.symm.trans h
      | next h _ => cases hnone.symm.trans h
    · rename_i info next hsome
      have hnext := D.forward hsome
      split
      · rename_i hend
        subst hend
        constructor
        · intro h
          cases h
          exact .last hsome
        · intro h
          rw [h.unique (.last hsome)]
      · rename_i hend
        split
        · rename_i hover
          refine iff_of_false (fun h => nomatch h) fun h => ?_
          cases h with
          | last h => exact hend (congrArg Prod.snd (Option.some.inj (hsome.symm.trans h)))
          | next h hrest =>
            cases hsome.symm.trans h
            exact absurd hrest.lt (Nat.lt_asymm hover)
        · rw [Option.map_eq_some_iff]
          constructor
          · rintro ⟨rest, hrest, rfl⟩
            exact .next hsome ((ih (by omega) (by omega)).1 hrest)
          · intro h
            cases h with
            | last h => exact absurd (congrArg Prod.snd (Option.some.inj (hsome.symm.trans h))) hend
            | next h hrest =>
              cases hsome.symm.trans h
              exact ⟨_, (ih (by omega) (by omega)).2 hrest, rfl⟩

/-! ## The scan -/

/-- The first number below a bound with a value. -/
theorem findSome?_range {β : Type} {f : ℕ → Option β} {b : β} {i n : ℕ} (hi : i < n)
    (hb : f i = some b) (hfirst : ∀ j < i, f j = none) : (List.range n).findSome? f = some b := by
  induction n with
  | zero => cases hi
  | succ n ih =>
    rw [List.range_succ, List.findSome?_append]
    rcases Nat.lt_succ_iff_lt_or_eq.1 hi with hlt | rfl
    · rw [ih hlt]
      rfl
    · rw [List.findSome?_eq_none_iff.2 fun j hj => hfirst j (List.mem_range.1 hj)]
      simp [hb]

section

variable {endAddress : ℕ} {count : Int} {chain : List Info}

theorem FirstChain.unique {chain' : List Info} (h : FirstChain D endAddress count chain)
    (h' : FirstChain D endAddress count chain') : chain = chain' := by
  obtain ⟨probe, hprobe, hchain, hfirst⟩ := h
  obtain ⟨probe', hprobe', hchain', hfirst'⟩ := h'
  rcases Nat.lt_trichotomy probe probe' with hlt | rfl | hlt
  · exact absurd hchain (hfirst' probe hlt hprobe chain)
  · exact hchain.unique hchain'
  · exact absurd hchain' (hfirst probe' hlt hprobe' chain')

/-- Either no start in the window has a chain or there is a first one. -/
theorem FirstChain.exists_or_none (D : Decoder) (endAddress : ℕ) (count : Int) :
    (∃ chain, FirstChain D endAddress count chain) ∨
      ∀ probe, Probe endAddress count probe → ∀ chain, ¬ ChainTo D endAddress probe chain := by
  classical
  by_cases h : ∃ probe, Probe endAddress count probe ∧ ∃ chain, ChainTo D endAddress probe chain
  · obtain ⟨hprobe, chain, hchain⟩ := Nat.find_spec h
    refine .inl ⟨chain, Nat.find h, hprobe, hchain, fun probe' hlt hprobe' chain' hchain' => ?_⟩
    exact Nat.find_min h hlt ⟨hprobe', chain', hchain'⟩
  · exact .inr fun probe hprobe chain hchain => h ⟨probe, hprobe, chain, hchain⟩

/-- What the scan decodes from a start in the window. -/
theorem alignedRange_probe {probe : ℕ} (hprobe : Probe endAddress count probe) :
    alignedRange D endAddress (scanWindow endAddress count.toNat) probe = some chain ↔
      ChainTo D endAddress probe chain := by
  obtain ⟨hlow, hhigh⟩ := hprobe
  exact alignedRange_eq_some_iff (by omega) hhigh

theorem disassembleBackward_of_first (hcount : 0 < count)
    (h : FirstChain D endAddress count chain) :
    disassembleBackward D endAddress count = takeLast count chain := by
  obtain ⟨probe, hprobe, hchain, hfirst⟩ := h
  have hwindow : scanWindow endAddress count.toNat ≤ endAddress := Nat.min_le_left _ _
  obtain ⟨hlow, hhigh⟩ := id hprobe
  rw [disassembleBackward, if_neg (by omega)]
  have hscan := findSome?_range (b := chain) (n := scanWindow endAddress count.toNat)
    (f := fun i => alignedRange D endAddress (scanWindow endAddress count.toNat)
      (endAddress - scanWindow endAddress count.toNat + i))
    (i := probe - (endAddress - scanWindow endAddress count.toNat)) (by omega)
    (by rw [Nat.add_sub_cancel' hlow]; exact (alignedRange_probe hprobe).2 hchain)
    fun j hj => Option.eq_none_iff_forall_ne_some.2 fun chain' h' => by
      have hprobe' : Probe endAddress count (endAddress - scanWindow endAddress count.toNat + j) :=
        ⟨Nat.le_add_right _ _, by omega⟩
      exact hfirst _ (by omega) hprobe' chain' ((alignedRange_probe hprobe').1 h')
  simp only [hscan]

theorem disassembleBackward_of_none
    (h : ∀ probe, Probe endAddress count probe → ∀ chain, ¬ ChainTo D endAddress probe chain) :
    disassembleBackward D endAddress count = [] := by
  rw [disassembleBackward]
  split
  · rfl
  · have hscan : (List.range (scanWindow endAddress count.toNat)).findSome? (fun i =>
        alignedRange D endAddress (scanWindow endAddress count.toNat)
          (endAddress - scanWindow endAddress count.toNat + i)) = none := by
      rw [List.findSome?_eq_none_iff]
      intro i hi
      have hlt := List.mem_range.1 hi
      have hwindow : scanWindow endAddress count.toNat ≤ endAddress := Nat.min_le_left _ _
      have hprobe : Probe endAddress count (endAddress - scanWindow endAddress count.toNat + i) :=
        ⟨Nat.le_add_right _ _, by omega⟩
      exact Option.eq_none_iff_forall_ne_some.2 fun chain' h' =>
        h _ hprobe chain' ((alignedRange_probe hprobe).1 h')
    simp only [hscan]

end

/-! ## Sizes as `int`s -/

theorem toInt_bounds (size : ℕ) : -2 ^ 31 ≤ toInt size ∧ toInt size < 2 ^ 31 :=
  ⟨Int.le_bmod (x := size) (m := 2 ^ 32) (by decide),
    Int.bmod_lt (x := size) (m := 2 ^ 32) (by decide)⟩

/-- The cast leaves a multiple of `2 ^ 32` out. -/
theorem toInt_wraps (size : ℕ) : ∃ k : ℕ, (size : Int) = toInt size + 4294967296 * k := by
  have h := Int.bmod_add_bdiv size (2 ^ 32)
  have hbounds := toInt_bounds size
  rw [show ((2 ^ 32 : ℕ) : Int) = 4294967296 by decide] at h
  change toInt size + _ = _ at h
  refine ⟨(Int.bdiv size (2 ^ 32)).toNat, ?_⟩
  generalize Int.bdiv size (2 ^ 32) = k at h ⊢
  omega

/-- The cast of a size that is off by a multiple of `2 ^ 32`. -/
theorem toInt_eq_of {size : ℕ} {x k : Int} (h : (size : Int) = x + 4294967296 * k)
    (hlow : -2 ^ 31 ≤ x) (hhigh : x < 2 ^ 31) : toInt size = x := by
  obtain ⟨k', hk'⟩ := toInt_wraps size
  have hbounds := toInt_bounds size
  omega

/-- **The cast decides what is kept.** -/
theorem length_takeLast {α : Type} (count : Int) (l : List α) (hcount : 0 ≤ count) :
    ((takeLast count l).length : Int) = l.length - max 0 (toInt l.length - count) := by
  obtain ⟨k, hk⟩ := toInt_wraps l.length
  rw [takeLast]
  split
  · rw [List.length_drop]
    omega
  · omega

/-- More than the wanted number is kept exactly of a list whose size is no `int`. -/
theorem length_takeLast_le_iff {α : Type} {count : Int} (l : List α) (hcount : 0 ≤ count)
    (hint : count < 2 ^ 31) :
    ((takeLast count l).length : Int) ≤ count ↔ (l.length : Int) < 2 ^ 31 := by
  obtain ⟨k, hk⟩ := toInt_wraps l.length
  have hbounds := toInt_bounds l.length
  rw [length_takeLast count l hcount]
  omega

theorem takeLast_eq_drop {α : Type} {count : Int} (l : List α) (hint : (l.length : Int) < 2 ^ 31) :
    takeLast count l = l.drop (l.length - count).toNat := by
  rw [takeLast, toInt_eq hint]
  split
  · rfl
  · rw [show ((l.length : Int) - count).toNat = 0 by omega, List.drop_zero]

section

variable {limit : ℕ} {hlimit : limit < 2 ^ 64} {endAddress : ℕ}

theorem oneByte_chainTo (hend : endAddress ≤ limit) (count : ℕ) {a : ℕ}
    (h : a + (count + 1) = endAddress) :
    ChainTo (oneByte limit hlimit) endAddress a (nops a (count + 1)) := by
  induction count generalizing a with
  | zero =>
    subst h
    exact .last (if_pos (by omega))
  | succ count ih => exact .next (if_pos (by omega)) (ih (by omega))

/-- With instructions of one byte the first start is the first byte of the window. -/
theorem oneByte_first {count : Int} (hend : endAddress ≤ limit) (hpos : 0 < endAddress) :
    FirstChain (oneByte limit hlimit) endAddress count
      (nops (endAddress - scanWindow endAddress count.toNat)
        (scanWindow endAddress count.toNat)) := by
  have hwindow : 0 < scanWindow endAddress count.toNat := by
    rw [scanWindow]
    omega
  have hle : scanWindow endAddress count.toNat ≤ endAddress := Nat.min_le_left _ _
  obtain ⟨m, hm⟩ := Nat.exists_eq_succ_of_ne_zero hwindow.ne'
  refine ⟨endAddress - scanWindow endAddress count.toNat, ⟨Nat.le_refl _, by omega⟩, ?_, ?_⟩
  · rw [hm]
    exact oneByte_chainTo hend m (by omega)
  · rintro probe' hlt ⟨hprobe', -⟩
    omega

theorem length_nops (a count : ℕ) : (nops a count).length = count := by
  rw [nops, List.length_map, List.length_range']

end

/-! ## What the scan returns -/

section

variable {endAddress : ℕ} {count : Int}

/-- Empty when nothing decodes up to the address, and else the last `count` instructions of the
first chain. -/
def EndOfFirstChain (D : Decoder) (endAddress : ℕ) (count : Int) (result : List Info) : Prop :=
  (result = [] ↔ count ≤ 0 ∨ endAddress = 0 ∨
    ∀ probe, Probe endAddress count probe → ∀ chain, ¬ ChainTo D endAddress probe chain) ∧
  (result ≠ [] →
    (∃ a, ChainTo D endAddress a result) ∧ (result.length : Int) ≤ count ∧
      ∃ chain, FirstChain D endAddress count chain ∧
        result = chain.drop (chain.length - min count.toNat chain.length))

/-- The number of instructions of the longest chain in the window. -/
def Longest (D : Decoder) (endAddress : ℕ) (count : Int) (most : ℕ) : Prop :=
  IsGreatest {n | n = 0 ∨
    ∃ probe chain, Probe endAddress count probe ∧ ChainTo D endAddress probe chain ∧
      chain.length = n} most

theorem endOfFirstChain_of_first {chain : List Info} (hcount : 0 < count)
    (h : FirstChain D endAddress count chain) (hint : (chain.length : Int) < 2 ^ 31) :
    EndOfFirstChain D endAddress count (takeLast count chain) := by
  obtain ⟨probe, hprobe, hchain, -⟩ := id h
  have hpos := List.length_pos_iff.2 hchain.ne_nil
  have hkept : takeLast count chain = chain.drop (chain.length - min count.toNat chain.length) := by
    rw [takeLast_eq_drop chain hint]
    congr 1
    omega
  obtain ⟨a, ha⟩ := hchain.drop (k := chain.length - min count.toNat chain.length) (by omega)
  rw [← hkept] at ha
  refine ⟨iff_of_false ha.ne_nil ?_, fun _ => ⟨⟨a, ha⟩, ?_, chain, h, hkept⟩⟩
  · rintro (hzero | rfl | hnone)
    · omega
    · exact Nat.not_lt_zero _ hprobe.2
    · exact hnone probe hprobe chain hchain
  · rw [hkept, List.length_drop]
    omega

/-- **The scan returns the end of the first chain** exactly when the size of the chain is an
`int`. -/
theorem disassembleBackward_chain_iff (D : Decoder) (endAddress : ℕ) (count : Int)
    (hint : count < 2 ^ 31) :
    EndOfFirstChain D endAddress count (disassembleBackward D endAddress count) ↔
      (0 < count → ∀ chain, FirstChain D endAddress count chain → (chain.length : Int) < 2 ^ 31) := by
  rcases Int.lt_or_le 0 count with hcount | hcount
  · rw [forall_prop_of_true hcount]
    rcases FirstChain.exists_or_none D endAddress count with ⟨chain, hchain⟩ | hnone
    · rw [disassembleBackward_of_first hcount hchain]
      constructor
      · rintro ⟨-, hend⟩ chain' hchain'
        rw [← hchain.unique hchain', ← length_takeLast_le_iff chain hcount.le hint]
        by_cases hnil : takeLast count chain = []
        · rw [hnil]
          exact hcount.le
        · exact (hend hnil).2.1
      · exact fun h => endOfFirstChain_of_first hcount hchain (h chain hchain)
    · rw [disassembleBackward_of_none hnone]
      refine iff_of_true ⟨iff_of_true rfl (.inr (.inr hnone)), fun h => absurd rfl h⟩ ?_
      rintro chain ⟨probe, hprobe, hchain, -⟩
      exact absurd hchain (hnone probe hprobe chain)
  · have hnil : disassembleBackward D endAddress count = [] := if_pos (.inl hcount)
    rw [hnil]
    refine iff_of_true ⟨iff_of_true rfl (.inl hcount), fun h => absurd rfl h⟩ fun hpos => ?_
    exact absurd hpos (Int.not_lt.2 hcount)

/-- The two instructions in front of the address 12. -/
theorem scan_two :
    EndOfFirstChain (oneByte 15 (by decide)) 12 2
      (disassembleBackward (oneByte 15 (by decide)) 12 2) := by
  refine (disassembleBackward_chain_iff _ 12 2 (by decide)).2 fun _ chain hchain => ?_
  obtain ⟨probe, -, hto, -⟩ := hchain
  have hle := hto.add_length_le
  omega

/-- A window of `15 * (2 ^ 28 + 1) + 15` instructions of one byte, whose number is no `int`, is not
cut down to `2 ^ 28` of them. -/
theorem scan_too_long :
    ¬ EndOfFirstChain (oneByte 4294967296 (by decide)) 4294967296 268435456
      (disassembleBackward (oneByte 4294967296 (by decide)) 4294967296 268435456) := by
  have hfirst := @oneByte_first 4294967296 (by decide) 4294967296 268435456 (Nat.le_refl _)
    (by decide)
  have hwindow : scanWindow 4294967296 (Int.toNat 268435456) = 4026531870 := by decide
  rw [hwindow] at hfirst
  have hlength := length_nops (4294967296 - 4026531870) 4026531870
  rw [disassembleBackward_of_first (by decide) hfirst]
  generalize nops (4294967296 - 4026531870) 4026531870 = chain at hlength
  rintro ⟨-, hend⟩
  have hkept := length_takeLast_le_iff chain (by decide : (0 : Int) ≤ 268435456) (by decide)
  by_cases hnil : takeLast 268435456 chain = []
  · have hsize := hkept.1 (by rw [hnil]; decide)
    omega
  · have hsize := hkept.1 (hend hnil).2.1
    omega

/-- The window bounds the lengths of the chains in it. -/
theorem Longest.exists (D : Decoder) (endAddress : ℕ) (count : Int) :
    ∃ most, Longest D endAddress count most := by
  suffices hbound : BddAbove {n | n = 0 ∨ ∃ probe chain, Probe endAddress count probe ∧
      ChainTo D endAddress probe chain ∧ chain.length = n} from
    ⟨_, Nat.sSup_mem ⟨0, .inl rfl⟩ hbound, fun n hn => le_csSup hbound hn⟩
  refine ⟨endAddress, ?_⟩
  rintro n (rfl | ⟨probe, chain, -, hchain, rfl⟩)
  · exact Nat.zero_le _
  · have hle := hchain.add_length_le
    omega

/-- **The scan returns as many instructions as possible** exactly when the size of the first chain
is an `int` and it has as many instructions as wanted or as any other chain in the window. -/
theorem disassembleBackward_most_iff (D : Decoder) (endAddress : ℕ) (count : Int)
    (hcount : 0 < count) (hint : count < 2 ^ 31) :
    (∃ most, Longest D endAddress count most ∧
      ((disassembleBackward D endAddress count).length : Int) = min count most) ↔
      ∀ chain, FirstChain D endAddress count chain →
        (chain.length : Int) < 2 ^ 31 ∧ (count ≤ chain.length ∨
          ∀ probe chain', Probe endAddress count probe → ChainTo D endAddress probe chain' →
            chain'.length ≤ chain.length) := by
  obtain ⟨most, hmost⟩ := Longest.exists D endAddress count
  have hexists : (∃ most, Longest D endAddress count most ∧
      ((disassembleBackward D endAddress count).length : Int) = min count most) ↔
      ((disassembleBackward D endAddress count).length : Int) = min count most := by
    constructor
    · rintro ⟨most', hmost', hlength⟩
      rwa [hmost.unique hmost']
    · exact fun h => ⟨most, hmost, h⟩
  rw [hexists]
  rcases FirstChain.exists_or_none D endAddress count with ⟨chain, hchain⟩ | hnone
  · rw [disassembleBackward_of_first hcount hchain]
    obtain ⟨probe, hprobe, hto, -⟩ := id hchain
    have hle : chain.length ≤ most := hmost.2 (.inr ⟨probe, chain, hprobe, hto, rfl⟩)
    have hkept := length_takeLast_le_iff chain hcount.le hint
    constructor
    · intro hlength chain' hchain'
      rw [← hchain.unique hchain']
      have hsize : (chain.length : Int) < 2 ^ 31 := by
        rw [← hkept, hlength]
        exact Int.min_le_left _ _
      refine ⟨hsize, or_iff_not_imp_left.2 fun hfew probe' other hprobe' hother => ?_⟩
      rw [takeLast_eq_drop chain hsize, List.length_drop] at hlength
      have hother : other.length ≤ most := hmost.2 (.inr ⟨probe', other, hprobe', hother, rfl⟩)
      omega
    · intro h
      obtain ⟨hsize, hmany⟩ := h chain hchain
      have hlast : count ≤ chain.length ∨ most ≤ chain.length := by
        refine hmany.imp_right fun hall => ?_
        rcases hmost.1 with hzero | ⟨probe', other, hprobe', hother, rfl⟩
        · omega
        · exact hall probe' other hprobe' hother
      rw [takeLast_eq_drop chain hsize, List.length_drop]
      omega
  · rw [disassembleBackward_of_none hnone]
    have hzero : most = 0 := by
      rcases hmost.1 with hzero | ⟨probe, chain, hprobe, hchain, -⟩
      · exact hzero
      · exact absurd hchain (hnone probe hprobe chain)
    refine iff_of_true (by rw [hzero, List.length_nil]; omega) ?_
    rintro chain ⟨probe, hprobe, hchain, -⟩
    exact absurd hchain (hnone probe hprobe chain)

/-- The two instructions in front of the address 12 are as many as possible. -/
theorem scan_two_most :
    ∃ most, Longest (oneByte 15 (by decide)) 12 2 most ∧
      ((disassembleBackward (oneByte 15 (by decide)) 12 2).length : Int) = min 2 (most : Int) := by
  refine (disassembleBackward_most_iff _ 12 2 (by decide) (by decide)).2 fun chain hchain => ?_
  rw [hchain.unique (@oneByte_first 15 (by decide) 12 2 (by decide) (by decide)), length_nops]
  exact ⟨by decide, .inl (by decide)⟩

/-- An instruction of ten bytes whose other bytes are instructions of one byte. -/
def overlapping : Decoder where
  decode a :=
    if a = 0 then some ({ address := 0, instruction := "mov" }, 10)
    else if a < 10 then some ({ address := a, instruction := "nop" }, a + 1) else none
  address_eq := by
    intro a info next h
    split at h
    · rename_i hzero
      cases h
      exact hzero.symm
    · split at h <;> cases h
      rfl
  valid := by
    intro a info next h
    split at h
    · cases h
      rfl
    · split at h <;> cases h
      rfl
  forward := by
    intro a info next h
    split at h
    · cases h
      omega
    · split at h <;> cases h
      exact Nat.lt_succ_self a
  fits := by
    intro a info next h
    split at h
    · cases h
      decide
    · split at h <;> cases h
      omega

theorem overlapping_decode {a : ℕ} (hpos : 0 < a) (hlt : a < 10) :
    overlapping.decode a = some ({ address := a, instruction := "nop" }, a + 1) :=
  (if_neg hpos.ne').trans (if_pos hlt)

theorem overlapping_chainTo (count : ℕ) {a : ℕ} (hpos : 0 < a) (h : a + (count + 1) = 10) :
    ChainTo overlapping 10 a (nops a (count + 1)) := by
  induction count generalizing a with
  | zero =>
    obtain rfl : a = 9 := by omega
    exact .last (overlapping_decode hpos (by decide))
  | succ count ih =>
    exact .next (overlapping_decode hpos (by omega)) (ih (Nat.succ_pos a) (by omega))

/-- The one long instruction is returned instead of the last five of the nine short ones. -/
theorem scan_not_most :
    ¬ ∃ most, Longest overlapping 10 5 most ∧
      ((disassembleBackward overlapping 10 5).length : Int) = min 5 (most : Int) := by
  rintro ⟨most, hmost, hlength⟩
  have hnine : ChainTo overlapping 10 1 (nops 1 9) := overlapping_chainTo 8 (by decide) rfl
  have hmany : 9 ≤ most := hmost.2 (.inr ⟨1, _, ⟨by decide, by decide⟩, hnine, rfl⟩)
  have hone : (disassembleBackward overlapping 10 5).length = 1 := by decide +kernel
  rw [hone] at hlength
  omega

end

/-! ## The number of instructions -/

section

variable {symbolStart : ℕ → Option ℕ} {memoryAddress : ℕ}

/-- Every `int` of a request fits: the sum with a non-negative offset; or the negated offset and the
number of placeholders in front of what is decoded before the address. -/
def SumsFit (D : Decoder) (symbolStart : ℕ → Option ℕ) (memoryAddress : ℕ)
    (instructionOffset instructionCount : Int) : Prop :=
  instructionCount = 0 ∨
    (0 ≤ instructionOffset ∧ instructionOffset + instructionCount < 2 ^ 31) ∨
    (instructionOffset < 0 ∧ -instructionOffset < 2 ^ 31 ∧
      ((∃ start ≤ memoryAddress, symbolStart memoryAddress = some start) ∨
        ∀ chain, FirstChain D memoryAddress (min (-instructionOffset) instructionCount) chain →
          min (-instructionOffset) instructionCount - toInt chain.length < 2 ^ 31))

theorem length_finish (count : ℕ) (instructions : List Info) :
    (finish memoryAddress count instructions).length = count := by
  rw [finish, pad, List.length_append, List.length_map, List.length_range, List.length_take]
  omega

theorem toInt_takeLast {α : Type} {count : Int} (l : List α) (hcount : 0 ≤ count)
    (hint : count < 2 ^ 31) : toInt (takeLast count l).length = min count (toInt l.length) := by
  obtain ⟨k, hk⟩ := toInt_wraps l.length
  have hbounds := toInt_bounds l.length
  refine toInt_eq_of (k := k) ?_ (by omega) (by omega)
  rw [length_takeLast count l hcount]
  omega

theorem length_disassembleRange_le (start count : ℕ) :
    (disassembleRange D start count).length ≤ count := by
  induction count generalizing start with
  | zero => exact Nat.le_refl _
  | succ count ih =>
    rw [disassembleRange]
    split
    · exact Nat.zero_le _
    · exact Nat.succ_le_succ (ih _)

/-- What is decoded from the start of a symbol is counted by an `int`. -/
theorem toInt_previous_of_symbol {start p n : ℕ} (hsymbol : symbolStart memoryAddress = some start)
    (hstart : start ≤ memoryAddress) (hint : (p : Int) < 2 ^ 31) :
    0 ≤ toInt (previousInstructions D symbolStart memoryAddress p n).length ∧
      toInt (previousInstructions D symbolStart memoryAddress p n).length ≤ p := by
  rw [previousInstructions, hsymbol]
  simp only [if_pos hstart]
  rw [toInt_takeLast _ (Int.natCast_nonneg _) hint]
  have hlength := length_disassembleRange_le (D := D) start
    (requestedFromSymbol start memoryAddress n)
  have hfilter := List.length_filter_le (fun info : Info => info.address < memoryAddress)
    (disassembleRange D start (requestedFromSymbol start memoryAddress n))
  have hrequested : requestedFromSymbol start memoryAddress n ≤ intMax := Nat.min_le_left _ _
  rw [intMax] at hrequested
  rw [toInt_eq (by omega)]
  omega

/-- Without a symbol in front of the address the scan finds them. -/
theorem previousInstructions_scan {p n : ℕ}
    (h : ¬ ∃ start ≤ memoryAddress, symbolStart memoryAddress = some start) :
    previousInstructions D symbolStart memoryAddress p n =
      disassembleBackward D memoryAddress p := by
  rw [previousInstructions]
  split
  · rename_i start hsymbol
    exact if_neg fun hle => h ⟨start, hle, hsymbol⟩
  · rfl

theorem subtract_isOk_iff {a b : Int} (hlow : -2 ^ 31 ≤ a - b) :
    (∃ c, subtract a b = .ok c) ↔ a - b < 2 ^ 31 := by
  constructor
  · rintro ⟨c, hc⟩
    by_contra hover
    rw [subtract_error (Int.not_lt.1 hover)] at hc
    cases hc
  · exact fun h => ⟨_, subtract_eq hlow h⟩

/-- With a negative offset only the number of placeholders can overflow. -/
theorem backwardWindow_isOk_iff {p n : ℕ} (hp : p ≤ n) (hint : (n : Int) < 2 ^ 31)
    (hle : toInt (previousInstructions D symbolStart memoryAddress p n).length ≤ p) :
    (∃ instructions, backwardWindow D symbolStart memoryAddress p n = .ok instructions) ↔
      p - toInt (previousInstructions D symbolStart memoryAddress p n).length < 2 ^ 31 := by
  rw [← subtract_isOk_iff (by omega), backwardWindow]
  generalize previousInstructions D symbolStart memoryAddress p n = previous at hle
  cases hmissing : subtract p (toInt previous.length) with
  | error message =>
    refine iff_of_false ?_ ?_
    · rintro ⟨_, h⟩
      cases h
    · rintro ⟨_, h⟩
      cases h
  | ok missing =>
    refine iff_of_true ?_ ⟨missing, rfl⟩
    have hmissing := eq_sub_of_subtract hmissing
    obtain ⟨k, hk⟩ := toInt_wraps previous.length
    -- placeholders and decoded instructions are as many as wanted, up to what the cast loses
    have hsize : toInt (createInvalidLeadingInstructions
        ((previous.head?.map fun info => info.address).getD memoryAddress) missing.toNat ++
          previous).length = p := by
      refine toInt_eq_of (k := k) ?_ (by omega) (by omega)
      rw [List.length_append, length_leading]
      omega
    rw [ok_bind]
    dsimp only
    rw [hsize, subtract_eq (by omega) (by omega), ok_bind]
    exact ⟨_, rfl⟩

/-- An accepted request is for a number of instructions that is an `int` and not negative. -/
theorem accepted_count {arguments : DisassembleArguments} {a : Server.DisassembleRequest}
    (haccepted : Server.tryReadDisassembleArguments arguments = .ok a) :
    0 ≤ a.instructionCount ∧ a.instructionCount < 2 ^ 31 := by
  rw [Server.tryReadDisassembleArguments] at haccepted
  split at haccepted
  · cases haccepted
  split at haccepted
  · cases haccepted
  rename_i hcount
  rw [Factory.int32Max, not_or] at hcount
  split at haccepted
  · cases haccepted
  split at haccepted
  · cases haccepted
  split at haccepted <;> cases haccepted
  constructor <;> dsimp only <;> omega

theorem collect_isOk_iff {o n : Int} (hn : 0 < n) (hint : n < 2 ^ 31) :
    (∃ instructions, collect D symbolStart memoryAddress o n = .ok instructions) ↔
      SumsFit D symbolStart memoryAddress o n := by
  rw [SumsFit, or_iff_right (by omega : ¬ n = 0), collect]
  split
  · rename_i hneg
    rw [or_iff_right (fun h => by omega)]
    split
    · refine iff_of_false ?_ fun h => by omega
      rintro ⟨_, h⟩
      cases h
    · rename_i hoffset
      rw [and_iff_right hneg, and_iff_right (by omega)]
      obtain ⟨p, hp⟩ : ∃ p : ℕ, (p : Int) = min (-o) n := ⟨(min (-o) n).toNat, by omega⟩
      rw [← hp, Int.toNat_natCast]
      by_cases hsymbol : ∃ start ≤ memoryAddress, symbolStart memoryAddress = some start
      · rw [iff_true_right (.inl hsymbol)]
        obtain ⟨start, hle, hstart⟩ := hsymbol
        obtain ⟨hpos, hprevious⟩ := toInt_previous_of_symbol (D := D) (p := p) (n := n.toNat)
          hstart hle (by omega)
        rw [backwardWindow_isOk_iff (by omega) (by omega) hprevious]
        omega
      · rw [or_iff_right hsymbol]
        have hscan := previousInstructions_scan (D := D) (p := p) (n := n.toNat) hsymbol
        rcases FirstChain.exists_or_none D memoryAddress p with ⟨chain, hchain⟩ | hnone
        · rw [disassembleBackward_of_first (by omega) hchain] at hscan
          have hsize := toInt_takeLast chain (by omega : (0 : Int) ≤ p) (by omega)
          rw [backwardWindow_isOk_iff (by omega) (by omega) (by rw [hscan, hsize]; omega), hscan,
            hsize]
          constructor
          · intro h chain' hchain'
            rw [← hchain.unique hchain']
            omega
          · intro h
            have := h chain hchain
            omega
        · rw [disassembleBackward_of_none hnone] at hscan
          rw [backwardWindow_isOk_iff (by omega) (by omega)
            (by rw [hscan, List.length_nil, toInt_eq (by decide)]; omega), hscan]
          refine iff_of_true ?_ ?_
          · rw [List.length_nil, toInt_eq (by decide)]
            omega
          · rintro chain ⟨probe, hprobe, hchain, -⟩
            exact absurd hchain (hnone probe hprobe chain)
  · rename_i hpos
    rw [or_iff_left (fun h => hpos h.1), and_iff_right (by omega)]
    split
    · refine iff_of_false ?_ fun h => by omega
      rintro ⟨_, h⟩
      cases h
    · exact iff_of_true ⟨_, rfl⟩ (by omega)

/-- **A request is answered with the requested number** exactly when its sums fit an `int`. -/
theorem disassemble_complete_iff (D : Decoder) (symbolStart : ℕ → Option ℕ)
    {arguments : DisassembleArguments} {a : Server.DisassembleRequest}
    (haccepted : Server.tryReadDisassembleArguments arguments = .ok a) :
    (∃ instructions,
      disassemble D symbolStart a.memoryAddress a.instructionOffset a.instructionCount =
        .ok instructions ∧ (instructions.length : Int) = a.instructionCount) ↔
      SumsFit D symbolStart a.memoryAddress a.instructionOffset a.instructionCount := by
  obtain ⟨hcount, hint⟩ := accepted_count haccepted
  generalize a.instructionOffset = o
  generalize a.instructionCount = n at hcount hint ⊢
  rcases hcount.eq_or_lt with rfl | hpos
  · exact iff_of_true ⟨[], rfl, rfl⟩ (.inl rfl)
  · rw [← collect_isOk_iff hpos hint, disassemble_eq hpos]
    constructor
    · rintro ⟨instructions, hok, -⟩
      cases hcollect : collect D symbolStart a.memoryAddress o n with
      | error message =>
        rw [hcollect] at hok
        cases hok
      | ok collected => exact ⟨collected, rfl⟩
    · rintro ⟨collected, hcollect⟩
      refine ⟨finish a.memoryAddress n.toNat collected, by rw [hcollect]; rfl, ?_⟩
      rw [length_finish]
      omega

/-- Three instructions from one before an address that no symbol covers. -/
theorem complete_around :
    ∃ instructions,
      disassemble (oneByte 15 (by decide)) (fun _ => none) 12 (-1) 3 = .ok instructions ∧
        (instructions.length : Int) = 3 := by
  refine (@disassemble_complete_iff (oneByte 15 (by decide)) (fun _ => none)
    { memoryReference := "12", instructionOffset := some (-1), instructionCount := 3 }
    ⟨12, -1, 3, false⟩ rfl).2 ?_
  refine .inr (.inr ⟨by decide, by decide, .inr fun chain hchain => ?_⟩)
  rw [hchain.unique (@oneByte_first 15 (by decide) 12 1 (by decide) (by decide)), length_nops]
  decide

/-- The lowest offset cannot be negated, and the highest offset and count cannot be added. -/
theorem sums_overflow :
    (∃ a, Server.tryReadDisassembleArguments
        { memoryReference := "12", instructionOffset := some (-2147483648), instructionCount := 1 } =
          .ok a ∧
      ¬ ∃ instructions, disassemble (oneByte 15 (by decide)) (fun _ => none) a.memoryAddress
        a.instructionOffset a.instructionCount = .ok instructions ∧
          (instructions.length : Int) = a.instructionCount) ∧
    ∃ a, Server.tryReadDisassembleArguments
        { memoryReference := "12", instructionOffset := some 2147483647
          instructionCount := 2147483647 } = .ok a ∧
      ¬ ∃ instructions, disassemble (oneByte 15 (by decide)) (fun _ => none) a.memoryAddress
        a.instructionOffset a.instructionCount = .ok instructions ∧
          (instructions.length : Int) = a.instructionCount := by
  refine ⟨⟨⟨12, -2147483648, 1, false⟩, rfl, ?_⟩, ⟨12, 2147483647, 2147483647, false⟩, rfl, ?_⟩
  · rintro ⟨instructions, hok, -⟩
    rw [disassemble_eq (by decide), collect, if_pos (by decide), if_pos (by decide)] at hok
    cases hok
  · rintro ⟨instructions, hok, -⟩
    rw [disassemble_eq (by decide), collect, if_neg (by decide), if_pos (by decide)] at hok
    cases hok

end

end Disassembly

end DapDbgeng
