/-
  The ids under which the frames of a stop are recorded.

  An id is a hash of the thread and the number of a frame, so that two frames can share one; the
  later registration then takes the lookups of the earlier frame.

  * `FrameKey.id_eq_iff`: when two frames share an id;
  * `faithful_iff`: lookups find the frame that was reported if and only if no two recorded frames
    clash.
-/
import DapDbgeng.Inspection
import DapDbgeng.XorMultiply
import Mathlib.Data.List.Induction
import Mathlib.Tactic.NormNum

namespace DapDbgeng

open XorMultiply

/-! ## The hash -/

/-- A thread and the number of one of its frames. -/
abbrev FrameKey := Int × ℕ

def bytesOf (n : ℕ) : List ℕ :=
  [n % 2 ^ 8, n / 2 ^ 8 % 2 ^ 8, n / 2 ^ 16 % 2 ^ 8, n / 2 ^ 24 % 2 ^ 8]

theorem bytesOf_lt (n : ℕ) : ∀ b ∈ bytesOf n, b < 2 ^ 8 := by
  simp only [bytesOf, List.mem_cons, List.not_mem_nil, or_false]
  rintro b (rfl | rfl | rfl | rfl) <;> exact Nat.mod_lt _ (by norm_num)

/-- Only the low 32 bits count. -/
theorem bytesOf_mod (n : ℕ) : bytesOf (n % 2 ^ 32) = bytesOf n := by
  simp only [bytesOf, List.cons.injEq, and_true]
  omega

namespace Factory

theorem mixByte_toNat (h b : UInt32) :
    (mixByte h b).toNat = (h.toNat ^^^ b.toNat) * 16777619 % 2 ^ 32 := by
  simp [mixByte]

theorem byte_toNat (v : UInt32) {k : UInt32} {n : ℕ} (hk : k.toNat = n) (hn : n < 32) :
    ((v >>> k) &&& 0xff).toNat = v.toNat / 2 ^ n % 2 ^ 8 := by
  have hmask : (0xff : UInt32).toNat = 2 ^ 8 - 1 := rfl
  rw [UInt32.toNat_and, UInt32.toNat_shiftRight, hmask, Nat.and_two_pow_sub_one_eq_mod, hk,
    Nat.mod_eq_of_lt hn, Nat.shiftRight_eq_div_pow]

theorem foldl_mixByte_toNat (h : UInt32) (bytes : List UInt32) :
    (bytes.foldl mixByte h).toNat =
      mixAll 32 16777619 h.toNat (bytes.map fun b => b.toNat) := by
  induction bytes generalizing h with
  | nil => rfl
  | cons b bytes ih =>
    rw [List.foldl_cons, ih, mixByte_toNat, List.map_cons, mixAll, mixAll, List.foldl_cons]

theorem mix_toNat (h v : UInt32) :
    (mix h v).toNat = mixAll 32 16777619 h.toNat (bytesOf v.toNat) := by
  have hmix : mix h v =
      (([0, 8, 16, 24] : List UInt32).map fun shift => (v >>> shift) &&& 0xff).foldl mixByte h := by
    rw [mix, List.foldl_map]
  have hbytes : ((([0, 8, 16, 24] : List UInt32).map fun shift => (v >>> shift) &&& 0xff).map
      fun b => b.toNat) = bytesOf v.toNat := by
    simp only [List.map_cons, List.map_nil, bytesOf]
    rw [byte_toNat v (n := 0) rfl (by norm_num), byte_toNat v (n := 8) rfl (by norm_num),
      byte_toNat v (n := 16) rfl (by norm_num), byte_toNat v (n := 24) rfl (by norm_num), pow_zero,
      Nat.div_one]
  rw [hmix, foldl_mixByte_toNat, hbytes]

end Factory

namespace FrameKey

/-- The id the client gets for a frame. -/
def id (p : FrameKey) : Int := Factory.createFrameId p.1 p.2

theorem createStackFrame_id (threadId : Int) (frame : StackFrameInfo) :
    (Factory.createStackFrame threadId frame).id = FrameKey.id (threadId, frame.frameNumber) := rfl

/-- The bytes of a frame, in the order in which they are mixed in. -/
def bytes (p : FrameKey) : List ℕ := bytesOf (Factory.toUInt32 p.1) ++ bytesOf p.2

/-- What these bytes add to the hash. -/
def weight (p : FrameKey) : ℤ :=
  weigh 16777619 (changes 16777619 (2166136261 % 2 ^ 8) p.bytes)

/-- The hash of no bytes and what the bytes of `p` add come to `k`. -/
def ComesTo (p : FrameKey) (k : ℤ) : Prop :=
  2166136261 * 16777619 ^ 8 + p.weight ≡ k [ZMOD 2 ^ 31]

/-- The bytes of two frames add the same, or they come to 0 and 1, which are one id. -/
def Clash (p q : FrameKey) : Prop :=
  p.weight ≡ q.weight [ZMOD 2 ^ 31] ∨ p.ComesTo 0 ∧ q.ComesTo 1 ∨ p.ComesTo 1 ∧ q.ComesTo 0

/-- The value an id is made of. -/
def residue (p : FrameKey) : ℤ := (2166136261 * 16777619 ^ 8 + p.weight) % 2 ^ 31

theorem residue_eq_iff {p : FrameKey} {k : ℤ} (h0 : 0 ≤ k) (h : k < 2 ^ 31) :
    p.residue = k ↔ p.ComesTo k := by
  rw [residue, ComesTo, Int.ModEq, Int.emod_eq_of_lt h0 h]

theorem residue_eq {p q : FrameKey} : p.residue = q.residue ↔ p.weight ≡ q.weight [ZMOD 2 ^ 31] :=
  ⟨fun h => Int.ModEq.add_left_cancel' _ h, fun h => h.add_left _⟩

/-- The hash of a frame. -/
theorem hash_toNat (p : FrameKey) :
    (Factory.mix (Factory.mix 2166136261 (UInt32.ofNat (Factory.toUInt32 p.1)))
      (UInt32.ofNat p.2)).toNat = mixAll 32 16777619 2166136261 p.bytes := by
  rw [Factory.mix_toNat, Factory.mix_toNat, UInt32.toNat_ofNat', UInt32.toNat_ofNat', bytesOf_mod,
    bytesOf_mod, bytes, mixAll, mixAll, mixAll, List.foldl_append]
  rfl

theorem id_eq (p : FrameKey) : p.id = if p.residue = 0 then 1 else p.residue := by
  have hbytes : ∀ b ∈ p.bytes, b < 2 ^ 8 := by
    intro b hb
    rcases List.mem_append.1 hb with hb | hb
    · exact bytesOf_lt _ b hb
    · exact bytesOf_lt _ b hb
  have hhash := (mixAll_modEq 16777619 (show 8 ≤ 32 by norm_num) hbytes 2166136261).of_dvd
    (show (2 ^ 31 : ℤ) ∣ 2 ^ 32 by norm_num)
  have hresidue : ((mixAll 32 16777619 2166136261 p.bytes % 2 ^ 31 : ℕ) : ℤ) = p.residue := by
    push_cast
    exact hhash
  have hmask : ((0x7fffffff : UInt32)).toNat = 2 ^ 31 - 1 := rfl
  simp only [id, Factory.createFrameId]
  rw [UInt32.toNat_and, hash_toNat, hmask, Nat.and_two_pow_sub_one_eq_mod, ← hresidue]
  norm_cast

/-- **When two frames share an id.** -/
theorem id_eq_iff (p q : FrameKey) : p.id = q.id ↔ p.Clash q := by
  rw [Clash, ← residue_eq, ← residue_eq_iff le_rfl (by norm_num),
    ← residue_eq_iff le_rfl (by norm_num), ← residue_eq_iff zero_le_one (by norm_num),
    ← residue_eq_iff zero_le_one (by norm_num), id_eq, id_eq]
  split_ifs <;> omega

end FrameKey

/-! ## Registrations -/

/-- A call of `registerFrames`. -/
structure Registration where
  threadId : Int
  frames : List StackFrameInfo

namespace Registration

def keys (r : Registration) : List FrameKey := r.frames.map fun f => (r.threadId, f.frameNumber)

/-- The frames recorded since the last reset. -/
def recorded (rs : List Registration) : List FrameKey := rs.flatMap keys

/-- The contexts since the last reset. -/
def contexts (rs : List Registration) : AssocMap Int FrameContext :=
  rs.foldl (fun m r => Server.registerFrames r.threadId r.frames m) []

/-- The frame that an id is looked up to. -/
def lookup (rs : List Registration) (frameId : Int) : Option FrameKey :=
  ((contexts rs).get? frameId).map fun c => (c.threadId, c.frameNumber)

/-- Every recorded frame has an id of its own; the id the client gets finds it, and finds it again
after the registrations that follow. -/
structure Faithful (rs : List Registration) : Prop where
  distinct : ∀ p ∈ recorded rs, ∀ q ∈ recorded rs, p ≠ q → p.id ≠ q.id
  found : ∀ r ∈ rs, ∀ f ∈ r.frames,
    lookup rs (Factory.createStackFrame r.threadId f).id = some (r.threadId, f.frameNumber)
  kept : ∀ earlier later, rs = earlier ++ later →
    ∀ p ∈ recorded earlier, lookup rs p.id = lookup earlier p.id

/-! ### Lookups -/

/-- The last entry assigned under a key is found. -/
theorem get?_foldl_set {α κ ν : Type} [DecidableEq κ] (key : α → κ) (value : α → ν) (xs : List α)
    (m : AssocMap κ ν) (k : κ) :
    (xs.foldl (fun m x => m.set (key x) (value x)) m).get? k =
      ((xs.reverse.find? fun x => key x = k).map value).or (m.get? k) := by
  induction xs using List.reverseRecOn with
  | nil => rfl
  | append_singleton xs x ih =>
    rw [List.foldl_append, List.foldl_cons, List.foldl_nil, AssocMap.get?_set, List.reverse_append,
      List.reverse_singleton, List.singleton_append, List.find?_cons]
    by_cases hk : k = key x
    · simp [hk]
    · rw [if_neg hk, decide_eq_false (Ne.symm hk), ih]

/-- The frames recorded, with what is kept of each. -/
def entries (rs : List Registration) : List (Int × StackFrameInfo) :=
  rs.flatMap fun r => r.frames.map fun f => (r.threadId, f)

variable {rs : List Registration} {frameId : Int}

theorem recorded_eq : recorded rs = (entries rs).map fun e => (e.1, e.2.frameNumber) := by
  rw [entries, List.map_flatMap, recorded]
  simp only [List.map_map]
  rfl

theorem contexts_eq : contexts rs = (entries rs).foldl (fun (m : AssocMap Int FrameContext) e =>
    m.set (Factory.createFrameId e.1 e.2.frameNumber) ⟨e.1, e.2.frameNumber, e.2.source⟩) [] := by
  rw [entries, List.foldl_flatMap, contexts]
  simp only [List.foldl_map]
  rfl

/-- The frame that was recorded last under an id is found. -/
theorem lookup_eq : lookup rs frameId = (recorded rs).reverse.find? fun p => p.id = frameId := by
  rw [lookup, contexts_eq, get?_foldl_set, AssocMap.get?_nil, Option.or_none, Option.map_map,
    recorded_eq, ← List.map_reverse, List.find?_map]
  rfl

/-- What a lookup finds was recorded, under that id. -/
theorem mem_of_lookup {p : FrameKey} (h : lookup rs frameId = some p) :
    p ∈ recorded rs ∧ p.id = frameId := by
  rw [lookup_eq] at h
  have hid := List.find?_some h
  exact ⟨List.mem_reverse.1 (List.mem_of_find?_eq_some h), of_decide_eq_true hid⟩

/-- Under the id of a recorded frame some frame is found. -/
theorem lookup_isSome {p : FrameKey} (h : p ∈ recorded rs) : (lookup rs p.id).isSome := by
  rw [lookup_eq, List.find?_isSome]
  exact ⟨p, List.mem_reverse.2 h, decide_eq_true rfl⟩

theorem recorded_append (rs rs' : List Registration) :
    recorded (rs ++ rs') = recorded rs ++ recorded rs' := List.flatMap_append

/-! ### When lookups are faithful -/

/-- Distinct ids suffice. -/
theorem Faithful.of_distinct
    (h : ∀ p ∈ recorded rs, ∀ q ∈ recorded rs, p ≠ q → p.id ≠ q.id) : Faithful rs := by
  have found {rs' : List Registration} (hsub : recorded rs' ⊆ recorded rs) :
      ∀ p ∈ recorded rs', lookup rs' p.id = some p := by
    intro p hp
    obtain ⟨q, hq⟩ := Option.isSome_iff_exists.1 (lookup_isSome hp)
    obtain ⟨hmem, hid⟩ := mem_of_lookup hq
    rw [hq]
    by_contra hne
    exact h q (hsub hmem) p (hsub hp) (fun heq => hne (congrArg some heq)) hid
  refine ⟨h, ?_, ?_⟩
  · intro r hr f hf
    rw [FrameKey.createStackFrame_id]
    exact found (List.Subset.refl _) _ (List.mem_flatMap.2 ⟨r, hr, List.mem_map_of_mem hf⟩)
  · rintro earlier later rfl p hp
    have hsub : recorded earlier ⊆ recorded (earlier ++ later) := by
      rw [recorded_append]
      exact List.subset_append_left ..
    rw [found (List.Subset.refl _) p (hsub hp), found hsub p hp]

/-- **Lookups are faithful** if and only if no two recorded frames clash. -/
theorem faithful_iff (rs : List Registration) :
    Faithful rs ↔ ∀ p ∈ recorded rs, ∀ q ∈ recorded rs, p ≠ q → ¬p.Clash q := by
  constructor
  · intro h p hp q hq hne hclash
    exact h.distinct p hp q hq hne ((p.id_eq_iff q).2 hclash)
  · intro h
    refine .of_distinct fun p hp q hq hne hid => ?_
    exact h p hp q hq hne ((p.id_eq_iff q).1 hid)

/-- The top frame of one thread has the id of frame 120 of another. -/
theorem frame_redirected : ¬∀ rs, Faithful rs := by
  intro hall
  have hfaithful := hall [⟨1588440, [{ frameNumber := 120 }]⟩, ⟨2097164, [{ frameNumber := 0 }]⟩]
  have hid : FrameKey.id (1588440, 120) = FrameKey.id (2097164, 0) := by decide
  exact hfaithful.distinct (1588440, 120) (.head _) (2097164, 0) (.tail _ (.head _)) nofun hid

end Registration

end DapDbgeng
