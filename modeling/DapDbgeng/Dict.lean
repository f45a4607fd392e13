/-
  Dictionaries that keep the order in which their keys were first set.

  * `Dict.set`: assigns in place, or appends;
  * `Dict.get?_set`, `Dict.keys_set`, `Dict.nodup_set`: what it does to lookups and keys;
  * `Dict.get?_eq_some`: with distinct keys, lookups are membership;
  * `unused`: the first text with a number at its end that is not taken.
-/
import Mathlib.Data.List.Basic
import Mathlib.Data.List.Nodup
import Mathlib.Data.List.Perm.Subperm
import Mathlib.Data.List.Range

abbrev Dict (ν : Type) := List (String × ν)

namespace Dict

variable {ν ν' : Type}

def keys (d : Dict ν) : List String := d.map Prod.fst

def get? : Dict ν → String → Option ν
  | [], _ => none
  | (k, v) :: d, key => if k = key then some v else get? d key

/-- Assign in place, or append. -/
def set : Dict ν → String → ν → Dict ν
  | [], key, v => [(key, v)]
  | (k, w) :: d, key, v => if k = key then (k, v) :: d else (k, w) :: set d key v

/-- `update`: every entry of the second, in its order. -/
def update (d : Dict ν) (entries : Dict ν) : Dict ν :=
  entries.foldl (fun d e => d.set e.1 e.2) d

@[simp] theorem get?_nil (key : String) : get? ([] : Dict ν) key = none := rfl

theorem get?_cons (e : String × ν) (d : Dict ν) (key : String) :
    get? (e :: d) key = if e.1 = key then some e.2 else get? d key := rfl

theorem get?_append (d d' : Dict ν) (key : String) :
    get? (d ++ d') key = (get? d key).or (get? d' key) := by
  induction d with
  | nil => rfl
  | cons e d ih =>
    rw [List.cons_append, get?_cons, get?_cons, ih]
    split <;> rfl

@[simp] theorem keys_nil : keys ([] : Dict ν) = [] := rfl

@[simp] theorem keys_cons (e : String × ν) (d : Dict ν) : keys (e :: d) = e.1 :: keys d := rfl

theorem get?_set (d : Dict ν) (k key : String) (v : ν) :
    (d.set k v).get? key = if key = k then some v else d.get? key := by
  induction d with
  | nil => simp [set, get?_cons, eq_comm]
  | cons e d ih =>
    rw [set]
    by_cases hk : e.1 = k
    · subst hk
      rw [if_pos rfl, get?_cons, get?_cons]
      by_cases hkey : e.1 = key
      · simp [hkey]
      · simp [hkey, Ne.symm hkey]
    · rw [if_neg hk, get?_cons, get?_cons, ih]
      by_cases hkey : e.1 = key
      · subst hkey
        simp [hk]
      · simp [hkey]

theorem keys_set (d : Dict ν) (k : String) (v : ν) :
    (d.set k v).keys = if k ∈ d.keys then d.keys else d.keys ++ [k] := by
  induction d with
  | nil => rfl
  | cons e d ih =>
    rw [set]
    by_cases hk : e.1 = k
    · simp [hk]
    · rw [if_neg hk, keys_cons, ih, keys_cons]
      by_cases hmem : k ∈ keys d
      · simp [hmem]
      · simp [hmem, Ne.symm hk]

theorem nodup_set {d : Dict ν} (h : d.keys.Nodup) (k : String) (v : ν) :
    (d.set k v).keys.Nodup := by
  rw [keys_set]
  split
  · exact h
  · rename_i hk
    rw [List.nodup_append]
    refine ⟨h, List.nodup_singleton k, ?_⟩
    rintro a ha b hb rfl
    rw [List.mem_singleton.1 hb] at ha
    exact hk ha

theorem nodup_update {d : Dict ν} (h : d.keys.Nodup) (entries : Dict ν) :
    (d.update entries).keys.Nodup := by
  induction entries generalizing d with
  | nil => exact h
  | cons e entries ih => exact ih (nodup_set h _ _)

theorem mem_of_get? {d : Dict ν} {key : String} {v : ν} (h : d.get? key = some v) :
    (key, v) ∈ d := by
  induction d with
  | nil => cases h
  | cons e d ih =>
    rw [get?_cons] at h
    split at h
    · rename_i hkey
      cases h
      subst hkey
      exact .head _
    · exact .tail _ (ih h)

theorem mem_keys {d : Dict ν} {key : String} : key ∈ d.keys ↔ ∃ v, d.get? key = some v := by
  induction d with
  | nil => simp
  | cons e d ih =>
    rw [keys_cons, List.mem_cons, get?_cons, ih]
    by_cases hkey : e.1 = key
    · simp [hkey]
    · simp [hkey, Ne.symm hkey]

theorem get?_eq_none {d : Dict ν} {key : String} : d.get? key = none ↔ key ∉ d.keys := by
  rw [mem_keys]
  cases h : d.get? key <;> simp

theorem get?_eq_some {d : Dict ν} (h : d.keys.Nodup) {key : String} {v : ν} :
    d.get? key = some v ↔ (key, v) ∈ d := by
  refine ⟨mem_of_get?, fun hmem => ?_⟩
  induction d with
  | nil => cases hmem
  | cons e d ih =>
    rw [keys_cons, List.nodup_cons] at h
    rw [get?_cons]
    rcases List.mem_cons.1 hmem with rfl | hmem
    · exact if_pos rfl
    · rw [if_neg, ih h.2 hmem]
      rintro rfl
      exact h.1 (List.mem_map.2 ⟨_, hmem, rfl⟩)

/-- Dictionaries with the same keys in the same order are the same if their lookups are. -/
theorem ext_get? {d d' : Dict ν} (hkeys : d.keys = d'.keys) (hnodup : d.keys.Nodup)
    (h : ∀ key, d.get? key = d'.get? key) : d = d' := by
  induction d generalizing d' with
  | nil =>
    cases d' with
    | nil => rfl
    | cons => cases hkeys
  | cons e d ih =>
    cases d' with
    | nil => cases hkeys
    | cons e' d' =>
      obtain ⟨hkey, htail⟩ := List.cons.inj hkeys
      rw [keys_cons, List.nodup_cons] at hnodup
      have hhead := h e.1
      rw [get?_cons, get?_cons, if_pos rfl, if_pos hkey.symm] at hhead
      have hrest : d = d' := ih htail hnodup.2 fun key => by
        have hget := h key
        rw [get?_cons, get?_cons, ← hkey] at hget
        by_cases hk : e.1 = key
        · have hnone : get? d key = none := get?_eq_none.2 (hk ▸ hnodup.1)
          have hnone' : get? d' key = none := get?_eq_none.2 (by
            rw [← hk]
            exact fun hmem => hnodup.1 (by rw [show keys d = keys d' from htail]; exact hmem))
          rw [hnone, hnone']
        · rwa [if_neg hk, if_neg hk] at hget
      rw [hrest, Prod.ext hkey (Option.some.inj hhead)]

end Dict

/-! ## Unused names -/

/-- The text itself, or with the first number from 2 on that makes it a new one. -/
def unused (taken : List String) (base : String) : String :=
  if base ∈ taken then
    (((List.range (taken.length + 1)).map fun k => base ++ toString (k + 2)).find?
      fun name => name ∉ taken).getD base
  else base

theorem append_toString_injective (base : String) :
    Function.Injective fun k : Nat => base ++ toString (k + 2) := by
  intro a b h
  have hlist := congrArg String.toList h
  simp only [String.toList_append, List.append_cancel_left_eq] at hlist
  have hnat (k : Nat) : (toString (k + 2)).toList = Nat.toDigits 10 (k + 2) := Nat.toList_repr
  rw [hnat, hnat] at hlist
  have hdigits := congrArg (Nat.ofDigitChars 10 · 0) hlist
  simp only [Nat.ofDigitChars_ten_toDigits] at hdigits
  omega

/-- One of one more names than are taken is free. -/
theorem unused_not_mem (taken : List String) (base : String) : unused taken base ∉ taken := by
  rw [unused]
  split
  · rename_i hbase
    set names := (List.range (taken.length + 1)).map fun k => base ++ toString (k + 2) with hnames
    have hnodup : names.Nodup :=
      List.Nodup.map (append_toString_injective base) List.nodup_range
    cases hfind : names.find? fun name => name ∉ taken with
    | some name => simpa using List.find?_some hfind
    | none =>
      exfalso
      have hsub : names ⊆ taken := fun name hmem => by
        simpa using List.find?_eq_none.1 hfind name hmem
      have hlength := (hnodup.subperm hsub).length_le
      rw [hnames, List.length_map, List.length_range] at hlength
      omega
  · assumption
