/-
  Accounts of live resources.

  Each live resource is held by exactly one holder, and nothing is held that is not live.  Main
  results: the account stays balanced when a holder gives a resource up (`Accounted.drop`), gets a
  new one (`Accounted.add`), or hands all it has over (`Accounted.move`).
-/
import Mathlib.Data.List.Nodup
import Mathlib.Logic.Function.Basic

/-- `own` are the live resources and `held` what each holder has. -/
structure Accounted {ι α : Type*} (own : List α) (held : ι → List α) : Prop where
  owned : ∀ x ∈ own, ∃ h, x ∈ held h
  live : ∀ h, ∀ x ∈ held h, x ∈ own
  one : ∀ {h k x}, x ∈ held h → x ∈ held k → h = k
  nodup : ∀ h, (held h).Nodup

namespace Accounted

variable {ι α : Type*} {own : List α} {held : ι → List α} {h k : ι}
  {x : α}

/-- Exactly one holder has a live resource. -/
theorem unique (hb : Accounted own held) (hx : x ∈ own) : ∃! h, x ∈ held h := by
  obtain ⟨h, hh⟩ := hb.owned x hx
  exact ⟨h, hh, fun _ hh' => hb.one hh' hh⟩

variable [DecidableEq ι]

theorem mem_update {held : ι → List α} {k : ι} {xs : List α} {x : α} :
    x ∈ Function.update held h xs k ↔ (k = h ∧ x ∈ xs) ∨ (k ≠ h ∧ x ∈ held k) := by
  by_cases hk : k = h
  · subst hk; simp
  · simp [hk]

theorem drop [DecidableEq α] {xs : List α} (hb : Accounted own held) (hh : held h = x :: xs) :
    Accounted (own.filter (· ≠ x)) (Function.update held h xs) := by
  have hnd : x ∉ xs ∧ xs.Nodup := List.nodup_cons.1 (hh ▸ hb.nodup h)
  have hmem {y : α} : y ∈ held h ↔ y = x ∨ y ∈ xs := by rw [hh, List.mem_cons]
  -- what another holder has is not what is given up
  have hne {k : ι} {y : α} (hk : k ≠ h) (hy : y ∈ held k) : y ≠ x := by
    rintro rfl
    exact hk (hb.one hy (hmem.2 (.inl rfl)))
  constructor
  · intro y hy
    obtain ⟨hy, hyx⟩ := List.mem_filter.1 hy
    obtain ⟨k, hk⟩ := hb.owned y hy
    refine ⟨k, mem_update.2 ?_⟩
    by_cases hkh : k = h
    · subst hkh
      exact .inl ⟨rfl, (hmem.1 hk).resolve_left (by simpa using hyx)⟩
    · exact .inr ⟨hkh, hk⟩
  · intro k y hy
    rw [List.mem_filter]
    rcases mem_update.1 hy with ⟨-, hxs⟩ | ⟨hk, hheld⟩
    · refine ⟨hb.live h y (hmem.2 (.inr hxs)), ?_⟩
      have : y ≠ x := by rintro rfl; exact hnd.1 hxs
      simpa using this
    · exact ⟨hb.live k y hheld, by simpa using hne hk hheld⟩
  · intro k k' y hy hy'
    have held_of {j : ι} (hj : y ∈ Function.update held h xs j) : y ∈ held j := by
      rcases mem_update.1 hj with ⟨rfl, hxs⟩ | ⟨-, hheld⟩
      · exact hmem.2 (.inr hxs)
      · exact hheld
    exact hb.one (held_of hy) (held_of hy')
  · intro k
    by_cases hk : k = h
    · subst hk; simpa using hnd.2
    · simpa [hk] using hb.nodup k

/-- A holder gives up all it has. -/
theorem dropAll [DecidableEq α] {xs : List α} (hb : Accounted own held) (hh : held h = xs) :
    Accounted (own.filter (· ∉ xs)) (Function.update held h []) := by
  induction xs generalizing own held with
  | nil =>
    rw [← hh, Function.update_eq_self, hh]
    simpa using hb
  | cons x xs ih =>
    have hrest := ih (hb.drop hh) (Function.update_self _ _ _)
    rw [Function.update_idem, List.filter_filter] at hrest
    refine cast (congrArg (fun own => Accounted own _) (List.filter_congr fun y _ => ?_)) hrest
    rw [Bool.eq_iff_iff]
    simp [and_comm]

theorem add (hb : Accounted own held) (hx : x ∉ own) (h : ι) :
    Accounted (own ++ [x]) (Function.update held h (held h ++ [x])) := by
  have hnew (k : ι) : x ∉ held k := fun hk => hx (hb.live k x hk)
  have hmem {k : ι} {y : α} : y ∈ Function.update held h (held h ++ [x]) k ↔
      y ∈ held k ∨ k = h ∧ y = x := by
    rw [mem_update]
    by_cases hk : k = h
    · subst hk; simp
    · simp [hk]
  constructor
  · intro y hy
    rcases List.mem_append.1 hy with hy | hy
    · obtain ⟨k, hk⟩ := hb.owned y hy
      exact ⟨k, hmem.2 (.inl hk)⟩
    · exact ⟨h, hmem.2 (.inr ⟨rfl, List.mem_singleton.1 hy⟩)⟩
  · intro k y hy
    rcases hmem.1 hy with hy | ⟨-, rfl⟩
    · exact List.mem_append_left _ (hb.live k y hy)
    · simp
  · intro k k' y hy hy'
    rcases hmem.1 hy with hk | ⟨hk, hyx⟩ <;> rcases hmem.1 hy' with hk' | ⟨hk', hyx'⟩
    · exact hb.one hk hk'
    · exact absurd (hyx' ▸ hk) (hnew k)
    · exact absurd (hyx ▸ hk') (hnew k')
    · rw [hk, hk']
  · intro k
    by_cases hk : k = h
    · subst hk
      rw [Function.update_self, List.nodup_append]
      refine ⟨hb.nodup k, by simp, fun y hy z hz => ?_⟩
      rintro rfl
      exact hnew k ((List.mem_singleton.1 hz) ▸ hy)
    · simpa [hk] using hb.nodup k

theorem move (hb : Accounted own held) (hne : h ≠ k) :
    Accounted own (Function.update (Function.update held h []) k (held k ++ held h)) := by
  -- who had it before
  have hmem {j : ι} {y : α} :
      y ∈ Function.update (Function.update held h []) k (held k ++ held h) j ↔
        j = k ∧ y ∈ held h ∨ j ≠ h ∧ y ∈ held j := by
    by_cases hk' : j = k
    · subst hk'
      simp [hne.symm, or_comm]
    · by_cases hk : j = h
      · subst hk; simp [hk']
      · simp [hk, hk']
  constructor
  · intro y hy
    obtain ⟨j, hk⟩ := hb.owned y hy
    by_cases hjh : j = h
    · subst hjh
      exact ⟨k, hmem.2 (.inl ⟨rfl, hk⟩)⟩
    · exact ⟨j, hmem.2 (.inr ⟨hjh, hk⟩)⟩
  · intro j y hy
    rcases hmem.1 hy with ⟨-, hy⟩ | ⟨-, hy⟩ <;> exact hb.live _ _ hy
  · intro j j' y hy hy'
    rcases hmem.1 hy with ⟨rfl, hk⟩ | ⟨hjh, hk⟩ <;> rcases hmem.1 hy' with ⟨rfl, hk'⟩ | ⟨hjh', hk'⟩
    · rfl
    · exact absurd (hb.one hk' hk) hjh'
    · exact absurd (hb.one hk hk') hjh
    · exact hb.one hk hk'
  · intro j
    by_cases hk : j = k
    · subst hk
      rw [Function.update_self, List.nodup_append]
      refine ⟨hb.nodup j, hb.nodup h, fun y hy z hz => ?_⟩
      rintro rfl
      exact hne (hb.one hz hy)
    · by_cases hk' : j = h
      · subst hk'; simp [hk]
      · simpa [hk, hk'] using hb.nodup j

end Accounted
