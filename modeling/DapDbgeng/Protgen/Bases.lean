/-
  The bases of a class.

  The generator reads the properties of the bases of a class right after it has entered the class
  with its base, so none of the classes it has entered when it ends is a base of its own.

  * `Generator.Bases`: the bases of a class, the root first;
  * `Bases.length_le`: they are different classes, but for a root that is none;
  * `generate_bases`: they end for every class that is generated;
  * `baseChain_eq`: so does the loop that collects them.
-/
import DapDbgeng.Protgen.Header

namespace DapDbgeng.Protgen

namespace Generator

def base (g : Generator) (name : String) : Option String :=
  (g.classes.get? name).bind fun model => model.baseClass

inductive Bases (g : Generator) : String → List String → Prop where
  | root {name : String} : g.base name = none → g.Bases name [name]
  | derived {name base : String} {chain : List String} : g.base name = some base →
      g.Bases base chain → g.Bases name (chain ++ [name])

variable {g g' : Generator} {name : String} {chain chain' : List String}

/-- The loop that collects the bases ends. -/
theorem baseChain_eq (h : g.Bases name chain) {bound : Nat} (hbound : chain.length ≤ bound) :
    g.baseChain bound name = some chain := by
  induction h generalizing bound with
  | root hbase =>
    obtain ⟨bound, rfl⟩ : ∃ b, bound = b + 1 := ⟨bound - 1, by simp at hbound; omega⟩
    rw [baseChain, show (g.classes.get? _).bind _ = none from hbase]
  | derived hbase _ ih =>
    rw [List.length_append, List.length_singleton] at hbound
    obtain ⟨bound, rfl⟩ : ∃ b, bound = b + 1 := ⟨bound - 1, by omega⟩
    rw [baseChain, show (g.classes.get? _).bind _ = some _ from hbase]
    dsimp only
    rw [ih (by omega)]
    rfl

namespace Bases

theorem unique (h : g.Bases name chain) (h' : g.Bases name chain') : chain = chain' := by
  have heq := baseChain_eq h (Nat.le_max_left chain.length chain'.length)
  rw [baseChain_eq h' (Nat.le_max_right chain.length chain'.length)] at heq
  exact (Option.some.inj heq).symm

/-- A base has its bases before it. -/
theorem of_mem (h : g.Bases name chain) {c : String} (hc : c ∈ chain) :
    ∃ bases, g.Bases c bases ∧ bases.length ≤ chain.length := by
  induction h with
  | root hbase =>
    rw [List.mem_singleton.1 hc]
    exact ⟨_, .root hbase, le_rfl⟩
  | derived hbase hbases ih =>
    rw [List.length_append, List.length_singleton]
    rcases List.mem_append.1 hc with hc | hc
    · obtain ⟨bases, hc, hle⟩ := ih hc
      exact ⟨bases, hc, by omega⟩
    · rw [List.mem_singleton.1 hc]
      exact ⟨_, .derived hbase hbases, by simp⟩

theorem nodup (h : g.Bases name chain) : chain.Nodup := by
  induction h with
  | root => exact List.nodup_singleton _
  | derived hbase hbases ih =>
    rw [List.nodup_append]
    refine ⟨ih, List.nodup_singleton _, ?_⟩
    rintro a ha b hb rfl
    obtain ⟨bases, hbases', hle⟩ := hbases.of_mem ha
    rw [List.mem_singleton.1 hb] at hbases'
    rw [← unique (.derived hbase hbases) hbases', List.length_append, List.length_singleton] at hle
    omega

theorem mem_classes {base : String} (h : g.base name = some base) : name ∈ g.classes.keys := by
  obtain ⟨model, hmodel, -⟩ := Option.bind_eq_some_iff.1 h
  exact Dict.mem_keys.2 ⟨model, hmodel⟩

/-- All but the root have a base. -/
theorem eq_cons (h : g.Bases name chain) :
    ∃ root derived, chain = root :: derived ∧ derived ⊆ g.classes.keys := by
  induction h with
  | root => exact ⟨_, [], rfl, List.nil_subset _⟩
  | derived hbase _ ih =>
    obtain ⟨root, derived, rfl, hsub⟩ := ih
    exact ⟨root, derived ++ [_], rfl, List.append_subset.2
      ⟨hsub, List.cons_subset.2 ⟨mem_classes hbase, List.nil_subset _⟩⟩⟩

theorem length_le (h : g.Bases name chain) : chain.length ≤ g.classes.length + 1 := by
  have hnodup := h.nodup
  obtain ⟨root, derived, rfl, hsub⟩ := h.eq_cons
  have hle := ((List.nodup_cons.1 hnodup).2.subperm hsub).length_le
  rw [Dict.keys, List.length_map] at hle
  rw [List.length_cons]
  omega

theorem self_mem (h : g.Bases name chain) : name ∈ chain := by
  cases h with
  | root => exact .head _
  | derived => exact List.mem_append_right _ (.head _)

end Bases

/-- Reading the properties of the bases of a class that has the base walks along all of them. -/
theorem bases_of_inherited {bound : Nat} {base : String} {inherited : Dict Property}
    (h : g.inheritedProperties bound (some base) = some inherited) :
    ∃ chain, g.Bases base chain := by
  induction bound generalizing base inherited with
  | zero => cases h
  | succ bound ih =>
    rw [inheritedProperties] at h
    split at h
    · rename_i hclass
      exact ⟨_, .root (by rw [Generator.base, hclass]; rfl)⟩
    · rename_i model hclass
      obtain ⟨ps, hps, -⟩ := Option.bind_eq_some_iff.1 h
      have hbase : g.base base = model.baseClass := by
        rw [Generator.base, hclass]
        rfl
      cases hmodel : model.baseClass with
      | none => exact ⟨_, .root (hbase.trans hmodel)⟩
      | some base' =>
        rw [hmodel] at hps
        obtain ⟨chain, hchain⟩ := ih hps
        exact ⟨_, .derived (hbase.trans hmodel) hchain⟩

/-- The bases end for every name. -/
def BasesEnd (g : Generator) : Prop := ∀ name, ∃ chain, g.Bases name chain

theorem BasesEnd.congr (h : g.BasesEnd) (hbase : ∀ name, g'.base name = g.base name) :
    g'.BasesEnd := by
  intro name
  obtain ⟨chain, hchain⟩ := h name
  refine ⟨chain, ?_⟩
  induction hchain with
  | root hnone => exact .root ((hbase _).trans hnone)
  | derived hsome _ ih => exact .derived ((hbase _).trans hsome) ih

/-- A class is entered, with bases that end. -/
theorem BasesEnd.enter (h : g.BasesEnd) {entered : String}
    (hbase : ∀ name, name ≠ entered → g'.base name = g.base name)
    (hentered : ∃ chain, g'.Bases entered chain) : g'.BasesEnd := by
  intro name
  obtain ⟨chain, hchain⟩ := h name
  induction hchain with
  | @root name hnone =>
    by_cases hname : name = entered
    · exact hname ▸ hentered
    · exact ⟨_, .root ((hbase name hname).trans hnone)⟩
  | @derived name _ _ hsome _ ih =>
    by_cases hname : name = entered
    · exact hname ▸ hentered
    · obtain ⟨chain, hchain⟩ := ih
      exact ⟨_, .derived ((hbase name hname).trans hsome) hchain⟩

theorem base_modifyClass {f : ClassModel → ClassModel}
    (hf : ∀ model, (f model).baseClass = model.baseClass) (owner name : String) :
    (g.modifyClass owner f).base name = g.base name := by
  rw [modifyClass]
  split
  · rfl
  · rename_i model hmodel
    rw [base, base, Dict.get?_set]
    split
    · rename_i hname
      rw [hname, hmodel, Option.bind_some, Option.bind_some, hf]
    · rfl

end Generator

/-- The bases end for every class that is generated. -/
theorem generate_bases {u : Unicode} {definitions : Dict Schema} {depth : Nat} {g : Generator}
    (h : generate u definitions depth = some g) : g.BasesEnd := by
  refine generate_keeps definitions (I := Generator.BasesEnd) ⟨?_, ?_, ?_, ?_⟩ ?_ h
  · rintro g names hg
    exact hg.congr fun _ => rfl
  · rintro g name schema hg
    exact hg.congr fun _ => rfl
  · rintro g owner f hf hg
    exact hg.congr (Generator.base_modifyClass hf owner)
  · rintro g g' entered base inherited rfl hinherited hg
    have hget (name : String) : Generator.base
        { g with classes := g.classes.set entered { baseClass := base } } name =
          if name = entered then base else g.base name := by
      rw [Generator.base, Dict.get?_set]
      split <;> rfl
    refine hg.enter (fun name hname => (hget name).trans (if_neg hname)) ?_
    cases base with
    | none => exact ⟨_, .root ((hget entered).trans (if_pos rfl))⟩
    | some base =>
      obtain ⟨chain, hchain⟩ := Generator.bases_of_inherited hinherited
      exact ⟨_, .derived ((hget entered).trans (if_pos rfl)) hchain⟩
  · exact fun name => ⟨_, .root rfl⟩

end DapDbgeng.Protgen
