/-
  What all emitted headers have in common.

  * `Keeps`: what a visit of the generator does not change, one rule for each step;
  * `generate_keeps`: what the steps keep holds of what is generated;
  * `enums_distinct`: the members of an enumeration have different names;
  * `Program.Consistent`: so have the wire names of a struct, and a struct is constructed with what
    its members are initialized with;
  * `program_consistent`: every emitted header is so.
-/
import DapDbgeng.Protgen.Emitted

namespace Dict

variable {ν : Type}

theorem forall_set {Q : String → ν → Prop} {d : Dict ν} (h : ∀ e ∈ d, Q e.1 e.2) {k : String}
    {v : ν} (hk : Q k v) : ∀ e ∈ d.set k v, Q e.1 e.2 := by
  induction d with
  | nil =>
    rintro e he
    rw [set, List.mem_singleton] at he
    subst he
    exact hk
  | cons e₀ d ih =>
    rintro e he
    rw [set] at he
    split at he
    · rename_i heq
      rcases List.mem_cons.1 he with rfl | he
      · exact heq ▸ hk
      · exact h e (.tail _ he)
    · rcases List.mem_cons.1 he with rfl | he
      · exact h _ (.head _)
      · exact ih (fun e he => h e (.tail _ he)) e he

theorem forall_update {Q : String → ν → Prop} {d entries : Dict ν} (h : ∀ e ∈ d, Q e.1 e.2)
    (hentries : ∀ e ∈ entries, Q e.1 e.2) : ∀ e ∈ d.update entries, Q e.1 e.2 := by
  induction entries generalizing d with
  | nil => exact h
  | cons e entries ih =>
    exact ih (forall_set h (hentries e (.head _))) fun e he => hentries e (.tail _ he)

end Dict

namespace DapDbgeng.Protgen

/-! ## Visits -/

/-- A visit that ends keeps the property of the tables. -/
def Keeps (I : Generator → Prop) {α : Type} (m : Gen α) : Prop :=
  ∀ g a g', m.run g = some (a, g') → I g → I g'

namespace Keeps

variable {I : Generator → Prop} {α α' : Type}

theorem pure (a : α) : Keeps I (Pure.pure a : Gen α) := by
  rintro g b g' h hg
  cases h
  exact hg

theorem bind {m : Gen α} {f : α → Gen α'} (hm : Keeps I m) (hf : ∀ a, Keeps I (f a)) :
    Keeps I (m >>= f) := by
  rintro g b g' h hg
  rw [StateT.run_bind] at h
  obtain ⟨⟨a, g₁⟩, h₁, h₂⟩ := Option.bind_eq_some_iff.1 h
  exact hf a g₁ b g' h₂ (hm g a g₁ h₁ hg)

theorem get : Keeps I (MonadState.get : Gen Generator) := by
  rintro g b g' h hg
  cases h
  exact hg

theorem modifies {f : Generator → Generator} (hf : ∀ g, I g → I (f g)) :
    Keeps I (modify f : Gen Unit) := by
  rintro g b g' h hg
  cases h
  exact hf g hg

theorem failure : Keeps I (Alternative.failure : Gen α) := by
  rintro g b g' h
  cases h

theorem forM {β : Type} {f : β → Gen PUnit} {xs : List β} (hf : ∀ x ∈ xs, Keeps I (f x)) :
    Keeps I (xs.forM f) := by
  induction xs with
  | nil => exact pure _
  | cons x xs ih =>
    exact bind (hf x (.head _)) fun _ => ih fun y hy => hf y (.tail _ hy)

end Keeps

/-- What the steps of the generator keep.  A class is entered with its base, and the properties of
its bases are read right after. -/
structure KeptBySteps (u : Unicode) (I : Generator → Prop) : Prop where
  names : ∀ {g : Generator} (names : Dict String), I g → I { g with definitionTypeNames := names }
  enum : ∀ {g : Generator} (name : String) (schema : Schema), I g →
    I { g with enums := g.enums.set name (enumValues u [] (schemaEnumValues schema) []) }
  modifyClass : ∀ {g : Generator} (owner : String) {f : ClassModel → ClassModel},
    (∀ model, (f model).baseClass = model.baseClass) → I g → I (g.modifyClass owner f)
  enter : ∀ {g g' : Generator} {name : String} {base : Option String} {inherited : Dict Property},
    g' = { g with classes := g.classes.set name { baseClass := base } } →
      g'.inheritedProperties (g'.classes.length + 1) base = some inherited → I g → I g'

section

variable {u : Unicode} (definitions : Dict Schema)

/-- All visits keep what the steps keep. -/
theorem visits_keep {I : Generator → Prop} (hI : KeptBySteps u I) (depth : Nat) :
    (∀ name, Keeps I (ensureDefinitionType u definitions depth name)) ∧
      (∀ entries, Keeps I (ensureBase u definitions depth entries)) ∧
        (∀ schema, Keeps I (normalizeObjectSchema u definitions depth schema)) ∧
          (∀ schema preferred, Keeps I (ensureClass u definitions depth schema preferred)) ∧
            (∀ owner inherited name schema required,
              Keeps I (ensureProperty u definitions depth owner inherited name schema required)) ∧
              (∀ schema owner prop required,
                Keeps I (mapType u definitions depth schema owner prop required)) ∧
                (∀ schema owner prop,
                  Keeps I (mapArrayItem u definitions depth schema owner prop)) ∧
                  ∀ additional owner prop,
                    Keeps I (mapAdditional u definitions depth additional owner prop) := by
  have hnames (name typeName : String) : Keeps I (modify fun g =>
      { g with definitionTypeNames := g.definitionTypeNames.set name typeName } : Gen Unit) :=
    .modifies fun g hg => hI.names _ hg
  have hclass (owner : String) {f : ClassModel → ClassModel}
      (hf : ∀ model, (f model).baseClass = model.baseClass) :
      Keeps I (modify fun g => g.modifyClass owner f : Gen Unit) :=
    .modifies fun g hg => hI.modifyClass owner hf hg
  have henum (schema : Schema) (preferred : String) : Keeps I (ensureEnum u schema preferred) := by
    refine .bind .get fun g => ?_
    dsimp only
    split
    · exact .pure _
    split
    · exact .pure _
    · exact .bind (.modifies fun g hg => hI.enum _ schema hg) fun _ => .pure _
  have henter {α : Type} (name : String) (base : Option String) {k : Dict Property → Gen α}
      (hk : ∀ inherited, Keeps I (k inherited)) : Keeps I (do
        modify fun g => { g with classes := g.classes.set name { baseClass := base } }
        let g ← get
        let inherited ← liftM (g.inheritedProperties (g.classes.length + 1) base)
        k inherited) := by
    rintro g a g' h hg
    obtain ⟨⟨inherited, _⟩, hlift, h⟩ := Option.bind_eq_some_iff.1 h
    obtain ⟨_, hread, hpair⟩ := Option.bind_eq_some_iff.1 hlift
    cases hpair
    exact hk inherited _ _ _ h (hI.enter rfl hread hg)
  induction depth with
  | zero => exact ⟨fun _ => .failure, fun _ => .failure, fun _ => .failure, fun _ _ => .failure,
      fun _ _ _ _ _ => .failure, fun _ _ _ _ => .failure, fun _ _ _ => .failure,
      fun _ _ _ => .failure⟩
  | succ depth ih =>
    obtain ⟨hdefinition, hbase, hobject, hensure, hproperty, hmap, hitem, hadditional⟩ := ih
    refine ⟨fun name => ?_, fun entries => ?_, fun schema => ?_, fun schema preferred => ?_,
      fun owner inherited name schema required => ?_, fun schema owner prop required => ?_,
      fun schema owner prop => hmap _ _ _ _, fun additional owner prop => ?_⟩
    · rw [ensureDefinitionType]
      refine .bind .get fun g => ?_
      dsimp only
      split
      · exact .pure _
      split
      · exact .bind (hnames _ _) fun _ => .pure _
      split
      · exact .failure
      split
      · exact .bind (hensure _ _) fun _ => .bind (hnames _ _) fun _ => .pure _
      · exact .bind (henum _ _) fun _ => .bind (hnames _ _) fun _ => .pure _
    · rw [ensureBase]
      split
      · exact .pure _
      · exact .bind (hdefinition _) fun _ => .pure _
    · rw [normalizeObjectSchema]
      split
      · exact .pure _
      · exact .bind (hbase _) fun _ => .pure _
    · rw [ensureClass]
      refine .bind .get fun g => ?_
      dsimp only
      split
      · exact .pure _
      split
      · exact .pure _
      · exact .bind (hobject _) fun o => henter _ _ fun _ =>
          .bind (.forM fun _ _ => hproperty _ _ _ _ _) fun _ => .pure _
    · rw [ensureProperty]
      split
      · exact hclass _ fun _ => rfl
      · exact .bind (hmap _ _ _ _) fun _ => .bind .get fun _ => hclass _ fun _ => rfl
    · rw [mapType]
      split
      · exact .bind (hdefinition _) fun _ => .bind .get fun _ => .pure _
      split
      · exact .bind (henum _ _) fun _ => .pure _
      split
      · exact .pure _
      split
      · split
        · exact hmap _ _ _ _
        · exact .pure _
      split
      · exact .bind (hitem _ _ _) fun _ => .pure _
      split
      · split
        · exact .bind (hadditional _ _ _) fun _ => .pure _
        split
        · exact .bind (hensure _ _) fun _ => .pure _
        · exact .pure _
      · exact .pure _
    · cases additional with
      | inl b => exact .pure _
      | inr schema => exact hmap _ _ _ _

theorem enumValues_nodup {seen values : List String} {members : List EnumValueModel}
    (hnames : (members.map EnumValueModel.name).Nodup)
    (hseen : ∀ m ∈ members, m.name ∈ seen) :
    ((enumValues u seen values members).map EnumValueModel.name).Nodup := by
  induction values generalizing seen members with
  | nil => exact hnames
  | cons value values ih =>
    have hnew := unused_not_mem seen (u.enumMemberName value members.length)
    refine ih ?_ ?_
    · rw [List.map_append, List.nodup_append]
      refine ⟨hnames, List.nodup_singleton _, ?_⟩
      rintro a ha b hb rfl
      obtain ⟨m, hm, rfl⟩ := List.mem_map.1 ha
      rw [List.map_singleton, List.mem_singleton] at hb
      have hmem := hseen m hm
      rw [hb] at hmem
      exact hnew hmem
    · rintro m hm
      rcases List.mem_append.1 hm with hm | hm
      · exact .tail _ (hseen m hm)
      · rw [List.mem_singleton.1 hm]
        exact .head _

/-- What the steps keep holds of what is generated. -/
theorem generate_keeps {I : Generator → Prop} (hI : KeptBySteps u I) (hempty : I {}) {depth : Nat}
    {g : Generator} (h : generate u definitions depth = some g) : I g := by
  obtain ⟨⟨_, g'⟩, hrun, hg⟩ := Option.bind_eq_some_iff.1 h
  cases hg
  exact Keeps.forM (fun d _ => .bind ((visits_keep definitions hI depth).1 d.1) fun _ => .pure _)
    _ _ _ hrun hempty

/-- The members of an enumeration have different names. -/
theorem enums_distinct {depth : Nat} {g : Generator} (h : generate u definitions depth = some g) :
    ∀ e ∈ g.enums, (e.2.map EnumValueModel.name).Nodup := by
  refine generate_keeps definitions (I := fun g => ∀ e ∈ g.enums,
    (e.2.map EnumValueModel.name).Nodup) ⟨?_, ?_, ?_, ?_⟩ nofun h
  · rintro g names hg
    exact hg
  · rintro g name schema hg
    exact Dict.forall_set (Q := fun _ (e : EnumModel) => (e.map EnumValueModel.name).Nodup) hg
      (enumValues_nodup List.nodup_nil nofun)
  · rintro g owner f - hg
    rw [Generator.modifyClass]
    split <;> exact hg
  · rintro g g' name base inherited rfl - hg
    exact hg

end

/-! ## Headers -/

namespace Program

/-- A member of a struct is constructed with the value. -/
def Initial (P : Program) (p : Property) (v : Value) : Prop :=
  ∃ defined : Dict Value, (∀ name w, defined.get? name = some w → P.defaults.get? name = some w) ∧
    memberDefault P.enums defined p = some v

/-- What the emitted headers have in common. -/
structure Consistent (P : Program) : Prop where
  enumNames : ∀ {name e}, P.enums.get? name = some e → (e.map EnumValueModel.name).Nodup
  jsonNames : ∀ {name ps}, P.structs.get? name = some ps → (ps.map Property.jsonName).Nodup
  default : ∀ {name ps}, P.structs.get? name = some ps →
    ∃ members, P.defaults.get? name = some (.struct members) ∧
      Dict.keys members = ps.map Property.fieldName ∧
        ∀ e ∈ members, ∃ p ∈ ps, p.fieldName = e.1 ∧ P.Initial p e.2

end Program

theorem mem_of_mapM {α β : Type} {f : α → Option β} {xs : List α} {ys : List β}
    (h : xs.mapM f = some ys) {y : β} (hy : y ∈ ys) : ∃ x ∈ xs, f x = some y := by
  induction xs generalizing ys with
  | nil =>
    cases h
    cases hy
  | cons x xs ih =>
    rw [List.mapM_cons] at h
    obtain ⟨b, hb, h⟩ := Option.bind_eq_some_iff.1 h
    obtain ⟨bs, hbs, h⟩ := Option.bind_eq_some_iff.1 h
    cases h
    rcases List.mem_cons.1 hy with rfl | hy
    · exact ⟨x, .head _, hb⟩
    · obtain ⟨z, hz, hy⟩ := ih hbs hy
      exact ⟨z, .tail _ hz, hy⟩

theorem map_of_mapM {α β γ : Type} {f : α → Option β} {k : α → γ} {k' : β → γ} {xs : List α}
    {ys : List β} (hf : ∀ x y, f x = some y → k' y = k x) (h : xs.mapM f = some ys) :
    ys.map k' = xs.map k := by
  induction xs generalizing ys with
  | nil =>
    cases h
    rfl
  | cons x xs ih =>
    rw [List.mapM_cons] at h
    obtain ⟨b, hb, h⟩ := Option.bind_eq_some_iff.1 h
    obtain ⟨bs, hbs, h⟩ := Option.bind_eq_some_iff.1 h
    cases h
    rw [List.map_cons, List.map_cons, hf x b hb, ih hbs]

/-- The members of a struct have different wire names. -/
theorem flattened_nodup {u : Unicode} {g : Generator} {name : String} {ps : List Property}
    (h : g.flattenedProperties u name = some ps) : (ps.map Property.jsonName).Nodup := by
  obtain ⟨chain, -, h⟩ := Option.bind_eq_some_iff.1 h
  obtain ⟨models, -, h⟩ := Option.bind_eq_some_iff.1 h
  cases h
  have hfold : ∀ (models : List ClassModel) (d : Dict Property), d.keys.Nodup →
      (∀ e ∈ d, e.2.jsonName = e.1) → let r := models.foldl (fun d model =>
        Dict.update d (model.properties.map fun p => (p.jsonName, p))) d
      Dict.keys r = r.map (fun e => e.2.jsonName) ∧ (Dict.keys r).Nodup := by
    intro models
    induction models with
    | nil =>
      intro d hnodup hkeys
      exact ⟨List.map_congr_left fun e he => (hkeys e he).symm, hnodup⟩
    | cons model models ih =>
      intro d hnodup hkeys
      refine ih _ (Dict.nodup_update hnodup _)
        (Dict.forall_update (Q := fun k (p : Property) => p.jsonName = k) hkeys fun e he => ?_)
      obtain ⟨p, -, rfl⟩ := List.mem_map.1 he
      rfl
  obtain ⟨hkeys, hnodup⟩ := hfold models [] List.nodup_nil nofun
  rw [hkeys] at hnodup
  rw [List.map_map]
  refine Eq.mp (congrArg List.Nodup (List.map_congr_left fun e _ => ?_)) hnodup
  rw [Function.comp_apply]
  dsimp only
  split
  · split <;> rfl
  · rfl

section

variable {enums : Dict EnumModel} {structs : List (String × List Property)} {d₀ d : Dict Value}

theorem defined_mono (h : structs.foldlM (defineStruct enums) d₀ = some d) :
    ∀ n w, d₀.get? n = some w → d.get? n = some w := by
  induction structs generalizing d₀ with
  | nil =>
    cases h
    exact fun _ _ h => h
  | cons s structs ih =>
    rw [List.foldlM_cons] at h
    obtain ⟨d₁, h₁, h⟩ := Option.bind_eq_some_iff.1 h
    obtain ⟨members, -, hd₁⟩ := Option.bind_eq_some_iff.1 h₁
    cases hd₁
    intro n w hw
    exact ih h n w (by rw [Dict.get?_append, hw]; rfl)

/-- A struct is constructed from the structs that are defined before it. -/
theorem structs_defined (h : structs.foldlM (defineStruct enums) d₀ = some d) {name : String}
    {ps : List Property} (hs : Dict.get? structs name = some ps) (hnew : d₀.get? name = none) :
    ∃ defined : Dict Value, (∀ n w, defined.get? n = some w → d.get? n = some w) ∧
      ∃ members, d.get? name = some (.struct members) ∧ ps.mapM (fun p => do
        let value ← memberDefault enums defined p
        return (p.fieldName, value)) = some members := by
  induction structs generalizing d₀ with
  | nil => cases hs
  | cons s structs ih =>
    rw [List.foldlM_cons] at h
    obtain ⟨d₁, h₁, h⟩ := Option.bind_eq_some_iff.1 h
    obtain ⟨members, hmembers, hd₁⟩ := Option.bind_eq_some_iff.1 h₁
    cases hd₁
    rw [Dict.get?_cons] at hs
    have hget (n : String) : Dict.get? (d₀ ++ [(s.1, Value.struct members)]) n =
        (d₀.get? n).or (if s.1 = n then some (.struct members) else none) := by
      rw [Dict.get?_append]
      rfl
    split at hs
    · rename_i hname
      cases hs
      refine ⟨d₀, fun n w hw => defined_mono h n w (by rw [hget, hw]; rfl), members, ?_, hmembers⟩
      refine defined_mono h _ _ ?_
      rw [hget, hnew, if_pos hname]
      rfl
    · rename_i hname
      refine ih h hs ?_
      rw [hget, hnew, if_neg hname]
      rfl

end

/-- Every emitted header is so. -/
theorem program_consistent {u : Unicode} {definitions : Dict Schema} {depth : Nat} {g : Generator}
    {P : Program} (hg : generate u definitions depth = some g) (hP : g.program u = some P) :
    P.Consistent := by
  obtain ⟨order, -, h⟩ := Option.bind_eq_some_iff.1 hP
  obtain ⟨structs, hstructs, h⟩ := Option.bind_eq_some_iff.1 h
  obtain ⟨defaults, hdefaults, h⟩ := Option.bind_eq_some_iff.1 h
  cases h
  constructor
  · intro name e he
    exact enums_distinct definitions hg _ (Dict.mem_of_get? he)
  · intro name ps hs
    obtain ⟨c, -, hc⟩ := mem_of_mapM hstructs (Dict.mem_of_get? hs)
    obtain ⟨ps', hps', hc⟩ := Option.bind_eq_some_iff.1 hc
    cases hc
    exact flattened_nodup hps'
  · intro name ps hs
    obtain ⟨defined, hdefined, members, hmembers, hmap⟩ := structs_defined hdefaults hs rfl
    refine ⟨members, hmembers, ?_, fun e he => ?_⟩
    · refine map_of_mapM (fun p y hy => ?_) hmap
      obtain ⟨v, -, hv⟩ := Option.bind_eq_some_iff.1 hy
      cases hv
      rfl
    · obtain ⟨p, hp, hbind⟩ := mem_of_mapM hmap he
      obtain ⟨v, hdefault, heq⟩ := Option.bind_eq_some_iff.1 hbind
      cases heq
      exact ⟨p, hp, rfl, defined, hdefined, hdefault⟩

end DapDbgeng.Protgen
