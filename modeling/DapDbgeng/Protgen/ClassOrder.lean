/-
  The order in which the header defines its structs.

  A struct has to come behind those it holds.  The generator looks for such an order depth first.

  * `orderClasses`: `topological_classes`, with what it raises;
  * `topologicalClasses_eq`: the order the header is written in is its result;
  * `Generator.Needs`: a class holds another;
  * `orderClasses_iff`: the search ends, and does what it is for just if the bases of classes are
    classes, or there is a cycle.
-/
import DapDbgeng.DepthFirst
import DapDbgeng.Protgen.Bases

theorem Dict.get?_map_pair {ν : Type} (keys : List String) (f : String → ν) (key : String) :
    Dict.get? (keys.map fun k => (k, f k)) key = if key ∈ keys then some (f key) else none := by
  induction keys with
  | nil => rfl
  | cons k keys ih =>
    rw [List.map_cons, Dict.get?_cons, ih]
    by_cases hk : k = key
    · subst hk
      rw [if_pos rfl, if_pos (.head _)]
    · rw [if_neg hk]
      simp only [List.mem_cons, Ne.symm hk, false_or]

namespace DapDbgeng.Protgen

/-- A key that is missing, or a path to a class that is being visited. -/
inductive Raised where
  | key (name : String)
  | cycle (path : List String)
  deriving DecidableEq, Repr

namespace Generator

variable (u : Unicode) (g : Generator)

/-- `flattened_properties`; none if the bases do not end within the bound. -/
def flattenWithin (bound : Nat) (name : String) : ExceptT Raised Option (List Property) :=
  match g.baseChain bound name with
  | none => .mk none
  | some chain =>
    match chain.find? fun c => (g.classes.get? c).isNone with
    | some c => throw (.key c)
    | none => .mk ((g.flattenedProperties u name).map .ok)

def dependencies (name : String) (properties : List Property) : List String :=
  ((properties.flatMap g.hardDeps).filter (· ≠ name)).dedup.insertionSort (· ≤ ·)

def hardDependencies (bound : Nat) : ExceptT Raised Option (Dict (List String)) :=
  g.classes.keys.mapM fun name => do
    let properties ← g.flattenWithin u bound name
    return (name, g.dependencies name properties)

/-- `topological_classes`; none if a loop or the recursion does not end within the bound. -/
def orderClasses (bound : Nat) : ExceptT Raised Option (List String) := do
  let hard ← g.hardDependencies u bound
  let order := DepthFirst.visit (fun node => (hard.get? node).getD []) bound []
  (g.classes.keys.foldlM order []).adapt .cycle

end Generator

/-! ## The order of the header -/

/-- The result, where nothing is raised. -/
def result {ε α : Type} (m : ExceptT ε Option α) : Option α := m.run.bind Except.toOption

section

variable {ε α β : Type}

theorem result_bind (m : ExceptT ε Option α) (f : α → ExceptT ε Option β) :
    result (m >>= f) = (result m).bind fun a => result (f a) := by
  match m with
  | none => rfl
  | some (.error _) => rfl
  | some (.ok _) => rfl

theorem result_mapM (f : α → ExceptT ε Option β) (xs : List α) :
    result (xs.mapM f) = xs.mapM fun x => result (f x) := by
  induction xs with
  | nil => rfl
  | cons x xs ih =>
    rw [List.mapM_cons, List.mapM_cons, result_bind]
    refine congrArg (Option.bind _) (funext fun y => ?_)
    rw [result_bind, ih]
    rfl

theorem result_foldlM (f : β → α → ExceptT ε Option β) (xs : List α) (b : β) :
    result (xs.foldlM f b) = xs.foldlM (fun b x => result (f b x)) b := by
  induction xs generalizing b with
  | nil => rfl
  | cons x xs ih =>
    rw [List.foldlM_cons, List.foldlM_cons, result_bind]
    exact congrArg (Option.bind _) (funext fun b => ih b)

theorem mapM_eq_some {f : α → Option β} {xs : List α} :
    (∃ ys, xs.mapM f = some ys) ↔ ∀ x ∈ xs, ∃ y, f x = some y := by
  induction xs with
  | nil => exact ⟨fun _ => List.forall_mem_nil _, fun _ => ⟨[], rfl⟩⟩
  | cons x xs ih =>
    rw [List.forall_mem_cons, ← ih, List.mapM_cons]
    constructor
    · rintro ⟨ys, h⟩
      obtain ⟨y, hy, h⟩ := Option.bind_eq_some_iff.1 h
      obtain ⟨ys, hys, -⟩ := Option.bind_eq_some_iff.1 h
      exact ⟨⟨y, hy⟩, ys, hys⟩
    · rintro ⟨⟨y, hy⟩, ys, hys⟩
      exact ⟨y :: ys, by rw [hy, hys]; rfl⟩

theorem mapM_eq_pure {f : α → ExceptT ε Option β} {k : α → β} {xs : List α}
    (h : ∀ x ∈ xs, f x = pure (k x)) : xs.mapM f = pure (xs.map k) := by
  induction xs with
  | nil => rfl
  | cons x xs ih =>
    obtain ⟨hx, hxs⟩ := List.forall_mem_cons.1 h
    rw [List.mapM_cons, hx, ih hxs]
    rfl

/-- The first one that raises. -/
theorem mapM_eq_throw {f : α → ExceptT ε Option β} {xs : List α}
    (h : ∀ x ∈ xs, (∃ y, f x = pure y) ∨ ∃ e, f x = throw e)
    (hthrow : ∃ x ∈ xs, ∃ e, f x = throw e) : ∃ e, xs.mapM f = throw e := by
  induction xs with
  | nil =>
    obtain ⟨x, hx, -⟩ := hthrow
    cases hx
  | cons x xs ih =>
    obtain ⟨hx, hxs⟩ := List.forall_mem_cons.1 h
    rcases hx with ⟨y, hy⟩ | ⟨e, he⟩
    · have hrest : ∃ x ∈ xs, ∃ e, f x = throw e := by
        obtain ⟨x', hx', e, he⟩ := hthrow
        rcases List.mem_cons.1 hx' with rfl | hx'
        · rw [hy] at he
          cases he
        · exact ⟨x', hx', e, he⟩
      obtain ⟨e, he⟩ := ih hxs hrest
      refine ⟨e, ?_⟩
      rw [List.mapM_cons, hy, he]
      rfl
    · refine ⟨e, ?_⟩
      rw [List.mapM_cons, he]
      rfl

theorem result_adapt {ε' : Type} (f : ε → ε') (m : ExceptT ε Option α) :
    result (m.adapt f) = result m := by
  match m with
  | none => rfl
  | some (.error _) => rfl
  | some (.ok _) => rfl

end

namespace Generator

variable {u : Unicode} {g : Generator}

theorem result_visit (hard : Dict (List String)) (bound : Nat) (stack ordered : List String)
    (node : String) :
    result (DepthFirst.visit (fun node => (hard.get? node).getD []) bound stack ordered node) =
      visit hard bound stack ordered node := by
  induction bound generalizing stack ordered node with
  | zero => rfl
  | succ bound ih =>
    rw [DepthFirst.visit, visit]
    by_cases hleft : node ∈ ordered
    · rw [if_pos hleft, if_pos (List.contains_iff_mem.2 hleft)]
      rfl
    rw [if_neg hleft, if_neg (mt List.contains_iff_mem.1 hleft)]
    by_cases hvisiting : node ∈ stack
    · rw [if_pos hvisiting, if_pos (List.contains_iff_mem.2 hvisiting)]
      rfl
    rw [if_neg hvisiting, if_neg (mt List.contains_iff_mem.1 hvisiting), result_bind, result_foldlM]
    simp only [ih]
    rfl

theorem result_flattenWithin (name : String) :
    result (g.flattenWithin u (g.classes.length + 1) name) = g.flattenedProperties u name := by
  rw [flattenWithin]
  cases hchain : g.baseChain (g.classes.length + 1) name with
  | none =>
    rw [flattenedProperties, hchain]
    rfl
  | some chain =>
    dsimp only
    split
    · rename_i c hfind
      have hnone : chain.mapM (fun c => g.classes.get? c) = none := by
        rw [Option.eq_none_iff_forall_ne_some]
        intro models hmodels
        have hmem : c ∈ chain := List.mem_of_find?_eq_some hfind
        obtain ⟨model, hmodel⟩ := mapM_eq_some.1 ⟨models, hmodels⟩ c hmem
        have := List.find?_some hfind
        rw [hmodel] at this
        cases this
      rw [flattenedProperties, hchain, Option.bind_eq_bind, Option.bind_some, hnone]
      rfl
    · cases g.flattenedProperties u name <;> rfl

/-- The order the header is written in. -/
theorem topologicalClasses_eq :
    g.topologicalClasses u = result (g.orderClasses u (g.classes.length + 1)) := by
  rw [topologicalClasses, orderClasses, result_bind, hardDependencies, result_mapM]
  refine congrArg₂ Option.bind (congrArg (List.mapM · _) (funext fun name => ?_))
    (funext fun hard => ?_)
  · rw [result_bind, result_flattenWithin]
    rfl
  · rw [result_adapt, result_foldlM]
    simp only [result_visit]

/-! ## What is held -/

/-- The class holds another one: by value, or in an optional value. -/
def Needs (u : Unicode) (g : Generator) (c d : String) : Prop :=
  d ≠ c ∧ (g.classes.get? d).isSome = true ∧
    ∃ properties, g.flattenedProperties u c = some properties ∧
      ∃ p ∈ properties, p.cpp.ty = .struct d

/-- A class holds itself by way of others. -/
def Cyclic (u : Unicode) (g : Generator) : Prop := ∃ c, Relation.TransGen (g.Needs u) c c

def BasesAreClasses (g : Generator) : Prop :=
  ∀ name base, g.base name = some base → (g.classes.get? base).isSome = true

theorem mem_hardDeps {p : Property} {d : String} :
    d ∈ g.hardDeps p ↔ p.cpp.ty = .struct d ∧ (g.classes.get? d).isSome = true := by
  rw [hardDeps]
  split
  · rename_i name hty
    rw [hty, Ty.struct.injEq]
    split
    · rename_i hclass
      rw [List.mem_singleton]
      constructor
      · rintro rfl
        exact ⟨rfl, hclass⟩
      · rintro ⟨rfl, -⟩
        rfl
    · rename_i hclass
      refine ⟨nofun, ?_⟩
      rintro ⟨rfl, h⟩
      exact absurd h hclass
  · rename_i hty
    exact ⟨nofun, fun h => absurd h.1 (hty d)⟩

theorem mem_dependencies {name d : String} {properties : List Property} :
    d ∈ g.dependencies name properties ↔ d ≠ name ∧ (g.classes.get? d).isSome = true ∧
      ∃ p ∈ properties, p.cpp.ty = .struct d := by
  rw [dependencies, List.mem_insertionSort, List.mem_dedup, List.mem_filter, List.mem_flatMap,
    decide_eq_true_eq]
  simp only [mem_hardDeps]
  constructor
  · rintro ⟨⟨p, hp, hty, hclass⟩, hne⟩
    exact ⟨hne, hclass, p, hp, hty⟩
  · rintro ⟨hne, hclass, p, hp, hty⟩
    exact ⟨⟨p, hp, hty, hclass⟩, hne⟩

/-! ## Missing keys -/

/-- A class is flattened, or has a base that is none. -/
theorem flattenWithin_cases {name : String} {chain : List String} (h : g.Bases name chain) :
    (∃ c ∈ chain, g.classes.get? c = none ∧ g.flattenedProperties u name = none ∧
        ∀ bound, g.classes.length < bound → g.flattenWithin u bound name = throw (.key c)) ∨
      (∀ c ∈ chain, (g.classes.get? c).isSome = true) ∧
        ∃ properties, g.flattenedProperties u name = some properties ∧
          ∀ bound, g.classes.length < bound → g.flattenWithin u bound name = pure properties := by
  have hrun (bound : Nat) (hbound : g.classes.length < bound) :
      g.baseChain bound name = some chain :=
    baseChain_eq h (h.length_le.trans hbound)
  have hresult := result_flattenWithin (u := u) (g := g) name
  cases hfind : chain.find? fun c => (g.classes.get? c).isNone with
  | some c =>
    have hthrow (bound : Nat) (hbound : g.classes.length < bound) :
        g.flattenWithin u bound name = throw (.key c) := by
      rw [flattenWithin, hrun bound hbound]
      dsimp only
      rw [hfind]
    rw [hthrow _ (Nat.lt_succ_self _)] at hresult
    have hnone : (g.classes.get? c).isNone = true := by simpa using List.find?_some hfind
    exact .inl ⟨c, List.mem_of_find?_eq_some hfind, Option.isNone_iff_eq_none.1 hnone,
      hresult.symm, hthrow⟩
  | none =>
    have hall : ∀ c ∈ chain, ∃ model, g.classes.get? c = some model := fun c hc => by
      have := List.find?_eq_none.1 hfind c hc
      rwa [Option.isNone_iff_eq_none, ← ne_eq, Option.ne_none_iff_exists'] at this
    obtain ⟨models, hmodels⟩ := mapM_eq_some.2 hall
    have hproperties : ∃ properties, g.flattenedProperties u name = some properties := by
      rw [flattenedProperties, hrun _ (Nat.lt_succ_self _), Option.bind_eq_bind, Option.bind_some,
        hmodels]
      exact ⟨_, rfl⟩
    obtain ⟨properties, hproperties⟩ := hproperties
    refine .inr ⟨fun c hc => Option.isSome_iff_exists.2 (hall c hc), properties, hproperties,
      fun bound hbound => ?_⟩
    rw [flattenWithin, hrun bound hbound]
    dsimp only
    rw [hfind, hproperties]
    rfl

theorem bases_classes (h : g.BasesAreClasses) {name : String} {chain : List String}
    (hchain : g.Bases name chain) (hname : name ∈ g.classes.keys) :
    ∀ c ∈ chain, (g.classes.get? c).isSome = true := by
  induction hchain with
  | root =>
    rw [List.forall_mem_singleton, Option.isSome_iff_exists]
    exact Dict.mem_keys.1 hname
  | @derived name base chain hbase _ ih =>
    have hmem := h name base hbase
    rw [Option.isSome_iff_exists, ← Dict.mem_keys] at hmem
    rintro c hc
    rcases List.mem_append.1 hc with hc | hc
    · exact ih hmem c hc
    · rw [List.mem_singleton.1 hc, Option.isSome_iff_exists]
      exact Dict.mem_keys.1 hname

theorem class_of_flattened (h : g.BasesEnd) {name : String} {properties : List Property}
    (hproperties : g.flattenedProperties u name = some properties) : name ∈ g.classes.keys := by
  obtain ⟨chain, hchain⟩ := h name
  obtain ⟨c, -, -, hnone, -⟩ | ⟨hclasses, -⟩ := flattenWithin_cases (u := u) hchain
  · rw [hnone] at hproperties
    cases hproperties
  · exact Dict.mem_keys.2 (Option.isSome_iff_exists.1 (hclasses name hchain.self_mem))

/-- A base that is no class is among the bases of a class. -/
theorem exists_throw (h : g.BasesEnd) (hclasses : ¬g.BasesAreClasses) :
    ∃ name ∈ g.classes.keys, ∃ e, ∀ bound, g.classes.length < bound →
      g.flattenWithin u bound name = throw e := by
  simp only [BasesAreClasses, not_forall] at hclasses
  obtain ⟨name, base, hbase, hmissing⟩ := hclasses
  obtain ⟨chain, hchain⟩ := h base
  have hbases := Bases.derived hbase hchain
  obtain ⟨c, -, -, -, hthrow⟩ | ⟨hall, -⟩ := flattenWithin_cases (u := u) hbases
  · exact ⟨name, Bases.mem_classes hbase, .key c, hthrow⟩
  · exact absurd (hall base (List.mem_append_left _ hchain.self_mem)) hmissing

/-- The graph, where every class can be flattened. -/
def hard (u : Unicode) (g : Generator) : Dict (List String) :=
  g.classes.keys.map fun name =>
    (name, g.dependencies name ((g.flattenedProperties u name).getD []))

theorem flattened_of_classes (h : g.BasesEnd) (hclasses : g.BasesAreClasses) {name : String}
    (hname : name ∈ g.classes.keys) :
    ∃ properties, g.flattenedProperties u name = some properties ∧
      ∀ bound, g.classes.length < bound → g.flattenWithin u bound name = pure properties := by
  obtain ⟨chain, hchain⟩ := h name
  obtain ⟨c, hc, hnone, -⟩ | ⟨-, hflattened⟩ := flattenWithin_cases (u := u) hchain
  · have hclass := bases_classes hclasses hchain hname c hc
    rw [hnone] at hclass
    cases hclass
  · exact hflattened

theorem hardDependencies_eq (h : g.BasesEnd) (hclasses : g.BasesAreClasses) {bound : Nat}
    (hbound : g.classes.length < bound) : g.hardDependencies u bound = pure (g.hard u) := by
  refine mapM_eq_pure fun name hname => ?_
  obtain ⟨properties, hproperties, hflatten⟩ := flattened_of_classes (u := u) h hclasses hname
  rw [hflatten bound hbound, hproperties]
  rfl

/-- Its edges are what is held. -/
theorem mem_hard (h : g.BasesEnd) (hclasses : g.BasesAreClasses) (c d : String) :
    d ∈ ((g.hard u).get? c).getD [] ↔ g.Needs u c d := by
  rw [hard, Dict.get?_map_pair]
  constructor
  · intro hd
    split at hd
    · rename_i hc
      obtain ⟨properties, hproperties, -⟩ := flattened_of_classes (u := u) h hclasses hc
      obtain ⟨hne, hclass, hmem⟩ := mem_dependencies.1 hd
      rw [hproperties] at hmem
      exact ⟨hne, hclass, properties, hproperties, hmem⟩
    · cases hd
  · rintro ⟨hne, hclass, properties, hproperties, hmem⟩
    rw [if_pos (class_of_flattened h hproperties), hproperties]
    exact mem_dependencies.2 ⟨hne, hclass, hmem⟩

theorem hardDependencies_bound (h : g.BasesEnd) {bound : Nat} (hbound : g.classes.length < bound) :
    g.hardDependencies u bound = g.hardDependencies u (g.classes.length + 1) := by
  refine congrArg (List.mapM · _) (funext fun name => congrArg (· >>= _) ?_)
  obtain ⟨chain, hchain⟩ := h name
  obtain ⟨_, _, _, _, hflatten⟩ | ⟨_, _, _, hflatten⟩ := flattenWithin_cases (u := u) hchain
  · rw [hflatten bound hbound, hflatten _ (Nat.lt_succ_self _)]
  · rw [hflatten bound hbound, hflatten _ (Nat.lt_succ_self _)]

/-- A missing key is raised if a base is no class. -/
theorem hardDependencies_throw (h : g.BasesEnd) (hclasses : ¬g.BasesAreClasses) :
    ∃ e, ∀ bound, g.classes.length < bound → g.hardDependencies u bound = throw e := by
  obtain ⟨name, hname, e, hthrow⟩ := exists_throw (u := u) h hclasses
  have hraises : ∃ e, g.hardDependencies u (g.classes.length + 1) = throw e := by
    refine mapM_eq_throw (fun name _ => ?_) ⟨name, hname, e, ?_⟩
    · obtain ⟨chain, hchain⟩ := h name
      obtain ⟨c, _, _, _, hflatten⟩ | ⟨_, properties, _, hflatten⟩ :=
        flattenWithin_cases (u := u) hchain
      · refine .inr ⟨.key c, ?_⟩
        rw [hflatten _ (Nat.lt_succ_self _)]
        rfl
      · refine .inl ⟨(name, g.dependencies name properties), ?_⟩
        rw [hflatten _ (Nat.lt_succ_self _)]
        rfl
    · rw [hthrow _ (Nat.lt_succ_self _)]
      rfl
  obtain ⟨e, he⟩ := hraises
  exact ⟨e, fun bound hbound => (hardDependencies_bound h hbound).trans he⟩

/-! ## The order -/

/-- It raises just if there is a cycle; else every class comes once, behind those it needs. -/
structure Sorts (u : Unicode) (g : Generator) (r : Except Raised (List String)) : Prop where
  raises : (∃ e, r = .error e) ↔ g.Cyclic u
  once : ∀ order, r = .ok order →
    order.Nodup ∧ ∀ c, c ∈ order ↔ (g.classes.get? c).isSome = true
  before : ∀ order, r = .ok order → ∀ pre c post, order = pre ++ c :: post →
    ∀ d, g.Needs u c d → d ∈ pre

/-- The search through the classes that are held. -/
theorem search_sorts {succ : String → List String} (hsucc : ∀ c d, d ∈ succ c ↔ g.Needs u c d) :
    ∃ r, (∀ bound, g.classes.length < bound →
        (g.classes.keys.foldlM (DepthFirst.visit succ bound []) []).adapt Raised.cycle =
          .mk (some r)) ∧ g.Sorts u r := by
  have hedge : DepthFirst.Edge succ = g.Needs u := funext₂ fun c d => propext (hsucc c d)
  have hclosed : ∀ c ∈ g.classes.keys, succ c ⊆ g.classes.keys := fun c _ d hd =>
    Dict.mem_keys.2 (Option.isSome_iff_exists.1 ((hsucc c d).1 hd).2.1)
  obtain ⟨r, hr, hraises, hok⟩ := DepthFirst.order_spec hclosed
  rw [Dict.keys, List.length_map] at hr
  have hcyclic : DepthFirst.Cyclic succ g.classes.keys ↔ g.Cyclic u := by
    rw [DepthFirst.Cyclic, hedge]
    constructor
    · rintro ⟨c, -, hc⟩
      exact ⟨c, hc⟩
    · rintro ⟨c, hc⟩
      obtain ⟨b, -, -, hclass, -⟩ := Relation.TransGen.tail'_iff.1 hc
      exact ⟨c, Dict.mem_keys.2 (Option.isSome_iff_exists.1 hclass), hc⟩
  refine ⟨r.mapError .cycle, fun bound hbound => ?_, ?_⟩
  · rw [Dict.keys, hr bound hbound]
    rfl
  · cases r with
    | error path =>
      refine ⟨⟨fun _ => ?_, fun _ => ⟨.cycle path, rfl⟩⟩, ?_, ?_⟩
      · exact hcyclic.1 (hraises.1 ⟨path, rfl⟩)
      · rintro _ ⟨⟩
      · rintro _ ⟨⟩
    | ok order =>
      obtain ⟨hordered, hall⟩ := hok order rfl
      refine ⟨⟨?_, fun h => ?_⟩, ?_, ?_⟩
      · rintro ⟨_, ⟨⟩⟩
      · obtain ⟨path, hpath⟩ := hraises.2 (hcyclic.2 h)
        cases hpath
      · rintro _ ⟨⟩
        refine ⟨hordered.nodup, fun c => ?_⟩
        rw [hall, Dict.mem_keys, Option.isSome_iff_exists]
      · rintro _ ⟨⟩ pre c post heq d hd
        exact hordered.before heq ((hsucc c d).2 hd)

end Generator

/-- The search ends.  It does what it is for just if the bases of classes are classes, or there is a
cycle. -/
theorem orderClasses_iff {u : Unicode} {definitions : Dict Schema} {depth : Nat} {g : Generator}
    (hg : generate u definitions depth = some g) :
    (∃ r, (∀ bound, g.classes.length < bound → g.orderClasses u bound = .mk (some r)) ∧
      g.Sorts u r) ↔ g.BasesAreClasses ∨ g.Cyclic u := by
  have hends := generate_bases hg
  by_cases hclasses : g.BasesAreClasses
  · refine ⟨fun _ => .inl hclasses, fun _ => ?_⟩
    obtain ⟨r, hr, hsorts⟩ := Generator.search_sorts (Generator.mem_hard (u := u) hends hclasses)
    refine ⟨r, fun bound hbound => ?_, hsorts⟩
    rw [Generator.orderClasses, Generator.hardDependencies_eq hends hclasses hbound]
    exact hr bound hbound
  · obtain ⟨e, hthrow⟩ := Generator.hardDependencies_throw (u := u) hends hclasses
    have hraise (bound : Nat) (hbound : g.classes.length < bound) :
        g.orderClasses u bound = .mk (some (.error e)) := by
      rw [Generator.orderClasses, hthrow bound hbound]
      rfl
    constructor
    · rintro ⟨r, hr, hsorts⟩
      have heq := (hr _ (Nat.lt_succ_self _)).symm.trans (hraise _ (Nat.lt_succ_self _))
      cases heq
      exact .inr (hsorts.raises.1 ⟨e, rfl⟩)
    · rintro (hbases | hcyclic)
      · exact absurd hbases hclasses
      · exact ⟨.error e, hraise, ⟨fun _ => hcyclic, fun _ => ⟨e, rfl⟩⟩, by rintro _ ⟨⟩,
          by rintro _ ⟨⟩⟩

/-! ## A base that is an enumeration -/

def paintDefinitions : Dict Schema :=
  [("Color", { enum := some [.str "red"] }),
    ("Paint", { allOf := some [{ ref := some "#/definitions/Color" },
      { properties := some [("glossy", { type := some (.one "boolean") })] }] })]

def paintTables : Generator where
  classes := [("Paint", {
    baseClass := some "Color"
    properties := [{ jsonName := "glossy", fieldName := "glossy", required := false,
                     cpp := { ty := .bool, optional := true } }] })]
  enums := [("Color", [{ name := "Red", serializedValue := "red" }])]
  definitionTypeNames := [("Color", "Color"), ("Paint", "Paint")]

theorem paint_generated : generate .ascii paintDefinitions 8 = some paintTables := rfl

theorem paint_acyclic : ¬paintTables.Cyclic .ascii := by
  rintro ⟨c, hc⟩
  obtain ⟨d, ⟨-, -, properties, hproperties, -⟩, -⟩ := Relation.TransGen.head'_iff.1 hc
  have hpaint := Generator.class_of_flattened (generate_bases paint_generated) hproperties
  rw [show paintTables.classes.keys = ["Paint"] from rfl, List.mem_singleton] at hpaint
  subst hpaint
  cases hproperties

/-- The base is looked up among the classes. -/
theorem paint_raises : generate .ascii paintDefinitions 8 = some paintTables ∧
    (∀ bound, paintTables.classes.length < bound →
        paintTables.orderClasses .ascii bound = throw (.key "Color")) ∧
      ¬∃ r, (∀ bound, paintTables.classes.length < bound →
        paintTables.orderClasses .ascii bound = .mk (some r)) ∧ paintTables.Sorts .ascii r := by
  have hraise (bound : Nat) (hbound : paintTables.classes.length < bound) :
      paintTables.orderClasses .ascii bound = throw (.key "Color") := by
    obtain ⟨bound, rfl⟩ : ∃ b, bound = b + 2 := ⟨bound - 2, by
      change 1 < bound at hbound
      omega⟩
    rfl
  refine ⟨paint_generated, hraise, ?_⟩
  rintro ⟨r, hr, hsorts⟩
  have heq := (hr 2 (by decide)).symm.trans (hraise 2 (by decide))
  cases heq
  exact paint_acyclic (hsorts.raises.1 ⟨_, rfl⟩)

theorem orderClasses_iff_paint :
    (∃ r, (∀ bound, paintTables.classes.length < bound →
        paintTables.orderClasses .ascii bound = .mk (some r)) ∧ paintTables.Sorts .ascii r) ↔
      paintTables.BasesAreClasses ∨ paintTables.Cyclic .ascii :=
  orderClasses_iff paint_generated

end DapDbgeng.Protgen
