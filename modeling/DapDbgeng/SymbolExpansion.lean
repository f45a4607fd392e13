/-
  The expansion of the symbols of a scope.

  The engine lists the symbols of a scope, and on demand the members of a symbol behind it.  The
  adapter expands one symbol after the other, down to a depth and up to a number of symbols, and
  looks at the whole list again after each.

  * `symbolDepth`: how deep a symbol lies, by the parents in the list;
  * `expansionLoop`: the loop, with what it expanded;
  * `SymbolGroup.Expands`: what expanding a symbol does to a group;
  * `weight`: what each expansion makes smaller;
  * `expansionLoop_ends`: the loop ends, whatever the group contains.
-/
import DapDbgeng.Session
import Mathlib.Data.List.Nodup

namespace DapDbgeng

/-! ## Groups -/

def kDebugAnyId : ℕ := 0xFFFFFFFF
def kDebugSymbolExpanded : ℕ := 0x10
def kMaxExpansionDepth : ℕ := 3
def kMaxExpandedNodes : ℕ := 4096

/-- `DEBUG_SYMBOL_PARAMETERS`. -/
structure SymbolParameters where
  parentSymbol : ℕ := kDebugAnyId
  subElements : ℕ := 0
  flags : ℕ := 0

def SymbolParameters.isExpanded (p : SymbolParameters) : Bool :=
  p.flags &&& kDebugSymbolExpanded != 0

/-- `IDebugSymbolGroup2`.  A name is the text in the buffer. -/
structure SymbolGroup (G : Type) where
  getNumberSymbols : G → Reply ℕ
  getSymbolParameters : G → ℕ → Reply (List SymbolParameters)
  getSymbolTypeName : G → ℕ → Option String
  expandSymbol : G → ℕ → Reply Unit × G

/-- The last character that is no white space is a star. -/
def endsInStar : List Char → Bool
  | [] => false
  | c :: cs => if c = '*' then true else if Text.isSpace c then endsInStar cs else false

def typeIsPointer (type : String) : Bool := endsInStar type.toList.reverse

/-- Hops to a symbol without a parent; none if there are more than `bound`. -/
def hops (params : List SymbolParameters) : (bound : ℕ) → (parent : ℕ) → Option ℕ
  | bound, parent =>
    match params[parent]? with
    | none => some 0
    | some p =>
      if parent = kDebugAnyId then some 0
      else
        match bound with
        | 0 => none
        | bound + 1 => (hops params bound p.parentSymbol).map (· + 1)

/-- `symbol_depth`; none if the parents never end. -/
def symbolDepth (params : List SymbolParameters) (index : ℕ) : Option ℕ :=
  params[index]?.bind fun p => hops params params.length p.parentSymbol

section

variable {G : Type} (group : SymbolGroup G)

def readSymbolType (g : G) (index : ℕ) : String :=
  ((group.getSymbolTypeName g index).map Text.trimBoth).getD ""

/-- One pass over the list: the first symbol that can be expanded, and the group before. -/
def expandOne (params : List SymbolParameters) (g : G) : List ℕ → Option (Option (G × ℕ) × G)
  | [] => some (none, g)
  | i :: rest => do
    let p := params[i]?.getD {}
    if p.isExpanded || p.subElements = 0 then expandOne params g rest
    else do
      let depth ← symbolDepth params i
      if kMaxExpansionDepth ≤ depth || typeIsPointer (readSymbolType group g i) then
        expandOne params g rest
      else
        match group.expandSymbol g i with
        | (.ok (), g') => return (some (g, i), g')
        | (.error _, g') => expandOne params g' rest

/-- The loop, within a bound: the symbols it expanded, each with the group before. -/
def expansionLoop : (bound : ℕ) → G → Option (List (G × ℕ) × G)
  | 0, _ => none
  | bound + 1, g =>
    match group.getNumberSymbols g with
    | .error _ => some ([], g)
    | .ok count =>
      if count = 0 || kMaxExpandedNodes ≤ count then some ([], g)
      else
        match group.getSymbolParameters g count with
        | .error _ => some ([], g)
        | .ok params => do
          let (expanded, g') ← expandOne group params g (List.range count)
          match expanded with
          | none => return ([], g')
          | some e => do
            let (es, g'') ← expansionLoop bound g'
            return (e :: es, g'')

end

/-! ## Depth -/

/-- The parents in the list are in front of their children. -/
def ParentsFirst (params : List SymbolParameters) : Prop :=
  ∀ (i : ℕ) (p : SymbolParameters), params[i]? = some p →
    p.parentSymbol < params.length → p.parentSymbol < i

theorem hops_isSome {params : List SymbolParameters} (h : ParentsFirst params) {bound parent : ℕ}
    (hb : parent < bound ∨ params.length ≤ parent) : (hops params bound parent).isSome = true := by
  induction bound generalizing parent with
  | zero =>
    have hout : params[parent]? = none := List.getElem?_eq_none (by omega)
    rw [hops, hout]
    rfl
  | succ bound ih =>
    rw [hops]
    split
    · rfl
    · rename_i p hp
      split
      · rfl
      · have hparent : parent < params.length := (List.getElem?_eq_some_iff.1 hp).1
        have hnext : p.parentSymbol < bound ∨ params.length ≤ p.parentSymbol := by
          rcases Nat.lt_or_ge p.parentSymbol params.length with hlt | hge
          · have := h parent p hp hlt
            omega
          · exact .inr hge
        rw [Option.isSome_map]
        exact ih hnext

/-- The loop of `symbol_depth` ends where parents come first. -/
theorem symbolDepth_isSome {params : List SymbolParameters} (h : ParentsFirst params) {index : ℕ}
    (hi : index < params.length) : (symbolDepth params index).isSome = true := by
  rw [symbolDepth, List.getElem?_eq_getElem hi, Option.bind_some]
  refine hops_isSome h ?_
  have := h index _ (List.getElem?_eq_getElem hi)
  omega

/-! ## What expanding does -/

/-- A symbol of a group; the name tells it from the others. -/
structure GroupSymbol (ι : Type) where
  name : ι
  expanded : Bool
  depth : ℕ

section

variable {G ι : Type} {group : SymbolGroup G} {symbols : G → List (GroupSymbol ι)}

/-- The group answers truthfully, and a symbol that is expanded gets its members behind it, one
level deeper and not expanded. -/
structure SymbolGroup.Expands (group : SymbolGroup G) (symbols : G → List (GroupSymbol ι)) :
    Prop where
  distinct : ∀ g, ((symbols g).map GroupSymbol.name).Nodup
  count : ∀ {g n}, group.getNumberSymbols g = .ok n → n = (symbols g).length
  flags : ∀ {g params}, group.getSymbolParameters g (symbols g).length = .ok params →
    params.map SymbolParameters.isExpanded = (symbols g).map GroupSymbol.expanded
  depths : ∀ {g params}, group.getSymbolParameters g (symbols g).length = .ok params →
    ∀ {i : ℕ} {s}, (symbols g)[i]? = some s → symbolDepth params i = some s.depth
  expanded : ∀ {g g'} {i : ℕ} {s}, (symbols g)[i]? = some s →
    group.expandSymbol g i = (.ok (), g') →
      ∃ members, symbols g' = (symbols g).take i ++
          { s with expanded := true } :: members ++ (symbols g).drop (i + 1) ∧
        ∀ m ∈ members, m.expanded = false ∧ m.depth = s.depth + 1
  refused : ∀ {g g'} {i hr : ℕ}, group.expandSymbol g i = (.error hr, g') → symbols g' = symbols g

/-- The room that is left and the symbols that are not expanded. -/
def weight (ss : List (GroupSymbol ι)) : ℕ :=
  if kMaxExpandedNodes ≤ ss.length then 0
  else (kMaxExpandedNodes - ss.length) * kMaxExpandedNodes + ss.countP fun s => !s.expanded

/-- The symbol may be expanded. -/
structure MayExpand (group : SymbolGroup G) (symbols : G → List (GroupSymbol ι)) (g : G) (i : ℕ)
    (s : GroupSymbol ι) : Prop where
  symbol : (symbols g)[i]? = some s
  collapsed : s.expanded = false
  shallow : s.depth < kMaxExpansionDepth
  value : typeIsPointer (readSymbolType group g i) = false

/-- What the parameters say of a symbol. -/
theorem SymbolGroup.Expands.parameters (h : group.Expands symbols) {g : G}
    {params : List SymbolParameters}
    (hparams : group.getSymbolParameters g (symbols g).length = .ok params) {i : ℕ}
    {s : GroupSymbol ι} (hs : (symbols g)[i]? = some s) :
    (params[i]?.getD {}).isExpanded = s.expanded ∧ symbolDepth params i = some s.depth := by
  refine ⟨?_, h.depths hparams hs⟩
  have hflag : (params[i]?).map SymbolParameters.isExpanded = some s.expanded := by
    rw [← List.getElem?_map, h.flags hparams, List.getElem?_map, hs, Option.map_some]
  cases hp : params[i]? with
  | none => rw [hp] at hflag; cases hflag
  | some p =>
    rw [hp, Option.map_some, Option.some_inj] at hflag
    exact hflag

/-- A pass leaves the symbols as they are, or expands one that may be expanded. -/
theorem expandOne_spec (h : group.Expands symbols) {g₀ : G} {params : List SymbolParameters}
    (hparams : group.getSymbolParameters g₀ (symbols g₀).length = .ok params) {g : G}
    (hg : symbols g = symbols g₀) (is : List ℕ) (his : ∀ i ∈ is, i < (symbols g₀).length) :
    ∃ expanded g', expandOne group params g is = some (expanded, g') ∧
      match expanded with
      | none => symbols g' = symbols g₀
      | some (g₁, i) => symbols g₁ = symbols g₀ ∧ group.expandSymbol g₁ i = (.ok (), g') ∧
          ∃ s, MayExpand group symbols g₁ i s := by
  induction is generalizing g with
  | nil => exact ⟨none, g, rfl, hg⟩
  | cons i is ih =>
    obtain ⟨hi, his⟩ := List.forall_mem_cons.1 his
    have hs : (symbols g₀)[i]? = some (symbols g₀)[i] := List.getElem?_eq_getElem hi
    obtain ⟨hflag, hdepth⟩ := h.parameters hparams hs
    rw [expandOne]
    split_ifs with hskip
    · exact ih hg his
    · rw [hdepth, Option.bind_eq_bind, Option.bind_some]
      split_ifs with hdeep
      · exact ih hg his
      · simp only [Bool.or_eq_true, decide_eq_true_eq, not_or, Bool.not_eq_true, hflag]
          at hskip hdeep
        cases hexpand : group.expandSymbol g i with
        | mk reply g' =>
          cases reply with
          | ok u =>
            refine ⟨some (g, i), g', rfl, hg, hexpand, _, ?_, hskip.1, by omega, hdeep.2⟩
            rw [hg]
            exact hs
          | error hr => exact ih ((h.refused hexpand).trans hg) his

/-! ## The loop ends -/

theorem eq_take_append {α : Type} {xs : List α} {i : ℕ} {x : α} (h : xs[i]? = some x) :
    xs = xs.take i ++ x :: xs.drop (i + 1) := by
  obtain ⟨hi, rfl⟩ := List.getElem?_eq_some_iff.1 h
  rw [← List.drop_eq_getElem_cons hi, List.take_append_drop]

/-- Members take room; without members there is one symbol less to expand. -/
theorem weight_expand {ss members : List (GroupSymbol ι)} {i : ℕ} {s : GroupSymbol ι}
    (hs : ss[i]? = some s) (hcollapsed : s.expanded = false) (hroom : ss.length < kMaxExpandedNodes)
    (hmembers : ∀ m ∈ members, m.expanded = false) :
    weight (ss.take i ++ { s with expanded := true } :: members ++ ss.drop (i + 1)) <
      weight ss := by
  have hcount : members.countP (fun m => !m.expanded) = members.length :=
    List.countP_eq_length.2 fun m hm => by rw [hmembers m hm]; rfl
  rw [eq_take_append hs] at hroom
  conv_rhs => rw [eq_take_append hs]
  simp only [weight, List.length_append, List.length_cons, List.countP_append, List.countP_cons,
    hcollapsed, hcount, kMaxExpandedNodes, List.append_assoc, List.cons_append] at hroom ⊢
  split_ifs <;> simp_all <;> omega

/-- What was expanded stays, and so does the symbol that now is. -/
theorem SymbolGroup.Expands.keeps (h : group.Expands symbols) {g g' : G} {i : ℕ} {s : GroupSymbol ι}
    (hs : MayExpand group symbols g i s) (hexpand : group.expandSymbol g i = (.ok (), g')) :
    { s with expanded := true } ∈ symbols g' ∧
      ∀ t ∈ symbols g, t.expanded = true → t ∈ symbols g' := by
  obtain ⟨members, hg', -⟩ := h.expanded hs.symbol hexpand
  rw [hg']
  refine ⟨by simp, fun t ht hexpanded => ?_⟩
  rw [eq_take_append hs.symbol, List.mem_append, List.mem_cons] at ht
  rcases ht with ht | rfl | ht
  · exact List.mem_append_left _ (List.mem_append_left _ ht)
  · rw [hs.collapsed] at hexpanded
    cases hexpanded
  · exact List.mem_append_right _ ht

theorem SymbolGroup.Expands.weight_lt (h : group.Expands symbols) {g g' : G} {i : ℕ}
    {s : GroupSymbol ι} (hs : MayExpand group symbols g i s)
    (hroom : (symbols g).length < kMaxExpandedNodes)
    (hexpand : group.expandSymbol g i = (.ok (), g')) :
    weight (symbols g') < weight (symbols g) := by
  obtain ⟨members, hg', hmembers⟩ := h.expanded hs.symbol hexpand
  rw [hg']
  exact weight_expand hs.symbol hs.collapsed hroom fun m hm => (hmembers m hm).1

/-- The name of the symbol at an entry. -/
def nameAt (symbols : G → List (GroupSymbol ι)) (e : G × ℕ) : Option ι :=
  (symbols e.1)[e.2]?.map GroupSymbol.name

/-- Only symbols that may be expanded were, each once, while there was room. -/
structure RightlyExpanded (group : SymbolGroup G) (symbols : G → List (GroupSymbol ι))
    (es : List (G × ℕ)) : Prop where
  room : ∀ e ∈ es, (symbols e.1).length < kMaxExpandedNodes
  may : ∀ e ∈ es, ∃ s, MayExpand group symbols e.1 e.2 s
  once : (es.map (nameAt symbols)).Nodup

theorem RightlyExpanded.nil : RightlyExpanded group symbols [] :=
  ⟨List.forall_mem_nil _, List.forall_mem_nil _, List.nodup_nil⟩

/-- The bound only has to exceed the weight. -/
def LoopEnds (group : SymbolGroup G) (symbols : G → List (GroupSymbol ι)) (g : G) : Prop :=
  ∃ es g', (∀ bound, weight (symbols g) < bound → expansionLoop group bound g = some (es, g')) ∧
    RightlyExpanded group symbols es ∧
    ∀ e ∈ es, ∀ t ∈ symbols g, t.expanded = true → nameAt symbols e ≠ some t.name

/-- One symbol more in front of those that the rest of the loop expands. -/
theorem LoopEnds.cons (h : group.Expands symbols) {g g₁ g' : G} {i : ℕ} {s : GroupSymbol ι}
    (hg : symbols g₁ = symbols g) (hs : MayExpand group symbols g₁ i s)
    (hroom : (symbols g).length < kMaxExpandedNodes)
    (hexpand : group.expandSymbol g₁ i = (.ok (), g'))
    (hloop : ∀ bound, expansionLoop group (bound + 1) g =
      (expansionLoop group bound g').bind fun r => some ((g₁, i) :: r.1, r.2))
    (hrest : LoopEnds group symbols g') : LoopEnds group symbols g := by
  obtain ⟨es, g'', hends, hright, hnew⟩ := hrest
  obtain ⟨hself, hothers⟩ := h.keeps hs hexpand
  have hlt : weight (symbols g') < weight (symbols g) := by
    rw [← hg] at hroom ⊢
    exact h.weight_lt hs hroom hexpand
  have hname : nameAt symbols (g₁, i) = some s.name := by
    rw [nameAt, hs.symbol, Option.map_some]
  refine ⟨(g₁, i) :: es, g'', fun bound hbound => ?_, ⟨?_, ?_, ?_⟩, ?_⟩
  · obtain ⟨bound, rfl⟩ : ∃ b, bound = b + 1 := ⟨bound - 1, by omega⟩
    rw [hloop, hends bound (by omega), Option.bind_some]
  · exact List.forall_mem_cons.2 ⟨by rw [hg]; exact hroom, hright.room⟩
  · exact List.forall_mem_cons.2 ⟨⟨s, hs⟩, hright.may⟩
  · -- the names of the rest are not those of what is expanded by now
    rw [List.map_cons, List.nodup_cons]
    refine ⟨fun hmem => ?_, hright.once⟩
    obtain ⟨e, he, heq⟩ := List.mem_map.1 hmem
    exact hnew e he _ hself rfl (heq.trans hname)
  · refine List.forall_mem_cons.2 ⟨fun t ht hexpanded heq => ?_, fun e he t ht => ?_⟩
    · -- names are distinct, and the symbol at the entry was not expanded
      rw [hname, Option.some_inj] at heq
      rw [← hg] at ht
      have hmem : s ∈ symbols g₁ := List.mem_of_getElem? hs.symbol
      have hst : s = t := List.inj_on_of_nodup_map (h.distinct g₁) hmem ht heq
      rw [← hst, hs.collapsed] at hexpanded
      cases hexpanded
    · intro hexpanded
      rw [← hg] at ht
      exact hnew e he t (hothers t ht hexpanded) hexpanded

theorem LoopEnds.stop {g : G} (g' : G)
    (hloop : ∀ bound, expansionLoop group (bound + 1) g = some ([], g')) :
    LoopEnds group symbols g := by
  refine ⟨[], g', fun bound hbound => ?_, .nil, List.forall_mem_nil _⟩
  obtain ⟨bound, rfl⟩ : ∃ b, bound = b + 1 := ⟨bound - 1, by omega⟩
  exact hloop bound

theorem loopEnds (h : group.Expands symbols) (g : G) : LoopEnds group symbols g := by
  induction hw : weight (symbols g) using Nat.strong_induction_on generalizing g with
  | h w ih =>
    subst hw
    cases hcount : group.getNumberSymbols g with
    | error hr => exact .stop _ fun bound => by rw [expansionLoop, hcount]
    | ok count =>
      have hlength := h.count hcount
      by_cases hfull : (count = 0 || kMaxExpandedNodes ≤ count) = true
      · exact .stop _ fun bound => by rw [expansionLoop, hcount]; exact if_pos hfull
      cases hparams : group.getSymbolParameters g count with
      | error hr =>
        refine .stop g fun bound => ?_
        rw [expansionLoop, hcount]
        dsimp only
        rw [if_neg hfull, hparams]
      | ok params =>
        have hpass (bound : ℕ) : expansionLoop group (bound + 1) g = (do
            let (expanded, g') ← expandOne group params g (List.range count)
            match expanded with
            | none => return ([], g')
            | some e => do
              let (es, g'') ← expansionLoop group bound g'
              return (e :: es, g'')) := by
          rw [expansionLoop, hcount]
          dsimp only
          rw [if_neg hfull, hparams]
        rw [hlength] at hparams
        obtain ⟨expanded, g', hone, hspec⟩ := expandOne_spec h hparams (g := g) rfl
          (List.range count) fun i hi => hlength ▸ List.mem_range.1 hi
        cases expanded with
        | none => exact .stop _ fun bound => by rw [hpass, hone]; rfl
        | some e =>
          obtain ⟨g₁, i⟩ := e
          obtain ⟨hg, hexpand, s, hs⟩ := hspec
          have hroom : (symbols g).length < kMaxExpandedNodes := by
            simp only [Bool.or_eq_true, decide_eq_true_eq, not_or] at hfull
            omega
          have hlt : weight (symbols g') < weight (symbols g) := by
            rw [← hg] at hroom ⊢
            exact h.weight_lt hs hroom hexpand
          exact .cons h hg hs hroom hexpand (fun bound => by rw [hpass, hone]; rfl)
            (ih _ hlt g' rfl)

/-- The loop ends: beyond the weight the bound makes no difference.  It expands no symbol twice,
and only what may be expanded, while there is room.  The depth ends where parents come first. -/
theorem expansionLoop_ends (h : group.Expands symbols) (g : G) :
    (∃ es g', (∀ bound, weight (symbols g) < bound →
        expansionLoop group bound g = some (es, g')) ∧ RightlyExpanded group symbols es) ∧
      ∀ params, ParentsFirst params → ∀ index < params.length,
        ∃ depth, symbolDepth params index = some depth := by
  obtain ⟨es, g', hends, hright, -⟩ := loopEnds h g
  exact ⟨⟨es, g', hends, hright⟩, fun params hparams index hindex =>
    Option.isSome_iff_exists.1 (symbolDepth_isSome hparams hindex)⟩

end

/-- A point with one member; the state is whether it is expanded. -/
def pointGroup : SymbolGroup Bool where
  getNumberSymbols g := .ok (if g then 2 else 1)
  getSymbolParameters g _ :=
    .ok (if g then [⟨kDebugAnyId, 1, kDebugSymbolExpanded⟩, ⟨0, 0, 0⟩] else [⟨kDebugAnyId, 1, 0⟩])
  getSymbolTypeName _ i := some (if i = 0 then "Point" else "int")
  expandSymbol
    | false, 0 => (.ok (), true)
    | g, _ => (.error 1, g)

def pointSymbols : Bool → List (GroupSymbol ℕ)
  | false => [⟨0, false, 0⟩]
  | true => [⟨0, true, 0⟩, ⟨1, false, 1⟩]

theorem pointGroup_expands : pointGroup.Expands pointSymbols where
  distinct g := by cases g <;> decide
  count {g n} h := by cases g <;> cases h <;> rfl
  flags {g params} h := by cases g <;> cases h <;> decide
  depths {g params} h i s hs := by
    cases g <;> cases h
    · match i, hs with
      | 0, rfl => decide
    · match i, hs with
      | 0, rfl => decide
      | 1, rfl => decide
  expanded {g g' i s} hs h := by
    match g, i, h with
    | false, 0, h =>
      cases h
      cases hs
      exact ⟨[⟨1, false, 1⟩], rfl, by decide⟩
  refused {g g' i hr} h := by
    match g, i, h with
    | false, _ + 1, rfl => rfl
    | true, _, rfl => rfl

theorem pointGroup_ends :
    ∃ es g', (∀ bound, weight (pointSymbols false) < bound →
        expansionLoop pointGroup bound false = some (es, g')) ∧
      RightlyExpanded pointGroup pointSymbols es :=
  (expansionLoop_ends pointGroup_expands false).1

end DapDbgeng
