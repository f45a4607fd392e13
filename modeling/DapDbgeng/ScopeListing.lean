/-
  Listing the variables of a scope.

  A scope is a forest of variables; some are opened and show their members.  The engine lists it as
  a flat list, every variable in front of its members, with the index of the parent of each.

  * `listing`: the list;
  * `symbolDepth_listing`: `symbol_depth` finds how deep a variable lies;
  * `linkSymbols_listing`: `get_locals_tree` makes the forest from the list again.
-/
import DapDbgeng.SymbolExpansion
import DapDbgeng.SymbolForest

namespace DapDbgeng

open Session ParentForest

/-- A variable with the members it shows. -/
inductive ShownSymbol (ι : Type) where
  | node (name : ι) (opened : Bool) (members : List (ShownSymbol ι))

/-- A line of the list. -/
structure ListedSymbol (ι : Type) extends GroupSymbol ι where
  parent : Option ℕ

namespace ShownSymbol

variable {ι : Type}

mutual

def size : ShownSymbol ι → ℕ
  | node _ _ members => sizeAll members + 1

def sizeAll : List (ShownSymbol ι) → ℕ
  | [] => 0
  | s :: ss => s.size + sizeAll ss

end

mutual

/-- The lines of a variable that lies at the given depth and is listed from `i` on. -/
def listing (parent : Option ℕ) (depth i : ℕ) : ShownSymbol ι → List (ListedSymbol ι)
  | node name opened members =>
    ⟨⟨name, opened, depth⟩, parent⟩ :: listingAll (some i) (depth + 1) (i + 1) members

def listingAll (parent : Option ℕ) (depth i : ℕ) : List (ShownSymbol ι) → List (ListedSymbol ι)
  | [] => []
  | s :: ss => s.listing parent depth i ++ listingAll parent depth (i + s.size) ss

end

/-- Where the variables of a forest are listed. -/
def starts : ℕ → List (ShownSymbol ι) → List ℕ
  | _, [] => []
  | i, s :: ss => i :: starts (i + s.size) ss

mutual

theorem length_listing : ∀ (s : ShownSymbol ι) (parent : Option ℕ) (depth i : ℕ),
    (s.listing parent depth i).length = s.size
  | node name opened members, parent, depth, i => by
    rw [listing, List.length_cons, length_listingAll, size]

theorem length_listingAll : ∀ (ss : List (ShownSymbol ι)) (parent : Option ℕ) (depth i : ℕ),
    (listingAll parent depth i ss).length = sizeAll ss
  | [], _, _, _ => rfl
  | s :: ss, parent, depth, i => by
    rw [listingAll, List.length_append, length_listing, length_listingAll, sizeAll]

end

theorem size_pos (s : ShownSymbol ι) : 0 < s.size := by
  cases s
  exact Nat.succ_pos _

theorem le_of_mem_starts {i k : ℕ} {ss : List (ShownSymbol ι)} (h : k ∈ starts i ss) :
    i ≤ k ∧ k < i + sizeAll ss := by
  induction ss generalizing i with
  | nil => cases h
  | cons s ss ih =>
    have hpos := s.size_pos
    rw [sizeAll]
    rcases List.mem_cons.1 h with rfl | h
    · omega
    · have := ih h
      omega

theorem starts_increasing (i : ℕ) (ss : List (ShownSymbol ι)) : (starts i ss).Pairwise (· < ·) := by
  induction ss generalizing i with
  | nil => exact .nil
  | cons s ss ih =>
    refine List.pairwise_cons.2 ⟨fun k hk => ?_, ih _⟩
    have hpos := s.size_pos
    have := (le_of_mem_starts hk).1
    omega

/-! ## Parents -/

/-- A line is one of the given variables, or its parent is a line in front of it. -/
def Belongs (ls : List (ListedSymbol ι)) (parent : Option ℕ) (depth i j : ℕ)
    (l : ListedSymbol ι) (isStart : Prop) : Prop :=
  (l.parent = parent ∧ l.depth = depth ∧ isStart) ∨
    ∃ m lp, m < j ∧ l.parent = some (i + m) ∧ ls[m]? = some lp ∧ l.depth = lp.depth + 1 ∧ ¬isStart

mutual

theorem belongs_listing : ∀ (s : ShownSymbol ι) {parent : Option ℕ} {depth i j : ℕ}
    {l : ListedSymbol ι}, (s.listing parent depth i)[j]? = some l →
      Belongs (s.listing parent depth i) parent depth i j l (j = 0)
  | node name opened members, parent, depth, i, 0, l, h => by
    cases h
    exact .inl ⟨rfl, rfl, rfl⟩
  | node name opened members, parent, depth, i, j + 1, l, h => by
    have h : (listingAll (some i) (depth + 1) (i + 1) members)[j]? = some l := h
    rcases belongs_listingAll members h with ⟨hp, hd, -⟩ | ⟨m, lp, hm, hp, hlp, hd, -⟩
    · exact .inr ⟨0, _, Nat.succ_pos j, hp, rfl, hd, Nat.succ_ne_zero j⟩
    · refine .inr ⟨m + 1, lp, Nat.succ_lt_succ hm, ?_, hlp, hd, Nat.succ_ne_zero j⟩
      rw [hp]
      congr 1
      omega

theorem belongs_listingAll : ∀ (ss : List (ShownSymbol ι)) {parent : Option ℕ} {depth i j : ℕ}
    {l : ListedSymbol ι}, (listingAll parent depth i ss)[j]? = some l →
      Belongs (listingAll parent depth i ss) parent depth i j l (i + j ∈ starts i ss)
  | [], _, _, _, _, _, h => by cases h
  | s :: ss, parent, depth, i, j, l, h => by
    have hlength := s.length_listing parent depth i
    rw [listingAll] at h ⊢
    rcases Nat.lt_or_ge j s.size with hlt | hge
    · rw [List.getElem?_append_left (by omega)] at h
      have hstart : i + j ∈ starts i (s :: ss) ↔ j = 0 := by
        rw [starts, List.mem_cons]
        constructor
        · rintro (heq | hmem)
          · omega
          · have := (le_of_mem_starts hmem).1
            omega
        · rintro rfl
          exact .inl rfl
      rcases belongs_listing s h with ⟨hp, hd, hj⟩ | ⟨m, lp, hm, hp, hlp, hd, hj⟩
      · exact .inl ⟨hp, hd, hstart.2 hj⟩
      · refine .inr ⟨m, lp, hm, hp, ?_, hd, mt hstart.1 hj⟩
        rw [List.getElem?_append_left (by omega)]
        exact hlp
    · rw [List.getElem?_append_right (by omega), hlength] at h
      have hstart : i + j ∈ starts i (s :: ss) ↔
          i + s.size + (j - s.size) ∈ starts (i + s.size) ss := by
        have hpos := s.size_pos
        rw [starts, List.mem_cons, show i + s.size + (j - s.size) = i + j by omega]
        exact or_iff_right (by omega)
      rcases belongs_listingAll ss h with ⟨hp, hd, hj⟩ | ⟨m, lp, hm, hp, hlp, hd, hj⟩
      · exact .inl ⟨hp, hd, hstart.2 hj⟩
      · refine .inr ⟨s.size + m, lp, by omega, ?_, ?_, hd, mt hstart.1 hj⟩
        · rw [hp]
          congr 1
          omega
        · rw [List.getElem?_append_right (by omega), hlength, Nat.add_sub_cancel_left]
          exact hlp

end

/-- The list of a whole scope. -/
abbrev listed (ss : List (ShownSymbol ι)) : List (ListedSymbol ι) := listingAll none 0 0 ss

theorem belongs_listed {ss : List (ShownSymbol ι)} {j : ℕ} {l : ListedSymbol ι}
    (h : (listed ss)[j]? = some l) : (l.parent = none ∧ l.depth = 0) ∨
      ∃ m lp, m < j ∧ l.parent = some m ∧ (listed ss)[m]? = some lp ∧ l.depth = lp.depth + 1 := by
  rcases belongs_listingAll ss h with ⟨hp, hd, -⟩ | ⟨m, lp, hm, hp, hlp, hd, -⟩
  · exact .inl ⟨hp, hd⟩
  · exact .inr ⟨m, lp, hm, by rw [hp, Nat.zero_add], hlp, hd⟩

/-! ## Depth -/

section

variable {ss : List (ShownSymbol ι)} {params : List SymbolParameters}
  (hparents : params.map SymbolParameters.parentSymbol =
    (listed ss).map fun l => l.parent.getD kDebugAnyId)
include hparents

theorem exists_parameters {j : ℕ} {l : ListedSymbol ι} (h : (listed ss)[j]? = some l) :
    ∃ p, params[j]? = some p ∧ p.parentSymbol = l.parent.getD kDebugAnyId := by
  have hparent : (params.map SymbolParameters.parentSymbol)[j]? =
      some (l.parent.getD kDebugAnyId) := by
    rw [hparents, List.getElem?_map, h, Option.map_some]
  rw [List.getElem?_map] at hparent
  exact Option.map_eq_some_iff.1 hparent

variable (hcount : (listed ss).length ≤ kDebugAnyId)
include hcount

theorem hops_root (bound : ℕ) : hops params bound kDebugAnyId = some 0 := by
  have hlength : params.length = (listed ss).length := by
    simpa using congrArg List.length hparents
  have hnone : params[kDebugAnyId]? = none := List.getElem?_eq_none (by omega)
  rw [hops, hnone]

theorem hops_listing (bound : ℕ) {j : ℕ} {l : ListedSymbol ι} (h : (listed ss)[j]? = some l)
    (hj : j < bound) : hops params bound j = some (l.depth + 1) := by
  induction bound generalizing j l with
  | zero => omega
  | succ bound ih =>
    obtain ⟨p, hp, hparent⟩ := exists_parameters hparents h
    have hany : j ≠ kDebugAnyId := by
      have := (List.getElem?_eq_some_iff.1 h).1
      omega
    rw [hops, hp]
    dsimp only
    rw [if_neg hany, hparent]
    rcases belongs_listed h with ⟨hnone, hdepth⟩ | ⟨m, lp, hm, hsome, hlp, hdepth⟩
    · rw [hnone, Option.getD_none, hops_root hparents hcount, hdepth]
      rfl
    · rw [hsome, Option.getD_some, ih hlp (by omega), hdepth]
      rfl

/-- **`symbol_depth` is the depth.** -/
theorem symbolDepth_listing {j : ℕ} {l : ListedSymbol ι} (h : (listed ss)[j]? = some l) :
    symbolDepth params j = some l.depth := by
  obtain ⟨p, hp, hparent⟩ := exists_parameters hparents h
  have hj : j < params.length := (List.getElem?_eq_some_iff.1 hp).1
  rw [symbolDepth, hp, Option.bind_some, hparent]
  rcases belongs_listed h with ⟨hnone, hdepth⟩ | ⟨m, lp, hm, hsome, hlp, hdepth⟩
  · rw [hnone, Option.getD_none, hops_root hparents hcount, hdepth]
  · rw [hsome, Option.getD_some, hops_listing hparents hcount _ hlp (by omega), hdepth]

end

/-! ## The forest again -/

section

variable (view : ι → Bool → FlatSymbol)

/-- What `get_locals_tree` reads of a line. -/
def flat (l : ListedSymbol ι) : FlatSymbol := { view l.name l.expanded with parent := l.parent }

mutual

/-- The nodes that show a variable. -/
def present : ShownSymbol ι → VariableNode
  | node name opened members =>
    { symbolNode (view name opened) with children := presentAll members }

def presentAll : List (ShownSymbol ι) → List VariableNode
  | [] => []
  | s :: ss => s.present :: presentAll ss

end

/-- The variables are listed from `i` on, and what comes later belongs to none of them. -/
structure Placed (symbols : List FlatSymbol) (parent : Option ℕ) (depth i : ℕ)
    (ss : List (ShownSymbol ι)) : Prop where
  lines : ∀ j < sizeAll ss,
    symbols[i + j]? = ((listingAll parent depth i ss)[j]?).map (flat view)
  later : ∀ k m, i + sizeAll ss ≤ k → symbolParent symbols k = some m →
    m < i ∨ i + sizeAll ss ≤ m
  outside : ∀ p, parent = some p → p < i

variable {view} {symbols : List FlatSymbol} {parent : Option ℕ} {depth i : ℕ}
  {s : ShownSymbol ι} {ss : List (ShownSymbol ι)}

theorem Placed.symbolParent_eq (h : Placed view symbols parent depth i ss) {j : ℕ}
    (hj : j < sizeAll ss) : ∃ l, (listingAll parent depth i ss)[j]? = some l ∧
      symbolParent symbols (i + j) = l.parent := by
  have hlt : j < (listingAll parent depth i ss).length := by rwa [length_listingAll]
  refine ⟨_, List.getElem?_eq_getElem hlt, ?_⟩
  rw [symbolParent, h.lines j hj, List.getElem?_eq_getElem hlt]
  rfl

/-- A line of the variables has their parent exactly where one of them starts. -/
theorem Placed.starts_iff (h : Placed view symbols parent depth i ss) {j : ℕ}
    (hj : j < sizeAll ss) : symbolParent symbols (i + j) = parent ↔ i + j ∈ starts i ss := by
  obtain ⟨l, hl, hparent⟩ := h.symbolParent_eq hj
  rw [hparent]
  rcases belongs_listingAll ss hl with ⟨hp, -, hstart⟩ | ⟨m, lp, -, hp, -, -, hstart⟩
  · exact iff_of_true hp hstart
  · refine iff_of_false (fun heq => ?_) hstart
    have := h.outside _ (heq.symm.trans hp)
    omega

theorem Placed.head (h : Placed view symbols parent depth i (s :: ss)) :
    Placed view symbols parent depth i [s] := by
  have hsize : sizeAll [s] = s.size := Nat.add_zero _
  have hall : sizeAll (s :: ss) = s.size + sizeAll ss := rfl
  have hlist : listingAll parent depth i [s] = s.listing parent depth i := List.append_nil _
  refine ⟨fun j hj => ?_, fun k m hk hm => ?_, h.outside⟩
  · rw [h.lines j (by omega), hlist, listingAll,
      List.getElem?_append_left (by rw [length_listing]; omega)]
  · rcases Nat.lt_or_ge k (i + sizeAll (s :: ss)) with hlt | hge
    · obtain ⟨j, rfl⟩ : ∃ j, k = i + j := ⟨k - i, by omega⟩
      obtain ⟨l, hl, hparent⟩ := h.symbolParent_eq (j := j) (by omega)
      rw [listingAll, List.getElem?_append_right (by rw [length_listing]; omega)] at hl
      rw [hparent] at hm
      rcases belongs_listingAll ss hl with ⟨hp, -, -⟩ | ⟨m', lp, -, hp, -, -, -⟩
      · exact .inl (h.outside m (hp.symm.trans hm))
      · cases hp.symm.trans hm
        omega
    · rcases h.later k m hge hm with hlt | hge
      · exact .inl hlt
      · omega

theorem Placed.tail (h : Placed view symbols parent depth i (s :: ss)) :
    Placed view symbols parent depth (i + s.size) ss := by
  have hall : sizeAll (s :: ss) = s.size + sizeAll ss := rfl
  refine ⟨fun j hj => ?_, fun k m hk hm => ?_, fun p hp => ?_⟩
  · rw [show i + s.size + j = i + (s.size + j) by omega, h.lines _ (by omega), listingAll,
      List.getElem?_append_right (by rw [length_listing]; omega), length_listing,
      Nat.add_sub_cancel_left]
  · have := h.later k m (by omega) hm
    omega
  · have := h.outside p hp
    omega

theorem Placed.members {name : ι} {opened : Bool} {members : List (ShownSymbol ι)}
    (h : Placed view symbols parent depth i [.node name opened members]) :
    Placed view symbols (some i) (depth + 1) (i + 1) members := by
  have hsize : sizeAll [.node name opened members] = sizeAll members + 1 := Nat.add_zero _
  refine ⟨fun j hj => ?_, fun k m hk hm => ?_, fun p hp => ?_⟩
  · rw [show i + 1 + j = i + (j + 1) by omega, h.lines _ (by omega), listingAll, listing,
      listingAll, List.append_nil, List.getElem?_cons_succ]
  · have := h.later k m (by omega) hm
    omega
  · cases hp
    omega

/-- Two increasing lists of the same numbers are the same. -/
theorem eq_of_increasing {xs ys : List ℕ} (hx : xs.Pairwise (· < ·)) (hy : ys.Pairwise (· < ·))
    (h : ∀ k, k ∈ xs ↔ k ∈ ys) : xs = ys :=
  (List.perm_ext_iff_of_nodup (hx.imp Nat.ne_of_lt) (hy.imp Nat.ne_of_lt)).2 h |>.eq_of_pairwise
    (fun _ _ _ _ h h' => absurd h (Nat.lt_asymm h')) hx hy

/-- The parents are in front of their children. -/
def SmallerParents (symbols : List FlatSymbol) : Prop :=
  ∀ i p, i < symbols.length → symbolParent symbols i = some p → p < i

/-- The members of a variable are its children. -/
theorem Placed.childrenOf_eq (hsmaller : SmallerParents symbols) {name : ι} {opened : Bool}
    {members : List (ShownSymbol ι)}
    (h : Placed view symbols parent depth i [.node name opened members]) :
    childrenOf (symbolParent symbols) symbols.length (some i) = starts (i + 1) members := by
  have hmembers := h.members
  refine eq_of_increasing (childrenOf_increasing _) (starts_increasing _ _) fun k => ?_
  rw [mem_childrenOf]
  constructor
  · rintro ⟨hk, hparent⟩
    have hik := hsmaller k i hk hparent
    rcases Nat.lt_or_ge k (i + 1 + sizeAll members) with hlt | hge
    · obtain ⟨j, rfl⟩ : ∃ j, k = i + 1 + j := ⟨k - (i + 1), by omega⟩
      exact (hmembers.starts_iff (by omega)).1 hparent
    · -- what comes later belongs to other variables
      have hsize : sizeAll [.node name opened members] = sizeAll members + 1 := Nat.add_zero _
      have := h.later k i (by omega) hparent
      omega
  · intro hk
    obtain ⟨hle, hlt⟩ := le_of_mem_starts hk
    obtain ⟨j, rfl⟩ : ∃ j, k = i + 1 + j := ⟨k - (i + 1), by omega⟩
    refine ⟨?_, (hmembers.starts_iff (by omega)).2 hk⟩
    have hline := hmembers.lines j (by omega)
    have hj : j < (listingAll (some i) (depth + 1) (i + 1) members).length := by
      rw [length_listingAll]
      omega
    rw [List.getElem?_eq_getElem hj] at hline
    exact (List.getElem?_eq_some_iff.1 hline).1

mutual

theorem Placed.render_eq (hsmaller : SmallerParents symbols) :
    ∀ (s : ShownSymbol ι) {parent : Option ℕ} {depth i : ℕ},
    Placed view symbols parent depth i [s] →
      render symbols (treeOf (symbolParent symbols) symbols.length i) = s.present view
  | .node name opened members, parent, depth, i, h => by
    have hsize : sizeAll [.node name opened members] = sizeAll members + 1 := Nat.add_zero _
    have hline : symbols[i]? = some (flat view ⟨⟨name, opened, depth⟩, parent⟩) :=
      h.lines 0 (by omega)
    rw [treeOf_eq hsmaller, render, renderAll_eq, List.map_map, h.childrenOf_eq hsmaller,
      symbolEntry, hline, present, ← Placed.map_render_eq hsmaller members h.members]
    rfl

theorem Placed.map_render_eq (hsmaller : SmallerParents symbols) :
    ∀ (ss : List (ShownSymbol ι)) {parent : Option ℕ} {depth i : ℕ},
    Placed view symbols parent depth i ss →
      (starts i ss).map (fun k => render symbols (treeOf (symbolParent symbols) symbols.length k)) =
        presentAll view ss
  | [], _, _, _, _ => rfl
  | s :: ss, parent, depth, i, h => by
    rw [starts, List.map_cons, presentAll, Placed.render_eq hsmaller s h.head,
      Placed.map_render_eq hsmaller ss h.tail]

end

end

/-- **What was listed is shown.**  From the list of a scope, `get_locals_tree` makes the forest
that was listed. -/
theorem linkSymbols_listing (view : ι → Bool → FlatSymbol) (ss : List (ShownSymbol ι)) :
    linkSymbols ((listed ss).map (flat view)) = presentAll view ss := by
  have hlength : ((listed ss).map (flat view)).length = sizeAll ss := by
    rw [List.length_map, length_listingAll]
  have hsmaller : SmallerParents ((listed ss).map (flat view)) := by
    intro i p hi hp
    rw [List.length_map] at hi
    have hparent : (listed ss)[i].parent = some p := by
      rw [symbolParent, List.getElem?_map, List.getElem?_eq_getElem hi] at hp
      exact hp
    rcases belongs_listed (List.getElem?_eq_getElem hi) with ⟨hnone, -⟩ | ⟨m, -, hm, hsome, -⟩
    · rw [hnone] at hparent
      cases hparent
    · cases hsome.symm.trans hparent
      exact hm
  have hplaced : Placed view ((listed ss).map (flat view)) none 0 0 ss := by
    refine ⟨fun j _ => by rw [Nat.zero_add, List.getElem?_map], fun k m hk hm => ?_, by rintro p ⟨⟩⟩
    have hnone : ((listed ss).map (flat view))[k]? = none := List.getElem?_eq_none (by omega)
    rw [symbolParent, hnone] at hm
    cases hm
  have hroots : childrenOf (symbolParent ((listed ss).map (flat view)))
      ((listed ss).map (flat view)).length none = starts 0 ss := by
    refine eq_of_increasing (childrenOf_increasing _) (starts_increasing _ _) fun k => ?_
    rw [mem_childrenOf, hlength]
    constructor
    · rintro ⟨hk, hparent⟩
      have hstart := hplaced.starts_iff hk
      rw [Nat.zero_add] at hstart
      exact hstart.1 hparent
    · intro hk
      have hlt := (le_of_mem_starts hk).2
      rw [Nat.zero_add] at hlt
      have hstart := hplaced.starts_iff hlt
      rw [Nat.zero_add] at hstart
      exact ⟨hlt, hstart.2 hk⟩
  rw [linkSymbols_eq, linked_complete hsmaller, pick_roots, hroots]
  exact Placed.map_render_eq hsmaller ss hplaced

end ShownSymbol

end DapDbgeng
