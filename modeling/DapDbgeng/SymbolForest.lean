/-
  The tree of locals.

  The engine lists the symbols of a scope with the index of the parent of each.  The adapter moves
  them into their parents from the last to the first.

  Main result: `linkSymbols_forest`, the trees are the forest the list describes.
-/
import DapDbgeng.Session
import DapDbgeng.ParentForest

namespace DapDbgeng

namespace Session

open ParentForest

/-! ## The forest of a list of symbols -/

/-- The node of one symbol, without its children. -/
def symbolNode (s : FlatSymbol) : VariableNode :=
  { name := s.name, value := normalizeValueText s.value, type := s.type
    isExpandable := s.isExpandable, address := s.address, size := s.size }

variable (symbols : List FlatSymbol)

def symbolParent (i : ℕ) : Option ℕ := symbols[i]?.bind FlatSymbol.parent

def symbolEntry (i : ℕ) : VariableNode := symbolNode (symbols[i]?.getD {})

mutual

/-- The tree of nodes for a tree of indices. -/
def render : Tree → VariableNode
  | .node i ts => { symbolEntry symbols i with children := renderAll ts }

def renderAll : List Tree → List VariableNode
  | [] => []
  | t :: ts => render t :: renderAll ts

end

mutual

/-- The nodes of a tree, without their children, in preorder. -/
def entries : VariableNode → List VariableNode
  | { name, value, type, isExpandable, address, size, children } =>
    { name, value, type, isExpandable, address, size } :: entriesOfAll children

def entriesOfAll : List VariableNode → List VariableNode
  | [] => []
  | node :: nodes => entries node ++ entriesOfAll nodes

end

variable {symbols}

theorem renderAll_eq (ts : List Tree) : renderAll symbols ts = ts.map (render symbols) := by
  induction ts with
  | nil => rfl
  | cons t ts ih => rw [renderAll, ih, List.map_cons]

theorem entriesOfAll_eq (nodes : List VariableNode) : entriesOfAll nodes = nodes.flatMap entries := by
  induction nodes with
  | nil => rfl
  | cons node nodes ih => rw [entriesOfAll, ih, List.flatMap_cons]

mutual

theorem entries_render :
    ∀ t : Tree, entries (render symbols t) = t.nodes.map fun t => symbolEntry symbols t.index
  | .node i ts => by
    rw [render, entries, Tree.nodes, List.map_cons, entriesOfAll_render ts]
    rfl

theorem entriesOfAll_render : ∀ ts : List Tree, entriesOfAll (renderAll symbols ts) =
    (Tree.nodesOfAll ts).map fun t => symbolEntry symbols t.index
  | [] => rfl
  | t :: ts => by
    rw [renderAll, entriesOfAll, Tree.nodesOfAll, List.map_append, entries_render t,
      entriesOfAll_render ts]

end

/-- A list is its elements by index. -/
theorem map_symbolEntry :
    (List.range symbols.length).map (symbolEntry symbols) = symbols.map symbolNode := by
  refine List.ext_getElem? fun i => ?_
  rw [List.getElem?_map, List.getElem?_map]
  rcases Nat.lt_or_ge i symbols.length with hlt | hge
  · rw [List.getElem?_range hlt, List.getElem?_eq_getElem hlt, Option.map_some, Option.map_some,
      symbolEntry, List.getElem?_eq_getElem hlt, Option.getD_some]
  · rw [List.getElem?_eq_none (by simpa using hge), List.getElem?_eq_none hge]
    rfl

/-! ## The loop -/

/-- One step of the loop: the node is moved in front of its parent's children. -/
def link (symbols : List FlatSymbol) (ns : List VariableNode) (i : ℕ) : List VariableNode :=
  match symbols[i]?.bind FlatSymbol.parent, ns[i]? with
  | some parent, some child => ns.modify parent fun p => { p with children := child :: p.children }
  | _, _ => ns

theorem linkSymbols_eq (symbols : List FlatSymbol) : linkSymbols symbols =
    (symbols.zip ((List.range symbols.length).reverse.foldl (link symbols)
      (symbols.map symbolNode))).filterMap fun p => if p.1.parent.isNone then some p.2 else none :=
  rfl

/-- The children of a node from `k` on. -/
def childrenFrom (symbols : List FlatSymbol) (k i : ℕ) : List ℕ :=
  (List.range' k (symbols.length - k)).filter fun j => symbolParent symbols j = some i

/-- The nodes when those from `k` on were moved: each has its children from `k` on, complete. -/
def Linked (symbols : List FlatSymbol) (k : ℕ) (ns : List VariableNode) : Prop :=
  ∀ i, ns[i]? = if i < symbols.length then
    some { symbolEntry symbols i with
      children := (childrenFrom symbols k i).map fun j =>
        render symbols (treeOf (symbolParent symbols) symbols.length j) }
    else none

theorem childrenFrom_eq {k : ℕ} (hk : k < symbols.length) (i : ℕ) :
    childrenFrom symbols k i = if symbolParent symbols k = some i
      then k :: childrenFrom symbols (k + 1) i else childrenFrom symbols (k + 1) i := by
  rw [childrenFrom, show symbols.length - k = symbols.length - (k + 1) + 1 by omega,
    List.range'_succ, List.filter_cons]
  simp only [decide_eq_true_eq]
  rfl

section

variable (hsmaller : ∀ i p, i < symbols.length → symbolParent symbols i = some p → p < i)
include hsmaller

/-- The children of a node all come behind it. -/
theorem childrenFrom_succ_self (k : ℕ) :
    childrenFrom symbols (k + 1) k =
      childrenOf (symbolParent symbols) symbols.length (some k) := by
  rcases Nat.lt_or_ge k symbols.length with hk | hk
  · have hsplit : List.range symbols.length =
        List.range (k + 1) ++ List.range' (k + 1) (symbols.length - (k + 1)) := by
      have happend := List.range'_append_1 (s := 0) (m := k + 1) (n := symbols.length - (k + 1))
      rw [Nat.zero_add, Nat.add_sub_cancel' hk] at happend
      rw [List.range_eq_range', List.range_eq_range', happend]
    rw [childrenOf, hsplit, List.filter_append, List.filter_eq_nil_iff.2, List.nil_append]
    · rfl
    · intro j hj
      have hlt := List.mem_range.1 hj
      simp only [decide_eq_true_eq]
      intro hparent
      have hle := hsmaller j k (by omega) hparent
      omega
  · have hnone : childrenOf (symbolParent symbols) symbols.length (some k) = [] := by
      refine List.eq_nil_iff_forall_not_mem.2 fun j hj => ?_
      obtain ⟨hlt, hparent⟩ := mem_childrenOf.1 hj
      have hle := hsmaller j k hlt hparent
      omega
    rw [hnone, childrenFrom, show symbols.length - (k + 1) = 0 by omega]
    rfl

/-- When the loop comes to a node, it has all its children. -/
theorem Linked.complete {k : ℕ} {ns : List VariableNode} (h : Linked symbols (k + 1) ns)
    (hk : k < symbols.length) :
    ns[k]? = some (render symbols (treeOf (symbolParent symbols) symbols.length k)) := by
  rw [h k, if_pos hk, childrenFrom_succ_self hsmaller, treeOf_eq hsmaller, render, renderAll_eq,
    List.map_map]
  rfl

/-- **A step of the loop.** -/
theorem Linked.step {k : ℕ} {ns : List VariableNode} (h : Linked symbols (k + 1) ns)
    (hk : k < symbols.length) : Linked symbols k (link symbols ns k) := by
  intro i
  rw [link, h.complete hsmaller hk]
  cases hparent : symbols[k]?.bind FlatSymbol.parent with
  | none =>
    have hsame : childrenFrom symbols k i = childrenFrom symbols (k + 1) i := by
      rw [childrenFrom_eq hk, if_neg]
      rw [symbolParent, hparent]
      exact fun h => nomatch h
    rw [hsame]
    exact h i
  | some p =>
    dsimp only
    by_cases hip : p = i
    · subst hip
      have hmore : childrenFrom symbols k p = k :: childrenFrom symbols (k + 1) p :=
        (childrenFrom_eq hk p).trans (if_pos hparent)
      rw [List.getElem?_modify_eq, h p, hmore]
      split <;> rfl
    · have hsame : childrenFrom symbols k i = childrenFrom symbols (k + 1) i := by
        rw [childrenFrom_eq hk, if_neg]
        rw [symbolParent, hparent]
        exact fun h => hip (Option.some.inj h)
      rw [List.getElem?_modify_ne _ _ hip, hsame]
      exact h i

theorem linked_foldl (m : ℕ) {k : ℕ} (hk : k + m = symbols.length) :
    Linked symbols k ((List.range' k m).reverse.foldl (link symbols) (symbols.map symbolNode)) := by
  induction m generalizing k with
  | zero =>
    intro i
    have hnone : childrenFrom symbols k i = [] := by
      rw [childrenFrom, show symbols.length - k = 0 by omega]
      rfl
    rw [hnone, List.map_nil, List.range'_zero, List.reverse_nil, List.foldl_nil, List.getElem?_map]
    rcases Nat.lt_or_ge i symbols.length with hlt | hge
    · rw [if_pos hlt, symbolEntry, List.getElem?_eq_getElem hlt]
      rfl
    · rw [if_neg (by omega), List.getElem?_eq_none hge]
      rfl
  | succ m ih =>
    rw [List.range'_succ, List.reverse_cons, List.foldl_append]
    exact (ih (k := k + 1) (by omega)).step hsmaller (by omega)

/-- After the loop every node is complete. -/
theorem linked_complete : (List.range symbols.length).reverse.foldl (link symbols)
    (symbols.map symbolNode) = (List.range symbols.length).map fun i =>
      render symbols (treeOf (symbolParent symbols) symbols.length i) := by
  have hlinked := linked_foldl hsmaller symbols.length (k := 0) (Nat.zero_add _)
  rw [← List.range_eq_range'] at hlinked
  refine List.ext_getElem? fun i => ?_
  rw [hlinked i, List.getElem?_map]
  rcases Nat.lt_or_ge i symbols.length with hlt | hge
  · have hall : childrenFrom symbols 0 i =
        childrenOf (symbolParent symbols) symbols.length (some i) := by
      rw [childrenFrom, childrenOf, Nat.sub_zero, ← List.range_eq_range']
    rw [if_pos hlt, List.getElem?_range hlt, hall, Option.map_some, treeOf_eq hsmaller i, render,
      renderAll_eq, List.map_map]
    rfl
  · rw [if_neg (by omega), List.getElem?_eq_none (by simpa using hge)]
    rfl

end

theorem filterMap_ite {α β : Type} (p : α → Bool) (f : α → β) (l : List α) :
    (l.filterMap fun a => if p a then some (f a) else none) = (l.filter p).map f := by
  induction l with
  | nil => rfl
  | cons a l ih =>
    rw [List.filterMap_cons, List.filter_cons]
    split <;> simp_all

/-- The roots are picked by index. -/
theorem pick_roots (f : ℕ → VariableNode) :
    (symbols.zip ((List.range symbols.length).map f)).filterMap (fun p =>
      if p.1.parent.isNone then some p.2 else none) =
      (childrenOf (symbolParent symbols) symbols.length none).map f := by
  have hsymbols : (List.range symbols.length).map (fun i => symbols[i]?.getD {}) = symbols := by
    refine List.ext_getElem? fun i => ?_
    rw [List.getElem?_map]
    rcases Nat.lt_or_ge i symbols.length with hlt | hge
    · rw [List.getElem?_range hlt, Option.map_some, List.getElem?_eq_getElem hlt, Option.getD_some]
    · rw [List.getElem?_eq_none (by simpa using hge), List.getElem?_eq_none hge]
      rfl
  have hzip : symbols.zip ((List.range symbols.length).map f) =
      (List.range symbols.length).map fun i => (symbols[i]?.getD {}, f i) := by
    conv_lhs => rw [← hsymbols, List.length_map, List.length_range]
    exact List.zip_map'
  rw [hzip, List.filterMap_map]
  refine (filterMap_ite (fun i => (symbols[i]?.getD {}).parent.isNone) f _).trans ?_
  refine congrArg _ (List.filter_congr fun i hi => ?_)
  have hlt := List.mem_range.1 hi
  rw [symbolParent, List.getElem?_eq_getElem hlt, Option.getD_some, Option.bind_some]
  cases symbols[i].parent <;> rfl

/-- **The trees are the forest the list describes.**  Every symbol occurs once, below the parent
the list states and among its siblings by index, the roots are the symbols without parent by
index, and a list in depth-first order is the preorder of the trees. -/
theorem linkSymbols_forest (symbols : List FlatSymbol)
    (hsmaller : ∀ i p, i < symbols.length → symbolParent symbols i = some p → p < i) :
    ∃ ts : List Tree,
      linkSymbols symbols = ts.map (render symbols) ∧
      (Tree.preorder ts).Perm (List.range symbols.length) ∧
      ts.map Tree.index = childrenOf (symbolParent symbols) symbols.length none ∧
      (∀ t ∈ ts.flatMap Tree.nodes, t.children.map Tree.index =
        childrenOf (symbolParent symbols) symbols.length (some t.index)) ∧
      (DepthFirst (symbolParent symbols) symbols.length →
        Tree.preorder ts = List.range symbols.length ∧
          (linkSymbols symbols).flatMap entries = symbols.map symbolNode) := by
  have hlinked : linkSymbols symbols =
      (forest (symbolParent symbols) symbols.length).map (render symbols) := by
    rw [linkSymbols_eq, linked_complete hsmaller, pick_roots, forest, List.map_map]
    rfl
  have hentries : (linkSymbols symbols).flatMap entries =
      (Tree.preorder (forest (symbolParent symbols) symbols.length)).map
        (symbolEntry symbols) := by
    rw [hlinked, ← renderAll_eq, ← entriesOfAll_eq, entriesOfAll_render, Tree.nodesOfAll_eq,
      Tree.preorder, List.map_map]
    rfl
  refine ⟨_, hlinked, preorder_perm hsmaller, roots_forest hsmaller,
    fun t ht => nodes_children hsmaller ht, fun hdepth => ?_⟩
  have hpreorder := preorder_eq_range hsmaller hdepth
  exact ⟨hpreorder, by rw [hentries, hpreorder, map_symbolEntry]⟩

/-- A structure with a field, and a variable behind it. -/
def structureFirst : List FlatSymbol :=
  [{ name := "p", isExpandable := true }, { name := "x", parent := some 0 }, { name := "i" }]

theorem linkSymbols_structure : ∃ ts : List Tree,
    linkSymbols structureFirst = ts.map (render structureFirst) ∧
      (Tree.preorder ts).Perm [0, 1, 2] ∧ ts.map Tree.index = [0, 2] := by
  obtain ⟨ts, hlinked, hperm, hroots, -⟩ := linkSymbols_forest structureFirst (by
    intro i p hi hp
    match i, hi with
    | 0, _ => cases hp
    | 1, _ =>
      cases hp
      decide
    | 2, _ => cases hp)
  exact ⟨ts, hlinked, hperm, hroots⟩

end Session

end DapDbgeng
