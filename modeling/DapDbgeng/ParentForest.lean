/-
  Forests given by the parents of their nodes.

  The nodes are the numbers below `n`; a node has a smaller number as its parent, or none.  From
  such a list the forest is determined.  Main results:

  * `preorder_perm`: every node occurs once;
  * `nodes_children`: below every node of the forest stand its children, in order;
  * `preorder_eq_range`: a list in depth-first order is the preorder of its forest.
-/
import Mathlib.Data.List.Nodup
import Mathlib.Data.List.Sort
import Mathlib.Data.List.Range

namespace ParentForest

/-- A tree of numbered nodes. -/
inductive Tree where
  | node (index : ℕ) (children : List Tree)

namespace Tree

def index : Tree → ℕ
  | node i _ => i

def children : Tree → List Tree
  | node _ ts => ts

mutual

/-- The subtrees of a tree, a node in front of those below it. -/
def nodes : Tree → List Tree
  | node i ts => node i ts :: nodesOfAll ts

def nodesOfAll : List Tree → List Tree
  | [] => []
  | t :: ts => t.nodes ++ nodesOfAll ts

end

theorem nodesOfAll_eq (ts : List Tree) : nodesOfAll ts = ts.flatMap nodes := by
  induction ts with
  | nil => rfl
  | cons t ts ih => rw [nodesOfAll, ih, List.flatMap_cons]

/-- The numbers of a forest, a node in front of those below it. -/
def preorder (ts : List Tree) : List ℕ := (ts.flatMap nodes).map index

end Tree

variable (parent : ℕ → Option ℕ) (n : ℕ)

/-- The nodes with the given parent, or the roots. -/
def childrenOf (p : Option ℕ) : List ℕ := (List.range n).filter fun i => parent i = p

def treeWithin : ℕ → ℕ → Tree
  | 0, i => .node i []
  | depth + 1, i => .node i ((childrenOf parent n (some i)).map (treeWithin depth))

/-- The tree below a node. -/
def treeOf (i : ℕ) : Tree := treeWithin parent n n i

/-- The forest of all nodes. -/
def forest : List Tree := (childrenOf parent n none).map (treeOf parent n)

/-- The numbers of the tree below a node, a node in front of those below it. -/
def indices (i : ℕ) : List ℕ := (treeOf parent n i).nodes.map Tree.index

/-- A node is another or lies below it. -/
inductive Under (i : ℕ) : ℕ → Prop
  | refl : Under i i
  | step {p x : ℕ} : parent x = some p → Under i p → Under i x

/-- What stands between a node and a child of it lies below the node. -/
def DepthFirst : Prop :=
  ∀ i j k, k < n → parent k = some i → i < j → j < k → Under parent i j

variable {parent n}

theorem mem_childrenOf {p : Option ℕ} {i : ℕ} :
    i ∈ childrenOf parent n p ↔ i < n ∧ parent i = p := by
  rw [childrenOf, List.mem_filter, List.mem_range, decide_eq_true_eq]

theorem childrenOf_increasing (p : Option ℕ) : (childrenOf parent n p).Pairwise (· < ·) :=
  List.Pairwise.filter _ List.pairwise_lt_range

/-- Of two nodes above the same one lies below the other. -/
theorem Under.linear {i j x : ℕ} (h : Under parent i x) (h' : Under parent j x) :
    Under parent i j ∨ Under parent j i := by
  induction h with
  | refl => exact .inr h'
  | step hparent hp ih =>
    cases h' with
    | refl => exact .inl (.step hparent hp)
    | step hparent' hp' =>
      cases hparent.symm.trans hparent'
      exact ih hp'

theorem preorder_forest :
    Tree.preorder (forest parent n) = (childrenOf parent n none).flatMap (indices parent n) := by
  rw [Tree.preorder, forest, List.flatMap_map, List.map_flatMap]
  rfl

section

variable (hsmaller : ∀ i p, i < n → parent i = some p → p < i)
include hsmaller

/-! ## The tree below a node -/

/-- More depth than there are larger nodes changes nothing. -/
theorem treeWithin_succ {depth i : ℕ} (h : n - i ≤ depth) :
    treeWithin parent n (depth + 1) i = treeWithin parent n depth i := by
  induction depth generalizing i with
  | zero =>
    have hnone : childrenOf parent n (some i) = [] := by
      refine List.eq_nil_iff_forall_not_mem.2 fun j hj => ?_
      obtain ⟨hlt, hparent⟩ := mem_childrenOf.1 hj
      have hle := hsmaller j i hlt hparent
      omega
    rw [treeWithin, treeWithin, hnone, List.map_nil]
  | succ depth ih =>
    rw [treeWithin, treeWithin]
    refine congrArg _ (List.map_congr_left fun j hj => ih ?_)
    obtain ⟨hlt, hparent⟩ := mem_childrenOf.1 hj
    have hle := hsmaller j i hlt hparent
    omega

/-- A node with the trees below its children. -/
theorem treeOf_eq (i : ℕ) :
    treeOf parent n i = .node i ((childrenOf parent n (some i)).map (treeOf parent n)) := by
  have hsucc : treeOf parent n i = treeWithin parent n (n + 1) i :=
    (treeWithin_succ hsmaller (by omega)).symm
  rw [hsucc, treeWithin]
  rfl

theorem index_treeOf (i : ℕ) : (treeOf parent n i).index = i := by
  rw [treeOf_eq hsmaller]
  rfl

theorem nodes_treeOf (i : ℕ) :
    (treeOf parent n i).nodes = treeOf parent n i ::
      (childrenOf parent n (some i)).flatMap fun j => (treeOf parent n j).nodes := by
  rw [treeOf_eq hsmaller i, Tree.nodes, Tree.nodesOfAll_eq, List.flatMap_map]

/-! ## Below a node -/

theorem Under.le {i x : ℕ} (h : Under parent i x) (hx : x < n) : i ≤ x := by
  induction h with
  | refl => exact Nat.le_refl i
  | step hparent _ ih =>
    have hlt := hsmaller _ _ hx hparent
    exact Nat.le_trans (ih (by omega)) (Nat.le_of_lt hlt)

/-- The way down to a node leads over a child. -/
theorem under_iff {i x : ℕ} (hx : x < n) :
    Under parent i x ↔ x = i ∨ ∃ j ∈ childrenOf parent n (some i), Under parent j x := by
  constructor
  · intro h
    induction h with
    | refl => exact .inl rfl
    | @step p x hparent _ ih =>
      have hlt := hsmaller _ _ hx hparent
      rcases ih (by omega) with rfl | ⟨j, hj, hp⟩
      · exact .inr ⟨x, mem_childrenOf.2 ⟨hx, hparent⟩, .refl⟩
      · exact .inr ⟨j, hj, .step hparent hp⟩
  · rintro (rfl | ⟨j, hj, h⟩)
    · exact .refl
    · clear hx
      induction h with
      | refl => exact .step (mem_childrenOf.1 hj).2 .refl
      | step hparent _ ih => exact .step hparent ih

/-- Two nodes with the same parent have nothing below them in common. -/
theorem eq_of_under {i j x : ℕ} (hi : i < n) (hj : j < n) (hsame : parent i = parent j)
    (h : Under parent i x) (h' : Under parent j x) : i = j := by
  have apart {i j : ℕ} (hj : j < n) (hsame : parent i = parent j) (hi : i < n)
      (hij : Under parent i j) : i = j := by
    cases hij with
    | refl => rfl
    | @step p _ hparent hp =>
      have hlt := hsmaller i p hi (hsame.trans hparent)
      have hle := hp.le hsmaller (by have := hsmaller j p hj hparent; omega)
      omega
  rcases h.linear h' with hij | hji
  · exact apart hj hsame hi hij
  · exact (apart hi hsame.symm hj hji).symm

/-! ## The nodes of the forest -/

theorem indices_eq (i : ℕ) :
    indices parent n i = i :: (childrenOf parent n (some i)).flatMap (indices parent n) := by
  rw [indices, nodes_treeOf hsmaller, List.map_cons, List.map_flatMap, index_treeOf hsmaller]
  rfl

theorem mem_indices {i x : ℕ} (hi : i < n) :
    x ∈ indices parent n i ↔ x < n ∧ Under parent i x := by
  induction hm : n - i using Nat.strong_induction_on generalizing i with
  | h m ih =>
    have hchild (j : ℕ) (hj : j ∈ childrenOf parent n (some i)) :
        x ∈ indices parent n j ↔ x < n ∧ Under parent j x := by
      obtain ⟨hlt, hparent⟩ := mem_childrenOf.1 hj
      have hle := hsmaller j i hlt hparent
      exact ih (n - j) (by omega) hlt rfl
    rw [indices_eq hsmaller, List.mem_cons, List.mem_flatMap]
    constructor
    · rintro (rfl | ⟨j, hj, hx⟩)
      · exact ⟨hi, .refl⟩
      · obtain ⟨hlt, hunder⟩ := (hchild j hj).1 hx
        exact ⟨hlt, (under_iff hsmaller hlt).2 (.inr ⟨j, hj, hunder⟩)⟩
    · rintro ⟨hlt, hunder⟩
      refine ((under_iff hsmaller hlt).1 hunder).imp_right ?_
      rintro ⟨j, hj, hunder⟩
      exact ⟨j, hj, (hchild j hj).2 ⟨hlt, hunder⟩⟩

/-- Trees of nodes with the same parent have nothing in common. -/
theorem disjoint_indices (p : Option ℕ) :
    (childrenOf parent n p).Pairwise fun i j => List.Disjoint (indices parent n i)
      (indices parent n j) := by
  refine (childrenOf_increasing p).imp_of_mem fun {i j} hi hj hlt x hx hx' => ?_
  obtain ⟨hi, hpi⟩ := mem_childrenOf.1 hi
  obtain ⟨hj, hpj⟩ := mem_childrenOf.1 hj
  have hsame := eq_of_under hsmaller hi hj (hpi.trans hpj.symm) ((mem_indices hsmaller hi).1 hx).2
    ((mem_indices hsmaller hj).1 hx').2
  omega

theorem indices_nodup {i : ℕ} (hi : i < n) : (indices parent n i).Nodup := by
  induction hm : n - i using Nat.strong_induction_on generalizing i with
  | h m ih =>
    have hchild (j : ℕ) (hj : j ∈ childrenOf parent n (some i)) : j < n ∧ i < j :=
      ⟨(mem_childrenOf.1 hj).1, hsmaller j i (mem_childrenOf.1 hj).1 (mem_childrenOf.1 hj).2⟩
    rw [indices_eq hsmaller, List.nodup_cons]
    refine ⟨fun hmem => ?_, List.nodup_flatMap.2 ⟨fun j hj => ?_, disjoint_indices hsmaller _⟩⟩
    · obtain ⟨j, hj, hmem⟩ := List.mem_flatMap.1 hmem
      obtain ⟨hlt, hij⟩ := hchild j hj
      have hle := ((mem_indices hsmaller hlt).1 hmem).2.le hsmaller hi
      omega
    · obtain ⟨hlt, hij⟩ := hchild j hj
      exact ih (n - j) (by omega) hlt rfl

/-- Every node lies below a root. -/
theorem exists_root {x : ℕ} (hx : x < n) : ∃ i ∈ childrenOf parent n none, Under parent i x := by
  induction x using Nat.strong_induction_on with
  | h x ih =>
    cases hparent : parent x with
    | none => exact ⟨x, mem_childrenOf.2 ⟨hx, hparent⟩, .refl⟩
    | some p =>
      have hlt := hsmaller x p hx hparent
      obtain ⟨i, hi, hunder⟩ := ih p hlt (by omega)
      exact ⟨i, hi, .step hparent hunder⟩

/-- **Every node occurs once.** -/
theorem preorder_perm : (Tree.preorder (forest parent n)).Perm (List.range n) := by
  have hnodup : (Tree.preorder (forest parent n)).Nodup := by
    rw [preorder_forest, List.nodup_flatMap]
    exact ⟨fun i hi => indices_nodup hsmaller (mem_childrenOf.1 hi).1, disjoint_indices hsmaller _⟩
  refine (List.perm_ext_iff_of_nodup hnodup List.nodup_range).2 fun x => ?_
  rw [preorder_forest, List.mem_flatMap, List.mem_range]
  constructor
  · rintro ⟨i, hi, hx⟩
    exact ((mem_indices hsmaller (mem_childrenOf.1 hi).1).1 hx).1
  · intro hx
    obtain ⟨i, hi, hunder⟩ := exists_root hsmaller hx
    exact ⟨i, hi, (mem_indices hsmaller (mem_childrenOf.1 hi).1).2 ⟨hx, hunder⟩⟩

theorem roots_forest : (forest parent n).map Tree.index = childrenOf parent n none := by
  rw [forest, List.map_map]
  exact (List.map_congr_left fun i _ => index_treeOf hsmaller i).trans (List.map_id _)

/-- The nodes of a tree are trees of nodes. -/
theorem eq_treeOf {i : ℕ} (hi : i < n) {t : Tree} (ht : t ∈ (treeOf parent n i).nodes) :
    t = treeOf parent n t.index := by
  induction hm : n - i using Nat.strong_induction_on generalizing i with
  | h m ih =>
    rw [nodes_treeOf hsmaller, List.mem_cons] at ht
    rcases ht with rfl | ht
    · rw [index_treeOf hsmaller]
    · obtain ⟨j, hj, ht⟩ := List.mem_flatMap.1 ht
      obtain ⟨hlt, hparent⟩ := mem_childrenOf.1 hj
      have hle := hsmaller j i hlt hparent
      exact ih (n - j) (by omega) hlt ht rfl

/-- **Below a node stand its children**, in order. -/
theorem nodes_children {t : Tree} (ht : t ∈ (forest parent n).flatMap Tree.nodes) :
    t.children.map Tree.index = childrenOf parent n (some t.index) := by
  obtain ⟨root, hroot, ht⟩ := List.mem_flatMap.1 ht
  obtain ⟨i, hi, rfl⟩ := List.mem_map.1 hroot
  rw [eq_treeOf hsmaller (mem_childrenOf.1 hi).1 ht, index_treeOf hsmaller, treeOf_eq hsmaller,
    Tree.children, List.map_map]
  exact (List.map_congr_left fun j _ => index_treeOf hsmaller j).trans (List.map_id _)

/-! ## Depth-first order -/

/-- In depth-first order the tree of a node ends before the next one with the same parent. -/
theorem lt_of_under {i j x : ℕ} (hdepth : DepthFirst parent n) (hj : j < n)
    (hsame : parent i = parent j) (hij : i < j) (h : Under parent i x) (hx : x < n) : x < j := by
  induction h with
  | refl => exact hij
  | @step p x hparent hp ih =>
    have hpx := hsmaller x p hx hparent
    have hpj := ih (by omega)
    have hip := hp.le hsmaller (by omega)
    rcases Nat.lt_trichotomy x j with hlt | rfl | hlt
    · exact hlt
    · have hlt := hsmaller i p (by omega) (hsame.trans hparent)
      omega
    · -- the next one would lie below the parent of `x`, and so would its own parent
      cases hdepth p j x hx hparent hpj hlt with
      | refl => omega
      | @step q _ hq hunder =>
        have hlt := hsmaller i q (by omega) (hsame.trans hq)
        have hle := hunder.le hsmaller (by omega)
        omega

theorem childrenOf_separated (hdepth : DepthFirst parent n) (p : Option ℕ) :
    (childrenOf parent n p).Pairwise fun i j =>
      ∀ x ∈ indices parent n i, ∀ y ∈ indices parent n j, x < y := by
  refine (childrenOf_increasing p).imp_of_mem fun {i j} hi hj hlt x hx y hy => ?_
  obtain ⟨hi, hpi⟩ := mem_childrenOf.1 hi
  obtain ⟨hj, hpj⟩ := mem_childrenOf.1 hj
  obtain ⟨hxn, hx⟩ := (mem_indices hsmaller hi).1 hx
  obtain ⟨hyn, hy⟩ := (mem_indices hsmaller hj).1 hy
  have hxj := lt_of_under hsmaller hdepth hj (hpi.trans hpj.symm) hlt hx hxn
  exact Nat.lt_of_lt_of_le hxj (hy.le hsmaller hyn)

theorem indices_increasing (hdepth : DepthFirst parent n) {i : ℕ} (hi : i < n) :
    (indices parent n i).Pairwise (· < ·) := by
  induction hm : n - i using Nat.strong_induction_on generalizing i with
  | h m ih =>
    have hchild (j : ℕ) (hj : j ∈ childrenOf parent n (some i)) : j < n ∧ i < j :=
      ⟨(mem_childrenOf.1 hj).1, hsmaller j i (mem_childrenOf.1 hj).1 (mem_childrenOf.1 hj).2⟩
    rw [indices_eq hsmaller, List.pairwise_cons, List.pairwise_flatMap]
    refine ⟨fun x hx => ?_, fun j hj => ?_, childrenOf_separated hsmaller hdepth _⟩
    · obtain ⟨j, hj, hx⟩ := List.mem_flatMap.1 hx
      obtain ⟨hlt, hij⟩ := hchild j hj
      obtain ⟨hxn, hunder⟩ := (mem_indices hsmaller hlt).1 hx
      exact Nat.lt_of_lt_of_le hij (hunder.le hsmaller hxn)
    · obtain ⟨hlt, hij⟩ := hchild j hj
      exact ih (n - j) (by omega) hlt rfl

/-- **A list in depth-first order is the preorder of its forest.** -/
theorem preorder_eq_range (hdepth : DepthFirst parent n) :
    Tree.preorder (forest parent n) = List.range n := by
  have hsorted : (Tree.preorder (forest parent n)).Pairwise (· < ·) := by
    rw [preorder_forest, List.pairwise_flatMap]
    exact ⟨fun i hi => indices_increasing hsmaller hdepth (mem_childrenOf.1 hi).1,
      childrenOf_separated hsmaller hdepth _⟩
  exact (preorder_perm hsmaller).eq_of_pairwise (fun _ _ _ _ hlt hlt' => absurd hlt'
    (Nat.lt_asymm hlt)) hsorted List.pairwise_lt_range

end

end ParentForest
