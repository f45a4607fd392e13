/-
  Depth-first search, and the order in which it leaves the nodes of a graph.

  A node is left behind its successors.  The search raises where it meets a node that it has entered
  and not left.

  * `visit`: the search from one node;
  * `Ordered`: the lists whose members come behind their successors;
  * `visit_spec`: what a search adds to such a list;
  * `order_spec`: the search from all nodes ends; it raises just if there is a cycle, and else
    orders them.
-/
import Mathlib.Data.List.Basic
import Mathlib.Data.List.Nodup
import Mathlib.Data.List.Perm.Subperm
import Mathlib.Logic.Relation

namespace DepthFirst

variable {α : Type} (succ : α → List α)

/-! ## Orders -/

/-- Every member comes once, behind its successors. -/
inductive Ordered : List α → Prop where
  | nil : Ordered []
  | concat {order : List α} {node : α} : Ordered order → node ∉ order → succ node ⊆ order →
      Ordered (order ++ [node])

/-- There is an edge. -/
def Edge (a b : α) : Prop := b ∈ succ a

/-- Some node reaches itself. -/
def Cyclic (nodes : List α) : Prop := ∃ a ∈ nodes, Relation.TransGen (Edge succ) a a

variable {succ} {nodes stack ordered order : List α}

theorem Ordered.nodup (h : Ordered succ order) : order.Nodup := by
  induction h with
  | nil => exact List.nodup_nil
  | concat _ hnew _ ih =>
    rw [List.nodup_append]
    refine ⟨ih, List.nodup_singleton _, ?_⟩
    rintro a ha b hb rfl
    rw [List.mem_singleton.1 hb] at ha
    exact hnew ha

theorem Ordered.before (h : Ordered succ order) {pre post : List α} {a : α}
    (heq : order = pre ++ a :: post) : succ a ⊆ pre := by
  induction h generalizing post with
  | nil => simp at heq
  | concat _ _ hsucc ih =>
    rcases List.eq_nil_or_concat' post with rfl | ⟨post, b, rfl⟩
    · obtain ⟨rfl, hlast⟩ := List.append_inj' heq rfl
      cases hlast
      exact hsucc
    · rw [← List.cons_append, ← List.append_assoc] at heq
      exact ih (List.append_inj' heq rfl).1

/-- Going on from successor to successor ends. -/
theorem Ordered.acc (h : Ordered succ order) {a : α} (ha : a ∈ order) :
    Acc (fun b a => Edge succ a b) a := by
  induction h generalizing a with
  | nil => cases ha
  | concat _ _ hsucc ih =>
    rcases List.mem_append.1 ha with ha | ha
    · exact ih ha
    · rw [List.mem_singleton.1 ha]
      exact .intro _ fun b hb => ih (hsucc hb)

theorem not_reaches_self {a : α} (h : Acc (fun b a => Edge succ a b) a) :
    ¬Relation.TransGen (Edge succ) a a := by
  induction h with
  | intro a _ ih =>
    intro hcycle
    obtain ⟨b, hab, hba⟩ := Relation.TransGen.head'_iff.1 hcycle
    exact ih b hab (.tail' hba hab)

theorem Ordered.acyclic (h : Ordered succ order) (hall : nodes ⊆ order) : ¬Cyclic succ nodes :=
  fun ⟨_, ha, hcycle⟩ => not_reaches_self (h.acc (hall ha)) hcycle

/-! ## The search -/

variable [DecidableEq α]

/-- Depth first; `stack` are the nodes being visited.  What is raised is the path to one of them,
and `none` stands for a bound that is too small. -/
def visit (succ : α → List α) :
    (bound : ℕ) → (stack ordered : List α) → α → ExceptT (List α) Option (List α)
  | 0, _, _, _ => .mk none
  | bound + 1, stack, ordered, node =>
    if node ∈ ordered then return ordered
    else if node ∈ stack then throw (stack.reverse ++ [node])
    else do
      let ordered ← (succ node).foldlM (visit succ bound (node :: stack)) ordered
      return ordered ++ [node]

/-- The nodes being visited and those that are left. -/
structure Frontier (succ : α → List α) (nodes stack ordered : List α) : Prop where
  nodup : stack.Nodup
  sub : stack ⊆ nodes
  ends : Ordered succ ordered
  left : ordered ⊆ nodes
  apart : ∀ a ∈ stack, a ∉ ordered

/-- The result of a search that had to leave the nodes of `goal`. -/
def Outcome (succ : α → List α) (nodes stack ordered goal : List α) :
    Except (List α) (List α) → Prop
  | .error _ => Cyclic succ nodes
  | .ok order => Frontier succ nodes stack order ∧ ordered ⊆ order ∧ goal ⊆ order

/-- From `least` on, the bound makes no difference. -/
def Ends (succ : α → List α) (nodes stack ordered goal : List α) (least : ℕ)
    (search : ℕ → ExceptT (List α) Option (List α)) : Prop :=
  ∃ r, (∀ bound, least ≤ bound → search bound = .mk (some r)) ∧
    Outcome succ nodes stack ordered goal r

/-- A search from one node after the other. -/
theorem foldlM_spec (least : ℕ)
    (hvisit : ∀ {ordered a}, Frontier succ nodes stack ordered → a ∈ nodes →
      (∀ s ∈ stack, Relation.TransGen (Edge succ) s a) →
        Ends succ nodes stack ordered [a] least (visit succ · stack ordered a))
    (h : Frontier succ nodes stack ordered) {goal : List α} (hgoal : goal ⊆ nodes)
    (hpath : ∀ a ∈ goal, ∀ s ∈ stack, Relation.TransGen (Edge succ) s a) :
    Ends succ nodes stack ordered goal least fun bound =>
      goal.foldlM (visit succ bound stack) ordered := by
  induction goal generalizing ordered with
  | nil => exact ⟨.ok ordered, fun _ _ => rfl, h, fun _ ha => ha, List.nil_subset _⟩
  | cons a goal ih =>
    obtain ⟨hpatha, hpath⟩ := List.forall_mem_cons.1 hpath
    obtain ⟨ha, hgoal⟩ := List.cons_subset.1 hgoal
    obtain ⟨r, hr, hout⟩ := hvisit h ha hpatha
    have hcons (bound : ℕ) (hbound : least ≤ bound) :
        (a :: goal).foldlM (visit succ bound stack) ordered =
          ExceptT.mk (some r) >>= fun order => goal.foldlM (visit succ bound stack) order := by
      rw [List.foldlM_cons]
      exact congrArg (· >>= _) (hr bound hbound)
    cases r with
    | error path => exact ⟨.error path, fun bound hbound => hcons bound hbound, hout⟩
    | ok order =>
      obtain ⟨hfrontier, hsub, hmem⟩ := hout
      obtain ⟨r, hr', hout⟩ := ih hfrontier hgoal hpath
      refine ⟨r, fun bound hbound => (hcons bound hbound).trans (hr' bound hbound), ?_⟩
      cases r with
      | error path => exact hout
      | ok order' =>
        obtain ⟨hfrontier, hsub', hmem'⟩ := hout
        exact ⟨hfrontier, List.Subset.trans hsub hsub',
          List.cons_subset.2 ⟨hsub' (hmem (.head _)), hmem'⟩⟩

/-- Every call is for a node more that is being visited, so the room for them bounds the depth. -/
theorem visit_spec (hclosed : ∀ a ∈ nodes, succ a ⊆ nodes) {least : ℕ}
    (hroom : nodes.length < least + stack.length) (h : Frontier succ nodes stack ordered) {a : α}
    (ha : a ∈ nodes) (hpath : ∀ s ∈ stack, Relation.TransGen (Edge succ) s a) :
    Ends succ nodes stack ordered [a] least (visit succ · stack ordered a) := by
  induction least generalizing stack ordered a with
  | zero =>
    have := (h.nodup.subperm h.sub).length_le
    omega
  | succ least ih =>
    have hstep (bound : ℕ) (hbound : least + 1 ≤ bound) :
        ∃ b, bound = b + 1 ∧ least ≤ b := ⟨bound - 1, by omega, by omega⟩
    by_cases hleft : a ∈ ordered
    · refine ⟨.ok ordered, fun bound hbound => ?_, h, fun _ hb => hb, ?_⟩
      · obtain ⟨b, rfl, -⟩ := hstep bound hbound
        exact if_pos hleft
      · exact List.cons_subset.2 ⟨hleft, List.nil_subset _⟩
    by_cases hvisiting : a ∈ stack
    · refine ⟨.error (stack.reverse ++ [a]), fun bound hbound => ?_, a, ha, hpath a hvisiting⟩
      obtain ⟨b, rfl, -⟩ := hstep bound hbound
      exact (if_neg hleft).trans (if_pos hvisiting)
    have henter : Frontier succ nodes (a :: stack) ordered :=
      ⟨List.nodup_cons.2 ⟨hvisiting, h.nodup⟩, List.cons_subset.2 ⟨ha, h.sub⟩, h.ends, h.left,
        List.forall_mem_cons.2 ⟨hleft, h.apart⟩⟩
    have hedges : ∀ b ∈ succ a, ∀ s ∈ a :: stack, Relation.TransGen (Edge succ) s b :=
      fun b hb => List.forall_mem_cons.2 ⟨.single hb, fun s hs => (hpath s hs).tail hb⟩
    obtain ⟨r, hr, hout⟩ := foldlM_spec least
      (fun hf hb hp => ih (by rw [List.length_cons]; omega) hf hb hp) henter (hclosed a ha) hedges
    have hrun (bound : ℕ) (hbound : least ≤ bound) : visit succ (bound + 1) stack ordered a =
        ExceptT.mk (some r) >>= fun ordered => return ordered ++ [a] := by
      rw [visit, if_neg hleft, if_neg hvisiting]
      exact congrArg (· >>= _) (hr bound hbound)
    cases r with
    | error path =>
      refine ⟨.error path, fun bound hbound => ?_, hout⟩
      obtain ⟨b, rfl, hb⟩ := hstep bound hbound
      exact hrun b hb
    | ok order =>
      obtain ⟨hf, hsub, hsucc⟩ := hout
      refine ⟨.ok (order ++ [a]), fun bound hbound => ?_, ⟨h.nodup, h.sub, ?_, ?_, ?_⟩, ?_, ?_⟩
      · obtain ⟨b, rfl, hb⟩ := hstep bound hbound
        exact hrun b hb
      · exact .concat hf.ends (hf.apart a (.head _)) hsucc
      · exact List.append_subset.2 ⟨hf.left, List.cons_subset.2 ⟨ha, List.nil_subset _⟩⟩
      · intro s hs hmem
        rcases List.mem_append.1 hmem with hmem | hmem
        · exact hf.apart s (.tail _ hs) hmem
        · exact hvisiting (List.mem_singleton.1 hmem ▸ hs)
      · exact List.Subset.trans hsub (List.subset_append_left _ _)
      · exact List.subset_append_right _ _

/-- The search from all nodes ends; it raises just if there is a cycle, and else orders them. -/
theorem order_spec (hclosed : ∀ a ∈ nodes, succ a ⊆ nodes) :
    ∃ r, (∀ bound, nodes.length < bound →
        nodes.foldlM (visit succ bound []) [] = .mk (some r)) ∧
      ((∃ path, r = .error path) ↔ Cyclic succ nodes) ∧
        ∀ order, r = .ok order → Ordered succ order ∧ ∀ a, a ∈ order ↔ a ∈ nodes := by
  have hempty : Frontier succ nodes [] [] :=
    ⟨List.nodup_nil, List.nil_subset _, .nil, List.nil_subset _, List.forall_mem_nil _⟩
  obtain ⟨r, hr, hout⟩ := foldlM_spec (nodes.length + 1)
    (fun hf ha hp => visit_spec hclosed (by rw [List.length_nil]; omega) hf ha hp) hempty
    (List.Subset.refl nodes) fun _ _ => List.forall_mem_nil _
  refine ⟨r, fun bound hbound => hr bound hbound, ?_⟩
  cases r with
  | error path => exact ⟨⟨fun _ => hout, fun _ => ⟨path, rfl⟩⟩, nofun⟩
  | ok order =>
    obtain ⟨hf, -, hall⟩ := hout
    refine ⟨⟨nofun, fun hcyclic => absurd hcyclic (hf.ends.acyclic hall)⟩, ?_⟩
    rintro _ ⟨⟩
    exact ⟨hf.ends, fun a => ⟨fun ha => hf.left ha, fun ha => hall ha⟩⟩

end DepthFirst
