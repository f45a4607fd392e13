/-
  The tree of variables a client gets to see.

  A tree of symbols becomes containers, one for every node with children, that refer to each other
  by reference.  The client expands them with variables requests.

  * `accessPath`: the expression for a node, from the names above it;
  * `Shows`: what a client sees when it expands a variable all the way down;
  * `buildVariableTree_iff`: when a built tree is shown as it is, by new references that replace no
    container.
-/
import DapDbgeng.Containers

namespace DapDbgeng

open Concurrent Concurrent.Prog

/-! ## Access paths -/

/-- An element is appended directly, a member behind a dot. -/
def pathSegment (name : String) : String :=
  if name.toList.head? = some '[' then name else "." ++ name

/-- The expression for a node from the names down to it; nameless nodes add nothing. -/
def accessPath (names : List String) : String :=
  match names.filter fun name => !name.isEmpty with
  | [] => ""
  | root :: rest => root ++ String.join (rest.map pathSegment)

theorem accessPath_eq_empty_iff (names : List String) :
    (accessPath names).isEmpty = true ↔ names.filter (fun name => !name.isEmpty) = [] := by
  rw [accessPath]
  split
  · rename_i hnil
    exact iff_of_true rfl hnil
  · rename_i root rest hcons
    rw [hcons]
    refine iff_of_false (fun hempty => ?_) (List.cons_ne_nil _ _)
    have hroot : root ∈ names.filter fun name => !name.isEmpty := by
      rw [hcons]
      exact List.mem_cons_self
    have hname := (List.mem_filter.1 hroot).2
    rw [String.isEmpty_iff, String.append_eq_empty_iff] at hempty
    rw [hempty.1] at hname
    cases hname

/-- **The evaluate name is the access path.** -/
theorem evaluateNameOf_accessPath (names : List String) (name : String) :
    Server.evaluateNameOf name (accessPath names) = accessPath (names ++ [name]) := by
  rw [Server.evaluateNameOf]
  split
  · rename_i hempty
    rw [accessPath, accessPath, List.filter_append]
    simp [hempty]
  · rename_i hname
    have hlast : (names ++ [name]).filter (fun name => !name.isEmpty) =
        names.filter (fun name => !name.isEmpty) ++ [name] := by
      rw [List.filter_append]
      simp [hname]
    by_cases hroot : (accessPath names).isEmpty = true
    · have hnil := (accessPath_eq_empty_iff names).1 hroot
      rw [if_pos (.inl hroot), String.isEmpty_iff.1 hroot]
      simp [accessPath, hlast, hnil]
    · have hcons : names.filter (fun name => !name.isEmpty) ≠ [] := fun h =>
        hroot ((accessPath_eq_empty_iff names).2 h)
      obtain ⟨root, rest, hfilter⟩ := List.exists_cons_of_ne_nil hcons
      have hpath : accessPath names = root ++ String.join (rest.map pathSegment) := by
        rw [accessPath, hfilter]
      have hpath' : accessPath (names ++ [name]) =
          root ++ String.join ((rest ++ [name]).map pathSegment) := by
        rw [accessPath, hlast, hfilter]
        rfl
      rw [hpath', List.map_append, String.join_append, ← String.append_assoc, ← hpath]
      split
      · rename_i helement
        have helement := helement.resolve_left hroot
        simp [pathSegment, helement]
      · rename_i hmember
        rw [not_or] at hmember
        simp [pathSegment, hmember.2, String.append_assoc]

namespace Server

/-! ## What expanding shows -/

/-- A variable has the name, the value and the type of the node, and the path down to it. -/
structure SameEntry (names : List String) (node : VariableNode) (v : Variable) : Prop where
  name : v.name = node.name
  value : v.value = node.value
  type : v.type = if node.type.isEmpty then none else some node.type
  evaluateName : v.evaluateName = some (accessPath (names ++ [node.name]))

mutual

/-- Expanding a variable by variables requests shows the node, with these references. -/
inductive Shows (s : Server) : List String → VariableNode → Variable → List Int → Prop
  | leaf {names : List String} {node : VariableNode} {v : Variable} :
      SameEntry names node v → node.children = [] → v.namedVariables = none →
        v.variablesReference = 0 → Shows s names node v []
  | inner {names : List String} {node : VariableNode} {v : Variable} {xs : List Variable}
      {references : List Int} :
      SameEntry names node v → node.children ≠ [] →
        v.namedVariables = some node.children.length → 0 < v.variablesReference →
          Lists v.variablesReference s xs →
            ShowsAll s (names ++ [node.name]) node.children xs references →
              Shows s names node v (v.variablesReference :: references)

/-- The same for the children of a node, in order. -/
inductive ShowsAll (s : Server) :
    List String → List VariableNode → List Variable → List Int → Prop
  | nil {names : List String} : ShowsAll s names [] [] []
  | cons {names : List String} {node : VariableNode} {nodes : List VariableNode} {v : Variable}
      {vs : List Variable} {references references' : List Int} :
      Shows s names node v references → ShowsAll s names nodes vs references' →
        ShowsAll s names (node :: nodes) (v :: vs) (references ++ references')

end

mutual

/-- The number of nodes with children. -/
def innerNodes : VariableNode → ℕ
  | { children, .. } => if children.isEmpty then 0 else innerNodesOfAll children + 1

def innerNodesOfAll : List VariableNode → ℕ
  | [] => 0
  | node :: nodes => innerNodes node + innerNodesOfAll nodes

end

/-- In `s`, the tree is built as it is: the client is shown the node, by new references, and every
container keeps its own. -/
def Builds (s : Server) (context : FrameContext) (names : List String) (node : VariableNode) :
    Prop :=
  let built := buildVariableTree context (accessPath names) node s.tables
  (∃ references, Shows { s with tables := built.2 } names node built.1 references ∧
    references.Nodup ∧ ∀ r ∈ references, s.tables.variablesByReference.get? r = none) ∧
  ∀ r container, s.tables.variablesByReference.get? r = some container →
    built.2.variablesByReference.get? r = some container

/-! ## Allocation -/

/-- The tables after the next `count` references were given away. -/
structure Allocates (d d' : Tables) (count : ℕ) : Prop where
  next : d'.nextVariablesReference = d.nextVariablesReference + count
  kept : ∀ r, r < d.nextVariablesReference ∨ d.nextVariablesReference + count ≤ r →
    d'.variablesByReference.get? r = d.variablesByReference.get? r

theorem Allocates.refl (d : Tables) : Allocates d d 0 := ⟨by omega, fun _ _ => rfl⟩

theorem Allocates.trans {d d₁ d₂ : Tables} {m n : ℕ} (h : Allocates d d₁ m)
    (h' : Allocates d₁ d₂ n) : Allocates d d₂ (m + n) where
  next := by
    rw [h'.next, h.next]
    omega
  kept r hr := by
    have hnext := h.next
    rw [h'.kept r (by omega), h.kept r (by omega)]

section

variable (context : FrameContext) (kind : VariableContainerKind) (d : Tables)
  {values : List Variable}

theorem createVariablesReference_of_ne (h : values ≠ []) :
    (createVariablesReference context kind values d).1 = d.nextVariablesReference ∧
      Allocates d (createVariablesReference context kind values d).2 1 ∧
      (createVariablesReference context kind values d).2.variablesByReference.get?
        d.nextVariablesReference = some { threadId := context.threadId
                                          frameNumber := context.frameNumber, kind
                                          variables_ := values } := by
  have hempty : values.isEmpty = false := List.isEmpty_eq_false_iff.2 h
  simp only [createVariablesReference, hempty, Bool.false_eq_true, if_false]
  refine ⟨trivial, ⟨rfl, fun r hr => ?_⟩, ?_⟩
  · rw [AssocMap.get?_set, if_neg (by omega)]
  · rw [AssocMap.get?_set, if_pos rfl]

end

section

variable {context : FrameContext} {parent name value type : String} {isExpandable : Bool}
  {address size : ℕ} {d : Tables}

/-- A node without children. -/
theorem buildVariableTree_leaf :
    buildVariableTree context parent { name, value, type, isExpandable, address, size } d =
      ({ name, value
         type := if type.isEmpty then none else some type
         memoryReference := if address = 0 then none else some ("0x" ++ Text.hex address)
         evaluateName := some (evaluateNameOf name parent) }, d) := by
  rw [buildVariableTree]
  rfl

/-- A node with children, which are built first. -/
theorem buildVariableTree_inner {children : List VariableNode} (h : children ≠ []) :
    buildVariableTree context parent { name, value, type, isExpandable, address, size, children } d =
      let path := evaluateNameOf name parent
      let built := buildVariableTrees context path children d
      let created := createVariablesReference context .structure_ built.1 built.2
      ({ name, value
         type := if type.isEmpty then none else some type
         memoryReference := if address = 0 then none else some ("0x" ++ Text.hex address)
         evaluateName := some path
         namedVariables := some built.1.length
         variablesReference := created.1 }, created.2) := by
  rw [buildVariableTree, if_neg (by simpa using h)]

end

mutual

theorem buildVariableTree_allocates (context : FrameContext) (parent : String) :
    ∀ (node : VariableNode) (d : Tables),
      Allocates d (buildVariableTree context parent node d).2 (innerNodes node)
  | { name, value, type, isExpandable, address, size, children }, d => by
    cases children with
    | nil =>
      rw [buildVariableTree_leaf]
      exact .refl d
    | cons child children =>
      have hall := buildVariableTrees_allocates context (evaluateNameOf name parent)
        (child :: children) d
      rw [buildVariableTree_inner (List.cons_ne_nil _ _), innerNodes]
      exact hall.1.trans (createVariablesReference_of_ne _ _ _ fun hnil => by simp [hnil] at hall).2.1

/-- Every child becomes one variable. -/
theorem buildVariableTrees_allocates (context : FrameContext) (parent : String) :
    ∀ (nodes : List VariableNode) (d : Tables),
      Allocates d (buildVariableTrees context parent nodes d).2 (innerNodesOfAll nodes) ∧
        (buildVariableTrees context parent nodes d).1.length = nodes.length
  | [], d => ⟨.refl d, rfl⟩
  | node :: nodes, d => by
    have hnode := buildVariableTree_allocates context parent node d
    have hnodes := buildVariableTrees_allocates context parent nodes
      (buildVariableTree context parent node d).2
    rw [buildVariableTrees, innerNodesOfAll]
    exact ⟨hnode.trans hnodes.1, congrArg Nat.succ hnodes.2⟩

end

/-! ## Expansion -/

/-- A container can be listed. -/
theorem lists_container {reference : Int} {s : Server} {container : VariableContainerContext}
    (hr : 0 < reference)
    (hc : s.tables.variablesByReference.get? reference = some container) :
    Lists reference s container.variables_ := by
  let response : Response :=
    { requestSeq := 0, success := true, command := "variables"
      body := .variables_ container.variables_ }
  have hread : seenSteps Tables .tables (s, {}) s.tables (s, {}) := ⟨⟨s, rfl, {}, rfl⟩, rfl⟩
  have hsend : ∃ s', seenSteps Unit (.send (.response response)) (s, {}) ()
      (s', { answers := [response] }) := ⟨_, ⟨s, rfl, {}, rfl⟩, rfl⟩
  obtain ⟨s', hsend⟩ := hsend
  refine ⟨{ seq := 0, command := "variables", arguments := { variablesReference := reference } },
    { answers := [response] }, s', rfl, ?_, rfl⟩
  rw [handleVariablesRequest, if_neg (Int.not_le.2 hr)]
  refine .op hread ?_
  dsimp only
  rw [ret_bind, hc]
  exact .op hsend (.ret ())

/-- The tables have the containers that were made from `d` to `d'`. -/
def HasNew (s : Server) (d d' : Tables) (count : ℕ) : Prop :=
  ∀ r, d.nextVariablesReference ≤ r → r < d.nextVariablesReference + count →
    s.tables.variablesByReference.get? r = d'.variablesByReference.get? r

theorem HasNew.of_allocates {s : Server} {d d₁ d₂ : Tables} {m n : ℕ} (h : HasNew s d d₂ (m + n))
    (hm : Allocates d d₁ m) (hn : Allocates d₁ d₂ n) : HasNew s d d₁ m ∧ HasNew s d₁ d₂ n := by
  have hnext := hm.next
  constructor
  · intro r hle hlt
    rw [h r hle (by omega), hn.kept r (by omega)]
  · intro r hle hlt
    exact h r (by omega) (by omega)

/-- References without repetition, the `count` from `first` on. -/
def Consecutive (first : Int) (count : ℕ) (references : List Int) : Prop :=
  references.Nodup ∧ ∀ r, r ∈ references ↔ first ≤ r ∧ r < first + count

theorem Consecutive.append {first : Int} {m n : ℕ} {xs ys : List Int} (h : Consecutive first m xs)
    (h' : Consecutive (first + m) n ys) : Consecutive first (m + n) (xs ++ ys) := by
  refine ⟨List.nodup_append.2 ⟨h.1, h'.1, fun x hx y hy => ?_⟩, fun r => ?_⟩
  · have hx := (h.2 x).1 hx
    have hy := (h'.2 y).1 hy
    omega
  · rw [List.mem_append, h.2, h'.2]
    omega

theorem Consecutive.cons {first : Int} {n : ℕ} {xs : List Int} (h : Consecutive first n xs) :
    Consecutive first (n + 1) ((first + n) :: xs) := by
  refine ⟨List.nodup_cons.2 ⟨fun hmem => ?_, h.1⟩, fun r => ?_⟩
  · have hlt := ((h.2 _).1 hmem).2
    omega
  · rw [List.mem_cons, h.2]
    omega

section

variable {s : Server} {context : FrameContext}

/-- The container of a node with children is there, and so are those below it. -/
theorem HasNew.inner {path : String} {children : List VariableNode} {d : Tables}
    (hne : children ≠ [])
    (hnew : HasNew s d (createVariablesReference context .structure_
      (buildVariableTrees context path children d).1
      (buildVariableTrees context path children d).2).2 (innerNodesOfAll children + 1)) :
    HasNew s d (buildVariableTrees context path children d).2 (innerNodesOfAll children) ∧
      (createVariablesReference context .structure_ (buildVariableTrees context path children d).1
        (buildVariableTrees context path children d).2).1 =
        d.nextVariablesReference + innerNodesOfAll children ∧
      ∃ container, s.tables.variablesByReference.get?
          (d.nextVariablesReference + innerNodesOfAll children) = some container ∧
        container.variables_ = (buildVariableTrees context path children d).1 := by
  obtain ⟨hall, hlength⟩ := buildVariableTrees_allocates context path children d
  have hvalues : (buildVariableTrees context path children d).1 ≠ [] := by
    rw [← List.length_pos_iff, hlength]
    exact List.length_pos_iff.2 hne
  obtain ⟨hreference, hcreates, hcontainer⟩ := createVariablesReference_of_ne context .structure_
    (buildVariableTrees context path children d).2 hvalues
  obtain ⟨hinner, hroot⟩ := hnew.of_allocates hall hcreates
  rw [hall.next] at hreference hcontainer
  refine ⟨hinner, hreference, _, (hroot _ (by rw [hall.next]) ?_).trans hcontainer, rfl⟩
  rw [hall.next]
  omega

mutual

/-- **What is built is shown.** -/
theorem buildVariableTree_shows : ∀ (node : VariableNode) (names : List String) (d : Tables),
    0 < d.nextVariablesReference →
      HasNew s d (buildVariableTree context (accessPath names) node d).2 (innerNodes node) →
        ∃ references,
          Shows s names node (buildVariableTree context (accessPath names) node d).1 references ∧
            Consecutive d.nextVariablesReference (innerNodes node) references
  | { name, value, type, isExpandable, address, size, children }, names, d => by
    intro hpos hnew
    cases children with
    | nil =>
      rw [buildVariableTree_leaf, evaluateNameOf_accessPath]
      refine ⟨[], .leaf ⟨rfl, rfl, rfl, rfl⟩ rfl rfl rfl, List.nodup_nil, fun r => ?_⟩
      simp [innerNodes]
    | cons child children =>
      rw [buildVariableTree_inner (List.cons_ne_nil _ _), evaluateNameOf_accessPath] at hnew ⊢
      rw [innerNodes, List.isEmpty_cons, if_neg Bool.false_ne_true] at hnew ⊢
      obtain ⟨hinner, hreference, container, hcontainer, hvalues⟩ :=
        hnew.inner (List.cons_ne_nil _ _)
      obtain ⟨references, hshows, hconsecutive⟩ :=
        buildVariableTrees_shows (child :: children) (names ++ [name]) d hpos hinner
      have hlength := (buildVariableTrees_allocates context (accessPath (names ++ [name]))
        (child :: children) d).2
      have hlists := lists_container (by omega) hcontainer
      rw [hvalues] at hlists
      dsimp only
      rw [hlength, hreference]
      exact ⟨_, .inner ⟨rfl, rfl, rfl, rfl⟩ (List.cons_ne_nil _ _) rfl (by dsimp only; omega) hlists
        hshows, hconsecutive.cons⟩

theorem buildVariableTrees_shows :
    ∀ (nodes : List VariableNode) (names : List String) (d : Tables),
      0 < d.nextVariablesReference →
        HasNew s d (buildVariableTrees context (accessPath names) nodes d).2
          (innerNodesOfAll nodes) →
          ∃ references,
            ShowsAll s names nodes (buildVariableTrees context (accessPath names) nodes d).1
              references ∧
              Consecutive d.nextVariablesReference (innerNodesOfAll nodes) references
  | [], _, _ => fun _ _ => ⟨[], .nil, List.nodup_nil, fun r => by simp [innerNodesOfAll]⟩
  | node :: nodes, names, d => by
    intro hpos hnew
    have hnode := buildVariableTree_allocates context (accessPath names) node d
    have hnodes := buildVariableTrees_allocates context (accessPath names) nodes
      (buildVariableTree context (accessPath names) node d).2
    rw [buildVariableTrees, innerNodesOfAll] at hnew ⊢
    obtain ⟨hfirst, hrest⟩ := hnew.of_allocates hnode hnodes.1
    have hnext := hnode.next
    obtain ⟨references, hshows, hconsecutive⟩ := buildVariableTree_shows node names d hpos hfirst
    obtain ⟨references', hshows', hconsecutive'⟩ := buildVariableTrees_shows nodes names _
      (by omega : 0 < (buildVariableTree context (accessPath names) node d).2.nextVariablesReference)
      hrest
    rw [hnext] at hconsecutive'
    exact ⟨_, .cons hshows hshows', hconsecutive.append hconsecutive'⟩

end

mutual

/-- **What is shown was built**: the references shown are all those given away, none of which is
below 1. -/
theorem Shows.covers : ∀ (node : VariableNode) (names : List String) (d : Tables)
    (references : List Int),
    HasNew s d (buildVariableTree context (accessPath names) node d).2 (innerNodes node) →
      Shows s names node (buildVariableTree context (accessPath names) node d).1 references →
        (innerNodes node = 0 ∨ 0 < d.nextVariablesReference) ∧
          ∀ r, d.nextVariablesReference ≤ r → r < d.nextVariablesReference + innerNodes node →
            r ∈ references
  | { name, value, type, isExpandable, address, size, children }, names, d, references => by
    intro hnew hshows
    cases children with
    | nil =>
      refine ⟨.inl rfl, fun r hle hlt => ?_⟩
      simp [innerNodes] at hlt
      omega
    | cons child children =>
      rw [buildVariableTree_inner (List.cons_ne_nil _ _), evaluateNameOf_accessPath] at hnew hshows
      rw [innerNodes, List.isEmpty_cons, if_neg Bool.false_ne_true] at hnew ⊢
      obtain ⟨hinner, hreference, container, hcontainer, hvalues⟩ :=
        hnew.inner (List.cons_ne_nil _ _)
      cases hshows with
      | leaf _ hnil => cases hnil
      | inner _ _ _ hpositive hlists hall =>
        dsimp only at hpositive hlists hall ⊢
        rw [hreference] at hpositive hlists ⊢
        rw [hlists.variables hpositive hcontainer, hvalues] at hall
        obtain ⟨hsome, hmem⟩ := ShowsAll.covers (child :: children) (names ++ [name]) d _ hinner hall
        refine ⟨.inr ?_, fun r hle hlt => ?_⟩
        · rcases hsome with hnone | hpos
          · omega
          · exact hpos
        · rw [List.mem_cons]
          by_cases hroot : r = d.nextVariablesReference + innerNodesOfAll (child :: children)
          · exact .inl hroot
          · exact .inr (hmem r hle (by omega))

theorem ShowsAll.covers : ∀ (nodes : List VariableNode) (names : List String) (d : Tables)
    (references : List Int),
    HasNew s d (buildVariableTrees context (accessPath names) nodes d).2 (innerNodesOfAll nodes) →
      ShowsAll s names nodes (buildVariableTrees context (accessPath names) nodes d).1 references →
        (innerNodesOfAll nodes = 0 ∨ 0 < d.nextVariablesReference) ∧
          ∀ r, d.nextVariablesReference ≤ r →
            r < d.nextVariablesReference + innerNodesOfAll nodes → r ∈ references
  | [], _, _, _ => fun _ _ => ⟨.inl rfl, fun r hle hlt => by simp [innerNodesOfAll] at hlt; omega⟩
  | node :: nodes, names, d, references => by
    intro hnew hshows
    have hnode := buildVariableTree_allocates context (accessPath names) node d
    have hnodes := buildVariableTrees_allocates context (accessPath names) nodes
      (buildVariableTree context (accessPath names) node d).2
    rw [buildVariableTrees] at hshows
    rw [buildVariableTrees, innerNodesOfAll] at hnew
    rw [innerNodesOfAll]
    obtain ⟨hfirst, hrest⟩ := hnew.of_allocates hnode hnodes.1
    have hnext := hnode.next
    cases hshows with
    | cons hshows hshows' =>
      obtain ⟨hsome, hmem⟩ := Shows.covers node names d _ hfirst hshows
      obtain ⟨hsome', hmem'⟩ := ShowsAll.covers nodes names _ _ hrest hshows'
      refine ⟨by omega, fun r hle hlt => ?_⟩
      rw [List.mem_append]
      by_cases hr : r < d.nextVariablesReference + innerNodes node
      · exact .inl (hmem r hle hr)
      · exact .inr (hmem' r (by omega) (by omega))

end

end

/-- **A tree is built as it is** exactly when no reference it takes is below 1 or names a container
already. -/
theorem buildVariableTree_iff (s : Server) (context : FrameContext) (names : List String)
    (node : VariableNode) :
    Builds s context names node ↔
      (innerNodes node = 0 ∨ 0 < s.tables.nextVariablesReference) ∧
        ∀ r, s.tables.nextVariablesReference ≤ r →
          r < s.tables.nextVariablesReference + innerNodes node →
            s.tables.variablesByReference.get? r = none := by
  have hallocates := buildVariableTree_allocates context (accessPath names) node s.tables
  constructor
  · rintro ⟨⟨references, hshows, -, hfresh⟩, -⟩
    obtain ⟨hsome, hmem⟩ := hshows.covers node names s.tables references fun _ _ _ => rfl
    exact ⟨hsome, fun r hle hlt => hfresh r (hmem r hle hlt)⟩
  · rintro ⟨hsome, hfresh⟩
    refine ⟨?_, fun r container hr => ?_⟩
    · rcases hsome with hnone | hpos
      · obtain ⟨name, value, type, isExpandable, address, size, children⟩ := node
        cases children with
        | nil =>
          rw [buildVariableTree_leaf, evaluateNameOf_accessPath]
          exact ⟨[], .leaf ⟨rfl, rfl, rfl, rfl⟩ rfl rfl rfl, List.nodup_nil,
            fun _ hmem => absurd hmem List.not_mem_nil⟩
        | cons => simp [innerNodes] at hnone
      · obtain ⟨references, hshows, hnodup, hmem⟩ :=
          buildVariableTree_shows (s := { s with
            tables := (buildVariableTree context (accessPath names) node s.tables).2 })
            node names s.tables hpos fun _ _ _ => rfl
        exact ⟨references, hshows, hnodup, fun r hr => hfresh r ((hmem r).1 hr).1 ((hmem r).1 hr).2⟩
    · rw [hallocates.kept, hr]
      by_contra hnew
      rw [not_or, Int.not_lt, Int.not_le] at hnew
      rw [hfresh r hnew.1 hnew.2] at hr
      cases hr

/-! ## A container that came back -/

/-- The target has hit the breakpoint; its condition is false. -/
def hitBreakpoint (breakpointId : String) : Answers where
  answer := fun c e => match c with
    | .lastEvent => some ("Hit breakpoint " ++ breakpointId)
    | .execute (.condition _) => { output := ["false"] }
    | c => c.default e

/-- A breakpoint with a condition, for which the engine makes the breakpoint 7. -/
def conditionalBreakpoint : Schedule :=
  [.start .request (.request (Schedule.message 2 "setBreakpoints"
      [("source", .obj [("path", .str "a.c")]),
       ("breakpoints", .arr [.obj [("line", .int 1), ("condition", .str "0")]])])),
    .ops .request 23 {}, .ops .request 1 { created := fun _ => [7] }, .ops .request 4000 {},
    .finish .request]

/-- Show the locals of the one frame. -/
def showLocals : Schedule :=
  Schedule.serve (Schedule.message 5 "stackTrace" [("threadId", .int 100)]) oneStructure ++
    Schedule.serve (Schedule.message 6 "scopes"
      [("frameId", .int (Factory.createFrameId 100 0))]) oneStructure

/-- A breakpoint stops the target while a pause request is under way, which then starts a second
wait loop. -/
def pausedTwice : Schedule :=
  Schedule.launch ++ conditionalBreakpoint ++
    Schedule.serve (Schedule.message 3 "configurationDone") ++ Schedule.park ++
    Schedule.enter .request (.request (Schedule.message 4 "pause" [("threadId", .int 100)])) 5 ++
    Schedule.report .breakpoint (hitBreakpoint "9") ++ Schedule.leave .loop ++
    Schedule.run .loop (.loopCondition 0) ++ Schedule.run .loop .loopEnd ++ Schedule.leave .request

/-- A setVariable request finds its container, the second loop continues the target past the
conditional breakpoint, and the request puts the container back. -/
def staleContainer : Schedule :=
  pausedTwice ++ showLocals ++ Schedule.park ++
    Schedule.enter .request (.request (Schedule.message 7 "setVariable"
      [("variablesReference", .int 1), ("name", .str "x"), ("value", .str "5")])) 6 ++
    Schedule.report .breakpoint (hitBreakpoint "7") ++ Schedule.leave .loop ++
    Schedule.leave .request oneStructure

/-- A container with the next reference is replaced when a tree is built. -/
theorem not_builds_of_stale {s : Server} {container : VariableContainerContext}
    (hnext : s.tables.nextVariablesReference = 1)
    (hc : s.tables.variablesByReference.get? 1 = some container) :
    ¬ Builds s {} [] { name := "p", children := [{ name := "x" }] } := by
  rintro ⟨⟨references, hshows, -, hfresh⟩, -⟩
  obtain ⟨-, hmem⟩ := hshows.covers _ [] s.tables references fun _ _ _ => rfl
  have hone := hfresh 1 (hmem 1 (by omega) (by rw [hnext]; decide))
  rw [hc] at hone
  cases hone

/-- At a stop whose frame is known to the client, a tree of locals replaces a container. -/
theorem buildVariableTree_replaces : ∃ c : Conf, Reachable {} c ∧
    c.state.flags .isExecutionRunning = false ∧ c.state.tables.frameContexts ≠ [] ∧
      ¬ Builds c.state {} [] { name := "p", children := [{ name := "x" }] } := by
  obtain ⟨c, hr, -, ht⟩ := reachable_of_exec
    (staleContainer ++ Schedule.park ++ Schedule.report .breakpoint (hitBreakpoint "9") ++
      Schedule.leave .loop ++ Schedule.run .loop (.loopCondition 0) ++
      Schedule.run .loop .loopEnd ++
      Schedule.serve (Schedule.message 8 "stackTrace" [("threadId", .int 100)]) oneStructure)
    (fun c => !c.state.flags .isExecutionRunning && !c.state.tables.frameContexts.isEmpty &&
      c.state.tables.nextVariablesReference == 1 &&
        (c.state.tables.variablesByReference.get? 1).isSome) (by decide +kernel)
  simp only [Bool.and_eq_true, Bool.not_eq_true', beq_iff_eq, Option.isSome_iff_exists] at ht
  obtain ⟨⟨⟨hhalted, hframes⟩, hnext⟩, container, hc⟩ := ht
  exact ⟨c, hr, hhalted, List.isEmpty_eq_false_iff.1 hframes, not_builds_of_stale hnext hc⟩

end Server

end DapDbgeng
