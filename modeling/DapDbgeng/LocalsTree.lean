/-
  The tree of locals, from the symbol group to the answer.

  `get_locals_tree` opens the symbols of the scope's group one by one, reads the list that is there
  in the end, and makes a forest of it.  What comes out is to show every variable with its members,
  three levels deep and not through pointers.

  * `localsTree`: the two phases;
  * `Layout`: the variables of a program with their members, and `Layout.unfold`: a variable with
    the members below it;
  * `SymbolReader.Lists`: what a group answers;
  * `localsTree_unfolds`: the answer is the variables of the scope, unfolded.
-/
import DapDbgeng.ScopeListing

namespace DapDbgeng

open Session

/-! ## get_locals_tree -/

/-- `IDebugSymbolGroup2` with the calls by which a symbol is read. -/
structure SymbolReader (G : Type) extends SymbolGroup G where
  getSymbolName : G → ℕ → Option String
  getSymbolValueText : G → ℕ → Option String
  getSymbolOffset : G → ℕ → Option ℕ
  getSymbolSize : G → ℕ → Option ℕ

/-- `buffer_to_trimmed_string` of what a call left in the buffer. -/
def bufferText (text : Option String) : String := (text.map Text.trimBoth).getD ""

section

variable {G : Type} (reader : SymbolReader G)

def readSymbol (g : G) (params : List SymbolParameters) (i : ℕ) : FlatSymbol :=
  let p := params[i]?.getD {}
  { name := bufferText (reader.getSymbolName g i)
    value := bufferText (reader.getSymbolValueText g i)
    type := readSymbolType reader.toSymbolGroup g i
    isExpandable := p.subElements != 0 && !p.isExpanded
    address := (reader.getSymbolOffset g i).getD 0
    size := (reader.getSymbolSize g i).getD 0
    parent := if p.parentSymbol = kDebugAnyId then none else some p.parentSymbol }

/-- Phase 2: read the list and link it. -/
def readTree (g : G) : List VariableNode :=
  match reader.getNumberSymbols g with
  | .error _ => []
  | .ok count =>
    if count = 0 then []
    else
      match reader.getSymbolParameters g count with
      | .error _ => []
      | .ok params => linkSymbols ((List.range count).map (readSymbol reader g params))

/-- What `get_locals_tree` does with the group of the scope. -/
def localsTree (bound : ℕ) (g : G) : Option (List VariableNode) :=
  (expansionLoop reader.toSymbolGroup bound g).map fun r => readTree reader r.2

end

/-! ## The variables of a program -/

/-- What the engine says of a variable. -/
structure SymbolTexts where
  name : Option String := none
  value : Option String := none
  type : Option String := none
  offset : Option ℕ := none
  size : Option ℕ := none

/-- The members of each variable, which of them the engine can open, and what it says of them. -/
structure Layout (ι : Type) where
  members : ι → List ι
  opens : ι → Bool
  texts : ι → SymbolTexts

namespace ShownSymbol

variable {ι : Type}

/-- A variable that is not opened. -/
def leaf (x : ι) : ShownSymbol ι := .node x false []

mutual

/-- Only what is opened shows members. -/
def Closed : ShownSymbol ι → Prop
  | .node _ opened members => (opened = false → members = []) ∧ ClosedAll members

def ClosedAll : List (ShownSymbol ι) → Prop
  | [] => True
  | s :: ss => s.Closed ∧ ClosedAll ss

end

theorem closedAll_leaves (xs : List ι) : ClosedAll (xs.map leaf) := by
  induction xs with
  | nil => trivial
  | cons x xs ih => exact ⟨⟨fun _ => rfl, trivial⟩, ih⟩

end ShownSymbol

namespace Layout

open ShownSymbol

variable {ι : Type} (L : Layout ι)

def pointer (x : ι) : Bool := typeIsPointer (bufferText (L.texts x).type)

/-- The variable is shown with its members. -/
def opensUp (x : ι) : Bool := !(L.members x).isEmpty && !L.pointer x && L.opens x

theorem opensUp_iff {x : ι} :
    L.opensUp x = true ↔ L.members x ≠ [] ∧ L.pointer x = false ∧ L.opens x = true := by
  rw [opensUp, Bool.and_eq_true, Bool.and_eq_true, Bool.not_eq_true', List.isEmpty_eq_false_iff,
    Bool.not_eq_true', and_assoc]

/-- A variable with the members below it, to the given depth. -/
def unfold : ℕ → ι → ShownSymbol ι
  | 0, x => leaf x
  | k + 1, x => if L.opensUp x then .node x true ((L.members x).map (unfold k)) else leaf x

/-- What is shown of a variable itself. -/
def view (x : ι) (opened : Bool) : FlatSymbol where
  name := bufferText (L.texts x).name
  value := bufferText (L.texts x).value
  type := bufferText (L.texts x).type
  isExpandable := !(L.members x).isEmpty && !opened
  address := (L.texts x).offset.getD 0
  size := (L.texts x).size.getD 0

mutual

/-- Open the variable on line `i`. -/
def openAt (i : ℕ) : ShownSymbol ι → ShownSymbol ι
  | .node x opened members =>
    match i with
    | 0 => .node x true ((L.members x).map leaf)
    | i + 1 => .node x opened (openAllAt i members)

def openAllAt (i : ℕ) : List (ShownSymbol ι) → List (ShownSymbol ι)
  | [] => []
  | s :: ss => if i < s.size then openAt i s :: ss else s :: openAllAt (i - s.size) ss

end

mutual

/-- Unfold all that is not opened yet. -/
def fill (k : ℕ) : ShownSymbol ι → ShownSymbol ι
  | .node x true members => .node x true (fillAll (k - 1) members)
  | .node x false _ => L.unfold k x

def fillAll (k : ℕ) : List (ShownSymbol ι) → List (ShownSymbol ι)
  | [] => []
  | s :: ss => fill k s :: fillAll k ss

end

theorem fillAll_leaves (k : ℕ) (xs : List ι) : L.fillAll k (xs.map leaf) = xs.map (L.unfold k) := by
  induction xs with
  | nil => rfl
  | cons x xs ih => rw [List.map_cons, List.map_cons, fillAll, ih, leaf, fill]

/-! ## Opening a variable -/

mutual

/-- What is opened would have been unfolded. -/
theorem fill_openAt : ∀ (s : ShownSymbol ι) {k i depth start : ℕ} {parent : Option ℕ}
    {l : ListedSymbol ι}, (s.listing parent depth start)[i]? = some l → l.expanded = false →
      L.opensUp l.name = true → l.depth < depth + k → L.fill k (L.openAt i s) = L.fill k s
  | .node x opened members, k, 0, depth, start, parent, l, hl, hclosed, hopens, hdepth => by
    cases hl
    obtain rfl : opened = false := hclosed
    obtain ⟨k, rfl⟩ : ∃ k', k = k' + 1 := ⟨k - 1, by have : depth < depth + k := hdepth; omega⟩
    rw [openAt, fill, fill, Nat.add_sub_cancel, fillAll_leaves, unfold, if_pos hopens]
  | .node x opened members, k, i + 1, depth, start, parent, l, hl, hclosed, hopens, hdepth => by
    have hl : (listingAll (some start) (depth + 1) (start + 1) members)[i]? = some l := hl
    rw [openAt]
    cases opened with
    | true => rw [fill, fill, fillAll_openAllAt members hl hclosed hopens (by omega)]
    | false => rw [fill, fill]

theorem fillAll_openAllAt : ∀ (ss : List (ShownSymbol ι)) {k i depth start : ℕ} {parent : Option ℕ}
    {l : ListedSymbol ι}, (listingAll parent depth start ss)[i]? = some l → l.expanded = false →
      L.opensUp l.name = true → l.depth < depth + k →
        L.fillAll k (L.openAllAt i ss) = L.fillAll k ss
  | [], _, _, _, _, _, _, hl, _, _, _ => by cases hl
  | s :: ss, k, i, depth, start, parent, l, hl, hclosed, hopens, hdepth => by
    have hlength := s.length_listing parent depth start
    rw [listingAll] at hl
    rw [openAllAt]
    split
    · rw [List.getElem?_append_left (by omega)] at hl
      rw [fillAll, fillAll, fill_openAt s hl hclosed hopens hdepth]
    · rw [List.getElem?_append_right (by omega), hlength] at hl
      rw [fillAll, fillAll, fillAll_openAllAt ss hl hclosed hopens hdepth]

end

mutual

/-- The members of the opened variable are listed besides. -/
theorem openAt_closed : ∀ (s : ShownSymbol ι) {i depth start : ℕ} {parent : Option ℕ}
    {l : ListedSymbol ι}, (s.listing parent depth start)[i]? = some l → l.expanded = false →
      s.Closed → (L.openAt i s).Closed ∧ (L.openAt i s).size = s.size + (L.members l.name).length
  | .node x opened members, 0, depth, start, parent, l, hl, hclosed, hs => by
    cases hl
    obtain rfl := hs.1 hclosed
    refine ⟨⟨by rintro ⟨⟩, closedAll_leaves _⟩, ?_⟩
    have hleaves (xs : List ι) : sizeAll (xs.map leaf) = xs.length := by
      induction xs with
      | nil => rfl
      | cons x xs ih => rw [List.map_cons, sizeAll, ih, List.length_cons, Nat.add_comm]; rfl
    rw [openAt, size, size, hleaves, sizeAll, Nat.zero_add, Nat.add_comm]
  | .node x opened members, i + 1, depth, start, parent, l, hl, hclosed, hs => by
    have hl : (listingAll (some start) (depth + 1) (start + 1) members)[i]? = some l := hl
    obtain ⟨hmembers, hsize⟩ := openAllAt_closed members hl hclosed hs.2
    rw [openAt]
    refine ⟨⟨fun h => ?_, hmembers⟩, ?_⟩
    · rw [hs.1 h] at hl
      cases hl
    · rw [size, size, hsize]
      omega

theorem openAllAt_closed : ∀ (ss : List (ShownSymbol ι)) {i depth start : ℕ} {parent : Option ℕ}
    {l : ListedSymbol ι}, (listingAll parent depth start ss)[i]? = some l → l.expanded = false →
      ClosedAll ss → ClosedAll (L.openAllAt i ss) ∧
        sizeAll (L.openAllAt i ss) = sizeAll ss + (L.members l.name).length
  | [], _, _, _, _, _, hl, _, _ => by cases hl
  | s :: ss, i, depth, start, parent, l, hl, hclosed, hss => by
    have hlength := s.length_listing parent depth start
    rw [listingAll] at hl
    rw [openAllAt]
    split
    · rw [List.getElem?_append_left (by omega)] at hl
      obtain ⟨hs, hsize⟩ := openAt_closed s hl hclosed hss.1
      refine ⟨⟨hs, hss.2⟩, ?_⟩
      rw [sizeAll, sizeAll, hsize]
      omega
    · rw [List.getElem?_append_right (by omega), hlength] at hl
      obtain ⟨hrest, hsize⟩ := openAllAt_closed ss hl hclosed hss.2
      refine ⟨⟨hss.1, hrest⟩, ?_⟩
      rw [sizeAll, sizeAll, hsize]
      omega

end

/-- A variable that is to be opened is on line `i`. -/
structure Due (ss : List (ShownSymbol ι)) (i : ℕ) (l : ListedSymbol ι) : Prop where
  line : (listed ss)[i]? = some l
  closed : l.expanded = false
  opensUp : L.opensUp l.name = true
  shallow : l.depth < kMaxExpansionDepth

mutual

/-- Nothing is left to unfold where no variable is to be opened. -/
theorem fill_eq_self {bound : ℕ} : ∀ (s : ShownSymbol ι) {depth start : ℕ} {parent : Option ℕ},
    s.Closed → (∀ l ∈ s.listing parent depth start, l.expanded = false →
      L.opensUp l.name = true → bound ≤ l.depth) → L.fill (bound - depth) s = s
  | .node x true members, depth, start, parent, hs, h => by
    rw [fill, Nat.sub_sub,
      fillAll_eq_self members hs.2 fun l hl => h l (List.mem_cons_of_mem _ hl)]
  | .node x false members, depth, start, parent, hs, h => by
    obtain rfl := hs.1 rfl
    rw [fill]
    cases hk : bound - depth with
    | zero => rfl
    | succ k =>
      rw [unfold, if_neg]
      · rfl
      · intro hopens
        have hdepth : bound ≤ depth := h _ List.mem_cons_self rfl hopens
        omega

theorem fillAll_eq_self {bound : ℕ} : ∀ (ss : List (ShownSymbol ι)) {depth start : ℕ}
    {parent : Option ℕ}, ClosedAll ss → (∀ l ∈ listingAll parent depth start ss,
      l.expanded = false → L.opensUp l.name = true → bound ≤ l.depth) →
        L.fillAll (bound - depth) ss = ss
  | [], _, _, _, _, _ => rfl
  | s :: ss, depth, start, parent, hss, h => by
    rw [fillAll, fill_eq_self s hss.1 fun l hl => h l (List.mem_append_left _ hl),
      fillAll_eq_self ss hss.2 fun l hl => h l (List.mem_append_right _ hl)]

end

end Layout

/-! ## The loop -/

/-- What the engine says of a line. -/
structure Layout.Describes {ι : Type} (L : Layout ι) (p : SymbolParameters)
    (l : ListedSymbol ι) : Prop where
  parent : p.parentSymbol = l.parent.getD kDebugAnyId
  expanded : p.isExpanded = l.expanded
  members : p.subElements = 0 ↔ L.members l.name = []

section

open ShownSymbol

variable {G ι : Type}

/-- The group lists a scope of the program, and opens the variables it can open. -/
structure SymbolReader.Lists (reader : SymbolReader G) (L : Layout ι)
    (scope : G → List (ShownSymbol ι)) : Prop where
  count : ∀ {g n}, reader.getNumberSymbols g = .ok n →
    n = (listed (scope g)).length ∧ n ≤ kDebugAnyId
  parameters : ∀ {g params},
    reader.getSymbolParameters g (listed (scope g)).length = .ok params →
      List.Forall₂ L.Describes params (listed (scope g))
  texts : ∀ {g} {i : ℕ} {l}, (listed (scope g))[i]? = some l →
    reader.getSymbolName g i = (L.texts l.name).name ∧
      reader.getSymbolValueText g i = (L.texts l.name).value ∧
      reader.getSymbolTypeName g i = (L.texts l.name).type ∧
      reader.getSymbolOffset g i = (L.texts l.name).offset ∧
      reader.getSymbolSize g i = (L.texts l.name).size
  opened : ∀ {g g'} {i : ℕ} {l}, (listed (scope g))[i]? = some l → l.expanded = false →
    reader.expandSymbol g i = (.ok (), g') →
      L.opens l.name = true ∧ scope g' = L.openAllAt i (scope g)
  refused : ∀ {g g'} {i hr : ℕ} {l}, (listed (scope g))[i]? = some l → l.expanded = false →
    reader.expandSymbol g i = (.error hr, g') → L.opens l.name = false ∧ scope g' = scope g

/-- No call by which the list is read fails. -/
structure SymbolReader.Answering (reader : SymbolReader G) : Prop where
  count : ∀ g, (reader.getNumberSymbols g).isOk = true
  parameters : ∀ g n, (reader.getSymbolParameters g n).isOk = true

variable {reader : SymbolReader G} {L : Layout ι} {scope : G → List (ShownSymbol ι)}

theorem SymbolReader.Answering.count_ne (h : reader.Answering) (g : G) (hr : ℕ) :
    reader.getNumberSymbols g ≠ .error hr := by
  intro herror
  have hok := h.count g
  rw [herror] at hok
  cases hok

theorem SymbolReader.Answering.parameters_ne (h : reader.Answering) (g : G) (n hr : ℕ) :
    reader.getSymbolParameters g n ≠ .error hr := by
  intro herror
  have hok := h.parameters g n
  rw [herror] at hok
  cases hok

theorem SymbolReader.Lists.line (h : reader.Lists L scope) {g : G}
    {params : List SymbolParameters}
    (hparams : reader.getSymbolParameters g (listed (scope g)).length = .ok params) {i : ℕ}
    {l : ListedSymbol ι} (hl : (listed (scope g))[i]? = some l) :
    ∃ p, params[i]? = some p ∧ L.Describes p l := by
  have hdescribes := h.parameters hparams
  obtain ⟨hi, rfl⟩ := List.getElem?_eq_some_iff.1 hl
  have hi' : i < params.length := by rwa [hdescribes.length_eq]
  exact ⟨_, List.getElem?_eq_getElem hi', hdescribes.get hi' hi⟩

theorem SymbolReader.Lists.parents (h : reader.Lists L scope) {g : G}
    {params : List SymbolParameters}
    (hparams : reader.getSymbolParameters g (listed (scope g)).length = .ok params) :
    params.map SymbolParameters.parentSymbol =
      (listed (scope g)).map fun l => l.parent.getD kDebugAnyId := by
  rw [← List.forall₂_eq_eq_eq, List.forall₂_map_left_iff, List.forall₂_map_right_iff]
  exact (h.parameters hparams).imp fun _ _ hd => hd.parent

/-- What a pass over some lines leaves: none of them is to be opened, or one was opened. -/
def Layout.Passed (L : Layout ι) (scope : G → List (ShownSymbol ι)) (ss : List (ShownSymbol ι))
    (is : List ℕ) (g' : G) : Option (G × ℕ) → Prop
  | none => scope g' = ss ∧ ∀ i ∈ is, ∀ l, ¬L.Due ss i l
  | some _ => ∃ i l, L.Due ss i l ∧ scope g' = L.openAllAt i ss

/-- A line that is not to be opened makes no difference. -/
theorem Layout.Passed.cons {ss : List (ShownSymbol ι)} {is : List ℕ} {g' : G}
    {opened : Option (G × ℕ)} (h : L.Passed scope ss is g' opened) {i : ℕ}
    {l : ListedSymbol ι} (hl : (listed ss)[i]? = some l) (hdue : ¬L.Due ss i l) :
    L.Passed scope ss (i :: is) g' opened := by
  cases opened with
  | some e => exact h
  | none =>
    refine ⟨h.1, List.forall_mem_cons.2 ⟨fun l' hl' => ?_, h.2⟩⟩
    obtain rfl : l' = l := Option.some_inj.1 (hl'.line.symm.trans hl)
    exact hdue hl'

/-- A pass opens a variable that is to be opened, unless there is none. -/
theorem SymbolReader.Lists.expandOne_spec (h : reader.Lists L scope) {g₀ : G}
    {params : List SymbolParameters} (hcount : (listed (scope g₀)).length ≤ kDebugAnyId)
    (hparams : reader.getSymbolParameters g₀ (listed (scope g₀)).length = .ok params) {g : G}
    (hg : scope g = scope g₀) (is : List ℕ) (his : ∀ i ∈ is, i < (listed (scope g₀)).length) :
    ∃ opened g', expandOne reader.toSymbolGroup params g is = some (opened, g') ∧
      L.Passed scope (scope g₀) is g' opened := by
  induction is generalizing g with
  | nil => exact ⟨none, g, rfl, hg, List.forall_mem_nil _⟩
  | cons i is ih =>
    obtain ⟨hi, his⟩ := List.forall_mem_cons.1 his
    obtain ⟨l, hl⟩ : ∃ l, (listed (scope g₀))[i]? = some l := ⟨_, List.getElem?_eq_getElem hi⟩
    obtain ⟨p, hp, hd⟩ := h.line hparams hl
    -- the rest of the pass, when this variable is left as it is
    have skip {g : G} (hg : scope g = scope g₀) (hdue : ¬L.Due (scope g₀) i l) :
        ∃ opened g', expandOne reader.toSymbolGroup params g is = some (opened, g') ∧
          L.Passed scope (scope g₀) (i :: is) g' opened := by
      obtain ⟨opened, g', hrun, hafter⟩ := ih hg his
      exact ⟨opened, g', hrun, hafter.cons hl hdue⟩
    rw [expandOne, hp, Option.getD_some]
    split_ifs with hskip
    · refine skip hg fun hdue => ?_
      rw [hd.expanded, hdue.closed, Bool.false_or, decide_eq_true_eq, hd.members] at hskip
      exact (L.opensUp_iff.1 hdue.opensUp).1 hskip
    · rw [symbolDepth_listing (h.parents hparams) hcount hl, Option.bind_eq_bind,
        Option.bind_some]
      have htype : readSymbolType reader.toSymbolGroup g i = bufferText (L.texts l.name).type := by
        have hl : (listed (scope g))[i]? = some l := by rw [hg, hl]
        rw [readSymbolType, (h.texts hl).2.2.1, bufferText]
      split_ifs with hdeep
      · refine skip hg fun hdue => ?_
        rw [Bool.or_eq_true, decide_eq_true_eq, htype] at hdeep
        rcases hdeep with hdeep | hpointer
        · exact absurd hdue.shallow (by omega)
        · cases hpointer.symm.trans (L.opensUp_iff.1 hdue.opensUp).2.1
      · simp only [Bool.or_eq_true, decide_eq_true_eq, not_or, Bool.not_eq_true, hd.expanded,
          hd.members, htype] at hskip hdeep
        have hl' : (listed (scope g))[i]? = some l := by rw [hg, hl]
        cases hexpand : reader.expandSymbol g i with
        | mk reply g' =>
          cases reply with
          | ok u =>
            obtain ⟨hopens, hg'⟩ := h.opened hl' hskip.1 hexpand
            have hup : L.opensUp l.name = true := L.opensUp_iff.2 ⟨hskip.2, hdeep.2, hopens⟩
            exact ⟨some (g, i), g', rfl, i, l, ⟨hl, hskip.1, hup, by omega⟩, by rw [hg', hg]⟩
          | error hr =>
            obtain ⟨hopens, hg'⟩ := h.refused hl' hskip.1 hexpand
            refine skip (hg'.trans hg) fun hdue => ?_
            cases hopens.symm.trans (L.opensUp_iff.1 hdue.opensUp).2.2

theorem listed_eq_nil {ss : List (ShownSymbol ι)} (h : (listed ss).length = 0) : ss = [] := by
  cases ss with
  | nil => rfl
  | cons s ss =>
    have := s.size_pos
    rw [length_listingAll, sizeAll] at h
    omega

/-- The loop ends, and leaves a scope that unfolds to the same variables.  If all calls answer and
there is room, nothing is left to unfold. -/
theorem SymbolReader.Lists.expansionLoop_spec (h : reader.Lists L scope) {bound : ℕ} {g : G}
    (hclosed : ClosedAll (scope g)) (hbound : kMaxExpandedNodes - sizeAll (scope g) < bound) :
    ∃ es g', expansionLoop reader.toSymbolGroup bound g = some (es, g') ∧
      L.fillAll kMaxExpansionDepth (scope g') = L.fillAll kMaxExpansionDepth (scope g) ∧
      (reader.Answering → sizeAll (scope g') < kMaxExpandedNodes →
        L.fillAll kMaxExpansionDepth (scope g') = scope g') := by
  induction bound generalizing g with
  | zero => omega
  | succ bound ih =>
    rw [expansionLoop]
    cases hnumber : reader.getNumberSymbols g with
    | error hr =>
      exact ⟨[], g, rfl, rfl, fun hanswering => absurd hnumber (hanswering.count_ne g hr)⟩
    | ok count =>
      obtain ⟨rfl, hany⟩ := h.count hnumber
      dsimp only
      split_ifs with hstop
      · refine ⟨[], g, rfl, rfl, fun _ hroom => ?_⟩
        rw [Bool.or_eq_true, decide_eq_true_eq, decide_eq_true_eq] at hstop
        rcases hstop with hempty | hfull
        · rw [listed_eq_nil hempty]
          rfl
        · rw [length_listingAll] at hfull
          omega
      · simp only [Bool.or_eq_true, decide_eq_true_eq, not_or, not_le] at hstop
        cases hparams : reader.getSymbolParameters g (listed (scope g)).length with
        | error hr =>
          exact ⟨[], g, rfl, rfl, fun hanswering =>
            absurd hparams (hanswering.parameters_ne g _ hr)⟩
        | ok params =>
          obtain ⟨opened, g', hpass, hafter⟩ := h.expandOne_spec hany hparams rfl
            (List.range (listed (scope g)).length) fun i hi => List.mem_range.1 hi
          dsimp only
          rw [hpass]
          cases opened with
          | none =>
            obtain ⟨hscope, hnone⟩ := hafter
            refine ⟨[], g', rfl, by rw [hscope], fun _ _ => ?_⟩
            rw [hscope]
            have hdeep : ∀ l ∈ listed (scope g), l.expanded = false →
                L.opensUp l.name = true → kMaxExpansionDepth ≤ l.depth := by
              intro l hl hexpanded hopens
              obtain ⟨i, hi⟩ := List.mem_iff_getElem?.1 hl
              by_contra hdepth
              exact hnone i (List.mem_range.2 (List.getElem?_eq_some_iff.1 hi).1) l
                ⟨hi, hexpanded, hopens, Nat.not_le.1 hdepth⟩
            have hself := L.fillAll_eq_self _ hclosed hdeep
            exact hself
          | some e =>
            obtain ⟨i, l, hdue, hscope⟩ := hafter
            obtain ⟨hclosed', hsize⟩ := L.openAllAt_closed _ hdue.line hdue.closed hclosed
            -- a variable that opens up has members
            have hmembers : 0 < (L.members l.name).length :=
              List.length_pos_iff.2 (L.opensUp_iff.1 hdue.opensUp).1
            rw [length_listingAll] at hstop
            rw [← hscope] at hclosed' hsize
            obtain ⟨es, g'', hrun, hfill, hdone⟩ := ih hclosed' (by omega)
            refine ⟨e :: es, g'', by simp [hrun], ?_, hdone⟩
            rw [hfill, hscope]
            exact L.fillAll_openAllAt _ hdue.line hdue.closed hdue.opensUp
              (by have := hdue.shallow; omega)

/-! ## Reading the list -/

theorem SymbolReader.Lists.readSymbol_eq (h : reader.Lists L scope) {g : G}
    {params : List SymbolParameters} (hcount : (listed (scope g)).length ≤ kDebugAnyId)
    (hparams : reader.getSymbolParameters g (listed (scope g)).length = .ok params) {i : ℕ}
    {l : ListedSymbol ι} (hl : (listed (scope g))[i]? = some l) :
    readSymbol reader g params i = flat L.view l := by
  obtain ⟨p, hp, hd⟩ := h.line hparams hl
  obtain ⟨hname, hvalue, htype, hoffset, hsize⟩ := h.texts hl
  have hexpandable : (p.subElements != 0 && !p.isExpanded) =
      (!(L.members l.name).isEmpty && !l.expanded) := by
    rw [hd.expanded]
    congr 1
    rw [Bool.eq_iff_iff, bne_iff_ne, Ne, hd.members, Bool.not_eq_true', List.isEmpty_eq_false_iff]
  have hparent : (if p.parentSymbol = kDebugAnyId then none else some p.parentSymbol) =
      l.parent := by
    rw [hd.parent]
    rcases belongs_listed hl with ⟨hnone, -⟩ | ⟨m, -, hm, hsome, -⟩
    · rw [hnone]
      rfl
    · have := (List.getElem?_eq_some_iff.1 hl).1
      rw [hsome, Option.getD_some, if_neg (by omega)]
  rw [readSymbol, hp, Option.getD_some, hname, hvalue, hoffset, hsize, hexpandable, hparent,
    readSymbolType, htype]
  rfl

/-- What is read is what the group shows, if the calls answer. -/
theorem SymbolReader.Lists.readTree_eq (h : reader.Lists L scope) (g : G) :
    (readTree reader g = [] ∨ readTree reader g = presentAll L.view (scope g)) ∧
      (reader.Answering → readTree reader g = presentAll L.view (scope g)) := by
  rw [readTree]
  cases hnumber : reader.getNumberSymbols g with
  | error hr =>
    exact ⟨.inl rfl, fun hanswering => absurd hnumber (hanswering.count_ne g hr)⟩
  | ok count =>
    obtain ⟨rfl, hany⟩ := h.count hnumber
    dsimp only
    split_ifs with hempty
    · rw [listed_eq_nil hempty]
      exact ⟨.inl rfl, fun _ => rfl⟩
    · cases hparams : reader.getSymbolParameters g (listed (scope g)).length with
      | error hr =>
        exact ⟨.inl rfl, fun hanswering => absurd hparams (hanswering.parameters_ne g _ hr)⟩
      | ok params =>
        have hlines : (List.range (listed (scope g)).length).map (readSymbol reader g params) =
            (listed (scope g)).map (flat L.view) := by
          refine List.ext_getElem? fun i => ?_
          rw [List.getElem?_map, List.getElem?_map]
          rcases Nat.lt_or_ge i (listed (scope g)).length with hlt | hge
          · have hl := List.getElem?_eq_getElem hlt
            rw [List.getElem?_range hlt, hl, Option.map_some, Option.map_some,
              h.readSymbol_eq hany hparams hl]
          · rw [List.getElem?_eq_none (by simpa using hge), List.getElem?_eq_none hge]
            rfl
        have heq : linkSymbols ((List.range (listed (scope g)).length).map
            (readSymbol reader g params)) = presentAll L.view (scope g) := by
          rw [hlines, linkSymbols_listing]
        exact ⟨.inr heq, fun _ => heq⟩

/-- **The tree of locals is the variables, unfolded.**  The loop ends; the answer is empty or shows
a scope in which only variables were opened that have members, are no pointers and lie less than
three levels deep.  If the calls answer, it shows that scope, and unless it is full all of these
are opened. -/
theorem localsTree_unfolds (h : reader.Lists L scope) {g : G} {xs : List ι}
    (hg : scope g = xs.map leaf) {bound : ℕ} (hbound : kMaxExpandedNodes < bound) :
    ∃ ss shown, localsTree reader bound g = some shown ∧
      (shown = [] ∨ shown = presentAll L.view ss) ∧
      L.fillAll kMaxExpansionDepth ss = xs.map (L.unfold kMaxExpansionDepth) ∧
      (reader.Answering → shown = presentAll L.view ss ∧
        (sizeAll ss < kMaxExpandedNodes → ss = xs.map (L.unfold kMaxExpansionDepth))) := by
  have hclosed : ClosedAll (scope g) := by
    rw [hg]
    exact closedAll_leaves xs
  obtain ⟨es, g', hrun, hfill, hdone⟩ := h.expansionLoop_spec hclosed
    (Nat.lt_of_le_of_lt (Nat.sub_le _ _) hbound)
  rw [hg, L.fillAll_leaves] at hfill
  obtain ⟨hread, hreads⟩ := h.readTree_eq g'
  refine ⟨scope g', readTree reader g', by rw [localsTree, hrun]; rfl, hread, hfill,
    fun hanswering => ⟨hreads hanswering, fun hroom => ?_⟩⟩
  rw [← hfill, hdone hanswering hroom]

end

/-- A point and a pointer to one; the state is whether the point is opened. -/
def pointLayout : Layout ℕ where
  members
    | 0 => [1]
    | 2 => [3]
    | _ => []
  opens x := x = 0
  texts
    | 0 => { name := some "p", type := some "Point", offset := some 4096, size := some 4 }
    | 2 => { name := some "q", value := some "0x1000", type := some "Point *" }
    | _ => { name := some "x", value := some "1", type := some "int" }

def pointScope (opened : Bool) : List (ShownSymbol ℕ) :=
  [.node 0 opened (if opened then [.leaf 1] else []), .leaf 2]

/-- The texts of the variable on a line. -/
def pointTexts (g : Bool) (i : ℕ) : SymbolTexts :=
  ((ShownSymbol.listed (pointScope g))[i]?.map fun l => pointLayout.texts l.name).getD {}

def pointReader : SymbolReader Bool where
  getNumberSymbols g := .ok (if g then 3 else 2)
  getSymbolParameters g _ := .ok (if g then
    [⟨kDebugAnyId, 1, kDebugSymbolExpanded⟩, ⟨0, 0, 0⟩, ⟨kDebugAnyId, 1, 0⟩]
    else [⟨kDebugAnyId, 1, 0⟩, ⟨kDebugAnyId, 1, 0⟩])
  getSymbolTypeName g i := (pointTexts g i).type
  expandSymbol
    | false, 0 => (.ok (), true)
    | g, _ => (.error 1, g)
  getSymbolName g i := (pointTexts g i).name
  getSymbolValueText g i := (pointTexts g i).value
  getSymbolOffset g i := (pointTexts g i).offset
  getSymbolSize g i := (pointTexts g i).size

theorem pointReader_lists : pointReader.Lists pointLayout pointScope where
  count {g n} h := by cases g <;> cases h <;> decide
  parameters {g params} h := by
    cases g <;> cases h
    · exact .cons ⟨rfl, rfl, by decide⟩ (.cons ⟨rfl, rfl, by decide⟩ .nil)
    · exact .cons ⟨rfl, rfl, by decide⟩ (.cons ⟨rfl, rfl, by decide⟩
        (.cons ⟨rfl, rfl, by decide⟩ .nil))
  texts {g i l} hl := by simp [pointReader, pointTexts, hl]
  opened {g g' i l} hl hclosed h := by
    match g, i, h with
    | false, 0, h =>
      cases h
      cases hl
      exact ⟨rfl, rfl⟩
  refused {g g' i hr l} hl hclosed h := by
    match g, i, hl, h with
    | false, 1, hl, h =>
      cases h
      cases hl
      exact ⟨rfl, rfl⟩
    | true, 1, hl, h =>
      cases h
      cases hl
      exact ⟨rfl, rfl⟩
    | true, 2, hl, h =>
      cases h
      cases hl
      exact ⟨rfl, rfl⟩
    | true, 0, hl, h =>
      cases hl
      cases hclosed

theorem localsTree_unfolds_point : ∃ ss shown, localsTree pointReader 4097 false = some shown ∧
    shown = ShownSymbol.presentAll pointLayout.view ss ∧
    (ShownSymbol.sizeAll ss < kMaxExpandedNodes → ss = [.node 0 true [.leaf 1], .leaf 2]) := by
  have hscope : pointScope false = [0, 2].map ShownSymbol.leaf := rfl
  have hbound : kMaxExpandedNodes < 4097 := by decide
  obtain ⟨ss, shown, hrun, -, -, hanswering⟩ :=
    localsTree_unfolds pointReader_lists hscope hbound
  obtain ⟨hshown, hfull⟩ := hanswering ⟨fun _ => rfl, fun _ _ => rfl⟩
  exact ⟨ss, shown, hrun, hshown, hfull⟩

end DapDbgeng
