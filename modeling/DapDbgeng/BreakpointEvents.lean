/-
  Breakpoint events.

  The engine says in a text which breakpoint was hit; the adapter reads an id out of it and takes 0
  where it finds none.

  * `Text.tryParseBreakpointId_eq_some`: which id is read out of a text;
  * `attributed_iff`: an event is reported for, and continued because of, a breakpoint that the text
    names if and only if the text gives its id.
-/
import DapDbgeng.Callbacks
import DapDbgeng.Classifier
import DapDbgeng.Concurrent.Paths
import DapDbgeng.Footprint
import DapDbgeng.Numerals

namespace DapDbgeng

open Concurrent Concurrent.Prog

/-! ## The id in a text -/

namespace Text

/-- `rest` follows the token, in any case, somewhere in `cs`. -/
def After (token : String) (cs rest : List Char) : Prop :=
  ∃ before word, cs = before ++ word ++ rest ∧
    word.map Char.toUpper = token.toList.map Char.toUpper

/-- `rest` follows the token where it occurs first. -/
def FirstAfter (token : String) (cs rest : List Char) : Prop :=
  After token cs rest ∧ ∀ rest', After token cs rest' → rest'.length ≤ rest.length

/-- A number stands at the start of a text, after white space. -/
def StartsWith (cs : List Char) (n : ℕ) : Prop :=
  ∃ spaces digits rest, cs = spaces ++ digits ++ rest ∧ (∀ c ∈ spaces, isSpace c = true) ∧
    Numeral 10 digits n ∧ ∀ c, rest.head? = some c → isDigitIn 10 c = false

/-- A text names a breakpoint. -/
def Names (text : String) (n : ℕ) : Prop :=
  ∃ rest, (After "breakpoint" text.toList rest ∨ After "bp" text.toList rest) ∧ StartsWith rest n

/-- The first occurrence of the token is followed by a number. -/
def FirstNames (token text : String) (n : ℕ) : Prop :=
  n < 2 ^ 32 ∧ ∃ rest, FirstAfter token text.toList rest ∧ StartsWith rest n

/-- A text gives an id: after the first `breakpoint`, or else after the first `bp`. -/
def Gives (text : String) (n : ℕ) : Prop :=
  FirstNames "breakpoint" text n ∨
    (∀ m, ¬FirstNames "breakpoint" text m) ∧ FirstNames "bp" text n

theorem Gives.lt {text : String} {n : ℕ} (h : Gives text n) : n < 2 ^ 32 :=
  h.elim (fun hlong => hlong.1) fun hshort => hshort.2.1

theorem Gives.names {text : String} {n : ℕ} (h : Gives text n) : Names text n := by
  rcases h with ⟨-, rest, hfirst, hn⟩ | ⟨-, -, rest, hfirst, hn⟩
  · exact ⟨rest, .inl hfirst.1, hn⟩
  · exact ⟨rest, .inr hfirst.1, hn⟩

/-! ### Searching -/

theorem findList_eq_none {pat cs : List Char} (h : findList pat cs = none)
    (before rest : List Char) :
    cs ≠ before ++ pat ++ rest := by
  induction cs generalizing before with
  | nil =>
    rintro hcs
    have hpat : pat = [] := by simp_all
    rw [hpat, findList] at h
    cases h
  | cons c cs ih =>
    intro hcs
    rw [findList] at h
    split_ifs at h with hprefix
    rw [Option.map_eq_none_iff] at h
    cases before with
    | nil => exact hprefix (List.isPrefixOf_iff_prefix.2 ⟨rest, hcs.symm⟩)
    | cons d before =>
      rw [List.cons_append, List.cons_append, List.cons.injEq] at hcs
      exact ih h before hcs.2

/-- The pattern occurs at the index found, and nowhere before it. -/
theorem findList_eq_some {pat cs : List Char} {i : ℕ} (h : findList pat cs = some i) :
    (∃ before rest, cs = before ++ pat ++ rest ∧ before.length = i) ∧
      ∀ before rest, cs = before ++ pat ++ rest → i ≤ before.length := by
  induction cs generalizing i with
  | nil =>
    rw [findList] at h
    split_ifs at h with hpat
    cases h
    exact ⟨⟨[], [], by simpa using hpat, rfl⟩, fun _ _ _ => Nat.zero_le _⟩
  | cons c cs ih =>
    rw [findList] at h
    split_ifs at h with hprefix
    · cases h
      obtain ⟨rest, hrest⟩ := List.isPrefixOf_iff_prefix.1 hprefix
      exact ⟨⟨[], rest, hrest.symm, rfl⟩, fun _ _ _ => Nat.zero_le _⟩
    · obtain ⟨j, hj, rfl⟩ := Option.map_eq_some_iff.1 h
      obtain ⟨⟨before, rest, hcs, hlength⟩, hfirst⟩ := ih hj
      refine ⟨⟨c :: before, rest, by rw [hcs]; rfl, by rw [List.length_cons, hlength]⟩, ?_⟩
      intro before' rest' hcs'
      cases before' with
      | nil => exact absurd (List.isPrefixOf_iff_prefix.2 ⟨rest', hcs'.symm⟩) hprefix
      | cons d before' =>
        rw [List.cons_append, List.cons_append, List.cons.injEq] at hcs'
        exact Nat.succ_le_succ (hfirst before' rest' hcs'.2)

theorem after_iff {token : String} {cs rest : List Char} : After token cs rest ↔
    ∃ before, cs.map Char.toUpper =
      before ++ token.toList.map Char.toUpper ++ rest.map Char.toUpper ∧
      rest = cs.drop (before.length + token.length) := by
  constructor
  · rintro ⟨before, word, rfl, hword⟩
    have hlength : word.length = token.length := by
      have h := congrArg List.length hword
      rwa [List.length_map, List.length_map, String.length_toList] at h
    refine ⟨before.map Char.toUpper, by simp [hword], ?_⟩
    rw [List.length_map, ← hlength, ← List.length_append, List.drop_left]
  · rintro ⟨before, hcs, hrest⟩
    have hlength : before.length + token.length ≤ cs.length := by
      have h := congrArg List.length hcs
      simp only [List.length_map, List.length_append, String.length_toList] at h
      omega
    refine ⟨cs.take before.length, (cs.drop before.length).take token.length, ?_, ?_⟩
    · rw [hrest, ← List.drop_drop, List.append_assoc, List.take_append_drop,
        List.take_append_drop]
    · rw [List.map_take, List.map_drop, hcs, List.append_assoc, List.drop_left,
        List.take_left' (by rw [List.length_map, String.length_toList])]

/-- What the search leaves follows the token. -/
theorem after_of_findList {token : String} {cs : List Char} {i : ℕ}
    (h : findList (token.toList.map Char.toUpper) (cs.map Char.toUpper) = some i) :
    After token cs (cs.drop (i + token.length)) := by
  obtain ⟨⟨before, rest, hcs, rfl⟩, -⟩ := findList_eq_some h
  refine after_iff.2 ⟨before, ?_, rfl⟩
  have hlength : (before ++ token.toList.map Char.toUpper).length =
      before.length + token.length := by
    rw [List.length_append, List.length_map, String.length_toList]
  have hrest : (cs.drop (before.length + token.length)).map Char.toUpper = rest := by
    rw [List.map_drop, hcs, ← hlength, List.drop_left]
  rw [hrest, hcs]

/-- What follows the first occurrence is what the search leaves. -/
theorem firstAfter_iff {token : String} {cs rest : List Char} : FirstAfter token cs rest ↔
    ∃ i, findList (token.toList.map Char.toUpper) (cs.map Char.toUpper) = some i ∧
      rest = cs.drop (i + token.length) := by
  have hlength {before : List Char} (h : cs.map Char.toUpper = before ++
      token.toList.map Char.toUpper ++ rest.map Char.toUpper) :
      before.length + token.length ≤ cs.length := by
    have h := congrArg List.length h
    simp only [List.length_map, List.length_append, String.length_toList] at h
    omega
  constructor
  · rintro ⟨hafter, hfirst⟩
    obtain ⟨before, hcs, hrest⟩ := after_iff.1 hafter
    cases hi : findList (token.toList.map Char.toUpper) (cs.map Char.toUpper) with
    | none => exact absurd hcs (findList_eq_none hi _ _)
    | some i =>
      have hle := (findList_eq_some hi).2 _ _ hcs
      have hmost := hfirst _ (after_of_findList hi)
      have hbound := hlength hcs
      rw [hrest, List.length_drop, List.length_drop] at hmost
      refine ⟨i, rfl, ?_⟩
      rw [hrest, show before.length = i by omega]
  · rintro ⟨i, hi, rfl⟩
    refine ⟨after_of_findList hi, fun rest' hafter => ?_⟩
    obtain ⟨before, hcs, rfl⟩ := after_iff.1 hafter
    have hle := (findList_eq_some hi).2 _ _ hcs
    rw [List.length_drop, List.length_drop]
    omega

/-! ### Reading -/

theorem startsWith_iff {cs : List Char} {n : ℕ} : StartsWith cs n ↔
    Numeral 10 ((cs.dropWhile isSpace).takeWhile (isDigitIn 10)) n := by
  constructor
  · rintro ⟨spaces, digits, rest, rfl, hspaces, hn, hrest⟩
    obtain ⟨d, ds, rfl, hd⟩ := hn.head
    rw [List.append_assoc, List.dropWhile_append_of_pos hspaces, List.cons_append,
      List.dropWhile_cons_of_neg (by rw [isSpace_of_digit hd]; simp), ← List.cons_append,
      List.takeWhile_append_of_pos hn.digits]
    cases rest with
    | nil => simpa using hn
    | cons c rest =>
      rw [List.takeWhile_cons_of_neg (by rw [hrest c rfl]; simp), List.append_nil]
      exact hn
  · intro hn
    refine ⟨cs.takeWhile isSpace, _, (cs.dropWhile isSpace).dropWhile (isDigitIn 10),
      ?_, ?_, hn, ?_⟩
    · rw [List.append_assoc, List.takeWhile_append_dropWhile, List.takeWhile_append_dropWhile]
    · exact fun c hc => List.mem_takeWhile_imp hc
    · intro c hc
      have hnot := List.head?_dropWhile_not (isDigitIn 10) (cs.dropWhile isSpace)
      rw [hc] at hnot
      simpa using hnot

end Text

namespace Session

open Text

theorem tryParseBreakpointIdAfterToken_eq_some {text token : String} {n : ℕ} :
    tryParseBreakpointIdAfterToken text token = some n ↔ FirstNames token text n := by
  have hlist (s : String) : (toUpperInvariant s).toList = s.toList.map Char.toUpper := by
    rw [toUpperInvariant, String.toList_ofList]
  have hread (rest : List Char) :
      (let digits := (rest.dropWhile isSpace).takeWhile (isDigitIn 10)
       if digits.isEmpty then none
       else if ofDigits 10 digits < 2 ^ 32 then some (ofDigits 10 digits) else none) = some n ↔
        n < 2 ^ 32 ∧ StartsWith rest n := by
    rw [startsWith_iff]
    dsimp only
    constructor
    · intro h
      split_ifs at h with hempty hlt
      cases h
      exact ⟨hlt, by simpa using hempty, fun c hc => List.mem_takeWhile_imp hc, rfl⟩
    · rintro ⟨hlt, hn⟩
      rw [if_neg (by simpa using hn.nonempty), hn.value, if_pos hlt]
  rw [FirstNames]
  simp only [firstAfter_iff]
  unfold tryParseBreakpointIdAfterToken
  rw [hlist, hlist]
  constructor
  · intro h
    obtain ⟨i, hi, h⟩ := Option.bind_eq_some_iff.1 h
    obtain ⟨hlt, hn⟩ := (hread _).1 h
    exact ⟨hlt, _, ⟨i, hi, rfl⟩, hn⟩
  · rintro ⟨hlt, _, ⟨i, hi, rfl⟩, hn⟩
    exact Option.bind_eq_some_iff.2 ⟨i, hi, (hread _).2 ⟨hlt, hn⟩⟩

/-- White space has no token in it. -/
theorem not_blank_of_after {token text : String} {rest : List Char}
    (h : After token text.toList rest) (ht : token.toList.head? = some 'b') :
    (trimBoth text).isEmpty = false := by
  by_contra hblank
  have hspaces := List.all_eq_true.1 (isSpace_of_trimBoth (Bool.eq_true_of_not_eq_false hblank))
  obtain ⟨before, word, hcs, hword⟩ := h
  obtain ⟨token', htoken⟩ : ∃ token', token.toList = 'b' :: token' := List.head?_eq_some_iff.1 ht
  rw [htoken, List.map_cons] at hword
  obtain ⟨c, word', rfl, hc, -⟩ := List.map_eq_cons_iff.1 hword
  have hspace := hspaces c (by rw [hcs]; simp)
  simp only [isSpace, isBlankChar, Bool.or_eq_true, decide_eq_true_eq] at hspace
  rcases hspace with ((((rfl | rfl) | rfl) | rfl) | rfl) | rfl <;> exact absurd hc (by decide)

/-- **The id read out of a text.** -/
theorem tryParseBreakpointId_eq_some {text : String} {n : ℕ} :
    tryParseBreakpointId text = some n ↔ Gives text n := by
  have hblank {token : String} (ht : token.toList.head? = some 'b')
      (h : FirstNames token text n) : (trimBoth text).isEmpty = false := by
    obtain ⟨-, rest, hfirst, -⟩ := h
    exact not_blank_of_after hfirst.1 ht
  have hnone : tryParseBreakpointIdAfterToken text "breakpoint" = none ↔
      ∀ m, ¬FirstNames "breakpoint" text m := by
    simp only [← tryParseBreakpointIdAfterToken_eq_some, Option.eq_none_iff_forall_not_mem]
    rfl
  rw [tryParseBreakpointId, Gives]
  constructor
  · intro h
    split_ifs at h
    rcases (Option.orElse_eq_some _ _ _).1 h with hlong | ⟨hlong, hshort⟩
    · exact .inl (tryParseBreakpointIdAfterToken_eq_some.1 hlong)
    · exact .inr ⟨hnone.1 hlong, tryParseBreakpointIdAfterToken_eq_some.1 hshort⟩
  · rintro (hlong | ⟨hlong, hshort⟩)
    · rw [if_neg (by rw [hblank rfl hlong]; simp)]
      exact (Option.orElse_eq_some _ _ _).2 (.inl (tryParseBreakpointIdAfterToken_eq_some.2 hlong))
    · rw [if_neg (by rw [hblank rfl hshort]; simp)]
      exact (Option.orElse_eq_some _ _ _).2 (.inr ⟨hnone.2 hlong,
        tryParseBreakpointIdAfterToken_eq_some.2 hshort⟩)

end Session

/-! ## What an event leads to -/

/-- The operation sets the target going. -/
def DapOp.continues : ∀ {β : Type}, DapOp β → Prop
  | _, .call _ (.execute .go) | _, .leave _ (.execute .go) => True
  | _, _ => False

/-- The breakpoints that the operation reports as hit. -/
def DapOp.reported : ∀ {β : Type}, DapOp β → List Int
  | _, .setPending p => p.hitBreakpointIds.getD []
  | _, _ => []

/-- The last event, as the engine describes it, is that of breakpoint `n`. -/
def Named (description : Option String) (n : ℕ) : Prop :=
  ∃ text, description = some text ∧ Text.Names text n

/-- Along `es` a condition of breakpoint `i` is found and comes to false. -/
def FoundFalse (id : SessionId) (i : Int) (es : List (Concurrent.Event DapOp)) : Prop :=
  ∃ (d : Tables) (condition : String) (before evaluation after : List (Concurrent.Event DapOp)),
    es = before ++ ⟨.tables, d⟩ :: evaluation ++ after ∧
      d.conditionalBreakpointConditionsById.get? i = some condition ∧
      Path (Server.tryEvaluateConditionalBreakpoint id condition) evaluation (.ok (some false))

/-- What follows the event has to do with named breakpoints only. -/
structure Attribution (description : Option String) (id : SessionId)
    (es : List (Concurrent.Event DapOp)) : Prop where
  reported : ∀ e ∈ es, ∀ i ∈ e.op.reported, ∃ n, Named description n ∧ i = n
  continued : ∀ e ∈ es, e.op.continues → ∃ n, Named description n ∧ FoundFalse id n es

/-- Whatever the adapter does at a breakpoint event with this description. -/
def Attributed (description : Option String) : Prop :=
  ∀ (id : SessionId) (s s' : Server) (es : List (Concurrent.Event DapOp)) (r : Except Exn Unit),
    Steps (sem .callback) (Server.onCallback id .breakpoint) s
      (⟨.call id .lastEvent, description⟩ :: es) (.ofExcept r) s' → Attribution description id es

/-- The description gives an id that is an `int`; or it gives none and happens to name 0. -/
def Determined (description : Option String) : Prop :=
  (∃ text n, description = some text ∧ Text.Gives text n ∧ n < 2 ^ 31) ∨
    (∀ text n, description = some text → ¬Text.Gives text n) ∧ Named description 0

theorem DapOp.quiet.not_continues {β : Type} {o : DapOp β} (h : o.quiet Call.routine) :
    ¬o.continues := by
  intro hc
  cases o with
  | call id c | leave id c =>
    cases c with
    | execute command =>
      cases command with
      | go => cases h
      | _ => exact hc
    | _ => exact hc
  | _ => exact hc

theorem DapOp.quiet.reported_eq {C : ∀ {γ : Type}, Call γ → Prop} {β : Type} {o : DapOp β}
    (h : o.quiet C) : o.reported = [] := by
  cases o with
  | setPending => exact h.elim
  | _ => rfl

namespace Server

variable {id : SessionId} {n : ℕ} {es : List (Concurrent.Event DapOp)}

theorem evaluation_quiet (id : SessionId) (condition : String) :
    Quiet (tryEvaluateConditionalBreakpoint id condition) :=
  .catching (.bind (Session.executeCommandWithOutput_quiet id rfl _) fun _ => trivial)
    fun _ => trivial

theorem autoContinue_unreported (id : SessionId) :
    AllOps (fun {_} (o : DapOp _) => o.reported = []) (autoContinue id) :=
  .bind (.bind (.perform rfl) fun _ => .perform rfl) fun _ => .bind (.perform rfl) fun _ =>
    .bind (.perform rfl) fun _ => .bind (.perform rfl) fun _ => .bind (.perform rfl) fun _ =>
      (Session.resume_engaging id .go _).mono fun _ h => h.reported_eq

/-- Continuing by itself reports nothing, and continues only after a condition came to false. -/
theorem autoContinue_path {r : Except Exn Bool}
    (h : Path (tryAutoContinueConditionalBreakpointHit id n) es r) :
    ∀ e ∈ es, e.op.reported = [] ∧ (e.op.continues → FoundFalse id (Factory.toInt32 n) es) := by
  cases h with
  | @op _ _ _ d es _ h =>
  simp only [ret_bind] at h
  refine List.forall_mem_cons.2 ⟨⟨rfl, False.elim⟩, ?_⟩
  cases hcondition : d.conditionalBreakpointConditionsById.get? (Factory.toInt32 n) with
  | none =>
    rw [hcondition] at h
    cases h
    simp
  | some condition =>
    rw [hcondition] at h
    rcases h.of_bind with ⟨e, hevaluation, -⟩ | ⟨verdict, es₁, es₂, rfl, hevaluation, h⟩
    · intro e he
      have hquiet := (evaluation_quiet id condition).of_path hevaluation e he
      exact ⟨hquiet.reported_eq, fun hc => absurd hc hquiet.not_continues⟩
    have hbefore : ∀ e ∈ es₁, e.op.reported = [] ∧ ¬e.op.continues := fun e he =>
      have hquiet := (evaluation_quiet id condition).of_path hevaluation e he
      ⟨hquiet.reported_eq, hquiet.not_continues⟩
    rcases verdict with _ | _ | _
    · cases h
      intro e he
      obtain ⟨hr, hc⟩ := hbefore e (by simpa using he)
      exact ⟨hr, fun hc' => absurd hc' hc⟩
    · -- the condition came to false
      have hfound : FoundFalse id (Factory.toInt32 n) (⟨.tables, d⟩ :: (es₁ ++ es₂)) :=
        ⟨d, condition, [], es₁, es₂, rfl, hcondition, hevaluation⟩
      have hafter : AllOps (fun {_} (o : DapOp _) => o.reported = [])
          ((autoContinue id).bind fun _ => .ret true : Dap Bool) :=
        .bind (autoContinue_unreported id) fun _ => trivial
      intro e he
      rcases List.mem_append.1 he with he | he
      · exact ⟨(hbefore e he).1, fun _ => hfound⟩
      · exact ⟨hafter.of_path h e he, fun _ => hfound⟩
    · cases h
      intro e he
      obtain ⟨hr, hc⟩ := hbefore e (by simpa using he)
      exact ⟨hr, fun hc' => absurd hc' hc⟩

theorem FoundFalse.append {i : Int} {es' : List (Concurrent.Event DapOp)}
    (h : FoundFalse id i es) : FoundFalse id i (es ++ es') := by
  obtain ⟨d, condition, before, evaluation, after, rfl, hcondition, hevaluation⟩ := h
  exact ⟨d, condition, before, evaluation, after ++ es', by simp, hcondition, hevaluation⟩

theorem recordStop_reported {record : Dap Unit} {P : Int → Prop}
    (h : AllOps (fun {_} (o : DapOp _) => (∀ i ∈ o.reported, P i) ∧ ¬o.continues) record) :
    AllOps (fun {_} (o : DapOp _) => (∀ i ∈ o.reported, P i) ∧ ¬o.continues)
      (recordStop record) := by
  have plain : (∀ i ∈ ([] : List Int), P i) ∧ ¬False := ⟨nofun, False.elim⟩
  exact .bind (.bind (.perform plain) fun _ => trivial) fun _ => .ite trivial <|
    .bind (.perform plain) fun _ => .bind (.perform plain) fun _ =>
      .bind (.perform plain) fun _ => .ite (.perform plain) h

/-- A breakpoint that is hit is reported by the id it was taken for, and no other is; it is passed
over only after its condition came to false. -/
theorem hit_path {r : Except Exn Unit} (h : Path (onBreakpointHit id n) es r) :
    ∀ e ∈ es, (∀ i ∈ e.op.reported, i = Factory.toInt32 n) ∧
      (e.op.continues → FoundFalse id (Factory.toInt32 n) es) := by
  have hstop : AllOps (fun {_} (o : DapOp _) =>
      (∀ i ∈ o.reported, i = Factory.toInt32 n) ∧ ¬o.continues)
      (recordStop (setPendingStoppedEvent .breakpoint (some s!"Paused on breakpoint {n}.")
        (some [Factory.toInt32 n]))) :=
    recordStop_reported (.perform ⟨fun i hi => List.mem_singleton.1 hi, False.elim⟩)
  rcases h.of_bind with ⟨e, hauto, -⟩ | ⟨passed, es₁, es₂, rfl, hauto, h⟩
  · intro e he
    obtain ⟨hr, hc⟩ := autoContinue_path hauto e he
    exact ⟨by simp [hr], hc⟩
  have hfirst : ∀ e ∈ es₁, (∀ i ∈ e.op.reported, i = Factory.toInt32 n) ∧
      (e.op.continues → FoundFalse id (Factory.toInt32 n) (es₁ ++ es₂)) := by
    intro e he
    obtain ⟨hr, hc⟩ := autoContinue_path hauto e he
    exact ⟨by simp [hr], fun hcontinues => FoundFalse.append (hc hcontinues)⟩
  intro e he
  rcases List.mem_append.1 he with he | he
  · exact hfirst e he
  · cases passed with
    | true =>
      cases h
      cases he
    | false =>
      obtain ⟨hr, hc⟩ := hstop.of_path h e he
      exact ⟨hr, fun hcontinues => absurd hcontinues hc⟩

/-- The number an event is taken for. -/
def taken (description : Option String) : ℕ :=
  (description.bind Session.tryParseBreakpointId).getD 0

theorem taken_determined {description : Option String} (h : Determined description) :
    ∃ m : ℕ, Named description m ∧ Factory.toInt32 (taken description) = m := by
  have small {m : ℕ} (hm : m < 2 ^ 31) : Factory.toInt32 m = m :=
    Int.bmod_eq_of_le (by omega) (by omega)
  rcases h with ⟨text, m, rfl, hgives, hm⟩ | ⟨hnone, hnamed⟩
  · have htaken : taken (some text) = m := by
      rw [taken, Option.bind_some, Session.tryParseBreakpointId_eq_some.2 hgives,
        Option.getD_some]
    exact ⟨m, ⟨text, rfl, hgives.names⟩, by rw [htaken, small hm]⟩
  · have htaken : taken description = 0 := by
      cases hparse : description.bind Session.tryParseBreakpointId with
      | none => rw [taken, hparse, Option.getD_none]
      | some m =>
        obtain ⟨text, rfl, hm⟩ := Option.bind_eq_some_iff.1 hparse
        exact absurd (Session.tryParseBreakpointId_eq_some.1 hm) (hnone text m rfl)
    exact ⟨0, hnamed, by rw [htaken, small (by norm_num)]⟩

theorem determined_of_taken {description : Option String} {m : ℕ} (h : Named description m)
    (hm : Factory.toInt32 (taken description) = m) : Determined description := by
  have hzero : Factory.toInt32 0 = 0 := rfl
  have hsigned {k : ℕ} (hk : k < 2 ^ 32) (hkm : Factory.toInt32 k = m) : k < 2 ^ 31 := by
    have hlt : Factory.toInt32 k < (2 ^ 32 + 1) / 2 := Int.bmod_lt (by norm_num)
    obtain ⟨c, hc⟩ : (2 ^ 32 : Int) ∣ Factory.toInt32 k - k := Int.dvd_bmod_sub_self
    rw [hkm] at hlt hc
    omega
  cases hparse : description.bind Session.tryParseBreakpointId with
  | none =>
    rw [taken, hparse, Option.getD_none, hzero] at hm
    obtain rfl : 0 = m := by exact_mod_cast hm
    refine .inr ⟨?_, h⟩
    rintro text k rfl hk
    rw [Option.bind_some, Session.tryParseBreakpointId_eq_some.2 hk] at hparse
    cases hparse
  | some k =>
    obtain ⟨text, htext, hk⟩ := Option.bind_eq_some_iff.1 hparse
    have hgives := Session.tryParseBreakpointId_eq_some.1 hk
    rw [taken, hparse, Option.getD_some] at hm
    exact .inl ⟨text, k, htext, hgives, hsigned hgives.lt hm⟩

/-- What the engine answers when it is asked for the last event. -/
def describing (description : Option String) : Answers where
  answer := fun c e => match c with
    | .lastEvent => description
    | c => c.default e

/-- A running target, no condition kept: the halt is recorded for the number taken. -/
theorem exists_report (description : Option String) : ∃ es s',
    Steps (sem .callback) (onCallback 0 .breakpoint)
      (({} : Server).setFlag .isExecutionRunning true)
      (⟨.call 0 .lastEvent, description⟩ :: es) (.ofExcept (.ok ())) s' ∧
      ∃ e ∈ es, Factory.toInt32 (taken description) ∈ e.op.reported := by
  let s : Server := ({} : Server).setFlag .isExecutionRunning true
  let report : PendingStoppedEvent :=
    { reason := .breakpoint
      description := some s!"Paused on breakpoint {taken description}."
      hitBreakpointIds := some [Factory.toInt32 (taken description)] }
  refine ⟨[⟨.tables, s.tables⟩, ⟨.load .isExecutionRunning, true⟩,
    ⟨.store .isExecutionRunning false, ()⟩, ⟨.store .sessionStopOrExitObserved true, ()⟩,
    ⟨.load .suppressSessionEvents, false⟩, ⟨.setPending report, ()⟩], _,
    .cons ⟨describing description, rfl⟩ (.cons ⟨{}, rfl⟩ (.cons ⟨{}, rfl⟩ (.cons ⟨{}, rfl⟩ (.cons ⟨{}, rfl⟩ (.cons ⟨{}, rfl⟩ (.cons ⟨{}, rfl⟩
        (.nil _ _))))))), ⟨.setPending report, ()⟩, by simp, List.mem_singleton_self _⟩

/-- **Breakpoint events have to do with named breakpoints** if and only if their description gives
the id of one. -/
theorem attributed_iff (description : Option String) :
    Attributed description ↔ Determined description := by
  constructor
  · intro h
    obtain ⟨es, s', hsteps, e, he, hreported⟩ := exists_report description
    obtain ⟨m, hm, htaken⟩ := (h _ _ _ _ _ hsteps).reported e he _ hreported
    exact determined_of_taken hm htaken
  · intro h id s s' es r hsteps
    obtain ⟨m, hm, htaken⟩ := taken_determined h
    have hpath := hsteps.outcome_path
    cases hpath with
    | op hpath =>
    have hhit := hit_path (n := taken description) hpath
    rw [htaken] at hhit
    exact ⟨fun e he i hi => ⟨m, hm, (hhit e he).1 i hi⟩, fun e he hc => ⟨m, hm, (hhit e he).2 hc⟩⟩

/-- An event the engine cannot describe is taken for breakpoint 0. -/
theorem undescribed_reported : ¬∀ description, Attributed description := by
  intro hall
  obtain ⟨es, s', hsteps, e, he, hreported⟩ := exists_report none
  obtain ⟨m, ⟨text, htext, -⟩, -⟩ := (hall none _ _ _ _ _ hsteps).reported e he _ hreported
  cases htext

end Server

end DapDbgeng
