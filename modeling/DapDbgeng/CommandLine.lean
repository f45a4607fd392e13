/-
  The command line of a launched program.

  The items of an args array become tokens, a string quoted where it has to be, and the tokens are
  joined by spaces and put after the program.

  * `quoteLoop_reads`: what the quoting loop writes is read back, for every run of backslashes it
    still has to write;
  * `tryGetCommandLineArguments_splits`: the launched program sees one argument for every item.
-/
import DapDbgeng.ArgumentVectors
import DapDbgeng.Targets

namespace DapDbgeng

open ArgumentVectors

namespace ArgumentReader

/-! ## Quoting -/

/-- **Quoting.**  Inside quotes, what the loop writes and the closing quote are read as the
characters it was given. -/
theorem quoteLoop_reads (cs : List Char) (n : Nat) (text rest : List Char) :
    splitLoop true 0 (some text) (quoteLoop n cs ++ '"' :: rest) =
      splitLoop false 0 (some (text ++ List.replicate n '\\' ++ cs)) rest := by
  induction cs generalizing n text with
  | nil => rw [quoteLoop, splitLoop_toggle, List.append_nil, Bool.not_true]
  | cons c cs ih =>
    rw [quoteLoop]
    split
    · rename_i hslash
      rw [ih, hslash, List.replicate_succ']
      simp
    split
    · rename_i hquote
      rw [List.append_assoc, List.cons_append, splitLoop_literal, ih, hquote]
      simp
    · rename_i hslash hquote
      rw [List.append_assoc, List.cons_append, splitLoop_quoted hslash hquote, ih]
      simp

theorem quoted_reads (cs : List Char) : Reads ('"' :: quoteLoop 0 cs ++ ['"']) cs := by
  refine ⟨0, some cs, fun rest => ?_, .inr (by simp), by simp [held]⟩
  have hopen : '"' :: quoteLoop 0 cs ++ ['"'] ++ rest = '"' :: (quoteLoop 0 cs ++ '"' :: rest) := by
    simp
  rw [hopen, splitLoop_open, quoteLoop_reads]
  rfl

theorem quoteCommandLineToken_reads (value : String) :
    Reads (quoteCommandLineToken value).toList value.toList := by
  rw [quoteCommandLineToken]
  split
  · rename_i hempty
    rw [List.isEmpty_iff.1 hempty]
    exact quoted_reads []
  split
  · rename_i hne hall
    refine Bare.reads (fun c hc => ?_) (by simpa using hne)
    have hc' := List.all_eq_true.1 hall c hc
    simp only [Bool.and_eq_true, bne_iff_ne, ne_eq] at hc'
    exact ⟨decide_eq_false (by tauto), hc'.2⟩
  · rw [String.toList_ofList]
    exact quoted_reads value.toList

/-! ## Scalars -/

/-- The characters of a number's text. -/
def isNumberChar (c : Char) : Bool := c.isDigit ∨ c ∈ ['+', '-', '.', 'e', 'E']

/-- A string, number, boolean or null; a number has the text of a number. -/
def IsScalar : Json → Prop
  | .arr _ | .obj _ => False
  | .float text _ => text.toList ≠ [] ∧ ∀ c ∈ text.toList, isNumberChar c = true
  | _ => True

/-- What the launched program sees of an item: a string as it is, any other scalar as its JSON
text. -/
def itemText : Json → String
  | .str s => s
  | j => j.dump

theorem isNumberChar_bare {c : Char} (h : isNumberChar c = true) : isBlank c = false ∧ c ≠ '"' := by
  constructor
  · refine decide_eq_false ?_
    rintro (rfl | rfl) <;> exact absurd h (by decide)
  · rintro rfl
    exact absurd h (by decide)

theorem digits_number {n : Nat} {c : Char} (h : c ∈ Nat.toDigits 10 n) : isNumberChar c = true :=
  decide_eq_true (.inl (Nat.isDigit_of_mem_toDigits (by decide) (by decide) h))

theorem int_number (i : Int) :
    (toString i).toList ≠ [] ∧ ∀ c ∈ (toString i).toList, isNumberChar c = true := by
  cases i with
  | ofNat n =>
    have hn : (toString (Int.ofNat n)).toList = Nat.toDigits 10 n := Nat.toList_repr
    rw [hn]
    exact ⟨Nat.toDigits_ne_nil, fun c => digits_number⟩
  | negSucc n =>
    have hn : (toString (Int.negSucc n)).toList = '-' :: Nat.toDigits 10 (n + 1) := by
      change ("-" ++ (n + 1).repr).toList = _
      rw [String.toList_append, Nat.toList_repr]
      rfl
    rw [hn]
    refine ⟨List.cons_ne_nil _ _, fun c hc => ?_⟩
    rcases List.mem_cons.1 hc with rfl | hc
    · decide
    · exact digits_number hc

theorem number_reads {text : String}
    (h : text.toList ≠ [] ∧ ∀ c ∈ text.toList, isNumberChar c = true) :
    Reads text.toList text.toList := Bare.reads (fun c hc => isNumberChar_bare (h.2 c hc)) h.1

theorem word_reads {text : String} (hne : text.toList ≠ [])
    (h : (text.toList.all fun c => !isBlank c && c != '"') = true) :
    Reads text.toList text.toList := by
  refine Bare.reads (fun c hc => ?_) hne
  have hbare := List.all_eq_true.1 h c hc
  rw [Bool.and_eq_true, Bool.not_eq_true', bne_iff_ne] at hbare
  exact hbare

theorem commandLineToken_reads {j : Json} (h : IsScalar j) :
    Reads (commandLineToken j).toList (itemText j).toList := by
  cases j with
  | str s => exact quoteCommandLineToken_reads s
  | int i => exact number_reads (int_number i)
  | float text trunc => exact number_reads h
  | null => exact word_reads (List.cons_ne_nil _ _) rfl
  | bool b =>
    cases b with
    | false => exact word_reads (List.cons_ne_nil _ _) rfl
    | true => exact word_reads (List.cons_ne_nil _ _) rfl
  | arr items => exact h.elim
  | obj members => exact h.elim

/-! ## The command line -/

/-- A path of one token: no quote in it, and no tab unless the path is quoted for its spaces. -/
theorem buildCommandLine_token {path : String} (hne : path.toList ≠ []) (hquote : '"' ∉ path.toList)
    (htab : '\t' ∈ path.toList → ' ' ∈ path.toList) :
    ProgramToken (Session.buildCommandLine path none).toList path.toList := by
  rw [Session.buildCommandLine]
  split
  · refine .inl ⟨?_, hquote⟩
    rw [String.toList_append, String.toList_append]
    rfl
  · rename_i hspace
    have hspace' : ' ' ∉ path.toList := by simpa using hspace
    refine .inr ⟨rfl, hne, fun hhead => hquote (List.mem_of_head? hhead), fun c hc => ?_⟩
    refine decide_eq_false ?_
    rintro (rfl | rfl)
    · exact hspace' hc
    · exact hspace' (htab hc)

theorem buildCommandLine_some (path : String) {a : String} (h : a.toList ≠ []) :
    (Session.buildCommandLine path (some a)).toList =
      (Session.buildCommandLine path none).toList ++ ' ' :: a.toList := by
  have hne : a.isEmpty = false := by
    simpa [String.isEmpty_iff] using h
  simp only [Session.buildCommandLine, hne]
  simp

theorem forall₂_reads {items : List Json} (h : ∀ j ∈ items, IsScalar j) :
    List.Forall₂ Reads ((items.map commandLineToken).map String.toList)
      (items.map fun j => (itemText j).toList) := by
  induction items with
  | nil => exact .nil
  | cons j items ih =>
    exact .cons (commandLineToken_reads (h j List.mem_cons_self))
      (ih fun k hk => h k (List.mem_cons_of_mem j hk))

/-- **Arguments.**  Behind any program token, the arguments of a launch with an array of scalars are
split into its items. -/
theorem tryGetCommandLineArguments_splits {arguments : Json} {items : List Json}
    (hargs : arguments.find "args" = some (.arr items)) (hne : items ≠ [])
    (hscalar : ∀ j ∈ items, IsScalar j) : ∃ a, tryGetCommandLineArguments arguments = some a ∧
      ∀ (path : String) (name : List Char),
        ProgramToken (Session.buildCommandLine path none).toList name →
          argumentVector (Session.buildCommandLine path (some a)).toList =
            name :: items.map fun j => (itemText j).toList := by
  have hempty : items.isEmpty = false := List.isEmpty_eq_false_iff.2 hne
  refine ⟨" ".intercalate (items.map commandLineToken), ?_, fun path name htoken => ?_⟩
  · rw [tryGetCommandLineArguments, hargs]
    simp [hempty]
  · have hsplit := splitLoop_join (forall₂_reads hscalar)
    have htext : (" ".intercalate (items.map commandLineToken)).toList =
        [' '].intercalate ((items.map commandLineToken).map String.toList) :=
      String.toList_intercalate
    have hnonempty : (" ".intercalate (items.map commandLineToken)).toList ≠ [] := by
      intro hnil
      rw [← htext, hnil] at hsplit
      exact hne (List.map_eq_nil_iff.1 hsplit.symm)
    rw [buildCommandLine_some path hnonempty, argumentVector_program htoken, htext, hsplit]

/-- Empty strings, quotes and backslashes behind a quoted program. -/
theorem tryGetCommandLineArguments_quotes : ∃ a,
    tryGetCommandLineArguments (.obj [("args", .arr [.str "", .str "a \"b", .str "c d\\",
      .float "1.5" 1, .null])]) = some a ∧
      argumentVector (Session.buildCommandLine "C:\\my app.exe" (some a)).toList =
        ["C:\\my app.exe".toList, [], "a \"b".toList, "c d\\".toList, "1.5".toList,
          "null".toList] := by
  obtain ⟨a, ha, hsplit⟩ := @tryGetCommandLineArguments_splits
    (.obj [("args", .arr [.str "", .str "a \"b", .str "c d\\", .float "1.5" 1, .null])])
    _ rfl (by simp) (by simp [IsScalar]; decide)
  exact ⟨a, ha, hsplit _ _ (buildCommandLine_token (by decide) (by decide) (by decide))⟩

end ArgumentReader

end DapDbgeng
