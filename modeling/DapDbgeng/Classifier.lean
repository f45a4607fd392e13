/-
  When a composed command is execution control.

  `is_execution_control_command` looks at the first word of each segment between semicolons.

  * `Text.runs`: a text whose segments after the first one make a command execution control;
  * `classify_word`: of a command that begins with another word, only those segments count;
  * `runs_append`: a text followed by a character that is in no execution-control command;
  * `runs_escapeCondition`: escaping does not matter.
-/
import DapDbgeng.Engine
import Mathlib.Data.List.DropRight

namespace DapDbgeng

namespace Text

/-! ## Splitting -/

theorem splitList_of_none {p : Char → Bool} {cs : List Char} (h : ∀ c ∈ cs, p c = false) :
    splitList p cs = [cs] := by
  induction cs with
  | nil => rfl
  | cons c cs ih =>
    rw [splitList, h c (.head _), ih fun c' hc' => h c' (.tail _ hc')]
    rfl

theorem splitList_cons_of_not {p : Char → Bool} {c : Char} {cs w : List Char}
    {ws : List (List Char)}
    (hc : p c = false) (h : splitList p cs = w :: ws) : splitList p (c :: cs) = (c :: w) :: ws := by
  rw [splitList, hc, h]
  rfl

theorem splitList_cons (p : Char → Bool) (cs : List Char) : ∃ w ws, splitList p cs = w :: ws := by
  cases cs with
  | nil => exact ⟨[], [], rfl⟩
  | cons c cs =>
    by_cases hc : p c = true
    · exact ⟨[], splitList p cs, by rw [splitList, if_pos hc]⟩
    · rw [splitList, if_neg hc]
      split
      · exact ⟨_, _, rfl⟩
      · exact ⟨_, _, rfl⟩

/-- The last piece of a text is joined with the first of what follows it. -/
theorem splitList_append (p : Char → Bool) (a b : List Char) : ∃ init last w ws,
    splitList p a = init ++ [last] ∧ splitList p b = w :: ws ∧
      splitList p (a ++ b) = init ++ (last ++ w) :: ws := by
  induction a with
  | nil =>
    obtain ⟨w, ws, h⟩ := splitList_cons p b
    exact ⟨[], [], w, ws, rfl, h, h⟩
  | cons c a ih =>
    obtain ⟨init, last, w, ws, ha, hb, hab⟩ := ih
    by_cases hc : p c = true
    · refine ⟨[] :: init, last, w, ws, ?_, hb, ?_⟩
      · rw [splitList, if_pos hc, ha, List.cons_append]
      · rw [List.cons_append, splitList, if_pos hc, hab, List.cons_append]
    · have hc : p c = false := by simpa using hc
      cases init with
      | nil => exact ⟨[], c :: last, w, ws, splitList_cons_of_not hc ha, hb,
          splitList_cons_of_not hc hab⟩
      | cons i init => exact ⟨(c :: i) :: init, last, w, ws, splitList_cons_of_not hc ha, hb,
          splitList_cons_of_not hc hab⟩

theorem splitList_append_sep {p : Char → Bool} {c : Char} (hc : p c = true) (a b : List Char) :
    splitList p (a ++ c :: b) = splitList p a ++ splitList p b := by
  obtain ⟨init, last, w, ws, ha, hb, hab⟩ := splitList_append p a (c :: b)
  rw [splitList, if_pos hc] at hb
  obtain ⟨rfl, rfl⟩ := List.cons.inj hb
  rw [hab, ha, List.append_nil, List.append_assoc, List.singleton_append]

/-! ## Segments -/

def isControlWord (word : List Char) : Bool :=
  executionControlCommands.contains (toLowerAscii (String.ofList word))

/-- The characters that separate the first word of a segment from the rest of it. -/
def endsWord (c : Char) : Bool := c = ' ' || c = '\t'

/-- Separators and the characters of no execution-control command. -/
def isForeign (x : Char) : Bool :=
  x != ';' && !isBlankChar x && executionControlCommands.all fun c => !c.toList.contains x.toLower

theorem trimEndList_append (p : Char → Bool) (a b : List Char) :
    trimEndList p (a ++ b) = if b.all p then trimEndList p a else a ++ trimEndList p b := by
  rw [trimEndList, List.reverse_append, List.dropWhile_append]
  have hall : (b.reverse.dropWhile p).isEmpty = b.all p := by
    rw [Bool.eq_iff_iff, List.isEmpty_iff, List.dropWhile_eq_nil_iff, List.all_eq_true]
    simp
  rw [hall]
  split
  · rfl
  · rw [List.reverse_append, List.reverse_reverse]
    rfl

theorem isSpace_of_trimBoth {s : String} (h : (trimBoth s).isEmpty = true) :
    s.toList.all isSpace = true := by
  have hnil : trimList isSpace s.toList = [] := by
    have := congrArg String.toList (String.isEmpty_iff.1 h)
    rwa [trimBoth, String.toList_ofList] at this
  rw [trimList, trimEndList, List.reverse_eq_nil_iff, List.dropWhile_eq_nil_iff] at hnil
  rw [List.all_eq_true]
  by_contra hsome
  have hne : s.toList.dropWhile isSpace ≠ [] := fun h => hsome (List.dropWhile_eq_nil_iff.1 h)
  have hhead := List.head_dropWhile_not isSpace hne
  rw [hnil _ (List.mem_reverse.2 (List.head_mem hne))] at hhead
  cases hhead

theorem isExecutionControlSegment_eq (s : List Char) : isExecutionControlSegment s =
    isControlWord ((trimEndList isBlankChar (s.dropWhile isBlankChar)).takeWhile fun c =>
      !endsWord c) := by
  have hword (w : List Char) : (!w.isEmpty && isControlWord (w.takeWhile fun c => !endsWord c)) =
      isControlWord (w.takeWhile fun c => !endsWord c) := by
    cases w with
    | nil => decide
    | cons c w => rfl
  rw [← hword]
  have hends : (fun c : Char => c != ' ' && c != '\t') = fun c => !endsWord c := by
    funext c
    rw [endsWord, Bool.not_or]
    rfl
  rw [isExecutionControlSegment, trimList, isControlWord, hends]

theorem isBlankChar_of_endsWord {c : Char} (h : endsWord c = true) : isBlankChar c = true := by
  rw [endsWord, Bool.or_eq_true] at h
  rw [isBlankChar]
  rcases h with h | h <;> simp [of_decide_eq_true h]

/-- A word is the first one of its segment, whatever comes behind it. -/
theorem isExecutionControlSegment_word {word rest : List Char} {c : Char}
    (hw : ∀ c ∈ word, isBlankChar c = false) (hne : word ≠ []) (hc : endsWord c = true) :
    isExecutionControlSegment (word ++ c :: rest) = isControlWord word := by
  obtain ⟨first, tail, rfl⟩ := List.exists_cons_of_ne_nil hne
  have hfirst := hw first (.head _)
  have hstart : (first :: tail ++ c :: rest).dropWhile isBlankChar =
      first :: tail ++ c :: rest := by
    rw [List.cons_append, List.dropWhile_cons, hfirst]
    rfl
  have hkept : ∀ c ∈ first :: tail, (!endsWord c) = true := by
    intro c hc
    have := hw c hc
    by_contra hends
    rw [isBlankChar_of_endsWord (by simpa using hends)] at this
    cases this
  have htrim : trimEndList isBlankChar (first :: tail) = first :: tail := by
    rw [trimEndList]
    cases hr : (first :: tail).reverse with
    | nil => simp at hr
    | cons l ls =>
      have hl : isBlankChar l = false :=
        hw l (List.mem_reverse.1 (by rw [hr]; exact .head _))
      rw [List.dropWhile_cons, hl, ← hr]
      exact List.reverse_reverse _
  rw [isExecutionControlSegment_eq, hstart, trimEndList_append]
  split
  · rw [htrim, List.takeWhile_eq_self_iff.2 hkept]
  · rename_i hblank
    obtain ⟨rest', hrest⟩ : ∃ rest', trimEndList isBlankChar (c :: rest) = c :: rest' := by
      rw [show c :: rest = [c] ++ rest from rfl, trimEndList_append]
      split
      · rename_i hall
        refine absurd ?_ hblank
        rw [List.all_cons, isBlankChar_of_endsWord hc, hall]
        rfl
      · exact ⟨_, rfl⟩
    rw [hrest, List.takeWhile_append_of_pos hkept, List.takeWhile_cons, hc]
    simp

theorem not_control_of_mem {word : List Char} {x : Char} (hx : isForeign x = true)
    (h : x ∈ word) : isControlWord word = false := by
  rw [isForeign, Bool.and_eq_true, List.all_eq_true] at hx
  rw [isControlWord, Bool.eq_false_iff]
  intro hcontains
  have hmem := hx.2 _ (List.contains_iff_mem.1 hcontains)
  rw [toLowerAscii, String.toList_ofList, String.toList_ofList] at hmem
  have hlower : x.toLower ∈ word.map Char.toLower := List.mem_map.2 ⟨x, h, rfl⟩
  rw [List.contains_iff_mem.2 hlower] at hmem
  cases hmem

/-- A segment with a character in it that no execution-control command has. -/
theorem isExecutionControlSegment_foreign {x : Char} (hx : isForeign x = true) (s t : List Char) :
    isExecutionControlSegment (s ++ x :: t) =
      ((s.dropWhile isBlankChar).any endsWord &&
        isControlWord ((s.dropWhile isBlankChar).takeWhile fun c => !endsWord c)) := by
  have hblank : isBlankChar x = false := by
    rw [isForeign, Bool.and_eq_true, Bool.and_eq_true] at hx
    simpa using hx.1.2
  have hstart : (s ++ x :: t).dropWhile isBlankChar = s.dropWhile isBlankChar ++ x :: t := by
    rw [List.dropWhile_append]
    split
    · rename_i hnil
      rw [List.isEmpty_iff.1 hnil, List.dropWhile_cons, hblank]
      rfl
    · rfl
  obtain ⟨t', ht⟩ : ∃ t', trimEndList isBlankChar (s.dropWhile isBlankChar ++ x :: t) =
      s.dropWhile isBlankChar ++ x :: t' := by
    rw [trimEndList_append, if_neg (by simp [hblank]), show x :: t = [x] ++ t from rfl,
      trimEndList_append]
    split
    · exact ⟨[], by simp [trimEndList, hblank]⟩
    · exact ⟨_, rfl⟩
  rw [isExecutionControlSegment_eq, hstart, ht]
  generalize s.dropWhile isBlankChar = s'
  by_cases hany : s'.any endsWord = true
  · rw [hany, Bool.true_and, List.takeWhile_append]
    rw [if_neg]
    intro hlen
    have hself : s'.takeWhile (fun c => !endsWord c) = s' :=
      (List.takeWhile_prefix _).eq_of_length hlen
    obtain ⟨c, hc, hends⟩ := List.any_eq_true.1 hany
    have := List.takeWhile_eq_self_iff.1 hself c hc
    rw [hends] at this
    cases this
  · have hany : s'.any endsWord = false := by simpa using hany
    rw [hany, Bool.false_and]
    have hkept : ∀ c ∈ s', (!endsWord c) = true := by
      intro c hc
      rw [List.any_eq_false] at hany
      simpa using hany c hc
    have hx' : (!endsWord x) = true := by
      by_contra hends
      rw [isBlankChar_of_endsWord (by simpa using hends)] at hblank
      cases hblank
    rw [List.takeWhile_append_of_pos hkept, List.takeWhile_cons, if_pos hx']
    exact not_control_of_mem hx (List.mem_append_right _ (.head _))

/-- The words of the execution-control commands have no white space in them. -/
theorem not_blank_of_control {word : List Char} (h : isControlWord word = true) :
    ∀ c ∈ word, isBlankChar c = false := by
  intro c hc
  by_contra hblank
  have hblank : isBlankChar c = true := by simpa using hblank
  have hspace : c = ' ' ∨ c = '\t' ∨ c = '\r' ∨ c = '\n' := by
    simpa [isBlankChar, or_assoc] using hblank
  rw [isControlWord, List.contains_iff_mem] at h
  have hmem : c.toLower ∈ (toLowerAscii (String.ofList word)).toList := by
    rw [toLowerAscii, String.toList_ofList, String.toList_ofList]
    exact List.mem_map.2 ⟨c, hc, rfl⟩
  have hnone : executionControlCommands.all (fun w => [' ', '\t', '\r', '\n'].all fun b =>
      !w.toList.contains b.toLower) = true := by decide
  have hword := List.all_eq_true.1 (List.all_eq_true.1 hnone _ h) c (by simpa using hspace)
  rw [Bool.not_eq_true', ← Bool.not_eq_true, List.contains_iff_mem] at hword
  exact hword hmem

/-- What is execution control in front of a character of no command, is so without it. -/
theorem isExecutionControlSegment_of_foreign {x : Char} (hx : isForeign x = true) {s : List Char}
    (h : isExecutionControlSegment (s ++ [x]) = true) : isExecutionControlSegment s = true := by
  rw [isExecutionControlSegment_foreign hx, Bool.and_eq_true] at h
  obtain ⟨hany, hword⟩ := h
  have hstart : isExecutionControlSegment s =
      isExecutionControlSegment (s.dropWhile isBlankChar) := by
    rw [isExecutionControlSegment_eq, isExecutionControlSegment_eq, List.dropWhile_idempotent]
  rw [hstart]
  generalize s.dropWhile isBlankChar = s' at hany hword ⊢
  have hsplit := List.takeWhile_append_dropWhile (p := fun c => !endsWord c) (l := s')
  have hne : s'.takeWhile (fun c => !endsWord c) ≠ [] := by
    intro hnil
    rw [hnil] at hword
    exact absurd hword (by decide)
  cases hrest : s'.dropWhile (fun c => !endsWord c) with
  | nil =>
    have hall := List.dropWhile_eq_nil_iff.1 hrest
    obtain ⟨c, hc, hends⟩ := List.any_eq_true.1 hany
    have := hall c hc
    rw [hends] at this
    cases this
  | cons c rest =>
    have hc : endsWord c = true := by
      have := @List.head_dropWhile_not _ (fun c => !endsWord c) s' (by simp [hrest])
      simpa [hrest] using this
    rw [hrest] at hsplit
    rw [← hsplit, isExecutionControlSegment_word (not_blank_of_control hword) hne hc]
    exact hword

/-! ## Composed commands -/

/-- A segment after the first one is execution control. -/
def runs (cs : List Char) : Bool :=
  (splitList (· = ';') cs).tail.any isExecutionControlSegment

/-- A command that ends with the text is execution control for its sake. -/
def runsAtEnd (s : String) : Bool := runs s.toList

/-- A command in which a quote or a bracket follows the text is execution control for its sake. -/
def runsInside (s : String) : Bool := runs (s.toList ++ ['"'])

theorem runs_of_none (pre : List Char) (h : ∀ c ∈ pre, c ≠ ';') (cs : List Char) :
    runs (pre ++ cs) = runs cs := by
  obtain ⟨init, last, w, ws, hpre, hcs, happend⟩ := splitList_append (· = ';') pre cs
  rw [splitList_of_none (by simpa using h)] at hpre
  have hinit : init = [] := by
    cases init with
    | nil => rfl
    | cons i init => simp at hpre
  subst hinit
  rw [runs, runs, happend, hcs]
  rfl

/-- Of a command that begins with a word that is none, only the segments after the first count. -/
theorem classify_word {word : List Char} {c : Char} (rest : List Char)
    (hw : ∀ c ∈ word, isBlankChar c = false ∧ c ≠ ';') (hne : word ≠ [])
    (hcontrol : isControlWord word = false) (hc : endsWord c = true) :
    (splitList (· = ';') (word ++ c :: rest)).any isExecutionControlSegment = runs rest := by
  have hsep : c ≠ ';' := by
    rintro rfl
    exact absurd hc (by decide)
  obtain ⟨w, ws, hrest⟩ := splitList_cons (· = ';') rest
  have hc' : splitList (· = ';') (c :: rest) = (c :: w) :: ws :=
    splitList_cons_of_not (by simpa using hsep) hrest
  obtain ⟨init, last, w', ws', hword, hcs, happend⟩ := splitList_append (· = ';') word (c :: rest)
  rw [splitList_of_none (by simpa using fun c hc => (hw c hc).2)] at hword
  rw [hc'] at hcs
  obtain ⟨rfl, rfl⟩ := List.cons.inj hcs
  cases init with
  | cons i init => simp at hword
  | nil =>
    obtain rfl : word = last := by simpa using hword
    rw [happend, runs, hrest, List.nil_append, List.any_cons,
      isExecutionControlSegment_word (fun c hc => (hw c hc).1) hne hc, hcontrol]
    rfl

/-- What follows a character of no command is told apart from what is in front of it. -/
theorem runs_append {x : Char} (hx : isForeign x = true) (a b : List Char) :
    runs (a ++ x :: b) = (runs (a ++ ['"']) || runs b) := by
  have hsep : x ≠ ';' := by
    rintro rfl
    exact absurd hx (by decide)
  obtain ⟨init, last, w, ws, ha, hb, hab⟩ := splitList_append (· = ';') a (x :: b)
  obtain ⟨init', last', w', ws', ha', hquote, haquote⟩ := splitList_append (· = ';') a ['"']
  rw [ha] at ha'
  obtain ⟨rfl, hlast⟩ := List.append_inj' ha' rfl
  obtain rfl : last = last' := by simpa using hlast
  obtain ⟨rfl, rfl⟩ : ['"'] = w' ∧ [] = ws' := List.cons.inj hquote
  obtain ⟨w'', ws'', hb'⟩ := splitList_cons (· = ';') b
  rw [splitList_cons_of_not (by simpa using hsep) hb'] at hb
  obtain ⟨rfl, rfl⟩ := List.cons.inj hb
  rw [runs, runs, runs, hab, haquote, hb']
  cases init with
  | nil => rfl
  | cons i init =>
    simp only [List.cons_append, List.tail_cons, List.any_append, List.any_cons, List.any_nil,
      Bool.or_false]
    rw [isExecutionControlSegment_foreign hx,
      isExecutionControlSegment_foreign (x := '"') (by decide),
      Bool.or_assoc]

theorem runsAtEnd_of_inside {s : String} (h : runsInside s = true) : runsAtEnd s = true := by
  obtain ⟨init, last, w, ws, hs, hquote, happend⟩ := splitList_append (· = ';') s.toList ['"']
  obtain ⟨rfl, rfl⟩ : ['"'] = w ∧ [] = ws := List.cons.inj hquote
  rw [runsInside, runs, happend] at h
  rw [runsAtEnd, runs, hs]
  cases init with
  | nil => exact h
  | cons i init =>
    simp only [List.cons_append, List.tail_cons, List.any_append, List.any_cons, List.any_nil,
      Bool.or_false, Bool.or_eq_true] at h ⊢
    exact h.imp_right (isExecutionControlSegment_of_foreign (by decide))

/-- Escaping puts a backslash in front of characters of no command. -/
theorem runs_escapeCondition (pre cs : List Char) :
    runs (pre ++ Command.escapeCondition cs ++ ['"']) = runs (pre ++ cs ++ ['"']) := by
  induction cs generalizing pre with
  | nil => rfl
  | cons c cs ih =>
    have hescape : Command.escapeCondition (c :: cs) =
        (if c = '\\' then ['\\', '\\'] else if c = '"' then ['\\', '"'] else [c]) ++
          Command.escapeCondition cs := rfl
    have hspecial (hc : isForeign c = true) : runs (pre ++ '\\' :: c ::
        (Command.escapeCondition cs ++ ['"'])) = runs (pre ++ c :: (cs ++ ['"'])) := by
      have hnil := ih []
      rw [List.nil_append, List.nil_append] at hnil
      rw [runs_append (by decide), runs_append hc, ← hnil,
        ← runs_of_none [c] (by
          rintro c' hc' rfl
          rw [List.mem_singleton] at hc'
          subst hc'
          exact absurd hc (by decide)) (Command.escapeCondition cs ++ ['"'])]
      rfl
    rw [hescape]
    split
    · rename_i hc
      subst hc
      simpa [List.append_assoc] using hspecial (by decide)
    split
    · rename_i hc
      subst hc
      simpa [List.append_assoc] using hspecial (by decide)
    · have := ih (pre ++ [c])
      simpa [List.append_assoc] using this

end Text

end DapDbgeng
