/-
  Which commands are execution control.

  A command is execution control if the first token of one of its segments is an execution-control
  command.  A token ends at white space; the classifier lets it end at a space or a tab only.

  * `Piece`: the parts of a text between separators;
  * `Controls`: a segment whose first token is an execution-control command, `Caught`: one that
    the classifier takes for such a segment;
  * `isExecutionControlCommand_iff`: the commands that are classified as they should be.
-/
import DapDbgeng.Classifier

namespace DapDbgeng

namespace Text

/-! ## Pieces -/

/-- A part of a text between two separators, or between a separator and an end. -/
def Piece (p : Char → Bool) (cs piece : List Char) : Prop :=
  ∃ before after, cs = before ++ piece ++ after ∧ (∀ c ∈ piece, p c = false) ∧
    (∀ c ∈ before.getLast?, p c = true) ∧ ∀ c ∈ after.head?, p c = true

section

variable {p : Char → Bool} {cs piece : List Char}

theorem Piece.mem (h : Piece p cs piece) : piece ∈ splitList p cs := by
  obtain ⟨before, after, rfl, hpiece, hbefore, hafter⟩ := h
  have hfirst : piece ∈ splitList p (piece ++ after) := by
    cases after with
    | nil =>
      rw [List.append_nil, splitList_of_none hpiece]
      exact .head _
    | cons c after =>
      rw [splitList_append_sep (hafter c rfl), splitList_of_none hpiece]
      exact List.mem_append_left _ (.head _)
  rw [List.append_assoc]
  rcases List.eq_nil_or_concat before with rfl | ⟨before, c, rfl⟩
  · exact hfirst
  · rw [List.concat_eq_append, List.append_assoc, List.singleton_append,
      splitList_append_sep (hbefore c (by simp))]
    exact List.mem_append_right _ hfirst

theorem piece_of_mem (h : piece ∈ splitList p cs) : Piece p cs piece := by
  -- by the length of the text: its first piece is cut off with the separator behind it
  induction hn : cs.length using Nat.strongRecOn generalizing cs with
  | ind n ih =>
    have hkept : ∀ c ∈ cs.takeWhile (!p ·), p c = false := by
      intro c hc
      simpa using List.mem_takeWhile_imp hc
    have hsplit := List.takeWhile_append_dropWhile (p := (!p ·)) (l := cs)
    generalize cs.takeWhile (!p ·) = first at hkept hsplit
    cases hrest : cs.dropWhile (!p ·) with
    | nil =>
      rw [hrest, List.append_nil] at hsplit
      subst hsplit
      rw [splitList_of_none hkept, List.mem_singleton] at h
      subst h
      exact ⟨[], [], by simp, hkept, nofun, nofun⟩
    | cons c rest =>
      have hc : p c = true := by
        have hhead := List.head?_dropWhile_not (!p ·) cs
        simpa [hrest] using hhead
      rw [hrest] at hsplit
      subst hsplit
      rw [splitList_append_sep hc, splitList_of_none hkept, List.singleton_append,
        List.mem_cons] at h
      rcases h with rfl | h
      · refine ⟨[], c :: rest, rfl, hkept, nofun, ?_⟩
        rintro c' hc'
        obtain rfl : c = c' := by simpa using hc'
        exact hc
      · have hlt : rest.length < n := by
          rw [← hn, List.length_append, List.length_cons]
          omega
        obtain ⟨before, after, rfl, hpiece, hbefore, hafter⟩ := ih _ hlt h rfl
        refine ⟨first ++ c :: before, after, by simp, hpiece, ?_, hafter⟩
        intro c' hc'
        cases before with
        | nil =>
          obtain rfl : c = c' := by simpa using hc'
          exact hc
        | cons b before =>
          refine hbefore c' ?_
          rw [List.getLast?_append] at hc'
          simpa using hc'

end

/-- The segments of a command. -/
abbrev Segment (command : String) (segment : List Char) : Prop :=
  Piece (· = ';') command.toList segment

/-! ## First tokens -/

/-- The segment is white space, an execution-control command and the rest of the segment. -/
structure Begins (segment word rest : List Char) : Prop where
  split : ∃ blanks, segment = blanks ++ word ++ rest ∧ ∀ c ∈ blanks, isBlankChar c = true
  control : isControlWord word = true

/-- The first token of the segment is an execution-control command. -/
def Controls (segment : List Char) : Prop :=
  ∃ word rest, Begins segment word rest ∧ ∀ c ∈ rest.head?, isBlankChar c = true

/-- The token ends at a space or a tab, or nothing but white space follows it. -/
def Caught (segment : List Char) : Prop :=
  ∃ word rest, Begins segment word rest ∧
    ((∀ c ∈ rest, isBlankChar c = true) ∨ ∃ c ∈ rest.head?, endsWord c = true)

/-- The token ends at a line break, and more than white space follows it. -/
def Missed (segment : List Char) : Prop :=
  ∃ word c rest, Begins segment word (c :: rest) ∧ (c = '\r' ∨ c = '\n') ∧
    ∃ c ∈ rest, isBlankChar c = false

theorem controls_iff (segment : List Char) :
    Controls segment ↔ Caught segment ∨ Missed segment := by
  constructor
  · rintro ⟨word, rest, hbegins, hrest⟩
    by_cases hblank : ∀ c ∈ rest, isBlankChar c = true
    · exact .inl ⟨word, rest, hbegins, .inl hblank⟩
    · cases rest with
      | nil => exact absurd nofun hblank
      | cons c rest =>
        have hc : isBlankChar c = true := hrest c rfl
        by_cases hends : endsWord c = true
        · exact .inl ⟨word, c :: rest, hbegins, .inr ⟨c, rfl, hends⟩⟩
        · refine .inr ⟨word, c, rest, hbegins, ?_, ?_⟩
          · simp [isBlankChar, endsWord] at hc hends
            tauto
          · by_contra hnone
            refine hblank (List.forall_mem_cons.2 ⟨hc, fun c' hc' => ?_⟩)
            by_contra hc''
            exact hnone ⟨c', hc', by simpa using hc''⟩
  · rintro (⟨word, rest, hbegins, hrest⟩ | ⟨word, c, rest, hbegins, hc, -⟩)
    · refine ⟨word, rest, hbegins, fun c hc => ?_⟩
      rcases hrest with hblank | ⟨c', hc', hends⟩
      · exact hblank c (List.mem_of_head? hc)
      · obtain rfl : c = c' := Option.mem_unique hc hc'
        exact isBlankChar_of_endsWord hends
    · refine ⟨word, c :: rest, hbegins, fun c' hc' => ?_⟩
      obtain rfl : c = c' := by simpa using hc'
      rcases hc with rfl | rfl <;> rfl

theorem control_ne_nil {word : List Char} (h : isControlWord word = true) : word ≠ [] := by
  rintro rfl
  exact absurd h (by decide)

theorem isExecutionControlSegment_blanks {blanks : List Char}
    (h : ∀ c ∈ blanks, isBlankChar c = true) (cs : List Char) :
    isExecutionControlSegment (blanks ++ cs) = isExecutionControlSegment cs := by
  rw [isExecutionControlSegment_eq, isExecutionControlSegment_eq, List.dropWhile_append_of_pos h]

/-- What is trimmed off the end of a text. -/
theorem trimEndList_split (p : Char → Bool) (cs : List Char) :
    ∃ tail, cs = trimEndList p cs ++ tail ∧ ∀ c ∈ tail, p c = true :=
  ⟨cs.rtakeWhile p, (List.rdropWhile_append_rtakeWhile (p := p) (l := cs)).symm,
    fun _ => List.mem_rtakeWhile_imp⟩

theorem trimEndList_of_none {p : Char → Bool} {cs : List Char} (h : ∀ c ∈ cs, p c = false) :
    trimEndList p cs = cs := by
  refine List.rdropWhile_eq_self_iff.2 fun hne => ?_
  simpa using h _ (List.getLast_mem hne)

theorem caught_of_control {segment : List Char} (h : isExecutionControlSegment segment = true) :
    Caught segment := by
  rw [isExecutionControlSegment_eq] at h
  -- the segment is white space, the token, the rest of the trimmed segment, and white space
  have hstart := List.takeWhile_append_dropWhile (p := isBlankChar) (l := segment)
  obtain ⟨tail, hend, htail⟩ := trimEndList_split isBlankChar (segment.dropWhile isBlankChar)
  generalize trimEndList isBlankChar (segment.dropWhile isBlankChar) = trimmed at h hend
  have htoken := List.takeWhile_append_dropWhile (p := (!endsWord ·)) (l := trimmed)
  have hstop := List.head?_dropWhile_not (!endsWord ·) trimmed
  generalize trimmed.dropWhile (!endsWord ·) = rest at htoken hstop
  refine ⟨_, rest ++ tail, ⟨⟨segment.takeWhile isBlankChar, ?_, ?_⟩, h⟩, ?_⟩
  · rw [List.append_assoc, ← List.append_assoc _ rest, htoken, ← hend, hstart]
  · exact fun c hc => List.mem_takeWhile_imp hc
  · cases rest with
    | nil => exact .inl htail
    | cons c rest =>
      have hc : endsWord c = true := by simpa using hstop
      exact .inr ⟨c, rfl, hc⟩

theorem control_of_caught {segment : List Char} (h : Caught segment) :
    isExecutionControlSegment segment = true := by
  obtain ⟨word, rest, ⟨⟨blanks, rfl, hblanks⟩, hcontrol⟩, hrest⟩ := h
  have hword := not_blank_of_control hcontrol
  rw [List.append_assoc, isExecutionControlSegment_blanks hblanks]
  rcases hrest with hblank | ⟨c, hc, hends⟩
  · have hstart : (word ++ rest).dropWhile isBlankChar = word ++ rest := by
      obtain ⟨first, word, rfl⟩ := List.exists_cons_of_ne_nil (control_ne_nil hcontrol)
      exact List.dropWhile_cons_of_neg (by simp [hword first (.head _)])
    have hkept : ∀ c ∈ word, (!endsWord c) = true := by
      intro c hc
      by_contra hends
      have hblank := isBlankChar_of_endsWord (c := c) (by simpa using hends)
      rw [hword c hc] at hblank
      cases hblank
    rw [isExecutionControlSegment_eq, hstart, trimEndList_append,
      if_pos (List.all_eq_true.2 hblank), trimEndList_of_none hword,
      List.takeWhile_eq_self_iff.2 hkept]
    exact hcontrol
  · cases rest with
    | nil => cases hc
    | cons c' rest =>
      obtain rfl : c' = c := by simpa using hc
      rw [isExecutionControlSegment_word hword (control_ne_nil hcontrol) hends]
      exact hcontrol

/-- **Execution control.**  A command is classified by the first tokens of its segments, exactly
when no token is missed, or another one is caught. -/
theorem isExecutionControlCommand_iff (command : String) :
    (isExecutionControlCommand command = true ↔
        ∃ segment, Segment command segment ∧ Controls segment) ↔
      ((∃ segment, Segment command segment ∧ Missed segment) →
        ∃ segment, Segment command segment ∧ Caught segment) := by
  have hcaught : isExecutionControlCommand command = true ↔
      ∃ segment, Segment command segment ∧ Caught segment := by
    rw [isExecutionControlCommand, List.any_eq_true]
    constructor
    · rintro ⟨segment, hmem, hsegment⟩
      exact ⟨segment, piece_of_mem hmem, caught_of_control hsegment⟩
    · rintro ⟨segment, hmem, hsegment⟩
      exact ⟨segment, hmem.mem, control_of_caught hsegment⟩
  rw [hcaught]
  constructor
  · rintro h ⟨segment, hmem, hmissed⟩
    exact h.2 ⟨segment, hmem, (controls_iff segment).2 (.inr hmissed)⟩
  · intro h
    constructor
    · rintro ⟨segment, hmem, hsegment⟩
      exact ⟨segment, hmem, (controls_iff segment).2 (.inl hsegment)⟩
    · rintro ⟨segment, hmem, hsegment⟩
      rcases (controls_iff segment).1 hsegment with hsegment | hmissed
      · exact ⟨segment, hmem, hsegment⟩
      · exact h ⟨segment, hmem, hmissed⟩

/-- A command that resumes the target and one that prints, on two lines. -/
theorem twoLines_missed : ¬∀ command, isExecutionControlCommand command = true ↔
    ∃ segment, Segment command segment ∧ Controls segment := by
  intro hall
  have hmeant : isExecutionControlCommand "g\nk" = true := by
    refine (hall _).2 ⟨['g', '\n', 'k'], ⟨[], [], by simp, by simp, nofun, nofun⟩, ?_⟩
    refine ⟨['g'], ['\n', 'k'], ⟨⟨[], by decide, nofun⟩, by decide⟩, ?_⟩
    intro c hc
    obtain rfl : '\n' = c := by simpa using hc
    rfl
  have hread : isExecutionControlCommand "g\nk" = false := by decide
  rw [hread] at hmeant
  cases hmeant

end Text

end DapDbgeng
