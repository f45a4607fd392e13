/-
  How a command line is split into arguments.

  Arguments are separated by blanks.  A run of backslashes before a quote stands for half as many,
  and the quote toggles quoting, unless the run is odd: then the quote is part of the argument.
  Any other backslash stands for itself.  The program in front is read without backslashes.

  * `splitLoop`: the reader, with the run of backslashes that it has not yet given a meaning;
  * `Holds n argument text`: the reader is inside an argument that has been `text` so far;
  * `splitLoop_bare`: what has neither blanks nor quotes is read as it is;
  * `argumentVector_program`: a command line that starts with a program token.
-/
import Mathlib.Data.List.Basic

namespace ArgumentVectors

def isBlank (c : Char) : Bool := c = ' ' ∨ c = '\t'

/-- The argument once its pending backslashes are known to be literal; nothing between arguments. -/
def flush (n : Nat) (argument : Option (List Char)) : Option (List Char) :=
  if n = 0 then argument else some (argument.getD [] ++ List.replicate n '\\')

/-- The arguments of a command line, read from inside one, in or out of quotes, with `n` pending
backslashes, or from between two. -/
def splitLoop (quoted : Bool) (n : Nat) (argument : Option (List Char)) :
    List Char → List (List Char)
  | [] => (flush n argument).toList
  | c :: cs =>
    if c = '\\' then splitLoop quoted (n + 1) argument cs
    else if c = '"' then
      let read := argument.getD [] ++ List.replicate (n / 2) '\\'
      if n % 2 = 0 then splitLoop (!quoted) 0 (some read) cs
      else splitLoop quoted 0 (some (read ++ ['"'])) cs
    else if isBlank c && !quoted then (flush n argument).toList ++ splitLoop quoted 0 none cs
    else splitLoop quoted 0 (some (argument.getD [] ++ List.replicate n '\\' ++ [c])) cs

/-- The program and what follows it: up to the next quote, if it starts with one, else up to a
blank. -/
def splitProgram : List Char → List Char × List Char
  | '"' :: cs => (cs.takeWhile (· ≠ '"'), (cs.dropWhile (· ≠ '"')).drop 1)
  | cs => (cs.takeWhile fun c => !isBlank c, cs.dropWhile fun c => !isBlank c)

/-- The program and the arguments. -/
def argumentVector (cs : List Char) : List (List Char) :=
  (splitProgram cs).1 :: splitLoop false 0 none (splitProgram cs).2

/-! ## Inside an argument -/

/-- The text of an argument, its pending backslashes taken literally. -/
def held (n : Nat) (argument : Option (List Char)) : List Char :=
  argument.getD [] ++ List.replicate n '\\'

/-- The reader is inside an argument that is `text` so far. -/
def Inside (n : Nat) (argument : Option (List Char)) (text : List Char) : Prop :=
  (n ≠ 0 ∨ argument ≠ none) ∧ held n argument = text

theorem Inside.flush {n : Nat} {argument : Option (List Char)} {text : List Char}
    (h : Inside n argument text) : flush n argument = some text := by
  obtain ⟨hinside, rfl⟩ := h
  rw [ArgumentVectors.flush, held]
  split
  · rename_i hn
    obtain ⟨read, rfl⟩ := Option.ne_none_iff_exists'.1 (hinside.resolve_left (not_not_intro hn))
    rw [hn, List.replicate_zero, List.append_nil, Option.getD_some]
  · rfl

/-- A line end ends the argument. -/
theorem Inside.line_end {n : Nat} {argument : Option (List Char)} {text : List Char}
    (h : Inside n argument text) (quoted : Bool) : splitLoop quoted n argument [] = [text] := by
  rw [splitLoop, h.flush]
  rfl

/-- A space ends the argument. -/
theorem Inside.space {n : Nat} {argument : Option (List Char)} {text : List Char}
    (h : Inside n argument text) (cs : List Char) :
    splitLoop false n argument (' ' :: cs) = text :: splitLoop false 0 none cs := by
  rw [splitLoop, if_neg (by decide), if_neg (by decide), if_pos (by decide), h.flush]
  rfl

theorem splitLoop_backslashes (quoted : Bool) (argument : Option (List Char)) (k n : Nat)
    (cs : List Char) : splitLoop quoted n argument (List.replicate k '\\' ++ cs) =
      splitLoop quoted (n + k) argument cs := by
  induction k generalizing n with
  | zero => rfl
  | succ k ih =>
    rw [List.replicate_succ, List.cons_append, splitLoop, if_pos rfl, ih, Nat.add_assoc,
      Nat.add_comm 1 k]

/-- A run of `2 * k` backslashes and a quote: `k` backslashes, and quoting is toggled. -/
theorem splitLoop_toggle (quoted : Bool) (text : List Char) (k : Nat) (cs : List Char) :
    splitLoop quoted 0 (some text) (List.replicate (k * 2) '\\' ++ '"' :: cs) =
      splitLoop (!quoted) 0 (some (text ++ List.replicate k '\\')) cs := by
  rw [splitLoop_backslashes, splitLoop, if_neg (by decide), if_pos rfl, Nat.zero_add,
    Nat.mul_div_cancel k (by omega), if_pos (Nat.mul_mod_left k 2)]
  rfl

/-- A run of `2 * k + 1` backslashes and a quote: `k` backslashes and the quote. -/
theorem splitLoop_literal (quoted : Bool) (text : List Char) (k : Nat) (cs : List Char) :
    splitLoop quoted 0 (some text) (List.replicate (k * 2 + 1) '\\' ++ '"' :: cs) =
      splitLoop quoted 0 (some (text ++ List.replicate k '\\' ++ ['"'])) cs := by
  have hhalf : (k * 2 + 1) / 2 = k := by omega
  rw [splitLoop_backslashes, splitLoop, if_neg (by decide), if_pos rfl, Nat.zero_add, hhalf,
    if_neg (by omega)]
  rfl

/-- A run of backslashes before anything else is literal. -/
theorem splitLoop_quoted {c : Char} (hslash : c ≠ '\\') (hquote : c ≠ '"') (text : List Char)
    (k : Nat) (cs : List Char) :
    splitLoop true 0 (some text) (List.replicate k '\\' ++ c :: cs) =
      splitLoop true 0 (some (text ++ List.replicate k '\\' ++ [c])) cs := by
  rw [splitLoop_backslashes, splitLoop, if_neg hslash, if_neg hquote, Nat.zero_add,
    if_neg (by simp)]
  rfl

/-! ## Tokens -/

/-- Text without blanks and quotes. -/
def Bare (token : List Char) : Prop := ∀ c ∈ token, isBlank c = false ∧ c ≠ '"'

theorem splitLoop_bare_cons {c : Char} (hblank : isBlank c = false) (hquote : c ≠ '"') (n : Nat)
    (argument : Option (List Char)) : ∃ n' argument',
      (∀ cs, splitLoop false n argument (c :: cs) = splitLoop false n' argument' cs) ∧
        Inside n' argument' (held n argument ++ [c]) := by
  by_cases hslash : c = '\\'
  · refine ⟨n + 1, argument, fun cs => ?_, .inl (by omega), ?_⟩
    · rw [splitLoop, if_pos hslash]
    · rw [held, held, List.append_assoc, hslash, ← List.replicate_succ']
  · refine ⟨0, some (held n argument ++ [c]), fun cs => ?_, .inr (by simp), ?_⟩
    · rw [splitLoop, if_neg hslash, if_neg hquote, hblank]
      rfl
    · simp [held]

theorem Inside.bare {n : Nat} {argument : Option (List Char)} {text token : List Char}
    (h : Inside n argument text) (ht : Bare token) : ∃ n' argument',
      (∀ rest, splitLoop false n argument (token ++ rest) = splitLoop false n' argument' rest) ∧
        Inside n' argument' (text ++ token) := by
  induction token generalizing n argument text with
  | nil => exact ⟨n, argument, fun _ => rfl, by rwa [List.append_nil]⟩
  | cons c token ih =>
    obtain ⟨hblank, hquote⟩ := ht c List.mem_cons_self
    obtain ⟨n₁, argument₁, hhead, hin⟩ := splitLoop_bare_cons hblank hquote n argument
    obtain ⟨n₂, argument₂, htail, hin'⟩ := ih hin fun d hd => ht d (List.mem_cons_of_mem c hd)
    refine ⟨n₂, argument₂, fun rest => ?_, ?_⟩
    · rw [List.cons_append, hhead, htail]
    · rwa [h.2, List.append_assoc] at hin'

/-- Between arguments, the token is read as the argument `text`, which is not over yet. -/
def Reads (token text : List Char) : Prop :=
  ∃ n argument, (∀ rest, splitLoop false 0 none (token ++ rest) = splitLoop false n argument rest) ∧
    Inside n argument text

/-- **Bare tokens.**  Without blanks and quotes, what is read is what is written. -/
theorem Bare.reads {token : List Char} (h : Bare token) (hne : token ≠ []) : Reads token token := by
  cases token with
  | nil => exact (hne rfl).elim
  | cons c token =>
    obtain ⟨hblank, hquote⟩ := h c List.mem_cons_self
    obtain ⟨n, argument, hhead, hin⟩ := splitLoop_bare_cons hblank hquote 0 none
    obtain ⟨n', argument', htail, hin'⟩ := hin.bare fun d hd => h d (List.mem_cons_of_mem c hd)
    exact ⟨n', argument', fun rest => by rw [List.cons_append, hhead, htail], hin'⟩

/-- A quote in front opens a quoted token. -/
theorem splitLoop_open (cs : List Char) :
    splitLoop false 0 none ('"' :: cs) = splitLoop true 0 (some []) cs := rfl

/-- **Joining.**  Tokens joined by spaces are read as their arguments. -/
theorem splitLoop_join {tokens texts : List (List Char)} (h : List.Forall₂ Reads tokens texts) :
    splitLoop false 0 none ([' '].intercalate tokens) = texts := by
  induction h with
  | nil => rfl
  | @cons token text tokens texts hread hreads ih =>
    obtain ⟨n, argument, hstep, hin⟩ := hread
    cases tokens with
    | nil =>
      cases hreads
      have hlast := hstep []
      rw [List.append_nil] at hlast
      rw [List.intercalate_singleton, hlast, hin.line_end]
    | cons token' tokens =>
      rw [List.intercalate_cons_cons, List.append_assoc, hstep, List.singleton_append, hin.space,
        ih]

/-! ## The program -/

/-- The token of a program: its name in quotes, or the name itself. -/
def ProgramToken (token name : List Char) : Prop :=
  token = '"' :: name ++ ['"'] ∧ '"' ∉ name ∨
    token = name ∧ name ≠ [] ∧ name.head? ≠ some '"' ∧ ∀ c ∈ name, isBlank c = false

theorem splitProgram_token {token name : List Char} (h : ProgramToken token name)
    (cs : List Char) : splitProgram (token ++ ' ' :: cs) = (name, ' ' :: cs) := by
  rcases h with ⟨rfl, hquote⟩ | ⟨rfl, hne, hhead, hblank⟩
  · have hall : ∀ c ∈ name, decide (c ≠ '"') = true :=
      fun c hc => decide_eq_true fun h => hquote (h ▸ hc)
    have htoken : '"' :: name ++ ['"'] ++ ' ' :: cs = '"' :: (name ++ '"' :: ' ' :: cs) := by simp
    rw [htoken, splitProgram, List.takeWhile_append_of_pos hall, List.dropWhile_append_of_pos hall]
    simp
  · have hall : ∀ c ∈ token, (!isBlank c) = true := fun c hc => by rw [hblank c hc]; rfl
    have hspace : isBlank ' ' = true := rfl
    rw [splitProgram.eq_2]
    · rw [List.takeWhile_append_of_pos hall, List.dropWhile_append_of_pos hall]
      simp [hspace]
    · rintro rest hrest
      cases token with
      | nil => exact hne rfl
      | cons c token =>
        cases hrest
        exact hhead rfl

/-- A program token, a space and the arguments. -/
theorem argumentVector_program {token name : List Char} (h : ProgramToken token name)
    (cs : List Char) :
    argumentVector (token ++ ' ' :: cs) = name :: splitLoop false 0 none cs := by
  rw [argumentVector, splitProgram_token h]
  rfl

end ArgumentVectors
