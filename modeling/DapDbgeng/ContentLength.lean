/-
  Which header blocks announce a length.

  A header block should announce a length by a line whose value is a decimal number and nothing
  else.  The reader asks the C library for the number, which also takes a sign and stops at the
  first character that is no digit.

  * `First`: the first line with a property;
  * `LengthLine`: a line that announces a length as it should, `Stray`: one that the reader takes
    for such a line;
  * `parseContentLength_iff`: the header blocks that are read as they should be.
-/
import DapDbgeng.Framing

namespace DapDbgeng

namespace Wire

/-! ## The first line with a property -/

section

variable {α β : Type*} {R R' : α → β → Prop} {xs : List α} {n m : β}

/-- `n` is related to the first element that is related to anything. -/
def First (R : α → β → Prop) (xs : List α) (n : β) : Prop :=
  ∃ before x after, xs = before ++ x :: after ∧ R x n ∧ ∀ y ∈ before, ∀ m, ¬R y m

theorem first_cons_of_not {x : α} (h : ∀ m, ¬R x m) : First R (x :: xs) n ↔ First R xs n := by
  constructor
  · rintro ⟨before, y, after, heq, hy, hbefore⟩
    cases before with
    | nil =>
      obtain ⟨rfl, rfl⟩ := List.cons.inj heq
      exact absurd hy (h n)
    | cons z before =>
      obtain ⟨rfl, rfl⟩ := List.cons.inj heq
      exact ⟨before, y, after, rfl, hy, fun z hz => hbefore z (.tail _ hz)⟩
  · rintro ⟨before, y, after, rfl, hy, hbefore⟩
    exact ⟨x :: before, y, after, rfl, hy, List.forall_mem_cons.2 ⟨h, hbefore⟩⟩

theorem first_cons_of {x : α} (h : R x m) : First R (x :: xs) n ↔ R x n := by
  constructor
  · rintro ⟨before, y, after, heq, hy, hbefore⟩
    cases before with
    | nil =>
      obtain ⟨rfl, rfl⟩ := List.cons.inj heq
      exact hy
    | cons z before =>
      obtain ⟨rfl, rfl⟩ := List.cons.inj heq
      exact absurd h (hbefore x (.head _) m)
  · intro hn
    exact ⟨[], x, xs, rfl, hn, nofun⟩

theorem not_first_nil : ¬First R ([] : List α) n := by
  rintro ⟨before, x, after, heq, -⟩
  simp at heq

theorem First.unique (hR : ∀ x n m, R x n → R x m → n = m) (hn : First R xs n)
    (hm : First R xs m) : n = m := by
  induction xs with
  | nil => exact absurd hn not_first_nil
  | cons x xs ih =>
    by_cases hx : ∃ k, R x k
    · obtain ⟨k, hk⟩ := hx
      exact hR x n m ((first_cons_of hk).1 hn) ((first_cons_of hk).1 hm)
    · have hx : ∀ k, ¬R x k := not_exists.1 hx
      exact ih ((first_cons_of_not hx).1 hn) ((first_cons_of_not hx).1 hm)

/-- Some element is related to something, or none to anything. -/
theorem first_or_none (R : α → β → Prop) (xs : List α) :
    (∃ n, First R xs n) ∨ ∀ x ∈ xs, ∀ n, ¬R x n := by
  induction xs with
  | nil => exact .inr nofun
  | cons x xs ih =>
    by_cases hx : ∃ n, R x n
    · obtain ⟨n, hn⟩ := hx
      exact .inl ⟨n, (first_cons_of hn).2 hn⟩
    · have hx : ∀ n, ¬R x n := not_exists.1 hx
      refine ih.imp ?_ fun hxs => List.forall_mem_cons.2 ⟨hx, hxs⟩
      rintro ⟨n, hn⟩
      exact ⟨n, (first_cons_of_not hx).2 hn⟩

theorem First.mem (h : First R xs n) : ∃ x ∈ xs, R x n := by
  obtain ⟨before, x, after, rfl, hx, -⟩ := h
  exact ⟨x, List.mem_append_right _ (.head _), hx⟩

theorem First.or (h : First (fun x m => R x m ∨ R' x m) xs n) : First R xs n ∨ First R' xs n := by
  obtain ⟨before, x, after, rfl, hx, hbefore⟩ := h
  rcases hx with hx | hx
  · exact .inl ⟨before, x, after, rfl, hx, fun y hy m hm => hbefore y hy m (.inl hm)⟩
  · exact .inr ⟨before, x, after, rfl, hx, fun y hy m hm => hbefore y hy m (.inr hm)⟩

/-- What the first element of a larger relation is related to, when it has the smaller one. -/
theorem First.sub (hsub : ∀ x m, R x m → ∃ k, R' x k) (h : First R' xs n)
    (hn : ∀ x ∈ xs, R' x n → R x n) : First R xs n := by
  obtain ⟨before, x, after, rfl, hx, hbefore⟩ := h
  refine ⟨before, x, after, rfl, hn x (List.mem_append_right _ (.head _)) hx, fun y hy m hm => ?_⟩
  obtain ⟨k, hk⟩ := hsub y m hm
  exact hbefore y hy k hk

theorem findSome?_eq_some_iff_first {f : α → Option β} :
    xs.findSome? f = some n ↔ First (fun x n => f x = some n) xs n := by
  rw [List.findSome?_eq_some_iff]
  constructor
  · rintro ⟨before, x, after, rfl, hx, hbefore⟩
    refine ⟨before, x, after, rfl, hx, fun y hy m hm => ?_⟩
    have hm : f y = some m := hm
    rw [hbefore y hy] at hm
    cases hm
  · rintro ⟨before, x, after, rfl, hx, hbefore⟩
    refine ⟨before, x, after, rfl, hx, fun y hy => ?_⟩
    exact Option.eq_none_iff_forall_ne_some.2 (hbefore y hy)

end

/-! ## Lines -/

/-- A line named `content-length` and the value behind its colon, without the white space around
it. -/
def Named (line value : Bytes) : Prop :=
  ∃ name rest, line = name ++ rest ∧ name.map lowerByte = lengthPrefix ∧ trimBytes rest = value

/-- The line announces the length `n`: its value is a decimal number. -/
def LengthLine (line : Bytes) (n : ℕ) : Prop :=
  ∃ value, Named line value ∧ value ≠ [] ∧ (∀ b ∈ value, isDigitByte b = true) ∧
    digitsValue value = n

/-- The digits a text begins with, what follows them, and their value. -/
structure Leads (text digits rest : Bytes) (n : ℕ) : Prop where
  split : text = digits ++ rest
  some : digits ≠ []
  all : ∀ b ∈ digits, isDigitByte b = true
  ended : ∀ b ∈ rest.head?, isDigitByte b = false
  value : digitsValue digits = n

/-- The value begins with a number that is not negative. -/
def Opens (value : Bytes) (n : ℕ) : Prop :=
  ∃ sign text, value = sign ++ text ∧ (sign = [] ∨ sign = ascii "+" ∨ sign = ascii "-" ∧ n = 0) ∧
    ∃ digits rest, Leads text digits rest n

/-- The line is damaged: its value begins with the number `n` but is no decimal number. -/
def Stray (line : Bytes) (n : ℕ) : Prop :=
  n < 2 ^ 63 ∧ (∃ value, Named line value ∧ Opens value n) ∧ ∀ m, ¬LengthLine line m

/-- No damaged line and no number out of range comes in the way: the first length, of a damaged line
or not, is the one that the first line without damage announces. -/
def Legible (header : Bytes) : Prop :=
  (∀ line ∈ headerLines header, ∀ n, ¬(LengthLine line n ∨ Stray line n)) ∨
    ∃ n < 2 ^ 63, First (fun line n => LengthLine line n ∨ Stray line n) (headerLines header) n ∧
      First LengthLine (headerLines header) n

theorem named_unique {line value value' : Bytes} (h : Named line value) (h' : Named line value') :
    value = value' := by
  obtain ⟨name, rest, rfl, hname, rfl⟩ := h
  obtain ⟨name', rest', heq, hname', rfl⟩ := h'
  have hlength : name.length = name'.length := by
    have := congrArg List.length (hname.trans hname'.symm)
    simpa using this
  obtain ⟨-, rfl⟩ := List.append_inj heq hlength
  rfl

theorem named_iff (line value : Bytes) : Named line value ↔
    (line.take lengthPrefix.length).map lowerByte = lengthPrefix ∧
      trimBytes (line.drop lengthPrefix.length) = value := by
  constructor
  · rintro ⟨name, rest, rfl, hname, hvalue⟩
    have hlength : name.length = lengthPrefix.length := by
      rw [← hname, List.length_map]
    rw [List.take_left' hlength, List.drop_left' hlength]
    exact ⟨hname, hvalue⟩
  · rintro ⟨hname, hvalue⟩
    exact ⟨_, _, (List.take_append_drop lengthPrefix.length line).symm, hname, hvalue⟩

theorem lengthLine_unique (line : Bytes) (n m : ℕ) (hn : LengthLine line n)
    (hm : LengthLine line m) : n = m := by
  obtain ⟨value, hvalue, -, -, rfl⟩ := hn
  obtain ⟨value', hvalue', -, -, rfl⟩ := hm
  rw [named_unique hvalue hvalue']

/-! ## The number of the C library -/

theorem trimBytes_start (bs : Bytes) : (trimBytes bs).dropWhile isSpaceByte = trimBytes bs := by
  have hprefix : trimBytes bs <+: bs.dropWhile isSpaceByte := by
    have hsuffix := List.dropWhile_suffix (l := (bs.dropWhile isSpaceByte).reverse) isSpaceByte
    rw [← List.reverse_prefix, List.reverse_reverse] at hsuffix
    exact hsuffix
  cases htrim : trimBytes bs with
  | nil => rfl
  | cons b value =>
    rw [htrim] at hprefix
    obtain ⟨rest, hrest⟩ := hprefix
    have hb : isSpaceByte b = false := by
      have hne : bs.dropWhile isSpaceByte ≠ [] := by rw [← hrest]; simp
      have hhead := List.head_dropWhile_not isSpaceByte hne
      simpa [← hrest] using hhead
    rw [List.dropWhile_cons_of_neg (by simp [hb])]

/-- The range of the result. -/
def inRange (value : Int) : Option Int :=
  if -2 ^ 63 ≤ value ∧ value < 2 ^ 63 then some value else none

/-- The number behind the sign. -/
def magnitude (negative : Bool) (afterSign : Bytes) : Option Int :=
  let digits := afterSign.takeWhile isDigitByte
  if digits.isEmpty then none
  else inRange (if negative then -digitsValue digits else digitsValue digits)

theorem stoll_minus (rest : Bytes) : stoll (0x2D :: rest) = magnitude true rest := rfl

theorem stoll_plus (rest : Bytes) : stoll (0x2B :: rest) = magnitude false rest := rfl

theorem stoll_unsigned {value : Bytes} (hstart : value.dropWhile isSpaceByte = value)
    (hsign : ∀ b ∈ value.head?, b ≠ 0x2D ∧ b ≠ 0x2B) : stoll value = magnitude false value := by
  rw [stoll, hstart]
  split
  rename_i negative afterSign heq
  split at heq
  · exact absurd rfl (hsign _ rfl).1
  · exact absurd rfl (hsign _ rfl).2
  · obtain ⟨rfl, rfl⟩ := Prod.mk.inj heq
    rfl

theorem takeWhile_run {digits rest : Bytes} (hdigits : ∀ b ∈ digits, isDigitByte b = true)
    (hrest : ∀ b ∈ rest.head?, isDigitByte b = false) :
    (digits ++ rest).takeWhile isDigitByte = digits := by
  rw [List.takeWhile_append_of_pos hdigits]
  cases rest with
  | nil => simp
  | cons b rest =>
    have hb : isDigitByte b = false := hrest b rfl
    rw [List.takeWhile_cons_of_neg (by simp [hb]), List.append_nil]

theorem head?_dropWhile (value : Bytes) :
    ∀ b ∈ (value.dropWhile isDigitByte).head?, isDigitByte b = false := by
  intro b hb
  have hnot := List.head?_dropWhile_not isDigitByte value
  rw [Option.mem_def.1 hb] at hnot
  simpa using hnot

theorem inRange_eq_some {value parsed : Int} :
    inRange value = some parsed ↔ value = parsed ∧ -2 ^ 63 ≤ value ∧ value < 2 ^ 63 := by
  rw [inRange]
  split
  · rename_i h
    rw [Option.some.injEq]
    exact ⟨fun hp => ⟨hp, h⟩, fun hp => hp.1⟩
  · rename_i h
    exact ⟨nofun, fun hp => absurd hp.2 h⟩

theorem magnitude_iff (negative : Bool) (text : Bytes) (n : ℕ) :
    magnitude negative text = some (n : Int) ↔
      n < 2 ^ 63 ∧ (negative = true → n = 0) ∧ ∃ digits rest, Leads text digits rest n := by
  constructor
  · intro h
    simp only [magnitude, List.isEmpty_iff] at h
    split at h
    · cases h
    · rename_i hne
      obtain ⟨hvalue, -, hlt⟩ := inRange_eq_some.1 h
      have hleads := Leads.mk (List.takeWhile_append_dropWhile (p := isDigitByte)).symm hne
        (fun b hb => List.mem_takeWhile_imp hb) (head?_dropWhile text) rfl
      generalize digitsValue (text.takeWhile isDigitByte) = m at hvalue hlt hleads
      cases negative with
      | false =>
        have hmn : (m : Int) = n := hvalue
        obtain rfl : m = n := by omega
        have hlt : (m : Int) < 2 ^ 63 := hlt
        exact ⟨by omega, nofun, _, _, hleads⟩
      | true =>
        have hmn : -(m : Int) = n := hvalue
        have hzero : n = 0 := by omega
        obtain rfl : m = n := by omega
        exact ⟨by omega, fun _ => hzero, _, _, hleads⟩
  · rintro ⟨hfit, hzero, digits, rest, h⟩
    have hne : ¬digits.isEmpty = true := by simpa using h.some
    rw [h.split, magnitude, takeWhile_run h.all h.ended]
    simp only [if_neg hne, h.value]
    refine inRange_eq_some.2 ?_
    cases negative with
    | false =>
      rw [if_neg Bool.false_ne_true]
      exact ⟨rfl, by omega, by omega⟩
    | true =>
      have hn := hzero rfl
      subst hn
      exact ⟨rfl, by decide, by decide⟩

theorem leads_head {text digits rest : Bytes} {n : ℕ} (h : Leads text digits rest n) :
    ∀ b ∈ text.head?, b ≠ 0x2D ∧ b ≠ 0x2B := by
  obtain ⟨d, digits, rfl⟩ := List.exists_cons_of_ne_nil h.some
  intro b hb
  rw [h.split, List.cons_append, List.head?_cons, Option.mem_some_iff] at hb
  subst hb
  have hd := h.all d (.head _)
  constructor
  · rintro rfl
    cases hd
  · rintro rfl
    cases hd

/-- A number that is not negative is read where the text begins with one that is in range. -/
theorem stoll_iff {value : Bytes} (hstart : value.dropWhile isSpaceByte = value) (n : ℕ) :
    stoll value = some (n : Int) ↔ n < 2 ^ 63 ∧ Opens value n := by
  constructor
  · intro h
    by_cases hsign : ∀ b ∈ value.head?, b ≠ 0x2D ∧ b ≠ 0x2B
    · rw [stoll_unsigned hstart hsign, magnitude_iff] at h
      exact ⟨h.1, [], value, rfl, .inl rfl, h.2.2⟩
    · cases value with
      | nil => exact absurd nofun hsign
      | cons b text =>
        by_cases hplus : b = 0x2B
        · subst hplus
          rw [stoll_plus, magnitude_iff] at h
          exact ⟨h.1, _, text, rfl, .inr (.inl rfl), h.2.2⟩
        · by_cases hminus : b = 0x2D
          · subst hminus
            rw [stoll_minus, magnitude_iff] at h
            exact ⟨h.1, _, text, rfl, .inr (.inr ⟨rfl, h.2.1 rfl⟩), h.2.2⟩
          · refine absurd (fun b' hb' => ?_) hsign
            rw [List.head?_cons, Option.mem_some_iff] at hb'
            subst hb'
            exact ⟨hminus, hplus⟩
  · rintro ⟨hfit, sign, text, rfl, hsign, digits, rest, h⟩
    rcases hsign with rfl | rfl | ⟨rfl, hzero⟩
    · rw [List.nil_append] at hstart ⊢
      rw [stoll_unsigned hstart (leads_head h), magnitude_iff]
      exact ⟨hfit, nofun, digits, rest, h⟩
    · exact (stoll_plus text).trans ((magnitude_iff _ _ _).2 ⟨hfit, nofun, digits, rest, h⟩)
    · exact (stoll_minus text).trans
        ((magnitude_iff _ _ _).2 ⟨hfit, fun _ => hzero, digits, rest, h⟩)

/-! ## What the reader takes -/

/-- The reader takes a line whose value begins with a number in range. -/
theorem announced_iff (line : Bytes) (n : ℕ) :
    announced line = some n ↔ n < 2 ^ 63 ∧ ∃ value, Named line value ∧ Opens value n := by
  have hread : announced line = some n ↔
      ∃ value, Named line value ∧ stoll value = some (n : Int) := by
    rw [announced]
    constructor
    · intro h
      split at h
      · rename_i hname
        refine ⟨_, (named_iff _ _).2 ⟨hname, rfl⟩, ?_⟩
        split at h
        · rename_i parsed hparsed
          split at h
          · obtain rfl := Option.some.inj h
            rw [hparsed, Option.some.injEq]
            omega
          · cases h
        · cases h
      · cases h
    · rintro ⟨value, hvalue, hparsed⟩
      obtain ⟨hname, rfl⟩ := (named_iff _ _).1 hvalue
      rw [if_pos hname, hparsed]
      simp
  rw [hread]
  constructor
  · rintro ⟨value, hvalue, hparsed⟩
    have hstart : value.dropWhile isSpaceByte = value := by
      obtain ⟨_, rest, -, -, rfl⟩ := hvalue
      exact trimBytes_start rest
    obtain ⟨hfit, hopens⟩ := (stoll_iff hstart n).1 hparsed
    exact ⟨hfit, value, hvalue, hopens⟩
  · rintro ⟨hfit, value, hvalue, hopens⟩
    have hstart : value.dropWhile isSpaceByte = value := by
      obtain ⟨_, rest, -, -, rfl⟩ := hvalue
      exact trimBytes_start rest
    exact ⟨value, hvalue, (stoll_iff hstart n).2 ⟨hfit, hopens⟩⟩

/-- A decimal number begins with itself only. -/
theorem opens_iff_of_digits {value : Bytes} (hne : value ≠ [])
    (hdigits : ∀ b ∈ value, isDigitByte b = true) (n : ℕ) :
    Opens value n ↔ digitsValue value = n := by
  constructor
  · rintro ⟨sign, text, rfl, hsign, digits, rest, h⟩
    obtain rfl : sign = [] := by
      rcases hsign with rfl | rfl | ⟨rfl, -⟩
      · rfl
      · have hplus := hdigits 0x2B (.head _)
        cases hplus
      · have hminus := hdigits 0x2D (.head _)
        cases hminus
    have htext : text = digits ++ rest := h.split
    subst htext
    cases rest with
    | nil =>
      rw [List.append_nil, List.nil_append]
      exact h.value
    | cons b rest =>
      have hb := hdigits b (by simp)
      rw [h.ended b rfl] at hb
      cases hb
  · intro hn
    refine ⟨[], value, rfl, .inl rfl, value, [], ?_⟩
    exact ⟨(List.append_nil value).symm, hne, hdigits, nofun, hn⟩

theorem LengthLine.opens {line : Bytes} {n : ℕ} (h : LengthLine line n) :
    ∃ value, Named line value ∧ Opens value n := by
  obtain ⟨value, hvalue, hne, hdigits, hn⟩ := h
  exact ⟨value, hvalue, (opens_iff_of_digits hne hdigits n).2 hn⟩

theorem announced_of_numbered {line : Bytes} {n : ℕ} (hfit : n < 2 ^ 63)
    (h : LengthLine line n ∨ Stray line n) : announced line = some n := by
  rw [announced_iff]
  rcases h with h | h
  · exact ⟨hfit, h.opens⟩
  · exact ⟨hfit, h.2.1⟩

theorem numbered_of_announced {line : Bytes} {n : ℕ} (h : announced line = some n) :
    LengthLine line n ∨ Stray line n := by
  obtain ⟨hfit, value, hvalue, hopens⟩ := (announced_iff line n).1 h
  by_cases hlength : ∃ m, LengthLine line m
  · obtain ⟨m, value', hvalue', hne, hdigits, -⟩ := hlength
    obtain rfl := named_unique hvalue hvalue'
    exact .inl ⟨value, hvalue, hne, hdigits, (opens_iff_of_digits hne hdigits n).1 hopens⟩
  · exact .inr ⟨hfit, ⟨value, hvalue, hopens⟩, not_exists.1 hlength⟩

theorem parseContentLength_eq_ok (header : Bytes) (n : ℕ) : parseContentLength header = .ok n ↔
    First (fun line n => announced line = some n) (headerLines header) n := by
  rw [← findSome?_eq_some_iff_first, parseContentLength]
  split
  · rename_i m hm
    rw [hm, Except.ok.injEq, Option.some.injEq]
  · rename_i hnone
    rw [hnone]
    constructor
    · intro h
      cases h
    · intro h
      cases h

/-- **Announced lengths.**  The reader finds the length that the first line without damage
announces, and none where there is no such line, exactly when no damaged line and no number out of
range comes in the way. -/
theorem parseContentLength_iff (header : Bytes) :
    (∀ n, parseContentLength header = .ok n ↔ First LengthLine (headerLines header) n) ↔
      Legible header := by
  constructor
  · intro hmeant
    rcases first_or_none (fun line n => LengthLine line n ∨ Stray line n) (headerLines header) with
      ⟨n, hfirst⟩ | hnone
    · refine .inr ?_
      rcases hfirst.or with hlength | hstray
      · obtain ⟨line, -, hline⟩ := ((parseContentLength_eq_ok _ _).1 ((hmeant n).2 hlength)).mem
        exact ⟨n, ((announced_iff line n).1 hline).1, hfirst, hlength⟩
      · obtain ⟨line, -, hfit, -⟩ := hstray.mem
        have hread : parseContentLength header = .ok n := by
          rw [parseContentLength_eq_ok]
          exact hfirst.sub (fun _ m hm => ⟨m, numbered_of_announced hm⟩)
            fun _ _ hline => announced_of_numbered hfit hline
        exact ⟨n, hfit, hfirst, (hmeant n).1 hread⟩
    · exact .inl hnone
  · rintro (hnone | ⟨n, hfit, hfirst, hlength⟩) m
    · constructor
      · intro hread
        obtain ⟨line, hmem, hline⟩ := ((parseContentLength_eq_ok _ _).1 hread).mem
        exact absurd (numbered_of_announced hline) (hnone line hmem m)
      · intro hmeant
        obtain ⟨line, hmem, hline⟩ := hmeant.mem
        exact absurd (.inl hline) (hnone line hmem m)
    · have hread : parseContentLength header = .ok n := by
        rw [parseContentLength_eq_ok]
        exact hfirst.sub (fun _ m hm => ⟨m, numbered_of_announced hm⟩)
          fun _ _ hline => announced_of_numbered hfit hline
      constructor
      · intro h
        obtain rfl : n = m := Except.ok.inj (hread.symm.trans h)
        exact hlength
      · intro h
        rw [hlength.unique lengthLine_unique h] at hread
        exact hread

/-- A length with other text behind it. -/
def damagedHeader : Bytes := ascii "Content-Length: 12abc\r\n\r\n"

theorem damagedHeader_read : ¬∀ header n, parseContentLength header = .ok n ↔
    First LengthLine (headerLines header) n := by
  intro hall
  have hread : parseContentLength damagedHeader = .ok 12 := by decide
  obtain ⟨line, hmem, value, hvalue, -, hdigits, -⟩ := ((hall _ _).1 hread).mem
  obtain ⟨hname, rfl⟩ := (named_iff _ _).1 hvalue
  have hdamaged : (headerLines damagedHeader).all (fun line =>
      !((line.take lengthPrefix.length).map lowerByte == lengthPrefix &&
        (trimBytes (line.drop lengthPrefix.length)).all isDigitByte)) = true := by
    decide
  have hline := List.all_eq_true.1 hdamaged line hmem
  rw [hname, List.all_eq_true.2 hdigits] at hline
  cases hline

end Wire

end DapDbgeng
