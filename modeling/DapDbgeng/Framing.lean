/-
  Framed messages: the reader takes off the wire what the writer puts on it.

  A frame is a header block that announces the length of the body, and the body.  The reader scans
  the header a byte at a time and collects the body in as many reads as the stream makes of it.
  The JSON library is a parameter: how a message is printed and parsed.

  * `frameMessage`: the frame of a message, `readMessage`: one call of the reader;
  * `Takes`: what successive calls return and where they leave the stream;
  * `frames_read_back`: the messages come back in order, and a stream that ends inside a frame is
    refused.
-/
import DapDbgeng.Values
import Mathlib.Data.List.Forall2
import Mathlib.Data.List.TakeWhile
import Mathlib.Tactic.Push

namespace DapDbgeng

namespace Wire

/-! ## The header block -/

def lowerByte (b : UInt8) : UInt8 := if 0x41 ≤ b ∧ b ≤ 0x5A then b + 0x20 else b

def isSpaceByte (b : UInt8) : Bool := b = 0x20 || (0x09 ≤ b && b ≤ 0x0D)

def isDigitByte (b : UInt8) : Bool := 0x30 ≤ b && b ≤ 0x39

def trimBytes (bs : Bytes) : Bytes :=
  ((bs.dropWhile isSpaceByte).reverse.dropWhile isSpaceByte).reverse

def digitsValue (bs : Bytes) : ℕ := bs.foldl (fun n b => 10 * n + (b.toNat - 0x30)) 0

/-- `std::stoll`: white space, a sign and the longest run of digits.  No digit and a number out of
range are exceptions. -/
def stoll (bs : Bytes) : Option Int :=
  let afterSpace := bs.dropWhile isSpaceByte
  let (negative, afterSign) :=
    match afterSpace with
    | 0x2D :: rest => (true, rest)
    | 0x2B :: rest => (false, rest)
    | rest => (false, rest)
  let digits := afterSign.takeWhile isDigitByte
  if digits.isEmpty then none
  else
    let value : Int := if negative then -digitsValue digits else digitsValue digits
    if -2 ^ 63 ≤ value ∧ value < 2 ^ 63 then some value else none

/-- The lines of a header block. -/
def headerLines : Bytes → List Bytes
  | [] => [[]]
  | 0x0D :: 0x0A :: rest => [] :: headerLines rest
  | b :: rest =>
    match headerLines rest with
    | [] => [[b]]
    | line :: lines => (b :: line) :: lines

def lengthPrefix : Bytes := ascii "content-length:"

/-- The length a line announces; a line with another name, without a number or with a negative one
announces nothing. -/
def announced (line : Bytes) : Option ℕ :=
  if (line.take lengthPrefix.length).map lowerByte = lengthPrefix then
    match stoll (trimBytes (line.drop lengthPrefix.length)) with
    | some parsed => if 0 ≤ parsed then some parsed.toNat else none
    | none => none
  else none

def parseContentLength (header : Bytes) : Except String ℕ :=
  match (headerLines header).findSome? announced with
  | some n => .ok n
  | none => .error "Missing Content-Length header."

/-! ## Reading -/

/-- The input.  A read that asks for many bytes gets one run of them: `runs` are the lengths the
stream still makes of them, and after these it gives all it has. -/
structure InStream where
  rest : Bytes
  runs : List ℕ := []

/-- `in_.read` for `need` bytes: nothing only at the end of the stream. -/
def InStream.read (s : InStream) (need : ℕ) : Bytes × InStream :=
  match s.runs with
  | [] => (s.rest.take need, { rest := s.rest.drop need })
  | run :: runs =>
    let count := min need (run + 1)
    (s.rest.take count, { rest := s.rest.drop count, runs })

def blankLine : Bytes := ascii "\r\n\r\n"

/-- The header block up to its blank line, read behind `header`, and what follows it; nothing at
the end of the stream between two messages. -/
def readHeader (header : Bytes) : Bytes → Except String (Option (Bytes × Bytes))
  | [] =>
    if header.isEmpty then .ok none
    else .error "Unexpected end of stream while reading DAP headers."
  | next :: rest =>
    let header := header ++ [next]
    if blankLine.isSuffixOf header then .ok (some (header, rest)) else readHeader header rest

/-- Fill the body until nothing is missing any more. -/
def readBody (need : ℕ) (body : Bytes) (s : InStream) : Except String (Bytes × InStream) :=
  if need = 0 then .ok (body, s)
  else
    if _h : (s.read need).1.length = 0 then
      .error "Unexpected end of stream while reading a DAP payload."
    else readBody (need - (s.read need).1.length) (body ++ (s.read need).1) (s.read need).2
termination_by need
decreasing_by omega

/-- The JSON library: messages as texts. -/
structure JsonLibrary (μ : Type) where
  dump : μ → Except String Bytes
  parse : Bytes → Except String μ

variable {μ : Type} (json : JsonLibrary μ)

/-- A frame around a body. -/
def frame (body : Bytes) : Bytes :=
  ascii ("Content-Length: " ++ toString body.length ++ "\r\n\r\n") ++ body

/-- `frame_message`. -/
def JsonLibrary.frameMessage (message : μ) : Except String Bytes := do
  let body ← json.dump message
  return frame body

/-- `read_message`. -/
def JsonLibrary.readMessage (s : InStream) : Except String (Option μ × InStream) :=
  match readHeader [] s.rest with
  | .error e => .error e
  | .ok none => .ok (none, s)
  | .ok (some (header, rest)) => do
    let contentLength ← parseContentLength header
    let (body, s) ← readBody contentLength [] { s with rest }
    let message ← json.parse body
    return (some message, s)

/-- The next messages and the stream behind them. -/
inductive JsonLibrary.Takes : InStream → List μ → InStream → Prop
  | none (s : InStream) : Takes s [] s
  | next {s s' s'' : InStream} {m : μ} {ms : List μ} :
      json.readMessage s = .ok (some m, s') → Takes s' ms s'' → Takes s (m :: ms) s''

/-! ## The length survives the header -/

theorem ascii_append (s t : String) : ascii (s ++ t) = ascii s ++ ascii t := by
  simp [ascii]

theorem ascii_toString (n : ℕ) :
    ascii (toString n) = (Nat.toDigits 10 n).map fun c => UInt8.ofNat c.toNat := by
  simp [ascii]

theorem isDigitByte_iff (b : UInt8) : isDigitByte b = true ↔ 48 ≤ b.toNat ∧ b.toNat ≤ 57 := by
  simp [isDigitByte, UInt8.le_iff_toNat_le]

/-- A decimal digit as a byte. -/
theorem digit_byte {c : Char} (h : c.isDigit = true) :
    (UInt8.ofNat c.toNat).toNat = c.toNat ∧ isDigitByte (UInt8.ofNat c.toNat) = true := by
  have hc : 48 ≤ c.toNat ∧ c.toNat ≤ 57 := Char.isDigit_iff_toNat.1 h
  have hb : (UInt8.ofNat c.toNat).toNat = c.toNat := by
    rw [UInt8.toNat_ofNat']
    omega
  exact ⟨hb, (isDigitByte_iff _).2 (by rwa [hb])⟩

theorem digits_all (n : ℕ) : ∀ b ∈ ascii (toString n), isDigitByte b = true := by
  intro b hb
  rw [ascii_toString, List.mem_map] at hb
  obtain ⟨c, hc, rfl⟩ := hb
  exact (digit_byte (Nat.isDigit_of_mem_toDigits (by decide) (by decide) hc)).2

theorem digits_ne_nil (n : ℕ) : ascii (toString n) ≠ [] := by
  rw [ascii_toString]
  simp [Nat.toDigits_ne_nil]

/-- The digits of a number have its value. -/
theorem digitsValue_digits (n : ℕ) : digitsValue (ascii (toString n)) = n := by
  have hfold (cs : List Char) (hcs : ∀ c ∈ cs, c.isDigit = true) (init : ℕ) :
      (cs.map fun c => UInt8.ofNat c.toNat).foldl (fun n b => 10 * n + (b.toNat - 0x30)) init =
        Nat.ofDigitChars 10 cs init := by
    induction cs generalizing init with
    | nil => simp
    | cons c cs ih =>
      obtain ⟨hc, hcs⟩ := List.forall_mem_cons.1 hcs
      rw [List.map_cons, List.foldl_cons, ih hcs, Nat.ofDigitChars_cons, (digit_byte hc).1]
      rfl
  rw [digitsValue, ascii_toString, hfold _ fun c hc =>
    Nat.isDigit_of_mem_toDigits (by decide) (by decide) hc]
  exact Nat.ofDigitChars_ten_toDigits

theorem not_space_of_digit {b : UInt8} (h : isDigitByte b = true) : isSpaceByte b = false := by
  rw [isDigitByte_iff] at h
  simp [isSpaceByte, ← UInt8.toNat_inj, UInt8.le_iff_toNat_le]
  omega

theorem dropWhile_digits {bs : Bytes} (h : ∀ b ∈ bs, isDigitByte b = true) :
    bs.dropWhile isSpaceByte = bs := by
  cases bs with
  | nil => rfl
  | cons b bs => simp [not_space_of_digit (h b List.mem_cons_self)]

theorem takeWhile_digits {bs rest : Bytes} (h : ∀ b ∈ bs, isDigitByte b = true)
    (hrest : ∀ b ∈ rest.head?, isDigitByte b = false) :
    (bs ++ rest).takeWhile isDigitByte = bs := by
  have hnone : rest.takeWhile isDigitByte = [] := by
    cases rest with
    | nil => rfl
    | cons b rest => exact List.takeWhile_cons_of_neg (by simp [hrest b rfl])
  rw [List.takeWhile_append_of_pos h, hnone, List.append_nil]

/-- A blank and digits are trimmed to the digits. -/
theorem trimBytes_digits {bs : Bytes} (h : ∀ b ∈ bs, isDigitByte b = true) :
    trimBytes (0x20 :: bs) = bs := by
  have hfront : (0x20 :: bs).dropWhile isSpaceByte = bs := by
    rw [List.dropWhile_cons_of_pos (by decide), dropWhile_digits h]
  rw [trimBytes, hfront, dropWhile_digits fun b hb => h b (List.mem_reverse.1 hb),
    List.reverse_reverse]

/-- A number ends with its digits, whatever follows them. -/
theorem stoll_digits {bs rest : Bytes} (h : ∀ b ∈ bs, isDigitByte b = true) (hne : bs ≠ [])
    (hrest : ∀ b ∈ rest.head?, isDigitByte b = false) (hfit : digitsValue bs < 2 ^ 63) :
    stoll (bs ++ rest) = some (digitsValue bs) := by
  obtain ⟨b, bs, rfl⟩ := List.exists_cons_of_ne_nil hne
  have hb := h b List.mem_cons_self
  have hminus : b ≠ 0x2D := by rintro rfl; cases hb
  have hplus : b ≠ 0x2B := by rintro rfl; cases hb
  have hspace : (b :: bs ++ rest).dropWhile isSpaceByte = b :: bs ++ rest :=
    List.dropWhile_cons_of_neg (by simp [not_space_of_digit hb])
  rw [stoll, hspace]
  split
  rename_i negative afterSign hsign
  split at hsign
  · rename_i heq
    exact absurd (List.cons.inj heq).1 hminus
  · rename_i heq
    exact absurd (List.cons.inj heq).1 hplus
  · obtain ⟨rfl, rfl⟩ := Prod.mk.inj hsign
    simp only [takeWhile_digits h hrest, List.isEmpty_cons, Bool.false_eq_true, if_false]
    exact if_pos ⟨Int.le_trans (by decide) (Int.natCast_nonneg _), by exact_mod_cast hfit⟩

/-- The same behind a minus. -/
theorem stoll_minus_digits {bs rest : Bytes} (h : ∀ b ∈ bs, isDigitByte b = true) (hne : bs ≠ [])
    (hrest : ∀ b ∈ rest.head?, isDigitByte b = false) (hfit : digitsValue bs ≤ 2 ^ 63) :
    stoll (0x2D :: bs ++ rest) = some (-(digitsValue bs : Int)) := by
  have hspace : (0x2D :: bs ++ rest).dropWhile isSpaceByte = 0x2D :: (bs ++ rest) := rfl
  rw [stoll, hspace]
  simp only [takeWhile_digits h hrest, List.isEmpty_iff, if_neg hne, if_true]
  exact if_pos ⟨Int.neg_le_neg (by exact_mod_cast hfit),
    Int.lt_of_le_of_lt (Int.neg_nonpos_of_nonneg (Int.natCast_nonneg _)) (by decide)⟩

theorem ascii_negSucc (n : ℕ) :
    ascii (toString (Int.negSucc n)) = 0x2D :: ascii (toString (n + 1)) :=
  ascii_append "-" (toString (n + 1))

/-- **A printed number is read back**, up to the first character that is no digit. -/
theorem stoll_toString {i : Int} (hlow : -2 ^ 63 ≤ i) (hhigh : i < 2 ^ 63) {rest : Bytes}
    (hrest : ∀ b ∈ rest.head?, isDigitByte b = false) :
    stoll (ascii (toString i) ++ rest) = some i := by
  cases i with
  | ofNat n =>
    have hread := stoll_digits (digits_all n) (digits_ne_nil n) hrest
    rw [digitsValue_digits] at hread
    have hn : (n : Int) < 2 ^ 63 := hhigh
    exact hread (by omega)
  | negSucc n =>
    have hread := stoll_minus_digits (digits_all (n + 1)) (digits_ne_nil (n + 1)) hrest
    rw [digitsValue_digits] at hread
    rw [ascii_negSucc]
    exact hread (by rw [Int.negSucc_eq] at hlow; omega)

/-- The lines up to a line break. -/
theorem headerLines_append {line : Bytes} (h : 0x0D ∉ line) (rest : Bytes) :
    headerLines (line ++ 0x0D :: 0x0A :: rest) = line :: headerLines rest := by
  induction line with
  | nil => rfl
  | cons b line ih =>
    obtain ⟨hb, hline⟩ := not_or.1 (mt List.mem_cons.2 h)
    rw [List.cons_append, headerLines, ih hline]
    intro rest' hcr
    exact absurd hcr.symm hb

/-- The line that announces a length. -/
def lengthLine (n : ℕ) : Bytes := ascii "Content-Length:" ++ 0x20 :: ascii (toString n)

theorem header_eq (n : ℕ) :
    ascii ("Content-Length: " ++ toString n ++ "\r\n\r\n") = lengthLine n ++ blankLine := by
  rw [ascii_append, ascii_append, lengthLine, blankLine, List.append_cons]
  rfl

/-- There is no line break in the line. -/
theorem lengthLine_plain (n : ℕ) : 0x0D ∉ lengthLine n ∧ 0x0A ∉ lengthLine n := by
  have hdigits {b : UInt8} (hb : isDigitByte b = false) : b ∉ ascii (toString n) := by
    intro hmem
    rw [digits_all n b hmem] at hb
    cases hb
  simp only [lengthLine, List.mem_append, List.mem_cons, not_or]
  exact ⟨⟨by decide, by decide, hdigits (by decide)⟩, ⟨by decide, by decide, hdigits (by decide)⟩⟩

/-- **The announced length is read back.** -/
theorem parseContentLength_header {n : ℕ} (h : n < 2 ^ 63) :
    parseContentLength (lengthLine n ++ blankLine) = .ok n := by
  have hlines : headerLines (lengthLine n ++ blankLine) = [lengthLine n, [], []] :=
    headerLines_append (lengthLine_plain n).1 _
  have hannounced : announced (lengthLine n) = some n := by
    have hvalue : stoll (ascii (toString n)) = some (n : Int) := by
      have hread := @stoll_toString n (by omega) (by exact_mod_cast h) [] (by simp)
      rwa [List.append_nil] at hread
    have hlength : (ascii "Content-Length:").length = lengthPrefix.length := by decide
    have hprefix : (lengthLine n).take lengthPrefix.length = ascii "Content-Length:" := by
      rw [lengthLine, List.take_left' hlength]
    have hrest : (lengthLine n).drop lengthPrefix.length = 0x20 :: ascii (toString n) := by
      rw [lengthLine, List.drop_left' hlength]
    rw [announced, hprefix, if_pos (by decide), hrest, trimBytes_digits (digits_all n), hvalue]
    simp
  rw [parseContentLength, hlines, List.findSome?_cons, hannounced]

/-! ## One frame -/

/-- A blank line has two line feeds. -/
theorem not_blankLine_suffix {bs : Bytes} (h : bs.count 0x0A ≤ 1) :
    blankLine.isSuffixOf bs = false := by
  by_contra hsuffix
  rw [Bool.not_eq_false, List.isSuffixOf_iff_suffix] at hsuffix
  have hcount : blankLine.count 0x0A ≤ bs.count 0x0A := hsuffix.sublist.count_le _
  have htwo : blankLine.count 0x0A = 2 := by decide
  omega

/-- The scan goes on while there is at most one line feed. -/
theorem readHeader_append (header bs rest : Bytes)
    (h : (header ++ bs).count 0x0A ≤ 1) :
    readHeader header (bs ++ rest) = readHeader (header ++ bs) rest := by
  induction bs generalizing header with
  | nil => rw [List.nil_append, List.append_nil]
  | cons b bs ih =>
    have hnext : (header ++ [b]).count 0x0A ≤ 1 := by
      refine Nat.le_trans (List.Sublist.count_le _ ?_) h
      exact (List.append_sublist_append_left header).2 (by simp)
    rw [List.cons_append, readHeader]
    simp only [not_blankLine_suffix hnext, Bool.false_eq_true, if_false]
    rw [ih (header ++ [b]) (by rwa [List.append_assoc]), List.append_assoc, List.singleton_append]

/-- The header block without its last byte. -/
def openHeader (n : ℕ) : Bytes := lengthLine n ++ [0x0D, 0x0A, 0x0D]

theorem openHeader_count (n : ℕ) : (openHeader n).count 0x0A = 1 := by
  rw [openHeader, List.count_append, List.count_eq_zero_of_not_mem (lengthLine_plain n).2]
  decide

theorem readHeader_frame (n : ℕ) (rest : Bytes) :
    readHeader [] (lengthLine n ++ blankLine ++ rest) =
      .ok (some (lengthLine n ++ blankLine, rest)) := by
  have hopen : lengthLine n ++ blankLine ++ rest = openHeader n ++ 0x0A :: rest := by
    simp [openHeader, blankLine, ascii]
  have hclosed : openHeader n ++ [0x0A] = lengthLine n ++ blankLine := by
    simp [openHeader, blankLine, ascii]
  have hcount : ([] ++ openHeader n).count 0x0A ≤ 1 := Nat.le_of_eq (openHeader_count n)
  rw [hopen, readHeader_append [] (openHeader n) _ hcount, List.nil_append, readHeader]
  simp only [hclosed]
  exact if_pos (List.isSuffixOf_iff_suffix.2 (List.suffix_append _ _))

/-- A stream that ends inside the header block. -/
theorem readHeader_cut {n : ℕ} {cut : Bytes} (h : cut <+: openHeader n) (hne : cut ≠ []) :
    ∃ e, readHeader [] cut = .error e := by
  have hcount : ([] ++ cut).count 0x0A ≤ 1 := by
    rw [List.nil_append, ← openHeader_count n]
    exact h.sublist.count_le _
  have hread := readHeader_append [] cut [] hcount
  rw [List.append_nil, List.nil_append, readHeader, if_neg (by simpa using hne)] at hread
  exact ⟨_, hread⟩

/-- A read gives a first part of what is left, and something unless nothing is left. -/
theorem InStream.read_spec (s : InStream) (need : ℕ) (h : need ≠ 0) :
    ∃ count runs, s.read need = (s.rest.take count, ⟨s.rest.drop count, runs⟩) ∧
      0 < count ∧ count ≤ need := by
  obtain ⟨rest, runs⟩ := s
  cases runs with
  | nil => exact ⟨need, [], rfl, Nat.pos_of_ne_zero h, Nat.le_refl _⟩
  | cons run runs => exact ⟨min need (run + 1), runs, rfl, by omega, Nat.min_le_left _ _⟩

/-- The body is collected whatever reads the stream makes of it. -/
theorem readBody_ok (need : ℕ) (body : Bytes) (s : InStream) (h : need ≤ s.rest.length) :
    ∃ runs, readBody need body s = .ok (body ++ s.rest.take need, ⟨s.rest.drop need, runs⟩) := by
  induction need using Nat.strongRecOn generalizing body s with
  | ind need ih =>
    rw [readBody]
    split
    · rename_i hzero
      subst hzero
      exact ⟨s.runs, by simp⟩
    · rename_i hneed
      obtain ⟨count, runs, hread, hpos, hle⟩ := s.read_spec need hneed
      have hlength : (s.rest.take count).length = count := List.length_take_of_le (by omega)
      rw [hread]
      simp only [hlength]
      rw [dif_neg (Nat.ne_of_gt hpos)]
      obtain ⟨runs', hrest⟩ := ih (need - count) (by omega) (body ++ s.rest.take count)
        ⟨s.rest.drop count, runs⟩ (by rw [List.length_drop]; omega)
      refine ⟨runs', hrest.trans ?_⟩
      simp only [List.drop_drop, List.append_assoc, ← List.take_add]
      rw [Nat.add_sub_cancel' hle]

/-- A stream that ends inside the body. -/
theorem readBody_cut {need : ℕ} (body : Bytes) (s : InStream) (h : s.rest.length < need) :
    ∃ e, readBody need body s = .error e := by
  induction need using Nat.strongRecOn generalizing body s with
  | ind need ih =>
    rw [readBody, if_neg (by omega)]
    split
    · exact ⟨_, rfl⟩
    · rename_i hchunk
      obtain ⟨count, runs, hread, hpos, hle⟩ := s.read_spec need (by omega)
      rw [hread] at hchunk ⊢
      simp only [List.length_take] at hchunk ⊢
      exact ih _ (by omega) _ _ (by rw [List.length_drop]; omega)

/-- What is assumed of the library on a message: its text fits a `std::string`, and parsing the
text gives the message back. -/
structure JsonLibrary.Prints (m : μ) (body : Bytes) : Prop where
  dumped : json.dump m = .ok body
  fits : body.length < 2 ^ 63
  parsed : json.parse body = .ok m

namespace JsonLibrary

variable {json} {m : μ} {body : Bytes}

theorem Prints.frameMessage (h : json.Prints m body) : json.frameMessage m = .ok (frame body) := by
  rw [JsonLibrary.frameMessage, h.dumped]
  rfl

theorem frame_eq (body : Bytes) : frame body = lengthLine body.length ++ blankLine ++ body := by
  rw [frame, header_eq]

/-- **A frame is taken off the stream as a whole**, and nothing of what follows it. -/
theorem Prints.readMessage (h : json.Prints m body) (rest : Bytes) (runs : List ℕ) :
    ∃ runs', json.readMessage ⟨frame body ++ rest, runs⟩ = .ok (some m, ⟨rest, runs'⟩) := by
  obtain ⟨runs', hbody⟩ :=
    readBody_ok body.length [] ⟨body ++ rest, runs⟩ (by simp)
  refine ⟨runs', ?_⟩
  rw [List.nil_append, List.take_left, List.drop_left] at hbody
  simp only [JsonLibrary.readMessage, frame_eq, List.append_assoc (_ ++ _), readHeader_frame,
    parseContentLength_header h.fits, bind, Except.bind, hbody, h.parsed]
  rfl

/-- A stream that ends inside a frame. -/
theorem Prints.readMessage_cut (h : json.Prints m body) {cut : Bytes} (runs : List ℕ)
    (hcut : cut <+: frame body) (hne : cut ≠ []) (hproper : cut ≠ frame body) :
    ∃ e, json.readMessage ⟨cut, runs⟩ = .error e := by
  have hframe : frame body = openHeader body.length ++ 0x0A :: body := by
    simp [frame_eq, openHeader, blankLine, ascii]
  have hopen : openHeader body.length <+: frame body := ⟨_, hframe.symm⟩
  rcases List.prefix_or_prefix_of_prefix hcut hopen with hheader | ⟨tail, rfl⟩
  · obtain ⟨e, he⟩ := readHeader_cut hheader hne
    exact ⟨e, by simp [JsonLibrary.readMessage, he]⟩
  · -- the header block is complete, unless its last byte is missing
    cases tail with
    | nil =>
      rw [List.append_nil] at hne ⊢
      obtain ⟨e, he⟩ := readHeader_cut (List.prefix_refl (openHeader body.length)) hne
      exact ⟨e, by simp [JsonLibrary.readMessage, he]⟩
    | cons b part =>
      rw [hframe, List.prefix_append_right_inj, List.cons_prefix_cons] at hcut
      obtain ⟨rfl, hpart⟩ := hcut
      have hblock : openHeader body.length ++ 0x0A :: part =
          lengthLine body.length ++ blankLine ++ part := by
        simp [openHeader, blankLine, ascii]
      have hshort : part.length < body.length := by
        refine Nat.lt_of_le_of_ne hpart.length_le fun heq => hproper ?_
        rw [hpart.eq_of_length heq, hframe]
      obtain ⟨e, he⟩ := readBody_cut [] ⟨part, runs⟩ hshort
      refine ⟨e, ?_⟩
      simp only [JsonLibrary.readMessage, hblock, readHeader_frame,
        parseContentLength_header h.fits, bind, Except.bind, he]

/-! ## Streams of frames -/

theorem mapM_frameMessage {ms : List μ} {bodies : List Bytes}
    (h : List.Forall₂ json.Prints ms bodies) :
    ms.mapM json.frameMessage = .ok (bodies.map frame) := by
  induction h with
  | nil => rfl
  | cons hm _ ih =>
    rw [List.mapM_cons, hm.frameMessage, ih]
    rfl

/-- The frames in front of the stream are taken off one by one. -/
theorem takes_frames {ms : List μ} {bodies : List Bytes} (h : List.Forall₂ json.Prints ms bodies)
    (rest : Bytes) (runs : List ℕ) :
    ∃ runs', json.Takes ⟨(bodies.map frame).flatten ++ rest, runs⟩ ms ⟨rest, runs'⟩ := by
  induction h generalizing runs with
  | nil => exact ⟨runs, .none _⟩
  | @cons m body ms bodies hm _ ih =>
    obtain ⟨runs₁, hread⟩ := hm.readMessage ((bodies.map frame).flatten ++ rest) runs
    obtain ⟨runs₂, htakes⟩ := ih runs₁
    refine ⟨runs₂, .next ?_ htakes⟩
    rw [List.map_cons, List.flatten_cons, List.append_assoc]
    exact hread

/-- The reader gives the messages back, however the stream makes reads of their bodies. -/
structure ReadBack (json : JsonLibrary μ) (ms : List μ) (frames : List Bytes) : Prop where
  /-- A call takes one frame and leaves the frames behind it. -/
  taken : ∀ k ≤ ms.length, ∀ runs, ∃ runs',
    json.Takes ⟨frames.flatten, runs⟩ (ms.take k) ⟨(frames.drop k).flatten, runs'⟩
  /-- Behind the last frame the input is at its end. -/
  ended : ∀ runs, json.readMessage ⟨(frames.drop ms.length).flatten, runs⟩ = .ok (none, ⟨[], runs⟩)
  /-- A stream that ends inside a frame is refused there. -/
  refused : ∀ (k : ℕ) (framed cut : Bytes) (runs : List ℕ), frames[k]? = some framed →
    cut <+: framed → cut ≠ [] → cut ≠ framed → ∃ runs' e,
      json.Takes ⟨(frames.take k).flatten ++ cut, runs⟩ (ms.take k) ⟨cut, runs'⟩ ∧
        json.readMessage ⟨cut, runs'⟩ = .error e

theorem readBack_of_prints {ms : List μ} {bodies : List Bytes}
    (h : List.Forall₂ json.Prints ms bodies) : json.ReadBack ms (bodies.map frame) where
  taken := by
    intro k _ runs
    have hwire : (bodies.map frame).flatten =
        ((bodies.take k).map frame).flatten ++ ((bodies.map frame).drop k).flatten := by
      rw [← List.flatten_append, List.map_take, List.take_append_drop]
    rw [hwire]
    exact takes_frames (List.forall₂_take k h) _ runs
  ended := by
    intro runs
    rw [h.length_eq, ← @List.length_map _ _ bodies frame, List.drop_length]
    rfl
  refused := by
    intro k framed cut runs hframed hcut hne hproper
    rw [List.getElem?_map, Option.map_eq_some_iff] at hframed
    obtain ⟨body, hbody, rfl⟩ := hframed
    obtain ⟨runs', htakes⟩ := takes_frames (List.forall₂_take k h) cut runs
    have hk : k < bodies.length := (List.getElem?_eq_some_iff.1 hbody).1
    have hms : k < ms.length := h.length_eq ▸ hk
    have hm : json.Prints ms[k] body := by
      rw [← (List.getElem?_eq_some_iff.1 hbody).2]
      exact h.get _ hk
    obtain ⟨e, he⟩ := hm.readMessage_cut runs' hcut hne hproper
    rw [← List.map_take]
    exact ⟨runs', e, htakes, he⟩

/-- **What is written is read back**: the frames of the messages give the messages and then the end
of the input, and a stream that is cut inside a frame is refused. -/
theorem frames_read_back (json : JsonLibrary μ) (messages : List μ)
    (h : ∀ m ∈ messages, ∃ body, json.Prints m body) :
    ∃ frames, messages.mapM json.frameMessage = .ok frames ∧ json.ReadBack messages frames := by
  have hbodies : ∃ bodies, List.Forall₂ json.Prints messages bodies := by
    induction messages with
    | nil => exact ⟨[], .nil⟩
    | cons m ms ih =>
      obtain ⟨⟨body, hbody⟩, hrest⟩ := List.forall_mem_cons.1 h
      obtain ⟨bodies, hbodies⟩ := ih hrest
      exact ⟨body :: bodies, .cons hbody hbodies⟩
  obtain ⟨bodies, hbodies⟩ := hbodies
  exact ⟨bodies.map frame, mapM_frameMessage hbodies, readBack_of_prints hbodies⟩

end JsonLibrary

/-! ## Objects with a number -/

/-- What is assumed of the printer: it throws exactly on a string that is not UTF-8. -/
def JsonLibrary.Strict (json : JsonLibrary Value) : Prop := ∀ v, (json.dump v).isOk = v.clean

/-- The text of an object whose only member is a number. -/
def numberedText (i : Int) : Bytes := ascii "\x7b\"seq\":" ++ ascii (toString i) ++ ascii "\x7d"

/-- A parser for such objects, and the one without members. -/
def parseNumbered (text : Bytes) : Except String Value :=
  if text = ascii "\x7b\x7d" then .ok (.obj [])
  else
    match stoll (text.drop 7) with
    | some i =>
      if text = numberedText i then .ok (.obj [(seqKey, .int i)]) else .error "parse error"
    | none => .error "parse error"

/-- A library with this parser. -/
def valueLibrary : JsonLibrary Value := ⟨Value.dump, parseNumbered⟩

theorem valueLibrary_strict : valueLibrary.Strict := Value.dump_isOk

theorem dump_numbered (i : Int) :
    Value.dump (.obj [(seqKey, .int i)]) = .ok (numberedText i) := by
  have hkey : Value.dumpString seqKey = .ok (ascii "\"seq\"") := by rfl
  simp only [Value.dump, Value.dumpMembers, hkey, bind, Except.bind, pure, Except.pure,
    numberedText]
  simp [Value.commas, ascii]

theorem parseNumbered_text {i : Int} (hlow : -2 ^ 63 ≤ i) (hhigh : i < 2 ^ 63) :
    parseNumbered (numberedText i) = .ok (.obj [(seqKey, .int i)]) := by
  have hne : numberedText i ≠ ascii "\x7b\x7d" := by
    intro heq
    have hsecond : (numberedText i)[1]? = some 0x22 := by simp [numberedText, ascii]
    rw [heq] at hsecond
    cases hsecond
  have hdrop : (numberedText i).drop 7 = ascii (toString i) ++ ascii "\x7d" := by
    simp [numberedText, ascii]
  have hclose : ∀ b ∈ (ascii "\x7d").head?, isDigitByte b = false := by
    intro b hb
    obtain rfl : 0x7D = b := Option.some.inj hb
    rfl
  rw [parseNumbered, if_neg hne, hdrop, stoll_toString hlow hhigh hclose]
  exact if_pos rfl

/-- A number of the wire has at most twenty characters. -/
theorem length_toString {i : Int} (hlow : -2 ^ 63 ≤ i) (hhigh : i < 2 ^ 63) :
    (ascii (toString i)).length ≤ 20 := by
  have digits {n : ℕ} (h : n ≤ 2 ^ 63) : (ascii (toString n)).length ≤ 19 := by
    rw [ascii_toString, List.length_map, Nat.length_toDigits_le_iff (by decide) (by decide)]
    exact Nat.lt_of_le_of_lt h (by decide)
  cases i with
  | ofNat n =>
    have hn : (n : Int) < 2 ^ 63 := hhigh
    exact Nat.le_succ_of_le (digits (by omega))
  | negSucc n =>
    rw [ascii_negSucc, List.length_cons]
    exact Nat.succ_le_succ (digits (by rw [Int.negSucc_eq] at hlow; omega))

/-- The library reads these objects back. -/
theorem numbered_prints {i : Int} (hlow : -2 ^ 63 ≤ i) (hhigh : i < 2 ^ 63) :
    valueLibrary.Prints (.obj [(seqKey, .int i)]) (numberedText i) where
  dumped := dump_numbered i
  fits := by
    have hlength := length_toString hlow hhigh
    have htext : (numberedText i).length = 7 + (ascii (toString i)).length + 1 := by
      rw [numberedText, List.length_append, List.length_append]
      rfl
    rw [htext]
    omega
  parsed := parseNumbered_text hlow hhigh

/-- Three objects. -/
theorem three_frames_read_back :
    ∃ frames, [Value.obj [], .obj [(seqKey, .int 1)], .obj [(seqKey, .int (-20))]].mapM
      valueLibrary.frameMessage = .ok frames ∧ valueLibrary.ReadBack
        [.obj [], .obj [(seqKey, .int 1)], .obj [(seqKey, .int (-20))]] frames := by
  refine valueLibrary.frames_read_back _ fun m hm => ?_
  rcases List.mem_cons.1 hm with rfl | hm
  · exact ⟨ascii "\x7b\x7d", by rfl, by decide, by rfl⟩
  rcases List.mem_cons.1 hm with rfl | hm
  · exact ⟨_, numbered_prints (by decide) (by decide)⟩
  · rw [List.mem_singleton.1 hm]
    exact ⟨_, numbered_prints (by decide) (by decide)⟩

end Wire

end DapDbgeng
