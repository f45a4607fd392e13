/-
  The verdict on the condition of a breakpoint.

  The engine prints the condition and then its value; the verdict is the last true or false among
  the words of all this.

  * `lastOf_eq_some`: which word that is;
  * `lastVerdict_echo`: a value without such a word leaves the verdict to the condition;
  * `decidedByValue_iff`: the value decides if and only if it has such a word or the condition has
    none.
-/
import DapDbgeng.Callbacks
import DapDbgeng.Classifier
import DapDbgeng.SessionWp
import Mathlib.Data.List.Induction

namespace DapDbgeng

open Concurrent Concurrent.Prog

namespace Server

/-! ## True and false among words -/

/-- What a word says. -/
def verdictOf (word : List Char) : Option Bool :=
  if word.map Char.toLower = "true".toList then some true
  else if word.map Char.toLower = "false".toList then some false
  else none

/-- The last verdict of a text. -/
def lastOf (cs : List Char) : Option Bool :=
  (Text.splitList (fun c => !isWordChar c) cs).reverse.findSome? verdictOf

theorem findSome?_verdictOf (words : List (List Char)) :
    words.findSome? verdictOf = ((words.map fun w => Text.toLowerAscii (String.ofList w)).find?
      fun w => w = "true" || w = "false").map fun w => decide (w = "true") := by
  induction words with
  | nil => rfl
  | cons w words ih =>
    have hlower (s : String) :
        Text.toLowerAscii (String.ofList w) = s ↔ w.map Char.toLower = s.toList := by
      rw [Text.toLowerAscii, String.toList_ofList, ← String.toList_inj, String.toList_ofList]
    rw [List.findSome?_cons, List.map_cons, List.find?_cons, verdictOf, ih]
    by_cases ht : w.map Char.toLower = "true".toList
    · simp [ht, (hlower "true").2 ht]
    by_cases hf : w.map Char.toLower = "false".toList
    · have hfalse := (hlower "false").2 hf
      simp [hf, hfalse]
    · have hnot_true : Text.toLowerAscii (String.ofList w) ≠ "true" := fun h => ht ((hlower _).1 h)
      have hnot_false : Text.toLowerAscii (String.ofList w) ≠ "false" :=
        fun h => hf ((hlower _).1 h)
      rw [if_neg ht, if_neg hf, decide_eq_false hnot_true, decide_eq_false hnot_false]
      rfl

theorem lastVerdict_eq (output : String) : lastVerdict output = lastOf output.toList := by
  rw [lastVerdict, lastOf, findSome?_verdictOf, ← List.map_reverse]

@[simp] theorem lastOf_nil : lastOf [] = none := rfl

theorem lastOf_append_sep {c : Char} (hc : isWordChar c = false) (a b : List Char) :
    lastOf (a ++ c :: b) = (lastOf b).or (lastOf a) := by
  rw [lastOf, Text.splitList_append_sep (by simp [hc]), List.reverse_append, List.findSome?_append,
    lastOf, lastOf]

theorem lastOf_cons_sep {c : Char} (hc : isWordChar c = false) (b : List Char) :
    lastOf (c :: b) = lastOf b := by
  have h := lastOf_append_sep hc [] b
  rwa [lastOf_nil, Option.or_none] at h

theorem lastOf_word {word : List Char} (h : ∀ c ∈ word, isWordChar c = true) :
    lastOf word = verdictOf word := by
  rw [lastOf, Text.splitList_of_none (by simpa using h), List.reverse_singleton,
    List.findSome?_singleton]

theorem lastOf_separators {cs : List Char} (h : ∀ c ∈ cs, isWordChar c = false) (b : List Char) :
    lastOf (cs ++ b) = lastOf b := by
  induction cs with
  | nil => rfl
  | cons c cs ih =>
    rw [List.cons_append, lastOf_cons_sep (h c (.head _)), ih fun c' hc' => h c' (.tail _ hc')]

theorem lastOf_append_separators {cs : List Char} (h : ∀ c ∈ cs, isWordChar c = false)
    (a : List Char) : lastOf (a ++ cs) = lastOf a := by
  cases cs with
  | nil => rw [List.append_nil]
  | cons c cs =>
    have hrest := lastOf_separators (fun c' hc' => h c' (.tail _ hc')) []
    rw [List.append_nil, lastOf_nil] at hrest
    rw [lastOf_append_sep (h c (.head _)), hrest, Option.none_or]

/-! ## Where they stand -/

/-- Between these two texts a word can stand by itself. -/
structure Apart (before after : List Char) : Prop where
  left : ∀ c, before.getLast? = some c → isWordChar c = false
  right : ∀ c, after.head? = some c → isWordChar c = false

/-- `b` is said in a text. -/
def Says (b : Bool) (cs : List Char) : Prop :=
  ∃ before word after, cs = before ++ word ++ after ∧ Apart before after ∧
    verdictOf word = some b

/-- `b` is said last. -/
def SaysLast (b : Bool) (cs : List Char) : Prop :=
  ∃ before word after, cs = before ++ word ++ after ∧ Apart before after ∧
    verdictOf word = some b ∧ ∀ b', ¬Says b' after

theorem isWordChar_of_toLower {c : Char} (h : c.toLower.isLower = true) : isWordChar c = true := by
  have hword : (c.isUpper || c.isLower || c.isDigit || c == '_') = isWordChar c := rfl
  rw [← hword]
  by_cases hu : c.val ≥ 'A'.val ∧ c.val ≤ 'Z'.val
  · have hupper : c.isUpper = true := decide_eq_true hu
    rw [hupper, Bool.true_or, Bool.true_or, Bool.true_or]
  · have hlower : c.toLower = c := dif_neg hu
    rw [hlower] at h
    rw [h, Bool.or_true, Bool.true_or, Bool.true_or]

/-- What says something is a word. -/
theorem word_of_verdict {word : List Char} {b : Bool} (h : verdictOf word = some b) :
    ∀ c ∈ word, isWordChar c = true := by
  have hlower : ∀ s : String, word.map Char.toLower = s.toList →
      (∀ d ∈ s.toList, d.isLower = true) → ∀ c ∈ word, isWordChar c = true := by
    intro s hs hall c hc
    refine isWordChar_of_toLower (hall c.toLower ?_)
    rw [← hs]
    exact List.mem_map_of_mem hc
  unfold verdictOf at h
  split_ifs at h with ht hf
  · exact hlower _ ht (List.all_eq_true.1 (by decide))
  · exact hlower _ hf (List.all_eq_true.1 (by decide))

theorem lastOf_around {before word after : List Char} (h : Apart before after)
    (hw : ∀ c ∈ word, isWordChar c = true) :
    lastOf (before ++ word ++ after) =
      (lastOf after).or ((verdictOf word).or (lastOf before)) := by
  have hbefore : lastOf (before ++ word) = (verdictOf word).or (lastOf before) := by
    rcases List.eq_nil_or_concat' before with rfl | ⟨init, c, rfl⟩
    · rw [List.nil_append, lastOf_word hw, lastOf_nil, Option.or_none]
    · have hc := h.left c (by simp)
      rw [List.append_assoc, List.singleton_append, lastOf_append_sep hc, lastOf_word hw,
        lastOf_append_separators (by simpa using hc)]
  cases after with
  | nil => rw [List.append_nil, hbefore, lastOf_nil, Option.none_or]
  | cons c after =>
    have hc := h.right c rfl
    rw [lastOf_append_sep hc, hbefore, lastOf_cons_sep hc]

theorem Says.lastOf_isSome {b : Bool} {cs : List Char} (h : Says b cs) : (lastOf cs).isSome := by
  obtain ⟨before, word, after, rfl, hapart, hword⟩ := h
  rw [lastOf_around hapart (word_of_verdict hword), hword]
  cases lastOf after <;> rfl

/-- A text ends in a word, which may be empty. -/
theorem exists_last_word (cs : List Char) : ∃ before word, cs = before ++ word ∧
    (∀ c ∈ word, isWordChar c = true) ∧ ∀ c, before.getLast? = some c → isWordChar c = false := by
  induction cs using List.reverseRecOn with
  | nil => exact ⟨[], [], rfl, by simp, by simp⟩
  | append_singleton cs c ih =>
    cases hc : isWordChar c with
    | false =>
      refine ⟨cs ++ [c], [], by simp, by simp, ?_⟩
      rintro d hd
      simp only [List.getLast?_concat, Option.some.injEq] at hd
      rwa [← hd]
    | true =>
      obtain ⟨before, word, rfl, hword, hbefore⟩ := ih
      refine ⟨before, word ++ [c], by simp, ?_, hbefore⟩
      intro d hd
      rcases List.mem_append.1 hd with hd | hd
      · exact hword d hd
      · rwa [List.mem_singleton.1 hd]

theorem saysLast_of_lastOf {b : Bool} : ∀ {cs : List Char}, lastOf cs = some b →
    ∃ before word after, cs = before ++ word ++ after ∧ Apart before after ∧
      verdictOf word = some b ∧ lastOf after = none := by
  intro cs
  induction hn : cs.length using Nat.strong_induction_on generalizing cs with
  | _ n ih =>
    intro h
    obtain ⟨before, word, rfl, hword, hbefore⟩ := exists_last_word cs
    have hapart : Apart before [] := ⟨hbefore, by simp⟩
    have hlast := lastOf_around hapart hword
    rw [List.append_nil, h, lastOf_nil, Option.none_or] at hlast
    cases hv : verdictOf word with
    | some b' =>
      rw [hv, Option.some_or] at hlast
      exact ⟨before, word, [], by simp, hapart, hv.trans hlast.symm, rfl⟩
    | none =>
      rw [hv, Option.none_or] at hlast
      -- the word at the end says nothing: it belongs to what comes after
      rcases List.eq_nil_or_concat' before with rfl | ⟨init, c, rfl⟩
      · cases hlast
      have hc := hbefore c (by simp)
      rw [lastOf_append_separators (by simpa using hc)] at hlast
      obtain ⟨pre, w, post, rfl, hapart', hw, hpost⟩ :=
        ih init.length (by subst hn; simp) rfl hlast.symm
      refine ⟨pre, w, post ++ c :: word, by simp, ⟨hapart'.left, ?_⟩, hw, ?_⟩
      · intro d hd
        cases post with
        | nil =>
          cases hd
          exact hc
        | cons d' post => exact hapart'.right d hd
      · rw [lastOf_append_sep hc, lastOf_word hword, hv, hpost]
        rfl

theorem lastOf_eq_none {cs : List Char} : lastOf cs = none ↔ ∀ b, ¬Says b cs := by
  constructor
  · intro h b hb
    have hsome := hb.lastOf_isSome
    rw [h] at hsome
    cases hsome
  · intro h
    cases hl : lastOf cs with
    | none => rfl
    | some b =>
      obtain ⟨before, word, after, hcs, hapart, hword, -⟩ := saysLast_of_lastOf hl
      exact absurd ⟨before, word, after, hcs, hapart, hword⟩ (h b)

/-- **The verdict is the last one said.** -/
theorem lastOf_eq_some {b : Bool} {cs : List Char} : lastOf cs = some b ↔ SaysLast b cs := by
  constructor
  · intro h
    obtain ⟨before, word, after, hcs, hapart, hword, hafter⟩ := saysLast_of_lastOf h
    exact ⟨before, word, after, hcs, hapart, hword, lastOf_eq_none.1 hafter⟩
  · rintro ⟨before, word, after, rfl, hapart, hword, hafter⟩
    rw [lastOf_around hapart (word_of_verdict hword), lastOf_eq_none.2 hafter, hword]
    rfl

/-! ## The condition and its value -/

/-- The engine prints the condition as it was asked for, and then its value. -/
def Echoes (condition value output : String) : Prop :=
  ∃ separator : String, (∀ c ∈ separator.toList, isWordChar c = false) ∧
    output = "(" ++ condition ++ ")" ++ separator ++ value

theorem lastOf_echo {condition value output : String} (h : Echoes condition value output) :
    lastOf output.toList = (lastOf value.toList).or (lastOf condition.toList) := by
  obtain ⟨separator, hs, rfl⟩ := h
  have hlist : ("(" ++ condition ++ ")" ++ separator ++ value).toList =
      '(' :: (condition.toList ++ ')' :: (separator.toList ++ value.toList)) := by simp
  rw [hlist, lastOf_cons_sep (by decide), lastOf_append_sep (by decide), lastOf_separators hs]

theorem trimEnd_eq_append (cs : List Char) : ∃ spaces,
    cs = Text.trimEndList Text.isSpace cs ++ spaces ∧
    ∀ c ∈ spaces, Text.isSpace c = true := by
  refine ⟨(cs.reverse.takeWhile Text.isSpace).reverse, ?_, fun c hc => ?_⟩
  · rw [Text.trimEndList, ← List.reverse_append, List.takeWhile_append_dropWhile,
      List.reverse_reverse]
  · exact List.mem_takeWhile_imp (List.mem_reverse.1 hc)

theorem not_word_of_isSpace {c : Char} (h : Text.isSpace c = true) : isWordChar c = false := by
  simp only [Text.isSpace, Text.isBlankChar, Bool.or_eq_true, decide_eq_true_eq] at h
  rcases h with ((((rfl | rfl) | rfl) | rfl) | rfl) | rfl <;> rfl

theorem lastOf_trimEnd (s : String) : lastOf (Text.trimEnd s).toList = lastOf s.toList := by
  obtain ⟨spaces, hs, hspaces⟩ := trimEnd_eq_append s.toList
  rw [Text.trimEnd, String.toList_ofList]
  conv_rhs => rw [hs]
  rw [lastOf_append_separators fun c hc => not_word_of_isSpace (hspaces c hc)]

/-- What the value allows as a verdict. -/
structure Fits (value : String) (verdict : Option Bool) : Prop where
  saysFalse : verdict = some false → SaysLast false value.toList
  saysTrue : verdict = some true → Says true value.toList
  absent : (∀ b, ¬Says b value.toList) → verdict = none

theorem fits_none (value : String) : Fits value none := ⟨nofun, nofun, fun _ => rfl⟩

theorem fits_lastOf (value : String) : Fits value (lastOf value.toList) := by
  refine ⟨fun h => lastOf_eq_some.1 h, fun h => ?_, fun h => lastOf_eq_none.2 h⟩
  obtain ⟨before, word, after, hcs, hapart, hword, -⟩ := lastOf_eq_some.1 h
  exact ⟨before, word, after, hcs, hapart, hword⟩

end Server

/-! ## What the engine prints -/

/-- The condition is answered with `output`. -/
def DapOp.prints (output : String) : ∀ {β : Type}, DapOp β → β → Prop
  | _, .call _ (.execute (.condition _)), r => String.join r.output = output
  | _, _, _ => True

/-- The steps of a callback in which a condition is answered with `output`. -/
def printing (output : String) : StepRel DapOp Server :=
  fun β o s b s' => sem .callback β o s b s' ∧ o.prints output b

def printedPre (output : String) (id : SessionId) :
    ∀ {β : Type}, DapOp β → (β → Session × Unit → Prop) → Session × Unit → Prop
  | _, .readSession i => fun K v => i = id ∧ K v.1 v
  | _, .updateSession i u => fun K v => i = id ∧ K () (v.1.update u, v.2)
  | _, .call i c => fun K v => i = id ∧ ∀ b created after, (DapOp.call i c).prints output b →
    K b ({ v.1 with engine := c.effect created after b v.1.engine }, v.2)
  | _, .send _ => fun K v => K () v
  | _, _ => fun _ _ => False

/-- The session, whichever way the engine prints `output`. -/
def printedSpec (output : String) (id : SessionId) : Spec DapOp (Session × Unit) where
  pre := printedPre output id
  mono o K K' hK v h := by
    cases o with
    | readSession i => exact ⟨h.1, hK _ _ h.2⟩
    | updateSession i u => exact ⟨h.1, hK _ _ h.2⟩
    | call i c => exact ⟨h.1, fun b created after hb => hK _ _ (h.2 b created after hb)⟩
    | send m => exact hK _ _ h
    | _ => exact h.elim

theorem printedSpec_follows (output : String) (id : SessionId) :
    Follows id (printedSpec output id) :=
  ⟨fun h => ⟨rfl, h⟩, fun h => ⟨rfl, h⟩, fun h => h⟩

theorem printedPre_step {output : String} {id : SessionId} {β : Type} (o : DapOp β)
    {K : β → Session × Unit → Prop} {v : Session × Unit} {s s' : Server} {b : β}
    (hv : v.1 = s.sessions id) (hw : (printedSpec output id).pre o K v)
    (h : printing output β o s b s') : ∃ v' : Session × Unit, v'.1 = s'.sessions id ∧ K b v' := by
  obtain ⟨hsem, hprints⟩ := h
  rcases v with ⟨x, u⟩
  subst hv
  refine ⟨(s'.sessions id, u), rfl, ?_⟩
  cases o with
  | readSession i =>
    obtain ⟨rfl, rfl⟩ := sem_readSession.1 hsem
    obtain ⟨rfl, hK⟩ := hw
    exact hK
  | updateSession i w =>
    obtain ⟨rfl, hK⟩ := hw
    rwa [sem_updateSession.1 hsem, Server.modifySession_sessions, if_pos rfl]
  | call i c =>
    obtain ⟨rfl, hK⟩ := hw
    obtain ⟨created, after, -, -, rfl⟩ := sem_call hsem
    rw [Server.updateEngine_sessions, if_pos rfl]
    exact hK b created after hprints
  | send m =>
    have hs : s'.sessions = s.sessions := by
      rw [sem_send.1 hsem]
      split <;> rfl
    rwa [hs]
  | _ => exact hw.elim

/-- An engine that prints `output` for a condition. -/
def printer (output : String) : Answers where
  answer := fun c e => match c with
    | .execute (.condition _) => { output := [output] }
    | c => c.default e

def printerPre (output : String) (id : SessionId) :
    ∀ {β : Type}, DapOp β → (β → Session × Unit → Prop) → Session × Unit → Prop
  | _, .readSession i => fun K v => i = id ∧ K v.1 v
  | _, .updateSession i u => fun K v => i = id ∧ K () (v.1.update u, v.2)
  | _, .call i c => fun K v =>
    let b := (printer output).answer c v.1.engine
    i = id ∧ c.admissible b v.1.engine = true ∧ Call.mayCreate [] v.1.engine c = true ∧
      (DapOp.call i c).prints output b ∧
      K b ({ v.1 with engine := c.effect [] (fun e => e) b v.1.engine }, v.2)
  | _, .send _ => fun K v => K () v
  | _, _ => fun _ _ => False

/-- The session, where the engine is a `printer`. -/
def printerSpec (output : String) (id : SessionId) : Spec DapOp (Session × Unit) where
  pre := printerPre output id
  mono o K K' hK v h := by
    cases o with
    | readSession i => exact ⟨h.1, hK _ _ h.2⟩
    | updateSession i u => exact ⟨h.1, hK _ _ h.2⟩
    | call i c => exact ⟨h.1, h.2.1, h.2.2.1, h.2.2.2.1, hK _ _ h.2.2.2.2⟩
    | send m => exact hK _ _ h
    | _ => exact h.elim

theorem printerSpec_follows (output : String) (id : SessionId) :
    Follows id (printerSpec output id) :=
  ⟨fun h => ⟨rfl, h⟩, fun h => ⟨rfl, h⟩, fun h => h⟩

theorem printer_angelic {output : String} {id : SessionId} {β : Type} (o : DapOp β)
    {K : β → Session × Unit → Prop} {v : Session × Unit} {s : Server} (hv : v.1 = s.sessions id)
    (h : (printerSpec output id).pre o K v) : (Spec.angelic (printing output)).pre o
      (fun b s' => ∃ v' : Session × Unit, v'.1 = s'.sessions id ∧ K b v') s := by
  rcases v with ⟨x, u⟩
  subst hv
  cases o with
  | readSession i =>
    obtain ⟨rfl, hK⟩ := h
    exact ⟨_, _, ⟨sem_readSession.2 ⟨rfl, rfl⟩, trivial⟩, _, rfl, hK⟩
  | updateSession i w =>
    obtain ⟨rfl, hK⟩ := h
    refine ⟨(), _, ⟨sem_updateSession.2 rfl, trivial⟩, _, ?_, hK⟩
    rw [Server.modifySession_sessions, if_pos rfl]
  | call i c =>
    obtain ⟨rfl, hadmissible, hcreate, hprints, hK⟩ := h
    refine ⟨_, s.updateEngine i (c.effect [] (fun e => e)
      ((printer output).answer c (s.engine i))), ⟨⟨printer output, ?_⟩, hprints⟩, _, ?_, hK⟩
    · change applyCall (printer output) i c s = _
      rw [applyCall, if_pos (by rw [Bool.and_eq_true]; exact ⟨hadmissible, hcreate⟩)]
      rfl
    · rw [Server.updateEngine_sessions, if_pos rfl]
      rfl
  | send m =>
    refine ⟨(), _, ⟨sem_send.2 rfl, trivial⟩, (s.sessions id, u), ?_, h⟩
    split <;> rfl
  | _ => exact h.elim

namespace Session

variable {output condition : String} {id : SessionId} {S : Spec DapOp (Session × Unit)}
  {v : Session × Unit}

/-- What executing a condition returns is what the engine prints, trimmed at its end. -/
theorem condition_printed (hS : Follows id S) {P : Prop} (hbusy : ¬v.1.Idle → P)
    (hcall : ∀ (K : ExecuteResult → Session × Unit → Prop) (w : Session × Unit),
      (∀ r w', w'.1.outputCapture = w.1.outputCapture → String.join r.output = output →
        r.status = .ok () ∨ P → K r w') → S.pre (.call id (.execute (.condition condition))) K w) :
    (executeCommandWithOutput id (.condition condition)).wp S
      (fun text _ => text = Text.trimEnd output) (fun _ _ => P) v := by
  refine hS.executeCapturing rfl (Command.condition_not_blank condition) (fun hi _ => hbusy hi) fun _ =>
    hcall _ _ fun r w hw hr hstatus => ?_
  dsimp only
  split
  · rw [hw, hr]
    change Text.trimEnd ("" ++ output) = _
    rw [String.empty_append]
  · rename_i hok
    obtain hstatus | hP := hstatus
    · rw [hstatus] at hok
      exact absurd rfl hok
    · exact fun _ => hP

end Session

namespace Server

theorem verdict_printed {output condition : String} {id : SessionId} {s s' : Server}
    {verdict : Option Bool}
    (h : Returns (printing output) (tryEvaluateConditionalBreakpoint id condition) s verdict s') :
    verdict = none ∨ verdict = lastOf output.toList := by
  obtain ⟨es, h⟩ := h
  have hcommand : (Session.executeCommandWithOutput id (.condition condition)).wp
      (printedSpec output id) (fun text _ => text = Text.trimEnd output) (fun _ _ => True)
      (s.sessions id, ()) := by
    refine Session.condition_printed (printedSpec_follows output id) (fun _ => trivial) ?_
    intro K w hK
    exact ⟨rfl, fun r created after hr => hK r _ rfl hr (.inr trivial)⟩
  have hwp : (tryEvaluateConditionalBreakpoint id condition).wp (printedSpec output id)
      (fun verdict _ => verdict = none ∨ verdict = lastOf output.toList) (fun _ _ => False)
      (s.sessions id, ()) := by
    rw [tryEvaluateConditionalBreakpoint]
    simp only [bind_eq, wp_catching, wp_bind]
    refine wp_mono (fun text v htext => ?_) (fun _ _ _ => .inl rfl) hcommand
    subst htext
    exact .inr (by rw [lastVerdict_eq, lastOf_trimEnd])
  obtain ⟨_, -, hverdict⟩ := wp_view printedPre_step h rfl hwp
  exact hverdict

/-- From an idle session the engine can answer so. -/
theorem exists_verdict {condition : String} {id : SessionId} {s : Server} (output : String)
    (hi : (s.sessions id).Idle) : ∃ s', Returns (printing output)
      (tryEvaluateConditionalBreakpoint id condition) s (lastOf output.toList) s' := by
  have hcommand : (Session.executeCommandWithOutput id (.condition condition)).wp
      (printerSpec output id) (fun text _ => text = Text.trimEnd output) (fun _ _ => False)
      (s.sessions id, ()) := by
    refine Session.condition_printed (printerSpec_follows output id) (fun hn => hn hi) ?_
    intro K w hK
    have hprints : String.join [output] = output := by simp
    exact ⟨rfl, rfl, rfl, hprints, hK _ _ rfl hprints (.inl rfl)⟩
  have hwp : (tryEvaluateConditionalBreakpoint id condition).wp (printerSpec output id)
      (fun verdict _ => verdict = lastOf output.toList) (fun _ _ => False) (s.sessions id, ()) := by
    rw [tryEvaluateConditionalBreakpoint]
    simp only [bind_eq, wp_catching, wp_bind]
    refine wp_mono (fun text v htext => ?_) (fun _ _ hfalse => hfalse.elim) hcommand
    subst htext
    exact (lastVerdict_eq _).trans (lastOf_trimEnd output)
  have hstates := wp_of_view (T := Spec.angelic (printing output))
    (fun {_} o {_ _ _} hv h => printer_angelic o hv h) rfl hwp
  obtain ⟨verdict, s', hreturns, _, -, rfl⟩ :=
    wp_angelic (wp_mono (fun _ _ h => h) (fun _ _ ⟨_, _, hfalse⟩ => hfalse) hstates)
  exact ⟨s', hreturns⟩

theorem colon_separates : ∀ c ∈ " : ".toList, isWordChar c = false := by
  have hall : " : ".toList.all (fun c => !isWordChar c) = true := by decide
  simpa using List.all_eq_true.1 hall

/-- Whatever the engine prints around it, the value decides. -/
def DecidedByValue (condition value : String) : Prop :=
  ∀ (output : String), Echoes condition value output → ∀ (id : SessionId) (s s' : Server)
    (verdict : Option Bool), Returns (printing output)
      (tryEvaluateConditionalBreakpoint id condition) s verdict s' → Fits value verdict

/-- **The value decides** if and only if it says something or the condition does not. -/
theorem decidedByValue_iff (condition value : String) : DecidedByValue condition value ↔
    (∃ b, Says b value.toList) ∨ ∀ b, ¬Says b condition.toList := by
  constructor
  · intro h
    by_contra hnot
    push Not at hnot
    obtain ⟨hvalue, b, hb⟩ := hnot
    have hecho : Echoes condition value ("(" ++ condition ++ ")" ++ " : " ++ value) :=
      ⟨" : ", colon_separates, rfl⟩
    obtain ⟨s', hs'⟩ : ∃ s', Returns (printing ("(" ++ condition ++ ")" ++ " : " ++ value))
        (tryEvaluateConditionalBreakpoint 0 condition) {} _ s' := exists_verdict _ ⟨rfl, rfl⟩
    have habsent := (h _ hecho _ _ _ _ hs').absent hvalue
    rw [lastOf_echo hecho, lastOf_eq_none.2 hvalue, Option.none_or] at habsent
    exact lastOf_eq_none.1 habsent b hb
  · rintro h output hecho id s s' verdict hreturns
    rcases verdict_printed hreturns with rfl | rfl
    · exact fits_none value
    have hfits : lastOf output.toList = lastOf value.toList := by
      rw [lastOf_echo hecho]
      rcases h with ⟨b, hb⟩ | hcondition
      · obtain ⟨b', hb'⟩ := Option.isSome_iff_exists.1 hb.lastOf_isSome
        rw [hb', Option.some_or]
      · rw [lastOf_eq_none.2 hcondition, Option.or_none]
    rw [hfits]
    exact fits_lastOf value

/-- A false in the condition swallows the stop for a value that is neither true nor false. -/
theorem echo_decides : ¬∀ condition value, DecidedByValue condition value := by
  intro hall
  have hecho : Echoes "flag == false" "5" "(flag == false) : 5" := ⟨" : ", colon_separates, by decide⟩
  obtain ⟨s', hs'⟩ : ∃ s', Returns (printing "(flag == false) : 5")
      (tryEvaluateConditionalBreakpoint 0 "flag == false") {} _ s' := exists_verdict _ ⟨rfl, rfl⟩
  have habsent := (hall _ _ _ hecho _ _ _ _ hs').absent (lastOf_eq_none.1 (by decide))
  rw [lastOf_echo hecho] at habsent
  exact absurd habsent (by decide)

end Server

end DapDbgeng
