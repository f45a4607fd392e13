/-
  The writer thread: from enqueued messages to frames on the wire.

  The library throws when a string of a message is not UTF-8, and nothing in `writer_loop` catches
  that.

  * `writerLoop`: the messages popped, and whether the loop came to the end of the queue;
  * `writerLoop_writes_all_iff`: when a frame is written for every message.
-/
import DapDbgeng.Framing
import Mathlib.Data.List.Forall2

namespace DapDbgeng

open Wire

/-! ## The writer loop -/

/-- Order of byte strings. -/
def bytesLess : Bytes → Bytes → Bool
  | [], [] => false
  | [], _ :: _ => true
  | _ :: _, [] => false
  | x :: xs, y :: ys => x < y || (x == y && bytesLess xs ys)

/-- Put a new member in its place. -/
def insertMember (key : Bytes) (v : Value) : Members → Members
  | [] => [(key, v)]
  | m :: ms => if bytesLess key m.1 then (key, v) :: m :: ms else m :: insertMember key v ms

/-- `message[key] = v`. -/
def setMember (key : Bytes) (v : Value) (message : Members) : Members :=
  if message.any fun m => m.1 = key then
    message.map fun m => if m.1 = key then (key, v) else m
  else insertMember key v message

/-- The sender left the sequence number unset. -/
def needsSequence (message : Members) : Bool :=
  match message.find? fun m => m.1 = seqKey with
  | some (_, .int i) => i ≤ 0
  | _ => true

structure Writer where
  nextSequence : Int := 1
  /-- The frames written to the output, the latest last. -/
  written : List Bytes := []

/-- The message with its wire sequence. -/
def numbered (w : Writer) (message : Members) : Members :=
  if needsSequence message then setMember seqKey (.int w.nextSequence) message else message

/-- `next_sequence_++` on an `int`: past its range it wraps. -/
def nextInt (i : Int) : Int := (i + 1).bmod (2 ^ 32)

variable (json : JsonLibrary Value)

/-- `frame_message`: a message is an object. -/
def frameMessage (message : Members) : Except String Bytes := json.frameMessage (.obj message)

/-- One turn of the loop.  The trace recorder only keeps the message. -/
def writeMessage (w : Writer) (message : Members) : Except String Writer :=
  (frameMessage json (numbered w message)).map fun framed =>
    { nextSequence := if needsSequence message then nextInt w.nextSequence else w.nextSequence
      written := w.written ++ [framed] }

/-- Write the messages popped from the queue.  An exception leaves the thread function, and with
it nothing is written any more. -/
def writerLoop (w : Writer) : List Members → Writer × Bool
  | [] => (w, true)
  | message :: messages =>
    match writeMessage json w message with
    | .ok w => writerLoop w messages
    | .error _ => (w, false)

/-! ## When every message is written -/

/-- Every string and key is UTF-8, apart from a sequence number that is assigned anyway. -/
def printable (message : Members) : Bool :=
  message.all fun m => Utf8.valid m.1 && (m.2.clean || (m.1 = seqKey && needsSequence message))

theorem Value.cleanMembers_eq (ms : Members) :
    cleanMembers ms = ms.all fun m => Utf8.valid m.1 && m.2.clean := by
  induction ms with
  | nil => rfl
  | cons m ms ih => rw [cleanMembers, ih, List.all_cons]

theorem insertMember_all (key : Bytes) (v : Value) (f : Bytes × Value → Bool) (ms : Members) :
    (insertMember key v ms).all f = (f (key, v) && ms.all f) := by
  induction ms with
  | nil => simp [insertMember]
  | cons m ms ih =>
    rw [insertMember]
    split
    · simp
    · rw [List.all_cons, ih, List.all_cons, Bool.and_left_comm]

/-- Assigning the sequence number leaves the other members to be serialised. -/
theorem setMember_clean (i : Int) (message : Members) :
    Value.cleanMembers (setMember seqKey (.int i) message) =
      message.all fun m => Utf8.valid m.1 && (m.2.clean || m.1 = seqKey) := by
  rw [Value.cleanMembers_eq, setMember]
  split
  · rw [List.all_map]
    refine congrArg message.all (funext fun m => ?_)
    by_cases h : m.1 = seqKey
    · simp [h, seqKey_valid, Value.clean]
    · simp [h]
  · rename_i hnone
    have hnew : (Utf8.valid seqKey && (Value.int i).clean) = true := by
      simp [seqKey_valid, Value.clean]
    rw [insertMember_all, hnew, Bool.true_and, Bool.eq_iff_iff, List.all_eq_true, List.all_eq_true]
    refine forall₂_congr fun m hm => ?_
    have hne : m.1 ≠ seqKey := by
      intro h
      exact hnone (List.any_eq_true.2 ⟨m, hm, by simpa using h⟩)
    simp [hne]

theorem numbered_clean (w : Writer) (message : Members) :
    Value.cleanMembers (numbered w message) = printable message := by
  rw [numbered, printable]
  split
  · rename_i h
    simp [setMember_clean, h]
  · rename_i h
    simp [Value.cleanMembers_eq, h]

/-- A message is framed exactly when it is printable. -/
theorem frameMessage_isOk (strict : json.Strict) (w : Writer) (message : Members) :
    (frameMessage json (numbered w message)).isOk = printable message := by
  rw [frameMessage, JsonLibrary.frameMessage, Value.isOk_bind_of (b := true) fun _ => rfl,
    Bool.and_true, strict, Value.clean, numbered_clean]

/-- `written` are frames of the messages, in order. -/
def FramesOf (messages : List Members) (written : List Bytes) : Prop :=
  List.Forall₂ (fun message framed => ∃ w, frameMessage json (numbered w message) = .ok framed)
    messages written

/-- The loop came to the end of the queue and wrote a frame for every message. -/
def WritesAll (w : Writer) (messages : List Members) : Prop :=
  (writerLoop json w messages).2 = true ∧
    ∃ frames, FramesOf json messages frames ∧
      (writerLoop json w messages).1.written = w.written ++ frames

section

variable {json} (strict : json.Strict)

include strict

theorem writeMessage_of_printable {message : Members} (w : Writer) (h : printable message = true) :
    ∃ framed n, frameMessage json (numbered w message) = .ok framed ∧
      writeMessage json w message =
        .ok { nextSequence := n, written := w.written ++ [framed] } := by
  have hok := frameMessage_isOk json strict w message
  rw [h] at hok
  rw [writeMessage]
  cases hf : frameMessage json (numbered w message) with
  | error e => rw [hf] at hok; cases hok
  | ok framed => exact ⟨framed, _, rfl, rfl⟩

theorem writeMessage_of_not_printable {message : Members} (w : Writer)
    (h : printable message = false) : ∃ e, writeMessage json w message = .error e := by
  have hok := frameMessage_isOk json strict w message
  rw [h] at hok
  rw [writeMessage]
  cases hf : frameMessage json (numbered w message) with
  | error e => exact ⟨e, rfl⟩
  | ok framed => rw [hf] at hok; cases hok

/-- A writer that is still running has only seen printable messages. -/
theorem printable_of_running {w : Writer} {messages : List Members}
    (h : (writerLoop json w messages).2 = true) :
    ∀ message ∈ messages, printable message = true := by
  induction messages generalizing w with
  | nil => simp
  | cons message messages ih =>
    rw [writerLoop] at h
    cases hp : printable message with
    | false =>
      obtain ⟨e, he⟩ := writeMessage_of_not_printable strict w hp
      rw [he] at h
      cases h
    | true =>
      obtain ⟨framed, n, -, hw⟩ := writeMessage_of_printable strict w hp
      rw [hw] at h
      exact List.forall_mem_cons.2 ⟨hp, ih h⟩

theorem writesAll_of_printable {messages : List Members} (w : Writer)
    (h : ∀ message ∈ messages, printable message = true) : WritesAll json w messages := by
  induction messages generalizing w with
  | nil => exact ⟨rfl, [], .nil, (List.append_nil _).symm⟩
  | cons message messages ih =>
    obtain ⟨hp, hrest⟩ := List.forall_mem_cons.1 h
    obtain ⟨framed, n, hf, hw⟩ := writeMessage_of_printable strict w hp
    obtain ⟨hrun, frames, hframes, hwritten⟩ :=
      ih { nextSequence := n, written := w.written ++ [framed] } hrest
    rw [WritesAll, writerLoop, hw]
    refine ⟨hrun, framed :: frames, .cons ⟨w, hf⟩ hframes, ?_⟩
    rw [hwritten, List.append_assoc, List.singleton_append]

end

/-- **The writer survives exactly the printable messages**: it writes a frame for every message
and keeps running if and only if all their strings are UTF-8. -/
theorem writerLoop_writes_all_iff (strict : json.Strict) (w : Writer) (messages : List Members) :
    WritesAll json w messages ↔ ∀ message ∈ messages, printable message = true :=
  ⟨fun h => printable_of_running strict h.1, writesAll_of_printable strict w⟩

/-- The event for a line of output. -/
def outputMessage (output : Bytes) : Members :=
  [(ascii "body", .obj [(ascii "category", .str (ascii "console")), (ascii "output", .str output)]),
   (ascii "event", .str (ascii "output")), (ascii "seq", .int 0),
   (ascii "type", .str (ascii "event"))]

/-- Two lines of output and an empty message are written. -/
theorem lines_written : WritesAll valueLibrary {}
    [outputMessage (ascii "hello"), outputMessage [0xE2, 0x82, 0xAC], [(seqKey, .int 0)]] :=
  (writerLoop_writes_all_iff valueLibrary valueLibrary_strict {} _).2 (by decide)

/-- A line with a byte that is no UTF-8, and a clean one behind it. -/
def brokenOutput : List Members := [outputMessage [0xFF], outputMessage (ascii "hello")]

/-- The byte ends the writer, and the clean message behind it is never written. -/
theorem output_ends_writer :
    ¬ WritesAll valueLibrary {} brokenOutput ∧
      (writerLoop valueLibrary {} brokenOutput).2 = false ∧
      (writerLoop valueLibrary {} brokenOutput).1.written = [] ∧
      (writerLoop valueLibrary {} [outputMessage (ascii "hello")]).1.written.length = 1 := by
  have hrun : (writerLoop valueLibrary {} brokenOutput).2 = false := by decide
  refine ⟨?_, hrun, by decide, by decide⟩
  rintro ⟨htrue, -⟩
  rw [hrun] at htrue
  cases htrue

end DapDbgeng
