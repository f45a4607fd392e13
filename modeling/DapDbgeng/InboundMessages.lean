/-
  The loop that reads the client's messages.

  A message is recorded, its type is looked at, and a request is handed to the server.  The server
  reports its own failures; the look at the type is outside of that.

  * `runMessages`: the loop over the messages that come in;
  * `runMessage_iff`: the messages that raise no exception;
  * `runMessages_iff`: what comes behind such a message is read, unless the server asks to exit.
-/
import DapDbgeng.TraceRecorder
import DapDbgeng.Dispatch
import DapDbgeng.Concurrent.Paths

namespace DapDbgeng

open Concurrent Concurrent.Prog

namespace Server

/-- What `run` does with a message; the result tells whether to leave the loop. -/
def runMessage (message : Json) : Dap Bool :=
  match Decoder.valueString "type" message with
  | .error what => throwRuntime what
  | .ok type => if type ≠ "request" then return false else handleRequest message

/-- The loop of `run` over the messages until the end of the input. -/
def runMessages (fs : FileSystem) (recorder : Option TraceRecorder) :
    List Json → Dap (Option TraceRecorder)
  | [] => return recorder
  | message :: messages => do
    let recorder := recorder.map fun r => r.recordInput fs message
    let exit ← runMessage message
    if exit then return recorder else runMessages fs recorder messages

/-! ## Requests -/

theorem drain_neverThrows (t : Tid) : (drainPendingDisposedSession t).NeverThrows := by
  refine .bind (.perform _) fun parked => ?_
  cases parked with
  | none => exact .ret _
  | some id => exact .catching _ fun _ => .ret _

theorem joinWaitLoop_neverThrows : joinWaitLoop.NeverThrows :=
  .bind (.perform _) fun _ => .bind (.perform _) fun _ => .bind (.perform _) fun _ =>
    .ite (.bind (.perform _) fun _ => drain_neverThrows _) (drain_neverThrows _)

theorem sendErrorResponse_neverThrows (requestSeq : Int) (command message : String) :
    (sendErrorResponse requestSeq command message).NeverThrows := .perform _

/-- The catch clauses raise nothing. -/
theorem recover_neverThrows (root : Json) (e : Exn) : (recover root e).NeverThrows := by
  have hfailure : (reportFailure root e).NeverThrows := by
    rw [reportFailure]
    split
    · exact .ite (.ret _) (sendErrorResponse_neverThrows _ _ _)
    · exact .ret _
  cases e with
  | unhandledRequest => exact sendErrorResponse_neverThrows _ _ _
  | _ => exact hfailure

theorem handleRequest_neverThrows (root : Json) : (handleRequest root).NeverThrows :=
  .bind (.perform _) fun _ => .bind (.perform _) fun _ => .bind (.perform _) fun _ =>
    .bind (.catching _ (recover_neverThrows root)) fun _ => .bind (.perform _) fun _ =>
      .bind (.perform _) fun _ => .ret _

/-! ## Messages -/

/-- An object without a type, or with a text for its type. -/
def Typed (message : Json) : Prop :=
  message.isObject = true ∧ ∀ type ∈ message.find "type", ∃ text, type = .str text

theorem valueString_iff (key : String) (message : Json) :
    (∃ text, Decoder.valueString key message = .ok text) ↔
      message.isObject = true ∧ ∀ value ∈ message.find key, ∃ text, value = .str text := by
  cases message with
  | obj members =>
    rw [Decoder.valueString, Json.find]
    cases hvalue : Json.lookup key members with
    | none => simp [Json.isObject]
    | some value => cases value <;> simp [Decoder.string, Decoder.typeError, Json.isObject]
  | _ => simp [Decoder.valueString, Json.isObject]

theorem runMessage_iff (message : Json) : (runMessage message).NeverThrows ↔ Typed message := by
  rw [Typed, ← valueString_iff, runMessage]
  cases htype : Decoder.valueString "type" message with
  | error what =>
    constructor
    · intro h
      exact absurd h (throw_not_neverThrows _)
    · rintro ⟨text, heq⟩
      cases heq
  | ok type =>
    exact ⟨fun _ => ⟨type, rfl⟩, fun _ => .ite (.ret _) (handleRequest_neverThrows message)⟩

theorem runMessages_neverThrows {fs : FileSystem} (recorder : Option TraceRecorder)
    {messages : List Json} (h : ∀ message ∈ messages, Typed message) :
    (runMessages fs recorder messages).NeverThrows := by
  induction messages generalizing recorder with
  | nil => exact .ret _
  | cons message messages ih =>
    obtain ⟨hmessage, hrest⟩ := List.forall_mem_cons.1 h
    exact .bind ((runMessage_iff message).2 hmessage) fun _ => .ite (.ret _) (ih _ hrest)

/-- **Inbound messages.**  No exception leaves the loop on account of a message exactly when the
message is an object whose type, if it has one, is a text. -/
theorem runMessages_iff (fs : FileSystem) (message : Json) :
    (∀ (recorder : Option TraceRecorder) (rest : List Json), (∀ m ∈ rest, Typed m) →
        (runMessages fs recorder (message :: rest)).NeverThrows) ↔ Typed message := by
  constructor
  · intro h
    rw [Typed, ← valueString_iff]
    cases htype : Decoder.valueString "type" message with
    | error what =>
      have hthrow : runMessages fs none [message] = throwRuntime what := by
        rw [runMessages, runMessage, htype]
        rfl
      have hnever := h none [] nofun
      rw [hthrow] at hnever
      exact absurd hnever (throw_not_neverThrows _)
    | ok type => exact ⟨type, rfl⟩
  · intro h recorder rest hrest
    exact runMessages_neverThrows recorder (List.forall_mem_cons.2 ⟨h, hrest⟩)

/-- A file system without files. -/
def noFiles : FileSystem where
  absolute path := .ok path
  isDirectory _ := false
  parentPath _ := ""
  createDirectories _ := .ok ()

/-- A message that is an array. -/
theorem array_escapes : ¬∀ (fs : FileSystem) (recorder : Option TraceRecorder)
    (messages : List Json), (runMessages fs recorder messages).NeverThrows := by
  intro hall
  exact throw_not_neverThrows _ (hall noFiles none [.arr []])

end Server

end DapDbgeng
