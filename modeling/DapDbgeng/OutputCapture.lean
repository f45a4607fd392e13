/-
  Commands whose output is captured.

  While the engine executes a command it prints texts and reports events, and the adapter may call
  for the next command from there.  The calls run on one thread: what happens is a sequence of
  calls, texts, and returns of the innermost command the engine executes.

  * `attend`: a method of the session up to the point where the engine executes a command;
  * `CaptureState.step`: what the session does when something happens;
  * `inProgress`: the calls in progress, with the texts that were received during each;
  * `capture_run`: what holds of every sequence of steps.
-/
import DapDbgeng.Session

namespace DapDbgeng

open Concurrent

/-! ## Calls that wait for the engine -/

/-- Where a method stands: at its end, or waiting for a command. -/
inductive Attended (α : Type) where
  | ended (result : Except Exn α)
  | executing (rest : ExecuteResult → Dap α)

/-- A session and the messages it has sent. -/
abbrev Attending := Session × List Message

/-- What an operation of a method does, and what comes next. -/
def DapOp.attend {α : Type} : ∀ {β : Type}, DapOp β → (β → Dap α) →
    (β → Attending → Option (Attended α × Attending)) → Attending →
      Option (Attended α × Attending)
  | _, .readSession _, _, next, v => next v.1 v
  | _, .updateSession _ u, _, next, v => next () (v.1.update u, v.2)
  | _, .send m, _, next, v => next () (v.1, v.2 ++ [m])
  | _, .enter _ (.execute _), _, next, v => next () v
  | _, .call _ (.execute _), rest, _, v => some (.executing rest, v)
  | _, .leave _ (.execute _), rest, _, v => some (.executing rest, v)
  | _, _, _, _, _ => none

/-- Run a method until it ends or waits for a command. -/
def attend {α : Type} : Dap α → Attending → Option (Attended α × Attending)
  | .ret a, v => some (.ended (.ok a), v)
  | .throw e, v => some (.ended (.error e), v)
  | .op o k, v => o.attend k (fun b => attend (k b)) v

structure CaptureState where
  session : Session := {}
  sent : List Message := []
  /-- What is left to do of the calls in progress, the innermost first. -/
  executing : List (ExecuteResult → Dap String) := []

inductive CaptureEvent where
  /-- `execute_command_with_output` is called. -/
  | call (command : Command) (suppress : Bool)
  /-- The engine prints a text. -/
  | output (text : String)
  /-- The innermost command returns. -/
  | returned (status : Reply Unit)
  | dispose

/-- What happens, and the result of the call that ends with it. -/
structure CaptureLabel where
  event : CaptureEvent
  result : Option (Except Exn String) := none

namespace CaptureState

/-- Where a call stands after some of its operations. -/
def settle (rest : List (ExecuteResult → Dap String)) :
    Attended String × Attending → Option (Except Exn String) × CaptureState
  | (.ended result, x, sent) => (some result, ⟨x, sent, rest⟩)
  | (.executing k, x, sent) => (none, ⟨x, sent, k :: rest⟩)

/-- The engine prints no empty texts. -/
def step (id : SessionId) (s : CaptureState) :
    CaptureEvent → Option (Option (Except Exn String) × CaptureState)
  | .call command suppress =>
    (attend (Session.executeCommandWithOutput id command suppress) (s.session, s.sent)).map
      (settle s.executing)
  | .output text =>
    if text.isEmpty then none
    else
      match attend (Session.handleOutputReceived id text) (s.session, s.sent) with
      | some (.ended (.ok ()), x, sent) => some (none, { s with session := x, sent })
      | _ => none
  | .returned status =>
    match s.executing with
    | [] => none
    | rest :: outer => (attend (rest { status }) (s.session, s.sent)).map (settle outer)
  | .dispose => some (none, { s with session := s.session.update .dispose })

def Step (id : SessionId) (s : CaptureState) (l : CaptureLabel) (s' : CaptureState) : Prop :=
  s.step id l.event = some (l.result, s')

/-- Texts are not empty, and what returns was executing. -/
def Allows (s : CaptureState) : CaptureEvent → Prop
  | .output text => text.isEmpty = false
  | .returned _ => s.executing ≠ []
  | _ => True

end CaptureState

/-- The steps of a session, from its beginning. -/
inductive CaptureRun (id : SessionId) : List CaptureLabel → CaptureState → Prop
  | init : CaptureRun id [] {}
  | step {ls : List CaptureLabel} {l : CaptureLabel} {s s' : CaptureState} :
      CaptureRun id ls s → s.Step id l s' → CaptureRun id (ls ++ [l]) s'

/-! ## History -/

/-- A call in progress and the texts received during it. -/
structure CallInProgress where
  suppress : Bool
  received : List String := []

/-- The calls in progress after a step, the innermost first. -/
def CaptureLabel.next (calls : List CallInProgress) : CaptureLabel → List CallInProgress
  | ⟨.call _ suppress, none⟩ => { suppress } :: calls
  | ⟨.output text, _⟩ => calls.map fun c => { c with received := c.received ++ [text] }
  | ⟨.returned _, some _⟩ => calls.tail
  | _ => calls

def inProgress (ls : List CaptureLabel) : List CallInProgress := ls.foldl CaptureLabel.next []

/-- What a step has to forward: a text, unless a call in progress suppresses it. -/
def forwarded (calls : List CallInProgress) : CaptureEvent → List Message
  | .output text =>
    if calls.any CallInProgress.suppress then []
    else [.event (Factory.createOutputEvent text)]
  | _ => []

/-- What a step does while these calls are in progress. -/
structure CaptureLaws (calls : List CallInProgress) (s : CaptureState) (l : CaptureLabel)
    (s' : CaptureState) : Prop where
  /-- A call inside of another one fails and leaves the session alone. -/
  nested : ∀ command suppress, l.event = .call command suppress → calls ≠ [] →
    (∃ e, l.result = some (.error e)) ∧ s'.session = s.session
  /-- A call whose command succeeds returns the texts received during it. -/
  returned : l.event = .returned (.ok ()) → ∃ c, calls = [c] ∧
    l.result = some (.ok (Text.trimEnd (String.join c.received)))
  /-- A call whose command fails fails. -/
  failed : ∀ hr, l.event = .returned (.error hr) → ∃ e, l.result = some (.error e)
  /-- A call that ends at once has failed. -/
  refused : ∀ command suppress result, l.event = .call command suppress →
    l.result = some result → ∃ e, result = .error e
  forwards : s'.sent = s.sent ++ forwarded calls l.event

/-! ## The methods -/

section

variable {id : SessionId} {α β : Type}

@[simp] theorem attend_ret (a : α) (v : Attending) : attend (.ret a) v = some (.ended (.ok a), v) :=
  rfl

@[simp] theorem attend_throw (e : Exn) (v : Attending) :
    attend (.throw e : Dap α) v = some (.ended (.error e), v) := rfl

@[simp] theorem attend_readSession (f : Session → Dap α) (v : Attending) :
    attend ((readSession id).bind f) v = attend (f v.1) v := rfl

@[simp] theorem attend_updateSession (u : SessionUpdate) (f : Unit → Dap α) (v : Attending) :
    attend ((updateSession id u).bind f) v = attend (f ()) (v.1.update u, v.2) := rfl

@[simp] theorem attend_readSession_catching (f : Session → Dap α) (h : Exn → Dap α)
    (v : Attending) : attend (((readSession id).bind f).catching h) v =
      attend ((f v.1).catching h) v := rfl

/-- The result of a call when its command has returned. -/
def commandResult (command : Command) (x : Session) : Reply Unit → Except Exn String
  | .ok () => .ok ((x.outputCapture.map Text.trimEnd).getD "")
  | .error hr => .error (.runtime
      ("Could not execute debugger command '" ++ command.render ++ "'" ++ ". HRESULT=0x" ++
        Text.hex08 hr))

/-- The rest of a call ends the capture and returns. -/
def Finishes (command : Command) (rest : ExecuteResult → Dap String) : Prop :=
  ∀ status x sent, attend (rest { status }) (x, sent) =
    some (.ended (commandResult command x status), x.update .endCapture, sent)

/-- Where a command is executed, the rest looks at its status. -/
theorem attend_executeDebuggerCommand (command : Command) (message : String) {v : Attending}
    (hv : v.1.disposed = false) (f : Unit → Dap String) (h : Exn → Dap String) : ∃ rest,
    attend (((Session.executeDebuggerCommand id command message).bind f).catching h) v =
      some (.executing rest, v) ∧
    ∀ status, rest { status } = ((Session.checkHr status message).bind f).catching h := by
  rw [Session.executeDebuggerCommand, Session.throwIfDisposed, Session.execute]
  simp only [Prog.bind_eq, Prog.bind_assoc, attend_readSession_catching, hv, Bool.false_eq_true,
    if_false, Prog.pure_eq, Prog.ret_bind]
  split
  · exact ⟨_, rfl, fun _ => rfl⟩
  · exact ⟨_, rfl, fun _ => rfl⟩

/-- A call is refused, or begins a capture where there is none. -/
theorem attend_call (command : Command) (suppress : Bool) (x : Session) (sent : List Message) :
    (∃ e, attend (Session.executeCommandWithOutput id command suppress) (x, sent) =
      some (.ended (.error e), x, sent)) ∨
    (x.outputCapture = none ∧ ∃ rest, Finishes command rest ∧
      attend (Session.executeCommandWithOutput id command suppress) (x, sent) =
        some (.executing rest, x.update (.beginCapture suppress), sent)) := by
  by_cases hdisposed : x.disposed = true
  · refine .inl ⟨.runtime "debugger_session has been disposed.", ?_⟩
    simp [Session.executeCommandWithOutput, Session.throwIfDisposed, Prog.bind_assoc, hdisposed,
      throwRuntime]
  by_cases hblank : command.render.toList.all Text.isSpace = true
  · refine .inl ⟨.runtime "command must not be null or whitespace.", ?_⟩
    simp [Session.executeCommandWithOutput, Session.throwIfDisposed,
      Session.throwIfNullOrWhitespace, Prog.bind_assoc, hdisposed, hblank, throwRuntime]
  by_cases hcapture : x.outputCapture.isSome = true
  · refine .inl ⟨.runtime "A debugger output capture is already in progress.", ?_⟩
    simp [Session.executeCommandWithOutput, Session.throwIfDisposed, Session.beginOutputCapture,
      Session.throwIfNullOrWhitespace, Prog.bind_assoc, hdisposed, hblank, hcapture, throwRuntime]
  have hbegun : (x.update (.beginCapture suppress)).disposed = false := by
    simpa [Session.update] using hdisposed
  obtain ⟨rest, hrest, hfinish⟩ := @attend_executeDebuggerCommand id command
    ("Could not execute debugger command '" ++ command.render ++ "'")
    (x.update (.beginCapture suppress), sent) hbegun (fun _ => Session.endOutputCapture id)
    fun e => (Session.discardOutputCapture id).bind fun _ => .throw e
  refine .inr ⟨by simpa using hcapture, rest, fun status y sent => ?_, ?_⟩
  · rw [hfinish]
    cases status <;> rfl
  · simp [Session.executeCommandWithOutput, Session.throwIfDisposed, Session.beginOutputCapture,
      Session.throwIfNullOrWhitespace, Prog.bind_assoc, hdisposed, hblank, hcapture, throwRuntime,
      hrest]

/-- A text is captured, and forwarded unless a capture suppresses it. -/
theorem attend_output {text : String} (htext : text.isEmpty = false) (x : Session)
    (sent : List Message) :
    attend (Session.handleOutputReceived id text) (x, sent) =
      some (.ended (.ok ()), x.update (.appendCapture text), sent ++
        if x.outputCapture.isNone || !x.suppressCapturedOutputForwarding then
          [.event (Factory.createOutputEvent text)] else []) := by
  simp only [Session.handleOutputReceived, Prog.bind_eq, attend_readSession, attend_updateSession]
  split
  · rw [Session.onOutputReceived, if_neg (by simp [htext])]
    rfl
  · rw [List.append_nil]
    rfl

end

/-! ## Every run -/

section

variable {id : SessionId} {ls : List CaptureLabel} {l : CaptureLabel} {s s' : CaptureState}
  {calls : List CallInProgress}

/-- At most one call is in progress, and a capture is active just as long. -/
inductive Tracks : List CallInProgress → CaptureState → Prop
  | idle {s : CaptureState} (executing : s.executing = [])
      (capture : s.session.outputCapture = none) : Tracks [] s
  | busy {s : CaptureState} {c : CallInProgress} {command : Command}
      {rest : ExecuteResult → Dap String} (executing : s.executing = [rest])
      (finishes : Finishes command rest)
      (capture : s.session.outputCapture = some (String.join c.received))
      (suppress : s.session.suppressCapturedOutputForwarding = c.suppress) : Tracks [c] s

/-- The laws of a call's begin. -/
theorem laws_of_call {command : Command} {suppress : Bool} {result : Option (Except Exn String)}
    (hnested : calls ≠ [] → (∃ e, result = some (.error e)) ∧ s'.session = s.session)
    (hrefused : ∀ r, result = some r → ∃ e, r = .error e) (hsent : s'.sent = s.sent) :
    CaptureLaws calls s ⟨.call command suppress, result⟩ s' where
  nested := fun _ _ _ hne => hnested hne
  returned := by rintro ⟨⟩
  failed := by rintro _ ⟨⟩
  refused := fun _ _ r _ hr => hrefused r hr
  forwards := hsent.trans (List.append_nil _).symm

/-- The laws of a command's return. -/
theorem laws_of_returned {status : Reply Unit} {result : Option (Except Exn String)}
    (hreturned : status = .ok () → ∃ c, calls = [c] ∧
      result = some (.ok (Text.trimEnd (String.join c.received))))
    (hfailed : ∀ hr, status = .error hr → ∃ e, result = some (.error e))
    (hsent : s'.sent = s.sent) : CaptureLaws calls s ⟨.returned status, result⟩ s' where
  nested := by rintro _ _ ⟨⟩
  returned := fun h => hreturned (CaptureEvent.returned.inj h)
  failed := fun hr h => hfailed hr (CaptureEvent.returned.inj h)
  refused := by rintro _ _ _ ⟨⟩
  forwards := hsent.trans (List.append_nil _).symm

/-- The other events only have to forward. -/
theorem laws_of_output {text : String} {result : Option (Except Exn String)}
    (hforwards : s'.sent = s.sent ++ forwarded calls (.output text)) :
    CaptureLaws calls s ⟨.output text, result⟩ s' where
  nested := by rintro _ _ ⟨⟩
  returned := by rintro ⟨⟩
  failed := by rintro _ ⟨⟩
  refused := by rintro _ _ _ ⟨⟩
  forwards := hforwards

theorem laws_of_dispose {result : Option (Except Exn String)} (hsent : s'.sent = s.sent) :
    CaptureLaws calls s ⟨.dispose, result⟩ s' where
  nested := by rintro _ _ ⟨⟩
  returned := by rintro ⟨⟩
  failed := by rintro _ ⟨⟩
  refused := by rintro _ _ _ ⟨⟩
  forwards := hsent.trans (List.append_nil _).symm

theorem Tracks.call {command : Command} {suppress : Bool} {result : Option (Except Exn String)}
    (h : Tracks calls s) (hs : s.Step id ⟨.call command suppress, result⟩ s') :
    Tracks (CaptureLabel.next calls ⟨.call command suppress, result⟩) s' ∧
      CaptureLaws calls s ⟨.call command suppress, result⟩ s' := by
  have hs : (attend (Session.executeCommandWithOutput id command suppress)
    (s.session, s.sent)).map (CaptureState.settle s.executing) = some (result, s') := hs
  rcases @attend_call id command suppress s.session s.sent with
    ⟨e, hrefused⟩ | ⟨hcapture, rest, hfinishes, hbegun⟩
  · rw [hrefused] at hs
    cases hs
    exact ⟨h, laws_of_call (fun _ => ⟨⟨e, rfl⟩, rfl⟩)
      (fun r hr => ⟨e, (Option.some.inj hr).symm⟩) rfl⟩
  · rw [hbegun] at hs
    cases hs
    cases h with
    | idle hexecuting _ =>
      rw [hexecuting]
      exact ⟨.busy rfl hfinishes rfl rfl,
        laws_of_call (fun hne => absurd rfl hne) (fun r hr => nomatch hr) rfl⟩
    | busy _ _ hbusy _ =>
      rw [hcapture] at hbusy
      cases hbusy

theorem Tracks.output {text : String} {result : Option (Except Exn String)}
    (h : Tracks calls s) (hs : s.Step id ⟨.output text, result⟩ s') :
    Tracks (CaptureLabel.next calls ⟨.output text, result⟩) s' ∧
      CaptureLaws calls s ⟨.output text, result⟩ s' := by
  have hs : s.step id (.output text) = some (result, s') := hs
  rw [CaptureState.step] at hs
  split at hs
  · cases hs
  · rename_i htext
    rw [attend_output (by simpa using htext)] at hs
    cases hs
    refine ⟨?_, laws_of_output ?_⟩
    · cases h with
      | idle hexecuting hcapture => exact .idle hexecuting (by simp [Session.update, hcapture])
      | busy hexecuting hfinishes hcapture hsuppress =>
        refine .busy hexecuting hfinishes ?_ hsuppress
        simp [Session.update, hcapture, String.join]
    · cases h with
      | idle _ hcapture => simp [forwarded, hcapture]
      | @busy _ c _ _ _ _ hcapture hsuppress =>
        cases hc : c.suppress <;> simp [forwarded, hcapture, hsuppress, hc]

theorem Tracks.returned {status : Reply Unit} {result : Option (Except Exn String)}
    (h : Tracks calls s) (hs : s.Step id ⟨.returned status, result⟩ s') :
    Tracks (CaptureLabel.next calls ⟨.returned status, result⟩) s' ∧
      CaptureLaws calls s ⟨.returned status, result⟩ s' := by
  have hs : s.step id (.returned status) = some (result, s') := hs
  cases h with
  | idle hexecuting _ =>
    rw [CaptureState.step, hexecuting] at hs
    cases hs
  | @busy _ c command rest hexecuting hfinishes hcapture hsuppress =>
    rw [CaptureState.step, hexecuting] at hs
    simp only [hfinishes status s.session s.sent, Option.map_some, CaptureState.settle] at hs
    cases hs
    refine ⟨.idle rfl rfl, laws_of_returned (fun hok => ⟨c, rfl, ?_⟩) (fun hr hfailed => ?_) rfl⟩
    · subst hok
      simp [commandResult, hcapture]
    · subst hfailed
      exact ⟨_, rfl⟩

theorem Tracks.step (h : Tracks calls s) (hs : s.Step id l s') :
    Tracks (l.next calls) s' ∧ CaptureLaws calls s l s' := by
  obtain ⟨event, result⟩ := l
  cases event with
  | call => exact h.call hs
  | output => exact h.output hs
  | returned => exact h.returned hs
  | dispose =>
    have hs : some (none, { s with session := s.session.update .dispose }) =
      some (result, s') := hs
    cases hs
    refine ⟨?_, laws_of_dispose rfl⟩
    cases h with
    | idle hexecuting hcapture => exact .idle hexecuting hcapture
    | busy hexecuting hfinishes hcapture hsuppress =>
      exact .busy hexecuting hfinishes hcapture hsuppress

/-- Nothing the engine or the adapter does finds the session stuck. -/
theorem Tracks.progress (h : Tracks calls s) {event : CaptureEvent} (he : s.Allows event) :
    ∃ result s', s.Step id ⟨event, result⟩ s' := by
  have hsome : (s.step id event).isSome = true := by
    cases event with
    | call command suppress =>
      rcases @attend_call id command suppress s.session s.sent with
        ⟨e, hrefused⟩ | ⟨-, rest, -, hbegun⟩
      · rw [CaptureState.step, hrefused]
        rfl
      · rw [CaptureState.step, hbegun]
        rfl
    | output text =>
      have he : text.isEmpty = false := he
      rw [CaptureState.step, if_neg (by simp [he]), attend_output he]
      rfl
    | returned status =>
      cases h with
      | idle hexecuting _ => exact absurd hexecuting he
      | busy hexecuting hfinishes _ _ =>
        simp only [CaptureState.step, hexecuting, hfinishes status s.session s.sent]
        rfl
    | dispose => rfl
  obtain ⟨⟨result, s'⟩, hs⟩ := Option.isSome_iff_exists.1 hsome
  exact ⟨result, s', hs⟩

/-- **Captures.**  When no call is in progress no capture is active; what may happen finds the
session ready for it, and every step obeys the laws. -/
theorem capture_run (hr : CaptureRun id ls s) :
    (inProgress ls = [] → s.session.outputCapture = none) ∧
      (∀ event, s.Allows event → ∃ result s', s.Step id ⟨event, result⟩ s') ∧
        ∀ l s', s.Step id l s' → CaptureLaws (inProgress ls) s l s' := by
  have htracks : Tracks (inProgress ls) s := by
    induction hr with
    | init => exact .idle rfl rfl
    | step _ hs ih =>
      rw [inProgress, List.foldl_append]
      exact (ih.step hs).1
  refine ⟨fun hidle => ?_, fun event he => htracks.progress he, fun l s' hs => (htracks.step hs).2⟩
  rw [hidle] at htracks
  cases htracks with
  | idle _ hcapture => exact hcapture

end

/-- A command prints a text, another one is called from there, and the command returns. -/
theorem nested_call_refused : ∃ (ls : List CaptureLabel) (s s' : CaptureState) (e : Exn),
    CaptureRun 0 ls s ∧
      s.Step 0 ⟨.call .lines true, some (.error e)⟩ s' ∧ s'.session = s.session ∧
        ∃ s'', s'.Step 0 ⟨.returned (.ok ()), some (.ok "text")⟩ s'' ∧
          s''.session.outputCapture = none ∧ s''.sent.length = 1 := by
  have hr : CaptureRun 0 _ _ := .step (l := ⟨.output "text\n", none⟩)
    (.step (l := ⟨.call .lines false, none⟩) .init rfl) rfl
  have hnested := (capture_run hr).2.2 ⟨.call .lines true, some (.error _)⟩ _ rfl
  refine ⟨_, _, _, _, hr, rfl, (hnested.nested _ _ rfl (by decide)).2, _, rfl, rfl, rfl⟩

end DapDbgeng
