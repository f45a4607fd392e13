/-
  What the client is told of the end of a session, and who may tell it.

  The end is reported from four places: process exit, session end, terminate and disconnect.
  Main definitions:

  * `EndPhase`: what the messages sent so far say about the end, `wrong` once they contradict it;
  * `EndLog`: the command being served, and the end callback in progress;
  * `keepsEnd`: no session ends twice, and none ends under a request that is about to report;
  * `endOutline`: what the threads rely on, and what holds between their steps.
-/
import DapDbgeng.ThreadEvents
import Mathlib.Data.List.Induction

namespace DapDbgeng

open Concurrent Concurrent.Prog

/-! ## What the client is told -/

inductive EndPhase where
  /-- Nothing about the end. -/
  | alive
  /-- The process has exited. -/
  | left
  /-- The session is over. -/
  | ended
  /-- A second exit or end, or a report after the end. -/
  | wrong
  deriving DecidableEq

def EndPhase.next : EndPhase → Message → EndPhase
  | .alive, .event (.exited _) => .left
  | .alive, .event .terminated | .left, .event .terminated => .ended
  | .left, .event (.exited _) => .wrong
  | .ended, .event e => if e.isReport then .wrong else .ended
  | phase, _ => phase

/-- What messages say about the end. -/
def endPhase (messages : List Message) : EndPhase := messages.foldl EndPhase.next .alive

def Message.isExited : Message → Bool
  | .event (.exited _) => true
  | _ => false

def Message.isTerminated : Message → Bool
  | .event .terminated => true
  | _ => false

/-- At most one exit and at most one end, and no report after the end: no second end, no exit, no
stop, no continuation and no thread. -/
structure EndsInOrder (messages : List Message) : Prop where
  exited : messages.countP Message.isExited ≤ 1
  terminated : messages.countP Message.isTerminated ≤ 1
  after : ∀ before after, messages = before ++ .event .terminated :: after →
    ∀ m ∈ after, m.isReport = false

/-- The phase tells how many exits and ends there were. -/
structure EndPhase.Counts (phase : EndPhase) (messages : List Message) : Prop where
  exited : messages.countP Message.isExited ≤ 1
  notExited : phase = .alive → messages.countP Message.isExited = 0
  terminated : messages.countP Message.isTerminated = if phase = .ended then 1 else 0

theorem endPhase_append (messages : List Message) (m : Message) :
    endPhase (messages ++ [m]) = (endPhase messages).next m := by
  simp [endPhase]

theorem EndPhase.next_wrong (m : Message) : EndPhase.wrong.next m = .wrong := by
  cases m with
  | response r => rfl
  | event e => cases e <;> rfl

theorem EndPhase.next_silent {phase : EndPhase} {m : Message} (h : m.isReport = false) :
    phase.next m = phase := by
  cases m with
  | response r => cases phase <;> rfl
  | event e =>
    have he : e.isReport = false := h
    cases phase with
    | ended => simp [EndPhase.next, he]
    | _ => cases e <;> first | rfl | cases h

theorem foldl_wrong (messages : List Message) :
    messages.foldl EndPhase.next .wrong = .wrong := by
  induction messages with
  | nil => rfl
  | cons m messages ih => rw [List.foldl_cons, EndPhase.next_wrong, ih]

/-- After the end every report is wrong. -/
theorem silent_of_ended {messages : List Message}
    (h : messages.foldl EndPhase.next .ended ≠ .wrong) : ∀ m ∈ messages, m.isReport = false := by
  induction messages with
  | nil => exact fun _ hm => absurd hm List.not_mem_nil
  | cons m messages ih =>
    have hm : m.isReport = false := by
      cases hr : m.isReport with
      | false => rfl
      | true =>
        cases m with
        | response r => cases hr
        | event e =>
          have he : e.isReport = true := hr
          have wrong : EndPhase.ended.next (.event e) = .wrong := by simp [EndPhase.next, he]
          rw [List.foldl_cons, wrong, foldl_wrong] at h
          exact absurd rfl h
    rw [List.foldl_cons, EndPhase.next_silent hm] at h
    exact List.forall_mem_cons.2 ⟨hm, ih h⟩

/-- The end moves every phase to `ended` or is wrong. -/
theorem EndPhase.next_terminated (phase : EndPhase) :
    phase.next (.event .terminated) = .ended ∨ phase.next (.event .terminated) = .wrong := by
  cases phase with
  | alive | left => exact .inl rfl
  | ended | wrong => exact .inr rfl

theorem Message.not_isReport {m : Message} (h : m.isReport = false) :
    m.isExited = false ∧ m.isTerminated = false := by
  cases m with
  | response r => exact ⟨rfl, rfl⟩
  | event e => cases e <;> first | exact ⟨rfl, rfl⟩ | cases h

theorem EndPhase.Counts.next {phase : EndPhase} {messages : List Message} {m : Message}
    (h : phase.Counts messages) (hw : phase.next m ≠ .wrong) :
    (phase.next m).Counts (messages ++ [m]) := by
  obtain ⟨he, hn, ht⟩ := h
  have quiet (hm : m.isExited = false ∧ m.isTerminated = false) (hs : phase.next m = phase) :
      (phase.next m).Counts (messages ++ [m]) := by
    rw [hs]
    refine ⟨?_, fun hp => ?_, ?_⟩
    · simpa [hm.1] using he
    · simpa [hm.1] using hn hp
    · simpa [hm.2] using ht
  have ended {phase : EndPhase} (he : messages.countP Message.isExited ≤ 1)
      (ht : messages.countP Message.isTerminated = 0) (hp : phase = .ended) :
      phase.Counts (messages ++ [.event .terminated]) := by
    subst hp
    refine ⟨?_, nofun, ?_⟩
    · rw [List.countP_append]; exact he
    · rw [List.countP_append, ht]; rfl
  cases hr : m.isReport with
  | false => exact quiet (Message.not_isReport hr) (EndPhase.next_silent hr)
  | true =>
    cases m with
    | response r => cases hr
    | event e =>
      have report : e.isReport = true := hr
      cases phase with
      | wrong => exact absurd (EndPhase.next_wrong _) hw
      | ended => exact absurd (by simp [EndPhase.next, report]) hw
      | alive =>
        cases e with
        | exited code =>
          have one : (messages ++ [Message.event (.exited code)]).countP Message.isExited = 1 := by
            rw [List.countP_append, hn rfl]; rfl
          have same :
              (messages ++ [Message.event (.exited code)]).countP Message.isTerminated = 0 := by
            rw [List.countP_append, ht]; rfl
          exact ⟨one.le, nofun, same⟩
        | terminated => exact ended (hn rfl ▸ Nat.zero_le 1) ht rfl
        | _ => exact quiet ⟨rfl, rfl⟩ rfl
      | left =>
        cases e with
        | exited code => exact absurd rfl hw
        | terminated => exact ended he ht rfl
        | _ => exact quiet ⟨rfl, rfl⟩ rfl

theorem endPhase_counts {messages : List Message} (h : endPhase messages ≠ .wrong) :
    (endPhase messages).Counts messages := by
  induction messages using List.reverseRecOn with
  | nil => exact ⟨by simp, fun _ => rfl, rfl⟩
  | append_singleton messages m ih =>
    rw [endPhase_append] at h ⊢
    refine EndPhase.Counts.next (ih fun hw => ?_) h
    rw [hw] at h
    exact h (EndPhase.next_wrong m)

theorem endsInOrder_of_phase {messages : List Message} (h : endPhase messages ≠ .wrong) :
    EndsInOrder messages := by
  have counts := endPhase_counts h
  refine ⟨counts.exited, ?_, fun before after hsplit => ?_⟩
  · rw [counts.terminated]
    split <;> decide
  · subst hsplit
    have rest :
        after.foldl EndPhase.next ((endPhase before).next (.event .terminated)) ≠ .wrong := by
      simpa [endPhase] using h
    rcases EndPhase.next_terminated (endPhase before) with he | hw
    · rw [he] at rest
      exact silent_of_ended rest
    · rw [hw, foldl_wrong] at rest
      exact absurd rfl rest

/-! ## History -/

def Callback.isExit : Callback → Bool
  | .exitProcess _ => true
  | _ => false

/-- The callbacks that report the end. -/
def Callback.ends : Callback → Bool
  | .exitProcess _ | .noDebuggee | .sessionEnd => true
  | _ => false

/-- The commands that bring a session up. -/
def isStartCommand (command : String) : Bool := command = "launch" || command = "attach"

/-- The commands that report on a session once they have found it there, and those that make it. -/
def isReporting (command : String) : Bool :=
  isStartCommand command || command = "continue" || command = "configurationDone" ||
    command = "disconnect"

/-- The command being served, whether an end callback is in progress, and whether it found a
session to end. -/
structure EndLog where
  command : String := ""
  ends : Bool := false
  ending : Bool := false

def EndLog.record : Lab → Server → EndLog → EndLog
  | .start _ (.request root), _, h => { h with command := Server.requestCommand root }
  | .finish _ (.request _) _, _, h => { h with command := "" }
  | .start _ (.callback _ event _ _), s, h =>
    { h with ends := event.ends, ending := event.ends && s.session.isSome }
  | .finish _ (.callback ..) _, _, h => { h with ends := false, ending := false }
  | _, _, h => h

def Server.endPhase (s : Server) : EndPhase := DapDbgeng.endPhase s.sent

/-- What an operation must not do: take a recorded stop after the end, serve a terminate request
that finds no session after the end, or report the end in a request while a callback runs. -/
def DapOp.keepsEnd (t : Tid) (command : String) : ∀ {β : Type}, DapOp β → β → Server → Bool
  | _, .takePending, some _, s => t != .callback || s.endPhase != .ended
  | _, .session, none, s => t != .request || command != "terminate" || s.endPhase != .ended
  | _, .send m, _, s => t != .request || !m.isTerminated || !s.callbackActive
  | _, _, _, _ => true

def keepsEnd : Lab → Server × EndLog → Bool
  | .start _ (.request root), p =>
    let command := Server.requestCommand root
    (!isReporting command || !p.2.ends) && (!isStartCommand command || p.1.endPhase != .ended)
  | .start _ (.callback _ event _ _), p =>
    !event.ends || !isReporting p.2.command && (!event.isExit || p.1.session.isSome)
  | .op t e, p => e.op.keepsEnd t p.2.command e.result p.1
  | _, _ => true

/-- The adapter with its end log. -/
def endMachine : Machine Tid DapOp Job Exn Bool (Server × EndLog) Answers :=
  adapter.instrument EndLog.record

/-- The adapter with its end log, taking such steps only. -/
def endSystem : System Tid DapOp Job Exn Bool (Server × EndLog) :=
  (adapter.system.instrument EndLog.record).restrict fun l p => keepsEnd l p = true

/-! ## The outline -/

/-- No end can be reported by a callback that starts now, and none is being reported. -/
def EndCalm (p : Server × EndLog) : Prop :=
  isReporting p.2.command = true ∨ p.1.session = none ∧ p.2.ending = false

/-- While messages are taken, an end leaves no session behind, and an exit is followed by the end
within its callback. -/
structure EndSettled (p : Server × EndLog) : Prop where
  ended : p.1.endPhase = .ended → p.2.ending = true ∨ p.1.session = none
  left : p.1.endPhase = .left → p.2.ending = true
  gone : p.2.ending = true → p.1.session = none → p.1.endPhase = .ended

structure EndInv (p : Server × EndLog) : Prop where
  inOrder : p.1.endPhase ≠ .wrong
  settled : p.1.outboundOpen = true → EndSettled p
  ending : p.2.ending = true → p.2.ends = true
  active : p.2.ends = true → p.1.callbackActive = true
  reporting : isReporting p.2.command = true → p.2.ends = false

/-- What the request thread relies on. -/
structure RequestRely (p p' : Server × EndLog) : Prop where
  outboundOpen : p'.1.outboundOpen = p.1.outboundOpen
  command : p'.2.command = p.2.command
  session : p.1.session = none → p'.1.session = none
  calm : EndCalm p → p'.1.endPhase = p.1.endPhase ∧ EndCalm p'

/-- What the callback thread relies on. -/
structure CallbackRely (p p' : Server × EndLog) : Prop where
  outboundOpen : p'.1.outboundOpen = true → p.1.outboundOpen = true
  callbackActive : p'.1.callbackActive = p.1.callbackActive
  ends : p'.2.ends = p.2.ends
  ending : p'.2.ending = p.2.ending
  phase : p.1.callbackActive = true → p'.1.endPhase = p.1.endPhase
  session : p.2.ends = true → p.1.session = none → p'.1.session = none

theorem RequestRely.refl (p : Server × EndLog) : RequestRely p p :=
  ⟨rfl, rfl, id, fun h => ⟨rfl, h⟩⟩

theorem RequestRely.trans {p p' p'' : Server × EndLog} (h : RequestRely p p')
    (h' : RequestRely p' p'') : RequestRely p p'' where
  outboundOpen := h'.outboundOpen.trans h.outboundOpen
  command := h'.command.trans h.command
  session hs := h'.session (h.session hs)
  calm hc := by
    obtain ⟨hp, hc'⟩ := h.calm hc
    obtain ⟨hp', hc''⟩ := h'.calm hc'
    exact ⟨hp'.trans hp, hc''⟩

theorem CallbackRely.refl (p : Server × EndLog) : CallbackRely p p :=
  ⟨id, rfl, rfl, rfl, fun _ => rfl, fun _ => id⟩

theorem CallbackRely.trans {p p' p'' : Server × EndLog} (h : CallbackRely p p')
    (h' : CallbackRely p' p'') : CallbackRely p p'' where
  outboundOpen ho := h.outboundOpen (h'.outboundOpen ho)
  callbackActive := h'.callbackActive.trans h.callbackActive
  ends := h'.ends.trans h.ends
  ending := h'.ending.trans h.ending
  phase ha := (h'.phase (h.callbackActive.trans ha)).trans (h.phase ha)
  session he hs := h'.session (h.ends.trans he) (h.session he hs)

/-- What a callback has done by its end. -/
def EndDone (p : Server × EndLog) : Prop :=
  p.2.ends = true → p.1.session = none ∧ (p.1.outboundOpen = true → p.1.endPhase ≠ .left)

def endOutline : Outline Tid Job Exn Bool (Server × EndLog) where
  Inv := EndInv
  rely
    | .request => RequestRely
    | .callback => CallbackRely
    | _ => fun _ _ => True
  post t j _ p := t = j.thread ∧ (t = .callback → EndDone p)
  rely_refl t p := by
    cases t with
    | request => exact .refl p
    | callback => exact .refl p
    | _ => trivial
  rely_trans {t} _ _ _ h h' := by
    cases t with
    | request => exact h.trans h'
    | callback => exact h.trans h'
    | _ => trivial

/-! ### Operations without a bearing on the end -/

/-- The same messages about the end, the same session. -/
structure SameEnd (s s' : Server) : Prop where
  phase : s'.endPhase = s.endPhase
  session : s'.session = s.session
  outboundOpen : s'.outboundOpen = s.outboundOpen
  callbackActive : s'.callbackActive = s.callbackActive

/-- The reports, and the writes to the session pointer. -/
def DapOp.bearsOnEnd : ∀ {β : Type}, DapOp β → Bool
  | _, .send m => m.isReport
  | _, .setSession _ | _, .takeSession => true
  | _, _ => false

theorem endPhase_send {m : Message} {s s' : Server} (h : s' = if s.outboundOpen then
    { s with sent := s.sent ++ [m] } else s) :
    s'.endPhase = if s.outboundOpen then s.endPhase.next m else s.endPhase := by
  subst h
  split
  · exact endPhase_append s.sent m
  · rfl

/-- Handing an event to the writer that leaves the phase as it is. -/
theorem sameEnd_send {m : Message} {s s' : Server}
    (hs : s' = if s.outboundOpen then { s with sent := s.sent ++ [m] } else s)
    (hnext : s.outboundOpen = true → s.endPhase.next m = s.endPhase) : SameEnd s s' := by
  have phase := endPhase_send hs
  refine ⟨?_, ?_, ?_, ?_⟩
  · rw [phase]
    split
    · rename_i ho
      exact hnext ho
    · rfl
  all_goals (rw [hs]; split <;> rfl)

theorem sem_sameEnd {t : Tid} {β : Type} {o : DapOp β} {s s' : Server} {b : β}
    (ho : o.bearsOnEnd = false) (h : sem t β o s b s') : SameEnd s s' := by
  have same : SameEnd s s := ⟨rfl, rfl, rfl, rfl⟩
  cases o with
  | setSession | takeSession => cases ho
  | send m =>
    have hs := sem_send.1 h
    have hm : m.isReport = false := ho
    have phase : s'.endPhase = s.endPhase := by
      rw [endPhase_send hs, EndPhase.next_silent hm]
      exact ite_self _
    refine ⟨phase, ?_, ?_, ?_⟩ <;> (rw [hs]; split <;> rfl)
  | call id c => obtain ⟨_, _, -, -, rfl⟩ := sem_call h; exact { same with }
  | leave id c => obtain ⟨-, -, _, _, -, rfl⟩ := sem_leave h; exact { same with }
  | enter id c => obtain ⟨_, -, -, -, rfl⟩ := sem_enter.1 h; exact { same with }
  | acquire => obtain ⟨_, -, -, rfl⟩ := sem_acquire.1 h; exact { same with }
  | lockGate => obtain ⟨-, rfl⟩ := sem_lockGate.1 h; exact { same with }
  | joinLoop => obtain ⟨-, rfl⟩ := sem_joinLoop.1 h; exact { same with }
  | _ => obtain ⟨_, h⟩ := h; cases h; exact { same with }

/-- One operation of a thread; the log changes with the jobs only. -/
structure EndStep (t : Tid) {β : Type} (o : DapOp β) (b : β) (p p' : Server × EndLog) : Prop where
  sem : sem t β o p.1 b p'.1
  log : p'.2 = p.2
  keeps : o.keepsEnd t p.2.command b p.1 = true

theorem endStep_of_sem {t : Tid} {β : Type} {o : DapOp β} {b : β} {p p' : Server × EndLog}
    (h : endSystem.sem t β o p b p') : EndStep t o b p p' := ⟨h.1.1, h.1.2, h.2⟩

theorem SameEnd.rely {p p' : Server × EndLog} (hs : SameEnd p.1 p'.1) (hl : p'.2 = p.2) (u : Tid) :
    endOutline.rely u p p' := by
  cases u with
  | request =>
    refine ⟨hs.outboundOpen, by rw [hl], fun h => hs.session.trans h, fun h => ⟨hs.phase, ?_⟩⟩
    unfold EndCalm at h ⊢
    rw [hl, hs.session]
    exact h
  | callback =>
    exact ⟨fun h => hs.outboundOpen ▸ h, hs.callbackActive, by rw [hl], by rw [hl],
      fun _ => hs.phase, fun _ h => hs.session.trans h⟩
  | _ => trivial

theorem SameEnd.inv {p p' : Server × EndLog} (hs : SameEnd p.1 p'.1) (hl : p'.2 = p.2)
    (hi : EndInv p) : EndInv p' where
  inOrder := hs.phase ▸ hi.inOrder
  settled ho := by
    obtain ⟨he, hleft, hg⟩ := hi.settled (hs.outboundOpen ▸ ho)
    refine ⟨?_, ?_, ?_⟩ <;> rw [hs.phase, hl]
    · rw [hs.session]; exact he
    · exact hleft
    · rw [hs.session]; exact hg
  ending := hl ▸ hi.ending
  active := by rw [hl, hs.callbackActive]; exact hi.active
  reporting := hl ▸ hi.reporting

theorem SameEnd.keeps {t : Tid} {p p' : Server × EndLog} (hs : SameEnd p.1 p'.1) (hl : p'.2 = p.2)
    (hi : EndInv p) : endOutline.Keeps t p p' := ⟨hs.inv hl hi, fun u _ => hs.rely hl u⟩

/-! ### What the invariant says -/

section

variable {p : Server × EndLog}

/-- An end callback rules out every request that reports. -/
theorem EndInv.not_endCalm (hi : EndInv p) (h : p.2.ending = true) : ¬EndCalm p := by
  rintro (hc | ⟨-, hc⟩)
  · have := hi.reporting hc
    rw [hi.ending h] at this
    cases this
  · rw [h] at hc
    cases hc

/-- Outside an end callback nothing is being ended. -/
theorem EndInv.not_ending (hi : EndInv p) (h : p.2.ends = false) : p.2.ending = false := by
  cases he : p.2.ending with
  | false => rfl
  | true =>
    rw [hi.ending he] at h
    cases h

/-- Where nothing is being ended and the end has not been reported, nothing has been. -/
theorem EndInv.alive (hi : EndInv p) (h : p.2.ending = false) (hp : p.1.endPhase ≠ .ended)
    (ho : p.1.outboundOpen = true) : p.1.endPhase = .alive := by
  cases hphase : p.1.endPhase with
  | alive => rfl
  | left =>
    have := (hi.settled ho).left hphase
    rw [h] at this
    cases this
  | ended => exact absurd hphase hp
  | wrong => exact absurd hphase hi.inOrder

/-- A session that is there has not ended, unless it is just being ended. -/
theorem EndInv.not_ended (hi : EndInv p) (h : p.2.ending = false) {id : SessionId}
    (hs : p.1.session = some id) (ho : p.1.outboundOpen = true) : p.1.endPhase ≠ .ended := by
  intro hphase
  rcases (hi.settled ho).ended hphase with he | hn
  · rw [h] at he
    cases he
  · rw [hs] at hn
    cases hn

end

end DapDbgeng
