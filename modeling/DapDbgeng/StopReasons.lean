/-
  The reason of a stop.

  A breakpoint or an exception halts the target and records why; the break that follows sends the
  record.  A pause or a step has its stop recorded before the target halts, and an exception leaves
  such a record as it is.

  * `Callback.reason`: why a callback halts the target, given the stop recorded before it;
  * `ReasonLog`: the reason of the halt that has not been reported yet;
  * `keepsReason`: no request records a stop between a halt and its report;
  * `reasonSpec`: the callbacks, by what they know of the log.

  Main result: `stops_for_their_reason`, on every run of such steps.
-/
import DapDbgeng.BreakReports
import DapDbgeng.Permits

namespace DapDbgeng

open Concurrent Concurrent.Prog

/-! ## Reasons -/

/-- Why the target stops, as a stopped event is to say.  Where the engine names no breakpoint, the
ids are left open. -/
structure StopReason where
  reason : StoppedEventBodyReason
  hitBreakpointIds : Option (Option (List Int)) := some none
  deriving DecidableEq

def StopReason.fits (r : StopReason) (reason : StoppedEventBodyReason)
    (hitBreakpointIds : Option (List Int)) : Bool :=
  r.reason == reason && r.hitBreakpointIds.all (· == hitBreakpointIds)

theorem StopReason.fits_self (reason : StoppedEventBodyReason) (ids : Option (List Int)) :
    StopReason.fits ⟨reason, some ids⟩ reason ids = true := by
  simp [fits]

def PendingStoppedEvent.why (p : PendingStoppedEvent) : StopReason :=
  ⟨p.reason, some p.hitBreakpointIds⟩

/-- Why a callback halts the target: a breakpoint is named by the number the engine gives, an
exception is reported as such unless a stop was recorded before. -/
def Callback.reason (hit : Option Nat) (pending : Option PendingStoppedEvent) :
    Callback → Option StopReason
  | .breakpoint => some ⟨.breakpoint, hit.map fun n => some [Factory.toInt32 n]⟩
  | .exception .. | .systemError _ =>
    some ((pending.map PendingStoppedEvent.why).getD { reason := .exception })
  | _ => none

/-- Why a callback halts the target, whatever was recorded before; the adapter's own break-in is an
exception without a reason of its own. -/
def Callback.ownReason (hit : Option Nat) (_ : Option PendingStoppedEvent) :
    Callback → Option StopReason
  | .breakpoint => some ⟨.breakpoint, hit.map fun n => some [Factory.toInt32 n]⟩
  | .exception code _ _ => if code = 0x80000003 then none else some { reason := .exception }
  | _ => none

/-! ## History -/

/-- The callback in progress and the breakpoint the engine names for it, the reason of the halt that
has not been reported, the one being reported, and whether a stopped event said something else. -/
structure ReasonLog where
  event : Option Callback := none
  hit : Option (Option Nat) := none
  halted : Option StopReason := none
  reporting : Option StopReason := none
  wrong : Bool := false

/-- How a reason is told from the breakpoint, the recorded stop and the callback. -/
abbrev Why := Option Nat → Option PendingStoppedEvent → Callback → Option StopReason

/-- What an operation of a callback adds. -/
def DapOp.reasonLog (why : Why) (s : Server) (h : ReasonLog) : ∀ {β : Type}, DapOp β → β → ReasonLog
  | _, .call _ .lastEvent, description =>
    { h with hit := h.hit.or (some (description.bind Session.tryParseBreakpointId)) }
  | _, .store .isExecutionRunning false, _ =>
    { h with
      halted := (h.event.bind (why h.hit.join s.pendingStoppedEvent)).or h.halted }
  | _, .clearPending, _ => { h with halted := none }
  | _, .takePending, _ => { h with halted := none, reporting := h.halted }
  | _, .send (.event (.stopped body)), _ =>
    { h with
      wrong := h.wrong ||
        h.reporting.any fun reason => !reason.fits body.reason body.hitBreakpointIds }
  | _, _, _ => h

def DapOp.clears : ∀ {β : Type}, DapOp β → Bool
  | _, .clearPending => true
  | _, _ => false

def DapOp.recordsStop : ∀ {β : Type}, DapOp β → Bool
  | _, .setPending _ => true
  | _, _ => false

def ReasonLog.record (why : Why) : Lab → Server → ReasonLog → ReasonLog
  | .start _ (.callback _ event _ _), _, h =>
    { h with event := some event, hit := none, reporting := none }
  | .finish _ (.callback ..) _, _, h => { h with event := none }
  | .op t e, s, h =>
    if t = .callback then e.op.reasonLog why s h e.result
    else if e.op.clears then { h with halted := none } else h
  | _, _, h => h

/-- No request records a stop between a halt and its report. -/
def keepsReason : Lab → Server × ReasonLog → Bool
  | .op t e, p => t == .callback || !e.op.recordsStop || p.2.halted.isNone
  | _, _ => true

/-- The adapter with its log of reasons. -/
def reasonMachine (why : Why) : Machine Tid DapOp Job Exn Bool (Server × ReasonLog) Answers :=
  adapter.instrument (ReasonLog.record why)

/-- The adapter with its log of reasons, taking such steps only. -/
def reasonSystem : System Tid DapOp Job Exn Bool (Server × ReasonLog) :=
  (adapter.system.instrument (ReasonLog.record Callback.reason)).restrict fun l p =>
    keepsReason l p = true

/-! ## The outline -/

/-- The halt that has not been reported is the one recorded. -/
def Recorded (p : Server × ReasonLog) : Prop :=
  ∀ reason ∈ p.2.halted, ∃ q ∈ p.1.pendingStoppedEvent,
    reason.fits q.reason q.hitBreakpointIds = true

structure ReasonInv (p : Server × ReasonLog) : Prop where
  right : p.2.wrong = false
  recorded : p.1.callbackActive = false → Recorded p

/-- What the other threads do while a callback is in progress: they may drop the record. -/
structure ReasonRely (p p' : Server × ReasonLog) : Prop where
  active : p'.1.callbackActive = p.1.callbackActive
  event : p'.2.event = p.2.event
  hit : p'.2.hit = p.2.hit
  reporting : p'.2.reporting = p.2.reporting
  halted : p'.2.halted = none ∨
    p'.2.halted = p.2.halted ∧ p'.1.pendingStoppedEvent = p.1.pendingStoppedEvent

theorem ReasonRely.refl (p : Server × ReasonLog) : ReasonRely p p :=
  ⟨rfl, rfl, rfl, rfl, .inr ⟨rfl, rfl⟩⟩

theorem ReasonRely.trans {p p' p'' : Server × ReasonLog} (h : ReasonRely p p')
    (h' : ReasonRely p' p'') : ReasonRely p p'' where
  active := h'.active.trans h.active
  event := h'.event.trans h.event
  hit := h'.hit.trans h.hit
  reporting := h'.reporting.trans h.reporting
  halted := by
    obtain hnone | ⟨hhalted, hpending⟩ := h'.halted
    · exact .inl hnone
    · rw [hhalted, hpending]
      exact h.halted

theorem Recorded.rely {p p' : Server × ReasonLog} (h : Recorded p) (hr : ReasonRely p p') :
    Recorded p' := by
  intro reason hreason
  obtain hnone | ⟨hhalted, hpending⟩ := hr.halted
  · rw [hnone] at hreason
    cases hreason
  · rw [hhalted] at hreason
    rw [hpending]
    exact h reason hreason

def reasonOutline : Outline Tid Job Exn Bool (Server × ReasonLog) where
  Inv := ReasonInv
  rely
    | .callback => ReasonRely
    | _ => fun _ _ => True
  post t j _ p := t = j.thread ∧ (t = .callback → Recorded p)
  rely_refl t p := by cases t <;> first | exact .refl p | trivial
  rely_trans {t} _ _ _ h h' := by cases t <;> first | exact h.trans h' | trivial

/-- The operations that touch the recorded stop. -/
def DapOp.touchesPending : ∀ {β : Type}, DapOp β → Bool
  | _, .setPending _ | _, .clearPending | _, .takePending => true
  | _, _ => false

def DapOp.takesPending : ∀ {β : Type}, DapOp β → Bool
  | _, .takePending => true
  | _, _ => false

theorem DapOp.touchesPending_eq_false {β : Type} (o : DapOp β) (hr : o.recordsStop = false)
    (hc : o.clears = false) (ht : o.takesPending = false) : o.touchesPending = false := by
  cases o with
  | setPending => cases hr
  | clearPending => cases hc
  | takePending => cases ht
  | _ => rfl

/-- No operation begins or ends a callback, and few touch the recorded stop. -/
theorem sem_pending {t : Tid} {β : Type} {o : DapOp β} {s s' : Server} {b : β}
    (h : sem t β o s b s') : s'.callbackActive = s.callbackActive ∧
      (o.touchesPending = false → s'.pendingStoppedEvent = s.pendingStoppedEvent) := by
  cases o with
  | setPending => rw [sem_setPending.1 h]; exact ⟨rfl, nofun⟩
  | clearPending => rw [sem_clearPending.1 h]; exact ⟨rfl, nofun⟩
  | takePending => obtain ⟨-, rfl⟩ := sem_takePending.1 h; exact ⟨rfl, nofun⟩
  | send m => rw [sem_send.1 h]; split <;> exact ⟨rfl, fun _ => rfl⟩
  | call id c => obtain ⟨_, _, -, -, rfl⟩ := sem_call h; exact ⟨rfl, fun _ => rfl⟩
  | leave id c => obtain ⟨-, -, _, _, -, rfl⟩ := sem_leave h; exact ⟨rfl, fun _ => rfl⟩
  | enter id c => obtain ⟨_, -, -, -, rfl⟩ := sem_enter.1 h; exact ⟨rfl, fun _ => rfl⟩
  | acquire => obtain ⟨_, -, -, rfl⟩ := sem_acquire.1 h; exact ⟨rfl, fun _ => rfl⟩
  | lockGate => obtain ⟨-, rfl⟩ := sem_lockGate.1 h; exact ⟨rfl, fun _ => rfl⟩
  | joinLoop => obtain ⟨-, rfl⟩ := sem_joinLoop.1 h; exact ⟨rfl, fun _ => rfl⟩
  | _ => obtain ⟨_, h⟩ := h; cases h; exact ⟨rfl, fun _ => rfl⟩

section

variable {t : Tid} {p p' : Server × ReasonLog} {β : Type}

/-- What another thread than the callbacks' does. -/
theorem reasonRely_of_sem (o : DapOp β) {b : β} (ht : t ≠ .callback)
    (htake : o.takesPending = false) (h : reasonSystem.sem t β o p b p') :
    ReasonRely p p' ∧ p'.2.wrong = p.2.wrong := by
  obtain ⟨⟨hs, hl⟩, hk⟩ := h
  have hl : p'.2 = if o.clears then { p.2 with halted := none } else p.2 := by
    rw [hl]
    exact if_neg ht
  have hk : (!o.recordsStop || p.2.halted.isNone) = true := by
    have hk : (t == .callback || !o.recordsStop || p.2.halted.isNone) = true := hk
    simpa [ht] using hk
  obtain ⟨hactive, hpending⟩ := sem_pending hs
  cases hc : o.clears with
  | true =>
    rw [hc, if_pos rfl] at hl
    exact ⟨⟨hactive, by rw [hl], by rw [hl], by rw [hl], .inl (by rw [hl])⟩, by rw [hl]⟩
  | false =>
    rw [hc, if_neg Bool.false_ne_true] at hl
    refine ⟨⟨hactive, by rw [hl], by rw [hl], by rw [hl], ?_⟩, by rw [hl]⟩
    rw [hl]
    cases hr : o.recordsStop with
    | true => exact .inl (by simpa [hr] using hk)
    | false => exact .inr ⟨rfl, hpending (o.touchesPending_eq_false hr hc htake)⟩

theorem reasonKeeps (o : DapOp β) {b : β} (ht : t ≠ .callback) (htake : o.takesPending = false)
    (hi : ReasonInv p) (h : reasonSystem.sem t β o p b p') : reasonOutline.Keeps t p p' := by
  obtain ⟨hrely, hwrong⟩ := reasonRely_of_sem o ht htake h
  refine ⟨⟨hwrong.trans hi.right, fun ha => ?_⟩, fun u _ => ?_⟩
  · exact (hi.recorded (hrely.active ▸ ha)).rely hrely
  · cases u with
    | callback => exact hrely
    | _ => trivial

end

/-! ## The callbacks -/

/-- What a callback knows: the callback and the breakpoint, why the target has halted and what is
recorded then, and what is reported. -/
structure ReasonView where
  event : Callback
  hit : Option (Option Nat) := none
  halted : Option StopReason := none
  pending : Option PendingStoppedEvent := none
  reporting : Option StopReason := none

namespace ReasonView

/-- The record may have been dropped. -/
structure Sees (v : ReasonView) (p : Server × ReasonLog) : Prop where
  active : p.1.callbackActive = true
  event : p.2.event = some v.event
  hit : p.2.hit = v.hit
  reporting : p.2.reporting = v.reporting
  halted : p.2.halted = none ∨
    p.2.halted = v.halted ∧ p.1.pendingStoppedEvent = v.pending

theorem Sees.rely {v : ReasonView} {p p' : Server × ReasonLog} (h : v.Sees p)
    (hr : ReasonRely p p') : v.Sees p' where
  active := hr.active.trans h.active
  event := hr.event.trans h.event
  hit := hr.hit.trans h.hit
  reporting := hr.reporting.trans h.reporting
  halted := by
    obtain hnone | ⟨hhalted, hpending⟩ := hr.halted
    · exact .inl hnone
    · rw [hhalted, hpending]
      exact h.halted

/-- The callback halts the target. -/
def halt (v : ReasonView) (pending : Option PendingStoppedEvent) : ReasonView :=
  match v.event.reason v.hit.join pending with
  | some reason => { v with halted := some reason, pending }
  | none => v

/-- The halt is recorded. -/
def Settled (v : ReasonView) : Prop :=
  ∀ reason ∈ v.halted, ∃ q ∈ v.pending, reason.fits q.reason q.hitBreakpointIds = true

theorem Sees.recorded {v : ReasonView} {p : Server × ReasonLog} (h : v.Sees p) (hv : v.Settled) :
    Recorded p := by
  intro reason hreason
  obtain hnone | ⟨hhalted, hpending⟩ := h.halted
  · rw [hnone] at hreason
    cases hreason
  · rw [hhalted] at hreason
    rw [hpending]
    exact hv reason hreason

end ReasonView

def reasonPre : ∀ {β : Type}, DapOp β → (β → ReasonView → Prop) → ReasonView → Prop
  | _, .call _ .lastEvent => fun K v => ∀ description, K description
    { v with hit := v.hit.or (some (description.bind Session.tryParseBreakpointId)) }
  | _, .store .isExecutionRunning false => fun K v => ∀ pending, K () (v.halt pending)
  | _, .setPending p => fun K v => K () { v with pending := some p }
  | _, .clearPending => fun K v => K () { v with halted := none }
  | _, .takePending => fun K v => (∀ r, K r { v with halted := none, reporting := none }) ∧
    K v.pending { v with halted := none, reporting := v.halted }
  | _, .hasPending => fun K v => (∀ b, K b { v with halted := none }) ∧ K v.pending.isSome v
  | _, .send (.event (.stopped body)) => fun K v =>
    (∀ reason ∈ v.reporting, reason.fits body.reason body.hitBreakpointIds = true) ∧ K () v
  | _, _ => fun K v => ∀ b, K b v

def reasonSpec : Spec DapOp ReasonView where
  pre := reasonPre
  mono o K K' hK v h := by
    cases o with
    | call id c => cases c <;> exact fun b => hK _ _ (h b)
    | store f b =>
      cases f with
      | isExecutionRunning =>
        cases b with
        | false => exact fun pending => hK _ _ (h pending)
        | true => exact fun b => hK _ _ (h b)
      | _ => exact fun b => hK _ _ (h b)
    | setPending | clearPending => exact hK _ _ h
    | takePending => exact ⟨fun r => hK _ _ (h.1 r), hK _ _ h.2⟩
    | hasPending => exact ⟨fun b => hK _ _ (h.1 b), hK _ _ h.2⟩
    | send m =>
      cases m with
      | response => exact fun b => hK _ _ (h b)
      | event e => cases e <;> first | exact ⟨h.1, hK _ _ h.2⟩ | exact fun b => hK _ _ (h b)
    | _ => exact fun b => hK _ _ (h b)

/-- A step of a callback. -/
theorem reasonPre_step {β : Type} (o : DapOp β) {K : β → ReasonView → Prop} {v : ReasonView}
    {p p' : Server × ReasonLog} {b : β} (hv : v.Sees p) (hw : reasonSpec.pre o K v)
    (hs : sem .callback β o p.1 b p'.1)
    (hl : p'.2 = o.reasonLog Callback.reason p.1 p.2 b) :
    ∃ v' : ReasonView, v'.Sees p' ∧ K b v' ∧ p'.2.wrong = p.2.wrong := by
  obtain ⟨hactive, hpending⟩ := sem_pending hs
  -- an operation the log says nothing of
  have silent (hlog : p'.2 = p.2) (ho : o.touchesPending = false) (hk : K b v) :
      ∃ v' : ReasonView, v'.Sees p' ∧ K b v' ∧ p'.2.wrong = p.2.wrong := by
    refine ⟨v, hv.rely ⟨hactive, by rw [hlog], by rw [hlog], by rw [hlog], .inr ⟨by rw [hlog], ?_⟩⟩,
      hk, by rw [hlog]⟩
    exact hpending ho
  cases o with
  | setPending q =>
    have hl : p'.2 = p.2 := hl
    refine ⟨{ v with pending := some q }, ⟨?_, ?_, ?_, ?_, ?_⟩, hw, by rw [hl]⟩
    · exact hactive.trans hv.active
    · rw [hl]; exact hv.event
    · rw [hl]; exact hv.hit
    · rw [hl]; exact hv.reporting
    · rw [hl, sem_setPending.1 hs]
      exact hv.halted.imp id fun h => ⟨h.1, rfl⟩
  | clearPending =>
    have hl : p'.2 = { p.2 with halted := none } := hl
    refine ⟨{ v with halted := none }, ⟨?_, ?_, ?_, ?_, .inl (by rw [hl])⟩, hw, by rw [hl]⟩
    · exact hactive.trans hv.active
    · rw [hl]; exact hv.event
    · rw [hl]; exact hv.hit
    · rw [hl]; exact hv.reporting
  | takePending =>
    have hl : p'.2 = { p.2 with halted := none, reporting := p.2.halted } := hl
    have taken (reporting : Option StopReason) (h : p.2.halted = reporting) :
        ReasonView.Sees { v with halted := none, reporting } p' := by
      refine ⟨hactive.trans hv.active, ?_, ?_, ?_, .inl (by rw [hl])⟩
      · rw [hl]; exact hv.event
      · rw [hl]; exact hv.hit
      · rw [hl]; exact h
    obtain hnone | ⟨hhalted, hrecorded⟩ := hv.halted
    · exact ⟨_, taken none hnone, hw.1 b, by rw [hl]⟩
    · refine ⟨_, taken v.halted hhalted, ?_, by rw [hl]⟩
      rw [(sem_takePending.1 hs).1, hrecorded]
      exact hw.2
  | hasPending =>
    have hl : p'.2 = p.2 := hl
    have hb := (sem_hasPending.1 hs).1
    obtain hnone | ⟨hhalted, hrecorded⟩ := hv.halted
    · refine ⟨{ v with halted := none }, ⟨?_, ?_, ?_, ?_, .inl ?_⟩, hw.1 b, by rw [hl]⟩
      · exact hactive.trans hv.active
      · rw [hl]; exact hv.event
      · rw [hl]; exact hv.hit
      · rw [hl]; exact hv.reporting
      · rw [hl]; exact hnone
    · refine silent hl rfl ?_
      rw [hb, hrecorded]
      exact hw.2
  | send m =>
    cases m with
    | response r => exact silent hl rfl (hw b)
    | event e =>
      cases e with
      | stopped body =>
        have hsame : (p.2.reporting.any fun reason =>
            !reason.fits body.reason body.hitBreakpointIds) = false := by
          rw [hv.reporting]
          cases hreporting : v.reporting with
          | none => rfl
          | some reason => simp [hw.1 reason hreporting]
        have hl : p'.2 = { p.2 with
          wrong := p.2.wrong || p.2.reporting.any fun reason =>
            !reason.fits body.reason body.hitBreakpointIds } := hl
        refine silent ?_ rfl hw.2
        rw [hl, hsame, Bool.or_false]
      | _ => exact silent hl rfl (hw b)
  | call id c =>
    cases c with
    | lastEvent =>
      have hl : p'.2 = { p.2 with
        hit := p.2.hit.or (some (b.bind Session.tryParseBreakpointId)) } := hl
      refine ⟨_, ⟨?_, ?_, ?_, ?_, ?_⟩, hw b, by rw [hl]⟩
      · exact hactive.trans hv.active
      · rw [hl]; exact hv.event
      · rw [hl, hv.hit]
      · rw [hl]; exact hv.reporting
      · rw [hl, hpending rfl]; exact hv.halted
    | _ => exact silent hl rfl (hw b)
  | store f value =>
    cases f with
    | isExecutionRunning =>
      cases value with
      | true => exact silent hl rfl (hw b)
      | false =>
        have hl : p'.2 = { p.2 with halted := (p.2.event.bind
          (Callback.reason p.2.hit.join p.1.pendingStoppedEvent)).or p.2.halted } := hl
        rw [hv.event, hv.hit, Option.bind_some] at hl
        refine ⟨v.halt p.1.pendingStoppedEvent, ?_, hw _, by rw [hl]⟩
        rw [ReasonView.halt]
        split
        · rename_i reason hreason
          rw [hreason, Option.some_or] at hl
          refine ⟨hactive.trans hv.active, ?_, ?_, ?_, .inr ⟨by rw [hl], hpending rfl⟩⟩
          · rw [hl]; exact hv.event
          · rw [hl]; exact hv.hit
          · rw [hl]; exact hv.reporting
        · rename_i hreason
          rw [hreason, Option.none_or] at hl
          exact hv.rely ⟨hactive, by rw [hl], by rw [hl], by rw [hl],
            .inr ⟨by rw [hl], hpending rfl⟩⟩
    | _ => exact silent hl rfl (hw b)
  | _ => exact silent hl rfl (hw b)

/-- What a callback establishes of its view holds under the outline. -/
theorem reasonPre_outline {β : Type} (o : DapOp β) {K : β → ReasonView → Prop} {v : ReasonView}
    {p : Server × ReasonLog} (hv : v.Sees p) (hw : reasonSpec.pre o K v) :
    (reasonOutline.spec reasonSystem .callback).pre o (fun b p' => ∃ v' : ReasonView,
      v'.Sees p' ∧ K b v') p := by
  intro b p' hi h
  obtain ⟨⟨hs, hl⟩, -⟩ := h
  obtain ⟨v', hv', hK, hwrong⟩ := reasonPre_step o hv hw hs hl
  refine ⟨⟨⟨hwrong.trans hi.right, fun ha => ?_⟩, fun u hu => ?_⟩,
    fun p'' hr _ => ⟨v', hv'.rely hr, hK⟩⟩
  · rw [hv'.active] at ha
    cases ha
  · cases u with
    | callback => exact absurd rfl hu
    | _ => trivial

/-! ## What the callbacks do -/

/-- The operations that record, report and halt nothing. -/
def DapOp.idle (halts : Bool) : ∀ {β : Type}, DapOp β → Prop
  | _, .setPending _ | _, .takePending | _, .send (.event (.stopped _)) => False
  | _, .store .isExecutionRunning false => halts = false
  | _, _ => True

/-- What idle operations keep. -/
structure ReasonView.Kept (v w : ReasonView) : Prop where
  event : w.event = v.event
  hit : ∀ n, v.hit = some n → w.hit = some n
  reporting : w.reporting = v.reporting
  unhalted : v.halted = none → w.halted = none
  settled : v.Settled → w.Settled

theorem ReasonView.Kept.refl (v : ReasonView) : v.Kept v :=
  ⟨rfl, fun _ h => h, rfl, fun h => h, fun h => h⟩

section

variable {α : Type} {halts : Bool}

theorem idle_view (halts : Bool) {v : ReasonView}
    (hv : halts = false → ∀ hit pending, v.event.reason hit pending = none)
    {p : Dap α} (h : AllOps (DapOp.idle halts) p) :
    p.wp reasonSpec (fun _ w => v.Kept w) (fun _ w => v.Kept w) v := by
  have dropped {w : ReasonView} (hw : v.Kept w) : v.Kept { w with halted := none } :=
    { hw with unhalted := fun _ => rfl, settled := fun _ => nofun }
  refine wp_of_allOps (I := fun w => v.Kept w) (fun {β} o ho w hw => ?_) h (.refl v)
  cases o with
  | setPending | takePending => exact ho.elim
  | clearPending => exact dropped hw
  | hasPending => exact ⟨fun _ => dropped hw, hw⟩
  | call id c =>
    cases c with
    | lastEvent => exact fun _ => { hw with hit := fun n hn => by rw [hw.hit n hn]; rfl }
    | _ => exact fun _ => hw
  | store f b =>
    cases f with
    | isExecutionRunning =>
      cases b with
      | true => exact fun _ => hw
      | false =>
        intro pending
        have hnone : w.event.reason w.hit.join pending = none := by rw [hw.event]; exact hv ho _ _
        rw [ReasonView.halt, hnone]
        exact hw
    | _ => exact fun _ => hw
  | send m =>
    cases m with
    | response => exact fun _ => hw
    | event e => cases e <;> first | exact fun _ => hw | exact ho.elim
  | _ => exact fun _ => hw

theorem idle_of_neutral {p : Dap α} (h : Neutral p) : AllOps (DapOp.idle halts) p := by
  refine h.mono fun {β} o ho => ?_
  cases o with
  | send m =>
    cases m with
    | response => trivial
    | event e => cases e <;> trivial
  | store f b =>
    cases f <;> trivial
  | setPending | takePending => exact ho.elim
  | _ => trivial

namespace Server

variable {id : SessionId}

theorem autoContinue_idle : AllOps (DapOp.idle halts) (autoContinue id) :=
  .bind (idle_of_neutral resetSuspendedState_neutral) fun _ => .bind (.perform trivial) fun _ =>
    .bind (.perform trivial) fun _ => .bind (.perform trivial) fun _ =>
      .bind (.perform trivial) fun _ => idle_of_neutral (continue_neutral id)

theorem tryAutoContinueConditionalBreakpointHit_idle (breakpointId : Nat) :
    AllOps (DapOp.idle halts) (tryAutoContinueConditionalBreakpointHit id breakpointId) := by
  refine .bind (.perform trivial) fun d => ?_
  cases d.conditionalBreakpointConditionsById.get? (Factory.toInt32 breakpointId) with
  | none => trivial
  | some condition =>
    exact .bind (idle_of_neutral (tryEvaluateConditionalBreakpoint_neutral id condition)) fun _ =>
      .ite trivial (.bind autoContinue_idle fun _ => trivial)

theorem tryAutoContinueKernelInitialBreak_idle :
    AllOps (DapOp.idle halts) (tryAutoContinueKernelInitialBreak id) :=
  .bind (.perform trivial) fun _ => .ite trivial <| .bind (.perform trivial) fun _ =>
    .ite trivial <| .bind (.perform trivial) fun _ => .bind autoContinue_idle fun _ => trivial

/-- A halt and its record. -/
theorem recordStop_view {v : ReasonView} {record : Dap Unit} (hv : v.Settled)
    (hhalts : ∀ pending, (v.event.reason v.hit.join pending).isSome = true)
    (h : ∀ pending reason, v.event.reason v.hit.join pending = some reason →
      record.wp reasonSpec (fun _ w => w.Settled) (fun _ w => w.Settled)
        { v with halted := some reason, pending }) :
    (recordStop record).wp reasonSpec (fun _ w => w.Settled) (fun _ w => w.Settled) v := by
  intro running
  change (if (!running) = true then _ else _ : Dap Unit).wp _ _ _ _
  split
  · exact hv
  · intro pending
    obtain ⟨reason, hreason⟩ := Option.isSome_iff_exists.1 (hhalts pending)
    rw [ReasonView.halt, hreason]
    intro _ suppressed
    change (if suppressed = true then _ else _ : Dap Unit).wp _ _ _ _
    split
    · exact nofun
    · exact h pending reason hreason

theorem onBreakpointHit_reason {v : ReasonView} {named : Option Nat} {breakpointId : Nat}
    (he : v.event = .breakpoint) (hhit : v.hit = some named)
    (hnamed : ∀ n ∈ named, n = breakpointId) (hv : v.Settled) :
    (onBreakpointHit id breakpointId).wp reasonSpec (fun _ w => w.Settled)
      (fun _ w => w.Settled) v := by
  rw [onBreakpointHit, bind_eq, wp_bind]
  refine wp_mono (fun continued w hw => ?_) (fun _ w hw => hw.settled hv)
    (idle_view true (by rintro ⟨⟩) (tryAutoContinueConditionalBreakpointHit_idle breakpointId))
  have hevent : w.event = .breakpoint := hw.event.trans he
  split
  · exact hw.settled hv
  · refine recordStop_view (hw.settled hv) (fun _ => by rw [hevent]; rfl) fun pending reason h => ?_
    rw [hevent, hw.hit _ hhit] at h
    cases h
    intro reason' hreason'
    cases hreason'
    refine ⟨_, rfl, ?_⟩
    cases named with
    | none => rfl
    | some n =>
      rw [hnamed n rfl, Option.join_some, Option.map_some]
      exact StopReason.fits_self _ _

theorem onExceptionHit_reason {v : ReasonView} {exceptionCode : Nat}
    (he : ∀ hit pending, v.event.reason hit pending =
      some ((pending.map PendingStoppedEvent.why).getD { reason := .exception }))
    (hv : v.Settled) : (onExceptionHit id exceptionCode).wp reasonSpec (fun _ w => w.Settled)
      (fun _ w => w.Settled) v := by
  rw [onExceptionHit, bind_eq, wp_bind]
  refine wp_mono (fun continued w hw => ?_) (fun _ w hw => hw.settled hv)
    (idle_view true (by rintro ⟨⟩) tryAutoContinueKernelInitialBreak_idle)
  split
  · exact hw.settled hv
  · refine recordStop_view (hw.settled hv) (fun _ => by rw [hw.event, he]; rfl)
      fun pending reason h => ?_
    rw [hw.event, he] at h
    obtain rfl := Option.some.inj h
    refine ⟨fun recorded => ?_, ?_⟩
    · -- the record has been dropped
      change (if recorded = true then _ else _ : Dap Unit).wp _ _ _ _
      split
      · rintro _ ⟨⟩
      · rintro _ ⟨⟩
    · cases pending with
      | none =>
        intro reason' hreason'
        cases hreason'
        exact ⟨_, rfl, rfl⟩
      | some q =>
        intro reason' hreason'
        cases hreason'
        exact ⟨q, rfl, StopReason.fits_self _ _⟩

/-- What is told of a break. -/
theorem report_reason (r : Option PendingStoppedEvent) {w : ReasonView} (hhalted : w.halted = none)
    (hw : ∀ q reason, r = some q → w.reporting = some reason →
      reason.fits q.reason q.hitBreakpointIds = true) : (do
      if ← load .suppressSessionEvents then return
      else
        match r with
        | none => return
        | some p => do
          flushPendingThreadEvents
          let threadId ← tryGetCurrentThreadId .callback
          sendEvent (Factory.createStoppedEvent p.reason p.description threadId
            p.hitBreakpointIds) : Dap Unit).wp reasonSpec (fun _ w => w.Settled)
              (fun _ w => w.Settled) w := by
  have settled : w.Settled := by
    intro reason hreason
    rw [hhalted] at hreason
    cases hreason
  intro suppressed
  change (if suppressed = true then _ else _ : Dap Unit).wp _ _ _ _
  split
  · exact settled
  · cases r with
    | none => exact settled
    | some q =>
      change (Prog.bind flushPendingThreadEvents _).wp _ _ _ _
      rw [wp_bind]
      refine wp_mono (fun _ w₁ h₁ => ?_) (fun _ w₁ h₁ => h₁.settled settled)
        (idle_view true (by rintro ⟨⟩) (idle_of_neutral flushPendingThreadEvents_neutral))
      rw [bind_eq, wp_bind]
      refine wp_mono (fun threadId w₂ h₂ => ?_) (fun _ w₂ h₂ => h₂.settled (h₁.settled settled))
        (idle_view true (by rintro ⟨⟩) (idle_of_neutral (tryGetCurrentThreadId_neutral _)))
      refine ⟨fun reason hreason => ?_, h₂.settled (h₁.settled settled)⟩
      rw [h₂.reporting, h₁.reporting] at hreason
      exact hw q reason rfl hreason

/-- A break reports what was recorded. -/
theorem onBreakHit_reason {v : ReasonView} (he : v.event = .break_) (hv : v.Settled) :
    onBreakHit.wp reasonSpec (fun _ w => w.Settled)
      (fun _ w => w.Settled) v := by
  intro skip
  change (if skip = true then _ else _ : Dap Unit).wp _ _ _ _
  split
  · exact fun _ => hv
  · intro pending
    have hbreak : v.halt pending = v := by rw [ReasonView.halt, he]; rfl
    rw [hbreak]
    refine fun _ => ⟨fun r => report_reason r rfl fun q reason _ h => ?_,
      report_reason v.pending rfl fun q reason hq h => ?_⟩
    · cases h
    · obtain ⟨q', hq', hfits⟩ := hv reason h
      obtain rfl : q' = q := Option.some.inj (hq'.symm.trans hq)
      exact hfits

theorem resetAfterDispose_idle : AllOps (DapOp.idle false) resetAfterDispose :=
  .bind (.perform trivial) fun _ => .bind (.perform trivial) fun _ => .bind (.perform rfl)
    fun _ => .bind (.bind (.perform trivial) fun _ => .bind (.perform trivial) fun _ =>
      .perform trivial) fun _ => .bind (.perform trivial) fun _ => .bind (.perform trivial) fun _ =>
        .bind (.bind (.perform trivial) fun _ => .perform trivial) fun _ =>
          .bind (idle_of_neutral resetSuspendedState_neutral) fun _ => .bind (.perform trivial)
            fun _ => .bind (.perform trivial) fun _ => .bind (.perform trivial) fun _ =>
              .perform trivial

theorem disposeDebuggerSession_idle :
    AllOps (DapOp.idle false) (disposeDebuggerSession .callback) := by
  refine .bind (.perform trivial) fun session => ?_
  cases session with
  | none => exact resetAfterDispose_idle
  | some id =>
    refine .bind (.bind (.perform trivial) fun old => ?_) fun _ => resetAfterDispose_idle
    cases old with
    | none => trivial
    | some old => exact idle_of_neutral (Engaging.neutral (Session.destroy_engaging old _))

theorem queueSessionTermination_idle (exitCode : Int) :
    AllOps (DapOp.idle false) (queueSessionTermination exitCode) :=
  .bind (.perform rfl) fun _ => .bind (.perform trivial) fun _ =>
    .bind (idle_of_neutral flushPendingThreadEvents_neutral) fun _ => .bind (.perform trivial)
      fun _ => .bind (.perform trivial) fun _ => .bind disposeDebuggerSession_idle fun _ =>
        .perform trivial

theorem queueSessionEnded_idle : AllOps (DapOp.idle false) queueSessionEnded := by
  refine .bind (.perform rfl) fun _ => .bind (.perform trivial) fun _ => .bind (.perform trivial)
    fun session => ?_
  cases session with
  | none => trivial
  | some id =>
    exact .bind (idle_of_neutral flushPendingThreadEvents_neutral) fun _ =>
      .bind (.perform trivial) fun _ => .bind disposeDebuggerSession_idle fun _ => .perform trivial

/-- A callback that begins with its halt recorded ends so. -/
theorem onCallback_reason (id : SessionId) (event : Callback) {v : ReasonView}
    (he : v.event = event) (hh : v.hit = none) (hv : v.Settled) :
    (onCallback id event).wp reasonSpec (fun _ w => w.Settled) (fun _ w => w.Settled) v := by
  have idle {p : Dap Unit} (hnone : ∀ hit pending, event.reason hit pending = none)
      (h : AllOps (DapOp.idle false) p) :
      p.wp reasonSpec (fun _ w => w.Settled) (fun _ w => w.Settled) v :=
    wp_mono (fun _ w hw => hw.settled hv) (fun _ w hw => hw.settled hv)
      (idle_view _ (fun _ hit pending => by rw [he]; exact hnone hit pending) h)
  cases event with
  | breakpoint =>
    intro description
    rw [hh, Option.none_or]
    exact onBreakpointHit_reason he rfl (fun n hn => by rw [hn]; rfl) hv
  | exception code address firstChance =>
    intro x
    change (if (firstChance && code == 0xE06D7363 && !x.cppFirstChanceBreak) = true then _
      else _ : Dap Unit).wp _ _ _ _
    split
    · exact hv
    · exact fun _ => onExceptionHit_reason (fun _ _ => by rw [he]; rfl) hv
  | systemError error => exact onExceptionHit_reason (fun _ _ => by rw [he]; rfl) hv
  | break_ => exact onBreakHit_reason he hv
  | noDebuggee | sessionEnd => exact idle (fun _ _ => rfl) queueSessionEnded_idle
  | exitProcess exitCode => exact idle (fun _ _ => rfl) (queueSessionTermination_idle _)
  | createThread | exitThread =>
    exact idle (fun _ _ => rfl) (idle_of_neutral (queueThreadEvent_neutral _))
  | output text =>
    exact idle (fun _ _ => rfl)
      (.ite trivial (idle_of_neutral (handleOutputReceived_neutral id text)))

end Server

end

/-! ## Every run -/

namespace StopReasons

open Server

variable {t : Tid} {j : Job} {p p' : Server × ReasonLog}

theorem takesPending_of_allows {P : Permit} {β : Type} {o : DapOp β} (ho : P.allows o) :
    o.takesPending = false := by
  cases o with
  | takePending => exact ho.elim
  | _ => rfl

theorem safe_of_permitted (ht : j.thread ≠ .callback) (p : Server × ReasonLog) :
    reasonOutline.Safe reasonSystem j.thread j j.body p :=
  Outline.safe_of_allOps (A := reasonOutline) (Job.body_permitted ht)
    (fun o _ _ _ ho hi h => reasonKeeps o ht (takesPending_of_allows ho) hi h)
    (fun _ _ => ⟨rfl, fun h => absurd h ht⟩) p

theorem callback_safe (id : SessionId) (event : Callback) (threads : List (Nat × Nat))
    (current : Nat) {v : ReasonView} (hv : v.Sees p) (he : v.event = event) (hh : v.hit = none)
    (hs : v.Settled) :
    reasonOutline.Safe reasonSystem .callback (.callback id event threads current)
      (Job.callback id event threads current).body p := by
  intro p' hrely hi
  have recorded {p : Server × ReasonLog} (h : ∃ v : ReasonView, v.Sees p ∧ v.Settled) :
      Recorded p := by
    obtain ⟨v, hv, hs⟩ := h
    exact hv.recorded hs
  have hw := wp_of_view reasonPre_outline (hv.rely hrely)
    (onCallback_reason id event he hh hs)
  change (Prog.bind (onCallback id event) fun _ => .ret false).wp _ _ _ p'
  rw [wp_bind]
  exact wp_mono (fun _ _ h => ⟨rfl, fun _ => recorded h⟩) (fun _ _ h => ⟨rfl, fun _ => recorded h⟩)
    hw

/-- A step that leaves the log and the recorded stop alone. -/
theorem keeps_of_same (hi : ReasonInv p) (hr : ReasonRely p p')
    (hw : p'.2.wrong = p.2.wrong) : reasonOutline.Keeps t p p' := by
  refine ⟨⟨hw.trans hi.right, fun ha => (hi.recorded (hr.active ▸ ha)).rely hr⟩, fun u _ => ?_⟩
  cases u with
  | callback => exact hr
  | _ => trivial

theorem start_valid (hi : ReasonInv p) (h : reasonSystem.start t j p p') :
    reasonOutline.Keeps t p p' ∧ reasonOutline.Safe reasonSystem t j j.body p' := by
  obtain ⟨⟨hs, hl⟩, -⟩ := h
  have hs : startJob t j p.1 = some p'.1 := hs
  have ht := startJob_thread hs
  subst ht
  by_cases hc : j.thread = .callback
  · cases j with
    | callback id event threads current =>
      have hl : p'.2 = { p.2 with event := some event, hit := none, reporting := none } := hl
      obtain ⟨hreport, hs⟩ := startJob_callback hs
      have hidle : p.1.callbackActive = false := by
        simp only [Server.mayReport, Bool.and_eq_true, Bool.not_eq_true'] at hreport
        exact hreport.1.1
      have hactive : p'.1.callbackActive = true := by rw [hs]
      let v : ReasonView :=
        { event, halted := p.2.halted, pending := p.1.pendingStoppedEvent }
      have hv : v.Sees p' := by
        refine ⟨hactive, by rw [hl], by rw [hl], by rw [hl], .inr ⟨by rw [hl], ?_⟩⟩
        rw [hs]
        rfl
      refine ⟨⟨⟨by rw [hl]; exact hi.right, fun ha => ?_⟩, fun u hu => ?_⟩,
        callback_safe id event threads current hv rfl rfl (hi.recorded hidle)⟩
      · rw [hactive] at ha
        cases ha
      · cases u with
        | callback => exact absurd rfl hu
        | _ => trivial
    | _ => cases hc
  · obtain ⟨pump, mode, outboundOpen, hs, -⟩ := startJob_of_ne hc hs
    have hl : p'.2 = p.2 := by
      rw [hl]
      cases j with
      | callback => exact absurd rfl hc
      | _ => rfl
    refine ⟨keeps_of_same hi ?_ (by rw [hl]), safe_of_permitted hc p'⟩
    rw [show p' = ({ p.1 with pump, mode, outboundOpen }, p.2) from Prod.ext hs hl]
    exact ⟨rfl, rfl, rfl, rfl, .inr ⟨rfl, rfl⟩⟩

theorem finish_valid {r : Except Exn Bool} (hi : ReasonInv p) (hp : reasonOutline.post t j r p)
    (h : reasonSystem.finish t j r p p') : reasonOutline.Keeps t p p' := by
  obtain ⟨⟨hf, hl⟩, -⟩ := h
  have hf : finishJob j r p.1 = some p'.1 := hf
  obtain ⟨rfl, hrecorded⟩ := hp
  by_cases hc : j.thread = .callback
  · cases j with
    | callback id event threads current =>
      have hl : p'.2 = { p.2 with event := none } := hl
      have hs := finishJob_callback hf
      refine ⟨⟨by rw [hl]; exact hi.right, fun _ => ?_⟩, fun u hu => ?_⟩
      · intro reason hreason
        rw [hl] at hreason
        rw [hs]
        exact hrecorded rfl reason hreason
      · cases u with
        | callback => exact absurd rfl hu
        | _ => trivial
    | _ => cases hc
  · obtain ⟨mode, loop, hs⟩ := finishJob_of_ne hc hf
    have hl : p'.2 = p.2 := by
      rw [hl]
      cases j with
      | callback => exact absurd rfl hc
      | _ => rfl
    refine keeps_of_same hi ?_ (by rw [hl])
    rw [show p' = ({ p.1 with mode, loop }, p.2) from Prod.ext hs hl]
    exact ⟨rfl, rfl, rfl, rfl, .inr ⟨rfl, rfl⟩⟩

theorem outline_valid (fullPath : String → String) :
    reasonOutline.Valid reasonSystem ({ fullPath }, {}) where
  init := ⟨rfl, fun _ => nofun⟩
  start hi h := start_valid hi h
  finish hi hp h := finish_valid hi hp h

end StopReasons

/-- **Reasons.**  In every run in which no request records a stop between a halt and its report,
a breakpoint that halts the target is reported as the breakpoint that the engine names, and an
exception as an exception, or as the pause or step that was recorded before it. -/
theorem stops_for_their_reason {fullPath : String → String} {ls : List Lab}
    {c : Config Tid DapOp Job Exn Bool (Server × ReasonLog)}
    (hr : reasonSystem.Run (.init ({ fullPath }, {})) ls c) : c.state.2.wrong = false :=
  (Outline.sound (StopReasons.outline_valid fullPath) hr).right

theorem reasonSystem_eq :
    ((reasonMachine Callback.reason).guarded keepsReason).system = reasonSystem := by
  rw [Machine.guarded_system, reasonMachine, Machine.instrument_system]
  rfl

/-- The target crashes. -/
def crash : Schedule :=
  Schedule.report (.exception 0xC0000005 0x1000 false) ++ Schedule.report .break_

/-- A running target crashes. -/
theorem crash_reported : ∃ (ls : List Lab)
    (c : Config Tid DapOp Job Exn Bool (Server × ReasonLog)),
      reasonSystem.Run (.init ({}, {})) ls c ∧
        c.state.2.reporting = some { reason := .exception } ∧
          (∃ m ∈ c.state.1.sent, m.isStopped = true) ∧ c.state.2.wrong = false := by
  have hrun : (((reasonMachine Callback.reason).guarded keepsReason).exec
      (Schedule.launchAndPark ++ crash) (.init ({}, {}))).any (fun c =>
        decide (c.state.2.reporting = some { reason := .exception }) &&
          c.state.1.sent.any Message.isStopped) = true := by
    decide +kernel
  obtain ⟨c, hc, ht⟩ := (Option.any_eq_true _ _).1 hrun
  obtain ⟨ls, hr⟩ := Machine.exec_run hc
  rw [reasonSystem_eq] at hr
  simp only [Bool.and_eq_true, decide_eq_true_eq, List.any_eq_true] at ht
  exact ⟨ls, c, hr, ht.1, ht.2, @stops_for_their_reason id ls c hr⟩

/-- A step over a line. -/
def overLine : Json := Schedule.message 2 "next" [("threadId", .int 100)]

/-- A crash during a step is reported as the end of the step. -/
theorem crash_reported_as_step : ¬∀ (ls : List Lab)
    (c : Config Tid DapOp Job Exn Bool (Server × ReasonLog)),
      (adapter.system.instrument (ReasonLog.record Callback.ownReason)).Run (.init ({}, {})) ls c →
        c.state.2.wrong = false := by
  intro hall
  have hrun : ((reasonMachine Callback.ownReason).exec
      (Schedule.launch ++ Schedule.serve overLine ++ Schedule.park ++ crash)
      (.init ({}, {}))).any (fun c => c.state.2.wrong) = true := by
    decide +kernel
  obtain ⟨c, hc, ht⟩ := (Option.any_eq_true _ _).1 hrun
  obtain ⟨ls, hr⟩ := Machine.exec_run hc
  rw [reasonMachine, Machine.instrument_system] at hr
  rw [hall ls c hr] at ht
  cases ht

end DapDbgeng
