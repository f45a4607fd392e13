/-
  Thread events reach the client.

  A thread callback sends its event at once, or buffers it while the target runs; a stop or an end
  flushes the buffer first.  Main definitions:

  * `ThreadLog`: the thread events that are due, one for every thread callback whose thread the
    engine has named, and whether a stop or an end was reported while one was outstanding;
  * `keepsThreadEvents`: no step forgets buffered events, overtakes them or reports over them.

  Main result: `threadEvents_delivered`, on every run of such steps.
-/
import DapDbgeng.Permits
import DapDbgeng.Semantics

namespace DapDbgeng

open Concurrent Concurrent.Prog

/-! ## History -/

def Message.threadEvent? : Message → Option ThreadEvent
  | .event (.thread reason threadId) => some { reason, threadId }
  | _ => none

/-- The reports of a halt or an end. -/
def Message.reportsHalt : Message → Bool
  | .event (.stopped _) | .event (.exited _) | .event .terminated => true
  | _ => false

/-- The thread events handed to the writer. -/
def Server.threadEvents (s : Server) : List ThreadEvent := s.sent.filterMap Message.threadEvent?

def Callback.threadReason : Callback → Option ThreadEventBodyReason
  | .createThread => some .started
  | .exitThread => some .exited
  | _ => none

/-- The callbacks that may report a halt, an end or a thread. -/
def Callback.reports : Callback → Bool
  | .breakpoint | .exception .. | .systemError _ | .output _ => false
  | _ => true

/-- The thread callback in progress and what the engine has answered it, the events due so far, and
whether a halt or an end was reported while one was outstanding. -/
structure ThreadLog where
  reason : Option ThreadEventBodyReason := none
  engineId : Option Nat := none
  due : List ThreadEvent := []
  late : Bool := false

/-- The event of a thread callback for a thread. -/
def threadEventOf (reason : Option ThreadEventBodyReason) (threadId : Nat) : List ThreadEvent :=
  match reason with
  | some reason =>
    if (threadId : Int) > Factory.int32Max then [] else [{ reason, threadId }]
  | none => []

/-- The event a thread callback owes once the engine has listed its threads. -/
def dueEvents (reason : Option ThreadEventBodyReason) (engineId : Option Nat)
    (systemIds : List Nat) : List ThreadEvent :=
  match engineId.bind fun n => systemIds[n]? with
  | some threadId => threadEventOf reason threadId
  | none => []

/-- What a thread callback learns. -/
def DapOp.threadLog : ∀ {β : Type}, DapOp β → β → ThreadLog → ThreadLog
  | _, .call _ .currentThreadId, r, h => { h with engineId := r.toOption }
  | _, .call _ (.threadIdsByIndex _), .ok systemIds, h =>
    { h with due := h.due ++ dueEvents h.reason h.engineId systemIds }
  | _, _, _, h => h

def DapOp.reportsHalt : ∀ {β : Type}, DapOp β → Bool
  | _, .send m => m.reportsHalt
  | _, _ => false

def ThreadLog.record : Lab → Server → ThreadLog → ThreadLog
  | .start _ (.callback _ event _ _), _, h =>
    { h with reason := event.threadReason, engineId := none }
  | .op t e, s, h =>
    { (if t = .callback then e.op.threadLog e.result h else h) with
      late := h.late || (e.op.reportsHalt && s.outboundOpen && h.due != s.threadEvents) }
  | _, _, h => h

/-- What an operation must not do: forget buffered thread events, send a thread event past them,
or, outside a callback, report a halt or an end while thread events wait. -/
def DapOp.keepsThreadEvents (t : Tid) : ∀ {β : Type}, DapOp β → Server → Bool
  | _, .clearThreadEvents, s => s.pendingThreadEvents.isEmpty
  | _, .send m, s => (m.threadEvent?.isNone || s.pendingThreadEvents.isEmpty) &&
    (t != .request || !m.reportsHalt || s.pendingThreadEvents.isEmpty && !s.callbackActive)
  | _, _, _ => true

def keepsThreadEvents : Lab → Server × ThreadLog → Bool
  | .op t e, p => e.op.keepsThreadEvents t p.1
  | _, _ => true

/-- The adapter with its thread log. -/
def threadMachine : Machine Tid DapOp Job Exn Bool (Server × ThreadLog) Answers :=
  adapter.instrument ThreadLog.record

/-- The adapter with its thread log, taking such steps only. -/
def threadSystem : System Tid DapOp Job Exn Bool (Server × ThreadLog) :=
  (adapter.system.instrument ThreadLog.record).restrict fun l p => keepsThreadEvents l p = true

theorem empty_of_sendThread {t : Tid} {m : Message} {s : Server}
    (hk : (DapOp.send m).keepsThreadEvents t s = true) (hm : m.threadEvent?.isSome = true) :
    s.pendingThreadEvents = [] := by
  obtain ⟨h, -⟩ := Bool.and_eq_true_iff.1 hk
  rcases Bool.or_eq_true_iff.1 h with h | h
  · rw [Option.isNone_iff_eq_none.1 h] at hm
    cases hm
  · exact List.isEmpty_iff.1 h

theorem empty_of_reportsHalt {m : Message} {s : Server}
    (hk : (DapOp.send m).keepsThreadEvents .request s = true) (hm : m.reportsHalt = true) :
    s.pendingThreadEvents = [] ∧ s.callbackActive = false := by
  obtain ⟨-, h⟩ := Bool.and_eq_true_iff.1 hk
  simpa [hm, List.isEmpty_iff] using h

/-! ## What the operations do to the buffer -/

/-- The same thread events sent and buffered. -/
structure SameThreads (s s' : Server) : Prop where
  pendingThreadEvents : s'.pendingThreadEvents = s.pendingThreadEvents
  threadEvents : s'.threadEvents = s.threadEvents
  outboundOpen : s'.outboundOpen = true → s.outboundOpen = true
  callbackActive : s'.callbackActive = s.callbackActive

theorem SameThreads.refl (s : Server) : SameThreads s s := ⟨rfl, rfl, id, rfl⟩

/-- The operations on the buffer, and handing a thread event to the writer. -/
def DapOp.handlesThreadEvents : ∀ {β : Type}, DapOp β → Bool
  | _, .pushThreadEvent _ | _, .takeThreadEvents => true
  | _, .send m => m.threadEvent?.isSome
  | _, _ => false

theorem sem_sameThreads {t : Tid} {β : Type} {o : DapOp β} {s s' : Server} {b : β}
    (ho : o.handlesThreadEvents = false) (hk : o.keepsThreadEvents t s = true)
    (h : sem t β o s b s') :
    SameThreads s s' := by
  have same := SameThreads.refl s
  cases o with
  | pushThreadEvent | takeThreadEvents => cases ho
  | clearThreadEvents =>
    rw [sem_clearThreadEvents.1 h]
    exact { same with pendingThreadEvents := (List.isEmpty_iff.1 hk).symm }
  | send m =>
    rw [sem_send.1 h]
    split
    · refine { same with threadEvents := ?_ }
      have hm : m.threadEvent? = none := by simpa [DapOp.handlesThreadEvents] using ho
      simp [Server.threadEvents, hm]
    · exact same
  | call id c => obtain ⟨_, _, -, -, rfl⟩ := sem_call h; exact { same with }
  | leave id c => obtain ⟨-, -, _, _, -, rfl⟩ := sem_leave h; exact { same with }
  | enter id c => obtain ⟨_, -, -, -, rfl⟩ := sem_enter.1 h; exact { same with }
  | acquire => obtain ⟨_, -, -, rfl⟩ := sem_acquire.1 h; exact { same with }
  | lockGate => obtain ⟨-, rfl⟩ := sem_lockGate.1 h; exact { same with }
  | joinLoop => obtain ⟨-, rfl⟩ := sem_joinLoop.1 h; exact { same with }
  | _ => obtain ⟨_, h⟩ := h; cases h; exact { same with }

/-! ## The outline -/

/-- Events in hand and events owed besides those sent and buffered. -/
def Balanced (hand owed : List ThreadEvent) (p : Server × ThreadLog) : Prop :=
  p.1.outboundOpen = true →
    p.2.due = p.1.threadEvents ++ hand ++ p.1.pendingThreadEvents ++ owed

/-- What the callback thread relies on. -/
structure ThreadRely (p p' : Server × ThreadLog) : Prop where
  server : SameThreads p.1 p'.1
  due : p'.2.due = p.2.due
  reason : p'.2.reason = p.2.reason
  engineId : p'.2.engineId = p.2.engineId

theorem ThreadRely.trans {p p' p'' : Server × ThreadLog} (h : ThreadRely p p')
    (h' : ThreadRely p' p'') : ThreadRely p p'' where
  server := {
    pendingThreadEvents := h'.server.pendingThreadEvents.trans h.server.pendingThreadEvents
    threadEvents := h'.server.threadEvents.trans h.server.threadEvents
    outboundOpen := fun ho => h.server.outboundOpen (h'.server.outboundOpen ho)
    callbackActive := h'.server.callbackActive.trans h.server.callbackActive }
  due := h'.due.trans h.due
  reason := h'.reason.trans h.reason
  engineId := h'.engineId.trans h.engineId

theorem Balanced.rely {hand owed : List ThreadEvent} {p p' : Server × ThreadLog}
    (h : Balanced hand owed p) (hr : ThreadRely p p') : Balanced hand owed p' := by
  intro ho
  rw [hr.due, hr.server.threadEvents, hr.server.pendingThreadEvents]
  exact h (hr.server.outboundOpen ho)

/-- Between callbacks the events due are those sent and those buffered, and no report came early. -/
structure ThreadInv (p : Server × ThreadLog) : Prop where
  settled : p.1.callbackActive = false → Balanced [] [] p
  late : p.2.late = false

def threadOutline : Outline Tid Job Exn Bool (Server × ThreadLog) where
  Inv := ThreadInv
  rely
    | .callback => ThreadRely
    | _ => fun _ _ => True
  post t j _ p := t = j.thread ∧ (t = .callback → Balanced [] [] p)
  rely_refl t p := by cases t <;> first | trivial | exact ⟨.refl _, rfl, rfl, rfl⟩
  rely_trans {t} _ _ _ h h' := by cases t <;> first | trivial | exact h.trans h'

/-! ### The other threads -/

theorem Message.reportsHalt_event {m : Message} (h : m.reportsHalt = true) :
    ∃ e, m = .event e ∧ e.isReport = true := by
  cases m with
  | response r => cases h
  | event e => exact ⟨e, rfl, by cases e <;> first | rfl | cases h⟩

theorem not_outstanding {P : Permit} {t : Tid} (hr : t ≠ .request → ∀ e, ¬P.reports e) {β : Type}
    {o : DapOp β} {p : Server × ThreadLog} (ho : P.allows o) (hi : ThreadInv p)
    (hk : o.keepsThreadEvents t p.1 = true) :
    (o.reportsHalt && p.1.outboundOpen && p.2.due != p.1.threadEvents) = false := by
  cases o with
  | send m =>
    cases hm : m.reportsHalt with
    | false => simp [DapOp.reportsHalt, hm]
    | true =>
      obtain ⟨e, rfl, he⟩ := Message.reportsHalt_event hm
      by_cases ht : t = .request
      · subst ht
        obtain ⟨hempty, hactive⟩ := empty_of_reportsHalt hk hm
        cases hopen : p.1.outboundOpen with
        | false => simp
        | true =>
          have hdue := hi.settled hactive hopen
          simp [hdue, hempty]
      · exact absurd (ho he) (hr ht e)
  | _ => rfl

/-- An operation that handles no thread events, and reports no halt but over an empty buffer
between callbacks. -/
theorem keeps_of_permitted {P : Permit} (hP : ∀ reason threadId, ¬P.reports (.thread reason threadId))
    {t : Tid} (ht : t ≠ .callback) (hr : t ≠ .request → ∀ e, ¬P.reports e) {β : Type} (o : DapOp β)
    {b : β} {p p' : Server × ThreadLog} (ho : P.allows o) (hi : ThreadInv p)
    (h : threadSystem.sem t β o p b p') : threadOutline.Keeps t p p' := by
  obtain ⟨⟨hsem, hlog⟩, hk⟩ := h
  have hk : o.keepsThreadEvents t p.1 = true := hk
  have handles : o.handlesThreadEvents = false := by
    cases o with
    | pushThreadEvent | takeThreadEvents => exact ho.elim
    | send m => cases m with
      | response r => rfl
      | event e => cases e <;> first | rfl | exact (hP _ _ (ho rfl)).elim
    | _ => rfl
  have same := sem_sameThreads handles hk hsem
  have hdue : p'.2.due = p.2.due := by rw [hlog]; simp [ThreadLog.record, ht]
  have rely : ThreadRely p p' :=
    ⟨same, hdue, by rw [hlog]; simp [ThreadLog.record, ht], by rw [hlog]; simp [ThreadLog.record, ht]⟩
  have late : p'.2.late = false := by
    have outstanding := not_outstanding hr ho hi hk
    rw [hlog]
    simp [ThreadLog.record, hi.late, outstanding]
  refine ⟨⟨fun ha => (hi.settled (same.callbackActive ▸ ha)).rely rely, late⟩, fun u hu => ?_⟩
  cases u with
  | callback => exact rely
  | _ => trivial

/-! ### The callback thread -/

/-- What a callback knows: the events it holds, those it owes, whether the buffer is empty, and what
it has learnt. -/
structure ThreadView where
  hand : List ThreadEvent := []
  owed : List ThreadEvent := []
  empty : Bool := false
  reason : Option ThreadEventBodyReason
  engineId : Option Nat := none

structure ThreadView.Sees (v : ThreadView) (p : Server × ThreadLog) : Prop where
  active : p.1.callbackActive = true
  balanced : Balanced v.hand v.owed p
  empty : v.empty = true → p.1.pendingThreadEvents = []
  reason : p.2.reason = v.reason
  engineId : p.2.engineId = v.engineId

theorem ThreadView.Sees.rely {v : ThreadView} {p p' : Server × ThreadLog} (h : v.Sees p)
    (hr : ThreadRely p p') : v.Sees p' where
  active := hr.server.callbackActive.trans h.active
  balanced := h.balanced.rely hr
  empty he := hr.server.pendingThreadEvents.trans (h.empty he)
  reason := hr.reason.trans h.reason
  engineId := hr.engineId.trans h.engineId

/-- Handing a thread event to the writer: from the hand first. -/
def sendThreadPre (e : ThreadEvent) (K : ThreadView → Prop) (v : ThreadView) : Prop :=
  match v.hand, v.owed with
  | e' :: hand, _ => e' = e ∧ K { v with hand }
  | [], e' :: owed => e' = e ∧ K { v with owed }
  | [], [] => False

def sendPre (m : Message) (K : ThreadView → Prop) (v : ThreadView) : Prop :=
  match m.threadEvent? with
  | some e => sendThreadPre e K v
  | none => (m.reportsHalt = true → v.hand = [] ∧ v.owed = [] ∧ v.empty = true) ∧ K v

def threadCallPre : ∀ {β : Type}, Call β → (β → ThreadView → Prop) → ThreadView → Prop
  | _, .currentThreadId => fun K v => ∀ r : Reply Nat, K r { v with engineId := r.toOption }
  | _, .threadIdsByIndex _ => fun K v => ∀ r, K r (match r with
    | .ok systemIds => { v with owed := v.owed ++ dueEvents v.reason v.engineId systemIds }
    | .error _ => v)
  | _, _ => fun K v => ∀ b, K b v

def threadPre : ∀ {β : Type}, DapOp β → (β → ThreadView → Prop) → ThreadView → Prop
  | _, .pushThreadEvent e => fun K v => v.hand = [] ∧ ∃ owed, v.owed = e :: owed ∧
    K () { v with owed, empty := false }
  | _, .takeThreadEvents => fun K v => v.hand = [] ∧
    ∀ events, K events { v with hand := events, empty := true }
  | _, .send m => fun K v => sendPre m (K ()) v
  | _, .call _ c => fun K v => threadCallPre c K v
  | _, _ => fun K v => ∀ b, K b v

def threadSpec : Spec DapOp ThreadView where
  pre := threadPre
  mono o K K' hK v h := by
    cases o with
    | pushThreadEvent e =>
      obtain ⟨hh, owed, ho, hk⟩ := h
      exact ⟨hh, owed, ho, hK _ _ hk⟩
    | takeThreadEvents => exact ⟨h.1, fun events => hK _ _ (h.2 events)⟩
    | send m =>
      simp only [threadPre, sendPre] at h ⊢
      split at h
      · rename_i e _
        obtain ⟨hand, owed, _, _, _⟩ := v
        cases hand with
        | cons e' hand => exact ⟨h.1, hK _ _ h.2⟩
        | nil => cases owed with
          | cons e' owed => exact ⟨h.1, hK _ _ h.2⟩
          | nil => exact h
      · exact ⟨h.1, hK _ _ h.2⟩
    | call id c => cases c <;> exact fun b => hK _ _ (h b)
    | _ => exact fun b => hK _ _ (h b)

/-- The state after a step of the callback thread. -/
structure CallbackStep {β : Type} (o : DapOp β) (b : β) (p p' : Server × ThreadLog) : Prop where
  sem : sem .callback β o p.1 b p'.1
  due : p'.2.due = (o.threadLog b p.2).due
  reason : p'.2.reason = (o.threadLog b p.2).reason
  engineId : p'.2.engineId = (o.threadLog b p.2).engineId
  late : p'.2.late = (p.2.late || (o.reportsHalt && p.1.outboundOpen && p.2.due != p.1.threadEvents))
  keeps : o.keepsThreadEvents .callback p.1 = true

theorem callbackStep_of_sem {β : Type} {o : DapOp β} {b : β} {p p' : Server × ThreadLog}
    (h : threadSystem.sem .callback β o p b p') : CallbackStep o b p p' := by
  obtain ⟨⟨hsem, hlog⟩, hk⟩ := h
  exact ⟨hsem, by rw [hlog]; rfl, by rw [hlog]; rfl, by rw [hlog]; rfl, by rw [hlog]; rfl, hk⟩

/-- A view after an operation that neither handles thread events nor asks for threads. -/
theorem ThreadView.Sees.silent {v : ThreadView} {β : Type} {o : DapOp β} {b : β}
    {p p' : Server × ThreadLog} (hv : v.Sees p) (hs : CallbackStep o b p p')
    (ho : o.handlesThreadEvents = false) (hl : o.threadLog b p.2 = p.2) : v.Sees p' :=
  hv.rely ⟨sem_sameThreads ho hs.keeps hs.sem, by rw [hs.due, hl], by rw [hs.reason, hl],
    by rw [hs.engineId, hl]⟩

/-- Handing a thread event to the writer when nothing is buffered. -/
theorem sees_of_sendThread {v : ThreadView} {m : Message} {e : ThreadEvent}
    (hm : m.threadEvent? = some e) {hand owed : List ThreadEvent}
    (hsplit : v.hand ++ v.owed = e :: (hand ++ owed)) {p p' : Server × ThreadLog} {u : Unit}
    (hv : v.Sees p) (hs : CallbackStep (.send m) u p p') :
    ({ v with hand, owed } : ThreadView).Sees p' := by
  have hempty : p.1.pendingThreadEvents = [] := empty_of_sendThread hs.keeps (by rw [hm]; rfl)
  have hsem := sem_send.1 hs.sem
  have hpending : p'.1.pendingThreadEvents = [] := by rw [hsem]; split <;> exact hempty
  refine ⟨?_, fun hopen => ?_, fun _ => hpending, hs.reason.trans hv.reason,
    hs.engineId.trans hv.engineId⟩
  · rw [hsem]; split <;> exact hv.active
  · have hopen' : p.1.outboundOpen = true := by
      rw [hsem] at hopen
      split at hopen <;> exact hopen
    have hsent : p'.1.threadEvents = p.1.threadEvents ++ [e] := by
      rw [hsem, if_pos hopen']
      simp [Server.threadEvents, hm]
    have hdue : p'.2.due = p.2.due := hs.due
    have hbalance := hv.balanced hopen'
    rw [hempty, List.append_nil, List.append_assoc, hsplit] at hbalance
    rw [hdue, hbalance, hsent, hpending]
    simp

theorem sees_of_send {v : ThreadView} {m : Message} {K : ThreadView → Prop}
    {p p' : Server × ThreadLog} {u : Unit} (hv : v.Sees p)
    (hs : CallbackStep (.send m) u p p') (hw : sendPre m K v) : ∃ v', v'.Sees p' ∧ K v' := by
  unfold sendPre at hw
  split at hw
  · rename_i e hm
    obtain ⟨hand, owed, empty, reason, engineId⟩ := v
    cases hand with
    | cons e' hand =>
      obtain ⟨rfl, hk⟩ := hw
      exact ⟨{ hand, owed, empty, reason, engineId }, sees_of_sendThread hm rfl hv hs, hk⟩
    | nil => cases owed with
      | cons e' owed =>
        obtain ⟨rfl, hk⟩ := hw
        exact ⟨{ owed, empty, reason, engineId }, sees_of_sendThread hm rfl hv hs, hk⟩
      | nil => exact hw.elim
  · rename_i hm
    exact ⟨v, hv.silent hs (by rw [DapOp.handlesThreadEvents, hm]; rfl) rfl, hw.2⟩

theorem late_of_send {v : ThreadView} {m : Message} {K : ThreadView → Prop}
    {p : Server × ThreadLog} (hv : v.Sees p) (hw : sendPre m K v) :
    (m.reportsHalt && p.1.outboundOpen && p.2.due != p.1.threadEvents) = false := by
  cases hm : m.reportsHalt with
  | false => simp
  | true =>
    have hthread : m.threadEvent? = none := by
      cases m with
      | response r => rfl
      | event e => cases e <;> first | rfl | cases hm
    obtain ⟨hall, -⟩ : (m.reportsHalt = true → v.hand = [] ∧ v.owed = [] ∧ v.empty = true) ∧ K v := by
      simpa only [sendPre, hthread] using hw
    obtain ⟨hhand, howed, hempty⟩ := hall hm
    cases hopen : p.1.outboundOpen with
    | false => simp
    | true =>
      have hbalance := hv.balanced hopen
      rw [hhand, howed, hv.empty hempty] at hbalance
      simp [hbalance]

theorem sees_of_push {v : ThreadView} {e : ThreadEvent} {owed : List ThreadEvent}
    (howed : v.owed = e :: owed) (hhand : v.hand = []) {p p' : Server × ThreadLog} {u : Unit}
    (hv : v.Sees p) (hs : CallbackStep (.pushThreadEvent e) u p p') :
    ({ v with owed, empty := false } : ThreadView).Sees p' := by
  have hsem := sem_pushThreadEvent.1 hs.sem
  refine ⟨by rw [hsem]; exact hv.active, fun hopen => ?_, fun h => (nomatch h),
    hs.reason.trans hv.reason, hs.engineId.trans hv.engineId⟩
  have hdue : p'.2.due = p.2.due := hs.due
  rw [hsem] at hopen ⊢
  have hbalance := hv.balanced hopen
  rw [howed, hhand] at hbalance
  rw [hdue, hbalance, hhand]
  simp [Server.threadEvents]

theorem sees_of_take {v : ThreadView} (hhand : v.hand = []) {p p' : Server × ThreadLog}
    {events : List ThreadEvent} (hv : v.Sees p)
    (hs : CallbackStep .takeThreadEvents events p p') :
    ({ v with hand := events, empty := true } : ThreadView).Sees p' := by
  obtain ⟨rfl, hsem⟩ := sem_takeThreadEvents.1 hs.sem
  refine ⟨by rw [hsem]; exact hv.active, fun hopen => ?_, fun _ => by rw [hsem],
    hs.reason.trans hv.reason, hs.engineId.trans hv.engineId⟩
  have hdue : p'.2.due = p.2.due := hs.due
  rw [hsem] at hopen ⊢
  have hbalance := hv.balanced hopen
  rw [hhand] at hbalance
  rw [hdue, hbalance]
  simp [Server.threadEvents]

theorem sees_of_threadCall {v : ThreadView} {β : Type} {c : Call β} {K : β → ThreadView → Prop}
    {p p' : Server × ThreadLog} {b : β} {id : SessionId} (hv : v.Sees p)
    (hs : CallbackStep (.call id c) b p p') (hw : threadCallPre c K v) :
    ∃ v', v'.Sees p' ∧ K b v' := by
  have same := sem_sameThreads (o := .call id c) rfl rfl hs.sem
  -- what a lookup teaches is the only change
  have moved : v.Sees (p'.1, p.2) := hv.rely ⟨same, rfl, rfl, rfl⟩
  have unchanged (hl : (DapOp.call id c).threadLog b p.2 = p.2) : v.Sees p' := hv.silent hs rfl hl
  cases c with
  | currentThreadId =>
    refine ⟨{ v with engineId := b.toOption }, ⟨moved.active, fun ho => ?_, moved.empty,
      hs.reason.trans hv.reason, hs.engineId⟩, hw b⟩
    have hdue : p'.2.due = p.2.due := hs.due
    rw [hdue]
    exact moved.balanced ho
  | threadIdsByIndex n =>
    refine ⟨_, ?_, hw b⟩
    cases b with
    | error hr => exact unchanged rfl
    | ok systemIds =>
      refine ⟨moved.active, fun ho => ?_, moved.empty, hs.reason.trans hv.reason,
        hs.engineId.trans hv.engineId⟩
      have hdue : p'.2.due = p.2.due ++ dueEvents p.2.reason p.2.engineId systemIds := hs.due
      rw [hdue, moved.balanced ho, hv.reason, hv.engineId]
      simp
  | _ => exact ⟨v, unchanged rfl, hw b⟩

theorem threadPre_step {β : Type} (o : DapOp β) {K : β → ThreadView → Prop} {v : ThreadView}
    {p p' : Server × ThreadLog} {b : β} (hv : v.Sees p) (hw : threadSpec.pre o K v)
    (hs : CallbackStep o b p p') : ∃ v', v'.Sees p' ∧ K b v' := by
  cases o with
  | pushThreadEvent e =>
    obtain ⟨hhand, owed, howed, hk⟩ := hw
    exact ⟨_, sees_of_push howed hhand hv hs, hk⟩
  | takeThreadEvents => exact ⟨_, sees_of_take hw.1 hv hs, hw.2 b⟩
  | send m => exact sees_of_send hv hs hw
  | call id c => exact sees_of_threadCall hv hs hw
  | _ => exact ⟨v, hv.silent hs rfl rfl, hw b⟩

/-- What a callback establishes of its view holds under the outline. -/
theorem threadPre_outline {β : Type} (o : DapOp β) {K : β → ThreadView → Prop} {v : ThreadView}
    {p : Server × ThreadLog} (hv : v.Sees p) (hw : threadSpec.pre o K v) :
    (threadOutline.spec threadSystem .callback).pre o (fun b p' => ∃ v' : ThreadView,
      v'.Sees p' ∧ K b v') p := by
  intro b p' hi h
  have hs := callbackStep_of_sem h
  obtain ⟨v', hv', hk⟩ := threadPre_step o hv hw hs
  have late : p'.2.late = false := by
    have outstanding : (o.reportsHalt && p.1.outboundOpen && p.2.due != p.1.threadEvents) = false := by
      cases o with
      | send m => exact late_of_send hv hw
      | _ => rfl
    rw [hs.late, hi.late, outstanding]
    rfl
  refine ⟨⟨⟨fun ha => ?_, late⟩, fun u hu => ?_⟩, fun p'' hr _ => ⟨v', hv'.rely hr, hk⟩⟩
  · rw [hv'.active] at ha
    cases ha
  · cases u <;> trivial

/-! ## The callbacks -/

/-- The operations of a callback that bear on no thread event. -/
def DapOp.leavesThreads : ∀ {β : Type}, DapOp β → Prop
  | _, .pushThreadEvent _ | _, .takeThreadEvents => False
  | _, .send m => m.threadEvent? = none ∧ m.reportsHalt = false
  | _, .call _ .currentThreadId | _, .call _ (.threadIdsByIndex _) => False
  | _, _ => True

/-- The operations of a callback that neither reports nor ends anything. -/
def DapOp.unreporting : ∀ {β : Type}, DapOp β → Prop
  | _, .pushThreadEvent _ | _, .takeThreadEvents | _, .setSession _ | _, .takeSession => False
  | _, .send m => m.isReport = false
  | _, .call _ .currentThreadId | _, .call _ (.threadIdsByIndex _) => False
  | _, _ => True

theorem DapOp.unreporting.leavesThreads {β : Type} {o : DapOp β} (h : o.unreporting) :
    o.leavesThreads := by
  cases o with
  | pushThreadEvent | takeThreadEvents => exact h.elim
  | send m => cases m with
    | response r => exact ⟨rfl, rfl⟩
    | event e => cases e <;> first | exact ⟨rfl, rfl⟩ | cases h
  | call id c => cases c <;> first | exact h.elim | trivial
  | _ => trivial

theorem threadPre_of_leaves {β : Type} {o : DapOp β} (ho : o.leavesThreads) {v : ThreadView} :
    threadSpec.pre o (fun _ v' => v' = v) v := by
  cases o with
  | pushThreadEvent | takeThreadEvents => exact ho.elim
  | send m =>
    obtain ⟨hm, hh⟩ := ho
    simp [threadSpec, threadPre, sendPre, hm, hh]
  | call id c => cases c <;> first | exact ho.elim | exact fun _ => rfl
  | _ => exact fun _ => rfl

/-- A program that bears on no thread event. -/
theorem leaves_view {α : Type} {p : Dap α} (hp : AllOps DapOp.leavesThreads p) (v : ThreadView) :
    p.wp threadSpec (fun _ v' => v' = v) (fun _ v' => v' = v) v := by
  refine wp_of_allOps (I := fun v' => v' = v) (fun o ho v' hv => ?_) hp rfl
  subst hv
  exact threadPre_of_leaves ho

/-- The calls that name no thread. -/
def Call.silent : ∀ {β : Type}, Call β → Prop
  | _, .currentThreadId | _, .threadIdsByIndex _ => False
  | _, _ => True

namespace Server

variable {id : SessionId}

theorem throwIfDisposed_view {v : ThreadView} {Q : Unit → ThreadView → Prop}
    {E : Exn → ThreadView → Prop} (hQ : Q () v) (hE : ∀ e, E e v) :
    (Session.throwIfDisposed id).wp threadSpec Q E v := by
  intro x
  change (ite _ _ _ : Dap Unit).wp _ _ _ v
  split
  · exact hE _
  · exact hQ

/-- Listing the threads settles what a thread callback owes. -/
theorem readThreadIds_view (v : ThreadView) (n : Nat) (hn : v.engineId = some n) :
    (Session.readThreadIds id).wp threadSpec
      (fun systemIds v' => v' = { v with
        owed := v.owed ++ dueEvents v.reason (some n) systemIds }) (fun _ v' => v' = v) v := by
  intro count
  cases count with
  | error hr => rfl
  | ok count =>
    change (ite _ _ _ : Dap (List Nat)).wp _ _ _ v
    split
    · simp [dueEvents]
    · intro r
      cases r with
      | error hr => rfl
      | ok systemIds => simp [Session.checkHr, hn]

theorem getCurrentThreadId_view (id : SessionId) (v : ThreadView) :
    (Session.getCurrentThreadId id).wp threadSpec
      (fun threadId v' => ∃ engineId, v' = { v with
        engineId, owed := v.owed ++ threadEventOf v.reason threadId })
      (fun _ v' => ∃ engineId, v' = { v with engineId }) v := by
  rw [Session.getCurrentThreadId, bind_eq, wp_bind]
  refine throwIfDisposed_view ?_ fun _ => ⟨v.engineId, rfl⟩
  intro r
  cases r with
  | error hr => exact ⟨_, rfl⟩
  | ok n =>
    change (Prog.bind (Session.readThreadIds id) _).wp _ _ _ { v with engineId := some n }
    rw [wp_bind]
    refine wp_mono (fun systemIds v' hv => ?_) (fun _ v' hv => ⟨some n, hv⟩)
      (readThreadIds_view { v with engineId := some n } n rfl)
    subst hv
    cases h : systemIds[n]? with
    | none => exact ⟨some n, by simp [dueEvents, h]⟩
    | some threadId => exact ⟨some n, by simp [dueEvents, h]⟩

/-- The event of a callback for the thread it has found, if any. -/
def eventFor (reason : Option ThreadEventBodyReason) (threadId : Option Int) : List ThreadEvent :=
  match reason, threadId with
  | some reason, some threadId => [{ reason, threadId }]
  | _, _ => []

theorem threadEventOf_eq (reason : Option ThreadEventBodyReason) (threadId : Nat) :
    threadEventOf reason threadId =
      eventFor reason (if (threadId : Int) > Factory.int32Max then none else some threadId) := by
  cases reason with
  | none => rfl
  | some reason =>
    rw [threadEventOf]
    split <;> rfl

theorem tryGetCurrentThreadId_view (v : ThreadView) {E : Exn → ThreadView → Prop} :
    (tryGetCurrentThreadId .callback).wp threadSpec
      (fun threadId v' => ∃ engineId, v' = { v with
        engineId, owed := v.owed ++ eventFor v.reason threadId }) E v := by
  have nothing (engineId : Option Nat) : ∃ engineId', { v with engineId } =
      ({ v with engineId := engineId', owed := v.owed ++ eventFor v.reason none } : ThreadView) :=
    ⟨engineId, by cases v.reason <;> simp [eventFor]⟩
  intro session
  cases session with
  | none => exact nothing v.engineId
  | some id =>
    have lookup := getCurrentThreadId_view id v
    change (Prog.catching (Prog.bind (DapDbgeng.invoke .callback (Session.getCurrentThreadId id)) _)
      _).wp _ _ _ v
    rw [wp_catching, wp_bind, DapDbgeng.invoke, if_pos rfl]
    refine wp_mono (fun threadId v' hv => ?_) (fun _ v' hv => ?_) lookup
    · obtain ⟨engineId, rfl⟩ := hv
      exact ⟨engineId, by rw [threadEventOf_eq]⟩
    · obtain ⟨engineId, rfl⟩ := hv
      exact nothing engineId

/-- Nothing in hand and nothing owed. -/
def AllSent (v : ThreadView) : Prop := v.hand = [] ∧ v.owed = []

theorem sendThreadEvents_view (events : List ThreadEvent) {v : ThreadView} (hh : v.hand = events)
    {E : Exn → ThreadView → Prop} :
    (Prog.forEach sendThreadEvent events).wp threadSpec (fun _ v' => v' = { v with hand := [] })
      E v := by
  induction events generalizing v with
  | nil => exact congrArg (fun hand => ({ v with hand } : ThreadView)) hh
  | cons e events ih =>
    obtain ⟨hand, owed, empty, reason, engineId⟩ := v
    cases hh
    have rest : (Prog.forEach sendThreadEvent events).wp threadSpec
        (fun _ v' => v' = { owed, empty, reason, engineId }) E
        { hand := events, owed, empty, reason, engineId } :=
      ih (v := { hand := events, owed, empty, reason, engineId }) rfl
    exact ⟨rfl, rest⟩

theorem flushPendingThreadEvents_view {v : ThreadView} (hh : v.hand = [])
    {E : Exn → ThreadView → Prop} :
    flushPendingThreadEvents.wp threadSpec
      (fun _ v' => v' = { v with hand := [], empty := true }) E v := by
  refine ⟨hh, fun events => ?_⟩
  have sent := sendThreadEvents_view events (v := { v with hand := events, empty := true }) rfl
    (E := E)
  exact sent

/-- The event goes to the buffer or to the writer. -/
theorem announce_view (running : Bool) (e : ThreadEvent) {v : ThreadView} (hh : v.hand = [])
    (ho : v.owed = [e]) {E : Exn → ThreadView → Prop} :
    (do
      let held ← if running then pure true else hasPendingStoppedEvent
      if held then Prog.perform (.pushThreadEvent e) else sendThreadEvent e : Dap Unit).wp threadSpec
      (fun _ => AllSent) E v := by
  have queue (held : Bool) : (if held then Prog.perform (.pushThreadEvent e)
      else sendThreadEvent e : Dap Unit).wp threadSpec (fun _ => AllSent) E v := by
    obtain ⟨hand, owed, empty, reason, engineId⟩ := v
    cases hh
    cases ho
    cases held with
    | true => exact ⟨rfl, [], rfl, rfl, rfl⟩
    | false => exact ⟨rfl, rfl, rfl⟩
  cases running with
  | true => exact queue true
  | false => exact queue

theorem queueThreadEvent_view (reason : ThreadEventBodyReason) {v : ThreadView}
    (hr : v.reason = some reason) (hh : v.hand = []) (ho : v.owed = [])
    {E : Exn → ThreadView → Prop} :
    (queueThreadEvent reason).wp threadSpec (fun _ => AllSent) E v := by
  rw [queueThreadEvent, bind_eq, wp_bind]
  refine wp_mono_val (fun threadId v' hv => ?_) (tryGetCurrentThreadId_view v)
  obtain ⟨engineId, rfl⟩ := hv
  rw [ho, hr, List.nil_append]
  cases threadId with
  | none => exact ⟨hh, rfl⟩
  | some threadId =>
    intro running
    have announced := announce_view running { reason, threadId } hh
      (v := { v with
        engineId, reason := some reason, owed := eventFor (some reason) (some threadId) }) rfl
      (E := E)
    exact announced

/-! ### Stops and ends -/

theorem invoke_callback {α : Type} (p : Dap α) : DapDbgeng.invoke .callback p = p := if_pos rfl

theorem unreporting_of_quiet {α : Type} {p : Dap α} (h : AllOps (DapOp.quiet Call.silent) p) :
    AllOps DapOp.unreporting p := by
  refine h.mono fun {β} o ho => ?_
  cases o with
  | send m => cases m with
    | response r => exact ho.elim
    | event e => cases e <;> first | exact ho.elim | rfl
  | call id c => cases c <;> exact ho
  | pushThreadEvent | takeThreadEvents | setSession | takeSession => exact ho.elim
  | _ => trivial

theorem continue_unreporting (id : SessionId) :
    AllOps DapOp.unreporting (Session.continue_ id) :=
  .bind (.perform trivial) fun _ =>
    unreporting_of_quiet (Session.executeDebuggerCommand_quiet id trivial _)

theorem destroy_leaves (id : SessionId) :
    AllOps DapOp.leavesThreads (Session.destroy .callback id) := by
  have rest : AllOps DapOp.leavesThreads (do
      Session.disconnectProcessServer id
      updateSession id .dispose) :=
    .bind (.bind (.perform trivial) fun _ => .ite trivial
      (.bind (.perform trivial) fun _ => .perform trivial)) fun _ => .perform trivial
  refine .bind (.perform trivial) fun s => .ite trivial (.bind (.perform trivial) fun _ => ?_)
  exact .ite (.bind (.perform trivial) fun _ => rest) rest

theorem resetAfterDispose_leaves : AllOps DapOp.leavesThreads resetAfterDispose :=
  .bind (.perform trivial) fun _ => .bind (.perform trivial) fun _ => .bind (.perform trivial)
    fun _ => .bind (.bind (.perform trivial) fun _ => .bind (.perform trivial) fun _ =>
      .perform trivial) fun _ => .bind (.perform trivial) fun _ => .bind (.perform trivial) fun _ =>
        .bind (.bind (.perform trivial) fun _ => .perform trivial) fun _ =>
          .bind (.bind (.perform trivial) fun _ => .perform trivial) fun _ =>
            .bind (.perform trivial) fun _ => .bind (.perform trivial) fun _ =>
              .bind (.perform trivial) fun _ => .perform trivial

theorem disposeDebuggerSession_leaves :
    AllOps DapOp.leavesThreads (disposeDebuggerSession .callback) := by
  refine .bind (.perform trivial) fun session => ?_
  cases session with
  | none => exact resetAfterDispose_leaves
  | some id =>
    refine .bind (.bind (.perform trivial) fun old => ?_) fun _ => resetAfterDispose_leaves
    cases old with
    | none => trivial
    | some old => exact destroy_leaves old

theorem sendEvent_view {e : Event} {v : ThreadView} (he : (Message.event e).threadEvent? = none)
    (hv : AllSent v) (hempty : v.empty = true) {E : Exn → ThreadView → Prop} :
    (sendEvent e).wp threadSpec (fun _ v' => v' = v) E v := by
  change sendPre (.event e) _ v
  simp only [sendPre, he]
  exact ⟨fun _ => ⟨hv.1, hv.2, hempty⟩, rfl⟩

theorem onBreakHit_view {v : ThreadView} (hv : AllSent v) (hr : v.reason = none)
    {E : Exn → ThreadView → Prop} : onBreakHit.wp threadSpec (fun _ => AllSent) E v := by
  have report (p : PendingStoppedEvent) : (do
      flushPendingThreadEvents
      let threadId ← tryGetCurrentThreadId .callback
      sendEvent (Factory.createStoppedEvent p.reason p.description threadId p.hitBreakpointIds)).wp
      threadSpec (fun _ => AllSent) E v := by
    rw [bind_eq, wp_bind]
    refine wp_mono_val (fun _ v' hv' => ?_) (flushPendingThreadEvents_view hv.1)
    subst hv'
    rw [bind_eq, wp_bind]
    refine wp_mono_val (fun threadId v' hv' => ?_) (tryGetCurrentThreadId_view _)
    obtain ⟨engineId, rfl⟩ := hv'
    have howed : v.owed ++ eventFor v.reason threadId = [] := by rw [hv.2, hr]; rfl
    refine wp_mono_val (fun _ v' hv' => ?_) (sendEvent_view rfl ⟨rfl, howed⟩ rfl)
    subst hv'
    exact ⟨rfl, howed⟩
  intro skip
  cases skip with
  | true => exact fun _ => hv
  | false =>
    intro _ _ pending suppressed
    cases suppressed with
    | true => exact hv
    | false => cases pending with
      | none => exact hv
      | some p => exact report p

/-- A program that bears on no thread event leaves everything sent. -/
theorem allSent_of_leaves {α : Type} {p : Dap α} (hp : AllOps DapOp.leavesThreads p)
    {v : ThreadView} (hv : AllSent v) :
    p.wp threadSpec (fun _ => AllSent) (fun _ => AllSent) v := by
  refine wp_mono (fun _ v' h => ?_) (fun _ v' h => ?_) (leaves_view hp v)
  · rw [h]; exact hv
  · rw [h]; exact hv

/-- How a session ends once the buffer is flushed. -/
theorem finish_view {v : ThreadView} (hv : AllSent v) (hempty : v.empty = true) :
    (do
      sendEvent .terminated
      disposeDebuggerSession .callback
      store .shouldExit true).wp threadSpec (fun _ => AllSent) (fun _ => AllSent) v := by
  rw [bind_eq, wp_bind]
  refine wp_mono_val (fun _ v' hv' => ?_) (sendEvent_view rfl hv hempty)
  subst hv'
  have leaves : AllOps DapOp.leavesThreads (do
      disposeDebuggerSession .callback
      store .shouldExit true) := .bind disposeDebuggerSession_leaves fun _ => .perform trivial
  exact allSent_of_leaves leaves hv

theorem queueSessionTermination_view (exitCode : Int) {v : ThreadView} (hv : AllSent v) :
    (queueSessionTermination exitCode).wp threadSpec (fun _ => AllSent) (fun _ => AllSent) v := by
  have rest : (do
      flushPendingThreadEvents
      sendEvent (.exited exitCode)
      sendEvent .terminated
      disposeDebuggerSession .callback
      store .shouldExit true).wp threadSpec (fun _ => AllSent) (fun _ => AllSent) v := by
    rw [bind_eq, wp_bind]
    refine wp_mono_val (fun _ v' hv' => ?_) (flushPendingThreadEvents_view hv.1)
    subst hv'
    rw [bind_eq, wp_bind]
    have sent : AllSent { v with hand := [], empty := true } := ⟨rfl, hv.2⟩
    refine wp_mono_val (fun _ v' hv' => ?_) (sendEvent_view rfl sent rfl)
    subst hv'
    exact finish_view sent rfl
  exact fun _ _ => rest

theorem queueSessionEnded_view {v : ThreadView} (hv : AllSent v) :
    queueSessionEnded.wp threadSpec (fun _ => AllSent) (fun _ => AllSent) v := by
  have rest : (do
      flushPendingThreadEvents
      sendEvent .terminated
      disposeDebuggerSession .callback
      store .shouldExit true).wp threadSpec (fun _ => AllSent) (fun _ => AllSent) v := by
    rw [bind_eq, wp_bind]
    refine wp_mono_val (fun _ v' hv' => ?_) (flushPendingThreadEvents_view hv.1)
    subst hv'
    exact finish_view ⟨rfl, hv.2⟩ rfl
  intro _ _ session
  cases session with
  | none => exact hv
  | some id => exact rest

/-! ### The other callbacks -/

theorem autoContinue_unreporting (id : SessionId) : AllOps DapOp.unreporting (autoContinue id) :=
  .bind (.bind (.perform trivial) fun _ => .perform trivial) fun _ => .bind (.perform trivial)
    fun _ => .bind (.perform trivial) fun _ => .bind (.perform trivial) fun _ =>
      .bind (.perform trivial) fun _ => continue_unreporting id

theorem recordStop_unreporting {record : Dap Unit} (h : AllOps DapOp.unreporting record) :
    AllOps DapOp.unreporting (recordStop record) :=
  .bind (.bind (.perform trivial) fun _ => trivial) fun _ => .ite trivial <|
    .bind (.perform trivial) fun _ => .bind (.perform trivial) fun _ =>
      .bind (.perform trivial) fun _ => .ite (.perform trivial) h

theorem onBreakpointHit_unreporting (id : SessionId) (breakpointId : Nat) :
    AllOps DapOp.unreporting (onBreakpointHit id breakpointId) := by
  have evaluated (condition : String) :
      AllOps DapOp.unreporting (tryEvaluateConditionalBreakpoint id condition) :=
    .catching (.bind (unreporting_of_quiet (Session.executeCommandWithOutput_quiet id trivial _))
      fun _ => trivial) fun _ => trivial
  have auto : AllOps DapOp.unreporting (tryAutoContinueConditionalBreakpointHit id breakpointId) := by
    refine .bind (.perform trivial) fun d => ?_
    cases d.conditionalBreakpointConditionsById.get? (Factory.toInt32 breakpointId) with
    | none => trivial
    | some condition =>
      exact .bind (evaluated condition) fun _ => .ite trivial
        (.bind (autoContinue_unreporting id) fun _ => trivial)
  exact .bind auto fun _ => .ite trivial (recordStop_unreporting (.perform trivial))

theorem onExceptionHit_unreporting (id : SessionId) (exceptionCode : Nat) :
    AllOps DapOp.unreporting (onExceptionHit id exceptionCode) := by
  have auto : AllOps DapOp.unreporting (tryAutoContinueKernelInitialBreak id) :=
    .bind (.perform trivial) fun _ => .ite trivial <| .bind (.perform trivial) fun _ =>
      .ite trivial <| .bind (.perform trivial) fun _ =>
        .bind (autoContinue_unreporting id) fun _ => trivial
  exact .bind auto fun _ => .ite trivial <| recordStop_unreporting <| .bind (.perform trivial) fun _ =>
    .ite trivial (.perform trivial)

theorem onCallback_unreporting (id : SessionId) {event : Callback} (h : event.reports = false) :
    AllOps DapOp.unreporting (onCallback id event) := by
  cases event with
  | breakpoint =>
    exact .bind (.bind (.perform trivial) fun _ => trivial) fun _ => onBreakpointHit_unreporting id _
  | exception code address firstChance =>
    exact .bind (.perform trivial) fun _ => .ite trivial <| .bind (.perform trivial) fun _ =>
      onExceptionHit_unreporting id _
  | systemError error => exact onExceptionHit_unreporting id error
  | output text =>
    exact .ite trivial (unreporting_of_quiet (Session.handleOutputReceived_quiet id text))
  | _ => cases h

theorem onCallback_view (id : SessionId) (event : Callback) :
    (onCallback id event).wp threadSpec (fun _ => AllSent) (fun _ => AllSent)
      { reason := event.threadReason } := by
  have start : AllSent { reason := event.threadReason } := ⟨rfl, rfl⟩
  cases event with
  | break_ => exact onBreakHit_view start rfl
  | noDebuggee => exact queueSessionEnded_view start
  | sessionEnd => exact queueSessionEnded_view start
  | exitProcess exitCode => exact queueSessionTermination_view _ start
  | createThread => exact queueThreadEvent_view .started rfl rfl rfl
  | exitThread => exact queueThreadEvent_view .exited rfl rfl rfl
  | _ =>
    exact allSent_of_leaves ((onCallback_unreporting id rfl).mono fun _ ho => ho.leavesThreads) start

end Server

/-! ## Every run -/

namespace ThreadEvents

open Server

variable {t : Tid} {j : Job} {p p' : Server × ThreadLog}

theorem safe_of_permitted (ht : j.thread ≠ .callback) (p : Server × ThreadLog) :
    threadOutline.Safe threadSystem j.thread j j.body p :=
  Outline.safe_of_allOps (Job.body_permitted ht)
    (fun o _ _ _ ho hi h => keeps_of_permitted j.permit_thread ht Job.permit_reports o ho hi h)
    (fun _ _ => ⟨rfl, fun h => absurd h ht⟩) p

/-- A step of another thread that leaves thread events and log alone. -/
theorem keeps_of_same (hi : ThreadInv p) (hs : SameThreads p.1 p'.1)
    (hl : p'.2 = p.2) : threadOutline.Keeps t p p' := by
  have rely : ThreadRely p p' := ⟨hs, by rw [hl], by rw [hl], by rw [hl]⟩
  refine ⟨⟨fun ha => (hi.settled (hs.callbackActive ▸ ha)).rely rely, by rw [hl]; exact hi.late⟩,
    fun u hu => ?_⟩
  cases u with
  | callback => exact rely
  | _ => trivial

theorem callback_safe (id : SessionId) (event : Callback) (threads : List (Nat × Nat))
    (current : Nat) (h : ThreadView.Sees { reason := event.threadReason } p) :
    threadOutline.Safe threadSystem .callback (.callback id event threads current)
      (Job.callback id event threads current).body p := by
  intro p' hr hi
  have settled {p : Server × ThreadLog} (h : ∃ v : ThreadView, v.Sees p ∧ AllSent v) :
      Balanced [] [] p := by
    obtain ⟨v, hv, hh, ho⟩ := h
    have hb := hv.balanced
    rwa [hh, ho] at hb
  have hw := wp_of_view threadPre_outline (h.rely hr) (onCallback_view id event)
  change (Prog.bind (onCallback id event) fun _ => .ret false).wp _ _ _ p'
  rw [wp_bind]
  exact wp_mono (fun _ _ h => ⟨rfl, fun _ => settled h⟩) (fun _ _ h => ⟨rfl, fun _ => settled h⟩) hw

theorem start_valid (hi : ThreadInv p) (h : threadSystem.start t j p p') :
    threadOutline.Keeps t p p' ∧ threadOutline.Safe threadSystem t j j.body p' := by
  obtain ⟨⟨hs, hl⟩, -⟩ := h
  have hs : startJob t j p.1 = some p'.1 := hs
  have ht := startJob_thread hs
  subst ht
  by_cases hc : j.thread = .callback
  · cases j with
    | callback id event threads current =>
      obtain ⟨hreport, hs⟩ := startJob_callback hs
      have idle : p.1.callbackActive = false := by
        simp only [mayReport, Bool.and_eq_true, Bool.not_eq_true'] at hreport
        exact hreport.1.1
      have sees : ThreadView.Sees { reason := event.threadReason } p' := by
        refine ⟨by rw [hs], fun ho => ?_, nofun, by rw [hl]; rfl, by rw [hl]; rfl⟩
        have hb := hi.settled idle (by rw [hs] at ho; exact ho)
        rw [hl, hs]
        exact hb
      refine ⟨⟨⟨fun ha => ?_, by rw [hl]; exact hi.late⟩, fun u hu => ?_⟩,
        callback_safe id event threads current sees⟩
      · rw [sees.active] at ha
        cases ha
      · cases u <;> trivial
    | _ => cases hc
  · obtain ⟨pump, mode, outboundOpen, hs, ho⟩ := startJob_of_ne hc hs
    have hlog : p'.2 = p.2 := by
      rw [hl]
      cases j with
      | callback => exact absurd rfl hc
      | _ => rfl
    refine ⟨keeps_of_same hi ?_ hlog, safe_of_permitted hc p'⟩
    rw [hs]
    exact ⟨rfl, rfl, ho, rfl⟩

theorem finish_valid {r : Except Exn Bool} (hi : ThreadInv p) (hp : threadOutline.post t j r p)
    (h : threadSystem.finish t j r p p') : threadOutline.Keeps t p p' := by
  obtain ⟨⟨hf, hl⟩, -⟩ := h
  have hf : finishJob j r p.1 = some p'.1 := hf
  have hl : p'.2 = p.2 := hl
  obtain ⟨rfl, hb⟩ := hp
  by_cases hc : j.thread = .callback
  · cases j with
    | callback id event threads current =>
      have hs := finishJob_callback hf
      refine ⟨⟨fun _ ho => ?_, by rw [hl]; exact hi.late⟩, fun u hu => ?_⟩
      · rw [hs] at ho ⊢
        rw [hl]
        exact hb rfl ho
      · cases u <;> trivial
    | _ => cases hc
  · obtain ⟨mode, loop, hs⟩ := finishJob_of_ne hc hf
    refine keeps_of_same hi ?_ hl
    rw [hs]
    exact ⟨rfl, rfl, id, rfl⟩

theorem outline_valid (fullPath : String → String) :
    threadOutline.Valid threadSystem ({ fullPath }, {}) where
  init := ⟨fun _ _ => rfl, rfl⟩
  start hi h := start_valid hi h
  finish hi hp h := finish_valid hi hp h

end ThreadEvents

/-- **Thread events.**  In every run in which no step forgets buffered thread events, sends one past
them or reports over them from outside a callback, every thread callback has had its event sent or
buffered, in order, and none was outstanding when a halt or an end was reported. -/
theorem threadEvents_delivered {fullPath : String → String}
    {ls : List Lab} {c : Config Tid DapOp Job Exn Bool (Server × ThreadLog)}
    (hr : threadSystem.Run (.init ({ fullPath }, {})) ls c) :
    (c.state.1.callbackActive = false → c.state.1.outboundOpen = true →
      c.state.2.due = c.state.1.threadEvents ++ c.state.1.pendingThreadEvents) ∧
        c.state.2.late = false := by
  have inv := Outline.sound (ThreadEvents.outline_valid fullPath) hr
  refine ⟨fun ha ho => ?_, inv.late⟩
  have balanced := inv.settled ha ho
  rw [balanced]
  simp

/-- A thread starts while the target runs. -/
def threadWhileRunning : Schedule := Schedule.launchAndPark ++ Schedule.report .createThread

theorem threadSystem_eq :
    (threadMachine.guarded keepsThreadEvents).system = threadSystem := by
  rw [Machine.guarded_system, threadMachine, Machine.instrument_system]
  rfl

/-- A breakpoint after a thread has started: the buffered event goes out before the stop. -/
theorem breakpoint_flushes : ∃ (ls : List Lab)
    (c : Config Tid DapOp Job Exn Bool (Server × ThreadLog)),
      threadSystem.Run (.init ({}, {})) ls c ∧ c.state.1.pendingThreadEvents = [] ∧
        c.state.2.due.length = 2 ∧ c.state.2.due = c.state.1.threadEvents ∧
          c.state.2.late = false := by
  have hrun : ((threadMachine.guarded keepsThreadEvents).exec
      (threadWhileRunning ++ Schedule.report .breakpoint ++ Schedule.report .break_)
      (.init ({}, {}))).any (fun c => !c.state.1.callbackActive && c.state.1.outboundOpen &&
        c.state.1.pendingThreadEvents.isEmpty && c.state.2.due.length == 2) = true := by
    decide +kernel
  obtain ⟨c, hc, ht⟩ := (Option.any_eq_true _ _).1 hrun
  obtain ⟨ls, hr⟩ := Machine.exec_run hc
  rw [threadSystem_eq] at hr
  simp only [Bool.and_eq_true, Bool.not_eq_true', List.isEmpty_iff, beq_iff_eq] at ht
  obtain ⟨⟨⟨ha, ho⟩, he⟩, hd⟩ := ht
  have delivered := @threadEvents_delivered id ls c hr
  have sent := delivered.1 ha ho
  rw [he, List.append_nil] at sent
  exact ⟨ls, c, hr, he, hd, sent, delivered.2⟩

/-- A pause forgets the event of a thread that started while the target ran. -/
theorem pause_drops_thread : ¬∀ (ls : List Lab)
    (c : Config Tid DapOp Job Exn Bool (Server × ThreadLog)),
      (adapter.system.instrument ThreadLog.record).Run (.init ({}, {})) ls c →
        c.state.1.callbackActive = false → c.state.1.outboundOpen = true →
          c.state.2.due = c.state.1.threadEvents ++ c.state.1.pendingThreadEvents := by
  intro hall
  have hrun : (threadMachine.exec (threadWhileRunning ++
      Schedule.serve (Schedule.message 3 "pause" [("threadId", .int 100)])) (.init ({}, {}))).any
      (fun c => !c.state.1.callbackActive && c.state.1.outboundOpen &&
        c.state.2.due != c.state.1.threadEvents ++ c.state.1.pendingThreadEvents) = true := by
    decide +kernel
  obtain ⟨c, hc, ht⟩ := (Option.any_eq_true _ _).1 hrun
  obtain ⟨ls, hr⟩ := Machine.exec_run hc
  rw [threadMachine, Machine.instrument_system] at hr
  simp only [Bool.and_eq_true, Bool.not_eq_true', bne_iff_ne] at ht
  exact ht.2 (hall ls c hr ht.1.1 ht.1.2)

end DapDbgeng
