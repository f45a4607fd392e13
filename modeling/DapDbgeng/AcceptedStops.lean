/-
  Pauses and steps that have been accepted.

  A pause or a step records the stop it will end in, and a break reports what is recorded.  Three
  branches of the callbacks give the record up instead: an automatic continuation, a stop inside a
  breakpoint update, and a break inside one; and a pause that fails withdraws whatever is recorded.

  * `AcceptLog`: the stops accepted, and those of them that the client has not been told of;
  * `AcceptLog.record`: what becomes of them;
  * `keepsAccepted`: none of these branches is taken while such a stop is recorded;
  * `AcceptKept`: a stop not told of is recorded, or about to be reported, or its request failed;
  * `takingSpec`: the callbacks, by whether they have a record to report;
  * `honestSpec`: the requests, by what they have recorded, withdrawn and answered.

  Main result: `accepted_kept`, on every run of such steps.
-/
import DapDbgeng.SuppressedStops

namespace DapDbgeng

open Concurrent Concurrent.Prog

/-! ## History -/

/-- The stops that requests have recorded, numbered in the order of their acceptance. -/
structure AcceptLog where
  next : ℕ := 0
  /-- The stops that the latest request has recorded. -/
  own : List ℕ := []
  /-- The latest request has taken its record back. -/
  withdrawn : Bool := false
  /-- The latest request has been answered with success. -/
  succeeded : Bool := false
  /-- The stops that the client has not been told of. -/
  outstanding : List ℕ := []
  /-- The stops that the callback in progress has taken the record of. -/
  taken : List ℕ := []

/-- What an operation of a thread adds. -/
def DapOp.acceptLog (t : Tid) (s : Server) (h : AcceptLog) : ∀ {β : Type}, DapOp β → β → AcceptLog
  | _, .setPending _, _ =>
    if t = .request then
      { h with
        next := h.next + 1
        own := h.next :: h.own
        outstanding := h.next :: h.outstanding }
    else h
  | _, .clearPending, _ =>
    if t = .request then { h with withdrawn := h.withdrawn || !h.own.isEmpty } else h
  | _, .takePending, _ =>
    if s.pendingStoppedEvent.isSome then { h with taken := h.outstanding } else h
  | _, .setSession (some _), _ => { h with outstanding := [] }
  | _, .send (.event (.stopped _)), _ =>
    if t = .callback then
      { h with outstanding := h.outstanding.filter fun n => !h.taken.contains n, taken := [] }
    else h
  | _, .send (.response r), _ =>
    if t = .request then { h with succeeded := h.succeeded || r.success } else h
  | _, _, _ => h

section

variable {t : Tid} {s : Server} {h : AcceptLog}

@[simp] theorem acceptLog_setPending {p : PendingStoppedEvent} {u : Unit} :
    (DapOp.setPending p).acceptLog t s h u = if t = .request then
      { h with
        next := h.next + 1
        own := h.next :: h.own
        outstanding := h.next :: h.outstanding }
    else h := rfl

@[simp] theorem acceptLog_clearPending {u : Unit} : DapOp.clearPending.acceptLog t s h u =
    if t = .request then { h with withdrawn := h.withdrawn || !h.own.isEmpty } else h := rfl

@[simp] theorem acceptLog_takePending {r : Option PendingStoppedEvent} :
    DapOp.takePending.acceptLog t s h r =
      if s.pendingStoppedEvent.isSome then { h with taken := h.outstanding } else h := rfl

@[simp] theorem acceptLog_stopped {body : StoppedEventBody} {u : Unit} :
    (DapOp.send (.event (.stopped body))).acceptLog t s h u = if t = .callback then
      { h with outstanding := h.outstanding.filter fun n => !h.taken.contains n, taken := [] }
    else h := rfl

@[simp] theorem acceptLog_response {r : Response} {u : Unit} :
    (DapOp.send (.response r)).acceptLog t s h u =
      if t = .request then { h with succeeded := h.succeeded || r.success } else h := rfl

end

/-- The next message is handled: a request that was not answered with success has failed. -/
def AcceptLog.settle (h : AcceptLog) : AcceptLog :=
  { h with
    own := []
    withdrawn := false
    succeeded := false
    outstanding := if h.succeeded then h.outstanding
      else h.outstanding.filter fun n => !h.own.contains n }

def AcceptLog.record : Lab → Server → AcceptLog → AcceptLog
  | .start _ (.request _), _, h | .start _ .teardown, _, h => h.settle
  | .finish _ (.callback ..) _, _, h => { h with taken := [] }
  | .op t e, s, h => e.op.acceptLog t s h e.result
  | _, _, h => h

/-- The branches that go wrong are not taken.  In a session a callback gives a record up where it
continues the target by itself, and where it reports a stop inside a breakpoint update: no accepted
stop is outstanding then.  A request gives one up where it fails: only its own are outstanding.  And
no break that has taken a record finds itself inside an update. -/
def DapOp.keepsAccepted (t : Tid) (p : Server × AcceptLog) : ∀ {β : Type}, DapOp β → β → Bool
  | _, .clearPending, _ => p.1.session.isNone || p.1.pendingStoppedEvent.isNone ||
    p.2.outstanding.all fun n => t == .request && p.2.own.contains n
  | _, .load .suppressSessionEvents, suppressed =>
    t != .callback || !suppressed || p.2.taken.isEmpty
  | _, _, _ => true

def keepsAccepted : Lab → Server × AcceptLog → Bool
  | .op t e, p => e.op.keepsAccepted t p e.result
  | _, _ => true

/-- The adapter with its log of accepted stops, taking such steps only. -/
def acceptSystem : System Tid DapOp Job Exn Bool (Server × AcceptLog) :=
  (adapter.system.instrument AcceptLog.record).restrict fun l p => keepsAccepted l p = true

/-- In a session, an accepted stop that the client has not been told of is recorded, or a callback
is about to report it, or its request has taken it back and is not answered with success. -/
def AcceptKept (p : Server × AcceptLog) : Prop :=
  p.1.session.isSome = true → ∀ n ∈ p.2.outstanding, p.1.pendingStoppedEvent.isSome = true ∨
    n ∈ p.2.taken ∨ n ∈ p.2.own ∧ p.2.withdrawn = true ∧ p.2.succeeded = false

/-! ## The outline -/

/-- Where a stop that has not been told of is. -/
def AcceptLog.Held (s : Server) (h : AcceptLog) (n : ℕ) : Prop :=
  s.pendingStoppedEvent.isSome = true ∨ n ∈ h.taken ∨ n ∈ h.own ∧ h.withdrawn = true

structure AcceptInv (p : Server × AcceptLog) : Prop where
  held : p.1.session.isSome = true → ∀ n ∈ p.2.outstanding, p.2.Held p.1 n
  idle : p.1.callbackActive = false → p.2.taken = []
  failing : p.2.withdrawn = true → p.2.succeeded = false

theorem AcceptInv.kept {p : Server × AcceptLog} (hi : AcceptInv p) : AcceptKept p := by
  intro hs n hn
  obtain hpending | htaken | ⟨hown, hwithdrawn⟩ := hi.held hs n hn
  · exact .inl hpending
  · exact .inr (.inl htaken)
  · exact .inr (.inr ⟨hown, hwithdrawn, hi.failing hwithdrawn⟩)

/-- What the other threads leave to a callback. -/
structure TakenRely (p p' : Server × AcceptLog) : Prop where
  active : p'.1.callbackActive = p.1.callbackActive
  taken : p'.2.taken = p.2.taken

/-- What the other threads leave to a request. -/
structure OwnRely (p p' : Server × AcceptLog) : Prop where
  own : p'.2.own = p.2.own
  withdrawn : p'.2.withdrawn = p.2.withdrawn
  succeeded : p'.2.succeeded = p.2.succeeded

def acceptOutline : Outline Tid Job Exn Bool (Server × AcceptLog) where
  Inv := AcceptInv
  rely
    | .callback => TakenRely
    | .request => OwnRely
    | _ => fun _ _ => True
  post t j r p := t = j.thread ∧ (t = .callback → r.isOk = true → p.2.taken = [])
  rely_refl t p := by
    cases t with
    | callback => exact ⟨rfl, rfl⟩
    | request => exact ⟨rfl, rfl, rfl⟩
    | _ => trivial
  rely_trans {t} _ _ _ h h' := by
    cases t with
    | callback => exact ⟨h'.active.trans h.active, h'.taken.trans h.taken⟩
    | request =>
      exact ⟨h'.own.trans h.own, h'.withdrawn.trans h.withdrawn, h'.succeeded.trans h.succeeded⟩
    | _ => trivial

/-! ## Operations -/

/-- What a request may do: it withdraws before it succeeds, and does not succeed afterwards. -/
def DapOp.honest (h : AcceptLog) : ∀ {β : Type}, DapOp β → Prop
  | _, .clearPending => h.own ≠ [] → h.succeeded = false
  | _, .send (.response r) => r.success = true → h.withdrawn = false
  | _, _ => True

def DapOp.movesSession : ∀ {β : Type}, DapOp β → Bool
  | _, .setSession _ | _, .takeSession => true
  | _, _ => false

theorem sem_session_same {t : Tid} {β : Type} {o : DapOp β} {s s' : Server} {b : β}
    (ho : o.movesSession = false) (h : sem t β o s b s') : s'.session = s.session := by
  cases o with
  | setSession | takeSession => cases ho
  | setPending => rw [sem_setPending.1 h]
  | clearPending => rw [sem_clearPending.1 h]
  | takePending => obtain ⟨-, rfl⟩ := sem_takePending.1 h; rfl
  | send m => rw [sem_send.1 h]; split <;> rfl
  | call id c => obtain ⟨_, _, -, -, rfl⟩ := sem_call h; rfl
  | leave id c => obtain ⟨-, -, _, _, -, rfl⟩ := sem_leave h; rfl
  | enter id c => obtain ⟨_, -, -, -, rfl⟩ := sem_enter.1 h; rfl
  | acquire => obtain ⟨_, -, -, rfl⟩ := sem_acquire.1 h; rfl
  | lockGate => obtain ⟨-, rfl⟩ := sem_lockGate.1 h; rfl
  | joinLoop => obtain ⟨-, rfl⟩ := sem_joinLoop.1 h; rfl
  | _ => obtain ⟨_, h⟩ := h; cases h; rfl

section

variable {t : Tid} {β : Type}

/-- No operation that the condition lets pass loses a stop. -/
theorem acceptLog_held {o : DapOp β} {s s' : Server} {h : AcceptLog} {b : β}
    (hk : o.keepsAccepted t (s, h) b = true) (hs : sem t β o s b s')
    (hi : s.session.isSome = true → ∀ n ∈ h.outstanding, h.Held s n)
    (hsession : s'.session.isSome = true) :
    ∀ n ∈ (o.acceptLog t s h b).outstanding, (o.acceptLog t s h b).Held s' n := by
  -- an operation that moves neither the session nor the record, and logs neither
  have silent {l : AcceptLog} (hm : o.movesSession = false) (hp : o.touchesPending = false)
      (houtstanding : l.outstanding = h.outstanding) (htaken : l.taken = h.taken)
      (hown : l.own = h.own) (hwithdrawn : l.withdrawn = h.withdrawn) :
      ∀ n ∈ l.outstanding, l.Held s' n := by
    intro n hn
    have hheld := hi (by rw [← sem_session_same hm hs]; exact hsession) n (houtstanding ▸ hn)
    rw [AcceptLog.Held, (sem_pending hs).2 hp, htaken, hown, hwithdrawn]
    exact hheld
  cases o with
  | setPending p =>
    intro n _
    rw [sem_setPending.1 hs]
    exact .inl rfl
  | clearPending =>
    have hk : (s.session.isNone || s.pendingStoppedEvent.isNone ||
      h.outstanding.all fun n => t == .request && h.own.contains n) = true := hk
    have hsome : s.session.isSome = true := by
      rw [← sem_session_same (o := .clearPending) rfl hs]
      exact hsession
    rw [Option.isNone_eq_false_iff.2 hsome, Bool.false_or, Bool.or_eq_true] at hk
    rw [acceptLog_clearPending]
    intro n hn
    have hn : n ∈ h.outstanding := by
      split at hn <;> exact hn
    obtain hnone | hall := hk
    · -- there was no record to give up
      obtain hpending | htaken | ⟨hown, hwithdrawn⟩ := hi hsome n hn
      · rw [Option.isNone_iff_eq_none.1 hnone] at hpending
        cases hpending
      · refine .inr (.inl ?_)
        split <;> exact htaken
      · refine .inr (.inr ?_)
        split
        · exact ⟨hown, by rw [hwithdrawn, Bool.true_or]⟩
        · exact ⟨hown, hwithdrawn⟩
    · -- a request gives up its own
      have hown := List.all_eq_true.1 hall n hn
      simp only [Bool.and_eq_true, beq_iff_eq, List.contains_eq_mem, decide_eq_true_eq] at hown
      obtain ⟨rfl, hown⟩ := hown
      rw [if_pos rfl]
      refine .inr (.inr ⟨hown, ?_⟩)
      have hne : h.own.isEmpty = false := by
        cases howned : h.own with
        | nil => rw [howned] at hown; cases hown
        | cons => rfl
      rw [hne, Bool.not_false, Bool.or_true]
  | takePending =>
    rw [acceptLog_takePending]
    intro n hn
    have hsome : s.session.isSome = true := by
      rw [← sem_session_same (o := .takePending) rfl hs]
      exact hsession
    have hn : n ∈ h.outstanding := by
      split at hn <;> exact hn
    split
    · exact .inr (.inl hn)
    · rename_i hpending
      exact .inr ((hi hsome n hn).resolve_left hpending)
  | setSession id =>
    cases id with
    | none => rw [sem_setSession.1 hs] at hsession; cases hsession
    | some id =>
      intro n hn
      cases hn
  | takeSession => obtain ⟨-, rfl⟩ := sem_takeSession.1 hs; cases hsession
  | send m =>
    cases m with
    | response r =>
      rw [acceptLog_response]
      split <;> exact silent rfl rfl rfl rfl rfl rfl
    | event e =>
      cases e with
      | stopped body =>
        rw [acceptLog_stopped]
        split
        · intro n hn
          obtain ⟨hn, htaken⟩ := List.mem_filter.1 hn
          obtain hpending | htaken' | hown := silent (l := h) rfl rfl rfl rfl rfl rfl n hn
          · exact .inl hpending
          · rw [List.contains_iff_mem.2 htaken'] at htaken
            cases htaken
          · exact .inr (.inr hown)
        · exact silent rfl rfl rfl rfl rfl rfl
      | _ => exact silent rfl rfl rfl rfl rfl rfl
  | _ => exact silent rfl rfl rfl rfl rfl rfl

theorem acceptLog_taken (o : DapOp β) {s : Server} {h : AcceptLog} {b : β} (ht : t ≠ .callback)
    (ho : o.takesPending = false) : (o.acceptLog t s h b).taken = h.taken := by
  cases o with
  | takePending => cases ho
  | setPending p =>
    rw [acceptLog_setPending]
    split <;> rfl
  | clearPending =>
    rw [acceptLog_clearPending]
    split <;> rfl
  | setSession id => cases id <;> rfl
  | send m =>
    cases m with
    | response r =>
      rw [acceptLog_response]
      split <;> rfl
    | event e =>
      cases e with
      | stopped body => rw [acceptLog_stopped, if_neg ht]
      | _ => rfl
  | _ => rfl

theorem acceptLog_own (o : DapOp β) {s : Server} {h : AcceptLog} {b : β} (ht : t ≠ .request) :
    (o.acceptLog t s h b).own = h.own ∧ (o.acceptLog t s h b).withdrawn = h.withdrawn ∧
      (o.acceptLog t s h b).succeeded = h.succeeded := by
  have same : h.own = h.own ∧ h.withdrawn = h.withdrawn ∧ h.succeeded = h.succeeded :=
    ⟨rfl, rfl, rfl⟩
  cases o with
  | setPending p =>
    rw [acceptLog_setPending, if_neg ht]
    exact same
  | clearPending =>
    rw [acceptLog_clearPending, if_neg ht]
    exact same
  | takePending =>
    rw [acceptLog_takePending]
    split <;> exact same
  | setSession id => cases id <;> exact same
  | send m =>
    cases m with
    | response r =>
      rw [acceptLog_response, if_neg ht]
      exact same
    | event e =>
      cases e with
      | stopped body =>
        rw [acceptLog_stopped]
        split <;> exact same
      | _ => exact same
  | _ => exact same

/-- An honest request does not succeed with what it has taken back. -/
theorem acceptLog_failing {o : DapOp β} {s : Server} {h : AcceptLog} {b : β}
    (ho : t = .request → o.honest h) (hi : h.withdrawn = true → h.succeeded = false) :
    (o.acceptLog t s h b).withdrawn = true → (o.acceptLog t s h b).succeeded = false := by
  by_cases ht : t = .request
  · have ho := ho ht
    cases o with
    | setPending p =>
      rw [acceptLog_setPending, if_pos ht]
      exact hi
    | clearPending =>
      rw [acceptLog_clearPending, if_pos ht]
      intro hwithdrawn
      obtain hwithdrawn | hown := Bool.or_eq_true_iff.1 hwithdrawn
      · exact hi hwithdrawn
      · refine ho fun hnil => ?_
        rw [hnil] at hown
        cases hown
    | takePending =>
      rw [acceptLog_takePending]
      split <;> exact hi
    | setSession id => cases id <;> exact hi
    | send m =>
      cases m with
      | response r =>
        have ho : r.success = true → h.withdrawn = false := ho
        rw [acceptLog_response, if_pos ht]
        intro hwithdrawn
        have hwithdrawn : h.withdrawn = true := hwithdrawn
        change (h.succeeded || r.success) = false
        cases hsuccess : r.success with
        | false => rw [hi hwithdrawn, Bool.false_or]
        | true => rw [ho hsuccess] at hwithdrawn; cases hwithdrawn
      | event e =>
        cases e with
        | stopped body =>
          rw [acceptLog_stopped]
          split <;> exact hi
        | _ => exact hi
    | _ => exact hi
  · obtain ⟨-, hwithdrawn, hsucceeded⟩ := acceptLog_own o (s := s) (h := h) (b := b) ht
    rw [hwithdrawn, hsucceeded]
    exact hi

variable {p p' : Server × AcceptLog}

/-- A step of a callback that is in progress, or of a thread that takes no record. -/
theorem acceptKeeps (o : DapOp β) {b : β} (ht : t = .callback → p.1.callbackActive = true)
    (htake : t ≠ .callback → o.takesPending = false) (ho : t = .request → o.honest p.2)
    (hi : AcceptInv p) (h : acceptSystem.sem t β o p b p') : acceptOutline.Keeps t p p' := by
  obtain ⟨⟨hs, hl⟩, hk⟩ := h
  have hs : sem t β o p.1 b p'.1 := hs
  have hl : p'.2 = o.acceptLog t p.1 p.2 b := hl
  have hk : o.keepsAccepted t p b = true := hk
  have hactive := (sem_pending hs).1
  refine ⟨⟨fun hsession => ?_, fun hidle => ?_, ?_⟩, fun u hu => ?_⟩
  · rw [hl]
    exact acceptLog_held hk hs hi.held hsession
  · by_cases hc : t = .callback
    · rw [hactive, ht hc] at hidle
      cases hidle
    · rw [hl, acceptLog_taken o hc (htake hc)]
      exact hi.idle (hactive ▸ hidle)
  · rw [hl]
    exact acceptLog_failing ho hi.failing
  · cases u with
    | callback => exact ⟨hactive, by rw [hl, acceptLog_taken o hu.symm (htake hu.symm)]⟩
    | request =>
      obtain ⟨hown, hwithdrawn, hsucceeded⟩ :=
        acceptLog_own o (s := p.1) (h := p.2) (b := b) hu.symm
      exact ⟨by rw [hl, hown], by rw [hl, hwithdrawn], by rw [hl, hsucceeded]⟩
    | _ => trivial

end

/-! ## The callbacks -/

/-- What a callback does, by whether it may have a record to report. -/
def takingPre : ∀ {β : Type}, DapOp β → (β → Bool → Prop) → Bool → Prop
  | _, .takePending => fun K v => K none v ∧ ∀ p, K (some p) true
  | _, .load .suppressSessionEvents => fun K v => K true false ∧ K false v
  | _, .send (.event (.stopped _)) => fun K _ => K () false
  | _, _ => fun K v => ∀ b, K b v

def takingSpec : Spec DapOp Bool where
  pre := takingPre
  mono o K K' hK v h := by
    cases o with
    | takePending => exact ⟨hK _ _ h.1, fun p => hK _ _ (h.2 p)⟩
    | load f =>
      cases f with
      | suppressSessionEvents => exact ⟨hK _ _ h.1, hK _ _ h.2⟩
      | _ => exact fun b => hK _ _ (h b)
    | send m =>
      cases m with
      | response r => exact fun b => hK _ _ (h b)
      | event e =>
        cases e with
        | stopped body => exact hK _ _ h
        | _ => exact fun b => hK _ _ (h b)
    | _ => exact fun b => hK _ _ (h b)

/-- The callback is in progress, and has taken no stop unless it may have. -/
structure SeesTaken (v : Bool) (p : Server × AcceptLog) : Prop where
  active : p.1.callbackActive = true
  taken : v = false → p.2.taken = []

theorem SeesTaken.rely {v : Bool} {p p' : Server × AcceptLog} (h : SeesTaken v p)
    (hr : TakenRely p p') : SeesTaken v p' :=
  ⟨hr.active.trans h.active, fun hv => hr.taken.trans (h.taken hv)⟩

theorem takingPre_outline {β : Type} (o : DapOp β) {K : β → Bool → Prop} {v : Bool}
    {p : Server × AcceptLog} (hv : SeesTaken v p) (hw : takingSpec.pre o K v) :
    (acceptOutline.spec acceptSystem .callback).pre o (fun b p' => ∃ v' : Bool,
      SeesTaken v' p' ∧ K b v') p := by
  intro b p' hi h
  have hkeeps : acceptOutline.Keeps .callback p p' :=
    acceptKeeps o (fun _ => hv.active) (fun hc => absurd rfl hc) (fun hc => by cases hc) hi h
  obtain ⟨⟨hs, hl⟩, hk⟩ := h
  have hs : sem .callback β o p.1 b p'.1 := hs
  have hl : p'.2 = o.acceptLog .callback p.1 p.2 b := hl
  have hk : o.keepsAccepted .callback p b = true := hk
  have hactive : p'.1.callbackActive = true := (sem_pending hs).1.trans hv.active
  have seen (v' : Bool) (htaken : v' = false → p'.2.taken = []) (hK : K b v') :
      acceptOutline.Keeps .callback p p' ∧ acceptOutline.Stable .callback
        (fun p' => ∃ v' : Bool, SeesTaken v' p' ∧ K b v') p' :=
    ⟨hkeeps, fun p'' hr _ => ⟨v', SeesTaken.rely ⟨hactive, htaken⟩ hr, hK⟩⟩
  have same (hlog : p'.2 = p.2) (hK : K b v) : acceptOutline.Keeps .callback p p' ∧
      acceptOutline.Stable .callback (fun p' => ∃ v' : Bool, SeesTaken v' p' ∧ K b v') p' :=
    seen v (fun h => by rw [hlog]; exact hv.taken h) hK
  cases o with
  | takePending =>
    obtain ⟨rfl, -⟩ := sem_takePending.1 hs
    have hl : p'.2 = if p.1.pendingStoppedEvent.isSome then
      { p.2 with taken := p.2.outstanding } else p.2 := hl
    cases hpending : p.1.pendingStoppedEvent with
    | none =>
      rw [hpending] at hl seen same
      exact same hl hw.1
    | some q =>
      rw [hpending] at seen
      exact seen true (fun h => by cases h) (hw.2 q)
  | load f =>
    cases f with
    | suppressSessionEvents =>
      have hl : p'.2 = p.2 := hl
      cases b with
      | false => exact same hl hw.2
      | true =>
        refine seen false (fun _ => ?_) hw.1
        rw [hl]
        exact List.isEmpty_iff.1 hk
    | _ => exact same hl (hw b)
  | send m =>
    cases m with
    | response r => exact same hl (hw b)
    | event e =>
      cases e with
      | stopped body => exact seen false (fun _ => by rw [hl]; rfl) hw
      | _ => exact same hl (hw b)
  | setPending q => exact same hl (hw b)
  | clearPending => exact same hl (hw b)
  | setSession id =>
    cases id with
    | none => exact same hl (hw b)
    | some id => exact seen v (fun h => by rw [hl]; exact hv.taken h) (hw b)
  | _ => exact same hl (hw b)

/-- Programs that take no record. -/
abbrev Untaking {α : Type} (p : Dap α) : Prop := AllOps (fun o => o.takesPending = false) p

theorem untaking_of_idle {α : Type} {halts : Bool} {p : Dap α} (h : AllOps (DapOp.idle halts) p) :
    Untaking p := by
  refine h.mono fun {β} o ho => ?_
  cases o with
  | takePending => exact ho.elim
  | _ => rfl

theorem untaking_of_neutral {α : Type} {p : Dap α} (h : Neutral p) : Untaking p :=
  untaking_of_idle (idle_of_neutral h : AllOps (DapOp.idle false) p)

/-- What takes no record has none to report, if there was none before. -/
theorem Untaking.view {α : Type} {p : Dap α} (h : Untaking p) (v : Bool) :
    p.wp takingSpec (fun _ w => v = false → w = false) (fun _ w => v = false → w = false) v := by
  refine wp_of_allOps (I := fun w => v = false → w = false) (fun {β} o ho w hw => ?_) h id
  cases o with
  | takePending => cases ho
  | load f =>
    cases f with
    | suppressSessionEvents => exact ⟨fun _ => rfl, hw⟩
    | _ => exact fun _ => hw
  | send m =>
    cases m with
    | response r => exact fun _ => hw
    | event e =>
      cases e with
      | stopped body => exact fun _ => rfl
      | _ => exact fun _ => hw
  | _ => exact fun _ => hw

namespace Server

variable {id : SessionId}

theorem recordStop_untaking {record : Dap Unit} (h : Untaking record) :
    Untaking (recordStop record) :=
  .bind (.bind (.perform rfl) fun _ => trivial) fun _ => .ite trivial <|
    .bind (.perform rfl) fun _ => .bind (.perform rfl) fun _ => .bind (.perform rfl) fun _ =>
      .ite (.perform rfl) h

theorem onBreakpointHit_untaking (breakpointId : Nat) :
    Untaking (onBreakpointHit id breakpointId) := by
  have hcontinue :
      AllOps (DapOp.idle true) (tryAutoContinueConditionalBreakpointHit id breakpointId) :=
    tryAutoContinueConditionalBreakpointHit_idle breakpointId
  exact .bind (untaking_of_idle hcontinue) fun _ => .ite trivial
    (recordStop_untaking (.perform rfl))

theorem onExceptionHit_untaking (exceptionCode : Nat) :
    Untaking (onExceptionHit id exceptionCode) := by
  have hcontinue : AllOps (DapOp.idle true) (tryAutoContinueKernelInitialBreak id) :=
    tryAutoContinueKernelInitialBreak_idle
  exact .bind (untaking_of_idle hcontinue) fun _ => .ite trivial <| recordStop_untaking <|
    .bind (.perform rfl) fun _ => .ite trivial (.perform rfl)

/-- A break reports the record that it takes. -/
theorem onBreakHit_taking :
    onBreakHit.wp takingSpec (fun _ w => w = false) (fun _ _ => True) false := by
  intro skip
  change (if skip = true then _ else _ : Dap Unit).wp _ _ _ _
  split
  · exact fun _ => rfl
  · refine fun _ _ => ⟨?_, fun p => ⟨rfl, ?_⟩⟩
    · exact ⟨rfl, rfl⟩
    · change (Prog.bind flushPendingThreadEvents _).wp _ _ _ _
      rw [wp_bind]
      refine wp_mono (fun _ w _ => ?_) (fun _ _ _ => trivial)
        ((untaking_of_neutral flushPendingThreadEvents_neutral).view true)
      rw [bind_eq, wp_bind]
      exact wp_mono (fun _ _ _ => rfl) (fun _ _ _ => trivial)
        ((untaking_of_neutral (tryGetCurrentThreadId_neutral _)).view w)

/-- A callback ends with nothing to report. -/
theorem onCallback_taking (id : SessionId) (event : Callback) :
    (onCallback id event).wp takingSpec (fun _ w => w = false) (fun _ _ => True) false := by
  have untaking {p : Dap Unit} (h : Untaking p) :
      p.wp takingSpec (fun _ w => w = false) (fun _ _ => True) false :=
    wp_mono (fun _ _ hw => hw rfl) (fun _ _ _ => trivial) (h.view false)
  cases event with
  | breakpoint =>
    exact untaking (.bind (untaking_of_neutral (getLastBreakpointId_neutral id))
      onBreakpointHit_untaking)
  | exception code address firstChance =>
    exact untaking (.bind (.perform rfl) fun _ => .ite trivial <| .bind (.perform rfl) fun _ =>
      onExceptionHit_untaking code)
  | systemError error => exact untaking (onExceptionHit_untaking error)
  | break_ => exact onBreakHit_taking
  | noDebuggee | sessionEnd => exact untaking (untaking_of_idle queueSessionEnded_idle)
  | exitProcess exitCode => exact untaking (untaking_of_idle (queueSessionTermination_idle _))
  | createThread | exitThread => exact untaking (untaking_of_neutral (queueThreadEvent_neutral _))
  | output text =>
    exact untaking (.ite trivial (untaking_of_neutral (handleOutputReceived_neutral id text)))

end Server

/-! ## The requests -/

/-- What the request being handled may have done. -/
structure HonestView where
  own : Bool := false
  withdrawn : Bool := false
  succeeded : Bool := false

def honestPre : ∀ {β : Type}, DapOp β → (β → HonestView → Prop) → HonestView → Prop
  | _, .setPending _ => fun K v => K () { v with own := true }
  | _, .takePending => fun _ _ => False
  | _, .clearPending => fun K v =>
    (v.own = true → v.succeeded = false) ∧ K () { v with withdrawn := v.withdrawn || v.own }
  | _, .send (.response r) => fun K v =>
    (r.success = true → v.withdrawn = false) ∧ K () { v with succeeded := v.succeeded || r.success }
  | _, _ => fun K v => ∀ b, K b v

def honestSpec : Spec DapOp HonestView where
  pre := honestPre
  mono o K K' hK v h := by
    cases o with
    | setPending p => exact hK _ _ h
    | takePending => exact h.elim
    | clearPending => exact ⟨h.1, hK _ _ h.2⟩
    | send m =>
      cases m with
      | response r => exact ⟨h.1, hK _ _ h.2⟩
      | event e => exact fun b => hK _ _ (h b)
    | _ => exact fun b => hK _ _ (h b)

/-- The request has done no more than it may have. -/
structure HonestView.Sees (v : HonestView) (p : Server × AcceptLog) : Prop where
  own : v.own = false → p.2.own = []
  withdrawn : v.withdrawn = false → p.2.withdrawn = false
  succeeded : v.succeeded = false → p.2.succeeded = false

theorem HonestView.Sees.rely {v : HonestView} {p p' : Server × AcceptLog} (h : v.Sees p)
    (hr : OwnRely p p') : v.Sees p' :=
  ⟨fun hv => hr.own.trans (h.own hv), fun hv => hr.withdrawn.trans (h.withdrawn hv),
    fun hv => hr.succeeded.trans (h.succeeded hv)⟩

/-- What a request may do by its view is honest. -/
theorem HonestView.Sees.honest {v : HonestView} {p : Server × AcceptLog} (hv : v.Sees p)
    {β : Type} {o : DapOp β} {K : β → HonestView → Prop} (hw : honestSpec.pre o K v) :
    o.honest p.2 := by
  cases o with
  | clearPending =>
    intro hown
    refine hv.succeeded (hw.1 ?_)
    cases howned : v.own with
    | true => rfl
    | false => exact absurd (hv.own howned) hown
  | send m =>
    cases m with
    | response r => exact fun hsuccess => hv.withdrawn (hw.1 hsuccess)
    | event e => trivial
  | _ => trivial

theorem honestPre_outline {β : Type} (o : DapOp β) {K : β → HonestView → Prop} {v : HonestView}
    {p : Server × AcceptLog} (hv : v.Sees p) (hw : honestSpec.pre o K v) :
    (acceptOutline.spec acceptSystem .request).pre o (fun b p' => ∃ v' : HonestView,
      v'.Sees p' ∧ K b v') p := by
  intro b p' hi h
  have htake : o.takesPending = false := by
    cases o with
    | takePending => exact hw.elim
    | _ => rfl
  have hkeeps : acceptOutline.Keeps .request p p' :=
    acceptKeeps o (fun hc => by cases hc) (fun _ => htake) (fun _ => hv.honest hw) hi h
  have hl : p'.2 = o.acceptLog .request p.1 p.2 b := h.1.2
  have seen {v' : HonestView} (hv' : v'.Sees p') (hK : K b v') :
      acceptOutline.Keeps .request p p' ∧ acceptOutline.Stable .request
        (fun p' => ∃ v' : HonestView, v'.Sees p' ∧ K b v') p' :=
    ⟨hkeeps, fun p'' hr _ => ⟨v', hv'.rely hr, hK⟩⟩
  have same (hown : p'.2.own = p.2.own) (hwithdrawn : p'.2.withdrawn = p.2.withdrawn)
      (hsucceeded : p'.2.succeeded = p.2.succeeded) : v.Sees p' :=
    hv.rely ⟨hown, hwithdrawn, hsucceeded⟩
  cases o with
  | takePending => exact hw.elim
  | setPending q =>
    rw [acceptLog_setPending, if_pos rfl] at hl
    refine seen ⟨fun h => ?_, fun h => ?_, fun h => ?_⟩ hw
    · cases h
    · rw [hl]; exact hv.withdrawn h
    · rw [hl]; exact hv.succeeded h
  | clearPending =>
    rw [acceptLog_clearPending, if_pos rfl] at hl
    refine seen ⟨fun h => ?_, fun h => ?_, fun h => ?_⟩ hw.2
    · rw [hl]; exact hv.own h
    · obtain ⟨hwithdrawn, hown⟩ := Bool.or_eq_false_iff.1 h
      rw [hl]
      change (p.2.withdrawn || !p.2.own.isEmpty) = false
      rw [hv.withdrawn hwithdrawn, hv.own hown]
      rfl
    · rw [hl]; exact hv.succeeded h
  | send m =>
    cases m with
    | response r =>
      rw [acceptLog_response, if_pos rfl] at hl
      refine seen ⟨fun h => ?_, fun h => ?_, fun h => ?_⟩ hw.2
      · rw [hl]; exact hv.own h
      · rw [hl]; exact hv.withdrawn h
      · obtain ⟨hsucceeded, hsuccess⟩ := Bool.or_eq_false_iff.1 h
        rw [hl]
        change (p.2.succeeded || r.success) = false
        rw [hv.succeeded hsucceeded, hsuccess]
        rfl
    | event e =>
      cases e <;>
        exact seen (same (by rw [hl]; rfl) (by rw [hl]; rfl) (by rw [hl]; rfl)) (hw b)
  | setSession id =>
    cases id <;> exact seen (same (by rw [hl]; rfl) (by rw [hl]; rfl) (by rw [hl]; rfl)) (hw b)
  | _ => exact seen (same (by rw [hl]; rfl) (by rw [hl]; rfl) (by rw [hl]; rfl)) (hw b)

/-- The operations that record and give up nothing, and answer no request with success. -/
def DapOp.unanswering : ∀ {β : Type}, DapOp β → Prop
  | _, .setPending _ | _, .clearPending | _, .takePending => False
  | _, .send (.response r) => r.success = false
  | _, _ => True

abbrev Unanswering {α : Type} (p : Dap α) : Prop := AllOps DapOp.unanswering p

section

variable {α β : Type}

theorem unanswering_of_quiet {C : ∀ {γ : Type}, Call γ → Prop} {p : Dap α}
    (h : AllOps (DapOp.quiet C) p) : Unanswering p := by
  refine h.mono fun {β} o ho => ?_
  cases o with
  | setPending | clearPending | takePending => exact ho.elim
  | send m =>
    cases m with
    | response r => exact ho.elim
    | event e => trivial
  | _ => trivial

theorem Unanswering.view {p : Dap α} (h : Unanswering p) (v : HonestView) :
    p.wp honestSpec (fun _ w => w = v) (fun _ w => w = v) v := by
  refine wp_of_allOps (I := fun w => w = v) (fun {β} o ho w hw => ?_) h rfl
  cases o with
  | setPending | clearPending | takePending => exact ho.elim
  | send m =>
    cases m with
    | response r =>
      have hsuccess : r.success = false := ho
      refine ⟨fun h => ?_, ?_⟩
      · rw [hsuccess] at h
        cases h
      · rw [hsuccess, Bool.or_false]
        exact hw
    | event e => exact fun _ => hw
  | _ => exact fun _ => hw

theorem Unanswering.wp_bind {p : Dap α} (h : Unanswering p) {f : α → Dap β} {Q : β → HonestView → Prop}
    {E : Exn → HonestView → Prop} {v : HonestView} (hf : ∀ a, (f a).wp honestSpec Q E v)
    (hE : ∀ e, E e v) : (p.bind f).wp honestSpec Q E v := by
  rw [Prog.wp_bind]
  refine wp_mono (fun a w hw => ?_) (fun e w hw => ?_) (h.view v)
  · rw [hw]; exact hf a
  · rw [hw]; exact hE e

/-- A request that does not succeed with what it has taken back. -/
abbrev Honest (p : Dap α) : Prop := p.wp honestSpec (fun _ _ => True) (fun _ _ => True) {}

theorem Unanswering.honest {p : Dap α} (h : Unanswering p) : Honest p :=
  wp_mono (fun _ _ _ => trivial) (fun _ _ _ => trivial) (h.view {})

/-- A request that records no stop. -/
theorem honest_of_permitted {P : Permit} (hP : ¬P.records) {p : Dap α} (h : Permitted P p) :
    Honest p := by
  have kept : p.wp honestSpec (fun _ w => w.own = false ∧ w.withdrawn = false)
      (fun _ w => w.own = false ∧ w.withdrawn = false) {} := by
    refine wp_of_allOps (I := fun w : HonestView => w.own = false ∧ w.withdrawn = false)
      (fun {β} o ho w hw => ?_) h ⟨rfl, rfl⟩
    cases o with
    | setPending p => exact absurd ho.1 hP
    | takePending => exact ho.elim
    | clearPending =>
      refine ⟨fun hown => ?_, hw.1, ?_⟩
      · rw [hw.1] at hown
        cases hown
      · rw [hw.1, hw.2]
        rfl
    | send m =>
      cases m with
      | response r => exact ⟨fun _ => hw.2, hw⟩
      | event e => exact fun _ => hw
    | _ => exact fun _ => hw
  exact wp_mono (fun _ _ _ => trivial) (fun _ _ _ => trivial) kept

end

namespace Server

variable {α : Type} {root : Json} {id : SessionId}

theorem startWaitingForSessionEvent_unanswering : Unanswering (startWaitingForSessionEvent id) := by
  have start : Unanswering (do
      store .sessionStopOrExitObserved false
      store .waitLoopActive true
      Prog.perform (.spawnLoop id)
      Prog.perform .unlockGate) :=
    .bind (.perform trivial) fun _ => .bind (.perform trivial) fun _ =>
      .bind (.perform trivial) fun _ => .perform trivial
  exact .bind (.perform trivial) fun _ => .bind (.perform trivial) fun _ =>
    .ite (.perform trivial) (.bind (.perform trivial) fun _ =>
      .ite (.bind (.perform trivial) fun _ => start) start)

theorem prepareSteppingGranularity_unanswering (granularity : Option SteppingGranularity) :
    Unanswering (prepareSteppingGranularity id granularity) :=
  .ite (.bind (unanswering_of_quiet (invoke_quiet (Session.enableInstructionStepping_quiet id)))
      fun _ => .perform trivial)
    (.bind (unanswering_of_quiet (invoke_quiet (Session.enableSourceLineStepping_quiet id)))
      fun _ => .perform trivial)

theorem restoreSourceLineSteppingIfNeeded_unanswering :
    Unanswering (restoreSourceLineSteppingIfNeeded .request id) :=
  .bind (.perform trivial) fun _ => .ite
    (.bind (.catching (unanswering_of_quiet (invoke_quiet (Session.enableSourceLineStepping_quiet id)))
      fun _ => trivial) fun _ => .perform trivial) trivial

theorem resetSuspendedState_unanswering : Unanswering resetSuspendedState :=
  .bind (.perform trivial) fun _ => .perform trivial

theorem requireDebuggerSession_unanswering : Unanswering requireDebuggerSession := by
  refine .bind (.perform trivial) fun session => ?_
  cases session <;> trivial

/-- What follows the record of a stop. -/
theorem announced_answer {reason : StoppedEventBodyReason} {description : Option String}
    {p : Dap Unit} (h : Unanswering p) :
    ((setPendingStoppedEvent reason description).bind fun _ => p).wp honestSpec
      (fun _ w => w.withdrawn = false) (fun _ w => w.succeeded = false) {} :=
  wp_mono (fun _ w hw => by rw [hw]) (fun _ w hw => by rw [hw]) (h.view { own := true })

/-- A step takes its record back where it fails. -/
theorem stepTarget_answer {kind : StepKind} {command : Command} {message : String}
    (hk : kind.step id = Session.resume id command message) (threadId : Int)
    (granularity : Option SteppingGranularity) :
    (stepTarget kind id threadId granularity).wp honestSpec (fun _ w => w.withdrawn = false)
      (fun _ _ => True) {} := by
  have goes : Unanswering (do
      store .isExecutionRunning true
      invoke .request (kind.step id)
      resetSuspendedState
      startWaitingForSessionEvent id) := by
    rw [hk]
    exact .bind (.perform trivial) fun _ =>
      .bind (unanswering_of_quiet (invoke_quiet (Session.resume_engaging id command message))) fun _ =>
        .bind resetSuspendedState_unanswering fun _ => startWaitingForSessionEvent_unanswering
  rw [stepTarget, wp_catching]
  refine wp_mono (fun _ _ hw => hw) (fun e w hw => ?_) (Unanswering.wp_bind (E := fun _ w =>
    w.succeeded = false) (unanswering_of_quiet (invoke_quiet (C := Call.routine)
      (Session.setCurrentThread_quiet id _))) (fun _ =>
        (prepareSteppingGranularity_unanswering granularity).wp_bind (fun _ => announced_answer goes)
          fun _ => rfl) fun _ => rfl)
  refine fun _ => ⟨fun _ => hw, ?_⟩
  exact restoreSourceLineSteppingIfNeeded_unanswering.wp_bind (fun _ => trivial) fun _ => trivial

theorem pauseTarget_answer : (pauseTarget id).wp honestSpec (fun _ w => w.withdrawn = false)
    (fun _ _ => True) {} := by
  have interrupts : Unanswering (do
      Session.interrupt id
      startWaitingForSessionEvent id) :=
    .bind (unanswering_of_quiet (Session.interrupt_quiet (C := Call.routine) id)) fun _ =>
      startWaitingForSessionEvent_unanswering
  rw [pauseTarget, wp_catching]
  refine wp_mono (fun _ _ hw => hw) (fun e w hw => ?_) (Unanswering.wp_bind (E := fun _ w =>
    w.succeeded = false) resetSuspendedState_unanswering (fun _ => announced_answer interrupts)
      fun _ => rfl)
  exact ⟨fun _ => hw, trivial⟩

/-- Success is answered where the record stands. -/
theorem answered_honest {p : Dap Unit} (h : p.wp honestSpec (fun _ w => w.withdrawn = false)
    (fun _ _ => True) {}) (request : Request α) (body : Body) :
    Honest (p.bind fun _ => sendResponse request body) := by
  rw [Honest, wp_bind]
  exact wp_mono_val (fun _ w hw => ⟨fun _ => hw, trivial⟩) h

/-- A check of the arguments. -/
theorem check_honest (request : Request α) {c : Prop} [Decidable c] (message : String)
    {p : Dap Unit} (h : Honest p) : Honest (do
      if ← (if c then return true else do fail request message; return false) then p
      else return) := by
  have checks : Unanswering (if c then return true else do fail request message; return false) :=
    .ite trivial (.bind (.perform rfl) fun _ => trivial)
  refine checks.wp_bind (fun passed => ?_) fun _ => trivial
  split
  · exact h
  · trivial

theorem handleStep_honest {kind : StepKind} {command : Command} {message : String}
    (hk : ∀ id, kind.step id = Session.resume id command message)
    (request : Request ExecutionArguments) : Honest (handleStep kind request) := by
  intro running
  change (if running = true then _ else _ : Dap Unit).wp _ _ _ _
  split
  · exact Unanswering.honest (.perform rfl)
  · exact requireDebuggerSession_unanswering.wp_bind (fun id =>
      answered_honest (stepTarget_answer (hk id) _ _) request _) fun _ => trivial

theorem handleNextRequest_honest (request : Request ExecutionArguments) :
    Honest (handleNextRequest request) :=
  check_honest request _ (check_honest request _ (handleStep_honest (fun _ => rfl) request))

theorem handleStepOutRequest_honest (request : Request ExecutionArguments) :
    Honest (handleStepOutRequest request) :=
  check_honest request _ (check_honest request _ (handleStep_honest (fun _ => rfl) request))

theorem handleStepInRequest_honest (request : Request ExecutionArguments) :
    Honest (handleStepInRequest request) :=
  check_honest request _ (check_honest request _ (check_honest request _
    (handleStep_honest (fun _ => rfl) request)))

theorem handlePauseRequest_honest (request : Request ThreadArguments) :
    Honest (handlePauseRequest request) := by
  refine check_honest request _ fun running => ?_
  change (if running = true then _ else _ : Dap Unit).wp _ _ _ _
  split
  · exact requireDebuggerSession_unanswering.wp_bind (fun id =>
      answered_honest pauseTarget_answer request _) fun _ => trivial
  · exact Unanswering.honest (.perform rfl)

theorem run_honest {dec : Decoder (Request α)} {handler : Request α → Dap Unit}
    (h : ∀ request, Honest (handler request)) : Honest (run dec handler root) := by
  unfold run
  cases dec root with
  | error what => trivial
  | ok request => exact h request

theorem dispatchRequest_honest : Honest (dispatchRequest root) := by
  by_cases hP : (commandPermit (requestCommand root)).records
  · unfold requestCommand at hP
    unfold dispatchRequest
    cases hc : Decoder.valueString "command" root with
    | error what => trivial
    | ok command =>
      rw [hc] at hP
      have hP : command ∈ recordingCommands := hP
      simp only [recordingCommands, List.mem_cons, List.not_mem_nil, or_false] at hP
      dsimp only
      obtain rfl | rfl | rfl | rfl := hP
      · have next : Honest (run (decodeRequest "next" Decoder.nextArguments) handleNextRequest
            root) := run_honest handleNextRequest_honest
        simpa [handlers, List.lookup_cons, on] using next
      · have stepIn : Honest (run (decodeRequest "stepIn" Decoder.stepInArguments)
            handleStepInRequest root) := run_honest handleStepInRequest_honest
        simpa [handlers, List.lookup_cons, on] using stepIn
      · have stepOut : Honest (run (decodeRequest "stepOut" Decoder.nextArguments)
            handleStepOutRequest root) := run_honest handleStepOutRequest_honest
        simpa [handlers, List.lookup_cons, on] using stepOut
      · have pause : Honest (run (decodeRequest "pause" Decoder.threadArguments)
            handlePauseRequest root) := run_honest handlePauseRequest_honest
        simpa [handlers, List.lookup_cons, on] using pause
  · exact honest_of_permitted hP dispatchRequest_permitted

theorem recover_unanswering (e : Exn) : Unanswering (recover root e) := by
  have report (e : Exn) : Unanswering (reportFailure root e) := by
    unfold reportFailure
    split
    · exact .ite trivial (.perform rfl)
    · trivial
  cases e with
  | unhandledRequest seq command => exact .perform rfl
  | _ => exact report _

theorem handleRequest_honest : Honest (handleRequest root) := by
  have handled : Honest (handle root) := by
    unfold handle
    cases Decoder.valueString "type" root with
    | error what => trivial
    | ok type =>
      dsimp only
      split
      · exact dispatchRequest_honest
      · exact Unanswering.honest (.ite trivial trivial)
  have ends : Unanswering (do
      let shouldExit ← load .shouldExit
      store .hasCurrentRequestJson false
      return shouldExit) :=
    .bind (.perform trivial) fun _ => .bind (.perform trivial) fun _ => trivial
  refine fun _ _ _ => ?_
  change (Prog.bind ((handle root).catching (recover root)) _).wp _ _ _ _
  rw [wp_bind, wp_catching]
  refine wp_mono (fun _ w _ => ?_) (fun e w _ => ?_) handled
  · exact wp_mono (fun _ _ _ => trivial) (fun _ _ _ => trivial) (ends.view w)
  · refine wp_mono (fun _ w' _ => ?_) (fun _ _ _ => trivial) ((recover_unanswering e).view w)
    exact wp_mono (fun _ _ _ => trivial) (fun _ _ _ => trivial) (ends.view w')

end Server

/-! ## Every run -/

namespace AcceptedStops

open Server

variable {t : Tid} {j : Job} {p p' : Server × AcceptLog}

theorem callback_safe (id : SessionId) (event : Callback) (threads : List (Nat × Nat))
    (current : Nat) (hv : SeesTaken false p) : acceptOutline.Safe acceptSystem .callback
      (.callback id event threads current) (Job.callback id event threads current).body p := by
  intro p' hrely _
  have hw := wp_of_view takingPre_outline (hv.rely hrely) (onCallback_taking id event)
  change (Prog.bind (onCallback id event) fun _ => .ret false).wp _ _ _ p'
  rw [wp_bind]
  refine wp_mono (fun _ _ h => ⟨rfl, fun _ _ => ?_⟩) (fun _ _ _ => ⟨rfl, fun _ h => ?_⟩) hw
  · obtain ⟨v', hv', rfl⟩ := h
    exact hv'.taken rfl
  · cases h

/-- A job of the request thread. -/
theorem request_safe (ht : j.thread = .request) (hj : Honest j.body) (hv : HonestView.Sees {} p) :
    acceptOutline.Safe acceptSystem .request j j.body p := by
  intro p' hrely _
  have hw := wp_of_view honestPre_outline (hv.rely hrely) hj
  exact wp_mono (fun _ _ _ => ⟨ht.symm, fun hc => by cases hc⟩)
    (fun _ _ _ => ⟨ht.symm, fun hc => by cases hc⟩) hw

/-- A job of another thread. -/
theorem safe_of_permitted (hc : j.thread ≠ .callback) (hr : j.thread ≠ .request)
    (p : Server × AcceptLog) : acceptOutline.Safe acceptSystem j.thread j j.body p :=
  Outline.safe_of_allOps (A := acceptOutline) (Job.body_permitted hc)
    (fun o _ _ _ ho hi h => acceptKeeps o (fun h => absurd h hc)
      (fun _ => StopReasons.takesPending_of_allows ho) (fun h => absurd h hr) hi h)
    (fun _ _ => ⟨rfl, fun h => absurd h hc⟩) p

/-- The stops of a request that has failed are given up when the next one begins. -/
theorem held_settle {s : Server} {h : AcceptLog} (hi : AcceptInv (s, h)) {n : ℕ}
    (hs : s.session.isSome = true) (hn : n ∈ h.settle.outstanding) : h.settle.Held s n := by
  have hn : n ∈ if h.succeeded then h.outstanding
    else h.outstanding.filter fun n => !h.own.contains n := hn
  have houtstanding : n ∈ h.outstanding := by
    split at hn
    · exact hn
    · exact (List.mem_filter.1 hn).1
  obtain hpending | htaken | ⟨hown, hwithdrawn⟩ := hi.held hs n houtstanding
  · exact .inl hpending
  · exact .inr (.inl htaken)
  · rw [hi.failing hwithdrawn, if_neg Bool.false_ne_true] at hn
    have hother := (List.mem_filter.1 hn).2
    rw [List.contains_iff_mem.2 hown] at hother
    cases hother

theorem settle_keeps (hi : AcceptInv p) (hl : p'.2 = p.2.settle)
    (hs : ∃ pump mode outboundOpen, p'.1 = { p.1 with pump, mode, outboundOpen }) :
    acceptOutline.Keeps .request p p' ∧ HonestView.Sees {} p' := by
  obtain ⟨pump, mode, outboundOpen, hs⟩ := hs
  refine ⟨⟨⟨fun hsession n hn => ?_, fun ha => ?_, fun hw => ?_⟩, fun u hu => ?_⟩,
    fun _ => by rw [hl]; rfl, fun _ => by rw [hl]; rfl, fun _ => by rw [hl]; rfl⟩
  · rw [hs] at hsession ⊢
    rw [hl] at hn ⊢
    exact held_settle hi hsession hn
  · rw [hl]
    rw [hs] at ha
    exact hi.idle ha
  · rw [hl] at hw
    cases hw
  · cases u with
    | callback => exact ⟨by rw [hs], by rw [hl]; rfl⟩
    | request => exact absurd rfl hu
    | _ => trivial

/-- A step that leaves the log alone, and the session and the recorded stop. -/
theorem keeps_of_same (hi : AcceptInv p) (hl : p'.2 = p.2)
    (hsession : p'.1.session = p.1.session)
    (hpending : p'.1.pendingStoppedEvent = p.1.pendingStoppedEvent)
    (hactive : p'.1.callbackActive = p.1.callbackActive) : acceptOutline.Keeps t p p' := by
  refine ⟨⟨fun h n hn => ?_, fun ha => ?_, ?_⟩, fun u _ => ?_⟩
  · rw [hl] at hn ⊢
    rw [AcceptLog.Held, hpending]
    exact hi.held (hsession ▸ h) n hn
  · rw [hl]
    exact hi.idle (hactive ▸ ha)
  · rw [hl]
    exact hi.failing
  · cases u with
    | callback => exact ⟨hactive, by rw [hl]⟩
    | request => exact ⟨by rw [hl], by rw [hl], by rw [hl]⟩
    | _ => trivial

theorem start_valid (hi : AcceptInv p) (h : acceptSystem.start t j p p') :
    acceptOutline.Keeps t p p' ∧ acceptOutline.Safe acceptSystem t j j.body p' := by
  obtain ⟨⟨hs, hl⟩, -⟩ := h
  have hs : startJob t j p.1 = some p'.1 := hs
  have ht := startJob_thread hs
  subst ht
  have started (hc : j.thread ≠ .callback) :
      ∃ pump mode outboundOpen, p'.1 = { p.1 with pump, mode, outboundOpen } := by
    obtain ⟨pump, mode, outboundOpen, hs, -⟩ := startJob_of_ne hc hs
    exact ⟨pump, mode, outboundOpen, hs⟩
  have same (hc : j.thread ≠ .callback) (hr : j.thread ≠ .request) (hl : p'.2 = p.2) :
      acceptOutline.Keeps j.thread p p' ∧ acceptOutline.Safe acceptSystem j.thread j j.body p' := by
    obtain ⟨pump, mode, outboundOpen, hs⟩ := started hc
    exact ⟨keeps_of_same hi hl (by rw [hs]) (by rw [hs]) (by rw [hs]), safe_of_permitted hc hr p'⟩
  cases j with
  | request root =>
    obtain ⟨hkeeps, hv⟩ := settle_keeps hi hl (started (by rintro ⟨⟩))
    exact ⟨hkeeps, request_safe rfl handleRequest_honest hv⟩
  | teardown =>
    obtain ⟨hkeeps, hv⟩ := settle_keeps hi hl (started (by rintro ⟨⟩))
    exact ⟨hkeeps, request_safe rfl (honest_of_permitted (P := Job.teardown.permit) (fun h => h)
      (Job.body_permitted (by rintro ⟨⟩))) hv⟩
  | callback id event threads current =>
    have hl : p'.2 = p.2 := hl
    obtain ⟨hreport, hs⟩ := startJob_callback hs
    have hidle : p.1.callbackActive = false := by
      simp only [Server.mayReport, Bool.and_eq_true, Bool.not_eq_true'] at hreport
      exact hreport.1.1
    have htaken : p'.2.taken = [] := by
      rw [hl]
      exact hi.idle hidle
    refine ⟨⟨⟨fun hsession n hn => ?_, fun _ => htaken, ?_⟩, fun u hu => ?_⟩,
      callback_safe id event threads current ⟨by rw [hs], fun _ => htaken⟩⟩
    · rw [hl] at hn ⊢
      rw [hs] at hsession ⊢
      exact hi.held hsession n hn
    · rw [hl]
      exact hi.failing
    · cases u with
      | callback => exact absurd rfl hu
      | request => exact ⟨by rw [hl], by rw [hl], by rw [hl]⟩
      | _ => trivial
  | _ => exact same (by rintro ⟨⟩) (by rintro ⟨⟩) hl

theorem finish_valid {r : Except Exn Bool} (hi : AcceptInv p) (hp : acceptOutline.post t j r p)
    (h : acceptSystem.finish t j r p p') : acceptOutline.Keeps t p p' := by
  obtain ⟨⟨hf, hl⟩, -⟩ := h
  have hf : finishJob j r p.1 = some p'.1 := hf
  obtain ⟨rfl, htaken⟩ := hp
  by_cases hc : j.thread = .callback
  · cases j with
    | callback id event threads current =>
      have hok : r.isOk = true := by
        cases r with
        | ok b => rfl
        | error e => cases hf
      have hl : p'.2 = { p.2 with taken := [] } := hl
      have hl : p'.2 = p.2 := by
        rw [hl, ← htaken rfl hok]
      have hs := finishJob_callback hf
      refine ⟨⟨fun hsession n hn => ?_, fun _ => ?_, ?_⟩, fun u hu => ?_⟩
      · rw [hl] at hn ⊢
        rw [hs] at hsession ⊢
        exact hi.held hsession n hn
      · rw [hl]
        exact htaken rfl hok
      · rw [hl]
        exact hi.failing
      · cases u with
        | callback => exact absurd rfl hu
        | request => exact ⟨by rw [hl], by rw [hl], by rw [hl]⟩
        | _ => trivial
    | _ => cases hc
  · obtain ⟨mode, loop, hs⟩ := finishJob_of_ne hc hf
    have hl : p'.2 = p.2 := by
      rw [hl]
      cases j with
      | callback => exact absurd rfl hc
      | _ => rfl
    exact keeps_of_same hi hl (by rw [hs]) (by rw [hs]) (by rw [hs])

theorem outline_valid (fullPath : String → String) :
    acceptOutline.Valid acceptSystem ({ fullPath }, {}) where
  init := by
    refine ⟨fun _ n hn => ?_, fun _ => rfl, fun h => ?_⟩
    · cases hn
    · cases h
  start hi h := start_valid hi h
  finish hi hp h := finish_valid hi hp h

end AcceptedStops

/-- A pause of the running target. -/
def pauseRequest : Json := Schedule.message 4 "pause" [("threadId", .int 100)]

def Schedule.pause : Schedule := Schedule.launchAndPark ++ Schedule.serve pauseRequest

end DapDbgeng
