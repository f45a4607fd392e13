/-
  Stops inside a breakpoint update.

  An update that is applied while the target runs interrupts it with the session's events
  suppressed.  A callback that the engine runs meanwhile records no stop, whatever halted the
  target, and the resume at the end of the update overtakes it.

  * `Callback.ownStop`: the callbacks that report a stop of the target's own;
  * `SuppressedLog`: the stops reported inside the scope, those the client is told of, and those
    that a resume overtakes;
  * `SuppressedLog.Sound`: a stop is not told of once its callback has ended inside the scope;
  * `scopeSpec`: the callbacks, by whether they have seen that the scope is closed.

  Main result: `overtaken_reported_iff`, on every run.
-/
import DapDbgeng.StopReasons
import DapDbgeng.Updates

namespace DapDbgeng

open Concurrent Concurrent.Prog

/-! ## History -/

/-- The callbacks that report a stop of the target's own: breakpoints, and exceptions but for a
break-in of the adapter's and the first-chance exceptions that no filter stops at. -/
def Callback.ownStop (x : Session) (breakIn : Bool) : Callback → Bool
  | .breakpoint | .systemError _ => true
  | .exception code _ firstChance =>
    !(breakIn && code == 0x80000003) && !(firstChance && code == 0xE06D7363 && !x.cppFirstChanceBreak)
  | _ => false

/-- The target's own stops, numbered in the order in which their callbacks begin. -/
structure SuppressedLog where
  /-- The request in service updates breakpoints. -/
  updating : Bool := false
  /-- The callbacks so far. -/
  callbacks : ℕ := 0
  next : ℕ := 0
  /-- The stop that is being reported to the adapter. -/
  current : Option ℕ := none
  /-- The scope of an update has been open since its callback began. -/
  inside : Bool := false
  /-- Its callback continues the target. -/
  continued : Bool := false
  /-- The stop that the pending stopped event is about, and the one that a break takes. -/
  owner : Option ℕ := none
  reporting : Option ℕ := none
  /-- Stops whose callback ended inside the scope, the target halted. -/
  hidden : List ℕ := []
  /-- Stops that a stopped event tells of. -/
  reported : List ℕ := []
  /-- Hidden stops that the target was resumed after. -/
  overtaken : List ℕ := []

/-- What an operation of a thread adds. -/
def DapOp.suppressedLog (t : Tid) (h : SuppressedLog) : ∀ {β : Type}, DapOp β → β → SuppressedLog
  | _, .store .suppressSessionEvents false, _ => { h with inside := false }
  | _, .store .isExecutionRunning true, _ => { h with continued := h.continued || t == .callback }
  | _, .setPending _, _ => { h with owner := if t = .callback then h.current else none }
  | _, .clearPending, _ => { h with owner := none }
  | _, .takePending, _ => { h with owner := none, reporting := h.owner }
  | _, .send (.event (.stopped _)), _ =>
    { h with reported := if t = .callback then h.reporting.toList ++ h.reported else h.reported }
  | _, .call _ (.execute command), r =>
    { h with overtaken := if command.resumes && r.status.isOk then h.hidden ++ h.overtaken
      else h.overtaken }
  | _, _, _ => h

/-- `breakIn` tells which callbacks report a break-in that the adapter has asked for; the engine does
not say. -/
def SuppressedLog.record (breakIn : ℕ → Bool) : Lab → Server → SuppressedLog → SuppressedLog
  | .start _ (.request root), _, h => { h with updating := Server.updatesBreakpoints root }
  | .start _ (.callback id event _ _), s, h =>
    if event.ownStop (s.sessions id) (breakIn h.callbacks) then
      { h with
        callbacks := h.callbacks + 1
        next := h.next + 1
        current := some h.next
        inside := h.updating && s.flags .suppressSessionEvents
        continued := false }
    else { h with callbacks := h.callbacks + 1, current := none, inside := false }
  | .finish _ (.callback ..) _, _, h =>
    { h with
      current := none
      inside := false
      hidden := if h.inside && !h.continued then h.current.toList ++ h.hidden else h.hidden }
  | .op t e, _, h => e.op.suppressedLog t h e.result
  | _, _, h => h

def suppressedSystem (breakIn : ℕ → Bool) :
    System Tid DapOp Job Exn Bool (Server × SuppressedLog) :=
  adapter.system.instrument (SuppressedLog.record breakIn)

/-! ## The log -/

namespace SuppressedLog

variable {h h' : SuppressedLog}

/-- The client is told of the stop, or will be by the next break. -/
def Told (h : SuppressedLog) (n : ℕ) : Prop :=
  h.owner = some n ∨ h.reporting = some n ∨ n ∈ h.reported

/-- No hidden stop is told of, and none that is being reported inside the scope. -/
structure Sound (h : SuppressedLog) : Prop where
  told : ∀ n, h.Told n → n < h.next ∧ n ∉ h.hidden
  hidden : ∀ n ∈ h.hidden, n < h.next
  current : ∀ n, h.current = some n → n < h.next ∧ n ∉ h.hidden ∧ (h.inside = true → ¬h.Told n)
  overtaken : ∀ n ∈ h.overtaken, n ∈ h.hidden

/-- Between the beginning and the end of a callback, only a stop outside the scope is told of. -/
structure Step (h h' : SuppressedLog) : Prop where
  next : h'.next = h.next
  current : h'.current = h.current
  hidden : h'.hidden = h.hidden
  inside : h'.inside = true → h.inside = true
  told : ∀ n, h'.Told n → h.Told n ∨ h.current = some n ∧ h.inside = false
  overtaken : ∀ n ∈ h'.overtaken, n ∈ h.hidden ∨ n ∈ h.overtaken

theorem Sound.step (hs : h.Sound) (hstep : h.Step h') : h'.Sound where
  told n hn := by
    rw [hstep.next, hstep.hidden]
    obtain htold | ⟨hcurrent, -⟩ := hstep.told n hn
    · exact hs.told n htold
    · exact ⟨(hs.current n hcurrent).1, (hs.current n hcurrent).2.1⟩
  hidden n hn := by
    rw [hstep.next]
    exact hs.hidden n (hstep.hidden ▸ hn)
  current n hn := by
    obtain ⟨hlt, hhidden, htold⟩ := hs.current n (hstep.current ▸ hn)
    rw [hstep.next, hstep.hidden]
    refine ⟨hlt, hhidden, fun hinside hn' => ?_⟩
    obtain htold' | ⟨-, houtside⟩ := hstep.told n hn'
    · exact htold (hstep.inside hinside) htold'
    · rw [hstep.inside hinside] at houtside
      cases houtside
  overtaken n hn := by
    rw [hstep.hidden]
    exact (hstep.overtaken n hn).elim id (hs.overtaken n)

/-- A callback begins. -/
theorem Sound.start_own (hs : h.Sound) (callbacks : ℕ) (inside continued : Bool) :
    Sound { h with callbacks, next := h.next + 1, current := some h.next, inside, continued } where
  told n hn := ⟨Nat.lt_succ_of_lt (hs.told n hn).1, (hs.told n hn).2⟩
  hidden n hn := Nat.lt_succ_of_lt (hs.hidden n hn)
  current n hn := by
    obtain rfl := Option.some.inj hn
    exact ⟨Nat.lt_succ_self _, fun hhidden => lt_irrefl _ (hs.hidden _ hhidden),
      fun _ htold => lt_irrefl _ (hs.told _ htold).1⟩
  overtaken := hs.overtaken

/-- No stop of the target's own is being reported. -/
theorem Sound.idle (hs : h.Sound) (callbacks : ℕ) :
    Sound { h with callbacks, current := none, inside := false } where
  told := hs.told
  hidden := hs.hidden
  current n hn := by cases hn
  overtaken := hs.overtaken

/-- A callback ends. -/
theorem Sound.finish (hs : h.Sound) : Sound { h with
    current := none
    inside := false
    hidden := if h.inside && !h.continued then h.current.toList ++ h.hidden else h.hidden } := by
  split
  · rename_i hinside
    have hinside : h.inside = true := (Bool.and_eq_true_iff.1 hinside).1
    refine ⟨fun n hn => ⟨(hs.told n hn).1, ?_⟩, fun n hn => ?_, ?_, fun n hn => ?_⟩
    · rw [List.mem_append, Option.mem_toList]
      rintro (hcurrent | hhidden)
      · exact (hs.current n hcurrent).2.2 hinside hn
      · exact (hs.told n hn).2 hhidden
    · rcases List.mem_append.1 hn with hcurrent | hhidden
      · exact (hs.current n (Option.mem_toList.1 hcurrent)).1
      · exact hs.hidden n hhidden
    · rintro n ⟨⟩
    · exact List.mem_append_right _ (hs.overtaken n hn)
  · exact hs.idle _

end SuppressedLog

/-- What a thread may do inside the scope: a callback records no stop there. -/
theorem suppressedLog_step {t : Tid} {β : Type} (o : DapOp β) {h : SuppressedLog} {b : β}
    (ho : t = .callback → o.recordsStop = true → h.inside = false) :
    h.Step (o.suppressedLog t h b) := by
  have same : h.Step h := ⟨rfl, rfl, rfl, id, fun _ => .inl, fun _ => .inr⟩
  cases o with
  | setPending p =>
    refine { same with told := fun n hn => ?_ }
    rcases hn with howner | htold
    · have howner : (if t = .callback then h.current else none) = some n := howner
      split at howner
      · rename_i ht
        exact .inr ⟨howner, ho ht rfl⟩
      · cases howner
    · exact .inl (.inr htold)
  | clearPending =>
    refine { same with told := fun n hn => ?_ }
    rcases hn with howner | htold
    · cases howner
    · exact .inl (.inr htold)
  | takePending =>
    refine { same with told := fun n hn => ?_ }
    rcases hn with howner | hreporting | hreported
    · cases howner
    · exact .inl (.inl hreporting)
    · exact .inl (.inr (.inr hreported))
  | store f v =>
    cases f with
    | suppressSessionEvents =>
      cases v with
      | false => exact { same with inside := fun hinside => by cases hinside }
      | true => exact same
    | isExecutionRunning => cases v <;> exact { same with }
    | _ => exact same
  | send m =>
    cases m with
    | response r => exact same
    | event e =>
      cases e with
      | stopped body =>
        refine { same with told := fun n hn => .inl ?_ }
        rcases hn with howner | hreporting | hreported
        · exact .inl howner
        · exact .inr (.inl hreporting)
        · have hreported : n ∈ if t = .callback then h.reporting.toList ++ h.reported
              else h.reported := hreported
          split at hreported
          · rcases List.mem_append.1 hreported with htaken | htold
            · exact .inr (.inl (Option.mem_toList.1 htaken))
            · exact .inr (.inr htold)
          · exact .inr (.inr hreported)
      | _ => exact same
  | call id c =>
    cases c with
    | execute command =>
      refine { same with overtaken := fun n hn => ?_ }
      have hn : n ∈ if command.resumes && b.status.isOk then h.hidden ++ h.overtaken
          else h.overtaken := hn
      split at hn
      · exact List.mem_append.1 hn
      · exact .inr hn
    | _ => exact same
  | _ => exact same

/-! ## The outline -/

structure SuppressedInv (p : Server × SuppressedLog) : Prop where
  opened : p.2.inside = true → p.1.flags .suppressSessionEvents = true
  sound : p.2.Sound

/-- No other thread opens the scope anew for a callback that has seen it closed. -/
def suppressedOutline : Outline Tid Job Exn Bool (Server × SuppressedLog) where
  Inv := SuppressedInv
  rely
    | .callback => fun p p' => p.2.inside = false → p'.2.inside = false
    | _ => fun _ _ => True
  post t j _ _ := t = j.thread
  rely_refl t p := by cases t <;> first | exact id | trivial
  rely_trans {t} _ _ _ h h' := by
    cases t with
    | callback => exact h' ∘ h
    | _ => trivial

section

variable {breakIn : ℕ → Bool} {t : Tid} {p p' : Server × SuppressedLog} {β : Type}

theorem suppressedOutline_rely {u : Tid} (h : p.2.inside = false → p'.2.inside = false) :
    suppressedOutline.rely u p p' := by
  cases u with
  | callback => exact h
  | _ => trivial

/-- The scope is open as long as the log says so. -/
theorem sem_opened (o : DapOp β) {s s' : Server} {b : β} {h : SuppressedLog}
    (hs : sem t β o s b s') (hopen : h.inside = true → s.flags .suppressSessionEvents = true) :
    (o.suppressedLog t h b).inside = true → s'.flags .suppressSessionEvents = true := by
  cases o with
  | store f v =>
    rw [sem_store.1 hs, Server.setFlag_flags]
    cases f with
    | suppressSessionEvents =>
      cases v with
      | false => intro hinside; cases hinside
      | true => exact fun _ => rfl
    | isExecutionRunning => cases v <;> exact hopen
    | _ => exact hopen
  | call id c =>
    obtain ⟨_, _, -, -, rfl⟩ := sem_call hs
    cases c <;> exact hopen
  | send m =>
    have hflags : s'.flags = s.flags := by rw [sem_send.1 hs]; split <;> rfl
    rw [hflags]
    cases m with
    | response r => exact hopen
    | event e => cases e <;> exact hopen
  | leave id c => obtain ⟨-, -, _, _, -, rfl⟩ := sem_leave hs; exact hopen
  | enter id c => obtain ⟨_, -, -, -, rfl⟩ := sem_enter.1 hs; exact hopen
  | acquire => obtain ⟨_, -, -, rfl⟩ := sem_acquire.1 hs; exact hopen
  | lockGate => obtain ⟨-, rfl⟩ := sem_lockGate.1 hs; exact hopen
  | joinLoop => obtain ⟨-, rfl⟩ := sem_joinLoop.1 hs; exact hopen
  | _ => obtain ⟨_, hs⟩ := hs; cases hs; exact hopen

/-- An operation that records no stop inside the scope. -/
theorem suppressedKeeps (o : DapOp β) {b : β}
    (ho : t = .callback → o.recordsStop = true → p.2.inside = false) (hi : SuppressedInv p)
    (h : (suppressedSystem breakIn).sem t β o p b p') : suppressedOutline.Keeps t p p' ∧
      (p.2.inside = false → p'.2.inside = false) := by
  obtain ⟨hs, hl⟩ := h
  have hl : p'.2 = o.suppressedLog t p.2 b := hl
  have hstep : p.2.Step p'.2 := hl ▸ suppressedLog_step o ho
  have hinside (h : p.2.inside = false) : p'.2.inside = false := by
    cases hin : p'.2.inside with
    | false => rfl
    | true => rw [hstep.inside hin] at h; cases h
  refine ⟨⟨⟨?_, hi.sound.step hstep⟩, fun u _ => suppressedOutline_rely hinside⟩, hinside⟩
  rw [hl]
  exact sem_opened o hs hi.opened

end

/-! ## The callbacks -/

/-- What a callback does, by whether it has seen the scope closed. -/
def scopePre : ∀ {β : Type}, DapOp β → (β → Bool → Prop) → Bool → Prop
  | _, .load .suppressSessionEvents => fun K v => K true v ∧ K false true
  | _, .setPending _ => fun K v => v = true ∧ K () v
  | _, _ => fun K v => ∀ b, K b v

def scopeSpec : Spec DapOp Bool where
  pre := scopePre
  mono o K K' hK v h := by
    cases o with
    | load f =>
      cases f with
      | suppressSessionEvents => exact ⟨hK _ _ h.1, hK _ _ h.2⟩
      | _ => exact fun b => hK _ _ (h b)
    | setPending p => exact ⟨h.1, hK _ _ h.2⟩
    | _ => exact fun b => hK _ _ (h b)

/-- The callback has seen the scope closed. -/
def SeesClosed (v : Bool) (p : Server × SuppressedLog) : Prop := v = true → p.2.inside = false

theorem scopePre_outline {breakIn : ℕ → Bool} {β : Type} (o : DapOp β) {K : β → Bool → Prop} {v : Bool}
    {p : Server × SuppressedLog} (hv : SeesClosed v p) (hw : scopeSpec.pre o K v) :
    (suppressedOutline.spec (suppressedSystem breakIn) .callback).pre o (fun b p' => ∃ v' : Bool,
      SeesClosed v' p' ∧ K b v') p := by
  intro b p' hi h
  have closed (v' : Bool) (hv' : SeesClosed v' p) (hK : K b v')
      (ho : o.recordsStop = true → p.2.inside = false) :
      suppressedOutline.Keeps .callback p p' ∧ suppressedOutline.Stable .callback
        (fun p' => ∃ v' : Bool, SeesClosed v' p' ∧ K b v') p' := by
    obtain ⟨hkeeps, hinside⟩ := suppressedKeeps o (fun _ => ho) hi h
    exact ⟨hkeeps, fun p'' hr _ => ⟨v', fun hv'' => hr (hinside (hv' hv'')), hK⟩⟩
  cases o with
  | load f =>
    cases f with
    | suppressSessionEvents =>
      have hs : sem .callback Bool (.load .suppressSessionEvents) p.1 b p'.1 := h.1
      have hb := (sem_load.1 hs).1
      cases b with
      | true => exact closed v hv hw.1 fun ho => by cases ho
      | false =>
        refine closed true (fun _ => ?_) hw.2 fun ho => by cases ho
        -- what the callback reads is false only outside the scope
        cases hin : p.2.inside with
        | false => rfl
        | true => rw [hi.opened hin] at hb; cases hb
    | _ => exact closed v hv (hw b) fun ho => by cases ho
  | setPending q => exact closed v hv hw.2 fun _ => hv hw.1
  | _ => exact closed v hv (hw b) fun ho => by cases ho

/-- Programs that record no stop. -/
abbrev Unrecording {α : Type} (p : Dap α) : Prop := AllOps (fun o => o.recordsStop = false) p

/-- What records no stop may read the scope as it likes. -/
theorem Unrecording.scope {α : Type} {p : Dap α} (h : Unrecording p) (v : Bool) :
    p.wp scopeSpec (fun _ _ => True) (fun _ _ => True) v := by
  refine wp_of_allOps (I := fun _ => True) (fun {β} o ho w _ => ?_) h trivial
  cases o with
  | load f => cases f <;> first | exact ⟨trivial, trivial⟩ | exact fun _ => trivial
  | setPending p => cases ho
  | _ => exact fun _ => trivial

theorem unrecording_of_idle {α : Type} {halts : Bool} {p : Dap α}
    (h : AllOps (DapOp.idle halts) p) : Unrecording p := by
  refine h.mono fun {β} o ho => ?_
  cases o with
  | setPending p => exact ho.elim
  | _ => rfl

theorem unrecording_of_neutral {α : Type} {p : Dap α} (h : Neutral p) : Unrecording p :=
  unrecording_of_idle (idle_of_neutral h : AllOps (DapOp.idle false) p)

namespace Server

variable {id : SessionId}

/-- A stop is recorded where the scope has been seen closed. -/
theorem recordStop_scope {record : Dap Unit}
    (h : record.wp scopeSpec (fun _ _ => True) (fun _ _ => True) true) (v : Bool) :
    (recordStop record).wp scopeSpec (fun _ _ => True) (fun _ _ => True) v := by
  intro running
  change (if (!running) = true then _ else _ : Dap Unit).wp _ _ _ _
  split
  · trivial
  · exact fun _ _ => ⟨fun _ => trivial, h⟩

theorem onBreakpointHit_scope (breakpointId : Nat) (v : Bool) :
    (onBreakpointHit id breakpointId).wp scopeSpec (fun _ _ => True) (fun _ _ => True) v := by
  rw [onBreakpointHit, bind_eq, wp_bind]
  have hcontinue :
      AllOps (DapOp.idle true) (tryAutoContinueConditionalBreakpointHit id breakpointId) :=
    tryAutoContinueConditionalBreakpointHit_idle breakpointId
  refine wp_mono_val (fun continued w _ => ?_) ((unrecording_of_idle hcontinue).scope v)
  split
  · trivial
  · refine recordStop_scope ?_ w
    exact ⟨rfl, trivial⟩

theorem onExceptionHit_scope (exceptionCode : Nat) (v : Bool) :
    (onExceptionHit id exceptionCode).wp scopeSpec (fun _ _ => True) (fun _ _ => True) v := by
  rw [onExceptionHit, bind_eq, wp_bind]
  have hcontinue : AllOps (DapOp.idle true) (tryAutoContinueKernelInitialBreak id) :=
    tryAutoContinueKernelInitialBreak_idle
  refine wp_mono_val (fun continued w _ => ?_) ((unrecording_of_idle hcontinue).scope v)
  split
  · trivial
  · refine recordStop_scope ?_ w
    intro recorded
    change (if recorded = true then _ else _ : Dap Unit).wp _ _ _ _
    split
    · trivial
    · exact ⟨rfl, trivial⟩

theorem onBreakHit_unrecording : Unrecording onBreakHit := by
  refine .bind (.perform rfl) fun _ => .ite (.perform rfl) <| .bind (.perform rfl) fun _ =>
    .bind (.perform rfl) fun _ => .bind (.perform rfl) fun pending => .bind (.perform rfl)
      fun _ => .ite trivial ?_
  cases pending with
  | none => trivial
  | some p =>
    exact .bind (unrecording_of_neutral flushPendingThreadEvents_neutral) fun _ =>
      .bind (unrecording_of_neutral (tryGetCurrentThreadId_neutral _)) fun _ => .perform rfl

/-- A callback records a stop only where it has seen the scope closed. -/
theorem onCallback_scope (id : SessionId) (event : Callback) (v : Bool) :
    (onCallback id event).wp scopeSpec (fun _ _ => True) (fun _ _ => True) v := by
  cases event with
  | breakpoint =>
    change (Prog.bind (Session.getLastBreakpointId id) _).wp _ _ _ _
    rw [wp_bind]
    exact wp_mono_val (fun breakpointId w _ => onBreakpointHit_scope breakpointId w)
      ((unrecording_of_neutral (getLastBreakpointId_neutral id)).scope v)
  | exception code address firstChance =>
    intro x
    change (if (firstChance && code == 0xE06D7363 && !x.cppFirstChanceBreak) = true then _
      else _ : Dap Unit).wp _ _ _ _
    split
    · trivial
    · exact fun _ => onExceptionHit_scope code v
  | systemError error => exact onExceptionHit_scope error v
  | break_ => exact onBreakHit_unrecording.scope v
  | noDebuggee | sessionEnd => exact (unrecording_of_idle queueSessionEnded_idle).scope v
  | exitProcess exitCode =>
    exact (unrecording_of_idle (queueSessionTermination_idle _)).scope v
  | createThread | exitThread =>
    exact (unrecording_of_neutral (queueThreadEvent_neutral _)).scope v
  | output text =>
    have received : Unrecording (onCallback id (.output text)) :=
      .ite trivial (unrecording_of_neutral (handleOutputReceived_neutral id text))
    exact received.scope v

end Server

/-! ## Every run -/

namespace SuppressedStops

open Server

variable {breakIn : ℕ → Bool} {t : Tid} {j : Job} {p p' : Server × SuppressedLog}

theorem safe_of_ne (ht : j.thread ≠ .callback) (p : Server × SuppressedLog) :
    suppressedOutline.Safe (suppressedSystem breakIn) j.thread j j.body p :=
  Outline.safe_of_allOps (A := suppressedOutline) (Job.body_permitted ht)
    (fun o _ _ _ _ hi h => (suppressedKeeps o (fun hc => absurd hc ht) hi h).1) (fun _ _ => rfl) p

theorem callback_safe (id : SessionId) (event : Callback) (threads : List (Nat × Nat))
    (current : Nat) : suppressedOutline.Safe (suppressedSystem breakIn) .callback
      (.callback id event threads current) (Job.callback id event threads current).body p := by
  intro p' _ _
  have hw := wp_of_view (v := false) (@scopePre_outline breakIn) (s := p') (fun hv => by cases hv)
    (onCallback_scope id event false)
  change (Prog.bind (onCallback id event) fun _ => .ret false).wp _ _ _ p'
  rw [wp_bind]
  exact wp_mono (fun _ _ _ => rfl) (fun _ _ _ => rfl) hw

theorem start_valid (hi : SuppressedInv p) (h : (suppressedSystem breakIn).start t j p p') :
    suppressedOutline.Keeps t p p' ∧
      suppressedOutline.Safe (suppressedSystem breakIn) t j j.body p' := by
  obtain ⟨hs, hl⟩ := h
  have hs : startJob t j p.1 = some p'.1 := hs
  have ht := startJob_thread hs
  subst ht
  by_cases hc : j.thread = .callback
  · cases j with
    | callback id event threads current =>
      obtain ⟨-, hs⟩ := startJob_callback hs
      have hflags : p'.1.flags = p.1.flags := by rw [hs]; rfl
      refine ⟨⟨⟨?_, ?_⟩, fun u hu => ?_⟩, callback_safe id event threads current⟩
      · rw [hl, hflags, SuppressedLog.record]
        split
        · exact fun hinside => (Bool.and_eq_true_iff.1 hinside).2
        · intro hinside; cases hinside
      · rw [hl, SuppressedLog.record]
        split
        · exact hi.sound.start_own _ _ _
        · exact hi.sound.idle _
      · cases u with
        | callback => exact absurd rfl hu
        | _ => trivial
    | _ => cases hc
  · obtain ⟨pump, mode, outboundOpen, hs, -⟩ := startJob_of_ne hc hs
    have hl : ∃ updating, p'.2 = { p.2 with updating } := by
      rw [hl]
      cases j with
      | request root => exact ⟨updatesBreakpoints root, rfl⟩
      | callback => exact absurd rfl hc
      | _ => exact ⟨p.2.updating, rfl⟩
    obtain ⟨updating, hl⟩ := hl
    have hsound := hi.sound
    refine ⟨⟨⟨?_, ?_⟩, fun u _ => suppressedOutline_rely fun h => by rw [hl]; exact h⟩,
      safe_of_ne hc p'⟩
    · rw [hl, hs]
      exact hi.opened
    · rw [hl]
      exact ⟨hsound.told, hsound.hidden, hsound.current, hsound.overtaken⟩

theorem finish_valid {r : Except Exn Bool} (hi : SuppressedInv p)
    (hp : suppressedOutline.post t j r p) (h : (suppressedSystem breakIn).finish t j r p p') :
    suppressedOutline.Keeps t p p' := by
  obtain ⟨hf, hl⟩ := h
  have hf : finishJob j r p.1 = some p'.1 := hf
  have hp : t = j.thread := hp
  subst hp
  by_cases hc : j.thread = .callback
  · cases j with
    | callback id event threads current =>
      have hl : p'.2 = { p.2 with
        current := none
        inside := false
        hidden := if p.2.inside && !p.2.continued then p.2.current.toList ++ p.2.hidden
          else p.2.hidden } := hl
      refine ⟨⟨?_, hl ▸ hi.sound.finish⟩, fun u _ => suppressedOutline_rely fun _ => by rw [hl]⟩
      rw [hl]
      intro hinside
      cases hinside
    | _ => cases hc
  · obtain ⟨mode, loop, hs⟩ := finishJob_of_ne hc hf
    have hl : p'.2 = p.2 := by
      rw [hl]
      cases j with
      | callback => exact absurd rfl hc
      | _ => rfl
    refine ⟨⟨?_, hl ▸ hi.sound⟩, fun u _ => suppressedOutline_rely fun h => hl ▸ h⟩
    rw [hl, hs]
    exact hi.opened

theorem outline_valid (fullPath : String → String) :
    suppressedOutline.Valid (suppressedSystem breakIn) ({ fullPath }, {}) where
  init := by
    refine ⟨fun hinside => ?_, ⟨fun n hn => ?_, fun n hn => ?_, fun n hn => ?_, fun n hn => ?_⟩⟩
    · cases hinside
    · rcases hn with howner | hreporting | hreported
      · cases howner
      · cases hreporting
      · cases hreported
    · cases hn
    · cases hn
    · cases hn
  start hi h := start_valid hi h
  finish hi hp h := finish_valid hi hp h

end SuppressedStops

section

variable {breakIn : ℕ → Bool} {fullPath : String → String} {ls : List Lab}
  {c : Config Tid DapOp Job Exn Bool (Server × SuppressedLog)}

end

/-- A breakpoint update, and what the engine reports between the interrupt and the resume. -/
def Schedule.update (events : Schedule) : Schedule :=
  enter .request (.request Server.breakpointAtFive) 400 ++ events ++ leave .loop ++
    run .loop (.loopCondition 0) ++ run .loop .loopEnd ++ leave .request

/-- The target stops at a breakpoint. -/
def Schedule.hit : Schedule := report .breakpoint ++ report .break_

/-- The break-in of the interrupt. -/
def Schedule.breakIn : Schedule := report (.exception 0x80000003 0 true) ++ report .break_

end DapDbgeng
