/-
  The mode a step is made in.

  A step request switches the engine to the mode its granularity asks for and then steps.  In
  between the dispatcher serves others, and the wait loop of the previous step restores the mode.

  * `ModeLog`: what the request being served asks for, and whether a step was made in another mode;
  * `beginsCalm`: a step request begins after the wait loops of the earlier ones have ended;
  * `StepView`: whether the request thread is alone, and the session it has prepared since.

  Main result: `steps_in_mode`, on every run in which the step requests begin so.
-/
import DapDbgeng.Calm

namespace DapDbgeng

open Concurrent Concurrent.Prog

/-! ## History -/

/-- The message asks for a step by one instruction. -/
def asksInstruction (root : Json) : Bool :=
  match Decoder.opt "granularity" Decoder.granularity
      ((root.member "arguments").getD (.obj [])) with
  | .ok granularity => granularity == some .instruction
  | .error _ => false

/-- The session in which an operation steps. -/
def DapOp.stepsIn : ∀ {β : Type}, DapOp β → Option SessionId
  | _, .call id (.execute c) => if c.isStep then some id else none
  | _, _ => none

/-- The calls that may leave the engine in another mode than the one asked for: the other switch,
and the commands the adapter does not write itself. -/
def Call.disturbs (instruction : Bool) : ∀ {β : Type}, Call β → Bool
  | _, .execute .sourceStepping => instruction
  | _, .execute .instructionStepping => !instruction
  | _, .execute (.condition _) | _, .execute (.raw _) => true
  | _, _ => false

def DapOp.disturbs (instruction : Bool) (id : SessionId) : ∀ {β : Type}, DapOp β → Bool
  | _, .call id' c | _, .leave id' c => id' == id && c.disturbs instruction
  | _, .newSession => true
  | _, _ => false

/-- The session that an operation switches to the mode asked for. -/
def DapOp.prepares (instruction : Bool) : ∀ {β : Type}, DapOp β → β → Option SessionId
  | _, .call id (.execute .sourceStepping), r =>
    if r.status.isOk && !instruction then some id else none
  | _, .call id (.execute .instructionStepping), r =>
    if r.status.isOk && instruction then some id else none
  | _, _, _ => none

/-- The session prepared after an operation: up to the step, unless it is disturbed. -/
def DapOp.prepared (instruction : Bool) {β : Type} (o : DapOp β) (b : β)
    (before : Option SessionId) : Option SessionId :=
  (o.prepares instruction b).or
    (before.filter fun id => o.stepsIn.isNone && !o.disturbs instruction id)

/-- Whether the request being served asks for an instruction, whether a detached wait goes on, and
whether a step was made in the other mode. -/
structure ModeLog where
  instruction : Bool := false
  pumping : Bool := false
  wrong : Bool := false

namespace ModeLog

def asked : Lab → Bool → Bool
  | .start _ (.request root), _ => asksInstruction root
  | _, asked => asked

def steppedWrong : Lab → Server → Bool → Bool
  | .op _ e, s, instruction =>
    e.op.stepsIn.any fun id => (s.engine id).sourceStepping == instruction
  | _, _, _ => false

def record (l : Lab) (s : Server) (h : ModeLog) : ModeLog where
  instruction := asked l h.instruction
  pumping := l.busy .pump h.pumping
  wrong := h.wrong || steppedWrong l s h.instruction

end ModeLog

/-- The message asks for a step. -/
def asksStep (root : Json) : Bool :=
  Server.requestCommand root = "next" || Server.requestCommand root = "stepIn" ||
    Server.requestCommand root = "stepOut"

/-- A step request begins when no wait loop of an earlier one is left, no detached wait is due or
going on, and no call that runs callbacks is. -/
def beginsCalm : Lab → Server × ModeLog → Bool
  | .start _ (.request root), p => !asksStep root || (p.1.calm && !p.2.pumping)
  | _, _ => true

/-- The adapter with its mode log. -/
def modeMachine : Machine Tid DapOp Job Exn Bool (Server × ModeLog) Answers :=
  adapter.instrument ModeLog.record

/-- The adapter with its mode log, its step requests beginning in a calm state. -/
def modeSystem : System Tid DapOp Job Exn Bool (Server × ModeLog) :=
  (adapter.system.instrument ModeLog.record).restrict fun l p => beginsCalm l p = true

/-- The same, with what is known of the steps of all runs. -/
def soloSystem : System Tid DapOp Job Exn Bool (Server × ModeLog) :=
  modeSystem.restrict (StepPlaced ModeLog.pumping)

/-! ## The mode of the engine -/

/-- The engine of session `id` is in the mode asked for. -/
def InMode (instruction : Bool) (id : SessionId) (s : Server) : Prop :=
  (s.engine id).sourceStepping = !instruction

/-- A call that does not disturb keeps the mode. -/
theorem Call.effect_sourceStepping {instruction : Bool} {β : Type} {c : Call β}
    (hc : c.disturbs instruction = false) (created : List Int) (after : EngineState → EngineState)
    (b : β) {e : EngineState} (he : e.sourceStepping = !instruction) :
    (c.effect created after b e).sourceStepping = !instruction := by
  cases c with
  | execute command =>
    cases command with
    | condition | raw => cases hc
    | sourceStepping =>
      obtain rfl : instruction = false := hc
      rcases b with ⟨status | status, output⟩
      · exact he
      · rfl
    | instructionStepping =>
      obtain rfl : instruction = true := by simpa [disturbs] using hc
      rcases b with ⟨status | status, output⟩
      · exact he
      · rfl
    | _ => rcases b with ⟨status | status, output⟩ <;> exact he
  | createProcess | attachProcess | attachKernel | openDumpFile | detachProcesses =>
    cases b <;> exact he
  | setCurrentThreadId => cases b <;> exact he
  | _ => exact he

theorem InMode.updateEngine {instruction : Bool} {id id' : SessionId} {s : Server}
    {f : EngineState → EngineState} (h : InMode instruction id s)
    (hf : id' = id → (f (s.engine id)).sourceStepping = !instruction) :
    InMode instruction id (s.updateEngine id' f) := by
  rw [InMode, Server.updateEngine_engine]
  split
  · rename_i hid
    subst hid
    exact hf rfl
  · exact h

/-- An operation that does not disturb keeps the mode. -/
theorem InMode.sem {instruction : Bool} {id : SessionId} {t : Tid} {β : Type} {o : DapOp β}
    {s s' : Server} {b : β} (h : InMode instruction id s) (ho : o.disturbs instruction id = false)
    (hs : sem t β o s b s') : InMode instruction id s' := by
  have called {id' : SessionId} {c : Call β} (hc : (id' == id && c.disturbs instruction) = false)
      {s : Server} (h : InMode instruction id s) (created : List Int)
      (after : EngineState → EngineState) :
      InMode instruction id (s.updateEngine id' (c.effect created after b)) := by
    refine h.updateEngine fun hid => Call.effect_sourceStepping ?_ created after b h
    simpa [hid] using hc
  cases o with
  | call id' c =>
    obtain ⟨created, after, -, -, rfl⟩ := sem_call hs
    exact called ho h created after
  | leave id' c =>
    obtain ⟨-, -, created, after, -, rfl⟩ := sem_leave hs
    exact called ho h created after
  | newSession => cases ho
  | updateSession id' u =>
    rw [sem_updateSession.1 hs, InMode, Server.engine, Server.modifySession_sessions]
    split
    · rename_i hid
      subst hid
      cases u <;> exact h
    · exact h
  | send m =>
    rw [sem_send.1 hs]
    split <;> exact h
  | lockGate => obtain ⟨-, rfl⟩ := sem_lockGate.1 hs; exact h
  | joinLoop => obtain ⟨-, rfl⟩ := sem_joinLoop.1 hs; exact h
  | acquire => obtain ⟨_, -, -, rfl⟩ := sem_acquire.1 hs; exact h
  | enter => obtain ⟨_, -, -, -, rfl⟩ := sem_enter.1 hs; exact h
  | _ => obtain ⟨_, hs⟩ := hs; cases hs; exact h

/-- A switch to the mode asked for. -/
theorem inMode_of_prepares {instruction : Bool} {id : SessionId} {t : Tid} {β : Type} {o : DapOp β}
    {s s' : Server} {b : β} (ho : o.prepares instruction b = some id) (hs : sem t β o s b s') :
    InMode instruction id s' := by
  cases o with
  | call id' c =>
    obtain ⟨created, after, -, -, rfl⟩ := sem_call hs
    cases c with
    | execute command =>
      cases command with
      | sourceStepping =>
        obtain ⟨hok, hid⟩ := Option.ite_none_right_eq_some.1 ho
        cases hid
        rcases b with ⟨status | status, output⟩
        · cases hok
        · obtain rfl : instruction = false := by simpa [Except.isOk, Except.toBool] using hok
          rw [InMode, Server.updateEngine_engine, if_pos rfl]
          rfl
      | instructionStepping =>
        obtain ⟨hok, hid⟩ := Option.ite_none_right_eq_some.1 ho
        cases hid
        rcases b with ⟨status | status, output⟩
        · cases hok
        · obtain rfl : instruction = true := by simpa [Except.isOk, Except.toBool] using hok
          rw [InMode, Server.updateEngine_engine, if_pos rfl]
          rfl
      | _ => cases ho
    | _ => cases ho
  | _ => cases ho

/-! ## The outline -/

/-- Where the request thread is alone, nothing changes for it. -/
def modeOutline : Outline Tid Job Exn Bool (Server × ModeLog) where
  Inv p := p.2.wrong = false
  rely
    | .request => fun p p' =>
      p'.2.instruction = p.2.instruction ∧ (Alone ModeLog.pumping p → p' = p)
    | _ => fun _ _ => True
  post t j _ _ := t = j.thread
  rely_refl t p := by cases t <;> first | exact ⟨rfl, fun _ => rfl⟩ | trivial
  rely_trans {t} _ _ _ h h' := by
    cases t with
    | request =>
      refine ⟨h'.1.trans h.1, fun halone => ?_⟩
      obtain rfl := h.2 halone
      exact h'.2 halone
    | _ => trivial

/-- A step of another thread. -/
theorem modeKeeps {t : Tid} {p p' : Server × ModeLog} {l : Lab} (ht : t ≠ .request)
    (hl : p'.2 = ModeLog.record l p.1 p.2) (hthread : l.thread = t)
    (hlabel : ModeLog.asked l p.2.instruction = p.2.instruction)
    (hwrong : ModeLog.steppedWrong l p.1 p.2.instruction = false)
    (hplaced : StepPlaced ModeLog.pumping l p) (hi : modeOutline.Inv p) : modeOutline.Keeps t p p' := by
  have hi : p.2.wrong = false := hi
  refine ⟨?_, fun u _ => ?_⟩
  · change p'.2.wrong = false
    rw [hl, ModeLog.record, hi, hwrong]
    rfl
  · cases u with
    | request =>
      refine ⟨?_, fun hcalm => absurd (hthread.symm.trans (hplaced.alone hcalm)) ht⟩
      rw [hl]
      exact hlabel
    | _ => trivial

/-! ## The request thread -/

/-- Whether the request thread is alone, and the session it has prepared since. -/
structure StepView where
  calm : Bool
  prepared : Option SessionId

def StepView.after (v : StepView) (instruction : Bool) {β : Type} (o : DapOp β) (b : β) :
    StepView where
  calm := v.calm && !o.stirs
  prepared := if v.calm && !o.stirs then o.prepared instruction b v.prepared else none

/-- What the request thread knows. -/
structure StepKnows (instruction : Bool) (v : StepView) (p : Server × ModeLog) : Prop where
  asked : p.2.instruction = instruction
  calm : v.calm = true → Alone ModeLog.pumping p
  prepared : ∀ id ∈ v.prepared, v.calm = true ∧ InMode instruction id p.1

def modePre (instruction : Bool) {β : Type} (o : DapOp β) (K : β → StepView → Prop)
    (v : StepView) : Prop :=
  (∀ id ∈ o.stepsIn, v.prepared = some id) ∧ ∀ b, K b (v.after instruction o b)

def modeSpec (instruction : Bool) : Spec DapOp StepView where
  pre := modePre instruction
  mono _ _ _ hK _ h := ⟨h.1, fun b => hK b _ (h.2 b)⟩

/-- What the request thread knows of the session it has prepared holds under the outline. -/
theorem modePre_outline {instruction : Bool} {β : Type} (o : DapOp β)
    {K : β → StepView → Prop} {v : StepView} {p : Server × ModeLog}
    (hv : StepKnows instruction v p) (hw : (modeSpec instruction).pre o K v) :
    (modeOutline.spec soloSystem .request).pre o
      (fun b p' => ∃ v', StepKnows instruction v' p' ∧ K b v') p := by
  intro b p' hi h
  obtain ⟨hstep, hK⟩ := hw
  have hs : sem .request β o p.1 b p'.1 := h.1.1.1
  have hl : p'.2 = ModeLog.record (.op .request ⟨o, b⟩) p.1 p.2 := h.1.1.2
  have hasked : p'.2.instruction = p.2.instruction := by rw [hl]; rfl
  have hpumping : p'.2.pumping = p.2.pumping := by rw [hl]; rfl
  refine ⟨⟨?_, fun u hu => ?_⟩, fun p'' hr _ => ⟨_, ⟨?_, fun hcalm => ?_, fun id hid => ?_⟩, hK b⟩⟩
  · have hi : p.2.wrong = false := hi
    change p'.2.wrong = false
    rw [hl, ModeLog.record, hi, Bool.false_or, ModeLog.steppedWrong]
    cases hsteps : o.stepsIn with
    | none => rfl
    | some id =>
      have hmode : (p.1.engine id).sourceStepping = !instruction :=
        (hv.prepared id (hstep id hsteps)).2
      rw [hv.asked]
      simp [hmode]
  · cases u with
    | request => exact absurd rfl hu
    | _ => trivial
  · exact hr.1.trans (hasked.trans hv.asked)
  · obtain ⟨hcalm, hstirs⟩ := Bool.and_eq_true_iff.1 hcalm
    have hp : Alone ModeLog.pumping p' := by
      obtain ⟨hc, hp⟩ := hv.calm hcalm
      exact ⟨sem_calm hs (by simpa using hstirs) hc, hpumping.trans hp⟩
    rw [hr.2 hp]
    exact hp
  · obtain ⟨hcalm, hid⟩ := Option.ite_none_right_eq_some.1 hid
    refine ⟨hcalm, ?_⟩
    obtain ⟨hcalm, hstirs⟩ := Bool.and_eq_true_iff.1 hcalm
    have hp : Alone ModeLog.pumping p' := by
      obtain ⟨hc, hp⟩ := hv.calm hcalm
      exact ⟨sem_calm hs (by simpa using hstirs) hc, hpumping.trans hp⟩
    rw [hr.2 hp]
    obtain hprepares | ⟨-, hbefore⟩ := Option.or_eq_some_iff.1 hid
    · exact inMode_of_prepares hprepares hs
    · obtain ⟨hbefore, hquiet⟩ := Option.filter_eq_some_iff.1 hbefore
      exact (hv.prepared id hbefore).2.sem (by simpa using (Bool.and_eq_true_iff.1 hquiet).2) hs

section

variable {instruction : Bool} {α : Type} {id : SessionId}

/-- The operations that make no call and stir nothing. -/
def DapOp.callless : ∀ {β : Type}, DapOp β → Prop
  | _, .call .. | _, .leave .. | _, .newSession => False
  | _, o => o.stirs = false

theorem modePre_of_callless {β : Type} {o : DapOp β} (ho : o.callless)
    {K : β → StepView → Prop} {v : StepView} (hv : v.calm = true) (hK : ∀ b, K b v) :
    (modeSpec instruction).pre o K v := by
  have kept (hs : o.stepsIn = none) (hp : ∀ b, o.prepares instruction b = none)
      (hd : ∀ id, o.disturbs instruction id = false) (ho : o.stirs = false) :
      modePre instruction o K v := by
    refine ⟨by rw [hs]; nofun, fun b => ?_⟩
    have hsame : v.after instruction o b = v := by
      obtain ⟨calm, prepared⟩ := v
      obtain rfl : calm = true := hv
      simp only [StepView.after, ho, DapOp.prepared, hp b, hs, hd]
      cases prepared <;> rfl
    rw [hsame]
    exact hK b
  cases o with
  | call | leave | newSession => exact ho.elim
  | spawnLoop | spawnPump | enter => cases ho
  | _ => exact kept rfl (fun _ => rfl) (fun _ => rfl) rfl

theorem op_mode {β : Type} {o : DapOp β} (ho : o.callless) {k : β → Dap α}
    {Q : α → StepView → Prop} {E : Exn → StepView → Prop} {v : StepView} (hv : v.calm = true)
    (h : ∀ b, (k b).wp (modeSpec instruction) Q E v) :
    (Prog.op o k).wp (modeSpec instruction) Q E v := modePre_of_callless ho hv h

theorem callless_mode {p : Dap α} (h : AllOps DapOp.callless p) {v : StepView}
    (hv : v.calm = true) :
    p.wp (modeSpec instruction) (fun _ w => w = v) (fun _ w => w = v) v := by
  refine wp_of_allOps (fun {β} o ho w hw => ?_) h rfl
  subst hw
  exact modePre_of_callless ho hv fun _ => rfl

theorem stepsIn_of_allows {P : Permit} (hP : ¬(P.records ∧ P.resumes)) {β : Type} {o : DapOp β}
    (ho : P.allows o) : o.stepsIn = none := by
  cases o with
  | call id c =>
    cases c with
    | execute command =>
      have ho : command.isStep = true → P.records ∧ P.resumes := ho
      exact if_neg fun hstep => hP (ho hstep)
    | _ => rfl
  | _ => rfl

/-- The programs without a step. -/
abbrev Stepless (p : Dap α) : Prop := AllOps (fun o => DapOp.stepsIn o = none) p

theorem Stepless.permitted {P : Permit} (hP : ¬(P.records ∧ P.resumes)) {p : Dap α}
    (h : Permitted P p) : Stepless p := AllOps.mono (fun _ ho => stepsIn_of_allows hP ho) h

theorem Stepless.silent {p : Dap α} (h : Permitted {} p) : Stepless p :=
  .permitted (fun hP => hP.1) h

/-- Begun in a calm state, `p` steps in sessions it has prepared only. -/
def Prepares (instruction : Bool) (p : Dap α) : Prop :=
  ∀ v : StepView, v.calm = true →
    p.wp (modeSpec instruction) (fun _ _ => True) (fun _ _ => True) v

theorem Stepless.mode {p : Dap α} (h : Stepless p) (v : StepView) :
    p.wp (modeSpec instruction) (fun _ _ => True) (fun _ _ => True) v := by
  refine wp_of_allOps (I := fun _ => True) (fun {β} o ho w _ => ?_) h trivial
  have hnone : o.stepsIn = none := ho
  exact ⟨by rw [hnone]; nofun, fun _ => trivial⟩

theorem Stepless.calm_mode {p : Dap α} (h : Stepless p) (hp : Unstirring p) {v : StepView}
    (hv : v.calm = true) : p.wp (modeSpec instruction) (fun _ w => w.calm = true)
      (fun _ w => w.calm = true) v := by
  refine wp_of_allOps (I := fun w : StepView => w.calm = true) (fun {β} o ho w hw => ?_)
    (h.and hp) hv
  refine ⟨by rw [ho.1]; nofun, fun b => ?_⟩
  rw [StepView.after, hw, ho.2]
  rfl

namespace Prepares

variable {β : Type}

theorem stepless {p : Dap α} (h : Stepless p) : Prepares instruction p := fun v _ => h.mode v

/-- Before the step, the request thread stays alone. -/
theorem after {p : Dap α} {f : α → Dap β} (hp : Stepless p) (hp' : Unstirring p)
    (hf : ∀ a, Prepares instruction (f a)) : Prepares instruction (p.bind f) := by
  intro v hv
  rw [wp_bind]
  exact wp_mono (fun a w hw => hf a w hw) (fun _ _ _ => trivial) (hp.calm_mode hp' hv)

/-- After the step, there is no other. -/
theorem andThen {p : Dap α} {f : α → Dap β} (hp : Prepares instruction p)
    (hf : ∀ a, Stepless (f a)) : Prepares instruction (p.bind f) := by
  intro v hv
  rw [wp_bind]
  exact wp_mono_val (fun a w _ => (hf a).mode w) (hp v hv)

theorem catching {p : Dap α} {h : Exn → Dap α} (hp : Prepares instruction p)
    (hh : ∀ e, Stepless (h e)) : Prepares instruction (p.catching h) := by
  intro v hv
  rw [wp_catching]
  exact wp_mono (fun _ _ _ => trivial) (fun e w _ => (hh e).mode w) (hp v hv)

theorem ite {c : Prop} [Decidable c] {p q : Dap α} (hp : Prepares instruction p)
    (hq : Prepares instruction q) : Prepares instruction (if c then p else q) := by
  split
  · exact hp
  · exact hq

end Prepares

theorem invoke_mode {p : Dap α} {Q : α → StepView → Prop} {v : StepView} (hv : v.calm = true)
    (hQ : ∀ a w, Q a w → w.calm = true)
    (h : p.wp (modeSpec instruction) Q (fun _ _ => True) v) :
    (invoke .request p).wp (modeSpec instruction) Q (fun _ _ => True) v := by
  refine op_mode (o := .enqueue) rfl hv fun _ => op_mode (o := .acquire) rfl hv fun _ => ?_
  change (p.attempt.bind _).wp _ _ _ _
  rw [wp_bind, wp_attempt]
  refine wp_mono (fun a w hw => ?_) (fun e w _ => ?_) h
  · exact op_mode (o := .release) rfl (hQ a w hw) fun _ => hw
  · have rest : Stepless (Prog.op .release fun _ => (.throw (.dispatcherFailure e.what) : Dap α)) :=
      ⟨rfl, fun _ => trivial⟩
    exact wp_mono_val (fun _ _ _ => trivial) (rest.mode w)

namespace Session

theorem throwIfDisposed_mode {Q : Unit → StepView → Prop} {v : StepView} (hv : v.calm = true)
    (hQ : Q () v) :
    (throwIfDisposed id).wp (modeSpec instruction) Q (fun _ _ => True) v := by
  refine op_mode (o := .readSession id) rfl hv fun x => ?_
  change (if x.disposed = true then _ else _ : Dap Unit).wp _ _ _ _
  split
  · trivial
  · exact hQ

/-- A command of the adapter: its call, and then its output. -/
theorem executeDebuggerCommand_mode {command : Command}
    (hpump : (Call.execute command).pump? = none) {message : String}
    {Q : StepView → Prop} {v : StepView} (hv : v.calm = true)
    (h : modePre instruction (.call id (.execute command))
      (fun r w => r.status.isOk = true → Q w) v) :
    (executeDebuggerCommand id command message).wp (modeSpec instruction) (fun _ w => Q w)
      (fun _ _ => True) v := by
  have output (text : String) : AllOps DapOp.callless (handleOutputReceived id text) :=
    .bind (.perform rfl) fun _ => .bind (.perform rfl) fun _ =>
      .ite (.ite trivial (.perform rfl)) trivial
  rw [executeDebuggerCommand, bind_eq, wp_bind]
  refine throwIfDisposed_mode hv ?_
  rw [execute, hpump]
  simp only [Option.isSome_none, Bool.false_eq_true, if_false, bind_eq, wp_bind]
  refine ⟨h.1, fun r => ?_⟩
  dsimp only [wp_ret]
  have hcalm : (v.after instruction (.call id (.execute command)) r).calm = true := by
    rw [StepView.after, hv]
    rfl
  refine wp_mono (fun _ w hw => ?_) (fun _ _ _ => trivial)
    (callless_mode (.forEach output (r.output.filter fun text => !text.isEmpty)) hcalm)
  subst hw
  have hr := h.2 r
  rw [pure_eq, wp_ret]
  cases hstatus : r.status with
  | error hr => trivial
  | ok u => exact hr (by rw [hstatus]; rfl)

end Session

namespace Server

/-- The session is in the mode asked for. -/
theorem prepareSteppingGranularity_mode (granularity : Option SteppingGranularity)
    {v : StepView} (hv : v.calm = true) :
    (prepareSteppingGranularity id granularity).wp
      (modeSpec (granularity == some .instruction))
      (fun _ w => w.calm = true ∧ w.prepared = some id) (fun _ _ => True) v := by
  have switched {i : Bool} {command : Command} {message : String} {f : Bool}
      (hpump : (Call.execute command).pump? = none) (hstep : command.isStep = false)
      (hp : ∀ r : ExecuteResult, r.status.isOk = true →
        DapOp.prepares i (.call id (.execute command)) r = some id) :
      (do invoke .request (do
            Session.throwIfDisposed id
            Session.executeDebuggerCommand id command message)
          store .restoreSourceLineSteppingAfterStop f : Dap Unit).wp (modeSpec i)
        (fun _ w => w.calm = true ∧ w.prepared = some id) (fun _ _ => True) v := by
    rw [bind_eq, wp_bind]
    refine wp_mono (fun _ w hw => ?_) (fun _ _ _ => trivial)
      (invoke_mode (Q := fun _ w => w.calm = true ∧ w.prepared = some id) hv (fun _ _ h => h.1) ?_)
    · exact op_mode (o := .store .restoreSourceLineSteppingAfterStop f) rfl hw.1 fun _ => hw
    · rw [bind_eq, wp_bind]
      refine Session.throwIfDisposed_mode hv (Session.executeDebuggerCommand_mode hpump hv ⟨?_, ?_⟩)
      · rw [DapOp.stepsIn, hstep]
        nofun
      · intro r hr
        rw [StepView.after, hv, DapOp.prepared, hp r hr, Option.some_or]
        exact ⟨rfl, rfl⟩
  unfold prepareSteppingGranularity
  by_cases hg : granularity = some .instruction
  · rw [if_pos hg, hg]
    exact switched rfl rfl fun r hr => by simp [DapOp.prepares, hr]
  · rw [if_neg hg, beq_eq_false_iff_ne.2 hg]
    exact switched rfl rfl fun r hr => by simp [DapOp.prepares, hr]

/-- The step is made in the session that is prepared. -/
theorem resume_mode {command : Command} {message : String}
    (hc : (Call.execute command).pump? = none) {v : StepView} (hv : v.calm = true)
    (hp : v.prepared = some id) : (invoke .request (Session.resume id command message)).wp
      (modeSpec instruction) (fun _ _ => True) (fun _ _ => True) v := by
  have calm : (Session.resume id command message).wp (modeSpec instruction)
      (fun _ w => w.calm = true) (fun _ _ => True) v := by
    rw [Session.resume]
    refine op_mode (o := .updateSession id (.lastException none)) rfl hv fun _ => ?_
    refine Session.executeDebuggerCommand_mode (Q := fun w => w.calm = true) hc hv
      ⟨fun id' hid => ?_, fun r _ => ?_⟩
    · rw [hp]
      exact (Option.ite_none_right_eq_some.1 hid).2
    · rw [StepView.after, hv]
      rfl
  exact wp_mono_val (fun _ _ _ => trivial)
    (invoke_mode (Q := fun _ w => w.calm = true) hv (fun _ _ h => h) calm)

theorem stepTarget_prepares {kind : StepKind} {command : Command} {message : String}
    (hk : kind.step id = Session.resume id command message)
    (hc : (Call.execute command).pump? = none) (threadId : Int)
    (granularity : Option SteppingGranularity) :
    Prepares (granularity == some .instruction) (stepTarget kind id threadId granularity) := by
  have undone (e : Exn) : Permitted {} (do
      store .isExecutionRunning false
      clearPendingStoppedEvent
      restoreSourceLineSteppingIfNeeded .request id
      Prog.throw e : Dap Unit) :=
    .bind (.perform trivial) fun _ => .bind (.perform trivial) fun _ =>
      .bind (restoreSourceLineSteppingIfNeeded_permitted .request id) fun _ => trivial
  have announced : AllOps DapOp.callless
      (setPendingStoppedEvent .step (some kind.description)) := .perform rfl
  have waits : Permitted {} (do
      resetSuspendedState
      startWaitingForSessionEvent id) :=
    .bind resetSuspendedState_permitted fun _ => startWaitingForSessionEvent_permitted id
  have selected : Stepless (invoke .request (Session.setCurrentThread id
      (Factory.toUInt32 threadId))) :=
    .silent (invoke_permitted (Quiet.permitted (Session.setCurrentThread_quiet id _)))
  refine .catching (.after selected
    (invoke_unstirring (Session.setCurrentThread_unstirring id _)) fun _ v hv => ?_)
    fun e => .silent (undone e)
  -- what is prepared stays so up to the step
  rw [bind_eq, wp_bind]
  refine wp_mono_val (fun _ w hw => ?_) (prepareSteppingGranularity_mode granularity hv)
  obtain ⟨hcalm, hprepared⟩ := hw
  rw [bind_eq, wp_bind]
  refine wp_mono (fun _ w hw => ?_) (fun _ _ _ => trivial) (callless_mode announced hcalm)
  subst hw
  refine op_mode (o := .store .isExecutionRunning true) rfl hcalm fun _ => ?_
  change (Prog.bind (invoke .request (kind.step id)) _).wp _ _ _ _
  rw [wp_bind, hk]
  exact wp_mono_val (fun _ w _ => (Stepless.silent waits).mode w) (resume_mode hc hcalm hprepared)

theorem handleStep_prepares {kind : StepKind} {command : Command} {message : String}
    (hk : ∀ id, kind.step id = Session.resume id command message)
    (hc : (Call.execute command).pump? = none) (request : Request ExecutionArguments) :
    Prepares (request.arguments.granularity == some .instruction) (handleStep kind request) :=
  .after (.silent (.perform trivial)) (.perform rfl) fun _ =>
    .ite (.stepless (.silent (fail_permitted request _))) <|
      .after (.silent requireDebuggerSession_permitted) requireDebuggerSession_unstirring fun id =>
        .andThen (stepTarget_prepares (hk id) hc _ _) fun _ =>
          .silent (sendResponse_permitted request _)

/-- A check of the arguments. -/
theorem check_prepares {request : Request α} {c : Prop} [Decidable c] {message : String}
    {p : Dap Unit} (h : Prepares instruction p) : Prepares instruction (do
      if ← (if c then return true else do
        fail request message
        return false : Dap Bool) then p else return) := by
  refine .after (.silent ?_) ?_ fun _ => .ite h (.stepless (.silent trivial))
  · exact .ite trivial (.bind (fail_permitted request message) fun _ => trivial)
  · exact .ite trivial (.bind (.perform rfl) fun _ => trivial)

variable {request : Request ExecutionArguments}

theorem handleNextRequest_prepares :
    Prepares (request.arguments.granularity == some .instruction) (handleNextRequest request) :=
  check_prepares (check_prepares (handleStep_prepares (fun _ => rfl) rfl request))

theorem handleStepOutRequest_prepares :
    Prepares (request.arguments.granularity == some .instruction) (handleStepOutRequest request) :=
  check_prepares (check_prepares (handleStep_prepares (fun _ => rfl) rfl request))

theorem handleStepInRequest_prepares :
    Prepares (request.arguments.granularity == some .instruction) (handleStepInRequest request) :=
  check_prepares (check_prepares (check_prepares (handleStep_prepares (fun _ => rfl) rfl request)))

variable {root : Json}

/-- The granularity that a request is decoded to. -/
theorem asksInstruction_of_decode {name : String} {dec : Decoder ExecutionArguments}
    (hdec : ∀ (j : Json) (a : ExecutionArguments), dec j = .ok a →
      Decoder.opt "granularity" Decoder.granularity j = .ok a.granularity)
    {request : Request ExecutionArguments} (h : decodeRequest name dec root = .ok request) :
    asksInstruction root = (request.arguments.granularity == some .instruction) := by
  simp only [decodeRequest, Bind.bind, Except.bind] at h
  cases hhead : Decoder.requestHead name root with
  | error what => rw [hhead] at h; cases h
  | ok head =>
    rw [hhead] at h
    dsimp only at h
    cases harguments : dec ((root.member "arguments").getD (.obj [])) with
    | error what => rw [harguments] at h; cases h
    | ok a =>
      rw [harguments] at h
      cases h
      rw [asksInstruction, hdec _ _ harguments]

theorem nextArguments_granularity (j : Json) (a : ExecutionArguments)
    (h : Decoder.nextArguments j = .ok a) :
    Decoder.opt "granularity" Decoder.granularity j = .ok a.granularity := by
  simp only [Decoder.nextArguments, Bind.bind, Except.bind] at h
  repeat' split at h
  all_goals cases h
  assumption

theorem stepInArguments_granularity (j : Json) (a : ExecutionArguments)
    (h : Decoder.stepInArguments j = .ok a) :
    Decoder.opt "granularity" Decoder.granularity j = .ok a.granularity := by
  simp only [Decoder.stepInArguments, Bind.bind, Except.bind] at h
  repeat' split at h
  all_goals cases h
  assumption

theorem run_prepares {name : String} {dec : Decoder ExecutionArguments}
    (hdec : ∀ (j : Json) (a : ExecutionArguments), dec j = .ok a →
      Decoder.opt "granularity" Decoder.granularity j = .ok a.granularity)
    {handler : Request ExecutionArguments → Dap Unit}
    (h : ∀ request, Prepares (request.arguments.granularity == some .instruction)
      (handler request)) :
    Prepares (asksInstruction root) (run (decodeRequest name dec) handler root) := by
  unfold run
  cases hd : decodeRequest name dec root with
  | error what => exact fun _ _ => trivial
  | ok request =>
    rw [asksInstruction_of_decode hdec hd]
    exact h request

/-- Only the step requests step. -/
theorem isStepRequest (h : (commandPermit (requestCommand root)).records ∧
    (commandPermit (requestCommand root)).resumes) : asksStep root = true := by
  obtain ⟨hrecords, hresumes⟩ := h
  have hrecords : requestCommand root ∈ recordingCommands := hrecords
  have hresumes : requestCommand root ∈ resumingCommands := hresumes
  simp only [recordingCommands, List.mem_cons, List.not_mem_nil, or_false] at hrecords
  rw [asksStep]
  obtain h | h | h | h := hrecords
  · simp [h]
  · simp [h]
  · simp [h]
  · rw [h] at hresumes
    exact absurd hresumes (by decide)

/-- Another request does not step. -/
theorem handleRequest_stepless (h : asksStep root = false) : Stepless (handleRequest root) := by
  refine .permitted (fun hP => ?_) handleRequest_permitted
  rw [isStepRequest hP] at h
  cases h

theorem dispatchRequest_prepares (h : asksStep root = true) :
    Prepares (asksInstruction root) (dispatchRequest root) := by
  unfold asksStep requestCommand at h
  unfold dispatchRequest
  cases hc : Decoder.valueString "command" root with
  | error what => exact fun _ _ => trivial
  | ok command =>
    rw [hc] at h
    simp only [Bool.or_eq_true, decide_eq_true_eq] at h
    obtain (rfl | rfl) | rfl := h
    · have next : Prepares (asksInstruction root)
          (run (decodeRequest "next" Decoder.nextArguments) handleNextRequest root) :=
        run_prepares nextArguments_granularity fun _ => handleNextRequest_prepares
      simpa [handlers, List.lookup_cons, on] using next
    · have stepIn : Prepares (asksInstruction root)
          (run (decodeRequest "stepIn" Decoder.stepInArguments) handleStepInRequest root) :=
        run_prepares stepInArguments_granularity fun _ => handleStepInRequest_prepares
      simpa [handlers, List.lookup_cons, on] using stepIn
    · have stepOut : Prepares (asksInstruction root)
          (run (decodeRequest "stepOut" Decoder.nextArguments) handleStepOutRequest root) :=
        run_prepares nextArguments_granularity fun _ => handleStepOutRequest_prepares
      simpa [handlers, List.lookup_cons, on] using stepOut

theorem handleRequest_prepares (h : asksStep root = true) :
    Prepares (asksInstruction root) (handleRequest root) := by
  have handled : Prepares (asksInstruction root) (handle root) := by
    unfold handle
    cases Decoder.valueString "type" root with
    | error what => exact fun _ _ => trivial
    | ok type => exact .ite (dispatchRequest_prepares h) (.stepless (.silent (.ite trivial trivial)))
  have noted : Permitted {} (modifyTables fun d => { d with currentRequestJson := root }) :=
    modifyTables_permitted fun _ hf hv => ⟨hf, hv⟩
  refine .after (.silent (.perform trivial)) (.perform rfl) fun _ =>
    .after (.silent noted) (.bind (.perform rfl) fun _ => trivial) fun _ =>
      .after (.silent (.perform trivial)) (.perform rfl) fun _ =>
        .andThen (.catching handled fun e => .silent (recover_permitted e)) fun _ => .silent ?_
  exact .bind (.perform trivial) fun _ => .bind (.perform trivial) fun _ => trivial

end Server

end

/-! ## Every run -/

namespace SteppingModes

open Server

variable {t : Tid} {j : Job} {p p' : Server × ModeLog}

/-- What the request thread knows stays so until its next step. -/
theorem stepKnows_stable {instruction : Bool} {v : StepView} (hv : StepKnows instruction v p)
    (hr : modeOutline.rely .request p p') : StepKnows instruction v p' := by
  refine ⟨hr.1.trans hv.asked, fun hcalm => ?_, fun id hid => ?_⟩
  · rw [hr.2 (hv.calm hcalm)]
    exact hv.calm hcalm
  · obtain ⟨hcalm, hmode⟩ := hv.prepared id hid
    rw [hr.2 (hv.calm hcalm)]
    exact ⟨hcalm, hmode⟩

/-- A job of the request thread. -/
theorem safe_of_mode {instruction : Bool} {v : StepView} (hv : StepKnows instruction v p)
    (hw : j.body.wp (modeSpec instruction) (fun _ _ => True) (fun _ _ => True) v)
    (ht : j.thread = .request) : modeOutline.Safe soloSystem .request j j.body p := by
  intro p' hr _
  exact wp_mono (fun _ _ _ => ht.symm) (fun _ _ _ => ht.symm)
    (wp_of_view modePre_outline (stepKnows_stable hv hr) hw)

/-- A job of another thread. -/
theorem safe_of_stepless (ht : j.thread ≠ .request) (p : Server × ModeLog) :
    modeOutline.Safe soloSystem j.thread j j.body p := by
  have stepless : Stepless j.body := by
    by_cases hc : j.thread = .callback
    · cases j with
      | callback id event threads current =>
        refine .bind (AllOps.mono (fun {β} o ho => ?_) (onCallback_forCallback event))
          fun _ => trivial
        cases o with
        | call id c =>
          cases c with
          | execute command =>
            have ho : command.isStep = false := ho
            exact if_neg (by simp [ho])
          | _ => rfl
        | _ => rfl
      | _ => cases hc
    · have hP : ¬(j.permit.records ∧ j.permit.resumes) := by
        cases j with
        | request | teardown => exact absurd rfl ht
        | _ => exact fun hP => hP.1
      exact .permitted hP (Job.body_permitted hc)
  refine Outline.safe_of_allOps (A := modeOutline) stepless (fun {β} o b p p' ho hi h => ?_)
    (fun _ _ => rfl) p
  have hnone : o.stepsIn = none := ho
  refine modeKeeps ht h.1.1.2 rfl rfl ?_ h.2 hi
  rw [ModeLog.steppedWrong, hnone]
  rfl

theorem start_valid (hi : modeOutline.Inv p) (h : soloSystem.start t j p p') :
    modeOutline.Keeps t p p' ∧ modeOutline.Safe soloSystem t j j.body p' := by
  obtain ⟨⟨⟨hs, hl⟩, hcalm⟩, hplaced⟩ := h
  have hs : startJob t j p.1 = some p'.1 := hs
  obtain rfl := startJob_thread hs
  have kept (hlabel : ModeLog.asked (.start j.thread j) p.2.instruction = p.2.instruction) :
      j.thread ≠ .request → modeOutline.Keeps j.thread p p' :=
    fun ht => modeKeeps ht hl rfl hlabel rfl hplaced hi
  have own (ht : j.thread = .request) : modeOutline.Keeps j.thread p p' := by
    have hi : p.2.wrong = false := hi
    refine ⟨?_, fun u hu => ?_⟩
    · change p'.2.wrong = false
      rw [hl, ModeLog.record, hi]
      rfl
    · cases u with
      | request => exact absurd ht.symm hu
      | _ => trivial
  have unknown : StepKnows p'.2.instruction ⟨false, none⟩ p' := ⟨rfl, nofun, nofun⟩
  cases j with
  | request root =>
    have hasked : p'.2.instruction = asksInstruction root := by rw [hl]; rfl
    refine ⟨own rfl, ?_⟩
    cases hstep : asksStep root with
    | false => exact safe_of_mode unknown ((handleRequest_stepless hstep).mode _) rfl
    | true =>
      -- the request begins alone
      have hcalm : (!asksStep root || (p.1.calm && !p.2.pumping)) = true := hcalm
      have hp : p.1.calm = true ∧ p.2.pumping = false := by simpa [hstep] using hcalm
      have hsame : p'.1 = p.1 := (Option.some.inj (Option.ite_none_right_eq_some.1 hs).2).symm
      have hpumping : p'.2.pumping = p.2.pumping := by rw [hl]; rfl
      have begins : StepKnows (asksInstruction root) ⟨true, none⟩ p' :=
        ⟨hasked, fun _ => ⟨hsame ▸ hp.1, hpumping.trans hp.2⟩, nofun⟩
      exact safe_of_mode begins (handleRequest_prepares hstep _ rfl) rfl
  | teardown =>
    have body : Stepless Job.teardown.body :=
      .permitted (P := Job.teardown.permit) (fun hP => hP.1) (Job.body_permitted (by decide))
    exact ⟨own rfl, safe_of_mode unknown (body.mode _) rfl⟩
  | _ =>
    refine ⟨kept rfl ?_, safe_of_stepless ?_ p'⟩
    all_goals nofun

theorem finish_valid {r : Except Exn Bool} (hi : modeOutline.Inv p)
    (hp : modeOutline.post t j r p) (h : soloSystem.finish t j r p p') :
    modeOutline.Keeps t p p' := by
  obtain ⟨⟨⟨-, hl⟩, -⟩, hplaced⟩ := h
  by_cases ht : t = .request
  · subst ht
    have hi : p.2.wrong = false := hi
    refine ⟨?_, fun u hu => ?_⟩
    · change p'.2.wrong = false
      rw [hl, ModeLog.record, hi]
      rfl
    · cases u with
      | request => exact absurd rfl hu
      | _ => trivial
  · exact modeKeeps ht hl rfl rfl rfl hplaced hi

theorem outline_valid (fullPath : String → String) :
    modeOutline.Valid soloSystem ({ fullPath }, {}) where
  init := rfl
  start hi h := start_valid hi h
  finish hi hp h := finish_valid hi hp h

end SteppingModes

/-- **Steps in their mode.**  In every run in which the step requests begin after the wait loops of
the earlier ones have ended, every step is made in the mode that its request asks for. -/
theorem steps_in_mode {fullPath : String → String} {ls : List Lab}
    {c : Config Tid DapOp Job Exn Bool (Server × ModeLog)}
    (hr : modeSystem.Run (.init ({ fullPath }, {})) ls c) : c.state.2.wrong = false := by
  have hsolo : soloSystem.Run (.init ({ fullPath }, {})) ls c :=
    stepPlaced_run (fun _ _ _ => rfl) rfl hr
  exact Outline.sound (SteppingModes.outline_valid fullPath) hsolo

theorem modeSystem_eq : (modeMachine.guarded beginsCalm).system = modeSystem := by
  rw [Machine.guarded_system, modeMachine, Machine.instrument_system]
  rfl

/-- A step by one instruction. -/
def instructionStep (seq : Int) : Json :=
  Schedule.message seq "next" [("threadId", .int 100), ("granularity", .str "instruction")]

/-- The target has stopped after a step, and the wait loop has not restored the mode. -/
def stepOnce : Schedule :=
  Schedule.launch ++ Schedule.serve (instructionStep 2) ++ Schedule.park ++ Schedule.report .break_

/-- The loop comes to its end before the next step. -/
def stepTwice : Schedule :=
  stepOnce ++ Schedule.leave .loop ++ Schedule.run .loop (.loopCondition 0) ++
    Schedule.run .loop .loopEnd ++ Schedule.serve (instructionStep 3)

/-- The loop restores the mode between the switch and the command of the next step. -/
def restoreBetween : Schedule :=
  stepOnce ++ [.ops .loop 3 {}] ++ Schedule.enter .request (.request (instructionStep 3)) 19 ++
    Schedule.leave .loop ++ Schedule.leave .request

/-- Two steps by one instruction each. -/
theorem instructions_stepped : ∃ (ls : List Lab)
    (c : Config Tid DapOp Job Exn Bool (Server × ModeLog)),
      modeSystem.Run (.init ({}, {})) ls c ∧ (c.state.1.engine 0).sourceStepping = false ∧
        c.state.2.wrong = false := by
  have hrun : ((modeMachine.guarded beginsCalm).exec stepTwice (.init ({}, {}))).any
      (fun c => !(c.state.1.engine 0).sourceStepping) = true := by
    decide +kernel
  obtain ⟨c, hc, ht⟩ := (Option.any_eq_true _ _).1 hrun
  obtain ⟨ls, hr⟩ := Machine.exec_run hc
  rw [modeSystem_eq] at hr
  exact ⟨ls, c, hr, by simpa using ht, @steps_in_mode id ls c hr⟩

/-- A step by one instruction may be made in source mode. -/
theorem instruction_in_sourceMode : ¬∀ (ls : List Lab)
    (c : Config Tid DapOp Job Exn Bool (Server × ModeLog)),
      (adapter.system.instrument ModeLog.record).Run (.init ({}, {})) ls c →
        c.state.2.wrong = false := by
  intro hall
  have hrun : (modeMachine.exec restoreBetween (.init ({}, {}))).any
      (fun c => c.state.2.wrong) = true := by
    decide +kernel
  obtain ⟨c, hc, ht⟩ := (Option.any_eq_true _ _).1 hrun
  obtain ⟨ls, hr⟩ := Machine.exec_run hc
  rw [modeMachine, Machine.instrument_system] at hr
  rw [hall ls c hr] at ht
  cases ht

end DapDbgeng
