/-
  The response to a request and the events of the execution it starts.

  A request that resumes the target or breaks into it answers once the engine has taken the command.
  From there to the response any stop, exit or end would come first.

  * `OrderLog`: the command served, whether it has started an execution, and whether it is answered;
  * `keepsOrder`: from where a continue begins, and when a step or a pause is not overtaken;
  * `OrderView`: what the request thread knows of itself.

  Main result: `response_first`, on every run of such steps.
-/
import DapDbgeng.Calm
import DapDbgeng.ThreadEvents

namespace DapDbgeng

open Concurrent Concurrent.Prog

/-! ## History -/

/-- The requests that start an execution and answer for it. -/
def executionCommands : List String := ["continue", "next", "stepIn", "stepOut"]

/-- The engine takes the command the request is about. -/
def DapOp.startsExecution (command : String) : ∀ {β : Type}, DapOp β → β → Bool
  | _, .call _ (.execute c), r =>
    c.resumes && r.status.toBool && executionCommands.contains command
  | _, .call _ .setInterrupt, r => r.toBool && command == "pause"
  | _, _, _ => false

def DapOp.responds : ∀ {β : Type}, DapOp β → Bool
  | _, .send (.response _) => true
  | _, _ => false

/-- The command being served, whether it has started an execution and whether it is answered, whether
a detached wait goes on, and whether a response came late: after a halt was reported, or never. -/
structure OrderLog where
  command : String := ""
  started : Bool := false
  answered : Bool := false
  pumping : Bool := false
  late : Bool := false

namespace OrderLog

/-- An execution has started, and its request has no response. -/
def owed (h : OrderLog) : Bool := h.started && !h.answered

def served : Lab → OrderLog → OrderLog
  | .start _ (.request root), h =>
    { h with command := Server.requestCommand root, started := false, answered := false }
  | .start _ .teardown, h => { h with command := "", started := false, answered := false }
  | .op .request e, h =>
    { h with
      started := h.started || e.op.startsExecution h.command e.result
      answered := h.answered || e.op.responds }
  | _, h => h

def tardy : Lab → OrderLog → Bool
  | .op _ e, h => h.owed && e.op.reportsHalt
  | .finish .request _ _, h => h.owed
  | _, _ => false

def record (l : Lab) (_ : Server) (h : OrderLog) : OrderLog :=
  { served l h with pumping := l.busy .pump h.pumping, late := h.late || tardy l h }

end OrderLog

/-- A continue request begins when the request thread is alone.  No thread is inside a call that runs
callbacks when the engine takes the command of a step or a pause, and none enters one before the
response. -/
def keepsOrder : Lab → Server × OrderLog → Bool
  | .start _ (.request root), p =>
    Server.requestCommand root != "continue" || p.1.calm && !p.2.pumping
  | .op t e, p =>
    p.2.command == "continue" ||
      (!(t == .request && e.op.startsExecution p.2.command e.result) || p.1.inCall.isNone) &&
        !(e.op.enters && p.2.owed)
  | _, _ => true

/-- The adapter with its order log. -/
def orderMachine : Machine Tid DapOp Job Exn Bool (Server × OrderLog) Answers :=
  adapter.instrument OrderLog.record

/-- The adapter with its order log, taking such steps only. -/
def orderSystem : System Tid DapOp Job Exn Bool (Server × OrderLog) :=
  (adapter.system.instrument OrderLog.record).restrict fun l p => keepsOrder l p = true

/-- The same, with what is known of the steps of all runs. -/
def placedSystem : System Tid DapOp Job Exn Bool (Server × OrderLog) :=
  orderSystem.restrict (StepPlaced OrderLog.pumping)

/-! ## The outline -/

structure OrderInv (p : Server × OrderLog) : Prop where
  late : p.2.late = false
  alone : p.2.owed = true → p.2.command = "continue" → Alone OrderLog.pumping p
  outside : p.2.owed = true → p.2.command ≠ "continue" → p.1.inCall = none

/-- Where the request thread is alone, nothing changes for it. -/
def orderOutline : Outline Tid Job Exn Bool (Server × OrderLog) where
  Inv := OrderInv
  rely
    | .request => fun p p' => (p'.2.command = p.2.command ∧ p'.2.started = p.2.started ∧
      p'.2.answered = p.2.answered) ∧ (Alone OrderLog.pumping p → p' = p)
    | _ => fun _ _ => True
  post t j _ p := t = j.thread ∧ (t = .request → p.2.owed = false)
  rely_refl t p := by cases t <;> first | exact ⟨⟨rfl, rfl, rfl⟩, fun _ => rfl⟩ | trivial
  rely_trans {t} _ _ _ h h' := by
    cases t with
    | request =>
      obtain ⟨⟨hcommand, hstarted, hanswered⟩, hsame⟩ := h
      obtain ⟨⟨hcommand', hstarted', hanswered'⟩, hsame'⟩ := h'
      refine ⟨⟨hcommand'.trans hcommand, hstarted'.trans hstarted, hanswered'.trans hanswered⟩,
        fun halone => ?_⟩
      obtain rfl := hsame halone
      exact hsame' halone
    | _ => trivial

section

variable {t : Tid} {p p' : Server × OrderLog} {l : Lab}

/-- What another thread does is no step of the request. -/
theorem OrderLog.served_of_ne {h : OrderLog} (ht : l.thread ≠ .request)
    (hj : ∀ t j, l = .start t j → t = j.thread) : OrderLog.served l h = h := by
  cases l with
  | start t j =>
    obtain rfl := hj t j rfl
    cases j with
    | request | teardown => exact absurd rfl ht
    | _ => rfl
  | op t e => cases t <;> first | rfl | exact absurd rfl ht
  | finish t j r => rfl

/-- A step of another thread that reports no halt while a response is owed. -/
theorem orderKeeps (ht : l.thread ≠ .request) (hj : ∀ t j, l = .start t j → t = j.thread)
    (hl : p'.2 = OrderLog.record l p.1 p.2) (hplaced : StepPlaced OrderLog.pumping l p)
    (htardy : p.2.owed = true → OrderLog.tardy l p.2 = false)
    (hcall : p.2.owed = true → p.2.command ≠ "continue" → p.1.inCall = none → p'.1.inCall = none)
    (hi : OrderInv p) : orderOutline.Keeps l.thread p p' := by
  have hserved := OrderLog.served_of_ne (h := p.2) ht hj
  have hcommand : p'.2.command = p.2.command := by rw [hl, OrderLog.record, hserved]
  have hstarted : p'.2.started = p.2.started := by rw [hl, OrderLog.record, hserved]
  have hanswered : p'.2.answered = p.2.answered := by rw [hl, OrderLog.record, hserved]
  have howed : p'.2.owed = p.2.owed := by rw [OrderLog.owed, hstarted, hanswered, OrderLog.owed]
  refine ⟨⟨?_, fun ho hc => ?_, fun ho hc => ?_⟩, fun u _ => ?_⟩
  · rw [hl, OrderLog.record, hi.late, Bool.false_or]
    cases ho : p.2.owed with
    | true => exact htardy ho
    | false =>
      cases l with
      | start => rfl
      | op t e => exact Bool.and_eq_false_iff.2 (.inl ho)
      | finish t j r => cases t <;> first | rfl | exact absurd rfl ht
  · rw [howed] at ho
    rw [hcommand] at hc
    exact absurd (hplaced.alone (hi.alone ho hc)) ht
  · rw [howed] at ho
    rw [hcommand] at hc
    exact hcall ho hc (hi.outside ho hc)
  · cases u with
    | request => exact ⟨⟨hcommand, hstarted, hanswered⟩, fun hp => absurd (hplaced.alone hp) ht⟩
    | _ => trivial

/-- No callback runs while a response is owed. -/
theorem not_callback (hi : OrderInv p) (ho : p.2.owed = true)
    (hplaced : StepPlaced OrderLog.pumping l p) : l.thread ≠ .callback := by
  intro ht
  by_cases hc : p.2.command = "continue"
  · cases ht.symm.trans (hplaced.alone (hi.alone ho hc))
  · have hbusy := hplaced.called ht
    rw [hi.outside ho hc] at hbusy
    cases hbusy

/-- What a permit lets a program report. -/
theorem haltless_of_allows {P : Permit} (hP : ∀ e, ¬P.reports e) {β : Type} {o : DapOp β}
    (ho : P.allows o) : o.reportsHalt = false := by
  cases o with
  | send m =>
    cases hm : m.reportsHalt with
    | false => exact hm
    | true =>
      obtain ⟨e, rfl, he⟩ := Message.reportsHalt_event hm
      exact absurd (ho he) (hP e)
  | _ => rfl

end

/-! ## The request thread -/

/-- Whether the request thread is alone, and what its log says of the request. -/
structure OrderView where
  calm : Bool
  started : Bool := false
  answered : Bool := false

namespace OrderView

def owed (v : OrderView) : Bool := v.started && !v.answered

def after (command : String) (v : OrderView) {β : Type} (o : DapOp β) (b : β) : OrderView where
  calm := v.calm && !o.stirs
  started := v.started || o.startsExecution command b
  answered := v.answered || o.responds

structure Sees (command : String) (v : OrderView) (p : Server × OrderLog) : Prop where
  command : p.2.command = command
  started : p.2.started = v.started
  answered : p.2.answered = v.answered
  calm : v.calm = true → Alone OrderLog.pumping p

end OrderView

/-- While a response is owed no halt is reported, and a continue leaves the request thread alone. -/
def orderPre (command : String) {β : Type} (o : DapOp β) (K : β → OrderView → Prop)
    (v : OrderView) : Prop :=
  (v.owed = true → o.reportsHalt = false) ∧ ∀ b,
    (command = "continue" → (v.after command o b).owed = true →
      (v.after command o b).calm = true) ∧ K b (v.after command o b)

def orderSpec (command : String) : Spec DapOp OrderView where
  pre := orderPre command
  mono _ _ _ hK _ h := ⟨h.1, fun b => ⟨(h.2 b).1, hK b _ (h.2 b).2⟩⟩

theorem startsExecution_enters {command : String} {β : Type} {o : DapOp β} {b : β}
    (h : o.startsExecution command b = true) : o.enters = false := by
  cases o with
  | enter => cases h
  | _ => rfl

/-- What the request thread knows of itself holds under the outline. -/
theorem orderPre_outline {command : String} {β : Type} (o : DapOp β)
    {K : β → OrderView → Prop} {v : OrderView} {p : Server × OrderLog} (hv : v.Sees command p)
    (hw : (orderSpec command).pre o K v) : (orderOutline.spec placedSystem .request).pre o
      (fun b p' => ∃ v', OrderView.Sees command v' p' ∧ K b v') p := by
  intro b p' hi h
  obtain ⟨hhalt, hK⟩ := hw
  obtain ⟨htended, hK⟩ := hK b
  obtain ⟨⟨⟨hs, hl⟩, hk⟩, -⟩ := h
  have hs : sem .request β o p.1 b p'.1 := hs
  have hl : p'.2 = OrderLog.record (.op .request ⟨o, b⟩) p.1 p.2 := hl
  have howed : p.2.owed = v.owed := by
    rw [OrderLog.owed, hv.started, hv.answered, OrderView.owed]
  have sees : OrderView.Sees command (v.after command o b) p' := by
    refine ⟨by rw [hl]; exact hv.command, ?_, ?_, fun hcalm => ?_⟩
    · rw [hl]
      change (p.2.started || o.startsExecution p.2.command b) = _
      rw [hv.started, hv.command]
      rfl
    · rw [hl]
      change (p.2.answered || o.responds) = _
      rw [hv.answered]
      rfl
    · obtain ⟨hcalm, hstirs⟩ := Bool.and_eq_true_iff.1 hcalm
      obtain ⟨hc, hp⟩ := hv.calm hcalm
      refine ⟨sem_calm hs (by simpa using hstirs) hc, ?_⟩
      rw [hl]
      exact hp
  have howed' : p'.2.owed = (v.after command o b).owed := by
    rw [OrderLog.owed, sees.started, sees.answered, OrderView.owed]
  refine ⟨⟨⟨?_, fun ho hc => ?_, fun ho hc => ?_⟩, fun u hu => ?_⟩, fun p'' hr _ => ?_⟩
  · rw [hl, OrderLog.record, hi.late, Bool.false_or, OrderLog.tardy, howed]
    cases ho : v.owed with
    | false => rfl
    | true => exact hhalt ho
  · rw [sees.command] at hc
    rw [howed'] at ho
    exact sees.calm (htended hc ho)
  · -- the call in which the engine runs callbacks is none of this thread's operations
    have hcommand : p.2.command ≠ "continue" := by
      rw [hv.command, ← sees.command]
      exact hc
    have hk : (p.2.command == "continue" ||
        (!(Tid.request == .request && o.startsExecution p.2.command b) || p.1.inCall.isNone) &&
          !(o.enters && p.2.owed)) = true := hk
    simp only [beq_eq_false_iff_ne.2 hcommand, Bool.false_or, Bool.and_eq_true, Bool.or_eq_true,
      Bool.not_eq_true', beq_self_eq_true, Bool.true_and, Option.isNone_iff_eq_none,
      Bool.and_eq_false_iff] at hk
    rw [howed'] at ho
    obtain ⟨hstarted, hanswered⟩ := Bool.and_eq_true_iff.1 ho
    cases hbefore : p.2.owed with
    | true =>
      have henters : o.enters = false := hk.2.resolve_right (by rw [hbefore]; nofun)
      exact sem_outside hs henters (hi.outside hbefore hcommand)
    | false =>
      have hstarts : o.startsExecution p.2.command b = true := by
        have hno : v.answered = false := by
          cases hva : v.answered with
          | false => rfl
          | true => simp [OrderView.after, hva] at hanswered
        rw [howed, OrderView.owed, hno] at hbefore
        have hnew : v.started = false := by simpa using hbefore
        rw [hv.command]
        simpa [OrderView.after, hnew] using hstarted
      have hnone : p.1.inCall = none := hk.1.resolve_left (by rw [hstarts]; nofun)
      exact sem_outside hs (startsExecution_enters hstarts) hnone
  · cases u with
    | request => exact absurd rfl hu
    | _ => trivial
  · obtain ⟨⟨hcommand, hstarted, hanswered⟩, hsame⟩ := hr
    refine ⟨_, ⟨hcommand.trans sees.command, hstarted.trans sees.started,
      hanswered.trans sees.answered, fun hcalm => ?_⟩, hK⟩
    rw [hsame (sees.calm hcalm)]
    exact sees.calm hcalm

section

variable {command : String} {α : Type} {id : SessionId} {v : OrderView}

def DapOp.startless (command : String) {β : Type} (o : DapOp β) : Prop :=
  ∀ b, o.startsExecution command b = false

/-- Whatever is owed stays so, and a continue leaves the request thread alone. -/
def DapOp.harmless (command : String) {β : Type} (o : DapOp β) : Prop :=
  o.startless command ∧ o.reportsHalt = false ∧ (command = "continue" → o.stirs = false)

/-- Where the request thread may start its execution. -/
structure OrderView.Ready (command : String) (v : OrderView) : Prop where
  owed : v.owed = false
  calm : command = "continue" → v.calm = true

theorem OrderView.after_owed {β : Type} {o : DapOp β} {b : β}
    (ho : o.startsExecution command b = false) (h : v.owed = false) :
    (v.after command o b).owed = false := by
  obtain ⟨calm, started, answered⟩ := v
  cases started with
  | false => simp [OrderView.owed, OrderView.after, ho]
  | true =>
    obtain rfl : answered = true := by simpa [OrderView.owed] using h
    simp [OrderView.owed, OrderView.after]

/-- Begun where it may start an execution, `p` owes no response where it ends. -/
def Prompt (command : String) (p : Dap α) : Prop :=
  ∀ v : OrderView, v.Ready command →
    p.wp (orderSpec command) (fun _ w => w.owed = false) (fun _ w => w.owed = false) v

theorem orderPre_of_startless {β : Type} {o : DapOp β} (ho : o.startless command)
    (hv : v.owed = false) {K : β → OrderView → Prop} (hK : ∀ b, K b (v.after command o b)) :
    (orderSpec command).pre o K v := by
  refine ⟨fun h => ?_, fun b => ⟨fun _ h => ?_, hK b⟩⟩
  · rw [hv] at h
    cases h
  · rw [OrderView.after_owed (ho b) hv] at h
    cases h

theorem startless_order {p : Dap α} (h : AllOps (DapOp.startless command) p)
    (hv : v.owed = false) : p.wp (orderSpec command) (fun _ w => w.owed = false)
      (fun _ w => w.owed = false) v :=
  wp_of_allOps (I := fun w : OrderView => w.owed = false)
    (fun _ ho _ hw => orderPre_of_startless ho hw fun b => OrderView.after_owed (ho b) hw) h hv

theorem OrderView.after_ready {β : Type} {o : DapOp β} (ho : o.startless command)
    (hs : o.stirs = false) (hv : v.Ready command) (b : β) : (v.after command o b).Ready command := by
  refine ⟨OrderView.after_owed (ho b) hv.owed, fun hc => ?_⟩
  rw [OrderView.after, hv.calm hc, hs]
  rfl

theorem op_ready {β : Type} {o : DapOp β} (ho : o.startless command) (hs : o.stirs = false)
    {k : β → Dap α} {Q : α → OrderView → Prop} {E : Exn → OrderView → Prop}
    (hv : v.Ready command)
    (h : ∀ b (w : OrderView), w.Ready command → (k b).wp (orderSpec command) Q E w) :
    (Prog.op o k).wp (orderSpec command) Q E v :=
  orderPre_of_startless ho hv.owed fun b => h b _ (OrderView.after_ready ho hs hv b)

theorem startless_ready {p : Dap α} (h : AllOps (DapOp.startless command) p) (hp : Unstirring p)
    (hv : v.Ready command) : p.wp (orderSpec command) (fun _ w => w.Ready command)
      (fun _ w => w.owed = false) v := by
  have kept : p.wp (orderSpec command) (fun _ w => w.Ready command)
      (fun _ w => w.Ready command) v := by
    refine wp_of_allOps (I := fun w : OrderView => w.Ready command) (fun {β} o ho w hw => ?_)
      (h.and hp) hv
    exact orderPre_of_startless ho.1 hw.owed (OrderView.after_ready ho.1 ho.2 hw)
  exact wp_mono (fun _ _ hw => hw) (fun _ _ hw => hw.owed) kept

/-- A program that throws nothing, while a response is owed. -/
theorem harmless_order {p : Dap α} (hmute : Mute p) (h : AllOps (DapOp.harmless command) p)
    (hv : command = "continue" → v.calm = true) :
    p.wp (orderSpec command) (fun _ w => (w.owed = true → v.owed = true) ∧
      (command = "continue" → w.calm = true)) (fun _ _ => False) v := by
  have throwless (log : List Response) : p.wp logSpec (fun _ _ => True) (fun _ _ => False) log :=
    wp_mono (fun _ _ _ => trivial) (fun _ _ h => h.2) (hmute log)
  suffices go : ∀ (log : List Response) (w : OrderView),
      p.wp logSpec (fun _ _ => True) (fun _ _ => False) log → (w.owed = true → v.owed = true) →
        (command = "continue" → w.calm = true) → p.wp (orderSpec command)
          (fun _ w => (w.owed = true → v.owed = true) ∧ (command = "continue" → w.calm = true))
          (fun _ _ => False) w from go [] v (throwless []) (fun ho => ho) hv
  clear hmute throwless
  induction p with
  | ret a => exact fun _ w _ ho hc => ⟨ho, hc⟩
  | throw e => exact fun _ _ h _ _ => h
  | op o k ih =>
    intro log w hlog ho hc
    obtain ⟨hstart, hhalt, hstirs⟩ := h.1
    have hcalm (b) : command = "continue" → (w.after command o b).calm = true := by
      intro h
      rw [OrderView.after, hc h, hstirs h]
      rfl
    refine ⟨fun _ => hhalt, fun b => ⟨fun h _ => hcalm b h, ?_⟩⟩
    refine ih b (h.2 b) _ _ ((logSpec_pre o _ log).1 hlog b) (fun howed => ?_) (hcalm b)
    by_contra hno
    have hw : w.owed = false := Bool.eq_false_of_not_eq_true fun h => hno (ho h)
    rw [OrderView.after_owed (hstart b) hw] at howed
    cases howed

/-- Once the response is sent nothing is owed. -/
theorem answered_order {p : Dap α} (hv : v.answered = true) : p.wp (orderSpec command)
    (fun _ w => w.owed = false) (fun _ w => w.owed = false) v := by
  have unowed {w : OrderView} (hw : w.answered = true) : w.owed = false := by
    rw [OrderView.owed, hw]
    exact Bool.and_false _
  refine wp_mono (fun _ _ hw => unowed hw) (fun _ _ hw => unowed hw)
    (wp_of_allOps (I := fun w : OrderView => w.answered = true)
      (P := fun _ => True) (fun {β} o _ w hw => ?_) (AllOps.of_forall (fun _ => trivial) p) hv)
  have kept (b : β) : (w.after command o b).answered = true := by
    rw [OrderView.after, hw]
    rfl
  refine ⟨fun h => ?_, fun b => ⟨fun _ h => ?_, kept b⟩⟩
  · rw [unowed hw] at h
    cases h
  · rw [unowed (kept b)] at h
    cases h

/-- The response, and what is left of the handler. -/
theorem response_order {β : Type} (request : Request α) (body : Body) {k : Unit → Dap β} :
    ((Server.sendResponse request body).bind k).wp (orderSpec command)
      (fun _ w => w.owed = false) (fun _ w => w.owed = false) v := by
  refine ⟨fun _ => rfl, fun b => ⟨fun _ h => ?_, answered_order ?_⟩⟩
  · simp [OrderView.owed, OrderView.after, DapOp.responds] at h
  · simp [OrderView.after, DapOp.responds]

/-- A quiet program starts no execution by a command. -/
theorem Quiet.startless (hc : command ≠ "pause") {p : Dap α} (h : Quiet p) :
    AllOps (DapOp.startless command) p := by
  refine h.mono fun {β} o ho b => ?_
  cases o with
  | call id c =>
    cases c with
    | execute c =>
      have ho : c.resumes = false := ho
      simp [DapOp.startsExecution, ho]
    | setInterrupt => simp [DapOp.startsExecution, hc]
    | _ => rfl
  | _ => rfl

/-! ### Resuming -/

namespace Session

theorem throwIfDisposed_order {Q : Unit → OrderView → Prop} (hv : v.Ready command)
    (hQ : ∀ w : OrderView, w.Ready command → Q () w) :
    (throwIfDisposed id).wp (orderSpec command) Q (fun _ w => w.owed = false) v := by
  refine op_ready (o := .readSession id) (fun _ => rfl) rfl hv fun x w hw => ?_
  change (if x.disposed = true then _ else _ : Dap Unit).wp _ _ _ _
  split
  · exact hw.owed
  · exact hQ w hw

/-- An execution is started, or nothing is owed. -/
theorem resume_order {c : Command} {message : String} (hc : (Call.execute c).pump? = none)
    (hv : v.Ready command) : (resume id c message).wp (orderSpec command)
      (fun _ w => command = "continue" → w.calm = true) (fun _ w => w.owed = false) v := by
  have output (text : String) : Mute (handleOutputReceived id text) ∧
      AllOps (DapOp.harmless command) (handleOutputReceived id text) := by
    refine ⟨.bind (.perform rfl) fun _ => .bind (.perform rfl) fun _ =>
      .ite (.ite (.ret _) (.perform rfl)) (.ret _), ?_⟩
    exact .bind (.perform ⟨fun _ => rfl, rfl, fun _ => rfl⟩) fun _ =>
      .bind (.perform ⟨fun _ => rfl, rfl, fun _ => rfl⟩) fun _ =>
        .ite (.ite trivial (.perform ⟨fun _ => rfl, rfl, fun _ => rfl⟩)) trivial
  rw [resume]
  refine op_ready (o := .updateSession id (.lastException none)) (fun _ => rfl) rfl hv
    fun _ w hw => ?_
  dsimp only [ret_bind]
  rw [executeDebuggerCommand, bind_eq, wp_bind]
  refine throwIfDisposed_order hw fun w hw => ?_
  rw [execute, hc]
  simp only [Option.isSome_none, Bool.false_eq_true, if_false, bind_eq, wp_bind]
  have calm (r : ExecuteResult) (h : command = "continue") :
      (w.after command (.call id (.execute c)) r).calm = true := by
    rw [OrderView.after, hw.calm h]
    rfl
  refine ⟨fun h => ?_, fun r => ⟨fun h _ => calm r h, ?_⟩⟩
  · rw [hw.owed] at h
    cases h
  · dsimp only [wp_ret]
    refine wp_mono (fun _ w' hw' => ?_) (fun _ _ h => h.elim)
      (harmless_order (.forEach (fun text => (output text).1) _)
        (.forEach (fun text => (output text).2) _) (calm r))
    rw [pure_eq, wp_ret]
    cases hstatus : r.status with
    | ok u => exact hw'.2
    | error hr =>
      -- the engine has refused the command
      have hno : DapOp.startsExecution command (.call id (.execute c)) r = false := by
        simp [DapOp.startsExecution, hstatus, Except.toBool]
      have refused := OrderView.after_owed hno hw.owed
      refine Bool.eq_false_of_not_eq_true fun h => ?_
      have howed := hw'.1 h
      rw [refused] at howed
      cases howed

end Session

namespace Server

theorem resumed_order {c : Command} {message : String} (hc : (Call.execute c).pump? = none)
    (hv : v.Ready command) : (invoke .request (Session.resume id c message)).wp
      (orderSpec command) (fun _ w => command = "continue" → w.calm = true)
      (fun _ w => w.owed = false) v := by
  refine op_ready (o := .enqueue) (fun _ => rfl) rfl hv fun _ w hw => ?_
  refine op_ready (o := .acquire) (fun _ => rfl) rfl hw fun _ w hw => ?_
  change (Prog.bind (Session.resume id c message).attempt _).wp _ _ _ _
  rw [wp_bind, wp_attempt]
  refine wp_mono (fun _ w hw => ?_) (fun e w hw => ?_) (Session.resume_order hc hw)
  · have calm (h : command = "continue") : (w.after command .release ()).calm = true := by
      rw [OrderView.after, hw h]
      rfl
    exact ⟨fun _ => rfl, fun _ => ⟨fun h _ => calm h, calm⟩⟩
  · exact orderPre_of_startless (fun _ => rfl) hw fun b =>
      OrderView.after_owed (o := .release) (b := b) rfl hw

end Server

end

/-! ### The handlers -/

section

variable {command : String} {α β : Type} {v : OrderView}

namespace Prompt

theorem startless {p : Dap α} (h : AllOps (DapOp.startless command) p) : Prompt command p :=
  fun _ hv => startless_order h hv.owed

/-- Before the execution starts. -/
theorem after {p : Dap α} {f : α → Dap β} (hp : AllOps (DapOp.startless command) p)
    (hp' : Unstirring p) (hf : ∀ a, Prompt command (f a)) : Prompt command (p.bind f) := by
  intro v hv
  rw [wp_bind]
  exact wp_mono_val (fun a w hw => hf a w hw) (startless_ready hp hp' hv)

theorem ite {c : Prop} [Decidable c] {p q : Dap α} (hp : Prompt command p)
    (hq : Prompt command q) : Prompt command (if c then p else q) := by
  split
  · exact hp
  · exact hq

end Prompt

/-- Where nothing is owed, and nothing is started. -/
theorem startless_then {p : Dap α} {f : α → Dap β} {Q : β → OrderView → Prop}
    (hp : AllOps (DapOp.startless command) p) (hv : v.owed = false)
    (hf : ∀ a (w : OrderView), w.owed = false →
      (f a).wp (orderSpec command) Q (fun _ w => w.owed = false) w) :
    (p.bind f).wp (orderSpec command) Q (fun _ w => w.owed = false) v := by
  rw [wp_bind]
  exact wp_mono_val hf (startless_order hp hv)

/-- What a failure leaves undone is undone before anything is owed. -/
theorem catching_order {p : Dap α} {undo : Exn → Dap α} {Q : α → OrderView → Prop}
    (hp : p.wp (orderSpec command) Q (fun _ w => w.owed = false) v)
    (hundo : ∀ e (w : OrderView), w.owed = false →
      (undo e).wp (orderSpec command) Q (fun _ w => w.owed = false) w) :
    (p.catching undo).wp (orderSpec command) Q (fun _ w => w.owed = false) v := by
  rw [wp_catching]
  exact wp_mono (fun _ _ hw => hw) hundo hp

end

namespace Server

section

variable {command : String} {α : Type} {id : SessionId} {v : OrderView}

theorem invoked_startless (hc : command ≠ "pause") {p : Dap α} (h : Quiet p) :
    AllOps (DapOp.startless command) (invoke .request p) := Quiet.startless hc (invoke_quiet h)

theorem store_startless (f : Flag) (b : Bool) : AllOps (DapOp.startless command) (store f b) :=
  .perform fun _ => rfl

theorem resetSuspendedState_startless : AllOps (DapOp.startless command) resetSuspendedState :=
  .bind (.perform fun _ => rfl) fun _ => .perform fun _ => rfl

/-- The target runs, and the request thread is still alone. -/
theorem continueTarget_order (threadId : Int) (hv : v.Ready "continue") :
    (continueTarget id threadId).wp (orderSpec "continue") (fun _ w => w.calm = true)
      (fun _ w => w.owed = false) v := by
  have suspended : AllOps (DapOp.harmless "continue") resetSuspendedState :=
    .bind (.perform ⟨fun _ => rfl, rfl, fun _ => rfl⟩) fun _ =>
      .perform ⟨fun _ => rfl, rfl, fun _ => rfl⟩
  refine catching_order ?_ fun e w hw => startless_then (store_startless _ _) hw fun _ _ hw => hw
  rw [bind_eq, wp_bind]
  refine wp_mono_val (fun _ w hw => ?_) (startless_ready
    (invoked_startless (by decide) (Session.setCurrentThread_quiet id _))
    (invoke_unstirring (Session.setCurrentThread_unstirring id _)) hv)
  refine op_ready (o := .store .isExecutionRunning true) (fun _ => rfl) rfl hw fun _ w hw => ?_
  change (Prog.bind (invoke .request (Session.continue_ id)) _).wp _ _ _ _
  rw [wp_bind]
  refine wp_mono_val (fun _ w hw => ?_) (resumed_order rfl hw)
  exact wp_mono (fun _ _ h => h.2 rfl) (fun _ _ h => h.elim)
    (harmless_order resetSuspendedState_mute suspended hw)

/-- The wait loop is started while a step or a pause is owed its response. -/
theorem startWaitingForSessionEvent_order (hc : command ≠ "continue") :
    (startWaitingForSessionEvent id).wp (orderSpec command) (fun _ _ => True)
      (fun _ w => w.owed = false) v := by
  have op {β : Type} {o : DapOp β} (ho : o.startless command) (hh : o.reportsHalt = false) :
      AllOps (DapOp.harmless command) (Prog.perform o : Dap β) :=
    .perform ⟨ho, hh, fun h => absurd h hc⟩
  have start : AllOps (DapOp.harmless command) (do
      store .sessionStopOrExitObserved false
      store .waitLoopActive true
      Prog.perform (.spawnLoop id)
      Prog.perform .unlockGate : Dap Unit) :=
    .bind (op (fun _ => rfl) rfl) fun _ => .bind (op (fun _ => rfl) rfl) fun _ =>
      .bind (op (fun _ => rfl) rfl) fun _ => op (fun _ => rfl) rfl
  have whole : AllOps (DapOp.harmless command) (startWaitingForSessionEvent id) :=
    .bind (op (fun _ => rfl) rfl) fun _ => .bind (op (fun _ => rfl) rfl) fun _ =>
      .ite (op (fun _ => rfl) rfl) (.bind (op (fun _ => rfl) rfl) fun _ =>
        .ite (.bind (op (fun _ => rfl) rfl) fun _ => start) start)
  exact wp_mono (fun _ _ _ => trivial) (fun _ _ h => h.elim)
    (harmless_order (startWaitingForSessionEvent_mute id) whole fun h => absurd h hc)

theorem stepTarget_order {kind : StepKind} {c : Command} {message : String}
    (hk : kind.step id = Session.resume id c message)
    (hc : (Call.execute c).pump? = none) (hpause : command ≠ "pause")
    (hcontinue : command ≠ "continue") (threadId : Int)
    (granularity : Option SteppingGranularity) (hv : v.owed = false) :
    (stepTarget kind id threadId granularity).wp (orderSpec command) (fun _ _ => True)
      (fun _ w => w.owed = false) v := by
  have prepared : AllOps (DapOp.startless command) (prepareSteppingGranularity id granularity) :=
    .ite (.bind (invoked_startless hpause (Session.enableInstructionStepping_quiet id)) fun _ =>
        store_startless _ _)
      (.bind (invoked_startless hpause (Session.enableSourceLineStepping_quiet id)) fun _ =>
        store_startless _ _)
  have restored : AllOps (DapOp.startless command)
      (restoreSourceLineSteppingIfNeeded .request id) :=
    .bind (.perform fun _ => rfl) fun _ => .ite (.bind (.catching
      (invoked_startless hpause (Session.enableSourceLineStepping_quiet id)) fun _ => trivial)
        fun _ => store_startless _ _) trivial
  refine catching_order ?_ fun e w hw => startless_then (store_startless _ _) hw fun _ _ hw =>
    startless_then (.perform fun _ => rfl) hw fun _ _ hw => startless_then restored hw
      fun _ _ hw => hw
  refine startless_then (invoked_startless hpause (Session.setCurrentThread_quiet id _)) hv
    fun _ _ hw => startless_then prepared hw fun _ _ hw =>
      startless_then (.perform fun _ => rfl) hw fun _ _ hw =>
        startless_then (store_startless _ _) hw fun _ w hw => ?_
  rw [bind_eq, wp_bind, hk]
  refine wp_mono_val (fun _ w _ => ?_) (resumed_order hc ⟨hw, fun h => absurd h hcontinue⟩)
  have suspended : AllOps (DapOp.harmless command) resetSuspendedState :=
    .bind (.perform ⟨fun _ => rfl, rfl, fun _ => rfl⟩) fun _ =>
      .perform ⟨fun _ => rfl, rfl, fun _ => rfl⟩
  rw [bind_eq, wp_bind]
  exact wp_mono (fun _ _ _ => startWaitingForSessionEvent_order hcontinue) (fun _ _ h => h.elim)
    (harmless_order resetSuspendedState_mute suspended fun h => absurd h hcontinue)

theorem interrupt_order (hv : v.owed = false) : (Session.interrupt id).wp (orderSpec "pause")
    (fun _ _ => True) (fun _ w => w.owed = false) v := by
  have ready : v.Ready "pause" := ⟨hv, fun h => absurd h (by decide)⟩
  rw [Session.interrupt, bind_eq, wp_bind]
  refine Session.throwIfDisposed_order ready fun w hw => ?_
  refine ⟨fun h => ?_, fun r => ⟨fun h => absurd h (by decide), ?_⟩⟩
  · rw [hw.owed] at h
    cases h
  · cases r with
    | ok u => trivial
    | error hr => exact OrderView.after_owed (o := .call id .setInterrupt) (b := .error hr) rfl hw.owed

theorem pauseTarget_order (hv : v.owed = false) : (pauseTarget id).wp (orderSpec "pause")
    (fun _ _ => True) (fun _ w => w.owed = false) v := by
  refine catching_order ?_ fun e w hw => startless_then (.perform fun _ => rfl) hw fun _ _ hw => hw
  refine startless_then resetSuspendedState_startless hv fun _ _ hw =>
    startless_then (.perform fun _ => rfl) hw fun _ w hw => ?_
  rw [bind_eq, wp_bind]
  exact wp_mono_val (fun _ _ _ => startWaitingForSessionEvent_order (by decide))
    (interrupt_order hw)

/-! ### Requests -/

/-- A check of the arguments. -/
theorem check_prompt {request : Request α} {c : Prop} [Decidable c] {message : String}
    {p : Dap Unit} (h : Prompt command p) : Prompt command (do
      if ← (if c then return true else do
        fail request message
        return false : Dap Bool) then p else return) := by
  refine .after ?_ ?_ fun _ => .ite h (.startless trivial)
  · exact .ite trivial (.bind (.perform fun _ => rfl) fun _ => trivial)
  · exact .ite trivial (.bind (.perform rfl) fun _ => trivial)

theorem requireDebuggerSession_startless :
    AllOps (DapOp.startless command) requireDebuggerSession := by
  refine .bind (.perform fun _ => rfl) fun session => ?_
  cases session <;> trivial

/-- The work of a handler, and then its response. -/
theorem answered_prompt {request : Request α} {body : Body} {p : Dap Unit} {k : Unit → Dap Unit}
    (h : ∀ v : OrderView, v.Ready command → p.wp (orderSpec command) (fun _ _ => True)
      (fun _ w => w.owed = false) v) :
    Prompt command (p.bind fun _ => (sendResponse request body).bind k) := by
  intro v hv
  rw [wp_bind]
  exact wp_mono_val (fun _ _ _ => response_order request body) (h v hv)

theorem handleContinueRequest_prompt (request : Request ExecutionArguments) :
    Prompt "continue" (handleContinueRequest request) := by
  refine check_prompt (check_prompt ?_)
  refine .after (.perform fun _ => rfl) (.perform rfl) fun _ =>
    .ite (.startless (.perform fun _ => rfl)) <|
      .after requireDebuggerSession_startless requireDebuggerSession_unstirring fun id => ?_
  exact answered_prompt fun v hv => wp_mono_val (fun _ _ _ => trivial) (continueTarget_order _ hv)

theorem handleStep_prompt {kind : StepKind} {c : Command} {message : String}
    (hk : ∀ id, kind.step id = Session.resume id c message)
    (hc : (Call.execute c).pump? = none) (hpause : command ≠ "pause")
    (hcontinue : command ≠ "continue") (request : Request ExecutionArguments) :
    Prompt command (handleStep kind request) := by
  refine .after (.perform fun _ => rfl) (.perform rfl) fun _ =>
    .ite (.startless (.perform fun _ => rfl)) <|
      .after requireDebuggerSession_startless requireDebuggerSession_unstirring fun id => ?_
  exact answered_prompt (k := .ret) fun v hv =>
    stepTarget_order (hk id) hc hpause hcontinue _ _ hv.owed

theorem handleNextRequest_prompt (request : Request ExecutionArguments) :
    Prompt "next" (handleNextRequest request) :=
  check_prompt (check_prompt
    (handleStep_prompt (fun _ => rfl) rfl (by decide) (by decide) request))

theorem handleStepOutRequest_prompt (request : Request ExecutionArguments) :
    Prompt "stepOut" (handleStepOutRequest request) :=
  check_prompt (check_prompt
    (handleStep_prompt (fun _ => rfl) rfl (by decide) (by decide) request))

theorem handleStepInRequest_prompt (request : Request ExecutionArguments) :
    Prompt "stepIn" (handleStepInRequest request) :=
  check_prompt (check_prompt (check_prompt
    (handleStep_prompt (fun _ => rfl) rfl (by decide) (by decide) request)))

theorem handlePauseRequest_prompt (request : Request ThreadArguments) :
    Prompt "pause" (handlePauseRequest request) := by
  refine check_prompt ?_
  refine .after (.perform fun _ => rfl) (.perform rfl) fun _ =>
    .ite (.after requireDebuggerSession_startless requireDebuggerSession_unstirring fun id => ?_)
      (.startless (.perform fun _ => rfl))
  exact answered_prompt (k := .ret) fun v hv => pauseTarget_order hv.owed

theorem run_prompt {δ : Type} {decode : Json → Except String (Request δ)}
    {handler : Request δ → Dap Unit} (h : ∀ request, Prompt command (handler request))
    (root : Json) : Prompt command (run decode handler root) := by
  unfold run
  cases decode root with
  | error what => exact fun _ hv => hv.owed
  | ok request => exact h request

/-- Another request starts no execution. -/
theorem startless_of_other (h : command ∉ "pause" :: executionCommands) (p : Dap α) :
    AllOps (DapOp.startless command) p := by
  refine AllOps.of_forall (fun {β} o b => ?_) p
  rw [List.mem_cons, not_or, ← List.contains_iff_mem] at h
  cases o with
  | call id c =>
    cases c with
    | execute c =>
      have hno : executionCommands.contains command = false := Bool.eq_false_of_not_eq_true h.2
      rw [DapOp.startsExecution, hno, Bool.and_false]
    | setInterrupt => simp [DapOp.startsExecution, h.1]
    | _ => rfl
  | _ => rfl

variable {root : Json}

theorem dispatchRequest_prompt : Prompt (requestCommand root) (dispatchRequest root) := by
  by_cases hother : requestCommand root ∉ "pause" :: executionCommands
  · exact .startless (startless_of_other hother _)
  · rw [not_not] at hother
    unfold requestCommand at hother ⊢
    unfold dispatchRequest
    cases hc : Decoder.valueString "command" root with
    | error what => exact fun _ hv => hv.owed
    | ok command =>
      rw [hc] at hother
      simp only [executionCommands, List.mem_cons, List.not_mem_nil, or_false] at hother
      obtain rfl | rfl | rfl | rfl | rfl := hother
      · have pause : Prompt "pause"
            (run (decodeRequest "pause" Decoder.threadArguments) handlePauseRequest root) :=
          run_prompt handlePauseRequest_prompt root
        simpa [handlers, List.lookup_cons, on] using pause
      · have resume : Prompt "continue"
            (run (decodeRequest "continue" Decoder.continueArguments) handleContinueRequest root) :=
          run_prompt handleContinueRequest_prompt root
        simpa [handlers, List.lookup_cons, on] using resume
      · have next : Prompt "next"
            (run (decodeRequest "next" Decoder.nextArguments) handleNextRequest root) :=
          run_prompt handleNextRequest_prompt root
        simpa [handlers, List.lookup_cons, on] using next
      · have stepIn : Prompt "stepIn"
            (run (decodeRequest "stepIn" Decoder.stepInArguments) handleStepInRequest root) :=
          run_prompt handleStepInRequest_prompt root
        simpa [handlers, List.lookup_cons, on] using stepIn
      · have stepOut : Prompt "stepOut"
            (run (decodeRequest "stepOut" Decoder.nextArguments) handleStepOutRequest root) :=
          run_prompt handleStepOutRequest_prompt root
        simpa [handlers, List.lookup_cons, on] using stepOut

theorem handleRequest_prompt : Prompt (requestCommand root) (handleRequest root) := by
  have handled : Prompt (requestCommand root) (handle root) := by
    unfold handle
    cases Decoder.valueString "type" root with
    | error what => exact fun _ hv => hv.owed
    | ok type => exact .ite dispatchRequest_prompt (.startless (.ite trivial trivial))
  have recovered (e : Exn) : AllOps (DapOp.startless (requestCommand root)) (recover root e) := by
    have report (e : Exn) :
        AllOps (DapOp.startless (requestCommand root)) (reportFailure root e) := by
      unfold reportFailure
      split
      · exact .ite trivial (.perform fun _ => rfl)
      · trivial
    cases e with
    | unhandledRequest seq command => exact .perform fun _ => rfl
    | _ => exact report _
  refine .after (store_startless _ _) (.perform rfl) fun _ =>
    .after (.bind (.perform fun _ => rfl) fun _ => trivial) (.bind (.perform rfl) fun _ => trivial)
      fun _ => .after (store_startless _ _) (.perform rfl) fun _ v hv => ?_
  rw [bind_eq, wp_bind]
  refine wp_mono_val (fun _ w hw => startless_order ?_ hw)
    (catching_order (handled v hv) fun e w hw => startless_order (recovered e) hw)
  exact .bind (.perform fun _ => rfl) fun _ => .bind (.perform fun _ => rfl) fun _ => trivial

end

end Server

/-! ## Every run -/

namespace ResponseOrder

open Server

variable {t : Tid} {j : Job} {p p' : Server × OrderLog}

/-- A job of the request thread. -/
theorem safe_of_prompt {command : String} {v : OrderView} (hv : v.Sees command p)
    (hw : j.body.wp (orderSpec command) (fun _ w => w.owed = false) (fun _ w => w.owed = false) v)
    (ht : j.thread = .request) : orderOutline.Safe placedSystem .request j j.body p := by
  intro p' hr _
  obtain ⟨⟨hcommand, hstarted, hanswered⟩, hsame⟩ := hr
  have hv' : v.Sees command p' := by
    refine ⟨hcommand.trans hv.command, hstarted.trans hv.started, hanswered.trans hv.answered,
      fun hcalm => ?_⟩
    rw [hsame (hv.calm hcalm)]
    exact hv.calm hcalm
  have unowed {w : OrderView} {q : Server × OrderLog} (hw : w.Sees command q)
      (ho : w.owed = false) : q.2.owed = false := by
    rw [OrderLog.owed, hw.started, hw.answered]
    exact ho
  exact wp_mono (fun _ _ ⟨_, hw, ho⟩ => ⟨ht.symm, fun _ => unowed hw ho⟩)
    (fun _ _ ⟨_, hw, ho⟩ => ⟨ht.symm, fun _ => unowed hw ho⟩)
    (wp_of_view orderPre_outline hv' hw)

/-- An operation of another thread. -/
theorem op_keeps {β : Type} {o : DapOp β} {b : β} (ht : t ≠ .request)
    (ho : t = .callback ∨ o.reportsHalt = false) (hi : OrderInv p)
    (h : placedSystem.sem t β o p b p') : orderOutline.Keeps t p p' := by
  obtain ⟨⟨⟨hs, hl⟩, hk⟩, hplaced⟩ := h
  refine orderKeeps (l := .op t ⟨o, b⟩) ht nofun hl hplaced (fun howed => ?_)
    (fun howed hcommand hnone => ?_) hi
  · obtain rfl | hhalt := ho
    · exact absurd rfl (not_callback hi howed hplaced)
    · rw [OrderLog.tardy, hhalt, Bool.and_false]
  · have hk : (p.2.command == "continue" ||
        (!(t == .request && o.startsExecution p.2.command b) || p.1.inCall.isNone) &&
          !(o.enters && p.2.owed)) = true := hk
    rw [beq_eq_false_iff_ne.2 hcommand, Bool.false_or, howed, Bool.and_true] at hk
    exact sem_outside hs (by simpa using (Bool.and_eq_true_iff.1 hk).2) hnone

/-- A job of another thread. -/
theorem safe_of_other (ht : j.thread ≠ .request) (p : Server × OrderLog) :
    orderOutline.Safe placedSystem j.thread j j.body p := by
  have ops : AllOps (fun o => j.thread = .callback ∨ DapOp.reportsHalt o = false) j.body := by
    by_cases hc : j.thread = .callback
    · exact AllOps.of_forall (fun _ => .inl hc) _
    · refine AllOps.mono (fun _ ho => .inr (haltless_of_allows ?_ ho)) (Job.body_permitted hc)
      cases j with
      | request | teardown => exact absurd rfl ht
      | callback => exact absurd rfl hc
      | _ => exact fun _ he => he
  exact Outline.safe_of_allOps (A := orderOutline) ops
    (fun _ _ _ _ ho hi h => op_keeps ht ho hi h) (fun _ _ => ⟨rfl, fun h => absurd h ht⟩) p

theorem start_valid (hi : OrderInv p) (h : placedSystem.start t j p p') :
    orderOutline.Keeps t p p' ∧ orderOutline.Safe placedSystem t j j.body p' := by
  obtain ⟨⟨⟨hs, hl⟩, hk⟩, hplaced⟩ := h
  have hs : startJob t j p.1 = some p'.1 := hs
  have ht := startJob_thread hs
  have hl : p'.2 = OrderLog.record (.start t j) p.1 p.2 := hl
  have hlate : p'.2.late = false := by
    rw [hl, OrderLog.record, hi.late]
    rfl
  -- a job of the request thread owes nothing yet
  have own (ht : t = .request) (ho : p'.2.owed = false) : orderOutline.Keeps t p p' := by
    have howed (h : p'.2.owed = true) : False := by
      rw [ho] at h
      cases h
    refine ⟨⟨hlate, fun h => (howed h).elim, fun h => (howed h).elim⟩, fun u hu => ?_⟩
    cases u with
    | request => exact absurd ht.symm hu
    | _ => trivial
  by_cases hr : t = .request
  · subst hr
    cases j with
    | request root =>
      have hk : (requestCommand root != "continue" || p.1.calm && !p.2.pumping) = true := hk
      have hsame : p'.1 = p.1 := (Option.some.inj (Option.ite_none_right_eq_some.1 hs).2).symm
      have hcommand : p'.2.command = requestCommand root := by rw [hl]; rfl
      have hstarted : p'.2.started = false := by rw [hl]; rfl
      have hanswered : p'.2.answered = false := by rw [hl]; rfl
      have howed : p'.2.owed = false := by rw [OrderLog.owed, hstarted]; rfl
      have sees : OrderView.Sees (requestCommand root)
          ⟨requestCommand root == "continue", false, false⟩ p' := by
        refine ⟨hcommand, hstarted, hanswered, fun hc => ?_⟩
        have hcontinue : requestCommand root = "continue" := beq_iff_eq.1 hc
        have hne : (requestCommand root != "continue") = false := by rw [hcontinue]; rfl
        rw [hne, Bool.false_or, Bool.and_eq_true] at hk
        refine ⟨hsame ▸ hk.1, ?_⟩
        rw [hl]
        exact Bool.eq_false_of_not_eq_true' hk.2
      exact ⟨own rfl howed, safe_of_prompt sees
        (handleRequest_prompt _ ⟨rfl, fun hc => by rw [hc]; rfl⟩) rfl⟩
    | teardown =>
      have hcommand : p'.2.command = "" := by rw [hl]; rfl
      have hstarted : p'.2.started = false := by rw [hl]; rfl
      have hanswered : p'.2.answered = false := by rw [hl]; rfl
      have howed : p'.2.owed = false := by rw [OrderLog.owed, hstarted]; rfl
      have sees : OrderView.Sees "" ⟨false, false, false⟩ p' :=
        ⟨hcommand, hstarted, hanswered, nofun⟩
      exact ⟨own rfl howed, safe_of_prompt sees
        (startless_order (startless_of_other (by decide) _) rfl) rfl⟩
    | _ => cases ht
  · subst ht
    refine ⟨orderKeeps (l := .start j.thread j) hr (fun _ _ h => by cases h; rfl) hl hplaced
      (fun _ => rfl) (fun howed _ hnone => ?_) hi, safe_of_other hr p'⟩
    have hc : j.thread ≠ .callback := not_callback hi howed hplaced
    obtain ⟨_, _, _, heq, -⟩ := startJob_of_ne hc hs
    rw [heq]
    exact hnone

theorem finish_valid {r : Except Exn Bool} (hi : OrderInv p) (hp : orderOutline.post t j r p)
    (h : placedSystem.finish t j r p p') : orderOutline.Keeps t p p' := by
  obtain ⟨⟨⟨hf, hl⟩, -⟩, hplaced⟩ := h
  have hf : finishJob j r p.1 = some p'.1 := hf
  have hl : p'.2 = OrderLog.record (.finish t j r) p.1 p.2 := hl
  obtain ⟨ht, howed⟩ := hp
  by_cases hr : t = .request
  · have hkept : p'.2.owed = p.2.owed := by rw [hl]; rfl
    have ho (h : p'.2.owed = true) : False := by
      rw [hkept, howed hr] at h
      cases h
    refine ⟨⟨?_, fun h => (ho h).elim, fun h => (ho h).elim⟩, fun u hu => ?_⟩
    · rw [hl, OrderLog.record, hi.late, Bool.false_or, hr]
      exact howed hr
    · cases u with
      | request => exact absurd hr.symm hu
      | _ => trivial
  · refine orderKeeps (l := .finish t j r) hr nofun hl hplaced (fun _ => ?_)
      (fun ho _ hnone => ?_) hi
    · cases t <;> first | rfl | exact absurd rfl hr
    · have hc : j.thread ≠ .callback := by
        rw [← ht]
        exact not_callback hi ho hplaced
      obtain ⟨_, _, heq⟩ := finishJob_of_ne hc hf
      rw [heq]
      exact hnone

theorem outline_valid (fullPath : String → String) :
    orderOutline.Valid placedSystem ({ fullPath }, {}) where
  init := ⟨rfl, nofun, nofun⟩
  start hi h := start_valid hi h
  finish hi hp h := finish_valid hi hp h

end ResponseOrder

/-- **Responses first.**  In every run in which the continue requests begin with the request thread
alone, and in which no thread is inside a wait from the command of a step or a pause to its response,
each of these responses is sent, and before any halt is reported. -/
theorem response_first {fullPath : String → String} {ls : List Lab}
    {c : Config Tid DapOp Job Exn Bool (Server × OrderLog)}
    (hr : orderSystem.Run (.init ({ fullPath }, {})) ls c) : c.state.2.late = false := by
  have hplaced : placedSystem.Run (.init ({ fullPath }, {})) ls c :=
    stepPlaced_run (fun _ _ _ => rfl) rfl hr
  exact (Outline.sound (ResponseOrder.outline_valid fullPath) hplaced).late

theorem orderSystem_eq : (orderMachine.guarded keepsOrder).system = orderSystem := by
  rw [Machine.guarded_system, orderMachine, Machine.instrument_system]
  rfl

/-- Go on from where the launched target has stopped. -/
def continueRequest : Json := Schedule.message 2 "continue" [("threadId", .int 100)]

/-- A step over the next line. -/
def nextRequest : Json := Schedule.message 3 "next" [("threadId", .int 100)]

/-- The target goes on to a breakpoint, and from there to the end of a step. -/
def continueThenStep : Schedule :=
  Schedule.launch ++ Schedule.serve continueRequest ++ Schedule.park ++
    Schedule.report .breakpoint ++ Schedule.report .break_ ++ Schedule.leave .loop ++
      Schedule.run .loop (.loopCondition 0) ++ Schedule.run .loop .loopEnd ++
        Schedule.serve nextRequest ++ Schedule.park ++ Schedule.report .break_

/-- The step is over before the handler, which has started the wait, sends the response. -/
def stepOvertakes : Schedule :=
  Schedule.launch ++ Schedule.enter .request (.request nextRequest) 35 ++ Schedule.park ++
    Schedule.report .break_

/-- A continue and a step whose responses come before their stops. -/
theorem step_responds_first : ∃ (ls : List Lab)
    (c : Config Tid DapOp Job Exn Bool (Server × OrderLog)),
      orderSystem.Run (.init ({}, {})) ls c ∧
        (c.state.1.sent.filter Message.reportsHalt).length = 2 ∧ c.state.2.late = false := by
  have hrun : ((orderMachine.guarded keepsOrder).exec continueThenStep (.init ({}, {}))).any
      (fun c => (c.state.1.sent.filter Message.reportsHalt).length == 2) = true := by
    decide +kernel
  obtain ⟨c, hc, ht⟩ := (Option.any_eq_true _ _).1 hrun
  obtain ⟨ls, hr⟩ := Machine.exec_run hc
  rw [orderSystem_eq] at hr
  exact ⟨ls, c, hr, beq_iff_eq.1 ht, @response_first id ls c hr⟩

/-- The wait loop may report the end of a step before the step is answered. -/
theorem step_overtakes_response : ¬∀ (ls : List Lab)
    (c : Config Tid DapOp Job Exn Bool (Server × OrderLog)),
      (adapter.system.instrument OrderLog.record).Run (.init ({}, {})) ls c →
        c.state.2.late = false := by
  intro hall
  have hrun : (orderMachine.exec stepOvertakes (.init ({}, {}))).any
      (fun c => c.state.2.late) = true := by
    decide +kernel
  obtain ⟨c, hc, ht⟩ := (Option.any_eq_true _ _).1 hrun
  obtain ⟨ls, hr⟩ := Machine.exec_run hc
  rw [orderMachine, Machine.instrument_system] at hr
  rw [hall ls c hr] at ht
  cases ht

end DapDbgeng
