/-
  What orderly programs keep along every run.

  * `Orderly.allOps`: the operations of an orderly program;
  * `Orderly.wp_keeps`: what each of them keeps, the program keeps;
  * `events_restored`: session events are suppressed only within a request.
-/
import DapDbgeng.Concurrent.Demands
import DapDbgeng.OrderlyRequests
import DapDbgeng.Semantics

namespace DapDbgeng

open Concurrent Concurrent.Prog

/-! ## Operations -/

/-- The operations with no part in suppressing events, in greeting the client and in the conditions
of breakpoints. -/
def DapOp.common : ∀ {β : Type}, DapOp β → Prop
  | _, .store .suppressSessionEvents true | _, .store .initializeRequestHandled _ => False
  | _, .send (.event .initialized) => False
  | _, .modify f => SparesConditions f
  | _, _ => True

theorem DapOp.common_of_plainOn {side : Side} {β : Type} {o : DapOp β} (h : o.plainOn side) :
    o.common := by
  cases o with
  | store f b => cases f <;> cases b <;> first | exact h | exact h.elim
  | send m =>
    cases m with
    | response r => trivial
    | event e => cases e <;> exact h
  | modify f => exact h
  | _ => trivial

section

variable {α : Type} {P : ∀ {β : Type}, DapOp β → Prop}

theorem invoke_allOps {t : Tid} {p : Dap α} (henqueue : P .enqueue) (hacquire : P .acquire)
    (hrelease : P .release) (h : AllOps P p) : AllOps P (invoke t p) := by
  unfold invoke
  refine .ite h (.bind (.perform henqueue) fun _ => .bind (.perform hacquire) fun _ =>
    .bind h.attempt fun r => .bind (.perform hrelease) fun _ => ?_)
  cases r <;> trivial

theorem invoke_common {t : Tid} {p : Dap α} (h : AllOps DapOp.common p) :
    AllOps DapOp.common (invoke t p) := invoke_allOps trivial trivial trivial h

theorem pumpCall_common (id : SessionId) (c : Call α) : AllOps DapOp.common (pumpCall id c) :=
  .bind (.perform trivial) fun _ => .perform trivial

theorem markKernel_common (id : SessionId) : AllOps DapOp.common (Session.markKernel id) :=
  .bind (.perform trivial) fun _ => .perform trivial

theorem killTarget_common (id : SessionId) : AllOps DapOp.common (Session.killTarget id) :=
  .bind (pumpCall_common id _) fun _ => .perform trivial

theorem destroy_common (t : Tid) (id : SessionId) : AllOps DapOp.common (Session.destroy t id) := by
  have endSession : AllOps DapOp.common (Session.endSession t id) :=
    .ite (.perform trivial) (pumpCall_common id _)
  have rest : AllOps DapOp.common (do
      Session.disconnectProcessServer id
      updateSession id .dispose) :=
    .bind (.bind (.perform trivial) fun _ => .ite trivial
      (.bind (.perform trivial) fun _ => .perform trivial)) fun _ => .perform trivial
  exact .bind (.perform trivial) fun _ => .ite trivial <| .bind (.perform trivial) fun _ =>
    .ite (.bind endSession fun _ => rest) rest

theorem drain_common (t : Tid) : AllOps DapOp.common (Server.drainPendingDisposedSession t) := by
  refine .bind (.perform trivial) fun parked => ?_
  cases parked with
  | none => trivial
  | some id => exact .catching (invoke_common (destroy_common t id)) fun _ => trivial

theorem joinWaitLoop_common : AllOps DapOp.common Server.joinWaitLoop :=
  .bind (.perform trivial) fun _ => .bind (.perform trivial) fun _ => .bind (.perform trivial)
    fun _ => .ite (.bind (.perform trivial) fun _ => drain_common _) (drain_common _)

theorem startWaitingForSessionEvent_common (id : SessionId) :
    AllOps DapOp.common (Server.startWaitingForSessionEvent id) := by
  have start : AllOps DapOp.common (do
      store .sessionStopOrExitObserved false
      store .waitLoopActive true
      Prog.perform (.spawnLoop id)
      Prog.perform .unlockGate) :=
    .bind (.perform trivial) fun _ => .bind (.perform trivial) fun _ =>
      .bind (.perform trivial) fun _ => .perform trivial
  exact .bind (.perform trivial) fun _ => .bind (.perform trivial) fun _ => .ite
    (.perform trivial) (.bind (.perform trivial) fun _ => .ite
      (.bind (.perform trivial) fun _ => start) start)

theorem leaveTarget_common (id : SessionId) : AllOps DapOp.common (Session.leaveTarget id) := by
  have checkHr (r : Reply Unit) : AllOps DapOp.common
      (Session.checkHr r "Could not detach processes") := by cases r <;> trivial
  exact .bind (.perform trivial) fun _ => .catching
    (.bind (pumpCall_common id _) checkHr)
    fun _ => .bind (.perform trivial) fun _ => trivial

theorem clearConditions_allOps (h : ∀ f : Tables → Unit × Tables, P (.modify f)) :
    AllOps P Server.clearConditions := .bind (.perform (h _)) fun _ => .perform (h _)

theorem recordConditions_allOps {path : String} {configured : List SourceBreakpointResult}
    {requested : List SourceBreakpoint} (hread : P .tables)
    (h : ∀ f : Tables → Unit × Tables, P (.modify f)) :
    AllOps P (Server.updateConditionalBreakpointState path configured requested) :=
  Server.updateConditionalBreakpointState_composed (Q := fun {_} p => AllOps P p) trivial
    (fun hp hf => .bind hp hf) (.perform hread) fun _ _ => .perform (h _)

/-- The operations of an orderly program; only a caller of the dispatcher suppresses events, greets
or records conditions, and besides it only the end of the session clears them. -/
theorem Orderly.allOps {L : Licence} {side : Side} {p : Dap α} (h : Orderly L side p)
    (hcommon : ∀ {β : Type} (o : DapOp β), o.common → P o)
    (hconditions : side = .caller ∨ side = .callback ∧ L.ends →
      ∀ f : Tables → Unit × Tables, P (.modify f))
    (hsuppress : side = .caller → P (.store .suppressSessionEvents true))
    (hhandled : side = .caller → P (.store .initializeRequestHandled true))
    (hgreet : side = .caller → P (.send (.event .initialized))) : AllOps P p := by
  have common {α : Type} {p : Dap α} (h : AllOps DapOp.common p) : AllOps P p :=
    h.mono fun o => hcommon o
  induction h with
  | ret a => trivial
  | throw e => trivial
  | bind _ _ ihp ihf =>
    exact .bind (ihp hconditions hsuppress hhandled hgreet) fun a =>
      ihf a hconditions hsuppress hhandled hgreet
  | catching _ _ ihp ihh =>
    exact .catching (ihp hconditions hsuppress hhandled hgreet) fun e =>
      ihh e hconditions hsuppress hhandled hgreet
  | perform ho => exact .perform (hcommon _ (DapOp.common_of_plainOn ho))
  | pumpCall id _ _ => exact common (pumpCall_common id _)
  | dispatch _ _ ih =>
    exact invoke_allOps (hcommon _ trivial) (hcommon _ trivial) (hcommon _ trivial)
      (ih (by rintro (⟨⟨⟩⟩ | ⟨⟨⟩, -⟩)) (by rintro ⟨⟩) (by rintro ⟨⟩) (by rintro ⟨⟩))
  | suppressed _ ih =>
    have put : P (.store .suppressSessionEvents false) := hcommon _ trivial
    exact .bind (.perform (hsuppress rfl)) fun _ => .bind
      (.catching (ih hconditions hsuppress hhandled hgreet) fun _ =>
        .bind (.perform put) fun _ => trivial)
      fun _ => .bind (.perform put) fun _ => trivial
  | joinLoop => exact common joinWaitLoop_common
  | startLoop id => exact common (startWaitingForSessionEvent_common id)
  | handleInitialize request =>
    exact .bind (.perform (hcommon _ trivial)) fun _ => .ite (.perform (hcommon _ trivial)) <|
      .bind (.perform (hcommon _ trivial)) fun _ => .bind (.perform (hhandled rfl)) fun _ =>
        .perform (hgreet rfl)
  | clearConditions h => exact clearConditions_allOps (hconditions h)
  | recordConditions =>
    exact recordConditions_allOps (hcommon _ trivial) (hconditions (.inl rfl))
  | destroy id _ => exact common (destroy_common _ id)
  | markKernel _ _ id => exact common (markKernel_common id)
  | byKind _ _ ihp ihq =>
    exact .bind (.perform (hcommon _ trivial)) fun _ => .ite
      (ihp hconditions hsuppress hhandled hgreet) (ihq hconditions hsuppress hhandled hgreet)
  | leaveTarget _ => exact common (leaveTarget_common _)
  | killTarget id _ => exact common (killTarget_common id)

/-- On the dispatcher, everything is common, but for what the end of the session clears. -/
theorem Orderly.allOps_onThread {L : Licence} {side : Side} {p : Dap α} (h : Orderly L side p)
    (hside : side ≠ .caller) (hcommon : ∀ {β : Type} (o : DapOp β), o.common → P o)
    (hconditions : L.ends → ∀ f : Tables → Unit × Tables, P (.modify f)) : AllOps P p :=
  h.allOps hcommon (fun hs => hconditions (hs.resolve_left hside).2) (fun h => absurd h hside)
    (fun h => absurd h hside) fun h => absurd h hside

theorem Orderly.common {L : Licence} {side : Side} {p : Dap α} (h : Orderly L side p)
    (hside : side ≠ .caller) (hends : ¬L.ends) : AllOps DapOp.common p :=
  h.allOps_onThread hside (fun _ ho => ho) fun h => absurd h hends

end

/-- What the common operations keep, and what writing conditions, suppressing and greeting keep, an
orderly program keeps. -/
theorem Orderly.wp_keeps {S : Spec DapOp Server} {I : Server → Prop}
    (hop : ∀ {β : Type} (o : DapOp β), o.common → ∀ s, I s → S.pre o (fun _ => I) s)
    (hconditions : ∀ f : Tables → Unit × Tables, ∀ s, I s → S.pre (.modify f) (fun _ => I) s)
    (hsuppressed : ∀ {α : Type} {p : Dap α},
      (∀ s, I s → p.wp S (fun _ => I) (fun _ => I) s) → ∀ s, I s →
        (Server.runWithSuppressedSessionEvents p).wp S (fun _ => I) (fun _ => I) s)
    (hgreet : ∀ request s, I s →
      (Server.handleInitializeRequest request).wp S (fun _ => I) (fun _ => I) s)
    {L : Licence} {side : Side} {α : Type} {p : Dap α} (h : Orderly L side p) {s : Server}
    (hs : I s) : p.wp S (fun _ => I) (fun _ => I) s := by
  have common {α : Type} {p : Dap α} (h : AllOps DapOp.common p) {s : Server} (hs : I s) :
      p.wp S (fun _ => I) (fun _ => I) s := wp_of_allOps (I := I) hop h hs
  have kept {α : Type} {p : Dap α} (h : AllOps (fun o => ∀ s, I s → S.pre o (fun _ => I) s) p)
      {s : Server} (hs : I s) : p.wp S (fun _ => I) (fun _ => I) s :=
    wp_of_allOps (I := I) (fun _ ho => ho) h hs
  induction h generalizing s with
  | ret a => exact hs
  | throw e => exact hs
  | bind _ _ ihp ihf =>
    rw [wp_bind]
    exact wp_mono_val (fun a _ h' => ihf a h') (ihp hs)
  | catching _ _ ihp ihh =>
    rw [wp_catching]
    exact wp_mono (fun _ _ h' => h') (fun e _ h' => ihh e h') (ihp hs)
  | perform ho => exact hop _ (DapOp.common_of_plainOn ho) s hs
  | suppressed _ ih => exact hsuppressed (fun _ hs => ih hs) s hs
  | handleInitialize request => exact hgreet request s hs
  | clearConditions => exact kept (clearConditions_allOps hconditions) hs
  | recordConditions =>
    exact kept (recordConditions_allOps (hop _ trivial) hconditions) hs
  | @byKind L α id p q hp hq ihp ihq =>
    rw [wp_bind]
    refine S.mono _ (fun x s' h' => ?_) (hop (.readSession id) trivial s hs)
    change (if x.isKernel = true then p else q : Dap α).wp S _ _ s'
    split
    · exact ihp h'
    · exact ihq h'
  | dispatch ht hp _ =>
    refine kept (invoke_allOps (hop _ trivial) (hop _ trivial) (hop _ trivial) ?_) hs
    exact hp.allOps_onThread (by rintro ⟨⟩) (fun o ho => hop o ho) fun _ => hconditions
  | pumpCall id _ _ => exact common (pumpCall_common id _) hs
  | joinLoop => exact common joinWaitLoop_common hs
  | startLoop id => exact common (startWaitingForSessionEvent_common id) hs
  | destroy id _ => exact common (destroy_common _ id) hs
  | markKernel _ _ id => exact common (markKernel_common id) hs
  | leaveTarget _ => exact common (leaveTarget_common _) hs
  | killTarget id _ => exact common (killTarget_common id) hs

/-! ## Jobs -/

/-- The job is a callback that reports the end of the session. -/
def Job.ends : Job → Prop
  | .callback _ event _ _ => event.endsSession = true
  | _ => False

open Server in
/-- Off the request thread, everything is common, but for what the end of the session clears. -/
theorem Job.body_allOps {P : ∀ {β : Type}, DapOp β → Prop} {j : Job} (h : j.thread ≠ .request)
    (hcommon : ∀ {β : Type} (o : DapOp β), o.common → P o)
    (hconditions : j.ends → ∀ f : Tables → Unit × Tables, P (.modify f)) : AllOps P j.body := by
  have waitForEvent (id : SessionId) : AllOps DapOp.common (Session.waitForEvent id) :=
    (Session.waitForEvent_orderly (L := {}) id).common (by rintro ⟨⟩) not_false
  have lineStepping (id : SessionId) :
      AllOps DapOp.common (Session.enableSourceLineStepping id) := by
    have h : Orderly {} .dispatcher (Session.enableSourceLineStepping id) :=
      Session.enableSourceLineStepping_orderly id
    exact h.common (by rintro ⟨⟩) not_false
  have restore (id : SessionId) :
      AllOps DapOp.common (restoreSourceLineSteppingIfNeeded .loop id) :=
    .bind (.perform trivial) fun _ => .ite (.bind (.catching (invoke_common (lineStepping id))
      fun _ => trivial) fun _ => .perform trivial) trivial
  have common {p : Dap Bool} (h : AllOps DapOp.common p) : AllOps P p := h.mono fun o => hcommon o
  cases j with
  | request | teardown => exact absurd rfl h
  | loopCondition id =>
    exact common <| .bind (.perform trivial) fun _ => .ite (.bind (.perform trivial)
      fun _ => trivial) trivial
  | loopBody id =>
    exact common <| .bind (.bind (invoke_common (waitForEvent id)) fun _ =>
      .bind (.perform trivial) fun _ => .ite (restore id) trivial) fun _ => trivial
  | loopEnd =>
    exact common <| .bind (.bind (drain_common _) fun _ => .bind (.perform trivial) fun _ =>
      .bind (.perform trivial) fun _ => .bind (.perform trivial) fun _ => .perform trivial)
      fun _ => trivial
  | callback id event threads current =>
    have orderly : Orderly { ends := event.endsSession = true } .callback (onCallback id event) :=
      onCallback_orderly event fun h => h
    exact .bind (orderly.allOps_onThread (by rintro ⟨⟩) hcommon hconditions) fun _ => trivial
  | pump id =>
    exact common <| .bind (.catching (invoke_common (waitForEvent id)) fun _ => trivial)
      fun _ => trivial

section

open Server

variable {t : Tid} {j : Job} {s s' : Server}

/-- Beginning a job leaves the members of the server. -/
theorem startJob_members (h : startJob t j s = some s') : s'.tables = s.tables ∧
    s'.flags = s.flags ∧ s'.sent = s.sent := by
  by_cases hj : j.thread = .callback
  · cases j with
    | callback id event threads current =>
      obtain ⟨-, rfl⟩ := startJob_callback h
      exact ⟨rfl, rfl, rfl⟩
    | _ => cases hj
  · obtain ⟨_, _, _, rfl, -⟩ := startJob_of_ne hj h
    exact ⟨rfl, rfl, rfl⟩

theorem finishJob_members {r : Except Exn Bool} (h : finishJob j r s = some s') :
    s'.tables = s.tables ∧ s'.flags = s.flags ∧ s'.sent = s.sent := by
  by_cases hj : j.thread = .callback
  · cases j with
    | callback id event threads current =>
      rw [finishJob_callback h]
      exact ⟨rfl, rfl, rfl⟩
    | _ => cases hj
  · obtain ⟨_, _, rfl⟩ := finishJob_of_ne hj h
    exact ⟨rfl, rfl, rfl⟩

end

/-! ## Suppressed events -/

/-- Session events are not suppressed. -/
def Server.Reporting (s : Server) : Prop := s.flags .suppressSessionEvents = false

/-- Nobody suppresses events for the request thread. -/
def suppression : Demands Tid DapOp Job Exn Bool Server where
  Inv _ := True
  rely t s s' := t = .request → s.Reporting → s'.Reporting
  post t _ _ s := t = .request → s.Reporting
  rely_refl _ _ := fun _ h => h
  rely_trans h h' := fun ht hs => h' ht (h ht hs)
  need _ _ _ _ _ := True
  rest t s := t = .request → s.Reporting
  rest_rely h hr _ := fun ht => hr ht (h ht)

/-- The operations that do not suppress events. -/
def DapOp.reporting : ∀ {β : Type}, DapOp β → Prop
  | _, .store .suppressSessionEvents true => False
  | _, _ => True

theorem DapOp.reporting_of_common {β : Type} {o : DapOp β} (h : o.common) : o.reporting := by
  cases o with
  | store f b => cases f <;> cases b <;> first | exact h | trivial
  | _ => trivial

theorem sem_reporting {t : Tid} {β : Type} {o : DapOp β} {b : β} {s s' : Server} (ho : o.reporting)
    (hs : s.Reporting) (h : sem t β o s b s') : s'.Reporting := by
  cases o with
  | store f v =>
    rw [sem_store.1 h]
    unfold Server.Reporting
    rw [Server.setFlag_flags]
    split
    · rename_i hf
      subst hf
      cases v with
      | false => rfl
      | true => exact ho.elim
    · exact hs
  | call id c =>
    obtain ⟨_, _, -, -, rfl⟩ := sem_call h
    exact hs
  | leave id c =>
    obtain ⟨-, -, _, _, -, rfl⟩ := sem_leave h
    exact hs
  | enter id c =>
    obtain ⟨_, -, -, -, rfl⟩ := sem_enter.1 h
    exact hs
  | acquire =>
    obtain ⟨_, -, -, rfl⟩ := sem_acquire.1 h
    exact hs
  | lockGate =>
    obtain ⟨-, rfl⟩ := sem_lockGate.1 h
    exact hs
  | joinLoop =>
    obtain ⟨-, rfl⟩ := sem_joinLoop.1 h
    exact hs
  | send m =>
    rw [sem_send.1 h]
    split <;> exact hs
  | _ =>
    obtain ⟨_, h⟩ := h
    cases h
    exact hs

section

variable {j : Job}

/-- An operation of the request thread. -/
theorem suppression_pre {β : Type} {o : DapOp β} {K : Server → Prop} {s : Server}
    (hop : ∀ b s', sem .request β o s b s' → K s') (hstable : ∀ {s s'}, K s →
      (s.Reporting → s'.Reporting) → K s') :
    (suppression.spec adapter.system .request j).pre o (fun _ => K) s :=
  Demands.pre_of (fun _ => trivial)
    (fun b s' _ h => ⟨⟨trivial, fun _ hu hr => absurd hr hu⟩, hop b s' h⟩)
    fun _ _ _ hK hr _ => hstable hK (hr rfl)

/-- Whatever happens while events are suppressed, they are not in the end. -/
theorem suppressed_restores {α : Type} (p : Dap α) (s : Server) :
    (Server.runWithSuppressedSessionEvents p).wp (suppression.spec adapter.system .request j)
      (fun _ => Server.Reporting) (fun _ => Server.Reporting) s := by
  have any {β : Type} (o : DapOp β) (s : Server) :
      (suppression.spec adapter.system .request j).pre o (fun _ _ => True) s :=
    suppression_pre (fun _ _ _ => trivial) fun _ _ => trivial
  have restore {α : Type} {q : Dap α} {s : Server}
      (hq : ∀ s : Server, s.Reporting → q.wp (suppression.spec adapter.system .request j)
        (fun _ => Server.Reporting) (fun _ => Server.Reporting) s) :
      ((store .suppressSessionEvents false).bind fun _ => q).wp
        (suppression.spec adapter.system .request j) (fun _ => Server.Reporting)
        (fun _ => Server.Reporting) s := by
    rw [wp_bind]
    refine (suppression.spec adapter.system .request j).mono _ (fun _ s' h => hq s' h)
      (suppression_pre (K := Server.Reporting) (fun _ s' h => ?_) fun h hr => hr h)
    rw [sem_store.1 h]
    exact (Server.setFlag_flags _ _ _ _).trans (if_pos rfl)
  rw [Server.runWithSuppressedSessionEvents, bind_eq, wp_bind]
  refine (suppression.spec adapter.system .request j).mono _ (fun _ s₁ _ => ?_) (any _ s)
  rw [bind_eq, wp_ret, wp_bind, wp_catching]
  have ran : p.wp (suppression.spec adapter.system .request j) (fun _ _ => True) (fun _ _ => True)
      s₁ := wp_of_allOps (P := fun _ => True) (I := fun _ => True) (fun o _ s _ => any o s)
        (.of_forall (fun _ => trivial) p) trivial
  refine wp_mono (fun a s' _ => ?_) (fun e s' _ => ?_) ran
  · exact restore (q := .ret a) fun _ h => h
  · exact restore (q := (.throw e : Dap α)) fun _ h => h

theorem suppression_keeps {L : Licence} {α : Type} {p : Dap α} (h : Orderly L .caller p)
    {s : Server} (hs : s.Reporting) : p.wp (suppression.spec adapter.system .request j)
      (fun _ => Server.Reporting) (fun _ => Server.Reporting) s := by
  have keeps {β : Type} (o : DapOp β) (ho : o.reporting) (s : Server) (hs : s.Reporting) :
      (suppression.spec adapter.system .request j).pre o (fun _ => Server.Reporting) s :=
    suppression_pre (fun _ _ hsem => sem_reporting ho hs hsem) fun h hr => hr h
  have greet (request : Request Unit) :
      AllOps DapOp.reporting (Server.handleInitializeRequest request) :=
    .bind (.perform trivial) fun _ => .ite (.perform trivial) <| .bind (.perform trivial) fun _ =>
      .bind (.perform trivial) fun _ => .perform trivial
  exact h.wp_keeps (fun o ho => keeps o (DapOp.reporting_of_common ho))
    (fun f => keeps (.modify f) trivial) (fun _ s _ => suppressed_restores _ s)
    (fun request _ hs => wp_of_allOps (I := Server.Reporting) keeps (greet request) hs) hs

end

open Server in
theorem suppression_valid (fullPath : String → String) :
    suppression.Valid adapter.system { fullPath } where
  init := trivial
  rest _ _ := rfl
  start {t j s s'} _ hrest h := by
    have heq : s'.Reporting ↔ s.Reporting := by
      unfold Server.Reporting
      rw [(startJob_members h).2.1]
    refine ⟨⟨trivial, fun _ _ _ => heq.2⟩, fun s'' hr _ => ?_⟩
    have hthread := startJob_thread h
    by_cases ht : t = .request
    · have hs : s''.Reporting := hr ht (heq.2 (hrest ht))
      have keeps {p : Dap Bool} {L : Licence} (hp : Orderly L .caller p) :
          p.wp (suppression.spec adapter.system .request j)
            (fun b s => t = .request → s.Reporting) (fun e s => t = .request → s.Reporting) s'' :=
        wp_mono (fun _ _ h _ => h) (fun _ _ h _ => h) (suppression_keeps hp hs)
      subst ht
      cases j with
      | request root => exact keeps handleRequest_orderly
      | teardown => exact keeps (.bind (teardown_orderly (L := {})) fun _ => .ret _)
      | _ => cases hthread
    · have hj : j.thread ≠ .request := fun hj => ht (hthread.trans hj)
      have reporting : AllOps DapOp.reporting j.body :=
        Job.body_allOps hj (fun o => DapOp.reporting_of_common) fun _ _ => trivial
      refine wp_mono (fun _ _ _ h => absurd h ht) (fun _ _ _ h => absurd h ht)
        (wp_of_allOps (I := fun _ => True) (fun o ho s _ => ?_) reporting trivial)
      exact Demands.pre_of (fun _ => trivial) (fun _ _ _ hs =>
        ⟨⟨trivial, fun _ _ _ hr => sem_reporting ho hr hs⟩, trivial⟩)
        fun _ _ _ _ _ _ => trivial
  finish {t j r s s'} _ hpost h := by
    have heq : s'.Reporting ↔ s.Reporting := by
      unfold Server.Reporting
      rw [(finishJob_members h).2.1]
    exact ⟨⟨trivial, fun _ _ _ => heq.2⟩, fun ht => heq.2 (hpost ht)⟩

/-- **Events are not left suppressed**: along every run, no session events are suppressed while no
request is being handled, however the requests so far went. -/
theorem events_restored {fullPath : String → String} {ls : List Lab} {c : Conf}
    (hr : adapter.system.Run (.init { fullPath }) ls c) (hidle : c.threads .request = none) :
    c.state.flags .suppressSessionEvents = false :=
  (Demands.sound (suppression_valid fullPath) hr).rest .request hidle rfl

/-- A launch suppresses the events of the new session until its first stop. -/
theorem events_restored_launch : ∃ (ls : List Lab) (c : Conf),
    adapter.system.Run (.init {}) ls c ∧ c.state.session = some 0 ∧
      c.state.flags .suppressSessionEvents = false := by
  obtain ⟨c, ⟨ls, hr⟩, -, htest⟩ := reachable_of_exec Schedule.launch
    (fun c => c.state.session == some 0 && (c.threads .request).isNone) (by decide +kernel)
  obtain ⟨hsession, hidle⟩ := Bool.and_eq_true_iff.1 htest
  exact ⟨ls, c, hr, eq_of_beq hsession,
    @events_restored _ ls c hr (Option.isNone_iff_eq_none.1 hidle)⟩

end DapDbgeng
