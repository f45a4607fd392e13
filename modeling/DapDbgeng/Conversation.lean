/-
  What the client is answered along a run.

  The request thread takes one request at a time, and no other thread answers.

  * `answered_of_wp`: at any point of its handling, a request is answered or not, and not twice;
  * `conversation`: along every run, the responses answer the requests in their order, each once.
-/
import DapDbgeng.OrderlyRuns
import DapDbgeng.RespondsOnce
import DapDbgeng.TurnJobs

namespace DapDbgeng

open Concurrent Concurrent.Prog

/-! ## One request -/

/-- Every operation has a result of its type to give. -/
theorem DapOp.nonempty {β : Type} (o : DapOp β) : Nonempty β := by
  cases o with
  | modify f => exact ⟨(f {}).1⟩
  | call id c => exact ⟨c.default {}⟩
  | leave id c => exact ⟨c.default {}⟩
  | newSession => exact ⟨(0 : Nat)⟩
  | readSession id => exact ⟨({} : Session)⟩
  | tables => exact ⟨({} : Tables)⟩
  | load | hasPending | loopJoinable | takeLoop | deadlinePassed | pathExists | isDirectory =>
    exact ⟨true⟩
  | takePending | session | takeSession | park | unpark | envVar | readFile => exact ⟨none⟩
  | takeThreadEvents => exact ⟨[]⟩
  | executableDirectory | currentDirectory | fullPath => exact ⟨""⟩
  | _ => exact ⟨()⟩

/-- Along a program that ends with one answer more, there is none yet or there is that one. -/
theorem answered_of_wp {α : Type} {seq : Int} {command : String} {log : List Response}
    {p : Dap α} {l : List Response}
    (h : p.wp logSpec (fun _ l => Answered seq command log l) (fun _ _ => False) l)
    (hl : log <+: l) : l = log ∨ Answered seq command log l := by
  induction p generalizing l with
  | ret a => exact .inr h
  | throw e => exact h.elim
  | op o k ih =>
    obtain ⟨b⟩ := o.nonempty
    have hpre := (logSpec_pre o _ l).1 h b
    have hgrown : l <+: l ++ o.responses := List.prefix_append _ _
    have hboth := hl.trans hgrown
    obtain ⟨more, rfl⟩ := hl
    rcases ih b hpre hboth with heq | ⟨response, heq, hanswer⟩
    · rw [heq] at hgrown
      exact .inl (hgrown.eq_of_length_le (by simp))
    · rw [heq] at hgrown
      have hgrows : more <+: [response] := (List.prefix_append_right_inj log).1 hgrown
      rcases List.prefix_cons_iff.1 hgrows with rfl | ⟨rest, rfl, hrest⟩
      · exact .inl (List.append_nil log)
      · obtain rfl := List.prefix_nil.1 hrest
        exact .inr ⟨response, rfl, hanswer⟩

namespace Server

variable {root : Json} {seq : Int} {command : String}

theorem handleRequest_answers (h : IsRequest root seq command) (log : List Response) :
    (handleRequest root).wp logSpec (fun _ l => Answered seq command log l) (fun _ _ => False)
      log := by
  have silent {β γ : Type} {o : DapOp β} {f : β → Dap γ} {Q : γ → List Response → Prop}
      {l : List Response} (ho : o.responses = [])
      (hf : ∀ b, (f b).wp logSpec Q (fun _ _ => False) l) :
      (Prog.op o f).wp logSpec Q (fun _ _ => False) l := by
    refine (logSpec_pre o _ l).2 fun b => ?_
    rw [ho, List.append_nil]
    exact hf b
  refine silent rfl fun _ => silent rfl fun _ => silent rfl fun _ => ?_
  change (Prog.bind ((handle root).catching (recover root)) _).wp logSpec _ _ log
  rw [wp_bind]
  refine wp_mono_val (fun _ l hl => ?_) (handle_recover_responds h log)
  exact silent rfl fun _ => silent rfl fun _ => hl

end Server

/-! ## The other jobs -/

/-- The program answers no request. -/
abbrev AnswerFree {α : Type} (p : Dap α) : Prop := AllOps (fun o => o.responses = []) p

theorem Engaging.answerFree {α : Type} {p : Dap α} (h : Engaging p) : AnswerFree p :=
  h.mono fun _ => DapOp.responses_of_quiet

section

open Server

theorem drain_answerFree (t : Tid) : AnswerFree (drainPendingDisposedSession t) := by
  refine .bind (.perform rfl) fun parked => ?_
  cases parked with
  | none => trivial
  | some id =>
    exact .catching (Engaging.answerFree (invoke_quiet (Session.destroy_engaging id t)))
      fun _ => trivial

theorem teardown_answerFree : AnswerFree teardown := by
  have reset : AnswerFree resetAfterDispose :=
    .bind (.perform rfl) fun _ => .bind (.perform rfl) fun _ => .bind (.perform rfl) fun _ =>
      .bind (.bind (.perform rfl) fun _ => .bind (.perform rfl) fun _ => .perform rfl) fun _ =>
        .bind (.perform rfl) fun _ => .bind (.perform rfl) fun _ =>
          .bind (.bind (.perform rfl) fun _ => .perform rfl) fun _ =>
            .bind (.bind (.perform rfl) fun _ => .perform rfl) fun _ => .bind (.perform rfl)
              fun _ => .bind (.perform rfl) fun _ => .bind (.perform rfl) fun _ => .perform rfl
  have join : AnswerFree joinWaitLoop :=
    .bind (.perform rfl) fun _ => .bind (.perform rfl) fun _ => .bind (.perform rfl) fun _ =>
      .ite (.bind (.perform rfl) fun _ => drain_answerFree _) (drain_answerFree _)
  refine .bind (.bind (.perform rfl) fun session => ?_) fun _ => join
  cases session with
  | none => exact reset
  | some id =>
    exact .bind (.catching (Engaging.answerFree (invoke_quiet (Session.destroy_engaging id _)))
      fun _ => trivial) fun _ => reset

/-- Only requests are answered. -/
theorem Job.body_answerFree {j : Job} (h : ∀ root, j ≠ .request root) : AnswerFree j.body := by
  have waited (t : Tid) (id : SessionId) : AnswerFree (invoke t (Session.waitForEvent id)) :=
    Engaging.answerFree (invoke_quiet (Session.waitForEvent_quiet id))
  have stepping (id : SessionId) :
      AnswerFree (invoke .loop (Session.enableSourceLineStepping id)) :=
    Engaging.answerFree (invoke_quiet (Session.enableSourceLineStepping_quiet id).engaging)
  cases j with
  | request root => exact absurd rfl (h root)
  | teardown => exact .bind teardown_answerFree fun _ => trivial
  | loopCondition id =>
    exact .bind (.perform rfl) fun _ => .ite (.bind (.perform rfl) fun _ => trivial) trivial
  | loopBody id =>
    exact .bind (.bind (waited _ id) fun _ => .bind (.perform rfl) fun _ => .ite
      (.bind (.perform rfl) fun _ => .ite (.bind (.catching (stepping id) fun _ => trivial)
        fun _ => .perform rfl) trivial) trivial) fun _ => trivial
  | loopEnd =>
    exact .bind (.bind (drain_answerFree _) fun _ => .bind (.perform rfl) fun _ =>
      .bind (.perform rfl) fun _ => .bind (.perform rfl) fun _ => .perform rfl) fun _ => trivial
  | callback id event =>
    refine .bind ((onCallback_forCallback event).mono fun o ho => ?_) fun _ => trivial
    cases o with
    | send m => cases m with
      | response r => exact ho.elim
      | event e => rfl
    | _ => rfl
  | pump id => exact .bind (.catching (waited _ id) fun _ => trivial) fun _ => trivial

end

/-! ## Runs -/

/-- The message of a job that handles a request. -/
def Job.root : Job → Option Json
  | .request root => some root
  | _ => none

/-- The requests that were taken, in their order. -/
def requests (ls : List Lab) : List Json := ls.filterMap fun l => l.begins.bind fun b => b.2.root

/-- The responses that were handed to the writer. -/
def Server.answers (s : Server) : List Response := s.sent.filterMap Message.asResponse

/-- The response answers the request. -/
def AnswersTo (root : Json) (response : Response) : Prop :=
  Server.IsRequest root response.requestSeq response.command

theorem sem_answers {t : Tid} {β : Type} {o : DapOp β} {b : β} {s s' : Server}
    (h : sem t β o s b s') :
    s'.answers = s.answers ++ (if s.outboundOpen then o.responses else []) ∧
      s'.outboundOpen = s.outboundOpen := by
  have same {s' : Server} (hsent : s'.sent = s.sent) (ho : o.responses = []) :
      s'.answers = s.answers ++ (if s.outboundOpen then o.responses else []) := by
    rw [Server.answers, Server.answers, hsent, ho, ite_self, List.append_nil]
  cases o with
  | send m =>
    rw [sem_send.1 h]
    split
    · refine ⟨?_, rfl⟩
      cases m with
      | response r => exact List.filterMap_append
      | event e =>
        change (s.sent ++ [Message.event e]).filterMap Message.asResponse = _
        rw [List.filterMap_append]
        rfl
    · exact ⟨(List.append_nil _).symm, rfl⟩
  | call id c =>
    obtain ⟨_, _, -, -, rfl⟩ := sem_call h
    exact ⟨same rfl rfl, rfl⟩
  | leave id c =>
    obtain ⟨-, -, _, _, -, rfl⟩ := sem_leave h
    exact ⟨same rfl rfl, rfl⟩
  | enter id c =>
    obtain ⟨_, -, -, -, rfl⟩ := sem_enter.1 h
    exact ⟨same rfl rfl, rfl⟩
  | acquire =>
    obtain ⟨_, -, -, rfl⟩ := sem_acquire.1 h
    exact ⟨same rfl rfl, rfl⟩
  | lockGate =>
    obtain ⟨-, rfl⟩ := sem_lockGate.1 h
    exact ⟨same rfl rfl, rfl⟩
  | joinLoop =>
    obtain ⟨-, rfl⟩ := sem_joinLoop.1 h
    exact ⟨same rfl rfl, rfl⟩
  | _ =>
    obtain ⟨_, h⟩ := h
    cases h
    exact ⟨same rfl rfl, rfl⟩

section

open Server

variable {t : Tid} {j : Job} {s s' : Server}

/-- The writer is open while requests are served. -/
def Server.Opened (s : Server) : Prop := s.mode = .serving → s.outboundOpen = true

theorem startJob_opened (hs : s.Opened) (h : startJob t j s = some s') :
    s'.Opened ∧ (t ≠ .request → s'.mode = s.mode) := by
  unfold startJob at h
  split at h
  · split at h
    · cases h
      exact ⟨hs, fun _ => rfl⟩
    · cases h
  · split at h
    · cases h
    · cases h
      exact ⟨by rintro ⟨⟩, fun ht => absurd rfl ht⟩
  all_goals
    first
    | cases h
    | split at h
      · cases h
        exact ⟨hs, fun _ => rfl⟩
      · cases h

theorem finishJob_opened {r : Except Exn Bool} (hs : s.Opened) (h : finishJob j r s = some s') :
    s'.Opened ∧ ((∀ root, j ≠ .request root) → s'.mode = s.mode) := by
  unfold finishJob at h
  split at h
  · rename_i root shouldExit
    cases h
    refine ⟨?_, fun h => absurd rfl (h root)⟩
    cases shouldExit
    · exact hs
    · rintro ⟨⟩
  all_goals
    first
    | cases h
      exact ⟨hs, fun _ => rfl⟩
    | cases h

end

/-- Where the client and the adapter are in their conversation. -/
structure Conversing (ls : List Lab) (c : Conf) : Prop where
  opened : c.state.Opened
  answerFree : ∀ t j p, c.threads t = some (j, p) → (∀ root, j ≠ .request root) → AnswerFree p
  onRequest : ∀ t root p, c.threads t = some (.request root, p) → t = .request
  between : (∀ root p, c.threads .request ≠ some (.request root, p)) →
    List.Forall₂ AnswersTo (requests ls) c.state.answers
  during : ∀ root p, c.threads .request = some (.request root, p) → c.state.mode = .serving ∧
    ∃ before log, requests ls = before ++ [root] ∧ List.Forall₂ AnswersTo before log ∧
      log <+: c.state.answers ∧ ∀ seq command, Server.IsRequest root seq command →
        p.wp logSpec (fun _ l => Answered seq command log l) (fun _ _ => False) c.state.answers

namespace Conversing

variable {ls : List Lab} {c : Conf}

/-- A step of a job that is not a request. -/
theorem aside (h : Conversing ls c) {l : Lab} (hl : requests (ls ++ [l]) = requests ls) {t : Tid}
    {s' : Server} {th : Option (Job × Dap Bool)} (hs : s'.answers = c.state.answers)
    (hmode : t ≠ .request → s'.mode = c.state.mode) (hopened : s'.Opened)
    (hcur : ∀ root p, c.threads t ≠ some (.request root, p))
    (hth : ∀ j p, th = some (j, p) → (∀ root, j ≠ .request root) ∧ AnswerFree p) :
    Conversing (ls ++ [l]) (c.set t s' th) where
  opened := hopened
  answerFree u j p hu hj := by
    by_cases hut : u = t
    · subst hut
      rw [Config.set_threads_self] at hu
      exact (hth j p hu).2
    · rw [Config.set_threads_of_ne _ hut] at hu
      exact h.answerFree u j p hu hj
  onRequest u root p hu := by
    by_cases hut : u = t
    · subst hut
      rw [Config.set_threads_self] at hu
      exact absurd rfl ((hth _ p hu).1 root)
    · rw [Config.set_threads_of_ne _ hut] at hu
      exact h.onRequest u root p hu
  between hb := by
    rw [hl]
    change List.Forall₂ AnswersTo (requests ls) s'.answers
    rw [hs]
    refine h.between fun root p hp => ?_
    by_cases ht : t = .request
    · exact hcur root p (ht ▸ hp)
    · refine hb root p ?_
      rw [Config.set_threads_of_ne _ (Ne.symm ht)]
      exact hp
  during root p hp := by
    by_cases ht : t = .request
    · subst ht
      rw [Config.set_threads_self] at hp
      exact absurd rfl ((hth _ p hp).1 root)
    · rw [Config.set_threads_of_ne _ (Ne.symm ht)] at hp
      obtain ⟨hm, before, log, hbefore, hanswers, hgrows, hwp⟩ := h.during root p hp
      refine ⟨(hmode ht).trans hm, before, log, hl.trans hbefore, hanswers, ?_, ?_⟩
      · change log <+: s'.answers
        rw [hs]
        exact hgrows
      · change ∀ seq command, _ → p.wp logSpec _ _ s'.answers
        rw [hs]
        exact hwp

/-- The request thread goes on with a request. -/
theorem handling (h : Conversing ls c) {l : Lab} {root : Json} {p : Dap Bool} {s' : Server}
    (hopened : s'.Opened) (hserving : s'.mode = .serving) {before : List Json}
    {log : List Response} (hbefore : requests (ls ++ [l]) = before ++ [root])
    (hlog : List.Forall₂ AnswersTo before log) (hgrows : log <+: s'.answers)
    (hwp : ∀ seq command, Server.IsRequest root seq command →
      p.wp logSpec (fun _ l => Answered seq command log l) (fun _ _ => False) s'.answers) :
    Conversing (ls ++ [l]) (c.set .request s' (some (.request root, p))) := by
  have others {u : Tid} (hu : u ≠ .request) :
      (c.set .request s' (some (.request root, p))).threads u = c.threads u :=
    Config.set_threads_of_ne _ hu _ _
  refine ⟨hopened, fun u j q hu hj => ?_, fun u root' q hu => ?_, fun hb => ?_,
    fun root' q hq => ?_⟩
  · by_cases hut : u = .request
    · subst hut
      rw [Config.set_threads_self] at hu
      cases hu
      exact absurd rfl (hj root)
    · exact h.answerFree u j q ((others hut).symm.trans hu) hj
  · by_contra hut
    exact hut (h.onRequest u root' q ((others hut).symm.trans hu))
  · exact absurd (Config.set_threads_self ..) (hb root _)
  · rw [Config.set_threads_self] at hq
    cases hq
    exact ⟨hserving, before, log, hbefore, hlog, hgrows, hwp⟩

theorem started (h : Conversing ls c) {t : Tid} {j : Job} {s' : Server}
    (idle : c.threads t = none) (hstart : Server.startJob t j c.state = some s') :
    Conversing (ls ++ [.start t j]) (c.set t s' (some (j, j.body))) := by
  have hthread := Server.startJob_thread hstart
  have hsent : s'.answers = c.state.answers := by
    rw [Server.answers, Server.answers, (startJob_members hstart).2.2]
  obtain ⟨hopened, hmode⟩ := startJob_opened h.opened hstart
  have hcur (root : Json) (p : Dap Bool) : c.threads t ≠ some (.request root, p) := by
    rw [idle]
    rintro ⟨⟩
  by_cases hj : ∃ root, j = .request root
  · obtain ⟨root, rfl⟩ := hj
    obtain rfl : t = .request := hthread
    have hserving : s'.mode = .serving := by
      unfold Server.startJob at hstart
      dsimp only at hstart
      split at hstart
      · rename_i hc
        cases hstart
        exact hc.1
      · cases hstart
    have hbefore : requests (ls ++ [.start .request (.request root)]) = requests ls ++ [root] :=
      List.filterMap_append
    refine h.handling hopened hserving hbefore (h.between hcur) ?_ fun seq command hr => ?_
    · exact ⟨[], by rw [List.append_nil, hsent]⟩
    · rw [hsent]
      exact Server.handleRequest_answers hr _
  · have hj (root : Json) : j ≠ .request root := fun h => hj ⟨root, h⟩
    refine h.aside ?_ hsent hmode hopened hcur ?_
    · rw [requests, List.filterMap_append]
      cases j with
      | request root => exact absurd rfl (hj root)
      | _ => exact List.append_nil _
    · rintro j' p ⟨⟩
      exact ⟨hj, Job.body_answerFree hj⟩

theorem performed (h : Conversing ls c) {t : Tid} {j : Job} {s' : Server} {β : Type} {o : DapOp β}
    {k : β → Dap Bool} {b : β} (busy : c.threads t = some (j, .op o k))
    (hsem : sem t β o c.state b s') :
    Conversing (ls ++ [.op t ⟨o, b⟩]) (c.set t s' (some (j, k b))) := by
  obtain ⟨hanswers, hopen⟩ := sem_answers hsem
  have hmode := sem_mode hsem
  have hopened : s'.Opened := by
    intro hm
    rw [hopen]
    exact h.opened (hmode.symm.trans hm)
  have hl : requests (ls ++ [.op t ⟨o, b⟩]) = requests ls := by
    rw [requests, List.filterMap_append]
    exact List.append_nil _
  by_cases hj : ∃ root, j = .request root
  · obtain ⟨root, rfl⟩ := hj
    obtain rfl := h.onRequest t root _ busy
    obtain ⟨hserving, before, log, hbefore, hlog, hgrows, hwp⟩ := h.during root _ busy
    rw [h.opened hserving, if_pos rfl] at hanswers
    refine h.handling hopened (hmode.trans hserving) (hl.trans hbefore) hlog ?_
      fun seq command hr => ?_
    · rw [hanswers]
      exact hgrows.trans (List.prefix_append _ _)
    · rw [hanswers]
      exact (logSpec_pre o _ _).1 (hwp seq command hr) b
  · have hj (root : Json) : j ≠ .request root := fun h => hj ⟨root, h⟩
    have hsilent := h.answerFree t j _ busy hj
    refine h.aside hl ?_ (fun _ => hmode) hopened (fun root p hp => ?_) ?_
    · rw [hanswers, hsilent.1, ite_self, List.append_nil]
    · cases busy.symm.trans hp
      exact hj root rfl
    · rintro j' p ⟨⟩
      exact ⟨hj, hsilent.2 b⟩

theorem finished (h : Conversing ls c) {t : Tid} {j : Job} {p : Dap Bool} {r : Except Exn Bool}
    {s' : Server} (hroots : ∀ root ∈ requests ls, ∃ seq command, Server.IsRequest root seq command)
    (busy : c.threads t = some (j, p)) (hr : p.outcome? = some r)
    (hfinish : Server.finishJob j r c.state = some s') :
    Conversing (ls ++ [.finish t j r]) (c.set t s' none) := by
  obtain ⟨hopened, hmode⟩ := finishJob_opened h.opened hfinish
  have hsent : s'.answers = c.state.answers := by
    rw [Server.answers, Server.answers, (finishJob_members hfinish).2.2]
  have hl : requests (ls ++ [.finish t j r]) = requests ls := by
    rw [requests, List.filterMap_append]
    exact List.append_nil _
  by_cases hj : ∃ root, j = .request root
  · obtain ⟨root, rfl⟩ := hj
    obtain rfl := h.onRequest t root _ busy
    obtain ⟨-, before, log, hbefore, hlog, -, hwp⟩ := h.during root _ busy
    obtain ⟨seq, command, hrequest⟩ := hroots root (by rw [hbefore]; simp)
    have hdone : Answered seq command log c.state.answers := by
      cases p with
      | ret a => exact hwp seq command hrequest
      | throw e => exact (hwp seq command hrequest).elim
      | op o k => cases hr
    have others {u : Tid} (hu : u ≠ .request) :
        (c.set .request s' none).threads u = c.threads u := Config.set_threads_of_ne _ hu _ _
    refine ⟨hopened, fun u j q hu hj => ?_, fun u root' q hu => ?_, fun _ => ?_,
      fun root' q hq => ?_⟩
    · by_cases hut : u = .request
      · subst hut
        rw [Config.set_threads_self] at hu
        cases hu
      · exact h.answerFree u j q ((others hut).symm.trans hu) hj
    · by_cases hut : u = .request
      · exact hut
      · exact h.onRequest u root' q ((others hut).symm.trans hu)
    · obtain ⟨response, hanswers, hseq, hcommand⟩ := hdone
      rw [hl, hbefore]
      change List.Forall₂ AnswersTo (before ++ [root]) s'.answers
      rw [hsent, hanswers]
      refine List.rel_append hlog (.cons ?_ .nil)
      rw [AnswersTo, hseq, hcommand]
      exact hrequest
    · rw [Config.set_threads_self] at hq
      cases hq
  · have hj (root : Json) : j ≠ .request root := fun h => hj ⟨root, h⟩
    refine h.aside hl hsent (fun _ => hmode hj) hopened (fun root q hq => ?_) (by rintro _ _ ⟨⟩)
    cases busy.symm.trans hq
    exact hj root rfl

end Conversing

/-- The conversation, from the first message on. -/
theorem conversing_of_run {fullPath : String → String} {ls : List Lab} {c : Conf}
    (hr : adapter.system.Run (.init { fullPath }) ls c)
    (hroots : ∀ root ∈ requests ls, ∃ seq command, Server.IsRequest root seq command) :
    Conversing ls c := by
  induction hr with
  | nil =>
    exact ⟨fun _ => rfl, by rintro t j p ⟨⟩, by rintro t root p ⟨⟩, fun _ => .nil,
      by rintro root p ⟨⟩⟩
  | @snoc c₁ c₂ ls l _ hs ih =>
    have hbefore (root : Json) (h : root ∈ requests ls) :
        ∃ seq command, Server.IsRequest root seq command := by
      refine hroots root ?_
      rw [requests, List.filterMap_append]
      exact List.mem_append_left _ h
    have h := ih hbefore
    cases hs with
    | start idle hstart => exact h.started idle hstart
    | op busy hsem => exact h.performed busy hsem
    | finish busy hout hfinish => exact h.finished hbefore busy hout hfinish

/-- **The conversation**: along every run in which the client sends well-formed requests, the
responses answer the requests in the order in which they were taken, each once; only the request
that is being handled may still be without its response. -/
theorem conversation {fullPath : String → String} {ls : List Lab} {c : Conf}
    (hr : adapter.system.Run (.init { fullPath }) ls c)
    (hroots : ∀ root ∈ requests ls, ∃ seq command, Server.IsRequest root seq command) :
    ∃ answered unanswered, requests ls = answered ++ unanswered ∧
      List.Forall₂ AnswersTo answered c.state.answers ∧ unanswered.length ≤ 1 ∧
        (c.threads .request = none → unanswered = []) := by
  have h := conversing_of_run hr hroots
  by_cases hb : ∃ root p, c.threads .request = some (.request root, p)
  · obtain ⟨root, p, busy⟩ := hb
    obtain ⟨-, before, log, hbefore, hlog, hgrows, hwp⟩ := h.during root p busy
    obtain ⟨seq, command, hrequest⟩ := hroots root (by rw [hbefore]; simp)
    have hidle (h : c.threads .request = none) : [root] = [] := by
      rw [busy] at h
      cases h
    rcases answered_of_wp (hwp seq command hrequest) hgrows with heq | ⟨response, heq, hseq, hcom⟩
    · exact ⟨before, [root], hbefore, heq ▸ hlog, le_refl 1, hidle⟩
    · refine ⟨before ++ [root], [], by rw [hbefore, List.append_nil], ?_, Nat.zero_le _,
        fun _ => rfl⟩
      rw [heq]
      refine List.rel_append hlog (.cons ?_ .nil)
      rw [AnswersTo, hseq, hcom]
      exact hrequest
  · refine ⟨requests ls, [], (List.append_nil _).symm, h.between fun root p hp => ?_,
      Nat.zero_le _, fun _ => rfl⟩
    exact hb ⟨root, p, hp⟩

theorem message_isRequest {seq : Int} {command : String} (arguments : List (String × Json))
    (hrange : -2 ^ 31 ≤ seq ∧ seq < 2 ^ 31) (hnamed : command ≠ "") :
    Server.IsRequest (Schedule.message seq command arguments) seq command :=
  ⟨rfl, rfl, hrange, rfl, hnamed⟩

/-- A target is launched and let run; the engine reports a thread while the first request is being
handled. -/
def Schedule.converse : Schedule :=
  Schedule.launch ++ Schedule.serve (Schedule.message 2 "configurationDone")

theorem conversation_launched : ∃ (ls : List Lab) (c : Conf),
    adapter.system.Run (.init {}) ls c ∧ (requests ls).length = 2 ∧
      ∃ answered unanswered, requests ls = answered ++ unanswered ∧
        List.Forall₂ AnswersTo answered c.state.answers ∧ unanswered.length ≤ 1 ∧
          (c.threads .request = none → unanswered = []) := by
  obtain ⟨c, hc⟩ : ∃ c, adapter.exec Schedule.converse (.init {}) = some c :=
    Option.isSome_iff_exists.1 (by decide +kernel)
  obtain ⟨ls, hr, hbegins⟩ := Machine.exec_begins hc
  have htaken : requests ls = [Schedule.message 1 "launch" [("program", .str "a.exe")],
      Schedule.message 2 "configurationDone"] := by
    rw [requests, ← List.filterMap_filterMap, hbegins]
    rfl
  refine ⟨ls, c, hr, by rw [htaken]; rfl, @conversation _ ls c hr ?_⟩
  rw [htaken]
  refine List.forall_mem_cons.2 ⟨⟨1, "launch", ?_⟩, List.forall_mem_singleton.2
    ⟨2, "configurationDone", ?_⟩⟩
  · exact message_isRequest _ (by decide) (by decide)
  · exact message_isRequest _ (by decide) (by decide)

end DapDbgeng
