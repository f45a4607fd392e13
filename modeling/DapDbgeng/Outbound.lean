/-
  The outbound path: any thread enqueues messages, one thread writes them.

  `send` pushes onto a queue; `writer_loop` pops, assigns the wire sequence, shows the message to
  the trace recorder and writes its frame; the end of `run` closes the queue and waits for the
  writer.

  * `Outbound.Run`: the interleavings of the senders, the writer and the close;
  * `Outbound.Delivered`: the wire carries the accepted messages, numbered from one;
  * `Outbound.delivered`: it does while the number fits the writer's counter.
-/
import DapDbgeng.Writer
import DapDbgeng.Concurrent.Channel
import Mathlib.Logic.Function.Iterate

namespace DapDbgeng

open Concurrent Wire

/-! ## The threads -/

/-- Where the writer thread is in its loop. -/
inductive WriterPhase where
  | waiting
  | popped (message : Members)
  | recorded (message : Members)
  | finished
  /-- An exception left the thread. -/
  | terminated

/-- The message in the writer's hands. -/
def WriterPhase.held : WriterPhase → List Members
  | .popped m | .recorded m => [m]
  | _ => []

/-- The message that is recorded, but not yet written. -/
def WriterPhase.logged : WriterPhase → List Members
  | .recorded m => [m]
  | _ => []

structure Outbound where
  channel : Channel Members := {}
  writer : Writer := {}
  /-- The messages shown to the trace recorder, if there is one. -/
  recorder : Option (List Members) := none
  phase : WriterPhase := .waiting

namespace Outbound

variable {ι : Type*}

inductive Label (ι : Type*) where
  | channel (act : Channel.Act ι Members)
  | record
  | write
  | terminate

section

variable (json : JsonLibrary Value)

/-- A step of one of the threads. -/
inductive Step : Outbound → Label ι → Outbound → Prop
  | send {s : Outbound} {t : ι} {m : Members} {c : Channel Members} {ok : Bool}
      (h : s.channel.push m = (c, ok)) :
      Step s (.channel (.push t m ok)) { s with channel := c }
  | close {s : Outbound} : Step s (.channel .close) { s with channel := s.channel.close }
  | pop {s : Outbound} {m : Members} {c : Channel Members} (hphase : s.phase = .waiting)
      (h : s.channel.pop = some (some m, c)) :
      Step s (.channel (.pop (some m))) { s with channel := c, phase := .popped m }
  | drained {s : Outbound} {c : Channel Members} (hphase : s.phase = .waiting)
      (h : s.channel.pop = some (none, c)) :
      Step s (.channel (.pop none)) { s with channel := c, phase := .finished }
  | record {s : Outbound} {m : Members} (hphase : s.phase = .popped m) :
      Step s .record { s with
        recorder := s.recorder.map (· ++ [numbered s.writer m])
        phase := .recorded m }
  | write {s : Outbound} {m : Members} {w : Writer} (hphase : s.phase = .recorded m)
      (h : writeMessage json s.writer m = .ok w) :
      Step s .write { s with writer := w, phase := .waiting }
  | terminate {s : Outbound} {m : Members} {e : String} (hphase : s.phase = .recorded m)
      (h : writeMessage json s.writer m = .error e) :
      Step s .terminate { s with phase := .terminated }

inductive Run : Outbound → List (Label ι) → Outbound → Prop
  | nil (s) : Run s [] s
  | snoc {s s₁ s₂ ls l} : Run s ls s₁ → Step json s₁ l s₂ → Run s (ls ++ [l]) s₂

/-- The transport before its first message, with or without a recorder. -/
def start (recording : Bool) : Outbound := { recorder := if recording then some [] else none }

def Label.act? : Label ι → Option (Channel.Act ι Members)
  | .channel act => some act
  | _ => none

/-- What happened to the queue. -/
def acts (ls : List (Label ι)) : List (Channel.Act ι Members) := ls.filterMap Label.act?

/-- The writer's own steps. -/
def Label.ofWriter : Label ι → Bool
  | .channel (.push _ _ _) | .channel .close => false
  | _ => true

/-! ## What the wire is to carry -/

/-- The messages with the sequence numbers `seq 0, seq 1, …`. -/
def onWire (seq : ℕ → Int) (ms : List Members) : List Members :=
  ms.mapIdx fun k m => setMember seqKey (.int (seq k)) m

def fromOne (k : ℕ) : Int := k + 1

/-- The numbers the writer assigns. -/
def assigned (k : ℕ) : Int := nextInt^[k] 1

/-- The accepted messages are written in the order of their acceptance, each once, numbered from
one; the recorder sees what is written; the close decides what is accepted, and everything
accepted gets written. -/
structure Delivered (ls : List (Label ι)) (s : Outbound) : Prop where
  written : ∃ k ≤ (Channel.accepted (acts ls)).length,
    (onWire fromOne ((Channel.accepted (acts ls)).take k)).mapM (frameMessage json) =
      .ok s.writer.written ∧
    (s.phase = .finished → k = (Channel.accepted (acts ls)).length) ∧
    ∀ log, s.recorder = some log → ∃ j, k ≤ j ∧ j ≤ k + 1 ∧ (s.phase = .finished → j = k) ∧
      log = onWire fromOne ((Channel.accepted (acts ls)).take j)
  opened : .close ∉ acts ls → ∀ t m ok, .push t m ok ∈ acts ls → ok = true
  closed : ∀ before after, acts ls = before ++ .close :: after → .close ∉ before →
    Channel.accepted (acts ls) = Channel.accepted before ∧
      (∀ t m ok, .push t m ok ∈ before → ok = true) ∧
      ∀ t m ok, .push t m ok ∈ after → ok = false
  completes : .close ∈ acts ls → ∃ (ls' : List (Label ι)) (s' : Outbound), Run json s ls' s' ∧
    (∀ l ∈ ls', l.ofWriter = true) ∧ s'.phase = .finished ∧
      (onWire fromOne (Channel.accepted (acts ls))).mapM (frameMessage json) = .ok s'.writer.written

end

/-! ## Sequence numbers -/

theorem nextInt_of_lt {i : Int} (h : 0 ≤ i) (hi : i + 1 < 2 ^ 31) : nextInt i = i + 1 :=
  Int.bmod_eq_of_le (by omega) (by omega)

/-- The counter counts as long as it fits. -/
theorem assigned_eq {k : ℕ} (h : k + 1 < 2 ^ 31) : assigned k = fromOne k := by
  induction k with
  | zero => rfl
  | succ k ih =>
    rw [assigned, Function.iterate_succ_apply', ← assigned, ih (by omega), fromOne,
      nextInt_of_lt (by omega) (by omega), fromOne]
    push_cast
    rfl

theorem onWire_congr {seq seq' : ℕ → Int} {ms : List Members}
    (h : ∀ k < ms.length, seq k = seq' k) : onWire seq ms = onWire seq' ms := by
  refine List.ext_getElem (by simp [onWire]) fun k hk _ => ?_
  rw [onWire, List.length_mapIdx] at hk
  simp [onWire, h k hk]

theorem onWire_snoc (seq : ℕ → Int) (ms : List Members) (m : Members) :
    onWire seq (ms ++ [m]) = onWire seq ms ++ [setMember seqKey (.int (seq ms.length)) m] :=
  List.mapIdx_concat

/-! ## The queue within the transport -/

variable {json : JsonLibrary Value}

theorem acts_snoc (ls : List (Label ι)) (l : Label ι) :
    acts (ls ++ [l]) = acts ls ++ l.act?.toList := by
  rw [acts, List.filterMap_append]
  cases h : l.act? <;> simp [acts, h]

theorem Step.channel {s s' : Outbound} {act : Channel.Act ι Members}
    (h : Step json s (.channel act) s') : Channel.Does s.channel act s'.channel := by
  cases h with
  | send h => exact h
  | close => rfl
  | pop _ h => exact h
  | drained _ h => exact h

theorem Step.channel_eq {s s' : Outbound} {l : Label ι} (h : Step json s l s')
    (hl : l.act? = none) : s'.channel = s.channel := by
  cases h with
  | send | close | pop | drained => cases hl
  | record | write | terminate => rfl

/-- **What the threads do to the queue is a run of the queue.** -/
theorem Run.channel {s s' : Outbound} {ls : List (Label ι)} (h : Run json s ls s') :
    Channel.Run s.channel (acts ls) s'.channel := by
  induction h with
  | nil => exact .nil _
  | @snoc s₁ s₂ ls l _ hstep ih =>
    rw [acts_snoc]
    cases hl : l.act? with
    | none => rwa [Option.toList_none, List.append_nil, hstep.channel_eq hl]
    | some act =>
      cases l with
      | channel act' =>
        cases hl
        exact .snoc ih hstep.channel
      | record | write | terminate => cases hl

/-! ## The writer -/

/-- The sender left the number to the writer, and the message can be serialised. -/
def Sendable (m : Members) : Prop := needsSequence m = true ∧ printable m = true

/-- Only such messages are offered. -/
def AllSendable (ls : List (Label ι)) : Prop :=
  ∀ t m ok, .push t m ok ∈ acts ls → Sendable m

theorem numbered_of_sendable {m : Members} (h : Sendable m) (w : Writer) :
    numbered w m = setMember seqKey (.int w.nextSequence) m := if_pos h.1

theorem writeMessage_ok {m : Members} (h : Sendable m) {w w' : Writer}
    (hw : writeMessage json w m = .ok w') : ∃ framed,
      frameMessage json (setMember seqKey (.int w.nextSequence) m) = .ok framed ∧
        w' = { nextSequence := nextInt w.nextSequence, written := w.written ++ [framed] } := by
  rw [writeMessage, numbered_of_sendable h, if_pos h.1] at hw
  cases hf : frameMessage json (setMember seqKey (.int w.nextSequence) m) with
  | error e => rw [hf] at hw; cases hw
  | ok framed =>
    rw [hf] at hw
    exact ⟨framed, rfl, (Except.ok.inj hw).symm⟩

variable (json) in
/-- The writer has written `done` of the messages it popped, and holds what is behind them. -/
structure WriterAt (recording : Bool) (popped done : List Members) (s : Outbound) : Prop where
  popped_eq : popped = done ++ s.phase.held
  next : s.writer.nextSequence = assigned done.length
  written : (onWire assigned done).mapM (frameMessage json) = .ok s.writer.written
  recorder : s.recorder =
    if recording then some (onWire assigned (done ++ s.phase.logged)) else none
  alive : s.phase ≠ .terminated

theorem writerAt_start (recording : Bool) : WriterAt json recording [] [] (start recording) where
  popped_eq := rfl
  next := rfl
  written := rfl
  recorder := by cases recording <;> rfl
  alive := nofun

/-- The message in the writer's hands is sendable. -/
def Holds (s : Outbound) : Prop := ∀ m ∈ s.phase.held, Sendable m

theorem Step.writerAt (strict : json.Strict) {s s' : Outbound} {l : Label ι}
    (h : Step json s l s') {recording : Bool}
    {popped done : List Members} (hs : WriterAt json recording popped done s) (hm : s.Holds) :
    ∃ done', WriterAt json recording (popped ++ (l.act?.bind Channel.Act.popped?).toList)
      done' s' := by
  cases h with
  | send h =>
    exact ⟨done, (List.append_nil _).trans hs.popped_eq, hs.next, hs.written, hs.recorder, hs.alive⟩
  | close =>
    exact ⟨done, (List.append_nil _).trans hs.popped_eq, hs.next, hs.written, hs.recorder, hs.alive⟩
  | pop hphase h =>
    have hpopped := hs.popped_eq
    have hrecorder := hs.recorder
    rw [hphase] at hpopped hrecorder
    exact ⟨done, by rw [hpopped]; simp [WriterPhase.held, Label.act?, Channel.Act.popped?],
      hs.next, hs.written, hrecorder, by rintro ⟨⟩⟩
  | drained hphase h =>
    have hpopped := hs.popped_eq
    have hrecorder := hs.recorder
    rw [hphase] at hpopped hrecorder
    exact ⟨done, (List.append_nil _).trans hpopped, hs.next, hs.written, hrecorder, by rintro ⟨⟩⟩
  | @record m hphase =>
    have hm : Sendable m := hm m (by rw [hphase]; exact List.mem_singleton.2 rfl)
    refine ⟨done, ?_, hs.next, hs.written, ?_, by rintro ⟨⟩⟩
    · have hpopped := hs.popped_eq
      rw [hphase] at hpopped
      exact (List.append_nil _).trans hpopped
    · rw [hs.recorder, hphase, numbered_of_sendable hm, hs.next]
      cases recording
      · rfl
      · exact congrArg some (by simp only [WriterPhase.logged, List.append_nil, onWire_snoc])
  | @write m w hphase h =>
    have hm : Sendable m := hm m (by rw [hphase]; exact List.mem_singleton.2 rfl)
    obtain ⟨framed, hframed, rfl⟩ := writeMessage_ok hm h
    have hpopped := hs.popped_eq
    have hrecorder := hs.recorder
    rw [hphase] at hpopped hrecorder
    refine ⟨done ++ [m], ?_, ?_, ?_, ?_, by rintro ⟨⟩⟩
    · simpa [Label.act?, WriterPhase.held] using hpopped
    · rw [hs.next, List.length_append, List.length_singleton, assigned, assigned,
        Function.iterate_succ_apply']
    · rw [hs.next] at hframed
      rw [onWire_snoc, List.mapM_append, hs.written, List.mapM_cons, hframed]
      rfl
    · simpa [WriterPhase.logged] using hrecorder
  | @terminate m e hphase h =>
    have hm : Sendable m := hm m (by rw [hphase]; exact List.mem_singleton.2 rfl)
    obtain ⟨framed, n, -, hw⟩ := writeMessage_of_printable strict s.writer hm.2
    rw [hw] at h
    cases h

theorem popped_acts_snoc (ls : List (Label ι)) (l : Label ι) :
    Channel.popped (acts (ls ++ [l])) =
      Channel.popped (acts ls) ++ (l.act?.bind Channel.Act.popped?).toList := by
  rw [acts_snoc]
  cases l.act? with
  | none => exact (congrArg Channel.popped (List.append_nil _)).trans (List.append_nil _).symm
  | some act => exact Channel.popped_snoc (acts ls) act

/-- What was accepted was offered. -/
theorem offered_of_accepted {acts : List (Channel.Act ι Members)} {m : Members}
    (h : m ∈ Channel.accepted acts) : ∃ t, .push t m true ∈ acts := by
  obtain ⟨act, hact, hm⟩ := List.mem_filterMap.1 h
  cases act with
  | push t m' ok =>
    cases ok with
    | true => cases hm; exact ⟨t, hact⟩
    | false => cases hm
  | pop | close => cases hm

variable {recording : Bool} {s : Outbound} {ls : List (Label ι)}

/-- What the writer popped is the first part of what was accepted. -/
theorem Run.fifo (h : Run json (start recording) ls s) :
    Channel.popped (acts ls) ++ s.channel.queue = Channel.accepted (acts ls) :=
  h.channel.fifo

/-- **The writer invariant.** -/
theorem Run.writerAt (strict : json.Strict) (h : Run json (start recording) ls s)
    (hm : AllSendable ls) : ∃ done, WriterAt json recording (Channel.popped (acts ls)) done s := by
  generalize hstart : start recording = s₀ at h
  induction h with
  | nil =>
    subst hstart
    exact ⟨[], writerAt_start recording⟩
  | @snoc s₁ s₂ ls l hrun hstep ih =>
    subst hstart
    have hearlier : AllSendable ls := by
      intro t m ok hmem
      refine hm t m ok ?_
      rw [acts_snoc]
      exact List.mem_append_left _ hmem
    obtain ⟨done, hdone⟩ := ih hearlier
    have hholds : s₁.Holds := by
      intro m hheld
      have hpopped : m ∈ Channel.popped (acts ls) := by
        rw [hdone.popped_eq]
        exact List.mem_append_right _ hheld
      have haccepted : m ∈ Channel.accepted (acts ls) := by
        rw [← hrun.fifo]
        exact List.mem_append_left _ hpopped
      obtain ⟨t, hmem⟩ := offered_of_accepted haccepted
      exact hearlier t m true hmem
    rw [popped_acts_snoc]
    exact hstep.writerAt strict hdone hholds

theorem Run.finished (h : Run json (start recording) ls s) (hs : s.phase = .finished) :
    .pop none ∈ acts ls := by
  generalize hstart : start recording = s₀ at h
  induction h with
  | nil =>
    subst hstart
    cases hs
  | @snoc s₁ s₂ ls l _ hstep ih =>
    rw [acts_snoc]
    cases hstep with
    | send | close => exact List.mem_append_left _ (ih hs)
    | drained => exact List.mem_append_right _ (List.mem_singleton.2 rfl)
    | pop | record | write | terminate => cases hs

/-! ## What the writer still does -/

theorem Run.trans {s s' s'' : Outbound} {ls ls' : List (Label ι)} (h : Run json s ls s')
    (h' : Run json s' ls' s'') : Run json s (ls ++ ls') s'' := by
  induction h' with
  | nil => rwa [List.append_nil]
  | snoc _ hstep ih => rw [← List.append_assoc]; exact .snoc ih hstep

theorem Run.single {s s' : Outbound} {l : Label ι} (h : Step json s l s') : Run json s [l] s' :=
  @Run.snoc _ _ _ _ _ [] _ (.nil s) h

variable (json) in
/-- The writer's own steps, one after the other. -/
def WriterRun (ι : Type*) (s s' : Outbound) : Prop :=
  ∃ ls : List (Label ι), Run json s ls s' ∧ ∀ l ∈ ls, l.ofWriter = true

theorem WriterRun.trans {s s' s'' : Outbound} (h : WriterRun json ι s s')
    (h' : WriterRun json ι s' s'') : WriterRun json ι s s'' := by
  obtain ⟨ls, hrun, hls⟩ := h
  obtain ⟨ls', hrun', hls'⟩ := h'
  refine ⟨ls ++ ls', hrun.trans hrun', fun l hl => ?_⟩
  exact (List.mem_append.1 hl).elim (hls l) (hls' l)

theorem WriterRun.single {s s' : Outbound} {l : Label ι} (h : Step json s l s')
    (hl : l.ofWriter = true) : WriterRun json ι s s' :=
  ⟨[l], .single h, fun l' hl' => by rwa [List.mem_singleton.1 hl']⟩

/-- The message in the writer's hands gets written. -/
theorem settles (strict : json.Strict) (s : Outbound) (hm : s.Holds)
    (halive : s.phase ≠ .terminated) (hfinished : s.phase ≠ .finished) :
    ∃ s', WriterRun json ι s s' ∧ s'.phase = .waiting ∧ s'.channel = s.channel := by
  have write (s : Outbound) (m : Members) (hphase : s.phase = .recorded m) (hm : Sendable m) :
      ∃ s', WriterRun json ι s s' ∧ s'.phase = .waiting ∧ s'.channel = s.channel := by
    obtain ⟨framed, n, -, hw⟩ := writeMessage_of_printable strict s.writer hm.2
    exact ⟨_, .single (.write hphase hw) rfl, rfl, rfl⟩
  cases hphase : s.phase with
  | waiting => exact ⟨s, ⟨[], .nil s, fun _ hl => absurd hl List.not_mem_nil⟩, hphase, rfl⟩
  | popped m =>
    have hm : Sendable m := hm m (by rw [hphase]; exact List.mem_singleton.2 rfl)
    obtain ⟨s', hrun, hwaiting, hchannel⟩ := write { s with
      recorder := s.recorder.map (· ++ [numbered s.writer m])
      phase := .recorded m } m rfl hm
    exact ⟨s', (WriterRun.single (.record hphase) rfl).trans hrun, hwaiting, hchannel⟩
  | recorded m => exact write s m hphase (hm m (by rw [hphase]; exact List.mem_singleton.2 rfl))
  | finished => exact absurd hphase hfinished
  | terminated => exact absurd hphase halive

/-- **A closed queue is written to its end**, by the writer alone. -/
theorem drains (strict : json.Strict) (s : Outbound) (hclosed : s.channel.closed = true)
    (hqueue : ∀ m ∈ s.channel.queue, Sendable m) (hm : s.Holds) (halive : s.phase ≠ .terminated)
    (hend : s.phase = .finished → s.channel.queue = []) :
    ∃ s', WriterRun json ι s s' ∧ s'.phase = .finished := by
  generalize hq : s.channel.queue = queue at hqueue
  induction queue generalizing s with
  | nil =>
    by_cases hfinished : s.phase = .finished
    · exact ⟨s, ⟨[], .nil s, fun _ hl => absurd hl List.not_mem_nil⟩, hfinished⟩
    · obtain ⟨s₁, hrun, hwaiting, hchannel⟩ := settles (ι := ι) strict s hm halive hfinished
      have hpop : s₁.channel.pop = some (none, s₁.channel) := by
        rw [Channel.pop, hchannel, hq]
        exact if_pos hclosed
      exact ⟨_, hrun.trans (.single (.drained hwaiting hpop) rfl), rfl⟩
  | cons m queue ih =>
    obtain ⟨hm₁, hqueue⟩ := List.forall_mem_cons.1 hqueue
    have hfinished : s.phase ≠ .finished := by
      intro h
      rw [hend h] at hq
      cases hq
    obtain ⟨s₁, hrun, hwaiting, hchannel⟩ := settles (ι := ι) strict s hm halive hfinished
    have hpop : s₁.channel.pop = some (some m, { s₁.channel with queue }) := by
      rw [Channel.pop, hchannel, hq]
    have hholds : Holds { s₁ with
        channel := { s₁.channel with queue }
        phase := .popped m } := by
      intro m' hmem
      rwa [List.mem_singleton.1 hmem]
    obtain ⟨s₂, hrest, hdone⟩ := ih { s₁ with
      channel := { s₁.channel with queue }
      phase := .popped m } (by rwa [hchannel]) hholds (by rintro ⟨⟩) (by rintro ⟨⟩) rfl hqueue
    exact ⟨s₂, hrun.trans ((WriterRun.single (.pop hwaiting hpop) rfl).trans hrest), hdone⟩

/-- The writer offers nothing. -/
theorem acts_ofWriter {ls : List (Label ι)} (h : ∀ l ∈ ls, l.ofWriter = true) :
    Channel.accepted (acts ls) = [] ∧ ∀ t m ok, .push t m ok ∉ acts ls := by
  have hnone : ∀ t m ok, .push t m ok ∉ acts ls := by
    intro t m ok hmem
    obtain ⟨l, hl, hact⟩ := List.mem_filterMap.1 hmem
    have hwriter := h l hl
    cases l with
    | channel act =>
      cases hact
      cases hwriter
    | record | write | terminate => cases hact
  refine ⟨List.eq_nil_iff_forall_not_mem.2 fun m hm => ?_, hnone⟩
  obtain ⟨t, hmem⟩ := offered_of_accepted hm
  exact hnone t m true hmem

theorem acts_append (ls ls' : List (Label ι)) : acts (ls ++ ls') = acts ls ++ acts ls' :=
  List.filterMap_append

/-! ## Delivery -/

/-- What the writer assigned, while the counter fits, is the position of the message. -/
theorem onWire_assigned {ms : List Members} (h : ms.length < 2 ^ 31) :
    onWire assigned ms = onWire fromOne ms :=
  onWire_congr fun _ hk => assigned_eq (by omega)

/-- The written messages, once the writer is finished, are all that were accepted. -/
theorem Run.all_written (strict : json.Strict) (h : Run json (start recording) ls s)
    (hm : AllSendable ls) (hs : s.phase = .finished) :
    (onWire assigned (Channel.accepted (acts ls))).mapM (frameMessage json) =
      .ok s.writer.written := by
  obtain ⟨done, hdone⟩ := h.writerAt strict hm
  have hpopped : Channel.popped (acts ls) = done := by
    simpa [hs, WriterPhase.held] using hdone.popped_eq
  have hqueue := (h.channel.drained (h.finished hs)).2
  rw [← h.fifo, hqueue, List.append_nil, hpopped]
  exact hdone.written

/-- The same after the writer's own steps. -/
theorem Run.written_after (strict : json.Strict) (h : Run json (start recording) ls s)
    (hm : AllSendable ls) {ls' : List (Label ι)} {s' : Outbound} (hrun : Run json s ls' s')
    (hwriter : ∀ l ∈ ls', l.ofWriter = true) (hs' : s'.phase = .finished) :
    (onWire assigned (Channel.accepted (acts ls))).mapM (frameMessage json) =
      .ok s'.writer.written := by
  obtain ⟨hnone, hno⟩ := acts_ofWriter hwriter
  have hm' : AllSendable (ls ++ ls') := by
    intro t m ok hmem
    rw [acts_append] at hmem
    exact (List.mem_append.1 hmem).elim (hm t m ok) fun hmem => absurd hmem (hno t m ok)
  have haccepted : Channel.accepted (acts (ls ++ ls')) = Channel.accepted (acts ls) := by
    rw [acts_append, Channel.accepted, List.filterMap_append]
    exact (congrArg (Channel.accepted (acts ls) ++ ·) hnone).trans (List.append_nil _)
  rw [← haccepted]
  exact (h.trans hrun).all_written strict hm' hs'

/-- **Everything accepted is delivered, in order and numbered from one**, in every run that accepts
fewer messages than the counter has positive numbers. -/
theorem delivered (strict : json.Strict) (h : Run json (start recording) ls s) (hm : AllSendable ls)
    (hfit : (Channel.accepted (acts ls)).length < 2 ^ 31) : Delivered json ls s where
  written := by
    obtain ⟨done, hdone⟩ := h.writerAt strict hm
    have haccepted : done ++ (s.phase.held ++ s.channel.queue) = Channel.accepted (acts ls) := by
      rw [← h.fifo, hdone.popped_eq, List.append_assoc]
    have hprefix : done <+: Channel.accepted (acts ls) := ⟨_, haccepted⟩
    have hall : s.phase = .finished → done.length = (Channel.accepted (acts ls)).length := by
      intro hs
      have hqueue := (h.channel.drained (h.finished hs)).2
      rw [← haccepted, hs, hqueue]
      simp [WriterPhase.held]
    have htake {ms : List Members} (hms : ms <+: Channel.accepted (acts ls)) :
        onWire assigned ms = onWire fromOne ((Channel.accepted (acts ls)).take ms.length) := by
      rw [← List.prefix_iff_eq_take.1 hms, onWire_assigned (Nat.lt_of_le_of_lt hms.length_le hfit)]
    refine ⟨done.length, hprefix.length_le, ?_, hall, fun log hlog => ?_⟩
    · rw [← htake hprefix]
      exact hdone.written
    · have hrecorder := hdone.recorder
      rw [hlog] at hrecorder
      split at hrecorder
      · have hlogged : done ++ s.phase.logged <+: Channel.accepted (acts ls) := by
          rw [← haccepted]
          refine (List.prefix_append_right_inj done).2 ?_
          cases s.phase with
          | recorded m => exact List.prefix_append _ _
          | waiting | popped | finished | terminated => exact List.nil_prefix
        refine ⟨(done ++ s.phase.logged).length, ?_, ?_, fun hs => ?_, ?_⟩
        · simp
        · cases s.phase <;> simp [WriterPhase.logged]
        · simp [hs, WriterPhase.logged]
        · rw [← htake hlogged]
          exact Option.some.inj hrecorder
      · cases hrecorder
  opened := by
    intro hopen
    refine h.channel.accepts ?_
    rw [← Bool.not_eq_true, h.channel.closed_iff, not_or]
    exact ⟨nofun, hopen⟩
  closed := by
    intro before after hacts hfirst
    have hrun := h.channel
    rw [hacts] at hrun ⊢
    exact hrun.around_close hfirst rfl
  completes := by
    intro hclose
    obtain ⟨done, hdone⟩ := h.writerAt strict hm
    have hsendable : ∀ m ∈ Channel.accepted (acts ls), Sendable m := by
      intro m hmem
      obtain ⟨t, hoffered⟩ := offered_of_accepted hmem
      exact hm t m true hoffered
    have haccepted : done ++ (s.phase.held ++ s.channel.queue) = Channel.accepted (acts ls) := by
      rw [← h.fifo, hdone.popped_eq, List.append_assoc]
    have hrest : ∀ m ∈ s.phase.held ++ s.channel.queue, Sendable m := by
      intro m hmem
      refine hsendable m ?_
      rw [← haccepted]
      exact List.mem_append_right _ hmem
    obtain ⟨s', ⟨ls', hrun, hwriter⟩, hs'⟩ := drains (ι := ι) strict s
      (h.channel.closed_iff.2 (.inr hclose)) (fun m hmem => hrest m (List.mem_append_right _ hmem))
      (fun m hmem => hrest m (List.mem_append_left _ hmem)) hdone.alive
      fun hs => (h.channel.drained (h.finished hs)).2
    refine ⟨ls', s', hrun, hwriter, hs', ?_⟩
    rw [← onWire_assigned hfit]
    exact h.written_after strict hm hrun hwriter hs'

end Outbound

/-! ## Numbers on the wire -/

/-- What is assumed of the library on a message, whichever number the writer gives it: parsing its
text gives the numbered message back. -/
def ReadsBack (json : JsonLibrary Value) (m : Members) : Prop :=
  ∀ i : Int, -2 ^ 63 ≤ i → i < 2 ^ 63 →
    ∀ body, json.dump (.obj (setMember seqKey (.int i) m)) = .ok body →
      json.parse body = .ok (.obj (setMember seqKey (.int i) m))

theorem mem_insertMember (key : Bytes) (v : Value) (m : Bytes × Value) (ms : Members) :
    m ∈ insertMember key v ms ↔ m = (key, v) ∨ m ∈ ms := by
  induction ms with
  | nil => simp [insertMember]
  | cons m' ms ih =>
    rw [insertMember]
    split
    · simp
    · simp only [List.mem_cons, ih]
      exact or_left_comm

/-- The message has its new number and no other. -/
theorem mem_setMember (key : Bytes) (v v' : Value) (ms : Members) :
    (key, v') ∈ setMember key v ms ↔ v' = v := by
  rw [setMember]
  split
  · rename_i hany
    obtain ⟨m, hm, hkey⟩ := List.any_eq_true.1 hany
    rw [List.mem_map]
    constructor
    · rintro ⟨m', -, heq⟩
      split at heq
      · exact (Prod.mk.inj heq).2.symm
      · rename_i hne
        exact absurd (congrArg Prod.fst heq) hne
    · rintro rfl
      exact ⟨m, hm, if_pos (of_decide_eq_true hkey)⟩
  · rename_i hnone
    rw [mem_insertMember]
    constructor
    · rintro (heq | hmem)
      · exact (Prod.mk.inj heq).2
      · exact absurd (List.any_eq_true.2 ⟨_, hmem, decide_eq_true rfl⟩) hnone
    · exact fun h => .inl (congrArg (Prod.mk key) h)

theorem setMember_injective {key : Bytes} {i j : Int} {ms : Members}
    (h : setMember key (.int i) ms = setMember key (.int j) ms) : i = j := by
  have hmem := (mem_setMember key (.int i) (.int i) ms).2 rfl
  rw [h, mem_setMember] at hmem
  exact Value.int.inj hmem

theorem frame_injective {body body' : Bytes} (h : frame body = frame body') : body = body' := by
  have hread := readHeader_frame body.length body
  rw [← JsonLibrary.frame_eq, h, JsonLibrary.frame_eq, readHeader_frame] at hread
  exact (Prod.mk.inj (Option.some.inj (Except.ok.inj hread))).2.symm

theorem frameMessage_ok {μ : Type} {json : JsonLibrary μ} {m : μ} {framed : Bytes}
    (h : json.frameMessage m = .ok framed) :
    ∃ body, json.dump m = .ok body ∧ framed = frame body := by
  rw [JsonLibrary.frameMessage] at h
  cases hbody : json.dump m with
  | error => rw [hbody] at h; cases h
  | ok body =>
    rw [hbody] at h
    exact ⟨body, rfl, (Except.ok.inj h).symm⟩

/-- **Another number makes another frame.** -/
theorem frame_numbers_ne {json : JsonLibrary Value} {m : Members} (hreads : ReadsBack json m)
    {i j : Int} (hi : -2 ^ 63 ≤ i ∧ i < 2 ^ 63) (hj : -2 ^ 63 ≤ j ∧ j < 2 ^ 63) (hne : i ≠ j)
    {framed framed' : Bytes}
    (h : frameMessage json (setMember seqKey (.int i) m) = .ok framed)
    (h' : frameMessage json (setMember seqKey (.int j) m) = .ok framed') :
    framed ≠ framed' := by
  obtain ⟨body, hbody, rfl⟩ := frameMessage_ok h
  obtain ⟨body', hbody', rfl⟩ := frameMessage_ok h'
  intro heq
  obtain rfl := frame_injective heq
  have hsame := (hreads i hi.1 hi.2 body hbody).symm.trans (hreads j hj.1 hj.2 body hbody')
  exact hne (setMember_injective (Value.obj.inj (Except.ok.inj hsame)))

namespace Outbound

variable {json : JsonLibrary Value} {ι : Type*} {recording : Bool} {s : Outbound}
  {ls : List (Label ι)}

theorem assigned_last : assigned (2 ^ 31 - 1) = -2 ^ 31 := by
  have hlast : assigned (2 ^ 31 - 2) = 2 ^ 31 - 1 := by
    rw [assigned_eq (by omega), fromOne]
    decide
  have hsucc : (2 ^ 31 - 1 : ℕ) = 2 ^ 31 - 2 + 1 := by decide
  rw [hsucc, assigned, Function.iterate_succ_apply', ← assigned, hlast]
  decide

theorem mapM_getElem {ms : List Members} {frames : List Bytes}
    (h : ms.mapM (frameMessage json) = .ok frames) (k : ℕ) (hk : k < ms.length) :
    ∃ framed, frames[k]? = some framed ∧ frameMessage json ms[k] = .ok framed := by
  induction ms generalizing frames k with
  | nil => exact absurd hk (Nat.not_lt_zero k)
  | cons m ms ih =>
    rw [List.mapM_cons] at h
    cases hm : frameMessage json m with
    | error => rw [hm] at h; cases h
    | ok framed =>
      cases hms : ms.mapM (frameMessage json) with
      | error => rw [hm, hms] at h; cases h
      | ok rest =>
        rw [hm, hms] at h
        cases h
        cases k with
        | zero => exact ⟨framed, rfl, hm⟩
        | succ k => exact ih hms k (Nat.lt_of_succ_lt_succ hk)

/-- The message that overflows the counter goes out with a wrong number. -/
theorem fits_of_delivered (strict : json.Strict) (h : Run json (start recording) ls s)
    (hm : AllSendable ls) (hclose : .close ∈ acts ls)
    (hreads : ∀ m ∈ Channel.accepted (acts ls), ReadsBack json m) (hs : Delivered json ls s) :
    (Channel.accepted (acts ls)).length < 2 ^ 31 := by
  have differ (k : ℕ) (hk : k < (Channel.accepted (acts ls)).length)
      (hassigned : assigned k = -2 ^ 31) (hfrom : fromOne k = 2 ^ 31) : False := by
    obtain ⟨ls', s', hrun, hwriter, hs', hone⟩ := hs.completes hclose
    have hwritten := h.written_after strict hm hrun hwriter hs'
    obtain ⟨framed, hframed, hgood⟩ := mapM_getElem hone k (by simpa [onWire] using hk)
    obtain ⟨framed', hframed', hbad⟩ := mapM_getElem hwritten k (by simpa [onWire] using hk)
    simp only [onWire, List.getElem_mapIdx, hassigned, hfrom] at hgood hbad
    exact frame_numbers_ne (hreads _ (List.getElem_mem hk)) (by decide) (by decide) (by decide)
      hgood hbad (Option.some.inj (hframed.symm.trans hframed'))
  by_contra hlong
  exact differ (2 ^ 31 - 1) (by omega) assigned_last (by rw [fromOne]; decide)

/-- **When the outbound path keeps its promise**: in every run that accepts fewer than `2 ^ 31`
messages, and in no run that accepts more and closes the queue. -/
theorem delivered_iff (strict : json.Strict) (h : Run json (start recording) ls s)
    (hm : AllSendable ls) :
    ((Channel.accepted (acts ls)).length < 2 ^ 31 → Delivered json ls s) ∧
      (.close ∈ acts ls → (∀ m ∈ Channel.accepted (acts ls), ReadsBack json m) →
        (Delivered json ls s ↔ (Channel.accepted (acts ls)).length < 2 ^ 31)) :=
  ⟨delivered strict h hm, fun hclose hreads =>
    ⟨fits_of_delivered strict h hm hclose hreads, delivered strict h hm⟩⟩

/-! ## Runs of the senders -/

/-- A thread sends messages, one after the other. -/
def sends (t : ι) (ms : List Members) : List (Label ι) :=
  ms.map fun m => .channel (.push t m true)

theorem acts_sends (t : ι) (ms : List Members) :
    acts (sends t ms) = ms.map fun m => .push t m true := by
  induction ms with
  | nil => rfl
  | cons m ms ih => exact congrArg (Channel.Act.push t m true :: ·) ih

theorem run_sends (recording : Bool) (t : ι) (ms : List Members) :
    Run json (start recording) (sends t ms)
      { start recording with channel := { queue := ms } } := by
  induction ms using List.reverseRecOn with
  | nil => exact .nil _
  | append_singleton ms m ih =>
    rw [sends, List.map_append]
    exact .snoc ih (.send rfl)

theorem accepted_sends (t : ι) (ms : List Members) :
    Channel.accepted (acts (sends t ms ++ [.channel .close])) = ms := by
  rw [acts_append, acts_sends, Channel.accepted, List.filterMap_append, List.filterMap_map]
  exact (List.append_nil _).trans (List.filterMap_some)

theorem sendable_empty : Sendable [] := ⟨rfl, rfl⟩

theorem readsBack_empty : ReadsBack valueLibrary [] := by
  intro i hlow hhigh body hbody
  rw [Except.ok.inj (hbody.symm.trans (dump_numbered i))]
  exact parseNumbered_text hlow hhigh

theorem allSendable_sends (t : ι) (n : ℕ) :
    AllSendable (sends t (List.replicate n []) ++ [.channel .close]) := by
  intro t' m ok hmem
  rw [acts_append, acts_sends, List.mem_append, List.mem_map] at hmem
  rcases hmem with ⟨m', hm', heq⟩ | hmem
  · cases heq
    rw [List.eq_of_mem_replicate hm']
    exact sendable_empty
  · cases List.mem_singleton.1 hmem

theorem run_sends_close (recording : Bool) (t : ι) (ms : List Members) :
    ∃ s, Run json (start recording) (sends t ms ++ [.channel .close]) s :=
  ⟨_, .snoc (run_sends recording t ms) .close⟩

/-- Two messages are delivered. -/
theorem two_delivered : ∃ (ls : List (Label Unit)) (s : Outbound),
    Run valueLibrary (start true) ls s ∧ Channel.accepted (acts ls) = [[], []] ∧
      Delivered valueLibrary ls s := by
  obtain ⟨s, h⟩ := run_sends_close true () [[], []]
  have hlength := accepted_sends () [[], ([] : Members)]
  exact ⟨_, s, h, hlength,
    (delivered_iff valueLibrary_strict h (allSendable_sends () 2)).1 (by rw [hlength]; decide)⟩

/-- The counter overflows with the message number `2 ^ 31`. -/
theorem overflow_not_delivered : ∃ (ls : List (Label Unit)) (s : Outbound),
    Run valueLibrary (start true) ls s ∧ AllSendable ls ∧ ¬ Delivered valueLibrary ls s := by
  have long (n : ℕ) (hn : 2 ^ 31 ≤ n) : ∃ (ls : List (Label Unit)) (s : Outbound),
      Run valueLibrary (start true) ls s ∧ AllSendable ls ∧ ¬ Delivered valueLibrary ls s := by
    obtain ⟨s, h⟩ := run_sends_close true () (List.replicate n [])
    refine ⟨_, s, h, allSendable_sends () n, fun hs => ?_⟩
    have hclose :
        Channel.Act.close ∈ acts (sends () (List.replicate n []) ++ [.channel .close]) := by
      rw [acts_append]
      exact List.mem_append_right _ (List.mem_singleton.2 rfl)
    have hreads : ∀ m ∈ Channel.accepted
        (acts (sends () (List.replicate n []) ++ [.channel .close])),
        ReadsBack valueLibrary m := by
      intro m hmem
      rw [accepted_sends] at hmem
      rw [List.eq_of_mem_replicate hmem]
      exact readsBack_empty
    have hfits := fits_of_delivered valueLibrary_strict h (allSendable_sends () n) hclose hreads hs
    rw [accepted_sends, List.length_replicate] at hfits
    omega
  exact long (2 ^ 31) (Nat.le_refl _)

end Outbound

end DapDbgeng
