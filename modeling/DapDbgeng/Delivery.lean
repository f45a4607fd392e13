/-
  What the client reads.

  Any thread sends, one thread numbers and frames the messages, and the client takes the frames off
  the stream, in whatever pieces the stream delivers them.

  Main result: `client_reads`, the client gets the accepted messages in the order in which they
  were accepted.
-/
import DapDbgeng.Outbound

namespace DapDbgeng

open Concurrent Wire

/-- Texts for messages that can be printed. -/
theorem Wire.JsonLibrary.exists_prints {μ : Type} {json : JsonLibrary μ} {ms : List μ}
    (h : ∀ m ∈ ms, ∃ body, json.Prints m body) : ∃ bodies, List.Forall₂ json.Prints ms bodies := by
  induction ms with
  | nil => exact ⟨[], .nil⟩
  | cons m ms ih =>
    obtain ⟨⟨body, hbody⟩, hrest⟩ := List.forall_mem_cons.1 h
    obtain ⟨bodies, hbodies⟩ := ih hrest
    exact ⟨body :: bodies, .cons hbody hbodies⟩

namespace Outbound

variable {ι : Type*}

theorem onWire_take (seq : ℕ → Int) (ms : List Members) (k : ℕ) :
    onWire seq (ms.take k) = (onWire seq ms).take k := by
  refine List.ext_getElem? fun i => ?_
  rw [onWire, onWire, List.getElem?_mapIdx, List.getElem?_take, List.getElem?_take,
    List.getElem?_mapIdx]
  split_ifs <;> rfl

/-- The first `k` of the accepted messages, numbered from one. -/
def received (ls : List (Label ι)) (k : ℕ) : List Value :=
  (onWire fromOne ((Channel.accepted (acts ls)).take k)).map .obj

/-- The frames of the writer are those of the library. -/
theorem mapM_obj (json : JsonLibrary Value) (ms : List Members) :
    (ms.map Value.obj).mapM json.frameMessage = ms.mapM (frameMessage json) := by
  rw [List.mapM_map]
  rfl

/-- What is received first is received of all. -/
theorem mem_received {ls : List (Label ι)} {k : ℕ} {v : Value} (h : v ∈ received ls k) :
    v ∈ received ls (Channel.accepted (acts ls)).length := by
  obtain ⟨m, hm, rfl⟩ := List.mem_map.1 h
  rw [onWire_take] at hm
  rw [received, List.take_length]
  exact List.mem_map_of_mem (List.mem_of_mem_take hm)

variable {recording : Bool} {ls : List (Label ι)} {s : Outbound}

/-- **The client reads what was sent.**  Whatever the interleaving of the senders, the writer and
the close, the output is the frames of some of the accepted messages, the first ones, numbered from
one.  A client that reads frame by frame gets these messages and then the end of the input, however
the stream is cut into reads, and notices when it ends inside a frame.  When the writer is finished
these are all accepted messages. -/
theorem client_reads (json : JsonLibrary Value) (strict : json.Strict)
    (h : Run json (start recording) ls s) (hm : AllSendable ls)
    (hfit : (Channel.accepted (acts ls)).length < 2 ^ 31)
    (hprints : ∀ v ∈ received ls (Channel.accepted (acts ls)).length, ∃ body, json.Prints v body) :
    ∃ k ≤ (Channel.accepted (acts ls)).length,
      (s.phase = .finished → k = (Channel.accepted (acts ls)).length) ∧
      json.ReadBack (received ls k) s.writer.written := by
  obtain ⟨k, hk, hwritten, hfinished, -⟩ := (delivered strict h hm hfit).written
  obtain ⟨bodies, hbodies⟩ := JsonLibrary.exists_prints
    fun v (hv : v ∈ received ls k) => hprints v (mem_received hv)
  have hframes : s.writer.written = bodies.map frame := by
    have hmap := JsonLibrary.mapM_frameMessage hbodies
    rw [received, mapM_obj, hwritten] at hmap
    exact Except.ok.inj hmap
  refine ⟨k, hk, hfinished, ?_⟩
  rw [hframes]
  exact JsonLibrary.readBack_of_prints hbodies

theorem writeMessage_number (w : Writer) {m : Members} (hsend : needsSequence m = true)
    (hset : ∀ i, setMember seqKey (.int i) m = [(seqKey, .int i)]) :
    writeMessage valueLibrary w m =
      .ok ⟨nextInt w.nextSequence, w.written ++ [frame (numberedText w.nextSequence)]⟩ := by
  have hframe : frameMessage valueLibrary [(seqKey, .int w.nextSequence)] =
      .ok (frame (numberedText w.nextSequence)) := by
    simp only [frameMessage, JsonLibrary.frameMessage, valueLibrary, dump_numbered, bind,
      Except.bind, pure, Except.pure]
  rw [writeMessage, numbered, if_pos hsend, if_pos hsend, hset, hframe]
  rfl

/-- Two threads send, the second one while the message of the first is written. -/
def twoSenders : List (Label Bool) :=
  [.channel (.push true [] true), .channel (.pop (some [])), .record,
    .channel (.push false [(seqKey, .int 0)] true), .write, .channel .close,
    .channel (.pop (some [(seqKey, .int 0)])), .record, .write, .channel (.pop none)]

theorem twoSenders_sendable : AllSendable twoSenders := by
  intro t m ok hmem
  have hpushed : m = [] ∨ m = [(seqKey, .int 0)] := by
    simp only [acts, twoSenders, List.filterMap_cons, List.filterMap_nil, Label.act?, List.mem_cons,
      Channel.Act.push.injEq, reduceCtorEq, List.not_mem_nil, false_or, or_false] at hmem
    rcases hmem with ⟨-, hm, -⟩ | ⟨-, hm, -⟩
    · exact .inl hm
    · exact .inr hm
  rcases hpushed with rfl | rfl
  · exact sendable_empty
  · exact ⟨rfl, rfl⟩

theorem client_reads_two : ∃ s, Run valueLibrary (start true) twoSenders s ∧ s.phase = .finished ∧
    valueLibrary.ReadBack [.obj [(seqKey, .int 1)], .obj [(seqKey, .int 2)]] s.writer.written := by
  have hrun := Run.snoc (.snoc (.snoc (.snoc (.snoc (.snoc (.snoc (.snoc (.snoc (.snoc
    (.nil (start true)) (@Step.send _ _ _ true [] _ _ rfl)) (.pop rfl rfl)) (.record rfl))
    (@Step.send _ _ _ false [(seqKey, .int 0)] _ _ rfl))
    (.write rfl (writeMessage_number _ rfl fun _ => rfl))) .close) (.pop rfl rfl)) (.record rfl))
    (.write rfl (writeMessage_number _ rfl fun _ => rfl))) (.drained rfl rfl)
  obtain ⟨k, -, hk, hread⟩ := @client_reads _ _ twoSenders _ valueLibrary valueLibrary_strict hrun
    twoSenders_sendable (by decide) fun v hv => by
      have hreceived : v ∈ [Value.obj [(seqKey, .int 1)], .obj [(seqKey, .int 2)]] := hv
      rcases List.mem_cons.1 hreceived with rfl | hsecond
      · exact ⟨_, numbered_prints (by decide) (by decide)⟩
      · rw [List.mem_singleton.1 hsecond]
        exact ⟨_, numbered_prints (by decide) (by decide)⟩
  obtain rfl := hk rfl
  exact ⟨_, hrun, rfl, hread⟩

end Outbound

end DapDbgeng
