/-
  How the threads take turns.

  The dispatcher serves one caller after the other, and a callback runs while the one it serves is
  inside an engine call.  The wait loop is started and ended under its gate.

  * `Control`: the members of the server by which the threads wait for each other;
  * `Control.Move`: what a thread may do to them, and when;
  * `Control.Move.inv`, `Control.Move.rely`: a move keeps them consistent and leaves the other
    threads what they count on;
  * `DapOp.need`: what has to hold where a thread comes to an operation;
  * `sem_move`: an operation whose need is met is a move.
-/
import DapDbgeng.Conduct
import DapDbgeng.Semantics

namespace DapDbgeng

open Concurrent

/-! ## Moves -/

structure Control where
  queue : List Tid
  holder : Option Tid
  inCall : Option (SessionId × Call.Pump)
  callbackActive : Bool
  gate : Option Tid
  loop : LoopPhase
  loopJoinable : Bool
  waitLoopActive : Bool
  mode : Mode

def Server.control (s : Server) : Control where
  queue := s.queue
  holder := s.holder
  inCall := s.inCall
  callbackActive := s.callbackActive
  gate := s.gate
  loop := s.loop
  loopJoinable := s.loopJoinable
  waitLoopActive := s.flags .waitLoopActive
  mode := s.mode

namespace Control

/-- The phases before the wait loop has ended. -/
def Looping : LoopPhase → Prop
  | .check _ | .body _ => True
  | _ => False

/-- What a thread may do. -/
inductive Move (t : Tid) (c : Control) : Control → Prop where
  | enqueue (ht : t ≠ .callback) (hq : t ∉ c.queue) (hh : c.holder ≠ some t) :
      Move t c { c with queue := c.queue ++ [t] }
  | acquire {rest : List Tid} (hq : c.queue = t :: rest) (hh : c.holder = none) :
      Move t c { c with queue := rest, holder := some t }
  | release (hh : c.holder = some t) (hc : c.inCall = none) : Move t c { c with holder := none }
  | enter (call : SessionId × Call.Pump) (hh : c.holder = some t) (hc : c.inCall = none) :
      Move t c { c with inCall := some call }
  | leave (hh : c.holder = some t) (ha : c.callbackActive = false) :
      Move t c { c with inCall := none }
  | lock (ht : t = .request ∨ t = .loop) (hg : c.gate = none) : Move t c { c with gate := some t }
  | unlock (hg : c.gate = some t)
      (hw : t = .request → c.waitLoopActive = true → c.loop ≠ .idle) :
      Move t c { c with gate := none }
  /-- The request thread takes the thread object of the wait loop, or has joined it. -/
  | take (ht : t = .request) : Move t c { c with loopJoinable := false }
  | announce (ht : t = .request) (hg : c.gate = some t) (hl : c.loop = .idle) :
      Move t c { c with waitLoopActive := true }
  | spawn (id : SessionId) (ht : t = .request) (hg : c.gate = some t) (hl : c.loop = .idle)
      (hw : c.waitLoopActive = true) : Move t c { c with loop := .check id, loopJoinable := true }
  | retire (ht : t = .loop) (hg : c.gate = some t) (hl : ¬Looping c.loop) :
      Move t c { c with waitLoopActive := false }
  | advance (phase : LoopPhase) (ht : t = .loop) (hl : c.loop ≠ .idle)
      (hp : Looping phase → c.waitLoopActive = true)
      (he : phase = .idle → c.waitLoopActive = false) : Move t c { c with loop := phase }
  | callback (active : Bool) (ht : t = .callback) (hc : active = true → c.inCall.isSome = true) :
      Move t c { c with callbackActive := active }
  | mode (m : Mode) (ht : t = .request) : Move t c { c with mode := m }

/-- What always holds. -/
structure Inv (c : Control) : Prop where
  nodup : c.queue.Nodup
  unqueued : ∀ t, c.holder = some t → t ∉ c.queue
  queued : .callback ∉ c.queue
  held : c.holder ≠ some .callback
  gate : ∀ t, c.gate = some t → t = .request ∨ t = .loop
  inCall : c.inCall.isSome = true → c.holder.isSome = true
  active : c.callbackActive = true → c.inCall.isSome = true
  looping : Looping c.loop → c.waitLoopActive = true
  /-- A wait loop that is announced is there, unless it is just being started. -/
  announced : c.waitLoopActive = true → c.gate ≠ some .request → c.loop ≠ .idle

/-- What the wait loop can count on: once there, it is left alone, and it is announced. -/
structure LoopRely (c c' : Control) : Prop where
  loop : c.loop ≠ .idle → c'.loop = c.loop
  waitLoopActive : c.loop ≠ .idle → c'.waitLoopActive = c.waitLoopActive
  begun : c.loop = .idle → c'.loop ≠ .idle → c'.waitLoopActive = true

/-- What the request thread can count on: nobody else starts a wait loop. -/
structure RequestRely (c c' : Control) : Prop where
  loopJoinable : c'.loopJoinable = c.loopJoinable
  mode : c'.mode = c.mode
  retired : c.waitLoopActive = false → c'.waitLoopActive = false
  idle : c.loop = .idle → c'.loop = .idle
  busy : c.loop ≠ .idle → c'.waitLoopActive = true → c'.loop ≠ .idle
  gated : c.gate = some .request → c'.waitLoopActive = c.waitLoopActive

/-- What a thread can count on. -/
structure Rely (t : Tid) (c c' : Control) : Prop where
  queue : t ∈ c'.queue ↔ t ∈ c.queue
  holder : c'.holder = some t ↔ c.holder = some t
  gate : c'.gate = some t ↔ c.gate = some t
  inCall : c.holder = some t → c'.inCall = c.inCall
  active : t = .callback → c'.callbackActive = c.callbackActive
  loop : t = .loop → LoopRely c c'
  request : t = .request → RequestRely c c'

theorem Rely.refl (t : Tid) (c : Control) : Rely t c c where
  queue := Iff.rfl
  holder := Iff.rfl
  gate := Iff.rfl
  inCall _ := rfl
  active _ := rfl
  loop _ := ⟨fun _ => rfl, fun _ => rfl, fun h h' => absurd h h'⟩
  request _ := ⟨rfl, rfl, id, id, fun h _ => h, fun _ => rfl⟩

theorem LoopRely.trans {c c' c'' : Control} (h : LoopRely c c') (h' : LoopRely c' c'') :
    LoopRely c c'' where
  loop hl := by
    have hl' := h.loop hl
    rw [h'.loop (hl' ▸ hl), hl']
  waitLoopActive hl := by rw [h'.waitLoopActive (h.loop hl ▸ hl), h.waitLoopActive hl]
  begun hl hl'' := by
    by_cases hl' : c'.loop = .idle
    · exact h'.begun hl' hl''
    · rw [h'.waitLoopActive hl']
      exact h.begun hl hl'

theorem RequestRely.trans {c c' c'' : Control}
    (hg : c'.gate = some .request ↔ c.gate = some .request)
    (h : RequestRely c c') (h' : RequestRely c' c'') : RequestRely c c'' where
  loopJoinable := h'.loopJoinable.trans h.loopJoinable
  mode := h'.mode.trans h.mode
  retired hw := h'.retired (h.retired hw)
  idle hl := h'.idle (h.idle hl)
  busy hl hw := by
    refine h'.busy (h.busy hl ?_) hw
    by_contra hw'
    rw [h'.retired (Bool.eq_false_iff.2 hw')] at hw
    cases hw
  gated hc := (h'.gated (hg.2 hc)).trans (h.gated hc)

theorem Rely.trans {t : Tid} {c c' c'' : Control} (h : Rely t c c') (h' : Rely t c' c'') :
    Rely t c c'' where
  queue := h'.queue.trans h.queue
  holder := h'.holder.trans h.holder
  gate := h'.gate.trans h.gate
  inCall hh := (h'.inCall (h.holder.2 hh)).trans (h.inCall hh)
  active ht := (h'.active ht).trans (h.active ht)
  loop ht := (h.loop ht).trans (h'.loop ht)
  request ht := by
    subst ht
    exact .trans h.gate (h.request rfl) (h'.request rfl)

variable {t u : Tid} {c c' : Control}

/-- The wait loop is not concerned. -/
theorem LoopRely.of_eq (hl : c'.loop = c.loop) (hw : c'.waitLoopActive = c.waitLoopActive) :
    LoopRely c c' := ⟨fun _ => hl, fun _ => hw, fun h h' => absurd (hl.trans h) h'⟩

theorem RequestRely.of_eq (hj : c'.loopJoinable = c.loopJoinable) (hm : c'.mode = c.mode)
    (hl : c'.loop = c.loop) (hw : c'.waitLoopActive = c.waitLoopActive) : RequestRely c c' :=
  ⟨hj, hm, fun h => hw.trans h, fun h => hl.trans h, fun h _ h' => h (hl.symm.trans h'),
    fun _ => hw⟩

/-- A move keeps what always holds. -/
theorem Move.inv (h : Move t c c') (hi : Inv c) : Inv c' := by
  cases h with
  | enqueue ht hq hh =>
    refine { hi with nodup := ?_, unqueued := ?_, queued := ?_ }
    · exact List.nodup_append.2 ⟨hi.nodup, List.nodup_singleton t, by
        rintro x hx y hy rfl; rw [List.mem_singleton.1 hy] at hx; exact hq hx⟩
    · intro u hu hmem
      rcases List.mem_append.1 hmem with hmem | hmem
      · exact hi.unqueued u hu hmem
      · rw [List.mem_singleton.1 hmem] at hu; exact hh hu
    · intro hmem
      rcases List.mem_append.1 hmem with hmem | hmem
      · exact hi.queued hmem
      · exact ht (List.mem_singleton.1 hmem).symm
  | @acquire rest hq hh =>
    have hnodup := hi.nodup
    have hqueued := hi.queued
    rw [hq] at hnodup hqueued
    refine { hi with
      nodup := hnodup.of_cons, unqueued := ?_, queued := ?_, held := ?_, inCall := ?_ }
    · rintro u ⟨⟩; exact (List.nodup_cons.1 hnodup).1
    · exact fun hmem => hqueued (.tail _ hmem)
    · rintro ⟨⟩; exact hqueued (.head _)
    · exact fun _ => rfl
  | release hh hc =>
    exact { hi with
      unqueued := by rintro u ⟨⟩
      held := by rintro ⟨⟩
      inCall := fun h => by rw [hc] at h; cases h }
  | enter call hh hc =>
    exact { hi with
      inCall := fun _ => by rw [hh]; rfl
      active := fun _ => rfl }
  | leave hh ha =>
    exact { hi with
      inCall := by rintro ⟨⟩
      active := fun h => by rw [ha] at h; cases h }
  | lock ht hg =>
    exact { hi with
      gate := by rintro u ⟨⟩; exact ht
      announced := fun hw _ => hi.announced hw (by rw [hg]; rintro ⟨⟩) }
  | unlock hg hw =>
    refine { hi with gate := by rintro u ⟨⟩, announced := fun h _ => ?_ }
    rcases hi.gate t hg with rfl | rfl
    · exact hw rfl h
    · exact hi.announced h (by rw [hg]; rintro ⟨⟩)
  | take ht => exact { hi with }
  | announce ht hg hl =>
    subst ht
    exact { hi with
      looping := fun _ => rfl
      announced := fun _ h => absurd hg h }
  | spawn id ht hg hl hw =>
    exact { hi with
      looping := fun _ => hw
      announced := by rintro - - ⟨⟩ }
  | retire ht hg hl =>
    exact { hi with
      looping := fun h => absurd h hl
      announced := by rintro ⟨⟩ }
  | advance phase ht hl hp he =>
    exact { hi with
      looping := hp
      announced := fun hw _ h => by rw [he h] at hw; cases hw }
  | callback active ht hc => exact { hi with active := hc }
  | mode m ht => exact { hi with }

/-- A move leaves the other threads what they count on. -/
theorem Move.rely (h : Move t c c') (hu : u ≠ t) : Rely u c c' := by
  have same := Rely.refl u c
  have loop : LoopRely c c := .of_eq rfl rfl
  have request : RequestRely c c := .of_eq rfl rfl rfl rfl
  have other {x : Option Tid} (hx : x = some t) : ¬x = some u := by
    rw [hx]; rintro ⟨⟩; exact hu rfl
  cases h with
  | enqueue ht hq hh =>
    exact { same with
      queue := by simp [hu]
      loop := fun _ => .of_eq rfl rfl
      request := fun _ => .of_eq rfl rfl rfl rfl }
  | @acquire rest hq hh =>
    exact { same with
      queue := by simp [hq, hu]
      holder := by simp [hh, Ne.symm hu]
      inCall := fun _ => rfl
      loop := fun _ => .of_eq rfl rfl
      request := fun _ => .of_eq rfl rfl rfl rfl }
  | release hh hc =>
    exact { same with
      holder := by simp [hh, Ne.symm hu]
      inCall := fun _ => rfl
      loop := fun _ => .of_eq rfl rfl
      request := fun _ => .of_eq rfl rfl rfl rfl }
  | enter call hh hc =>
    exact { same with
      inCall := fun h => absurd h (other hh)
      loop := fun _ => .of_eq rfl rfl
      request := fun _ => .of_eq rfl rfl rfl rfl }
  | leave hh ha =>
    exact { same with
      inCall := fun h => absurd h (other hh)
      loop := fun _ => .of_eq rfl rfl
      request := fun _ => .of_eq rfl rfl rfl rfl }
  | lock ht hg =>
    exact { same with
      gate := by simp [hg, Ne.symm hu]
      loop := fun _ => .of_eq rfl rfl
      request := fun _ => .of_eq rfl rfl rfl rfl }
  | unlock hg hw =>
    exact { same with
      gate := by simp [hg, Ne.symm hu]
      loop := fun _ => .of_eq rfl rfl
      request := fun _ => .of_eq rfl rfl rfl rfl }
  | take ht =>
    exact { same with
      loop := fun _ => .of_eq rfl rfl
      request := fun h => absurd (h.trans ht.symm) hu }
  | announce ht hg hl =>
    exact { same with
      loop := fun _ => ⟨fun _ => rfl, fun h => absurd hl h, fun _ h => absurd hl h⟩
      request := fun h => absurd (h.trans ht.symm) hu }
  | spawn id ht hg hl hw =>
    exact { same with
      loop := fun _ => ⟨fun h => absurd hl h, fun h => absurd hl h, fun _ _ => hw⟩
      request := fun h => absurd (h.trans ht.symm) hu }
  | retire ht hg hl =>
    refine { same with loop := fun h => absurd (h.trans ht.symm) hu, request := fun _ => ?_ }
    exact { request with
      retired := fun _ => rfl
      busy := by rintro - ⟨⟩
      gated := fun h => by subst ht; rw [hg] at h; cases h }
  | advance phase ht hl hp he =>
    refine { same with loop := fun h => absurd (h.trans ht.symm) hu, request := fun _ => ?_ }
    exact { request with
      idle := fun h => absurd h hl
      busy := fun _ hw h => by
        have hw : c.waitLoopActive = true := hw
        rw [he h] at hw
        cases hw }
  | callback active ht hc =>
    exact { same with
      active := fun h => absurd (h.trans ht.symm) hu
      loop := fun _ => .of_eq rfl rfl
      request := fun _ => .of_eq rfl rfl rfl rfl }
  | mode m ht =>
    exact { same with
      loop := fun _ => .of_eq rfl rfl
      request := fun h => absurd (h.trans ht.symm) hu }

/-- What has to hold of a thread that the dispatcher serves, outside of its calls, or of a
callback. -/
def Serves (t : Tid) (c : Control) : Prop :=
  if t = .callback then c.callbackActive = true else c.holder = some t ∧ c.inCall = none

/-- The thread takes part in nothing. -/
structure Uninvolved (t : Tid) (c : Control) : Prop where
  queue : t ∉ c.queue
  holder : c.holder ≠ some t
  gate : c.gate ≠ some t

end Control

/-! ## Operations -/

open Control in
/-- What has to hold where a thread comes to an operation. -/
def DapOp.need (t : Tid) (c : Control) : ∀ {β : Type}, DapOp β → Prop
  | _, .call _ f => t ∉ c.queue ∧ (f.isInterrupt = true ∨ Serves t c)
  | _, .enter _ f => t ≠ .callback ∧ t ∉ c.queue ∧ f.pump?.isSome = true ∧ Serves t c
  | _, .leave id f => t ≠ .callback ∧ t ∉ c.queue ∧ f.pump?.isSome = true ∧
      c.holder = some t ∧ c.inCall = f.pump?.map fun p => (id, p)
  | _, .enqueue => t ≠ .callback ∧ t ∉ c.queue ∧ c.holder ≠ some t
  | _, .acquire => t ∈ c.queue ∧ c.holder ≠ some t
  | _, .release | _, .newSession | _, .updateSession _ (.terminateDebuggeeOnDispose _)
  | _, .updateSession _ .isKernel => t ≠ .callback ∧ t ∉ c.queue ∧ Serves t c
  | _, .lockGate => Uninvolved t c ∧ (t = .request ∨ t = .loop ∧ c.waitLoopActive = true)
  | _, .unlockGate => t ∉ c.queue ∧ c.gate = some t ∧
      (t = .request → c.waitLoopActive = true → c.loop ≠ .idle)
  | _, .loopJoinable => t = .request ∧ t ∉ c.queue ∧ c.gate = some t
  | _, .takeLoop => t = .request ∧ t ∉ c.queue ∧ c.gate = some t
  | _, .joinLoop => t = .request ∧ t ∉ c.queue ∧ c.holder ≠ some t ∧
      (c.gate = some t → c.waitLoopActive = false)
  | _, .spawnLoop _ => t = .request ∧ t ∉ c.queue ∧ c.gate = some t ∧ c.loop = .idle ∧
      c.loopJoinable = false ∧ c.waitLoopActive = true
  | _, .store .waitLoopActive true => t = .request ∧ t ∉ c.queue ∧ c.gate = some t ∧ c.loop = .idle
  | _, .store .waitLoopActive false => t = .loop ∧ t ∉ c.queue ∧ c.gate = some t ∧ ¬Looping c.loop
  | _, _ => t ∉ c.queue

/-- The operations by which no thread waits for another. -/
def DapOp.still : ∀ {β : Type}, DapOp β → Prop
  | _, .store f _ => f ≠ .waitLoopActive
  | _, .enter .. | _, .leave .. | _, .enqueue | _, .acquire | _, .release => False
  | _, .lockGate | _, .unlockGate | _, .takeLoop | _, .joinLoop | _, .spawnLoop _ => False
  | _, _ => True

namespace DapOp

variable {t : Tid} {β : Type} {o : DapOp β} {s s' : Server} {b : β}

theorem still_of_plainOn {side : Side} (h : o.plainOn side) : o.still := by
  cases o with
  | store f v =>
    rintro rfl
    cases v <;> exact h
  | enter | leave | enqueue | acquire | release => exact h
  | lockGate | unlockGate | takeLoop | joinLoop | spawnLoop => exact h
  | _ => trivial

end DapOp

theorem setFlag_control {f : Flag} (h : f ≠ .waitLoopActive) (s : Server) (v : Bool) :
    (s.setFlag f v).control = s.control := by
  unfold Server.control
  rw [Server.setFlag_flags, if_neg (Ne.symm h)]
  rfl

theorem sem_still {t : Tid} {β : Type} {o : DapOp β} {s s' : Server} {b : β} (ho : o.still)
    (h : sem t β o s b s') : s'.control = s.control := by
  obtain ⟨a, h⟩ := h
  cases o with
  | store f v => cases h; exact setFlag_control ho s v
  | send m => cases h; split <;> rfl
  | call id c =>
    obtain ⟨-, -, -, rfl⟩ := applyCall_eq h
    rfl
  | enter | leave | enqueue | acquire | release => exact ho.elim
  | lockGate | unlockGate | takeLoop | joinLoop | spawnLoop => exact ho.elim
  | _ => cases h; rfl

open Control in
/-- An operation whose need is met is a move, or no thread waits for it. -/
theorem sem_move {t : Tid} {β : Type} {o : DapOp β} {s s' : Server} {b : β}
    (hn : o.need t s.control) (h : sem t β o s b s') :
    s'.control = s.control ∨ Move t s.control s'.control := by
  have serving (ht : t ≠ .callback) (hs : Serves t s.control) :
      s.holder = some t ∧ s.inCall = none := by
    rwa [Serves, if_neg ht] at hs
  cases o with
  | store f v =>
    by_cases hf : f = .waitLoopActive
    · subst hf
      right
      rw [sem_store.1 h]
      have hset : (s.setFlag .waitLoopActive v).control =
          { s.control with waitLoopActive := v } := by
        unfold Server.control
        rw [Server.setFlag_flags, if_pos rfl]
        rfl
      rw [hset]
      cases v with
      | true =>
        obtain ⟨ht, -, hg, hl⟩ := hn
        exact .announce ht hg hl
      | false =>
        obtain ⟨ht, -, hg, hl⟩ := hn
        exact .retire ht hg hl
    · refine .inl (sem_still ?_ h)
      exact hf
  | enter id c =>
    obtain ⟨ht, -, -, hs⟩ := hn
    obtain ⟨p, -, -, -, rfl⟩ := sem_enter.1 h
    obtain ⟨hh, hc⟩ := serving ht hs
    exact .inr (.enter (id, p) hh hc)
  | leave id c =>
    obtain ⟨-, -, -, hh, -⟩ := hn
    obtain ⟨-, ha, created, after, -, rfl⟩ := sem_leave h
    exact .inr (.leave hh ha)
  | enqueue =>
    obtain ⟨ht, hq, hh⟩ := hn
    rw [sem_enqueue.1 h]
    exact .inr (.enqueue ht hq hh)
  | acquire =>
    obtain ⟨rest, hq, hh, rfl⟩ := sem_acquire.1 h
    exact .inr (.acquire hq hh)
  | release =>
    obtain ⟨ht, -, hs⟩ := hn
    obtain ⟨hh, hc⟩ := serving ht hs
    rw [sem_release.1 h]
    exact .inr (.release hh hc)
  | lockGate =>
    obtain ⟨hg, rfl⟩ := sem_lockGate.1 h
    exact .inr (.lock (hn.2.imp id And.left) hg)
  | unlockGate =>
    obtain ⟨-, hg, hw⟩ := hn
    rw [sem_unlockGate.1 h]
    exact .inr (.unlock hg hw)
  | takeLoop =>
    obtain ⟨-, rfl⟩ := sem_takeLoop.1 h
    exact .inr (.take hn.1)
  | joinLoop =>
    obtain ⟨-, rfl⟩ := sem_joinLoop.1 h
    exact .inr (.take hn.1)
  | spawnLoop id =>
    obtain ⟨ht, -, hg, hl, -, hw⟩ := hn
    rw [sem_spawnLoop.1 h]
    exact .inr (.spawn id ht hg hl hw)
  | _ =>
    refine .inl (sem_still ?_ h)
    trivial

end DapDbgeng
