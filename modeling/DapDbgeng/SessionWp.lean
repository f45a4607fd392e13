/-
  Specifications that follow one session.

  Such a specification speaks about the record of one session and a history of one's own.  It may
  say what it likes about calls of the engine; reading and updating the record and sending messages
  have their plain meaning.

  * `Follows`: a specification of this kind;
  * `Follows.executeCapturing`: a command whose output is captured, for all of them.
-/
import DapDbgeng.Semantics

namespace DapDbgeng

open Concurrent Concurrent.Prog

namespace Command

/-- The commands that evaluate no text of the client. -/
def plain : Command → Bool
  | .raw _ | .condition _ => false
  | _ => true

variable {command : Command}

theorem pump_of_plain (h : command.plain = true) : (Call.execute command).pump? = none := by
  cases command <;> first | rfl | cases h

theorem effect_of_plain (h : command.plain = true) (created : List Int)
    (after : EngineState → EngineState) (r : ExecuteResult) (e : EngineState) :
    (Call.execute command).effect created after r e = Call.executed command r created e := by
  cases command <;> first | rfl | cases h

theorem append_not_blank {a : String} (s : String) (h : a.toList.all Text.isSpace = false) :
    (a ++ s).toList.all Text.isSpace = false := by
  rw [String.toList_append, List.all_append, h, Bool.false_and]

theorem render_of_plain (h : command.plain = true) :
    command.render.toList.all Text.isSpace = false := by
  cases command with
  | clear id => exact append_not_blank (a := "bc ") _ (by decide)
  | frame number => exact append_not_blank (a := ".frame ") _ (by decide)
  | cppFirstChance enabled => cases enabled <;> decide
  | sourcePath path => exact append_not_blank _ (by decide)
  | sourceBreakpoint path spec =>
    rw [render, renderSourceBreakpoint]
    have unconditional (token : String) : ("bu " ++ token).toList.all Text.isSpace = false :=
      append_not_blank _ (by decide)
    split
    · exact unconditional _
    split
    · exact unconditional _
    · exact append_not_blank _ (append_not_blank _ (append_not_blank _ (by decide)))
  | functionBreakpoint name => exact append_not_blank _ (by decide)
  | instructionBreakpoint address => exact append_not_blank _ (by decide)
  | dataBreakpoint address size breakOnRead =>
    rw [render, String.append_assoc, String.append_assoc, String.append_assoc]
    exact append_not_blank _ (by decide)
  | raw | condition => cases h
  | _ => decide

theorem condition_not_blank (condition : String) :
    (Command.condition condition).render.toList.all Text.isSpace = false := by
  rw [render, String.append_assoc]
  exact append_not_blank _ (by decide)

end Command

namespace Session

/-- Commands can be executed. -/
def Idle (x : Session) : Prop := x.disposed = false ∧ x.outputCapture = none

/-- The session after a command has been executed. -/
def ran (x : Session) (command : Command) (r : ExecuteResult) (created : List Int) : Session :=
  ({ x with engine := Call.executed command r created x.engine } : Session).update .endCapture

theorem Idle.ran {x : Session} (h : x.Idle) (command : Command) (r : ExecuteResult)
    (created : List Int) : (x.ran command r created).Idle := ⟨h.1, rfl⟩

theorem join_filter (texts : List String) :
    String.join (texts.filter fun text => !text.isEmpty) = String.join texts := by
  induction texts with
  | nil => rfl
  | cons text texts ih =>
    by_cases h : text = ""
    · subst h
      simpa [String.join_cons] using ih
    · have hne : text.isEmpty = false := by simpa using h
      rw [List.filter_cons_of_pos (by simp [hne]), String.join_cons, ih, String.join_cons]

end Session

/-- Reads, updates and messages have their plain meaning. -/
structure Follows {γ : Type} (id : SessionId) (S : Spec DapOp (Session × γ)) : Prop where
  read : ∀ {K : Session → Session × γ → Prop} {v : Session × γ}, K v.1 v →
    S.pre (.readSession id) K v
  update : ∀ {u : SessionUpdate} {K : Unit → Session × γ → Prop} {v : Session × γ},
    K () (v.1.update u, v.2) → S.pre (.updateSession id u) K v
  send : ∀ {m : Message} {K : Unit → Session × γ → Prop} {v : Session × γ}, K () v →
    S.pre (.send m) K v

namespace Follows

variable {γ : Type} {id : SessionId} {S : Spec DapOp (Session × γ)} {v : Session × γ}

theorem readSession (hS : Follows id S) {α : Type} {f : Session → Dap α}
    {Q : α → Session × γ → Prop} {E : Exn → Session × γ → Prop} (h : (f v.1).wp S Q E v) :
    ((DapDbgeng.readSession id).bind f).wp S Q E v :=
  hS.read h

theorem throwIfDisposed (hS : Follows id S) {Q : Unit → Session × γ → Prop}
    {E : Exn → Session × γ → Prop} (h : v.1.disposed = true → ∀ e, E e v)
    (hQ : v.1.disposed = false → Q () v) : (Session.throwIfDisposed id).wp S Q E v := by
  rw [Session.throwIfDisposed, bind_eq]
  refine hS.readSession ?_
  split
  · rename_i hd
    exact h hd _
  · rename_i hd
    exact hQ (by simpa using hd)

/-- Output is only appended to the capture. -/
theorem handleOutput (hS : Follows id S) {x : Session} {g : γ} {Q : Unit → Session × γ → Prop}
    {E : Exn → Session × γ → Prop} (texts : List String) (capture : Option String)
    (hQ : Q () ({ x with outputCapture := capture.map (· ++ String.join texts) }, g)) :
    (Prog.forEach (Session.handleOutputReceived id) texts).wp S Q E
      ({ x with outputCapture := capture }, g) := by
  induction texts generalizing capture with
  | nil =>
    have hsame : capture.map (· ++ String.join []) = capture := by cases capture <;> simp
    rw [hsame] at hQ
    exact hQ
  | cons text texts ih =>
    have hjoin : capture.map (· ++ String.join (text :: texts)) =
        (capture.map (· ++ text)).map (· ++ String.join texts) := by
      cases capture <;> simp [String.join_cons, String.append_assoc]
    rw [hjoin] at hQ
    rw [Prog.forEach, wp_bind, Session.handleOutputReceived, bind_eq]
    refine hS.readSession (hS.update ?_)
    split
    · rw [Session.onOutputReceived]
      split
      · exact ih _ hQ
      · exact hS.send (ih _ hQ)
    · exact ih _ hQ

/-- A command that prints into the capture: what it does is what its call does, in a session that
captures, and what it returns is what the engine prints, trimmed at its end. -/
theorem executeCapturing (hS : Follows id S) {command : Command}
    {Q : String → Session × γ → Prop} {E : Exn → Session × γ → Prop}
    (hpump : (Call.execute command).pump? = none)
    (hblank : command.render.toList.all Text.isSpace = false)
    (hbusy : ¬v.1.Idle → ∀ e, E e v)
    (hcall : v.1.Idle → S.pre (.call id (.execute command)) (fun r w =>
      let w' := (w.1.update .endCapture, w.2)
      if r.status.isOk then
        Q ((w.1.outputCapture.map fun text => Text.trimEnd (text ++ String.join r.output)).getD "") w'
      else ∀ e, E e w') (v.1.update (.beginCapture true), v.2)) :
    (Session.executeCommandWithOutput id command).wp S Q E v := by
  rw [Session.executeCommandWithOutput]
  simp only [bind_eq, wp_bind]
  refine hS.throwIfDisposed (fun hd => hbusy fun hi => by rw [hi.1] at hd; cases hd) fun hd => ?_
  rw [Session.throwIfNullOrWhitespace, if_neg (by simp [hblank])]
  rw [pure_eq, wp_ret, Session.beginOutputCapture, bind_eq]
  refine hS.readSession ?_
  split
  · rename_i hcapture
    exact hbusy (fun hi => by rw [hi.2] at hcapture; cases hcapture) _
  rename_i hcapture
  have hi : v.1.Idle := ⟨hd, by simpa using hcapture⟩
  -- the command itself, while its output is captured
  have hwp : (Session.executeDebuggerCommand id command
      ("Could not execute debugger command '" ++ command.render ++ "'")).wp S
      (fun _ w => Q ((w.1.outputCapture.map Text.trimEnd).getD "") (w.1.update .endCapture, w.2))
      (fun _ w => ∀ e, E e (w.1.update .endCapture, w.2))
      (v.1.update (.beginCapture true), v.2) := by
    rw [Session.executeDebuggerCommand, bind_eq, wp_bind]
    refine hS.throwIfDisposed (fun hd' => ?_) fun _ => ?_
    · change v.1.disposed = true at hd'
      rw [hd] at hd'
      cases hd'
    rw [Session.execute, hpump]
    simp only [Option.isSome_none, Bool.false_eq_true, if_false, bind_eq, wp_bind]
    refine S.mono _ (fun r w hw => ?_) (hcall hi)
    refine hS.handleOutput (x := w.1) (g := w.2) _ w.1.outputCapture ?_
    rw [Session.join_filter]
    cases hstatus : r.status with
    | ok =>
      rw [hstatus] at hw
      change Q ((Option.map Text.trimEnd
        (w.1.outputCapture.map (· ++ String.join r.output))).getD "") _
      rw [Option.map_map]
      exact hw
    | error hr =>
      rw [hstatus] at hw
      exact hw
  refine hS.update ?_
  simp only [wp_ret, wp_catching, wp_bind]
  refine wp_mono (fun _ w hQ => ?_) (fun e w hE => ?_) hwp
  · exact hS.read (hS.update hQ)
  · exact hS.update (hE e)

/-- The same, whatever it prints. -/
theorem executeCommandWithOutput (hS : Follows id S) {command : Command}
    {Q : String → Session × γ → Prop} {E : Exn → Session × γ → Prop} (hc : command.plain = true)
    (hbusy : ¬v.1.Idle → ∀ e, E e v)
    (hcall : v.1.Idle → S.pre (.call id (.execute command)) (fun r w => ∀ capture,
      let w' := (({ w.1 with outputCapture := capture } : Session).update .endCapture, w.2)
      if r.status.isOk then ∀ output, Q output w' else ∀ e, E e w')
        (v.1.update (.beginCapture true), v.2)) :
    (Session.executeCommandWithOutput id command).wp S Q E v := by
  refine hS.executeCapturing (Command.pump_of_plain hc) (Command.render_of_plain hc) hbusy
    fun hi => S.mono _ (fun r w hw => ?_) (hcall hi)
  have hafter := hw w.1.outputCapture
  dsimp only at hafter ⊢
  split
  · rename_i hok
    rw [if_pos hok] at hafter
    exact hafter _
  · rename_i hok
    rw [if_neg hok] at hafter
    exact hafter

end Follows

end DapDbgeng
