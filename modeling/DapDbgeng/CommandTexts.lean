/-
  The texts of a client inside the commands of the adapter.

  The texts of evaluate, setVariable, setFunctionBreakpoints and setBreakpoints requests become
  parts of commands for the engine.  Only evaluate looks at its text first.

  * `classify_*`: when each composed command is execution control;
  * `TextRequest.Passes`: a command that is executed on behalf of a request, whatever the other
    threads do meanwhile;
  * `TextRequest.harmless`: what the texts of a request must not have in them;
  * `TextRequest.never_control_iff`: no command is execution control exactly if they have not.
-/
import DapDbgeng.Classifier
import DapDbgeng.Replacing
import DapDbgeng.RespondsOnce

namespace DapDbgeng

open Concurrent Concurrent.Prog

/-! ## Composed commands -/

namespace Text

theorem classify_of_word (word : List Char) {s : String} {rest : List Char}
    (hs : s.toList = word ++ ' ' :: rest) (hw : ∀ c ∈ word, isBlankChar c = false ∧ c ≠ ';')
    (hne : word ≠ []) (hcontrol : isControlWord word = false) :
    isExecutionControlCommand s = runs rest := by
  rw [isExecutionControlCommand, hs]
  exact classify_word rest hw hne hcontrol rfl

theorem toString_text (s : String) : toString s = s := rfl

theorem digits_no_separator {n : ℕ} {c : Char} (h : c ∈ Nat.toDigits 10 n) : c ≠ ';' := by
  rintro rfl
  exact absurd (Nat.isDigit_of_mem_toDigits (by decide) (by decide) h) (by decide)

theorem line_no_separator {line : Int} {c : Char} (h : c ∈ (toString line).toList) : c ≠ ';' := by
  cases line with
  | ofNat n =>
    have hn : (toString (Int.ofNat n)).toList = Nat.toDigits 10 n := Nat.toList_repr
    rw [hn] at h
    exact digits_no_separator h
  | negSucc n =>
    have hn : (toString (Int.negSucc n)).toList = '-' :: Nat.toDigits 10 (n + 1) := by
      change ("-" ++ (n + 1).repr).toList = _
      rw [String.toList_append, Nat.toList_repr]
      rfl
    rw [hn] at h
    rcases List.mem_cons.1 h with rfl | h
    · decide
    · exact digits_no_separator h

/-- Selecting a frame in front of a command does not matter. -/
theorem classify_in_frame {n : ℕ} {s : String} {rest : List Char}
    (hs : s.toList = (['.', 'f', 'r', 'a', 'm', 'e'] ++ ' ' :: Nat.toDigits 10 n) ++ ';' :: rest) :
    isExecutionControlCommand s = (splitList (· = ';') rest).any isExecutionControlSegment := by
  rw [isExecutionControlCommand, hs, splitList_append_sep (by decide), List.any_append,
    classify_word _ (by simp [isBlankChar]) (by decide) (by decide) (by decide), runs,
    splitList_of_none (by simpa using fun c hc => digits_no_separator hc)]
  rfl

theorem classify_evaluate (n : ℕ) (expression : String) :
    isExecutionControlCommand s!".frame {n};{expression}" =
      isExecutionControlCommand expression := by
  have hs : (s!".frame {n};{expression}").toList =
      (['.', 'f', 'r', 'a', 'm', 'e'] ++ ' ' :: Nat.toDigits 10 n) ++ ';' :: expression.toList := by
    simp [toString_text]
  rw [classify_in_frame hs, isExecutionControlCommand]

theorem classify_register (name value : String) :
    isExecutionControlCommand s!"r {name}={value}" = runsAtEnd (name ++ "=" ++ value) := by
  refine classify_of_word ['r'] ?_ (by simp [isBlankChar]) (by decide) (by decide)
  simp [toString_text]

/-- The candidates that assign to a local are execution control only if the first of them is. -/
theorem classify_set {kind : VariableContainerKind} {n : ℕ} {name value : String} {c : Command}
    (h : runsAtEnd (name ++ "=" ++ value) = false)
    (hc : c ∈ Server.buildSetCommands kind n name value) :
    isExecutionControlCommand c.render = false := by
  have hclosed : runs ((name ++ "=" ++ value).toList ++ [')']) = false := by
    rw [runs_append (by decide)]
    by_contra hruns
    have hnil : runs [] = false := rfl
    have hinside : runsInside (name ++ "=" ++ value) = true := by
      rw [hnil, Bool.or_false] at hruns
      exact Bool.eq_true_of_not_eq_false hruns
    rw [runsAtEnd_of_inside hinside] at h
    cases h
  have hframe {s : String} (word rest : List Char)
      (hs : s.toList = (['.', 'f', 'r', 'a', 'm', 'e'] ++ ' ' :: Nat.toDigits 10 n) ++ ';' ::
        (word ++ ' ' :: rest)) (hw : ∀ c ∈ word, isBlankChar c = false ∧ c ≠ ';') (hne : word ≠ [])
      (hcontrol : isControlWord word = false) (hrest : runs rest = false) :
      isExecutionControlCommand s = false := by
    rw [classify_in_frame hs, classify_word _ hw hne hcontrol rfl, hrest]
  have hregister : isExecutionControlCommand (Command.raw s!"r {name}={value}").render = false :=
    (classify_register name value).trans h
  cases kind with
  | locals =>
    simp only [Server.buildSetCommands, List.mem_cons, List.not_mem_nil, or_false] at hc
    rcases hc with rfl | rfl | rfl | rfl
    · exact hframe ['?', '?'] _ (by simp [Command.render, toString_text]) (by simp [isBlankChar])
        (by decide) (by decide) h
    · refine hframe ['?'] (['@', '@', 'c', '+', '+', '('] ++
        ((name ++ "=" ++ value).toList ++ [')'])) (by simp [Command.render, toString_text])
        (by simp [isBlankChar]) (by decide) (by decide) ?_
      rw [runs_of_none _ (by simp), hclosed]
    · refine hframe ['?', '?'] (['$', '!'] ++ (name ++ "=" ++ value).toList)
        (by simp [Command.render, toString_text]) (by simp [isBlankChar]) (by decide) (by decide) ?_
      rw [runs_of_none _ (by simp)]
      exact h
    · refine hframe ['?'] (['@', '@', 'c', '+', '+', '(', '$', '!'] ++
        ((name ++ "=" ++ value).toList ++ [')'])) (by simp [Command.render, toString_text])
        (by simp [isBlankChar]) (by decide) (by decide) ?_
      rw [runs_of_none _ (by simp), hclosed]
  | registers => rw [List.mem_singleton.1 hc]; exact hregister
  | structure_ => rw [List.mem_singleton.1 hc]; exact hregister

theorem classify_function (name : String) :
    isExecutionControlCommand (Command.functionBreakpoint name).render = runsAtEnd name := by
  refine classify_of_word ['b', 'u'] ?_ (by simp [isBlankChar]) (by decide) (by decide)
  simp [Command.render]

theorem classify_condition (condition : String) :
    isExecutionControlCommand (Command.condition condition).render = runsInside condition := by
  have hlist : (Command.condition condition).render.toList =
      ['d', 'x'] ++ ' ' :: (['('] ++ (condition.toList ++ [')'])) := by
    simp [Command.render]
  rw [classify_of_word ['d', 'x'] hlist (by simp [isBlankChar]) (by decide) (by decide),
    runs_of_none ['('] (by simp), runs_append (by decide)]
  exact Bool.or_false _

/-- White space has no semicolon in it. -/
theorem runsInside_of_spaces {s : String} (h : s.toList.all isSpace = true) :
    runsInside s = false := by
  have hsep : ∀ x ∈ s.toList, x ≠ ';' := by
    rintro x hx rfl
    exact absurd (List.all_eq_true.1 h _ hx) (by decide)
  rw [runsInside, runs_of_none s.toList hsep]
  decide

theorem isSpace_of_isBlank {s : String} (h : isBlank s = true) : s.toList.all isSpace = true := by
  rw [isBlank, List.all_eq_true] at h
  rw [List.all_eq_true]
  intro c hc
  rw [isSpace, h c hc]
  rfl

/-- The path of a source breakpoint and its condition. -/
theorem classify_source (path : String) (spec : SourceBreakpointSpec) :
    isExecutionControlCommand (Command.sourceBreakpoint path spec).render =
      (runsInside path || spec.condition.any runsInside) := by
  have htoken : runs ("\x60" ++ path ++ ":" ++ toString spec.line ++ "\x60").toList =
      runsInside path := by
    have hlist : ("\x60" ++ path ++ ":" ++ toString spec.line ++ "\x60").toList =
        ['\x60'] ++ (path.toList ++ ':' :: ((toString spec.line).toList ++ ['\x60'])) := by
      simp
    rw [hlist, runs_of_none ['\x60'] (by simp), runs_append (by decide),
      runs_of_none (toString spec.line).toList (fun c hc => line_no_separator hc)]
    exact Bool.or_false _
  have hplain : isExecutionControlCommand
      ("bu " ++ ("\x60" ++ path ++ ":" ++ toString spec.line ++ "\x60")) = runsInside path := by
    rw [← htoken]
    refine classify_of_word ['b', 'u'] ?_ (by simp [isBlankChar]) (by decide) (by decide)
    rw [String.toList_append]
    rfl
  rw [Command.render, Command.renderSourceBreakpoint]
  cases hcond : spec.condition with
  | none => exact hplain.trans (Bool.or_false _).symm
  | some c =>
    dsimp only [Option.any_some]
    split
    · rename_i hblank
      rw [hplain, runsInside_of_spaces (isSpace_of_trimBoth hblank), Bool.or_false]
    · have hlist : ("bu /w \"" ++ String.ofList (Command.escapeCondition c.toList) ++ "\" " ++
          ("\x60" ++ path ++ ":" ++ toString spec.line ++ "\x60")).toList = ['b', 'u'] ++ ' ' ::
            (['/', 'w', ' ', '"'] ++ (Command.escapeCondition c.toList ++ '"' ::
              ([' '] ++ ("\x60" ++ path ++ ":" ++ toString spec.line ++ "\x60").toList))) := by
        simp
      have hescape := runs_escapeCondition [] c.toList
      rw [List.nil_append, List.nil_append] at hescape
      rw [classify_of_word ['b', 'u'] hlist (by simp [isBlankChar]) (by decide) (by decide),
        runs_of_none ['/', 'w', ' ', '"'] (by simp), runs_append (by decide), hescape,
        runs_of_none [' '] (by simp), htoken, Bool.or_comm]
      rfl

end Text

/-! ## Requests -/

/-- The requests whose texts become parts of commands. -/
inductive TextRequest where
  | evaluate (request : Request EvaluateArguments)
  | setVariable (request : Request SetVariableArguments)
  | setFunctionBreakpoints (request : Request (List String))
  | setBreakpoints (request : Request SetBreakpointsArguments)

/-- The operation executes the command. -/
def DapOp.executes (command : Command) : ∀ {β : Type}, DapOp β → Prop
  | _, .call _ (.execute c) => c = command
  | _, .enter _ (.execute c) => c = command
  | _, _ => False

namespace TextRequest

def handle : TextRequest → Dap Unit
  | evaluate request => Server.handleEvaluateRequest request
  | setVariable request => Server.handleSetVariableRequest request
  | setFunctionBreakpoints request => Server.handleSetFunctionBreakpointsRequest request
  | setBreakpoints request => Server.handleSetBreakpointsRequest request

/-- The path of a setBreakpoints request that is not rejected for it. -/
def acceptedPath (arguments : SetBreakpointsArguments) : Option String :=
  if arguments.source.sourceReference.any (· > 0) then none
  else arguments.source.path.filter fun path => !path.toList.all Text.isSpace

/-- The source breakpoints a request configures. -/
def specs : TextRequest → List SourceBreakpointSpec
  | setBreakpoints request =>
    if (acceptedPath request.arguments).isNone then []
    else ((Server.readRequestedSourceBreakpoints request.arguments).map
      Server.parseSourceBreakpoint).filterMap fun p => p.spec
  | _ => []

/-- The steps of a thread, between which the others may do anything but change what the operating
system makes of a path. -/
def steps (t : Tid) : StepRel DapOp Server :=
  (sem t).under fun s s' => s'.fullPath = s.fullPath

/-- A command that is executed on behalf of a request, by its handler or to evaluate one of its
conditions when a breakpoint is hit; `os` is what the operating system makes of a path. -/
inductive Passes (os : String → String) (r : TextRequest) (command : Command) : Prop where
  | handler (s : Server) (hos : s.fullPath = os)
      (h : Reaches (steps .request) (fun _ => True) (fun o _ => o.executes command) r.handle s)
  | condition (s : Server) (hos : s.fullPath = os) (id : SessionId)
      (spec : SourceBreakpointSpec) (hspec : spec ∈ r.specs)
      (condition : String) (hcondition : spec.condition = some condition)
      (hblank : Text.isBlank condition = false)
      (h : Reaches (steps .callback) (fun _ => True) (fun o _ => o.executes command)
        (Server.tryEvaluateConditionalBreakpoint id condition) s)

/-- No command is execution control.  The commands that are to set the target going are not passed
to `execute_command_with_output`. -/
def NeverControl (os : String → String) (r : TextRequest) : Prop :=
  ∀ command, r.Passes os command → command.resumes = false →
    Text.isExecutionControlCommand command.render = false

/-- What the texts of a request that is not rejected at once must not have in them: a segment after
a semicolon that begins with an execution-control command.  Inside a command the text must have its
end in it, too. -/
def harmless (os : String → String) : TextRequest → Prop
  | evaluate _ => True
  | setVariable request =>
    request.arguments.variablesReference ≤ 0 ∨ Text.isBlank request.arguments.name = true ∨
      Text.isBlank request.arguments.value = true ∨
        Text.runsAtEnd (request.arguments.name ++ "=" ++ request.arguments.value) = false
  | setFunctionBreakpoints request =>
    request.arguments.any Text.isBlank = true ∨
      ∀ name ∈ request.arguments, Text.runsAtEnd (Text.trimBoth name) = false
  | setBreakpoints request => ∀ spec ∈ (setBreakpoints request).specs,
    Text.runsInside (os (request.arguments.source.path.getD "")) = false ∧
      spec.condition.any Text.runsInside = false

end TextRequest

/-! ## Harmless texts -/

/-- A command that resumes the target or is no execution control. -/
def Call.tame : ∀ {β : Type}, Call β → Prop
  | _, .execute c => c.resumes = true ∨ Text.isExecutionControlCommand c.render = false
  | _, _ => True

def DapOp.tame : ∀ {β : Type}, DapOp β → Prop
  | _, .call _ c | _, .enter _ c | _, .leave _ c => c.tame
  | _, _ => True

theorem classify_clear (id : Int) :
    Text.isExecutionControlCommand (Command.clear id).render = false := by
  have hlist : (Command.clear id).render.toList = ['b', 'c'] ++ ' ' :: (toString id).toList := by
    simp [Command.render, Text.toString_text]
  rw [Text.classify_of_word ['b', 'c'] hlist (by simp [Text.isBlankChar]) (by decide) (by decide),
    Text.runs, Text.splitList_of_none (by simpa using fun c hc => Text.line_no_separator hc)]
  rfl

theorem classify_frame (n : ℕ) :
    Text.isExecutionControlCommand (Command.frame n).render = false := by
  have hlist : (Command.frame n).render.toList =
      ['.', 'f', 'r', 'a', 'm', 'e'] ++ ' ' :: Nat.toDigits 10 n := by
    simp [Command.render, Text.toString_text]
  rw [Text.classify_of_word _ hlist (by simp [Text.isBlankChar]) (by decide) (by decide),
    Text.runs, Text.splitList_of_none (by simpa using fun c hc => Text.digits_no_separator hc)]
  rfl

instance : AllowsFixed Call.tame where
  allows c hc := by
    cases c with
    | execute command =>
      refine .inr ?_
      cases command with
      | clear id => exact classify_clear id
      | frame n => exact classify_frame n
      | cppFirstChance enabled => cases enabled <;> decide
      | lines | clearAll | clearDebugRegisters => decide
      | _ => exact hc.elim
    | _ => trivial

theorem tame_of_quiet {α : Type} {p : Dap α} (h : AllOps (DapOp.quiet Call.tame) p) :
    AllOps DapOp.tame p := by
  refine h.mono fun o ho => ?_
  cases o with
  | call | enter | leave => exact ho
  | _ => trivial

theorem fullPath_kept {t : Tid} {β : Type} {o : DapOp β} {b : β} {s s' : Server}
    (h : sem t β o s b s') : s'.fullPath = s.fullPath := by
  cases o with
  | call => obtain ⟨_, _, -, -, rfl⟩ := sem_call h; rfl
  | leave => obtain ⟨-, -, _, _, -, rfl⟩ := sem_leave h; rfl
  | enter => obtain ⟨_, -, -, -, rfl⟩ := sem_enter.1 h; rfl
  | acquire => obtain ⟨_, -, -, rfl⟩ := sem_acquire.1 h; rfl
  | send => rw [sem_send.1 h]; split <;> rfl
  | lockGate => obtain ⟨-, rfl⟩ := sem_lockGate.1 h; rfl
  | joinLoop => obtain ⟨-, rfl⟩ := sem_joinLoop.1 h; rfl
  | _ => obtain ⟨_, h⟩ := h; cases h; rfl

/-- The operating system resolves paths as `os` does. -/
def DapOp.resolved (os : String → String) : ∀ {β : Type}, DapOp β → β → Prop
  | _, .fullPath path, b => b = os path
  | _, _, _ => True

/-- Only tame operations. -/
def tameSpec (os : String → String) : Spec DapOp Unit where
  pre o K _ := o.tame ∧ ∀ b, o.resolved os b → K b ()
  mono _ _ _ hK _ h := ⟨h.1, fun b hb => hK b () (h.2 b hb)⟩

abbrev Tame (os : String → String) {α : Type} (p : Dap α) : Prop :=
  p.wp (tameSpec os) (fun _ _ => True) (fun _ _ => True) ()

namespace Tame

variable {os : String → String} {α α' : Type} {p : Dap α}

theorem of_allOps (h : AllOps DapOp.tame p) : Tame os p :=
  wp_of_allOps (S := tameSpec os) (I := fun _ => True)
    (fun _ ho _ _ => ⟨ho, fun _ _ => trivial⟩) h trivial

theorem of_quiet (h : AllOps (DapOp.quiet Call.tame) p) : Tame os p := of_allOps (tame_of_quiet h)

theorem bind {f : α → Dap α'} (hp : Tame os p) (hf : ∀ a, Tame os (f a)) : Tame os (p.bind f) := by
  rw [Tame, wp_bind]
  exact wp_mono_val (fun a _ _ => hf a) hp

theorem catching {f : Exn → Dap α} (hp : Tame os p) (hf : ∀ e, Tame os (f e)) :
    Tame os (p.catching f) := by
  rw [Tame, wp_catching]
  exact wp_mono (fun _ _ _ => trivial) (fun e _ _ => hf e) hp

theorem attempt (hp : Tame os p) : Tame os p.attempt := by
  rw [Tame, wp_attempt]
  exact hp

theorem ite {c : Prop} [Decidable c] {q : Dap α} (hp : c → Tame os p) (hq : ¬c → Tame os q) :
    Tame os (if c then p else q) := by
  split
  · rename_i hc
    exact hp hc
  · rename_i hc
    exact hq hc

theorem perform {o : DapOp α} (h : o.tame) : Tame os (.perform o) := ⟨h, fun _ _ => trivial⟩

theorem invoke {t : Tid} (hp : Tame os p) : Tame os (invoke t p) := by
  rw [DapDbgeng.invoke]
  refine ite (fun _ => hp) fun _ => ?_
  refine bind (perform trivial) fun _ => bind (perform trivial) fun _ => bind hp.attempt fun r =>
    bind (perform trivial) fun _ => ?_
  cases r with
  | ok => trivial
  | error => trivial

/-- What a tame program gets to execute. -/
theorem executes {t : Tid} {rely : Server → Server → Prop} {command : Command} {s : Server}
    (hp : Tame os p) (hos : s.fullPath = os) (hrely : ∀ s s', rely s s' → s'.fullPath = s.fullPath)
    (h : Reaches ((sem t).under rely) (fun _ => True) (fun o _ => o.executes command) p s) :
    command.resumes = true ∨ Text.isExecutionControlCommand command.render = false := by
  obtain ⟨es, β, o, k, s', hs, -, ho⟩ := h
  have hstep : ∀ {β : Type} (o : DapOp β) {K : β → Unit → Prop} {v : Unit} {s s' : Server} {b : β},
      s.fullPath = os → (tameSpec os).pre o K v → (sem t).under rely β o s b s' →
        ∃ v' : Unit, s'.fullPath = os ∧ K b v' := by
    rintro β o K v s s' b hv ⟨-, hK⟩ ⟨s₁, hr, hsem⟩
    have hos₁ : s₁.fullPath = os := (hrely _ _ hr).trans hv
    refine ⟨(), (fullPath_kept hsem).trans hos₁, hK b ?_⟩
    cases o with
    | fullPath path => exact (sem_fullPath.1 hsem).1.trans (congrFun hos₁ path)
    | _ => trivial
  obtain ⟨_, -, hw⟩ := wp_view hstep hs hos hp
  have htame : o.tame := hw.1
  cases o with
  | call id c =>
    cases c with
    | execute c => exact ho ▸ htame
    | _ => exact ho.elim
  | enter id c =>
    cases c with
    | execute c => exact ho ▸ htame
    | _ => exact ho.elim
  | _ => exact ho.elim

end Tame

namespace TextRequest

variable {os : String → String}

theorem send_tame {m : Message} : Tame os (send m) := .perform trivial

theorem requireDebuggerSession_tame : Tame os Server.requireDebuggerSession :=
  .bind (.perform trivial) fun s => by cases s <;> trivial

/-! ### evaluate -/

/-- The only text that is looked at first. -/
theorem evaluateAtStop_tame (request : Request EvaluateArguments) (context : Option FrameContext) :
    Tame os (Server.evaluateAtStop request context) := by
  refine .ite (fun _ => send_tame) fun _ => .bind (.perform trivial) fun _ =>
    .ite (fun _ => send_tame) fun _ => .ite (fun _ => send_tame) fun hcontrol => ?_
  have hraw : Call.tame (.execute (.raw request.arguments.expression)) :=
    .inr (by simpa [Command.render] using hcontrol)
  have hframe (n : ℕ) : Call.tame (.execute (.raw s!".frame {n};{request.arguments.expression}")) :=
    .inr ((Text.classify_evaluate n _).trans (by simpa using hcontrol))
  refine .bind requireDebuggerSession_tame fun id => .catching (.bind (.invoke (.of_quiet ?_))
    fun _ => send_tame) fun _ => send_tame
  exact Server.evaluate_allowed id context _ hraw hframe

theorem evaluate_tame (request : Request EvaluateArguments) :
    Tame os (Server.handleEvaluateRequest request) := by
  refine .ite (fun _ => send_tame) fun _ => .ite (fun _ => send_tame) fun _ =>
    .ite (fun _ => send_tame) fun _ => ?_
  cases request.arguments.frameId with
  | none => exact evaluateAtStop_tame request none
  | some frameId =>
    refine .ite (fun _ => send_tame) fun _ => .bind (.perform trivial) fun d => ?_
    cases d.frameContexts.get? frameId with
    | none => exact send_tame
    | some context => exact evaluateAtStop_tame request (some context)

/-! ### setVariable -/

theorem handleSetTopLevelVariable_tame (request : Request SetVariableArguments)
    (container : VariableContainerContext)
    (h : Text.runsAtEnd (request.arguments.name ++ "=" ++ request.arguments.value) = false) :
    Tame os (Server.handleSetTopLevelVariable request container) := by
  refine .bind requireDebuggerSession_tame fun id => .catching (.bind (.invoke (.of_quiet ?_))
    fun _ => .bind (.perform trivial) fun _ => send_tame) fun _ => send_tame
  refine Server.withThread_allowed id _ (Server.assignVariable_allowed id _ _ _ fun c hc => ?_)
  exact .inr (Text.classify_set h hc)

theorem handleSetStructField_tame (request : Request SetVariableArguments)
    (container : VariableContainerContext) :
    Tame os (Server.handleSetStructField request container) := by
  rw [Server.handleSetStructField]
  dsimp only
  cases container.variables_.find? fun v => v.name = request.arguments.name with
  | none => exact send_tame
  | some child =>
    refine .catching (.bind requireDebuggerSession_tame fun id => .bind (.invoke (.of_quiet ?_))
      fun _ => .bind (.perform trivial) fun _ => send_tame) fun _ => send_tame
    exact Server.withThread_allowed id _
      (.bind (Session.setLocalValue_quiet id _ _ _) fun _ => trivial)

theorem setVariable_tame (request : Request SetVariableArguments)
    (h : (setVariable request).harmless os) :
    Tame os (Server.handleSetVariableRequest request) := by
  refine .ite (fun _ => send_tame) fun hreference => .ite (fun _ => send_tame) fun hname =>
    .ite (fun _ => send_tame) fun hvalue => .bind (.perform trivial) fun _ =>
      .ite (fun _ => send_tame) fun _ => .bind (.perform trivial) fun d => ?_
  have htext := ((h.resolve_left hreference).resolve_left hname).resolve_left hvalue
  cases d.variablesByReference.get? request.arguments.variablesReference with
  | none => exact send_tame
  | some container =>
    exact .ite (fun _ => handleSetStructField_tame request container)
      fun _ => handleSetTopLevelVariable_tame request container htext

/-! ### Breakpoints -/

theorem destroy_tame (t : Tid) (id : SessionId) : AllOps DapOp.tame (Session.destroy t id) := by
  have rest : AllOps DapOp.tame (do
      Session.disconnectProcessServer id
      updateSession id .dispose) :=
    .bind (tame_of_quiet (Session.disconnectProcessServer_quiet id)) fun _ => .perform trivial
  refine .bind (.perform trivial) fun _ => .ite trivial (.bind (.perform trivial) fun _ =>
    .ite (.bind (.ite (.perform trivial) ?_) fun _ => rest) rest)
  exact .bind (.perform trivial) fun _ => .perform trivial

theorem drainPendingDisposedSession_tame :
    Tame os (Server.drainPendingDisposedSession .request) := by
  refine .bind (.perform trivial) fun s => ?_
  cases s with
  | none => trivial
  | some id => exact .catching (.invoke (.of_allOps (destroy_tame _ id))) fun _ => trivial

theorem joinWaitLoop_tame : Tame os Server.joinWaitLoop :=
  .bind (.perform trivial) fun _ => .bind (.perform trivial) fun _ => .bind (.perform trivial)
    fun _ => .ite
      (fun _ => .bind (.perform trivial) fun _ => drainPendingDisposedSession_tame)
      fun _ => drainPendingDisposedSession_tame

theorem startWaitingForSessionEvent_tame (id : SessionId) :
    Tame os (Server.startWaitingForSessionEvent id) := by
  have start : Tame os (do
      store .sessionStopOrExitObserved false
      store .waitLoopActive true
      Prog.perform (.spawnLoop id)
      Prog.perform .unlockGate) :=
    .bind (.perform trivial) fun _ => .bind (.perform trivial) fun _ => .bind (.perform trivial)
      fun _ => .perform trivial
  exact .bind (.perform trivial) fun _ => .bind (.perform trivial) fun _ => .ite
    (fun _ => .perform trivial) fun _ => .bind (.perform trivial) fun _ => .ite
      (fun _ => .bind (.perform trivial) fun _ => start) fun _ => start

theorem continue_tame (id : SessionId) : Tame os (Session.continue_ id) :=
  .of_allOps (.bind (.perform trivial) fun _ =>
    tame_of_quiet (Session.executeDebuggerCommand_quiet id (.inl rfl) _))

theorem whileRunning_tame {α : Type} (id : SessionId) {update : Dap α} (h : Tame os update) :
    Tame os (Server.applyBreakpointUpdateWhileRunning id update) := by
  refine .bind (.bind (.perform trivial) fun _ => .bind (.catching ?_ fun _ =>
    .bind (.perform trivial) fun _ => trivial) fun _ => .bind (.perform trivial) fun _ => trivial)
      fun _ => .bind (startWaitingForSessionEvent_tame id) fun _ => trivial
  exact .bind (.of_quiet (Session.interrupt_quiet id)) fun _ => .bind joinWaitLoop_tame fun _ =>
    .bind h fun _ => .bind (.perform trivial) fun _ => .bind (.invoke (continue_tame id)) fun _ =>
      trivial

theorem setFunctionBreakpoints_tame (request : Request (List String))
    (h : (setFunctionBreakpoints request).harmless os) :
    Tame os (Server.handleSetFunctionBreakpointsRequest request) := by
  refine .ite (fun _ => send_tame) fun hblank => .bind (.perform trivial) fun s => ?_
  have hnames := h.resolve_left hblank
  cases s with
  | none => exact send_tame
  | some _ =>
    refine .catching (.bind requireDebuggerSession_tame fun id => .bind (.perform trivial)
      fun _ => ?_) fun _ => send_tame
    have hset : Tame os (invoke .request
        (Session.setFunctionBreakpoints id (request.arguments.map Text.trimBoth))) := by
      refine .invoke (.of_quiet (Session.setCommandBreakpoints_quiet id _ fun c hc => ?_))
      obtain ⟨_, hname, rfl⟩ := List.mem_map.1 hc
      obtain ⟨name, hmem, rfl⟩ := List.mem_map.1 hname
      exact .inr ((Text.classify_function _).trans (hnames name hmem))
    exact .ite (fun _ => .bind (whileRunning_tame id hset) fun _ => send_tame)
      fun _ => .bind hset fun _ => send_tame

theorem setSourceBreakpoints_tame {id : SessionId} {filePath : String}
    {breakpoints : List SourceBreakpointSpec} (h : filePath.toList.all Text.isSpace = false →
      ∀ bp ∈ breakpoints, Call.tame (.execute (.sourceBreakpoint (os filePath) bp))) :
    Tame os (Session.setSourceBreakpoints id filePath breakpoints) := by
  refine .bind (.of_quiet (Session.throwIfDisposed_quiet id)) fun _ => ?_
  rw [Session.throwIfNullOrWhitespace]
  split
  · trivial
  · rename_i hblank
    have hspecs : ∀ bp ∈ Session.distinctSpecs [] breakpoints,
        Call.tame (.execute (.sourceBreakpoint (os filePath) bp)) := fun bp hbp =>
      h (by simpa using hblank) bp (Session.distinctSpecs_sub bp hbp).1
    -- what the operating system makes of the path
    refine ⟨trivial, fun path hpath => ?_⟩
    obtain rfl : path = os filePath := hpath
    change Tame os (do
      let _ ← Session.executeCommandWithOutput id .lines
      Session.clearSourceBreakpoints id (os filePath)
      if breakpoints.isEmpty then return []
      else do
        let configured ← Session.configureSourceBreakpoints id (os filePath) {}
          (Session.distinctSpecs [] breakpoints)
        updateSession id (.trackSource (Text.toUpperInvariant (os filePath)) configured.ids)
        return breakpoints.map (Session.projectResult configured.results))
    refine Tame.of_quiet (.bind (Session.fixedCommand_quiet id (by trivial) _) fun _ =>
      .bind (Session.clearSourceBreakpoints_quiet id _) fun _ => .ite trivial ?_)
    exact .bind (Session.configureSourceBreakpoints_allowed id hspecs _) fun _ =>
      .bind (.perform trivial) fun _ => trivial

/-- The path and the conditions of the configured breakpoints are harmless. -/
theorem source_tame {request : Request SetBreakpointsArguments}
    (h : (setBreakpoints request).harmless os) {path : String} {spec : SourceBreakpointSpec}
    (hpath : request.arguments.source.path = some path)
    (hspec : spec ∈ (setBreakpoints request).specs) :
    Call.tame (.execute (.sourceBreakpoint (os path) spec)) := by
  obtain ⟨hp, hc⟩ := h spec hspec
  rw [hpath] at hp
  exact .inr ((Text.classify_source _ _).trans (by rw [hc]; simpa using hp))

theorem updateConditionalBreakpointState_tame (path : String)
    (configured : List SourceBreakpointResult) (requested : List SourceBreakpoint) :
    Tame os (Server.updateConditionalBreakpointState path configured requested) :=
  Server.updateConditionalBreakpointState_composed (Q := fun {_} p => Tame os p) trivial
    (fun hp hf => .bind hp hf) (.perform trivial) fun _ _ => .perform trivial

theorem setBreakpoints_tame (request : Request SetBreakpointsArguments)
    (h : (setBreakpoints request).harmless os) :
    Tame os (Server.handleSetBreakpointsRequest request) := by
  refine .ite (fun _ => send_tame) fun hreference => ?_
  cases hfilter : request.arguments.source.path.filter fun p => !Text.isBlank p with
  | none => exact send_tame
  | some path =>
    obtain ⟨hpath, -⟩ := Option.filter_eq_some_iff.1 hfilter
    refine .bind requireDebuggerSession_tame fun id => .bind (.perform trivial) fun resume => ?_
    have hset : Tame os (invoke .request (Session.setSourceBreakpoints id path
        ((((Server.readRequestedSourceBreakpoints request.arguments).map
          Server.parseSourceBreakpoint).filter fun p => p.spec.isSome).filterMap fun p =>
            p.spec))) := by
      refine .invoke (setSourceBreakpoints_tame fun hspace bp hbp => source_tame h hpath ?_)
      obtain ⟨p, hp, hbp⟩ := List.mem_filterMap.1 hbp
      have haccepted : acceptedPath request.arguments = some path := by
        rw [acceptedPath, if_neg hreference, hpath]
        exact Option.filter_eq_some_iff.2 ⟨rfl, by simpa using hspace⟩
      rw [specs, haccepted]
      exact List.mem_filterMap.2 ⟨p, (List.mem_filter.1 hp).1, hbp⟩
    have hrest (configured : List SourceBreakpointResult) : Tame os (do
        Server.updateConditionalBreakpointState path configured
          ((((Server.readRequestedSourceBreakpoints request.arguments).map
            Server.parseSourceBreakpoint).filter fun p => p.spec.isSome).map fun p => p.request)
        Server.sendResponse request (.breakpoints (Server.createResponseBreakpoints
          request.arguments.source ((Server.readRequestedSourceBreakpoints request.arguments).map
            Server.parseSourceBreakpoint) configured))
        if (((((Server.readRequestedSourceBreakpoints request.arguments).map
            Server.parseSourceBreakpoint).filter fun p => p.hasUnsupportedOptions).map fun p =>
              p.request).isEmpty) then return
        else Server.sendEvent (Factory.createOutputEvent
          (Server.createUnsupportedBreakpointMessage request.arguments.source
            ((((Server.readRequestedSourceBreakpoints request.arguments).map
              Server.parseSourceBreakpoint).filter fun p => p.hasUnsupportedOptions).map fun p =>
                p.request)) .important)) :=
      .bind (updateConditionalBreakpointState_tame _ _ _) fun _ => .bind send_tame fun _ =>
        .ite (fun _ => trivial) fun _ => send_tame
    exact .ite (fun _ => .bind (whileRunning_tame id hset) hrest) fun _ => .bind hset hrest

/-! ### What a harmless request passes -/

theorem handle_tame {r : TextRequest} (h : r.harmless os) : Tame os r.handle := by
  cases r with
  | evaluate request => exact evaluate_tame request
  | setVariable request => exact setVariable_tame request h
  | setFunctionBreakpoints request => exact setFunctionBreakpoints_tame request h
  | setBreakpoints request => exact setBreakpoints_tame request h

theorem condition_tame {r : TextRequest} (h : r.harmless os) {spec : SourceBreakpointSpec}
    {condition : String} (hspec : spec ∈ r.specs) (hcondition : spec.condition = some condition)
    (id : SessionId) : Tame os (Server.tryEvaluateConditionalBreakpoint id condition) := by
  cases r with
  | setBreakpoints request =>
    obtain ⟨-, hc⟩ := h spec hspec
    rw [hcondition, Option.any_some] at hc
    have htame : Call.tame (.execute (.condition condition)) :=
      .inr ((Text.classify_condition condition).trans hc)
    exact .of_quiet (.catching (.bind (Session.executeCommandWithOutput_quiet id htame _)
      fun _ => trivial) fun _ => trivial)
  | _ => cases hspec

theorem neverControl_of_harmless {r : TextRequest} (h : r.harmless os) : r.NeverControl os := by
  rintro command hpasses hresumes
  have htame : command.resumes = true ∨ Text.isExecutionControlCommand command.render = false := by
    cases hpasses with
    | handler s hos hreach => exact (handle_tame h).executes hos (fun _ _ hr => hr) hreach
    | condition s hos id spec hspec condition hcondition _ hreach =>
      exact (condition_tame h hspec hcondition id).executes hos (fun _ _ hr => hr) hreach
  exact htame.resolve_left (by simp [hresumes])

end TextRequest

/-! ## What gets executed -/

/-- The session answers as an engine that works and makes no breakpoints. -/
def answerPre (os : String → String) (id : SessionId) : ∀ {β : Type}, DapOp β →
    (β → Session × Unit → Prop) → Session × Unit → Prop
  | _, .readSession i => fun K v => i = id ∧ K v.1 v
  | _, .updateSession i u => fun K v => i = id ∧ K () (v.1.update u, v.2)
  | _, .call i c => fun K v => i = id ∧ c.admissible (c.default v.1.engine) v.1.engine = true ∧
    Call.mayCreate [] v.1.engine c = true ∧ K (c.default v.1.engine)
      ({ v.1 with engine := c.effect [] (fun e => e) (c.default v.1.engine) v.1.engine }, v.2)
  | _, .send _ => fun K v => K () v
  | _, .fullPath path => fun K v => K (os path) v
  | _, _ => fun _ _ => False

def answerSpec (os : String → String) (id : SessionId) : Spec DapOp (Session × Unit) where
  pre := answerPre os id
  mono o K K' hK v h := by
    cases o with
    | readSession | updateSession => exact ⟨h.1, hK _ _ h.2⟩
    | call => exact ⟨h.1, h.2.1, h.2.2.1, hK _ _ h.2.2.2⟩
    | send | fullPath => exact hK _ _ h
    | _ => exact h.elim

theorem answerSpec_follows (os : String → String) (id : SessionId) :
    Follows id (answerSpec os id) :=
  ⟨fun h => ⟨rfl, h⟩, fun h => ⟨rfl, h⟩, fun h => h⟩

/-- What the session is, and what the operating system makes of a path. -/
def Answers.view (os : String → String) (id : SessionId) (v : Session × Unit) (s : Server) : Prop :=
  v.1 = s.sessions id ∧ s.fullPath = os

theorem answers_angelic {os : String → String} {id : SessionId} {t : Tid} {β : Type} (o : DapOp β)
    {K : β → Session × Unit → Prop} {v : Session × Unit} {s : Server} (hv : Answers.view os id v s)
    (h : (answerSpec os id).pre o K v) :
    (Spec.angelic (TextRequest.steps t)).pre o (fun b s' => ∃ v', Answers.view os id v' s' ∧ K b v')
      s := by
  obtain ⟨x, u⟩ := v
  obtain ⟨rfl, hos⟩ := hv
  have can {b : β} (s' : Server) {x' : Session} (ha : apply t {} o s = some (b, s'))
      (hx : x' = s'.sessions id) (hK : K b (x', u)) : (Spec.angelic (TextRequest.steps t)).pre o
        (fun b s' => ∃ v', Answers.view os id v' s' ∧ K b v') s :=
    ⟨b, s', ⟨s, rfl, {}, ha⟩, (x', u), ⟨hx, (fullPath_kept ⟨{}, ha⟩).trans hos⟩, hK⟩
  cases o with
  | readSession i =>
    obtain ⟨rfl, hK⟩ := h
    exact can _ rfl rfl hK
  | updateSession i w =>
    obtain ⟨rfl, hK⟩ := h
    refine can _ rfl ?_ hK
    rw [Server.modifySession_sessions, if_pos rfl]
  | call i c =>
    obtain ⟨rfl, hadmissible, hcreate, hK⟩ := h
    refine can (s.updateEngine i (c.effect [] (fun e => e) (c.default (s.engine i)))) ?_ ?_ hK
    · change applyCall {} i c s = _
      rw [applyCall, if_pos (by rw [Bool.and_eq_true]; exact ⟨hadmissible, hcreate⟩)]
      rfl
    · rw [Server.updateEngine_sessions, if_pos rfl]
      rfl
  | send m =>
    refine can _ rfl ?_ h
    split <;> rfl
  | fullPath path => exact can _ rfl rfl (by rw [hos]; exact h)
  | _ => exact h.elim

namespace Session

variable {os : String → String} {id : SessionId} {v : Session × Unit}

theorem command_answers {command : Command} {Q : String → Session × Unit → Prop}
    {E : Exn → Session × Unit → Prop} (hc : command.plain = true) (hi : v.1.Idle)
    (hQ : ∀ output x, x.Idle → Q output (x, v.2)) :
    (executeCommandWithOutput id command).wp (answerSpec os id) Q E v := by
  refine (answerSpec_follows os id).executeCommandWithOutput hc (fun hn => absurd hi hn) fun _ => ?_
  refine ⟨rfl, rfl, ?_, fun capture => ?_⟩
  · rw [Call.mayCreate]
    split <;> rfl
  · exact fun output => hQ output _ ⟨hi.1, rfl⟩

theorem enumerate_answers {Q : List Int → Session × Unit → Prop} {E : Exn → Session × Unit → Prop}
    (hi : v.1.Idle) (hQ : ∀ ids, Q ids v) :
    (getConfiguredBreakpointIds id).wp (answerSpec os id) Q E v := by
  rw [getConfiguredBreakpointIds, bind_eq, wp_bind]
  refine (answerSpec_follows os id).throwIfDisposed (fun hd => ?_) fun _ => ?_
  · rw [hi.1] at hd
    cases hd
  · exact ⟨rfl, List.isSublist_iff_sublist.2 (List.Sublist.refl _), rfl, hQ _⟩

theorem clear_answers {ids : List Int} {E : Exn → Session × Unit → Prop} (hi : v.1.Idle) :
    (Prog.forEach (clearBreakpoint id) ids).wp (answerSpec os id) (fun _ v' => v'.1.Idle) E v := by
  refine wp_forEach (I := fun (v : Session × Unit) => v.1.Idle) (fun n _ v' hi' => ?_) hi
  rw [clearBreakpoint, bind_eq, wp_bind]
  exact command_answers rfl hi' fun _ _ h => h

theorem setCommand_answers {kind : BreakpointKind} {command : Command} {label : String}
    {E : Exn → Session × Unit → Prop} (hc : command.plain = true) (hi : v.1.Idle) :
    (setCommandBreakpoint id kind command label).wp (answerSpec os id) (fun _ v' => v'.1.Idle) E
      v := by
  rw [setCommandBreakpoint]
  simp only [bind_eq, wp_bind, wp_catching]
  refine enumerate_answers hi fun before => command_answers hc hi fun _ x hx =>
    enumerate_answers hx fun after => ?_
  split
  · exact ⟨rfl, rfl, hx⟩
  · exact hx

theorem configureOne_answers {path : String} {configured : ConfiguredBreakpoints}
    {bp : SourceBreakpointSpec} {E : Exn → Session × Unit → Prop} (hi : v.1.Idle) :
    (configureSourceBreakpoint id path configured bp).wp (answerSpec os id) (fun _ v' => v'.1.Idle)
      E v := by
  rw [configureSourceBreakpoint]
  simp only [bind_eq, wp_bind]
  refine enumerate_answers hi fun before => command_answers rfl hi fun _ x hx =>
    enumerate_answers hx fun after => ?_
  exact hx

theorem clearSource_answers {path : String} {E : Exn → Session × Unit → Prop} (hi : v.1.Idle) :
    (clearSourceBreakpoints id path).wp (answerSpec os id) (fun _ v' => v'.1.Idle) E v := by
  rw [clearSourceBreakpoints, bind_eq]
  refine (answerSpec_follows os id).readSession ?_
  split
  · exact hi
  · exact ⟨rfl, clear_answers hi⟩

/-! ### Reaching a command -/

variable {s : Server} {command : Command}

/-- The thread gets to execute the command. -/
abbrev Executes (t : Tid) (command : Command) {α : Type} (p : Dap α) (s : Server) : Prop :=
  Reaches (TextRequest.steps t) (fun _ => True) (fun o _ => o.executes command) p s

theorem Executes.op {t : Tid} {β α : Type} {o : DapOp β} {b : β} {k : β → Dap α} {s s₁ : Server}
    (h : apply t {} o s = some (b, s₁)) (hk : Executes t command (k b) s₁) :
    Executes t command (.op o k) s :=
  Reaches.op ⟨s, rfl, {}, h⟩ trivial hk

/-- After a first part that the engine answers. -/
theorem Executes.after (id : SessionId) {t : Tid} {α α' : Type} {p : Dap α} {f : α → Dap α'}
    (hos : s.fullPath = os)
    (h : p.wp (answerSpec os id) (fun a v => ∀ s : Server, s.sessions id = v.1 → s.fullPath = os →
      Executes t command (f a) s) (fun _ _ => False) (s.sessions id, ())) :
    Executes t command (p.bind f) s := by
  refine Reaches.after ?_ fun _ => trivial
  have hwp := wp_of_view (T := Spec.angelic (TextRequest.steps t))
    (fun {_} o {_ _ _} hv h => answers_angelic o hv h) ⟨rfl, hos⟩ h
  refine wp_mono ?_ ?_ hwp
  · rintro a s' ⟨v', ⟨hv, hos'⟩, hf⟩
    exact hf s' hv.symm hos'
  · rintro e s' ⟨v', -, hf⟩
    exact hf

theorem executes_debuggerCommand {t : Tid} {message : String}
    (hd : (s.sessions id).disposed = false) :
    Executes t command (executeDebuggerCommand id command message) s := by
  rw [executeDebuggerCommand, throwIfDisposed]
  refine Executes.op rfl ?_
  dsimp only
  rw [ret_bind, if_neg (by rw [hd]; simp), pure_eq, ret_bind, execute]
  refine .left ?_
  cases hpump : (Call.execute command).pump? with
  | none =>
    rw [if_neg (by simp)]
    exact .left (.here rfl)
  | some pump =>
    rw [if_pos (by simp)]
    exact .left (.left (.here rfl))

theorem executes_command {t : Tid} (hblank : command.render.toList.all Text.isSpace = false)
    (hi : (s.sessions id).Idle) : Executes t command (executeCommandWithOutput id command) s := by
  have hbegun : ((s.modifySession id (·.update (.beginCapture true))).sessions id).disposed =
      false := by
    rw [Server.modifySession_sessions, if_pos rfl]
    exact hi.1
  rw [executeCommandWithOutput, throwIfDisposed]
  refine .op rfl ?_
  dsimp only
  rw [ret_bind, if_neg (by rw [hi.1]; simp)]
  rw [throwIfNullOrWhitespace, if_neg (by simp [hblank])]
  refine .op rfl ?_
  dsimp only
  rw [ret_bind, if_neg (by rw [hi.2]; simp)]
  exact Executes.op rfl (executes_debuggerCommand hbegun).left.catching

/-- One of the commands of a setter. -/
theorem executes_setCommands {t : Tid} {kind : BreakpointKind} {commands : List (Command × String)}
    (hc : ∀ c ∈ commands, c.1.plain = true) (hmem : ∃ c ∈ commands, c.1 = command)
    (hos : s.fullPath = os) (hi : (s.sessions id).Idle) :
    Executes t command (setCommandBreakpoints id kind commands) s := by
  have heach : ∀ s : Server, s.fullPath = os → (s.sessions id).Idle → Executes t command
      (Prog.mapEach (fun c => setCommandBreakpoint id kind c.1 c.2) commands) s := by
    clear hos hi
    induction commands with
    | nil => obtain ⟨_, h, -⟩ := hmem; cases h
    | cons c commands ih =>
      intro s hos hi
      rw [Prog.mapEach]
      by_cases hfirst : c.1 = command
      · subst hfirst
        refine .left ?_
        rw [setCommandBreakpoint, bind_eq]
        refine Executes.after id hos (enumerate_answers hi fun before s' hs' _ =>
          .left (.catching ?_))
        exact executes_command (Command.render_of_plain (hc c (.head _))) (by rw [hs']; exact hi)
      · refine Executes.after id hos (wp_mono_val ?_ (setCommand_answers (hc c (.head _)) hi))
        rintro r v' hi' s' hs' hos'
        have hrest : ∃ c ∈ commands, c.1 = command := by
          obtain ⟨c', hc', rfl⟩ := hmem
          rcases List.mem_cons.1 hc' with rfl | hc'
          · exact absurd rfl hfirst
          · exact ⟨c', hc', rfl⟩
        exact .left (ih (fun c' hc' => hc c' (.tail _ hc')) hrest s' hos' (by rw [hs']; exact hi'))
  rw [setCommandBreakpoints, bind_eq]
  refine Executes.after id hos ((answerSpec_follows os id).throwIfDisposed
    (fun hd => by rw [hi.1] at hd; cases hd) fun _ s₁ hs₁ hos₁ => ?_)
  refine Executes.op rfl ?_
  simp only [ret_bind, bind_eq]
  refine Executes.after id hos₁ (wp_mono_val ?_ (clear_answers
    (v := (s₁.sessions id, ())) (by rw [hs₁]; exact hi)))
  rintro _ v' hi' s₂ hs₂ hos₂
  refine .op rfl (heach _ hos₂ ?_)
  rw [Server.modifySession_sessions, if_pos rfl, hs₂]
  exact hi'

theorem executes_configure {t : Tid} {path : String} {bp : SourceBreakpointSpec}
    {bps : List SourceBreakpointSpec} (hmem : bp ∈ bps) {configured : ConfiguredBreakpoints}
    (hos : s.fullPath = os) (hi : (s.sessions id).Idle) :
    Executes t (.sourceBreakpoint path bp) (configureSourceBreakpoints id path configured bps)
      s := by
  induction bps generalizing configured s with
  | nil => cases hmem
  | cons b bps ih =>
    rw [configureSourceBreakpoints, bind_eq]
    by_cases hfirst : b = bp
    · subst hfirst
      refine .left ?_
      rw [configureSourceBreakpoint, bind_eq]
      refine Executes.after id hos (enumerate_answers hi fun before s' hs' _ => .left ?_)
      exact executes_command (Command.render_of_plain rfl) (by rw [hs']; exact hi)
    · refine Executes.after id hos (wp_mono_val ?_ (configureOne_answers hi))
      rintro next v' hi' s' hs' hos'
      have hrest : bp ∈ bps := (List.mem_cons.1 hmem).resolve_left fun h => hfirst h.symm
      exact ih hrest hos' (by rw [hs']; exact hi')

theorem executes_setSource {t : Tid} {filePath : String} {bp : SourceBreakpointSpec}
    {breakpoints : List SourceBreakpointSpec} (hpath : filePath.toList.all Text.isSpace = false)
    (hmem : bp ∈ distinctSpecs [] breakpoints) (hos : s.fullPath = os)
    (hi : (s.sessions id).Idle) :
    Executes t (.sourceBreakpoint (os filePath) bp) (setSourceBreakpoints id filePath breakpoints)
      s := by
  have hsome : breakpoints.isEmpty = false := by
    cases breakpoints with
    | nil => cases hmem
    | cons => rfl
  rw [setSourceBreakpoints, bind_eq]
  refine Executes.after id hos ((answerSpec_follows os id).throwIfDisposed
    (fun hd => by rw [hi.1] at hd; cases hd) fun _ s₁ hs₁ hos₁ => ?_)
  rw [throwIfNullOrWhitespace, if_neg (by simp [hpath]), pure_eq, bind_eq, ret_bind]
  refine Executes.op rfl ?_
  rw [hos₁, ret_bind, bind_eq]
  refine Executes.after id hos₁ (command_answers rfl (by rw [hs₁]; exact hi)
    fun _ x hx s₂ hs₂ hos₂ => ?_)
  rw [bind_eq]
  refine Executes.after id hos₂ (wp_mono_val ?_ (clearSource_answers
    (v := (s₂.sessions id, ())) (by rw [hs₂]; exact hx)))
  rintro _ v' hi' s₃ hs₃ hos₃
  rw [hsome]
  exact .left (executes_configure hmem hos₃ (by rw [hs₃]; exact hi'))

/-- A session with one thread. -/
def oneThread : Session := { engine := { threads := [(0, 1)] } }

theorem currentThread_answers {Q : ℕ → Session × Unit → Prop} {E : Exn → Session × Unit → Prop}
    (hQ : Q 1 (oneThread, ())) :
    (getCurrentThreadId id).wp (answerSpec os id) Q E (oneThread, ()) := by
  refine ⟨rfl, rfl, rfl, rfl, rfl, rfl, rfl, ?_⟩
  exact ⟨rfl, rfl, rfl, hQ⟩

theorem selectThread_answers {Q : Unit → Session × Unit → Prop} {E : Exn → Session × Unit → Prop}
    (hQ : Q () (oneThread, ())) :
    (setCurrentThread id 1).wp (answerSpec os id) Q E (oneThread, ()) := by
  refine ⟨rfl, rfl, rfl, rfl, rfl, ?_⟩
  exact ⟨rfl, rfl, rfl, hQ⟩

theorem executes_inThread {t : Tid} {α : Type} {action : Dap α} (hos : s.fullPath = os)
    (hs : s.sessions id = oneThread)
    (haction : ∀ s : Server, s.fullPath = os → s.sessions id = oneThread →
      Executes t command action s) :
    Executes t command (Server.withThread id 1 action) s := by
  rw [Server.withThread, bind_eq]
  refine Executes.after id hos ?_
  rw [hs]
  refine currentThread_answers fun s₁ hs₁ hos₁ => .catching ?_
  rw [bind_eq]
  refine Executes.after id hos₁ ?_
  rw [hs₁]
  exact selectThread_answers fun s₂ hs₂ hos₂ => .left (haction s₂ hos₂ hs₂)

end Session

namespace TextRequest

open Session

variable {os : String → String} {s : Server} {command : Command}

theorem executes_invoke {α : Type} {p : Dap α} (hqueue : s.queue = []) (hholder : s.holder = none)
    (h : Executes .request command p { s with queue := [], holder := some .request }) :
    Executes .request command (invoke .request p) s := by
  rw [invoke, if_neg (by decide)]
  refine Executes.op rfl ?_
  have hacquire : apply .request {} .acquire { s with queue := s.queue ++ [.request] } =
      some ((), { s with queue := [], holder := some .request }) := by
    simp [apply, hqueue, hholder]
  exact Executes.op hacquire h.attempt.left

/-- The target is stopped, a session is open and the dispatcher is free. -/
def stoppedAt (os : String → String) (tables : Tables) : Server where
  tables := tables
  session := some 0
  sessions := fun _ => oneThread
  fullPath := os

theorem register_nonblank (name value : String) :
    (Command.raw s!"r {name}={value}").render.toList.all Text.isSpace = false := by
  have hlist : (Command.raw s!"r {name}={value}").render.toList =
      'r' :: ' ' :: (name.toList ++ '=' :: value.toList) := by
    simp [Command.render, Text.toString_text]
  rw [hlist]
  rfl

theorem condition_nonblank (condition : String) :
    (Command.condition condition).render.toList.all Text.isSpace = false := by
  have hlist : (Command.condition condition).render.toList =
      'd' :: ('x' :: ' ' :: '(' :: (condition.toList ++ [')'])) := by
    simp [Command.render]
  rw [hlist]
  rfl

theorem reaches_setVariable {request : Request SetVariableArguments} {tables : Tables}
    (h : ¬(setVariable request).harmless os)
    (htables : tables.variablesByReference.get? request.arguments.variablesReference =
      some { threadId := 1, kind := .registers }) :
    Executes .request (.raw s!"r {request.arguments.name}={request.arguments.value}")
      (Server.handleSetVariableRequest request) (stoppedAt os tables) := by
  obtain ⟨hreference, hname, hvalue, -⟩ :
      ¬request.arguments.variablesReference ≤ 0 ∧ ¬Text.isBlank request.arguments.name = true ∧
        ¬Text.isBlank request.arguments.value = true ∧
          ¬Text.runsAtEnd (request.arguments.name ++ "=" ++ request.arguments.value) = false := by
    simpa only [harmless, not_or] using h
  rw [Server.handleSetVariableRequest, if_neg hreference, if_neg hname, if_neg hvalue]
  refine Executes.op rfl ?_
  refine Executes.op rfl ?_
  rw [show (stoppedAt os tables).tables = tables from rfl, ret_bind, htables]
  refine Executes.op rfl ?_
  refine (Reaches.left (executes_invoke rfl rfl ?_)).catching
  refine executes_inThread (rfl : (stoppedAt os tables).fullPath = os) rfl fun s hos hs =>
    .left ?_
  exact .left (executes_command (register_nonblank _ _) (by rw [hs]; exact ⟨rfl, rfl⟩)).attempt

theorem reaches_setFunctionBreakpoints {request : Request (List String)}
    (hblank : request.arguments.any Text.isBlank = false) {name : String}
    (hname : name ∈ request.arguments) :
    Executes .request (.functionBreakpoint (Text.trimBoth name))
      (Server.handleSetFunctionBreakpointsRequest request) (stoppedAt os {}) := by
  rw [Server.handleSetFunctionBreakpointsRequest, if_neg (by simp [hblank]), Server.applyUpdate]
  refine Executes.op rfl ?_
  refine Reaches.catching ?_
  refine Executes.op rfl ?_
  refine Executes.op rfl ?_
  change Executes _ _ (Prog.bind (invoke .request (Session.setFunctionBreakpoints 0
    (request.arguments.map Text.trimBoth))) _) _
  refine .left (executes_invoke rfl rfl ?_)
  refine executes_setCommands ?_ ?_ (rfl : (stoppedAt os {}).fullPath = os) ⟨rfl, rfl⟩
  · intro c hc
    obtain ⟨_, -, rfl⟩ := List.mem_map.1 hc
    rfl
  · exact ⟨_, List.mem_map.2 ⟨_, List.mem_map.2 ⟨name, hname, rfl⟩, rfl⟩, rfl⟩

theorem reaches_setBreakpoints {request : Request SetBreakpointsArguments} {path : String}
    (hreference : request.arguments.source.sourceReference.any (· > 0) = false)
    (hpath : request.arguments.source.path = some path)
    (hspace : path.toList.all Text.isSpace = false) {spec : SourceBreakpointSpec}
    (hspec : spec ∈ distinctSpecs [] (setBreakpoints request).specs) :
    Executes .request (.sourceBreakpoint (os path) spec)
      (Server.handleSetBreakpointsRequest request) (stoppedAt os {}) := by
  have haccepted : acceptedPath request.arguments = some path := by
    rw [acceptedPath, hpath, if_neg (by rw [hreference]; simp)]
    exact Option.filter_eq_some_iff.2 ⟨rfl, by rw [hspace]; rfl⟩
  have hspecs : (((Server.readRequestedSourceBreakpoints request.arguments).map
      Server.parseSourceBreakpoint).filter fun p => p.spec.isSome).filterMap (fun p => p.spec) =
        (setBreakpoints request).specs := by
    rw [specs, haccepted, List.filterMap_filter]
    refine List.filterMap_congr fun p _ => ?_
    cases p.spec <;> rfl
  have hfilter : request.arguments.source.path.filter (fun p => !Text.isBlank p) = some path := by
    rw [hpath]
    refine Option.filter_eq_some_iff.2 ⟨rfl, ?_⟩
    rw [Bool.not_eq_true']
    by_contra hblank
    rw [Text.isSpace_of_isBlank (Bool.eq_true_of_not_eq_false hblank)] at hspace
    cases hspace
  rw [Server.handleSetBreakpointsRequest, if_neg (by rw [hreference]; simp), hfilter]
  change Executes _ _ (Server.configureSetBreakpoints request path) _
  rw [Server.configureSetBreakpoints]
  dsimp only
  rw [hspecs]
  refine Executes.op rfl ?_
  refine Executes.op rfl ?_
  rw [ret_bind, if_neg (show ¬(stoppedAt os {}).flags .isExecutionRunning = true from
    Bool.false_ne_true)]
  refine .left (executes_invoke rfl rfl ?_)
  exact executes_setSource hspace hspec rfl ⟨rfl, rfl⟩

/-! ### What a harmful request passes -/

theorem accepted_of_spec {request : Request SetBreakpointsArguments} {spec : SourceBreakpointSpec}
    (h : spec ∈ (setBreakpoints request).specs) :
    ∃ path, request.arguments.source.sourceReference.any (· > 0) = false ∧
      request.arguments.source.path = some path ∧ path.toList.all Text.isSpace = false := by
  have haccepted : acceptedPath request.arguments ≠ none := by
    intro hnone
    rw [specs, hnone] at h
    cases h
  obtain ⟨path, hpath⟩ := Option.ne_none_iff_exists'.1 haccepted
  unfold acceptedPath at hpath
  split at hpath
  · cases hpath
  · rename_i hreference
    obtain ⟨hsome, hspace⟩ := Option.filter_eq_some_iff.1 hpath
    exact ⟨path, by simpa using hreference, hsome, by simpa using hspace⟩

theorem spec_line {request : Request SetBreakpointsArguments} {spec : SourceBreakpointSpec}
    (h : spec ∈ (setBreakpoints request).specs) : 0 < spec.line := by
  rw [specs] at h
  split at h
  · cases h
  · obtain ⟨p, hp, hspec⟩ := List.mem_filterMap.1 h
    obtain ⟨b, -, rfl⟩ := List.mem_map.1 hp
    rw [Server.parseSourceBreakpoint] at hspec
    split at hspec
    · cases hspec
    split at hspec
    · cases hspec
    · rename_i hline
      cases hspec
      dsimp only
      omega

theorem harmless_of_neverControl {r : TextRequest} (h : r.NeverControl os) : r.harmless os := by
  by_contra hharm
  cases r with
  | evaluate => exact hharm trivial
  | setVariable request =>
    let tables : Tables := { variablesByReference :=
      [(request.arguments.variablesReference, { threadId := 1, kind := .registers })] }
    have hsafe := h _ (.handler (stoppedAt os tables) rfl (reaches_setVariable hharm
      (by rw [AssocMap.get?_cons, if_pos rfl]))) rfl
    rw [Command.render, Text.classify_register] at hsafe
    exact hharm (.inr (.inr (.inr hsafe)))
  | setFunctionBreakpoints request =>
    refine hharm (or_iff_not_imp_left.2 fun hblank name hname => ?_)
    have hsafe := h _ (.handler (stoppedAt os {}) rfl
      (reaches_setFunctionBreakpoints (by simpa using hblank) hname)) rfl
    rwa [Text.classify_function] at hsafe
  | setBreakpoints request =>
    refine hharm fun spec hspec => ⟨?_, ?_⟩
    · -- the first breakpoint with this line and condition
      obtain ⟨path, hreference, hpath, hspace⟩ := accepted_of_spec hspec
      obtain hseen | ⟨b, hb, -⟩ := distinctSpecs_covers [] hspec (spec_line hspec)
      · cases hseen
      have hsafe := h _ (.handler (stoppedAt os {}) rfl
        (reaches_setBreakpoints hreference hpath hspace hb)) rfl
      rw [Text.classify_source, Bool.or_eq_false_iff] at hsafe
      rw [hpath]
      exact hsafe.1
    · by_contra hruns
      cases hcondition : spec.condition with
      | none => rw [hcondition] at hruns; exact hruns rfl
      | some condition =>
        rw [hcondition, Option.any_some, Bool.not_eq_false] at hruns
        have hblank : Text.isBlank condition = false := by
          by_contra hblank
          rw [Text.runsInside_of_spaces (Text.isSpace_of_isBlank
            (Bool.eq_true_of_not_eq_false hblank))] at hruns
          cases hruns
        have hreach : Executes .callback (.condition condition)
            (Server.tryEvaluateConditionalBreakpoint 0 condition) (stoppedAt os {}) :=
          (executes_command (condition_nonblank condition) ⟨rfl, rfl⟩).left.catching
        have hsafe := h _ (.condition (stoppedAt os {}) rfl 0 spec hspec condition hcondition hblank
          hreach) rfl
        rw [Text.classify_condition, hruns] at hsafe
        cases hsafe

/-- No command is execution control exactly if the texts are harmless. -/
theorem never_control_iff (os : String → String) (r : TextRequest) :
    r.NeverControl os ↔ r.harmless os :=
  ⟨harmless_of_neverControl, neverControl_of_harmless⟩

/-- The value of a register, and a second command. -/
theorem secondCommand_control : ¬(setVariable { seq := 1, command := "setVariable", arguments :=
    { variablesReference := 1, name := "rax", value := "1;g" } }).NeverControl fun p => p := by
  intro h
  have hharmless := harmless_of_neverControl h
  simp only [harmless] at hharmless
  exact absurd hharmless (by decide)

end TextRequest

end DapDbgeng
