/-
  The trace recorder of the transport.

  It keeps the messages that come in and go out.  Console output that goes out message after
  message is kept as one message.

  * `TraceRecorder.run`: a recorder after some calls;
  * `NormalForm`: the transcript that belongs to a sequence of messages;
  * `TraceRecorder.transcript_normal`: a recorder that is not discarded stores that transcript, and
    a transcript that is recorded again is stored unchanged.
-/
import DapDbgeng.Coalescing
import DapDbgeng.Dict
import DapDbgeng.Json

namespace DapDbgeng

namespace Json

/-- `size()`. -/
def size : Json → Nat
  | .null => 0
  | .arr items => items.length
  | .obj members => (Dict.keys members).dedup.length
  | _ => 1

/-- The member `key` is the string `value`. -/
def hasString (key value : String) (j : Json) : Bool :=
  match j.find key with
  | some (.str s) => s == value
  | _ => false

/-- `j[key] = value` for an object. -/
def set (j : Json) (key : String) (value : Json) : Json :=
  match j with
  | .obj members => .obj (Dict.set members key value)
  | j => j

theorem lookup_eq (key : String) (members : List (String × Json)) :
    lookup key members = Dict.get? members key := by
  induction members with
  | nil => rfl
  | cons m members ih => rw [lookup, Dict.get?_cons, ih]

@[simp] theorem isObject_set (key : String) (value j : Json) :
    (j.set key value).isObject = j.isObject := by
  cases j <;> rfl

theorem find_set {j : Json} (h : j.isObject = true) (k key : String) (value : Json) :
    (j.set k value).find key = if key = k then some value else j.find key := by
  cases j with
  | obj members =>
    rw [set, find, find, lookup_eq, lookup_eq]
    exact Dict.get?_set members k key value
  | _ => cases h

theorem find_set_of_ne (k key : String) (hne : key ≠ k) (value j : Json) :
    (j.set k value).find key = j.find key := by
  cases j with
  | obj members => rw [find_set rfl, if_neg hne]
  | _ => rfl

theorem hasString_set_of_ne (k key : String) (hne : key ≠ k) (s : String) (value j : Json) :
    (j.set k value).hasString key s = j.hasString key s := by
  rw [hasString, hasString, find_set_of_ne k key hne]

end Json

/-! ## The recorder -/

/-- "in" and "out". -/
inductive TraceDirection where
  | input | output
  deriving DecidableEq

structure TraceEntry where
  direction : TraceDirection
  message : Json

structure TraceRecorder where
  messages : List TraceEntry := []
  path : Option String := none
  disposed : Bool := false
  discarded : Bool := false
  resolved : Bool := false

/-- What the recorder asks of `std::filesystem`; an error is the text of an exception. -/
structure FileSystem where
  absolute : String → Except String String
  isDirectory : String → Bool
  parentPath : String → String
  createDirectories : String → Except String Unit

def prepareTracePath (fs : FileSystem) (path : String) : Except String String :=
  if path.isEmpty then .error "Trace path must not be empty."
  else do
    let fullPath ← fs.absolute path
    if fs.isDirectory fullPath then .error ("Trace path '" ++ fullPath ++ "' is a directory.")
    else do
      let directory := fs.parentPath fullPath
      if directory.isEmpty then return fullPath
      else do
        fs.createDirectories directory
        return fullPath

def isRequestWithCommand (message : Json) (command : String) : Bool :=
  message.isObject && message.hasString "type" "request" && message.hasString "command" command

/-- The "trace" string under the "arguments" object. -/
def tracePathFromRequest (message : Json) : Option String :=
  match message.find "arguments" with
  | some (.obj members) =>
    match Json.lookup "trace" members with
    | some (.str path) => some path
    | _ => none
  | _ => none

/-- The output of a console `output` event that goes out with nothing but a category and an output
in its body. -/
def tryGetConsoleOutput (direction : TraceDirection) (message : Json) : Option String :=
  if direction = .output && message.isObject && message.hasString "type" "event" &&
      message.hasString "event" "output" then
    match message.find "body" with
    | some body =>
      if body.isObject && body.size == 2 && body.hasString "category" "console" then
        match body.find "output" with
        | some (.str output) => some output
        | _ => none
      else none
    | none => none
  else none

def consoleBody (output : String) : Json :=
  .obj [("category", .str "console"), ("output", .str output)]

namespace TraceRecorder

/-- Buffer a message, or merge it into the console output before it. -/
def recordLocked (r : TraceRecorder) (direction : TraceDirection) (message : Json) :
    TraceRecorder :=
  match r.messages.getLast?, tryGetConsoleOutput direction message with
  | some last, some output =>
    match tryGetConsoleOutput last.direction last.message with
    | some previousOutput =>
      { r with messages := r.messages.dropLast ++
          [{ direction, message := message.set "body" (consoleBody (previousOutput ++ output)) }] }
    | none => { r with messages := r.messages ++ [{ direction, message }] }
  | _, _ => { r with messages := r.messages ++ [{ direction, message }] }

def discard (r : TraceRecorder) : TraceRecorder := { r with discarded := true, messages := [] }

/-- The first launch or attach request decides whether anything is traced. -/
def resolveTracePathOnceLocked (fs : FileSystem) (message : Json) (r : TraceRecorder) :
    TraceRecorder :=
  if r.resolved || !(isRequestWithCommand message "launch" || isRequestWithCommand message "attach")
  then r
  else
    let r := { r with resolved := true }
    match tracePathFromRequest message with
    | some path =>
      if path.isEmpty then r.discard
      else
        match prepareTracePath fs path with
        | .ok fullPath => { r with path := some fullPath }
        | .error _ => r.discard
    | none => r.discard

def recordInput (fs : FileSystem) (message : Json) (r : TraceRecorder) : TraceRecorder :=
  if r.disposed then r
  else
    let r := resolveTracePathOnceLocked fs message r
    if r.discarded then r else r.recordLocked .input message

def recordOutput (message : Json) (r : TraceRecorder) : TraceRecorder :=
  if r.disposed || r.discarded then r else r.recordLocked .output message

/-- On failure the recorder is unchanged. -/
def trySetPath (fs : FileSystem) (path : String) (r : TraceRecorder) : TraceRecorder × Bool :=
  match prepareTracePath fs path with
  | .ok fullPath => ({ r with path := some fullPath }, true)
  | .error _ => (r, false)

end TraceRecorder

/-- A call of the recorder, and the file system it finds. -/
inductive TraceCall where
  | recordInput (fs : FileSystem) (message : Json)
  | recordOutput (message : Json)
  | trySetPath (fs : FileSystem) (path : String)
  | discard

namespace TraceCall

def apply : TraceCall → TraceRecorder → TraceRecorder
  | .recordInput fs message, r => r.recordInput fs message
  | .recordOutput message, r => r.recordOutput message
  | .trySetPath fs path, r => (r.trySetPath fs path).1
  | .discard, r => r.discard

/-- The message a call gives the recorder. -/
def entry? : TraceCall → Option TraceEntry
  | .recordInput _ message => some { direction := .input, message }
  | .recordOutput message => some { direction := .output, message }
  | _ => none

end TraceCall

/-- A recorder after some calls. -/
def TraceRecorder.run (calls : List TraceCall) : TraceRecorder :=
  calls.foldl (fun r call => call.apply r) {}

/-! ## Console output -/

namespace TraceEntry

def console (e : TraceEntry) : Option String := tryGetConsoleOutput e.direction e.message

def isConsole (e : TraceEntry) : Bool := e.console.isSome

/-- The second message with the output of both. -/
def join (last e : TraceEntry) : TraceEntry :=
  { e with
    message := e.message.set "body"
      (consoleBody (last.console.getD "" ++ e.console.getD "")) }

theorem console_eq_some {e : TraceEntry} {output : String} : e.console = some output ↔
    e.direction = .output ∧ e.message.isObject = true ∧ e.message.hasString "type" "event" = true ∧
      e.message.hasString "event" "output" = true ∧ ∃ body, e.message.find "body" = some body ∧
        body.isObject = true ∧ body.size = 2 ∧ body.hasString "category" "console" = true ∧
          body.find "output" = some (.str output) := by
  rw [console, tryGetConsoleOutput]
  constructor
  · intro h
    split at h
    · rename_i houter
      split at h
      · rename_i body hbody
        split at h
        · rename_i hinner
          split at h
          · rename_i text houtput
            cases h
            simp only [Bool.and_eq_true, decide_eq_true_eq, beq_iff_eq] at houter hinner
            exact ⟨houter.1.1.1, houter.1.1.2, houter.1.2, houter.2, body, hbody, hinner.1.1,
              hinner.1.2, hinner.2, houtput⟩
          · cases h
        · cases h
      · cases h
    · cases h
  · rintro ⟨hdirection, hobject, htype, hevent, body, hbody, hbodyObject, hsize, hcategory,
      houtput⟩
    simp [hdirection, hobject, htype, hevent, hbody, hbodyObject, hsize, hcategory, houtput]

theorem console_join {last e : TraceEntry} {a b : String} (hlast : last.console = some a)
    (he : e.console = some b) : (last.join e).console = some (a ++ b) := by
  obtain ⟨hdirection, hobject, htype, hevent, -⟩ := console_eq_some.1 he
  rw [console_eq_some, join, hlast, he]
  refine ⟨hdirection, by simp [hobject], ?_, ?_, consoleBody (a ++ b), ?_, rfl, rfl, ?_, rfl⟩
  · rw [Json.hasString_set_of_ne _ _ (by decide), htype]
  · rw [Json.hasString_set_of_ne _ _ (by decide), hevent]
  · rw [Json.find_set hobject, if_pos rfl]
    rfl
  · simp [Json.hasString, consoleBody, Json.find, Json.lookup]

theorem isConsole_join (last e : TraceEntry) (hlast : last.isConsole = true)
    (he : e.isConsole = true) : (last.join e).isConsole = true := by
  obtain ⟨a, ha⟩ := Option.isSome_iff_exists.1 hlast
  obtain ⟨b, hb⟩ := Option.isSome_iff_exists.1 he
  rw [isConsole, console_join ha hb]
  rfl

end TraceEntry

/-! ## The normal form -/

/-- A message stands for a run of console output: it is the last message of the run with the
output of the whole run. -/
structure Merged (run : List TraceEntry) (e : TraceEntry) : Prop where
  output : e.console = some (String.join (run.filterMap TraceEntry.console))
  others : ∃ last, run.getLast? = some last ∧ e.direction = last.direction ∧
    ∀ key, key ≠ "body" → e.message.find key = last.message.find key

/-- A message is stored for itself, or for a run of console output. -/
inductive StandsFor (run : List TraceEntry) (e : TraceEntry) : Prop where
  | single (h : run = [e]) (he : e.isConsole = false)
  | merged (h : ∀ x ∈ run, x.isConsole = true) (he : Merged run e)

/-- A transcript is the normal form of the messages: it has one message for each maximal run of
console output, each other message once, in order, and no two neighbours can be merged. -/
structure NormalForm (entries stored : List TraceEntry) : Prop where
  runs : List.Forall₂ StandsFor (entries.splitBy (Coalescing.both TraceEntry.isConsole)) stored
  others : stored.filter (fun e => !e.isConsole) = entries.filter fun e => !e.isConsole
  apart : stored.IsChain fun a b => ¬(a.isConsole = true ∧ b.isConsole = true)

theorem merged_foldl {a : TraceEntry} (ha : a.isConsole = true) (run : List TraceEntry)
    (hrun : ∀ x ∈ run, x.isConsole = true) : Merged (a :: run) (run.foldl TraceEntry.join a) := by
  induction run using List.reverseRecOn with
  | nil =>
    obtain ⟨output, houtput⟩ := Option.isSome_iff_exists.1 ha
    refine ⟨?_, a, rfl, rfl, fun _ _ => rfl⟩
    simp [houtput]
  | append_singleton run e ih =>
    obtain ⟨output, houtput⟩ := Option.isSome_iff_exists.1 (hrun e (by simp))
    have hmerged := ih fun x hx => hrun x (by simp [hx])
    rw [List.foldl_append, List.foldl_cons, List.foldl_nil, ← List.cons_append]
    refine ⟨?_, e, List.getLast?_concat, rfl, fun key hkey => ?_⟩
    · rw [TraceEntry.console_join hmerged.output houtput, List.filterMap_append,
        String.join_append]
      simp [houtput]
    · exact Json.find_set_of_ne _ _ hkey _ _

theorem standsFor_joinAll (run : List TraceEntry) (e : TraceEntry)
    (h : run.IsChain fun a b => Coalescing.both TraceEntry.isConsole a b)
    (he : Coalescing.joinAll TraceEntry.join run = some e) : StandsFor run e := by
  cases run with
  | nil => cases he
  | cons a run =>
    cases he
    by_cases ha : a.isConsole = true
    · have hall := Coalescing.forall_of_isChain ha h
      exact .merged (List.forall_mem_cons.2 ⟨ha, hall⟩) (merged_foldl ha run hall)
    · cases run with
      | nil => exact .single rfl (Bool.eq_false_iff.2 ha)
      | cons b run =>
        have hab := (List.isChain_cons_cons.1 h).1
        rw [Coalescing.both, Bool.and_eq_true] at hab
        exact absurd hab.1 ha

theorem normalForm_collapse (entries : List TraceEntry) :
    NormalForm entries (Coalescing.collapse TraceEntry.isConsole TraceEntry.join entries) where
  runs := Coalescing.forall₂_collapse TraceEntry.isConsole_join standsFor_joinAll entries
  others := Coalescing.filter_collapse TraceEntry.isConsole_join entries
  apart := (Coalescing.isChain_collapse entries).imp fun a b hab hboth => by
    rw [Coalescing.both, hboth.1, hboth.2] at hab
    cases hab

/-- Merging the neighbours of a normal form changes nothing. -/
theorem NormalForm.collapse_eq {entries stored : List TraceEntry} (h : NormalForm entries stored) :
    Coalescing.collapse TraceEntry.isConsole TraceEntry.join stored = stored := by
  refine Coalescing.collapse_of_isChain (h.apart.imp fun a b hab => ?_)
  rw [Coalescing.both, ← Bool.not_eq_true, Bool.and_eq_true]
  exact hab

namespace TraceRecorder

theorem run_append (calls : List TraceCall) (call : TraceCall) :
    run (calls ++ [call]) = call.apply (run calls) := by simp [run]

/-- Recording a message. -/
theorem recordLocked_eq (r : TraceRecorder) (direction : TraceDirection) (message : Json) :
    r.recordLocked direction message = { r with
      messages := Coalescing.push TraceEntry.isConsole TraceEntry.join r.messages
        { direction, message } } := by
  rcases List.eq_nil_or_concat r.messages with hnil | ⟨stored, last, hlast⟩
  · rw [recordLocked, hnil]
    rfl
  · rw [recordLocked, hlast, List.concat_eq_append, List.getLast?_concat, Coalescing.push_append,
      List.dropLast_concat, Coalescing.both]
    cases houtput : tryGetConsoleOutput direction message with
    | none =>
      have hnot : TraceEntry.isConsole { direction, message } = false := by
        rw [TraceEntry.isConsole, TraceEntry.console, houtput]
        rfl
      rw [hnot, Bool.and_false, if_neg Bool.false_ne_true]
    | some output =>
      dsimp only
      cases hprevious : tryGetConsoleOutput last.direction last.message with
      | none =>
        have hnot : last.isConsole = false := by
          rw [TraceEntry.isConsole, TraceEntry.console, hprevious]
          rfl
        rw [hnot, Bool.false_and, if_neg Bool.false_ne_true]
      | some previousOutput =>
        simp [TraceEntry.isConsole, TraceEntry.console, TraceEntry.join, houtput, hprevious]

/-- The first launch or attach request is remembered, with or without a path, or the recorder is
discarded. -/
theorem resolve_cases (fs : FileSystem) (message : Json) (r : TraceRecorder) :
    (∃ path resolved, resolveTracePathOnceLocked fs message r = { r with path, resolved }) ∨
      resolveTracePathOnceLocked fs message r =
        { r with messages := [], discarded := true, resolved := true } := by
  rw [resolveTracePathOnceLocked]
  split
  · exact .inl ⟨r.path, r.resolved, rfl⟩
  · cases tracePathFromRequest message with
    | none => exact .inr rfl
    | some path =>
      dsimp only
      split
      · exact .inr rfl
      · cases prepareTracePath fs path with
        | error => exact .inr rfl
        | ok fullPath => exact .inl ⟨some fullPath, true, rfl⟩

theorem apply_disposed (call : TraceCall) {r : TraceRecorder} (hr : r.disposed = false) :
    (call.apply r).disposed = false := by
  cases call with
  | recordInput fs message =>
    rw [TraceCall.apply, recordInput, if_neg (by simp [hr])]
    dsimp only
    obtain ⟨path, resolved, h⟩ | h := resolve_cases fs message r <;> rw [h]
    · split
      · exact hr
      · rw [recordLocked_eq]; exact hr
    · dsimp only
      rw [if_pos rfl]
      exact hr
  | recordOutput message =>
    rw [TraceCall.apply, recordOutput]
    split
    · exact hr
    · rw [recordLocked_eq]; exact hr
  | trySetPath fs path =>
    rw [TraceCall.apply, trySetPath]
    split <;> exact hr
  | discard => exact hr

theorem run_disposed (calls : List TraceCall) : (run calls).disposed = false := by
  induction calls using List.reverseRecOn with
  | nil => rfl
  | append_singleton calls call ih =>
    rw [run_append]
    exact apply_disposed call ih

/-- A call that leaves a recorder in use adds its message to the transcript. -/
theorem apply_of_kept {call : TraceCall} {r : TraceRecorder} (hr : r.disposed = false)
    (h : (call.apply r).discarded = false) :
    r.discarded = false ∧ (call.apply r).messages = call.entry?.elim r.messages
      (Coalescing.push TraceEntry.isConsole TraceEntry.join r.messages) := by
  cases call with
  | recordInput fs message =>
    rw [TraceCall.apply, recordInput, if_neg (by simp [hr])] at h ⊢
    dsimp only at h ⊢
    obtain ⟨path, resolved, hresolve⟩ | hresolve := resolve_cases fs message r <;>
      rw [hresolve] at h ⊢
    · by_cases hdiscarded : r.discarded = true
      · rw [if_pos hdiscarded] at h
        rw [hdiscarded] at h
        cases h
      · rw [if_neg hdiscarded, recordLocked_eq]
        exact ⟨Bool.eq_false_iff.2 hdiscarded, rfl⟩
    · dsimp only at h
      rw [if_pos rfl] at h
      cases h
  | recordOutput message =>
    rw [TraceCall.apply, recordOutput] at h ⊢
    by_cases hdiscarded : r.discarded = true
    · rw [if_pos (by simp [hdiscarded]), hdiscarded] at h
      cases h
    · rw [if_neg (by simp [hr, hdiscarded]), recordLocked_eq]
      exact ⟨Bool.eq_false_iff.2 hdiscarded, rfl⟩
  | trySetPath fs path =>
    rw [TraceCall.apply, trySetPath] at h ⊢
    cases hprepare : prepareTracePath fs path with
    | ok fullPath => rw [hprepare] at h; exact ⟨h, rfl⟩
    | error => rw [hprepare] at h; exact ⟨h, rfl⟩
  | discard => cases h

/-- The transcript after any calls. -/
theorem run_messages {calls : List TraceCall} (h : (run calls).discarded = false) :
    (run calls).messages = Coalescing.collapse TraceEntry.isConsole TraceEntry.join
      (calls.filterMap TraceCall.entry?) := by
  induction calls using List.reverseRecOn with
  | nil => rfl
  | append_singleton calls call ih =>
    rw [run_append] at h ⊢
    obtain ⟨hkept, hmessages⟩ := apply_of_kept (run_disposed calls) h
    rw [hmessages, ih hkept, List.filterMap_append]
    cases hentry : call.entry? with
    | none => simp [hentry]
    | some e => simp [hentry, Coalescing.collapse_append]

/-- **The transcript.**  A recorder that is not discarded stores the normal form of the messages it
was given; and a recorder that is given these messages stores them as they are. -/
theorem transcript_normal (calls : List TraceCall) (h : (run calls).discarded = false) :
    NormalForm (calls.filterMap TraceCall.entry?) (run calls).messages ∧
      ∀ again : List TraceCall, (run again).discarded = false →
        again.filterMap TraceCall.entry? = (run calls).messages →
          (run again).messages = (run calls).messages := by
  have hnormal : NormalForm (calls.filterMap TraceCall.entry?) (run calls).messages := by
    rw [run_messages h]
    exact normalForm_collapse _
  refine ⟨hnormal, fun again hagain hsame => ?_⟩
  rw [run_messages hagain, hsame, hnormal.collapse_eq]

/-- A console `output` event. -/
def consoleEvent (output : String) : Json :=
  .obj [("type", .str "event"), ("event", .str "output"), ("body", consoleBody output)]

/-- Two pieces of console output around a response. -/
def threeOutputs : List TraceCall :=
  [.recordOutput (consoleEvent "hello "), .recordOutput (consoleEvent "world"),
    .recordOutput (.obj [("type", .str "response")]), .recordOutput (consoleEvent "!")]

theorem transcript_normal_threeOutputs :
    NormalForm (threeOutputs.filterMap TraceCall.entry?) (run threeOutputs).messages ∧
      ∀ again : List TraceCall, (run again).discarded = false →
        again.filterMap TraceCall.entry? = (run threeOutputs).messages →
          (run again).messages = (run threeOutputs).messages :=
  transcript_normal threeOutputs (by decide)

end TraceRecorder

end DapDbgeng
