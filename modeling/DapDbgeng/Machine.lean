/-
  The adapter as a system of threads.

  The request thread handles one request after the other until the input ends or a request asks
  to exit, and then runs the destructor.  The wait loop is cut into its condition, its body and
  its end, so that each job is a program.  The engine reports events whenever the dispatcher is
  inside a call that delivers them.
-/
import DapDbgeng.Dispatch

namespace DapDbgeng

open Concurrent

/-- What a thread may be asked to do. -/
inductive Job where
  /-- A request arrives. -/
  | request (root : Json)
  /-- `run` has returned (the input ended, or a request asked to exit). -/
  | teardown
  | loopCondition (id : SessionId)
  | loopBody (id : SessionId)
  | loopEnd
  /-- The engine reports an event; with it come its threads and the current one. -/
  | callback (id : SessionId) (event : Callback) (threads : List (Nat × Nat)) (current : Nat)
  | pump (id : SessionId)

namespace Job

open Server

/-- The program of a job; its result matters for requests and for the loop condition. -/
def body : Job → Dap Bool
  | .request root => handleRequest root
  | .teardown => do Server.teardown; return false
  | .loopCondition id => waitLoopCondition id
  | .loopBody id => do waitLoopBody id; return true
  | .loopEnd => do waitLoopEnd; return false
  | .callback id event _ _ => do onCallback id event; return false
  | .pump id => do pumpAfterKernelDisconnect id; return false

end Job

namespace Server

/-- Only messages of type `request` reach the server. -/
def accepts (root : Json) : Bool :=
  match Decoder.valueString "type" root with
  | .ok type => type = "request"
  | .error _ => false

theorem handle_of_accepts {root : Json} (h : accepts root = true) :
    handle root = dispatchRequest root := by
  unfold accepts at h
  split at h
  · rename_i type ht
    have hr : type = "request" := by simpa using h
    rw [handle, ht]
    exact if_pos hr
  · cases h

/-- Whether the engine may report the event now. -/
def mayReport (s : Server) (id : SessionId) (event : Callback) : Bool :=
  !s.callbackActive && (s.engine id).callbacks &&
    s.inCall.any fun c => c.1 = id ∧ event.reportedIn (s.engine id) c.2

def startJob (t : Tid) (j : Job) (s : Server) : Option Server :=
  match t, j with
  | .request, .request root => if s.mode = .serving ∧ accepts root then some s else none
  | .request, .teardown =>
    if s.mode = .gone then none else some { s with mode := .gone, outboundOpen := false }
  | .loop, .loopCondition id => if s.loop = .check id then some s else none
  | .loop, .loopBody id => if s.loop = .body id then some s else none
  | .loop, .loopEnd => if s.loop = .leaving then some s else none
  | .callback, .callback id event threads current =>
    if s.mayReport id event then
      some { s.updateEngine id fun e => { event.effect e with threads, current } with
        callbackActive := true }
    else none
  | .pump, .pump id => if s.pump = some id then some { s with pump := none } else none
  | _, _ => none

/-- Where a job ends.  An exception that would leave a callback, a handler or the destructor has no
next state. -/
def finishJob (j : Job) (r : Except Exn Bool) (s : Server) : Option Server :=
  match j, r with
  | .request _, .ok shouldExit => some (if shouldExit then { s with mode := .exiting } else s)
  | .teardown, .ok _ => some s
  | .loopCondition id, .ok continues =>
    some { s with loop := if continues then .body id else .leaving }
  | .loopBody id, .ok _ => some { s with loop := .check id }
  -- the catch clause of the loop only logs
  | .loopBody _, .error _ => some { s with loop := .leaving }
  | .loopEnd, .ok _ => some { s with loop := .idle }
  | .callback .., .ok _ => some { s with callbackActive := false }
  | .pump _, .ok _ => some s
  | _, _ => none

end Server

/-- The executable adapter. -/
def adapter : Machine Tid DapOp Job Exn Bool Server Answers where
  body := Job.body
  apply t a _ o s := apply t a o s
  start := Server.startJob
  finish _ := Server.finishJob

abbrev Conf := Config Tid DapOp Job Exn Bool Server
abbrev Lab := Label Tid DapOp Job Exn Bool

/-- The configurations of a run from a fresh server. -/
def Reachable (s₀ : Server) (c : Conf) : Prop := ∃ ls, adapter.system.Run (.init s₀) ls c

/-! ## Schedules -/

abbrev Schedule := List (Machine.Move Tid Job Answers)

namespace Schedule

/-- A request message. -/
def message (seq : Int) (command : String) (arguments : List (String × Json) := []) : Json :=
  .obj [("seq", .int seq), ("type", .str "request"), ("command", .str command),
    ("arguments", .obj arguments)]

/-- Run a job from its beginning to its end, undisturbed. -/
def run (t : Tid) (j : Job) (a : Answers := {}) : Schedule :=
  [.start t j, .ops t 4000 a, .finish t]

/-- Begin a job and perform its first `n` operations. -/
def enter (t : Tid) (j : Job) (n : Nat) : Schedule := [.start t j, .ops t n {}]

/-- Finish the job a thread is busy with. -/
def leave (t : Tid) (a : Answers := {}) : Schedule := [.ops t 4000 a, .finish t]

/-- Serve a request. -/
def serve (root : Json) (a : Answers := {}) : Schedule := run .request (.request root) a

/-- The engine of session 0 reports an event; its one thread has system id 100. -/
def report (event : Callback) (a : Answers := {}) : Schedule :=
  run .callback (.callback 0 event [(0, 100)] 0) a

/-- A launch whose target stops at its entry. -/
def launch : Schedule :=
  enter .request (.request (message 1 "launch" [("program", .str "a.exe")])) 51 ++
    report .createThread ++ leave .request

/-- The wait loop enters `wait_for_event`. -/
def park : Schedule := run .loop (.loopCondition 0) ++ enter .loop (.loopBody 0) 4

/-- A launched target that runs while the dispatcher waits for it. -/
def launchAndPark : Schedule := launch ++ serve (message 2 "configurationDone") ++ park

end Schedule

/-- What a schedule leads to, when a test of the result says it gets there. -/
theorem reachable_of_exec (schedule : Schedule) (test : Conf → Bool)
    (h : (adapter.exec schedule (.init {})).any test = true) :
    ∃ c, Reachable {} c ∧ adapter.exec schedule (.init {}) = some c ∧ test c = true := by
  cases hc : adapter.exec schedule (.init {}) with
  | none => rw [hc] at h; cases h
  | some c =>
    rw [hc] at h
    exact ⟨c, Machine.exec_run hc, rfl, h⟩

end DapDbgeng
