/-
  Whether a hit is continued automatically.

  * `hitContinues`: a hit is continued where the condition kept for its breakpoint comes to false;
  * `Server.hit_continues`: the callback decides it so, by the table it reads.
-/
import DapDbgeng.Concurrent.Paths
import DapDbgeng.Callbacks

namespace DapDbgeng

open Concurrent Concurrent.Prog

abbrev Conditions := AssocMap Int String

def Tables.conditions (d : Tables) : Conditions := d.conditionalBreakpointConditionsById

/-- A hit is continued where the condition kept for its breakpoint comes to false. -/
def hitContinues (kept : Conditions) (verdict : String → Option Bool) (n : Int) : Bool :=
  (kept.get? n).any fun condition => verdict condition == some false

namespace Server

/-- A hit evaluates the condition that is kept for its breakpoint. -/
theorem hit_continues {id : SessionId} {n : ℕ} {d : Tables} {es : List (Concurrent.Event DapOp)}
    {continued : Bool}
    (h : Path (tryAutoContinueConditionalBreakpointHit id n) (⟨.tables, d⟩ :: es)
      (.ok continued)) : ∃ verdict,
      (∀ condition, d.conditions.get? (Factory.toInt32 n) = some condition → ∃ es₁ es₂,
        es = es₁ ++ es₂ ∧
          Path (tryEvaluateConditionalBreakpoint id condition) es₁ (.ok (verdict condition))) ∧
      continued = hitContinues d.conditions verdict (Factory.toInt32 n) := by
  cases h with
  | op h =>
  simp only [ret_bind] at h
  cases hkept : d.conditionalBreakpointConditionsById.get? (Factory.toInt32 n) with
  | none =>
    rw [hkept] at h
    cases h
    refine ⟨fun _ => none, ?_, ?_⟩
    · rw [Tables.conditions, hkept]
      rintro condition ⟨⟩
    · rw [hitContinues, Tables.conditions, hkept]
      rfl
  | some condition =>
    rw [hkept] at h
    rcases h.of_bind with ⟨e, -, he⟩ | ⟨verdict, es₁, es₂, rfl, hevaluated, h⟩
    · cases he
    refine ⟨fun _ => verdict, ?_, ?_⟩
    · rw [Tables.conditions, hkept]
      rintro _ ⟨⟩
      exact ⟨es₁, es₂, rfl, hevaluated⟩
    · rw [hitContinues, Tables.conditions, hkept]
      rcases verdict with _ | _ | _
      · cases h
        rfl
      · rcases h.of_bind with ⟨e, -, he⟩ | ⟨_, _, _, _, -, h⟩
        · cases he
        · cases h
          rfl
      · cases h
        rfl

end Server

end DapDbgeng
