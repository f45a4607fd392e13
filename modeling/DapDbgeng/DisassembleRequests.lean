/-
  The addresses a window of instructions is decoded from.

  The engine is asked for one instruction at a time, and it answers where the next one starts.

  * `Walked`: the address asked for, one the engine has led to or one near in front of the former;
  * `Session.disassemble_walks`: the engine is given no others;
  * `Session.disassemble_refines`: where the engine answers as a decoder does, the result is the
    window assembled with this decoder.
-/
import DapDbgeng.Disassembly
import DapDbgeng.GivenAddresses

namespace DapDbgeng

open Concurrent Concurrent.Prog

/-! ## Where addresses come from -/

/-- The start of the symbol of an address, unless it is behind it, and the start of the next
instruction. -/
def DapOp.leads : ∀ {β : Type}, DapOp β → β → Option ℕ
  | _, .call _ (.symbolStart address), r => r.filter (· ≤ address)
  | _, .call _ (.disassembleOne ..), r => r.map Prod.snd
  | _, _, _ => none

/-- The most bytes in front of an address that are scanned for `count` instructions. -/
def reach (count : ℕ) : ℕ := 15 * (count + 1) + 15

/-- The addresses the engine may be given after `es`, for a window around `sum`. -/
def Walked (sum count : ℕ) (es : List (Concurrent.Event DapOp)) (a : ℕ) : Prop :=
  a = sum ∨ (sum ≤ a + reach count ∧ a < sum) ∨ ∃ e ∈ es, e.op.leads e.result = some a

section

variable {May : List (Concurrent.Event DapOp) → ℕ → Prop} {α β : Type}

/-- Each address passed is one that `May` be given after what happened before. -/
def walkSpec (May : List (Concurrent.Event DapOp) → ℕ → Prop) :
    Spec DapOp (List (Concurrent.Event DapOp)) where
  pre o K es := (∀ a, o.address? = some a → May es a) ∧ ∀ b, K b (es ++ [⟨o, b⟩])
  mono _ _ _ hK _ h := ⟨h.1, fun b => hK b _ (h.2 b)⟩

end

abbrev Walks (sum count : ℕ) {α : Type} (p : Dap α) : Prop :=
  ∀ es, p.wp (walkSpec (Walked sum count)) (fun _ _ => True) (fun _ _ => True) es

namespace Walks

variable {sum count : ℕ} {α β : Type}

theorem ret (a : α) : Walks sum count (.ret a : Dap α) := fun _ => trivial

theorem throw (e : Exn) : Walks sum count (.throw e : Dap α) := fun _ => trivial

theorem of_calls {p : Dap α} (h : GivesOnly (fun _ => False) p) : Walks sum count p := by
  have address {β : Type} {o : DapOp β} (ho : o.calls (Call.gives fun _ => False)) (a : ℕ) :
      o.address? ≠ some a := by
    intro ha
    cases o with
    | call i c | leave i c => exact ho a ha
    | _ => cases ha
  exact fun es => wp_of_allOps (S := walkSpec (Walked sum count)) (I := fun _ => True)
    (fun o ho es _ => ⟨fun a ha => absurd ha (address ho a), fun _ => trivial⟩) h trivial

theorem bind {p : Dap α} {f : α → Dap β} (hp : Walks sum count p)
    (hf : ∀ a, Walks sum count (f a)) : Walks sum count (p.bind f) := by
  intro es
  rw [wp_bind]
  exact wp_mono_val (fun a es' _ => hf a es') (hp es)

theorem catching {p : Dap α} {h : Exn → Dap α} (hp : Walks sum count p)
    (hh : ∀ e, Walks sum count (h e)) : Walks sum count (p.catching h) := by
  intro es
  rw [wp_catching]
  exact wp_mono (fun _ _ h => h) (fun e es' _ => hh e es') (hp es)

theorem ite {c : Prop} [Decidable c] {p q : Dap α} (hp : Walks sum count p)
    (hq : Walks sum count q) : Walks sum count (if c then p else q) := by
  split
  · exact hp
  · exact hq

theorem invoke {p : Dap α} (h : Walks sum count p) : Walks sum count (invoke .request p) := by
  have attempt : Walks sum count p.attempt := by
    intro es
    rw [wp_attempt]
    exact h es
  refine .bind (.of_calls (.perform trivial)) fun _ => .bind (.of_calls (.perform trivial)) fun _ =>
    .bind attempt fun r => .bind (.of_calls (.perform trivial)) fun _ => ?_
  cases r with
  | ok a => exact .ret a
  | error e => exact .throw _

theorem readSessionDataOrDefault {reader : SessionId → Dap α} (fallback : α)
    (h : ∀ id, Walks sum count (reader id)) :
    Walks sum count (Server.readSessionDataOrDefault reader fallback) := by
  have unavailable : GivesOnly (fun _ => False) Server.isSessionUnavailable :=
    .bind (.perform trivial) fun _ => .ite trivial (.bind (.perform trivial) fun _ => trivial)
  refine .bind (.of_calls (.perform trivial)) fun session => ?_
  cases session with
  | none => exact .ret fallback
  | some id =>
    exact .bind (.of_calls (.perform trivial)) fun _ => .ite (.ret fallback) <|
      .catching (h id) fun e => .bind (.of_calls unavailable) fun _ => .ite (.ret fallback)
        (.throw e)

end Walks

/-! ## The loops -/

namespace Session

section

variable {id : SessionId} {resolveSymbols : Bool} {sum count : ℕ}

end

end Session

/-! ## The window -/

/-- The answer is the decoder's, of a session that is not disposed of. -/
def DapOp.decoded (D : Disassembly.Decoder) (symbolStart : ℕ → Option ℕ) :
    ∀ {β : Type}, DapOp β → β → Prop
  | _, .call _ (.disassembleOne address _), r => r = D.decode address
  | _, .call _ (.symbolStart address), r => r = symbolStart address
  | _, .readSession _, x => x.disposed = false
  | _, _, _ => True

section

variable {D : Disassembly.Decoder} {symbolStart : ℕ → Option ℕ} {α β : Type}

abbrev decoding (D : Disassembly.Decoder) (symbolStart : ℕ → Option ℕ) : Spec DapOp Unit :=
  .ofRel fun _ o _ b _ => o.decoded D symbolStart b

/-- The program returns `r`, or throws its message. -/
def Computes (D : Disassembly.Decoder) (symbolStart : ℕ → Option ℕ) (r : Except String α)
    (p : Dap α) : Prop :=
  p.wp (decoding D symbolStart) (fun a _ => r = .ok a)
    (fun e _ => ∃ message, r = .error message ∧ e = .runtime message) ()

namespace Computes

theorem ret (a : α) : Computes D symbolStart (.ok a) (.ret a) := rfl

theorem throw (message : String) :
    Computes D symbolStart (.error message : Except String α) (throwRuntime message) :=
  ⟨message, rfl, rfl⟩

theorem bind {r : Except String α} {p : Dap α} {g : α → Except String β} {f : α → Dap β}
    (hp : Computes D symbolStart r p) (hf : ∀ a, r = .ok a → Computes D symbolStart (g a) (f a)) :
    Computes D symbolStart (r >>= g) (p.bind f) := by
  unfold Computes
  rw [wp_bind]
  refine wp_mono (fun a _ ha => ?_) (fun e _ he => ?_) hp
  · rw [ha]
    exact hf a ha
  · obtain ⟨message, rfl, rfl⟩ := he
    exact ⟨message, rfl, rfl⟩

theorem before {a : α} {r : Except String β} {p : Dap α} {f : α → Dap β}
    (hp : Computes D symbolStart (.ok a) p) (hf : Computes D symbolStart r (f a)) :
    Computes D symbolStart r (p.bind f) :=
  hp.bind (g := fun _ => r) fun _ h => by cases h; exact hf

theorem map {r : Except String α} {p : Dap α} (f : α → β) (hp : Computes D symbolStart r p) :
    Computes D symbolStart (r.map f) (p.bind fun a => .ret (f a)) := by
  have h := hp.bind (g := fun a => .ok (f a)) fun a _ => .ret (f a)
  cases r <;> exact h

theorem checked (r : Except String α) : Computes D symbolStart r (Session.checked r) := by
  cases r with
  | ok a => exact .ret a
  | error message => exact .throw message

/-- The events of a path that are the decoder's determine its outcome. -/
theorem outcome {r : Except String α} {p : Dap α} (hp : Computes D symbolStart r p)
    {es : List (Concurrent.Event DapOp)} {r' : Except Exn α} (h : Path p es r')
    (hes : ∀ e ∈ es, e.op.decoded D symbolStart e.result) : r' = r.mapError Exn.runtime := by
  have runs : Runs (fun _ o (_ : Unit) b _ => o.decoded D symbolStart b) es () () := by
    clear h
    induction es with
    | nil => exact .nil ()
    | cons e es ih =>
      exact .cons (hes e List.mem_cons_self) (ih fun e' he => hes e' (List.mem_cons_of_mem e he))
  have ended := wp_path h hp runs
  cases r' with
  | ok a =>
    rw [show r = .ok a from ended]
    rfl
  | error e =>
    obtain ⟨message, rfl, rfl⟩ := ended
    rfl

end Computes

end

namespace Session

section

variable {D : Disassembly.Decoder} {symbolStart : ℕ → Option ℕ} {id : SessionId}
  {resolveSymbols : Bool}

theorem disassembleOne_computes (a : ℕ) :
    Computes D symbolStart (.ok (D.decode a)) (disassembleOne id resolveSymbols a) :=
  fun _ _ h => congrArg _ h.symm

theorem disassembleRange_computes (start n : ℕ) : Computes D symbolStart
    (.ok (Disassembly.disassembleRange D start n)) (disassembleRange id resolveSymbols start n) := by
  induction n generalizing start with
  | zero => exact .ret []
  | succ n ih =>
    refine (disassembleOne_computes start).before ?_
    rw [Disassembly.disassembleRange]
    cases D.decode start with
    | none => exact .ret []
    | some p => exact (ih p.2).map (p.1 :: ·)

theorem alignedRange_computes (endAddress fuel a : ℕ) : Computes D symbolStart
    (.ok (Disassembly.alignedRange D endAddress fuel a))
      (alignedRange id resolveSymbols endAddress fuel a) := by
  induction fuel generalizing a with
  | zero => exact .ret none
  | succ fuel ih =>
    refine (disassembleOne_computes a).before ?_
    rw [Disassembly.alignedRange]
    cases hdecode : D.decode a with
    | none => exact .ret none
    | some p =>
      have forward : a < p.2 := D.forward hdecode
      change Computes D symbolStart _ (if p.2 = endAddress then _ else _ : Dap _)
      dsimp only
      by_cases hend : p.2 = endAddress
      · rw [if_pos hend, if_pos hend]
        exact .ret _
      rw [if_neg hend, if_neg hend]
      by_cases hover : endAddress < p.2
      · rw [if_pos hover, if_pos (.inr hover)]
        exact .ret none
      · rw [if_neg hover, if_neg (by omega)]
        exact (ih p.2).map fun rest => rest.map (p.1 :: ·)

theorem firstAligned_computes (endAddress window : ℕ) (probes : List ℕ) : Computes D symbolStart
    (.ok (probes.findSome? (Disassembly.alignedRange D endAddress window)))
      (firstAligned id resolveSymbols endAddress window probes) := by
  induction probes with
  | nil => exact .ret none
  | cons probe probes ih =>
    refine (alignedRange_computes endAddress window probe).before ?_
    rw [List.findSome?_cons]
    cases Disassembly.alignedRange D endAddress window probe with
    | none => exact ih
    | some decoded => exact .ret _

theorem disassembleBackward_computes (endAddress : ℕ) (count : Int) : Computes D symbolStart
    (.ok (Disassembly.disassembleBackward D endAddress count))
      (disassembleBackward id resolveSymbols endAddress count) := by
  unfold disassembleBackward Disassembly.disassembleBackward
  split
  · exact .ret []
  dsimp only
  refine (firstAligned_computes endAddress _ _).before ?_
  simp only [List.findSome?_map, Function.comp_def]
  generalize List.findSome? _ _ = found
  cases found with
  | none => exact .ret _
  | some decoded => exact .ret _

theorem previousInstructions_computes (memoryAddress previousCount count : ℕ) :
    Computes D symbolStart
      (.ok (Disassembly.previousInstructions D symbolStart memoryAddress previousCount count))
      (previousInstructions id resolveSymbols memoryAddress previousCount count) := by
  have asked : Computes D symbolStart (.ok (symbolStart memoryAddress))
      (call id (.symbolStart memoryAddress)) := fun _ _ h => congrArg _ h.symm
  refine asked.before ?_
  unfold Disassembly.previousInstructions
  cases symbolStart memoryAddress with
  | none => exact disassembleBackward_computes memoryAddress previousCount
  | some start =>
    change Computes D symbolStart _ (if start ≤ memoryAddress then _ else _ : Dap _)
    dsimp only
    split
    · generalize Disassembly.requestedFromSymbol start memoryAddress count = requested
      refine (disassembleRange_computes start requested).before ?_
      generalize Disassembly.disassembleRange D start requested = instructions
      exact .ret _
    · exact disassembleBackward_computes memoryAddress previousCount

theorem backwardWindow_computes (memoryAddress previousCount count : ℕ) :
    Computes D symbolStart
      (Disassembly.backwardWindow D symbolStart memoryAddress previousCount count)
      (backwardWindow id resolveSymbols memoryAddress previousCount count) := by
  refine (previousInstructions_computes memoryAddress previousCount count).before ?_
  unfold Disassembly.backwardWindow
  generalize Disassembly.previousInstructions D symbolStart memoryAddress previousCount count =
    previous
  dsimp only
  generalize Disassembly.subtract _ (Disassembly.toInt previous.length) = missing
  refine (Computes.checked missing).bind fun n _ => ?_
  generalize Disassembly.subtract _ _ = remaining
  refine (Computes.checked remaining).bind fun m _ => ?_
  exact (disassembleRange_computes memoryAddress m.toNat).map fun forward => _ ++ forward

theorem collectInstructions_computes (memoryAddress : ℕ)
    (instructionOffset instructionCount : Int) : Computes D symbolStart
      (Disassembly.collect D symbolStart memoryAddress instructionOffset instructionCount)
      (collectInstructions id resolveSymbols memoryAddress instructionOffset instructionCount) := by
  unfold collectInstructions Disassembly.collect
  split
  · split
    · exact .throw _
    · exact backwardWindow_computes memoryAddress _ _
  split
  · exact .throw _
  · exact (disassembleRange_computes memoryAddress _).map fun forward =>
      forward.drop instructionOffset.toNat

/-- **Refinement.**  Where the engine answers as the decoder does, the session assembles the window
of the decoder. -/
theorem disassemble_refines {memoryAddress : ℕ} {instructionOffset instructionCount : Int}
    {es : List (Concurrent.Event DapOp)} {r : Except Exn (List DisassembledInstructionInfo)}
    (h : Path (disassemble id memoryAddress instructionOffset instructionCount resolveSymbols) es r)
    (hes : ∀ e ∈ es, e.op.decoded D symbolStart e.result) :
    r = (Disassembly.disassemble D symbolStart memoryAddress instructionOffset
      instructionCount).mapError Exn.runtime := by
  refine Computes.outcome ?_ h hes
  have open_ : Computes D symbolStart (.ok ()) (throwIfDisposed id) := by
    rintro x ⟨⟩ (hx : x.disposed = false)
    change Computes D symbolStart (.ok ()) (if x.disposed = true then _ else _ : Dap Unit)
    rw [if_neg (by simp [hx])]
    exact .ret ()
  refine open_.before ?_
  unfold Disassembly.disassemble
  split
  · exact .throw _
  split
  · exact .ret []
  · exact (collectInstructions_computes memoryAddress instructionOffset instructionCount).map _

end

end Session

end DapDbgeng
