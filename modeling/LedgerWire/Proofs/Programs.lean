/-
# Reading undoes writing

A program of writing leaves a byte string, and the matching program of reading takes it apart again.
Any step may follow any other: what a step of reading takes is exactly what its partner wrote,
whatever stands behind it, so the steps need nothing of each other.

* `WriteStep.Fits` — the values that a program may write: any numbers, byte strings and texts, and
  values of the format that are not nested too deep.
* `WriteStep.reads_of_run` — one step of writing, and its partner on what it wrote.
* `WriteStep.answers_reading` — a whole program, and its partner on what it left.
* `programs_inverse` — from the empty writer to the end of the input.
-/

import LedgerWire.Program
import LedgerWire.Proofs.Catalogue
import LedgerWire.Proofs.Wire.Depth

namespace LedgerWire

variable {limit : Nat}

/-! ### Every type takes bytes -/

/-- **No value of the format is read from nothing**, so a list of any of them is bounded by what is
left to read. -/
theorem MeasuredType.hungry {x : MeasuredType} (hx : x ∈ measuredTypes) :
    x.type.schema.wire.get.Hungry := by
  have hall : (measuredTypes.all fun x => x.type.schema.wire.asksForBytes) = true := by
    decide +kernel
  exact Codec.Regular.hungry x.regular (List.all_eq_true.1 hall x hx)

/-! ### What a program may write -/

/-- The step writes a value of its item, and no value of the format in it is nested deeper than the
limit. A version is told from the word of an absent extension. -/
inductive WriteStep.Fits (limit : Nat) : WriteStep → Prop
  | u32 (n : UInt32) : Fits limit ⟨.u32, n⟩
  | i32 (n : Int32) : Fits limit ⟨.i32, n⟩
  | u64 (n : UInt64) : Fits limit ⟨.u64, n⟩
  | i64 (n : Int64) : Fits limit ⟨.i64, n⟩
  | bool (b : Bool) : Fits limit ⟨.bool, b⟩
  | fixed {n : Nat} (v : Vector UInt8 n) : Fits limit ⟨.fixed n, v⟩
  | bytes {max : UInt32} {kind field : String} (b : Bytes) : Fits limit ⟨.bytes max kind field, b⟩
  | text {max : UInt32} {kind field : String} (s : String) : Fits limit ⟨.text max kind field, s⟩
  | one {x : MeasuredType} (hx : x ∈ measuredTypes) {a : x.type.Value} :
      x.nesting a ≤ limit → Fits limit ⟨.one x.type, a⟩
  | optional {x : MeasuredType} (hx : x ∈ measuredTypes) {o : Option x.type.Value} :
      (∀ a ∈ o, x.nesting a ≤ limit) → Fits limit ⟨.optional x.type, o⟩
  | array {x : MeasuredType} (hx : x ∈ measuredTypes) {max : UInt32} {kind field : String}
      {as : List x.type.Value} :
      (∀ a ∈ as, x.nesting a ≤ limit) → Fits limit ⟨.array x.type max kind field, as⟩
  | extension {x : MeasuredType} (hx : x ∈ measuredTypes) {version : Int32} {kind : String}
      {o : Option x.type.Value} :
      version ≠ 0 → (∀ a ∈ o, x.nesting a ≤ limit) → Fits limit ⟨.extension x.type version kind, o⟩

namespace WriteStep

open Codec (Regular deepest_le_iff)

variable {s : WriteStep} {steps : List WriteStep} {w : Writer}

private theorem elim_le {α : Type} {f : α → Nat} {o : Option α} (h : ∀ a ∈ o, f a ≤ limit) :
    o.elim 0 f ≤ limit := by
  cases o with
  | none => exact Nat.zero_le _
  | some a => exact h a rfl

/-- **What a program may write obeys the rules of the format**, and is not nested too deep. -/
theorem Fits.regular (h : s.Fits limit) :
    ∃ f, (∀ k, Regular k s.item.schema.wire f) ∧ f s.value ≤ limit := by
  cases h with
  | u32 n => exact ⟨_, fun _ => .u32, Nat.zero_le _⟩
  | i32 n => exact ⟨_, fun _ => .i32, Nat.zero_le _⟩
  | u64 n => exact ⟨_, fun _ => .u64, Nat.zero_le _⟩
  | i64 n => exact ⟨_, fun _ => .i64, Nat.zero_le _⟩
  | bool b => exact ⟨_, fun _ => .bool, Nat.zero_le _⟩
  | @fixed n v => exact ⟨_, fun _ => .fixed n, Nat.zero_le _⟩
  | @bytes max kind field b => exact ⟨_, fun _ => .bytes max kind field, Nat.zero_le _⟩
  | @text max kind field s => exact ⟨_, fun _ => .text max kind field, Nat.zero_le _⟩
  | @one x hx a ha => exact ⟨x.nesting, x.regular, ha⟩
  | @optional x hx o ho => exact ⟨_, fun k => .optional (x.regular k), elim_le ho⟩
  | @array x hx max kind field as has =>
      have hhungry := MeasuredType.hungry hx
      exact ⟨_, fun k => .array max kind field hhungry (x.regular k), deepest_le_iff.2 has⟩
  | @extension x hx version kind o hversion ho =>
      exact ⟨_, fun k => .extension kind hversion (x.regular k), elim_le ho⟩

/-! ### One step -/

/-- **A step that succeeds adds bytes, and its partner reads the value from exactly these**,
whatever was written before and whatever follows. -/
theorem reads_of_run (hfits : s.Fits limit) (hok : (s.run w).1 = .ok ()) :
    ∃ out, (s.run w).2.toList = w.toList ++ out
      ∧ s.item.schema.wire.get.Reads limit out s.value := by
  obtain ⟨f, hregular, hle⟩ := hfits.regular
  obtain ⟨result, out, happends, -⟩ := (hregular limit).steady hle
  have hrun : s.run w = (result, ⟨w.content ++ out⟩) := happends w
  rw [hrun] at hok ⊢
  obtain rfl : result = .ok () := hok
  refine ⟨out, ?_, (hregular limit).reads_of_writes (Nat.le_refl _) hle happends⟩
  simp [Writer.toList]

end WriteStep

/-! ### A whole program -/

namespace ReadStep

/-- A step and what came of it. -/
structure Answer : Type 1 where
  step : ReadStep
  outcome : Except WireError step.Outcome

/-- What comes of the steps of a program, one by one. -/
def answers (steps : List ReadStep) (r : Reader) : List Answer :=
  (trace steps r).map fun x => ⟨x.step, x.outcome⟩

/-- The first step's answer, then the answers of the rest from where it leaves the reader. -/
theorem answers_cons (s : ReadStep) (rest : List ReadStep) (r : Reader) :
    answers (s :: rest) r = ⟨s, (s.run r).1⟩ :: answers rest (s.run r).2 := rfl

end ReadStep

namespace WriteStep

variable {s : WriteStep} {steps : List WriteStep} {w : Writer}

/-- The partner of the step gives the value that the step wrote. -/
def answer (s : WriteStep) : ReadStep.Answer := ⟨s.reading, .ok s.value⟩

/-- The first step's outcome, then the trace of the rest from what it leaves written. -/
theorem trace_cons (s : WriteStep) (rest : List WriteStep) (w : Writer) :
    trace (s :: rest) w = ⟨(s.run w).1, (s.run w).2⟩ :: trace rest (s.run w).2 := rfl

/-- **A program that succeeds adds bytes, and its partner reads the values from exactly these**, one
by one. By induction on the program: the bytes of the first step stand in front of those of the
others, and behind them may stand whatever a longer program of reading goes on with. -/
theorem answers_reading (hfits : ∀ s ∈ steps, s.Fits limit)
    (hok : ∀ x ∈ trace steps w, x.outcome = .ok ()) :
    ∃ out, (steps.foldl (fun w s => (s.run w).2) w).toList = w.toList ++ out ∧
      ∀ more rest, ReadStep.answers (steps.map reading ++ more) ⟨out ++ rest, 0, limit⟩
        = steps.map answer ++ ReadStep.answers more ⟨rest, 0, limit⟩ := by
  -- The reader is spelled out: an induction over a reader that is given could not say what is left.
  induction steps generalizing w with
  | nil =>
      refine ⟨[], ?_, ?_⟩
      · simp
      · intro more rest
        rfl
  | cons s steps ih =>
      rw [List.forall_mem_cons] at hfits
      rw [trace_cons, List.forall_mem_cons] at hok
      obtain ⟨first, hfirst, hreads⟩ := reads_of_run hfits.1 hok.1
      obtain ⟨others, hothers, hanswers⟩ := ih hfits.2 hok.2
      refine ⟨first ++ others, ?_, ?_⟩
      · rw [List.foldl_cons, hothers, hfirst, List.append_assoc]
      · intro more rest
        have hrun : s.reading.run ⟨first ++ (others ++ rest), 0, limit⟩
            = (.ok s.value, ⟨others ++ rest, 0, limit⟩) :=
          hreads 0 limit (others ++ rest) (Nat.sub_zero limit)
        rw [List.map_cons, List.cons_append, ReadStep.answers_cons, List.append_assoc, hrun,
          hanswers]
        rfl

end WriteStep

/-- **Programs of reading and of writing are inverse.** Where all steps of a program of writing
succeed, the matching program of reading gives back the values that were written, one by one, and
then finds nothing left. -/
theorem programs_inverse {steps : List WriteStep} (hfits : ∀ s ∈ steps, s.Fits limit)
    (hok : ∀ x ∈ WriteStep.trace steps .empty, x.outcome = .ok ()) :
    ReadStep.answers (steps.map WriteStep.reading ++ [.finish])
        (.start (WriteStep.writer steps).toList limit)
      = steps.map WriteStep.answer ++ [⟨.finish, .ok ()⟩] := by
  obtain ⟨out, hout, hanswers⟩ := WriteStep.answers_reading hfits hok
  have hbytes : (WriteStep.writer steps).toList = out ++ [] := by
    rw [List.append_nil]
    exact hout
  rw [hbytes]
  exact hanswers [.finish] []

/-- A memo, whether it is final, contract values, and two slots behind versions. -/
def memoProgram : List WriteStep :=
  let value : DataType := ⟨"ScVal", ScVal, ScVal.schema⟩
  let price : DataType := ⟨"Price", Price, Price.schema⟩
  [⟨.text 28 "memo" "memo", "coffee"⟩, ⟨.bool, true⟩,
    ⟨.array value 4 "values" "values", [ScVal.vec (some [.u32 7]), ScVal.void]⟩,
    ⟨.extension price 1 "ext", some (⟨1, 3⟩ : Price)⟩, ⟨.extension price 2 "ext", none⟩]

theorem programs_inverse_memo :
    (∀ s ∈ memoProgram, s.Fits 2)
    ∧ (∀ x ∈ WriteStep.trace memoProgram .empty, x.outcome = .ok ())
    ∧ ReadStep.answers (memoProgram.map WriteStep.reading ++ [.finish])
        (.start (WriteStep.writer memoProgram).toList 2)
      = memoProgram.map WriteStep.answer ++ [⟨.finish, .ok ()⟩] := by
  have hvalue : measuredTypes.find? (·.type.name == "ScVal")
      = some (.of "ScVal" ScVal.schema ScVal.nesting ScVal.regular) := rfl
  have hprice : measuredTypes.find? (·.type.name == "Price")
      = some (.flat "Price" Price.schema Price.flat) := rfl
  have hfits : ∀ s ∈ memoProgram, s.Fits 2 := by
    intro s hs
    have hvalues : ∀ a ∈ [ScVal.vec (some [.u32 7]), .void], ScVal.nesting a ≤ 2 := by decide
    simp only [memoProgram, List.mem_cons, List.not_mem_nil, or_false] at hs
    rcases hs with rfl | rfl | rfl | rfl | rfl
    · exact .text _
    · exact .bool _
    · exact .array (List.mem_of_find?_eq_some hvalue) hvalues
    · exact .extension (List.mem_of_find?_eq_some hprice) (by decide) fun _ _ => Nat.zero_le 2
    · exact .extension (List.mem_of_find?_eq_some hprice) (by decide) nofun
  have hok : ∀ x ∈ WriteStep.trace memoProgram .empty, x.outcome = .ok () := by decide +kernel
  exact ⟨hfits, hok, programs_inverse hfits hok⟩

end LedgerWire
