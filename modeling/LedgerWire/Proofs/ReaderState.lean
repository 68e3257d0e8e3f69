/-
# A reader after faults

A fault may be found anywhere: in the middle of a word, inside a list, deep inside nested values. A
program that goes on with the same reader is not misled by it. Between its steps the reader counts
no level, so every step does what it would do first thing on the bytes that are left.

* `ReadStep.IsOfFormat` — steps over the types of the format, alone or within nested steps.
* `ReadStep.settles` — one such step moves its reader ahead, and does nothing else to it.
* `ReadStep.ahead_of_trace`, `ReadStep.run_of_trace` — the reader after any part of a program, and
  what the next step does with it.
* `reader_survives_faults` — what follows for a reader that starts on an input.
-/

import LedgerWire.Program
import LedgerWire.Proofs.Catalogue
import LedgerWire.Proofs.Wire.Settling

namespace LedgerWire

open Get (Settles FaultsInPlace)

variable {k : Nat}

/-! ### Steps over the format -/

/-- The type whose values the item is made of, unless it is a word or a byte string. -/
def Item.type? : Item → Option DataType
  | .one t | .optional t | .array t _ _ _ | .extension t _ _ => some t
  | .u32 | .i32 | .u64 | .i64 | .bool | .fixed _ | .bytes _ _ _ | .text _ _ _ => none

/-- Reading an item moves the reader ahead. -/
theorem Item.settles {i : Item} (h : ∀ t ∈ i.type?, t ∈ wireTypes) :
    i.schema.wire.get.Settles k := by
  have htype : ∀ t ∈ i.type?, t.schema.wire.get.Settles k := by
    intro t ht
    obtain ⟨nesting, hregular⟩ := regular_of_mem_wireTypes (h t ht)
    exact (hregular k).settles
  cases i with
  | u32 => exact Get.settles_u32
  | i32 => exact Get.settles_i32
  | u64 => exact Get.settles_u64
  | i64 => exact Get.settles_u64.map _
  | bool => exact Get.settles_bool
  | fixed n => exact Get.settles_fixed n
  | bytes max kind field => exact Get.settles_bytes max kind
  | text max kind field =>
      exact (Get.settles_bytes max kind).bind fun b => Get.settles_ofExcept _
  | one t => exact htype t rfl
  | optional t => exact (htype t rfl).optional
  | array t max kind field => exact (htype t rfl).array max kind
  | extension t version kind => exact (htype t rfl).extension version kind

namespace ReadStep

/-- All values that the step reads are of types of the format. -/
inductive IsOfFormat : ReadStep → Prop
  | item {i : Item} : (∀ t ∈ i.type?, t ∈ wireTypes) → IsOfFormat (.item i)
  | finish : IsOfFormat .finish
  | nested {steps : List ReadStep} : (∀ s ∈ steps, IsOfFormat s) → IsOfFormat (.nested steps)

/-- The step reads an integer. -/
inductive IsInteger : ReadStep → Prop
  | u32 : IsInteger (.item .u32)
  | i32 : IsInteger (.item .i32)
  | u64 : IsInteger (.item .u64)
  | i64 : IsInteger (.item .i64)

variable {s : ReadStep} {steps : List ReadStep} {r : Reader}

/-! ### One step -/

/-- A list of steps settles when each step does, by induction on the list. -/
theorem settles_runAll (h : ∀ s ∈ steps, s.run.Settles k) : (runAll steps).Settles k := by
  induction steps with
  | nil => exact Get.settles_pure ()
  | cons s steps ih =>
      rw [List.forall_mem_cons] at h
      exact h.1.bind fun a => (ih h.2).map fun b => (a, b)

/-- **A step moves its reader ahead, whatever comes of it.** -/
theorem settles (h : s.IsOfFormat) : ∀ k, s.run.Settles k := by
  induction h with
  | item htypes => exact fun k => Item.settles htypes
  | finish => exact fun k => Get.settles_finish
  | @nested steps _ ih =>
      intro k
      cases k with
      | zero => exact Get.settles_nested_zero _
      | succ k => exact (settles_runAll fun s hs => ih s hs k).nested

/-- Every step leaves the reader at or ahead of where it was. -/
theorem ahead_run (h : s.IsOfFormat) (r : Reader) : r.Ahead (s.run r).2 :=
  settles h r.room r (Nat.le_refl _)

/-- An integer is read whole or not at all. -/
theorem IsInteger.faultsInPlace (h : s.IsInteger) : s.run.FaultsInPlace := by
  cases h with
  | u32 => exact Get.faultsInPlace_u32
  | i32 => exact Get.faultsInPlace_i32
  | u64 => exact Get.faultsInPlace_u64
  | i64 => exact Get.faultsInPlace_i64

/-- Asking for the end of the input takes nothing. -/
theorem run_finish_reader (r : Reader) : (run .finish r).2 = r := by
  show (Get.finish r).2 = r
  unfold Get.finish
  split
  · rfl
  · rfl

/-! ### Programs -/

/-- The reader after steps with these results. -/
def readerAfter (r : Reader) (done : List Result) : Reader :=
  (done.getLast?.map (·.reader)).getD r

/-- The reader after a list of results is the one the last of them left. -/
theorem readerAfter_cons (r : Reader) (x : Result) (done : List Result) :
    readerAfter r (x :: done) = readerAfter x.reader done := by
  unfold readerAfter
  cases done with
  | nil => rfl
  | cons y rest => simp [List.getLast?_cons]

/-- Every step is taken, whatever came of those before it. -/
theorem map_step_trace (steps : List ReadStep) (r : Reader) :
    (trace steps r).map (·.step) = steps := by
  induction steps generalizing r with
  | nil => rfl
  | cons s steps ih =>
      show s :: (trace steps (s.run r).2).map (·.step) = s :: steps
      rw [ih]

/-- **A step of a program starts from the reader that the steps before it left.** -/
theorem run_of_trace {done todo : List Result} {x : Result}
    (h : trace steps r = done ++ x :: todo) :
    x.step.run (readerAfter r done) = (x.outcome, x.reader) := by
  induction done generalizing steps r with
  | nil =>
      cases steps with
      | nil => cases h
      | cons s steps =>
          cases h
          rfl
  | cons y done ih =>
      cases steps with
      | nil => cases h
      | cons s steps =>
          obtain ⟨rfl, hrest⟩ := List.cons.inj h
          rw [readerAfter_cons]
          exact ih hrest

/-- **After any part of a program the reader is ahead of where it started.** By induction on the
results, each of which moves it on. -/
theorem ahead_of_trace (hsteps : ∀ s ∈ steps, s.IsOfFormat) {done todo : List Result}
    (h : trace steps r = done ++ todo) : r.Ahead (readerAfter r done) := by
  induction done generalizing steps r with
  | nil => exact .refl r
  | cons y done ih =>
      cases steps with
      | nil => cases h
      | cons s steps =>
          rw [List.forall_mem_cons] at hsteps
          obtain ⟨rfl, hrest⟩ := List.cons.inj h
          rw [readerAfter_cons]
          exact (ahead_run hsteps.1 r).trans (ih hsteps.2 hrest)

/-- The bytes that are left of an input after steps with these results. -/
def leftAfter (input : Bytes) (done : List Result) : Bytes :=
  (done.getLast?.map (·.reader.unread)).getD input

/-- What is unread after some results is what their steps left of the input. -/
theorem unread_readerAfter (input : Bytes) (limit : Nat) (done : List Result) :
    (readerAfter (.start input limit) done).unread = leftAfter input done := by
  unfold readerAfter leftAfter
  cases done.getLast? with
  | none => rfl
  | some x => rfl

end ReadStep

open ReadStep

/-! ### A reader on an input -/

/-- **Faults do not spoil a reader.** A program takes all its steps, whatever comes of each. After
every step the reader counts no level, and what is left is a suffix of what was left before the
step, and so of the input. The end of the input is looked for without taking anything, and an
integer that cannot be read is not read in part. And what comes of a step, the reader afterwards
included, is what a new reader with the same limit would give on the bytes that were left. -/
theorem reader_survives_faults {steps : List ReadStep} (hsteps : ∀ s ∈ steps, s.IsOfFormat)
    (input : Bytes) (limit : Nat) :
    (trace steps (.start input limit)).map (·.step) = steps
      ∧ ∀ done x todo, trace steps (.start input limit) = done ++ x :: todo →
        x.reader.depth = 0
        ∧ x.reader.unread <:+ leftAfter input done ∧ leftAfter input done <:+ input
        ∧ (x.step = .finish → x.reader.unread = leftAfter input done)
        ∧ (x.step.IsInteger → ∀ e, x.outcome = .error e → x.reader.unread = leftAfter input done)
        ∧ x.step.run (.start (leftAfter input done) limit) = (x.outcome, x.reader) := by
  refine ⟨map_step_trace steps _, ?_⟩
  intro done x todo htrace
  have hbefore : (Reader.start input limit).Ahead (readerAfter (.start input limit) done) :=
    ahead_of_trace hsteps htrace
  have hstart := hbefore.eq_start
  rw [unread_readerAfter] at hstart
  have hrun := run_of_trace htrace
  rw [hstart] at hbefore hrun
  have hstep : x.step ∈ steps := by
    rw [← map_step_trace steps (.start input limit), htrace]
    simp
  have hahead := ahead_run (hsteps _ hstep) (.start (leftAfter input done) limit)
  rw [hrun] at hahead
  refine ⟨hahead.depth_eq, hahead.suffix, hbefore.suffix, ?_, ?_, hrun⟩
  · intro hfinish
    obtain ⟨step, outcome, reader⟩ := x
    obtain rfl : step = .finish := hfinish
    have hsame := run_finish_reader (.start (leftAfter input done) limit)
    rw [hrun] at hsame
    exact congrArg Reader.unread hsame
  · intro hinteger e he
    rw [he] at hrun
    exact congrArg Reader.unread (hinteger.faultsInPlace _ _ _ hrun)

/-- Within nested steps a number and a value; a list of values; a long number; and the end. -/
def faultyProgram : List ReadStep :=
  let value : DataType := ⟨"ScVal", ScVal, ScVal.schema⟩
  [.nested [.item .u32, .item (.one value)], .item (.array value 4 "values" "values"),
    .item .u64, .finish]

/-- The value goes a level too deep inside two others, the list is too long, and three bytes are
left, which are no number and not the end. -/
def faultyInput : Bytes :=
  [0, 0, 0, 9, 0, 0, 0, 16, 0, 0, 0, 1, 0, 0, 0, 1, 0, 0, 0, 5, 1, 2, 3]

theorem reader_survives_faults_nested :
    (∀ s ∈ faultyProgram, s.IsOfFormat)
    ∧ (trace faultyProgram (.start faultyInput 2)).map (·.reader.unread)
      = [[0, 0, 0, 5, 1, 2, 3], [1, 2, 3], [1, 2, 3], [1, 2, 3]]
    ∧ ∀ done x todo, trace faultyProgram (.start faultyInput 2) = done ++ x :: todo →
      x.reader.depth = 0
      ∧ x.step.run (.start (leftAfter faultyInput done) 2) = (x.outcome, x.reader) := by
  have hname : DataType.ofName? "ScVal" = some ⟨"ScVal", ScVal, ScVal.schema⟩ := rfl
  have hvalue : ⟨"ScVal", ScVal, ScVal.schema⟩ ∈ wireTypes :=
    List.mem_cons_of_mem sponsorSlot (List.mem_of_find?_eq_some hname)
  have hsteps : ∀ s ∈ faultyProgram, s.IsOfFormat := by
    intro s hs
    simp only [faultyProgram, List.mem_cons, List.not_mem_nil, or_false] at hs
    rcases hs with rfl | rfl | rfl | rfl
    · refine .nested fun s hs => ?_
      simp only [List.mem_cons, List.not_mem_nil, or_false] at hs
      rcases hs with rfl | rfl
      · exact .item nofun
      · refine .item ?_
        rintro t ⟨⟩
        exact hvalue
    · refine .item ?_
      rintro t ⟨⟩
      exact hvalue
    · exact .item nofun
    · exact .finish
  obtain ⟨-, hresults⟩ := reader_survives_faults hsteps faultyInput 2
  refine ⟨hsteps, by decide +kernel, ?_⟩
  intro done x todo htrace
  obtain ⟨hdepth, -, -, -, -, hrun⟩ := hresults done x todo htrace
  exact ⟨hdepth, hrun⟩

end LedgerWire
