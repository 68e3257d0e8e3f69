/-
# A writer never takes anything back

What a writer holds is of no account to the next value: the value adds the same bytes behind
anything, and ends the same way. A value that turns out to be invalid half-way leaves the half that
went out before, and nothing else. Bounds are told from lengths alone, before the first byte.

* `Codec.Adds` — what a value adds to any writer, and how that ends.
* `WriteStep.IsOfFormat`, `WriteStep.exists_adds` — every step over the types of the format adds
  something.
* `WriteStep.trace_of_adds` — a program adds what its steps add, one behind the other.
* `Put.IsTooLong` — a length above a bound, or above what a word can count.
* `writer_append_only` — values, programs and bounds together.
-/

import Mathlib.Data.List.Infix
import LedgerWire.Proofs.Programs
import LedgerWire.Proofs.ReaderState
import LedgerWire.Proofs.Wire.Verdicts

namespace LedgerWire

/-! ### Writers -/

namespace Writer

/-- The writer with more bytes behind what it holds. -/
def append (w : Writer) (out : Bytes) : Writer := ⟨w.content ++ out⟩

theorem append_nil (w : Writer) : w.append [] = w := by
  simp [append]

theorem append_append (w : Writer) (p q : Bytes) : (w.append p).append q = w.append (p ++ q) :=
  congrArg Writer.mk (Array.toList_inj.1 (by simp [append]))

end Writer

/-! ### Values -/

namespace Codec

variable {α : Type} {c : Codec α} {a : α}

/-- Writing the value adds `out` behind whatever is there, and ends as it ends first thing. If the
value has a wire form, `out` is this wire form. -/
structure Adds (c : Codec α) (a : α) (out : Bytes) : Prop where
  put_eq : ∀ w, c.put a w = ((c.encode a).map fun _ => (), w.append out)
  eq_out : ∀ bytes, c.encode a = .ok bytes → bytes = out

/-- **A value adds something**, the same to every writer. -/
theorem exists_adds (h : (c.put a).Steady) : ∃ out, c.Adds a out := by
  obtain ⟨out, hout⟩ := ends_verdict h
  refine ⟨out, hout, fun bytes hbytes => ?_⟩
  have hwrites : c.Writes a bytes := (encode_eq_ok_iff h).1 hbytes
  exact (hwrites.unique hout).2

end Codec

/-! ### Steps -/

/-- Writing an item does not depend on what was written before. -/
theorem Item.steady {i : Item} (h : ∀ t ∈ i.type?, t ∈ wireTypes) (v : i.Value) :
    (i.schema.wire.put v).Steady := by
  have htype : ∀ t ∈ i.type?, ∀ a : t.Value, (t.schema.wire.put a).Steady := by
    intro t ht
    obtain ⟨nesting, hregular⟩ := regular_of_mem_wireTypes (h t ht)
    exact Codec.steady_put hregular
  cases i with
  | u32 => exact Codec.flat_u32.steady_put v
  | i32 => exact Codec.flat_i32.steady_put v
  | u64 => exact Codec.flat_u64.steady_put v
  | i64 => exact Codec.flat_i64.steady_put v
  | bool => exact Codec.flat_bool.steady_put v
  | fixed n => exact (Codec.flat_fixed n).steady_put v
  | bytes max kind field => exact (Codec.flat_bytes max kind field).steady_put v
  | text max kind field => exact (Codec.flat_text max kind field).steady_put v
  | one t => exact htype t rfl v
  | optional t => exact Codec.steady_optional fun a _ => htype t rfl a
  | array t max kind field => exact Put.steady_array max field fun a _ => htype t rfl a
  | extension t version kind => exact Codec.steady_extension fun a _ => htype t rfl a

namespace WriteStep

variable {s : WriteStep} {steps : List WriteStep}

/-- All values that the step writes are of types of the format. -/
def IsOfFormat (s : WriteStep) : Prop := ∀ t ∈ s.item.type?, t ∈ wireTypes

/-- What the step writes to a writer of its own. -/
def encode (s : WriteStep) : Except WireError Bytes := s.item.schema.wire.encode s.value

/-- The step adds `out` to every writer, and ends as it ends with a writer of its own. -/
def Adds (s : WriteStep) (out : Bytes) : Prop := s.item.schema.wire.Adds s.value out

/-- **A step adds something**, whatever comes of it. -/
theorem exists_adds (h : s.IsOfFormat) : ∃ out, s.Adds out :=
  Codec.exists_adds (Item.steady h s.value)

/-- Each step of a program adds its bytes, so there is the list of what they add. -/
theorem exists_forall₂_adds (h : ∀ s ∈ steps, s.IsOfFormat) :
    ∃ outs, List.Forall₂ Adds steps outs :=
  Codec.Writable.exists_forall₂_iff.2 fun s hs => exists_adds (h s hs)

/-! ### Programs -/

/-- **A program adds what its steps add, one behind the other**, and every step ends as it ends with
a writer of its own. By induction on the steps, each of which starts from the writer that the one
before it left. -/
theorem trace_of_adds {outs : List Bytes} (h : List.Forall₂ Adds steps outs) (w : Writer) :
    (trace steps w).map (·.outcome) = steps.map (fun s => s.encode.map fun _ => ())
      ∧ (trace steps w).map (·.writer)
        = outs.inits.tail.map fun done => w.append done.flatten := by
  induction h generalizing w with
  | nil => exact ⟨rfl, rfl⟩
  | @cons s out steps outs hs _ ih =>
      have hrun : s.run w = (s.encode.map fun _ => (), w.append out) := hs.put_eq w
      obtain ⟨houtcomes, hwriters⟩ := ih (w.append out)
      rw [trace_cons, hrun]
      refine ⟨congrArg (_ :: ·) houtcomes, ?_⟩
      have hinits : outs.inits = [] :: outs.inits.tail := by cases outs <;> rfl
      rw [List.map_cons, hwriters, List.inits_cons, List.tail_cons, hinits]
      simp [Writer.append_append, Function.comp_def]

end WriteStep

/-! ### Bounds -/

namespace Put

variable {max : UInt32} {field : String} {n : Nat}

/-- The length is above the bound, or above what a word can count. -/
def IsTooLong (max : UInt32) (n : Nat) : Prop := max.toNat < n ∨ UInt32.size ≤ n

/-- A length that no word counts is above every bound already. -/
theorem isTooLong_iff : IsTooLong max n ↔ max.toNat < n := by
  have hmax := max.toNat_lt_size
  unfold IsTooLong
  omega

/-- A step that adds nothing leaves the writer as it was. -/
theorem Appends.eq_self {m : Put} {result : Except WireError Unit} (h : m.Appends result [])
    (w : Writer) : m w = (result, w) := by
  rw [h w]
  exact congrArg _ w.append_nil

end Put

/-- **A writer only ever appends.** Every value of the format adds the same bytes to any writer: its
wire form, if it has one, and if not, what is written of it before the fault that it has first thing
as well. The same holds of the steps of a program, bounded writes among them, whose bytes stand one
behind the other. And a byte string, a text or a list above its bound is refused with its length,
and the writer is as it was. -/
theorem writer_append_only :
    (∀ t ∈ wireTypes, ∀ v : t.Value, ∃ out, t.schema.wire.Adds v out)
      ∧ (∀ steps : List WriteStep, (∀ s ∈ steps, s.IsOfFormat) →
        ∃ outs, List.Forall₂ WriteStep.Adds steps outs ∧ ∀ w,
          (WriteStep.trace steps w).map (·.outcome) = steps.map (fun s => s.encode.map fun _ => ())
            ∧ (WriteStep.trace steps w).map (·.writer)
              = outs.inits.tail.map fun done => w.append done.flatten)
      ∧ ∀ (max : UInt32) (kind field : String),
        (∀ b : Bytes, Put.IsTooLong max b.length → ∀ w, Put.bytes max field b w
          = (.error (.validation field (.lengthAbove b.length max.toNat)), w))
        ∧ (∀ s : String, Put.IsTooLong max s.utf8ByteSize → ∀ w,
          (Codec.text max kind field).put s w
            = (.error (.validation field (.lengthAbove s.utf8ByteSize max.toNat)), w))
        ∧ ∀ {α : Type} (value : α → Put) (items : List α), Put.IsTooLong max items.length → ∀ w,
          Put.array max field value items w
            = (.error (.validation field (.lengthAbove items.length max.toNat)), w) := by
  refine ⟨fun t ht v => ?_, fun steps hsteps => ?_, fun max kind field => ⟨?_, ?_, ?_⟩⟩
  · obtain ⟨nesting, hregular⟩ := regular_of_mem_wireTypes ht
    exact Codec.exists_adds (Codec.steady_put hregular v)
  · obtain ⟨outs, houts⟩ := WriteStep.exists_forall₂_adds hsteps
    exact ⟨outs, houts, WriteStep.trace_of_adds houts⟩
  · intro b hlong
    exact (Put.appends_bytes_of_lt (Put.isTooLong_iff.1 hlong)).eq_self
  -- The length of a text is that of its bytes.
  · intro s hlong
    rw [← Text.length_ofString] at hlong ⊢
    exact (Put.appends_bytes_of_lt (Put.isTooLong_iff.1 hlong)).eq_self
  · intro α value items hlong
    exact (Put.appends_array_of_lt (Put.isTooLong_iff.1 hlong)).eq_self

/-- A vector that is spoiled by its second item, and a word behind it. -/
def spoiledProgram : List WriteStep :=
  let value : DataType := ⟨"ScVal", ScVal, ScVal.schema⟩
  [⟨.one value, ScVal.vec (some [.u32 7, .symbol "bad!"])⟩, ⟨.u32, (5 : UInt32)⟩]

/-- The word is written in spite of the vector, and five bytes are not where four are allowed. -/
theorem writer_append_only_spoiled :
    (∀ s ∈ spoiledProgram, s.IsOfFormat)
    ∧ (∃ outs, List.Forall₂ WriteStep.Adds spoiledProgram outs ∧ ∀ w,
      (WriteStep.trace spoiledProgram w).map (·.outcome)
        = [.error (.validation "symbol" (.symbolCharacter "bad!" '!')), .ok ()])
    ∧ ∀ w, Put.bytes 4 "code" [1, 2, 3, 4, 5] w
      = (.error (.validation "code" (.lengthAbove 5 4)), w) := by
  have hvalue : wireTypes.find? (·.name == "ScVal") = some ⟨"ScVal", ScVal, ScVal.schema⟩ := rfl
  have hformat : ∀ s ∈ spoiledProgram, s.IsOfFormat := by
    intro s hs
    simp only [spoiledProgram, List.mem_cons, List.not_mem_nil, or_false] at hs
    rcases hs with rfl | rfl
    · intro t ht
      cases ht
      exact List.mem_of_find?_eq_some hvalue
    · exact nofun
  have hends : spoiledProgram.map (fun s => s.encode.map fun _ => ())
      = [.error (.validation "symbol" (.symbolCharacter "bad!" '!')), .ok ()] := by decide +kernel
  obtain ⟨outs, houts, htrace⟩ := writer_append_only.2.1 spoiledProgram hformat
  refine ⟨hformat, ⟨outs, houts, fun w => (htrace w).1.trans hends⟩, ?_⟩
  exact (writer_append_only.2.2 4 "code" "code").1 _ (.inl (by decide))

end LedgerWire
