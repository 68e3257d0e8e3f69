/-
# Kinds of faults

Whatever the type and whatever the bytes, reading complains of the bytes and writing of a broken
rule. One fault of reading is told by the input alone: that an operation is of a kind which is no
longer supported. It stands behind the source account as the number of such a kind, and nothing
behind the number matters.

* `Operation.NamesRetiredKind` — bytes that start as an operation of a retired kind.
* `Operation.unsupported_iff` — exactly these are refused as no longer supported.
* `Operation.not_namesRetiredKind_of_encode` — no operation is written so.
* `fault_kinds` — the faults of all types, and this one.
-/

import LedgerWire.Proofs.Catalogue
import LedgerWire.Proofs.Types.Current
import LedgerWire.Proofs.Wire.Depth

namespace LedgerWire

open Bytes (word)

/-! ### Retired kinds -/

/-- **Reading the body of an operation ends at a retired kind exactly if its number is 7 or 9.** -/
theorem OperationBody.unsupported_iff {r : Reader} :
    (∃ what, (schema.wire.get r).1 = .error (.unsupported what))
      ↔ ∃ n r', Get.i32 r = (.ok n, r') ∧ n ∈ [7, 9] := by
  refine Schema.unsupported_union_iff ?_ ?_
  · infer_instance
  · intro n hn
    simp only [List.mem_cons, List.not_mem_nil, or_false] at hn
    rcases hn with rfl | rfl
    · exact ⟨_, rfl⟩
    · exact ⟨_, rfl⟩

namespace Operation

variable {b : Bytes} {op : Operation}

/-- In front of the bytes stands a source account or none, and behind it the number of a kind that
is no longer supported. -/
def NamesRetiredKind (b : Bytes) : Prop :=
  ∃ source number rest, (number = 7 ∨ number = 9)
    ∧ MuxedAccount.schema.wire.optional.get (.start b) = (.ok source, .start (word number ++ rest))

/-- The next word names a retired kind. -/
theorem i32_start_iff :
    (∃ n r', Get.i32 (.start b) = (.ok n, r') ∧ n ∈ [7, 9])
      ↔ ∃ number rest, (number = 7 ∨ number = 9) ∧ b = word number ++ rest := by
  have hi32 : Get.i32.Framed Reader.defaultLimit :=
    (Get.aligned_u32.map UInt32.toInt32).toFramed
  constructor
  · rintro ⟨n, r', hget, hn⟩
    obtain ⟨front, rest, rfl, -, hreads, -⟩ := hi32.split rfl hget
    obtain rfl := Codec.reads_i32_iff.1 hreads
    refine ⟨n.toUInt32, rest, ?_, rfl⟩
    simp only [List.mem_cons, List.not_mem_nil, or_false] at hn
    rcases hn with rfl | rfl
    · exact .inl rfl
    · exact .inr rfl
  · rintro ⟨number, rest, hnumber, rfl⟩
    have hreads : Get.i32.Reads Reader.defaultLimit (word number) number.toInt32 :=
      Codec.reads_i32_iff.2 (by simp)
    refine ⟨_, _, hreads 0 Reader.defaultLimit rest rfl, ?_⟩
    rcases hnumber with rfl | rfl
    · decide
    · decide

/-- Reading an operation ends at a retired kind exactly if reading its body does: the account in
front of it has no retired variants. -/
theorem get_unsupported_iff {r : Reader} :
    (∃ what, (schema.wire.get r).1 = .error (.unsupported what))
      ↔ ∃ source r', MuxedAccount.schema.wire.optional.get r = (.ok source, r')
        ∧ ∃ what, (OperationBody.schema.wire.get r').1 = .error (.unsupported what) := by
  constructor
  · rintro ⟨what, h⟩
    have hget : schema.wire.get r = (.error (.unsupported what), (schema.wire.get r).2) :=
      Prod.ext h rfl
    have hfields := Codec.get_imap_eq_error_iff.1 hget
    rcases Codec.get_both_eq_error_iff.1 hfields with hsource | ⟨source, r', hsource, hbody⟩
    -- The source has no retired kinds, so it cannot have complained of one.
    · have hcurrent : MuxedAccount.schema.wire.optional.Current := inferInstance
      have hinput : WireError.IsOfInput (.unsupported what) :=
        (hcurrent.reports r.room).fault (Nat.le_refl _) hsource
      exact hinput.elim
    · exact ⟨source, r', hsource, what, congrArg Prod.fst hbody⟩
  · rintro ⟨source, r', hsource, what, h⟩
    have hbody : OperationBody.schema.wire.get r'
        = (.error (.unsupported what), (OperationBody.schema.wire.get r').2) := Prod.ext h rfl
    have hfields := Codec.get_both_eq_error_iff.2 (.inr ⟨source, r', hsource, hbody⟩)
    exact ⟨what, congrArg Prod.fst (Codec.get_imap_eq_error_iff.2 hfields)⟩

/-- **Bytes are refused as no longer supported exactly if they name a retired kind**, whatever
follows its number: the source account takes no bytes but its own. -/
theorem unsupported_iff :
    (∃ what, schema.wire.decode b = .error (.unsupported what)) ↔ NamesRetiredKind b := by
  have hsource : (MuxedAccount.schema.wire.optional).get.Framed Reader.defaultLimit :=
    ((MuxedAccount.flat.optional Reader.defaultLimit).aligned (Nat.le_refl _)).toFramed
  simp only [Codec.decode_eq_unsupported_iff, get_unsupported_iff, OperationBody.unsupported_iff]
  constructor
  · rintro ⟨source, r', hget, hword⟩
    obtain ⟨_, rest, -, rfl, -, -⟩ := hsource.split rfl hget
    obtain ⟨number, rest', hnumber, rfl⟩ := i32_start_iff.1 hword
    exact ⟨source, number, rest', hnumber, hget⟩
  · rintro ⟨source, number, rest, hnumber, hget⟩
    exact ⟨source, _, hget, i32_start_iff.2 ⟨number, rest, hnumber, rfl⟩⟩

/-- **No operation is written as bytes that name a retired kind**: they would be read as the
operation again, or refused for its nesting. -/
theorem not_namesRetiredKind_of_encode (h : schema.wire.encode op = .ok b) :
    ¬NamesRetiredKind b := by
  intro hnames
  obtain ⟨what, hdecode⟩ := unsupported_iff.2 hnames
  rw [Codec.decode_eq_unsupported_iff] at hdecode
  by_cases hle : op.nesting ≤ Reader.defaultLimit
  · rw [(regular Reader.defaultLimit).get_of_encode hle h] at hdecode
    cases hdecode
  · rw [Codec.Regular.get_of_encode_deep regular (Nat.lt_of_not_le hle) h] at hdecode
    cases hdecode

end Operation

/-! ### All types -/

/-- **Every fault is of the kind that its direction has.** Reading any type from any bytes complains
of the bytes, and never of a rule, of lost precision or of base 64; writing any value complains of a
broken rule. Bytes are refused as an operation of a kind that is no longer supported exactly if they
name one behind the source account, and no operation is written as such bytes. -/
theorem fault_kinds :
    (∀ t ∈ wireTypes,
      (∀ b limit e, t.schema.wire.decode b limit = .error e → e.IsOfBytes)
      ∧ ∀ v e, t.encode v = .error e → e.IsValidation)
    ∧ (∀ b, (∃ what, Operation.schema.wire.decode b = .error (.unsupported what))
      ↔ Operation.NamesRetiredKind b)
    ∧ ∀ op b, Operation.schema.wire.encode op = .ok b → ¬Operation.NamesRetiredKind b := by
  refine ⟨?_, ?_, ?_⟩
  · intro t ht
    obtain ⟨nesting, hregular⟩ := regular_of_mem_wireTypes ht
    constructor
    · intro b limit e he
      exact (hregular limit).isOfBytes_of_decode he
    · intro v e he
      exact Codec.isValidation_of_encode ((hregular (nesting v)).steady (Nat.le_refl _)) he
  · intro b
    exact Operation.unsupported_iff
  · intro op b h
    exact Operation.not_namesRetiredKind_of_encode h

/-- Behind an absent source account the number 7 names a retired kind, with a byte too much behind
it; the number 17 names one that an operation is written with. -/
theorem fault_kinds_sequence :
    (∃ what, Operation.schema.wire.decode [0, 0, 0, 0, 0, 0, 0, 7, 1] = .error (.unsupported what))
    ∧ ¬Operation.NamesRetiredKind [0, 0, 0, 0, 0, 0, 0, 17]
    ∧ (WireError.unexpectedEnd 8 4).IsOfBytes
    ∧ (WireError.validation "bump_to" (.negative (-1))).IsValidation := by
  obtain ⟨htypes, hretired, hwritten⟩ := fault_kinds
  have hname : DataType.ofName? "BumpSequenceOp"
      = some ⟨"BumpSequenceOp", BumpSequenceOp, BumpSequenceOp.schema⟩ := rfl
  obtain ⟨hread, hwrite⟩ :=
    htypes _ (List.mem_cons_of_mem sponsorSlot (List.mem_of_find?_eq_some hname))
  refine ⟨(hretired _).2 ?_, ?_, ?_, ?_⟩
  · exact ⟨none, 7, [1], .inl rfl, rfl⟩
  · exact hwritten ⟨none, .endSponsoringFutureReserves⟩ _ rfl
  · exact hread [0, 0, 0, 0] Reader.defaultLimit _ rfl
  · exact hwrite ⟨-1⟩ _ rfl

end LedgerWire
