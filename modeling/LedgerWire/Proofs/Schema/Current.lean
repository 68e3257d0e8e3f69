/-
# Types without retired variants

A variant that the format once had is known, and refused as no longer supported. Reading a type that
has no such variant never ends so: its faults are those that any bytes can have. Whether a type has
one is seen from its schema, combinator by combinator, and is found there by instance resolution.

* `Codec.Current` — reading complains of the input alone.
* `Codec.CurrentArms`, `Schema.CurrentArms` — so does reading any arm of a union, but for retired
  ones.
* `Schema.unsupported_union_iff` — when reading a union ends at a retired variant.
* `Schema.current_recursive` — recursive values, if one level over such values is one.
-/

import LedgerWire.Proofs.Wire.Faults
import LedgerWire.Schema.Record
import LedgerWire.Schema.Union

namespace LedgerWire

open WireError (IsOfInput)

/-! ### Codecs -/

namespace Codec

variable {α β : Type} {c : Codec α} {d : Codec β}

/-- Reading complains of the input alone: no variant on the way is one that is no longer
supported. -/
class Current (c : Codec α) : Prop where
  reports : ∀ k, c.get.Reports k IsOfInput

/-- Reading any of the arms complains of the input alone. -/
class CurrentArms (arms : List (Arm α)) : Prop where
  reports : ∀ arm ∈ arms, ∀ k, arm.codec.get.Reports k IsOfInput

instance current_unit : unit.Current := ⟨fun _ => Get.reports_pure ()⟩

instance current_u32 : u32.Current := ⟨fun _ => Get.reports_u32⟩

instance current_i32 : i32.Current := ⟨fun _ => Get.reports_i32⟩

instance current_u64 : u64.Current := ⟨fun _ => Get.reports_u64⟩

instance current_i64 : i64.Current := ⟨fun _ => Get.reports_i64⟩

instance current_bool : bool.Current := ⟨fun _ => Get.reports_bool⟩

instance current_fixed (n : Nat) : (fixed n).Current := ⟨fun _ => Get.reports_fixed n⟩

instance current_bytes (max : UInt32) (kind field : String) : (bytes max kind field).Current :=
  ⟨fun _ => Get.reports_bytes max kind⟩

instance current_both [c.Current] [d.Current] : (c.both d).Current :=
  ⟨fun k => (Current.reports k).bind fun a => (Current.reports k).map (a, ·)⟩

/-- Another view of the values, if whatever it refuses is malformed. -/
theorem current_convert {ofWire : α → Except WireError β} (toWire : β → α) [c.Current]
    (h : ∀ a e, ofWire a = .error e → e.IsOfInput) : (c.convert ofWire toWire).Current :=
  ⟨fun k => (Current.reports k).bind fun a => Get.reports_ofExcept (h a)⟩

instance current_imap (ofWire : α → β) (toWire : β → α) [c.Current] :
    (c.imap ofWire toWire).Current :=
  ⟨fun k => (Current.reports k).map ofWire⟩

instance current_guarded (validate : α → Except WireError Unit) [h : c.Current] :
    (c.guarded validate).Current :=
  ⟨h.reports⟩

instance current_nested [c.Current] : c.nested.Current where
  reports k := by
    cases k with
    | zero => exact Get.reports_nested_zero (fun _ => id) _
    | succ k => exact (Current.reports k).nested fun _ => id

instance current_optional [c.Current] : c.optional.Current :=
  ⟨fun k => (Current.reports k).optional fun _ => id⟩

instance current_array (max : UInt32) (kind field : String) [c.Current] :
    (c.array max kind field).Current :=
  ⟨fun k => (Current.reports k).array (fun _ => id) max kind⟩

instance current_text (max : UInt32) (kind field : String) : (text max kind field).Current := by
  refine current_convert _ fun b e h => ?_
  split at h
  · cases h
  · cases h
    trivial

instance currentArms_nil : CurrentArms ([] : List (Arm α)) := ⟨nofun⟩

instance currentArms_of (tag : Int32) (inject : β → α) (project : α → Option β)
    {rest : List (Arm α)} [h : d.Current] [CurrentArms rest] :
    CurrentArms (.of tag d inject project :: rest) :=
  ⟨List.forall_mem_cons.2 ⟨h.reports, CurrentArms.reports⟩⟩

instance current_union (kind : String) {arms : List (Arm α)} [CurrentArms arms] :
    (union kind arms).Current :=
  ⟨fun k => reports_union (fun _ => id) fun arm harm => CurrentArms.reports arm harm k⟩

end Codec

/-! ### Schemas -/

namespace Schema

open Codec (Current current_convert)

variable {α β : Type} {s : Schema α} {t : Schema β}

instance current_u32 : u32.wire.Current := Codec.current_u32

instance current_i32 : i32.wire.Current := Codec.current_i32

instance current_u64 : u64.wire.Current := Codec.current_u64

instance current_i64 : i64.wire.Current := Codec.current_i64

instance current_bool : bool.wire.Current := Codec.current_bool

instance current_unit : unit.wire.Current := Codec.current_unit

instance current_text (max : UInt32) (kind field : String) : (text max kind field).wire.Current :=
  Codec.current_text max kind field

instance current_bytes (max : UInt32) (kind field : String) :
    (bytes max kind field).wire.Current :=
  Codec.current_bytes max kind field

instance current_fixed (n : Nat) : (fixed n).wire.Current := Codec.current_fixed n

instance current_shownAs {ε : Type} (shown : α → String) (parse : String → Except ε α)
    (message : ε → String) {wire : Codec α} [h : wire.Current] :
    (shownAs shown parse message wire).wire.Current := h

instance current_guarded (validate : α → Except WireError Unit) [s.wire.Current] :
    (s.guarded validate).wire.Current :=
  Codec.current_guarded validate

instance current_optional [s.wire.Current] : s.optional.wire.Current := Codec.current_optional

instance current_array (max : UInt32) (kind field : String) [s.wire.Current] :
    (s.array max kind field).wire.Current :=
  Codec.current_array max kind field

/-! ### Records -/

instance current_field (name : String) [h : s.wire.Current] : (field name s).wire.Current := h

instance current_omittedField (name : String) [s.wire.Current] :
    (omittedField name s).wire.Current :=
  Codec.current_optional

instance current_fields {first : Fields α} {others : Fields β} [first.wire.Current]
    [others.wire.Current] : (first >> others).wire.Current :=
  Codec.current_both

instance current_record (ofTuple : α → β) (toTuple : β → α) {fields : Fields α}
    [fields.wire.Current] : (fields.record ofTuple toTuple).wire.Current :=
  Codec.current_imap ofTuple toTuple

instance current_inArm {fields : Fields α} [h : fields.wire.Current] :
    fields.inArm.wire.Current := h

/-! ### Unions -/

/-- Reading any of the arms complains of the input alone, unless the arm has one of the numbers. -/
class CurrentArms (retired : List Int32) (arms : List (Arm α)) : Prop where
  reports : ∀ arm ∈ arms, arm.tag ∈ retired ∨ ∀ k, arm.schema.wire.get.Reports k IsOfInput

section Arms

variable {retired : List Int32} {arms rest : List (Arm α)}

instance currentArms_nil : CurrentArms retired ([] : List (Arm α)) := ⟨nofun⟩

instance currentArms_of (tag : Int32) (name : String) (inject : β → α) (project : α → Option β)
    [h : t.wire.Current] [CurrentArms retired rest] :
    CurrentArms retired (.of tag name t inject project :: rest) :=
  ⟨List.forall_mem_cons.2 ⟨.inr h.reports, CurrentArms.reports⟩⟩

instance currentArms_bare (tag : Int32) (name : String) (value : α) (holds : α → Bool)
    [CurrentArms retired rest] : CurrentArms retired (.bare tag name value holds :: rest) :=
  ⟨List.forall_mem_cons.2 ⟨.inr Codec.current_unit.reports, CurrentArms.reports⟩⟩

instance currentArms_retired (tag : Int32) (what : String) [h : CurrentArms retired rest] :
    CurrentArms (tag :: retired) (.retired tag what :: rest) where
  reports := by
    refine List.forall_mem_cons.2 ⟨.inl (List.mem_cons_self ..), fun arm harm => ?_⟩
    rcases h.reports arm harm with htag | hreports
    · exact .inl (List.mem_cons_of_mem tag htag)
    · exact .inr hreports

instance currentArms_append [CurrentArms retired arms] [CurrentArms retired rest] :
    CurrentArms retired (arms ++ rest) :=
  ⟨List.forall_mem_append.2 ⟨CurrentArms.reports, CurrentArms.reports⟩⟩

instance current_union (kind : String) [h : CurrentArms [] arms] :
    (union kind arms).wire.Current := by
  have harms : Codec.CurrentArms (arms.map Arm.wire) :=
    ⟨List.forall_mem_map.2 fun arm harm => (h.reports arm harm).resolve_left List.not_mem_nil⟩
  exact Codec.current_union kind

variable {kind : String} {r r' : Reader} {n : Int32} {what : String}

/-- Behind the number of a retired variant nothing is read. -/
theorem unsupported_union_of_retired
    (hfound : (arms.map Arm.wire).find? (·.tag = n) = some (Arm.retired n what).wire)
    (hword : Get.i32 r = (.ok n, r')) :
    ((union kind arms).wire.get r).1 = .error (.unsupported what) := by
  have hget : (union kind arms).wire.get r = (Arm.retired n what).wire.get r' :=
    Codec.get_union_of_found hword hfound
  rw [hget]
  rfl

/-- What is no longer supported is so for its number: the other arms complain of the input alone. -/
theorem retired_of_unsupported_union (harms : CurrentArms retired arms)
    (h : ((union kind arms).wire.get r).1 = .error (.unsupported what)) :
    ∃ n r', Get.i32 r = (.ok n, r') ∧ n ∈ retired := by
  have hget : (union kind arms).wire.get r
      = (.error (.unsupported what), ((union kind arms).wire.get r).2) := Prod.ext h rfl
  rcases Attempt.bind_error_iff.1 hget with hword | ⟨n, t, hword, -⟩
  · have hinput : IsOfInput (.unsupported what) := Get.reports_i32.fault (Nat.le_refl _) hword
    exact hinput.elim
  -- If the number were of no retired arm, the fault would be one of the input.
  · refine ⟨n, t, hword, ?_⟩
    by_contra hn
    have hinput : IsOfInput (.unsupported what) := by
      cases hfound : (arms.map Arm.wire).find? (·.tag = n) with
      | none =>
          have hunknown : (union kind arms).wire.get r = (.error (.unknownVariant kind n), t) :=
            Codec.get_union_of_unknown hword hfound
          rw [hunknown] at h
          cases h
      | some codecArm =>
          have hread : (union kind arms).wire.get r = codecArm.get t :=
            Codec.get_union_of_found hword hfound
          obtain ⟨hcodec, rfl⟩ := Codec.mem_tag_of_find? hfound
          obtain ⟨arm, harm, rfl⟩ := List.mem_map.1 hcodec
          have hreports := (harms.reports arm harm).resolve_left hn t.room
          exact (hreports.map arm.inject).fault (Nat.le_refl _) (hread.symm.trans hget)
    exact hinput

/-- **Reading a union ends at a retired variant exactly if the discriminant is the number of one**,
whatever follows it. -/
theorem unsupported_union_iff (harms : CurrentArms retired arms)
    (hretired : ∀ n ∈ retired, ∃ what,
      (arms.map Arm.wire).find? (·.tag = n) = some (Arm.retired n what).wire) :
    (∃ what, ((union kind arms).wire.get r).1 = .error (.unsupported what))
      ↔ ∃ n r', Get.i32 r = (.ok n, r') ∧ n ∈ retired := by
  constructor
  · rintro ⟨what, h⟩
    exact retired_of_unsupported_union harms h
  · rintro ⟨n, r', hword, hn⟩
    obtain ⟨what, hfound⟩ := hretired n hn
    exact ⟨what, unsupported_union_of_retired hfound hword⟩

end Arms

instance current_behind (kind : String) (tag : Int32) [s.wire.Current] :
    (behind kind tag s).wire.Current :=
  Codec.current_union kind

instance current_reserved : reserved.wire.Current := current_behind ..

instance current_enumeration (e : Enumeration α) : e.schema.wire.Current where
  reports k := by
    refine Get.reports_i32.bind fun n => ?_
    split
    · exact Get.reports_pure _
    · exact Get.reports_fail trivial

/-! ### Recursion -/

/-- Every level of a recursive layout is current, by induction on the levels. -/
theorem current_levels {layout : Schema α → Schema α}
    (h : ∀ self : Schema α, self.wire.Current → (layout self).wire.Current) (n : Nat) :
    (levels layout n).wire.Current := by
  induction n with
  | zero =>
      refine ⟨fun k => ⟨?_, ?_⟩⟩
      · intro r e r' _ herror
        cases herror
        trivial
      · intro r a r' _ hok
        cases hok
  | succ n ih =>
      have hlevel : (layout (levels layout n)).wire.Current := h _ ih
      have hnested : (layout (levels layout n)).wire.nested.Current := Codec.current_nested
      exact ⟨hnested.reports⟩

/-- **Recursive values**, if one level over such values is one: a reader takes as many levels as it
has room for. -/
theorem current_recursive {nesting : α → Nat} {layout : Schema α → Schema α}
    (h : ∀ self : Schema α, self.wire.Current → (layout self).wire.Current) :
    (recursive nesting layout).wire.Current := by
  refine ⟨fun k => ⟨?_, ?_⟩⟩
  · intro r e r' hroom herror
    exact ((current_levels h r.room).reports k).fault hroom herror
  · intro r a r' hroom hok
    exact ((current_levels h r.room).reports k).room_le hroom hok

end Schema

end LedgerWire
