/-
# The rules behind the schema combinators

Every combinator of schemas obeys the rules of `Codec.Regular`: it is one of them, or put together
from several. A type's own proof of regularity then repeats its schema, with the rule of a
combinator in the combinator's place.

* `Codec.Flat` — regular to any depth, and its values hold no recursive ones. Beside such a value,
  the nesting is that of the other (`Regular.behind`, `Regular.before`).
* `Regular.imap`, `Regular.guarded`, `Regular.extension`, … — one rule a combinator.
* `Parts` — the arms of a union, one by one; `Regular.union_of_parts` is their union.
* `Enumeration.flat` — enumerations, from the one fact that a number finds its value.
-/

import LedgerWire.Proofs.Wire.Regular
import LedgerWire.Schema.Record
import LedgerWire.Schema.Union

namespace LedgerWire

namespace Codec

variable {α β : Type} {k : Nat} {c : Codec α} {d : Codec β} {f : α → Nat} {g : β → Nat}

/-- The codec is regular to any depth, and its values hold no recursive ones. -/
def Flat (c : Codec α) : Prop := ∀ k, Regular k c fun _ => 0

/-- Writing is steady however deep the value, if the codec is regular to any depth. -/
theorem steady_put (h : ∀ k, Regular k c f) (a : α) : (c.put a).Steady :=
  (h (f a)).steady (Nat.le_refl _)

/-- A flat codec writes all its values steadily, there being no depth to speak of. -/
theorem Flat.steady_put (h : c.Flat) (a : α) : (c.put a).Steady := Codec.steady_put h a

/-! ### Views and checks -/

abbrev unchecked : α → Except WireError Unit := fun _ => .ok ()

/-- A view in which every value is seen. -/
theorem view_of_inverse {ofWire : α → β} {toWire : β → α} (hto : toWire ∘ ofWire = id)
    (hof : ofWire ∘ toWire = id) : View (fun a => .ok (ofWire a)) toWire unchecked where
  toWire_of_ofWire h := by
    cases h
    exact congrFun hto _
  ofWire_toWire _ := congrArg Except.ok (congrFun hof _)
  judges _ := judges_ok
  isRefusal h := by cases h

/-- A rule of the first of two values may be judged before both. -/
theorem guarded_both (c : Codec α) (d : Codec β) (check : α → Except WireError Unit) :
    (c.both d).guarded (fun x => check x.1) = (c.guarded check).both d :=
  congrArg (Codec.mk · _) (funext fun _ => (bind_assoc ..).symm)

theorem convert_ok_id (c : Codec α) : c.convert .ok id = c := by
  show Codec.mk c.put (c.get >>= pure) = c
  rw [bind_pure]

namespace Regular

/-- A conversion with an exact view is regular: what is seen is seen of one value only. -/
theorem convert {ofWire : α → Except WireError β} {toWire : β → α}
    (hview : View ofWire toWire unchecked) (h : Regular k c f) :
    Regular k (c.convert ofWire toWire) fun b => f (toWire b) :=
  .view hview h

/-- Records are a view of tuples, and names one of what they name. -/
theorem imap {ofWire : α → β} {toWire : β → α} (hto : toWire ∘ ofWire = id)
    (hof : ofWire ∘ toWire = id) (h : Regular k c f) :
    Regular k (c.imap ofWire toWire) fun b => f (toWire b) :=
  .convert (view_of_inverse hto hof) h

/-- A check keeps regularity, since it reads and writes nothing. -/
theorem guarded {check : α → Except WireError Unit}
    (hcheck : ∀ a, Judges (check a)) (h : Regular k c f) :
    Regular k (c.guarded check) f := by
  have hview : View (.ok : α → Except WireError α) id check :=
    ⟨fun h => by cases h; rfl, fun _ => rfl, hcheck, fun h => by cases h⟩
  have hguarded := Regular.view hview h
  rwa [Codec.view, convert_ok_id] at hguarded

/-! ### Words, truth values and texts -/

theorem i32 : Regular k .i32 fun _ => 0 :=
  .imap (funext UInt32.toUInt32_toInt32) (funext Int32.toInt32_toUInt32) .u32

theorem i64 : Regular k .i64 fun _ => 0 :=
  .imap (funext UInt64.toUInt64_toInt64) (funext Int64.toInt64_toUInt64) .u64

/-- A truth value is a word, of which two are read. -/
theorem bool : Regular k .bool fun _ => 0 := by
  have hview : View boolOfWord wordOfBool unchecked :=
    { toWire_of_ofWire := wordOfBool_of_boolOfWord
      ofWire_toWire := fun {b} _ => boolOfWord_wordOfBool b
      judges := fun _ => judges_ok
      isRefusal := fun {a e} h => by
        unfold boolOfWord at h
        split at h
        · cases h
        · split at h
          · cases h
          · cases h
            trivial }
  rw [bool_eq_view]
  exact .view hview .u32

/-- A text is a view of its bytes: bytes that spell no text are refused. -/
theorem text (max : UInt32) (kind field : String) :
    Regular k (.text max kind field) fun _ => 0 := by
  refine .convert
    { toWire_of_ofWire := fun {b s} h => ?_
      ofWire_toWire := fun {s} _ => ?_
      judges := fun _ => judges_ok
      isRefusal := fun {b e} h => ?_ } (.bytes max kind field)
  · split at h
    · rename_i s' hs
      cases h
      exact (Bytes.toText?_eq_some_iff.1 hs).symm
    · cases h
  · rw [Bytes.toText?_eq_some_iff.2 rfl]
  · split at h
    · cases h
    · cases h
      trivial

end Regular

/-! ### Unions arm by arm -/

/-- The value that an arm gives back, if it belongs to the arm. -/
def Arm.back (arm : Arm α) (a : α) : Option α := (arm.project a).map arm.inject

/-- The values that the arms of a union give back. -/
def backs (arms : List (Arm α)) (a : α) : List α := arms.filterMap (·.back a)

/-- The number of the arm that a value belongs to. -/
def numberOf (arms : List (Arm α)) (a : α) : Int32 :=
  ((arms.find? fun arm => (arm.back a).isSome).map Arm.tag).getD 0

/-- Every arm finds its payloads again, and they are regular. -/
def Parts (k : Nat) (f : α → Nat) (arms : List (Arm α)) : Prop :=
  ∀ arm ∈ arms, (∀ payload, arm.project (arm.inject payload) = some payload)
    ∧ Regular k arm.codec fun payload => f (arm.inject payload)

namespace Parts

variable {arms : List (Arm α)} {tag : Int32}

theorem nil : Parts k f [] := fun _ h => nomatch h

/-- One more arm, read and written by its own tag. -/
theorem cons {arm : Arm α} (hproject : ∀ payload, arm.project (arm.inject payload) = some payload)
    (hpart : Regular k arm.codec fun payload => f (arm.inject payload)) (rest : Parts k f arms) :
    Parts k f (arm :: arms) :=
  List.forall_mem_cons.2 ⟨⟨hproject, hpart⟩, rest⟩

/-- An arm with a payload. -/
theorem of {d : Codec β} {inject : β → α} {project : α → Option β}
    (hproject : project ∘ inject = some) (hpart : Regular k d fun payload => f (inject payload))
    (rest : Parts k f arms) : Parts k f (.of tag d inject project :: arms) :=
  cons (congrFun hproject) hpart rest

/-- An arm without payload. -/
theorem bare {name : String} {value : α} {holds : α → Bool} (hholds : holds value = true)
    (hnesting : f value = 0) (rest : Parts k f arms) :
    Parts k f ((Schema.Arm.bare tag name value holds).wire :: arms) := by
  have hpart : Regular k .unit fun _ => f value := Regular.unit.congr fun _ => hnesting
  exact cons (fun _ => if_pos hholds) hpart rest

/-- An arm that no value belongs to any more. -/
theorem retired {what : String} (rest : Parts k f arms) :
    Parts k f ((Schema.Arm.retired tag what).wire :: arms) :=
  cons nofun (.refused trivial) rest

end Parts

section Union

variable {arms : List (Arm α)} {arm : Arm α} {a : α} {kind : String}
  {check : α → Except WireError Unit}

/-- If a list gives one value in all, then what else is asked of its elements is answered by the
one that gives the value. -/
theorem findSome?_of_filterMap {ι : Type 1} {γ : Type*} {g : ι → Option α} {h : ι → Option γ}
    {l : List ι} {x : ι} (hone : l.filterMap g = [a]) (hx : x ∈ l) (hg : (g x).isSome = true)
    (hsame : ∀ y, (h y).isSome = (g y).isSome) : l.findSome? h = h x := by
  induction l with
  | nil => cases hx
  | cons y rest ih =>
      cases hy : g y with
      | none =>
          have hne : x ≠ y := by
            rintro rfl
            rw [hy] at hg
            cases hg
          have hnone : h y = none := Option.not_isSome_iff_eq_none.1 (by simp [hsame, hy])
          rw [List.filterMap_cons_none hy] at hone
          rw [List.findSome?_cons, hnone]
          exact ih hone ((List.mem_cons.1 hx).resolve_left hne)
      -- Here is the one that holds something, so nothing behind it does.
      | some b =>
          rw [List.filterMap_cons_some hy] at hone
          have hnone := List.filterMap_eq_nil_iff.1 (List.cons.inj hone).2
          have hrest : x ∉ rest := fun hmem => by
            rw [hnone x hmem] at hg
            cases hg
          obtain rfl := (List.mem_cons.1 hx).resolve_right hrest
          obtain ⟨c, hc⟩ := Option.isSome_iff_exists.1 ((hsame x).trans hg)
          rw [List.findSome?_cons, hc]

/-- Arms that find their payloads again, and among which no value has two, hold exactly their
values. -/
theorem lawful_of_held
    (finds : ∀ arm ∈ arms, ∀ payload, arm.project (arm.inject payload) = some payload)
    (held : ∀ a, backs arms a = [a] ∨ backs arms a = []) (harm : arm ∈ arms) :
    arm.Lawful (numberOf arms) := by
  have hproject := finds arm harm
  refine ⟨hproject, fun {a payload} h => ?_, fun payload => ?_⟩
  · have hmem : arm.inject payload ∈ backs arms a :=
      List.mem_filterMap.2 ⟨arm, harm, by rw [Arm.back, h]; rfl⟩
    rcases held a with hone | hnone
    · rw [hone] at hmem
      exact List.mem_singleton.1 hmem
    · rw [hnone] at hmem
      cases hmem
  -- The arm holds its own value, and no other can.
  · have hback : arm.back (arm.inject payload) = some (arm.inject payload) := by
      rw [Arm.back, hproject]
      rfl
    have hsome : backs arms (arm.inject payload) ≠ [] := fun hnone => by
      have := List.filterMap_eq_nil_iff.1 hnone arm harm
      rw [hback] at this
      cases this
    have hisSome : (arm.back (arm.inject payload)).isSome = true := by
      rw [hback]
      rfl
    have hsame (other : Arm α) :
        (Option.guard (fun o => (o.back (arm.inject payload)).isSome) other).isSome
          = (other.back (arm.inject payload)).isSome := by
      simp
    unfold numberOf
    rw [List.find?_eq_findSome?_guard,
      findSome?_of_filterMap ((held _).resolve_right hsome) harm hisSome hsame]
    simp [Option.guard, hisSome]

/-- **A union is regular if its arms are**, with distinct numbers, and if each value belongs to one
arm, or to none and breaks a rule. -/
theorem Regular.guarded_union_of_parts
    (held : ∀ a, backs arms a = [a] ∨ backs arms a = [] ∧ check a ≠ .ok ())
    (distinct : decide (arms.map Arm.tag).Nodup = true) (judges : ∀ a, Judges (check a))
    (parts : Parts k f arms) : Regular k ((Codec.union kind arms).guarded check) f := by
  have lawful : ∀ arm ∈ arms, arm.Lawful (numberOf arms) := fun arm harm =>
    lawful_of_held (fun arm harm => (parts arm harm).1) (fun a => (held a).imp id And.left) harm
  refine .union kind (of_decide_eq_true distinct) lawful (fun a hcheck => ?_) judges
    fun arm harm => (parts arm harm).2
  have hone := (held a).resolve_right fun hnone => hnone.2 hcheck
  have hmem : a ∈ backs arms a := by
    rw [hone]
    exact List.mem_singleton_self a
  obtain ⟨arm, harm, hback⟩ := List.mem_filterMap.1 hmem
  obtain ⟨payload, -, hinject⟩ := Option.map_eq_some_iff.1 hback
  exact ⟨arm, harm, payload, hinject⟩

/-- **A union of distinct tags is regular** when every value is held by one arm and each arm is. -/
theorem Regular.union_of_parts (held : ∀ a, backs arms a = [a])
    (distinct : decide (arms.map Arm.tag).Nodup = true) (parts : Parts k f arms) :
    Regular k (Codec.union kind arms) f := by
  have judges : ∀ a : α, Judges (unchecked a) := fun _ => judges_ok
  exact guarded_union_of_parts (fun a => .inl (held a)) distinct judges parts

/-- A union of flat arms is flat. -/
theorem Flat.union (held : ∀ a, backs arms a = [a])
    (distinct : decide (arms.map Arm.tag).Nodup = true)
    (parts : ∀ k, Parts k (fun _ => 0) arms) : (Codec.union kind arms).Flat :=
  fun k => Regular.union_of_parts held distinct (parts k)

/-- A union of one arm, whose values are its payloads. -/
theorem Regular.single {tag : Int32} (h : Regular k c f) :
    Regular k (Codec.union kind [.of tag c id some]) f :=
  .union_of_parts (fun _ => rfl) rfl (.of rfl h .nil)

/-- A union with one arm is its payload behind a tag. -/
theorem Flat.single {tag : Int32} (h : c.Flat) : (Codec.union kind [.of tag c id some]).Flat :=
  fun k => .single (h k)

end Union

/-! ### Values behind a version -/

/-- An extension slot as a union of an empty arm and one with a value. -/
def slotArms (version : Int32) (c : Codec α) : List (Arm (Option α)) :=
  [.of 0 unit (fun _ => none) fun o => if o.isNone then some () else none,
    .of version c some id]

/-- An extension slot is the union of its absence and its one version. -/
theorem extension_eq_union (version : Int32) (kind : String) (c : Codec α) :
    c.extension version kind = union kind (slotArms version c) := by
  unfold extension union
  congr 1
  · funext o
    cases o with
    | none => exact (Attempt.andThen_ok _).symm
    | some a => rfl
  · refine congrArg (Get.i32 >>= ·) (funext fun word => ?_)
    by_cases hzero : word = 0
    · subst hzero
      rfl
    · by_cases hversion : word = version
      · subst hversion
        simp [slotArms, Arm.of, Arm.get, hzero, Ne.symm hzero]
      · simp [slotArms, Arm.of, hzero, hversion, Ne.symm hzero, Ne.symm hversion]

namespace Regular

/-- A slot is regular when its version is not that of absence. -/
theorem extension {version : Int32} (kind : String) (hversion : version ≠ 0) (h : Regular k c f) :
    Regular k (c.extension version kind) fun o => o.elim 0 f := by
  have hparts : Parts k (fun o => o.elim 0 f) (slotArms version c) := .of rfl .unit (.of rfl h .nil)
  rw [extension_eq_union]
  refine union_of_parts (fun o => ?_) (decide_eq_true ?_) hparts
  · cases o <;> rfl
  · simp [slotArms, Arm.of, Ne.symm hversion]

end Regular

/-! ### Codecs without recursive values -/

namespace Flat

theorem both (hc : c.Flat) (hd : d.Flat) : (c.both d).Flat := fun k =>
  (Regular.both (hc k) (hd k)).congr fun _ => rfl

theorem convert {ofWire : α → Except WireError β} {toWire : β → α}
    (hview : View ofWire toWire unchecked) (hc : c.Flat) : (c.convert ofWire toWire).Flat :=
  fun k => .convert hview (hc k)

theorem imap {ofWire : α → β} {toWire : β → α} (hto : toWire ∘ ofWire = id)
    (hof : ofWire ∘ toWire = id) (hc : c.Flat) : (c.imap ofWire toWire).Flat :=
  fun k => .imap hto hof (hc k)

theorem guarded {check : α → Except WireError Unit}
    (hcheck : ∀ a, Judges (check a)) (hc : c.Flat) :
    (c.guarded check).Flat := fun k => .guarded hcheck (hc k)

theorem optional (hc : c.Flat) : c.optional.Flat := fun k =>
  (Regular.optional (hc k)).congr fun o => by cases o <;> rfl

/-- A slot is flat when what fills it is. -/
theorem extension {version : Int32} {kind : String} (hversion : version ≠ 0) (hc : c.Flat) :
    (c.extension version kind).Flat := fun k =>
  (Regular.extension kind hversion (hc k)).congr fun o => by cases o <;> rfl

/-- Items that nest nothing nest nothing together. -/
theorem deepest_zero (as : List α) : deepest (fun _ => 0) as = 0 := by
  induction as with
  | nil => rfl
  | cons _ _ ih => exact Nat.max_eq_zero_iff.2 ⟨rfl, ih⟩

/-- A list of flat items is flat, given that each takes at least a byte to read. -/
theorem array {max : UInt32} {kind field : String} (hungry : c.get.Hungry) (hc : c.Flat) :
    (c.array max kind field).Flat := fun k =>
  (Regular.array max kind field hungry (hc k)).congr fun as => (deepest_zero as).symm

end Flat

namespace Regular

/-- Behind a value without recursive ones, the nesting is that of the second value. -/
theorem behind (hc : c.Flat) (hd : Regular k d g) : Regular k (c.both d) fun x => g x.2 :=
  (Regular.both (hc k) hd).congr fun _ => (Nat.zero_max _).symm

/-- In front of a value without recursive ones, the nesting is that of the first value. -/
theorem before (hd : d.Flat) (hc : Regular k c f) : Regular k (c.both d) fun x => f x.1 :=
  (Regular.both hc (hd k)).congr fun _ => (Nat.max_zero _).symm

end Regular

theorem flat_unit : Flat unit := fun _ => .unit
theorem flat_u32 : Flat u32 := fun _ => .u32
theorem flat_i32 : Flat i32 := fun _ => .i32
theorem flat_u64 : Flat u64 := fun _ => .u64
theorem flat_i64 : Flat i64 := fun _ => .i64
theorem flat_bool : Flat bool := fun _ => .bool

theorem flat_fixed (n : Nat) : Flat (fixed n) := fun _ => .fixed n

theorem flat_bytes (max : UInt32) (kind field : String) : Flat (bytes max kind field) :=
  fun _ => .bytes max kind field

theorem flat_text (max : UInt32) (kind field : String) : Flat (text max kind field) :=
  fun _ => .text max kind field

end Codec

/-- The slot that is kept free for later versions. -/
theorem Schema.flat_reserved : Schema.reserved.wire.Flat := .single Codec.flat_unit

namespace Enumeration

open Codec (View Flat unchecked)

variable {α : Type} {e : Enumeration α}

/-- The value of a number, or the fault that the number stands for none. -/
def ofNumber (e : Enumeration α) (n : Int32) : Except WireError α :=
  match e.ofNumber? n with
  | some a => .ok a
  | none => .error (.unknownVariant e.kind n)

/-- An enumeration is its number, converted and refused where it names no case. -/
theorem wire_eq_convert (e : Enumeration α) : e.wire = Codec.i32.convert e.ofNumber e.number := by
  refine congrArg (Codec.mk _) (congrArg (Get.i32 >>= ·) (funext fun n => ?_))
  unfold ofNumber
  cases e.ofNumber? n <;> rfl

/-- An enumeration is regular if every value is found by its number. -/
theorem flat (h : ∀ a, e.ofNumber? (e.number a) = some a) : e.wire.Flat := by
  have hview : View e.ofNumber e.number unchecked :=
    { toWire_of_ofWire := fun {n a} hn => by
        unfold ofNumber at hn
        split at hn
        · rename_i b hb
          cases hn
          simpa using List.find?_some hb
        · cases hn
      ofWire_toWire := fun {a} _ => by
        unfold ofNumber
        rw [h a]
      judges := fun _ => judges_ok
      isRefusal := fun {n e'} he => by
        unfold ofNumber at he
        split at he
        · cases he
        · cases he
          trivial }
  rw [wire_eq_convert]
  exact .convert hview Codec.flat_i32

end Enumeration

end LedgerWire
