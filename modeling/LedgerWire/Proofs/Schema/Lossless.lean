/-
# Schemas whose projections lose nothing

A schema is lossless if every value that touches the wire is read from its own JSON projection
again. A type's own proof repeats its schema, with the rule of a combinator in the combinator's
place.

* `Schema.Lossless` — what touches the wire is restored.
* `Lossless.optional`, `Lossless.array`, … — one rule a combinator.
* `Fields.Lossless` — the fields of a record, which have distinct names; `Lossless.record`.
* `LosslessArms` — the arms of a union, which have distinct names; `Lossless.union`.
* `Lossless.recursive` — recursive values: a tree of JSON has at least as many levels as its value.
-/

import LedgerWire.Proofs.Json.Restores
import LedgerWire.Proofs.Wire.Reached
import LedgerWire.Proofs.Wire.Strict

namespace LedgerWire

open Json

namespace Schema

variable {α β : Type} {s : Schema α} {t : Schema β}

/-- Every value that touches the wire is read from its projection. -/
def Lossless (s : Schema α) : Prop := ∀ a, s.wire.Reached a → s.json.Restores a

/-! ### Single values -/

/-- A type whose form restores every value loses nothing. -/
theorem lossless_of_restores (h : ∀ a, s.json.Restores a) : s.Lossless := fun a _ => h a

theorem lossless_u32 : Lossless u32 := lossless_of_restores Form.restores_u32

theorem lossless_i32 : Lossless i32 := lossless_of_restores Form.restores_i32

theorem lossless_u64 : Lossless u64 := lossless_of_restores Form.restores_u64

theorem lossless_i64 : Lossless i64 := lossless_of_restores Form.restores_i64

theorem lossless_bool : Lossless bool := lossless_of_restores Form.restores_bool

theorem lossless_unit : Lossless unit := lossless_of_restores fun _ => Form.restores_unit

theorem lossless_text (max : UInt32) (kind field : String) : Lossless (text max kind field) :=
  lossless_of_restores Form.restores_string

theorem lossless_bytes (max : UInt32) (kind field : String) : Lossless (bytes max kind field) :=
  lossless_of_restores Form.restores_hex

theorem lossless_fixed (n : Nat) : Lossless (fixed n) := lossless_of_restores Form.restores_hexFixed

/-- A type with a text form of its own, which is read wherever it is written. -/
theorem lossless_shownAs {ε : Type} {shown : α → String} {parse : String → Except ε α}
    {message : ε → String} {wire : Codec α}
    (h : ∀ a, wire.Reached a → parse (shown a) = .ok a) :
    (shownAs shown parse message wire).Lossless :=
  fun a ha => Form.restores_text (h a ha)

/-! ### Composite values -/

namespace Lossless

/-- A check drops values and changes none. -/
theorem guarded {validate : α → Except WireError Unit} (h : s.Lossless) :
    (s.guarded validate).Lossless :=
  fun a ha => h a ha.guarded

/-- An optional value is kept, given that no value has the form of its absence. -/
theorem optional (hnull : ∀ a, s.json.write a ≠ .null) (h : s.Lossless) : s.optional.Lossless :=
  fun _ ho => .option hnull fun a ha => h a (ho.optional a ha)

theorem extension {version : Int32} {kind : String} (hnull : ∀ a, s.json.write a ≠ .null)
    (h : s.Lossless) : (s.extension version kind).Lossless :=
  fun _ ho => .option hnull fun a ha => h a (ho.extension a ha)

/-- A list is kept item by item. -/
theorem array {max : UInt32} {kind field : String} (h : s.Lossless) :
    (s.array max kind field).Lossless :=
  fun _ has => .list fun a ha => h a (has.array a ha)

/-- A pair is kept side by side. -/
theorem two (hs : s.Lossless) (ht : t.Lossless) : (s.two t).Lossless :=
  fun x hx => .two (hs x.1 hx.both.1) (ht x.2 hx.both.2)

theorem behind {kind : String} {tag : Int32} (h : s.Lossless) : (behind kind tag s).Lossless :=
  fun a ha => h a ha.single

end Lossless

theorem lossless_reserved : Lossless reserved := lossless_unit.behind

/-! ### Records -/

namespace Fields

variable {fields : Fields α} {names : List String} {name : String}

/-- Fields of these names: if they are distinct, values that touch the wire are restored. -/
def Lossless (names : List String) (fields : Fields α) : Prop :=
  names.Nodup → ∀ a, fields.wire.Reached a → fields.members.Restores names a

namespace Lossless

/-- A field, as the last one. -/
theorem last (h : s.Lossless) : Lossless [name] (field name s) := fun _ a ha => .member (h a ha)

/-- A field that may be left out, as the last one. -/
theorem lastOmitted (hnull : ∀ a, s.json.write a ≠ .null) (h : s.Lossless) :
    Lossless [name] (omittedField name s) :=
  fun _ _ ho => .omitted hnull fun a ha => h a (ho.optional a ha)

/-- A field before others. -/
theorem cons (h : s.Lossless) {others : Fields β} (rest : Lossless names others) :
    Lossless (name :: names) (field name s >> others) := by
  intro distinct x hx
  obtain ⟨ha, hb⟩ := hx.both
  have hfirst : (field name s).members.Restores [name] x.1 := .member (h x.1 ha)
  exact hfirst.both (rest (List.nodup_cons.1 distinct).2 x.2 hb) distinct

end Lossless

end Fields

section Record

variable {fields : Fields α} {names : List String}

/-- **A record is lossless if its fields are**, and have distinct names. -/
theorem Lossless.record {ofTuple : α → β} {toTuple : β → α} (hto : toTuple ∘ ofTuple = id)
    (hof : ofTuple ∘ toTuple = id) (distinct : names.Nodup) (h : fields.Lossless names) :
    (fields.record ofTuple toTuple).Lossless :=
  fun b hb => Members.Restores.object (congrFun hof b) (h distinct _ (hb.imap hto))

/-- The fields of an arm are kept under their names when the names are distinct. -/
theorem Lossless.inArm (distinct : names.Nodup) (h : fields.Lossless names) :
    fields.inArm.Lossless :=
  fun a ha => Members.Restores.inArm (h distinct a ha)

end Record

/-! ### Unions -/

/-- Arms that find their payloads again, and whose payloads are lossless. The names are those of
the arms that have any. -/
inductive LosslessArms : List String → List (Arm α) → Prop where
  | nil : LosslessArms [] []
  | live {arm : Arm α} {names : List String} {arms : List (Arm α)}
      (finds : ∀ payload, arm.project (arm.inject payload) = some payload)
      (lossless : arm.schema.Lossless)
      (bare : arm.isBare = true → ∀ payload, arm.schema.json.write payload = .null)
      (rest : LosslessArms names arms) : LosslessArms (arm.name :: names) (arm :: arms)
  | retired {tag : Int32} {what : String} {names : List String} {arms : List (Arm α)}
      (rest : LosslessArms names arms) : LosslessArms names (.retired tag what :: arms)

/-- What the arm makes of a payload. -/
def Arm.shown (arm : Arm α) (payload : arm.Payload) : Json :=
  if arm.isBare then .str arm.name else .obj [(arm.name, arm.schema.json.write payload)]

/-- A value is shown by the arm that it belongs to, if it belongs to no other. -/
theorem write_unionJson {arms : List (Arm α)} {arm : Arm α} {a : α} {payload : arm.Payload}
    (held : Codec.backs (arms.map Arm.wire) a = [a]) (harm : arm ∈ arms)
    (hproject : arm.project a = some payload) : (unionJson arms).write a = arm.shown payload := by
  have hone : arms.filterMap (fun other => other.wire.back a) = [a] := by
    rw [← held, Codec.backs, List.filterMap_map]
    rfl
  have hisSome : (arm.wire.back a).isSome = true := by
    simp [Codec.Arm.back, Arm.wire, hproject]
  show (arms.findSome? (·.write? a)).getD .null = _
  rw [Codec.findSome?_of_filterMap hone harm hisSome
    fun other => by simp [Arm.write?, Codec.Arm.back, Arm.wire], Arm.write?, hproject]
  rfl

namespace LosslessArms

variable {arms : List (Arm α)} {arm : Arm α} {names : List String} {tag : Int32} {name : String}

/-- An arm with a payload. -/
theorem of {inject : β → α} {project : α → Option β} (hproject : project ∘ inject = some)
    (hs : t.Lossless) (rest : LosslessArms names arms) :
    LosslessArms (name :: names) (.of tag name t inject project :: arms) :=
  @live α (.of tag name t inject project) names arms (congrFun hproject) hs
    (fun hbare => (nomatch hbare)) rest

/-- An arm without payload. -/
theorem bare {value : α} {holds : α → Bool} (hholds : holds value = true)
    (rest : LosslessArms names arms) :
    LosslessArms (name :: names) (.bare tag name value holds :: arms) :=
  @live α (.bare tag name value holds) names arms (fun _ => if_pos hholds) lossless_unit
    (fun _ _ => rfl) rest

/-- What is known of an arm that has a payload. -/
theorem of_mem (h : LosslessArms names arms) (harm : arm ∈ arms) (payload : arm.Payload) :
    arm.name ∈ names ∧ arm.project (arm.inject payload) = some payload ∧ arm.schema.Lossless
      ∧ (arm.isBare = true → arm.schema.json.write payload = .null) := by
  induction h with
  | nil => cases harm
  | live finds lossless bare _ ih =>
      rcases List.mem_cons.1 harm with rfl | hrest
      · exact ⟨List.mem_cons_self, finds payload, lossless, fun hbare => bare hbare payload⟩
      · obtain ⟨hname, hrest⟩ := ih hrest
        exact ⟨List.mem_cons_of_mem _ hname, hrest⟩
  | retired _ ih =>
      rcases List.mem_cons.1 harm with rfl | hrest
      · exact payload.elim
      · exact ih hrest

/-- Where names are distinct, and none is empty, an arm is the first of its name. -/
theorem find?_name (h : LosslessArms names arms) (distinct : ("" :: names).Nodup)
    (harm : arm ∈ arms) (payload : arm.Payload) {wanted : Arm α → Bool}
    (hwanted : wanted arm = true) (hname : ∀ other, wanted other = true → other.name = arm.name) :
    arms.find? wanted = some arm := by
  induction h with
  | nil => cases harm
  | @live head names arms _ _ _ hrest ih =>
      obtain ⟨hempty, hnames⟩ := List.nodup_cons.1 distinct
      obtain ⟨hhead, hnames⟩ := List.nodup_cons.1 hnames
      rcases List.mem_cons.1 harm with rfl | hmem
      · exact List.find?_cons_of_pos hwanted
      -- The first arm has another name, since names are distinct.
      · have hother : ¬wanted head = true := by
          intro hfound
          rw [hname head hfound] at hhead
          exact hhead (hrest.of_mem hmem payload).1
        rw [List.find?_cons_of_neg hother]
        have hempty : "" ∉ names := fun hmem => hempty (List.mem_cons_of_mem _ hmem)
        exact ih (List.nodup_cons.2 ⟨hempty, hnames⟩) hmem
  | @retired tag what names arms hrest ih =>
      rcases List.mem_cons.1 harm with rfl | hmem
      · exact payload.elim
      -- A retired arm goes by no name, and the empty one is nobody else's.
      · have hother : ¬wanted (Arm.retired tag what) = true := by
          intro hfound
          have hmissing : "" = arm.name := hname _ hfound
          have hlive : arm.name ∈ names := (hrest.of_mem hmem payload).1
          rw [← hmissing] at hlive
          exact (List.nodup_cons.1 distinct).1 hlive
        rw [List.find?_cons_of_neg hother]
        exact ih distinct hmem

/-- The payload of an arm is restored with the arm. -/
theorem restores (h : LosslessArms names arms) (distinct : ("" :: names).Nodup) (harm : arm ∈ arms)
    {payload : arm.Payload} (held : Codec.backs (arms.map Arm.wire) (arm.inject payload)
      = [arm.inject payload]) (hpayload : arm.schema.json.Restores payload) :
    (unionJson arms).Restores (arm.inject payload) := by
  obtain ⟨-, hproject, -, hbare⟩ := h.of_mem harm payload
  intro source j hj
  rw [write_unionJson held harm hproject, Arm.shown] at hj
  -- A bare arm is shown as its name, any other as an object with one member.
  by_cases hisBare : arm.isBare = true
  · rw [if_pos hisBare] at hj
    obtain ⟨⟩ := hj
    have hfound : arms.find? (fun other => other.isBare && other.name == arm.name) = some arm :=
      h.find?_name distinct harm payload (by simp [hisBare]) fun other hother => by
        exact eq_of_beq (Bool.and_eq_true_iff.1 hother).2
    have hread : arm.schema.json.read source .null = .ok payload := by
      have hsame := hpayload source _ (.same _)
      rwa [hbare hisBare] at hsame
    simp only [unionJson, hfound]
    exact congrArg (Except.map arm.inject) hread
  · rw [if_neg hisBare] at hj
    obtain ⟨members, rfl, hmembers⟩ := hj.of_obj
    obtain ⟨j, rfl, hsame⟩ := hmembers.of_singleton
    have hfound : arms.find? (fun other => other.name == arm.name) = some arm :=
      h.find?_name distinct harm payload (beq_self_eq_true _) fun other => eq_of_beq
    simp only [unionJson, hfound]
    exact congrArg (Except.map arm.inject) (hpayload source j hsame)

end LosslessArms

/-- **A union is lossless if its arms are**, and if each value belongs to one of them. -/
theorem Lossless.union {kind : String} {arms : List (Arm α)} {names : List String}
    (held : ∀ a, Codec.backs (arms.map Arm.wire) a = [a]) (distinct : ("" :: names).Nodup)
    (parts : LosslessArms names arms) : (Schema.union kind arms).Lossless := by
  intro a ha
  obtain ⟨wireArm, hmem, payload, rfl, hpayload⟩ := Codec.Reached.union held ha
  obtain ⟨arm, harm, rfl⟩ := List.mem_map.1 hmem
  have hlossless := (parts.of_mem harm payload).2.2.1
  exact parts.restores distinct harm (held _) (hlossless payload hpayload)

/-! ### Recursion -/

section Recursive

variable {own : α → Nat} {layout : Schema α → Schema α}

/-- The layout shows parts with less nesting than the whole, and shows as many levels as the value
has. -/
structure Shows (own : α → Nat) (layout : Schema α → Schema α) : Prop where
  write_congr : ∀ {self self' : Schema α} {a},
    (∀ b, own b < own a → self.json.write b = self'.json.write b) →
      (layout self).json.write a = (layout self').json.write a
  own_le : ∀ {self : Schema α} {a},
    (∀ b, own b < own a → own b ≤ (self.json.write b).depth + 1) →
      own a ≤ ((layout self).json.write a).depth + 1

/-- Two forms that agree on what is there agree on the optional value. -/
theorem write_option_congr {f g : Form α} {o : Option α} (h : ∀ a ∈ o, f.write a = g.write a) :
    f.option.write o = g.option.write o := by
  cases o with
  | none => rfl
  | some a => exact h a rfl

/-- Two forms that agree on the items agree on the list. -/
theorem write_list_congr {f g : Form α} {as : List α} (h : ∀ a ∈ as, f.write a = g.write a) :
    f.list.write as = g.list.write as :=
  congrArg Json.arr (List.map_congr_left h)

/-- An arm shows a value alike if it shows its payload alike. -/
theorem write?_congr {tag : Int32} {name : String} {t t' : Schema β} {inject : β → α}
    {project : α → Option β} {a : α}
    (h : ∀ payload, project a = some payload → t.json.write payload = t'.json.write payload) :
    (Arm.of tag name t inject project).write? a = (Arm.of tag name t' inject project).write? a := by
  show (project a).map _ = (project a).map _
  cases hproject : project a with
  | none => rfl
  | some payload => exact congrArg (fun j => some (Json.obj [(name, j)])) (h payload hproject)

/-- Unions with arms, one by one, that show a value alike. -/
theorem write_union_congr {kind : String} {arms arms' : List (Arm α)} {a : α}
    (h : List.Forall₂ (fun arm arm' => arm.write? a = arm'.write? a) arms arms') :
    (union kind arms).json.write a = (union kind arms').json.write a := by
  have hfound : arms.findSome? (·.write? a) = arms'.findSome? (·.write? a) := by
    induction h with
    | nil => rfl
    | cons harm _ ih => rw [List.findSome?_cons, List.findSome?_cons, harm, ih]
  exact congrArg (·.getD .null) hfound

/-- Several values have no more levels than the documents that show them. -/
theorem deepest_le_depthItems {f : Form α} {as : List α}
    (h : ∀ a ∈ as, own a ≤ (f.write a).depth + 1) :
    Codec.deepest own as ≤ depthItems (as.map f.write) + 1 := by
  induction as with
  | nil => exact Nat.zero_le _
  | cons a rest ih =>
      rw [List.forall_mem_cons] at h
      have hfirst := h.1
      have hrest := ih h.2
      rw [List.map_cons, Codec.deepest, depthItems]
      omega

/-- Levels that a value does not have make no difference to how it is shown. -/
theorem levels_write (h : Shows own layout) {m n : Nat} {a : α} (hpos : ∀ a, 0 < own a)
    (hm : own a ≤ m) (hn : own a ≤ n) :
    (levels layout m).json.write a = (levels layout n).json.write a := by
  have hown := hpos a
  induction m generalizing n a with
  | zero => omega
  | succ m ih =>
      cases n with
      | zero => omega
      | succ n =>
          refine h.write_congr fun b hb => ?_
          exact ih (by omega) (by omega) (hpos b)

/-- A value's own nesting shows in the depth of what is written for it. -/
theorem own_le_depth_levels (h : Shows own layout) {n : Nat} {a : α} (hn : own a ≤ n) :
    own a ≤ ((levels layout n).json.write a).depth + 1 := by
  induction n generalizing a with
  | zero => omega
  | succ n ih => exact h.own_le fun b hb => ih (by omega)

/-- Every level of a recursive layout is lossless, by induction on the levels. -/
theorem lossless_levels
    (hlayout : ∀ self : Schema α, self.Lossless → (layout self).Lossless) (n : Nat) :
    (levels layout n).Lossless := by
  induction n with
  | zero =>
      rintro a (⟨w, w', heq⟩ | ⟨r, r', heq⟩)
      · cases heq
      · cases heq
  | succ n ih => exact fun a ha => hlayout _ ih a (Codec.Reached.nested ha)

/-- **A recursive schema is lossless if one level is**, over whatever is lossless. A document is
read with as many levels as it has, and the value that it shows has no more; so with these levels
the value is written and shown the same way. -/
theorem Lossless.recursive (hlocal : Local own layout) (hshows : Shows own layout)
    (hlayout : ∀ self : Schema α, self.Lossless → (layout self).Lossless)
    (hstrict : (Schema.recursive own layout).wire.Strict) :
    (Schema.recursive own layout).Lossless := by
  intro a ha source j hj
  have hput : ((levels layout (own a)).wire.put a).Gives () := by
    rcases ha with hput | hget
    · exact hput
    · obtain ⟨p, hp⟩ := hstrict a hget
      exact hp.gives
  have hdepth : own a ≤ j.depth + 1 := by
    rw [← hj.depth_eq]
    exact own_le_depth_levels hshows (Nat.le_refl (own a))
  rw [levels_put hlocal (Nat.le_refl (own a)) hdepth] at hput
  have hwrite : (Schema.recursive own layout).json.write a
      = (levels layout (j.depth + 1)).json.write a :=
    levels_write hshows hlocal.own_pos (Nat.le_refl (own a)) hdepth
  rw [hwrite] at hj
  exact lossless_levels hlayout (j.depth + 1) a (.inl hput) source j hj

end Recursive

end Schema

/-! ### Enumerations -/

namespace Enumeration

variable {α : Type} {e : Enumeration α}

/-- A case of an enumeration is restored when its name leads back to it. -/
theorem restores {a : α} (h : e.ofName? (e.name a) = some a) : e.json.Restores a := by
  rintro source j ⟨⟩
  simp only [json, h]

/-- An enumeration is lossless if each value is found by its name. -/
theorem lossless (h : ∀ a, e.ofName? (e.name a) = some a) : e.schema.Lossless :=
  Schema.lossless_of_restores fun a => restores (h a)

end Enumeration

end LedgerWire
