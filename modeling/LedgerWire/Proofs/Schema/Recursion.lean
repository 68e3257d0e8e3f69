/-
# Recursive schemas

A recursive type is read with as many levels as the reader has room for, and written with as many
as the value has. Both are bookkeeping: a recursive schema is one level of its layout over itself,
read one level further in. That holds because a layout uses the schema below it only at the
reader's own room, and only for parts with less nesting than the whole.

* `Get.Agree` — two steps that do the same at one room.
* `Schema.Local` — what a layout may do with the schema below it.
* `Schema.recursive_wire` — a recursive schema is one level over itself.
* `Schema.regular_recursive` — it is regular to any depth, if each level is.
-/

import LedgerWire.Proofs.Schema.Rules

namespace LedgerWire

/-! ### Steps that do the same -/

namespace Get

variable {α β : Type} {room : Nat} {g g' : Get α}

/-- With so much room the steps do the same, and where they succeed they keep that room. -/
def Agree (room : Nat) (g g' : Get α) : Prop :=
  ∀ r : Reader, r.room = room → g r = g' r
    ∧ ∀ a r', g r = (.ok a, r') → r'.depth = r.depth ∧ r'.limit = r.limit

/-- A step that frames what it reads keeps the room, so it agrees with itself. -/
theorem Framed.agree (hg : g.Framed room) : Agree room g g := by
  intro r hroom
  refine ⟨rfl, fun a r' h => ?_⟩
  obtain ⟨bytes, rest, -, rfl, -⟩ := hg.split hroom h
  exact ⟨rfl, rfl⟩

/-- **Agreement is sequential**: the second parts need only agree on what the first gives. -/
theorem Agree.bind {f f' : α → Get β} (hg : Agree room g g') (hf : ∀ a, Agree room (f a) (f' a)) :
    Agree room (g >>= f) (g' >>= f') := by
  intro r hroom
  obtain ⟨heq, hkeeps⟩ := hg r hroom
  constructor
  · rw [Attempt.bind_apply, Attempt.bind_apply, ← heq]
    split
    · rename_i a t ht
      obtain ⟨hdepth, hlimit⟩ := hkeeps a t ht
      exact (hf a t (by simp only [Reader.room, hdepth, hlimit]; exact hroom)).1
    · rfl
  · intro b r' h
    obtain ⟨a, t, ht, h⟩ := Attempt.bind_ok_iff.1 h
    obtain ⟨hdepth, hlimit⟩ := hkeeps a t ht
    obtain ⟨hdepth', hlimit'⟩ :=
      (hf a t (by simp only [Reader.room, hdepth, hlimit]; exact hroom)).2 b r' h
    exact ⟨hdepth'.trans hdepth, hlimit'.trans hlimit⟩

theorem agree_pure (a : α) : Agree room (pure a : Get α) (pure a) := (framed_pure a).agree

theorem agree_fail (e : WireError) : Agree room (Attempt.fail e : Get α) (Attempt.fail e) :=
  (framed_fail e).agree

theorem Agree.map (f : α → β) (hg : Agree room g g') :
    Agree room (do return f (← g) : Get β) (do return f (← g')) :=
  hg.bind fun a => agree_pure (f a)

/-- An optional part agrees when the part does. -/
theorem Agree.optional (hg : Agree room g g') : Agree room g.optional g'.optional := by
  refine Agree.bind Codec.aligned_bool.toFramed.agree fun b => ?_
  cases b with
  | true => exact hg.map some
  | false => exact agree_pure none

/-- A repetition agrees when its step does, by induction on the count. -/
theorem Agree.times (hg : Agree room g g') : ∀ n, Agree room (g.times n) (g'.times n)
  | 0 => agree_pure []
  | n + 1 => hg.bind fun a => (hg.times n).map (a :: ·)

theorem agree_need (n : Nat) : Agree room (need n) (need n) := by
  intro r _
  refine ⟨rfl, fun u r' h => ?_⟩
  unfold need at h
  split at h
  · cases h
    exact ⟨rfl, rfl⟩
  · cases h

/-- A list agrees when its items do: its count is read the same way. -/
theorem Agree.array (hg : Agree room g g') (max : UInt32) (kind : String) :
    Agree room (g.array max kind) (g'.array max kind) := by
  refine Agree.bind aligned_u32.toFramed.agree fun count => ?_
  have hrest : Agree room (do need (4 * count.toNat); g.times count.toNat)
      (do need (4 * count.toNat); g'.times count.toNat) :=
    (agree_need _).bind fun _ => hg.times _
  split
  · exact (agree_fail _).bind fun _ => hrest
  · exact hrest

end Get

namespace Codec

open Get (Agree)

variable {α β : Type} {room : Nat}

/-- Two parts in a row agree when each does. -/
theorem agree_both {c c' : Codec α} {d d' : Codec β} (hc : Agree room c.get c'.get)
    (hd : Agree room d.get d'.get) : Agree room (c.both d).get (c'.both d').get :=
  hc.bind fun a => hd.map (a, ·)

/-- A conversion happens after the reading, so it keeps agreement. -/
theorem agree_convert {c c' : Codec α} {ofWire : α → Except WireError β} {toWire : β → α}
    (hc : Agree room c.get c'.get) :
    Agree room (c.convert ofWire toWire).get (c'.convert ofWire toWire).get :=
  hc.bind fun a => (Get.aligned_ofExcept (ofWire a)).toFramed.agree

theorem agree_imap {c c' : Codec α} {ofWire : α → β} {toWire : β → α}
    (hc : Agree room c.get c'.get) :
    Agree room (c.imap ofWire toWire).get (c'.imap ofWire toWire).get :=
  hc.map ofWire

/-- A flat codec never looks at the room, so it agrees with itself. -/
theorem Flat.agree {c : Codec α} (hc : c.Flat) : Agree room c.get c.get :=
  ((hc room).aligned (Nat.le_refl _)).toFramed.agree

end Codec

namespace Put

variable {α : Type} {value value' : α → Put} {items : List α}

/-- Lists are written by what is written of their values. -/
theorem all_congr (h : ∀ a ∈ items, value a = value' a) : all value items = all value' items := by
  induction items with
  | nil => rfl
  | cons a rest ih =>
      rw [List.forall_mem_cons] at h
      rw [all, all, h.1, ih h.2]

/-- A list is written alike by writings that agree on its items. -/
theorem array_congr (max : UInt32) (field : String) (h : ∀ a ∈ items, value a = value' a) :
    array max field value items = array max field value' items := by
  unfold array
  rw [all_congr h]

/-- An optional value is written alike by writings that agree on what is there. -/
theorem optional_congr {o : Option α} (h : ∀ a ∈ o, value a = value' a) :
    optional value o = optional value' o := by
  cases o with
  | none => rfl
  | some a => exact congrArg (bool true >>= fun _ => ·) (h a rfl)

end Put

/-! ### Unions arm by arm -/

namespace Schema

open Get (Agree)

variable {α β : Type} {room : Nat} {a : α} {arms arms' : List (Arm α)}

/-- Arms with the same discriminants, one by one, that read the same. -/
def AgreeArms (room : Nat) (arms arms' : List (Arm α)) : Prop :=
  List.Forall₂ (fun arm arm' => arm.tag = arm'.tag ∧ Agree room arm.wire.get arm'.wire.get)
    arms arms'

namespace AgreeArms

theorem nil : AgreeArms room ([] : List (Arm α)) [] := List.Forall₂.nil

/-- An arm with a payload agrees when the payload does. -/
theorem of {tag : Int32} {name : String} {s s' : Schema β} {inject : β → α}
    {project : α → Option β} (h : Agree room s.wire.get s'.wire.get)
    (rest : AgreeArms room arms arms') :
    AgreeArms room (.of tag name s inject project :: arms)
      (.of tag name s' inject project :: arms') :=
  .cons ⟨rfl, h.map inject⟩ rest

/-- An arm without a payload has nothing to agree on. -/
theorem bare {tag : Int32} {name : String} {value : α} {holds : α → Bool}
    (rest : AgreeArms room arms arms') :
    AgreeArms room (.bare tag name value holds :: arms) (.bare tag name value holds :: arms') :=
  .cons ⟨rfl, Codec.flat_unit.agree.map _⟩ rest

/-- The arm of a tag is the first, or the one among the rest. -/
private theorem find?_wire_cons (arm : Arm α) (arms : List (Arm α)) (tag : Int32) :
    ((arm :: arms).map Arm.wire).find? (·.tag = tag)
      = if arm.tag = tag then some arm.wire else (arms.map Arm.wire).find? (·.tag = tag) := by
  rw [List.map_cons, List.find?_cons]
  show (match decide (arm.tag = tag) with
    | true => _
    | false => _) = _
  by_cases htag : arm.tag = tag
  · rw [decide_eq_true htag, if_pos htag]
  · rw [decide_eq_false htag, if_neg htag]

/-- A discriminant finds arms that read the same, or none on either side. -/
theorem find? (h : AgreeArms room arms arms') (tag : Int32) :
    Option.Rel (fun arm arm' => Agree room arm.get arm'.get)
      ((arms.map Arm.wire).find? (·.tag = tag)) ((arms'.map Arm.wire).find? (·.tag = tag)) := by
  induction h with
  | nil => exact .none
  | @cons arm arm' _ _ harm _ ih =>
      obtain ⟨heq, hget⟩ := harm
      rw [find?_wire_cons, find?_wire_cons, ← heq]
      by_cases htag : arm.tag = tag
      · rw [if_pos htag, if_pos htag]
        exact .some hget
      · rw [if_neg htag, if_neg htag]
        exact ih

end AgreeArms

/-- **A union agrees** when its arms do, since the tag is read alike and picks the same arm. -/
theorem agree_union {kind : String} (h : AgreeArms room arms arms') :
    Agree room (union kind arms).wire.get (union kind arms').wire.get := by
  have hi32 : Get.i32.Aligned room := Get.aligned_u32.map UInt32.toInt32
  refine hi32.toFramed.agree.bind fun tag => ?_
  generalize hfound : (arms.map Arm.wire).find? (·.tag = tag) = found
  generalize hfound' : (arms'.map Arm.wire).find? (·.tag = tag) = found'
  have hrel := h.find? tag
  rw [hfound, hfound'] at hrel
  cases hrel with
  | none => exact Get.agree_fail _
  | some hget => exact hget

/-- Arms, one by one, that write a value alike. -/
def SameArms (a : α) (arms arms' : List (Arm α)) : Prop :=
  List.Forall₂ (fun arm arm' => arm.wire.put? a = arm'.wire.put? a) arms arms'

namespace SameArms

theorem nil : SameArms a ([] : List (Arm α)) [] := List.Forall₂.nil

/-- An arm that does not use the schema below. -/
theorem same {arm : Arm α} (rest : SameArms a arms arms') :
    SameArms a (arm :: arms) (arm :: arms') :=
  .cons rfl rest

/-- An arm whose payload is written alike, if the value belongs to it. -/
theorem of {tag : Int32} {name : String} {s s' : Schema β} {inject : β → α}
    {project : α → Option β}
    (h : ∀ payload, project a = some payload → s.wire.put payload = s'.wire.put payload)
    (rest : SameArms a arms arms') :
    SameArms a (.of tag name s inject project :: arms)
      (.of tag name s' inject project :: arms') := by
  refine .cons ?_ rest
  show (project a).map _ = (project a).map _
  cases hproject : project a with
  | none => rfl
  | some payload => exact congrArg (fun m => some (do Put.i32 tag; m)) (h payload hproject)

end SameArms

/-- A union is written alike when the arms of the value write it alike. -/
theorem put_union_congr {kind : String} (h : SameArms a arms arms') :
    (union kind arms).wire.put a = (union kind arms').wire.put a := by
  have hfound : (arms.map Arm.wire).findSome? (·.put? a)
      = (arms'.map Arm.wire).findSome? (·.put? a) := by
    induction h with
    | nil => rfl
    | cons harm _ ih =>
        rw [List.map_cons, List.map_cons, List.findSome?_cons, List.findSome?_cons, harm, ih]
  exact congrArg (·.getD (Attempt.ok ())) hfound

end Schema

/-! ### Layouts -/

namespace Schema

open Codec (Regular)
open Get (Agree)

variable {α : Type} {own f : α → Nat} {layout : Schema α → Schema α}

/-- The layout uses the schema below it to write parts with less nesting than the whole, and to read
at the reader's own room. -/
structure Local (own : α → Nat) (layout : Schema α → Schema α) : Prop where
  own_pos : ∀ a, 0 < own a
  put_congr : ∀ {self self' : Schema α} {a},
    (∀ b, own b < own a → self.wire.put b = self'.wire.put b) →
      (layout self).wire.put a = (layout self').wire.put a
  get_congr : ∀ {self self' : Schema α} {room}, Agree room self.wire.get self'.wire.get →
    Agree room (layout self).wire.get (layout self').wire.get

/-- Levels that a value does not have make no difference to how it is written. -/
theorem levels_put (h : Local own layout) {m n : Nat} {a : α} (hm : own a ≤ m) (hn : own a ≤ n) :
    (levels layout m).wire.put a = (levels layout n).wire.put a := by
  have hpos := h.own_pos a
  induction m generalizing n a with
  | zero => omega
  | succ m ih =>
      cases n with
      | zero => omega
      | succ n =>
          refine h.put_congr fun b hb => ?_
          exact ih (by omega) (by omega) (h.own_pos b)

/-- The recursive writing satisfies its own equation. -/
theorem recursive_put (h : Local own layout) (a : α) :
    (recursive own layout).wire.put a = (layout (recursive own layout)).wire.put a := by
  obtain ⟨n, hn⟩ := Nat.exists_eq_succ_of_ne_zero (Nat.pos_iff_ne_zero.1 (h.own_pos a))
  show (levels layout (own a)).wire.put a = _
  rw [hn]
  refine h.put_congr fun b hb => ?_
  exact levels_put h (by omega) (Nat.le_refl _)

/-- A level agrees with itself, by induction on the levels. -/
theorem agree_levels (h : Local own layout) (n : Nat) :
    Agree n (levels layout n).wire.get (levels layout n).wire.get := by
  induction n with
  | zero => exact fun r _ => ⟨rfl, fun a r' h => by cases h⟩
  | succ n ih =>
      rintro ⟨input, depth, limit⟩ hroom
      have hdepth : limit - depth = n + 1 := hroom
      refine ⟨rfl, fun a r' h' => ?_⟩
      obtain ⟨t, ht, rfl⟩ := (Get.nested_apply_iff (by omega)).1 h'
      obtain ⟨htdepth, htlimit⟩ :=
        (h.get_congr ih ⟨input, depth + 1, limit⟩ (by simp only [Reader.room]; omega)).2 a t ht
      exact ⟨by simp [htdepth], htlimit⟩

/-- **The recursive reading satisfies its own equation**, one level deeper. -/
theorem recursive_get (h : Local own layout) (r : Reader) :
    (recursive own layout).wire.get r = (layout (recursive own layout)).wire.get.nested r := by
  obtain ⟨input, depth, limit⟩ := r
  cases hroom : limit - depth with
  | zero =>
      rw [Get.nested_refused hroom]
      show (levels layout (limit - depth)).wire.get _ = _
      rw [hroom]
      rfl
  | succ n =>
      -- At the room that the level below is read with, the levels and the whole are the same.
      have hbelow : Agree n (levels layout n).wire.get (recursive own layout).wire.get := by
        intro r hr
        refine ⟨?_, (agree_levels h n r hr).2⟩
        show _ = (levels layout r.room).wire.get r
        rw [hr]
      have heq := (h.get_congr hbelow ⟨input, depth + 1, limit⟩
        (by simp only [Reader.room]; omega)).1
      show (levels layout (limit - depth)).wire.get _ = _
      rw [hroom]
      show (layout (levels layout n)).wire.get.nested _ = _
      unfold Get.nested
      rw [heq]

/-- **A recursive schema is one level over itself**, read one level further in. -/
theorem recursive_wire (h : Local own layout) :
    (recursive own layout).wire = (layout (recursive own layout)).wire.nested :=
  congr (congrArg Codec.mk (funext (recursive_put h))) (funext (recursive_get h))

/-- **A recursive schema is regular to any depth**, if one level is over a regular schema. -/
theorem regular_recursive (h : Local own layout) (pos : ∀ a, 0 < f a)
    (hlayout : ∀ k, Regular k (recursive own layout).wire f →
      Regular k (layout (recursive own layout)).wire fun a => f a - 1) (k : Nat) :
    Regular k (recursive own layout).wire f := by
  induction k with
  | zero =>
      rw [recursive_wire h]
      exact .blocked pos
  | succ k ih =>
      rw [recursive_wire h]
      exact (hlayout k ih).nested.congr fun a => (Nat.sub_add_cancel (pos a)).symm

end Schema

end LedgerWire
