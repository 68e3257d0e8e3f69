/-
# Codecs put together

What a composite codec writes and reads, in terms of what its parts do. Each combinator of `Codec`
has the two statements side by side, `writes_…_iff` and `reads_…_iff`, in the same words: the bytes
on the right-hand sides are the same, which is why the directions agree.

* `writes_both_iff`, `reads_both_iff` — one value after the other.
* `get_both_eq_ok_iff`, `get_both_eq_error_iff` — the same for one run of reading.
* `writes_view_iff`, `reads_view_iff` — another view of the values, with the rules it asks for.
* `Arm.Lawful`, `writes_union_iff`, `reads_union_iff` — unions: the discriminant of the arm that a
  value belongs to, and the bytes of its payload.
-/

import LedgerWire.Proofs.Wire.Writing

namespace LedgerWire.Codec

open Bytes (word)
open Get (Aligned Reads)
open Put (Steady Appends)

variable {α β : Type} {room : Nat} {p : Bytes}

/-! ### One after the other -/

/-- Two parts in a row are written steadily if each is. -/
theorem steady_both {c : Codec α} {d : Codec β} {x : α × β} (hc : (c.put x.1).Steady)
    (hd : (d.put x.2).Steady) : ((c.both d).put x).Steady :=
  hc.bind hd

/-- What two parts write is what the first writes, then what the second does. -/
theorem writes_both_iff {c : Codec α} {d : Codec β} {x : α × β} (hc : (c.put x.1).Steady)
    (hd : (d.put x.2).Steady) :
    (c.both d).Writes x p ↔ ∃ q r, p = q ++ r ∧ c.Writes x.1 q ∧ d.Writes x.2 r :=
  Appends.bind_iff hc hd

/-- Two parts in a row are aligned if each is. -/
theorem aligned_both {c : Codec α} {d : Codec β} (hc : c.get.Aligned room)
    (hd : d.get.Aligned room) : (c.both d).get.Aligned room :=
  hc.bind fun a => hd.map (a, ·)

/-- The bytes of two parts are those of the first and then those of the second. -/
theorem reads_both_iff {c : Codec α} {d : Codec β} (hc : c.get.Aligned room)
    (hd : d.get.Aligned room) {x : α × β} :
    (c.both d).get.Reads room p x ↔
      ∃ q r, p = q ++ r ∧ c.get.Reads room q x.1 ∧ d.get.Reads room r x.2 := by
  refine (Reads.bind_iff hc.toFramed fun a => (hd.map (a, ·)).toFramed).trans ?_
  constructor
  · rintro ⟨a, q, r, rfl, hq, hr⟩
    obtain ⟨b, hb, rfl⟩ := (Reads.map_iff hd.toFramed).1 hr
    exact ⟨q, r, rfl, hq, hb⟩
  · rintro ⟨q, r, rfl, hq, hr⟩
    exact ⟨x.1, q, r, rfl, hq, (Reads.map_iff hd.toFramed).2 ⟨x.2, hr, rfl⟩⟩

section Runs

variable {c : Codec α} {d : Codec β} {r r' : Reader} {a : α} {b : β} {e : WireError}

/-- A pair is read in two runs. -/
theorem get_both_eq_ok_iff : (c.both d).get r = (.ok (a, b), r') ↔
    ∃ t, c.get r = (.ok a, t) ∧ d.get t = (.ok b, r') := by
  constructor
  · intro h
    obtain ⟨_, t, ha, hrest⟩ := Attempt.bind_ok_iff.1 h
    obtain ⟨_, _, hb, hpair⟩ := Attempt.bind_ok_iff.1 hrest
    cases hpair
    exact ⟨t, ha, hb⟩
  · rintro ⟨t, ha, hb⟩
    exact Attempt.bind_ok_iff.2 ⟨a, t, ha, Attempt.bind_ok_iff.2 ⟨b, r', hb, rfl⟩⟩

/-- Reading a pair fails in one of its runs. -/
theorem get_both_eq_error_iff : (c.both d).get r = (.error e, r') ↔
    c.get r = (.error e, r') ∨ ∃ a t, c.get r = (.ok a, t) ∧ d.get t = (.error e, r') := by
  constructor
  · intro h
    rcases Attempt.bind_error_iff.1 h with ha | ⟨a, t, ha, hrest⟩
    · exact .inl ha
    · rcases Attempt.bind_error_iff.1 hrest with hb | ⟨_, _, -, hpair⟩
      · exact .inr ⟨a, t, ha, hb⟩
      · cases hpair
  · rintro (ha | ⟨a, t, ha, hb⟩)
    · exact Attempt.bind_error_iff.2 (.inl ha)
    · exact Attempt.bind_error_iff.2 (.inr ⟨a, t, ha, Attempt.bind_error_iff.2 (.inl hb)⟩)

variable {f : α → β} {g : β → α}

/-- A value seen under a bijection is read exactly if what it stands for is. -/
theorem get_imap_eq_ok_iff :
    (c.imap f g).get r = (.ok b, r') ↔ ∃ a, c.get r = (.ok a, r') ∧ f a = b := by
  constructor
  · intro h
    obtain ⟨a, t, ha, hpure⟩ := Attempt.bind_ok_iff.1 h
    cases hpure
    exact ⟨a, ha, rfl⟩
  · rintro ⟨a, ha, rfl⟩
    exact Attempt.bind_ok_iff.2 ⟨a, r', ha, rfl⟩

/-- Another view of the values is no other way to fail. -/
theorem get_imap_eq_error_iff :
    (c.imap f g).get r = (.error e, r') ↔ c.get r = (.error e, r') := by
  constructor
  · intro h
    rcases Attempt.bind_error_iff.1 h with ha | ⟨_, _, -, hpure⟩
    · exact ha
    · cases hpure
  · intro ha
    exact Attempt.bind_error_iff.2 (.inl ha)

end Runs

/-! ### Another view -/

variable {ofWire : α → Except WireError β} {toWire : β → α} {check : β → Except WireError Unit}

/-- Another view of a codec's values, which are judged before they are written. -/
def view (ofWire : α → Except WireError β) (toWire : β → α) (check : β → Except WireError Unit)
    (c : Codec α) : Codec β :=
  (c.convert ofWire toWire).guarded check

/-- A value behind a check is written steadily: the check comes before any byte. -/
theorem steady_guarded {c : Codec β} {b : β} (hc : (c.put b).Steady)
    (hcheck : Judges (check b)) : ((c.guarded check).put b).Steady :=
  (Put.steady_ofExcept hcheck).bind hc

/-- Rules are judged before the first byte and add none. -/
theorem writes_guarded_iff {c : Codec β} {b : β} (hc : (c.put b).Steady)
    (hcheck : Judges (check b)) :
    (c.guarded check).Writes b p ↔ check b = .ok () ∧ c.Writes b p := by
  refine (Appends.bind_iff (Put.steady_ofExcept hcheck) hc).trans ?_
  simp only [Put.appends_ofExcept_iff]
  constructor
  · rintro ⟨_, r, rfl, ⟨hok, rfl⟩, hw⟩
    exact ⟨hok, hw⟩
  · rintro ⟨hok, hw⟩
    exact ⟨[], p, rfl, ⟨hok, rfl⟩, hw⟩

/-- A value behind a view is written if it passes the check, and as what it stands for. -/
theorem writes_view_iff {c : Codec α} {b : β} (hc : (c.put (toWire b)).Steady)
    (hcheck : Judges (check b)) :
    (c.view ofWire toWire check).Writes b p ↔ check b = .ok () ∧ c.Writes (toWire b) p :=
  writes_guarded_iff hc hcheck

/-- A view reads the bytes of what it is a view of. -/
theorem aligned_view {c : Codec α} (hc : c.get.Aligned room) :
    (c.view ofWire toWire check).get.Aligned room :=
  hc.bind fun a => Get.aligned_ofExcept (ofWire a)

/-- A value behind a view is read from the bytes of what it is seen of. -/
theorem reads_view_iff {c : Codec α} (hc : c.get.Aligned room) {b : β} :
    (c.view ofWire toWire check).get.Reads room p b ↔
      ∃ a, c.get.Reads room p a ∧ ofWire a = .ok b := by
  refine (Reads.bind_iff hc.toFramed fun a =>
    (Get.aligned_ofExcept (ofWire a)).toFramed).trans ?_
  simp only [Reads.ofExcept_iff]
  constructor
  · rintro ⟨a, q, _, rfl, hq, rfl, hof⟩
    exact ⟨a, by simpa using hq, hof⟩
  · rintro ⟨a, hp, hof⟩
    exact ⟨a, p, [], by simp, hp, rfl, hof⟩

/-! ### Values that may be absent -/

def boolOfWord (word : UInt32) : Except WireError Bool :=
  if word = 0 then .ok false
  else if word = 1 then .ok true
  else .error (.malformed "bool" (.notBoolean word.toNat))

def wordOfBool (b : Bool) : UInt32 := if b then 1 else 0

/-- A word that is read as a truth value is the one that value is written with. -/
theorem wordOfBool_of_boolOfWord {w : UInt32} {b : Bool} (h : boolOfWord w = .ok b) :
    wordOfBool b = w := by
  unfold boolOfWord at h
  split at h
  · rename_i hw
    cases h
    exact hw.symm
  · split at h
    · rename_i hw
      cases h
      exact hw.symm
    · cases h

theorem boolOfWord_wordOfBool (b : Bool) : boolOfWord (wordOfBool b) = .ok b := by
  cases b <;> rfl

/-- Truth values are a view of words. -/
theorem bool_eq_view : Codec.bool = Codec.u32.view boolOfWord wordOfBool fun _ => .ok () := by
  refine congrArg (Codec.mk Put.bool) (congrArg (Get.u32 >>= ·) (funext fun word => ?_))
  show _ = Attempt.ofExcept (boolOfWord word)
  unfold boolOfWord
  split
  · rfl
  · split <;> rfl

/-- A truth value takes a word. -/
theorem aligned_bool : Get.bool.Aligned room := by
  have h : (Codec.u32.view boolOfWord wordOfBool fun _ => .ok ()).get.Aligned room :=
    aligned_view Get.aligned_u32
  rwa [← bool_eq_view] at h

/-- A truth value has one word. -/
theorem reads_bool_iff {b : Bool} : Get.bool.Reads room p b ↔ p = word (wordOfBool b) := by
  have h : (Codec.u32.view boolOfWord wordOfBool fun _ => .ok ()).get.Reads room p b ↔ _ :=
    reads_view_iff Get.aligned_u32
  rw [← bool_eq_view] at h
  refine h.trans ?_
  constructor
  · rintro ⟨w, hw, hof⟩
    rw [wordOfBool_of_boolOfWord hof]
    exact Get.Reads.u32_iff.1 hw
  · intro hp
    exact ⟨_, Get.Reads.u32_iff.2 hp, boolOfWord_wordOfBool b⟩

/-- How an absent value and a present one are spelled, given the spelling of values. -/
def SpellsOption (spells : α → Bytes → Prop) : Option α → Bytes → Prop
  | none, p => p = word 0
  | some a, p => ∃ q, p = word 1 ++ q ∧ spells a q

/-- An optional value is aligned if what may be there is. -/
theorem aligned_optional {c : Codec α} (hc : c.get.Aligned room) :
    c.optional.get.Aligned room :=
  hc.optional aligned_bool

/-- **An optional value is read** as nothing from the word zero, or behind the word one. -/
theorem reads_optional_iff {c : Codec α} (hc : c.get.Aligned room) {o : Option α} :
    c.optional.get.Reads room p o ↔ SpellsOption (fun a q => c.get.Reads room q a) o p := by
  -- What follows the flag is the value, or nothing at all.
  have hrest : ∀ b : Bool, Aligned room
      (do if b then return some (← c.get) else return none : Get (Option α)) := fun b => by
    cases b with
    | true => exact hc.map some
    | false => exact Get.aligned_pure none
  refine (Reads.bind_iff aligned_bool.toFramed fun b => (hrest b).toFramed).trans ?_
  simp only [reads_bool_iff]
  constructor
  · rintro ⟨b, _, q, rfl, rfl, hq⟩
    cases b with
    | true =>
        obtain ⟨a, ha, rfl⟩ := (Reads.map_iff hc.toFramed).1 hq
        exact ⟨q, rfl, ha⟩
    | false =>
        obtain ⟨rfl, rfl⟩ := Reads.pure_iff.1 hq
        exact List.append_nil _
  · intro h
    cases o with
    | none =>
        have hzero : p = word 0 ++ [] := (List.append_nil _).symm ▸ h
        exact ⟨false, word 0, [], hzero, rfl, Reads.pure_iff.2 ⟨rfl, rfl⟩⟩
    | some a =>
        obtain ⟨q, rfl, hq⟩ := h
        exact ⟨true, word 1, q, rfl, rfl, (Reads.map_iff hc.toFramed).2 ⟨a, hq, rfl⟩⟩

/-- An optional value is written steadily if what is there is. -/
theorem steady_optional {c : Codec α} {o : Option α} (hc : ∀ a ∈ o, (c.put a).Steady) :
    (c.optional.put o).Steady := by
  cases o with
  | none => exact Put.steady_of_appends (Put.appends_u32 0)
  | some a => exact (Put.steady_of_appends (Put.appends_u32 1)).bind (hc a rfl)

/-- A slot is written steadily if what fills it is. -/
theorem steady_extension {c : Codec α} {version : Int32} {kind : String} {o : Option α}
    (hc : ∀ a ∈ o, (c.put a).Steady) : ((c.extension version kind).put o).Steady := by
  cases o with
  | none => exact Put.steady_of_appends (Put.appends_u32 0)
  | some a => exact (Put.steady_of_appends (Put.appends_u32 version.toUInt32)).bind (hc a rfl)

/-- An optional value is written as it is read: the word zero, or what is there behind a one. -/
theorem writes_optional_iff {c : Codec α} {o : Option α} (hc : ∀ a ∈ o, (c.put a).Steady) :
    c.optional.Writes o p ↔ SpellsOption c.Writes o p := by
  cases o with
  | none => exact Put.appends_iff_of_appends (Put.appends_u32 0)
  | some a =>
      have hone := Put.appends_u32 1
      refine (Appends.bind_iff (Put.steady_of_appends hone) (hc a rfl)).trans ?_
      simp only [Put.appends_iff_of_appends hone]
      constructor
      · rintro ⟨_, q, rfl, rfl, hq⟩
        exact ⟨q, rfl, hq⟩
      · rintro ⟨q, rfl, hq⟩
        exact ⟨_, q, rfl, rfl, hq⟩

/-! ### Lists -/

/-- How a bounded list is spelled, given the spelling of its values. -/
def SpellsList (max : UInt32) (spells : α → Bytes → Prop) (as : List α) (p : Bytes) : Prop :=
  as.length ≤ max.toNat ∧
    ∃ ps, List.Forall₂ spells as ps ∧ p = word (UInt32.ofNat as.length) ++ ps.flatten

/-- A list is read from its count and the bytes of its items, one after another. -/
theorem reads_array_iff {c : Codec α} (hc : c.get.Aligned room) (hungry : c.get.Hungry)
    {max : UInt32} {kind field : String} {as : List α} :
    (c.array max kind field).get.Reads room p as ↔
      SpellsList max (fun a q => c.get.Reads room q a) as p :=
  Reads.array_iff hc hungry

/-- A list is written as it is read, by its count and its items. -/
theorem writes_array_iff {c : Codec α} {max : UInt32} {kind field : String} {as : List α}
    (hc : ∀ a ∈ as, (c.put a).Steady) :
    (c.array max kind field).Writes as p ↔ SpellsList max c.Writes as p :=
  Put.appends_array_iff hc

/-! ### Unions -/

variable {arms : List (Arm α)} {number : α → Int32} {arm : Arm α} {a : α} {kind : String}

/-- An arm holds exactly the values that are put together from its payloads, and `number` knows its
discriminant for them. -/
structure Arm.Lawful (number : α → Int32) (arm : Arm α) : Prop where
  project_inject : ∀ payload, arm.project (arm.inject payload) = some payload
  inject_project : ∀ {a payload}, arm.project a = some payload → arm.inject payload = a
  number_inject : ∀ payload, number (arm.inject payload) = arm.tag

/-- How a value of a union is spelled, given the spelling of its payload. -/
def SpellsUnion (arms : List (Arm α)) (spells : (arm : Arm α) → arm.Payload → Bytes → Prop)
    (a : α) (p : Bytes) : Prop :=
  ∃ arm ∈ arms, ∃ payload q, arm.inject payload = a ∧ p = word arm.tag.toUInt32 ++ q
    ∧ spells arm payload q

/-- With distinct discriminants, the one of an arm finds the arm. -/
theorem find?_tag (distinct : (arms.map Arm.tag).Nodup) (harm : arm ∈ arms) :
    arms.find? (·.tag = arm.tag) = some arm := by
  induction arms with
  | nil => cases harm
  | cons first rest ih =>
      rw [List.map_cons, List.nodup_cons] at distinct
      rcases List.mem_cons.1 harm with rfl | hrest
      · simp
      · have hne : first.tag ≠ arm.tag := fun h =>
          distinct.1 (h ▸ List.mem_map_of_mem hrest)
        rw [List.find?_cons_of_neg (by simpa using hne)]
        exact ih distinct.2 hrest

/-- What a discriminant finds is an arm with this discriminant. -/
theorem mem_tag_of_find? {tag : Int32} (hfound : arms.find? (·.tag = tag) = some arm) :
    arm ∈ arms ∧ arm.tag = tag := by
  have htag := List.find?_some hfound
  exact ⟨List.mem_of_find?_eq_some hfound, of_decide_eq_true htag⟩

/-- Arms of distinct tags are told apart by them. -/
theorem eq_of_tag_eq (distinct : (arms.map Arm.tag).Nodup) {other : Arm α} (harm : arm ∈ arms)
    (hother : other ∈ arms) (h : arm.tag = other.tag) : arm = other := by
  have hfound := find?_tag distinct harm
  rw [h, find?_tag distinct hother] at hfound
  exact (Option.some.inj hfound).symm

/-- A value belongs to one arm, and is put together there from one payload. -/
theorem inject_inj (distinct : (arms.map Arm.tag).Nodup) (lawful : ∀ arm ∈ arms, arm.Lawful number)
    {other : Arm α} (harm : arm ∈ arms) (hother : other ∈ arms) {payload : arm.Payload}
    {payload' : other.Payload} (h : arm.inject payload = other.inject payload') :
    arm = other ∧ payload ≍ payload' := by
  have htag : arm.tag = other.tag := by
    rw [← (lawful arm harm).number_inject payload, h, (lawful other hother).number_inject]
  obtain rfl := eq_of_tag_eq distinct harm hother htag
  have hproject := (lawful arm harm).project_inject payload
  rw [h, (lawful arm harm).project_inject] at hproject
  cases hproject
  exact ⟨rfl, .rfl⟩

/-- **A value is written by the arm that it belongs to.** -/
theorem put_union (distinct : (arms.map Arm.tag).Nodup) (lawful : ∀ arm ∈ arms, arm.Lawful number)
    (harm : arm ∈ arms) (payload : arm.Payload) :
    (union kind arms).put (arm.inject payload)
      = (do Put.i32 arm.tag; arm.codec.put payload) := by
  have hput : arms.findSome? (·.put? (arm.inject payload))
      = some (do Put.i32 arm.tag; arm.codec.put payload) := by
    cases hfound : arms.findSome? (·.put? (arm.inject payload)) with
    | none =>
        have hnone := List.findSome?_eq_none_iff.1 hfound arm harm
        simp [Arm.put?, (lawful arm harm).project_inject] at hnone
    -- Another arm could come first; but one that holds the value is the arm it was made by.
    | some step =>
        obtain ⟨other, hother, hstep⟩ := List.exists_of_findSome?_eq_some hfound
        obtain ⟨payload', hproject, rfl⟩ := Option.map_eq_some_iff.1 hstep
        have hinject := (lawful other hother).inject_project hproject
        obtain ⟨rfl, hpayload⟩ := inject_inj distinct lawful hother harm hinject
        cases hpayload
        rfl
  show (arms.findSome? _).getD _ = _
  rw [hput]
  rfl

/-- An arm is aligned if its payload is. -/
theorem aligned_arm (h : arm.codec.get.Aligned room) : Aligned room arm.get :=
  h.map arm.inject

/-- A union is aligned if every arm's payload is. -/
theorem aligned_union (parts : ∀ arm ∈ arms, arm.codec.get.Aligned room) :
    (union kind arms).get.Aligned room := by
  have hi32 : Get.i32.Aligned room := Get.aligned_u32.map UInt32.toInt32
  refine hi32.bind fun tag => ?_
  split
  · rename_i arm hfound
    exact aligned_arm (parts arm (List.mem_of_find?_eq_some hfound))
  · exact Get.aligned_fail _

/-- **The word in front decides the arm that a union is read by.** -/
theorem get_union_of_found {r r' : Reader} {tag : Int32} (hword : Get.i32 r = (.ok tag, r'))
    (hfound : arms.find? (·.tag = tag) = some arm) : (union kind arms).get r = arm.get r' := by
  unfold union
  simp only [Attempt.bind_apply, hword, hfound]

/-- A word in front that belongs to no arm is refused, and named. -/
theorem get_union_of_unknown {r r' : Reader} {tag : Int32} (hword : Get.i32 r = (.ok tag, r'))
    (hfound : arms.find? (·.tag = tag) = none) :
    (union kind arms).get r = (.error (.unknownVariant kind tag), r') := by
  unfold union
  simp only [Attempt.bind_apply, hword, hfound]
  rfl

/-- A signed word has one spelling. -/
theorem reads_i32_iff {n : Int32} : Get.i32.Reads room p n ↔ p = word n.toUInt32 := by
  refine (Reads.map_iff Get.aligned_u32.toFramed).trans ?_
  simp only [Get.Reads.u32_iff]
  constructor
  · rintro ⟨w, rfl, rfl⟩
    simp
  · rintro rfl
    exact ⟨n.toUInt32, rfl, by simp⟩

/-- **A union is read** from a tag that is an arm's and the bytes of that arm's payload. -/
theorem reads_union_iff (distinct : (arms.map Arm.tag).Nodup)
    (parts : ∀ arm ∈ arms, arm.codec.get.Aligned room) :
    (union kind arms).get.Reads room p a ↔
      SpellsUnion arms (fun arm payload q => arm.codec.get.Reads room q payload) a p := by
  have hi32 : Get.i32.Aligned room := Get.aligned_u32.map UInt32.toInt32
  refine (Reads.bind_iff hi32.toFramed fun tag => ?_).trans ?_
  · split
    · rename_i arm hfound
      exact (aligned_arm (parts arm (List.mem_of_find?_eq_some hfound))).toFramed
    · exact Get.framed_fail _
  · simp only [reads_i32_iff]
    constructor
    · rintro ⟨tag, _, q, rfl, rfl, hq⟩
      split at hq
      · rename_i arm hfound
        obtain ⟨harm, rfl⟩ := mem_tag_of_find? hfound
        obtain ⟨payload, hpayload, rfl⟩ := (Reads.map_iff (parts arm harm).toFramed).1 hq
        exact ⟨arm, harm, payload, q, rfl, rfl, hpayload⟩
      · exact absurd hq Reads.not_fail
    · rintro ⟨arm, harm, payload, q, rfl, rfl, hq⟩
      refine ⟨arm.tag, _, q, rfl, rfl, ?_⟩
      rw [find?_tag distinct harm]
      exact (Reads.map_iff (parts arm harm).toFramed).2 ⟨payload, hq, rfl⟩

/-- A union is written steadily if the arm that holds the value is. -/
theorem steady_union (parts : ∀ arm ∈ arms, ∀ payload, arm.project a = some payload →
      (arm.codec.put payload).Steady) : ((union kind arms).put a).Steady := by
  show Steady ((arms.findSome? (·.put? a)).getD (Attempt.ok ()))
  cases hfound : arms.findSome? (·.put? a) with
  | none => exact Put.steady_of_appends Put.appends_ok
  | some step =>
      obtain ⟨arm, harm, hstep⟩ := List.exists_of_findSome?_eq_some hfound
      obtain ⟨payload, hproject, rfl⟩ := Option.map_eq_some_iff.1 hstep
      exact (Put.steady_of_appends (Put.appends_u32 _)).bind (parts arm harm payload hproject)

/-- The bytes of a value of a union: the discriminant of its arm and those of its payload. -/
theorem writes_union_iff (distinct : (arms.map Arm.tag).Nodup)
    (lawful : ∀ arm ∈ arms, arm.Lawful number) (harm : arm ∈ arms) {payload : arm.Payload}
    (hpayload : (arm.codec.put payload).Steady) :
    (union kind arms).Writes (arm.inject payload) p ↔
      ∃ q, p = word arm.tag.toUInt32 ++ q ∧ arm.codec.Writes payload q := by
  have htag := Put.appends_u32 arm.tag.toUInt32
  unfold Writes
  rw [put_union distinct lawful harm]
  refine (Appends.bind_iff (Put.steady_of_appends htag) hpayload).trans ?_
  simp only [Put.appends_iff_of_appends htag]
  constructor
  · rintro ⟨_, q, rfl, rfl, hq⟩
    exact ⟨q, rfl, hq⟩
  · rintro ⟨q, rfl, hq⟩
    exact ⟨_, q, rfl, rfl, hq⟩

end LedgerWire.Codec
