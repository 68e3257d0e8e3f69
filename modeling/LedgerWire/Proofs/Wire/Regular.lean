/-
# Regular codecs

The codecs of the format are put together by a handful of rules, and each rule has a side condition
that keeps the two directions in step: a view of values must be exact, a discriminant must select
one arm, the elements of a list must take some bytes. `Codec.Regular` is the codecs that obey these
rules, with the number of recursive values on the longest way into a value; the laws of the wire
form follow by induction on the rules.

* `Regular.aligned` — what a regular codec reads is framed and comes in blocks of four bytes.
* `Regular.nesting_le` — a value that is read fits the room it is read in.
* `Regular.bytes_unique` — a value is read from one byte string only.
* `Regular.steady` — writing a value adds fixed bytes, or finds a broken rule.
* `Regular.reads_of_writes` — what is written is read, if there is room for it.
-/

import LedgerWire.Proofs.Wire.Codecs

namespace LedgerWire

/-- The fault says that bytes stand for no value. -/
def WireError.IsRefusal : WireError → Prop
  | .unknownVariant .. | .malformed .. | .unsupported _ => True
  | _ => False

namespace Codec

open Bytes (word)
open Get (Aligned Reads)
open Put (Steady)

variable {α β : Type}

/-! ### The rules -/

/-- A view of values that is exact: what is seen is seen of one value only, and every value that
passes the check is seen. -/
structure View (ofWire : α → Except WireError β) (toWire : β → α)
    (check : β → Except WireError Unit) : Prop where
  toWire_of_ofWire : ∀ {a b}, ofWire a = .ok b → toWire b = a
  ofWire_toWire : ∀ {b}, check b = .ok () → ofWire (toWire b) = .ok b
  judges : ∀ b, Judges (check b)
  isRefusal : ∀ {a e}, ofWire a = .error e → e.IsRefusal

/-- The nesting of the deepest of several values. -/
def deepest (nesting : α → Nat) : List α → Nat
  | [] => 0
  | a :: rest => max (nesting a) (deepest nesting rest)

/-- The deepest is within a bound exactly if all are. -/
theorem deepest_le_iff {nesting : α → Nat} {as : List α} {n : Nat} :
    deepest nesting as ≤ n ↔ ∀ a ∈ as, nesting a ≤ n := by
  induction as with
  | nil => simp [deepest]
  | cons a rest ih => rw [deepest, Nat.max_le, ih, List.forall_mem_cons]

/-- The codec obeys the rules of the format down to so many levels of recursive values, and
`nesting` counts the levels of a value. -/
inductive Regular : Nat → {α : Type} → Codec α → (α → Nat) → Prop
  | unit {k : Nat} : Regular k .unit fun _ => 0
  | refused {k : Nat} {e : WireError} {nesting : Empty → Nat} :
      e.IsRefusal → Regular k (.refused e) nesting
  | u32 {k : Nat} : Regular k .u32 fun _ => 0
  | u64 {k : Nat} : Regular k .u64 fun _ => 0
  | fixed {k : Nat} (n : Nat) : Regular k (.fixed n) fun _ => 0
  | bytes {k : Nat} (max : UInt32) (kind field : String) :
      Regular k (.bytes max kind field) fun _ => 0
  | both {k : Nat} {α β : Type} {c : Codec α} {d : Codec β} {f : α → Nat} {g : β → Nat} :
      Regular k c f → Regular k d g → Regular k (c.both d) fun x => max (f x.1) (g x.2)
  | view {k : Nat} {α β : Type} {c : Codec α} {f : α → Nat} {ofWire : α → Except WireError β}
      {toWire : β → α} {check : β → Except WireError Unit} :
      View ofWire toWire check → Regular k c f →
        Regular k (c.view ofWire toWire check) fun b => f (toWire b)
  | optional {k : Nat} {α : Type} {c : Codec α} {f : α → Nat} :
      Regular k c f → Regular k c.optional fun o => o.elim 0 f
  | array {k : Nat} {α : Type} {c : Codec α} {f : α → Nat} (max : UInt32) (kind field : String) :
      c.get.Hungry → Regular k c f → Regular k (c.array max kind field) (deepest f)
  | union {k : Nat} {α : Type} {arms : List (Arm α)} {number : α → Int32} {f : α → Nat}
      {check : α → Except WireError Unit} (kind : String)
      (distinct : (arms.map Arm.tag).Nodup) (lawful : ∀ arm ∈ arms, arm.Lawful number)
      (total : ∀ a, check a = .ok () → ∃ arm ∈ arms, ∃ payload, arm.inject payload = a)
      (judges : ∀ a, Judges (check a))
      (parts : ∀ arm ∈ arms, Regular k arm.codec fun payload => f (arm.inject payload)) :
      Regular k ((union kind arms).guarded check) f
  | blocked {α : Type} {c : Codec α} {f : α → Nat} : (∀ a, 0 < f a) → Regular 0 c.nested f
  | nested {k : Nat} {α : Type} {c : Codec α} {f : α → Nat} :
      Regular k c f → Regular (k + 1) c.nested fun a => f a + 1

namespace Regular

variable {k m n room : Nat} {c : Codec α} {f : α → Nat} {a : α} {p q : Bytes}

/-- Nesting may be counted in another way that gives the same. -/
theorem congr {g : α → Nat} (h : Regular k c f) (hfg : ∀ a, g a = f a) : Regular k c g := by
  rwa [show g = f from funext hfg]

/-! ### Reading -/

/-- **Reading is framed and takes blocks of four bytes.** -/
theorem aligned (h : Regular k c f) : ∀ {room}, room ≤ k → c.get.Aligned room := by
  induction h with
  | unit => exact fun _ => Get.aligned_pure ()
  | refused _ => exact fun _ => Get.aligned_fail _
  | u32 => exact fun _ => Get.aligned_u32
  | u64 => exact fun _ => Get.aligned_u64
  | fixed n => exact fun _ => Get.aligned_fixed n
  | bytes => exact fun _ => Get.aligned_bytes ..
  | both _ _ ihc ihd => exact fun hroom => aligned_both (ihc hroom) (ihd hroom)
  | view _ _ ih => exact fun hroom => aligned_view (ih hroom)
  | optional _ ih => exact fun hroom => aligned_optional (ih hroom)
  | array _ _ _ hungry _ ih => exact fun hroom => (ih hroom).array hungry _ _
  | union kind _ _ _ _ _ ih =>
      exact fun hroom => aligned_union fun arm harm => ih arm harm hroom
  -- The levels are counted here: with no room there is nothing to read.
  | @blocked _ c _ _ =>
      intro room hroom
      obtain rfl : room = 0 := by omega
      exact Get.aligned_nested_zero c.get
  | @nested _ _ c _ _ ih =>
      intro room hroom
      cases room with
      | zero => exact Get.aligned_nested_zero c.get
      | succ room => exact (ih (by omega)).nested

/-- Items that nest within the room by their spellings do so together. -/
private theorem deepest_le {spells : α → Bytes → Prop} {as : List α} {ps : List Bytes}
    (h : List.Forall₂ spells as ps) (hle : ∀ {a p}, spells a p → f a ≤ room) :
    deepest f as ≤ room := by
  induction h with
  | nil => exact Nat.zero_le _
  | cons ha _ ih => exact Nat.max_le.2 ⟨hle ha, ih⟩

/-- **A value that is read fits the room it is read in.** -/
theorem nesting_le (h : Regular k c f) :
    ∀ {room p a}, room ≤ k → c.get.Reads room p a → f a ≤ room := by
  induction h with
  | unit | u32 | u64 | fixed | bytes => exact fun _ _ => Nat.zero_le _
  | refused _ => exact fun {_ _ a} _ _ => a.elim
  | both hc hd ihc ihd =>
      intro room p x hroom h
      obtain ⟨q, r, -, hq, hr⟩ := (reads_both_iff (hc.aligned hroom) (hd.aligned hroom)).1 h
      exact Nat.max_le.2 ⟨ihc hroom hq, ihd hroom hr⟩
  | view hview hc ih =>
      intro room p b hroom h
      obtain ⟨a, ha, hof⟩ := (reads_view_iff (hc.aligned hroom)).1 h
      obtain rfl := hview.toWire_of_ofWire hof
      exact ih hroom ha
  | optional hc ih =>
      intro room p o hroom h
      have hspells := (reads_optional_iff (hc.aligned hroom)).1 h
      cases o with
      | none => exact Nat.zero_le _
      | some a =>
          obtain ⟨q, -, hq⟩ := hspells
          exact ih hroom hq
  | array _ _ _ hungry hc ih =>
      intro room p as hroom h
      obtain ⟨-, ps, hps, -⟩ := (reads_array_iff (hc.aligned hroom) hungry).1 h
      exact deepest_le hps (ih hroom)
  | union kind distinct _ _ _ hparts ih =>
      intro room p a hroom h
      obtain ⟨arm, harm, payload, q, rfl, -, hq⟩ :=
        (reads_union_iff distinct fun arm harm => (hparts arm harm).aligned hroom).1 h
      exact ih arm harm hroom hq
  | blocked _ =>
      intro room p a hroom h
      obtain rfl : room = 0 := by omega
      exact absurd h Reads.not_nested
  -- One level of nesting is paid for with one level of room.
  | nested hc ih =>
      intro room p a hroom h
      cases room with
      | zero => exact absurd h Reads.not_nested
      | succ room =>
          have hroom' : room ≤ _ := Nat.le_of_succ_le_succ hroom
          exact Nat.succ_le_succ (ih hroom' ((Reads.nested_iff (hc.aligned hroom').toFramed).1 h))

/-- **Items in a row are told apart**: neither ends where the other goes on, so the joined bytes
split in one way. -/
private theorem flatten_unique {spells spells' : α → Bytes → Prop} {as : List α}
    {ps qs : List Bytes} (hps : List.Forall₂ spells as ps) (hqs : List.Forall₂ spells' as qs)
    (unique : ∀ {a p q}, spells a p → spells' a q → p = q) : ps = qs := by
  induction hps generalizing qs with
  | nil =>
      cases hqs
      rfl
  | cons ha _ ih =>
      cases hqs with
      | cons ha' hqs => rw [unique ha ha', ih hqs]

/-- **A value is read from one byte string only**, whatever room there is. -/
theorem bytes_unique (h : Regular k c f) :
    ∀ {m n p q a}, m ≤ k → n ≤ k → c.get.Reads m p a → c.get.Reads n q a → p = q := by
  induction h with
  | unit =>
      intro _ _ _ _ _ _ _ hp hq
      rw [(Reads.pure_iff.1 hp).1, (Reads.pure_iff.1 hq).1]
  | refused _ => exact fun _ _ hp _ => absurd hp Reads.not_fail
  | u32 => exact fun _ _ hp hq => (Reads.u32_iff.1 hp).trans (Reads.u32_iff.1 hq).symm
  | u64 => exact fun _ _ hp hq => (Reads.u64_iff.1 hp).trans (Reads.u64_iff.1 hq).symm
  | fixed n => exact fun _ _ hp hq => (Reads.fixed_iff.1 hp).trans (Reads.fixed_iff.1 hq).symm
  | bytes => exact fun _ _ hp hq => (Reads.bytes_iff.1 hp).2.trans (Reads.bytes_iff.1 hq).2.symm
  | both hc hd ihc ihd =>
      intro m n _ _ x hm hn hp hq
      obtain ⟨p₁, p₂, rfl, hp₁, hp₂⟩ := (reads_both_iff (hc.aligned hm) (hd.aligned hm)).1 hp
      obtain ⟨q₁, q₂, rfl, hq₁, hq₂⟩ := (reads_both_iff (hc.aligned hn) (hd.aligned hn)).1 hq
      rw [ihc hm hn hp₁ hq₁, ihd hm hn hp₂ hq₂]
  | view hview hc ih =>
      intro m n p q b hm hn hp hq
      obtain ⟨a, ha, hof⟩ := (reads_view_iff (hc.aligned hm)).1 hp
      obtain ⟨a', ha', hof'⟩ := (reads_view_iff (hc.aligned hn)).1 hq
      -- Both are views of the same value, since a view shows one value only.
      obtain rfl := hview.toWire_of_ofWire hof
      obtain rfl := hview.toWire_of_ofWire hof'
      exact ih hm hn ha ha'
  | optional hc ih =>
      intro m n p q o hm hn hp hq
      have hspells := (reads_optional_iff (hc.aligned hm)).1 hp
      have hspells' := (reads_optional_iff (hc.aligned hn)).1 hq
      cases o with
      | none => exact hspells.trans hspells'.symm
      | some a =>
          obtain ⟨p', rfl, hp'⟩ := hspells
          obtain ⟨q', rfl, hq'⟩ := hspells'
          rw [ih hm hn hp' hq']
  | array _ _ _ hungry hc ih =>
      intro m n _ _ as hm hn hp hq
      obtain ⟨-, ps, hps, rfl⟩ := (reads_array_iff (hc.aligned hm) hungry).1 hp
      obtain ⟨-, qs, hqs, rfl⟩ := (reads_array_iff (hc.aligned hn) hungry).1 hq
      rw [flatten_unique hps hqs (ih hm hn)]
  | union kind distinct lawful _ _ hparts ih =>
      intro m n _ _ a hm hn hp hq
      obtain ⟨arm, harm, payload, p', rfl, rfl, hp'⟩ :=
        (reads_union_iff distinct fun arm harm => (hparts arm harm).aligned hm).1 hp
      obtain ⟨arm', harm', payload', q', hinject, rfl, hq'⟩ :=
        (reads_union_iff distinct fun arm harm => (hparts arm harm).aligned hn).1 hq
      -- One arm holds the value, so both readings took the same tag.
      obtain ⟨rfl, hpayload⟩ := inject_inj distinct lawful harm' harm hinject
      cases hpayload
      rw [ih _ harm' hm hn hp' hq']
  | blocked _ =>
      intro m n _ _ _ hm hn hp hq
      obtain rfl : m = 0 := by omega
      exact absurd hp Reads.not_nested
  | nested hc ih =>
      intro m n p q a hm hn hp hq
      cases m with
      | zero => exact absurd hp Reads.not_nested
      | succ m =>
          cases n with
          | zero => exact absurd hq Reads.not_nested
          | succ n =>
              have hm' : m ≤ _ := Nat.le_of_succ_le_succ hm
              have hn' : n ≤ _ := Nat.le_of_succ_le_succ hn
              exact ih hm' hn' ((Reads.nested_iff (hc.aligned hm').toFramed).1 hp)
                ((Reads.nested_iff (hc.aligned hn').toFramed).1 hq)

/-! ### Writing -/

/-- None is deeper than the deepest. -/
theorem le_deepest {as : List α} (ha : a ∈ as) : f a ≤ deepest f as :=
  deepest_le_iff.1 (Nat.le_refl _) a ha

/-- **Writing a value adds fixed bytes, or finds a broken rule.** -/
theorem steady (h : Regular k c f) : ∀ {a}, f a ≤ k → (c.put a).Steady := by
  induction h with
  | unit => exact fun _ => Put.steady_of_appends Put.appends_ok
  | refused _ => exact fun {a} _ => a.elim
  | u32 => exact fun {a} _ => Put.steady_of_appends (Put.appends_u32 a)
  | u64 => exact fun {a} _ => Put.steady_of_appends (Put.appends_u64 a)
  | fixed n => exact fun {a} _ => Put.steady_of_appends (Put.appends_padded a.toList)
  | bytes max kind field => exact fun {a} _ => Put.steady_bytes max field a
  | both _ _ ihc ihd =>
      intro x hx
      obtain ⟨hc, hd⟩ := Nat.max_le.1 hx
      exact steady_both (ihc hc) (ihd hd)
  | view hview _ ih =>
      exact fun {b} hb => steady_guarded (ih hb) (hview.judges b)
  | optional _ ih =>
      intro o ho
      refine steady_optional fun a ha => ih ?_
      obtain rfl : o = some a := ha
      exact ho
  | array max kind field _ _ ih =>
      intro as has
      exact Put.steady_array max field fun a ha => ih (Nat.le_trans (le_deepest ha) has)
  | union kind _ lawful _ judges _ ih =>
      intro a ha
      refine steady_guarded (steady_union fun arm harm payload hproject => ?_) (judges a)
      obtain rfl := (lawful arm harm).inject_project hproject
      exact ih arm harm ha
  | blocked hpos => exact fun {a} ha => absurd ha (Nat.not_le.2 (hpos a))
  | nested _ ih => exact fun ha => ih (Nat.le_of_succ_le_succ ha)

/-- Spellings of items can be replaced by those that they imply. -/
private theorem forall₂_imp {spells spells' : α → Bytes → Prop} {as : List α} {ps : List Bytes}
    (h : List.Forall₂ spells as ps) (himp : ∀ {a p}, a ∈ as → spells a p → spells' a p) :
    List.Forall₂ spells' as ps := by
  induction h with
  | nil => exact .nil
  | cons ha _ ih =>
      have hfirst := himp (List.mem_cons_self ..) ha
      exact .cons hfirst (ih fun hmem => himp (List.mem_cons_of_mem _ hmem))

/-- **What is written is read**, if there is room for it. -/
theorem reads_of_writes (h : Regular k c f) :
    ∀ {room p a}, room ≤ k → f a ≤ room → c.Writes a p → c.get.Reads room p a := by
  induction h with
  | unit =>
      intro room p a _ _ hw
      exact Reads.pure_iff.2 ⟨(Put.appends_iff_of_appends Put.appends_ok).1 hw, rfl⟩
  | refused _ => exact fun {_ _ a} _ _ _ => a.elim
  | u32 => exact fun _ _ hw =>
      Reads.u32_iff.2 ((Put.appends_iff_of_appends (Put.appends_u32 _)).1 hw)
  | u64 => exact fun _ _ hw =>
      Reads.u64_iff.2 ((Put.appends_iff_of_appends (Put.appends_u64 _)).1 hw)
  | fixed n =>
      intro room p a _ _ hw
      have hp := (Put.appends_iff_of_appends (Put.appends_padded _)).1 hw
      exact Reads.fixed_iff.2 (by simpa using hp)
  | bytes => exact fun _ _ hw => Reads.bytes_iff.2 (Put.appends_bytes_iff.1 hw)
  | both hc hd ihc ihd =>
      intro room p x hroom hx hw
      obtain ⟨hcx, hdx⟩ := Nat.max_le.1 hx
      have hcsteady := hc.steady (Nat.le_trans hcx hroom)
      have hdsteady := hd.steady (Nat.le_trans hdx hroom)
      obtain ⟨q, r, rfl, hq, hr⟩ := (writes_both_iff hcsteady hdsteady).1 hw
      exact (reads_both_iff (hc.aligned hroom) (hd.aligned hroom)).2
        ⟨q, r, rfl, ihc hroom hcx hq, ihd hroom hdx hr⟩
  | view hview hc ih =>
      intro room p b hroom hb hw
      obtain ⟨hcheck, hw⟩ :=
        (writes_view_iff (hc.steady (Nat.le_trans hb hroom)) (hview.judges b)).1 hw
      exact (reads_view_iff (hc.aligned hroom)).2
        ⟨_, ih hroom hb hw, hview.ofWire_toWire hcheck⟩
  | optional hc ih =>
      intro room p o hroom ho hw
      refine (reads_optional_iff (hc.aligned hroom)).2 ?_
      cases o with
      | none => exact (writes_optional_iff nofun).1 hw
      | some a =>
          have hsteady : ∀ a' ∈ some a, (_ : Put).Steady := fun a' ha' => by
            cases ha'
            exact hc.steady (Nat.le_trans ho hroom)
          obtain ⟨q, rfl, hq⟩ := (writes_optional_iff hsteady).1 hw
          exact ⟨q, rfl, ih hroom ho hq⟩
  | array _ _ _ hungry hc ih =>
      intro room p as hroom has hw
      have hle : ∀ {a}, a ∈ as → _ ≤ room := fun ha => Nat.le_trans (le_deepest ha) has
      obtain ⟨hlen, ps, hps, rfl⟩ :=
        (writes_array_iff fun a ha => hc.steady (Nat.le_trans (hle ha) hroom)).1 hw
      exact (reads_array_iff (hc.aligned hroom) hungry).2
        ⟨hlen, ps, forall₂_imp hps fun ha hp => ih hroom (hle ha) hp, rfl⟩
  | union kind distinct lawful total judges hparts ih =>
      intro room p a hroom ha hw
      have hunion : ((Codec.union kind _).put a).Steady :=
        steady_union fun arm harm payload hproject => by
          obtain rfl := (lawful arm harm).inject_project hproject
          exact (hparts arm harm).steady (Nat.le_trans ha hroom)
      obtain ⟨hcheck, hw⟩ := (writes_guarded_iff hunion (judges a)).1 hw
      -- A value that passes the check is held by some arm, and read through it.
      obtain ⟨arm, harm, payload, rfl⟩ := total a hcheck
      obtain ⟨q, rfl, hq⟩ := (writes_union_iff distinct lawful harm
        ((hparts arm harm).steady (Nat.le_trans ha hroom))).1 hw
      exact (reads_union_iff distinct fun arm harm => (hparts arm harm).aligned hroom).2
        ⟨arm, harm, payload, q, rfl, rfl, ih arm harm hroom ha hq⟩
  | blocked hpos =>
      intro room p a hroom ha _
      exact absurd (Nat.le_trans ha hroom) (Nat.not_le.2 (hpos a))
  | nested hc ih =>
      intro room p a hroom ha hw
      cases room with
      | zero => exact absurd ha (Nat.not_succ_le_zero _)
      | succ room =>
          have hroom' : room ≤ _ := Nat.le_of_succ_le_succ hroom
          exact (Reads.nested_iff (hc.aligned hroom').toFramed).2
            (ih hroom' (Nat.le_of_succ_le_succ ha) hw)

end Regular

end Codec

end LedgerWire
