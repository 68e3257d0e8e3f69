/-
# Projections that are read again

A value is restored if its projection is read as the value itself, in whatever order a tree keeps
the members. Single values are; composite ones are if their parts are.

* `Form.Restores` — the value is read from its projection.
* `restores_u32`, `restores_text`, … — single values.
* `Restores.option`, `Restores.list`, … — one rule a form.
* `Members.Restores` — several fields are read from their members, whatever stands beside them;
  `Restores.object` is their record.
-/

import LedgerWire.Json.Members
import LedgerWire.Proofs.Json.Reordered
import LedgerWire.Proofs.Text.Hex

namespace LedgerWire.Json

namespace Form

variable {α β : Type} {f : Form α} {g : Form β} {a : α} {b : β}

/-- The projection of the value is read as the value. -/
def Restores (f : Form α) (a : α) : Prop :=
  ∀ source j, (f.write a).Reordered j → f.read source j = .ok a

/-! ### Single values -/

theorem restores_unit : unit.Restores () := by
  rintro source j ⟨⟩
  rfl

theorem restores_bool (b : Bool) : bool.Restores b := by
  rintro source j ⟨⟩
  rfl

/-- An integer is restored when it lies in the range of its kind. -/
theorem restores_integer {low high n : Int} (hlow : low ≤ n) (hhigh : n < high) :
    (integer low high).Restores n := by
  rintro source j ⟨⟩
  exact if_pos ⟨hlow, hhigh⟩

theorem restores_string (s : String) : string.Restores s := by
  rintro source j ⟨⟩
  rfl

/-- A text form is restored if its own reader undoes it. -/
theorem restores_text {ε : Type} {shown : α → String} {parse : String → Except ε α}
    {message : ε → String} (h : parse (shown a) = .ok a) :
    (text shown parse message).Restores a := by
  rintro source j ⟨⟩
  simp only [text, h]

/-- Bytes are restored from their hexadecimal text. -/
theorem restores_hex (bytes : Bytes) : hex.Restores bytes := restores_text (Hex.decode_encode bytes)

theorem restores_hexFixed {n : Nat} (v : Vector UInt8 n) : (hexFixed n).Restores v :=
  restores_text (Hex.decodeFixed_encode v)

namespace Restores

/-- A view of a value is restored if it shows the value. -/
theorem imap {ofForm : α → β} {toForm : β → α} (hback : ofForm (toForm b) = b)
    (h : f.Restores (toForm b)) : (f.imap ofForm toForm).Restores b := by
  intro source j hj
  show (f.read source j).map ofForm = _
  rw [h source j hj]
  exact congrArg Except.ok hback

end Restores

theorem restores_u8 (n : UInt8) : u8.Restores n := by
  have hlt := n.toNat_lt
  refine .imap ?_ (restores_integer (by omega) (by omega))
  simp

theorem restores_u32 (n : UInt32) : u32.Restores n := by
  have hlt := n.toNat_lt
  refine .imap ?_ (restores_integer (by omega) (by omega))
  simp

theorem restores_i32 (n : Int32) : i32.Restores n :=
  .imap n.ofInt_toInt (restores_integer n.le_toInt n.toInt_lt)

theorem restores_u64 (n : UInt64) : u64.Restores n := by
  have hlt := n.toNat_lt
  refine .imap ?_ (restores_integer (by omega) (by omega))
  simp

theorem restores_i64 (n : Int64) : i64.Restores n :=
  .imap n.ofInt_toInt (restores_integer n.le_toInt n.toInt_lt)

/-! ### Several values -/

namespace Restores

/-- Nothing is written as null and read back as nothing. -/
theorem none : f.option.Restores none := by
  rintro source j ⟨⟩
  rfl

/-- A value that is there, if `null` is not its projection. -/
theorem some (hnull : f.write a ≠ .null) (h : f.Restores a) : f.option.Restores (some a) := by
  intro source j hj
  have hread : f.read source j = .ok a := h source j hj
  have hj : j ≠ .null := by
    rintro rfl
    exact hnull hj.eq_null
  cases j with
  | null => exact absurd rfl hj
  | _ => exact congrArg (Except.map Option.some) hread

/-- What is there is restored when its form is never null, which stands for nothing. -/
theorem option {o : Option α} (hnull : ∀ a, f.write a ≠ .null) (h : ∀ a ∈ o, f.Restores a) :
    f.option.Restores o := by
  cases o with
  | none => exact .none
  | some a => exact .some (hnull a) (h a rfl)

/-- A list is restored item by item. -/
theorem list {as : List α} (h : ∀ a ∈ as, f.Restores a) : f.list.Restores as := by
  intro source j hj
  obtain ⟨items, rfl, hitems⟩ := Reordered.of_arr hj
  show readItems f source items = .ok as
  clear hj
  induction as generalizing items with
  | nil =>
      cases hitems
      rfl
  | cons a rest ih =>
      rw [List.forall_mem_cons] at h
      obtain _ | ⟨hfirst, hrest⟩ := hitems
      rw [readItems, h.1 source _ hfirst, ih h.2 _ hrest]
      rfl

/-- A pair is restored side by side. -/
theorem two (ha : f.Restores a) (hb : g.Restores b) : (f.two g).Restores (a, b) := by
  intro source j hj
  obtain ⟨items, rfl, _ | ⟨hfirst, _ | ⟨hsecond, _ | _⟩⟩⟩ := Reordered.of_arr hj
  show (do return (← f.read source _, ← g.read source _) : Except Fault (α × β)) = _
  rw [ha source _ hfirst, hb source _ hsecond]
  rfl

end Restores

end Form

/-! ### Records -/

namespace Members

variable {α β : Type} {f : Form α} {a : α} {b : β} {m : Members α} {m' : Members β}
  {names names' : List String}

/-- Of each of the names, the second list has the same members as the first. -/
def Agree (names : List String) (members members' : List (String × Json)) : Prop :=
  ∀ name ∈ names, ReorderedMembers (members.filter (·.1 == name)) (members'.filter (·.1 == name))

/-- The value is written as members of these names, and read from them, whatever members of other
names stand beside them. -/
structure Restores (names : List String) (m : Members α) (a : α) : Prop where
  named : ∀ x ∈ m.write a, x.1 ∈ names
  reads : ∀ source members, Agree names (m.write a) members → m.ofMembers source members = .ok a

/-- The only member of a name is the same in another order. -/
theorem only?_of_filter_eq {name : String} {j : Json} {members members' : List (String × Json)}
    (h : ReorderedMembers (members.filter (·.1 == name)) (members'.filter (·.1 == name)))
    (hj : members.filter (·.1 == name) = [(name, j)]) :
    ∃ j', only? name members' = .ok (some j') ∧ j.Reordered j' := by
  rw [hj] at h
  obtain ⟨j', hj', hsame⟩ := h.of_singleton
  refine ⟨j', ?_, hsame⟩
  unfold only?
  rw [hj']

/-- A name outside a form's own is not found among its members. -/
theorem filter_eq_nil {name : String} {members : List (String × Json)}
    (hnamed : ∀ x ∈ members, x.1 ∈ names) (hname : name ∉ names) :
    members.filter (·.1 == name) = [] := by
  refine List.filter_eq_nil_iff.2 fun x hx heq => hname ?_
  obtain rfl := eq_of_beq heq
  exact hnamed x hx

namespace Restores

/-- A member is restored under its own name. -/
theorem member {name : String} (h : f.Restores a) : Restores [name] (member name f) a := by
  refine ⟨fun x hx => ?_, fun source members hagree => ?_⟩
  · obtain rfl := List.mem_singleton.1 hx
    exact List.mem_singleton_self name
  · have hown : [(name, f.write a)].filter (·.1 == name) = [(name, f.write a)] := by simp
    obtain ⟨j, honly, hj⟩ := only?_of_filter_eq (hagree name (List.mem_singleton_self name)) hown
    show (only? name members >>= _) = _
    rw [honly]
    exact h source j hj

/-- A member that may be left out is restored, present or not. -/
theorem omitted {name : String} {o : Option α} (hnull : ∀ a, f.write a ≠ .null)
    (h : ∀ a ∈ o, f.Restores a) : Restores [name] (omitted name f) o := by
  cases o with
  -- A member that was left out is not among the others either, whatever their order.
  | none =>
      refine ⟨fun x hx => (nomatch hx), fun source members hagree => ?_⟩
      have hnone : members.filter (·.1 == name) = [] :=
        (hagree name (List.mem_singleton_self name)).of_nil
      show (only? name members >>= _) = _
      rw [only?, hnone]
      rfl
  | some a =>
      have ha := Form.Restores.some (hnull a) (h a rfl)
      refine ⟨fun x hx => ?_, fun source members hagree => ?_⟩
      · obtain rfl := List.mem_singleton.1 hx
        exact List.mem_singleton_self name
      · have hown : [(name, f.write a)].filter (·.1 == name) = [(name, f.write a)] := by simp
        obtain ⟨j, honly, hj⟩ :=
          only?_of_filter_eq (hagree name (List.mem_singleton_self name)) hown
        show (only? name members >>= _) = _
        rw [honly]
        exact ha source j hj

/-- **Two groups of members are restored together** when no name is in both. -/
theorem both (h : Restores names m a) (h' : Restores names' m' b)
    (distinct : (names ++ names').Nodup) : Restores (names ++ names') (m.both m') (a, b) := by
  have hdisjoint := List.disjoint_of_nodup_append distinct
  have hwrite : (m.both m').write (a, b) = m.write a ++ m'.write b := rfl
  refine ⟨fun x hx => ?_, fun source members hagree => ?_⟩
  · rw [hwrite, List.mem_append] at hx
    exact List.mem_append.2 (hx.imp (h.named x) (h'.named x))
  · have hfirst : Agree names (m.write a) members := by
      intro name hname
      have hboth := hagree name (List.mem_append_left _ hname)
      have hothers : (m'.write b).filter (·.1 == name) = [] :=
        filter_eq_nil h'.named (hdisjoint hname)
      rwa [hwrite, List.filter_append, hothers, List.append_nil] at hboth
    have hsecond : Agree names' (m'.write b) members := by
      intro name hname
      have hboth := hagree name (List.mem_append_right _ hname)
      have hothers : (m.write a).filter (·.1 == name) = [] :=
        filter_eq_nil h.named fun hmem => hdisjoint hmem hname
      rwa [hwrite, List.filter_append, hothers, List.nil_append] at hboth
    show (do return (← m.ofMembers source members, ← m'.ofMembers source members) :
      Except Fault (α × β)) = _
    rw [h.reads source members hfirst, h'.reads source members hsecond]
    rfl

/-- A record is restored from its members. -/
theorem object {ofTuple : α → β} {toTuple : β → α} (hback : ofTuple (toTuple b) = b)
    (h : Restores names m (toTuple b)) : (m.object ofTuple toTuple).Restores b := by
  intro source j hj
  obtain ⟨members, rfl, hmembers⟩ := Reordered.of_obj hj
  show (m.ofMembers source members).map ofTuple = _
  rw [h.reads source members fun name _ => hmembers.filter name]
  exact congrArg Except.ok hback

/-- The fields of an arm are restored as a record's are. -/
theorem inArm (h : Restores names m a) : m.inArm.Restores a := by
  intro source j hj
  have hread : (m.object id id).read source j = .ok a := object rfl h source j hj
  obtain ⟨members, rfl, -⟩ := Reordered.of_obj hj
  cases source with
  | tree => exact hread
  | text => exact hread

end Restores

end Members

end LedgerWire.Json
