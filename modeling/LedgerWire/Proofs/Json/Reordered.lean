/-
# Trees with their members in another order

A tree need not keep the members of its objects in the order in which they were written: it may
sort them by name, for one. Two documents are the same tree if they differ in that alone, however
deep inside.

* `Json.Reordered` — the second document has the members of the first, in any order.
* `Reordered.depth_eq` — the order makes no difference to the depth.
* `ReorderedMembers.filter` — and none to the members of one name.
-/

import LedgerWire.Json.Basic

namespace LedgerWire.Json

mutual

/-- The documents differ at most in the order of members, all the way down. -/
inductive Reordered : Json → Json → Prop where
  | same (j : Json) : Reordered j j
  | arr {items items' : List Json} (h : ReorderedItems items items') :
      Reordered (.arr items) (.arr items')
  | obj {members members' : List (String × Json)} (h : ReorderedMembers members members') :
      Reordered (.obj members) (.obj members')

/-- The documents of two lists are the same, one by one. -/
inductive ReorderedItems : List Json → List Json → Prop where
  | nil : ReorderedItems [] []
  | cons {j j' : Json} {rest rest' : List Json} (h : Reordered j j')
      (hrest : ReorderedItems rest rest') : ReorderedItems (j :: rest) (j' :: rest')

/-- Each member is in the second list too, where it may stand anywhere among the others. -/
inductive ReorderedMembers : List (String × Json) → List (String × Json) → Prop where
  | nil : ReorderedMembers [] []
  | insert {name : String} {j j' : Json} {rest before after : List (String × Json)}
      (h : Reordered j j') (hrest : ReorderedMembers rest (before ++ after)) :
      ReorderedMembers ((name, j) :: rest) (before ++ (name, j') :: after)

end

theorem ReorderedItems.refl (items : List Json) : ReorderedItems items items := by
  induction items with
  | nil => exact .nil
  | cons j rest ih => exact .cons (.same j) ih

theorem ReorderedMembers.refl (members : List (String × Json)) :
    ReorderedMembers members members := by
  induction members with
  | nil => exact .nil
  | cons m rest ih => exact @ReorderedMembers.insert m.1 m.2 m.2 rest [] rest (.same m.2) ih

/-! ### What a document in another order looks like -/

section Shapes

variable {j : Json} {items : List Json} {members members' : List (String × Json)} {name : String}

/-- A reordered list is a list, its items reordered one by one. -/
theorem Reordered.of_arr (h : Reordered (.arr items) j) :
    ∃ items', j = .arr items' ∧ ReorderedItems items items' := by
  cases h with
  | same => exact ⟨items, rfl, .refl items⟩
  | arr h => exact ⟨_, rfl, h⟩

/-- A reordered object has the members of the object, in some order and reordered within. -/
theorem Reordered.of_obj (h : Reordered (.obj members) j) :
    ∃ members', j = .obj members' ∧ ReorderedMembers members members' := by
  cases h with
  | same => exact ⟨members, rfl, .refl members⟩
  | obj h => exact ⟨_, rfl, h⟩

/-- Nothing but `null` is `null` in another order. -/
theorem Reordered.eq_null (h : Reordered j .null) : j = .null := by
  cases h
  rfl

/-- There is one order of no members. -/
theorem ReorderedMembers.of_nil (h : ReorderedMembers [] members) : members = [] := by
  cases h
  rfl

/-- A single member has no others to move past. -/
theorem ReorderedMembers.of_singleton (h : ReorderedMembers [(name, j)] members) :
    ∃ j', members = [(name, j')] ∧ Reordered j j' := by
  obtain _ | ⟨hj, hrest⟩ := h
  obtain ⟨rfl, rfl⟩ := List.append_eq_nil_iff.1 hrest.of_nil
  exact ⟨_, rfl, hj⟩

/-- The members of one name are the same in another order. -/
theorem ReorderedMembers.filter (h : ReorderedMembers members members') (name : String) :
    ReorderedMembers (members.filter (·.1 == name)) (members'.filter (·.1 == name)) := by
  induction members generalizing members' with
  | nil =>
      obtain rfl := h.of_nil
      exact .nil
  | cons m rest ih =>
      obtain ⟨n, j⟩ := m
      obtain _ | ⟨hj, hrest⟩ := h
      have hothers := ih hrest
      rw [List.filter_append] at hothers ⊢
      by_cases hname : n = name
      · subst hname
        simp only [List.filter_cons, beq_self_eq_true, if_true]
        exact .insert hj hothers
      · have hother : (n == name) = false := beq_false_of_ne hname
        simp only [List.filter_cons, hother, Bool.false_eq_true, if_false]
        exact hothers

end Shapes

/-! ### Depth -/

/-- Where a member stands among the others does not matter to the depth. -/
theorem depthMembers_insert (before after : List (String × Json)) (name : String) (j : Json) :
    depthMembers (before ++ (name, j) :: after)
      = max (depth j) (depthMembers (before ++ after)) := by
  induction before with
  | nil => rfl
  | cons m rest ih =>
      rw [List.cons_append, List.cons_append, depthMembers, depthMembers, ih, Nat.max_left_comm]

mutual

/-- The order of members makes no difference to the depth. -/
theorem Reordered.depth_eq : ∀ {j j' : Json}, Reordered j j' → depth j = depth j'
  | _, _, .same _ => rfl
  | _, _, .arr h => by rw [depth, depth, h.depth_eq]
  | _, _, .obj h => by rw [depth, depth, h.depth_eq]

/-- Reordering within the items of a list keeps their depth. -/
theorem ReorderedItems.depth_eq : ∀ {items items' : List Json}, ReorderedItems items items' →
    depthItems items = depthItems items'
  | _, _, .nil => rfl
  | _, _, .cons h hrest => by rw [depthItems, depthItems, h.depth_eq, hrest.depth_eq]

/-- Reordering the members of an object keeps their depth. -/
theorem ReorderedMembers.depth_eq : ∀ {members members' : List (String × Json)},
    ReorderedMembers members members' → depthMembers members = depthMembers members'
  | _, _, .nil => rfl
  | _, _, .insert h hrest => by
      rw [depthMembers, depthMembers_insert, h.depth_eq, hrest.depth_eq]

end

end LedgerWire.Json
