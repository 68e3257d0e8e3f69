/-
# Settings are independent

An operation that changes settings is put together by a chain of calls. Most of them judge the whole
operation again, with all that was given before. Still no call depends on another: what was given
before had passed, so a call is refused for its own argument or not at all. A chain therefore
succeeds exactly when each of its arguments is in range, its operation holds what was last given to
each field, and calls of different setters may change places.

* `Setting.given`, `overlay` — what one call gives, and what is left of an operation under it.
* `validate_overlay` — fields that passed once do not matter to a later validation.
* `apply_eq` — one call on an operation that passed.
* `build_eq` — a whole chain: the first argument out of range is what it fails for.
* `Reordering`, `Reordering.swap` — calls of each setter keep their order, and others need not.
* `settings_independent` — chains, their operations, and their reorderings.
-/

import LedgerWire.Proofs.Types.Writable
import Mathlib.Data.List.Induction

namespace LedgerWire.SetOptionsOp

variable {op : SetOptionsOp} {steps others : List Setting}

/-! ### One call -/

namespace Setting

/-- The operation that holds what the step gives, and nothing else. -/
def given : Setting → SetOptionsOp
  | .inflationDest account => { inflationDest := some account }
  | .clearFlags flags => { clearFlags := some flags }
  | .setFlags flags => { setFlags := some flags }
  | .masterWeight weight => { masterWeight := some weight }
  | .thresholds low med high =>
      { lowThreshold := some low, medThreshold := some med, highThreshold := some high }
  | .homeDomain domain => { homeDomain := some domain }
  | .signer s => { signer := some s }

/-- The argument is in range, whatever else is given. -/
def InRange : Setting → Prop
  | .inflationDest _ => True
  | .clearFlags flags | .setFlags flags => flags &&& ~~~Limits.accountFlags = 0
  | .masterWeight weight => weight ≤ 255
  | .thresholds low med high => low ≤ 255 ∧ med ≤ 255 ∧ high ≤ 255
  | .homeDomain domain => domain.utf8ByteSize ≤ 32
  | .signer s => s.validate = .ok ()

instance : DecidablePred InRange
  | .inflationDest _ => .isTrue trivial
  | .clearFlags flags | .setFlags flags =>
      inferInstanceAs (Decidable (flags &&& ~~~Limits.accountFlags = 0))
  | .masterWeight weight => inferInstanceAs (Decidable (weight ≤ 255))
  | .thresholds low med high =>
      inferInstanceAs (Decidable (low ≤ 255 ∧ med ≤ 255 ∧ high ≤ 255))
  | .homeDomain domain => inferInstanceAs (Decidable (domain.utf8ByteSize ≤ 32))
  | .signer s => inferInstanceAs (Decidable (s.validate = .ok ()))

end Setting

/-- The fields of an operation, and under them those of an earlier one. -/
def overlay (later earlier : SetOptionsOp) : SetOptionsOp where
  inflationDest := later.inflationDest.or earlier.inflationDest
  clearFlags := later.clearFlags.or earlier.clearFlags
  setFlags := later.setFlags.or earlier.setFlags
  masterWeight := later.masterWeight.or earlier.masterWeight
  lowThreshold := later.lowThreshold.or earlier.lowThreshold
  medThreshold := later.medThreshold.or earlier.medThreshold
  highThreshold := later.highThreshold.or earlier.highThreshold
  homeDomain := later.homeDomain.or earlier.homeDomain
  signer := later.signer.or earlier.signer

/-- **An operation obeys the rules if each of its fields does.** -/
theorem validate_eq_ok_iff : op.validate = .ok () ↔
    (∀ flags ∈ op.clearFlags, flags &&& ~~~Limits.accountFlags = 0)
      ∧ (∀ flags ∈ op.setFlags, flags &&& ~~~Limits.accountFlags = 0)
      ∧ (∀ weight ∈ op.masterWeight, weight ≤ 255)
      ∧ (∀ weight ∈ op.lowThreshold, weight ≤ 255)
      ∧ (∀ weight ∈ op.medThreshold, weight ≤ 255)
      ∧ (∀ weight ∈ op.highThreshold, weight ≤ 255)
      ∧ (∀ domain ∈ op.homeDomain, domain.utf8ByteSize ≤ 32)
      ∧ ∀ s ∈ op.signer, s.validate = .ok () := by
  have hflags (field : String) (flags : UInt32) :
      checkFlags Limits.accountFlags field flags = .ok () ↔ flags &&& ~~~Limits.accountFlags = 0 :=
    provided_eq_ok_iff
  have hweight (field : String) (weight : UInt32) :
      checkWeight field weight = .ok () ↔ weight ≤ 255 := provided_eq_ok_iff
  have hdomain (domain : String) :
      checkHomeDomain domain = .ok () ↔ domain.utf8ByteSize ≤ 32 := by
    rw [checkHomeDomain, unless_eq_ok_iff, and_iff_left rfl]
    exact Nat.not_lt
  simp only [validate, seq_eq_ok_iff, whenPresent_eq_ok_iff, hflags, hweight, hdomain]

/-- **An argument is in range if what it gives obeys the rules by itself.** -/
theorem Setting.inRange_iff {s : Setting} : s.InRange ↔ s.given.validate = .ok () := by
  rw [validate_eq_ok_iff]
  cases s <;> simp [given, InRange]

/-- A field that passes is not seen by the validation of what is given over it. -/
theorem whenPresent_or {α : Type} {check : α → Except WireError Unit} {later earlier : Option α}
    (h : whenPresent check earlier = .ok ()) :
    whenPresent check (later.or earlier) = whenPresent check later := by
  cases later with
  | none => exact h
  | some a => rfl

/-- **Fields that passed once do not matter to a later validation**: it ends as that of the new
fields alone. -/
theorem validate_overlay {later earlier : SetOptionsOp} (h : earlier.validate = .ok ()) :
    (overlay later earlier).validate = later.validate := by
  obtain ⟨hclear, h⟩ := seq_eq_ok_iff.1 h
  obtain ⟨hset, h⟩ := seq_eq_ok_iff.1 h
  obtain ⟨hmaster, h⟩ := seq_eq_ok_iff.1 h
  obtain ⟨hlow, h⟩ := seq_eq_ok_iff.1 h
  obtain ⟨hmed, h⟩ := seq_eq_ok_iff.1 h
  obtain ⟨hhigh, h⟩ := seq_eq_ok_iff.1 h
  obtain ⟨hdomain, hsigner⟩ := seq_eq_ok_iff.1 h
  simp only [validate, overlay, whenPresent_or hclear, whenPresent_or hset, whenPresent_or hmaster,
    whenPresent_or hlow, whenPresent_or hmed, whenPresent_or hhigh, whenPresent_or hdomain,
    whenPresent_or hsigner]

/-- **One call on an operation that passed** is refused for what it gives, or puts it over the
rest. -/
theorem apply_eq (h : op.validate = .ok ()) (s : Setting) :
    op.apply s = s.given.validate.map fun _ => overlay s.given op := by
  have hchecked : checked validate (overlay s.given op)
      = s.given.validate.map fun _ => overlay s.given op := by
    rw [checked, validate_overlay h]
    cases s.given.validate <;> rfl
  cases s with
  -- This setter judges nothing; but it could only judge what has no rule or had passed before.
  | inflationDest account => rfl
  | _ => exact hchecked

/-! ### A chain of calls -/

/-- The operation that a chain of calls puts together. -/
def build (steps : List Setting) : Except WireError SetOptionsOp := steps.foldlM apply empty

/-- What a chain gives a field last, if it gives it anything. -/
def lastGiven {α : Type} (field : SetOptionsOp → Option α) (steps : List Setting) : Option α :=
  (steps.filterMap fun s => field s.given).getLast?

/-- Each field as the chain gives it last, and nothing in a field that it never gives. -/
def held (steps : List Setting) : SetOptionsOp where
  inflationDest := lastGiven inflationDest steps
  clearFlags := lastGiven clearFlags steps
  setFlags := lastGiven setFlags steps
  masterWeight := lastGiven masterWeight steps
  lowThreshold := lastGiven lowThreshold steps
  medThreshold := lastGiven medThreshold steps
  highThreshold := lastGiven highThreshold steps
  homeDomain := lastGiven homeDomain steps
  signer := lastGiven signer steps

/-- The last value given for a field is the new one, or else the one before. -/
theorem lastGiven_concat {α : Type} (field : SetOptionsOp → Option α) (steps : List Setting)
    (s : Setting) :
    lastGiven field (steps ++ [s]) = (field s.given).or (lastGiven field steps) := by
  unfold lastGiven
  rw [List.filterMap_append, List.getLast?_append]
  cases h : field s.given <;> simp [h]

/-- One more setting overlays what the settings before it left. -/
theorem held_concat (steps : List Setting) (s : Setting) :
    held (steps ++ [s]) = overlay s.given (held steps) := by
  simp only [held, overlay, lastGiven_concat]

/-- What is held obeys the rules if all that was given does. -/
theorem validate_held (h : ∀ s ∈ steps, s.InRange) : (held steps).validate = .ok () := by
  induction steps using List.reverseRecOn with
  | nil => rfl
  | append_singleton steps s ih =>
      have hsteps := ih fun t ht => h t (List.mem_append_left _ ht)
      rw [held_concat, validate_overlay hsteps]
      exact Setting.inRange_iff.1 (h s List.mem_concat_self)

/-- One more setting is applied to what the settings before it built. -/
theorem build_concat (steps : List Setting) (s : Setting) :
    build (steps ++ [s]) = build steps >>= fun op => op.apply s := by
  unfold build
  rw [List.foldlM_append]
  simp

/-- **A whole chain** judges what each call gives by itself, one after the other, and then holds the
last of it. By induction from the end: the calls before the last one left an operation that
passed. -/
theorem build_eq (steps : List Setting) :
    build steps = (steps.forM fun s => s.given.validate).map fun _ => held steps := by
  induction steps using List.reverseRecOn with
  | nil => rfl
  | append_singleton steps s ih =>
      have hlast : (steps ++ [s]).forM (fun s => s.given.validate) = (do
          steps.forM fun s => s.given.validate
          s.given.validate) := by
        simp only [List.forM_eq_forM, List.forM_append]
        simp
      rw [build_concat, ih, held_concat, hlast]
      cases hjudged : steps.forM fun s => s.given.validate with
      | error e => rfl
      | ok u =>
          have hpassed := forM_eq_ok_iff.1 hjudged
          have hheld := validate_held fun t ht => Setting.inRange_iff.2 (hpassed t ht)
          exact apply_eq hheld s

/-- **A sequence of settings builds** exactly if each is in its range, and it builds what they hold.
-/
theorem build_eq_ok_iff : build steps = .ok op ↔ (∀ s ∈ steps, s.InRange) ∧ held steps = op := by
  have hjudged : (∀ s ∈ steps, s.InRange) ↔ (steps.forM fun s => s.given.validate) = .ok () := by
    rw [forM_eq_ok_iff]
    exact forall₂_congr fun s _ => Setting.inRange_iff
  rw [build_eq, hjudged]
  cases steps.forM fun s => s.given.validate <;> simp [Except.map]

/-! ### Reordered chains -/

/-- The functions that put an operation together. -/
inductive Setter where
  | inflationDest | clearFlags | setFlags | masterWeight | thresholds | homeDomain | signer
  deriving DecidableEq, Repr

def Setting.setter : Setting → Setter
  | .inflationDest _ => .inflationDest
  | .clearFlags _ => .clearFlags
  | .setFlags _ => .setFlags
  | .masterWeight _ => .masterWeight
  | .thresholds _ _ _ => .thresholds
  | .homeDomain _ => .homeDomain
  | .signer _ => .signer

/-- The calls of a chain that are of one setter, in their order. -/
def callsOf (k : Setter) (steps : List Setting) : List Setting := steps.filter (·.setter = k)

/-- The same calls, where only those of different setters may have changed places. -/
def Reordering (steps others : List Setting) : Prop := ∀ k, callsOf k steps = callsOf k others

/-- **Two calls of different setters may change places.** -/
theorem Reordering.swap {s t : Setting} (hne : s.setter ≠ t.setter) (before after : List Setting) :
    Reordering (before ++ s :: t :: after) (before ++ t :: s :: after) := by
  intro k
  simp only [callsOf, List.filter_append, List.filter_cons]
  by_cases hs : s.setter = k
  · have ht : t.setter ≠ k := fun ht => hne (hs.trans ht.symm)
    simp [hs, ht]
  · simp [hs]

/-- A reordering drops no setting and adds none. -/
theorem Reordering.mem_iff (h : Reordering steps others) {s : Setting} :
    s ∈ steps ↔ s ∈ others := by
  have hmem (steps : List Setting) : s ∈ steps ↔ s ∈ callsOf s.setter steps := by
    simp [callsOf]
  rw [hmem steps, h, ← hmem others]

/-- Only the calls of its setter give a field something. -/
theorem lastGiven_callsOf {α : Type} {field : SetOptionsOp → Option α} {k : Setter}
    (hfield : ∀ s : Setting, s.setter ≠ k → field s.given = none) (steps : List Setting) :
    lastGiven field (callsOf k steps) = lastGiven field steps := by
  unfold lastGiven callsOf
  rw [List.filterMap_filter]
  congr 2
  funext s
  by_cases hs : s.setter = k
  · simp [hs]
  · simp [hs, hfield s hs]

/-- **Settings of different fields commute**, so a reordering holds the same fields. -/
theorem Reordering.held_eq (h : Reordering steps others) : held steps = held others := by
  have hlast {α : Type} {field : SetOptionsOp → Option α} (k : Setter)
      (hfield : ∀ s : Setting, s.setter ≠ k → field s.given = none) :
      lastGiven field steps = lastGiven field others := by
    rw [← lastGiven_callsOf hfield steps, h k, lastGiven_callsOf hfield others]
  simp only [held, mk.injEq]
  refine ⟨hlast .inflationDest ?_, hlast .clearFlags ?_, hlast .setFlags ?_, hlast .masterWeight ?_,
    hlast .thresholds ?_, hlast .thresholds ?_, hlast .thresholds ?_, hlast .homeDomain ?_,
    hlast .signer ?_⟩
  -- The other setters give the field nothing.
  all_goals
    intro s hs
    cases s <;> first | rfl | exact absurd rfl hs

/-- **Settings are independent.** A chain of calls succeeds exactly when each of its arguments is in
range by itself. Its operation then holds what was last given to each field and nothing else, obeys
the rules, is written, and is read as it was. Calls of different setters may change places: the
chain still succeeds if it did, with the same operation. -/
theorem settings_independent (steps : List Setting) :
    ((∃ op, build steps = .ok op) ↔ ∀ s ∈ steps, s.InRange)
      ∧ (∀ op, build steps = .ok op → op = held steps ∧ op.validate = .ok ()
        ∧ ∃ bytes, schema.wire.encode op = .ok bytes ∧ schema.wire.decode bytes = .ok op)
      ∧ ∀ others, Reordering steps others → ∀ op, build others = .ok op ↔ build steps = .ok op := by
  refine ⟨?_, fun op hop => ?_, fun others hothers op => ?_⟩
  · simp only [build_eq_ok_iff, exists_and_left, exists_eq', and_true]
  · obtain ⟨hrange, rfl⟩ := build_eq_ok_iff.1 hop
    have hvalid := validate_held hrange
    obtain ⟨bytes, hencode, hdecode⟩ := flat.read_of_writable (judged.writable hvalid)
    exact ⟨rfl, hvalid, bytes, hencode, hdecode Reader.defaultLimit⟩
  · simp only [build_eq_ok_iff, hothers.mem_iff, hothers.held_eq]

/-- Flags that are given twice, with thresholds before or after the second time; and a weight out of
range, which a later one does not mend. -/
theorem settings_independent_flags :
    (∃ op : SetOptionsOp, op.setFlags = some 3 ∧ op.highThreshold = some 7 ∧ op.signer = none
      ∧ build [.setFlags 1, .thresholds 1 4 7, .setFlags 3] = .ok op
      ∧ build [.setFlags 1, .setFlags 3, .thresholds 1 4 7] = .ok op
      ∧ ∃ bytes, schema.wire.encode op = .ok bytes ∧ schema.wire.decode bytes = .ok op)
    ∧ ¬∃ op, build [.masterWeight 256, .masterWeight 1] = .ok op := by
  constructor
  · obtain ⟨hsucceeds, hheld, hreordered⟩ :=
      settings_independent [.setFlags 1, .thresholds 1 4 7, .setFlags 3]
    obtain ⟨op, hop⟩ := hsucceeds.2 (by decide)
    have hswap := Reordering.swap (s := .thresholds 1 4 7) (t := .setFlags 3) nofun [.setFlags 1] []
    obtain ⟨rfl, -, hbytes⟩ := hheld op hop
    exact ⟨_, rfl, rfl, rfl, hop, (hreordered _ hswap _).2 hop, hbytes⟩
  · rw [(settings_independent [.masterWeight 256, .masterWeight 1]).1]
    decide

end LedgerWire.SetOptionsOp
