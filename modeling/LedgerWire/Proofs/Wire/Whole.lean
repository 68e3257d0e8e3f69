/-
# Whole byte strings

What the laws of regular codecs say about a byte string that is decoded as a whole. The nesting
limit is the room at the start of the input, so everything here asks for a codec that is regular
down to the limit.

* `Regular.decode_eq_ok_iff` — decoding gives the value that is read from exactly these bytes.
* `Regular.get_append`, `Regular.decode_append` — bytes behind a value stay unread, and are refused.
* `Regular.decode_of_proper_prefix` — a part of a value's bytes ends too early.
* `Regular.decode_of_encode` — what is encoded decodes to the same value.
* `Regular.decode_injective`, `Regular.encode_of_decode` — what decodes is the value's one encoding.
* `Regular.encode_injective` — and no other value's, at any depth.
* `ofBase64_eq_ok_iff`, `toBase64_eq_ok_iff` — the same byte strings stand behind a text.
-/

import LedgerWire.Proofs.Text.Base64
import LedgerWire.Proofs.Wire.Regular

namespace LedgerWire.Codec

variable {α : Type} {c : Codec α} {k limit : Nat} {f : α → Nat} {a : α} {p q s : Bytes}

/-! ### The end of the input -/

/-- Of the bytes that a value leaves, decoding says how many there are. -/
theorem decode_of_get {r : Reader} (h : c.get ⟨p, 0, limit⟩ = (.ok a, r)) :
    c.decode p limit
      = if r.unread = [] then .ok a else .error (.trailingBytes r.unread.length) := by
  unfold decode Reader.start
  rw [Attempt.bind_apply, h]
  obtain ⟨unread, depth, limit⟩ := r
  cases unread with
  | nil => rfl
  | cons b rest => rfl

/-- An error of the reading is an error of the decoding. -/
theorem decode_of_get_error {r : Reader} {e : WireError} (h : c.get ⟨p, 0, limit⟩ = (.error e, r)) :
    c.decode p limit = .error e := by
  unfold decode Reader.start
  rw [Attempt.bind_apply, h]

/-- **Decoding gives the value that is read from exactly these bytes.** -/
theorem decode_eq_ok_iff (hc : c.get.Framed limit) :
    c.decode p limit = .ok a ↔ c.get.Reads limit p a := by
  constructor
  · intro h
    rcases hget : c.get ⟨p, 0, limit⟩ with ⟨b | e, r⟩
    · rw [decode_of_get_error hget] at h
      cases h
    · rw [decode_of_get hget] at h
      obtain ⟨front, rest, rfl, rfl, hreads, -⟩ := hc.split (Nat.sub_zero limit) hget
      by_cases hrest : rest = []
      · subst hrest
        cases h
        simpa using hreads
      · rw [if_neg hrest] at h
        cases h
  · intro h
    have hget := h 0 limit [] (Nat.sub_zero limit)
    rw [List.append_nil] at hget
    rw [decode_of_get hget, if_pos rfl]

namespace Regular

/-! ### Where a value ends -/

/-- **A value is decoded** exactly from the bytes that it is read from, whole. -/
theorem decode_eq_ok_iff (h : Regular k c f) (hk : limit ≤ k) :
    c.decode p limit = .ok a ↔ c.get.Reads limit p a :=
  Codec.decode_eq_ok_iff (h.aligned hk).toFramed

/-- **Bytes behind a value stay unread.** -/
theorem get_append (h : Regular k c f) (hk : limit ≤ k) (hp : c.decode p limit = .ok a) :
    c.get ⟨p ++ s, 0, limit⟩ = (.ok a, ⟨s, 0, limit⟩) :=
  (h.decode_eq_ok_iff hk).1 hp 0 limit s (Nat.sub_zero limit)

/-- **Bytes behind a value are refused.** -/
theorem decode_append (h : Regular k c f) (hk : limit ≤ k) (hp : c.decode p limit = .ok a)
    (hs : s ≠ []) : c.decode (p ++ s) limit = .error (.trailingBytes s.length) := by
  rw [decode_of_get (h.get_append hk hp), if_neg hs]

/-- **A part of a value's bytes ends too early.** -/
theorem decode_of_proper_prefix (h : Regular k c f) (hk : limit ≤ k) (hp : c.decode p limit = .ok a)
    (hq : q <+: p) (hne : q ≠ p) : ∃ needed remaining, remaining < needed ∧
      c.decode q limit = .error (.unexpectedEnd needed remaining) := by
  have hstarves := (h.aligned hk).toFramed.starves ((h.decode_eq_ok_iff hk).1 hp)
  obtain ⟨needed, remaining, r, hlt, hget⟩ := hstarves q hq hne 0 limit (Nat.sub_zero limit)
  exact ⟨needed, remaining, hlt, decode_of_get_error hget⟩

/-- What is decoded has whole words. -/
theorem dvd_length_of_decode (h : Regular k c f) (hk : limit ≤ k) (hp : c.decode p limit = .ok a) :
    4 ∣ p.length :=
  (h.aligned hk).dvd_length ((h.decode_eq_ok_iff hk).1 hp)

/-! ### The one encoding of a value -/

/-- **What is encoded decodes to the same value**, unless it is nested too deep for the limit. -/
theorem decode_of_encode (h : Regular k c f) (hk : limit ≤ k) (ha : f a ≤ limit)
    (hp : c.encode a = .ok p) : c.decode p limit = .ok a := by
  have hwrites := (encode_eq_ok_iff (h.steady (Nat.le_trans ha hk))).1 hp
  exact (h.decode_eq_ok_iff hk).2 (h.reads_of_writes hk ha hwrites)

/-- **A value is decoded from one byte string only.** -/
theorem decode_injective (h : Regular k c f) (hk : limit ≤ k) (hp : c.decode p limit = .ok a)
    (hq : c.decode q limit = .ok a) : p = q :=
  h.bytes_unique hk hk ((h.decode_eq_ok_iff hk).1 hp) ((h.decode_eq_ok_iff hk).1 hq)

/-- **A byte string is the encoding of one value only**, however deep values are nested: there is a
limit with room for both. -/
theorem encode_injective (h : ∀ k, Regular k c f) {b : α} (ha : c.encode a = .ok p)
    (hb : c.encode b = .ok p) : a = b := by
  have hread := (h (max (f a) (f b))).decode_of_encode (Nat.le_refl _) (Nat.le_max_left ..) ha
  rw [(h _).decode_of_encode (Nat.le_refl _) (Nat.le_max_right ..) hb] at hread
  exact (Except.ok.inj hread).symm

/-- What is decoded nests within the limit. -/
theorem nesting_le_of_decode (h : Regular k c f) (hk : limit ≤ k)
    (hp : c.decode p limit = .ok a) : f a ≤ limit :=
  h.nesting_le hk ((h.decode_eq_ok_iff hk).1 hp)

/-- **A value that was decoded is encoded as it was**, if it is encoded at all. -/
theorem encode_of_decode (h : Regular k c f) (hk : limit ≤ k) (hp : c.decode p limit = .ok a)
    (hq : c.encode a = .ok q) : q = p :=
  h.decode_injective hk (h.decode_of_encode hk (h.nesting_le_of_decode hk hp) hq) hp

/-- All that keeps a decoded value from being encoded is a broken rule. -/
theorem isValidation_of_decode (h : Regular k c f) (hk : limit ≤ k)
    (hp : c.decode p limit = .ok a) {e : WireError} (he : c.encode a = .error e) :
    e.IsValidation :=
  isValidation_of_encode (h.steady (Nat.le_trans (h.nesting_le_of_decode hk hp) hk)) he

end Regular

/-! ### Texts in base 64 -/

/-- The text of a value is that of its bytes. -/
theorem toBase64_eq_ok_iff {t : String} :
    c.toBase64 a = .ok t ↔ ∃ p, c.encode a = .ok p ∧ Base64.encode p = t := by
  unfold toBase64
  cases c.encode a with
  | error e => simp [Except.map]
  | ok p => simp [Except.map]

/-- There is no text exactly if there are no bytes, and for the same error. -/
theorem toBase64_eq_error_iff {e : WireError} :
    c.toBase64 a = .error e ↔ c.encode a = .error e := by
  unfold toBase64
  cases c.encode a with
  | error e' => simp [Except.map]
  | ok p => simp [Except.map]

/-- **A text is read exactly when it is, between blanks, the text of bytes that are.** -/
theorem ofBase64_eq_ok_iff {t : String} :
    c.ofBase64 t = .ok a ↔ ∃ p, Text.trim t = Base64.encode p ∧ c.decode p = .ok a := by
  unfold ofBase64
  cases hbytes : Base64.decode? (Text.trim t) with
  | none =>
      constructor
      · intro h
        cases h
      · rintro ⟨p, ht, -⟩
        rw [Base64.decode?_eq_some_iff.2 ht] at hbytes
        cases hbytes
  -- The decoder takes one spelling of the bytes, so they are the ones that were meant.
  | some bytes =>
      constructor
      · intro h
        exact ⟨bytes, Base64.decode?_eq_some_iff.1 hbytes, h⟩
      · rintro ⟨p, ht, hp⟩
        obtain rfl : p = bytes := by
          rw [Base64.decode?_eq_some_iff.2 ht] at hbytes
          exact Option.some.inj hbytes
        exact hp

end LedgerWire.Codec
