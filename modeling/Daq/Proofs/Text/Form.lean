import Daq.Proofs.Text.Utf8
import Daq.Text.Form
import Mathlib.Data.List.Basic
import Mathlib.Data.List.Infix

set_option autoImplicit false

/-!
# Reading form-encoded pairs

The pairs that were written are read back, whatever their characters are. Character by character,
what was written decodes to the octets of the character; the separators are written for nothing
else, so cutting at them finds the parts again.

Plus signs are turned into spaces before percent signs are read. A plus sign that is meant is
written with a percent sign, so the order of the two steps matters.

## Main definitions

* `Daq.Text.Form.isWritten` — the characters of written names and values.

## Main results

* `Daq.Text.Form.decodeText_encodeText` — a name or value is read back.
* `Daq.Text.Form.decode_encode` — so is a list of pairs.
-/

namespace Daq.Text

/-! ### Octets -/

namespace Utf8

/-- The octets of a text of one-octet characters. -/
lemma encode_ascii {s : List Char} (h : ∀ c ∈ s, c.toNat < 0x80) : encode s = s.map Char.toNat := by
  unfold encode
  induction s with
  | nil => rfl
  | cons c s ih =>
    have hc : encodeChar c = [c.toNat] := by
      rw [encodeChar, if_pos (h c List.mem_cons_self)]
    rw [List.flatMap_cons, hc, ih fun d hd => h d (List.mem_cons_of_mem _ hd)]
    rfl

/-- Octets are octets. -/
lemma lt_of_mem_encodeChar {c : Char} {b : Nat} (h : b ∈ encodeChar c) : b < 256 := by
  have hvalid : c.toNat < 0xD800 ∨ 0xDFFF < c.toNat ∧ c.toNat < 0x110000 := c.valid
  unfold encodeChar at h
  generalize c.toNat = n at hvalid h
  dsimp only at h
  split at h
  · simp only [List.mem_singleton] at h
    omega
  split at h
  · simp only [List.mem_cons, List.not_mem_nil, or_false] at h
    omega
  split at h
  · simp only [List.mem_cons, List.not_mem_nil, or_false] at h
    omega
  · simp only [List.mem_cons, List.not_mem_nil, or_false] at h
    omega

end Utf8

namespace Percent

/-- A digit says its value. -/
lemma hexValue?_hexDigit : ∀ n < 16, hexValue? (hexDigit n).toNat = some n := by decide

/-- An octet that is no percent sign is left alone. -/
lemma decode_cons {a : Nat} (h : a ≠ 0x25) (rest : List Nat) :
    decode (a :: rest) = a :: decode rest := by
  match rest with
  | [] => rfl
  | [_] => rfl
  | _ :: _ :: _ => rw [decode, if_neg h]

/-- An octet that was written is read. -/
lemma decode_encodeOctet {b : Nat} (h : b < 256) (rest : List Nat) :
    decode ((encodeOctet b).map Char.toNat ++ rest) = b :: decode rest := by
  have hsign : Char.toNat '%' = 0x25 := rfl
  have hvalue : 16 * (b / 16) + b % 16 = b := Nat.div_add_mod b 16
  simp only [encodeOctet, List.map_cons, List.map_nil, List.cons_append, List.nil_append]
  rw [decode, if_pos hsign, hexValue?_hexDigit _ (by omega), hexValue?_hexDigit _ (by omega)]
  simp only [hvalue]

end Percent

namespace Form

/-! ### Written characters -/

/-- Whether a character stands in written names and values. -/
def isWritten (c : Char) : Bool := isKept c || c == '+' || c == '%'

/-- Letters and digits lie between the digit zero and the last small letter. -/
lemma isAlphanum_bounds {c : Char} (h : c.isAlphanum = true) : 0x30 ≤ c.toNat ∧ c.toNat ≤ 0x7A := by
  change (decide (65 ≤ c.val ∧ c.val ≤ 90) || (decide (97 ≤ c.val) && decide (c.val ≤ 122)) ||
    (decide (48 ≤ c.val) && decide (c.val ≤ 57))) = true at h
  simp only [Bool.or_eq_true, Bool.and_eq_true, decide_eq_true_eq, UInt32.le_iff_toNat_le] at h
  change ((65 ≤ c.toNat ∧ c.toNat ≤ 90) ∨ (97 ≤ c.toNat ∧ c.toNat ≤ 122)) ∨
    (48 ≤ c.toNat ∧ c.toNat ≤ 57) at h
  omega

/-- Written characters are visible one-octet characters, and no separators. -/
lemma isWritten_bounds {c : Char} (h : isWritten c = true) :
    0x20 < c.toNat ∧ c.toNat < 0x80 ∧ c ≠ '&' ∧ c ≠ '=' ∧ c ≠ '#' := by
  refine ⟨?_, ?_, ?_, ?_, ?_⟩
  · simp only [isWritten, isKept, Bool.or_eq_true, beq_iff_eq] at h
    rcases h with (((((h | rfl) | rfl) | rfl) | rfl) | rfl) | rfl
    · have hbounds := isAlphanum_bounds h
      omega
    all_goals decide
  · simp only [isWritten, isKept, Bool.or_eq_true, beq_iff_eq] at h
    rcases h with (((((h | rfl) | rfl) | rfl) | rfl) | rfl) | rfl
    · have hbounds := isAlphanum_bounds h
      omega
    all_goals decide
  all_goals
    rintro rfl
    cases h

/-- Digits are kept. -/
lemma isKept_hexDigit : ∀ n < 16, isKept (Percent.hexDigit n) = true := by decide

/-- An octet is written in written characters. -/
lemma isWritten_of_mem_encodeOctet {b : Nat} (hb : b < 256) {c : Char}
    (h : c ∈ Percent.encodeOctet b) : isWritten c = true := by
  simp only [Percent.encodeOctet, List.mem_cons, List.not_mem_nil, or_false] at h
  rcases h with rfl | rfl | rfl
  · rfl
  · rw [isWritten, isKept_hexDigit _ (by omega)]
    rfl
  · rw [isWritten, isKept_hexDigit _ (by omega)]
    rfl

/-- A name or value is written in written characters. -/
lemma isWritten_of_mem_encodeText {s : List Char} {c : Char} (h : c ∈ encodeText s) :
    isWritten c = true := by
  obtain ⟨d, -, hd⟩ := List.mem_flatMap.mp h
  unfold encodeChar at hd
  split at hd
  · rename_i hkept
    rw [List.mem_singleton.mp hd, isWritten, hkept]
    rfl
  · split at hd
    · rw [List.mem_singleton.mp hd]
      rfl
    · obtain ⟨b, hb, hc⟩ := List.mem_flatMap.mp hd
      exact isWritten_of_mem_encodeOctet (Utf8.lt_of_mem_encodeChar hb) hc

/-! ### Names and values -/

/-- An octet of a text in which plus signs stand for spaces. -/
def unplus (b : Nat) : Nat := if b = 0x2B then 0x20 else b

/-- No digit is a plus sign. -/
lemma unplus_hexDigit : ∀ n < 16, unplus (Percent.hexDigit n).toNat = (Percent.hexDigit n).toNat := by
  decide

/-- An octet is not written with a plus sign. -/
lemma unplus_encodeOctet {b : Nat} (h : b < 256) :
    ((Percent.encodeOctet b).map Char.toNat).map unplus = (Percent.encodeOctet b).map Char.toNat := by
  have hsign : unplus (Char.toNat '%') = Char.toNat '%' := rfl
  simp only [Percent.encodeOctet, List.map_cons, List.map_nil, hsign,
    unplus_hexDigit _ (by omega : b / 16 < 16), unplus_hexDigit _ (by omega : b % 16 < 16)]

/-- Octets that were written are read. -/
lemma decode_encodeOctets {bs : List Nat} (h : ∀ b ∈ bs, b < 256) (rest : List Nat) :
    Percent.decode (((bs.flatMap Percent.encodeOctet).map Char.toNat ++ rest).map unplus) =
      bs ++ Percent.decode (rest.map unplus) := by
  induction bs with
  | nil => rfl
  | cons b bs ih =>
    have hb := h b List.mem_cons_self
    have hrest := ih fun d hd => h d (List.mem_cons_of_mem _ hd)
    rw [List.flatMap_cons, List.map_append (f := Char.toNat), List.append_assoc, List.map_append,
      unplus_encodeOctet hb, Percent.decode_encodeOctet hb, hrest]
    rfl

/-- **What was written for a character is read as its octets.** -/
lemma decode_encodeChar (c : Char) (rest : List Nat) :
    Percent.decode (((encodeChar c).map Char.toNat ++ rest).map unplus) =
      Utf8.encodeChar c ++ Percent.decode (rest.map unplus) := by
  unfold encodeChar
  split
  · rename_i hkept
    have hlow : c.toNat < 0x80 := (isWritten_bounds (by rw [isWritten, hkept]; rfl)).2.1
    have hoctets : Utf8.encodeChar c = [c.toNat] := by rw [Utf8.encodeChar, if_pos hlow]
    have hplus : unplus c.toNat = c.toNat := by
      refine if_neg fun h => ?_
      rw [← Char.ofNat_toNat c, h] at hkept
      cases hkept
    have hsign : c.toNat ≠ 0x25 := by
      intro h
      rw [← Char.ofNat_toNat c, h] at hkept
      cases hkept
    simp only [List.map_cons, List.map_nil, List.singleton_append, hoctets, hplus]
    exact Percent.decode_cons hsign _
  · split
    · rename_i hspace
      rw [hspace]
      exact Percent.decode_cons (by decide) _
    · exact decode_encodeOctets (fun b hb => Utf8.lt_of_mem_encodeChar hb) rest

/-- What was written for a text is read as its octets. -/
lemma decode_map_encodeText (s : List Char) :
    Percent.decode (((encodeText s).map Char.toNat).map unplus) = Utf8.encode s := by
  unfold encodeText Utf8.encode
  induction s with
  | nil => rfl
  | cons c s ih => rw [List.flatMap_cons, List.map_append, decode_encodeChar, ih, List.flatMap_cons]

/-- **A name or value is read back.** -/
lemma decodeText_encodeText (s : List Char) : decodeText ((encodeText s).map Char.toNat) = s := by
  have hread : Percent.decode (((encodeText s).map Char.toNat).map
      fun b => if b = 0x2B then 0x20 else b) = Utf8.encode s := decode_map_encodeText s
  rw [decodeText, hread, Utf8.decode_encode]

/-! ### Pairs -/

/-- Written characters and octets that are not among them. -/
lemma not_mem_encodeText {s : List Char} {d : Char} (hd : isWritten d = false) : d ∉ encodeText s := by
  intro h
  rw [isWritten_of_mem_encodeText h] at hd
  cases hd

/-- Characters with the same octet are the same. -/
lemma toNat_not_mem {s : List Char} {d : Char} (hd : d ∉ s) : d.toNat ∉ s.map Char.toNat := by
  intro h
  obtain ⟨c, hc, heq⟩ := List.mem_map.mp h
  rw [← Char.ofNat_toNat d, ← heq, Char.ofNat_toNat] at hd
  exact hd hc

/-- **A pair is read back.** -/
lemma decodePair_encodePair (p : List Char × List Char) :
    decodePair ((encodePair p).map Char.toNat) = p := by
  have hsep : ∀ b ∈ (encodeText p.1).map Char.toNat, decide (b ≠ 0x3D) = true := by
    intro b hb
    have hnot : Char.toNat '=' ∉ (encodeText p.1).map Char.toNat :=
      toNat_not_mem (not_mem_encodeText rfl)
    refine decide_eq_true fun h => hnot ?_
    have hequal : Char.toNat '=' = b := h.symm
    rw [hequal]
    exact hb
  rw [encodePair, List.map_append, List.map_cons, decodePair, List.takeWhile_append_of_pos hsep,
    List.dropWhile_append_of_pos hsep]
  have hequal : Char.toNat '=' = 0x3D := rfl
  simp only [hequal, ne_eq, decide_not, List.takeWhile_cons, List.dropWhile_cons, decide_true,
    Bool.not_true, Bool.false_eq_true, if_false, List.append_nil, List.drop_succ_cons,
    List.drop_zero, decodeText_encodeText]

/-- The characters of a written pair. -/
lemma mem_encodePair {p : List Char × List Char} {c : Char} (h : c ∈ encodePair p) :
    isWritten c = true ∨ c = '=' := by
  rcases List.mem_append.mp h with h | h
  · exact .inl (isWritten_of_mem_encodeText h)
  · rcases List.mem_cons.mp h with h | h
    · exact .inr h
    · exact .inl (isWritten_of_mem_encodeText h)

/-- The characters of written pairs. -/
lemma mem_encode {pairs : List (List Char × List Char)} {c : Char} (h : c ∈ encode pairs) :
    isWritten c = true ∨ c = '=' ∨ c = '&' := by
  unfold encode at h
  induction pairs with
  | nil => cases h
  | cons p pairs ih =>
    cases pairs with
    | nil =>
      rw [List.map_singleton, List.intercalate_singleton] at h
      rcases mem_encodePair h with h | h
      · exact .inl h
      · exact .inr (.inl h)
    | cons q pairs =>
      rw [List.map_cons, List.map_cons, List.intercalate_cons_cons, List.mem_append,
        List.mem_append, List.mem_singleton] at h
      rcases h with (h | h) | h
      · rcases mem_encodePair h with h | h
        · exact .inl h
        · exact .inr (.inl h)
      · exact .inr (.inr h)
      · exact ih h

/-- Written pairs are visible one-octet characters, and no fragment starts in them. -/
lemma encode_bounds {pairs : List (List Char × List Char)} {c : Char} (h : c ∈ encode pairs) :
    0x20 < c.toNat ∧ c.toNat < 0x80 ∧ c ≠ '#' := by
  rcases mem_encode h with h | rfl | rfl
  · obtain ⟨hlow, hhigh, -, -, hmark⟩ := isWritten_bounds h
    exact ⟨hlow, hhigh, hmark⟩
  · decide
  · decide

/-- The octets of written pairs. -/
lemma utf8_encode (pairs : List (List Char × List Char)) :
    Utf8.encode (encode pairs) =
      [0x26].intercalate (pairs.map fun p => (encodePair p).map Char.toNat) := by
  rw [Utf8.encode_ascii fun c hc => (encode_bounds hc).2.1]
  unfold encode
  induction pairs with
  | nil => rfl
  | cons p pairs ih =>
    cases pairs with
    | nil => simp only [List.map_singleton, List.intercalate_singleton]
    | cons q pairs =>
      simp only [List.map_cons, List.intercalate_cons_cons, List.map_append, List.map_nil] at ih ⊢
      rw [ih]
      rfl

/-- **Pairs that were written are read back.** -/
theorem decode_encode (pairs : List (List Char × List Char)) : decode (encode pairs) = pairs := by
  cases hpairs : pairs with
  | nil => rfl
  | cons p rest =>
    rw [← hpairs]
    have hparts : (Utf8.encode (encode pairs)).splitOn 0x26 =
        pairs.map fun p => (encodePair p).map Char.toNat := by
      rw [utf8_encode]
      apply List.splitOn_intercalate
      · intro part hpart
        obtain ⟨q, -, rfl⟩ := List.mem_map.mp hpart
        refine toNat_not_mem (d := '&') fun h => ?_
        rcases mem_encodePair h with h | h <;> cases h
      · rw [hpairs]
        simp
    have hfull : ∀ part ∈ pairs.map fun p => (encodePair p).map Char.toNat,
        (!part.isEmpty) = true := by
      intro part hpart
      obtain ⟨q, -, rfl⟩ := List.mem_map.mp hpart
      simp [encodePair]
    rw [decode, hparts, List.filter_eq_self.mpr hfull, List.map_map]
    have hback : (decodePair ∘ fun p => (encodePair p).map Char.toNat) = id := by
      funext q
      exact decodePair_encodePair q
    rw [hback, List.map_id]

end Form

end Daq.Text
