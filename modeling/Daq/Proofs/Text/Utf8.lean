import Daq.Text.Utf8
import Mathlib.Tactic.IntervalCases

set_option autoImplicit false

/-!
# Reading what was written in UTF-8

The octets of a text are well formed, and they are the octets of no other text. The octets of one
character are read off the front: its first octet leaves a partial character that says how many
octets are owed and between which bounds the next one lies, and the bounds admit exactly what the
character continues with.

## Main results

* `Daq.Text.Utf8.decodeFrom_encodeChar` — one character at the head of the octets.
* `Daq.Text.Utf8.decode?_encode` — a text is read back.
-/

namespace Daq.Text.Utf8

/-! ### Octets of one character -/

/-- The first of two octets. -/
lemma start_two {q : Nat} (h : 2 ≤ q) (h' : q < 32) :
    start (0xC0 + q) = ([], some ⟨q, 1, 0x80, 0xBF⟩) := by
  have hlow : ¬ 0xC0 + q < 0x80 := by omega
  have hin : 0xC2 ≤ 0xC0 + q ∧ 0xC0 + q ≤ 0xDF := by omega
  rw [start, if_neg hlow, if_pos hin]
  simp

/-- The first of three octets: the next one may not spell a shorter character or a surrogate. -/
lemma start_three {q : Nat} (h : q < 16) :
    start (0xE0 + q) =
      ([], some ⟨q, 2, if q = 0 then 0xA0 else 0x80, if q = 13 then 0x9F else 0xBF⟩) := by
  interval_cases q <;> rfl

/-- The first of four octets: the next one may not spell a shorter character or leave the range. -/
lemma start_four {q : Nat} (h : q < 5) :
    start (0xF0 + q) =
      ([], some ⟨q, 3, if q = 0 then 0x90 else 0x80, if q = 4 then 0x8F else 0xBF⟩) := by
  interval_cases q <;> rfl

/-- The last octet completes a character. -/
lemma decodeFrom_last {bits least greatest d : Nat} (hl : least ≤ 0x80 + d)
    (hg : 0x80 + d ≤ greatest) (rest : List Nat) :
    decodeFrom (some ⟨bits, 1, least, greatest⟩) ((0x80 + d) :: rest) =
      Char.ofNat (0x40 * bits + d) :: decodeFrom none rest := by
  rw [decodeFrom, step, if_pos ⟨hl, hg⟩]
  simp

/-- An octet before the last one adds its bits. -/
lemma decodeFrom_more {bits owed least greatest d : Nat} (hl : least ≤ 0x80 + d)
    (hg : 0x80 + d ≤ greatest) (rest : List Nat) :
    decodeFrom (some ⟨bits, owed + 2, least, greatest⟩) ((0x80 + d) :: rest) =
      decodeFrom (some ⟨0x40 * bits + d, owed + 1, 0x80, 0xBF⟩) rest := by
  rw [decodeFrom, step, if_pos ⟨hl, hg⟩]
  simp

/-- The first octet of several leaves a partial character. -/
lemma decodeFrom_start {b : Nat} {p : Partial} (h : start b = ([], some p)) (rest : List Nat) :
    decodeFrom none (b :: rest) = decodeFrom (some p) rest := by
  rw [decodeFrom, step, h]
  rfl

/-- **The octets of a character are read as the character.** -/
lemma decodeFrom_encodeChar (c : Char) (rest : List Nat) :
    decodeFrom none (encodeChar c ++ rest) = c :: decodeFrom none rest := by
  have hvalid : c.toNat < 0xD800 ∨ 0xDFFF < c.toNat ∧ c.toNat < 0x110000 := c.valid
  have hback := Char.ofNat_toNat c
  unfold encodeChar
  generalize c.toNat = n at hvalid hback ⊢
  dsimp only
  split
  · rename_i h1
    rw [List.singleton_append, decodeFrom, step, start, if_pos h1, hback]
    rfl
  split
  · simp only [List.cons_append, List.nil_append]
    rw [decodeFrom_start (start_two (by omega) (by omega)),
      decodeFrom_last (by omega) (by omega)]
    rw [show 0x40 * (n / 0x40) + n % 0x40 = n by omega, hback]
  split
  · simp only [List.cons_append, List.nil_append]
    rw [decodeFrom_start (start_three (by omega)),
      decodeFrom_more (by split <;> omega) (by split <;> omega),
      decodeFrom_last (by omega) (by omega)]
    rw [show 0x40 * (0x40 * (n / 0x1000) + n / 0x40 % 0x40) + n % 0x40 = n by omega, hback]
  · simp only [List.cons_append, List.nil_append]
    rw [decodeFrom_start (start_four (by omega)),
      decodeFrom_more (by split <;> omega) (by split <;> omega),
      decodeFrom_more (by omega) (by omega), decodeFrom_last (by omega) (by omega)]
    rw [show 0x40 * (0x40 * (0x40 * (n / 0x40000) + n / 0x1000 % 0x40) + n / 0x40 % 0x40) +
      n % 0x40 = n by omega, hback]

/-! ### Texts -/

/-- The octets of a text are read as the text. -/
lemma decode_encode (s : List Char) : decode (encode s) = s := by
  unfold decode encode
  induction s with
  | nil => rfl
  | cons c s ih => rw [List.flatMap_cons, decodeFrom_encodeChar, ih]

/-- **A text that was written is read back.** -/
theorem decode?_encode (s : List Char) : decode? (encode s) = some s := by
  rw [decode?, decode_encode, if_pos rfl]

end Daq.Text.Utf8
