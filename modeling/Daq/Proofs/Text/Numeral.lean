import Daq.Text.Blank
import Daq.Text.Numeral
import Mathlib.Data.List.DropRight

set_option autoImplicit false

/-!
# Numerals and their reading

A numeral is an optional plus sign and at least one ASCII digit; it says a number by the values of
its digits. Exactly the numerals of numbers below the bound are read, and any other text is refused
for a reason that its leading digits tell. The numeral of a number is read as the number if that
stays below the bound, and is too large otherwise. Blanks do not matter, since a numeral has none.

## Main definitions

* `Daq.Text.Numeral.Says` — a text is a numeral of a number.
* `Daq.Text.Numeral.reason` — why a text says no number below a bound.

## Main results

* `Daq.Text.Numeral.read_eq_ok_iff`, `Daq.Text.Numeral.read_eq_error_iff` — what is read, and what
  is refused for which reason.
* `Daq.Text.Numeral.read_render` — a numeral that was written is read back, or is too large.
-/

namespace Daq.Text.Numeral

/-! ### What a numeral says -/

/-- The text is a numeral of `n`: ASCII digits with the value `n`, of which the first may be zeros,
after an optional plus sign. -/
def Says (s : List Char) (n : Nat) : Prop :=
  ∃ ds : List Char, (s = ds ∨ s = '+' :: ds) ∧ ds ≠ [] ∧ (∀ c ∈ ds, c.isDigit = true) ∧
    Nat.ofDigitChars 10 ds 0 = n

/-- A text without the plus sign in front. -/
def unsigned : List Char → List Char
  | '+' :: rest => rest
  | s => s

/-- Why a text says no number below `bound`: it is empty, or its leading digits say a number that
is too large, or they are followed by something else or missing. -/
def reason (bound : Nat) (s : List Char) : Fault :=
  if s = [] then .empty
  else if Nat.ofDigitChars 10 ((unsigned s).takeWhile Char.isDigit) 0 < bound then .invalidDigit
  else .tooLarge

/-- Only a plus sign is removed. -/
lemma unsigned_of_ne {c : Char} {s : List Char} (hc : c ≠ '+') : unsigned (c :: s) = c :: s := by
  unfold unsigned
  split
  · rename_i heq
    exact absurd (List.cons.inj heq).1 hc
  · rfl

/-- A numeral is a text that has digits only, and at least one, after its sign is removed. -/
lemma says_iff {s : List Char} {n : Nat} :
    Says s n ↔ unsigned s ≠ [] ∧ (∀ c ∈ unsigned s, c.isDigit = true) ∧
      Nat.ofDigitChars 10 (unsigned s) 0 = n := by
  constructor
  · rintro ⟨ds, rfl | rfl, hne, hdigits, hvalue⟩
    · -- A digit is no sign, so nothing is removed.
      cases hs : s with
      | nil => exact absurd hs hne
      | cons c rest =>
        have hc : c ≠ '+' := by
          rintro rfl
          exact absurd (hdigits '+' (by simp [hs])) (by decide)
        rw [unsigned_of_ne hc, ← hs]
        exact ⟨hne, hdigits, hvalue⟩
    · exact ⟨hne, hdigits, hvalue⟩
  · rintro ⟨hne, hdigits, hvalue⟩
    refine ⟨unsigned s, ?_, hne, hdigits, hvalue⟩
    unfold unsigned
    split
    · exact .inr rfl
    · exact .inl rfl

/-- A numeral says one number. -/
lemma Says.unique {s : List Char} {m n : Nat} (hm : Says s m) (hn : Says s n) : m = n :=
  (says_iff.mp hm).2.2.symm.trans (says_iff.mp hn).2.2

/-! ### Reading -/

/-- Digits are ASCII digits. -/
lemma digit?_eq (c : Char) :
    digit? c = if c.isDigit then some (c.toNat - '0'.toNat) else none := by
  simp only [digit?, Char.isDigit, Bool.and_eq_true, decide_eq_true_eq]
  rfl

/-- More digits do not make a number smaller. -/
lemma le_ofDigitChars (n : Nat) (ds : List Char) : n ≤ Nat.ofDigitChars 10 ds n := by
  induction ds generalizing n with
  | nil => exact Nat.le_refl n
  | cons c ds ih =>
    rw [Nat.ofDigitChars_cons]
    exact Nat.le_trans (by omega) (ih _)

/-- **Digits are read up to the first other character**, unless they reach the bound before. -/
lemma readDigits_eq {bound acc : Nat} (hacc : acc < bound) (s : List Char) :
    readDigits bound acc s =
      if Nat.ofDigitChars 10 (s.takeWhile Char.isDigit) acc < bound then
        if s.all Char.isDigit then .ok (Nat.ofDigitChars 10 s acc) else .error .invalidDigit
      else .error .tooLarge := by
  induction s generalizing acc with
  | nil => simp [readDigits, hacc]
  | cons c s ih =>
    rw [readDigits, digit?_eq]
    by_cases hc : c.isDigit = true
    · simp only [hc, if_true, List.takeWhile_cons, List.all_cons, Bool.true_and,
        Nat.ofDigitChars_cons]
      by_cases hstep : 10 * acc + (c.toNat - '0'.toNat) < bound
      · rw [if_pos hstep]
        exact ih hstep
      · have hgrows := le_ofDigitChars (10 * acc + (c.toNat - '0'.toNat)) (s.takeWhile Char.isDigit)
        rw [if_neg hstep, if_neg (by omega)]
    · simp [hc, hacc]

/-- Without its sign a text is read as digits, of which there has to be one. -/
lemma read_eq {s : List Char} (hs : s ≠ []) (bound : Nat) :
    read bound s =
      if unsigned s = [] then .error .invalidDigit else readDigits bound 0 (unsigned s) := by
  cases s with
  | nil => exact absurd rfl hs
  | cons c rest =>
    by_cases hc : c = '+'
    · subst hc
      cases rest with
      | nil => rfl
      | cons d rest => rfl
    · rw [unsigned_of_ne hc, if_neg (List.cons_ne_nil c rest), read]
      · simp
      · intro h
        exact hc (List.cons.inj h).1
      · intro more h
        exact hc (List.cons.inj h).1

/-- What becomes of a text: it says a number below the bound and is read as that, or it does not and
is refused for its reason. -/
lemma read_cases {bound : Nat} (hbound : 0 < bound) (s : List Char) :
    (∃ n, read bound s = .ok n ∧ Says s n ∧ n < bound) ∨
      (read bound s = .error (reason bound s) ∧ ∀ n, Says s n → ¬ n < bound) := by
  by_cases hs : s = []
  · right
    subst hs
    exact ⟨rfl, fun n hn => absurd rfl (says_iff.mp hn).1⟩
  rw [read_eq hs]
  unfold reason
  rw [if_neg hs]
  by_cases hnil : unsigned s = []
  · right
    refine ⟨by simp [hnil, Nat.ofDigitChars, hbound], fun n hn => absurd hnil (says_iff.mp hn).1⟩
  rw [if_neg hnil, readDigits_eq hbound]
  by_cases hdigits : (unsigned s).all Char.isDigit = true
  · -- All of it is digits, and their value decides.
    have hall := List.all_eq_true.mp hdigits
    rw [List.takeWhile_eq_self_iff.mpr hall]
    by_cases hlt : Nat.ofDigitChars 10 (unsigned s) 0 < bound
    · left
      exact ⟨_, by simp [hlt, hdigits], says_iff.mpr ⟨hnil, hall, rfl⟩, hlt⟩
    · right
      refine ⟨by simp [hlt], fun n hn => ?_⟩
      rw [← (says_iff.mp hn).2.2]
      exact hlt
  · right
    refine ⟨?_, fun n hn => absurd (List.all_eq_true.mpr (says_iff.mp hn).2.1) hdigits⟩
    rw [if_neg hdigits]
    split <;> rfl

/-- **Exactly the numerals of numbers below the bound are read**, as what they say. -/
theorem read_eq_ok_iff {bound n : Nat} (hbound : 0 < bound) {s : List Char} :
    read bound s = .ok n ↔ Says s n ∧ n < bound := by
  rcases read_cases hbound s with ⟨m, hread, hm, hlt⟩ | ⟨hread, hnone⟩
  · rw [hread]
    constructor
    · intro h
      cases h
      exact ⟨hm, hlt⟩
    · rintro ⟨hn, -⟩
      rw [hm.unique hn]
  · rw [hread]
    constructor
    · intro h
      cases h
    · rintro ⟨hn, hlt⟩
      exact absurd hlt (hnone n hn)

/-- **Any other text is refused**, for the reason that its leading digits tell. -/
theorem read_eq_error_iff {bound : Nat} (hbound : 0 < bound) {s : List Char} {fault : Fault} :
    read bound s = .error fault ↔ (¬ ∃ n, Says s n ∧ n < bound) ∧ fault = reason bound s := by
  rcases read_cases hbound s with ⟨m, hread, hm, hlt⟩ | ⟨hread, hnone⟩
  · rw [hread]
    constructor
    · intro h
      cases h
    · rintro ⟨hno, -⟩
      exact absurd ⟨m, hm, hlt⟩ hno
  · rw [hread]
    constructor
    · intro h
      cases h
      exact ⟨fun ⟨n, hn, hlt⟩ => hnone n hn hlt, rfl⟩
    · rintro ⟨-, rfl⟩
      rfl

/-! ### Numerals that were written -/

/-- A number that is too large is refused for that. -/
lemma reason_eq_tooLarge {bound n : Nat} {s : List Char} (h : Says s n) (hn : ¬ n < bound) :
    reason bound s = .tooLarge := by
  obtain ⟨hne, hdigits, hvalue⟩ := says_iff.mp h
  have hs : s ≠ [] := by
    rintro rfl
    exact hne rfl
  unfold reason
  rw [if_neg hs, List.takeWhile_eq_self_iff.mpr hdigits, hvalue, if_neg hn]

/-- The numeral of a number says the number. -/
lemma says_render (n : Nat) : Says (render n).toList n :=
  ⟨Nat.toDigits 10 n, .inl String.toList_ofList, Nat.toDigits_ne_nil,
    fun _ => Nat.isDigit_of_mem_toDigits (by omega) (by omega), Nat.ofDigitChars_ten_toDigits⟩

/-- A digit is no blank. -/
lemma not_isBlank_of_isDigit {c : Char} (hc : c.isDigit = true) : isBlank c = false := by
  simp only [Char.isDigit, Bool.and_eq_true, decide_eq_true_eq, ge_iff_le, UInt32.le_iff_toNat_le]
    at hc
  have hlow : 48 ≤ c.toNat := hc.1
  have hhigh : c.toNat ≤ 57 := hc.2
  simp only [isBlank, Bool.or_eq_false_iff, Bool.and_eq_false_imp, decide_eq_true_eq,
    decide_eq_false_iff_not, beq_eq_false_iff_ne]
  omega

/-- Without blanks there is nothing to trim. -/
lemma trimWith_of_forall {p : Char → Bool} {s : List Char} (hs : ∀ c ∈ s, p c = false) :
    trimWith p s = s := by
  have hself : ∀ l : List Char, (∀ c ∈ l, p c = false) → l.dropWhile p = l := by
    intro l hl
    rw [List.dropWhile_eq_self_iff]
    intro hpos
    rw [hl _ (List.getElem_mem hpos)]
    exact Bool.false_ne_true
  rw [trimWith, hself s hs, hself s.reverse (by simpa using hs), List.reverse_reverse]

/-- **A numeral that was written is read back**, unless the number reaches the bound. -/
theorem read_render {bound : Nat} (hbound : 0 < bound) (n : Nat) :
    read bound (trimWith isBlank (render n).toList) =
      if n < bound then .ok n else .error .tooLarge := by
  have hplain : ∀ c ∈ (render n).toList, isBlank c = false := by
    intro c hc
    rw [render, String.toList_ofList] at hc
    exact not_isBlank_of_isDigit (Nat.isDigit_of_mem_toDigits (by omega) (by omega) hc)
  rw [trimWith_of_forall hplain]
  have hrender := says_render n
  split
  · rename_i hn
    exact (read_eq_ok_iff hbound).mpr ⟨hrender, hn⟩
  · rename_i hn
    refine (read_eq_error_iff hbound).mpr ⟨?_, (reason_eq_tooLarge hrender hn).symm⟩
    rintro ⟨m, hm, hlt⟩
    rw [hm.unique hrender] at hlt
    exact hn hlt

end Daq.Text.Numeral
