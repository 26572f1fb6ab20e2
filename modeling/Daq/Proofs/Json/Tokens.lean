import Daq.Json.Printer
import Daq.Json.Reader
import Daq.Proofs.Text.Digits

set_option autoImplicit false

/-!
# Reading JSON tokens that were written

A text literal is read as the text, and a whole number within bounds is read as the number. A number
with a fraction is read as what its digits denote, whatever follows them, as long as it is no part
of a number; in a written document a line break or a comma follows.

## Main definitions

* `Daq.Json.Ends` — what follows a value in a written document.
* `Daq.Json.Numeral.Denotes` — what the text of a number is read as.

## Main results

* `Daq.Json.Literal.read_literal` — a text literal is read back.
* `Daq.Json.Numeral.read_append` — a number is read the same with more text behind it.
* `Daq.Json.Numeral.denotes_integer` — a whole number is read back.
-/

namespace Daq.Json

/-! ### Text literals -/

namespace Literal

/-- Reading the digits of a number below sixteen. -/
lemma hexDigit?_digitChar : ∀ n < 16, hexDigit? (Nat.digitChar n) = some n := by decide

/-- **The written form of a character is read as the unit with its number.** -/
lemma units_escapeChar (c : Char) (rest : List Char) :
    units (escapeChar c ++ rest) = (units rest).map fun r => (c.toNat :: r.1, r.2) := by
  unfold escapeChar
  split
  iterate 7
    · cases h : units rest <;> simp [units, escaped?, h]
  · rename_i hquote hbackslash _ _ _ _ _
    split
    · rename_i hcontrol
      have hhigh := hexDigit?_digitChar (c.toNat / 16) (by omega)
      have hlow := hexDigit?_digitChar (c.toNat % 16) (by omega)
      have hzero : hexDigit? '0' = some 0 := rfl
      have hn : 16 * (c.toNat / 16) + c.toNat % 16 = c.toNat := by omega
      cases h : units rest <;> simp [units, hex4?, hhigh, hlow, hzero, hn, h]
    · rename_i hplain
      have hplain' : ¬ c.toNat < 32 := hplain
      rw [List.singleton_append, units.eq_def]
      split
      · rename_i heq
        cases heq
      · rename_i heq
        exact absurd (List.cons.inj heq).1 hquote
      · rename_i heq
        exact absurd (List.cons.inj heq).1 hbackslash
      · rename_i heq
        exact absurd (List.cons.inj heq).1 hbackslash
      · rename_i heq
        obtain ⟨rfl, rfl⟩ := List.cons.inj heq
        have hkeep : ¬ (c = '\\' ∨ c.toNat < 32) := by
          rintro (h | h)
          · exact hbackslash h
          · exact hplain' h
        cases units rest <;> simp [hkeep]

/-- The units of a literal are the numbers of its characters. -/
lemma units_literal (s rest : List Char) :
    units (s.flatMap escapeChar ++ '"' :: rest) = some (s.map Char.toNat, rest) := by
  induction s with
  | nil => rfl
  | cons c s ih =>
    rw [List.flatMap_cons, List.append_assoc, units_escapeChar, ih]
    rfl

/-- No character is a surrogate. -/
lemma toNat_not_surrogate (c : Char) : ¬ (0xD800 ≤ c.toNat ∧ c.toNat < 0xE000) := by
  have hvalid : c.toNat < 0xD800 ∨ 0xDFFF < c.toNat ∧ c.toNat < 0x110000 := c.valid
  omega

/-- The numbers of characters compose to the characters. -/
lemma compose_toNat (s : List Char) : compose (s.map Char.toNat) = some s := by
  induction s with
  | nil => rfl
  | cons c s ih =>
    have hc := toNat_not_surrogate c
    cases s with
    | nil =>
      rw [List.map_cons, List.map_nil, compose, if_neg hc, Char.ofNat_toNat]
    | cons d s =>
      rw [List.map_cons] at ih ⊢
      rw [List.map_cons, compose, if_neg (by omega), if_neg (by omega), ih, Char.ofNat_toNat]
      rfl

/-- **A text literal is read back.** -/
theorem read_literal (s : String) (rest : List Char) :
    read (s.toList.flatMap escapeChar ++ '"' :: rest) = some (some s, rest) := by
  simp [read, units_literal, compose_toNat]

end Literal

/-! ### Numbers -/

/-- What follows a value in a written document: nothing, a comma or a line break. -/
def Ends (rest : List Char) : Prop := ∀ c, rest.head? = some c → c = ',' ∨ c = '\n'

namespace Numeral

/-- Digits end where a value ends. -/
lemma digits_append (s : List Char) {rest : List Char} (hrest : Ends rest) :
    digits (s ++ rest) = ((digits s).1, (digits s).2 ++ rest) := by
  induction s with
  | nil =>
    cases rest with
    | nil => rfl
    | cons c rest =>
      have hc : digit? c = none := by
        rcases hrest c rfl with rfl | rfl <;> rfl
      simp [digits, hc]
  | cons c s ih =>
    rw [List.cons_append, digits, digits]
    cases digit? c with
    | none => rfl
    | some d => simp [ih]

/-- The part before the point is the same with more text behind it. -/
lemma readWhole_append (s : List Char) {rest : List Char} (hrest : Ends rest) :
    readWhole (s ++ rest) = (readWhole s).map fun r => (r.1, r.2 ++ rest) := by
  rw [readWhole, readWhole, digits_append s hrest]
  rcases digits s with ⟨_ | ⟨d, _ | ⟨e, ds⟩⟩, r⟩
  · rfl
  · cases d <;> rfl
  · cases d <;> rfl

/-- After a point there are digits. -/
lemma readFraction_point (s : List Char) :
    readFraction ('.' :: s) = match digits s with
      | ([], _) => none
      | (ds, rest) => some (ds, rest) := rfl

/-- Without a point there is no fraction. -/
lemma readFraction_plain {s : List Char} (h : s.head? ≠ some '.') :
    readFraction s = some ([], s) := by
  unfold readFraction
  split
  · exact absurd rfl h
  · rfl

/-- The part after the point is the same with more text behind it. -/
lemma readFraction_append (s : List Char) {rest : List Char} (hrest : Ends rest) :
    readFraction (s ++ rest) = (readFraction s).map fun r => (r.1, r.2 ++ rest) := by
  cases s with
  | nil =>
    rw [List.nil_append, readFraction_plain]
    · rfl
    · intro h
      rcases hrest '.' h with h | h <;> cases h
  | cons c s =>
    rw [List.cons_append]
    by_cases hc : c = '.'
    · subst hc
      rw [readFraction_point, readFraction_point, digits_append s hrest]
      rcases digits s with ⟨_ | ⟨d, ds⟩, r⟩ <;> rfl
    · have hc' : ∀ t : List Char, (c :: t).head? ≠ some '.' := fun _ h => hc (Option.some.inj h)
      rw [readFraction_plain (hc' _), readFraction_plain (hc' _)]
      rfl

/-- The digits of an exponent are the same with more text behind them. -/
lemma readExponentDigits_append (negative : Bool) (s : List Char) {rest : List Char}
    (hrest : Ends rest) :
    readExponentDigits negative (s ++ rest) =
      (readExponentDigits negative s).map fun r => (r.1, r.2 ++ rest) := by
  rw [readExponentDigits, readExponentDigits, digits_append s hrest]
  rcases digits s with ⟨_ | ⟨d, ds⟩, r⟩ <;> rfl

/-- The exponent is the same with more text behind it. -/
lemma readExponent_append (s : List Char) {rest : List Char} (hrest : Ends rest) :
    readExponent (s ++ rest) = (readExponent s).map fun r => (r.1, r.2 ++ rest) := by
  cases s with
  | nil =>
    cases rest with
    | nil => rfl
    | cons c rest =>
      have hc : ¬ (c = 'e' ∨ c = 'E') := by
        rcases hrest c rfl with rfl | rfl <;> decide
      simp [readExponent, hc]
  | cons c s =>
    unfold readExponent
    dsimp only [List.cons_append]
    by_cases hc : c = 'e' ∨ c = 'E'
    · rw [if_pos hc, if_pos hc]
      cases s with
      | nil =>
        rw [List.nil_append]
        have hplain : ∀ t, rest ≠ '+' :: t ∧ rest ≠ '-' :: t := by
          intro t
          constructor
          · rintro rfl
            rcases hrest '+' rfl with h | h <;> cases h
          · rintro rfl
            rcases hrest '-' rfl with h | h <;> cases h
        split
        · exact absurd rfl (hplain _).1
        · exact absurd rfl (hplain _).2
        · exact readExponentDigits_append false [] hrest
      | cons d s =>
        rw [List.cons_append]
        by_cases hp : d = '+'
        · subst hp
          exact readExponentDigits_append false s hrest
        · by_cases hm : d = '-'
          · subst hm
            exact readExponentDigits_append true s hrest
          · split
            · rename_i heq
              exact absurd (List.cons.inj heq).1 hp
            · rename_i heq
              exact absurd (List.cons.inj heq).1 hm
            · split
              · rename_i heq
                exact absurd (List.cons.inj heq).1 hp
              · rename_i heq
                exact absurd (List.cons.inj heq).1 hm
              · exact readExponentDigits_append false (d :: s) hrest
    · rw [if_neg hc, if_neg hc]
      rfl

/-- A number behind its sign. -/
def readUnsigned (negative : Bool) (s : List Char) : Option (Numeral × List Char) := do
  let (whole, s) ← readWhole s
  let (fraction, s) ← readFraction s
  let (exponent, s) ← readExponent s
  some (⟨negative, whole, fraction, exponent⟩, s)

/-- A number with a minus sign. -/
lemma read_minus (s : List Char) : read ('-' :: s) = readUnsigned true s := rfl

/-- A number without a sign. -/
lemma read_plain {s : List Char} (h : s.head? ≠ some '-') : read s = readUnsigned false s := by
  unfold read
  split
  rename_i heq
  split at heq
  · exact absurd rfl h
  · obtain ⟨rfl, rfl⟩ := Prod.mk.inj heq
    rfl

/-- A number behind its sign is the same with more text behind it. -/
lemma readUnsigned_append (negative : Bool) (s : List Char) {rest : List Char} (hrest : Ends rest) :
    readUnsigned negative (s ++ rest) =
      (readUnsigned negative s).map fun r => (r.1, r.2 ++ rest) := by
  unfold readUnsigned
  rw [readWhole_append s hrest]
  cases readWhole s with
  | none => rfl
  | some w =>
    simp only [Option.map_some, Option.bind_eq_bind, Option.bind_some]
    rw [readFraction_append w.2 hrest]
    cases readFraction w.2 with
    | none => rfl
    | some f =>
      simp only [Option.map_some, Option.bind_some]
      rw [readExponent_append f.2 hrest]
      cases readExponent f.2 <;> rfl

/-- **A number is read the same with more text behind it.** -/
theorem read_append (s : List Char) {rest : List Char} (hrest : Ends rest) :
    read (s ++ rest) = (read s).map fun r => (r.1, r.2 ++ rest) := by
  by_cases h : s.head? = some '-'
  · obtain ⟨t, rfl⟩ : ∃ t, s = '-' :: t := by
      cases s with
      | nil => cases h
      | cons c t => exact ⟨t, by rw [Option.some.inj h]⟩
    exact readUnsigned_append true t hrest
  · rw [read_plain h, read_plain, readUnsigned_append false s hrest]
    cases s with
    | nil =>
      intro h
      rcases hrest '-' h with h | h <;> cases h
    | cons c s => exact h

/-- What the text of a number is read as. -/
def Denotes (text : List Char) (d : Document) : Prop := ∃ n, read text = some (n, []) ∧ n.value = d

/-- The first character of a number. -/
lemma head_of_read {s : List Char} {r : Numeral × List Char} (h : read s = some r) :
    ∃ c t, s = c :: t ∧ (c = '-' ∨ (digit? c).isSome) := by
  cases s with
  | nil => cases h
  | cons c t =>
    refine ⟨c, t, rfl, ?_⟩
    by_cases hc : c = '-'
    · exact .inl hc
    · right
      have hplain : (c :: t).head? ≠ some '-' := fun heq => hc (Option.some.inj heq)
      rw [read_plain hplain, readUnsigned] at h
      cases hd : digit? c with
      | none => simp [readWhole, digits, hd] at h
      | some d => rfl

/-! ### Whole numbers -/

/-- The digits of a whole number are read. -/
lemma digits_map {ds : List Nat} (h : ∀ d ∈ ds, d < 10) :
    digits (ds.map Nat.digitChar) = (ds, []) := by
  have hdigit : ∀ d < 10, digit? (Nat.digitChar d) = some d := by decide
  induction ds with
  | nil => rfl
  | cons d ds ih =>
    rw [List.map_cons, digits, hdigit d (h d (by simp)), ih fun e he => h e (by simp [he])]

/-- Digits whose value fits are all taken in. -/
lemma accumulate_eq (significand : Nat) (ds : List Nat)
    (h : Text.appended significand ds < countBound) :
    accumulate significand ds = (Text.appended significand ds, []) := by
  induction ds generalizing significand with
  | nil => rfl
  | cons d ds ih =>
    have hle := Text.le_appended (10 * significand + d) ds
    rw [accumulate, if_pos (Nat.lt_of_le_of_lt hle h)]
    exact ih _ h

/-- The digits of a whole number make a numeral without fraction and exponent. -/
lemma readUnsigned_digits (negative : Bool) {ds : List Nat} {n : Nat} (h : Text.IsDecimal ds n) :
    readUnsigned negative (ds.map Nat.digitChar) = some (⟨negative, ds, [], none⟩, []) := by
  have hwhole : readWhole (ds.map Nat.digitChar) = some (ds, []) := by
    rw [readWhole, digits_map h.lt_ten]
    split
    · rename_i heq
      exact absurd (Prod.mk.inj heq).1 h.ne_nil
    · rename_i heq
      exact absurd (h.leading _ (Prod.mk.inj heq).1) (by simp)
    · rename_i heq
      obtain ⟨rfl, rfl⟩ := Prod.mk.inj heq
      rfl
  rw [readUnsigned, hwhole]
  rfl

/-- The value of a numeral without fraction and exponent. -/
lemma value_digits (negative : Bool) {ds : List Nat} {n : Nat} (h : Text.IsDecimal ds n)
    (hn : n < countBound) : value ⟨negative, ds, [], none⟩ = wholeValue negative n := by
  have hvalue := h.value
  rw [value, accumulate_eq 0 ds (by omega), hvalue]

/-- **A whole number that fits sixty-four bits is read back.** -/
theorem denotes_integer {n : Int} (hlow : -integerBound ≤ n) (hhigh : n < countBound) :
    Denotes (toString n).toList (.integer n) := by
  by_cases hn : 0 ≤ n
  · obtain ⟨m, rfl⟩ := Int.eq_ofNat_of_zero_le hn
    obtain ⟨ds, hds, hchars⟩ := Text.exists_isDecimal m
    refine ⟨⟨false, ds, [], none⟩, ?_, ?_⟩
    · rw [Text.toList_toString, hchars, read_plain]
      · exact readUnsigned_digits false hds
      · cases ds with
        | nil => exact absurd rfl hds.ne_nil
        | cons d ds => exact fun h => absurd (Option.some.inj h) (Nat.digitChar_ne '-' rfl)
    · rw [value_digits false hds (by exact_mod_cast hhigh)]
      rfl
  · obtain ⟨m, rfl⟩ := Int.exists_eq_neg_ofNat (by omega : n ≤ 0)
    obtain ⟨ds, hds, hchars⟩ := Text.exists_isDecimal m
    have hm : 0 < m ∧ (m : Int) ≤ integerBound := by omega
    refine ⟨⟨true, ds, [], none⟩, ?_, ?_⟩
    · rw [Text.toList_toString_neg (by omega), hchars, read_minus]
      exact readUnsigned_digits true hds
    · have hbound : m < countBound := by
        have := hm.2
        unfold integerBound at this
        unfold countBound
        omega
      rw [value_digits true hds hbound, wholeValue, if_pos rfl, if_pos hm]

end Numeral

end Daq.Json
