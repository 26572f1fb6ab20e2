import Daq.Proofs.Text.Digits
import Daq.Toml.Number

set_option autoImplicit false

/-!
# Reading TOML numbers that were written

A number ends where its line ends: no part of a number, date or time reaches beyond a line break, so
each reader takes the same off a text with more lines behind it. A whole number is no date, no time
and has no fraction, and is read back.

## Main results

* `Daq.Toml.scalar_append` — a number is read the same with more lines behind it.
* `Daq.Toml.scalar_count` — a whole number is read back.
-/

namespace Daq.Toml

variable (rest : List Char)

/-! ### Digits -/

/-- A line break is no digit. -/
@[simp]
lemma digitIn?_break (base : Nat) : digitIn? base '\n' = none := by
  simp [digitIn?]

/-- An underscore is no digit. -/
@[simp]
lemma digitIn?_underscore (base : Nat) : digitIn? base '_' = none := by
  simp [digitIn?]

/-- A digit goes with those behind it. -/
lemma moreDigits_digit {base d : Nat} {c : Char} (hd : digitIn? base c = some d) (s : List Char) :
    moreDigits base (c :: s) = (moreDigits base s).map fun r => (d :: r.1, r.2) := by
  have hc : c ≠ '_' := by
    rintro rfl
    simp at hd
  rw [moreDigits]
  · rw [hd]
    cases moreDigits base s <;> rfl
  · intro e t hc'
    exact absurd hc' hc

/-- Digits end at any other character but an underscore. -/
lemma moreDigits_end {base : Nat} {c : Char} (hd : digitIn? base c = none) (hc : c ≠ '_')
    (s : List Char) : moreDigits base (c :: s) = some ([], c :: s) := by
  rw [moreDigits]
  · rw [hd]
    simp [hc]
  · intro e t hc'
    exact absurd hc' hc

/-- More digits are the same with more lines behind them. -/
lemma moreDigits_append (base : Nat) (s : List Char) :
    moreDigits base (s ++ '\n' :: rest) =
      (moreDigits base s).map fun r => (r.1, r.2 ++ '\n' :: rest) := by
  have hbreak := moreDigits_end (digitIn?_break base) (by decide) rest
  fun_induction moreDigits base s with
  | case1 c s ih =>
    rw [List.cons_append, List.cons_append, moreDigits, ih]
    cases digitIn? base c with
    | none => rfl
    | some d => cases moreDigits base s <;> rfl
  | case2 c s hline d hd ih =>
    rw [List.cons_append, moreDigits_digit hd, ih]
    cases moreDigits base s <;> rfl
  | case3 s hline hd =>
    cases s with
    | nil => simp [moreDigits]
    | cons c s => exact (hline c s rfl rfl).elim
  | case4 c s hline hd hc => rw [List.cons_append, moreDigits_end hd hc]; rfl
  | case5 => exact hbreak

/-- Digits are the same with more lines behind them. -/
lemma digits_append (base : Nat) (s : List Char) :
    digits base (s ++ '\n' :: rest) =
      (digits base s).map fun r => (r.1, r.2 ++ '\n' :: rest) := by
  cases s with
  | nil => simp [digits]
  | cons c s =>
    rw [List.cons_append, digits, digits, moreDigits_append]
    cases digitIn? base c with
    | none => rfl
    | some d => cases moreDigits base s <;> rfl

/-- A sign is the same with more lines behind it. -/
lemma sign_append (s : List Char) :
    sign (s ++ '\n' :: rest) = ((sign s).1, (sign s).2 ++ '\n' :: rest) := by
  unfold sign
  cases s with
  | nil => rfl
  | cons c s =>
    by_cases hm : c = '-'
    · subst hm
      rfl
    · by_cases hp : c = '+'
      · subst hp
        rfl
      · rw [List.cons_append]
        split
        · rename_i heq
          exact absurd (List.cons.inj heq).1 hm
        · rename_i heq
          exact absurd (List.cons.inj heq).1 hp
        · split
          · rename_i heq
            exact absurd (List.cons.inj heq).1 hm
          · rename_i heq
            exact absurd (List.cons.inj heq).1 hp
          · rfl

/-- A number that does not start with zero. -/
lemma wholeDigits_digits {s : List Char} (h : s.head? ≠ some '0') :
    wholeDigits s = digits 10 s := by
  unfold wholeDigits
  split
  · exact absurd rfl h
  · rfl

/-- Digits of a whole number are the same with more lines behind them. -/
lemma wholeDigits_append (s : List Char) :
    wholeDigits (s ++ '\n' :: rest) =
      (wholeDigits s).map fun r => (r.1, r.2 ++ '\n' :: rest) := by
  cases s with
  | nil => rfl
  | cons c s =>
    by_cases hc : c = '0'
    · subst hc
      rfl
    · have hhead : ∀ t : List Char, (c :: t).head? ≠ some '0' := fun _ h => hc (Option.some.inj h)
      rw [List.cons_append, wholeDigits_digits (hhead _), wholeDigits_digits (hhead _)]
      exact digits_append rest 10 (c :: s)

/-- The rest behind a word is the same with more lines behind it. -/
lemma after?_append {word : List Char} (hword : '\n' ∉ word) (s : List Char) :
    after? word (s ++ '\n' :: rest) = (after? word s).map fun r => r ++ '\n' :: rest := by
  induction word generalizing s with
  | nil => rfl
  | cons c word ih =>
    rw [List.mem_cons, not_or] at hword
    cases s with
    | nil => rw [List.nil_append, after?, if_neg (Ne.symm hword.1)]; rfl
    | cons d s =>
      rw [List.cons_append, after?, after?]
      split
      · exact ih hword.2 s
      · rfl

/-! ### Numbers -/

/-- An exponent is the same with more lines behind it. -/
lemma exponent_append (s : List Char) :
    exponent (s ++ '\n' :: rest) = (exponent s).map fun r => (r.1, r.2 ++ '\n' :: rest) := by
  cases s with
  | nil => rfl
  | cons c s =>
    rw [List.cons_append, exponent, exponent]
    split
    · rw [sign_append]
      dsimp only
      rw [digits_append]
      cases digits 10 (sign s).2 <;> rfl
    · rfl

/-- A value that is not finite is the same with more lines behind it. -/
lemma special_append (s : List Char) :
    special (s ++ '\n' :: rest) = (special s).map fun r => (r.1, r.2 ++ '\n' :: rest) := by
  unfold special
  rw [sign_append]
  dsimp only
  rw [after?_append rest (by decide), after?_append rest (by decide)]
  cases after? ['i', 'n', 'f'] (sign s).2 with
  | some r => rfl
  | none => cases after? ['n', 'a', 'n'] (sign s).2 <;> rfl

/-- A bounded number is the same with more lines behind it. -/
lemma bounded_append (n : Int) (s : List Char) :
    bounded n (s ++ '\n' :: rest) = (bounded n s).map fun r => (r.1, r.2 ++ '\n' :: rest) := by
  unfold bounded
  split <;> rfl

/-- Without a point there is an exponent. -/
lemma fractionPart_plain {s : List Char} (h : s.head? ≠ some '.') :
    fractionPart s = (exponent s).map fun r => ([], r.1, r.2) := by
  unfold fractionPart
  split
  · exact absurd rfl h
  · cases exponent s <;> rfl

/-- Fraction and exponent are the same with more lines behind them. -/
lemma fractionPart_append (s : List Char) :
    fractionPart (s ++ '\n' :: rest) =
      (fractionPart s).map fun r => (r.1, r.2.1, r.2.2 ++ '\n' :: rest) := by
  by_cases hpoint : s.head? = some '.'
  · obtain ⟨t, rfl⟩ : ∃ t, s = '.' :: t := by
      cases s with
      | nil => cases hpoint
      | cons c t => exact ⟨t, by rw [Option.some.inj hpoint]⟩
    rw [List.cons_append]
    unfold fractionPart
    simp only
    rw [digits_append]
    cases digits 10 t with
    | none => rfl
    | some r =>
      obtain ⟨ds, r⟩ := r
      cases r with
      | nil => rfl
      | cons c r =>
        simp only [Option.map_some, Option.bind_eq_bind, Option.bind_some, List.cons_append]
        split
        · have h := exponent_append rest (c :: r)
          rw [List.cons_append] at h
          rw [h]
          cases exponent (c :: r) <;> rfl
        · rfl
  · rw [fractionPart_plain hpoint, fractionPart_plain, exponent_append]
    · cases exponent s <;> rfl
    · cases s with
      | nil => simp
      | cons c s => exact hpoint

/-- A number with a fraction or exponent is the same with more lines behind it. -/
lemma fractional_append (s : List Char) :
    fractional (s ++ '\n' :: rest) =
      (fractional s).map fun r => (r.1, r.2 ++ '\n' :: rest) := by
  have heq : ∀ t, fractional t = (wholeDigits (sign t).2).bind fun w =>
      (fractionPart w.2).bind fun f =>
        let x := nearest (ofDigits 10 (w.1 ++ f.1)) (f.2.1 - f.1.length)
        if x.isInf && !(sign t).1 then none
        else some (.float (Double.ofFloat (if (sign t).1 then -x else x)), f.2.2) := fun _ => rfl
  rw [heq, heq, sign_append]
  dsimp only
  rw [wholeDigits_append]
  cases wholeDigits (sign s).2 with
  | none => rfl
  | some w =>
    rw [Option.map_some, Option.bind_some, Option.bind_some, fractionPart_append]
    cases fractionPart w.2 with
    | none => rfl
    | some f =>
      rw [Option.map_some, Option.bind_some, Option.bind_some]
      dsimp only
      split <;> rfl

/-- A decimal whole number. -/
def decimalWhole (s : List Char) : Option (Document × List Char) := do
  let (ds, rest) ← wholeDigits (sign s).2
  bounded (if (sign s).1 then -(ofDigits 10 ds : Int) else ofDigits 10 ds) rest

/-- A decimal whole number is the same with more lines behind it. -/
lemma decimalWhole_append (s : List Char) :
    decimalWhole (s ++ '\n' :: rest) =
      (decimalWhole s).map fun r => (r.1, r.2 ++ '\n' :: rest) := by
  unfold decimalWhole
  rw [sign_append]
  dsimp only
  rw [wholeDigits_append]
  cases wholeDigits (sign s).2 with
  | none => rfl
  | some w => exact bounded_append rest _ w.2

/-- A whole number in another base is the same with more lines behind it. -/
lemma based_append (base : Nat) (s : List Char) :
    ((digits base (s ++ '\n' :: rest)).bind fun r => bounded (ofDigits base r.1) r.2) =
      ((digits base s).bind fun r => bounded (ofDigits base r.1) r.2).map
        fun r => (r.1, r.2 ++ '\n' :: rest) := by
  rw [digits_append]
  cases digits base s with
  | none => rfl
  | some w =>
    rw [Option.map_some, Option.bind_some, Option.bind_some]
    exact bounded_append rest _ w.2

/-- A whole number without the mark of a base is decimal. -/
lemma whole_decimal {s : List Char} (h : ∀ c t, s = '0' :: c :: t → c ∉ ['x', 'o', 'b']) :
    whole s = decimalWhole s := by
  unfold whole
  split
  · exact absurd (by decide) (h _ _ rfl)
  · exact absurd (by decide) (h _ _ rfl)
  · exact absurd (by decide) (h _ _ rfl)
  · rfl

/-- A whole number is the same with more lines behind it. -/
lemma whole_append (s : List Char) :
    whole (s ++ '\n' :: rest) = (whole s).map fun r => (r.1, r.2 ++ '\n' :: rest) := by
  by_cases hbase : ∃ c t, s = '0' :: c :: t ∧ c ∈ ['x', 'o', 'b']
  · obtain ⟨c, t, rfl, hc⟩ := hbase
    simp only [List.mem_cons, List.not_mem_nil, or_false] at hc
    have hx : ∀ u, whole ('0' :: 'x' :: u) =
        (digits 16 u).bind fun r => bounded (ofDigits 16 r.1) r.2 := fun _ => rfl
    have ho : ∀ u, whole ('0' :: 'o' :: u) =
        (digits 8 u).bind fun r => bounded (ofDigits 8 r.1) r.2 := fun _ => rfl
    have hb : ∀ u, whole ('0' :: 'b' :: u) =
        (digits 2 u).bind fun r => bounded (ofDigits 2 r.1) r.2 := fun _ => rfl
    simp only [List.cons_append]
    rcases hc with rfl | rfl | rfl
    · rw [hx, hx, based_append]
    · rw [ho, ho, based_append]
    · rw [hb, hb, based_append]
  · have hmark : ∀ c t, s = '0' :: c :: t → c ∉ ['x', 'o', 'b'] :=
      fun c t hs hc => hbase ⟨c, t, hs, hc⟩
    rw [whole_decimal hmark, whole_decimal, decimalWhole_append]
    intro c t hs
    match s with
    | [] => cases hs
    | [d] =>
      obtain ⟨rfl, -⟩ := List.cons.inj (List.cons.inj hs).2
      decide
    | d :: e :: u =>
      obtain ⟨rfl, htail⟩ := List.cons.inj hs
      obtain ⟨rfl, -⟩ := List.cons.inj htail
      exact hmark e u rfl

/-! ### Dates and times -/

/-- Some number of digits is the same with more lines behind it. -/
lemma fixed_append (n : Nat) (s : List Char) :
    fixed n (s ++ '\n' :: rest) = (fixed n s).map fun r => (r.1, r.2 ++ '\n' :: rest) := by
  induction n generalizing s with
  | zero => rfl
  | succ n ih =>
    cases s with
    | nil => simp [fixed]
    | cons c s =>
      rw [List.cons_append, fixed, fixed, ih]
      cases digitIn? 10 c with
      | none => rfl
      | some d => cases fixed n s <;> rfl

/-- Two digits are the same with more lines behind them. -/
lemma pair_append (least greatest : Nat) (s : List Char) :
    pair least greatest (s ++ '\n' :: rest) =
      (pair least greatest s).map fun r => (r.1, r.2 ++ '\n' :: rest) := by
  unfold pair
  rw [fixed_append]
  cases fixed 2 s with
  | none => rfl
  | some r =>
    simp only [Option.map_some, Option.bind_eq_bind, Option.bind_some]
    split <;> rfl

/-- A character other than a line break is the same with more lines behind it. -/
lemma char?_append {c : Char} (hc : c ≠ '\n') (s : List Char) :
    char? c (s ++ '\n' :: rest) = (char? c s).map fun r => r ++ '\n' :: rest := by
  cases s with
  | nil => rw [List.nil_append, char?, if_neg (Ne.symm hc)]; rfl
  | cons d s =>
    rw [List.cons_append, char?, char?]
    split <;> rfl

/-- A date is the same with more lines behind it. -/
lemma afterDate_append (s : List Char) :
    afterDate (s ++ '\n' :: rest) = (afterDate s).map fun r => r ++ '\n' :: rest := by
  unfold afterDate
  rw [fixed_append]
  cases fixed 4 s with
  | none => rfl
  | some y =>
    simp only [Option.map_some, Option.bind_eq_bind, Option.bind_some]
    rw [char?_append rest (by decide)]
    cases char? '-' y.2 with
    | none => rfl
    | some t =>
      simp only [Option.map_some, Option.bind_some]
      rw [pair_append]
      cases pair 1 12 t with
      | none => rfl
      | some m =>
        simp only [Option.map_some, Option.bind_some]
        rw [char?_append rest (by decide)]
        cases char? '-' m.2 with
        | none => rfl
        | some u =>
          simp only [Option.map_some, Option.bind_some]
          rw [pair_append]
          cases pair 1 (daysIn y.1 m.1) u <;> rfl

/-- Digits are dropped up to the end of the line at most. -/
lemma dropDigits_append (s : List Char) :
    (s ++ '\n' :: rest).dropWhile (fun c => (digitIn? 10 c).isSome) =
      s.dropWhile (fun c => (digitIn? 10 c).isSome) ++ '\n' :: rest := by
  induction s with
  | nil => simp
  | cons c s ih =>
    rw [List.cons_append, List.dropWhile_cons, List.dropWhile_cons]
    split
    · exact ih
    · rfl

/-- Without a point there is no fraction of a second. -/
lemma afterFraction_plain {s : List Char} (h : s.head? ≠ some '.') : afterFraction s = s := by
  unfold afterFraction
  split
  · exact absurd rfl h
  · rfl

/-- The fraction of a second is the same with more lines behind it. -/
lemma afterFraction_append (s : List Char) :
    afterFraction (s ++ '\n' :: rest) = afterFraction s ++ '\n' :: rest := by
  by_cases hpoint : s.head? = some '.'
  · match s with
    | [] => cases hpoint
    | [c] =>
      obtain rfl := Option.some.inj hpoint
      simp [afterFraction]
    | c :: d :: s =>
      obtain rfl := Option.some.inj hpoint
      rw [List.cons_append, List.cons_append, afterFraction, afterFraction]
      split
      · exact dropDigits_append rest s
      · rfl
  · rw [afterFraction_plain hpoint, afterFraction_plain]
    cases s with
    | nil => simp
    | cons c s => exact hpoint

/-- A time is the same with more lines behind it. -/
lemma afterTime_append (s : List Char) :
    afterTime (s ++ '\n' :: rest) = (afterTime s).map fun r => r ++ '\n' :: rest := by
  unfold afterTime
  rw [pair_append]
  cases pair 0 23 s with
  | none => rfl
  | some h =>
    simp only [Option.map_some, Option.bind_eq_bind, Option.bind_some]
    rw [char?_append rest (by decide)]
    cases char? ':' h.2 with
    | none => rfl
    | some t =>
      simp only [Option.map_some, Option.bind_some]
      rw [pair_append]
      cases pair 0 59 t with
      | none => rfl
      | some m =>
        simp only [Option.map_some, Option.bind_some]
        rw [char?_append rest (by decide)]
        cases char? ':' m.2 with
        | none => rfl
        | some u =>
          simp only [Option.map_some, Option.bind_some]
          rw [pair_append]
          cases pair 0 60 u with
          | none => rfl
          | some w =>
            simp only [Option.map_some, Option.bind_some]
            rw [afterFraction_append]

/-- An offset from universal time is the same with more lines behind it. -/
lemma afterOffset_append (s : List Char) :
    afterOffset (s ++ '\n' :: rest) = (afterOffset s).map fun r => r ++ '\n' :: rest := by
  cases s with
  | nil => rfl
  | cons c s =>
    by_cases hmark : c = 'Z' ∨ c = 'z'
    · rcases hmark with rfl | rfl <;> rfl
    · rw [not_or] at hmark
      rw [List.cons_append, afterOffset, afterOffset]
      · split
        · rw [pair_append]
          cases pair 0 23 s with
          | none => rfl
          | some h =>
            simp only [Option.map_some, Option.bind_eq_bind, Option.bind_some]
            rw [char?_append rest (by decide)]
            cases char? ':' h.2 with
            | none => rfl
            | some t =>
              simp only [Option.map_some, Option.bind_some]
              rw [pair_append]
              cases pair 0 59 t <;> rfl
        · rfl
      · exact hmark.1
      · exact hmark.2
      · exact hmark.1
      · exact hmark.2

/-- A date, a time or both are the same with more lines behind them. -/
lemma afterMoment_append (s : List Char) :
    afterMoment (s ++ '\n' :: rest) = (afterMoment s).map fun r => r ++ '\n' :: rest := by
  unfold afterMoment
  rw [afterDate_append]
  cases afterDate s with
  | none => exact afterTime_append rest s
  | some t =>
    cases t with
    | nil => simp
    | cons c t =>
      simp only [Option.map_some, List.cons_append]
      split
      · rw [afterTime_append]
        cases afterTime t with
        | none => rfl
        | some u => exact afterOffset_append rest u
      · rfl

/-- The text of a date or time is taken off the head. -/
lemma moment_append (s : List Char) :
    moment (s ++ '\n' :: rest) = (moment s).map fun r => (r.1, r.2 ++ '\n' :: rest) := by
  unfold moment
  rw [afterMoment_append]
  cases afterMoment s with
  | none => rfl
  | some t =>
    simp only [Option.map_some, Option.bind_eq_bind, Option.bind_some, List.length_append]
    have hlength : s.length + ('\n' :: rest).length - (t.length + ('\n' :: rest).length) =
        s.length - t.length := by omega
    rw [hlength, List.take_append_of_le_length (Nat.sub_le _ _)]

/-! ### Scalars -/

/-- **A number is read the same with more lines behind it.** -/
theorem scalar_append (s : List Char) :
    scalar (s ++ '\n' :: rest) = (scalar s).map fun r => (r.1, r.2 ++ '\n' :: rest) := by
  unfold scalar
  rw [moment_append, special_append, fractional_append, whole_append]
  cases moment s with
  | some r => rfl
  | none =>
    cases special s with
    | some r => rfl
    | none =>
      cases fractional s with
      | some r => rfl
      | none => rfl

/-! ### Whole numbers -/

omit rest

/-- The value of a digit that is written. -/
lemma digitIn?_digitChar : ∀ d < 10, digitIn? 10 (Nat.digitChar d) = some d := by decide

/-- A fixed number of digits leaves the rest of the text. -/
lemma rest_of_fixed {n m : Nat} {s t : List Char} (h : fixed n s = some (m, t)) : t = s.drop n := by
  induction n generalizing s t m with
  | zero => exact (Prod.mk.inj (Option.some.inj h)).2.symm
  | succ n ih =>
    cases s with
    | nil => cases h
    | cons c s =>
      rw [fixed] at h
      cases hd : digitIn? 10 c with
      | none => simp [hd] at h
      | some d =>
        cases hs : fixed n s with
        | none => simp [hd, hs] at h
        | some r =>
          simp only [hd, hs, Option.bind_eq_bind, Option.bind_some, Option.some.injEq,
            Prod.mk.injEq] at h
          rw [← h.2, ih hs]
          rfl

section Count

variable {ds : List Nat} {n : Nat} (hds : Text.IsDecimal ds n)
include hds

/-- No other character stands among the digits of a number. -/
lemma char?_drop {c : Char} (hc : digitIn? 10 c = none) (k : Nat) :
    char? c ((ds.map Nat.digitChar).drop k) = none := by
  cases h : (ds.map Nat.digitChar).drop k with
  | nil => rfl
  | cons e s =>
    have he : e ∈ ds.map Nat.digitChar := List.mem_of_mem_drop (by rw [h]; simp)
    obtain ⟨d, hd, rfl⟩ := List.mem_map.mp he
    rw [char?, if_neg]
    rintro rfl
    rw [digitIn?_digitChar d (hds.lt_ten d hd)] at hc
    cases hc

/-- A whole number is no date and no time. -/
lemma moment_digits : moment (ds.map Nat.digitChar) = none := by
  have hdate : afterDate (ds.map Nat.digitChar) = none := by
    unfold afterDate
    cases h : fixed 4 (ds.map Nat.digitChar) with
    | none => rfl
    | some y =>
      simp only [Option.bind_eq_bind, Option.bind_some]
      rw [rest_of_fixed h, char?_drop hds (by decide)]
      rfl
  have htime : afterTime (ds.map Nat.digitChar) = none := by
    unfold afterTime pair
    cases h : fixed 2 (ds.map Nat.digitChar) with
    | none => rfl
    | some y =>
      simp only [Option.bind_eq_bind, Option.bind_some]
      split
      · simp only [Option.bind_some]
        rw [rest_of_fixed h, char?_drop hds (by decide)]
        rfl
      · rfl
  rw [moment, afterMoment, hdate]
  simp [htime]

/-- The digits of a number are read to their end. -/
lemma wholeDigits_map : wholeDigits (ds.map Nat.digitChar) = some (ds, []) := by
  have hmore : ∀ es : List Nat, (∀ d ∈ es, d < 10) →
      moreDigits 10 (es.map Nat.digitChar) = some (es, []) := by
    intro es hes
    induction es with
    | nil => rfl
    | cons d es ih =>
      rw [List.map_cons, moreDigits_digit (digitIn?_digitChar d (hes d (by simp))),
        ih fun e he => hes e (by simp [he])]
      rfl
  cases hcases : ds with
  | nil => exact absurd hcases hds.ne_nil
  | cons d es =>
    have hlt := hds.lt_ten
    rw [hcases] at hlt
    by_cases hd : d = 0
    · subst hd
      rw [hds.leading es hcases]
      rfl
    · have hhead : ((d :: es).map Nat.digitChar).head? ≠ some '0' := by
        intro h
        exact hd (Nat.digitChar_eq_zero.mp (Option.some.inj h))
      rw [wholeDigits_digits hhead, List.map_cons, digits,
        digitIn?_digitChar d (hlt d (by simp)), hmore es fun e he => hlt e (by simp [he])]
      rfl

/-- A number has no sign. -/
lemma sign_map : sign (ds.map Nat.digitChar) = (false, ds.map Nat.digitChar) := by
  cases hcases : ds with
  | nil => exact absurd hcases hds.ne_nil
  | cons d es =>
    unfold sign
    rw [List.map_cons]
    split
    · rename_i heq
      exact absurd (List.cons.inj heq).1 (Nat.digitChar_ne '-' rfl)
    · rename_i heq
      exact absurd (List.cons.inj heq).1 (Nat.digitChar_ne '+' rfl)
    · rfl

/-- A whole number is finite. -/
lemma special_digits : special (ds.map Nat.digitChar) = none := by
  have hword : ∀ (c : Char) (word : List Char), digitIn? 10 c = none →
      after? (c :: word) (ds.map Nat.digitChar) = none := by
    intro c word hc
    cases hcases : ds with
    | nil => rfl
    | cons d es =>
      rw [List.map_cons, after?, if_neg]
      rintro rfl
      rw [digitIn?_digitChar d (hds.lt_ten d (by rw [hcases]; simp))] at hc
      cases hc
  unfold special
  rw [sign_map hds]
  dsimp only
  rw [hword 'i' _ (by decide), hword 'n' _ (by decide)]

/-- A whole number has no fraction and no exponent. -/
lemma fractional_digits : fractional (ds.map Nat.digitChar) = none := by
  rw [fractional, sign_map hds]
  dsimp only
  rw [wholeDigits_map hds]
  rfl

/-- The digits of a number are read as the number. -/
lemma whole_digits (hn : (n : Int) < integerBound) :
    whole (ds.map Nat.digitChar) = some (.integer n, []) := by
  have hvalue : ofDigits 10 ds = n := hds.value
  have hbounds : -integerBound ≤ (n : Int) ∧ (n : Int) < integerBound := by
    refine ⟨?_, hn⟩
    have hpos : 0 ≤ integerBound := by decide
    omega
  rw [whole_decimal, decimalWhole, sign_map hds]
  · dsimp only
    rw [wholeDigits_map hds, Option.bind_eq_bind, Option.bind_some, hvalue, bounded]
    exact if_pos hbounds
  · intro c t h
    cases hcases : ds with
    | nil => exact absurd hcases hds.ne_nil
    | cons d es =>
      rw [hcases, List.map_cons] at h
      obtain ⟨hd, htail⟩ := List.cons.inj h
      rw [Nat.digitChar_eq_zero.mp hd] at hcases
      rw [hds.leading es hcases] at htail
      cases htail

end Count

/-- **A whole number that fits sixty-four bits with a sign is read back.** -/
theorem scalar_count {n : Nat} (hn : (n : Int) < integerBound) :
    scalar (toString (n : Int)).toList = some (.integer n, []) := by
  obtain ⟨ds, hds, hchars⟩ := Text.exists_isDecimal n
  rw [Text.toList_toString, hchars, scalar, moment_digits hds, special_digits hds,
    fractional_digits hds]
  exact whole_digits hds hn

end Daq.Toml
