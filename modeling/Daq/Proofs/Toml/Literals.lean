import Daq.Toml.Printer
import Daq.Toml.Reader
import Mathlib.Data.List.Basic

set_option autoImplicit false

/-!
# Reading TOML literals that were written

A text is written in one of five styles, and the reader finds the style by the quotes it stands
between. In double quotes every character is written plainly or as an escape that is read as the
character. In tripled quotes up to two quotes may stand side by side, also at the very end, where
the reader finds up to five and takes the last three for the end.

## Main results

* `Daq.Toml.escapeChar_cases` — a character is written plainly or as its escape.
* `Daq.Toml.basicLine_escapeBasic`, `Daq.Toml.basicLines_escapeBasic`, `Daq.Toml.rawLine_append`,
  `Daq.Toml.rawLines_append` — each of the styles.
* `Daq.Toml.literal_quote` — a text is read back.
-/

namespace Daq.Toml

/-! ### Characters in double quotes -/

/-- A character other than the quote is written and ends a run of quotes. -/
lemma escapeBasic_cons (allowed : Nat) (broken : Bool) (run : Nat) {c : Char} (hc : c ≠ '"')
    (s : List Char) :
    escapeBasic allowed broken run (c :: s) =
      escapeChar broken c ++ escapeBasic allowed broken 0 s := by
  rw [escapeBasic, if_neg hc]

/-- A quote is written plainly while the run is short enough. -/
lemma escapeBasic_quote (allowed : Nat) (broken : Bool) {run : Nat} (h : run + 1 ≤ allowed)
    (s : List Char) :
    escapeBasic allowed broken run ('"' :: s) = '"' :: escapeBasic allowed broken (run + 1) s := by
  rw [escapeBasic, if_pos rfl, if_neg (by omega)]

/-- Else it is escaped. -/
lemma escapeBasic_escaped (allowed : Nat) (broken : Bool) {run : Nat} (h : allowed < run + 1)
    (s : List Char) :
    escapeBasic allowed broken run ('"' :: s) =
      '\\' :: '"' :: escapeBasic allowed broken 0 s := by
  rw [escapeBasic, if_pos rfl, if_pos h]
  rfl

/-- Reading an upper-case hexadecimal digit. -/
lemma digitIn?_toUpper : ∀ n < 16, digitIn? 16 (Nat.digitChar n).toUpper = some n := by decide

/-- The escape of a character below 128 by its number. -/
lemma escape_number {n : Nat} (h : n < 128) (rest : List Char) :
    escape ('u' :: '0' :: '0' :: (Nat.digitChar (n / 16)).toUpper ::
      (Nat.digitChar (n % 16)).toUpper :: rest) = some (Char.ofNat n, rest) := by
  have hhigh := digitIn?_toUpper (n / 16) (by omega)
  have hlow := digitIn?_toUpper (n % 16) (by omega)
  have hzero : digitIn? 16 '0' = some 0 := rfl
  have hn : 16 * (n / 16) + n % 16 = n := by omega
  have hchar : n < 0xD800 := by omega
  simp [escape, hexValue?, hhigh, hlow, hzero, ofDigits, hn, char?OfNat, hchar]

/-- **A character other than the quote is written plainly or as its escape.** -/
lemma escapeChar_cases (broken : Bool) (c : Char) :
    (escapeChar broken c = [c] ∧ ((isPlain c = true ∧ c ≠ '\\') ∨ (c = '\n' ∧ broken = true))) ∨
      ∃ e w, escapeChar broken c = '\\' :: e :: w ∧ e ∉ [' ', '\t', '\n', '\r'] ∧
        ∀ rest, escape (e :: (w ++ rest)) = some (c, rest) := by
  unfold escapeChar
  split
  · exact .inr ⟨'b', [], rfl, by decide, fun _ => rfl⟩
  · exact .inr ⟨'t', [], rfl, by decide, fun _ => rfl⟩
  · cases broken
    · exact .inr ⟨'n', [], rfl, by decide, fun _ => rfl⟩
    · exact .inl ⟨rfl, .inr ⟨rfl, rfl⟩⟩
  · exact .inr ⟨'f', [], rfl, by decide, fun _ => rfl⟩
  · exact .inr ⟨'r', [], rfl, by decide, fun _ => rfl⟩
  · exact .inr ⟨'\\', [], rfl, by decide, fun _ => rfl⟩
  · rename_i hbackslash
    split
    · rename_i hplain
      exact .inl ⟨rfl, .inl ⟨hplain, hbackslash⟩⟩
    · rename_i hplain
      refine .inr ⟨'u', _, rfl, by decide, ?_⟩
      intro rest
      have hc : c.toNat < 128 := by
        simp only [isPlain, Bool.or_eq_true, Bool.and_eq_true, not_or, not_and, bne_iff_ne,
          decide_eq_true_eq, not_not] at hplain
        omega
      have h := escape_number hc rest
      rwa [Char.ofNat_toNat] at h

/-! ### Double quotes on one line -/

/-- A plain character. -/
lemma basicLine_plain (fuel : Nat) {c : Char} (hquote : c ≠ '"') (hbackslash : c ≠ '\\')
    (hplain : isPlain c = true) (s : List Char) :
    basicLine (fuel + 1) (c :: s) = (basicLine fuel s).map fun r => (c :: r.1, r.2) := by
  rw [basicLine.eq_def]
  split
  · rename_i heq
    cases heq
  · rename_i heq
    cases heq
  · rename_i heq
    exact absurd (List.cons.inj heq).1 hquote
  · rename_i heq
    exact absurd (List.cons.inj heq).1 hbackslash
  · rename_i hfuel heq
    obtain ⟨rfl, rfl⟩ := List.cons.inj heq
    obtain rfl := Nat.succ.inj hfuel
    rw [if_pos hplain]
    cases basicLine fuel s <;> rfl

/-- An escape. -/
lemma basicLine_escape (fuel : Nat) {c : Char} {s t : List Char} (h : escape s = some (c, t)) :
    basicLine (fuel + 1) ('\\' :: s) = (basicLine fuel t).map fun r => (c :: r.1, r.2) := by
  rw [basicLine, h]
  cases hr : basicLine fuel t <;> simp [hr]

/-- A written character. -/
lemma basicLine_escapeChar (fuel : Nat) {c : Char} (hc : c ≠ '"') (s : List Char) :
    basicLine (fuel + 1) (escapeChar false c ++ s) =
      (basicLine fuel s).map fun r => (c :: r.1, r.2) := by
  rcases escapeChar_cases false c with ⟨hw, ⟨hplain, hbackslash⟩ | ⟨-, hbroken⟩⟩ |
    ⟨e, w, hw, -, hescape⟩
  · rw [hw]
    exact basicLine_plain fuel hc hbackslash hplain s
  · cases hbroken
  · rw [hw]
    exact basicLine_escape fuel (hescape s)

/-- **A text in double quotes is read back.** -/
theorem basicLine_escapeBasic (s rest : List Char) {fuel run : Nat} (hfuel : s.length < fuel) :
    basicLine fuel (escapeBasic 0 false run s ++ '"' :: rest) = some (s, rest) := by
  induction s generalizing fuel run with
  | nil =>
    obtain ⟨n, rfl⟩ : ∃ n, fuel = n + 1 := ⟨fuel - 1, by omega⟩
    rfl
  | cons c s ih =>
    obtain ⟨n, rfl⟩ : ∃ n, fuel = n + 1 := ⟨fuel - 1, by omega⟩
    have hs : basicLine n (escapeBasic 0 false 0 s ++ '"' :: rest) = some (s, rest) :=
      ih (by simpa using hfuel)
    by_cases hc : c = '"'
    · subst hc
      rw [escapeBasic_escaped 0 false (by omega)]
      have hescape : ∀ t : List Char, escape ('"' :: t) = some ('"', t) := fun _ => rfl
      simp only [List.cons_append]
      rw [basicLine_escape n (hescape _), hs]
      rfl
    · rw [escapeBasic_cons 0 false run hc, List.append_assoc, basicLine_escapeChar n hc, hs]
      rfl

/-! ### Double quotes over several lines -/

/-- A character that neither ends the literal nor starts an escape or a line break. -/
lemma basicLines_plain (fuel : Nat) {c : Char} {s : List Char}
    (hend : ∀ t, c :: s ≠ '"' :: '"' :: '"' :: t) (hbackslash : c ≠ '\\')
    (hplain : isPlain c = true) :
    basicLines (fuel + 1) (c :: s) = (basicLines fuel s).map fun r => (c :: r.1, r.2) := by
  have hbreak : lineBreak? (c :: s) = none := by
    unfold lineBreak?
    split
    · rename_i heq
      rw [(List.cons.inj heq).1] at hplain
      cases hplain
    · rename_i heq
      rw [(List.cons.inj heq).1] at hplain
      cases hplain
    · rfl
  rw [basicLines.eq_def]
  split
  · rename_i heq
    cases heq
  · rename_i heq
    exact absurd heq (hend _)
  · rename_i heq
    exact absurd (List.cons.inj heq).1 hbackslash
  · rename_i hfuel _ _
    obtain rfl := Nat.succ.inj hfuel
    rw [hbreak]
    dsimp only
    rw [if_pos hplain]
    cases basicLines fuel s <;> rfl

/-- A line break. -/
lemma basicLines_break (fuel : Nat) (s : List Char) :
    basicLines (fuel + 1) ('\n' :: s) = (basicLines fuel s).map fun r => ('\n' :: r.1, r.2) := by
  rw [basicLines.eq_def]
  split
  · rename_i heq
    cases heq
  · rename_i heq
    cases (List.cons.inj heq).1
  · rename_i heq
    cases (List.cons.inj heq).1
  · rename_i hfuel _ _
    obtain rfl := Nat.succ.inj hfuel
    simp only [lineBreak?]
    cases basicLines fuel s <;> rfl

/-- An escape. -/
lemma basicLines_escape (fuel : Nat) {c e : Char} {s t : List Char}
    (he : e ∉ [' ', '\t', '\n', '\r']) (h : escape (e :: s) = some (c, t)) :
    basicLines (fuel + 1) ('\\' :: e :: s) =
      (basicLines fuel t).map fun r => (c :: r.1, r.2) := by
  simp only [List.mem_cons, List.not_mem_nil, or_false, not_or] at he
  obtain ⟨hspace, htab, hbreak, hreturn⟩ := he
  have hskip : skipBlanks (e :: s) = e :: s := by
    rw [skipBlanks, List.dropWhile_cons_of_neg]
    simp [hspace, htab]
  have hnone : lineBreak? (e :: s) = none := by
    unfold lineBreak?
    split
    · rename_i heq
      exact absurd (List.cons.inj heq).1 hbreak
    · rename_i heq
      exact absurd (List.cons.inj heq).1 hreturn
    · rfl
  rw [basicLines, hskip, hnone]
  dsimp only
  rw [h]
  cases hr : basicLines fuel t <;> simp [hr]

/-- A written character. -/
lemma basicLines_escapeChar (fuel : Nat) {c : Char} (hc : c ≠ '"') (s : List Char) :
    basicLines (fuel + 1) (escapeChar true c ++ s) =
      (basicLines fuel s).map fun r => (c :: r.1, r.2) := by
  rcases escapeChar_cases true c with ⟨hw, ⟨hplain, hbackslash⟩ | ⟨rfl, -⟩⟩ |
    ⟨e, w, hw, he, hescape⟩
  · rw [hw]
    exact basicLines_plain fuel (fun t heq => hc (List.cons.inj heq).1) hbackslash hplain
  · rw [hw]
    exact basicLines_break fuel s
  · rw [hw]
    exact basicLines_escape fuel he (hescape s)

/-- The end of a literal takes up to two more quotes into it. -/
lemma closing_replicate (q : Char) {k : Nat} (hk : k ≤ 2) {rest : List Char}
    (hrest : rest.head? ≠ some q) :
    closing q (List.replicate k q ++ rest) = (List.replicate k q, rest) := by
  have hne : ∀ c t, rest = c :: t → c ≠ q := by
    rintro c t rfl rfl
    exact hrest rfl
  obtain rfl | rfl | rfl : k = 0 ∨ k = 1 ∨ k = 2 := by omega
  · cases rest with
    | nil => rfl
    | cons c t =>
      have hc := hne c t rfl
      cases t <;> simp [closing, hc]
  · cases rest with
    | nil => simp [closing]
    | cons c t =>
      have hc := hne c t rfl
      simp [closing, hc]
  · simp [closing, List.replicate]

/-- Quotes at the end: up to two belong to the literal. -/
lemma basicLines_end (fuel : Nat) {k : Nat} (hk : k ≤ 2) {rest : List Char}
    (hrest : rest.head? ≠ some '"') :
    basicLines (fuel + 1) (List.replicate k '"' ++ '"' :: '"' :: '"' :: rest) =
      some (List.replicate k '"', rest) := by
  have hmove : List.replicate k '"' ++ '"' :: '"' :: '"' :: rest =
      '"' :: '"' :: '"' :: (List.replicate k '"' ++ rest) := by
    obtain rfl | rfl | rfl : k = 0 ∨ k = 1 ∨ k = 2 := by omega
    · rfl
    · rfl
    · rfl
  rw [hmove, basicLines, closing_replicate '"' hk hrest]

/-- A written character starts with a backslash or is itself. -/
lemma head_escapeChar (broken : Bool) (c : Char) (s : List Char) :
    (escapeChar broken c ++ s).head? = some '\\' ∨
      ((escapeChar broken c ++ s).head? = some c ∧ (isPlain c = true ∨ c = '\n')) := by
  rcases escapeChar_cases broken c with ⟨hw, ⟨hplain, -⟩ | ⟨hbreak, -⟩⟩ | ⟨e, w, hw, -⟩
  · exact .inr ⟨by rw [hw]; rfl, .inl hplain⟩
  · exact .inr ⟨by rw [hw]; rfl, .inr hbreak⟩
  · exact .inl (by rw [hw]; rfl)

/-- Behind a run of as many quotes as are allowed there is no further one. -/
lemma head_escapeBasic (allowed : Nat) (broken : Bool) (run : Nat) {c : Char} (s t : List Char)
    (h : c ≠ '"' ∨ allowed < run + 1) :
    (escapeBasic allowed broken run (c :: s) ++ t).head? ≠ some '"' := by
  by_cases hc : c = '"'
  · subst hc
    rw [escapeBasic_escaped allowed broken (h.resolve_left (fun h => h rfl))]
    intro heq
    cases Option.some.inj heq
  · rw [escapeBasic_cons allowed broken run hc, List.append_assoc]
    rcases head_escapeChar broken c (escapeBasic allowed broken 0 s ++ t) with heq | ⟨heq, -⟩
    · rw [heq]
      decide
    · rw [heq]
      exact fun h => hc (Option.some.inj h)

/-- A written text is no shorter than the text. -/
lemma length_escapeBasic (allowed : Nat) (broken : Bool) (run : Nat) (s : List Char) :
    s.length ≤ (escapeBasic allowed broken run s).length := by
  induction s generalizing run with
  | nil => exact Nat.zero_le _
  | cons c s ih =>
    by_cases hc : c = '"'
    · subst hc
      by_cases hallowed : run + 1 ≤ allowed
      · rw [escapeBasic_quote allowed broken hallowed]
        exact Nat.succ_le_succ (ih (run + 1))
      · rw [escapeBasic_escaped allowed broken (by omega)]
        exact Nat.le_succ_of_le (Nat.succ_le_succ (ih 0))
    · rw [escapeBasic_cons allowed broken run hc, List.length_append, List.length_cons]
      have hone : 1 ≤ (escapeChar broken c).length := by
        rcases escapeChar_cases broken c with ⟨hw, -⟩ | ⟨e, w, hw, -⟩ <;> simp [hw]
      have hs := ih 0
      omega

/-- A quote inside a literal, where at most two stand side by side. -/
lemma basicLines_quote (fuel : Nat) {s : List Char} (h : ∀ t, s ≠ '"' :: '"' :: t) :
    basicLines (fuel + 1) ('"' :: s) = (basicLines fuel s).map fun r => ('"' :: r.1, r.2) :=
  basicLines_plain fuel (fun t heq => h t (List.cons.inj heq).2) (by decide) (by decide)

/-- **A text between tripled double quotes is read back.** -/
theorem basicLines_escapeBasic (s : List Char) {rest : List Char}
    (hrest : rest.head? ≠ some '"') {fuel run : Nat} (hfuel : s.length < fuel) (hrun : run ≤ 2) :
    basicLines fuel (escapeBasic 2 true run s ++ '"' :: '"' :: '"' :: rest) = some (s, rest) := by
  induction s generalizing fuel run with
  | nil =>
    obtain ⟨n, rfl⟩ : ∃ n, fuel = n + 1 := ⟨fuel - 1, by omega⟩
    exact basicLines_end n (Nat.zero_le 2) hrest
  | cons c s ih =>
    obtain ⟨n, rfl⟩ : ∃ n, fuel = n + 1 := ⟨fuel - 1, by omega⟩
    have hlength : s.length < n := by simpa using hfuel
    by_cases hc : c = '"'
    · subst hc
      by_cases hallowed : run + 1 ≤ 2
      · -- The quote is plain: what follows it decides whether it belongs to the end.
        rw [escapeBasic_quote 2 true hallowed]
        cases s with
        | nil => exact basicLines_end n (k := 1) (by omega) hrest
        | cons d s =>
          by_cases hlast : d = '"' ∧ run = 0 ∧ s = []
          · obtain ⟨rfl, rfl, rfl⟩ := hlast
            exact basicLines_end n (k := 2) (by omega) hrest
          · rw [List.cons_append, basicLines_quote n, ih hlength hallowed]
            · rfl
            · intro t heq
              by_cases hd : d = '"'
              · subst hd
                by_cases hrun0 : run = 0
                · subst hrun0
                  rw [escapeBasic_quote 2 true (by omega), List.cons_append] at heq
                  cases s with
                  | nil => exact hlast ⟨rfl, rfl, rfl⟩
                  | cons e s =>
                    apply head_escapeBasic 2 true 2 s _ (.inr (by omega))
                    rw [(List.cons.inj heq).2]
                    rfl
                · apply head_escapeBasic 2 true (run + 1) s _ (.inr (by omega))
                  rw [heq]
                  rfl
              · apply head_escapeBasic 2 true (run + 1) s _ (.inl hd)
                rw [heq]
                rfl
      · rw [escapeBasic_escaped 2 true (by omega)]
        have hescape : ∀ t : List Char, escape ('"' :: t) = some ('"', t) := fun _ => rfl
        simp only [List.cons_append]
        rw [basicLines_escape n (by decide) (hescape _), ih hlength (Nat.zero_le 2)]
        rfl
    · rw [escapeBasic_cons 2 true run hc, List.append_assoc, basicLines_escapeChar n hc,
        ih hlength (Nat.zero_le 2)]
      rfl

/-! ### Single quotes -/

/-- **A text in single quotes is read back.** -/
theorem rawLine_append {s : List Char} (h : ∀ c ∈ s, isPlain c = true ∧ c ≠ '\'')
    (rest : List Char) : rawLine (s ++ '\'' :: rest) = some (s, rest) := by
  induction s with
  | nil => rfl
  | cons c s ih =>
    obtain ⟨hplain, hquote⟩ := h c (by simp)
    have hs := ih fun d hd => h d (by simp [hd])
    rw [List.cons_append, rawLine.eq_def]
    split
    · rename_i heq
      cases heq
    · rename_i heq
      exact absurd (List.cons.inj heq).1 hquote
    · rename_i heq
      obtain ⟨rfl, rfl⟩ := List.cons.inj heq
      rw [if_pos hplain, hs]
      rfl

/-- Quotes at the end: up to two belong to the literal. -/
lemma rawLines_end (fuel : Nat) {k : Nat} (hk : k ≤ 2) {rest : List Char}
    (hrest : rest.head? ≠ some '\'') :
    rawLines (fuel + 1) (List.replicate k '\'' ++ '\'' :: '\'' :: '\'' :: rest) =
      some (List.replicate k '\'', rest) := by
  have hmove : List.replicate k '\'' ++ '\'' :: '\'' :: '\'' :: rest =
      '\'' :: '\'' :: '\'' :: (List.replicate k '\'' ++ rest) := by
    obtain rfl | rfl | rfl : k = 0 ∨ k = 1 ∨ k = 2 := by omega
    · rfl
    · rfl
    · rfl
  rw [hmove, rawLines, closing_replicate '\'' hk hrest]

/-- A character that does not end the literal. -/
lemma rawLines_char (fuel : Nat) {c : Char} {s : List Char}
    (hend : ∀ t, c :: s ≠ '\'' :: '\'' :: '\'' :: t) (hc : isPlain c = true ∨ c = '\n') :
    rawLines (fuel + 1) (c :: s) = (rawLines fuel s).map fun r => (c :: r.1, r.2) := by
  rw [rawLines.eq_def]
  split
  · rename_i heq
    cases heq
  · rename_i heq
    exact absurd heq (hend _)
  · rename_i hfuel _
    obtain rfl := Nat.succ.inj hfuel
    by_cases hbreak : c = '\n'
    · subst hbreak
      simp only [lineBreak?]
      cases rawLines fuel s <;> rfl
    · have hplain := hc.resolve_right hbreak
      have hnone : lineBreak? (c :: s) = none := by
        unfold lineBreak?
        split
        · rename_i heq
          exact absurd (List.cons.inj heq).1 hbreak
        · rename_i heq
          rw [(List.cons.inj heq).1] at hplain
          cases hplain
        · rfl
      rw [hnone]
      dsimp only
      rw [if_pos hplain]
      cases rawLines fuel s <;> rfl

/-- The longest run is no shorter than the run it starts with. -/
lemma le_longestRun (q : Char) (n : Nat) (s : List Char) : n ≤ longestRun q n s := by
  induction s generalizing n with
  | nil => exact Nat.le_refl n
  | cons c s ih =>
    rw [longestRun]
    split
    · exact Nat.le_trans (by omega) (ih (n + 1))
    · exact Nat.le_max_left _ _

/-- A longer run before a text makes its longest run no shorter. -/
lemma longestRun_mono (q : Char) {m n : Nat} (h : m ≤ n) (s : List Char) :
    longestRun q m s ≤ longestRun q n s := by
  induction s generalizing m n with
  | nil => exact h
  | cons c s ih =>
    rw [longestRun, longestRun]
    split
    · exact ih (by omega)
    · omega

/-- The longest run of a text is no shorter than that of its tail. -/
lemma longestRun_tail (q c : Char) (s : List Char) :
    longestRun q 0 s ≤ longestRun q 0 (c :: s) := by
  rw [longestRun]
  split
  · exact longestRun_mono q (Nat.zero_le _) s
  · exact Nat.le_max_right _ _

/-- **A text between tripled single quotes is read back.** -/
theorem rawLines_append {s : List Char} (h : ∀ c ∈ s, isPlain c = true ∨ c = '\n')
    (hrun : longestRun '\'' 0 s ≤ 2) {rest : List Char} (hrest : rest.head? ≠ some '\'')
    {fuel : Nat} (hfuel : s.length < fuel) :
    rawLines fuel (s ++ '\'' :: '\'' :: '\'' :: rest) = some (s, rest) := by
  induction s generalizing fuel with
  | nil =>
    obtain ⟨n, rfl⟩ : ∃ n, fuel = n + 1 := ⟨fuel - 1, by omega⟩
    exact rawLines_end n (Nat.zero_le 2) hrest
  | cons c s ih =>
    obtain ⟨n, rfl⟩ : ∃ n, fuel = n + 1 := ⟨fuel - 1, by omega⟩
    have hs : rawLines n (s ++ '\'' :: '\'' :: '\'' :: rest) = some (s, rest) :=
      ih (fun d hd => h d (by simp [hd])) (Nat.le_trans (longestRun_tail _ _ _) hrun)
        (by simpa using hfuel)
    by_cases hlast : c :: s = ['\''] ∨ c :: s = ['\'', '\'']
    · rcases hlast with heq | heq
      · rw [heq]
        exact rawLines_end n (k := 1) (by omega) hrest
      · rw [heq]
        exact rawLines_end n (k := 2) (by omega) hrest
    · rw [List.cons_append, rawLines_char n ?_ (h c (by simp)), hs]
      · rfl
      -- Three quotes in a row would be a run of three.
      intro t hc
      obtain ⟨rfl, hd⟩ := List.cons.inj hc
      cases s with
      | nil => exact hlast (.inl rfl)
      | cons d s =>
        obtain ⟨rfl, he⟩ := List.cons.inj hd
        cases s with
        | nil => exact hlast (.inr rfl)
        | cons e s =>
          obtain ⟨rfl, -⟩ := List.cons.inj he
          have hle := le_longestRun '\'' (0 + 1 + 1 + 1) s
          simp only [longestRun, if_true] at hrun
          omega

/-! ### Choice of the style -/

/-- A literal whose second character is no quote stands on one line. -/
lemma literal_line {q : Char} {s : List Char} (h : ∀ t, s ≠ q :: q :: t) :
    literal (q :: s) = lineLiteral (q :: s) := by
  unfold literal
  split
  · rename_i heq
    obtain ⟨rfl, rfl⟩ := List.cons.inj heq
    exact absurd rfl (h _)
  · rename_i heq
    obtain ⟨rfl, rfl⟩ := List.cons.inj heq
    exact absurd rfl (h _)
  · rfl

/-- A text that does not start with a line break. -/
lemma skipBreak_eq {s : List Char} (hbreak : s.head? ≠ some '\n') (hreturn : s.head? ≠ some '\r') :
    skipBreak s = s := by
  have hnone : lineBreak? s = none := by
    unfold lineBreak?
    split
    · exact absurd rfl hbreak
    · exact absurd rfl hreturn
    · rfl
  rw [skipBreak, hnone, Option.getD_none]

/-- The longest run of a character that does not occur. -/
lemma not_mem_of_longestRun {q : Char} {s : List Char} (h : longestRun q 0 s = 0) : q ∉ s := by
  induction s with
  | nil => simp
  | cons c s ih =>
    have htail := longestRun_tail q c s
    intro hq
    rcases List.mem_cons.mp hq with rfl | hq
    · have hle := le_longestRun q (0 + 1) s
      rw [longestRun, if_pos rfl] at h
      omega
    · exact ih (by omega) hq

/-- What the reader makes of a literal before a line break. -/
def Reads (text : List Char) (s : List Char) : Prop :=
  ∀ rest, literal (text ++ '\n' :: rest) = some (String.ofList s, '\n' :: rest)

/-- A basic literal on one line is read back. -/
lemma reads_quoteBasic (s : List Char) : Reads (quoteBasic s) s := by
  intro rest
  have htext : quoteBasic s ++ '\n' :: rest =
      '"' :: (escapeBasic 0 false 0 s ++ '"' :: '\n' :: rest) := by
    simp [quoteBasic]
  have hlength := length_escapeBasic 0 false 0 s
  rw [htext, literal_line]
  · rw [lineLiteral]
    simp only
    rw [basicLine_escapeBasic s _ (by rw [List.length_append]; omega)]
    rfl
  · intro t heq
    cases s with
    | nil => simp [escapeBasic] at heq
    | cons c s =>
      apply head_escapeBasic 0 false 0 s ('"' :: '\n' :: rest) (.inr (by omega)) (c := c)
      rw [heq]
      rfl

/-- A raw literal on one line is read back. -/
lemma reads_quoteRaw {s : List Char} (h : ∀ c ∈ s, isPlain c = true ∧ c ≠ '\'') :
    Reads (quoteRaw s) s := by
  intro rest
  have htext : quoteRaw s ++ '\n' :: rest = '\'' :: (s ++ '\'' :: '\n' :: rest) := by
    simp [quoteRaw]
  rw [htext, literal_line]
  · rw [lineLiteral]
    simp only
    rw [rawLine_append h]
    rfl
  · intro t heq
    cases s with
    | nil => simp at heq
    | cons c s => exact (h c (by simp)).2 (List.cons.inj heq).1

/-- A break after the opening quotes does not count, and it stands there if the text has one. -/
lemma skipBreak_opening {s t : List Char} (h : '\n' ∉ s → t.head? ≠ some '\n')
    (hreturn : t.head? ≠ some '\r') : skipBreak (opening s ++ t) = t := by
  unfold opening
  split
  · rfl
  · rename_i hbreak
    exact skipBreak_eq (h (by simpa using hbreak)) hreturn

/-- A written text starts with a line break only if the text does, and never with a return. -/
lemma head_escapeBasic_break (allowed : Nat) (broken : Bool) (run : Nat) (s t : List Char) :
    (('\n' ∉ s → (escapeBasic allowed broken run s ++ '"' :: t).head? ≠ some '\n') ∧
      (escapeBasic allowed broken run s ++ '"' :: t).head? ≠ some '\r') := by
  cases s with
  | nil => exact ⟨fun _ => by simp [escapeBasic], by simp [escapeBasic]⟩
  | cons c s =>
    by_cases hc : c = '"'
    · subst hc
      by_cases hallowed : run + 1 ≤ allowed
      · rw [escapeBasic_quote allowed broken hallowed]
        exact ⟨fun _ => by simp, by simp⟩
      · rw [escapeBasic_escaped allowed broken (by omega)]
        exact ⟨fun _ => by simp, by simp⟩
    · rw [escapeBasic_cons allowed broken run hc, List.append_assoc]
      rcases head_escapeChar broken c (escapeBasic allowed broken 0 s ++ '"' :: t) with
        heq | ⟨heq, hplain⟩
      · rw [heq]
        exact ⟨fun _ => by decide, by decide⟩
      · rw [heq]
        refine ⟨?_, ?_⟩
        · intro hbreak h
          exact hbreak (by simp [Option.some.inj h])
        · intro h
          rw [Option.some.inj h] at hplain
          revert hplain
          decide

/-- A basic literal over several lines is read back. -/
lemma reads_quoteBasicLines (s : List Char) : Reads (quoteBasicLines s) s := by
  intro rest
  have htext : quoteBasicLines s ++ '\n' :: rest = '"' :: '"' :: '"' :: (opening s ++
      (escapeBasic 2 true 0 s ++ '"' :: '"' :: '"' :: '\n' :: rest)) := by
    simp [quoteBasicLines]
  have hlength := length_escapeBasic 2 true 0 s
  have hskip : skipBreak (opening s ++
      (escapeBasic 2 true 0 s ++ '"' :: '"' :: '"' :: '\n' :: rest)) =
      escapeBasic 2 true 0 s ++ '"' :: '"' :: '"' :: '\n' :: rest :=
    have hhead := head_escapeBasic_break 2 true 0 s ('"' :: '"' :: '\n' :: rest)
    skipBreak_opening hhead.1 hhead.2
  rw [htext, literal]
  simp only [hskip]
  rw [basicLines_escapeBasic s (by simp) (by simp only [List.length_append]; omega) (Nat.zero_le 2)]
  rfl

/-- A raw literal over several lines is read back. -/
lemma reads_quoteRawLines {s : List Char} (h : ∀ c ∈ s, isPlain c = true ∨ c = '\n')
    (hrun : longestRun '\'' 0 s ≤ 2) : Reads (quoteRawLines s) s := by
  intro rest
  have htext : quoteRawLines s ++ '\n' :: rest = '\'' :: '\'' :: '\'' :: (opening s ++
      (s ++ '\'' :: '\'' :: '\'' :: '\n' :: rest)) := by
    simp [quoteRawLines]
  have hskip : skipBreak (opening s ++ (s ++ '\'' :: '\'' :: '\'' :: '\n' :: rest)) =
      s ++ '\'' :: '\'' :: '\'' :: '\n' :: rest := by
    apply skipBreak_opening
    · intro hbreak
      cases s with
      | nil => simp
      | cons c s => exact fun heq => hbreak (by rw [Option.some.inj heq]; simp)
    · cases s with
      | nil => simp
      | cons c s =>
        intro heq
        have hc := h c (by simp)
        rw [Option.some.inj heq] at hc
        revert hc
        decide
  rw [htext, literal]
  simp only [hskip]
  rw [rawLines_append h hrun (by simp) (by simp only [List.length_append]; omega)]
  rfl

/-- A text without controls has plain characters and line breaks only. -/
lemma plain_of_needsEscape {s : List Char} (h : needsEscape s = false) :
    ∀ c ∈ s, isPlain c = true ∨ c = '\n' := by
  intro c hc
  have hall := List.any_eq_false.mp h c hc
  simpa [or_iff_not_imp_left] using hall

/-- **A text is read back, whatever style it is written in.** -/
theorem literal_quote (s : String) (rest : List Char) :
    literal ((quote s).toList ++ '\n' :: rest) = some (s, '\n' :: rest) := by
  have hstyle : ∃ text, (quote s).toList = text ∧ Reads text s.toList := by
    unfold quote
    simp only [String.toList_ofList]
    split
    · exact ⟨_, rfl, reads_quoteBasic _⟩
    split
    · rename_i h
      simp only [Bool.and_eq_true, Bool.not_eq_true', decide_eq_true_eq] at h
      obtain ⟨⟨hplain, hsingles⟩, hbroken⟩ := h
      refine ⟨_, rfl, reads_quoteRaw ?_⟩
      intro c hc
      refine ⟨?_, ?_⟩
      · rcases plain_of_needsEscape hplain c hc with h | rfl
        · exact h
        · simp [hc] at hbroken
      · rintro rfl
        exact not_mem_of_longestRun hsingles hc
    split
    · exact ⟨_, rfl, reads_quoteBasicLines _⟩
    split
    · rename_i h
      simp only [Bool.and_eq_true, Bool.not_eq_true', decide_eq_true_eq] at h
      exact ⟨_, rfl, reads_quoteRawLines (plain_of_needsEscape h.1) h.2⟩
    split
    · exact ⟨_, rfl, reads_quoteBasicLines _⟩
    · exact ⟨_, rfl, reads_quoteBasic _⟩
  obtain ⟨text, htext, hreads⟩ := hstyle
  rw [htext, hreads rest, String.ofList_toList]

end Daq.Toml
