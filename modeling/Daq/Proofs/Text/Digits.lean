import Daq.Bounds
import Mathlib.Data.List.Basic

set_option autoImplicit false

/-!
# Decimal digits

The digits in which a whole number is written, as numbers: they say the value, there is at least one
of them, and only the number zero starts with a zero. Both formats read whole numbers digit by
digit, and all that is needed of the written form is said here.

## Main definitions

* `Daq.Text.IsDecimal` — the digits of a whole number.

## Main results

* `Daq.Text.exists_isDecimal` — every whole number is written with its digits.
-/

namespace Daq.Text

/-- The value of digits after a number. -/
def appended (n : Nat) (ds : List Nat) : Nat := ds.foldl (fun n d => 10 * n + d) n

/-- Digits make a number greater. -/
lemma le_appended (n : Nat) (ds : List Nat) : n ≤ appended n ds := by
  unfold appended
  induction ds generalizing n with
  | nil => exact Nat.le_refl n
  | cons d ds ih => exact Nat.le_trans (by omega) (ih (10 * n + d))

/-- The digits of a whole number. -/
structure IsDecimal (ds : List Nat) (n : Nat) : Prop where
  /-- They are digits. -/
  lt_ten : ∀ d ∈ ds, d < 10
  /-- They say the value. -/
  value : appended 0 ds = n
  /-- There is one. -/
  ne_nil : ds ≠ []
  /-- None of them is superfluous. -/
  leading : ∀ rest, ds = 0 :: rest → rest = []

/-- The digits of a number with one more digit than another. -/
lemma IsDecimal.snoc {ds : List Nat} {n d : Nat} (h : IsDecimal ds n) (hn : n ≠ 0) (hd : d < 10) :
    IsDecimal (ds ++ [d]) (10 * n + d) where
  lt_ten e he := by
    rcases List.mem_append.mp he with he | he
    · exact h.lt_ten e he
    · rw [List.mem_singleton.mp he]
      exact hd
  value := by
    have hv := h.value
    unfold appended at hv ⊢
    rw [List.foldl_append, hv]
    rfl
  ne_nil := by simp
  leading rest hrest := by
    exfalso
    cases ds with
    | nil => exact h.ne_nil rfl
    | cons e ds =>
      obtain ⟨rfl, -⟩ := List.cons.inj hrest
      rw [h.leading ds rfl] at h
      exact hn h.value.symm

/-- **Every whole number is written with its digits.** -/
theorem exists_isDecimal (n : Nat) :
    ∃ ds, IsDecimal ds n ∧ Nat.toDigits 10 n = ds.map Nat.digitChar := by
  induction n using Nat.strongRecOn with
  | ind n ih =>
    rw [Nat.toDigits_eq_if (by omega)]
    split
    · rename_i hlt
      refine ⟨[n], ⟨?_, by simp [appended], by simp, ?_⟩, rfl⟩
      · intro d hd
        rw [List.mem_singleton.mp hd]
        exact hlt
      · intro rest hrest
        exact (List.cons.inj hrest).2.symm
    · rename_i hge
      obtain ⟨ds, hds, hchars⟩ := ih (n / 10) (by omega)
      refine ⟨ds ++ [n % 10], ?_, ?_⟩
      · have h := hds.snoc (by omega) (Nat.mod_lt n (by omega : 0 < 10))
        rwa [Nat.div_add_mod] at h
      · rw [hchars, List.map_append]
        rfl

/-- The text of a whole number. -/
lemma toList_toString (n : Nat) : (toString (n : Int)).toList = Nat.toDigits 10 n := by
  rw [Int.toString_eq_repr, Int.repr_eq_if, if_pos (by omega)]
  exact Nat.toList_repr

/-- The text of a negative number. -/
lemma toList_toString_neg {n : Nat} (hn : n ≠ 0) :
    (toString (-n : Int)).toList = '-' :: Nat.toDigits 10 n := by
  rw [Int.toString_eq_repr, Int.repr_eq_if, if_neg (by omega), Int.neg_neg, String.toList_append,
    Nat.toList_repr]
  rfl

end Daq.Text
