import Daq.Table
import Mathlib.Data.List.Basic
import Mathlib.Data.List.Nodup

set_option autoImplicit false

/-!
# Keys and look-ups of tables

What the operations on a table do to its keys, to its size and to its look-ups, beyond what
`Daq.Table` says itself. A table is used through its look-ups from here on.

## Main results

* `Daq.Table.mem_keys` — the keys are where the look-up succeeds.
* `Daq.Table.keys_nodup` — no key is listed twice.
* `Daq.Table.get?_map` — look-ups after a change of all values.
* `Daq.Table.insert_insert` — the later of two insertions under one key wins.
* `Daq.Table.mem_keys_ofList`, `Daq.Table.get?_ofList_eq_some_iff` — keys and look-ups of a table
  that was made from pairs.
* `Daq.Table.keys_map` — keys after a change of all values.
* `Daq.Table.ofList_toList` — a table is made from its own pairs.
-/

namespace Daq.Table

open Std

variable {κ α β : Type} [Ord κ]

/-! ### Look-ups -/

/-- Changing every value changes what the look-up finds. -/
lemma find?_map (f : α → β) (k : κ) (l : List (κ × α)) :
    find? k (l.map fun e => (e.1, f e.2)) = (find? k l).map f := by
  induction l with
  | nil => rfl
  | cons e rest ih =>
    simp only [List.map_cons, find?, ih]
    split <;> rfl

/-- Changing every value changes what the look-up finds. -/
@[simp]
lemma get?_map (t : Table κ α) (f : α → β) (k : κ) : (t.map f).get? k = (t.get? k).map f :=
  find?_map f k t.entries

section Lawful

variable [TransOrd κ] [LawfulEqOrd κ]

/-- **A key is listed exactly where the look-up succeeds.** -/
lemma mem_keys (t : Table κ α) (k : κ) : k ∈ t.keys ↔ (t.get? k).isSome := by
  rw [Option.isSome_iff_exists]
  constructor
  · intro h
    obtain ⟨⟨j, v⟩, hv, rfl⟩ := List.mem_map.mp h
    exact ⟨v, (t.get?_eq_some_iff _ v).mpr hv⟩
  · rintro ⟨v, hv⟩
    exact List.mem_map.mpr ⟨(k, v), (t.get?_eq_some_iff k v).mp hv, rfl⟩

/-- A value is listed exactly if some look-up finds it. -/
lemma mem_values (t : Table κ α) (v : α) : v ∈ t.values ↔ ∃ k, t.get? k = some v := by
  constructor
  · intro h
    obtain ⟨⟨k, w⟩, hw, rfl⟩ := List.mem_map.mp h
    exact ⟨k, (t.get?_eq_some_iff k w).mpr hw⟩
  · rintro ⟨k, hk⟩
    exact List.mem_map.mpr ⟨(k, v), (t.get?_eq_some_iff k v).mp hk, rfl⟩

omit [LawfulEqOrd κ] in
/-- No key is listed twice. -/
lemma keys_nodup (t : Table κ α) : t.keys.Nodup := by
  have h := t.ascending
  unfold Ascending at h
  rw [keys, List.Nodup, List.pairwise_map]
  apply h.imp
  intro a b hab heq
  rw [heq] at hab
  simp at hab

/-- A note on values that tells keys apart is taken of no two values. -/
lemma nodup_values_map (t : Table κ α) (f : α → β)
    (hf : ∀ k j v w, t.get? k = some v → t.get? j = some w → f v = f w → k = j) :
    (t.values.map f).Nodup := by
  unfold values
  rw [List.map_map]
  refine List.Nodup.map_on (fun a ha b hb hab => ?_) (List.Nodup.of_map _ t.keys_nodup)
  have ha' := (t.get?_eq_some_iff a.1 a.2).mpr ha
  have hb' := (t.get?_eq_some_iff b.1 b.2).mpr hb
  have hkey := hf a.1 b.1 a.2 b.2 ha' hb' hab
  rw [hkey, hb', Option.some.injEq] at ha'
  exact Prod.ext hkey ha'.symm

/-- The later of two insertions under one key wins. -/
lemma insert_insert [DecidableEq κ] (t : Table κ α) (k : κ) (v w : α) :
    (t.insert k v).insert k w = t.insert k w := by
  apply ext_get?
  intro j
  by_cases h : j = k <;> simp [h]

/-- Storing what is there already changes nothing. -/
lemma insert_get? [DecidableEq κ] (t : Table κ α) {k : κ} {v : α} (h : t.get? k = some v) :
    t.insert k v = t := by
  apply ext_get?
  intro j
  by_cases hj : j = k
  · subst hj; simp [h]
  · simp [hj]

/-- The keys after an insertion. -/
lemma mem_keys_insert [DecidableEq κ] (t : Table κ α) (k j : κ) (v : α) :
    j ∈ (t.insert k v).keys ↔ j = k ∨ j ∈ t.keys := by
  rw [mem_keys, mem_keys, get?_insert]
  by_cases h : j = k <;> simp [h]

/-- The keys of a table of pairs are those of the pairs. -/
lemma mem_keys_ofList [DecidableEq κ] (pairs : List (κ × α)) (k : κ) :
    k ∈ (ofList pairs).keys ↔ k ∈ pairs.map fun e => e.1 := by
  have hfold : ∀ t : Table κ α, k ∈ (pairs.foldl (fun t e => t.insert e.1 e.2) t).keys ↔
      k ∈ t.keys ∨ k ∈ pairs.map fun e => e.1 := by
    induction pairs with
    | nil => simp
    | cons e pairs ih =>
      intro t
      rw [List.foldl_cons, ih, mem_keys_insert, List.map_cons, List.mem_cons]
      tauto
  have h := hfold empty
  simpa [ofList, keys, empty] using h

/-- A table of pairs with distinct keys holds just these pairs. -/
lemma get?_ofList_eq_some_iff [DecidableEq κ] {pairs : List (κ × α)}
    (hdistinct : (pairs.map Prod.fst).Nodup) (k : κ) (v : α) :
    (ofList pairs).get? k = some v ↔ (k, v) ∈ pairs := by
  have hfold : ∀ t : Table κ α, (pairs.foldl (fun t e => t.insert e.1 e.2) t).get? k = some v ↔
      (k, v) ∈ pairs ∨ k ∉ pairs.map Prod.fst ∧ t.get? k = some v := by
    induction pairs with
    | nil => simp
    | cons e pairs ih =>
      intro t
      rw [List.map_cons, List.nodup_cons] at hdistinct
      rw [List.foldl_cons, ih hdistinct.2, get?_insert, List.mem_cons, List.map_cons, List.mem_cons]
      by_cases hk : k = e.1
      · have hnot : (k, v) ∉ pairs := by
          rw [hk]
          exact fun hmem => hdistinct.1 (List.mem_map.mpr ⟨_, hmem, rfl⟩)
        rw [hk] at hnot ⊢
        simp [hnot, hdistinct.1, Prod.ext_iff, eq_comm]
      · simp [hk, Prod.ext_iff]
  simpa [ofList] using hfold empty

/-- Storing ascending pairs one after the other. -/
lemma get?_foldl_insert [DecidableEq κ] {pairs : List (κ × α)} (h : Ascending pairs)
    (t : Table κ α) (k : κ) :
    (pairs.foldl (fun t e => t.insert e.1 e.2) t).get? k = (find? k pairs).or (t.get? k) := by
  induction pairs generalizing t with
  | nil => rfl
  | cons e pairs ih =>
    have hrest : Ascending pairs := (List.pairwise_cons.mp h).2
    rw [List.foldl_cons, ih hrest, get?_insert, find?]
    by_cases hk : k = e.1
    · have hnone : find? k pairs = none := by
        rw [Option.eq_none_iff_forall_not_mem]
        intro v hv
        have hlt := (List.pairwise_cons.mp h).1 _ ((find?_eq_some_iff hrest k v).mp hv)
        rw [hk] at hlt
        simp at hlt
      rw [hnone, if_pos hk, if_pos (by rw [hk]; exact ReflCmp.compare_self)]
      rfl
    · rw [if_neg hk, if_neg fun heq => hk (LawfulEqOrd.eq_of_compare heq)]

/-- **A table is made from its own pairs.** -/
lemma ofList_toList [DecidableEq κ] (t : Table κ α) : ofList t.toList = t := by
  apply ext_get?
  intro k
  rw [ofList, toList, get?_foldl_insert t.ascending, get?_empty, Option.or_none]
  rfl

end Lawful

/-! ### Keys and sizes -/

/-- Changing the values keeps the keys. -/
@[simp]
lemma keys_map (t : Table κ α) (f : α → β) : (t.map f).keys = t.keys := by
  simp [keys, map, List.map_map, Function.comp_def]

/-- There are as many values as keys. -/
lemma length_values (t : Table κ α) : t.values.length = t.keys.length := by
  simp [values, keys]

/-- The empty table has no keys. -/
@[simp]
lemma keys_empty : (empty : Table κ α).keys = [] := rfl

end Daq.Table
