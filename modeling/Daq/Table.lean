set_option autoImplicit false

/-!
# Ordered tables

A table maps keys to values and lists its entries in ascending key order, so a table has one
representation: two tables with the same look-ups are equal. Parameters of a topic, properties of
a tag, the sinks of a hub and the pollers of a reconciler are tables.

## Main definitions

* `Daq.Table` — key-value pairs, strictly ascending in the key.
* `Daq.Table.get?`, `Daq.Table.insert`, `Daq.Table.erase` — look-up, update and removal.

## Main results

* `Daq.Table.get?_insert`, `Daq.Table.get?_erase` — what an update does to every look-up.
* `Daq.Table.ext_get?` — a table is determined by its look-ups.
-/

namespace Daq

open Std

/-- The entry list of a table: strictly ascending keys. -/
def Ascending {κ α : Type} [Ord κ] (entries : List (κ × α)) : Prop :=
  entries.Pairwise fun a b => compare a.1 b.1 = .lt

/-- A finite map whose entries are listed in strictly ascending key order. -/
structure Table (κ α : Type) [Ord κ] where
  /-- The entries, in key order. -/
  entries : List (κ × α)
  /-- Keys strictly ascend. -/
  ascending : Ascending entries

namespace Table

variable {κ α β : Type} [Ord κ]

/-- Tables are compared by their entries. -/
instance [DecidableEq κ] [DecidableEq α] : DecidableEq (Table κ α) := fun s t =>
  decidable_of_iff (s.entries = t.entries) <| by
    cases s; cases t; simp

/-- Two tables with the same entries are equal. -/
theorem ext_entries {s t : Table κ α} (h : s.entries = t.entries) : s = t := by
  cases s; cases t; simp_all

/-- The table without entries. -/
def empty : Table κ α := ⟨[], List.Pairwise.nil⟩

/-- The empty table is written `∅`. -/
instance : EmptyCollection (Table κ α) := ⟨empty⟩

/-- Some table is the empty one. -/
instance : Inhabited (Table κ α) := ⟨empty⟩

/-- The keys, ascending. -/
def keys (t : Table κ α) : List κ := t.entries.map (·.1)

/-- The values, in key order. -/
def values (t : Table κ α) : List α := t.entries.map (·.2)

/-- The number of entries. -/
def size (t : Table κ α) : Nat := t.entries.length

/-- Whether the table has no entry. -/
def isEmpty (t : Table κ α) : Bool := t.entries.isEmpty

/-- The value of the first entry with key `k`. -/
def find? (k : κ) : List (κ × α) → Option α
  | [] => none
  | e :: rest => if compare k e.1 = .eq then some e.2 else find? k rest

/-- The value stored under `k`. -/
def get? (t : Table κ α) (k : κ) : Option α := find? k t.entries

/-- Whether `k` has an entry. -/
def contains (t : Table κ α) (k : κ) : Bool := (t.get? k).isSome

/-- One pass insertion: an entry with the same key is replaced. -/
def place (k : κ) (v : α) : List (κ × α) → List (κ × α)
  | [] => [(k, v)]
  | e :: rest =>
    match compare k e.1 with
    | .lt => (k, v) :: e :: rest
    | .eq => (k, v) :: rest
    | .gt => e :: place k v rest

/-- An insertion adds no other entry. -/
theorem mem_place {k : κ} {v : α} {x : κ × α} {l : List (κ × α)} (h : x ∈ place k v l) :
    x = (k, v) ∨ x ∈ l := by
  induction l with
  | nil => simpa [place] using h
  | cons e rest ih =>
    rw [place] at h
    split at h <;> grind

/-- An insertion changes the look-up of its key only. -/
theorem find?_place [TransOrd κ] [LawfulEqOrd κ] (k : κ) (v : α) (j : κ) (l : List (κ × α)) :
    find? j (place k v l) = if compare j k = .eq then some v else find? j l := by
  induction l with
  | nil => simp [place, find?]
  | cons e rest ih =>
    rw [place]
    split
    · simp [find?]
    · rename_i h
      have hk : k = e.1 := LawfulEqOrd.eq_of_compare h
      simp only [find?, hk]
      split <;> rfl
    · rename_i h
      simp only [find?, ih]
      split
      · rename_i he
        have hj : j = e.1 := LawfulEqOrd.eq_of_compare he
        have hne : compare j k ≠ .eq := by
          intro hjk
          rw [← LawfulEqOrd.eq_of_compare hjk, hj] at h
          simp at h
        simp [hne]
      · rfl

/-- An insertion keeps the keys in order. -/
theorem ascending_place [TransOrd κ] [LawfulEqOrd κ] (k : κ) (v : α) {l : List (κ × α)}
    (h : Ascending l) : Ascending (place k v l) := by
  unfold Ascending at h ⊢
  induction l with
  | nil => simp [place]
  | cons e rest ih =>
    rw [List.pairwise_cons] at h
    rw [place]
    split
    · rename_i hlt
      refine List.pairwise_cons.mpr ⟨fun x hx => ?_, List.pairwise_cons.mpr h⟩
      rcases List.mem_cons.mp hx with rfl | hx
      · exact hlt
      · exact TransCmp.lt_trans hlt (h.1 x hx)
    · rename_i heq
      have hk : k = e.1 := LawfulEqOrd.eq_of_compare heq
      exact List.pairwise_cons.mpr ⟨fun x hx => by simpa [hk] using h.1 x hx, h.2⟩
    · rename_i hgt
      refine List.pairwise_cons.mpr ⟨fun x hx => ?_, ih h.2⟩
      rcases mem_place hx with rfl | hx
      · exact OrientedCmp.lt_of_gt hgt
      · exact h.1 x hx

/-- Store `v` under `k`, replacing what was there. -/
def insert [TransOrd κ] [LawfulEqOrd κ] (t : Table κ α) (k : κ) (v : α) : Table κ α :=
  ⟨place k v t.entries, ascending_place k v t.ascending⟩

/-- Keep the entries that satisfy `p`. -/
def filter (t : Table κ α) (p : κ → α → Bool) : Table κ α :=
  ⟨t.entries.filter fun e => p e.1 e.2, t.ascending.filter _⟩

/-- Remove the entry of `k`. -/
def erase (t : Table κ α) (k : κ) : Table κ α :=
  t.filter fun j _ => compare k j != .eq

/-- Change every value. -/
def map (t : Table κ α) (f : α → β) : Table κ β :=
  ⟨t.entries.map fun e => (e.1, f e.2), by
    have h := t.ascending
    unfold Ascending at h ⊢
    rw [List.pairwise_map]
    exact h⟩

/-- The table of a list of pairs; the last pair of a key wins. -/
def ofList [TransOrd κ] [LawfulEqOrd κ] (pairs : List (κ × α)) : Table κ α :=
  pairs.foldl (fun t e => t.insert e.1 e.2) empty

/-- The pairs of a table, in key order. -/
def toList (t : Table κ α) : List (κ × α) := t.entries

/-- The empty table has no value. -/
@[simp]
theorem get?_empty (k : κ) : (empty : Table κ α).get? k = none := rfl

/-- **What an insertion does to every look-up.** -/
@[simp]
theorem get?_insert [DecidableEq κ] [TransOrd κ] [LawfulEqOrd κ] (t : Table κ α) (k j : κ)
    (v : α) :
    (t.insert k v).get? j = if j = k then some v else t.get? j := by
  simp only [insert, get?, find?_place, LawfulEqOrd.compare_eq_iff_eq]

/-- A key in front of all entries has no value. -/
theorem find?_eq_none_of_lt {k : κ} {l : List (κ × α)} (h : ∀ e ∈ l, compare k e.1 = .lt) :
    find? k l = none := by
  induction l with
  | nil => rfl
  | cons e rest ih =>
    have hne : compare k e.1 ≠ .eq := by simp [h e]
    rw [find?, if_neg hne]
    exact ih fun x hx => h x (List.mem_cons_of_mem e hx)

/-- Where keys ascend, what was found is still found if it satisfies the condition. -/
theorem find?_filter [LawfulEqOrd κ] (p : κ → α → Bool) (j : κ)
    {l : List (κ × α)} (h : Ascending l) :
    find? j (l.filter fun e => p e.1 e.2) = (find? j l).filter (p j) := by
  unfold Ascending at h
  induction l with
  | nil => rfl
  | cons e rest ih =>
    rw [List.pairwise_cons] at h
    have hrest := ih h.2
    by_cases hj : compare j e.1 = .eq
    · have hje : j = e.1 := LawfulEqOrd.eq_of_compare hj
      by_cases hp : p e.1 e.2
      · simp [find?, hje, hp, Option.filter]
      · have hnone : find? j rest = none := find?_eq_none_of_lt (by rw [hje]; exact h.1)
        rw [List.filter_cons_of_neg (by simpa using hp), hrest, hnone]
        simp [find?, hje, hp, Option.filter]
    · by_cases hp : p e.1 e.2
      · rw [List.filter_cons_of_pos (by simpa using hp)]
        simp [find?, hj, hrest]
      · rw [List.filter_cons_of_neg (by simpa using hp), hrest]
        simp [find?, hj]

/-- What was found is still found if it satisfies the condition. -/
@[simp]
theorem get?_filter [LawfulEqOrd κ] (t : Table κ α) (p : κ → α → Bool) (j : κ) :
    (t.filter p).get? j = (t.get? j).filter (p j) :=
  find?_filter p j t.ascending

/-- **What a removal does to every look-up.** -/
@[simp]
theorem get?_erase [DecidableEq κ] [LawfulEqOrd κ] (t : Table κ α) (k j : κ) :
    (t.erase k).get? j = if j = k then none else t.get? j := by
  rw [erase, get?_filter]
  split
  · rename_i h; subst h; cases t.get? j <;> simp
  · rename_i h
    have : compare k j ≠ .eq := fun hc => h (LawfulEqOrd.eq_of_compare hc).symm
    cases t.get? j <;> simp [this]

/-- What is found is what the entries hold. -/
theorem find?_eq_some_iff [TransOrd κ] [LawfulEqOrd κ] {l : List (κ × α)} (h : Ascending l)
    (k : κ) (v : α) : find? k l = some v ↔ (k, v) ∈ l := by
  unfold Ascending at h
  induction l with
  | nil => simp [find?]
  | cons e rest ih =>
    rw [List.pairwise_cons] at h
    by_cases hk : compare k e.1 = .eq
    · have hke : k = e.1 := LawfulEqOrd.eq_of_compare hk
      have hnot : ∀ w, (k, w) ∉ rest := fun w hw => by
        have := h.1 _ hw
        simp [hke] at this
      simp only [find?, hk, if_true, Option.some.injEq, List.mem_cons, hnot v, or_false]
      exact ⟨fun hv => by rw [hke, ← hv], fun hv => by rw [← hv]⟩
    · have hke : k ≠ e.1 := fun hc => hk (by simp [hc])
      simp only [find?, hk, if_false, ih h.2, List.mem_cons]
      exact ⟨Or.inr, fun hv => hv.resolve_left fun he => hke (by rw [← he])⟩

/-- What is looked up is what the entries hold. -/
theorem get?_eq_some_iff [TransOrd κ] [LawfulEqOrd κ] (t : Table κ α) (k : κ) (v : α) :
    t.get? k = some v ↔ (k, v) ∈ t.entries :=
  find?_eq_some_iff t.ascending k v

/-- No entry occurs twice. -/
theorem nodup_entries [TransOrd κ] (t : Table κ α) : t.entries.Nodup :=
  t.ascending.imp fun hlt heq => by simp [heq] at hlt

/-- **A table is determined by its look-ups.** -/
theorem ext_get? [TransOrd κ] [LawfulEqOrd κ] {s t : Table κ α}
    (h : ∀ k, s.get? k = t.get? k) : s = t := by
  have hmem : ∀ x, x ∈ s.entries ↔ x ∈ t.entries := fun x => by
    have hs := s.get?_eq_some_iff x.1 x.2
    have ht := t.get?_eq_some_iff x.1 x.2
    rw [h] at hs
    exact hs.symm.trans ht
  have hperm : s.entries.Perm t.entries :=
    (List.perm_ext_iff_of_nodup s.nodup_entries t.nodup_entries).mpr hmem
  -- Of two entries only one can come before the other.
  refine ext_entries (hperm.eq_of_pairwise (fun a b _ _ hab hba => ?_) s.ascending t.ascending)
  rw [OrientedCmp.gt_of_lt hab] at hba
  cases hba

end Table

end Daq
