import Daq.Proofs.Sink.Track

set_option autoImplicit false

/-!
# The cursor of a block

A sink sorts the tags inside a block by their samples and then goes through the samples with a
cursor that only moves forward: at each sample it passes the tags on it and shows them to the
observers. The cursor never skips a tag, and it never gets stuck at one: before each sample the tags
in front of it lie on earlier samples, and all others do not. So at the end it has passed all tags
inside the block, and each sample was shown exactly the tags on it, in the order of the block.

## Main definitions

* `Daq.Cursor.advance`, `Daq.Cursor.sweep` — the way of the cursor at one sample, and at all.
* `Daq.Cursor.InPlace` — where the cursor stands before a sample.
* `Daq.Block.seen` — the tags that observers see at a sample.

## Main results

* `Daq.Cursor.sweep_fst` — what the cursor shows is what observers see.
* `Daq.Cursor.InPlace.advance`, `Daq.Cursor.InPlace.sweep` — the cursor is in its place before each
  sample, and in the end.
* `Daq.Block.sweep_orderedTags` — the cursor passes all tags inside a block.
* `Daq.Block.getElem?_aligned`, `Daq.Block.count_seen` — what is seen at a sample.
-/

namespace Daq

/-! ### The cursor -/

namespace Cursor

/-- Move the cursor past the tags on sample `i`, up to the first other tag. -/
def advance (tags : List Tag) (i cursor : Nat) : Nat :=
  if h : cursor < tags.length then
    if tags[cursor].index = i then advance tags i (cursor + 1) else cursor
  else cursor
termination_by tags.length - cursor

/-- The samples from number `i` on, each with the tags that the cursor passes at it, and the place
of the cursor in the end. -/
def sweep (tags : List Tag) (i cursor : Nat) : List Single → List (Single × List Tag) × Nat
  | [] => ([], cursor)
  | value :: rest =>
    let next := advance tags i cursor
    let r := sweep tags (i + 1) next rest
    ((value, tags.extract cursor next) :: r.1, r.2)

/-- The cursor passes the tags in front of it as long as they are on the sample. -/
lemma advance_eq (tags : List Tag) (i cursor : Nat) :
    advance tags i cursor =
      cursor + ((tags.drop cursor).takeWhile fun t => t.index == i).length := by
  induction cursor using advance.induct tags i with
  | case1 cursor h hi ih =>
    rw [advance, dif_pos h, if_pos hi, ih, List.drop_eq_getElem_cons h,
      List.takeWhile_cons_of_pos (by simpa using hi), List.length_cons]
    omega
  | case2 cursor h hi =>
    rw [advance, dif_pos h, if_neg hi, List.drop_eq_getElem_cons h,
      List.takeWhile_cons_of_neg (by simpa using hi), List.length_nil, Nat.add_zero]
  | case3 cursor h =>
    rw [advance, dif_neg h, List.drop_eq_nil_of_le (by omega)]
    rfl

section Advance

variable (tags : List Tag) (i cursor : Nat)

/-- What is passed at a sample. -/
lemma extract_advance :
    tags.extract cursor (advance tags i cursor) =
      (tags.drop cursor).takeWhile fun t => t.index == i := by
  rw [advance_eq, List.extract, Nat.add_sub_cancel_left]
  exact (List.prefix_iff_eq_take.mp (List.takeWhile_prefix _)).symm

/-- What is left after a sample. -/
lemma drop_advance :
    tags.drop (advance tags i cursor) =
      (tags.drop cursor).dropWhile fun t => t.index == i := by
  rw [advance_eq, ← List.drop_drop]
  generalize tags.drop cursor = left
  have hdrop : ((left.takeWhile fun t => t.index == i) ++ left.dropWhile fun t => t.index == i).drop
      (left.takeWhile fun t => t.index == i).length = left.dropWhile fun t => t.index == i :=
    List.drop_left
  rwa [List.takeWhile_append_dropWhile] at hdrop

end Advance

/-- **The cursor shows each sample the tags that stand in front of it.** -/
lemma sweep_fst (tags : List Tag) (i cursor : Nat) (samples : List Single) :
    (sweep tags i cursor samples).1 = align i (tags.drop cursor) samples := by
  induction samples generalizing i cursor with
  | nil => rfl
  | cons value rest ih =>
    rw [sweep, align]
    dsimp only
    rw [ih, extract_advance, drop_advance]

/-- Where the cursor stands before sample `i`: the tags in front of it lie on earlier samples, all
others do not. -/
structure InPlace (tags : List Tag) (i cursor : Nat) : Prop where
  /-- It stands at a tag or behind the last one. -/
  le_length : cursor ≤ tags.length
  /-- What it has passed lies on earlier samples. -/
  passed : ∀ t ∈ tags.take cursor, t.index < i
  /-- What it has not passed does not. -/
  left : ∀ t ∈ tags.drop cursor, i ≤ t.index

namespace InPlace

variable {tags : List Tag} {i cursor : Nat}

/-- In the beginning the cursor is in its place. -/
lemma start (tags : List Tag) : InPlace tags 0 0 := ⟨Nat.zero_le _, by simp, by simp⟩

/-- **At each sample the cursor moves to its next place**, if tags are in the order of their
samples. -/
lemma advance (h : InPlace tags i cursor)
    (hsorted : tags.Pairwise fun s t => s.index ≤ t.index) :
    InPlace tags (i + 1) (advance tags i cursor) where
  le_length := by
    have hle := (List.takeWhile_prefix (l := tags.drop cursor) fun t => t.index == i).length_le
    have hcursor := h.le_length
    rw [List.length_drop] at hle
    rw [advance_eq]
    omega
  passed := by
    intro t ht
    rw [advance_eq, List.take_add] at ht
    rcases List.mem_append.mp ht with ht | ht
    · exact Nat.lt_succ_of_lt (h.passed t ht)
    · rw [← List.prefix_iff_eq_take.mp (List.takeWhile_prefix _)] at ht
      have hindex := List.mem_takeWhile_imp ht
      rw [beq_iff_eq] at hindex
      omega
  left := by
    rw [drop_advance]
    exact (takeWhile_index_eq (hsorted.sublist (List.drop_sublist cursor tags)) h.left).2

/-- The cursor stays in its place along all samples. -/
lemma sweep (h : InPlace tags i cursor) (hsorted : tags.Pairwise fun s t => s.index ≤ t.index)
    (samples : List Single) :
    InPlace tags (i + samples.length) (sweep tags i cursor samples).2 := by
  induction samples generalizing i cursor with
  | nil => exact h
  | cons value rest ih =>
    have hrest := ih (h.advance hsorted)
    rwa [Nat.add_right_comm] at hrest

/-- A cursor that is in its place beyond all tags has passed them all. -/
lemma eq_length (h : InPlace tags i cursor) (hall : ∀ t ∈ tags, t.index < i) :
    cursor = tags.length := by
  have hnone : tags.drop cursor = [] := by
    apply List.eq_nil_iff_forall_not_mem.mpr
    intro t ht
    have := h.left t ht
    have := hall t (List.mem_of_mem_drop ht)
    omega
  exact Nat.le_antisymm h.le_length (List.drop_eq_nil_iff.mp hnone)

end InPlace

end Cursor

namespace Block

/-- The tags that observers see at a sample of a block. -/
def seen (b : Block) (i : Nat) : List Tag := b.aligned[i]?.elim [] Prod.snd

/-- At a sample exactly the tags on it are shown, in the order of the block. -/
lemma getElem?_aligned (b : Block) {i : Nat} (hi : i < b.samples.length) :
    b.aligned[i]? = some (b.samples[i], b.tags.filter fun t => t.index == i) := by
  rw [aligned_eq, track, List.getElem?_map, List.getElem?_zipIdx, List.getElem?_eq_getElem hi]
  simp

/-- Each sample is shown, and nothing else. -/
lemma length_aligned (b : Block) : b.aligned.length = b.samples.length := by
  rw [aligned_eq, track, List.length_map, List.length_zipIdx]

/-- A tag inside the block is seen at its sample, as often as it occurs, and nowhere else; a tag
beyond the block is not seen at all. -/
lemma count_seen (b : Block) (t : Tag) (i : Nat) :
    (b.seen i).count t =
      if t.index = i ∧ i < b.samples.length then b.tags.count t else 0 := by
  by_cases hi : i < b.samples.length
  · rw [seen, b.getElem?_aligned hi, Option.elim_some]
    by_cases ht : t.index = i
    · rw [if_pos ⟨ht, hi⟩]
      exact List.count_filter (by simpa using ht)
    · rw [if_neg fun h => ht h.1, List.count_eq_zero]
      intro hmem
      exact ht (by simpa using (List.mem_filter.mp hmem).2)
  · have hnone : b.aligned[i]? = none := by
      rw [List.getElem?_eq_none_iff, length_aligned]
      omega
    rw [seen, hnone, if_neg fun h => hi h.2]
    rfl

/-- The tags inside a block, in whatever order. -/
lemma orderedTags_perm (b : Block) :
    b.orderedTags.Perm (b.tags.filter fun t => t.index < b.samples.length) :=
  List.mergeSort_perm _ _

/-- **The cursor ends behind the last tag inside the block**, and it has shown what observers
see. -/
lemma sweep_orderedTags (b : Block) :
    Cursor.sweep b.orderedTags 0 0 b.samples = (b.aligned, b.orderedTags.length) := by
  have hinside : ∀ t ∈ b.orderedTags, t.index < 0 + b.samples.length := by
    intro t ht
    have := (List.mem_filter.mp (b.orderedTags_perm.mem_iff.mp ht)).2
    simpa using this
  have hplace := (Cursor.InPlace.start b.orderedTags).sweep b.pairwise_orderedTags b.samples
  exact Prod.ext (Cursor.sweep_fst b.orderedTags 0 0 b.samples) (hplace.eq_length hinside)

end Block

end Daq
