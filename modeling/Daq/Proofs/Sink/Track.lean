import Daq.Sink
import Mathlib.Data.List.Enum
import Mathlib.Data.List.Induction
import Mathlib.Data.List.TakeWhile
import Mathlib.Order.Basic

set_option autoImplicit false

/-!
# The samples of a sink as one track

A sink takes samples in block by block, and the tags of a block count from its first sample. Whoever
watches the sink sees one track: all samples in the order in which they come, each with the tags on
it. On the track a tag has a position that does not depend on how the samples were cut into blocks.

## Main definitions

* `Daq.Track` — samples with the tags on them.
* `Daq.Track.ofBlocks` — the track of several blocks.
* `Daq.Track.marks`, `Daq.Track.openings` — the tags that a rule selects, and the first of them on
  each sample, with their positions.
* `Daq.Track.window` — the window of a tag, with as many values as have come.
* `Daq.Capture.excerpt` — the capture of a stretch of samples.

## Main results

* `Daq.Block.aligned_eq` — each sample of a block is seen with exactly the tags on it, in the order
  of the block.
* `Daq.Track.ordered_marks`, `Daq.Track.ordered_openings` — marks come in the order of their
  positions, and openings at different ones.
* `Daq.Track.record_window`, `Daq.Track.toCapture_window` — windows grow with the track, and their
  captures are excerpts of it.
-/

namespace Daq

/-- Samples in the order in which they come, each with the tags on it. -/
abbrev Track := List (Single × List Tag)

/-- The samples of a block, each with the tags that carry its index, in the order of the block. -/
def Block.track (b : Block) : Track :=
  b.samples.zipIdx.map fun z => (z.1, b.tags.filter fun t => t.index == z.2)

namespace Track

/-- The samples of several blocks, one block after the other. -/
def ofBlocks (bs : List Block) : Track := bs.flatMap Block.track

/-- The samples. -/
def values (xs : Track) : List Single := xs.map Prod.fst

/-- The selected tags with their positions: in the order of the samples, and on one sample in the
order of its tags. -/
def marks (selects : Tag → Bool) (xs : Track) : List (Nat × Tag) :=
  xs.zipIdx.flatMap fun z => (z.1.2.filter selects).map fun t => (z.2, t)

/-- The positions with a selected tag, in order, each with its first selected tag. -/
def openings (selects : Tag → Bool) (xs : Track) : List (Nat × Tag) :=
  xs.zipIdx.filterMap fun z => (z.1.2.find? selects).map fun t => (z.2, t)

end Track

/-- A tag that says nothing but the name of its trigger. -/
def Tag.ofTrigger (index : Nat) (name : String) : Tag :=
  .ofList index [(Tag.triggerName, .text name)]

/-- Positions count on from block to block, and a tag beyond its block is on no sample. -/
example :
    (Track.ofBlocks [{ samples := [⟨1⟩, ⟨2⟩], tags := [.ofTrigger 2 "T", .ofTrigger 1 "T"] },
      { samples := [⟨3⟩], tags := [.ofTrigger 0 "T"] }]).marks (Tag.selectedBy "T") =
        [(1, .ofTrigger 1 "T"), (2, .ofTrigger 0 "T")] := by
  decide +kernel

/-! ### The tags of a block -/

/-- Where tags are in the order of their indices, those with the least index stand in front. -/
lemma takeWhile_index_eq {index : Nat} {tags : List Tag}
    (hsorted : tags.Pairwise fun s t => s.index ≤ t.index) (hle : ∀ t ∈ tags, index ≤ t.index) :
    (tags.takeWhile fun t => t.index == index) = tags.filter (fun t => t.index == index) ∧
      ∀ t ∈ tags.dropWhile (fun t => t.index == index), index + 1 ≤ t.index := by
  induction tags with
  | nil => simp
  | cons t tags ih =>
    rw [List.pairwise_cons] at hsorted
    by_cases ht : t.index = index
    · obtain ⟨htake, hdrop⟩ := ih hsorted.2 fun u hu => hle u (List.mem_cons_of_mem t hu)
      refine ⟨by simp [ht, htake], ?_⟩
      simpa [ht] using hdrop
    · -- The first tag lies beyond the index, and so do all that follow it.
      have hlt : index + 1 ≤ t.index := by
        have := hle t List.mem_cons_self
        omega
      have hbeyond : ∀ u ∈ t :: tags, index + 1 ≤ u.index := by
        intro u hu
        rcases List.mem_cons.mp hu with rfl | hu
        · exact hlt
        · exact Nat.le_trans hlt (hsorted.1 u hu)
      have hnone : (t :: tags).filter (fun u => u.index == index) = [] := by
        rw [List.filter_eq_nil_iff]
        intro u hu
        have := hbeyond u hu
        simp
        omega
      rw [hnone]
      simpa [ht] using hbeyond

/-- **Each sample is paired with the tags that carry its index**, if tags are in the order of their
indices.

**Proof sketch.** Induction on the samples. The tags on the first one stand in front; they are left
out for the others, which no tag of that index can meet. -/
lemma align_eq {index : Nat} {tags : List Tag}
    (hsorted : tags.Pairwise fun s t => s.index ≤ t.index) (hle : ∀ t ∈ tags, index ≤ t.index)
    (samples : List Single) :
    align index tags samples =
      (samples.zipIdx index).map fun z => (z.1, tags.filter fun t => t.index == z.2) := by
  induction samples generalizing index tags with
  | nil => rfl
  | cons value rest ih =>
    obtain ⟨htake, hdrop⟩ := takeWhile_index_eq hsorted hle
    have hrest := ih (hsorted.sublist (List.dropWhile_sublist fun t => t.index == index)) hdrop
    rw [align, htake, hrest, List.zipIdx_cons, List.map_cons]
    congr 1
    apply List.map_congr_left
    intro z hz
    -- Tags of the first sample are not on a later one.
    have hbeyond : index + 1 ≤ z.2 := (List.mem_zipIdx (x := z.1) (i := z.2) hz).1
    have hnone : (tags.takeWhile fun t => t.index == index).filter
        (fun t => t.index == z.2) = [] := by
      rw [List.filter_eq_nil_iff]
      intro t ht
      have := List.mem_takeWhile_imp ht
      simp only [beq_iff_eq] at this ⊢
      omega
    have hsplit := congrArg (List.filter fun t => t.index == z.2)
      (List.takeWhile_append_dropWhile (p := fun t => t.index == index) (l := tags))
    rw [List.filter_append, hnone, List.nil_append] at hsplit
    rw [hsplit]

namespace Block

/-- The order of tags by their indices is transitive. -/
lemma index_le_trans (s t u : Tag) (hst : decide (s.index ≤ t.index) = true)
    (htu : decide (t.index ≤ u.index) = true) : decide (s.index ≤ u.index) = true := by
  simp only [decide_eq_true_eq] at hst htu ⊢
  exact Nat.le_trans hst htu

/-- Any two tags are ordered by their indices. -/
lemma index_le_total (s t : Tag) :
    (decide (s.index ≤ t.index) || decide (t.index ≤ s.index)) = true := by
  simpa using Nat.le_total s.index t.index

/-- The tags inside a block are in the order of their samples. -/
lemma pairwise_orderedTags (b : Block) :
    b.orderedTags.Pairwise fun s t => s.index ≤ t.index := by
  have hsorted : b.orderedTags.Pairwise fun s t => decide (s.index ≤ t.index) = true :=
    List.pairwise_mergeSort index_le_trans index_le_total _
  exact hsorted.imp fun h => of_decide_eq_true h

/-- **Tags on one sample keep their order**, and no tag gets lost or is seen twice.

**Proof sketch.** Tags of one index are in the order of their indices already, so they are a sublist
of the ordered tags; and there are as many of them before and after. -/
lemma filter_orderedTags (b : Block) {i : Nat} (hi : i < b.samples.length) :
    b.orderedTags.filter (fun t => t.index == i) = b.tags.filter fun t => t.index == i := by
  have hinside : (b.tags.filter fun t => t.index < b.samples.length).filter
      (fun t => t.index == i) = b.tags.filter fun t => t.index == i := by
    rw [List.filter_filter]
    apply List.filter_congr
    intro t _
    by_cases ht : t.index = i
    · simp [ht, hi]
    · simp [ht]
  rw [← hinside]
  generalize hl : (b.tags.filter fun t => t.index < b.samples.length) = l
  have hordered : b.orderedTags = l.mergeSort fun s t => s.index ≤ t.index := by rw [← hl]; rfl
  rw [hordered]
  have hsub : (l.filter fun t => t.index == i).Sublist
      (l.mergeSort fun s t => s.index ≤ t.index) := by
    refine List.sublist_mergeSort index_le_trans index_le_total ?_ List.filter_sublist
    rw [List.pairwise_filter]
    refine List.pairwise_of_forall fun s t hs ht => ?_
    simp only [beq_iff_eq] at hs ht
    simp [hs, ht]
  have hkept := hsub.filter fun t => t.index == i
  rw [List.filter_filter] at hkept
  simp only [Bool.and_self] at hkept
  refine (hkept.eq_of_length ?_).symm
  exact ((l.mergeSort_perm _).filter _).length_eq.symm

/-- **The samples of a block are seen with exactly the tags on them.** -/
theorem aligned_eq (b : Block) : b.aligned = b.track := by
  unfold aligned track
  rw [align_eq b.pairwise_orderedTags fun _ _ => Nat.zero_le _]
  apply List.map_congr_left
  intro z hz
  have hi := (List.mem_zipIdx (x := z.1) (i := z.2) hz).2.1
  rw [b.filter_orderedTags (by simpa using hi)]

end Block

namespace Track

/-- On the track of several blocks the samples follow one another. -/
@[simp]
lemma values_ofBlocks (bs : List Block) : values (ofBlocks bs) = bs.flatMap Block.samples := by
  have hvalues : ∀ b : Block, b.track.map Prod.fst = b.samples := by
    intro b
    rw [Block.track, List.map_map]
    exact List.zipIdx_map_fst 0 b.samples
  simp only [values, ofBlocks, List.map_flatMap, hvalues]

/-- There are as many values as samples. -/
@[simp]
lemma length_values (xs : Track) : xs.values.length = xs.length := List.length_map _

/-- The track of several blocks is as long as all of them together. -/
lemma length_ofBlocks (bs : List Block) :
    (ofBlocks bs).length = (bs.flatMap Block.samples).length := by
  rw [← values_ofBlocks, length_values]

/-! ### Marks and openings -/

section Append

variable (selects : Tag → Bool) (xs : Track) (x : Single × List Tag)

/-- One more sample. -/
@[simp]
lemma values_append : values (xs ++ [x]) = xs.values ++ [x.1] := by simp [values]

/-- The marks on one more sample come last. -/
lemma marks_append :
    marks selects (xs ++ [x]) =
      xs.marks selects ++ (x.2.filter selects).map fun t => (xs.length, t) := by
  simp [marks, List.zipIdx_append]

/-- The opening at one more sample, if there is one, comes last. -/
lemma openings_append :
    openings selects (xs ++ [x]) =
      xs.openings selects ++ ((x.2.find? selects).map fun t => (xs.length, t)).toList := by
  unfold openings
  rw [List.zipIdx_append, List.filterMap_append, Nat.zero_add]
  cases hx : x.2.find? selects <;> simp [hx]

/-- A mark lies on a sample. -/
lemma lt_of_mem_marks {m : Nat × Tag} (hm : m ∈ xs.marks selects) : m.1 < xs.length := by
  simp only [marks, List.mem_flatMap, List.mem_map] at hm
  obtain ⟨z, hz, t, -, rfl⟩ := hm
  have := (List.mem_zipIdx (x := z.1) (i := z.2) hz).2.1
  simpa using this

/-- An opening lies on a sample. -/
lemma lt_of_mem_openings {m : Nat × Tag} (hm : m ∈ xs.openings selects) : m.1 < xs.length := by
  simp only [openings, List.mem_filterMap, Option.map_eq_some_iff] at hm
  obtain ⟨z, hz, t, -, rfl⟩ := hm
  have := (List.mem_zipIdx (x := z.1) (i := z.2) hz).2.1
  simpa using this

end Append

/-- **Marks come in the order of their positions.** -/
lemma ordered_marks (selects : Tag → Bool) (xs : Track) :
    (xs.marks selects).Pairwise fun a b => a.1 ≤ b.1 := by
  induction xs using List.reverseRecOn with
  | nil => exact List.Pairwise.nil
  | append_singleton xs x ih =>
    rw [marks_append, List.pairwise_append]
    refine ⟨ih, ?_, ?_⟩
    · rw [List.pairwise_map]
      exact List.pairwise_of_forall fun _ _ => le_rfl
    · intro a ha b hb
      obtain ⟨t, -, rfl⟩ := List.mem_map.mp hb
      exact (lt_of_mem_marks selects xs ha).le

/-- **Openings come in the order of their positions, each at another one.** -/
lemma ordered_openings (selects : Tag → Bool) (xs : Track) :
    (xs.openings selects).Pairwise fun a b => a.1 < b.1 := by
  induction xs using List.reverseRecOn with
  | nil => exact List.Pairwise.nil
  | append_singleton xs x ih =>
    rw [openings_append, List.pairwise_append]
    refine ⟨ih, ?_, ?_⟩
    · cases x.2.find? selects <;> simp
    · intro a ha b hb
      obtain ⟨t, -, rfl⟩ := Option.map_eq_some_iff.mp (Option.mem_toList.mp hb)
      exact lt_of_mem_openings selects xs ha

/-! ### Stretches -/

section Extract

variable {α : Type} {ys : List α} {i j : Nat}

/-- A stretch that ends within a list is not changed by what follows. -/
lemma extract_append_of_le (y : α) (hj : j ≤ ys.length) :
    (ys ++ [y]).extract i j = ys.extract i j := by
  simp only [List.extract, List.drop_append, List.take_append, List.length_drop]
  have hnone : j - i - (ys.length - i) = 0 := by omega
  rw [hnone, List.take_zero, List.append_nil]

/-- A stretch that reaches beyond a list takes in what follows. -/
lemma extract_append_of_lt (y : α) (hi : i ≤ ys.length) (hj : ys.length < j) :
    (ys ++ [y]).extract i j = ys.extract i j ++ [y] := by
  simp only [List.extract, List.drop_append, List.take_append, List.length_drop]
  have hone : ([y]).take (j - i - (ys.length - i)) = [y] := by
    apply List.take_of_length_le
    rw [List.length_singleton]
    omega
  rw [Nat.sub_eq_zero_of_le hi, List.drop_zero, hone]

end Extract

/-! ### Windows and their captures -/

end Track

/-- The capture of a stretch of samples, with one tag at an index of its own. -/
def Capture.excerpt (d : Descriptor) (samples : List Single) (start stop index : Nat) (t : Tag) :
    Capture where
  signals := [d]
  values := samples.extract start stop
  errors := List.replicate (stop - start) .zero
  events := [⟨index, t.moveTo index⟩]

/-- An excerpt that ends within the samples is not changed by what follows. -/
lemma Capture.excerpt_append {samples : List Single} {stop : Nat} (hstop : stop ≤ samples.length)
    (d : Descriptor) (y : Single) (start index : Nat) (t : Tag) :
    excerpt d (samples ++ [y]) start stop index t = excerpt d samples start stop index t := by
  unfold excerpt
  rw [Track.extract_append_of_le y hstop]

namespace Track

/-- The window of a tag: the values up to `post` samples from it on that have come, newest first,
and at most `pre` values before them. -/
def window (pre post : Nat) (xs : Track) (m : Nat × Tag) : Window where
  values := (xs.values.extract (m.1 - pre) (m.1 + post)).reverse
  remaining := m.1 + post - xs.length
  event := ⟨min pre m.1, m.2.moveTo (min pre m.1)⟩

section Window

variable {pre post : Nat} {xs : Track} {m : Nat × Tag}

/-- One more sample is recorded in a window that is not complete. -/
lemma record_window (hm : m.1 ≤ xs.length) (x : Single × List Tag) :
    (xs.window pre post m).record x.1 = window pre post (xs ++ [x]) m := by
  have hlength : (xs ++ [x]).length = xs.length + 1 := by simp
  unfold Window.record window
  rw [values_append, hlength]
  rcases Nat.lt_or_ge xs.length (m.1 + post) with hopen | hdone
  · have hremaining : m.1 + post - xs.length = m.1 + post - (xs.length + 1) + 1 := by omega
    have hstart : m.1 - pre ≤ xs.values.length := by
      rw [length_values]
      omega
    rw [extract_append_of_lt x.1 hstart (by rwa [length_values]), hremaining]
    simp
  · have hnow : m.1 + post - xs.length = 0 := by omega
    have hthen : m.1 + post - (xs.length + 1) = 0 := by omega
    rw [extract_append_of_le x.1 (by rwa [length_values]), hnow, hthen]

/-- A window is complete when all its values have come. -/
lemma isComplete_window :
    (xs.window pre post m).isComplete = decide (m.1 + post ≤ xs.length) := by
  apply Bool.eq_iff_iff.mpr
  simp [Window.isComplete, window, Nat.sub_eq_zero_iff_le]

/-- **The capture of a window is the excerpt up to its end**, or up to the end of the track. -/
lemma toCapture_window (d : Descriptor) (hm : m.1 ≤ xs.length) :
    (xs.window pre post m).toCapture d =
      .excerpt d xs.values (m.1 - pre) (min xs.length (m.1 + post)) (min pre m.1) m.2 := by
  have hvalues : xs.values.extract (m.1 - pre) (m.1 + post) =
      xs.values.extract (m.1 - pre) (min xs.length (m.1 + post)) := by
    refine List.take_eq_take_iff.mpr ?_
    rw [List.length_drop, length_values]
    omega
  have hlength : (xs.values.extract (m.1 - pre) (min xs.length (m.1 + post))).length =
      min xs.length (m.1 + post) - (m.1 - pre) := by
    simp only [List.extract, List.length_take, List.length_drop, length_values]
    omega
  simp only [Window.toCapture, Capture.ofValues, window, Capture.excerpt, List.reverse_reverse]
  rw [hvalues, hlength]

end Window

/-! ### Stages -/

/-- What is over early comes before what is over late. -/
lemma filter_append_filter {α : Type} {p q : α → Bool} {l : List α}
    (hpq : ∀ a, p a = true → q a = true) (hl : l.Pairwise fun a b => p b = true → p a = true) :
    l.filter p ++ (l.filter fun a => !p a).filter q = l.filter q := by
  induction l with
  | nil => rfl
  | cons a l ih =>
    rw [List.pairwise_cons] at hl
    by_cases ha : p a = true
    · simpa [ha, hpq a ha] using ih hl.2
    · -- Nothing that follows is over.
      have hnone : (a :: l).filter p = [] := by
        rw [List.filter_eq_nil_iff]
        intro b hb
        rcases List.mem_cons.mp hb with rfl | hb
        · exact ha
        · exact fun hp => ha (hl.1 b hb hp)
      have hall : (a :: l).filter (fun b => !p b) = a :: l := by
        rw [List.filter_eq_self]
        intro b hb
        have := List.filter_eq_nil_iff.mp hnone b hb
        simpa using this
      rw [hnone, hall, List.nil_append]

/-- What is not over late is not over early. -/
lemma filter_not_filter_not {α : Type} {p q : α → Bool} (l : List α)
    (hpq : ∀ a, p a = true → q a = true) :
    (l.filter fun a => !p a).filter (fun a => !q a) = l.filter fun a => !q a := by
  rw [List.filter_filter]
  apply List.filter_congr
  intro a _
  cases hq : q a with
  | true => rfl
  | false =>
    have hp : p a = false := by
      by_contra hne
      rw [Bool.not_eq_false] at hne
      cases hq.symm.trans (hpq a hne)
    simp [hp]

end Track

end Daq
