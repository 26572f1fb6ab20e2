import Daq.Proofs.Sink.Watching

set_option autoImplicit false

/-!
# Captures around tags

A trigger observer keeps the last samples and a window for each selected tag that is not complete
yet. On the track of the samples, the capture around a mark reaches from `pre` samples before it, or
from the beginning, up to `post` samples from it on. Exactly the marks whose capture has ended
within the track have been offered, in the order of the track.

## Main definitions

* `Daq.Track.around` — the capture around a mark.
* `Daq.Track.triggered` — the captures that have ended.
* `Daq.TriggerObserver.Agrees` — what an observer has become after a track.

## Main results

* `Daq.TriggerObserver.Agrees.step` — one more sample.
* `Daq.Custody.triggered_exact` — what is offered to a poller in every run.
-/

namespace Daq

namespace Track

/-- The capture around a mark: at most `pre` samples before it and `post` samples from it on. -/
def around (d : Descriptor) (pre post : Nat) (xs : Track) (m : Nat × Tag) : Capture :=
  .excerpt d xs.values (m.1 - pre) (m.1 + post) (min pre m.1) m.2

/-- The captures around those marks after which there are enough samples. -/
def triggered (d : Descriptor) (selects : Tag → Bool) (pre post : Nat) (xs : Track) :
    List Capture :=
  ((xs.marks selects).filter fun m => m.1 + post ≤ xs.length).map (xs.around d pre post)

variable {pre post : Nat} {xs : Track} {m : Nat × Tag}

/-- The capture around a mark is not changed by what comes after its end. -/
lemma around_append (hm : m.1 + post ≤ xs.length) (d : Descriptor) (x : Single × List Tag) :
    around d pre post (xs ++ [x]) m = xs.around d pre post m := by
  unfold around
  rw [values_append, Capture.excerpt_append (by rwa [length_values])]

/-- The window of a mark that is complete holds the capture around it. -/
lemma toCapture_window_of_le (hm : m.1 + post ≤ xs.length) (d : Descriptor) :
    (xs.window pre post m).toCapture d = xs.around d pre post m := by
  rw [toCapture_window d (Nat.le_trans (Nat.le_add_right m.1 post) hm), Nat.min_eq_right hm]
  rfl

end Track

namespace TriggerObserver

/-- What a trigger observer has become after a track, and what it has cut out. -/
structure Agrees (d : Descriptor) (selects : Tag → Bool) (pre post : Nat) (xs : Track)
    (o : TriggerObserver) (out : List Capture) : Prop where
  /-- It selects the same tags. -/
  selects_eq : o.selects = selects
  /-- It wants as many samples before a tag. -/
  pre_eq : o.pre = pre
  /-- It wants as many samples from a tag on. -/
  post_eq : o.post = post
  /-- It remembers the last samples. -/
  history : o.history.take pre = xs.values.reverse.take pre
  /-- Its windows are those of the marks whose captures have not ended. -/
  windows : o.windows = ((xs.marks selects).filter fun m => !decide (m.1 + post ≤ xs.length)).map
    (xs.window pre post)
  /-- The captures that have ended were cut out. -/
  out_eq : out = xs.triggered d selects pre post

namespace Agrees

variable {d : Descriptor} {selects : Tag → Bool} {pre post : Nat} {xs : Track}
  {o : TriggerObserver} {out : List Capture}

/-- Before the first sample. -/
lemma start (d : Descriptor) (selects : Tag → Bool) (pre post : Nat) :
    Agrees d selects pre post [] { selects, pre, post } [] :=
  ⟨rfl, rfl, rfl, rfl, rfl, rfl⟩

/-- Samples that no window can need may be forgotten. -/
lemma trim (h : Agrees d selects pre post xs o out) : Agrees d selects pre post xs o.trim out where
  selects_eq := h.selects_eq
  pre_eq := h.pre_eq
  post_eq := h.post_eq
  history := by
    rw [TriggerObserver.trim, h.pre_eq, List.take_take, Nat.min_self]
    exact h.history
  windows := h.windows
  out_eq := h.out_eq

/-- The window that a tag on the next sample opens. -/
lemma windowAt_eq (h : Agrees d selects pre post xs o out) (t : Tag) :
    o.windowAt t = xs.window pre post (xs.length, t) := by
  have hbefore : o.history.take o.pre =
      (xs.values.extract (xs.length - pre) (xs.length + post)).reverse := by
    rw [h.pre_eq, h.history, List.take_reverse, Track.length_values, List.extract,
      List.take_of_length_le]
    rw [List.length_drop, Track.length_values]
    omega
  have hlength : (o.history.take o.pre).length = min pre xs.length := by
    rw [h.pre_eq, h.history, List.length_take, List.length_reverse, Track.length_values]
  simp only [windowAt, Track.window, hlength, h.post_eq, Nat.add_sub_cancel_left]
  rw [hbefore]

/-- **The windows after the next sample is recorded** are those of the marks that were open before
and those of the marks on the sample. -/
lemma recorded_eq (h : Agrees d selects pre post xs o out) (x : Single × List Tag) :
    (o.windows ++ (x.2.filter o.selects).map o.windowAt).map (·.record x.1) =
      (((xs.marks selects).filter fun m => !decide (m.1 + post ≤ xs.length)) ++
        (x.2.filter selects).map fun t => (xs.length, t)).map
          (Track.window pre post (xs ++ [x])) := by
  have hopened : (x.2.filter o.selects).map o.windowAt =
      ((x.2.filter selects).map fun t => (xs.length, t)).map (xs.window pre post) := by
    rw [h.selects_eq, List.map_map]
    exact List.map_congr_left fun t _ => h.windowAt_eq t
  rw [h.windows, hopened, ← List.map_append, List.map_map]
  apply List.map_congr_left
  intro m hm
  refine Track.record_window ?_ x
  rcases List.mem_append.mp hm with hm | hm
  · exact (Track.lt_of_mem_marks selects xs (List.mem_of_mem_filter hm)).le
  · obtain ⟨t, -, rfl⟩ := List.mem_map.mp hm
    exact le_rfl

/-- The last samples after the next one. -/
lemma history_step (h : Agrees d selects pre post xs o out) (x : Single × List Tag) :
    (o.step d x.1 x.2).1.history.take pre = (xs ++ [x]).values.reverse.take pre := by
  have hhistory : (o.step d x.1 x.2).1.history = if o.pre = 0 then [] else x.1 :: o.history := rfl
  rw [hhistory, h.pre_eq, Track.values_append, List.reverse_append]
  cases pre with
  | zero => simp
  | succ n =>
    have hshorter := congrArg (List.take n) h.history
    rw [List.take_take, List.take_take, Nat.min_eq_left (Nat.le_succ n)] at hshorter
    simpa using hshorter

/-- **One more sample.**

**Proof sketch.** After the sample is recorded, each window is that of its mark on the longer track.
The windows that are complete now belong to marks that come after all marks whose captures had
ended, so that their captures follow in the order of the track. -/
theorem step (h : Agrees d selects pre post xs o out) (x : Single × List Tag) :
    Agrees d selects pre post (xs ++ [x]) (o.step d x.1 x.2).1 (out ++ (o.step d x.1 x.2).2) := by
  have hlength : (xs ++ [x]).length = xs.length + 1 := by simp
  have hmarks := Track.marks_append selects xs x
  have hrecorded := h.recorded_eq x
  generalize (x.2.filter selects).map (fun t => (xs.length, t)) = new at hmarks hrecorded
  have himp : ∀ m : Nat × Tag, decide (m.1 + post ≤ xs.length) = true →
      decide (m.1 + post ≤ (xs ++ [x]).length) = true := by
    intro m hm
    simp only [decide_eq_true_eq] at hm ⊢
    omega
  have hcomplete : Window.isComplete ∘ Track.window pre post (xs ++ [x]) =
      fun m => decide (m.1 + post ≤ (xs ++ [x]).length) :=
    funext fun m => Track.isComplete_window
  refine ⟨h.selects_eq, h.pre_eq, h.post_eq, h.history_step x, ?_, ?_⟩
  · have hopen : (fun w : Window => !w.isComplete) ∘ Track.window pre post (xs ++ [x]) =
        fun m => !decide (m.1 + post ≤ (xs ++ [x]).length) :=
      funext fun m => congrArg (!·) Track.isComplete_window
    simp only [TriggerObserver.step]
    rw [hrecorded, List.filter_map, hopen, hmarks, List.filter_append, List.filter_append,
      Track.filter_not_filter_not _ himp]
  · have hbefore : out = ((xs.marks selects).filter fun m => decide (m.1 + post ≤ xs.length)).map
        ((xs ++ [x]).around d pre post) := by
      rw [h.out_eq, Track.triggered]
      apply List.map_congr_left
      intro m hm
      exact (Track.around_append (by simpa using (List.mem_filter.mp hm).2) d x).symm
    have hnow : (o.step d x.1 x.2).2 =
        ((((xs.marks selects).filter fun m => !decide (m.1 + post ≤ xs.length)) ++ new).filter
          fun m => decide (m.1 + post ≤ (xs ++ [x]).length)).map
            ((xs ++ [x]).around d pre post) := by
      simp only [TriggerObserver.step]
      rw [hrecorded, List.filter_map, hcomplete, List.map_map]
      apply List.map_congr_left
      intro m hm
      exact Track.toCapture_window_of_le (by simpa using (List.mem_filter.mp hm).2) d
    have hsorted : (xs.marks selects).Pairwise fun a b =>
        decide (b.1 + post ≤ xs.length) = true → decide (a.1 + post ≤ xs.length) = true := by
      refine (Track.ordered_marks selects xs).imp fun {a b} hab hb => ?_
      simp only [decide_eq_true_eq] at hb ⊢
      omega
    rw [hbefore, hnow, ← List.map_append, List.filter_append, ← List.append_assoc,
      Track.filter_append_filter himp hsorted, ← List.filter_append, ← hmarks]
    rfl

/-- **A trigger observer agrees with every track that it has watched.** -/
lemma keeps (d : Descriptor) (selects : Tag → Bool) (pre post : Nat) :
    Observer.Keeps d fun xs o out => ∃ t, o = .trigger t ∧ Agrees d selects pre post xs t out where
  step := by
    rintro xs o out ⟨t, rfl, ht⟩ x
    exact ⟨_, rfl, ht.step x⟩
  trim := by
    rintro xs o out ⟨t, rfl, ht⟩
    exact ⟨_, rfl, ht.trim⟩

end Agrees

end TriggerObserver

namespace Custody

/-- **The captures offered to a poller that wants samples around tags.**

Let a poller be attached, at any time, to a sink that has not stopped, with a rule that selects tags
and with `pre` samples before a tag and `post` samples from it on, not both none. Then whatever
other pollers are attached, dropped or full, whatever blocks are pushed and however its consumer
takes items: the queue of the poller is that of a producer who publishes, and of the consumer; and
what is published is one capture for each selected tag inside its block after which there are `post`
samples, in the order of the samples and then of the tags, with the samples around the tag, no
errors, and the properties of the tag at its position.

**Proof sketch.** The poller's observer watches the track of all blocks that are pushed since, and
what it has become after a track and what it has cut out so far is kept from sample to sample. -/
theorem triggered_exact (d : Descriptor) (rate : Single) (before after : List Move)
    (capacity pre post : Nat) (selects : Tag → Bool)
    (hopen : ((start d rate).run before).sink.stopped = false) (hwindow : 0 < pre + post)
    (hkept : ∀ m ∈ after, m ≠ .drop ((start d rate).run before).sink.attached) :
    let c := (start d rate).run before
    let id := c.sink.attached
    let c' := c.perform (.attach capacity (.triggered selects pre post))
    let samples := (pushed after).flatMap Block.samples
    let marks := (Track.ofBlocks (pushed after)).marks selects
    c.sink.attach capacity (.triggered selects pre post) = .ok (id, c'.sink) ∧
      (∃ t, (c'.run after).sink.tap? id = some t ∧ t.released = false ∧
        t.outlet.captures? = some ((Account.start capacity).run (c'.dealings id after)).queue) ∧
      (c'.dealings id after).filterMap QueueStep.published? =
        (marks.filter fun m => m.1 + post ≤ samples.length).map fun m =>
          { signals := [d]
            values := samples.extract (m.1 - pre) (m.1 + post)
            errors := List.replicate (min pre m.1 + post) .zero
            events := [⟨min pre m.1, m.2.moveTo (min pre m.1)⟩] } := by
  intro c id c' samples marks
  have hc : c.Sound := (sound_start d rate).run before
  have hd : c.sink.descriptor = d := (start d rate).descriptor_run before
  have hne : ¬ pre + post = 0 := by omega
  have ho : c.sink.outletFor capacity (.triggered selects pre post) =
      .ok (.captures (.trigger { selects, pre, post }) (.ofCapacity capacity)) := if_neg hne
  have hengage : c' = c.engage capacity (.trigger { selects, pre, post }) :=
    perform_attach_eq hopen ho
  obtain ⟨htap, -, t, -, hagrees⟩ := engaged_run hc hopen capacity
    (TriggerObserver.Agrees.keeps c.sink.descriptor selects pre post)
    ⟨_, rfl, .start c.sink.descriptor selects pre post⟩ hkept
  rw [← hengage] at htap hagrees
  refine ⟨?_, htap, ?_⟩
  · rw [hengage]
    exact Sink.attach_eq_withTap hopen ho
  · refine hagrees.out_eq.trans ?_
    rw [Track.triggered, Track.length_ofBlocks, hd]
    apply List.map_congr_left
    intro m _
    have hwidth : m.1 + post - (m.1 - pre) = min pre m.1 + post := by omega
    rw [Track.around, Track.values_ofBlocks, Capture.excerpt, hwidth]

/-- Two blocks with an empty one between them. Tags are out of order, one marks another trigger, one
lies beyond its block, and one comes too late. Meanwhile another poller is dropped and a third
attached. -/
def sampleBlocks : List Move :=
  [.push { samples := [⟨1⟩, ⟨2⟩, ⟨3⟩]
           tags := [.ofTrigger 2 "T", .ofTrigger 1 "U", .ofTrigger 3 "T", .ofTrigger 0 "T"] },
    .drop 0, .attach 4 .streaming, .push {},
    .push { samples := [⟨4⟩, ⟨5⟩], tags := [.ofTrigger 1 "T"] }]

/-- Two of the tags are offered a capture: the first lacks the sample before it, and the other one
reaches into the last block. -/
theorem triggered_exact_sample :
    let c := (start default ⟨0⟩).run [.attach 4 .streaming, .push { samples := [⟨9⟩] }]
    let c' := c.perform (.attach 1 (.triggered (Tag.selectedBy "T") 1 2))
    let first : Capture := ⟨[default], [⟨1⟩, ⟨2⟩], [.zero, .zero], [⟨0, Tag.ofTrigger 0 "T"⟩]⟩
    let second : Capture :=
      ⟨[default], [⟨2⟩, ⟨3⟩, ⟨4⟩], [.zero, .zero, .zero], [⟨1, Tag.ofTrigger 1 "T"⟩]⟩
    (c'.dealings 1 sampleBlocks).filterMap QueueStep.published? = [first, second] ∧
      ∃ t, (c'.run sampleBlocks).sink.tap? 1 = some t ∧ t.released = false ∧
        t.outlet.captures? =
          some ((Account.start 1).run (c'.dealings 1 sampleBlocks)).queue := by
  intro c c' first second
  have hopen : c.sink.stopped = false := by rfl
  have hkept : ∀ m ∈ sampleBlocks, m ≠ .drop c.sink.attached := by
    have hid : c.sink.attached = 1 := by rfl
    rw [hid]
    simp [sampleBlocks]
  obtain ⟨-, htap, hpublished⟩ := triggered_exact default ⟨0⟩
    [.attach 4 .streaming, .push { samples := [⟨9⟩] }] sampleBlocks 1 1 2 (Tag.selectedBy "T")
    hopen (by decide) hkept
  exact ⟨hpublished.trans (by decide +kernel), htap⟩

end Custody

end Daq
