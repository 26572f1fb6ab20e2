import Daq.Proofs.Sink.Watching

set_option autoImplicit false

/-!
# Samples some time after tags

A snapshot observer lets a fixed number of samples pass after each selected tag and then takes one.
It counts down for all tags at once, also for several on one sample. On the track of the samples,
the capture of a mark holds the sample at a fixed distance behind it. Exactly the marks behind which
the track is long enough have been offered, in the order of the track.

## Main definitions

* `Daq.Track.snapshots` — the captures of those marks.
* `Daq.SnapshotObserver.Agrees` — what an observer has become after a track.

## Main results

* `Daq.SnapshotObserver.Agrees.step` — one more sample.
* `Daq.Custody.snapshots_exact` — what is offered to a poller in every run.
-/

namespace Daq

namespace Track

/-- The capture of a mark: the sample `D` samples behind it. -/
def snapshot (d : Descriptor) (D : Nat) (xs : Track) (m : Nat × Tag) : Capture where
  signals := [d]
  values := xs.values[m.1 + D]?.toList
  errors := [.zero]
  events := [⟨0, m.2.moveTo 0⟩]

/-- The captures of those marks behind which there are enough samples. -/
def snapshots (d : Descriptor) (selects : Tag → Bool) (D : Nat) (xs : Track) : List Capture :=
  ((xs.marks selects).filter fun m => m.1 + D < xs.length).map (xs.snapshot d D)

/-- The countdown for a mark: the number of samples still to let pass. -/
def countdown (D : Nat) (xs : Track) (m : Nat × Tag) : Nat × Tag :=
  (m.1 + D - xs.length, m.2.moveTo 0)

variable {D : Nat} {xs : Track} {m : Nat × Tag}

/-- The capture of a mark is not changed by what follows. -/
lemma snapshot_append (hm : m.1 + D < xs.length) (d : Descriptor) (x : Single × List Tag) :
    snapshot d D (xs ++ [x]) m = xs.snapshot d D m := by
  unfold snapshot
  rw [values_append, List.getElem?_append_left (by rwa [length_values])]

/-- The capture of a mark whose countdown is over holds the next sample. -/
lemma snapshot_now (hm : m.1 + D = xs.length) (d : Descriptor) (x : Single × List Tag) :
    snapshot d D (xs ++ [x]) m = .ofValues d [x.1] ⟨0, m.2.moveTo 0⟩ := by
  have hvalue : (xs.values ++ [x.1])[m.1 + D]? = some x.1 := by
    rw [hm, ← length_values xs, List.getElem?_concat_length]
  unfold snapshot
  rw [values_append, hvalue]
  rfl

/-- A mark on the next sample has not got its sample before. -/
lemma filter_marks_append (selects : Tag → Bool) (D : Nat) (xs : Track) (x : Single × List Tag) :
    (marks selects (xs ++ [x])).filter (fun m => m.1 + D < xs.length) =
      (xs.marks selects).filter fun m => m.1 + D < xs.length := by
  have hnone : ((x.2.filter selects).map fun t => (xs.length, t)).filter
      (fun m => m.1 + D < xs.length) = [] := by
    rw [List.filter_eq_nil_iff]
    intro m hm
    obtain ⟨t, -, rfl⟩ := List.mem_map.mp hm
    simp
  rw [marks_append, List.filter_append, hnone, List.append_nil]

end Track

/-! ### The observer -/

namespace SnapshotObserver

/-- What a snapshot observer has become after a track, and what it has cut out. -/
structure Agrees (d : Descriptor) (selects : Tag → Bool) (D : Nat) (xs : Track)
    (o : SnapshotObserver) (out : List Capture) : Prop where
  /-- It selects the same tags. -/
  selects_eq : o.selects = selects
  /-- It lets the same number of samples pass. -/
  delay_eq : o.delay = D
  /-- It counts down for the marks that have not got their samples. -/
  pending : o.pending =
    ((xs.marks selects).filter fun m => !decide (m.1 + D < xs.length)).map (xs.countdown D)
  /-- For the others the sample was taken. -/
  out_eq : out = xs.snapshots d selects D

namespace Agrees

variable {d : Descriptor} {selects : Tag → Bool} {D : Nat} {xs : Track} {o : SnapshotObserver}
  {out : List Capture}

/-- Before the first sample. -/
lemma start (d : Descriptor) (selects : Tag → Bool) (D : Nat) :
    Agrees d selects D [] { selects, delay := D } [] :=
  ⟨rfl, rfl, rfl, rfl⟩

/-- **The countdowns when the tags of the next sample are noted** are those of the marks that were
pending before and those of the marks on the sample; none of these is due earlier. -/
lemma noted_eq (h : Agrees d selects D xs o out) (x : Single × List Tag) :
    o.pending ++ (x.2.filter o.selects).map (fun t => (o.delay, t.moveTo 0)) =
        ((Track.marks selects (xs ++ [x])).filter
          fun m => !decide (m.1 + D < xs.length)).map (xs.countdown D) := by
  have hlate : ((x.2.filter selects).map fun t => (xs.length, t)).filter
      (fun m => !decide (m.1 + D < xs.length)) =
        (x.2.filter selects).map fun t => (xs.length, t) := by
    rw [List.filter_eq_self]
    intro m hm
    obtain ⟨t, -, rfl⟩ := List.mem_map.mp hm
    simp
  have hnew : (x.2.filter o.selects).map (fun t => (o.delay, t.moveTo 0)) =
      ((x.2.filter selects).map fun t => (xs.length, t)).map (xs.countdown D) := by
    rw [h.selects_eq, h.delay_eq, List.map_map]
    apply List.map_congr_left
    intro t _
    simp [Track.countdown]
  rw [Track.marks_append, List.filter_append, hlate, List.map_append, ← h.pending, hnew]

/-- **One more sample.**

**Proof sketch.** The countdowns that are over belong to the marks at the fixed distance before the
sample. They come after all marks that have got their samples before, so that their captures follow
in the order of the track. -/
theorem step (h : Agrees d selects D xs o out) (x : Single × List Tag) :
    Agrees d selects D (xs ++ [x]) (o.step d x.1 x.2).1 (out ++ (o.step d x.1 x.2).2) := by
  have hlength : (xs ++ [x]).length = xs.length + 1 := by simp
  have hnoted := h.noted_eq x
  have himp : ∀ m : Nat × Tag, decide (m.1 + D < xs.length) = true →
      decide (m.1 + D < (xs ++ [x]).length) = true := by
    intro m hm
    simp only [decide_eq_true_eq] at hm ⊢
    omega
  refine ⟨h.selects_eq, h.delay_eq, ?_, ?_⟩
  · have hstill : (fun p : Nat × Tag => decide (p.1 ≠ 0)) ∘ xs.countdown D =
        fun m => !decide (m.1 + D < (xs ++ [x]).length) := by
      funext m
      apply Bool.eq_iff_iff.mpr
      have hcount : (xs.countdown D m).1 = m.1 + D - xs.length := rfl
      simp only [Function.comp_apply, hlength, decide_eq_true_eq, Bool.not_eq_true',
        decide_eq_false_iff_not]
      omega
    simp only [SnapshotObserver.step]
    rw [hnoted, List.filter_map, hstill, Track.filter_not_filter_not _ himp, List.map_map]
    apply List.map_congr_left
    intro m _
    simp only [Function.comp_apply, Track.countdown, hlength, Nat.sub_sub]
  · have hbefore : out = ((Track.marks selects (xs ++ [x])).filter
        fun m => decide (m.1 + D < xs.length)).map (Track.snapshot d D (xs ++ [x])) := by
      rw [h.out_eq, Track.snapshots, Track.filter_marks_append]
      apply List.map_congr_left
      intro m hm
      exact (Track.snapshot_append (by simpa using (List.mem_filter.mp hm).2) d x).symm
    have hover : (fun p : Nat × Tag => decide (p.1 = 0)) ∘ xs.countdown D =
        fun m => decide (m.1 + D < (xs ++ [x]).length) := by
      funext m
      apply Bool.eq_iff_iff.mpr
      have hcount : (xs.countdown D m).1 = m.1 + D - xs.length := rfl
      simp only [Function.comp_apply, hlength, decide_eq_true_eq]
      omega
    have hnow : (o.step d x.1 x.2).2 = (((Track.marks selects (xs ++ [x])).filter
        fun m => !decide (m.1 + D < xs.length)).filter
          fun m => decide (m.1 + D < (xs ++ [x]).length)).map (Track.snapshot d D (xs ++ [x])) := by
      simp only [SnapshotObserver.step]
      rw [hnoted, List.filter_map, hover, List.map_map]
      apply List.map_congr_left
      intro m hm
      simp only [List.mem_filter, decide_eq_true_eq, Bool.not_eq_true', decide_eq_false_iff_not,
        hlength] at hm
      exact (Track.snapshot_now (by omega) d x).symm
    have hsorted : (Track.marks selects (xs ++ [x])).Pairwise fun a b =>
        decide (b.1 + D < xs.length) = true → decide (a.1 + D < xs.length) = true := by
      refine (Track.ordered_marks selects (xs ++ [x])).imp fun {a b} hab hb => ?_
      simp only [decide_eq_true_eq] at hb ⊢
      omega
    rw [hbefore, hnow, ← List.map_append, Track.filter_append_filter himp hsorted]
    rfl

/-- **A snapshot observer agrees with every track that it has watched.** -/
lemma keeps (d : Descriptor) (selects : Tag → Bool) (D : Nat) :
    Observer.Keeps d fun xs o out => ∃ t, o = .snapshot t ∧ Agrees d selects D xs t out where
  step := by
    rintro xs o out ⟨t, rfl, ht⟩ x
    exact ⟨_, rfl, ht.step x⟩
  trim := by
    rintro xs o out ⟨t, rfl, ht⟩
    exact ⟨t, rfl, ht⟩

end Agrees

end SnapshotObserver

namespace Custody

/-- **The captures offered to a poller that wants single samples some time after tags.**

Let a poller be attached, at any time, to a sink that has not stopped, with a rule that selects tags
and with a delay of `D` samples: this is what a request for a delay in time comes to at the rate of
the sink. Then whatever other pollers are attached, dropped or full, whatever blocks are pushed and
however its consumer takes items: the queue of the poller is that of a producer who publishes, and
of the consumer; and what is published is one capture for each selected tag inside its block behind
which there are more than `D` samples, in the order of the samples and then of the tags, with the
sample `D` samples behind the tag, no error, and the properties of the tag.

**Proof sketch.** The observer counts down for each mark whose sample has not come. At each sample
the countdowns that are over are those of the marks `D` samples before. -/
theorem snapshots_exact (d : Descriptor) (rate : Single) (before after : List Move)
    (capacity D : Nat) (selects : Tag → Bool)
    (hopen : ((start d rate).run before).sink.stopped = false)
    (hkept : ∀ m ∈ after, m ≠ .drop ((start d rate).run before).sink.attached) :
    let c := (start d rate).run before
    let id := c.sink.attached
    let c' := c.engage capacity (.snapshot { selects, delay := D })
    let samples := (pushed after).flatMap Block.samples
    let marks := (Track.ofBlocks (pushed after)).marks selects
    (∀ delay : Duration, delay.samplesAt c.sink.rate = D →
      c.perform (.attach capacity (.snapshot selects delay)) = c' ∧
        c.sink.attach capacity (.snapshot selects delay) = .ok (id, c'.sink)) ∧
      (∃ t, (c'.run after).sink.tap? id = some t ∧ t.released = false ∧
        t.outlet.captures? = some ((Account.start capacity).run (c'.dealings id after)).queue) ∧
      (c'.dealings id after).filterMap QueueStep.published? =
        (marks.filter fun m => m.1 + D < samples.length).map fun m =>
          { signals := [d]
            values := samples[m.1 + D]?.toList
            errors := [.zero]
            events := [⟨0, m.2.moveTo 0⟩] } := by
  intro c id c' samples marks
  have hc : c.Sound := (sound_start d rate).run before
  have hd : c.sink.descriptor = d := (start d rate).descriptor_run before
  obtain ⟨htap, -, t, -, hagrees⟩ := engaged_run hc hopen capacity
    (SnapshotObserver.Agrees.keeps c.sink.descriptor selects D)
    ⟨_, rfl, .start c.sink.descriptor selects D⟩ hkept
  refine ⟨?_, htap, ?_⟩
  · intro delay hdelay
    have ho : c.sink.outletFor capacity (.snapshot selects delay) =
        .ok (.captures (.snapshot { selects, delay := D }) (.ofCapacity capacity)) := by
      rw [Sink.outletFor, hdelay]
    exact ⟨perform_attach_eq hopen ho, Sink.attach_eq_withTap hopen ho⟩
  · refine hagrees.out_eq.trans ?_
    rw [Track.snapshots, Track.length_ofBlocks, hd]
    apply List.map_congr_left
    intro m _
    rw [Track.snapshot, Track.values_ofBlocks]

/-- Three blocks, the second one empty. Of two tags on one sample both are selected, one lies beyond
its block, and one comes too late. -/
def sampleGlimpses : List Move :=
  [.push { samples := [⟨1⟩, ⟨2⟩, ⟨3⟩]
           tags := [.ofTrigger 2 "T", .ofTrigger 1 "T", .ofTrigger 3 "T", .ofTrigger 1 "T",
             .ofTrigger 0 "U"] },
    .drop 0, .push {}, .take 1 1, .push { samples := [⟨4⟩, ⟨5⟩], tags := [.ofTrigger 0 "T"] }]

/-- Two snapshots of one sample, and then another one. -/
theorem snapshots_exact_sample :
    let c := (start default ⟨0⟩).run [.attach 4 .streaming]
    let c' := c.engage 1 (.snapshot { selects := Tag.selectedBy "T", delay := 2 })
    let first : Capture := ⟨[default], [⟨4⟩], [.zero], [⟨0, Tag.ofTrigger 0 "T"⟩]⟩
    let last : Capture := ⟨[default], [⟨5⟩], [.zero], [⟨0, Tag.ofTrigger 0 "T"⟩]⟩
    (c'.dealings 1 sampleGlimpses).filterMap QueueStep.published? = [first, first, last] ∧
      ∃ t, (c'.run sampleGlimpses).sink.tap? 1 = some t ∧ t.released = false ∧
        t.outlet.captures? =
          some ((Account.start 1).run (c'.dealings 1 sampleGlimpses)).queue := by
  intro c c' first last
  have hkept : ∀ m ∈ sampleGlimpses, m ≠ .drop c.sink.attached := by
    have hid : c.sink.attached = 1 := by rfl
    rw [hid]
    simp [sampleGlimpses]
  obtain ⟨-, htap, hpublished⟩ := snapshots_exact default ⟨0⟩ [.attach 4 .streaming]
    sampleGlimpses 1 2 (Tag.selectedBy "T") (by rfl) hkept
  exact ⟨hpublished.trans (by decide +kernel), htap⟩

end Custody

end Daq
