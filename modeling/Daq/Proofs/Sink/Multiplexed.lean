import Daq.Proofs.Sink.Watching

set_option autoImplicit false

/-!
# Captures from tag to tag

A multiplex observer has at most one open window. It opens at the first selected tag on a sample,
and it is closed at the next such sample or when it is full. So on the track of the samples each
opening has one stretch, from itself to the next opening or up to its greatest length, whichever is
shorter. The stretches that have come to an end have been offered, in the order of the track.

## Main definitions

* `Daq.Track.closed`, `Daq.Track.unclosed` — the windows that are closed within a number of samples,
  with their ends, and the one that is not.
* `Daq.MultiplexObserver.Agrees` — what an observer has become after a track.

## Main results

* `Daq.Track.disjoint_closed`, `Daq.Track.bounds_of_mem_closed`, `Daq.Track.sublist_closed` — closed
  windows are disjoint, not empty and not too long, and each opening has at most one.
* `Daq.MultiplexObserver.Agrees.reopen`, `Daq.MultiplexObserver.Agrees.record` — tags close and open
  windows, and samples fill them.
* `Daq.Custody.multiplexed_exact` — what is offered to a poller in every run.
-/

namespace Daq

namespace Track

/-- The windows that are closed within the first `n` samples, each with its opening and its end. A
window is closed at the next opening or when it has `W` samples. -/
def closed (W n : Nat) : List (Nat × Tag) → List ((Nat × Tag) × Nat)
  | [] => []
  | [m] => if m.1 + W ≤ n then [(m, m.1 + W)] else []
  | m :: next :: ms => (m, min next.1 (m.1 + W)) :: closed W n (next :: ms)

/-- The window that is not closed within the first `n` samples, if there is one: that of the last
opening. -/
def unclosed (W n : Nat) (ms : List (Nat × Tag)) : Option (Nat × Tag) :=
  ms.getLast?.filter fun m => n < m.1 + W

/-- The capture of a closed window. -/
def stretch (d : Descriptor) (xs : Track) (s : (Nat × Tag) × Nat) : Capture :=
  .excerpt d xs.values s.1.1 s.2 0 s.1.2

/-! ### The windows of openings -/

section Closed

variable {W n : Nat} {ms : List (Nat × Tag)}

/-- Each window has an opening of its own, in the order of the openings. -/
lemma sublist_closed (W n : Nat) (ms : List (Nat × Tag)) :
    ((closed W n ms).map Prod.fst).Sublist ms := by
  induction ms with
  | nil => exact List.Sublist.refl []
  | cons m ms ih =>
    cases ms with
    | nil =>
      unfold closed
      split
      · exact List.Sublist.refl [m]
      · exact List.nil_sublist [m]
    | cons next ms => exact ih.cons_cons m

/-- A window that is closed within the first `n` samples ends within them. -/
lemma le_of_mem_closed (hn : ∀ m ∈ ms, m.1 ≤ n) {s : (Nat × Tag) × Nat} (hs : s ∈ closed W n ms) :
    s.2 ≤ n := by
  induction ms with
  | nil => cases hs
  | cons m ms ih =>
    cases ms with
    | nil =>
      unfold closed at hs
      split at hs
      · obtain rfl := List.mem_singleton.mp hs
        assumption
      · cases hs
    | cons next ms =>
      rcases List.mem_cons.mp hs with rfl | hs
      · exact Nat.le_trans (Nat.min_le_left _ _) (hn next (by simp))
      · exact ih (fun a ha => hn a (List.mem_cons_of_mem m ha)) hs

/-- **A closed window is not empty and has at most `W` samples.** -/
lemma bounds_of_mem_closed (hW : 0 < W) (hms : ms.Pairwise fun a b => a.1 < b.1)
    {s : (Nat × Tag) × Nat} (hs : s ∈ closed W n ms) : s.1.1 < s.2 ∧ s.2 ≤ s.1.1 + W := by
  induction ms with
  | nil => cases hs
  | cons m ms ih =>
    rw [List.pairwise_cons] at hms
    cases ms with
    | nil =>
      unfold closed at hs
      split at hs
      · obtain rfl := List.mem_singleton.mp hs
        exact ⟨Nat.lt_add_of_pos_right hW, le_rfl⟩
      · cases hs
    | cons next ms =>
      rcases List.mem_cons.mp hs with rfl | hs
      · have hnext : m.1 < next.1 := hms.1 next List.mem_cons_self
        exact ⟨lt_min hnext (Nat.lt_add_of_pos_right hW), Nat.min_le_right _ _⟩
      · exact ih hms.2 hs

/-- **Closed windows are disjoint**: each ends before the next one begins. -/
lemma disjoint_closed (W n : Nat) (hms : ms.Pairwise fun a b => a.1 < b.1) :
    (closed W n ms).Pairwise fun a b => a.2 ≤ b.1.1 := by
  induction ms with
  | nil => exact List.Pairwise.nil
  | cons m ms ih =>
    rw [List.pairwise_cons] at hms
    cases ms with
    | nil =>
      unfold closed
      split
      · exact List.pairwise_singleton _ _
      · exact List.Pairwise.nil
    | cons next ms =>
      refine List.Pairwise.cons (fun s hs => ?_) (ih hms.2)
      -- A later window begins at the next opening or after it.
      have hopening : s.1 ∈ next :: ms :=
        (sublist_closed W n (next :: ms)).mem (List.mem_map_of_mem hs)
      have hlater : next.1 ≤ s.1.1 := by
        rcases List.mem_cons.mp hopening with hsame | hmem
        · rw [hsame]
        · exact ((List.pairwise_cons.mp hms.2).1 s.1 hmem).le
      exact Nat.le_trans (Nat.min_le_left _ _) hlater

/-- The last opening decides. -/
lemma unclosed_concat (W n : Nat) (ms : List (Nat × Tag)) (m : Nat × Tag) :
    unclosed W n (ms ++ [m]) = if n < m.1 + W then some m else none := by
  rw [unclosed, List.getLast?_concat, Option.filter_some]
  simp only [decide_eq_true_eq]

/-- A window that is not closed belongs to an opening and is not full. -/
lemma mem_of_unclosed {m : Nat × Tag} (hm : unclosed W n ms = some m) : m ∈ ms ∧ n < m.1 + W := by
  obtain ⟨hlast, hlate⟩ := Option.filter_eq_some_iff.mp hm
  exact ⟨List.mem_of_getLast? hlast, of_decide_eq_true hlate⟩

/-- After one more sample a window is still not closed if it is not full then. -/
lemma unclosed_succ (W n : Nat) (ms : List (Nat × Tag)) :
    unclosed W (n + 1) ms = (unclosed W n ms).filter fun m => !decide (m.1 + W ≤ n + 1) := by
  unfold unclosed
  rw [Option.filter_filter]
  congr 1
  funext m
  apply Bool.eq_iff_iff.mpr
  simp only [Bool.and_eq_true, Bool.not_eq_true', decide_eq_true_eq, decide_eq_false_iff_not]
  omega

/-- One more sample closes the window that is not closed yet, if it is full then. -/
lemma closed_succ (W n : Nat) (ms : List (Nat × Tag)) :
    closed W (n + 1) ms = closed W n ms ++
      (((unclosed W n ms).filter fun m => m.1 + W ≤ n + 1).map fun m => (m, m.1 + W)).toList := by
  induction ms with
  | nil => rfl
  | cons m ms ih =>
    cases ms with
    | nil =>
      have hlast := unclosed_concat W n [] m
      rw [List.nil_append] at hlast
      rcases Nat.lt_or_ge n (m.1 + W) with hopen | hdone
      · rcases Nat.lt_or_ge (n + 1) (m.1 + W) with hstill | hfull
        · simp [closed, hlast, hopen, Nat.not_le_of_lt hopen, Nat.not_le_of_lt hstill, hstill]
        · simp [closed, hlast, hopen, Nat.not_le_of_lt hopen, hfull, Option.filter_some]
      · simp [closed, hlast, hdone, Nat.not_lt_of_ge hdone, Nat.le_succ_of_le hdone]
    | cons next ms =>
      rw [unclosed, List.getLast?_cons_cons]
      simp only [closed, List.cons_append]
      rw [ih]
      rfl

/-- One more opening closes the window that is not closed yet. -/
lemma closed_concat (hW : 0 < W) (ms : List (Nat × Tag)) (m : Nat × Tag) :
    closed W m.1 (ms ++ [m]) = closed W m.1 ms ++ (unclosed W m.1 ms).toList.map (·, m.1) := by
  induction ms with
  | nil =>
    have hopen : ¬ m.1 + W ≤ m.1 := by omega
    simp [closed, unclosed, hopen]
  | cons p ms ih =>
    cases ms with
    | nil =>
      have hopen : ¬ m.1 + W ≤ m.1 := by omega
      have hlast := unclosed_concat W m.1 [] p
      rw [List.nil_append] at hlast
      rcases Nat.lt_or_ge m.1 (p.1 + W) with hlate | hdone
      · simp [closed, hlast, hopen, hlate, Nat.not_le_of_lt hlate, hlate.le]
      · simp [closed, hlast, hopen, hdone, Nat.not_lt_of_ge hdone]
    | cons next ms =>
      rw [unclosed, List.getLast?_cons_cons]
      simp only [closed, List.cons_append]
      rw [← List.cons_append, ih]
      rfl

end Closed

end Track

/-! ### The observer -/

namespace MultiplexObserver

/-- What a multiplex observer has become after a track with these openings, and what it has cut
out. -/
structure Agrees (d : Descriptor) (selects : Tag → Bool) (W : Nat) (ms : List (Nat × Tag))
    (xs : Track) (o : MultiplexObserver) (out : List Capture) : Prop where
  /-- It selects the same tags. -/
  selects_eq : o.selects = selects
  /-- Its windows have the same greatest length. -/
  window_eq : o.window = W
  /-- Its open window is the one that is not closed. -/
  current : o.current = (Track.unclosed W xs.length ms).map (xs.window 0 W)
  /-- The windows that are closed were cut out. -/
  out_eq : out = (Track.closed W xs.length ms).map (xs.stretch d)

namespace Agrees

variable {d : Descriptor} {selects : Tag → Bool} {W : Nat} {ms : List (Nat × Tag)} {xs : Track}
  {o : MultiplexObserver} {out : List Capture}

/-- Before the first sample. -/
lemma start (d : Descriptor) (selects : Tag → Bool) (W : Nat) :
    Agrees d selects W [] [] { selects, window := W } [] :=
  ⟨rfl, rfl, rfl, rfl⟩

/-- **A selected tag on the next sample** closes the open window and opens another one. -/
lemma reopen (h : Agrees d selects W ms xs o out) (hW : 0 < W) (hms : ∀ m ∈ ms, m.1 ≤ xs.length)
    (tags : List Tag) :
    Agrees d selects W (ms ++ ((tags.find? selects).map fun t => (xs.length, t)).toList) xs
      { o with current := (o.reopen tags).1 }
      (out ++ (o.reopen tags).2.map (Window.toCapture d)) := by
  obtain ⟨rfl, rfl, hcurrent, hout⟩ := h
  unfold MultiplexObserver.reopen
  cases tags.find? o.selects with
  | none => simpa using ⟨rfl, rfl, hcurrent, hout⟩
  | some t =>
    rw [Option.map_some, Option.toList_some]
    refine ⟨rfl, rfl, ?_, ?_⟩
    · have hopen : xs.length < xs.length + o.window := by omega
      have hempty : xs.values.extract xs.length (xs.length + o.window) = [] := by
        rw [List.extract, List.drop_of_length_le (Track.length_values xs).le, List.take_nil]
      rw [Track.unclosed_concat, if_pos hopen]
      simp [Track.window, hempty]
    · have hcut : o.current.toList.map (Window.toCapture d) =
          ((Track.unclosed o.window xs.length ms).toList.map (·, xs.length)).map
            (xs.stretch d) := by
        rw [hcurrent, Option.toList_map, List.map_map, List.map_map]
        apply List.map_congr_left
        intro m hm
        obtain ⟨hmem, hlate⟩ := Track.mem_of_unclosed (Option.mem_toList.mp hm)
        rw [Function.comp_apply, Track.toCapture_window d (hms m hmem), Nat.min_eq_left hlate.le]
        simp [Track.stretch]
      have hclosed := Track.closed_concat hW ms (xs.length, t)
      rw [hclosed, List.map_append, hout, hcut]

/-- **The next sample** is recorded in the open window, which is closed if it is full then. -/
lemma record (h : Agrees d selects W ms xs o out) (hms : ∀ m ∈ ms, m.1 ≤ xs.length)
    (x : Single × List Tag) :
    Agrees d selects W ms (xs ++ [x])
      { o with current := (o.current.map (·.record x.1)).filter fun w => !w.isComplete }
      (out ++ ((o.current.map (·.record x.1)).filter Window.isComplete).toList.map
        (Window.toCapture d)) := by
  have hlength : (xs ++ [x]).length = xs.length + 1 := by simp
  have hrecorded : o.current.map (·.record x.1) =
      (Track.unclosed W xs.length ms).map (Track.window 0 W (xs ++ [x])) := by
    rw [h.current, Option.map_map]
    apply Option.map_congr
    intro m hm
    exact Track.record_window (hms m (Track.mem_of_unclosed hm).1) x
  refine ⟨h.selects_eq, h.window_eq, ?_, ?_⟩
  · have hstill : (fun w : Window => !w.isComplete) ∘ Track.window 0 W (xs ++ [x]) =
        fun m => !decide (m.1 + W ≤ xs.length + 1) :=
      funext fun m => by rw [Function.comp_apply, Track.isComplete_window, hlength]
    simp only
    rw [hrecorded, Option.filter_map, hstill, hlength, Track.unclosed_succ]
  · have hbefore : out = (Track.closed W xs.length ms).map (Track.stretch d (xs ++ [x])) := by
      rw [h.out_eq]
      apply List.map_congr_left
      intro s hs
      have hend := Track.le_of_mem_closed hms hs
      rw [Track.stretch, Track.stretch, Track.values_append,
        Capture.excerpt_append (by rwa [Track.length_values])]
    have hfull : Window.isComplete ∘ Track.window 0 W (xs ++ [x]) =
        fun m => decide (m.1 + W ≤ xs.length + 1) :=
      funext fun m => by rw [Function.comp_apply, Track.isComplete_window, hlength]
    have hnow : ((o.current.map (·.record x.1)).filter Window.isComplete).toList.map
        (Window.toCapture d) = (((Track.unclosed W xs.length ms).filter fun m =>
          m.1 + W ≤ xs.length + 1).map fun m => (m, m.1 + W)).toList.map
          (Track.stretch d (xs ++ [x])) := by
      rw [hrecorded, Option.filter_map, hfull, Option.toList_map, Option.toList_map, List.map_map,
        List.map_map]
      apply List.map_congr_left
      intro m hm
      obtain ⟨hopen, hdone⟩ := Option.filter_eq_some_iff.mp (Option.mem_toList.mp hm)
      rw [decide_eq_true_eq, ← hlength] at hdone
      have hwithin : m.1 ≤ (xs ++ [x]).length := Nat.le_trans (Nat.le_add_right m.1 W) hdone
      rw [Function.comp_apply, Track.toCapture_window d hwithin, Nat.min_eq_right hdone]
      simp [Track.stretch]
    rw [hbefore, hnow, ← List.map_append, hlength, Track.closed_succ]

/-- **The next sample and the tags on it.** -/
theorem step (h : Agrees d selects W (xs.openings selects) xs o out) (hW : 0 < W)
    (x : Single × List Tag) :
    Agrees d selects W (Track.openings selects (xs ++ [x])) (xs ++ [x]) (o.step d x.1 x.2).1
      (out ++ (o.step d x.1 x.2).2) := by
  have hopened := h.reopen hW (fun m hm => (Track.lt_of_mem_openings selects xs hm).le) x.2
  rw [← Track.openings_append] at hopened
  have hrecorded := hopened.record (fun m hm => by
    have := Track.lt_of_mem_openings selects (xs ++ [x]) hm
    rw [List.length_append, List.length_singleton] at this
    omega) x
  simpa [MultiplexObserver.step] using hrecorded

/-- **A multiplex observer agrees with every track that it has watched.** -/
lemma keeps (d : Descriptor) (selects : Tag → Bool) (hW : 0 < W) :
    Observer.Keeps d fun xs o out =>
      ∃ t, o = .multiplex t ∧ Agrees d selects W (xs.openings selects) xs t out where
  step := by
    rintro xs o out ⟨t, rfl, ht⟩ x
    exact ⟨_, rfl, ht.step hW x⟩
  trim := by
    rintro xs o out ⟨t, rfl, ht⟩
    exact ⟨t, rfl, ht⟩

end Agrees

end MultiplexObserver

namespace Custody

/-- **The captures offered to a poller that wants stretches from tag to tag.**

Let a poller be attached, at any time, to a sink that has not stopped, with a rule that selects tags
and with a greatest length `W`, which is the default one if none is asked for. Then whatever other
pollers are attached, dropped or full, whatever blocks are pushed and however its consumer takes
items: the queue of the poller is that of a producer who publishes, and of the consumer; and what is
published is one capture for each closed window, in the order of the samples, with the samples from
its opening to its end, no errors, and the first selected tag at the opening. The windows belong to
different openings, they are disjoint, none is empty and none has more than `W` samples.

**Proof sketch.** The tags on a sample close the open window and open another one; then the sample
is recorded, which closes the window if it is full. Both keep the agreement between the observer and
the closed windows of the track. -/
theorem multiplexed_exact (d : Descriptor) (rate : Single) (before after : List Move)
    (capacity window : Nat) (selects : Tag → Bool)
    (hopen : ((start d rate).run before).sink.stopped = false)
    (hkept : ∀ m ∈ after, m ≠ .drop ((start d rate).run before).sink.attached) :
    let c := (start d rate).run before
    let id := c.sink.attached
    let c' := c.perform (.attach capacity (.multiplexed selects window))
    let W := if window = 0 then defaultWindow else window
    let samples := (pushed after).flatMap Block.samples
    let openings := (Track.ofBlocks (pushed after)).openings selects
    let windows := Track.closed W samples.length openings
    c.sink.attach capacity (.multiplexed selects window) = .ok (id, c'.sink) ∧
      (∃ t, (c'.run after).sink.tap? id = some t ∧ t.released = false ∧
        t.outlet.captures? = some ((Account.start capacity).run (c'.dealings id after)).queue) ∧
      ((c'.dealings id after).filterMap QueueStep.published? =
        windows.map fun w =>
          { signals := [d]
            values := samples.extract w.1.1 w.2
            errors := List.replicate (w.2 - w.1.1) .zero
            events := [⟨0, w.1.2.moveTo 0⟩] }) ∧
      (windows.map Prod.fst).Sublist openings ∧ openings.Pairwise (fun a b => a.1 < b.1) ∧
      windows.Pairwise (fun v w => v.2 ≤ w.1.1) ∧
      ∀ w ∈ windows, w.1.1 < w.2 ∧ w.2 ≤ w.1.1 + W ∧ w.2 ≤ samples.length := by
  intro c id c' W samples openings windows
  have hc : c.Sound := (sound_start d rate).run before
  have hd : c.sink.descriptor = d := (start d rate).descriptor_run before
  have hW : 0 < W := by
    by_cases hzero : window = 0
    · simp [W, hzero, defaultWindow]
    · simpa [W, hzero] using Nat.pos_of_ne_zero hzero
  have ho : c.sink.outletFor capacity (.multiplexed selects window) =
      .ok (.captures (.multiplex { selects, window := W }) (.ofCapacity capacity)) := rfl
  have hengage : c' = c.engage capacity (.multiplex { selects, window := W }) :=
    perform_attach_eq hopen ho
  obtain ⟨htap, -, t, -, hagrees⟩ := engaged_run hc hopen capacity
    (MultiplexObserver.Agrees.keeps c.sink.descriptor selects hW)
    ⟨_, rfl, .start c.sink.descriptor selects W⟩ hkept
  rw [← hengage] at htap hagrees
  have hordered : openings.Pairwise fun a b => a.1 < b.1 := Track.ordered_openings selects _
  have hwithin : ∀ m ∈ openings, m.1 ≤ samples.length := fun m hm =>
    Track.length_ofBlocks (pushed after) ▸ (Track.lt_of_mem_openings selects _ hm).le
  refine ⟨?_, htap, ?_, Track.sublist_closed W _ openings, hordered,
    Track.disjoint_closed W _ hordered, ?_⟩
  · rw [hengage]
    exact Sink.attach_eq_withTap hopen ho
  · refine hagrees.out_eq.trans ?_
    rw [Track.length_ofBlocks, hd]
    apply List.map_congr_left
    intro w _
    rw [Track.stretch, Track.values_ofBlocks, Capture.excerpt]
  · intro w hw
    obtain ⟨hlower, hupper⟩ := Track.bounds_of_mem_closed hW hordered hw
    exact ⟨hlower, hupper, Track.le_of_mem_closed hwithin hw⟩

/-- Three blocks, the second one empty. On one sample there are two tags, the next tag comes when a
window is just full, and two tags come one after the other. -/
def sampleBursts : List Move :=
  [.push { samples := [⟨1⟩, ⟨2⟩, ⟨3⟩, ⟨4⟩]
           tags := [.ofTrigger 2 "T", .ofTrigger 0 "T", .ofTrigger 2 "T", .ofTrigger 1 "U"] },
    .take 0 1, .push {},
    .push { samples := [⟨5⟩, ⟨6⟩, ⟨7⟩], tags := [.ofTrigger 1 "T", .ofTrigger 2 "T"] }]

/-- Two windows are full, the third is closed by the tag that comes next, and the last one is not
closed. -/
theorem multiplexed_exact_sample :
    let c' := (start default ⟨0⟩).perform (.attach 1 (.multiplexed (Tag.selectedBy "T") 2))
    let first : Capture := ⟨[default], [⟨1⟩, ⟨2⟩], [.zero, .zero], [⟨0, Tag.ofTrigger 0 "T"⟩]⟩
    let second : Capture := ⟨[default], [⟨3⟩, ⟨4⟩], [.zero, .zero], [⟨0, Tag.ofTrigger 0 "T"⟩]⟩
    let third : Capture := ⟨[default], [⟨6⟩], [.zero], [⟨0, Tag.ofTrigger 0 "T"⟩]⟩
    (c'.dealings 0 sampleBursts).filterMap QueueStep.published? = [first, second, third] ∧
      ∃ t, (c'.run sampleBursts).sink.tap? 0 = some t ∧ t.released = false ∧
        t.outlet.captures? =
          some ((Account.start 1).run (c'.dealings 0 sampleBursts)).queue := by
  intro c' first second third
  have hkept : ∀ m ∈ sampleBursts, m ≠ .drop 0 := by simp [sampleBursts]
  obtain ⟨-, htap, hpublished, -⟩ := multiplexed_exact default ⟨0⟩ [] sampleBursts 1 2
    (Tag.selectedBy "T") rfl hkept
  exact ⟨hpublished.trans (by decide +kernel), htap⟩

end Custody

end Daq
