import Daq.Proofs.Sink.Watching

set_option autoImplicit false

/-!
# The shape of captures

Whoever is offered a capture looks its values up by the position of its event. The three kinds of
observers compose that position on their own, from the samples they remember, from the values of an
open window or from a tag that waits. Here the position is bounded for all of them at once: a
request admits a number of values before the event and a number of values from it on, and what is
cut out for the request has as many.

The event is inside the capture exactly if there is a value at its position. Captures around a tag
may end with the value before the tag, and then there is none.

## Main definitions

* `Daq.Request.Admits` — how many values a request wants before and after an event.
* `Daq.Capture.Answers` — the shape of the captures for a request.
* `Daq.Observer.Suits`, `Daq.Outlet.Suits` — what an observer or an outlet keeps for its request.
* `Daq.Outlet.Change` — what one move may do to an outlet.

## Main results

* `Daq.Observer.Suits.keeps` — observers only cut out captures of that shape.
* `Daq.Custody.change_perform` — the outlet of a tap goes through single changes.
* `Daq.Custody.captures_exact` — the shape of all captures that a poller is offered in a run.
-/

namespace Daq

/-! ### Requests and captures -/

/-- The greatest length of the windows of a multiplexed tap. -/
def windowBound (window : Nat) : Nat := if window = 0 then defaultWindow else window

/-- There is always room for a value. -/
lemma windowBound_pos (window : Nat) : 0 < windowBound window := by
  unfold windowBound defaultWindow
  split <;> omega

/-- The numbers of values before its event and from its event on that a capture for a request may
have. Samples before a tag may be missing, samples after it may not; a stretch from tag to tag
starts with its tag, and the next tag may cut it short. -/
def Request.Admits : Request → Nat → Nat → Prop
  | .streaming, _, _ => False
  | .triggered _ pre post, before, rest => before ≤ pre ∧ rest = post
  | .multiplexed _ window, before, rest => before = 0 ∧ 0 < rest ∧ rest ≤ windowBound window
  | .snapshot _ _, before, rest => before = 0 ∧ rest = 1

/-- The shape of a capture that is cut out of a sink with this descriptor for a request: one signal,
an error for each value, and one event, placed as the request wants it. -/
structure Capture.Answers (d : Descriptor) (r : Request) (x : Capture) : Prop where
  /-- The signal is that of the sink. -/
  signals : x.signals = [d]
  /-- Each value has its error. -/
  errors : x.errors.length = x.values.length
  /-- The one event agrees with its tag on the position, and the request admits the position. -/
  event : ∃ e rest, x.events = [e] ∧ e.tag.index = e.index ∧ x.values.length = e.index + rest ∧
    r.Admits e.index rest

/-- A capture of one signal with one event answers a request that admits its position. -/
lemma Capture.answers_ofValues {d : Descriptor} {r : Request} {values : List Single}
    {e : TimingEvent} (rest : Nat) (hindex : e.tag.index = e.index)
    (hlength : values.length = e.index + rest) (hadmits : r.Admits e.index rest) :
    (Capture.ofValues d values e).Answers d r where
  signals := rfl
  errors := List.length_replicate
  event := ⟨e, rest, rfl, hindex, hlength, hadmits⟩

/-- Only a request for nothing from the tag on admits captures that end before their event. -/
lemma Request.Admits.pos_iff {r : Request} {before rest : Nat} (h : r.Admits before rest) :
    0 < rest ↔ ¬ ∃ selects pre, r = .triggered selects pre 0 := by
  cases r with
  | streaming => exact h.elim
  | triggered selects pre post =>
    obtain ⟨-, rfl⟩ := h
    simp [Nat.pos_iff_ne_zero]
  | multiplexed selects window => simp [h.2.1]
  | snapshot selects delay => simp [h.2]

/-! ### Windows -/

/-- A window that was opened with at most so many values before its event, and that so many values
from the event on complete. -/
structure Window.Opened (w : Window) (before rest : Nat) : Prop where
  /-- The event agrees with its tag on the position. -/
  index : w.event.tag.index = w.event.index
  /-- Not more values than asked for stand before the event. -/
  before_le : w.event.index ≤ before
  /-- What is recorded and what is to come make the whole window. -/
  length : w.values.length + w.remaining = w.event.index + rest

namespace Window

variable {w : Window} {before rest : Nat}

/-- One more value keeps the event where it is. -/
lemma event_record (w : Window) (v : Single) : (w.record v).event = w.event := by
  unfold record
  split <;> rfl

/-- A value that is recorded is no longer to come. -/
lemma length_record (w : Window) (v : Single) :
    (w.record v).values.length + (w.record v).remaining = w.values.length + w.remaining := by
  unfold record
  split
  · rfl
  · rename_i n hn
    dsimp only
    rw [List.length_cons, hn]
    omega

/-- A window that had a value, or that had room for one, has one afterwards. -/
lemma record_ne_nil {v : Single} (h : w.values ≠ [] ∨ 0 < w.remaining) :
    (w.record v).values ≠ [] := by
  unfold record
  split
  · rename_i hzero
    exact h.resolve_right (by omega)
  · simp

/-- Recording keeps a window as it was opened. -/
lemma Opened.record (h : w.Opened before rest) (v : Single) : (w.record v).Opened before rest where
  index := by rw [event_record, h.index]
  before_le := by rw [event_record]; exact h.before_le
  length := by rw [length_record, event_record, h.length]

/-- The capture of a complete window has all its values. -/
lemma Opened.length_of_isComplete (h : w.Opened before rest) (hw : w.isComplete = true) :
    w.values.length = w.event.index + rest := by
  have hzero : w.remaining = 0 := eq_of_beq hw
  have hlength := h.length
  omega

end Window

/-! ### Observers -/

/-- What an observer that serves a request keeps of its open windows and waiting tags. -/
inductive Observer.Suits : Request → Observer → Prop
  /-- The windows around tags were opened as requested. -/
  | trigger {selects : Tag → Bool} {pre post : Nat} {o : TriggerObserver} (hpre : o.pre = pre)
      (hpost : o.post = post) (h : ∀ w ∈ o.windows, w.Opened pre post) :
      Suits (.triggered selects pre post) (.trigger o)
  /-- The window from the last tag on has started. -/
  | multiplex {selects : Tag → Bool} {window : Nat} {o : MultiplexObserver}
      (hwindow : o.window = windowBound window)
      (h : ∀ w ∈ o.current, w.Opened 0 (windowBound window) ∧ w.values ≠ []) :
      Suits (.multiplexed selects window) (.multiplex o)
  /-- A tag that waits will mark the first value. -/
  | snapshot {selects : Tag → Bool} {delay : Duration} {o : SnapshotObserver}
      (h : ∀ p ∈ o.pending, p.2.index = 0) : Suits (.snapshot selects delay) (.snapshot o)

namespace TriggerObserver

/-- The window of a tag is opened as requested. -/
lemma opened_windowAt (o : TriggerObserver) (tag : Tag) :
    (o.windowAt tag).Opened o.pre o.post where
  index := rfl
  before_le := List.length_take_le _ _
  length := rfl

/-- **A sample leaves open windows and captures around tags as requested.** -/
lemma suits_step {selects : Tag → Bool} {o : TriggerObserver}
    (h : ∀ w ∈ o.windows, w.Opened o.pre o.post) (d : Descriptor) (value : Single)
    (tags : List Tag) :
    Observer.Suits (.triggered selects o.pre o.post) (.trigger (o.step d value tags).1) ∧
      ∀ x ∈ (o.step d value tags).2, x.Answers d (.triggered selects o.pre o.post) := by
  have hall : ∀ w ∈ (o.windows ++ (tags.filter o.selects).map o.windowAt).map (·.record value),
      w.Opened o.pre o.post := by
    intro w' hw'
    obtain ⟨w, hw, rfl⟩ := List.mem_map.mp hw'
    rcases List.mem_append.mp hw with hw | hw
    · exact (h w hw).record value
    · obtain ⟨tag, -, rfl⟩ := List.mem_map.mp hw
      exact (o.opened_windowAt tag).record value
  constructor
  · exact .trigger rfl rfl fun w hw => hall w (List.mem_of_mem_filter hw)
  · intro x hx
    obtain ⟨w, hw, rfl⟩ := List.mem_map.mp hx
    obtain ⟨hw, hcomplete⟩ := List.mem_filter.mp hw
    have hopened := hall w hw
    refine Capture.answers_ofValues o.post hopened.index ?_ ⟨hopened.before_le, rfl⟩
    rw [List.length_reverse, hopened.length_of_isComplete hcomplete]

end TriggerObserver

namespace MultiplexObserver

/-- A window from a tag on, complete or cut short, answers the request. -/
lemma answers_toCapture {selects : Tag → Bool} {window : Nat} {w : Window}
    (h : w.Opened 0 (windowBound window)) (hne : w.values ≠ []) (d : Descriptor) :
    (w.toCapture d).Answers d (.multiplexed selects window) := by
  have hzero : w.event.index = 0 := Nat.le_zero.mp h.before_le
  have hlength := h.length
  have hpos := List.length_pos_iff.mpr hne
  refine Capture.answers_ofValues w.values.length h.index ?_ ⟨hzero, hpos, ?_⟩
  · rw [List.length_reverse, hzero, Nat.zero_add]
  · omega

/-- What stands open after the tags of a sample were seen has a value or room for one, and what they
close was open before. -/
lemma opened_reopen {o : MultiplexObserver} {window : Nat} (hwindow : o.window = windowBound window)
    (h : ∀ w ∈ o.current, w.Opened 0 (windowBound window) ∧ w.values ≠ []) (tags : List Tag) :
    (∀ w ∈ (o.reopen tags).1,
        w.Opened 0 (windowBound window) ∧ (w.values ≠ [] ∨ 0 < w.remaining)) ∧
      ∀ w ∈ (o.reopen tags).2, w ∈ o.current := by
  unfold reopen
  split
  · refine ⟨?_, fun w hw => Option.mem_toList.mp hw⟩
    rintro w ⟨⟩
    refine ⟨⟨rfl, le_rfl, ?_⟩, .inr ?_⟩
    · simp [hwindow]
    · simpa [hwindow] using windowBound_pos window
  · refine ⟨fun w hw => ⟨(h w hw).1, .inl (h w hw).2⟩, ?_⟩
    intro w hw
    cases hw

/-- **A sample leaves the open window and the captures from tag to tag as requested.** -/
lemma suits_step {selects : Tag → Bool} {window : Nat} {o : MultiplexObserver}
    (hwindow : o.window = windowBound window)
    (h : ∀ w ∈ o.current, w.Opened 0 (windowBound window) ∧ w.values ≠ []) (d : Descriptor)
    (value : Single) (tags : List Tag) :
    Observer.Suits (.multiplexed selects window) (.multiplex (o.step d value tags).1) ∧
      ∀ x ∈ (o.step d value tags).2, x.Answers d (.multiplexed selects window) := by
  obtain ⟨hopen, hclosed⟩ := opened_reopen hwindow h tags
  have hrecorded : ∀ w ∈ (o.reopen tags).1.map fun w => w.record value,
      w.Opened 0 (windowBound window) ∧ w.values ≠ [] := by
    intro w' hw'
    obtain ⟨w, hw, rfl⟩ := Option.mem_map.mp hw'
    exact ⟨(hopen w hw).1.record value, Window.record_ne_nil (hopen w hw).2⟩
  constructor
  · exact .multiplex hwindow fun w hw => hrecorded w (Option.mem_filter_iff.mp hw).1
  · intro x hx
    obtain ⟨w, hw, rfl⟩ := List.mem_map.mp hx
    have hw : w.Opened 0 (windowBound window) ∧ w.values ≠ [] := by
      rcases List.mem_append.mp hw with hw | hw
      · exact h w (hclosed w hw)
      · exact hrecorded w (Option.mem_filter_iff.mp (Option.mem_toList.mp hw)).1
    exact answers_toCapture hw.1 hw.2 d

end MultiplexObserver

namespace SnapshotObserver

/-- **A sample leaves waiting tags and single samples as requested.** -/
lemma suits_step {selects : Tag → Bool} {delay : Duration} {o : SnapshotObserver}
    (h : ∀ p ∈ o.pending, p.2.index = 0) (d : Descriptor) (value : Single) (tags : List Tag) :
    Observer.Suits (.snapshot selects delay) (.snapshot (o.step d value tags).1) ∧
      ∀ x ∈ (o.step d value tags).2, x.Answers d (.snapshot selects delay) := by
  have hall : ∀ p ∈ o.pending ++ (tags.filter o.selects).map fun t => (o.delay, t.moveTo 0),
      p.2.index = 0 := by
    intro p hp
    rcases List.mem_append.mp hp with hp | hp
    · exact h p hp
    · obtain ⟨tag, -, rfl⟩ := List.mem_map.mp hp
      rfl
  constructor
  · refine .snapshot fun p' hp' => ?_
    obtain ⟨p, hp, rfl⟩ := List.mem_map.mp hp'
    exact hall p (List.mem_of_mem_filter hp)
  · intro x hx
    obtain ⟨p, hp, rfl⟩ := List.mem_map.mp hx
    exact Capture.answers_ofValues 1 (hall p (List.mem_of_mem_filter hp)) rfl ⟨rfl, rfl⟩

end SnapshotObserver

namespace Observer.Suits

variable {r : Request} {o : Observer}

/-- A sample leaves an observer as its request wants it, and so is what it cuts out. -/
lemma step (h : o.Suits r) (d : Descriptor) (value : Single) (tags : List Tag) :
    (o.step d value tags).1.Suits r ∧ ∀ x ∈ (o.step d value tags).2, x.Answers d r := by
  cases h with
  | trigger hpre hpost h =>
    subst hpre hpost
    exact TriggerObserver.suits_step h d value tags
  | multiplex hwindow h => exact MultiplexObserver.suits_step hwindow h d value tags
  | snapshot h => exact SnapshotObserver.suits_step h d value tags

/-- The end of a block opens and closes nothing. -/
lemma trim (h : o.Suits r) : o.trim.Suits r := by
  cases h with
  | trigger hpre hpost h => exact .trigger hpre hpost h
  | multiplex hwindow h => exact .multiplex hwindow h
  | snapshot h => exact .snapshot h

/-- **What is cut out for a request answers it, from sample to sample.** -/
theorem keeps (d : Descriptor) (r : Request) :
    Observer.Keeps d fun _ o out => o.Suits r ∧ ∀ x ∈ out, x.Answers d r where
  step := by
    rintro - o out ⟨ho, hout⟩ y
    have hstep := ho.step d y.1 y.2
    refine ⟨hstep.1, fun x hx => ?_⟩
    exact (List.mem_append.mp hx).elim (hout x) (hstep.2 x)
  trim := by
    rintro - o out ⟨ho, hout⟩
    exact ⟨ho.trim, hout⟩

/-- So it is over several samples. -/
lemma cut (h : o.Suits r) (d : Descriptor) (xs : Track) :
    (o.cut d xs).1.Suits r ∧ ∀ x ∈ (o.cut d xs).2, x.Answers d r :=
  @Observer.Keeps.cut d _ (keeps d r) [] o [] ⟨h, by simp⟩ xs

end Observer.Suits

/-! ### Outlets -/

/-- What one move may do to an outlet of a sink with this descriptor. -/
inductive Outlet.Change (d : Descriptor) : Outlet → Outlet → Prop
  /-- Items are taken from the front, if any. -/
  | skip (o : Outlet) (n : Nat) : Change d o (o.skip n)
  /-- The queue is finished. -/
  | finish (o : Outlet) : Change d o o.finish
  /-- A block is taken in. -/
  | feed (o : Outlet) (b : Block) : Change d o (o.feed d b b.aligned)

/-- Nothing is done. -/
lemma Outlet.Change.refl (d : Descriptor) (o : Outlet) : Change d o o := by
  have h : Change d o (o.skip 0) := .skip o 0
  rwa [skip_zero] at h

/-- An outlet that serves a request: the observer does, and so do the captures that wait. -/
def Outlet.Suits (d : Descriptor) (r : Request) : Outlet → Prop
  | .stream _ => r = .streaming
  | .captures o q => o.Suits r ∧ ∀ x ∈ q.items, x.Answers d r

/-- Publishing brings in nothing else. -/
lemma Queue.mem_publishAll {α : Type} {q : Queue α} {as : List α} {x : α}
    (hx : x ∈ (q.publishAll as).items) : x ∈ q.items ∨ x ∈ as := by
  induction as generalizing q with
  | nil => exact .inl hx
  | cons a as ih =>
    rcases ih hx with hx | hx
    · unfold publish at hx
      split at hx
      · rcases List.mem_append.mp hx with hx | hx
        · exact .inl hx
        · exact .inr (List.mem_singleton.mp hx ▸ List.mem_cons_self)
      · exact .inl hx
    · exact .inr (List.mem_cons_of_mem a hx)

namespace Outlet.Suits

variable {d : Descriptor} {r : Request} {o o' : Outlet}

/-- An outlet suits the request that asked for it. -/
lemma of_outletFor {s : Sink} {capacity : Nat} (h : s.outletFor capacity r = .ok o) :
    o.Suits d r := by
  cases r with
  | streaming =>
    cases h
    rfl
  | triggered selects pre post =>
    by_cases hzero : pre + post = 0
    · cases h.symm.trans (if_pos hzero)
    · cases h.symm.trans (if_neg hzero)
      exact ⟨.trigger rfl rfl (by simp), by simp [Queue.ofCapacity]⟩
  | multiplexed selects window =>
    cases h
    exact ⟨.multiplex rfl (by simp), by simp [Queue.ofCapacity]⟩
  | snapshot selects delay =>
    cases h
    exact ⟨.snapshot (by simp), by simp [Queue.ofCapacity]⟩

/-- What a block makes an outlet offer answers its request. -/
lemma offers (h : o.Suits d r) (b : Block) : ∀ x ∈ o.offers d b, x.Answers d r := by
  cases o with
  | stream q => simp [Outlet.offers]
  | captures w q => exact (h.1.cut d b.aligned).2

/-- **Whatever is done to an outlet, it suits its request.** -/
theorem change (h : o.Suits d r) (hchange : o.Change d o') : o'.Suits d r := by
  cases o with
  | stream q => cases hchange <;> exact h
  | captures w q =>
    cases hchange with
    | skip n => exact ⟨h.1, fun x hx => h.2 x (List.mem_of_mem_drop hx)⟩
    | finish => exact h
    | feed b =>
      have hcut := h.1.cut d b.aligned
      simp only [Outlet.Suits, Outlet.feed, Observer.foldl_watch]
      exact ⟨hcut.1.trim, fun x hx => (Queue.mem_publishAll hx).elim (h.2 x) (hcut.2 x)⟩

end Outlet.Suits

/-! ### Runs -/

namespace Custody

variable {c : Custody} {id : Nat} {d : Descriptor} {r : Request}

/-- What changes the outlets of all taps changes each of them. -/
lemma change_mapOutlets {s s' : Sink} {f : Outlet → Outlet} (hf : ∀ o : Outlet, o.Change d (f o))
    (htaps : s'.taps = s.taps.map fun t => { t with outlet := f t.outlet }) {t' : Tap}
    (ht' : s'.tap? id = some t') : ∃ t, s.tap? id = some t ∧ t.outlet.Change d t'.outlet := by
  have hmap := Sink.find?_mapOutlets (fun t => { t with outlet := f t.outlet }) (fun _ => rfl) id
    s.taps
  rw [← htaps] at hmap
  obtain ⟨t, ht, rfl⟩ := Option.map_eq_some_iff.mp (hmap.symm.trans ht')
  exact ⟨t, ht, hf t.outlet⟩

/-- The removal of released taps leaves the others as they are. -/
lemma tap?_of_prune (hw : c.sink.WellFormed) {t : Tap} (ht : c.sink.prune.tap? id = some t) :
    c.sink.tap? id = some t := by
  obtain ⟨hmem, rfl⟩ := Sink.mem_of_tap? ht
  exact Sink.tap?_of_mem hw (List.mem_of_mem_filter hmem)

/-- A block changes outlets one by one. -/
lemma change_push (hw : c.sink.WellFormed) (b : Block) {t' : Tap}
    (ht' : (c.sink.push b).tap? id = some t') :
    ∃ t, c.sink.tap? id = some t ∧ t.outlet.Change c.sink.descriptor t'.outlet := by
  cases hs : c.sink.stopped with
  | true =>
    rw [Sink.push_of_stopped hs] at ht'
    exact ⟨t', ht', .refl _ _⟩
  | false =>
    have htaps : (c.sink.push b).taps = c.sink.prune.taps.map fun t =>
        { t with outlet := t.outlet.feed c.sink.descriptor b b.aligned } := by
      rw [Sink.push, hs]
      rfl
    obtain ⟨t, ht, hchange⟩ := change_mapOutlets (fun o => .feed o b) htaps ht'
    exact ⟨t, tap?_of_prune hw ht, hchange⟩

/-- A stop changes outlets one by one. -/
lemma change_stop {t' : Tap} (ht' : c.sink.stop.tap? id = some t') :
    ∃ t, c.sink.tap? id = some t ∧ t.outlet.Change c.sink.descriptor t'.outlet := by
  cases hs : c.sink.stopped with
  | true =>
    rw [Sink.stop_of_stopped hs] at ht'
    exact ⟨t', ht', .refl _ _⟩
  | false =>
    have htaps : c.sink.stop.taps =
        c.sink.taps.map fun t => { t with outlet := t.outlet.finish } := by
      rw [Sink.stop, hs]
      rfl
    exact change_mapOutlets .finish htaps ht'

/-- A change of one tap changes its outlet, or nothing. -/
lemma change_modifyTap {s : Sink} (i : Nat) (f : Tap → Tap) (hid : ∀ t, (f t).id = t.id)
    (hf : ∀ t : Tap, t.outlet.Change s.descriptor (f t).outlet) {t' : Tap}
    (ht' : (s.modifyTap i f).tap? id = some t') :
    ∃ t, s.tap? id = some t ∧ t.outlet.Change s.descriptor t'.outlet := by
  rw [Sink.tap?_modifyTap s i id f hid] at ht'
  split at ht'
  · obtain ⟨t, ht, rfl⟩ := Option.map_eq_some_iff.mp ht'
    exact ⟨t, ht, hf t⟩
  · exact ⟨t', ht', .refl _ _⟩

/-- **What a move may do to a tap**: its outlet goes through one change, and its number is not given
away again. -/
theorem change_perform (hc : c.Sound) (hid : id < c.sink.attached) (m : Move) :
    id < (c.perform m).sink.attached ∧ ∀ t', (c.perform m).sink.tap? id = some t' →
      ∃ t, c.sink.tap? id = some t ∧ t.outlet.Change c.sink.descriptor t'.outlet := by
  have hw := hc.wellFormed
  have hpush : ∀ b, id < (c.sink.push b).attached := fun b =>
    hid.trans_le (Sink.evolves_push c.sink b).attached_le
  have hstop : id < c.sink.stop.attached := hid.trans_le (Sink.evolves_stop c.sink).attached_le
  cases m with
  | attach capacity r =>
    rcases c.perform_attach capacity r with ⟨new, s, ha, hm⟩ | ⟨e, -, hm⟩
    · have hne : id ≠ new := (Sink.attach_eq_ok ha).1 ▸ hid.ne
      rw [hm]
      refine ⟨hid.trans_le (Sink.evolves_attach ha).attached_le, fun t' ht' => ?_⟩
      rw [(Sink.tap?_attach hw ha id).1 hne] at ht'
      exact ⟨t', ht', .refl _ _⟩
    · rw [hm]
      exact ⟨hid, fun t' ht' => ⟨t', ht', .refl _ _⟩⟩
  | push b => exact ⟨hpush b, fun t' => change_push hw b⟩
  | stop => exact ⟨hstop, fun t' => change_stop⟩
  | through u =>
    cases u with
    | push b => exact ⟨hpush b, fun t' => change_push hw b⟩
    | stop => exact ⟨hstop, fun t' => change_stop⟩
    | drop => exact ⟨hstop, fun t' => change_stop⟩
  | count => exact ⟨hid, fun t' ht' => ⟨t', tap?_of_prune hw ht', .refl _ _⟩⟩
  | take i limit =>
    exact ⟨hid, fun t' => change_modifyTap i (fun t => { t with outlet := t.outlet.skip limit })
      (fun _ => rfl) fun t => .skip t.outlet limit⟩
  | drop i =>
    exact ⟨hid, fun t' => change_modifyTap i (fun t => { t with released := true })
      (fun _ => rfl) fun t => .refl _ t.outlet⟩

/-- The tap with this number, as long as there is one, serves this request. -/
structure Serves (c : Custody) (id : Nat) (d : Descriptor) (r : Request) : Prop where
  /-- The descriptor of the sink. -/
  descriptor : c.sink.descriptor = d
  /-- The number was given away. -/
  id_lt : id < c.sink.attached
  /-- The outlet of the tap suits the request. -/
  suits : ∀ t, c.sink.tap? id = some t → t.outlet.Suits d r

namespace Serves

/-- A poller that was just attached. -/
lemma of_attach (hc : c.Sound) {capacity : Nat} (hr : ∀ selects, r ≠ .triggered selects 0 0) :
    (c.perform (.attach capacity r)).Serves c.sink.attached c.sink.descriptor r := by
  rcases c.perform_attach capacity r with ⟨new, s, ha, hm⟩ | ⟨e, he, -⟩
  · have hd := c.descriptor_perform (.attach capacity r)
    obtain ⟨hnew, hattached, -, o, o', ho, ho', -, htaps⟩ := Sink.attach_eq_ok ha
    have hsuits : o'.Suits c.sink.descriptor r := by
      have hasked : o.Suits c.sink.descriptor r := .of_outletFor ho
      rw [ho']
      split
      · exact hasked.change (.finish o)
      · exact hasked
    rw [hm] at hd ⊢
    refine ⟨hd, ?_, fun t ht => ?_⟩
    · dsimp only
      omega
    · have hwellFormed := (Sink.evolves_attach ha).wellFormed hc.wellFormed
      have hmem : ({ id := c.sink.attached, outlet := o' } : Tap) ∈ s.taps := by simp [htaps]
      obtain rfl := Option.some.inj ((Sink.tap?_of_mem hwellFormed hmem).symm.trans ht)
      exact hsuits
  · obtain ⟨⟨selects, h⟩, -⟩ := Sink.attach_eq_error.mp he
    exact absurd h (hr selects)

/-- Whatever happens, the tap serves its request. -/
lemma perform (h : c.Serves id d r) (hc : c.Sound) (m : Move) : (c.perform m).Serves id d r := by
  obtain ⟨hid, hchange⟩ := change_perform hc h.id_lt m
  refine ⟨(c.descriptor_perform m).trans h.descriptor, hid, fun t' ht' => ?_⟩
  obtain ⟨t, ht, hstep⟩ := hchange t' ht'
  rw [h.descriptor] at hstep
  exact (h.suits t ht).change hstep

/-- What is offered in the course of a move answers the request. -/
lemma published_dealing (h : c.Serves id d r) (m : Move) :
    ∀ x ∈ (c.dealing id m).filterMap QueueStep.published?, x.Answers d r := by
  intro x hx
  obtain ⟨step, hstep, hpublished⟩ := List.mem_filterMap.mp hx
  -- Of what happens to a queue only a block offers something.
  have hoffers : ∀ b, x ∈ c.offers id b → x.Answers d r := by
    intro b hx
    unfold Custody.offers at hx
    cases ht : c.sink.tap? id with
    | none => simp [ht] at hx
    | some t =>
      rw [ht, Option.elim_some, h.descriptor] at hx
      exact (h.suits t ht).offers b x hx
  cases step with
  | process callback limit => cases hpublished
  | finish => cases hpublished
  | publish y =>
    obtain rfl := Option.some.inj hpublished
    unfold dealing at hstep
    split at hstep
    · split at hstep <;> simp at hstep
    · split at hstep
      · simp at hstep
      · split at hstep
        · simp at hstep
        · obtain ⟨z, hz, hzy⟩ := List.mem_map.mp hstep
          obtain rfl := QueueStep.publish.inj hzy
          obtain ⟨b, -, hb⟩ := List.mem_flatMap.mp hz
          exact hoffers b hb

/-- **What is offered in every run answers the request.** -/
theorem run (h : c.Serves id d r) (hc : c.Sound) (moves : List Move) :
    (c.run moves).Serves id d r ∧
      ∀ x ∈ (c.dealings id moves).filterMap QueueStep.published?, x.Answers d r := by
  induction moves generalizing c with
  | nil => exact ⟨h, by simp [dealings]⟩
  | cons m moves ih =>
    obtain ⟨hserves, hrest⟩ := ih (h.perform hc m) (hc.perform m)
    refine ⟨hserves, fun x hx => ?_⟩
    rw [dealings, List.filterMap_append] at hx
    exact (List.mem_append.mp hx).elim (h.published_dealing m x) (hrest x)

end Serves

/-- **The shape of the captures that a poller is offered.**

Let a poller be attached, at any time, with any request but that for captures around tags without
samples. Then the request is granted, and whatever happens afterwards, to this poller and to others:
a capture that is offered to its queue, or waits in it, has the descriptor of the sink as its one
signal, as many errors as values, and one event, which agrees with its tag on the position. There
are as many values before the event and from it on as the request admits. So there is a value at
the position of the event exactly if the request does not ask for captures that end before their
tag; such a capture ends with the value before the tag, and it has no values if the tag is on the
first sample that its observer sees. -/
theorem captures_exact (d : Descriptor) (rate : Single) (before after : List Move)
    (capacity : Nat) (r : Request) (hr : ∀ selects, r ≠ .triggered selects 0 0) :
    let c := (start d rate).run before
    let id := c.sink.attached
    let c' := c.perform (.attach capacity r)
    c.sink.attach capacity r = .ok (id, c'.sink) ∧
      ∀ x : Capture,
        (x ∈ (c'.dealings id after).filterMap QueueStep.published? ∨
          ∃ t q, (c'.run after).sink.tap? id = some t ∧ t.outlet.captures? = some q ∧
            x ∈ q.items) →
        x.signals = [d] ∧ x.errors.length = x.values.length ∧
          ∃ e rest, x.events = [e] ∧ e.tag.index = e.index ∧
            x.values.length = e.index + rest ∧ r.Admits e.index rest ∧
            (e.index < x.values.length ↔ ¬ ∃ selects pre, r = .triggered selects pre 0) ∧
            (x.values = [] ↔ e.index = 0 ∧ ∃ selects pre, r = .triggered selects pre 0) := by
  intro c id c'
  have hc : c.Sound := (sound_start d rate).run before
  have hd : c.sink.descriptor = d := (start d rate).descriptor_run before
  have hserves : c'.Serves id d r := hd ▸ Serves.of_attach hc hr
  obtain ⟨hend, hoffered⟩ := hserves.run (hc.perform (.attach capacity r)) after
  constructor
  · rcases c.perform_attach capacity r with ⟨new, s, ha, hm⟩ | ⟨e, he, -⟩
    · rw [ha, (Sink.attach_eq_ok ha).1, show c' = _ from hm]
    · obtain ⟨⟨selects, h⟩, -⟩ := Sink.attach_eq_error.mp he
      exact absurd h (hr selects)
  · intro x hx
    have hanswers : x.Answers d r := by
      rcases hx with hx | ⟨t, q, ht, hq, hx⟩
      · exact hoffered x hx
      · have hsuits := hend.suits t ht
        cases ho : t.outlet with
        | stream q' => simp [ho, Outlet.captures?] at hq
        | captures w q' =>
          rw [ho] at hq hsuits
          obtain rfl := Option.some.inj hq
          exact hsuits.2 x hx
    obtain ⟨e, rest, he, hindex, hlength, hadmits⟩ := hanswers.event
    have hpos := hadmits.pos_iff
    refine ⟨hanswers.signals, hanswers.errors, e, rest, he, hindex, hlength, hadmits, ?_, ?_⟩
    · rw [← hpos, hlength]
      omega
    · rw [← List.length_eq_zero_iff, hlength, ← not_iff_not.mpr hpos |>.trans not_not]
      omega

/-- A poller that wants up to two samples before a tag and one from it on is offered the captures of
two tags: one lacks the samples before it, the other one has its event inside. -/
theorem captures_exact_sample :
    let c := (start default ⟨0⟩).perform (.attach 4 (.triggered (Tag.selectedBy "T") 2 1))
    let moves : List Move := [.push { samples := [⟨1⟩], tags := [.ofTrigger 0 "T"] },
      .push { samples := [⟨2⟩, ⟨3⟩], tags := [.ofTrigger 0 "T"] }]
    let offered := (c.dealings 0 moves).filterMap QueueStep.published?
    offered = [⟨[default], [⟨1⟩], [.zero], [⟨0, .ofTrigger 0 "T"⟩]⟩,
        ⟨[default], [⟨1⟩, ⟨2⟩], [.zero, .zero], [⟨1, .ofTrigger 1 "T"⟩]⟩] ∧
      ∀ x ∈ offered, ∃ e, x.events = [e] ∧ e.index < x.values.length := by
  intro c moves offered
  refine ⟨by decide +kernel, fun x hx => ?_⟩
  obtain ⟨-, -, e, rest, he, -, hlength, ⟨-, hrest⟩, -⟩ :=
    (captures_exact default ⟨0⟩ [] moves 4 (.triggered (Tag.selectedBy "T") 2 1)
      (by simp)).2 x (.inl hx)
  exact ⟨e, he, by omega⟩

/-- A poller that wants one sample before a tag and none from it on: the tag on the first sample is
offered a capture without values, whose event has no value to point at. -/
theorem capture_without_values :
    let c := (start default ⟨0⟩).perform (.attach 4 (.triggered (Tag.selectedBy "T") 1 0))
    let moves : List Move := [.push { samples := [⟨1⟩, ⟨2⟩], tags := [.ofTrigger 0 "T"] }]
    let offered := (c.dealings 0 moves).filterMap QueueStep.published?
    offered = [⟨[default], [], [], [⟨0, .ofTrigger 0 "T"⟩]⟩] ∧
      ¬ ∀ x ∈ offered, x.values ≠ [] ∧ ∀ e ∈ x.events, e.index < x.values.length := by
  decide +kernel

end Custody

end Daq
