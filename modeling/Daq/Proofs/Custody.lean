import Daq.Proofs.Hub.Usage
import Daq.Proofs.Worker.Uninterrupted

set_option autoImplicit false

/-!
# Who holds the pollers of a sink

A sink hands out pollers, its consumers take items from them and let go of them one day, and in
between blocks arrive and the sink is stopped. Here the numbers of the pollers that are in the hands
of consumers are written down beside the sink. Whatever happens in whatever order, the taps in use
are those of exactly these pollers, and their queues are finished exactly if the sink has stopped.
From then on a queue only becomes shorter, and what an observer had cut out so far stays where it
is.

## Main definitions

* `Daq.Custody` — a sink with the pollers in the hands of consumers.
* `Daq.Custody.Move`, `Daq.Custody.run` — what everyone does to a sink, in any order.
* `Daq.Custody.Sound` — taps and pollers agree.
* `Daq.Sink.Silent` — what may become of a sink that has stopped.

## Main results

* `Daq.Custody.Sound.perform` — every move keeps taps and pollers in agreement.
* `Daq.Custody.silent_run` — after the stop of a sink queues only become shorter.
* `Daq.Custody.custody_invariant` — the agreement in every reachable state.
-/

namespace Daq

namespace Outlet

/-- Finishing a queue raises its flag. -/
@[simp]
lemma finished_finish (o : Outlet) : o.finish.finished = true := by cases o <;> rfl

/-- Skipping items keeps the flag. -/
@[simp]
lemma finished_skip (o : Outlet) (n : Nat) : (o.skip n).finished = o.finished := by cases o <;> rfl

end Outlet

namespace Sink

/-! ### After a stop -/

/-- A stopped sink takes nothing in. -/
lemma push_of_stopped {s : Sink} (hs : s.stopped = true) (b : Block) : s.push b = s := if_pos hs

/-- A stopped sink is not stopped again. -/
lemma stop_of_stopped {s : Sink} (hs : s.stopped = true) : s.stop = s := if_pos hs

/-- A block stops no sink. -/
@[simp]
lemma stopped_push (s : Sink) (b : Block) : (s.push b).stopped = s.stopped := by
  unfold push
  split <;> rfl

/-- A stop does. -/
@[simp]
lemma stopped_stop (s : Sink) : s.stop.stopped = true := by
  unfold stop
  split
  · assumption
  · rfl

/-- What may become of a sink that has stopped: it stays stopped, items are taken from its taps, and
taps are released, removed or added; those that are added stay empty. -/
structure Silent (s s' : Sink) : Prop where
  /-- The sink has stopped. -/
  stopped : s'.stopped = true
  /-- Numbers of taps are given away once. -/
  attached_le : s.attached ≤ s'.attached
  /-- An old tap has lost some of its oldest items, and nothing else has changed; a new tap is
  empty. -/
  taps : ∀ id t', s'.tap? id = some t' →
    (∃ t n, s.tap? id = some t ∧ t'.outlet = t.outlet.skip n ∧
        (t'.released = false → t.released = false)) ∨
      (s.attached ≤ id ∧ t'.outlet.items = [])

/-- Nothing becomes of it. -/
lemma Silent.refl {s : Sink} (hs : s.stopped = true) : s.Silent s where
  stopped := hs
  attached_le := le_rfl
  taps _ t' ht' := .inl ⟨t', 0, ht', t'.outlet.skip_zero.symm, fun h => h⟩

/-- One thing after the other. -/
lemma Silent.trans {s s' s'' : Sink} (h : s.Silent s') (h' : s'.Silent s'') : s.Silent s'' where
  stopped := h'.stopped
  attached_le := h.attached_le.trans h'.attached_le
  taps j t'' ht'' := by
    rcases h'.taps j t'' ht'' with ⟨t', n, ht', ho', hr'⟩ | ⟨hnew, hempty⟩
    · rcases h.taps j t' ht' with ⟨t, m, ht, ho, hr⟩ | ⟨hnew, hempty⟩
      · refine .inl ⟨t, m + n, ht, ?_, fun hlive => hr (hr' hlive)⟩
        rw [ho', ho, Outlet.skip_skip]
      · refine .inr ⟨hnew, ?_⟩
        rw [ho', Outlet.items_skip, hempty, List.drop_nil]
    · exact .inr ⟨h.attached_le.trans hnew, hempty⟩

/-- A change of one tap that takes items from it or releases it. -/
lemma silent_modifyTap {s : Sink} (hs : s.stopped = true) (id : Nat) (f : Tap → Tap) (n : Nat)
    (hid : ∀ t, (f t).id = t.id) (hout : ∀ t, (f t).outlet = t.outlet.skip n)
    (hreleased : ∀ t, (f t).released = false → t.released = false) :
    s.Silent (s.modifyTap id f) where
  stopped := hs
  attached_le := le_rfl
  taps j t' ht' := by
    rw [tap?_modifyTap s id j f hid] at ht'
    split at ht'
    · obtain ⟨t, ht, rfl⟩ := Option.map_eq_some_iff.mp ht'
      exact .inl ⟨t, n, ht, hout t, hreleased t⟩
    · exact .inl ⟨t', 0, ht', t'.outlet.skip_zero.symm, fun h => h⟩

/-- Removing the released taps. -/
lemma silent_prune {s : Sink} (hw : s.WellFormed) (hs : s.stopped = true) : s.Silent s.prune where
  stopped := hs
  attached_le := le_rfl
  taps j t' ht' := by
    obtain ⟨hmem, rfl⟩ := mem_of_tap? ht'
    have ht := tap?_of_mem hw (List.mem_of_mem_filter hmem)
    exact .inl ⟨t', 0, ht, t'.outlet.skip_zero.symm, fun h => h⟩

/-- Adding a tap. -/
lemma silent_attach {s s' : Sink} (hw : s.WellFormed) (hs : s.stopped = true) {capacity : Nat}
    {r : Request} {id : Nat} (h : s.attach capacity r = .ok (id, s')) : s.Silent s' where
  stopped := (evolves_attach h).stopped hs
  attached_le := (evolves_attach h).attached_le
  taps j t' ht' := by
    obtain ⟨hother, t, ht, -, hempty, -⟩ := tap?_attach hw h j
    by_cases hj : j = id
    · refine .inr ⟨?_, ?_⟩
      · rw [hj, (attach_eq_ok h).1]
      · rw [hj, ht] at ht'
        rw [← Option.some.inj ht']
        exact hempty
    · rw [hother hj] at ht'
      exact .inl ⟨t', 0, ht', t'.outlet.skip_zero.symm, fun h => h⟩

/-- Attaching fails only for captures without samples. -/
lemma attach_eq_error {s : Sink} {capacity : Nat} {r : Request} {e : AcqError} :
    s.attach capacity r = .error e ↔
      (∃ selects, r = .triggered selects 0 0) ∧
        e = .invalidArgument
          ("trigger window on '" ++ s.descriptor.name ++ "' needs pre or post samples") := by
  unfold attach
  cases r with
  | streaming => simp [outletFor]
  | multiplexed selects window => simp [outletFor]
  | snapshot selects delay => simp [outletFor]
  | triggered selects pre post =>
    by_cases hzero : pre + post = 0
    · obtain ⟨rfl, rfl⟩ : pre = 0 ∧ post = 0 := by omega
      simp [outletFor, eq_comm]
    · have hne : ¬ (pre = 0 ∧ post = 0) := by omega
      simp [outletFor, hne]

end Sink

/-- A sink with the pollers that are in the hands of consumers. -/
structure Custody where
  /-- The sink. -/
  sink : Sink
  /-- The numbers of the pollers that were handed out and not dropped yet, in order. -/
  held : List Nat := []

namespace Custody

/-- A new sink. -/
def start (descriptor : Descriptor) (rate : Single) : Custody where
  sink := { descriptor, rate }

/-- What may happen to a sink. -/
inductive Move where
  /-- A consumer requests a poller, which may be refused. -/
  | attach (capacity : Nat) (r : Request)
  /-- A block is pushed. -/
  | push (b : Block)
  /-- The sink is stopped. -/
  | stop
  /-- A graph uses its handle. -/
  | through (u : Sink.HandleUse)
  /-- The pollers are counted; those that were let go are removed. -/
  | count
  /-- A consumer takes at most `limit` items. -/
  | take (id limit : Nat)
  /-- A consumer drops its poller. -/
  | drop (id : Nat)

/-- Whether a move stops the sink. -/
def Move.isStop : Move → Bool
  | stop => true
  | through .stop => true
  | through .drop => true
  | _ => false

/-- What becomes of it. -/
def perform (c : Custody) : Move → Custody
  | .attach capacity r =>
    match c.sink.attach capacity r with
    | .ok (id, sink) => { sink, held := c.held ++ [id] }
    | .error _ => c
  | .push b => { c with sink := c.sink.push b }
  | .stop => { c with sink := c.sink.stop }
  | .through u => { c with sink := c.sink.through u }
  | .count => { c with sink := c.sink.prune }
  | .take id limit =>
    { c with sink := c.sink.modifyTap id fun t => { t with outlet := t.outlet.skip limit } }
  | .drop id =>
    { sink := c.sink.modifyTap id fun t => { t with released := true }
      held := c.held.filter (· ≠ id) }

/-- What becomes of it by several moves. -/
def run (c : Custody) (moves : List Move) : Custody := moves.foldl perform c

/-- Taps and pollers agree. -/
structure Sound (c : Custody) : Prop where
  /-- The sink is well-formed. -/
  wellFormed : c.sink.WellFormed
  /-- The taps in use are those of the pollers that are held. -/
  held : Sink.inUse c.sink.taps = c.held
  /-- A stopped sink has finished all queues. -/
  finished : c.sink.stopped = true → ∀ t ∈ c.sink.taps, t.outlet.finished = true

/-! ### Single moves -/

/-- A request is granted, and a poller is handed out, or it is refused, and nothing happens. -/
lemma perform_attach (c : Custody) (capacity : Nat) (r : Request) :
    (∃ id s, c.sink.attach capacity r = .ok (id, s) ∧
        c.perform (.attach capacity r) = { sink := s, held := c.held ++ [id] }) ∨
      ∃ e, c.sink.attach capacity r = .error e ∧ c.perform (.attach capacity r) = c := by
  cases h : c.sink.attach capacity r with
  | ok granted => exact .inl ⟨granted.1, granted.2, rfl, by simp only [perform, h]⟩
  | error e => exact .inr ⟨e, rfl, by simp only [perform, h]⟩

/-- A new sink has neither taps nor pollers. -/
lemma sound_start (d : Descriptor) (rate : Single) : (start d rate).Sound where
  wellFormed := ⟨by simp [start], by simp [start], by simp [start]⟩
  held := rfl
  finished := by simp [start]

/-- A request that is granted hands a poller out. -/
lemma Sound.attach {c : Custody} (hc : c.Sound) {capacity id : Nat} {r : Request} {s : Sink}
    (h : c.sink.attach capacity r = .ok (id, s)) :
    ({ sink := s, held := c.held ++ [id] } : Custody).Sound := by
  obtain ⟨rfl, -, hstopped, o, o', -, ho', -, htaps⟩ := Sink.attach_eq_ok h
  refine ⟨(Sink.evolves_attach h).wellFormed hc.wellFormed, ?_, ?_⟩
  · rw [htaps, ← hc.held]
    simp [Sink.inUse]
  · intro hs t ht
    dsimp only at hs ht
    rw [hstopped] at hs
    rw [htaps] at ht
    rcases List.mem_append.mp ht with ht | ht
    · exact hc.finished hs t ht
    · obtain rfl := List.mem_singleton.mp ht
      simp [ho', hs]

/-- A block keeps taps and pollers in agreement. -/
lemma Sound.push {c : Custody} (hc : c.Sound) (b : Block) :
    ({ c with sink := c.sink.push b } : Custody).Sound where
  wellFormed := (Sink.evolves_push c.sink b).wellFormed hc.wellFormed
  held := (c.sink.inUse_push b).trans hc.held
  finished hs := by
    have hstopped : c.sink.stopped = true := by simpa using hs
    dsimp only
    rw [Sink.push_of_stopped hstopped]
    exact hc.finished hstopped

/-- A stop finishes the queues of all pollers. -/
lemma Sound.stop {c : Custody} (hc : c.Sound) :
    ({ c with sink := c.sink.stop } : Custody).Sound where
  wellFormed := (Sink.evolves_stop c.sink).wellFormed hc.wellFormed
  held := c.sink.inUse_stop.trans hc.held
  finished _ t ht := by
    by_cases hstopped : c.sink.stopped = true
    · rw [Sink.stop_of_stopped hstopped] at ht
      exact hc.finished hstopped t ht
    · simp only [Sink.stop, hstopped] at ht
      obtain ⟨u, -, rfl⟩ := List.mem_map.mp ht
      simp

/-- Counting the pollers removes only taps that nobody holds. -/
lemma Sound.count {c : Custody} (hc : c.Sound) :
    ({ c with sink := c.sink.prune } : Custody).Sound where
  wellFormed := hc.wellFormed.prune
  held := c.sink.inUse_prune.trans hc.held
  finished hs t ht := hc.finished hs t (List.mem_of_mem_filter ht)

/-- A change of one tap that keeps its flag keeps the queues of a stopped sink finished. -/
lemma Sound.finished_modifyTap {c : Custody} (hc : c.Sound) (id : Nat) (f : Tap → Tap)
    (hf : ∀ t, (f t).outlet.finished = t.outlet.finished) (hs : c.sink.stopped = true) :
    ∀ t ∈ (c.sink.modifyTap id f).taps, t.outlet.finished = true := by
  intro t ht
  obtain ⟨u, hu, rfl⟩ := List.mem_map.mp ht
  split
  · rw [hf]
    exact hc.finished hs u hu
  · exact hc.finished hs u hu

/-- A consumer may take items. -/
lemma Sound.take {c : Custody} (hc : c.Sound) (id limit : Nat) :
    (c.perform (.take id limit)).Sound where
  wellFormed := hc.wellFormed.modifyTap id _ (fun _ => rfl) fun t _ ht => by simpa using ht
  held := (c.sink.inUse_modifyTap_outlet id _).trans hc.held
  finished := hc.finished_modifyTap id _ fun t => t.outlet.finished_skip limit

/-- A consumer may drop its poller. -/
lemma Sound.drop {c : Custody} (hc : c.Sound) (id : Nat) : (c.perform (.drop id)).Sound where
  wellFormed := hc.wellFormed.modifyTap id _ (fun _ => rfl) fun _ _ ht => ht
  held := (c.sink.inUse_release id).trans (congrArg (List.filter (· ≠ id)) hc.held)
  finished := hc.finished_modifyTap id _ fun _ => rfl

/-- **Every move keeps taps and pollers in agreement.** -/
theorem Sound.perform {c : Custody} (hc : c.Sound) (m : Move) : (c.perform m).Sound := by
  cases m with
  | attach capacity r =>
    rcases c.perform_attach capacity r with ⟨id, s, h, hm⟩ | ⟨e, -, hm⟩
    · rw [hm]
      exact hc.attach h
    · rw [hm]
      exact hc
  | push b => exact hc.push b
  | stop => exact hc.stop
  | through u =>
    cases u with
    | push b => exact hc.push b
    | stop => exact hc.stop
    | drop => exact hc.stop
  | count => exact hc.count
  | take id limit => exact hc.take id limit
  | drop id => exact hc.drop id

/-- **Once a sink has stopped, no move adds anything to a queue.** -/
theorem silent_perform {c : Custody} (hw : c.sink.WellFormed) (hs : c.sink.stopped = true)
    (m : Move) : c.sink.Silent (c.perform m).sink := by
  have hpush : ∀ b, c.sink.Silent (c.sink.push b) := by
    intro b
    rw [Sink.push_of_stopped hs]
    exact .refl hs
  have hstop : c.sink.Silent c.sink.stop := by
    rw [Sink.stop_of_stopped hs]
    exact .refl hs
  cases m with
  | attach capacity r =>
    rcases c.perform_attach capacity r with ⟨id, s, h, hm⟩ | ⟨e, -, hm⟩
    · rw [hm]
      exact Sink.silent_attach hw hs h
    · rw [hm]
      exact .refl hs
  | push b => exact hpush b
  | stop => exact hstop
  | through u =>
    cases u with
    | push b => exact hpush b
    | stop => exact hstop
    | drop => exact hstop
  | count => exact Sink.silent_prune hw hs
  | take id limit =>
    exact Sink.silent_modifyTap hs id _ limit (fun _ => rfl) (fun _ => rfl) fun _ h => h
  | drop id =>
    refine Sink.silent_modifyTap hs id _ 0 (fun _ => rfl) (fun t => t.outlet.skip_zero.symm) ?_
    intro t h
    cases h

/-- A sink has stopped after a move if it had stopped before or the move stops it. -/
lemma stopped_perform (c : Custody) (m : Move) :
    (c.perform m).sink.stopped = (c.sink.stopped || m.isStop) := by
  cases m with
  | attach capacity r =>
    rcases c.perform_attach capacity r with ⟨id, s, h, hm⟩ | ⟨e, -, hm⟩
    · simp [hm, Move.isStop, (Sink.attach_eq_ok h).2.2.1]
    · simp [hm, Move.isStop]
  | push b => simp [perform, Move.isStop]
  | stop => simp [perform, Move.isStop]
  | through u => cases u <;> simp [perform, Sink.through, Move.isStop]
  | count => simp [perform, Move.isStop, Sink.prune]
  | take id limit => simp [perform, Move.isStop, Sink.modifyTap]
  | drop id => simp [perform, Move.isStop, Sink.modifyTap]

/-- A second stop changes nothing. -/
lemma perform_of_isStop {c : Custody} (hs : c.sink.stopped = true) {m : Move}
    (hm : m.isStop = true) : c.perform m = c := by
  have hstop : ({ c with sink := c.sink.stop } : Custody) = c := by rw [Sink.stop_of_stopped hs]
  cases m with
  | stop => exact hstop
  | through u =>
    cases u with
    | push b => cases hm
    | stop => exact hstop
    | drop => exact hstop
  | attach capacity r => cases hm
  | push b => cases hm
  | count => cases hm
  | take id limit => cases hm
  | drop id => cases hm

/-- Only its holder gives a poller up. -/
lemma mem_held_perform {c : Custody} (m : Move) {id : Nat} (hid : id ∈ c.held) :
    id ∈ (c.perform m).held ∨ m = .drop id := by
  cases m with
  | attach capacity r =>
    left
    rcases c.perform_attach capacity r with ⟨i, s, -, hm⟩ | ⟨e, -, hm⟩
    · rw [hm]
      exact List.mem_append_left _ hid
    · rw [hm]
      exact hid
  | drop i =>
    by_cases h : id = i
    · exact .inr (h ▸ rfl)
    · exact .inl (List.mem_filter.mpr ⟨hid, by simpa using h⟩)
  | push b => exact .inl hid
  | stop => exact .inl hid
  | through u => exact .inl hid
  | count => exact .inl hid
  | take i limit => exact .inl hid

/-! ### Runs -/

/-- Taps and pollers stay in agreement. -/
lemma Sound.run {c : Custody} (hc : c.Sound) (moves : List Move) : (c.run moves).Sound := by
  induction moves generalizing c with
  | nil => exact hc
  | cons m moves ih => exact ih (hc.perform m)

/-- **After the stop of a sink queues only become shorter.** -/
theorem silent_run {c : Custody} (hc : c.Sound) (hs : c.sink.stopped = true) (moves : List Move) :
    c.sink.Silent (c.run moves).sink := by
  induction moves generalizing c with
  | nil => exact .refl hs
  | cons m moves ih =>
    have hstep := silent_perform hc.wellFormed hs m
    exact hstep.trans (ih (hc.perform m) hstep.stopped)

/-- A poller that is held has its tap, and the queue is finished exactly if the sink has stopped. -/
lemma Sound.live {c : Custody} (hc : c.Sound) {id : Nat} (hid : id ∈ c.held) :
    ∃ t, c.sink.tap? id = some t ∧ t.released = false ∧
      (t.outlet.finished = true ↔ c.sink.stopped = true) := by
  rw [← hc.held] at hid
  obtain ⟨t, hmem, ht, hr⟩ := Sink.exists_tap?_of_inUse hc.wellFormed hid
  exact ⟨t, ht, hr, hc.wellFormed.stopped_of_finished t hmem, fun hs => hc.finished hs t hmem⟩

/-- As many taps are counted as there are pollers. -/
lemma Sound.tapCount_eq {c : Custody} (hc : c.Sound) : c.sink.tapCount = c.held.length := by
  rw [Sink.tapCount_eq, hc.held]

/-- After the stop, a poller that was held then has lost some of its oldest items, and its observer
and the count of dropped items are what they were; a poller handed out later has never had any. -/
lemma Sound.after_stop {c : Custody} (hc : c.Sound) (hs : c.sink.stopped = true)
    (more : List Move) {id : Nat} (hid : id ∈ (c.run more).held) :
    ∃ t', (c.run more).sink.tap? id = some t' ∧
      ((id ∈ c.held ∧ ∃ t n, c.sink.tap? id = some t ∧ t'.outlet = t.outlet.skip n) ∨
        (id ∉ c.held ∧ t'.outlet.items = [])) := by
  obtain ⟨t', ht', hr', -⟩ := (hc.run more).live hid
  refine ⟨t', ht', ?_⟩
  rcases (silent_run hc hs more).taps id t' ht' with ⟨t, n, ht, ho, hr⟩ | ⟨hnew, hempty⟩
  · left
    obtain ⟨hmem, rfl⟩ := Sink.mem_of_tap? ht
    refine ⟨?_, t, n, ht, ho⟩
    rw [← hc.held]
    exact List.mem_map_of_mem (List.mem_filter.mpr ⟨hmem, by simp [hr hr']⟩)
  · right
    refine ⟨?_, hempty⟩
    intro hheld
    obtain ⟨t, ht, -⟩ := hc.live hheld
    rw [c.sink.tap?_eq_none hc.wellFormed hnew] at ht
    cases ht

/-- **The pollers of a sink, in every state that a new sink can reach.**

A poller that is held has its tap, and its queue is finished exactly if the sink has stopped; as
many taps are counted as pollers are held. Once the sink has stopped, whatever else happens, a queue
only loses items from its front, an observer keeps what it had begun to cut out, and the queues of
pollers handed out later stay empty. A request is refused exactly if it asks for captures without
samples, and then nothing changes; a sink stops exactly by one of the three ways to stop it, and a
second stop changes nothing; and a poller is held until it is dropped. -/
theorem custody_invariant (d : Descriptor) (rate : Single) (moves : List Move) :
    let c := (start d rate).run moves
    (∀ id ∈ c.held, ∃ t, c.sink.tap? id = some t ∧ t.released = false ∧
        (t.outlet.finished = true ↔ c.sink.stopped = true)) ∧
      c.sink.tapCount = c.held.length ∧
      (c.sink.stopped = true → ∀ more, ∀ id ∈ (c.run more).held,
        ∃ t', (c.run more).sink.tap? id = some t' ∧
          ((id ∈ c.held ∧ ∃ t n, c.sink.tap? id = some t ∧ t'.outlet = t.outlet.skip n) ∨
            (id ∉ c.held ∧ t'.outlet.items = []))) ∧
      (∀ capacity r e, c.sink.attach capacity r = .error e ↔
        (∃ selects, r = .triggered selects 0 0) ∧
          e = .invalidArgument
            ("trigger window on '" ++ c.sink.descriptor.name ++ "' needs pre or post samples")) ∧
      (∀ capacity selects, c.perform (.attach capacity (.triggered selects 0 0)) = c) ∧
      (∀ m, (c.perform m).sink.stopped = (c.sink.stopped || m.isStop)) ∧
      (c.sink.stopped = true → ∀ m, m.isStop = true → c.perform m = c) ∧
      ∀ m, ∀ id ∈ c.held, id ∈ (c.perform m).held ∨ m = .drop id := by
  intro c
  have hc : c.Sound := (sound_start d rate).run moves
  refine ⟨fun id => hc.live, hc.tapCount_eq, fun hs more id => hc.after_stop hs more,
    fun _ _ _ => Sink.attach_eq_error, ?_, c.stopped_perform, fun hs m => perform_of_isStop hs,
    fun m id => mem_held_perform m⟩
  intro capacity selects
  rcases c.perform_attach capacity (.triggered selects 0 0) with ⟨id, s, h, -⟩ | ⟨e, -, hm⟩
  · cases h
  · exact hm

/- A poller is handed out and gets a block, one without samples is refused, the graph gives its
handle up, another poller is handed out, and the first is dropped. -/
example :
    let moves : List Move := [.attach 4 .streaming, .push { samples := [⟨0⟩] },
      .attach 4 (.triggered (fun _ => true) 0 0), .through .drop, .attach 4 .streaming, .drop 0]
    let c := (start default ⟨0⟩).run moves
    c.held = [1] ∧ c.sink.tapCount = 1 ∧
      (c.sink.tap? 0).map (fun t => t.outlet.pending) = some 1 ∧
      (c.sink.tap? 1).map (fun t => t.outlet.finished) = some true := by
  decide

end Custody

end Daq
