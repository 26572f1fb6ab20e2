import Daq.Proofs.Hub.Usage
import Daq.Proofs.Reconciler.Course

set_option autoImplicit false

/-!
# A reconciler as the only tenant

Where nobody else requests pollers from a hub, the two tables of a reconciler and the taps of the
sinks are two records of the same thing. Sinks are made, registered, replaced under their name and
unregistered, blocks are pushed and sinks stop, and passes open, evict and refuse. In every state in
between, the taps in use are those of the pollers in the tables, so nothing is left behind at any
sink, whether it is still registered or not.

## Main definitions

* `Daq.Tenancy` — a reconciler with a hub.
* `Daq.Tenancy.Move`, `Daq.Tenancy.run` — what happens to them, in any order.
* `Daq.Reconciler.Sole` — the tables and the taps in use agree.

## Main results

* `Daq.Reconciler.Sole.ensure`, `Daq.Reconciler.Sole.serve`, `Daq.Reconciler.Sole.evict` — the parts
  of a pass keep the agreement.
* `Daq.Tenancy.sole_perform` — every move keeps it.
* `Daq.Tenancy.leaves_none` — a key that is given up leaves no poller behind.
* `Daq.Tenancy.tenancy_exact` — what sinks count in every state.
-/

namespace Daq

/-! ### Tables and taps -/

/-- The removal of released taps keeps a reconciler sound: its pollers are in use. -/
lemma Reconciler.Sound.prune {r : Reconciler} {h : Hub} (hs : r.Sound h) (i : Nat) :
    r.Sound (h.modify i Sink.prune) := by
  refine ⟨?_, hs.filed, ?_, hs.distinct⟩
  · intro s' hs'
    obtain ⟨j, hj⟩ := List.mem_iff_getElem?.mp hs'
    rw [Hub.getElem?_modify] at hj
    split at hj
    · obtain ⟨s, hsink, rfl⟩ := Option.map_eq_some_iff.mp hj
      exact (hs.wellFormed s (List.mem_of_getElem? hsink)).prune
    · exact hs.wellFormed s' (List.mem_of_getElem? hj)
  · intro k e he
    obtain ⟨t, ht, hr, hkind⟩ := hs.serves k e he
    obtain ⟨s, hsink, hst⟩ := Hub.tap?_eq_some.mp ht
    refine ⟨t, Hub.tap?_eq_some.mpr ?_, hr, hkind⟩
    rw [Hub.getElem?_modify]
    split
    · exact ⟨s.prune, by rw [hsink]; rfl, s.tap?_prune hst hr⟩
    · exact ⟨s, hsink, hst⟩

namespace Reconciler

/-- The taps in use are those of the pollers in the tables, and no tap was ever attached but for a
poller that was counted. -/
structure Sole (r : Reconciler) (h : Hub) : Prop where
  /-- The reconciler is sound. -/
  sound : r.Sound h
  /-- The pollers in use are those of the entries. -/
  inUse : ∀ p, h.InUse p ↔ ∃ k e, r.held? k = some e ∧ e.poller = p
  /-- Taps are attached for pollers that are counted. -/
  created : h.everAttached = r.counters.pollersCreated

namespace Sole

variable {r r' : Reconciler} {h h' : Hub}

/-- What changes neither pollers nor taps in use keeps the agreement. -/
lemma of_same (hr : r.Sole h) (hsound : r'.Sound h')
    (hheld : ∀ k, (r'.held? k).map (fun e => e.poller) = (r.held? k).map fun e => e.poller)
    (huse : ∀ p, h'.InUse p ↔ h.InUse p) (hattached : h'.everAttached = h.everAttached)
    (hcreated : r'.counters.pollersCreated = r.counters.pollersCreated) : r'.Sole h' where
  sound := hsound
  inUse p := by
    have hpoller : ∀ k, (∃ e, r'.held? k = some e ∧ e.poller = p) ↔
        ∃ e, r.held? k = some e ∧ e.poller = p := by
      intro k
      rw [← Option.map_eq_some_iff, ← Option.map_eq_some_iff, hheld k]
    rw [huse, hr.inUse p]
    exact exists_congr fun k => (hpoller k).symm
  created := by rw [hattached, hr.created, hcreated]

/-- What is done to a single sink keeps the agreement, unless it attaches or releases taps. -/
lemma modify (hr : r.Sole h) {i : Nat} {f : Sink → Sink} (hsound : r.Sound (h.modify i f))
    (huse : ∀ s, Sink.inUse (f s).taps = Sink.inUse s.taps)
    (hattached : ∀ s, (f s).attached = s.attached) : r.Sole (h.modify i f) :=
  hr.of_same hsound (fun _ => rfl) (fun p => h.inUse_modify i f p huse)
    (h.everAttached_modify i f hattached) rfl

/-- A pass begins without touching pollers or taps. -/
lemma begin (hr : r.Sole h) (topics : List Topic) :
    (r.begin h topics).reconciler.Sole (r.begin h topics).hub := by
  refine hr.of_same (hr.sound.begin topics) (fun k => ?_) (fun _ => Iff.rfl) rfl rfl
  rw [held?_begin, Option.map_map]
  rfl

section Pass

variable {p : Pass}

/-- A request attaches a tap for the poller that it opens, and none if it is refused. -/
lemma ensure (hp : p.reconciler.Sole p.hub) (flush : Bool) (k : PollerKey) :
    (p.ensure Hub.serve flush k).reconciler.Sole (p.ensure Hub.serve flush k).hub := by
  have hsound := hp.sound.ensure Hub.lawful_serve flush k
  obtain ⟨-, heq⟩ | ⟨-, -, e, -, heq⟩ | ⟨hcon, -, q, h', hok, heq⟩ :=
    p.ensure_cases Hub.serve flush k
  · rwa [heq]
  · rw [heq] at hsound ⊢
    have hcreated := (p.reconciler.counters.refuse_frame e).1
    exact hp.of_same hsound (fun _ => rfl) (fun _ => Iff.rfl) rfl hcreated
  · rw [heq] at hsound ⊢
    have hnone := (p.reconciler.contains_eq_false_iff k).mp hcon
    refine ⟨hsound, fun u => ?_, ?_⟩
    · dsimp only
      rw [Hub.inUse_serve hok, hp.inUse u]
      constructor
      · rintro (⟨j, e, he, rfl⟩ | rfl)
        · have hjk : j ≠ k := by
            rintro rfl
            rw [hnone] at he
            cases he
          exact ⟨j, e, by rw [held?_enter, if_neg hjk, he], rfl⟩
        · exact ⟨k, _, by rw [held?_enter, if_pos rfl], rfl⟩
      · rintro ⟨j, e, he, rfl⟩
        rw [held?_enter] at he
        split at he
        · cases he
          exact .inr rfl
        · exact .inl ⟨j, e, he, rfl⟩
    · dsimp only
      rw [Hub.everAttached_serve hok, hp.created, (p.reconciler.enter_counters k q).1]

/-- A visit replaces no poller and releases no tap. -/
lemma serve (hp : p.reconciler.Sole p.hub) (v : Visit) :
    (p.serve v).reconciler.Sole (p.serve v).hub := by
  have hsound := hp.sound.serve v
  obtain ⟨n, hn⟩ := Pass.counters_serve hp.sound v
  cases he : p.reconciler.held? v.key with
  | none =>
    rw [Pass.serve_eq_self he]
    exact hp
  | some e =>
    have hhub : (p.serve v).hub = p.hub.emptied e.poller := by rw [Pass.serve_eq hp.sound he]
    refine hp.of_same hsound (fun j => ?_) (fun u => ?_) ?_ (by rw [hn])
    · rw [Pass.held?_serve hp.sound he]
      split
      · rename_i hj
        rw [hj, he]
        rfl
      · rfl
    · rw [hhub, Hub.inUse_emptied]
    · rw [hhub]
      exact p.hub.everAttached_modify e.poller.sink _ fun _ => rfl

/-- A walk keeps the agreement. -/
lemma walk (flush : Bool) (vs : List Visit) (hp : p.reconciler.Sole p.hub) :
    (vs.foldl (Pass.visit Hub.serve flush) p).reconciler.Sole
      (vs.foldl (Pass.visit Hub.serve flush) p).hub := by
  induction vs generalizing p with
  | nil => exact hp
  | cons v vs ih => exact ih ((hp.ensure flush v.key).serve v)

end Pass

/-- **The sweep takes out of use exactly the taps of the pollers that it evicts.** -/
lemma evict (hr : r.Sole h) : (r.evict h).1.Sole (r.evict h).2 where
  sound := hr.sound.evict
  inUse p := by
    change (r.stale.foldl Hub.release h).InUse p ↔ _
    rw [Hub.inUse_releaseAll, hr.inUse p, mem_stale hr.sound.filed]
    constructor
    · rintro ⟨⟨k, e, he, rfl⟩, hkept⟩
      refine ⟨k, e, ?_, rfl⟩
      rw [held?_evict, Option.filter_eq_some_iff]
      refine ⟨he, ?_⟩
      by_contra huse
      exact hkept ⟨k, e, he, rfl, by simpa using huse⟩
    · rintro ⟨k, e, he, rfl⟩
      rw [held?_evict, Option.filter_eq_some_iff] at he
      refine ⟨⟨k, e, he.1, rfl⟩, ?_⟩
      rintro ⟨j, f, hf, hpoller, huse⟩
      obtain rfl := hr.sound.distinct j k f e hf he.1 hpoller
      rw [he.1] at hf
      cases hf
      rw [he.2] at huse
      cases huse
  created := (h.everAttached_releaseAll r.stale).trans hr.created

/-- Letting go of all pollers takes all taps out of use. -/
lemma clear (hr : r.Sole h) : (r.clear h).1.Sole (r.clear h).2 where
  sound := hr.sound.clear
  inUse p := by
    change (r.pollers.foldl Hub.release h).InUse p ↔ _
    rw [Hub.inUse_releaseAll, hr.inUse p, mem_pollers hr.sound.filed]
    simp
  created := (h.everAttached_releaseAll r.pollers).trans hr.created

/-- **A pass keeps the agreement.** -/
theorem pass (hr : r.Sole h) (flush : Bool) (topics : List Topic) :
    (r.pass Hub.serve flush h topics).reconciler.Sole (r.pass Hub.serve flush h topics).hub := by
  obtain ⟨hreconciler, hhub⟩ := r.pass_eq Hub.serve flush h topics
  rw [hreconciler, hhub]
  exact ((hr.begin topics).walk flush _).evict

/-- **A sink counts the pollers that are in the tables.** -/
lemma pollerCount_eq (hr : r.Sole h) (i : Nat) :
    h.pollerCount i = (r.streams.values.countP fun e => e.poller.sink = i) +
      r.captures.values.countP fun e => e.poller.sink = i := by
  have hmem : ∀ p, p ∈ r.pollers ↔ h.InUse p := by
    intro p
    rw [mem_pollers hr.sound.filed, hr.inUse]
  rw [Hub.pollerCount_eq hr.sound.wellFormed hr.sound.nodup_pollers hmem, pollers,
    List.countP_append, List.countP_map, List.countP_map]
  rfl

end Sole

end Reconciler

/-! ### Runs -/

/-- A reconciler with a hub that nobody else requests pollers from. -/
structure Tenancy where
  /-- The reconciler. -/
  reconciler : Reconciler
  /-- The hub. -/
  hub : Hub

namespace Tenancy

/-- What happens to reconciler and hub. -/
inductive Move where
  /-- A pass is made. -/
  | reconcile (flush : Bool) (topics : List Topic)
  /-- All pollers are let go of. -/
  | clear
  /-- A sink is made. -/
  | make (d : Descriptor) (rate : Single)
  /-- A sink is entered into the directory; it replaces a sink of the same name. -/
  | register (sink : Nat)
  /-- A signal is removed from the directory. -/
  | unregister (signal : String)
  /-- A block is pushed into a sink. -/
  | push (sink : Nat) (b : Block)
  /-- A sink is stopped. -/
  | stop (sink : Nat)
  /-- The pollers of a sink are counted; taps that were let go of are removed. -/
  | count (sink : Nat)

/-- A reconciler without pollers and a hub without sinks. -/
def start (service : String) (capacities : Capacities) : Tenancy where
  reconciler := { service }
  hub := { capacities }

/-- Reconciler and hub after a move. -/
def perform (x : Tenancy) : Move → Tenancy
  | .reconcile flush topics =>
    let p := x.reconciler.pass Hub.serve flush x.hub topics
    ⟨p.reconciler, p.hub⟩
  | .clear =>
    let cleared := x.reconciler.clear x.hub
    ⟨cleared.1, cleared.2⟩
  | .make d rate => { x with hub := (x.hub.make d rate).2 }
  | .register sink => { x with hub := x.hub.register sink }
  | .unregister signal => { x with hub := x.hub.unregister signal }
  | .push sink b => { x with hub := x.hub.push sink b }
  | .stop sink => { x with hub := x.hub.stop sink }
  | .count sink => { x with hub := x.hub.modify sink Sink.prune }

/-- Reconciler and hub after several moves. -/
def run (x : Tenancy) (moves : List Move) : Tenancy := moves.foldl perform x

/-- At the start there is nothing. -/
lemma sole_start (service : String) (capacities : Capacities) :
    (start service capacities).reconciler.Sole (start service capacities).hub := by
  refine ⟨Reconciler.sound_empty service (Hub.wellFormed_empty capacities), fun p => ?_, rfl⟩
  have hnone : ∀ k, (start service capacities).reconciler.held? k = none :=
    fun k => Reconciler.held?_empty k service
  simp only [hnone]
  simp [Hub.InUse, start]

variable {x : Tenancy} (hx : x.reconciler.Sole x.hub)

include hx

/-- **Every move keeps tables and taps in agreement.** -/
theorem sole_perform (m : Move) : (x.perform m).reconciler.Sole (x.perform m).hub := by
  cases m with
  | reconcile flush topics => exact hx.pass flush topics
  | clear => exact hx.clear
  | make d rate =>
    refine hx.of_same (hx.sound.evolves (x.hub.evolves_make d rate)) (fun _ => rfl)
      (fun p => x.hub.inUse_make p d rate) ?_ rfl
    simp [perform, Hub.make, Hub.everAttached]
  | register sink =>
    have hsinks : (x.hub.register sink).sinks = x.hub.sinks := by
      unfold Hub.register
      split <;> rfl
    refine hx.of_same (hx.sound.evolves (Hub.evolves_of_sinks_eq hsinks)) (fun _ => rfl)
      (fun p => ?_) ?_ rfl
    · simp [perform, Hub.InUse, hsinks]
    · simp [perform, Hub.everAttached, hsinks]
  | unregister signal =>
    exact hx.of_same (hx.sound.evolves (Hub.evolves_of_sinks_eq rfl)) (fun _ => rfl)
      (fun _ => Iff.rfl) rfl rfl
  | push sink b =>
    refine hx.modify ?_ (fun s => s.inUse_push b) fun s => ?_
    · exact hx.sound.evolves (Hub.evolves_modify _ _ _ fun s _ => s.evolves_push b)
    · unfold Sink.push
      split <;> rfl
  | stop sink =>
    refine hx.modify ?_ Sink.inUse_stop fun s => ?_
    · exact hx.sound.evolves (Hub.evolves_modify _ _ _ fun s _ => s.evolves_stop)
    · unfold Sink.stop
      split <;> rfl
  | count sink => exact hx.modify (hx.sound.prune sink) Sink.inUse_prune fun _ => rfl

/-- Every run keeps tables and taps in agreement. -/
lemma sole_run (moves : List Move) : (x.run moves).reconciler.Sole (x.run moves).hub := by
  induction moves generalizing x with
  | nil => exact hx
  | cons m moves ih => exact ih (sole_perform hx m)

/-- **A key that is given up leaves no poller behind**, whether it was evicted by a pass or let go of
with all others. -/
theorem leaves_none (m : Move) {k : PollerKey} {e : Entry} (he : x.reconciler.held? k = some e)
    (hgone : (x.perform m).reconciler.held? k = none) : ¬ (x.perform m).hub.InUse e.poller := by
  cases m with
  | reconcile flush topics =>
    let p := (visits x.reconciler.service topics).foldl (Pass.visit Hub.serve flush)
      (x.reconciler.begin x.hub topics)
    have hbegin : (x.reconciler.begin x.hub topics).reconciler.held? k =
        some { e with inUse := false } := by
      rw [Reconciler.held?_begin, he, Option.map_some]
    obtain ⟨f, hf, hpoller⟩ := Pass.poller_walk (hx.sound.begin topics) hbegin Hub.serve flush
      Hub.lawful_serve (visits x.reconciler.service topics)
    have hfiled : p.reconciler.Filed := ((hx.begin topics).walk flush _).sound.filed
    -- The poller is still there when the sweep begins, so the sweep lets go of it.
    have hswept : (p.reconciler.evict p.hub).1.held? k = none := hgone
    have hstale : e.poller ∈ p.reconciler.stale := by
      rw [Reconciler.held?_evict, hf, Option.filter_eq_none_iff] at hswept
      exact (Reconciler.mem_stale hfiled _).mpr ⟨k, f, hf, hpoller, by simpa using hswept f rfl⟩
    change ¬ (p.reconciler.stale.foldl Hub.release p.hub).InUse e.poller
    rw [Hub.inUse_releaseAll]
    exact fun huse => huse.2 hstale
  | clear =>
    have hmem := (Reconciler.mem_pollers hx.sound.filed _).mpr ⟨k, e, he, rfl⟩
    change ¬ (x.reconciler.pollers.foldl Hub.release x.hub).InUse e.poller
    rw [Hub.inUse_releaseAll]
    exact fun huse => huse.2 hmem
  | make d rate => cases he.symm.trans hgone
  | register sink => cases he.symm.trans hgone
  | unregister signal => cases he.symm.trans hgone
  | push sink b => cases he.symm.trans hgone
  | stop sink => cases he.symm.trans hgone
  | count sink => cases he.symm.trans hgone

/-- A pass attaches one tap for every new key, and none for the requests that are refused. -/
lemma attaches_new (flush : Bool) (topics : List Topic) :
    (x.perform (.reconcile flush topics)).hub.everAttached = x.hub.everAttached +
      ((x.perform (.reconcile flush topics)).reconciler.keySet \ x.reconciler.keySet).card := by
  rw [hx.created, (sole_perform hx _).created]
  exact Reconciler.created_pass hx.sound Hub.lawful_serve
    (Reconciler.answersAs_serve hx.sound flush topics)

omit hx

/-- **What the sinks count, in every state between a reconciler and its hub.** Passes are made over
any topics, all pollers are let go of, sinks are made, registered, replaced, unregistered and
stopped, and blocks are pushed, in any order. Then every sink, registered or not, counts the entries
of the two tables that have a poller of it; no two entries share a poller, and the taps in use are
those of the entries. As many taps were ever attached as pollers were opened; a pass attaches one for
every new key, and none for a request that is refused. A key that is evicted or let go of takes its
tap out of use, and after all are let go of every sink counts none. -/
theorem tenancy_exact (service : String) (capacities : Capacities) (moves : List Move) :
    let x := (start service capacities).run moves
    (∀ i, x.hub.pollerCount i = (x.reconciler.streams.values.countP fun e => e.poller.sink = i) +
      x.reconciler.captures.values.countP fun e => e.poller.sink = i) ∧
    x.reconciler.pollers.Nodup ∧
    (∀ p, x.hub.InUse p ↔ ∃ k e, x.reconciler.held? k = some e ∧ e.poller = p) ∧
    x.hub.everAttached = x.reconciler.counters.pollersCreated ∧
    (∀ flush topics,
      let y := x.perform (.reconcile flush topics)
      y.hub.everAttached =
        x.hub.everAttached + (y.reconciler.keySet \ x.reconciler.keySet).card) ∧
    (∀ m k e, x.reconciler.held? k = some e → (x.perform m).reconciler.held? k = none →
      ¬ (x.perform m).hub.InUse e.poller) ∧
    ∀ i, (x.perform .clear).hub.pollerCount i = 0 := by
  intro x
  have hx : x.reconciler.Sole x.hub := sole_run (sole_start service capacities) moves
  refine ⟨hx.pollerCount_eq, hx.sound.nodup_pollers, hx.inUse, hx.created, attaches_new hx,
    fun m k e he hgone => leaves_none hx m he hgone, fun i => ?_⟩
  rw [(sole_perform hx .clear).pollerCount_eq]
  rfl

/-- A topic for one channel, with further parameters. -/
def sampleTopic (channel : String) (params : List (String × String)) : Topic :=
  ⟨"/daq", Table.ofList ((Filter.channelsParam, channel) :: params)⟩

/-- A poller for `A` is opened and one for `B` is refused. Then another sink takes over the name, and
captures are requested from it as well. The last pass evicts the first poller, and its sink has left
the directory and stopped by then. -/
def sampleMoves : List Move :=
  let captures := sampleTopic "A" [(Filter.modeParam, "snapshot")]
  [.make (.unknown "A") .zero, .register 0, .make (.unknown "A") .zero,
    .reconcile false [sampleTopic "A,B" []], .register 1, .push 0 ⟨[.zero], []⟩,
    .reconcile false [sampleTopic "A" [], captures], .unregister "A", .stop 0,
    .reconcile false [captures]]

/-- Two taps were attached. The old sink has none of them any more, and the new one still has the
other, until it is let go of. -/
theorem tenancy_exact_sample :
    let x := (start "/daq" {}).run sampleMoves
    x.hub.pollerCount 0 = 0 ∧ x.hub.pollerCount 1 = 1 ∧ x.hub.everAttached = 2 ∧
      (x.perform .clear).hub.pollerCount 1 = 0 := by
  obtain ⟨hcount, -, -, hattached, -, -, hnone⟩ := tenancy_exact "/daq" {} sampleMoves
  dsimp only
  refine ⟨?_, ?_, ?_, hnone 1⟩
  · rw [hcount]
    decide +kernel
  · rw [hcount]
    decide +kernel
  · rw [hattached]
    decide +kernel

end Tenancy

end Daq
