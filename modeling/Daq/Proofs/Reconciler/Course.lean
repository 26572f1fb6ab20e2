import Daq.Proofs.Reconciler.Pass

set_option autoImplicit false

/-!
# The course of a reconciler

Passes are made one after the other, with other things in between: the pollers may all be let go
of, and producers act on the hub. In every such course each poller ever opened is still there, or
was evicted, or was let go of with all others, and a pass at the end of it leaves exactly the keys
that it should.

## Main definitions

* `Daq.Turn` — what happens to a reconciler.
* `Daq.Course`, `Daq.Course.run` — a reconciler with its hub after several turns.
* `Daq.Hub.SameOffers` — hubs whose directories offer the same signals.

## Main results

* `Daq.Course.sound_run` — the reconciler is sound at any time.
* `Daq.Course.balance_run` — pollers are conserved.
* `Daq.Course.pass_exact` — keys and counters after a pass.
* `Daq.Reconciler.answersAs_serve` — the directory answers by a verdict on keys.
-/

namespace Daq

/-- What happens to a reconciler. -/
inductive Turn where
  /-- A pass is made. -/
  | pass (grant : Grant) (flush : Bool) (topics : List Topic)
  /-- All pollers are let go of. -/
  | clear
  /-- A producer acts. -/
  | act (a : Hub.Act)

/-- Passes ask lawful grants only. -/
def Turn.Lawful : Turn → Prop
  | .pass grant _ _ => grant.Lawful
  | .clear => True
  | .act _ => True

/-- A reconciler with its hub, and the number of pollers let go of other than by an eviction. -/
structure Course where
  /-- The reconciler. -/
  reconciler : Reconciler
  /-- The hub. -/
  hub : Hub
  /-- The pollers that were let go of all at once. -/
  cleared : Nat := 0

namespace Course

/-- One turn. -/
def take (c : Course) : Turn → Course
  | .pass grant flush topics =>
    let p := c.reconciler.pass grant flush c.hub topics
    { c with reconciler := p.reconciler, hub := p.hub }
  | .clear =>
    let cleared := c.reconciler.clear c.hub
    ⟨cleared.1, cleared.2, c.cleared + c.reconciler.pollers.length⟩
  | .act a => { c with hub := c.hub.perform a }

/-- The course from a reconciler without pollers on. -/
def run (service : String) (h : Hub) (turns : List Turn) : Course :=
  turns.foldl take ⟨{ service }, h, 0⟩

/-- The reconciler is sound, and every poller ever opened is there or was let go of. -/
structure Kept (service : String) (c : Course) : Prop where
  /-- The reconciler is sound. -/
  sound : c.reconciler.Sound c.hub
  /-- The service does not change. -/
  service_eq : c.reconciler.service = service
  /-- No poller was lost. -/
  balance : c.reconciler.counters.pollersCreated =
    c.reconciler.counters.pollersEvicted + c.cleared + c.reconciler.keys.length

/-- **One turn loses no poller.** -/
lemma Kept.take {service : String} {c : Course} (hk : c.Kept service) {t : Turn} (ht : t.Lawful) :
    (c.take t).Kept service := by
  have hbalance := hk.balance
  cases t with
  | pass grant flush topics =>
    refine ⟨hk.sound.pass ht flush topics, ?_, ?_⟩
    · exact (Reconciler.service_pass _ _ _ _ _).trans hk.service_eq
    · have hpass := Reconciler.balance_pass hk.sound ht flush topics
      dsimp only [Course.take] at hpass ⊢
      omega
  | clear =>
    refine ⟨hk.sound.clear, hk.service_eq, ?_⟩
    have hlen : c.reconciler.pollers.length = c.reconciler.keys.length := by
      simp [Reconciler.pollers, Reconciler.keys, Table.length_values]
    have hnone : (c.reconciler.clear c.hub).1.keys.length = 0 := by
      simp [Reconciler.clear, Reconciler.keys]
    have hcount : (c.reconciler.clear c.hub).1.counters = c.reconciler.counters := rfl
    dsimp only [Course.take]
    rw [hnone, hcount]
    omega
  | act a => exact ⟨hk.sound.evolves (c.hub.evolves_perform a), hk.service_eq, hbalance⟩

/-- **No course loses a poller.** -/
theorem kept_run (service : String) {h : Hub} (hw : h.WellFormed) {turns : List Turn}
    (hl : ∀ t ∈ turns, t.Lawful) : (run service h turns).Kept service := by
  have hstart : Kept service ⟨{ service }, h, 0⟩ :=
    ⟨Reconciler.sound_empty service hw, rfl, rfl⟩
  unfold run
  generalize (⟨{ service }, h, 0⟩ : Course) = c at hstart
  induction turns generalizing c with
  | nil => exact hstart
  | cons t turns ih =>
    exact ih (fun u hu => hl u (by simp [hu])) _ (hstart.take (hl t (by simp)))

end Course

/-! ### The directory -/

namespace Hub

/-- Two hubs whose directories offer the same signals, at sinks of the same names. -/
structure SameOffers (h h' : Hub) : Prop where
  /-- The directories are the same. -/
  directory : h'.directory = h.directory
  /-- The sinks have the same descriptors. -/
  descriptors : h'.sinks.map (fun s => s.descriptor) = h.sinks.map fun s => s.descriptor

/-- Attaching a tap keeps the descriptor. -/
lemma descriptor_attach {s s' : Sink} {capacity id : Nat} {r : Request}
    (h : s.attach capacity r = .ok (id, s')) : s'.descriptor = s.descriptor := by
  unfold Sink.attach at h
  split at h
  · cases h
  · cases h
    rfl

/-- A granted request changes no offer. -/
lemma sameOffers_serve {h h' : Hub} {k : PollerKey} {p : PollerRef}
    (hok : h.serve k = .ok (p, h')) : h.SameOffers h' := by
  obtain ⟨s, s', -, hs, hat, rfl⟩ := serve_eq_ok hok
  refine ⟨rfl, h.map_sinks_modify _ _ _ fun u hu => ?_⟩
  rw [hs] at hu
  cases hu
  exact descriptor_attach hat

/-- Whether and why a request is refused depends on what the directory offers only. -/
lemma refusal?_serve {h h' : Hub} (ho : h.SameOffers h') (k : PollerKey) :
    refusal? (h'.serve k) = refusal? (h.serve k) := by
  have hsinks : ∀ i : Nat, (h'.sinks[i]?).map (fun s => s.descriptor) =
      (h.sinks[i]?).map fun s => s.descriptor := by
    intro i
    rw [← List.getElem?_map, ← List.getElem?_map, ho.descriptors]
  have hattach : ∀ (s s' : Sink) (c c' : Nat) (r : Request), s'.descriptor = s.descriptor →
      refusal? (s'.attach c' r) = refusal? (s.attach c r) := by
    intro s s' c c' r hd
    cases r with
    | triggered selects pre post =>
      by_cases hz : pre + post = 0
      · simp [Sink.attach, Sink.outletFor, hd, hz, refusal?]
      · simp only [Sink.attach, Sink.outletFor, if_neg hz]
        rfl
    | streaming => rfl
    | multiplexed selects window => rfl
    | snapshot selects delay => rfl
  rw [serve_eq, serve_eq]
  unfold request lookup?
  rw [ho.directory]
  cases h.directory.get? k.signal with
  | none => rfl
  | some i =>
    dsimp only
    have hi := hsinks i
    unfold attach
    cases hs : h.sinks[i]? with
    | none =>
      rw [hs] at hi
      rw [Option.map_eq_none_iff.mp hi]
    | some s =>
      rw [hs] at hi
      obtain ⟨s', hs', hd⟩ := Option.map_eq_some_iff.mp hi
      rw [hs']
      have := hattach s s' (h.capacityFor (requestOf k)) (h'.capacityFor (requestOf k))
        (requestOf k) hd
      dsimp only
      cases ha : s.attach (h.capacityFor (requestOf k)) (requestOf k) <;>
        cases ha' : s'.attach (h'.capacityFor (requestOf k)) (requestOf k) <;>
        rw [ha, ha'] at this <;> first | rfl | exact this

end Hub

namespace Reconciler

/-- What granted requests and the emptying of queues respect, a whole walk respects. -/
lemma related_walk (R : Hub → Hub → Prop) (hrefl : ∀ h, R h h)
    (htrans : ∀ {h₁ h₂ h₃}, R h₁ h₂ → R h₂ h₃ → R h₁ h₃) {grant : Grant} (hl : grant.Lawful)
    (hgrant : ∀ h k q h', grant h k = .ok (q, h') → R h h') (hempty : ∀ h q, R h (h.emptied q))
    (flush : Bool) (vs : List Visit) {p : Pass} (hs : p.reconciler.Sound p.hub) :
    R p.hub (vs.foldl (Pass.visit grant flush) p).hub := by
  induction vs generalizing p with
  | nil => exact hrefl p.hub
  | cons v vs ih =>
    refine htrans ?_ (ih (hs.visit hl flush v))
    have hensure : R p.hub (p.ensure grant flush v.key).hub := by
      obtain ⟨-, heq⟩ | ⟨-, -, e, -, heq⟩ | ⟨-, -, q, h', hok, heq⟩ :=
        p.ensure_cases grant flush v.key
      · rw [heq]
        exact hrefl p.hub
      · rw [heq]
        exact hrefl p.hub
      · rw [heq]
        exact hgrant p.hub v.key q h' hok
    have hs' := hs.ensure hl flush v.key
    unfold Pass.visit
    cases he : (p.ensure grant flush v.key).reconciler.held? v.key with
    | none =>
      rw [Pass.serve_eq_self he]
      exact hensure
    | some e =>
      rw [Pass.serve_eq hs' he]
      exact htrans hensure (hempty _ e.poller)

/-- A walk through the directory changes no offer. -/
lemma sameOffers_walk (flush : Bool) (vs : List Visit) {p : Pass} (hs : p.reconciler.Sound p.hub) :
    p.hub.SameOffers (vs.foldl (Pass.visit Hub.serve flush) p).hub := by
  refine related_walk Hub.SameOffers (fun _ => ⟨rfl, rfl⟩) ?_ Hub.lawful_serve ?_ ?_ flush vs hs
  · exact fun o o' => ⟨o'.directory.trans o.directory, o'.descriptors.trans o.descriptors⟩
  · exact fun _ _ _ _ hok => Hub.sameOffers_serve hok
  · exact fun h q => ⟨rfl, h.map_sinks_modify _ _ _ fun _ _ => rfl⟩

/-- **The directory answers by a verdict on keys**: nothing that happens in a pass changes what it
says about a key. -/
theorem answersAs_serve {r : Reconciler} {h : Hub} (hs : r.Sound h) (flush : Bool)
    (topics : List Topic) :
    r.AnswersAs Hub.serve flush h topics fun k => refusal? (h.serve k) := by
  intro before v after _ p _ _
  exact Hub.refusal?_serve (sameOffers_walk flush before (hs.begin topics)) v.key

end Reconciler

/-! ### A pass in any course -/

namespace Course

/-- **What a pass makes of the tables, in any course.** Let `R` be the set of requested keys.

The keys afterwards are the keys of `R` that had a poller before or, unless the pass flushes, are
granted one. Continuous keys are only in the table of streams, all others only in the table of
captures. The counters say how many keys are new, how many old keys are not in `R`, how many topics
of the service cannot be read and, cause by cause, how many requests of the walk were refused; a
flush pass makes none. As many pollers as were ever opened are there, or were evicted, or were let
go of with all others. -/
theorem pass_exact (service : String) (h : Hub) (hw : h.WellFormed) (turns : List Turn)
    (hl : ∀ t ∈ turns, t.Lawful) (grant : Grant) (hg : grant.Lawful) (flush : Bool)
    (topics : List Topic) (verdict : PollerKey → Option AcqError)
    (ha : (run service h turns).reconciler.AnswersAs grant flush (run service h turns).hub topics
      verdict) :
    let c := run service h turns
    let r := c.reconciler
    let r' := (r.pass grant flush c.hub topics).reconciler
    let R := (requested service topics).toFinset
    let refused := r.refusals flush verdict (requested service topics)
    (∀ k, k ∈ r'.keySet ↔ k ∈ R ∧ (k ∈ r.keySet ∨ (flush = false ∧ verdict k = none))) ∧
    (∀ k ∈ r'.streams.keys, k.mode = .continuous) ∧
    (∀ k ∈ r'.captures.keys, k.mode ≠ .continuous) ∧
    r'.counters.pollersCreated = r.counters.pollersCreated + (r'.keySet \ r.keySet).card ∧
    r'.counters.pollersEvicted = r.counters.pollersEvicted + (r.keySet \ R).card ∧
    r'.counters.skippedSubscriptions = r.counters.skippedSubscriptions +
      (topics.filter fun t => t.path == service).countP
        (fun t => (Filter.ofParams t.params).toOption.isNone) ∧
    (∀ cause, r'.counters.refused cause =
      r.counters.refused cause + refused.countP (fun e => e.cause = cause)) ∧
    (flush = true → refused = []) ∧
    r'.counters.pollersCreated = r'.counters.pollersEvicted + c.cleared + r'.keySet.card := by
  intro c r r' R refused
  have hk := kept_run service hw hl
  have hs : r.Sound c.hub := hk.sound
  have hservice : r.service = service := hk.service_eq
  have hs' : r'.Sound (r.pass grant flush c.hub topics).hub := hs.pass hg flush topics
  have hkeys := Reconciler.mem_keySet_pass hs hg ha
  have hcreated := Reconciler.created_pass hs hg ha
  have hevicted := Reconciler.evicted_pass hs hg ha
  obtain ⟨hskipped, hrefused⟩ := Reconciler.refused_pass hs hg ha
  have hbalance := Reconciler.balance_pass hs hg flush topics
  rw [hservice] at hkeys hevicted hskipped hrefused
  have hfiled : ∀ k : PollerKey, k.mode.isDataset = false ↔ k.mode = .continuous := by
    intro k
    cases k.mode <;> decide
  refine ⟨?_, ?_, ?_, hcreated, hevicted, hskipped, hrefused, ?_, ?_⟩
  · intro k
    rw [List.mem_toFinset]
    exact hkeys k
  · intro k hmem
    exact (hfiled k).mp (hs'.filed.streams k hmem)
  · intro k hmem hcont
    have hdataset := hs'.filed.captures k hmem
    rw [(hfiled k).mpr hcont] at hdataset
    cases hdataset
  · intro hflush
    simp only [refused, Reconciler.refusals, hflush, if_true]
  · have hcourse := hk.balance
    rw [Reconciler.card_keySet hs'.filed]
    change r.counters.pollersCreated = r.counters.pollersEvicted + c.cleared + r.keys.length
      at hcourse
    change r'.counters.pollersCreated + r.counters.pollersEvicted + r.keys.length =
      r.counters.pollersCreated + r'.counters.pollersEvicted + r'.keys.length at hbalance
    omega

/-- Two registered signals. -/
def sampleHub : Hub :=
  Hub.performAll {} [.make (.unknown "A") .zero, .register 0, .make (.unknown "B") .zero, .register 1]

/-- A topic for some channels. -/
def sampleTopic (path channels : String) : Topic :=
  ⟨path, Table.ofList [(Filter.channelsParam, channels)]⟩

/-- A course in which a first pass has opened a poller for one signal. -/
def sampleTurns : List Turn := [.pass Hub.serve false [sampleTopic "/daq" "A"]]

/-- A topic that names two signals twice, one of another service, and one that cannot be read. -/
def sampleTopics : List Topic :=
  [sampleTopic "/daq" "B,C,B,C", sampleTopic "/other" "A",
    ⟨"/daq", Table.ofList [(Filter.preParam, "many")]⟩]

/-- In a second pass the poller of `B` replaces the one of `A`, and the two requests for `C` are
refused as unknown. -/
theorem pass_exact_sample :
    let c := run "/daq" sampleHub sampleTurns
    let r' := (c.reconciler.pass Hub.serve false c.hub sampleTopics).reconciler
    .continuous "B" ∈ r'.keySet ∧ .continuous "A" ∉ r'.keySet ∧
      r'.counters.refused .unknown = 2 ∧ r'.counters.skippedSubscriptions = 1 := by
  intro c r'
  have hlawful : ∀ t ∈ sampleTurns, t.Lawful := by
    intro t ht
    obtain rfl := List.mem_singleton.mp ht
    exact Hub.lawful_serve
  have hw : sampleHub.WellFormed :=
    (Hub.evolves_performAll _ _).wellFormed (Hub.wellFormed_empty _)
  have hsound := (kept_run "/daq" hw hlawful).sound
  have hpass :=
    pass_exact "/daq" sampleHub hw sampleTurns hlawful Hub.serve Hub.lawful_serve false sampleTopics
      (fun k => refusal? (c.hub.serve k)) (Reconciler.answersAs_serve hsound false sampleTopics)
  dsimp only at hpass
  obtain ⟨hkeys, -, -, -, -, hskipped, hrefused, -, -⟩ := hpass
  refine ⟨?_, ?_, ?_, ?_⟩
  · rw [hkeys]
    refine ⟨?_, .inr ⟨rfl, ?_⟩⟩
    · decide +kernel
    · decide +kernel
  · rw [hkeys]
    rintro ⟨hA, -⟩
    revert hA
    decide +kernel
  · rw [hrefused]
    decide +kernel
  · rw [hskipped]
    decide +kernel

end Course

end Daq
