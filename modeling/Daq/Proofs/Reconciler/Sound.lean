import Daq.Proofs.Reconciler.Entries

set_option autoImplicit false

/-!
# Sound reconcilers

A reconciler is sound with a hub if every key is filed by its mode and has a poller of its own that
is in use and delivers what the key asks for. Every step of a reconciler keeps this, and so does
everything that producers do to the hub in between.

## Main definitions

* `Daq.Reconciler.Sound` — what reconciler and hub have in common at any time.

## Main results

* `Daq.Reconciler.Sound.evolves` — producers keep a reconciler sound.
* `Daq.Reconciler.Sound.ensure`, `Daq.Reconciler.Sound.serve`, `Daq.Reconciler.Sound.visit` — so do
  the parts of a pass.
* `Daq.Reconciler.Sound.evict`, `Daq.Reconciler.Sound.clear` — so does letting go of pollers.
* `Daq.Pass.serve_eq` — what a visit does to a sound reconciler.
-/

namespace Daq

namespace Reconciler

/-- Every key is filed by its mode and has a poller of its own that serves it. -/
structure Sound (r : Reconciler) (h : Hub) : Prop where
  /-- The hub is well-formed. -/
  wellFormed : h.WellFormed
  /-- Every key is in the table of its mode. -/
  filed : r.Filed
  /-- Every entry has a poller that serves its key. -/
  serves : ∀ k e, r.held? k = some e → h.Serves k e.poller
  /-- No two keys share a poller. -/
  distinct : ∀ k j e f, r.held? k = some e → r.held? j = some f → e.poller = f.poller → k = j

/-- A reconciler without pollers is sound. -/
lemma sound_empty (service : String) {h : Hub} (hw : h.WellFormed) :
    ({ service } : Reconciler).Sound h := by
  refine ⟨hw, filed_empty service, ?_, ?_⟩
  · intro k e he
    rw [held?_empty] at he
    cases he
  · intro k j e f he
    rw [held?_empty] at he
    cases he

namespace Sound

variable {r r' : Reconciler} {h h' : Hub}

/-- Producers keep a reconciler sound. -/
lemma evolves (hs : r.Sound h) (e : h.Evolves h') : r.Sound h' :=
  ⟨e.wellFormed hs.wellFormed, hs.filed, fun k x hx => (hs.serves k x hx).evolves e, hs.distinct⟩

/-- Taking items keeps a reconciler sound. -/
lemma consumed (hs : r.Sound h) {p : PollerRef} (c : h.Consumed h' p) : r.Sound h' :=
  ⟨c.wellFormed hs.wellFormed, hs.filed, fun k x hx => c.serves k _ (hs.serves k x hx), hs.distinct⟩

/-- Notes about entries keep a reconciler sound: what counts is the pollers. -/
lemma of_pollers (hs : r.Sound h) (hf : r'.Filed)
    (hp : ∀ k e, r'.held? k = some e → ∃ e₀, r.held? k = some e₀ ∧ e₀.poller = e.poller) :
    r'.Sound h := by
  refine ⟨hs.wellFormed, hf, ?_, ?_⟩
  · intro k e he
    obtain ⟨e₀, he₀, hpol⟩ := hp k e he
    rw [← hpol]
    exact hs.serves k e₀ he₀
  · intro k j e f he hf' hef
    obtain ⟨e₀, he₀, hpol⟩ := hp k e he
    obtain ⟨f₀, hf₀, hpol'⟩ := hp j f hf'
    exact hs.distinct k j e₀ f₀ he₀ hf₀ (by rw [hpol, hpol', hef])

/-- Counting keeps a reconciler sound. -/
lemma count (hs : r.Sound h) (f : Counters → Counters) : (r.count f).Sound h :=
  hs.of_pollers ⟨hs.filed.streams, hs.filed.captures⟩ fun _ e he => ⟨e, he, rfl⟩

/-- Removing marks keeps a reconciler sound. -/
lemma markUnused (hs : r.Sound h) : r.markUnused.Sound h := by
  apply hs.of_pollers hs.filed.markUnused
  intro k e he
  rw [held?_markUnused] at he
  obtain ⟨e₀, he₀, rfl⟩ := Option.map_eq_some_iff.mp he
  exact ⟨e₀, he₀, rfl⟩

/-- A mark keeps a reconciler sound. -/
lemma mark (hs : r.Sound h) (k : PollerKey) : (r.mark k).Sound h := by
  apply hs.of_pollers (hs.filed.mark k)
  intro j e he
  rw [held?_mark] at he
  by_cases hjk : j = k
  · rw [if_pos hjk] at he
    obtain ⟨e₀, he₀, rfl⟩ := Option.map_eq_some_iff.mp he
    exact ⟨e₀, by rw [hjk, he₀], rfl⟩
  · rw [if_neg hjk] at he
    exact ⟨e, he, rfl⟩

/-- A report keeps a reconciler sound. -/
lemma report (hs : r.Sound h) {k : PollerKey} {e : Entry} (he : r.held? k = some e) (d : Descriptor)
    (hd : k.mode.isDataset = true → d = e.reported) : (r.report k d).Sound h := by
  apply hs.of_pollers (hs.filed.report k d)
  intro j f hf
  rw [held?_report r k j he d hd] at hf
  by_cases hjk : j = k
  · rw [if_pos hjk] at hf
    cases hf
    exact ⟨e, by rw [hjk, he], rfl⟩
  · rw [if_neg hjk] at hf
    exact ⟨f, hf, rfl⟩

/-- A new poller that was granted lawfully keeps a reconciler sound. -/
lemma enter (hs : r.Sound h) {grant : Grant} (hg : grant.Lawful) {k : PollerKey} {p : PollerRef}
    (hok : grant h k = .ok (p, h')) : (r.enter k p).Sound h' := by
  obtain ⟨hev, hnew, hserves, -⟩ := hg h h' k p hs.wellFormed hok
  have hother : ∀ j e, r.held? j = some e → e.poller ≠ p := by
    rintro j e he rfl
    exact hnew ((hs.serves j e he).attached hs.wellFormed)
  refine ⟨hev.wellFormed hs.wellFormed, hs.filed.enter k p, ?_, ?_⟩
  · intro j e he
    rw [held?_enter] at he
    by_cases hjk : j = k
    · rw [if_pos hjk] at he
      cases he
      rw [hjk]
      exact hserves
    · rw [if_neg hjk] at he
      exact (hs.serves j e he).evolves hev
  · intro i j e f he hf hef
    rw [held?_enter] at he hf
    by_cases hik : i = k <;> by_cases hjk : j = k
    · rw [hik, hjk]
    · rw [if_pos hik] at he
      rw [if_neg hjk] at hf
      cases he
      exact absurd hef.symm (hother j f hf)
    · rw [if_neg hik] at he
      rw [if_pos hjk] at hf
      cases hf
      exact absurd hef (hother i e he)
    · rw [if_neg hik] at he
      rw [if_neg hjk] at hf
      exact hs.distinct i j e f he hf hef

/-- The sweep lets go of pollers that no kept entry has, so it keeps a reconciler sound. -/
lemma evict (hs : r.Sound h) : (r.evict h).1.Sound (r.evict h).2 := by
  have hkept : ∀ k e, (r.evict h).1.held? k = some e → r.held? k = some e ∧ e.inUse = true := by
    intro k e he
    rw [held?_evict, Option.filter_eq_some_iff] at he
    exact he
  refine ⟨(h.touched_releaseAll r.stale).wellFormed hs.wellFormed, hs.filed.evict h, ?_, ?_⟩
  · intro k e he
    obtain ⟨hin, huse⟩ := hkept k e he
    refine Hub.Serves.releaseAll r.stale ?_ (hs.serves k e hin)
    intro hmem
    obtain ⟨j, f, hf, hpol, hstale⟩ := (mem_stale hs.filed _).mp hmem
    obtain rfl := hs.distinct j k f e hf hin hpol
    rw [hin] at hf
    cases hf
    rw [huse] at hstale
    cases hstale
  · intro k j e f he hf
    exact hs.distinct k j e f (hkept k e he).1 (hkept j f hf).1

/-- Letting go of all pollers leaves a sound reconciler. -/
lemma clear (hs : r.Sound h) : (r.clear h).1.Sound (r.clear h).2 := by
  refine ⟨(h.touched_releaseAll r.pollers).wellFormed hs.wellFormed, filed_clear r h, ?_, ?_⟩
  · intro k e he
    rw [held?_clear] at he
    cases he
  · intro k j e f he
    rw [held?_clear] at he
    cases he

end Sound

end Reconciler

/-! ### The parts of a pass -/

namespace Pass

/-- What a visit does if the key has an entry: the entry is marked, its items are answered, and its
queue is emptied. -/
lemma serve_eq {p : Pass} (hs : p.reconciler.Sound p.hub) {v : Visit} {e : Entry}
    (he : p.reconciler.held? v.key = some e) :
    p.serve v =
      let rs := answers e.reported (p.hub.items e.poller)
      { reconciler := ((p.reconciler.mark v.key).report v.key rs.2).count fun n =>
          { n with notifications := n.notifications + rs.1.length }
        hub := p.hub.emptied e.poller
        finished := p.finished && p.hub.finished e.poller
        notifications := p.notifications ++ rs.1.map fun reply => ⟨v.filter, reply⟩ } := by
  unfold serve
  rw [Reconciler.collect_eq hs.wellFormed he (hs.serves v.key e he)]

/-- A visit to a key without an entry does nothing. -/
lemma serve_eq_self {p : Pass} {v : Visit} (he : p.reconciler.held? v.key = none) :
    p.serve v = p := by
  unfold serve
  rw [Reconciler.collect_eq_none p.hub he]

/-- The entries after a visit: the mark and the report are noted, nothing else changes. -/
lemma held?_serve {p : Pass} (hs : p.reconciler.Sound p.hub) {v : Visit} {e : Entry}
    (he : p.reconciler.held? v.key = some e) (j : PollerKey) :
    (p.serve v).reconciler.held? j =
      if j = v.key then
        some ⟨e.poller, true, (answers e.reported (p.hub.items e.poller)).2⟩
      else p.reconciler.held? j := by
  rw [serve_eq hs he]
  have hmark := p.reconciler.held?_mark_of_some v.key v.key he
  rw [if_pos rfl] at hmark
  dsimp only
  rw [Reconciler.held?_count, Reconciler.held?_report _ _ j hmark _ fun hk =>
    answers_snd_of_isDataset _ hk fun _ hx => (hs.serves v.key e he).isBlock_of_mem hx]
  by_cases hj : j = v.key
  · rw [if_pos hj, if_pos hj]
  · rw [if_neg hj, if_neg hj, Reconciler.held?_mark, if_neg hj]

end Pass

namespace Reconciler.Sound

/-- No poller is listed twice. -/
lemma nodup_pollers {r : Reconciler} {h : Hub} (hs : r.Sound h) : r.pollers.Nodup := by
  unfold pollers
  refine List.nodup_append.mpr ⟨?_, ?_, ?_⟩
  · refine r.streams.nodup_values_map _ fun k j e f he hf hef => ?_
    exact hs.distinct k j _ _ (held?_of_streams hs.filed he) (held?_of_streams hs.filed hf) hef
  · refine r.captures.nodup_values_map _ fun k j e f he hf hef => ?_
    exact hs.distinct k j _ _ (held?_of_captures hs.filed he) (held?_of_captures hs.filed hf) hef
  · rintro p hp q hq rfl
    obtain ⟨e, he, rfl⟩ := List.mem_map.mp hp
    obtain ⟨f, hf, hef⟩ := List.mem_map.mp hq
    obtain ⟨k, hk⟩ := (Table.mem_values _ _).mp he
    obtain ⟨j, hj⟩ := (Table.mem_values _ _).mp hf
    obtain rfl := hs.distinct k j _ _ (held?_of_streams hs.filed hk) (held?_of_captures hs.filed hj)
      hef.symm
    -- A key cannot be in both tables.
    have hstream := hs.filed.streams k ((r.streams.mem_keys k).mpr (by rw [hk]; rfl))
    rw [hs.filed.captures k ((r.captures.mem_keys k).mpr (by rw [hj]; rfl))] at hstream
    cases hstream

/-- The beginning of a pass keeps a reconciler sound. -/
lemma begin {r : Reconciler} {h : Hub} (hs : r.Sound h) (topics : List Topic) :
    (r.begin h topics).reconciler.Sound (r.begin h topics).hub :=
  hs.markUnused.count fun c =>
    { c with
      passes := c.passes + 1
      skippedSubscriptions := c.skippedSubscriptions + unreadableCount r.service topics }

variable {p : Pass}

/-- Opening a missing poller keeps a reconciler sound. -/
lemma ensure (hs : p.reconciler.Sound p.hub) {grant : Grant} (hg : grant.Lawful) (flush : Bool)
    (k : PollerKey) :
    (p.ensure grant flush k).reconciler.Sound (p.ensure grant flush k).hub := by
  obtain ⟨-, heq⟩ | ⟨-, -, e, -, heq⟩ | ⟨-, -, q, h', hok, heq⟩ := p.ensure_cases grant flush k
  · rwa [heq]
  · rw [heq]
    exact hs.count fun c => c.refuse e
  · rw [heq]
    exact hs.enter hg hok

/-- Serving a visit keeps a reconciler sound. -/
lemma serve (hs : p.reconciler.Sound p.hub) (v : Visit) :
    (p.serve v).reconciler.Sound (p.serve v).hub := by
  cases he : p.reconciler.held? v.key with
  | none =>
    rw [Pass.serve_eq_self he]
    exact hs
  | some e =>
    have hmark := p.reconciler.held?_mark_of_some v.key v.key he
    rw [if_pos rfl] at hmark
    rw [Pass.serve_eq hs he]
    dsimp only
    have hmarked := (hs.consumed (p.hub.consumed_emptied e.poller)).mark v.key
    have hreported := hmarked.report hmark (answers e.reported (p.hub.items e.poller)).2 fun hk =>
      answers_snd_of_isDataset _ hk fun _ hx => (hs.serves v.key e he).isBlock_of_mem hx
    exact hreported.count _

/-- **A visit keeps a reconciler sound.** -/
theorem visit (hs : p.reconciler.Sound p.hub) {grant : Grant} (hg : grant.Lawful) (flush : Bool)
    (v : Visit) :
    (p.visit grant flush v).reconciler.Sound (p.visit grant flush v).hub :=
  (hs.ensure hg flush v.key).serve v

end Reconciler.Sound

/-! ### Pollers that are there -/

namespace Pass

variable {p : Pass} (hs : p.reconciler.Sound p.hub) {k : PollerKey} {e : Entry}
  (he : p.reconciler.held? k = some e) (grant : Grant) (flush : Bool)

include he in
/-- A request replaces no poller that is there. -/
lemma held?_ensure (j : PollerKey) : (p.ensure grant flush j).reconciler.held? k = some e := by
  obtain ⟨-, heq⟩ | ⟨-, -, e, -, heq⟩ | ⟨hcon, -, q, h', -, heq⟩ := p.ensure_cases grant flush j
  · rwa [heq]
  · rwa [heq]
  · have hkj : k ≠ j := by
      rintro rfl
      rw [(p.reconciler.contains_eq_false_iff k).mp hcon] at he
      cases he
    rw [heq, Reconciler.held?_enter, if_neg hkj, he]

include hs he in
/-- A visit replaces no poller that is there. -/
lemma poller_serve (v : Visit) :
    ∃ e', (p.serve v).reconciler.held? k = some e' ∧ e'.poller = e.poller := by
  cases hv : p.reconciler.held? v.key with
  | none =>
    rw [serve_eq_self hv]
    exact ⟨e, he, rfl⟩
  | some f =>
    rw [held?_serve hs hv]
    split
    · rename_i hkv
      rw [hkv, hv, Option.some.injEq] at he
      exact ⟨_, rfl, by rw [← he]⟩
    · exact ⟨e, he, rfl⟩

include hs he in
/-- A walk replaces no poller that is there. -/
lemma poller_walk (hg : grant.Lawful) (vs : List Visit) :
    ∃ e', (vs.foldl (visit grant flush) p).reconciler.held? k = some e' ∧ e'.poller = e.poller := by
  induction vs generalizing p e with
  | nil => exact ⟨e, he, rfl⟩
  | cons v vs ih =>
    have hensured := held?_ensure he grant flush v.key
    obtain ⟨f, hf, hfe⟩ := poller_serve (hs.ensure hg flush v.key) hensured v
    obtain ⟨g, hg', hgf⟩ := ih (hs.visit hg flush v) hf
    exact ⟨g, hg', hgf.trans hfe⟩

end Pass

/-! ### The service -/

namespace Pass

/-- Opening a poller does not change the service. -/
lemma service_ensure (p : Pass) (grant : Grant) (flush : Bool) (k : PollerKey) :
    (p.ensure grant flush k).reconciler.service = p.reconciler.service := by
  obtain ⟨-, heq⟩ | ⟨-, -, e, -, heq⟩ | ⟨-, -, q, h', -, heq⟩ := p.ensure_cases grant flush k
  · rw [heq]
  · rw [heq]
    rfl
  · rw [heq]
    exact (p.reconciler.enter_counters k q).2

/-- What emptying a poller leaves alone, if there is one. -/
lemma collect_frame {r r' : Reconciler} {h h' : Hub} {k : PollerKey} {c : Collection}
    (hc : r.collect h k = some (c, r', h')) :
    r'.service = r.service ∧ r'.counters = r.counters ∧ h'.directory = h.directory ∧
      h'.sinks.length = h.sinks.length := by
  unfold Reconciler.collect at hc
  split at hc
  · simp only [Option.bind_eq_bind, Option.bind_eq_some_iff, Option.some.injEq,
      Prod.mk.injEq] at hc
    obtain ⟨e, -, q, -, -, rfl, rfl⟩ := hc
    exact ⟨rfl, rfl, rfl, h.length_sinks_modify e.poller.sink _⟩
  · simp only [Option.bind_eq_bind, Option.bind_eq_some_iff, Option.some.injEq,
      Prod.mk.injEq] at hc
    obtain ⟨e, -, q, -, -, rfl, rfl⟩ := hc
    exact ⟨rfl, rfl, rfl, h.length_sinks_modify e.poller.sink _⟩

/-- Serving a visit leaves the service and the directory alone; it counts notifications only, and no
sink is taken away. -/
lemma serve_frame (p : Pass) (v : Visit) :
    (p.serve v).reconciler.service = p.reconciler.service ∧
      (∃ n, (p.serve v).reconciler.counters =
        { p.reconciler.counters with notifications := n }) ∧
      (p.serve v).hub.directory = p.hub.directory ∧
      (p.serve v).hub.sinks.length = p.hub.sinks.length := by
  unfold serve
  split
  · exact ⟨rfl, ⟨_, rfl⟩, rfl, rfl⟩
  · rename_i c r' h' hc
    obtain ⟨hservice, hcounters, hdir, hlen⟩ := collect_frame hc
    refine ⟨hservice, ⟨p.reconciler.counters.notifications + c.replies.length, ?_⟩, hdir, hlen⟩
    dsimp only [Reconciler.count]
    rw [hcounters]

/-- A visit does not change the service. -/
lemma service_visit (p : Pass) (grant : Grant) (flush : Bool) (v : Visit) :
    (p.visit grant flush v).reconciler.service = p.reconciler.service :=
  ((p.ensure grant flush v.key).serve_frame v).1.trans (p.service_ensure grant flush v.key)

end Pass

namespace Reconciler

/-- The service of a reconciler does not change in a pass. -/
lemma service_pass (r : Reconciler) (grant : Grant) (flush : Bool) (h : Hub)
    (topics : List Topic) : (r.pass grant flush h topics).reconciler.service = r.service := by
  have hwalk : ∀ (vs : List Visit) (p : Pass),
      (vs.foldl (Pass.visit grant flush) p).reconciler.service = p.reconciler.service := by
    intro vs
    induction vs with
    | nil => exact fun p => rfl
    | cons v vs ih => exact fun p => (ih _).trans (p.service_visit grant flush v)
  exact hwalk _ _

end Reconciler

end Daq
