import Daq.Proofs.Hub.Evolution
import Daq.Reconciler

set_option autoImplicit false

/-!
# What a consumer does to a hub

A consumer is granted a poller for a key, takes items from its queue and lets go of it in the end.
None of this touches the queue of another poller, and none of it undoes a stop.

## Main definitions

* `Daq.Hub.Serves` — a poller in use that delivers what a key asks for.
* `Daq.Hub.emptied` — the hub with the queue of a poller emptied.
* `Daq.Grant.Lawful` — a grant that hands out new pollers of the right kind.
* `Daq.Hub.Touched` — what remains of a hub when only its taps were touched.

## Main results

* `Daq.Hub.lawful_serve` — granting through the directory is lawful.
* `Daq.Hub.Serves.evolves` — a poller keeps serving, whatever the producers do.
* `Daq.Hub.items_emptied`, `Daq.Hub.items_release` — what a consumer does to the queues.
-/

namespace Daq

/-- Whether an item is a block. -/
def Item.isBlock : Item → Bool
  | .block _ => true
  | .capture _ => false

namespace Outlet

/-- The outlet with its queue emptied. -/
def emptied : Outlet → Outlet
  | .stream q => .stream { q with items := [] }
  | .captures o q => .captures o { q with items := [] }

/-- Emptying leaves nothing. -/
@[simp]
lemma items_emptied (o : Outlet) : o.emptied.items = [] := by cases o <;> rfl

/-- Emptying keeps the flag. -/
@[simp]
lemma finished_emptied (o : Outlet) : o.emptied.finished = o.finished := by cases o <;> rfl

/-- Emptying keeps the kind. -/
@[simp]
lemma isStream_emptied (o : Outlet) : o.emptied.isStream = o.isStream := by cases o <;> rfl

/-- A queue holds items of its kind. -/
lemma isBlock_of_mem {o : Outlet} {x : Item} (hx : x ∈ o.items) : x.isBlock = o.isStream := by
  cases o with
  | stream q =>
    obtain ⟨b, -, rfl⟩ := List.mem_map.mp hx
    rfl
  | captures w q =>
    obtain ⟨c, -, rfl⟩ := List.mem_map.mp hx
    rfl

/-- An outlet as a request asks for it passes blocks on exactly if the request says so. -/
lemma isStream_outletFor {s : Sink} {capacity : Nat} {k : PollerKey} {o : Outlet}
    (h : s.outletFor capacity (Hub.requestOf k) = .ok o) : o.isStream = !k.mode.isDataset := by
  obtain ⟨mode, signal, pre, post, window, delay, trigger⟩ := k
  cases mode with
  | continuous =>
    cases h
    rfl
  | triggered =>
    simp only [Hub.requestOf, Sink.outletFor] at h
    split at h
    · cases h
    · cases h
      rfl
  | multiplexed =>
    cases h
    rfl
  | snapshot =>
    cases h
    rfl

end Outlet

namespace Hub

/-! ### Changes of taps -/

/-- What remains of a hub when taps were touched, but no tap was attached and no producer acted. -/
structure Touched (h h' : Hub) : Prop where
  /-- No queue was finished. -/
  wellFormed : h.WellFormed → h'.WellFormed
  /-- The same sinks have stopped. -/
  isStopped : ∀ i, h'.IsStopped i ↔ h.IsStopped i
  /-- The same pollers were attached. -/
  attached : ∀ p, h'.Attached p ↔ h.Attached p

/-- Touching nothing. -/
lemma Touched.refl (h : Hub) : h.Touched h := ⟨id, fun _ => Iff.rfl, fun _ => Iff.rfl⟩

/-- Touching taps one after the other. -/
lemma Touched.trans {h h' h'' : Hub} (t : h.Touched h') (t' : h'.Touched h'') : h.Touched h'' :=
  ⟨t'.wellFormed ∘ t.wellFormed, fun i => (t'.isStopped i).trans (t.isStopped i),
    fun p => (t'.attached p).trans (t.attached p)⟩

/-- A property of single sinks that a change of one sink keeps. -/
lemma exists_getElem?_modify (h : Hub) (i j : Nat) (f : Sink → Sink) (P : Sink → Prop)
    (hP : ∀ s, P (f s) ↔ P s) :
    (∃ s, (h.modify i f).sinks[j]? = some s ∧ P s) ↔ ∃ s, h.sinks[j]? = some s ∧ P s := by
  rw [getElem?_modify]
  by_cases hij : j = i
  · rw [if_pos hij]
    cases h.sinks[j]? with
    | none => simp
    | some s => simp [hP]
  · rw [if_neg hij]

/-- Touching one tap without finishing its queue. -/
lemma touched_modifyTap (h : Hub) (p : PollerRef) (f : Tap → Tap) (hid : ∀ t, (f t).id = t.id)
    (hfin : ∀ t, h.tap? p = some t → (f t).outlet.finished = true → t.outlet.finished = true) :
    h.Touched (h.modifyTap p f) := by
  refine ⟨?_, ?_, ?_⟩
  · intro hw s' hs'
    obtain ⟨j, hj⟩ := List.mem_iff_getElem?.mp hs'
    unfold modifyTap at hj
    rw [getElem?_modify] at hj
    by_cases hij : j = p.sink
    · rw [if_pos hij] at hj
      obtain ⟨s, hs, rfl⟩ := Option.map_eq_some_iff.mp hj
      apply (hw s (List.mem_of_getElem? hs)).modifyTap p.tap f hid
      intro t ht
      exact hfin t (tap?_eq_some.mpr ⟨s, by rw [← hij, hs], ht⟩)
    · rw [if_neg hij] at hj
      exact hw s' (List.mem_of_getElem? hj)
  · intro i
    exact exists_getElem?_modify h _ i _ (fun s => s.stopped = true) fun s => Iff.rfl
  · intro q
    exact exists_getElem?_modify h _ q.sink _ (fun s => q.tap < s.attached) fun s => Iff.rfl

/-! ### Pollers in use -/

/-- A poller in use that delivers what a key asks for: blocks for a continuous key, captures for
the others. -/
def Serves (h : Hub) (k : PollerKey) (p : PollerRef) : Prop :=
  ∃ t, h.tap? p = some t ∧ t.released = false ∧ t.outlet.isStream = !k.mode.isDataset

section Serves

variable {h h' : Hub} {k : PollerKey} {p q : PollerRef}

/-- **A poller keeps serving, whatever the producers do.** -/
lemma Serves.evolves (hs : h.Serves k p) (e : h.Evolves h') : h'.Serves k p := by
  obtain ⟨t, ht, hr, hk⟩ := hs
  obtain ⟨t', ht', hr', hk', -⟩ := e.keeps ht hr
  exact ⟨t', ht', hr', hk'.trans hk⟩

/-- The queue of a poller only grows at its end, whatever the producers do. -/
lemma Serves.items_grow (hs : h.Serves k p) (e : h.Evolves h') : h.items p <+: h'.items p := by
  obtain ⟨t, ht, hr, -⟩ := hs
  obtain ⟨t', ht', -, -, hp⟩ := e.keeps ht hr
  simpa [items, ht, ht'] using hp

/-- A poller that serves was attached. -/
lemma Serves.attached (hs : h.Serves k p) (hw : h.WellFormed) : h.Attached p := by
  by_contra hn
  obtain ⟨t, ht, -⟩ := hs
  rw [tap?_eq_none hw hn] at ht
  cases ht

/-- A poller holds items of the kind that its key asks for. -/
lemma Serves.isBlock_of_mem (hs : h.Serves k p) {x : Item} (hx : x ∈ h.items p) :
    x.isBlock = !k.mode.isDataset := by
  obtain ⟨t, ht, -, hk⟩ := hs
  rw [items, ht] at hx
  exact (Outlet.isBlock_of_mem hx).trans hk

/-- A touched tap serves as before unless it was released or changed its kind. -/
lemma Serves.modifyTap (hs : h.Serves k q) (f : Tap → Tap) (hid : ∀ t, (f t).id = t.id)
    (hf : q = p → ∀ t, h.tap? p = some t →
      (f t).released = t.released ∧ (f t).outlet.isStream = t.outlet.isStream) :
    (h.modifyTap p f).Serves k q := by
  obtain ⟨t, ht, hr, hk⟩ := hs
  by_cases hqp : q = p
  · subst hqp
    obtain ⟨hrel, hkind⟩ := hf rfl t ht
    exact ⟨f t, by rw [tap?_modifyTap h q q f hid]; simp [ht], hrel.trans hr, hkind.trans hk⟩
  · exact ⟨t, by rw [tap?_modifyTap h p q f hid, if_neg hqp, ht], hr, hk⟩

end Serves

/-! ### Taking items -/

/-- What remains of a hub when items were taken from the queue of one poller. -/
structure Consumed (h h' : Hub) (p : PollerRef) : Prop extends Touched h h' where
  /-- The other queues are as before. -/
  others : ∀ q, q ≠ p → h'.items q = h.items q
  /-- Every poller serves as before. -/
  serves : ∀ k q, h.Serves k q → h'.Serves k q

/-- Replacing the outlet of a tap by one of its kind with its flag only consumes items. -/
lemma consumed_modifyTap (h : Hub) (p : PollerRef) (f : Outlet → Outlet)
    (hfin : ∀ t, h.tap? p = some t → (f t.outlet).finished = t.outlet.finished)
    (hkind : ∀ t, h.tap? p = some t → (f t.outlet).isStream = t.outlet.isStream) :
    h.Consumed (h.modifyTap p fun t => { t with outlet := f t.outlet }) p where
  toTouched := touched_modifyTap h p _ (fun _ => rfl) fun t ht hf => by rw [← hfin t ht, ← hf]
  others q hq := by
    unfold items
    rw [tap?_modifyTap]
    · rw [if_neg hq]
    · intro t
      rfl
  serves k q hs := hs.modifyTap _ (fun _ => rfl) fun _ t ht => ⟨rfl, hkind t ht⟩

/-- Taking the oldest item succeeds unless there is none, takes it from the front, and only consumes
that item. -/
lemma pop?_consumed (h : Hub) (p : PollerRef) :
    (h.items p = [] ∧ h.pop? p = none) ∨
      ∃ x h', h.pop? p = some (x, h') ∧ h.items p = x :: h'.items p ∧ h.Consumed h' p := by
  rcases h.pop?_eq p with hnone | ⟨x, o, hpop, hi, ho⟩
  · exact .inl hnone
  · refine .inr ⟨x, _, hpop, ?_, ?_⟩
    · rw [hi, items_modifyTap_outlet, if_pos rfl]
      cases ht : h.tap? p with
      | none => simp [items, ht] at hi
      | some t => rfl
    · exact consumed_modifyTap h p (fun _ => o) (fun t ht => (ho t ht).2) fun t ht => (ho t ht).1

/-- The hub with the queue of a poller emptied. -/
def emptied (h : Hub) (p : PollerRef) : Hub :=
  h.modifyTap p fun t => { t with outlet := t.outlet.emptied }

/-- Emptying a queue only consumes its items. -/
lemma consumed_emptied (h : Hub) (p : PollerRef) : h.Consumed (h.emptied p) p :=
  consumed_modifyTap h p Outlet.emptied (fun t _ => t.outlet.finished_emptied)
    fun t _ => t.outlet.isStream_emptied

/-- An emptied queue holds nothing. -/
@[simp]
lemma items_emptied (h : Hub) (p : PollerRef) : (h.emptied p).items p = [] := by
  unfold emptied items
  rw [tap?_modifyTap]
  · rw [if_pos rfl]
    cases h.tap? p with
    | none => rfl
    | some t => exact t.outlet.items_emptied
  · intro t
    rfl

/-- A change of one tap that keeps its flag changes no flag. -/
lemma finished_modifyTap (h : Hub) (p q : PollerRef) (f : Tap → Tap) (hid : ∀ t, (f t).id = t.id)
    (hfin : ∀ t, (f t).outlet.finished = t.outlet.finished) :
    (h.modifyTap p f).finished q = h.finished q := by
  unfold finished
  rw [tap?_modifyTap h p q f hid]
  split
  · cases h.tap? q with
    | none => rfl
    | some t => exact hfin t
  · rfl

/-- Emptying a queue changes no flag. -/
@[simp]
lemma finished_emptied (h : Hub) (p q : PollerRef) : (h.emptied p).finished q = h.finished q :=
  h.finished_modifyTap p q _ (fun _ => rfl) fun t => t.outlet.finished_emptied

/-! ### Letting go -/

/-- Letting go of a poller finishes nothing. -/
lemma touched_release (h : Hub) (p : PollerRef) : h.Touched (h.release p) :=
  touched_modifyTap h p _ (fun _ => rfl) fun _ _ hf => hf

/-- Letting go of a poller leaves the queues as they are. -/
@[simp]
lemma items_release (h : Hub) (p q : PollerRef) : (h.release p).items q = h.items q := by
  unfold release items
  rw [tap?_modifyTap]
  · split
    · cases h.tap? q <;> rfl
    · rfl
  · intro t
    rfl

/-- Letting go of several pollers finishes nothing. -/
lemma touched_releaseAll (ps : List PollerRef) (h : Hub) : h.Touched (ps.foldl release h) := by
  induction ps generalizing h with
  | nil => exact .refl h
  | cons p ps ih => exact (h.touched_release p).trans (ih (h.release p))

/-- Letting go of several pollers leaves the queues as they are. -/
@[simp]
lemma items_releaseAll (ps : List PollerRef) (h : Hub) (q : PollerRef) :
    (ps.foldl release h).items q = h.items q := by
  induction ps generalizing h with
  | nil => rfl
  | cons p ps ih => exact (ih (h.release p)).trans (h.items_release p q)

/-- Letting go of several pollers changes no flag. -/
@[simp]
lemma finished_releaseAll (ps : List PollerRef) (h : Hub) (q : PollerRef) :
    (ps.foldl release h).finished q = h.finished q := by
  induction ps generalizing h with
  | nil => rfl
  | cons p ps ih =>
    exact (ih (h.release p)).trans (h.finished_modifyTap p q _ (fun _ => rfl) fun _ => rfl)

/-- The pollers that are kept serve as before. -/
lemma Serves.releaseAll {k : PollerKey} {q : PollerRef} (ps : List PollerRef) (hq : q ∉ ps)
    {h : Hub} (hs : h.Serves k q) : (ps.foldl release h).Serves k q := by
  induction ps generalizing h with
  | nil => exact hs
  | cons p ps ih =>
    rw [List.mem_cons, not_or] at hq
    exact ih hq.2 (hs.modifyTap _ (fun _ => rfl) fun hqp => absurd hqp hq.1)

end Hub

/-! ### Grants -/

/-- A grant that hands out a new poller of the kind that the key asks for, with an empty queue, and
does not touch the other pollers. -/
def Grant.Lawful (grant : Grant) : Prop :=
  ∀ (h h' : Hub) (k : PollerKey) (p : PollerRef), h.WellFormed → grant h k = .ok (p, h') →
    h.Evolves h' ∧ ¬ h.Attached p ∧ h'.Serves k p ∧ ∀ q, h'.items q = h.items q

namespace Hub

/-- Attaching a poller hands out a number that was not given away, with an empty queue. -/
lemma attach_spec {h h' : Hub} (hw : h.WellFormed) {sink capacity : Nat} {k : PollerKey}
    {p : PollerRef} (ha : h.attach sink capacity (requestOf k) = .ok (p, h')) :
    ¬ h.Attached p ∧ h'.Serves k p ∧ ∀ q, h'.items q = h.items q := by
  unfold attach at ha
  cases hs : h.sinks[sink]? with
  | none => simp [hs] at ha
  | some s =>
    simp only [hs] at ha
    cases hat : s.attach capacity (requestOf k) with
    | error e => simp [hat] at ha
    | ok x =>
      obtain ⟨id, s'⟩ := x
      simp only [hat, Except.ok.injEq, Prod.mk.injEq] at ha
      obtain ⟨rfl, rfl⟩ := ha
      have hws := hw s (List.mem_of_getElem? hs)
      have hid := (Sink.attach_eq_ok hat).1
      obtain ⟨t, htap, hrel, hitems, o, ho, hkind⟩ := (Sink.tap?_attach hws hat id).2
      have hsink : ∀ j, (h.modify sink fun _ => s').sinks[j]? =
          if j = sink then some s' else h.sinks[j]? := by
        intro j
        rw [getElem?_modify]
        by_cases hj : j = sink
        · simp [hj, hs]
        · simp [hj]
      refine ⟨?_, ?_, ?_⟩
      · rintro ⟨u, hu, hlt⟩
        dsimp only at hu hlt
        rw [hs] at hu
        cases hu
        omega
      · refine ⟨t, ?_, hrel, hkind.trans (Outlet.isStream_outletFor ho)⟩
        exact tap?_eq_some.mpr ⟨s', by rw [hsink, if_pos rfl], htap⟩
      · intro q
        unfold items tap?
        rw [hsink]
        by_cases hq : q.sink = sink
        · rw [if_pos hq, hq, hs]
          simp only [Option.bind_some]
          by_cases hqid : q.tap = id
          · rw [hqid, htap, s.tap?_eq_none hws (by omega)]
            exact hitems
          · rw [(Sink.tap?_attach hws hat q.tap).1 hqid]
        · rw [if_neg hq]

/-- A key for captures stands for its request. -/
lemma captureRequest_eq_ok {k : PollerKey} (hk : k.mode.isDataset = true) :
    captureRequest k = .ok (requestOf k) := by
  unfold captureRequest
  cases hm : k.mode with
  | continuous =>
    rw [hm] at hk
    cases hk
  | triggered => rfl
  | multiplexed => rfl
  | snapshot => rfl

/-- A key is served by the request that it stands for. -/
lemma serve_eq (h : Hub) (k : PollerKey) : h.serve k = h.request k.signal (requestOf k) := by
  unfold serve
  split
  · rename_i hk
    rw [captureRequest_eq_ok hk]
    rfl
  · rfl

/-- A request that the directory grants attaches a tap to the sink of the signal. -/
lemma serve_eq_ok {h h' : Hub} {k : PollerKey} {p : PollerRef} (hok : h.serve k = .ok (p, h')) :
    ∃ s s', h.lookup? k.signal = some p.sink ∧ h.sinks[p.sink]? = some s ∧
      s.attach (h.capacityFor (requestOf k)) (requestOf k) = .ok (p.tap, s') ∧
      h' = h.modify p.sink fun _ => s' := by
  rw [serve_eq] at hok
  unfold request at hok
  cases hl : h.lookup? k.signal with
  | none => simp [hl] at hok
  | some sink =>
    simp only [hl, attach] at hok
    cases hs : h.sinks[sink]? with
    | none => simp [hs] at hok
    | some s =>
      simp only [hs] at hok
      cases hat : s.attach (h.capacityFor (requestOf k)) (requestOf k) with
      | error e => simp [hat] at hok
      | ok x =>
        simp only [hat, Except.ok.injEq, Prod.mk.injEq] at hok
        obtain ⟨rfl, rfl⟩ := hok
        exact ⟨s, x.2, rfl, hs, hat, rfl⟩

/-- The producer of a new poller has ended exactly if its sink has stopped, and for the other pollers
it is as before. -/
lemma finished_serve {h h' : Hub} (hw : h.WellFormed) {k : PollerKey} {p : PollerRef}
    (hok : h.serve k = .ok (p, h')) :
    (h.sinks[p.sink]?).map (fun s => s.stopped) = some (h'.finished p) ∧
      ∀ q, q ≠ p → h'.finished q = h.finished q := by
  obtain ⟨s, s', -, hs, hat, rfl⟩ := serve_eq_ok hok
  have hws := hw s (List.mem_of_getElem? hs)
  obtain ⟨t, ht, hfin⟩ := Sink.finished_attach hws hat
  have hsink : ∀ j, (h.modify p.sink fun _ => s').sinks[j]? =
      if j = p.sink then some s' else h.sinks[j]? := by
    intro j
    rw [getElem?_modify]
    by_cases hj : j = p.sink
    · simp [hj, hs]
    · simp [hj]
  refine ⟨?_, fun q hq => ?_⟩
  · simp [finished, tap?, hsink, hs, ht, hfin]
  · unfold finished tap?
    rw [hsink]
    by_cases hqs : q.sink = p.sink
    · have htap : q.tap ≠ p.tap := fun htap => hq ((PollerRef.eq_iff hqs).mpr htap)
      rw [if_pos hqs, hqs, hs, Option.bind_some, Option.bind_some,
        (Sink.tap?_attach hws hat q.tap).1 htap]
    · rw [if_neg hqs]

/-- **Granting through the directory is lawful.** -/
theorem lawful_serve : Grant.Lawful Hub.serve := by
  intro h h' k p hw hg
  rw [serve_eq] at hg
  unfold request at hg
  split at hg
  · cases hg
  · exact ⟨evolves_attach hg, attach_spec hw hg⟩

end Hub

end Daq
