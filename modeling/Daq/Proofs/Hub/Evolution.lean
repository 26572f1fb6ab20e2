import Daq.Proofs.Hub.Taps

set_option autoImplicit false

/-!
# What producers do to a hub

Whoever holds a sink can push blocks into it and stop it, and sinks can be made, registered and
tapped. Consumers see a push as publications into one queue after the other and a stop as flags set
one after the other, so the single publications and flags are listed as well.

Whatever is done in this way, a queue in use only grows at its end, it does not grow any more once
its sink has stopped, and a sink stays stopped.

## Main definitions

* `Daq.Hub.Act`, `Daq.Hub.perform`, `Daq.Hub.performAll` — what producers can do.
* `Daq.Sink.Evolves`, `Daq.Hub.Evolves` — what becomes of taps and queues by it.

## Main results

* `Daq.Hub.evolves_perform`, `Daq.Hub.evolves_performAll` — every act is an evolution.
* `Daq.Hub.Evolves.trans` — evolutions compose.
* `Daq.Hub.isStopped_of_finished` — a finished queue belongs to a stopped sink.
-/

namespace Daq

/-! ### Sinks -/

namespace Sink

/-- What becomes of a sink while its taps are in the hands of their consumers. -/
structure Evolves (s s' : Sink) : Prop where
  /-- The sink stays well-formed. -/
  wellFormed : s.WellFormed → s'.WellFormed
  /-- Numbers of taps are given away once. -/
  attached_le : s.attached ≤ s'.attached
  /-- A sink stays stopped. -/
  stopped : s.stopped = true → s'.stopped = true
  /-- A tap in use stays, keeps its kind, and its queue grows at its end. -/
  keeps : ∀ i t, s.tap? i = some t → t.released = false →
    ∃ t', s'.tap? i = some t' ∧ t'.released = false ∧ t'.outlet.isStream = t.outlet.isStream ∧
      t.outlet.items <+: t'.outlet.items
  /-- No queue of a stopped sink changes. -/
  silent : s.WellFormed → s.stopped = true → ∀ i, s'.items i = s.items i

/-- Doing nothing is an evolution. -/
lemma Evolves.refl (s : Sink) : s.Evolves s where
  wellFormed := id
  attached_le := le_rfl
  stopped := id
  keeps _ t ht hr := ⟨t, ht, hr, rfl, List.prefix_rfl⟩
  silent _ _ _ := rfl

/-- Evolutions compose. -/
lemma Evolves.trans {s s' s'' : Sink} (h : s.Evolves s') (h' : s'.Evolves s'') :
    s.Evolves s'' where
  wellFormed := h'.wellFormed ∘ h.wellFormed
  attached_le := h.attached_le.trans h'.attached_le
  stopped := h'.stopped ∘ h.stopped
  keeps i t ht hr := by
    obtain ⟨t', ht', hr', hk', hp'⟩ := h.keeps i t ht hr
    obtain ⟨t'', ht'', hr'', hk'', hp''⟩ := h'.keeps i t' ht' hr'
    exact ⟨t'', ht'', hr'', hk''.trans hk', hp'.trans hp''⟩
  silent hw hs i := by
    rw [h'.silent (h.wellFormed hw) (h.stopped hs) i, h.silent hw hs i]

/-- A change of outlets that appends to the queues of a sink that has not stopped, or finishes
queues of one that then has. -/
lemma evolves_outlets {s : Sink} (f : Outlet → Outlet) (stopped : Bool)
    (hitems : ∀ o, o.items <+: (f o).items) (hkind : ∀ o, (f o).isStream = o.isStream)
    (hfin : ∀ o, (f o).finished = true → o.finished = true ∨ stopped = true)
    (hstop : s.stopped = true → stopped = true)
    (hsilent : s.stopped = true → ∀ o, (f o).items = o.items) :
    s.Evolves { s with
      stopped
      taps := s.taps.map fun t => { t with outlet := f t.outlet } } := by
  have htap : ∀ i, tap? { s with
      stopped
      taps := s.taps.map fun t => { t with outlet := f t.outlet } } i =
        (s.tap? i).map fun t => { t with outlet := f t.outlet } := by
    intro i
    exact find?_mapOutlets (fun t => { t with outlet := f t.outlet }) (fun _ => rfl) i s.taps
  refine ⟨?_, le_rfl, hstop, ?_, ?_⟩
  · intro hw
    refine ⟨?_, by simpa [List.map_map, Function.comp_def] using hw.nodup, ?_⟩
    · intro t ht
      obtain ⟨u, hu, rfl⟩ := List.mem_map.mp ht
      exact hw.id_lt u hu
    · intro t ht hf
      obtain ⟨u, hu, rfl⟩ := List.mem_map.mp ht
      rcases hfin _ hf with hf | hs
      · exact hstop (hw.stopped_of_finished u hu hf)
      · exact hs
  · intro i t ht hr
    refine ⟨{ t with outlet := f t.outlet }, ?_, hr, hkind _, hitems _⟩
    rw [htap, ht, Option.map_some]
  · intro _ hs i
    unfold items
    rw [htap]
    cases s.tap? i with
    | none => rfl
    | some t => exact hsilent hs t.outlet

/-- A change of one outlet, under the same conditions. -/
lemma evolves_modifyTap {s : Sink} (id : Nat) (f : Outlet → Outlet)
    (hitems : ∀ o, o.items <+: (f o).items) (hkind : ∀ o, (f o).isStream = o.isStream)
    (hfin : ∀ o, (f o).finished = true → o.finished = true ∨ s.stopped = true)
    (hsilent : s.stopped = true → ∀ o, (f o).items = o.items) :
    s.Evolves (s.modifyTap id fun t => { t with outlet := f t.outlet }) := by
  have hid : ∀ t : Tap, ({ t with outlet := f t.outlet } : Tap).id = t.id := fun _ => rfl
  refine ⟨?_, le_rfl, fun h => h, ?_, ?_⟩
  · intro hw
    refine ⟨?_, ?_, ?_⟩
    · intro t ht
      obtain ⟨u, hu, rfl⟩ := List.mem_map.mp ht
      have := hw.id_lt u hu
      split <;> exact this
    · rw [ids_modifyTap s id _ hid]
      exact hw.nodup
    · intro t ht hf
      obtain ⟨u, hu, rfl⟩ := List.mem_map.mp ht
      split at hf
      · rcases hfin _ hf with hf | hs
        · exact hw.stopped_of_finished u hu hf
        · exact hs
      · exact hw.stopped_of_finished u hu hf
  · intro i t ht hr
    rw [tap?_modifyTap s id i _ hid, ht]
    split
    · exact ⟨_, rfl, hr, hkind _, hitems _⟩
    · exact ⟨t, rfl, hr, rfl, List.prefix_rfl⟩
  · intro _ hs i
    unfold items
    rw [tap?_modifyTap s id i _ hid]
    cases s.tap? i with
    | none => simp
    | some t =>
      split
      · exact hsilent hs t.outlet
      · rfl

/-- Removing released taps is an evolution of a sink that has not stopped. -/
lemma evolves_prune {s : Sink} (hs : s.stopped = false) : s.Evolves s.prune where
  wellFormed hw := hw.prune
  attached_le := le_rfl
  stopped h := h
  keeps _ t ht hr := ⟨t, s.tap?_prune ht hr, hr, rfl, List.prefix_rfl⟩
  silent _ h := by rw [hs] at h; cases h

/-- A block is an evolution. -/
lemma evolves_push (s : Sink) (b : Block) : s.Evolves (s.push b) := by
  unfold push
  split
  · exact .refl s
  · rename_i h
    have hs : s.stopped = false := by simpa using h
    apply (evolves_prune hs).trans
    refine evolves_outlets (fun o => o.feed s.descriptor b b.aligned) s.prune.stopped
      (fun o => o.items_feed _ _ _) (fun o => o.isStream_feed _ _ _) ?_ (fun h => h) ?_
    · intro o ho
      exact .inl (by simpa using ho)
    · intro hp
      exact absurd hp (by simp [prune, hs])

/-- A stop is an evolution. -/
lemma evolves_stop (s : Sink) : s.Evolves s.stop := by
  unfold stop
  split
  · exact .refl s
  · exact evolves_outlets Outlet.finish true (fun o => by simp [List.prefix_rfl])
      (fun o => o.isStream_finish) (fun _ _ => .inr rfl) (fun _ => rfl) fun _ o => o.items_finish

/-- An outlet as a request asks for it is empty, and finished at a stopped sink only. -/
lemma outletFor_items {s : Sink} {capacity : Nat} {r : Request} {o : Outlet}
    (h : s.outletFor capacity r = .ok o) : o.items = [] ∧ o.finished = false := by
  cases r with
  | streaming =>
    simp only [outletFor, Except.ok.injEq] at h
    subst h
    exact ⟨rfl, rfl⟩
  | triggered selects pre post =>
    simp only [outletFor] at h
    split at h
    · cases h
    · cases h
      exact ⟨rfl, rfl⟩
  | multiplexed selects window =>
    simp only [outletFor, Except.ok.injEq] at h
    subst h
    exact ⟨rfl, rfl⟩
  | snapshot selects delay =>
    simp only [outletFor, Except.ok.injEq] at h
    subst h
    exact ⟨rfl, rfl⟩

/-- What attaching does: the tap gets the next number, its queue is empty, and no other tap
changes. -/
lemma attach_eq_ok {s s' : Sink} {capacity : Nat} {r : Request} {id : Nat}
    (h : s.attach capacity r = .ok (id, s')) :
    id = s.attached ∧ s'.attached = s.attached + 1 ∧ s'.stopped = s.stopped ∧
      ∃ o o', s.outletFor capacity r = .ok o ∧ o' = (if s.stopped then o.finish else o) ∧
        o'.items = [] ∧ s'.taps = s.taps ++ [{ id := s.attached, outlet := o' }] := by
  unfold attach at h
  cases ho : s.outletFor capacity r with
  | error e => simp [ho] at h
  | ok o =>
    simp only [ho, Except.ok.injEq, Prod.mk.injEq] at h
    obtain ⟨rfl, rfl⟩ := h
    refine ⟨rfl, rfl, rfl, o, _, rfl, rfl, ?_, rfl⟩
    have := (outletFor_items ho).1
    split
    · rw [Outlet.items_finish, this]
    · exact this

/-- Attaching a tap leaves the other taps alone. -/
lemma tap?_attach {s s' : Sink} {capacity : Nat} {r : Request} {id : Nat} (hw : s.WellFormed)
    (h : s.attach capacity r = .ok (id, s')) (j : Nat) :
    (j ≠ id → s'.tap? j = s.tap? j) ∧
      ∃ t, s'.tap? id = some t ∧ t.released = false ∧ t.outlet.items = [] ∧
        ∃ o, s.outletFor capacity r = .ok o ∧ t.outlet.isStream = o.isStream := by
  obtain ⟨rfl, -, -, o, o', ho, ho', hi, ht⟩ := attach_eq_ok h
  refine ⟨?_, ?_⟩
  · intro hj
    unfold tap?
    rw [ht, List.find?_append]
    cases s.taps.find? fun t => t.id == j with
    | none => simp [Ne.symm hj]
    | some t => simp
  · refine ⟨{ id := s.attached, outlet := o' }, ?_, rfl, hi, o, ho, ?_⟩
    · have hnone := s.tap?_eq_none hw (le_refl s.attached)
      unfold tap? at hnone ⊢
      rw [ht, List.find?_append, hnone]
      simp
    · rw [ho']
      split <;> simp

/-- The queue of a new tap is finished exactly if the sink has stopped. -/
lemma finished_attach {s s' : Sink} {capacity : Nat} {r : Request} {id : Nat} (hw : s.WellFormed)
    (h : s.attach capacity r = .ok (id, s')) :
    ∃ t, s'.tap? id = some t ∧ t.outlet.finished = s.stopped := by
  obtain ⟨rfl, -, -, o, o', ho, ho', -, ht⟩ := attach_eq_ok h
  refine ⟨{ id := s.attached, outlet := o' }, ?_, ?_⟩
  · have hnone := s.tap?_eq_none hw (le_refl s.attached)
    unfold tap? at hnone ⊢
    rw [ht, List.find?_append, hnone]
    simp
  · dsimp only
    cases hs : s.stopped with
    | true =>
      rw [ho', hs, if_pos rfl]
      cases o <;> rfl
    | false =>
      rw [ho', hs, if_neg (by simp)]
      exact (outletFor_items ho).2

/-- Attaching a tap is an evolution. -/
lemma evolves_attach {s s' : Sink} {capacity : Nat} {r : Request} {id : Nat}
    (h : s.attach capacity r = .ok (id, s')) : s.Evolves s' := by
  obtain ⟨hid, ha, hs, o, o', ho, ho', hi, ht⟩ := attach_eq_ok h
  refine ⟨?_, by omega, fun h => by rw [hs, h], ?_, ?_⟩
  · intro hw
    refine ⟨?_, ?_, ?_⟩
    · intro t hm
      rw [ht] at hm
      rcases List.mem_append.mp hm with hm | hm
      · have := hw.id_lt t hm
        omega
      · obtain rfl := List.mem_singleton.mp hm
        dsimp only
        omega
    · rw [ht, List.map_append, List.nodup_append]
      refine ⟨hw.nodup, by simp, ?_⟩
      intro i hi j hj
      obtain ⟨u, hu, rfl⟩ := List.mem_map.mp hi
      obtain rfl : j = s.attached := by simpa using hj
      have := hw.id_lt u hu
      omega
    · intro t hm hf
      rw [ht] at hm
      rw [hs]
      rcases List.mem_append.mp hm with hm | hm
      · exact hw.stopped_of_finished t hm hf
      · obtain rfl := List.mem_singleton.mp hm
        by_contra hne
        rw [ho', if_neg hne] at hf
        rw [(outletFor_items ho).2] at hf
        cases hf
  · intro i t hi hr
    refine ⟨t, ?_, hr, rfl, List.prefix_rfl⟩
    unfold tap? at hi ⊢
    rw [ht, List.find?_append, hi]
    rfl
  · intro hw _ i
    obtain ⟨hother, t, htap, -, hit, -⟩ := tap?_attach hw h i
    by_cases hi : i = id
    · rw [hi, s.items_eq_nil hw (by omega)]
      simp [items, htap, hit]
    · simp [items, hother hi]

end Sink

/-! ### Hubs -/

namespace Hub

/-- What becomes of a hub while its pollers are in the hands of their consumers. -/
structure Evolves (h h' : Hub) : Prop where
  /-- Sinks are never removed. -/
  sinks : ∀ (i : Nat) (s : Sink), h.sinks[i]? = some s → ∃ s', h'.sinks[i]? = some s' ∧ s.Evolves s'
  /-- New sinks are well-formed. -/
  fresh : ∀ (i : Nat) (s' : Sink), h.sinks[i]? = none → h'.sinks[i]? = some s' → s'.WellFormed

/-- Doing nothing is an evolution. -/
lemma Evolves.refl (h : Hub) : h.Evolves h where
  sinks _ s hs := ⟨s, hs, .refl s⟩
  fresh _ _ hn hs := by rw [hn] at hs; cases hs

/-- Evolutions compose. -/
lemma Evolves.trans {h h' h'' : Hub} (e : h.Evolves h') (e' : h'.Evolves h'') :
    h.Evolves h'' where
  sinks i s hs := by
    obtain ⟨s', hs', es⟩ := e.sinks i s hs
    obtain ⟨s'', hs'', es'⟩ := e'.sinks i s' hs'
    exact ⟨s'', hs'', es.trans es'⟩
  fresh i s'' hn hs'' := by
    cases hs' : h'.sinks[i]? with
    | none => exact e'.fresh i s'' hs' hs''
    | some s' =>
      obtain ⟨u, hu, es⟩ := e'.sinks i s' hs'
      rw [hs''] at hu
      cases hu
      exact es.wellFormed (e.fresh i s' hn hs')

/-- A change that keeps the sinks is an evolution. -/
lemma evolves_of_sinks_eq {h h' : Hub} (hs : h'.sinks = h.sinks) : h.Evolves h' where
  sinks i s hi := ⟨s, by rw [hs, hi], .refl s⟩
  fresh i s' hn hi := by rw [hs, hn] at hi; cases hi

/-- A change of one sink by an evolution is an evolution. -/
lemma evolves_modify (h : Hub) (i : Nat) (f : Sink → Sink)
    (hf : ∀ s, h.sinks[i]? = some s → s.Evolves (f s)) : h.Evolves (h.modify i f) where
  sinks j s hs := by
    rw [getElem?_modify]
    by_cases hj : j = i
    · subst hj
      exact ⟨f s, by simp [hs], hf s hs⟩
    · exact ⟨s, by simp [hj, hs], .refl s⟩
  fresh j s' hn hs' := by
    rw [getElem?_modify, hn] at hs'
    simp at hs'

/-- Attaching a poller is an evolution. -/
lemma evolves_attach {h h' : Hub} {sink capacity : Nat} {r : Request} {p : PollerRef}
    (ha : h.attach sink capacity r = .ok (p, h')) : h.Evolves h' := by
  unfold attach at ha
  cases hs : h.sinks[sink]? with
  | none => simp [hs] at ha
  | some s =>
    simp only [hs] at ha
    cases hat : s.attach capacity r with
    | error e => simp [hat] at ha
    | ok x =>
      obtain ⟨id, s'⟩ := x
      simp only [hat, Except.ok.injEq, Prod.mk.injEq] at ha
      rw [← ha.2]
      apply evolves_modify h sink _
      intro u hu
      rw [hs] at hu
      cases hu
      exact Sink.evolves_attach hat

/-- What producers and other consumers can do to a hub. -/
inductive Act where
  /-- Make a sink. -/
  | make (d : Descriptor) (rate : Single)
  /-- Enter a sink into the directory. -/
  | register (sink : Nat)
  /-- Remove a signal from the directory. -/
  | unregister (signal : String)
  /-- Push a block into a sink. -/
  | push (sink : Nat) (b : Block)
  /-- Stop a sink. -/
  | stop (sink : Nat)
  /-- Attach a poller of another consumer. -/
  | attach (sink capacity : Nat) (r : Request)
  /-- Publish one item into one queue, in the course of a push. -/
  | offer (p : PollerRef) (x : Item)
  /-- Mark a sink as stopped, at the beginning of a stop. -/
  | halt (sink : Nat)
  /-- Finish one queue, in the course of a stop. -/
  | finish (p : PollerRef)

/-- Publish one item into one queue of a sink that has not stopped. -/
def offer (h : Hub) (p : PollerRef) (x : Item) : Hub :=
  h.modify p.sink fun s =>
    if s.stopped then s else s.modifyTap p.tap fun t => { t with outlet := t.outlet.offer x }

/-- Mark a sink as stopped; no queue is finished yet. -/
def halt (h : Hub) (sink : Nat) : Hub := h.modify sink fun s => { s with stopped := true }

/-- Finish one queue of a stopped sink. -/
def finish (h : Hub) (p : PollerRef) : Hub :=
  h.modify p.sink fun s =>
    if s.stopped then s.modifyTap p.tap fun t => { t with outlet := t.outlet.finish } else s

/-- The hub after an act. -/
def perform (h : Hub) : Act → Hub
  | .make d rate => (h.make d rate).2
  | .register sink => h.register sink
  | .unregister signal => h.unregister signal
  | .push sink b => h.push sink b
  | .stop sink => h.stop sink
  | .attach sink capacity r => ((h.attach sink capacity r).toOption.map (·.2)).getD h
  | .offer p x => h.offer p x
  | .halt sink => h.halt sink
  | .finish p => h.finish p

/-- The hub after several acts. -/
def performAll (h : Hub) (acts : List Act) : Hub := acts.foldl perform h

/-- Acts one after the other. -/
lemma performAll_append (h : Hub) (as bs : List Act) :
    h.performAll (as ++ bs) = (h.performAll as).performAll bs := List.foldl_append

/-- Making a sink is an evolution. -/
lemma evolves_make (h : Hub) (d : Descriptor) (rate : Single) : h.Evolves (h.make d rate).2 where
  sinks i s hs := by
    obtain ⟨hi, -⟩ := List.getElem?_eq_some_iff.mp hs
    exact ⟨s, by simp [make, List.getElem?_append_left hi, hs], .refl s⟩
  fresh i s' hn hs' := by
    have hi : h.sinks.length ≤ i := List.getElem?_eq_none_iff.mp hn
    have hmem : s' ∈ [({ descriptor := d, rate } : Sink)] := by
      have := List.mem_of_getElem? (by simpa [make, List.getElem?_append_right hi] using hs')
      exact this
    obtain rfl := List.mem_singleton.mp hmem
    exact ⟨fun t ht => by simp at ht, by simp, fun t ht => by simp at ht⟩

/-- **Every act is an evolution.** -/
theorem evolves_perform (h : Hub) (a : Act) : h.Evolves (h.perform a) := by
  cases a with
  | make d rate => exact h.evolves_make d rate
  | register sink =>
    apply evolves_of_sinks_eq
    simp only [perform, register]
    split <;> rfl
  | unregister signal => exact evolves_of_sinks_eq rfl
  | push sink b => exact evolves_modify h sink _ fun s _ => s.evolves_push b
  | stop sink => exact evolves_modify h sink _ fun s _ => s.evolves_stop
  | attach sink capacity r =>
    simp only [perform]
    cases ha : h.attach sink capacity r with
    | error e => exact .refl h
    | ok x => exact evolves_attach ha
  | offer p x =>
    apply evolves_modify h p.sink _
    intro s _
    split
    · exact .refl s
    · rename_i hs
      refine Sink.evolves_modifyTap p.tap (·.offer x) (fun o => o.items_offer x)
        (fun o => o.isStream_offer x) (fun o ho => .inl (by simpa using ho)) ?_
      intro hstop
      exact absurd hstop hs
  | halt sink =>
    apply evolves_modify h sink _
    intro s _
    refine ⟨fun hw => ⟨hw.id_lt, hw.nodup, fun _ _ _ => rfl⟩, le_rfl, fun _ => rfl, ?_, fun _ _ _ => rfl⟩
    intro i t ht hr
    exact ⟨t, ht, hr, rfl, List.prefix_rfl⟩
  | finish p =>
    apply evolves_modify h p.sink _
    intro s _
    split
    · rename_i hs
      exact Sink.evolves_modifyTap p.tap Outlet.finish (fun o => by simp [List.prefix_rfl])
        (fun o => o.isStream_finish) (fun _ _ => .inr hs) fun _ o => o.items_finish
    · exact .refl s

/-- Several acts are an evolution. -/
theorem evolves_performAll (h : Hub) (acts : List Act) : h.Evolves (h.performAll acts) := by
  induction acts generalizing h with
  | nil => exact .refl h
  | cons a acts ih => exact (h.evolves_perform a).trans (ih (h.perform a))

/-! ### What an evolution means for a poller -/

section Poller

variable {h h' : Hub} (e : h.Evolves h')

include e

/-- A hub stays well-formed. -/
lemma Evolves.wellFormed (hw : h.WellFormed) : h'.WellFormed := by
  intro s' hs'
  obtain ⟨i, hi⟩ := List.mem_iff_getElem?.mp hs'
  cases hs : h.sinks[i]? with
  | none => exact e.fresh i s' hs hi
  | some s =>
    obtain ⟨u, hu, es⟩ := e.sinks i s hs
    rw [hi] at hu
    cases hu
    exact es.wellFormed (hw s (List.mem_of_getElem? hs))

/-- A number that was given away stays so. -/
lemma Evolves.attached {p : PollerRef} (ha : h.Attached p) : h'.Attached p := by
  obtain ⟨s, hs, hlt⟩ := ha
  obtain ⟨s', hs', es⟩ := e.sinks _ s hs
  exact ⟨s', hs', lt_of_lt_of_le hlt es.attached_le⟩

/-- A sink stays stopped. -/
lemma Evolves.isStopped {i : Nat} (hs : h.IsStopped i) : h'.IsStopped i := by
  obtain ⟨s, hs, hst⟩ := hs
  obtain ⟨s', hs', es⟩ := e.sinks _ s hs
  exact ⟨s', hs', es.stopped hst⟩

/-- A poller in use stays, keeps its kind, and its queue grows at its end. -/
lemma Evolves.keeps {p : PollerRef} {t : Tap} (ht : h.tap? p = some t) (hr : t.released = false) :
    ∃ t', h'.tap? p = some t' ∧ t'.released = false ∧ t'.outlet.isStream = t.outlet.isStream ∧
      t.outlet.items <+: t'.outlet.items := by
  obtain ⟨s, hs, hst⟩ := tap?_eq_some.mp ht
  obtain ⟨s', hs', es⟩ := e.sinks _ s hs
  obtain ⟨t', ht', hrest⟩ := es.keeps _ t hst hr
  exact ⟨t', tap?_eq_some.mpr ⟨s', hs', ht'⟩, hrest⟩

/-- No queue of a stopped sink changes. -/
lemma Evolves.silent (hw : h.WellFormed) {p : PollerRef} (hs : h.IsStopped p.sink) :
    h'.items p = h.items p := by
  obtain ⟨s, hs, hst⟩ := hs
  obtain ⟨s', hs', es⟩ := e.sinks _ s hs
  have hsilent := es.silent (hw s (List.mem_of_getElem? hs)) hst p.tap
  simpa [items, tap?, hs, hs', Sink.items] using hsilent

end Poller

/-- **A finished queue belongs to a stopped sink.** -/
lemma isStopped_of_finished {h : Hub} (hw : h.WellFormed) {p : PollerRef}
    (hf : h.finished p = true) : h.IsStopped p.sink := by
  unfold finished at hf
  cases ht : h.tap? p with
  | none => simp [ht] at hf
  | some t =>
    obtain ⟨s, hs, hst⟩ := tap?_eq_some.mp ht
    have hfin : t.outlet.finished = true := by simpa [ht] using hf
    exact ⟨s, hs, (hw s (List.mem_of_getElem? hs)).stopped_of_finished t
      (Sink.mem_of_tap? hst).1 hfin⟩

/-- A number that was not given away has no tap. -/
lemma tap?_eq_none {h : Hub} (hw : h.WellFormed) {p : PollerRef} (ha : ¬ h.Attached p) :
    h.tap? p = none := by
  unfold tap?
  cases hs : h.sinks[p.sink]? with
  | none => rfl
  | some s =>
    refine s.tap?_eq_none (hw s (List.mem_of_getElem? hs)) ?_
    by_contra hlt
    exact ha ⟨s, hs, by omega⟩

/-- A number that was not given away has no items. -/
lemma items_eq_nil {h : Hub} (hw : h.WellFormed) {p : PollerRef} (ha : ¬ h.Attached p) :
    h.items p = [] := by
  simp [items, tap?_eq_none hw ha]

/-- The hub of a process that has not begun. -/
lemma wellFormed_empty (capacities : Capacities) : ({ capacities } : Hub).WellFormed := by
  intro s hs
  simp at hs

end Hub

end Daq
