import Daq.Hub
import Mathlib.Data.List.Basic
import Mathlib.Data.List.Infix

set_option autoImplicit false

/-!
# Items and taps

What a consumer sees of a tap is a queue of items, blocks or captures, with the flag of its
producer. This file gives that view and says what the operations on sinks do to the tap with a
given number.

## Main definitions

* `Daq.Item` — what a queue holds.
* `Daq.Outlet.items`, `Daq.Sink.items`, `Daq.Hub.items` — the buffered items, oldest first.
* `Daq.Outlet.pop?`, `Daq.Hub.pop?` — taking the oldest item.
* `Daq.Sink.WellFormed`, `Daq.Hub.WellFormed` — numbers of taps are given away once, and only the
  queues of a stopped sink are finished.

## Main results

* `Daq.Sink.tap?_modifyTap`, `Daq.Sink.tap?_prune`, `Daq.Sink.tap?_mapOutlets` — look-ups of taps
  after a change.
* `Daq.Outlet.items_feed` — a block only appends to a queue.
* `Daq.Hub.tap?_modifyTap` — a change of one tap leaves all others alone.
-/

namespace Daq

/-- What a queue holds. -/
inductive Item where
  /-- A block of a stream. -/
  | block (b : Block)
  /-- A capture. -/
  | capture (c : Capture)
  deriving DecidableEq

/-! ### Queues -/

namespace Queue

variable {α : Type}

/-- The oldest item and the queue without it. -/
def pop? (q : Queue α) : Option (α × Queue α) :=
  match q.items with
  | [] => none
  | a :: rest => some (a, { q with items := rest })

/-- Publishing appends at most. -/
lemma items_publish (q : Queue α) (a : α) : q.items <+: (q.publish a).items := by
  unfold publish
  split
  · exact List.prefix_append _ _
  · exact List.prefix_rfl

/-- Publishing does not finish a queue. -/
@[simp]
lemma finished_publish (q : Queue α) (a : α) : (q.publish a).finished = q.finished := by
  unfold publish
  split <;> rfl

/-- Publishing several items appends at most. -/
lemma items_publishAll (q : Queue α) (as : List α) : q.items <+: (q.publishAll as).items := by
  induction as generalizing q with
  | nil => exact List.prefix_rfl
  | cons a as ih => exact (q.items_publish a).trans (ih (q.publish a))

/-- Publishing several items does not finish a queue. -/
@[simp]
lemma finished_publishAll (q : Queue α) (as : List α) :
    (q.publishAll as).finished = q.finished := by
  induction as generalizing q with
  | nil => rfl
  | cons a as ih => exact (ih (q.publish a)).trans (q.finished_publish a)

end Queue

/-! ### Outlets -/

namespace Outlet

/-- The buffered items, oldest first. -/
def items : Outlet → List Item
  | .stream q => q.items.map .block
  | .captures _ q => q.items.map .capture

/-- Whether blocks are passed on. -/
def isStream : Outlet → Bool
  | .stream _ => true
  | .captures _ _ => false

/-- The oldest item and the outlet without it. -/
def pop? : Outlet → Option (Item × Outlet)
  | .stream q => q.pop?.map fun r => (.block r.1, .stream r.2)
  | .captures o q => q.pop?.map fun r => (.capture r.1, .captures o r.2)

/-- Publish one item into the queue; an item of the other kind has no place in it. -/
def offer : Outlet → Item → Outlet
  | .stream q, .block b => .stream (q.publish b)
  | .captures o q, .capture c => .captures o (q.publish c)
  | o, _ => o

/-- Taking the oldest item succeeds unless the queue is empty, and takes it from the front. -/
lemma pop?_eq (o : Outlet) :
    (o.items = [] ∧ o.pop? = none) ∨
      ∃ x o', o.pop? = some (x, o') ∧ o.items = x :: o'.items ∧ o'.finished = o.finished ∧
        o'.isStream = o.isStream := by
  cases o with
  | stream q =>
    obtain ⟨cap, items, dropped, fin⟩ := q
    cases items with
    | nil => exact .inl ⟨rfl, rfl⟩
    | cons a rest => exact .inr ⟨_, _, rfl, rfl, rfl, rfl⟩
  | captures w q =>
    obtain ⟨cap, items, dropped, fin⟩ := q
    cases items with
    | nil => exact .inl ⟨rfl, rfl⟩
    | cons a rest => exact .inr ⟨_, _, rfl, rfl, rfl, rfl⟩

/-- Offering an item appends at most. -/
lemma items_offer (o : Outlet) (x : Item) : o.items <+: (o.offer x).items := by
  cases o <;> cases x
  · exact (Queue.items_publish _ _).map _
  · exact List.prefix_rfl
  · exact List.prefix_rfl
  · exact (Queue.items_publish _ _).map _

/-- Offering an item does not finish a queue. -/
@[simp]
lemma finished_offer (o : Outlet) (x : Item) : (o.offer x).finished = o.finished := by
  cases o <;> cases x <;> simp [offer, finished]

/-- Offering an item keeps the kind. -/
@[simp]
lemma isStream_offer (o : Outlet) (x : Item) : (o.offer x).isStream = o.isStream := by
  cases o <;> cases x <;> rfl

/-- Watching samples only appends captures and does not finish the queue. -/
lemma watch_foldl (d : Descriptor) (xs : List (Single × List Tag)) (s : Observer × Queue Capture) :
    s.2.items <+: (xs.foldl (watch d) s).2.items ∧
      (xs.foldl (watch d) s).2.finished = s.2.finished := by
  induction xs generalizing s with
  | nil => exact ⟨List.prefix_rfl, rfl⟩
  | cons x xs ih =>
    have step := ih (watch d s x)
    refine ⟨?_, ?_⟩
    · exact (Queue.items_publishAll _ _).trans step.1
    · rw [List.foldl_cons, step.2]
      exact Queue.finished_publishAll _ _

/-- **A block only appends to a queue.** -/
lemma items_feed (o : Outlet) (d : Descriptor) (b : Block) (xs : List (Single × List Tag)) :
    o.items <+: (o.feed d b xs).items := by
  cases o with
  | stream q => exact (q.items_publish b).map _
  | captures w q => exact ((watch_foldl d xs (w, q)).1).map _

/-- A block does not finish a queue. -/
@[simp]
lemma finished_feed (o : Outlet) (d : Descriptor) (b : Block) (xs : List (Single × List Tag)) :
    (o.feed d b xs).finished = o.finished := by
  cases o with
  | stream q => exact q.finished_publish b
  | captures w q => exact (watch_foldl d xs (w, q)).2

/-- A block keeps the kind of an outlet. -/
@[simp]
lemma isStream_feed (o : Outlet) (d : Descriptor) (b : Block) (xs : List (Single × List Tag)) :
    (o.feed d b xs).isStream = o.isStream := by
  cases o <;> rfl

/-- Finishing a queue keeps its items. -/
@[simp]
lemma items_finish (o : Outlet) : o.finish.items = o.items := by cases o <;> rfl

/-- Finishing a queue keeps its kind. -/
@[simp]
lemma isStream_finish (o : Outlet) : o.finish.isStream = o.isStream := by cases o <;> rfl

end Outlet

/-! ### Sinks -/

namespace Sink

/-- The buffered items of the tap with this number, oldest first. -/
def items (s : Sink) (id : Nat) : List Item := (s.tap? id).elim [] fun t => t.outlet.items

/-- Numbers of taps are given away once, and only a stopped sink has finished queues. -/
structure WellFormed (s : Sink) : Prop where
  /-- Every tap was attached at some time. -/
  id_lt : ∀ t ∈ s.taps, t.id < s.attached
  /-- No number has two taps. -/
  nodup : (s.taps.map fun t => t.id).Nodup
  /-- A finished queue belongs to a stopped sink. -/
  stopped_of_finished : ∀ t ∈ s.taps, t.outlet.finished = true → s.stopped = true

/-- Looking up a tap after its outlets were all changed. -/
lemma find?_mapOutlets (f : Tap → Tap) (hf : ∀ t, (f t).id = t.id) (id : Nat) (ts : List Tap) :
    (ts.map f).find? (fun t => t.id == id) = (ts.find? fun t => t.id == id).map f := by
  rw [List.find?_map]
  have hcomp : ((fun t : Tap => t.id == id) ∘ f) = fun t => t.id == id := by
    funext t
    simp [Function.comp, hf]
  rw [hcomp]

/-- Changing all taps changes what is looked up. -/
lemma tap?_mapOutlets (s : Sink) (f : Tap → Tap) (hf : ∀ t, (f t).id = t.id) (id : Nat) :
    tap? { s with taps := s.taps.map f } id = (s.tap? id).map f :=
  find?_mapOutlets f hf id s.taps

/-- Changing the tap with number `i` changes no other tap. -/
lemma tap?_modifyTap (s : Sink) (i j : Nat) (f : Tap → Tap) (hf : ∀ t, (f t).id = t.id) :
    (s.modifyTap i f).tap? j = if j = i then (s.tap? j).map f else s.tap? j := by
  have hg : ∀ t : Tap, (if t.id = i then f t else t).id = t.id := by
    intro t
    split
    · exact hf t
    · rfl
  refine (s.tap?_mapOutlets _ hg j).trans ?_
  cases ht : s.tap? j with
  | none => simp
  | some t =>
    have hid : t.id = j := by simpa using List.find?_some ht
    by_cases hji : j = i
    · simp [hji, hid]
    · simp [hji, hid]

/-- A change of one tap keeps the numbers. -/
lemma ids_modifyTap (s : Sink) (i : Nat) (f : Tap → Tap) (hf : ∀ t, (f t).id = t.id) :
    ((s.modifyTap i f).taps.map fun t => t.id) = s.taps.map fun t => t.id := by
  unfold modifyTap
  rw [List.map_map]
  apply List.map_congr_left
  intro t _
  dsimp only [Function.comp]
  split
  · exact hf t
  · rfl

/-- A tap in use is still found among the taps in use. -/
lemma find?_unreleased {id : Nat} {t : Tap} (hr : t.released = false) (ts : List Tap)
    (ht : ts.find? (fun t => t.id == id) = some t) :
    (ts.filter fun t => !t.released).find? (fun t => t.id == id) = some t := by
  induction ts with
  | nil => simp at ht
  | cons u us ih =>
    by_cases hu : u.id = id
    · have hut : u = t := by simpa [hu] using ht
      subst hut
      simp [hr, hu]
    · have hrest : us.find? (fun t => t.id == id) = some t := by
        simpa [hu] using ht
      by_cases hur : u.released = true
      · simpa [hur] using ih hrest
      · simpa [hur, hu] using ih hrest

/-- A tap in use survives the removal of the others. -/
lemma tap?_prune (s : Sink) {id : Nat} {t : Tap} (ht : s.tap? id = some t)
    (hr : t.released = false) : s.prune.tap? id = some t :=
  find?_unreleased hr s.taps ht

/-- A tap that is looked up is one of the taps. -/
lemma mem_of_tap? {s : Sink} {id : Nat} {t : Tap} (h : s.tap? id = some t) :
    t ∈ s.taps ∧ t.id = id :=
  ⟨List.mem_of_find?_eq_some h, by simpa using List.find?_some h⟩

/-- Each tap is looked up under its number. -/
lemma tap?_of_mem {s : Sink} (hs : s.WellFormed) {t : Tap} (ht : t ∈ s.taps) :
    s.tap? t.id = some t := by
  have hfind : ∀ ts : List Tap, (ts.map fun t => t.id).Nodup → t ∈ ts →
      ts.find? (fun u => u.id == t.id) = some t := by
    intro ts hnd hmem
    induction ts with
    | nil => cases hmem
    | cons u us ih =>
      rw [List.map_cons, List.nodup_cons] at hnd
      rcases List.mem_cons.mp hmem with rfl | hmem
      · simp
      · have hne : u.id ≠ t.id := by
          intro heq
          exact hnd.1 (heq ▸ List.mem_map_of_mem hmem)
        rw [List.find?_cons_of_neg (by simpa using hne)]
        exact ih hnd.2 hmem
  exact hfind s.taps hs.nodup ht

/-- Removing the released taps keeps a sink well-formed. -/
lemma WellFormed.prune {s : Sink} (hs : s.WellFormed) : s.prune.WellFormed where
  id_lt t ht := hs.id_lt t (List.mem_of_mem_filter ht)
  nodup := hs.nodup.sublist (List.filter_sublist.map _)
  stopped_of_finished t ht := hs.stopped_of_finished t (List.mem_of_mem_filter ht)

/-- A change of one tap that does not finish its queue keeps a sink well-formed. -/
lemma WellFormed.modifyTap {s : Sink} (hs : s.WellFormed) (id : Nat) (f : Tap → Tap)
    (hf : ∀ t, (f t).id = t.id)
    (hfin : ∀ t, s.tap? id = some t → (f t).outlet.finished = true → t.outlet.finished = true) :
    (s.modifyTap id f).WellFormed := by
  refine ⟨?_, ?_, ?_⟩
  · intro t ht
    obtain ⟨u, hu, rfl⟩ := List.mem_map.mp ht
    have hlt := hs.id_lt u hu
    split
    · rw [hf]
      exact hlt
    · exact hlt
  · rw [ids_modifyTap s id f hf]
    exact hs.nodup
  · intro t ht hfinished
    obtain ⟨u, hu, rfl⟩ := List.mem_map.mp ht
    split at hfinished
    · rename_i hid
      exact hs.stopped_of_finished u hu (hfin u (hid ▸ tap?_of_mem hs hu) hfinished)
    · exact hs.stopped_of_finished u hu hfinished

/-- A change of one tap is determined by what becomes of the tap that is looked up. -/
lemma modifyTap_congr {s : Sink} (hs : s.WellFormed) {id : Nat} {t : Tap} (ht : s.tap? id = some t)
    {f g : Tap → Tap} (hfg : f t = g t) : s.modifyTap id f = s.modifyTap id g := by
  unfold modifyTap
  congr 1
  apply List.map_congr_left
  intro u hu
  split
  · rename_i hid
    have hut := tap?_of_mem hs hu
    rw [hid, ht] at hut
    cases hut
    exact hfg
  · rfl

/-- A number that was not given away yet has no tap. -/
lemma tap?_eq_none (s : Sink) (hs : s.WellFormed) {id : Nat} (h : s.attached ≤ id) :
    s.tap? id = none := by
  cases ht : s.tap? id with
  | none => rfl
  | some t =>
    obtain ⟨hm, hid⟩ := mem_of_tap? ht
    have := hs.id_lt t hm
    omega

/-- A number that was not given away yet has no items. -/
lemma items_eq_nil (s : Sink) (hs : s.WellFormed) {id : Nat} (h : s.attached ≤ id) :
    s.items id = [] := by
  simp [items, s.tap?_eq_none hs h]

end Sink

/-! ### Hubs -/

/-- Pollers of one sink are told apart by their taps. -/
lemma PollerRef.eq_iff {p q : PollerRef} (h : p.sink = q.sink) : p = q ↔ p.tap = q.tap := by
  obtain ⟨ps, pt⟩ := p
  obtain ⟨qs, qt⟩ := q
  obtain rfl : ps = qs := h
  simp

namespace Hub

/-- The buffered items of a poller, oldest first. -/
def items (h : Hub) (p : PollerRef) : List Item := (h.tap? p).elim [] fun t => t.outlet.items

/-- The oldest item of a poller and the hub without it. -/
def pop? (h : Hub) (p : PollerRef) : Option (Item × Hub) :=
  ((h.tap? p).bind fun t => t.outlet.pop?).map fun r =>
    (r.1, h.modifyTap p fun t => { t with outlet := r.2 })

/-- Whether a sink has stopped. -/
def IsStopped (h : Hub) (sink : Nat) : Prop := ∃ s, h.sinks[sink]? = some s ∧ s.stopped = true

/-- Whether the number of a poller was given away by its sink. -/
def Attached (h : Hub) (p : PollerRef) : Prop :=
  ∃ s, h.sinks[p.sink]? = some s ∧ p.tap < s.attached

/-- Every sink is well-formed. -/
def WellFormed (h : Hub) : Prop := ∀ s ∈ h.sinks, s.WellFormed

/-- A change of one sink, looked up. -/
lemma getElem?_modify (h : Hub) (i j : Nat) (f : Sink → Sink) :
    (h.modify i f).sinks[j]? = if j = i then (h.sinks[j]?).map f else h.sinks[j]? := by
  unfold modify
  rw [List.getElem?_modify]
  by_cases hij : j = i
  · simp [hij]
  · simp [hij, Ne.symm hij]

/-- No sink is taken away by a change of one. -/
lemma length_sinks_modify (h : Hub) (i : Nat) (f : Sink → Sink) :
    (h.modify i f).sinks.length = h.sinks.length := by
  unfold modify
  exact List.length_modify ..

/-- A change of one sink changes nothing about the sinks that it keeps about this one. -/
lemma map_sinks_modify {α : Type} (h : Hub) (i : Nat) (f : Sink → Sink) (g : Sink → α)
    (hf : ∀ s, h.sinks[i]? = some s → g (f s) = g s) :
    (h.modify i f).sinks.map g = h.sinks.map g := by
  refine List.ext_getElem? fun j => ?_
  rw [List.getElem?_map, List.getElem?_map, getElem?_modify]
  by_cases hj : j = i
  · subst hj
    cases hs : h.sinks[j]? with
    | none => simp
    | some s => simp [hf s hs]
  · rw [if_neg hj]

/-- The tap of a poller, through its sink. -/
lemma tap?_eq_some {h : Hub} {p : PollerRef} {t : Tap} :
    h.tap? p = some t ↔ ∃ s, h.sinks[p.sink]? = some s ∧ s.tap? p.tap = some t := by
  simp [tap?, Option.bind_eq_some_iff]

/-- **A change of one tap leaves all others alone.** -/
lemma tap?_modifyTap (h : Hub) (p q : PollerRef) (f : Tap → Tap) (hf : ∀ t, (f t).id = t.id) :
    (h.modifyTap p f).tap? q = if q = p then (h.tap? q).map f else h.tap? q := by
  unfold modifyTap tap?
  rw [getElem?_modify]
  by_cases hs : q.sink = p.sink
  · rw [if_pos hs]
    cases hq : h.sinks[q.sink]? with
    | none => simp
    | some s =>
      simp only [Option.map_some, Option.bind_some]
      rw [Sink.tap?_modifyTap s _ _ f hf]
      simp [PollerRef.eq_iff hs]
  · have hpq : q ≠ p := fun h => hs (by rw [h])
    simp [hs, hpq]

/-- A change of one tap is determined by what becomes of the tap that is looked up. -/
lemma modifyTap_congr {h : Hub} (hw : h.WellFormed) {p : PollerRef} {t : Tap}
    (ht : h.tap? p = some t) {f g : Tap → Tap} (hfg : f t = g t) :
    h.modifyTap p f = h.modifyTap p g := by
  obtain ⟨s, hs, hst⟩ := tap?_eq_some.mp ht
  have hsink := Sink.modifyTap_congr (hw s (List.mem_of_getElem? hs)) hst hfg
  unfold modifyTap modify
  congr 1
  apply List.ext_getElem?
  intro j
  rw [List.getElem?_modify, List.getElem?_modify]
  by_cases hj : p.sink = j
  · subst hj
    simp [hs, hsink]
  · simp [hj]

/-- Taking the oldest item succeeds unless there is none, and takes it from the front. -/
lemma pop?_eq (h : Hub) (p : PollerRef) :
    (h.items p = [] ∧ h.pop? p = none) ∨
      ∃ x o, h.pop? p = some (x, h.modifyTap p fun t => { t with outlet := o }) ∧
        h.items p = x :: o.items ∧
        ∀ t, h.tap? p = some t → o.isStream = t.outlet.isStream ∧ o.finished = t.outlet.finished := by
  cases ht : h.tap? p with
  | none => exact .inl ⟨by simp [items, ht], by simp [pop?, ht]⟩
  | some t =>
    rcases t.outlet.pop?_eq with ⟨hi, hp⟩ | ⟨x, o, hp, hi, hf, hk⟩
    · exact .inl ⟨by simp [items, ht, hi], by simp [pop?, ht, hp]⟩
    · refine .inr ⟨x, o, by simp [pop?, ht, hp], by simp [items, ht, hi], ?_⟩
      rintro u ⟨⟩
      exact ⟨hk, hf⟩

/-- The items of every poller after the outlet of one was replaced. -/
lemma items_modifyTap_outlet (h : Hub) (p q : PollerRef) (o : Outlet) :
    (h.modifyTap p fun t => { t with outlet := o }).items q =
      if q = p then (h.tap? q).elim [] fun _ => o.items else h.items q := by
  unfold items
  rw [tap?_modifyTap]
  · split
    · cases h.tap? q <;> rfl
    · rfl
  · intro t
    rfl

end Hub

end Daq
