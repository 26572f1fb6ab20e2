import Daq.Proofs.Hub.Pollers
import Mathlib.Algebra.GroupWithZero.Nat
import Mathlib.Data.List.Nodup

set_option autoImplicit false

/-!
# Taps in use

A consumer lets go of a poller by marking its tap, and the sink removes the tap some time later. What
counts are the taps that are not marked: their numbers are listed here, for a sink and for a hub,
and it is said what each operation does to them. Taps ever attached are counted as well.

## Main definitions

* `Daq.Sink.inUse` — the numbers of the taps in use.
* `Daq.Hub.InUse` — whether the tap of a poller is in use.
* `Daq.Hub.everAttached` — the number of taps that were ever attached.

## Main results

* `Daq.Hub.inUse_modify`, `Daq.Hub.inUse_releaseAll`, `Daq.Hub.inUse_serve` — taps in use after a
  change of a sink, after letting go, and after a request.
* `Daq.Hub.pollerCount_eq` — a sink counts the pollers in use.
-/

namespace Daq

namespace Sink

/-! ### Sinks -/

/-- The numbers of the taps in use. -/
def inUse (ts : List Tap) : List Nat := (ts.filter fun t => !t.released).map Tap.id

/-- A change of outlets releases no tap. -/
lemma inUse_map (f : Tap → Tap) (hid : ∀ t, (f t).id = t.id)
    (hreleased : ∀ t, (f t).released = t.released) (ts : List Tap) :
    inUse (ts.map f) = inUse ts := by
  unfold inUse
  rw [List.filter_map, List.map_map]
  have hkept : ((fun t : Tap => !t.released) ∘ f) = fun t => !t.released := by
    funext t
    simp [hreleased]
  have hids : Tap.id ∘ f = Tap.id := by
    funext t
    exact hid t
  rw [hkept, hids]

/-- Pruning removes no tap in use. -/
lemma inUse_prune (s : Sink) : inUse s.prune.taps = inUse s.taps := by
  simp [inUse, prune, List.filter_filter]

/-- A block releases no tap. -/
lemma inUse_push (s : Sink) (b : Block) : inUse (s.push b).taps = inUse s.taps := by
  unfold push
  split
  · rfl
  · refine (inUse_map (fun t => { t with outlet := t.outlet.feed s.descriptor b b.aligned })
      (fun _ => rfl) (fun _ => rfl) _).trans s.inUse_prune

/-- A stop releases no tap. -/
lemma inUse_stop (s : Sink) : inUse s.stop.taps = inUse s.taps := by
  unfold stop
  split
  · rfl
  · exact inUse_map (fun t => { t with outlet := t.outlet.finish }) (fun _ => rfl) (fun _ => rfl) _

/-- Taking items releases no tap. -/
lemma inUse_modifyTap_outlet (s : Sink) (id : Nat) (f : Outlet → Outlet) :
    inUse (s.modifyTap id fun t => { t with outlet := f t.outlet }).taps = inUse s.taps := by
  apply inUse_map
  · intro t
    split <;> rfl
  · intro t
    split <;> rfl

/-- Releasing a tap takes its number out of use, and no other. -/
lemma inUse_release (s : Sink) (id : Nat) :
    inUse (s.modifyTap id fun t => { t with released := true }).taps =
      (inUse s.taps).filter (· ≠ id) := by
  unfold inUse modifyTap
  dsimp only
  induction s.taps with
  | nil => rfl
  | cons t ts ih =>
    by_cases hid : t.id = id
    · by_cases hr : t.released = true
      · simpa [hid, hr] using ih
      · simpa [hid, hr] using ih
    · by_cases hr : t.released = true
      · simpa [hid, hr] using ih
      · simpa [hid, hr] using ih

/-- A number in use has a tap. -/
lemma exists_tap?_of_inUse {s : Sink} (hs : s.WellFormed) {id : Nat} (h : id ∈ inUse s.taps) :
    ∃ t, t ∈ s.taps ∧ s.tap? id = some t ∧ t.released = false := by
  obtain ⟨t, ht, rfl⟩ := List.mem_map.mp h
  obtain ⟨hmem, hr⟩ := List.mem_filter.mp ht
  exact ⟨t, hmem, tap?_of_mem hs hmem, by simpa using hr⟩

/-- A new tap is in use. -/
lemma inUse_attach {s s' : Sink} {capacity : Nat} {r : Request} {id : Nat}
    (h : s.attach capacity r = .ok (id, s')) : inUse s'.taps = inUse s.taps ++ [id] := by
  obtain ⟨rfl, -, -, o, o', -, -, -, htaps⟩ := attach_eq_ok h
  rw [htaps]
  simp [inUse]

/-- No number is in use twice. -/
lemma inUse_nodup {s : Sink} (hs : s.WellFormed) : (inUse s.taps).Nodup :=
  hs.nodup.sublist (List.filter_sublist.map _)

/-- The taps in use are counted. -/
lemma tapCount_eq (s : Sink) : s.tapCount = (inUse s.taps).length := by
  simp [inUse, tapCount, prune]

end Sink

/-! ### Hubs -/

namespace Hub

/-- Whether the tap of a poller is in use. -/
def InUse (h : Hub) (p : PollerRef) : Prop :=
  ∃ s, h.sinks[p.sink]? = some s ∧ p.tap ∈ Sink.inUse s.taps

/-- The number of taps that were ever attached to any sink. -/
def everAttached (h : Hub) : Nat := (h.sinks.map fun s => s.attached).sum

/-- A poller that serves is in use. -/
lemma Serves.inUse {h : Hub} {k : PollerKey} {p : PollerRef} (hs : h.Serves k p) : h.InUse p := by
  obtain ⟨t, ht, hr, -⟩ := hs
  obtain ⟨s, hs, hst⟩ := tap?_eq_some.mp ht
  obtain ⟨hmem, hid⟩ := Sink.mem_of_tap? hst
  exact ⟨s, hs, hid ▸ List.mem_map_of_mem (List.mem_filter.mpr ⟨hmem, by simp [hr]⟩)⟩

section Modify

variable (h : Hub) (i : Nat) (f : Sink → Sink) (p : PollerRef)

/-- A change of one sink that keeps its taps in use keeps all taps in use. -/
lemma inUse_modify (hf : ∀ s, Sink.inUse (f s).taps = Sink.inUse s.taps) :
    (h.modify i f).InUse p ↔ h.InUse p :=
  exists_getElem?_modify h i p.sink f (fun s => p.tap ∈ Sink.inUse s.taps) fun s => by rw [hf]

/-- Taking items releases no tap. -/
@[simp]
lemma inUse_emptied (q : PollerRef) : (h.emptied q).InUse p ↔ h.InUse p :=
  h.inUse_modify q.sink _ p fun s => s.inUse_modifyTap_outlet q.tap Outlet.emptied

/-- Letting go of a poller takes it out of use, and no other. -/
lemma inUse_release (q : PollerRef) : (h.release q).InUse p ↔ h.InUse p ∧ p ≠ q := by
  unfold release modifyTap InUse
  rw [getElem?_modify]
  by_cases hsink : p.sink = q.sink
  · rw [if_pos hsink, Ne, PollerRef.eq_iff hsink]
    cases h.sinks[p.sink]? with
    | none => simp
    | some s => simp [Sink.inUse_release]
  · have hne : p ≠ q := fun hpq => hsink (hpq ▸ rfl)
    rw [if_neg hsink]
    simp [hne]

/-- Letting go of several pollers takes these out of use, and no others. -/
lemma inUse_releaseAll (qs : List PollerRef) :
    (qs.foldl release h).InUse p ↔ h.InUse p ∧ p ∉ qs := by
  induction qs generalizing h with
  | nil => simp
  | cons q qs ih =>
    rw [List.foldl_cons, ih, inUse_release, List.mem_cons, not_or, and_assoc]

/-- A new sink has no taps. -/
lemma inUse_make (d : Descriptor) (rate : Single) : (h.make d rate).2.InUse p ↔ h.InUse p := by
  unfold make InUse
  dsimp only
  by_cases hlt : p.sink < h.sinks.length
  · rw [List.getElem?_append_left hlt]
  · rw [List.getElem?_append_right (by omega), List.getElem?_eq_none (l := h.sinks) (by omega)]
    by_cases heq : p.sink - h.sinks.length = 0
    · rw [heq]
      simp [Sink.inUse]
    · rw [List.getElem?_eq_none (by simp; omega)]

/-- A change of one sink that attaches nothing. -/
lemma everAttached_modify (hf : ∀ s, (f s).attached = s.attached) :
    (h.modify i f).everAttached = h.everAttached := by
  unfold everAttached
  rw [h.map_sinks_modify i f _ fun s _ => hf s]

/-- Letting go attaches nothing. -/
lemma everAttached_releaseAll (qs : List PollerRef) :
    (qs.foldl release h).everAttached = h.everAttached := by
  induction qs generalizing h with
  | nil => rfl
  | cons q qs ih => exact (ih (h.release q)).trans (h.everAttached_modify q.sink _ fun _ => rfl)

end Modify

section Serve

variable {h h' : Hub} {k : PollerKey} {q : PollerRef} (hok : h.serve k = .ok (q, h'))

include hok

/-- A request that is granted takes the new tap into use. -/
lemma inUse_serve (p : PollerRef) : h'.InUse p ↔ h.InUse p ∨ p = q := by
  obtain ⟨s, s', -, hs, hat, rfl⟩ := serve_eq_ok hok
  unfold InUse
  rw [getElem?_modify]
  by_cases hsink : p.sink = q.sink
  · rw [if_pos hsink, PollerRef.eq_iff hsink, hsink, hs]
    simp [Sink.inUse_attach hat]
  · have hne : p ≠ q := fun hpq => hsink (hpq ▸ rfl)
    rw [if_neg hsink]
    simp [hne]

/-- A request that is granted attaches one tap. -/
lemma everAttached_serve : h'.everAttached = h.everAttached + 1 := by
  obtain ⟨s, s', -, hs, hat, rfl⟩ := serve_eq_ok hok
  have hattached := (Sink.attach_eq_ok hat).2.1
  unfold everAttached modify
  dsimp only
  revert hs
  generalize q.sink = i
  induction h.sinks generalizing i with
  | nil => simp
  | cons u us ih =>
    cases i with
    | zero =>
      intro hs
      obtain rfl : u = s := by simpa using hs
      simp only [List.modify_zero_cons, List.map_cons, List.sum_cons]
      omega
    | succ i =>
      intro hs
      have hrest := ih i (by simpa using hs)
      simp only [List.modify_succ_cons, List.map_cons, List.sum_cons, hrest]
      omega

end Serve

/-- **A sink counts the pollers in use**, whoever lists them. -/
theorem pollerCount_eq {h : Hub} (hw : h.WellFormed) {ps : List PollerRef} (hps : ps.Nodup)
    (hmem : ∀ p, p ∈ ps ↔ h.InUse p) (i : Nat) :
    h.pollerCount i = ps.countP fun p => p.sink = i := by
  have hnone : h.sinks[i]? = none → ps.countP (fun p => p.sink = i) = 0 := by
    intro hs
    rw [List.countP_eq_zero]
    intro p hp hsink
    obtain ⟨s, hs', -⟩ := (hmem p).mp hp
    rw [of_decide_eq_true hsink, hs] at hs'
    cases hs'
  unfold pollerCount
  cases hs : h.sinks[i]? with
  | none => exact (hnone hs).symm
  | some s =>
    rw [Option.map_some, Option.getD_some, Sink.tapCount_eq, List.countP_eq_length_filter,
      ← List.length_map (fun p : PollerRef => p.tap)]
    -- Both lists have the numbers in use, and neither has one twice.
    apply List.Perm.length_eq
    rw [List.perm_ext_iff_of_nodup (Sink.inUse_nodup (hw s (List.mem_of_getElem? hs)))]
    · intro tap
      simp only [List.mem_map, List.mem_filter, decide_eq_true_eq]
      constructor
      · intro htap
        exact ⟨⟨i, tap⟩, ⟨(hmem _).mpr ⟨s, hs, htap⟩, rfl⟩, rfl⟩
      · rintro ⟨p, ⟨hp, rfl⟩, rfl⟩
        obtain ⟨s', hs', htap⟩ := (hmem p).mp hp
        rw [hs] at hs'
        cases hs'
        exact htap
    · refine List.Nodup.map_on (fun p hp q hq htap => ?_) (List.Nodup.filter _ hps)
      have hpi := of_decide_eq_true (List.mem_filter.mp hp).2
      have hqi := of_decide_eq_true (List.mem_filter.mp hq).2
      exact (PollerRef.eq_iff (hpi.trans hqi.symm)).mpr htap

end Hub

end Daq
