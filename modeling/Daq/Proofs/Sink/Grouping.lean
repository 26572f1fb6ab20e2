import Daq.Proofs.Sink.Cursor
import Daq.Proofs.Sink.Watching
import Mathlib.Data.List.Forall2

set_option autoImplicit false

/-!
# Blocks with tags in another order

Observers see the tags of a block sample by sample. In what order the tags of different samples
stand in the block makes no difference to them; it only shows where blocks are passed on as they
are. So two runs that differ in nothing else are compared without the tags of the blocks that wait
in streams. No move looks at these: what it does to the state without them depends on the state
without them, and of a block that is pushed it depends on what observers see.

## Main definitions

* `Daq.Block.Reordered` — two blocks that differ in the order of tags on different samples.
* `Daq.Custody.Move.Reordered` — two moves that differ in the order of such tags.
* `Daq.Outlet.untagged`, `Daq.Sink.untagged`, `Daq.Custody.untagged` — a state without the tags of
  waiting blocks.

## Main results

* `Daq.Sink.untagged_push` — what a block does to a sink.
* `Daq.Custody.untagged_perform`, `Daq.Custody.dealing_eq` — moves with reordered blocks have the
  same effect on captures.
* `Daq.Custody.grouping_exact` — tags are shown at their samples and only there, and their order
  across samples changes no capture.
-/

namespace Daq

/-! ### Blocks in another order -/

/-- Two blocks with the same samples, of which the second has the tags of the first in another
order; tags of one index keep their order. -/
structure Block.Reordered (b b' : Block) : Prop where
  /-- The samples are the same. -/
  samples : b'.samples = b.samples
  /-- The tags are the same, in some order. -/
  tags : b'.tags.Perm b.tags
  /-- Tags of one index are in the same order. -/
  order : ∀ i, (b'.tags.filter fun t => t.index == i) = b.tags.filter fun t => t.index == i

/-- Of reordered blocks observers see the same. -/
lemma Block.Reordered.aligned {b b' : Block} (h : b.Reordered b') : b'.aligned = b.aligned := by
  simp only [aligned_eq, track, h.samples, h.order]

/-- Neighbouring tags with different indices may change places. -/
lemma Block.reordered_swap (samples : List Single) (front back : List Tag) {s t : Tag}
    (h : s.index ≠ t.index) :
    Reordered ⟨samples, front ++ s :: t :: back⟩ ⟨samples, front ++ t :: s :: back⟩ where
  samples := rfl
  tags := (List.Perm.swap s t back).append_left front
  order i := by
    simp only [List.filter_append, List.filter_cons]
    congr 1
    by_cases hs : s.index = i
    · simp [hs, show t.index ≠ i from fun ht => h (hs.trans ht.symm)]
    · simp [hs]

/-- Whether a queue has room for an item does not depend on what the items are. -/
lemma Queue.map_publish {α : Type} (f : α → α) (q : Queue α) (a : α) :
    { q.publish a with items := (q.publish a).items.map f } =
      ({ q with items := q.items.map f } : Queue α).publish (f a) := by
  unfold publish
  simp only [List.length_map]
  split
  · simp
  · rfl

namespace Outlet

/-- The outlet without the tags of the blocks that wait in a stream. -/
def untagged : Outlet → Outlet
  | .stream q => .stream { q with items := q.items.map fun b => { b with tags := [] } }
  | .captures o q => .captures o q

/-- A block is taken in whatever tags waiting blocks have, and its own tags only count where they
are aligned. -/
lemma untagged_feed (d : Descriptor) (b : Block) (xs : List (Single × List Tag)) (o : Outlet) :
    (o.feed d b xs).untagged = o.untagged.feed d { b with tags := [] } xs := by
  cases o with
  | stream q =>
    exact congrArg stream (q.map_publish (fun b => { b with tags := [] }) b)
  | captures o q => rfl

/-- A queue is finished whatever tags waiting blocks have. -/
lemma untagged_finish (o : Outlet) : o.finish.untagged = o.untagged.finish := by cases o <;> rfl

/-- Items are skipped whatever tags waiting blocks have. -/
lemma untagged_skip (o : Outlet) (n : Nat) : (o.skip n).untagged = o.untagged.skip n := by
  cases o with
  | stream q => simp only [skip, untagged, List.map_drop]
  | captures o q => rfl

/-- A block offers the same captures whatever tags waiting blocks have. -/
lemma offers_untagged (d : Descriptor) (b : Block) (o : Outlet) :
    o.untagged.offers d b = o.offers d b := by cases o <;> rfl

/-- Where nothing waits there are no tags. -/
lemma untagged_of_nil {o : Outlet} (h : o.items = []) : o.untagged = o := by
  cases o with
  | stream q =>
    have hq : q.items = [] := List.map_eq_nil_iff.mp h
    rw [untagged, hq, List.map_nil, ← hq]
  | captures o q => rfl

/-- The queue of captures is the same whatever tags waiting blocks have. -/
lemma captures?_untagged (o : Outlet) : o.untagged.captures? = o.captures? := by cases o <;> rfl

end Outlet

namespace Tap

/-- The tap without the tags of the blocks that wait in a stream. -/
def untagged (t : Tap) : Tap := { t with outlet := t.outlet.untagged }

/-- An outlet is changed whatever tags waiting blocks have, if the change does not depend on
them. -/
lemma untagged_mapOutlet {f g : Outlet → Outlet} (h : ∀ o, (f o).untagged = g o.untagged)
    (t : Tap) :
    untagged { t with outlet := f t.outlet } =
      { t.untagged with outlet := g t.untagged.outlet } := by
  simp only [untagged, h]

end Tap

namespace Sink

/-- The sink without the tags of the blocks that wait in streams. -/
def untagged (s : Sink) : Sink := { s with taps := s.taps.map Tap.untagged }

section Untagged

variable (s : Sink)

/-- Taps are changed whatever tags waiting blocks have, if the change does not depend on them. -/
lemma untagged_mapTaps {f g : Tap → Tap} (h : ∀ t, (f t).untagged = g t.untagged) :
    untagged { s with taps := s.taps.map f } =
      { s.untagged with taps := s.untagged.taps.map g } := by
  simp only [untagged, List.map_map]
  congr 1
  exact List.map_congr_left fun t _ => h t

/-- Released taps are removed whatever tags waiting blocks have. -/
lemma untagged_prune : s.prune.untagged = s.untagged.prune := by
  simp only [untagged, prune, List.filter_map]
  rfl

/-- What a block does to a sink depends on its samples and on what observers see of it. -/
lemma untagged_push (b : Block) :
    (s.push b).untagged =
      if s.untagged.stopped then s.untagged
      else { s.untagged.prune with
        taps := s.untagged.prune.taps.map fun t =>
          { t with
            outlet := t.outlet.feed s.untagged.descriptor { b with tags := [] } b.aligned } } := by
  rw [← untagged_prune, push, apply_ite untagged]
  have hfeed := Tap.untagged_mapOutlet (Outlet.untagged_feed s.descriptor b b.aligned)
  exact if_congr Iff.rfl rfl (s.prune.untagged_mapTaps hfeed)

/-- A sink stops whatever tags waiting blocks have. -/
lemma untagged_stop : s.stop.untagged = s.untagged.stop := by
  rw [stop, apply_ite untagged]
  have hfinish := Tap.untagged_mapOutlet Outlet.untagged_finish
  exact if_congr Iff.rfl rfl (untagged_mapTaps { s with stopped := true } hfinish)

/-- One tap is changed whatever tags waiting blocks have, if the change does not depend on them. -/
lemma untagged_modifyTap (id : Nat) {f : Tap → Tap} (hf : ∀ t, (f t).untagged = f t.untagged) :
    (s.modifyTap id f).untagged = s.untagged.modifyTap id f := by
  refine s.untagged_mapTaps fun t => ?_
  rw [apply_ite Tap.untagged, hf]
  rfl

/-- A poller is requested whatever tags waiting blocks have. -/
lemma attach_untagged (capacity : Nat) (r : Request) :
    s.untagged.attach capacity r =
      (s.attach capacity r).map fun granted => (granted.1, granted.2.untagged) := by
  have hsame : s.untagged.outletFor capacity r = s.outletFor capacity r := by cases r <;> rfl
  rw [attach, attach, hsame]
  cases ho : s.outletFor capacity r with
  | error e => rfl
  | ok o =>
    have hnew : o.untagged = o := Outlet.untagged_of_nil (outletFor_items ho).1
    have hfinished : o.finish.untagged = o.finish := by rw [Outlet.untagged_finish, hnew]
    change _ = Except.ok _
    simp only [untagged, List.map_append, List.map_cons, List.map_nil, Tap.untagged]
    rw [apply_ite Outlet.untagged, hnew, hfinished]
    rfl

/-- A tap is found whatever tags waiting blocks have. -/
lemma tap?_untagged (id : Nat) : s.untagged.tap? id = (s.tap? id).map Tap.untagged :=
  s.tap?_mapOutlets Tap.untagged (fun _ => rfl) id

end Untagged

end Sink

/-! ### Runs with reordered blocks -/

namespace Custody

/-- Two moves that push reordered blocks, or the same move twice. -/
inductive Move.Reordered : Move → Move → Prop where
  /-- A block is pushed. -/
  | push {b b' : Block} (h : b.Reordered b') : Reordered (.push b) (.push b')
  /-- A graph pushes a block. -/
  | through {b b' : Block} (h : b.Reordered b') :
    Reordered (.through (.push b)) (.through (.push b'))
  /-- A move of any kind. -/
  | same (m : Move) : Reordered m m

/-- A move that pushes a block is one of two. -/
lemma Move.of_block? {m : Move} {b : Block} (h : m.block? = some b) :
    m = .push b ∨ m = .through (.push b) := by
  cases m with
  | push b' => exact .inl (congrArg push (Option.some.inj h))
  | through u =>
    cases u with
    | push b' => exact .inr (congrArg (fun b => through (.push b)) (Option.some.inj h))
    | stop => cases h
    | drop => cases h
  | attach capacity r => cases h
  | stop => cases h
  | count => cases h
  | take id limit => cases h
  | drop id => cases h

/-- Either both moves push blocks, of which one is a reordering of the other, or they are the same
and push none. -/
lemma Move.Reordered.block? {m m' : Move} (h : m.Reordered m') :
    (∃ b b', m.block? = some b ∧ m'.block? = some b' ∧ b.Reordered b') ∨
      (m' = m ∧ m.block? = none) := by
  cases h with
  | push hb => exact .inl ⟨_, _, rfl, rfl, hb⟩
  | through hb => exact .inl ⟨_, _, rfl, rfl, hb⟩
  | same =>
    cases hm : m.block? with
    | none => exact .inr ⟨rfl, rfl⟩
    | some b => exact .inl ⟨b, b, rfl, rfl, rfl, .refl _, fun _ => rfl⟩

/-- What a move that pushes a block does. -/
lemma perform_of_block? (c : Custody) {m : Move} {b : Block} (hm : m.block? = some b) :
    c.perform m = { c with sink := c.sink.push b } := by
  rcases Move.of_block? hm with rfl | rfl <;> rfl

/-- What a move that pushes a block does to the queue of a poller. -/
lemma dealing_of_block? (c : Custody) (id : Nat) {m : Move} {b : Block} (hm : m.block? = some b) :
    c.dealing id m = if c.sink.stopped then [] else (c.offers id b).map .publish := by
  rcases Move.of_block? hm with rfl | rfl <;> simp [dealing, Move.isStop, Move.block?]

/-- What a move that pushes no block does to the queue of a poller depends on whether the sink has
stopped. -/
lemma dealing_of_none {c c' : Custody} (hs : c'.sink.stopped = c.sink.stopped) (id : Nat) {m : Move}
    (hm : m.block? = none) : c'.dealing id m = c.dealing id m := by
  cases m <;> simp only [dealing, hs, hm, Option.toList_none, List.flatMap_nil]

/-- The state without the tags of the blocks that wait in streams. -/
def untagged (c : Custody) : Custody := { c with sink := c.sink.untagged }

section Untagged

variable (c : Custody)

/-- A move that pushes no block has its effect whatever tags waiting blocks have. -/
lemma untagged_perform_of_none {m : Move} (hm : m.block? = none) :
    (c.perform m).untagged = c.untagged.perform m := by
  cases m with
  | attach capacity r =>
    have hattach := c.sink.attach_untagged capacity r
    simp only [perform, untagged, hattach]
    cases c.sink.attach capacity r <;> rfl
  | push b => cases hm
  | stop => simp only [perform, untagged, Sink.untagged_stop]
  | through u =>
    cases u with
    | push b => cases hm
    | stop => simp only [perform, Sink.through, untagged, Sink.untagged_stop]
    | drop => simp only [perform, Sink.through, untagged, Sink.untagged_stop]
  | count => simp only [perform, untagged, Sink.untagged_prune]
  | take id limit =>
    have htake := c.sink.untagged_modifyTap id
      (Tap.untagged_mapOutlet fun o => o.untagged_skip limit)
    simp only [perform, untagged, htake]
  | drop id =>
    have hdrop := c.sink.untagged_modifyTap id (f := fun t => { t with released := true })
      fun _ => rfl
    simp only [perform, untagged, hdrop]

/-- A block offers the same captures whatever tags waiting blocks have. -/
lemma offers_untagged (id : Nat) (b : Block) : c.untagged.offers id b = c.offers id b := by
  rw [offers, offers]
  change (c.sink.untagged.tap? id).elim [] _ = _
  rw [Sink.tap?_untagged]
  cases c.sink.tap? id with
  | none => rfl
  | some t => exact t.outlet.offers_untagged _ b

/-- What a block offers depends on what observers see of it. -/
lemma offers_congr (id : Nat) {b b' : Block} (h : b'.aligned = b.aligned) :
    c.offers id b' = c.offers id b := by
  have houtlet : ∀ (d : Descriptor) (o : Outlet), o.offers d b' = o.offers d b := by
    intro d o
    cases o with
    | stream q => rfl
    | captures o q => simp only [Outlet.offers, h]
  simp only [offers, houtlet]

/-- The queue of captures of a poller is the same whatever tags waiting blocks have. -/
lemma captures?_untagged (id : Nat) :
    ((c.untagged.sink.tap? id).bind fun t => t.outlet.captures?) =
      (c.sink.tap? id).bind fun t => t.outlet.captures? := by
  change ((c.sink.untagged.tap? id).bind fun t => t.outlet.captures?) = _
  rw [Sink.tap?_untagged]
  cases c.sink.tap? id with
  | none => rfl
  | some t => exact t.outlet.captures?_untagged

end Untagged

section Reordered

variable {c c' : Custody}

/-- **Reordered blocks have the same effect**, in states that differ only in the tags of waiting
blocks. -/
theorem untagged_perform (hc : c'.untagged = c.untagged) {m m' : Move} (hm : m.Reordered m') :
    (c'.perform m').untagged = (c.perform m).untagged := by
  rcases hm.block? with ⟨b, b', hb, hb', h⟩ | ⟨rfl, hnone⟩
  · obtain ⟨hsink, hheld⟩ := Custody.mk.inj hc
    have hblock : ({ b' with tags := [] } : Block) = { b with tags := [] } := by rw [h.samples]
    have hpush : (c'.sink.push b').untagged = (c.sink.push b).untagged := by
      rw [Sink.untagged_push, Sink.untagged_push, hsink, h.aligned, hblock]
    rw [perform_of_block? c' hb', perform_of_block? c hb]
    simp only [untagged, hpush, hheld]
  · rw [untagged_perform_of_none c' hnone, untagged_perform_of_none c hnone, hc]

/-- **Reordered blocks offer the same captures** to every poller. -/
theorem dealing_eq (hc : c'.untagged = c.untagged) (id : Nat) {m m' : Move} (hm : m.Reordered m') :
    c'.dealing id m' = c.dealing id m := by
  have hsink : c'.sink.untagged = c.sink.untagged := (Custody.mk.inj hc).1
  have hstopped : c'.sink.stopped = c.sink.stopped := (Sink.mk.inj hsink).2.2.2.2
  rcases hm.block? with ⟨b, b', hb, hb', h⟩ | ⟨rfl, hnone⟩
  · have hoffers : c'.offers id b' = c.offers id b := by
      rw [← offers_untagged c', hc, offers_untagged, offers_congr c id h.aligned]
    rw [dealing_of_block? c' id hb', dealing_of_block? c id hb, hstopped, hoffers]
  · exact dealing_of_none hstopped id hnone

variable {moves moves' : List Move}

/-- Runs with reordered blocks have the same effect. -/
lemma untagged_run (hc : c'.untagged = c.untagged) (h : List.Forall₂ Move.Reordered moves moves') :
    (c'.run moves').untagged = (c.run moves).untagged := by
  induction h generalizing c c' with
  | nil => exact hc
  | cons hm _ ih => exact ih (untagged_perform hc hm)

/-- Runs with reordered blocks offer the same captures to every poller. -/
lemma dealings_eq (hc : c'.untagged = c.untagged) (id : Nat)
    (h : List.Forall₂ Move.Reordered moves moves') :
    c'.dealings id moves' = c.dealings id moves := by
  induction h generalizing c c' with
  | nil => rfl
  | cons hm _ ih =>
    rw [dealings, dealings, dealing_eq hc id hm, ih (untagged_perform hc hm)]

end Reordered

/-- **Tags are shown at their samples and only there, and their order across samples changes no
capture.**

Take any block. The cursor ends behind the last tag inside the block, and at each sample it has
shown the tags with that index, in the order of the block. So a tag inside the block is seen at one
sample, as often as it occurs in the block, and a tag beyond the block is never seen.

Take any state of a sink and its pollers, and any two series of moves that differ only in the order
of tags of different samples in the blocks that are pushed. Then every poller is offered the same
captures in the same order, its consumer finds the same queue, and the same pollers are held. -/
theorem grouping_exact :
    (∀ b : Block,
      Cursor.sweep b.orderedTags 0 0 b.samples = (b.aligned, b.orderedTags.length) ∧
        b.orderedTags.Perm (b.tags.filter fun t => t.index < b.samples.length) ∧
        b.aligned.length = b.samples.length ∧
        (∀ (i : Nat) (hi : i < b.samples.length),
          b.aligned[i]? = some (b.samples[i], b.tags.filter fun t => t.index == i)) ∧
        ∀ (t : Tag) (i : Nat), (b.seen i).count t =
          if t.index = i ∧ i < b.samples.length then b.tags.count t else 0) ∧
      ∀ (c : Custody) (moves moves' : List Move), List.Forall₂ Move.Reordered moves moves' →
        (c.run moves').held = (c.run moves).held ∧
          ∀ id, c.dealings id moves' = c.dealings id moves ∧
            (((c.run moves').sink.tap? id).bind fun t => t.outlet.captures?) =
              ((c.run moves).sink.tap? id).bind fun t => t.outlet.captures? := by
  constructor
  · intro b
    exact ⟨b.sweep_orderedTags, b.orderedTags_perm, b.length_aligned,
      fun _ => b.getElem?_aligned, b.count_seen⟩
  · intro c moves moves' h
    have hrun : (c.run moves').untagged = (c.run moves).untagged := untagged_run rfl h
    refine ⟨(Custody.mk.inj hrun).2, fun id => ⟨dealings_eq rfl id h, ?_⟩⟩
    rw [← captures?_untagged, hrun, captures?_untagged]

/-- A block with tags in no order: two on the second sample, one beyond the block, and one on the
first sample. -/
def sampleBlock : Block where
  samples := [⟨1⟩, ⟨2⟩]
  tags := [.ofTrigger 1 "T", .ofTrigger 7 "T", .ofTrigger 1 "U", .ofTrigger 0 "T"]

/-- The cursor passes three tags of four, and shows those on the second sample in the order of the
block. If the last two change places, a poller is offered the same two captures. -/
theorem grouping_exact_sample :
    let c := (start default ⟨0⟩).perform (.attach 4 (.triggered (Tag.selectedBy "T") 0 1))
    let swapped : Block := { sampleBlock with
      tags := [.ofTrigger 1 "T", .ofTrigger 7 "T", .ofTrigger 0 "T", .ofTrigger 1 "U"] }
    (Cursor.sweep sampleBlock.orderedTags 0 0 sampleBlock.samples).2 = 3 ∧
      sampleBlock.aligned[1]? = some (⟨2⟩, [.ofTrigger 1 "T", .ofTrigger 1 "U"]) ∧
      (sampleBlock.seen 1).count (.ofTrigger 7 "T") = 0 ∧
      (c.offers 0 sampleBlock).length = 2 ∧
      c.dealings 0 [.push swapped] = c.dealings 0 [.push sampleBlock] := by
  intro c swapped
  obtain ⟨hblocks, hruns⟩ := grouping_exact
  obtain ⟨hsweep, hperm, -, haligned, hseen⟩ := hblocks sampleBlock
  have hswapped : sampleBlock.Reordered swapped :=
    Block.reordered_swap [⟨1⟩, ⟨2⟩] [.ofTrigger 1 "T", .ofTrigger 7 "T"] [] (by decide +kernel)
  have hcaptures := (hruns c [.push sampleBlock] [.push swapped] (.cons (.push hswapped) .nil)).2 0
  refine ⟨?_, (haligned 1 (by decide)).trans (by decide +kernel),
    (hseen (.ofTrigger 7 "T") 1).trans (by decide +kernel), ?_, hcaptures.1⟩
  · rw [hsweep, hperm.length_eq]
    decide +kernel
  · have hwatches : c.sink.Watches 0
        (.trigger { selects := Tag.selectedBy "T", pre := 0, post := 1 }) (.ofCapacity 4) :=
      ⟨_, rfl, rfl, rfl⟩
    rw [offers_eq hwatches]
    decide +kernel

end Custody

end Daq
