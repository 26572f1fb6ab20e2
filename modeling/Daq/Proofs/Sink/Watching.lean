import Daq.Proofs.Custody
import Daq.Proofs.Queue
import Daq.Proofs.Sink.Track

set_option autoImplicit false

/-!
# What one observer sees of a sink

A sink has many taps, and consumers come, take items and go while blocks are pushed. The observer of
one tap sees nothing of the others: it watches the blocks that are pushed after it was attached and
before the sink stops, one after the other, and what it cuts out is offered to its queue. So
whatever is said about its captures is said about one observer and one track.

## Main definitions

* `Daq.Observer.cut`, `Daq.Observer.cutAll` — an observer that watches several samples, or blocks.
* `Daq.Observer.Keeps` — what an observer keeps from sample to sample.
* `Daq.Custody.engage` — a new poller with a given observer.
* `Daq.Custody.dealings` — what producer and consumer do to the queue of one poller.
* `Daq.Custody.pushed` — the blocks before the first stop.

## Main results

* `Daq.Observer.Keeps.cutAll` — what is kept from sample to sample holds of the whole track, however
  it is cut into blocks.
* `Daq.Custody.engaged_run` — the queue of one poller in every run.
-/

namespace Daq

/-! ### One observer -/

namespace Observer

/-- Watch several samples: the observer afterwards, and the captures cut out. -/
def cut (d : Descriptor) (o : Observer) : Track → Observer × List Capture
  | [] => (o, [])
  | x :: xs =>
    let r := o.step d x.1 x.2
    let rest := cut d r.1 xs
    (rest.1, r.2 ++ rest.2)

/-- Watch several blocks. -/
def cutAll (d : Descriptor) (o : Observer) : List Block → Observer × List Capture
  | [] => (o, [])
  | b :: bs =>
    let r := o.cut d b.track
    let rest := cutAll d r.1.trim bs
    (rest.1, r.2 ++ rest.2)

/-- Blocks are watched one after the other. -/
lemma cutAll_append (d : Descriptor) (o : Observer) (bs bs' : List Block) :
    o.cutAll d (bs ++ bs') =
      (((o.cutAll d bs).1.cutAll d bs').1,
        (o.cutAll d bs).2 ++ ((o.cutAll d bs).1.cutAll d bs').2) := by
  induction bs generalizing o with
  | nil => rfl
  | cons b bs ih => simp only [List.cons_append, cutAll, ih, List.append_assoc]

/-- Samples that are watched on behalf of a queue: what is cut out is published. -/
lemma foldl_watch (d : Descriptor) (xs : Track) (o : Observer) (q : Queue Capture) :
    xs.foldl (watch d) (o, q) = ((o.cut d xs).1, q.publishAll (o.cut d xs).2) := by
  induction xs generalizing o q with
  | nil => rfl
  | cons x xs ih =>
    rw [List.foldl_cons]
    refine (ih (o.step d x.1 x.2).1 (q.publishAll (o.step d x.1 x.2).2)).trans ?_
    simp only [cut, Queue.publishAll, List.foldl_append]

/-- A relation between a track, the observer that has watched it and the captures that it has cut
out, which is kept from sample to sample and at the ends of blocks. -/
structure Keeps (d : Descriptor) (R : Track → Observer → List Capture → Prop) : Prop where
  /-- It is kept by one more sample. -/
  step : ∀ {xs : Track} {o : Observer} {out : List Capture}, R xs o out →
    ∀ x, R (xs ++ [x]) (o.step d x.1 x.2).1 (out ++ (o.step d x.1 x.2).2)
  /-- It is kept at the end of a block. -/
  trim : ∀ {xs : Track} {o : Observer} {out : List Capture}, R xs o out → R xs o.trim out

namespace Keeps

variable {d : Descriptor} {R : Track → Observer → List Capture → Prop}

/-- What is kept by one more sample is kept by several. -/
lemma cut (h : Keeps d R) {xs : Track} {o : Observer} {out : List Capture} (hR : R xs o out)
    (ys : Track) : R (xs ++ ys) (o.cut d ys).1 (out ++ (o.cut d ys).2) := by
  induction ys generalizing xs o out with
  | nil => simpa [Observer.cut] using hR
  | cons y ys ih => simpa [Observer.cut] using ih (h.step hR y)

/-- **What is kept from sample to sample does not depend on how the track is cut into blocks.** -/
theorem cutAll (h : Keeps d R) {xs : Track} {o : Observer} {out : List Capture} (hR : R xs o out)
    (bs : List Block) :
    R (xs ++ Track.ofBlocks bs) (o.cutAll d bs).1 (out ++ (o.cutAll d bs).2) := by
  induction bs generalizing xs o out with
  | nil => simpa [Observer.cutAll, Track.ofBlocks] using hR
  | cons b bs ih => simpa [Observer.cutAll, Track.ofBlocks] using ih (h.trim (h.cut hR b.track))

end Keeps

end Observer

/-! ### One tap -/

namespace Sink

/-- The tap with this number is in use, with this observer and this queue. -/
def Watches (s : Sink) (id : Nat) (o : Observer) (q : Queue Capture) : Prop :=
  ∃ t, s.tap? id = some t ∧ t.released = false ∧ t.outlet = .captures o q

/-- A sink with one more tap. -/
def withTap (s : Sink) (o : Outlet) : Sink :=
  { s with taps := s.taps ++ [{ id := s.attached, outlet := o }], attached := s.attached + 1 }

/-- A request at a sink that has not stopped adds the outlet that it asks for. -/
lemma attach_eq_withTap {s : Sink} (hs : s.stopped = false) {capacity : Nat} {r : Request}
    {o : Outlet} (ho : s.outletFor capacity r = .ok o) :
    s.attach capacity r = .ok (s.attached, s.withTap o) := by
  simp [attach, ho, hs, withTap]

/-- A tap whose queue is open leaves a sink well-formed. -/
lemma WellFormed.withTap {s : Sink} (hw : s.WellFormed) {o : Outlet} (ho : o.finished = false) :
    (s.withTap o).WellFormed := by
  have hmem : ∀ t ∈ (s.withTap o).taps, t ∈ s.taps ∨ t = { id := s.attached, outlet := o } :=
    fun t ht => by simpa [Sink.withTap] using ht
  refine ⟨?_, ?_, ?_⟩
  · intro t ht
    rcases hmem t ht with ht | rfl
    · exact Nat.lt_succ_of_lt (hw.id_lt t ht)
    · exact Nat.lt_succ_self _
  · rw [Sink.withTap, List.map_append, List.nodup_append]
    refine ⟨hw.nodup, by simp, ?_⟩
    intro i hi j hj
    obtain ⟨t, ht, rfl⟩ := List.mem_map.mp hi
    obtain rfl : j = s.attached := by simpa using hj
    exact (hw.id_lt t ht).ne
  · intro t ht hfinished
    rcases hmem t ht with ht | rfl
    · exact hw.stopped_of_finished t ht hfinished
    · cases ho.symm.trans hfinished

/-- A new tap is in use. -/
lemma watches_withTap {s : Sink} (hw : s.WellFormed) (o : Observer) (q : Queue Capture) :
    (s.withTap (.captures o q)).Watches s.attached o q := by
  refine ⟨{ id := s.attached, outlet := .captures o q }, ?_, rfl, rfl⟩
  have hnone := s.tap?_eq_none hw (le_refl s.attached)
  unfold tap? at hnone ⊢
  rw [withTap, List.find?_append, hnone]
  simp

/-- What has become of the tap of a poller that had this observer and whose queue has this account:
it was made to watch the blocks, and its queue went through the steps. -/
structure Dealt (s : Sink) (id : Nat) (o : Observer) (x : Account Capture) (bs : List Block)
    (steps : List (QueueStep Capture)) : Prop where
  /-- The observer has watched the blocks, and the queue went through the steps. -/
  watches : s.Watches id (o.cutAll s.descriptor bs).1 (x.run steps).queue
  /-- What was published is what the observer has cut out. -/
  published : steps.filterMap QueueStep.published? = (o.cutAll s.descriptor bs).2

namespace Dealt

variable {s s' : Sink} {id : Nat} {o : Observer} {x : Account Capture}

/-- Nothing has happened. -/
lemma idle (h : s.Watches id o x.queue) : s.Dealt id o x [] [] where
  watches := h
  published := rfl

/-- First some blocks and steps, then some more. -/
lemma trans {bs bs' : List Block} {steps steps' : List (QueueStep Capture)}
    (h : s.Dealt id o x bs steps) (hd : s'.descriptor = s.descriptor)
    (h' : s'.Dealt id (o.cutAll s.descriptor bs).1 (x.run steps) bs' steps') :
    s'.Dealt id o x (bs ++ bs') (steps ++ steps') where
  watches := by
    have hrun : x.run (steps ++ steps') = (x.run steps).run steps' := List.foldl_append
    rw [Observer.cutAll_append, hrun, hd]
    exact hd ▸ h'.watches
  published := by
    rw [Observer.cutAll_append, List.filterMap_append, hd, h.published, h'.published, hd]

end Dealt

namespace Watches

variable {s : Sink} {id : Nat} {o : Observer} {q : Queue Capture}

/-- A block is watched, and what is cut out is published. -/
lemma push (h : s.Watches id o q) (hs : s.stopped = false) (b : Block) :
    (s.push b).Watches id (o.cut s.descriptor b.track).1.trim
      (q.publishAll (o.cut s.descriptor b.track).2) := by
  obtain ⟨t, ht, hr, hout⟩ := h
  have hpush : s.push b = { s.prune with
      taps := s.prune.taps.map fun t =>
        { t with outlet := t.outlet.feed s.descriptor b b.aligned } } := by
    rw [Sink.push, hs]
    rfl
  refine ⟨{ t with outlet := t.outlet.feed s.descriptor b b.aligned }, ?_, hr, ?_⟩
  · rw [hpush]
    refine (s.prune.tap?_mapOutlets
      (fun t => { t with outlet := t.outlet.feed s.descriptor b b.aligned })
      (fun _ => rfl) id).trans ?_
    rw [s.tap?_prune ht hr]
    rfl
  · simp only [hout, Outlet.feed, b.aligned_eq, Observer.foldl_watch]

/-- A stop finishes the queue. -/
lemma stop (h : s.Watches id o q) (hs : s.stopped = false) : s.stop.Watches id o q.finish := by
  obtain ⟨t, ht, hr, hout⟩ := h
  have hstop : s.stop = { s with
      stopped := true
      taps := s.taps.map fun t => { t with outlet := t.outlet.finish } } := by
    rw [Sink.stop, hs]
    rfl
  refine ⟨{ t with outlet := t.outlet.finish }, ?_, hr, ?_⟩
  · rw [hstop]
    refine (s.tap?_mapOutlets (fun t => { t with outlet := t.outlet.finish })
      (fun _ => rfl) id).trans ?_
    rw [ht]
    rfl
  · simp only [hout, Outlet.finish]

/-- The removal of released taps leaves a tap in use alone. -/
lemma prune (h : s.Watches id o q) : s.prune.Watches id o q := by
  obtain ⟨t, ht, hr, hout⟩ := h
  exact ⟨t, s.tap?_prune ht hr, hr, hout⟩

/-- A new tap leaves the others alone. -/
lemma attach (h : s.Watches id o q) (hw : s.WellFormed) {capacity new : Nat} {r : Request}
    {s' : Sink} (ha : s.attach capacity r = .ok (new, s')) : s'.Watches id o q := by
  obtain ⟨t, ht, hr, hout⟩ := h
  have hne : id ≠ new := by
    obtain ⟨hmem, rfl⟩ := mem_of_tap? ht
    rw [(attach_eq_ok ha).1]
    exact (hw.id_lt t hmem).ne
  exact ⟨t, ((tap?_attach hw ha id).1 hne).trans ht, hr, hout⟩

/-- A change of one tap leaves the others alone. -/
lemma modifyTap (h : s.Watches id o q) {i : Nat} (hi : id ≠ i) {f : Tap → Tap}
    (hf : ∀ t, (f t).id = t.id) : (s.modifyTap i f).Watches id o q := by
  obtain ⟨t, ht, hr, hout⟩ := h
  refine ⟨t, ?_, hr, hout⟩
  rw [tap?_modifyTap s i id f hf, if_neg hi, ht]

/-- Items are taken from the front of the queue. -/
lemma take (h : s.Watches id o q) (limit : Nat) :
    (s.modifyTap id fun t => { t with outlet := t.outlet.skip limit }).Watches id o
      (q.process .perBatch limit).queue := by
  obtain ⟨t, ht, hr, hout⟩ := h
  refine ⟨{ t with outlet := t.outlet.skip limit }, ?_, hr, ?_⟩
  · rw [tap?_modifyTap s id id (fun t => { t with outlet := t.outlet.skip limit }) fun _ => rfl,
      if_pos rfl, ht]
    rfl
  · simp only [hout, Outlet.skip]
    rfl

end Watches

end Sink

/-- The captures that a block makes an outlet offer to its queue. -/
def Outlet.offers (d : Descriptor) (b : Block) : Outlet → List Capture
  | .stream _ => []
  | .captures o _ => (o.cut d b.aligned).2

/-! ### One poller among many -/

namespace Custody

/-- The block that a move pushes, if it pushes one. -/
def Move.block? : Move → Option Block
  | push b => some b
  | through (.push b) => some b
  | _ => none

/-- The blocks that are pushed before the first stop. -/
def pushed (moves : List Move) : List Block :=
  (moves.takeWhile fun m => !m.isStop).filterMap Move.block?

/-- The captures that a block offers to the queue of a poller. -/
def offers (c : Custody) (id : Nat) (b : Block) : List Capture :=
  (c.sink.tap? id).elim [] fun t => t.outlet.offers c.sink.descriptor b

/-- What a move does to the queue of a poller: its consumer takes items, a block offers captures, or
a stop finishes the queue. Nothing comes from a sink that has stopped. -/
def dealing (c : Custody) (id : Nat) : Move → List (QueueStep Capture)
  | .take i limit => if i = id then [.process .perBatch limit] else []
  | m =>
    if c.sink.stopped then []
    else if m.isStop then [.finish]
    else (m.block?.toList.flatMap (c.offers id)).map .publish

/-- What several moves do to the queue of a poller. -/
def dealings (c : Custody) (id : Nat) : List Move → List (QueueStep Capture)
  | [] => []
  | m :: moves => c.dealing id m ++ (c.perform m).dealings id moves

/-- A new poller whose observer has seen nothing yet. -/
def engage (c : Custody) (capacity : Nat) (o : Observer) : Custody where
  sink := c.sink.withTap (.captures o (.ofCapacity capacity))
  held := c.held ++ [c.sink.attached]

/-- The blocks that a sink takes in in the course of a move. -/
def takenIn (c : Custody) (m : Move) : List Block :=
  if c.sink.stopped then [] else m.block?.toList

/-- The blocks that a sink takes in in the course of several moves. -/
def taken (c : Custody) : List Move → List Block
  | [] => []
  | m :: moves => c.takenIn m ++ (c.perform m).taken moves

variable {c : Custody}

/-- A request that asks for an observer engages it. -/
lemma perform_attach_eq (hs : c.sink.stopped = false) {capacity : Nat} {r : Request} {o : Observer}
    (ho : c.sink.outletFor capacity r = .ok (.captures o (.ofCapacity capacity))) :
    c.perform (.attach capacity r) = c.engage capacity o := by
  simp only [perform, Sink.attach_eq_withTap hs ho]
  rfl

/-- A new poller keeps taps and pollers in agreement. -/
lemma Sound.engage (hc : c.Sound) (hs : c.sink.stopped = false) (capacity : Nat) (o : Observer) :
    (c.engage capacity o).Sound where
  wellFormed := hc.wellFormed.withTap rfl
  held := by
    rw [Custody.engage, ← hc.held]
    simp [Sink.inUse, Sink.withTap]
  finished hstopped := by cases hs.symm.trans hstopped

/-- A sink keeps its descriptor. -/
lemma descriptor_perform (c : Custody) (m : Move) :
    (c.perform m).sink.descriptor = c.sink.descriptor := by
  have hpush : ∀ b, (c.sink.push b).descriptor = c.sink.descriptor := by
    intro b
    unfold Sink.push
    split <;> rfl
  have hstop : c.sink.stop.descriptor = c.sink.descriptor := by
    unfold Sink.stop
    split <;> rfl
  cases m with
  | attach capacity r =>
    rcases c.perform_attach capacity r with ⟨id, s, h, hm⟩ | ⟨e, -, hm⟩
    · rw [hm]
      unfold Sink.attach at h
      split at h
      · cases h
      · cases h
        rfl
    · rw [hm]
  | push b => exact hpush b
  | stop => exact hstop
  | through u =>
    cases u with
    | push b => exact hpush b
    | stop => exact hstop
    | drop => exact hstop
  | count => rfl
  | take id limit => rfl
  | drop id => rfl

/-- Where nothing has stopped yet, the blocks before the first stop are taken in. -/
lemma taken_eq (c : Custody) (moves : List Move) :
    c.taken moves = if c.sink.stopped then [] else pushed moves := by
  induction moves generalizing c with
  | nil => simp [taken, pushed]
  | cons m moves ih =>
    rw [taken, ih, stopped_perform, takenIn, pushed]
    cases hs : c.sink.stopped with
    | true => simp
    | false =>
      cases hm : m.isStop with
      | true =>
        -- A stop pushes no block.
        have hnone : m.block? = none := by
          cases m with
          | through u => cases u <;> first | rfl | cases hm
          | _ => first | rfl | cases hm
        simp [pushed, hm, hnone]
      | false => cases hb : m.block? <;> simp [pushed, hm, hb]

/-- A sink keeps its descriptor in the course of several moves. -/
lemma descriptor_run (c : Custody) (moves : List Move) :
    (c.run moves).sink.descriptor = c.sink.descriptor := by
  induction moves generalizing c with
  | nil => rfl
  | cons m moves ih => exact (ih (c.perform m)).trans (c.descriptor_perform m)

section Run

variable {id : Nat} {o : Observer} {x : Account Capture}

/-- Publications one after the other. -/
lemma queue_run_publish (x : Account Capture) (cs : List Capture) :
    (x.run (cs.map .publish)).queue = x.queue.publishAll cs := by
  induction cs generalizing x with
  | nil => rfl
  | cons a cs ih => exact ih (x.perform (.publish a))

/-- What a block offers is what the observer cuts out. -/
lemma offers_eq {q : Queue Capture} (h : c.sink.Watches id o q) (b : Block) :
    c.offers id b = (o.cut c.sink.descriptor b.track).2 := by
  obtain ⟨t, ht, -, hout⟩ := h
  rw [offers, ht, Option.elim_some, hout, Outlet.offers, b.aligned_eq]

/-- A block is watched, unless the sink has stopped. -/
lemma dealt_push (h : c.sink.Watches id o x.queue) (b : Block) :
    (c.sink.push b).Dealt id o x (c.takenIn (.push b)) (c.dealing id (.push b)) := by
  cases hs : c.sink.stopped with
  | true =>
    have hdealing : c.dealing id (.push b) = [] := if_pos hs
    have htaken : c.takenIn (.push b) = [] := if_pos hs
    rw [hdealing, htaken, Sink.push_of_stopped hs]
    exact .idle h
  | false =>
    have hdealing : c.dealing id (.push b) = (c.offers id b).map .publish := by
      simp [dealing, hs, Move.isStop, Move.block?]
    have htaken : c.takenIn (.push b) = [b] := by simp [takenIn, hs, Move.block?]
    have hd : (c.sink.push b).descriptor = c.sink.descriptor := c.descriptor_perform (.push b)
    rw [hdealing, htaken, offers_eq h b]
    refine ⟨?_, ?_⟩
    · rw [queue_run_publish, hd]
      exact h.push hs b
    · simp [Observer.cutAll, hd, QueueStep.published?, Function.comp_def]

/-- A stop finishes the queue, unless the sink has stopped before. -/
lemma dealt_stop (h : c.sink.Watches id o x.queue) :
    c.sink.stop.Dealt id o x (c.takenIn .stop) (c.dealing id .stop) := by
  have htaken : c.takenIn .stop = [] := ite_self _
  rw [htaken]
  cases hs : c.sink.stopped with
  | true =>
    have hdealing : c.dealing id .stop = [] := if_pos hs
    rw [hdealing, Sink.stop_of_stopped hs]
    exact .idle h
  | false =>
    have hdealing : c.dealing id .stop = [.finish] := by simp [dealing, hs, Move.isStop]
    rw [hdealing]
    exact ⟨h.stop hs, rfl⟩

/-- Of a move that pushes no block and does nothing to the queue the observer sees nothing. -/
lemma dealt_idle {s : Sink} (h : s.Watches id o x.queue) {m : Move} (hblock : m.block? = none)
    (hdealing : c.dealing id m = []) : s.Dealt id o x (c.takenIn m) (c.dealing id m) := by
  rw [takenIn, hblock, hdealing, Option.toList_none, ite_self]
  exact .idle h

/-- **A move, as the observer of one poller sees it**: a block is watched and what is cut out is
offered; all else leaves the observer alone. -/
lemma dealt_perform (hc : c.Sound) (h : c.sink.Watches id o x.queue) {m : Move}
    (hm : m ≠ .drop id) :
    (c.perform m).sink.Dealt id o x (c.takenIn m) (c.dealing id m) := by
  cases m with
  | attach capacity r =>
    have hdealing : c.dealing id (.attach capacity r) = [] := by
      simp [dealing, Move.isStop, Move.block?]
    refine dealt_idle ?_ rfl hdealing
    rcases c.perform_attach capacity r with ⟨new, s, ha, hperform⟩ | ⟨e, -, hperform⟩
    · rw [hperform]
      exact h.attach hc.wellFormed ha
    · rw [hperform]
      exact h
  | push b => exact dealt_push h b
  | stop => exact dealt_stop h
  | through u =>
    cases u with
    | push b => exact dealt_push h b
    | stop => exact dealt_stop h
    | drop => exact dealt_stop h
  | count =>
    have hdealing : c.dealing id .count = [] := by simp [dealing, Move.isStop, Move.block?]
    exact dealt_idle h.prune rfl hdealing
  | take i limit =>
    by_cases hi : i = id
    · subst hi
      have hdealing : c.dealing i (.take i limit) = [.process .perBatch limit] := if_pos rfl
      have htaken : c.takenIn (.take i limit) = [] := ite_self _
      rw [hdealing, htaken]
      exact ⟨h.take limit, rfl⟩
    · have hdealing : c.dealing id (.take i limit) = [] := if_neg hi
      refine dealt_idle ?_ rfl hdealing
      exact h.modifyTap (Ne.symm hi) fun _ => rfl
  | drop i =>
    have hi : id ≠ i := fun hid => hm (hid ▸ rfl)
    have hdealing : c.dealing id (.drop i) = [] := by simp [dealing, Move.isStop, Move.block?]
    refine dealt_idle ?_ rfl hdealing
    exact h.modifyTap hi fun _ => rfl

/-- **Several moves, as the observer of one poller sees them.** -/
theorem dealt_run (hc : c.Sound) (h : c.sink.Watches id o x.queue) {moves : List Move}
    (hkept : ∀ m ∈ moves, m ≠ .drop id) :
    (c.run moves).sink.Dealt id o x (c.taken moves) (c.dealings id moves) := by
  induction moves generalizing c o x with
  | nil => exact .idle h
  | cons m moves ih =>
    have hfirst := dealt_perform hc h (hkept m List.mem_cons_self)
    have hrest := ih (hc.perform m) hfirst.watches fun m' hm' =>
      hkept m' (List.mem_cons_of_mem m hm')
    exact hfirst.trans ((c.perform m).descriptor_run moves) hrest

/-- **The queue of one poller in every run** in which its consumer does not let go of it: the
observer watches the blocks that are pushed before the first stop, and what it cuts out is offered
to the queue, which the consumer empties. -/
lemma dealt_engaged (hc : c.Sound) (hs : c.sink.stopped = false) (capacity : Nat) (o : Observer)
    {moves : List Move} (hkept : ∀ m ∈ moves, m ≠ .drop c.sink.attached) :
    ((c.engage capacity o).run moves).sink.Dealt c.sink.attached o (.start capacity) (pushed moves)
      ((c.engage capacity o).dealings c.sink.attached moves) := by
  have hdealt := dealt_run (hc.engage hs capacity o) (x := .start capacity)
    (Sink.watches_withTap hc.wellFormed o (.ofCapacity capacity)) hkept
  rwa [taken_eq, show (c.engage capacity o).sink.stopped = false from hs] at hdealt

/-- **The offers to one poller in every run.** What its observer keeps from sample to sample holds
at the end between the track of the blocks that were pushed before the first stop and the captures
that were offered; and the queue is that of a producer who offers these and of the consumer. -/
theorem engaged_run (hc : c.Sound) (hs : c.sink.stopped = false) (capacity : Nat)
    {R : Track → Observer → List Capture → Prop} (hR : Observer.Keeps c.sink.descriptor R)
    (hstart : R [] o []) {moves : List Move}
    (hkept : ∀ m ∈ moves, m ≠ .drop c.sink.attached) :
    (∃ t, ((c.engage capacity o).run moves).sink.tap? c.sink.attached = some t ∧
      t.released = false ∧ t.outlet.captures? = some ((Account.start capacity).run
        ((c.engage capacity o).dealings c.sink.attached moves)).queue) ∧
      ∃ o', R (Track.ofBlocks (pushed moves)) o'
        (((c.engage capacity o).dealings c.sink.attached moves).filterMap
          QueueStep.published?) := by
  have hdealt := dealt_engaged hc hs capacity o hkept
  have hwatched := hR.cutAll hstart (pushed moves)
  constructor
  · obtain ⟨t, ht, hr, hout⟩ := hdealt.watches
    exact ⟨t, ht, hr, by rw [hout]; rfl⟩
  · refine ⟨(o.cutAll c.sink.descriptor (pushed moves)).1, ?_⟩
    rw [hdealt.published, descriptor_run]
    exact hwatched

end Run

end Custody

end Daq
