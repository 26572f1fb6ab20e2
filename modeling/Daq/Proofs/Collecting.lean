import Daq.Proofs.Worker.Drain
import Daq.Proofs.Worker.Uninterrupted

set_option autoImplicit false

/-!
# The end of a stream

A collector is called again and again to empty the queue of one poller. In each call it reads the
flag of the producer, takes items one at a time, up to a batch, emits a reply to each of them, and
goes on with the next batch until the queue is found empty; then it returns the flag. Between any
two of these steps producers may act, in the middle of a push or of a stop as well.

A call that returns a raised flag marks the end of the stream: all that the queue has ever accepted
was emitted, and nothing more will come. What makes it so is the order of two steps: the flag is
read before the queue is emptied, so whatever was accepted before the flag was raised is still found
by the same call.

## Main definitions

* `Daq.Collecting` — a poller and its collector, with a record of what went in and what came out.
* `Daq.Collecting.step` — the next step of the collector.
* `Daq.Collecting.Move`, `Daq.Collecting.run` — what producers and collector do, in any order.
* `Daq.Collecting.Faithful` — the record agrees with queue and collector.

## Main results

* `Daq.Collecting.Faithful.perform` — every move keeps a record faithful.
* `Daq.Collecting.all_emitted_of_finished` — a call that returns a raised flag marks the end.
* `Daq.Collecting.exists_iterate_step` — a call without interruption is the collection of the whole
  queue.
-/

namespace Daq

namespace Hub

/-- A poller as a request asks for it is in use, and nothing waits at it. -/
lemma serves_attach {h h' : Hub} (hw : h.WellFormed) {sink capacity : Nat} {r : Request}
    {p : PollerRef} (ha : h.attach sink capacity r = .ok (p, h')) :
    (∃ k, h'.Serves k p) ∧ h'.items p = [] := by
  unfold attach at ha
  cases hs : h.sinks[sink]? with
  | none => simp [hs] at ha
  | some s =>
    simp only [hs] at ha
    cases hat : s.attach capacity r with
    | error e => simp [hat] at ha
    | ok x =>
      obtain ⟨id, s'⟩ := x
      simp only [hat, Except.ok.injEq, Prod.mk.injEq] at ha
      obtain ⟨rfl, rfl⟩ := ha
      obtain ⟨t, htap, hrel, hitems, -⟩ :=
        (Sink.tap?_attach (hw s (List.mem_of_getElem? hs)) hat id).2
      have ht : (h.modify sink fun _ => s').tap? ⟨sink, id⟩ = some t := by
        refine tap?_eq_some.mpr ⟨s', ?_, htap⟩
        rw [getElem?_modify, if_pos rfl, hs]
        rfl
      refine ⟨?_, by rw [items, ht]; exact hitems⟩
      -- Any key of the kind of the outlet will do.
      cases hkind : t.outlet.isStream with
      | true => exact ⟨.continuous "", t, ht, hrel, hkind⟩
      | false => exact ⟨.multiplexed "" "" 0, t, ht, hrel, hkind⟩

end Hub

/-- A poller and whoever empties its queue, with a record of what the queue accepted and of what was
emitted. -/
structure Collecting where
  /-- The sinks. -/
  hub : Hub
  /-- The poller. -/
  poller : PollerRef
  /-- The description that the next reply starts from. -/
  reported : Descriptor
  /-- How far the call has come, if one is under way. -/
  call : Option Progress := none
  /-- What the last call returned; nothing while a call is under way. -/
  returned : Option Bool := none
  /-- The items that the queue has accepted, in order. -/
  accepted : List Item := []
  /-- The items that were emitted, in order, each with the reply to it. -/
  emitted : List (Item × Reply) := []

namespace Collecting

/-- A collector that was not called yet. -/
def start (h : Hub) (p : PollerRef) (signal : String) : Collecting where
  hub := h
  poller := p
  reported := .unknown signal

/-- The items that were taken from the queue but not emitted yet. -/
def inHand (c : Collecting) : List Item := c.call.elim [] Progress.inHand

/-- The next step of the collector: between calls it is called again. -/
def step (c : Collecting) : Collecting :=
  match c.call with
  | none => { c with call := some .reading, returned := none }
  | some .reading => { c with call := some (.taking (c.hub.finished c.poller) []) }
  | some (.taking finished batch) =>
    match if batch.length < batchSize then c.hub.pop? c.poller else none with
    | some (item, hub) => { c with hub, call := some (.taking finished (batch ++ [item])) }
    | none =>
      if batch.isEmpty then { c with call := none, returned := some finished }
      else { c with call := some (.handing finished batch) }
  | some (.handing finished []) => { c with call := some (.taking finished []) }
  | some (.handing finished (item :: left)) =>
    let r := answer c.reported item
    { c with
      call := some (.handing finished left)
      reported := r.2
      emitted := c.emitted ++ [(item, r.1)] }

/-- The collector while producers change the sinks: what they append to the queue was accepted. -/
def produce (c : Collecting) (h : Hub) : Collecting :=
  { c with hub := h, accepted := c.accepted ++ c.hub.appended h c.poller }

/-- What may happen next. -/
inductive Move where
  /-- A producer acts. -/
  | produce (a : Hub.Act)
  /-- The collector makes its next step. -/
  | step

/-- The collector after a move. -/
def perform (c : Collecting) : Move → Collecting
  | .produce a => c.produce (c.hub.perform a)
  | .step => c.step

/-- The collector after several moves. -/
def run (c : Collecting) (moves : List Move) : Collecting := moves.foldl perform c

/-- The record agrees with queue and collector. -/
structure Faithful (signal : String) (c : Collecting) : Prop where
  /-- The sinks are well-formed. -/
  wellFormed : c.hub.WellFormed
  /-- The poller is in use. -/
  serves : ∃ k, c.hub.Serves k c.poller
  /-- What was accepted was emitted, is in hand, or waits. -/
  ledger : c.accepted = c.emitted.map Prod.fst ++ c.inHand ++ c.hub.items c.poller
  /-- The replies are those to the items. -/
  replies : answers (.unknown signal) (c.emitted.map Prod.fst) =
    (c.emitted.map Prod.snd, c.reported)
  /-- A flag that was found raised belongs to a sink that has stopped. -/
  flag : ∀ progress, c.call = some progress → progress.sawFinished = true →
    c.hub.IsStopped c.poller.sink
  /-- A call that has returned a raised flag has left nothing behind. -/
  returned : c.returned = some true → c.call = none ∧ c.hub.Exhausted c.poller

namespace Faithful

variable {signal : String} {c : Collecting}

/-- The record of a poller that was attached just now. -/
lemma start {h h' : Hub} (hw : h.WellFormed) {sink capacity : Nat} {r : Request} {p : PollerRef}
    (ha : h.attach sink capacity r = .ok (p, h')) :
    (Collecting.start h' p signal).Faithful signal := by
  obtain ⟨hserves, hitems⟩ := Hub.serves_attach hw ha
  refine ⟨(Hub.evolves_attach ha).wellFormed hw, hserves, ?_, rfl, ?_, ?_⟩
  · change [] = [] ++ [] ++ h'.items p
    rw [hitems]
    rfl
  · intro progress hp
    cases hp
  · intro hr
    cases hr

/-- **What producers do keeps a record faithful.** -/
lemma produce (hc : c.Faithful signal) {h : Hub} (e : c.hub.Evolves h) :
    (c.produce h).Faithful signal where
  wellFormed := e.wellFormed hc.wellFormed
  serves := by
    obtain ⟨k, hk⟩ := hc.serves
    exact ⟨k, hk.evolves e⟩
  ledger := by
    obtain ⟨k, hk⟩ := hc.serves
    change c.accepted ++ c.hub.appended h c.poller =
      c.emitted.map Prod.fst ++ c.inHand ++ h.items c.poller
    rw [hc.ledger, List.append_assoc, Hub.append_appended (hk.items_grow e)]
  replies := hc.replies
  flag progress hp hf := e.isStopped (hc.flag progress hp hf)
  returned hr := by
    obtain ⟨hcall, hexhausted⟩ := hc.returned hr
    exact ⟨hcall, hexhausted.evolves hc.wellFormed e⟩

section Step

variable {progress progress' : Progress}

/-- Going on with a call keeps a record faithful if what is in hand is the same and a flag that is
newly found raised belongs to a stopped sink. -/
lemma turn (hc : c.Faithful signal) (hcall : c.call = some progress)
    (hhand : progress'.inHand = progress.inHand)
    (hflag : progress'.sawFinished = true → c.hub.IsStopped c.poller.sink) :
    { c with call := some progress' }.Faithful signal where
  wellFormed := hc.wellFormed
  serves := hc.serves
  ledger := by
    have hsame : c.inHand = progress'.inHand := by
      rw [inHand, hcall, hhand]
      rfl
    have hledger := hc.ledger
    rw [hsame] at hledger
    exact hledger
  replies := hc.replies
  flag := by
    rintro _ ⟨⟩ hf
    exact hflag hf
  returned hr := by
    obtain ⟨hnone, -⟩ := hc.returned hr
    rw [hcall] at hnone
    cases hnone

/-- A call begins with nothing in hand. -/
lemma call (hc : c.Faithful signal) (hcall : c.call = none) :
    { c with call := some .reading, returned := none }.Faithful signal where
  wellFormed := hc.wellFormed
  serves := hc.serves
  ledger := by
    have hledger := hc.ledger
    rw [inHand, hcall] at hledger
    exact hledger
  replies := hc.replies
  flag := by
    rintro _ ⟨⟩ hf
    cases hf
  returned := by
    intro hr
    cases hr

/-- A taken item goes from the queue into the hand. -/
lemma take (hc : c.Faithful signal) {finished : Bool} {batch : List Item} {item : Item} {h : Hub}
    (hcall : c.call = some (.taking finished batch))
    (hitems : c.hub.items c.poller = item :: h.items c.poller)
    (hconsumed : c.hub.Consumed h c.poller) :
    { c with hub := h, call := some (.taking finished (batch ++ [item])) }.Faithful signal where
  wellFormed := hconsumed.wellFormed hc.wellFormed
  serves := by
    obtain ⟨k, hk⟩ := hc.serves
    exact ⟨k, hconsumed.serves k _ hk⟩
  ledger := by
    have hledger := hc.ledger
    rw [inHand, hcall, hitems] at hledger
    simpa [inHand, Progress.inHand] using hledger
  replies := hc.replies
  flag := by
    rintro _ ⟨⟩ hf
    exact (hconsumed.isStopped _).mpr (hc.flag _ hcall hf)
  returned hr := by
    obtain ⟨hnone, -⟩ := hc.returned hr
    rw [hcall] at hnone
    cases hnone

/-- **A call that finds the queue empty returns its flag.** If that was raised when it was read, the
sink had stopped by then, and so the queue stays empty. -/
lemma leave (hc : c.Faithful signal) {finished : Bool}
    (hcall : c.call = some (.taking finished [])) (hempty : c.hub.items c.poller = []) :
    { c with call := none, returned := some finished }.Faithful signal where
  wellFormed := hc.wellFormed
  serves := hc.serves
  ledger := by
    have hledger := hc.ledger
    rw [inHand, hcall] at hledger
    exact hledger
  replies := hc.replies
  flag := by
    intro progress hp
    cases hp
  returned := by
    rintro ⟨⟩
    exact ⟨rfl, hc.flag _ hcall rfl, hempty⟩

/-- An emitted item goes from the hand into the record. -/
lemma emit (hc : c.Faithful signal) {finished : Bool} {item : Item} {left : List Item}
    (hcall : c.call = some (.handing finished (item :: left))) :
    { c with
      call := some (.handing finished left)
      reported := (answer c.reported item).2
      emitted := c.emitted ++ [(item, (answer c.reported item).1)] }.Faithful signal where
  wellFormed := hc.wellFormed
  serves := hc.serves
  ledger := by
    have hledger := hc.ledger
    rw [inHand, hcall] at hledger
    simpa [inHand, Progress.inHand] using hledger
  replies := by
    rw [List.map_append, answers_append, hc.replies, List.map_append]
    rfl
  flag := by
    rintro _ ⟨⟩ hf
    exact hc.flag _ hcall hf
  returned hr := by
    obtain ⟨hnone, -⟩ := hc.returned hr
    rw [hcall] at hnone
    cases hnone

end Step

/-- **A step of the collector keeps a record faithful.** -/
lemma step (hc : c.Faithful signal) : c.step.Faithful signal := by
  unfold Collecting.step
  split
  · rename_i hcall
    exact hc.call hcall
  · rename_i hcall
    -- The flag is read before the queue is touched.
    exact hc.turn hcall rfl (Hub.isStopped_of_finished hc.wellFormed)
  · rename_i finished batch hcall
    rcases Scene.take_cases c.hub c.poller batch with
      ⟨item, h, htake, hitems, hconsumed⟩ | ⟨htake, hempty⟩
    · rw [htake]
      exact hc.take hcall hitems hconsumed
    · rw [htake]
      dsimp only
      split
      · rename_i hbatch
        obtain rfl : batch = [] := List.isEmpty_iff.mp hbatch
        exact hc.leave hcall (hempty rfl)
      · have hflag := hc.flag _ hcall
        exact hc.turn hcall rfl hflag
  · rename_i finished hcall
    have hflag := hc.flag _ hcall
    exact hc.turn hcall rfl hflag
  · rename_i finished item left hcall
    exact hc.emit hcall

/-- **Every move keeps a record faithful.** -/
theorem perform (hc : c.Faithful signal) (m : Move) : (c.perform m).Faithful signal := by
  cases m with
  | produce a => exact hc.produce (c.hub.evolves_perform a)
  | step => exact hc.step

/-- Every run is faithful. -/
lemma run (hc : c.Faithful signal) (moves : List Move) : (c.run moves).Faithful signal := by
  induction moves generalizing c with
  | nil => exact hc
  | cons m moves ih => exact ih (hc.perform m)

end Faithful

/-! ### After the end -/

/-- Nothing is in hand, nothing waits, and nothing more will come. -/
def Ended (c : Collecting) : Prop := c.inHand = [] ∧ c.hub.Exhausted c.poller

/-- **After the end nothing happens any more**: nothing is accepted and nothing is emitted. -/
lemma Ended.perform {c : Collecting} (hc : c.Ended) (hw : c.hub.WellFormed) (m : Move) :
    (c.perform m).Ended ∧ (c.perform m).accepted = c.accepted ∧
      (c.perform m).emitted = c.emitted := by
  obtain ⟨hhand, hexhausted⟩ := hc
  cases m with
  | produce a =>
    have e := c.hub.evolves_perform a
    have hquiet := e.quiet hw c.poller hexhausted.1
    refine ⟨⟨hhand, hexhausted.evolves hw e⟩, ?_, rfl⟩
    change c.accepted ++ c.hub.appended (c.hub.perform a) c.poller = c.accepted
    rw [Hub.appended_eq_nil hquiet.2, List.append_nil]
  | step =>
    simp only [Collecting.perform, Collecting.step]
    split
    · exact ⟨⟨rfl, hexhausted⟩, rfl, rfl⟩
    · exact ⟨⟨rfl, hexhausted⟩, rfl, rfl⟩
    · rename_i finished batch hcall
      obtain rfl : batch = [] := by
        rw [inHand, hcall] at hhand
        exact hhand
      have hpop : (if ([] : List Item).length < batchSize then c.hub.pop? c.poller else none) =
          none := by
        rw [Hub.pop?_of_nil hexhausted.2]
        exact ite_self _
      rw [hpop]
      exact ⟨⟨rfl, hexhausted⟩, rfl, rfl⟩
    · exact ⟨⟨rfl, hexhausted⟩, rfl, rfl⟩
    · rename_i finished item left hcall
      rw [inHand, hcall] at hhand
      cases hhand

/-- After the end nothing happens in any run. -/
lemma Ended.run {signal : String} {c : Collecting} (hc : c.Ended) (hf : c.Faithful signal)
    (moves : List Move) :
    (c.run moves).Ended ∧ (c.run moves).accepted = c.accepted ∧
      (c.run moves).emitted = c.emitted := by
  induction moves generalizing c with
  | nil => exact ⟨hc, rfl, rfl⟩
  | cons m moves ih =>
    obtain ⟨hended, haccepted, hemitted⟩ := hc.perform hf.wellFormed m
    obtain ⟨hended', haccepted', hemitted'⟩ := ih hended (hf.perform m)
    exact ⟨hended', haccepted'.trans haccepted, hemitted'.trans hemitted⟩

/-- The poller stays the same. -/
lemma poller_perform (c : Collecting) (m : Move) : (c.perform m).poller = c.poller := by
  cases m with
  | produce a => rfl
  | step =>
    simp only [perform, step]
    split
    · rfl
    · rfl
    · split
      · rfl
      · split <;> rfl
    · rfl
    · rfl

/-- The poller stays the same in every run. -/
lemma poller_run (c : Collecting) (moves : List Move) : (c.run moves).poller = c.poller := by
  induction moves generalizing c with
  | nil => rfl
  | cons m moves ih => exact (ih (c.perform m)).trans (c.poller_perform m)

/-- **A call that returns a raised flag marks the end of the stream.** Take any poller of any sink
and let its producers and a collector act in any order, step by step. As soon as a call has returned
a raised flag, every item that the queue has ever accepted was emitted once, in order, with the
reply to it, and the queue is empty; and whatever anyone does later, nothing more is accepted or
emitted and the queue stays empty. -/
theorem all_emitted_of_finished (capacities : Capacities) (before : List Hub.Act)
    (sink capacity : Nat) (r : Request) (p : PollerRef) (h : Hub) (signal : String)
    (moves : List Move)
    (attached : (({ capacities } : Hub).performAll before).attach sink capacity r = .ok (p, h))
    (returned : ((start h p signal).run moves).returned = some true) :
    let c := (start h p signal).run moves
    c.emitted.map Prod.fst = c.accepted ∧
      c.emitted.map Prod.snd = (answers (.unknown signal) c.accepted).1 ∧
      c.hub.items p = [] ∧
      ∀ more, (c.run more).hub.items p = [] ∧ (c.run more).accepted = c.accepted ∧
        (c.run more).emitted = c.emitted := by
  intro c
  have hw := (Hub.evolves_performAll _ before).wellFormed (Hub.wellFormed_empty capacities)
  have hc : c.Faithful signal := (Faithful.start hw attached).run moves
  have hp : c.poller = p := poller_run _ moves
  obtain ⟨hcall, hexhausted⟩ := hc.returned returned
  have hhand : c.inHand = [] := by rw [inHand, hcall]; rfl
  have hemitted : c.emitted.map Prod.fst = c.accepted := by
    rw [hc.ledger, hhand, hexhausted.2, List.append_nil, List.append_nil]
  refine ⟨hemitted, ?_, ?_, ?_⟩
  · rw [← hemitted, hc.replies]
  · rw [← hp]
    exact hexhausted.2
  · intro more
    obtain ⟨hended, haccepted, hsame⟩ := Ended.run ⟨hhand, hexhausted⟩ hc more
    have hq : (c.run more).poller = p := (poller_run c more).trans hp
    exact ⟨hq ▸ hended.2.2, haccepted, hsame⟩

/-- The sinks of the sample: one sink. -/
def sampleHub : Hub := ({} : Hub).performAll [.make (.unknown "A") .zero]

/-- The same with a poller at it. -/
def sampleTapped : Hub := ((sampleHub.attach 0 0 .streaming).toOption.map Prod.snd).getD {}

/-- The first call finds one block and returns a lowered flag. Another block is published, the
second call reads the flag, and only then the sink is stopped, so this call takes the block and
still returns a lowered flag. The third call returns a raised flag. -/
def sampleMoves : List Move :=
  List.flatten
    [[.step, .step, .produce (.push 0 ⟨[.zero], []⟩)], List.replicate 5 .step,
      [.produce (.offer ⟨0, 0⟩ (.block ⟨[], []⟩)), .step, .step, .produce (.halt 0),
        .produce (.offer ⟨0, 0⟩ (.block ⟨[], []⟩)), .produce (.finish ⟨0, 0⟩)],
      List.replicate 8 .step]

/-- When the third call returns, two blocks were accepted and emitted, and no other will come. -/
theorem all_emitted_of_finished_sample :
    let c := (start sampleTapped ⟨0, 0⟩ "A").run sampleMoves
    c.returned = some true ∧ c.accepted.length = 2 ∧ c.emitted.map Prod.fst = c.accepted ∧
      ∀ more, (c.run more).hub.items ⟨0, 0⟩ = [] ∧ (c.run more).accepted.length = 2 := by
  intro c
  have hattached : sampleHub.attach 0 0 .streaming = .ok (⟨0, 0⟩, sampleTapped) := rfl
  have hreturned : c.returned = some true := by decide +kernel
  have htwo : c.accepted.length = 2 := by decide +kernel
  obtain ⟨hemitted, -, -, hsilent⟩ := all_emitted_of_finished {} [.make (.unknown "A") .zero] 0 0
    .streaming ⟨0, 0⟩ sampleTapped "A" sampleMoves hattached hreturned
  refine ⟨hreturned, htwo, hemitted, ?_⟩
  intro more
  obtain ⟨hitems, haccepted, -⟩ := hsilent more
  exact ⟨hitems, (congrArg List.length haccepted).trans htwo⟩

/-! ### A call without interruption -/

/-- The collector gets from one state to the other if nobody else acts. -/
def Leads (c d : Collecting) : Prop := ∃ n, step^[n] c = d

/-- Staying where one is. -/
lemma Leads.refl (c : Collecting) : c.Leads c := ⟨0, rfl⟩

/-- One way after the other. -/
lemma Leads.trans {c d e : Collecting} (h : c.Leads d) (h' : d.Leads e) : c.Leads e := by
  obtain ⟨m, rfl⟩ := h
  obtain ⟨n, rfl⟩ := h'
  exact ⟨n + m, Function.iterate_add_apply step n m c⟩

/-- One step. -/
lemma Leads.of_step {c d : Collecting} (h : c.step = d) : c.Leads d := ⟨1, h⟩

section Uninterrupted

variable {c : Collecting} {finished : Bool}

/-- A batch is taken item by item, as far as there is room. -/
lemma leads_take (hw : c.hub.WellFormed) (n : Nat) (batch : List Item)
    (hcall : c.call = some (.taking finished batch)) (hroom : batch.length + n ≤ batchSize)
    (hn : n ≤ (c.hub.items c.poller).length) :
    c.Leads { c with
      hub := c.hub.skip c.poller n
      call := some (.taking finished (batch ++ (c.hub.items c.poller).take n)) } := by
  induction n generalizing c batch with
  | zero =>
    rw [Hub.skip_zero, List.take_zero, List.append_nil, ← hcall]
    exact .refl c
  | succ n ih =>
    cases hitems : c.hub.items c.poller with
    | nil =>
      rw [hitems] at hn
      cases hn
    | cons item rest =>
      have hnext : (c.hub.skip c.poller 1).items c.poller = rest := by
        rw [Hub.items_skip, hitems]
        rfl
      have hstep : c.step = { c with
          hub := c.hub.skip c.poller 1
          call := some (.taking finished (batch ++ [item])) } := by
        have hpop : (if batch.length < batchSize then c.hub.pop? c.poller else none) =
            some (item, c.hub.skip c.poller 1) := by
          rw [if_pos (by omega), Hub.pop?_eq_skip hw hitems]
        simp only [step, hcall, hpop]
      have hrest := ih (c := { c with
          hub := c.hub.skip c.poller 1
          call := some (.taking finished (batch ++ [item])) })
        ((c.hub.consumed_skip c.poller 1).wellFormed hw) (batch ++ [item]) rfl
        (by rw [List.length_append, List.length_singleton]; omega)
        (by dsimp only; rw [hnext]; rw [hitems, List.length_cons] at hn; omega)
      dsimp only at hrest
      rw [hnext, Hub.skip_skip, Nat.add_comm 1 n, List.append_assoc, List.singleton_append] at hrest
      rw [List.take_succ_cons]
      exact (Leads.of_step hstep).trans hrest

/-- A batch is emitted item by item. -/
lemma leads_emit (left : List Item) (hcall : c.call = some (.handing finished left)) :
    c.Leads { c with
      call := some (.handing finished [])
      reported := (answers c.reported left).2
      emitted := c.emitted ++ left.zip (answers c.reported left).1 } := by
  induction left generalizing c with
  | nil =>
    simp only [answers, List.zip_nil_left, List.append_nil, ← hcall]
    exact .refl c
  | cons item left ih =>
    have hstep : c.step = { c with
        call := some (.handing finished left)
        reported := (answer c.reported item).2
        emitted := c.emitted ++ [(item, (answer c.reported item).1)] } := by
      simp only [step, hcall]
    have hrest := ih (c := { c with
      call := some (.handing finished left)
      reported := (answer c.reported item).2
      emitted := c.emitted ++ [(item, (answer c.reported item).1)] }) rfl
    simp only [List.append_assoc, List.singleton_append] at hrest
    exact (Leads.of_step hstep).trans hrest

/-- A batch is taken and emitted. -/
lemma leads_batch (hw : c.hub.WellFormed) (hcall : c.call = some (.taking finished [])) {m : Nat}
    (hpos : 0 < m) (hm : m = min batchSize (c.hub.items c.poller).length) :
    let batch := (c.hub.items c.poller).take m
    c.Leads { c with
      hub := c.hub.skip c.poller m
      call := some (.taking finished [])
      reported := (answers c.reported batch).2
      emitted := c.emitted ++ batch.zip (answers c.reported batch).1 } := by
  intro batch
  have htaken : batch.length = m := by
    rw [List.length_take]
    omega
  have htake := leads_take hw m [] hcall (by rw [List.length_nil]; omega) (by omega)
  have hfull : { c with
      hub := c.hub.skip c.poller m
      call := some (.taking finished batch) }.step = { c with
        hub := c.hub.skip c.poller m
        call := some (.handing finished batch) } := by
    -- The batch is full, or the queue is used up.
    have hpop : (if batch.length < batchSize then (c.hub.skip c.poller m).pop? c.poller else none) =
        none := by
      split
      · apply Hub.pop?_of_nil
        rw [Hub.items_skip]
        apply List.drop_eq_nil_of_le
        omega
      · rfl
    have hsome : batch.isEmpty = false := by
      rw [← Bool.not_eq_true, List.isEmpty_iff, ← List.length_eq_zero_iff]
      omega
    simp only [step, hpop, hsome]
    rfl
  have hemit := leads_emit (c := { c with
    hub := c.hub.skip c.poller m
    call := some (.handing finished batch) }) batch rfl
  exact ((htake.trans (Leads.of_step hfull)).trans hemit).trans (Leads.of_step rfl)

/-- The rest of a call answers all items of the queue and empties it.

**Proof sketch.** Strong induction on the length of the queue: if something waits, a batch is taken
and emitted, which leaves a shorter queue; if nothing waits, the call returns. -/
lemma leads_collect (hw : c.hub.WellFormed) {k : PollerKey} (hs : c.hub.Serves k c.poller)
    (hcall : c.call = some (.taking finished [])) :
    let items := c.hub.items c.poller
    c.Leads { c with
      hub := c.hub.emptied c.poller
      call := none
      returned := some finished
      reported := (answers c.reported items).2
      emitted := c.emitted ++ items.zip (answers c.reported items).1 } := by
  dsimp only
  generalize hlength : (c.hub.items c.poller).length = n
  induction n using Nat.strong_induction_on generalizing c with
  | _ n ih =>
    rcases Nat.eq_zero_or_pos n with hzero | hpos
    · obtain ⟨t, ht, -⟩ := id hs
      have hnil : c.hub.items c.poller = [] := List.length_eq_zero_iff.mp (hlength.trans hzero)
      rw [hnil, Hub.emptied_of_nil hw ht hnil, List.zip_nil_left, List.append_nil]
      apply Leads.of_step
      have hpop : (if ([] : List Item).length < batchSize then c.hub.pop? c.poller else none) =
          none := by
        rw [Hub.pop?_of_nil hnil]
        exact ite_self _
      simp only [step, hcall, hpop]
      rfl
    · have hbatch : 0 < batchSize := by decide
      obtain ⟨m, hm⟩ : ∃ m, m = min batchSize n := ⟨_, rfl⟩
      have hfirst := leads_batch (m := m) hw hcall (by omega) (by rw [hlength]; exact hm)
      have hc := c.hub.consumed_skip c.poller m
      have hleft : ((c.hub.skip c.poller m).items c.poller).length = n - m := by
        rw [Hub.items_skip, List.length_drop, hlength]
      apply hfirst.trans
      have hrest := ih (n - m) (by omega)
        (c := { c with
          hub := c.hub.skip c.poller m
          call := some (.taking finished [])
          reported := (answers c.reported ((c.hub.items c.poller).take m)).2
          emitted := c.emitted ++ ((c.hub.items c.poller).take m).zip
            (answers c.reported ((c.hub.items c.poller).take m)).1 })
        (hc.wellFormed hw) (hc.serves _ _ hs) rfl hleft
      have hsplit := answers_append c.reported ((c.hub.items c.poller).take m)
        ((c.hub.items c.poller).drop m)
      rw [List.take_append_drop] at hsplit
      dsimp only at hrest
      rw [Hub.items_skip, Hub.emptied_skip, List.append_assoc, ← List.zip_append
        (length_answers _ _).symm, List.take_append_drop] at hrest
      rw [hsplit]
      exact hrest

end Uninterrupted

/-- What a call without interruption comes to: its flag, the replies and the description that they
leave behind are those of the collection of the whole queue. -/
def collected (c : Collecting) : Collecting :=
  let items := c.hub.items c.poller
  { c with
    hub := c.hub.emptied c.poller
    call := none
    returned := some (c.hub.finished c.poller)
    reported := (answers c.reported items).2
    emitted := c.emitted ++ items.zip (answers c.reported items).1 }

/-- **A call without interruption collects the whole queue.** -/
theorem exists_iterate_step {c : Collecting} (hw : c.hub.WellFormed) {k : PollerKey}
    (hs : c.hub.Serves k c.poller) (hcall : c.call = none) : ∃ n, step^[n] c = c.collected := by
  have hbegin : c.step = { c with call := some .reading, returned := none } := by
    simp only [step, hcall]
  have hread : c.Leads { c with
      call := some (.taking (c.hub.finished c.poller) [])
      returned := none } :=
    (Leads.of_step hbegin).trans (Leads.of_step rfl)
  exact hread.trans (leads_collect hw hs rfl)

/-- A collection of blocks, as the queue of the poller has it. -/
lemma collected_blocks {c : Collecting} {q : Queue Block} (hq : c.hub.stream? c.poller = some q) :
    let r := q.collectBlocks c.reported
    c.collected.returned = some r.1.finished ∧ c.collected.reported = r.2.1 ∧
      c.collected.emitted.map Prod.snd = c.emitted.map Prod.snd ++ r.1.replies := by
  intro r
  obtain ⟨t, ht, ho⟩ := Option.bind_eq_some_iff.mp hq
  have hout : t.outlet = .stream q := by
    cases hout : t.outlet with
    | stream q' => rw [hout] at ho; rw [Option.some.inj ho]
    | captures o q' => rw [hout] at ho; cases ho
  have hr : r = (⟨q.finished, (repliesTo c.reported q.items).1⟩,
      (repliesTo c.reported q.items).2, { q with items := [] }) := by
    simp only [r, Queue.collectBlocks, q.drain_eq batchSize (by decide)]
  have hitems : c.hub.items c.poller = q.items.map .block := by
    rw [Hub.items, ht, Option.elim_some, hout]
    rfl
  refine ⟨?_, ?_, ?_⟩
  · simp [collected, Hub.finished, ht, hout, Outlet.finished, hr]
  · simp only [collected, hitems, answers_blocks, hr]
  · simp only [collected, hitems, List.map_append, hr]
    rw [List.map_snd_zip (length_answers _ _).le, answers_blocks]

/-- A collection of captures, as the queue of the poller has it. -/
lemma collected_captures {c : Collecting} {q : Queue Capture}
    (hq : c.hub.captures? c.poller = some q) :
    let r := q.collectCaptures c.reported.name
    c.collected.returned = some r.1.finished ∧ c.collected.reported = c.reported ∧
      c.collected.emitted.map Prod.snd = c.emitted.map Prod.snd ++ r.1.replies := by
  intro r
  obtain ⟨t, ht, ho⟩ := Option.bind_eq_some_iff.mp hq
  obtain ⟨o, hout⟩ : ∃ o, t.outlet = .captures o q := by
    cases hout : t.outlet with
    | stream q' => rw [hout] at ho; cases ho
    | captures o q' => rw [hout] at ho; exact ⟨o, by rw [Option.some.inj ho]⟩
  have hr : r = (⟨q.finished, q.items.map (Reply.ofCapture c.reported.name)⟩,
      { q with items := [] }) := by
    simp only [r, Queue.collectCaptures, q.drain_eq batchSize (by decide)]
  have hitems : c.hub.items c.poller = q.items.map .capture := by
    rw [Hub.items, ht, Option.elim_some, hout]
    rfl
  refine ⟨?_, ?_, ?_⟩
  · simp [collected, Hub.finished, ht, hout, Outlet.finished, hr]
  · simp only [collected, hitems, answers_captures]
  · simp only [collected, hitems, List.map_append, hr]
    rw [List.map_snd_zip (length_answers _ _).le, answers_captures]

end Collecting

end Daq
