import Daq.Graph.Replay
import Daq.Proofs.Custody

set_option autoImplicit false

/-!
# Replays that wait and end

A replay can be asked to wait until somebody listens, and to end after the last block. Consumers come
and go while it works, so the two wishes meet: a call may find that nobody listens when blocks are
left, and also when none are. The blocks are pushed once each and in order, and only while somebody
listens. After the last one a call says that the replay is done as long as somebody listens; if
nobody does, the wish to wait comes first, and the call says that there is nothing to do right now,
although nothing will ever come.

## Main definitions

* `Daq.Playback` — a replay, its hub, and the pollers of its sink in the hands of consumers.
* `Daq.Playback.Move`, `Daq.Playback.run` — what consumers and the replay do, in any order.
* `Daq.Playback.Round`, `Daq.Playback.rounds` — what the calls for work did.

## Main results

* `Daq.Playback.Tended.perform` — every move keeps the sink of the replay open and its pollers
  counted.
* `Daq.Playback.work_eq` — what a call for work does.
* `Daq.Playback.replay_exact` — the calls for work of every run.
-/

namespace Daq

/-- A replay with its hub and the pollers that are in the hands of consumers. -/
structure Playback where
  /-- The replay. -/
  graph : ReplayGraph
  /-- The hub. -/
  hub : Hub
  /-- The numbers of the pollers at the sink of the replay that were handed out and not dropped
  yet. -/
  held : List Nat := []

namespace Playback

/-- A new replay that waits for pollers and ends after the last block. -/
def start (d : Descriptor) (rate : Single) (blocks : List Block) (h : Hub) : Playback :=
  let made := ReplayGraph.make d rate blocks true true h
  { graph := made.1, hub := made.2 }

/-- What consumers and the replay do. -/
inductive Move where
  /-- A consumer requests a poller at the sink, which may be refused. -/
  | attach (capacity : Nat) (r : Request)
  /-- A consumer drops its poller. -/
  | release (id : Nat)
  /-- The replay is called for work. -/
  | work

/-- What becomes of it. -/
def perform (x : Playback) : Move → Playback
  | .attach capacity r =>
    match x.hub.attach x.graph.sink capacity r with
    | .ok (p, hub) => { x with hub, held := x.held ++ [p.tap] }
    | .error _ => x
  | .release id =>
    { x with hub := x.hub.release ⟨x.graph.sink, id⟩, held := x.held.filter (· ≠ id) }
  | .work => { x with graph := (x.graph.work x.hub).2.1, hub := (x.graph.work x.hub).2.2 }

/-- What becomes of it by several moves. -/
def run (x : Playback) (moves : List Move) : Playback := moves.foldl perform x

/-- What a call for work did. -/
structure Round where
  /-- The pollers that were in the hands of consumers. -/
  held : List Nat
  /-- What the call said. -/
  status : WorkStatus
  /-- The blocks that were taken from the list. -/
  taken : List Block
  /-- The hub before the call. -/
  before : Hub
  /-- The hub after the call. -/
  after : Hub

/-- What a call for work does now. -/
def round (x : Playback) : Round where
  held := x.held
  status := (x.graph.work x.hub).1
  taken := x.graph.blocks.take (x.graph.blocks.length - (x.perform .work).graph.blocks.length)
  before := x.hub
  after := (x.perform .work).hub

/-- What a move does if it is a call for work. -/
def round? (x : Playback) : Move → Option Round
  | .attach _ _ => none
  | .release _ => none
  | .work => some x.round

/-- The calls for work among moves. -/
def rounds (x : Playback) : List Move → List Round
  | [] => []
  | m :: moves => (x.round? m).toList ++ (x.perform m).rounds moves

/-- The replay waits and ends, its sink is open, and the taps in use there are those of the pollers
that are held. -/
structure Tended (x : Playback) : Prop where
  /-- Nothing is pushed while no poller is attached. -/
  waits : x.graph.waits = true
  /-- The replay is done after the last block. -/
  finishes : x.graph.finishes = true
  /-- The sink. -/
  sink : ∃ s, x.hub.sinks[x.graph.sink]? = some s ∧ s.stopped = false ∧
    ({ sink := s, held := x.held } : Custody).Sound

/-- A new replay. -/
lemma tended_start (d : Descriptor) (rate : Single) (blocks : List Block) (h : Hub) :
    (start d rate blocks h).Tended where
  waits := rfl
  finishes := rfl
  sink := by
    refine ⟨{ descriptor := d, rate }, ?_, rfl, Custody.sound_start d rate⟩
    simp [start, ReplayGraph.make, Hub.make]

/-- As many pollers are counted as are held. -/
lemma Tended.pollerCount_eq {x : Playback} (hx : x.Tended) :
    x.hub.pollerCount x.graph.sink = x.held.length := by
  obtain ⟨s, hs, -, hsound⟩ := hx.sink
  simp [Hub.pollerCount, hs, hsound.tapCount_eq]

/-- **What a call for work does.** While nobody listens, nothing; then it pushes the next block, and
it is done if there is none. -/
lemma work_eq {x : Playback} (hx : x.Tended) :
    x.graph.work x.hub =
      if x.held = [] then (.idle, x.graph, x.hub)
      else
        match x.graph.blocks with
        | b :: rest => (.ok, { x.graph with blocks := rest }, x.hub.push x.graph.sink b)
        | [] => (.done, x.graph, x.hub) := by
  simp only [ReplayGraph.work, hx.waits, hx.finishes, hx.pollerCount_eq]
  by_cases hheld : x.held = []
  · simp [hheld]
  · cases x.graph.blocks <;> simp [hheld]

/-- A block is taken from the list and pushed only if a poller is held. -/
lemma perform_work {x : Playback} (hx : x.Tended) :
    (x.perform .work = x ∧ x.round.taken = [] ∧ x.round.status ≠ .ok) ∨
      ∃ b rest, x.held ≠ [] ∧ x.graph.blocks = b :: rest ∧ x.round.taken = [b] ∧
        x.round.status = .ok ∧
        x.perform .work =
          { x with
            graph := { x.graph with blocks := rest }
            hub := x.hub.push x.graph.sink b } := by
  have hwork := work_eq hx
  by_cases hheld : x.held = []
  · rw [if_pos hheld] at hwork
    exact .inl ⟨by simp [perform, hwork], by simp [round, perform, hwork], by simp [round, hwork]⟩
  · rw [if_neg hheld] at hwork
    cases hblocks : x.graph.blocks with
    | nil =>
      rw [hblocks] at hwork
      exact .inl (by simp [round, perform, hwork])
    | cons b rest =>
      rw [hblocks] at hwork
      exact .inr ⟨b, rest, hheld, rfl, by simp [round, perform, hwork, hblocks]⟩

/-- **Every move keeps the sink of the replay open and its pollers counted.** -/
theorem Tended.perform {x : Playback} (hx : x.Tended) (m : Move) : (x.perform m).Tended := by
  obtain ⟨s, hs, hopen, hsound⟩ := hx.sink
  -- A move that changes only this sink, and keeps it open and its pollers counted, is fine.
  have hmodify : ∀ (f : Sink → Sink) (held : List Nat), (f s).stopped = false →
      ({ sink := f s, held } : Custody).Sound →
      ∃ s', (x.hub.modify x.graph.sink f).sinks[x.graph.sink]? = some s' ∧ s'.stopped = false ∧
        ({ sink := s', held } : Custody).Sound := by
    intro f held hopen' hsound'
    refine ⟨f s, ?_, hopen', hsound'⟩
    rw [Hub.getElem?_modify, if_pos rfl, hs, Option.map_some]
  cases m with
  | attach capacity r =>
    cases h : s.attach capacity r with
    | error e => simpa [Playback.perform, Hub.attach, hs, h] using hx
    | ok granted =>
      have hstopped : granted.2.stopped = false := (Sink.attach_eq_ok h).2.2.1.trans hopen
      have hperform : x.perform (.attach capacity r) =
          { x with
            hub := x.hub.modify x.graph.sink fun _ => granted.2
            held := x.held ++ [granted.1] } := by
        simp [Playback.perform, Hub.attach, hs, h]
      rw [hperform]
      exact ⟨hx.waits, hx.finishes, hmodify _ _ hstopped (hsound.attach h)⟩
  | release id => exact ⟨hx.waits, hx.finishes, hmodify _ _ hopen (hsound.drop id)⟩
  | work =>
    rcases perform_work hx with ⟨hsame, -⟩ | ⟨b, rest, -, -, -, -, hpush⟩
    · rw [hsame]
      exact hx
    · rw [hpush]
      have hstopped : (s.push b).stopped = false := by rw [Sink.stopped_push, hopen]
      exact ⟨hx.waits, hx.finishes, hmodify _ _ hstopped (hsound.push b)⟩

/-! ### Runs -/

/-- A run keeps the sink of the replay open and its pollers counted. -/
lemma Tended.run {x : Playback} (hx : x.Tended) (moves : List Move) : (x.run moves).Tended := by
  induction moves generalizing x with
  | nil => exact hx
  | cons m moves ih => exact ih (hx.perform m)

/-- Consumers leave the replay as it is, and a call for work takes the blocks that it tells. -/
lemma graph_perform {x : Playback} (hx : x.Tended) (m : Move) :
    (x.perform m).graph.sink = x.graph.sink ∧
      (x.round? m).toList.flatMap Round.taken ++ (x.perform m).graph.blocks = x.graph.blocks := by
  cases m with
  | attach capacity r =>
    simp only [perform]
    split <;> exact ⟨rfl, rfl⟩
  | release id => exact ⟨rfl, rfl⟩
  | work =>
    rcases perform_work hx with ⟨hsame, htaken, -⟩ | ⟨b, rest, -, hblocks, htaken, -, hpush⟩
    · simp [round?, hsame, htaken]
    · simp [round?, hpush, htaken, hblocks]

/-- A run gives the replay no other sink. -/
lemma sink_run {x : Playback} (hx : x.Tended) (moves : List Move) :
    (x.run moves).graph.sink = x.graph.sink := by
  induction moves generalizing x with
  | nil => rfl
  | cons m moves ih => exact (ih (hx.perform m)).trans (graph_perform hx m).1

/-- **The blocks that were taken, and those that are left, are the blocks of the list in order.** -/
theorem taken_append_blocks {x : Playback} (hx : x.Tended) (moves : List Move) :
    (x.rounds moves).flatMap Round.taken ++ (x.run moves).graph.blocks = x.graph.blocks := by
  induction moves generalizing x with
  | nil => rfl
  | cons m moves ih =>
    have hrun : x.run (m :: moves) = (x.perform m).run moves := rfl
    rw [rounds, List.flatMap_append, List.append_assoc, hrun, ih (hx.perform m),
      (graph_perform hx m).2]

/-- A call for work is made in some state on the way. -/
lemma exists_run_of_mem_rounds {x : Playback} {moves : List Move} {r : Round}
    (hr : r ∈ x.rounds moves) : ∃ before, r = (x.run before).round := by
  induction moves generalizing x with
  | nil => simp [rounds] at hr
  | cons m moves ih =>
    rw [rounds, List.mem_append] at hr
    rcases hr with hnow | hlater
    · cases m with
      | attach capacity q => simp [round?] at hnow
      | release id => simp [round?] at hnow
      | work => exact ⟨[], List.mem_singleton.mp hnow⟩
    · obtain ⟨before, hbefore⟩ := ih hlater
      exact ⟨m :: before, hbefore⟩

/-- What a call for work pushes and says. -/
lemma round_exact {x : Playback} (hx : x.Tended) :
    x.round.after = x.round.taken.foldl (fun h b => h.push x.graph.sink b) x.round.before ∧
      (x.round.held = [] → x.round.taken = []) ∧
      (x.round.status = .ok ↔ ∃ b, x.round.taken = [b]) ∧
      (x.round.status ≠ .ok → x.round.taken = []) := by
  have hafter : x.round.after = (x.perform .work).hub := rfl
  rcases perform_work hx with ⟨hsame, htaken, hstatus⟩ | ⟨b, _, hheld, -, htaken, hstatus, hpush⟩
  · rw [hafter, hsame, htaken]
    exact ⟨rfl, fun _ => rfl, ⟨fun h => absurd h hstatus, by simp⟩, fun _ => rfl⟩
  · rw [hafter, hpush, htaken]
    exact ⟨rfl, fun h => absurd h hheld, ⟨fun _ => ⟨b, rfl⟩, fun _ => hstatus⟩,
      fun h => absurd hstatus h⟩

/-- What a call for work says, by the pollers and the blocks that are left. -/
lemma status_round {x : Playback} (hx : x.Tended) :
    x.round.status =
      if x.held = [] then .idle else if x.graph.blocks = [] then .done else .ok := by
  have hstatus : x.round.status = (x.graph.work x.hub).1 := rfl
  rw [hstatus, work_eq hx]
  split
  · rfl
  · cases x.graph.blocks <;> rfl

/-- **Replay of blocks to consumers that come and go.**

The calls for work take the blocks from the list in order and each once, a call takes one block at
most, and what it takes goes into the sink, which is open. A call takes nothing while no poller is
held, and it says that something was produced exactly if it took a block. It takes one whenever a
poller is held and a block is left. After the last block every further call takes nothing, and it
says that the replay is done if a poller is held; if none is, it says that there is nothing to do
right now. -/
theorem replay_exact (d : Descriptor) (rate : Single) (blocks : List Block) (h : Hub)
    (moves : List Move) :
    let first := start d rate blocks h
    let x := first.run moves
    (first.rounds moves).flatMap Round.taken ++ x.graph.blocks = blocks ∧
      (∃ s, x.hub.sinks[h.sinks.length]? = some s ∧ s.stopped = false) ∧
      (∀ r ∈ first.rounds moves,
        r.after = r.taken.foldl (fun hub b => hub.push h.sinks.length b) r.before ∧
          (r.held = [] → r.taken = []) ∧
          (r.status = .ok ↔ ∃ b, r.taken = [b]) ∧
          (r.status ≠ .ok → r.taken = [])) ∧
      (x.held ≠ [] → x.graph.blocks ≠ [] → x.round.status = .ok) ∧
      (x.graph.blocks = [] → ∀ more, ∀ r ∈ x.rounds more,
        r.taken = [] ∧ r.status = if r.held = [] then .idle else .done) := by
  intro first x
  have hfirst : first.Tended := tended_start d rate blocks h
  have hx : x.Tended := hfirst.run moves
  refine ⟨taken_append_blocks hfirst moves, ?_, ?_, ?_, ?_⟩
  · obtain ⟨s, hs, hopen, -⟩ := hx.sink
    rw [sink_run hfirst moves] at hs
    exact ⟨s, hs, hopen⟩
  · intro r hr
    obtain ⟨before, rfl⟩ := exists_run_of_mem_rounds hr
    have hround := round_exact (hfirst.run before)
    rw [sink_run hfirst before] at hround
    exact hround
  · intro hheld hleft
    rw [status_round hx, if_neg hheld, if_neg hleft]
  · intro hnone more r hr
    obtain ⟨before, rfl⟩ := exists_run_of_mem_rounds hr
    have hthen : (x.run before).graph.blocks = [] := by
      have htaken := taken_append_blocks hx before
      rw [hnone] at htaken
      exact (List.append_eq_nil_iff.mp htaken).2
    have hstatus := status_round (hx.run before)
    rw [if_pos hthen] at hstatus
    refine ⟨(round_exact (hx.run before)).2.2.2 ?_, hstatus⟩
    rw [hstatus]
    split <;> simp

/-- Two blocks and two consumers: a call before anyone listens takes nothing, the first consumer
leaves after the first block, and the second after the last one. -/
theorem replay_exact_sample :
    let blocks : List Block := [{ samples := [⟨1⟩] }, { samples := [⟨2⟩] }]
    let moves : List Move :=
      [.work, .attach 4 .streaming, .work, .release 0, .work, .attach 4 .streaming]
    let more : List Move := [.work, .release 1, .work]
    (((start default ⟨0⟩ blocks {}).run moves).held ≠ [] ∧
        ((start default ⟨0⟩ blocks {}).run moves).graph.blocks ≠ [] ∧
        ((start default ⟨0⟩ blocks {}).run moves).round.status = .ok) ∧
      ((start default ⟨0⟩ blocks {}).run (moves ++ [.work])).graph.blocks = [] ∧
      (∀ r ∈ ((start default ⟨0⟩ blocks {}).run (moves ++ [.work])).rounds more,
        r.taken = [] ∧ r.status = if r.held = [] then .idle else .done) ∧
      (((start default ⟨0⟩ blocks {}).run (moves ++ [.work])).rounds more).map Round.status =
        [.done, .idle] := by
  intro blocks moves more
  obtain ⟨-, -, -, hnext, -⟩ := replay_exact default ⟨0⟩ blocks {} moves
  obtain ⟨-, -, -, -, hlast⟩ := replay_exact default ⟨0⟩ blocks {} (moves ++ [.work])
  have hheld : ((start default ⟨0⟩ blocks {}).run moves).held ≠ [] := by decide
  have hleft : ((start default ⟨0⟩ blocks {}).run moves).graph.blocks ≠ [] := by decide
  have hnone : ((start default ⟨0⟩ blocks {}).run (moves ++ [.work])).graph.blocks = [] := by decide
  exact ⟨⟨hheld, hleft, hnext hheld hleft⟩, hnone, hlast hnone more, by decide⟩

/-- After the last block, a call says that there is nothing to do right now if the last consumer has
left. -/
theorem idle_after_last_block :
    let x := (start default ⟨0⟩ [{ samples := [⟨1⟩] }] {}).run
      [.attach 4 .streaming, .work, .release 0]
    x.graph.blocks = [] ∧ x.round.status = .idle := by
  decide

end Playback

end Daq
