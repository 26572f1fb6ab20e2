import Daq.Graph.Generator
import Daq.Proofs.Table
import Mathlib.Data.List.Range

set_option autoImplicit false

/-!
# The stream behind the chunks

How many samples a generator produces at a time depends on the size of its chunks, on what is left
of its stream and on the clock. What it produces does not: for each configuration there is one
stream, in which the sample and the tags of a position are functions of the position, and however
the stream is cut into chunks, the blocks in the sink are a beginning of it, with no gap and no
repetition. Since a tag counts from the first sample of its block, blocks are compared with the
stream after their tags have been moved to the positions in the whole.

## Main definitions

* `Daq.GeneratorConfig.tagsOf` — the tags of a position of the stream.
* `Daq.GeneratorConfig.Emits` — blocks are a beginning of the stream.
* `Daq.Generator.Call`, `Daq.Generator.after` — chunks of any sizes, one after the other.
* `Daq.GeneratorGraph.Turn`, `Daq.GeneratorGraph.after` — rounds of work at any times.

## Main results

* `Daq.GeneratorConfig.Emits.snoc` — the next chunk continues the beginning of the stream.
* `Daq.Generator.produce_eq`, `Daq.GeneratorGraph.work_eq` — what a chunk and a round of work do.
* `Daq.GeneratorGraph.streams_exact` — the streams of all generators in every reachable state.
-/

namespace Daq

namespace Block

/-- The tags of blocks that follow each other, at their positions in the whole. -/
def placedTags : Nat → List Block → List Tag
  | _, [] => []
  | start, b :: bs =>
    (b.tags.map fun t => t.moveTo (start + t.index)) ++ placedTags (start + b.samples.length) bs

/-- Blocks after others start where those end. -/
lemma placedTags_append (start : Nat) (bs bs' : List Block) :
    placedTags start (bs ++ bs') =
      placedTags start bs ++ placedTags (start + (bs.flatMap Block.samples).length) bs' := by
  induction bs generalizing start with
  | nil => simp [placedTags]
  | cons b bs ih => simp [placedTags, ih, Nat.add_assoc]

end Block

namespace Tag

/-- The tag has the property `name`. -/
def has (t : Tag) (name : String) : Bool := (t.get? name).isSome

/-- A tag has the properties it was made of. -/
lemma has_ofList (index : Nat) (properties : List (String × Property)) (name : String) :
    (ofList index properties).has name = decide (name ∈ properties.map Prod.fst) := by
  rw [Bool.eq_iff_iff, decide_eq_true_iff, ← Table.mem_keys_ofList, Table.mem_keys]
  rfl

end Tag

namespace GeneratorConfig

/-! ### The stream -/

/-- A position carries a trigger: the distance between triggers is given, and it divides the
position. No position does if the distance is zero. -/
def Triggers (c : GeneratorConfig) (p : Nat) : Prop :=
  ∃ every, c.triggerEvery = some every ∧ 0 < every ∧ every ∣ p

/-- The test for triggers. -/
lemma triggersAt_iff (c : GeneratorConfig) (p : Nat) : c.triggersAt p = true ↔ c.Triggers p := by
  unfold triggersAt Triggers
  cases c.triggerEvery with
  | none => simp
  | some every => simp [Nat.pos_iff_ne_zero, Nat.dvd_iff_mod_eq_zero]

/-- Whether a position carries a trigger is decided by the test. -/
instance (c : GeneratorConfig) (p : Nat) : Decidable (c.Triggers p) :=
  decidable_of_iff _ (c.triggersAt_iff p)

/-- The tags of a position of the stream. -/
def tagsOf (c : GeneratorConfig) (p : Nat) : List Tag :=
  (if p = 0 then [c.describingTag] else []) ++ if c.Triggers p then [c.triggerTag p p] else []

/-- Blocks are the first `total` samples of the stream, each with its tags. -/
structure Emits (c : GeneratorConfig) (total : Nat) (bs : List Block) : Prop where
  /-- The samples, in order. -/
  samples : bs.flatMap Block.samples = (List.range total).map fun p => c.tone.valueAt Double p
  /-- The tags, in order and at their positions in the stream. -/
  tags : Block.placedTags 0 bs = (List.range total).flatMap c.tagsOf
  /-- No block is empty, and every tag falls on a sample of its block. -/
  inside : ∀ b ∈ bs, b.samples ≠ [] ∧ ∀ t ∈ b.tags, t.index < b.samples.length
  /-- The first tag of the first block is the one that describes the signal. -/
  first : ∀ b ∈ bs.head?, b.tags.head? = some c.describingTag
  /-- There are no more samples than the configuration allows. -/
  limited : ∀ limit, c.limit = some limit → total ≤ limit

variable {c : GeneratorConfig} {total : Nat} {bs : List Block}

/-- Nothing is the beginning of every stream. -/
lemma Emits.zero (c : GeneratorConfig) : c.Emits 0 [] where
  samples := rfl
  tags := rfl
  inside := by simp
  first := by simp
  limited _ _ := Nat.zero_le _

/-- Blocks have as many samples as the beginning of the stream. -/
lemma Emits.length_samples (h : c.Emits total bs) : (bs.flatMap Block.samples).length = total := by
  rw [h.samples, List.length_map, List.length_range]

/-- A block with one more sample has the trigger tag of that sample in addition. -/
lemma tagsFrom_succ (c : GeneratorConfig) (p n : Nat) :
    c.tagsFrom p (n + 1) =
      c.tagsFrom p n ++ if c.Triggers (p + n) then [c.triggerTag (p + n) n] else [] := by
  unfold tagsFrom
  rw [List.range_succ, List.filter_append, List.map_append, List.append_assoc]
  by_cases ht : c.Triggers (p + n) <;> simp [c.triggersAt_iff, ht]

/-- The tags of a block at their positions are those of the stream. -/
lemma map_moveTo_tagsFrom (c : GeneratorConfig) (p : Nat) {n : Nat} (hn : 0 < n) :
    ((c.tagsFrom p n).map fun t => t.moveTo (p + t.index)) =
      (List.range n).flatMap fun i => c.tagsOf (p + i) := by
  have hmove : ∀ i, ((if c.Triggers (p + i) then [c.triggerTag (p + i) i] else []).map
      fun t => t.moveTo (p + t.index)) =
        if c.Triggers (p + i) then [c.triggerTag (p + i) (p + i)] else [] := by
    intro i
    split <;> rfl
  -- Only the first sample may have the tag that describes the signal.
  induction n, hn using Nat.le_induction with
  | base =>
    rw [tagsFrom_succ, List.map_append, hmove]
    by_cases hp : p = 0
    · have hdescribing : c.describingTag.moveTo c.describingTag.index = c.describingTag := rfl
      simp [tagsFrom, tagsOf, hp, hdescribing]
    · simp [tagsFrom, tagsOf, hp]
  | succ n hn ih =>
    have hlater : c.tagsOf (p + n) =
        if c.Triggers (p + n) then [c.triggerTag (p + n) (p + n)] else [] := by
      simp only [tagsOf, if_neg (show p + n ≠ 0 by omega), List.nil_append]
    rw [tagsFrom_succ, List.map_append, hmove, ih, List.range_succ, List.flatMap_append,
      List.flatMap_singleton, hlater]

/-- The tags of a block fall on its samples. -/
lemma index_lt_of_mem_tagsFrom {c : GeneratorConfig} {p n : Nat} (hn : 0 < n) {t : Tag}
    (ht : t ∈ c.tagsFrom p n) : t.index < n := by
  unfold tagsFrom at ht
  rcases List.mem_append.mp ht with hd | hm
  · split at hd
    · rw [List.mem_singleton.mp hd]
      exact hn
    · simp at hd
  · obtain ⟨i, hi, rfl⟩ := List.mem_map.mp hm
    exact List.mem_range.mp (List.mem_of_mem_filter hi)

/-- **The next chunk continues the beginning of the stream**, as long as samples are left for it. -/
theorem Emits.snoc (h : c.Emits total bs) {n : Nat} (hn : 0 < n) (hleft : n ≤ c.remaining total) :
    c.Emits (total + n) (bs ++ [c.blockFrom total n]) where
  samples := by
    rw [List.flatMap_append, h.samples, List.range_add, List.map_append, List.map_map]
    simp [blockFrom, Function.comp_def]
  tags := by
    rw [Block.placedTags_append, h.tags, h.length_samples, List.range_add, List.flatMap_append,
      List.flatMap_map, ← c.map_moveTo_tagsFrom total hn]
    simp [Block.placedTags, blockFrom]
  inside b hb := by
    rcases List.mem_append.mp hb with hold | hnew
    · exact h.inside b hold
    · rw [List.mem_singleton.mp hnew]
      have hlen : (c.blockFrom total n).samples.length = n := by simp [blockFrom]
      refine ⟨List.ne_nil_of_length_pos (by omega), fun t ht => ?_⟩
      rw [hlen]
      exact index_lt_of_mem_tagsFrom hn ht
  first b hb := by
    cases bs with
    | nil =>
      obtain rfl : total = 0 := h.length_samples.symm
      simp only [List.nil_append, List.head?_cons, Option.mem_def, Option.some.injEq] at hb
      rw [← hb]
      rfl
    | cons b' bs => exact h.first b hb
  limited limit hlimit := by
    have hle := h.limited limit hlimit
    simp only [remaining, hlimit] at hleft
    omega

/-- **The description stands in the stream once**, as soon as there is a sample. -/
theorem Emits.described (h : c.Emits total bs) :
    ((Block.placedTags 0 bs).filter fun t => t.has Tag.signalName) =
      if total = 0 then [] else [c.describingTag] := by
  have htags : ∀ p, ((c.tagsOf p).filter fun t => t.has Tag.signalName) =
      if p = 0 then [c.describingTag] else [] := by
    have hyes : c.describingTag.has Tag.signalName = true := Tag.has_ofList _ _ _
    have hno : ∀ p, (c.triggerTag p p).has Tag.signalName = false := fun _ => Tag.has_ofList _ _ _
    intro p
    by_cases hp : p = 0 <;> simp [tagsOf, hp, hyes, hno]
  rw [h.tags, List.filter_flatMap]
  simp only [htags]
  cases total with
  | zero => rfl
  | succ n => simp [List.range_succ_eq_map, List.flatMap_map]

/-- **A trigger stands in the stream at each position that carries one**, and nowhere else. -/
theorem Emits.triggered (h : c.Emits total bs) :
    ((Block.placedTags 0 bs).filter fun t => t.has Tag.triggerName) =
      ((List.range total).filter fun p => c.Triggers p).map fun p => c.triggerTag p p := by
  have htags : ∀ p, ((c.tagsOf p).filter fun t => t.has Tag.triggerName) =
      if c.Triggers p then [c.triggerTag p p] else [] := by
    have hno : c.describingTag.has Tag.triggerName = false := Tag.has_ofList _ _ _
    have hyes : ∀ p, (c.triggerTag p p).has Tag.triggerName = true := fun _ => Tag.has_ofList _ _ _
    intro p
    by_cases hp : p = 0 <;> simp [tagsOf, hp, hno, hyes]
  rw [h.tags, List.filter_flatMap]
  simp only [htags]
  induction List.range total with
  | nil => rfl
  | cons p ps ih =>
    rw [List.flatMap_cons, ih, List.filter_cons]
    by_cases ht : c.Triggers p <;> simp [ht]

end GeneratorConfig

namespace Generator

/-! ### Chunk by chunk -/

/-- The samples of a chunk have room in memory, at four bytes a sample and with half of the addresses
for everything. A chunk that is longer cannot be made. -/
def HasRoom (g : Generator) (budget : Nat) : Prop := 4 * g.chunkWithin budget < countBound / 2

/-- The next chunk, unless it is empty. -/
def chunk? (g : Generator) (budget : Nat) : Option Block :=
  if g.chunkWithin budget = 0 then none
  else some (g.config.blockFrom g.position (g.chunkWithin budget))

/-- The generator after its next chunk. -/
def advance (g : Generator) (budget : Nat) : Generator :=
  { g with position := g.position + g.chunkWithin budget }

/-- A chunk leaves the configuration as it is. -/
@[simp]
lemma config_advance (g : Generator) (budget : Nat) : (g.advance budget).config = g.config := rfl

/-- A chunk leaves the sink as it is. -/
@[simp]
lemma sink_advance (g : Generator) (budget : Nat) : (g.advance budget).sink = g.sink := rfl

/-- A chunk is not longer than what is left. -/
lemma chunkWithin_le_remaining (g : Generator) (budget : Nat) :
    g.chunkWithin budget ≤ g.config.remaining g.position := by
  unfold chunkWithin
  omega

/-- **What the production of a chunk does**: it goes on behind the chunk, pushes it unless it is
empty, and tells whether it was shorter than what was left. -/
theorem produce_eq (g : Generator) (budget : Nat) (h : Hub) :
    g.produce budget h =
      (decide (g.chunkWithin budget < g.config.remaining g.position), g.advance budget,
        (g.chunk? budget).elim h (h.push g.sink)) := by
  unfold produce chunk? advance
  by_cases hn : g.chunkWithin budget = 0 <;> simp [hn]

/-- A chunk, empty or not, continues the beginning of the stream. -/
lemma emits_advance {g : Generator} {bs : List Block} (h : g.config.Emits g.position bs)
    (budget : Nat) :
    g.config.Emits (g.advance budget).position (bs ++ (g.chunk? budget).toList) := by
  unfold chunk? advance
  by_cases hn : g.chunkWithin budget = 0
  · simpa [hn] using h
  · simpa [hn] using h.snoc (Nat.pos_of_ne_zero hn) (g.chunkWithin_le_remaining budget)

/-- No samples are left after a chunk exactly if the limit is reached. -/
lemma remaining_le_chunkWithin_iff {g : Generator} {bs : List Block}
    (h : g.config.Emits g.position bs) {budget : Nat} (hroom : g.HasRoom budget) :
    g.config.remaining g.position ≤ g.chunkWithin budget ↔
      g.config.limit = some (g.advance budget).position := by
  have hle := g.chunkWithin_le_remaining budget
  have hposition : (g.advance budget).position = g.position + g.chunkWithin budget := rfl
  unfold HasRoom countBound at hroom
  unfold GeneratorConfig.remaining at hle ⊢
  cases hlimit : g.config.limit with
  | none => simp [countBound]; omega
  | some limit =>
    have hwithin := h.limited limit hlimit
    simp only [hlimit, Option.some.injEq] at hle ⊢
    omega

/-- A generator goes on if samples are wanted and its limit is not reached, unless its chunks are
empty. -/
lemma position_lt_advance {g : Generator} {bs : List Block} (h : g.config.Emits g.position bs)
    {budget : Nat} (hchunk : 0 < g.config.chunk) (hbudget : 0 < budget)
    (hlimit : g.config.limit ≠ some g.position) : g.position < (g.advance budget).position := by
  have hleft : 0 < g.config.remaining g.position := by
    unfold GeneratorConfig.remaining
    cases hl : g.config.limit with
    | none =>
      show 0 < countBound - 1
      decide
    | some limit =>
      have hle := h.limited limit hl
      have hne : limit ≠ g.position := fun heq => hlimit (heq ▸ hl)
      show 0 < limit - g.position
      omega
  have hn : 0 < g.chunkWithin budget := by
    unfold chunkWithin
    omega
  exact Nat.lt_add_of_pos_right hn

/-- A call for a chunk: how many samples are wanted, and the sinks at that moment. -/
structure Call where
  /-- The number of samples that are wanted. -/
  budget : Nat
  /-- The sinks. -/
  hub : Hub

/-- The generator after calls. -/
def after (g : Generator) : List Call → Generator
  | [] => g
  | c :: cs => (g.produce c.budget c.hub).2.1.after cs

/-- The blocks that calls push. -/
def emitted (g : Generator) : List Call → List Block
  | [] => []
  | c :: cs => (g.chunk? c.budget).toList ++ (g.produce c.budget c.hub).2.1.emitted cs

/-- Calls leave the configuration as it is. -/
@[simp]
lemma config_after (g : Generator) (calls : List Call) : (g.after calls).config = g.config := by
  induction calls generalizing g with
  | nil => rfl
  | cons c cs ih => simp [after, ih, produce_eq]

/-- Calls leave the sink as it is. -/
@[simp]
lemma sink_after (g : Generator) (calls : List Call) : (g.after calls).sink = g.sink := by
  induction calls generalizing g with
  | nil => rfl
  | cons c cs ih => simp [after, ih, produce_eq]

/-- **Calls of any sizes continue the beginning of the stream.** -/
theorem emits_after {g : Generator} {bs : List Block} (h : g.config.Emits g.position bs)
    (calls : List Call) :
    g.config.Emits (g.after calls).position (bs ++ g.emitted calls) := by
  induction calls generalizing g bs with
  | nil => simpa [after, emitted] using h
  | cons c cs ih =>
    have hrest := @ih (g.advance c.budget) _ (emits_advance h c.budget)
    simpa [after, emitted, produce_eq] using hrest

end Generator

namespace GeneratorGraph

/-! ### Round by round -/

/-- What goes into one sink. -/
def blocksTo (sink : Nat) (pushes : List (Nat × Block)) : List Block :=
  pushes.filterMap fun p => if p.1 = sink then some p.2 else none

/-- What goes into a sink in two steps. -/
lemma blocksTo_append (sink : Nat) (ps qs : List (Nat × Block)) :
    blocksTo sink (ps ++ qs) = blocksTo sink ps ++ blocksTo sink qs := List.filterMap_append

/-- Blocks for one sink go into that sink and no other. -/
lemma blocksTo_map_mk (sink s : Nat) (bs : List Block) :
    blocksTo sink (bs.map (Prod.mk s)) = if s = sink then bs else [] := by
  unfold blocksTo
  rw [List.filterMap_map]
  by_cases hs : s = sink <;> simp [hs]

/-- Push blocks into their sinks. -/
def pushAll (h : Hub) (pushes : List (Nat × Block)) : Hub :=
  pushes.foldl (fun h p => h.push p.1 p.2) h

/-- What generators push in a round. -/
def pushesAt (elapsed : Double) (gs : List Generator) : List (Nat × Block) :=
  gs.flatMap fun x => (x.chunk? (x.budgetAt elapsed)).toList.map (Prod.mk x.sink)

/-- **What a round does**: every generator goes on behind its next chunk, the chunks that are not
empty are pushed, and there is more to come if that is so for one generator. -/
lemma round_eq (elapsed : Double) (gs : List Generator) (h : Hub) :
    (round elapsed h gs).generators = gs.map (fun x => x.advance (x.budgetAt elapsed)) ∧
      (round elapsed h gs).hub = pushAll h (pushesAt elapsed gs) ∧
      (round elapsed h gs).active =
        gs.any fun x => x.chunkWithin (x.budgetAt elapsed) < x.config.remaining x.position := by
  induction gs generalizing h with
  | nil => exact ⟨rfl, rfl, rfl⟩
  | cons g gs ih =>
    obtain ⟨hgenerators, hhub, hactive⟩ :=
      ih ((g.chunk? (g.budgetAt elapsed)).elim h (h.push g.sink))
    refine ⟨?_, ?_, ?_⟩
    · simp [round, Generator.produce_eq, hgenerators]
    · simp only [round, Generator.produce_eq, hhub]
      cases hchunk : g.chunk? (g.budgetAt elapsed) <;> simp [pushesAt, pushAll, hchunk]
    · simp [round, Generator.produce_eq, hactive]

/-- A round of work: the time on the clock, and the sinks at that moment. -/
structure Turn where
  /-- The time since the first round in seconds. -/
  elapsed : Double
  /-- The sinks. -/
  hub : Hub

/-- Work once. -/
def turn (g : GeneratorGraph) (t : Turn) : WorkStatus × GeneratorGraph × Hub :=
  { g with elapsed := t.elapsed }.work t.hub

/-- The graph after rounds of work. -/
def after (g : GeneratorGraph) : List Turn → GeneratorGraph
  | [] => g
  | t :: ts => (g.turn t).2.1.after ts

/-- What rounds of work push. -/
def sent (g : GeneratorGraph) : List Turn → List (Nat × Block)
  | [] => []
  | t :: ts => pushesAt t.elapsed g.generators ++ (g.turn t).2.1.sent ts

/-- The generators after a round of work. -/
@[simp]
lemma generators_turn (g : GeneratorGraph) (t : Turn) :
    (g.turn t).2.1.generators = g.generators.map fun x => x.advance (x.budgetAt t.elapsed) :=
  (round_eq t.elapsed g.generators t.hub).1

/-- The sinks after a round of work. -/
lemma hub_turn (g : GeneratorGraph) (t : Turn) :
    (g.turn t).2.2 = pushAll t.hub (pushesAt t.elapsed g.generators) :=
  (round_eq t.elapsed g.generators t.hub).2.1

/-- The graph is done exactly if no generator has samples left behind its chunk. -/
lemma turn_eq_done_iff (g : GeneratorGraph) (t : Turn) :
    (g.turn t).1 = .done ↔ ∀ x ∈ g.generators,
      x.config.remaining x.position ≤ x.chunkWithin (x.budgetAt t.elapsed) := by
  have hactive := (round_eq t.elapsed g.generators t.hub).2.2
  have hstatus : (g.turn t).1 =
      if !(round t.elapsed t.hub g.generators).active then .done
      else if (round t.elapsed t.hub g.generators).produced then .ok else .idle := rfl
  rw [hstatus, hactive]
  split <;> rename_i h
  · simpa using h
  · split <;> simpa using h

/-- The generators have sinks of their own, and the blocks in them are the beginnings of their
streams. -/
structure Streams (g : GeneratorGraph) (pushes : List (Nat × Block)) : Prop where
  /-- No two generators have one sink. -/
  sinks : g.sinks.Nodup
  /-- The stream of a generator. -/
  emits : ∀ x ∈ g.generators, x.config.Emits x.position (blocksTo x.sink pushes)

/-- A chunk goes into the sink of its generator. -/
lemma blocksTo_pushesAt_cons (sink : Nat) (elapsed : Double) (g : Generator) (gs : List Generator) :
    blocksTo sink (pushesAt elapsed (g :: gs)) =
      (if g.sink = sink then (g.chunk? (g.budgetAt elapsed)).toList else []) ++
        blocksTo sink (pushesAt elapsed gs) := by
  rw [← blocksTo_map_mk, ← blocksTo_append]
  rfl

/-- In a round, a sink of one generator gets the chunk of that generator. -/
lemma blocksTo_pushesAt (elapsed : Double) {gs : List Generator}
    (hsinks : (gs.map Generator.sink).Nodup) {x : Generator} (hx : x ∈ gs) :
    blocksTo x.sink (pushesAt elapsed gs) = (x.chunk? (x.budgetAt elapsed)).toList := by
  have hothers : ∀ (sink : Nat) (gs : List Generator), sink ∉ gs.map Generator.sink →
      blocksTo sink (pushesAt elapsed gs) = [] := by
    intro sink gs hnot
    induction gs with
    | nil => rfl
    | cons g gs ih =>
      rw [List.map_cons, List.mem_cons, not_or] at hnot
      rw [blocksTo_pushesAt_cons, if_neg (Ne.symm hnot.1), ih hnot.2, List.nil_append]
  induction gs with
  | nil => simp at hx
  | cons g gs ih =>
    rw [List.map_cons, List.nodup_cons] at hsinks
    rw [blocksTo_pushesAt_cons]
    rcases List.mem_cons.mp hx with rfl | hx
    · rw [if_pos rfl, hothers _ _ hsinks.1, List.append_nil]
    · have hne : g.sink ≠ x.sink := by
        intro heq
        exact hsinks.1 (heq ▸ List.mem_map_of_mem hx)
      rw [if_neg hne, ih hsinks.2 hx, List.nil_append]

/-- **A round of work continues the streams of all generators.** -/
theorem Streams.turn {g : GeneratorGraph} {pushes : List (Nat × Block)} (h : g.Streams pushes)
    (t : Turn) : (g.turn t).2.1.Streams (pushes ++ pushesAt t.elapsed g.generators) where
  sinks := by simpa [GeneratorGraph.sinks, Function.comp_def] using h.sinks
  emits x hx := by
    rw [generators_turn] at hx
    obtain ⟨y, hy, rfl⟩ := List.mem_map.mp hx
    rw [blocksTo_append, Generator.sink_advance, blocksTo_pushesAt t.elapsed h.sinks hy]
    exact Generator.emits_advance (h.emits y hy) _

/-- **Rounds of work at any times continue the streams of all generators.** -/
theorem Streams.after {g : GeneratorGraph} {pushes : List (Nat × Block)} (h : g.Streams pushes)
    (turns : List Turn) : (g.after turns).Streams (pushes ++ g.sent turns) := by
  induction turns generalizing g pushes with
  | nil => simpa [GeneratorGraph.after, sent] using h
  | cons t ts ih => simpa [GeneratorGraph.after, sent] using ih (h.turn t)

/-- The generators of a new graph have the next sinks, in order, and have produced nothing. -/
lemma makeGenerators_eq (h : Hub) (configs : List GeneratorConfig) :
    (makeGenerators h configs).1 =
      (configs.zipIdx h.sinks.length).map fun p => { config := p.1, sink := p.2 } := by
  induction configs generalizing h with
  | nil => rfl
  | cons c cs ih => simp [makeGenerators, ih, Hub.make]

/-- A new graph stands at the beginning of all its streams. -/
lemma streams_make (name : String) (configs : List GeneratorConfig) (h : Hub) :
    (make name configs h).1.Streams [] where
  sinks := by
    have hsinks : (make name configs h).1.sinks = List.range' h.sinks.length configs.length := by
      show (makeGenerators h configs).1.map Generator.sink = _
      rw [makeGenerators_eq, List.map_map]
      exact List.zipIdx_map_snd _ _
    rw [hsinks]
    exact List.nodup_range'
  emits x hx := by
    have hmem : x ∈ (makeGenerators h configs).1 := hx
    rw [makeGenerators_eq] at hmem
    obtain ⟨p, -, rfl⟩ := List.mem_map.mp hmem
    exact .zero p.1

/-- Rounds of work change neither the configurations nor the sinks. -/
lemma map_config_sink_after (g : GeneratorGraph) (turns : List Turn) :
    ((g.after turns).generators.map fun x => (x.config, x.sink)) =
      g.generators.map fun x => (x.config, x.sink) := by
  induction turns generalizing g with
  | nil => rfl
  | cons t ts ih => simp [after, ih, Function.comp_def]

/-- **Generated streams do not depend on the cutting into chunks.**

A generator that is called for chunks of any sizes pushes blocks that are the beginning of the
stream of its configuration, as long as its position tells and never beyond its limit. A call pushes
the next block and nothing else. It goes on whenever samples are wanted and the limit is not
reached, unless chunks are empty; it says that there is no more exactly if the limit is reached
then, provided that a chunk that is too long for the memory is never asked for. In the beginning of
a stream, the description stands once, if there is a sample at all, and triggers stand at the
positions that the distance between them divides.

The same holds for each generator of a graph, whatever the clock says in the rounds of work and
whatever has become of the hub in between. A round pushes the next blocks and nothing else, and the
graph is done exactly if every generator has reached its limit. -/
theorem streams_exact :
    (∀ (c : GeneratorConfig) (sink : Nat) (calls : List Generator.Call) (budget : Nat) (h : Hub),
      let start : Generator := { config := c, sink }
      let g := start.after calls
      c.Emits g.position (start.emitted calls) ∧
        (g.produce budget h).2.2 = (g.chunk? budget).elim h (h.push sink) ∧
        (0 < c.chunk → 0 < budget → c.limit ≠ some g.position →
          g.position < (g.produce budget h).2.1.position) ∧
        (g.HasRoom budget →
          ((g.produce budget h).1 = false ↔
            c.limit = some (g.produce budget h).2.1.position))) ∧
      (∀ (c : GeneratorConfig) (total : Nat) (bs : List Block), c.Emits total bs →
        ((Block.placedTags 0 bs).filter fun t => t.has Tag.signalName) =
            (if total = 0 then [] else [c.describingTag]) ∧
          ((Block.placedTags 0 bs).filter fun t => t.has Tag.triggerName) =
            ((List.range total).filter fun p => c.Triggers p).map fun p => c.triggerTag p p) ∧
      ∀ (name : String) (configs : List GeneratorConfig) (h : Hub) (turns : List Turn) (t : Turn),
        let start := (make name configs h).1
        let g := start.after turns
        (g.generators.map fun x => (x.config, x.sink)) = configs.zipIdx h.sinks.length ∧
          (∀ x ∈ g.generators, x.config.Emits x.position (blocksTo x.sink (start.sent turns))) ∧
          (g.turn t).2.2 = pushAll t.hub (pushesAt t.elapsed g.generators) ∧
          ((∀ x ∈ g.generators, x.HasRoom (x.budgetAt t.elapsed)) →
            ((g.turn t).1 = .done ↔
              ∀ x ∈ (g.turn t).2.1.generators, x.config.limit = some x.position)) := by
  refine ⟨?_, fun c total bs h => ⟨h.described, h.triggered⟩, ?_⟩
  · intro c sink calls budget h start g
    have hemits : g.config.Emits g.position (start.emitted calls) :=
      Generator.config_after start calls ▸
        Generator.emits_after (g := start) (.zero c) calls
    have hconfig : g.config = c := Generator.config_after start calls
    refine ⟨hconfig ▸ hemits, ?_, fun hchunk hbudget hlimit => ?_, fun hroom => ?_⟩
    · rw [Generator.produce_eq, Generator.sink_after]
    · rw [← hconfig] at hchunk hlimit
      rw [Generator.produce_eq]
      exact Generator.position_lt_advance hemits hchunk hbudget hlimit
    · rw [Generator.produce_eq, decide_eq_false_iff_not, not_lt,
        Generator.remaining_le_chunkWithin_iff hemits hroom, hconfig]
  · intro name configs h turns t start g
    have hstreams : g.Streams (start.sent turns) := (streams_make name configs h).after turns
    refine ⟨?_, hstreams.emits, g.hub_turn t, fun hroom => ?_⟩
    · rw [map_config_sink_after]
      show ((makeGenerators h configs).1.map _) = _
      rw [makeGenerators_eq, List.map_map]
      exact List.map_id _
    · rw [turn_eq_done_iff, generators_turn, List.forall_mem_map]
      exact forall₂_congr fun x hx =>
        Generator.remaining_le_chunkWithin_iff (hstreams.emits x hx) (hroom x hx)

/-- A stream of five samples with triggers two apart, in chunks of at most three: after a chunk of
three and an empty one the next chunk is the last one. Beside a generator that makes no chunks, and
whose limit is reached at once, the graph is done in its second round. -/
theorem streams_exact_sample :
    let c : GeneratorConfig := { chunk := 3, triggerEvery := some 2, limit := some 5, paced := false }
    let calls : List Generator.Call := [⟨10, {}⟩, ⟨0, {}⟩]
    let bs := (Generator.mk c 0 0).emitted calls
    let configs : List GeneratorConfig := [c, { c with chunk := 0, limit := some 0 }]
    let turn : Turn := ⟨.ofInt 0, {}⟩
    c.Emits 3 bs ∧
      ((Block.placedTags 0 bs).filter fun t => t.has Tag.signalName) = [c.describingTag] ∧
      ((Block.placedTags 0 bs).filter fun t => t.has Tag.triggerName) =
        [c.triggerTag 0 0, c.triggerTag 2 2] ∧
      3 < (((Generator.mk c 0 0).after calls).produce 10 {}).2.1.position ∧
      ((Generator.mk c 0 0).after calls).HasRoom 10 ∧
      (((Generator.mk c 0 0).after calls).produce 10 {}).1 = false ∧
      (∀ x ∈ ((make "pair" configs {}).1.after [turn]).generators,
        x.HasRoom (x.budgetAt turn.elapsed)) ∧
      (((make "pair" configs {}).1.after [turn]).turn turn).1 = .done := by
  intro c calls bs configs turn
  obtain ⟨hchunks, htags, hrounds⟩ := streams_exact
  obtain ⟨hemits, -, hgoes, hflag⟩ := hchunks c 0 calls 10 {}
  obtain ⟨-, -, -, hdone⟩ := hrounds "pair" configs {} [turn] turn
  have hposition : ((Generator.mk c 0 0).after calls).position = 3 := by decide +kernel
  rw [hposition] at hemits hgoes
  obtain ⟨hdescribed, htriggered⟩ := htags c 3 bs hemits
  have hmarks : ((List.range 3).filter fun p => c.Triggers p) = [0, 2] := by decide +kernel
  rw [if_neg (by decide)] at hdescribed
  rw [hmarks] at htriggered
  have hroom : ((Generator.mk c 0 0).after calls).HasRoom 10 := by
    unfold Generator.HasRoom
    decide +kernel
  have hrooms : ∀ x ∈ ((make "pair" configs {}).1.after [turn]).generators,
      x.HasRoom (x.budgetAt turn.elapsed) := by
    unfold Generator.HasRoom
    decide +kernel
  exact ⟨hemits, hdescribed, htriggered, hgoes (by decide) (by decide) (by decide), hroom,
    (hflag hroom).mpr (by decide +kernel), hrooms, (hdone hrooms).mpr (by decide +kernel)⟩

end GeneratorGraph

end Daq
