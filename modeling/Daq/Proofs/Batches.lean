import Daq.Proofs.Graph.Waveform
import Daq.Proofs.Queue
import Daq.Proofs.Reconciler.Entries

set_option autoImplicit false

/-!
# Emptying a queue in batches

A collector empties a queue in a loop. In each turn it processes a batch, whose items are passed to
a callback one by one or all together, and it goes on as long as a turn finds anything. Nobody
publishes in the meantime. The loop ends with the first turn that finds nothing, so after as many
turns as there are batches, and one more: also where the last batch is a full one. What it leaves
behind depends neither on the size of the batches nor on how their items are passed on; it is what
the callback makes of the whole queue, item by item.

For the two kinds of queues this settles what a collection brings back: one reply to each item, in
the order of the queue. What a reply says is stated field by field.

## Main definitions

* `Daq.Queue.loop?` — the loop, if it ends within a number of turns.
* `Daq.Emission` — what the callback for blocks works on.
* `Daq.Reply.AnswersBlock`, `Daq.Reply.AnswersCapture` — what a reply says.
* `Daq.Collection.Complete` — a collection with one reply to each item of a queue.

## Main results

* `Daq.Queue.loop?_succ` — how many turns the loop takes, and what it leaves behind.
* `Daq.Single.exact_mem_range` — the full range of values holds every finite number.
* `Daq.Queue.collection_exact` — collections are complete, and the loops of all batch sizes come to
  them.
-/

namespace Daq

/-! ### The loop -/

section Loop

variable {α σ : Type} (callback : Callback) (emit : σ → α → σ)

/-- The loop of a collector, at most so many turns of it. In each turn a batch is processed, and
each call passes its items to `emit`; the turn that finds nothing is the last one. There is no
result if the loop has not ended by then. -/
def Queue.loop? (batch : Nat) : Nat → σ → Queue α → Option (σ × Queue α)
  | 0, _, _ => none
  | turns + 1, s, q =>
    let r := q.process callback batch
    let s := r.calls.foldl (fun s items => items.foldl emit s) s
    if r.any then loop? batch turns s r.queue else some (s, r.queue)

/-- However the items of a batch are passed on, `emit` gets them one after the other. -/
lemma Queue.foldl_calls_process (batch : Nat) (s : σ) (q : Queue α) :
    (q.process callback batch).calls.foldl (fun s items => items.foldl emit s) s =
      (q.items.take batch).foldl emit s := by
  rw [← List.foldl_flatten]
  exact congrArg (List.foldl emit s) (callback.flatten_calls _)

/-- A turn that finds the queue empty is the last one. -/
lemma Queue.loop?_of_nil (batch turns : Nat) (s : σ) {q : Queue α} (hq : q.items = []) :
    q.loop? callback emit batch (turns + 1) s = some (s, { q with items := [] }) := by
  have hnone : (q.process callback batch).any = false := by simp [process, take, hq]
  have hleft : (q.process callback batch).queue = { q with items := [] } := by
    simp [process, take, hq]
  rw [loop?, foldl_calls_process, hnone, hleft, hq, List.take_nil]
  rfl

/-- A turn that finds items takes a batch of them, and the loop goes on. -/
lemma Queue.loop?_of_ne_nil {batch : Nat} (hb : 0 < batch) (turns : Nat) (s : σ) {q : Queue α}
    (hq : q.items ≠ []) :
    q.loop? callback emit batch (turns + 1) s =
      loop? callback emit batch turns ((q.items.take batch).foldl emit s)
        { q with items := q.items.drop batch } := by
  have hsome : (q.process callback batch).any = true := by
    rw [q.any_process callback batch]
    exact Nat.lt_min.mpr ⟨hb, List.length_pos_of_ne_nil hq⟩
  rw [loop?, foldl_calls_process, hsome]
  rfl

/-- **The loop ends after as many turns as there are batches, and one more**, and it has emptied the
queue item by item.

**Proof sketch.** Induction on the turns. A turn that finds nothing has found the queue empty. Any
other turn takes a batch, so that the turns that are left have a batch less to take. -/
theorem Queue.loop?_succ {batch : Nat} (hb : 0 < batch) (turns : Nat) (s : σ) (q : Queue α) :
    q.loop? callback emit batch (turns + 1) s =
      if q.pending ≤ turns * batch then some (q.items.foldl emit s, { q with items := [] })
      else none := by
  induction turns generalizing s q with
  | zero =>
    by_cases hq : q.items = []
    · rw [loop?_of_nil callback emit batch 0 s hq, pending, hq]
      simp
    · have hpos : ¬ q.pending ≤ 0 * batch := by
        rw [Nat.zero_mul, Nat.not_le]
        exact List.length_pos_of_ne_nil hq
      rw [loop?_of_ne_nil callback emit hb 0 s hq, if_neg hpos]
      rfl
  | succ turns ih =>
    by_cases hq : q.items = []
    · rw [loop?_of_nil callback emit batch (turns + 1) s hq, pending, hq]
      simp
    · have hfewer : (q.items.drop batch).length ≤ turns * batch ↔
          q.pending ≤ (turns + 1) * batch := by
        rw [List.length_drop, Nat.succ_mul, pending]
        omega
      rw [loop?_of_ne_nil callback emit hb (turns + 1) s hq, ih]
      dsimp only
      rw [← List.foldl_append, List.take_append_drop]
      exact if_congr hfewer rfl rfl

end Loop

/-! ### The full range -/

/-- The exponent of a finite number is not the one of infinite values. -/
lemma Single.exponent_lt_of_isFinite {x : Single} (hx : x.isFinite = true) :
    x.bits.toNat / 0x800000 % 0x100 < 0xff := by
  have hbits : x.bits.toNat &&& 0x7fffffff < 0x7f800000 := of_decide_eq_true hx
  have hmod : x.bits.toNat &&& 0x7fffffff = x.bits.toNat % 2 ^ 31 :=
    Nat.and_two_pow_sub_one_eq_mod x.bits.toNat 31
  omega

/-- A finite number is not larger than the greatest one. -/
lemma Single.abs_exact_le {x : Single} (hx : x.isFinite = true) : |x.exact| ≤ greatest.exact := by
  have hgreatest : greatest.exact = 0xffffff * 2 ^ 254 / 2 ^ 150 := by decide +kernel
  have hexponent := exponent_lt_of_isFinite hx
  have hfraction : ((x.bits.toNat % 0x800000 : ℕ) : ℚ) ≤ 0x7fffff := by
    have hle : x.bits.toNat % 0x800000 ≤ 0x7fffff := by omega
    exact_mod_cast hle
  rw [hgreatest]
  unfold exact
  dsimp only
  -- The sign does not count.
  rw [apply_ite (|·|), abs_neg, ite_self]
  split
  · rw [abs_of_nonneg (by positivity)]
    calc ((x.bits.toNat % 0x800000 : ℕ) : ℚ) / 2 ^ 149
        ≤ (x.bits.toNat % 0x800000 : ℕ) := div_le_self (by positivity) (by norm_num)
      _ ≤ 0x7fffff := hfraction
      _ ≤ 0xffffff * 2 ^ 254 / 2 ^ 150 := by norm_num
  · rw [abs_of_nonneg (by positivity)]
    have hsignificand : (0x800000 : ℚ) + (x.bits.toNat % 0x800000 : ℕ) ≤ 0xffffff := by linarith
    have hscale : (2 : ℚ) ^ (x.bits.toNat / 0x800000 % 0x100) ≤ 2 ^ 254 :=
      pow_le_pow_right₀ one_le_two (by omega)
    gcongr

/-- **The full range of values holds every finite number.** -/
theorem Single.exact_mem_range {x : Single} (hx : x.isFinite = true) :
    least.exact ≤ x.exact ∧ x.exact ≤ greatest.exact := by
  have hleast : least.exact = -greatest.exact := by decide +kernel
  rw [hleast]
  exact abs_le.mp (abs_exact_le hx)

/-! ### Callbacks -/

/-- What the callback for blocks works on. -/
structure Emission where
  /-- The description that the next reply starts from. -/
  reported : Descriptor
  /-- The replies so far. -/
  replies : List Reply := []

/-- The callback for blocks: it takes over what the tags of a block report, and emits the reply. -/
def Emission.block (e : Emission) (b : Block) : Emission :=
  let d := e.reported.update b.tags
  { reported := d, replies := e.replies ++ [.ofBlock d b] }

/-- The callback for captures that were requested for `signal`: it emits the reply. -/
def emitCapture (signal : String) (replies : List Reply) (c : Capture) : List Reply :=
  replies ++ [.ofCapture signal c]

/-- What the callback for blocks makes of several blocks. -/
lemma Emission.foldl_block (e : Emission) (bs : List Block) :
    bs.foldl block e =
      { reported := (repliesTo e.reported bs).2
        replies := e.replies ++ (repliesTo e.reported bs).1 } := by
  induction bs generalizing e with
  | nil => simp [repliesTo]
  | cons b bs ih =>
    rw [List.foldl_cons, ih]
    simp [block, repliesTo]

/-- What the callback for captures makes of several captures. -/
lemma foldl_emitCapture (signal : String) (replies : List Reply) (cs : List Capture) :
    cs.foldl (emitCapture signal) replies = replies ++ cs.map (.ofCapture signal) := by
  induction cs generalizing replies with
  | nil => simp
  | cons c cs ih =>
    rw [List.foldl_cons, ih]
    simp [emitCapture]

/-! ### Replies -/

/-- There is one reply to each block. -/
lemma length_repliesTo (d : Descriptor) (bs : List Block) :
    (repliesTo d bs).1.length = bs.length := by
  rw [← answers_blocks, length_answers, List.length_map]

/-- What the tags of all blocks have reported is left behind. -/
lemma snd_repliesTo (d : Descriptor) (bs : List Block) :
    (repliesTo d bs).2 = d.update (bs.flatMap Block.tags) := by
  induction bs generalizing d with
  | nil => rfl
  | cons b bs ih =>
    rw [repliesTo, ih, List.flatMap_cons]
    exact List.foldl_append.symm

/-- A reply starts from what the tags of all blocks so far have reported, its own included. -/
lemma getElem?_repliesTo (d : Descriptor) (bs : List Block) (i : Nat) :
    (repliesTo d bs).1[i]? =
      bs[i]?.map fun b => .ofBlock (d.update ((bs.take (i + 1)).flatMap Block.tags)) b := by
  induction bs generalizing d i with
  | nil => rfl
  | cons b bs ih =>
    cases i with
    | zero => simp [repliesTo]
    | succ i => simp [repliesTo, ih, Descriptor.update, List.foldl_append]

/-- What a reply to a block of a stream says, if `d` is what the stream has reported. -/
structure Reply.AnswersBlock (d : Descriptor) (b : Block) (r : Reply) : Prop where
  /-- Streams have no trigger. -/
  trigger : r.trigger = "STREAMING"
  /-- The channel is the one that was reported. -/
  channel : r.channel = d.name ∧ r.unit = d.unit ∧ r.min = d.min ∧ r.max = d.max
  /-- The values are the samples. -/
  values : r.values = b.samples
  /-- All errors are zero. -/
  errors : r.errors = List.replicate b.samples.length .zero
  /-- All times are zero. -/
  times : r.times = List.replicate b.samples.length .zero

/-- What a reply to a capture says that was requested for `signal`. -/
structure Reply.AnswersCapture (signal : String) (c : Capture) (r : Reply) : Prop where
  /-- The values are those of the capture. -/
  values : r.values = c.values
  /-- There are as many errors as values. -/
  length_errors : r.errors.length = c.values.length
  /-- Each value has its error, or zero if there are too few errors. -/
  errors : ∀ j < c.values.length, r.errors[j]? = some (c.errors[j]?.getD .zero)
  /-- All times are zero. -/
  times : r.times = List.replicate c.values.length .zero
  /-- The trigger is the one that the tag of the first event names. -/
  named : ∀ e rest name, c.events = e :: rest → e.tag.trigger? = some name → r.trigger = name
  /-- If there is no event or its tag names none, there is no trigger. -/
  unnamed : (∀ e rest, c.events = e :: rest → e.tag.trigger? = none) → r.trigger = ""
  /-- The channel is the first signal. -/
  described : ∀ d rest, c.signals = d :: rest →
    r.channel = d.name ∧ r.unit = d.unit ∧ r.min = d.min ∧ r.max = d.max
  /-- If there is no signal, it is the requested one, and its unit is unknown. -/
  undescribed : c.signals = [] →
    r.channel = signal ∧ r.unit = "N/A" ∧ r.min = .least ∧ r.max = .greatest
  /-- Then its range holds every finite number. -/
  unbounded : c.signals = [] → ∀ x : Single, x.isFinite = true →
    r.min.exact ≤ x.exact ∧ x.exact ≤ r.max.exact

/-- The reply to a block says what it should. -/
lemma Reply.answersBlock (d : Descriptor) (b : Block) : (ofBlock d b).AnswersBlock d b where
  trigger := rfl
  channel := ⟨rfl, rfl, rfl, rfl⟩
  values := rfl
  errors := rfl
  times := rfl

/-- A list that is cut or filled up is as long as the values. -/
lemma Reply.length_fit (values errors : List Single) :
    (fit values errors).length = values.length := by
  rw [fit, List.length_append, List.length_take, List.length_replicate]
  omega

/-- What is cut or filled up holds the errors, and zeros where there are none. -/
lemma Reply.getElem?_fit (values errors : List Single) {j : Nat} (hj : j < values.length) :
    (fit values errors)[j]? = some (errors[j]?.getD .zero) := by
  rcases Nat.lt_or_ge j errors.length with hin | hout
  · have hfront : j < (errors.take values.length).length := by
      rw [List.length_take]
      omega
    rw [fit, List.getElem?_append_left hfront, List.getElem?_take_of_lt hj,
      List.getElem?_eq_getElem hin]
    rfl
  · have hall : errors.take values.length = errors := List.take_of_length_le (by omega)
    rw [fit, hall, List.getElem?_append_right hout, List.getElem?_replicate,
      List.getElem?_eq_none hout, if_pos (by omega)]
    rfl

/-- The reply to a capture says what it should. -/
lemma Reply.answersCapture (signal : String) (c : Capture) :
    (ofCapture signal c).AnswersCapture signal c where
  values := rfl
  length_errors := length_fit c.values c.errors
  errors _ := getElem?_fit c.values c.errors
  times := rfl
  named e rest name hevents hname := by
    simp [ofCapture, Capture.trigger?, hevents, hname]
  unnamed hnone := by
    cases hevents : c.events with
    | nil => simp [ofCapture, Capture.trigger?, hevents]
    | cons e rest => simp [ofCapture, Capture.trigger?, hevents, hnone e rest hevents]
  described d rest hsignals := by
    simp [ofCapture, Capture.descriptor?, hsignals]
  undescribed hsignals := by
    simp [ofCapture, Capture.descriptor?, hsignals, Descriptor.unknown, unknownUnit]
  unbounded hsignals x hx := by
    simpa [ofCapture, Capture.descriptor?, hsignals, Descriptor.unknown] using x.exact_mem_range hx

/-! ### Collections -/

/-- A collection with one reply to each item of a queue, in the order of the queue. -/
structure Collection.Complete {α : Type} (q left : Queue α) (answers : Nat → α → Reply → Prop)
    (c : Collection) : Prop where
  /-- The flag is the one that the queue had. -/
  finished : c.finished = q.finished
  /-- Nothing else has changed but that the queue is empty. -/
  left : left = { q with items := [] }
  /-- There are as many replies as items. -/
  length : c.replies.length = q.pending
  /-- Each item has its reply. -/
  replies : ∀ i a, q.items[i]? = some a → ∃ r, c.replies[i]? = some r ∧ answers i a r
  /-- Values, errors and times of a reply are as many. -/
  even : ∀ r ∈ c.replies, r.errors.length = r.values.length ∧ r.times.length = r.values.length

namespace Queue

/-- What a collection of blocks brings back. -/
lemma collectBlocks_eq (d : Descriptor) (q : Queue Block) :
    q.collectBlocks d =
      (⟨q.finished, (repliesTo d q.items).1⟩, (repliesTo d q.items).2, { q with items := [] }) := by
  have hbatch : 0 < batchSize := by decide
  rw [collectBlocks, q.drain_eq batchSize hbatch]

/-- What a collection of captures brings back. -/
lemma collectCaptures_eq (signal : String) (q : Queue Capture) :
    q.collectCaptures signal =
      (⟨q.finished, q.items.map (.ofCapture signal)⟩, { q with items := [] }) := by
  have hbatch : 0 < batchSize := by decide
  rw [collectCaptures, q.drain_eq batchSize hbatch]

/-- A collection of blocks is complete. -/
lemma complete_collectBlocks (d : Descriptor) (q : Queue Block) :
    (q.collectBlocks d).1.Complete q (q.collectBlocks d).2.2 fun i b r =>
      r.AnswersBlock (d.update ((q.items.take (i + 1)).flatMap Block.tags)) b := by
  rw [collectBlocks_eq]
  refine ⟨rfl, rfl, length_repliesTo d q.items, ?_, ?_⟩
  · intro i b hb
    refine ⟨_, ?_, Reply.answersBlock _ b⟩
    rw [getElem?_repliesTo, hb, Option.map_some]
  · intro r hr
    obtain ⟨i, hi⟩ := List.mem_iff_getElem?.mp hr
    rw [getElem?_repliesTo, Option.map_eq_some_iff] at hi
    obtain ⟨b, -, rfl⟩ := hi
    exact ⟨List.length_replicate, List.length_replicate⟩

/-- A collection of captures is complete. -/
lemma complete_collectCaptures (signal : String) (q : Queue Capture) :
    (q.collectCaptures signal).1.Complete q (q.collectCaptures signal).2
      fun _ c r => r.AnswersCapture signal c := by
  rw [collectCaptures_eq]
  refine ⟨rfl, rfl, List.length_map _, ?_, ?_⟩
  · intro i c hc
    refine ⟨_, ?_, Reply.answersCapture signal c⟩
    rw [List.getElem?_map, hc, Option.map_some]
  · intro r hr
    obtain ⟨c, -, rfl⟩ := List.mem_map.mp hr
    exact ⟨Reply.length_fit c.values c.errors, List.length_replicate⟩

/-- **Collections are complete**, and the loops of all batch sizes come to them.

Nobody publishes while a queue of blocks, or of captures that were requested for `signal`, is
emptied. However large the batches are and however their items are passed on, the loop ends with the
first turn that finds nothing, and it leaves behind what the collection does: the queue is empty,
and there is one reply to each item, in order. The reply to a block starts from what the tags of all
blocks up to it have reported. -/
theorem collection_exact (d : Descriptor) (signal : String) (blocks : Queue Block)
    (captures : Queue Capture) :
    let s := blocks.collectBlocks d
    let c := captures.collectCaptures signal
    (∀ (callback : Callback) (batch turns : Nat), 0 < batch →
      (blocks.loop? callback Emission.block batch (turns + 1) { reported := d } =
          if blocks.pending ≤ turns * batch then
            some ({ reported := s.2.1, replies := s.1.replies }, s.2.2)
          else none) ∧
        captures.loop? callback (emitCapture signal) batch (turns + 1) [] =
          if captures.pending ≤ turns * batch then some (c.1.replies, c.2) else none) ∧
      s.2.1 = d.update (blocks.items.flatMap Block.tags) ∧
      s.1.Complete blocks s.2.2 (fun i b r =>
        r.AnswersBlock (d.update ((blocks.items.take (i + 1)).flatMap Block.tags)) b) ∧
      c.1.Complete captures c.2 fun _ x r => r.AnswersCapture signal x := by
  intro s c
  have hs : s = _ := collectBlocks_eq d blocks
  have hc : c = _ := collectCaptures_eq signal captures
  refine ⟨?_, ?_, complete_collectBlocks d blocks, complete_collectCaptures signal captures⟩
  · intro callback batch turns hbatch
    rw [loop?_succ callback _ hbatch, loop?_succ callback _ hbatch, Emission.foldl_block,
      foldl_emitCapture, List.nil_append, List.nil_append, hs, hc]
    exact ⟨rfl, rfl⟩
  · rw [hs]
    exact snd_repliesTo d blocks.items

/-- Two full batches of blocks take three turns, not two. Of two captures, which are passed on one
batch of one item at a time, the first has one error too few, no event and no signal, and the second
has an event. -/
theorem collection_exact_sample :
    let blocks : Queue Block := { capacity := 128, items := List.replicate 128 ⟨[.one], []⟩ }
    let tag : Tag := .ofList 0 [(Tag.triggerName, .text "T")]
    let captures : Queue Capture := {
      capacity := 2
      items := [⟨[], [.one, .one], [.one], []⟩, ⟨[⟨"B", "V", .zero, .one⟩], [], [], [⟨0, tag⟩]⟩]
      finished := true }
    let c := captures.collectCaptures "A"
    blocks.loop? .perItem Emission.block 64 2 { reported := .unknown "B" } = none ∧
      (blocks.loop? .perItem Emission.block 64 3 { reported := .unknown "B" }).isSome = true ∧
      captures.loop? .perBatch (emitCapture "A") 1 3 [] = some (c.1.replies, c.2) ∧
      c.1.finished = true ∧
      (∃ r, c.1.replies[0]? = some r ∧ r.trigger = "" ∧ r.channel = "A" ∧ r.unit = "N/A" ∧
        r.errors[0]? = some .one ∧ r.errors[1]? = some .zero) ∧
      ∃ r, c.1.replies[1]? = some r ∧ r.trigger = "T" ∧ r.channel = "B" ∧ r.unit = "V" := by
  intro blocks tag captures c
  obtain ⟨hloops, -, -, hcaptures⟩ := collection_exact (.unknown "B") "A" blocks captures
  have hblocks : blocks.pending = 128 := List.length_replicate
  obtain ⟨r, hr, hfirst⟩ := hcaptures.replies 0 ⟨[], [.one, .one], [.one], []⟩ rfl
  obtain ⟨hchannel, hunit, -, -⟩ := hfirst.undescribed rfl
  obtain ⟨r', hr', hsecond⟩ :=
    hcaptures.replies 1 ⟨[⟨"B", "V", .zero, .one⟩], [], [], [⟨0, tag⟩]⟩ rfl
  obtain ⟨hchannel', hunit', -, -⟩ := hsecond.described _ _ rfl
  have htrigger : tag.trigger? = some "T" := by decide +kernel
  refine ⟨?_, ?_, (hloops .perBatch 1 2 Nat.one_pos).2, hcaptures.finished,
    ⟨r, hr, hfirst.unnamed (by simp), hchannel, hunit, hfirst.errors 0 (by simp),
      hfirst.errors 1 (by simp)⟩,
    r', hr', hsecond.named _ _ _ rfl htrigger, hchannel', hunit'⟩
  · rw [(hloops .perItem 64 1 (by decide)).1, hblocks]
    rfl
  · rw [(hloops .perItem 64 2 (by decide)).1, hblocks]
    rfl

end Queue

end Daq
