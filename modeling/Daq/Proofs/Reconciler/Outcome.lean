import Daq.Proofs.Reconciler.Course
import Daq.Proofs.Reconciler.Emissions

set_option autoImplicit false

/-!
# What a pass depends on

The same keys can be asked for in many ways: in another order, more than once, spread over several
channel lists, between topics of other services and topics that cannot be read. As long as no
producer acts during a pass, it makes no difference. What a pass leaves behind is described here
key by key, and the description mentions the topics only through the set of keys that they ask for.

## Main definitions

* `Daq.Reconciler.Quiet` — a pass during which no producer ends, with requests that are answered by
  a verdict on keys.
* `Daq.Reconciler.settled`, `Daq.Reconciler.hasEnded` — how a key is described, and whether its
  producer has ended, when it was visited.
* `Daq.Pass.rest?` — what is left of a key: description, queue and flag.

## Main results

* `Daq.Pass.Outlined.visit` — one stop of the walk, key by key.
* `Daq.Reconciler.rest?_pass`, `Daq.Reconciler.finished_pass` — what a pass leaves and says.
* `Daq.Reconciler.emissions_perm` — what a pass hands out is the same up to the order of keys.
* `Daq.Reconciler.quiet_serve` — the directory answers by a verdict on keys.
* `Daq.Course.pass_determined` — two passes that are asked for the same keys.
-/

namespace Daq

/-! ### Verdicts -/

/-- A request for a key is answered by the verdict: the cause of a refusal, or whether the producer
of the new poller has ended. No other producer ends. -/
structure Pass.QuietAt (p : Pass) (grant : Grant) (verdict : PollerKey → Except AcqError Bool)
    (k : PollerKey) : Prop where
  /-- The answer to the request. -/
  answer : (grant p.hub k).map (fun x => x.2.finished x.1) = verdict k
  /-- The producers of the other pollers. -/
  others : ∀ q h', grant p.hub k = .ok (q, h') → ∀ j e, p.reconciler.held? j = some e →
    h'.finished e.poller = p.hub.finished e.poller

/-- A verdict on a key says whether the request for it is refused. -/
lemma Pass.QuietAt.refusal {p : Pass} {grant : Grant} {verdict : PollerKey → Except AcqError Bool}
    {k : PollerKey} (hq : p.QuietAt grant verdict k) :
    refusal? (grant p.hub k) = refusal? (verdict k) := by
  rw [← hq.answer]
  cases grant p.hub k <;> rfl

namespace Reconciler

/-- During a pass no producer ends, and all requests that it makes are answered by a verdict on
keys. -/
def Quiet (r : Reconciler) (grant : Grant) (flush : Bool) (h : Hub) (topics : List Topic)
    (verdict : PollerKey → Except AcqError Bool) : Prop :=
  ∀ before v after, visits r.service topics = before ++ v :: after →
    let p := before.foldl (Pass.visit grant flush) (r.begin h topics)
    flush = false → p.reconciler.contains v.key = false → p.QuietAt grant verdict v.key

/-- A verdict on keys says which requests are refused. -/
lemma Quiet.answersAs {r : Reconciler} {grant : Grant} {flush : Bool} {h : Hub}
    {topics : List Topic} {verdict : PollerKey → Except AcqError Bool}
    (hq : r.Quiet grant flush h topics verdict) :
    r.AnswersAs grant flush h topics fun k => refusal? (verdict k) := by
  intro before v after hsplit p hflush hcontains
  exact (hq before v after hsplit hflush hcontains).refusal

/-- How a key is described once everything that waits at its poller was answered. -/
def settled (r : Reconciler) (h : Hub) (k : PollerKey) : Descriptor :=
  match r.held? k with
  | some e => (answers e.reported (h.items e.poller)).2
  | none => .unknown k.signal

/-- Whether the producer of a key has ended; a key that gets no poller counts as ended. -/
def hasEnded (r : Reconciler) (h : Hub) (flush : Bool) (verdict : PollerKey → Except AcqError Bool)
    (k : PollerKey) : Bool :=
  match r.held? k with
  | some e => h.finished e.poller
  | none => flush || (verdict k).toOption.getD true

/-- How a key is described in the end is the second half of the outcome. -/
lemma settled_eq (r : Reconciler) (h : Hub) (k : PollerKey) :
    r.settled h k = (r.outcome h k).2 := by
  unfold settled outcome
  cases r.held? k <;> rfl

end Reconciler

/-! ### The walk, key by key -/

namespace Pass

section Settled

variable {p : Pass} (hs : p.reconciler.Sound p.hub)

include hs

/-- Opening a poller changes nothing about how keys are described. -/
lemma settled_ensure {grant : Grant} (hg : grant.Lawful) (flush : Bool) (k j : PollerKey) :
    (p.ensure grant flush k).reconciler.settled (p.ensure grant flush k).hub j =
      p.reconciler.settled p.hub j := by
  rw [Reconciler.settled_eq, outcome_ensure hs hg, ← Reconciler.settled_eq]

/-- A visit answers what waits at its key, so the key is described as before. -/
lemma settled_serve (v : Visit) (j : PollerKey) :
    (p.serve v).reconciler.settled (p.serve v).hub j = p.reconciler.settled p.hub j := by
  rw [Reconciler.settled_eq, outcome_serve hs, Reconciler.settled_eq]

end Settled

/-- The state of a walk that began with the tables of `r` at the hub `h` and has visited the keys of
`seen`, key by key. -/
structure Outlined (r : Reconciler) (h : Hub) (flush : Bool)
    (verdict : PollerKey → Except AcqError Bool) (seen : List PollerKey) (p : Pass) : Prop where
  /-- What will be known about a key is known from the start. -/
  described : ∀ k, p.reconciler.settled p.hub k = r.settled h k
  /-- The queues of visited pollers are empty. -/
  emptied : ∀ k e, p.reconciler.held? k = some e → e.inUse = true → p.hub.items e.poller = []
  /-- Whether a producer has ended is known from the start. -/
  ended : ∀ k e, p.reconciler.held? k = some e →
    p.hub.finished e.poller = r.hasEnded h flush verdict k
  /-- The walk tells whether all producers of visited keys have ended. -/
  finished : p.finished = seen.all (r.hasEnded h flush verdict)

section Outlined

variable {r : Reconciler} {h : Hub} {flush : Bool} {verdict : PollerKey → Except AcqError Bool}
  {opened seen : List PollerKey} {p : Pass}

/-- Before the walk no poller was visited. -/
lemma outlined_begin (r : Reconciler) (h : Hub) (topics : List Topic) (flush : Bool)
    (verdict : PollerKey → Except AcqError Bool) :
    Outlined r h flush verdict [] (r.begin h topics) := by
  refine ⟨?_, ?_, ?_, rfl⟩
  · intro k
    rw [Reconciler.settled_eq, Reconciler.outcome_begin, ← Reconciler.settled_eq]
  · intro k e he huse
    rw [Reconciler.held?_begin] at he
    obtain ⟨e₀, -, rfl⟩ := Option.map_eq_some_iff.mp he
    cases huse
  · intro k e he
    rw [Reconciler.held?_begin] at he
    obtain ⟨e₀, he₀, rfl⟩ := Option.map_eq_some_iff.mp he
    simp only [Reconciler.hasEnded, he₀]
    rfl

/-- Opening the poller of the next key, if it needs one and gets one. -/
lemma Outlined.ensure (o : Outlined r h flush verdict seen p)
    (w : Walked r flush (fun k => refusal? (verdict k)) seen seen p) {grant : Grant}
    (hg : grant.Lawful) {k : PollerKey}
    (hq : flush = false → p.reconciler.contains k = false → p.QuietAt grant verdict k) :
    Outlined r h flush verdict seen (p.ensure grant flush k) := by
  have hsettled := settled_ensure w.sound hg flush k
  obtain ⟨-, heq⟩ | ⟨-, -, e, -, heq⟩ | ⟨hcon, hfl, q, h', hok, heq⟩ := p.ensure_cases grant flush k
  · rwa [heq]
  · rw [heq]
    exact ⟨o.described, o.emptied, o.ended, o.finished⟩
  · rw [heq] at hsettled ⊢
    obtain ⟨hanswer, hothers⟩ := hq hfl hcon
    rw [hok] at hanswer
    obtain ⟨-, -, -, hitems⟩ := hg p.hub h' k q w.sound.wellFormed hok
    refine ⟨fun j => (hsettled j).trans (o.described j), ?_, ?_, o.finished⟩
    · intro j e he huse
      dsimp only at he ⊢
      rw [Reconciler.held?_enter] at he
      split at he
      · cases he
        cases huse
      · rw [hitems]
        exact o.emptied j e he huse
    · intro j e he
      dsimp only at he ⊢
      rw [Reconciler.held?_enter] at he
      split at he
      · rename_i hjk
        cases he
        -- The key had no poller before, so the verdict on it counts.
        have hnone : r.held? k = none := by
          rw [← Option.not_isSome_iff_eq_none]
          exact fun hold => w.not_held hcon (.inl hold)
        rw [hjk, Reconciler.hasEnded, hnone, ← hanswer, hfl]
        rfl
      · rw [hothers q h' hok j e he]
        exact o.ended j e he

/-- A key without a poller after its request counts as ended. -/
lemma hasEnded_of_not_held (w : Walked r flush (fun k => refusal? (verdict k)) opened seen p)
    {k : PollerKey} (hk : k ∈ opened) (hnone : p.reconciler.held? k = none) :
    r.hasEnded h flush verdict k = true := by
  have hheld := w.held k
  rw [hnone] at hheld
  unfold Reconciler.hasEnded
  cases hr : r.held? k with
  | some e => simp [hr] at hheld
  | none =>
    cases hflush : flush with
    | true => rfl
    | false =>
      cases hv : verdict k with
      | error e => rfl
      | ok ended => simp [hflush, hk, hv, refusal?] at hheld

/-- Visiting a key that was requested. -/
lemma Outlined.serve (o : Outlined r h flush verdict seen p)
    (w : Walked r flush (fun k => refusal? (verdict k)) opened seen p) (v : Visit)
    (hv : v.key ∈ opened) : Outlined r h flush verdict (seen ++ [v.key]) (p.serve v) := by
  have hsettled := settled_serve w.sound v
  have hall : (seen ++ [v.key]).all (r.hasEnded h flush verdict) =
      (p.finished && r.hasEnded h flush verdict v.key) := by
    simp [o.finished]
  cases he : p.reconciler.held? v.key with
  | none =>
    rw [serve_eq_self he]
    refine ⟨o.described, o.emptied, o.ended, ?_⟩
    rw [hall, hasEnded_of_not_held w hv he, Bool.and_true]
  | some e =>
    have hheld := held?_serve w.sound he
    rw [serve_eq w.sound he] at hsettled hheld ⊢
    dsimp only at hsettled hheld ⊢
    refine ⟨fun j => (hsettled j).trans (o.described j), ?_, ?_, ?_⟩
    · intro j f hj huse
      rw [hheld] at hj
      split at hj
      · cases hj
        exact p.hub.items_emptied e.poller
      · rename_i hjk
        rw [(p.hub.consumed_emptied e.poller).others f.poller]
        · exact o.emptied j f hj huse
        · exact fun hpol => hjk (w.sound.distinct j v.key f e hj he hpol)
    · intro j f hj
      rw [hheld] at hj
      rw [Hub.finished_emptied]
      split at hj
      · rename_i hjk
        cases hj
        rw [hjk]
        exact o.ended v.key e he
      · exact o.ended j f hj
    · rw [hall, o.ended v.key e he]

/-- **One stop of the walk, key by key.** -/
theorem Outlined.visit (o : Outlined r h flush verdict seen p) (hf : r.Filed)
    (w : Walked r flush (fun k => refusal? (verdict k)) seen seen p) {grant : Grant}
    (hg : grant.Lawful) {v : Visit}
    (hq : flush = false → p.reconciler.contains v.key = false → p.QuietAt grant verdict v.key) :
    Outlined r h flush verdict (seen ++ [v.key]) (p.visit grant flush v) := by
  have hopen : Walked r flush (fun k => refusal? (verdict k)) (seen ++ [v.key]) seen
      (p.ensure grant flush v.key) := w.ensure hf hg fun hfl hcon => (hq hfl hcon).refusal
  exact (o.ensure w hg hq).serve hopen v (by simp)

end Outlined

/-- The walk as a whole, key by key.

**Proof sketch.** Induction on the stops that are left, as for the keys of the walk: the stops that
were made are remembered, for the verdict is on requests in the state that they lead to. -/
lemma outlined_foldl {r : Reconciler} {h : Hub} (hs : r.Sound h) {topics : List Topic} {flush : Bool}
    {grant : Grant} (hg : grant.Lawful) {verdict : PollerKey → Except AcqError Bool}
    (hq : r.Quiet grant flush h topics verdict) :
    ∀ (left made : List Visit), visits r.service topics = made ++ left →
      Walked r flush (fun k => refusal? (verdict k)) (made.map fun v => v.key)
        (made.map fun v => v.key) (made.foldl (Pass.visit grant flush) (r.begin h topics)) →
      Outlined r h flush verdict (made.map fun v => v.key)
        (made.foldl (Pass.visit grant flush) (r.begin h topics)) →
      Outlined r h flush verdict (requested r.service topics)
        ((visits r.service topics).foldl (Pass.visit grant flush) (r.begin h topics)) := by
  intro left
  induction left with
  | nil =>
    intro made hsplit _ ho
    rw [List.append_nil] at hsplit
    rw [← map_key_visits, hsplit]
    exact ho
  | cons v left ih =>
    intro made hsplit hw ho
    have hwalked := hw.visit hs.filed hg (hq.answersAs made v left hsplit)
    have houtlined := ho.visit hs.filed hw hg (hq made v left hsplit)
    apply ih (made ++ [v]) (by rw [hsplit]; simp) <;> rw [List.foldl_append, List.map_append]
    · exact hwalked
    · exact houtlined

/-- What is left of a key: its description, its queue and its flag. -/
def rest? (p : Pass) (k : PollerKey) : Option (Descriptor × List Item × Bool) :=
  (p.reconciler.held? k).map fun e =>
    (e.reported, p.hub.items e.poller, p.hub.finished e.poller)

end Pass

/-! ### The pass -/

namespace Reconciler

section Exact

variable {r : Reconciler} {h : Hub} (hs : r.Sound h) {grant : Grant} (hg : grant.Lawful)
  {flush : Bool} {topics : List Topic} {verdict : PollerKey → Except AcqError Bool}
  (hq : r.Quiet grant flush h topics verdict)

include hs hg hq

/-- What the walk of a pass leads to, key by key. -/
lemma outlined_pass :
    Pass.Outlined r h flush verdict (requested r.service topics)
      ((visits r.service topics).foldl (Pass.visit grant flush) (r.begin h topics)) :=
  Pass.outlined_foldl hs hg hq (visits r.service topics) [] rfl
    (Pass.walked_begin hs topics flush _) (Pass.outlined_begin r h topics flush verdict)

/-- **What a pass says**: whether the producers of all requested keys have ended. -/
theorem finished_pass :
    (r.pass grant flush h topics).finished =
      (requested r.service topics).all (r.hasEnded h flush verdict) :=
  (outlined_pass hs hg hq).finished

/-- **What a pass leaves of a key**: its queue is empty, and its description and the flag of its
producer were settled before the pass. -/
theorem rest?_pass (k : PollerKey) :
    (r.pass grant flush h topics).rest? k =
      if k ∈ (r.pass grant flush h topics).reconciler.keySet then
        some (r.settled h k, [], r.hasEnded h flush verdict k)
      else none := by
  have ho := outlined_pass hs hg hq
  obtain ⟨hreconciler, hhub⟩ := r.pass_eq grant flush h topics
  simp only [mem_keySet (hs.pass hg flush topics).filed]
  unfold Pass.rest?
  rw [hhub, hreconciler]
  generalize (visits r.service topics).foldl (Pass.visit grant flush) (r.begin h topics) = p at ho
  cases he : (p.reconciler.evict p.hub).1.held? k with
  | none => rfl
  | some e =>
    rw [held?_evict, Option.filter_eq_some_iff] at he
    obtain ⟨hheld, huse⟩ := he
    have hitems := ho.emptied k e hheld huse
    have hreported : e.reported = r.settled h k := by
      rw [← ho.described k, settled, hheld]
      dsimp only
      rw [hitems]
      rfl
    have hfinished := ho.ended k e hheld
    simp only [Option.map_some, Option.isSome_some, if_true, evict, Hub.items_releaseAll,
      Hub.finished_releaseAll, hitems, hreported, hfinished]

end Exact

/-! ### The same keys -/

/-- Items with keys are the same up to the order of keys if they are the same for each key. -/
lemma perm_of_filter_key {α : Type} [DecidableEq α] {xs ys : List (PollerKey × α)}
    (h : ∀ k, (xs.filter fun e => e.1 = k).map (fun e => e.2) =
      (ys.filter fun e => e.1 = k).map fun e => e.2) : xs.Perm ys := by
  have hcount : ∀ (zs : List (PollerKey × α)) (k : PollerKey) (a : α),
      zs.count (k, a) = ((zs.filter fun e => e.1 = k).map fun e => e.2).count a := by
    intro zs k a
    induction zs with
    | nil => rfl
    | cons z zs ih =>
      obtain ⟨j, b⟩ := z
      by_cases hjk : j = k
      · subst hjk
        simp [List.count_cons, ih]
      · simp [ih, hjk]
  rw [List.perm_iff_count]
  rintro ⟨k, a⟩
  rw [hcount, hcount, h k]

/-- **What a pass hands out is the same up to the order of keys** if it is asked for the same
keys. -/
theorem emissions_perm {r : Reconciler} {h : Hub} (hs : r.Sound h) {grant : Grant}
    (hg : grant.Lawful) (flush : Bool) {topics topics' : List Topic}
    (hkeys : ∀ k, k ∈ requested r.service topics ↔ k ∈ requested r.service topics') :
    (r.emissions grant flush h topics).Perm (r.emissions grant flush h topics') := by
  refine perm_of_filter_key fun k => ?_
  rw [emissions_of_key hs hg, emissions_of_key hs hg]
  simp only [hkeys k]

section Determined

variable {r : Reconciler} {h : Hub} (hs : r.Sound h) {grant : Grant} (hg : grant.Lawful)
  {flush : Bool} {topics topics' : List Topic} {verdict : PollerKey → Except AcqError Bool}
  (hkeys : ∀ k, k ∈ requested r.service topics ↔ k ∈ requested r.service topics')
  (hq : r.Quiet grant flush h topics verdict) (hq' : r.Quiet grant flush h topics' verdict)

include hs hg hkeys hq hq'

/-- Two passes that are asked for the same keys leave the same keys. -/
lemma keySet_determined :
    (r.pass grant flush h topics).reconciler.keySet =
      (r.pass grant flush h topics').reconciler.keySet := by
  ext k
  rw [mem_keySet_pass hs hg hq.answersAs, mem_keySet_pass hs hg hq'.answersAs, hkeys k]

/-- Two passes that are asked for the same keys leave the same of each key. -/
lemma rest?_determined (k : PollerKey) :
    (r.pass grant flush h topics).rest? k = (r.pass grant flush h topics').rest? k := by
  rw [rest?_pass hs hg hq, rest?_pass hs hg hq', keySet_determined hs hg hkeys hq hq']

/-- Two passes that are asked for the same keys say the same. -/
lemma finished_determined :
    (r.pass grant flush h topics).finished = (r.pass grant flush h topics').finished := by
  rw [finished_pass hs hg hq, finished_pass hs hg hq', Bool.eq_iff_iff, List.all_eq_true,
    List.all_eq_true]
  simp only [hkeys]

/-- Two passes that are asked for the same keys open and evict as many pollers. -/
lemma counters_determined :
    (r.pass grant flush h topics).reconciler.counters.pollersCreated =
        (r.pass grant flush h topics').reconciler.counters.pollersCreated ∧
      (r.pass grant flush h topics).reconciler.counters.pollersEvicted =
        (r.pass grant flush h topics').reconciler.counters.pollersEvicted := by
  have hsame : (requested r.service topics).toFinset = (requested r.service topics').toFinset := by
    ext k
    rw [List.mem_toFinset, List.mem_toFinset, hkeys k]
  refine ⟨?_, ?_⟩
  · rw [created_pass hs hg hq.answersAs, created_pass hs hg hq'.answersAs,
      keySet_determined hs hg hkeys hq hq']
  · rw [evicted_pass hs hg hq.answersAs, evicted_pass hs hg hq'.answersAs, hsame]

end Determined

end Reconciler

/-! ### The tables -/

namespace Pass

variable {p : Pass} (hf : p.reconciler.Filed) (k : PollerKey)

include hf

/-- What is left of a stream is found under its key. -/
lemma get?_streams_rest :
    (p.reconciler.streams.map fun e =>
        (e.reported, p.hub.items e.poller, p.hub.finished e.poller)).get? k =
      if k.mode.isDataset then none else p.rest? k := by
  have hviews := Reconciler.get?_streams hf k
  have hrest : (p.reconciler.streams.get? k).map (fun e =>
        (e.reported, p.hub.items e.poller, p.hub.finished e.poller)) =
      ((p.reconciler.streams.get? k).map StreamEntry.view).map fun e =>
        (e.reported, p.hub.items e.poller, p.hub.finished e.poller) := by
    rw [Option.map_map]
    rfl
  rw [Table.get?_map, hrest, hviews]
  split <;> rfl

/-- What is left of a key for captures is found under the key. -/
lemma get?_captures_rest :
    (p.reconciler.captures.map fun e =>
        (e.signal, p.hub.items e.poller, p.hub.finished e.poller)).get? k =
      if k.mode.isDataset then (p.rest? k).map fun x => (x.1.name, x.2) else none := by
  have hviews := Reconciler.get?_captures hf k
  have hrest : (p.reconciler.captures.get? k).map (fun e =>
        (e.signal, p.hub.items e.poller, p.hub.finished e.poller)) =
      ((p.reconciler.captures.get? k).map CaptureEntry.view).map fun e =>
        (e.reported.name, p.hub.items e.poller, p.hub.finished e.poller) := by
    rw [Option.map_map]
    rfl
  rw [Table.get?_map, hrest, hviews]
  split
  · rw [rest?, Option.map_map]
    rfl
  · rfl

end Pass

/-! ### The directory -/

namespace Hub

/-- Among hubs that offer the same signals at sinks that have stopped or not, the directory answers
alike. -/
lemma verdict_serve {h h' : Hub} (hw : h.WellFormed) (hw' : h'.WellFormed) (ho : h.SameOffers h')
    (hstopped : h'.sinks.map (fun s => s.stopped) = h.sinks.map fun s => s.stopped) (k : PollerKey) :
    (h'.serve k).map (fun x => x.2.finished x.1) = (h.serve k).map fun x => x.2.finished x.1 := by
  have hrefusal := refusal?_serve ho k
  cases hok : h.serve k with
  | error e =>
    cases hok' : h'.serve k with
    | error e' =>
      rw [hok, hok'] at hrefusal
      rw [Option.some.inj hrefusal]
    | ok x => simp [hok, hok', refusal?] at hrefusal
  | ok x =>
    cases hok' : h'.serve k with
    | error e => simp [hok, hok', refusal?] at hrefusal
    | ok x' =>
      obtain ⟨-, -, hlookup, -⟩ := serve_eq_ok hok
      obtain ⟨-, -, hlookup', -⟩ := serve_eq_ok hok'
      have hsink : x'.1.sink = x.1.sink := by
        rw [lookup?, ho.directory] at hlookup'
        rw [lookup?, hlookup', Option.some.injEq] at hlookup
        exact hlookup
      have hflag := (finished_serve hw hok).1
      have hflag' := (finished_serve hw' hok').1
      rw [hsink, ← List.getElem?_map, hstopped, List.getElem?_map, hflag, Option.some.injEq]
        at hflag'
      rw [Except.map, Except.map, hflag']

end Hub

namespace Reconciler

/-- A walk through the directory stops no sink. -/
lemma stopped_walk (flush : Bool) (vs : List Visit) {p : Pass} (hs : p.reconciler.Sound p.hub) :
    (vs.foldl (Pass.visit Hub.serve flush) p).hub.sinks.map (fun s => s.stopped) =
      p.hub.sinks.map fun s => s.stopped := by
  refine related_walk (fun h h' => h'.sinks.map (fun s => s.stopped) =
    h.sinks.map fun s => s.stopped) (fun _ => rfl) ?_ Hub.lawful_serve ?_ ?_ flush vs hs
  · exact fun o o' => o'.trans o
  · intro h k q h' hok
    obtain ⟨s, s', -, hs, hat, rfl⟩ := Hub.serve_eq_ok hok
    refine h.map_sinks_modify _ _ _ fun u hu => ?_
    rw [hs] at hu
    cases hu
    exact (Sink.attach_eq_ok hat).2.2.1
  · exact fun h q => h.map_sinks_modify _ _ _ fun _ _ => rfl

/-- **The directory answers by a verdict on keys**, and no producer ends by a request. -/
theorem quiet_serve {r : Reconciler} {h : Hub} (hs : r.Sound h) (flush : Bool)
    (topics : List Topic) :
    r.Quiet Hub.serve flush h topics fun k => (h.serve k).map fun x => x.2.finished x.1 := by
  intro before v after _ p _ _
  have hbegin := hs.begin topics
  have hsound : p.reconciler.Sound p.hub := hbegin.walk Hub.lawful_serve flush before
  refine ⟨?_, ?_⟩
  · exact Hub.verdict_serve hs.wellFormed hsound.wellFormed
      (sameOffers_walk flush before hbegin) (stopped_walk flush before hbegin) v.key
  · intro q h' hok j e he
    apply (Hub.finished_serve hsound.wellFormed hok).2 e.poller
    rintro rfl
    obtain ⟨-, hnew, -⟩ := Hub.lawful_serve _ _ _ _ hsound.wellFormed hok
    exact hnew ((hsound.serves j e he).attached hsound.wellFormed)

end Reconciler

/-! ### Two passes in any course -/

namespace Course

/-- **A pass depends on the set of requested keys only**, at the end of any course. Two lists of
topics that ask for the same keys may differ in order and repetition, in how channels are spread over
channel lists, and in topics that are for other services or that cannot be read. If the requests of
both passes are answered by the same verdict on keys and no producer acts meanwhile, both passes
leave the same keys, with the same descriptions, queues and flags, they count the same numbers of
pollers, notifications and passes, they say the same, and they notify of the same replies, in the
same order for each key. -/
theorem pass_determined (service : String) (h : Hub) (hw : h.WellFormed) (turns : List Turn)
    (hl : ∀ t ∈ turns, t.Lawful) (grant : Grant) (hg : grant.Lawful) (flush : Bool)
    (topics topics' : List Topic)
    (hkeys : ∀ k, k ∈ requested service topics ↔ k ∈ requested service topics')
    (verdict : PollerKey → Except AcqError Bool)
    (hq : (run service h turns).reconciler.Quiet grant flush (run service h turns).hub topics
      verdict)
    (hq' : (run service h turns).reconciler.Quiet grant flush (run service h turns).hub topics'
      verdict) :
    let c := run service h turns
    let p := c.reconciler.pass grant flush c.hub topics
    let p' := c.reconciler.pass grant flush c.hub topics'
    p.reconciler.streams.keys = p'.reconciler.streams.keys ∧
    p.reconciler.captures.keys = p'.reconciler.captures.keys ∧
    p.reconciler.streams.map (fun e =>
        (e.reported, p.hub.items e.poller, p.hub.finished e.poller)) =
      p'.reconciler.streams.map (fun e =>
        (e.reported, p'.hub.items e.poller, p'.hub.finished e.poller)) ∧
    p.reconciler.captures.map (fun e =>
        (e.signal, p.hub.items e.poller, p.hub.finished e.poller)) =
      p'.reconciler.captures.map (fun e =>
        (e.signal, p'.hub.items e.poller, p'.hub.finished e.poller)) ∧
    p.reconciler.counters.pollersCreated = p'.reconciler.counters.pollersCreated ∧
    p.reconciler.counters.pollersEvicted = p'.reconciler.counters.pollersEvicted ∧
    p.reconciler.counters.notifications = p'.reconciler.counters.notifications ∧
    p.reconciler.counters.passes = p'.reconciler.counters.passes ∧
    p.finished = p'.finished ∧
    p.told.Perm p'.told ∧
    ∀ k, (p.notifications.filter fun n => n.key? = some k).map (fun n => n.reply) =
      (p'.notifications.filter fun n => n.key? = some k).map fun n => n.reply := by
  intro c p p'
  have hk := kept_run service hw hl
  have hs : c.reconciler.Sound c.hub := hk.sound
  have hservice : c.reconciler.service = service := hk.service_eq
  rw [← hservice] at hkeys
  have hfiled : p.reconciler.Filed := (hs.pass hg flush topics).filed
  have hfiled' : p'.reconciler.Filed := (hs.pass hg flush topics').filed
  have hrest := Reconciler.rest?_determined hs hg hkeys hq hq'
  have hstreams : p.reconciler.streams.map (fun e =>
        (e.reported, p.hub.items e.poller, p.hub.finished e.poller)) =
      p'.reconciler.streams.map fun e =>
        (e.reported, p'.hub.items e.poller, p'.hub.finished e.poller) := by
    refine Table.ext_get? fun k => ?_
    rw [Pass.get?_streams_rest hfiled, Pass.get?_streams_rest hfiled', hrest k]
  have hcaptures : p.reconciler.captures.map (fun e =>
        (e.signal, p.hub.items e.poller, p.hub.finished e.poller)) =
      p'.reconciler.captures.map fun e =>
        (e.signal, p'.hub.items e.poller, p'.hub.finished e.poller) := by
    refine Table.ext_get? fun k => ?_
    rw [Pass.get?_captures_rest hfiled, Pass.get?_captures_rest hfiled', hrest k]
  have hperm := Reconciler.emissions_perm hs hg flush hkeys
  obtain ⟨hcreated, hevicted⟩ := Reconciler.counters_determined hs hg hkeys hq hq'
  obtain ⟨hcount, hpasses⟩ := Reconciler.tally_pass hs hg flush topics
  obtain ⟨hcount', hpasses'⟩ := Reconciler.tally_pass hs hg flush topics'
  refine ⟨?_, ?_, hstreams, hcaptures, hcreated, hevicted, ?_, hpasses.trans hpasses'.symm,
    Reconciler.finished_determined hs hg hkeys hq hq', ?_, fun k => ?_⟩
  · rw [← Table.keys_map, hstreams, Table.keys_map]
  · rw [← Table.keys_map, hcaptures, Table.keys_map]
  · exact hcount.trans ((congrArg _ hperm.length_eq).trans hcount'.symm)
  · change (c.reconciler.pass grant flush c.hub topics).told.Perm
      (c.reconciler.pass grant flush c.hub topics').told
    rw [Reconciler.told_pass, Reconciler.told_pass]
    exact hperm.map _
  · have hone := Reconciler.notifications_of_key hs hg flush topics k
    have hother := Reconciler.notifications_of_key hs hg flush topics' k
    simp only [hkeys k] at hone
    exact hone.trans hother.symm

/-- A poller for `A` is opened, and a block arrives there. -/
def sampleArrival : List Turn := sampleTurns ++ [.act (.push 0 ⟨[.zero], []⟩)]

/-- Topics for three signals, and other topics that ask for the same: in another order, twice over,
and between topics that do not count. -/
def sampleForms : List Topic × List Topic :=
  ([sampleTopic "/daq" "A,C,B"],
    [sampleTopic "/other" "D", sampleTopic "/daq" "B,A,B", ⟨"/daq", Table.ofList [(Filter.preParam, "many")]⟩,
      sampleTopic "/daq" " C , A"])

/-- Both forms leave the pollers of two signals and notify of one reply. -/
theorem pass_determined_sample :
    let c := run "/daq" sampleHub sampleArrival
    let p := c.reconciler.pass Hub.serve false c.hub sampleForms.1
    let p' := c.reconciler.pass Hub.serve false c.hub sampleForms.2
    p.reconciler.streams.keys = p'.reconciler.streams.keys ∧
      p'.reconciler.streams.keys = [.continuous "A", .continuous "B"] ∧
      p'.reconciler.counters.notifications = 1 := by
  dsimp only
  have hlawful : ∀ t ∈ sampleArrival, t.Lawful := by
    intro t ht
    simp only [sampleArrival, sampleTurns, List.cons_append, List.nil_append, List.mem_cons,
      List.not_mem_nil, or_false] at ht
    rcases ht with rfl | rfl
    · exact Hub.lawful_serve
    · trivial
  have hw : sampleHub.WellFormed :=
    (Hub.evolves_performAll _ _).wellFormed (Hub.wellFormed_empty _)
  have hsound := (kept_run "/daq" hw hlawful).sound
  have hforms : (∀ k ∈ requested "/daq" sampleForms.1, k ∈ requested "/daq" sampleForms.2) ∧
      ∀ k ∈ requested "/daq" sampleForms.2, k ∈ requested "/daq" sampleForms.1 := by
    decide +kernel
  have hsame := pass_determined "/daq" sampleHub hw sampleArrival hlawful Hub.serve Hub.lawful_serve
    false sampleForms.1 sampleForms.2 (fun k => ⟨hforms.1 k, hforms.2 k⟩)
    (fun k => ((run "/daq" sampleHub sampleArrival).hub.serve k).map fun x => x.2.finished x.1)
    (Reconciler.quiet_serve hsound false sampleForms.1)
    (Reconciler.quiet_serve hsound false sampleForms.2)
  dsimp only at hsame
  obtain ⟨hkeys, -, -, -, -, -, hcount, -⟩ := hsame
  refine ⟨hkeys, ?_, ?_⟩
  · rw [← hkeys]
    decide +kernel
  · rw [← hcount]
    decide +kernel

end Course

end Daq
