import Daq.Proofs.Reconciler.Sound
import Mathlib.Data.Finset.SDiff
import Mathlib.Data.Finset.Card

set_option autoImplicit false

/-!
# What a pass makes of the tables

A pass marks and sweeps: it removes all marks, opens and marks the pollers that the topics ask for
one after the other, and lets go of those without a mark. The keys it leaves are exactly the
requested ones that were there before or were granted; the counters say how many came and went, and
why requests were refused.

## Main definitions

* `Daq.requested` — the keys that topics ask for, in the order of the walk.
* `Daq.Cause`, `Daq.AcqError.cause` — the three counters of refused requests.
* `Daq.Reconciler.AnswersAs` — the requests of a pass are answered by a verdict on keys.
* `Daq.Reconciler.refusals` — the requests that are refused in a pass.

## Main results

* `Daq.Pass.Walked.visit` — what one stop of the walk keeps.
* `Daq.Reconciler.mem_keySet_pass` — the keys after a pass.
* `Daq.Reconciler.created_pass`, `Daq.Reconciler.evicted_pass`, `Daq.Reconciler.refused_pass` — the
  counters after a pass.
* `Daq.Reconciler.balance_pass` — every poller ever opened is there or was let go of.
-/

namespace Daq

/-! ### Requests -/

/-- The keys that the topics of a service ask for, in the order of the walk and with repetitions.
A topic whose parameters make no filter asks for none. -/
def requested (service : String) (topics : List Topic) : List PollerKey :=
  (topics.filter fun t => t.path == service).flatMap fun t =>
    match Filter.ofParams t.params with
    | .ok f => f.channelNames.map f.key
    | .error _ => []

/-- The walk visits the requested keys. -/
lemma map_key_visits (service : String) (topics : List Topic) :
    (visits service topics).map (fun v => v.key) = requested service topics := by
  unfold visits requested topicsOf
  rw [List.map_flatMap]
  congr 1
  funext t
  unfold Topic.visits
  cases Filter.ofParams t.params with
  | ok f => simp [Filter.visits, List.map_map, Function.comp_def]
  | error e => rfl

/-- The counter that a refused request goes to. -/
inductive Cause where
  /-- The signal is not registered. -/
  | unknown
  /-- The parameters were refused. -/
  | rejected
  /-- Anything else. -/
  | failed
  deriving DecidableEq

/-- The counter that an error goes to. -/
def AcqError.cause : AcqError → Cause
  | .unknownSignal _ => .unknown
  | e => if e.isRecoverable then .rejected else .failed

/-- The number of requests refused for a cause. -/
def Counters.refused (c : Counters) : Cause → Nat
  | .unknown => c.unknownSignals
  | .rejected => c.rejectedRequests
  | .failed => c.failedRequests

/-- A refused request adds one to the counter of its cause and to no other. -/
lemma Counters.refused_refuse (c : Counters) (e : AcqError) (cause : Cause) :
    (c.refuse e).refused cause = c.refused cause + if e.cause = cause then 1 else 0 := by
  cases e <;> cases cause <;> simp [Counters.refuse, Counters.refused, AcqError.cause] <;> split <;>
    simp_all

/-- A refused request leaves the counters of pollers, topics and passes alone. -/
lemma Counters.refuse_frame (c : Counters) (e : AcqError) :
    (c.refuse e).pollersCreated = c.pollersCreated ∧
      (c.refuse e).pollersEvicted = c.pollersEvicted ∧
      (c.refuse e).skippedSubscriptions = c.skippedSubscriptions ∧
      (c.refuse e).passes = c.passes := by
  cases e <;> simp [Counters.refuse] <;> split <;> simp

/-- Why a request was refused. -/
def refusal? {α : Type} : Except AcqError α → Option AcqError
  | .ok _ => none
  | .error e => some e

namespace Reconciler

/-- The requests that a pass makes are answered by a verdict on keys: none stands for a poller. A
request is made when the walk comes to a key that has no poller, unless the pass flushes. -/
def AnswersAs (r : Reconciler) (grant : Grant) (flush : Bool) (h : Hub) (topics : List Topic)
    (verdict : PollerKey → Option AcqError) : Prop :=
  ∀ before v after, visits r.service topics = before ++ v :: after →
    let p := before.foldl (Pass.visit grant flush) (r.begin h topics)
    flush = false → p.reconciler.contains v.key = false →
      refusal? (grant p.hub v.key) = verdict v.key

/-- The refusals in a walk over keys: one for each time that a key without a poller is refused, and
none in a flush pass. -/
def refusals (r : Reconciler) (flush : Bool) (verdict : PollerKey → Option AcqError)
    (ks : List PollerKey) : List AcqError :=
  if flush then [] else ks.filterMap fun k => if k ∈ r.keySet then none else verdict k

/-- The refusals in two stretches of a walk. -/
lemma refusals_append (r : Reconciler) (flush : Bool) (verdict : PollerKey → Option AcqError)
    (ks js : List PollerKey) :
    r.refusals flush verdict (ks ++ js) = r.refusals flush verdict ks ++ r.refusals flush verdict js := by
  unfold refusals
  split
  · rfl
  · exact List.filterMap_append

/-! ### Pollers opened and let go of -/

/-- Pollers were opened and counted on the way, but none was let go of and no topic was skipped. -/
structure Opens (r r' : Reconciler) : Prop where
  /-- Every poller opened is there. -/
  created : r'.counters.pollersCreated + r.keys.length = r.counters.pollersCreated + r'.keys.length
  /-- Nothing was evicted. -/
  evicted : r'.counters.pollersEvicted = r.counters.pollersEvicted
  /-- No topic was skipped. -/
  skipped : r'.counters.skippedSubscriptions = r.counters.skippedSubscriptions

/-- Opening nothing. -/
lemma Opens.refl (r : Reconciler) : r.Opens r := ⟨rfl, rfl, rfl⟩

/-- Opening one after the other. -/
lemma Opens.trans {r r' r'' : Reconciler} (o : r.Opens r') (o' : r'.Opens r'') : r.Opens r'' := by
  refine ⟨?_, o'.evicted.trans o.evicted, o'.skipped.trans o.skipped⟩
  have h := o.created
  have h' := o'.created
  omega

/-- Tables with the same keys have the same number of them. -/
lemma length_keys_congr {r r' : Reconciler} (hf : r.Filed) (hf' : r'.Filed)
    (hk : ∀ k, (r'.held? k).isSome = (r.held? k).isSome) : r'.keys.length = r.keys.length := by
  rw [← card_keySet hf, ← card_keySet hf']
  congr 1
  ext k
  rw [mem_keySet hf, mem_keySet hf', hk]

/-- A new key is one more. -/
lemma length_keys_enter {r : Reconciler} (hf : r.Filed) {k : PollerKey} (hk : r.held? k = none)
    (p : PollerRef) : (r.enter k p).keys.length = r.keys.length + 1 := by
  have hnot : k ∉ r.keySet := by
    rw [mem_keySet hf, hk]
    simp
  rw [← card_keySet hf, ← card_keySet (hf.enter k p), ← Finset.card_insert_of_notMem hnot]
  congr 1
  ext j
  rw [mem_keySet (hf.enter k p), Finset.mem_insert, mem_keySet hf, held?_enter]
  by_cases hjk : j = k <;> simp [hjk]

end Reconciler

/-! ### The walk -/

namespace Pass

/-- A visit opens and lets go of nothing. -/
lemma keys_serve {p : Pass} (hs : p.reconciler.Sound p.hub) (v : Visit) (j : PollerKey) :
    ((p.serve v).reconciler.held? j).isSome = (p.reconciler.held? j).isSome := by
  cases he : p.reconciler.held? v.key with
  | none => rw [serve_eq_self he]
  | some e =>
    rw [held?_serve hs he]
    by_cases hj : j = v.key
    · rw [if_pos hj, hj, he]
      rfl
    · rw [if_neg hj]

/-- A visit counts notifications only. -/
lemma counters_serve {p : Pass} (hs : p.reconciler.Sound p.hub) (v : Visit) :
    ∃ n, (p.serve v).reconciler.counters = { p.reconciler.counters with notifications := n } := by
  cases he : p.reconciler.held? v.key with
  | none => exact ⟨_, by rw [serve_eq_self he]⟩
  | some e =>
    rw [serve_eq hs he]
    refine ⟨p.reconciler.counters.notifications +
      (answers e.reported (p.hub.items e.poller)).1.length, ?_⟩
    simp only [Reconciler.count]
    rw [(Reconciler.report_counters _ _ _).1, (Reconciler.mark_counters _ _).1]

/-- A request opens at most the poller that it counts. -/
lemma opens_ensure {p : Pass} (hs : p.reconciler.Sound p.hub) (grant : Grant) (flush : Bool)
    (k : PollerKey) : p.reconciler.Opens (p.ensure grant flush k).reconciler := by
  obtain ⟨-, heq⟩ | ⟨-, -, e, -, heq⟩ | ⟨hcon, -, q, h', -, heq⟩ := p.ensure_cases grant flush k
  · rw [heq]
    exact .refl _
  · rw [heq]
    obtain ⟨hcreated, hevicted, hskipped, -⟩ := p.reconciler.counters.refuse_frame e
    exact ⟨congrArg (· + p.reconciler.keys.length) hcreated, hevicted, hskipped⟩
  · rw [heq]
    have hnone := (p.reconciler.contains_eq_false_iff k).mp hcon
    have hcount := (p.reconciler.enter_counters k q).1
    refine ⟨?_, by rw [hcount], by rw [hcount]⟩
    rw [hcount, Reconciler.length_keys_enter hs.filed hnone]
    dsimp only
    omega

/-- A visit counts every poller that it opens. -/
lemma opens_visit {p : Pass} (hs : p.reconciler.Sound p.hub) {grant : Grant} (hg : grant.Lawful)
    (flush : Bool) (v : Visit) : p.reconciler.Opens (p.visit grant flush v).reconciler := by
  have hs' := hs.ensure hg flush v.key
  apply (opens_ensure hs grant flush v.key).trans
  obtain ⟨n, hn⟩ := counters_serve hs' v
  unfold visit
  refine ⟨?_, by rw [hn], by rw [hn]⟩
  rw [hn, Reconciler.length_keys_congr hs'.filed (hs'.serve v).filed (keys_serve hs' v)]

end Pass

namespace Pass

/-- The state of a walk that began with the tables and refusals of `r`, has requested the keys of
`opened` and has visited those of `seen`. -/
structure Walked (r : Reconciler) (flush : Bool) (verdict : PollerKey → Option AcqError)
    (opened seen : List PollerKey) (p : Pass) : Prop where
  /-- The reconciler is sound. -/
  sound : p.reconciler.Sound p.hub
  /-- A key has a poller if it had one before or was granted one on the way. -/
  held : ∀ k, (p.reconciler.held? k).isSome ↔
    (r.held? k).isSome ∨ (flush = false ∧ k ∈ opened ∧ verdict k = none)
  /-- Exactly the pollers of visited keys are marked. -/
  marked : ∀ k e, p.reconciler.held? k = some e → (e.inUse = true ↔ k ∈ seen)
  /-- Every refusal is counted. -/
  refused : ∀ cause, p.reconciler.counters.refused cause =
    r.counters.refused cause + (r.refusals flush verdict opened).countP fun e => e.cause = cause

section Walked

variable {r : Reconciler} {flush : Bool} {verdict : PollerKey → Option AcqError}
  {opened seen : List PollerKey} {p : Pass}

/-- A key that needs no request, or is not to be requested, adds no refusal. -/
lemma refusals_of_held (hf : r.Filed) {k : PollerKey}
    (hk : (r.held? k).isSome ∨ verdict k = none ∨ flush = true) :
    r.refusals flush verdict [k] = [] := by
  unfold Reconciler.refusals
  rcases hk with hk | hk | hk
  · have hmem : k ∈ r.keySet := (Reconciler.mem_keySet hf k).mpr hk
    simp [hmem]
  · split
    · rfl
    · simp [hk]
  · simp [hk]

/-- A key that is requested in vain, or needs no request, gets no poller. -/
lemma Walked.held_append (w : Walked r flush verdict seen seen p) {k : PollerKey}
    (hk : flush = false → verdict k = none → (p.reconciler.held? k).isSome) (j : PollerKey) :
    (p.reconciler.held? j).isSome ↔
      (r.held? j).isSome ∨ (flush = false ∧ j ∈ seen ++ [k] ∧ verdict j = none) := by
  rw [w.held j, List.mem_append, List.mem_singleton]
  constructor
  · tauto
  · rintro (h | ⟨hfl, h | rfl, hn⟩)
    · exact .inl h
    · exact .inr ⟨hfl, h, hn⟩
    · rw [← w.held j]
      exact hk hfl hn

/-- Coming to a key that needs no request, or is not to be requested. -/
lemma Walked.skip (w : Walked r flush verdict seen seen p) (hf : r.Filed) {k : PollerKey}
    (hskip : (p.reconciler.contains k || flush) = true) :
    Walked r flush verdict (seen ++ [k]) seen p := by
  rw [Bool.or_eq_true, Reconciler.contains_eq] at hskip
  refine ⟨w.sound, ?_, w.marked, ?_⟩
  · apply w.held_append
    intro hfl _
    rw [hfl] at hskip
    simpa using hskip
  · intro cause
    have hcases : (r.held? k).isSome ∨ verdict k = none ∨ flush = true := by
      rw [w.held] at hskip
      tauto
    rw [w.refused cause, Reconciler.refusals_append, refusals_of_held hf hcases, List.append_nil]

section Requested

variable {k : PollerKey}

/-- A key without a poller had none before, and was not granted one on the way. -/
lemma Walked.not_held (w : Walked r flush verdict seen seen p)
    (hcon : p.reconciler.contains k = false) :
    ¬ ((r.held? k).isSome ∨ (flush = false ∧ k ∈ seen ∧ verdict k = none)) := by
  rw [← w.held k, ← Reconciler.contains_eq, hcon]
  decide

/-- Opening the poller of a key that is granted one. -/
lemma Walked.grant (w : Walked r flush verdict seen seen p) (hf : r.Filed) (hfl : flush = false)
    (hcon : p.reconciler.contains k = false) (hverdict : verdict k = none) {q : PollerRef} {h : Hub}
    (hsound : (p.reconciler.enter k q).Sound h) :
    Walked r flush verdict (seen ++ [k]) seen
      { p with reconciler := p.reconciler.enter k q, hub := h } := by
  refine ⟨hsound, ?_, ?_, ?_⟩
  · intro j
    dsimp only
    rw [Reconciler.held?_enter, List.mem_append, List.mem_singleton]
    by_cases hjk : j = k
    · simp [hjk, hfl, hverdict]
    · rw [if_neg hjk, w.held j]
      simp [hjk]
  · intro j e he
    dsimp only at he
    rw [Reconciler.held?_enter] at he
    by_cases hjk : j = k
    · rw [if_pos hjk] at he
      cases he
      rw [hjk]
      simp only [Bool.false_eq_true, false_iff]
      exact fun hmem => w.not_held hcon (.inr ⟨hfl, hmem, hverdict⟩)
    · rw [if_neg hjk] at he
      exact w.marked j e he
  · intro cause
    dsimp only
    rw [(Reconciler.enter_counters p.reconciler k q).1, Reconciler.refusals_append,
      refusals_of_held hf (.inr (.inl hverdict)), List.append_nil, ← w.refused cause]
    cases cause <;> rfl

/-- Counting the refusal of a key. -/
lemma Walked.refuse (w : Walked r flush verdict seen seen p) (hf : r.Filed) (hfl : flush = false)
    (hcon : p.reconciler.contains k = false) {e : AcqError} (hverdict : verdict k = some e) :
    Walked r flush verdict (seen ++ [k]) seen
      { p with reconciler := p.reconciler.count fun n => n.refuse e } := by
  have hsound : (p.reconciler.count fun n => n.refuse e).Sound p.hub := w.sound.count _
  refine ⟨hsound, ?_, w.marked, ?_⟩
  · intro j
    rw [Reconciler.held?_count]
    refine w.held_append ?_ j
    intro _ hn
    cases hverdict.symm.trans hn
  · intro cause
    have hkey : k ∉ r.keySet := by
      rw [Reconciler.mem_keySet hf]
      exact fun hmem => w.not_held hcon (.inl hmem)
    have hone : r.refusals flush verdict [k] = [e] := by
      simp [Reconciler.refusals, hfl, hkey, hverdict]
    change (p.reconciler.counters.refuse e).refused cause = _
    rw [Counters.refused_refuse, w.refused cause, Reconciler.refusals_append, hone,
      List.countP_append, List.countP_singleton]
    simp only [decide_eq_true_eq]
    omega

end Requested

/-- Opening the poller of the next key, if it needs one and gets one. -/
lemma Walked.ensure (w : Walked r flush verdict seen seen p) (hf : r.Filed) {grant : Grant}
    (hg : grant.Lawful) {k : PollerKey}
    (hv : flush = false → p.reconciler.contains k = false →
      refusal? (grant p.hub k) = verdict k) :
    Walked r flush verdict (seen ++ [k]) seen (p.ensure grant flush k) := by
  have hsound := w.sound.ensure hg flush k
  obtain ⟨hskip, heq⟩ | ⟨hcon, hfl, e, hok, heq⟩ | ⟨hcon, hfl, q, h', hok, heq⟩ :=
    p.ensure_cases grant flush k
  · rw [heq]
    exact w.skip hf hskip
  · have hanswer := hv hfl hcon
    rw [hok] at hanswer
    rw [heq]
    exact w.refuse hf hfl hcon hanswer.symm
  · have hanswer := hv hfl hcon
    rw [hok] at hanswer
    rw [heq] at hsound ⊢
    exact w.grant hf hfl hcon hanswer.symm hsound

/-- Visiting a key that was requested. -/
lemma Walked.serve (w : Walked r flush verdict opened seen p) (v : Visit) :
    Walked r flush verdict opened (seen ++ [v.key]) (p.serve v) := by
  have hsound := w.sound.serve v
  refine ⟨hsound, ?_, ?_, ?_⟩
  · intro j
    rw [keys_serve w.sound, w.held]
  · intro j f hj
    rw [List.mem_append, List.mem_singleton]
    cases he : p.reconciler.held? v.key with
    | none =>
      rw [serve_eq_self he] at hj
      have hne : j ≠ v.key := by
        rintro rfl
        rw [he] at hj
        cases hj
      rw [w.marked j f hj]
      simp [hne]
    | some e =>
      rw [held?_serve w.sound he] at hj
      by_cases hjk : j = v.key
      · rw [if_pos hjk] at hj
        cases hj
        simp [hjk]
      · rw [if_neg hjk] at hj
        rw [w.marked j f hj]
        simp [hjk]
  · intro cause
    obtain ⟨n, hn⟩ := counters_serve w.sound v
    rw [hn, ← w.refused cause]
    cases cause <;> rfl

/-- The keys in the course of the walk. -/
lemma Walked.mem_keySet (w : Walked r flush verdict opened seen p) (hf : r.Filed) (k : PollerKey) :
    k ∈ p.reconciler.keySet ↔
      k ∈ r.keySet ∨ (flush = false ∧ k ∈ opened ∧ verdict k = none) := by
  rw [Reconciler.mem_keySet w.sound.filed, Reconciler.mem_keySet hf, w.held k]

/-- **One stop of the walk.** The key is requested if it has no poller, and visited if it has one
then. -/
theorem Walked.visit (w : Walked r flush verdict seen seen p) (hf : r.Filed) {grant : Grant}
    (hg : grant.Lawful) {v : Visit}
    (hv : flush = false → p.reconciler.contains v.key = false →
      refusal? (grant p.hub v.key) = verdict v.key) :
    Walked r flush verdict (seen ++ [v.key]) (seen ++ [v.key]) (p.visit grant flush v) :=
  (w.ensure hf hg hv).serve v

end Walked

/-- The walk as a whole: every stop is answered by the verdict, so all of them are walked.

**Proof sketch.** Induction on the stops that are left. The ones that were made are remembered, for
the verdict is on requests in the state that they lead to. -/
lemma walked_foldl {r : Reconciler} (hf : r.Filed) {h : Hub} {topics : List Topic} {flush : Bool}
    {grant : Grant} (hg : grant.Lawful) {verdict : PollerKey → Option AcqError}
    (ha : r.AnswersAs grant flush h topics verdict) :
    ∀ (left made : List Visit), visits r.service topics = made ++ left →
      Walked r flush verdict (made.map fun v => v.key) (made.map fun v => v.key)
        (made.foldl (Pass.visit grant flush) (r.begin h topics)) →
      Walked r flush verdict (requested r.service topics) (requested r.service topics)
        ((visits r.service topics).foldl (Pass.visit grant flush) (r.begin h topics)) := by
  intro left
  induction left with
  | nil =>
    intro made hsplit hw
    rw [List.append_nil] at hsplit
    rw [← map_key_visits, hsplit]
    exact hw
  | cons v left ih =>
    intro made hsplit hw
    have hstep := hw.visit hf hg (ha made v left hsplit)
    apply ih (made ++ [v]) (by rw [hsplit]; simp)
    rw [List.foldl_append, List.map_append]
    exact hstep

/-- Before the walk nothing is marked and nothing was refused. -/
lemma walked_begin {r : Reconciler} {h : Hub} (hs : r.Sound h) (topics : List Topic) (flush : Bool)
    (verdict : PollerKey → Option AcqError) :
    Walked r flush verdict [] [] (r.begin h topics) := by
  refine ⟨hs.begin topics, ?_, ?_, ?_⟩
  · intro k
    rw [Reconciler.held?_begin]
    simp
  · intro k e he
    rw [Reconciler.held?_begin] at he
    obtain ⟨e₀, -, rfl⟩ := Option.map_eq_some_iff.mp he
    simp
  · intro cause
    simp only [Reconciler.refusals, List.filterMap_nil, ite_self, List.countP_nil, Nat.add_zero]
    cases cause <;> rfl

end Pass

/-! ### The pass -/

namespace Reconciler

/-- A pass is a walk and a sweep. -/
lemma pass_eq (r : Reconciler) (grant : Grant) (flush : Bool) (h : Hub) (topics : List Topic) :
    let p := (visits r.service topics).foldl (Pass.visit grant flush) (r.begin h topics)
    (r.pass grant flush h topics).reconciler = (p.reconciler.evict p.hub).1 ∧
      (r.pass grant flush h topics).hub = (p.reconciler.evict p.hub).2 :=
  ⟨rfl, rfl⟩

/-- A walk keeps a reconciler sound. -/
lemma Sound.walk {grant : Grant} (hg : grant.Lawful) (flush : Bool) (vs : List Visit) {p : Pass}
    (hs : p.reconciler.Sound p.hub) :
    (vs.foldl (Pass.visit grant flush) p).reconciler.Sound
      (vs.foldl (Pass.visit grant flush) p).hub := by
  induction vs generalizing p with
  | nil => exact hs
  | cons v vs ih => exact ih (hs.visit hg flush v)

/-- **A pass keeps a reconciler sound.** -/
theorem Sound.pass {r : Reconciler} {h : Hub} (hs : r.Sound h) {grant : Grant} (hg : grant.Lawful)
    (flush : Bool) (topics : List Topic) :
    (r.pass grant flush h topics).reconciler.Sound (r.pass grant flush h topics).hub := by
  obtain ⟨hr, hh⟩ := r.pass_eq grant flush h topics
  rw [hr, hh]
  exact Sound.evict (Sound.walk hg flush _ (hs.begin topics))

/-- A walk counts every poller that it opens. -/
lemma opens_walk {grant : Grant} (hg : grant.Lawful) (flush : Bool) (vs : List Visit) {p : Pass}
    (hs : p.reconciler.Sound p.hub) :
    p.reconciler.Opens (vs.foldl (Pass.visit grant flush) p).reconciler := by
  induction vs generalizing p with
  | nil => exact .refl _
  | cons v vs ih => exact (Pass.opens_visit hs hg flush v).trans (ih (hs.visit hg flush v))

/-- **Pollers are conserved by a pass**: those that were there and those that were opened are still
there or were evicted. -/
theorem balance_pass {r : Reconciler} {h : Hub} (hs : r.Sound h) {grant : Grant} (hg : grant.Lawful)
    (flush : Bool) (topics : List Topic) :
    let r' := (r.pass grant flush h topics).reconciler
    r'.counters.pollersCreated + r.counters.pollersEvicted + r.keys.length =
      r.counters.pollersCreated + r'.counters.pollersEvicted + r'.keys.length := by
  have hwalk := opens_walk hg flush (visits r.service topics) (hs.begin topics)
  have hbegin : (r.begin h topics).reconciler.keys.length = r.keys.length := by
    apply length_keys_congr hs.filed (hs.begin topics).filed
    intro k
    rw [held?_begin]
    simp
  have hcreated := hwalk.created
  have hevicted := hwalk.evicted
  rw [hbegin] at hcreated
  dsimp only
  rw [(r.pass_eq grant flush h topics).1]
  generalize (visits r.service topics).foldl (Pass.visit grant flush) (r.begin h topics) = p
    at hcreated hevicted ⊢
  have hlen := p.reconciler.length_stale p.hub
  change p.reconciler.counters.pollersCreated + _ + _ =
    _ + (p.reconciler.counters.pollersEvicted + p.reconciler.stale.length) + _
  change _ = r.counters.pollersCreated + _ at hcreated
  change _ = r.counters.pollersEvicted at hevicted
  omega

section Exact

variable {r : Reconciler} {h : Hub} (hs : r.Sound h) {grant : Grant} (hg : grant.Lawful)
  {flush : Bool} {topics : List Topic} {verdict : PollerKey → Option AcqError}
  (ha : r.AnswersAs grant flush h topics verdict)

include hs hg ha

/-- What the walk of a pass leads to. -/
lemma walked_pass :
    Pass.Walked r flush verdict (requested r.service topics) (requested r.service topics)
      ((visits r.service topics).foldl (Pass.visit grant flush) (r.begin h topics)) :=
  Pass.walked_foldl hs.filed hg ha (visits r.service topics) [] rfl
    (Pass.walked_begin hs topics flush verdict)

/-- **The keys after a pass** are the requested ones that were there before or were granted. -/
theorem mem_keySet_pass (k : PollerKey) :
    k ∈ (r.pass grant flush h topics).reconciler.keySet ↔
      k ∈ requested r.service topics ∧ (k ∈ r.keySet ∨ (flush = false ∧ verdict k = none)) := by
  have hw := walked_pass hs hg ha
  rw [(r.pass_eq grant flush h topics).1, mem_keySet (hw.sound.filed.evict _), held?_evict,
    mem_keySet hs.filed]
  constructor
  · intro hk
    obtain ⟨e, he⟩ := Option.isSome_iff_exists.mp hk
    rw [Option.filter_eq_some_iff] at he
    have hseen := (hw.marked k e he.1).mp he.2
    have hheld := (hw.held k).mp (by rw [he.1]; rfl)
    tauto
  · rintro ⟨hreq, hk⟩
    have hheld := (hw.held k).mpr (by tauto)
    obtain ⟨e, he⟩ := Option.isSome_iff_exists.mp hheld
    have huse := (hw.marked k e he).mpr hreq
    rw [he, Option.filter_some, if_pos huse]
    rfl

/-- The number of pollers evicted in a pass is the number of old keys that are not requested. -/
lemma evicted_pass :
    (r.pass grant flush h topics).reconciler.counters.pollersEvicted =
      r.counters.pollersEvicted + (r.keySet \ (requested r.service topics).toFinset).card := by
  have hw := walked_pass hs hg ha
  have hkeys := mem_keySet_pass hs hg ha
  have hevicted := (opens_walk hg flush (visits r.service topics) (hs.begin topics)).evicted
  rw [(r.pass_eq grant flush h topics).1] at hkeys ⊢
  generalize (visits r.service topics).foldl (Pass.visit grant flush) (r.begin h topics) = p
    at hw hkeys hevicted ⊢
  have hwalk := hw.mem_keySet hs.filed
  have hsub : (p.reconciler.evict p.hub).1.keySet ⊆ p.reconciler.keySet := by
    intro k hk
    rw [hkeys] at hk
    rw [hwalk]
    tauto
  have hold : r.keySet \ (requested r.service topics).toFinset =
      p.reconciler.keySet \ (p.reconciler.evict p.hub).1.keySet := by
    ext k
    rw [Finset.mem_sdiff, Finset.mem_sdiff, List.mem_toFinset, hkeys, hwalk]
    tauto
  have hcard := Finset.card_sdiff_add_card_eq_card hsub
  rw [card_keySet hw.sound.filed, card_keySet (hw.sound.filed.evict p.hub)] at hcard
  have hlen := p.reconciler.length_stale p.hub
  rw [hold]
  change p.reconciler.counters.pollersEvicted + p.reconciler.stale.length = _
  change _ = r.counters.pollersEvicted at hevicted
  omega

/-- The number of pollers opened in a pass is the number of new keys. -/
lemma created_pass :
    (r.pass grant flush h topics).reconciler.counters.pollersCreated =
      r.counters.pollersCreated +
        ((r.pass grant flush h topics).reconciler.keySet \ r.keySet).card := by
  have hbalance := balance_pass hs hg flush topics
  have hevicted := evicted_pass hs hg ha
  have hkeys := mem_keySet_pass hs hg ha
  have hfiled := (hs.pass hg flush topics).filed
  dsimp only at hbalance
  generalize (r.pass grant flush h topics).reconciler = r' at hbalance hevicted hkeys hfiled ⊢
  have hout : r.keySet \ (requested r.service topics).toFinset = r.keySet \ r'.keySet := by
    ext k
    rw [Finset.mem_sdiff, Finset.mem_sdiff, List.mem_toFinset, hkeys]
    tauto
  have hboth := Finset.card_sdiff_add_card r'.keySet r.keySet
  have hboth' := Finset.card_sdiff_add_card r.keySet r'.keySet
  rw [Finset.union_comm] at hboth'
  rw [card_keySet hs.filed] at hboth
  rw [card_keySet hfiled] at hboth'
  rw [hout] at hevicted
  omega

/-- Every topic that cannot be read is counted once, and so is every refusal under its cause. -/
lemma refused_pass :
    (r.pass grant flush h topics).reconciler.counters.skippedSubscriptions =
        r.counters.skippedSubscriptions + unreadableCount r.service topics ∧
      ∀ cause, (r.pass grant flush h topics).reconciler.counters.refused cause =
        r.counters.refused cause +
          (r.refusals flush verdict (requested r.service topics)).countP fun e =>
            e.cause = cause := by
  have hw := walked_pass hs hg ha
  have hopens := opens_walk hg flush (visits r.service topics) (hs.begin topics)
  refine ⟨hopens.skipped, fun cause => ?_⟩
  rw [← hw.refused cause]
  cases cause <;> rfl

end Exact

end Reconciler

end Daq
