import Daq.Proofs.Reconciler.Pass
import Daq.Proofs.Routing

set_option autoImplicit false

/-!
# What a pass hands out

A pass hands out replies from pollers. Seen from the pollers, every reply comes with the key of its
poller; seen from the broker, it comes with a narrowed filter. This file relates both views, and
says that a poller is emptied once, however often its key is asked for.

## Main definitions

* `Daq.Pass.emission`, `Daq.Pass.emissions`, `Daq.Reconciler.emissions` — replies with the keys of
  their pollers, for one stop, for a walk, and for a pass.
* `Daq.Reconciler.pending` — the replies to what waits at the poller of a key.
* `Daq.Reconciler.outcome` — those replies, and the description that they leave behind.
* `Daq.Notification.key?` — the key that a narrowed filter tells.

## Main results

* `Daq.Reconciler.wanted_notifications` — what a subscription wants of a pass, by keys.
* `Daq.Reconciler.emissions_of_key` — a pass hands out what waits at a requested key exactly once.
* `Daq.Reconciler.told_pass` — every notification of a pass tells the key of its poller.
* `Daq.Reconciler.tally_pass` — a pass counts itself and its notifications.
-/

namespace Daq

namespace Pass

/-- What a stop of the walk hands out, with the key of the poller. -/
def emission (grant : Grant) (flush : Bool) (p : Pass) (v : Visit) : List (PollerKey × Reply) :=
  let q := p.ensure grant flush v.key
  match q.reconciler.collect q.hub v.key with
  | none => []
  | some (c, _, _) => c.replies.map fun reply => (v.key, reply)

/-- What a walk hands out, with the keys of the pollers. -/
def emissions (grant : Grant) (flush : Bool) (p : Pass) : List Visit → List (PollerKey × Reply)
  | [] => []
  | v :: vs => p.emission grant flush v ++ (p.visit grant flush v).emissions grant flush vs

/-- A stop of the walk notifies of what it hands out, under its narrowed filter. -/
lemma notifications_visit (grant : Grant) (flush : Bool) (p : Pass) (v : Visit) :
    (p.visit grant flush v).notifications =
      p.notifications ++ (p.emission grant flush v).map fun e => ⟨v.filter, e.2⟩ := by
  have hensure : (p.ensure grant flush v.key).notifications = p.notifications := by
    obtain ⟨-, heq⟩ | ⟨-, -, e, -, heq⟩ | ⟨-, -, q, h', -, heq⟩ := p.ensure_cases grant flush v.key
    · rw [heq]
    · rw [heq]
    · rw [heq]
  unfold visit emission serve
  dsimp only
  cases (p.ensure grant flush v.key).reconciler.collect (p.ensure grant flush v.key).hub v.key with
  | none => simp [hensure]
  | some c =>
    obtain ⟨c, r, h⟩ := c
    simp [hensure, List.map_map, Function.comp_def]

/-- A stop of the walk hands out replies of one poller. -/
lemma key_of_mem_emission {grant : Grant} {flush : Bool} {p : Pass} {v : Visit}
    {e : PollerKey × Reply} (he : e ∈ p.emission grant flush v) : e.1 = v.key := by
  unfold emission at he
  dsimp only at he
  split at he
  · cases he
  · obtain ⟨reply, -, rfl⟩ := List.mem_map.mp he
    rfl

/-- **What a subscription wants of a walk** is what comes from the keys that its topic asks for.

**Proof sketch.** Induction on the stops. The replies of one stop share filter and key, so the
subscription wants all of them or none. -/
lemma wanted_notifications (s : Subscription) (service : String) (topics : List Topic)
    (grant : Grant) (flush : Bool) (vs : List Visit) (hvs : ∀ v ∈ vs, v ∈ visits service topics)
    (p : Pass) :
    ((vs.foldl (visit grant flush) p).notifications.filter fun n => s.wants service n.filter).map
        (fun n => n.reply) =
      (p.notifications.filter fun n => s.wants service n.filter).map (fun n => n.reply) ++
        ((p.emissions grant flush vs).filter fun e => e.1 ∈ s.topic.keysFor service).map
          fun e => e.2 := by
  induction vs generalizing p with
  | nil => simp [emissions]
  | cons v vs ih =>
    have hwants := s.wants_visit (hvs v (by simp))
    have hstop : (((p.emission grant flush v).map fun e => (⟨v.filter, e.2⟩ : Notification)).filter
          fun n => s.wants service n.filter).map (fun n => n.reply) =
        ((p.emission grant flush v).filter fun e => e.1 ∈ s.topic.keysFor service).map
          fun e => e.2 := by
      rw [List.filter_map, List.map_map]
      have hcongr : (p.emission grant flush v).filter
            ((fun n => s.wants service n.filter) ∘ fun e => (⟨v.filter, e.2⟩ : Notification)) =
          (p.emission grant flush v).filter fun e => e.1 ∈ s.topic.keysFor service := by
        apply List.filter_congr
        intro e he
        rw [key_of_mem_emission he, Bool.eq_iff_iff, decide_eq_true_eq]
        exact hwants
      rw [hcongr]
      rfl
    rw [List.foldl_cons, ih (fun u hu => hvs u (by simp [hu])), notifications_visit, emissions,
      List.filter_append, List.map_append, List.filter_append, List.map_append, hstop,
      List.append_assoc]

end Pass

namespace Reconciler

/-- What a pass hands out, with the keys of the pollers. -/
def emissions (r : Reconciler) (grant : Grant) (flush : Bool) (h : Hub) (topics : List Topic) :
    List (PollerKey × Reply) :=
  (r.begin h topics).emissions grant flush (visits r.service topics)

/-- **What a subscription wants of a pass** is what comes from the keys that its topic asks for. -/
theorem wanted_notifications (s : Subscription) (r : Reconciler) (grant : Grant) (flush : Bool)
    (h : Hub) (topics : List Topic) :
    ((r.pass grant flush h topics).notifications.filter fun n =>
        s.wants r.service n.filter).map (fun n => n.reply) =
      ((r.emissions grant flush h topics).filter fun e => e.1 ∈ s.topic.keysFor r.service).map
        fun e => e.2 := by
  have hwalk := Pass.wanted_notifications s r.service topics grant flush (visits r.service topics)
    (fun _ hv => hv) (r.begin h topics)
  have hstart : (r.begin h topics).notifications = [] := rfl
  rw [hstart, List.filter_nil, List.map_nil, List.nil_append] at hwalk
  exact hwalk

/-- The replies to what waits at the poller of a key. -/
def pending (r : Reconciler) (h : Hub) (k : PollerKey) : List Reply :=
  match r.held? k with
  | some e => (answers e.reported (h.items e.poller)).1
  | none => []

/-- The replies to what waits at the poller of a key, and the description that they leave behind. A
key without a poller is as good as one with a new poller. -/
def outcome (r : Reconciler) (h : Hub) (k : PollerKey) : List Reply × Descriptor :=
  match r.held? k with
  | some e => answers e.reported (h.items e.poller)
  | none => ([], .unknown k.signal)

/-- What waits is the first half of the outcome. -/
lemma pending_eq (r : Reconciler) (h : Hub) (k : PollerKey) :
    r.pending h k = (r.outcome h k).1 := by
  unfold pending outcome
  cases r.held? k <;> rfl

/-- Only the poller and its description count for the outcome. -/
lemma outcome_congr {r r' : Reconciler} {h h' : Hub} {k : PollerKey}
    (hk : (r'.held? k).map (fun e => (e.poller, e.reported)) =
      (r.held? k).map fun e => (e.poller, e.reported))
    (hi : ∀ e, r.held? k = some e → h'.items e.poller = h.items e.poller) :
    r'.outcome h' k = r.outcome h k := by
  unfold outcome
  cases he : r.held? k with
  | none =>
    rw [he, Option.map_none] at hk
    rw [Option.map_eq_none_iff.mp hk]
  | some e =>
    rw [he, Option.map_some] at hk
    obtain ⟨e', he', heq⟩ := Option.map_eq_some_iff.mp hk
    simp only [Prod.mk.injEq] at heq
    rw [he']
    dsimp only
    rw [heq.1, heq.2, hi e he]

/-- The beginning of a pass changes no outcome. -/
lemma outcome_begin (r : Reconciler) (h : Hub) (topics : List Topic) (k : PollerKey) :
    (r.begin h topics).reconciler.outcome (r.begin h topics).hub k = r.outcome h k := by
  refine outcome_congr ?_ fun _ _ => rfl
  rw [held?_begin, Option.map_map]
  rfl

end Reconciler

namespace Pass

section Once

variable {p : Pass} {grant : Grant}

/-- Opening a poller changes no outcome, for nothing waits at a new poller. -/
lemma outcome_ensure (hs : p.reconciler.Sound p.hub) (hg : grant.Lawful) (flush : Bool)
    (k j : PollerKey) :
    (p.ensure grant flush k).reconciler.outcome (p.ensure grant flush k).hub j =
      p.reconciler.outcome p.hub j := by
  obtain ⟨-, heq⟩ | ⟨-, -, e, -, heq⟩ | ⟨hcon, -, q, h', hok, heq⟩ := p.ensure_cases grant flush k
  · rw [heq]
  · rw [heq]
    rfl
  · rw [heq]
    obtain ⟨-, hnew, -, hitems⟩ := hg p.hub h' k q hs.wellFormed hok
    by_cases hjk : j = k
    · have hnone := (p.reconciler.contains_eq_false_iff k).mp hcon
      have hempty : h'.items q = [] := by
        rw [hitems]
        exact Hub.items_eq_nil hs.wellFormed hnew
      simp [Reconciler.outcome, Reconciler.held?_enter, hjk, hnone, hempty, answers]
    · refine Reconciler.outcome_congr ?_ fun e _ => hitems e.poller
      rw [Reconciler.held?_enter, if_neg hjk]

/-- Opening a poller changes nothing about what waits. -/
lemma pending_ensure (hs : p.reconciler.Sound p.hub) (hg : grant.Lawful) (flush : Bool)
    (k j : PollerKey) :
    (p.ensure grant flush k).reconciler.pending (p.ensure grant flush k).hub j =
      p.reconciler.pending p.hub j := by
  rw [Reconciler.pending_eq, outcome_ensure hs hg, ← Reconciler.pending_eq]

/-- A visit hands out what waits at its key. -/
lemma collect_pending (hs : p.reconciler.Sound p.hub) (k : PollerKey) :
    ((p.reconciler.collect p.hub k).elim [] fun c => c.1.replies) =
      p.reconciler.pending p.hub k := by
  unfold Reconciler.pending
  cases he : p.reconciler.held? k with
  | none => rw [Reconciler.collect_eq_none p.hub he]; rfl
  | some e =>
    rw [Reconciler.collect_eq hs.wellFormed he (hs.serves k e he)]
    rfl

/-- After a visit nothing waits at its key, which is described as it was to be. The outcomes of the
others are as before. -/
lemma outcome_serve (hs : p.reconciler.Sound p.hub) (v : Visit) (j : PollerKey) :
    (p.serve v).reconciler.outcome (p.serve v).hub j =
      (if j = v.key then [] else (p.reconciler.outcome p.hub j).1,
        (p.reconciler.outcome p.hub j).2) := by
  cases he : p.reconciler.held? v.key with
  | none =>
    rw [serve_eq_self he]
    by_cases hj : j = v.key
    · rw [if_pos hj, hj]
      simp [Reconciler.outcome, he]
    · rw [if_neg hj]
  | some e =>
    have hhub : (p.serve v).hub = p.hub.emptied e.poller := by rw [serve_eq hs he]
    have hheld := held?_serve hs he j
    by_cases hj : j = v.key
    · rw [if_pos hj] at hheld ⊢
      subst hj
      simp [Reconciler.outcome, hheld, hhub, he, answers]
    · rw [if_neg hj] at hheld ⊢
      apply Reconciler.outcome_congr (by rw [hheld])
      intro f hf
      rw [hhub]
      apply (p.hub.consumed_emptied e.poller).others f.poller
      intro hpol
      exact hj (hs.distinct j v.key f e hf he hpol)

/-- A stop of the walk hands out what waits at its key. -/
lemma emission_eq (hs : p.reconciler.Sound p.hub) (hg : grant.Lawful) (flush : Bool) (v : Visit) :
    p.emission grant flush v =
      (p.reconciler.pending p.hub v.key).map fun reply => (v.key, reply) := by
  have hs' := hs.ensure hg flush v.key
  rw [← pending_ensure hs hg flush v.key v.key, ← collect_pending hs' v.key]
  unfold emission
  dsimp only
  cases (p.ensure grant flush v.key).reconciler.collect (p.ensure grant flush v.key).hub v.key with
  | none => rfl
  | some c => rfl

/-- **A walk hands out what waits at a key exactly once**, however often it comes to the key.

**Proof sketch.** Induction on the stops. The first stop at the key empties its queue, and no stop
at another key touches it. -/
lemma emissions_of_key (hs : p.reconciler.Sound p.hub) (hg : grant.Lawful) (flush : Bool)
    (vs : List Visit) (k : PollerKey) :
    ((p.emissions grant flush vs).filter fun e => e.1 = k).map (fun e => e.2) =
      if k ∈ vs.map (fun v => v.key) then p.reconciler.pending p.hub k else [] := by
  induction vs generalizing p with
  | nil => simp [emissions]
  | cons v vs ih =>
    have hrest : (p.visit grant flush v).reconciler.pending (p.visit grant flush v).hub k =
        if k = v.key then [] else p.reconciler.pending p.hub k := by
      unfold visit
      rw [Reconciler.pending_eq, outcome_serve (hs.ensure hg flush v.key), outcome_ensure hs hg,
        Reconciler.pending_eq]
    have hstop : ((p.emission grant flush v).filter fun e => e.1 = k).map (fun e => e.2) =
        if k = v.key then p.reconciler.pending p.hub k else [] := by
      rw [emission_eq hs hg, List.filter_map]
      by_cases hk : k = v.key
      · simp [hk, Function.comp_def]
      · have hk' : ¬ v.key = k := fun h => hk h.symm
        simp [hk, hk', Function.comp_def]
    rw [emissions, List.filter_append, List.map_append, hstop, ih (hs.visit hg flush v), hrest,
      List.map_cons]
    by_cases hk : k = v.key
    · simp [hk]
    · simp [hk]

end Once

end Pass

namespace Reconciler

/-- **A pass hands out what waits at a requested key exactly once**, and nothing of other keys. -/
theorem emissions_of_key {r : Reconciler} {h : Hub} (hs : r.Sound h) {grant : Grant}
    (hg : grant.Lawful) (flush : Bool) (topics : List Topic) (k : PollerKey) :
    ((r.emissions grant flush h topics).filter fun e => e.1 = k).map (fun e => e.2) =
      if k ∈ requested r.service topics then r.pending h k else [] := by
  have hbegin : (r.begin h topics).reconciler.pending (r.begin h topics).hub k = r.pending h k := by
    rw [pending_eq, outcome_begin, ← pending_eq]
  rw [emissions, Pass.emissions_of_key (hs.begin topics) hg, map_key_visits, hbegin]

end Reconciler

/-! ### The keys of notifications -/

/-- The key that the filter of a notification tells, if it lists a single channel. -/
def Notification.key? (n : Notification) : Option PollerKey :=
  match n.filter.channelNames with
  | [c] => some (n.filter.key c)
  | _ => none

/-- The filter of a visit tells the key of the visit. -/
lemma key?_of_mem_visits {service : String} {topics : List Topic} {v : Visit}
    (hv : v ∈ visits service topics) (reply : Reply) :
    (⟨v.filter, reply⟩ : Notification).key? = some v.key := by
  obtain ⟨g, c, hc, rfl, -⟩ := exists_of_mem_visits hv
  unfold Notification.key?
  dsimp only
  rw [g.channelNames_forChannel hc]
  rfl

namespace Pass

/-- What the notifications of a pass tell: keys and replies. -/
def told (p : Pass) : List (Option PollerKey × Reply) :=
  p.notifications.map fun n => (n.key?, n.reply)

/-- **Every notification of a walk tells the key of its poller.** -/
lemma told_walk {service : String} {topics : List Topic} (grant : Grant) (flush : Bool)
    (vs : List Visit) (hvs : ∀ v ∈ vs, v ∈ visits service topics) (p : Pass) :
    (vs.foldl (visit grant flush) p).told =
      p.told ++ (p.emissions grant flush vs).map fun e => (some e.1, e.2) := by
  induction vs generalizing p with
  | nil => simp [emissions]
  | cons v vs ih =>
    have hstop : (p.visit grant flush v).told =
        p.told ++ (p.emission grant flush v).map fun e => (some e.1, e.2) := by
      unfold told
      rw [notifications_visit, List.map_append, List.map_map]
      congr 1
      refine List.map_congr_left fun e he => ?_
      dsimp only [Function.comp]
      rw [key?_of_mem_visits (hvs v (by simp)), key_of_mem_emission he]
    rw [List.foldl_cons, ih fun u hu => hvs u (by simp [hu]), hstop, emissions, List.map_append,
      List.append_assoc]

/-- A request counts neither passes nor notifications. -/
lemma tally_ensure (p : Pass) (grant : Grant) (flush : Bool) (k : PollerKey) :
    (p.ensure grant flush k).reconciler.counters.notifications =
        p.reconciler.counters.notifications ∧
      (p.ensure grant flush k).reconciler.counters.passes = p.reconciler.counters.passes := by
  obtain ⟨-, heq⟩ | ⟨-, -, e, -, heq⟩ | ⟨-, -, q, h', -, heq⟩ := p.ensure_cases grant flush k
  · rw [heq]
    exact ⟨rfl, rfl⟩
  · rw [heq]
    change (p.reconciler.counters.refuse e).notifications = _ ∧
      (p.reconciler.counters.refuse e).passes = _
    unfold Counters.refuse
    split
    · exact ⟨rfl, rfl⟩
    · split <;> exact ⟨rfl, rfl⟩
  · rw [heq, (p.reconciler.enter_counters k q).1]
    exact ⟨rfl, rfl⟩

/-- A stop of the walk counts what it hands out. -/
lemma tally_visit {p : Pass} (hs : p.reconciler.Sound p.hub) {grant : Grant} (hg : grant.Lawful)
    (flush : Bool) (v : Visit) :
    (p.visit grant flush v).reconciler.counters.notifications =
        p.reconciler.counters.notifications + (p.emission grant flush v).length ∧
      (p.visit grant flush v).reconciler.counters.passes = p.reconciler.counters.passes := by
  have hs' := hs.ensure hg flush v.key
  obtain ⟨hnotifications, hpasses⟩ := p.tally_ensure grant flush v.key
  rw [← hnotifications, ← hpasses]
  unfold visit emission
  dsimp only
  cases he : (p.ensure grant flush v.key).reconciler.held? v.key with
  | none =>
    rw [serve_eq_self he, Reconciler.collect_eq_none _ he]
    exact ⟨rfl, rfl⟩
  | some e =>
    rw [serve_eq hs' he, Reconciler.collect_eq hs'.wellFormed he (hs'.serves v.key e he)]
    simp only [Reconciler.count, (Reconciler.report_counters _ _ _).1,
      (Reconciler.mark_counters _ _).1, List.length_map, and_self]

/-- A walk counts what it hands out. -/
lemma tally_walk {grant : Grant} (hg : grant.Lawful) (flush : Bool) (vs : List Visit) {p : Pass}
    (hs : p.reconciler.Sound p.hub) :
    (vs.foldl (visit grant flush) p).reconciler.counters.notifications =
        p.reconciler.counters.notifications + (p.emissions grant flush vs).length ∧
      (vs.foldl (visit grant flush) p).reconciler.counters.passes =
        p.reconciler.counters.passes := by
  induction vs generalizing p with
  | nil => exact ⟨rfl, rfl⟩
  | cons v vs ih =>
    obtain ⟨hnotifications, hpasses⟩ := tally_visit hs hg flush v
    obtain ⟨hrest, hrest'⟩ := ih (hs.visit hg flush v)
    rw [List.foldl_cons, hrest, hrest', hnotifications, hpasses, emissions, List.length_append]
    exact ⟨by omega, rfl⟩

end Pass

namespace Reconciler

/-- **Every notification of a pass tells the key of its poller.** -/
theorem told_pass (r : Reconciler) (grant : Grant) (flush : Bool) (h : Hub) (topics : List Topic) :
    (r.pass grant flush h topics).told =
      (r.emissions grant flush h topics).map fun e => (some e.1, e.2) :=
  Pass.told_walk grant flush (visits r.service topics) (fun _ hv => hv) (r.begin h topics)

section Tally

variable {r : Reconciler} {h : Hub} (hs : r.Sound h) {grant : Grant} (hg : grant.Lawful)
  (flush : Bool) (topics : List Topic)

include hs hg

/-- A pass counts itself and its notifications. -/
lemma tally_pass :
    (r.pass grant flush h topics).reconciler.counters.notifications =
        r.counters.notifications + (r.emissions grant flush h topics).length ∧
      (r.pass grant flush h topics).reconciler.counters.passes = r.counters.passes + 1 :=
  Pass.tally_walk hg flush (visits r.service topics) (hs.begin topics)

/-- **The notifications of a requested key** are the replies to what waits at its poller. -/
theorem notifications_of_key (k : PollerKey) :
    ((r.pass grant flush h topics).notifications.filter fun n => n.key? = some k).map
        (fun n => n.reply) =
      if k ∈ requested r.service topics then r.pending h k else [] := by
  have htold : ((r.pass grant flush h topics).notifications.filter fun n => n.key? = some k).map
        (fun n => n.reply) =
      ((r.pass grant flush h topics).told.filter fun x => x.1 = some k).map fun x => x.2 := by
    rw [Pass.told, List.filter_map, List.map_map]
    rfl
  rw [htold, told_pass, List.filter_map, List.map_map, ← emissions_of_key hs hg flush topics k]
  simp [Function.comp_def]

end Tally

end Reconciler

end Daq
