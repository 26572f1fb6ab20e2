import Daq.Proofs.Delivery
import Daq.Proofs.Queue
import Daq.Proofs.Table
import Mathlib.Algebra.GroupWithZero.Nat
import Mathlib.Data.List.Count
import Mathlib.Data.List.Induction

set_option autoImplicit false

/-!
# The clients of a broker

Clients subscribe, receive replies and drop their handles, and in between the service notifies, in
any order. Here every client keeps an account beside the broker: the notifications that its topic
has asked for, each with the number of replies that waited at the time, and the replies that it has
received.

The account of a client determines its subscription, and it goes by the client's own moves and the
notifications alone, whoever else there is. The broker's own numbers are sums over the accounts.

## Main definitions

* `Daq.Handle` — a handle with the account of its client.
* `Daq.Clientele` — a broker with all handles, live and dropped.
* `Daq.Clientele.Move`, `Daq.Clientele.run` — what clients and service do, in any order.
* `Daq.Handle.subscription` — the subscription that an account stands for.
* `Daq.Handle.meet` — an account after a move, whatever the other accounts are.

## Main results

* `Daq.Handle.Balanced.offer` — a reply enters the account as the broker treats it.
* `Daq.Clientele.Kept.perform` — every move keeps broker and accounts in agreement.
* `Daq.Clientele.handle?_run` — what becomes of one account in a run.
* `Daq.Clientele.accounts_exact` — accounts, numbers and topics in every run.
-/

namespace Daq

/-- Whether a topic asks for a notification: it addresses the service, and its parameters make a
filter that accepts the notification. -/
def Topic.wants (t : Topic) (service : String) (notification : Filter) : Bool :=
  match Filter.ofParams t.params with
  | .ok f => t.path == service && f.accepts notification
  | .error _ => false

/-- A subscription wants what its topic asks for. -/
lemma Subscription.wants_eq (s : Subscription) (service : String) (notification : Filter) :
    s.wants service notification = s.topic.wants service notification := by
  unfold Subscription.wants Subscription.filter? Topic.wants
  cases Filter.ofParams s.topic.params with
  | ok f => simp [Except.toOption]
  | error e => simp [Except.toOption]

namespace Broker

/-- Take the oldest replies that wait for a subscriber, at most `limit` of them. -/
def take (b : Broker) (id limit : Nat) : List Reply × Broker :=
  ((((b.get? id).map (·.waiting)).getD []).take limit,
    { b with
      subscriptions := b.subscriptions.map fun s =>
        if s.id = id then { s with waiting := s.waiting.drop limit } else s })

/-- The number of replies that wait for a subscriber. -/
def waitingFor (b : Broker) (id : Nat) : Nat := (b.get? id).elim 0 fun s => s.waiting.length

end Broker

/-- A handle in the hands of a client, with the client's account. -/
structure Handle where
  /-- The number of the subscription. -/
  id : Nat
  /-- What was subscribed to. -/
  topic : Topic
  /-- The replies that the client has received. -/
  received : List Reply := []
  /-- The replies that the topic has asked for since the subscription, each with the number of
  replies that waited at the time. -/
  offers : List (Offering Reply) := []

/-- A broker with the handles of its clients. -/
structure Clientele where
  /-- The broker. -/
  broker : Broker
  /-- The live handles, oldest first. -/
  handles : List Handle := []
  /-- The handles that were dropped. -/
  former : List Handle := []

namespace Clientele

/-- What clients and service do. -/
inductive Move where
  /-- A client subscribes, with parameters that make a filter or not. -/
  | subscribe (t : Topic)
  /-- A client drops its handle. -/
  | drop (id : Nat)
  /-- The service notifies. -/
  | notify (service : String) (n : Notification)
  /-- A client takes all replies that wait. -/
  | receive (id : Nat)
  /-- A client takes at most `limit` of the replies that wait. -/
  | take (id limit : Nat)

namespace Move

/-- Whether a move is a notification or made with the handle. -/
def concerns (id : Nat) : Move → Bool
  | subscribe _ => false
  | drop other => other == id
  | notify _ _ => true
  | receive other => other == id
  | take other _ => other == id

/-- Whether no handle comes or goes. -/
def isSteady : Move → Bool
  | subscribe _ => false
  | drop _ => false
  | notify _ _ => true
  | receive _ => true
  | take _ _ => true

/-- The reply of a move, if it is a notification that the topic asks for. -/
def replyFor (t : Topic) : Move → Option Reply
  | notify service n => if t.wants service n.filter then some n.reply else none
  | _ => none

end Move

/-- A client receives what was taken from the broker. -/
def hand (x : Clientele) (id : Nat) (taken : List Reply × Broker) : Clientele :=
  { x with
    broker := taken.2
    handles := x.handles.map fun h =>
      if h.id = id then { h with received := h.received ++ taken.1 } else h }

/-- Broker and accounts after a move. -/
def perform (x : Clientele) : Move → Clientele
  | .subscribe t =>
    let subscribed := x.broker.subscribe t
    { x with
      broker := subscribed.2
      handles := x.handles ++ [{ id := subscribed.1, topic := t }] }
  | .drop id =>
    { broker := x.broker.unsubscribe id
      handles := x.handles.filter fun h => h.id ≠ id
      former := x.former ++ x.handles.filter fun h => h.id = id }
  | .notify service n =>
    { x with
      broker := x.broker.notify service n
      handles := x.handles.map fun h =>
        if h.topic.wants service n.filter then
          { h with offers := h.offers ++ [⟨n.reply, x.broker.waitingFor h.id⟩] }
        else h }
  | .receive id => x.hand id (x.broker.receive id)
  | .take id limit => x.hand id (x.broker.take id limit)

/-- Broker and accounts after several moves. -/
def run (x : Clientele) (moves : List Move) : Clientele := moves.foldl perform x

/-- A broker that nobody has subscribed at. -/
def start (capacity : Nat) : Clientele where
  broker := .ofCapacity capacity

/-- The live handle with this number. -/
def handle? (x : Clientele) (id : Nat) : Option Handle := x.handles.find? fun h => h.id == id

end Clientele

/-! ### One account -/

namespace Handle

section Account

variable (bound : Nat) (h : Handle)

/-- The replies that had a place in the queue. -/
def queued : List Reply := Offering.accepted bound h.offers

/-- The replies that had none. -/
def missed : List Reply := Offering.refused bound h.offers

/-- The replies that had a place and were not received yet. -/
def waiting : List Reply := (h.queued bound).drop h.received.length

/-- The subscription that the account stands for. -/
def subscription : Subscription where
  id := h.id
  topic := h.topic
  waiting := h.waiting bound
  dropped := (h.missed bound).length

/-- What was received is the beginning of what had a place, and no more than `bound` replies wait. -/
structure Balanced : Prop where
  /-- Received is what had a place, in order. -/
  received : h.received <+: h.queued bound
  /-- The queue does not outgrow its bound. -/
  waiting_le : (h.waiting bound).length ≤ bound

/-- The account after a reply was offered to the queue. -/
def offer (reply : Reply) : Handle :=
  { h with offers := h.offers ++ [⟨reply, (h.waiting bound).length⟩] }

/-- The account after a move. It does not depend on any other account. -/
def meet : Clientele.Move → Handle
  | .subscribe _ => h
  | .drop _ => h
  | .notify service n => if h.topic.wants service n.filter then h.offer bound n.reply else h
  | .receive id => if h.id = id then { h with received := h.received ++ h.waiting bound } else h
  | .take id limit =>
    if h.id = id then { h with received := h.received ++ (h.waiting bound).take limit } else h

end Account

section Balanced

variable {bound : Nat} {h : Handle}

/-- **Received and waiting replies are those that had a place.** -/
lemma Balanced.ledger (hb : h.Balanced bound) : h.received ++ h.waiting bound = h.queued bound :=
  (List.prefix_iff_eq_append.mp hb.received)

/-- Receiving the first of the waiting replies leaves the others waiting. -/
lemma Balanced.waiting_receive (hb : h.Balanced bound) {front back : List Reply}
    (hsplit : h.waiting bound = front ++ back) :
    ({ h with received := h.received ++ front } : Handle).waiting bound = back := by
  have hledger := hb.ledger
  rw [hsplit, ← List.append_assoc] at hledger
  have hqueued : ({ h with received := h.received ++ front } : Handle).queued bound =
      (h.received ++ front) ++ back := hledger.symm
  rw [waiting, hqueued]
  exact List.drop_left

/-- Receiving the first of the waiting replies keeps an account balanced. -/
lemma Balanced.receive (hb : h.Balanced bound) {front back : List Reply}
    (hsplit : h.waiting bound = front ++ back) :
    ({ h with received := h.received ++ front } : Handle).Balanced bound where
  received := by
    refine ⟨back, ?_⟩
    rw [List.append_assoc, ← hsplit]
    exact hb.ledger
  waiting_le := by
    have hle := hb.waiting_le
    rw [hsplit, List.length_append] at hle
    rw [hb.waiting_receive hsplit]
    omega

/-- **A reply that is offered enters the account as the broker treats it**: it is queued if it finds
a place, and counted as dropped if not. -/
lemma Balanced.offer (hb : h.Balanced bound) (reply : Reply) :
    (h.offer bound reply).Balanced bound ∧
      (h.subscription bound).offer bound reply = (h.offer bound reply).subscription bound ∧
      ((h.offer bound reply).queued bound).length =
        (h.queued bound).length + if (h.waiting bound).length < bound then 1 else 0 := by
  have hoffers : (h.offer bound reply).offers =
      h.offers ++ [⟨reply, (h.waiting bound).length⟩] := rfl
  have hreceived : (h.offer bound reply).received = h.received := rfl
  unfold Subscription.offer
  change _ ∧ (if (h.waiting bound).length < bound then _ else _) = _ ∧ _
  by_cases hroom : (h.waiting bound).length < bound
  · obtain ⟨haccepted, hrefused⟩ :=
      Offering.accepted_append bound h.offers (o := ⟨reply, (h.waiting bound).length⟩) hroom
    have hqueued : (h.offer bound reply).queued bound = h.queued bound ++ [reply] := haccepted
    have hmissed : (h.offer bound reply).missed bound = h.missed bound := hrefused
    have hwaiting : (h.offer bound reply).waiting bound = h.waiting bound ++ [reply] := by
      rw [waiting, hqueued, hreceived]
      exact List.drop_append_of_le_length hb.received.length_le
    refine ⟨⟨?_, ?_⟩, ?_, ?_⟩
    · rw [hqueued]
      exact hb.received.trans (List.prefix_append _ _)
    · rw [hwaiting, List.length_append, List.length_singleton]
      exact hroom
    · rw [if_pos hroom]
      simp only [subscription, hwaiting, hmissed]
      rfl
    · rw [if_pos hroom, hqueued, List.length_append, List.length_singleton]
  · -- The bound is reached but never passed.
    have hfull : (h.waiting bound).length = bound :=
      Nat.le_antisymm hb.waiting_le (Nat.le_of_not_lt hroom)
    obtain ⟨haccepted, hrefused⟩ :=
      Offering.refused_append bound h.offers (o := ⟨reply, (h.waiting bound).length⟩) hfull
    have hqueued : (h.offer bound reply).queued bound = h.queued bound := haccepted
    have hmissed : (h.offer bound reply).missed bound = h.missed bound ++ [reply] := hrefused
    have hwaiting : (h.offer bound reply).waiting bound = h.waiting bound := by
      rw [waiting, hqueued, hreceived, waiting]
    refine ⟨⟨?_, ?_⟩, ?_, ?_⟩
    · rw [hqueued]
      exact hb.received
    · rw [hwaiting]
      exact hb.waiting_le
    · rw [if_neg hroom]
      simp only [subscription, hwaiting, hmissed, List.length_append, List.length_singleton]
      rfl
    · rw [if_neg hroom, hqueued, Nat.add_zero]

/-- A notification enters the account as the broker treats it. -/
lemma Balanced.notify (hb : h.Balanced bound) (service : String) (n : Notification) :
    (h.meet bound (.notify service n)).Balanced bound ∧
      Broker.deliver bound service n (h.subscription bound) =
        (h.meet bound (.notify service n)).subscription bound ∧
      ((h.meet bound (.notify service n)).queued bound).length = (h.queued bound).length +
        if Broker.reaches bound service n (h.subscription bound) then 1 else 0 := by
  have hwants : (h.subscription bound).wants service n.filter = h.topic.wants service n.filter :=
    Subscription.wants_eq _ _ _
  have hwaiting : (h.subscription bound).waiting = h.waiting bound := rfl
  have hmeet : h.meet bound (.notify service n) =
      if h.topic.wants service n.filter then h.offer bound n.reply else h := rfl
  unfold Broker.deliver Broker.reaches
  rw [hwants, hwaiting, hmeet]
  by_cases hasked : h.topic.wants service n.filter = true
  · obtain ⟨hbalanced, hsubscription, hlength⟩ := hb.offer n.reply
    rw [hasked, if_pos rfl, if_pos rfl]
    refine ⟨hbalanced, hsubscription, ?_⟩
    simpa using hlength
  · rw [if_neg hasked, if_neg hasked]
    refine ⟨hb, rfl, ?_⟩
    simp [hasked]

/-- Receiving the first of the waiting replies takes them from the subscription. -/
lemma Balanced.subscription_receive (hb : h.Balanced bound) {front back : List Reply}
    (hsplit : h.waiting bound = front ++ back) :
    ({ h with received := h.received ++ front } : Handle).subscription bound =
      { h.subscription bound with waiting := back } := by
  unfold subscription
  rw [hb.waiting_receive hsplit]
  rfl

/-- Every move keeps an account balanced. -/
lemma Balanced.meet (hb : h.Balanced bound) (m : Clientele.Move) : (h.meet bound m).Balanced bound := by
  cases m with
  | subscribe t => exact hb
  | drop id => exact hb
  | notify service n => exact (hb.notify service n).1
  | receive id =>
    simp only [Handle.meet]
    split
    · exact hb.receive (List.append_nil _).symm
    · exact hb
  | take id limit =>
    simp only [Handle.meet]
    split
    · exact hb.receive (List.take_append_drop limit _).symm
    · exact hb

end Balanced

section Meet

variable (bound : Nat) (h : Handle) (m : Clientele.Move)

/-- A move changes neither the number nor the topic of a handle. -/
lemma meet_frame : (h.meet bound m).id = h.id ∧ (h.meet bound m).topic = h.topic := by
  cases m with
  | subscribe t => exact ⟨rfl, rfl⟩
  | drop id => exact ⟨rfl, rfl⟩
  | notify service n => simp only [meet]; split <;> exact ⟨rfl, rfl⟩
  | receive id => simp only [meet]; split <;> exact ⟨rfl, rfl⟩
  | take id limit => simp only [meet]; split <;> exact ⟨rfl, rfl⟩

/-- A move enters the reply that the topic asks for, if it brings one. -/
lemma offers_meet :
    (h.meet bound m).offers.map Offering.item =
      h.offers.map Offering.item ++ (m.replyFor h.topic).toList := by
  cases m with
  | notify service n =>
    simp only [meet, Clientele.Move.replyFor]
    split
    · simp [offer]
    · simp
  | subscribe t => simp [meet, Clientele.Move.replyFor]
  | drop id => simp [meet, Clientele.Move.replyFor]
  | receive id =>
    simp only [meet, Clientele.Move.replyFor]
    split <;> simp
  | take id limit =>
    simp only [meet, Clientele.Move.replyFor]
    split <;> simp

/-- What does not concern a handle leaves its account as it is. -/
lemma meet_of_not_concerns (hm : m.concerns h.id = false) : h.meet bound m = h := by
  cases m with
  | subscribe t => rfl
  | drop id => rfl
  | notify service n => cases hm
  | receive id =>
    have hne : id ≠ h.id := beq_eq_false_iff_ne.mp hm
    exact if_neg hne.symm
  | take id limit =>
    have hne : id ≠ h.id := beq_eq_false_iff_ne.mp hm
    exact if_neg hne.symm

end Meet

end Handle

/-! ### All accounts -/

namespace Clientele

/-- Broker and accounts agree. -/
structure Kept (bound : Nat) (x : Clientele) : Prop where
  /-- The queues have this bound. -/
  capacity : x.broker.capacity = bound
  /-- The subscriptions are those that the accounts stand for. -/
  subscriptions : x.broker.subscriptions = x.handles.map fun h => h.subscription bound
  /-- Numbers are given away once. -/
  id_lt : ∀ h ∈ x.handles, h.id < x.broker.nextId
  /-- No two handles have the same number. -/
  nodup : (x.handles.map fun h => h.id).Nodup
  /-- Every account balances. -/
  balanced : ∀ h ∈ x.handles, h.Balanced bound
  /-- The broker counts what had a place in any queue. -/
  delivered : x.broker.delivered =
    ((x.handles ++ x.former).map fun h => (h.queued bound).length).sum

/-- The broker and the accounts before anything happens. -/
lemma kept_start (capacity : Nat) : (start capacity).Kept (max capacity 1) where
  capacity := rfl
  subscriptions := rfl
  id_lt := by simp [start]
  nodup := by simp [start]
  balanced := by simp [start]
  delivered := rfl

/-- A handle that is looked up has the number. -/
lemma id_of_handle? {x : Clientele} {id : Nat} {h : Handle} (hh : x.handle? id = some h) :
    h.id = id := by
  simpa using List.find?_some hh

/-- A handle that is looked up is live. -/
lemma mem_of_handle? {x : Clientele} {id : Nat} {h : Handle} (hh : x.handle? id = some h) :
    h ∈ x.handles := List.mem_of_find?_eq_some hh

namespace Kept

variable {bound : Nat} {x : Clientele}

/-- **The account of a handle determines its subscription.** -/
lemma get?_eq (hk : x.Kept bound) (id : Nat) :
    x.broker.get? id = (x.handle? id).map fun h => h.subscription bound := by
  unfold Broker.get? handle?
  rw [hk.subscriptions, List.find?_map]
  rfl

/-- Every live handle is found under its number. -/
lemma handle?_of_mem (hk : x.Kept bound) {h : Handle} (hh : h ∈ x.handles) :
    x.handle? h.id = some h := by
  have hnodup := hk.nodup
  unfold handle?
  revert hh hnodup
  induction x.handles with
  | nil => simp
  | cons u us ih =>
    intro hh hnodup
    rw [List.map_cons, List.nodup_cons] at hnodup
    rcases List.mem_cons.mp hh with rfl | hh
    · simp
    · have hne : u.id ≠ h.id := by
        intro heq
        exact hnodup.1 (heq ▸ List.mem_map_of_mem hh)
      rw [List.find?_cons_of_neg (by simpa using hne)]
      exact ih hh hnodup.2

/-- The broker tells how many replies wait for a live handle. -/
lemma waitingFor_eq (hk : x.Kept bound) {h : Handle} (hh : h ∈ x.handles) :
    x.broker.waitingFor h.id = (h.waiting bound).length := by
  rw [Broker.waitingFor, hk.get?_eq, hk.handle?_of_mem hh]
  rfl

/-- The broker hands out the replies that wait for a live handle. -/
lemma waiting_eq (hk : x.Kept bound) {h : Handle} (hh : h ∈ x.handles) :
    ((x.broker.get? h.id).map fun s => s.waiting).getD [] = h.waiting bound := by
  rw [hk.get?_eq, hk.handle?_of_mem hh]
  rfl

/-! ### Single moves -/

/-- A change of all accounts that the broker follows. -/
lemma map (hk : x.Kept bound) (f : Handle → Handle) (b : Broker) (hcapacity : b.capacity = bound)
    (hnext : b.nextId = x.broker.nextId) (hid : ∀ h, (f h).id = h.id)
    (hbalanced : ∀ h ∈ x.handles, (f h).Balanced bound)
    (hsubscriptions : b.subscriptions = (x.handles.map f).map fun h => h.subscription bound)
    (hdelivered : b.delivered =
      ((x.handles.map f ++ x.former).map fun h => (h.queued bound).length).sum) :
    ({ x with broker := b, handles := x.handles.map f } : Clientele).Kept bound where
  capacity := hcapacity
  subscriptions := hsubscriptions
  id_lt h hh := by
    obtain ⟨u, hu, rfl⟩ := List.mem_map.mp hh
    rw [hid, hnext]
    exact hk.id_lt u hu
  nodup := by
    have hids : (fun h : Handle => h.id) ∘ f = fun h => h.id := by
      funext h
      exact hid h
    rw [List.map_map, hids]
    exact hk.nodup
  balanced h hh := by
    obtain ⟨u, hu, rfl⟩ := List.mem_map.mp hh
    exact hbalanced u hu
  delivered := hdelivered

/-- Unless handles come or go, every account meets the move by itself. -/
lemma perform_eq (hk : x.Kept bound) {m : Move} (hm : m.isSteady = true) :
    x.perform m =
      { x with
        broker := (x.perform m).broker
        handles := x.handles.map fun h => h.meet bound m } := by
  have haccounts : (x.perform m).handles = x.handles.map fun h => h.meet bound m := by
    cases m with
    | subscribe t => cases hm
    | drop id => cases hm
    | notify service n =>
      refine List.map_congr_left fun h hh => ?_
      rw [hk.waitingFor_eq hh]
      rfl
    | receive id =>
      refine List.map_congr_left fun h hh => ?_
      simp only [Handle.meet]
      split
      · rename_i hid
        rw [← hk.waiting_eq hh, hid]
        rfl
      · rfl
    | take id limit =>
      refine List.map_congr_left fun h hh => ?_
      simp only [Handle.meet]
      split
      · rename_i hid
        rw [← hk.waiting_eq hh, hid]
        rfl
      · rfl
  rw [← haccounts]
  cases m with
  | subscribe t => cases hm
  | drop id => cases hm
  | notify service n => rfl
  | receive id => rfl
  | take id limit => rfl

/-- A subscription at a broker that agrees with the accounts. -/
lemma subscribe (hk : x.Kept bound) (t : Topic) : (x.perform (.subscribe t)).Kept bound where
  capacity := hk.capacity
  subscriptions := by
    simp only [perform, Broker.subscribe, List.map_append, hk.subscriptions]
    rfl
  id_lt h hh := by
    simp only [perform, Broker.subscribe, List.mem_append, List.mem_singleton] at hh ⊢
    rcases hh with hh | rfl
    · have := hk.id_lt h hh
      omega
    · dsimp only
      omega
  nodup := by
    simp only [perform, Broker.subscribe, List.map_append, List.map_singleton]
    refine List.nodup_append.mpr ⟨hk.nodup, by simp, ?_⟩
    intro id hid other hother
    obtain ⟨h, hh, rfl⟩ := List.mem_map.mp hid
    obtain rfl := List.mem_singleton.mp hother
    exact Nat.ne_of_lt (hk.id_lt h hh)
  balanced h hh := by
    simp only [perform, List.mem_append, List.mem_singleton] at hh
    rcases hh with hh | rfl
    · exact hk.balanced h hh
    · exact ⟨List.prefix_rfl, Nat.zero_le _⟩
  delivered := by
    have hnew : (Handle.queued bound { id := x.broker.nextId, topic := t }).length = 0 := rfl
    have hdelivered := hk.delivered
    simp only [perform, Broker.subscribe, List.map_append, List.sum_append, List.map_singleton,
      List.sum_singleton, hnew, Nat.add_zero] at hdelivered ⊢
    exact hdelivered

/-- The sum over some handles and over the others is the sum over all. -/
lemma sum_filter_add (p : Handle → Bool) (f : Handle → Nat) (hs : List Handle) :
    ((hs.filter p).map f).sum + ((hs.filter fun h => !p h).map f).sum = (hs.map f).sum := by
  induction hs with
  | nil => rfl
  | cons h hs ih => cases hp : p h <;> simp [hp] <;> omega

/-- A handle that is dropped. -/
lemma drop (hk : x.Kept bound) (id : Nat) : (x.perform (.drop id)).Kept bound where
  capacity := hk.capacity
  subscriptions := by
    simp only [perform, Broker.unsubscribe, hk.subscriptions, List.filter_map]
    rfl
  id_lt h hh := hk.id_lt h (List.mem_of_mem_filter hh)
  nodup := hk.nodup.sublist (List.filter_sublist.map _)
  balanced h hh := hk.balanced h (List.mem_of_mem_filter hh)
  delivered := by
    have hparts := sum_filter_add (fun h => h.id = id) (fun h => (h.queued bound).length) x.handles
    have hdelivered := hk.delivered
    simp only [perform, Broker.unsubscribe, List.map_append, List.sum_append, ne_eq,
      decide_not] at hdelivered ⊢
    omega

/-- A notification is counted once for every queue that it has a place in. -/
lemma sum_notify (service : String) (n : Notification) (hs : List Handle)
    (hbalanced : ∀ h ∈ hs, h.Balanced bound) :
    ((hs.map fun h => h.meet bound (.notify service n)).map fun h => (h.queued bound).length).sum =
      (hs.map fun h => (h.queued bound).length).sum +
        (hs.map fun h => h.subscription bound).countP (Broker.reaches bound service n) := by
  induction hs with
  | nil => rfl
  | cons h hs ih =>
    have hone := ((hbalanced h (by simp)).notify service n).2.2
    have hrest := ih fun u hu => hbalanced u (by simp [hu])
    simp only [List.map_cons, List.sum_cons, List.countP_cons] at hrest ⊢
    omega

/-- A notification at a broker that agrees with the accounts. -/
lemma notify (hk : x.Kept bound) (service : String) (n : Notification) :
    (x.perform (.notify service n)).Kept bound := by
  rw [hk.perform_eq rfl]
  apply hk.map (fun h => h.meet bound (.notify service n)) (x.broker.notify service n) hk.capacity
    rfl (fun h => (h.meet_frame bound _).1)
  · exact fun h hh => (hk.balanced h hh).meet _
  · change x.broker.subscriptions.map (Broker.deliver x.broker.capacity service n) = _
    rw [hk.subscriptions, List.map_map, List.map_map, hk.capacity]
    exact List.map_congr_left fun h hh => ((hk.balanced h hh).notify service n).2.1
  · change x.broker.delivered + x.broker.subscriptions.countP _ = _
    have hsum := sum_notify service n x.handles hk.balanced
    rw [hk.delivered, hk.subscriptions, hk.capacity, List.map_append, List.sum_append,
      List.map_append, List.sum_append, hsum]
    omega

/-- Taking replies from a broker that agrees with the accounts. -/
lemma hand (hk : x.Kept bound) {m : Move} {id : Nat} (taken : List Reply)
    (rest : List Reply → List Reply) (hm : m.isSteady = true)
    (hbroker : (x.perform m).broker =
      { x.broker with
        subscriptions := x.broker.subscriptions.map fun s =>
          if s.id = id then { s with waiting := rest s.waiting } else s })
    (hmeet : ∀ h ∈ x.handles, h.meet bound m =
      if h.id = id then { h with received := h.received ++ taken } else h)
    (hsplit : ∀ h ∈ x.handles, h.id = id → h.waiting bound = taken ++ rest (h.waiting bound)) :
    (x.perform m).Kept bound := by
  rw [hk.perform_eq hm]
  apply hk.map (fun h => h.meet bound m) _ (by rw [hbroker, hk.capacity]) (by rw [hbroker])
    (fun h => (h.meet_frame bound m).1)
  · exact fun h hh => (hk.balanced h hh).meet _
  · rw [hbroker]
    dsimp only
    rw [hk.subscriptions, List.map_map, List.map_map]
    refine List.map_congr_left fun h hh => ?_
    dsimp only [Function.comp]
    rw [hmeet h hh]
    by_cases hid : h.id = id
    · rw [if_pos hid, (hk.balanced h hh).subscription_receive (hsplit h hh hid)]
      exact if_pos hid
    · rw [if_neg hid]
      exact if_neg hid
  · have hqueued : (x.handles.map fun h => h.meet bound m).map (fun h => (h.queued bound).length) =
        x.handles.map fun h => (h.queued bound).length := by
      rw [List.map_map]
      refine List.map_congr_left fun h hh => ?_
      dsimp only [Function.comp]
      rw [hmeet h hh]
      split <;> rfl
    rw [hbroker, List.map_append, hqueued, ← List.map_append]
    exact hk.delivered

/-- **Every move keeps broker and accounts in agreement.** -/
theorem perform (hk : x.Kept bound) (m : Move) : (x.perform m).Kept bound := by
  cases m with
  | subscribe t => exact hk.subscribe t
  | drop id => exact hk.drop id
  | notify service n => exact hk.notify service n
  | receive id =>
    have htaken : ∀ h ∈ x.handles, h.id = id → (x.broker.receive id).1 = h.waiting bound := by
      rintro h hh rfl
      exact hk.waiting_eq hh
    refine hk.hand (x.broker.receive id).1 (fun _ => []) rfl rfl ?_ ?_
    · intro h hh
      simp only [Handle.meet]
      split
      · rename_i hid
        rw [htaken h hh hid]
      · rfl
    · intro h hh hid
      rw [htaken h hh hid, List.append_nil]
  | take id limit =>
    have htaken : ∀ h ∈ x.handles, h.id = id →
        (x.broker.take id limit).1 = (h.waiting bound).take limit := by
      rintro h hh rfl
      exact congrArg (List.take limit) (hk.waiting_eq hh)
    refine hk.hand (x.broker.take id limit).1 (List.drop limit) rfl rfl ?_ ?_
    · intro h hh
      simp only [Handle.meet]
      split
      · rename_i hid
        rw [htaken h hh hid]
      · rfl
    · intro h hh hid
      rw [htaken h hh hid, List.take_append_drop]

/-- Every run keeps broker and accounts in agreement. -/
lemma run (hk : x.Kept bound) (moves : List Move) : (x.run moves).Kept bound := by
  induction moves generalizing x with
  | nil => exact hk
  | cons m moves ih => exact ih (hk.perform m)

/-! ### One account in a run -/

/-- A new handle has an empty account. -/
lemma handle?_subscribe (hk : x.Kept bound) (t : Topic) :
    (x.perform (.subscribe t)).handle? x.broker.nextId =
      some { id := x.broker.nextId, topic := t } := by
  have hlive : ({ id := x.broker.nextId, topic := t } : Handle) ∈
      (x.perform (.subscribe t)).handles := by
    simp [Clientele.perform, Broker.subscribe]
  exact (hk.subscribe t).handle?_of_mem hlive

/-- **A move changes an account by itself**, whatever the other accounts are. -/
lemma handle?_perform (hk : x.Kept bound) {id : Nat} {h : Handle} (hh : x.handle? id = some h)
    {m : Move} (hm : .drop id ≠ m) : (x.perform m).handle? id = some (h.meet bound m) := by
  obtain rfl := id_of_handle? hh
  have hmem := mem_of_handle? hh
  have hid := (h.meet_frame bound m).1
  suffices hlive : h.meet bound m ∈ (x.perform m).handles by
    rw [← hid]
    exact (hk.perform m).handle?_of_mem hlive
  by_cases hsteady : m.isSteady = true
  · rw [hk.perform_eq hsteady]
    exact List.mem_map_of_mem hmem
  · cases m with
    | subscribe t => exact List.mem_append_left _ hmem
    | drop other =>
      have hne : h.id ≠ other := fun heq => hm (heq ▸ rfl)
      exact List.mem_filter.mpr ⟨hmem, decide_eq_true hne⟩
    | notify service n => exact absurd rfl hsteady
    | receive other => exact absurd rfl hsteady
    | take other limit => exact absurd rfl hsteady

/-- **A run changes an account by itself**, whatever the other accounts are. -/
theorem handle?_run (moves : List Move) {x : Clientele} (hk : x.Kept bound) {id : Nat} {h : Handle}
    (hh : x.handle? id = some h) (hlive : .drop id ∉ moves) :
    (x.run moves).handle? id = some (moves.foldl (fun h m => h.meet bound m) h) := by
  induction moves generalizing x h with
  | nil => exact hh
  | cons m moves ih =>
    rw [List.mem_cons, not_or] at hlive
    exact ih (hk.perform m) (hk.handle?_perform hh hlive.1) hlive.2

end Kept

/-- Where a handle comes from that is live after a move. -/
lemma mem_handles_perform {x : Clientele} {m : Move} {h : Handle} (hh : h ∈ (x.perform m).handles) :
    (∃ u ∈ x.handles, u.id = h.id ∧ u.topic = h.topic ∧ .drop h.id ≠ m) ∨
      (m = .subscribe h.topic ∧ h.id = x.broker.nextId) := by
  cases m with
  | subscribe t =>
    rcases List.mem_append.mp hh with hh | hh
    · exact .inl ⟨h, hh, rfl, rfl, by simp⟩
    · obtain rfl := List.mem_singleton.mp hh
      exact .inr ⟨rfl, rfl⟩
  | drop id =>
    obtain ⟨hmem, hne⟩ := List.mem_filter.mp hh
    refine .inl ⟨h, hmem, rfl, rfl, ?_⟩
    simpa using hne
  | notify service n =>
    obtain ⟨u, hu, rfl⟩ := List.mem_map.mp hh
    refine .inl ⟨u, hu, ?_, ?_, by simp⟩ <;> split <;> rfl
  | receive id =>
    obtain ⟨u, hu, rfl⟩ := List.mem_map.mp hh
    refine .inl ⟨u, hu, ?_, ?_, by simp⟩ <;> split <;> rfl
  | take id limit =>
    obtain ⟨u, hu, rfl⟩ := List.mem_map.mp hh
    refine .inl ⟨u, hu, ?_, ?_, by simp⟩ <;> split <;> rfl

/-- One more move. -/
lemma run_append (x : Clientele) (moves more : List Move) :
    x.run (moves ++ more) = (x.run moves).run more := List.foldl_append

/-- **Every live handle was subscribed and not dropped since.** -/
lemma exists_subscribe (capacity : Nat) (moves : List Move) {h : Handle}
    (hh : h ∈ ((start capacity).run moves).handles) :
    ∃ before after, moves = before ++ .subscribe h.topic :: after ∧
      h.id = ((start capacity).run before).broker.nextId ∧ .drop h.id ∉ after := by
  induction moves using List.reverseRecOn generalizing h with
  | nil => simp [run, start] at hh
  | append_singleton moves m ih =>
    rw [run_append] at hh
    rcases mem_handles_perform hh with ⟨u, hu, hid, htopic, hm⟩ | ⟨rfl, hid⟩
    · obtain ⟨before, after, rfl, hnext, hlive⟩ := ih hu
      rw [hid] at hnext hlive
      refine ⟨before, after ++ [m], by simp [htopic], hnext, ?_⟩
      rw [List.mem_append, not_or]
      exact ⟨hlive, by simpa using hm⟩
    · exact ⟨moves, [], rfl, hid, by simp⟩

end Clientele

namespace Handle

/-- An account is changed by what concerns its handle only. -/
lemma foldl_meet_filter (bound : Nat) (moves : List Clientele.Move) (h : Handle) :
    (moves.filter fun m => m.concerns h.id).foldl (fun h m => h.meet bound m) h =
      moves.foldl (fun h m => h.meet bound m) h := by
  induction moves generalizing h with
  | nil => rfl
  | cons m moves ih =>
    have hid := (h.meet_frame bound m).1
    have hrest := ih (h.meet bound m)
    rw [hid] at hrest
    cases hm : m.concerns h.id with
    | true => rw [List.filter_cons_of_pos hm, List.foldl_cons, List.foldl_cons, hrest]
    | false =>
      rw [meet_of_not_concerns bound h m hm] at hrest
      rw [List.filter_cons_of_neg (by simp [hm]), List.foldl_cons,
        meet_of_not_concerns bound h m hm, hrest]

/-- An account lists the replies that the topic has asked for. -/
lemma offers_foldl_meet (bound : Nat) (moves : List Clientele.Move) (h : Handle) :
    (moves.foldl (fun h m => h.meet bound m) h).offers.map Offering.item =
      h.offers.map Offering.item ++ moves.filterMap (Clientele.Move.replyFor h.topic) := by
  induction moves generalizing h with
  | nil => simp
  | cons m moves ih =>
    rw [List.foldl_cons, ih, (h.meet_frame bound m).2, offers_meet, List.append_assoc]
    cases hm : m.replyFor h.topic with
    | none => simp [hm]
    | some reply => simp [hm]

/-- A run changes neither the number nor the topic of a handle. -/
lemma foldl_meet_frame (bound : Nat) (moves : List Clientele.Move) (h : Handle) :
    (moves.foldl (fun h m => h.meet bound m) h).id = h.id ∧
      (moves.foldl (fun h m => h.meet bound m) h).topic = h.topic := by
  induction moves generalizing h with
  | nil => exact ⟨rfl, rfl⟩
  | cons m moves ih =>
    obtain ⟨hid, htopic⟩ := ih (h.meet bound m)
    exact ⟨hid.trans (h.meet_frame bound m).1, htopic.trans (h.meet_frame bound m).2⟩

end Handle

/-! ### The listed topics -/

namespace Broker

/-- **The listed topics are those of the subscriptions**, whether their parameters make a filter or
not. -/
lemma mem_active (b : Broker) (t : Topic) : t ∈ b.active ↔ ∃ s ∈ b.subscriptions, s.topic = t := by
  unfold active
  rw [Table.mem_keys_ofList, List.map_map]
  simp

/-- The topics are listed in strictly ascending order. -/
lemma active_ascending (b : Broker) : b.active.Pairwise fun t u => compare t u = .lt := by
  have hascending := (Table.ofList (b.subscriptions.map fun s => (s.topic, ()))).ascending
  unfold Ascending at hascending
  rw [active, Table.keys, List.pairwise_map]
  exact hascending

/-- The end of a subscription removes just this one. -/
lemma get?_unsubscribe_eq (b : Broker) (id other : Nat) :
    (b.unsubscribe other).get? id = if id = other then none else b.get? id := by
  unfold get? unsubscribe
  dsimp only
  rw [List.find?_filter]
  by_cases hid : id = other
  · rw [if_pos hid, List.find?_eq_none]
    intro s _
    simp [hid]
  · rw [if_neg hid]
    congr 1
    funext s
    by_cases hs : s.id = id
    · simp [hs, hid]
    · simp [hs]

end Broker

/-! ### The accounts of a run -/

namespace Clientele

namespace Kept

variable {bound : Nat} {x : Clientele}

/-- As many subscriptions are counted as there are live handles. -/
lemma size_eq (hk : x.Kept bound) : x.broker.size = x.handles.length := by
  rw [Broker.size, hk.subscriptions, List.length_map]

/-- A live handle has a subscription that its account explains. -/
lemma explained (hk : x.Kept bound) {h : Handle} (hh : h ∈ x.handles) :
    ∃ s, x.broker.get? h.id = some s ∧ s.topic = h.topic ∧
      h.received ++ s.waiting = Offering.accepted bound h.offers ∧
      s.dropped = (Offering.refused bound h.offers).length ∧ s.waiting.length ≤ bound := by
  have hb := hk.balanced h hh
  refine ⟨h.subscription bound, ?_, rfl, hb.ledger, rfl, hb.waiting_le⟩
  rw [hk.get?_eq, hk.handle?_of_mem hh]
  rfl

/-- A handle that is dropped takes its own subscription away. -/
lemma drop_exact (hk : x.Kept bound) {h : Handle} (hh : h ∈ x.handles) :
    let y := x.perform (.drop h.id)
    y.broker.size + 1 = x.broker.size ∧ y.broker.get? h.id = none ∧
      ∀ id, id ≠ h.id → y.broker.get? id = x.broker.get? id := by
  intro y
  have hget : ∀ id, y.broker.get? id = if id = h.id then none else x.broker.get? id :=
    fun id => x.broker.get?_unsubscribe_eq id h.id
  refine ⟨?_, by simp [hget], fun id hid => by rw [hget, if_neg hid]⟩
  have hone : x.handles.countP (fun u => u.id = h.id) = 1 := by
    have hcount := List.count_eq_one_of_mem hk.nodup (List.mem_map_of_mem hh)
    rw [List.count, List.countP_map] at hcount
    exact hcount
  have hsplit := List.length_eq_countP_add_countP (fun u : Handle => u.id = h.id) (l := x.handles)
  rw [hone] at hsplit
  have hleft : (x.perform (.drop h.id)).handles.length =
      x.handles.countP fun u => ¬(decide (u.id = h.id) = true) := by
    rw [List.countP_eq_length_filter]
    change (x.handles.filter fun u => u.id ≠ h.id).length = _
    simp
  rw [(hk.drop h.id).size_eq, hk.size_eq, hsplit, hleft, Nat.add_comm]

/-- **The fate of a handle does not depend on other handles.** If it has the same account in two
clienteles, and what concerns it is the same in two runs, it has the same account and the same
subscription afterwards. -/
lemma isolated (hk : x.Kept bound) {y : Clientele} (hy : y.Kept bound) {id : Nat}
    (hlive : (x.handle? id).isSome) (hsame : y.handle? id = x.handle? id) {more more' : List Move}
    (hdrop : .drop id ∉ more)
    (hmoves : more.filter (Move.concerns id) = more'.filter (Move.concerns id)) :
    (x.run more).handle? id = (y.run more').handle? id ∧
      (x.run more).broker.get? id = (y.run more').broker.get? id := by
  obtain ⟨h, hh⟩ := Option.isSome_iff_exists.mp hlive
  have hdrop' : .drop id ∉ more' := by
    intro hmem
    have hconcerns : .drop id ∈ more.filter (Move.concerns id) := by
      rw [hmoves]
      exact List.mem_filter.mpr ⟨hmem, by simp [Move.concerns]⟩
    exact hdrop (List.mem_of_mem_filter hconcerns)
  have haccounts : (x.run more).handle? id = (y.run more').handle? id := by
    rw [handle?_run more hk hh hdrop, handle?_run more' hy (hsame.trans hh) hdrop',
      ← h.foldl_meet_filter bound more, ← h.foldl_meet_filter bound more', id_of_handle? hh, hmoves]
  refine ⟨haccounts, ?_⟩
  rw [(hk.run more).get?_eq, (hy.run more').get?_eq, haccounts]

/-- A client that subscribes and does not drop its handle has an account of what its topic has asked
for since then. -/
lemma exists_handle (hk : x.Kept bound) (t : Topic) {after : List Move}
    (hlive : .drop x.broker.nextId ∉ after) :
    ∃ h ∈ (x.run (.subscribe t :: after)).handles, h.id = x.broker.nextId ∧ h.topic = t ∧
      h.offers.map Offering.item = after.filterMap (Move.replyFor t) := by
  have hrun := handle?_run after (hk.perform (.subscribe t)) (hk.handle?_subscribe t) hlive
  refine ⟨_, mem_of_handle? hrun, id_of_handle? hrun, (Handle.foldl_meet_frame bound after _).2, ?_⟩
  rw [Handle.offers_foldl_meet]
  rfl

end Kept

/-- **The accounts of the clients, in every run of a broker.**

* What a client has received, followed by what waits for it, is in order what its topic has asked
  for since it subscribed, without the replies that found the queue full, and those are counted as
  dropped. The live handles are those that were subscribed and not dropped.
* What becomes of a handle does not depend on who else is there and on what the others do.
* A handle that is dropped takes its own subscription away and no other.
* The broker counts the live handles and all replies ever queued, for past handles as well, and it
  lists the topics of the live handles once each, in strictly ascending order. -/
theorem accounts_exact (capacity : Nat) (moves : List Move) :
    let x := (start capacity).run moves
    let bound := max capacity 1
    (∀ h ∈ x.handles,
      (∃ s, x.broker.get? h.id = some s ∧ s.topic = h.topic ∧
        h.received ++ s.waiting = Offering.accepted bound h.offers ∧
        s.dropped = (Offering.refused bound h.offers).length ∧ s.waiting.length ≤ bound) ∧
      ∃ before after, moves = before ++ .subscribe h.topic :: after ∧
        h.id = ((start capacity).run before).broker.nextId ∧ .drop h.id ∉ after ∧
        h.offers.map Offering.item = after.filterMap (Move.replyFor h.topic)) ∧
    (∀ before t after, moves = before ++ .subscribe t :: after →
      let id := ((start capacity).run before).broker.nextId
      .drop id ∉ after → ∃ h ∈ x.handles, h.id = id ∧ h.topic = t) ∧
    (∀ (moves' more more' : List Move) (id : Nat), (x.handle? id).isSome →
      let y := (start capacity).run moves'
      y.handle? id = x.handle? id → .drop id ∉ more →
      more.filter (Move.concerns id) = more'.filter (Move.concerns id) →
        (x.run more).handle? id = (y.run more').handle? id ∧
          (x.run more).broker.get? id = (y.run more').broker.get? id) ∧
    (∀ h ∈ x.handles,
      let y := x.perform (.drop h.id)
      y.broker.size + 1 = x.broker.size ∧ y.broker.get? h.id = none ∧
        ∀ id, id ≠ h.id → y.broker.get? id = x.broker.get? id) ∧
    x.broker.size = x.handles.length ∧ (x.handles.map fun h => h.id).Nodup ∧
    x.broker.delivered = ((x.handles ++ x.former).map fun h =>
      (Offering.accepted bound h.offers).length).sum ∧
    x.broker.active.Pairwise (fun t u => compare t u = .lt) ∧
    ∀ t, t ∈ x.broker.active ↔ ∃ h ∈ x.handles, h.topic = t := by
  intro x bound
  have hkept : ∀ more, ((start capacity).run more).Kept bound := (kept_start capacity).run
  have hk : x.Kept bound := hkept moves
  have hsubscribed : ∀ before t after, moves = before ++ .subscribe t :: after →
      .drop ((start capacity).run before).broker.nextId ∉ after →
      ∃ h ∈ x.handles, h.id = ((start capacity).run before).broker.nextId ∧ h.topic = t ∧
        h.offers.map Offering.item = after.filterMap (Move.replyFor t) := by
    rintro before t after rfl hlive
    have hhandle := (hkept before).exists_handle t hlive
    rwa [← run_append] at hhandle
  refine ⟨fun h hh => ⟨hk.explained hh, ?_⟩, ?_, ?_, fun h hh => hk.drop_exact hh, hk.size_eq,
    hk.nodup, hk.delivered, x.broker.active_ascending, ?_⟩
  · obtain ⟨before, after, hsplit, hid, hlive⟩ := exists_subscribe capacity moves hh
    refine ⟨before, after, hsplit, hid, hlive, ?_⟩
    obtain ⟨u, hu, huid, -, hoffers⟩ := hsubscribed before h.topic after hsplit (hid ▸ hlive)
    -- Numbers are unique, so the handle of the subscription is this one.
    have hsame : some u = some h := by
      rw [← hk.handle?_of_mem hu, ← hk.handle?_of_mem hh, huid, hid]
    rw [Option.some.inj hsame] at hoffers
    exact hoffers
  · intro before t after hsplit id hlive
    obtain ⟨h, hh, hid, htopic, -⟩ := hsubscribed before t after hsplit hlive
    exact ⟨h, hh, hid, htopic⟩
  · intro moves' more more' id hlive y hsame hdrop hmoves
    exact hk.isolated (hkept moves') hlive hsame hdrop hmoves
  · intro t
    rw [Broker.mem_active, hk.subscriptions]
    simp [Handle.subscription]

/-- A topic for one channel, and a topic without a filter. -/
def sampleTopics : Topic × Topic :=
  (⟨"/daq", Table.ofList [(Filter.channelsParam, "A")]⟩,
    ⟨"/daq", Table.ofList [(Filter.preParam, "many")]⟩)

/-- A first client and one without a filter subscribe, the service notifies twice, the first client
receives, and a third one subscribes before the last notification. -/
def sampleMoves : List Move :=
  let n : Move := .notify "/daq" ⟨{ channels := "A" }, default⟩
  [.subscribe sampleTopics.1, .subscribe sampleTopics.2, n, n, .receive 1,
    .subscribe sampleTopics.1, n]

/-- With room for one reply, the first client misses the second of three, and the third client gets
the last; of the two topics, one is listed although it is never served. -/
theorem accounts_exact_sample :
    let x := (start 0).run sampleMoves
    x.broker.size = 3 ∧ x.broker.delivered = 3 ∧
      (∃ s, x.broker.get? 1 = some s ∧ s.dropped = 1 ∧ s.waiting = [default]) ∧
      sampleTopics.1 ∈ x.broker.active ∧ sampleTopics.2 ∈ x.broker.active := by
  intro x
  obtain ⟨haccounts, -, -, -, hsize, -, hdelivered, -, hactive⟩ := accounts_exact 0 sampleMoves
  have hfirst : ∃ h ∈ x.handles, h.id = 1 ∧ h.received = [default] ∧
      Offering.accepted (max 0 1) h.offers = [default, default] ∧
      (Offering.refused (max 0 1) h.offers).length = 1 := by decide +kernel
  obtain ⟨h, hh, hid, hreceived, haccepted, hrefused⟩ := hfirst
  obtain ⟨⟨s, hs, -, hledger, hdropped, -⟩, -⟩ := haccounts h hh
  refine ⟨?_, ?_, ⟨s, hid ▸ hs, hdropped.trans hrefused, ?_⟩, ?_, ?_⟩
  · rw [hsize]
    decide +kernel
  · rw [hdelivered]
    decide +kernel
  · rw [hreceived, haccepted] at hledger
    simpa using hledger
  · rw [hactive]
    decide +kernel
  · rw [hactive]
    decide +kernel

end Clientele

end Daq
