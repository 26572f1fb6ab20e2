import Daq.Reply
import Daq.Topic

set_option autoImplicit false

/-!
# Brokers

A broker connects the service with its subscribers. Each subscription has a topic and a bounded
queue of its own; a reply that finds the queue full is dropped for that subscriber and counted.
A topic whose parameters make no filter is listed but never served.

## Main definitions

* `Daq.Subscription` — one subscriber's queue.
* `Daq.Broker` — the live subscriptions.
* `Daq.Broker.notify` — delivery of a reply.
* `Daq.Broker.active` — the distinct topics.
-/

namespace Daq

/-- A reply on its way to the subscribers. -/
structure Notification where
  /-- The filter that the reply answers, narrowed to one channel. -/
  filter : Filter
  /-- The reply. -/
  reply : Reply
  deriving DecidableEq

/-- One subscriber's end. -/
structure Subscription where
  /-- The number of the subscription. -/
  id : Nat
  /-- What was subscribed to. -/
  topic : Topic
  /-- The replies that wait, oldest first. -/
  waiting : List Reply := []
  /-- The number of replies that found the queue full. -/
  dropped : Nat := 0
  deriving DecidableEq

namespace Subscription

/-- The filter of the topic, if its parameters make one. -/
def filter? (s : Subscription) : Option Filter := (Filter.ofParams s.topic.params).toOption

/-- Whether a notification of `service` belongs to the subscription. -/
def wants (s : Subscription) (service : String) (notification : Filter) : Bool :=
  s.topic.path == service && s.filter?.any fun f => f.accepts notification

/-- Queue a reply, or drop and count it if `capacity` replies wait. -/
def offer (capacity : Nat) (reply : Reply) (s : Subscription) : Subscription :=
  if s.waiting.length < capacity then { s with waiting := s.waiting ++ [reply] }
  else { s with dropped := s.dropped + 1 }

end Subscription

/-- The live subscriptions. -/
structure Broker where
  /-- The greatest number of replies that wait for one subscriber. -/
  capacity : Nat
  /-- The subscriptions, oldest first. -/
  subscriptions : List Subscription := []
  /-- The number of the next subscription. -/
  nextId : Nat := 1
  /-- The number of replies ever queued. -/
  delivered : Nat := 0
  deriving DecidableEq

namespace Broker

/-- A broker without subscriptions whose queues hold at least one reply. -/
def ofCapacity (capacity : Nat) : Broker := { capacity := max capacity 1 }

/-- The number of live subscriptions. -/
def size (b : Broker) : Nat := b.subscriptions.length

/-- Subscribe to a topic; the number of the subscription and the broker with it. -/
def subscribe (b : Broker) (topic : Topic) : Nat × Broker :=
  (b.nextId,
    { b with
      subscriptions := b.subscriptions ++ [{ id := b.nextId, topic }]
      nextId := b.nextId + 1 })

/-- End a subscription. -/
def unsubscribe (b : Broker) (id : Nat) : Broker :=
  { b with subscriptions := b.subscriptions.filter fun s => s.id ≠ id }

/-- The subscription with this number. -/
def get? (b : Broker) (id : Nat) : Option Subscription := b.subscriptions.find? fun s => s.id == id

/-- Take all replies that wait for a subscriber. -/
def receive (b : Broker) (id : Nat) : List Reply × Broker :=
  (((b.get? id).map (·.waiting)).getD [],
    { b with
      subscriptions := b.subscriptions.map fun s => if s.id = id then { s with waiting := [] } else s })

/-- Offer a reply to a subscription if the notification belongs to it. -/
def deliver (capacity : Nat) (service : String) (n : Notification) (s : Subscription) :
    Subscription :=
  if s.wants service n.filter then s.offer capacity n.reply else s

/-- Whether a notification reaches the queue of a subscription. -/
def reaches (capacity : Nat) (service : String) (n : Notification) (s : Subscription) : Bool :=
  s.wants service n.filter && s.waiting.length < capacity

/-- Deliver a reply to every subscription that the notification belongs to. -/
def notify (b : Broker) (service : String) (n : Notification) : Broker :=
  { b with
    subscriptions := b.subscriptions.map (deliver b.capacity service n)
    delivered := b.delivered + b.subscriptions.countP (reaches b.capacity service n) }

/-- Deliver replies one after the other. -/
def notifyAll (b : Broker) (service : String) (ns : List Notification) : Broker :=
  ns.foldl (fun b n => b.notify service n) b

/-- The distinct topics of the live subscriptions, in order. -/
def active (b : Broker) : List Topic :=
  (Table.ofList (b.subscriptions.map fun s => (s.topic, ()))).keys

/-! ### Subscriptions by name -/

/-- Subscribe under a name. A subscription that had the name is ended, once the new one exists. -/
def subscribeAs (b : Broker) (names : Table String Nat) (name : String) (topic : Topic) :
    Broker × Table String Nat :=
  let (id, b) := b.subscribe topic
  ((names.get? name).elim b b.unsubscribe, names.insert name id)

/-- The subscription under a name. -/
def named? (b : Broker) (names : Table String Nat) (name : String) : Option Subscription :=
  (names.get? name).bind b.get?

/-- The text of a broker in diagnostics. -/
def render (b : Broker) : String :=
  "Broker \x7b subscribers: " ++ toString b.size ++ ", capacity: " ++ toString b.capacity ++ " \x7d"

end Broker

end Daq
