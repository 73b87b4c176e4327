import EventBroker.Bus
import EventBroker.Chain
import EventBroker.Journal
import EventBroker.LogLine
import EventBroker.Observers
import EventBroker.Registry
import EventBroker.StickyStore
import EventBroker.Vault

/-!
The state of a broker. Requests change it at once; the rest is done by workers, one step at a
time: two couriers that empty the delivery queues, the sequencer of ordered chains, and, if there
are observers, a listener and the observers. A worker that hands an event to a receiver keeps the
`Notice` until it is told how the hand-off ended.
-/

namespace EventBroker

inductive Lane
  | fresh
  | replay
  deriving DecidableEq

def Lane.name : Lane → String
  | fresh => "fresh"
  | replay => "replay"

inductive Worker
  | listener
  | observer (index : Nat)
  | courier (lane : Lane)
  | sequencer
  deriving DecidableEq

/-- A hand-off in progress. The final receiver of a chain is no subscriber. -/
structure Notice where
  receiver : Receiver
  subscriber : Option Subscriber
  copy : Copy
  flags : Flags
  chain : Option ChainId
  startedAt : Instant

structure Delivery where
  target : SubscriberId
  copy : Copy
  flags : Flags

inductive Job
  | broadcast (copy : Copy) (flags : Flags) (targets : List SubscriberId)
  | replay (held : List (Held Copy))

/-- Held events come unordered, and not as sticky values, whatever they were published as. -/
def Job.deliveries : Job → List Delivery
  | broadcast copy flags targets => targets.map fun t => ⟨t, copy, flags⟩
  | replay held => held.map fun h => ⟨h.subscriber.id, h.item, ⟨false, false⟩⟩

inductive CourierStage
  | waiting
  | carrying (left : List Delivery)
  | handing (notice : Notice) (left : List Delivery)
  | stopped

structure DeliveryQueue where
  room : Nat
  jobs : List Job := []
  courier : CourierStage := .waiting

inductive Command
  | enqueue (chain : Chain)
  | finish (receiver : SubscriberId) (code : Int) (data : String) (abort : Bool) (caller : Nat)
  | release (receiver : SubscriberId) (caller : Nat)
  | active (receiver : SubscriberId) (caller : Nat)

inductive SequencerStage
  | listening
  | pumping
  | handing (notice : Notice) (index : Nat)
  | closing (notice : Notice) (chain : Chain) (reason : FinishReason)
  | stopped

structure Sequencer where
  commands : List Command := []
  pending : List Chain := []
  active : Option Chain := none
  stage : SequencerStage := .listening

inductive ListenerStage
  | listening
  | draining
  | stopped
  deriving DecidableEq

structure Listener where
  reader : Nat
  stage : ListenerStage := .listening

/-- What the sequencer answers a caller; `lost` when it stopped without answering. -/
inductive Answer
  | outcome (o : Outcome)
  | snapshot (s : Option ChainSnapshot)
  | released (r : Bool)
  | lost

inductive Departure
  | unsubscribed
  | ownerDied (pid : Pid)

def Departure.reason : Departure → String
  | unsubscribed => "unsubscribed"
  | ownerDied _ => "owner died"

/-- Subscriptions on their way out: the one whose chain is being released, and those after it. -/
structure Retirement where
  cause : Departure
  total : Nat
  current : Subscriber
  dropped : Nat
  rest : List Subscriber

inductive Waiting
  | finish
  | active
  | retire (r : Retirement)
  | shutdown (workers : List Worker)

structure Call where
  waiting : Waiting
  answer : Option Answer := none

inductive Occurrence
  | record (r : Record)
  | logged (l : LogLine)
  | killed (pid : Pid) (reason : String)
  | remembered (p : Publication)
  | announced (p : Publication)
  | notifying (w : Worker) (n : Notice)
  | notified (w : Worker) (n : Notice) (result : Except DeliveryError Unit)
  | observing (observer : Nat) (r : Record)
  | queued (w : Worker)
  | cancelled
  | stopped (w : Worker)

structure Broker where
  config : Config
  oracle : Oracle
  bundleOf : Uid → Option String
  now : Instant := 0
  registry : Registry
  vault : Vault Copy
  sticky : StickyStore := {}
  fresh : DeliveryQueue
  replay : DeliveryQueue
  sequencer : Sequencer := {}
  bus : Bus Record
  observers : Observers := {}
  listener : Option Listener := none
  publications : Nat := 0
  chains : Nat := 0
  calls : Table Nat Call := .empty
  callsBegun : Nat := 0
  cancelled : Bool := false
  joined : Bool := false
  past : Journal (Instant × Occurrence) := default

namespace Broker

def start (config : Config) (oracle : Oracle) (bundleOf : Uid → Option String)
    (observers : List Observer) : Broker :=
  let bus := Bus.ofCapacity config.busRoom
  { config
    oracle
    bundleOf
    registry := .ofCeiling config.ceiling
    vault := .ofRetention config.freezeRetention
    fresh := { room := config.queueRoom }
    replay := { room := config.queueRoom }
    bus := if observers.isEmpty then bus else bus.subscribe.2
    observers := { members := observers }
    listener := if observers.isEmpty then none else some { reader := bus.subscribe.1 } }

instance : Inhabited Broker := ⟨start {} .allowAll (fun _ => none) []⟩

variable (b : Broker)

def history : List (Instant × Occurrence) := b.past.toList

def note (o : Occurrence) : Broker := { b with past := b.past.push (b.now, o) }

def log (l : LogLine) : Broker := b.note (.logged l)

@[simp] theorem history_note (o : Occurrence) :
    (b.note o).history = b.history ++ [(b.now, o)] := by
  simp [note, history]

def emit (r : Record) : Broker := { b with bus := b.bus.publish r }.note (.record r)

def watch : Nat × Broker := (b.bus.subscribe.1, { b with bus := b.bus.subscribe.2 })

def queue : Lane → DeliveryQueue
  | .fresh => b.fresh
  | .replay => b.replay

def setQueue (lane : Lane) (q : DeliveryQueue) : Broker :=
  match lane with
  | .fresh => { b with fresh := q }
  | .replay => { b with replay := q }

def setCourier (lane : Lane) (s : CourierStage) : Broker :=
  b.setQueue lane { b.queue lane with courier := s }

def setStage (s : SequencerStage) : Broker :=
  { b with sequencer := { b.sequencer with stage := s } }

def setActive (c : Option Chain) : Broker :=
  { b with sequencer := { b.sequencer with active := c } }

/-- The names of bundles are a function of the uid, the same for a whole run; unlike the oracle they
do not change. -/
def resolveBundle (o : Owner) : Owner :=
  if o.bundle = "" then { o with bundle := (b.bundleOf o.uid).getD "" } else o

def handoff? : Worker → Option Notice
  | .courier lane =>
    match (b.queue lane).courier with
    | .handing n _ => some n
    | _ => none
  | .sequencer =>
    match b.sequencer.stage with
    | .handing n _ => some n
    | .closing n _ _ => some n
    | _ => none
  | _ => none

/-- The last instant at which a hand-off may still end by itself. One past the end of the clock is
never reached. -/
def handoffDeadline (n : Notice) : Option Instant :=
  b.config.handoffLimit.map n.startedAt.after

end Broker

end EventBroker
