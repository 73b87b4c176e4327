import EventBroker.Broker.State

/-!
Delivery to single receivers, and the couriers of the two queues. Whether a subscription is live
and thawed is asked when its turn comes, not when the publication was matched.
-/

namespace EventBroker.Broker

variable (b : Broker)

inductive Readiness
  | gone
  | frozen
  | ready (s : Subscriber)

def withChain (r : Record) : Option ChainId → Record
  | none => r
  | some id => r.setChain id

def approach (id : SubscriberId) (copy : Copy) (chain : Option ChainId) : Readiness × Broker :=
  match b.registry.entry? id with
  | none => (.gone, b)
  | some e =>
    if e.frozenAt.isNone then (.ready e.subscriber, b)
    else
      let b := { b with vault := b.vault.capture e.subscriber copy b.now }
      let b := b.log (.heldFrozen copy.event.name id)
      let r : Record := { kind := .eventFrozen }
      let r := ((r.setEvent copy.event.name).setSubscriber id).setPid e.subscriber.owner.pid
      (.frozen, b.emit (withChain r chain))

def deliveryFailed (s : Subscriber) (copy : Copy) (chain : Option ChainId) (e : DeliveryError) :
    Broker :=
  let b := b.log (.deliveryFailed copy.event.name s.id s.receiver.name e)
  let r : Record := { kind := .deliveryFailed }
  let r := ((r.setEvent copy.event.name).setSubscriber s.id).setPid s.owner.pid
  b.emit (withChain (r.setReason e.message) chain)

/-- A queue whose courier stopped takes nothing; a full one refuses and says so. -/
def submit (lane : Lane) (job : Job) : Option BrokerError × Broker :=
  let q := b.queue lane
  match q.courier with
  | .stopped => (some .closed, b)
  | _ =>
    if q.room ≤ q.jobs.length then
      (some (.queueFull lane.name), b.emit { kind := .queueOverflow, reason := some lane.name })
    else
      (none, (b.setQueue lane { q with jobs := q.jobs ++ [job] }).note (.queued (.courier lane)))

def stopCourier (lane : Lane) : Broker :=
  let b := b.setQueue lane { b.queue lane with jobs := [], courier := .stopped }
  (b.log (.deliveryWorkerStopped lane.name)).note (.stopped (.courier lane))

def takeJob (lane : Lane) (job : Job) (rest : List Job) : Broker :=
  let b := b.setQueue lane
    { b.queue lane with jobs := rest, courier := .carrying job.deliveries }
  match job with
  | .broadcast _ _ _ => b
  | .replay held => b.log (.replaying lane.name held.length)

def attempt (lane : Lane) (d : Delivery) (rest : List Delivery) : Broker :=
  match b.approach d.target d.copy none with
  | (.ready s, b) =>
    let n : Notice := ⟨s.receiver, some s, d.copy, d.flags, none, b.now⟩
    (b.setCourier lane (.handing n rest)).note (.notifying (.courier lane) n)
  | (_, b) => b.setCourier lane (.carrying rest)

def courierStep (lane : Lane) : Option Broker :=
  match (b.queue lane).courier with
  | .stopped => none
  | .handing _ _ => none
  | .carrying [] => some (b.setCourier lane .waiting)
  | .carrying (d :: rest) => some (b.attempt lane d rest)
  | .waiting =>
    if b.cancelled then some (b.stopCourier lane)
    else
      match (b.queue lane).jobs with
      | [] => none
      | job :: rest => some (b.takeJob lane job rest)

/-- The hand-off a courier was busy with has ended; the next delivery is due whatever became of
it. -/
def courierConclude (lane : Lane) (result : Except DeliveryError Unit) : Broker :=
  match (b.queue lane).courier with
  | .handing n rest =>
    let b := b.note (.notified (.courier lane) n result)
    let b :=
      match result, n.subscriber with
      | .error e, some s => b.deliveryFailed s n.copy none e
      | _, _ => b
    b.setCourier lane (.carrying rest)
  | _ => b

end EventBroker.Broker
