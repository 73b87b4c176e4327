import EventBroker.Simulation.Script

/-!
A broker among scripted receivers and observers, on a clock that moves by whole milliseconds.

Workers that have something to do queue up as they get it; the first goes on until it has to
wait, then the next. Time moves only when nobody is ready, to the next thing that is due.
-/

namespace EventBroker.Simulation

def receiverName : String := "recv"

structure Actor where
  role : Role Request
  heard : Nat := 0

inductive Ending
  | handoff (reception : Reception)
  | observation (panic : Option Panic)

structure Engagement where
  worker : Worker
  endsAt : Option Nat
  ending : Ending

structure Noted where
  startedAt : Nat
  label : String
  event : Event
  flags : Flags
  did : Option (List Reply)

structure World where
  broker : Broker
  policy : Policy := {}
  governed : Bool := false
  cast : Array Actor := #[]
  watchers : List Watcher := []
  engagements : List Engagement := []
  ready : List Worker := []
  seen : Nat := 0
  noted : Array Noted := #[]

namespace World

variable (w : World)

def nowMs : Nat := w.broker.now.toMillis

def engagement? (k : Worker) : Option Engagement := w.engagements.find? (·.worker == k)

def wake (k : Worker) : World :=
  if w.ready.contains k || (w.engagement? k).isSome then w
  else { w with ready := w.ready ++ [k] }

def woken (b : Broker) : Occurrence → List Worker
  | .record _ => if b.listener.isSome then [.listener] else []
  | .queued k => [k]
  | .cancelled => b.workers
  | .stopped (.observer _) => if b.listener.isSome then [.listener] else []
  | _ => []

def look : World :=
  let fresh := w.broker.past.since w.seen
  let w := { w with seen := w.broker.past.size }
  fresh.foldl (fun w o => (woken w.broker o.2).foldl wake w) w

def become (b : Broker) : World := { w with broker := b }.look

def enter (role : Role Request) : Receiver × World :=
  (⟨w.cast.size, receiverName⟩, { w with cast := w.cast.push { role } })

def govern (p : Policy) : World :=
  let w := { w with policy := p }
  if w.governed then w.become (w.broker.setOracle p.oracle) else w

def subscribe (role : Role Request) (s : Subscription) :
    Except BrokerError SubscriberId × World :=
  let (receiver, w) := w.enter role
  let (r, b) := w.broker.subscribe { s with receiver }
  (r, w.become b)

def subscribeMany (role : Role Request) (s : Subscription) : Nat → World →
    Nat × Option (Except BrokerError SubscriberId) × World
  | 0, w => (0, none, w)
  | n + 1, w =>
    let (succeeded, _, w) := subscribeMany role s n w
    let (r, w) := w.subscribe role s
    (if r.toBool then succeeded + 1 else succeeded, some r, w)

def request : Request → Reply × World
  | .subscribe role s =>
    let (r, w) := w.subscribe role s
    (.subscribed r, w)
  | .subscribeMany n role s =>
    let (succeeded, last, w) := w.subscribeMany role s n
    (.subscribedMany succeeded last, w)
  | .publish p =>
    let (r, b) := w.broker.publish p
    (.published r, w.become b)
  | .publishWithResult p role =>
    let (receiver, w) := w.enter role
    let (r, b) := w.broker.publishWithResult p receiver
    (.published r, w.become b)
  | .matching p =>
    let found := w.broker.matching p
    (.matching (found.matched.map (·.id)) found.denied, w)
  | .count => (.number w.broker.subscriberCount, w)
  | .subscriptionsOf pid => (.ids (w.broker.subscriptionsOf pid), w)
  | .pending id => (.number (w.broker.frozenPending id), w)
  | .freeze sel frozen =>
    let (n, b) := w.broker.updateFreeze sel frozen
    (.number n, w.become b)
  | .flush sel =>
    let (r, b) := w.broker.flushFrozen sel
    (.flushed r, w.become b)
  | .thaw sel =>
    let (r, b) := w.broker.thaw sel
    (.flushed r, w.become b)
  | .grant t permission =>
    let (yes, p) := w.policy.grant t permission
    (.changed yes, w.govern p)
  | .revoke t permission =>
    let (yes, p) := w.policy.revoke t permission
    (.changed yes, w.govern p)
  | .privilege t on =>
    let (yes, p) := w.policy.setPrivileged t on
    (.changed yes, w.govern p)
  | .require event r => (.nothing, w.govern (w.policy.require event r))

def requests : List Request → World → List Reply × World
  | [], w => ([], w)
  | r :: rest, w =>
    let (reply, w) := w.request r
    let (replies, w) := requests rest w
    (reply :: replies, w)

def finishEngagement (k : Worker) (e : Ending) : World :=
  let w := { w with engagements := w.engagements.filter (·.worker ≠ k) }
  match e, k with
  | .handoff reception, _ => w.become (w.broker.conclude k reception)
  | .observation panic, .observer i => w.become (w.broker.observerConclude i panic)
  | .observation _, _ => w

def engage (k : Worker) (endsAt : Option Nat) (e : Ending) : World :=
  if endsAt.any (· ≤ w.nowMs) then w.finishEngagement k e
  else { w with engagements := w.engagements ++ [⟨k, endsAt, e⟩] }

/-- When and how a hand-off ends: by itself, or at the limit if that comes first. A hand-off that
ends by itself at the limit is in time. -/
def handoffEnd (n : Notice) (behaviour : Behaviour Request) : Option Nat × Reception :=
  let limit := (w.broker.handoffDeadline n).map Instant.ceilMillis
  let own := w.nowMs + behaviour.delay
  if limit.any (· < own) then (limit, .lapsed)
  else
    match behaviour.manner with
    | .accept => (some own, .returned (.ok ()))
    | .fail e => (some own, .returned (.error e))
    | .panic p => (some own, .panicked p)
    | .hang => (limit, .lapsed)

def play (k : Worker) (n : Notice) : World :=
  let actor := w.cast.getD n.receiver.handle { role := { label := "?" } }
  let script := actor.role.script
  let behaviour := (script[actor.heard]?.or script.getLast?).getD {}
  let w := { w with
    cast := w.cast.setIfInBounds n.receiver.handle { actor with heard := actor.heard + 1 } }
  let (did, w) := requests behaviour.requests w
  let note : Noted :=
    { startedAt := w.nowMs
      label := actor.role.label
      event := n.copy.event
      flags := n.flags
      did := if behaviour.requests.isEmpty then none else some did }
  let w := { w with noted := w.noted.push note }
  let (endsAt, reception) := w.handoffEnd n behaviour
  w.engage k endsAt (.handoff reception)

def watch (i : Nat) (r : Record) : World :=
  let watcher := w.watchers.getD i {}
  let name := ((w.broker.observers.members[i]?).map (·.name)).getD ""
  let panic :=
    if watcher.panicOn.contains r.kind then some (Panic.text (name ++ " on " ++ r.kind.name))
    else none
  w.engage (.observer i) (some (w.nowMs + watcher.delay)) (.observation panic)

def respond (k : Worker) : World :=
  match w.broker.handoff? k, k with
  | some n, _ => w.play k n
  | none, .observer i =>
    match (w.broker.observers.members[i]?).bind (·.busy) with
    | some r => w.watch i r
    | none => w
  | none, _ => w

def go (k : Worker) : Option World :=
  match w.engagement? k with
  | some e => if e.endsAt.any (· ≤ w.nowMs) then some (w.finishEngagement k e.ending) else none
  | none => (w.broker.work k).map fun b => (w.become b).respond k

def turn : Option World :=
  match w.ready with
  | [] => none
  | k :: rest =>
    match w.go k with
    | some w => some w
    | none => some { w with ready := rest }

def settle : Nat → World → World
  | 0, w => w
  | fuel + 1, w =>
    match w.turn with
    | none => w
    | some w => settle fuel w

def sequencerDue : Option Nat :=
  match w.broker.sequencer.stage with
  | .listening => w.broker.nextWake.map Instant.ceilMillis
  | _ => none

def earlier : Option Nat → Option Nat → Option Nat
  | some x, some y => some (min x y)
  | x, y => x.or y

def nextTimer : Option Nat :=
  w.engagements.foldl (fun t e => earlier t e.endsAt) w.sequencerDue

def moveTo (ms : Nat) : World :=
  let w := w.become (w.broker.tick (.ofMillis ms))
  let due := (w.engagements.filter fun e => e.endsAt.any (· ≤ ms)).map (·.worker)
  let due := if w.sequencerDue.any (· ≤ ms) then due ++ [.sequencer] else due
  { w with ready := w.ready ++ due.filter fun k => !w.ready.contains k }

/-- Lets time pass until `ms`. Whatever is due before is dealt with at its own time; whoever
waited for `ms` itself is ready when it comes. -/
def passTo (ms turns : Nat) : Nat → World → World
  | 0, w => w
  | fuel + 1, w =>
    let w := w.settle turns
    match w.nextTimer with
    | some t => if t < ms then passTo ms turns fuel (w.moveTo t) else w.moveTo ms
    | none => w.moveTo ms

def sleep (ms turns fuel : Nat) : World :=
  if ms = 0 then w else passTo (w.nowMs + ms) turns fuel w

end World

end EventBroker.Simulation
