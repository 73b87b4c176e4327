import EventBroker.Broker.Delivering

/-!
The sequencer: it owns every ordered chain, keeps one of them active, and moves it on from
receiver to receiver. While it hands an event over, commands wait.
-/

namespace EventBroker.Broker

variable (b : Broker)

def answer (caller : Nat) (a : Answer) : Broker :=
  { b with calls := b.calls.alter caller fun c => c.map fun c => { c with answer := some a } }

def send (c : Command) : Broker :=
  { b with sequencer := { b.sequencer with commands := b.sequencer.commands ++ [c] } }.note
    (.queued .sequencer)

def takesCommands : Bool :=
  match b.sequencer.stage with
  | .stopped => false
  | _ => true

def nextWake : Option Instant :=
  b.sequencer.active.bind fun c =>
    match c.receiverDeadline, c.watchdogDeadline with
    | some x, some y => some (min x y)
    | x, y => x.or y

def forget (c : Command) : Broker :=
  match c with
  | .enqueue _ => b
  | .finish _ _ _ _ caller | .release _ caller | .active _ caller => b.answer caller .lost

def closeSequencer : Broker :=
  let s := b.sequencer
  s.commands.foldl forget { b with sequencer := { s with commands := [], stage := .stopped } }

def stopSequencer : Broker :=
  let s := b.sequencer
  (b.closeSequencer.log (.chainDriverStopped s.pending.length s.active.isSome)).note
    (.stopped .sequencer)

/-- The sequencer breaks down over a deadline past the end of the clock. Nobody is told: what is
asked of it afterwards is refused as after a shutdown. -/
def breakDown : Broker := b.closeSequencer.note (.stopped .sequencer)

def handle (c : Command) : Broker :=
  match c with
  | .enqueue chain =>
    { b with sequencer :=
        { b.sequencer with pending := b.sequencer.pending ++ [chain], stage := .pumping } }
  | .finish receiver code data abort caller =>
    match b.sequencer.active with
    | none => b.answer caller (.outcome .stale)
    | some chain =>
      match chain.finish receiver code data abort with
      | (.accepted, chain) =>
        (((b.setActive (some chain)).answer caller (.outcome .accepted)).log
          (.receiverFinished receiver abort)).setStage .pumping
      | (.stale, _) => b.answer caller (.outcome .stale)
  | .release receiver caller =>
    match b.sequencer.active with
    | none => b.answer caller (.released false)
    | some chain =>
      if chain.awaiting = some receiver then
        (((b.setActive (some chain.release.2)).answer caller (.released true)).log
          (.receiverReleased receiver)).setStage .pumping
      else b.answer caller (.released false)
  | .active receiver caller =>
    let parked := b.sequencer.active.filter fun chain => chain.awaiting = some receiver
    b.answer caller (.snapshot (parked.map Chain.snapshot))

/-- Expires what is due of the active chain: the whole chain before its current receiver. -/
def sweep : Option Broker :=
  match b.sequencer.active with
  | none => none
  | some c =>
    if Chain.due c.watchdogDeadline b.now then
      let (receiver, c') := c.expire
      let b := (b.setActive (some c')).log (.watchdogFired c.event.name c.id c.watchdogBudget)
      let r : Record := { kind := .watchdogFired }
      let r := ((r.setEvent c.event.name).setChain c.id).setTimeout c.watchdogBudget
      some ((b.emit { r with subscriber := receiver }).setStage .pumping)
    else if Chain.due c.receiverDeadline b.now then
      match c.expireReceiver with
      | (none, _) => some (b.setStage .pumping)
      | (some receiver, c') =>
        let b := (b.setActive (some c')).log (.receiverTimedOut c.event.name c.id receiver)
        let r : Record := { kind := .receiverTimedOut }
        let r := (((r.setEvent c.event.name).setChain c.id).setSubscriber receiver).setTimeout
          c.receiverTimeout
        some ((b.emit r).setStage .pumping)
    else none

def startChain (c : Chain) (rest : List Chain) : Broker :=
  let c := c.start b.now
  let b := b.log (.chainStarted c.event.name c.id c.receivers.length)
  let r : Record := { kind := .chainStarted }
  let b := b.emit (((r.setEvent c.event.name).setChain c.id).setCount c.receivers.length)
  { b with sequencer := { b.sequencer with pending := rest, active := some c } }

def chainFinished (c : Chain) (reason : FinishReason) : Broker :=
  let b := b.log (.chainFinished c.event.name c.id c.delivered reason.name)
  let r : Record := { kind := .chainFinished }
  let r := ((r.setEvent c.event.name).setChain c.id).setCount c.delivered
  (b.emit (r.setReason reason.name)).setStage .pumping

def finalize (c : Chain) (reason : FinishReason) : Broker :=
  let b := b.setActive none
  match c.finalReceiver with
  | none => b.chainFinished c reason
  | some receiver =>
    let n : Notice := ⟨receiver, none, c.copy, c.flags, some c.id, b.now⟩
    (b.setStage (.closing n c reason)).note (.notifying .sequencer n)

def deliverTo (c : Chain) (index : Nat) (receiver : SubscriberId) : Broker :=
  match b.approach receiver c.copy (some c.id) with
  | (.ready s, b) =>
    let n : Notice := ⟨s.receiver, some s, c.copy, c.flags, some c.id, b.now⟩
    ((b.setActive (some (c.beginReceiving b.now))).setStage (.handing n index)).note
      (.notifying .sequencer n)
  | (_, b) => b.setActive (some c.skip)

/-- One move of the chains; the sequencer listens again once the active chain is parked or none
is left. To listen it has to know when the parked chain needs attention next. -/
def pumpStep : Broker :=
  match b.sequencer.active with
  | none =>
    match b.sequencer.pending with
    | [] => b.setStage .listening
    | c :: rest => b.startChain c rest
  | some c =>
    if c.awaiting.isSome then
      if c.overruns then b.breakDown else b.setStage .listening
    else
      match c.next b.now with
      | (.finalize reason, c) => b.finalize c reason
      | (.deliver index receiver, c) => b.deliverTo c index receiver
      | (.overrun, _) => b.breakDown

/-- One step of the sequencer; `none` while it has nothing to do or a hand-off is in progress. -/
def sequencerStep : Option Broker :=
  match b.sequencer.stage with
  | .stopped => none
  | .handing _ _ => none
  | .closing _ _ _ => none
  | .pumping => some b.pumpStep
  | .listening =>
    if b.cancelled then some b.stopSequencer
    else
      match b.sequencer.commands with
      | c :: rest => some ({ b with sequencer := { b.sequencer with commands := rest } }.handle c)
      | [] => b.sweep

def sequencerConclude (result : Except DeliveryError Unit) : Broker :=
  match b.sequencer.stage with
  | .handing n index =>
    let b := b.note (.notified .sequencer n result)
    match b.sequencer.active, n.subscriber, result with
    | some c, some s, .ok () =>
      let stage := if c.handedOff.overruns then .pumping else .listening
      ((b.setActive (some c.handedOff)).log (.receiverParked c.id s.id index)).setStage stage
    | some c, some s, .error e =>
      ((b.deliveryFailed s n.copy n.chain e).setActive (some c.skip)).setStage .pumping
    | _, _, _ => b.setStage .pumping
  | .closing n c reason =>
    let b := b.note (.notified .sequencer n result)
    match result with
    | .ok () => b.chainFinished c reason
    | .error e =>
      let b := b.log (.finalHandoffFailed c.event.name c.id n.receiver.name e)
      let r : Record := { kind := .deliveryFailed }
      let r := ((r.setEvent c.event.name).setChain c.id).setReason e.message
      (b.emit r).chainFinished c reason
  | _ => b

end EventBroker.Broker
