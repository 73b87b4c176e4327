import EventBroker.Broker.Sequencing

namespace EventBroker

structure PublishReceipt where
  matched : Nat
  denied : Nat
  chain : Option ChainId
  deriving DecidableEq

namespace Broker

variable (b : Broker)

def evict (v : Eviction) : Broker :=
  let b := b.log (.evicting v.pid v.count)
  let b := b.note (.killed v.pid "subscription ceiling")
  let b := b.log (.terminating v.pid "subscription ceiling")
  let r : Record := { kind := .ownerEvicted }
  b.emit (((r.setPid v.pid).setCount v.count).setReason "subscription ceiling")

/-- Submits the sticky value of one name to a new subscriber, if it matches as it was published. -/
def replaySticky (s : Subscriber) (name : String) : Broker :=
  match b.sticky.get? name with
  | none => b
  | some p =>
    match p.verdict b.oracle s with
    | .deliver =>
      match b.submit .fresh (.broadcast ⟨p.serial, p.event⟩ ⟨false, true⟩ [s.id]) with
      | (none, b) => b
      | (some e, b) => b.log (.stickyDropped s.id name e)
    | v => b.log (.stickyWithheld s.id name v.name)

def welcome (a : Admitted) : Broker :=
  let b := match a.evicted with
    | none => b
    | some v => b.evict v
  let s := a.subscriber
  let b := b.log (.subscriberAdded s.id s.owner.pid b.registry.size)
  let r : Record := { kind := .subscriberAdded }
  let b := b.emit (((r.setSubscriber s.id).setPid s.owner.pid).setCount b.registry.size)
  s.interest.events.toList.foldl (fun b name => b.replaySticky s name) b

def subscriptionRefused (e : BrokerError) : Broker :=
  match e with
  | .tooManySubscribers pid count =>
    let b := b.log (.subscribeRejected pid count)
    let r : Record := { kind := .subscribeRejected }
    b.emit ((r.setPid pid).setCount count)
  | _ => b

def subscribe (req : Subscription) : Except BrokerError SubscriberId × Broker :=
  if b.cancelled then (.error .closed, b)
  else
    let req := { req with owner := b.resolveBundle req.owner }
    match b.registry.subscribe req (b.oracle.isPrivileged req.owner.token) with
    | .error e => (.error e, b.subscriptionRefused e)
    | .ok (a, registry) => (.ok a.subscriber.id, { b with registry }.welcome a)

def matching (p : Publication) : MatchResult :=
  b.registry.matching b.oracle { p with publisher := b.resolveBundle p.publisher }

def refusal (p : Publication) : Option BrokerError :=
  if p.event.name = "" then some .emptyEventName
  else if b.oracle.isProtected p.event.name && !b.oracle.isPrivileged p.publisher.token then
    some (.notPrivileged p.event.name)
  else if p.options.sticky then
    (b.config.stickyPermission.filter fun permission =>
      !b.oracle.hasPermission p.publisher.token permission).map .permissionDenied
  else none

def publicationRefused (p : Publication) (e : BrokerError) : Broker :=
  let b := b.log (.publishRejected p.event.name p.publisher.pid e)
  let r : Record := { kind := .publishRejected }
  b.emit (((r.setEvent p.event.name).setPid p.publisher.pid).setReason e.reason)

def dispatch (p : Publication) (matched : List Subscriber) (finalReceiver : Option Receiver) :
    Except BrokerError (Option ChainId) × Broker :=
  let copy : Copy := ⟨p.serial, p.event⟩
  if p.options.ordered then
    if matched.isEmpty && finalReceiver.isNone then (.ok none, b)
    else if b.takesCommands then
      let id : ChainId := ⟨b.chains + 1⟩
      let chain := Chain.ofReceivers id copy p.options.sticky (matched.map (·.id))
        b.config.receiverTimeout (b.config.watchdogBudget matched.length) finalReceiver
      (.ok (some id), { b with chains := b.chains + 1 }.send (.enqueue chain))
    else (.error .closed, b)
  else if matched.isEmpty then (.ok none, b)
  else
    match b.submit .fresh
      (.broadcast copy ⟨false, p.options.sticky⟩ (matched.map (·.id))) with
    | (none, b) => (.ok none, b)
    | (some e, b) => (.error e, b)

def announce (p : Publication) (matched : Nat) (chain : Option ChainId) : Broker :=
  let b := { b with publications := p.serial }
  let b := if p.options.sticky then { b with sticky := b.sticky.put p }.note (.remembered p) else b
  let b := b.note (.announced p)
  let b := b.log (.eventPublished p.event.name p.publisher.pid matched p.options.ordered)
  let r : Record := { kind := .eventPublished }
  let r := ((r.setEvent p.event.name).setPid p.publisher.pid).setCount matched
  b.emit (withChain r chain)

/-- Admits a publication, queues its work, and tells of it; refused, it leaves no work behind. -/
def post (p : Publication) (finalReceiver : Option Receiver) :
    Except BrokerError PublishReceipt × Broker :=
  if b.cancelled then (.error .closed, b)
  else
    let p := { p with publisher := b.resolveBundle p.publisher, serial := b.publications + 1 }
    match b.refusal p with
    | some e => (.error e, b.publicationRefused p e)
    | none =>
      let found := b.registry.matching b.oracle p
      let r : Record := { kind := .permissionDenied }
      let b :=
        if found.denied = 0 then b
        else b.emit ((r.setEvent p.event.name).setCount found.denied)
      match b.dispatch p found.matched finalReceiver with
      | (.error e, b) => (.error e, b)
      | (.ok chain, b) =>
        (.ok ⟨found.matched.length, found.denied, chain⟩,
          b.announce p found.matched.length chain)

def publish (p : Publication) : Except BrokerError PublishReceipt × Broker := b.post p none

def publishWithResult (p : Publication) (receiver : Receiver) :
    Except BrokerError PublishReceipt × Broker :=
  b.post { p with options := { p.options with ordered := true } } (some receiver)

def subscriberCount : Nat := b.registry.size

def subscriptionsOf (pid : Pid) : List SubscriberId := b.registry.idsOf pid

def frozenPending (id : SubscriberId) : Nat := b.vault.pendingFor id

def updateFreeze (sel : Selector) (frozen : Bool) : Nat × Broker :=
  let (changed, registry) := b.registry.updateFreeze sel frozen b.now
  let state := if frozen then "frozen" else "thawed"
  let b := { b with registry }.log (.freezeUpdated changed state)
  let r : Record := { kind := .freezeUpdated }
  (changed, b.emit ((r.setCount changed).setReason state))

/-- Sends what is held for the selected owners to the replay queue; refused, it is put back. -/
def flushFrozen (sel : Selector) : Except BrokerError Nat × Broker :=
  let (held, vault) := b.vault.flush sel
  if held.isEmpty then (.ok 0, b)
  else
    match { b with vault }.submit .replay (.replay held) with
    | (none, b) =>
      let b := b.log (.frozenFlushed held.length)
      let r : Record := { kind := .frozenFlushed }
      (.ok held.length, b.emit (r.setCount held.length))
    | (some e, b) =>
      let (restored, vault) := b.vault.restore held b.registry.contains
      (.error e, { b with vault }.log (.flushRefused held.length restored e))

def thaw (sel : Selector) : Except BrokerError Nat × Broker :=
  (b.updateFreeze sel false).2.flushFrozen sel

end Broker

end EventBroker
