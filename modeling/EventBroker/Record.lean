import EventBroker.Config
import EventBroker.Owner

namespace EventBroker

inductive RecordKind
  | subscriberAdded
  | subscriberRemoved
  | subscribeRejected
  | ownerEvicted
  | eventPublished
  | publishRejected
  | permissionDenied
  | deliveryFailed
  | receiverTimedOut
  | chainStarted
  | chainFinished
  | watchdogFired
  | eventFrozen
  | frozenFlushed
  | freezeUpdated
  | queueOverflow
  | observerOverflow
  | observerPanicked
  deriving DecidableEq

def RecordKind.name : RecordKind → String
  | subscriberAdded => "SubscriberAdded"
  | subscriberRemoved => "SubscriberRemoved"
  | subscribeRejected => "SubscribeRejected"
  | ownerEvicted => "OwnerEvicted"
  | eventPublished => "EventPublished"
  | publishRejected => "PublishRejected"
  | permissionDenied => "PermissionDenied"
  | deliveryFailed => "DeliveryFailed"
  | receiverTimedOut => "ReceiverTimedOut"
  | chainStarted => "ChainStarted"
  | chainFinished => "ChainFinished"
  | watchdogFired => "WatchdogFired"
  | eventFrozen => "EventFrozen"
  | frozenFlushed => "FrozenFlushed"
  | freezeUpdated => "FreezeUpdated"
  | queueOverflow => "QueueOverflow"
  | observerOverflow => "ObserverOverflow"
  | observerPanicked => "ObserverPanicked"

structure Record where
  kind : RecordKind
  event : Option String := none
  subscriber : Option SubscriberId := none
  pid : Option Pid := none
  chain : Option ChainId := none
  count : Option Nat := none
  timeoutMs : Option Nat := none
  reason : Option String := none
  deriving DecidableEq

namespace Record

instance : Inhabited Record := ⟨{ kind := .queueOverflow }⟩

def setEvent (r : Record) (name : String) : Record := { r with event := some name }

def setSubscriber (r : Record) (id : SubscriberId) : Record := { r with subscriber := some id }

def setPid (r : Record) (pid : Pid) : Record := { r with pid := some pid }

def setChain (r : Record) (id : ChainId) : Record := { r with chain := some id }

def setCount (r : Record) (n : Nat) : Record := { r with count := some (min n maxCount) }

def setTimeout (r : Record) (d : Duration) : Record :=
  { r with timeoutMs := some (min d.toMillis maxCount) }

def setReason (r : Record) (reason : String) : Record := { r with reason := some reason }

def observerOverflow (observer reason : String) : Record :=
  { kind := .observerOverflow, reason := some ("observer=" ++ observer ++ " reason=" ++ reason) }

def observerPanicked (observer info : String) : Record :=
  { kind := .observerPanicked, reason := some ("observer=" ++ observer ++ " info=" ++ info) }

def isObserverOverflow (r : Record) : Bool := r.kind == .observerOverflow

end Record

end EventBroker
