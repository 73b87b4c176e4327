import EventBroker.Broker.Work

namespace EventBroker.Simulation

inductive Manner
  | accept
  | fail (e : DeliveryError)
  | panic (p : Panic)
  | hang

structure Behaviour (ρ : Type) where
  requests : List ρ := []
  delay : Nat := 0
  manner : Manner := .accept

structure Role (ρ : Type) where
  label : String
  script : List (Behaviour ρ) := []

inductive Request
  | subscribe (role : Role Request) (s : Subscription)
  | subscribeMany (n : Nat) (role : Role Request) (s : Subscription)
  | publish (p : Publication)
  | publishWithResult (p : Publication) (role : Role Request)
  | matching (p : Publication)
  | count
  | subscriptionsOf (pid : Pid)
  | pending (id : SubscriberId)
  | freeze (sel : Selector) (frozen : Bool)
  | flush (sel : Selector)
  | thaw (sel : Selector)
  | grant (t : Token) (permission : String)
  | revoke (t : Token) (permission : String)
  | privilege (t : Token) (on : Bool)
  | require (event : String) (r : Requirement)

/-- What the caller does next. The steps of a batch follow each other before any worker runs,
unless one of them has to wait. -/
inductive Step
  | request (r : Request)
  | unsubscribe (id : SubscriberId)
  | ownerDied (pid : Pid)
  | finish (receiver : SubscriberId) (code : Int) (data : String) (abort : Bool)
  | active (receiver : SubscriberId)
  | advance (ms : Nat)
  | shutdown
  | batch (steps : List Step)

inductive Reply
  | subscribed (r : Except BrokerError SubscriberId)
  | subscribedMany (succeeded : Nat) (last : Option (Except BrokerError SubscriberId))
  | published (r : Except BrokerError PublishReceipt)
  | matching (ids : List SubscriberId) (denied : Nat)
  | number (n : Nat)
  | ids (ids : List SubscriberId)
  | flushed (r : Except BrokerError Nat)
  | changed (yes : Bool)
  | nothing
  | response (r : Response)
  | stuck
  | batch (replies : List Reply)

structure Watcher where
  delay : Nat := 0
  panicOn : List RecordKind := []

end EventBroker.Simulation
