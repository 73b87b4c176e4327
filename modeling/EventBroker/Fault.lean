import EventBroker.Owner

namespace EventBroker

inductive BrokerError
  | emptyEventName
  | emptyFilter
  | tooManySubscribers (pid : Pid) (count : Nat)
  | permissionDenied (permission : String)
  | notPrivileged (event : String)
  | unknownSubscriber (id : SubscriberId)
  | queueFull (queue : String)
  | closed
  deriving DecidableEq

namespace BrokerError

def label : BrokerError → String
  | emptyEventName => "empty_event_name"
  | emptyFilter => "empty_filter"
  | tooManySubscribers _ _ => "too_many_subscribers"
  | permissionDenied _ => "permission_denied"
  | notPrivileged _ => "not_privileged"
  | unknownSubscriber _ => "unknown_subscriber"
  | queueFull _ => "queue_full"
  | closed => "closed"

def message : BrokerError → String
  | emptyEventName => "event name must not be empty"
  | emptyFilter => "subscription filter declares no events"
  | tooManySubscribers pid count =>
    "too many subscribers: pid " ++ toString pid ++ " already owns " ++ toString count
  | permissionDenied permission => "permission denied: " ++ permission
  | notPrivileged event => "event " ++ event ++ " may only be published by a privileged caller"
  | unknownSubscriber id => "unknown subscriber " ++ id.name
  | queueFull queue => "delivery queue " ++ queue ++ " is full"
  | closed => "engine is shut down"

def reason : BrokerError → String
  | tooManySubscribers pid count =>
    "pid=" ++ toString pid ++ " owns " ++ toString count ++ " subscriptions; ceiling reached"
  | permissionDenied permission => "missing permission " ++ permission
  | e => e.message

def isAdmission : BrokerError → Bool
  | emptyEventName | emptyFilter | tooManySubscribers _ _ => true
  | _ => false

end BrokerError

inductive Panic
  | text (s : String)
  | other
  deriving DecidableEq

def Panic.describe : Panic → String
  | text s => s
  | other => "unknown panic"

inductive DeliveryError
  | transport (reason : String)
  | closed
  | panicked (info : String)
  | handoffTimeout
  deriving DecidableEq

namespace DeliveryError

def label : DeliveryError → String
  | transport _ => "delivery_transport"
  | closed => "delivery_closed"
  | panicked _ => "delivery_panicked"
  | handoffTimeout => "delivery_handoff_timeout"

def message : DeliveryError → String
  | transport reason => "transport failure: " ++ reason
  | closed => "receiver closed"
  | panicked info => "receiver panicked: " ++ info
  | handoffTimeout => "hand-off timed out"

end DeliveryError

/-- How a hand-off ends: the receiver returns or breaks down, or the limit comes first. What the
broker makes of it is its `result`. -/
inductive Reception
  | returned (result : Except DeliveryError Unit)
  | panicked (panic : Panic)
  | lapsed

def Reception.result : Reception → Except DeliveryError Unit
  | returned result => result
  | panicked panic => .error (.panicked panic.describe)
  | lapsed => .error .handoffTimeout

end EventBroker
