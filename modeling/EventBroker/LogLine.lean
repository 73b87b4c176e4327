import EventBroker.Fault
import EventBroker.Record

namespace EventBroker

inductive LogLevel
  | debug
  | info
  | warn
  deriving DecidableEq

def LogLevel.name : LogLevel → String
  | debug => "DEBUG"
  | info => "INFO"
  | warn => "WARN"

structure LogLine where
  level : LogLevel
  message : String
  fields : List (String × String) := []
  deriving DecidableEq

namespace LogLine

def flag (b : Bool) : String := if b then "true" else "false"

def optNumber : Option Nat → String
  | none => "None"
  | some n => "Some(" ++ toString n ++ ")"

def optName : Option String → String
  | none => "None"
  | some s => "Some(\"" ++ s ++ "\")"

def subscribeRejected (pid : Pid) (count : Nat) : LogLine :=
  ⟨.warn, "subscribe rejected: caller owns the most subscriptions",
    [("pid", toString pid), ("count", toString count)]⟩

def evicting (pid : Pid) (owned : Nat) : LogLine :=
  ⟨.info, "evicting top subscriber owner", [("pid", toString pid), ("owned", toString owned)]⟩

def terminating (pid : Pid) (reason : String) : LogLine :=
  ⟨.warn, "process selected for termination", [("pid", toString pid), ("reason", reason)]⟩

def subscriberAdded (id : SubscriberId) (pid : Pid) (live : Nat) : LogLine :=
  ⟨.debug, "subscriber added",
    [("subscriber", id.name), ("pid", toString pid), ("live", toString live)]⟩

def subscriberRemoved (id : SubscriberId) (pid : Pid) (dropped : Nat) (released : Bool)
    (reason : String) : LogLine :=
  ⟨.debug, "subscriber removed",
    [("subscriber", id.name), ("pid", toString pid), ("dropped", toString dropped),
      ("released", flag released), ("reason", reason)]⟩

def ownerDied (pid : Pid) (removed : Nat) : LogLine :=
  ⟨.info, "owner died; subscriptions removed",
    [("pid", toString pid), ("removed", toString removed)]⟩

def publishRejected (event : String) (pid : Pid) (e : BrokerError) : LogLine :=
  ⟨.warn, "publish rejected", [("event", event), ("pid", toString pid), ("error", e.label)]⟩

def eventPublished (event : String) (pid : Pid) (matched : Nat) (ordered : Bool) : LogLine :=
  ⟨.debug, "event published",
    [("event", event), ("pid", toString pid), ("matched", toString matched),
      ("ordered", flag ordered)]⟩

def stickyWithheld (id : SubscriberId) (event verdict : String) : LogLine :=
  ⟨.debug, "sticky value withheld",
    [("subscriber", id.name), ("event", event), ("verdict", verdict)]⟩

def stickyDropped (id : SubscriberId) (event : String) (e : BrokerError) : LogLine :=
  ⟨.warn, "sticky replay dropped",
    [("subscriber", id.name), ("event", event), ("error", e.label)]⟩

def freezeUpdated (updated : Nat) (state : String) : LogLine :=
  ⟨.info, "freeze state updated", [("updated", toString updated), ("state", state)]⟩

def frozenFlushed (entries : Nat) : LogLine :=
  ⟨.info, "frozen events flushed", [("entries", toString entries)]⟩

def flushRefused (entries restored : Nat) (e : BrokerError) : LogLine :=
  ⟨.warn, "replay queue refused flush",
    [("entries", toString entries), ("restored", toString restored), ("error", e.label)]⟩

def heldFrozen (event : String) (id : SubscriberId) : LogLine :=
  ⟨.debug, "held for frozen subscriber", [("event", event), ("subscriber", id.name)]⟩

def deliveryFailed (event : String) (id : SubscriberId) (receiver : String) (e : DeliveryError) :
    LogLine :=
  ⟨.warn, "delivery failed",
    [("event", event), ("subscriber", id.name), ("receiver", receiver), ("error", e.label)]⟩

def replaying (queue : String) (entries : Nat) : LogLine :=
  ⟨.debug, "replaying frozen events", [("queue", queue), ("entries", toString entries)]⟩

def deliveryWorkerStopped (queue : String) : LogLine :=
  ⟨.debug, "delivery worker stopped", [("queue", queue)]⟩

def chainDriverStopped (pending : Nat) (active : Bool) : LogLine :=
  ⟨.debug, "chain driver stopped", [("pending", toString pending), ("active", flag active)]⟩

def receiverFinished (id : SubscriberId) (abort : Bool) : LogLine :=
  ⟨.debug, "receiver finished", [("subscriber", id.name), ("abort", flag abort)]⟩

def receiverReleased (id : SubscriberId) : LogLine :=
  ⟨.debug, "parked receiver released", [("subscriber", id.name)]⟩

def receiverParked (chain : ChainId) (id : SubscriberId) (index : Nat) : LogLine :=
  ⟨.debug, "receiver parked",
    [("chain", chain.name), ("subscriber", id.name), ("index", toString index)]⟩

def receiverTimedOut (event : String) (chain : ChainId) (id : SubscriberId) : LogLine :=
  ⟨.warn, "receiver timed out",
    [("event", event), ("chain", chain.name), ("subscriber", id.name)]⟩

def chainStarted (event : String) (chain : ChainId) (receivers : Nat) : LogLine :=
  ⟨.debug, "chain started",
    [("event", event), ("chain", chain.name), ("receivers", toString receivers)]⟩

def watchdogFired (event : String) (chain : ChainId) (budget : Duration) : LogLine :=
  ⟨.warn, "chain watchdog fired",
    [("event", event), ("chain", chain.name), ("budget_ms", toString budget.toMillis)]⟩

def finalHandoffFailed (event : String) (chain : ChainId) (receiver : String) (e : DeliveryError) :
    LogLine :=
  ⟨.warn, "final receiver hand-off failed",
    [("event", event), ("chain", chain.name), ("receiver", receiver), ("error", e.label)]⟩

def chainFinished (event : String) (chain : ChainId) (delivered : Nat) (reason : String) :
    LogLine :=
  ⟨.debug, "chain finished",
    [("event", event), ("chain", chain.name), ("delivered", toString delivered),
      ("reason", reason)]⟩

def stopped : LogLine := ⟨.debug, "dispatch engine stopped", []⟩

end LogLine

def Record.logLine (r : Record) : LogLine :=
  let event := ("event", r.event.getD "-")
  let subscriber := ("subscriber", LogLine.optName (r.subscriber.map (·.name)))
  let pid := ("pid", LogLine.optNumber r.pid)
  let chain := ("chain", LogLine.optName (r.chain.map (·.name)))
  let count := LogLine.optNumber r.count
  let timeout := LogLine.optNumber r.timeoutMs
  let reason := r.reason.getD ""
  match r.kind with
  | .subscriberAdded => ⟨.info, "subscriber added", [subscriber, pid, ("live", count)]⟩
  | .subscriberRemoved => ⟨.info, "subscriber removed", [subscriber, pid, ("reason", reason)]⟩
  | .subscribeRejected => ⟨.warn, "subscribe rejected", [pid, ("owned", count)]⟩
  | .ownerEvicted => ⟨.warn, "owner evicted", [pid, ("owned", count), ("reason", reason)]⟩
  | .eventPublished => ⟨.debug, "event published", [event, pid, ("matched", count), chain]⟩
  | .publishRejected => ⟨.warn, "publish rejected", [event, pid, ("reason", reason)]⟩
  | .permissionDenied =>
    ⟨.info, "subscribers excluded by permission", [event, ("excluded", count)]⟩
  | .deliveryFailed =>
    ⟨.warn, "delivery failed", [event, subscriber, chain, ("reason", reason)]⟩
  | .receiverTimedOut =>
    ⟨.warn, "receiver timed out", [event, subscriber, chain, ("timeout_ms", timeout)]⟩
  | .chainStarted => ⟨.debug, "chain started", [event, chain, ("receivers", count)]⟩
  | .chainFinished =>
    ⟨.debug, "chain finished", [event, chain, ("delivered", count), ("outcome", reason)]⟩
  | .watchdogFired => ⟨.warn, "chain watchdog fired", [event, chain, ("budget_ms", timeout)]⟩
  | .eventFrozen => ⟨.debug, "event held for frozen subscriber", [event, subscriber]⟩
  | .frozenFlushed => ⟨.info, "frozen events flushed", [("entries", count)]⟩
  | .freezeUpdated =>
    ⟨.info, "freeze state updated", [("updated", count), ("state", reason)]⟩
  | .queueOverflow => ⟨.warn, "delivery queue overflow", [("queue", reason)]⟩
  | .observerOverflow => ⟨.warn, "observer overflow", [("reason", reason)]⟩
  | .observerPanicked => ⟨.warn, "observer panicked", [("reason", reason)]⟩

end EventBroker
