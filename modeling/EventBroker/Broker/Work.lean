import EventBroker.Broker.Calls
import EventBroker.Broker.Observing

/-!
The broker as a transition system: every change is one `Action`, and `Broker.act` says what it
does. Actions that are not possible in a state leave it as it is.

A call is one action from its start, or from where it was resumed, to where it comes back or next
waits: all run on one thread, so nothing comes in between. A call that waits is never dropped; it
stays until it is resumed. A worker does by single steps what it may also do at once: then they
follow each other.
-/

namespace EventBroker

inductive Action
  | subscribe (req : Subscription)
  | publish (p : Publication)
  | publishWithResult (p : Publication) (receiver : Receiver)
  | updateFreeze (sel : Selector) (frozen : Bool)
  | flushFrozen (sel : Selector)
  | unsubscribe (id : SubscriberId)
  | ownerDied (pid : Pid)
  | finish (receiver : SubscriberId) (code : Int) (data : String) (abort : Bool)
  | active (receiver : SubscriberId)
  | shutdown
  | resume (call : Nat)
  | work (w : Worker)
  | handedOff (w : Worker) (reception : Reception)
  | observed (i : Nat) (panic : Option Panic)
  | tick (now : Instant)
  | setOracle (o : Oracle)

namespace Broker

def work (b : Broker) : Worker → Option Broker
  | .listener => b.listenerStep
  | .observer i => b.observerStep i
  | .courier lane => b.courierStep lane
  | .sequencer => b.sequencerStep

def conclude (b : Broker) (w : Worker) (reception : Reception) : Broker :=
  match w with
  | .courier lane => b.courierConclude lane reception.result
  | .sequencer => b.sequencerConclude reception.result
  | _ => b

def tick (b : Broker) (now : Instant) : Broker := { b with now := max b.now now }

def setOracle (b : Broker) (oracle : Oracle) : Broker := { b with oracle }

def act (b : Broker) : Action → Broker
  | .subscribe req => (b.subscribe req).2
  | .publish p => (b.publish p).2
  | .publishWithResult p receiver => (b.publishWithResult p receiver).2
  | .updateFreeze sel frozen => (b.updateFreeze sel frozen).2
  | .flushFrozen sel => (b.flushFrozen sel).2
  | .unsubscribe id => (b.unsubscribe id).2
  | .ownerDied pid => (b.ownerDied pid).2
  | .finish receiver code data abort => (b.finishReceiver receiver code data abort).2
  | .active receiver => (b.activeReceiverOf receiver).2
  | .shutdown => b.shutdown.2
  | .resume call => ((b.resume call).map (·.2)).getD b
  | .work w => (b.work w).getD b
  | .handedOff w reception => b.conclude w reception
  | .observed i panic => b.observerConclude i panic
  | .tick now => b.tick now
  | .setOracle o => b.setOracle o

def run (b : Broker) (actions : List Action) : Broker := actions.foldl act b

end Broker

end EventBroker
