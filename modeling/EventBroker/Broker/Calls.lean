import EventBroker.Broker.Requests

/-!
Requests that wait: for the sequencer's answer, or for the workers to stop. A call is begun, and
resumed once what it waits for is there; one call may wait several times.
-/

namespace EventBroker

inductive Response
  | unsubscribed (result : Except BrokerError Unit)
  | ownerRemoved (subscriptions : Nat)
  | finished (o : Outcome)
  | active (s : Option ChainSnapshot)
  | stopped

inductive Progress
  | done (r : Response)
  | waiting (call : Nat)

namespace Broker

variable (b : Broker)

def setCall (call : Nat) (w : Waiting) : Broker :=
  { b with calls := b.calls.insert call { waiting := w } }

def endCall (call : Nat) : Broker := { b with calls := b.calls.erase call }

def ask (w : Waiting) (command : Nat → Command) (otherwise : Response) : Progress × Broker :=
  if b.takesCommands then
    let call := b.callsBegun + 1
    (.waiting call, ({ b with callsBegun := call }.setCall call w).send (command call))
  else (.done otherwise, b)

def finishReceiver (receiver : SubscriberId) (code : Int) (data : String) (abort : Bool) :
    Progress × Broker :=
  b.ask .finish (.finish receiver code data abort) (.finished .stale)

def activeReceiverOf (receiver : SubscriberId) : Progress × Broker :=
  b.ask .active (.active receiver) (.active none)

def departed (s : Subscriber) (dropped : Nat) (released : Bool) (reason : String) : Broker :=
  let b := b.log (.subscriberRemoved s.id s.owner.pid dropped released reason)
  let r : Record := { kind := .subscriberRemoved }
  b.emit (((r.setSubscriber s.id).setPid s.owner.pid).setReason reason)

def allDeparted (cause : Departure) (total : Nat) : Response × Broker :=
  match cause with
  | .unsubscribed => (.unsubscribed (.ok ()), b)
  | .ownerDied pid => (.ownerRemoved total, if total = 0 then b else b.log (.ownerDied pid total))

/-- Sees off subscriptions that have left the registry, one after another: what is held for it is
dropped, then a chain parked on it is released. -/
def retire (call : Nat) (cause : Departure) (total : Nat) :
    List Subscriber → Broker → Progress × Broker
  | [], b =>
    let (r, b) := b.allDeparted cause total
    (.done r, b.endCall call)
  | s :: rest, b =>
    let (dropped, vault) := b.vault.purge s.id
    let b := { b with vault }
    if b.takesCommands then
      (.waiting call,
        (b.setCall call (.retire ⟨cause, total, s, dropped, rest⟩)).send (.release s.id call))
    else retire call cause total rest (b.departed s dropped false cause.reason)

def beginRetiring (cause : Departure) (leaving : List Subscriber) : Progress × Broker :=
  let call := b.callsBegun + 1
  retire call cause leaving.length leaving { b with callsBegun := call }

def unsubscribe (id : SubscriberId) : Progress × Broker :=
  match b.registry.unsubscribe id with
  | none => (.done (.unsubscribed (.error (.unknownSubscriber id))), b)
  | some (s, registry) => { b with registry }.beginRetiring .unsubscribed [s]

def ownerDied (pid : Pid) : Progress × Broker :=
  let (leaving, registry) := b.registry.removeOwner pid
  { b with registry }.beginRetiring (.ownerDied pid) leaving

def workers : List Worker :=
  (if b.listener.isSome then [.listener] else []) ++
    [.courier .fresh, .courier .replay, .sequencer]

def hasStopped : Worker → Bool
  | .listener => b.listener.all (·.stage == .stopped)
  | .observer i => (b.observers.members[i]?).all (·.stopped)
  | .courier lane =>
    match (b.queue lane).courier with
    | .stopped => true
    | _ => false
  | .sequencer => !b.takesCommands

/-- Cancels the workers. The first shutdown waits for them; a later one does not. -/
def shutdown : Progress × Broker :=
  let workers := if b.joined then [] else b.workers
  let b := { b with cancelled := true, joined := true }.note .cancelled
  if workers.all b.hasStopped then (.done .stopped, b.log .stopped)
  else
    let call := b.callsBegun + 1
    (.waiting call, { b with callsBegun := call }.setCall call (.shutdown workers))

def resume (call : Nat) : Option (Progress × Broker) :=
  match b.calls.get? call with
  | none => none
  | some c =>
    match c.waiting, c.answer with
    | .finish, some (.outcome o) => some (.done (.finished o), b.endCall call)
    | .finish, some _ => some (.done (.finished .stale), b.endCall call)
    | .active, some (.snapshot s) => some (.done (.active s), b.endCall call)
    | .active, some _ => some (.done (.active none), b.endCall call)
    | .retire r, some (.released released) =>
      some (retire call r.cause r.total r.rest
        (b.departed r.current r.dropped released r.cause.reason))
    | .retire r, some _ =>
      some (retire call r.cause r.total r.rest
        (b.departed r.current r.dropped false r.cause.reason))
    | .shutdown workers, _ =>
      if workers.all b.hasStopped then some (.done .stopped, (b.log .stopped).endCall call)
      else none
    | _, none => none

end Broker

end EventBroker
