import EventBroker.Duration
import EventBroker.Event
import EventBroker.Subscriber

/-!
One ordered publication on its way through its receivers. A chain is pure data: whoever drives it
performs the hand-offs and feeds their results back. Each receiver's delivery is settled at most
once, and only the receiver the chain is parked on can finish.
-/

namespace EventBroker

structure Flags where
  ordered : Bool
  sticky : Bool
  deriving DecidableEq

/-- One copy of a published event, with the number of its publication. -/
structure Copy where
  serial : Nat
  event : Event

instance : Inhabited Copy := ⟨⟨0, default⟩⟩

inductive DeliveryState
  | pending
  | delivered
  | skipped
  | timeout
  deriving DecidableEq

inductive ChainState
  | idle
  | receiving
  | received
  deriving DecidableEq

inductive Outcome
  | accepted
  | stale
  deriving DecidableEq

inductive FinishReason
  | exhausted
  | aborted
  | watchdog
  deriving DecidableEq

def FinishReason.name : FinishReason → String
  | exhausted => "exhausted"
  | aborted => "aborted"
  | watchdog => "watchdog"

/-- What comes next for a chain; an `overrun` if the clock cannot tell. -/
inductive ChainStep
  | deliver (index : Nat) (receiver : SubscriberId)
  | finalize (reason : FinishReason)
  | overrun
  deriving DecidableEq

structure Chain where
  id : ChainId
  copy : Copy
  sticky : Bool
  receivers : List SubscriberId
  deliveries : List DeliveryState
  cursor : Nat := 0
  current : Option Nat := none
  state : ChainState := .idle
  abort : Bool := false
  expired : Bool := false
  receiverTimeout : Duration
  watchdogBudget : Duration
  startedAt : Option Instant := none
  receivingSince : Option Instant := none
  finalReceiver : Option Receiver := none

structure ChainSnapshot where
  id : ChainId
  event : Event
  index : Option Nat
  receiver : Option SubscriberId
  state : ChainState
  deliveries : List DeliveryState

namespace Chain

def ofReceivers (id : ChainId) (copy : Copy) (sticky : Bool) (receivers : List SubscriberId)
    (receiverTimeout watchdogBudget : Duration) (finalReceiver : Option Receiver) : Chain where
  id
  copy
  sticky
  receivers
  deliveries := receivers.map fun _ => .pending
  receiverTimeout
  watchdogBudget
  finalReceiver

variable (c : Chain)

def event : Event := c.copy.event

def flags : Flags := ⟨true, c.sticky⟩

def delivered : Nat := c.deliveries.count .delivered

def receiver? : Option SubscriberId := c.current.bind fun i => c.receivers[i]?

def awaiting : Option SubscriberId := if c.state = .received then c.receiver? else none

def receiverDeadline : Option Instant :=
  if c.state = .received then c.receivingSince.map (·.after c.receiverTimeout) else none

def watchdogDeadline : Option Instant := c.startedAt.map (·.after c.watchdogBudget)

def due (deadline : Option Instant) (now : Instant) : Bool := deadline.any (· ≤ now)

/-- The watchdog's deadline is past the end of the clock, and to ask for it fails. -/
def watchdogOverruns : Bool := c.startedAt.any fun t => (t.after? c.watchdogBudget).isNone

def receiverOverruns : Bool :=
  decide (c.state = .received) &&
    c.receivingSince.any fun t => (t.after? c.receiverTimeout).isNone

def overruns : Bool := c.receiverOverruns || c.watchdogOverruns

def start (now : Instant) : Chain := { c with startedAt := c.startedAt.or (some now) }

/-- Decides what comes next: an abort goes before the watchdog, the watchdog before the next
receiver. A deadline that is due is not past the end of the clock. -/
def next (now : Instant) : ChainStep × Chain :=
  let c := { c with current := none, state := .idle }
  if c.abort then (.finalize .aborted, c)
  else if c.expired || due c.watchdogDeadline now then
    (.finalize .watchdog, { c with expired := true })
  else if c.watchdogOverruns then (.overrun, c)
  else
    match c.receivers[c.cursor]? with
    | some r =>
      (.deliver c.cursor r, { c with cursor := c.cursor + 1, current := some c.cursor })
    | none => (.finalize .exhausted, { c with cursor := c.cursor + 1 })

def settle (how : DeliveryState) : Chain :=
  match c.current with
  | none => c
  | some i =>
    { c with
      current := none
      deliveries := c.deliveries.modify i fun s => if s = .pending then how else s }

def skip : Chain := { c.settle .skipped with state := .idle }

def beginReceiving (now : Instant) : Chain :=
  { c with state := .receiving, receivingSince := some now }

def handedOff : Chain := if c.state = .receiving then { c with state := .received } else c

/-- Accepted only from the receiver the chain is parked on. -/
def finish (receiver : SubscriberId) (code : Int) (data : String) (abort : Bool) :
    Outcome × Chain :=
  if c.awaiting = some receiver then
    (.accepted,
      { c.settle .delivered with
        copy := { c.copy with event := c.event.setResult code data }
        abort
        state := .idle
        receivingSince := none })
  else (.stale, c)

def release : Option SubscriberId × Chain :=
  match c.awaiting with
  | none => (none, c)
  | some r => (some r, (c.finish r c.event.code c.event.data c.abort).2)

def expireReceiver : Option SubscriberId × Chain :=
  match c.awaiting with
  | none => (none, c)
  | some r => (some r, { c.settle .timeout with state := .idle, receivingSince := none })

def expire : Option SubscriberId × Chain := expireReceiver { c with expired := true }

def snapshot : ChainSnapshot where
  id := c.id
  event := c.event
  index := c.current
  receiver := c.receiver?
  state := c.state
  deliveries := c.deliveries

end Chain

end EventBroker
