import EventBroker.Duration

namespace EventBroker

def maxCount : Nat := UInt32.size - 1

/-- The settings of a broker. No ceiling and no hand-off limit are written as zero. -/
structure Config where
  maxSubscribers : Nat := 512
  receiverTimeout : Duration := .ofMillis 10000
  watchdogFactor : Nat := 2
  freezeRetention : Duration := .ofMillis 500000
  queueCapacity : Nat := 1024
  busCapacity : Nat := 1024
  handoffTimeout : Duration := .ofMillis 5000
  stickyPermission : Option String := some "permission.COMMONEVENT_STICKY"

namespace Config

instance : Inhabited Config := ⟨{}⟩

def ceiling (c : Config) : Option Nat :=
  if c.maxSubscribers = 0 then none else some c.maxSubscribers

def handoffLimit (c : Config) : Option Duration :=
  if c.handoffTimeout = .zero then none else some c.handoffTimeout

/-- How long a chain of `receivers` may take: a multiple of the receiver timeout for each of them,
saturating after each of the two multiplications. -/
def watchdogBudget (c : Config) (receivers : Nat) : Duration :=
  (c.receiverTimeout.mul (max c.watchdogFactor 1)).mul (min (max receivers 1) maxCount)

def queueRoom (c : Config) : Nat := max c.queueCapacity 1

def busRoom (c : Config) : Nat := max c.busCapacity 1

end Config

end EventBroker
