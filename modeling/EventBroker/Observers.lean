import EventBroker.Fault
import EventBroker.Record

/-!
Observers of the broker's records. Each has a bounded queue and works through it on its own; a
record that finds a queue full is lost to that observer only, and the loss is reported unless the
record is itself such a report.
-/

namespace EventBroker

structure Observer where
  name : String
  capacity : Nat := 1024
  keepsLog : Bool := false
  queue : List Record := []
  busy : Option Record := none
  stopped : Bool := false

namespace Observer

instance : Inhabited Observer := ⟨{ name := "" }⟩

def room (o : Observer) : Nat := max o.capacity 1

def isFull (o : Observer) : Bool := o.room ≤ o.queue.length

end Observer

inductive Emission
  | queued (observer : Nat)
  | lost (report : Option Record)

structure Observers where
  members : List Observer := []
  closed : Bool := false

namespace Observers

instance : Inhabited Observers := ⟨{}⟩

def isEmpty (os : Observers) : Bool := os.members.isEmpty

def overflowReport (r : Record) (name reason : String) : Option Record :=
  if r.isObserverOverflow then none else some (.observerOverflow name reason)

def offer (r : Record) (i : Nat) (o : Observer) : Emission × Observer :=
  if o.stopped then (.lost (overflowReport r o.name "closed"), o)
  else if o.isFull then (.lost (overflowReport r o.name "full"), o)
  else (.queued i, { o with queue := o.queue ++ [r] })

def emit (os : Observers) (r : Record) : List Emission × Observers :=
  let offers := os.members.mapIdx fun i o => offer r i o
  (offers.map (·.1), { os with members := offers.map (·.2) })

def close (os : Observers) : Observers := { os with closed := true }

def allStopped (os : Observers) : Bool := os.members.all (·.stopped)

inductive Progress
  | started (observer : Observer) (r : Record)
  | stopped

def work (os : Observers) (i : Nat) : Option (Progress × Observers) :=
  match os.members[i]? with
  | none => none
  | some o =>
    if o.stopped || o.busy.isSome then none
    else
      match o.queue with
      | r :: rest =>
        some (.started o r,
          { os with members := os.members.set i { o with queue := rest, busy := some r } })
      | [] =>
        if os.closed then
          some (.stopped, { os with members := os.members.set i { o with stopped := true } })
        else none

def done (os : Observers) (i : Nat) (panic : Option Panic) : Option Record × Observers :=
  match os.members[i]? with
  | none => (none, os)
  | some o =>
    if o.busy.isNone then (none, os)
    else
      (panic.map fun p => .observerPanicked o.name p.describe,
        { os with members := os.members.set i { o with busy := none } })

end Observers

end EventBroker
