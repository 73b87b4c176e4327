import EventBroker.Broker.State

namespace EventBroker.Broker

variable (b : Broker)

def applyEmission (e : Emission) : Broker :=
  match e with
  | .queued i => b.note (.queued (.observer i))
  | .lost none => b
  | .lost (some report) => b.emit report

def offer (r : Record) : Broker :=
  let (emissions, observers) := b.observers.emit r
  emissions.foldl applyEmission { b with observers }

def setListener (l : Listener) : Broker := { b with listener := some l }

/-- Cancelled, the listener lets the observers finish their queues and waits for them. With a record
on the bus as well, either may be taken up first; here it is the cancellation, as though the record
had been published later, when nobody forwards it. -/
def listenerStep : Option Broker :=
  match b.listener with
  | none => none
  | some l =>
    match l.stage with
    | .stopped => none
    | .draining =>
      if b.observers.allStopped then
        some ((b.setListener { l with stage := .stopped }).note (.stopped .listener))
      else none
    | .listening =>
      if b.cancelled then
        let b := { b with observers := b.observers.close }.setListener { l with stage := .draining }
        some ((List.range b.observers.members.length).foldl
          (fun b i => b.note (.queued (.observer i))) b)
      else
        match b.bus.take l.reader with
        | (.empty, _) => none
        | (.lagged _, bus) => some ({ b with bus }.offer (.observerOverflow "listener" "lagged"))
        | (.item r, bus) => some ({ b with bus }.offer r)

def observerStep (i : Nat) : Option Broker :=
  match b.observers.work i with
  | none => none
  | some (.stopped, observers) => some ({ b with observers }.note (.stopped (.observer i)))
  | some (.started o r, observers) =>
    let b := { b with observers }.note (.observing i r)
    some (if o.keepsLog then b.log r.logLine else b)

def observerConclude (i : Nat) (panic : Option Panic) : Broker :=
  match b.observers.done i panic with
  | (none, observers) => { b with observers }
  | (some report, observers) => { b with observers }.emit report

end EventBroker.Broker
