import EventBroker.Simulation.World

namespace EventBroker.Simulation

def patience : Nat := 1000000000

namespace World

def await (call giveUp turns : Nat) : Nat → World → Reply × World
  | 0, w => (.stuck, w)
  | fuel + 1, w =>
    let w := w.settle turns
    match w.broker.resume call with
    | some (.done r, b) => (.response r, w.become b)
    | some (.waiting call, b) => await call giveUp turns fuel (w.become b)
    | none =>
      match w.nextTimer with
      | some t =>
        if t < giveUp then await call giveUp turns fuel (w.moveTo t)
        else (.stuck, w.moveTo giveUp)
      | none => (.stuck, w.moveTo giveUp)

def complete (fuel : Nat) (w : World) (p : Progress × Broker) : Reply × World :=
  let w := w.become p.2
  match p.1 with
  | .done r => (.response r, w)
  | .waiting call => w.await call (w.nowMs + patience) fuel fuel

mutual

def perform (fuel : Nat) (w : World) : Step → Reply × World
  | .request r => w.request r
  | .unsubscribe id => w.complete fuel (w.broker.unsubscribe id)
  | .ownerDied pid => w.complete fuel (w.broker.ownerDied pid)
  | .finish receiver code data abort =>
    w.complete fuel (w.broker.finishReceiver receiver code data abort)
  | .active receiver => w.complete fuel (w.broker.activeReceiverOf receiver)
  | .advance ms => (.nothing, w.sleep ms fuel fuel)
  | .shutdown => w.complete fuel w.broker.shutdown
  | .batch steps =>
    let (replies, w) := performAll fuel w steps
    (.batch replies, w)

def performAll (fuel : Nat) (w : World) : List Step → List Reply × World
  | [] => ([], w)
  | s :: rest =>
    let (reply, w) := perform fuel w s
    let (replies, w) := performAll fuel w rest
    (reply :: replies, w)

end

end World

structure Report where
  reply : Reply
  now : Nat
  noted : List Noted
  missed : Nat
  records : List Record
  occurrences : List Occurrence
  observers : List (Option String)

namespace Report

inductive Contact
  | kill (pid : Pid) (reason : String)
  | remember (p : Publication)
  | announce (p : Publication)

def contacts (r : Report) : List Contact :=
  r.occurrences.filterMap fun
    | .killed pid reason => some (.kill pid reason)
    | .remembered p => some (.remember p)
    | .announced p => some (.announce p)
    | _ => none

def log (r : Report) : List LogLine :=
  r.occurrences.filterMap fun
    | .logged l => some l
    | _ => none

def observedBy (r : Report) (name : String) : List Record :=
  r.occurrences.filterMap fun
    | .observing i record => if r.observers[i]? = some (some name) then some record else none
    | _ => none

def observations (r : Report) : List (String × List Record) :=
  (r.observers.reduceOption.map fun name => (name, r.observedBy name)).filter fun o => !o.2.isEmpty

end Report

/-- How a session is set up. Without a policy everything is allowed; a later bundle entry for a
uid replaces an earlier one. -/
structure Setup where
  config : Config := {}
  policy : Option Policy := none
  bundles : List (Uid × String) := []
  observers : List (Observer × Watcher) := []

namespace World

def around (b : Broker) (s : Setup) : Nat × World :=
  let (reader, b) := b.watch
  (reader,
    { broker := b
      policy := s.policy.getD {}
      governed := s.policy.isSome
      watchers := s.observers.map (·.2) })

def report (fuel reader : Nat) (w : World) (act : World → Reply × World) : Report × World :=
  let start := w.broker.past.size
  let (reply, w) := act { w with noted := #[] }
  let w := w.settle fuel
  let (missed, records, bus) := w.broker.bus.drain reader
  ({ reply
     now := w.nowMs
     noted := w.noted.toList
     missed
     records
     occurrences := (w.broker.past.since start).map (·.2)
     observers := w.broker.observers.members.map fun o =>
       if o.keepsLog then none else some o.name },
    { w with broker := { w.broker with bus } })

def reports {α : Type} (fuel reader : Nat) (act : α → World → Reply × World) :
    List α → World → List Report
  | [], _ => []
  | a :: rest, w =>
    let (r, w) := w.report fuel reader (act a)
    r :: reports fuel reader act rest w

end World

def Setup.session (s : Setup) (fuel : Nat) (steps : List Step) : List Report :=
  let oracle := (s.policy.map Policy.oracle).getD .allowAll
  let bundleOf := fun uid => s.bundles.reverse.lookup uid
  let b := Broker.start s.config oracle bundleOf (s.observers.map (·.1))
  let (reader, w) := World.around b s
  let w := { w with ready :=
    (List.range s.observers.length).map Worker.observer ++ b.workers }
  World.reports fuel reader (fun step w => w.perform fuel step) steps (w.settle fuel)

inductive ObserverStep
  | emit (records : List Record)
  | advance (ms : Nat)
  | shutdown

namespace World

def drainObservers (turns : Nat) : Nat → World → World
  | 0, w => w
  | fuel + 1, w =>
    let w := w.settle turns
    if w.broker.observers.allStopped then w
    else
      match w.nextTimer with
      | some t => drainObservers turns fuel (w.moveTo t)
      | none => w

def performObserverStep (fuel : Nat) (s : ObserverStep) (w : World) : Reply × World :=
  match s with
  | .emit records =>
    if w.broker.observers.closed then (.nothing, w)
    else (.nothing, records.foldl (fun w r => w.become (w.broker.offer r)) w)
  | .advance ms => (.nothing, w.sleep ms fuel fuel)
  | .shutdown =>
    let w := w.become { w.broker with observers := w.broker.observers.close }
    let w := (List.range w.broker.observers.members.length).foldl
      (fun w i => w.wake (.observer i)) w
    (.nothing, drainObservers fuel fuel w)

end World

def Setup.observing (s : Setup) (fuel : Nat) (steps : List ObserverStep) : List Report :=
  let b := Broker.start s.config .allowAll (fun _ => none) []
  let b := { b with observers := { members := s.observers.map (·.1) } }
  let (reader, w) := World.around b s
  World.reports fuel reader (World.performObserverStep fuel) steps w

end EventBroker.Simulation
