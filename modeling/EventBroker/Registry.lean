import EventBroker.Duration
import EventBroker.Matching

namespace EventBroker

structure Entry where
  subscriber : Subscriber
  frozenAt : Option Instant := none

def Entry.mark (e : Entry) (frozen : Bool) (now : Instant) : Entry :=
  if frozen then { e with frozenAt := e.frozenAt.or (some now) } else { e with frozenAt := none }

structure Registry where
  ceiling : Option Nat
  issued : Nat := 0
  entries : Table SubscriberId Entry := .empty
  byEvent : Table String (SortedSet SubscriberId) := .empty
  perPid : Table Pid Nat := .empty

structure Eviction where
  pid : Pid
  count : Nat
  deriving DecidableEq

structure Admitted where
  subscriber : Subscriber
  evicted : Option Eviction

structure MatchResult where
  matched : List Subscriber := []
  denied : Nat := 0

namespace Registry

def ofCeiling (ceiling : Option Nat) : Registry := { ceiling }

instance : Inhabited Registry := ⟨ofCeiling none⟩

variable (r : Registry)

def size : Nat := r.entries.size

def entry? (id : SubscriberId) : Option Entry := r.entries.get? id

def contains (id : SubscriberId) : Bool := r.entries.contains id

def countOf (pid : Pid) : Nat := (r.perPid.get? pid).getD 0

def idsOf (pid : Pid) : List SubscriberId :=
  (r.entries.rows.filter fun row => row.2.subscriber.owner.pid == pid).map (·.1)

/-- The process with the most live subscriptions; the lowest pid among equals. -/
def topOwner : Option Eviction :=
  r.perPid.rows.foldl
    (fun top row =>
      match top with
      | none => some ⟨row.1, row.2⟩
      | some best => if best.count < row.2 then some ⟨row.1, row.2⟩ else some best)
    none

def isFull : Bool := r.ceiling.any (· ≤ r.size)

def victim : Option Eviction := if r.isFull then r.topOwner else none

def add (s : Subscriber) : Registry :=
  { r with
    issued := r.issued + 1
    entries := r.entries.insert s.id { subscriber := s }
    byEvent := s.interest.events.toList.foldl
      (fun ix name => ix.alter name fun ids => some ((ids.getD .empty).insert s.id)) r.byEvent
    perPid := r.perPid.alter s.owner.pid fun n => some (n.getD 0 + 1) }

/-- At the ceiling the request is refused if the caller owns the most subscriptions; otherwise
the owner that does is reported and the caller admitted. -/
def subscribe (req : Subscription) (isSystem : Bool) :
    Except BrokerError (Admitted × Registry) :=
  match req.interest.validate with
  | .error e => .error e
  | .ok () =>
    let s := Subscriber.ofSubscription ⟨r.issued + 1⟩ req isSystem
    match r.victim with
    | none => .ok (⟨s, none⟩, r.add s)
    | some v =>
      if v.pid = req.owner.pid then .error (.tooManySubscribers v.pid v.count)
      else .ok (⟨s, some v⟩, r.add s)

def dropId (id : SubscriberId) (ids : Option (SortedSet SubscriberId)) :
    Option (SortedSet SubscriberId) :=
  ids.bind fun ids => let left := Table.erase ids id; if left.isEmpty then none else some left

def dropOne (n : Option Nat) : Option Nat :=
  n.bind fun n => if n ≤ 1 then none else some (n - 1)

def unsubscribe (id : SubscriberId) : Option (Subscriber × Registry) :=
  (r.entry? id).map fun e =>
    (e.subscriber,
      { r with
        entries := r.entries.erase id
        byEvent := e.subscriber.interest.events.toList.foldl
          (fun ix name => ix.alter name (dropId id)) r.byEvent
        perPid := r.perPid.alter e.subscriber.owner.pid dropOne })

def unsubscribeAll : List SubscriberId → Registry → List Subscriber × Registry
  | [], r => ([], r)
  | id :: rest, r =>
    match r.unsubscribe id with
    | none => unsubscribeAll rest r
    | some (s, r) => ((s :: (unsubscribeAll rest r).1), (unsubscribeAll rest r).2)

def removeOwner (pid : Pid) : List Subscriber × Registry := unsubscribeAll (r.idsOf pid) r

def declaring (name : String) : List Subscriber :=
  ((r.byEvent.get? name).getD .empty).toList.filterMap fun id => (r.entry? id).map (·.subscriber)

/-- Who gets a publication: highest priority first, registration order among equals. -/
def matching (o : Oracle) (p : Publication) : MatchResult :=
  let candidates := r.declaring p.event.name
  { matched := (candidates.filter fun s => p.verdict o s == .deliver).mergeSort
      fun a b => b.priority ≤ a.priority
    denied := candidates.countP fun s => p.verdict o s == .denied }

def updateFreeze (sel : Selector) (frozen : Bool) (now : Instant) : Nat × Registry :=
  (r.entries.values.countP fun e =>
      sel.selects e.subscriber.owner && e.frozenAt.isSome != frozen,
    { r with
      entries := r.entries.map fun e =>
        if sel.selects e.subscriber.owner then e.mark frozen now else e })

end Registry

end EventBroker
