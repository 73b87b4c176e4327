import EventBroker.Duration
import EventBroker.Subscriber

/-!
Items held for frozen subscriptions. Each subscription has a shelf in capture order; a capture
drops from its front what is older than the retention, counted back from the newest item.
-/

universe u

namespace EventBroker

structure Held (α : Type u) where
  subscriber : Subscriber
  item : α
  capturedAt : Instant

structure Shelf (α : Type u) where
  subscriber : Subscriber
  items : List (α × Instant) := []

namespace Shelf

variable {α : Type u}

def outdated (retention : Duration) (newest captured : Instant) : Bool :=
  retention.toNanos < newest.since captured

def prune (retention : Duration) (s : Shelf α) : Shelf α :=
  match s.items.getLast? with
  | none => s
  | some newest =>
    { s with items := s.items.dropWhile fun a => outdated retention newest.2 a.2 }

def push (s : Shelf α) (item : α) (now : Instant) : Shelf α :=
  { s with items := s.items ++ [(item, now)] }

def putBack (s : Shelf α) (item : α) (captured : Instant) : Shelf α :=
  { s with items := (item, captured) :: s.items }

def held (s : Shelf α) : List (Held α) := s.items.map fun a => ⟨s.subscriber, a.1, a.2⟩

end Shelf

structure Vault (α : Type u) where
  retention : Duration
  shelves : Table SubscriberId (Shelf α) := .empty

namespace Vault

variable {α : Type u}

def ofRetention (retention : Duration) : Vault α := { retention }

instance : Inhabited (Vault α) := ⟨ofRetention .zero⟩

def capture (v : Vault α) (s : Subscriber) (item : α) (now : Instant) : Vault α :=
  let shelf := (v.shelves.get? s.id).getD { subscriber := s }
  { v with shelves := v.shelves.insert s.id ((shelf.push item now).prune v.retention) }

def flush (v : Vault α) (sel : Selector) : List (Held α) × Vault α :=
  let picked := v.shelves.rows.filter fun row => sel.selects row.2.subscriber.owner
  (picked.flatMap fun row => row.2.held,
    { v with shelves := picked.foldl (fun t row => t.erase row.1) v.shelves })

def putBack (v : Vault α) (h : Held α) : Vault α :=
  let shelf := (v.shelves.get? h.subscriber.id).getD { subscriber := h.subscriber }
  { v with shelves := v.shelves.insert h.subscriber.id (shelf.putBack h.item h.capturedAt) }

def pruneShelf (v : Vault α) (id : SubscriberId) : Vault α :=
  { v with shelves := v.shelves.alter id fun s => s.map (Shelf.prune v.retention) }

def pendingFor (v : Vault α) (id : SubscriberId) : Nat :=
  ((v.shelves.get? id).map fun s => s.items.length).getD 0

/-- Puts taken items back ahead of what was captured since, unless their subscription is gone,
and prunes the shelves that grew. Returns how many items those shelves then hold. -/
def restore (v : Vault α) (batch : List (Held α)) (live : SubscriberId → Bool) : Nat × Vault α :=
  let batch := batch.filter fun h => live h.subscriber.id
  let touched := (SortedSet.ofList (batch.map fun h => h.subscriber.id)).toList
  let v := touched.foldl pruneShelf (batch.foldr (fun h v => v.putBack h) v)
  (touched.foldl (fun n id => n + v.pendingFor id) 0, v)

def purge (v : Vault α) (id : SubscriberId) : Nat × Vault α :=
  (v.pendingFor id, { v with shelves := v.shelves.erase id })

def size (v : Vault α) : Nat := v.shelves.values.foldl (fun n s => n + s.items.length) 0

def isEmpty (v : Vault α) : Bool := v.shelves.isEmpty

end Vault

end EventBroker
