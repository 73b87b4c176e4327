universe u

namespace EventBroker

structure Reader (α : Type u) where
  unread : List α := []
  missed : Nat := 0

inductive Receipt (α : Type u)
  | empty
  | lagged (missed : Nat)
  | item (a : α)

namespace Reader

variable {α : Type u}

def offer (room : Nat) (a : α) (r : Reader α) : Reader α :=
  if r.unread.length < room then { r with unread := r.unread ++ [a] }
  else ⟨r.unread.tail ++ [a], r.missed + 1⟩

def take (r : Reader α) : Receipt α × Reader α :=
  if r.missed ≠ 0 then (.lagged r.missed, { r with missed := 0 })
  else
    match r.unread with
    | [] => (.empty, r)
    | a :: rest => (.item a, { r with unread := rest })

end Reader

structure Bus (α : Type u) where
  capacity : Nat
  readers : List (Reader α) := []

namespace Bus

variable {α : Type u}

def ofCapacity (n : Nat) : Bus α := { capacity := (max n 1).nextPowerOfTwo }

instance : Inhabited (Bus α) := ⟨ofCapacity 1⟩

def subscribe (b : Bus α) : Nat × Bus α :=
  (b.readers.length, { b with readers := b.readers ++ [{}] })

def publish (b : Bus α) (a : α) : Bus α :=
  { b with readers := b.readers.map (Reader.offer b.capacity a) }

def take (b : Bus α) (i : Nat) : Receipt α × Bus α :=
  match b.readers[i]? with
  | none => (.empty, b)
  | some r => (r.take.1, { b with readers := b.readers.set i r.take.2 })

def drain (b : Bus α) (i : Nat) : Nat × List α × Bus α :=
  match b.readers[i]? with
  | none => (0, [], b)
  | some r => (r.missed, r.unread, { b with readers := b.readers.set i {} })

end Bus

end EventBroker
