/-!
What happened, in order. Adding an entry and reading the entries since a given point take no more
time the longer the journal is.
-/

universe u

namespace EventBroker

structure Journal (α : Type u) where
  latest : List α := []
  size : Nat := 0
  size_eq : size = latest.length := by rfl

namespace Journal

variable {α : Type u}

instance : Inhabited (Journal α) := ⟨{}⟩

def push (j : Journal α) (a : α) : Journal α where
  latest := a :: j.latest
  size := j.size + 1
  size_eq := congrArg (· + 1) j.size_eq

def toList (j : Journal α) : List α := j.latest.reverse

def since (j : Journal α) (n : Nat) : List α := (j.latest.take (j.size - n)).reverse

@[simp] theorem toList_push (j : Journal α) (a : α) : (j.push a).toList = j.toList ++ [a] := by
  simp [toList, push]

end Journal

end EventBroker
