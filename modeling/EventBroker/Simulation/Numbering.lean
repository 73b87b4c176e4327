import EventBroker.Record

/-!
Records are numbered in the order they are made. A chain id is there once the ordered publication
of that number was admitted, and each admitted publication makes a record; so whoever makes a
record and then gets hold of the chain it names has gone past that many numbers.
-/

namespace EventBroker.Simulation

def numberStep (r : Record) : Nat := 1 + (r.chain.map (·.val)).getD 0

end EventBroker.Simulation
