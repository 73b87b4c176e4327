import EventBroker.Event
import EventBroker.Fault

namespace EventBroker

structure Interest where
  events : SortedSet String := .empty
  entities : SortedSet String := .empty
  schemes : SortedSet String := .empty

namespace Interest

instance : Inhabited Interest := ⟨⟨.empty, .empty, .empty⟩⟩

def validate (i : Interest) : Except BrokerError Unit :=
  if i.events.isEmpty then .error .emptyFilter
  else if i.events.contains "" then .error .emptyEventName
  else .ok ()

def matchesName (i : Interest) (name : String) : Bool := i.events.contains name

def matchesScheme (i : Interest) (scheme : Option String) : Bool :=
  i.schemes.isEmpty || scheme.any i.schemes.contains

def matchesEvent (i : Interest) (e : Event) : Bool :=
  i.matchesName e.name && i.entities.subset e.entities && i.matchesScheme e.scheme

end Interest

end EventBroker
