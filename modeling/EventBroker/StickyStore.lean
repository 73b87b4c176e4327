import EventBroker.Matching

namespace EventBroker

structure StickyStore where
  values : Table String Publication := .empty

namespace StickyStore

instance : Inhabited StickyStore := ⟨{}⟩

def put (s : StickyStore) (p : Publication) : StickyStore :=
  { s with values := s.values.insert p.event.name p }

def get? (s : StickyStore) (name : String) : Option Publication := s.values.get? name

end StickyStore

end EventBroker
