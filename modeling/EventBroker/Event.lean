import EventBroker.Table

namespace EventBroker

structure Event where
  name : String
  entities : SortedSet String := .empty
  scheme : Option String := none
  code : Int := 0
  data : String := ""
  params : Table String String := .empty
  deriving DecidableEq

namespace Event

instance : Inhabited Event := ⟨⟨"", .empty, none, 0, "", .empty⟩⟩

def named (name : String) : Event := ⟨name, .empty, none, 0, "", .empty⟩

def addEntity (e : Event) (entity : String) : Event :=
  { e with entities := e.entities.insert entity }

def setScheme (e : Event) (scheme : String) : Event := { e with scheme := some scheme }

def setCode (e : Event) (code : Int) : Event := { e with code }

def setData (e : Event) (data : String) : Event := { e with data }

def setParam (e : Event) (key value : String) : Event :=
  { e with params := e.params.insert key value }

def param? (e : Event) (key : String) : Option String := e.params.get? key

def setResult (e : Event) (code : Int) (data : String) : Event := { e with code, data }

end Event

end EventBroker
