import EventBroker.Interest
import EventBroker.Text.Quoted

namespace EventBroker

structure Receiver where
  handle : Nat
  name : String
  deriving DecidableEq

structure Subscription where
  interest : Interest
  owner : Owner
  priority : Int := 0
  permission : Option String := none
  publisherBundle : Option String := none
  publisherUid : Option Uid := none
  scope : Scope := .current
  receiver : Receiver := ⟨0, ""⟩

structure Subscriber where
  id : SubscriberId
  interest : Interest
  owner : Owner
  priority : Int
  permission : Option String
  publisherBundle : Option String
  publisherUid : Option Uid
  scope : Scope
  isSystem : Bool
  receiver : Receiver

namespace Subscriber

instance : Inhabited Subscriber :=
  ⟨⟨default, default, default, 0, none, none, none, .all, false, ⟨0, ""⟩⟩⟩

def ofSubscription (id : SubscriberId) (s : Subscription) (isSystem : Bool) : Subscriber where
  id
  interest := s.interest
  owner := s.owner
  priority := s.priority
  permission := s.permission
  publisherBundle := s.publisherBundle
  publisherUid := s.publisherUid
  scope := s.scope.resolve s.owner
  isSystem
  receiver := s.receiver

def describeScope : Scope → String
  | .all => "All"
  | .current => "Current"
  | .user id => "User(" ++ toString id ++ ")"

def describeOwner (o : Owner) : String :=
  "OwnerInfo \x7b pid: " ++ toString o.pid ++ ", uid: " ++ toString o.uid ++
    ", user_id: " ++ toString o.user ++ ", bundle_name: " ++ Text.quoted o.bundle ++
    ", token: AccessToken(" ++ toString o.token ++ ") \x7d"

def describe (s : Subscriber) : String :=
  "Subscriber \x7b id: SubscriberId(" ++ toString s.id.val ++ "), owner: " ++
    describeOwner s.owner ++ ", priority: " ++ toString s.priority ++
    ", scope: " ++ describeScope s.scope ++ ", receiver: " ++ Text.quoted s.receiver.name ++
    ", .. \x7d"

end Subscriber

end EventBroker
