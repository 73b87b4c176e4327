import EventBroker.Owner

namespace EventBroker

inductive FilterRule
  | and
  | or
  deriving DecidableEq

inductive SubscriberKind
  | all
  | system
  deriving DecidableEq

structure PublishOptions where
  ordered : Bool := false
  sticky : Bool := false
  bundle : Option String := none
  permissions : List String := []
  uids : List Uid := []
  kind : Option SubscriberKind := none
  rule : FilterRule := .and
  audience : Audience := .unspecified
  deriving DecidableEq

namespace PublishOptions

instance : Inhabited PublishOptions := ⟨{}⟩

def bundleFilter (o : PublishOptions) : Option String := o.bundle.filter (· ≠ "")

def hasFilters (o : PublishOptions) : Bool :=
  o.bundleFilter.isSome || !o.uids.isEmpty || o.kind == some .system

end PublishOptions

end EventBroker
