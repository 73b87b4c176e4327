import EventBroker.Permission
import EventBroker.PublishOptions
import EventBroker.Subscriber

/-!
Whether a publication reaches a subscription. It is `filtered` when the subscription does not ask
for it, does not see it, or is excluded by a pin or filter; `denied` when only permissions fail.
-/

namespace EventBroker

/-- An event with who publishes it and how. Admitted publications are numbered by the broker, so
that every copy of the event can be traced to its publication. -/
structure Publication where
  event : Event
  publisher : Owner
  options : PublishOptions
  serial : Nat := 0

inductive Verdict
  | deliver
  | filtered
  | denied
  deriving DecidableEq

def Verdict.name : Verdict → String
  | deliver => "Deliver"
  | filtered => "Filtered"
  | denied => "Denied"

/-- A subscription sees what is addressed to its user. Privileged publishers also reach it by
addressing nobody or everybody, and reach system users always. -/
def Scope.sees (s : Scope) (privileged : Bool) (a : Audience) : Bool :=
  match s with
  | .user id =>
    a == .user id || privileged && (a == .unspecified || a == .all || s.isSystemUser)
  | _ => true

def PublishOptions.checks (o : PublishOptions) (s : Subscriber) : List Bool :=
  (o.bundleFilter.map fun b => s.owner.bundle == b).toList ++
    (if o.uids.isEmpty then [] else [o.uids.contains s.owner.uid]) ++
    (if o.kind == some .system then [s.isSystem] else [])

def PublishOptions.allow (o : PublishOptions) (s : Subscriber) : Bool :=
  !o.hasFilters ||
    match o.rule with
    | .and => (o.checks s).all id
    | .or => (o.checks s).any id

namespace Subscriber

def accepts (s : Subscriber) (publisher : Owner) : Bool :=
  s.publisherBundle.all (fun b => b == "" || b == publisher.bundle) &&
    s.publisherUid.all (· == publisher.uid)

def wantsPermission (s : Subscriber) : Option String := s.permission.filter (· ≠ "")

end Subscriber

namespace Publication

variable (p : Publication) (o : Oracle) (s : Subscriber)

def audience : Audience := p.options.audience.resolve p.publisher

def eligible : Bool :=
  s.interest.matchesEvent p.event && s.scope.sees (o.isPrivileged p.publisher.token) p.audience &&
    s.accepts p.publisher && p.options.allow s

def permitted : Bool :=
  s.wantsPermission.all (o.hasPermission p.publisher.token) &&
    p.options.permissions.all (o.hasPermission s.owner.token) &&
    (o.requirement p.event.name).all fun r => r.metBy o s.owner.token

def verdict : Verdict :=
  if !p.eligible o s then .filtered else if p.permitted o s then .deliver else .denied

end Publication

end EventBroker
