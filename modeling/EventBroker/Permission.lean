import EventBroker.Owner

namespace EventBroker

inductive PermissionRule
  | all
  | any
  deriving DecidableEq

structure Requirement where
  permissions : List String
  rule : PermissionRule
  deriving DecidableEq

structure Oracle where
  hasPermission : Token → String → Bool
  isPrivileged : Token → Bool
  requirement : String → Option Requirement
  isProtected : String → Bool

def Oracle.allowAll : Oracle where
  hasPermission _ _ := true
  isPrivileged _ := true
  requirement _ := none
  isProtected _ := false

def Requirement.metBy (r : Requirement) (o : Oracle) (t : Token) : Bool :=
  r.permissions.isEmpty ||
    match r.rule with
    | .all => r.permissions.all (o.hasPermission t)
    | .any => r.permissions.any (o.hasPermission t)

structure Policy where
  grants : List (Token × String) := []
  privileged : List Token := []
  protectedEvents : List String := []
  required : List (String × Requirement) := []
  plain : Bool := false

namespace Policy

def oracle (p : Policy) : Oracle where
  hasPermission t permission := p.grants.contains (t, permission)
  isPrivileged t := p.privileged.contains t
  requirement event := if p.plain then none else p.required.lookup event
  isProtected event := !p.plain && p.protectedEvents.contains event

def grant (p : Policy) (t : Token) (permission : String) : Bool × Policy :=
  if p.grants.contains (t, permission) then (false, p)
  else (true, { p with grants := (t, permission) :: p.grants })

def revoke (p : Policy) (t : Token) (permission : String) : Bool × Policy :=
  (p.grants.contains (t, permission),
    { p with grants := p.grants.filter (· ≠ (t, permission)) })

def setPrivileged (p : Policy) (t : Token) (on : Bool) : Bool × Policy :=
  if p.privileged.contains t = on then (false, p)
  else if on then (true, { p with privileged := t :: p.privileged })
  else (true, { p with privileged := p.privileged.filter (· ≠ t) })

def require (p : Policy) (event : String) (r : Requirement) : Policy :=
  { p with required := (event, r) :: p.required.filter (·.1 ≠ event) }

end Policy

end EventBroker
