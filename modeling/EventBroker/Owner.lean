import EventBroker.Table

namespace EventBroker

structure SubscriberId where
  val : Nat
  deriving DecidableEq

namespace SubscriberId

instance : Inhabited SubscriberId := ⟨⟨0⟩⟩

instance : Ord SubscriberId := ⟨fun a b => compare a.val b.val⟩

theorem compare_def (a b : SubscriberId) : compare a b = compare a.val b.val := rfl

instance : Std.TransOrd SubscriberId where
  eq_swap {a b} := (Std.OrientedCmp.eq_swap : compare a.val b.val = _)
  isLE_trans {a b c} h₁ h₂ := by
    simp only [compare_def] at *
    exact Std.TransCmp.isLE_trans h₁ h₂

instance : Std.LawfulEqOrd SubscriberId where
  compare_self {a} := (Std.ReflCmp.compare_self : compare a.val a.val = .eq)
  eq_of_compare {a b} h := congrArg mk (Std.compare_eq_iff_eq.1 (compare_def a b ▸ h))

def name (i : SubscriberId) : String := "sub-" ++ toString i.val

end SubscriberId

structure ChainId where
  val : Nat
  deriving DecidableEq

def ChainId.name (i : ChainId) : String := "chain-" ++ toString i.val

abbrev Pid := Nat

abbrev Uid := Nat

abbrev UserId := Int

abbrev Token := Nat

/-- A process that subscribes or publishes. An empty bundle name stands for the one its uid has. -/
structure Owner where
  pid : Pid
  uid : Uid
  user : UserId
  bundle : String
  token : Token
  deriving DecidableEq

instance : Inhabited Owner := ⟨⟨0, 0, 100, "", 0⟩⟩

def systemUserFirst : UserId := 0

def systemUserLast : UserId := 99

inductive Scope
  | all
  | current
  | user (id : UserId)
  deriving DecidableEq

namespace Scope

def resolve (s : Scope) (o : Owner) : Scope :=
  match s with
  | .current => .user o.user
  | s => s

def isSystemUser : Scope → Bool
  | .user id => systemUserFirst ≤ id && id ≤ systemUserLast
  | _ => false

end Scope

inductive Audience
  | unspecified
  | all
  | current
  | user (id : UserId)
  deriving DecidableEq

def Audience.resolve (a : Audience) (publisher : Owner) : Audience :=
  match a with
  | .current => .user publisher.user
  | a => a

inductive Selector
  | all
  | uid (id : Uid)
  | pids (ids : List Pid)
  deriving DecidableEq

def Selector.selects : Selector → Owner → Bool
  | .all, _ => true
  | .uid id, o => o.uid == id
  | .pids ids, o => ids.contains o.pid

end EventBroker
