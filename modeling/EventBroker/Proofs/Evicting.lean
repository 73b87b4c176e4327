import EventBroker.Proofs.Ceiling
import EventBroker.Proofs.Effects.Topics
import EventBroker.Proofs.Notifying

namespace EventBroker

namespace Registry

variable (r : Registry)

def evicts : Request → List Eviction
  | .subscribe req isSystem =>
    match r.subscribe req isSystem with
    | .ok (a, _) => a.evicted.toList
    | .error _ => []
  | .unsubscribe _ => []
  | .removeOwner _ => []
  | .updateFreeze _ _ _ => []

def evictions (r : Registry) : List Request → List Eviction
  | [] => []
  | q :: rest => r.evicts q ++ (r.apply q).evictions rest

theorem ceiling_unsubscribe {r r' : Registry} {s : Subscriber} {id : SubscriberId}
    (h : r.unsubscribe id = some (s, r')) : r'.ceiling = r.ceiling := by
  obtain ⟨e, -, he⟩ := Option.map_eq_some_iff.1 h
  cases he
  rfl

theorem ceiling_unsubscribeAll (ids : List SubscriberId) (r : Registry) :
    (unsubscribeAll ids r).2.ceiling = r.ceiling := by
  induction ids generalizing r with
  | nil => rfl
  | cons id rest ih =>
    rw [unsubscribeAll]
    split
    · exact ih r
    · rename_i hu
      exact (ih _).trans (ceiling_unsubscribe hu)

theorem ceiling_apply (q : Request) : (r.apply q).ceiling = r.ceiling := by
  cases q with
  | subscribe req isSystem =>
    rw [apply]
    cases hs : r.subscribe req isSystem with
    | error e => rfl
    | ok x =>
      dsimp only
      rw [(subscribe_adds hs).2]
      rfl
  | unsubscribe id =>
    rw [apply]
    cases hu : r.unsubscribe id with
    | none => rfl
    | some x => exact ceiling_unsubscribe hu
  | removeOwner pid => exact ceiling_unsubscribeAll _ r
  | updateFreeze sel frozen now => rfl

theorem ceiling_run (requests : List Request) : (r.run requests).ceiling = r.ceiling := by
  induction requests generalizing r with
  | nil => rfl
  | cons q rest ih => exact (ih (r.apply q)).trans (r.ceiling_apply q)

end Registry

def Occurrence.kill? : Occurrence → Option (Pid × String)
  | .killed pid reason => some (pid, reason)
  | _ => none

theorem Occurrence.Within.kill?_eq {ts : List Topic} {o : Occurrence} (h : o.Within ts)
    (hts : .killed ∉ ts) : o.kill? = none := by
  cases o with
  | killed pid reason => exact absurd (h _ rfl) hts
  | _ => rfl

theorem Action.killed_topics {a : Action} (h : ∀ req, a ≠ .subscribe req) :
    .killed ∉ a.topics := by
  cases a with
  | subscribe req => exact absurd rfl (h req)
  | work w => cases w <;> simp [topics, Topic.sequencing]
  | handedOff w reception => cases w <;> simp [topics, Topic.concluding]
  | _ => simp [topics, Topic.publishing]

namespace Broker

variable (b : Broker)

def named (req : Subscription) : Subscription :=
  { req with owner := b.resolveBundle req.owner }

def enrollment : Action → Option Registry.Request
  | .subscribe req =>
    if b.cancelled then none
    else some (.subscribe (b.named req) (b.oracle.isPrivileged (b.named req).owner.token))
  | .unsubscribe id => some (.unsubscribe id)
  | .ownerDied pid => some (.removeOwner pid)
  | .updateFreeze sel frozen => some (.updateFreeze sel frozen b.now)
  | _ => none

def enrollments (b : Broker) : List Action → List Registry.Request
  | [] => []
  | a :: rest => (b.enrollment a).toList ++ (b.act a).enrollments rest

inductive Subscribes (req : Subscription) : Except BrokerError SubscriberId → Broker → Prop
  | closed (hc : b.cancelled = true) : Subscribes req (.error .closed) b
  | refused {e : BrokerError} (hc : b.cancelled = false)
      (hr : b.registry.subscribe (b.named req)
        (b.oracle.isPrivileged (b.named req).owner.token) = .error e) :
    Subscribes req (.error e) (b.subscriptionRefused e)
  | admitted {a : Admitted} {r : Registry} (hc : b.cancelled = false)
      (hr : b.registry.subscribe (b.named req)
        (b.oracle.isPrivileged (b.named req).owner.token) = .ok (a, r)) :
    Subscribes req (.ok a.subscriber.id) ({ b with registry := r }.welcome a)

variable {b} in
theorem subscribes {b' : Broker} {req : Subscription} {result : Except BrokerError SubscriberId}
    (h : b.subscribe req = (result, b')) : b.Subscribes req result b' := by
  rw [subscribe] at h
  split at h
  · rename_i hc
    cases h
    exact .closed hc
  · rename_i hc
    rw [Bool.not_eq_true] at hc
    dsimp only at h
    split at h
    · rename_i hr
      cases h
      exact .refused hc hr
    · rename_i hr
      cases h
      exact .admitted hc hr

theorem registry_welcome (a : Admitted) : (b.welcome a).registry = b.registry := by
  obtain ⟨ps, -, hv⟩ := b.welcome_view a
  exact congrArg View.registry hv

theorem registry_enrollment (a : Action) :
    (b.act a).registry = ((b.enrollment a).map b.registry.apply).getD b.registry := by
  cases a with
  | subscribe req =>
    change (b.subscribe req).2.registry = _
    rw [enrollment]
    cases hs : b.subscribe req with
    | mk result b' =>
      cases subscribes hs with
      | closed hc =>
        rw [if_pos hc]
        rfl
      | refused hc hr =>
        rw [hc, if_neg Bool.false_ne_true, Option.map_some, Option.getD_some, Registry.apply, hr]
        exact congrArg View.registry (b.view_subscriptionRefused _)
      | admitted hc hr =>
        rw [hc, if_neg Bool.false_ne_true, Option.map_some, Option.getD_some, Registry.apply, hr,
          registry_welcome]
  | unsubscribe id =>
    rw [registry_unsubscribe, enrollment, Option.map_some, Option.getD_some, Registry.apply,
      Registry.unsubscribeAll]
    cases b.registry.unsubscribe id with
    | none => rfl
    | some x => rfl
  | ownerDied pid => exact b.registry_ownerDied pid
  | updateFreeze sel frozen => exact b.registry_updateFreeze sel frozen
  | _ => exact b.registry_same rfl

theorem registry_run (b : Broker) (actions : List Action) :
    (b.run actions).registry = b.registry.run (b.enrollments actions) := by
  induction actions generalizing b with
  | nil => rfl
  | cons a rest ih =>
    refine (ih (b.act a)).trans ?_
    rw [registry_enrollment, enrollments]
    cases b.enrollment a with
    | none => rfl
    | some q => rfl

def kills : List (Pid × String) := b.told Occurrence.kill?

def killing (v : Eviction) : Pid × String := (v.pid, "subscription ceiling")

theorem Within.kills_eq {b b' : Broker} (ts : List Topic) (h : b.Within ts b')
    (hts : .killed ∉ ts) : b'.kills = b.kills :=
  Tells.told_eq h fun _ ho => ho.kill?_eq hts

theorem kills_evict (v : Eviction) : (b.evict v).kills = b.kills ++ [killing v] := by
  have hbefore : (b.log (.evicting v.pid v.count)).kills = b.kills :=
    Within.kills_eq [] (Within.log (.same rfl)) List.not_mem_nil
  have hkilled : ((b.log (.evicting v.pid v.count)).note
      (.killed v.pid "subscription ceiling")).kills = b.kills ++ [killing v] := by
    rw [kills, told_note]
    exact congrArg (· ++ [killing v]) hbefore
  rw [← hkilled]
  exact Within.kills_eq [.record .ownerEvicted]
    (Within.emit (Within.log (.same rfl)) rfl (.head _)) (by decide)

theorem kills_welcome (a : Admitted) :
    (b.welcome a).kills = b.kills ++ a.evicted.toList.map killing := by
  have hevicted : (a.evicted.elim b b.evict).kills =
      b.kills ++ a.evicted.toList.map killing := by
    cases a.evicted with
    | none => exact (List.append_nil _).symm
    | some v => exact b.kills_evict v
  rw [← hevicted]
  refine Within.kills_eq [.record .queueOverflow, .record .subscriberAdded] ?_ (by decide)
  refine Within.trans ?_
    (Within.foldl (fun c name _ => (c.airs_replaySticky _ name (.head _)).within) _)
  exact Within.emit (Within.log (.same (by cases a.evicted <;> rfl))) rfl (.tail _ (.head _))

theorem kills_subscriptionRefused (e : BrokerError) : (b.subscriptionRefused e).kills = b.kills :=
  Within.kills_eq [.record .subscribeRejected] (b.airs_subscriptionRefused e (.head _)).within
    (by decide)

theorem kills_subscribe (req : Subscription) : (b.act (.subscribe req)).kills =
    b.kills ++ ((b.enrollment (.subscribe req)).toList.flatMap b.registry.evicts).map killing := by
  change (b.subscribe req).2.kills = _
  rw [enrollment]
  cases hs : b.subscribe req with
  | mk result b' =>
    cases subscribes hs with
    | closed hc =>
      rw [if_pos hc]
      exact (List.append_nil _).symm
    | refused hc hr =>
      rw [hc, if_neg Bool.false_ne_true, Option.toList_some, List.flatMap_singleton,
        Registry.evicts, hr]
      exact (b.kills_subscriptionRefused _).trans (List.append_nil _).symm
    | admitted hc hr =>
      rw [hc, if_neg Bool.false_ne_true, Option.toList_some, List.flatMap_singleton,
        Registry.evicts, hr]
      exact kills_welcome _ _

theorem evicts_of_ne {a : Action} (h : ∀ req, a ≠ .subscribe req) :
    (b.enrollment a).toList.flatMap b.registry.evicts = [] := by
  cases a with
  | subscribe req => exact absurd rfl (h req)
  | _ => rfl

theorem kills_act (a : Action) : (b.act a).kills =
    b.kills ++ ((b.enrollment a).toList.flatMap b.registry.evicts).map killing := by
  by_cases h : ∃ req, a = .subscribe req
  · obtain ⟨req, rfl⟩ := h
    exact b.kills_subscribe req
  · have hne : ∀ req, a ≠ .subscribe req := fun req e => h ⟨req, e⟩
    rw [b.evicts_of_ne hne, List.map_nil, List.append_nil]
    exact Within.kills_eq _ (b.act_within a) (Action.killed_topics hne)

theorem kills_run (b : Broker) (actions : List Action) : (b.run actions).kills =
    b.kills ++ (b.registry.evictions (b.enrollments actions)).map killing := by
  induction actions generalizing b with
  | nil => exact (List.append_nil _).symm
  | cons a rest ih =>
    refine (ih (b.act a)).trans ?_
    rw [kills_act, registry_enrollment, enrollments, List.append_assoc, ← List.map_append]
    cases b.enrollment a with
    | none => rfl
    | some q => rw [Option.toList_some, List.flatMap_singleton]; rfl

theorem Config.ceiling_pos {config : Config} {m : Nat} (h : config.ceiling = some m) : 0 < m := by
  rw [Config.ceiling] at h
  split at h
  · cases h
  · rename_i hne
    cases h
    exact Nat.pos_of_ne_zero hne

theorem kills_above {req : Subscription} {id : SubscriberId} {b' : Broker}
    (hr : b.registry.Coherent) {m : Nat} (hm : b.registry.ceiling = some m) (hpos : 0 < m)
    (h : b.subscribe req = (.ok id, b')) (habove : m < b'.registry.size) :
    ∃ v, Registry.Leads b.registry.live v ∧ v.pid ≠ req.owner.pid ∧
      b'.kills = b.kills ++ [killing v] := by
  cases subscribes h with
  | admitted hc ha =>
    rw [registry_welcome] at habove
    obtain ⟨v, hleads, hpid, hv⟩ := hr.evicted_above hm hpos ha habove
    have hnamed : (b.named req).owner.pid = req.owner.pid := by
      rw [named, resolveBundle]
      split <;> rfl
    refine ⟨v, hleads, hnamed ▸ hpid, ?_⟩
    rw [kills_welcome, hv]
    rfl

theorem kills_of_error {req : Subscription} {e : BrokerError} {b' : Broker}
    (h : b.subscribe req = (.error e, b')) : b'.kills = b.kills := by
  cases subscribes h with
  | closed hc => rfl
  | refused hc hr => exact b.kills_subscriptionRefused e

/-- At the ceiling, whoever owns the most subscriptions, and has the lowest pid of those who do, is
refused another one and makes room for anybody else; below it, everybody is admitted. A broker has
just those killed whose eviction its registry reports, and nobody is admitted above the ceiling
without that. -/
theorem ceiling_policy :
    (∀ (ceiling : Option Nat) (requests : List Registry.Request) (req : Subscription)
        (isSystem : Bool),
      let r := (Registry.ofCeiling ceiling).run requests
      r.ceiling = ceiling ∧ r.Decides req isSystem) ∧
    ∀ (config : Config) (oracle : Oracle) (bundleOf : Uid → Option String)
        (observers : List Observer) (actions : List Action) (req : Subscription),
      let r := Registry.ofCeiling config.ceiling
      let requests := (start config oracle bundleOf observers).enrollments actions
      let b := (start config oracle bundleOf observers).run actions
      b.registry = r.run requests ∧
        b.kills = (r.evictions requests).map (fun v => (v.pid, "subscription ceiling")) ∧
        (∀ e b', b.subscribe req = (.error e, b') → b'.view = b.view ∧ b'.kills = b.kills) ∧
        ∀ id b' m, b.subscribe req = (.ok id, b') → config.ceiling = some m →
          m < b'.registry.size →
          ∃ v, Registry.Leads b.registry.live v ∧ v.pid ≠ req.owner.pid ∧
            b'.kills = b.kills ++ [(v.pid, "subscription ceiling")] := by
  constructor
  · intro ceiling requests req isSystem r
    have hr : r.Coherent := (Registry.Coherent.ofCeiling ceiling).run requests
    exact ⟨Registry.ceiling_run _ requests, hr.decides req isSystem⟩
  · intro config oracle bundleOf observers actions req r requests b
    have hregistry : b.registry = r.run requests := registry_run _ actions
    have hr : b.registry.Coherent := by
      rw [hregistry]
      exact (Registry.Coherent.ofCeiling config.ceiling).run requests
    have hceiling : b.registry.ceiling = config.ceiling := by
      rw [hregistry]
      exact Registry.ceiling_run _ requests
    refine ⟨hregistry, kills_run _ actions, ?_, ?_⟩
    · intro e b' h
      exact ⟨subscribe_refused h, b.kills_of_error h⟩
    · intro id b' m h hm habove
      exact b.kills_above hr (hceiling.trans hm) (Config.ceiling_pos hm) h habove

end Broker

end EventBroker
