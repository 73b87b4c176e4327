import EventBroker.Broker.Work
import EventBroker.Proofs.VaultLaws

/-! Brokers up to bundle names. A name decides something only where a subscription pins the bundle
of its publishers or a publication picks the bundle of its subscribers; elsewhere what is done to a
broker is done to the broker without names. -/

universe u v

namespace EventBroker

def Journal.map {α : Type u} {β : Type v} (f : α → β) (j : Journal α) : Journal β where
  latest := j.latest.map f
  size := j.size
  size_eq := by rw [j.size_eq, List.length_map]

theorem Journal.toList_map {α : Type u} {β : Type v} (f : α → β) (j : Journal α) :
    (j.map f).toList = j.toList.map f :=
  List.map_reverse.symm

section Erasing

def Owner.nameless (o : Owner) : Owner := { o with bundle := "" }

def Subscription.nameless (s : Subscription) : Subscription := { s with owner := s.owner.nameless }

def Subscriber.nameless (s : Subscriber) : Subscriber := { s with owner := s.owner.nameless }

def Publication.nameless (p : Publication) : Publication :=
  { p with publisher := p.publisher.nameless }

def Entry.nameless (e : Entry) : Entry := { e with subscriber := e.subscriber.nameless }

def Admitted.nameless (a : Admitted) : Admitted := { a with subscriber := a.subscriber.nameless }

def MatchResult.nameless (m : MatchResult) : MatchResult :=
  { m with matched := m.matched.map Subscriber.nameless }

def Registry.nameless (r : Registry) : Registry :=
  { r with entries := r.entries.map Entry.nameless }

def StickyStore.nameless (s : StickyStore) : StickyStore := ⟨s.values.map Publication.nameless⟩

def Held.nameless {α : Type u} (h : Held α) : Held α :=
  { h with subscriber := h.subscriber.nameless }

def Shelf.nameless {α : Type u} (s : Shelf α) : Shelf α :=
  { s with subscriber := s.subscriber.nameless }

def Vault.nameless {α : Type u} (v : Vault α) : Vault α :=
  { v with shelves := v.shelves.map Shelf.nameless }

def Job.nameless : Job → Job
  | broadcast copy flags targets => broadcast copy flags targets
  | replay held => replay (held.map Held.nameless)

def Notice.nameless (n : Notice) : Notice :=
  { n with subscriber := n.subscriber.map Subscriber.nameless }

def CourierStage.nameless : CourierStage → CourierStage
  | handing n left => handing n.nameless left
  | stage => stage

def DeliveryQueue.nameless (q : DeliveryQueue) : DeliveryQueue :=
  { q with jobs := q.jobs.map Job.nameless, courier := q.courier.nameless }

def SequencerStage.nameless : SequencerStage → SequencerStage
  | handing n i => handing n.nameless i
  | closing n c reason => closing n.nameless c reason
  | stage => stage

def Sequencer.nameless (s : Sequencer) : Sequencer := { s with stage := s.stage.nameless }

def Retirement.nameless (r : Retirement) : Retirement :=
  { r with current := r.current.nameless, rest := r.rest.map Subscriber.nameless }

def Waiting.nameless : Waiting → Waiting
  | retire r => retire r.nameless
  | w => w

def Call.nameless (c : Call) : Call := { c with waiting := c.waiting.nameless }

def Occurrence.nameless : Occurrence → Occurrence
  | remembered p => remembered p.nameless
  | announced p => announced p.nameless
  | notifying w n => notifying w n.nameless
  | notified w n result => notified w n.nameless result
  | o => o

def Action.nameless : Action → Action
  | subscribe req => subscribe req.nameless
  | publish p => publish p.nameless
  | publishWithResult p receiver => publishWithResult p.nameless receiver
  | a => a

/-- The broker without the bundle names it was given or has looked up, and without any to look
up. -/
def Broker.nameless (b : Broker) : Broker :=
  { b with
    bundleOf := fun _ => none
    registry := b.registry.nameless
    vault := b.vault.nameless
    sticky := b.sticky.nameless
    fresh := b.fresh.nameless
    replay := b.replay.nameless
    sequencer := b.sequencer.nameless
    calls := b.calls.map Call.nameless
    past := b.past.map fun o => (o.1, o.2.nameless) }

end Erasing

section Fields

variable (b : Broker) (p : Publication) (s : Subscriber) (e : Entry) (req : Subscription)

@[simp] theorem Owner.pid_nameless (o : Owner) : o.nameless.pid = o.pid := rfl

@[simp] theorem Owner.token_nameless (o : Owner) : o.nameless.token = o.token := rfl

@[simp] theorem Subscription.owner_nameless : req.nameless.owner = req.owner.nameless := rfl

@[simp] theorem Subscription.interest_nameless : req.nameless.interest = req.interest := rfl

namespace Subscriber

@[simp] theorem id_nameless : s.nameless.id = s.id := rfl

@[simp] theorem interest_nameless : s.nameless.interest = s.interest := rfl

@[simp] theorem owner_nameless : s.nameless.owner = s.owner.nameless := rfl

end Subscriber

namespace Publication

@[simp] theorem event_nameless : p.nameless.event = p.event := rfl

@[simp] theorem options_nameless : p.nameless.options = p.options := rfl

@[simp] theorem serial_nameless : p.nameless.serial = p.serial := rfl

end Publication

namespace Entry

@[simp] theorem subscriber_nameless : e.nameless.subscriber = e.subscriber.nameless := rfl

@[simp] theorem frozenAt_nameless : e.nameless.frozenAt = e.frozenAt := rfl

end Entry

namespace Sequencer

variable (q : Sequencer)

@[simp] theorem commands_nameless : q.nameless.commands = q.commands := rfl

@[simp] theorem pending_nameless : q.nameless.pending = q.pending := rfl

@[simp] theorem active_nameless : q.nameless.active = q.active := rfl

@[simp] theorem stage_nameless : q.nameless.stage = q.stage.nameless := rfl

end Sequencer

namespace Broker

@[simp] theorem oracle_nameless : b.nameless.oracle = b.oracle := rfl

@[simp] theorem now_nameless : b.nameless.now = b.now := rfl

@[simp] theorem registry_nameless : b.nameless.registry = b.registry.nameless := rfl

@[simp] theorem vault_nameless : b.nameless.vault = b.vault.nameless := rfl

@[simp] theorem sticky_nameless : b.nameless.sticky = b.sticky.nameless := rfl

@[simp] theorem sequencer_nameless : b.nameless.sequencer = b.sequencer.nameless := rfl

@[simp] theorem calls_nameless : b.nameless.calls = b.calls.map Call.nameless := rfl

@[simp] theorem callsBegun_nameless : b.nameless.callsBegun = b.callsBegun := rfl

@[simp] theorem cancelled_nameless : b.nameless.cancelled = b.cancelled := rfl

@[simp] theorem joined_nameless : b.nameless.joined = b.joined := rfl

@[simp] theorem listener_nameless : b.nameless.listener = b.listener := rfl

@[simp] theorem observers_nameless : b.nameless.observers = b.observers := rfl

@[simp] theorem bus_nameless : b.nameless.bus = b.bus := rfl

@[simp] theorem queue_nameless (lane : Lane) :
    b.nameless.queue lane = (b.queue lane).nameless := by
  cases lane <;> rfl

end Broker

end Fields

section Unpinned

def Subscription.Unpinned (s : Subscription) : Prop := ∀ bundle ∈ s.publisherBundle, bundle = ""

def Subscriber.Unpinned (s : Subscriber) : Prop := ∀ bundle ∈ s.publisherBundle, bundle = ""

def Publication.Unpinned (p : Publication) : Prop := p.options.bundleFilter = none

def Action.Unpinned : Action → Prop
  | subscribe req => req.Unpinned
  | publish p => p.Unpinned
  | publishWithResult p _ => p.Unpinned
  | _ => True

def Registry.Unpinned (r : Registry) : Prop :=
  ∀ id e, r.entry? id = some e → e.subscriber.Unpinned

def StickyStore.Unpinned (s : StickyStore) : Prop := ∀ name p, s.get? name = some p → p.Unpinned

end Unpinned

theorem Selector.selects_nameless (sel : Selector) (o : Owner) :
    sel.selects o.nameless = sel.selects o := by
  cases sel <;> rfl

namespace Subscriber

variable {s : Subscriber}

theorem Unpinned.accepts (h : s.Unpinned) (publisher : Owner) :
    s.accepts publisher = s.publisherUid.all (· == publisher.uid) := by
  rw [Subscriber.accepts]
  cases hb : s.publisherBundle with
  | none => rfl
  | some bundle => simp [h bundle hb]

theorem nameless_ofSubscription (id : SubscriberId) (req : Subscription) (isSystem : Bool) :
    (ofSubscription id req isSystem).nameless = ofSubscription id req.nameless isSystem := by
  simp only [ofSubscription, nameless, Subscription.nameless, Scope.resolve, Owner.nameless]

end Subscriber

namespace Publication

variable {p : Publication} {s : Subscriber}

theorem Unpinned.allow (h : p.Unpinned) (s : Subscriber) :
    p.options.allow s.nameless = p.options.allow s := by
  rw [Unpinned] at h
  simp only [PublishOptions.allow, PublishOptions.checks, PublishOptions.hasFilters, h]
  rfl

theorem Unpinned.verdict (hp : p.Unpinned) (hs : s.Unpinned) (o : Oracle) :
    p.nameless.verdict o s.nameless = p.verdict o s := by
  have haccepts : s.nameless.accepts p.nameless.publisher = s.accepts p.publisher := by
    rw [Subscriber.Unpinned.accepts hs, Subscriber.Unpinned.accepts (s := s.nameless) hs]
    rfl
  have haudience : p.nameless.audience = p.audience := by
    change p.options.audience.resolve p.publisher.nameless = p.options.audience.resolve p.publisher
    cases p.options.audience <;> rfl
  have heligible : p.nameless.eligible o s.nameless = p.eligible o s := by
    rw [eligible, eligible, haccepts, haudience, ← hp.allow s]
    rfl
  rw [Publication.verdict, heligible]
  rfl

end Publication

namespace StickyStore

variable {s : StickyStore} {p : Publication}

theorem get?_nameless (s : StickyStore) (name : String) :
    s.nameless.get? name = (s.get? name).map Publication.nameless :=
  Table.get?_map _ _ _

theorem nameless_put (s : StickyStore) (p : Publication) :
    (s.put p).nameless = s.nameless.put p.nameless :=
  congrArg mk (Table.map_insert _ _ _ _)

end StickyStore

namespace Registry

variable (r : Registry)

theorem entry?_nameless (id : SubscriberId) :
    r.nameless.entry? id = (r.entry? id).map Entry.nameless :=
  Table.get?_map _ _ _

theorem contains_nameless (id : SubscriberId) : r.nameless.contains id = r.contains id := by
  change (r.nameless.entry? id).isSome = (r.entry? id).isSome
  rw [entry?_nameless, Option.isSome_map]

theorem size_nameless : r.nameless.size = r.size := List.length_map _

theorem idsOf_nameless (pid : Pid) : r.nameless.idsOf pid = r.idsOf pid := by
  simp only [idsOf, nameless, Table.map, List.filter_map, List.map_map]
  rfl

theorem victim_nameless : r.nameless.victim = r.victim := by
  rw [victim, victim, isFull, isFull, size_nameless]
  rfl

theorem nameless_add (s : Subscriber) : (r.add s).nameless = r.nameless.add s.nameless := by
  simp only [add, nameless, Table.map_insert]
  rfl

theorem subscribe_nameless (req : Subscription) (isSystem : Bool) :
    r.nameless.subscribe req.nameless isSystem =
      (r.subscribe req isSystem).map fun x => (x.1.nameless, x.2.nameless) := by
  let s := Subscriber.ofSubscription ⟨r.issued + 1⟩ req isSystem
  have hs : Subscriber.ofSubscription ⟨r.issued + 1⟩ req.nameless isSystem = s.nameless :=
    (Subscriber.nameless_ofSubscription _ _ _).symm
  have hok (evicted : Option Eviction) :
      (⟨s.nameless, evicted⟩, r.nameless.add s.nameless) =
        ((⟨s, evicted⟩ : Admitted).nameless, (r.add s).nameless) := by
    rw [nameless_add]
    rfl
  rw [subscribe, subscribe, victim_nameless, Subscription.interest_nameless,
    Subscription.owner_nameless, Owner.pid_nameless]
  cases req.interest.validate with
  | error e => rfl
  | ok u =>
    cases r.victim with
    | none => exact congrArg Except.ok (hs ▸ hok none)
    | some v =>
      dsimp only
      split
      · rfl
      · exact congrArg Except.ok (hs ▸ hok (some v))

theorem unsubscribe_nameless (id : SubscriberId) :
    r.nameless.unsubscribe id =
      (r.unsubscribe id).map fun x => (x.1.nameless, x.2.nameless) := by
  rw [unsubscribe, unsubscribe, entry?_nameless]
  cases r.entry? id with
  | none => rfl
  | some e =>
    refine congrArg some (congrArg (Prod.mk _) ?_)
    rw [nameless, nameless, Table.map_erase]
    rfl

theorem unsubscribeAll_nameless (ids : List SubscriberId) :
    unsubscribeAll ids r.nameless =
      ((unsubscribeAll ids r).1.map Subscriber.nameless, (unsubscribeAll ids r).2.nameless) := by
  induction ids generalizing r with
  | nil => rfl
  | cons id rest ih =>
    rw [unsubscribeAll, unsubscribeAll, unsubscribe_nameless]
    cases r.unsubscribe id with
    | none => exact ih r
    | some x =>
      simp only [Option.map_some, ih x.2, List.map_cons]

theorem removeOwner_nameless (pid : Pid) : r.nameless.removeOwner pid =
    ((r.removeOwner pid).1.map Subscriber.nameless, (r.removeOwner pid).2.nameless) := by
  rw [removeOwner, idsOf_nameless, unsubscribeAll_nameless]
  rfl

theorem updateFreeze_nameless (sel : Selector) (frozen : Bool) (now : Instant) :
    r.nameless.updateFreeze sel frozen now =
      ((r.updateFreeze sel frozen now).1, (r.updateFreeze sel frozen now).2.nameless) := by
  have hchanged (e : Entry) :
      (sel.selects e.nameless.subscriber.owner && e.nameless.frozenAt.isSome != frozen) =
        (sel.selects e.subscriber.owner && e.frozenAt.isSome != frozen) :=
    congrArg (· && _) (sel.selects_nameless e.subscriber.owner)
  have hmark (e : Entry) :
      (if sel.selects e.nameless.subscriber.owner then e.nameless.mark frozen now
        else e.nameless) =
        (if sel.selects e.subscriber.owner then e.mark frozen now else e).nameless := by
    rw [show sel.selects e.nameless.subscriber.owner = _ from
      sel.selects_nameless e.subscriber.owner]
    split
    · cases frozen <;> rfl
    · rfl
  refine Prod.ext ?_ (congrArg (fun entries => { r with entries }) ?_)
  · simp only [updateFreeze, nameless, Table.values, Table.map, List.map_map, List.countP_map]
    exact List.countP_congr fun row _ => iff_of_eq (congrArg (· = true) (hchanged row.2))
  · refine Table.ext_get? fun id => ?_
    change ((r.entries.map Entry.nameless).map _).get? id =
      ((r.entries.map _).map Entry.nameless).get? id
    rw [Table.get?_map, Table.get?_map, Table.get?_map, Table.get?_map, Option.map_map,
      Option.map_map]
    exact congrArg (Option.map · _) (funext hmark)

theorem declaring_nameless (name : String) :
    r.nameless.declaring name = (r.declaring name).map Subscriber.nameless := by
  rw [declaring, declaring, List.map_filterMap]
  refine List.filterMap_congr fun id _ => ?_
  rw [entry?_nameless, Option.map_map, Option.map_map]
  rfl

variable {r}

theorem Unpinned.declaring (h : r.Unpinned) {name : String} {s : Subscriber}
    (hs : s ∈ r.declaring name) : s.Unpinned := by
  obtain ⟨id, -, hid⟩ := List.mem_filterMap.1 hs
  obtain ⟨e, he, rfl⟩ := Option.map_eq_some_iff.1 hid
  exact h id e he

theorem Unpinned.matching (h : r.Unpinned) (o : Oracle) {p : Publication} (hp : p.Unpinned) :
    r.nameless.matching o p.nameless = (r.matching o p).nameless := by
  have hverdict : ∀ s ∈ r.declaring p.event.name, p.nameless.verdict o s.nameless = p.verdict o s :=
    fun s hs => hp.verdict (h.declaring hs) o
  have hmatched : ((r.declaring p.event.name).map Subscriber.nameless).filter
      (fun s => p.nameless.verdict o s == .deliver) =
        ((r.declaring p.event.name).filter fun s => p.verdict o s == .deliver).map
          Subscriber.nameless := by
    rw [List.filter_map]
    exact congrArg _ (List.filter_congr fun s hs => congrArg (· == _) (hverdict s hs))
  have hdenied : ((r.declaring p.event.name).map Subscriber.nameless).countP
      (fun s => p.nameless.verdict o s == .denied) =
        (r.declaring p.event.name).countP fun s => p.verdict o s == .denied := by
    rw [List.countP_map]
    refine List.countP_congr fun s hs => ?_
    rw [Function.comp_apply, hverdict s hs]
  simp only [Registry.matching, MatchResult.nameless, Publication.event_nameless,
    declaring_nameless, hmatched, hdenied]
  rw [← List.map_mergeSort]
  exact fun _ _ _ _ => rfl

end Registry

namespace Vault

variable {α : Type u} (v : Vault α)

theorem nameless_prune (retention : Duration) (s : Shelf α) :
    (s.prune retention).nameless = s.nameless.prune retention := by
  have hitems : s.nameless.items = s.items := rfl
  rw [Shelf.prune, Shelf.prune, hitems]
  cases s.items.getLast? <;> rfl

theorem get?_nameless (id : SubscriberId) :
    v.nameless.shelves.get? id = (v.shelves.get? id).map Shelf.nameless :=
  Table.get?_map _ _ _

theorem shelfFor_nameless (s : Subscriber) :
    v.nameless.shelfFor s.nameless = (v.shelfFor s).nameless := by
  rw [shelfFor, shelfFor, get?_nameless, Subscriber.id_nameless]
  cases v.shelves.get? s.id <;> rfl

theorem nameless_capture (s : Subscriber) (item : α) (now : Instant) :
    (v.capture s item now).nameless = v.nameless.capture s.nameless item now := by
  have hpushed : ((v.nameless.shelfFor s.nameless).push item now).prune v.retention =
      (((v.shelfFor s).push item now).prune v.retention).nameless := by
    rw [shelfFor_nameless, nameless_prune]
    rfl
  refine congrArg (Vault.mk v.retention) ((Table.map_insert _ _ _ _).trans ?_)
  exact congrArg (Table.insert _ s.id) hpushed.symm

theorem nameless_putBack (h : Held α) : (v.putBack h).nameless = v.nameless.putBack h.nameless := by
  have hput : (v.nameless.shelfFor h.subscriber.nameless).putBack h.item h.capturedAt =
      ((v.shelfFor h.subscriber).putBack h.item h.capturedAt).nameless := by
    rw [shelfFor_nameless]
    rfl
  refine congrArg (Vault.mk v.retention) ((Table.map_insert _ _ _ _).trans ?_)
  exact congrArg (Table.insert _ h.subscriber.id) hput.symm

theorem nameless_pruneShelf (id : SubscriberId) :
    (v.pruneShelf id).nameless = v.nameless.pruneShelf id := by
  have hprune (s : Option (Shelf α)) : (s.map (Shelf.prune v.retention)).map Shelf.nameless =
      (s.map Shelf.nameless).map (Shelf.prune v.retention) := by
    cases s with
    | none => rfl
    | some s => exact congrArg some (nameless_prune v.retention s)
  rw [pruneShelf, pruneShelf, nameless, Table.map_alter _ _ _ hprune]
  rfl

theorem pendingFor_nameless (id : SubscriberId) : v.nameless.pendingFor id = v.pendingFor id := by
  rw [pendingFor, pendingFor, get?_nameless, Option.map_map]
  rfl

theorem purge_nameless (id : SubscriberId) :
    v.nameless.purge id = ((v.purge id).1, (v.purge id).2.nameless) := by
  rw [purge, purge, pendingFor_nameless, nameless, nameless, Table.map_erase]

theorem flush_nameless (sel : Selector) :
    v.nameless.flush sel = ((v.flush sel).1.map Held.nameless, (v.flush sel).2.nameless) := by
  have hpicked : (v.nameless.shelves.rows.filter fun row => sel.selects row.2.subscriber.owner) =
      (v.shelves.rows.filter fun row => sel.selects row.2.subscriber.owner).map
        fun row => (row.1, row.2.nameless) := by
    rw [nameless, Table.map, List.filter_map]
    refine congrArg _ (List.filter_congr fun row _ => ?_)
    exact sel.selects_nameless row.2.subscriber.owner
  have hheld (s : Shelf α) : s.nameless.held = s.held.map Held.nameless := by
    rw [Shelf.held, Shelf.held, List.map_map]
    rfl
  have herased (rows : List (SubscriberId × Shelf α)) :
      rows.foldl (fun t row => t.erase row.1) v.nameless.shelves =
        (rows.foldl (fun t row => t.erase row.1) v.shelves).map Shelf.nameless :=
    List.foldl_hom (Table.map Shelf.nameless) fun t row => (Table.map_erase _ t row.1).symm
  rw [flush, flush, hpicked, List.flatMap_map, List.foldl_map, List.map_flatMap]
  refine Prod.ext ?_ ?_
  · exact List.flatMap_congr fun row _ => hheld row.2
  · exact congrArg (Vault.mk _) (herased _)

theorem restore_nameless (batch : List (Held α)) (live : SubscriberId → Bool) :
    v.nameless.restore (batch.map Held.nameless) live =
      ((v.restore batch live).1, (v.restore batch live).2.nameless) := by
  have hbatch : (batch.map Held.nameless).filter (fun h => live h.subscriber.id) =
      (batch.filter fun h => live h.subscriber.id).map Held.nameless :=
    List.filter_map
  have hput (batch : List (Held α)) :
      batch.foldr (fun h v => v.putBack h.nameless) v.nameless =
        (batch.foldr (fun h v => v.putBack h) v).nameless :=
    List.foldr_hom nameless fun h v => (nameless_putBack v h).symm
  have hpruned (ids : List SubscriberId) (v : Vault α) :
      ids.foldl pruneShelf v.nameless = (ids.foldl pruneShelf v).nameless :=
    List.foldl_hom nameless fun v id => (nameless_pruneShelf v id).symm
  have hids (batch : List (Held α)) :
      (batch.map Held.nameless).map (fun h => h.subscriber.id) =
        batch.map fun h => h.subscriber.id :=
    List.map_map
  simp only [restore, hbatch, hids, List.foldr_map, hput, hpruned, pendingFor_nameless]

end Vault

end EventBroker
