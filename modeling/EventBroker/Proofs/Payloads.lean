import EventBroker.Proofs.Capturing
import EventBroker.Proofs.Following
import EventBroker.Proofs.Stickies

namespace EventBroker

structure Event.Alike (e e' : Event) : Prop where
  name : e'.name = e.name
  entities : e'.entities = e.entities
  scheme : e'.scheme = e.scheme
  params : e'.params = e.params

theorem Publication.alike_copyWith (p : Publication) (result : Int × String) :
    (p.copyWith result).serial = p.serial ∧ p.event.Alike (p.copyWith result).event :=
  ⟨rfl, rfl, rfl, rfl, rfl⟩

theorem Admission.copyWith_result (x : Admission) :
    x.publication.copyWith x.result = ⟨x.publication.serial, x.publication.event⟩ := rfl

def Stems (admitted : List Admission) (copy : Copy) : Prop :=
  ∃ x ∈ admitted, ∃ result, copy = x.publication.copyWith result

def Publication.flagsBy (p : Publication) : Worker → Flags
  | .courier .fresh => ⟨false, p.options.sticky⟩
  | .courier .replay => ⟨false, false⟩
  | _ => ⟨true, p.options.sticky⟩

/-- The copy of a parcel that was held first. -/
def firstKept (kept : List (Copy × SubscriberId)) (x : Parcel) : Option Copy :=
  (kept.find? fun y => (y.1.serial, y.2) = x).map Prod.fst

theorem firstKept_append (xs ys : List (Copy × SubscriberId)) (x : Parcel) :
    firstKept (xs ++ ys) x = (firstKept xs x).or (firstKept ys x) := by
  rw [firstKept, List.find?_append, firstKept, firstKept]
  cases xs.find? fun y => (y.1.serial, y.2) = x <;> rfl

theorem firstKept_eq_none {kept : List (Copy × SubscriberId)} {x : Parcel} :
    firstKept kept x = none ↔ ∀ y ∈ kept, (y.1.serial, y.2) ≠ x := by
  simp [firstKept]

theorem firstKept_eq_some {kept : List (Copy × SubscriberId)} {x : Parcel} {copy : Copy}
    (h : firstKept kept x = some copy) : (copy, x.2) ∈ kept ∧ copy.serial = x.1 := by
  obtain ⟨y, hy, rfl⟩ := Option.map_eq_some_iff.1 h
  have hx : (y.1.serial, y.2) = x := by simpa using List.find?_some hy
  subst hx
  exact ⟨List.mem_of_find?_eq_some hy, rfl⟩

theorem firstKept_one (y : Copy × SubscriberId) : firstKept [y] (y.1.serial, y.2) = some y.1 := by
  simp [firstKept]

namespace DeliveryQueue

def deliveries (q : DeliveryQueue) : List Delivery :=
  q.courier.left ++ q.jobs.flatMap Job.deliveries

theorem parcels_eq (q : DeliveryQueue) : q.parcels = q.deliveries.map Delivery.parcel := by
  rw [parcels, deliveries, List.map_append, List.map_flatMap]
  rfl

theorem deliveries_add (q : DeliveryQueue) (jobs : List Job) :
    { q with jobs := q.jobs ++ jobs }.deliveries =
      q.deliveries ++ jobs.flatMap Job.deliveries := by
  simp [deliveries]

end DeliveryQueue

structure Admission.Sends (x : Admission) (d : Delivery) : Prop where
  copy : d.copy = ⟨x.publication.serial, x.publication.event⟩
  flags : d.flags = ⟨false, x.publication.options.sticky⟩
  cause : x.publication.options.ordered = false ∧ d.target ∈ x.matched.map Subscriber.id ∨
    x.publication.options.sticky = true

namespace Vault

variable {v : Vault Copy} {s : Subscriber} {copy : Copy} {now : Instant}

theorem mem_capture {y : Copy × SubscriberId} (hy : y ∈ (v.capture s copy now).contents) :
    y ∈ v.contents ∨ y = (copy, s.id) := by
  have hmem := (v.contents_capture s copy now).subset (List.mem_append_left _ hy)
  exact (List.mem_append.1 hmem).imp_right List.mem_singleton.1

theorem mem_capture_self : (copy, s.id) ∈ (v.capture s copy now).contents := by
  rw [capture_eq]
  refine (v.contents_insert s.id _).symm.subset (List.mem_append_left _ ?_)
  rw [List.map_append]
  exact List.mem_append_right _ (List.mem_singleton_self _)

end Vault

namespace View

def Sticks (v : View) (admitted : List Admission) : Prop :=
  ∀ name p, v.sticky.get? name = some p →
    ∃ x ∈ admitted, x.publication = p ∧ p.options.sticky = true

def ahead (v : View) : List Parcel := v.fresh.parcels ++ v.sequencer.parcels

variable {v w : View} {a : Option Admission}

theorem Carries.deliveries_suffix {lane : Lane} (h : v.Carries lane w) :
    (w.queue lane).deliveries <:+ (v.queue lane).deliveries := by
  cases h with
  | rest hc =>
    rw [queue_setCourier, DeliveryQueue.deliveries, DeliveryQueue.deliveries, hc]
    exact List.suffix_refl _
  | stop hc hcancelled =>
    rw [queue_setQueue, DeliveryQueue.deliveries, DeliveryQueue.deliveries]
    exact List.nil_suffix
  | take hc hj =>
    rw [queue_setQueue, DeliveryQueue.deliveries, DeliveryQueue.deliveries, hc, hj]
    exact List.suffix_refl _
  | pass hc hd =>
    rw [queue_setCourier, DeliveryQueue.deliveries, DeliveryQueue.deliveries, hc]
    exact List.suffix_cons _ _
  | hold hc he hf =>
    rw [queue_setCourier, DeliveryQueue.deliveries, DeliveryQueue.deliveries, hc]
    cases lane <;> exact List.suffix_cons _ _
  | hand hc he hf =>
    rw [queue_tell, queue_setCourier, DeliveryQueue.deliveries, DeliveryQueue.deliveries, hc]
    exact List.suffix_cons _ _
  | handed hc result =>
    rw [queue_tell, queue_setCourier, DeliveryQueue.deliveries, DeliveryQueue.deliveries, hc]
    exact List.suffix_refl _

theorem Carries.deliveries_subset {lane : Lane} (h : v.Carries lane w) (lane' : Lane) :
    (w.queue lane').deliveries ⊆ (v.queue lane').deliveries := by
  by_cases hl : lane = lane'
  · subst hl
    exact h.deliveries_suffix.subset
  · rw [h.queue_eq hl]
    exact List.Subset.refl _

section Queueing

variable {p : Publication} {matched : List Subscriber} {finalReceiver : Option Receiver}
  {chain : Option ChainId}

theorem Queues.fresh_deliveries (h : v.Queues p matched finalReceiver chain w) {d : Delivery}
    (hd : d ∈ w.fresh.deliveries) : d ∈ v.fresh.deliveries ∨ p.options.ordered = false ∧
      ∃ s ∈ matched, d = ⟨s.id, ⟨p.serial, p.event⟩, ⟨false, p.options.sticky⟩⟩ := by
  cases h with
  | nothing hm hf => exact .inl hd
  | chain ho hm hs => exact .inl hd
  | job ho hm =>
    change d ∈ DeliveryQueue.deliveries { v.fresh with jobs := v.fresh.jobs ++ _ } at hd
    rw [DeliveryQueue.deliveries_add, List.flatMap_singleton] at hd
    refine (List.mem_append.1 hd).imp_right fun hd => ⟨ho, ?_⟩
    obtain ⟨t, ht, rfl⟩ := List.mem_map.1 hd
    obtain ⟨s, hs, rfl⟩ := List.mem_map.1 ht
    exact ⟨s, hs, rfl⟩

theorem Queues.ahead (h : v.Queues p matched finalReceiver chain w) {x : Parcel}
    (hx : x ∈ w.ahead) : x ∈ v.ahead ∨ x.1 = p.serial := by
  cases h with
  | nothing hm hf => exact .inl hx
  | chain ho hm hs =>
    change x ∈ v.fresh.parcels ++
      Sequencer.parcels { v.sequencer with commands := v.sequencer.commands ++ _ } at hx
    rw [Sequencer.parcels_send fun h => absurd h hs, ← List.append_assoc] at hx
    refine (List.mem_append.1 hx).imp_right fun hx => ?_
    obtain ⟨c, hc, hx⟩ := List.mem_flatMap.1 hx
    cases List.mem_singleton.1 hc
    obtain ⟨r, -, rfl⟩ := List.mem_map.1 hx
    rfl
  | job ho hm =>
    change x ∈ DeliveryQueue.parcels { v.fresh with jobs := v.fresh.jobs ++ _ } ++
      v.sequencer.parcels at hx
    rw [DeliveryQueue.parcels_add, List.flatMap_singleton, Job.parcels_broadcast,
      List.append_assoc] at hx
    rcases List.mem_append.1 hx with hx | hx
    · exact .inl (List.mem_append_left _ hx)
    · rcases List.mem_append.1 hx with hx | hx
      · obtain ⟨t, -, rfl⟩ := List.mem_map.1 hx
        exact .inr rfl
      · exact .inl (List.mem_append_right _ hx)

end Queueing

theorem Request.fresh_deliveries {admitted : List Admission} (h : v.Request a w)
    (hs : v.Sticks admitted) {d : Delivery} (hd : d ∈ w.fresh.deliveries) :
    d ∈ v.fresh.deliveries ∨ ∃ x ∈ admitted ++ a.toList, x.Sends d := by
  cases h with
  | @subscribe s ps hid hps =>
    rw [DeliveryQueue.deliveries_add] at hd
    refine (List.mem_append.1 hd).imp_right fun hd => ?_
    obtain ⟨job, hj, hd⟩ := List.mem_flatMap.1 hd
    obtain ⟨p, hp, rfl⟩ := List.mem_map.1 hj
    obtain ⟨name, -, hget⟩ := List.mem_filterMap.1 (hps.subset hp)
    obtain ⟨x, hx, rfl, hsticky⟩ := hs name p hget
    cases List.mem_singleton.1 hd
    exact ⟨x, List.mem_append_left _ hx, rfl, by rw [hsticky], .inr hsticky⟩
  | @publish x w hn hm hq =>
    refine (hq.fresh_deliveries hd).imp_right fun ⟨ho, s, hs, hd⟩ => ?_
    exact ⟨x, by simp, by rw [hd], by rw [hd], .inl ⟨ho, by
      rw [hd]
      exact List.mem_map_of_mem hs⟩⟩
  | _ => exact .inl hd

theorem Request.replay_deliveries (h : v.Request a w) (hvault : v.vault.Sound) {d : Delivery}
    (hd : d ∈ w.replay.deliveries) :
    d ∈ v.replay.deliveries ∨ d.flags = ⟨false, false⟩ ∧ (d.copy, d.target) ∈ v.vault.contents := by
  cases h with
  | publish hn hm hq =>
    rw [announce, hq.frame] at hd
    exact .inl hd
  | flush sel hne hr =>
    rw [DeliveryQueue.deliveries_add, List.flatMap_singleton] at hd
    refine (List.mem_append.1 hd).imp_right fun hd => ?_
    obtain ⟨x, hx, rfl⟩ := List.mem_map.1 hd
    refine ⟨rfl, (hvault.contents_flush sel).subset (List.mem_append_right _ ?_)⟩
    exact List.mem_map_of_mem (f := fun a : Held Copy => (a.item, a.subscriber.id)) hx
  | _ => exact .inl hd

theorem Request.contents_subset (h : v.Request a w) (hvault : v.vault.Sound) :
    w.vault.contents ⊆ v.vault.contents := by
  intro y hy
  cases h with
  | publish hn hm hq =>
    rw [announce, hq.frame] at hy
    exact hy
  | flush sel hne hr => exact (hvault.contents_flush sel).subset (List.mem_append_left _ hy)
  | restore sel hne hr =>
    exact (hvault.contents_restore sel v.registry.contains).subset (List.mem_append_left _ hy)
  | leave gone cleared hcs =>
    change y ∈ (v.vault.clear cleared).contents at hy
    rw [Vault.contents_clear] at hy
    exact (List.mem_filter.1 hy).1
  | _ => exact hy

theorem Request.ahead (h : v.Request a w) {x : Parcel} (hx : x ∈ w.ahead) :
    x ∈ v.ahead ∨ v.publications < x.1 ∨ v.registry.issued < x.2.val := by
  cases h with
  | @subscribe s ps hid hps =>
    change x ∈ DeliveryQueue.parcels { v.fresh with jobs := v.fresh.jobs ++ _ } ++
      v.sequencer.parcels at hx
    rw [DeliveryQueue.parcels_add, List.append_assoc] at hx
    rcases List.mem_append.1 hx with hx | hx
    · exact .inl (List.mem_append_left _ hx)
    · rcases List.mem_append.1 hx with hx | hx
      · obtain ⟨job, hj, hx⟩ := List.mem_flatMap.1 hx
        obtain ⟨p, -, rfl⟩ := List.mem_map.1 hj
        cases List.mem_singleton.1 hx
        exact .inr (.inr (hid ▸ Nat.lt_succ_self _))
      · exact .inl (List.mem_append_right _ hx)
  | publish hn hm hq =>
    refine (hq.ahead hx).imp_right fun hx => .inl ?_
    rw [hx, hn]
    exact Nat.lt_succ_self _
  | @leave gone cleared cs hcs =>
    change x ∈ v.fresh.parcels ++
      Sequencer.parcels { v.sequencer with commands := v.sequencer.commands ++ cs } at hx
    have hnone : Command.chains cs = [] := List.filterMap_eq_nil_iff.2 hcs
    rw [Sequencer.parcels_send fun _ => hnone, hnone, List.flatMap_nil, List.append_nil] at hx
    exact .inl hx
  | _ => exact .inl hx

theorem Moves.count_le {es : List ChainEvent} (h : v.Moves es w) (hv : v.Sound) (x : Parcel) :
    w.sequencer.parcels.count x ≤ v.sequencer.parcels.count x := by
  by_cases hvault : w.vault = v.vault
  · have hsettles := h.settles hv x
    have hhanded : w.handed = v.handed ++ (es.filterMap ChainEvent.signal?).filterMap
        Signal.parcel? := by
      rw [handed, h.signals_eq, List.filterMap_append]
      rfl
    have hfresh : w.fresh = v.fresh := by rw [h.frame]
    have hreplay : w.replay = v.replay := by rw [h.frame]
    rw [count_parcels, count_parcels, hfresh, hreplay, hvault, hhanded,
      List.count_append] at hsettles
    simp only [List.count_nil] at hsettles
    omega
  · cases h with
    | @hold c c' i r e h ha hw hn he hf =>
      have hreached := Sequencer.count_reached
        (t := { v.sequencer with active := some c'.skip }) ha rfl rfl rfl
        (by rw [Chain.parcels_skip, Chain.parcels_next hn]) x
      have hrunning : v.sequencer.stage ≠ .stopped := by simp [h]
      rw [Sequencer.parcels_of_ne hrunning, ← hreached]
      exact Nat.le_trans (Nat.le_of_eq (congrArg _ (Sequencer.parcels_of_ne hrunning)))
        (Nat.le_add_right _ _)
    | _ => exact absurd rfl hvault

namespace Captures

variable {new : List (Copy × SubscriberId)} (h : v.Captures a new w)
include h

theorem one (hr : v.registry.Sound) (hvault : v.vault.Sound) :
    new = [] ∧ w.vault.contents ⊆ v.vault.contents ∨
      ∃ y s, new = [y] ∧ s.id = y.2 ∧ w.vault = v.vault.capture s y.1 v.now := by
  cases h with
  | request h => exact .inl ⟨rfl, h.contents_subset hvault⟩
  | @carry lane w h =>
    have aside (hn : v.keeping lane = []) (hw : w.vault = v.vault) :
        v.keeping lane = [] ∧ w.vault.contents ⊆ v.vault.contents :=
      ⟨hn, hw ▸ List.Subset.refl _⟩
    rw [keeping] at aside ⊢
    cases h with
    | @hold d rest e hc he hf =>
      rw [hc]
      dsimp only
      rw [he]
      dsimp only
      rw [if_neg hf]
      exact .inr ⟨_, e.subscriber, rfl, hr.keyed he, by cases lane <;> rfl⟩
    | rest hc => exact .inl (aside (by rw [hc]) (by cases lane <;> rfl))
    | stop hc hcancelled => exact .inl (aside (by rw [hc]) (by cases lane <;> rfl))
    | take hc hj => exact .inl (aside (by rw [hc]) (by cases lane <;> rfl))
    | pass hc hd => exact .inl (aside (by rw [hc]; dsimp only; rw [hd]) (by cases lane <;> rfl))
    | hand hc he hf =>
      refine .inl (aside ?_ (by cases lane <;> rfl))
      rw [hc]
      dsimp only
      rw [he]
      exact if_pos hf
    | handed hc result => exact .inl (aside (by rw [hc]) (by cases lane <;> rfl))
  | move h =>
    cases h with
    | @hold c c' i r e h ha hw hn he hf => exact .inr ⟨_, e.subscriber, rfl, hr.keyed he, rfl⟩
    | _ => exact .inl ⟨rfl, List.Subset.refl _⟩

theorem mem_contents (hr : v.registry.Sound) (hvault : v.vault.Sound) {y : Copy × SubscriberId}
    (hy : y ∈ w.vault.contents) : y ∈ v.vault.contents ∨ y ∈ new := by
  rcases h.one hr hvault with ⟨rfl, hsubset⟩ | ⟨z, s, rfl, hid, hw⟩
  · exact .inl (hsubset hy)
  · rw [hw] at hy
    refine (Vault.mem_capture hy).imp_right fun hy => ?_
    rw [hy, hid]
    exact List.mem_singleton_self _

theorem new_subset (hr : v.registry.Sound) (hvault : v.vault.Sound) : new ⊆ w.vault.contents := by
  intro y hy
  rcases h.one hr hvault with ⟨rfl, -⟩ | ⟨z, s, rfl, hid, hw⟩
  · cases hy
  · cases List.mem_singleton.1 hy
    rw [hw]
    have hmem : (y.1, s.id) ∈ (v.vault.capture s y.1 v.now).contents := Vault.mem_capture_self
    rwa [hid] at hmem

theorem firstKept_new (hr : v.registry.Sound) (hvault : v.vault.Sound) {y : Copy × SubscriberId}
    (hy : y ∈ new) : firstKept new (y.1.serial, y.2) = some y.1 := by
  rcases h.one hr hvault with ⟨rfl, -⟩ | ⟨z, s, rfl, -, -⟩
  · cases hy
  · cases List.mem_singleton.1 hy
    exact firstKept_one y

theorem fresh_deliveries {admitted : List Admission} (hs : v.Sticks admitted)
    {d : Delivery} (hd : d ∈ w.fresh.deliveries) :
    d ∈ v.fresh.deliveries ∨ ∃ x ∈ admitted ++ a.toList, x.Sends d := by
  cases h with
  | request h => exact h.fresh_deliveries hs hd
  | carry lane h => exact .inl (h.deliveries_subset .fresh hd)
  | move h =>
    rw [h.frame] at hd
    exact .inl hd

theorem replay_deliveries (hvault : v.vault.Sound) {d : Delivery}
    (hd : d ∈ w.replay.deliveries) :
    d ∈ v.replay.deliveries ∨
      d.flags = ⟨false, false⟩ ∧ (d.copy, d.target) ∈ v.vault.contents := by
  cases h with
  | request h => exact h.replay_deliveries hvault hd
  | carry lane h => exact .inl (h.deliveries_subset .replay hd)
  | move h =>
    rw [h.frame] at hd
    exact .inl hd

theorem ahead (hv : v.Sound) {x : Parcel} (hx : x ∈ w.ahead) :
    x ∈ v.ahead ∨ v.publications < x.1 ∨ v.registry.issued < x.2.val := by
  cases h with
  | request h => exact h.ahead hx
  | carry lane h =>
    rw [View.ahead, DeliveryQueue.parcels_eq, h.sequencer_eq] at hx
    rw [View.ahead, DeliveryQueue.parcels_eq]
    refine .inl ((List.mem_append.1 hx).elim (fun hx => ?_) (List.mem_append_right _))
    exact List.mem_append_left _ (List.map_subset _ (h.deliveries_subset .fresh) hx)
  | move h =>
    have hfresh : w.fresh = v.fresh := by rw [h.frame]
    rw [View.ahead, hfresh] at hx
    refine .inl ((List.mem_append.1 hx).elim (List.mem_append_left _) fun hx => ?_)
    have hle := h.count_le hv x
    exact List.mem_append_right _
      (List.count_pos_iff.1 (Nat.lt_of_lt_of_le (List.count_pos_iff.2 hx) hle))

end Captures

/-- What the copies hold that are still to be delivered, once `admitted` has been admitted and the
copies in `kept` have been held, in order. -/
structure Conveys (v : View) (admitted : List Admission) (kept : List (Copy × SubscriberId)) :
    Prop where
  fresh : ∀ d ∈ v.fresh.deliveries, ∃ x ∈ admitted, x.Sends d
  replay : ∀ d ∈ v.replay.deliveries,
    d.flags = ⟨false, false⟩ ∧ firstKept kept d.parcel = some d.copy
  vault : ∀ y ∈ v.vault.contents, firstKept kept (y.1.serial, y.2) = some y.1
  origin : ∀ y ∈ kept, Stems admitted y.1
  known : ∀ y ∈ kept, y.1.serial ≤ v.publications ∧ y.2.val ≤ v.registry.issued
  ahead : ∀ x ∈ v.ahead, firstKept kept x = none

namespace Conveys

variable {admitted : List Admission} {kept : List (Copy × SubscriberId)}

theorem due (h : v.Conveys admitted kept)
    (hchain : ∀ c, v.sequencer.stage = .pumping → v.sequencer.active = some c →
      Stems admitted c.copy)
    {worker : Worker} {r : SubscriberId} {copy : Copy} {flags : Flags}
    (hd : v.Due worker (some r) copy flags) :
    Stems admitted copy ∧
      (firstKept kept (copy.serial, r) = none ∨ firstKept kept (copy.serial, r) = some copy) := by
  cases hd with
  | @delivery lane d rest hc =>
    have hmem : d ∈ (v.queue lane).deliveries := by
      rw [DeliveryQueue.deliveries, hc]
      exact List.mem_cons_self
    cases lane with
    | fresh =>
      obtain ⟨x, hx, hsends⟩ := h.fresh d hmem
      refine ⟨⟨x, hx, x.result, hsends.copy⟩, .inl (h.ahead _ (List.mem_append_left _ ?_))⟩
      rw [DeliveryQueue.parcels_eq]
      exact List.mem_map_of_mem (f := Delivery.parcel) hmem
    | replay =>
      have hfirst := (h.replay d hmem).2
      exact ⟨h.origin _ (firstKept_eq_some hfirst).1, .inr hfirst⟩
  | @receiver c c' i r hp ha hn =>
    refine ⟨hchain c hp ha, .inl (h.ahead _ (List.mem_append_right _ ?_))⟩
    have hparcel : (c.copy.serial, r) ∈ c.parcels := by
      rw [Chain.parcels_next hn]
      exact List.mem_cons_self
    have hrunning : v.sequencer.stage ≠ .stopped := by simp [hp]
    rw [Sequencer.parcels_of_ne hrunning, Sequencer.load, ha]
    exact List.mem_flatMap.2 ⟨c, List.mem_cons_self, hparcel⟩

theorem step (h : v.Conveys admitted kept) {new : List (Copy × SubscriberId)} {lost : List Loss}
    (hc : v.Captures a new w) (hv : v.Sound) (hvault : v.vault.Sound)
    (hw : w.Stocked (admitted ++ a.toList) lost)
    (hs : v.Sticks admitted)
    (hnew : ∀ y ∈ new, Stems admitted y.1 ∧
      (firstKept kept (y.1.serial, y.2) = none ∨ firstKept kept (y.1.serial, y.2) = some y.1))
    (hle : v.publications ≤ w.publications ∧ v.registry.issued ≤ w.registry.issued) :
    w.Conveys (admitted ++ a.toList) (kept ++ new) := by
  have keep {x : Parcel} {copy : Copy} (hx : firstKept kept x = some copy) :
      firstKept (kept ++ new) x = some copy := by
    rw [firstKept_append, hx, Option.some_or]
  have held : ∀ y ∈ v.vault.contents, firstKept (kept ++ new) (y.1.serial, y.2) = some y.1 :=
    fun y hy => keep (h.vault y hy)
  have hcontents := hc.new_subset hv.registry hvault
  have inVault {y : Copy × SubscriberId} (hy : y ∈ new) : (y.1.serial, y.2) ∈ w.vault.parcels :=
    List.mem_map_of_mem (f := fun y : Copy × SubscriberId => (y.1.serial, y.2)) (hcontents hy)
  refine ⟨fun d hd => ?_, fun d hd => ?_, fun y hy => ?_, fun y hy => ?_, fun y hy => ?_,
    fun x hx => ?_⟩
  · cases hc.fresh_deliveries hs hd with
    | inl hd =>
      obtain ⟨x, hx, hsends⟩ := h.fresh d hd
      exact ⟨x, List.mem_append_left _ hx, hsends⟩
    | inr hd => exact hd
  · cases hc.replay_deliveries hvault hd with
    | inl hd => exact (h.replay d hd).imp_right keep
    | inr hd => exact hd.imp_right (held _)
  · cases hc.mem_contents hv.registry hvault hy with
    | inl hy => exact held y hy
    | inr hy =>
      cases (hnew y hy).2 with
      | inl hnone =>
        rw [firstKept_append, hnone, Option.none_or]
        exact hc.firstKept_new hv.registry hvault hy
      | inr hfirst => exact keep hfirst
  · obtain ⟨x, hx, hresult⟩ : Stems admitted y.1 :=
      (List.mem_append.1 hy).elim (h.origin y) fun hy => (hnew y hy).1
    exact ⟨x, List.mem_append_left _ hx, hresult⟩
  · cases List.mem_append.1 hy with
    | inl hy => exact ⟨(h.known y hy).1.trans hle.1, (h.known y hy).2.trans hle.2⟩
    | inr hy =>
      have hmem : (y.1.serial, y.2) ∈ w.parcels := by
        simp only [View.parcels, List.mem_append]
        exact .inl (.inr (inVault hy))
      have hknown := hw.known _ (List.mem_append_left _ hmem)
      exact ⟨hknown.1.2, hknown.2⟩
  -- What is still ahead of its turn is in no second place, so it is not what is held now.
  · have hkept : firstKept kept x = none := by
      rcases hc.ahead hv hx with hx | hx
      · exact h.ahead x hx
      · refine firstKept_eq_none.2 fun y hy he => ?_
        have hknown := h.known y hy
        subst he
        dsimp only at hx
        omega
    have hfresh : firstKept new x = none := by
      refine firstKept_eq_none.2 fun y hy he => ?_
      have hnodup : w.parcels.count x ≤ 1 :=
        List.nodup_iff_count_le_one.1 (List.nodup_append.1 hw.distinct).1 x
      have hvaulted : 0 < w.vault.parcels.count x := List.count_pos_iff.2 (he ▸ inVault hy)
      have hahead : 0 < w.ahead.count x := List.count_pos_iff.2 hx
      rw [count_parcels] at hnodup
      rw [View.ahead, List.count_append] at hahead
      omega
    rw [firstKept_append, hkept, hfresh]
    rfl

end Conveys

end View

namespace Broker

variable {b : Broker}

theorem follows_admissions (hl : b.view.Lined []) {actions : List Action} {x : Admission}
    {id : ChainId} (hx : x ∈ b.admissions actions) (hid : x.chain = some id) :
    (b.run actions).view.Follows x id (b.befalling id actions) := by
  obtain ⟨before, a, after, rfl, ha⟩ := gathers_admissions.exists_of_mem hx
  have ha := Option.mem_toList.1 ha
  rw [befalling_admitted hl ha hid, run_append]
  exact (follows_admitted (lined_run hl before) ha hid after).1

theorem serving_of_active (hl : b.view.Lined []) {actions : List Action} {c : Chain}
    (hst : (b.run actions).view.sequencer.stage = .pumping)
    (hc : (b.run actions).view.sequencer.active = some c) :
    ∃ x ∈ b.admissions actions, x.chain = some c.id ∧
      c.Serving x (b.befalling c.id actions) := by
  have hlined := lined_run hl actions
  have hunderway : (b.run actions).view.underway = some c :=
    (View.underway_of_ne (by simp [hst])).trans hc
  obtain ⟨t, ht, hid⟩ := List.mem_map.1 (hlined.known hunderway)
  rw [List.nil_append] at ht
  obtain ⟨x, hx, htitle⟩ := List.mem_filterMap.1 ht
  obtain ⟨id, hchain, rfl⟩ := Option.map_eq_some_iff.1 htitle
  subst hid
  refine ⟨x, hx, hchain, ?_⟩
  cases follows_admissions hl hx hchain with
  | waits hw hid ha hs => exact absurd hid (hlined.underway_apart hunderway _ hw)
  | serves hst hc' hid hs hp =>
    cases hc.symm.trans hc'
    exact hs
  | closes hst' hid hf hs ha => cases hst.symm.trans hst'
  | ended hv hs ha =>
    refine absurd rfl (hv.underway c.title ?_)
    rw [View.title?, hunderway]
    rfl

theorem conveys_start (config : Config) (oracle : Oracle) (bundleOf : Uid → Option String)
    (observers : List Observer) :
    (start config oracle bundleOf observers).view.Conveys [] [] where
  fresh := nofun
  replay := nofun
  vault := nofun
  origin := nofun
  known := nofun
  ahead := fun _ _ => rfl

theorem conveys_run (config : Config) (oracle : Oracle) (bundleOf : Uid → Option String)
    (observers : List Observer) (actions : List Action) :
    let b := start config oracle bundleOf observers
    (b.run actions).view.Conveys (b.admissions actions) (b.kept actions) := by
  intro b
  have hlined : b.view.Lined [] := view_start_lined config oracle bundleOf observers
  have hstart : b.view.Stocked [] [] := view_start_stocked config oracle bundleOf observers
  induction actions using List.reverseRecOn with
  | nil => exact conveys_start config oracle bundleOf observers
  | append_singleton before a ih =>
    have hv := stocked_run hstart before
    have hw := stocked_act hv a
    rw [List.nil_append] at hv hw
    have hsound := hv.sound
    have he := (b.run before).act_effect a hsound.registry
    have hc := act_captures hsound.registry a
    have hchain (c : Chain) (hst : (b.run before).view.sequencer.stage = .pumping)
        (ha : (b.run before).view.sequencer.active = some c) :
        Stems (b.admissions before) c.copy := by
      obtain ⟨x, hx, -, hserving⟩ := serving_of_active hlined hst ha
      exact ⟨x, hx, _, hserving.copy⟩
    have hnew : ∀ y ∈ (b.run before).keeps a,
        Stems (b.admissions before) y.1 ∧
          (firstKept (b.kept before) (y.1.serial, y.2) = none ∨
            firstKept (b.kept before) (y.1.serial, y.2) = some y.1) := by
      intro y hy
      obtain ⟨worker, flags, -, hd⟩ := keeps_due hsound.registry hy
      exact ih.due hchain hd
    have hsticky : (b.run before).view.Sticks (b.admissions before) := by
      intro name p hp
      obtain ⟨x, hx, hpub, hs, -⟩ := admitted_of_sticky hstart.sound (fun _ => rfl) hp
      exact ⟨x, hx, hpub, hs⟩
    have hpublications :
        (b.run before).view.publications ≤ ((b.run before).act a).view.publications := by
      have hlength := congrArg List.length hv.numbered
      have hlength' := congrArg List.length hw.numbered
      rw [List.length_map, List.length_range'] at hlength hlength'
      rw [List.length_append] at hlength'
      omega
    rw [run_append, gathers_admissions.snoc, gathers_kept.snoc]
    exact ih.step hc hsound hv.vault hw hsticky hnew
      ⟨hpublications, he.registry_changes.issued_le⟩

/-- What a worker has of what `x` was admitted for, for a subscription or for a final receiver,
after a run: a chain has the latest result, the queue of replays has what was held first, and the
queue of new publications has what was published. -/
def Brings (b : Broker) (before : List Action) (x : Admission) :
    Worker → Option SubscriberId → Copy → Prop
  | .courier .fresh, some r, copy => copy = ⟨x.publication.serial, x.publication.event⟩ ∧
    (x.publication.options.ordered = false ∧ r ∈ x.matched.map Subscriber.id ∨
      x.publication.options.sticky = true)
  | .courier .replay, some r, copy =>
    firstKept (b.kept before) (x.publication.serial, r) = some copy
  | .sequencer, _, copy => ∃ id, x.chain = some id ∧
    copy = x.publication.copyWith (latest x.result (b.befalling id before))
  | _, _, _ => False

theorem brings_of_due (config : Config) (oracle : Oracle) (bundleOf : Uid → Option String)
    (observers : List Observer) {before : List Action} {worker : Worker}
    {target : Option SubscriberId} {copy : Copy} {flags : Flags} :
    let b := start config oracle bundleOf observers
    (b.run before).view.Due worker target copy flags →
      ∃ x ∈ b.admissions before, copy.serial = x.publication.serial ∧
        x.publication.event.Alike copy.event ∧ flags = x.publication.flagsBy worker ∧
        b.Brings before x worker target copy := by
  intro b hd
  have hlined : b.view.Lined [] := view_start_lined config oracle bundleOf observers
  have hconveys : (b.run before).view.Conveys (b.admissions before) (b.kept before) :=
    conveys_run config oracle bundleOf observers before
  have served {c : Chain} (hst : (b.run before).view.sequencer.stage = .pumping)
      (ha : (b.run before).view.sequencer.active = some c) (target : Option SubscriberId) :
      ∃ x ∈ b.admissions before, c.copy.serial = x.publication.serial ∧
        x.publication.event.Alike c.copy.event ∧ c.flags = x.publication.flagsBy .sequencer ∧
        b.Brings before x .sequencer target c.copy := by
    obtain ⟨x, hx, hid, hserving⟩ := serving_of_active hlined hst ha
    obtain ⟨hserial, halike⟩ :=
      x.publication.alike_copyWith (latest x.result (b.befalling c.id before))
    rw [← hserving.copy] at hserial halike
    refine ⟨x, hx, hserial, halike, ?_, c.id, hid, hserving.copy⟩
    rw [Chain.flags, hserving.sticky]
    rfl
  cases hd with
  | @delivery lane d rest hc =>
    have hmem : d ∈ ((b.run before).view.queue lane).deliveries := by
      rw [DeliveryQueue.deliveries, hc]
      exact List.mem_cons_self
    cases lane with
    | fresh =>
      obtain ⟨x, hx, hsends⟩ := hconveys.fresh d hmem
      obtain ⟨hserial, halike⟩ := x.publication.alike_copyWith x.result
      rw [x.copyWith_result, ← hsends.copy] at hserial halike
      exact ⟨x, hx, hserial, halike, hsends.flags, hsends.copy, hsends.cause⟩
    | replay =>
      obtain ⟨hflags, hfirst⟩ := hconveys.replay d hmem
      obtain ⟨x, hx, result, hresult⟩ := hconveys.origin _ (firstKept_eq_some hfirst).1
      obtain ⟨hserial, halike⟩ := x.publication.alike_copyWith result
      rw [← hresult] at hserial halike
      refine ⟨x, hx, hserial, halike, hflags, ?_⟩
      rw [Delivery.parcel, hserial] at hfirst
      exact hfirst
  | receiver hst ha hn => exact served hst ha _
  | last hst ha hn => exact served hst ha _

/-- The copies that are handed over carry what was published. Whatever hand-off begins, its event is
that of an admitted publication but for the result, and its flags are those of its worker. The
result is as it was published, for a new publication and for a sticky value; it is that of the
latest accepted finish, for a chain; and for a replay it is what it was when the copy was first
held, which whatever has happened since leaves in the vault. -/
theorem payloads_kept (config : Config) (oracle : Oracle) (bundleOf : Uid → Option String)
    (observers : List Observer) (before : List Action) (a : Action) :
    let b := start config oracle bundleOf observers
    let w := b.run before
    b.handovers = [] ∧
    (∃ begun, (w.act a).handovers = w.handovers ++ begun ∧
      ∀ worker n, (worker, n) ∈ begun → ∃ x ∈ b.admissions before,
        n.copy.serial = x.publication.serial ∧ x.publication.event.Alike n.copy.event ∧
        n.flags = x.publication.flagsBy worker ∧
        b.Brings before x worker (n.subscriber.map Subscriber.id) n.copy) ∧
    (∀ copy r, (copy, r) ∈ w.keeps a → (copy, r) ∈ (w.act a).vault.contents ∧
      ∃ worker, a = .work worker ∧ ∃ x ∈ b.admissions before,
        copy.serial = x.publication.serial ∧ x.publication.event.Alike copy.event ∧
        b.Brings before x worker (some r) copy) ∧
    ∀ copy r, (copy, r) ∈ w.vault.contents →
      firstKept (b.kept before) (copy.serial, r) = some copy := by
  intro b w
  have hstocked : w.view.Stocked _ _ :=
    stocked_run (view_start_stocked config oracle bundleOf observers) before
  have hsound : w.view.Sound := hstocked.sound
  refine ⟨rfl, ⟨w.begins a, handovers_act hsound a, fun worker n hn => ?_⟩,
    fun copy r hy => ⟨?_, ?_⟩, fun copy r hy => ?_⟩
  · exact brings_of_due config oracle bundleOf observers (begins_due hsound.registry hn)
  · exact (act_captures hsound.registry a).new_subset hsound.registry hstocked.vault hy
  · obtain ⟨worker, flags, rfl, hd⟩ := keeps_due hsound.registry hy
    obtain ⟨x, hx, hserial, halike, -, hbrings⟩ :=
      brings_of_due config oracle bundleOf observers hd
    exact ⟨worker, rfl, x, hx, hserial, halike, hbrings⟩
  · exact (conveys_run config oracle bundleOf observers before).vault (copy, r) hy

end Broker

end EventBroker
