import EventBroker.Proofs.Runs

/-! Where the copies of publications are. A parcel is one copy for one subscription: it lies in a
queue, in a chain or in the vault, or has been handed to its receiver. -/

namespace EventBroker

abbrev Parcel := Nat × SubscriberId

def Delivery.parcel (d : Delivery) : Parcel := (d.copy.serial, d.target)

def Job.parcels (j : Job) : List Parcel := j.deliveries.map Delivery.parcel

def CourierStage.left : CourierStage → List Delivery
  | carrying left => left
  | handing _ left => left
  | _ => []

def DeliveryQueue.parcels (q : DeliveryQueue) : List Parcel :=
  q.courier.left.map Delivery.parcel ++ q.jobs.flatMap Job.parcels

theorem DeliveryQueue.count_parcels (q : DeliveryQueue) (x : Parcel) :
    q.parcels.count x =
      (q.courier.left.map Delivery.parcel).count x + (q.jobs.flatMap Job.parcels).count x :=
  List.count_append

theorem DeliveryQueue.parcels_add (q : DeliveryQueue) (jobs : List Job) :
    { q with jobs := q.jobs ++ jobs }.parcels = q.parcels ++ jobs.flatMap Job.parcels := by
  simp [parcels, List.flatMap_append]

def Chain.parcels (c : Chain) : List Parcel :=
  (c.receivers.drop c.cursor).map fun r => (c.copy.serial, r)

def Command.chains (commands : List Command) : List Chain := commands.filterMap Command.chain?

def Sequencer.load (s : Sequencer) : List Parcel :=
  (s.active.toList ++ s.pending ++ Command.chains s.commands).flatMap Chain.parcels

/-- Once the sequencer has stopped, its chains are no place to be. -/
def Sequencer.parcels (s : Sequencer) : List Parcel :=
  match s.stage with
  | .stopped => []
  | _ => s.load

theorem Sequencer.parcels_of_stopped {s : Sequencer} (h : s.stage = .stopped) : s.parcels = [] := by
  rw [parcels, h]

theorem Sequencer.parcels_of_ne {s : Sequencer} (h : s.stage ≠ .stopped) : s.parcels = s.load := by
  rw [parcels]
  split
  · contradiction
  · rfl

theorem Sequencer.count_load (s : Sequencer) (x : Parcel) :
    s.load.count x = (s.active.toList.flatMap Chain.parcels).count x +
      (s.pending.flatMap Chain.parcels).count x +
      ((Command.chains s.commands).flatMap Chain.parcels).count x := by
  rw [load, List.flatMap_append, List.flatMap_append, List.count_append, List.count_append]

def Vault.parcels (v : Vault Copy) : List Parcel := v.contents.map fun x => (x.1.serial, x.2)

def Signal.parcel? : Signal → Option Parcel
  | notifying n => n.subscriber.map fun s => (n.copy.serial, s.id)
  | _ => none

theorem Job.parcels_broadcast (copy : Copy) (flags : Flags) (targets : List SubscriberId) :
    (broadcast copy flags targets).parcels = targets.map fun t => (copy.serial, t) := by
  rw [parcels, deliveries, List.map_map]
  rfl

theorem Job.parcels_replay (held : List (Held Copy)) :
    (replay held).parcels =
      (held.map fun a => (a.item, a.subscriber.id)).map fun x => (x.1.serial, x.2) := by
  rw [parcels, deliveries, List.map_map, List.map_map]
  rfl

theorem Vault.parcels_capture (v : Vault Copy) (s : Subscriber) (item : Copy) (now : Instant) :
    ((v.capture s item now).parcels ++
      ((v.shelfFor s).expired v.retention now).map fun a => (a.1.serial, s.id)).Perm
        (v.parcels ++ [(item.serial, s.id)]) := by
  have h := (v.contents_capture s item now).map fun x : Copy × SubscriberId => (x.1.serial, x.2)
  rw [List.map_append, List.map_append, List.map_map] at h
  exact h

theorem Vault.Sound.parcels_flush {v : Vault Copy} (h : v.Sound) (sel : Selector) :
    ((v.flush sel).2.parcels ++ (Job.replay (v.flush sel).1).parcels).Perm v.parcels := by
  have h := (h.contents_flush sel).map fun x : Copy × SubscriberId => (x.1.serial, x.2)
  rw [List.map_append] at h
  rw [Job.parcels_replay]
  exact h

theorem Vault.Sound.parcels_restore {v : Vault Copy} (h : v.Sound) (sel : Selector)
    (live : SubscriberId → Bool) :
    (((v.flush sel).2.restore (v.flush sel).1 live).2.parcels ++
      ((v.flush sel).1.filter fun a => !live a.subscriber.id).map fun a =>
        (a.item.serial, a.subscriber.id)).Perm v.parcels := by
  have h := (h.contents_restore sel live).map fun x : Copy × SubscriberId => (x.1.serial, x.2)
  rw [List.map_append, List.map_map] at h
  exact h

theorem Vault.parcels_clear (v : Vault Copy) (ids : List SubscriberId) :
    ((v.clear ids).parcels ++ v.parcels.filter fun x => decide (x.2 ∈ ids)).Perm v.parcels := by
  have hclear : (v.clear ids).parcels = v.parcels.filter fun x => !decide (x.2 ∈ ids) := by
    rw [parcels, contents_clear, parcels, List.filter_map]
    simp only [decide_not]
    rfl
  rw [hclear]
  exact List.perm_append_comm.trans (List.filter_append_perm _ _)

namespace Chain

variable {c c' : Chain} {r : SubscriberId} {now : Instant}

theorem parcels_next {i : Nat} (h : c.next now = (.deliver i r, c')) :
    c.parcels = (c.copy.serial, r) :: c'.parcels := by
  obtain ⟨-, -, -, -, hr, rfl⟩ := next_deliver h
  obtain ⟨hlt, hget⟩ := List.getElem?_eq_some_iff.1 hr
  rw [parcels, List.drop_eq_getElem_cons hlt, hget]
  rfl

theorem parcels_skip (c : Chain) : c.skip.parcels = c.parcels := by
  rw [skip_eq]
  rfl

theorem parcels_finish (hr : c.awaiting = some r) (code : Int) (data : String) (abort : Bool) :
    (c.finish r code data abort).2.parcels = c.parcels := by
  rw [finish_of_awaiting hr]
  rfl

theorem parcels_release (hr : c.awaiting = some r) : c.release.2.parcels = c.parcels := by
  rw [release_of_awaiting hr]
  rfl

theorem parcels_expire (hr : c.awaiting = some r) : c.expire.2.parcels = c.parcels := by
  rw [expire_of_awaiting hr]
  rfl

theorem parcels_expireReceiver (hr : c.awaiting = some r) :
    c.expireReceiver.2.parcels = c.parcels := by
  rw [expireReceiver_of_awaiting hr]
  rfl

theorem parcels_handedOff (c : Chain) : c.handedOff.parcels = c.parcels := by
  rw [handedOff]
  split <;> rfl

theorem parcels_exhausted (h : c.next now = (.finalize .exhausted, c')) : c.parcels = [] := by
  obtain ⟨-, -, -, -, -, -, hlen⟩ := next_finalize h
  rw [parcels, List.drop_eq_nil_of_le (hlen rfl)]
  rfl

end Chain

section Sequencer

variable {s t : Sequencer} {c c' : Chain}

theorem Sequencer.count_active (h : s.active = some c) (x : Parcel) :
    s.load.count x = c.parcels.count x + (s.pending.flatMap Chain.parcels).count x +
      ((Command.chains s.commands).flatMap Chain.parcels).count x := by
  rw [count_load, h, Option.toList_some, List.flatMap_singleton]

theorem Sequencer.count_idle (h : s.active = none) (x : Parcel) :
    s.load.count x = (s.pending.flatMap Chain.parcels).count x +
      ((Command.chains s.commands).flatMap Chain.parcels).count x := by
  rw [count_load, h, Option.toList_none, List.flatMap_nil, List.count_nil, Nat.zero_add]

theorem Sequencer.count_reached {r : SubscriberId} (h : s.active = some c)
    (h' : t.active = some c') (hp : t.pending = s.pending) (hc : t.commands = s.commands)
    (hr : c.parcels = (c.copy.serial, r) :: c'.parcels) (x : Parcel) :
    t.load.count x + [(c.copy.serial, r)].count x = s.load.count x := by
  rw [count_active h, count_active h', hp, hc, hr]
  change _ = ([(c.copy.serial, r)] ++ c'.parcels).count x + _ + _
  rw [List.count_append]
  omega

theorem Sequencer.count_left (h : s.active = some c) (h' : t.active = none)
    (hp : t.pending = s.pending) (hc : t.commands = s.commands) (x : Parcel) :
    t.load.count x + c.parcels.count x = s.load.count x := by
  rw [count_active h, count_idle h', hp, hc]
  omega

theorem Sequencer.parcels_send {s : Sequencer} {cs : List Command}
    (h : s.stage = .stopped → Command.chains cs = []) :
    { s with commands := s.commands ++ cs }.parcels =
      s.parcels ++ (Command.chains cs).flatMap Chain.parcels := by
  by_cases hs : s.stage = .stopped
  · rw [h hs, parcels_of_stopped hs]
    exact parcels_of_stopped (s := { s with commands := s.commands ++ cs }) hs
  · rw [parcels_of_ne hs, parcels_of_ne (s := { s with commands := s.commands ++ cs }) hs]
    simp [load, Command.chains, List.flatMap_append]

end Sequencer

namespace View

variable (v : View)

def handed : List Parcel := v.signals.filterMap Signal.parcel?

def parcels : List Parcel :=
  v.fresh.parcels ++ v.replay.parcels ++ v.sequencer.parcels ++ v.vault.parcels ++ v.handed

theorem count_parcels (x : Parcel) :
    v.parcels.count x = v.fresh.parcels.count x + v.replay.parcels.count x +
      v.sequencer.parcels.count x + v.vault.parcels.count x + v.handed.count x := by
  simp only [parcels, List.count_append]

theorem handed_tell (s : Signal) : (v.tell s).handed = v.handed ++ s.parcel?.toList := by
  rw [handed, tell, List.filterMap_append]
  cases h : s.parcel? <;> simp [handed, h]

theorem parcels_tell (s : Signal) : (v.tell s).parcels = v.parcels ++ s.parcel?.toList := by
  rw [parcels, handed_tell, ← List.append_assoc]
  rfl

theorem count_setQueue (lane : Lane) (q : DeliveryQueue) (x : Parcel) :
    (v.setQueue lane q).parcels.count x + (v.queue lane).parcels.count x =
      v.parcels.count x + q.parcels.count x := by
  rw [count_parcels, count_parcels]
  cases lane with
  | fresh =>
    simp only [setQueue, queue, handed]
    omega
  | replay =>
    simp only [setQueue, queue, handed]
    omega

theorem count_setJobs (lane : Lane) (jobs : List Job) (s : CourierStage) (x : Parcel) :
    (v.setQueue lane { v.queue lane with jobs := jobs, courier := s }).parcels.count x +
        (((v.queue lane).courier.left.map Delivery.parcel).count x +
          ((v.queue lane).jobs.flatMap Job.parcels).count x) =
      v.parcels.count x +
        ((s.left.map Delivery.parcel).count x + (jobs.flatMap Job.parcels).count x) := by
  rw [← DeliveryQueue.count_parcels]
  have h := v.count_setQueue lane { v.queue lane with jobs := jobs, courier := s } x
  rw [DeliveryQueue.count_parcels { v.queue lane with jobs := jobs, courier := s }] at h
  exact h

theorem count_setCourier (lane : Lane) (s : CourierStage) (x : Parcel) :
    (v.setCourier lane s).parcels.count x +
        ((v.queue lane).courier.left.map Delivery.parcel).count x =
      v.parcels.count x + (s.left.map Delivery.parcel).count x := by
  have h := v.count_setJobs lane (v.queue lane).jobs s x
  rw [← Nat.add_assoc, ← Nat.add_assoc] at h
  exact Nat.add_right_cancel h

theorem count_addJobs (lane : Lane) (jobs : List Job) (x : Parcel) :
    (v.setQueue lane { v.queue lane with jobs := (v.queue lane).jobs ++ jobs }).parcels.count x =
      v.parcels.count x + (jobs.flatMap Job.parcels).count x := by
  have h := v.count_setQueue lane { v.queue lane with jobs := (v.queue lane).jobs ++ jobs } x
  rw [DeliveryQueue.parcels_add, List.count_append] at h
  omega

theorem count_setSequencer (s : Sequencer) (x : Parcel) :
    { v with sequencer := s }.parcels.count x + v.sequencer.parcels.count x =
      v.parcels.count x + s.parcels.count x := by
  rw [count_parcels, count_parcels]
  simp only [handed]
  omega

theorem count_setBoth (vault : Vault Copy) (s : Sequencer) (x : Parcel) :
    { v with vault := vault, sequencer := s }.parcels.count x +
        (v.vault.parcels.count x + v.sequencer.parcels.count x) =
      v.parcels.count x + (vault.parcels.count x + s.parcels.count x) := by
  rw [count_parcels, count_parcels]
  simp only [handed]
  omega

theorem count_setVault (vault : Vault Copy) (x : Parcel) :
    { v with vault := vault }.parcels.count x + v.vault.parcels.count x =
      v.parcels.count x + vault.parcels.count x := by
  rw [count_parcels, count_parcels]
  simp only [handed]
  omega

end View

end EventBroker
