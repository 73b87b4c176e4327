import EventBroker.Proofs.Effects.Telling
import EventBroker.Proofs.Offering
import EventBroker.Proofs.Parcels

namespace EventBroker

/-- What a courier does about one delivery: it passes over a subscription that is gone, has the copy
held for one that is frozen, and begins to notify any other. -/
inductive CourierEvent
  | passed (d : Delivery)
  | held (d : Delivery) (s : Subscriber)
  | begun (d : Delivery) (n : Notice)
  | ended (n : Notice) (result : Except DeliveryError Unit)

def Delivery.holding (d : Delivery) (s : Subscriber) : Record :=
  let r : Record := { kind := .eventFrozen }
  ((r.setEvent d.copy.event.name).setSubscriber d.target).setPid s.owner.pid

def Notice.failure (n : Notice) (s : Subscriber) (e : DeliveryError) : Record :=
  let r : Record := { kind := .deliveryFailed }
  (((r.setEvent n.copy.event.name).setSubscriber s.id).setPid s.owner.pid).setReason e.message

def Notice.failures (n : Notice) (result : Except DeliveryError Unit) : List Record :=
  match result, n.subscriber with
  | .error e, some s => [n.failure s e]
  | _, _ => []

namespace CourierEvent

def attempt? : CourierEvent → Option Delivery
  | passed d | held d _ | begun d _ => some d
  | ended _ _ => none

def tale (lane : Lane) : CourierEvent → List Occurrence
  | passed _ => []
  | held d s => [.record (d.holding s)]
  | begun _ n => [.notifying (.courier lane) n]
  | ended n result => .notified (.courier lane) n result ::
      (n.failures result).map Occurrence.record

end CourierEvent

/-- A courier that has begun to notify somebody ends that before it does anything else; `n` is what
it is busy with. -/
inductive Orderly : List CourierEvent → Option Notice → Prop
  | idle : Orderly [] none
  | passed {es : List CourierEvent} (h : Orderly es none) (d : Delivery) :
    Orderly (es ++ [.passed d]) none
  | held {es : List CourierEvent} (h : Orderly es none) (d : Delivery) (s : Subscriber)
      (hs : s.id = d.target) : Orderly (es ++ [.held d s]) none
  | begun {es : List CourierEvent} (h : Orderly es none) (d : Delivery) (s : Subscriber)
      (hs : s.id = d.target) (now : Instant) :
    Orderly (es ++ [.begun d (d.notice s now)]) (some (d.notice s now))
  | ended {es : List CourierEvent} {n : Notice} (h : Orderly es (some n))
      (result : Except DeliveryError Unit) : Orderly (es ++ [.ended n result]) none

def CourierStage.busy? : CourierStage → Option Notice
  | handing n _ => some n
  | _ => none

def Occurrence.carried : Occurrence → Bool
  | .notifying .sequencer _ | .notified .sequencer _ _ => false
  | .notifying _ _ | .notified _ _ _ => true
  | .record r => (r.kind = .eventFrozen || r.kind = .deliveryFailed) && r.chain.isNone
  | _ => false

namespace Broker

variable (b : Broker)

def turn (d : Delivery) : CourierEvent :=
  match b.registry.entry? d.target with
  | none => .passed d
  | some e =>
    if e.frozenAt = none then .begun d (d.notice e.subscriber b.now) else .held d e.subscriber

def carriage? : Action → Option (Lane × CourierEvent)
  | .work (.courier lane) =>
    match (b.queue lane).courier with
    | .carrying (d :: _) => some (lane, b.turn d)
    | _ => none
  | .handedOff (.courier lane) reception =>
    (b.queue lane).courier.busy?.map fun n => (lane, .ended n reception.result)
  | _ => none

def carriage (b : Broker) : List Action → List (Lane × CourierEvent)
  | [] => []
  | a :: rest => (b.carriage? a).toList ++ (b.act a).carriage rest

def carried : List Occurrence := b.told fun o => if o.carried then some o else none

variable {b} {b' : Broker} {lane : Lane}

theorem carried_of_tells (h : b.Tells (fun o => o.carried = false) b') :
    b'.carried = b.carried :=
  Tells.told_eq h fun _ ho => by simp [ho]

section Turn

variable {d : Delivery} {e : Entry}

theorem turn_gone (h : b.registry.entry? d.target = none) : b.turn d = .passed d := by
  rw [turn, h]

theorem turn_ready (h : b.registry.entry? d.target = some e) (hf : e.frozenAt = none) :
    b.turn d = .begun d (d.notice e.subscriber b.now) := by
  rw [turn, h]
  exact if_pos hf

theorem turn_frozen (h : b.registry.entry? d.target = some e) (hf : e.frozenAt ≠ none) :
    b.turn d = .held d e.subscriber := by
  rw [turn, h]
  exact if_neg hf

end Turn

section Carrying

variable {β : Type} {f : Occurrence → Option β}

theorem filterMap_one {α : Type} (f : α → Option β) (a : α) : [a].filterMap f = (f a).toList := by
  cases h : f a <;> simp [h]

theorem told_log (hl : ∀ l, f (.logged l) = none) (b : Broker) (l : LogLine) :
    (b.log l).told f = b.told f := by
  rw [log, told_note, hl, Option.toList_none, List.append_nil]

theorem told_setCourier (f : Occurrence → Option β) (b : Broker) (lane : Lane) (s : CourierStage) :
    (b.setCourier lane s).told f = b.told f := by
  cases lane <;> rfl

theorem told_attempt (hl : ∀ l, f (.logged l) = none) (b : Broker) (lane : Lane) (d : Delivery)
    (rest : List Delivery) :
    (b.attempt lane d rest).told f = b.told f ++ ((b.turn d).tale lane).filterMap f := by
  rw [attempt]
  cases he : b.registry.entry? d.target with
  | none =>
    rw [approach_gone b he, turn_gone he]
    exact (told_setCourier f b lane _).trans (List.append_nil _).symm
  | some e =>
    by_cases hf : e.frozenAt = none
    · rw [approach_ready b he hf, turn_ready he hf]
      dsimp only
      rw [told_note, told_setCourier, CourierEvent.tale, filterMap_one]
      rfl
    · have hn : ¬e.frozenAt.isNone = true := by
        rwa [Option.isNone_iff_eq_none]
      rw [approach, he, turn_frozen he hf]
      dsimp only
      rw [if_neg hn]
      dsimp only
      rw [told_setCourier, told_emit, told_log hl, CourierEvent.tale, filterMap_one]
      rfl

theorem told_courierConclude (hl : ∀ l, f (.logged l) = none) (b : Broker) (lane : Lane)
    (result : Except DeliveryError Unit) : (b.courierConclude lane result).told f = b.told f ++
      ((b.queue lane).courier.busy?.toList.flatMap fun n =>
        (CourierEvent.ended n result).tale lane).filterMap f := by
  rw [courierConclude]
  cases hq : (b.queue lane).courier with
  | handing n rest =>
    have hnotified : (b.note (.notified (.courier lane) n result)).told f =
        b.told f ++ [Occurrence.notified (.courier lane) n result].filterMap f := by
      rw [told_note, filterMap_one]
    dsimp only
    rw [told_setCourier, CourierStage.busy?, Option.toList_some, List.flatMap_singleton,
      CourierEvent.tale]
    cases result with
    | ok u => exact hnotified
    | error e =>
      cases hs : n.subscriber with
      | none =>
        simp only [Notice.failures, hs]
        exact hnotified
      | some s =>
        simp only [Notice.failures, hs]
        rw [deliveryFailed, told_emit, told_log hl, hnotified, List.append_assoc,
          ← filterMap_one f (Occurrence.record _), ← List.filterMap_append]
        rfl
  | _ => exact (List.append_nil _).symm

theorem told_courierStep (hl : ∀ l, f (.logged l) = none) (hs : ∀ w, f (.stopped w) = none)
    (h : b.courierStep lane = some b') : b'.told f = b.told f ++
      ((b.carriage? (.work (.courier lane))).toList.flatMap fun x => x.2.tale x.1).filterMap f := by
  rw [carriage?]
  cases courierStep_cases h with
  | rest hq =>
    rw [hq]
    exact (told_setCourier f b lane _).trans (List.append_nil _).symm
  | attempt hq =>
    rw [hq, told_attempt hl]
    dsimp only
    rw [Option.toList_some, List.flatMap_singleton]
  | stop hq =>
    rw [hq, stopCourier, told_note, hs, told_log hl]
    cases lane <;> rfl
  | @take job rest hq =>
    rw [hq]
    refine Eq.trans ?_ (List.append_nil _).symm
    cases job with
    | broadcast copy flags targets => cases lane <;> rfl
    | replay held => exact (told_log hl _ _).trans (by cases lane <;> rfl)

theorem carriage?_idle (h : b.courierStep lane = none) :
    b.carriage? (.work (.courier lane)) = none := by
  rw [courierStep] at h
  rw [carriage?]
  split at h <;> simp_all

theorem told_courier (hl : ∀ l, f (.logged l) = none) (hs : ∀ w, f (.stopped w) = none) {a : Action}
    (ha : a = .work (.courier lane) ∨ ∃ reception, a = .handedOff (.courier lane) reception) :
    (b.act a).told f = b.told f ++
      ((b.carriage? a).toList.flatMap fun x => x.2.tale x.1).filterMap f := by
  obtain rfl | ⟨reception, rfl⟩ := ha
  · change ((b.courierStep lane).getD b).told f = _
    cases hb : b.courierStep lane with
    | some b' => exact told_courierStep hl hs hb
    | none =>
      rw [carriage?_idle hb]
      exact (List.append_nil _).symm
  · refine (told_courierConclude hl b lane reception.result).trans ?_
    rw [carriage?]
    cases (b.queue lane).courier.busy? <;> rfl

theorem filterMap_tale (e : CourierEvent) (lane : Lane) :
    (e.tale lane).filterMap (fun o => if o.carried then some o else none) = e.tale lane := by
  have kept (l : List Occurrence) (h : ∀ o ∈ l, o.carried = true) :
      l.filterMap (fun o => if o.carried then some o else none) = l := by
    refine (List.filterMap_congr fun o ho => ?_).trans List.filterMap_some
    exact if_pos (h o ho)
  apply kept
  cases e with
  | passed d => exact List.forall_mem_nil _
  | held d s => exact List.forall_mem_singleton.2 rfl
  | begun d n => exact List.forall_mem_singleton.2 rfl
  | ended n result =>
    refine List.forall_mem_cons.2 ⟨rfl, List.forall_mem_map.2 fun r hr => ?_⟩
    cases result with
    | ok u => cases hr
    | error e =>
      cases hs : n.subscriber with
      | none =>
        simp only [Notice.failures, hs] at hr
        cases hr
      | some s =>
        simp only [Notice.failures, hs] at hr
        cases List.mem_singleton.1 hr
        rfl

end Carrying

def Apart (b b' : Broker) : Prop := b.Tells (fun o => o.carried = false) b'

theorem Apart.note (h : b.Apart b') {o : Occurrence} (ho : o.carried = false) :
    b.Apart (b'.note o) :=
  Tells.note h ho

theorem Apart.emit (h : b.Apart b') {r : Record} (hr : (Occurrence.record r).carried = false) :
    b.Apart (b'.emit r) :=
  Tells.emit h hr

theorem Apart.log (h : b.Apart b') (l : LogLine) : b.Apart (b'.log l) := Tells.log h rfl

theorem Within.apart (ts : List Topic) (h : b.Within ts b')
    (hts : ∀ t ∈ ts, t ≠ .handover ∧ t ≠ .record .eventFrozen ∧ t ≠ .record .deliveryFailed) :
    b.Apart b' := by
  refine Tells.imp h fun o ho => ?_
  cases o with
  | notifying w n => exact absurd rfl (hts _ (ho _ rfl)).1
  | notified w n result => exact absurd rfl (hts _ (ho _ rfl)).1
  | record r =>
    obtain ⟨-, hf, hd⟩ := hts _ (ho _ rfl)
    simp_all [Occurrence.carried]
  | _ => rfl

section Sequencing

theorem carried_of_chain {r : Record} {c : ChainId} (h : r.chain = some c) :
    (Occurrence.record r).carried = false := by
  simp [Occurrence.carried, h]

theorem apart_deliveryFailed (h : b.Apart b') (s : Subscriber) (copy : Copy) (c : ChainId)
    (e : DeliveryError) : b.Apart (b'.deliveryFailed s copy (some c) e) :=
  (h.log _).emit (carried_of_chain rfl)

theorem apart_deliverTo (b : Broker) (c : Chain) (index : Nat) (receiver : SubscriberId) :
    b.Apart (b.deliverTo c index receiver) := by
  have approached {ready : Readiness} {b' : Broker}
      (h : b.approach receiver c.copy (some c.id) = (ready, b')) : b.Apart b' :=
    tells_approach (fun _ => rfl) (fun _ hr => carried_of_chain hr) h
  rw [deliverTo]
  split
  · rename_i h
    exact Tells.note ((approached h).trans (.same rfl)) rfl
  · rename_i h
    exact (approached h).trans (.same rfl)

theorem apart_chainFinished (b : Broker) (c : Chain) (reason : FinishReason) :
    b.Apart (b.chainFinished c reason) :=
  Within.apart [.record .chainFinished] (b.airs_chainFinished c reason (.head _)).within (by simp)

theorem apart_breakDown (b : Broker) : b.Apart b.breakDown :=
  Within.apart [] b.airs_breakDown.within (by simp)

theorem PumpStep.apart (h : b.PumpStep b') : b.Apart b' := by
  cases h with
  | rest | park => exact .same rfl
  | start =>
    exact Within.apart [.record .chainStarted] (b.airs_startChain _ _ (.head _)).within (by simp)
  | breakDown => exact b.apart_breakDown
  | finalize =>
    rw [Broker.finalize]
    split
    · exact Tells.trans (.same rfl) (apart_chainFinished _ _ _)
    · exact Apart.note (.same rfl) rfl
  | deliver => exact b.apart_deliverTo _ _ _

theorem apart_sequencerStep (h : b.sequencerStep = some b') : b.Apart b' := by
  cases sequencerStep_cases h with
  | pump _ h => exact h.apart
  | stop => exact Within.apart [] b.airs_stopSequencer.within (by simp)
  | take => exact Within.apart [] (Within.trans (.same rfl) (airs_handle _ _).within) (by simp)
  | sweep _ _ _ h =>
    exact Within.apart [.record .watchdogFired, .record .receiverTimedOut]
      (airs_sweep h (fun _ _ _ => .head _) (.tail _ (.head _))).within (by simp)

theorem apart_sequencerConclude (hv : b.view.Sound) (result : Except DeliveryError Unit) :
    b.Apart (b.sequencerConclude result) := by
  have hnotified (n : Notice) : b.Apart (b.note (.notified .sequencer n result)) :=
    Tells.note (.same rfl) rfl
  rw [sequencerConclude]
  split
  · rename_i n i hs
    dsimp only
    split
    · exact (hnotified n).log _
    · rename_i c s e hsub ha
      obtain ⟨-, x, t, hn⟩ := hv.handing hs ha
      have hchain : n.chain = some c.id := hn ▸ rfl
      rw [hchain]
      exact apart_deliveryFailed (hnotified n) s n.copy c.id e
    · exact hnotified n
  · dsimp only
    split
    · exact Tells.trans (hnotified _) (apart_chainFinished _ _ _)
    · exact Tells.trans (((hnotified _).log _).emit (carried_of_chain rfl))
        (apart_chainFinished _ _ _)
  · exact .same rfl

end Sequencing

theorem carried_act (hv : b.view.Sound) (a : Action) :
    (b.act a).carried = b.carried ++ ((b.carriage? a).toList.flatMap fun x => x.2.tale x.1) := by
  have aside (h : b.Apart (b.act a)) (hn : b.carriage? a = none) :
      (b.act a).carried = b.carried ++ ((b.carriage? a).toList.flatMap fun x => x.2.tale x.1) := by
    rw [hn]
    exact (carried_of_tells h).trans (List.append_nil _).symm
  have within (hts : ∀ t ∈ a.topics, t ≠ .handover ∧ t ≠ .record .eventFrozen ∧
      t ≠ .record .deliveryFailed) : b.Apart (b.act a) :=
    Within.apart a.topics (b.act_within a) hts
  have courier {lane : Lane}
      (ha : a = .work (.courier lane) ∨ ∃ reception, a = .handedOff (.courier lane) reception) :
      (b.act a).carried = b.carried ++ ((b.carriage? a).toList.flatMap fun x => x.2.tale x.1) := by
    refine (told_courier (fun _ => rfl) (fun _ => rfl) ha).trans ?_
    rw [List.filterMap_flatMap]
    simp only [filterMap_tale]
    rfl
  cases a with
  | work w =>
    cases w with
    | courier lane => exact courier (.inl rfl)
    | sequencer =>
      refine aside ?_ rfl
      change b.Apart ((b.sequencerStep).getD b)
      cases hb : b.sequencerStep with
      | none => exact .same rfl
      | some b' => exact apart_sequencerStep hb
    | listener => exact aside (within (by simp [Action.topics])) rfl
    | observer i => exact aside (within (by simp [Action.topics])) rfl
  | handedOff w reception =>
    cases w with
    | courier lane => exact courier (.inr ⟨reception, rfl⟩)
    | sequencer => exact aside (apart_sequencerConclude hv reception.result) rfl
    | listener => exact aside (.same rfl) rfl
    | observer i => exact aside (.same rfl) rfl
  | _ => exact aside (within (by simp [Action.topics, Topic.subscribing, Topic.publishing])) rfl

theorem carried_run (hv : b.view.Sound) (actions : List Action) :
    (b.run actions).carried =
      b.carried ++ (b.carriage actions).flatMap fun x => x.2.tale x.1 := by
  induction actions generalizing b with
  | nil => exact (List.append_nil _).symm
  | cons a rest ih =>
    have hnext := ih (hv.effect (b.act_effect a hv.registry))
    rw [carried_act hv, List.append_assoc, ← List.flatMap_append] at hnext
    exact hnext

end Broker

def CourierEvent.next (rest : List Delivery) : CourierEvent → CourierStage
  | begun _ n => .handing n rest
  | _ => .carrying rest

namespace DeliveryQueue

variable (q : DeliveryQueue)

def advance (cancelled : Bool) (turn : Delivery → CourierEvent) : DeliveryQueue :=
  match q.courier with
  | .carrying [] => { q with courier := .waiting }
  | .carrying (d :: rest) => { q with courier := (turn d).next rest }
  | .waiting =>
    if cancelled then { q with jobs := [], courier := .stopped }
    else
      match q.jobs with
      | [] => q
      | job :: rest => { q with jobs := rest, courier := .carrying job.deliveries }
  | .handing _ _ | .stopped => q

def conclude : DeliveryQueue :=
  match q.courier with
  | .handing _ rest => { q with courier := .carrying rest }
  | _ => q

end DeliveryQueue

namespace Broker

variable {b b' : Broker} {lane : Lane}

@[simp] theorem queue_setQueue_same (b : Broker) (lane : Lane) (q : DeliveryQueue) :
    (b.setQueue lane q).queue lane = q := by
  cases lane <;> rfl

theorem queue_attempt (b : Broker) (lane : Lane) (d : Delivery) (rest : List Delivery) :
    (b.attempt lane d rest).queue lane =
      { b.queue lane with courier := (b.turn d).next rest } := by
  rw [attempt]
  cases he : b.registry.entry? d.target with
  | none =>
    rw [approach_gone b he, turn_gone he]
    exact queue_setQueue_same b lane _
  | some e =>
    by_cases hf : e.frozenAt = none
    · rw [approach_ready b he hf, turn_ready he hf]
      cases lane <;> rfl
    · obtain ⟨b', hb, hv⟩ := approach_frozen b he hf d.copy none
      have hq : b'.queue lane = b.queue lane := by
        rw [← view_queue, hv, ← view_queue]
        cases lane <;> rfl
      rw [hb, turn_frozen he hf]
      dsimp only
      rw [setCourier, queue_setQueue_same, hq]
      rfl

theorem queue_courier (b : Broker) (lane : Lane) :
    (b.act (.work (.courier lane))).queue lane = (b.queue lane).advance b.cancelled b.turn := by
  change ((b.courierStep lane).getD b).queue lane = _
  rw [courierStep, DeliveryQueue.advance]
  cases hq : (b.queue lane).courier with
  | stopped => rfl
  | handing n rest => rfl
  | carrying left =>
    cases left with
    | nil => exact queue_setQueue_same b lane _
    | cons d rest => exact b.queue_attempt lane d rest
  | waiting =>
    dsimp only
    split
    · cases lane <;> rfl
    · cases hj : (b.queue lane).jobs with
      | nil => rfl
      | cons job rest =>
        dsimp only
        rw [Option.getD_some, ← view_queue, view_takeJob, View.queue_setQueue]

theorem queue_handedOff (b : Broker) (lane : Lane) (reception : Reception) :
    (b.act (.handedOff (.courier lane) reception)).queue lane = (b.queue lane).conclude := by
  change (b.courierConclude lane reception.result).queue lane = _
  generalize reception.result = result
  rw [courierConclude, DeliveryQueue.conclude]
  cases hq : (b.queue lane).courier with
  | handing n rest =>
    dsimp only
    rw [setCourier, queue_setQueue_same]
    have hsame : ∀ b' : Broker, b'.queue lane = b.queue lane →
        { b'.queue lane with courier := .carrying rest } =
          { b.queue lane with courier := .carrying rest } := fun b' h => by rw [h]
    apply hsame
    cases result with
    | ok u => cases lane <;> rfl
    | error e =>
      cases hs : n.subscriber with
      | none => cases lane <;> rfl
      | some s => cases lane <;> rfl
  | _ => rfl

theorem queue_still (b : Broker) {a : Action} (hw : isWork a = true)
    (hs : a ≠ .work (.courier lane))
    (hc : ∀ reception, a ≠ .handedOff (.courier lane) reception) :
    (b.act a).queue lane = b.queue lane := by
  have moved {es : List ChainEvent} {b' : Broker} (hm : b.view.Moves es b'.view) :
      b'.queue lane = b.queue lane := by
    rw [← view_queue, hm.frame, ← view_queue]
    cases lane <;> rfl
  have carried {lane' : Lane} {b' : Broker} (hl : lane' ≠ lane)
      (hk : b.view.Carries lane' b'.view) : b'.queue lane = b.queue lane := by
    rw [← view_queue, hk.queue_eq hl, view_queue]
  cases a with
  | work w =>
    change ((b.work w).getD b).queue lane = b.queue lane
    cases hb : b.work w with
    | none => rfl
    | some b' =>
      cases w with
      | listener => exact queues_of_view (listenerStep_view hb) lane
      | observer i => exact queues_of_view (observerStep_view hb) lane
      | courier lane' => exact carried (fun hl => hs (hl ▸ rfl)) (courierStep_carries hb)
      | sequencer =>
        obtain ⟨es, hm⟩ := sequencerStep_moves hb
        exact moved hm
  | handedOff w reception =>
    cases w with
    | listener => rfl
    | observer i => rfl
    | courier lane' =>
      cases b.courierConclude_carries lane' reception.result with
      | inl hv => exact queues_of_view hv lane
      | inr hk => exact carried (fun hl => hc reception (hl ▸ rfl)) hk.2
    | sequencer =>
      cases b.sequencerConclude_moves reception.result with
      | inl hv => exact queues_of_view hv lane
      | inr hm =>
        obtain ⟨-, es, hm⟩ := hm
        exact moved hm
  | _ => cases hw

end Broker

end EventBroker
