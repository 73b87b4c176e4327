import EventBroker.Proofs.Effects.Acting

/-! What operations add to the history, by topic: which records each of them may make, and whether
it may kill, notify or announce. -/

namespace EventBroker

inductive Topic
  | record (kind : RecordKind)
  | killed
  | publication
  | handover
  | observing
  deriving DecidableEq

def Occurrence.topic? : Occurrence → Option Topic
  | .record r => some (.record r.kind)
  | .killed _ _ => some .killed
  | .remembered _ | .announced _ => some .publication
  | .notifying _ _ | .notified _ _ _ => some .handover
  | .observing _ _ => some .observing
  | .logged _ | .queued _ | .cancelled | .stopped _ => none

def Occurrence.record? : Occurrence → Option Record
  | .record r => some r
  | _ => none

def Occurrence.Within (ts : List Topic) (o : Occurrence) : Prop := ∀ t ∈ o.topic?, t ∈ ts

namespace Topic

def subscribing : List Topic :=
  [.killed, .record .ownerEvicted, .record .subscriberAdded, .record .subscribeRejected,
    .record .queueOverflow]

def publishing : List Topic :=
  [.record .publishRejected, .record .permissionDenied, .record .queueOverflow, .publication,
    .record .eventPublished]

def sequencing : List Topic :=
  [.record .watchdogFired, .record .receiverTimedOut, .record .chainStarted,
    .record .chainFinished, .record .eventFrozen, .handover]

def concluding : List Topic :=
  [.handover, .record .deliveryFailed, .record .chainFinished]

end Topic

def Action.topics : Action → List Topic
  | .subscribe _ => Topic.subscribing
  | .publish _ | .publishWithResult _ _ => Topic.publishing
  | .updateFreeze _ _ => [.record .freezeUpdated]
  | .flushFrozen _ => [.record .queueOverflow, .record .frozenFlushed]
  | .unsubscribe _ | .ownerDied _ | .resume _ => [.record .subscriberRemoved]
  | .work .listener => [.record .observerOverflow]
  | .work (.observer _) => [.observing]
  | .work (.courier _) => [.record .eventFrozen, .handover]
  | .work .sequencer => Topic.sequencing
  | .handedOff (.courier _) _ => [.handover, .record .deliveryFailed]
  | .handedOff .sequencer _ => Topic.concluding
  | .observed _ _ => [.record .observerPanicked]
  | .handedOff .listener _ | .handedOff (.observer _) _ | .finish _ _ _ _ | .active _ | .shutdown
  | .tick _ | .setOracle _ => []

namespace Broker

def Tells (P : Occurrence → Prop) (b b' : Broker) : Prop :=
  ∃ os : List (Instant × Occurrence), b'.history = b.history ++ os ∧ ∀ o ∈ os, P o.2

def told {β : Type} (f : Occurrence → Option β) (b : Broker) : List β :=
  b.history.filterMap fun o => f o.2

section Tells

variable {P Q : Occurrence → Prop} {b b' b'' : Broker}

theorem Tells.same (h : b'.past = b.past) : b.Tells P b' :=
  ⟨[], by rw [history, h, List.append_nil]; rfl, List.forall_mem_nil _⟩

theorem Tells.trans (h : b.Tells P b') (h' : b'.Tells P b'') : b.Tells P b'' := by
  obtain ⟨os, ho, hp⟩ := h
  obtain ⟨os', ho', hp'⟩ := h'
  refine ⟨os ++ os', ?_, List.forall_mem_append.2 ⟨hp, hp'⟩⟩
  rw [ho', ho, List.append_assoc]

theorem Tells.imp (h : b.Tells P b') (hq : ∀ o, P o → Q o) : b.Tells Q b' := by
  obtain ⟨os, ho, hp⟩ := h
  exact ⟨os, ho, fun o hm => hq o.2 (hp o hm)⟩

theorem Tells.note (h : b.Tells P b') {o : Occurrence} (ho : P o) : b.Tells P (b'.note o) := by
  refine h.trans ⟨[(b'.now, o)], b'.history_note o, ?_⟩
  intro x hx
  cases List.mem_singleton.1 hx
  exact ho

theorem Tells.log (h : b.Tells P b') {l : LogLine} (hl : P (.logged l)) : b.Tells P (b'.log l) :=
  h.note hl

theorem Tells.emit (h : b.Tells P b') {r : Record} (hr : P (.record r)) :
    b.Tells P (b'.emit r) := by
  have hbus : b.Tells P { b' with bus := b'.bus.publish r } := h
  exact hbus.note hr

theorem Tells.told_eq {β : Type} {f : Occurrence → Option β} (h : b.Tells P b')
    (hf : ∀ o, P o → f o = none) : b'.told f = b.told f := by
  obtain ⟨os, ho, hp⟩ := h
  have hnone : os.filterMap (fun o => f o.2) = [] :=
    List.filterMap_eq_nil_iff.2 fun o hm => hf o.2 (hp o hm)
  rw [told, ho, List.filterMap_append, hnone, List.append_nil]
  rfl

theorem Tells.foldl {γ : Type} {f : Broker → γ → Broker} {xs : List γ}
    (h : ∀ c : Broker, ∀ x ∈ xs, c.Tells P (f c x)) (b : Broker) : b.Tells P (xs.foldl f b) := by
  induction xs generalizing b with
  | nil => exact .same rfl
  | cons x rest ih =>
    have hrest := ih (fun c x hx => h c x (List.mem_cons_of_mem _ hx)) (f b x)
    exact (h b x List.mem_cons_self).trans hrest

end Tells

theorem told_note {β : Type} (f : Occurrence → Option β) (b : Broker) (o : Occurrence) :
    (b.note o).told f = b.told f ++ (f o).toList := by
  rw [told, history_note, List.filterMap_append, told]
  cases h : f o <;> simp [h]

theorem told_emit {β : Type} (f : Occurrence → Option β) (b : Broker) (r : Record) :
    (b.emit r).told f = b.told f ++ (f (.record r)).toList :=
  told_note f { b with bus := b.bus.publish r } (.record r)

def Within (ts : List Topic) (b b' : Broker) : Prop := b.Tells (Occurrence.Within ts) b'

section Within

variable {ts : List Topic} {b b' b'' : Broker}

theorem Within.same (h : b'.past = b.past) : b.Within ts b' := Tells.same h

theorem Within.trans (h : b.Within ts b') (h' : b'.Within ts b'') : b.Within ts b'' :=
  Tells.trans h h'

theorem Within.note (h : b.Within ts b') {o : Occurrence} (ho : o.topic? = none) :
    b.Within ts (b'.note o) := by
  refine Tells.note h ?_
  intro t ht
  rw [ho] at ht
  cases ht

theorem Within.log (h : b.Within ts b') {l : LogLine} : b.Within ts (b'.log l) := h.note rfl

theorem Within.tell (h : b.Within ts b') {o : Occurrence} {t : Topic} (ht : o.topic? = some t)
    (hmem : t ∈ ts) : b.Within ts (b'.note o) := by
  refine Tells.note h ?_
  intro t' ht'
  cases ht.symm.trans ht'
  exact hmem

theorem Within.emit (h : b.Within ts b') {r : Record} {k : RecordKind} (hk : r.kind = k)
    (hmem : .record k ∈ ts) : b.Within ts (b'.emit r) := by
  have hbus : b.Within ts { b' with bus := b'.bus.publish r } := h
  exact hbus.tell rfl (hk ▸ hmem)

theorem Within.foldl {γ : Type} {f : Broker → γ → Broker} {xs : List γ}
    (h : ∀ c : Broker, ∀ x ∈ xs, c.Within ts (f c x)) (b : Broker) :
    b.Within ts (xs.foldl f b) :=
  Tells.foldl h b

end Within

def airing (b : Broker) :
    Option Listener × Observers × Bus Record × Journal (Instant × Occurrence) :=
  (b.listener, b.observers, b.bus, b.past)

/-- Nothing is told beyond the topics, the records told are on the bus, and listener and observers
have done nothing. -/
def Airs (ts : List Topic) (b b' : Broker) : Prop :=
  b'.listener = b.listener ∧ b'.observers = b.observers ∧
    ∃ os : List (Instant × Occurrence), b'.history = b.history ++ os ∧
      (∀ o ∈ os, o.2.Within ts) ∧
      b'.bus = (os.filterMap fun o => o.2.record?).foldl Bus.publish b.bus

section Airs

variable {ts : List Topic} {b b' b'' : Broker}

theorem Airs.within (h : b.Airs ts b') : b.Within ts b' := by
  obtain ⟨-, -, os, ho, hw, -⟩ := h
  exact ⟨os, ho, hw⟩

theorem Airs.same (h : b'.airing = b.airing) : b.Airs ts b' := by
  simp only [airing, Prod.mk.injEq] at h
  obtain ⟨hl, ho, hb, hp⟩ := h
  exact ⟨hl, ho, [], by rw [history, hp, List.append_nil]; rfl, List.forall_mem_nil _, hb⟩

theorem Airs.trans (h : b.Airs ts b') (h' : b'.Airs ts b'') : b.Airs ts b'' := by
  obtain ⟨hl, hs, os, ho, hw, hb⟩ := h
  obtain ⟨hl', hs', os', ho', hw', hb'⟩ := h'
  refine ⟨hl'.trans hl, hs'.trans hs, os ++ os', ?_, List.forall_mem_append.2 ⟨hw, hw'⟩, ?_⟩
  · rw [ho', ho, List.append_assoc]
  · rw [hb', hb, List.filterMap_append, List.foldl_append]

theorem Airs.note (h : b.Airs ts b') {o : Occurrence} (ho : o.topic? = none) :
    b.Airs ts (b'.note o) := by
  refine h.trans ⟨rfl, rfl, [(b'.now, o)], b'.history_note o, ?_, ?_⟩
  · intro x hx t ht
    cases List.mem_singleton.1 hx
    rw [ho] at ht
    cases ht
  · cases o <;> first | rfl | cases ho

theorem Airs.log (h : b.Airs ts b') {l : LogLine} : b.Airs ts (b'.log l) := h.note rfl

theorem Airs.tell (h : b.Airs ts b') {o : Occurrence} {t : Topic} (ht : o.topic? = some t)
    (hr : o.record? = none) (hmem : t ∈ ts) : b.Airs ts (b'.note o) := by
  refine h.trans ⟨rfl, rfl, [(b'.now, o)], b'.history_note o, ?_, ?_⟩
  · intro x hx t' ht'
    cases List.mem_singleton.1 hx
    cases ht.symm.trans ht'
    exact hmem
  · simp [hr, Broker.note]

theorem Airs.emit (h : b.Airs ts b') {r : Record} {k : RecordKind} (hk : r.kind = k)
    (hmem : .record k ∈ ts) : b.Airs ts (b'.emit r) := by
  refine h.trans ⟨rfl, rfl, [(b'.now, .record r)], history_note _ _, ?_, rfl⟩
  intro x hx t ht
  cases List.mem_singleton.1 hx
  cases ht
  exact hk ▸ hmem

theorem Airs.setStage (h : b.Airs ts b') (s : SequencerStage) : b.Airs ts (b'.setStage s) :=
  h.trans (.same rfl)

theorem Airs.setActive (h : b.Airs ts b') (c : Option Chain) : b.Airs ts (b'.setActive c) :=
  h.trans (.same rfl)

theorem Airs.foldl {γ : Type} {f : Broker → γ → Broker} {xs : List γ}
    (h : ∀ c : Broker, ∀ x ∈ xs, c.Airs ts (f c x)) (b : Broker) : b.Airs ts (xs.foldl f b) := by
  induction xs generalizing b with
  | nil => exact .same rfl
  | cons x rest ih =>
    have hrest := ih (fun c x hx => h c x (List.mem_cons_of_mem _ hx)) (f b x)
    exact (h b x List.mem_cons_self).trans hrest

end Airs

section Operations

variable {ts : List Topic} (b : Broker)

theorem airs_setQueue (lane : Lane) (q : DeliveryQueue) : b.Airs ts (b.setQueue lane q) := by
  cases lane <;> exact .same rfl

theorem airs_setCourier (lane : Lane) (s : CourierStage) : b.Airs ts (b.setCourier lane s) :=
  b.airs_setQueue lane _

theorem Submits.airs {b b' : Broker} {lane : Lane} {job : Job} {r : Option BrokerError}
    (h : b.Submits lane job r b') (ho : .record .queueOverflow ∈ ts) : b.Airs ts b' := by
  cases h with
  | closed hc => exact .same rfl
  | full hc hr => exact Airs.emit (.same rfl) rfl ho
  | taken hc hr => exact Airs.note (b.airs_setQueue lane _) rfl

section Requests

theorem airs_replaySticky (s : Subscriber) (name : String) (ho : .record .queueOverflow ∈ ts) :
    b.Airs ts (b.replaySticky s name) := by
  rw [replaySticky]
  split
  · exact .same rfl
  · split
    · split
      · rename_i hs
        exact (submits hs).airs ho
      · rename_i hs
        exact ((submits hs).airs ho).log
    · exact Airs.log (.same rfl)

theorem airs_evict (v : Eviction) (hk : .killed ∈ ts) (hv : .record .ownerEvicted ∈ ts) :
    b.Airs ts (b.evict v) := by
  have hkilled (reason : String) :
      b.Airs ts ((b.log (.evicting v.pid v.count)).note (.killed v.pid reason)) :=
    Airs.tell (Airs.log (.same rfl)) rfl rfl hk
  exact (hkilled _).log.emit rfl hv

theorem airs_subscriptionRefused (e : BrokerError) (hr : .record .subscribeRejected ∈ ts) :
    b.Airs ts (b.subscriptionRefused e) := by
  cases e with
  | tooManySubscribers pid count => exact Airs.emit (Airs.log (.same rfl)) rfl hr
  | _ => exact .same rfl

theorem airs_welcome (a : Admitted) (ho : .record .queueOverflow ∈ ts) (hk : .killed ∈ ts)
    (hv : .record .ownerEvicted ∈ ts) (ha : .record .subscriberAdded ∈ ts) :
    b.Airs ts (b.welcome a) := by
  simp only [welcome]
  refine Airs.trans ?_ (Airs.foldl (fun c name _ => c.airs_replaySticky _ name ho) _)
  refine Airs.emit (Airs.log ?_) rfl ha
  cases a.evicted with
  | none => exact .same rfl
  | some v => exact b.airs_evict v hk hv

theorem airs_subscribe (req : Subscription) :
    b.Airs Topic.subscribing (b.subscribe req).2 := by
  rw [subscribe]
  split
  · exact .same rfl
  · dsimp only
    split
    · exact b.airs_subscriptionRefused _ (by decide)
    · exact Airs.trans (.same rfl)
        (airs_welcome _ _ (by decide) (by decide) (by decide) (by decide))

theorem Dispatches.airs {b b' : Broker} {p : Publication} {matched : List Subscriber}
    {finalReceiver : Option Receiver} {r : Except BrokerError (Option ChainId)}
    (h : b.Dispatches p matched finalReceiver r b') (ho : .record .queueOverflow ∈ ts) :
    b.Airs ts b' := by
  cases h with
  | nothing hm hf => exact .same rfl
  | chain hord hm hs => exact Airs.note (.same rfl) rfl
  | stopped hord hs => exact .same rfl
  | job hord hm hs => exact hs.airs ho
  | refused hord hs => exact hs.airs ho

theorem airs_announce (p : Publication) (matched : Nat) (chain : Option ChainId)
    (hp : .publication ∈ ts) (he : .record .eventPublished ∈ ts) :
    b.Airs ts (b.announce p matched chain) := by
  simp only [announce]
  refine Airs.emit (Airs.log (Airs.tell ?_ rfl rfl hp)) (Record.kind_withChain _ _) he
  split
  · exact Airs.tell (.same rfl) rfl rfl hp
  · exact .same rfl

theorem airs_deny (p : Publication) (denied : Nat) (hd : .record .permissionDenied ∈ ts) :
    b.Airs ts (b.deny p denied) := by
  rw [deny]
  split
  · exact .same rfl
  · exact Airs.emit (.same rfl) rfl hd

theorem airs_post (p : Publication) (finalReceiver : Option Receiver) :
    b.Airs Topic.publishing (b.post p finalReceiver).2 := by
  cases hp : b.post p finalReceiver with
  | mk r b' =>
    have hdenied : b.Airs Topic.publishing (b.deny (b.prepared p) (b.matching p).denied) :=
      b.airs_deny _ _ (by decide)
    cases posts_post hp with
    | closed hc => exact .same rfl
    | inadmissible hr => exact Airs.emit (Airs.log (.same rfl)) rfl (.head _)
    | refused hd => exact hdenied.trans (hd.airs (by decide))
    | admitted hd =>
      exact (hdenied.trans (hd.airs (by decide))).trans
        (airs_announce _ _ _ _ (by decide) (by decide))

theorem airs_updateFreeze (sel : Selector) (frozen : Bool)
    (hf : .record .freezeUpdated ∈ ts) : b.Airs ts (b.updateFreeze sel frozen).2 := by
  simp only [updateFreeze]
  exact Airs.emit (Airs.log (.same rfl)) rfl hf

theorem airs_flushFrozen (sel : Selector) (ho : .record .queueOverflow ∈ ts)
    (hf : .record .frozenFlushed ∈ ts) : b.Airs ts (b.flushFrozen sel).2 := by
  simp only [flushFrozen]
  split
  · exact .same rfl
  · have hvault : b.Airs ts { b with vault := (b.vault.flush sel).2 } := .same rfl
    split
    · rename_i hs
      exact (hvault.trans ((submits hs).airs ho)).log.emit rfl hf
    · rename_i hs
      exact Airs.log ((hvault.trans ((submits hs).airs ho)).trans (.same rfl))

end Requests

section Calls

theorem airs_departed (s : Subscriber) (dropped : Nat) (released : Bool) (reason : String)
    (hr : .record .subscriberRemoved ∈ ts) :
    b.Airs ts (b.departed s dropped released reason) :=
  Airs.emit (Airs.log (.same rfl)) rfl hr

theorem airs_send (c : Command) : b.Airs ts (b.send c) := by
  rw [send]
  exact Airs.note (.same rfl) rfl

theorem airs_ask (w : Waiting) (command : Nat → Command) (otherwise : Response) :
    b.Airs ts (b.ask w command otherwise).2 := by
  rw [ask]
  split
  · exact Airs.trans (.same rfl) (airs_send _ _)
  · exact .same rfl

theorem airs_allDeparted (cause : Departure) (total : Nat) :
    b.Airs ts (b.allDeparted cause total).2 := by
  cases cause with
  | unsubscribed => exact .same rfl
  | ownerDied pid =>
    rw [allDeparted]
    split
    · exact .same rfl
    · exact Airs.log (.same rfl)

theorem airs_retire (call : Nat) (cause : Departure) (total : Nat) (leaving : List Subscriber)
    (b : Broker) (hr : .record .subscriberRemoved ∈ ts) :
    b.Airs ts (retire call cause total leaving b).2 := by
  induction leaving generalizing b with
  | nil => exact (b.airs_allDeparted cause total).trans (.same rfl)
  | cons s rest ih =>
    simp only [retire]
    split
    · exact Airs.trans (.same rfl) (airs_send _ _)
    · exact Airs.trans (Airs.trans (.same rfl) (airs_departed _ _ _ _ _ hr)) (ih _)

theorem airs_unsubscribe (id : SubscriberId) (hr : .record .subscriberRemoved ∈ ts) :
    b.Airs ts (b.unsubscribe id).2 := by
  rw [unsubscribe]
  split
  · exact .same rfl
  · exact Airs.trans (.same rfl) (airs_retire _ _ _ _ _ hr)

theorem airs_ownerDied (pid : Pid) (hr : .record .subscriberRemoved ∈ ts) :
    b.Airs ts (b.ownerDied pid).2 := by
  simp only [ownerDied]
  exact Airs.trans (.same rfl) (airs_retire _ _ _ _ _ hr)

theorem airs_shutdown : b.Airs ts b.shutdown.2 := by
  have hcancelled : b.Airs ts ({ b with cancelled := true, joined := true }.note .cancelled) :=
    Airs.note (.same rfl) rfl
  rw [shutdown]
  generalize (if b.joined then [] else b.workers) = ws
  dsimp only
  split
  · exact hcancelled.log
  · exact hcancelled.trans (.same rfl)

theorem airs_resume (call : Nat) (hr : .record .subscriberRemoved ∈ ts) :
    b.Airs ts (((b.resume call).map (·.2)).getD b) := by
  have hseen (r : Retirement) (released : Bool) : b.Airs ts (retire call r.cause r.total r.rest
      (b.departed r.current r.dropped released r.cause.reason)).2 :=
    (b.airs_departed _ _ _ _ hr).trans (airs_retire _ _ _ _ _ hr)
  rw [resume]
  cases b.calls.get? call with
  | none => exact .same rfl
  | some c =>
    obtain ⟨waiting, answer⟩ := c
    cases waiting with
    | shutdown workers =>
      dsimp only
      split
      · exact Airs.trans (Airs.log (.same rfl)) (.same rfl)
      · exact .same rfl
    | retire r =>
      cases answer with
      | none => exact .same rfl
      | some a => cases a <;> exact hseen r _
    | _ =>
      cases answer with
      | none => exact .same rfl
      | some a => cases a <;> exact .same rfl

end Calls

section Observing

theorem within_offer (r : Record) (ho : .record .observerOverflow ∈ ts) :
    b.Within ts (b.offer r) := by
  have hlost {e : Emission} (he : e ∈ (b.observers.emit r).1) (c : Broker) :
      c.Within ts (c.applyEmission e) := by
    cases e with
    | queued i => exact Within.note (.same rfl) rfl
    | lost report =>
      cases report with
      | none => exact .same rfl
      | some report =>
        obtain ⟨offered, ho, he⟩ := List.mem_map.1 he
        obtain ⟨i, hi, rfl⟩ := List.mem_mapIdx.1 ho
        exact Within.emit (.same rfl) (Observers.offer_report he) ‹_›
  exact Within.trans (.same rfl)
    (Within.foldl (fun c e he => hlost he c) { b with observers := (b.observers.emit r).2 })

theorem within_listenerStep {b b' : Broker} (h : b.listenerStep = some b')
    (ho : .record .observerOverflow ∈ ts) : b.Within ts b' := by
  cases listens h with
  | forward => exact Within.trans (.same rfl) (within_offer _ _ ho)
  | drain =>
    exact Within.trans (.same rfl) (Within.foldl (fun c i _ => Within.note (.same rfl) rfl) _)
  | stop => exact Within.note (.same rfl) rfl

theorem within_observerStep {b b' : Broker} {i : Nat} (h : b.observerStep i = some b')
    (ho : .observing ∈ ts) : b.Within ts b' := by
  rw [observerStep] at h
  split at h
  · cases h
  · cases h
    exact Within.note (.same rfl) rfl
  · rename_i o r observers hw
    have hobserving : b.Within ts ({ b with observers }.note (.observing i r)) :=
      Within.tell (.same rfl) rfl ho
    cases h
    split
    · exact hobserving.log
    · exact hobserving

theorem within_observerConclude (i : Nat) (panic : Option Panic)
    (hp : .record .observerPanicked ∈ ts) : b.Within ts (b.observerConclude i panic) := by
  rw [observerConclude]
  split
  · exact .same rfl
  · rename_i report observers h
    exact Within.emit (.same rfl) (Observers.done_report h) hp

end Observing

section Delivering

theorem airs_approach {b b' : Broker} {id : SubscriberId} {copy : Copy} {chain : Option ChainId}
    {ready : Readiness} (h : b.approach id copy chain = (ready, b'))
    (hf : .record .eventFrozen ∈ ts) : b.Airs ts b' := by
  rw [approach] at h
  split at h
  · cases h
    exact .same rfl
  · split at h
    · cases h
      exact .same rfl
    · cases h
      exact Airs.emit (Airs.log (.same rfl)) (Record.kind_withChain _ _) hf

theorem airs_deliveryFailed (s : Subscriber) (copy : Copy) (chain : Option ChainId)
    (e : DeliveryError) (hf : .record .deliveryFailed ∈ ts) :
    b.Airs ts (b.deliveryFailed s copy chain e) :=
  Airs.emit (Airs.log (.same rfl)) (Record.kind_withChain _ _) hf

theorem airs_courierStep {b b' : Broker} {lane : Lane} (h : b.courierStep lane = some b')
    (hf : .record .eventFrozen ∈ ts) (hh : .handover ∈ ts) : b.Airs ts b' := by
  cases courierStep_cases h with
  | rest => exact b.airs_setCourier lane _
  | attempt =>
    rw [Broker.attempt]
    split
    · rename_i ha
      exact Airs.tell ((airs_approach ha hf).trans (airs_setCourier _ lane _)) rfl rfl hh
    · rename_i ha
      exact (airs_approach ha hf).trans (airs_setCourier _ lane _)
  | stop => exact (b.airs_setQueue lane _).log.note rfl
  | @take job rest =>
    cases job with
    | broadcast copy flags targets => exact b.airs_setQueue lane _
    | replay held => exact (b.airs_setQueue lane _).log

theorem airs_courierConclude (lane : Lane) (result : Except DeliveryError Unit)
    (hh : .handover ∈ ts) (hf : .record .deliveryFailed ∈ ts) :
    b.Airs ts (b.courierConclude lane result) := by
  rw [courierConclude]
  split
  · rename_i n rest hq
    refine Airs.trans ?_ (airs_setCourier _ lane _)
    have hnotified : b.Airs ts (b.note (.notified (.courier lane) n result)) :=
      Airs.tell (.same rfl) rfl rfl hh
    split
    · exact hnotified.trans (airs_deliveryFailed _ _ _ _ _ hf)
    · exact hnotified
  · exact .same rfl

end Delivering

section Sequencing

theorem airs_closeSequencer : b.Airs ts b.closeSequencer := by
  have hforget (c : Broker) (q : Command) : c.Airs ts (c.forget q) := by
    cases q <;> exact .same rfl
  exact Airs.trans (.same rfl) (Airs.foldl (fun c q _ => hforget c q) _)

theorem airs_stopSequencer : b.Airs ts b.stopSequencer :=
  Airs.note b.airs_closeSequencer.log rfl

theorem airs_breakDown : b.Airs ts b.breakDown :=
  Airs.note b.airs_closeSequencer rfl

theorem airs_handle (c : Command) : b.Airs ts (b.handle c) := by
  cases c with
  | enqueue chain => exact .same rfl
  | finish receiver code data abort caller =>
    rw [handle]
    split
    · exact .same rfl
    · split
      · exact Airs.setStage (Airs.log (.same rfl)) _
      · exact .same rfl
  | release receiver caller =>
    rw [handle]
    split
    · exact .same rfl
    · split
      · exact Airs.setStage (Airs.log (.same rfl)) _
      · exact .same rfl
  | active receiver caller => exact .same rfl

theorem airs_sweep {b b' : Broker} (h : b.sweep = some b')
    (hw : ∀ c ∈ b.sequencer.active, Chain.due c.watchdogDeadline b.now = true →
      .record .watchdogFired ∈ ts)
    (ht : .record .receiverTimedOut ∈ ts) : b.Airs ts b' := by
  cases sweep_cases h with
  | watchdog ha hd => exact Airs.setStage (Airs.emit (Airs.log (.same rfl)) rfl (hw _ ha hd)) _
  | receiver => exact Airs.setStage (Airs.emit (Airs.log (.same rfl)) rfl ht) _
  | nobody => exact .same rfl

theorem airs_chainFinished (c : Chain) (reason : FinishReason)
    (hf : .record .chainFinished ∈ ts) : b.Airs ts (b.chainFinished c reason) :=
  Airs.setStage (Airs.emit (Airs.log (.same rfl)) rfl hf) _

theorem airs_startChain (c : Chain) (rest : List Chain) (hs : .record .chainStarted ∈ ts) :
    b.Airs ts (b.startChain c rest) := by
  rw [startChain]
  exact Airs.trans (Airs.emit (Airs.log (.same rfl)) rfl hs) (.same rfl)

variable {b} in
theorem PumpStep.airs {b' : Broker} (h : b.PumpStep b') (hs : .record .chainStarted ∈ ts)
    (hf : .record .chainFinished ∈ ts) (hz : .record .eventFrozen ∈ ts) (hh : .handover ∈ ts) :
    b.Airs ts b' := by
  cases h with
  | rest | park => exact .same rfl
  | start => exact b.airs_startChain _ _ hs
  | breakDown => exact b.airs_breakDown
  | finalize =>
    rw [Broker.finalize]
    split
    · exact Airs.trans (.same rfl) (airs_chainFinished _ _ _ hf)
    · exact Airs.tell (.same rfl) rfl rfl hh
  | deliver =>
    rw [deliverTo]
    split
    · rename_i ha
      exact Airs.tell (Airs.trans (airs_approach ha hz) (.same rfl)) rfl rfl hh
    · rename_i ha
      exact (airs_approach ha hz).trans (.same rfl)

theorem airs_sequencerStep {b b' : Broker} (h : b.sequencerStep = some b')
    (hw : ∀ c ∈ b.sequencer.active, Chain.due c.watchdogDeadline b.now = true →
      .record .watchdogFired ∈ ts)
    (ht : .record .receiverTimedOut ∈ ts) (hs : .record .chainStarted ∈ ts)
    (hf : .record .chainFinished ∈ ts) (hz : .record .eventFrozen ∈ ts) (hh : .handover ∈ ts) :
    b.Airs ts b' := by
  cases sequencerStep_cases h with
  | pump _ h => exact h.airs hs hf hz hh
  | stop => exact b.airs_stopSequencer
  | take => exact Airs.trans (.same rfl) (airs_handle _ _)
  | sweep _ _ _ h => exact airs_sweep h hw ht

theorem airs_sequencerConclude (result : Except DeliveryError Unit) :
    b.Airs Topic.concluding (b.sequencerConclude result) := by
  have hnotified (n : Notice) :
      b.Airs Topic.concluding (b.note (.notified .sequencer n result)) :=
    Airs.tell (.same rfl) rfl rfl (by decide)
  rw [sequencerConclude]
  split
  · dsimp only
    split
    · exact ((hnotified _).setActive _).log.setStage _
    · refine Airs.setStage (Airs.setActive ?_ _) _
      exact (hnotified _).trans (airs_deliveryFailed _ _ _ _ _ (by decide))
    · exact (hnotified _).setStage _
  · dsimp only
    split
    · exact (hnotified _).trans (airs_chainFinished _ _ _ (by decide))
    · refine Airs.trans ?_ (airs_chainFinished _ _ _ (by decide))
      exact (hnotified _).log.emit (k := .deliveryFailed) rfl (by decide)
  · exact .same rfl

end Sequencing

def observes : Action → Bool
  | .work .listener | .work (.observer _) | .observed _ _ => true
  | _ => false

theorem act_airs {a : Action} (h : observes a = false) : b.Airs a.topics (b.act a) := by
  cases a with
  | subscribe req => exact b.airs_subscribe req
  | publish p => exact b.airs_post p none
  | publishWithResult p receiver => exact b.airs_post _ _
  | updateFreeze sel frozen => exact b.airs_updateFreeze sel frozen (.head _)
  | flushFrozen sel => exact b.airs_flushFrozen sel (.head _) (.tail _ (.head _))
  | unsubscribe id => exact b.airs_unsubscribe id (.head _)
  | ownerDied pid => exact b.airs_ownerDied pid (.head _)
  | finish receiver code data abort => exact b.airs_ask _ _ _
  | active receiver => exact b.airs_ask _ _ _
  | shutdown => exact b.airs_shutdown
  | resume call => exact b.airs_resume call (.head _)
  | work w =>
    change b.Airs _ ((b.work w).getD b)
    cases hb : b.work w with
    | none => exact .same rfl
    | some b' =>
      cases w with
      | courier lane => exact airs_courierStep hb (.head _) (.tail _ (.head _))
      | sequencer =>
        exact airs_sequencerStep hb (fun _ _ _ => .head _) (by decide) (by decide) (by decide)
          (by decide) (by decide)
      | _ => cases h
  | handedOff w reception =>
    cases w with
    | courier lane =>
      exact b.airs_courierConclude lane reception.result (.head _) (.tail _ (.head _))
    | sequencer => exact b.airs_sequencerConclude reception.result
    | _ => exact .same rfl
  | observed i panic => cases h
  | tick now => exact .same rfl
  | setOracle o => exact .same rfl

theorem act_within (a : Action) : b.Within a.topics (b.act a) := by
  cases ha : observes a with
  | false => exact (b.act_airs ha).within
  | true =>
    cases a with
    | work w =>
      change b.Within _ ((b.work w).getD b)
      cases hb : b.work w with
      | none => exact .same rfl
      | some b' =>
        cases w with
        | listener => exact within_listenerStep hb (.head _)
        | observer i => exact within_observerStep hb (.head _)
        | _ => cases ha
    | observed i panic => exact b.within_observerConclude i panic (.head _)
    | _ => cases ha

end Operations

end Broker

end EventBroker
