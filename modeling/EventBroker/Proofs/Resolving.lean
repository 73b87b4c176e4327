import EventBroker.Proofs.Airing
import EventBroker.Proofs.Evicting
import EventBroker.Proofs.Nameless
import EventBroker.Proofs.Publishing
import EventBroker.Proofs.Stickies

namespace EventBroker

namespace Registry

variable {r : Registry}

theorem Unpinned.unsubscribeAll (h : r.Unpinned) (ids : List SubscriberId) :
    (Registry.unsubscribeAll ids r).2.Unpinned :=
  fun id e he => h id e (entry_of_unsubscribeAll he)

theorem Unpinned.apply (h : r.Unpinned) (q : Request)
    (hq : ∀ req isSystem, q = .subscribe req isSystem → req.Unpinned) : (r.apply q).Unpinned := by
  cases q with
  | subscribe req isSystem =>
    rw [Registry.apply]
    split
    · rename_i a r' hs
      obtain ⟨ha, rfl⟩ := subscribe_adds hs
      intro id e he
      rw [entry_add] at he
      split at he
      · cases he
        rw [ha]
        exact hq req isSystem rfl
      · exact h id e he
    · exact h
  | unsubscribe id =>
    have hone := h.unsubscribeAll [id]
    simp only [Registry.unsubscribeAll] at hone
    rw [Registry.apply]
    cases hu : r.unsubscribe id with
    | none => exact h
    | some x =>
      rw [hu] at hone
      exact hone
  | removeOwner pid => exact h.unsubscribeAll _
  | updateFreeze sel frozen now =>
    intro id e he
    rw [Registry.apply, entry_updateFreeze] at he
    obtain ⟨e', he', rfl⟩ := Option.map_eq_some_iff.1 he
    have hunpinned := h id e' he'
    split
    · rwa [Entry.subscriber_mark]
    · exact hunpinned

end Registry

namespace Broker

variable (b : Broker)

section Reading

theorem resolveBundle_nameless (o : Owner) :
    b.nameless.resolveBundle o.nameless = (b.resolveBundle o).nameless := by
  rw [resolveBundle, resolveBundle, if_pos (show o.nameless.bundle = "" from rfl)]
  split <;> rfl

theorem takesCommands_nameless : b.nameless.takesCommands = b.takesCommands := by
  rw [takesCommands, takesCommands, sequencer_nameless, Sequencer.stage_nameless]
  cases b.sequencer.stage <;> rfl

theorem hasStopped_nameless (w : Worker) : b.nameless.hasStopped w = b.hasStopped w := by
  cases w with
  | courier lane =>
    rw [hasStopped, hasStopped, queue_nameless, DeliveryQueue.nameless]
    cases (b.queue lane).courier <;> rfl
  | sequencer => exact congrArg not b.takesCommands_nameless
  | _ => rfl

theorem refusal_nameless (p : Publication) : b.nameless.refusal p.nameless = b.refusal p := rfl

end Reading

section Writing

theorem notified_nameless (w : Worker) (n : Notice) (result : Except DeliveryError Unit) :
    b.nameless.note (.notified w n.nameless result) = (b.note (.notified w n result)).nameless :=
  rfl

theorem setActive_nameless (c : Option Chain) :
    b.nameless.setActive c = (b.setActive c).nameless := rfl

theorem setQueue_nameless (lane : Lane) (q : DeliveryQueue) :
    b.nameless.setQueue lane q.nameless = (b.setQueue lane q).nameless := by
  cases lane <;> rfl

theorem setCourier_nameless (lane : Lane) (s : CourierStage) :
    b.nameless.setCourier lane s.nameless = (b.setCourier lane s).nameless := by
  cases lane <;> rfl

end Writing

section Requests

theorem submit_nameless (lane : Lane) (job : Job) :
    b.nameless.submit lane job.nameless =
      ((b.submit lane job).1, (b.submit lane job).2.nameless) := by
  have hqueued : (b.nameless.setQueue lane { (b.queue lane).nameless with
      jobs := (b.queue lane).nameless.jobs ++ [job.nameless] }) =
        (b.setQueue lane { b.queue lane with jobs := (b.queue lane).jobs ++ [job] }).nameless := by
    rw [← setQueue_nameless]
    refine congrArg (b.nameless.setQueue lane) ?_
    simp only [DeliveryQueue.nameless, List.map_append, List.map_cons, List.map_nil]
  have hfull : (b.queue lane).nameless.room ≤ (b.queue lane).nameless.jobs.length ↔
      (b.queue lane).room ≤ (b.queue lane).jobs.length :=
    iff_of_eq (congrArg (_ ≤ ·) (List.length_map _))
  simp only [submit, queue_nameless, hqueued, hfull]
  dsimp only [DeliveryQueue.nameless]
  cases (b.queue lane).courier with
  | stopped => rfl
  | _ =>
    dsimp only [CourierStage.nameless]
    by_cases h : (b.queue lane).room ≤ (b.queue lane).jobs.length
    · rw [if_pos h, if_pos h]
      rfl
    · rw [if_neg h, if_neg h]
      rfl

theorem replaySticky_nameless {s : Subscriber} (hb : b.sticky.Unpinned) (hs : s.Unpinned)
    (name : String) :
    b.nameless.replaySticky s.nameless name = (b.replaySticky s name).nameless := by
  simp only [replaySticky, sticky_nameless, StickyStore.get?_nameless]
  cases hp : b.sticky.get? name with
  | none => rfl
  | some p =>
    simp only [Option.map_some, oracle_nameless, (hb name p hp).verdict hs]
    cases p.verdict b.oracle s with
    | deliver =>
      have hsubmit := b.submit_nameless .fresh (.broadcast ⟨p.serial, p.event⟩ ⟨false, true⟩ [s.id])
      simp only [Job.nameless] at hsubmit
      simp only [Subscriber.id_nameless, Publication.serial_nameless, Publication.event_nameless,
        hsubmit]
      cases b.submit .fresh (.broadcast ⟨p.serial, p.event⟩ ⟨false, true⟩ [s.id]) with
      | mk e c => cases e <;> rfl
    | _ => rfl

theorem sticky_replaySticky (s : Subscriber) (name : String) :
    (b.replaySticky s name).sticky = b.sticky := by
  obtain ⟨ps, -, hview⟩ := b.replaySticky_view s name
  exact congrArg View.sticky hview

variable {b}

def greet (b : Broker) (s : Subscriber) : Broker :=
  let r : Record := { kind := .subscriberAdded }
  (b.log (.subscriberAdded s.id s.owner.pid b.registry.size)).emit
    (((r.setSubscriber s.id).setPid s.owner.pid).setCount b.registry.size)

theorem greet_nameless (b : Broker) (s : Subscriber) :
    b.nameless.greet s.nameless = (b.greet s).nameless := by
  rw [greet, greet, registry_nameless, Registry.size_nameless]
  rfl

theorem welcome_greeted (b : Broker) (s : Subscriber) : b.welcome ⟨s, none⟩ =
    s.interest.events.toList.foldl (fun b name => b.replaySticky s name) (b.greet s) := rfl

theorem welcome_evicting (b : Broker) (s : Subscriber) (v : Eviction) :
    b.welcome ⟨s, some v⟩ = (b.evict v).welcome ⟨s, none⟩ := rfl

theorem evict_nameless (b : Broker) (v : Eviction) :
    b.nameless.evict v = (b.evict v).nameless := rfl

theorem welcome_nameless (hb : b.sticky.Unpinned) {a : Admitted} (ha : a.subscriber.Unpinned) :
    b.nameless.welcome a.nameless = (b.welcome a).nameless := by
  obtain ⟨s, evicted⟩ := a
  have replayed (names : List String) {b : Broker} (hb : b.sticky.Unpinned) :
      names.foldl (fun b name => b.replaySticky s.nameless name) b.nameless =
        (names.foldl (fun b name => b.replaySticky s name) b).nameless := by
    induction names generalizing b with
    | nil => rfl
    | cons name rest ih =>
      rw [List.foldl_cons, List.foldl_cons, replaySticky_nameless b hb ha]
      exact ih ((b.sticky_replaySticky s name).symm ▸ hb)
  have welcomed {b : Broker} (hb : b.sticky.Unpinned) :
      b.nameless.welcome ⟨s.nameless, none⟩ = (b.welcome ⟨s, none⟩).nameless := by
    rw [welcome_greeted, welcome_greeted, greet_nameless]
    exact replayed _ hb
  rw [Admitted.nameless]
  cases evicted with
  | none => exact welcomed hb
  | some v =>
    rw [welcome_evicting, welcome_evicting, evict_nameless]
    exact welcomed (b := b.evict v) hb

theorem subscribe_named (b : Broker) (req : Subscription) : b.subscribe req =
    if b.cancelled then (.error .closed, b)
    else
      match b.registry.subscribe (b.named req)
        (b.oracle.isPrivileged (b.named req).owner.token) with
      | .error e => (.error e, b.subscriptionRefused e)
      | .ok (a, registry) => (.ok a.subscriber.id, { b with registry }.welcome a) := rfl

theorem subscribe_nameless (hb : b.sticky.Unpinned) {req : Subscription} (hr : req.Unpinned) :
    b.nameless.subscribe req.nameless =
      ((b.subscribe req).1, (b.subscribe req).2.nameless) := by
  have hnamed : b.nameless.named req.nameless = (b.named req).nameless := by
    rw [named, named, Subscription.nameless, resolveBundle_nameless]
    rfl
  simp only [subscribe_named, hnamed, cancelled_nameless, registry_nameless, oracle_nameless,
    Registry.subscribe_nameless, Subscription.owner_nameless, Owner.token_nameless]
  split
  · rfl
  · cases hs : b.registry.subscribe (b.named req)
      (b.oracle.isPrivileged (b.named req).owner.token) with
    | error e => cases e <;> rfl
    | ok x =>
      have ha : x.1.subscriber.Unpinned := by
        rw [(Registry.subscribe_adds hs).1]
        exact hr
      exact congrArg (Prod.mk _) (welcome_nameless (b := { b with registry := x.2 }) hb ha)

theorem matching_nameless (hb : b.registry.Unpinned) {p : Publication} (hp : p.Unpinned) :
    b.nameless.matching p.nameless = (b.matching p).nameless := by
  have hfound := hb.matching b.oracle (p := { p with publisher := b.resolveBundle p.publisher }) hp
  rw [matching, matching, ← hfound, Publication.nameless, Publication.nameless,
    resolveBundle_nameless]
  rfl

theorem dispatch_nameless (p : Publication) (matched : List Subscriber)
    (finalReceiver : Option Receiver) :
    b.nameless.dispatch p.nameless (matched.map Subscriber.nameless) finalReceiver =
      ((b.dispatch p matched finalReceiver).1,
        (b.dispatch p matched finalReceiver).2.nameless) := by
  have hids : (matched.map Subscriber.nameless).map (·.id) = matched.map (·.id) :=
    List.map_map
  have hsubmit := b.submit_nameless .fresh
    (.broadcast ⟨p.serial, p.event⟩ ⟨false, p.options.sticky⟩ (matched.map (·.id)))
  simp only [Job.nameless] at hsubmit
  simp only [dispatch, takesCommands_nameless, hids, List.isEmpty_map, List.length_map,
    Publication.event_nameless, Publication.serial_nameless, Publication.options_nameless, hsubmit]
  split
  · split
    · rfl
    · split <;> rfl
  · split
    · rfl
    · cases b.submit .fresh (.broadcast ⟨p.serial, p.event⟩ ⟨false, p.options.sticky⟩
        (matched.map (·.id))) with
      | mk e c => cases e <;> rfl

theorem announce_nameless (p : Publication) (matched : Nat) (chain : Option ChainId) :
    b.nameless.announce p.nameless matched chain = (b.announce p matched chain).nameless := by
  simp only [announce, Publication.options_nameless, sticky_nameless,
    ← StickyStore.nameless_put]
  cases p.options.sticky <;> rfl

theorem post_prepared (b : Broker) (p : Publication) (finalReceiver : Option Receiver) :
    b.post p finalReceiver =
      if b.cancelled then (.error .closed, b)
      else
        match b.refusal (b.prepared p) with
        | some e => (.error e, b.publicationRefused (b.prepared p) e)
        | none =>
          let found := b.registry.matching b.oracle (b.prepared p)
          match (b.deny (b.prepared p) found.denied).dispatch (b.prepared p) found.matched
            finalReceiver with
          | (.error e, c) => (.error e, c)
          | (.ok chain, c) => (.ok ⟨found.matched.length, found.denied, chain⟩,
            c.announce (b.prepared p) found.matched.length chain) := rfl

theorem post_nameless (hb : b.registry.Unpinned) {p : Publication} (hp : p.Unpinned)
    (finalReceiver : Option Receiver) :
    b.nameless.post p.nameless finalReceiver =
      ((b.post p finalReceiver).1, (b.post p finalReceiver).2.nameless) := by
  have hprepared : b.nameless.prepared p.nameless = (b.prepared p).nameless := by
    rw [prepared, prepared, Publication.nameless, resolveBundle_nameless]
    rfl
  have hfound := hb.matching b.oracle (p := b.prepared p) hp
  simp only [post_prepared, hprepared, refusal_nameless, cancelled_nameless, registry_nameless,
    oracle_nameless, hfound]
  split
  · rfl
  · cases b.refusal (b.prepared p) with
    | some e => rfl
    | none =>
      generalize b.registry.matching b.oracle (b.prepared p) = found
      have hdeny : b.nameless.deny (b.prepared p).nameless found.denied =
          (b.deny (b.prepared p) found.denied).nameless := by
        rw [deny, deny]
        split <;> rfl
      simp only [MatchResult.nameless, hdeny, dispatch_nameless, List.length_map]
      cases (b.deny (b.prepared p) found.denied).dispatch (b.prepared p) found.matched
        finalReceiver with
      | mk result c =>
        cases result with
        | error e => rfl
        | ok chain => exact congrArg (Prod.mk _) (announce_nameless _ _ _)

variable (b)

theorem updateFreeze_nameless (sel : Selector) (frozen : Bool) :
    b.nameless.updateFreeze sel frozen =
      ((b.updateFreeze sel frozen).1, (b.updateFreeze sel frozen).2.nameless) := by
  simp only [updateFreeze, registry_nameless, now_nameless, Registry.updateFreeze_nameless]
  rfl

theorem flushFrozen_nameless (sel : Selector) :
    b.nameless.flushFrozen sel = ((b.flushFrozen sel).1, (b.flushFrozen sel).2.nameless) := by
  have hsubmit : ({ b.nameless with vault := (b.vault.flush sel).2.nameless } : Broker).submit
      .replay (.replay ((b.vault.flush sel).1.map Held.nameless)) = _ :=
    submit_nameless { b with vault := (b.vault.flush sel).2 } .replay
      (.replay (b.vault.flush sel).1)
  have hlive (c : Broker) : c.nameless.registry.contains = c.registry.contains :=
    funext c.registry.contains_nameless
  rw [flushFrozen, flushFrozen, vault_nameless, Vault.flush_nameless]
  dsimp only
  rw [List.isEmpty_map, List.length_map, hsubmit]
  split
  · rfl
  · cases ({ b with vault := (b.vault.flush sel).2 } : Broker).submit .replay
      (.replay (b.vault.flush sel).1) with
    | mk e c =>
      cases e with
      | none => rfl
      | some e =>
        dsimp only
        rw [hlive, vault_nameless, Vault.restore_nameless]
        rfl

end Requests

section Calls

theorem setCall_nameless (call : Nat) (w : Waiting) :
    b.nameless.setCall call w.nameless = (b.setCall call w).nameless := by
  rw [setCall, setCall, calls_nameless]
  change _ = { b.nameless with calls := (b.calls.insert call { waiting := w }).map Call.nameless }
  rw [Table.map_insert]
  rfl

theorem endCall_nameless (call : Nat) : b.nameless.endCall call = (b.endCall call).nameless := by
  rw [endCall, endCall, calls_nameless]
  change _ = { b.nameless with calls := (b.calls.erase call).map Call.nameless }
  rw [Table.map_erase]

theorem answer_nameless (caller : Nat) (x : Answer) :
    b.nameless.answer caller x = (b.answer caller x).nameless := by
  have hanswer (c : Option Call) : (c.map fun c => { c with answer := some x }).map Call.nameless =
      (c.map Call.nameless).map fun c => { c with answer := some x } := by
    cases c <;> rfl
  rw [answer, answer, calls_nameless, ← Table.map_alter _ _ _ hanswer]
  rfl

theorem ask_nameless (w : Waiting) (command : Nat → Command) (otherwise : Response) :
    b.nameless.ask w.nameless command otherwise =
      ((b.ask w command otherwise).1, (b.ask w command otherwise).2.nameless) := by
  rw [ask, ask, takesCommands_nameless, callsBegun_nameless]
  split
  · have hset := setCall_nameless { b with callsBegun := b.callsBegun + 1 } (b.callsBegun + 1) w
    exact congrArg (fun c : Broker => (Progress.waiting _, c.send _)) hset
  · rfl

theorem retire_nameless (call : Nat) (cause : Departure) (total : Nat)
    (leaving : List Subscriber) :
    retire call cause total (leaving.map Subscriber.nameless) b.nameless =
      ((retire call cause total leaving b).1, (retire call cause total leaving b).2.nameless) := by
  induction leaving generalizing b with
  | nil =>
    have hdeparted : b.nameless.allDeparted cause total =
        ((b.allDeparted cause total).1, (b.allDeparted cause total).2.nameless) := by
      cases cause with
      | unsubscribed => rfl
      | ownerDied pid =>
        rw [allDeparted, allDeparted]
        split <;> rfl
    rw [List.map_nil, retire, retire, hdeparted]
    exact congrArg (Prod.mk _) (endCall_nameless _ call)
  | cons s rest ih =>
    have hpurged : ({ b.nameless with vault := (b.vault.purge s.id).2.nameless } : Broker) =
        nameless { b with vault := (b.vault.purge s.id).2 } := rfl
    rw [List.map_cons, retire, retire, vault_nameless, Subscriber.id_nameless,
      Vault.purge_nameless]
    dsimp only
    rw [hpurged, takesCommands_nameless]
    split
    · have hset := setCall_nameless { b with vault := (b.vault.purge s.id).2 } call
        (.retire ⟨cause, total, s, (b.vault.purge s.id).1, rest⟩)
      exact congrArg (fun c : Broker => (Progress.waiting call, c.send _)) hset
    · exact ih (departed { b with vault := (b.vault.purge s.id).2 } s _ _ _)

theorem beginRetiring_nameless (cause : Departure) (leaving : List Subscriber) :
    b.nameless.beginRetiring cause (leaving.map Subscriber.nameless) =
      ((b.beginRetiring cause leaving).1, (b.beginRetiring cause leaving).2.nameless) := by
  rw [beginRetiring, beginRetiring, List.length_map]
  exact retire_nameless { b with callsBegun := b.callsBegun + 1 } _ _ _ _

theorem unsubscribe_nameless (id : SubscriberId) :
    b.nameless.unsubscribe id = ((b.unsubscribe id).1, (b.unsubscribe id).2.nameless) := by
  rw [unsubscribe, unsubscribe, registry_nameless, Registry.unsubscribe_nameless]
  cases b.registry.unsubscribe id with
  | none => rfl
  | some x => exact beginRetiring_nameless { b with registry := x.2 } _ [x.1]

theorem ownerDied_nameless (pid : Pid) :
    b.nameless.ownerDied pid = ((b.ownerDied pid).1, (b.ownerDied pid).2.nameless) := by
  rw [ownerDied, ownerDied, registry_nameless, Registry.removeOwner_nameless]
  exact beginRetiring_nameless { b with registry := (b.registry.removeOwner pid).2 } _ _

theorem all_hasStopped_nameless (ws : List Worker) :
    ws.all b.nameless.hasStopped = ws.all b.hasStopped :=
  congrArg ws.all (funext b.hasStopped_nameless)

theorem shutdown_nameless : b.nameless.shutdown = (b.shutdown.1, b.shutdown.2.nameless) := by
  have hcancelled :
      ({ b.nameless with cancelled := true, joined := true } : Broker).note .cancelled =
        (({ b with cancelled := true, joined := true } : Broker).note .cancelled).nameless :=
    rfl
  have hworkers : b.nameless.workers = b.workers := rfl
  rw [shutdown, shutdown, joined_nameless, hworkers]
  dsimp only
  rw [hcancelled]
  generalize (if b.joined then [] else b.workers) = ws
  generalize ({ b with cancelled := true, joined := true } : Broker).note .cancelled = c
  rw [all_hasStopped_nameless]
  split
  · rfl
  · exact congrArg (Prod.mk _)
      (setCall_nameless { c with callsBegun := c.callsBegun + 1 } _ (.shutdown ws))

theorem resume_nameless (call : Nat) :
    b.nameless.resume call = (b.resume call).map fun x => (x.1, x.2.nameless) := by
  have ended (r : Response) : some (Progress.done r, b.nameless.endCall call) =
      (some (Progress.done r, b.endCall call)).map fun x => (x.1, x.2.nameless) :=
    congrArg (fun c => some (_, c)) (b.endCall_nameless call)
  rw [resume, resume, calls_nameless, Table.get?_map]
  cases b.calls.get? call with
  | none => rfl
  | some c =>
    obtain ⟨waiting, answer⟩ := c
    have retired (r : Retirement) (released : Bool) := retire_nameless
      (b.departed r.current r.dropped released r.cause.reason) call r.cause r.total r.rest
    cases waiting with
    | finish | active =>
      cases answer with
      | none => rfl
      | some a => cases a <;> exact ended _
    | retire r =>
      cases answer with
      | none => rfl
      | some a => cases a <;> exact congrArg some (retired r _)
    | shutdown ws =>
      dsimp only [Option.map_some, Call.nameless, Waiting.nameless]
      rw [all_hasStopped_nameless]
      split
      · exact congrArg (fun c => some (_, c)) ((b.log .stopped).endCall_nameless call)
      · rfl

end Calls

section Deliveries

def Readiness.nameless : Readiness → Readiness
  | ready s => ready s.nameless
  | r => r

theorem approach_nameless (id : SubscriberId) (copy : Copy) (chain : Option ChainId) :
    b.nameless.approach id copy chain =
      ((b.approach id copy chain).1.nameless, (b.approach id copy chain).2.nameless) := by
  rw [approach, approach, registry_nameless, Registry.entry?_nameless]
  cases b.registry.entry? id with
  | none => rfl
  | some e =>
    dsimp only [Option.map_some]
    rw [Entry.frozenAt_nameless, Entry.subscriber_nameless, vault_nameless,
      ← Vault.nameless_capture]
    split <;> rfl

theorem attempt_nameless (lane : Lane) (d : Delivery) (rest : List Delivery) :
    b.nameless.attempt lane d rest = (b.attempt lane d rest).nameless := by
  rw [attempt, attempt, approach_nameless]
  cases b.approach d.target d.copy none with
  | mk ready c =>
    cases ready with
    | ready s => cases lane <;> rfl
    | _ => exact setCourier_nameless c lane (.carrying rest)

theorem stopCourier_nameless (lane : Lane) :
    b.nameless.stopCourier lane = (b.stopCourier lane).nameless := by
  rw [stopCourier, stopCourier, queue_nameless]
  cases lane <;> rfl

theorem takeJob_nameless (lane : Lane) (job : Job) (rest : List Job) :
    b.nameless.takeJob lane job.nameless (rest.map Job.nameless) =
      (b.takeJob lane job rest).nameless := by
  have hdeliveries : job.nameless.deliveries = job.deliveries := by
    cases job with
    | broadcast copy flags targets => rfl
    | replay held => exact List.map_map
  have htaken : b.nameless.setQueue lane { (b.queue lane).nameless with
      jobs := rest.map Job.nameless
      courier := .carrying job.deliveries } = (b.setQueue lane { b.queue lane with
        jobs := rest
        courier := .carrying job.deliveries }).nameless :=
    setQueue_nameless b lane
      { b.queue lane with jobs := rest, courier := .carrying job.deliveries }
  simp only [takeJob, queue_nameless, hdeliveries, htaken]
  cases job with
  | broadcast copy flags targets => rfl
  | replay held =>
    exact congrArg (fun n => Broker.log _ (.replaying lane.name n)) (List.length_map _)

theorem courierStep_nameless (lane : Lane) :
    b.nameless.courierStep lane = (b.courierStep lane).map nameless := by
  rw [courierStep, courierStep, queue_nameless]
  dsimp only [DeliveryQueue.nameless]
  cases (b.queue lane).courier with
  | stopped => rfl
  | handing n left => rfl
  | carrying left =>
    cases left with
    | nil => exact congrArg some (b.setCourier_nameless lane .waiting)
    | cons d rest => exact congrArg some (b.attempt_nameless lane d rest)
  | waiting =>
    dsimp only [CourierStage.nameless]
    rw [cancelled_nameless]
    split
    · exact congrArg some (b.stopCourier_nameless lane)
    · cases (b.queue lane).jobs with
      | nil => rfl
      | cons job rest => exact congrArg some (b.takeJob_nameless lane job rest)

theorem courierConclude_nameless (lane : Lane) (result : Except DeliveryError Unit) :
    b.nameless.courierConclude lane result = (b.courierConclude lane result).nameless := by
  rw [courierConclude, courierConclude, queue_nameless]
  dsimp only [DeliveryQueue.nameless]
  cases (b.queue lane).courier with
  | handing n rest =>
    dsimp only [CourierStage.nameless]
    rw [notified_nameless]
    generalize b.note (.notified (.courier lane) n result) = c
    obtain ⟨receiver, subscriber, copy, flags, chain, startedAt⟩ := n
    dsimp only [Notice.nameless]
    cases result with
    | ok u => exact setCourier_nameless c lane (.carrying rest)
    | error e =>
      cases subscriber with
      | none => exact setCourier_nameless c lane (.carrying rest)
      | some s => exact setCourier_nameless (c.deliveryFailed s copy none e) lane (.carrying rest)
  | _ => rfl

end Deliveries

section Sequencing

theorem forget_nameless (q : Command) : b.nameless.forget q = (b.forget q).nameless := by
  cases q with
  | enqueue c => rfl
  | _ => exact b.answer_nameless _ _

theorem closeSequencer_nameless : b.nameless.closeSequencer = b.closeSequencer.nameless := by
  have hforgotten (qs : List Command) (b : Broker) :
      qs.foldl forget b.nameless = (qs.foldl forget b).nameless :=
    List.foldl_hom nameless forget_nameless
  exact hforgotten b.sequencer.commands
    { b with sequencer := { b.sequencer with commands := [], stage := .stopped } }

theorem stopSequencer_nameless : b.nameless.stopSequencer = b.stopSequencer.nameless :=
  congrArg (fun c : Broker => (c.log _).note _) b.closeSequencer_nameless

theorem breakDown_nameless : b.nameless.breakDown = b.breakDown.nameless :=
  congrArg (fun c : Broker => c.note _) b.closeSequencer_nameless

theorem handle_nameless (q : Command) : b.nameless.handle q = (b.handle q).nameless := by
  cases q with
  | enqueue c => rfl
  | finish receiver code data abort caller =>
    rw [handle, handle, sequencer_nameless, Sequencer.active_nameless]
    cases b.sequencer.active with
    | none => exact b.answer_nameless _ _
    | some c =>
      dsimp only
      split
      · rw [setActive_nameless, answer_nameless]
        rfl
      · exact b.answer_nameless _ _
  | release receiver caller =>
    rw [handle, handle, sequencer_nameless, Sequencer.active_nameless]
    cases b.sequencer.active with
    | none => exact b.answer_nameless _ _
    | some c =>
      dsimp only
      split
      · rw [setActive_nameless, answer_nameless]
        rfl
      · exact b.answer_nameless _ _
  | active receiver caller => exact b.answer_nameless _ _

theorem sweep_nameless : b.nameless.sweep = b.sweep.map nameless := by
  rw [sweep, sweep, sequencer_nameless, Sequencer.active_nameless, now_nameless]
  cases b.sequencer.active with
  | none => rfl
  | some c =>
    dsimp only
    split
    · rfl
    · split
      · split <;> rfl
      · rfl

theorem finalize_nameless (c : Chain) (reason : FinishReason) :
    b.nameless.finalize c reason = (b.finalize c reason).nameless := by
  rw [finalize, finalize]
  cases c.finalReceiver <;> rfl

theorem deliverTo_nameless (c : Chain) (index : Nat) (receiver : SubscriberId) :
    b.nameless.deliverTo c index receiver = (b.deliverTo c index receiver).nameless := by
  rw [deliverTo, deliverTo, approach_nameless]
  cases b.approach receiver c.copy (some c.id) with
  | mk ready b' => cases ready <;> rfl

theorem pumpStep_nameless : b.nameless.pumpStep = b.pumpStep.nameless := by
  rw [pumpStep, pumpStep, sequencer_nameless, Sequencer.active_nameless,
    Sequencer.pending_nameless, now_nameless]
  split
  · split <;> rfl
  · split
    · split
      · exact b.breakDown_nameless
      · rfl
    · split
      · exact b.finalize_nameless _ _
      · exact b.deliverTo_nameless _ _ _
      · exact b.breakDown_nameless

theorem sequencerStep_nameless : b.nameless.sequencerStep = b.sequencerStep.map nameless := by
  rw [sequencerStep, sequencerStep, sequencer_nameless, Sequencer.stage_nameless,
    Sequencer.commands_nameless]
  cases hs : b.sequencer.stage with
  | pumping => exact congrArg some b.pumpStep_nameless
  | listening =>
    dsimp only [SequencerStage.nameless]
    rw [cancelled_nameless]
    split
    · exact congrArg some b.stopSequencer_nameless
    · cases b.sequencer.commands with
      | nil => exact b.sweep_nameless
      | cons q rest =>
        exact congrArg some (handle_nameless
          { b with sequencer := { b.sequencer with commands := rest } } q)
  | _ => rfl

theorem sequencerConclude_nameless (result : Except DeliveryError Unit) :
    b.nameless.sequencerConclude result = (b.sequencerConclude result).nameless := by
  rw [sequencerConclude, sequencerConclude, sequencer_nameless, Sequencer.stage_nameless]
  cases b.sequencer.stage with
  | handing n i =>
    dsimp only [SequencerStage.nameless]
    rw [notified_nameless]
    generalize b.note (.notified .sequencer n result) = c
    obtain ⟨receiver, subscriber, copy, flags, chain, startedAt⟩ := n
    dsimp only [Notice.nameless]
    rw [sequencer_nameless, Sequencer.active_nameless]
    cases c.sequencer.active with
    | none => rfl
    | some x =>
      cases subscriber with
      | none => rfl
      | some s =>
        cases result with
        | error e => rfl
        | ok =>
          dsimp only [Option.map_some]
          split <;> rfl
  | closing n x reason =>
    dsimp only [SequencerStage.nameless]
    rw [notified_nameless]
    generalize b.note (.notified .sequencer n result) = c
    cases result <;> rfl
  | _ => rfl

end Sequencing

section Observing

theorem offer_nameless (r : Record) : b.nameless.offer r = (b.offer r).nameless := by
  have happly (b : Broker) (e : Emission) :
      b.nameless.applyEmission e = (b.applyEmission e).nameless := by
    cases e with
    | queued i => rfl
    | lost report => cases report <;> rfl
  have hall (es : List Emission) (b : Broker) :
      es.foldl applyEmission b.nameless = (es.foldl applyEmission b).nameless :=
    List.foldl_hom nameless happly
  exact hall _ { b with observers := (b.observers.emit r).2 }

theorem listenerStep_nameless : b.nameless.listenerStep = b.listenerStep.map nameless := by
  have hqueued (is : List Nat) (b : Broker) :
      is.foldl (fun b i => b.note (.queued (.observer i))) b.nameless =
        (is.foldl (fun b i => b.note (.queued (.observer i))) b).nameless :=
    List.foldl_hom nameless fun _ _ => rfl
  have hdrained (l : Listener) := hqueued (List.range b.observers.members.length)
    ({ b with observers := b.observers.close }.setListener { l with stage := .draining })
  have hoffered (bus : Bus Record) (r : Record) := offer_nameless { b with bus } r
  rw [listenerStep, listenerStep, listener_nameless]
  split
  · rfl
  · rename_i l hl
    dsimp only
    rw [observers_nameless, cancelled_nameless, bus_nameless]
    split
    · rfl
    · split <;> rfl
    · split
      · exact congrArg some (hdrained l)
      · split
        · rfl
        · rename_i bus hbus
          exact congrArg some (hoffered bus _)
        · rename_i r bus hbus
          exact congrArg some (hoffered bus r)

theorem observerStep_nameless (i : Nat) :
    b.nameless.observerStep i = (b.observerStep i).map nameless := by
  rw [observerStep, observerStep, observers_nameless]
  split
  · rfl
  · rfl
  · dsimp only
    split <;> rfl

theorem observerConclude_nameless (i : Nat) (panic : Option Panic) :
    b.nameless.observerConclude i panic = (b.observerConclude i panic).nameless := by
  rw [observerConclude, observerConclude, observers_nameless]
  split <;> rfl

end Observing

section Unpinning

structure Unpinned : Prop where
  registry : b.registry.Unpinned
  sticky : b.sticky.Unpinned

variable {b} {a : Action}

theorem Unpinned.start (config : Config) (oracle : Oracle) (bundleOf : Uid → Option String)
    (observers : List Observer) : (start config oracle bundleOf observers).Unpinned where
  registry _ _ h := by cases h
  sticky _ _ h := by cases h

theorem unpinned_of_admits {x : Admission} (ha : a.Unpinned) (h : b.admits a = some x) :
    x.publication.Unpinned := by
  have posted {p : Publication} {finalReceiver : Option Receiver} (hp : p.Unpinned)
      (h : b.posts p finalReceiver = some x) : x.publication.Unpinned := by
    rw [posts] at h
    split at h
    · cases h
      exact hp
    · cases h
  cases a with
  | publish p => exact posted ha h
  | publishWithResult p receiver =>
    exact posted (p := { p with options := { p.options with ordered := true } }) ha h
  | _ => cases h

theorem unpinned_of_enrollment {req : Subscription} {isSystem : Bool} (ha : a.Unpinned)
    (h : b.enrollment a = some (.subscribe req isSystem)) : req.Unpinned := by
  cases a with
  | subscribe req' =>
    rw [enrollment] at h
    split at h
    · cases h
    · cases h
      exact ha
  | _ => cases h

theorem Unpinned.act (h : b.Unpinned) (ha : a.Unpinned) (hr : b.registry.Sound) :
    (b.act a).Unpinned where
  registry := by
    rw [registry_enrollment]
    cases hq : b.enrollment a with
    | none => exact h.registry
    | some q =>
      refine h.registry.apply q ?_
      rintro req isSystem rfl
      exact unpinned_of_enrollment ha hq
  sticky := by
    intro name p hp
    rw [show (b.act a).sticky.get? name = _ from (b.act_effect a hr).sticky_get? name] at hp
    obtain hp | ⟨-, hp⟩ := Option.or_eq_some_iff.1 hp
    · obtain ⟨x, hx, rfl, -⟩ := lastSticky_eq_some hp
      exact unpinned_of_admits ha (Option.mem_toList.1 hx)
    · exact h.sticky name p hp

end Unpinning

inductive Returned
  | subscribed (result : Except BrokerError SubscriberId)
  | published (result : Except BrokerError PublishReceipt)
  | updated (subscriptions : Nat)
  | flushed (result : Except BrokerError Nat)
  | progress (p : Progress)

def returns (b : Broker) : Action → Option Returned
  | .subscribe req => some (.subscribed (b.subscribe req).1)
  | .publish p => some (.published (b.publish p).1)
  | .publishWithResult p receiver => some (.published (b.publishWithResult p receiver).1)
  | .updateFreeze sel frozen => some (.updated (b.updateFreeze sel frozen).1)
  | .flushFrozen sel => some (.flushed (b.flushFrozen sel).1)
  | .unsubscribe id => some (.progress (b.unsubscribe id).1)
  | .ownerDied pid => some (.progress (b.ownerDied pid).1)
  | .finish r code data abort => some (.progress (b.finishReceiver r code data abort).1)
  | .active r => some (.progress (b.activeReceiverOf r).1)
  | .shutdown => some (.progress b.shutdown.1)
  | .resume call => (b.resume call).map fun x => .progress x.1
  | _ => none

def returned (b : Broker) : List Action → List (Option Returned)
  | [] => []
  | a :: rest => b.returns a :: (b.act a).returned rest

section Running

variable {b : Broker} {a : Action}

theorem acts_nameless (h : b.Unpinned) (ha : a.Unpinned) :
    (b.nameless.returns a.nameless, b.nameless.act a.nameless) =
      (b.returns a, (b.act a).nameless) := by
  let published (x : Except BrokerError PublishReceipt × Broker) :=
    (some (Returned.published x.1), x.2)
  let progress (x : Progress × Broker) := (some (Returned.progress x.1), x.2)
  have unheard {c c' : Broker} (hc : c' = c.nameless) :
      ((none : Option Returned), c') = (none, c.nameless) := congrArg (Prod.mk none) hc
  cases a with
  | subscribe req =>
    exact congrArg (fun x => (some (Returned.subscribed x.1), x.2))
      (subscribe_nameless h.sticky ha)
  | publish p => exact congrArg published (post_nameless h.registry ha none)
  | publishWithResult p receiver =>
    exact congrArg published (post_nameless h.registry
      (p := { p with options := { p.options with ordered := true } }) ha (some receiver))
  | updateFreeze sel frozen =>
    exact congrArg (fun x => (some (Returned.updated x.1), x.2))
      (b.updateFreeze_nameless sel frozen)
  | flushFrozen sel =>
    exact congrArg (fun x => (some (Returned.flushed x.1), x.2)) (b.flushFrozen_nameless sel)
  | unsubscribe id => exact congrArg progress (b.unsubscribe_nameless id)
  | ownerDied pid => exact congrArg progress (b.ownerDied_nameless pid)
  | finish r code data abort => exact congrArg progress (b.ask_nameless .finish _ _)
  | active r => exact congrArg progress (b.ask_nameless .active _ _)
  | shutdown => exact congrArg progress b.shutdown_nameless
  | resume call =>
    refine (congrArg (fun x => (x.map fun x => Returned.progress x.1,
      (x.map (·.2)).getD b.nameless)) (b.resume_nameless call)).trans ?_
    cases hr : b.resume call <;> simp only [returns, act, hr] <;> rfl
  | work w =>
    have stepped {c c' : Option Broker} (hc : c' = c.map nameless) :
        c'.getD b.nameless = (c.getD b).nameless := by
      rw [hc]
      cases c <;> rfl
    cases w with
    | listener => exact unheard (stepped b.listenerStep_nameless)
    | observer i => exact unheard (stepped (b.observerStep_nameless i))
    | courier lane => exact unheard (stepped (b.courierStep_nameless lane))
    | sequencer => exact unheard (stepped b.sequencerStep_nameless)
  | handedOff w reception =>
    cases w with
    | courier lane => exact unheard (b.courierConclude_nameless lane reception.result)
    | sequencer => exact unheard (b.sequencerConclude_nameless reception.result)
    | _ => rfl
  | observed i panic => exact unheard (b.observerConclude_nameless i panic)
  | tick now => rfl
  | setOracle o => rfl

theorem run_nameless (h : b.Unpinned) (hv : b.view.Sound) {actions : List Action}
    (ha : ∀ a ∈ actions, a.Unpinned) :
    b.nameless.run (actions.map Action.nameless) = (b.run actions).nameless ∧
      b.nameless.returned (actions.map Action.nameless) = b.returned actions ∧
        (b.run actions).Unpinned := by
  induction actions generalizing b with
  | nil => exact ⟨rfl, rfl, h⟩
  | cons a rest ih =>
    have hfirst := ha a List.mem_cons_self
    obtain ⟨hrun, hreturned, hunpinned⟩ := ih (h.act hfirst hv.registry)
      (hv.effect (b.act_effect a hv.registry)) fun x hx => ha x (List.mem_cons_of_mem a hx)
    have hact : b.nameless.act a.nameless = (b.act a).nameless :=
      congrArg Prod.snd (acts_nameless h hfirst)
    have hreturns : b.nameless.returns a.nameless = b.returns a :=
      congrArg Prod.fst (acts_nameless h hfirst)
    rw [← hact] at hrun hreturned
    refine ⟨hrun, ?_, hunpinned⟩
    rw [List.map_cons, returned, returned, hreturns, hreturned]

theorem history_nameless (b : Broker) :
    b.nameless.history = b.history.map fun o => (o.1, o.2.nameless) :=
  Journal.toList_map _ _

theorem records_nameless (b : Broker) : b.nameless.records = b.records := by
  rw [records, told, history_nameless, List.filterMap_map]
  refine List.filterMap_congr fun o _ => ?_
  obtain ⟨now, o⟩ := o
  cases o <;> rfl

end Running

end Broker

def BrokerError.inadmissible : BrokerError → Bool
  | emptyEventName | notPrivileged _ | permissionDenied _ => true
  | _ => false

namespace Broker

section Admitting

variable {b : Broker} {p : Publication} {finalReceiver : Option Receiver}

theorem refusal_of_bundleOf (b : Broker) (bundleOf : Uid → Option String) (p : Publication) :
    refusal { b with bundleOf } (prepared { b with bundleOf } p) = b.refusal (b.prepared p) := by
  have htoken (b : Broker) : (b.resolveBundle p.publisher).token = p.publisher.token := by
    rw [resolveBundle]
    split <;> rfl
  simp only [refusal, prepared, htoken]

theorem Dispatches.admissible {e : BrokerError} {b' : Broker} {matched : List Subscriber}
    (h : b.Dispatches p matched finalReceiver (.error e) b') : e.inadmissible = false := by
  cases h with
  | stopped ho hs => rfl
  | refused ho hs hm => cases hs <;> rfl

theorem post_inadmissible {e : BrokerError} (he : e.inadmissible = true) :
    (b.post p finalReceiver).1 = .error e ↔
      b.cancelled = false ∧ b.refusal (b.prepared p) = some e := by
  have hclosed : e ≠ .closed := fun h => by cases h ▸ he
  rw [post_prepared]
  cases hc : b.cancelled with
  | true => simp [hclosed.symm]
  | false =>
    rw [if_neg Bool.false_ne_true]
    cases hr : b.refusal (b.prepared p) with
    | some e' => simp
    | none =>
      dsimp only
      split
      · rename_i e' c hd
        have hne : e' ≠ e := by
          rintro rfl
          exact absurd (he.symm.trans (dispatches hd).admissible) Bool.noConfusion
        simp [hne]
      · simp

end Admitting

/-- The names of bundles decide nothing but what subscriptions pin and publications pick. Whether a
publication is admissible does not depend on any; and as long as nobody pins or picks, two brokers
that look them up elsewhere do the same at the same times, and all that differs are the names. -/
theorem bundles_decide_nothing :
    (∀ (b : Broker) (bundleOf : Uid → Option String) (p : Publication)
        (finalReceiver : Option Receiver),
      let b' := { b with bundleOf }
      b'.refusal (b'.prepared p) = b.refusal (b.prepared p) ∧
        ∀ e : BrokerError, e.inadmissible = true →
          ((b'.publishes p finalReceiver).1 = .error e ↔
            (b.publishes p finalReceiver).1 = .error e)) ∧
    ∀ (config : Config) (oracle : Oracle) (bundleOf bundleOf' : Uid → Option String)
        (observers : List Observer) (actions : List Action), (∀ a ∈ actions, a.Unpinned) →
      let b := start config oracle bundleOf observers
      let b' := start config oracle bundleOf' observers
      let c := b.run actions
      let c' := b'.run actions
      b'.returned actions = b.returned actions ∧
        c'.history.map (fun o => (o.1, o.2.nameless)) =
          c.history.map (fun o => (o.1, o.2.nameless)) ∧
        c'.records = c.records ∧ c'.bus = c.bus ∧ c'.observers = c.observers ∧
        c'.subscriberCount = c.subscriberCount ∧ c'.subscriptionsOf = c.subscriptionsOf ∧
        c'.frozenPending = c.frozenPending ∧
        ∀ p : Publication, p.Unpinned → (c'.matching p).nameless = (c.matching p).nameless := by
  refine ⟨fun b bundleOf p finalReceiver => ⟨b.refusal_of_bundleOf bundleOf p, fun e he => ?_⟩, ?_⟩
  · rw [publishes_eq, publishes_eq, post_inadmissible he, post_inadmissible he,
      refusal_of_bundleOf]
  · intro config oracle bundleOf bundleOf' observers actions ha b b' c c'
    obtain ⟨hrun, hreturned, hunpinned⟩ := run_nameless
      (Unpinned.start config oracle bundleOf observers)
      (view_start_sound config oracle bundleOf observers) ha
    obtain ⟨hrun', hreturned', hunpinned'⟩ := run_nameless
      (Unpinned.start config oracle bundleOf' observers)
      (view_start_sound config oracle bundleOf' observers) ha
    have hsame : c'.nameless = c.nameless := hrun'.symm.trans hrun
    -- Whatever does not see the names is the same of both.
    have hseen {α : Type} (f : Broker → α) (hf : ∀ b : Broker, f b.nameless = f b) : f c' = f c :=
      (hf c').symm.trans ((congrArg f hsame).trans (hf c))
    refine ⟨hreturned'.symm.trans hreturned, ?_, hseen records records_nameless,
      hseen Broker.bus fun _ => rfl, hseen Broker.observers fun _ => rfl,
      hseen subscriberCount fun b => b.registry.size_nameless,
      hseen subscriptionsOf fun b => funext b.registry.idsOf_nameless,
      hseen frozenPending fun b => funext b.vault.pendingFor_nameless, fun p hp => ?_⟩
    · rw [← history_nameless, ← history_nameless, hsame]
    · rw [← matching_nameless hunpinned'.registry hp, ← matching_nameless hunpinned.registry hp,
        hsame]

theorem bundles_decide_nothing_handover :
    let b := start {} .allowAll (fun _ => none) []
    let b' := start {} .allowAll (fun _ => some "home") []
    let p : Publication := { event := .named "", publisher := default, options := {} }
    (b.publishes p none).1 = .error .emptyEventName ∧ (∀ a ∈ handover, a.Unpinned) ∧
      ((b'.run handover).registry.entry? ⟨1⟩).map (·.subscriber.owner.bundle) = some "home" ∧
      ((b.run handover).registry.entry? ⟨1⟩).map (·.subscriber.owner.bundle) = some "" ∧
      b'.returned handover = b.returned handover ∧
      (b'.run handover).history.map (fun o => (o.1, o.2.nameless)) =
        (b.run handover).history.map (fun o => (o.1, o.2.nameless)) := by
  intro b b' p
  have hunpinned : ∀ a ∈ handover, a.Unpinned := by
    simp [handover, joining, ringing, Action.Unpinned, Subscription.Unpinned,
      Publication.Unpinned, PublishOptions.bundleFilter]
  have hrefused : (b.publishes p none).1 = .error .emptyEventName :=
    ((bundles_decide_nothing.1 b' (fun _ => none) p none).2 .emptyEventName rfl).2 rfl
  obtain ⟨hreturned, hhistory, -⟩ := bundles_decide_nothing.2 {} .allowAll (fun _ => none)
    (fun _ => some "home") [] handover hunpinned
  exact ⟨hrefused, hunpinned, by decide +kernel, by decide +kernel, hreturned, hhistory⟩

end Broker

end EventBroker
