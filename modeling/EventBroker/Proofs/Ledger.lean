import EventBroker.Proofs.Losses

namespace EventBroker

def Admission.parcels (a : Admission) : List Parcel :=
  a.matched.map fun s => (a.publication.serial, s.id)

namespace View

variable {v w : View}

/-- The parcels that a step adds, with what they owe their numbers to: an admitted publication has
one for each subscription it matched, a new subscription one for some of what is remembered. -/
inductive Gains (v : View) : Option Admission → List Parcel → View → Prop
  | nothing {w : View} (hp : w.publications = v.publications)
      (hi : w.registry.issued = v.registry.issued) (hs : w.sticky = v.sticky) : Gains v none [] w
  | publish {a : Admission} {w : View} (hn : a.publication.serial = v.publications + 1)
      (hm : a.matched = (v.registry.matching v.oracle a.publication).matched)
      (hp : w.publications = v.publications + 1) (hi : w.registry.issued = v.registry.issued)
      (hs : w.sticky =
        if a.publication.options.sticky then v.sticky.put a.publication else v.sticky) :
      Gains v (some a) a.parcels w
  | subscribe {names : List String} {ps : List Publication} {w : View} (hn : names.Nodup)
      (hps : ps.Sublist (names.filterMap v.sticky.get?)) (hp : w.publications = v.publications)
      (hi : w.registry.issued = v.registry.issued + 1) (hs : w.sticky = v.sticky) :
      Gains v none (ps.map fun p => (p.serial, ⟨v.registry.issued + 1⟩)) w

structure Turnover (v : View) (a : Option Admission) (lost : List Loss) (w : View) : Prop where
  intro ::
  balance : ∃ new, v.Gains a new w ∧ v.Settles new lost w

theorem Turnover.same (v : View) : v.Turnover none [] v :=
  ⟨[], .nothing rfl rfl rfl, .refl v⟩

theorem Carries.turnover {lane : Lane} (h : v.Carries lane w) (hr : v.registry.Sound) :
    v.Turnover none (v.courierLosses lane w) w := by
  refine ⟨[], .nothing ?_ ?_ ?_, h.settles hr⟩
  · rw [h.frame]
  · rw [h.frame]
  · rw [h.frame]

theorem Moves.turnover {es : List ChainEvent} (h : v.Moves es w) (hv : v.Sound) :
    v.Turnover none (v.sequencerLosses w) w := by
  refine ⟨[], .nothing ?_ ?_ ?_, h.settles hv⟩
  · rw [h.frame]
  · rw [h.frame]
  · rw [h.frame]

theorem count_send {cs : List Command} (hs : v.sequencer.stage = .stopped → Command.chains cs = [])
    (x : Parcel) :
    (v.send cs).parcels.count x =
      v.parcels.count x + ((Command.chains cs).flatMap Chain.parcels).count x := by
  have h := v.count_setSequencer
    { v.sequencer with commands := v.sequencer.commands ++ cs } x
  rw [Sequencer.parcels_send hs, List.count_append] at h
  rw [send]
  omega

theorem Queues.settles {p : Publication} {matched : List Subscriber}
    {finalReceiver : Option Receiver} {chain : Option ChainId}
    (h : v.Queues p matched finalReceiver chain w) :
    v.Settles (matched.map fun s => (p.serial, s.id)) [] w := by
  intro x
  change _ + 0 = _
  cases h with
  | nothing hm hf =>
    rw [hm]
    rfl
  | chain ho hm hs =>
    rw [count_send (v := { v with chains := v.chains + 1 }) fun h => absurd h hs]
    change v.parcels.count x + ([Chain.ofReceivers _ _ _ _ _ _ _].flatMap Chain.parcels).count x = _
    rw [List.flatMap_singleton, Chain.parcels]
    change _ + ((matched.map Subscriber.id).map _).count x = _
    rw [List.map_map]
    rfl
  | job ho hm =>
    refine (v.count_addJobs .fresh [.broadcast ⟨p.serial, p.event⟩ ⟨false, p.options.sticky⟩
      (matched.map Subscriber.id)] x).trans ?_
    rw [List.flatMap_singleton, Job.parcels_broadcast, List.map_map]
    rfl

theorem turnover_publish {a : Admission} (hn : a.publication.serial = v.publications + 1)
    (hm : a.matched = (v.registry.matching v.oracle a.publication).matched)
    (hq : v.Queues a.publication a.matched a.finalReceiver a.chain w) :
    v.Turnover (some a) [] (w.announce a.publication) := by
  refine ⟨a.parcels, .publish hn hm hn ?_ ?_, hq.settles⟩
  · have hw : w.registry = v.registry := by rw [hq.frame]
    exact congrArg Registry.issued hw
  · have hw : w.sticky = v.sticky := by rw [hq.frame]
    rw [announce, hw]

theorem turnover_subscribe {s : Subscriber} {ps : List Publication}
    (hs : s.id = ⟨v.registry.issued + 1⟩)
    (hps : ps.Sublist (s.interest.events.toList.filterMap v.sticky.get?)) :
    v.Turnover none [] { v with
      registry := v.registry.add s
      fresh := { v.fresh with jobs := v.fresh.jobs ++ ps.map (Broker.stickyJob s.id) } } := by
  refine ⟨_, .subscribe s.interest.events.keys_nodup hps rfl rfl rfl, ?_⟩
  intro x
  have hjobs : (ps.map (Broker.stickyJob s.id)).flatMap Job.parcels =
      ps.map fun p => (p.serial, ⟨v.registry.issued + 1⟩) := by
    rw [hs, List.flatMap_map]
    exact List.flatMap_pure_eq_map _ ps
  rw [← hjobs]
  exact { v with registry := v.registry.add s }.count_addJobs .fresh
    (ps.map (Broker.stickyJob s.id)) x

theorem turnover_nothing (h : w.parcels = v.parcels) (hp : w.publications = v.publications)
    (hi : w.registry.issued = v.registry.issued) (hs : w.sticky = v.sticky) :
    v.Turnover none [] w :=
  ⟨[], .nothing hp hi hs, .of_eq h⟩

theorem turnover_flush (hv : v.vault.Sound) (sel : Selector) :
    v.Turnover none [] { v with
      vault := (v.vault.flush sel).2
      replay := { v.replay with jobs := v.replay.jobs ++ [.replay (v.vault.flush sel).1] } } := by
  refine ⟨[], .nothing rfl rfl rfl, ?_⟩
  intro x
  have hvault := v.count_setVault (v.vault.flush sel).2 x
  have hjobs := { v with vault := (v.vault.flush sel).2 }.count_addJobs .replay
    [.replay (v.vault.flush sel).1] x
  have hflush := (hv.parcels_flush sel).count_eq x
  rw [List.count_append] at hflush
  rw [List.flatMap_singleton] at hjobs
  change _ = v.parcels.count x
  refine hjobs.trans ?_
  omega

def flushLosses (v : View) (sel : Selector) : List Loss :=
  if v.replay.refuses then
    ((v.vault.flush sel).1.filter fun a => !v.registry.contains a.subscriber.id).map fun a =>
      ⟨.unrestored, (a.item.serial, a.subscriber.id)⟩
  else []

theorem turnover_restore (hv : v.vault.Sound) {sel : Selector} (hr : v.replay.refuses = true) :
    v.Turnover none (v.flushLosses sel) { v with
      vault := ((v.vault.flush sel).2.restore (v.vault.flush sel).1 v.registry.contains).2 } := by
  refine ⟨[], .nothing rfl rfl rfl, ?_⟩
  intro x
  have hvault := v.count_setVault
    ((v.vault.flush sel).2.restore (v.vault.flush sel).1 v.registry.contains).2 x
  have hrestore := (hv.parcels_restore sel v.registry.contains).count_eq x
  have hlost : Loss.parcels (v.flushLosses sel) =
      ((v.vault.flush sel).1.filter fun a => !v.registry.contains a.subscriber.id).map fun a =>
        (a.item.serial, a.subscriber.id) := by
    rw [flushLosses, if_pos hr, Loss.parcels, List.map_map]
    rfl
  rw [List.count_append, ← hlost] at hrestore
  rw [List.count_nil]
  omega

def clearLosses (v : View) (ids : List SubscriberId) : List Loss :=
  (v.vault.parcels.filter fun x => decide (x.2 ∈ ids)).map (⟨.purged, ·⟩)

theorem turnover_leave (gone ids : List SubscriberId) {cs : List Command}
    (hcs : ∀ c ∈ cs, c.chain? = none) :
    v.Turnover none (v.clearLosses ids) ({ v with
      registry := (Registry.unsubscribeAll gone v.registry).2
      vault := v.vault.clear ids }.send cs) := by
  refine ⟨[], .nothing rfl (Registry.issued_unsubscribeAll gone v.registry) rfl, ?_⟩
  intro x
  have hvault := v.count_setVault (v.vault.clear ids) x
  have hclear := (v.vault.parcels_clear ids).count_eq x
  have hc : Command.chains cs = [] := List.filterMap_eq_nil_iff.2 hcs
  rw [List.count_append] at hclear
  rw [count_send fun _ => hc, hc, clearLosses, Loss.parcels_map]
  change { v with vault := v.vault.clear ids }.parcels.count x + 0 + _ = _ + 0
  omega

theorem clearLosses_nil (v : View) : v.clearLosses [] = [] := by
  simp [clearLosses]

theorem courierLosses_handing {lane : Lane} {n : Notice} {left : List Delivery}
    (h : (v.queue lane).courier = .handing n left) : v.courierLosses lane w = [] := by
  rw [courierLosses, h]

theorem Turnover.nothing {lost : List Loss} (h : lost = []) : v.Turnover none lost v := by
  rw [h]
  exact .same v

end View

namespace Broker

variable (b : Broker)

def cleared : Action → List SubscriberId
  | .unsubscribe id => b.seenOff (b.leavers id).1
  | .ownerDied pid => b.seenOff (b.registry.removeOwner pid).1
  | .resume call => b.seenOff (b.stillLeaving call)
  | _ => []

/-- The parcels that an action loses, each with its cause: only a worker's turn, a flush and the
end of a subscription lose any. -/
def losing (a : Action) : List Loss :=
  match a with
  | .work (.courier lane) => b.view.courierLosses lane (b.act a).view
  | .work .sequencer => b.view.sequencerLosses (b.act a).view
  | .flushFrozen sel => b.view.flushLosses sel
  | _ => b.view.clearLosses (b.cleared a)

theorem subscribe_turnover (req : Subscription) :
    b.view.Turnover none [] (b.subscribe req).2.view := by
  cases h : b.subscribe req with
  | mk result b' =>
    cases result with
    | error e =>
      rw [subscribe_refused h]
      exact .same b.view
    | ok id =>
      obtain ⟨s, rfl, hid, ps, hps, hv⟩ := subscribe_admitted h
      rw [hv]
      exact View.turnover_subscribe hid hps

theorem post_turnover (p : Publication) (finalReceiver : Option Receiver) :
    b.view.Turnover (b.posts p finalReceiver) [] (b.post p finalReceiver).2.view := by
  rw [posts]
  cases h : b.post p finalReceiver with
  | mk result b' =>
    cases result with
    | error e =>
      rw [post_refused h]
      exact .same b.view
    | ok r =>
      obtain ⟨w, hq, hv⟩ := post_admitted h
      rw [hv]
      exact View.turnover_publish (v := b.view)
        (a := ⟨b.prepared p, (b.matching p).matched, finalReceiver, r.chain⟩) rfl rfl hq

theorem flushFrozen_turnover (hv : b.vault.Sound) (sel : Selector) :
    b.view.Turnover none (b.view.flushLosses sel) (b.flushFrozen sel).2.view := by
  by_cases h : (b.vault.flush sel).1 = []
  · rw [flushFrozen_nothing b h]
    apply View.Turnover.nothing
    have h : (b.view.vault.flush sel).1 = [] := h
    simp [View.flushLosses, h]
  · cases hr : b.replay.refuses with
    | false =>
      have hr : b.view.replay.refuses = false := hr
      rw [flushFrozen_taken b h hr, View.flushLosses, hr]
      exact View.turnover_flush hv sel
    | true =>
      rw [flushFrozen_refused b h hr]
      exact View.turnover_restore hv hr

theorem leave_turnover (b' : Broker) (gone cleared : List SubscriberId)
    (h : ∃ cs : List Command, (∀ c ∈ cs, c.chain? = none) ∧ b'.view = { b.view with
      registry := (Registry.unsubscribeAll gone b.registry).2
      vault := b.vault.clear cleared }.send cs) :
    b.view.Turnover none (b.view.clearLosses cleared) b'.view := by
  obtain ⟨cs, hcs, hv⟩ := h
  rw [hv]
  exact View.turnover_leave gone cleared hcs

theorem courierLosses_idle {lane : Lane} (h : b.courierStep lane = none) :
    b.view.courierLosses lane b.view = [] := by
  rw [View.courierLosses, view_queue]
  rw [courierStep] at h
  cases hc : (b.queue lane).courier with
  | carrying left =>
    cases left with
    | nil => rfl
    | cons d rest =>
      rw [hc] at h
      cases h
  | _ => rfl

theorem sequencerLosses_idle (h : b.sequencerStep = none) :
    b.view.sequencerLosses b.view = [] := by
  have hs : b.view.sequencer.stage = b.sequencer.stage := rfl
  rw [View.sequencerLosses, hs]
  rw [sequencerStep] at h
  cases hc : b.sequencer.stage with
  | pumping =>
    rw [hc] at h
    cases h
  | _ => rfl

theorem work_turnover (hs : b.view.Sound) (w : Worker) :
    b.view.Turnover none (b.losing (.work w)) (b.act (.work w)).view := by
  have quiet : ∀ b' : Broker, b'.view = b.view →
      b.view.Turnover none (b.view.clearLosses []) b'.view := by
    intro b' h
    rw [View.clearLosses_nil, h]
    exact .same b.view
  cases w with
  | listener =>
    change b.view.Turnover none (b.view.clearLosses []) (b.listenerStep.getD b).view
    cases h : b.listenerStep with
    | none => exact quiet b rfl
    | some b' => exact quiet b' (listenerStep_view h)
  | observer i =>
    change b.view.Turnover none (b.view.clearLosses []) ((b.observerStep i).getD b).view
    cases h : b.observerStep i with
    | none => exact quiet b rfl
    | some b' => exact quiet b' (observerStep_view h)
  | courier lane =>
    change b.view.Turnover none (b.view.courierLosses lane ((b.courierStep lane).getD b).view)
      ((b.courierStep lane).getD b).view
    cases h : b.courierStep lane with
    | none => exact .nothing (b.courierLosses_idle h)
    | some b' => exact (courierStep_carries h).turnover hs.registry
  | sequencer =>
    change b.view.Turnover none (b.view.sequencerLosses (b.sequencerStep.getD b).view)
      (b.sequencerStep.getD b).view
    cases h : b.sequencerStep with
    | none => exact .nothing (b.sequencerLosses_idle h)
    | some b' =>
      obtain ⟨evs, hm⟩ := sequencerStep_moves h
      exact hm.turnover hs

theorem conclude_turnover (hs : b.view.Sound) (w : Worker) (reception : Reception) :
    b.view.Turnover none [] (b.conclude w reception).view := by
  cases w with
  | listener => exact .same b.view
  | observer i => exact .same b.view
  | courier lane =>
    change b.view.Turnover none [] (b.courierConclude lane reception.result).view
    cases b.courierConclude_carries lane reception.result with
    | inl h =>
      rw [h]
      exact .same b.view
    | inr h =>
      obtain ⟨⟨n, left, hc⟩, h⟩ := h
      have ht := h.turnover hs.registry
      rw [View.courierLosses_handing hc] at ht
      exact ht
  | sequencer =>
    change b.view.Turnover none [] (b.sequencerConclude reception.result).view
    cases b.sequencerConclude_moves reception.result with
    | inl h =>
      rw [h]
      exact .same b.view
    | inr h =>
      obtain ⟨⟨hl, hp⟩, evs, hm⟩ := h
      have ht := hm.turnover hs
      rw [View.sequencerLosses_busy hl hp] at ht
      exact ht

theorem act_turnover (a : Action) (hs : b.view.Sound) (hv : b.vault.Sound) :
    b.view.Turnover (b.admits a) (b.losing a) (b.act a).view := by
  have quiet : ∀ {adm : Option Admission} {w : View}, b.view.Turnover adm [] w →
      b.view.Turnover adm (b.view.clearLosses []) w := by
    intro adm w h
    rw [View.clearLosses_nil]
    exact h
  cases a with
  | subscribe req => exact quiet (b.subscribe_turnover req)
  | publish p => exact quiet (b.post_turnover p none)
  | publishWithResult p receiver =>
    exact quiet (b.post_turnover { p with options := { p.options with ordered := true } }
      (some receiver))
  | updateFreeze sel frozen =>
    apply quiet
    change b.view.Turnover none [] (b.updateFreeze sel frozen).2.view
    rw [updateFreeze_view]
    exact View.turnover_nothing rfl rfl rfl rfl
  | flushFrozen sel => exact b.flushFrozen_turnover hv sel
  | unsubscribe id =>
    have h := b.unsubscribe_view id
    change b.view.Turnover none (b.view.clearLosses (b.seenOff (b.leavers id).1)) _
    rw [leavers_eq] at h ⊢
    exact b.leave_turnover _ _ _ h
  | ownerDied pid => exact b.leave_turnover _ _ _ (b.ownerDied_view pid)
  | finish receiver code data abort =>
    exact b.leave_turnover _ [] [] (b.ask_view _ _ _ fun _ => rfl)
  | active receiver => exact b.leave_turnover _ [] [] (b.ask_view _ _ _ fun _ => rfl)
  | shutdown =>
    apply quiet
    change b.view.Turnover none [] b.shutdown.2.view
    rw [shutdown_view]
    exact View.turnover_nothing rfl rfl rfl rfl
  | resume call => exact b.leave_turnover _ [] _ (b.resume_view call)
  | work w => exact b.work_turnover hs w
  | handedOff w reception => exact quiet (b.conclude_turnover hs w reception)
  | observed i panic =>
    apply quiet
    change b.view.Turnover none [] (b.observerConclude i panic).view
    rw [observerConclude_view]
    exact .same b.view
  | tick now => exact quiet (View.turnover_nothing rfl rfl rfl rfl)
  | setOracle o => exact quiet (View.turnover_nothing rfl rfl rfl rfl)

end Broker

end EventBroker
