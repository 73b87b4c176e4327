import EventBroker.Proofs.Effects.Stepping
import EventBroker.Proofs.View

namespace EventBroker

def DeliveryQueue.refuses (q : DeliveryQueue) : Bool :=
  match q.courier with
  | .stopped => true
  | _ => q.room ≤ q.jobs.length

theorem DeliveryQueue.refuses_eq {q : DeliveryQueue} (h : q.courier ≠ .stopped) :
    q.refuses = decide (q.room ≤ q.jobs.length) := by
  rw [refuses]
  split
  · contradiction
  · rfl

def View.setCourier (v : View) (lane : Lane) (s : CourierStage) : View :=
  v.setQueue lane { v.queue lane with courier := s }

namespace View

variable (v : View) (lane : Lane)

@[simp] theorem queue_setQueue (q : DeliveryQueue) : (v.setQueue lane q).queue lane = q := by
  cases lane <;> rfl

@[simp] theorem queue_setCourier (s : CourierStage) :
    (v.setCourier lane s).queue lane = { v.queue lane with courier := s } :=
  v.queue_setQueue lane _

@[simp] theorem queue_tell (s : Signal) : (v.tell s).queue lane = v.queue lane := by
  cases lane <;> rfl

end View

def Delivery.notice (d : Delivery) (s : Subscriber) (now : Instant) : Notice :=
  ⟨s.receiver, some s, d.copy, d.flags, none, now⟩

inductive View.Carries (v : View) (lane : Lane) : View → Prop
  | rest (h : (v.queue lane).courier = .carrying []) : Carries v lane (v.setCourier lane .waiting)
  | stop (h : (v.queue lane).courier = .waiting) (hc : v.cancelled = true) :
    Carries v lane (v.setQueue lane { v.queue lane with jobs := [], courier := .stopped })
  | take {job : Job} {rest : List Job} (h : (v.queue lane).courier = .waiting)
      (hj : (v.queue lane).jobs = job :: rest) : Carries v lane (v.setQueue lane
    { v.queue lane with jobs := rest, courier := .carrying job.deliveries })
  | pass {d : Delivery} {rest : List Delivery}
      (h : (v.queue lane).courier = .carrying (d :: rest))
      (hd : v.registry.entry? d.target = none) : Carries v lane (v.setCourier lane (.carrying rest))
  | hold {d : Delivery} {rest : List Delivery} {e : Entry}
      (h : (v.queue lane).courier = .carrying (d :: rest))
      (he : v.registry.entry? d.target = some e) (hf : e.frozenAt ≠ none) :
    Carries v lane ({ v with vault := v.vault.capture e.subscriber d.copy v.now }.setCourier lane
      (.carrying rest))
  | hand {d : Delivery} {rest : List Delivery} {e : Entry}
      (h : (v.queue lane).courier = .carrying (d :: rest))
      (he : v.registry.entry? d.target = some e) (hf : e.frozenAt = none) :
    Carries v lane ((v.setCourier lane (.handing (d.notice e.subscriber v.now) rest)).tell
      (.notifying (d.notice e.subscriber v.now)))
  | handed {n : Notice} {rest : List Delivery} (h : (v.queue lane).courier = .handing n rest)
      (result : Except DeliveryError Unit) :
    Carries v lane ((v.setCourier lane (.carrying rest)).tell (.notified n result))

namespace View.Carries

variable {v w : View} {lane : Lane}

theorem frame (h : v.Carries lane w) : w = { v with
    vault := w.vault
    fresh := w.fresh
    replay := w.replay
    signals := w.signals } := by
  cases h <;> cases lane <;> rfl

theorem sequencer_eq (h : v.Carries lane w) : w.sequencer = v.sequencer := by
  rw [h.frame]

theorem queue_eq (h : v.Carries lane w) {lane' : Lane} (hl : lane ≠ lane') :
    w.queue lane' = v.queue lane' := by
  cases h <;> cases lane <;> cases lane' <;> first | rfl | exact absurd rfl hl

end View.Carries

namespace Broker

variable (b : Broker)

@[simp] theorem view_queue (lane : Lane) : b.view.queue lane = b.queue lane := by
  cases lane <;> rfl

@[simp] theorem view_setQueue (lane : Lane) (q : DeliveryQueue) :
    (b.setQueue lane q).view = b.view.setQueue lane q := by
  cases lane <;> rfl

@[simp] theorem view_setCourier (lane : Lane) (s : CourierStage) :
    (b.setCourier lane s).view = b.view.setQueue lane { b.queue lane with courier := s } :=
  b.view_setQueue lane _

theorem approach_gone {id : SubscriberId} (h : b.registry.entry? id = none) (copy : Copy)
    (chain : Option ChainId) : b.approach id copy chain = (.gone, b) := by
  simp [approach, h]

theorem approach_ready {id : SubscriberId} {e : Entry} (h : b.registry.entry? id = some e)
    (hf : e.frozenAt = none) (copy : Copy) (chain : Option ChainId) :
    b.approach id copy chain = (.ready e.subscriber, b) := by
  simp [approach, h, hf]

theorem approach_frozen {id : SubscriberId} {e : Entry} (h : b.registry.entry? id = some e)
    (hf : e.frozenAt ≠ none) (copy : Copy) (chain : Option ChainId) :
    ∃ b' : Broker, b.approach id copy chain = (.frozen, b') ∧
      b'.view = { b.view with vault := b.vault.capture e.subscriber copy b.now } := by
  have hn : ¬e.frozenAt.isNone = true := by
    rwa [Option.isNone_iff_eq_none]
  rw [approach, h]
  dsimp only
  rw [if_neg hn]
  refine ⟨_, rfl, ?_⟩
  rw [view_emit_silent, view_log]
  · rfl
  · simp
  · simp

inductive Submits (lane : Lane) (job : Job) : Option BrokerError → Broker → Prop
  | closed (hc : (b.queue lane).courier = .stopped) : Submits lane job (some .closed) b
  | full (hc : (b.queue lane).courier ≠ .stopped)
      (hr : (b.queue lane).room ≤ (b.queue lane).jobs.length) :
    Submits lane job (some (.queueFull lane.name))
      (b.emit { kind := .queueOverflow, reason := some lane.name })
  | taken (hc : (b.queue lane).courier ≠ .stopped)
      (hr : (b.queue lane).jobs.length < (b.queue lane).room) :
    Submits lane job none ((b.setQueue lane
      { b.queue lane with jobs := (b.queue lane).jobs ++ [job] }).note (.queued (.courier lane)))

variable {b} {b' : Broker} {lane : Lane} {job : Job}

theorem submits {r : Option BrokerError} (h : b.submit lane job = (r, b')) :
    b.Submits lane job r b' := by
  simp only [submit] at h
  split at h
  · rename_i hc
    cases h
    exact .closed hc
  · rename_i hc
    split at h
    · rename_i hr
      cases h
      exact .full hc hr
    · rename_i hr
      cases h
      exact .taken hc (Nat.lt_of_not_le hr)

theorem Submits.view_taken (h : b.Submits lane job none b') :
    b'.view = b.view.setQueue lane
      { b.queue lane with jobs := (b.queue lane).jobs ++ [job] } := by
  cases h with
  | taken hc hr => rw [view_note_silent _ _ rfl, view_setQueue]

theorem Submits.view_eq {e : BrokerError} (h : b.Submits lane job (some e) b') :
    b'.view = b.view := by
  cases h with
  | closed hc => rfl
  | full hc hr => exact view_emit_silent _ _ nofun nofun

theorem Submits.refuses_eq {r : Option BrokerError} (h : b.Submits lane job r b') :
    (b.queue lane).refuses = r.isSome := by
  cases h with
  | closed hc => rw [DeliveryQueue.refuses, hc]; rfl
  | full hc hr => exact (DeliveryQueue.refuses_eq hc).trans (decide_eq_true hr)
  | taken hc hr =>
    exact (DeliveryQueue.refuses_eq hc).trans (decide_eq_false (Nat.not_le_of_lt hr))

variable (b)

theorem view_takeJob (lane : Lane) (job : Job) (rest : List Job) :
    (b.takeJob lane job rest).view = b.view.setQueue lane
      { b.queue lane with jobs := rest, courier := .carrying job.deliveries } := by
  cases job with
  | broadcast copy flags targets => exact b.view_setQueue lane _
  | replay held => exact (view_log _ _).trans (b.view_setQueue lane _)

theorem courierStep_carries {b b' : Broker} {lane : Lane} (h : b.courierStep lane = some b') :
    b.view.Carries lane b'.view := by
  cases courierStep_cases h with
  | rest hq =>
    rw [view_setCourier]
    rw [← view_queue] at hq ⊢
    exact .rest hq
  | @attempt d rest hq =>
    rw [Broker.attempt]
    cases he : b.registry.entry? d.target with
    | none =>
      rw [b.approach_gone he]
      dsimp only
      rw [view_setCourier]
      rw [← view_queue] at hq ⊢
      exact .pass hq he
    | some e =>
      by_cases hf : e.frozenAt = none
      · rw [b.approach_ready he hf]
        dsimp only
        rw [view_note_signal _ _ rfl, view_setCourier]
        rw [← view_queue] at hq ⊢
        exact .hand (v := b.view) hq he hf
      · obtain ⟨b', hb, hv⟩ := b.approach_frozen he hf d.copy none
        rw [hb]
        dsimp only
        rw [view_setCourier, ← view_queue, hv]
        rw [← view_queue] at hq
        exact .hold hq he hf
  | stop hq hc =>
    rw [stopCourier, view_note_silent _ _ rfl, view_log, view_setQueue]
    rw [← view_queue] at hq ⊢
    exact .stop hq hc
  | take hq hc hj =>
    rw [view_takeJob]
    rw [← view_queue] at hq hj ⊢
    exact .take hq hj

theorem handed_carries {lane : Lane} {n : Notice} {rest : List Delivery}
    (hc : (b.queue lane).courier = .handing n rest) (result : Except DeliveryError Unit) :
    b.view.Carries lane (b.courierConclude lane result).view := by
  rw [courierConclude, hc]
  dsimp only
  rw [view_setCourier]
  have hv : ∀ b' : Broker, b'.view = b.view.tell (.notified n result) →
      b.view.Carries lane (b'.view.setQueue lane { b'.queue lane with
        courier := .carrying rest }) := by
    intro b' hb
    rw [← view_queue, hb]
    rw [← view_queue] at hc
    cases lane <;> exact .handed hc result
  apply hv
  cases result with
  | ok _ => exact view_note_signal _ _ rfl
  | error e =>
    cases hs : n.subscriber with
    | none => exact view_note_signal _ _ rfl
    | some s => exact (view_deliveryFailed _ _ _ _ _).trans (view_note_signal _ _ rfl)

theorem courierConclude_carries (lane : Lane) (result : Except DeliveryError Unit) :
    (b.courierConclude lane result).view = b.view ∨
      (∃ n left, (b.view.queue lane).courier = .handing n left) ∧
        b.view.Carries lane (b.courierConclude lane result).view := by
  cases hc : (b.queue lane).courier with
  | handing n rest =>
    exact .inr ⟨⟨n, rest, (congrArg DeliveryQueue.courier (b.view_queue lane)).trans hc⟩,
      b.handed_carries hc result⟩
  | _ =>
    rw [courierConclude, hc]
    exact .inl rfl

end Broker

end EventBroker
