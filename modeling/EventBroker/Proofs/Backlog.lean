import EventBroker.Proofs.Attempting
import EventBroker.Proofs.Flushing
import EventBroker.Proofs.Settling
import EventBroker.Proofs.Timeline

namespace EventBroker

namespace CourierEvent

def ofLane (lane : Lane) (events : List (Lane × CourierEvent)) : List CourierEvent :=
  (events.filter fun x => x.1 = lane).map Prod.snd

theorem ofLane_append (lane : Lane) (xs ys : List (Lane × CourierEvent)) :
    ofLane lane (xs ++ ys) = ofLane lane xs ++ ofLane lane ys := by
  rw [ofLane, List.filter_append, List.map_append]
  rfl

theorem ofLane_same (lane : Lane) (e : CourierEvent) :
    ofLane lane (some (lane, e)).toList = [e] := by
  simp [ofLane]

theorem ofLane_of_ne {lane lane' : Lane} (h : lane' ≠ lane) (e : CourierEvent) :
    ofLane lane (some (lane', e)).toList = [] := by
  simp [ofLane, h]

theorem left_next (e : CourierEvent) (rest : List Delivery) : (e.next rest).left = rest := by
  cases e <;> rfl

end CourierEvent

namespace DeliveryQueue

variable (q : DeliveryQueue)

def upNext : Option Job :=
  match q.courier with
  | .waiting => q.jobs.head?
  | _ => none

def due : Option Delivery :=
  match q.courier with
  | .carrying left => left.head?
  | _ => none

theorem jobs_advance (turn : Delivery → CourierEvent) :
    q.jobs = q.upNext.toList ++ (q.advance false turn).jobs := by
  rw [upNext, advance]
  cases q.courier with
  | waiting => cases h : q.jobs <;> simp [h]
  | carrying left => cases left <;> rfl
  | _ => rfl

theorem left_advance (turn : Delivery → CourierEvent) :
    q.courier.left ++ q.upNext.toList.flatMap Job.deliveries =
      q.due.toList ++ (q.advance false turn).courier.left := by
  rw [upNext, due, advance]
  cases hc : q.courier with
  | waiting =>
    cases hj : q.jobs with
    | nil => simp [hc]
    | cons job rest => simp [CourierStage.left]
  | carrying left =>
    cases left with
    | nil => rfl
    | cons d rest =>
      have hnext : ((turn d).next rest).left = rest := CourierEvent.left_next _ _
      exact (List.append_nil _).trans (congrArg (d :: ·) hnext.symm)
  | _ => simp [hc]

theorem conclude_left : q.conclude.jobs = q.jobs ∧ q.conclude.courier.left = q.courier.left := by
  rw [conclude]
  cases h : q.courier <;> simp [h, CourierStage.left]

end DeliveryQueue

namespace View

variable {v w : View}

theorem Queues.room_eq {p : Publication} {matched : List Subscriber}
    {finalReceiver : Option Receiver} {chain : Option ChainId}
    (h : v.Queues p matched finalReceiver chain w) (lane : Lane) :
    (w.queue lane).room = (v.queue lane).room := by
  cases h <;> cases lane <;> rfl

theorem Request.room_eq {a : Option Admission} (h : v.Request a w) (lane : Lane) :
    (w.queue lane).room = (v.queue lane).room := by
  cases h with
  | publish hn hm hq => exact (Eq.refl _).trans (hq.room_eq lane)
  | _ => cases lane <;> rfl

theorem Carries.room_eq {lane' : Lane} (h : v.Carries lane' w) (lane : Lane) :
    (w.queue lane).room = (v.queue lane).room := by
  cases h <;> cases lane <;> cases lane' <;> rfl

theorem Effect.room_eq {a : Option Admission} {es : List ChainEvent} (h : v.Effect a es w)
    (lane : Lane) : (w.queue lane).room = (v.queue lane).room := by
  cases h with
  | request hq => exact hq.room_eq lane
  | carry lane' hc => exact hc.room_eq lane
  | move hm =>
    rw [hm.frame]
    cases lane <;> rfl

theorem Effect.stopped {a : Option Admission} {es : List ChainEvent} (h : v.Effect a es w)
    (hv : ∀ lane, (v.queue lane).courier = .stopped → v.cancelled = true) (lane : Lane)
    (hw : (w.queue lane).courier = .stopped) : w.cancelled = true := by
  refine h.cancelled ?_
  cases h with
  | request hq => exact hv lane (hq.courier_eq lane ▸ hw)
  | carry lane' hc =>
    by_cases hl : lane' = lane
    · subst hl
      exact hc.cancelled hw
    · exact hv lane (hc.queue_eq hl ▸ hw)
  | move hm =>
    rw [hm.frame] at hw
    refine hv lane (Eq.trans ?_ hw)
    cases lane <;> rfl

end View

namespace Broker

variable {b b' : Broker} {lane : Lane}

theorem action_cases (lane : Lane) (a : Action) : isWork a = false ∨ a = .work (.courier lane) ∨
    (∃ reception, a = .handedOff (.courier lane) reception) ∨
      isWork a = true ∧ a ≠ .work (.courier lane) ∧
        ∀ reception, a ≠ .handedOff (.courier lane) reception := by
  cases hw : isWork a with
  | false => exact .inl rfl
  | true =>
    by_cases hs : a = .work (.courier lane)
    · exact .inr (.inl hs)
    · by_cases hr : ∃ reception, a = .handedOff (.courier lane) reception
      · exact .inr (.inr (.inl hr))
      · exact .inr (.inr (.inr ⟨rfl, hs, fun reception h => hr ⟨reception, h⟩⟩))

theorem offers_of_isWork {a : Action} (hw : isWork a = true) :
    b.offers a = Lane.fresh.only [] ∧ isOffer a = false := by
  cases a <;> first | exact ⟨rfl, rfl⟩ | cases hw

inductive Feeds (b : Broker) (lane : Lane) (a : Action) : DeliveryQueue → Prop
  | offered (hw : isWork a = false) :
    Feeds b lane a ((b.queue lane).enter ((b.queue lane).takes (b.offers a lane)))
  | advance (ha : a = .work (.courier lane)) :
    Feeds b lane a ((b.queue lane).advance b.cancelled b.turn)
  | conclude {reception : Reception} (ha : a = .handedOff (.courier lane) reception) :
    Feeds b lane a (b.queue lane).conclude
  | still (hw : isWork a = true) (hs : a ≠ .work (.courier lane))
      (hc : ∀ reception, a ≠ .handedOff (.courier lane) reception) : Feeds b lane a (b.queue lane)

theorem feeds (hc : ∀ lane, (b.queue lane).courier ≠ .stopped) (a : Action) (lane : Lane) :
    b.Feeds lane a ((b.act a).queue lane) := by
  obtain hw | rfl | ⟨reception, rfl⟩ | ⟨hw, hs, hr⟩ := action_cases lane a
  · exact (offered_act hc hw).queue lane ▸ .offered hw
  · exact b.queue_courier lane ▸ .advance rfl
  · exact b.queue_handedOff lane reception ▸ .conclude rfl
  · exact b.queue_still hw hs hr ▸ .still hw hs hr

def does (b : Broker) (lane : Lane) (a : Action) : List CourierEvent :=
  CourierEvent.ofLane lane (b.carriage? a).toList

theorem does_request {a : Action} (hw : isWork a = false) : b.does lane a = [] := by
  cases a <;> first | rfl | cases hw

theorem does_courier (b : Broker) (lane : Lane) :
    b.does lane (.work (.courier lane)) = (b.queue lane).due.toList.map b.turn := by
  rw [does, carriage?, DeliveryQueue.due]
  cases (b.queue lane).courier with
  | carrying left =>
    cases left with
    | nil => rfl
    | cons d rest => exact CourierEvent.ofLane_same lane _
  | _ => rfl

theorem does_handedOff (b : Broker) (lane : Lane) (reception : Reception) :
    b.does lane (.handedOff (.courier lane) reception) =
      (b.queue lane).courier.busy?.toList.map fun n => .ended n reception.result := by
  rw [does, carriage?]
  cases (b.queue lane).courier.busy? with
  | none => rfl
  | some n => exact CourierEvent.ofLane_same lane _

theorem does_still {a : Action} (hs : a ≠ .work (.courier lane))
    (hc : ∀ reception, a ≠ .handedOff (.courier lane) reception) : b.does lane a = [] := by
  cases a with
  | work w =>
    cases w with
    | courier lane' =>
      have hl : lane' ≠ lane := fun hl => hs (hl ▸ rfl)
      rw [does, carriage?]
      split
      · exact CourierEvent.ofLane_of_ne hl _
      · rfl
    | _ => rfl
  | handedOff w reception =>
    cases w with
    | courier lane' =>
      have hl : lane' ≠ lane := fun hl => hc reception (hl ▸ rfl)
      rw [does, carriage?]
      cases (b.queue lane').courier.busy? with
      | none => rfl
      | some n => exact CourierEvent.ofLane_of_ne hl _
    | _ => rfl
  | _ => rfl

/-- The jobs that a queue takes in a run, in order, while its courier runs. -/
def accepted (b : Broker) (lane : Lane) : List Action → List Job
  | [] => []
  | a :: rest => (b.queue lane).takes (b.offers a lane) ++ (b.act a).accepted lane rest

def refusals (b : Broker) : List Action → List Record
  | [] => []
  | a :: rest => ([Lane.fresh, .replay].flatMap fun lane =>
      ((b.queue lane).refused (b.offers a lane)).map fun _ => lane.overflow) ++
        (b.act a).refusals rest

/-- How the queues stand after a run that made `jobs` of what they took and `events` of what their
couriers did. -/
structure Backlog (b : Broker) (jobs : Lane → List Job) (events : Lane → List CourierEvent) :
    Prop where
  sound : b.view.Sound
  room : ∀ lane, (b.queue lane).room = b.config.queueRoom
  stopped : ∀ lane, (b.queue lane).courier = .stopped → b.cancelled = true
  fits : b.cancelled = false → ∀ lane, (b.queue lane).jobs.length ≤ b.config.queueRoom
  orderly : ∀ lane, Orderly (events lane) (b.queue lane).courier.busy?
  taken : b.cancelled = false → ∀ lane, ∃ taken, jobs lane = taken ++ (b.queue lane).jobs ∧
    taken.flatMap Job.deliveries =
      (events lane).filterMap CourierEvent.attempt? ++ (b.queue lane).courier.left

theorem attempt?_turn (b : Broker) (d : Delivery) : (b.turn d).attempt? = some d := by
  rw [turn]
  split
  · rfl
  · split <;> rfl

theorem orderly_turn {es : List CourierEvent} (h : Orderly es none) (hr : b.registry.Sound)
    (d : Delivery) (rest : List Delivery) :
    Orderly (es ++ [b.turn d]) ((b.turn d).next rest).busy? := by
  cases he : b.registry.entry? d.target with
  | none =>
    rw [turn_gone he]
    exact .passed h d
  | some e =>
    by_cases hf : e.frozenAt = none
    · rw [turn_ready he hf]
      exact .begun h d e.subscriber (hr.keyed he) b.now
    · rw [turn_frozen he hf]
      exact .held h d e.subscriber (hr.keyed he)

theorem orderly_advance {es : List CourierEvent} {q : DeliveryQueue} (hr : b.registry.Sound)
    (h : Orderly es q.courier.busy?) :
    Orderly (es ++ q.due.toList.map b.turn)
      (q.advance b.cancelled b.turn).courier.busy? := by
  obtain ⟨room, jobs, courier⟩ := q
  cases courier with
  | waiting =>
    have hidle : ((⟨room, jobs, .waiting⟩ : DeliveryQueue).advance b.cancelled
        b.turn).courier.busy? = none := by
      rw [DeliveryQueue.advance]
      dsimp only
      split
      · rfl
      · cases jobs <;> rfl
    rw [hidle]
    exact (List.append_nil es).symm ▸ h
  | carrying left =>
    cases left with
    | nil => exact (List.append_nil es).symm ▸ h
    | cons d rest => exact orderly_turn h hr d rest
  | handing n rest => exact (List.append_nil es).symm ▸ h
  | stopped => exact (List.append_nil es).symm ▸ h

theorem orderly_conclude {es : List CourierEvent} {q : DeliveryQueue}
    (h : Orderly es q.courier.busy?) (result : Except DeliveryError Unit) :
    Orderly (es ++ q.courier.busy?.toList.map fun n => .ended n result)
      q.conclude.courier.busy? := by
  obtain ⟨room, jobs, courier⟩ := q
  cases courier with
  | handing n rest => exact .ended h result
  | _ => exact (List.append_nil es).symm ▸ h

theorem fits_of_feeds {a : Action} {q : DeliveryQueue} (h : b.Feeds lane a q)
    (hfits : (b.queue lane).jobs.length ≤ (b.queue lane).room) :
    q.jobs.length ≤ (b.queue lane).room := by
  cases h with
  | offered hw =>
    simp only [DeliveryQueue.enter, DeliveryQueue.takes, List.length_append, List.length_take]
    omega
  | advance ha =>
    rw [DeliveryQueue.advance]
    split
    · exact hfits
    · exact hfits
    · split
      · exact Nat.zero_le _
      · split
        · exact hfits
        · rename_i hj
          rw [hj, List.length_cons] at hfits
          exact Nat.le_of_succ_le hfits
    · exact hfits
    · exact hfits
  | conclude ha => exact (b.queue lane).conclude_left.1.symm ▸ hfits
  | still hw hs hc => exact hfits

theorem taken_of_feeds {a : Action} {q : DeliveryQueue} (h : b.Feeds lane a q)
    (hc : b.cancelled = false) : ∃ taken : Option Job,
      (b.queue lane).jobs ++ (b.queue lane).takes (b.offers a lane) = taken.toList ++ q.jobs ∧
      (b.queue lane).courier.left ++ taken.toList.flatMap Job.deliveries =
        (b.does lane a).filterMap CourierEvent.attempt? ++ q.courier.left := by
  have nothing (hw : isWork a = true) : (b.queue lane).takes (b.offers a lane) = [] := by
    rw [(offers_of_isWork hw).1, Lane.only, ite_self, DeliveryQueue.takes_nil]
  cases h with
  | offered hw => exact ⟨none, rfl, by rw [does_request hw]; exact List.append_nil _⟩
  | advance ha =>
    subst ha
    refine ⟨(b.queue lane).upNext, ?_, ?_⟩
    · rw [nothing rfl, List.append_nil, hc]
      exact (b.queue lane).jobs_advance b.turn
    · have hdoes : (b.does lane (.work (.courier lane))).filterMap CourierEvent.attempt? =
          (b.queue lane).due.toList := by
        rw [does_courier, List.filterMap_map]
        cases (b.queue lane).due with
        | none => rfl
        | some d => simp [attempt?_turn]
      rw [hdoes, hc]
      exact (b.queue lane).left_advance b.turn
  | conclude ha =>
    subst ha
    obtain ⟨hjobs, hleft⟩ := (b.queue lane).conclude_left
    refine ⟨none, ?_, ?_⟩
    · rw [nothing rfl, List.append_nil, hjobs]
      rfl
    · rw [does_handedOff, hleft]
      cases (b.queue lane).courier.busy? <;> simp [CourierEvent.attempt?]
  | still hw hs hr =>
    refine ⟨none, ?_, ?_⟩
    · rw [nothing hw]
      simp
    · rw [does_still hs hr]
      simp

theorem orderly_act (hr : b.registry.Sound) {es : List CourierEvent}
    (h : Orderly es (b.queue lane).courier.busy?) (a : Action) :
    Orderly (es ++ b.does lane a) ((b.act a).queue lane).courier.busy? := by
  obtain hw | rfl | ⟨reception, rfl⟩ | ⟨hw, hs, hc⟩ := action_cases lane a
  · have hcourier := (b.act_request hw).courier_eq lane
    rw [view_queue, view_queue] at hcourier
    rw [does_request hw, List.append_nil, hcourier]
    exact h
  · rw [does_courier, queue_courier]
    exact orderly_advance hr h
  · rw [does_handedOff, queue_handedOff]
    exact orderly_conclude h reception.result
  · rw [does_still hs hc, List.append_nil, queue_still b hw hs hc]
    exact h

theorem Backlog.act {jobs : Lane → List Job} {events : Lane → List CourierEvent}
    (h : b.Backlog jobs events) (a : Action) :
    (b.act a).Backlog (fun lane => jobs lane ++ (b.queue lane).takes (b.offers a lane))
      (fun lane => events lane ++ b.does lane a) := by
  have he := b.act_effect a h.sound.registry
  have hconfig : (b.act a).config = b.config := he.config_eq
  have before (hc : (b.act a).cancelled = false) : b.cancelled = false := by
    rw [← Bool.not_eq_true] at hc ⊢
    exact mt he.cancelled hc
  have running (hc : b.cancelled = false) : ∀ lane, (b.queue lane).courier ≠ .stopped :=
    fun lane hs => Bool.noConfusion (hc.symm.trans (h.stopped lane hs))
  have hstopped : ∀ lane, (b.view.queue lane).courier = .stopped → b.view.cancelled = true :=
    fun lane hs => h.stopped lane (view_queue b lane ▸ hs)
  refine ⟨h.sound.effect he, fun lane => ?_, fun lane hs => ?_, fun hc lane => ?_,
    fun lane => orderly_act h.sound.registry (h.orderly lane) a, fun hc lane => ?_⟩
  · have hroom := he.room_eq lane
    rw [view_queue, view_queue] at hroom
    rw [hroom, hconfig, h.room lane]
  · exact he.stopped hstopped lane (by rwa [view_queue])
  · have hfits := fits_of_feeds (feeds (running (before hc)) a lane)
      ((h.room lane).symm ▸ h.fits (before hc) lane)
    rwa [h.room lane, ← hconfig] at hfits
  · obtain ⟨taken, hjobs, hleft⟩ := h.taken (before hc) lane
    obtain ⟨more, hmore, hattempts⟩ :=
      taken_of_feeds (feeds (running (before hc)) a lane) (before hc)
    refine ⟨taken ++ more.toList, ?_, ?_⟩
    · rw [hjobs, List.append_assoc, hmore, List.append_assoc]
    · rw [List.flatMap_append, hleft, List.append_assoc, hattempts, List.filterMap_append,
        List.append_assoc]

theorem Backlog.run {jobs : Lane → List Job} {events : Lane → List CourierEvent}
    (h : b.Backlog jobs events) (actions : List Action) :
    (b.run actions).Backlog (fun lane => jobs lane ++ b.accepted lane actions)
      (fun lane => events lane ++ CourierEvent.ofLane lane (b.carriage actions)) := by
  induction actions generalizing b jobs events with
  | nil =>
    simp only [accepted, carriage, CourierEvent.ofLane, List.filter_nil, List.map_nil,
      List.append_nil]
    exact h
  | cons a rest ih =>
    simp only [accepted, carriage, CourierEvent.ofLane_append, ← List.append_assoc]
    exact ih (h.act a)

theorem backlog_start (config : Config) (oracle : Oracle) (bundleOf : Uid → Option String)
    (observers : List Observer) :
    (start config oracle bundleOf observers).Backlog (fun _ => []) (fun _ => []) where
  sound := view_start_sound config oracle bundleOf observers
  room := fun lane => by cases lane <;> rfl
  stopped := fun lane h => by cases lane <;> cases h
  fits := fun _ lane => by cases lane <;> exact Nat.zero_le _
  orderly := fun lane => by cases lane <;> exact .idle
  taken := fun _ lane => ⟨[], by cases lane <;> rfl, by cases lane <;> rfl⟩

theorem overflows_run {jobs : Lane → List Job} {events : Lane → List CourierEvent}
    (h : b.Backlog jobs events) {actions : List Action}
    (hc : (b.run actions).cancelled = false) :
    (b.run actions).overflows = b.overflows ++ b.refusals actions := by
  induction actions generalizing b jobs events with
  | nil => exact (List.append_nil _).symm
  | cons a rest ih =>
    have running : ∀ lane, (b.queue lane).courier ≠ .stopped := fun lane hs => by
      have hcancelled := cancelled_run h.sound (h.stopped lane hs) (a :: rest)
      cases hc.symm.trans hcancelled
    have hfirst : (b.act a).overflows = b.overflows ++ [Lane.fresh, .replay].flatMap fun lane =>
        ((b.queue lane).refused (b.offers a lane)).map fun _ => lane.overflow := by
      cases hw : isWork a with
      | false => exact (offered_act running hw).overflows
      | true =>
        obtain ⟨hoffers, haside⟩ := b.offers_of_isWork hw
        rw [hoffers, b.overflows_aside haside]
        simp [Lane.only]
    have hrest := ih (h.act a) hc
    rw [hfirst, List.append_assoc] at hrest
    exact hrest

theorem submit_eq {jobs : Lane → List Job} {events : Lane → List CourierEvent}
    (h : b.Backlog jobs events) (hc : b.cancelled = false) (lane : Lane) (job : Job) :
    b.submit lane job =
      if (b.queue lane).jobs.length = b.config.queueRoom then
        (some (.queueFull lane.name), b.emit lane.overflow)
      else
        (none, (b.setQueue lane ((b.queue lane).enter [job])).note (.queued (.courier lane))) := by
  have hroom := h.room lane
  have hfits := h.fits hc lane
  cases hs : b.submit lane job with
  | mk r b' =>
    cases submits hs with
    | closed hstopped => cases hc.symm.trans (h.stopped lane hstopped)
    | full _ hr =>
      rw [if_pos (Nat.le_antisymm hfits (hroom ▸ hr))]
      rfl
    | taken _ hr =>
      rw [if_neg (hroom ▸ Nat.ne_of_lt hr)]
      rfl

theorem courier_rests (hc : b.cancelled = false) (hs : (b.queue lane).courier ≠ .stopped)
    (h : b.courierStep lane = none) : (b.queue lane).courier.busy? ≠ none ∨
      (b.queue lane).courier.left = [] ∧ (b.queue lane).jobs = [] := by
  rw [courierStep, hc] at h
  split at h
  · contradiction
  · rename_i n rest hq
    exact .inl (by rw [hq]; exact Option.some_ne_none n)
  · cases h
  · cases h
  · rename_i hq
    split at h
    · contradiction
    · split at h
      · rename_i hj
        exact .inr ⟨by rw [hq]; rfl, hj⟩
      · cases h

def shelved (b : Broker) : CourierEvent → Vault Copy
  | .held d s => b.vault.capture s d.copy b.now
  | _ => b.vault

theorem vault_attempt (b : Broker) (lane : Lane) (d : Delivery) (rest : List Delivery) :
    (b.attempt lane d rest).vault = b.shelved (b.turn d) := by
  rw [attempt]
  cases he : b.registry.entry? d.target with
  | none =>
    rw [approach_gone b he, turn_gone he]
    cases lane <;> rfl
  | some e =>
    by_cases hf : e.frozenAt = none
    · rw [approach_ready b he hf, turn_ready he hf]
      cases lane <;> rfl
    · obtain ⟨b', hb, hv⟩ := approach_frozen b he hf d.copy none
      have hvault : b'.vault = b.vault.capture e.subscriber d.copy b.now :=
        congrArg View.vault hv
      rw [hb, turn_frozen he hf]
      cases lane <;> exact hvault

theorem vault_of_carriage {a : Action} {x : Lane × CourierEvent} (h : b.carriage? a = some x) :
    (b.act a).vault = b.shelved x.2 := by
  cases a with
  | work w =>
    cases w with
    | courier lane =>
      rw [carriage?] at h
      split at h
      · rename_i d rest hq
        cases h
        change ((b.courierStep lane).getD b).vault = _
        rw [courierStep, hq]
        exact b.vault_attempt lane d rest
      · cases h
    | _ => cases h
  | handedOff w reception =>
    cases w with
    | courier lane =>
      obtain ⟨n, -, rfl⟩ := Option.map_eq_some_iff.1 h
      exact b.vault_courierConclude lane reception.result
    | _ => cases h
  | _ => cases h

theorem view_handedOff_courier (b : Broker) (lane : Lane) (reception : Reception) :
    { (b.act (.handedOff (.courier lane) reception)).view with signals := b.signals } =
      b.view.setQueue lane (b.queue lane).conclude := by
  change { (b.courierConclude lane reception.result).view with signals := b.view.signals } = _
  generalize reception.result = result
  rw [courierConclude, DeliveryQueue.conclude]
  cases hq : (b.queue lane).courier with
  | handing n rest =>
    have told (b' : Broker) (hb : b'.view = b.view.tell (.notified n result)) :
        { (b'.setCourier lane (.carrying rest)).view with signals := b.view.signals } =
          b.view.setQueue lane { b.queue lane with courier := .carrying rest } := by
      rw [view_setCourier, ← view_queue, ← view_queue, hb]
      cases lane <;> rfl
    refine told _ ?_
    have hnote := b.view_note_signal (.notified (.courier lane) n result) rfl
    split
    · exact (view_deliveryFailed ..).trans hnote
    · exact hnote
  | _ => cases lane <;> rfl

/-- A delivery queue is worked off as if by one loop over the jobs that it took: their deliveries
are attempted in order, each once and one at a time, by what the registry says when its turn comes,
and a full queue refuses a job without any other effect than a record of that. -/
theorem queues_sequential (config : Config) (oracle : Oracle) (bundleOf : Uid → Option String)
    (observers : List Observer) (actions : List Action) :
    let b := start config oracle bundleOf observers
    let w := b.run actions
    let events := b.carriage actions
    (w.cancelled = false → ∀ lane,
      (∀ job, w.submit lane job =
        if (w.queue lane).jobs.length = config.queueRoom then
          (some (.queueFull lane.name), w.emit lane.overflow)
        else
          (none, (w.setQueue lane ((w.queue lane).enter [job])).note (.queued (.courier lane)))) ∧
      (∃ taken, b.accepted lane actions = taken ++ (w.queue lane).jobs ∧
        taken.flatMap Job.deliveries =
          (CourierEvent.ofLane lane events).filterMap CourierEvent.attempt? ++
            (w.queue lane).courier.left) ∧
      (w.courierStep lane = none → (w.queue lane).courier.busy? ≠ none ∨
        (w.queue lane).courier.left = [] ∧ (w.queue lane).jobs = [])) ∧
    (w.cancelled = false → w.overflows = b.refusals actions) ∧
    (∀ lane, Orderly (CourierEvent.ofLane lane events) (w.queue lane).courier.busy?) ∧
    w.carried = events.flatMap (fun x => x.2.tale x.1) ∧
    (∀ a x, w.carriage? a = some x → (w.act a).vault = w.shelved x.2) ∧
    ∀ lane reception,
      { (w.act (.handedOff (.courier lane) reception)).view with signals := w.signals } =
        w.view.setQueue lane (w.queue lane).conclude := by
  intro b w events
  have hstart : b.Backlog (fun _ => []) (fun _ => []) :=
    backlog_start config oracle bundleOf observers
  have hrun : w.Backlog (fun lane => b.accepted lane actions)
      (fun lane => CourierEvent.ofLane lane events) := hstart.run actions
  have hconfig : w.config = config := run_config hstart.sound actions
  refine ⟨fun hc lane => ⟨fun job => ?_, hrun.taken hc lane, ?_⟩, fun hc => ?_, hrun.orderly, ?_,
    fun a x h => vault_of_carriage h, fun lane reception => w.view_handedOff_courier lane reception⟩
  · rw [← hconfig]
    exact submit_eq hrun hc lane job
  · have hs : (w.queue lane).courier ≠ .stopped := fun hs => by
      cases hc.symm.trans (hrun.stopped lane hs)
    exact courier_rests hc hs
  · exact overflows_run hstart hc
  · exact carried_run hstart.sound actions

end Broker

end EventBroker
