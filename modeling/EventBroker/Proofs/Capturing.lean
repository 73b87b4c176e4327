import EventBroker.Proofs.Attempting
import EventBroker.Proofs.Rounds

namespace EventBroker

def Occurrence.handover? : Occurrence → Option (Worker × Notice)
  | .notifying w n => some (w, n)
  | _ => none

def Signal.notice? : Signal → Option Notice
  | .notifying n => some n
  | _ => none

namespace ChainEvent

def notice? : ChainEvent → Option Notice
  | signal s => s.notice?
  | _ => none

def capture? : ChainEvent → Option (Copy × SubscriberId)
  | held _ receiver item => item.map fun x => (x.1, receiver)
  | _ => none

end ChainEvent

namespace CourierEvent

def notice? : CourierEvent → Option Notice
  | begun _ n => some n
  | _ => none

def capture? : CourierEvent → Option (Copy × SubscriberId)
  | held d _ => some (d.copy, d.target)
  | _ => none

theorem handovers_tale (lane : Lane) (e : CourierEvent) :
    (e.tale lane).filterMap Occurrence.handover? =
      (e.notice?.map fun n => (Worker.courier lane, n)).toList := by
  cases e with
  | ended n result =>
    refine List.filterMap_eq_nil_iff.2 (List.forall_mem_cons.2 ⟨rfl, ?_⟩)
    exact List.forall_mem_map.2 fun _ _ => rfl
  | _ => rfl

end CourierEvent

namespace View

inductive Due (v : View) : Worker → Option SubscriberId → Copy → Flags → Prop
  | delivery {lane : Lane} {d : Delivery} {rest : List Delivery}
      (h : (v.queue lane).courier = .carrying (d :: rest)) :
    Due v (.courier lane) (some d.target) d.copy d.flags
  | receiver {c c' : Chain} {i : Nat} {r : SubscriberId} (h : v.sequencer.stage = .pumping)
      (ha : v.sequencer.active = some c) (hn : c.next v.now = (.deliver i r, c')) :
    Due v .sequencer (some r) c.copy c.flags
  | last {c c' : Chain} {reason : FinishReason} (h : v.sequencer.stage = .pumping)
      (ha : v.sequencer.active = some c) (hn : c.next v.now = (.finalize reason, c')) :
    Due v .sequencer none c.copy c.flags

def keeping (v : View) (lane : Lane) : List (Copy × SubscriberId) :=
  match (v.queue lane).courier with
  | .carrying (d :: _) =>
    match v.registry.entry? d.target with
    | none => []
    | some e => if e.frozenAt = none then [] else [(d.copy, d.target)]
  | _ => []

inductive Captures (v : View) : Option Admission → List (Copy × SubscriberId) → View → Prop
  | request {a : Option Admission} {w : View} (h : v.Request a w) : Captures v a [] w
  | carry (lane : Lane) {w : View} (h : v.Carries lane w) : Captures v none (v.keeping lane) w
  | move {es : List ChainEvent} {w : View} (h : v.Moves es w) :
    Captures v none (es.filterMap ChainEvent.capture?) w

variable {v w : View}

theorem Captures.same (h : w = v) : v.Captures none [] w := h ▸ .request .nothing

theorem Moves.notice_due {es : List ChainEvent} (h : v.Moves es w) (hr : v.registry.Sound)
    {n : Notice} (hn : n ∈ es.filterMap ChainEvent.notice?) :
    v.Due .sequencer (n.subscriber.map Subscriber.id) n.copy n.flags := by
  cases h with
  | hand h ha hw hnext he hf =>
    cases List.mem_singleton.1 hn
    have hid := hr.keyed he
    subst hid
    exact .receiver h ha hnext
  | close h ha hw hnext hf =>
    cases List.mem_singleton.1 hn
    exact .last h ha hnext
  | _ => cases hn

theorem Moves.capture_due {es : List ChainEvent} (h : v.Moves es w) {y : Copy × SubscriberId}
    (hy : y ∈ es.filterMap ChainEvent.capture?) :
    ∃ flags, v.Due .sequencer (some y.2) y.1 flags := by
  cases h with
  | hold h ha hw hnext he hf =>
    cases List.mem_singleton.1 hy
    exact ⟨_, .receiver h ha hnext⟩
  | _ => cases hy

end View

namespace Broker

def handovers (b : Broker) : List (Worker × Notice) := b.told Occurrence.handover?

def begins (b : Broker) (a : Action) : List (Worker × Notice) :=
  ((b.carriage? a).toList.flatMap fun x => (x.2.notice?.map fun n => (.courier x.1, n)).toList) ++
    if sequencing a then ((b.deeds a).filterMap ChainEvent.notice?).map (.sequencer, ·) else []

def keeps (b : Broker) (a : Action) : List (Copy × SubscriberId) :=
  ((b.carriage? a).toList.filterMap fun x => x.2.capture?) ++
    (b.deeds a).filterMap ChainEvent.capture?

/-- The copies that a run has had held, in order. -/
def kept (b : Broker) : List Action → List (Copy × SubscriberId)
  | [] => []
  | a :: rest => b.keeps a ++ (b.act a).kept rest

theorem gathers_kept : Gathers keeps kept := ⟨fun _ => rfl, fun _ _ _ => rfl⟩

variable {b b' : Broker}

theorem handover_of_signal {o : Occurrence} (h : o.carried = false) :
    o.handover? = (o.signal?.bind Signal.notice?).map (.sequencer, ·) := by
  cases o with
  | notifying w n =>
    cases w with
    | sequencer => rfl
    | _ => cases h
  | notified w n result => rfl
  | record r =>
    simp only [Occurrence.handover?, Occurrence.signal?, Record.signal?]
    split <;> rfl
  | _ => rfl

theorem Apart.handovers_eq (h : b.Apart b') {signals : List Signal}
    (hs : b'.signals = b.signals ++ signals) :
    b'.handovers = b.handovers ++ (signals.filterMap Signal.notice?).map (.sequencer, ·) := by
  obtain ⟨os, ho, hp⟩ := h
  have hsignals : os.filterMap (fun o => o.2.signal?) = signals := by
    have happend : b'.signals = b.signals ++ os.filterMap fun o => o.2.signal? := by
      rw [Broker.signals, ho, List.filterMap_append]
      rfl
    exact List.append_cancel_left (happend.symm.trans hs)
  have hnew : os.filterMap (fun o => o.2.handover?) =
      (signals.filterMap Signal.notice?).map (Worker.sequencer, ·) := by
    rw [← hsignals, List.filterMap_filterMap, List.map_filterMap]
    exact List.filterMap_congr fun o hm => handover_of_signal (hp o hm)
  rw [handovers, told, ho, List.filterMap_append, hnew]
  rfl

theorem notices_of_signals (es : List ChainEvent) :
    (es.filterMap ChainEvent.signal?).filterMap Signal.notice? =
      es.filterMap ChainEvent.notice? := by
  rw [List.filterMap_filterMap]
  exact List.filterMap_congr fun e _ => by cases e <;> rfl

theorem handovers_act (hv : b.view.Sound) (a : Action) :
    (b.act a).handovers = b.handovers ++ b.begins a := by
  have apart (h : b.Apart (b.act a)) (hs : sequencing a = true) (hc : b.carriage? a = none) :
      (b.act a).handovers = b.handovers ++ b.begins a := by
    have hsignals : (b.act a).signals = b.signals ++ (b.deeds a).filterMap ChainEvent.signal? :=
      (b.act_effect a hv.registry).signals_eq
    rw [h.handovers_eq hsignals, notices_of_signals, begins, hc, if_pos hs]
    rfl
  have aside (hts : .handover ∉ a.topics) (hs : sequencing a = false)
      (hc : b.carriage? a = none) : (b.act a).handovers = b.handovers ++ b.begins a := by
    have hnone : (b.act a).handovers = b.handovers := Tells.told_eq (b.act_within a) fun o ho => by
      cases o with
      | notifying w n => exact absurd (ho _ rfl) hts
      | _ => rfl
    rw [hnone, begins, hc, hs]
    exact (List.append_nil _).symm
  have courier {lane : Lane}
      (ha : a = .work (.courier lane) ∨ ∃ reception, a = .handedOff (.courier lane) reception) :
      (b.act a).handovers = b.handovers ++ b.begins a := by
    have hs : sequencing a = false := by
      obtain rfl | ⟨reception, rfl⟩ := ha <;> rfl
    refine (told_courier (fun _ => rfl) (fun _ => rfl) ha).trans ?_
    rw [begins, hs, List.filterMap_flatMap]
    simp only [CourierEvent.handovers_tale]
    exact congrArg _ (List.append_nil _).symm
  cases a with
  | work w =>
    cases w with
    | courier lane => exact courier (.inl rfl)
    | sequencer =>
      refine apart ?_ rfl rfl
      change b.Apart ((b.sequencerStep).getD b)
      cases hb : b.sequencerStep with
      | none => exact .same rfl
      | some b' => exact apart_sequencerStep hb
    | listener => exact aside (by simp [Action.topics]) rfl rfl
    | observer i => exact aside (by simp [Action.topics]) rfl rfl
  | handedOff w reception =>
    cases w with
    | courier lane => exact courier (.inr ⟨reception, rfl⟩)
    | sequencer => exact apart (apart_sequencerConclude hv reception.result) rfl rfl
    | listener => exact aside (by simp [Action.topics]) rfl rfl
    | observer i => exact aside (by simp [Action.topics]) rfl rfl
  | _ => exact aside (by simp [Action.topics, Topic.subscribing, Topic.publishing]) rfl rfl

theorem carriage?_due {lane : Lane} {e : CourierEvent} {a : Action}
    (h : b.carriage? a = some (lane, e)) : (∃ n result, e = .ended n result) ∨
      a = .work (.courier lane) ∧ ∃ d rest, e = b.turn d ∧
        (b.queue lane).courier = .carrying (d :: rest) := by
  cases a with
  | work w =>
    cases w with
    | courier lane' =>
      rw [carriage?] at h
      split at h
      · rename_i d rest hq
        cases h
        exact .inr ⟨rfl, d, rest, rfl, hq⟩
      · cases h
    | _ => cases h
  | handedOff w reception =>
    cases w with
    | courier lane' =>
      obtain ⟨n, -, he⟩ := Option.map_eq_some_iff.1 h
      cases he
      exact .inl ⟨n, reception.result, rfl⟩
    | _ => cases h
  | _ => cases h

theorem notice?_turn (hr : b.registry.Sound) {d : Delivery} {n : Notice}
    (h : (b.turn d).notice? = some n) :
    n.subscriber.map Subscriber.id = some d.target ∧ n.copy = d.copy ∧ n.flags = d.flags := by
  cases he : b.registry.entry? d.target with
  | none =>
    rw [turn_gone he] at h
    cases h
  | some e =>
    by_cases hf : e.frozenAt = none
    · rw [turn_ready he hf] at h
      cases h
      exact ⟨congrArg some (hr.keyed he), rfl, rfl⟩
    · rw [turn_frozen he hf] at h
      cases h

theorem capture?_turn {d : Delivery} {y : Copy × SubscriberId}
    (h : (b.turn d).capture? = some y) : y = (d.copy, d.target) := by
  cases he : b.registry.entry? d.target with
  | none =>
    rw [turn_gone he] at h
    cases h
  | some e =>
    by_cases hf : e.frozenAt = none
    · rw [turn_ready he hf] at h
      cases h
    · rw [turn_frozen he hf] at h
      cases h
      rfl

theorem keeps_of_ne {a : Action} (h : a ≠ .work .sequencer) :
    b.keeps a = (b.carriage? a).toList.filterMap fun x => x.2.capture? := by
  have hnone : (b.deeds a).filterMap ChainEvent.capture? = [] := by
    rw [b.deeds_of_ne h, List.filterMap_map]
    exact List.filterMap_eq_nil_iff.2 fun _ _ => rfl
  rw [keeps, hnone, List.append_nil]

theorem begins_due (hr : b.registry.Sound) {a : Action} {worker : Worker} {n : Notice}
    (h : (worker, n) ∈ b.begins a) :
    b.view.Due worker (n.subscriber.map Subscriber.id) n.copy n.flags := by
  rcases List.mem_append.1 h with h | h
  · obtain ⟨⟨lane, e⟩, hx, hn⟩ := List.mem_flatMap.1 h
    obtain ⟨m, hm, he⟩ := Option.map_eq_some_iff.1 (Option.mem_toList.1 hn)
    cases he
    rcases carriage?_due (Option.mem_toList.1 hx) with ⟨n', result, rfl⟩ | ⟨rfl, d, rest, rfl, hq⟩
    · cases hm
    · obtain ⟨hs, hc, hf⟩ := notice?_turn hr hm
      rw [hs, hc, hf]
      exact .delivery (by rwa [view_queue])
  · cases hs : sequencing a with
    | false =>
      rw [hs] at h
      cases h
    | true =>
      rw [hs, if_pos rfl] at h
      obtain ⟨m, hm, he⟩ := List.mem_map.1 h
      cases he
      cases b.sequencing_moves hs hr with
      | inl hnone =>
        rw [hnone.2] at hm
        cases hm
      | inr hmoves => exact hmoves.notice_due hr hm

theorem carriage?_request {a : Action} (h : isWork a = false) : b.carriage? a = none := by
  cases a <;> first | rfl | cases h

theorem keeps_courier (b : Broker) (lane : Lane) :
    b.keeps (.work (.courier lane)) = b.view.keeping lane := by
  rw [keeps_of_ne (by simp), carriage?, View.keeping, view_queue]
  cases (b.queue lane).courier with
  | carrying left =>
    cases left with
    | nil => rfl
    | cons d rest =>
      dsimp only
      rw [Option.toList_some]
      cases he : b.registry.entry? d.target with
      | none =>
        rw [turn_gone he, show b.view.registry.entry? d.target = none from he]
        rfl
      | some e =>
        rw [show b.view.registry.entry? d.target = some e from he]
        by_cases hf : e.frozenAt = none
        · rw [turn_ready he hf]
          exact (if_pos hf).symm
        · rw [turn_frozen he hf]
          exact (if_neg hf).symm
  | _ => rfl

theorem keeps_handedOff (b : Broker) (lane : Lane) (reception : Reception) :
    b.keeps (.handedOff (.courier lane) reception) = [] := by
  rw [keeps_of_ne (by simp), carriage?]
  cases (b.queue lane).courier.busy? <;> rfl

theorem sequencing_captures (hr : b.registry.Sound) {a : Action} (hs : sequencing a = true) :
    b.view.Captures (b.admits a) (b.keeps a) (b.act a).view := by
  have hadmits : b.admits a = none := by
    cases a <;> first | rfl | cases hs
  have hcarriage : b.carriage? a = none := by
    cases a with
    | work w => cases w <;> first | rfl | cases hs
    | handedOff w reception => cases w <;> first | rfl | cases hs
    | _ => cases hs
  have hkeeps : b.keeps a = (b.deeds a).filterMap ChainEvent.capture? := by
    rw [keeps, hcarriage]
    rfl
  rw [hadmits, hkeeps]
  cases b.sequencing_moves hs hr with
  | inl h =>
    rw [h.2]
    exact .same h.1
  | inr h => exact .move h

theorem courier_captures (b : Broker) (lane : Lane) :
    b.view.Captures none (b.keeps (.work (.courier lane)))
      (b.act (.work (.courier lane))).view := by
  cases hb : b.courierStep lane with
  | none =>
    have hkeeps : b.keeps (.work (.courier lane)) = [] := by
      rw [keeps_of_ne (by simp), carriage?_idle hb]
      rfl
    have hview : (b.act (.work (.courier lane))).view = b.view := by
      change ((b.courierStep lane).getD b).view = b.view
      rw [hb]
      rfl
    rw [hkeeps]
    exact .same hview
  | some b' =>
    have hcarries := courierStep_carries hb
    rw [keeps_courier]
    change b.view.Captures none _ ((b.courierStep lane).getD b).view
    rw [hb]
    exact .carry lane hcarries

theorem handedOff_captures (b : Broker) (lane : Lane) (reception : Reception) :
    b.view.Captures none (b.keeps (.handedOff (.courier lane) reception))
      (b.act (.handedOff (.courier lane) reception)).view := by
  rw [keeps_handedOff]
  cases b.courierConclude_carries lane reception.result with
  | inl h => exact .same h
  | inr h =>
    obtain ⟨⟨n, left, hq⟩, hcarries⟩ := h
    have hkeeping : b.view.keeping lane = [] := by
      rw [View.keeping, hq]
    rw [← hkeeping]
    exact .carry lane hcarries

theorem act_captures (hr : b.registry.Sound) (a : Action) :
    b.view.Captures (b.admits a) (b.keeps a) (b.act a).view := by
  cases hs : sequencing a with
  | true => exact sequencing_captures hr hs
  | false =>
    have hne : a ≠ .work .sequencer := fun h => by
      rw [h] at hs
      cases hs
    cases hi : isWork a with
    | false =>
      rw [keeps_of_ne hne, carriage?_request hi]
      exact .request (b.act_request hi)
    | true =>
      cases a with
      | work w =>
        cases w with
        | courier lane => exact b.courier_captures lane
        | sequencer => cases hs
        | listener =>
          rw [keeps_of_ne hne]
          refine .same ?_
          change ((b.listenerStep).getD b).view = b.view
          cases hb : b.listenerStep with
          | none => rfl
          | some b' => exact listenerStep_view hb
        | observer i =>
          rw [keeps_of_ne hne]
          refine .same ?_
          change ((b.observerStep i).getD b).view = b.view
          cases hb : b.observerStep i with
          | none => rfl
          | some b' => exact observerStep_view hb
      | handedOff w reception =>
        cases w with
        | courier lane => exact b.handedOff_captures lane reception
        | sequencer => cases hs
        | listener => exact keeps_of_ne hne ▸ .same rfl
        | observer i => exact keeps_of_ne hne ▸ .same rfl
      | _ => cases hi

theorem keeps_due (hr : b.registry.Sound) {a : Action} {y : Copy × SubscriberId}
    (h : y ∈ b.keeps a) :
    ∃ worker flags, a = .work worker ∧ b.view.Due worker (some y.2) y.1 flags := by
  by_cases hw : a = .work .sequencer
  · subst hw
    have hmem : y ∈ (b.deeds (.work .sequencer)).filterMap ChainEvent.capture? := h
    cases b.sequencing_moves (a := .work .sequencer) rfl hr with
    | inl hnone =>
      rw [hnone.2] at hmem
      cases hmem
    | inr hm =>
      obtain ⟨flags, hd⟩ := hm.capture_due hmem
      exact ⟨.sequencer, flags, rfl, hd⟩
  · rw [keeps_of_ne hw] at h
    obtain ⟨⟨lane, e⟩, hx, hy⟩ := List.mem_filterMap.1 h
    rcases carriage?_due (Option.mem_toList.1 hx) with ⟨n, result, rfl⟩ | ⟨rfl, d, rest, rfl, hq⟩
    · cases hy
    · cases capture?_turn hy
      exact ⟨.courier lane, d.flags, rfl, .delivery (by rwa [view_queue])⟩

end Broker

end EventBroker
