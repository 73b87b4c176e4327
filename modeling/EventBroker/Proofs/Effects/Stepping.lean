import EventBroker.Broker.Work
import EventBroker.Proofs.ChainLaws

/-! What the steps of the workers come to, and when. What holds of every step is proved of these
cases. -/

namespace EventBroker.Broker

def forwarded : Receipt Record → Option Record
  | .empty => none
  | .lagged _ => some (.observerOverflow "listener" "lagged")
  | .item r => some r

inductive Listens (b : Broker) : Broker → Prop
  | forward {l : Listener} {r : Record} (hl : b.listener = some l) (hs : l.stage = .listening)
      (hc : b.cancelled = false) (hr : forwarded (b.bus.take l.reader).1 = some r) :
    Listens b (offer { b with bus := (b.bus.take l.reader).2 } r)
  | drain {l : Listener} (hl : b.listener = some l) (hs : l.stage = .listening)
      (hc : b.cancelled = true) :
    Listens b ((List.range b.observers.members.length).foldl
      (fun b i => b.note (.queued (.observer i)))
      ({ b with observers := b.observers.close }.setListener { l with stage := .draining }))
  | stop {l : Listener} (hl : b.listener = some l) (hs : l.stage = .draining)
      (ho : b.observers.allStopped = true) :
    Listens b ((b.setListener { l with stage := .stopped }).note (.stopped .listener))

theorem listens {b b' : Broker} (h : b.listenerStep = some b') : b.Listens b' := by
  rw [listenerStep] at h
  split at h
  · cases h
  · rename_i l hl
    split at h
    · cases h
    · rename_i hs
      split at h
      · rename_i ho
        cases h
        exact .stop hl hs ho
      · cases h
    · rename_i hs
      split at h
      · rename_i hc
        cases h
        exact .drain hl hs hc
      · rename_i hc
        have forward {receipt : Receipt Record} {bus : Bus Record} {r : Record}
            (ht : b.bus.take l.reader = (receipt, bus)) (hr : forwarded receipt = some r) :
            b.Listens (offer { b with bus } r) := by
          have hbus : bus = (b.bus.take l.reader).2 := by rw [ht]
          subst hbus
          exact .forward hl hs (Bool.eq_false_iff.2 hc) (by rw [ht]; exact hr)
        split at h
        · cases h
        · rename_i ht
          cases h
          exact forward ht rfl
        · rename_i ht
          cases h
          exact forward ht rfl

variable (b : Broker)

inductive CourierStep (lane : Lane) : Broker → Prop
  | rest (hq : (b.queue lane).courier = .carrying []) :
    CourierStep lane (b.setCourier lane .waiting)
  | attempt {d : Delivery} {rest : List Delivery}
      (hq : (b.queue lane).courier = .carrying (d :: rest)) :
    CourierStep lane (b.attempt lane d rest)
  | stop (hq : (b.queue lane).courier = .waiting) (hc : b.cancelled = true) :
    CourierStep lane (b.stopCourier lane)
  | take {job : Job} {rest : List Job} (hq : (b.queue lane).courier = .waiting)
      (hc : b.cancelled = false) (hj : (b.queue lane).jobs = job :: rest) :
    CourierStep lane (b.takeJob lane job rest)

variable {b} in
theorem courierStep_cases {b' : Broker} {lane : Lane} (h : b.courierStep lane = some b') :
    b.CourierStep lane b' := by
  rw [courierStep] at h
  split at h
  · cases h
  · cases h
  · rename_i hq
    cases h
    exact .rest hq
  · rename_i hq
    cases h
    exact .attempt hq
  · rename_i hq
    split at h
    · rename_i hc
      cases h
      exact .stop hq hc
    · rename_i hc
      split at h
      · cases h
      · rename_i hj
        cases h
        exact .take hq (Bool.not_eq_true _ ▸ hc) hj

inductive PumpStep : Broker → Prop
  | rest (ha : b.sequencer.active = none) (hp : b.sequencer.pending = []) :
    PumpStep (b.setStage .listening)
  | start {c : Chain} {rest : List Chain} (ha : b.sequencer.active = none)
      (hp : b.sequencer.pending = c :: rest) : PumpStep (b.startChain c rest)
  | park {c : Chain} {r : SubscriberId} (ha : b.sequencer.active = some c)
      (hw : c.awaiting = some r) (hb : c.breaksDown b.now = false) :
    PumpStep (b.setStage .listening)
  | breakDown {c : Chain} (ha : b.sequencer.active = some c) (hb : c.breaksDown b.now = true) :
    PumpStep b.breakDown
  | finalize {c c' : Chain} {reason : FinishReason} (ha : b.sequencer.active = some c)
      (hw : c.awaiting = none) (hn : c.next b.now = (.finalize reason, c')) :
    PumpStep (b.finalize c' reason)
  | deliver {c c' : Chain} {i : Nat} {r : SubscriberId} (ha : b.sequencer.active = some c)
      (hw : c.awaiting = none) (hn : c.next b.now = (.deliver i r, c')) :
    PumpStep (b.deliverTo c' i r)

theorem pumpStep_cases : b.PumpStep b.pumpStep := by
  rw [pumpStep]
  cases ha : b.sequencer.active with
  | none =>
    cases hp : b.sequencer.pending with
    | nil => exact .rest ha hp
    | cons c rest => exact .start ha hp
  | some c =>
    dsimp only
    cases hw : c.awaiting with
    | some r =>
      have hb := c.breaksDown_of_awaiting hw b.now
      rw [Option.isSome_some, if_pos rfl]
      split
      · rename_i ho
        exact .breakDown ha (hb.trans ho)
      · rename_i ho
        exact .park ha hw (hb.trans (Bool.not_eq_true _ ▸ ho))
    | none =>
      rw [Option.isSome_none, if_neg Bool.false_ne_true]
      split
      · rename_i hn
        exact .finalize ha hw hn
      · rename_i hn
        exact .deliver ha hw hn
      · rename_i hn
        exact .breakDown ha (Chain.breaksDown_of_next hw hn)

def watchdogFired (c : Chain) : Broker :=
  let b := (b.setActive (some c.expire.2)).log (.watchdogFired c.event.name c.id c.watchdogBudget)
  let r : Record := { kind := .watchdogFired }
  let r := ((r.setEvent c.event.name).setChain c.id).setTimeout c.watchdogBudget
  (b.emit { r with subscriber := c.awaiting }).setStage .pumping

def receiverTimedOut (c : Chain) (receiver : SubscriberId) : Broker :=
  let b := (b.setActive (some c.expireReceiver.2)).log
    (.receiverTimedOut c.event.name c.id receiver)
  let r : Record := { kind := .receiverTimedOut }
  let r := (((r.setEvent c.event.name).setChain c.id).setSubscriber receiver).setTimeout
    c.receiverTimeout
  (b.emit r).setStage .pumping

inductive Sweep : Broker → Prop
  | watchdog {c : Chain} (ha : b.sequencer.active = some c)
      (hd : Chain.due c.watchdogDeadline b.now = true) : Sweep (b.watchdogFired c)
  | receiver {c : Chain} {r : SubscriberId} (ha : b.sequencer.active = some c)
      (hw : ¬Chain.due c.watchdogDeadline b.now = true)
      (hd : Chain.due c.receiverDeadline b.now = true) (hr : c.awaiting = some r) :
    Sweep (b.receiverTimedOut c r)
  | nobody {c : Chain} (ha : b.sequencer.active = some c)
      (hw : ¬Chain.due c.watchdogDeadline b.now = true)
      (hd : Chain.due c.receiverDeadline b.now = true) (hr : c.awaiting = none) :
    Sweep (b.setStage .pumping)

variable {b} in
theorem sweep_cases {b' : Broker} (h : b.sweep = some b') : b.Sweep b' := by
  rw [sweep] at h
  cases ha : b.sequencer.active with
  | none =>
    rw [ha] at h
    cases h
  | some c =>
    rw [ha] at h
    dsimp only at h
    split at h
    · rename_i hd
      cases h
      rw [c.fst_expire]
      exact .watchdog ha hd
    · rename_i hw
      split at h
      · rename_i hd
        cases hr : c.awaiting with
        | none =>
          rw [Chain.expireReceiver_of_not_awaiting hr] at h
          cases h
          exact .nobody ha hw hd hr
        | some r =>
          have hx : c.expireReceiver = (some r, c.expireReceiver.2) :=
            Prod.ext ((Chain.fst_expireReceiver c).trans hr) rfl
          rw [hx] at h
          cases h
          exact .receiver ha hw hd hr
      · cases h

variable {b} in
theorem not_due_of_sweep {c : Chain} (h : b.sweep = none) (ha : b.sequencer.active = some c) :
    ¬Chain.due c.watchdogDeadline b.now = true ∧ ¬Chain.due c.receiverDeadline b.now = true := by
  rw [sweep, ha] at h
  dsimp only at h
  split at h
  · cases h
  · rename_i hw
    split at h
    · split at h <;> cases h
    · rename_i hd
      exact ⟨hw, hd⟩

inductive SequencerStep : Broker → Prop
  | pump {b' : Broker} (hs : b.sequencer.stage = .pumping) (h : b.PumpStep b') : SequencerStep b'
  | stop (hs : b.sequencer.stage = .listening) (hc : b.cancelled = true) :
    SequencerStep b.stopSequencer
  | take {q : Command} {rest : List Command} (hs : b.sequencer.stage = .listening)
      (hc : b.cancelled = false) (hq : b.sequencer.commands = q :: rest) :
    SequencerStep (({ b with sequencer := { b.sequencer with commands := rest } }).handle q)
  | sweep {b' : Broker} (hs : b.sequencer.stage = .listening) (hc : b.cancelled = false)
      (hq : b.sequencer.commands = []) (h : b.sweep = some b') : SequencerStep b'

variable {b} {b' : Broker}

theorem sequencerStep_cases (h : b.sequencerStep = some b') : b.SequencerStep b' := by
  rw [sequencerStep] at h
  cases hs : b.sequencer.stage with
  | pumping =>
    rw [hs] at h
    cases h
    exact .pump hs b.pumpStep_cases
  | listening =>
    rw [hs] at h
    dsimp only at h
    split at h
    · rename_i hc
      cases h
      exact .stop hs hc
    · rename_i hc
      rw [Bool.not_eq_true] at hc
      split at h
      · rename_i hq
        cases h
        exact .take hs hc hq
      · rename_i hq
        exact .sweep hs hc hq h
  | _ =>
    rw [hs] at h
    cases h

/-- The sequencer breaks down when it next moves its chains on. -/
def breaks (b : Broker) : Bool := b.sequencer.active.any (·.breaksDown b.now)

theorem PumpStep.eq_breakDown (h : b.PumpStep b') (hb : b.breaks = true) : b' = b.breakDown := by
  obtain ⟨c, hc, hb⟩ := (Option.any_eq_true _ _).1 hb
  cases h with
  | rest ha | start ha => cases hc.symm.trans ha
  | park ha hw hn =>
    cases hc.symm.trans ha
    cases hb.symm.trans hn
  | breakDown => rfl
  | finalize ha hw hn | deliver ha hw hn =>
    cases hc.symm.trans ha
    rw [Chain.breaksDown_of_next hw hn] at hb
    simp at hb

theorem pumpStep_of_breaks (h : b.breaks = true) : b.pumpStep = b.breakDown :=
  b.pumpStep_cases.eq_breakDown h

end EventBroker.Broker
