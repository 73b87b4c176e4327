import EventBroker.Proofs.Effects.Acting

namespace EventBroker

namespace Chain

inductive Fresh : Chain → Prop
  | mk (id : ChainId) (copy : Copy) (sticky : Bool) (receivers : List SubscriberId)
      (receiverTimeout watchdogBudget : Duration) (finalReceiver : Option Receiver) :
    Fresh (.ofReceivers id copy sticky receivers receiverTimeout watchdogBudget finalReceiver)

structure Engaged (c : Chain) (i : Nat) : Prop where
  current : c.current = some i
  inside : i < c.receivers.length
  unsettled : c.deliveries[i]? = some .pending
  unaborted : c.abort = false
  unexpired : c.expired = false
  timed : c.receivingSince ≠ none

structure Sound (c : Chain) : Prop where
  sized : c.deliveries.length = c.receivers.length
  ahead : ∀ i, c.cursor ≤ i → i < c.receivers.length → c.deliveries[i]? = some .pending
  behind : ∀ i, c.current = some i → i < c.cursor
  begun : c.startedAt ≠ none
  engaged : c.state ≠ .idle → ∃ i, c.Engaged i

theorem Fresh.start {c : Chain} (h : c.Fresh) (now : Instant) :
    (c.start now).Sound ∧ (c.start now).state = .idle := by
  cases h with
  | mk id copy sticky receivers receiverTimeout watchdogBudget finalReceiver =>
    refine ⟨⟨?_, ?_, ?_, ?_, fun h => absurd rfl h⟩, rfl⟩
    · exact List.length_map _
    · intro i _ hi
      replace hi : i < receivers.length := hi
      change (receivers.map fun _ => DeliveryState.pending)[i]? = some .pending
      rw [List.getElem?_map, List.getElem?_eq_getElem hi]
      rfl
    · intro i hi
      cases hi
    · intro hb
      cases hb

namespace Sound

variable {c : Chain}

theorem awaiting (h : c.Sound) (hs : c.state = .received) : ∃ r, c.awaiting = some r := by
  obtain ⟨i, hi⟩ := h.engaged (by simp [hs])
  have hl := hi.inside
  refine ⟨c.receivers[i], ?_⟩
  rw [Chain.awaiting, if_pos hs, receiver?, hi.current]
  exact List.getElem?_eq_getElem hl

theorem settled (h : c.Sound) (how : DeliveryState) {c' : Chain}
    (hd : c'.deliveries = c.settled how) (hr : c'.receivers = c.receivers)
    (hc : c'.cursor = c.cursor) (hb : c'.startedAt = c.startedAt) (hn : c'.current = none)
    (hs : c'.state = .idle) : c'.Sound where
  sized := by
    rw [hd, hr, length_settled]
    exact h.sized
  ahead := by
    intro i hi hl
    rw [hc] at hi
    rw [hr] at hl
    rw [hd, settled_of_ne]
    · exact h.ahead i hi hl
    · intro he
      exact absurd (h.behind i he) (Nat.not_lt.2 hi)
  behind := by
    simp [hn]
  begun := by
    rw [hb]
    exact h.begun
  engaged := fun hi => absurd hs hi

theorem finish (h : c.Sound) {r : SubscriberId} (hr : c.awaiting = some r) (code : Int)
    (data : String) (abort : Bool) : (c.finish r code data abort).2.Sound := by
  rw [finish_of_awaiting hr]
  exact h.settled .delivered rfl rfl rfl rfl rfl rfl

theorem release (h : c.Sound) {r : SubscriberId} (hr : c.awaiting = some r) :
    c.release.2.Sound := by
  rw [release_of_awaiting hr]
  exact h.settled .delivered rfl rfl rfl rfl rfl rfl

theorem expireReceiver (h : c.Sound) {r : SubscriberId} (hr : c.awaiting = some r) :
    c.expireReceiver.2.Sound := by
  rw [expireReceiver_of_awaiting hr]
  exact h.settled .timeout rfl rfl rfl rfl rfl rfl

theorem expire (h : c.Sound) {r : SubscriberId} (hr : c.awaiting = some r) :
    c.expire.2.Sound := by
  rw [expire_of_awaiting hr]
  exact h.settled .timeout rfl rfl rfl rfl rfl rfl

theorem skip (h : c.Sound) : c.skip.Sound := by
  rw [skip_eq]
  exact h.settled .skipped rfl rfl rfl rfl rfl rfl

theorem next (h : c.Sound) {now : Instant} {i : Nat} {r : SubscriberId} {c' : Chain}
    (hn : c.next now = (.deliver i r, c')) : c'.Sound := by
  obtain ⟨-, -, -, -, -, rfl⟩ := next_deliver hn
  refine ⟨h.sized, ?_, ?_, h.begun, fun hs => absurd rfl hs⟩
  · intro j hj hl
    exact h.ahead j (Nat.le_of_succ_le hj) hl
  · intro j hj
    cases hj
    exact Nat.lt_succ_self _

theorem beginReceiving (h : c.Sound) {now : Instant} {i : Nat} {r : SubscriberId} {c' : Chain}
    (hn : c.next now = (.deliver i r, c')) : (c'.beginReceiving now).Sound := by
  have h' := h.next hn
  obtain ⟨ha, he, -, -, hr, rfl⟩ := next_deliver hn
  have hl := (List.getElem?_eq_some_iff.1 hr).1
  refine ⟨h'.sized, h'.ahead, h'.behind, h'.begun, fun _ => ⟨c.cursor, ?_⟩⟩
  exact ⟨rfl, hl, h.ahead c.cursor (Nat.le_refl _) hl, ha, he, by simp [Chain.beginReceiving]⟩

theorem handedOff (h : c.Sound) (hs : c.state = .receiving) :
    c.handedOff.Sound ∧ c.handedOff.state = .received := by
  rw [Chain.handedOff, if_pos hs]
  refine ⟨⟨h.sized, h.ahead, h.behind, h.begun, fun _ => ?_⟩, rfl⟩
  obtain ⟨i, hi⟩ := h.engaged (by simp [hs])
  exact ⟨i, hi.current, hi.inside, hi.unsettled, hi.unaborted, hi.unexpired, hi.timed⟩

end Sound

end Chain

def Sequencer.Staged (s : Sequencer) : Prop :=
  match s.stage with
  | .listening => s.active = none ∧ s.pending = [] ∨ ∃ c, s.active = some c ∧ c.state = .received
  | .pumping => ∀ c, s.active = some c → c.state ≠ .receiving
  | .handing n _ => n.subscriber ≠ none ∧ ∃ c, s.active = some c ∧ c.state = .receiving
  | .closing _ _ _ => s.active = none
  | .stopped => True

structure Sequencer.Sound (s : Sequencer) : Prop where
  sent : ∀ q ∈ s.commands, ∀ c, q.chain? = some c → c.Fresh
  queued : ∀ c ∈ s.pending, c.Fresh
  active : ∀ c, s.active = some c → c.Sound
  staged : s.Staged

namespace Sequencer.Sound

theorem empty : Sequencer.Sound {} where
  sent := by simp
  queued := by simp
  active := by simp
  staged := .inl ⟨rfl, rfl⟩

variable {s : Sequencer}

theorem sendAll (h : s.Sound) {cs : List Command}
    (hcs : ∀ q ∈ cs, ∀ c, q.chain? = some c → c.Fresh) :
    Sequencer.Sound { s with commands := s.commands ++ cs } where
  sent := by
    intro q hm
    cases List.mem_append.1 hm with
    | inl hm => exact h.sent q hm
    | inr hm => exact hcs q hm
  queued := h.queued
  active := h.active
  staged := h.staged

theorem parked (h : s.Sound) (hs : s.stage = .listening) :
    s.active = none ∧ s.pending = [] ∨ ∃ c, s.active = some c ∧ c.state = .received := by
  have hst := h.staged
  rw [Staged, hs] at hst
  exact hst

theorem moving (h : s.Sound) (hs : s.stage = .pumping) :
    ∀ c, s.active = some c → c.state ≠ .receiving := by
  have hst := h.staged
  rw [Staged, hs] at hst
  exact hst

theorem handing (h : s.Sound) {n : Notice} {i : Nat} (hs : s.stage = .handing n i) :
    n.subscriber ≠ none ∧ ∃ c, s.active = some c ∧ c.state = .receiving := by
  have hst := h.staged
  rw [Staged, hs] at hst
  exact hst

theorem closing (h : s.Sound) {n : Notice} {c : Chain} {reason : FinishReason}
    (hs : s.stage = .closing n c reason) : s.active = none := by
  have hst := h.staged
  rw [Staged, hs] at hst
  exact hst

theorem pump {c : Chain} (hs : s.stage = .pumping)
    (sent : ∀ q ∈ s.commands, ∀ c, q.chain? = some c → c.Fresh)
    (queued : ∀ c ∈ s.pending, c.Fresh) (hc : s.active = some c) (sound : c.Sound)
    (state : c.state = .idle) : s.Sound where
  sent := sent
  queued := queued
  active := by
    intro c' hc'
    cases hc.symm.trans hc'
    exact sound
  staged := by
    rw [Staged, hs]
    intro c' hc'
    cases hc.symm.trans hc'
    simp [state]

theorem vacate (sent : ∀ q ∈ s.commands, ∀ c, q.chain? = some c → c.Fresh)
    (queued : ∀ c ∈ s.pending, c.Fresh) (hc : s.active = none) (staged : s.Staged) : s.Sound where
  sent := sent
  queued := queued
  active := by
    intro c hc'
    rw [hc] at hc'
    cases hc'
  staged := staged

theorem staged_pumping (hs : s.stage = .pumping) (hc : s.active = none) : s.Staged := by
  simp [Staged, hs, hc]

theorem awaiting (h : s.Sound) (hs : s.stage = .listening) {c : Chain} (hc : s.active = some c) :
    ∃ r, c.awaiting = some r := by
  cases h.parked hs with
  | inl hp =>
    rw [hp.1] at hc
    cases hc
  | inr hp =>
    obtain ⟨c', hc', hr⟩ := hp
    cases hc'.symm.trans hc
    exact (h.active c hc).awaiting hr

theorem moves {v v' : View} {evs : List ChainEvent} (hm : v.Moves evs v')
    (h : v.sequencer.Sound) : v'.sequencer.Sound := by
  have left : ∀ {q : Command} {rest : List Command}, v.sequencer.commands = q :: rest →
      ∀ q' ∈ rest, ∀ c, q'.chain? = some c → c.Fresh := by
    intro q rest hq q' hm
    exact h.sent q' (hq ▸ List.mem_cons_of_mem q hm)
  cases hm with
  | stop hs hc => exact ⟨by simp, h.queued, h.active, trivial⟩
  | @enqueue c rest hs hq =>
    refine ⟨left hq, ?_, h.active, ?_⟩
    · intro c' hc'
      cases List.mem_append.1 hc' with
      | inl hc' => exact h.queued c' hc'
      | inr hc' =>
        cases List.mem_singleton.1 hc'
        exact h.sent _ (hq ▸ List.mem_cons_self) _ rfl
    · intro c' hc'
      obtain ⟨r, hr⟩ := h.awaiting hs hc'
      simp [Chain.received_of_awaiting hr]
  | ignore hs hq hn ha => exact ⟨left hq, h.queued, h.active, h.staged⟩
  | accept hs hc hq ha hr =>
    refine pump rfl (left hq) h.queued rfl ((h.active _ ha).finish hr _ _ _) ?_
    rw [Chain.finish_of_awaiting hr]
  | release hs hq ha hr =>
    refine pump rfl (left hq) h.queued rfl ((h.active _ ha).release hr) ?_
    rw [Chain.release_of_awaiting hr]
  | expire hs hq ha hd =>
    obtain ⟨r, hr⟩ := h.awaiting hs ha
    refine pump rfl h.sent h.queued rfl ((h.active _ ha).expire hr) ?_
    rw [Chain.expire_of_awaiting hr]
  | expireReceiver hs hq ha hd =>
    obtain ⟨r, hr⟩ := h.awaiting hs ha
    refine pump rfl h.sent h.queued rfl ((h.active _ ha).expireReceiver hr) ?_
    rw [Chain.expireReceiver_of_awaiting hr]
  | rest hs ha hp => exact ⟨h.sent, h.queued, h.active, .inl ⟨ha, hp⟩⟩
  | @start c rest hs ha hp =>
    obtain ⟨sound, state⟩ := (h.queued c (hp ▸ List.mem_cons_self)).start v.now
    refine pump hs h.sent ?_ rfl sound state
    intro c' hc'
    exact h.queued c' (hp ▸ List.mem_cons_of_mem c hc')
  | park hs ha hr =>
    exact ⟨h.sent, h.queued, h.active, .inr ⟨_, ha, Chain.received_of_awaiting hr⟩⟩
  | breakDown hs ha hb => exact ⟨by simp, h.queued, h.active, trivial⟩
  | pass hs ha hw hn he =>
    exact pump hs h.sent h.queued rfl ((h.active _ ha).next hn).skip rfl
  | hold hs ha hw hn he hf =>
    exact pump hs h.sent h.queued rfl ((h.active _ ha).next hn).skip rfl
  | hand hs ha hw hn he hf =>
    refine ⟨h.sent, h.queued, ?_, ⟨by simp [Chain.notice], _, rfl, rfl⟩⟩
    intro c hc
    cases hc
    exact (h.active _ ha).beginReceiving hn
  | finish hs ha hw hn hf => exact vacate h.sent h.queued rfl (staged_pumping rfl rfl)
  | close hs ha hw hn hf => exact vacate h.sent h.queued rfl rfl
  | parked hs ha hn =>
    obtain ⟨-, c', hc', state⟩ := h.handing hs
    cases hc'.symm.trans ha
    obtain ⟨sound, state⟩ := (h.active _ ha).handedOff state
    refine ⟨h.sent, h.queued, ?_, .inr ⟨_, rfl, state⟩⟩
    intro c hc
    cases hc
    exact sound
  | overrun hs ha hn =>
    obtain ⟨-, c', hc', state⟩ := h.handing hs
    cases hc'.symm.trans ha
    obtain ⟨sound, state⟩ := (h.active _ ha).handedOff state
    refine ⟨h.sent, h.queued, ?_, ?_⟩
    · intro c hc
      cases hc
      exact sound
    · intro c hc
      cases hc
      simp [state]
  | failed hs ha hn => exact pump rfl h.sent h.queued rfl (h.active _ ha).skip rfl
  | stray hs hn =>
    obtain ⟨hsub, c, hc, -⟩ := h.handing hs
    cases hn with
    | inl hn =>
      rw [hn] at hc
      cases hc
    | inr hn => exact absurd hn hsub
  | closed hs =>
    exact vacate h.sent h.queued (h.closing hs) (staged_pumping rfl (h.closing hs))

end Sequencer.Sound

namespace View

theorem Queues.sends {v w : View} {p : Publication} {matched : List Subscriber}
    {finalReceiver : Option Receiver} {chain : Option ChainId}
    (h : v.Queues p matched finalReceiver chain w) :
    w.sequencer = v.sequencer ∨ ∃ c, Chain.Fresh c ∧ w.sequencer =
      { v.sequencer with commands := v.sequencer.commands ++ [.enqueue c] } := by
  cases h with
  | nothing hm hf => exact .inl rfl
  | chain ho hm hs => exact .inr ⟨_, .mk .., rfl⟩
  | job ho hm => exact .inl rfl

theorem Request.sends {v w : View} {a : Option Admission} (h : v.Request a w) :
    ∃ cs : List Command, (∀ q ∈ cs, ∀ c, q.chain? = some c → c.Fresh) ∧
      w.sequencer = { v.sequencer with commands := v.sequencer.commands ++ cs } := by
  have silent : ∀ {w : View}, w.sequencer = v.sequencer →
      ∃ cs : List Command, (∀ q ∈ cs, ∀ c, q.chain? = some c → c.Fresh) ∧
        w.sequencer = { v.sequencer with commands := v.sequencer.commands ++ cs } := by
    intro w hw
    exact ⟨[], by simp, by rw [hw, List.append_nil]⟩
  cases h with
  | publish hn hm hq =>
    cases hq.sends with
    | inl h => exact silent h
    | inr h =>
      obtain ⟨c, hc, hs⟩ := h
      refine ⟨[.enqueue c], ?_, hs⟩
      intro q hq c' hc'
      cases List.mem_singleton.1 hq
      cases hc'
      exact hc
  | leave gone cleared hcs =>
    refine ⟨_, ?_, rfl⟩
    intro q hq c hc
    rw [hcs q hq] at hc
    cases hc
  | _ => exact silent rfl

end View

instance SequencerStage.decidableListening : (s : SequencerStage) → Decidable (s = .listening)
  | .listening => isTrue rfl
  | .pumping | .handing _ _ | .closing _ _ _ | .stopped => isFalse (by simp)

instance SequencerStage.decidablePumping : (s : SequencerStage) → Decidable (s = .pumping)
  | .pumping => isTrue rfl
  | .listening | .handing _ _ | .closing _ _ _ | .stopped => isFalse (by simp)

instance SequencerStage.decidableStopped : (s : SequencerStage) → Decidable (s = .stopped)
  | .stopped => isTrue rfl
  | .listening | .pumping | .handing _ _ | .closing _ _ _ => isFalse (by simp)

namespace Broker

theorem act_sends {b : Broker} {a : Action} (h : sequencing a = false) :
    ∃ cs : List Command, (∀ q ∈ cs, ∀ c, q.chain? = some c → c.Fresh) ∧
      (b.act a).sequencer = { b.sequencer with commands := b.sequencer.commands ++ cs } := by
  cases hi : isWork a with
  | false => exact (b.act_request hi).sends
  | true =>
    have hw : a ≠ .work .sequencer := by
      rintro rfl
      cases h
    have hc : ∀ reception, a ≠ .handedOff .sequencer reception := by
      rintro result rfl
      cases h
    have same : (b.act a).sequencer = b.sequencer := by
      cases b.act_carries hi hw hc with
      | inl hv => exact congrArg View.sequencer hv
      | inr hv =>
        obtain ⟨lane, hv⟩ := hv
        exact hv.sequencer_eq
    refine ⟨[], by simp, ?_⟩
    rw [same, List.append_nil]

/-- The brokers that a run of the sequencer goes through. Commands come in any order, hand-offs end
in any way, and the rest of the broker changes as it likes. -/
inductive Driven : Broker → Prop
  | start {b : Broker} (h : b.sequencer = {}) : Driven b
  | send {b : Broker} (h : Driven b) (q : Command) (hq : ∀ c, q.chain? = some c → c.Fresh) :
    Driven (b.send q)
  | step {b b' : Broker} (h : Driven b) (hb : b.sequencerStep = some b') : Driven b'
  | handedOff {b : Broker} (h : Driven b) (result : Except DeliveryError Unit) :
    Driven (b.sequencerConclude result)
  | elsewhere {b b' : Broker} (h : Driven b) (hb : b'.sequencer = b.sequencer) : Driven b'

namespace Driven

variable {b : Broker}

theorem sound (h : b.Driven) : b.sequencer.Sound := by
  induction h with
  | start h =>
    rw [h]
    exact .empty
  | @send b h q hq ih =>
    have hs : (b.send q).sequencer = { b.sequencer with commands := b.sequencer.commands ++ [q] } :=
      rfl
    rw [hs]
    apply ih.sendAll
    intro q' hq'
    cases List.mem_singleton.1 hq'
    exact hq
  | step h hb ih =>
    obtain ⟨evs, hm⟩ := sequencerStep_moves hb
    exact Sequencer.Sound.moves hm ih
  | @handedOff b h result ih =>
    cases b.sequencerConclude_moves result with
    | inl hv =>
      have hs : (b.sequencerConclude result).sequencer = b.sequencer := congrArg View.sequencer hv
      rw [hs]
      exact ih
    | inr hm =>
      obtain ⟨-, evs, hm⟩ := hm
      exact Sequencer.Sound.moves hm ih
  | elsewhere h hb ih =>
    rw [hb]
    exact ih

theorem sendAll (h : b.Driven) {cs : List Command}
    (hcs : ∀ q ∈ cs, ∀ c, q.chain? = some c → c.Fresh) : (cs.foldl Broker.send b).Driven := by
  induction cs generalizing b with
  | nil => exact h
  | cons q rest ih =>
    exact ih (h.send q (hcs q List.mem_cons_self)) fun q' hq' =>
      hcs q' (List.mem_cons_of_mem q hq')

theorem sequencer_sendAll (cs : List Command) (b : Broker) :
    (cs.foldl Broker.send b).sequencer =
      { b.sequencer with commands := b.sequencer.commands ++ cs } := by
  induction cs generalizing b with
  | nil => simp
  | cons q rest ih =>
    rw [List.foldl_cons, ih]
    simp [Broker.send, Broker.note]

theorem act (h : b.Driven) (a : Action) : (b.act a).Driven := by
  cases hs : sequencing a with
  | false =>
    obtain ⟨cs, hcs, hs⟩ := act_sends hs
    exact (h.sendAll hcs).elsewhere (hs.trans (sequencer_sendAll cs b).symm)
  | true =>
    rw [sequencing.eq_def] at hs
    split at hs
    · change ((b.work .sequencer).getD b).Driven
      cases hb : b.work .sequencer with
      | none => exact h
      | some b' => exact h.step hb
    · exact h.handedOff _
    · cases hs

theorem run (h : b.Driven) (actions : List Action) : (b.run actions).Driven := by
  induction actions generalizing b with
  | nil => exact h
  | cons a rest ih => exact ih (h.act a)

/-- While the sequencer listens there is nothing left to do, or the active chain is parked on one of
its receivers and wakes the sequencer when the first of its deadlines comes. -/
theorem at_rest (h : b.Driven) (hs : b.sequencer.stage = .listening) :
    b.sequencer.active = none ∧ b.sequencer.pending = [] ∨
      ∃ c, b.sequencer.active = some c ∧ c.state = .received ∧
        (∃ i, c.current = some i ∧ i < c.receivers.length ∧ c.deliveries[i]? = some .pending) ∧
        c.abort = false ∧ c.expired = false ∧
        ∃ receiver chain : Instant, c.receiverDeadline = some receiver ∧
          c.watchdogDeadline = some chain ∧ b.nextWake = some (min receiver chain) := by
  cases h.sound.parked hs with
  | inl hp => exact .inl hp
  | inr hp =>
    obtain ⟨c, hc, state⟩ := hp
    have sound := h.sound.active c hc
    obtain ⟨i, hi⟩ := sound.engaged (by simp [state])
    obtain ⟨since, hsince⟩ := Option.ne_none_iff_exists'.1 hi.timed
    obtain ⟨begun, hbegun⟩ := Option.ne_none_iff_exists'.1 sound.begun
    have hr : c.receiverDeadline = some (since.after c.receiverTimeout) := by
      rw [Chain.receiverDeadline, if_pos state, hsince]
      rfl
    have hw : c.watchdogDeadline = some (begun.after c.watchdogBudget) := by
      rw [Chain.watchdogDeadline, hbegun]
      rfl
    refine .inr ⟨c, hc, state, ⟨i, hi.current, hi.inside, hi.unsettled⟩, hi.unaborted,
      hi.unexpired, _, _, hr, hw, ?_⟩
    rw [nextWake, hc, Option.bind_some, hr, hw]

end Driven

def joining : Action := .subscribe { interest := { events := .ofList ["door"] }, owner := default }

def ringing : Action :=
  .publish { event := .named "door", publisher := default, options := { ordered := true } }

def handover : List Action :=
  [joining, ringing, .work .sequencer, .work .sequencer, .work .sequencer,
    .handedOff .sequencer (.returned (.ok ()))]

theorem Driven.handover_at_rest :
    ((Broker.start {} .allowAll (fun _ => none) []).run handover).sequencer.stage = .listening ∧
      ((Broker.start {} .allowAll (fun _ => none) []).run handover).sequencer.active.isSome ∧
      ∃ t, ((Broker.start {} .allowAll (fun _ => none) []).run handover).nextWake = some t := by
  have hs : ((Broker.start {} .allowAll (fun _ => none) []).run handover).sequencer.stage =
      .listening := by
    decide +kernel
  have ha :
      ((Broker.start {} .allowAll (fun _ => none) []).run handover).sequencer.active.isSome := by
    decide +kernel
  refine ⟨hs, ha, ?_⟩
  cases at_rest (Driven.run (.start rfl) handover) hs with
  | inl h =>
    rw [h.1] at ha
    cases ha
  | inr h =>
    obtain ⟨c, -, -, -, -, -, receiver, chain, -, -, hw⟩ := h
    exact ⟨_, hw⟩

end Broker

end EventBroker
