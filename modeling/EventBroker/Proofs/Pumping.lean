import EventBroker.Proofs.Subsiding

namespace EventBroker

namespace Chain

def unvisited (c : Chain) : List SubscriberId := c.receivers.drop c.cursor

def stepsLeft (c : Chain) : Nat := c.unvisited.length + 1

variable {c c' : Chain} {i : Nat} {r : SubscriberId} {now : Instant}

theorem stepsLeft_next (h : c.next now = (.deliver i r, c')) : c'.stepsLeft + 1 = c.stepsLeft := by
  obtain ⟨-, -, -, -, hr, rfl⟩ := next_deliver h
  have hl := (List.getElem?_eq_some_iff.1 hr).1
  simp only [stepsLeft, unvisited, List.length_drop]
  omega

theorem stepsLeft_skip (c : Chain) : c.skip.stepsLeft = c.stepsLeft := by
  rw [skip_eq]
  rfl

theorem stepsLeft_handedOff (c : Chain) : c.handedOff.stepsLeft = c.stepsLeft := by
  rw [handedOff]
  split <;> rfl

end Chain

namespace SequencerStage

def movedBy : SequencerStage → Action → Bool
  | .pumping, .work .sequencer => true
  | .handing _ _, .handedOff .sequencer _ => true
  | .closing _ _ _, .handedOff .sequencer _ => true
  | _, _ => false

end SequencerStage

namespace Sequencer

variable (s : Sequencer)

def chains : List Chain := s.active.toList ++ s.pending

def stepsLeft : Nat :=
  match s.stage with
  | .stopped => 0
  | _ => (s.chains.map Chain.stepsLeft).sum

def asks : Bool :=
  match s.stage, s.active with
  | .pumping, some c => c.awaiting.isNone
  | _, _ => false

/-- The sequencer waits for a signal again: nothing is left to do, or a receiver is awaited. -/
def Returned : Prop :=
  s.stage = .listening ∧
    (s.active = none ∧ s.pending = [] ∨ ∃ c r, s.active = some c ∧ c.awaiting = some r)

/-- The sequencer has stopped over its active chain, a deadline of which the clock cannot tell. -/
def BrokenDown : Prop := s.stage = .stopped ∧ ∃ c, s.active = some c ∧ c.overruns = true

inductive Underway : Prop
  | pumping (h : s.stage = .pumping)
  | handing {n : Notice} {i : Nat} {c : Chain} {r : SubscriberId} (h : s.stage = .handing n i)
      (ha : s.active = some c) (hs : c.state = .receiving) (hr : c.receiver? = some r)
      (hn : n.subscriber ≠ none)
  | closing {n : Notice} {c : Chain} {reason : FinishReason} (h : s.stage = .closing n c reason)

inductive Pumps : Bool → Sequencer → Prop
  | rest (h : s.stage = .pumping) (ha : s.active = none) (hp : s.pending = []) :
    Pumps false { s with stage := .listening }
  | start {c : Chain} {rest : List Chain} (h : s.stage = .pumping) (ha : s.active = none)
      (hp : s.pending = c :: rest) (now : Instant) :
    Pumps false { s with pending := rest, active := some (c.start now) }
  | park {c : Chain} {r : SubscriberId} (h : s.stage = .pumping) (ha : s.active = some c)
      (hr : c.awaiting = some r) :
    Pumps false { s with stage := .listening }
  | breakDown {c : Chain} {now : Instant} (h : s.stage = .pumping) (ha : s.active = some c)
      (hb : c.breaksDown now = true) :
    Pumps c.awaiting.isNone { s with commands := [], stage := .stopped }
  | skip {c c' : Chain} {i : Nat} {r : SubscriberId} {now : Instant} (h : s.stage = .pumping)
      (ha : s.active = some c) (hw : c.awaiting = none) (hn : c.next now = (.deliver i r, c')) :
    Pumps true { s with active := some c'.skip }
  | hand {c c' : Chain} {i : Nat} {r : SubscriberId} {now : Instant} {n : Notice}
      (h : s.stage = .pumping) (ha : s.active = some c) (hw : c.awaiting = none)
      (hn : c.next now = (.deliver i r, c')) (hs : n.subscriber ≠ none) :
    Pumps true { s with active := some (c'.beginReceiving now), stage := .handing n i }
  | finish {c : Chain} (h : s.stage = .pumping) (ha : s.active = some c)
      (hw : c.awaiting = none) :
    Pumps true { s with active := none, stage := .pumping }
  | close {c c' : Chain} {reason : FinishReason} {n : Notice} (h : s.stage = .pumping)
      (ha : s.active = some c) (hw : c.awaiting = none) :
    Pumps true { s with active := none, stage := .closing n c' reason }
  | parked {n : Notice} {i : Nat} {c : Chain} {r : SubscriberId} (h : s.stage = .handing n i)
      (ha : s.active = some c) (hs : c.state = .receiving) (hr : c.receiver? = some r) :
    Pumps false { s with active := some c.handedOff, stage := .listening }
  | overrun {n : Notice} {i : Nat} {c : Chain} (h : s.stage = .handing n i)
      (ha : s.active = some c) :
    Pumps false { s with active := some c.handedOff, stage := .pumping }
  | failed {n : Notice} {i : Nat} {c : Chain} (h : s.stage = .handing n i)
      (ha : s.active = some c) :
    Pumps false { s with active := some c.skip, stage := .pumping }
  | closed {n : Notice} {c : Chain} {reason : FinishReason} (h : s.stage = .closing n c reason) :
    Pumps false { s with stage := .pumping }

/-- How many moves are left at most. A next step counts twice, since the hand-off that it may begin
has to end as well, and a chain that waits has to become the active one. -/
def movesLeft : Nat := 2 * s.stepsLeft + s.pending.length + s.stage.work

variable {s} {s' : Sequencer} {asked : Bool}

theorem sum_chains (s : Sequencer) : (s.chains.map Chain.stepsLeft).sum =
    s.active.elim 0 Chain.stepsLeft + (s.pending.map Chain.stepsLeft).sum := by
  rw [chains, List.map_append, List.sum_append]
  cases s.active <;> rfl

theorem stepsLeft_le (s : Sequencer) : s.stepsLeft ≤ (s.chains.map Chain.stepsLeft).sum := by
  rw [stepsLeft]
  split
  · exact Nat.zero_le _
  · exact Nat.le_refl _

theorem stepsLeft_eq_sum (h : s.stage ≠ .stopped) :
    s.stepsLeft = (s.chains.map Chain.stepsLeft).sum := by
  rw [stepsLeft]
  split
  · contradiction
  · rfl

theorem Underway.of_handing (hu : s.Underway) {n : Notice} {i : Nat} (h : s.stage = .handing n i) :
    n.subscriber ≠ none ∧
      ∃ c r, s.active = some c ∧ c.state = .receiving ∧ c.receiver? = some r := by
  cases hu with
  | handing h' ha hs hr hn =>
    cases h.symm.trans h'
    exact ⟨hn, _, _, ha, hs, hr⟩
  | pumping h' | closing h' => cases h.symm.trans h'

theorem Underway.not_listening (hu : s.Underway) : s.stage ≠ .listening := by
  intro h
  cases hu with
  | pumping h' | handing h' | closing h' => cases h.symm.trans h'

theorem Underway.not_stopped (hu : s.Underway) : s.stage ≠ .stopped := by
  intro h
  cases hu with
  | pumping h' | handing h' | closing h' => cases h.symm.trans h'

theorem Underway.queue (hu : s.Underway) (commands : List Command) :
    { s with commands }.Underway := by
  cases hu with
  | pumping h => exact .pumping h
  | handing h ha hs hr hn => exact .handing h ha hs hr hn
  | closing h => exact .closing h

namespace Pumps

theorem asked_eq (h : s.Pumps asked s') : asked = s.asks := by
  cases h with
  | rest h ha hp | start h ha | breakDown h ha => simp [asks, h, ha]
  | park h ha hr => simp [asks, h, ha, hr]
  | skip h ha hw | hand h ha hw | finish h ha hw | close h ha hw => simp [asks, h, ha, hw]
  | parked h | overrun h | failed h | closed h => simp [asks, h]

theorem running (h : s.Pumps asked s') : s.stage ≠ .stopped := by
  cases h <;> simp [*]

theorem stepsLeft_le (h : s.Pumps asked s') : s'.stepsLeft + asked.toNat ≤ s.stepsLeft := by
  have hle := Nat.add_le_add_right s'.stepsLeft_le asked.toNat
  rw [sum_chains] at hle
  rw [stepsLeft_eq_sum h.running, sum_chains]
  cases h with
  | rest | park | closed => exact hle
  | @breakDown c now h ha hb =>
    have hpos : 1 ≤ c.stepsLeft := Nat.le_add_left 1 _
    have hasked := c.awaiting.isNone.toNat_le
    rw [ha, Option.elim_some]
    change 0 + c.awaiting.isNone.toNat ≤ _
    omega
  | start h ha hp now =>
    refine Nat.le_trans hle ?_
    rw [ha, hp, List.map_cons, List.sum_cons, Option.elim_none, Nat.zero_add]
    exact Nat.le_refl _
  | @skip c c' i r now h ha hw hn =>
    have hstep := Chain.stepsLeft_next hn
    have hskip := c'.stepsLeft_skip
    simp only [ha, Option.elim_some, Bool.toNat_true] at hle ⊢
    omega
  | @hand c c' i r now n h ha hw hn hs =>
    have hstep := Chain.stepsLeft_next hn
    have hbegin : (c'.beginReceiving now).stepsLeft = c'.stepsLeft := rfl
    simp only [ha, Option.elim_some, Bool.toNat_true] at hle ⊢
    omega
  | @finish c h ha hw | @close c _ _ _ h ha hw =>
    have hpos : 1 ≤ c.stepsLeft := Nat.le_add_left 1 _
    simp only [ha, Option.elim_none, Option.elim_some, Bool.toNat_true] at hle ⊢
    omega
  | @parked n i c r h ha | @overrun n i c h ha =>
    rw [ha, Option.elim_some, ← c.stepsLeft_handedOff]
    exact hle
  | @failed n i c h ha =>
    rw [ha, Option.elim_some, ← c.stepsLeft_skip]
    exact hle

theorem movesLeft_lt (h : s.Pumps asked s') : s'.movesLeft < s.movesLeft := by
  have hsteps := h.stepsLeft_le
  rw [movesLeft, movesLeft]
  cases h with
  | rest h | park h | parked h | overrun h | failed h | closed h =>
    simp only [Bool.toNat_false, h, SequencerStage.work] at hsteps ⊢
    omega
  | breakDown h =>
    simp only [h, SequencerStage.work]
    omega
  | start h ha hp now =>
    simp only [Bool.toNat_false, h, hp, List.length_cons] at hsteps ⊢
    omega
  | skip h | hand h | finish h | close h =>
    simp only [Bool.toNat_true, h, SequencerStage.work] at hsteps ⊢
    omega

theorem stage_of_not_asked (h : s.Pumps false s') :
    s'.stage = .listening ∨ s'.stage = .pumping ∨ s'.stage = .stopped := by
  generalize hasked : false = asked at h
  cases h with
  | rest | park | parked => exact .inl rfl
  | start h => exact .inr (.inl h)
  | overrun | failed | closed => exact .inr (.inl rfl)
  | breakDown => exact .inr (.inr rfl)
  | skip | hand | finish | close => cases hasked

theorem ends (h : s.Pumps asked s') : s'.Underway ∨ s'.Returned ∨ s'.BrokenDown := by
  cases h with
  | rest h ha hp => exact .inr (.inl ⟨rfl, .inl ⟨ha, hp⟩⟩)
  | park h ha hr => exact .inr (.inl ⟨rfl, .inr ⟨_, _, ha, hr⟩⟩)
  | breakDown h ha hb => exact .inr (.inr ⟨rfl, _, ha, Chain.overruns_of_breaksDown hb⟩)
  | start h | skip h => exact .inl (.pumping h)
  | finish | overrun | failed | closed => exact .inl (.pumping rfl)
  | close => exact .inl (.closing rfl)
  | hand h ha hw hn hs =>
    obtain ⟨-, -, -, -, hr, rfl⟩ := Chain.next_deliver hn
    exact .inl (.handing rfl rfl rfl hr hs)
  | @parked n i c r h ha hs hr =>
    refine .inr (.inl ⟨rfl, .inr ⟨_, r, rfl, ?_⟩⟩)
    rw [Chain.handedOff, if_pos hs]
    exact (if_pos rfl).trans hr

end Pumps

end Sequencer

namespace View

variable {v w : View} {evs : List ChainEvent}

theorem Moves.pumps (h : v.Moves evs w) (hu : v.sequencer.Underway) :
    ∃ asked, v.sequencer.Pumps asked w.sequencer := by
  cases h with
  | stop h | enqueue h | ignore h | accept h | release h | expire h | expireReceiver h =>
    exact absurd h hu.not_listening
  | rest h ha hp => exact ⟨_, .rest h ha hp⟩
  | start h ha hp => exact ⟨_, .start h ha hp v.now⟩
  | park h ha hr => exact ⟨_, .park h ha hr⟩
  | breakDown h ha hb => exact ⟨_, .breakDown h ha hb⟩
  | pass h ha hw hn => exact ⟨_, .skip h ha hw hn⟩
  | hold h ha hw hn => exact ⟨_, .skip h ha hw hn⟩
  | hand h ha hw hn => exact ⟨_, .hand h ha hw hn nofun⟩
  | finish h ha hw => exact ⟨_, .finish h ha hw⟩
  | close h ha hw => exact ⟨_, .close h ha hw⟩
  | parked h ha =>
    obtain ⟨-, c, r, hc, hs, hr⟩ := hu.of_handing h
    cases ha.symm.trans hc
    exact ⟨_, .parked h ha hs hr⟩
  | overrun h ha => exact ⟨_, .overrun h ha⟩
  | failed h ha => exact ⟨_, .failed h ha⟩
  | stray h hs =>
    obtain ⟨hn, c, r, hc, -⟩ := hu.of_handing h
    cases hs with
    | inl ha => cases ha.symm.trans hc
    | inr hs => exact absurd hs hn
  | closed h => exact ⟨_, .closed h⟩

end View

namespace Broker

variable (b : Broker)

def asksNext : Action → Bool
  | .work .sequencer => b.sequencer.asks
  | _ => false

def handsOver (a : Action) : Bool :=
  (b.handoff? .sequencer).isNone && ((b.act a).handoff? .sequencer).isSome

variable {b} {a : Action}

theorem moves_of_movedBy (h : b.sequencer.stage.movedBy a = true) :
    ∃ evs, b.view.Moves evs (b.act a).view := by
  rw [SequencerStage.movedBy.eq_def] at h
  split at h
  · rename_i hs
    have hb : b.work .sequencer = some b.pumpStep := by
      change b.sequencerStep = _
      rw [sequencerStep, hs]
    change ∃ evs, b.view.Moves evs ((b.work .sequencer).getD b).view
    rw [hb]
    exact b.pumpStep_cases.moves hs
  · rename_i n i reception hs
    exact b.handing_moves hs reception.result
  · rename_i n c reason reception hs
    exact b.closing_moves hs reception.result
  · cases h

theorem asksNext_of_movedBy (h : b.sequencer.stage.movedBy a = true) :
    b.asksNext a = b.sequencer.asks := by
  rw [SequencerStage.movedBy.eq_def] at h
  split at h
  · rfl
  · rename_i hs
    simp [asksNext, Sequencer.asks, hs]
  · rename_i hs
    simp [asksNext, Sequencer.asks, hs]
  · cases h

theorem act_pumps (hu : b.sequencer.Underway) (h : b.sequencer.stage.movedBy a = true) :
    b.sequencer.Pumps (b.asksNext a) (b.act a).sequencer := by
  obtain ⟨evs, hm⟩ := moves_of_movedBy h
  obtain ⟨asked, hp⟩ := hm.pumps hu
  rw [asksNext_of_movedBy h, ← show asked = b.sequencer.asks from hp.asked_eq]
  exact hp

theorem act_stays (hu : b.sequencer.Underway) (h : b.sequencer.stage.movedBy a = false) :
    ∃ commands, (b.act a).sequencer = { b.sequencer with commands } := by
  cases hs : sequencing a with
  | false =>
    obtain ⟨cs, -, hs⟩ := act_sends hs
    exact ⟨_, hs⟩
  | true =>
    rw [sequencing.eq_def] at hs
    split at hs
    · have hb : b.work .sequencer = none := by
        change b.sequencerStep = none
        rw [sequencerStep]
        cases hu with
        | pumping hs =>
          rw [hs] at h
          cases h
        | handing hs | closing hs => rw [hs]
      change ∃ commands, ((b.work .sequencer).getD b).sequencer = _
      rw [hb]
      exact ⟨_, rfl⟩
    · rename_i reception
      have hb : b.sequencerConclude reception.result = b := by
        rw [sequencerConclude]
        cases hu with
        | pumping hs => rw [hs]
        | handing hs | closing hs =>
          rw [hs] at h
          cases h
      exact ⟨_, congrArg Broker.sequencer hb⟩
    · cases hs

theorem movedBy_of_asksNext (h : b.asksNext a = true) : b.sequencer.stage.movedBy a = true := by
  rw [asksNext.eq_def] at h
  split at h
  · rw [Sequencer.asks] at h
    split at h
    · rename_i hs ha
      rw [hs]
      rfl
    · cases h
  · cases h

theorem asksNext_of_handsOver (hu : b.sequencer.Underway) (h : b.handsOver a = true) :
    b.asksNext a = true := by
  rw [handsOver, Bool.and_eq_true, Option.isNone_iff_eq_none, handoff?, handoff?] at h
  cases hm : b.sequencer.stage.movedBy a with
  | true =>
    by_contra hn
    have hp := act_pumps hu hm
    rw [Bool.eq_false_iff.2 hn] at hp
    obtain hs | hs | hs := hp.stage_of_not_asked
    all_goals
      rw [hs] at h
      cases h.2
  | false =>
    obtain ⟨commands, hs⟩ := act_stays hu hm
    rw [hs, h.1] at h
    cases h.2

theorem stepsLeft_act (hu : b.sequencer.Underway) (a : Action) :
    (b.act a).sequencer.stepsLeft + (b.asksNext a).toNat ≤ b.sequencer.stepsLeft := by
  cases hm : b.sequencer.stage.movedBy a with
  | true => exact (act_pumps hu hm).stepsLeft_le
  | false =>
    obtain ⟨commands, hs⟩ := act_stays hu hm
    have ha : b.asksNext a = false := by
      by_contra ha
      rw [movedBy_of_asksNext (Bool.not_eq_false _ ▸ ha)] at hm
      cases hm
    rw [hs, ha]
    exact Nat.le_refl _

theorem act_ends (hu : b.sequencer.Underway) (a : Action) :
    (b.act a).sequencer.Underway ∨ (b.act a).sequencer.Returned ∨
      (b.act a).sequencer.BrokenDown := by
  cases hm : b.sequencer.stage.movedBy a with
  | true => exact (act_pumps hu hm).ends
  | false =>
    obtain ⟨commands, hs⟩ := act_stays hu hm
    rw [hs]
    exact .inl (hu.queue commands)

section Schedules

variable (b) (schedule : Nat → Action)

def nextSteps (n : Nat) : Nat :=
  (List.range n).countP fun m => (b.after schedule m).asksNext (schedule m)

def handoffs (n : Nat) : Nat :=
  (List.range n).countP fun m => (b.after schedule m).handsOver (schedule m)

/-- Before the `n`-th action the sequencer neither listened nor stopped. -/
def PumpsUntil (n : Nat) : Prop :=
  ∀ m < n, (b.after schedule m).sequencer.stage ≠ .listening ∧
    (b.after schedule m).sequencer.stage ≠ .stopped

/-- Until it listens or stops, the sequencer has its turn at last, and each of its hand-offs ends at
last. -/
structure Served : Prop where
  turn : ∀ n, b.PumpsUntil schedule n → (b.after schedule n).sequencer.stage = .pumping →
    ∃ m, n ≤ m ∧ schedule m = .work .sequencer
  ending : ∀ n, b.PumpsUntil schedule n → (b.after schedule n).handoff? .sequencer ≠ none →
    ∃ m reception, n ≤ m ∧ schedule m = .handedOff .sequencer reception

variable {b schedule} {n : Nat}

theorem PumpsUntil.underway (h : b.PumpsUntil schedule (n + 1)) (hu : b.sequencer.Underway) :
    (b.after schedule n).sequencer.Underway := by
  induction n with
  | zero => exact hu
  | succ n ih =>
    obtain ⟨hl, hs⟩ := h (n + 1) (Nat.lt_succ_self _)
    rw [after_succ] at hl hs ⊢
    obtain hn | hn | hn := act_ends (ih fun m hm => h m (Nat.lt_succ_of_lt hm)) (schedule n)
    · exact hn
    · exact absurd hn.1 hl
    · exact absurd hn.1 hs

theorem PumpsUntil.succ (h : b.PumpsUntil schedule n)
    (hu : (b.after schedule n).sequencer.Underway) : b.PumpsUntil schedule (n + 1) := by
  intro m hm
  cases Nat.lt_succ_iff_lt_or_eq.1 hm with
  | inl hm => exact h m hm
  | inr hm =>
    subst hm
    exact ⟨hu.not_listening, hu.not_stopped⟩

theorem PumpsUntil.nextSteps_le (h : b.PumpsUntil schedule n) (hu : b.sequencer.Underway) :
    b.nextSteps schedule n + (b.after schedule n).sequencer.stepsLeft ≤ b.sequencer.stepsLeft := by
  induction n with
  | zero => exact Nat.le_of_eq (Nat.zero_add _)
  | succ n ih =>
    have hn := ih fun m hm => h m (Nat.lt_succ_of_lt hm)
    have hstep := stepsLeft_act (h.underway hu) (schedule n)
    rw [← after_succ] at hstep
    have hsucc : b.nextSteps schedule (n + 1) = b.nextSteps schedule n +
        ((b.after schedule n).asksNext (schedule n)).toNat := by
      rw [nextSteps, List.range_succ, List.countP_append, List.countP_singleton]
      cases (b.after schedule n).asksNext (schedule n) <;> rfl
    omega

theorem PumpsUntil.handoffs_le (h : b.PumpsUntil schedule n) (hu : b.sequencer.Underway) :
    b.handoffs schedule n ≤ b.nextSteps schedule n := by
  refine List.countP_mono_left fun m hm hh => ?_
  have hm := List.mem_range.1 hm
  have hp : b.PumpsUntil schedule (m + 1) := fun j hj => h j (Nat.lt_of_lt_of_le hj hm)
  exact asksNext_of_handsOver (hp.underway hu) hh

theorem PumpsUntil.moved (h : b.PumpsUntil schedule n)
    (hu : (b.after schedule n).sequencer.Underway)
    (hm : (b.after schedule n).sequencer.stage.movedBy (schedule n) = true) :
    ∃ m, b.PumpsUntil schedule m ∧ ((b.after schedule m).sequencer.Underway ∨
      (b.after schedule m).sequencer.Returned ∨ (b.after schedule m).sequencer.BrokenDown) ∧
      (b.after schedule m).sequencer.movesLeft < (b.after schedule n).sequencer.movesLeft := by
  have hp := act_pumps hu hm
  rw [← after_succ] at hp
  exact ⟨n + 1, h.succ hu, hp.ends, hp.movesLeft_lt⟩

theorem PumpsUntil.moves (h : b.PumpsUntil schedule n)
    (hu : (b.after schedule n).sequencer.Underway) {d : Nat}
    (hd : (b.after schedule n).sequencer.stage.movedBy (schedule (n + d)) = true) :
    ∃ m, b.PumpsUntil schedule m ∧ ((b.after schedule m).sequencer.Underway ∨
      (b.after schedule m).sequencer.Returned ∨ (b.after schedule m).sequencer.BrokenDown) ∧
      (b.after schedule m).sequencer.movesLeft < (b.after schedule n).sequencer.movesLeft := by
  -- On how far off the move is: until it comes, the stage stays as it is.
  induction d generalizing n with
  | zero => exact h.moved hu hd
  | succ d ih =>
    cases hm : (b.after schedule n).sequencer.stage.movedBy (schedule n) with
    | true => exact h.moved hu hm
    | false =>
      obtain ⟨commands, hs⟩ := act_stays hu hm
      rw [← after_succ] at hs
      have hnext : (b.after schedule (n + 1)).sequencer.Underway := hs ▸ hu.queue commands
      have hlater : (b.after schedule (n + 1)).sequencer.stage.movedBy
          (schedule (n + 1 + d)) = true := by
        rw [hs, Nat.add_right_comm]
        exact hd
      obtain ⟨m, hm, hends, hlt⟩ := ih (h.succ hu) hnext hlater
      rw [hs] at hlt
      exact ⟨m, hm, hends, hlt⟩

theorem Served.moves (hs : b.Served schedule) (hp : b.PumpsUntil schedule n)
    (hu : (b.after schedule n).sequencer.Underway) :
    ∃ d, (b.after schedule n).sequencer.stage.movedBy (schedule (n + d)) = true := by
  have ends (h : (b.after schedule n).handoff? .sequencer ≠ none) :
      ∃ d reception, schedule (n + d) = .handedOff .sequencer reception := by
    obtain ⟨m, reception, hm, ha⟩ := hs.ending n hp h
    obtain ⟨d, rfl⟩ := Nat.exists_eq_add_of_le hm
    exact ⟨d, reception, ha⟩
  cases hu with
  | pumping h =>
    obtain ⟨m, hm, ha⟩ := hs.turn n hp h
    obtain ⟨d, rfl⟩ := Nat.exists_eq_add_of_le hm
    refine ⟨d, ?_⟩
    rw [h, ha]
    rfl
  | handing h | closing h =>
    obtain ⟨d, reception, ha⟩ := ends (by simp [handoff?, h])
    refine ⟨d, ?_⟩
    rw [h, ha]
    rfl

theorem Served.returns (hs : b.Served schedule) (h : b.PumpsUntil schedule n)
    (hu : (b.after schedule n).sequencer.Underway) :
    ∃ m, b.PumpsUntil schedule m ∧ ((b.after schedule m).sequencer.Returned ∨
      (b.after schedule m).sequencer.BrokenDown) := by
  generalize hl : (b.after schedule n).sequencer.movesLeft = left
  induction left using Nat.strongRecOn generalizing n with
  | ind left ih =>
    obtain ⟨d, hd⟩ := hs.moves h hu
    obtain ⟨m, hm, hends, hlt⟩ := h.moves hu hd
    cases hends with
    | inl hu => exact ih _ (hl ▸ hlt) hm hu rfl
    | inr hr => exact ⟨m, hm, hr⟩

end Schedules

/-- Once the sequencer moves its chains on, whatever they are and whatever happens meanwhile, it
asks them for a next step no more often than there are receivers whose turn has not come, and once
more for each chain, and it begins no more hand-offs than that. If it has its turns and each of its
hand-offs ends, it listens in the end, with nothing left to do or with the active chain parked; or
it breaks down over an active chain a deadline of which is past the end of the clock, and over no
other chain. -/
theorem pump_returns {b : Broker} (hb : b.sequencer.stage = .pumping) (schedule : Nat → Action) :
    (∀ n, b.PumpsUntil schedule n →
      b.nextSteps schedule n ≤
        ((b.sequencer.active.toList ++ b.sequencer.pending).map fun c =>
          (c.receivers.drop c.cursor).length + 1).sum ∧
      b.handoffs schedule n ≤ b.nextSteps schedule n) ∧
    (b.Served schedule → ∃ n, b.PumpsUntil schedule n ∧
      ((b.after schedule n).sequencer.Returned ∨ (b.after schedule n).sequencer.BrokenDown)) ∧
    (b.Served schedule →
      (∀ n, b.PumpsUntil schedule n →
        ∀ c ∈ (b.after schedule n).sequencer.active, c.overruns = false) →
      ∃ n, b.PumpsUntil schedule n ∧ (b.after schedule n).sequencer.Returned) := by
  have hu : b.sequencer.Underway := .pumping hb
  have returns (hs : b.Served schedule) := hs.returns (fun _ hm => absurd hm (Nat.not_lt_zero _)) hu
  refine ⟨fun n h => ⟨?_, h.handoffs_le hu⟩, returns, fun hs ho => ?_⟩
  · have hsteps := h.nextSteps_le hu
    rw [Sequencer.stepsLeft_eq_sum hu.not_stopped] at hsteps
    exact Nat.le_trans (Nat.le_add_right _ _) hsteps
  · obtain ⟨n, hn, hr | ⟨-, c, ha, hc⟩⟩ := returns hs
    · exact ⟨n, hn, hr⟩
    · cases hc.symm.trans (ho n hn c ha)

theorem pump_returns_inTurn :
    let c : Chain := .ofReceivers ⟨1⟩ default false [⟨1⟩, ⟨2⟩] .zero .zero (some ⟨0, "final"⟩)
    let b : Broker := { start {} .allowAll (fun _ => none) [] with
      sequencer := { pending := [c, c], stage := .pumping } }
    let schedule : Nat → Action := fun n =>
      if n % 2 = 0 then .work .sequencer else .handedOff .sequencer (.returned (.ok ()))
    b.sequencer.stage = .pumping ∧ b.Served schedule ∧ ∃ n, b.nextSteps schedule n ≤ 6 ∧
      b.PumpsUntil schedule n ∧ (b.after schedule n).sequencer.Returned := by
  intro c b schedule
  have hs : b.Served schedule := by
    refine ⟨fun n _ _ => ⟨2 * n, Nat.le_mul_of_pos_left n Nat.two_pos, ?_⟩, fun n _ _ =>
      ⟨2 * n + 1, .returned (.ok ()), Nat.le_succ_of_le (Nat.le_mul_of_pos_left n Nat.two_pos), ?_⟩⟩
    · exact if_pos (Nat.mul_mod_right 2 n)
    · refine if_neg ?_
      rw [Nat.mul_add_mod]
      decide
  have ho : ∀ n, b.PumpsUntil schedule n →
      ∀ c ∈ (b.after schedule n).sequencer.active, c.overruns = false := by
    intro n hn
    have hrest : (b.after schedule 17).sequencer.stage = .listening := by decide +kernel
    have hlt : n < 18 := Nat.lt_of_not_le fun hle => (hn 17 hle).1 hrest
    have hall : ∀ n < 18, (b.after schedule n).sequencer.active.all (!·.overruns) = true := by
      decide +kernel
    intro c hc
    have hc := (Option.all_eq_true _ _).1 (hall n hlt) c hc
    rwa [Bool.not_eq_true'] at hc
  obtain ⟨bounded, -, returns⟩ := pump_returns (b := b) rfl schedule
  obtain ⟨n, hn, hr⟩ := returns hs ho
  exact ⟨rfl, hs, n, (bounded n hn).1, hn, hr⟩

/-- The budget of the only chain does not fit the clock. The sequencer breaks down over it at once,
and no hand-off keeps it. -/
theorem pump_breaksDown :
    let b := (start { receiverTimeout := .max } .allowAll (fun _ => none) []).run
      [joining, ringing, .work .sequencer]
    let schedule : Nat → Action := fun _ => .work .sequencer
    b.sequencer.stage = .pumping ∧ b.Served schedule ∧
      (∀ n, (b.after schedule n).handoff? .sequencer = none) ∧
      ∀ n, ¬(b.after schedule n).sequencer.Returned := by
  intro b schedule
  have hstopped : ∀ n, (b.after schedule (n + 2)).sequencer.stage = .stopped := by
    intro n
    induction n with
    | zero => decide +kernel
    | succ n ih =>
      have hact : (b.after schedule (n + 2)).act (.work .sequencer) = b.after schedule (n + 2) := by
        change (b.after schedule (n + 2)).sequencerStep.getD _ = _
        rw [sequencerStep, ih]
        rfl
      rw [Nat.add_right_comm, after_succ, hact]
      exact ih
  have hstages : ∀ n, (b.after schedule n).sequencer.stage = .pumping ∨
      (b.after schedule n).sequencer.stage = .stopped := by
    intro n
    obtain hn | ⟨m, rfl⟩ : n < 2 ∨ ∃ m, n = m + 2 :=
      (Nat.lt_or_ge n 2).imp_right fun h => ⟨n - 2, (Nat.sub_add_cancel h).symm⟩
    · have hpumping : ∀ n < 2, (b.after schedule n).sequencer.stage = .pumping := by decide +kernel
      exact .inl (hpumping n hn)
    · exact .inr (hstopped m)
  have hnone : ∀ n, (b.after schedule n).handoff? .sequencer = none := by
    intro n
    rw [handoff?]
    obtain hs | hs := hstages n <;> rw [hs]
  refine ⟨by decide +kernel, ⟨fun n _ _ => ⟨n, Nat.le_refl n, rfl⟩, ?_⟩, hnone, ?_⟩
  · exact fun n _ h => absurd (hnone n) h
  · rintro n ⟨hl, -⟩
    obtain hs | hs := hstages n <;> cases hl.symm.trans hs

end Broker

end EventBroker
