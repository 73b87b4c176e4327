import Mathlib.Data.List.Forall2
import Mathlib.Data.List.Nodup
import EventBroker.Proofs.Runs

namespace EventBroker

def Signal.chain? : Signal → Option ChainId
  | started c => c
  | finished c _ => c
  | notifying n => n.chain
  | notified n _ => n.chain

def Signal.isOrdered (s : Signal) : Bool := s.chain?.isSome

def ChainEvent.chain? : ChainEvent → Option ChainId
  | signal s => s.chain?
  | accepted chain _ _ _ _ => some chain
  | held chain _ _ => some chain

abbrev HandOff := Notice × Except DeliveryError Unit

def HandOff.signals (h : HandOff) : List Signal := [.notifying h.1, .notified h.1 h.2]

def finishing (last : Option HandOff) (chain : ChainId) (reason : FinishReason) : List Signal :=
  (last.map fun h => Signal.notified h.1 h.2).toList ++
    [.finished (some chain) (some reason.name)]

/-- One chain from its start to its finish: the hand-offs to its receivers, and the last one, to its
final receiver. -/
structure Round where
  chain : ChainId
  shown : List HandOff
  last : Option HandOff
  reason : FinishReason

namespace Round

def signals (r : Round) : List Signal :=
  .started (some r.chain) :: r.shown.flatMap HandOff.signals ++
    r.last.toList.flatMap HandOff.signals ++ [.finished (some r.chain) (some r.reason.name)]

structure Serves (r : Round) (c : ChainId × Option Receiver) : Prop where
  chain : r.chain = c.1
  shown : ∀ h ∈ r.shown, h.1.chain = some c.1 ∧ h.1.subscriber ≠ none
  last : ∀ h ∈ r.last, h.1.chain = some c.1 ∧ h.1.subscriber = none
  final : r.last.map (fun h => h.1.receiver) = c.2

end Round

def Chain.title (c : Chain) : ChainId × Option Receiver := (c.id, c.finalReceiver)

def Admission.title? (a : Admission) : Option (ChainId × Option Receiver) :=
  a.chain.map fun id => (id, a.finalReceiver)

theorem Admission.titles_append (as : List Admission) (a : Option Admission) :
    (as ++ a.toList).filterMap title? = as.filterMap title? ++ (a.bind title?).toList := by
  rw [List.filterMap_append]
  cases a with
  | none => rfl
  | some a => cases h : a.title? <;> simp [h]

namespace View

def busy (v : View) : Option Notice :=
  match v.sequencer.stage with
  | .handing n _ => some n
  | .closing n _ _ => some n
  | _ => none

def title? (v : View) : Option (ChainId × Option Receiver) := v.underway.map Chain.title

def opening (v : View) (shown : List HandOff) : List Signal :=
  match v.title? with
  | none => []
  | some t => .started (some t.1) :: shown.flatMap HandOff.signals ++
      v.busy.toList.map Signal.notifying

def titles (v : View) : List (ChainId × Option Receiver) :=
  v.title?.toList ++ v.waiting.map Chain.title

structure InRounds (v : View) (admitted past : List (ChainId × Option Receiver))
    (rounds : List Round) (shown : List HandOff) : Prop where
  served : List.Forall₂ Round.Serves rounds past
  lined : past ++ v.titles <+: admitted
  whole : v.sequencer.stage ≠ .stopped → past ++ v.titles = admitted
  own : ∀ t, v.title? = some t → ∀ h ∈ shown, h.1.chain = some t.1 ∧ h.1.subscriber ≠ none
  told : v.signals.filter Signal.isOrdered = rounds.flatMap Round.signals ++ v.opening shown

def Paced (v : View) (admitted : List (ChainId × Option Receiver)) : Prop :=
  ∃ past rounds shown, v.InRounds admitted past rounds shown

variable {v w : View} {admitted past : List (ChainId × Option Receiver)} {rounds : List Round}
  {shown : List HandOff}

namespace InRounds

theorem stay (h : v.InRounds admitted past rounds shown) (hu : w.title? = v.title?)
    (hw : w.waiting = v.waiting) (hb : w.busy = v.busy)
    (hs : w.signals.filter Signal.isOrdered = v.signals.filter Signal.isOrdered)
    (hv : v.sequencer.stage = .stopped → w.sequencer.stage = .stopped) :
    w.InRounds admitted past rounds shown := by
  have ht : w.titles = v.titles := by
    rw [titles, titles, hu, hw]
  refine ⟨h.served, ht ▸ h.lined, fun hr => ht ▸ h.whole fun e => hr (hv e), ?_, ?_⟩
  · intro t hc
    rw [hu] at hc
    exact h.own t hc
  · rw [hs, h.told, opening, opening, hu, hb]

theorem stop (h : v.InRounds admitted past rounds shown) (hu : w.title? = v.title?)
    (ht : w.titles <+: v.titles) (hb : w.busy = v.busy) (hs : w.signals = v.signals)
    (hw : w.sequencer.stage = .stopped) : w.InRounds admitted past rounds shown := by
  refine ⟨h.served, ?_, fun hr => absurd hw hr, ?_, ?_⟩
  · exact ((List.prefix_append_right_inj past).2 ht).trans h.lined
  · intro t hc
    rw [hu] at hc
    exact h.own t hc
  · rw [hs, h.told, opening, opening, hu, hb]

theorem start (h : v.InRounds admitted past rounds shown) {t : ChainId × Option Receiver}
    (hv : v.title? = none) (hw : w.title? = some t) (ht : w.titles = v.titles)
    (hb : w.busy = none) (hs : w.signals = v.signals ++ [.started (some t.1)])
    (hr : v.sequencer.stage ≠ .stopped) : w.InRounds admitted past rounds [] := by
  refine ⟨h.served, ht ▸ h.lined, fun _ => ht ▸ h.whole hr, ?_, ?_⟩
  · simp
  · rw [hs, List.filter_append, h.told, opening, opening, hv, hw, hb]
    simp [Signal.isOrdered, Signal.chain?]

theorem hand (h : v.InRounds admitted past rounds shown) {t : ChainId × Option Receiver}
    {n : Notice} (hv : v.title? = some t) (hw : w.title? = some t) (ht : w.titles = v.titles)
    (hb : v.busy = none) (hb' : w.busy = some n) (hn : n.chain = some t.1)
    (hs : w.signals = v.signals ++ [.notifying n]) (hr : v.sequencer.stage ≠ .stopped) :
    w.InRounds admitted past rounds shown := by
  refine ⟨h.served, ht ▸ h.lined, fun _ => ht ▸ h.whole hr, ?_, ?_⟩
  · intro t' ht'
    rw [hw, ← hv] at ht'
    exact h.own t' ht'
  · rw [hs, List.filter_append, h.told, opening, opening, hv, hw, hb, hb']
    simp [Signal.isOrdered, Signal.chain?, hn]

theorem handed (h : v.InRounds admitted past rounds shown) {t : ChainId × Option Receiver}
    {n : Notice} {result : Except DeliveryError Unit} (hv : v.title? = some t)
    (hw : w.title? = some t) (ht : w.titles = v.titles) (hb : v.busy = some n)
    (hb' : w.busy = none) (hn : n.chain = some t.1) (hsub : n.subscriber ≠ none)
    (hs : w.signals = v.signals ++ [.notified n result]) (hr : v.sequencer.stage ≠ .stopped) :
    w.InRounds admitted past rounds (shown ++ [(n, result)]) := by
  refine ⟨h.served, ht ▸ h.lined, fun _ => ht ▸ h.whole hr, ?_, ?_⟩
  · intro t' ht' x hx
    rw [hw] at ht'
    cases ht'
    cases List.mem_append.1 hx with
    | inl hx => exact h.own t hv x hx
    | inr hx =>
      cases List.mem_singleton.1 hx
      exact ⟨hn, hsub⟩
  · rw [hs, List.filter_append, h.told, opening, opening, hv, hw, hb, hb']
    simp [Signal.isOrdered, Signal.chain?, hn, HandOff.signals]

theorem finish (h : v.InRounds admitted past rounds shown) {t : ChainId × Option Receiver}
    (last : Option HandOff) (reason : FinishReason) (hv : v.title? = some t)
    (hw : w.title? = none) (ht : w.waiting = v.waiting) (hb : v.busy = last.map Prod.fst)
    (hl : ∀ x ∈ last, x.1.chain = some t.1 ∧ x.1.subscriber = none)
    (hf : last.map (fun x => x.1.receiver) = t.2)
    (hs : w.signals = v.signals ++ finishing last t.1 reason)
    (hr : v.sequencer.stage ≠ .stopped) :
    w.InRounds admitted (past ++ [t]) (rounds ++ [⟨t.1, shown, last, reason⟩]) [] := by
  have htitles : past ++ [t] ++ w.titles = past ++ v.titles := by
    rw [titles, titles, hv, hw, ht]
    simp
  refine ⟨?_, htitles ▸ h.lined, fun _ => htitles ▸ h.whole hr, ?_, ?_⟩
  · exact List.rel_append h.served (.cons ⟨rfl, h.own t hv, hl, hf⟩ .nil)
  · simp
  · rw [hs, finishing, List.filter_append, List.filter_append, h.told, opening, opening, hv, hw, hb]
    cases last with
    | none => simp [Signal.isOrdered, Signal.chain?, Round.signals]
    | some x =>
      have hx := (hl x rfl).1
      simp [Signal.isOrdered, Signal.chain?, Round.signals, hx, HandOff.signals]

end InRounds

inductive Turns (v w : View) : List ChainEvent → Prop
  | stay {es : List ChainEvent} (hr : v.sequencer.stage ≠ .stopped) (ht : w.title? = v.title?)
      (hw : w.waiting = v.waiting) (hb : w.busy = v.busy) (hs : w.signals = v.signals)
      (he : ∀ e ∈ es, e.signal? = none ∧ ∃ t, v.title? = some t ∧ e.chain? = some t.1) :
    Turns v w es
  | stop (hr : w.sequencer.stage = .stopped) (ht : w.title? = v.title?)
      (hw : w.waiting <+: v.waiting) (hb : w.busy = v.busy) (hs : w.signals = v.signals) :
    Turns v w []
  | start {c : Chain} (hr : v.sequencer.stage ≠ .stopped) (hv : v.title? = none)
      (ht : w.title? = some c.title) (hw : v.waiting = c :: w.waiting) (hb : w.busy = none)
      (hp : w.sequencer.stage = .pumping) (ha : w.sequencer.active = some (c.start v.now))
      (hs : w.signals = v.signals ++ [.started (some c.id)]) :
    Turns v w [.signal (.started (some c.id))]
  | hand {t : ChainId × Option Receiver} {n : Notice} (hr : v.sequencer.stage ≠ .stopped)
      (hv : v.title? = some t) (ht : w.title? = some t) (hw : w.waiting = v.waiting)
      (hb : v.busy = none) (hb' : w.busy = some n) (hn : n.chain = some t.1)
      (hs : w.signals = v.signals ++ [.notifying n]) : Turns v w [.signal (.notifying n)]
  | handed {t : ChainId × Option Receiver} {n : Notice} {result : Except DeliveryError Unit}
      (hr : v.sequencer.stage ≠ .stopped) (hv : v.title? = some t) (ht : w.title? = some t)
      (hw : w.waiting = v.waiting) (hb : v.busy = some n) (hb' : w.busy = none)
      (hn : n.chain = some t.1) (hsub : n.subscriber ≠ none)
      (hs : w.signals = v.signals ++ [.notified n result]) :
    Turns v w [.signal (.notified n result)]
  | finish {t : ChainId × Option Receiver} (last : Option HandOff) (reason : FinishReason)
      (hr : v.sequencer.stage ≠ .stopped) (hv : v.title? = some t) (ht : w.title? = none)
      (hw : w.waiting = v.waiting) (hb : v.busy = last.map Prod.fst)
      (hl : ∀ x ∈ last, x.1.chain = some t.1 ∧ x.1.subscriber = none)
      (hf : last.map (fun x => x.1.receiver) = t.2)
      (hs : w.signals = v.signals ++ finishing last t.1 reason) :
    Turns v w ((finishing last t.1 reason).map ChainEvent.signal)

theorem Moves.turns {es : List ChainEvent} (hm : v.Moves es w) (hv : v.Sound) : v.Turns w es := by
  cases hm with
  | stop hs | breakDown hs =>
    refine .stop rfl ?_ ?_ ?_ rfl
    · simp [title?, underway, hs]
    · simp [waiting]
    · simp [busy, hs]
  | enqueue hs hq =>
    refine .stay (by simp [hs]) ?_ ?_ ?_ rfl (by simp)
    · simp [title?, underway, hs]
    · simp [waiting, hq, Command.chain?]
    · simp [busy, hs]
  | ignore hs hq hn ha =>
    refine .stay (by simp [hs]) rfl ?_ rfl rfl (by simp)
    simp [waiting, hq, hn]
  | @accept c r code data abort caller rest hs hc hq ha hr =>
    refine .stay (by simp [hs]) ?_ ?_ ?_ rfl ?_
    · simp [title?, underway, hs, ha, Chain.finish_of_awaiting hr, Chain.title]
    · simp [waiting, hq, List.filterMap_cons, Command.chain?]
    · simp [busy, hs]
    · intro e he
      cases List.mem_singleton.1 he
      refine ⟨rfl, c.title, ?_, rfl⟩
      simp [title?, underway, hs, ha]
  | release hs hq ha hr =>
    refine .stay (by simp [hs]) ?_ ?_ ?_ rfl (by simp)
    · simp [title?, underway, hs, ha, Chain.release_of_awaiting hr, Chain.title]
    · simp [waiting, hq, List.filterMap_cons, Command.chain?]
    · simp [busy, hs]
  | expire hs hq ha hd =>
    obtain ⟨r, hr⟩ := hv.sequencer.awaiting hs ha
    refine .stay (by simp [hs]) ?_ rfl ?_ rfl (by simp)
    · simp [title?, underway, hs, ha, Chain.expire_of_awaiting hr, Chain.title]
    · simp [busy, hs]
  | expireReceiver hs hq ha hd =>
    obtain ⟨r, hr⟩ := hv.sequencer.awaiting hs ha
    refine .stay (by simp [hs]) ?_ rfl ?_ rfl (by simp)
    · simp [title?, underway, hs, ha, Chain.expireReceiver_of_awaiting hr, Chain.title]
    · simp [busy, hs]
  | rest hs ha hp =>
    refine .stay (by simp [hs]) ?_ rfl ?_ rfl (by simp)
    · simp [title?, underway, hs]
    · simp [busy, hs]
  | @start c rest hs ha hp =>
    refine .start (c := c) (by simp [hs]) ?_ ?_ ?_ ?_ hs rfl rfl
    · simp [title?, underway, hs, ha]
    · simp [title?, underway, hs, tell, Chain.title, Chain.start]
    · simp [waiting, hp, tell]
    · simp [busy, hs, tell]
  | park hs ha hr =>
    refine .stay (by simp [hs]) ?_ rfl ?_ rfl (by simp)
    · simp [title?, underway, hs]
    · simp [busy, hs]
  | pass hs ha hw hn he =>
    obtain ⟨-, -, -, -, -, rfl⟩ := Chain.next_deliver hn
    refine .stay (by simp [hs]) ?_ rfl rfl rfl (by simp)
    simp [title?, underway, hs, ha, Chain.skip_eq, Chain.title]
  | @hold c c' i r e hs ha hw hn he hf =>
    obtain ⟨-, -, -, -, -, rfl⟩ := Chain.next_deliver hn
    refine .stay (by simp [hs]) ?_ rfl rfl rfl ?_
    · simp [title?, underway, hs, ha, Chain.skip_eq, Chain.title]
    · intro e he
      cases List.mem_singleton.1 he
      refine ⟨rfl, c.title, ?_, rfl⟩
      simp [title?, underway, hs, ha]
  | @hand c _ _ _ _ hs ha hw hn he hf =>
    obtain ⟨-, -, -, -, -, rfl⟩ := Chain.next_deliver hn
    refine .hand (t := c.title) (by simp [hs]) ?_ rfl rfl ?_ rfl rfl rfl
    · simp [title?, underway, hs, ha]
    · simp [busy, hs]
  | @finish c _ reason hs ha hw hn hf =>
    change v.Turns _ ((finishing none c.title.1 reason).map ChainEvent.signal)
    refine .finish none reason ?_ ?_ rfl rfl ?_ ?_ ?_ rfl
    · simp [hs]
    · simp [title?, underway, hs, ha]
    · simp [busy, hs]
    · simp
    · simp [Chain.title, hf]
  | @close c c' _ _ hs ha hw hn hf =>
    obtain ⟨hid, -, -, -, hfinal, -⟩ := Chain.next_finalize hn
    have ht : c'.title = c.title := by
      rw [Chain.title, Chain.title, hid, hfinal]
    refine .hand (t := c.title) (by simp [hs]) ?_ ?_ rfl ?_ rfl rfl rfl
    · simp [title?, underway, hs, ha]
    · simp [title?, underway, tell, ht]
    · simp [busy, hs]
  | @parked n i c s hs ha hn | @overrun n i c s hs ha hn =>
    obtain ⟨-, s', t, rfl⟩ := hv.handing hs ha
    have ht : c.handedOff.title = c.title := by
      rw [Chain.handedOff]
      split <;> rfl
    refine .handed (t := c.title) (by simp [hs]) ?_ ?_ rfl ?_ rfl rfl (by simp [Chain.notice]) rfl
    · simp [title?, underway, hs, ha]
    · simp [title?, underway, tell, ht]
    · simp [busy, hs]
  | @failed n i c s e hs ha hn =>
    obtain ⟨-, s', t, rfl⟩ := hv.handing hs ha
    have ht : c.skip.title = c.title := by
      rw [Chain.skip_eq]
      rfl
    refine .handed (t := c.title) (by simp [hs]) ?_ ?_ rfl ?_ rfl rfl (by simp [Chain.notice]) rfl
    · simp [title?, underway, hs, ha]
    · simp [title?, underway, tell, ht]
    · simp [busy, hs]
  | stray hs hn => exact absurd hn (hv.not_stray hs)
  | @closed n c reason result hs =>
    obtain ⟨f, t, hf, rfl⟩ := hv.manned.closing hs
    have ha := hv.sequencer.closing hs
    change v.Turns _ ((finishing (some (c.notice f none t, result)) c.title.1 reason).map
      ChainEvent.signal)
    refine .finish _ reason ?_ ?_ ?_ rfl ?_ ?_ ?_ ?_
    · simp [hs]
    · simp [title?, underway, hs]
    · simp [title?, underway, tell, ha]
    · simp [busy, hs]
    · simp [Chain.notice, Chain.title]
    · simp [Chain.notice, Chain.title, hf]
    · simp [tell, finishing, Chain.title]

theorem Paced.moves {es : List ChainEvent} (h : v.Paced admitted) (hm : v.Turns w es) :
    w.Paced admitted := by
  obtain ⟨past, rounds, shown, h⟩ := h
  have same : w.title? = v.title? → w.waiting = v.waiting → w.titles = v.titles := by
    intro ht hw
    rw [titles, titles, ht, hw]
  cases hm with
  | stay hr ht hw hb hs he => exact ⟨_, _, _, h.stay ht hw hb (by rw [hs]) fun e => absurd e hr⟩
  | stop hr ht hw hb hs =>
    refine ⟨_, _, _, h.stop ht ?_ hb hs hr⟩
    rw [titles, titles, ht]
    exact (List.prefix_append_right_inj _).2 (hw.map _)
  | start hr hv ht hw hb hp ha hs =>
    refine ⟨_, _, _, h.start hv ht ?_ hb hs hr⟩
    rw [titles, titles, hv, ht, hw]
    rfl
  | hand hr hv ht hw hb hb' hn hs =>
    exact ⟨_, _, _, h.hand hv ht (same (ht.trans hv.symm) hw) hb hb' hn hs hr⟩
  | handed hr hv ht hw hb hb' hn hsub hs =>
    exact ⟨_, _, _, h.handed hv ht (same (ht.trans hv.symm) hw) hb hb' hn hsub hs hr⟩
  | finish last reason hr hv ht hw hb hl hf hs =>
    exact ⟨_, _, _, h.finish last reason hv ht hw hb hl hf hs hr⟩

theorem title_of_chainOf (v : View) (a : Admission) :
    (v.chainOf a).map Chain.title = a.title? := by
  rw [chainOf, Option.map_map]
  rfl

theorem Request.busy_eq {a : Option Admission} (h : v.Request a w) : w.busy = v.busy := by
  obtain ⟨cs, -, hw⟩ := h.sends
  rw [busy, hw]
  rfl

theorem Request.stage_eq {a : Option Admission} (h : v.Request a w) :
    w.sequencer.stage = v.sequencer.stage := by
  obtain ⟨cs, -, hw⟩ := h.sends
  rw [hw]

theorem Request.title_none {a : Option Admission} (h : v.Request a w)
    (hs : v.sequencer.stage = .stopped) : a.bind Admission.title? = none := by
  have hc := h.chain_eq
  cases a with
  | none => rfl
  | some a =>
    rw [Option.bind_some] at hc
    rw [Option.bind_some, Admission.title?]
    cases hid : a.chain with
    | none => rfl
    | some id =>
      rw [hid] at hc
      exact absurd hs hc.2.2

theorem Paced.request {a : Option Admission} (h : v.Paced admitted) (hq : v.Request a w) :
    w.Paced (admitted ++ (a.bind Admission.title?).toList) := by
  obtain ⟨past, rounds, shown, h⟩ := h
  have hu : w.title? = v.title? := by
    rw [title?, title?, hq.underway_eq]
  have hnew : a.bind Admission.title? = (a.bind v.chainOf).map Chain.title := by
    cases a with
    | none => rfl
    | some a => exact (v.title_of_chainOf a).symm
  have ht : w.titles = v.titles ++ (a.bind Admission.title?).toList := by
    rw [titles, titles, hu, hq.waiting_eq, hnew, List.map_append, List.append_assoc,
      Option.toList_map]
  have whole : v.sequencer.stage ≠ .stopped →
      past ++ w.titles = admitted ++ (a.bind Admission.title?).toList := by
    intro hs
    rw [ht, ← List.append_assoc, h.whole hs]
  refine ⟨past, rounds, shown, h.served, ?_, fun hs => whole (hq.stage_eq ▸ hs), ?_, ?_⟩
  · by_cases hs : v.sequencer.stage = .stopped
    · rw [hq.title_none hs] at ht ⊢
      rw [ht, Option.toList_none, List.append_nil, List.append_nil]
      exact h.lined
    · exact whole hs ▸ List.prefix_rfl
  · rw [hu]
    exact h.own
  · rw [hq.signals_eq, h.told, opening, opening, hu, hq.busy_eq]

theorem Carries.unordered {lane : Lane} (h : v.Carries lane w) (hv : v.Sound) :
    w.signals.filter Signal.isOrdered = v.signals.filter Signal.isOrdered := by
  have told : ∀ {q : DeliveryQueue} {s : Signal}, s.chain? = none →
      (((v.setQueue lane q).tell s).signals).filter Signal.isOrdered =
        v.signals.filter Signal.isOrdered := by
    intro q s hs
    have hq : (v.setQueue lane q).signals = v.signals := by
      cases lane <;> rfl
    rw [tell, hq, List.filter_append]
    simp [Signal.isOrdered, hs]
  cases h with
  | hand hq he hf => exact told rfl
  | handed hq result => exact told (hv.unchained lane _ _ hq)
  | _ => cases lane <;> rfl

theorem Carries.silent {lane : Lane} (h : v.Carries lane w) (hv : v.Sound) :
    ∀ e ∈ (w.signals.drop v.signals.length).map ChainEvent.signal, e.chain? = none := by
  have hs := h.unordered hv
  rw [h.signals_eq, List.filter_append] at hs
  intro e he
  obtain ⟨s, hmem, rfl⟩ := List.mem_map.1 he
  have hn := List.filter_eq_nil_iff.1 (List.append_right_eq_self.1 hs) s hmem
  cases hc : s.chain? with
  | none => exact hc
  | some id => exact absurd (by rw [Signal.isOrdered, hc]; rfl) hn

theorem Paced.carries {lane : Lane} (h : v.Paced admitted) (hv : v.Sound)
    (hc : v.Carries lane w) : w.Paced admitted := by
  obtain ⟨past, rounds, shown, h⟩ := h
  have hs := hc.sequencer_eq
  refine ⟨past, rounds, shown, h.stay ?_ ?_ ?_ (hc.unordered hv) (hs ▸ id)⟩
  · rw [title?, title?, underway, underway, hs]
  · rw [waiting, waiting, hs]
  · rw [busy, busy, hs]

def Numbered (v : View) (admitted : List (ChainId × Option Receiver)) : Prop :=
  admitted.map Prod.fst = (List.range v.chains).map fun i => ⟨i + 1⟩

theorem Numbered.request {a : Option Admission} (h : v.Numbered admitted) (hq : v.Request a w) :
    w.Numbered (admitted ++ (a.bind Admission.title?).toList) := by
  have hc := hq.chain_eq
  rw [Numbered] at h
  rw [Numbered, List.map_append, h]
  have same : w.chains = v.chains →
      (List.range v.chains).map (fun i => ChainId.mk (i + 1)) ++ [] =
        (List.range w.chains).map fun i => ChainId.mk (i + 1) := by
    intro hw
    rw [hw, List.append_nil]
  cases a with
  | none => exact same hc
  | some a =>
    rw [Option.bind_some] at hc
    rw [Option.bind_some, Admission.title?]
    cases hid : a.chain with
    | none =>
      rw [hid] at hc
      exact same hc
    | some id =>
      rw [hid] at hc
      obtain ⟨rfl, hw, -⟩ := hc
      rw [hw, List.range_succ, List.map_append]
      rfl

structure Lined (v : View) (admitted : List (ChainId × Option Receiver)) : Prop where
  sound : v.Sound
  paced : v.Paced admitted
  numbered : v.Numbered admitted

theorem Lined.effect {a : Option Admission} {es : List ChainEvent} (h : v.Lined admitted)
    (he : v.Effect a es w) : w.Lined (admitted ++ (a.bind Admission.title?).toList) := by
  refine ⟨h.sound.effect he, ?_, ?_⟩
  · cases he with
    | request hq => exact h.paced.request hq
    | carry lane hc =>
      rw [Option.bind_none, Option.toList_none, List.append_nil]
      exact h.paced.carries h.sound hc
    | move hm =>
      rw [Option.bind_none, Option.toList_none, List.append_nil]
      exact h.paced.moves (hm.turns h.sound)
  · cases he with
    | request hq => exact h.numbered.request hq
    | carry lane hc =>
      rw [Option.bind_none, Option.toList_none, List.append_nil, Numbered, hc.frame]
      exact h.numbered
    | move hm =>
      rw [Option.bind_none, Option.toList_none, List.append_nil, Numbered, hm.frame]
      exact h.numbered

theorem Lined.runs {as : List Admission} {evs : List ChainEvent} (h : v.Lined admitted)
    (hr : v.Runs as evs w) : w.Lined (admitted ++ as.filterMap Admission.title?) := by
  induction hr with
  | start =>
    rw [List.filterMap_nil, List.append_nil]
    exact h
  | @act as evs es w x a hr he ih =>
    rw [Admission.titles_append, ← List.append_assoc]
    exact ih.effect he

theorem Lined.nodup (h : v.Lined admitted) : (admitted.map Prod.fst).Nodup := by
  rw [h.numbered]
  apply List.Nodup.map _ List.nodup_range
  intro i j h
  exact Nat.succ.inj (ChainId.mk.inj h)

theorem Lined.titles_subset (h : v.Lined admitted) : v.titles ⊆ admitted := by
  obtain ⟨past, rounds, shown, hp⟩ := h.paced
  exact fun t ht => hp.lined.subset (List.mem_append_right _ ht)

theorem Lined.titles_nodup (h : v.Lined admitted) : (v.titles.map Prod.fst).Nodup := by
  obtain ⟨past, rounds, shown, hp⟩ := h.paced
  have hs : v.titles.Sublist admitted := (List.sublist_append_right _ _).trans hp.lined.sublist
  exact h.nodup.sublist (hs.map _)

def farewell (t : ChainId × Option Receiver) : Option HandOff :=
  t.2.map fun f => (⟨f, none, default, ⟨true, false⟩, some t.1, 0⟩, .ok ())

theorem serves_farewell {t : ChainId × Option Receiver}
    (h : ∀ x ∈ shown, x.1.chain = some t.1 ∧ x.1.subscriber ≠ none) :
    Round.Serves ⟨t.1, shown, farewell t, .exhausted⟩ t where
  chain := rfl
  shown := h
  last := by
    intro x hx
    obtain ⟨f, -, rfl⟩ := Option.map_eq_some_iff.1 hx
    exact ⟨rfl, rfl⟩
  final := by
    rw [farewell, Option.map_map]
    exact Option.map_id'

theorem InRounds.complete (h : v.InRounds admitted past rounds shown) (hv : v.Manned)
    {t : ChainId × Option Receiver} (ht : v.title? = some t) :
    ∃ r : Round, r.Serves t ∧ v.opening shown <+: r.signals := by
  have own := h.own t ht
  rw [opening, ht]
  cases hs : v.sequencer.stage with
  | handing n i =>
    obtain ⟨c, s, now, hc, rfl⟩ := hv.handing hs
    have hc : c.title = t := by
      simpa [title?, underway, hs, hc] using ht
    refine ⟨⟨t.1, shown ++ [(c.notice s.receiver (some s) now, .ok ())], farewell t, .exhausted⟩,
      serves_farewell ?_, ?_⟩
    · intro x hx
      cases List.mem_append.1 hx with
      | inl hx => exact own x hx
      | inr hx =>
        cases List.mem_singleton.1 hx
        rw [← hc]
        exact ⟨rfl, by simp [Chain.notice]⟩
    · simp [busy, hs, Round.signals, HandOff.signals]
  | closing n c reason =>
    obtain ⟨f, now, hf, rfl⟩ := hv.closing hs
    have hc : c.title = t := by
      simpa [title?, underway, hs] using ht
    refine ⟨⟨t.1, shown, some (c.notice f none now, .ok ()), reason⟩, ⟨rfl, own, ?_, ?_⟩, ?_⟩
    · rw [← hc]
      simp [Chain.notice, Chain.title]
    · rw [← hc]
      simp [Chain.notice, Chain.title, hf]
    · simp [busy, hs, Round.signals, HandOff.signals]
  | _ =>
    refine ⟨⟨t.1, shown, farewell t, .exhausted⟩, serves_farewell own, ?_⟩
    simp [busy, hs, Round.signals]

theorem Paced.inRounds (h : v.Paced admitted) (hv : v.Manned) :
    ∃ rounds : List Round, List.Forall₂ Round.Serves rounds (admitted.take rounds.length) ∧
      v.signals.filter Signal.isOrdered <+: rounds.flatMap Round.signals := by
  obtain ⟨past, rounds, shown, h⟩ := h
  have taken : ∀ {ts : List (ChainId × Option Receiver)} {rs : List Round},
      List.Forall₂ Round.Serves rs ts → ts <+: admitted →
      List.Forall₂ Round.Serves rs (admitted.take rs.length) := by
    intro ts rs hr ht
    rw [hr.length_eq, ← List.prefix_iff_eq_take.1 ht]
    exact hr
  cases ht : v.title? with
  | none =>
    refine ⟨rounds, taken h.served ((List.prefix_append _ _).trans h.lined), ?_⟩
    have hs : v.signals.filter Signal.isOrdered = rounds.flatMap Round.signals := by
      rw [h.told, opening, ht, List.append_nil]
    exact hs ▸ List.prefix_rfl
  | some t =>
    obtain ⟨r, hr, ho⟩ := h.complete hv ht
    refine ⟨rounds ++ [r], taken (List.rel_append h.served (.cons hr .nil)) ?_, ?_⟩
    · refine List.IsPrefix.trans ?_ h.lined
      rw [titles, ht, ← List.append_assoc]
      exact List.prefix_append _ _
    · rw [h.told, List.flatMap_append, List.flatMap_singleton]
      exact (List.prefix_append_right_inj _).2 ho

end View

theorem Broker.view_start_lined (config : Config) (oracle : Oracle)
    (bundleOf : Uid → Option String) (observers : List Observer) :
    (start config oracle bundleOf observers).view.Lined [] where
  sound := view_start_sound config oracle bundleOf observers
  paced := ⟨[], [], [], .nil, List.prefix_rfl, fun _ => rfl, by simp, rfl⟩
  numbered := rfl

/-- Whatever a run signals of ordered chains goes round by round: one round for each chain, in the
order in which the chains were admitted and numbered, of which only the last may be unfinished. -/
theorem Broker.ordered_in_rounds (config : Config) (oracle : Oracle)
    (bundleOf : Uid → Option String) (observers : List Observer) (actions : List Action) :
    let b := start config oracle bundleOf observers
    let admitted := (b.admissions actions).filterMap Admission.title?
    admitted.map Prod.fst = (List.range admitted.length).map (fun i => ⟨i + 1⟩) ∧
      ∃ rounds : List Round,
        List.Forall₂ Round.Serves rounds (admitted.take rounds.length) ∧
        (b.run actions).signals.filter Signal.isOrdered <+: rounds.flatMap Round.signals := by
  intro b admitted
  have hl : b.view.Lined [] := view_start_lined config oracle bundleOf observers
  have hw : (b.run actions).view.Lined admitted := hl.runs (runs_view hl.sound actions).1
  refine ⟨?_, hw.paced.inRounds hw.sound.manned⟩
  have hlen := congrArg List.length hw.numbered
  rw [List.length_map, List.length_map, List.length_range] at hlen
  rw [hlen]
  exact hw.numbered

end EventBroker
