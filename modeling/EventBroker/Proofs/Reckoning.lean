import EventBroker.Proofs.Attending
import EventBroker.Proofs.Effects.Telling
import EventBroker.Proofs.Fates

namespace EventBroker

structure Settlement where
  chain : ChainId
  receiver : SubscriberId
  fate : Fate

def Settlement.verdict? (s : Settlement) : Option (ChainId × SubscriberId × RecordKind) :=
  s.fate.kind?.map (s.chain, s.receiver, ·)

/-- The delivery that a record is about. -/
def Record.verdict? (r : Record) : Option (ChainId × SubscriberId × RecordKind) :=
  r.chain.bind fun id => r.subscriber.map (id, ·, r.kind)

def Record.ending? (r : Record) : Option (ChainId × Option Nat × Option String) :=
  if r.kind = .chainFinished then r.chain.map (·, r.count, r.reason) else none

def Chain.ending (c : Chain) (reason : FinishReason) : ChainId × Option Nat × Option String :=
  (c.id, some (min c.delivered maxCount), some reason.name)

inductive Milestone
  | started
  | fired
  | finished (reason : Option String)
  deriving DecidableEq

def Record.milestone? (r : Record) : Option (ChainId × Milestone) :=
  match r.kind with
  | .chainStarted => r.chain.map (·, .started)
  | .watchdogFired => r.chain.map (·, .fired)
  | .chainFinished => r.chain.map (·, .finished r.reason)
  | _ => none

def Command.ends? (q : Command) (a : Answer) : Option (SubscriberId × Fate) :=
  match q, a with
  | .finish r _ _ abort _, .outcome .accepted => some (r, .finished abort)
  | .release r _, .released true => some (r, .released)
  | _, _ => none

namespace Broker

variable (b : Broker)

def overdue? (c : Chain) : Option (SubscriberId × Fate) :=
  if Chain.due c.watchdogDeadline b.now then c.awaiting.map (·, .expired)
  else if Chain.due c.receiverDeadline b.now then c.awaiting.map (·, .timedOut)
  else none

def passes? (c : Chain) : Option (SubscriberId × Fate) :=
  match c.awaiting, (c.next b.now).1 with
  | none, .deliver _ r =>
    match b.registry.entry? r with
    | none => some (r, .gone)
    | some e => if e.frozenAt.isSome then some (r, .held) else none
  | _, _ => none

def ends? (c : Chain) : Option (SubscriberId × Fate) :=
  match b.sequencer.stage, b.cancelled, b.sequencer.commands with
  | .pumping, _, _ => b.passes? c
  | .listening, false, q :: _ => q.ends? (b.reply q)
  | .listening, false, [] => b.overdue? c
  | _, _, _ => none

def fails? (result : Except DeliveryError Unit) : Option Settlement :=
  match result, b.sequencer.stage with
  | .error _, .handing n _ =>
    b.sequencer.active.bind fun c => n.subscriber.map fun s => ⟨c.id, s.id, .failed⟩
  | _, _ => none

def settlement? : Action → Option Settlement
  | .work .sequencer =>
    b.sequencer.active.bind fun c => (b.ends? c).map fun x => ⟨c.id, x.1, x.2⟩
  | .handedOff .sequencer reception => b.fails? reception.result
  | _ => none

def settlements (b : Broker) : List Action → List Settlement
  | [] => []
  | a :: rest => (b.settlement? a).toList ++ (b.act a).settlements rest

end Broker

/-- What can become of the active chain, with the delivery that is ended by it. -/
inductive Chain.Advances (c : Chain) (now : Instant) : Option (SubscriberId × Fate) → Chain → Prop
  | finished {r : SubscriberId} (hr : c.awaiting = some r) (code : Int) (data : String)
      (abort : Bool) : Advances c now (some (r, .finished abort)) (c.finish r code data abort).2
  | released {r : SubscriberId} (hr : c.awaiting = some r) :
    Advances c now (some (r, .released)) c.release.2
  | timedOut {r : SubscriberId} (hr : c.awaiting = some r)
      (hd : due c.receiverDeadline now = true) :
    Advances c now (some (r, .timedOut)) c.expireReceiver.2
  | expired {r : SubscriberId} (hr : c.awaiting = some r)
      (hd : due c.watchdogDeadline now = true) : Advances c now (some (r, .expired)) c.expire.2
  | passed {c' : Chain} {i : Nat} {r : SubscriberId} {f : Fate} (hs : c.state = .idle)
      (hn : c.next now = (.deliver i r, c')) (hf : f = .gone ∨ f = .held) :
    Advances c now (some (r, f)) c'.skip
  | handing {c' : Chain} {i : Nat} {r : SubscriberId} (hs : c.state = .idle)
      (hn : c.next now = (.deliver i r, c')) : Advances c now none (c'.beginReceiving now)
  | parked : Advances c now none c.handedOff
  | failed {r : SubscriberId} (hs : c.state ≠ .idle) (hr : c.receiver? = some r) :
    Advances c now (some (r, .failed)) c.skip

namespace Chain.Advances

variable {c c' : Chain} {now : Instant} {x : Option (SubscriberId × Fate)}
  {ended : List (SubscriberId × Fate)}

theorem posted (h : c.Advances now x c') (hc : c.Posted ended) :
    c'.Posted (ended ++ x.toList) := by
  cases h with
  | finished hr code data abort => exact hc.finish hr code data abort
  | released hr => exact hc.release hr
  | timedOut hr hd => exact hc.expireReceiver hr
  | expired hr hd => exact hc.expire hr
  | passed hs hn hf => exact hc.pass hs hn hf
  | handing hs hn =>
    rw [Option.toList_none, List.append_nil]
    exact hc.receiving hs hn
  | parked =>
    rw [Option.toList_none, List.append_nil]
    exact hc.handedOff
  | failed hs hr => exact hc.fail hs hr

theorem terms (h : c.Advances now x c') :
    c.Terms c' := by
  cases h with
  | finished hr code data abort =>
    rw [finish_of_awaiting hr]
    exact ⟨rfl, rfl, rfl, rfl, rfl, rfl⟩
  | released hr =>
    rw [release_of_awaiting hr]
    exact ⟨rfl, rfl, rfl, rfl, rfl, rfl⟩
  | timedOut hr hd =>
    rw [expireReceiver_of_awaiting hr]
    exact ⟨rfl, rfl, rfl, rfl, rfl, rfl⟩
  | expired hr hd =>
    rw [expire_of_awaiting hr]
    exact ⟨rfl, rfl, rfl, rfl, rfl, rfl⟩
  | passed hs hn hf =>
    obtain ⟨-, -, -, -, -, rfl⟩ := next_deliver hn
    rw [skip_eq]
    exact ⟨rfl, rfl, rfl, rfl, rfl, rfl⟩
  | handing hs hn =>
    obtain ⟨-, -, -, -, -, rfl⟩ := next_deliver hn
    exact ⟨rfl, rfl, rfl, rfl, rfl, rfl⟩
  | parked =>
    rw [Chain.handedOff]
    split <;> exact ⟨rfl, rfl, rfl, rfl, rfl, rfl⟩
  | failed hs hr =>
    rw [skip_eq]
    exact ⟨rfl, rfl, rfl, rfl, rfl, rfl⟩

end Chain.Advances

namespace View

inductive Advances (v w : View) : Option Settlement → Option (Chain × FinishReason) → Prop
  | aside (ha : w.sequencer.active = v.sequencer.active) (hs : ∀ n c reason,
      w.sequencer.stage = .closing n c reason ↔ v.sequencer.stage = .closing n c reason) :
    Advances v w none none
  | start {c : Chain} {rest : List Chain} (hv : v.sequencer.stage = .pumping)
      (ha : v.sequencer.active = none) (hp : v.sequencer.pending = c :: rest)
      (hw : w.sequencer.active = some (c.start v.now)) (hs : w.sequencer.stage = .pumping) :
    Advances v w none none
  | go {c c' : Chain} {x : Option (SubscriberId × Fate)} (ha : v.sequencer.active = some c)
      (hw : w.sequencer.active = some c') (hc : c.Advances v.now x c')
      (hv : ∀ n d reason, v.sequencer.stage ≠ .closing n d reason)
      (hs : ∀ n d reason, w.sequencer.stage ≠ .closing n d reason) :
    Advances v w (x.map fun x => ⟨c.id, x.1, x.2⟩) none
  | finish {c c' : Chain} {reason : FinishReason} (hv : v.sequencer.stage = .pumping)
      (ha : v.sequencer.active = some c) (hi : c.state = .idle)
      (hn : c.next v.now = (.finalize reason, c')) (hw : w.sequencer.active = none)
      (hs : w.sequencer.stage = .pumping) : Advances v w none (some (c', reason))
  | close {n : Notice} {c c' : Chain} {reason : FinishReason} (hv : v.sequencer.stage = .pumping)
      (ha : v.sequencer.active = some c) (hi : c.state = .idle)
      (hn : c.next v.now = (.finalize reason, c')) (hw : w.sequencer.active = none)
      (hs : w.sequencer.stage = .closing n c' reason) : Advances v w none none
  | closed {n : Notice} {c : Chain} {reason : FinishReason}
      (hv : v.sequencer.stage = .closing n c reason) (hw : w.sequencer.active = none)
      (hs : w.sequencer.stage = .pumping) : Advances v w none (some (c, reason))

def starts (v w : View) : Option ChainId :=
  match v.sequencer.active, w.sequencer.active with
  | none, some c => some c.id
  | _, _ => none

/-- What is to be told of a chain as a whole when the step from `v` to `w` ends the delivery `s`, or
none, and finishes the chain `f`, or none. -/
def milestone? (v w : View) (s : Option Settlement) (f : Option (Chain × FinishReason)) :
    Option (ChainId × Milestone) :=
  match f, s with
  | some (c, reason), _ => some (c.id, .finished (some reason.name))
  | none, some s => if s.fate = .expired then some (s.chain, .fired) else none
  | none, none => (v.starts w).map (·, .started)

def Addressed (v : View) : Prop :=
  ∀ n i c, v.sequencer.stage = .handing n i → v.sequencer.active = some c →
    n.subscriber.map Subscriber.id = c.receiver?

variable {v w : View}

theorem starts_of_active {c : Chain} (h : v.sequencer.active = some c) : v.starts w = none := by
  rw [starts, h]

theorem starts_of_same (h : w.sequencer.active = v.sequencer.active) : v.starts w = none := by
  rw [starts, h]
  cases v.sequencer.active <;> rfl

theorem Advances.starts_eq {s : Option Settlement} {f : Option (Chain × FinishReason)}
    (h : v.Advances w s f) (hs : v.sequencer.stage ≠ .pumping) : v.starts w = none := by
  cases h with
  | aside ha _ => exact starts_of_same ha
  | go ha _ _ _ _ => exact starts_of_active ha
  | closed hv hw _ =>
    rw [starts, hw]
    cases v.sequencer.active <;> rfl
  | start hv _ _ _ _ => exact absurd hv hs
  | finish hv _ _ _ _ _ => exact absurd hv hs
  | close hv _ _ _ _ _ => exact absurd hv hs

theorem Moves.addressed {es : List ChainEvent} (h : v.Moves es w) (hr : v.registry.Sound) :
    w.Addressed := by
  intro n i c hs ha
  cases h with
  | ignore h hq hn ha' => rw [h] at hs; cases hs
  | @hand c₀ c' j r e h ha' hw hn he hf =>
    cases hs
    cases ha
    obtain ⟨-, -, -, -, hget, rfl⟩ := Chain.next_deliver hn
    exact (congrArg some (hr.keyed he)).trans hget.symm
  | _ => simp_all [tell]

theorem Sound.idle_of_pumping (hv : v.Sound) (hs : v.sequencer.stage = .pumping) {c : Chain}
    (ha : v.sequencer.active = some c) (hw : c.awaiting = none) : c.state = .idle := by
  cases hstate : c.state with
  | idle => rfl
  | receiving => exact absurd hstate (hv.sequencer.moving hs c ha)
  | received =>
    obtain ⟨r, hr⟩ := (hv.sequencer.active c ha).awaiting hstate
    cases hw.symm.trans hr

end View

namespace Broker

variable {b b' : Broker}

structure Reckons (b b' : Broker) (s : Option Settlement) (f : Option (Chain × FinishReason))
    (rs : List Record) : Prop where
  advances : b.view.Advances b'.view s f
  reports : b'.reports = b.reports ++ rs
  verdicts : rs.filterMap Record.verdict? = (s.bind Settlement.verdict?).toList
  endings : rs.filterMap Record.ending? = (f.map fun x => x.1.ending x.2).toList
  milestones : rs.filterMap Record.milestone? = (b.view.milestone? b'.view s f).toList

theorem Reckons.silent {s : Option Settlement} (h : b.view.Advances b'.view s none)
    (hr : b'.reports = b.reports) (hs : s.bind Settlement.verdict? = none)
    (hn : b.view.starts b'.view = none) : b.Reckons b' s none [] where
  advances := h
  reports := by rw [hr, List.append_nil]
  verdicts := by rw [hs]; rfl
  endings := rfl
  milestones := by
    cases s with
    | none => rw [View.milestone?, hn]; rfl
    | some s =>
      have hfate : s.fate ≠ .expired := fun hf => by
        simp [Settlement.verdict?, hf, Fate.kind?] at hs
      rw [View.milestone?, if_neg hfate]
      rfl

theorem Reckons.aside (h : b'.sequencer = b.sequencer) (hr : b'.reports = b.reports) :
    b.Reckons b' none none [] := by
  refine .silent (.aside ?_ ?_) hr rfl (View.starts_of_same (congrArg Sequencer.active h))
  · exact congrArg Sequencer.active h
  · intro n c reason
    rw [show b'.view.sequencer = b.view.sequencer from h]

theorem Reckons.stop (h : b'.view = { b.view with
      sequencer := { b.view.sequencer with commands := [], stage := .stopped } })
    (hs : ∀ n c reason, b.sequencer.stage ≠ .closing n c reason) (hr : b'.reports = b.reports) :
    b.Reckons b' none none [] := by
  have ha : b'.view.sequencer.active = b.view.sequencer.active := by rw [h]
  refine .silent (.aside ha fun n c reason => ?_) hr rfl (View.starts_of_same ha)
  rw [h]
  exact iff_of_false SequencerStage.noConfusion (hs n c reason)

theorem settlement?_of_active {c : Chain} (ha : b.sequencer.active = some c) :
    b.settlement? (.work .sequencer) = (b.ends? c).map fun x => ⟨c.id, x.1, x.2⟩ := by
  rw [settlement?, ha, Option.bind_some]

theorem ends?_of_pumping (hs : b.sequencer.stage = .pumping) (c : Chain) :
    b.ends? c = b.passes? c := by
  rw [ends?, hs]

theorem Reckons.reported {s : Option Settlement} {f : Option (Chain × FinishReason)} {l : LogLine}
    {r : Record} (h : b.view.Advances b'.view s f) (hp : b'.past = ((b.log l).emit r).past)
    (hk : r.kind.ofDelivery = true) (hv : r.verdict? = s.bind Settlement.verdict?)
    (he : r.ending? = f.map fun x => x.1.ending x.2)
    (hm : r.milestone? = b.view.milestone? b'.view s f) : b.Reckons b' s f [r] where
  advances := h
  reports := by
    have hreports : b'.reports = ((b.log l).emit r).reports := by
      rw [Broker.reports, told, history, hp]
      rfl
    rw [hreports, reports_emit _ hk, reports_log]
  verdicts := by
    rw [← hv]
    cases hr : r.verdict? <;> simp [hr]
  endings := by
    rw [← he]
    cases hr : r.ending? <;> simp [hr]
  milestones := by
    rw [← hm]
    cases hr : r.milestone? <;> simp [hr]

section Pumping

variable {c c' : Chain}

theorem reckons_startChain (hs : b.sequencer.stage = .pumping) (ha : b.sequencer.active = none)
    {rest : List Chain} (hp : b.sequencer.pending = c :: rest) :
    ∃ f rs, b.Reckons (b.startChain c rest) none f rs := by
  refine ⟨none, _, .reported (.start hs ha hp rfl hs) rfl rfl rfl rfl ?_⟩
  have hstarts : b.view.starts (b.startChain c rest).view = some c.id := by
    rw [View.starts, show b.view.sequencer.active = none from ha]
    rfl
  rw [View.milestone?, hstarts]
  rfl

theorem reckons_finalize (hs : b.sequencer.stage = .pumping) (ha : b.sequencer.active = some c)
    (hi : c.state = .idle) {reason : FinishReason}
    (hn : c.next b.now = (.finalize reason, c')) :
    ∃ f rs, b.Reckons (b.finalize c' reason) none f rs := by
  rw [finalize]
  cases hf : c'.finalReceiver with
  | none => exact ⟨_, _, .reported (.finish hs ha hi hn rfl rfl) rfl rfl rfl rfl rfl⟩
  | some f =>
    refine ⟨none, [], .silent (.close hs ha hi hn rfl rfl) ?_ rfl (View.starts_of_active ha)⟩
    rw [reports_notifying, reports_setStage, reports_setActive]

theorem reckons_deliverTo (hv : b.view.Sound) (hs : b.sequencer.stage = .pumping)
    (ha : b.sequencer.active = some c) (hw : c.awaiting = none) {i : Nat} {r : SubscriberId}
    (hn : c.next b.now = (.deliver i r, c')) :
    ∃ f rs, b.Reckons (b.deliverTo c' i r) (b.settlement? (.work .sequencer)) f rs := by
  have hi := hv.idle_of_pumping hs ha hw
  have hopen : ∀ n d reason, b.sequencer.stage ≠ .closing n d reason := by simp [hs]
  have hpasses : b.passes? c = match b.registry.entry? r with
      | none => some (r, .gone)
      | some e => if e.frozenAt.isSome then some (r, .held) else none := by
    rw [passes?, hw, hn]
  rw [settlement?_of_active ha, ends?_of_pumping hs, hpasses, deliverTo]
  cases he : b.registry.entry? r with
  | none =>
    rw [b.approach_gone he]
    exact ⟨none, [], .silent (.go ha rfl (.passed hi hn (.inl rfl)) hopen hopen) rfl rfl
      (View.starts_of_active ha)⟩
  | some e =>
    by_cases hf : e.frozenAt = none
    · rw [b.approach_ready he hf]
      dsimp only
      rw [hf, Option.isSome_none, if_neg Bool.false_ne_true]
      refine ⟨none, [], .silent (.go ha rfl (.handing hi hn) hopen ?_) ?_ rfl
        (View.starts_of_active ha)⟩
      · exact fun _ _ _ h => SequencerStage.noConfusion h
      · rw [reports_notifying, reports_setStage, reports_setActive]
    · obtain ⟨b', hb, hview⟩ := b.approach_frozen he hf c'.copy (some c'.id)
      obtain ⟨-, x, hk, hchain, hsub, hx⟩ := reports_approach he hf hb
      have hid : c'.id = c.id := by
        obtain ⟨-, -, -, -, -, rfl⟩ := Chain.next_deliver hn
        rfl
      have hstage : b'.sequencer.stage = b.sequencer.stage :=
        congrArg (fun v => v.sequencer.stage) hview
      rw [hb]
      dsimp only
      rw [Option.isSome_iff_ne_none.2 hf, if_pos rfl]
      refine ⟨none, [x],
        ⟨.go ha rfl (.passed hi hn (.inr rfl)) hopen (hstage ▸ hopen), hx, ?_, ?_, ?_⟩⟩
      · simp [Record.verdict?, hchain, hsub, hk, hid, Settlement.verdict?, Fate.kind?]
      · simp [Record.ending?, hk]
      · simp [Record.milestone?, hk, View.milestone?]

theorem PumpStep.reckons {b' : Broker} (h : b.PumpStep b') (hv : b.view.Sound)
    (hs : b.sequencer.stage = .pumping) :
    ∃ f rs, b.Reckons b' (b.settlement? (.work .sequencer)) f rs := by
  have hrest : b.Reckons (b.setStage .listening) none none [] :=
    .silent (.aside rfl (by simp [view, setStage, hs])) rfl rfl (View.starts_of_same rfl)
  have passing {c : Chain} (ha : b.sequencer.active = some c) (hp : b.passes? c = none) :
      b.settlement? (.work .sequencer) = none := by
    rw [settlement?_of_active ha, ends?_of_pumping hs, hp]
    rfl
  cases h with
  | rest ha =>
    rw [settlement?, ha]
    exact ⟨none, [], hrest⟩
  | start ha hp =>
    rw [settlement?, ha]
    exact reckons_startChain hs ha hp
  | park ha hw =>
    rw [passing ha (by rw [passes?, hw])]
    exact ⟨none, [], hrest⟩
  | @breakDown c ha hb =>
    have hp : b.passes? c = none := by
      rw [passes?]
      cases hw : c.awaiting with
      | some r => rfl
      | none => rw [Chain.next_of_breaksDown hw hb]
    rw [passing ha hp]
    exact ⟨none, [], .stop b.view_breakDown (by simp [hs]) b.quiet_breakDown.reports_eq⟩
  | finalize ha hw hn =>
    rw [passing ha (by rw [passes?, hw, hn])]
    exact reckons_finalize hs ha (hv.idle_of_pumping hs ha hw) hn
  | deliver ha hw hn => exact reckons_deliverTo hv hs ha hw hn

end Pumping

section Listening

variable {c : Chain} {q : Command} {rest : List Command}

theorem settlement?_of_listening (hl : b.sequencer.stage = .listening) (hc : b.cancelled = false)
    (hq : b.sequencer.commands = []) (ha : b.sequencer.active = some c) :
    b.settlement? (.work .sequencer) = (b.overdue? c).map fun x => ⟨c.id, x.1, x.2⟩ := by
  rw [settlement?_of_active ha, ends?, hl, hc, hq]

theorem settlement?_of_takesUp (hq : b.TakesUp q rest) (ha : b.sequencer.active = some c) :
    b.settlement? (.work .sequencer) =
      (q.ends? (b.reply q)).map fun x => ⟨c.id, x.1, x.2⟩ := by
  rw [settlement?_of_active ha, ends?, hq.listening, hq.running, hq.commands]

theorem reckons_sweep (hv : b.view.Sound) (hl : b.sequencer.stage = .listening)
    (hc : b.cancelled = false) (hq : b.sequencer.commands = []) (h : b.sweep = some b') :
    ∃ f rs, b.Reckons b' (b.settlement? (.work .sequencer)) f rs := by
  have hopen : ∀ n d reason, b.sequencer.stage ≠ .closing n d reason := by simp [hl]
  cases sweep_cases h with
  | watchdog ha hd =>
    obtain ⟨r, hr⟩ := hv.sequencer.awaiting hl ha
    rw [settlement?_of_listening hl hc hq ha, overdue?, hr, if_pos hd]
    refine ⟨none, _, .reported (.go ha rfl (.expired hr hd) hopen ?_) rfl rfl ?_ rfl rfl⟩
    · exact fun _ _ _ h => SequencerStage.noConfusion h
    · rw [hr]
      rfl
  | receiver ha hw hd hr =>
    rw [settlement?_of_listening hl hc hq ha, overdue?, hr, if_neg hw, if_pos hd]
    refine ⟨none, _, .reported (.go ha rfl (.timedOut hr hd) hopen ?_) rfl rfl rfl rfl rfl⟩
    exact fun _ _ _ h => SequencerStage.noConfusion h
  | nobody ha hw hd hnone =>
    obtain ⟨r, hr⟩ := hv.sequencer.awaiting hl ha
    cases hnone.symm.trans hr

theorem settlement?_of_unended (hq : b.TakesUp q rest) (h : q.ends? (b.reply q) = none) :
    b.settlement? (.work .sequencer) = none := by
  cases ha : b.sequencer.active with
  | none =>
    rw [settlement?, ha]
    rfl
  | some c =>
    rw [settlement?_of_takesUp hq ha, h]
    rfl

theorem verdict?_of_takesUp (hq : b.TakesUp q rest) :
    (b.settlement? (.work .sequencer)).bind Settlement.verdict? = none := by
  cases h : q.ends? (b.reply q) with
  | none =>
    rw [settlement?_of_unended hq h]
    rfl
  | some x =>
    cases ha : b.sequencer.active with
    | none =>
      rw [settlement?, ha]
      rfl
    | some c =>
      have hsilent : x.2.kind? = none := by
        unfold Command.ends? at h
        split at h
        · cases h
          rfl
        · cases h
          rfl
        · cases h
      rw [settlement?_of_takesUp hq ha, h]
      exact congrArg (Option.map _) hsilent

theorem reports_takesUp (hq : b.TakesUp q rest) :
    (b.act (.work .sequencer)).reports = b.reports := by
  rw [act_takesUp hq]
  have h := ({ b with sequencer := { b.sequencer with commands := rest } }).quiet_handle q
  exact h.reports_eq

theorem advances_unended (hq : b.TakesUp q rest) (h : q.ends? (b.reply q) = none)
    (ha : (b.act (.work .sequencer)).sequencer.active = b.sequencer.active)
    (hs : ∀ n d reason, (b.act (.work .sequencer)).sequencer.stage ≠ .closing n d reason) :
    b.view.Advances (b.act (.work .sequencer)).view (b.settlement? (.work .sequencer)) none := by
  rw [settlement?_of_unended hq h]
  refine .aside ha fun n c reason => iff_of_false (hs n c reason) ?_
  exact fun h => SequencerStage.noConfusion (hq.listening.symm.trans h)

theorem advances_ended {c' : Chain} {x : SubscriberId × Fate} (hq : b.TakesUp q rest)
    (ha : b.sequencer.active = some c) (h : q.ends? (b.reply q) = some x)
    (hgo : c.Advances b.now (some x) c')
    (ha' : (b.act (.work .sequencer)).sequencer.active = some c')
    (hs : (b.act (.work .sequencer)).sequencer.stage = .pumping) :
    b.view.Advances (b.act (.work .sequencer)).view (b.settlement? (.work .sequencer)) none := by
  rw [settlement?_of_takesUp hq ha, h]
  refine .go ha ha' hgo (fun n d reason h => ?_) (fun n d reason h => ?_)
  · exact SequencerStage.noConfusion (hq.listening.symm.trans h)
  · exact SequencerStage.noConfusion (hs.symm.trans h)

theorem advances_takesUp (hq : b.TakesUp q rest) :
    b.view.Advances (b.act (.work .sequencer)).view (b.settlement? (.work .sequencer)) none := by
  have hact := congrArg (fun b => b.view.sequencer) (act_takesUp hq)
  have hlisten : ∀ n d reason, b.sequencer.stage ≠ .closing n d reason :=
    fun _ _ _ h => SequencerStage.noConfusion (hq.listening.symm.trans h)
  have kept (h : q.ends? (b.reply q) = none)
      (hv : (({ b with sequencer := { b.sequencer with commands := rest } }).handle q).view =
        ({ b with sequencer := { b.sequencer with commands := rest } } : Broker).view) :
      b.view.Advances (b.act (.work .sequencer)).view (b.settlement? (.work .sequencer)) none := by
    have hkept : (b.act (.work .sequencer)).sequencer = { b.sequencer with commands := rest } :=
      hact.trans (congrArg View.sequencer hv)
    refine advances_unended hq h (congrArg Sequencer.active hkept :) ?_
    rw [hkept]
    exact hlisten
  cases q with
  | enqueue c =>
    refine advances_unended hq rfl (congrArg Sequencer.active hact :) ?_
    have hstage : (b.act (.work .sequencer)).sequencer.stage = .pumping :=
      congrArg Sequencer.stage hact
    rw [hstage]
    exact fun _ _ _ h => SequencerStage.noConfusion h
  | finish r code data abort k =>
    by_cases hp : b.ParkedOn r
    · obtain ⟨c, ha, hr⟩ := Option.bind_eq_some_iff.1 (parkedOn_iff.1 hp)
      have hv := view_handle_finish (b := { b with
        sequencer := { b.sequencer with commands := rest } }) ha hr code data abort k
      have hx : Command.ends? (.finish r code data abort k)
          (b.reply (.finish r code data abort k)) = some (r, .finished abort) := by
        rw [reply, if_pos hp]
        rfl
      replace hact := hact.trans (congrArg View.sequencer hv)
      exact advances_ended hq ha hx (.finished hr code data abort)
        (congrArg Sequencer.active hact :) (congrArg Sequencer.stage hact :)
    · have hv := view_handle_stale (b := { b with
        sequencer := { b.sequencer with commands := rest } }) (mt parkedOn_iff.2 hp) code data abort
        k
      refine kept ?_ hv
      rw [reply, if_neg hp]
      rfl
  | release r k =>
    by_cases hp : b.ParkedOn r
    · obtain ⟨c, ha, hr⟩ := Option.bind_eq_some_iff.1 (parkedOn_iff.1 hp)
      have hv := view_handle_release (b := { b with
        sequencer := { b.sequencer with commands := rest } }) ha hr k
      have hx : Command.ends? (.release r k) (b.reply (.release r k)) = some (r, .released) := by
        rw [reply, decide_eq_true hp]
        rfl
      replace hact := hact.trans (congrArg View.sequencer hv)
      exact advances_ended hq ha hx (.released hr) (congrArg Sequencer.active hact :)
        (congrArg Sequencer.stage hact :)
    · have hv := view_handle_unreleased (b := { b with
        sequencer := { b.sequencer with commands := rest } }) (mt parkedOn_iff.2 hp) k
      refine kept ?_ hv
      rw [reply, decide_eq_false hp]
      rfl
  | active r k => exact kept rfl rfl

theorem reckons_takesUp (hq : b.TakesUp q rest) :
    b.Reckons (b.act (.work .sequencer)) (b.settlement? (.work .sequencer)) none [] := by
  have ha := advances_takesUp hq
  refine .silent ha (reports_takesUp hq) (verdict?_of_takesUp hq) (ha.starts_eq ?_)
  exact fun h => SequencerStage.noConfusion (hq.listening.symm.trans h)

theorem overdue?_of_sweep (ha : b.sequencer.active = some c) (h : b.sweep = none) :
    b.overdue? c = none := by
  obtain ⟨hw, hd⟩ := not_due_of_sweep h ha
  rw [overdue?, if_neg hw, if_neg hd]

theorem reckons_listening (hv : b.view.Sound) (hl : b.sequencer.stage = .listening) :
    ∃ f rs, b.Reckons (b.act (.work .sequencer)) (b.settlement? (.work .sequencer)) f rs := by
  have unsettled (h : ∀ c, b.sequencer.active = some c → b.ends? c = none) :
      b.settlement? (.work .sequencer) = none := by
    rw [settlement?]
    cases ha : b.sequencer.active with
    | none => rfl
    | some c => rw [Option.bind_some, h c ha, Option.map_none]
  by_cases hc : b.cancelled = true
  · have hact : b.act (.work .sequencer) = b.stopSequencer := by
      change b.sequencerStep.getD b = _
      rw [sequencerStep, hl]
      dsimp only
      rw [if_pos hc, Option.getD_some]
    rw [hact, unsettled fun c ha => by rw [ends?, hl, hc]]
    exact ⟨none, [], .stop b.view_stopSequencer (by simp [hl]) b.quiet_stopSequencer.reports_eq⟩
  · rw [Bool.not_eq_true] at hc
    cases hq : b.sequencer.commands with
    | cons q rest => exact ⟨none, [], reckons_takesUp ⟨hl, hc, hq⟩⟩
    | nil =>
      have hact : b.act (.work .sequencer) = b.sweep.getD b := by
        change b.sequencerStep.getD b = _
        rw [sequencerStep, hl]
        dsimp only
        rw [if_neg (Bool.not_eq_true _ ▸ hc), hq]
      rw [hact]
      cases h : b.sweep with
      | some b' => exact reckons_sweep hv hl hc hq h
      | none =>
        rw [unsettled fun c ha => by rw [ends?, hl, hc, hq]; exact overdue?_of_sweep ha h]
        exact ⟨none, [], .aside rfl rfl⟩

end Listening

section HandingOver

variable {n : Notice}

theorem act_of_still (hp : b.sequencer.stage ≠ .pumping) (hl : b.sequencer.stage ≠ .listening) :
    b.act (.work .sequencer) = b := by
  change b.sequencerStep.getD b = b
  rw [sequencerStep]
  cases hs : b.sequencer.stage with
  | pumping => exact absurd hs hp
  | listening => exact absurd hs hl
  | _ => rfl

theorem reckons_work (hv : b.view.Sound) :
    ∃ f rs, b.Reckons (b.act (.work .sequencer)) (b.settlement? (.work .sequencer)) f rs := by
  by_cases hp : b.sequencer.stage = .pumping
  · have hact : b.act (.work .sequencer) = b.pumpStep := by
      change b.sequencerStep.getD b = _
      rw [sequencerStep, hp]
      rfl
    rw [hact]
    exact b.pumpStep_cases.reckons hv hp
  · by_cases hl : b.sequencer.stage = .listening
    · exact reckons_listening hv hl
    · have hnone : b.settlement? (.work .sequencer) = none := by
        have hends (c : Chain) : b.ends? c = none := by
          rw [ends?]
          split <;> first | contradiction | rfl
        rw [settlement?]
        cases b.sequencer.active with
        | none => rfl
        | some c => rw [Option.bind_some, hends, Option.map_none]
      rw [act_of_still hp hl, hnone]
      exact ⟨none, [], .aside rfl rfl⟩

theorem reckons_handing (hv : b.view.Sound) (ha : b.view.Addressed) {i : Nat}
    (hs : b.sequencer.stage = .handing n i) (result : Except DeliveryError Unit) :
    ∃ f rs, b.Reckons (b.sequencerConclude result) (b.fails? result) f rs := by
  obtain ⟨-, c, hc, -⟩ := hv.sequencer.handing hs
  obtain ⟨hstate, s, t, rfl⟩ := hv.handing hs hc
  replace hc : b.sequencer.active = some c := hc
  have hopen : ∀ m d reason, b.sequencer.stage ≠ .closing m d reason :=
    fun _ _ _ h => SequencerStage.noConfusion (hs.symm.trans h)
  have hnoted : (b.note (.notified .sequencer (c.notice s.receiver (some s) t) result)).reports =
      b.reports := b.reports_notified _ _ _
  rw [sequencerConclude, hs]
  dsimp only
  generalize hb : b.note (.notified .sequencer (c.notice s.receiver (some s) t) result) = b₁
    at hnoted
  have hc' : b₁.sequencer.active = some c := by
    rw [← hb]
    exact hc
  rw [hc']
  cases result with
  | ok u =>
    dsimp only [Chain.notice]
    refine ⟨none, [], .silent (.go hc rfl .parked hopen ?_) ?_ rfl (View.starts_of_active hc)⟩
    · intro m d reason
      dsimp only [view, setStage]
      split <;> exact SequencerStage.noConfusion
    · rw [reports_setStage, reports_log, reports_setActive, hnoted]
  | error e =>
    have hsettled : b.fails? (.error e) =
        (some (s.id, Fate.failed)).map fun x => ⟨c.id, x.1, x.2⟩ := by
      rw [fails?.eq_1 b e _ i hs]
      dsimp only [Chain.notice]
      rw [hc]
      rfl
    have hreceiver : c.receiver? = some s.id := (ha _ i c hs hc).symm
    have hgo : c.Advances b.now (some (s.id, .failed)) c.skip :=
      .failed (by simp [hstate]) hreceiver
    obtain ⟨x, hk, hchain, hsub, hx⟩ := b₁.reports_deliveryFailed s c.copy (some c.id) e
    rw [hsettled]
    dsimp only [Chain.notice]
    refine ⟨none, [x], ⟨.go hc rfl hgo hopen ?_, ?_, ?_, ?_, ?_⟩⟩
    · exact fun _ _ _ h => SequencerStage.noConfusion h
    · rw [reports_setStage, reports_setActive, hx, hnoted]
    · simp [Record.verdict?, hchain, hsub, hk, Settlement.verdict?, Fate.kind?]
    · simp [Record.ending?, hk]
    · simp [Record.milestone?, hk, View.milestone?]

theorem reckons_closing {c : Chain} {reason : FinishReason} (hv : b.view.Sound)
    (hs : b.sequencer.stage = .closing n c reason) (result : Except DeliveryError Unit) :
    ∃ f rs, b.Reckons (b.sequencerConclude result) none f rs := by
  have hnone : b.view.sequencer.active = none := hv.sequencer.closing hs
  have hw := congrArg View.sequencer (b.view_closed hs result)
  have hclosed : b.view.Advances (b.sequencerConclude result).view none (some (c, reason)) :=
    .closed hs ((congrArg Sequencer.active hw :).trans hnone) (congrArg Sequencer.stage hw :)
  have hnoted : (b.note (.notified .sequencer n result)).reports = b.reports :=
    b.reports_notified _ _ _
  rw [sequencerConclude, hs] at hclosed ⊢
  dsimp only at hclosed ⊢
  generalize b.note (.notified .sequencer n result) = b₁ at hnoted hclosed ⊢
  have ends {x : Record} (hk : x.kind = .chainFinished) (hchain : x.chain = some c.id)
      (hcount : x.count = some (min c.delivered maxCount))
      (hreason : x.reason = some reason.name) :
      x.ending? = some (c.ending reason) := by
    rw [Record.ending?, if_pos hk, hchain, hcount, hreason]
    rfl
  have tells {x : Record} (hk : x.kind = .chainFinished) (hchain : x.chain = some c.id)
      (hreason : x.reason = some reason.name) :
      x.milestone? = some (c.id, .finished (some reason.name)) := by
    rw [Record.milestone?, hk]
    dsimp only
    rw [hchain, hreason]
    rfl
  cases result with
  | ok u =>
    obtain ⟨x, hk, hchain, hsub, hcount, hreason, hx⟩ := b₁.reports_chainFinished c reason
    refine ⟨some (c, reason), [x], ⟨hclosed, hx.trans (by rw [hnoted]), ?_, ?_, ?_⟩⟩
    · simp [Record.verdict?, hsub]
    · simp [ends hk hchain hcount hreason]
    · simp [tells hk hchain hreason, View.milestone?]
  | error e =>
    dsimp only
    generalize hb : b₁.log _ = b₂
    have hlogged : b₂.reports = b.reports := by
      rw [← hb, reports_log, hnoted]
    generalize hr : Record.setReason _ _ = r
    have hkind : r.kind = .deliveryFailed ∧ r.subscriber = none := by
      rw [← hr]
      exact ⟨rfl, rfl⟩
    obtain ⟨x, hk, hchain, hsub, hcount, hreason, hx⟩ :=
      (b₂.emit r).reports_chainFinished c reason
    refine ⟨some (c, reason), [r, x], ⟨?_, ?_, ?_, ?_, ?_⟩⟩
    · rw [← hb, ← hr]
      exact hclosed
    · rw [hx, reports_emit _ (by rw [hkind.1]; rfl), hlogged, List.append_assoc]
      rfl
    · simp [Record.verdict?, hsub, hkind]
    · have hsilent : r.ending? = none := by simp [Record.ending?, hkind]
      simp [ends hk hchain hcount hreason, hsilent]
    · have hsilent : r.milestone? = none := by simp [Record.milestone?, hkind]
      simp [tells hk hchain hreason, hsilent, View.milestone?]

theorem reckons_handedOff (hv : b.view.Sound) (ha : b.view.Addressed) (reception : Reception) :
    ∃ f rs, b.Reckons (b.act (.handedOff .sequencer reception))
      (b.settlement? (.handedOff .sequencer reception)) f rs := by
  change ∃ f rs, b.Reckons (b.sequencerConclude reception.result) (b.fails? reception.result) f rs
  generalize reception.result = result
  have unsettled (h : ∀ n i, b.sequencer.stage ≠ .handing n i) : b.fails? result = none := by
    unfold fails?
    split
    · exact absurd ‹_› (h _ _)
    · rfl
  cases hs : b.sequencer.stage with
  | handing n i => exact reckons_handing hv ha hs result
  | closing n c reason =>
    rw [unsettled (by simp [hs])]
    exact reckons_closing hv hs result
  | _ =>
    rw [unsettled (by simp [hs]), sequencerConclude, hs]
    exact ⟨none, [], .aside rfl rfl⟩

end HandingOver

theorem reckons_chainless (ht : b.Tells Occurrence.Chainless b')
    (hs : b'.sequencer = b.sequencer) : ∃ f rs, b.Reckons b' none f rs := by
  obtain ⟨rs, hrs⟩ := ht.grows.reports
  have unchanged {β : Type} (f : Record → Option β) (hf : ∀ r, r.chain = none → f r = none) :
      rs.filterMap f = [] := by
    have htold : b'.told (fun o => o.reported.bind f) = b.told (fun o => o.reported.bind f) := by
      refine ht.told_eq fun o ho => ?_
      cases hr : o.reported with
      | none => rfl
      | some r => exact hf r (ho r hr)
    have hread (b : Broker) : b.reports.filterMap f = b.told (fun o => o.reported.bind f) :=
      List.filterMap_filterMap
    rw [← hread, ← hread, ← hrs, List.filterMap_append] at htold
    exact List.append_right_eq_self.1 htold
  refine ⟨none, rs, ⟨.aside (congrArg Sequencer.active hs) ?_, hrs.symm, ?_, ?_, ?_⟩⟩
  · intro n c reason
    rw [show b'.view.sequencer = b.view.sequencer from hs]
  · exact unchanged _ fun r hr => by rw [Record.verdict?, hr]; rfl
  · exact unchanged _ fun r hr => by simp [Record.ending?, hr]
  · rw [View.milestone?, View.starts_of_same (congrArg Sequencer.active hs)]
    refine unchanged _ fun r hr => ?_
    rw [Record.milestone?, hr]
    split <;> rfl

theorem settlement?_of_aside {a : Action} (hw : a ≠ .work .sequencer)
    (hh : ∀ reception, a ≠ .handedOff .sequencer reception) : b.settlement? a = none := by
  unfold settlement?
  split
  · exact absurd rfl hw
  · exact absurd rfl (hh _)
  · rfl

theorem reckons_act (hv : b.view.Sound) (ha : b.view.Addressed) (a : Action) :
    ∃ f rs, b.Reckons (b.act a) (b.settlement? a) f rs := by
  by_cases hw : a = .work .sequencer
  · subst hw
    exact reckons_work hv
  by_cases hh : ∃ reception, a = .handedOff .sequencer reception
  · obtain ⟨reception, rfl⟩ := hh
    exact reckons_handedOff hv ha reception
  rw [settlement?_of_aside hw fun reception h => hh ⟨reception, h⟩]
  cases hi : isWork a with
  | false =>
    obtain ⟨cs, -, hs⟩ := (b.act_request hi).sends
    refine ⟨none, [], .silent (.aside (congrArg Sequencer.active hs :) fun n c reason => ?_)
      (b.quiet_act hi).reports_eq rfl (View.starts_of_same (congrArg Sequencer.active hs :))⟩
    rw [congrArg Sequencer.stage hs]
  | true =>
    cases a with
    | work w =>
      change ∃ f rs, b.Reckons ((b.work w).getD b) none f rs
      cases hb : b.work w with
      | none => exact ⟨none, [], .aside rfl rfl⟩
      | some b' =>
        cases w with
        | listener =>
          exact ⟨none, [], .aside (congrArg View.sequencer (listenerStep_view hb))
            (quiet_listenerStep hb).reports_eq⟩
        | observer i =>
          exact ⟨none, [], .aside (congrArg View.sequencer (observerStep_view hb))
            (quiet_observerStep hb).reports_eq⟩
        | courier lane =>
          refine reckons_chainless (chainless_courierStep hb) ?_
          exact (courierStep_carries hb).sequencer_eq
        | sequencer => exact absurd rfl hw
    | handedOff w reception =>
      cases w with
      | courier lane =>
        refine reckons_chainless (b.chainless_courierConclude lane reception.result) ?_
        cases b.courierConclude_carries lane reception.result with
        | inl h => exact congrArg View.sequencer h
        | inr h => exact h.2.sequencer_eq
      | sequencer => exact absurd ⟨reception, rfl⟩ hh
      | _ => exact ⟨none, [], .aside rfl rfl⟩
    | _ => cases hi

end Broker

end EventBroker
