import EventBroker.Proofs.Effects.Delivering
import EventBroker.Proofs.Effects.Stepping
import EventBroker.Proofs.RegistryLaws
import EventBroker.Proofs.VaultLaws

/-! What the sequencer does to the view, with what its moves mean for the chains. Most of that is
signalled; that a finish is accepted, or an event held for a chain, is read off the state. -/

namespace EventBroker

/-- One thing that befalls an ordered chain. -/
inductive ChainEvent
  | signal (s : Signal)
  | accepted (chain : ChainId) (receiver : SubscriberId) (code : Int) (data : String) (abort : Bool)
  | held (chain : ChainId) (receiver : SubscriberId) (item : Option (Copy × Instant))

def ChainEvent.signal? : ChainEvent → Option Signal
  | signal s => some s
  | _ => none

def Chain.notice (c : Chain) (receiver : Receiver) (s : Option Subscriber) (now : Instant) :
    Notice :=
  ⟨receiver, s, c.copy, c.flags, some c.id, now⟩

namespace View

variable (v : View)

def accepting : Option ChainEvent :=
  match v.sequencer.stage, v.cancelled with
  | .listening, false =>
    match v.sequencer.commands, v.sequencer.active with
    | .finish receiver code data abort _ :: _, some c =>
      if (c.finish receiver code data abort).1 = .accepted then
        some (.accepted c.id receiver code data abort)
      else none
    | _, _ => none
  | _, _ => none

def turn : Option (Chain × SubscriberId) :=
  match v.sequencer.stage, v.sequencer.active with
  | .pumping, some c =>
    match c.awaiting, (c.next v.now).1 with
    | none, .deliver _ receiver => some (c, receiver)
    | _, _ => none
  | _, _ => none

def holding (v' : View) : Option ChainEvent :=
  match v.turn with
  | none => none
  | some (c, receiver) =>
    match v.registry.entry? receiver with
    | none => none
    | some e =>
      if e.frozenAt.isSome then some (.held c.id receiver (v'.vault.newest? receiver)) else none

def deeds (v' : View) : List ChainEvent :=
  v.accepting.toList ++ (v.holding v').toList ++
    (v'.signals.drop v.signals.length).map ChainEvent.signal

/-- A move of the sequencer, or the end of a hand-off of its own, with what it means. -/
inductive Moves : List ChainEvent → View → Prop
  | stop (h : v.sequencer.stage = .listening) (hc : v.cancelled = true) :
    Moves [] { v with sequencer := { v.sequencer with commands := [], stage := .stopped } }
  | enqueue {c : Chain} {rest : List Command} (h : v.sequencer.stage = .listening)
      (hq : v.sequencer.commands = .enqueue c :: rest) :
    Moves [] { v with sequencer := { v.sequencer with
      commands := rest, pending := v.sequencer.pending ++ [c], stage := .pumping } }
  | ignore {q : Command} {rest : List Command} (h : v.sequencer.stage = .listening)
      (hq : v.sequencer.commands = q :: rest) (hn : q.chain? = none) (ha : v.accepting = none) :
    Moves [] { v with sequencer := { v.sequencer with commands := rest } }
  | accept {c : Chain} {r : SubscriberId} {code : Int} {data : String} {abort : Bool}
      {caller : Nat} {rest : List Command} (h : v.sequencer.stage = .listening)
      (hc : v.cancelled = false)
      (hq : v.sequencer.commands = .finish r code data abort caller :: rest)
      (ha : v.sequencer.active = some c) (hr : c.awaiting = some r) :
    Moves [.accepted c.id r code data abort] { v with sequencer := { v.sequencer with
      commands := rest, active := some (c.finish r code data abort).2, stage := .pumping } }
  | release {c : Chain} {r : SubscriberId} {caller : Nat} {rest : List Command}
      (h : v.sequencer.stage = .listening) (hq : v.sequencer.commands = .release r caller :: rest)
      (ha : v.sequencer.active = some c) (hr : c.awaiting = some r) :
    Moves [] { v with sequencer := { v.sequencer with
      commands := rest, active := some c.release.2, stage := .pumping } }
  | expire {c : Chain} (h : v.sequencer.stage = .listening) (hq : v.sequencer.commands = [])
      (ha : v.sequencer.active = some c) (hd : Chain.due c.watchdogDeadline v.now = true) :
    Moves [] { v with sequencer := { v.sequencer with
      active := some c.expire.2, stage := .pumping } }
  | expireReceiver {c : Chain} (h : v.sequencer.stage = .listening)
      (hq : v.sequencer.commands = []) (ha : v.sequencer.active = some c)
      (hd : Chain.due c.receiverDeadline v.now = true) :
    Moves [] { v with sequencer := { v.sequencer with
      active := some c.expireReceiver.2, stage := .pumping } }
  | rest (h : v.sequencer.stage = .pumping) (ha : v.sequencer.active = none)
      (hp : v.sequencer.pending = []) :
    Moves [] { v with sequencer := { v.sequencer with stage := .listening } }
  | start {c : Chain} {rest : List Chain} (h : v.sequencer.stage = .pumping)
      (ha : v.sequencer.active = none) (hp : v.sequencer.pending = c :: rest) :
    Moves [.signal (.started (some c.id))] ({ v with sequencer := { v.sequencer with
      pending := rest, active := some (c.start v.now) } }.tell (.started (some c.id)))
  | park {c : Chain} {r : SubscriberId} (h : v.sequencer.stage = .pumping)
      (ha : v.sequencer.active = some c) (hr : c.awaiting = some r) :
    Moves [] { v with sequencer := { v.sequencer with stage := .listening } }
  | breakDown {c : Chain} (h : v.sequencer.stage = .pumping) (ha : v.sequencer.active = some c)
      (hb : c.breaksDown v.now = true) :
    Moves [] { v with sequencer := { v.sequencer with commands := [], stage := .stopped } }
  | pass {c c' : Chain} {i : Nat} {r : SubscriberId} (h : v.sequencer.stage = .pumping)
      (ha : v.sequencer.active = some c) (hw : c.awaiting = none)
      (hn : c.next v.now = (.deliver i r, c')) (he : v.registry.entry? r = none) :
    Moves [] { v with sequencer := { v.sequencer with active := some c'.skip } }
  | hold {c c' : Chain} {i : Nat} {r : SubscriberId} {e : Entry}
      (h : v.sequencer.stage = .pumping) (ha : v.sequencer.active = some c)
      (hw : c.awaiting = none) (hn : c.next v.now = (.deliver i r, c'))
      (he : v.registry.entry? r = some e) (hf : e.frozenAt ≠ none) :
    Moves [.held c.id r (some (c.copy, v.now))] { v with
      vault := v.vault.capture e.subscriber c.copy v.now
      sequencer := { v.sequencer with active := some c'.skip } }
  | hand {c c' : Chain} {i : Nat} {r : SubscriberId} {e : Entry}
      (h : v.sequencer.stage = .pumping) (ha : v.sequencer.active = some c)
      (hw : c.awaiting = none) (hn : c.next v.now = (.deliver i r, c'))
      (he : v.registry.entry? r = some e) (hf : e.frozenAt = none) :
    Moves [.signal (.notifying (c.notice e.subscriber.receiver (some e.subscriber) v.now))]
      ({ v with sequencer := { v.sequencer with
        active := some (c'.beginReceiving v.now)
        stage := .handing (c.notice e.subscriber.receiver (some e.subscriber) v.now) i } }.tell
          (.notifying (c.notice e.subscriber.receiver (some e.subscriber) v.now)))
  | finish {c c' : Chain} {reason : FinishReason} (h : v.sequencer.stage = .pumping)
      (ha : v.sequencer.active = some c) (hw : c.awaiting = none)
      (hn : c.next v.now = (.finalize reason, c')) (hf : c.finalReceiver = none) :
    Moves [.signal (.finished (some c.id) (some reason.name))]
      ({ v with sequencer := { v.sequencer with active := none, stage := .pumping } }.tell
        (.finished (some c.id) (some reason.name)))
  | close {c c' : Chain} {reason : FinishReason} {f : Receiver}
      (h : v.sequencer.stage = .pumping) (ha : v.sequencer.active = some c)
      (hw : c.awaiting = none) (hn : c.next v.now = (.finalize reason, c'))
      (hf : c.finalReceiver = some f) :
    Moves [.signal (.notifying (c.notice f none v.now))]
      ({ v with sequencer := { v.sequencer with
        active := none, stage := .closing (c.notice f none v.now) c' reason } }.tell
          (.notifying (c.notice f none v.now)))
  | parked {n : Notice} {i : Nat} {c : Chain} {s : Subscriber}
      (h : v.sequencer.stage = .handing n i) (ha : v.sequencer.active = some c)
      (hs : n.subscriber = some s) (ho : c.handedOff.overruns = false) :
    Moves [.signal (.notified n (.ok ()))] ({ v with sequencer := { v.sequencer with
      active := some c.handedOff, stage := .listening } }.tell (.notified n (.ok ())))
  | overrun {n : Notice} {i : Nat} {c : Chain} {s : Subscriber}
      (h : v.sequencer.stage = .handing n i) (ha : v.sequencer.active = some c)
      (hs : n.subscriber = some s) (ho : c.handedOff.overruns = true) :
    Moves [.signal (.notified n (.ok ()))] ({ v with sequencer := { v.sequencer with
      active := some c.handedOff, stage := .pumping } }.tell (.notified n (.ok ())))
  | failed {n : Notice} {i : Nat} {c : Chain} {s : Subscriber} {e : DeliveryError}
      (h : v.sequencer.stage = .handing n i) (ha : v.sequencer.active = some c)
      (hs : n.subscriber = some s) :
    Moves [.signal (.notified n (.error e))] ({ v with sequencer := { v.sequencer with
      active := some c.skip, stage := .pumping } }.tell (.notified n (.error e)))
  | stray {n : Notice} {i : Nat} {result : Except DeliveryError Unit}
      (h : v.sequencer.stage = .handing n i)
      (hs : v.sequencer.active = none ∨ n.subscriber = none) :
    Moves [.signal (.notified n result)] ({ v with sequencer := { v.sequencer with
      stage := .pumping } }.tell (.notified n result))
  | closed {n : Notice} {c : Chain} {reason : FinishReason} {result : Except DeliveryError Unit}
      (h : v.sequencer.stage = .closing n c reason) :
    Moves [.signal (.notified n result), .signal (.finished (some c.id) (some reason.name))]
      (({ v with sequencer := { v.sequencer with stage := .pumping } }.tell
        (.notified n result)).tell (.finished (some c.id) (some reason.name)))

section Deeds

variable {v}

theorem Moves.frame {v' : View} {evs : List ChainEvent} (h : v.Moves evs v') : v' = { v with
    vault := v'.vault
    sequencer := v'.sequencer
    signals := v'.signals } := by
  cases h <;> rfl

theorem Moves.signals_eq {v' : View} {evs : List ChainEvent} (h : v.Moves evs v') :
    v'.signals = v.signals ++ evs.filterMap ChainEvent.signal? := by
  cases h <;> simp [tell, ChainEvent.signal?]

theorem accepting_of_ne (h : v.sequencer.stage ≠ .listening) : v.accepting = none := by
  rw [accepting]
  split
  · contradiction
  · rfl

theorem turn_of_ne (h : v.sequencer.stage ≠ .pumping) : v.turn = none := by
  rw [turn]
  split
  · contradiction
  · rfl

theorem holding_of_turn (h : v.turn = none) (v' : View) : v.holding v' = none := by
  rw [holding, h]

theorem turn_of_awaiting {c : Chain} {r : SubscriberId} (ha : v.sequencer.active = some c)
    (hr : c.awaiting = some r) : v.turn = none := by
  rw [turn, ha]
  split
  · rename_i hc
    cases hc
    rw [hr]
  · rfl

theorem turn_of_deliver {c c' : Chain} {i : Nat} {r : SubscriberId}
    (h : v.sequencer.stage = .pumping) (ha : v.sequencer.active = some c)
    (hw : c.awaiting = none) (hn : c.next v.now = (.deliver i r, c')) : v.turn = some (c, r) := by
  rw [turn, h, ha]
  dsimp only
  rw [hw, hn]

theorem turn_of_breaksDown {c : Chain} (ha : v.sequencer.active = some c)
    (hb : c.breaksDown v.now = true) : v.turn = none := by
  cases hw : c.awaiting with
  | some r => exact turn_of_awaiting ha hw
  | none =>
    rw [turn, ha]
    split
    · rename_i hc
      cases hc
      rw [hw, Chain.next_of_breaksDown hw hb]
    · rfl

theorem turn_of_finalize {c c' : Chain} {reason : FinishReason}
    (ha : v.sequencer.active = some c) (hn : c.next v.now = (.finalize reason, c')) :
    v.turn = none := by
  rw [turn, ha]
  split
  · rename_i hc
    cases hc
    rw [hn]
    cases c.awaiting <;> rfl
  · rfl

theorem Moves.deeds_eq {v' : View} {evs : List ChainEvent} (h : v.Moves evs v')
    (hr : v.registry.Sound) : v.deeds v' = evs := by
  have quiet : ∀ (s : List Signal) {v' : View}, v.accepting = none → v.holding v' = none →
      v'.signals = v.signals ++ s → v.deeds v' = s.map ChainEvent.signal := by
    intro s v' ha hh hs
    simp [deeds, ha, hh, hs]
  have same : v.signals = v.signals ++ [] := (List.append_nil _).symm
  have pumps : v.sequencer.stage = .pumping → v.accepting = none := by
    intro h
    exact accepting_of_ne (by simp [h])
  have listens : v.sequencer.stage = .listening → ∀ v', v.holding v' = none := by
    intro h
    exact holding_of_turn (turn_of_ne (by simp [h]))
  have ends : ∀ (s : List Signal) {v' : View}, v.sequencer.stage ≠ .listening →
      v.sequencer.stage ≠ .pumping → v'.signals = v.signals ++ s →
      v.deeds v' = s.map ChainEvent.signal := by
    intro s v' hl hp hs
    exact quiet s (accepting_of_ne hl) (holding_of_turn (turn_of_ne hp) _) hs
  cases h with
  | stop h hc => exact quiet [] (by simp [accepting, h, hc]) (listens h _) same
  | enqueue h hq =>
    refine quiet [] ?_ (listens h _) same
    cases hc : v.cancelled <;> simp [accepting, h, hq, hc]
  | ignore h hq hn ha => exact quiet [] ha (listens h _) same
  | @accept c r code data abort _ _ h hc hq ha hr =>
    have hacc : v.accepting = some (.accepted c.id r code data abort) := by
      simp only [accepting, h, hc, hq, ha]
      rw [Chain.finish_of_awaiting hr, if_pos rfl]
    simp [deeds, hacc, listens h]
  | release h hq ha hr =>
    refine quiet [] ?_ (listens h _) same
    cases hc : v.cancelled <;> simp [accepting, h, hq, hc]
  | expire h hq ha hd =>
    refine quiet [] ?_ (listens h _) same
    cases hc : v.cancelled <;> simp [accepting, h, hq, hc]
  | expireReceiver h hq ha hd =>
    refine quiet [] ?_ (listens h _) same
    cases hc : v.cancelled <;> simp [accepting, h, hq, hc]
  | rest h ha hp =>
    refine quiet [] (pumps h) (holding_of_turn ?_ _) same
    simp [turn, h, ha]
  | start h ha hp =>
    refine quiet [_] (pumps h) (holding_of_turn ?_ _) rfl
    simp [turn, h, ha]
  | park h ha hr => exact quiet [] (pumps h) (holding_of_turn (turn_of_awaiting ha hr) _) same
  | breakDown h ha hb =>
    exact quiet [] (pumps h) (holding_of_turn (turn_of_breaksDown ha hb) _) same
  | pass h ha hw hn he =>
    refine quiet [] (pumps h) ?_ same
    rw [holding, turn_of_deliver h ha hw hn]
    dsimp only
    rw [he]
  | @hold c c' i r e h ha hw hn he hf =>
    have hkey : e.subscriber.id = r := hr.keyed he
    have hnew := v.vault.newest?_capture e.subscriber c.copy v.now
    rw [hkey] at hnew
    simp [deeds, pumps h, holding, turn_of_deliver h ha hw hn, he, Option.isSome_iff_ne_none.2 hf,
      hnew]
  | hand h ha hw hn he hf =>
    refine quiet [_] (pumps h) ?_ rfl
    rw [holding, turn_of_deliver h ha hw hn]
    dsimp only
    rw [he]
    simp [hf]
  | finish h ha hw hn hf =>
    exact quiet [_] (pumps h) (holding_of_turn (turn_of_finalize ha hn) _) rfl
  | close h ha hw hn hf =>
    exact quiet [_] (pumps h) (holding_of_turn (turn_of_finalize ha hn) _) rfl
  | parked h ha hs | overrun h ha hs => exact ends [_] (by simp [h]) (by simp [h]) rfl
  | failed h ha hs => exact ends [_] (by simp [h]) (by simp [h]) rfl
  | stray h hs => exact ends [_] (by simp [h]) (by simp [h]) rfl
  | closed h => exact ends [_, _] (by simp [h]) (by simp [h]) (List.append_assoc _ _ _)

end Deeds

end View

namespace Broker

variable (b : Broker)

theorem view_closeSequencer :
    b.closeSequencer.view = { b.view with
      sequencer := { b.view.sequencer with commands := [], stage := .stopped } } := by
  have forgotten : ∀ (cs : List Command) (b : Broker), (cs.foldl forget b).view = b.view := by
    intro cs
    induction cs with
    | nil => exact fun _ => rfl
    | cons c rest ih => exact fun b => (ih _).trans (b.view_forget c)
  simp only [closeSequencer]
  rw [forgotten]
  rfl

theorem view_stopSequencer :
    b.stopSequencer.view = { b.view with
      sequencer := { b.view.sequencer with commands := [], stage := .stopped } } := by
  simp only [stopSequencer]
  rw [view_note_silent _ _ rfl, view_log, view_closeSequencer]

theorem view_breakDown :
    b.breakDown.view = { b.view with
      sequencer := { b.view.sequencer with commands := [], stage := .stopped } } := by
  rw [breakDown, view_note_silent _ _ rfl, view_closeSequencer]

theorem view_chainFinished (c : Chain) (reason : FinishReason) :
    (b.chainFinished c reason).view = ({ b.view with
      sequencer := { b.view.sequencer with stage := .pumping } }.tell
        (.finished (some c.id) (some reason.name))) := by
  simp only [chainFinished]
  rw [view_setStage, view_emit_signal _ _ rfl, view_log]
  rfl

theorem view_startChain (c : Chain) (rest : List Chain) :
    (b.startChain c rest).view = ({ b.view with sequencer := { b.view.sequencer with
      pending := rest, active := some (c.start b.now) } }.tell (.started (some c.id))) := by
  have h : ∀ b' : Broker, b'.view = b.view.tell (.started (some c.id)) →
      ({ b' with sequencer := { b'.sequencer with
        pending := rest, active := some (c.start b.now) } } : Broker).view =
        ({ b.view with sequencer := { b.view.sequencer with
          pending := rest, active := some (c.start b.now) } }.tell (.started (some c.id))) := by
    intro b' hb
    change { b'.view with sequencer := { b'.view.sequencer with
      pending := rest, active := some (c.start b.now) } } = _
    rw [hb]
    rfl
  simp only [startChain]
  apply h
  rw [view_emit_signal _ _ rfl, view_log]
  rfl

section Handle

variable {b} {r : SubscriberId} {c : Chain}

theorem view_handle_finish (ha : b.sequencer.active = some c) (hr : c.awaiting = some r)
    (code : Int) (data : String) (abort : Bool) (caller : Nat) :
    (b.handle (.finish r code data abort caller)).view = { b.view with
      sequencer := { b.view.sequencer with
        active := some (c.finish r code data abort).2, stage := .pumping } } := by
  rw [handle, ha]
  dsimp only
  rw [Chain.finish_of_awaiting hr]
  dsimp only
  rw [view_setStage, view_log]
  rfl

theorem view_handle_stale (h : b.sequencer.active.bind Chain.awaiting ≠ some r) (code : Int)
    (data : String) (abort : Bool) (caller : Nat) :
    (b.handle (.finish r code data abort caller)).view = b.view := by
  rw [handle]
  cases ha : b.sequencer.active with
  | none => exact b.view_answer _ _
  | some c =>
    rw [ha, Option.bind_some] at h
    dsimp only
    rw [Chain.finish_of_not_awaiting h]
    exact b.view_answer _ _

theorem view_handle_release (ha : b.sequencer.active = some c) (hr : c.awaiting = some r)
    (caller : Nat) :
    (b.handle (.release r caller)).view = { b.view with
      sequencer := { b.view.sequencer with active := some c.release.2, stage := .pumping } } := by
  rw [handle, ha]
  dsimp only
  rw [if_pos hr, view_setStage, view_log]
  rfl

theorem view_handle_unreleased (h : b.sequencer.active.bind Chain.awaiting ≠ some r)
    (caller : Nat) : (b.handle (.release r caller)).view = b.view := by
  rw [handle]
  cases ha : b.sequencer.active with
  | none => exact b.view_answer _ _
  | some c =>
    rw [ha, Option.bind_some] at h
    dsimp only
    rw [if_neg h]
    exact b.view_answer _ _

theorem accepting_stale {caller : Nat} {rest : List Command} {code : Int} {data : String}
    {abort : Bool} (hq : b.sequencer.commands = .finish r code data abort caller :: rest)
    (h : b.sequencer.active.bind Chain.awaiting ≠ some r) : b.view.accepting = none := by
  rw [View.accepting]
  split
  · split
    · rename_i hq' ha
      have e := hq.symm.trans hq'
      cases e
      replace ha : b.sequencer.active = some _ := ha
      rw [ha, Option.bind_some] at h
      rw [Chain.finish_of_not_awaiting h]
      rfl
    · rfl
  · rfl

theorem accepting_other {q : Command} {rest : List Command} (hq : b.sequencer.commands = q :: rest)
    (h : ∀ r code data abort caller, q ≠ .finish r code data abort caller) :
    b.view.accepting = none := by
  rw [View.accepting]
  split
  · split
    · rename_i hq' ha
      have e := hq.symm.trans hq'
      cases e
      exact absurd rfl (h _ _ _ _ _)
    · rfl
  · rfl

end Handle

theorem handle_moves {q : Command} {rest : List Command} (hs : b.sequencer.stage = .listening)
    (hc : b.cancelled = false) (hq : b.sequencer.commands = q :: rest) :
    ∃ evs, b.view.Moves evs
      ({ b with sequencer := { b.sequencer with commands := rest } }.handle q).view := by
  cases q with
  | enqueue chain => exact ⟨_, .enqueue hs hq⟩
  | finish r code data abort caller =>
    by_cases h : b.sequencer.active.bind Chain.awaiting = some r
    · obtain ⟨c, ha, hr⟩ := Option.bind_eq_some_iff.1 h
      have hv := view_handle_finish (b := { b with
        sequencer := { b.sequencer with commands := rest } }) ha hr code data abort caller
      rw [hv]
      exact ⟨_, .accept hs hc hq ha hr⟩
    · have hv := view_handle_stale (b := { b with
        sequencer := { b.sequencer with commands := rest } }) h code data abort caller
      rw [hv]
      exact ⟨_, .ignore hs hq rfl (accepting_stale hq h)⟩
  | release r caller =>
    by_cases h : b.sequencer.active.bind Chain.awaiting = some r
    · obtain ⟨c, ha, hr⟩ := Option.bind_eq_some_iff.1 h
      have hv := view_handle_release (b := { b with
        sequencer := { b.sequencer with commands := rest } }) ha hr caller
      rw [hv]
      exact ⟨_, .release hs hq ha hr⟩
    · have hv := view_handle_unreleased (b := { b with
        sequencer := { b.sequencer with commands := rest } }) h caller
      rw [hv]
      exact ⟨_, .ignore hs hq rfl (accepting_other hq nofun)⟩
  | active r caller => exact ⟨_, .ignore hs hq rfl (accepting_other hq nofun)⟩

theorem view_sweep {b b' : Broker} (h : b.sweep = some b') :
    ∃ c c', b.sequencer.active = some c ∧ b'.view = { b.view with
        sequencer := { b.view.sequencer with active := some c', stage := .pumping } } ∧
      (Chain.due c.watchdogDeadline b.now = true ∧ c' = c.expire.2 ∨
        Chain.due c.receiverDeadline b.now = true ∧ c' = c.expireReceiver.2) := by
  cases sweep_cases h with
  | watchdog ha hd =>
    refine ⟨_, _, ha, ?_, .inl ⟨hd, rfl⟩⟩
    rw [watchdogFired, view_setStage, view_emit_silent _ _ (by simp) (by simp), view_log]
    rfl
  | receiver ha hw hd =>
    refine ⟨_, _, ha, ?_, .inr ⟨hd, rfl⟩⟩
    rw [receiverTimedOut, view_setStage, view_emit_silent _ _ (by simp) (by simp), view_log]
    rfl
  | nobody ha hw hd hr =>
    refine ⟨_, _, ha, ?_, .inr ⟨hd, rfl⟩⟩
    rw [Chain.expireReceiver_of_not_awaiting hr, view_setStage, ← ha]
    rfl

theorem sweep_moves {b b' : Broker} (hs : b.sequencer.stage = .listening)
    (hq : b.sequencer.commands = []) (h : b.sweep = some b') : b.view.Moves [] b'.view := by
  obtain ⟨c, c', ha, hv, ⟨hd, rfl⟩ | ⟨hd, rfl⟩⟩ := view_sweep h
  · rw [hv]
    exact .expire hs hq ha hd
  · rw [hv]
    exact .expireReceiver hs hq ha hd

theorem deliverTo_moves {c c' : Chain} {i : Nat} {r : SubscriberId}
    (hs : b.sequencer.stage = .pumping) (ha : b.sequencer.active = some c)
    (hw : c.awaiting = none) (hn : c.next b.now = (.deliver i r, c')) :
    ∃ evs, b.view.Moves evs (b.deliverTo c' i r).view := by
  obtain ⟨-, -, -, -, -, hc'⟩ := Chain.next_deliver hn
  have hcopy : c'.copy = c.copy := by rw [hc']
  have hflags : c'.flags = c.flags := by rw [hc']; rfl
  have hid : c'.id = c.id := by rw [hc']
  rw [deliverTo, hcopy, hflags, hid]
  cases he : b.registry.entry? r with
  | none =>
    rw [b.approach_gone he]
    exact ⟨_, .pass hs ha hw hn he⟩
  | some e =>
    by_cases hf : e.frozenAt = none
    · rw [b.approach_ready he hf]
      dsimp only
      rw [view_note_signal _ _ rfl, view_setStage, view_setActive]
      exact ⟨_, .hand hs ha hw hn he hf⟩
    · obtain ⟨b', hb, hv⟩ := b.approach_frozen he hf c.copy (some c.id)
      rw [hb]
      dsimp only
      rw [view_setActive, hv]
      exact ⟨_, .hold hs ha hw hn he hf⟩

theorem finalize_moves {c c' : Chain} {reason : FinishReason}
    (hs : b.sequencer.stage = .pumping) (ha : b.sequencer.active = some c)
    (hw : c.awaiting = none) (hn : c.next b.now = (.finalize reason, c')) :
    ∃ evs, b.view.Moves evs (b.finalize c' reason).view := by
  obtain ⟨hid, hcopy, hsticky, -, hfinal, -⟩ := Chain.next_finalize hn
  have hflags : c'.flags = c.flags := by rw [Chain.flags, hsticky]; rfl
  rw [finalize, hfinal, hcopy, hflags, hid]
  cases hf : c.finalReceiver with
  | none =>
    dsimp only
    rw [view_chainFinished, hid, view_setActive]
    exact ⟨_, .finish hs ha hw hn hf⟩
  | some f =>
    dsimp only
    rw [view_note_signal _ _ rfl, view_setStage, view_setActive]
    exact ⟨_, .close hs ha hw hn hf⟩

variable {b} in
theorem PumpStep.moves {b' : Broker} (h : b.PumpStep b') (hs : b.sequencer.stage = .pumping) :
    ∃ evs, b.view.Moves evs b'.view := by
  cases h with
  | rest ha hp =>
    rw [view_setStage]
    exact ⟨_, .rest hs ha hp⟩
  | start ha hp =>
    rw [view_startChain]
    exact ⟨_, .start hs ha hp⟩
  | park ha hw =>
    rw [view_setStage]
    exact ⟨_, .park hs ha hw⟩
  | breakDown ha hb =>
    rw [view_breakDown]
    exact ⟨_, .breakDown hs ha hb⟩
  | finalize ha hw hn => exact b.finalize_moves hs ha hw hn
  | deliver ha hw hn => exact b.deliverTo_moves hs ha hw hn

theorem sequencerStep_moves {b b' : Broker} (h : b.sequencerStep = some b') :
    ∃ evs, b.view.Moves evs b'.view := by
  cases sequencerStep_cases h with
  | pump hs h => exact h.moves hs
  | stop hs hc =>
    rw [view_stopSequencer]
    exact ⟨_, .stop hs hc⟩
  | take hs hc hq => exact b.handle_moves hs hc hq
  | sweep hs hc hq h => exact ⟨_, sweep_moves hs hq h⟩

theorem view_handedOff {n : Notice} {i : Nat} {s : Subscriber}
    (hs : b.sequencer.stage = .handing n i) (ha : b.sequencer.active = some c)
    (hn : n.subscriber = some s) :
    (b.sequencerConclude (.ok ())).view = ({ b.view with sequencer := { b.view.sequencer with
      active := some c.handedOff
      stage := if c.handedOff.overruns then .pumping else .listening } }).tell
        (.notified n (.ok ())) := by
  have hv := b.view_note_signal (.notified .sequencer n (.ok ())) rfl
  rw [sequencerConclude, hs]
  dsimp only
  generalize b.note (.notified .sequencer n (.ok ())) = b' at hv
  have ha' : b'.sequencer.active = some c := (congrArg (fun v => v.sequencer.active) hv).trans ha
  rw [ha', hn]
  dsimp only
  rw [view_setStage, view_log, view_setActive, hv]
  rfl

theorem view_notHandedOff {n : Notice} {i : Nat} {s : Subscriber}
    (hs : b.sequencer.stage = .handing n i) (ha : b.sequencer.active = some c)
    (hn : n.subscriber = some s) (e : DeliveryError) :
    (b.sequencerConclude (.error e)).view = ({ b.view with sequencer := { b.view.sequencer with
      active := some c.skip, stage := .pumping } }).tell (.notified n (.error e)) := by
  have hv := b.view_note_signal (.notified .sequencer n (.error e)) rfl
  rw [sequencerConclude, hs]
  dsimp only
  generalize b.note (.notified .sequencer n (.error e)) = b' at hv
  have ha' : b'.sequencer.active = some c := (congrArg (fun v => v.sequencer.active) hv).trans ha
  rw [ha', hn]
  dsimp only
  rw [view_setStage, view_setActive, view_deliveryFailed, hv]
  rfl

theorem handing_moves {n : Notice} {i : Nat} (hs : b.sequencer.stage = .handing n i)
    (result : Except DeliveryError Unit) :
    ∃ evs, b.view.Moves evs (b.sequencerConclude result).view := by
  have stray : b.sequencer.active = none ∨ n.subscriber = none →
      ∃ evs, b.view.Moves evs (b.sequencerConclude result).view := by
    intro hstray
    have hv := b.view_note_signal (.notified .sequencer n result) rfl
    have ha := congrArg (fun v => v.sequencer.active) hv
    replace ha : (b.note (.notified .sequencer n result)).sequencer.active =
      b.sequencer.active := ha
    have hconclude : b.sequencerConclude result =
        (b.note (.notified .sequencer n result)).setStage .pumping := by
      rw [sequencerConclude, hs]
      dsimp only
      rw [ha]
      cases hstray with
      | inl hc => rw [hc]
      | inr hn =>
        rw [hn]
        cases b.sequencer.active <;> rfl
    rw [hconclude, view_setStage, hv]
    exact ⟨_, .stray hs hstray⟩
  cases hc : b.sequencer.active with
  | none => exact stray (.inl hc)
  | some c =>
    cases hn : n.subscriber with
    | none => exact stray (.inr hn)
    | some s =>
      cases result with
      | ok u =>
        rw [show Except.ok u = Except.ok () from rfl, b.view_handedOff hs hc hn]
        cases ho : c.handedOff.overruns with
        | false => exact ⟨_, .parked hs hc hn ho⟩
        | true => exact ⟨_, .overrun hs hc hn ho⟩
      | error e =>
        rw [b.view_notHandedOff hs hc hn]
        exact ⟨_, .failed hs hc hn⟩

theorem view_closed {n : Notice} {c : Chain} {reason : FinishReason}
    (hs : b.sequencer.stage = .closing n c reason) (result : Except DeliveryError Unit) :
    (b.sequencerConclude result).view =
      (({ b.view with sequencer := { b.view.sequencer with stage := .pumping } }.tell
        (.notified n result)).tell (.finished (some c.id) (some reason.name))) := by
  have hv := b.view_note_signal (.notified .sequencer n result) rfl
  rw [sequencerConclude, hs]
  cases result with
  | ok u =>
    dsimp only
    rw [view_chainFinished, hv]
    rfl
  | error e =>
    dsimp only
    rw [view_chainFinished, view_emit_silent _ _ (by simp) (by simp), view_log, hv]
    rfl

theorem closing_moves {n : Notice} {c : Chain} {reason : FinishReason}
    (hs : b.sequencer.stage = .closing n c reason) (result : Except DeliveryError Unit) :
    ∃ evs, b.view.Moves evs (b.sequencerConclude result).view := by
  rw [b.view_closed hs result]
  exact ⟨_, .closed hs⟩

theorem sequencerStep_none {b : Broker} (h : b.sequencerStep = none) :
    b.view.accepting = none ∧ b.view.turn = none := by
  rw [sequencerStep] at h
  cases hs : b.sequencer.stage with
  | pumping =>
    rw [hs] at h
    cases h
  | listening =>
    rw [hs] at h
    dsimp only at h
    refine ⟨?_, View.turn_of_ne (by simp [view, hs])⟩
    split at h
    · cases h
    · split at h
      · cases h
      · rename_i hq
        cases hc : b.cancelled <;> simp [View.accepting, view, hs, hq, hc]
  | _ => exact ⟨View.accepting_of_ne (by simp [view, hs]), View.turn_of_ne (by simp [view, hs])⟩

theorem sequencerConclude_moves (result : Except DeliveryError Unit) :
    (b.sequencerConclude result).view = b.view ∨
      (b.view.sequencer.stage ≠ .listening ∧ b.view.sequencer.stage ≠ .pumping) ∧
        ∃ evs, b.view.Moves evs (b.sequencerConclude result).view := by
  cases hs : b.sequencer.stage with
  | handing n i => exact .inr ⟨by simp [view, hs], b.handing_moves hs result⟩
  | closing n c reason => exact .inr ⟨by simp [view, hs], b.closing_moves hs result⟩
  | _ =>
    rw [sequencerConclude, hs]
    exact .inl rfl

end Broker

end EventBroker
