import EventBroker.Proofs.Effects.Calls
import EventBroker.Proofs.Effects.Observing
import EventBroker.Proofs.Effects.Requests
import EventBroker.Proofs.Effects.Sequencing

namespace EventBroker

/-- An admitted publication, with whom it reaches and the chain it travels as. -/
structure Admission where
  publication : Publication
  matched : List Subscriber
  finalReceiver : Option Receiver
  chain : Option ChainId

namespace Broker

variable (b : Broker)

def posts (p : Publication) (finalReceiver : Option Receiver) : Option Admission :=
  match (b.post p finalReceiver).1 with
  | .ok r => some ⟨b.prepared p, (b.matching p).matched, finalReceiver, r.chain⟩
  | .error _ => none

def admits : Action → Option Admission
  | .publish p => b.posts p none
  | .publishWithResult p receiver =>
    b.posts { p with options := { p.options with ordered := true } } (some receiver)
  | _ => none

def deeds (a : Action) : List ChainEvent :=
  match a with
  | .work .sequencer => b.view.deeds (b.act a).view
  | _ => ((b.act a).signals.drop b.signals.length).map ChainEvent.signal

end Broker

inductive View.Request (v : View) : Option Admission → View → Prop
  | nothing : Request v none v
  | subscribe {s : Subscriber} {ps : List Publication} (hs : s.id = ⟨v.registry.issued + 1⟩)
      (hps : ps.Sublist (s.interest.events.toList.filterMap v.sticky.get?)) :
    Request v none { v with
      registry := v.registry.add s
      fresh := { v.fresh with jobs := v.fresh.jobs ++ ps.map (Broker.stickyJob s.id) } }
  | publish {a : Admission} {w : View} (hn : a.publication.serial = v.publications + 1)
      (hm : a.matched = (v.registry.matching v.oracle a.publication).matched)
      (hq : v.Queues a.publication a.matched a.finalReceiver a.chain w) :
    Request v (some a) (w.announce a.publication)
  | freeze (sel : Selector) (frozen : Bool) :
    Request v none { v with registry := (v.registry.updateFreeze sel frozen v.now).2 }
  | flush (sel : Selector) (h : (v.vault.flush sel).1 ≠ []) (hr : v.replay.refuses = false) :
    Request v none { v with
      vault := (v.vault.flush sel).2
      replay := { v.replay with jobs := v.replay.jobs ++ [.replay (v.vault.flush sel).1] } }
  | restore (sel : Selector) (h : (v.vault.flush sel).1 ≠ []) (hr : v.replay.refuses = true) :
    Request v none { v with
      vault := ((v.vault.flush sel).2.restore (v.vault.flush sel).1 v.registry.contains).2 }
  | leave (gone cleared : List SubscriberId) {cs : List Command}
      (hcs : ∀ c ∈ cs, c.chain? = none) :
    Request v none ({ v with
      registry := (Registry.unsubscribeAll gone v.registry).2
      vault := v.vault.clear cleared }.send cs)
  | cancel : Request v none { v with cancelled := true }
  | tick (now : Instant) : Request v none { v with now := max v.now now }
  | setOracle (o : Oracle) : Request v none { v with oracle := o }

inductive View.Effect (v : View) : Option Admission → List ChainEvent → View → Prop
  | request {a : Option Admission} {w : View} (h : v.Request a w) : Effect v a [] w
  | carry (lane : Lane) {w : View} (h : v.Carries lane w) :
    Effect v none ((w.signals.drop v.signals.length).map ChainEvent.signal) w
  | move {evs : List ChainEvent} {w : View} (h : v.Moves evs w) : Effect v none evs w

namespace View

variable {v w : View}

theorem Effect.registry_changes {a : Option Admission} {evs : List ChainEvent}
    (h : v.Effect a evs w) : v.registry.Changes w.registry := by
  cases h with
  | request h =>
    cases h with
    | subscribe hs hps => exact .add hs
    | publish hn hm hq => exact (congrArg View.registry hq.frame).symm ▸ .same
    | freeze sel frozen => exact .freeze sel frozen v.now
    | leave gone cleared hcs => exact .leave gone
    | _ => exact .same
  | carry lane h =>
    rw [h.frame]
    exact .same
  | move h =>
    rw [h.frame]
    exact .same

theorem Carries.signals_eq {lane : Lane} (h : v.Carries lane w) :
    w.signals = v.signals ++ w.signals.drop v.signals.length := by
  cases h <;> cases lane <;> simp [tell, setCourier, setQueue]

theorem Request.signals_eq {a : Option Admission} (h : v.Request a w) : w.signals = v.signals := by
  cases h with
  | publish hn hm hq => exact (congrArg View.signals hq.frame :)
  | _ => rfl

theorem Effect.signals_eq {a : Option Admission} {evs : List ChainEvent} (h : v.Effect a evs w) :
    w.signals = v.signals ++ evs.filterMap ChainEvent.signal? := by
  cases h with
  | request h => exact h.signals_eq.trans (List.append_nil _).symm
  | carry lane h =>
    rw [List.filterMap_map]
    change _ = _ ++ List.filterMap some _
    rw [List.filterMap_some]
    exact h.signals_eq
  | move h => exact h.signals_eq

end View

namespace Broker

variable (b : Broker)

theorem post_request (p : Publication) (finalReceiver : Option Receiver) :
    b.view.Request (b.posts p finalReceiver) (b.post p finalReceiver).2.view := by
  rw [posts]
  cases h : b.post p finalReceiver with
  | mk result b' =>
    cases result with
    | error e =>
      rw [post_refused h]
      exact .nothing
    | ok r =>
      obtain ⟨w, hq, hv⟩ := post_admitted h
      rw [hv]
      exact .publish (a := ⟨b.prepared p, (b.matching p).matched, finalReceiver, r.chain⟩) rfl rfl
        hq

theorem subscribe_request (req : Subscription) :
    b.view.Request none (b.subscribe req).2.view := by
  cases h : b.subscribe req with
  | mk result b' =>
    cases result with
    | error e =>
      rw [subscribe_refused h]
      exact .nothing
    | ok id =>
      obtain ⟨s, rfl, hid, ps, hps, hv⟩ := subscribe_admitted h
      rw [hv]
      exact .subscribe hid hps

theorem flushFrozen_request (sel : Selector) :
    b.view.Request none (b.flushFrozen sel).2.view := by
  by_cases h : (b.vault.flush sel).1 = []
  · rw [flushFrozen_nothing b h]
    exact .nothing
  · cases hr : b.replay.refuses with
    | false =>
      rw [flushFrozen_taken b h hr]
      exact .flush sel h hr
    | true =>
      rw [flushFrozen_refused b h hr]
      exact .restore sel h hr

theorem leave_request (b' : Broker) (gone cleared : List SubscriberId)
    (h : ∃ cs : List Command, (∀ c ∈ cs, c.chain? = none) ∧ b'.view = { b.view with
      registry := (Registry.unsubscribeAll gone b.registry).2
      vault := b.vault.clear cleared }.send cs) : b.view.Request none b'.view := by
  obtain ⟨cs, hcs, hv⟩ := h
  rw [hv]
  exact .leave gone cleared hcs

theorem leavers_eq (id : SubscriberId) :
    b.leavers id = Registry.unsubscribeAll [id] b.registry := by
  rw [leavers, Registry.unsubscribeAll]
  cases b.registry.unsubscribe id <;> rfl

def isWork : Action → Bool
  | .work _ | .handedOff _ _ => true
  | _ => false

theorem act_request {a : Action} (h : isWork a = false) :
    b.view.Request (b.admits a) (b.act a).view := by
  cases a with
  | subscribe req => exact b.subscribe_request req
  | publish p => exact b.post_request p none
  | publishWithResult p receiver =>
    exact b.post_request { p with options := { p.options with ordered := true } } (some receiver)
  | updateFreeze sel frozen =>
    change b.view.Request none (b.updateFreeze sel frozen).2.view
    rw [updateFreeze_view]
    exact .freeze sel frozen
  | flushFrozen sel => exact b.flushFrozen_request sel
  | unsubscribe id =>
    have hv := b.unsubscribe_view id
    rw [leavers_eq] at hv
    exact b.leave_request _ _ _ hv
  | ownerDied pid => exact b.leave_request _ _ _ (b.ownerDied_view pid)
  | finish receiver code data abort =>
    exact b.leave_request _ [] [] (b.ask_view _ _ _ fun _ => rfl)
  | active receiver => exact b.leave_request _ [] [] (b.ask_view _ _ _ fun _ => rfl)
  | shutdown =>
    change b.view.Request none b.shutdown.2.view
    rw [shutdown_view]
    exact .cancel
  | resume call => exact b.leave_request _ [] _ (b.resume_view call)
  | work w => cases h
  | handedOff w reception => cases h
  | observed i panic =>
    change b.view.Request none (b.observerConclude i panic).view
    rw [observerConclude_view]
    exact .nothing
  | tick now => exact .tick now
  | setOracle o => exact .setOracle o

theorem act_carries {a : Action} (h : isWork a = true) (hw : a ≠ .work .sequencer)
    (hc : ∀ reception, a ≠ .handedOff .sequencer reception) :
    (b.act a).view = b.view ∨ ∃ lane, b.view.Carries lane (b.act a).view := by
  cases a with
  | work w =>
    change ((b.work w).getD b).view = b.view ∨ ∃ lane, b.view.Carries lane ((b.work w).getD b).view
    cases hb : b.work w with
    | none => exact .inl rfl
    | some b' =>
      cases w with
      | listener => exact .inl (listenerStep_view hb)
      | observer i => exact .inl (observerStep_view hb)
      | courier lane => exact .inr ⟨lane, courierStep_carries hb⟩
      | sequencer => exact absurd rfl hw
  | handedOff w reception =>
    cases w with
    | listener => exact .inl rfl
    | observer i => exact .inl rfl
    | courier lane =>
      exact (b.courierConclude_carries lane reception.result).imp_right fun h => ⟨lane, h.2⟩
    | sequencer => exact absurd rfl (hc reception)
  | _ => cases h

theorem deeds_of_ne {a : Action} (h : a ≠ .work .sequencer) :
    b.deeds a = ((b.act a).signals.drop b.signals.length).map ChainEvent.signal := by
  rw [deeds]
  exact h

theorem deeds_silent {a : Action} (h : a ≠ .work .sequencer)
    (hs : (b.act a).view.signals = b.view.signals) : b.deeds a = [] := by
  replace hs : (b.act a).signals = b.signals := hs
  rw [b.deeds_of_ne h, hs, List.drop_length]
  rfl

def sequencing : Action → Bool
  | .work .sequencer | .handedOff .sequencer _ => true
  | _ => false

theorem sequencing_moves {a : Action} (h : sequencing a = true) (hr : b.registry.Sound) :
    (b.act a).view = b.view ∧ b.deeds a = [] ∨ b.view.Moves (b.deeds a) (b.act a).view := by
  cases a with
  | work w =>
    cases w with
    | sequencer =>
      change ((b.work .sequencer).getD b).view = b.view ∧
          b.view.deeds ((b.work .sequencer).getD b).view = [] ∨
        b.view.Moves (b.view.deeds ((b.work .sequencer).getD b).view)
          ((b.work .sequencer).getD b).view
      cases hb : b.work .sequencer with
      | none =>
        obtain ⟨ha, ht⟩ := sequencerStep_none hb
        exact .inl ⟨rfl, by simp [View.deeds, ha, View.holding_of_turn ht]⟩
      | some b' =>
        obtain ⟨evs, hm⟩ := sequencerStep_moves hb
        rw [Option.getD_some, hm.deeds_eq hr]
        exact .inr hm
    | _ => cases h
  | handedOff w reception =>
    cases w with
    | sequencer =>
      change (b.sequencerConclude reception.result).view = b.view ∧ _ ∨
        b.view.Moves _ (b.sequencerConclude reception.result).view
      cases b.sequencerConclude_moves reception.result with
      | inl h => exact .inl ⟨h, b.deeds_silent (by simp) (congrArg View.signals h)⟩
      | inr h =>
        obtain ⟨⟨hl, hp⟩, evs, hm⟩ := h
        have hd := hm.deeds_eq hr
        rw [View.deeds, View.accepting_of_ne hl,
          View.holding_of_turn (View.turn_of_ne hp)] at hd
        subst hd
        rw [b.deeds_of_ne (by simp)]
        exact .inr hm
    | _ => cases h
  | _ => cases h

theorem act_effect (a : Action) (hr : b.registry.Sound) :
    b.view.Effect (b.admits a) (b.deeds a) (b.act a).view := by
  cases hs : sequencing a with
  | true =>
    have hadm : b.admits a = none := by
      cases a <;> first | rfl | cases hs
    rw [hadm]
    cases b.sequencing_moves hs hr with
    | inl h =>
      rw [h.2, h.1]
      exact .request .nothing
    | inr h => exact .move h
  | false =>
    have hw : a ≠ .work .sequencer := fun h => by
      rw [h] at hs
      cases hs
    cases hi : isWork a with
    | false =>
      have h := b.act_request hi
      rw [b.deeds_silent hw h.signals_eq]
      exact .request h
    | true =>
      have hadm : b.admits a = none := by
        cases a <;> first | rfl | cases hi
      have hc : ∀ reception, a ≠ .handedOff .sequencer reception := fun reception h => by
        rw [h] at hs
        cases hs
      rw [hadm]
      cases b.act_carries hi hw hc with
      | inl h =>
        rw [b.deeds_silent hw (congrArg View.signals h), h]
        exact .request .nothing
      | inr h =>
        obtain ⟨lane, h⟩ := h
        rw [b.deeds_of_ne hw]
        exact .carry lane h

end Broker

end EventBroker
