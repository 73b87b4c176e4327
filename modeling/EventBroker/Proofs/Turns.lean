import EventBroker.Proofs.Accounting

namespace EventBroker

/-- What made the delivery of the chain `id` to `r` end so, if `es` befell the chains till then. -/
inductive Turn (es : List ChainEvent) (id : ChainId) (r : SubscriberId) : Fate → Prop
  | gone : Turn es id r .gone
  | held {item : Option (Copy × Instant)} (h : .held id r item ∈ es) : Turn es id r .held
  | handed {n : Notice} {fate : Fate} (hn : .signal (.notifying n) ∈ es) (hc : n.chain = some id)
      (hs : n.subscriber.map Subscriber.id = some r) (hg : fate ≠ .gone) (hh : fate ≠ .held) :
    Turn es id r fate

theorem Turn.mono {es es' : List ChainEvent} {id : ChainId} {r : SubscriberId} {fate : Fate}
    (h : Turn es id r fate) (hes : es ⊆ es') : Turn es' id r fate := by
  cases h with
  | gone => exact .gone
  | held h => exact .held (hes h)
  | handed hn hc hs hg hh => exact .handed (hes hn) hc hs hg hh

namespace Chain

theorem handedOff_eq (c : Chain) :
    c.handedOff.id = c.id ∧ c.handedOff.receiver? = c.receiver? ∧
      (c.handedOff.state ≠ .idle → c.state ≠ .idle) := by
  rw [handedOff]
  split
  · rename_i h
    exact ⟨rfl, rfl, fun _ => by simp [h]⟩
  · exact ⟨rfl, rfl, fun h => h⟩

end Chain

namespace View

variable {v w : View} {a : Option Admission} {es es' : List ChainEvent}

def Serving (v : View) (es : List ChainEvent) : Prop :=
  ∀ c, v.sequencer.active = some c → c.state ≠ .idle →
    ∃ n, .signal (.notifying n) ∈ es ∧ n.chain = some c.id ∧
      n.subscriber.map Subscriber.id = c.receiver?

theorem Serving.same (h : v.Serving es) (ha : w.sequencer.active = v.sequencer.active) :
    w.Serving (es ++ es') := by
  intro c hc hs
  obtain ⟨n, hn, hchain⟩ := h c (ha ▸ hc) hs
  exact ⟨n, List.mem_append_left _ hn, hchain⟩

theorem Serving.idle {c : Chain} (ha : w.sequencer.active = some c) (hc : c.state = .idle) :
    w.Serving es := by
  intro c' hc' hs
  cases ha.symm.trans hc'
  exact absurd hc hs

theorem Serving.vacant (ha : w.sequencer.active = none) : w.Serving es := by
  intro c hc
  cases ha.symm.trans hc

theorem Serving.moves (h : v.Serving es) (hv : v.Sound) (hm : v.Moves es' w) :
    w.Serving (es ++ es') := by
  cases hm with
  | accept hst hc hq ha hr => exact .idle rfl (by rw [Chain.finish_of_awaiting hr])
  | release hst hq ha hr => exact .idle rfl (by rw [Chain.release_of_awaiting hr])
  | expire hst hq ha hd =>
    obtain ⟨r, hr⟩ := hv.sequencer.awaiting hst ha
    exact .idle rfl (by rw [Chain.expire_of_awaiting hr])
  | expireReceiver hst hq ha hd =>
    obtain ⟨r, hr⟩ := hv.sequencer.awaiting hst ha
    exact .idle rfl (by rw [Chain.expireReceiver_of_awaiting hr])
  | start hst ha hp =>
    have hfresh := hv.sequencer.queued _ (hp ▸ List.mem_cons_self)
    exact .idle rfl (hfresh.start v.now).2
  | pass hst ha hw hn he => exact .idle rfl (by rw [Chain.skip_eq])
  | hold hst ha hw hn he hf => exact .idle rfl (by rw [Chain.skip_eq])
  | @hand c c' i r e hst ha hw hn he hf =>
    intro x hx _
    cases hx
    obtain ⟨-, -, -, -, hget, rfl⟩ := Chain.next_deliver hn
    refine ⟨_, List.mem_append_right _ (List.mem_singleton_self _), rfl, ?_⟩
    exact (congrArg some (hv.registry.keyed he)).trans hget.symm
  | finish hst ha hw hn hf => exact .vacant rfl
  | close hst ha hw hn hf => exact .vacant rfl
  | @parked n i c s hst ha hs | @overrun n i c s hst ha hs =>
    intro x hx hstate
    cases hx
    obtain ⟨hid, hreceiver, hengaged⟩ := c.handedOff_eq
    obtain ⟨m, hm, hchain, hsub⟩ := h c ha (hengaged hstate)
    exact ⟨m, List.mem_append_left _ hm, hid ▸ hchain, hreceiver ▸ hsub⟩
  | failed hst ha hs => exact .idle rfl (by rw [Chain.skip_eq])
  | _ => exact h.same rfl

theorem Serving.effect (h : v.Serving es) (hv : v.Sound) (he : v.Effect a es' w) :
    w.Serving (es ++ es') := by
  cases he with
  | request hq =>
    obtain ⟨cs, -, hs⟩ := hq.sends
    exact h.same (congrArg Sequencer.active hs :)
  | carry lane hc => exact h.same (congrArg Sequencer.active hc.sequencer_eq)
  | move hm => exact h.moves hv hm

end View

namespace Broker

variable {b : Broker} {es : List ChainEvent} {a : Action} {s : Settlement}

end Broker

end EventBroker
