import EventBroker.Proofs.Parking

namespace EventBroker

namespace View

def Manned (v : View) : Prop :=
  match v.sequencer.stage with
  | .handing n _ => ∃ c s t, v.sequencer.active = some c ∧ n = c.notice s.receiver (some s) t
  | .closing n c _ => ∃ f t, c.finalReceiver = some f ∧ n = c.notice f none t
  | _ => True

structure Sound (v : View) : Prop where
  registry : v.registry.Sound
  sequencer : v.sequencer.Sound
  manned : v.Manned
  unchained : ∀ lane n left, (v.queue lane).courier = .handing n left → n.chain = none

variable {v w : View} {a : Option Admission} {evs : List ChainEvent}

theorem Queues.courier_eq {p : Publication} {matched : List Subscriber}
    {finalReceiver : Option Receiver} {chain : Option ChainId}
    (h : v.Queues p matched finalReceiver chain w) (lane : Lane) :
    (w.queue lane).courier = (v.queue lane).courier := by
  cases h <;> cases lane <;> rfl

namespace Request

variable (h : v.Request a w)

include h

theorem courier_eq (lane : Lane) : (w.queue lane).courier = (v.queue lane).courier := by
  cases h with
  | publish hn hm hq => exact (Eq.refl _).trans (hq.courier_eq lane)
  | _ => cases lane <;> rfl

theorem sequencer_sound (hs : v.sequencer.Sound) : w.sequencer.Sound := by
  obtain ⟨cs, hcs, hw⟩ := h.sends
  rw [hw]
  exact hs.sendAll hcs

theorem manned (hv : v.Manned) : w.Manned := by
  obtain ⟨cs, hcs, hw⟩ := h.sends
  rw [Manned, hw]
  exact hv

end Request

theorem Carries.unchained {lane : Lane} (h : v.Carries lane w)
    (hv : ∀ lane n left, (v.queue lane).courier = .handing n left → n.chain = none) :
    ∀ lane n left, (w.queue lane).courier = .handing n left → n.chain = none := by
  intro lane' n left hc
  by_cases hl : lane = lane'
  · subst hl
    cases h with
    | hand hq he hf =>
      have hn : _ = CourierStage.handing n left := hc
      rw [queue_tell, queue_setCourier] at hn
      cases hn
      rfl
    | _ =>
      simp at hc
  · rw [h.queue_eq hl] at hc
    exact hv lane' n left hc

theorem Manned.handing (h : v.Manned) {n : Notice} {i : Nat}
    (hs : v.sequencer.stage = .handing n i) :
    ∃ c s t, v.sequencer.active = some c ∧ n = c.notice s.receiver (some s) t := by
  rw [Manned, hs] at h
  exact h

theorem Manned.closing (h : v.Manned) {n : Notice} {c : Chain} {reason : FinishReason}
    (hs : v.sequencer.stage = .closing n c reason) :
    ∃ f t, c.finalReceiver = some f ∧ n = c.notice f none t := by
  rw [Manned, hs] at h
  exact h

theorem Sound.handing (h : v.Sound) {n : Notice} {i : Nat} {c : Chain}
    (hs : v.sequencer.stage = .handing n i) (ha : v.sequencer.active = some c) :
    c.state = .receiving ∧ ∃ s t, n = c.notice s.receiver (some s) t := by
  obtain ⟨-, c', hc, hstate⟩ := h.sequencer.handing hs
  cases hc.symm.trans ha
  obtain ⟨c', s, t, hc, hn⟩ := h.manned.handing hs
  cases hc.symm.trans ha
  exact ⟨hstate, s, t, hn⟩

theorem Sound.not_stray (h : v.Sound) {n : Notice} {i : Nat}
    (hs : v.sequencer.stage = .handing n i) :
    ¬(v.sequencer.active = none ∨ n.subscriber = none) := by
  obtain ⟨hsub, c, hc, -⟩ := h.sequencer.handing hs
  simp [hc, hsub]

theorem manned_of_listening (h : v.sequencer.stage = .listening) : v.Manned := by
  rw [Manned, h]
  trivial

theorem manned_of_pumping (h : v.sequencer.stage = .pumping) : v.Manned := by
  rw [Manned, h]
  trivial

theorem Moves.manned (h : v.Moves evs w) : w.Manned := by
  cases h with
  | hand hs ha hw hn he hf =>
    obtain ⟨-, -, -, -, -, rfl⟩ := Chain.next_deliver hn
    exact ⟨_, _, _, rfl, rfl⟩
  | @close c c' reason f hs ha hw hn hf =>
    obtain ⟨hid, hcopy, hsticky, -, hfinal, -⟩ := Chain.next_finalize hn
    refine ⟨f, v.now, hfinal.trans hf, ?_⟩
    rw [Chain.notice, Chain.notice, Chain.flags, Chain.flags, hid, hcopy, hsticky]
  | ignore hs hq hn ha => exact manned_of_listening hs
  | start hs ha hp => exact manned_of_pumping hs
  | pass hs ha hw hn he => exact manned_of_pumping hs
  | hold hs ha hw hn he hf => exact manned_of_pumping hs
  | _ => exact trivial

theorem Sound.effect (h : v.Sound) (he : v.Effect a evs w) : w.Sound := by
  have hr := he.registry_changes.sound h.registry
  cases he with
  | request hq =>
    refine ⟨hr, hq.sequencer_sound h.sequencer, hq.manned h.manned, ?_⟩
    intro lane n left hc
    rw [hq.courier_eq lane] at hc
    exact h.unchained lane n left hc
  | carry lane hc =>
    have hm : w.Manned := by
      rw [Manned, hc.sequencer_eq]
      exact h.manned
    exact ⟨hr, hc.sequencer_eq ▸ h.sequencer, hm, hc.unchained h.unchained⟩
  | move hm =>
    refine ⟨hr, Sequencer.Sound.moves hm h.sequencer, hm.manned, ?_⟩
    rw [hm.frame]
    exact h.unchained

section Lineup

/-- The chain that the sequencer is busy with, until it is finished. -/
def underway (v : View) : Option Chain :=
  match v.sequencer.stage with
  | .closing _ c _ => some c
  | _ => v.sequencer.active

def waiting (v : View) : List Chain :=
  v.sequencer.pending ++ v.sequencer.commands.filterMap Command.chain?

def chainOf (v : View) (a : Admission) : Option Chain :=
  a.chain.map fun id => .ofReceivers id ⟨a.publication.serial, a.publication.event⟩
    a.publication.options.sticky (a.matched.map Subscriber.id) v.config.receiverTimeout
    (v.config.watchdogBudget a.matched.length) a.finalReceiver

theorem underway_of_ne (h : ∀ n c reason, v.sequencer.stage ≠ .closing n c reason) :
    v.underway = v.sequencer.active := by
  rw [underway]
  split
  · rename_i hs
    exact absurd hs (h _ _ _)
  · rfl

theorem Request.underway_eq (h : v.Request a w) : w.underway = v.underway := by
  obtain ⟨cs, -, hw⟩ := h.sends
  rw [underway, hw]
  rfl

theorem waiting_send (v : View) (cs : List Command) :
    (v.send cs).waiting = v.waiting ++ cs.filterMap Command.chain? := by
  simp [waiting, send]

theorem Request.waiting_eq (h : v.Request a w) :
    w.waiting = v.waiting ++ (a.bind v.chainOf).toList := by
  have same : v.waiting = v.waiting ++ [] := (List.append_nil _).symm
  cases h with
  | @publish a w hn hm hq =>
    change w.waiting = v.waiting ++ (v.chainOf a).toList
    rw [chainOf]
    generalize a.chain = chain at hq
    cases hq with
    | nothing hm hf => exact same
    | chain ho hm hs => exact waiting_send _ _
    | job ho hm => exact same
  | leave gone cleared hcs =>
    rw [waiting_send, List.filterMap_eq_nil_iff.2 hcs]
    rfl
  | _ => exact same

theorem Request.chain_eq (h : v.Request a w) :
    match a.bind Admission.chain with
    | none => w.chains = v.chains
    | some id => id = ⟨v.chains + 1⟩ ∧ w.chains = v.chains + 1 ∧ v.sequencer.stage ≠ .stopped := by
  cases h with
  | @publish a w hn hm hq =>
    change match a.chain with
      | none => w.chains = v.chains
      | some id => id = ⟨v.chains + 1⟩ ∧ w.chains = v.chains + 1 ∧ v.sequencer.stage ≠ .stopped
    generalize a.chain = chain at hq
    cases hq with
    | nothing hm hf => rfl
    | chain ho hm hs => exact ⟨rfl, rfl, hs⟩
    | job ho hm => rfl
  | _ => rfl

end Lineup

inductive Runs (v : View) : List Admission → List ChainEvent → View → Prop
  | start : Runs v [] [] v
  | act {as : List Admission} {evs es : List ChainEvent} {w x : View} {a : Option Admission}
      (h : Runs v as evs w) (he : w.Effect a es x) : Runs v (as ++ a.toList) (evs ++ es) x

end View

namespace Broker

theorem run_append (b : Broker) (xs ys : List Action) : b.run (xs ++ ys) = (b.run xs).run ys :=
  List.foldl_append

def admissions (b : Broker) : List Action → List Admission
  | [] => []
  | a :: rest => (b.admits a).toList ++ (b.act a).admissions rest

def trace (b : Broker) : List Action → List ChainEvent
  | [] => []
  | a :: rest => b.deeds a ++ (b.act a).trace rest

structure Gathers {α : Type} (each : Broker → Action → List α)
    (total : Broker → List Action → List α) : Prop where
  nil : ∀ b, total b [] = []
  cons : ∀ b a rest, total b (a :: rest) = each b a ++ total (b.act a) rest

namespace Gathers

variable {α : Type} {each : Broker → Action → List α} {total : Broker → List Action → List α}
  (h : Gathers each total)
include h

theorem append (b : Broker) (xs ys : List Action) :
    total b (xs ++ ys) = total b xs ++ total (b.run xs) ys := by
  induction xs generalizing b with
  | nil => rw [h.nil, List.nil_append, List.nil_append]; rfl
  | cons a rest ih =>
    rw [List.cons_append, h.cons, ih, h.cons, List.append_assoc]
    rfl

theorem snoc (b : Broker) (before : List Action) (a : Action) :
    total b (before ++ [a]) = total b before ++ each (b.run before) a := by
  rw [h.append, h.cons, h.nil, List.append_nil]

theorem exists_of_mem {b : Broker} {actions : List Action} {x : α} (hx : x ∈ total b actions) :
    ∃ before a after, actions = before ++ a :: after ∧ x ∈ each (b.run before) a := by
  induction actions generalizing b with
  | nil =>
    rw [h.nil] at hx
    cases hx
  | cons a rest ih =>
    rw [h.cons] at hx
    cases List.mem_append.1 hx with
    | inl hx => exact ⟨[], a, rest, rfl, hx⟩
    | inr hx =>
      obtain ⟨before, a', after, hrest, hx⟩ := ih hx
      exact ⟨a :: before, a', after, congrArg (a :: ·) hrest, hx⟩

end Gathers

theorem gathers_admissions : Gathers (fun b a => (b.admits a).toList) admissions :=
  ⟨fun _ => rfl, fun _ _ _ => rfl⟩

theorem gathers_trace : Gathers deeds trace := ⟨fun _ => rfl, fun _ _ _ => rfl⟩

theorem view_start_sound (config : Config) (oracle : Oracle) (bundleOf : Uid → Option String)
    (observers : List Observer) : (start config oracle bundleOf observers).view.Sound where
  registry := .ofCeiling config.ceiling
  sequencer := .empty
  manned := trivial
  unchained := by
    intro lane n left h
    cases lane <;> cases h

theorem runs_from {v : View} {b : Broker} {as : List Admission} {evs : List ChainEvent}
    (h : v.Runs as evs b.view) (hs : b.view.Sound) (actions : List Action) :
    v.Runs (as ++ b.admissions actions) (evs ++ b.trace actions) (b.run actions).view ∧
      (b.run actions).view.Sound := by
  induction actions generalizing b as evs with
  | nil =>
    rw [admissions, trace, List.append_nil, List.append_nil]
    exact ⟨h, hs⟩
  | cons a rest ih =>
    have he := b.act_effect a hs.registry
    have hrest := ih (h.act he) (hs.effect he)
    rw [admissions, trace, ← List.append_assoc, ← List.append_assoc]
    exact hrest

theorem runs_view {b : Broker} (hs : b.view.Sound) (actions : List Action) :
    b.view.Runs (b.admissions actions) (b.trace actions) (b.run actions).view ∧
      (b.run actions).view.Sound :=
  runs_from .start hs actions

theorem signals_run {b : Broker} (hs : b.view.Sound) (actions : List Action) :
    (b.run actions).signals =
      b.signals ++ (b.trace actions).filterMap ChainEvent.signal? := by
  induction actions generalizing b with
  | nil => exact (List.append_nil _).symm
  | cons a rest ih =>
    have he := b.act_effect a hs.registry
    have hact : (b.act a).signals = b.signals ++ (b.deeds a).filterMap ChainEvent.signal? :=
      he.signals_eq
    have hrest := ih (hs.effect he)
    rw [hact, List.append_assoc] at hrest
    rw [trace, List.filterMap_append]
    exact hrest

end Broker

end EventBroker
