import EventBroker.Proofs.Indexing
import EventBroker.Proofs.Warrants

namespace EventBroker

def Registry.Ready (r : Registry) (s : Subscriber) : Prop :=
  ∃ e, r.entry? s.id = some e ∧ e.subscriber = s ∧ e.frozenAt = none

def Signal.subscriber? : Signal → Option Subscriber
  | notifying n => n.subscriber
  | _ => none

namespace View

variable {v w : View}

def notified (v w : View) : List Subscriber :=
  (w.signals.drop v.signals.length).filterMap Signal.subscriber?

theorem notified_silent (h : w.signals = v.signals) : v.notified w = [] := by
  rw [notified, h, List.drop_length]
  rfl

theorem notified_tell {s : Signal} (h : w.signals = v.signals ++ [s]) :
    v.notified w = s.subscriber?.toList := by
  rw [notified, h, List.drop_left]
  cases hs : s.subscriber? <;> simp [hs]

theorem notified_trans {x : View} (hw : v.signals <+: w.signals) (hx : w.signals <+: x.signals) :
    v.notified x = v.notified w ++ w.notified x := by
  obtain ⟨s, hs⟩ := hw
  obtain ⟨t, ht⟩ := hx
  rw [notified, notified, notified, ← ht, ← hs, List.append_assoc, List.drop_left, List.drop_left,
    ← List.append_assoc, List.drop_left, List.filterMap_append]

theorem Carries.ready {lane : Lane} (h : v.Carries lane w) (hr : v.registry.Sound) :
    ∀ s ∈ v.notified w, v.registry.Ready s := by
  have silent : w.signals = v.signals → ∀ s ∈ v.notified w, v.registry.Ready s := by
    intro hw
    rw [notified_silent hw]
    exact List.forall_mem_nil _
  cases h with
  | @hand d rest e hq he hf =>
    intro s hs
    rw [notified_tell (s := .notifying (d.notice e.subscriber v.now)) (by cases lane <;> rfl)] at hs
    cases List.mem_singleton.1 hs
    exact ⟨e, by rw [hr.keyed he, he], rfl, hf⟩
  | @handed n rest hq result =>
    rw [notified_tell (s := .notified n result) (by cases lane <;> rfl)]
    exact List.forall_mem_nil _
  | _ => exact silent (by cases lane <;> rfl)

theorem Moves.ready {es : List ChainEvent} (h : v.Moves es w) (hr : v.registry.Sound) :
    ∀ s ∈ v.notified w, v.registry.Ready s := by
  have silent : w.signals = v.signals → ∀ s ∈ v.notified w, v.registry.Ready s := by
    intro hw
    rw [notified_silent hw]
    exact List.forall_mem_nil _
  have other : ∀ {t : Signal}, w.signals = v.signals ++ [t] → t.subscriber? = none →
      ∀ s ∈ v.notified w, v.registry.Ready s := by
    intro t hw ht
    rw [notified_tell hw, ht]
    exact List.forall_mem_nil _
  cases h with
  | hand hs ha hw hn he hf =>
    intro s hs
    rw [notified_tell rfl] at hs
    cases List.mem_singleton.1 hs
    exact ⟨_, by rw [hr.keyed he, he], rfl, hf⟩
  | closed hs =>
    rw [notified, tell, tell, List.append_assoc, List.drop_left]
    exact List.forall_mem_nil _
  | start hs ha hp => exact other rfl rfl
  | finish hs ha hw hn hf => exact other rfl rfl
  | close hs ha hw hn hf => exact other rfl rfl
  | parked hs ha hn | overrun hs ha hn => exact other rfl rfl
  | failed hs ha hn => exact other rfl rfl
  | stray hs hn => exact other rfl rfl
  | _ => exact silent rfl

theorem Effect.ready {a : Option Admission} {es : List ChainEvent} (h : v.Effect a es w)
    (hr : v.registry.Sound) :
    ∀ s ∈ v.notified w, v.registry.Ready s ∧ w.registry.Ready s := by
  cases h with
  | request h =>
    rw [notified_silent h.signals_eq]
    exact List.forall_mem_nil _
  | carry lane h =>
    intro s hs
    have hready := h.ready hr s hs
    exact ⟨hready, (congrArg View.registry h.frame).symm ▸ hready⟩
  | move h =>
    intro s hs
    have hready := h.ready hr s hs
    exact ⟨hready, (congrArg View.registry h.frame).symm ▸ hready⟩

end View

namespace Registry

variable {r : Registry} {id : SubscriberId} {s : Subscriber}

theorem Gone.not_ready (h : r.Gone id) (hs : r.Ready s) : s.id ≠ id := by
  intro hid
  obtain ⟨e, he, -⟩ := hs
  rw [hid, h.absent] at he
  cases he

theorem Sound.gone_unsubscribeAll (h : r.Sound) {ids : List SubscriberId} {e : Entry}
    (he : r.entry? id = some e) (hid : id ∈ ids) : (Registry.unsubscribeAll ids r).2.Gone id where
  absent := by
    rw [Option.eq_none_iff_forall_ne_some]
    intro e' he'
    have hkey := (h.unsubscribeAll ids).keyed he'
    have hlive := Registry.mem_live.2 ⟨id, e', he', rfl⟩
    rw [live_unsubscribeAll h, List.mem_filter, hkey] at hlive
    exact of_decide_eq_true hlive.2 hid
  known := by
    rw [issued_unsubscribeAll]
    exact h.known he

structure Suspended (r : Registry) (id : SubscriberId) (o : Owner) : Prop where
  known : id.val ≤ r.issued
  frozen : ∀ e, r.entry? id = some e → e.subscriber.owner = o ∧ e.frozenAt ≠ none

namespace Suspended

variable {o : Owner}

theorem not_ready (h : r.Suspended id o) (hs : r.Ready s) : s.id ≠ id := by
  intro hid
  obtain ⟨e, he, -, hf⟩ := hs
  exact (h.frozen e (hid ▸ he)).2 hf

theorem add (h : r.Suspended id o) (hs : s.id = ⟨r.issued + 1⟩) : (r.add s).Suspended id o where
  known := Nat.le_succ_of_le h.known
  frozen := by
    intro e he
    rw [entry_add] at he
    split at he
    · rename_i hid
      have hle := h.known
      rw [← hid, hs] at hle
      exact absurd hle (Nat.not_succ_le_self _)
    · exact h.frozen e he

theorem unsubscribeAll (h : r.Suspended id o) (ids : List SubscriberId) :
    (Registry.unsubscribeAll ids r).2.Suspended id o where
  known := (issued_unsubscribeAll ids r).symm ▸ h.known
  frozen := fun e he => h.frozen e (entry_of_unsubscribeAll he)

theorem updateFreeze (h : r.Suspended id o) {sel : Selector} {frozen : Bool}
    (hsel : frozen = false → sel.selects o = false) (now : Instant) :
    (r.updateFreeze sel frozen now).2.Suspended id o where
  known := h.known
  frozen := by
    intro e he
    rw [entry_updateFreeze] at he
    obtain ⟨e', he', rfl⟩ := Option.map_eq_some_iff.1 he
    obtain ⟨ho, hf⟩ := h.frozen e' he'
    split
    · rename_i hs
      rw [Entry.subscriber_mark]
      refine ⟨ho, ?_⟩
      rw [ho] at hs
      cases frozen with
      | false => exact absurd (hs.symm.trans (hsel rfl)) Bool.noConfusion
      | true => simp [Entry.mark]
    · exact ⟨ho, hf⟩

end Suspended

theorem Sound.suspended (h : r.Sound) {e : Entry} (he : r.entry? id = some e) {sel : Selector}
    (hsel : sel.selects e.subscriber.owner = true) (now : Instant) :
    (r.updateFreeze sel true now).2.Suspended id e.subscriber.owner where
  known := h.known he
  frozen := by
    intro e' he'
    rw [entry_updateFreeze, he, Option.map_some, if_pos hsel] at he'
    cases he'
    exact ⟨congrArg Subscriber.owner (Entry.subscriber_mark _ _ _),
      by simp [Entry.mark]⟩

end Registry

namespace Broker

variable {b : Broker}

def begun (b : Broker) (actions : List Action) : List Subscriber :=
  b.view.notified (b.run actions).view

theorem registry_of_view {v : View} (h : b.view = v) : b.registry = v.registry :=
  congrArg View.registry h

theorem registry_updateFreeze (b : Broker) (sel : Selector) (frozen : Bool) :
    (b.act (.updateFreeze sel frozen)).registry = (b.registry.updateFreeze sel frozen b.now).2 :=
  registry_of_view (b.updateFreeze_view sel frozen)

theorem view_work {α : Type} (f : View → α) (b : Broker)
    (carry : ∀ {lane : Lane} {w : View}, b.view.Carries lane w → f w = f b.view)
    (move : ∀ {es : List ChainEvent} {w : View}, b.view.Moves es w → f w = f b.view)
    {a : Action} (h : isWork a = true) : f (b.act a).view = f b.view := by
  by_cases hw : a = .work .sequencer
  · subst hw
    change f ((b.work .sequencer).getD b).view = f b.view
    cases hb : b.work .sequencer with
    | none => rfl
    | some b' =>
      obtain ⟨evs, hm⟩ := sequencerStep_moves hb
      exact move hm
  · by_cases hc : ∃ reception, a = .handedOff .sequencer reception
    · obtain ⟨reception, rfl⟩ := hc
      cases b.sequencerConclude_moves reception.result with
      | inl hv => exact congrArg f hv
      | inr hm =>
        obtain ⟨-, evs, hm⟩ := hm
        exact move hm
    · cases b.act_carries h hw fun reception e => hc ⟨reception, e⟩ with
      | inl hv => exact congrArg f hv
      | inr hv =>
        obtain ⟨lane, hv⟩ := hv
        exact carry hv

theorem registry_work (b : Broker) {a : Action} (h : isWork a = true) :
    (b.act a).registry = b.registry :=
  view_work View.registry b (fun hc => by rw [hc.frame]) (fun hm => by rw [hm.frame]) h

theorem registry_post (b : Broker) (p : Publication) (f : Option Receiver) :
    (b.post p f).2.registry = b.registry := by
  cases h : b.post p f with
  | mk result b' =>
    cases result with
    | error e => exact registry_of_view (post_refused h)
    | ok receipt =>
      obtain ⟨w, hq, hv⟩ := post_admitted h
      exact (registry_of_view hv).trans (congrArg View.registry hq.frame)

def isEnrollment : Action → Bool
  | .subscribe _ | .updateFreeze _ _ | .unsubscribe _ | .ownerDied _ => true
  | _ => false

theorem registry_same (b : Broker) {a : Action} (h : isEnrollment a = false) :
    (b.act a).registry = b.registry := by
  cases a with
  | publish p => exact b.registry_post p none
  | publishWithResult p receiver => exact b.registry_post _ (some receiver)
  | flushFrozen sel =>
    by_cases h : (b.vault.flush sel).1 = []
    · exact congrArg (fun r => r.2.registry) (b.flushFrozen_nothing h)
    · cases hr : b.replay.refuses with
      | false => exact registry_of_view (b.flushFrozen_taken h hr)
      | true => exact registry_of_view (b.flushFrozen_refused h hr)
  | finish receiver code data abort =>
    obtain ⟨cs, -, hv⟩ := b.ask_view .finish (.finish receiver code data abort) (.finished .stale)
      fun _ => rfl
    exact registry_of_view hv
  | active receiver =>
    obtain ⟨cs, -, hv⟩ := b.ask_view .active (.active receiver) (.active none) fun _ => rfl
    exact registry_of_view hv
  | shutdown => exact registry_of_view b.shutdown_view
  | resume call =>
    obtain ⟨cs, -, hv⟩ := b.resume_view call
    exact registry_of_view hv
  | observed i panic => exact registry_of_view (b.observerConclude_view i panic)
  | work w => exact b.registry_work rfl
  | handedOff w reception => exact b.registry_work rfl
  | tick now => rfl
  | setOracle o => rfl
  | _ => cases h

theorem registry_act (b : Broker) (a : Action) :
    (b.act a).registry = b.registry ∨
      (∃ s : Subscriber, s.id = ⟨b.registry.issued + 1⟩ ∧
        (b.act a).registry = b.registry.add s) ∨
      (∃ ids, (b.departing a, (b.act a).registry) = Registry.unsubscribeAll ids b.registry) ∨
      ∃ sel frozen, a = .updateFreeze sel frozen := by
  cases a with
  | subscribe req =>
    cases h : b.subscribe req with
    | mk result b' =>
      have hact : (b.act (.subscribe req)).view = b'.view := congrArg (fun x => x.2.view) h
      cases result with
      | error e =>
        exact .inl (registry_of_view (hact.trans (subscribe_refused h)))
      | ok id =>
        obtain ⟨s, hs, hid, ps, -, hv⟩ := subscribe_admitted h
        exact .inr (.inl ⟨s, hs.trans hid, registry_of_view (hact.trans hv)⟩)
  | updateFreeze sel frozen => exact .inr (.inr (.inr ⟨sel, frozen, rfl⟩))
  | unsubscribe id =>
    exact .inr (.inr (.inl ⟨[id], by rw [registry_unsubscribe, departing, leavers_eq]⟩))
  | ownerDied pid =>
    refine .inr (.inr (.inl ⟨b.registry.idsOf pid, ?_⟩))
    rw [registry_ownerDied]
    rfl
  | _ => exact .inl (b.registry_same rfl)

theorem begun_cons (hs : b.view.Sound) (a : Action) (rest : List Action) :
    b.begun (a :: rest) = b.begun [a] ++ (b.act a).begun rest := by
  have he := b.act_effect a hs.registry
  exact View.notified_trans ⟨_, he.signals_eq.symm⟩ ⟨_, (signals_run (hs.effect he) rest).symm⟩

theorem begun_ready (hs : b.view.Sound) (a : Action) :
    ∀ s ∈ b.begun [a], b.registry.Ready s ∧ (b.act a).registry.Ready s :=
  (b.act_effect a hs.registry).ready hs.registry

theorem not_begun {id : SubscriberId} {P : Registry → Prop} {Q : Action → Prop}
    (unready : ∀ r s, P r → r.Ready s → s.id ≠ id)
    (act : ∀ {b : Broker} {a : Action}, b.registry.Sound → Q a → P b.registry →
      P (b.act a).registry)
    (hs : b.view.Sound) (hb : P b.registry) {actions : List Action}
    (ha : ∀ a ∈ actions, Q a) : id ∉ (b.begun actions).map Subscriber.id := by
  induction actions generalizing b with
  | nil =>
    have hsilent : b.begun [] = [] := View.notified_silent rfl
    rw [hsilent]
    exact List.not_mem_nil
  | cons a rest ih =>
    obtain ⟨ha, hrest⟩ := List.forall_mem_cons.1 ha
    rw [begun_cons hs, List.map_append, List.mem_append, not_or]
    constructor
    · intro hm
      obtain ⟨s, hm, hid⟩ := List.mem_map.1 hm
      exact unready _ s hb (begun_ready hs a s hm).1 hid
    · exact ih (hs.effect (b.act_effect a hs.registry)) (act hs.registry ha hb) hrest

theorem suspended_act {id : SubscriberId} {o : Owner} (h : b.registry.Suspended id o) {a : Action}
    (ha : ∀ sel, a = .updateFreeze sel false → sel.selects o = false) :
    (b.act a).registry.Suspended id o := by
  obtain hr | ⟨s, hid, hr⟩ | ⟨ids, hr⟩ | ⟨sel, frozen, rfl⟩ := b.registry_act a
  · rwa [hr]
  · rw [hr]
    exact h.add hid
  · rw [show (b.act a).registry = _ from congrArg Prod.snd hr]
    exact h.unsubscribeAll ids
  · rw [registry_updateFreeze]
    refine h.updateFreeze ?_ b.now
    rintro rfl
    exact ha sel rfl

theorem gone_of_removal {id : SubscriberId} {e : Entry} {a : Action} (hr : b.registry.Sound)
    (he : b.registry.entry? id = some e)
    (ha : a = .unsubscribe id ∨ a = .ownerDied e.subscriber.owner.pid) :
    (b.act a).registry.Gone id := by
  obtain rfl | rfl := ha
  · rw [registry_unsubscribe]
    exact hr.gone_unsubscribeAll he (List.mem_singleton_self id)
  · rw [registry_ownerDied]
    exact hr.gone_unsubscribeAll he ((Registry.mem_idsOf he _).2 rfl)

/-- Whenever a notification starts, its subscription is live and not frozen. So there is none once
the subscription was removed, nor from a freeze of its owner until the next thaw of it. -/
theorem notified_while_ready (config : Config) (oracle : Oracle) (bundleOf : Uid → Option String)
    (observers : List Observer) (before : List Action) (a : Action) (after : List Action) :
    let b := (start config oracle bundleOf observers).run before
    (∀ s ∈ b.begun [a], b.registry.Ready s ∧ (b.act a).registry.Ready s) ∧
      ∀ id e, b.registry.entry? id = some e →
        (a = .unsubscribe id ∨ a = .ownerDied e.subscriber.owner.pid →
          (b.act a).registry.entry? id = none ∧
            id ∉ (b.begun (a :: after)).map Subscriber.id) ∧
        ∀ sel, a = .updateFreeze sel true → sel.selects e.subscriber.owner = true →
          (∀ sel', .updateFreeze sel' false ∈ after →
            sel'.selects e.subscriber.owner = false) →
          id ∉ (b.begun (a :: after)).map Subscriber.id := by
  intro b
  have hs : b.view.Sound := (runs_view (view_start_sound config oracle bundleOf observers) before).2
  have hnext : (b.act a).view.Sound := hs.effect (b.act_effect a hs.registry)
  have request : isWork a = false → b.begun (a :: after) = (b.act a).begun after := by
    intro ha
    have hsilent : b.begun [a] = [] := View.notified_silent (b.act_request ha).signals_eq
    rw [begun_cons hs, hsilent, List.nil_append]
  refine ⟨begun_ready hs a, fun id e he => ⟨fun ha => ?_, ?_⟩⟩
  · have hgone := gone_of_removal hs.registry he ha
    have hwork : isWork a = false := by
      obtain rfl | rfl := ha <;> rfl
    refine ⟨hgone.absent, ?_⟩
    rw [request hwork]
    exact not_begun (P := fun r => r.Gone id) (Q := fun _ => True) (fun r s h => h.not_ready)
      (fun hr _ h => gone_act hr h _) hnext hgone fun _ _ => trivial
  · rintro sel rfl hsel hthaw
    rw [request rfl]
    have hsuspended :
        (b.act (.updateFreeze sel true)).registry.Suspended id e.subscriber.owner := by
      rw [registry_updateFreeze]
      exact hs.registry.suspended he hsel b.now
    refine not_begun (P := fun r => r.Suspended id e.subscriber.owner) (fun r s h => h.not_ready)
      (fun _ ha h => suspended_act h ha) hnext hsuspended ?_
    rintro a ha sel' rfl
    exact hthaw sel' ha

theorem ringing_withheld :
    let b := (start {} .allowAll (fun _ => none) []).run [joining, ringing]
    let moves := List.replicate 4 (Action.work .sequencer)
    ⟨1⟩ ∈ (b.begun moves).map Subscriber.id ∧
      ⟨1⟩ ∉ (b.begun (.unsubscribe ⟨1⟩ :: moves)).map Subscriber.id ∧
      ⟨1⟩ ∉ (b.begun (.updateFreeze .all true :: moves)).map Subscriber.id := by
  intro b moves
  obtain ⟨e, he⟩ : ∃ e, b.registry.entry? ⟨1⟩ = some e := by
    rw [← Option.isSome_iff_exists]
    decide +kernel
  have removed := notified_while_ready {} .allowAll (fun _ => none) [] [joining, ringing]
    (.unsubscribe ⟨1⟩) moves
  have frozen := notified_while_ready {} .allowAll (fun _ => none) [] [joining, ringing]
    (.updateFreeze .all true) moves
  refine ⟨by decide +kernel, ((removed.2 ⟨1⟩ e he).1 (.inl rfl)).2, ?_⟩
  refine (frozen.2 ⟨1⟩ e he).2 .all rfl rfl ?_
  simp [moves]

end Broker

end EventBroker
