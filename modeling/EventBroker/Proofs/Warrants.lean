import EventBroker.Proofs.Effects.Waiting
import EventBroker.Proofs.Ledger

namespace EventBroker

namespace View

/-- What is true of a loss, by its cause, when it happens in the step from `v` to `w`. -/
inductive Warrants (v w : View) : Loss → Prop
  | gone {x : Parcel} (h : v.registry.entry? x.2 = none) : Warrants v w ⟨.gone, x⟩
  | outdated {id : SubscriberId} {shelf : Shelf Copy} {copy : Copy} {captured : Instant}
      (hs : v.vault.shelves.get? id = some shelf) (hm : (copy, captured) ∈ shelf.items)
      (ho : Shelf.outdated v.vault.retention v.now captured = true) :
    Warrants v w ⟨.outdated, (copy.serial, id)⟩
  | purged {x : Parcel} (hm : x ∈ v.vault.parcels) (h : w.registry.entry? x.2 = none) :
    Warrants v w ⟨.purged, x⟩
  | unrestored {x : Parcel} (hr : v.replay.refuses = true) (hm : x ∈ v.vault.parcels)
      (h : v.registry.entry? x.2 = none) : Warrants v w ⟨.unrestored, x⟩
  | aborted {c : Chain} {x : Parcel} (hc : v.sequencer.active = some c) (hm : x ∈ c.parcels)
      (ha : c.abort = true) : Warrants v w ⟨.aborted, x⟩
  | overdue {c : Chain} {x : Parcel} (hc : v.sequencer.active = some c) (hm : x ∈ c.parcels)
      (hd : c.expired = true ∨ Chain.due c.watchdogDeadline v.now = true) :
    Warrants v w ⟨.overdue, x⟩
  | abandoned {x : Parcel} (h : v.cancelled = true) : Warrants v w ⟨.abandoned, x⟩
  | wrecked {c : Chain} {x : Parcel} (hc : v.sequencer.active = some c)
      (hm : x ∈ v.sequencer.parcels) (hb : c.breaksDown v.now = true) :
    Warrants v w ⟨.wrecked, x⟩

variable {v w : View} {l : Loss}

theorem warrants_turn (hr : v.registry.Sound) {id : SubscriberId} {serial : Nat}
    (hl : l ∈ v.turnLosses id serial) : v.Warrants w l := by
  rw [turnLosses] at hl
  split at hl
  · rename_i h
    cases List.mem_singleton.1 hl
    exact .gone h
  · rename_i e h
    split at hl
    · cases hl
    · obtain ⟨⟨copy, captured⟩, ha, rfl⟩ := List.mem_map.1 hl
      have hid : e.subscriber.id = id := hr.keyed h
      rw [Vault.shelfFor, hid] at ha
      cases hs : v.vault.shelves.get? id with
      | none =>
        rw [hs] at ha
        cases ha
      | some shelf =>
        rw [hs] at ha
        have ho := List.all_eq_true.1 List.all_takeWhile (copy, captured) ha
        exact .outdated hs (List.takeWhile_subset _ ha) ho

theorem Carries.cancelled {lane : Lane} (h : v.Carries lane w)
    (hw : (w.queue lane).courier = .stopped) : v.cancelled = true := by
  cases h with
  | stop h hc => exact hc
  | _ => simp at hw

theorem Carries.warrants {lane : Lane} (h : v.Carries lane w) (hr : v.registry.Sound)
    (hl : l ∈ v.courierLosses lane w) : v.Warrants w l := by
  rw [courierLosses] at hl
  split at hl
  · rename_i hw
    obtain ⟨x, -, rfl⟩ := List.mem_map.1 hl
    exact .abandoned (h.cancelled hw)
  · exact warrants_turn hr hl
  · cases hl

theorem Moves.cancelled {es : List ChainEvent} (h : v.Moves es w)
    (hs : v.sequencer.stage = .listening) (hw : w.sequencer.stage = .stopped) :
    v.cancelled = true := by
  cases h with
  | stop h hcancelled => exact hcancelled
  | ignore h hq hn ha => simp [hs] at hw
  | _ => simp_all

theorem Moves.broke {es : List ChainEvent} (h : v.Moves es w)
    (hs : v.sequencer.stage = .pumping) (hw : w.sequencer.stage = .stopped) :
    ∃ c, v.sequencer.active = some c ∧ c.breaksDown v.now = true := by
  cases h with
  | breakDown h ha hb => exact ⟨_, ha, hb⟩
  | pass h ha hw' hn he => simp [hs] at hw
  | hold h ha hw' hn he hf => simp [hs] at hw
  | start h ha hp => simp [hs, tell] at hw
  | _ => simp_all [tell]

theorem warrants_step (hr : v.registry.Sound) {c c' : Chain} {step : ChainStep}
    (hc : v.sequencer.active = some c) (hn : c.next v.now = (step, c'))
    (hl : l ∈ v.stepLosses c step) : v.Warrants w l := by
  cases step with
  | deliver i r => exact warrants_turn hr hl
  | overrun => cases hl
  | finalize reason =>
    cases reason with
    | exhausted => cases hl
    | aborted =>
      obtain ⟨x, hx, rfl⟩ := List.mem_map.1 hl
      obtain ⟨-, -, -, -, -, habort, -⟩ := Chain.next_finalize hn
      exact .aborted hc hx (habort.2 rfl)
    | watchdog =>
      obtain ⟨x, hx, rfl⟩ := List.mem_map.1 hl
      exact .overdue hc hx (Chain.overdue_of_next hn)

theorem Moves.warrants {es : List ChainEvent} (h : v.Moves es w) (hr : v.registry.Sound)
    (hl : l ∈ v.sequencerLosses w) : v.Warrants w l := by
  rw [sequencerLosses] at hl
  split at hl
  · rename_i hs hw
    obtain ⟨x, -, rfl⟩ := List.mem_map.1 hl
    exact .abandoned (h.cancelled hs hw)
  · rename_i hs hw
    obtain ⟨x, hx, rfl⟩ := List.mem_map.1 hl
    obtain ⟨c, ha, hb⟩ := h.broke hs hw
    exact .wrecked ha hx hb
  · split at hl
    · cases hl
    · rename_i c hc
      split at hl
      · cases hl
      · exact warrants_step hr hc rfl hl
  · cases hl

theorem warrants_flush (hv : v.vault.Sound) {sel : Selector} (hl : l ∈ v.flushLosses sel) :
    v.Warrants w l := by
  rw [flushLosses] at hl
  split at hl
  · rename_i hr
    obtain ⟨a, ha, rfl⟩ := List.mem_map.1 hl
    obtain ⟨ha, hgone⟩ := List.mem_filter.1 ha
    have hmem := (hv.parcels_restore sel v.registry.contains).subset
      (List.mem_append_right _ (List.mem_map.2 ⟨a, List.mem_filter.2 ⟨ha, hgone⟩, rfl⟩))
    refine .unrestored hr hmem ?_
    rw [Bool.not_eq_true', ← Bool.not_eq_true] at hgone
    exact Option.not_isSome_iff_eq_none.1 hgone
  · cases hl

theorem warrants_clear {ids : List SubscriberId} (h : ∀ id ∈ ids, w.registry.Gone id)
    (hl : l ∈ v.clearLosses ids) : v.Warrants w l := by
  obtain ⟨x, hx, rfl⟩ := List.mem_map.1 hl
  obtain ⟨hm, hid⟩ := List.mem_filter.1 hx
  exact .purged hm (h x.2 (of_decide_eq_true hid)).absent

theorem Effect.cancelled {a : Option Admission} {es : List ChainEvent} (h : v.Effect a es w)
    (hc : v.cancelled = true) : w.cancelled = true := by
  cases h with
  | request h =>
    cases h with
    | @publish a w hn hm hq =>
      have hw : w.cancelled = v.cancelled := by rw [hq.frame]
      exact hw.trans hc
    | cancel => rfl
    | _ => exact hc
  | carry lane h =>
    rw [h.frame]
    exact hc
  | move h =>
    rw [h.frame]
    exact hc

end View

namespace Broker

variable {b : Broker} {s : Subscriber} {l : Loss}

def departing (b : Broker) : Action → List Subscriber
  | .unsubscribe id => (b.leavers id).1
  | .ownerDied pid => (b.registry.removeOwner pid).1
  | _ => []

theorem leaving_act {a : Action} (h : (b.act a).Leaving s) : b.Leaving s ∨ s ∈ b.departing a := by
  cases a with
  | subscribe req => exact .inl (leaving_of_desk (b.desk_subscribe req) h)
  | publish p => exact .inl (leaving_of_desk (b.desk_post p none) h)
  | publishWithResult p receiver =>
    exact .inl (leaving_of_desk (b.desk_post _ (some receiver)) h)
  | updateFreeze sel frozen => exact .inl (leaving_of_calls rfl h)
  | flushFrozen sel => exact .inl (leaving_of_desk (b.desk_flushFrozen sel) h)
  | unsubscribe id => exact leaving_unsubscribe h
  | ownerDied pid => exact leaving_ownerDied h
  | finish receiver code data abort => exact .inl (leaving_ask (by simp) h)
  | active receiver => exact .inl (leaving_ask (by simp) h)
  | shutdown => exact .inl (leaving_shutdown h)
  | resume call => exact .inl (leaving_resume h)
  | work w =>
    refine .inl (leaving_of_waits ?_ h)
    change ((b.work w).getD b).waits = b.waits
    cases hb : b.work w with
    | none => rfl
    | some b' =>
      cases w with
      | listener => exact waits_of_desk (desk_listenerStep hb)
      | observer i => exact waits_of_desk (desk_observerStep hb)
      | courier lane => exact waits_of_desk (desk_courierStep hb)
      | sequencer => exact waits_sequencerStep hb
  | handedOff w reception =>
    refine .inl (leaving_of_calls ?_ h)
    cases w with
    | listener => rfl
    | observer i => rfl
    | courier lane => exact calls_of_desk (b.desk_courierConclude lane reception.result)
    | sequencer => exact congrArg Desk.calls (b.desk_sequencerConclude reception.result)
  | observed i panic =>
    exact .inl (leaving_of_desk (b.desk_observerConclude i panic) h)
  | tick now => exact .inl (leaving_of_calls rfl h)
  | setOracle o => exact .inl (leaving_of_calls rfl h)

theorem registry_unsubscribe (b : Broker) (id : SubscriberId) :
    (b.act (.unsubscribe id)).registry = (Registry.unsubscribeAll [id] b.registry).2 := by
  obtain ⟨cs, -, hv⟩ := b.unsubscribe_view id
  rw [leavers_eq] at hv
  exact congrArg View.registry hv

theorem registry_ownerDied (b : Broker) (pid : Pid) :
    (b.act (.ownerDied pid)).registry = (b.registry.removeOwner pid).2 := by
  obtain ⟨cs, -, hv⟩ := b.ownerDied_view pid
  exact congrArg View.registry hv

theorem gone_of_departing (hr : b.registry.Sound) {a : Action} (h : s ∈ b.departing a) :
    (b.act a).registry.Gone s.id := by
  cases a with
  | unsubscribe id =>
    rw [departing, leavers_eq] at h
    rw [registry_unsubscribe]
    exact hr.gone_of_unsubscribeAll h
  | ownerDied pid =>
    rw [registry_ownerDied]
    exact hr.gone_of_unsubscribeAll h
  | _ => cases h

def Retired (b : Broker) : Prop := ∀ s, b.Leaving s → b.registry.Gone s.id

theorem Retired.start (config : Config) (oracle : Oracle) (bundleOf : Uid → Option String)
    (observers : List Observer) : (start config oracle bundleOf observers).Retired := by
  intro s h
  obtain ⟨call, r, hw, -⟩ := h
  cases hw

theorem gone_act (hr : b.registry.Sound) {id : SubscriberId} (h : b.registry.Gone id)
    (a : Action) : (b.act a).registry.Gone id :=
  (b.act_effect a hr).registry_changes.gone h

theorem Retired.act (h : b.Retired) (hr : b.registry.Sound) (a : Action) : (b.act a).Retired := by
  intro s hs
  cases leaving_act hs with
  | inl hs => exact gone_act hr (h s hs) a
  | inr hs => exact gone_of_departing hr hs

theorem seenOff_subset {leaving : List Subscriber} :
    b.seenOff leaving ⊆ leaving.map Subscriber.id := by
  rw [seenOff]
  split
  · exact ((List.take_sublist 1 leaving).map Subscriber.id).subset
  · exact List.Subset.refl _

theorem gone_of_cleared (h : b.Retired) (hr : b.registry.Sound) {a : Action} {id : SubscriberId}
    (hid : id ∈ b.cleared a) : (b.act a).registry.Gone id := by
  cases a with
  | unsubscribe id' =>
    obtain ⟨s, hs, rfl⟩ := List.mem_map.1 (seenOff_subset hid)
    exact gone_of_departing hr hs
  | ownerDied pid =>
    obtain ⟨s, hs, rfl⟩ := List.mem_map.1 (seenOff_subset hid)
    exact gone_of_departing hr hs
  | resume call =>
    obtain ⟨s, hs, rfl⟩ := List.mem_map.1 (seenOff_subset hid)
    exact gone_act hr (h s (leaving_of_stillLeaving hs)) (.resume call)
  | _ => cases hid

theorem losing_warranted (h : b.Retired) (hs : b.view.Sound) (hv : b.vault.Sound) {a : Action}
    (hl : l ∈ b.losing a) : b.view.Warrants (b.act a).view l := by
  have cleared : l ∈ b.view.clearLosses (b.cleared a) → b.view.Warrants (b.act a).view l :=
    View.warrants_clear fun _ hid => gone_of_cleared h hs.registry hid
  cases a with
  | work w =>
    cases w with
    | courier lane =>
      change b.view.Warrants ((b.courierStep lane).getD b).view l
      change l ∈ b.view.courierLosses lane ((b.courierStep lane).getD b).view at hl
      cases hb : b.courierStep lane with
      | none =>
        rw [hb, Option.getD_none, b.courierLosses_idle hb] at hl
        cases hl
      | some b' =>
        rw [hb] at hl
        exact (courierStep_carries hb).warrants hs.registry hl
    | sequencer =>
      change b.view.Warrants (b.sequencerStep.getD b).view l
      change l ∈ b.view.sequencerLosses (b.sequencerStep.getD b).view at hl
      cases hb : b.sequencerStep with
      | none =>
        rw [hb, Option.getD_none, b.sequencerLosses_idle hb] at hl
        cases hl
      | some b' =>
        rw [hb] at hl
        obtain ⟨evs, hm⟩ := sequencerStep_moves hb
        exact hm.warrants hs.registry hl
    | _ => exact cleared hl
  | flushFrozen sel => exact View.warrants_flush hv hl
  | _ => exact cleared hl

end Broker

end EventBroker
