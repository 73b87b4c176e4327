import EventBroker.Proofs.Conservation
import EventBroker.Proofs.Effects.Telling
import EventBroker.Proofs.Retention

namespace EventBroker

namespace View

variable {v w : View}

structure Roomy (v : View) : Prop where
  room : v.replay.room = v.config.queueRoom
  fits : v.replay.jobs.length ≤ v.replay.room
  stopped : v.replay.courier = .stopped → v.cancelled = true

namespace Roomy

theorem request {a : Option Admission} (h : v.Roomy) (hq : v.Request a w) : w.Roomy := by
  cases hq with
  | publish hn hm hq =>
    have hw := hq.frame
    refine ⟨?_, ?_, ?_⟩
    · rw [hw]
      exact h.room
    · rw [hw]
      exact h.fits
    · rw [hw]
      exact h.stopped
  | flush sel hne hr =>
    refine ⟨h.room, ?_, h.stopped⟩
    rw [DeliveryQueue.refuses] at hr
    split at hr
    · cases hr
    · rw [decide_eq_false_iff_not, Nat.not_le] at hr
      exact List.length_append ▸ hr
  | cancel => exact ⟨h.room, h.fits, fun _ => rfl⟩
  | _ => exact ⟨h.room, h.fits, h.stopped⟩

theorem carries {lane : Lane} (h : v.Roomy) (hc : v.Carries lane w) : w.Roomy := by
  cases lane with
  | fresh =>
    have hw : w.queue .replay = v.queue .replay := hc.queue_eq nofun
    replace hw : w.replay = v.replay := hw
    have hf := hc.frame
    refine ⟨?_, ?_, ?_⟩
    · rw [hw, hf]
      exact h.room
    · rw [hw]
      exact h.fits
    · rw [hw, hf]
      exact h.stopped
  | replay =>
    cases hc with
    | stop hs hcancelled => exact ⟨h.room, Nat.zero_le _, fun _ => hcancelled⟩
    | @take job rest hs hj =>
      have hlen : rest.length ≤ v.replay.jobs.length := by
        replace hj : v.replay.jobs = job :: rest := hj
        rw [hj]
        exact Nat.le_succ _
      exact ⟨h.room, Nat.le_trans hlen h.fits, nofun⟩
    | _ => exact ⟨h.room, h.fits, nofun⟩

theorem effect {a : Option Admission} {es : List ChainEvent} (h : v.Roomy)
    (he : v.Effect a es w) : w.Roomy := by
  cases he with
  | request hq => exact h.request hq
  | carry lane hc => exact h.carries hc
  | move hm =>
    rw [hm.frame]
    exact ⟨h.room, h.fits, h.stopped⟩

theorem runs {as : List Admission} {es : List ChainEvent} (h : v.Roomy) (hr : v.Runs as es w) :
    w.Roomy := by
  induction hr with
  | start => exact h
  | act _ he ih => exact ih.effect he

end Roomy

structure Retains (v w : View) : Prop where
  frame : w = { v with vault := w.vault }
  held : ∀ id, v.registry.contains id = true → w.vault.heldFor id = v.vault.heldFor id

structure Flushed (v w : View) (sel : Selector) (held : List (Held Copy)) : Prop where
  taken : v.vault.Takes sel held
  left : ∀ id, w.vault.heldFor id =
    (v.vault.heldFor id).filter fun h => !sel.selects h.subscriber.owner
  frame : w = { v with
    vault := w.vault
    replay := { v.replay with
      jobs := v.replay.jobs ++ if held.isEmpty then [] else [.replay held] } }

end View

namespace Vault

variable {α : Type} {v w x : Vault α}

def Dwindles (v w : Vault α) : Prop := ∀ id, (w.heldFor id).Sublist (v.heldFor id)

theorem Dwindles.refl (v : Vault α) : v.Dwindles v := fun _ => List.Sublist.refl _

theorem Dwindles.trans (h : v.Dwindles w) (h' : w.Dwindles x) : v.Dwindles x :=
  fun id => (h' id).trans (h id)

theorem dwindles_filter (v : Vault α) (p : SubscriberId → Shelf α → Bool) :
    v.Dwindles { v with shelves := v.shelves.filter p } := by
  intro id
  rw [heldFor, heldFor, Table.get?_filter]
  cases v.shelves.get? id with
  | none => exact List.Sublist.refl _
  | some s =>
    rw [Option.filter_some]
    split
    · exact List.Sublist.refl _
    · exact List.nil_sublist _

theorem heldFor_filter_of_kept {p : SubscriberId → Shelf α → Bool} {id : SubscriberId}
    (h : ∀ s, p id s = true) :
    { v with shelves := v.shelves.filter p }.heldFor id = v.heldFor id := by
  rw [heldFor, heldFor, Table.get?_filter]
  cases v.shelves.get? id with
  | none => rfl
  | some s => rw [Option.filter_some, if_pos (h s)]

theorem dwindles_clear (v : Vault α) (ids : List SubscriberId) : v.Dwindles (v.clear ids) := by
  induction ids generalizing v with
  | nil => exact .refl v
  | cons id rest ih =>
    refine Dwindles.trans ?_ (ih (v.purge id).2)
    intro id'
    rw [heldFor_purge]
    split
    · exact List.nil_sublist _
    · exact List.Sublist.refl _

theorem Takes.none_selected {sel : Selector} (h : v.Takes sel []) (id : SubscriberId) :
    (v.heldFor id).filter (fun x => !sel.selects x.subscriber.owner) = v.heldFor id := by
  have hnil : [] = (v.heldFor id).filter fun x => sel.selects x.subscriber.owner := h.whole id
  apply List.filter_eq_self.2
  intro x hx
  have hsel := List.filter_eq_nil_iff.1 hnil.symm x hx
  rw [Bool.not_eq_true] at hsel
  rw [hsel]
  rfl

theorem Takes.eq_nil {sel : Selector} {taken : List (Held α)} (h : v.Takes sel taken)
    (hv : ∀ id, ∀ x ∈ v.heldFor id, sel.selects x.subscriber.owner = false) : taken = [] := by
  apply List.eq_nil_iff_forall_not_mem.2
  intro x hx
  have hmem : x ∈ taken.filter fun h => h.subscriber.id = x.subscriber.id :=
    List.mem_filter.2 ⟨hx, decide_eq_true rfl⟩
  rw [h.whole] at hmem
  obtain ⟨hheld, hsel⟩ := List.mem_filter.1 hmem
  rw [hv _ x hheld] at hsel
  cases hsel

end Vault

theorem View.Request.dwindles {v w : View} {a : Option Admission} (h : v.Request a w)
    (hs : v.vault.Sound) : v.vault.Dwindles w.vault := by
  cases h with
  | @publish a w hn hm hq =>
    rw [show (w.announce _).vault = w.vault from rfl, congrArg View.vault hq.frame]
    exact .refl v.vault
  | flush sel hne hr =>
    dsimp only
    rw [Vault.flush_snd]
    exact v.vault.dwindles_filter _
  | restore sel hne hr =>
    dsimp only
    rw [hs.restore_flush]
    exact v.vault.dwindles_filter _
  | leave gone cleared hcs => exact v.vault.dwindles_clear cleared
  | _ => exact .refl v.vault

namespace Broker

variable {b b' : Broker}

def captures (b : Broker) : List Record := b.reports.filter fun r => r.kind = .eventFrozen

theorem captures_of_reports {r : Record} (hr : b'.reports = b.reports ++ [r])
    (hk : r.kind = .eventFrozen) : b'.captures = b.captures ++ [r] := by
  rw [captures, hr, List.filter_append, List.filter_singleton, decide_eq_true hk]
  rfl

theorem captures_attempt (lane : Lane) {d : Delivery} (rest : List Delivery) {e : Entry}
    (he : b.registry.entry? d.target = some e) (hf : e.frozenAt ≠ none) :
    ∃ r, (b.attempt lane d rest).captures = b.captures ++ [r] := by
  cases h : b.approach d.target d.copy none with
  | mk ready b' =>
    obtain ⟨rfl, r, hk, -, -, hr⟩ := reports_approach he hf h
    rw [attempt, h]
    exact ⟨r, captures_of_reports ((b'.quiet_setQueue lane _).reports_eq.trans hr) hk⟩

theorem captures_deliverTo (c : Chain) (i : Nat) {id : SubscriberId} {e : Entry}
    (he : b.registry.entry? id = some e) (hf : e.frozenAt ≠ none) :
    ∃ r, (b.deliverTo c i id).captures = b.captures ++ [r] := by
  cases h : b.approach id c.copy (some c.id) with
  | mk ready b' =>
    obtain ⟨rfl, r, hk, -, -, hr⟩ := reports_approach he hf h
    rw [deliverTo, h]
    exact ⟨r, captures_of_reports hr hk⟩

theorem vault_courierStep {lane : Lane} (h : b.courierStep lane = some b')
    (hc : b'.captures = b.captures) : b'.vault = b.vault := by
  have hv := courierStep_carries h
  rw [courierStep] at h
  generalize hw : b'.view = w at hv
  have hvault : b'.vault = w.vault := congrArg View.vault hw
  rw [hvault]
  cases hv with
  | @hold d rest e hq he hf =>
    rw [view_queue] at hq
    rw [hq] at h
    cases h
    obtain ⟨r, hr⟩ := captures_attempt lane rest he hf
    rw [hr] at hc
    simp at hc
  | _ => cases lane <;> rfl

theorem vault_courierConclude (b : Broker) (lane : Lane) (result : Except DeliveryError Unit) :
    (b.courierConclude lane result).vault = b.vault := by
  cases b.courierConclude_carries lane result with
  | inl hv => exact congrArg View.vault hv
  | inr hv =>
    obtain ⟨⟨n, left, hq⟩, hv⟩ := hv
    generalize hw : (b.courierConclude lane result).view = w at hv
    refine (congrArg View.vault hw).trans ?_
    cases hv with
    | hold hc he hf =>
      rw [hq] at hc
      cases hc
    | _ => cases lane <;> rfl

theorem vault_sequencerStep (h : b.sequencerStep = some b') (hc : b'.captures = b.captures) :
    b'.vault = b.vault := by
  obtain ⟨es, hv⟩ := sequencerStep_moves h
  rw [sequencerStep] at h
  generalize hw : b'.view = w at hv
  have hvault : b'.vault = w.vault := congrArg View.vault hw
  rw [hvault]
  cases hv with
  | @hold c c' i r e hs ha hwait hn he hf =>
    replace hs : b.sequencer.stage = .pumping := hs
    replace ha : b.sequencer.active = some c := ha
    replace hn : c.next b.now = (.deliver i r, c') := hn
    rw [hs] at h
    cases h
    rw [pumpStep, ha] at hc
    dsimp only at hc
    rw [hwait, Option.isSome_none, if_neg Bool.false_ne_true, hn] at hc
    obtain ⟨x, hx⟩ := captures_deliverTo c' i he hf
    rw [hx] at hc
    simp at hc
  | _ => rfl

theorem vault_sequencerConclude (b : Broker) (result : Except DeliveryError Unit) :
    (b.sequencerConclude result).vault = b.vault := by
  cases b.sequencerConclude_moves result with
  | inl hv => exact congrArg View.vault hv
  | inr hv =>
    obtain ⟨⟨-, hp⟩, es, hv⟩ := hv
    generalize hw : (b.sequencerConclude result).view = w at hv
    refine (congrArg View.vault hw).trans ?_
    cases hv with
    | hold hs ha hwait hn he hf => exact absurd hs hp
    | _ => rfl

theorem dwindles_act (hs : b.vault.Sound) {a : Action}
    (hc : (b.act a).captures = b.captures) : b.vault.Dwindles (b.act a).vault := by
  have same (h : (b.act a).vault = b.vault) : b.vault.Dwindles (b.act a).vault :=
    h ▸ .refl b.vault
  cases hw : isWork a with
  | false => exact (b.act_request hw).dwindles hs
  | true =>
    apply same
    cases a with
    | work w =>
      change ((b.work w).getD b).vault = b.vault
      change ((b.work w).getD b).captures = b.captures at hc
      cases hb : b.work w with
      | none => rfl
      | some b' =>
        rw [hb] at hc
        cases w with
        | listener => exact congrArg View.vault (listenerStep_view hb)
        | observer i => exact congrArg View.vault (observerStep_view hb)
        | courier lane => exact vault_courierStep hb hc
        | sequencer => exact vault_sequencerStep hb hc
    | handedOff w reception =>
      cases w with
      | courier lane => exact b.vault_courierConclude lane reception.result
      | sequencer => exact b.vault_sequencerConclude reception.result
      | _ => rfl
    | _ => cases hw

theorem dwindles_run {admitted : List Admission} {lost : List Loss}
    (h : b.view.Stocked admitted lost) {actions : List Action}
    (hc : (b.run actions).captures = b.captures) : b.vault.Dwindles (b.run actions).vault := by
  induction actions generalizing b admitted lost with
  | nil => exact .refl b.vault
  | cons a rest ih =>
    have hact : b.captures <+: (b.act a).captures := (b.grows_act a).reports.filter _
    have hrest : (b.act a).captures <+: (b.run (a :: rest)).captures :=
      ((b.act a).grows_run rest).reports.filter _
    have hsame : (b.act a).captures = b.captures :=
      (hact.eq_of_length_le (hc ▸ hrest).length_le).symm
    exact (dwindles_act h.vault hsame).trans (ih (stocked_act h a) (hc.trans hsame.symm))

theorem ok_of_flushFrozen {sel : Selector} {n : Nat} (h : b.flushFrozen sel = (.ok n, b')) :
    n = (b.vault.flush sel).1.length ∧
      ((b.vault.flush sel).1 = [] ∨ b.replay.refuses = false) := by
  simp only [flushFrozen] at h
  split at h
  · rename_i hnil
    cases h
    rw [List.isEmpty_iff] at hnil
    exact ⟨by rw [hnil]; rfl, .inl hnil⟩
  · split at h
    · rename_i hs
      cases h
      exact ⟨rfl, .inr (submits hs).refuses_eq⟩
    · cases h

theorem error_of_flushFrozen {sel : Selector} {e : BrokerError}
    (h : b.flushFrozen sel = (.error e, b')) : (b.vault.flush sel).1 ≠ [] ∧
      (e = .closed ∧ b.replay.courier = .stopped ∨
        e = .queueFull Lane.replay.name ∧ b.replay.room ≤ b.replay.jobs.length) := by
  simp only [flushFrozen] at h
  split at h
  · cases h
  · rename_i hne
    rw [List.isEmpty_iff] at hne
    refine ⟨hne, ?_⟩
    split at h
    · cases h
    · rename_i hs
      cases h
      cases submits hs with
      | closed hc => exact .inl ⟨rfl, hc⟩
      | full hc hr => exact .inr ⟨rfl, hr⟩

theorem refuses_of_error {sel : Selector} {e : BrokerError}
    (h : b.flushFrozen sel = (.error e, b')) : b.replay.refuses = true := by
  obtain ⟨-, ⟨-, hc⟩ | ⟨-, hfull⟩⟩ := error_of_flushFrozen h
  · rw [DeliveryQueue.refuses, hc]
  · rw [DeliveryQueue.refuses]
    split
    · rfl
    · exact decide_eq_true hfull

theorem retains_of_error (hs : b.vault.Sound) {sel : Selector} {e : BrokerError}
    (h : b.flushFrozen sel = (.error e, b')) : b.view.Retains b'.view := by
  have hv := b.flushFrozen_refused (error_of_flushFrozen h).1 (refuses_of_error h)
  rw [h, hs.restore_flush] at hv
  rw [hv]
  refine ⟨rfl, ?_⟩
  intro id hlive
  apply Vault.heldFor_filter_of_kept
  intro s
  rw [show b.registry.contains id = true from hlive, Bool.or_true]

theorem flushed_of_ok (hs : b.vault.Sound) {sel : Selector} {n : Nat}
    (h : b.flushFrozen sel = (.ok n, b')) : b.view.Flushed b'.view sel (b.vault.flush sel).1 := by
  have htakes := hs.takes_flush sel
  by_cases hnil : (b.vault.flush sel).1 = []
  · rw [flushFrozen_nothing _ hnil] at h
    cases h
    rw [hnil] at htakes ⊢
    refine ⟨htakes, fun id => (htakes.none_selected id).symm, ?_⟩
    rw [List.isEmpty_nil, if_pos rfl, List.append_nil]
  · have hr := (ok_of_flushFrozen h).2.resolve_left hnil
    have hv := b.flushFrozen_taken hnil hr
    rw [h] at hv
    rw [hv]
    refine ⟨htakes, b.vault.heldFor_flush sel, ?_⟩
    rw [if_neg (List.isEmpty_iff.not.2 hnil)]
    rfl

/-- What a flush gives, and the broker after it: all that is held for the selected owners goes to
the replay queue, and no more of it is there until more is captured; or nothing does, because the
queue is full or the broker shut down. -/
def FlushesTo (b : Broker) (sel : Selector) (b' : Broker) : Except BrokerError Nat → Prop
  | .error e => b.view.Retains b'.view ∧
      (e = .closed ∧ b.cancelled = true ∨
        e = .queueFull Lane.replay.name ∧ b.replay.jobs.length = b.config.queueRoom)
  | .ok n => ∃ held : List (Held Copy), n = held.length ∧ b.view.Flushed b'.view sel held ∧
      ∀ after, (b'.run after).captures = b'.captures →
        ((b'.run after).flushFrozen sel).1 = .ok 0

theorem flushesTo {admitted : List Admission} {lost : List Loss}
    (h : b.view.Stocked admitted lost) (hr : b.view.Roomy) (sel : Selector) :
    b.FlushesTo sel (b.flushFrozen sel).2 (b.flushFrozen sel).1 := by
  cases hf : b.flushFrozen sel with
  | mk r b' =>
    cases r with
    | error e =>
      refine ⟨retains_of_error h.vault hf, ?_⟩
      obtain ⟨-, ⟨rfl, hc⟩ | ⟨rfl, hfull⟩⟩ := error_of_flushFrozen hf
      · exact .inl ⟨rfl, hr.stopped hc⟩
      · refine .inr ⟨rfl, ?_⟩
        have hroom : b.replay.room = b.config.queueRoom := hr.room
        exact hroom ▸ Nat.le_antisymm hr.fits hfull
    | ok n =>
      have hflushed := flushed_of_ok h.vault hf
      refine ⟨_, (ok_of_flushFrozen hf).1, hflushed, ?_⟩
      intro after hc
      have hb' : b' = b.act (.flushFrozen sel) := (congrArg Prod.snd hf).symm
      have hstocked : b'.view.Stocked _ _ := hb' ▸ stocked_act h (.flushFrozen sel)
      have hless := dwindles_run hstocked hc
      have htakes := (stocked_run hstocked after).vault.takes_flush sel
      have hnil : ((b'.run after).vault.flush sel).1 = [] := by
        apply htakes.eq_nil
        intro id x hx
        have hmem : x ∈ b'.vault.heldFor id := (hless id).subset hx
        rw [show b'.vault.heldFor id = _ from hflushed.left id] at hmem
        simpa using (List.mem_filter.1 hmem).2
      rw [flushFrozen_nothing _ hnil]

theorem roomy_start (config : Config) (oracle : Oracle) (bundleOf : Uid → Option String)
    (observers : List Observer) : (start config oracle bundleOf observers).view.Roomy where
  room := rfl
  fits := Nat.zero_le _
  stopped := nofun

theorem roomy_run (hs : b.view.Sound) (hr : b.view.Roomy) (actions : List Action) :
    (b.run actions).view.Roomy :=
  hr.runs (runs_view hs actions).1

/-- A flush loses nothing, whether it is refused or not; nor does a thaw, which has only cleared the
marks of the selected subscriptions before it flushes. -/
theorem flushed_or_retained (config : Config) (oracle : Oracle) (bundleOf : Uid → Option String)
    (observers : List Observer) (before : List Action) (sel : Selector) :
    let b := (start config oracle bundleOf observers).run before
    let thawed := (b.updateFreeze sel false).2
    b.FlushesTo sel (b.flushFrozen sel).2 (b.flushFrozen sel).1 ∧
      thawed.FlushesTo sel (b.thaw sel).2 (b.thaw sel).1 ∧
      thawed.view = { b.view with registry := thawed.registry } ∧
      ∀ id, thawed.registry.entry? id = (b.registry.entry? id).map fun e =>
        if sel.selects e.subscriber.owner then { e with frozenAt := none } else e := by
  intro b thawed
  have hstart := view_start_stocked config oracle bundleOf observers
  have hroomy := roomy_start config oracle bundleOf observers
  have hb : b.view.Stocked _ _ := stocked_run hstart before
  have hr : b.view.Roomy := roomy_run hstart.sound hroomy before
  have hview : thawed.view =
      { b.view with registry := (b.registry.updateFreeze sel false b.now).2 } :=
    b.updateFreeze_view sel false
  have hregistry : thawed.registry = (b.registry.updateFreeze sel false b.now).2 :=
    congrArg View.registry hview
  refine ⟨flushesTo hb hr sel, ?_, hregistry ▸ hview, ?_⟩
  · exact flushesTo (stocked_act hb (.updateFreeze sel false))
      (roomy_run hb.sound hr [.updateFreeze sel false]) sel
  · intro id
    rw [hregistry, Registry.entry_updateFreeze]
    rfl

end Broker

end EventBroker
