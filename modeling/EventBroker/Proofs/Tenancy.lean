import EventBroker.Proofs.Flushing
import EventBroker.Proofs.Releasing

namespace EventBroker

def Counter.Clears (c : Counter) (k : Nat) (id : SubscriberId) : Prop :=
  ∃ ret answer, c.calls.get? k = some ⟨.retire ret, answer⟩ ∧ id ∈ ret.rest.map Subscriber.id

namespace Registry

variable {r : Registry}

theorem Sound.entry_of_leaver (h : r.Sound) {ids : List SubscriberId} {s : Subscriber}
    (hs : s ∈ (Registry.unsubscribeAll ids r).1) : ∃ e, r.entry? s.id = some e := by
  induction ids generalizing r with
  | nil => simp [Registry.unsubscribeAll] at hs
  | cons id rest ih =>
    have hone := h.unsubscribeAll [id]
    simp only [Registry.unsubscribeAll] at hs hone
    cases hu : r.unsubscribe id with
    | none =>
      rw [hu] at hs
      exact ih h hs
    | some x =>
      obtain ⟨e, he, hx⟩ := Option.map_eq_some_iff.1 hu
      rw [hu] at hs hone
      cases List.mem_cons.1 hs with
      | inl hs =>
        subst hs hx
        exact ⟨e, (h.keyed he).symm ▸ he⟩
      | inr hs =>
        obtain ⟨e', he'⟩ := ih hone hs
        have hkept : Registry.entry? (Registry.unsubscribeAll [id] r).2 s.id = some e' := by
          simpa only [Registry.unsubscribeAll, hu] using he'
        exact ⟨e', entry_of_unsubscribeAll hkept⟩

end Registry

namespace View

variable {v w : View} {id : SubscriberId}

theorem Carries.held {lane : Lane} (h : v.Carries lane w) (hr : v.registry.Sound)
    (hw : w.vault.heldFor id ≠ []) :
    v.vault.heldFor id ≠ [] ∨ ∃ e, v.registry.entry? id = some e := by
  cases h with
  | @hold d rest e hc he hf =>
    by_cases hid : e.subscriber.id = id
    · exact .inr ⟨e, hid ▸ (hr.keyed he).symm ▸ he⟩
    · refine .inl ?_
      rw [← Vault.heldFor_capture_of_ne hid d.copy v.now]
      cases lane <;> exact hw
  | _ => cases lane <;> exact .inl hw

theorem Moves.held {es : List ChainEvent} (h : v.Moves es w) (hr : v.registry.Sound)
    (hw : w.vault.heldFor id ≠ []) :
    v.vault.heldFor id ≠ [] ∨ ∃ e, v.registry.entry? id = some e := by
  cases h with
  | @hold c c' i r e hs ha hwait hn he hf =>
    by_cases hid : e.subscriber.id = id
    · exact .inr ⟨e, hid ▸ (hr.keyed he).symm ▸ he⟩
    · exact .inl (Vault.heldFor_capture_of_ne hid c.copy v.now ▸ hw)
  | _ => exact .inl hw

theorem Effect.held {a : Option Admission} {es : List ChainEvent} (h : v.Effect a es w)
    (hr : v.registry.Sound) (hv : v.vault.Sound) (hw : w.vault.heldFor id ≠ []) :
    v.vault.heldFor id ≠ [] ∨ ∃ e, v.registry.entry? id = some e := by
  cases h with
  | request h => exact .inl fun hnil => hw (List.sublist_nil.1 (hnil ▸ h.dwindles hv id))
  | carry lane h => exact h.held hr hw
  | move h => exact h.held hr hw

end View

theorem Vault.heldFor_clear {α : Type} (v : Vault α) (ids : List SubscriberId)
    (id : SubscriberId) : (v.clear ids).heldFor id = if id ∈ ids then [] else v.heldFor id := by
  induction ids generalizing v with
  | nil => simp [clear]
  | cons id' rest ih =>
    refine (ih (v.purge id').2).trans ?_
    rw [heldFor_purge]
    by_cases h : id' = id
    · simp [h]
    · simp [h, Ne.symm h]

theorem Vault.length_heldFor {α : Type} (v : Vault α) (id : SubscriberId) :
    (v.heldFor id).length = v.pendingFor id := by
  rw [heldFor, pendingFor]
  cases v.shelves.get? id with
  | none => rfl
  | some s => simp [Shelf.held]

namespace Broker

variable {b : Broker} {a : Action} {id : SubscriberId}

theorem cleared_of_departing (h : b.departing a ≠ []) :
    b.cleared a = b.seenOff (b.departing a) := by
  cases a <;> first | rfl | exact absurd rfl h

theorem mem_seenOff_of_closed (ht : b.takesCommands = false) (leaving : List Subscriber) :
    b.seenOff leaving = leaving.map Subscriber.id := by
  simp [seenOff, ht]

theorem seenOff_cons (ht : b.takesCommands = true) (s : Subscriber) (rest : List Subscriber) :
    b.seenOff (s :: rest) = [s.id] := by
  simp [seenOff, ht]

theorem heldFor_cleared (h : id ∈ b.cleared a) : (b.act a).vault.heldFor id = [] := by
  have clears {ids : List SubscriberId} (hids : id ∈ ids)
      (hv : (b.act a).vault = b.vault.clear ids) : (b.act a).vault.heldFor id = [] := by
    rw [hv, Vault.heldFor_clear, if_pos hids]
  cases a with
  | unsubscribe id' =>
    obtain ⟨cs, -, hv⟩ := b.unsubscribe_view id'
    exact clears h (congrArg View.vault hv)
  | ownerDied pid =>
    obtain ⟨cs, -, hv⟩ := b.ownerDied_view pid
    exact clears h (congrArg View.vault hv)
  | resume call =>
    obtain ⟨cs, -, hv⟩ := b.resume_view call
    exact clears h (congrArg View.vault hv)
  | _ => simp [cleared] at h

namespace Attends

variable {c : Counter} {k : Nat}

theorem clears (h : b.Attends a c) (hb : b.counter.Sound) (hk : b.counter.Clears k id) :
    c.Clears k id ∨ id ∈ b.cleared a := by
  obtain ⟨ret, answer, hget, hid⟩ := hk
  have hget' : b.calls.get? k = some ⟨.retire ret, answer⟩ := hget
  have kept : c.calls.get? k = some ⟨.retire ret, answer⟩ → c.Clears k id ∨ id ∈ b.cleared a :=
    fun h => .inl ⟨ret, answer, h, hid⟩
  have old : b.callsBegun + 1 ≠ k := hb.next_ne hget
  cases h with
  | same hd => exact kept hget
  | send hd hq => exact kept hget
  | ask ht hw hq => exact kept (by rwa [Table.get?_insert, if_neg old])
  | pass hd => exact kept (by rwa [Table.get?_erase, if_neg old])
  | wait ws hd => exact kept (by rwa [Table.get?_insert, if_neg old])
  | @conclude k' call ha hcall hc hl =>
    by_cases he : k' = k
    · subst he ha
      cases hcall.symm.trans hget'
      obtain hl | ht := hl
      · simp [show ret.rest = [] from hl] at hid
      · obtain ⟨x, rfl⟩ : ∃ x, answer = some x := by
          refine Option.ne_none_iff_exists'.1 ?_
          obtain hc | ⟨ws, hc⟩ := hc
          · exact hc
          · cases hc
        refine .inr ?_
        rw [cleared, stillLeaving, hcall, mem_seenOff_of_closed ht]
        exact hid
    · exact kept (by rwa [Table.get?_erase, if_neg he])
  | @proceed k' ret₀ ret' x ha ht hcall hl =>
    by_cases he : k' = k
    · subst he ha
      cases hcall.symm.trans hget'
      rw [hl, List.map_cons, List.mem_cons] at hid
      obtain hid | hid := hid
      · refine .inr ?_
        rw [cleared, stillLeaving, hcall]
        dsimp only
        rw [hl, seenOff_cons ht, hid]
        exact List.mem_singleton_self _
      · exact .inl ⟨ret', none, by rw [Table.get?_insert, if_pos rfl], hid⟩
    · exact kept (by rwa [Table.get?_insert, if_neg he])
  | @take q rest ha hq =>
    by_cases he : q.caller? = some k
    · refine .inl ⟨ret, some (b.reply q), ?_, hid⟩
      rw [Desk.get?_answer, if_pos he, show b.desk.calls.get? k = _ from hget']
      rfl
    · exact kept (by rwa [Desk.get?_answer, if_neg he])
  | stop | breakDown =>
    by_cases he : k ∈ b.sequencer.commands.filterMap Command.caller?
    · refine .inl ⟨ret, some .lost, ?_, hid⟩
      rw [Desk.get?_forget, if_pos he, show b.desk.calls.get? k = _ from hget']
      rfl
    · exact kept (by rwa [Desk.get?_forget, if_neg he])

theorem clears_of_departing (h : b.Attends a c)
    (hid : id ∈ (b.departing a).map Subscriber.id) :
    c.Clears (b.callsBegun + 1) id ∨ id ∈ b.cleared a := by
  have leaves : b.departing a ≠ [] := by
    intro hd
    simp [hd] at hid
  have hcleared := cleared_of_departing leaves
  cases h with
  | @ask w q ht hw hq =>
    rw [← hw] at hid hcleared
    cases hq with
    | retire ret =>
      rw [hcleared]
      simp only [Waiting.leaving, seenOff_cons ht, List.map_cons, List.mem_cons] at hid ⊢
      obtain hid | hid := hid
      · exact .inr (.inl hid)
      · exact .inl ⟨ret, none, by rw [Table.get?_insert, if_pos rfl], hid⟩
    | _ => simp [Waiting.leaving] at hid
  | pass hd =>
    obtain hd | ht := hd
    · exact absurd hd leaves
    · exact .inr (by rwa [hcleared, mem_seenOff_of_closed ht])
  | same hd => exact absurd hd leaves
  | send hd hq => exact absurd hd leaves
  | wait ws hd => exact absurd hd leaves
  | conclude ha => exact absurd (congrArg b.departing ha) leaves
  | proceed ha => exact absurd (congrArg b.departing ha) leaves
  | take ha => exact absurd (congrArg b.departing ha) leaves
  | stop ha | breakDown ha => exact absurd (congrArg b.departing ha) leaves

theorem source (h : b.Attends a c) (hk : c.Clears k id) : b.counter.Clears k id ∨
    k = b.callsBegun + 1 ∧ id ∈ (b.departing a).map Subscriber.id := by
  obtain ⟨ret, answer, hget, hid⟩ := hk
  have kept : b.calls.get? k = some ⟨.retire ret, answer⟩ → b.counter.Clears k id ∨
      k = b.callsBegun + 1 ∧ id ∈ (b.departing a).map Subscriber.id :=
    fun h => .inl ⟨ret, answer, h, hid⟩
  have answered {x : Answer} (h : (b.calls.get? k).map (fun c => { c with answer := some x }) =
      some ⟨.retire ret, answer⟩) : b.counter.Clears k id := by
    obtain ⟨⟨w, x'⟩, hcall, he⟩ := Option.map_eq_some_iff.1 h
    cases he
    exact ⟨ret, _, hcall, hid⟩
  cases h with
  | same hd => exact kept hget
  | send hd hq => exact kept hget
  | @ask w q ht hw hq =>
    rw [Table.get?_insert] at hget
    split at hget
    · rename_i he
      cases hget
      refine .inr ⟨he.symm, ?_⟩
      rw [← hw]
      exact List.mem_cons_of_mem _ hid
    · exact kept hget
  | pass hd =>
    rw [Table.get?_erase] at hget
    split at hget
    · cases hget
    · exact kept hget
  | wait ws hd =>
    rw [Table.get?_insert] at hget
    split at hget
    · cases hget
    · exact kept hget
  | conclude ha hcall hc hl =>
    rw [Table.get?_erase] at hget
    split at hget
    · cases hget
    · exact kept hget
  | @proceed k' ret₀ ret' x ha ht hcall hl =>
    rw [Table.get?_insert] at hget
    split at hget
    · rename_i he
      subst he
      cases hget
      refine .inl ⟨ret₀, some x, hcall, ?_⟩
      rw [hl]
      exact List.mem_cons_of_mem _ hid
    · exact kept hget
  | take ha hq =>
    rw [Desk.get?_answer] at hget
    split at hget
    · exact .inl (answered hget)
    · exact kept hget
  | stop | breakDown =>
    rw [Desk.get?_forget] at hget
    split at hget
    · exact .inl (answered hget)
    · exact kept hget

theorem stays_over (h : b.Attends a c) (hk : k ≤ b.callsBegun) (hn : b.calls.get? k = none) :
    k ≤ c.begun ∧ c.calls.get? k = none := by
  have old : b.callsBegun + 1 ≠ k := by omega
  cases h with
  | same hd => exact ⟨hk, hn⟩
  | send hd hq => exact ⟨hk, hn⟩
  | ask ht hw hq => exact ⟨Nat.le_succ_of_le hk, by rwa [Table.get?_insert, if_neg old]⟩
  | pass hd => exact ⟨Nat.le_succ_of_le hk, by rwa [Table.get?_erase, if_neg old]⟩
  | wait ws hd => exact ⟨Nat.le_succ_of_le hk, by rwa [Table.get?_insert, if_neg old]⟩
  | conclude ha hcall hc hl =>
    refine ⟨hk, ?_⟩
    rw [Table.get?_erase]
    split
    · rfl
    · exact hn
  | @proceed k' ret₀ ret' x ha ht hcall hl =>
    have hne : k' ≠ k := by
      rintro rfl
      cases hcall.symm.trans hn
    exact ⟨hk, by rwa [Table.get?_insert, if_neg hne]⟩
  | take ha hq => exact ⟨hk, by simp [Desk.get?_answer, show b.desk.calls.get? k = none from hn]⟩
  | stop | breakDown =>
    exact ⟨hk, by simp [Desk.get?_forget, show b.desk.calls.get? k = none from hn]⟩

theorem begun_le (h : b.Attends a c) : b.callsBegun ≤ c.begun := by
  cases h <;> simp [counter]

end Attends

structure Tenanted (b : Broker) : Prop where
  sound : b.view.Sound
  vault : b.vault.Sound
  counter : b.counter.Sound
  retired : b.Retired
  held : ∀ id, b.vault.heldFor id ≠ [] →
    (∃ e, b.registry.entry? id = some e) ∨ ∃ k, b.counter.Clears k id

theorem tenanted_start (config : Config) (oracle : Oracle) (bundleOf : Uid → Option String)
    (observers : List Observer) : (start config oracle bundleOf observers).Tenanted where
  sound := view_start_sound config oracle bundleOf observers
  vault := .ofRetention config.freezeRetention
  counter := counter_start config oracle bundleOf observers
  retired := .start config oracle bundleOf observers
  held := fun _ h => absurd rfl h

theorem leaving_of_clears {k : Nat} (h : b.counter.Clears k id) :
    ∃ s, b.Leaving s ∧ s.id = id := by
  obtain ⟨ret, answer, hget, hid⟩ := h
  obtain ⟨s, hs, rfl⟩ := List.mem_map.1 hid
  exact ⟨s, ⟨k, ret, by rw [waits, show b.calls.get? k = _ from hget]; rfl, hs⟩, rfl⟩

namespace Tenanted

theorem act (h : b.Tenanted) (a : Action) : (b.act a).Tenanted := by
  have he := b.act_effect a h.sound.registry
  refine ⟨h.sound.effect he, he.vault_sound h.vault, counter_act h.counter a,
    h.retired.act h.sound.registry a, fun id hid => ?_⟩
  have attended := b.attends_act a
  have uncleared : id ∉ b.cleared a := fun hc => hid (heldFor_cleared hc)
  -- Whoever could have something held is live before, or some call has its shelf to clear.
  have tenant : (∃ e, b.registry.entry? id = some e) ∨ ∃ k, b.counter.Clears k id := by
    cases he.held h.sound.registry h.vault hid with
    | inl hb => exact h.held id hb
    | inr hlive => exact .inl hlive
  obtain ⟨e, hlive⟩ | ⟨k, hk⟩ := tenant
  · cases hn : (b.act a).registry.entry? id with
    | some e' => exact .inl ⟨e', rfl⟩
    | none =>
      have hd := departing_of_lost h.sound.registry hlive hn
      exact .inr ⟨_, (attended.clears_of_departing hd).resolve_right uncleared⟩
  · exact .inr ⟨k, (attended.clears h.counter hk).resolve_right uncleared⟩

theorem run (h : b.Tenanted) (actions : List Action) : (b.run actions).Tenanted := by
  induction actions generalizing b with
  | nil => exact h
  | cons a rest ih => exact ih (h.act a)

end Tenanted

structure LeftBy (b : Broker) (k : Nat) (id : SubscriberId) : Prop where
  gone : b.registry.Gone id
  begun : k ≤ b.callsBegun
  only : ∀ k', b.counter.Clears k' id → k' = k

namespace LeftBy

variable {k : Nat}

theorem of_lost (h : b.Tenanted) {e : Entry} (he : b.registry.entry? id = some e)
    (hn : (b.act a).registry.entry? id = none) : (b.act a).LeftBy (b.callsBegun + 1) id := by
  have hd := departing_of_lost h.sound.registry he hn
  have attended := b.attends_act a
  refine ⟨?_, ?_, fun k' hk' => ?_⟩
  · obtain ⟨s, hs, rfl⟩ := List.mem_map.1 hd
    exact gone_of_departing h.sound.registry hs
  · change b.callsBegun + 1 ≤ (b.act a).counter.begun
    have leaves : b.departing a ≠ [] := by
      intro hd'
      simp [hd'] at hd
    generalize (b.act a).counter = c at attended
    cases attended with
    | ask ht hw hq => exact Nat.le_refl _
    | pass hd' => exact Nat.le_refl _
    | wait ws hd' => exact Nat.le_refl _
    | same hd' => exact absurd hd' leaves
    | send hd' hq => exact absurd hd' leaves
    | conclude ha => exact absurd (congrArg b.departing ha) leaves
    | proceed ha => exact absurd (congrArg b.departing ha) leaves
    | take ha => exact absurd (congrArg b.departing ha) leaves
    | stop ha | breakDown ha => exact absurd (congrArg b.departing ha) leaves
  · cases attended.source hk' with
    | inl hold =>
      obtain ⟨s, hs, rfl⟩ := leaving_of_clears hold
      cases (h.retired s hs).absent.symm.trans he
    | inr hnew => exact hnew.1

theorem act (h : b.LeftBy k id) (ht : b.Tenanted) (a : Action) : (b.act a).LeftBy k id := by
  refine ⟨gone_act ht.sound.registry h.gone a, Nat.le_trans h.begun (b.attends_act a).begun_le,
    fun k' hk' => ?_⟩
  cases (b.attends_act a).source hk' with
  | inl hold => exact h.only k' hold
  | inr hnew =>
    obtain ⟨s, hs, hid⟩ := List.mem_map.1 hnew.2
    obtain ⟨e, he⟩ : ∃ e, b.registry.entry? s.id = some e := by
      cases a with
      | unsubscribe id' =>
        rw [departing, leavers_eq] at hs
        exact ht.sound.registry.entry_of_leaver hs
      | ownerDied pid => exact ht.sound.registry.entry_of_leaver hs
      | _ => cases hs
    rw [hid, h.gone.absent] at he
    cases he

theorem run (h : b.LeftBy k id) (ht : b.Tenanted) (actions : List Action) :
    (b.run actions).LeftBy k id := by
  induction actions generalizing b with
  | nil => exact h
  | cons a rest ih => exact ih (h.act ht a) (ht.act a)

theorem over_run (h : b.LeftBy k id) (ht : b.Tenanted) (hk : b.calls.get? k = none)
    (actions : List Action) : (b.run actions).calls.get? k = none := by
  induction actions generalizing b with
  | nil => exact hk
  | cons a rest ih =>
    exact ih (h.act ht a) (ht.act a) ((b.attends_act a).stays_over h.begun hk).2

theorem heldFor_eq_nil (h : b.LeftBy k id) (ht : b.Tenanted) (hk : b.calls.get? k = none) :
    b.vault.heldFor id = [] := by
  by_contra hne
  obtain ⟨e, he⟩ | ⟨k', hk'⟩ := ht.held id hne
  · cases h.gone.absent.symm.trans he
  · obtain rfl := h.only k' hk'
    obtain ⟨ret, answer, hget, -⟩ := hk'
    cases hk.symm.trans hget

end LeftBy

/-- Events are held for nobody who is gone, but for those that a call in progress has still to see
off. Once the call by which a subscription left is over, nothing is pending for it any more, and no
flush takes or counts anything that was held for it. -/
theorem held_for_tenants (config : Config) (oracle : Oracle) (bundleOf : Uid → Option String)
    (observers : List Observer) (before : List Action) :
    let b := (start config oracle bundleOf observers).run before
    (∀ id, 0 < b.frozenPending id → (∃ e, b.registry.entry? id = some e) ∨
      ∃ call ret answer, b.calls.get? call = some ⟨.retire ret, answer⟩ ∧
        id ∈ ret.rest.map Subscriber.id) ∧
    ∀ a id e, b.registry.entry? id = some e → (b.act a).registry.entry? id = none →
      ∀ mid, ((b.act a).run mid).calls.get? (b.callsBegun + 1) = none →
        ∀ after, let w := ((b.act a).run mid).run after
          w.frozenPending id = 0 ∧
          ∀ sel, (∀ h ∈ (w.vault.flush sel).1, h.subscriber.id ≠ id) ∧
            ∀ n, (w.flushFrozen sel).1 = .ok n → n = (w.vault.flush sel).1.length := by
  intro b
  have ht : b.Tenanted := (tenanted_start config oracle bundleOf observers).run before
  constructor
  · intro id hid
    apply ht.held
    rwa [frozenPending, ← Vault.length_heldFor, List.length_pos_iff] at hid
  · intro a id e he hn mid hover after w
    have hact := ht.act a
    have hleft := LeftBy.of_lost ht he hn
    have hmid := hact.run mid
    have hleft' := hleft.run hact mid
    have hw : w.Tenanted := hmid.run after
    have hnil : w.vault.heldFor id = [] :=
      (hleft'.run hmid after).heldFor_eq_nil hw (hleft'.over_run hmid hover after)
    refine ⟨?_, fun sel => ⟨fun h hh hid => ?_, fun n hok => ?_⟩⟩
    · rw [frozenPending, ← Vault.length_heldFor, hnil]
      rfl
    · have hmem : h ∈ (w.vault.flush sel).1.filter fun h => h.subscriber.id = id :=
        List.mem_filter.2 ⟨hh, decide_eq_true hid⟩
      rw [(hw.vault.takes_flush sel).whole, hnil] at hmem
      cases hmem
    · have hflushed : w.flushFrozen sel = (.ok n, (w.flushFrozen sel).2) := Prod.ext hok rfl
      exact (ok_of_flushFrozen hflushed).1

/-- As its process dies, what is held for its second subscription stays until the first is seen off;
then it is gone for good. -/
theorem held_for_tenants_dying :
    let other := .subscribe { interest := { events := .ofList ["gate"] }, owner := default }
    let calling := .publish { event := .named "door", publisher := default, options := {} }
    let before := [other, joining, .updateFreeze .all true, calling] ++
      List.replicate 3 (.work (.courier .fresh))
    let b := (start {} .allowAll (fun _ => none) []).run before
    let dying := (start {} .allowAll (fun _ => none) []).run (before ++ [.ownerDied 0])
    let seeing := [.work .sequencer, .resume 1, .work .sequencer, .resume 1]
    0 < dying.frozenPending ⟨2⟩ ∧ dying.registry.entry? ⟨2⟩ = none ∧
      (∃ call ret answer, dying.calls.get? call = some ⟨.retire ret, answer⟩ ∧
        ⟨2⟩ ∈ ret.rest.map Subscriber.id) ∧
      (((b.act (.ownerDied 0)).run seeing).run [ringing]).frozenPending ⟨2⟩ = 0 := by
  intro other calling before b dying seeing
  have hheld : 0 < dying.frozenPending ⟨2⟩ := by decide +kernel
  have hgone : dying.registry.entry? ⟨2⟩ = none := Option.isNone_iff_eq_none.1 (by decide +kernel)
  have hlive : (b.registry.entry? ⟨2⟩).isSome := by decide +kernel
  have hlost : (b.act (.ownerDied 0)).registry.entry? ⟨2⟩ = none :=
    Option.isNone_iff_eq_none.1 (by decide +kernel)
  have hover : ((b.act (.ownerDied 0)).run seeing).calls.get? (b.callsBegun + 1) = none :=
    Option.isNone_iff_eq_none.1 (by decide +kernel)
  obtain ⟨e, he⟩ := Option.isSome_iff_exists.1 hlive
  have tenants := (held_for_tenants {} .allowAll (fun _ => none) [] (before ++ [.ownerDied 0])).1
  have cleared := (held_for_tenants {} .allowAll (fun _ => none) [] before).2
  refine ⟨hheld, hgone, ?_, (cleared (.ownerDied 0) ⟨2⟩ e he hlost seeing hover [ringing]).1⟩
  obtain ⟨e', he'⟩ | hcall := tenants ⟨2⟩ hheld
  · cases hgone.symm.trans he'
  · exact hcall

end Broker

end EventBroker
