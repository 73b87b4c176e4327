import EventBroker.Proofs.Warrants

namespace EventBroker

structure StickyStore.Sound (s : StickyStore) (n : Nat) : Prop where
  known : ∀ {name p}, s.get? name = some p → 0 < p.serial ∧ p.serial ≤ n
  distinct : ∀ {name name' p q}, s.get? name = some p → s.get? name' = some q →
    p.serial = q.serial → name = name'

namespace StickyStore

variable {s : StickyStore} {n : Nat}

theorem get?_put (s : StickyStore) (p : Publication) (name : String) :
    (s.put p).get? name = if p.event.name = name then some p else s.get? name :=
  Table.get?_insert ..

theorem Sound.empty : ({} : StickyStore).Sound 0 where
  known := nofun
  distinct := nofun

theorem Sound.succ (h : s.Sound n) : s.Sound (n + 1) where
  known hp := (h.known hp).imp_right Nat.le_succ_of_le
  distinct := h.distinct

theorem Sound.put (h : s.Sound n) {p : Publication} (hp : p.serial = n + 1) :
    (s.put p).Sound (n + 1) where
  known := by
    intro name q hq
    rw [get?_put] at hq
    split at hq
    · cases hq
      exact ⟨hp ▸ Nat.succ_pos n, Nat.le_of_eq hp⟩
    · exact (h.known hq).imp_right Nat.le_succ_of_le
  distinct := by
    intro name name' q q' hq hq' hn
    rw [get?_put] at hq hq'
    by_cases he : p.event.name = name
    · by_cases he' : p.event.name = name'
      · rw [← he, ← he']
      · rw [if_pos he] at hq
        rw [if_neg he'] at hq'
        cases hq
        have hle := (h.known hq').2
        omega
    · by_cases he' : p.event.name = name'
      · rw [if_neg he] at hq
        rw [if_pos he'] at hq'
        cases hq'
        have hle := (h.known hq).2
        omega
      · rw [if_neg he] at hq
        rw [if_neg he'] at hq'
        exact h.distinct hq hq' hn

theorem Sound.serials_nodup (h : s.Sound n) {names : List String} (hn : names.Nodup) :
    ((names.filterMap s.get?).map Publication.serial).Nodup := by
  apply List.pairwise_map.2
  apply List.pairwise_filterMap.2
  apply hn.imp
  intro name name' hne p hp q hq hs
  exact hne (h.distinct hp hq hs)

end StickyStore

namespace View

variable {v w : View}

section VaultSound

theorem Request.vault_sound {a : Option Admission} (h : v.Request a w) (hv : v.vault.Sound) :
    w.vault.Sound := by
  cases h with
  | @publish a w hn hm hq =>
    have hw : w.vault = v.vault := by rw [hq.frame]
    change w.vault.Sound
    rw [hw]
    exact hv
  | flush sel hne hr => exact hv.flush sel
  | restore sel hne hr => exact hv.restore sel v.registry.contains
  | leave gone cleared hcs => exact hv.clear cleared
  | _ => exact hv

theorem Carries.vault_sound {lane : Lane} (h : v.Carries lane w) (hv : v.vault.Sound) :
    w.vault.Sound := by
  cases h with
  | @hold d rest e hc he hf =>
    have hw := hv.capture e.subscriber d.copy v.now
    cases lane <;> exact hw
  | _ => cases lane <;> exact hv

theorem Moves.vault_sound {es : List ChainEvent} (h : v.Moves es w) (hv : v.vault.Sound) :
    w.vault.Sound := by
  cases h with
  | hold hs ha hw hn he hf => exact hv.capture _ _ _
  | _ => exact hv

theorem Effect.vault_sound {a : Option Admission} {es : List ChainEvent} (h : v.Effect a es w)
    (hv : v.vault.Sound) : w.vault.Sound := by
  cases h with
  | request h => exact h.vault_sound hv
  | carry lane h => exact h.vault_sound hv
  | move h => exact h.vault_sound hv

end VaultSound

theorem Gains.fresh {a : Option Admission} {new : List Parcel} (h : v.Gains a new w)
    (hr : v.registry.Sound) (hs : v.sticky.Sound v.publications) :
    new.Nodup ∧ ∀ x ∈ new, v.publications < x.1 ∨ v.registry.issued < x.2.val := by
  cases h with
  | nothing hp hi hs => exact ⟨List.nodup_nil, nofun⟩
  | @publish a w hn hm hp hi hs =>
    constructor
    · have hids := Registry.matched_nodup v.oracle a.publication hr
      rw [← hm] at hids
      apply List.pairwise_map.2
      apply (List.pairwise_map.1 hids).imp
      intro s t hne he
      exact hne (congrArg Prod.snd he)
    · intro x hx
      obtain ⟨s, -, rfl⟩ := List.mem_map.1 hx
      exact .inl (by simp [hn])
  | @subscribe names ps w hn hps hp hi hs' =>
    constructor
    · have hserials := (hs.serials_nodup hn).sublist (hps.map Publication.serial)
      apply List.pairwise_map.2
      apply (List.pairwise_map.1 hserials).imp
      intro p q hne he
      exact hne (congrArg Prod.fst he)
    · intro x hx
      obtain ⟨p, -, rfl⟩ := List.mem_map.1 hx
      exact .inr (Nat.lt_succ_self _)

theorem Gains.publications_le {a : Option Admission} {new : List Parcel} (h : v.Gains a new w) :
    v.publications ≤ w.publications ∧ v.registry.issued ≤ w.registry.issued := by
  cases h <;> omega

theorem Gains.known {a : Option Admission} {new : List Parcel} (h : v.Gains a new w)
    (hr : v.registry.Sound) (hs : v.sticky.Sound v.publications) {x : Parcel} (hx : x ∈ new) :
    (0 < x.1 ∧ x.1 ≤ w.publications) ∧ x.2.val ≤ w.registry.issued := by
  cases h with
  | nothing hp hi hs => cases hx
  | @publish a w hn hm hp hi hs =>
    obtain ⟨s, hmem, rfl⟩ := List.mem_map.1 hx
    rw [hm] at hmem
    obtain ⟨e, he, -⟩ := Registry.entry_of_matched v.oracle a.publication hr hmem
    have hle := hr.known he
    exact ⟨⟨hn ▸ Nat.succ_pos _, Nat.le_of_eq (hn.trans hp.symm)⟩, hi ▸ hle⟩
  | @subscribe names ps w hn hps hp hi hs' =>
    obtain ⟨p, hmem, rfl⟩ := List.mem_map.1 hx
    obtain ⟨name, -, hget⟩ := List.mem_filterMap.1 (hps.subset hmem)
    exact ⟨hp ▸ hs.known hget, Nat.le_of_eq hi.symm⟩

theorem Gains.sticky_sound {a : Option Admission} {new : List Parcel} (h : v.Gains a new w)
    (hs : v.sticky.Sound v.publications) : w.sticky.Sound w.publications := by
  cases h with
  | nothing hp hi hw =>
    rw [hw, hp]
    exact hs
  | publish hn hm hp hi hw =>
    rw [hw, hp]
    split
    · exact hs.put hn
    · exact hs.succ
  | subscribe hn hps hp hi hw =>
    rw [hw, hp]
    exact hs

structure Stocked (v : View) (admitted : List Admission) (lost : List Loss) : Prop where
  sound : v.Sound
  vault : v.vault.Sound
  sticky : v.sticky.Sound v.publications
  numbered : admitted.map (·.publication.serial) = List.range' 1 v.publications
  known : ∀ x ∈ v.parcels ++ Loss.parcels lost,
    (0 < x.1 ∧ x.1 ≤ v.publications) ∧ x.2.val ≤ v.registry.issued
  distinct : (v.parcels ++ Loss.parcels lost).Nodup
  covered : ∀ a ∈ admitted, a.parcels ⊆ v.parcels ++ Loss.parcels lost

theorem Settles.perm {new : List Parcel} {lost : List Loss} (h : v.Settles new lost w)
    (past : List Loss) :
    (w.parcels ++ Loss.parcels (past ++ lost)).Perm (v.parcels ++ Loss.parcels past ++ new) := by
  apply List.perm_iff_count.2
  intro x
  have hx := h x
  rw [Loss.parcels, List.map_append, ← Loss.parcels, ← Loss.parcels]
  simp only [List.count_append]
  omega

theorem Stocked.turnover {admitted : List Admission} {past lost : List Loss}
    {a : Option Admission} (h : v.Stocked admitted past) (hw : w.Sound) (hvault : w.vault.Sound)
    (ht : v.Turnover a lost w) : w.Stocked (admitted ++ a.toList) (past ++ lost) := by
  obtain ⟨new, hg, hset⟩ := ht.balance
  have hperm := hset.perm past
  obtain ⟨hnew, hfresh⟩ := hg.fresh h.sound.registry h.sticky
  obtain ⟨hp, hi⟩ := hg.publications_le
  refine ⟨hw, hvault, hg.sticky_sound h.sticky, ?_, ?_, ?_, ?_⟩
  · rw [List.map_append, h.numbered]
    cases hg with
    | nothing hp hi hs => rw [hp, Option.toList_none, List.map_nil, List.append_nil]
    | publish hn hm hp hi hs =>
      rw [hp, List.range'_1_concat, Option.toList_some, List.map_singleton, hn, Nat.add_comm]
    | subscribe hn hps hp hi hs => rw [hp, Option.toList_none, List.map_nil, List.append_nil]
  · intro x hx
    cases List.mem_append.1 (hperm.mem_iff.1 hx) with
    | inl hx =>
      have hle := h.known x hx
      omega
    | inr hx => exact hg.known h.sound.registry h.sticky hx
  · apply hperm.nodup_iff.2
    apply List.nodup_append.2
    refine ⟨h.distinct, hnew, ?_⟩
    intro x hx y hy he
    subst he
    have hle := h.known x hx
    have hlt := hfresh x hy
    omega
  · intro b hb x hx
    apply hperm.mem_iff.2
    apply List.mem_append.2
    cases List.mem_append.1 hb with
    | inl hb => exact .inl (h.covered b hb hx)
    | inr hb =>
      cases hg with
      | publish hn hm hp hi hs =>
        cases List.mem_singleton.1 hb
        exact .inr hx
      | _ => cases hb

end View

namespace Broker

def losses (b : Broker) : List Action → List Loss
  | [] => []
  | a :: rest => b.losing a ++ (b.act a).losses rest

variable {b : Broker}

theorem stocked_act {admitted : List Admission} {lost : List Loss}
    (h : b.view.Stocked admitted lost) (a : Action) :
    (b.act a).view.Stocked (admitted ++ (b.admits a).toList) (lost ++ b.losing a) := by
  have he := b.act_effect a h.sound.registry
  exact h.turnover (h.sound.effect he) (he.vault_sound h.vault) (b.act_turnover a h.sound h.vault)

theorem stocked_run {admitted : List Admission} {lost : List Loss}
    (h : b.view.Stocked admitted lost) (actions : List Action) :
    (b.run actions).view.Stocked (admitted ++ b.admissions actions)
      (lost ++ b.losses actions) := by
  induction actions generalizing b admitted lost with
  | nil =>
    rw [admissions, losses, List.append_nil, List.append_nil]
    exact h
  | cons a rest ih =>
    rw [admissions, losses, ← List.append_assoc, ← List.append_assoc]
    exact ih (stocked_act h a)

theorem view_start_stocked (config : Config) (oracle : Oracle) (bundleOf : Uid → Option String)
    (observers : List Observer) :
    (start config oracle bundleOf observers).view.Stocked [] [] := by
  have hp : (start config oracle bundleOf observers).view.parcels ++ Loss.parcels [] = [] := rfl
  refine ⟨view_start_sound config oracle bundleOf observers, .ofRetention config.freezeRetention,
    .empty, rfl, ?_, ?_, by simp⟩
  · rw [hp]
    simp
  · rw [hp]
    exact List.nodup_nil

theorem retired_run (h : b.Retired) (hs : b.view.Sound) (actions : List Action) :
    (b.run actions).Retired := by
  induction actions generalizing b with
  | nil => exact h
  | cons a rest ih => exact ih (h.act hs.registry a) (hs.effect (b.act_effect a hs.registry))

theorem cancelled_run (hs : b.view.Sound) (h : b.cancelled = true) (actions : List Action) :
    (b.run actions).cancelled = true := by
  induction actions generalizing b with
  | nil => exact h
  | cons a rest ih =>
    have he := b.act_effect a hs.registry
    exact ih (hs.effect he) (he.cancelled h)

theorem gathers_losses : Gathers losing losses := ⟨fun _ => rfl, fun _ _ _ => rfl⟩

theorem warranted_run {admitted : List Admission} {lost : List Loss} {actions : List Action}
    {l : Loss} (h : b.view.Stocked admitted lost) (hr : b.Retired) (hl : l ∈ b.losses actions) :
    ∃ before a after, actions = before ++ a :: after ∧ l ∈ (b.run before).losing a ∧
      (b.run before).view.Warrants (b.run (before ++ [a])).view l := by
  obtain ⟨before, a, after, hactions, hl⟩ := gathers_losses.exists_of_mem hl
  have hbefore := stocked_run h before
  refine ⟨before, a, after, hactions, hl, ?_⟩
  rw [run_append]
  exact losing_warranted (retired_run hr h.sound before) hbefore.sound hbefore.vault hl

theorem cancelled_of_abandoned {admitted : List Admission} {lost : List Loss}
    {actions : List Action} {x : Parcel} (h : b.view.Stocked admitted lost) (hr : b.Retired)
    (hl : ⟨.abandoned, x⟩ ∈ b.losses actions) : (b.run actions).cancelled = true := by
  obtain ⟨before, a, after, rfl, -, hw⟩ := warranted_run h hr hl
  cases hw with
  | abandoned hcancelled =>
    rw [run_append]
    exact cancelled_run (stocked_run h before).sound hcancelled (a :: after)

theorem overruns_of_wrecked {admitted : List Admission} {lost : List Loss}
    {actions : List Action} {x : Parcel} (h : b.view.Stocked admitted lost) (hr : b.Retired)
    (hl : ⟨.wrecked, x⟩ ∈ b.losses actions) :
    ∃ before, before <+: actions ∧ ∃ c ∈ (b.run before).sequencer.active, c.overruns = true := by
  obtain ⟨before, a, after, rfl, -, hw⟩ := warranted_run h hr hl
  cases hw with
  | wrecked hc hm hb =>
    exact ⟨before, List.prefix_append _ _, _, hc, Chain.overruns_of_breaksDown hb⟩

/-- However a run goes, its admitted publications are numbered as they come, every subscription that
one of them matched has one copy, in one place or lost with a reason, and nobody is handed a copy
twice. Only a cancelled broker abandons any. A chain whose deadline is past the end of the clock
wrecks whatever the sequencer has, and nothing else does. -/
theorem parcels_conserved (config : Config) (oracle : Oracle) (bundleOf : Uid → Option String)
    (observers : List Observer) (actions : List Action) :
    let b := start config oracle bundleOf observers
    let w := b.run actions
    let everywhere := w.view.parcels ++ Loss.parcels (b.losses actions)
    let numbers := (b.admissions actions).map (·.publication.serial)
    numbers = List.range' 1 numbers.length ∧
      w.view.handed.Nodup ∧
      everywhere.Nodup ∧
      (∀ x ∈ everywhere, x.1 ∈ numbers) ∧
      (∀ a ∈ b.admissions actions, ∀ s ∈ a.matched,
        everywhere.count (a.publication.serial, s.id) = 1) ∧
      (∀ l ∈ b.losses actions, ∃ before a after, actions = before ++ a :: after ∧
        l ∈ (b.run before).losing a ∧
        (b.run before).view.Warrants (b.run (before ++ [a])).view l) ∧
      (w.cancelled = false → ∀ l ∈ b.losses actions, l.cause ≠ .abandoned) ∧
      ((∀ before, before <+: actions →
          ∀ c ∈ (b.run before).sequencer.active, c.overruns = false) →
        ∀ l ∈ b.losses actions, l.cause ≠ .wrecked) := by
  intro b w everywhere numbers
  have hstart : b.view.Stocked [] [] := view_start_stocked config oracle bundleOf observers
  have hretired : b.Retired := .start config oracle bundleOf observers
  have h : w.view.Stocked (b.admissions actions) (b.losses actions) := stocked_run hstart actions
  have hnumbers : numbers = List.range' 1 w.view.publications := h.numbered
  refine ⟨?_, ?_, h.distinct, ?_, ?_, fun l hl => warranted_run hstart hretired hl, ?_, ?_⟩
  · rw [hnumbers, List.length_range']
  · exact (List.nodup_append.1 (List.nodup_append.1 h.distinct).1).2.1
  · intro x hx
    have hle := (h.known x hx).1
    rw [hnumbers, List.mem_range'_1]
    omega
  · intro a ha s hs
    have hmem : (a.publication.serial, s.id) ∈ a.parcels := List.mem_map.2 ⟨s, hs, rfl⟩
    rw [h.distinct.count, if_pos (h.covered a ha hmem)]
  · intro hc l hl hcause
    obtain ⟨cause, x⟩ := l
    subst hcause
    have hcancelled : w.cancelled = true := cancelled_of_abandoned hstart hretired hl
    exact Bool.noConfusion (hc.symm.trans hcancelled)
  · intro ho l hl hcause
    obtain ⟨cause, x⟩ := l
    subst hcause
    obtain ⟨before, hbefore, c, hc, hover⟩ := overruns_of_wrecked hstart hretired hl
    cases hover.symm.trans (ho before hbefore c hc)

/-- The budget of an only chain does not fit the clock: the copy for its only receiver is lost on
the way, though nothing ended the chain or shut the broker down. -/
theorem parcels_wrecked :
    let b := start { receiverTimeout := .max } .allowAll (fun _ => none) []
    let actions : List Action :=
      [.subscribe { interest := { events := .ofList ["door"] }, owner := default },
        .publish
          { event := .named "door", publisher := default, options := { ordered := true } },
        .work .sequencer, .work .sequencer, .work .sequencer]
    let w := b.run actions
    (b.admissions actions).map Admission.parcels = [[(1, ⟨1⟩)]] ∧
      w.view.parcels = [] ∧ (b.losses actions).map (fun l => (l.cause, l.parcel)) =
        [(.wrecked, (1, ⟨1⟩))] ∧
      w.cancelled = false := by
  decide +kernel

end Broker

end EventBroker
