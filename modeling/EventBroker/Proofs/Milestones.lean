import EventBroker.Proofs.Accounting

namespace EventBroker

namespace Milestone

def ofChain (id : ChainId) (told : List (ChainId × Milestone)) : List Milestone :=
  (told.filter fun m => m.1 = id).map Prod.snd

/-- All that is told of a chain that was started: that its watchdog fired, if it did, comes between
the start and the finish. -/
def story (fired : Bool) (finish : Option FinishReason) : List Milestone :=
  .started :: ((if fired then [.fired] else []) ++
    (finish.map fun reason => .finished (some reason.name)).toList)

theorem ofChain_append (id : ChainId) (xs ys : List (ChainId × Milestone)) :
    ofChain id (xs ++ ys) = ofChain id xs ++ ofChain id ys := by
  rw [ofChain, List.filter_append, List.map_append]
  rfl

@[simp] theorem ofChain_none (id : ChainId) :
    ofChain id (none : Option (ChainId × Milestone)).toList = [] := rfl

@[simp] theorem ofChain_same (id : ChainId) (m : Milestone) :
    ofChain id (some (id, m)).toList = [m] := by
  simp [ofChain]

theorem ofChain_eq_nil {id : ChainId} {told : List (ChainId × Milestone)}
    (h : ∀ m ∈ told, m.1 ≠ id) : ofChain id told = [] := by
  rw [ofChain, List.filter_eq_nil_iff.2 fun m hm => by simp [h m hm]]
  rfl

theorem story_fired : story true none = story false none ++ [.fired] := rfl

theorem story_finished (fired : Bool) (reason : FinishReason) :
    story fired (some reason) = story fired none ++ [.finished (some reason.name)] := by
  simp [story]

end Milestone

namespace Chain

variable {c c' : Chain} {now : Instant} {x : Option (SubscriberId × Fate)}

def overran (c : Chain) (now : Instant) : Bool :=
  !c.abort && !c.expired && due c.watchdogDeadline now

theorem overran_iff : c.overran now = true ↔
    c.abort = false ∧ c.expired = false ∧ due c.watchdogDeadline now = true := by
  simp [overran, and_assoc]

theorem watchdog_of_next {reason : FinishReason} (h : c.next now = (.finalize reason, c'))
    (hx : c.expired = true → c.abort = false) :
    reason = .watchdog ↔ c.expired = true ∨ c.overran now = true := by
  rw [overran_iff]
  cases next_of_eq h with
  | aborted ha =>
    simp only [reduceCtorEq, false_iff, not_or]
    exact ⟨fun he => Bool.noConfusion (ha.symm.trans (hx he)),
      fun ho => Bool.noConfusion (ha.symm.trans ho.1)⟩
  | overdue ha ho =>
    refine iff_of_true rfl ?_
    by_cases hexp : c.expired = true
    · exact .inl hexp
    · exact .inr ⟨ha, Bool.not_eq_true _ ▸ hexp, ho.resolve_left hexp⟩
  | exhausted ha ho =>
    simp only [reduceCtorEq, false_iff, not_or]
    exact ⟨fun he => ho (.inl he), fun hover => ho (.inr hover.2.2)⟩

theorem Advances.expired_eq (h : c.Advances now x c') :
    c'.expired = (c.expired || x.any fun x => x.2 = .expired) := by
  cases h with
  | finished hr code data abort =>
    rw [finish_of_awaiting hr]
    simp
  | released hr =>
    rw [release_of_awaiting hr]
    simp
  | timedOut hr hd =>
    rw [expireReceiver_of_awaiting hr]
    simp
  | expired hr hd =>
    rw [expire_of_awaiting hr]
    simp
  | passed hs hn hf =>
    obtain ⟨-, -, -, -, -, rfl⟩ := next_deliver hn
    obtain rfl | rfl := hf <;> simp [skip_eq]
  | handing hs hn =>
    obtain ⟨-, -, -, -, -, rfl⟩ := next_deliver hn
    simp [beginReceiving]
  | parked =>
    rw [Chain.handedOff]
    split <;> simp
  | failed hs hr => simp [skip_eq]

theorem Advances.unaborted (h : c.Advances now x c') (hc : c.Sound)
    (hx : c.expired = true → c.abort = false) :
    ((x.any fun x => x.2 = .expired) = true → c.expired = false) ∧
      (c'.expired = true → c'.abort = false) := by
  have engaged {r : SubscriberId} (hr : c.awaiting = some r) :
      c.abort = false ∧ c.expired = false := by
    obtain ⟨i, hi⟩ := hc.engaged (receiver_of_awaiting hr).1
    exact ⟨hi.unaborted, hi.unexpired⟩
  cases h with
  | finished hr code data abort =>
    rw [finish_of_awaiting hr]
    simp [(engaged hr).2]
  | released hr =>
    rw [release_of_awaiting hr]
    simp [(engaged hr).2]
  | timedOut hr hd =>
    rw [expireReceiver_of_awaiting hr]
    simp [(engaged hr).2]
  | expired hr hd =>
    rw [expire_of_awaiting hr]
    simp [engaged hr]
  | passed hs hn hf =>
    obtain ⟨ha, he, -, -, -, rfl⟩ := next_deliver hn
    simp [skip_eq, he]
  | handing hs hn =>
    obtain ⟨ha, he, -, -, -, rfl⟩ := next_deliver hn
    simp [beginReceiving, he]
  | parked =>
    rw [Chain.handedOff]
    split <;> exact ⟨by simp, hx⟩
  | failed hs hr =>
    obtain ⟨i, hi⟩ := hc.engaged hs
    simp [skip_eq, hi.unexpired]

end Chain

structure FinishReason.Explains (id : ChainId) (overruns : List ChainId) (fired : Bool)
    (reason : FinishReason) : Prop where
  watchdog : reason = .watchdog ↔ fired = true ∨ id ∈ overruns
  apart : fired = true → id ∉ overruns

namespace FinishReason.Explains

variable {id : ChainId} {overruns : List ChainId} {fired : Bool} {reason : FinishReason}

theorem reported (h : reason.Explains id overruns fired) (ho : id ∉ overruns) :
    reason = .watchdog ↔ fired = true := by
  rw [h.watchdog, or_iff_left ho]

theorem unfired (h : reason.Explains id overruns fired) (ho : id ∈ overruns) : fired = false :=
  Bool.eq_false_iff.2 fun hf => h.apart hf ho

end FinishReason.Explains

namespace View

variable {v w : View} {b : Option Admission} {es : List ChainEvent} {id : ChainId}
  {admitted : List (ChainId × Option Receiver)} {s : Option Settlement}
  {f : Option (Chain × FinishReason)} {overruns : List ChainId} {trail : List Milestone}

/-- The chain that is let go of in the step from `v` to `w` because its budget is used up, without
its watchdog having fired. -/
def overrun? (v w : View) : Option ChainId :=
  match v.sequencer.active, w.sequencer.active with
  | some c, none => if c.overran v.now then some c.id else none
  | _, _ => none

theorem milestone?_settled (s : Settlement) : v.milestone? w (some s) none =
    if s.fate = .expired then some (s.chain, .fired) else none := rfl

theorem overrun?_same (h : w.sequencer.active = v.sequencer.active) : v.overrun? w = none := by
  rw [overrun?, h]
  cases v.sequencer.active <;> rfl

theorem overrun?_active {c : Chain} (h : w.sequencer.active = some c) : v.overrun? w = none := by
  rw [overrun?, h]
  cases v.sequencer.active <;> rfl

theorem overrun?_idle (h : v.sequencer.active = none) : v.overrun? w = none := by
  rw [overrun?, h]

theorem overrun?_left {c : Chain} (hv : v.sequencer.active = some c)
    (hw : w.sequencer.active = none) :
    v.overrun? w = if c.overran v.now then some c.id else none := by
  rw [overrun?, hv, hw]

theorem overrun?_underway (hv : v.Sound) (h : v.overrun? w = some id) :
    ∃ c, v.underway = some c ∧ c.id = id := by
  cases ha : v.sequencer.active with
  | none => cases (overrun?_idle ha).symm.trans h
  | some c =>
    have hs : ∀ n d reason, v.sequencer.stage ≠ .closing n d reason := fun n d reason hs => by
      cases ha.symm.trans (hv.sequencer.closing hs)
    refine ⟨c, (underway_of_ne hs).trans ha, ?_⟩
    rw [overrun?, ha] at h
    split at h
    · rename_i hv' _
      cases hv'
      split at h
      · exact Option.some.inj h
      · cases h
    · cases h

theorem Advances.milestone_about (h : v.Advances w s f) {m : ChainId × Milestone}
    (hm : v.milestone? w s f = some m) :
    (∃ c, v.underway = some c ∧ c.id = m.1) ∨ v.starts w = some m.1 ∧ m.2 = .started := by
  obtain ⟨hs, hf⟩ := h.about
  match f, s with
  | some (c, reason), _ =>
    cases hm
    exact .inl (hf _ rfl)
  | none, some s =>
    rw [milestone?_settled] at hm
    split at hm
    · cases hm
      exact .inl (hs _ rfl)
    · cases hm
  | none, none =>
    obtain ⟨i, hi, rfl⟩ := Option.map_eq_some_iff.1 hm
    exact .inr ⟨hi, rfl⟩

theorem starts_eq_some_iff : v.starts w = some id ↔
    v.sequencer.active = none ∧ ∃ c, w.sequencer.active = some c ∧ c.id = id := by
  rw [starts]
  split
  · rename_i hv hw
    simp [hv, hw]
  · rename_i h
    simp only [reduceCtorEq, false_iff, not_and]
    rintro hv ⟨c, hw, -⟩
    exact h c hv hw

theorem underway_of_starts (hw : w.Sound) (h : v.starts w = some id) :
    ∃ c, w.underway = some c ∧ c.id = id := by
  obtain ⟨-, c, hc, hid⟩ := starts_eq_some_iff.1 h
  have hs : ∀ n d reason, w.sequencer.stage ≠ .closing n d reason := fun n d reason hs => by
    cases hc.symm.trans (hw.sequencer.closing hs)
  exact ⟨c, (underway_of_ne hs).trans hc, hid⟩

theorem Advances.started (h : v.Advances w s f) (hv : v.Sound) {c : Chain}
    (hw : w.sequencer.active = some c) (hu : ∀ x, v.underway = some x → x.id ≠ c.id) :
    s = none ∧ f = none ∧ v.sequencer.active = none := by
  cases h with
  | aside ha hs =>
    have hc := ha.symm.trans hw
    have hs' : ∀ n d reason, v.sequencer.stage ≠ .closing n d reason := fun n d reason h => by
      cases hc.symm.trans (hv.sequencer.closing h)
    exact absurd rfl (hu c ((underway_of_ne hs').trans hc))
  | start hv ha hp hw' hs => exact ⟨rfl, rfl, ha⟩
  | go ha hw' hc hv hs =>
    cases hw'.symm.trans hw
    exact absurd hc.terms.id.symm (hu _ ((underway_of_ne hv).trans ha))
  | finish hv ha hi hn hw' hs => cases hw'.symm.trans hw
  | close hv ha hi hn hw' hs => cases hw'.symm.trans hw
  | closed hv hw' hs => cases hw'.symm.trans hw

theorem Advances.untold (h : v.Advances w s f) (hv : v.Sound) (hw : w.Sound)
    (hu : ∀ c, v.underway = some c → c.id ≠ id) (hu' : ∀ c, w.underway = some c → c.id ≠ id) :
    Milestone.ofChain id (v.milestone? w s f).toList = [] ∧ id ∉ (v.overrun? w).toList := by
  refine ⟨Milestone.ofChain_eq_nil fun m hm hid => ?_, fun hmem => ?_⟩
  · obtain ⟨c, hc, hcid⟩ | ⟨hs, -⟩ := h.milestone_about (Option.mem_toList.1 hm)
    · exact hu c hc (hcid.trans hid)
    · obtain ⟨c, hc, hcid⟩ := underway_of_starts hw hs
      exact hu' c hc (hcid.trans hid)
  · obtain ⟨c, hc, hcid⟩ := overrun?_underway hv (Option.mem_toList.1 hmem)
    exact hu c hc hcid

theorem Advances.known (h : v.Advances w s f) (hl : v.Lined admitted) {m : ChainId × Milestone}
    (hm : v.milestone? w s f = some m) : m.1 ∈ admitted.map Prod.fst := by
  obtain ⟨c, hc, hid⟩ | ⟨hs, -⟩ := h.milestone_about hm
  · exact hid ▸ hl.known hc
  · cases h with
    | aside ha hst => cases (starts_of_same ha).symm.trans hs
    | @start c rest hv ha hp hw hst =>
      obtain ⟨-, c', hc', hid⟩ := starts_eq_some_iff.1 hs
      cases hw.symm.trans hc'
      have hmem : c ∈ v.waiting := List.mem_append_left _ (hp ▸ List.mem_cons_self)
      exact hid ▸ List.mem_map_of_mem (hl.titles_subset
        (List.mem_append_right _ (List.mem_map_of_mem hmem)))
    | go ha hw hc hv hst => cases (starts_of_active ha).symm.trans hs
    | finish hv ha hi hn hw hst => cases (starts_of_active ha).symm.trans hs
    | close hv ha hi hn hw hst => cases (starts_of_active ha).symm.trans hs
    | closed hv hw hst =>
      obtain ⟨-, c', hc', -⟩ := starts_eq_some_iff.1 hs
      cases hw.symm.trans hc'

inductive Chronicled (v : View) (id : ChainId) (overruns : List ChainId) :
    List Milestone → Prop
  | waits {c : Chain} (hc : c ∈ v.waiting) (hid : c.id = id) (hf : c.Fresh)
      (ho : id ∉ overruns) : Chronicled v id overruns []
  | serves {c : Chain} (hs : ∀ n d reason, v.sequencer.stage ≠ .closing n d reason)
      (hc : v.sequencer.active = some c) (hid : c.id = id)
      (hx : c.expired = true → c.abort = false) (ho : id ∉ overruns) :
    Chronicled v id overruns (Milestone.story c.expired none)
  | closes {n : Notice} {c : Chain} {reason : FinishReason} {fired : Bool}
      (hs : v.sequencer.stage = .closing n c reason) (hid : c.id = id)
      (hr : reason.Explains id overruns fired) :
    Chronicled v id overruns (Milestone.story fired none)
  | finished {reason : FinishReason} {fired : Bool} (hv : v.Past id)
      (hr : reason.Explains id overruns fired) :
    Chronicled v id overruns (Milestone.story fired (some reason))
  | lost (hv : v.Past id) (ho : id ∉ overruns) : Chronicled v id overruns []

namespace Chronicled

theorem untold (hm : Milestone.ofChain id (v.milestone? w s f).toList = [] ∧
      id ∉ (v.overrun? w).toList)
    (h : w.Chronicled id overruns trail) :
    w.Chronicled id (overruns ++ (v.overrun? w).toList)
      (trail ++ Milestone.ofChain id (v.milestone? w s f).toList) := by
  have explains {reason : FinishReason} {fired : Bool} (hr : reason.Explains id overruns fired) :
      reason.Explains id (overruns ++ (v.overrun? w).toList) fired :=
    ⟨by rw [hr.watchdog, List.mem_append, or_iff_left hm.2],
      fun hf => by rw [List.mem_append, or_iff_left hm.2]; exact hr.apart hf⟩
  have apart (ho : id ∉ overruns) : id ∉ overruns ++ (v.overrun? w).toList := by
    rw [List.mem_append, or_iff_left hm.2]
    exact ho
  rw [hm.1, List.append_nil]
  cases h with
  | waits hc hid hf ho => exact .waits hc hid hf (apart ho)
  | serves hs hc hid hx ho => exact .serves hs hc hid hx (apart ho)
  | closes hs hid hr => exact .closes hs hid (explains hr)
  | finished hv hr => exact .finished hv (explains hr)
  | lost hv ho => exact .lost hv (apart ho)

theorem on_waits {c : Chain} (hl : v.Lined admitted) (he : v.Effect b es w)
    (ha : v.Advances w s f) (hc : c ∈ v.waiting) (hf : c.Fresh) (ho : c.id ∉ overruns) :
    w.Chronicled c.id (overruns ++ (v.overrun? w).toList)
      (Milestone.ofChain c.id (v.milestone? w s f).toList) := by
  have hu : ∀ x, v.underway = some x → x.id ≠ c.id := fun x hx hid =>
    hl.underway_apart hx c hc hid.symm
  have hl' := hl.effect he
  obtain hw | ⟨hstart, hp⟩ | hp := he.waits hl hc
  · exact untold (ha.untold hl.sound hl'.sound hu fun x hx hid =>
      hl'.underway_apart hx c hw hid.symm) (.waits hw rfl hf ho)
  · obtain ⟨rfl, rfl, hidle⟩ := ha.started hl.sound hstart hu
    have hs : v.starts w = some c.id := starts_eq_some_iff.2 ⟨hidle, _, hstart, rfl⟩
    have hx : (c.start v.now).expired = false ∧ (c.start v.now).abort = false := by
      cases hf with
      | mk => exact ⟨rfl, rfl⟩
    have hserves : w.Chronicled c.id overruns
        (Milestone.story (c.start v.now).expired none) :=
      .serves (by simp [hp]) hstart rfl (fun _ => hx.2) ho
    rw [hx.1] at hserves
    rw [overrun?_idle hidle, milestone?, hs, Option.toList_none, List.append_nil, Option.map_some,
      Milestone.ofChain_same]
    exact hserves
  · exact untold (ha.untold hl.sound hl'.sound hu hp.underway_ne) (.lost hp ho)

theorem explains {c c' : Chain} {reason : FinishReason} {now : Instant}
    (hx : c.expired = true → c.abort = false) (ho : c.id ∉ overruns)
    (hn : c.next now = (.finalize reason, c')) :
    reason.Explains c.id
      (overruns ++ (if c.overran now then some c.id else none).toList) c.expired where
  watchdog := by
    rw [c.watchdog_of_next hn hx, List.mem_append, or_iff_right ho]
    split <;> simp_all
  apart := fun he => by
    have hno : c.overran now = false := by simp [Chain.overran, he]
    simpa [hno] using ho

theorem on_finished {c c' : Chain} {reason : FinishReason} {fired : Bool} (hl : v.Lined admitted)
    (hid : c.id ∈ admitted.map Prod.fst) (he : v.Effect b es w) (hc : v.underway = some c)
    (hw : w.sequencer.active = none) (hs : w.sequencer.stage = .pumping) (hid' : c'.id = c.id)
    (hr : reason.Explains c.id overruns fired) :
    w.Chronicled c.id overruns (Milestone.story fired none ++
      Milestone.ofChain c.id (v.milestone? w s (some (c', reason))).toList) := by
  have hpast : w.Past c.id := by
    refine ⟨fun t ht => ?_, he.apart hl hid (hl.underway_apart hc)⟩
    rw [title?, underway_of_ne (by simp [hs]), hw] at ht
    cases ht
  rw [milestone?, hid', Milestone.ofChain_same, ← Milestone.story_finished]
  exact .finished hpast hr

theorem on_serves {c : Chain} (hl : v.Lined admitted) (hid : c.id ∈ admitted.map Prod.fst)
    (he : v.Effect b es w) (ha : v.Advances w s f)
    (hs : ∀ n d reason, v.sequencer.stage ≠ .closing n d reason)
    (hc : v.sequencer.active = some c) (hx : c.expired = true → c.abort = false)
    (ho : c.id ∉ overruns) :
    w.Chronicled c.id (overruns ++ (v.overrun? w).toList) (Milestone.story c.expired none ++
      Milestone.ofChain c.id (v.milestone? w s f).toList) := by
  cases ha with
  | aside ha hst =>
    rw [overrun?_same ha, milestone?, starts_of_active hc, Option.toList_none, List.append_nil,
      Option.map_none, Milestone.ofChain_none, List.append_nil]
    exact .serves (fun n d reason h => hs n d reason ((hst n d reason).1 h)) (ha.trans hc) rfl hx ho
  | start hv ha hpend hw hst => cases ha.symm.trans hc
  | @go _ c' x ha hw hadv hv hst =>
    cases ha.symm.trans hc
    obtain ⟨hfired, hx'⟩ := hadv.unaborted (hl.sound.sequencer.active c hc) hx
    have hserves : w.Chronicled c.id overruns (Milestone.story c'.expired none) :=
      .serves hst hw hadv.terms.id hx' ho
    have hexp := hadv.expired_eq
    rw [overrun?_active hw, Option.toList_none, List.append_nil]
    cases x with
    | none =>
      rw [Option.map_none, milestone?, starts_of_active hc, Option.map_none, Milestone.ofChain_none,
        List.append_nil]
      rw [Option.any_none, Bool.or_false] at hexp
      exact hexp ▸ hserves
    | some x =>
      rw [Option.map_some, milestone?_settled]
      by_cases hf : x.2 = .expired
      · have hunfired : c.expired = false := hfired (by simp [hf])
        have hfired' : c'.expired = true := by simp [hexp, hf]
        rw [if_pos hf, Milestone.ofChain_same, hunfired, ← Milestone.story_fired]
        exact hfired' ▸ hserves
      · have hsame : c'.expired = c.expired := by simp [hexp, hf]
        rw [if_neg hf, Milestone.ofChain_none, List.append_nil]
        exact hsame ▸ hserves
  | @finish _ c' reason hv ha hi hn hw hst =>
    cases ha.symm.trans hc
    have hr := explains hx ho hn
    rw [← overrun?_left hc hw] at hr
    exact on_finished hl hid he ((underway_of_ne hs).trans hc) hw hst
      (Chain.next_finalize hn).1 hr
  | @close n _ c' reason hv ha hi hn hw hst =>
    cases ha.symm.trans hc
    have hr := explains hx ho hn
    rw [← overrun?_left hc hw] at hr
    rw [milestone?, starts_of_active hc, Option.map_none, Milestone.ofChain_none, List.append_nil]
    exact .closes hst (Chain.next_finalize hn).1 hr
  | closed hv hw hst => exact absurd hv (hs _ _ _)

theorem on_closes {n : Notice} {c : Chain} {reason : FinishReason} {fired : Bool}
    (hl : v.Lined admitted) (hid : c.id ∈ admitted.map Prod.fst) (he : v.Effect b es w)
    (ha : v.Advances w s f) (hs : v.sequencer.stage = .closing n c reason)
    (hr : reason.Explains c.id overruns fired) :
    w.Chronicled c.id (overruns ++ (v.overrun? w).toList) (Milestone.story fired none ++
      Milestone.ofChain c.id (v.milestone? w s f).toList) := by
  have hidle := hl.sound.sequencer.closing hs
  have pumping {P : Prop} (h : v.sequencer.stage = .pumping) : P :=
    SequencerStage.noConfusion (h.symm.trans hs)
  rw [overrun?_idle hidle, Option.toList_none, List.append_nil]
  cases ha with
  | aside ha hst =>
    rw [milestone?, starts_of_same ha, Option.map_none, Milestone.ofChain_none, List.append_nil]
    exact .closes ((hst _ _ _).2 hs) rfl hr
  | start hv ha hpend hw hst => exact pumping hv
  | go ha hw hadv hv hst => exact absurd hs (hv _ _ _)
  | finish hv ha hi hn hw hst => exact pumping hv
  | close hv ha hi hn hw hst => exact pumping hv
  | closed hv hw hst =>
    cases hv.symm.trans hs
    exact on_finished hl hid he (by rw [underway, hs]) hw hst rfl hr

theorem effect (h : v.Chronicled id overruns trail) (hl : v.Lined admitted)
    (hid : id ∈ admitted.map Prod.fst) (he : v.Effect b es w) (ha : v.Advances w s f) :
    w.Chronicled id (overruns ++ (v.overrun? w).toList)
      (trail ++ Milestone.ofChain id (v.milestone? w s f).toList) := by
  have past (hv : v.Past id) := ha.untold hl.sound (hl.effect he).sound hv.underway_ne
    (hv.effect hl hid he).underway_ne
  cases h with
  | waits hc hid' hf ho =>
    subst hid'
    exact on_waits hl he ha hc hf ho
  | serves hs hc hid' hx ho =>
    subst hid'
    exact on_serves hl hid he ha hs hc hx ho
  | closes hs hid' hr =>
    subst hid'
    exact on_closes hl hid he ha hs hr
  | finished hv hr => exact untold (past hv) (.finished (hv.effect hl hid he) hr)
  | lost hv ho => exact untold (past hv) (.lost (hv.effect hl hid he) ho)

theorem of_admitted {a : Admission} (he : v.Effect (some a) es w) (hid : a.chain = some id)
    (ho : id ∉ overruns) : w.Chronicled id overruns [] := by
  cases he with
  | request hq =>
    have hw : w.waiting = v.waiting ++ (v.chainOf a).toList := hq.waiting_eq
    rw [chainOf, hid] at hw
    exact .waits (hw ▸ List.mem_append_right _ List.mem_cons_self) rfl (.mk ..) ho

theorem tells (h : v.Chronicled id overruns trail) : trail = [] ∨ ∃ fired finish,
    trail = Milestone.story fired finish ∧
      (id ∉ overruns → ∀ reason, finish = some reason → (reason = .watchdog ↔ fired = true)) ∧
      (id ∈ overruns → fired = false ∧ ∀ reason, finish = some reason → reason = .watchdog) := by
  cases h with
  | waits hc hid hf ho => exact .inl rfl
  | serves hs hc hid hx ho =>
    exact .inr ⟨_, none, rfl, fun _ => by simp, fun hmem => absurd hmem ho⟩
  | closes hs hid hr =>
    exact .inr ⟨_, none, rfl, fun _ => by simp, fun hmem => ⟨hr.unfired hmem, by simp⟩⟩
  | finished hv hr =>
    refine .inr ⟨_, some _, rfl, fun ho _ hsome => ?_, fun hmem => ⟨hr.unfired hmem, ?_⟩⟩
    · cases hsome
      exact hr.reported ho
    · rintro _ ⟨⟩
      exact hr.watchdog.2 (.inr hmem)
  | lost hv ho => exact .inl rfl

end Chronicled

end View

namespace Broker

def milestones (b : Broker) : List (ChainId × Milestone) :=
  b.reports.filterMap Record.milestone?

def overruns (b : Broker) : List Action → List ChainId
  | [] => []
  | a :: rest => (b.view.overrun? (b.act a).view).toList ++ (b.act a).overruns rest

variable {b b' : Broker} {admitted : List (ChainId × Option Receiver)} {overran : List ChainId}
  {s : Option Settlement} {f : Option (Chain × FinishReason)} {rs : List Record}

theorem Reckons.milestones_eq (h : b.Reckons b' s f rs) :
    b'.milestones = b.milestones ++ (b.view.milestone? b'.view s f).toList := by
  rw [Broker.milestones, h.reports, List.filterMap_append, h.milestones]
  rfl

structure Chronicles (b : Broker) (admitted : List (ChainId × Option Receiver))
    (overran : List ChainId) : Prop where
  lined : b.view.Lined admitted
  addressed : b.view.Addressed
  told : ∀ m ∈ b.milestones, m.1 ∈ admitted.map Prod.fst
  left : ∀ id ∈ overran, id ∈ admitted.map Prod.fst
  stands : ∀ id ∈ admitted.map Prod.fst,
    b.view.Chronicled id overran (Milestone.ofChain id b.milestones)

theorem chronicles_start (config : Config) (oracle : Oracle) (bundleOf : Uid → Option String)
    (observers : List Observer) : (start config oracle bundleOf observers).Chronicles [] [] where
  lined := view_start_lined config oracle bundleOf observers
  addressed := fun _ _ _ h => nomatch h
  told := List.forall_mem_nil _
  left := List.forall_mem_nil _
  stands := List.forall_mem_nil _

theorem Chronicles.act (h : b.Chronicles admitted overran) (a : Action) :
    (b.act a).Chronicles (admitted ++ ((b.admits a).bind Admission.title?).toList)
      (overran ++ (b.view.overrun? (b.act a).view).toList) := by
  have he := b.act_effect a h.lined.sound.registry
  have hl := h.lined.effect he
  obtain ⟨f, rs, hr⟩ := reckons_act h.lined.sound h.addressed a
  have htold : ∀ m ∈ (b.act a).milestones, m.1 ∈ admitted.map Prod.fst := by
    rw [hr.milestones_eq]
    exact List.forall_mem_append.2 ⟨h.told, fun m hm =>
      hr.advances.known h.lined (Option.mem_toList.1 hm)⟩
  have hleft : ∀ id ∈ overran ++ (b.view.overrun? (b.act a).view).toList,
      id ∈ admitted.map Prod.fst := by
    refine List.forall_mem_append.2 ⟨h.left, fun id hid => ?_⟩
    obtain ⟨c, hc, rfl⟩ := View.overrun?_underway h.lined.sound (Option.mem_toList.1 hid)
    exact h.lined.known hc
  have old {id : ChainId} (hid : id ∈ admitted.map Prod.fst) :
      id ∈ (admitted ++ ((b.admits a).bind Admission.title?).toList).map Prod.fst := by
    rw [List.map_append]
    exact List.mem_append_left _ hid
  refine ⟨hl, h.addressed.effect h.lined.sound.registry he, fun m hm => old (htold m hm),
    fun id hid => old (hleft id hid), fun id hid => ?_⟩
  rw [List.map_append] at hid
  by_cases hknown : id ∈ admitted.map Prod.fst
  · rw [hr.milestones_eq, Milestone.ofChain_append]
    exact (h.stands id hknown).effect h.lined hknown he hr.advances
  · obtain ⟨t, ht, rfl⟩ := List.mem_map.1 ((List.mem_append.1 hid).resolve_left hknown)
    obtain ⟨adm, hadm, ht⟩ := Option.bind_eq_some_iff.1 (Option.mem_toList.1 ht)
    obtain ⟨id, hchain, rfl⟩ := Option.map_eq_some_iff.1 (Admission.title?.eq_1 adm ▸ ht)
    have hnone : Milestone.ofChain id (b.act a).milestones = [] :=
      Milestone.ofChain_eq_nil fun m hm heq => hknown (heq ▸ htold m hm)
    rw [hnone]
    rw [hadm] at he
    exact .of_admitted he hchain fun hmem => hknown (hleft _ hmem)

theorem Chronicles.run (h : b.Chronicles admitted overran) (actions : List Action) :
    (b.run actions).Chronicles (admitted ++ (b.admissions actions).filterMap Admission.title?)
      (overran ++ b.overruns actions) := by
  induction actions generalizing b admitted overran with
  | nil =>
    rw [admissions, overruns, List.filterMap_nil, List.append_nil, List.append_nil]
    exact h
  | cons a rest ih =>
    have hnext := ih (h.act a)
    have htitles := Admission.titles_append [] (b.admits a)
    rw [List.nil_append, List.filterMap_nil, List.nil_append] at htitles
    rw [admissions, overruns, List.filterMap_append, htitles, ← List.append_assoc,
      ← List.append_assoc]
    exact hnext

/-- What is told of a chain as a whole, in any run: nothing, or that it was started, that its
watchdog fired if it did, and that it was finished if it was. If it was finished because of its
watchdog, then that was told to fire, exactly once and in between, unless the chain is one of those
that were let go of between two receivers because their budgets were used up: of these none is told
to fire, although each that is finished is finished because of its watchdog. -/
theorem watchdog_reported (config : Config) (oracle : Oracle) (bundleOf : Uid → Option String)
    (observers : List Observer) (actions : List Action) (id : ChainId) :
    let b := start config oracle bundleOf observers
    let told := Milestone.ofChain id (b.run actions).milestones
    told = [] ∨ ∃ fired finish, told = Milestone.story fired finish ∧
      (id ∉ b.overruns actions → ∀ reason, finish = some reason →
        (reason = .watchdog ↔ fired = true)) ∧
      (id ∈ b.overruns actions → fired = false ∧ ∀ reason, finish = some reason →
        reason = .watchdog) := by
  intro b told
  have h := (chronicles_start config oracle bundleOf observers).run actions
  rw [List.nil_append, List.nil_append] at h
  by_cases hid : id ∈ ((b.admissions actions).filterMap Admission.title?).map Prod.fst
  · exact (h.stands id hid).tells
  · exact .inl (Milestone.ofChain_eq_nil fun m hm heq => hid (heq ▸ h.told m hm))

def dawdling : List Action :=
  [joining, ringing, .work .sequencer, .work .sequencer, .work .sequencer, .tick (.ofMillis 25),
    .handedOff .sequencer (.returned (.error (.transport "slow"))), .work .sequencer,
    .work .sequencer]

/-- A hand-off that fails when the budget is used up: the chain is finished because of its watchdog,
and that is not told to have fired. -/
theorem watchdog_unreported :
    let config : Config :=
      { receiverTimeout := .ofMillis 10, watchdogFactor := 1, handoffTimeout := .zero }
    let b := start config .allowAll (fun _ => none) []
    Milestone.ofChain ⟨1⟩ (b.run dawdling).milestones =
      [.started, .finished (some FinishReason.watchdog.name)] := by
  decide +kernel

end Broker

end EventBroker
