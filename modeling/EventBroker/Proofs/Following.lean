import EventBroker.Proofs.Showing

namespace EventBroker

namespace View

variable {v w : View} {evs es : List ChainEvent}

theorem Lined.fresh {b : Option Admission} {admitted : List (ChainId × Option Receiver)}
    (h : v.Lined admitted) {id : ChainId} (hid : id ∈ admitted.map Prod.fst)
    (he : v.Effect b es w) : ∀ t, b.bind Admission.title? = some t → t.1 ≠ id := by
  intro t ht hid'
  have hd := (h.effect he).nodup
  rw [ht, List.map_append] at hd
  exact (List.nodup_append.1 hd).2.2 _ hid t.1 (by simp) hid'.symm

structure Past (v : View) (id : ChainId) : Prop where
  underway : ∀ t, v.title? = some t → t.1 ≠ id
  waiting : ∀ c ∈ v.waiting, c.id ≠ id

inductive Follows (v : View) (a : Admission) (id : ChainId) (evs : List ChainEvent) : Prop
  | waits {c : Chain} (hc : c ∈ v.waiting) (hid : c.id = id) (ha : c.abort = false)
      (hs : c.Serving a evs)
  | serves {c : Chain} (hst : ∀ n c' reason, v.sequencer.stage ≠ .closing n c' reason)
      (hc : v.sequencer.active = some c) (hid : c.id = id) (hs : c.Serving a evs)
      (hp : c.abort = true → v.sequencer.stage = .pumping)
  | closes {n : Notice} {c : Chain} {reason : FinishReason}
      (hst : v.sequencer.stage = .closing n c reason) (hid : c.id = id)
      (hf : c.finalReceiver = a.finalReceiver) (hs : Told a evs)
      (ha : afterAbort evs = if reason = .aborted then some [.signal (.notifying n)] else none)
  | ended (hv : v.Past id) (hs : Told a evs)
      (ha : afterAbort evs = none ∨
        ∃ last, a.Farewell last ∧ afterAbort evs = some (aborted id last))

theorem unaborted_of_breaksDown {c : Chain} (hv : v.Sound) (hc : v.sequencer.active = some c)
    (hb : c.breaksDown v.now = true) : c.abort = false := by
  cases hw : c.awaiting with
  | some r =>
    obtain ⟨i, hi⟩ := (hv.sequencer.active c hc).engaged (by simp [Chain.received_of_awaiting hw])
    exact hi.unaborted
  | none => exact (Chain.next_overrun (Prod.ext (Chain.next_of_breaksDown hw hb) rfl)).1

namespace Past

variable {id : ChainId}

theorem turns (h : v.Past id) (hm : v.Turns w es) : w.Past id := by
  obtain ⟨hu, hwait⟩ := h
  cases hm with
  | stay hr ht hw hb hs he =>
    rw [← ht] at hu
    rw [← hw] at hwait
    exact ⟨hu, hwait⟩
  | stop hr ht hw hb hs =>
    rw [← ht] at hu
    exact ⟨hu, fun c hc => hwait c (hw.subset hc)⟩
  | start hr hv ht hw hb hp ha hs =>
    rw [hw] at hwait
    refine ⟨?_, fun c hc => hwait c (List.mem_cons_of_mem _ hc)⟩
    intro t h
    rw [ht] at h
    cases h
    exact hwait _ List.mem_cons_self
  | hand hr hv ht hw hb hb' hn hs =>
    rw [hv, ← ht] at hu
    rw [← hw] at hwait
    exact ⟨hu, hwait⟩
  | handed hr hv ht hw hb hb' hn hsub hs =>
    rw [hv, ← ht] at hu
    rw [← hw] at hwait
    exact ⟨hu, hwait⟩
  | finish last reason hr hv ht hw hb hl hf hs =>
    rw [← hw] at hwait
    refine ⟨?_, hwait⟩
    intro t h
    rw [ht] at h
    cases h

theorem filter_eq_nil (h : v.Past id) (hm : v.Turns w es) :
    es.filter (fun e => e.chain? = some id) = [] :=
  hm.filter_eq_nil h.underway fun t _ ht => (h.turns hm).underway t ht

theorem request {b : Option Admission} (h : v.Past id) (hq : v.Request b w)
    (hn : ∀ t, b.bind Admission.title? = some t → t.1 ≠ id) : w.Past id := by
  constructor
  · rw [title?, hq.underway_eq]
    exact h.underway
  · intro c hc
    rw [hq.waiting_eq] at hc
    cases List.mem_append.1 hc with
    | inl hc => exact h.waiting c hc
    | inr hc =>
      cases b with
      | none => cases hc
      | some b =>
        have hc : v.chainOf b = some c := Option.mem_toList.1 hc
        apply hn c.title
        rw [Option.bind_some, ← title_of_chainOf v b, hc]
        rfl

theorem carries {lane : Lane} (h : v.Past id) (hc : v.Carries lane w) : w.Past id := by
  obtain ⟨hu, hwait⟩ := h
  constructor
  · rw [title?, View.underway, hc.sequencer_eq]
    exact hu
  · rw [View.waiting, hc.sequencer_eq]
    exact hwait

theorem effect {b : Option Admission} {admitted : List (ChainId × Option Receiver)}
    (h : v.Past id) (hl : v.Lined admitted) (hid : id ∈ admitted.map Prod.fst)
    (he : v.Effect b es w) : w.Past id := by
  have hn := hl.fresh hid he
  cases he with
  | request hq => exact h.request hq hn
  | carry lane hc => exact h.carries hc
  | move hm => exact h.turns (hm.turns hl.sound)

end Past

namespace Follows

variable {a : Admission} {id : ChainId}

theorem told (h : v.Follows a id evs) : Told a evs := by
  cases h with
  | waits hc hid ha hs => exact hs.told
  | serves hst hc hid hs hp => exact hs.told
  | closes hst hid hf hs ha => exact hs
  | ended hp hs ha => exact hs

theorem waits_turns {c : Chain} (hc : c ∈ v.waiting) (ha : c.abort = false) (hs : c.Serving a evs)
    (hd : (v.titles.map Prod.fst).Nodup) (hm : v.Turns w es) :
    w.Follows a c.id (evs ++ es.filter fun e => e.chain? = some c.id) := by
  have nodup : (v.waiting.map Chain.id).Nodup := by
    rw [titles, List.map_append, List.map_map] at hd
    exact (List.nodup_append.1 hd).2.1
  have apart : ∀ t, v.title? = some t → t.1 ≠ c.id := by
    intro t ht
    rw [titles, ht, List.map_append, List.map_map] at hd
    exact (List.nodup_append.1 hd).2.2 t.1 (by simp) c.id (List.mem_map_of_mem hc)
  have stays : (∀ t, v.title? = none → w.title? = some t → t.1 ≠ c.id) → c ∈ w.waiting →
      w.Follows a c.id (evs ++ es.filter fun e => e.chain? = some c.id) := by
    intro hw hc'
    rw [hm.filter_eq_nil apart hw, List.append_nil]
    exact .waits hc' rfl ha hs
  cases hm with
  | stay hr ht hw hb hsig he =>
    refine stays ?_ (hw ▸ hc)
    intro t hv hwt
    rw [ht, hv] at hwt
    cases hwt
  | stop hr ht hw hb hsig =>
    rw [List.filter_nil, List.append_nil]
    by_cases hc' : c ∈ w.waiting
    · exact .waits hc' rfl ha hs
    · refine .ended ⟨?_, ?_⟩ hs.told (.inl ?_)
      · rw [ht]
        exact apart
      · intro x hx hid
        have he : x = c := List.inj_on_of_nodup_map nodup (hw.subset hx) hc hid
        exact hc' (he ▸ hx)
      · rw [hs.abort, ha]
        rfl
  | @start c₀ hr hv ht hw hb hp hact hsig =>
    by_cases hid : c₀.id = c.id
    · have hmem : c₀ ∈ v.waiting := hw ▸ List.mem_cons_self
      have he : c₀ = c := List.inj_on_of_nodup_map nodup hmem hc hid
      subst he
      have hstart := hs.aside (e := .signal (.started (some c₀.id))) (c₀.alike_start v.now) ha rfl
        trivial rfl
      rw [List.filter_cons_of_pos (by simp [ChainEvent.chain?, Signal.chain?]), List.filter_nil]
      refine .serves ?_ hact rfl hstart fun _ => hp
      simp [hp]
    · refine stays ?_ ?_
      · intro t hv' hwt
        rw [ht] at hwt
        cases hwt
        exact hid
      · rw [hw] at hc
        cases List.mem_cons.1 hc with
        | inl he => exact absurd (he ▸ rfl) hid
        | inr hc => exact hc
  | hand hr hv ht hw hb hb' hn hsig =>
    refine stays ?_ (hw ▸ hc)
    intro t hv'
    rw [hv] at hv'
    cases hv'
  | handed hr hv ht hw hb hb' hn hsub hsig =>
    refine stays ?_ (hw ▸ hc)
    intro t hv'
    rw [hv] at hv'
    cases hv'
  | finish last reason hr hv ht hw hb hl hf hsig =>
    refine stays ?_ (hw ▸ hc)
    intro t hv'
    rw [hv] at hv'
    cases hv'

theorem serves_on {c c' : Chain} (hs : c.Serving a evs) (hk : c.Alike c')
    (hst : ∀ n d reason, w.sequencer.stage ≠ .closing n d reason)
    (hc : w.sequencer.active = some c') (hp : c'.abort = true → w.sequencer.stage = .pumping) :
    w.Follows a c.id (evs ++ ([] : List ChainEvent).filter fun e => e.chain? = some c.id) := by
  rw [List.filter_nil, List.append_nil]
  exact .serves hst hc hk.id (hs.keep hk) hp

theorem serves_moves {c : Chain} (hst : ∀ n c' reason, v.sequencer.stage ≠ .closing n c' reason)
    (hc : v.sequencer.active = some c) (hs : c.Serving a evs)
    (hp : c.abort = true → v.sequencer.stage = .pumping) (hv : v.Sound)
    (hw : ∀ x ∈ v.waiting, x.id ≠ c.id) (hm : v.Moves es w) :
    w.Follows a c.id (evs ++ es.filter fun e => e.chain? = some c.id) := by
  -- An aborted chain is let go of in the very next step.
  have unaborted : v.sequencer.stage ≠ .pumping → c.abort = false := by
    intro h
    cases ha : c.abort with
    | false => rfl
    | true => exact absurd (hp ha) h
  have engaged : c.state ≠ .idle → c.abort = false := by
    intro hi
    obtain ⟨i, hi⟩ := (hv.sequencer.active c hc).engaged hi
    exact hi.unaborted
  have own : ∀ {e : ChainEvent}, e.chain? = some c.id →
      [e].filter (fun e => e.chain? = some c.id) = [e] := by
    intro e he
    simp [he]
  cases hm with
  | stop h hcan =>
    refine serves_on hs (.refl c) (by simp) hc ?_
    intro ha
    rw [unaborted (by simp [h])] at ha
    cases ha
  | breakDown h ha hb =>
    cases hc.symm.trans ha
    refine serves_on hs (.refl c) (by simp) hc ?_
    intro hab
    rw [unaborted_of_breaksDown hv hc hb] at hab
    cases hab
  | enqueue h hq => exact serves_on hs (.refl c) (by simp) hc fun _ => rfl
  | ignore h hq hn hacc => exact serves_on hs (.refl c) hst hc hp
  | @accept c' r code data abort caller rest h hcan hq ha hr =>
    cases hc.symm.trans ha
    rw [own rfl]
    refine .serves (by simp) rfl ?_ (hs.finish hr (unaborted (by simp [h])) code data abort)
      fun _ => rfl
    rw [Chain.finish_of_awaiting hr]
  | release h hq ha hr =>
    cases hc.symm.trans ha
    exact serves_on hs (Chain.alike_release hr) (by simp) rfl fun _ => rfl
  | expire h hq ha hd =>
    cases hc.symm.trans ha
    obtain ⟨r, hr⟩ := hv.sequencer.awaiting h hc
    exact serves_on hs (Chain.alike_expire hr) (by simp) rfl fun _ => rfl
  | expireReceiver h hq ha hd =>
    cases hc.symm.trans ha
    obtain ⟨r, hr⟩ := hv.sequencer.awaiting h hc
    exact serves_on hs (Chain.alike_expireReceiver hr) (by simp) rfl fun _ => rfl
  | rest h ha hp' =>
    rw [hc] at ha
    cases ha
  | start h ha hp' =>
    rw [hc] at ha
    cases ha
  | park h ha hr =>
    cases hc.symm.trans ha
    refine serves_on hs (.refl c) (by simp) hc ?_
    intro hab
    rw [engaged (by simp [Chain.received_of_awaiting hr])] at hab
    cases hab
  | pass h ha hwait hn he =>
    cases hc.symm.trans ha
    have hk := (Chain.alike_deliver hn).trans (Chain.alike_skip _)
    exact serves_on hs hk hst rfl fun _ => h
  | @hold c₀ c' i r e h ha hwait hn he hf =>
    cases hc.symm.trans ha
    have hab := (Chain.next_deliver hn).1
    have hk := (Chain.alike_deliver hn).trans (Chain.alike_skip _)
    rw [own rfl]
    refine .serves hst rfl hk.id (hs.event hk hab rfl rfl ?_) fun _ => h
    rw [Chain.skip_eq]
    exact Chain.take_deliver hn ▸ List.Sublist.refl _
  | @hand c₀ c' i r e h ha hwait hn he hf =>
    cases hc.symm.trans ha
    have hab := (Chain.next_deliver hn).1
    have hk := (Chain.alike_deliver hn).trans (c'.alike_beginReceiving v.now)
    have hkey : e.subscriber.id = r := hv.registry.keyed he
    rw [own rfl]
    refine .serves (by simp [tell]) rfl hk.id (hs.event hk hab rfl rfl ?_) ?_
    · rw [← hkey] at hn
      exact Chain.take_deliver hn ▸ List.Sublist.refl _
    · intro hab'
      rw [hk.abort, hab] at hab'
      cases hab'
  | @finish c₀ c' reason h ha hwait hn hf =>
    cases hc.symm.trans ha
    have hab := (Chain.next_finalize hn).2.2.2.2.2.1
    rw [own rfl]
    refine .ended ⟨by simp [title?, underway, tell], hw⟩ (hs.told.aside trivial rfl) ?_
    rw [afterAbort_append, hs.abort]
    cases habort : c.abort with
    | false => exact .inl rfl
    | true =>
      cases hab.1 habort
      exact .inr ⟨none, ⟨hf.symm.trans hs.final, by simp⟩, rfl⟩
  | @close c₀ c' reason f h ha hwait hn hf =>
    cases hc.symm.trans ha
    obtain ⟨hid, -, -, -, hfinal, hab, -⟩ := Chain.next_finalize hn
    rw [own rfl]
    refine .closes rfl hid (hfinal.trans hs.final) (hs.told.aside hs.copy rfl) ?_
    rw [afterAbort_append, hs.abort]
    cases habort : c.abort with
    | false =>
      have hr : reason ≠ .aborted := by
        intro hr
        rw [hab.2 hr] at habort
        cases habort
      rw [if_neg hr]
      rfl
    | true =>
      rw [if_pos (hab.1 habort)]
      rfl
  | @parked n i c₀ s h ha hn | @overrun n i c₀ s h ha hn =>
    cases hc.symm.trans ha
    obtain ⟨hstate, s', t, rfl⟩ := hv.handing h hc
    have hab := engaged (by simp [hstate])
    have hk := c.alike_handedOff
    rw [own rfl]
    refine .serves (by simp [tell]) rfl hk.id (hs.aside hk hab rfl trivial rfl) ?_
    intro hab'
    rw [hk.abort, hab] at hab'
    cases hab'
  | @failed n i c₀ s e h ha hn =>
    cases hc.symm.trans ha
    obtain ⟨hstate, s', t, rfl⟩ := hv.handing h hc
    have hab := engaged (by simp [hstate])
    have hk := c.alike_skip
    rw [own rfl]
    exact .serves (by simp [tell]) rfl hk.id (hs.aside hk hab rfl trivial rfl) fun _ => rfl
  | stray h hn => exact absurd hn (hv.not_stray h)
  | closed h => exact absurd h (hst _ _ _)

theorem closes_moves {n : Notice} {c : Chain} {reason : FinishReason}
    (hst : v.sequencer.stage = .closing n c reason) (hf : c.finalReceiver = a.finalReceiver)
    (hs : Told a evs)
    (ha : afterAbort evs = if reason = .aborted then some [.signal (.notifying n)] else none)
    (hv : v.Sound) (hw : ∀ x ∈ v.waiting, x.id ≠ c.id) (hm : v.Moves es w) :
    w.Follows a c.id (evs ++ es.filter fun e => e.chain? = some c.id) := by
  cases hm
  case closed n' c' reason' result h =>
    rw [hst] at h
    cases h
    obtain ⟨f, t, hfin, rfl⟩ := hv.manned.closing hst
    have hnone : v.sequencer.active = none := hv.sequencer.closing hst
    have hes : [ChainEvent.signal (.notified (c.notice f none t) result),
        .signal (.finished (some c.id) (some reason.name))].filter
          (fun e => e.chain? = some c.id) =
        [.signal (.notified (c.notice f none t) result)] ++
          [.signal (.finished (some c.id) (some reason.name))] := by
      simp [ChainEvent.chain?, Signal.chain?, Chain.notice]
    rw [hes, ← List.append_assoc]
    have hs := hs.aside (e := .signal (.notified (c.notice f none t) result)) trivial rfl
    have hs := hs.aside (e := .signal (.finished (some c.id) (some reason.name))) trivial rfl
    refine .ended ⟨by simp [title?, underway, tell, hnone], hw⟩ hs ?_
    rw [afterAbort_append, afterAbort_append, ha]
    by_cases hr : reason = .aborted
    · rw [if_pos hr]
      subst hr
      refine .inr ⟨some (c.notice f none t, result), ⟨hfin.symm.trans hf, ?_⟩, rfl⟩
      simp [Chain.notice]
    · rw [if_neg hr]
      exact .inl rfl
  all_goals simp_all

theorem request {b : Option Admission} (h : v.Follows a id evs) (hq : v.Request b w)
    (hn : ∀ t, b.bind Admission.title? = some t → t.1 ≠ id) : w.Follows a id evs := by
  obtain ⟨cs, -, hs⟩ := hq.sends
  have hw := hq.waiting_eq
  cases h with
  | waits hc hid ha hs =>
    refine .waits ?_ hid ha hs
    rw [hw]
    exact List.mem_append_left _ hc
  | serves hst hc hid hserve hp =>
    refine .serves ?_ ?_ hid hserve ?_
    · rw [hs]
      exact hst
    · rw [hs]
      exact hc
    · rw [hs]
      exact hp
  | closes hst hid hf htold ha =>
    refine .closes ?_ hid hf htold ha
    rw [hs]
    exact hst
  | ended hp htold ha => exact .ended (hp.request hq hn) htold ha

theorem carries {lane : Lane} (h : v.Follows a id evs) (hc : v.Carries lane w) :
    w.Follows a id evs := by
  have hs := hc.sequencer_eq
  cases h with
  | waits hm hid ha hserve =>
    refine .waits ?_ hid ha hserve
    rw [waiting, hs]
    exact hm
  | serves hst hm hid hserve hp => exact .serves (hs ▸ hst) (hs ▸ hm) hid hserve (hs ▸ hp)
  | closes hst hid hf htold ha => exact .closes (hs ▸ hst) hid hf htold ha
  | ended hp htold ha => exact .ended (hp.carries hc) htold ha

theorem moves (h : v.Follows a id evs) (hv : v.Sound) (hd : (v.titles.map Prod.fst).Nodup)
    (hm : v.Moves es w) : w.Follows a id (evs ++ es.filter fun e => e.chain? = some id) := by
  -- Whatever is underway no longer waits.
  have apart : ∀ {c : Chain}, v.underway = some c → ∀ x ∈ v.waiting, x.id ≠ c.id := by
    intro c hc x hx hid
    rw [titles, title?, hc, List.map_append, List.map_map] at hd
    exact (List.nodup_append.1 hd).2.2 c.id (by simp [Chain.title]) x.id
      (List.mem_map_of_mem hx) hid.symm
  cases h with
  | waits hc hid ha hs =>
    subst hid
    exact waits_turns hc ha hs hd (hm.turns hv)
  | serves hst hc hid hs hp =>
    subst hid
    exact serves_moves hst hc hs hp hv (apart ((underway_of_ne hst).trans hc)) hm
  | closes hst hid hf hs ha =>
    subst hid
    refine closes_moves hst hf hs ha hv (apart ?_) hm
    rw [underway, hst]
  | ended hp hs ha =>
    rw [hp.filter_eq_nil (hm.turns hv), List.append_nil]
    exact .ended (hp.turns (hm.turns hv)) hs ha

theorem effect {b : Option Admission} {admitted : List (ChainId × Option Receiver)}
    (h : v.Follows a id evs) (hl : v.Lined admitted) (hid : id ∈ admitted.map Prod.fst)
    (he : v.Effect b es w) : w.Follows a id (evs ++ es.filter fun e => e.chain? = some id) := by
  have hn := hl.fresh hid he
  cases he with
  | request hq =>
    rw [List.filter_nil, List.append_nil]
    exact h.request hq hn
  | carry lane hc =>
    have hes : ((w.signals.drop v.signals.length).map ChainEvent.signal).filter
        (fun e => e.chain? = some id) = [] := by
      apply List.filter_eq_nil_iff.2
      intro e he
      rw [hc.silent hl.sound e he]
      simp
    rw [hes, List.append_nil]
    exact h.carries hc
  | move hm => exact h.moves hl.sound hl.titles_nodup hm

theorem runs {past : List ChainEvent} {as : List Admission}
    {admitted : List (ChainId × Option Receiver)} (h : v.Follows a id past)
    (hl : v.Lined admitted) (hid : id ∈ admitted.map Prod.fst) (hr : v.Runs as evs w) :
    w.Follows a id (past ++ evs.filter fun e => e.chain? = some id) := by
  induction hr with
  | start =>
    rw [List.filter_nil, List.append_nil]
    exact h
  | act hr he ih =>
    rw [List.filter_append, ← List.append_assoc]
    apply ih.effect (hl.runs hr) _ he
    rw [List.map_append]
    exact List.mem_append_left _ hid

theorem of_past (h : v.Follows a id evs) (hp : v.Past id) :
    afterAbort evs = none ∨ ∃ last, a.Farewell last ∧ afterAbort evs = some (aborted id last) := by
  cases h with
  | waits hc hid ha hs => exact absurd hid (hp.waiting _ hc)
  | serves hst hc hid hs hp' =>
    refine absurd hid (hp.underway (Chain.title _) ?_)
    rw [title?, underway_of_ne hst, hc]
    rfl
  | closes hst hid hf hs ha =>
    refine absurd hid (hp.underway (Chain.title _) ?_)
    rw [title?, underway, hst]
    rfl
  | ended hp' hs ha => exact ha

theorem past_of_title_none (h : v.Follows a id evs) (hab : afterAbort evs ≠ none)
    (ht : v.title? = none) : v.Past id := by
  cases h with
  | waits hc hid ha hs =>
    rw [hs.abort, ha] at hab
    exact absurd rfl hab
  | serves hst hc hid hs hp =>
    rw [title?, underway_of_ne hst, hc] at ht
    cases ht
  | closes hst hid hf hs ha =>
    rw [title?, underway, hst] at ht
    cases ht
  | ended hp hs ha => exact hp

end Follows

theorem Moves.of_aborted {c : Chain} (h : v.Moves es w) (hv : v.Sound)
    (hs : v.sequencer.stage = .pumping) (hc : v.sequencer.active = some c)
    (ha : c.abort = true) :
    w.title? = none ∨ ∃ n c' reason, w.sequencer.stage = .closing n c' reason := by
  have undelivered : ∀ {i r c'}, c.next v.now ≠ (.deliver i r, c') := by
    intro i r c' hn
    rw [(Chain.next_deliver hn).1] at ha
    cases ha
  cases h with
  | park h hc' hr =>
    cases hc.symm.trans hc'
    obtain ⟨i, hi⟩ := (hv.sequencer.active c hc).engaged (by simp [Chain.received_of_awaiting hr])
    rw [hi.unaborted] at ha
    cases ha
  | breakDown h hc' hb =>
    cases hc.symm.trans hc'
    rw [unaborted_of_breaksDown hv hc hb] at ha
    cases ha
  | pass h hc' hw hn he =>
    cases hc.symm.trans hc'
    exact absurd hn undelivered
  | hold h hc' hw hn he hf =>
    cases hc.symm.trans hc'
    exact absurd hn undelivered
  | hand h hc' hw hn he hf =>
    cases hc.symm.trans hc'
    exact absurd hn undelivered
  | finish h hc' hw hn hf => exact .inl (by simp [title?, underway, tell])
  | close h hc' hw hn hf => exact .inr ⟨_, _, _, rfl⟩
  | _ => simp_all

theorem Moves.of_closing {n : Notice} {c : Chain} {reason : FinishReason} (h : v.Moves es w)
    (hv : v.Sound) (hs : v.sequencer.stage = .closing n c reason) : w.title? = none := by
  have ha : v.sequencer.active = none := hv.sequencer.closing hs
  cases h with
  | closed h =>
    rw [title?, underway_of_ne (by simp [tell])]
    exact congrArg (Option.map Chain.title) ha
  | _ => simp_all

theorem Lined.about {b : Option Admission} {admitted : List (ChainId × Option Receiver)}
    (h : v.Lined admitted) (he : v.Effect b es w) :
    ∀ e ∈ es, ∀ id, e.chain? = some id → id ∈ admitted.map Prod.fst := by
  intro e hmem id hid
  have hw := h.effect he
  cases he with
  | request hq => cases hmem
  | carry lane hc =>
    rw [hc.silent h.sound e hmem] at hid
    cases hid
  | move hm =>
    rw [Option.bind_none, Option.toList_none, List.append_nil] at hw
    obtain ⟨t, ht, hc⟩ := (hm.turns h.sound).about e hmem
    cases hc.symm.trans hid
    apply List.mem_map_of_mem
    cases ht with
    | inl ht => exact h.titles_subset (List.mem_append_left _ (by simp [ht]))
    | inr ht => exact hw.titles_subset (List.mem_append_left _ (by simp [ht.2]))

theorem Lined.about_runs {as : List Admission} {admitted : List (ChainId × Option Receiver)}
    (h : v.Lined admitted) (hr : v.Runs as evs w) :
    ∀ e ∈ evs, ∀ id, e.chain? = some id →
      id ∈ (admitted ++ as.filterMap Admission.title?).map Prod.fst := by
  induction hr with
  | start => simp
  | act hr he ih =>
    intro e hmem id hid
    rw [List.filterMap_append, ← List.append_assoc, List.map_append]
    apply List.mem_append_left
    cases List.mem_append.1 hmem with
    | inl hmem => exact ih e hmem id hid
    | inr hmem => exact (h.runs hr).about he e hmem id hid

theorem Effect.admitted {a : Admission} {id : ChainId} (h : v.Effect (some a) es w)
    (hid : a.chain = some id) : es = [] ∧ w.Follows a id [] := by
  cases h with
  | request hq =>
    have hw : w.waiting = v.waiting ++ (v.chainOf a).toList := hq.waiting_eq
    refine ⟨rfl, ?_⟩
    cases hc : v.chainOf a with
    | none =>
      rw [chainOf, hid] at hc
      cases hc
    | some c =>
      rw [hc] at hw
      rw [chainOf, hid] at hc
      cases hc
      refine .waits (hw ▸ List.mem_append_right _ List.mem_cons_self) rfl rfl ?_
      exact ⟨rfl, rfl, rfl, rfl, trivial, List.nil_sublist _, rfl⟩

theorem Effect.matched {a : Admission} (h : v.Effect (some a) es w) :
    a.matched = (v.registry.matching v.oracle a.publication).matched := by
  cases h with
  | request hq =>
    cases hq with
    | publish hn hm hq => exact hm

theorem Runs.issued_le {as : List Admission} (h : v.Runs as evs w) :
    v.registry.issued ≤ w.registry.issued := by
  induction h with
  | start => exact Nat.le_refl _
  | act h he ih => exact Nat.le_trans ih he.registry_changes.issued_le

end View

namespace Broker

/-- All that befalls a chain in a run. -/
def befalling (b : Broker) (id : ChainId) (actions : List Action) : List ChainEvent :=
  (b.trace actions).filter fun e => e.chain? = some id

theorem befalling_append (b : Broker) (id : ChainId) (xs ys : List Action) :
    b.befalling id (xs ++ ys) = b.befalling id xs ++ (b.run xs).befalling id ys := by
  rw [befalling, gathers_trace.append, List.filter_append]
  rfl

variable {b : Broker} {admitted : List (ChainId × Option Receiver)} {id : ChainId}

theorem lined_run (h : b.view.Lined admitted) (actions : List Action) :
    (b.run actions).view.Lined
      (admitted ++ (b.admissions actions).filterMap Admission.title?) :=
  h.runs (runs_view h.sound actions).1

theorem follows_run {a : Admission} {evs : List ChainEvent} (h : b.view.Follows a id evs)
    (hl : b.view.Lined admitted) (hid : id ∈ admitted.map Prod.fst) (actions : List Action) :
    (b.run actions).view.Follows a id (evs ++ b.befalling id actions) :=
  h.runs hl hid (runs_view hl.sound actions).1

theorem follows_admitted {adm : Admission} {a : Action} (hl : b.view.Lined admitted)
    (ha : b.admits a = some adm) (hc : adm.chain = some id) (actions : List Action) :
    (b.run (a :: actions)).view.Follows adm id (b.befalling id (a :: actions)) ∧
      (b.act a).view.Lined (admitted ++ [(id, adm.finalReceiver)]) := by
  have he := b.act_effect a hl.sound.registry
  rw [ha] at he
  obtain ⟨hd, hf⟩ := he.admitted hc
  have hw := hl.effect he
  rw [Option.bind_some, Admission.title?, hc] at hw
  refine ⟨?_, hw⟩
  rw [befalling, trace, hd, List.nil_append]
  exact follows_run hf hw (by simp) actions

theorem befalling_eq_nil (hl : b.view.Lined []) {actions : List Action}
    (hid : id ∉ ((b.admissions actions).filterMap Admission.title?).map Prod.fst) :
    b.befalling id actions = [] := by
  apply List.filter_eq_nil_iff.2
  intro e he hc
  exact hid (hl.about_runs (runs_view hl.sound actions).1 e he id (of_decide_eq_true hc))

theorem work_of_abort {a : Admission} {evs : List ChainEvent} (h : b.view.Follows a id evs)
    (hl : b.view.Lined admitted) (hid : id ∈ admitted.map Prod.fst) (hab : afterAbort evs ≠ none) :
    (b.act (.work .sequencer)).view.Past id ∨
      ∃ n c reason, (b.act (.work .sequencer)).view.sequencer.stage = .closing n c reason := by
  have he := b.act_effect (.work .sequencer) hl.sound.registry
  have hf := h.effect hl hid he
  rw [act, work] at hf ⊢
  cases h with
  | waits hc hid' ha hs =>
    rw [hs.abort, ha] at hab
    exact absurd rfl hab
  | @serves c hst hc hid' hs hp =>
    cases ha : c.abort with
    | false =>
      rw [hs.abort, ha] at hab
      exact absurd rfl hab
    | true =>
      have hstep : b.sequencerStep = some b.pumpStep := by
        rw [sequencerStep, show b.sequencer.stage = .pumping from hp ha]
      obtain ⟨es, hm⟩ := b.pumpStep_cases.moves (hp ha)
      rw [hstep, Option.getD_some] at hf ⊢
      cases hm.of_aborted hl.sound (hp ha) hc ha with
      | inl ht => exact .inl (hf.past_of_title_none (afterAbort_append_ne_none hab _) ht)
      | inr ht => exact .inr ht
  | @closes n c reason hst hid' hf' hs ha =>
    have hstep : b.sequencerStep = none := by
      rw [sequencerStep, show b.sequencer.stage = .closing n c reason from hst]
    rw [hstep, Option.getD_none]
    exact .inr ⟨_, _, _, hst⟩
  | ended hp hs ha => exact .inl (hp.effect hl hid he)

theorem past_of_abort {a : Admission} {evs : List ChainEvent} (h : b.view.Follows a id evs)
    (hl : b.view.Lined admitted) (hid : id ∈ admitted.map Prod.fst) (hab : afterAbort evs ≠ none)
    (reception : Reception) :
    (b.run [.work .sequencer, .handedOff .sequencer reception]).view.Past id := by
  have he := b.act_effect (.work .sequencer) hl.sound.registry
  have hf := h.effect hl hid he
  have hw := hl.effect he
  have hid' : id ∈ (admitted ++ ((b.admits (.work .sequencer)).bind Admission.title?).toList).map
      Prod.fst := by
    rw [List.map_append]
    exact List.mem_append_left _ hid
  have hab' := afterAbort_append_ne_none hab
  have hstep := work_of_abort h hl hid hab
  have hrun : b.run [.work .sequencer, .handedOff .sequencer reception] =
    (b.act (.work .sequencer)).act (.handedOff .sequencer reception) := rfl
  rw [hrun]
  generalize b.act (.work .sequencer) = b' at hf hw hstep ⊢
  have he' := b'.act_effect (.handedOff .sequencer reception) hw.sound.registry
  cases hstep with
  | inl hp => exact hp.effect hw hid' he'
  | inr hc =>
    obtain ⟨n, c, reason, hc⟩ := hc
    obtain ⟨es, hm⟩ := b'.closing_moves hc reception.result
    exact (hf.effect hw hid' he').past_of_title_none (afterAbort_append_ne_none (hab' _) _)
      (hm.of_closing hw.sound hc)

theorem late_not_matched (hv : b.view.Sound) {adm : Admission} {a : Action}
    (ha : b.admits a = some adm) {actions : List Action} {req : Subscription} {s : SubscriberId}
    (hs : ((b.run (a :: actions)).subscribe req).1 = .ok s) :
    s ∉ adm.matched.map Subscriber.id := by
  intro hmem
  have he := b.act_effect a hv.registry
  rw [ha] at he
  obtain ⟨x, hx, rfl⟩ := List.mem_map.1 hmem
  rw [he.matched] at hx
  obtain ⟨e, hentry, -⟩ := Registry.entry_of_matched _ _ hv.registry hx
  have hold : x.id.val ≤ b.registry.issued := hv.registry.known hentry
  have hle : b.registry.issued ≤ (b.run (a :: actions)).registry.issued :=
    (runs_view hv (a :: actions)).1.issued_le
  obtain ⟨s', -, hid, -⟩ := subscribe_admitted (Prod.ext hs rfl)
  have hnew := congrArg SubscriberId.val hid
  have hlt : x.id.val = (b.run (a :: actions)).registry.issued + 1 := hnew
  omega

theorem befalling_admitted (hl : b.view.Lined []) {before : List Action} {a : Action}
    {adm : Admission} (ha : (b.run before).admits a = some adm) (hc : adm.chain = some id)
    (after : List Action) :
    b.befalling id (before ++ a :: after) = (b.run before).befalling id (a :: after) := by
  have hb : (b.run before).view.Lined _ := lined_run hl before
  obtain ⟨-, hw⟩ := follows_admitted hb ha hc after
  have hd := hw.nodup
  rw [List.nil_append, List.map_append] at hd
  have hid : id ∉ ((b.admissions before).filterMap Admission.title?).map Prod.fst := by
    intro hmem
    exact (List.nodup_append.1 hd).2.2 id hmem id (by simp) rfl
  rw [befalling_append, befalling_eq_nil hl hid, List.nil_append]

theorem abort_ends {adm : Admission} {evs tail : List ChainEvent}
    (h : b.view.Follows adm id evs) (hl : b.view.Lined admitted)
    (hid : id ∈ admitted.map Prod.fst) (ht : afterAbort evs = some tail)
    (reception : Reception) :
    ∃ last, adm.Farewell last ∧ tail <+: aborted id last ∧
      afterAbort (evs ++ b.befalling id [.work .sequencer, .handedOff .sequencer reception]) =
        some (aborted id last) := by
  have hab : afterAbort evs ≠ none := by simp [ht]
  have hpast := past_of_abort h hl hid hab reception
  have hf := follows_run h hl hid [.work .sequencer, .handedOff .sequencer reception]
  cases hf.of_past hpast with
  | inl ha => exact absurd ha (afterAbort_append_ne_none hab _)
  | inr ha =>
    obtain ⟨last, hlast, ha⟩ := ha
    refine ⟨last, hlast, ?_, ha⟩
    rw [afterAbort_append, ht] at ha
    exact ⟨_, Option.some.inj ha⟩

/-- What a chain shows: to a part of those its publication matched, in their order, what was
published with the latest accepted result; and once it was told to abort, to nobody but its final
receiver. -/
theorem chain_shows (config : Config) (oracle : Oracle) (bundleOf : Uid → Option String)
    (observers : List Observer) {before : List Action} {a : Action} {adm : Admission}
    (ha : ((start config oracle bundleOf observers).run before).admits a = some adm)
    {id : ChainId} (hc : adm.chain = some id) (after : List Action) :
    let b := start config oracle bundleOf observers
    let events := b.befalling id (before ++ a :: after)
    adm.matched =
        ((b.run before).registry.matching (b.run before).oracle adm.publication).matched ∧
      adm.matched.Pairwise Subscriber.Outranks ∧
      (adm.matched.map Subscriber.id).Nodup ∧
      (events.filterMap ChainEvent.reached?).Sublist (adm.matched.map Subscriber.id) ∧
      (∀ mid req rest s, after = mid ++ .subscribe req :: rest →
        ((b.run (before ++ a :: mid)).subscribe req).1 = .ok s →
        s ∉ events.filterMap ChainEvent.reached?) ∧
      Faithful adm.publication adm.result events ∧
      ∀ tail, afterAbort events = some tail → ∀ reception, ∃ last, adm.Farewell last ∧
        tail <+: aborted id last ∧
        afterAbort (b.befalling id
          (before ++ a :: after ++ [.work .sequencer, .handedOff .sequencer reception])) =
            some (aborted id last) := by
  intro b events
  have hl : b.view.Lined [] := view_start_lined config oracle bundleOf observers
  have hb : (b.run before).view.Lined _ := lined_run hl before
  have he := (b.run before).act_effect a hb.sound.registry
  rw [ha] at he
  obtain ⟨hf, hw⟩ := follows_admitted hb ha hc after
  have hevents : events = (b.run before).befalling id (a :: after) :=
    befalling_admitted hl ha hc after
  rw [← hevents] at hf
  refine ⟨he.matched, ?_, ?_, hf.told.reached, ?_, hf.told.faithful, ?_⟩
  · rw [he.matched]
    exact Registry.matched_ranked _ _ hb.sound.registry
  · rw [he.matched]
    exact Registry.matched_nodup _ _ hb.sound.registry
  · intro mid req rest s _ hs hmem
    rw [run_append] at hs
    exact late_not_matched hb.sound ha hs (hf.told.reached.subset hmem)
  · intro tail ht reception
    rw [befalling_append]
    rw [← run_append] at hf
    have hrun := lined_run hw after
    change ((b.run before).run (a :: after)).view.Lined _ at hrun
    rw [← run_append] at hrun
    exact abort_ends hf hrun (by simp) ht reception

def handBack : List Action :=
  [.work .sequencer, .work .sequencer, .work .sequencer, .handedOff .sequencer (.returned (.ok ())),
    .finish ⟨1⟩ 1 "no" true, .work .sequencer]

theorem chain_shows_handBack :
    let b := start {} .allowAll (fun _ => none) []
    ∃ adm, (b.run [joining]).admits ringing = some adm ∧ adm.chain = some ⟨1⟩ ∧
      ∃ last, adm.Farewell last ∧
        afterAbort (b.befalling ⟨1⟩ ([joining] ++ ringing :: handBack ++
          [.work .sequencer, .handedOff .sequencer (.returned (.ok ()))])) =
            some (aborted ⟨1⟩ last) := by
  intro b
  have h : ((b.run [joining]).admits ringing).bind Admission.chain = some ⟨1⟩ := by
    decide +kernel
  obtain ⟨adm, ha, hc⟩ := Option.bind_eq_some_iff.1 h
  obtain ⟨-, -, -, -, -, -, ends⟩ := chain_shows {} .allowAll (fun _ => none) [] ha hc handBack
  have haborted : (afterAbort (b.befalling ⟨1⟩ ([joining] ++ ringing :: handBack))).isSome := by
    decide +kernel
  obtain ⟨tail, ht⟩ := Option.isSome_iff_exists.1 haborted
  obtain ⟨last, hlast, -, hend⟩ := ends tail ht (.returned (.ok ()))
  exact ⟨adm, ha, hc, last, hlast, hend⟩

end Broker

end EventBroker
