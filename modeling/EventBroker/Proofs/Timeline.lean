import EventBroker.Proofs.Accounting
import EventBroker.Proofs.Punctuality

namespace EventBroker

abbrev ChainEvent.started (id : ChainId) : ChainEvent := .signal (.started (some id))

namespace Broker

def timeline (b : Broker) : List Action → List (Instant × ChainEvent)
  | [] => []
  | a :: rest => (b.deeds a).map (b.now, ·) ++ (b.act a).timeline rest

def arrivals (b : Broker) : List Action → List (Instant × Admission)
  | [] => []
  | a :: rest => ((b.admits a).map (b.now, ·)).toList ++ (b.act a).arrivals rest

end Broker

namespace View

variable {v w : View} {a : Option Admission} {es : List ChainEvent} {s : Option Settlement}
  {f : Option (Chain × FinishReason)} {c c' : Chain} {id : ChainId}

theorem Sound.fresh (hv : v.Sound) (hc : c ∈ v.waiting) : c.Fresh := by
  cases List.mem_append.1 hc with
  | inl hc => exact hv.sequencer.queued c hc
  | inr hc =>
    obtain ⟨q, hq, hchain⟩ := List.mem_filterMap.1 hc
    exact hv.sequencer.sent q hq c hchain

structure Starts (v w : View) (id : ChainId) (es : List ChainEvent) : Prop where
  running : v.sequencer.stage ≠ .stopped
  vacant : v.underway = none
  alone : es = [.started id]
  first : ∃ c, v.waiting = c :: w.waiting ∧ c.id = id

theorem Turns.starts (h : v.Turns w es) (hid : .started id ∈ es) : v.Starts w id es := by
  cases h with
  | stay hr ht hw hb hs he => cases (he _ hid).1
  | stop hr ht hw hb hs => cases hid
  | start hr hv ht hw hb hp ha hs =>
    cases List.mem_singleton.1 hid
    exact ⟨hr, Option.map_eq_none_iff.1 hv, rfl, _, hw, rfl⟩
  | hand hr hv ht hw hb hb' hn hs => cases List.mem_singleton.1 hid
  | handed hr hv ht hw hb hb' hn hsub hs => cases List.mem_singleton.1 hid
  | finish last reason hr hv ht hw hb hl hf hs => cases last <;> simp [finishing] at hid

theorem Effect.starts (h : v.Effect a es w) (hv : v.Sound) (hid : .started id ∈ es) :
    v.Starts w id es := by
  cases h with
  | request hq => cases hid
  | carry lane hc => cases hc.silent hv _ hid
  | move hm => exact (hm.turns hv).starts hid

theorem Turns.started (h : v.Turns w es) (hv : v.underway = none) (hw : w.underway = some c) :
    .started c.id ∈ es := by
  have htitle : v.title? = none := by rw [title?, hv]; rfl
  have htitle' : w.title? = some c.title := by rw [title?, hw]; rfl
  cases h with
  | stay hr ht hwait hb hs he => cases htitle'.symm.trans (ht.trans htitle)
  | stop hr ht hwait hb hs => cases htitle'.symm.trans (ht.trans htitle)
  | @start c₀ hr hv' ht hwait hb hp ha hs =>
    have heq := Option.some.inj (ht.symm.trans htitle')
    rw [show c₀.id = c.id from congrArg Prod.fst heq]
    exact List.mem_singleton_self _
  | hand hr hv' ht hwait hb hb' hn hs => cases htitle.symm.trans hv'
  | handed hr hv' ht hwait hb hb' hn hsub hs => cases htitle.symm.trans hv'
  | finish last reason hr hv' ht hwait hb hl hf hs => cases htitle.symm.trans hv'

theorem Effect.started (h : v.Effect a es w) (hv : v.Sound) (hn : v.underway = none)
    (hw : w.underway = some c) : .started c.id ∈ es := by
  cases h with
  | request hq => cases hn.symm.trans (hq.underway_eq.symm.trans hw)
  | carry lane hc =>
    rw [underway, hc.sequencer_eq] at hw
    cases hn.symm.trans hw
  | move hm => exact (hm.turns hv).started hn hw

theorem Advances.underway (h : v.Advances w s f) (hc : w.underway = some c') :
    (∃ c, v.underway = some c ∧ c.Terms c') ∨
      ∃ c ∈ v.waiting, v.underway = none ∧ c' = c.start v.now := by
  cases h with
  | aside ha hs =>
    refine .inl ⟨c', ?_, .refl c'⟩
    cases hstage : w.sequencer.stage with
    | closing n c reason =>
      rw [View.underway, hstage] at hc
      rw [View.underway, (hs n c reason).1 hstage]
      exact hc
    | _ =>
      rw [underway_of_ne (by simp [hstage])] at hc
      rw [underway_of_ne fun n c reason h => by simp [(hs n c reason).2 h] at hstage, ← ha]
      exact hc
  | @start c rest hst ha hp hw hst' =>
    rw [underway_of_ne (by simp [hst'])] at hc
    cases hw.symm.trans hc
    refine .inr ⟨c, List.mem_append_left _ (hp ▸ List.mem_cons_self), ?_, rfl⟩
    rw [underway_of_ne (by simp [hst])]
    exact ha
  | @go c x _ ha hw hadv hst hst' =>
    rw [underway_of_ne hst'] at hc
    cases hw.symm.trans hc
    exact .inl ⟨c, (underway_of_ne hst).trans ha, hadv.terms⟩
  | finish hst ha hi hn hw hst' =>
    rw [underway_of_ne (by simp [hst'])] at hc
    cases hw.symm.trans hc
  | @close n c _ reason hst ha hi hn hw hst' =>
    rw [View.underway, hst'] at hc
    cases hc
    refine .inl ⟨c, ?_, Chain.terms_of_finalize hn⟩
    rw [underway_of_ne (by simp [hst])]
    exact ha
  | closed hst hw hst' =>
    rw [underway_of_ne (by simp [hst'])] at hc
    cases hw.symm.trans hc

theorem Effect.now_le (h : v.Effect a es w) : v.now ≤ w.now := by
  cases h with
  | request hq =>
    cases hq with
    | publish hn hm hq => exact Nat.le_of_eq (congrArg View.now hq.frame).symm
    | tick now => exact Nat.le_max_left _ _
    | _ => exact Nat.le_refl _
  | carry lane hc => exact Nat.le_of_eq (congrArg View.now hc.frame).symm
  | move hm => exact Nat.le_of_eq (congrArg View.now hm.frame).symm

theorem Effect.outlived (h : v.Effect a es w) (hv : v.Sound) (hc : v.underway = some c) :
    (∃ c', w.underway = some c' ∧ c'.id = c.id) ∨
      ∃ reason, .signal (.finished (some c.id) reason) ∈ es := by
  have titled : v.title? = some c.title := by rw [title?, hc]; rfl
  have still (ht : w.title? = some c.title) : ∃ c', w.underway = some c' ∧ c'.id = c.id := by
    obtain ⟨c', hc', ht⟩ := Option.map_eq_some_iff.1 ht
    exact ⟨c', hc', congrArg Prod.fst ht⟩
  cases h with
  | request hq => exact .inl ⟨c, hq.underway_eq.trans hc, rfl⟩
  | carry lane hk =>
    refine .inl ⟨c, ?_, rfl⟩
    rw [View.underway, hk.sequencer_eq]
    exact hc
  | move hm =>
    cases hm.turns hv with
    | stay hr ht hw hb hs he => exact .inl (still (ht.trans titled))
    | stop hr ht hw hb hs => exact .inl (still (ht.trans titled))
    | start hr hv' ht hw hb hp ha hs => cases titled.symm.trans hv'
    | hand hr hv' ht hw hb hb' hn hs => exact .inl (still (ht.trans (hv'.symm.trans titled)))
    | handed hr hv' ht hw hb hb' hn hsub hs =>
      exact .inl (still (ht.trans (hv'.symm.trans titled)))
    | finish last reason hr hv' ht hw hb hl hf hs =>
      cases titled.symm.trans hv'
      refine .inr ⟨some reason.name, List.mem_map_of_mem ?_⟩
      exact List.mem_append_right _ (List.mem_singleton_self _)

theorem Effect.waiting_new {a : Admission} (h : v.Effect (some a) es w) (hid : a.chain = some id) :
    ∃ c ∈ w.waiting, c.id = id := by
  cases h with
  | request hq =>
    have hw : w.waiting = v.waiting ++ (v.chainOf a).toList := hq.waiting_eq
    rw [chainOf, hid] at hw
    exact ⟨_, hw ▸ List.mem_append_right _ List.mem_cons_self, rfl⟩

theorem Effect.placed (h : v.Effect a es w) (hv : v.Sound) (hc : c ∈ v.waiting) :
    c ∈ w.waiting ∨ .started c.id ∈ es ∨ w.sequencer.stage = .stopped := by
  cases h with
  | request hq => exact .inl (hq.waiting_eq ▸ List.mem_append_left _ hc)
  | carry lane hk =>
    rw [waiting, hk.sequencer_eq]
    exact .inl hc
  | move hm =>
    cases hm.turns hv with
    | stop hr ht hw hb hs => exact .inr (.inr hr)
    | @start c₀ hr hv' ht hw hb hp ha hs =>
      rw [hw] at hc
      cases List.mem_cons.1 hc with
      | inl h => exact .inr (.inl (h ▸ List.mem_singleton_self _))
      | inr h => exact .inl h
    | stay hr ht hw hb hs he => exact .inl (hw ▸ hc)
    | hand hr hv' ht hw hb hb' hn hs => exact .inl (hw ▸ hc)
    | handed hr hv' ht hw hb hb' hn hsub hs => exact .inl (hw ▸ hc)
    | finish last reason hr hv' ht hw hb hl hf hs => exact .inl (hw ▸ hc)

theorem Effect.about (h : v.Effect a es w) (hv : v.Sound) {e : ChainEvent} (he : e ∈ es)
    (hid : e.chain? = some id) : (∃ c, v.underway = some c ∧ c.id = id) ∨
      v.underway = none ∧ ∃ c, w.underway = some c ∧ c.id = id := by
  cases h with
  | request hq => cases he
  | carry lane hc => cases (hc.silent hv e he).symm.trans hid
  | move hm =>
    obtain ⟨t, ht, htid⟩ := (hm.turns hv).about e he
    cases htid.symm.trans hid
    cases ht with
    | inl ht =>
      obtain ⟨c, hc, rfl⟩ := Option.map_eq_some_iff.1 ht
      exact .inl ⟨c, hc, rfl⟩
    | inr ht =>
      obtain ⟨c, hc, rfl⟩ := Option.map_eq_some_iff.1 ht.2
      exact .inr ⟨Option.map_eq_none_iff.1 ht.1, c, hc, rfl⟩

end View

def Admission.ids (admitted : List Admission) : List ChainId :=
  (admitted.filterMap Admission.title?).map Prod.fst

def Admission.due (config : Config) (a : Admission) (t : Instant) : Instant :=
  t.after (config.watchdogBudget a.matched.length)

namespace View

variable {v w : View} {a : Option Admission} {es : List ChainEvent} {s : Option Settlement}
  {f : Option (Chain × FinishReason)} {id : ChainId} {admitted : List Admission}
  {events : List (Instant × ChainEvent)}

theorem mem_started {t now : Instant} {id : ChainId}
    (ht : (t, .started id) ∈ events ++ es.map (now, ·)) :
    (t, .started id) ∈ events ∨ t = now ∧ .started id ∈ es := by
  refine (List.mem_append.1 ht).imp_right fun ht => ?_
  obtain ⟨e, he, heq⟩ := List.mem_map.1 ht
  cases heq
  exact ⟨rfl, he⟩

structure Dated (v : View) (admitted : List Admission) (events : List (Instant × ChainEvent)) :
    Prop where
  lined : v.Lined (admitted.filterMap Admission.title?)
  about : ∀ e ∈ events, ∀ id, e.2.chain? = some id →
    id ∈ Admission.ids admitted ∧ ∀ c ∈ v.waiting, c.id ≠ id
  past : ∀ e ∈ events, e.1 ≤ v.now
  once : ∀ t t' id, (t, .started id) ∈ events → (t', .started id) ∈ events → t = t'
  begun : ∀ c, v.underway = some c → ∃ t, c.startedAt = some t ∧ (t, .started c.id) ∈ events
  placed : ∀ a ∈ admitted, ∀ id, a.chain = some id → (∃ c ∈ v.waiting, c.id = id) ∨
    (∃ t, (t, .started id) ∈ events) ∨ v.sequencer.stage = .stopped
  ended : ∀ t id, (t, .started id) ∈ events → (∃ c, v.underway = some c ∧ c.id = id) ∨
    ∃ t' reason, (t', .signal (.finished (some id) reason)) ∈ events
  terms : ∀ a ∈ admitted, ∀ c ∈ v.lineup, a.chain = some c.id →
    c.watchdogBudget = v.config.watchdogBudget a.matched.length ∧
      c.finalReceiver = a.finalReceiver ∧ c.receivers = a.matched.map Subscriber.id

namespace Dated

theorem startedAt (h : v.Dated admitted events) {c : Chain} (hc : v.underway = some c) {t : Instant}
    (ht : (t, .started c.id) ∈ events) : c.startedAt = some t := by
  obtain ⟨t', hc', ht'⟩ := h.begun c hc
  exact hc'.trans (congrArg some (h.once _ _ _ ht' ht))

theorem deadline (h : v.Dated admitted events) {a : Admission} (ha : a ∈ admitted) {c : Chain}
    {t : Instant} (hc : v.underway = some c) (hid : a.chain = some c.id)
    (ht : (t, .started c.id) ∈ events) :
    c.watchdogDeadline = some (a.due v.config t) ∧ c.finalReceiver = a.finalReceiver := by
  have hmem : c ∈ v.lineup := List.mem_append_left _ (Option.mem_toList.2 hc)
  obtain ⟨hbudget, hfinal, -⟩ := h.terms a ha c hmem hid
  refine ⟨?_, hfinal⟩
  rw [Chain.watchdogDeadline, h.startedAt hc ht, hbudget]
  rfl

theorem not_known (h : v.Dated admitted events) {a : Admission} (he : v.Effect (some a) es w)
    (hid : a.chain = some id) : id ∉ Admission.ids admitted := by
  intro hmem
  refine h.lined.fresh hmem he (id, a.finalReceiver) ?_ rfl
  rw [Option.bind_some, Admission.title?, hid]
  rfl

section Effect

variable (h : v.Dated admitted events) (he : v.Effect a es w) (ha : v.Advances w s f)

include h he

theorem lined_effect : w.Lined ((admitted ++ a.toList).filterMap Admission.title?) :=
  Admission.titles_append admitted a ▸ h.lined.effect he

theorem about_effect : ∀ e ∈ events ++ es.map (v.now, ·), ∀ id, e.2.chain? = some id →
    id ∈ Admission.ids (admitted ++ a.toList) ∧ ∀ c ∈ w.waiting, c.id ≠ id := by
  have known {id : ChainId} (hid : id ∈ Admission.ids admitted) :
      id ∈ Admission.ids (admitted ++ a.toList) := by
    rw [Admission.ids, Admission.titles_append, List.map_append]
    exact List.mem_append_left _ hid
  intro e hmem id hid
  cases List.mem_append.1 hmem with
  | inl hold =>
    obtain ⟨hids, hwait⟩ := h.about e hold id hid
    exact ⟨known hids, he.apart h.lined hids hwait⟩
  | inr hnew =>
    obtain ⟨e, hes, rfl⟩ := List.mem_map.1 hnew
    have hids := h.lined.about he e hes id hid
    refine ⟨known hids, ?_⟩
    obtain ⟨c, hc, rfl⟩ | ⟨-, c, hc, rfl⟩ := he.about h.lined.sound hes hid
    · exact he.apart h.lined hids (h.lined.underway_apart hc)
    · exact (h.lined_effect he).underway_apart hc

theorem past_effect : ∀ e ∈ events ++ es.map (v.now, ·), e.1 ≤ w.now := by
  intro e hmem
  refine Nat.le_trans ?_ he.now_le
  cases List.mem_append.1 hmem with
  | inl hold => exact h.past e hold
  | inr hnew =>
    obtain ⟨e, -, rfl⟩ := List.mem_map.1 hnew
    exact Nat.le_refl _

theorem unstarted (hid : .started id ∈ es) (t : Instant) : (t, .started id) ∉ events := by
  intro hmem
  obtain ⟨c, hw, hc⟩ := (he.starts h.lined.sound hid).first
  exact (h.about _ hmem id rfl).2 c (hw ▸ List.mem_cons_self) hc

theorem once_effect (t t' : Instant) (id : ChainId)
    (ht : (t, .started id) ∈ events ++ es.map (v.now, ·))
    (ht' : (t', .started id) ∈ events ++ es.map (v.now, ·)) : t = t' := by
  obtain hold | ⟨rfl, hnew⟩ := mem_started ht
  · obtain hold' | ⟨-, hnew'⟩ := mem_started ht'
    · exact h.once t t' id hold hold'
    · exact absurd hold (h.unstarted he hnew' t)
  · obtain hold' | ⟨rfl, -⟩ := mem_started ht'
    · exact absurd hold' (h.unstarted he hnew t')
    · rfl

theorem placed_effect : ∀ x ∈ admitted ++ a.toList, ∀ id, x.chain = some id →
    (∃ c ∈ w.waiting, c.id = id) ∨ (∃ t, (t, .started id) ∈ events ++ es.map (v.now, ·)) ∨
      w.sequencer.stage = .stopped := by
  intro x hx id hid
  cases List.mem_append.1 hx with
  | inr hx =>
    rw [Option.mem_toList.1 hx] at he
    exact .inl (he.waiting_new hid)
  | inl hx =>
    obtain ⟨c, hc, rfl⟩ | ⟨t, ht⟩ | hs := h.placed x hx id hid
    · obtain hw | hs | hs := he.placed h.lined.sound hc
      · exact .inl ⟨c, hw, rfl⟩
      · exact .inr (.inl ⟨v.now, List.mem_append_right _ (List.mem_map_of_mem hs)⟩)
      · exact .inr (.inr hs)
    · exact .inr (.inl ⟨t, List.mem_append_left _ ht⟩)
    · refine .inr (.inr ?_)
      by_contra hw
      exact he.not_stopped h.lined.sound hw hs

theorem ended_effect : ∀ t id, (t, .started id) ∈ events ++ es.map (v.now, ·) →
    (∃ c, w.underway = some c ∧ c.id = id) ∨ ∃ t' reason,
      (t', .signal (.finished (some id) reason)) ∈ events ++ es.map (v.now, ·) := by
  intro t id ht
  obtain hold | ⟨-, hnew⟩ := mem_started ht
  · obtain ⟨c, hc, rfl⟩ | ⟨t', reason, hfin⟩ := h.ended t id hold
    · obtain hw | ⟨reason, hfin⟩ := he.outlived h.lined.sound hc
      · exact .inl hw
      · exact .inr ⟨_, reason, List.mem_append_right _ (List.mem_map_of_mem hfin)⟩
    · exact .inr ⟨t', reason, List.mem_append_left _ hfin⟩
  · obtain ⟨c, hc, rfl⟩ | ⟨-, c, hc, rfl⟩ := he.about h.lined.sound hnew rfl
    · cases (he.starts h.lined.sound hnew).vacant.symm.trans hc
    · exact .inl ⟨c, hc, rfl⟩

include ha

theorem begun_effect (c' : Chain) (hc : w.underway = some c') :
    ∃ t, c'.startedAt = some t ∧ (t, .started c'.id) ∈ events ++ es.map (v.now, ·) := by
  obtain ⟨c, hu, hterms⟩ | ⟨c, hmem, hu, rfl⟩ := ha.underway hc
  · obtain ⟨t, hc, ht⟩ := h.begun c hu
    exact ⟨t, hterms.startedAt.trans hc, hterms.id ▸ List.mem_append_left _ ht⟩
  · refine ⟨v.now, ?_, List.mem_append_right _ (List.mem_map_of_mem ?_)⟩
    · cases h.lined.sound.fresh hmem
      rfl
    · exact he.started h.lined.sound hu hc

theorem lineup_effect {c' : Chain} (hc : c' ∈ w.lineup) :
    (∃ c ∈ v.lineup, c'.id = c.id ∧ c'.receivers = c.receivers ∧
      c'.watchdogBudget = c.watchdogBudget ∧ c'.finalReceiver = c.finalReceiver) ∨
      a.bind v.chainOf = some c' := by
  cases List.mem_append.1 hc with
  | inr hc =>
    exact (he.waiting_mem h.lined.sound hc).imp_left fun hc =>
      ⟨c', List.mem_append_right _ hc, rfl, rfl, rfl, rfl⟩
  | inl hc =>
    replace hc := Option.mem_toList.1 hc
    left
    obtain ⟨c, hu, hterms⟩ | ⟨c, hmem, hu, rfl⟩ := ha.underway hc
    · exact ⟨c, List.mem_append_left _ (Option.mem_toList.2 hu), hterms.id, hterms.receivers,
        hterms.watchdogBudget, hterms.final⟩
    · exact ⟨c, List.mem_append_right _ hmem, rfl, rfl, rfl, rfl⟩

theorem terms_effect : ∀ x ∈ admitted ++ a.toList, ∀ c ∈ w.lineup, x.chain = some c.id →
    c.watchdogBudget = w.config.watchdogBudget x.matched.length ∧
      c.finalReceiver = x.finalReceiver ∧ c.receivers = x.matched.map Subscriber.id := by
  intro x hx c' hc' hid
  rw [he.config_eq]
  cases List.mem_append.1 hx with
  | inl hold =>
    obtain ⟨c, hc, hcid, hr, hb, hf⟩ | hnew := h.lineup_effect he ha hc'
    · rw [hb, hf, hr]
      exact h.terms x hold c hc (hid.trans (congrArg some hcid))
    · obtain ⟨y, rfl, hy⟩ := Option.bind_eq_some_iff.1 hnew
      obtain ⟨id, hyid, rfl⟩ := Option.map_eq_some_iff.1 hy
      have hknown : id ∈ Admission.ids admitted := Broker.mem_ids hold hid
      exact absurd hknown (h.not_known he hyid)
  | inr hx =>
    cases Option.mem_toList.1 hx
    obtain ⟨c, hc, hcid, -⟩ | hnew := h.lineup_effect he ha hc'
    · have hknown := h.lined.titles_subset (lineup_titles v ▸ List.mem_map_of_mem hc)
      refine absurd ?_ (h.not_known he hid)
      exact hcid ▸ List.mem_map_of_mem (f := Prod.fst) hknown
    · obtain ⟨id, hyid, rfl⟩ := Option.map_eq_some_iff.1 hnew
      exact ⟨rfl, rfl, rfl⟩

theorem effect : w.Dated (admitted ++ a.toList) (events ++ es.map (v.now, ·)) where
  lined := h.lined_effect he
  about := h.about_effect he
  past := h.past_effect he
  once := h.once_effect he
  begun := h.begun_effect he ha
  placed := h.placed_effect he
  ended := h.ended_effect he
  terms := h.terms_effect he ha

end Effect

end Dated

end View

namespace Broker

variable {b : Broker} {admitted : List Admission} {events : List (Instant × ChainEvent)}

theorem run_config (hv : b.view.Sound) (actions : List Action) :
    (b.run actions).config = b.config := by
  induction actions generalizing b with
  | nil => rfl
  | cons a rest ih =>
    have he := b.act_effect a hv.registry
    exact (ih (hv.effect he)).trans he.config_eq

theorem dated_start (config : Config) (oracle : Oracle) (bundleOf : Uid → Option String)
    (observers : List Observer) : (start config oracle bundleOf observers).view.Dated [] [] where
  lined := view_start_lined config oracle bundleOf observers
  about := List.forall_mem_nil _
  past := List.forall_mem_nil _
  once := fun _ _ _ h => absurd h List.not_mem_nil
  begun := fun _ h => absurd h.symm (Option.some_ne_none _)
  placed := List.forall_mem_nil _
  ended := fun _ _ h => absurd h List.not_mem_nil
  terms := List.forall_mem_nil _

end Broker

end EventBroker
