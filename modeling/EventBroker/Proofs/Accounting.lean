import EventBroker.Proofs.Passing
import EventBroker.Proofs.Reckoning

namespace EventBroker

def Settlement.ofChain (id : ChainId) (settled : List Settlement) :
    List (SubscriberId × Fate) :=
  (settled.filter fun s => s.chain = id).map fun s => (s.receiver, s.fate)

namespace Settlement

theorem ofChain_append (id : ChainId) (xs ys : List Settlement) :
    ofChain id (xs ++ ys) = ofChain id xs ++ ofChain id ys := by
  rw [ofChain, List.filter_append, List.map_append]
  rfl

theorem ofChain_none (id : ChainId) : ofChain id (none : Option Settlement).toList = [] := rfl

theorem ofChain_eq_nil {id : ChainId} {settled : List Settlement}
    (h : ∀ s ∈ settled, s.chain ≠ id) : ofChain id settled = [] := by
  rw [ofChain, List.filter_eq_nil_iff.2 fun s hs => by simp [h s hs]]
  rfl

end Settlement

def tally (ended : List (SubscriberId × Fate)) : Nat :=
  (ended.map fun x => x.2.state).count .delivered

theorem Chain.Kept.delivered {c : Chain} {ended : List (SubscriberId × Fate)} (h : c.Kept ended) :
    c.delivered = tally ended := by
  have hpending (n : Nat) : (List.replicate n DeliveryState.pending).count .delivered = 0 :=
    List.count_eq_zero.2 (by simp)
  rw [Chain.delivered, h.deliveries, Fate.ledger, List.count_append, List.map_map, hpending]
  rfl

namespace View

variable {v w : View} {b : Option Admission} {es : List ChainEvent} {id : ChainId}
  {admitted : List (ChainId × Option Receiver)} {s : Option Settlement}
  {f : Option (Chain × FinishReason)}

theorem Addressed.effect (h : v.Addressed) (hr : v.registry.Sound) (he : v.Effect b es w) :
    w.Addressed := by
  cases he with
  | request hq =>
    obtain ⟨cs, -, hs⟩ := hq.sends
    rw [Addressed, hs]
    exact h
  | carry lane hc =>
    rw [Addressed, hc.sequencer_eq]
    exact h
  | move hm => exact hm.addressed hr

theorem Advances.about (h : v.Advances w s f) :
    (∀ x ∈ s, ∃ c, v.underway = some c ∧ c.id = x.chain) ∧
      ∀ x ∈ f, ∃ c, v.underway = some c ∧ c.id = x.1.id := by
  have settled : ∀ x ∈ (none : Option Settlement), ∃ c, v.underway = some c ∧ c.id = x.chain :=
    fun _ h => nomatch h
  have finished : ∀ x ∈ (none : Option (Chain × FinishReason)),
      ∃ c, v.underway = some c ∧ c.id = x.1.id :=
    fun _ h => nomatch h
  cases h with
  | aside ha hs => exact ⟨settled, finished⟩
  | start hv ha hp hw hs => exact ⟨settled, finished⟩
  | @go c c' x ha hw hc hv hs =>
    refine ⟨fun y hy => ⟨c, (underway_of_ne hv).trans ha, ?_⟩, finished⟩
    obtain ⟨z, -, rfl⟩ := Option.map_eq_some_iff.1 hy
    rfl
  | @finish c c' reason hv ha hi hn hw hs =>
    refine ⟨settled, fun y hy => ⟨c, ?_, ?_⟩⟩
    · rw [underway_of_ne (by simp [hv]), ha]
    · cases hy
      exact (Chain.next_finalize hn).1.symm
  | close hv ha hi hn hw hs => exact ⟨settled, finished⟩
  | @closed n c reason hv hw hs =>
    refine ⟨settled, fun y hy => ⟨c, ?_, ?_⟩⟩
    · rw [underway, hv]
    · cases hy
      rfl

theorem Advances.unconcerned (h : v.Advances w s f) (hu : ∀ c, v.underway = some c → c.id ≠ id) :
    Settlement.ofChain id s.toList = [] ∧
      (f.map fun x => x.1.ending x.2).toList.filter (fun e => e.1 = id) = [] := by
  obtain ⟨hs, hf⟩ := h.about
  refine ⟨Settlement.ofChain_eq_nil fun x hx => ?_, List.filter_eq_nil_iff.2 fun e he => ?_⟩
  · obtain ⟨c, hc, hid⟩ := hs x (Option.mem_toList.1 hx)
    exact hid ▸ hu c hc
  · obtain ⟨x, hx, rfl⟩ := Option.map_eq_some_iff.1 (Option.mem_toList.1 he)
    obtain ⟨c, hc, hid⟩ := hf x hx
    exact fun h => hu c hc (hid.trans (of_decide_eq_true h))

theorem Effect.waits {c : Chain} (he : v.Effect b es w) (hl : v.Lined admitted)
    (hc : c ∈ v.waiting) : c ∈ w.waiting ∨
      (w.sequencer.active = some (c.start v.now) ∧ w.sequencer.stage = .pumping) ∨
        w.Past c.id := by
  have hd := hl.titles_nodup
  rw [titles, List.map_append, List.map_map] at hd
  obtain ⟨-, hnodup, happart⟩ := List.nodup_append.1 hd
  have apart : ∀ t, v.title? = some t → t.1 ≠ c.id := fun t ht =>
    happart t.1 (by simp [ht]) c.id (List.mem_map_of_mem hc)
  cases he with
  | request hq => exact .inl (hq.waiting_eq ▸ List.mem_append_left _ hc)
  | carry lane hk =>
    rw [waiting, hk.sequencer_eq]
    exact .inl hc
  | move hm =>
    cases hm.turns hl.sound with
    | stop hr ht hw hb hs =>
      by_cases hc' : c ∈ w.waiting
      · exact .inl hc'
      · refine .inr (.inr ⟨ht ▸ apart, fun x hx hid => ?_⟩)
        have hx' : x = c := List.inj_on_of_nodup_map hnodup (hw.subset hx) hc hid
        exact hc' (hx' ▸ hx)
    | @start c₀ hr hv ht hw hb hp ha hs =>
      rw [hw] at hc
      cases List.mem_cons.1 hc with
      | inl h => exact .inr (.inl ⟨h ▸ ha, hp⟩)
      | inr h => exact .inl h
    | stay hr ht hw hb hs he => exact .inl (hw ▸ hc)
    | hand hr hv ht hw hb hb' hn hs => exact .inl (hw ▸ hc)
    | handed hr hv ht hw hb hb' hn hsub hs => exact .inl (hw ▸ hc)
    | finish last reason hr hv ht hw hb hl hf hs => exact .inl (hw ▸ hc)

theorem Effect.apart (he : v.Effect b es w) (hl : v.Lined admitted)
    (hid : id ∈ admitted.map Prod.fst) (h : ∀ c ∈ v.waiting, c.id ≠ id) :
    ∀ c ∈ w.waiting, c.id ≠ id := by
  have hn := hl.fresh hid he
  cases he with
  | request hq =>
    intro c hc
    rw [hq.waiting_eq] at hc
    cases List.mem_append.1 hc with
    | inl hc => exact h c hc
    | inr hc =>
      obtain ⟨a, rfl, ha⟩ := Option.bind_eq_some_iff.1 (Option.mem_toList.1 hc)
      refine hn c.title ?_
      rw [Option.bind_some, ← title_of_chainOf v a, ha]
      rfl
  | carry lane hk =>
    rw [waiting, hk.sequencer_eq]
    exact h
  | move hm =>
    cases hm.turns hl.sound with
    | stop hr ht hw hb hs => exact fun c hc => h c (hw.subset hc)
    | start hr hv ht hw hb hp ha hs =>
      rw [hw] at h
      exact fun c hc => h c (List.mem_cons_of_mem _ hc)
    | stay hr ht hw hb hs he => exact hw ▸ h
    | hand hr hv ht hw hb hb' hn hs => exact hw ▸ h
    | handed hr hv ht hw hb hb' hn hsub hs => exact hw ▸ h
    | finish last reason hr hv ht hw hb hl hf hs => exact hw ▸ h

/-- How it stands with the chain `id` to `receivers`: its deliveries have ended as `ended` says, and
that is what `endings` says of its finish. -/
inductive Keeps (v : View) (id : ChainId) (receivers : List SubscriberId)
    (ended : List (SubscriberId × Fate)) : List (ChainId × Option Nat × Option String) → Prop
  | waits {c : Chain} (hc : c ∈ v.waiting) (hid : c.id = id) (hr : c.receivers = receivers)
      (hf : c.Fresh) (he : ended = []) : Keeps v id receivers ended []
  | serves {c : Chain} (hs : ∀ n d reason, v.sequencer.stage ≠ .closing n d reason)
      (hc : v.sequencer.active = some c) (hid : c.id = id) (hr : c.receivers = receivers)
      (hp : c.Posted ended) : Keeps v id receivers ended []
  | closes {n : Notice} {c : Chain} {reason : FinishReason}
      (hs : v.sequencer.stage = .closing n c reason) (hid : c.id = id)
      (hr : c.receivers = receivers) (hc : c.current = none) (hk : c.Kept ended)
      (hf : reason.Fits receivers.length (ended.map Prod.snd)) : Keeps v id receivers ended []
  | finished {reason : FinishReason} (hv : v.Past id) (hw : ended.map Prod.fst <+: receivers)
      (hf : reason.Fits receivers.length (ended.map Prod.snd)) :
    Keeps v id receivers ended [(id, some (min (tally ended) maxCount), some reason.name)]
  | lost (hv : v.Past id) (he : ended = []) : Keeps v id receivers ended []

theorem Lined.underway_apart {c : Chain} (hl : v.Lined admitted) (hc : v.underway = some c) :
    ∀ x ∈ v.waiting, x.id ≠ c.id := by
  intro x hx hid
  have hd := hl.titles_nodup
  rw [titles, title?, hc, List.map_append, List.map_map] at hd
  exact (List.nodup_append.1 hd).2.2 c.id (by simp [Chain.title]) x.id (List.mem_map_of_mem hx)
    hid.symm

theorem Lined.known {c : Chain} (hl : v.Lined admitted) (hc : v.underway = some c) :
    c.id ∈ admitted.map Prod.fst := by
  refine List.mem_map_of_mem (f := Prod.fst) (a := c.title) (hl.titles_subset ?_)
  exact List.mem_append_left _ (by rw [title?, hc]; exact List.mem_singleton_self _)

theorem Past.underway_ne (h : v.Past id) : ∀ c, v.underway = some c → c.id ≠ id := by
  intro c hc
  refine h.underway c.title ?_
  rw [title?, hc]
  rfl

namespace Keeps

variable {receivers : List SubscriberId} {ended : List (SubscriberId × Fate)}
  {endings : List (ChainId × Option Nat × Option String)}

theorem on_waits {c : Chain} (hl : v.Lined admitted) (he : v.Effect b es w) (hc : c ∈ v.waiting)
    (hf : c.Fresh) : w.Keeps c.id c.receivers [] [] := by
  obtain hw | ⟨ha, hp⟩ | hp := he.waits hl hc
  · exact .waits hw rfl rfl hf rfl
  · exact .serves (by simp [hp]) ha rfl rfl (hf.posted v.now)
  · exact .lost hp rfl

theorem on_finished {c c' : Chain} {reason : FinishReason} (hl : v.Lined admitted)
    (hid : c.id ∈ admitted.map Prod.fst) (he : v.Effect b es w) (hc : v.underway = some c)
    (hw : w.sequencer.active = none) (hs : w.sequencer.stage = .pumping) (hid' : c'.id = c.id)
    (hr : c'.receivers = c.receivers) (hk : c'.Kept ended)
    (hf : reason.Fits c.receivers.length (ended.map Prod.snd)) :
    w.Keeps c.id c.receivers ended ([c'.ending reason].filter fun e => e.1 = c.id) := by
  have hpast : w.Past c.id := by
    refine ⟨fun t ht => ?_, he.apart hl hid (hl.underway_apart hc)⟩
    rw [title?, underway_of_ne (by simp [hs]), hw] at ht
    cases ht
  rw [List.filter_cons_of_pos (by simp [Chain.ending, hid']), List.filter_nil, Chain.ending,
    hk.delivered, hid']
  exact .finished hpast (hr ▸ hk.whom) hf

theorem on_serves {c : Chain} (hl : v.Lined admitted) (hid : c.id ∈ admitted.map Prod.fst)
    (he : v.Effect b es w) (ha : v.Advances w s f)
    (hs : ∀ n d reason, v.sequencer.stage ≠ .closing n d reason)
    (hc : v.sequencer.active = some c) (hp : c.Posted ended) :
    w.Keeps c.id c.receivers (ended ++ Settlement.ofChain c.id s.toList)
      ((f.map fun x => x.1.ending x.2).toList.filter fun e => e.1 = c.id) := by
  cases ha with
  | aside ha hst =>
    rw [Settlement.ofChain_none, List.append_nil]
    exact .serves (fun n d reason h => hs n d reason ((hst n d reason).1 h)) (ha.trans hc) rfl rfl
      hp
  | start hv ha hpend hw hst => cases ha.symm.trans hc
  | @go _ c' x ha hw hadv hv hst =>
    cases ha.symm.trans hc
    have hx : Settlement.ofChain c.id (x.map fun x => ⟨c.id, x.1, x.2⟩).toList = x.toList := by
      cases x with
      | none => rfl
      | some x => simp [Settlement.ofChain]
    rw [hx]
    exact .serves hst hw hadv.terms.id hadv.terms.receivers (hadv.posted hp)
  | @finish _ c' reason hv ha hi hn hw hst =>
    cases ha.symm.trans hc
    obtain ⟨hid', -, -, hr, -⟩ := Chain.next_finalize hn
    obtain ⟨hk, hf⟩ := hp.finalize hi hn
    rw [Settlement.ofChain_none, List.append_nil]
    exact on_finished hl hid he ((underway_of_ne hs).trans hc) hw hst hid' hr hk hf
  | @close n _ c' reason hv ha hi hn hw hst =>
    cases ha.symm.trans hc
    obtain ⟨hid', -, -, hr, -⟩ := Chain.next_finalize hn
    obtain ⟨hk, hf⟩ := hp.finalize hi hn
    rw [Settlement.ofChain_none, List.append_nil]
    exact .closes hst hid' hr (Chain.current_of_finalize hn) hk hf
  | closed hv hw hst => exact absurd hv (hs _ _ _)

theorem on_closes {n : Notice} {c : Chain} {reason : FinishReason} (hl : v.Lined admitted)
    (hid : c.id ∈ admitted.map Prod.fst) (he : v.Effect b es w) (ha : v.Advances w s f)
    (hs : v.sequencer.stage = .closing n c reason) (hc : c.current = none) (hk : c.Kept ended)
    (hf : reason.Fits c.receivers.length (ended.map Prod.snd)) :
    w.Keeps c.id c.receivers (ended ++ Settlement.ofChain c.id s.toList)
      ((f.map fun x => x.1.ending x.2).toList.filter fun e => e.1 = c.id) := by
  have pumping {P : Prop} (h : v.sequencer.stage = .pumping) : P :=
    SequencerStage.noConfusion (h.symm.trans hs)
  cases ha with
  | aside ha hst =>
    rw [Settlement.ofChain_none, List.append_nil]
    exact .closes ((hst _ _ _).2 hs) rfl rfl hc hk hf
  | start hv ha hpend hw hst => exact pumping hv
  | go ha hw hadv hv hst => exact absurd hs (hv _ _ _)
  | finish hv ha hi hn hw hst => exact pumping hv
  | close hv ha hi hn hw hst => exact pumping hv
  | closed hv hw hst =>
    cases hv.symm.trans hs
    rw [Settlement.ofChain_none, List.append_nil]
    exact on_finished hl hid he (by rw [underway, hs]) hw hst rfl rfl hk hf

theorem effect (h : v.Keeps id receivers ended endings) (hl : v.Lined admitted)
    (hid : id ∈ admitted.map Prod.fst) (he : v.Effect b es w) (ha : v.Advances w s f) :
    w.Keeps id receivers (ended ++ Settlement.ofChain id s.toList)
      (endings ++ (f.map fun x => x.1.ending x.2).toList.filter fun e => e.1 = id) := by
  cases h with
  | waits hc hid' hr hf he' =>
    subst hid' hr he'
    have hu : ∀ x, v.underway = some x → x.id ≠ _ := fun x hx h =>
      hl.underway_apart hx _ hc h.symm
    obtain ⟨hs, hfin⟩ := ha.unconcerned hu
    rw [hs, hfin]
    exact on_waits hl he hc hf
  | serves hs hc hid' hr hp =>
    subst hid' hr
    exact on_serves hl hid he ha hs hc hp
  | closes hs hid' hr hc hk hf =>
    subst hid' hr
    exact on_closes hl hid he ha hs hc hk hf
  | finished hv hw hf =>
    obtain ⟨hs, hfin⟩ := ha.unconcerned hv.underway_ne
    rw [hs, hfin, List.append_nil, List.append_nil]
    exact .finished (hv.effect hl hid he) hw hf
  | lost hv he' =>
    subst he'
    obtain ⟨hs, hfin⟩ := ha.unconcerned hv.underway_ne
    rw [hs, hfin]
    exact .lost (hv.effect hl hid he) rfl

theorem whom (h : v.Keeps id receivers ended endings) : ended.map Prod.fst <+: receivers := by
  cases h with
  | waits hc hid hr hf he =>
    subst he
    exact List.nil_prefix
  | serves hs hc hid hr hp => exact hr ▸ hp.whom
  | closes hs hid hr hc hk hf => exact hr ▸ hk.whom
  | finished hv hw hf => exact hw
  | lost hv he =>
    subst he
    exact List.nil_prefix

theorem ends (h : v.Keeps id receivers ended endings) : endings = [] ∨
    ∃ reason : FinishReason, endings = [(id, some (min (tally ended) maxCount), some reason.name)] ∧
      reason.Fits receivers.length (ended.map Prod.snd) ∧ v.Past id := by
  cases h with
  | finished hv hw hf => exact .inr ⟨_, rfl, hf, hv⟩
  | _ => exact .inl rfl

theorem stands (h : v.Keeps id receivers ended endings) (hl : v.Lined admitted) {c : Chain}
    (hc : c ∈ v.lineup) (hid : c.id = id) : c.receivers = receivers ∧
      c.deliveries = Fate.ledger receivers.length (ended.map Prod.snd) ∧
        ∀ i, c.current = some i → i = ended.length := by
  have past (hv : v.Past id) : False := by
    cases List.mem_append.1 hc with
    | inl hu => exact hv.underway_ne c (Option.mem_toList.1 hu) hid
    | inr hw => exact hv.waiting c hw hid
  cases h with
  | @waits x hx hid' hr hf he =>
    cases hl.chain_eq (List.mem_append_right _ hx) hc (hid.trans hid'.symm)
    subst hr he
    cases hf with
    | mk => exact ⟨rfl, List.map_const' .., fun i hi => (Option.not_mem_none i hi).elim⟩
  | @serves x hs hx hid' hr hp =>
    have hu : v.underway = some x := (underway_of_ne hs).trans hx
    have hmem : x ∈ v.lineup := List.mem_append_left _ (Option.mem_toList.2 hu)
    cases hl.chain_eq hmem hc (hid.trans hid'.symm)
    subst hr
    refine ⟨rfl, hp.deliveries, fun i hi => ?_⟩
    by_cases hstate : c.state = .idle
    · cases (hp.idle hstate).1.symm.trans hi
    · exact Option.some.inj (hi.symm.trans (hp.engaged hstate).1)
  | @closes n x reason hs hid' hr hcur hk hf =>
    have hu : v.underway = some x := by rw [underway, hs]
    have hmem : x ∈ v.lineup := List.mem_append_left _ (Option.mem_toList.2 hu)
    cases hl.chain_eq hmem hc (hid.trans hid'.symm)
    subst hr
    exact ⟨rfl, hk.deliveries, by simp [hcur]⟩
  | finished hv hw hf => exact (past hv).elim
  | lost hv he => exact (past hv).elim

theorem of_admitted {a : Admission} (he : v.Effect (some a) es w) (hid : a.chain = some id) :
    w.Keeps id (a.matched.map Subscriber.id) [] [] := by
  cases he with
  | request hq =>
    have hw : w.waiting = v.waiting ++ (v.chainOf a).toList := hq.waiting_eq
    rw [chainOf, hid] at hw
    exact .waits (hw ▸ List.mem_append_right _ List.mem_cons_self) rfl rfl (.mk ..) rfl

end Keeps

end View

namespace Broker

def verdicts (b : Broker) : List (ChainId × SubscriberId × RecordKind) :=
  b.reports.filterMap Record.verdict?

def endings (b : Broker) : List (ChainId × Option Nat × Option String) :=
  b.reports.filterMap Record.ending?

structure Books (b : Broker) (admitted : List Admission) (settled : List Settlement) : Prop where
  lined : b.view.Lined (admitted.filterMap Admission.title?)
  addressed : b.view.Addressed
  verdicts : b.verdicts = settled.filterMap Settlement.verdict?
  about : ∀ s ∈ settled, s.chain ∈ (admitted.filterMap Admission.title?).map Prod.fst
  finished : ∀ e ∈ b.endings, e.1 ∈ (admitted.filterMap Admission.title?).map Prod.fst
  keeps : ∀ a ∈ admitted, ∀ id, a.chain = some id → b.view.Keeps id
    (a.matched.map Subscriber.id) (Settlement.ofChain id settled) (b.endings.filter (·.1 = id))

variable {b b' : Broker} {admitted : List Admission} {settled : List Settlement}
  {s : Option Settlement} {f : Option (Chain × FinishReason)} {rs : List Record}

theorem Reckons.verdicts_eq (h : b.Reckons b' s f rs) :
    b'.verdicts = b.verdicts ++ (s.bind Settlement.verdict?).toList := by
  rw [Broker.verdicts, h.reports, List.filterMap_append, h.verdicts]
  rfl

theorem Reckons.endings_eq (h : b.Reckons b' s f rs) :
    b'.endings = b.endings ++ (f.map fun x => x.1.ending x.2).toList := by
  rw [Broker.endings, h.reports, List.filterMap_append, h.endings]
  rfl

theorem mem_ids {a : Admission} (ha : a ∈ admitted) {id : ChainId} (hid : a.chain = some id) :
    id ∈ (admitted.filterMap Admission.title?).map Prod.fst := by
  refine List.mem_map.2 ⟨(id, a.finalReceiver), List.mem_filterMap.2 ⟨a, ha, ?_⟩, rfl⟩
  rw [Admission.title?, hid]
  rfl

theorem books_start (config : Config) (oracle : Oracle) (bundleOf : Uid → Option String)
    (observers : List Observer) : (start config oracle bundleOf observers).Books [] [] where
  lined := view_start_lined config oracle bundleOf observers
  addressed := fun _ _ _ h => nomatch h
  verdicts := rfl
  about := List.forall_mem_nil _
  finished := List.forall_mem_nil _
  keeps := List.forall_mem_nil _

theorem Books.known_act (h : b.Books admitted settled) {a : Action}
    (hr : b.Reckons (b.act a) (b.settlement? a) f rs) :
    (∀ s ∈ settled ++ (b.settlement? a).toList,
      s.chain ∈ (admitted.filterMap Admission.title?).map Prod.fst) ∧
      ∀ e ∈ (b.act a).endings, e.1 ∈ (admitted.filterMap Admission.title?).map Prod.fst := by
  obtain ⟨hsettled, hfinished⟩ := hr.advances.about
  rw [hr.endings_eq]
  refine ⟨List.forall_mem_append.2 ⟨h.about, fun s hs => ?_⟩,
    List.forall_mem_append.2 ⟨h.finished, fun e hmem => ?_⟩⟩
  · obtain ⟨c, hc, hid⟩ := hsettled s (Option.mem_toList.1 hs)
    exact hid ▸ h.lined.known hc
  · obtain ⟨x, hx, rfl⟩ := Option.map_eq_some_iff.1 (Option.mem_toList.1 hmem)
    obtain ⟨c, hc, hid⟩ := hfinished x hx
    rw [Chain.ending, ← hid]
    exact h.lined.known hc

theorem Books.keeps_act (h : b.Books admitted settled) {a : Action}
    (hr : b.Reckons (b.act a) (b.settlement? a) f rs) {adm : Admission}
    (hadm : adm ∈ admitted ++ (b.admits a).toList) {id : ChainId} (hid : adm.chain = some id) :
    (b.act a).view.Keeps id (adm.matched.map Subscriber.id)
      (Settlement.ofChain id (settled ++ (b.settlement? a).toList))
      ((b.act a).endings.filter (·.1 = id)) := by
  have he := b.act_effect a h.lined.sound.registry
  cases List.mem_append.1 hadm with
  | inl hadm =>
    have hk := (h.keeps adm hadm id hid).effect h.lined (mem_ids hadm hid) he hr.advances
    rw [Settlement.ofChain_append, hr.endings_eq, List.filter_append]
    exact hk
  | inr hadm =>
    replace hadm := Option.mem_toList.1 hadm
    have hfresh : id ∉ (admitted.filterMap Admission.title?).map Prod.fst := fun hmem => by
      refine h.lined.fresh hmem he (id, adm.finalReceiver) ?_ rfl
      rw [hadm, Option.bind_some, Admission.title?, hid]
      rfl
    obtain ⟨about, finished⟩ := h.known_act hr
    have hsettled : ∀ s ∈ settled ++ (b.settlement? a).toList, s.chain ≠ id :=
      fun s hs heq => hfresh (heq ▸ about s hs)
    have hendings : (b.act a).endings.filter (·.1 = id) = [] :=
      List.filter_eq_nil_iff.2 fun e hx heq => hfresh (of_decide_eq_true heq ▸ finished e hx)
    rw [Settlement.ofChain_eq_nil hsettled, hendings]
    rw [hadm] at he
    exact .of_admitted he hid

theorem Books.act (h : b.Books admitted settled) (a : Action) :
    (b.act a).Books (admitted ++ (b.admits a).toList) (settled ++ (b.settlement? a).toList) := by
  have he := b.act_effect a h.lined.sound.registry
  obtain ⟨f, rs, hr⟩ := reckons_act h.lined.sound h.addressed a
  have htitles := Admission.titles_append admitted (b.admits a)
  have old {id : ChainId} (hid : id ∈ (admitted.filterMap Admission.title?).map Prod.fst) :
      id ∈ ((admitted ++ (b.admits a).toList).filterMap Admission.title?).map Prod.fst := by
    rw [htitles, List.map_append]
    exact List.mem_append_left _ hid
  obtain ⟨about, finished⟩ := h.known_act hr
  refine ⟨htitles ▸ h.lined.effect he, h.addressed.effect h.lined.sound.registry he, ?_,
    fun s hs => old (about s hs), fun e hx => old (finished e hx),
    fun adm hadm id hid => h.keeps_act hr hadm hid⟩
  rw [hr.verdicts_eq, h.verdicts, List.filterMap_append]
  cases b.settlement? a with
  | none => rfl
  | some s => cases hs : s.verdict? <;> simp [hs]

theorem Books.run (h : b.Books admitted settled) (actions : List Action) :
    (b.run actions).Books (admitted ++ b.admissions actions)
      (settled ++ b.settlements actions) := by
  induction actions generalizing b admitted settled with
  | nil =>
    rw [admissions, settlements, List.append_nil, List.append_nil]
    exact h
  | cons a rest ih =>
    rw [admissions, settlements, ← List.append_assoc, ← List.append_assoc]
    exact ih (h.act a)

/-- The deliveries of chains are accounted for. Records tell of those that ended in the order in
which they did; the deliveries of one chain end in the order of its receivers, of whom it keeps
those that it was admitted with, and it says of each delivery how it ended, or that it is pending.
A chain is finished at most once, when its deliveries have ended as the reason given demands, and
the count given is of those that were made. -/
theorem deliveries_accounted (config : Config) (oracle : Oracle) (bundleOf : Uid → Option String)
    (observers : List Observer) (actions : List Action) :
    let b := start config oracle bundleOf observers
    let w := b.run actions
    w.verdicts = (b.settlements actions).filterMap Settlement.verdict? ∧
      (∀ c ∈ w.view.lineup, ∃ a ∈ b.admissions actions, a.chain = some c.id) ∧
      ∀ a ∈ b.admissions actions, ∀ id, a.chain = some id →
        let receivers := a.matched.map Subscriber.id
        let ended := Settlement.ofChain id (b.settlements actions)
        ended.map Prod.fst <+: receivers ∧
          (∀ c ∈ w.view.lineup, c.id = id → c.receivers = receivers ∧
            c.deliveries = Fate.ledger receivers.length (ended.map Prod.snd) ∧
            c.deliveries.length = receivers.length ∧
            ∀ i, c.current = some i → i = ended.length) ∧
          (w.endings.filter (·.1 = id) = [] ∨ ∃ reason : FinishReason,
            w.endings.filter (·.1 = id) =
              [(id, some (min (tally ended) maxCount), some reason.name)] ∧
            reason.Fits receivers.length (ended.map Prod.snd) ∧ w.view.Past id) := by
  intro b w
  have h : w.Books (b.admissions actions) (b.settlements actions) :=
    (books_start config oracle bundleOf observers).run actions
  refine ⟨h.verdicts, fun c hc => ?_, fun a ha id hid => ?_⟩
  · have ht := h.lined.titles_subset (View.lineup_titles _ ▸ List.mem_map_of_mem hc)
    obtain ⟨a, ha, ht⟩ := List.mem_filterMap.1 ht
    refine ⟨a, ha, ?_⟩
    rw [Admission.title?] at ht
    obtain ⟨id, hid, hc⟩ := Option.map_eq_some_iff.1 ht
    exact hid.trans (congrArg some (congrArg Prod.fst hc))
  · have hk := h.keeps a ha id hid
    refine ⟨hk.whom, fun c hc hid => ?_, hk.ends⟩
    obtain ⟨hr, hd, hcur⟩ := hk.stands h.lined hc hid
    refine ⟨hr, hd, ?_, hcur⟩
    have hle := hk.whom.length_le
    rw [List.length_map] at hle
    rw [hd, Fate.length_ledger (by rwa [List.length_map])]

theorem handBack_accounted :
    let b := start {} .allowAll (fun _ => none) []
    let actions := [joining] ++ ringing :: handBack ++ [.work .sequencer]
    ∃ a ∈ b.admissions actions, a.chain = some ⟨1⟩ ∧
      Settlement.ofChain ⟨1⟩ (b.settlements actions) = [(⟨1⟩, .finished true)] ∧
      ∃ reason : FinishReason, reason = .aborted ∧
        reason.Fits (a.matched.map Subscriber.id).length [.finished true] ∧
        (b.run actions).endings.filter (·.1 = ⟨1⟩) = [(⟨1⟩, some 1, some reason.name)] := by
  intro b actions
  have hadmitted : (b.admissions actions).map Admission.chain = [some ⟨1⟩] := by decide +kernel
  obtain ⟨a, ha, hc⟩ := List.mem_map.1 (hadmitted ▸ List.mem_singleton_self (some (ChainId.mk 1)))
  have hended : Settlement.ofChain ⟨1⟩ (b.settlements actions) = [(⟨1⟩, .finished true)] := by
    decide +kernel
  have hending : (b.run actions).endings.filter (·.1 = ⟨1⟩) = [(⟨1⟩, some 1, some "aborted")] := by
    decide +kernel
  obtain ⟨-, -, h⟩ := deliveries_accounted {} .allowAll (fun _ => none) [] actions
  obtain ⟨-, -, hends⟩ := h a ha ⟨1⟩ hc
  rw [hended] at hends
  obtain hnone | ⟨reason, hreason, hfits, -⟩ := hends
  · cases hending.symm.trans hnone
  · have hab : reason = .aborted := hfits.aborted.2 rfl
    exact ⟨a, ha, hc, hended, reason, hab, hfits, hreason⟩

end Broker

end EventBroker
