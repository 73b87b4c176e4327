import EventBroker.Proofs.Timeline

namespace EventBroker

/-- An event of a chain whose watchdog is due at `due` comes in time: from then on no receiver is
handed anything, the finish is decided on within one hand-off and told within another. -/
def ChainEvent.InTime (limit : Duration) (due : Instant) (final : Option Receiver) (t : Instant) :
    ChainEvent → Prop
  | .signal (.notifying n) =>
    (n.subscriber ≠ none → t < due) ∧ (n.subscriber = none → t ≤ due.after limit)
  | .signal (.finished _ _) =>
    t ≤ (due.after limit).after limit ∧ (final = none → t ≤ due.after limit)
  | _ => True

def ChainEvent.started? : ChainEvent → Option ChainId
  | .signal (.started id) => id
  | _ => none

theorem ChainEvent.started?_eq_some {e : ChainEvent} {id : ChainId} (h : e.started? = some id) :
    e = .started id := by
  cases e with
  | signal s =>
    cases s <;> cases h
    rfl
  | accepted | held => cases h

namespace Chain

variable {c : Chain} {limit : Duration} {now : Instant}

structure Prompt (limit : Duration) (c : Chain) (now : Instant) : Prop where
  bounded : ∀ d, c.watchdogDeadline = some d → now ≤ d.after limit
  handed : c.state ≠ .idle → ∀ s d, c.receivingSince = some s → c.watchdogDeadline = some d → s < d

theorem lt_of_not_due {d : Instant} (hd : c.watchdogDeadline = some d)
    (h : due c.watchdogDeadline now = false) : now < d := by
  rw [hd, due, Option.any_some, decide_eq_false_iff_not] at h
  exact Nat.lt_of_not_le h

theorem Fresh.prompt (h : c.Fresh) (now : Instant) : (c.start now).Prompt limit now where
  bounded := by
    intro d hd
    cases h
    cases hd
    exact Nat.le_trans (Nat.le_add_right _ _) (Nat.le_add_right _ _)
  handed := fun hs => absurd (h.start now).2 hs

theorem endures_prompt (limit : Duration) : Endures limit (Prompt limit) where
  advance := by
    intro c c' now x hc hp hadv
    have hdeadline := hadv.terms.watchdogDeadline
    refine ⟨fun d hd => hp.bounded d (hdeadline ▸ hd), fun hs s d hsince hd => ?_⟩
    rw [hdeadline] at hd
    cases hadv with
    | handing hidle hn =>
      obtain ⟨-, -, hdue, -, -, rfl⟩ := next_deliver hn
      cases hsince
      exact lt_of_not_due hd hdue
    | parked =>
      rw [handedOff] at hs hsince
      split at hsince
      · rename_i hstate
        exact hp.handed (by simp [hstate]) s d hsince hd
      · rename_i hstate
        rw [if_neg hstate] at hs
        exact hp.handed hs s d hsince hd
    | finished hr code data abort =>
      rw [finish_of_awaiting hr] at hs
      exact absurd rfl hs
    | released hr =>
      rw [release_of_awaiting hr] at hs
      exact absurd rfl hs
    | timedOut hr =>
      rw [expireReceiver_of_awaiting hr] at hs
      exact absurd rfl hs
    | expired hr =>
      rw [expire_of_awaiting hr] at hs
      exact absurd rfl hs
    | passed hidle hn hf => exact absurd rfl hs
    | failed hstate hr => exact absurd rfl hs
  wait := by
    intro c now t hp hle hw
    refine ⟨fun d hd => ?_, hp.handed⟩
    cases hw with
    | @receiving s hs hc ht =>
      have hlt := hp.handed (by simp [hs]) s d hc hd
      exact Nat.le_trans ht (Nat.add_le_add_right (Nat.le_of_lt hlt) _)
    | @received s begun hs hc hb hr hw =>
      rw [watchdogDeadline, hb] at hd
      cases hd
      exact Nat.le_trans hw (Nat.le_add_right _ _)

end Chain

namespace View

variable {v w : View} {a : Option Admission} {es : List ChainEvent} {limit : Duration}
  {c : Chain} {d t : Instant}

def ClosesBy (limit : Duration) (v : View) : Prop :=
  ∀ n c reason, v.sequencer.stage = .closing n c reason → ∀ d, c.watchdogDeadline = some d →
    n.startedAt ≤ d.after limit ∧ v.now ≤ n.startedAt.after limit

theorem ClosesBy.goes (h : v.ClosesBy limit) (ht : v.Timed limit (Chain.Prompt limit))
    (hg : v.Goes a es w) : w.ClosesBy limit := by
  intro n c reason hs d hd
  cases hg with
  | wait hle hm =>
    refine ⟨(h n c reason hs d hd).1, ?_⟩
    have hs' : v.sequencer.stage = .closing n c reason := hs
    exact (hm (by simp [hs'])).busy n (by simp [busy, hs']) limit ht.limited
  | act he hadv hn =>
    rw [hn]
    obtain hs | ⟨hstage, hbegun, c₀, hc₀, hnext⟩ := he.closing hs
    · exact h n c reason hs d hd
    · rw [(Chain.terms_of_finalize hnext).watchdogDeadline] at hd
      rw [hbegun]
      exact ⟨(ht.active (by simp [hstage]) c₀ hc₀).bounded d hd, Nat.le_add_right _ _⟩

theorem Timed.underway_le (h : v.Timed limit (Chain.Prompt limit)) (hc : v.ClosesBy limit)
    (hs : v.sequencer.stage ≠ .stopped) (hu : v.underway = some c)
    (hd : c.watchdogDeadline = some d) : v.now ≤ (d.after limit).after limit := by
  have active (ha : v.sequencer.active = some c) : v.now ≤ (d.after limit).after limit :=
    Nat.le_trans ((h.active hs c ha).bounded d hd) (Nat.le_add_right _ _)
  cases hstage : v.sequencer.stage with
  | closing n c' reason =>
    rw [underway, hstage] at hu
    cases hu
    obtain ⟨hbegun, hover⟩ := hc n c reason hstage d hd
    exact Nat.le_trans hover (Nat.add_le_add_right hbegun _)
  | _ =>
    rw [underway, hstage] at hu
    exact active hu

theorem Moves.inTime (hm : v.Moves es w) (hv : v.Sound) (ht : v.Timed limit (Chain.Prompt limit))
    (hc : v.ClosesBy limit) (hu : v.underway = some c) (hd : c.watchdogDeadline = some d) :
    ∀ e ∈ es, e.InTime limit d c.finalReceiver v.now := by
  have same {c' : Chain} (hs : v.sequencer.stage = .pumping) (ha : v.sequencer.active = some c') :
      c' = c := by
    rw [underway_of_ne (by simp [hs]), ha] at hu
    exact Option.some.inj hu
  cases hm with
  | hand hs ha hw hn he hf =>
    cases same hs ha
    obtain ⟨-, -, hdue, -⟩ := Chain.next_deliver hn
    exact List.forall_mem_singleton.2
      ⟨fun _ => Chain.lt_of_not_due hd hdue, fun hnone => nomatch hnone⟩
  | finish hs ha hw hn hf =>
    cases same hs ha
    have hle := (ht.active (by simp [hs]) c ha).bounded d hd
    exact List.forall_mem_singleton.2 ⟨Nat.le_trans hle (Nat.le_add_right _ _), fun _ => hle⟩
  | close hs ha hw hn hf =>
    cases same hs ha
    have hle := (ht.active (by simp [hs]) c ha).bounded d hd
    exact List.forall_mem_singleton.2 ⟨fun hsome => absurd rfl hsome, fun _ => hle⟩
  | @closed n c' reason result hs =>
    have hlate := ht.underway_le hc (by simp [hs]) hu hd
    rw [underway, hs] at hu
    cases hu
    obtain ⟨f, -, hf, -⟩ := hv.manned.closing hs
    refine List.forall_mem_cons.2 ⟨trivial, List.forall_mem_singleton.2 ?_⟩
    exact ⟨hlate, fun hnone => absurd (hf.symm.trans hnone) (Option.some_ne_none f)⟩
  | accept | hold | start | parked | overrun | failed | stray =>
    exact List.forall_mem_singleton.2 trivial
  | _ => exact List.forall_mem_nil _

theorem MayPassTo.underway (hm : v.MayPassTo t) (hv : v.Sound)
    (hs : v.sequencer.stage ≠ .stopped) (hw : v.waiting ≠ []) : ∃ c, v.underway = some c := by
  cases hstage : v.sequencer.stage with
  | stopped => exact absurd hstage hs
  | pumping => exact absurd hstage hm.waits
  | closing n c reason => exact ⟨c, by rw [View.underway, hstage]⟩
  | handing n i =>
    obtain ⟨-, c, hc, -⟩ := hv.sequencer.handing hstage
    exact ⟨c, (underway_of_ne (by simp [hstage])).trans hc⟩
  | listening =>
    obtain ⟨-, hpending⟩ | ⟨c, hc, -⟩ := hv.sequencer.parked hstage
    · refine absurd ?_ hw
      rw [waiting, hpending, hm.unasked hstage]
      rfl
    · exact ⟨c, (underway_of_ne (by simp [hstage])).trans hc⟩

theorem Lined.numbers {admitted : List (ChainId × Option Receiver)} (h : v.Lined admitted)
    (hs : v.sequencer.stage ≠ .stopped) :
    ∃ m : Nat, ∀ (k : Nat) (x : Chain), v.lineup[k]? = some x → x.id = ⟨m + k + 1⟩ := by
  obtain ⟨past, rounds, shown, hp⟩ := h.paced
  refine ⟨past.length, fun k x hx => ?_⟩
  have htitles : v.titles[k]? = some x.title := by
    rw [← lineup_titles, List.getElem?_map, hx]
    rfl
  have hadmitted : admitted[past.length + k]? = some x.title := by
    rw [← hp.whole hs, List.getElem?_append_right (Nat.le_add_right _ _), Nat.add_sub_cancel_left]
    exact htitles
  have hid := congrArg (fun l => l[past.length + k]?) h.numbered
  simp only [List.getElem?_map, hadmitted, Option.map_some] at hid
  obtain ⟨i, hi, heq⟩ := Option.map_eq_some_iff.1 hid.symm
  obtain ⟨hlt, hi⟩ := List.getElem?_eq_some_iff.1 hi
  rw [List.getElem_range] at hi
  exact hi ▸ heq.symm

theorem Lined.predecessor {admitted : List (ChainId × Option Receiver)} {n : Nat} {c' : Chain}
    (h : v.Lined admitted) (hs : v.sequencer.stage ≠ .stopped) (hu : v.underway = some c)
    (hc : c' ∈ v.waiting) (hid : c'.id = ⟨n + 1⟩) :
    c.id = ⟨n⟩ ∨ ∃ c'' ∈ v.waiting, c''.id = ⟨n⟩ := by
  obtain ⟨m, numbered⟩ := h.numbers hs
  have hlineup : v.lineup = c :: v.waiting := by rw [lineup, hu]; rfl
  obtain ⟨j, hj⟩ := List.mem_iff_getElem?.1 hc
  have hnext := numbered (j + 1) c' (by rw [hlineup]; exact hj)
  have hlt : j < v.lineup.length := by
    rw [hlineup, List.length_cons]
    exact Nat.lt_succ_of_lt (List.getElem?_eq_some_iff.1 hj).1
  obtain ⟨c'', hc''⟩ : ∃ c'', v.lineup[j]? = some c'' := ⟨_, List.getElem?_eq_getElem hlt⟩
  have hbefore := numbered j c'' hc''
  rw [show m + j + 1 = n from Nat.succ.inj (ChainId.mk.inj (hnext.symm.trans hid))] at hbefore
  have hmem := List.mem_of_getElem? hc''
  rw [hlineup] at hmem
  cases List.mem_cons.1 hmem with
  | inl h => exact .inl (h ▸ hbefore)
  | inr h => exact .inr ⟨c'', h, hbefore⟩

variable {arrived : List (Instant × Admission)} {events : List (Instant × ChainEvent)}
  {s : Option Settlement} {f : Option (Chain × FinishReason)}

def relief (limit : Duration) (config : Config) (x : Admission) (t : Instant)
    (y : Instant × Admission) : Instant :=
  max (((x.due config t).after limit).after limit) y.1

structure OnSchedule (limit : Duration) (v : View) (arrived : List (Instant × Admission))
    (events : List (Instant × ChainEvent)) : Prop where
  dated : v.Dated (arrived.map Prod.snd) events
  timed : v.Timed limit (Chain.Prompt limit)
  closes : v.ClosesBy limit
  inTime : ∀ x ∈ arrived, ∀ id t, x.2.chain = some id → (t, .started id) ∈ events →
    ∀ e ∈ events, e.2.chain? = some id →
      e.2.InTime limit (x.2.due v.config t) x.2.finalReceiver e.1
  queued : ∀ x ∈ arrived, ∀ n t, x.2.chain = some ⟨n⟩ → (t, .started ⟨n⟩) ∈ events →
    ∀ y ∈ arrived, y.2.chain = some ⟨n + 1⟩ → v.sequencer.stage ≠ .stopped →
      (∃ c ∈ v.waiting, c.id = ⟨n + 1⟩) → v.now ≤ relief limit v.config x.2 t y
  relieved : ∀ x ∈ arrived, ∀ n t, x.2.chain = some ⟨n⟩ → (t, .started ⟨n⟩) ∈ events →
    ∀ y ∈ arrived, y.2.chain = some ⟨n + 1⟩ →
      ∀ t', (t', .started ⟨n + 1⟩) ∈ events → t' ≤ relief limit v.config x.2 t y

theorem Effect.silent {a : Admission} (h : v.Effect (some a) es w) : es = [] := by
  cases h
  rfl

namespace OnSchedule

variable (h : v.OnSchedule limit arrived events)

include h

theorem mem_arrived {x : Instant × Admission} {id : ChainId}
    (he : v.Effect a es w) (hx : x ∈ arrived ++ (a.map (v.now, ·)).toList)
    (hid : x.2.chain = some id) : x ∈ arrived ∨ x.1 = v.now ∧ es = [] ∧
      id ∉ Admission.ids (arrived.map Prod.snd) := by
  refine (List.mem_append.1 hx).imp_right fun hx => ?_
  obtain ⟨adm, rfl, rfl⟩ := Option.map_eq_some_iff.1 (Option.mem_toList.1 hx)
  exact ⟨rfl, he.silent, h.dated.not_known he hid⟩

theorem inTime_underway (he : v.Effect a es w) {x : Instant × Admission} (hx : x ∈ arrived)
    {c : Chain} {t : Instant} (hid : x.2.chain = some c.id) (ht : (t, .started c.id) ∈ events)
    (hc : v.underway = some c) {e : ChainEvent} (hmem : e ∈ es) (hce : e.chain? = some c.id) :
    e.InTime limit (x.2.due v.config t) x.2.finalReceiver v.now := by
  have hv := h.dated.lined.sound
  obtain ⟨hdue, hfinal⟩ := h.dated.deadline (List.mem_map_of_mem hx) hc hid ht
  cases he with
  | request hq => cases hmem
  | carry lane hk => cases (hk.silent hv e hmem).symm.trans hce
  | move hm => exact hfinal ▸ hm.inTime hv h.timed h.closes hc hdue e hmem

theorem inTime_effect (he : v.Effect a es w) :
    ∀ x ∈ arrived ++ (a.map (v.now, ·)).toList, ∀ id t, x.2.chain = some id →
      (t, .started id) ∈ events ++ es.map (v.now, ·) →
      ∀ e ∈ events ++ es.map (v.now, ·), e.2.chain? = some id →
        e.2.InTime limit (x.2.due v.config t) x.2.finalReceiver e.1 := by
  intro x hx id t hid ht e hmem hce
  have hv := h.dated.lined.sound
  obtain hx | ⟨-, rfl, hnew⟩ := h.mem_arrived he hx hid
  · obtain ht | ⟨rfl, hstart⟩ := mem_started ht
    · cases List.mem_append.1 hmem with
      | inl hold => exact h.inTime x hx id t hid ht e hold hce
      | inr hmem =>
        obtain ⟨e, hes, rfl⟩ := List.mem_map.1 hmem
        obtain ⟨c, hc, rfl⟩ | ⟨hn, c, hc, rfl⟩ := he.about hv hes hce
        · exact h.inTime_underway he hx hid ht hc hes hce
        · exact absurd ht (h.dated.unstarted he (he.started hv hn hc) t)
    · -- the chain is started just now: so far nothing else has happened to it
      have starts := he.starts hv hstart
      obtain ⟨c, hw, rfl⟩ := starts.first
      cases List.mem_append.1 hmem with
      | inl hold =>
        exact absurd rfl ((h.dated.about e hold _ hce).2 c (hw ▸ List.mem_cons_self))
      | inr hmem =>
        obtain ⟨e, hes, rfl⟩ := List.mem_map.1 hmem
        rw [starts.alone] at hes
        cases List.mem_singleton.1 hes
        trivial
  · rw [List.map_nil, List.append_nil] at ht
    exact absurd (h.dated.about _ ht id rfl).1 hnew

theorem known {t : Instant} {id : ChainId} (ht : (t, .started id) ∈ events) :
    id ∈ Admission.ids (arrived.map Prod.snd) :=
  (h.dated.about _ ht id rfl).1

theorem timed_goes (hg : v.Goes a es w) : w.Timed limit (Chain.Prompt limit) := by
  refine h.timed.goes (Chain.endures_prompt limit) h.dated.lined.sound (fun c hc t => ?_) hg
  obtain ⟨adm, -, hadm⟩ := Option.bind_eq_some_iff.1 hc
  obtain ⟨id, -, rfl⟩ := Option.map_eq_some_iff.1 hadm
  exact (Chain.Fresh.mk ..).prompt t

theorem queued_act (he : v.Effect a es w) (hn : w.now = v.now) :
    ∀ x ∈ arrived ++ (a.map (v.now, ·)).toList, ∀ n t, x.2.chain = some ⟨n⟩ →
      (t, .started ⟨n⟩) ∈ events ++ es.map (v.now, ·) →
      ∀ y ∈ arrived ++ (a.map (v.now, ·)).toList, y.2.chain = some ⟨n + 1⟩ →
        w.sequencer.stage ≠ .stopped → (∃ c ∈ w.waiting, c.id = ⟨n + 1⟩) →
          w.now ≤ relief limit w.config x.2 t y := by
  intro x hx n t hid ht y hy hyid hs ⟨c, hc, hcid⟩
  have hv := h.dated.lined.sound
  rw [hn, he.config_eq]
  obtain ht | ⟨rfl, -⟩ := mem_started ht
  · obtain hx | ⟨-, -, hnew⟩ := h.mem_arrived he hx hid
    · obtain hold | ⟨hnow, -⟩ := h.mem_arrived he hy hyid
      · obtain hc | hc := he.waiting_mem hv hc
        · exact h.queued x hx n t hid ht y hold hyid (he.not_stopped hv hs) ⟨c, hc, hcid⟩
        · obtain ⟨adm, rfl, hadm⟩ := Option.bind_eq_some_iff.1 hc
          obtain ⟨id, hadmitted, rfl⟩ := Option.map_eq_some_iff.1 hadm
          cases hcid
          exact absurd (Broker.mem_ids (List.mem_map_of_mem hold) hyid)
            (h.dated.not_known he hadmitted)
      · exact hnow ▸ Nat.le_max_right _ _
    · exact absurd (h.known ht) hnew
  · refine Nat.le_trans ?_ (Nat.le_max_left _ _)
    simp only [Admission.due, Instant.after, Nat.add_assoc]
    exact Nat.le_add_right _ _

theorem queued_wait {t' : Instant} (hle : v.now ≤ t')
    (hm : v.sequencer.stage ≠ .stopped → v.MayPassTo t') :
    ∀ x ∈ arrived, ∀ n t, x.2.chain = some ⟨n⟩ → (t, .started ⟨n⟩) ∈ events →
      ∀ y ∈ arrived, y.2.chain = some ⟨n + 1⟩ → v.sequencer.stage ≠ .stopped →
        (∃ c ∈ v.waiting, c.id = ⟨n + 1⟩) → t' ≤ relief limit v.config x.2 t y := by
  intro x hx n t hid ht y hy hyid hs ⟨c', hc', hcid⟩
  have hv := h.dated.lined.sound
  have hg : v.Goes none [] { v with now := t' } := .wait hle hm
  obtain ⟨c, hc⟩ := (hm hs).underway hv hs (List.ne_nil_of_mem hc')
  have hcn : c.id = ⟨n⟩ := by
    obtain hcn | ⟨c'', hc'', hcn⟩ := h.dated.lined.predecessor hs hc hc' hcid
    · exact hcn
    · exact absurd hcn ((h.dated.about _ ht _ rfl).2 c'' hc'')
  rw [← hcn] at hid ht
  obtain ⟨hdue, -⟩ := h.dated.deadline (List.mem_map_of_mem hx) hc hid ht
  have hlate := (h.timed_goes hg).underway_le (h.closes.goes h.timed hg) hs hc hdue
  exact Nat.le_trans hlate (Nat.le_max_left _ _)

theorem relieved_effect (he : v.Effect a es w) :
    ∀ x ∈ arrived ++ (a.map (v.now, ·)).toList, ∀ n t, x.2.chain = some ⟨n⟩ →
      (t, .started ⟨n⟩) ∈ events ++ es.map (v.now, ·) →
      ∀ y ∈ arrived ++ (a.map (v.now, ·)).toList, y.2.chain = some ⟨n + 1⟩ →
        ∀ t', (t', .started ⟨n + 1⟩) ∈ events ++ es.map (v.now, ·) →
          t' ≤ relief limit v.config x.2 t y := by
  intro x hx n t hid ht y hy hyid t' ht'
  have hv := h.dated.lined.sound
  have bounded (hn : t = v.now) (hle : t' ≤ v.now) : t' ≤ relief limit v.config x.2 t y := by
    refine Nat.le_trans ?_ (Nat.le_max_left _ _)
    simp only [Admission.due, Instant.after, Nat.add_assoc, hn]
    exact Nat.le_trans hle (Nat.le_add_right _ _)
  obtain ht' | ⟨rfl, hstart⟩ := mem_started ht'
  · obtain hy | ⟨-, -, hnew⟩ := h.mem_arrived he hy hyid
    · obtain ht | ⟨hn, hstart⟩ := mem_started ht
      · obtain hx | ⟨-, -, hnew⟩ := h.mem_arrived he hx hid
        · exact h.relieved x hx n t hid ht y hy hyid t' ht'
        · exact absurd (h.known ht) hnew
      · exact bounded hn (h.dated.past _ ht')
    · exact absurd (h.known ht') hnew
  · have starts := he.starts hv hstart
    obtain ht | ⟨hn, -⟩ := mem_started ht
    · obtain hx | ⟨-, hes, -⟩ := h.mem_arrived he hx hid
      · obtain hy | ⟨-, hes, -⟩ := h.mem_arrived he hy hyid
        · obtain ⟨c, hw, hc⟩ := starts.first
          exact h.queued x hx n t hid ht y hy hyid starts.running
            ⟨c, hw ▸ List.mem_cons_self, hc⟩
        · cases starts.alone.symm.trans hes
      · cases starts.alone.symm.trans hes
    · exact bounded hn (Nat.le_refl _)

theorem goes (hg : v.Goes a es w) (ha : v.Advances w s f) :
    w.OnSchedule limit (arrived ++ (a.map (v.now, ·)).toList)
      (events ++ es.map (v.now, ·)) where
  dated := by
    have hnew : (a.map (v.now, ·)).toList.map Prod.snd = a.toList := by cases a <;> rfl
    rw [List.map_append, hnew]
    exact h.dated.effect hg.effect ha
  timed := h.timed_goes hg
  closes := h.closes.goes h.timed hg
  inTime := by
    rw [hg.effect.config_eq]
    exact h.inTime_effect hg.effect
  queued := by
    cases hg with
    | act he ha hn => exact h.queued_act he hn
    | wait hle hm =>
      have hwait := h.queued_wait hle hm
      rwa [Option.map_none, Option.toList_none, List.append_nil, List.map_nil, List.append_nil]
  relieved := by
    rw [hg.effect.config_eq]
    exact h.relieved_effect hg.effect

end OnSchedule

end View

namespace Broker

variable {b : Broker} {limit : Duration} {arrived : List (Instant × Admission)}
  {events : List (Instant × ChainEvent)}

theorem onSchedule_run (h : b.view.OnSchedule limit arrived events) (ha : b.view.Addressed)
    {actions : List Action} (hp : b.punctual actions = true) :
    (b.run actions).view.OnSchedule limit (arrived ++ b.arrivals actions)
      (events ++ b.timeline actions) := by
  induction actions generalizing b arrived events with
  | nil =>
    rw [arrivals, timeline, List.append_nil, List.append_nil]
    exact h
  | cons a rest ih =>
    have hv := h.dated.lined.sound
    obtain ⟨hin, hrest⟩ := Bool.and_eq_true_iff.1 hp
    obtain ⟨f, rs, hr⟩ := reckons_act hv ha a
    rw [arrivals, timeline, ← List.append_assoc, ← List.append_assoc]
    refine ih (h.goes (act_goes hv ha hin) hr.advances) ?_ hrest
    exact ha.effect hv.registry (b.act_effect a hv.registry)

theorem onSchedule_start {config : Config} (hl : config.handoffLimit = some limit)
    (oracle : Oracle) (bundleOf : Uid → Option String) (observers : List Observer) :
    (start config oracle bundleOf observers).view.OnSchedule limit [] [] where
  dated := dated_start config oracle bundleOf observers
  timed := ⟨hl, fun _ _ _ h => (nomatch h), List.forall_mem_nil _, fun _ _ h => nomatch h⟩
  closes := fun _ _ _ h => nomatch h
  inTime := List.forall_mem_nil _
  queued := List.forall_mem_nil _
  relieved := List.forall_mem_nil _

/-- If hand-offs are limited, a chain that is started at `t` is not underway for long, whatever its
receivers do and whatever is asked of the broker. Once its watchdog is due it is handed to no more
receivers; its finish is decided on within one hand-off, and it is over within another. By then the
next chain in line is started, if it has been admitted. -/
theorem occupancy_bounded {config : Config} {limit : Duration}
    (hl : config.handoffLimit = some limit) (oracle : Oracle) (bundleOf : Uid → Option String)
    (observers : List Observer) {actions : List Action}
    (hp : (start config oracle bundleOf observers).punctual actions = true) :
    let b := start config oracle bundleOf observers
    let w := b.run actions
    ∀ x ∈ b.arrivals actions, ∀ n t, x.2.chain = some ⟨n⟩ →
      (t, .started ⟨n⟩) ∈ b.timeline actions →
      let due := t.after (config.watchdogBudget x.2.matched.length)
      let latest := (due.after limit).after limit
      (∀ e ∈ b.timeline actions, e.2.chain? = some ⟨n⟩ →
        e.2.InTime limit due x.2.finalReceiver e.1) ∧
      (w.sequencer.stage ≠ .stopped → ∀ c, w.view.underway = some c → c.id = ⟨n⟩ →
        w.now ≤ latest ∧ (w.sequencer.active = some c → w.now ≤ due.after limit)) ∧
      ∀ y ∈ b.arrivals actions, y.2.chain = some ⟨n + 1⟩ →
        (∀ t', (t', .started ⟨n + 1⟩) ∈ b.timeline actions → t' ≤ max latest y.1) ∧
        (w.sequencer.stage ≠ .stopped → max latest y.1 < w.now →
          ∃ t', (t', .started ⟨n + 1⟩) ∈ b.timeline actions) := by
  intro b w x hx n t hid ht due latest
  have h : w.view.OnSchedule limit (b.arrivals actions) (b.timeline actions) :=
    onSchedule_run (onSchedule_start hl oracle bundleOf observers) (fun _ _ _ h => nomatch h) hp
  have hconfig : w.view.config = config :=
    run_config (view_start_sound config oracle bundleOf observers) actions
  refine ⟨fun e he hce => ?_, fun hs c hc hcid => ?_,
    fun y hy hyid => ⟨fun t' ht' => ?_, fun hs hlt => ?_⟩⟩
  · have hin := h.inTime x hx _ t hid ht e he hce
    rwa [hconfig] at hin
  · obtain ⟨hdue, -⟩ := h.dated.deadline (List.mem_map_of_mem hx) hc (hcid ▸ hid) (hcid ▸ ht)
    rw [hconfig] at hdue
    exact ⟨h.timed.underway_le h.closes hs hc hdue,
      fun ha => (h.timed.active hs c ha).bounded due hdue⟩
  · have hle := h.relieved x hx n t hid ht y hy hyid t' ht'
    rwa [hconfig] at hle
  · obtain hwait | hstart | hstop := h.dated.placed y.2 (List.mem_map_of_mem hy) _ hyid
    · have hle := h.queued x hx n t hid ht y hy hyid hs hwait
      rw [hconfig] at hle
      exact absurd hlt (Nat.not_lt.2 hle)
    · exact hstart
    · exact absurd hstop hs

def unanswered : List Action :=
  [joining, ringing, ringing, .work .sequencer, .work .sequencer, .work .sequencer,
    .tick (.ofMillis 5000), .handedOff .sequencer (.returned (.ok ())), .work .sequencer,
    .work .sequencer, .tick (.ofMillis 10000), .work .sequencer, .work .sequencer, .work .sequencer]

theorem occupancy_bounded_unanswered :
    let config : Config := {}
    let b := start config .allowAll (fun _ => none) []
    config.handoffLimit = some (.ofMillis 5000) ∧ b.punctual unanswered = true ∧
      ∃ x ∈ b.arrivals unanswered, x.2.chain = some ⟨1⟩ ∧
        (0, .started ⟨1⟩) ∈ b.timeline unanswered ∧
        ∃ y ∈ b.arrivals unanswered, y.2.chain = some ⟨2⟩ ∧
          (Instant.ofMillis 10000, .started ⟨2⟩) ∈ b.timeline unanswered ∧
          ∀ t', (t', .started ⟨2⟩) ∈ b.timeline unanswered → t' ≤ Instant.ofMillis 30000 := by
  intro config b
  have hl : config.handoffLimit = some (.ofMillis 5000) := by decide
  have hp : b.punctual unanswered = true := by decide +kernel
  have harrivals : (b.arrivals unanswered).map
      (fun x => (x.1, x.2.chain, x.2.matched.length)) = [(0, some ⟨1⟩, 1), (0, some ⟨2⟩, 1)] := by
    decide +kernel
  have hstarts : (b.timeline unanswered).filterMap (fun e => e.2.started?.map (e.1, ·)) =
      [(0, ⟨1⟩), (Instant.ofMillis 10000, ⟨2⟩)] := by
    decide +kernel
  have started {t : Instant} {id : ChainId}
      (h : (t, id) ∈ [(0, ⟨1⟩), (Instant.ofMillis 10000, ChainId.mk 2)]) :
      (t, .started id) ∈ b.timeline unanswered := by
    obtain ⟨⟨t', e⟩, he, heq⟩ := List.mem_filterMap.1 (hstarts ▸ h)
    obtain ⟨id', hid, heq⟩ := Option.map_eq_some_iff.1 heq
    cases heq
    exact ChainEvent.started?_eq_some hid ▸ he
  obtain ⟨x, hx, hxeq⟩ := List.mem_map.1 (harrivals ▸ List.mem_cons_self)
  obtain ⟨y, hy, hyeq⟩ :=
    List.mem_map.1 (harrivals ▸ List.mem_cons_of_mem _ (List.mem_singleton_self _))
  have hid : x.2.chain = some ⟨1⟩ := congrArg (·.2.1) hxeq
  have hyid : y.2.chain = some ⟨2⟩ := congrArg (·.2.1) hyeq
  have hmatched : x.2.matched.length = 1 := congrArg (·.2.2) hxeq
  have harrived : y.1 = 0 := congrArg Prod.fst hyeq
  have hfirst := started List.mem_cons_self
  obtain ⟨-, -, hrelief⟩ :=
    occupancy_bounded hl .allowAll (fun _ => none) [] hp x hx 1 0 hid hfirst
  refine ⟨hl, hp, x, hx, hid, hfirst, y, hy, hyid,
    started (List.mem_cons_of_mem _ (List.mem_singleton_self _)), fun t' ht' => ?_⟩
  have hle := (hrelief y hy hyid).1 t' ht'
  rw [hmatched, harrived] at hle
  exact Nat.le_trans hle (by decide)

end Broker

end EventBroker
