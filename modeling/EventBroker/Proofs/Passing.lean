import EventBroker.Proofs.Following
import EventBroker.Proofs.Notifying

namespace EventBroker

namespace Chain

variable {c c' c'' : Chain} {r : SubscriberId} {es es' : List ChainEvent} {now : Instant}

theorem settled_skipped {how : DeliveryState} {i : Nat} (h : c.deliveries[i]? = some .skipped) :
    (c.settled how)[i]? = some .skipped := by
  rw [settled]
  split
  · exact h
  · rename_i j hj
    rw [List.getElem?_modify]
    split <;> simp [h]

/-- After `es` the chain has become `c'`; what was still before it of `r`, it has passed over. -/
structure Continues (r : SubscriberId) (es : List ChainEvent) (c c' : Chain) : Prop where
  id : c'.id = c.id
  receivers : c'.receivers = c.receivers
  passed : ∀ i : Nat, c.receivers[i]? = some r → c.cursor ≤ i →
    c'.cursor ≤ i ∨ c'.deliveries[i]? = some .skipped
  settled : ∀ i : Nat, c.deliveries[i]? = some .skipped → c'.deliveries[i]? = some .skipped
  result : (∀ e ∈ es, e.chain? = some c.id → e.result? = none) →
    c'.copy = c.copy ∧ c'.abort = c.abort

namespace Continues

theorem refl (r : SubscriberId) (es : List ChainEvent) (c : Chain) : c.Continues r es c where
  id := rfl
  receivers := rfl
  passed := fun _ _ hi => .inl hi
  settled := fun _ h => h
  result := fun _ => ⟨rfl, rfl⟩

theorem trans (h : c.Continues r es c') (h' : c'.Continues r es' c'') :
    c.Continues r (es ++ es') c'' where
  id := h'.id.trans h.id
  receivers := h'.receivers.trans h.receivers
  passed := by
    intro i hi hc
    cases h.passed i hi hc with
    | inl hc => exact h'.passed i (h.receivers ▸ hi) hc
    | inr hs => exact .inr (h'.settled i hs)
  settled := fun i hs => h'.settled i (h.settled i hs)
  result := by
    intro he
    obtain ⟨hc, ha⟩ := h.result fun e hm => he e (List.mem_append_left _ hm)
    obtain ⟨hc', ha'⟩ := h'.result fun e hm => h.id ▸ he e (List.mem_append_right _ hm)
    exact ⟨hc'.trans hc, ha'.trans ha⟩

theorem of_cursor (hid : c'.id = c.id) (hr : c'.receivers = c.receivers)
    (hc : c'.cursor = c.cursor)
    (hd : c'.deliveries = c.deliveries ∨ ∃ how, c'.deliveries = c.settled how)
    (he : (∀ e ∈ es, e.chain? = some c.id → e.result? = none) →
      c'.copy = c.copy ∧ c'.abort = c.abort) : c.Continues r es c' where
  id := hid
  receivers := hr
  passed := fun i _ hi => .inl (hc ▸ hi)
  settled := by
    intro i hs
    obtain hd | ⟨how, hd⟩ := hd
    · rwa [hd]
    · rw [hd]
      exact settled_skipped hs
  result := he

theorem of_alike (hc : c.Alike c') (hcursor : c'.cursor = c.cursor)
    (hd : c'.deliveries = c.deliveries ∨ ∃ how, c'.deliveries = c.settled how) :
    c.Continues r es c' :=
  of_cursor hc.id hc.receivers hcursor hd fun _ => ⟨hc.copy, hc.abort⟩

theorem skip {i : Nat} {x : SubscriberId} (h : c.Sound) (hn : c.next now = (.deliver i x, c')) :
    c.Continues r es c'.skip := by
  obtain ⟨-, -, -, -, hx, rfl⟩ := next_deliver hn
  have hl := (List.getElem?_eq_some_iff.1 hx).1
  rw [skip_eq]
  refine ⟨rfl, rfl, ?_, ?_, fun _ => ⟨rfl, rfl⟩⟩
  · intro j hj hc
    cases Nat.lt_or_eq_of_le hc with
    | inl hc => exact .inl hc
    | inr hc =>
      subst hc
      refine .inr ?_
      have hpending := h.ahead c.cursor (Nat.le_refl _) hl
      simp [Chain.settled, hpending]
  · intro j hj
    exact settled_skipped (c := { c with
      state := .idle, cursor := c.cursor + 1, current := some c.cursor }) hj

theorem deliver {i : Nat} {x : SubscriberId} (hn : c.next now = (.deliver i x, c')) (hx : x ≠ r) :
    c.Continues r es (c'.beginReceiving now) := by
  obtain ⟨-, -, -, -, hreceiver, rfl⟩ := next_deliver hn
  refine ⟨rfl, rfl, ?_, fun _ h => h, fun _ => ⟨rfl, rfl⟩⟩
  intro j hj hc
  refine .inl (Nat.lt_of_le_of_ne hc ?_)
  rintro rfl
  cases hreceiver.symm.trans hj
  exact hx rfl

theorem finalize {reason : FinishReason} (hn : c.next now = (.finalize reason, c')) :
    c.Continues r es c' := by
  obtain ⟨hid, hcopy, -, hr, -⟩ := next_finalize hn
  have habort : c'.abort = c.abort ∧ c'.deliveries = c.deliveries ∧
      (c'.cursor = c.cursor ∨ c.receivers.length ≤ c.cursor) := by
    cases next_of_eq hn with
    | aborted | overdue => exact ⟨rfl, rfl, .inl rfl⟩
    | exhausted ha ho hlen => exact ⟨rfl, rfl, .inr hlen⟩
  obtain ⟨habort, hd, hcursor⟩ := habort
  refine ⟨hid, hr, ?_, fun i h => hd ▸ h, fun _ => ⟨hcopy, habort⟩⟩
  intro i hi hc
  obtain hcursor | hlen := hcursor
  · exact .inl (hcursor ▸ hc)
  · exact absurd (List.getElem?_eq_some_iff.1 hi).1 (Nat.not_lt.2 (Nat.le_trans hlen hc))

end Continues

end Chain

namespace View

variable {v w : View} {es : List ChainEvent} {r : SubscriberId}

def lineup (v : View) : List Chain := v.underway.toList ++ v.waiting

theorem lineup_titles (v : View) : v.lineup.map Chain.title = v.titles := by
  rw [lineup, List.map_append, titles, title?]
  cases v.underway <;> rfl

theorem Moves.reached (h : v.Moves es w) (hr : v.registry.Sound) :
    ∀ e ∈ es, ∀ id, e.reached? = some id → ∃ entry, v.registry.entry? id = some entry := by
  intro e he id hid
  cases h with
  | hold hs ha hw hn hentry hf =>
    cases List.mem_singleton.1 he
    cases hid
    exact ⟨_, hentry⟩
  | hand hs ha hw hn hentry hf =>
    cases List.mem_singleton.1 he
    cases hid
    exact ⟨_, hr.keyed hentry ▸ hentry⟩
  | closed hs =>
    cases List.mem_cons.1 he with
    | inl he =>
      cases he
      cases hid
    | inr he =>
      cases List.mem_singleton.1 he
      cases hid
  | accept hs hc hq ha hw =>
    cases List.mem_singleton.1 he
    cases hid
  | start hs ha hp =>
    cases List.mem_singleton.1 he
    cases hid
  | finish hs ha hw hn hf =>
    cases List.mem_singleton.1 he
    cases hid
  | close hs ha hw hn hf =>
    cases List.mem_singleton.1 he
    cases hid
  | parked hs ha hn | overrun hs ha hn =>
    cases List.mem_singleton.1 he
    cases hid
  | failed hs ha hn =>
    cases List.mem_singleton.1 he
    cases hid
  | stray hs hn =>
    cases List.mem_singleton.1 he
    cases hid
  | _ => cases he

theorem Effect.reached {a : Option Admission} (h : v.Effect a es w) (hr : v.registry.Sound)
    (hgone : v.registry.Gone r) : ∀ e ∈ es, e.reached? ≠ some r := by
  intro e he hid
  cases h with
  | request hq => cases he
  | carry lane hc =>
    obtain ⟨s, hs, rfl⟩ := List.mem_map.1 he
    cases s with
    | notifying n =>
      obtain ⟨x, hx, hxid⟩ := Option.map_eq_some_iff.1 hid
      exact hgone.not_ready (hc.ready hr x (List.mem_filterMap.2 ⟨_, hs, hx⟩)) hxid
    | _ => cases hid
  | move hm =>
    obtain ⟨entry, hentry⟩ := hm.reached hr e he r hid
    cases hgone.absent.symm.trans hentry

theorem Moves.continues (h : v.Moves es w) (hv : v.Sound) (hn : v.registry.entry? r = none) :
    ∀ c' ∈ w.lineup, ∃ c ∈ v.lineup, c.Continues r es c' := by
  -- Chains that wait stay as they are, so only the one underway has to be followed.
  have lines : (∀ c ∈ w.waiting, c ∈ v.waiting) →
      (∀ c', w.underway = some c' → ∃ c ∈ v.lineup, c.Continues r es c') →
      ∀ c' ∈ w.lineup, ∃ c ∈ v.lineup, c.Continues r es c' := by
    intro hw hu c' hc'
    cases List.mem_append.1 hc' with
    | inl hc' => exact hu c' (Option.mem_toList.1 hc')
    | inr hc' => exact ⟨c', List.mem_append_right _ (hw c' hc'), .refl _ _ _⟩
  have moved : ∀ {c c' : Chain}, v.sequencer.active = some c →
      (∀ n d reason, v.sequencer.stage ≠ .closing n d reason) → w.underway = some c' →
      c.Continues r es c' → (∀ c ∈ w.waiting, c ∈ v.waiting) →
      ∀ c' ∈ w.lineup, ∃ c ∈ v.lineup, c.Continues r es c' := by
    intro c c' hc hs hw hcont hwait
    refine lines hwait fun x hx => ⟨c, ?_, ?_⟩
    · refine List.mem_append_left _ (Option.mem_toList.2 ?_)
      rw [underway_of_ne hs]
      exact hc
    · cases hw.symm.trans hx
      exact hcont
  have kept : w.underway = v.underway → (∀ c ∈ w.waiting, c ∈ v.waiting) →
      ∀ c' ∈ w.lineup, ∃ c ∈ v.lineup, c.Continues r es c' := by
    intro hu hwait
    refine lines hwait fun x hx => ⟨x, ?_, .refl _ _ _⟩
    exact List.mem_append_left _ (Option.mem_toList.2 (hu ▸ hx))
  have vacated : w.underway = none → w.waiting = v.waiting →
      ∀ c' ∈ w.lineup, ∃ c ∈ v.lineup, c.Continues r es c' := by
    intro hu hwait
    refine lines (fun c hc => hwait ▸ hc) fun x hx => ?_
    cases hu.symm.trans hx
  cases h with
  | stop hs | breakDown hs =>
    refine kept (by simp [underway, hs]) fun c hc => ?_
    rw [waiting, List.mem_append]
    exact .inl (by simpa [waiting] using hc)
  | enqueue hs hq =>
    refine kept (by simp [underway, hs]) ?_
    simp [waiting, hq, Command.chain?]
  | ignore hs hq hn ha =>
    refine kept rfl ?_
    simp [waiting, hq, hn]
  | accept hs hc hq ha hr =>
    refine moved ha (by simp [hs]) rfl ?_ (by simp [waiting, hq, Command.chain?])
    rw [Chain.finish_of_awaiting hr]
    refine .of_cursor rfl rfl rfl (.inr ⟨_, rfl⟩) ?_
    intro he
    cases he _ (List.mem_singleton_self _) rfl
  | release hs hq ha hr =>
    refine moved ha (by simp [hs]) rfl (.of_alike (Chain.alike_release hr) ?_ ?_)
      (by simp [waiting, hq, Command.chain?])
    · rw [Chain.release_of_awaiting hr]
    · rw [Chain.release_of_awaiting hr]
      exact .inr ⟨_, rfl⟩
  | expire hs hq ha hd =>
    obtain ⟨x, hx⟩ := hv.sequencer.awaiting hs ha
    refine moved ha (by simp [hs]) rfl (.of_alike (Chain.alike_expire hx) ?_ ?_) fun c hc => hc
    · rw [Chain.expire_of_awaiting hx]
    · rw [Chain.expire_of_awaiting hx]
      exact .inr ⟨_, rfl⟩
  | expireReceiver hs hq ha hd =>
    obtain ⟨x, hx⟩ := hv.sequencer.awaiting hs ha
    refine moved ha (by simp [hs]) rfl (.of_alike (Chain.alike_expireReceiver hx) ?_ ?_)
      fun c hc => hc
    · rw [Chain.expireReceiver_of_awaiting hx]
    · rw [Chain.expireReceiver_of_awaiting hx]
      exact .inr ⟨_, rfl⟩
  | rest hs ha hp => exact kept (by simp [underway, hs]) fun c hc => hc
  | @start c rest hs ha hp =>
    have hwaiting : v.waiting = c :: (rest ++ v.sequencer.commands.filterMap Command.chain?) := by
      rw [waiting, hp]
      rfl
    refine lines ?_ ?_
    · intro x hx
      rw [hwaiting]
      exact List.mem_cons_of_mem c hx
    · intro x hx
      have hx : some (c.start v.now) = some x := by
        rw [← hx]
        simp [underway, tell, hs]
      cases hx
      refine ⟨c, List.mem_append_right _ ?_, .of_alike (c.alike_start v.now) rfl (.inl rfl)⟩
      rw [hwaiting]
      exact List.mem_cons_self
  | park hs ha hr => exact kept (by simp [underway, hs]) fun c hc => hc
  | pass hs ha hwait hn' he =>
    refine moved ha (by simp [hs]) ?_ (.skip (hv.sequencer.active _ ha) hn') fun c hc => hc
    simp [underway, hs]
  | hold hs ha hwait hn' he hf =>
    refine moved ha (by simp [hs]) ?_ (.skip (hv.sequencer.active _ ha) hn') fun c hc => hc
    simp [underway, hs]
  | hand hs ha hwait hn' he hf =>
    refine moved ha (by simp [hs]) rfl (.deliver hn' ?_) fun c hc => hc
    rintro rfl
    cases hn.symm.trans he
  | finish hs ha hwait hn' hf => exact vacated rfl rfl
  | close hs ha hwait hn' hf => exact moved ha (by simp [hs]) rfl (.finalize hn') fun c hc => hc
  | parked hs ha hn' | overrun hs ha hn' =>
    refine moved ha (by simp [hs]) rfl (.of_alike (Chain.alike_handedOff _) ?_ ?_) fun c hc => hc
    · rw [Chain.handedOff]
      split <;> rfl
    · rw [Chain.handedOff]
      split <;> exact .inl rfl
  | failed hs ha hn' =>
    refine moved ha (by simp [hs]) rfl (.of_alike (Chain.alike_skip _) ?_ ?_) fun c hc => hc
    · rw [Chain.skip_eq]
    · rw [Chain.skip_eq]
      exact .inr ⟨_, rfl⟩
  | stray hs hn' => exact absurd hn' (hv.not_stray hs)
  | closed hs =>
    have ha := hv.sequencer.closing hs
    exact vacated (by simp [underway, tell, ha]) rfl

theorem Effect.continues {a : Option Admission} (h : v.Effect a es w) (hv : v.Sound)
    (hn : v.registry.entry? r = none) : ∀ c' ∈ w.lineup,
      (∃ c ∈ v.lineup, c.Continues r es c') ∨ a.bind Admission.title? = some c'.title := by
  intro c' hc'
  cases h with
  | request hq =>
    rw [lineup, hq.underway_eq, hq.waiting_eq, ← List.append_assoc] at hc'
    cases List.mem_append.1 hc' with
    | inl hc' => exact .inl ⟨c', hc', .refl _ _ _⟩
    | inr hc' =>
      cases a with
      | none => cases hc'
      | some a =>
        have hc' : v.chainOf a = some c' := Option.mem_toList.1 hc'
        refine .inr ?_
        rw [Option.bind_some, ← title_of_chainOf v a, hc']
        rfl
  | carry lane hc =>
    rw [lineup, underway, waiting, hc.sequencer_eq] at hc'
    exact .inl ⟨c', hc', .refl _ _ _⟩
  | move hm => exact .inl (hm.continues hv hn c' hc')

theorem Lined.chain_eq {admitted : List (ChainId × Option Receiver)} (h : v.Lined admitted)
    {c c' : Chain} (hc : c ∈ v.lineup) (hc' : c' ∈ v.lineup) (hid : c'.id = c.id) : c' = c := by
  have hnodup : (v.lineup.map Chain.id).Nodup := by
    have hd := h.titles_nodup
    rw [← lineup_titles, List.map_map] at hd
    exact hd
  exact List.inj_on_of_nodup_map hnodup hc' hc hid

end View

namespace Broker

variable {b : Broker} {r : SubscriberId} {admitted : List (ChainId × Option Receiver)}

theorem trace_not_reached (hs : b.view.Sound) (hgone : b.registry.Gone r)
    (actions : List Action) : ∀ e ∈ b.trace actions, e.reached? ≠ some r := by
  induction actions generalizing b with
  | nil => exact List.forall_mem_nil _
  | cons a rest ih =>
    have he := b.act_effect a hs.registry
    rw [trace, List.forall_mem_append]
    exact ⟨he.reached hs.registry hgone, ih (hs.effect he) (gone_act hs.registry hgone a)⟩

theorem lineup_run (hl : b.view.Lined admitted) (hgone : b.registry.Gone r)
    (actions : List Action) : ∀ c' ∈ (b.run actions).view.lineup, c'.id ∈ admitted.map Prod.fst →
      ∃ c ∈ b.view.lineup, c.Continues r (b.trace actions) c' := by
  induction actions generalizing b admitted with
  | nil => exact fun c' hc' _ => ⟨c', hc', .refl _ _ _⟩
  | cons a rest ih =>
    intro c' hc' hid
    have he := b.act_effect a hl.sound.registry
    obtain ⟨c, hc, hcont⟩ := ih (hl.effect he) (gone_act hl.sound.registry hgone a) c' hc' (by
      rw [List.map_append]
      exact List.mem_append_left _ hid)
    cases he.continues hl.sound hgone.absent c hc with
    | inl h =>
      obtain ⟨c₀, hc₀, hcont₀⟩ := h
      exact ⟨c₀, hc₀, hcont₀.trans hcont⟩
    | inr h => exact absurd hcont.id.symm (hl.fresh hid he _ h)

end Broker

end EventBroker
