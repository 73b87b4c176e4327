import EventBroker.Proofs.Effects.Desk
import EventBroker.Proofs.Rounds

namespace EventBroker

def Notice.target? (n : Notice) : Option SubscriberId := n.subscriber.map Subscriber.id

namespace Mark

inductive Settles (limit : Duration) (n : Notice) (now : Instant) : Mark → Prop
  | finished {r : SubscriberId} (h : n.target? = some r) : Settles limit n now (.finished r)
  | released {r : SubscriberId} (h : n.target? = some r) : Settles limit n now (.released r)
  | timedOut (h : n.startedAt.after limit ≤ now) :
    Settles limit n now (.timedOut n.chain n.target?)
  | expired : Settles limit n now (.expired n.chain n.target?)

def handed? : Mark → Option SubscriberId
  | handed n => n.target?
  | _ => none

def finished? : Mark → Option SubscriberId
  | finished r => some r
  | _ => none

def released? : Mark → Option SubscriberId
  | released r => some r
  | _ => none

def told : Mark → Bool
  | finished _ | released _ => false
  | _ => true

namespace Settles

variable {limit : Duration} {n : Notice} {now : Instant} {m : Mark}

theorem handed?_eq (h : m.Settles limit n now) : m.handed? = none := by
  cases h <;> rfl

theorem count_le (h : m.Settles limit n now) (r : SubscriberId) :
    m.finished?.toList.count r + m.released?.toList.count r ≤ n.target?.toList.count r := by
  cases h with
  | finished h =>
    rw [h]
    exact Nat.le_refl _
  | released h =>
    rw [h]
    exact Nat.le_of_eq (Nat.zero_add _)
  | timedOut h => exact Nat.zero_le _
  | expired => exact Nat.zero_le _

end Settles

theorem filterMap_append_mark (f : Mark → Option SubscriberId) (ms : List (Instant × Mark))
    (t : Instant) (m : Mark) : (ms ++ [(t, m)]).filterMap (fun x => f x.2) =
      ms.filterMap (fun x => f x.2) ++ (f m).toList := by
  rw [List.filterMap_append]
  cases h : f m <;> simp [h]

end Mark

/-- Hand-offs with what settles them, each settled before the next if at all; `o` is the one that is
still to be settled. -/
inductive Tally (limit : Duration) : List (Instant × Mark) → Option Notice → Prop
  | start : Tally limit [] none
  | handed {ms : List (Instant × Mark)} (h : Tally limit ms none) (t : Instant) (n : Notice) :
    Tally limit (ms ++ [(t, .handed n)]) (some n)
  | settled {ms : List (Instant × Mark)} {n : Notice} {t : Instant} {m : Mark}
      (h : Tally limit ms (some n)) (hm : m.Settles limit n t) : Tally limit (ms ++ [(t, m)]) none

variable {limit : Duration} {o : Option Notice}

theorem Tally.acknowledged_le {ms : List (Instant × Mark)} (h : Tally limit ms o)
    (r : SubscriberId) :
    (ms.filterMap (·.2.finished?)).count r + (ms.filterMap (·.2.released?)).count r +
      (o.bind Notice.target?).toList.count r ≤ (ms.filterMap (·.2.handed?)).count r := by
  induction h with
  | start => exact Nat.le_refl _
  | handed h t n ih =>
    simp only [Mark.filterMap_append_mark, List.count_append]
    exact Nat.add_le_add_right ih _
  | @settled ms n t m h hm ih =>
    have hle := hm.count_le r
    rw [Option.bind_some] at ih
    simp only [Mark.filterMap_append_mark, List.count_append, hm.handed?_eq, Option.bind_none,
      Option.toList_none, List.count_nil]
    omega

structure Chain.HandedBy (c : Chain) (n : Notice) : Prop where
  chain : n.chain = some c.id
  target : n.target? = c.receiver?
  since : c.receivingSince = some n.startedAt

inductive Sequencer.Holds (s : Sequencer) : Option Notice → Prop
  | nothing (h : ∀ c, s.active = some c → c.state ≠ .received) : Holds s none
  | parked {c : Chain} {n : Notice} (ha : s.active = some c) (hs : c.state = .received)
      (hn : c.HandedBy n) : Holds s (some n)

theorem Sequencer.Holds.of_active {s s' : Sequencer} (h : s.Holds o)
    (ha : s'.active = s.active) : s'.Holds o := by
  cases h with
  | nothing h => exact .nothing fun _ hc => h _ (ha ▸ hc)
  | parked hc hs hn => exact .parked (ha.trans hc) hs hn

structure View.Tended (limit : Duration) (v : View) (o : Option Notice) : Prop where
  config : v.config.receiverTimeout = limit
  waiting : ∀ c ∈ v.waiting, c.receiverTimeout = limit
  active : ∀ c, v.sequencer.active = some c → c.receiverTimeout = limit
  handing : ∀ n i c, v.sequencer.stage = .handing n i → v.sequencer.active = some c →
    c.HandedBy n
  holds : v.sequencer.Holds o

namespace View

variable {v w : View} {es : List ChainEvent}

theorem Turns.waiting_subset (h : v.Turns w es) : w.waiting ⊆ v.waiting := by
  cases h with
  | stay hr ht hw hb hs he => exact hw ▸ List.Subset.refl _
  | stop hr ht hw hb hs => exact hw.subset
  | start hr hv ht hw hb hp ha hs => exact hw ▸ List.subset_cons_self _ _
  | hand hr hv ht hw hb hb' hn hs => exact hw ▸ List.Subset.refl _
  | handed hr hv ht hw hb hb' hn hsub hs => exact hw ▸ List.Subset.refl _
  | finish last reason hr hv ht hw hb hl hf hs => exact hw ▸ List.Subset.refl _

theorem Request.config_eq {a : Option Admission} (h : v.Request a w) : w.config = v.config := by
  cases h with
  | publish hn hm hq => exact (congrArg View.config hq.frame :)
  | _ => rfl

theorem Effect.config_eq {a : Option Admission} (h : v.Effect a es w) : w.config = v.config := by
  cases h with
  | request hq => exact hq.config_eq
  | carry lane hc => rw [hc.frame]
  | move hm => rw [hm.frame]

theorem Effect.waiting_subset (h : v.Effect none es w) (hv : v.Sound) : w.waiting ⊆ v.waiting := by
  cases h with
  | request hq =>
    rw [hq.waiting_eq, Option.bind_none, Option.toList_none, List.append_nil]
    exact List.Subset.refl _
  | carry lane hc =>
    rw [View.waiting, hc.sequencer_eq]
    exact List.Subset.refl _
  | move hm => exact (hm.turns hv).waiting_subset

namespace Tended

theorem stay (h : v.Tended limit o) (hc : w.config = v.config) (hw : w.waiting ⊆ v.waiting)
    (ha : w.sequencer.active = v.sequencer.active)
    (hs : ∀ n i, w.sequencer.stage ≠ .handing n i) : w.Tended limit o where
  config := hc ▸ h.config
  waiting := fun c hm => h.waiting c (hw hm)
  active := fun c hm => h.active c (ha ▸ hm)
  handing := fun n i _ hn => absurd hn (hs n i)
  holds := h.holds.of_active ha

theorem idle (h : v.Tended limit o) (hc : w.config = v.config) (hw : w.waiting ⊆ v.waiting)
    (ha : ∀ c, w.sequencer.active = some c → c.state = .idle ∧ c.receiverTimeout = limit)
    (hs : ∀ n i, w.sequencer.stage ≠ .handing n i) : w.Tended limit none where
  config := hc ▸ h.config
  waiting := fun c hm => h.waiting c (hw hm)
  active := fun c hm => (ha c hm).2
  handing := fun n i _ hn => absurd hn (hs n i)
  holds := .nothing fun c hm => by simp [(ha c hm).1]

theorem request {a : Option Admission} (h : v.Tended limit o) (hq : v.Request a w) :
    w.Tended limit o := by
  obtain ⟨cs, -, hs⟩ := hq.sends
  have hactive : w.sequencer.active = v.sequencer.active := by rw [hs]
  refine ⟨hq.config_eq ▸ h.config, ?_, fun c hc => h.active c (hactive ▸ hc), ?_,
    h.holds.of_active hactive⟩
  · intro c hc
    rw [hq.waiting_eq] at hc
    cases List.mem_append.1 hc with
    | inl hc => exact h.waiting c hc
    | inr hc =>
      cases a with
      | none => cases hc
      | some a =>
        obtain ⟨id, -, rfl⟩ := Option.map_eq_some_iff.1 (Option.mem_toList.1 hc)
        exact h.config
  · intro n i c hn hc
    rw [hs] at hn
    exact h.handing n i c hn (hactive ▸ hc)

theorem carries {lane : Lane} (h : v.Tended limit o) (hc : v.Carries lane w) :
    w.Tended limit o := by
  have hconfig : w.config = v.config := by rw [hc.frame]
  refine ⟨hconfig ▸ h.config, ?_, ?_, ?_, h.holds.of_active (by rw [hc.sequencer_eq])⟩
  · rw [View.waiting, hc.sequencer_eq]
    exact h.waiting
  · rw [hc.sequencer_eq]
    exact h.active
  · rw [hc.sequencer_eq]
    exact h.handing

theorem pump (h : v.Tended limit o) (hv : v.Sound) (hp : v.sequencer.stage = .pumping)
    (hm : v.Moves es w) : w.Tended limit o := by
  have hconfig : w.config = v.config := by rw [hm.frame]
  have hwaiting := (hm.turns hv).waiting_subset
  have unparked : (∀ c, v.sequencer.active = some c → c.awaiting = none) → o = none := by
    intro hc
    cases h.holds with
    | nothing hn => rfl
    | parked ha hs hn =>
      obtain ⟨r, hr⟩ := (hv.sequencer.active _ ha).awaiting hs
      cases (hc _ ha).symm.trans hr
  have apart : ∀ {c : Chain}, v.sequencer.active = some c → c.awaiting = none → o = none := by
    intro c ha hw
    refine unparked fun c' hc' => ?_
    cases ha.symm.trans hc'
    exact hw
  have vacant : v.sequencer.active = none → o = none :=
    fun ha => unparked fun c hc => by cases ha.symm.trans hc
  have passed : ∀ {c c' : Chain} {i : Nat} {r : SubscriberId}, v.sequencer.active = some c →
      c.next v.now = (.deliver i r, c') → ∀ x, some c'.skip = some x →
      x.state = .idle ∧ x.receiverTimeout = limit := by
    intro c c' i r ha hn x hx
    cases hx
    obtain ⟨-, -, -, -, -, rfl⟩ := Chain.next_deliver hn
    rw [Chain.skip_eq]
    exact ⟨rfl, h.active c ha⟩
  have elsewhere : ∀ {s : SequencerStage}, v.sequencer.stage = s → s ≠ .pumping → False :=
    fun hs hne => hne (hs.symm.trans hp)
  cases hm with
  | rest hs ha hp' => exact h.stay hconfig hwaiting rfl fun _ _ => SequencerStage.noConfusion
  | park hs ha hr => exact h.stay hconfig hwaiting rfl fun _ _ => SequencerStage.noConfusion
  | breakDown hs ha hb => exact h.stay hconfig hwaiting rfl fun _ _ => SequencerStage.noConfusion
  | @start c rest hs ha hp' =>
    cases vacant ha
    refine h.idle hconfig hwaiting ?_ (by simp [tell, hs])
    intro c' hc'
    cases hc'
    refine ⟨((hv.sequencer.queued c (hp' ▸ List.mem_cons_self)).start _).2, ?_⟩
    exact h.waiting c (List.mem_append_left _ (hp' ▸ List.mem_cons_self))
  | pass hs ha hw hn he =>
    cases apart ha hw
    exact h.idle hconfig hwaiting (passed ha hn) (by simp [hs])
  | hold hs ha hw hn he hf =>
    cases apart ha hw
    exact h.idle hconfig hwaiting (passed ha hn) (by simp [hs])
  | @hand c c' i r e hs ha hw hn he hf =>
    cases apart ha hw
    obtain ⟨-, -, -, -, hr, rfl⟩ := Chain.next_deliver hn
    refine ⟨h.config, fun c hc => h.waiting c (hwaiting hc), ?_, ?_, .nothing ?_⟩
    · intro c' hc'
      cases hc'
      exact h.active c ha
    · intro n i c' hn hc'
      cases hn
      cases hc'
      have hid : e.subscriber.id = r := hv.registry.keyed he
      refine ⟨rfl, ?_, rfl⟩
      rw [Notice.target?, Chain.notice, Option.map_some, hid]
      exact hr.symm
    · intro c' hc'
      cases hc'
      exact ChainState.noConfusion
  | finish hs ha hw hn hf =>
    cases apart ha hw
    exact h.idle hconfig hwaiting (fun c hc => by cases hc) fun _ _ => SequencerStage.noConfusion
  | close hs ha hw hn hf =>
    cases apart ha hw
    exact h.idle hconfig hwaiting (fun c hc => by cases hc) fun _ _ => SequencerStage.noConfusion
  | stop hs _ => exact (elsewhere hs SequencerStage.noConfusion).elim
  | enqueue hs _ => exact (elsewhere hs SequencerStage.noConfusion).elim
  | ignore hs _ _ _ => exact (elsewhere hs SequencerStage.noConfusion).elim
  | accept hs _ _ _ _ => exact (elsewhere hs SequencerStage.noConfusion).elim
  | release hs _ _ _ => exact (elsewhere hs SequencerStage.noConfusion).elim
  | expire hs _ _ _ => exact (elsewhere hs SequencerStage.noConfusion).elim
  | expireReceiver hs _ _ _ => exact (elsewhere hs SequencerStage.noConfusion).elim
  | parked hs _ _ | overrun hs _ _ => exact (elsewhere hs SequencerStage.noConfusion).elim
  | failed hs _ _ => exact (elsewhere hs SequencerStage.noConfusion).elim
  | stray hs _ => exact (elsewhere hs SequencerStage.noConfusion).elim
  | closed hs => exact (elsewhere hs SequencerStage.noConfusion).elim

end Tended

end View

end EventBroker
