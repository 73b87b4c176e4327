import EventBroker.Proofs.Reckoning
import EventBroker.Proofs.Settling

/-! Punctual runs, whose clock stops at every deadline of the sequencer until what is due then has
been done, and what such runs preserve of the active chain as time passes. -/

namespace EventBroker

namespace Broker

variable (b : Broker)

/-- Nothing of the sequencer's is left to be done before `t`: it has no step to make, and neither a
hand-off nor a deadline of its chain ends earlier. -/
def mayPassTo (t : Instant) : Bool :=
  match b.sequencer.stage with
  | .stopped => true
  | .pumping => false
  | .handing n _ | .closing n _ _ => (b.handoffDeadline n).all (t ≤ ·)
  | .listening => b.sequencerStep.isNone && b.nextWake.all (t ≤ ·)

def inTime : Action → Bool
  | .tick t => t ≤ b.now || b.mayPassTo t
  | _ => true

def punctual (b : Broker) : List Action → Bool
  | [] => true
  | a :: rest => b.inTime a && (b.act a).punctual rest

section Now

theorem now_subscribe (req : Subscription) : (b.subscribe req).2.now = b.now := by
  cases h : b.subscribe req with
  | mk result b' =>
    cases result with
    | error e => exact congrArg View.now (subscribe_refused h)
    | ok id =>
      obtain ⟨s, -, -, ps, -, hv⟩ := subscribe_admitted h
      exact (congrArg View.now hv :)

theorem now_post (p : Publication) (finalReceiver : Option Receiver) :
    (b.post p finalReceiver).2.now = b.now := by
  cases h : b.post p finalReceiver with
  | mk result b' =>
    cases result with
    | error e => exact congrArg View.now (post_refused h)
    | ok r =>
      obtain ⟨w, hq, hv⟩ := post_admitted h
      exact (congrArg View.now hv).trans (congrArg View.now hq.frame :)

theorem now_flushFrozen (sel : Selector) : (b.flushFrozen sel).2.now = b.now := by
  by_cases h : (b.vault.flush sel).1 = []
  · rw [flushFrozen_nothing b h]
  · cases hr : b.replay.refuses with
    | false => exact (congrArg View.now (flushFrozen_taken b h hr) :)
    | true => exact (congrArg View.now (flushFrozen_refused b h hr) :)

theorem act_now (a : Action) : (b.act a).now = b.now ∨ ∃ t, a = .tick t := by
  have sent {b' : Broker} {v : View} (hv : v.now = b.now)
      (h : ∃ cs : List Command, (∀ c ∈ cs, c.chain? = none) ∧ b'.view = v.send cs) :
      b'.now = b.now := by
    obtain ⟨cs, -, h⟩ := h
    exact (congrArg View.now h).trans hv
  cases hi : isWork a with
  | true =>
    left
    by_cases hw : a = .work .sequencer
    · subst hw
      change ((b.work .sequencer).getD b).now = b.now
      cases hb : b.work .sequencer with
      | none => rfl
      | some b' =>
        obtain ⟨evs, hm⟩ := sequencerStep_moves hb
        exact (congrArg View.now hm.frame :)
    · by_cases hc : ∃ reception, a = .handedOff .sequencer reception
      · obtain ⟨reception, rfl⟩ := hc
        cases b.sequencerConclude_moves reception.result with
        | inl h => exact congrArg View.now h
        | inr h =>
          obtain ⟨-, evs, hm⟩ := h
          exact (congrArg View.now hm.frame :)
      · cases b.act_carries hi hw fun reception e => hc ⟨reception, e⟩ with
        | inl h => exact congrArg View.now h
        | inr h =>
          obtain ⟨lane, h⟩ := h
          exact (congrArg View.now h.frame :)
  | false =>
    cases a with
    | tick t => exact .inr ⟨t, rfl⟩
    | subscribe req => exact .inl (b.now_subscribe req)
    | publish p => exact .inl (b.now_post p none)
    | publishWithResult p receiver => exact .inl (b.now_post _ _)
    | updateFreeze sel frozen => exact .inl (congrArg View.now (b.updateFreeze_view sel frozen) :)
    | flushFrozen sel => exact .inl (b.now_flushFrozen sel)
    | unsubscribe id => exact .inl (sent rfl (b.unsubscribe_view id))
    | ownerDied pid => exact .inl (sent rfl (b.ownerDied_view pid))
    | finish receiver code data abort => exact .inl (sent rfl (b.ask_view _ _ _ fun _ => rfl))
    | active receiver => exact .inl (sent rfl (b.ask_view _ _ _ fun _ => rfl))
    | shutdown => exact .inl (congrArg View.now b.shutdown_view :)
    | resume call => exact .inl (sent rfl (b.resume_view call))
    | observed i panic => exact .inl (congrArg View.now (b.observerConclude_view i panic))
    | setOracle o => exact .inl rfl
    | work w => cases hi
    | handedOff w reception => cases hi

end Now

end Broker

namespace View

variable {v w : View} {a : Option Admission} {es : List ChainEvent} {t : Instant}

structure MayPassTo (v : View) (t : Instant) : Prop where
  waits : v.sequencer.stage ≠ .pumping
  busy : ∀ n ∈ v.busy, ∀ limit ∈ v.config.handoffLimit, t ≤ n.startedAt.after limit
  unasked : v.sequencer.stage = .listening → v.sequencer.commands = []
  parked : v.sequencer.stage = .listening → ∀ c ∈ v.sequencer.active,
    (∀ d ∈ c.watchdogDeadline, t ≤ d) ∧ ∀ d ∈ c.receiverDeadline, t ≤ d

inductive Goes (v : View) : Option Admission → List ChainEvent → View → Prop
  | act {a : Option Admission} {es : List ChainEvent} {w : View} {s : Option Settlement}
      {f : Option (Chain × FinishReason)} (he : v.Effect a es w) (ha : v.Advances w s f)
      (hn : w.now = v.now) : Goes v a es w
  | wait {t : Instant} (hle : v.now ≤ t) (hm : v.sequencer.stage ≠ .stopped → v.MayPassTo t) :
    Goes v none [] { v with now := t }

theorem Goes.effect (h : v.Goes a es w) : v.Effect a es w := by
  cases h with
  | act he ha hn => exact he
  | @wait t hle hm =>
    have hw : View.Effect v none [] { v with now := max v.now t } := .request (.tick t)
    rwa [Nat.max_eq_right hle] at hw

end View

namespace Broker

variable {b : Broker} {t : Instant}

theorem sequencerStep_of_listening (hs : b.sequencer.stage = .listening)
    (h : b.sequencerStep = none) : b.sequencer.commands = [] := by
  rw [sequencerStep, hs] at h
  dsimp only at h
  split at h
  · cases h
  · split at h
    · cases h
    · assumption

theorem le_of_nextWake {c : Chain} (ha : b.sequencer.active = some c)
    (h : b.nextWake.all (t ≤ ·) = true) :
    (∀ d ∈ c.watchdogDeadline, t ≤ d) ∧ ∀ d ∈ c.receiverDeadline, t ≤ d := by
  rw [nextWake, ha, Option.bind_some] at h
  cases hr : c.receiverDeadline with
  | none =>
    refine ⟨fun d hd => ?_, fun d hd => absurd hd (Option.not_mem_none d)⟩
    rw [hr, show c.watchdogDeadline = some d from hd] at h
    exact of_decide_eq_true h
  | some x =>
    cases hw : c.watchdogDeadline with
    | none =>
      refine ⟨fun d hd => absurd hd (Option.not_mem_none d), fun d hd => ?_⟩
      rw [hr, hw] at h
      cases hd
      exact of_decide_eq_true h
    | some y =>
      rw [hr, hw] at h
      have hle : t ≤ min x y := of_decide_eq_true h
      refine ⟨fun d hd => ?_, fun d hd => ?_⟩
      · cases hd
        exact Nat.le_trans hle (Nat.min_le_right ..)
      · cases hd
        exact Nat.le_trans hle (Nat.min_le_left ..)

theorem mayPassTo_view (hr : b.sequencer.stage ≠ .stopped) (h : b.mayPassTo t = true) :
    b.view.MayPassTo t := by
  have handing {n : Notice} (h : (b.handoffDeadline n).all (t ≤ ·) = true) :
      ∀ limit ∈ b.config.handoffLimit, t ≤ n.startedAt.after limit := by
    intro limit hl
    rw [handoffDeadline, show b.config.handoffLimit = some limit from hl] at h
    exact of_decide_eq_true h
  rw [mayPassTo] at h
  cases hs : b.sequencer.stage with
  | stopped => exact absurd hs hr
  | pumping =>
    rw [hs] at h
    cases h
  | handing n i =>
    rw [hs] at h
    refine ⟨by simp [view, hs], fun n' hn => ?_, by simp [view, hs], by simp [view, hs]⟩
    cases (by simpa [View.busy, view, hs] using hn : n = n')
    exact handing h
  | closing n c reason =>
    rw [hs] at h
    refine ⟨by simp [view, hs], fun n' hn => ?_, by simp [view, hs], by simp [view, hs]⟩
    cases (by simpa [View.busy, view, hs] using hn : n = n')
    exact handing h
  | listening =>
    rw [hs] at h
    obtain ⟨hstep, hwake⟩ := Bool.and_eq_true_iff.1 h
    refine ⟨by simp [view, hs], by simp [View.busy, view, hs], fun _ => ?_, fun _ c hc => ?_⟩
    · exact sequencerStep_of_listening hs (Option.isNone_iff_eq_none.1 hstep)
    · exact le_of_nextWake hc hwake

theorem act_goes (hv : b.view.Sound) (ha : b.view.Addressed) {a : Action} (h : b.inTime a = true) :
    b.view.Goes (b.admits a) (b.deeds a) (b.act a).view := by
  have he := b.act_effect a hv.registry
  obtain ⟨f, rs, hr⟩ := reckons_act hv ha a
  obtain hn | ⟨t, rfl⟩ := b.act_now a
  · exact .act he hr.advances hn
  · by_cases hle : t ≤ b.now
    · refine .act he hr.advances ?_
      exact Nat.max_eq_left hle
    · have hlt : b.now ≤ t := Nat.le_of_not_le hle
      have hw : (b.act (.tick t)).view = { b.view with now := t } := by
        change { b.view with now := max b.now t } = _
        rw [Nat.max_eq_right hlt]
      have hd : b.deeds (.tick t) = [] := b.deeds_silent (by simp) (congrArg View.signals hw :)
      rw [hw, hd]
      refine .wait hlt fun hs => mayPassTo_view hs ?_
      simpa [inTime, hle] using h

end Broker

namespace Chain

/-- How long time may pass while some receiver has the chain: a hand-off ends within `limit`, and
once it has ended the sequencer wakes at the first deadline of the chain. -/
inductive Awaits (limit : Duration) (t : Instant) (c : Chain) : Prop
  | receiving {s : Instant} (hs : c.state = .receiving) (hc : c.receivingSince = some s)
      (ht : t ≤ s.after limit) : Awaits limit t c
  | received {s begun : Instant} (hs : c.state = .received) (hc : c.receivingSince = some s)
      (hb : c.startedAt = some begun) (hr : t ≤ s.after c.receiverTimeout)
      (hw : t ≤ begun.after c.watchdogBudget) : Awaits limit t c

/-- Once it holds of a started chain and the time, `P` goes on holding, whatever becomes of the
chain and however long a receiver has it. -/
structure Endures (limit : Duration) (P : Chain → Instant → Prop) : Prop where
  advance : ∀ {c c' : Chain} {now : Instant} {x : Option (SubscriberId × Fate)}, c.Sound →
    P c now → c.Advances now x c' → P c' now
  wait : ∀ {c : Chain} {now t : Instant}, P c now → now ≤ t → c.Awaits limit t → P c t

end Chain

namespace View

variable {v w : View} {a : Option Admission} {es : List ChainEvent} {t : Instant}
  {limit : Duration} {P : Chain → Instant → Prop}

structure Timed (limit : Duration) (P : Chain → Instant → Prop) (v : View) : Prop where
  limited : v.config.handoffLimit = some limit
  handing : ∀ n i c, v.sequencer.stage = .handing n i → v.sequencer.active = some c →
    c.receivingSince = some n.startedAt
  waiting : ∀ c ∈ v.waiting, ∀ t, P (c.start t) t
  active : v.sequencer.stage ≠ .stopped → ∀ c, v.sequencer.active = some c → P c v.now

theorem Effect.not_stopped (h : v.Effect a es w) (hv : v.Sound)
    (hw : w.sequencer.stage ≠ .stopped) : v.sequencer.stage ≠ .stopped := by
  cases h with
  | request hq => rwa [hq.stage_eq] at hw
  | carry lane hc => rwa [hc.sequencer_eq] at hw
  | move hm =>
    cases hm.turns hv with
    | stop hr ht hwait hb hs => exact absurd hr hw
    | stay hr | start hr | hand hr | handed hr | finish _ _ hr => exact hr

theorem Effect.waiting_mem (h : v.Effect a es w) (hv : v.Sound) {c : Chain} (hc : c ∈ w.waiting) :
    c ∈ v.waiting ∨ a.bind v.chainOf = some c := by
  cases h with
  | request hq =>
    rw [hq.waiting_eq] at hc
    exact (List.mem_append.1 hc).imp_right Option.mem_toList.1
  | carry lane hk =>
    rw [View.waiting, hk.sequencer_eq] at hc
    exact .inl hc
  | move hm => exact .inl ((hm.turns hv).waiting_subset hc)

theorem Effect.handing_since (h : v.Effect a es w) (hv : ∀ n i c, v.sequencer.stage = .handing n i →
      v.sequencer.active = some c → c.receivingSince = some n.startedAt) :
    ∀ n i c, w.sequencer.stage = .handing n i → w.sequencer.active = some c →
      c.receivingSince = some n.startedAt := by
  intro n i c hs hc
  cases h with
  | request hq =>
    obtain ⟨cs, -, hw⟩ := hq.sends
    rw [hw] at hs hc
    exact hv n i c hs hc
  | carry lane hk =>
    rw [hk.sequencer_eq] at hs hc
    exact hv n i c hs hc
  | move hm =>
    cases hm with
    | hand h ha hw hn he hf =>
      cases hs
      cases hc
      rfl
    | ignore h hq hn ha => cases h.symm.trans hs
    | start h ha hp => cases h.symm.trans hs
    | pass h ha hw hn he => cases h.symm.trans hs
    | hold h ha hw hn he hf => cases h.symm.trans hs
    | _ => cases hs

theorem Effect.closing (h : v.Effect a es w) {n : Notice} {c : Chain} {reason : FinishReason}
    (hs : w.sequencer.stage = .closing n c reason) : v.sequencer.stage = .closing n c reason ∨
      v.sequencer.stage = .pumping ∧ n.startedAt = v.now ∧ ∃ c₀, v.sequencer.active = some c₀ ∧
        c₀.next v.now = (.finalize reason, c) := by
  cases h with
  | request hq => exact .inl (hq.stage_eq.symm.trans hs)
  | carry lane hk => exact .inl (hk.sequencer_eq ▸ hs)
  | move hm =>
    cases hm with
    | close hstage ha hw hn hf =>
      cases hs
      exact .inr ⟨hstage, rfl, _, ha, hn⟩
    | ignore hstage hq hn ha => cases hstage.symm.trans hs
    | start hstage ha hp => cases hstage.symm.trans hs
    | pass hstage ha hw hn he => cases hstage.symm.trans hs
    | hold hstage ha hw hn he hf => cases hstage.symm.trans hs
    | _ => cases hs

theorem Timed.awaits (h : v.Timed limit P) (hv : v.Sound) (hs : v.sequencer.stage ≠ .stopped)
    (hm : v.MayPassTo t) {c : Chain} (hc : v.sequencer.active = some c) : c.Awaits limit t := by
  have sound := hv.sequencer.active c hc
  cases hstage : v.sequencer.stage with
  | stopped => exact absurd hstage hs
  | pumping => exact absurd hstage hm.waits
  | closing n c' reason => cases (hv.sequencer.closing hstage).symm.trans hc
  | handing n i =>
    refine .receiving (hv.handing hstage hc).1 (h.handing n i c hstage hc) ?_
    exact hm.busy n (by simp [busy, hstage]) limit h.limited
  | listening =>
    obtain ⟨r, hr⟩ := hv.sequencer.awaiting hstage hc
    have hstate := Chain.received_of_awaiting hr
    obtain ⟨i, hi⟩ := sound.engaged (by simp [hstate])
    obtain ⟨s, hsince⟩ := Option.ne_none_iff_exists'.1 hi.timed
    obtain ⟨begun, hbegun⟩ := Option.ne_none_iff_exists'.1 sound.begun
    obtain ⟨hwatchdog, hreceiver⟩ := hm.parked hstage c hc
    refine .received hstate hsince hbegun (hreceiver _ ?_) (hwatchdog _ ?_)
    · rw [Chain.receiverDeadline, if_pos hstate, hsince]
      rfl
    · rw [Chain.watchdogDeadline, hbegun]
      rfl

theorem Timed.goes (h : v.Timed limit P) (hP : Chain.Endures limit P) (hv : v.Sound)
    (hnew : ∀ c, a.bind v.chainOf = some c → ∀ t, P (c.start t) t) (hg : v.Goes a es w) :
    w.Timed limit P := by
  have he := hg.effect
  refine ⟨he.config_eq ▸ h.limited, he.handing_since h.handing, fun c hc => ?_, fun hs c hc => ?_⟩
  · exact (he.waiting_mem hv hc).elim (h.waiting c) (hnew c)
  replace hs := he.not_stopped hv hs
  cases hg with
  | wait hle hm => exact hP.wait (h.active hs c hc) hle (h.awaits hv hs (hm hs) hc)
  | act he ha hn =>
    rw [hn]
    cases ha with
    | aside ha hst => exact h.active hs c (ha ▸ hc)
    | @start c₀ rest hst ha hp hw hst' =>
      cases hw.symm.trans hc
      exact h.waiting c₀ (List.mem_append_left _ (hp ▸ List.mem_cons_self)) v.now
    | go ha hw hadv hst hst' =>
      cases hw.symm.trans hc
      exact hP.advance (hv.sequencer.active _ ha) (h.active hs _ ha) hadv
    | finish hst ha hi hn hw hst' => cases hw.symm.trans hc
    | close hst ha hi hn hw hst' => cases hw.symm.trans hc
    | closed hst hw hst' => cases hw.symm.trans hc

end View

end EventBroker
