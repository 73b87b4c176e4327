import EventBroker.Proofs.Budgeting
import EventBroker.Proofs.Timeline
import EventBroker.Proofs.Turns

namespace EventBroker

namespace Config

variable {config : Config} {n : Nat}

/-- No hand-off takes longer than the receiver may, and the watchdog leaves each receiver more than
its own time. -/
structure Lenient (config : Config) (limit : Duration) : Prop where
  limited : config.handoffLimit = some limit
  bounded : 0 < config.receiverTimeout.toNanos
  within : limit.toNanos ≤ config.receiverTimeout.toNanos
  factor : 2 ≤ config.watchdogFactor

structure Budgets (config : Config) (n : Nat) : Prop where
  counted : n < UInt32.size
  fits : config.receiverTimeout.toNanos * (config.watchdogFactor * max n 1) ≤ Duration.max.toNanos

theorem Budgets.lt {limit : Duration} (h : config.Budgets n) (hc : config.Lenient limit) :
    n * config.receiverTimeout.toNanos < (config.watchdogBudget n).toNanos := by
  have hfactor : max config.watchdogFactor 1 = config.watchdogFactor :=
    Nat.max_eq_left (Nat.le_of_succ_le hc.factor)
  have hcount : min (max n 1) maxCount = max n 1 := by
    have hn := h.counted
    simp only [maxCount, UInt32.size] at hn ⊢
    omega
  have hfits := h.fits
  rw [← Nat.mul_assoc] at hfits
  rw [toNanos_watchdogBudget, hfactor, hcount, Nat.min_eq_left hfits]
  calc n * config.receiverTimeout.toNanos
      < 2 * max n 1 * config.receiverTimeout.toNanos :=
        Nat.mul_lt_mul_of_pos_right (by omega) hc.bounded
    _ ≤ config.watchdogFactor * max n 1 * config.receiverTimeout.toNanos :=
        Nat.mul_le_mul_right _ (Nat.mul_le_mul_right _ hc.factor)
    _ = config.receiverTimeout.toNanos * config.watchdogFactor * max n 1 := by
        rw [Nat.mul_comm, Nat.mul_assoc]

end Config

namespace Chain

variable {c c' : Chain} {T limit : Duration} {now : Instant}

/-- The chain has taken no longer than its receivers so far may, each of them `T`, and the one that
has it got it no later than at its turn. -/
structure OnTime (T : Duration) (c : Chain) (now : Instant) : Prop where
  limited : c.receiverTimeout = T
  ample : c.receivers.length * T.toNanos < c.watchdogBudget.toNanos
  unexpired : c.expired = false
  inside : c.cursor ≤ c.receivers.length
  turned : ∀ t, c.startedAt = some t → now ≤ t + c.cursor * T.toNanos
  engaged : c.state ≠ .idle → ∀ s, c.receivingSince = some s →
    now ≤ s.after T ∧ ∀ t, c.startedAt = some t → s.after T ≤ t + c.cursor * T.toNanos

theorem Fresh.onTime (h : c.Fresh) (hT : c.receiverTimeout = T)
    (hb : c.receivers.length * T.toNanos < c.watchdogBudget.toNanos) (now : Instant) :
    (c.start now).OnTime T now := by
  have hidle := (h.start now).2
  cases h
  refine ⟨hT, hb, rfl, Nat.zero_le _, fun t ht => ?_, fun hs => absurd hidle hs⟩
  cases ht
  exact Nat.le_add_right _ _

namespace OnTime

theorem not_due (h : c.OnTime T now) : due c.watchdogDeadline now = false := by
  cases hs : c.startedAt with
  | none => rw [watchdogDeadline, hs]; rfl
  | some t =>
    rw [watchdogDeadline, hs, Option.map_some, due, Option.any_some, decide_eq_false_iff_not,
      Nat.not_le]
    calc now ≤ t + c.cursor * T.toNanos := h.turned t hs
      _ ≤ t + c.receivers.length * T.toNanos :=
          Nat.add_le_add_left (Nat.mul_le_mul_right _ h.inside) t
      _ < t + c.watchdogBudget.toNanos := Nat.add_lt_add_left h.ample t

theorem ne_watchdog (h : c.OnTime T now) {reason : FinishReason}
    (hn : c.next now = (.finalize reason, c')) : reason ≠ .watchdog := by
  rintro rfl
  cases overdue_of_next hn with
  | inl hx => cases h.unexpired.symm.trans hx
  | inr hd => cases h.not_due.symm.trans hd

theorem settled (h : c.OnTime T now) (ht : c.Terms c') (hc : c'.cursor = c.cursor)
    (hx : c'.expired = c.expired) (hs : c'.state = .idle) : c'.OnTime T now where
  limited := ht.receiverTimeout.trans h.limited
  ample := by
    rw [ht.receivers, ht.watchdogBudget]
    exact h.ample
  unexpired := hx.trans h.unexpired
  inside := by
    rw [hc, ht.receivers]
    exact h.inside
  turned := by
    rw [hc, ht.startedAt]
    exact h.turned
  engaged := fun h => absurd hs h

section Next

variable {i : Nat} {r : SubscriberId} (h : c.OnTime T now) (hn : c.next now = (.deliver i r, c'))

include h hn

theorem deliver : c'.OnTime T now := by
  obtain ⟨-, -, -, -, hr, rfl⟩ := next_deliver hn
  refine ⟨h.limited, h.ample, h.unexpired, (List.getElem?_eq_some_iff.1 hr).1, fun t ht => ?_,
    fun hs => absurd rfl hs⟩
  exact Nat.le_trans (h.turned t ht)
    (Nat.add_le_add_left (Nat.mul_le_mul_right _ (Nat.le_succ _)) t)

theorem receiving : (c'.beginReceiving now).OnTime T now := by
  have h' := h.deliver hn
  obtain ⟨-, -, -, -, -, rfl⟩ := next_deliver hn
  refine ⟨h'.limited, h'.ample, h'.unexpired, h'.inside, h'.turned, fun _ s hs => ?_⟩
  cases hs
  refine ⟨Nat.le_add_right _ _, fun t ht => ?_⟩
  have hle := h.turned t ht
  simp only [Chain.beginReceiving, Instant.after, Nat.succ_mul, ← Nat.add_assoc]
  exact Nat.add_le_add_right hle _

end Next

theorem handedOff (h : c.OnTime T now) : c.handedOff.OnTime T now := by
  rw [Chain.handedOff]
  split
  · rename_i hs
    exact ⟨h.limited, h.ample, h.unexpired, h.inside, h.turned,
      fun _ => h.engaged (by simp [hs])⟩
  · exact h

end OnTime

theorem endures_onTime (hle : limit.toNanos ≤ T.toNanos) : Endures limit (OnTime T) where
  advance := by
    intro c c' now x _ h hadv
    have hterms := hadv.terms
    cases hadv with
    | finished hr code data abort =>
      rw [finish_of_awaiting hr] at hterms ⊢
      exact h.settled hterms rfl rfl rfl
    | released hr =>
      rw [release_of_awaiting hr] at hterms ⊢
      exact h.settled hterms rfl rfl rfl
    | timedOut hr hd =>
      rw [expireReceiver_of_awaiting hr] at hterms ⊢
      exact h.settled hterms rfl rfl rfl
    | expired hr hd => cases h.not_due.symm.trans hd
    | passed hs hn hf =>
      rw [skip_eq]
      exact (h.deliver hn).settled ⟨rfl, rfl, rfl, rfl, rfl, rfl⟩ rfl rfl rfl
    | handing hs hn => exact h.receiving hn
    | parked => exact h.handedOff
    | failed hs hr =>
      rw [skip_eq] at hterms ⊢
      exact h.settled hterms rfl rfl rfl
  wait := by
    intro c now t h _ hw
    have passes {s : Instant} (hs : c.state ≠ .idle) (hc : c.receivingSince = some s)
        (ht : t ≤ s.after T) : c.OnTime T t := by
      obtain ⟨-, hturn⟩ := h.engaged hs s hc
      refine ⟨h.limited, h.ample, h.unexpired, h.inside,
        fun begun hb => Nat.le_trans ht (hturn begun hb), fun _ s' hs' => ?_⟩
      cases hc.symm.trans hs'
      exact ⟨ht, hturn⟩
    cases hw with
    | receiving hs hc ht =>
      exact passes (by simp [hs]) hc (Nat.le_trans ht (Nat.add_le_add_left hle _))
    | received hs hc hb hr hw => exact passes (by simp [hs]) hc (h.limited ▸ hr)

end Chain

def Fate.Turned (ended : List Fate) (i : Nat) : Prop :=
  i < ended.length ∨ ∃ j < i, ended[j]? = some (.finished true)

namespace FinishReason

theorem eq_watchdog {reason : FinishReason} (h : reason.name = watchdog.name) :
    reason = .watchdog := by
  cases reason with
  | exhausted => exact absurd h (by decide)
  | aborted => exact absurd h (by decide)
  | watchdog => rfl

theorem Fits.turn {reason : FinishReason} {n i : Nat} {ended : List Fate} (h : reason.Fits n ended)
    (hw : reason ≠ .watchdog) (hi : i < n) : Fate.Turned ended i := by
  cases reason with
  | watchdog => exact absurd rfl hw
  | exhausted =>
    left
    rwa [h.exhausted rfl]
  | aborted =>
    rw [Fate.Turned, or_iff_not_imp_left, Nat.not_lt]
    intro hle
    have hlast := h.aborted.1 rfl
    cases hl : ended.getLast? with
    | none =>
      rw [hl] at hlast
      cases hlast
    | some f =>
      rw [hl] at hlast
      have hne : ended ≠ [] := by
        rintro rfl
        cases hl
      have hpos := List.length_pos_iff.2 hne
      refine ⟨ended.length - 1, by omega, ?_⟩
      rw [← List.getLast?_eq_getElem?, hl]
      cases f with
      | finished abort => exact congrArg (fun a => some (Fate.finished a)) hlast
      | _ => cases hlast

end FinishReason

namespace View

variable {v w : View} {a : Option Admission} {es : List ChainEvent} {limit : Duration}

theorem Carries.unfinished {lane : Lane} (h : v.Carries lane w) (id : Option ChainId)
    (reason : Option String) :
    .signal (.finished id reason) ∉ (w.signals.drop v.signals.length).map ChainEvent.signal := by
  cases h <;> cases lane <;> simp [tell, setCourier, setQueue]

structure AtEase (limit : Duration) (v : View) : Prop where
  lenient : v.config.Lenient limit
  timed : v.Timed limit (Chain.OnTime v.config.receiverTimeout)
  closing : ∀ n c reason, v.sequencer.stage = .closing n c reason → reason ≠ .watchdog

theorem onTime_of_chainOf {adm : Admission} {c : Chain} (h : v.chainOf adm = some c)
    (hc : v.config.Lenient limit) (hb : v.config.Budgets adm.matched.length) (t : Instant) :
    (c.start t).OnTime v.config.receiverTimeout t := by
  obtain ⟨id, -, rfl⟩ := Option.map_eq_some_iff.1 h
  refine (Chain.Fresh.mk ..).onTime rfl ?_ t
  change (adm.matched.map Subscriber.id).length * _ < _
  rw [List.length_map]
  exact hb.lt hc

namespace AtEase

variable (h : v.AtEase limit)

include h

theorem goes (hv : v.Sound) (hb : ∀ adm ∈ a, adm.chain ≠ none →
      v.config.Budgets adm.matched.length) (hg : v.Goes a es w) : w.AtEase limit := by
  have hconfig := hg.effect.config_eq
  refine ⟨hconfig ▸ h.lenient, ?_, fun n c reason hs => ?_⟩
  · rw [hconfig]
    refine h.timed.goes (Chain.endures_onTime h.lenient.within) hv (fun c hc t => ?_) hg
    obtain ⟨adm, hadm, hc⟩ := Option.bind_eq_some_iff.1 hc
    obtain ⟨id, hid, -⟩ := Option.map_eq_some_iff.1 hc
    exact onTime_of_chainOf hc h.lenient (hb adm hadm (by simp [hid])) t
  · obtain hold | ⟨hstage, -, c₀, hc, hn⟩ := hg.effect.closing hs
    · exact h.closing n c reason hold
    · exact (h.timed.active (by simp [hstage]) c₀ hc).ne_watchdog hn

theorem unexpired (he : v.Effect a es w) (id : Option ChainId) :
    .signal (.finished id (some FinishReason.watchdog.name)) ∉ es := by
  cases he with
  | request hq => exact List.not_mem_nil
  | carry lane hc => exact hc.unfinished id _
  | move hm =>
    cases hm with
    | @finish c c' reason hs ha hw hn hf =>
      intro hmem
      have hreason : reason.name = FinishReason.watchdog.name := by simp_all
      refine (h.timed.active (by simp [hs]) c ha).ne_watchdog hn ?_
      exact FinishReason.eq_watchdog hreason
    | @closed n c reason result hs =>
      intro hmem
      have hreason : reason.name = FinishReason.watchdog.name := by simp_all
      exact h.closing n c reason hs (FinishReason.eq_watchdog hreason)
    | _ => simp

theorem turn {admitted : List (ChainId × Option Receiver)} {receivers : List SubscriberId}
    {ended : List (SubscriberId × Fate)} {endings : List (ChainId × Option Nat × Option String)}
    {c : Chain} {t : Instant} {i : Nat} (hl : v.Lined admitted)
    (hk : v.Keeps c.id receivers ended endings) (hc : v.underway = some c)
    (hrun : v.sequencer.stage ≠ .stopped) (ht : c.startedAt = some t) (hi : i < receivers.length)
    (hlate : t + (i + 1) * v.config.receiverTimeout.toNanos < v.now) :
    Fate.Turned (ended.map Prod.snd) i := by
  cases hk with
  | waits hw hid => exact absurd hid (hl.underway_apart hc _ hw)
  | finished hp => exact absurd rfl (hp.underway_ne c hc)
  | lost hp => exact absurd rfl (hp.underway_ne c hc)
  | @closes n d reason hs hid hr hcur hk hf =>
    exact hf.turn (h.closing n d reason hs) hi
  | @serves d hs hd hid hr hp =>
    cases hd.symm.trans ((underway_of_ne hs).symm.trans hc)
    have hturn := (h.timed.active hrun c hd).turned t ht
    have hlt : (i + 1) * v.config.receiverTimeout.toNanos <
        c.cursor * v.config.receiverTimeout.toNanos :=
      Nat.lt_of_add_lt_add_left (Nat.lt_of_lt_of_le hlate hturn)
    have hcursor := Nat.lt_of_mul_lt_mul_right hlt
    left
    rw [List.length_map]
    by_cases hstate : c.state = .idle
    · rw [(hp.idle hstate).2] at hcursor
      exact Nat.lt_of_succ_lt hcursor
    · rw [(hp.engaged hstate).2.1] at hcursor
      exact Nat.lt_of_succ_lt_succ hcursor

end AtEase

end View

def Occurrence.Unfired (o : Occurrence) : Prop := o.topic? ≠ some (.record .watchdogFired)

namespace Broker

variable {b b' : Broker} {limit : Duration}

theorem Within.unfired {ts : List Topic} (h : b.Within ts b')
    (hts : .record .watchdogFired ∉ ts) : b.Tells Occurrence.Unfired b' :=
  Tells.imp h fun _ ho ht => hts (ho _ ht)

theorem Books.unexpired {admitted : List Admission} {settled : List Settlement}
    (h : b.Books admitted settled)
    (hr : ∀ t r, (t, .record r) ∈ b.history → r.kind ≠ .watchdogFired) :
    ∀ s ∈ settled, s.fate ≠ .expired := by
  intro s hs hfate
  have hverdict : (s.chain, s.receiver, .watchdogFired) ∈ b.verdicts := by
    rw [h.verdicts]
    refine List.mem_filterMap.2 ⟨s, hs, ?_⟩
    rw [Settlement.verdict?, hfate]
    rfl
  obtain ⟨r, hreport, hv⟩ := List.mem_filterMap.1 hverdict
  obtain ⟨id, -, hv⟩ := Option.bind_eq_some_iff.1 hv
  obtain ⟨sub, -, hv⟩ := Option.map_eq_some_iff.1 hv
  have hkind : r.kind = .watchdogFired := congrArg (·.2.2) hv
  obtain ⟨⟨t, o⟩, hmem, ho⟩ := List.mem_filterMap.1 hreport
  cases o with
  | record r' =>
    change (if _ then _ else _) = _ at ho
    split at ho
    · cases ho
      exact hr t r hmem hkind
    · cases ho
  | _ => cases ho

end Broker

end EventBroker
