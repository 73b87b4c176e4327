import EventBroker.Proofs.Replying
import EventBroker.Proofs.Settling

namespace EventBroker

variable {limit : Duration} {o : Option Notice}

namespace Broker

variable {b b' : Broker} {r : SubscriberId} {q : Command} {rest : List Command} {m : Mark}

def settledBy (b : Broker) : Command → Option Mark
  | .finish r _ _ _ _ => if b.ParkedOn r then some (.finished r) else none
  | .release r _ => if b.ParkedOn r then some (.released r) else none
  | _ => none

def settling (b : Broker) : Option Mark :=
  match b.sequencer.stage, b.cancelled, b.sequencer.commands with
  | .listening, false, q :: _ => b.settledBy q
  | .listening, false, [] => b.lapse
  | _, _, _ => none

def mark? (b : Broker) : Action → Option Mark
  | .work .sequencer => b.settling
  | .handedOff .sequencer reception => b.handed reception.result
  | _ => none

/-- The hand-offs of chains to receivers in a run, and what settles them. -/
def chronicle (b : Broker) : List Action → List (Instant × Mark)
  | [] => []
  | a :: rest => ((b.mark? a).map (b.now, ·)).toList ++ (b.act a).chronicle rest

theorem settledBy_cases (hm : b.settledBy q = some m) :
    (∃ r code data abort k, q = .finish r code data abort k ∧ m = .finished r ∧ b.ParkedOn r) ∨
      ∃ r k, q = .release r k ∧ m = .released r ∧ b.ParkedOn r := by
  cases q with
  | finish r code data abort k =>
    rw [settledBy] at hm
    split at hm
    · rename_i hp
      cases hm
      exact .inl ⟨r, code, data, abort, k, rfl, rfl, hp⟩
    · cases hm
  | release r k =>
    rw [settledBy] at hm
    split at hm
    · rename_i hp
      cases hm
      exact .inr ⟨r, k, rfl, rfl, hp⟩
    · cases hm
  | enqueue c => cases hm
  | active r k => cases hm

theorem settling_of_takesUp (hq : b.TakesUp q rest) : b.settling = b.settledBy q := by
  rw [settling, hq.listening, hq.running, hq.commands]

theorem settling_of_ne (h : b.sequencer.stage ≠ .listening) : b.settling = none := by
  rw [settling]
  split
  · contradiction
  · contradiction
  · rfl

section Settles

theorem handedBy_of_parkedOn (ht : b.view.Tended limit o) (hp : b.ParkedOn r) :
    ∃ c n, b.sequencer.active = some c ∧ c.awaiting = some r ∧ o = some n ∧ c.HandedBy n := by
  obtain ⟨c, hc, hs, hr⟩ := hp
  have hwait : c.awaiting = some r := by rw [Chain.awaiting, if_pos hs, hr]
  cases ht.holds with
  | nothing h => exact absurd hs (h c hc)
  | parked ha hs' hn =>
    cases ha.symm.trans hc
    exact ⟨_, _, hc, hwait, rfl, hn⟩

theorem target_of_awaiting {c : Chain} {n : Notice} (hn : c.HandedBy n)
    (hr : c.awaiting = some r) : n.target? = some r := by
  rw [hn.target, ← hr, Chain.awaiting, if_pos (Chain.received_of_awaiting hr)]

theorem settles_of_settledBy (ht : b.view.Tended limit o) (hm : b.settledBy q = some m) :
    ∃ n, o = some n ∧ m.Settles limit n b.now := by
  obtain ⟨r, code, data, abort, k, -, rfl, hp⟩ | ⟨r, k, -, rfl, hp⟩ := settledBy_cases hm
  · obtain ⟨c, n, -, hr, rfl, hn⟩ := handedBy_of_parkedOn ht hp
    exact ⟨n, rfl, .finished (target_of_awaiting hn hr)⟩
  · obtain ⟨c, n, -, hr, rfl, hn⟩ := handedBy_of_parkedOn ht hp
    exact ⟨n, rfl, .released (target_of_awaiting hn hr)⟩

theorem settles_of_lapse (hs : b.view.Sound) (hl : b.sequencer.stage = .listening)
    (ht : b.view.Tended limit o) (hm : b.lapse = some m) :
    ∃ n, o = some n ∧ m.Settles limit n b.now := by
  obtain ⟨c, hc, hm⟩ := Option.bind_eq_some_iff.1 hm
  obtain ⟨r, hr⟩ := hs.sequencer.awaiting hl hc
  have hp : b.ParkedOn r := parkedOn_iff.2 (by rw [hc, Option.bind_some, hr])
  obtain ⟨c', n, hc', -, rfl, hn⟩ := handedBy_of_parkedOn ht hp
  cases hc.symm.trans hc'
  have htarget := target_of_awaiting hn hr
  refine ⟨n, rfl, ?_⟩
  rw [hr] at hm
  split at hm
  · cases hm
    rw [← hn.chain, ← htarget]
    exact .expired
  · split at hm
    · rename_i hdue
      cases hm
      dsimp only
      rw [← hn.chain, ← htarget]
      refine .timedOut ?_
      have hlimit : c.receiverTimeout = limit := ht.active c hc
      rw [Chain.receiverDeadline, if_pos (Chain.received_of_awaiting hr), hn.since, hlimit,
        Option.map_some, Chain.due, Option.any_some] at hdue
      exact of_decide_eq_true hdue
    · cases hm

theorem settles_of_settling (hs : b.view.Sound) (ht : b.view.Tended limit o)
    (hm : b.settling = some m) : ∃ n, o = some n ∧ m.Settles limit n b.now := by
  rw [settling] at hm
  split at hm
  · exact settles_of_settledBy ht hm
  · rename_i hl hc hq
    exact settles_of_lapse hs hl ht hm
  · cases hm

end Settles

section Tends

theorem tended_takesUp (hs : b.view.Sound) (ht : b.view.Tended limit o) (hq : b.TakesUp q rest) :
    (b.act (.work .sequencer)).view.Tended limit (if (b.settledBy q).isSome then none else o) := by
  have he := b.act_effect (.work .sequencer) hs.registry
  have hconfig := he.config_eq
  have hwaiting := he.waiting_subset hs
  rw [act_takesUp hq] at hconfig hwaiting ⊢
  have kept : ∀ {w : View}, w.config = b.view.config → w.waiting ⊆ b.view.waiting →
      w.sequencer.active = b.sequencer.active → w.sequencer.stage = .listening →
      w.Tended limit o :=
    fun hc hw ha hl => ht.stay hc hw ha fun n i => by simp [hl]
  have settled : ∀ {w : View} {c c' : Chain}, w.config = b.view.config →
      w.waiting ⊆ b.view.waiting → b.sequencer.active = some c →
      w.sequencer.active = some c' → c'.state = .idle ∧ c'.receiverTimeout = c.receiverTimeout →
      w.sequencer.stage = .pumping → w.Tended limit none := by
    intro w c c' hc hw ha ha' hidle hp
    refine ht.idle hc hw (fun x hx => ?_) fun n i => by simp [hp]
    cases ha'.symm.trans hx
    exact ⟨hidle.1, hidle.2.trans (ht.active c ha)⟩
  cases q with
  | enqueue c => exact ht.stay hconfig hwaiting rfl fun _ _ => SequencerStage.noConfusion
  | finish r code data abort k =>
    rw [settledBy]
    by_cases hp : b.ParkedOn r
    · obtain ⟨c, ha, hr⟩ := Option.bind_eq_some_iff.1 (parkedOn_iff.1 hp)
      have hv := view_handle_finish (b := { b with
        sequencer := { b.sequencer with commands := rest } }) ha hr code data abort k
      rw [if_pos hp]
      refine settled hconfig hwaiting ha (by rw [hv]) ?_ (by rw [hv])
      rw [Chain.finish_of_awaiting hr]
      exact ⟨rfl, rfl⟩
    · have hv := view_handle_stale (b := { b with
        sequencer := { b.sequencer with commands := rest } }) (mt parkedOn_iff.2 hp) code data abort
        k
      rw [if_neg hp]
      exact kept hconfig hwaiting (by rw [hv]; rfl) (by rw [hv]; exact hq.listening)
  | release r k =>
    rw [settledBy]
    by_cases hp : b.ParkedOn r
    · obtain ⟨c, ha, hr⟩ := Option.bind_eq_some_iff.1 (parkedOn_iff.1 hp)
      have hv := view_handle_release (b := { b with
        sequencer := { b.sequencer with commands := rest } }) ha hr k
      rw [if_pos hp]
      refine settled hconfig hwaiting ha (by rw [hv]) ?_ (by rw [hv])
      rw [Chain.release_of_awaiting hr]
      exact ⟨rfl, rfl⟩
    · have hv := view_handle_unreleased (b := { b with
        sequencer := { b.sequencer with commands := rest } }) (mt parkedOn_iff.2 hp) k
      rw [if_neg hp]
      exact kept hconfig hwaiting (by rw [hv]; rfl) (by rw [hv]; exact hq.listening)
  | active r k => exact kept hconfig hwaiting rfl hq.listening

theorem tended_sweep (hs : b.view.Sound) (ht : b.view.Tended limit o)
    (hl : b.sequencer.stage = .listening) (hq : b.sequencer.commands = [])
    (h : b.sweep = some b') : b.lapse.isSome ∧ b'.view.Tended limit none := by
  have hm := sweep_moves hl hq h
  have hconfig : b'.view.config = b.view.config := by rw [hm.frame]
  obtain ⟨c, c', ha, hv, hdue⟩ := view_sweep h
  obtain ⟨r, hr⟩ := hs.sequencer.awaiting hl ha
  have hc' : c'.state = .idle ∧ c'.receiverTimeout = c.receiverTimeout := by
    obtain ⟨-, rfl⟩ | ⟨-, rfl⟩ := hdue
    · rw [Chain.expire_of_awaiting hr]
      exact ⟨rfl, rfl⟩
    · rw [Chain.expireReceiver_of_awaiting hr]
      exact ⟨rfl, rfl⟩
  constructor
  · rw [lapse, ha, Option.bind_some, hr]
    split
    · rfl
    · rename_i hw
      obtain ⟨hd, -⟩ | ⟨hd, -⟩ := hdue
      · exact absurd hd hw
      · rw [if_pos hd]
        rfl
  · refine ht.idle hconfig (hm.turns hs).waiting_subset ?_ (by simp [hv])
    intro x hx
    rw [hv] at hx
    cases hx
    exact ⟨hc'.1, hc'.2.trans (ht.active c ha)⟩

theorem lapse_of_sweep (h : b.sweep = none) : b.lapse = none := by
  rw [lapse]
  cases ha : b.sequencer.active with
  | none => rfl
  | some c =>
    obtain ⟨hw, hd⟩ := not_due_of_sweep h ha
    rw [Option.bind_some, if_neg hw, if_neg hd]

theorem settling_of_cancelled (hl : b.sequencer.stage = .listening) (hc : b.cancelled = true) :
    b.settling = none := by
  rw [settling, hl, hc]

theorem settling_of_quiet (hl : b.sequencer.stage = .listening) (hc : b.cancelled = false)
    (hq : b.sequencer.commands = []) : b.settling = b.lapse := by
  rw [settling, hl, hc, hq]

theorem Steps.tended (h : b.Steps b') (hs : b.view.Sound) (ht : b.view.Tended limit o) :
    b'.view.Tended limit (if b.settling.isSome then none else o) := by
  cases h with
  | idle hl =>
    rw [settling_of_ne hl]
    exact ht
  | pump hl =>
    obtain ⟨es, hm⟩ := b.pumpStep_cases.moves hl
    rw [settling_of_ne (by simp [hl])]
    exact ht.pump hs hl hm
  | breakDown hl hb =>
    obtain ⟨es, hm⟩ := b.pumpStep_cases.moves hl
    rw [settling_of_ne (by simp [hl]), ← pumpStep_of_breaks hb]
    exact ht.pump hs hl hm
  | stop hl hc =>
    have hm := View.Moves.stop (v := b.view) hl hc
    rw [settling_of_cancelled hl hc, view_stopSequencer]
    exact ht.stay rfl (hm.turns hs).waiting_subset rfl fun _ _ => SequencerStage.noConfusion
  | take hq =>
    rw [settling_of_takesUp hq, ← act_takesUp hq]
    exact tended_takesUp hs ht hq
  | watch hl hc hq h =>
    rw [settling_of_quiet hl hc hq, lapse_of_sweep h]
    exact ht
  | sweep hl hc hq h =>
    obtain ⟨hsome, ht'⟩ := tended_sweep hs ht hl hq h
    rw [settling_of_quiet hl hc hq, if_pos hsome]
    exact ht'

theorem tended_conclude (hs : b.view.Sound) (ht : b.view.Tended limit o)
    (reception : Reception) :
    match b.handed reception.result with
    | none => (b.act (.handedOff .sequencer reception)).view.Tended limit o
    | some m => ∃ n, m = .handed n ∧ o = none ∧
      (b.act (.handedOff .sequencer reception)).view.Tended limit (some n) := by
  have he := b.act_effect (.handedOff .sequencer reception) hs.registry
  have hconfig := he.config_eq
  have hwaiting := he.waiting_subset hs
  change (b.sequencerConclude reception.result).view.config = _ at hconfig
  change (b.sequencerConclude reception.result).view.waiting ⊆ _ at hwaiting
  change match b.handed reception.result with
    | none => (b.sequencerConclude reception.result).view.Tended limit o
    | some m => ∃ n, m = .handed n ∧ o = none ∧
      (b.sequencerConclude reception.result).view.Tended limit (some n)
  generalize reception.result = result at hconfig hwaiting ⊢
  cases hl : b.sequencer.stage with
  | handing n i =>
    obtain ⟨hsub, c, ha, hstate⟩ := hs.sequencer.handing hl
    obtain ⟨s, hn⟩ := Option.ne_none_iff_exists'.1 hsub
    have hnone : o = none := by
      cases ht.holds with
      | nothing h => rfl
      | parked ha' hs' hn' =>
        cases ha.symm.trans ha'
        cases hstate.symm.trans hs'
    cases hnone
    cases result with
    | ok u =>
      have hm : b.handed (.ok u) = some (.handed n) := by
        rw [handed, handoff?, hl]
        simp [Occurrence.mark?, hn]
      have hv := b.view_handedOff hl ha hn
      have hby : c.HandedBy n := ht.handing n i c hl ha
      rw [hm]
      refine ⟨n, rfl, rfl, hconfig ▸ ht.config, fun c hc => ht.waiting c (hwaiting hc), ?_, ?_, ?_⟩
      all_goals
        rw [show (b.sequencerConclude (.ok u)).view = _ from hv, Chain.handedOff, if_pos hstate]
      · intro c' hc'
        cases hc'
        exact ht.active c ha
      · intro n' i' c' h
        dsimp only at h
        split at h <;> cases h
      · exact .parked rfl rfl ⟨hby.chain, hby.target, hby.since⟩
    | error e =>
      have hm : b.handed (.error e) = none := by
        rw [handed, handoff?, hl]
        rfl
      have hv := b.view_notHandedOff hl ha hn e
      rw [hm]
      refine ht.idle hconfig hwaiting ?_ (by simp [hv, View.tell])
      intro c' hc'
      rw [hv] at hc'
      cases hc'
      rw [Chain.skip_eq]
      exact ⟨rfl, ht.active c ha⟩
  | closing n c reason =>
    obtain ⟨f, t, -, hn⟩ := hs.manned.closing hl
    have hm : b.handed result = none := by
      rw [handed, handoff?, hl]
      cases result <;> simp [Occurrence.mark?, hn, Chain.notice]
    have hv := b.view_closed hl result
    rw [hm]
    exact ht.stay hconfig hwaiting (by rw [hv]; rfl) (by simp [hv, View.tell])
  | _ =>
    have hm : b.handed result = none := by rw [handed, handoff?, hl, Option.bind_none]
    rw [hm, sequencerConclude, hl]
    exact ht

theorem tended_other (ht : b.view.Tended limit o) {a : Action} (hw : a ≠ .work .sequencer)
    (hc : ∀ reception, a ≠ .handedOff .sequencer reception) : (b.act a).view.Tended limit o := by
  cases ha : isWork a with
  | false => exact ht.request (b.act_request ha)
  | true =>
    cases b.act_carries ha hw hc with
    | inl hv => exact hv ▸ ht
    | inr hv =>
      obtain ⟨lane, hv⟩ := hv
      exact ht.carries hv

end Tends

theorem mark?_other {a : Action} (hw : a ≠ .work .sequencer)
    (hc : ∀ reception, a ≠ .handedOff .sequencer reception) : b.mark? a = none := by
  cases a with
  | work w =>
    cases w with
    | sequencer => exact absurd rfl hw
    | _ => rfl
  | handedOff w reception =>
    cases w with
    | sequencer => exact absurd rfl (hc reception)
    | _ => rfl
  | _ => rfl

theorem tally_act {ms : List (Instant × Mark)} (hs : b.view.Sound) (h : Tally limit ms o)
    (ht : b.view.Tended limit o) (a : Action) :
    ∃ o', Tally limit (ms ++ ((b.mark? a).map (b.now, ·)).toList) o' ∧
      (b.act a).view.Tended limit o' := by
  by_cases hw : a = .work .sequencer
  · subst hw
    have ht' := b.steps_act.tended hs ht
    rw [mark?]
    cases hm : b.settling with
    | none =>
      rw [hm] at ht'
      exact ⟨o, (List.append_nil ms).symm ▸ h, ht'⟩
    | some m =>
      obtain ⟨n, rfl, hsettles⟩ := settles_of_settling hs ht hm
      rw [hm] at ht'
      exact ⟨none, h.settled hsettles, ht'⟩
  · by_cases hc : ∃ reception, a = .handedOff .sequencer reception
    · obtain ⟨reception, rfl⟩ := hc
      have ht' := tended_conclude hs ht reception
      rw [mark?]
      cases hm : b.handed reception.result with
      | none =>
        rw [hm] at ht'
        exact ⟨o, (List.append_nil ms).symm ▸ h, ht'⟩
      | some m =>
        rw [hm] at ht'
        obtain ⟨n, rfl, rfl, ht'⟩ := ht'
        exact ⟨some n, h.handed b.now n, ht'⟩
    · have hc : ∀ reception, a ≠ .handedOff .sequencer reception :=
        fun reception ha => hc ⟨reception, ha⟩
      rw [mark?_other hw hc]
      exact ⟨o, (List.append_nil ms).symm ▸ h, tended_other ht hw hc⟩

theorem tally_run {ms : List (Instant × Mark)} (hs : b.view.Sound) (h : Tally limit ms o)
    (ht : b.view.Tended limit o) (actions : List Action) :
    ∃ o', Tally limit (ms ++ b.chronicle actions) o' := by
  induction actions generalizing b ms o with
  | nil => exact ⟨o, (List.append_nil ms).symm ▸ h⟩
  | cons a rest ih =>
    obtain ⟨o', h', ht'⟩ := tally_act hs h ht a
    have hrest := ih (hs.effect (b.act_effect a hs.registry)) h' ht'
    rwa [List.append_assoc] at hrest

theorem tended_start (config : Config) (oracle : Oracle) (bundleOf : Uid → Option String)
    (observers : List Observer) :
    (start config oracle bundleOf observers).view.Tended config.receiverTimeout none where
  config := rfl
  waiting := List.forall_mem_nil _
  active := fun c hc => by cases hc
  handing := fun n i c hs => SequencerStage.noConfusion hs
  holds := .nothing fun c hc => by cases hc

section Told

theorem told_of_handed {result : Except DeliveryError Unit} (hm : b.handed result = some m) :
    m.told = true := by
  obtain ⟨n, -, hm⟩ := Option.bind_eq_some_iff.1 hm
  cases result with
  | ok u =>
    change (if n.subscriber.isSome then some (Mark.handed n) else none) = some m at hm
    split at hm
    · cases hm
      rfl
    · cases hm
  | error e => cases hm

theorem told_of_lapse (hm : b.lapse = some m) : m.told = true := by
  obtain ⟨c, -, hm⟩ := Option.bind_eq_some_iff.1 hm
  split at hm
  · cases hm
    rfl
  · split at hm
    · obtain ⟨r, -, rfl⟩ := Option.map_eq_some_iff.1 hm
      rfl
    · cases hm

theorem untold_of_settledBy (hm : b.settledBy q = some m) : m.told = false := by
  obtain ⟨r, code, data, abort, k, -, rfl, -⟩ | ⟨r, k, -, rfl, -⟩ := settledBy_cases hm
  · rfl
  · rfl

theorem filter_told {x : Option Mark} {t : Instant} (h : ∀ m, x = some m → m.told = true) :
    (x.map (t, ·)).toList.filter (·.2.told) = (x.map (t, ·)).toList := by
  cases x with
  | none => rfl
  | some m => simp [h m rfl]

theorem filter_untold {x : Option Mark} {t : Instant} (h : ∀ m, x = some m → m.told = false) :
    (x.map (t, ·)).toList.filter (·.2.told) = [] := by
  cases x with
  | none => rfl
  | some m => simp [h m rfl]

theorem Steps.marks_eq (h : b.Steps b') :
    b'.marks = b.marks ++ (b.settling.map (b.now, ·)).toList.filter (·.2.told) := by
  have quiet : b.settling = none → b'.marks = b.marks →
      b'.marks = b.marks ++ (b.settling.map (b.now, ·)).toList.filter (·.2.told) := by
    intro hm hb
    rw [hb, hm]
    exact (List.append_nil _).symm
  cases h with
  | idle hl => exact quiet (settling_of_ne hl) rfl
  | pump hl hb =>
    exact quiet (settling_of_ne (by simp [hl])) (marks_of_desk (b.pumpStep_cases.desk_eq hb))
  | breakDown hl =>
    exact quiet (settling_of_ne (by simp [hl]))
      ((congrArg Desk.marks b.desk_breakDown).trans (b.desk.marks_forget _))
  | stop hl hc =>
    exact quiet (settling_of_cancelled hl hc)
      ((congrArg Desk.marks b.desk_stopSequencer).trans (b.desk.marks_forget _))
  | @take q rest hq =>
    rw [settling_of_takesUp hq, filter_untold fun m => untold_of_settledBy, List.append_nil]
    exact (congrArg Desk.marks (desk_handle _ q)).trans (Desk.marks_answer _ _ _)
  | watch hl hc hq h => exact quiet ((settling_of_quiet hl hc hq).trans (lapse_of_sweep h)) rfl
  | sweep hl hc hq h =>
    rw [settling_of_quiet hl hc hq, filter_told fun m => told_of_lapse]
    exact congrArg Desk.marks (desk_sweep h)

theorem marks_act (b : Broker) (a : Action) : (b.act a).marks =
    b.marks ++ ((b.mark? a).map (b.now, ·)).toList.filter (·.2.told) := by
  have quiet : ∀ {b' : Broker}, b'.marks = b.marks → b'.marks = b.marks ++ [] :=
    fun hb => hb.trans (List.append_nil _).symm
  have stepped : ∀ {x : Option Broker}, (∀ b', x = some b' → b'.marks = b.marks) →
      (x.getD b).marks = b.marks := by
    intro x hx
    cases x with
    | none => rfl
    | some b' => exact hx b' rfl
  cases a with
  | subscribe req => exact quiet (marks_of_desk (b.desk_subscribe req))
  | publish p => exact quiet (marks_of_desk (b.desk_post p none))
  | publishWithResult p receiver => exact quiet (marks_of_desk (b.desk_post _ (some receiver)))
  | updateFreeze sel frozen => exact quiet (marks_of_desk (b.desk_updateFreeze sel frozen))
  | flushFrozen sel => exact quiet (marks_of_desk (b.desk_flushFrozen sel))
  | unsubscribe id =>
    refine quiet ?_
    rw [act, unsubscribe]
    split
    · rfl
    · exact marks_retire _ _ _ _ _
  | ownerDied pid => exact quiet (marks_retire _ _ _ _ _)
  | finish r code data abort => exact quiet (b.marks_ask _ _ _)
  | active r => exact quiet (b.marks_ask _ _ _)
  | shutdown => exact quiet b.marks_shutdown
  | resume k => exact quiet (b.marks_resume k)
  | observed i panic => exact quiet (marks_of_desk (b.desk_observerConclude i panic))
  | work w =>
    cases w with
    | sequencer => exact b.steps_act.marks_eq
    | listener => exact quiet (stepped fun b' h => marks_of_desk (desk_listenerStep h))
    | observer i => exact quiet (stepped fun b' h => marks_of_desk (desk_observerStep h))
    | courier lane => exact quiet (stepped fun b' h => marks_of_desk (desk_courierStep h))
  | handedOff w reception =>
    cases w with
    | sequencer =>
      rw [mark?, filter_told fun m => told_of_handed]
      exact congrArg Desk.marks (b.desk_sequencerConclude reception.result)
    | courier lane => exact quiet (marks_of_desk (b.desk_courierConclude lane reception.result))
    | _ => exact quiet rfl
  | _ => exact quiet rfl

theorem marks_run (b : Broker) (actions : List Action) : (b.run actions).marks =
    b.marks ++ (b.chronicle actions).filter (·.2.told) := by
  induction actions generalizing b with
  | nil => exact (List.append_nil _).symm
  | cons a rest ih =>
    have hrest := ih (b.act a)
    rw [marks_act, List.append_assoc, ← List.filter_append] at hrest
    exact hrest

end Told

theorem act_stale {code : Int} {data : String} {abort : Bool} {k : Nat}
    (hq : b.TakesUp (.finish r code data abort k) rest) (hp : ¬b.ParkedOn r) :
    b.act (.work .sequencer) = ({ b with
      sequencer := { b.sequencer with commands := rest } } : Broker).answer k
        (.outcome .stale) := by
  rw [act_takesUp hq, handle]
  dsimp only
  cases hc : b.sequencer.active with
  | none => rfl
  | some c =>
    have hr : c.awaiting ≠ some r :=
      fun hr => hp (parkedOn_iff.2 (by rw [hc, Option.bind_some, hr]))
    dsimp only
    rw [Chain.finish_of_not_awaiting hr]

/-- A finish is accepted, and its receiver shown the chain, exactly if it is taken up while the
chain is parked on the receiver; a stale one changes nothing. So each hand-off is settled at most
once, and by a deadline only when that has passed. -/
theorem acknowledged_while_parked (config : Config) (oracle : Oracle)
    (bundleOf : Uid → Option String) (observers : List Observer) (before : List Action) :
    let b₀ := start config oracle bundleOf observers
    let b := b₀.run before
    let k := b.callsBegun + 1
    (∀ r code data abort, if b.takesCommands then
        (b.finishReceiver r code data abort).1 = .waiting k ∧
          ∀ after, .resume k ∉ after →
            let b' := b.act (.finish r code data abort)
            let w := b'.run after
            (∀ p, w.resume k = some p → ∃ o, p = (.done (.finished o), w.endCall k)) ∧
            (w.resume k = some (.done (.finished .accepted), w.endCall k) ↔
              b'.TakesUpIn (.finish r code data abort k) (·.ParkedOn r) after)
      else b.finishReceiver r code data abort = (.done (.finished .stale), b)) ∧
    (∀ r, if b.takesCommands then
        (b.activeReceiverOf r).1 = .waiting k ∧
          ∀ after, .resume k ∉ after →
            let b' := b.act (.active r)
            let w := b'.run after
            ((∃ s, w.resume k = some (.done (.active (some s)), w.endCall k)) ↔
              b'.TakesUpIn (.active r k) (·.ParkedOn r) after)
      else b.activeReceiverOf r = (.done (.active none), b)) ∧
    (∀ r code data abort caller rest, b.TakesUp (.finish r code data abort caller) rest →
      ¬b.ParkedOn r → b.act (.work .sequencer) = ({ b with
        sequencer := { b.sequencer with commands := rest } } : Broker).answer caller
          (.outcome .stale)) ∧
    (∃ o, Tally config.receiverTimeout (b₀.chronicle before) o) ∧
    b.marks = (b₀.chronicle before).filter (·.2.told) ∧
    ∀ r, ((b₀.chronicle before).filterMap (·.2.finished?)).count r +
      ((b₀.chronicle before).filterMap (·.2.released?)).count r ≤
        ((b₀.chronicle before).filterMap (·.2.handed?)).count r := by
  intro b₀ b k
  have hb : b.counter.Sound := counter_run (counter_start config oracle bundleOf observers) before
  have hs := view_start_sound config oracle bundleOf observers
  obtain ⟨o, htally⟩ :=
    tally_run hs .start (tended_start config oracle bundleOf observers) before
  rw [List.nil_append] at htally
  refine ⟨?_, ?_, fun r code data abort caller rest => act_stale, ⟨o, htally⟩,
    marks_run b₀ before, fun r => Nat.le_of_add_right_le (htally.acknowledged_le r)⟩
  · intro r code data abort
    split
    · rename_i ht
      exact ⟨(ask_open ht _ _ _).1, fun after ha => finish_outcome hb ht r code data abort ha⟩
    · rename_i ht
      exact ask_closed (Bool.not_eq_true _ ▸ ht) _ _ _
  · intro r
    split
    · rename_i ht
      exact ⟨(ask_open ht _ _ _).1, fun after ha => active_shown_iff hb ht r ha⟩
    · rename_i ht
      exact ask_closed (Bool.not_eq_true _ ▸ ht) _ _ _

theorem handover_acknowledged :
    let b := (start {} .allowAll (fun _ => none) []).run handover
    let k := b.callsBegun + 1
    let w := (b.act (.finish ⟨1⟩ 1 "no" false)).run [.work .sequencer]
    let v := (b.act (.active ⟨1⟩)).run [.work .sequencer]
    let again := (start {} .allowAll (fun _ => none) []).run
      (handover ++ [.finish ⟨1⟩ 1 "no" false, .finish ⟨1⟩ 2 "again" false] ++
        List.replicate 3 (.work .sequencer))
    w.resume k = some (.done (.finished .accepted), w.endCall k) ∧
      (∃ s, v.resume k = some (.done (.active (some s)), v.endCall k)) ∧
      ∃ code data abort caller rest,
        again.TakesUp (.finish ⟨1⟩ code data abort caller) rest ∧
        again.act (.work .sequencer) = ({ again with
          sequencer := { again.sequencer with commands := rest } } : Broker).answer caller
            (.outcome .stale) := by
  intro b k w v again
  have hl : b.sequencer.stage = .listening := by decide +kernel
  have hc : b.cancelled = false := by decide +kernel
  have hq : b.sequencer.commands = [] := by
    rw [← List.isEmpty_iff]
    decide +kernel
  have ht : b.takesCommands = true := b.takesCommands_iff.2 (by simp [hl])
  have hafter : Action.resume k ∉ [Action.work .sequencer] := by simp
  refine ⟨?_, ?_, ?_⟩
  · have h := (acknowledged_while_parked {} .allowAll (fun _ => none) [] handover).1
      ⟨1⟩ 1 "no" false
    rw [if_pos ht] at h
    refine (h.2 _ hafter).2.2 ⟨[], [], [], rfl, ?_, by decide +kernel⟩
    exact takesUp_ask hl hc hq .finish (.finish ⟨1⟩ 1 "no" false) (.finished .stale)
  · have h := (acknowledged_while_parked {} .allowAll (fun _ => none) [] handover).2.1 ⟨1⟩
    rw [if_pos ht] at h
    refine (h.2 _ hafter).2 ⟨[], [], [], rfl, ?_, by decide +kernel⟩
    exact takesUp_ask hl hc hq .active (.active ⟨1⟩) (.active none)
  · -- The `b` above is parked on the receiver, so what the command settles there names it.
    have hnext : (again.sequencer.commands.head?.bind b.settledBy).bind Mark.finished? =
        some ⟨1⟩ := by
      decide +kernel
    obtain ⟨m, hbind, hm⟩ := Option.bind_eq_some_iff.1 hnext
    obtain ⟨q, hhead, hq⟩ := Option.bind_eq_some_iff.1 hbind
    obtain ⟨rest, hcommands⟩ := List.head?_eq_some_iff.1 hhead
    obtain ⟨r, code, data, abort, caller, rfl, rfl, -⟩ | ⟨r, k, -, rfl, -⟩ := settledBy_cases hq
    · cases hm
      have htake : again.TakesUp (.finish ⟨1⟩ code data abort caller) rest :=
        ⟨by decide +kernel, by decide +kernel, hcommands⟩
      have h := (acknowledged_while_parked {} .allowAll (fun _ => none) []
        (handover ++ [.finish ⟨1⟩ 1 "no" false, .finish ⟨1⟩ 2 "again" false] ++
          List.replicate 3 (.work .sequencer))).2.2.1
      exact ⟨code, data, abort, caller, rest, htake, h _ _ _ _ _ _ htake (by decide +kernel)⟩
    · cases hm

end Broker

end EventBroker
