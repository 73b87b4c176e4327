import EventBroker.Proofs.Attending
import EventBroker.Proofs.Passing

namespace EventBroker

namespace View

variable {v w : View} {es : List ChainEvent} {r : SubscriberId}

def Engages (v : View) (r : SubscriberId) : Prop :=
  v.sequencer.stage ≠ .stopped ∧
    ∃ c, v.sequencer.active = some c ∧ c.state ≠ .idle ∧ c.receiver? = some r

theorem engages_of_sequencer (h : ∃ commands, w.sequencer = { v.sequencer with commands })
    (hw : w.Engages r) : v.Engages r := by
  obtain ⟨commands, h⟩ := h
  rwa [Engages, h] at hw

theorem not_engages {c : Chain} (ha : v.sequencer.active = some c) (hs : c.state = .idle) :
    ¬v.Engages r := by
  rintro ⟨-, c', hc, hs', -⟩
  cases hc.symm.trans ha
  exact hs' hs

theorem not_engages_of_none (ha : v.sequencer.active = none) : ¬v.Engages r := by
  rintro ⟨-, c, hc, -⟩
  cases hc.symm.trans ha

theorem not_engages_of_stopped (hs : v.sequencer.stage = .stopped) : ¬v.Engages r :=
  fun h => h.1 hs

theorem Moves.engages (h : v.Moves es w) (hv : v.Sound) (hw : w.Engages r) :
    v.Engages r ∨ ∃ e, v.registry.entry? r = some e := by
  cases h with
  | accept hs hc hq ha hr =>
    rw [Chain.finish_of_awaiting hr] at hw
    exact absurd hw (not_engages rfl rfl)
  | release hs hq ha hr =>
    rw [Chain.release_of_awaiting hr] at hw
    exact absurd hw (not_engages rfl rfl)
  | expire hs hq ha hd =>
    obtain ⟨r', hr⟩ := hv.sequencer.awaiting hs ha
    rw [Chain.expire_of_awaiting hr] at hw
    exact absurd hw (not_engages rfl rfl)
  | expireReceiver hs hq ha hd =>
    obtain ⟨r', hr⟩ := hv.sequencer.awaiting hs ha
    rw [Chain.expireReceiver_of_awaiting hr] at hw
    exact absurd hw (not_engages rfl rfl)
  | start hs ha hp =>
    exact absurd hw (not_engages rfl ((hv.sequencer.queued _ (hp ▸ List.mem_cons_self)).start _).2)
  | pass hs ha hwait hn he => exact absurd hw (not_engages rfl (by rw [Chain.skip_eq]))
  | hold hs ha hwait hn he hf => exact absurd hw (not_engages rfl (by rw [Chain.skip_eq]))
  | hand hs ha hwait hn he hf =>
    obtain ⟨-, -, -, -, hr, rfl⟩ := Chain.next_deliver hn
    obtain ⟨-, c, hc, -, hr'⟩ := hw
    cases hc
    cases hr.symm.trans hr'
    exact .inr ⟨_, he⟩
  | finish hs ha hwait hn hf => exact absurd hw (not_engages_of_none rfl)
  | close hs ha hwait hn hf => exact absurd hw (not_engages_of_none rfl)
  | @parked n i c s hs ha hn | @overrun n i c s hs ha hn =>
    obtain ⟨hstate, -⟩ := hv.handing hs ha
    obtain ⟨-, c', hc, -, hr⟩ := hw
    cases hc
    rw [Chain.handedOff, if_pos hstate] at hr
    exact .inl ⟨by simp [hs], c, ha, by simp [hstate], hr⟩
  | failed hs ha hn => exact absurd hw (not_engages rfl (by rw [Chain.skip_eq]))
  | stop | breakDown => exact absurd hw (not_engages_of_stopped rfl)
  | enqueue hs | ignore hs | rest hs | park hs | stray hs | closed hs =>
    exact .inl ⟨by simp [hs], hw.2⟩

theorem Effect.engages {a : Option Admission} (h : v.Effect a es w) (hv : v.Sound)
    (hw : w.Engages r) : v.Engages r ∨ ∃ e, v.registry.entry? r = some e := by
  cases h with
  | request hq =>
    obtain ⟨cs, -, hs⟩ := hq.sends
    exact .inl (engages_of_sequencer ⟨_, hs⟩ hw)
  | carry lane hc => exact .inl (engages_of_sequencer ⟨_, hc.sequencer_eq⟩ hw)
  | move hm => exact hm.engages hv hw

end View

def Counter.SeesOff (c : Counter) (r : SubscriberId) (n : Nat) : Prop :=
  ∃ k ret answer, c.calls.get? k = some ⟨.retire ret, answer⟩ ∧
    ((ret.current :: ret.rest).map Subscriber.id)[n]? = some r ∧ (n = 0 → answer = none)

namespace Broker

variable {b : Broker} {r : SubscriberId}

namespace Attends

variable {a : Action} {c : Counter}

theorem seesOff_of_departing (h : b.Attends a c) (ht : c.taking = true)
    (hr : r ∈ (b.departing a).map Subscriber.id) : ∃ n, c.SeesOff r n := by
  have leaves : b.departing a ≠ [] := by
    intro hd
    rw [hd] at hr
    cases hr
  cases h with
  | same hd => exact absurd hd leaves
  | send hd hq => exact absurd hd leaves
  | @ask w q ht hw hq =>
    rw [← hw] at hr
    cases w with
    | retire ret =>
      obtain ⟨n, hn⟩ := List.mem_iff_getElem?.1 hr
      exact ⟨n, _, ret, none, by rw [Table.get?_insert, if_pos rfl], hn, fun _ => rfl⟩
    | _ => cases hr
  | pass hd =>
    obtain hd | hd := hd
    · exact absurd hd leaves
    · cases hd.symm.trans ht
  | wait ws hd => exact absurd hd leaves
  | conclude ha hk hc hl =>
    subst ha
    cases hr
  | proceed ha ht hk hl =>
    subst ha
    cases hr
  | take ha hq =>
    subst ha
    cases hr
  | stop ha | breakDown ha =>
    subst ha
    cases hr

theorem seesOff {n : Nat} (h : b.Attends a c) (hb : b.counter.Sound) (ht : c.taking = true)
    (hr : b.counter.SeesOff r n) : (∃ m ≤ n, c.SeesOff r m) ∨
      a = .work .sequencer ∧ ∃ k rest, b.TakesUp (.release r k) rest := by
  obtain ⟨k, ret, answer, hk, hn, hnone⟩ := hr
  have hk' : b.calls.get? k = some ⟨.retire ret, answer⟩ := hk
  have kept : c.calls.get? k = some ⟨.retire ret, answer⟩ → (∃ m ≤ n, c.SeesOff r m) ∨
      a = .work .sequencer ∧ ∃ k rest, b.TakesUp (.release r k) rest :=
    fun hk => .inl ⟨n, Nat.le_refl _, k, ret, answer, hk, hn, hnone⟩
  have old : b.callsBegun + 1 ≠ k := hb.next_ne hk
  cases h with
  | same hd => exact kept hk
  | send hd hq => exact kept hk
  | ask ht hw hq => exact kept (by rwa [Table.get?_insert, if_neg old])
  | pass hd => exact kept (by rwa [Table.get?_erase, if_neg old])
  | wait ws hd => exact kept (by rwa [Table.get?_insert, if_neg old])
  | @conclude k' call ha hcall hc hl =>
    by_cases he : k' = k
    · subst he
      cases hcall.symm.trans hk'
      have hanswer : answer ≠ none := by
        obtain hc | ⟨ws, hc⟩ := hc
        · exact hc
        · cases hc
      obtain hl | hl := hl
      · have hl : ret.rest = [] := hl
        rw [hl] at hn
        cases n with
        | zero => exact absurd (hnone rfl) hanswer
        | succ n => cases hn
      · cases hl.symm.trans ht
    · exact kept (by rwa [Table.get?_erase, if_neg he])
  | @proceed k' ret₀ ret' x ha ht hcall hl =>
    by_cases he : k' = k
    · subst he
      cases hcall.symm.trans hk'
      cases n with
      | zero => cases hnone rfl
      | succ n =>
        rw [List.map_cons, List.getElem?_cons_succ, hl] at hn
        exact .inl ⟨n, Nat.le_succ n, k', ret', none, by rw [Table.get?_insert, if_pos rfl], hn,
          fun _ => rfl⟩
    · exact kept (by rwa [Table.get?_insert, if_neg he])
  | @take q rest ha hq =>
    by_cases he : q.caller? = some k
    · cases n with
      -- It is the receiver itself that the call is at, so it is released here.
      | zero =>
        have hmem : q ∈ b.counter.commands := by
          rw [show b.counter.commands = q :: rest from hq.commands]
          exact List.mem_cons_self
        obtain ⟨w, hw, hasks⟩ := hb.asked q hmem k he
        cases hk.symm.trans hw
        cases hasks
        have hcurrent : ret.current.id = r := Option.some.inj hn
        exact .inr ⟨ha, k, rest, hcurrent ▸ hq⟩
      | succ n =>
        refine .inl ⟨n + 1, Nat.le_refl _, k, ret, some (b.reply q), ?_, hn,
          fun h => absurd h (Nat.succ_ne_zero n)⟩
        rw [Desk.get?_answer, if_pos he, show b.desk.calls.get? k = _ from hk']
        rfl
    · refine kept ?_
      rw [Desk.get?_answer, if_neg he]
      exact hk'
  | stop | breakDown => cases ht

end Attends

theorem departing_of_lost (hr : b.registry.Sound) {a : Action} {e : Entry}
    (he : b.registry.entry? r = some e) (hn : (b.act a).registry.entry? r = none) :
    r ∈ (b.departing a).map Subscriber.id := by
  obtain h | ⟨s, hid, h⟩ | ⟨ids, h⟩ | ⟨sel, frozen, rfl⟩ := b.registry_act a
  · rw [h, he] at hn
    cases hn
  · rw [h, Registry.entry_add] at hn
    split at hn
    · cases hn
    · rw [he] at hn
      cases hn
  · rw [show (b.act a).registry = _ from congrArg Prod.snd h] at hn
    rw [show b.departing a = _ from congrArg Prod.fst h, ← hr.keyed he]
    exact List.mem_map_of_mem (Registry.mem_unsubscribeAll he hn)
  · rw [registry_updateFreeze, Registry.entry_updateFreeze, he] at hn
    cases hn

structure Attentive (b : Broker) : Prop where
  sound : b.view.Sound
  counter : b.counter.Sound
  seesOff : ∀ r, b.view.Engages r → b.registry.entry? r = none → ∃ n, b.counter.SeesOff r n

theorem attentive_start (config : Config) (oracle : Oracle) (bundleOf : Uid → Option String)
    (observers : List Observer) : (start config oracle bundleOf observers).Attentive where
  sound := view_start_sound config oracle bundleOf observers
  counter := counter_start config oracle bundleOf observers
  seesOff := fun _ h => absurd h (View.not_engages_of_none rfl)

theorem takesCommands_of_engages (h : b.view.Engages r) : b.takesCommands = true :=
  b.takesCommands_iff.2 h.1

theorem parkedOn_of_engages (h : b.view.Sound) (hs : b.sequencer.stage = .listening)
    (hr : b.view.Engages r) : b.ParkedOn r := by
  obtain ⟨-, c, hc, -, hr⟩ := hr
  cases h.sequencer.parked hs with
  | inl hp => cases hp.1.symm.trans hc
  | inr hp =>
    obtain ⟨c', hc', hstate⟩ := hp
    cases hc'.symm.trans hc
    exact ⟨c, hc, hstate, hr⟩

theorem not_engages_of_release (h : b.view.Sound) {k : Nat} {rest : List Command}
    (hq : b.TakesUp (.release r k) rest) : ¬(b.act (.work .sequencer)).view.Engages r := by
  rw [act_takesUp hq]
  by_cases hp : b.ParkedOn r
  · obtain ⟨c, ha, hr⟩ := Option.bind_eq_some_iff.1 (parkedOn_iff.1 hp)
    have hv := view_handle_release (b := { b with
      sequencer := { b.sequencer with commands := rest } }) ha hr k
    rw [hv, Chain.release_of_awaiting hr]
    exact View.not_engages rfl rfl
  · have hv := view_handle_unreleased (b := { b with
      sequencer := { b.sequencer with commands := rest } }) (mt parkedOn_iff.2 hp) k
    rw [hv]
    exact fun he => hp (parkedOn_of_engages (b := b) h hq.listening he)

theorem Attentive.act (h : b.Attentive) (a : Action) : (b.act a).Attentive := by
  have he := b.act_effect a h.sound.registry
  have hatt := b.attends_act a
  refine ⟨h.sound.effect he, counter_act h.counter a, fun r hr hn => ?_⟩
  have ht : (b.act a).takesCommands = true := takesCommands_of_engages hr
  cases hb : b.registry.entry? r with
  | some e => exact hatt.seesOff_of_departing ht (departing_of_lost h.sound.registry hb hn)
  | none =>
    have hb' : b.view.Engages r := by
      refine (he.engages h.sound hr).resolve_right ?_
      rintro ⟨e, he⟩
      cases hb.symm.trans he
    obtain ⟨n, hsees⟩ := h.seesOff r hb' hb
    obtain ⟨m, -, hsees⟩ | ⟨rfl, k, rest, hq⟩ := hatt.seesOff h.counter ht hsees
    · exact ⟨m, hsees⟩
    · exact absurd hr (not_engages_of_release h.sound hq)

theorem Attentive.run (h : b.Attentive) (actions : List Action) : (b.run actions).Attentive := by
  induction actions generalizing b with
  | nil => exact h
  | cons a rest ih => exact ih (h.act a)

end Broker

namespace Sequencer

structure WaitsFor (s : Sequencer) (r : SubscriberId) : Prop where
  awaiting : s.active.bind Chain.awaiting = some r
  stage : s.stage = .listening ∨ s.stage = .pumping

def backlog (s : Sequencer) : Nat :=
  2 * s.commands.length +
    match s.stage with
    | .pumping => 1
    | _ => 0

variable {s : Sequencer} {r : SubscriberId}

theorem WaitsFor.active (h : s.WaitsFor r) {c : Chain} (hc : s.active = some c) :
    c.awaiting = some r := by
  rw [← h.awaiting, hc, Option.bind_some]

theorem WaitsFor.running (h : s.WaitsFor r) : s.stage ≠ .stopped := by
  obtain h | h := h.stage <;> simp [h]

end Sequencer

namespace View

variable {v w : View} {es : List ChainEvent} {r : SubscriberId}

theorem Moves.of_waiting (h : v.Moves es w) (hr : v.sequencer.WaitsFor r) :
    ¬w.Engages r ∨ w.sequencer.WaitsFor r ∧ w.sequencer.backlog < v.sequencer.backlog := by
  have active : ∀ {c : Chain}, v.sequencer.active = some c → c.awaiting = none → False := by
    intro c hc hwait
    cases (hr.active hc).symm.trans hwait
  have vacant : v.sequencer.active = none → False := by
    intro hc
    have h := hr.awaiting
    rw [hc] at h
    cases h
  have still : ∀ {n i}, v.sequencer.stage = .handing n i → False := by
    intro n i hs
    obtain h | h := hr.stage <;> cases h.symm.trans hs
  cases h with
  | stop | breakDown => exact .inl (not_engages_of_stopped rfl)
  | enqueue hs hq =>
    refine .inr ⟨⟨hr.awaiting, .inr rfl⟩, ?_⟩
    simp [Sequencer.backlog, hs, hq]
    omega
  | ignore hs hq hn ha =>
    refine .inr ⟨⟨hr.awaiting, .inl hs⟩, ?_⟩
    simp [Sequencer.backlog, hs, hq]
  | accept hs hc hq ha hwait =>
    rw [Chain.finish_of_awaiting hwait]
    exact .inl (not_engages rfl rfl)
  | release hs hq ha hwait =>
    rw [Chain.release_of_awaiting hwait]
    exact .inl (not_engages rfl rfl)
  | expire hs hq ha hd =>
    rw [Chain.expire_of_awaiting (hr.active ha)]
    exact .inl (not_engages rfl rfl)
  | expireReceiver hs hq ha hd =>
    rw [Chain.expireReceiver_of_awaiting (hr.active ha)]
    exact .inl (not_engages rfl rfl)
  | rest hs ha hp => exact (vacant ha).elim
  | start hs ha hp => exact (vacant ha).elim
  | park hs ha hwait =>
    refine .inr ⟨⟨hr.awaiting, .inl rfl⟩, ?_⟩
    simp [Sequencer.backlog, hs]
  | pass hs ha hwait hn he => exact (active ha hwait).elim
  | hold hs ha hwait hn he hf => exact (active ha hwait).elim
  | hand hs ha hwait hn he hf => exact (active ha hwait).elim
  | finish hs ha hwait hn hf => exact (active ha hwait).elim
  | close hs ha hwait hn hf => exact (active ha hwait).elim
  | parked hs ha hn => exact (still hs).elim
  | overrun hs ha hn => exact (still hs).elim
  | failed hs ha hn => exact (still hs).elim
  | stray hs hn => exact (still hs).elim
  | closed hs => obtain h | h := hr.stage <;> cases h.symm.trans hs

theorem Request.waitsFor {a : Option Admission} (h : v.Request a w)
    (hr : v.sequencer.WaitsFor r) : w.sequencer.WaitsFor r := by
  obtain ⟨cs, -, hs⟩ := h.sends
  rw [hs]
  exact ⟨hr.awaiting, hr.stage⟩

end View

namespace Broker

variable {b : Broker} {r : SubscriberId}

theorem waitsFor_of_engages (h : b.view.Sound) (hr : b.view.Engages r)
    (hs : ∀ n i, b.sequencer.stage ≠ .handing n i) : b.sequencer.WaitsFor r := by
  have awaits : ∀ {c : Chain}, c.state = .received → c.receiver? = some r →
      c.awaiting = some r := by
    intro c hc hr
    rw [Chain.awaiting, if_pos hc, hr]
  cases hstage : b.sequencer.stage with
  | listening => exact ⟨parkedOn_iff.1 (parkedOn_of_engages h hstage hr), .inl hstage⟩
  | pumping =>
    obtain ⟨-, c, hc, hidle, hr⟩ := hr
    have hc : b.sequencer.active = some c := hc
    have hstate := h.sequencer.moving hstage c hc
    refine ⟨?_, .inr hstage⟩
    rw [hc, Option.bind_some]
    cases hc : c.state with
    | idle => exact absurd hc hidle
    | receiving => exact absurd hc hstate
    | received => exact awaits hc hr
  | handing n i => exact absurd hstage (hs n i)
  | closing n c reason => exact absurd hr (View.not_engages_of_none (h.sequencer.closing hstage))
  | stopped => exact absurd hstage hr.1

theorem work_of_waiting (h : b.sequencer.WaitsFor r)
    (hq : b.sequencer.stage = .pumping ∨ b.sequencer.commands ≠ []) :
    ¬(b.act (.work .sequencer)).view.Engages r ∨
      (b.act (.work .sequencer)).sequencer.WaitsFor r ∧
        (b.act (.work .sequencer)).sequencer.backlog < b.sequencer.backlog := by
  have hstep : ∃ b', b.sequencerStep = some b' := by
    rw [sequencerStep]
    obtain hs | hs := h.stage
    · obtain ⟨q, rest, hq⟩ := List.exists_cons_of_ne_nil (hq.resolve_left (by simp [hs]))
      rw [hs, hq]
      dsimp only
      split <;> exact ⟨_, rfl⟩
    · rw [hs]
      exact ⟨_, rfl⟩
  obtain ⟨b', hb⟩ := hstep
  have hact : b.act (.work .sequencer) = b' := by
    change b.sequencerStep.getD b = b'
    rw [hb, Option.getD_some]
  rw [hact]
  obtain ⟨es, hm⟩ := sequencerStep_moves hb
  exact hm.of_waiting h

theorem seesOff_resume {n k : Nat} {ret : Retirement} {answer : Answer}
    (ht : b.takesCommands = true) (hk : b.calls.get? k = some ⟨.retire ret, some answer⟩)
    (hn : ((ret.current :: ret.rest).map Subscriber.id)[n + 1]? = some r) :
    (b.act (.resume k)).counter.SeesOff r n := by
  rw [List.map_cons, List.getElem?_cons_succ] at hn
  have hl : ret.rest ≠ [] := by
    intro hl
    rw [hl] at hn
    cases hn
  have hact : ∃ released, b.act (.resume k) = (retire k ret.cause ret.total ret.rest
      (b.departed ret.current ret.dropped released ret.cause.reason)).2 := by
    rw [act, resume, hk]
    cases answer <;> exact ⟨_, rfl⟩
  obtain ⟨released, hact⟩ := hact
  obtain ⟨ret', hr, hc⟩ := counter_proceed ht k hl released
  rw [hact, hc]
  rw [hr] at hn
  exact ⟨k, ret', none, by rw [Table.get?_insert, if_pos rfl], hn, fun _ => rfl⟩

inductive Routine : Action → Prop
  | work : Routine (.work .sequencer)
  | resume (k : Nat) : Routine (.resume k)

/-- The sequencer can let go of the receiver, with nobody's help. -/
def LetsGo (b : Broker) (r : SubscriberId) : Prop :=
  ∃ more, (∀ a ∈ more, Routine a) ∧ ¬(b.run more).view.Engages r

theorem LetsGo.at_once (h : ¬b.view.Engages r) : b.LetsGo r := ⟨[], List.forall_mem_nil _, h⟩

theorem LetsGo.act {a : Action} (ha : Routine a) (h : (b.act a).LetsGo r) : b.LetsGo r := by
  obtain ⟨more, hmore, hend⟩ := h
  exact ⟨a :: more, List.forall_mem_cons.2 ⟨ha, hmore⟩, hend⟩

/-- By induction on how many are to be seen off before the receiver, and for each of them on what
the sequencer has before it. -/
theorem lets_go {n : Nat} (h : b.Attentive) (hn : b.registry.entry? r = none)
    (hw : b.sequencer.WaitsFor r) (hr : b.counter.SeesOff r n) : b.LetsGo r := by
  induction n using Nat.strongRecOn generalizing b with
  | ind n ihn =>
    induction hl : b.sequencer.backlog using Nat.strongRecOn generalizing b with
    | ind l ihl =>
      subst hl
      by_cases hq : b.sequencer.stage = .pumping ∨ b.sequencer.commands ≠ []
      · apply LetsGo.act .work
        have hn' :=
          (congrArg (fun g => g.entry? r) (b.registry_work (a := .work .sequencer) rfl)).trans hn
        obtain hgo | ⟨hw', hload⟩ := work_of_waiting hw hq
        · exact .at_once hgo
        · have hnext := h.act (.work .sequencer)
          obtain ⟨m, hm, hr'⟩ | ⟨-, k, rest, hq⟩ :=
            (b.attends_act (.work .sequencer)).seesOff h.counter
              (takesCommands_iff _ |>.2 hw'.running) hr
          · cases Nat.lt_or_eq_of_le hm with
            | inl hm => exact ihn m hm hnext hn' hw' hr'
            | inr hm => exact ihl _ hload hnext hn' hw' (hm ▸ hr') rfl
          · exact .at_once (not_engages_of_release h.sound hq)
      -- No command is left, so the call has its answer and only has to go on.
      · rw [not_or, not_not] at hq
        have ht : b.takesCommands = true := b.takesCommands_iff.2 hw.running
        obtain ⟨k, ret, answer, hk, hpos, hnone⟩ := hr
        have hk' : b.calls.get? k = some ⟨.retire ret, answer⟩ := hk
        cases answer with
        | none =>
          obtain ⟨q, hmem, -⟩ := h.counter.heard ht k _ hk
            fun _ => Waiting.noConfusion
          rw [show b.counter.commands = _ from hq.2] at hmem
          cases hmem
        | some answer =>
          cases n with
          | zero => cases hnone rfl
          | succ n =>
            apply LetsGo.act (.resume k)
            have hreq := b.act_request (a := .resume k) rfl
            obtain ⟨cs, -, hv⟩ := b.resume_view k
            have hn' : (b.act (.resume k)).registry = b.registry := congrArg View.registry hv
            exact ihn n (Nat.lt_succ_self n) (h.act _) (hn' ▸ hn) (hreq.waitsFor hw)
              (seesOff_resume ht hk' hpos)

theorem lets_go_after (h : b.Attentive) (hn : b.registry.entry? r = none)
    (reception : Reception) :
    (b.act (.handedOff .sequencer reception)).LetsGo r := by
  have h' := h.act (.handedOff .sequencer reception)
  have hn' : (b.act (.handedOff .sequencer reception)).registry.entry? r = none := by
    rw [b.registry_work rfl, hn]
  have hstage : ∀ n i,
      (b.act (.handedOff .sequencer reception)).sequencer.stage ≠ .handing n i := by
    intro n i
    change (b.sequencerConclude reception.result).sequencer.stage ≠ .handing n i
    rw [sequencerConclude]
    cases hs : b.sequencer.stage with
    | handing n' i' =>
      dsimp only
      split
      · dsimp only [setStage]
        split <;> exact SequencerStage.noConfusion
      · exact SequencerStage.noConfusion
      · exact SequencerStage.noConfusion
    | closing n' c reason =>
      dsimp only
      split <;> exact SequencerStage.noConfusion
    | _ => simp [hs]
  generalize b.act (.handedOff .sequencer reception) = b' at h' hn' hstage
  by_cases hend : b'.view.Engages r
  · obtain ⟨m, hr⟩ := h'.seesOff r hend hn'
    exact lets_go h' hn' (waitsFor_of_engages h'.sound hend hstage) hr
  · exact .at_once hend

theorem departing_silent {a : Action} (hr : r ∈ (b.departing a).map Subscriber.id) :
    b.deeds a = [] ∧ (b.act a).view.lineup = b.view.lineup ∧ (b.act a).cancelled = b.cancelled := by
  have request : isWork a = false → b.admits a = none →
      b.deeds a = [] ∧ (b.act a).view.lineup = b.view.lineup := by
    intro hw hadm
    have hq := b.act_request hw
    refine ⟨b.deeds_silent (by rintro rfl; cases hw) hq.signals_eq, ?_⟩
    rw [View.lineup, hq.underway_eq, hq.waiting_eq, hadm, Option.bind_none, Option.toList_none,
      List.append_nil]
    rfl
  cases a with
  | unsubscribe id =>
    obtain ⟨cs, -, hv⟩ := b.unsubscribe_view id
    obtain ⟨hd, hl⟩ := request rfl rfl
    exact ⟨hd, hl, congrArg View.cancelled hv⟩
  | ownerDied pid =>
    obtain ⟨cs, -, hv⟩ := b.ownerDied_view pid
    obtain ⟨hd, hl⟩ := request rfl rfl
    exact ⟨hd, hl, congrArg View.cancelled hv⟩
  | _ => cases hr

/-- The sequencer waits for nobody who is gone, once all are seen off. It can let go of whoever
leaves; nothing more is handed over to them or held for them in a chain, and what the chains show
stays as it is. -/
theorem awaited_are_live (config : Config) (oracle : Oracle) (bundleOf : Uid → Option String)
    (observers : List Observer) (before : List Action) :
    let b := (start config oracle bundleOf observers).run before
    (b.sequencer.stage = .listening → (∀ k ret, b.waits k ≠ some (.retire ret)) →
        ∀ r, b.ParkedOn r → ∃ e, b.registry.entry? r = some e) ∧
      ∀ a r e, b.registry.entry? r = some e → (b.act a).registry.entry? r = none →
        (b.cancelled = false →
          ∀ reception, ((b.act a).act (.handedOff .sequencer reception)).LetsGo r) ∧
        ∀ after, (∀ ev ∈ b.trace (a :: after), ev.reached? ≠ some r) ∧
          ∀ c ∈ b.view.lineup, ∀ c' ∈ (b.run (a :: after)).view.lineup, c'.id = c.id →
            c.Continues r (b.trace (a :: after)) c' := by
  intro b
  have h : b.Attentive := (attentive_start config oracle bundleOf observers).run before
  constructor
  · intro hs hret r hp
    obtain ⟨c, hc, hstate, hr⟩ := hp
    have hrunning : b.sequencer.stage ≠ .stopped := by simp [hs]
    have hengaged : b.view.Engages r := ⟨hrunning, c, hc, by simp [hstate], hr⟩
    cases hn : b.registry.entry? r with
    | some e => exact ⟨e, rfl⟩
    | none =>
      obtain ⟨n, k, ret, answer, hk, -⟩ := h.seesOff r hengaged hn
      refine absurd ?_ (hret k ret)
      rw [waits, show b.calls.get? k = _ from hk]
      rfl
  · intro a r e he hn
    have hdeparting := departing_of_lost h.sound.registry he hn
    obtain ⟨hdeeds, hlineup, hcancelled⟩ := departing_silent hdeparting
    obtain ⟨s, hs, hid⟩ := List.mem_map.1 hdeparting
    have hgone : (b.act a).registry.Gone r := hid ▸ gone_of_departing h.sound.registry hs
    have hlined : b.view.Lined _ :=
      lined_run (view_start_lined config oracle bundleOf observers) before
    have hlined' := hlined.effect (b.act_effect a h.sound.registry)
    refine ⟨fun _ reception => lets_go_after (h.act a) hn reception, ?_⟩
    intro after
    rw [trace, hdeeds, List.nil_append]
    refine ⟨trace_not_reached hlined'.sound hgone after, ?_⟩
    intro c hc c' hc' hcc
    rw [← hlineup] at hc
    have htitle : c.title ∈ _ :=
      hlined'.titles_subset (View.lineup_titles _ ▸ List.mem_map_of_mem hc)
    obtain ⟨c₀, hc₀, hcont⟩ :=
      lineup_run hlined' hgone after c' hc' (hcc ▸ List.mem_map_of_mem htitle)
    cases hlined'.chain_eq hc hc₀ (hcont.id.symm.trans hcc)
    exact hcont

/-- The receiver is live where a chain waits for it. Had it left while the event was handed over to
it, the chain would have moved on, as it was. -/
theorem handover_awaited :
    let b := (start {} .allowAll (fun _ => none) []).run handover
    let midway := (start {} .allowAll (fun _ => none) []).run handover.dropLast
    let gone := midway.run [.unsubscribe ⟨1⟩, .handedOff .sequencer (.returned (.ok ()))]
    (b.ParkedOn ⟨1⟩ ∧ ∃ e, b.registry.entry? ⟨1⟩ = some e) ∧
      gone.ParkedOn ⟨1⟩ ∧ gone.LetsGo ⟨1⟩ ∧
      ∃ c ∈ midway.view.lineup, ∃ c' ∈ gone.view.lineup, c'.copy = c.copy ∧ c'.abort = c.abort := by
  intro b midway gone
  have hp : b.ParkedOn ⟨1⟩ := by decide +kernel
  have hcalls : b.calls.rows = [] := by
    rw [← List.isEmpty_iff]
    decide +kernel
  have live := (awaited_are_live {} .allowAll (fun _ => none) [] handover).1
  have leaves := (awaited_are_live {} .allowAll (fun _ => none) [] handover.dropLast).2
  have hlive : (midway.registry.entry? ⟨1⟩).isSome := by
    decide +kernel
  have hgone : ((midway.act (.unsubscribe ⟨1⟩)).registry.entry? ⟨1⟩).isNone := by
    decide +kernel
  obtain ⟨e, he⟩ := Option.isSome_iff_exists.1 hlive
  obtain ⟨goes, stays⟩ := leaves _ _ e he (Option.isNone_iff_eq_none.1 hgone)
  refine ⟨⟨hp, live (by decide +kernel) ?_ ⟨1⟩ hp⟩, by decide +kernel,
    goes (by decide +kernel) _, ?_⟩
  · intro k ret hw
    rw [waits, Table.get?, show b.calls.rows = [] from hcalls] at hw
    cases hw
  · have hbefore : ⟨1⟩ ∈ midway.view.lineup.map Chain.id := by
      decide +kernel
    have hafter : ⟨1⟩ ∈ gone.view.lineup.map Chain.id := by
      decide +kernel
    obtain ⟨c, hc, hid⟩ := List.mem_map.1 hbefore
    obtain ⟨c', hc', hid'⟩ := List.mem_map.1 hafter
    have hcont := (stays [.handedOff .sequencer (.returned (.ok ()))]).2 c hc c' hc'
      (hid'.trans hid.symm)
    refine ⟨c, hc, c', hc', hcont.result fun ev hev _ => ?_⟩
    have hnone : (midway.trace [.unsubscribe ⟨1⟩, .handedOff .sequencer (.returned (.ok ()))]).all
        (·.result?.isNone) := by
      decide +kernel
    exact Option.isNone_iff_eq_none.1 (List.all_eq_true.1 hnone ev hev)

end Broker

end EventBroker
