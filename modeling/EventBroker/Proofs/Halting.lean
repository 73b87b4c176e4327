import EventBroker.Proofs.Coherence
import EventBroker.Proofs.Effects.Joining
import EventBroker.Proofs.Tenancy

namespace EventBroker

namespace View

structure Halted (v : View) : Prop where
  cancelled : v.cancelled = true
  courier : ∀ lane, (v.queue lane).courier = .stopped
  sequencer : v.sequencer.stage = .stopped

variable {v w : View}

theorem Carries.not_stopped {lane : Lane} (h : v.Carries lane w) :
    (v.queue lane).courier ≠ .stopped := by
  cases h <;> simp_all

theorem Moves.not_stopped {es : List ChainEvent} (h : v.Moves es w) :
    v.sequencer.stage ≠ .stopped := by
  cases h <;> simp_all

theorem Halted.request {a : Option Admission} {es : List ChainEvent} (h : v.Halted)
    (he : v.Effect a es w) : v.Request a w ∧ es = [] := by
  cases he with
  | request hq => exact ⟨hq, rfl⟩
  | carry lane hc => exact absurd (h.courier lane) hc.not_stopped
  | move hm => exact absurd h.sequencer hm.not_stopped

theorem Halted.effect {a : Option Admission} {es : List ChainEvent} (h : v.Halted)
    (he : v.Effect a es w) : w.Halted ∧ w.signals = v.signals := by
  obtain ⟨hq, rfl⟩ := h.request he
  refine ⟨⟨he.cancelled h.cancelled, fun lane => ?_, ?_⟩, hq.signals_eq⟩
  · exact (hq.courier_eq lane).trans (h.courier lane)
  · obtain ⟨cs, -, hw⟩ := hq.sends
    rw [hw]
    exact h.sequencer

end View

namespace Broker

variable {b : Broker} {k : Nat} {ws : List Worker}

theorem halted_act (hs : b.view.Sound) (h : b.view.Halted) (a : Action) :
    (b.act a).view.Halted ∧ (b.act a).signals = b.signals :=
  h.effect (b.act_effect a hs.registry)

theorem halted_run (hs : b.view.Sound) (h : b.view.Halted) (actions : List Action) :
    (b.run actions).view.Halted ∧ (b.run actions).signals = b.signals := by
  induction actions generalizing b with
  | nil => exact ⟨h, rfl⟩
  | cons a rest ih =>
    obtain ⟨hact, hsignals⟩ := halted_act hs h a
    obtain ⟨hrest, hsame⟩ := ih (hs.effect (b.act_effect a hs.registry)) hact
    exact ⟨hrest, hsame.trans hsignals⟩

structure StopsBy (b : Broker) (k : Nat) (ws : List Worker) : Prop where
  begun : k ≤ b.callsBegun
  waits : ∀ c, b.calls.get? k = some c → c.waiting = .shutdown ws

theorem Attends.stopsBy {a : Action} {c : Counter} (ha : b.Attends a c) (h : b.StopsBy k ws) :
    ∀ call, c.calls.get? k = some call → call.waiting = .shutdown ws := by
  have hne : b.callsBegun + 1 ≠ k := Nat.ne_of_gt (Nat.lt_succ_of_le h.begun)
  intro call hcall
  have answered {x : Answer}
      (hc : (b.calls.get? k).map (fun c => { c with answer := some x }) = some call) :
      call.waiting = .shutdown ws := by
    obtain ⟨old, hold, rfl⟩ := Option.map_eq_some_iff.1 hc
    exact h.waits old hold
  have erased {k' : Nat} (hc : (b.calls.erase k').get? k = some call) :
      call.waiting = .shutdown ws := by
    rw [Table.get?_erase] at hc
    split at hc
    · cases hc
    · exact h.waits call hc
  cases ha with
  | same hd => exact h.waits call hcall
  | send hd hq => exact h.waits call hcall
  | ask ht hw hq =>
    rw [Table.get?_insert, if_neg hne] at hcall
    exact h.waits call hcall
  | pass hd => exact erased hcall
  | wait ws' hd =>
    rw [Table.get?_insert, if_neg hne] at hcall
    exact h.waits call hcall
  | conclude ha hk hc hl => exact erased hcall
  | @proceed k' ret ret' answer ha ht hk hr =>
    rw [Table.get?_insert] at hcall
    split at hcall
    · rename_i he
      subst he
      cases h.waits _ hk
    · exact h.waits call hcall
  | take ha hq =>
    rw [Desk.get?_answer] at hcall
    split at hcall
    · exact answered hcall
    · exact h.waits call hcall
  | stop | breakDown =>
    rw [Desk.get?_forget] at hcall
    split at hcall
    · exact answered hcall
    · exact h.waits call hcall

namespace StopsBy

theorem act (h : b.StopsBy k ws) (a : Action) : (b.act a).StopsBy k ws where
  begun := Nat.le_trans h.begun (b.attends_act a).begun_le
  waits := (b.attends_act a).stopsBy h

theorem run (h : b.StopsBy k ws) (actions : List Action) : (b.run actions).StopsBy k ws := by
  induction actions generalizing b with
  | nil => exact h
  | cons a rest ih => exact ih (h.act a)

theorem returned (h : b.StopsBy k ws) (hr : (b.resume k).isSome = true) :
    ws.all b.hasStopped = true ∧ (b.resume k).map Prod.fst = some (.done .stopped) := by
  rw [resume] at hr ⊢
  cases hk : b.calls.get? k with
  | none =>
    rw [hk] at hr
    cases hr
  | some c =>
    obtain ⟨waiting, answer⟩ := c
    cases h.waits _ hk
    rw [hk] at hr
    dsimp only at hr ⊢
    split at hr
    · rename_i hall
      rw [if_pos hall]
      exact ⟨hall, rfl⟩
    · cases hr

end StopsBy

theorem shutdown_waits (hj : b.joined = false) (hc : b.fresh.courier ≠ .stopped) :
    b.shutdown.1 = .waiting (b.callsBegun + 1) ∧
      (b.act .shutdown).StopsBy (b.callsBegun + 1) b.workers := by
  have hworking : ¬b.workers.all
      (({ b with cancelled := true, joined := true }.note .cancelled).hasStopped) = true :=
    not_all_stopped hc
  have hshutdown : b.shutdown = (.waiting (b.callsBegun + 1),
      ({ { b with cancelled := true, joined := true }.note .cancelled with
        callsBegun := b.callsBegun + 1 }).setCall (b.callsBegun + 1) (.shutdown b.workers)) := by
    rw [shutdown, hj, if_neg Bool.false_ne_true]
    dsimp only
    rw [if_neg hworking]
    rfl
  rw [act, hshutdown]
  refine ⟨rfl, Nat.le_refl _, fun c hk => ?_⟩
  rw [setCall, Table.get?_insert, if_pos rfl] at hk
  cases hk
  rfl

theorem halted_of_stopped (hc : b.cancelled = true) {c : Broker}
    (h : c.workers.all b.hasStopped = true) : b.view.Halted := by
  have stopped (w : Worker) (hw : w ∈ [.courier .fresh, .courier .replay, .sequencer]) :
      b.hasStopped w = true :=
    List.all_eq_true.1 h w (List.mem_append_right _ hw)
  refine ⟨hc, fun lane => ?_, ?_⟩
  · have hlane : b.hasStopped (.courier lane) = true := stopped _ (by cases lane <;> simp)
    rw [hasStopped] at hlane
    split at hlane
    · rename_i hq
      cases lane <;> exact hq
    · cases hlane
  · have hsequencer : b.hasStopped .sequencer = true := stopped _ (by simp)
    rw [hasStopped, Bool.not_eq_true'] at hsequencer
    by_contra hs
    rw [b.takesCommands_iff.2 hs] at hsequencer
    cases hsequencer

structure Sheds (b b' : Broker) (gone : List SubscriberId) : Prop where
  entry : ∀ id, b'.registry.entry? id = if id ∈ gone then none else b.registry.entry? id
  held : ∀ id, b'.vault.heldFor id = if id ∈ gone then [] else b.vault.heldFor id

/-- How every request comes out once the broker has stopped: nothing is taken on any more, held
events stay with the subscriptions that are live, and subscriptions can still leave. -/
structure Final (b : Broker) : Prop where
  subscribe : ∀ req, b.subscribe req = (.error .closed, b)
  publish : ∀ p, b.publish p = (.error .closed, b)
  publishWithResult : ∀ p receiver, b.publishWithResult p receiver = (.error .closed, b)
  finish : ∀ receiver code data abort,
    b.finishReceiver receiver code data abort = (.done (.finished .stale), b)
  active : ∀ receiver, b.activeReceiverOf receiver = (.done (.active none), b)
  flush_nothing : ∀ sel,
    (∀ id, ∀ h ∈ b.vault.heldFor id, sel.selects h.subscriber.owner = false) →
      b.flushFrozen sel = (.ok 0, b)
  flush_held : ∀ sel id, ∀ h ∈ b.vault.heldFor id, sel.selects h.subscriber.owner = true →
    (b.flushFrozen sel).1 = .error .closed ∧ ∀ id', b.registry.contains id' = true →
      (b.flushFrozen sel).2.vault.heldFor id' = b.vault.heldFor id'
  unsubscribe : ∀ id, b.registry.contains id = true →
    (b.unsubscribe id).1 = .done (.unsubscribed (.ok ())) ∧ b.Sheds (b.unsubscribe id).2 [id]
  unsubscribe_unknown : ∀ id, b.registry.contains id = false →
    b.unsubscribe id = (.done (.unsubscribed (.error (.unknownSubscriber id))), b)
  ownerDied : ∀ pid,
    (b.ownerDied pid).1 = .done (.ownerRemoved (b.registry.idsOf pid).length) ∧
      b.Sheds (b.ownerDied pid).2 (b.registry.idsOf pid)

section Final

variable (h : b.view.Halted)

include h

theorem not_takesCommands : b.takesCommands = false := by
  rw [takesCommands, show b.sequencer.stage = .stopped from h.sequencer]

theorem ask_halted (w : Waiting) (command : Nat → Command) (otherwise : Response) :
    b.ask w command otherwise = (.done otherwise, b) := by
  rw [ask, not_takesCommands h, if_neg Bool.false_ne_true]

theorem post_halted (p : Publication) (receiver : Option Receiver) :
    b.post p receiver = (.error .closed, b) := by
  have hc : b.cancelled = true := h.cancelled
  rw [post, if_pos hc]

theorem flushFrozen_halted (hv : b.vault.Sound) {sel : Selector} {id : SubscriberId}
    {x : Held Copy} (hx : x ∈ b.vault.heldFor id)
    (hsel : sel.selects x.subscriber.owner = true) :
    (b.flushFrozen sel).1 = .error .closed ∧ ∀ id', b.registry.contains id' = true →
      (b.flushFrozen sel).2.vault.heldFor id' = b.vault.heldFor id' := by
  have htaken : ¬(b.vault.flush sel).1.isEmpty = true := by
    intro hnil
    have hwhole := (hv.takes_flush sel).whole id
    rw [List.isEmpty_iff.1 hnil] at hwhole
    exact List.not_mem_nil (hwhole ▸ List.mem_filter.2 ⟨hx, hsel⟩)
  have hclosed (b' : Broker) (job : Job) (hb' : b'.replay.courier = .stopped) :
      b'.submit .replay job = (some .closed, b') := by
    have hq : (b'.queue .replay).courier = .stopped := hb'
    rw [submit, hq]
  have herror : (b.flushFrozen sel).1 = .error .closed := by
    rw [flushFrozen]
    dsimp only
    rw [if_neg htaken, hclosed { b with vault := (b.vault.flush sel).2 } _ (h.courier .replay)]
  exact ⟨herror, (retains_of_error hv (Prod.ext herror rfl)).held⟩

theorem retire_done (k : Nat) (cause : Departure) (total : Nat) (leaving : List Subscriber) :
    (retire k cause total leaving b).1 = .done (b.allDeparted cause total).1 := by
  induction leaving generalizing b with
  | nil => rfl
  | cons s rest ih =>
    have ht : ({ b with vault := (b.vault.purge s.id).2 } : Broker).takesCommands = false :=
      not_takesCommands ⟨h.cancelled, h.courier, h.sequencer⟩
    rw [retire]
    dsimp only
    rw [ht, if_neg Bool.false_ne_true, ih]
    · cases cause <;> rfl
    · rw [view_departed]
      exact ⟨h.cancelled, h.courier, h.sequencer⟩

theorem beginRetiring_done (registry : Registry) (cause : Departure) (leaving : List Subscriber) :
    ({ b with registry }.beginRetiring cause leaving).1 =
      .done (b.allDeparted cause leaving.length).1 := by
  have hbegun : ({ b with registry, callsBegun := b.callsBegun + 1 } : Broker).view.Halted :=
    ⟨h.cancelled, h.courier, h.sequencer⟩
  refine (retire_done hbegun (b.callsBegun + 1) cause leaving.length leaving).trans ?_
  cases cause <;> rfl

theorem sheds_unsubscribe (hr : b.registry.Sound) {id : SubscriberId}
    (hid : b.registry.contains id = true) :
    (b.unsubscribe id).1 = .done (.unsubscribed (.ok ())) ∧ b.Sheds (b.unsubscribe id).2 [id] := by
  obtain ⟨e, he⟩ := Option.isSome_iff_exists.1 hid
  have hseen : b.seenOff (b.leavers id).1 = [id] := by
    rw [mem_seenOff_of_closed (not_takesCommands h), leavers, Registry.unsubscribe,
      show b.registry.entry? id = some e from he]
    exact congrArg (fun id => [id]) (hr.keyed he)
  constructor
  · rw [unsubscribe, Registry.unsubscribe, show b.registry.entry? id = some e from he]
    exact beginRetiring_done h _ .unsubscribed _
  · obtain ⟨cs, -, hv⟩ := b.unsubscribe_view id
    rw [hseen] at hv
    have hvault : (b.unsubscribe id).2.vault = b.vault.clear [id] := congrArg View.vault hv
    have hregistry : (b.unsubscribe id).2.registry = _ := b.registry_unsubscribe id
    refine ⟨fun id' => ?_, fun id' => ?_⟩
    · rw [hregistry, Registry.entry_unsubscribeAll]
    · rw [hvault, Vault.heldFor_clear]

theorem sheds_ownerDied (hr : b.registry.Sound) (pid : Pid) :
    (b.ownerDied pid).1 = .done (.ownerRemoved (b.registry.idsOf pid).length) ∧
      b.Sheds (b.ownerDied pid).2 (b.registry.idsOf pid) := by
  have hids : (b.registry.removeOwner pid).1.map Subscriber.id = b.registry.idsOf pid := by
    rw [Registry.fst_removeOwner, hr.idsOf_eq]
  have hseen : b.seenOff (b.registry.removeOwner pid).1 = b.registry.idsOf pid :=
    (mem_seenOff_of_closed (not_takesCommands h) _).trans hids
  constructor
  · rw [← hids, List.length_map]
    exact beginRetiring_done h _ (.ownerDied pid) _
  · obtain ⟨cs, -, hv⟩ := b.ownerDied_view pid
    rw [hseen] at hv
    have hvault : (b.ownerDied pid).2.vault = b.vault.clear (b.registry.idsOf pid) :=
      congrArg View.vault hv
    have hregistry : (b.ownerDied pid).2.registry = _ := b.registry_ownerDied pid
    refine ⟨fun id => ?_, fun id => ?_⟩
    · rw [hregistry, Registry.removeOwner, Registry.entry_unsubscribeAll]
    · rw [hvault, Vault.heldFor_clear]

theorem final (hr : b.registry.Sound) (hv : b.vault.Sound) : b.Final where
  subscribe req := by
    have hc : b.cancelled = true := h.cancelled
    rw [subscribe, if_pos hc]
  publish p := post_halted h p none
  publishWithResult p receiver := post_halted h _ _
  finish receiver code data abort := ask_halted h _ _ _
  active receiver := ask_halted h _ _ _
  flush_nothing sel hnothing :=
    b.flushFrozen_nothing ((hv.takes_flush sel).eq_nil hnothing)
  flush_held sel id x hx hsel := flushFrozen_halted h hv hx hsel
  unsubscribe id hid := sheds_unsubscribe h hr hid
  unsubscribe_unknown id hid := by
    have hnone : b.registry.entry? id = none := by
      rw [← Option.not_isSome_iff_eq_none]
      exact Bool.eq_false_iff.1 hid
    rw [unsubscribe, Registry.unsubscribe, hnone]
    rfl
  ownerDied pid := sheds_ownerDied h hr pid

end Final

/-- A shutdown is final. The first one waits for the workers; once it has come back, nobody is
notified any more, and no chain starts or finishes, whatever is done; and every request comes out as
it does for a broker that has stopped. -/
theorem shutdown_final (config : Config) (oracle : Oracle) (bundleOf : Uid → Option String)
    (observers : List Observer) (before mid : List Action) (hfirst : .shutdown ∉ before) :
    let b := (start config oracle bundleOf observers).run before
    let call := b.callsBegun + 1
    let c := (b.act .shutdown).run mid
    b.shutdown.1 = .waiting call ∧ ((c.resume call).isSome = true →
      (c.resume call).map Prod.fst = some (.done .stopped) ∧
        ∀ after, ((c.act (.resume call)).run after).signals = c.signals ∧
          ((c.act (.resume call)).run after).Final) := by
  intro b call c
  have hstart := tenanted_start config oracle bundleOf observers
  have hb : b.Tenanted := hstart.run before
  have hjoined : b.joined = false := joined_run hfirst _
  have hworking := ((Twin.start config oracle bundleOf observers).run before).working hjoined
  obtain ⟨hwaits, hstops⟩ := shutdown_waits hjoined hworking.2
  refine ⟨hwaits, fun hback => ?_⟩
  have hact : (b.act .shutdown).Tenanted := hb.act .shutdown
  have hc : c.Tenanted := hact.run mid
  obtain ⟨hall, hreturned⟩ := (hstops.run mid).returned hback
  have hcancelled : c.cancelled = true :=
    cancelled_run hact.sound (congrArg View.cancelled b.shutdown_view) mid
  have hhalted : c.view.Halted := halted_of_stopped hcancelled hall
  refine ⟨hreturned, fun after => ?_⟩
  have hz : ((c.act (.resume call)).run after).Tenanted := (hc.act _).run after
  obtain ⟨hafter, hsignals⟩ := halted_run hc.sound hhalted (.resume call :: after)
  exact ⟨hsignals, final hafter hz.sound.registry hz.vault⟩

/-- At the shutdown an event is held for the first subscription; the second is being handed one and
has another one queued, and a chain is parked on it. -/
theorem shutdown_final_busy :
    let other : Owner := { (default : Owner) with pid := 1 }
    let gate : PublishOptions → Action := fun options =>
      .publish { event := .named "gate", publisher := default, options }
    let before := [joining,
      .subscribe { interest := { events := .ofList ["gate"] }, owner := other },
      .updateFreeze (.pids [0]) true,
      .publish { event := .named "door", publisher := default, options := {} },
      .work (.courier .fresh), .work (.courier .fresh), .work (.courier .fresh),
      gate {}, .work (.courier .fresh), .work (.courier .fresh), gate {}, gate { ordered := true },
      .work .sequencer, .work .sequencer, .work .sequencer,
      .handedOff .sequencer (.returned (.ok ()))]
    let mid := [.handedOff (.courier .fresh) (.returned (.ok ())), .work (.courier .fresh),
      .work (.courier .fresh), .work (.courier .replay), .work .sequencer]
    let b := (start {} .allowAll (fun _ => none) []).run before
    let c := (b.act .shutdown).run mid
    let z := (c.act (.resume (b.callsBegun + 1))).run [gate {}, .unsubscribe ⟨2⟩]
    (b.handoff? (.courier .fresh)).isSome ∧ b.fresh.jobs.length = 1 ∧
      b.sequencer.active.isSome ∧
      (c.resume (b.callsBegun + 1)).map Prod.fst = some (.done .stopped) ∧
      z.signals = c.signals ∧ z.Final ∧ 0 < z.frozenPending ⟨1⟩ := by
  intro other gate before mid b c z
  have hfirst : .shutdown ∉ before := by simp [before, gate, joining]
  obtain ⟨-, hfinal⟩ := shutdown_final {} .allowAll (fun _ => none) [] before mid hfirst
  obtain ⟨hreturned, hafter⟩ := hfinal (by decide +kernel)
  obtain ⟨hsignals, hz⟩ := hafter [gate {}, .unsubscribe ⟨2⟩]
  exact ⟨by decide +kernel, by decide +kernel, by decide +kernel, hreturned, hsignals, hz,
    by decide +kernel⟩

end Broker

end EventBroker
