import EventBroker.Proofs.Effects.Acting
import EventBroker.Proofs.Effects.Desk

/-! Brokers that do the same work. What is logged, what readers and observers of records have still
to see, and when a shutdown is over, makes no difference to what is done or handed over. -/

namespace EventBroker

def Call.Shuts (c : Call) : Prop := ∃ ws, c.waiting = .shutdown ws

def Call.Alike (x y : Option Call) : Prop := x = y ∨ (∀ c ∈ x, c.Shuts) ∧ ∀ c ∈ y, c.Shuts

namespace Call.Alike

variable {x y : Option Call}

theorem map {f : Call → Call} (hf : ∀ c, (f c).waiting = c.waiting) (h : Call.Alike x y) :
    Call.Alike (x.map f) (y.map f) := by
  have shuts {x : Option Call} (hx : ∀ c ∈ x, c.Shuts) : ∀ c ∈ x.map f, c.Shuts := by
    intro c hc
    obtain ⟨c₀, hc₀, rfl⟩ := Option.map_eq_some_iff.1 hc
    obtain ⟨ws, hws⟩ := hx c₀ hc₀
    exact ⟨ws, (hf c₀).trans hws⟩
  obtain rfl | ⟨hx, hy⟩ := h
  · exact .inl rfl
  · exact .inr ⟨shuts hx, shuts hy⟩

theorem erase_left (h : Call.Alike x y) (hx : ∀ c ∈ x, c.Shuts) : Call.Alike none y := by
  refine .inr ⟨fun c hc => (Option.not_mem_none c hc).elim, ?_⟩
  obtain rfl | ⟨-, hy⟩ := h
  · exact hx
  · exact hy

theorem symm (h : Call.Alike x y) : Call.Alike y x := by
  obtain rfl | ⟨hx, hy⟩ := h
  · exact .inl rfl
  · exact .inr ⟨hy, hx⟩

end Call.Alike

namespace Broker

/-- The brokers differ at most in what does not matter for the work. As long as nobody has waited
for the workers to stop, they work. -/
structure Twin (b b' : Broker) : Prop where
  view : b'.view = b.view
  calls : ∀ k, Call.Alike (b.calls.get? k) (b'.calls.get? k)
  begun : b'.callsBegun = b.callsBegun
  joined : b'.joined = b.joined
  working : b.joined = false → b.cancelled = false ∧ b.fresh.courier ≠ .stopped

theorem not_all_stopped {b c : Broker} (h : c.fresh.courier ≠ .stopped) :
    ¬b.workers.all c.hasStopped = true := by
  intro hall
  have hmem : Worker.courier .fresh ∈ b.workers := by simp [workers]
  have hstopped := List.all_eq_true.1 hall _ hmem
  rw [hasStopped] at hstopped
  split at hstopped
  · exact h ‹_›
  · cases hstopped

namespace Twin

variable {b b' : Broker}

section Reading

variable (h : b.Twin b')

include h

theorem config : b'.config = b.config := congrArg View.config h.view

theorem oracle : b'.oracle = b.oracle := congrArg View.oracle h.view

theorem bundleOf : b'.bundleOf = b.bundleOf := congrArg View.bundleOf h.view

theorem now : b'.now = b.now := congrArg View.now h.view

theorem registry : b'.registry = b.registry := congrArg View.registry h.view

theorem vault : b'.vault = b.vault := congrArg View.vault h.view

theorem sticky : b'.sticky = b.sticky := congrArg View.sticky h.view

theorem queue (lane : Lane) : b'.queue lane = b.queue lane := by
  rw [← view_queue, ← view_queue, h.view]

theorem sequencer : b'.sequencer = b.sequencer := congrArg View.sequencer h.view

theorem publications : b'.publications = b.publications := congrArg View.publications h.view

theorem chains : b'.chains = b.chains := congrArg View.chains h.view

theorem cancelled : b'.cancelled = b.cancelled := congrArg View.cancelled h.view

theorem takesCommands : b'.takesCommands = b.takesCommands := by
  rw [Broker.takesCommands, h.sequencer]
  rfl

theorem resolveBundle (o : Owner) : b'.resolveBundle o = b.resolveBundle o := by
  rw [Broker.resolveBundle, h.bundleOf]
  rfl

theorem refusal (p : Publication) : b'.refusal p = b.refusal p := by
  rw [Broker.refusal, h.oracle, h.config]
  rfl

end Reading

section Writing

variable (h : b.Twin b')

include h

theorem symm : b'.Twin b where
  view := h.view.symm
  calls k := (h.calls k).symm
  begun := h.begun.symm
  joined := h.joined.symm
  working hj := by
    have hw := h.working (h.joined ▸ hj)
    rwa [← h.cancelled, ← show b'.fresh = b.fresh from congrArg View.fresh h.view] at hw

theorem aside {c : Broker} (hv : c.view = b.view) (hd : c.desk = b.desk)
    (hj : c.joined = b.joined) : c.Twin b' where
  view := h.view.trans hv.symm
  calls k := by
    rw [show c.calls = b.calls from congrArg Desk.calls hd]
    exact h.calls k
  begun := h.begun.trans (congrArg Desk.begun hd).symm
  joined := h.joined.trans hj.symm
  working := by
    rw [hj, show c.cancelled = b.cancelled from congrArg View.cancelled hv,
      show c.fresh = b.fresh from congrArg View.fresh hv]
    exact h.working

theorem note {o o' : Occurrence} (ho : o'.signal? = o.signal?) : (b.note o).Twin (b'.note o') where
  view := by
    cases hs : o.signal? with
    | none => rw [view_note_silent _ _ hs, view_note_silent _ _ (ho.trans hs), h.view]
    | some s => rw [view_note_signal _ _ hs, view_note_signal _ _ (ho.trans hs), h.view]
  calls := h.calls
  begun := h.begun
  joined := h.joined
  working := h.working

theorem log (l l' : LogLine) : (b.log l).Twin (b'.log l') := h.note rfl

theorem emit {r r' : Record} (hr : r'.signal? = r.signal?) : (b.emit r).Twin (b'.emit r') := by
  have hbus : ({ b with bus := b.bus.publish r } : Broker).Twin
      { b' with bus := b'.bus.publish r' } :=
    ⟨h.view, h.calls, h.begun, h.joined, h.working⟩
  exact hbus.note hr

theorem setRegistry (r : Registry) : ({ b with registry := r } : Broker).Twin
    { b' with registry := r } :=
  ⟨congrArg (fun v => { v with registry := r }) h.view, h.calls, h.begun, h.joined, h.working⟩

theorem setVault (x : Vault Copy) : ({ b with vault := x } : Broker).Twin { b' with vault := x } :=
  ⟨congrArg (fun v => { v with vault := x }) h.view, h.calls, h.begun, h.joined, h.working⟩

theorem setSticky (s : StickyStore) : ({ b with sticky := s } : Broker).Twin
    { b' with sticky := s } :=
  ⟨congrArg (fun v => { v with sticky := s }) h.view, h.calls, h.begun, h.joined, h.working⟩

theorem setSequencer (s : Sequencer) : ({ b with sequencer := s } : Broker).Twin
    { b' with sequencer := s } :=
  ⟨congrArg (fun v => { v with sequencer := s }) h.view, h.calls, h.begun, h.joined, h.working⟩

theorem setPublications (n : Nat) : ({ b with publications := n } : Broker).Twin
    { b' with publications := n } :=
  ⟨congrArg (fun v => { v with publications := n }) h.view, h.calls, h.begun, h.joined, h.working⟩

theorem setChains (n : Nat) : ({ b with chains := n } : Broker).Twin { b' with chains := n } :=
  ⟨congrArg (fun v => { v with chains := n }) h.view, h.calls, h.begun, h.joined, h.working⟩

theorem setNow (t : Instant) : ({ b with now := t } : Broker).Twin { b' with now := t } :=
  ⟨congrArg (fun v => { v with now := t }) h.view, h.calls, h.begun, h.joined, h.working⟩

theorem setOracle (o : Oracle) : ({ b with oracle := o } : Broker).Twin { b' with oracle := o } :=
  ⟨congrArg (fun v => { v with oracle := o }) h.view, h.calls, h.begun, h.joined, h.working⟩

theorem setBegun (n : Nat) : ({ b with callsBegun := n } : Broker).Twin
    { b' with callsBegun := n } :=
  ⟨h.view, h.calls, rfl, h.joined, h.working⟩

theorem setStage (s : SequencerStage) : (b.setStage s).Twin (b'.setStage s) := by
  rw [Broker.setStage, Broker.setStage, h.sequencer]
  exact h.setSequencer _

theorem setActive (c : Option Chain) : (b.setActive c).Twin (b'.setActive c) := by
  rw [Broker.setActive, Broker.setActive, h.sequencer]
  exact h.setSequencer _

theorem setQueue (lane : Lane) {q : DeliveryQueue}
    (hq : q.courier = .stopped → b.joined = true) :
    (b.setQueue lane q).Twin (b'.setQueue lane q) := by
  have hv : (b'.setQueue lane q).view = (b.setQueue lane q).view := by
    rw [view_setQueue, view_setQueue, h.view]
  cases lane with
  | fresh =>
    refine ⟨hv, h.calls, h.begun, h.joined, fun hj => ⟨(h.working hj).1, fun hs => ?_⟩⟩
    exact Bool.noConfusion (hj.symm.trans (hq hs))
  | replay => exact ⟨hv, h.calls, h.begun, h.joined, h.working⟩

theorem setCourier (lane : Lane) {s : CourierStage} (hs : s ≠ .stopped) :
    (b.setCourier lane s).Twin (b'.setCourier lane s) := by
  rw [Broker.setCourier, Broker.setCourier, h.queue]
  exact h.setQueue lane fun h => absurd h hs

theorem setCall (k : Nat) {w w' : Waiting}
    (hw : w = w' ∨ (∃ ws, w = .shutdown ws) ∧ ∃ ws, w' = .shutdown ws) :
    (b.setCall k w).Twin (b'.setCall k w') := by
  refine ⟨h.view, fun k' => ?_, h.begun, h.joined, h.working⟩
  rw [Broker.setCall, Broker.setCall, Table.get?_insert, Table.get?_insert]
  split
  · obtain rfl | ⟨⟨ws, rfl⟩, ⟨ws', rfl⟩⟩ := hw
    · exact .inl rfl
    · refine .inr ⟨fun c hc => ?_, fun c hc => ?_⟩
      · cases hc
        exact ⟨ws, rfl⟩
      · cases hc
        exact ⟨ws', rfl⟩
  · exact h.calls k'

theorem endCall (k : Nat) : (b.endCall k).Twin (b'.endCall k) := by
  refine ⟨h.view, fun k' => ?_, h.begun, h.joined, h.working⟩
  rw [Broker.endCall, Broker.endCall, Table.get?_erase, Table.get?_erase]
  split
  · exact .inl rfl
  · exact h.calls k'

theorem endShutdown {k : Nat} (hk : ∀ c ∈ b.calls.get? k, c.Shuts) : (b.endCall k).Twin b' := by
  refine ⟨h.view, fun k' => ?_, h.begun, h.joined, h.working⟩
  rw [Broker.endCall, Table.get?_erase]
  split
  · rename_i hkk
    subst hkk
    exact (h.calls k).erase_left hk
  · exact h.calls k'

theorem answer (k : Nat) (a : Answer) : (b.answer k a).Twin (b'.answer k a) := by
  refine ⟨h.view, fun k' => ?_, h.begun, h.joined, h.working⟩
  rw [Broker.answer, Broker.answer, Table.get?_alter, Table.get?_alter]
  split
  · exact (h.calls k).map fun c => rfl
  · exact h.calls k'

theorem send (c : Command) : (b.send c).Twin (b'.send c) := by
  rw [Broker.send, Broker.send, h.sequencer]
  exact (h.setSequencer _).note rfl

end Writing

section Requests

variable (h : b.Twin b')

include h

theorem foldl {γ : Type} {f : Broker → γ → Broker}
    (hf : ∀ (x : γ) {b b' : Broker}, b.Twin b' → (f b x).Twin (f b' x)) (xs : List γ) :
    (xs.foldl f b).Twin (xs.foldl f b') := by
  induction xs generalizing b b' with
  | nil => exact h
  | cons x rest ih => exact ih (hf x h)

theorem submit (lane : Lane) (job : Job) : ∃ e c c',
    b.submit lane job = (e, c) ∧ b'.submit lane job = (e, c') ∧ c.Twin c' := by
  simp only [Broker.submit, h.queue lane]
  split
  · exact ⟨_, _, _, rfl, rfl, h⟩
  · rename_i hq
    split
    · exact ⟨_, _, _, rfl, rfl, h.emit rfl⟩
    · refine ⟨_, _, _, rfl, rfl, note ?_ rfl⟩
      exact h.setQueue lane fun hs => absurd hs hq

theorem replaySticky (s : Subscriber) (name : String) :
    (b.replaySticky s name).Twin (b'.replaySticky s name) := by
  rw [Broker.replaySticky, Broker.replaySticky, h.sticky]
  cases b.sticky.get? name with
  | none => exact h
  | some p =>
    dsimp only
    rw [h.oracle]
    cases p.verdict b.oracle s with
    | deliver =>
      obtain ⟨e, c, c', hb, hb', hc⟩ :=
        h.submit .fresh (.broadcast ⟨p.serial, p.event⟩ ⟨false, true⟩ [s.id])
      dsimp only
      rw [hb, hb']
      cases e with
      | none => exact hc
      | some e => exact hc.log _ _
    | filtered => exact h.log _ _
    | denied => exact h.log _ _

theorem evict (v : Eviction) : (b.evict v).Twin (b'.evict v) := by
  rw [Broker.evict, Broker.evict]
  exact emit (log (note (h.log _ _) rfl) _ _) rfl

theorem welcome (a : Admitted) : (b.welcome a).Twin (b'.welcome a) := by
  rw [Broker.welcome, Broker.welcome]
  refine foldl (emit (log ?_ _ _) ?_) (fun name _ _ h => ?_) _
  · cases a.evicted with
    | none => exact h
    | some v => exact h.evict v
  · rfl
  · exact h.replaySticky a.subscriber name

theorem subscribe (req : Subscription) : (b.subscribe req).2.Twin (b'.subscribe req).2 := by
  simp only [Broker.subscribe, h.cancelled, h.resolveBundle, h.registry, h.oracle]
  split
  · exact h
  · split
    · rename_i e hreq
      cases e with
      | tooManySubscribers pid count => exact (h.log _ _).emit rfl
      | _ => exact h
    · simpa only [h.cancelled, h.oracle] using (h.setRegistry _).welcome _

theorem dispatch (p : Publication) (matched : List Subscriber) (finalReceiver : Option Receiver) :
    ∃ result c c', b.dispatch p matched finalReceiver = (result, c) ∧
      b'.dispatch p matched finalReceiver = (result, c') ∧ c.Twin c' := by
  simp only [Broker.dispatch, h.takesCommands, h.chains, h.config]
  split
  · split
    · exact ⟨_, _, _, rfl, rfl, h⟩
    · split
      · refine ⟨_, _, _, rfl, rfl, ?_⟩
        simpa only [h.config] using (h.setChains (b.chains + 1)).send _
      · exact ⟨_, _, _, rfl, rfl, h⟩
  · split
    · exact ⟨_, _, _, rfl, rfl, h⟩
    · obtain ⟨e, c, c', hb, hb', hc⟩ := h.submit .fresh
        (.broadcast ⟨p.serial, p.event⟩ ⟨false, p.options.sticky⟩ (matched.map (·.id)))
      rw [hb, hb']
      cases e with
      | none => exact ⟨_, _, _, rfl, rfl, hc⟩
      | some e => exact ⟨_, _, _, rfl, rfl, hc⟩

theorem announce (p : Publication) (matched : Nat) (chain : Option ChainId) :
    (b.announce p matched chain).Twin (b'.announce p matched chain) := by
  have hnumbered := h.setPublications p.serial
  simp only [Broker.announce]
  cases p.options.sticky with
  | false => exact ((hnumbered.note rfl).log _ _).emit rfl
  | true =>
    rw [if_pos rfl, if_pos rfl, hnumbered.sticky]
    exact ((((hnumbered.setSticky _).note rfl).note rfl).log _ _).emit rfl

theorem post (p : Publication) (finalReceiver : Option Receiver) :
    (b.post p finalReceiver).2.Twin (b'.post p finalReceiver).2 := by
  simp only [Broker.post, h.cancelled, h.resolveBundle, h.publications, h.refusal, h.registry,
    h.oracle]
  split
  · exact h
  · split
    · exact (h.log _ _).emit rfl
    · generalize b.registry.matching b.oracle _ = found
      have hdenied (r : Record) : (if found.denied = 0 then b else b.emit r).Twin
          (if found.denied = 0 then b' else b'.emit r) := by
        split
        · exact h
        · exact h.emit rfl
      obtain ⟨result, c, c', hb, hb', hc⟩ := (hdenied _).dispatch _ found.matched finalReceiver
      rw [hb, hb']
      cases result with
      | error e => exact hc
      | ok chain => exact hc.announce _ _ _

theorem updateFreeze (sel : Selector) (frozen : Bool) :
    (b.updateFreeze sel frozen).2.Twin (b'.updateFreeze sel frozen).2 := by
  simp only [Broker.updateFreeze, h.registry, h.now]
  refine emit (log ?_ _ _) rfl
  simpa only [h.now] using h.setRegistry _

theorem flushFrozen (sel : Selector) : (b.flushFrozen sel).2.Twin (b'.flushFrozen sel).2 := by
  simp only [Broker.flushFrozen, h.vault]
  split
  · exact h
  · obtain ⟨e, c, c', hb, hb', hc⟩ := (h.setVault (b.vault.flush sel).2).submit .replay
      (.replay (b.vault.flush sel).1)
    rw [hb, hb']
    cases e with
    | none => exact (hc.log _ _).emit rfl
    | some e =>
      dsimp only
      rw [hc.vault, hc.registry]
      refine log ?_ _ _
      simpa only [hc.registry] using hc.setVault _

end Requests

section Calls

variable (h : b.Twin b')

include h

theorem ask (w : Waiting) (command : Nat → Command) (otherwise : Response) :
    (b.ask w command otherwise).2.Twin (b'.ask w command otherwise).2 := by
  simp only [Broker.ask, h.takesCommands, h.begun]
  split
  · exact ((h.setBegun _).setCall _ (.inl rfl)).send _
  · exact h

theorem departed (s : Subscriber) (dropped dropped' : Nat) (released : Bool) (reason : String) :
    (b.departed s dropped released reason).Twin (b'.departed s dropped' released reason) :=
  (h.log _ _).emit rfl

theorem retire (k : Nat) (cause : Departure) (total : Nat) (leaving : List Subscriber) :
    (Broker.retire k cause total leaving b).2.Twin (Broker.retire k cause total leaving b').2 := by
  induction leaving generalizing b b' with
  | nil =>
    refine endCall ?_ k
    cases cause with
    | unsubscribed => exact h
    | ownerDied pid =>
      dsimp only [Broker.allDeparted]
      split
      · exact h
      · exact h.log _ _
  | cons s rest ih =>
    have hpurged := h.setVault (b.vault.purge s.id).2
    simp only [Broker.retire, h.vault]
    rw [hpurged.takesCommands]
    split
    · exact (hpurged.setCall k (.inl rfl)).send _
    · exact ih (hpurged.departed _ _ _ _ _)

theorem beginRetiring (cause : Departure) (leaving : List Subscriber) :
    (b.beginRetiring cause leaving).2.Twin (b'.beginRetiring cause leaving).2 := by
  simp only [Broker.beginRetiring, h.begun]
  exact (h.setBegun _).retire _ _ _ _

theorem unsubscribe (id : SubscriberId) : (b.unsubscribe id).2.Twin (b'.unsubscribe id).2 := by
  rw [Broker.unsubscribe, Broker.unsubscribe, h.registry]
  cases b.registry.unsubscribe id with
  | none => exact h
  | some x => exact (h.setRegistry x.2).beginRetiring _ _

theorem ownerDied (pid : Pid) : (b.ownerDied pid).2.Twin (b'.ownerDied pid).2 := by
  have hleft := h.setRegistry (b.registry.removeOwner pid).2
  rw [Broker.ownerDied, Broker.ownerDied, h.registry]
  exact hleft.beginRetiring _ _

theorem shutdown : b.shutdown.2.Twin b'.shutdown.2 := by
  have hcancelled : ({ b with cancelled := true, joined := true } : Broker).Twin
      { b' with cancelled := true, joined := true } :=
    { view := congrArg (fun v => { v with cancelled := true }) h.view
      calls := h.calls
      begun := h.begun
      joined := rfl
      working := fun hj => Bool.noConfusion hj }
  have hnoted : (({ b with cancelled := true, joined := true } : Broker).note .cancelled).Twin
      (({ b' with cancelled := true, joined := true } : Broker).note .cancelled) :=
    hcancelled.note rfl
  have hgoing (hj : b.joined = false) :
      (({ b with cancelled := true, joined := true } : Broker).note .cancelled).fresh.courier ≠
        .stopped :=
    (h.working hj).2
  simp only [Broker.shutdown, h.joined]
  generalize ({ b with cancelled := true, joined := true } : Broker).note .cancelled = c
    at hnoted hgoing ⊢
  generalize ({ b' with cancelled := true, joined := true } : Broker).note .cancelled = c'
    at hnoted ⊢
  cases hj : b.joined with
  | true => exact hnoted.log _ _
  | false =>
    have hgoing' : c'.fresh.courier ≠ .stopped := by
      rw [show c'.fresh = c.fresh from hnoted.queue .fresh]
      exact hgoing hj
    rw [if_neg Bool.false_ne_true, if_neg Bool.false_ne_true, if_neg (not_all_stopped (hgoing hj)),
      if_neg (not_all_stopped hgoing'), hnoted.begun]
    exact (hnoted.setBegun _).setCall _ (.inr ⟨⟨_, rfl⟩, ⟨_, rfl⟩⟩)

theorem resume_shutdown {k : Nat} (hk : ∀ c ∈ b.calls.get? k, c.Shuts) :
    (((b.resume k).map (·.2)).getD b).Twin b' := by
  rw [Broker.resume]
  cases hc : b.calls.get? k with
  | none => exact h
  | some c =>
    obtain ⟨ws, hws⟩ := hk c hc
    dsimp only
    rw [hws]
    have hended : ((b.log .stopped).endCall k).Twin b' :=
      (h.endShutdown hk).aside (view_log (b.endCall k) .stopped) (desk_log (b.endCall k) .stopped)
        rfl
    cases c.answer <;> dsimp only <;> split <;> first | exact h | exact hended

theorem resume (k : Nat) :
    (((b.resume k).map (·.2)).getD b).Twin (((b'.resume k).map (·.2)).getD b') := by
  have shutdowns (hx : ∀ c ∈ b.calls.get? k, c.Shuts) (hy : ∀ c ∈ b'.calls.get? k, c.Shuts) :
      (((b.resume k).map (·.2)).getD b).Twin (((b'.resume k).map (·.2)).getD b') :=
    ((h.resume_shutdown hx).symm.resume_shutdown hy).symm
  obtain heq | ⟨hx, hy⟩ := h.calls k
  · cases hc : b.calls.get? k with
    | none =>
      refine shutdowns ?_ ?_
      · rw [hc]
        exact fun c hc => (Option.not_mem_none c hc).elim
      · rw [← heq, hc]
        exact fun c hc => (Option.not_mem_none c hc).elim
    | some c =>
      have same {w : Waiting} (hw : c.waiting = w) (hne : ∀ ws, w ≠ .shutdown ws) :
          (((b.resume k).map (·.2)).getD b).Twin (((b'.resume k).map (·.2)).getD b') := by
        rw [Broker.resume, Broker.resume, ← heq, hc]
        dsimp only
        rw [hw]
        cases w with
        | finish =>
          cases c.answer with
          | none => exact h
          | some a => cases a <;> exact h.endCall k
        | active =>
          cases c.answer with
          | none => exact h
          | some a => cases a <;> exact h.endCall k
        | retire ret =>
          cases c.answer with
          | none => exact h
          | some a => cases a <;> exact (h.departed _ _ _ _ _).retire _ _ _ _
        | shutdown ws => exact absurd rfl (hne ws)
      cases hw : c.waiting with
      | shutdown ws =>
        have hshuts : ∀ x ∈ some c, x.Shuts := by
          rintro x ⟨⟩
          exact ⟨ws, hw⟩
        exact shutdowns (hc ▸ hshuts) (heq ▸ hc ▸ hshuts)
      | _ => exact same hw (by simp)
  · exact shutdowns hx hy

end Calls

section Deliveries

variable (h : b.Twin b')

include h

theorem approach (id : SubscriberId) (copy : Copy) (chain : Option ChainId) : ∃ ready c c',
    b.approach id copy chain = (ready, c) ∧ b'.approach id copy chain = (ready, c') ∧
      c.Twin c' := by
  rw [Broker.approach, Broker.approach, h.registry]
  cases b.registry.entry? id with
  | none => exact ⟨_, _, _, rfl, rfl, h⟩
  | some e =>
    dsimp only
    split
    · exact ⟨_, _, _, rfl, rfl, h⟩
    · rw [h.vault, h.now]
      refine ⟨_, _, _, rfl, rfl, emit (log ?_ _ _) rfl⟩
      simpa only [h.now, h.registry] using h.setVault _

theorem deliveryFailed (s : Subscriber) (copy : Copy) (chain : Option ChainId)
    (e : DeliveryError) :
    (b.deliveryFailed s copy chain e).Twin (b'.deliveryFailed s copy chain e) :=
  (h.log _ _).emit rfl

theorem attempt (lane : Lane) (d : Delivery) (rest : List Delivery) :
    (b.attempt lane d rest).Twin (b'.attempt lane d rest) := by
  obtain ⟨ready, c, c', hb, hb', hc⟩ := h.approach d.target d.copy none
  rw [Broker.attempt, Broker.attempt, hb, hb']
  cases ready with
  | ready s =>
    dsimp only
    rw [hc.now]
    exact note (hc.setCourier lane (by simp)) rfl
  | gone => exact hc.setCourier lane (by simp)
  | frozen => exact hc.setCourier lane (by simp)

theorem courierStep (lane : Lane) :
    ((b.courierStep lane).getD b).Twin ((b'.courierStep lane).getD b') := by
  simp only [Broker.courierStep, h.queue lane, h.cancelled]
  split
  · exact h
  · exact h
  · exact h.setCourier lane (by simp)
  · exact h.attempt lane _ _
  · split
    · rename_i hc
      have hj : b.joined = true := by
        cases hj : b.joined with
        | true => rfl
        | false => cases hc.symm.trans (h.working hj).1
      simp only [Broker.stopCourier, h.queue lane]
      exact note (log (h.setQueue lane fun _ => hj) _ _) rfl
    · split
      · exact h
      · rename_i job rest hjobs
        simp only [Broker.takeJob, h.queue lane]
        have htaken := h.setQueue lane (q := { b.queue lane with
          jobs := rest, courier := .carrying job.deliveries }) (by simp)
        cases job with
        | broadcast copy flags targets => exact htaken
        | replay held => exact htaken.log _ _

theorem courierConclude (lane : Lane) (result : Except DeliveryError Unit) :
    (b.courierConclude lane result).Twin (b'.courierConclude lane result) := by
  rw [Broker.courierConclude, Broker.courierConclude, h.queue lane]
  split
  · rename_i n rest hq
    have hnotified : (b.note (.notified (.courier lane) n result)).Twin
        (b'.note (.notified (.courier lane) n result)) :=
      h.note rfl
    dsimp only
    cases result with
    | ok u => exact hnotified.setCourier lane (by simp)
    | error e =>
      cases n.subscriber with
      | none => exact hnotified.setCourier lane (by simp)
      | some s => exact (hnotified.deliveryFailed s n.copy none e).setCourier lane (by simp)
  · exact h

end Deliveries

section Sequencing

variable (h : b.Twin b')

include h

theorem forget (c : Command) : (b.forget c).Twin (b'.forget c) := by
  cases c with
  | enqueue c => exact h
  | _ => exact h.answer _ _

theorem closeSequencer : b.closeSequencer.Twin b'.closeSequencer := by
  simp only [Broker.closeSequencer, h.sequencer]
  exact foldl (h.setSequencer _) (fun c _ _ h => h.forget c) _

theorem stopSequencer : b.stopSequencer.Twin b'.stopSequencer := by
  simp only [Broker.stopSequencer, h.sequencer]
  exact note (log h.closeSequencer _ _) rfl

theorem breakDown : b.breakDown.Twin b'.breakDown :=
  note h.closeSequencer rfl

theorem handle (c : Command) : (b.handle c).Twin (b'.handle c) := by
  cases c with
  | enqueue c =>
    rw [Broker.handle, Broker.handle, h.sequencer]
    exact h.setSequencer _
  | finish r code data abort k =>
    rw [Broker.handle, Broker.handle, h.sequencer]
    split
    · exact h.answer _ _
    · split
      · exact (((h.setActive _).answer _ _).log _ _).setStage _
      · exact h.answer _ _
  | release r k =>
    rw [Broker.handle, Broker.handle, h.sequencer]
    split
    · exact h.answer _ _
    · split
      · exact (((h.setActive _).answer _ _).log _ _).setStage _
      · exact h.answer _ _
  | active r k =>
    rw [Broker.handle, Broker.handle, h.sequencer]
    exact h.answer _ _

theorem sweep : (b.sweep.getD b).Twin (b'.sweep.getD b') := by
  simp only [Broker.sweep, h.sequencer, h.now]
  split
  · exact h
  · split
    · exact (((h.setActive _).log _ _).emit rfl).setStage _
    · split
      · split
        · exact h.setStage _
        · exact (((h.setActive _).log _ _).emit rfl).setStage _
      · exact h

theorem startChain (c : Chain) (rest : List Chain) :
    (b.startChain c rest).Twin (b'.startChain c rest) := by
  have started {d d' : Broker} (hd : d.Twin d') (x : Chain) : ({ d with sequencer :=
      { d.sequencer with pending := rest, active := some x } } : Broker).Twin { d' with sequencer :=
        { d'.sequencer with pending := rest, active := some x } } := by
    rw [hd.sequencer]
    exact hd.setSequencer _
  simp only [Broker.startChain, h.now]
  exact started (emit (h.log _ _) rfl) _

theorem chainFinished (c : Chain) (reason : FinishReason) :
    (b.chainFinished c reason).Twin (b'.chainFinished c reason) :=
  ((h.log _ _).emit rfl).setStage _

theorem finalize (c : Chain) (reason : FinishReason) :
    (b.finalize c reason).Twin (b'.finalize c reason) := by
  have hv := h.setActive none
  simp only [Broker.finalize]
  cases c.finalReceiver with
  | none => exact hv.chainFinished c reason
  | some receiver =>
    dsimp only
    rw [hv.now]
    exact (hv.setStage _).note rfl

theorem deliverTo (c : Chain) (index : Nat) (receiver : SubscriberId) :
    (b.deliverTo c index receiver).Twin (b'.deliverTo c index receiver) := by
  obtain ⟨ready, d, d', hb, hb', hd⟩ := h.approach receiver c.copy (some c.id)
  rw [Broker.deliverTo, Broker.deliverTo, hb, hb']
  cases ready with
  | ready s =>
    dsimp only
    rw [hd.now]
    exact ((hd.setActive _).setStage _).note rfl
  | gone => exact hd.setActive _
  | frozen => exact hd.setActive _

theorem pumpStep : b.pumpStep.Twin b'.pumpStep := by
  rw [Broker.pumpStep, Broker.pumpStep, h.sequencer, h.now]
  split
  · split
    · exact h.setStage _
    · exact h.startChain _ _
  · split
    · split
      · exact h.breakDown
      · exact h.setStage _
    · split
      · exact h.finalize _ _
      · exact h.deliverTo _ _ _
      · exact h.breakDown

theorem sequencerStep : (b.sequencerStep.getD b).Twin (b'.sequencerStep.getD b') := by
  simp only [Broker.sequencerStep, h.sequencer, h.cancelled]
  split
  · exact h
  · exact h
  · exact h
  · exact h.pumpStep
  · split
    · exact h.stopSequencer
    · split
      · simpa only [h.sequencer, h.cancelled, Option.getD_some] using (h.setSequencer _).handle _
      · exact h.sweep

theorem sequencerConclude (result : Except DeliveryError Unit) :
    (b.sequencerConclude result).Twin (b'.sequencerConclude result) := by
  have hnotified (n : Notice) : (b.note (.notified .sequencer n result)).Twin
      (b'.note (.notified .sequencer n result)) :=
    h.note rfl
  rw [Broker.sequencerConclude, Broker.sequencerConclude, h.sequencer]
  cases b.sequencer.stage with
  | handing n i =>
    dsimp only
    rw [(hnotified n).sequencer]
    split
    · exact (((hnotified n).setActive _).log _ _).setStage _
    · exact (((hnotified n).deliveryFailed _ _ _ _).setActive _).setStage _
    · exact (hnotified n).setStage _
  | closing n c reason =>
    dsimp only
    cases result with
    | ok u => exact (hnotified n).chainFinished c reason
    | error e => exact (((hnotified n).log _ _).emit rfl).chainFinished c reason
  | _ => exact h

end Sequencing

section Observing

theorem joined_offer (b : Broker) (r : Record) : (b.offer r).joined = b.joined := by
  have applied (e : Emission) (b : Broker) : (b.applyEmission e).joined = b.joined := by
    cases e with
    | queued i => rfl
    | lost report => cases report <;> rfl
  have all (es : List Emission) (b : Broker) : (es.foldl applyEmission b).joined = b.joined := by
    induction es generalizing b with
    | nil => rfl
    | cons e rest ih => exact (ih _).trans (applied e b)
  exact all _ _

theorem joined_listenerStep {b b' : Broker} (h : b.listenerStep = some b') :
    b'.joined = b.joined := by
  have noted (is : List Nat) (b : Broker) :
      (is.foldl (fun b i => b.note (.queued (.observer i))) b).joined = b.joined := by
    induction is generalizing b with
    | nil => rfl
    | cons i rest ih => exact ih _
  cases listens h with
  | forward => exact joined_offer _ _
  | drain => exact noted _ _
  | stop => rfl

theorem joined_observerStep {b b' : Broker} {i : Nat} (h : b.observerStep i = some b') :
    b'.joined = b.joined := by
  rw [Broker.observerStep] at h
  split at h
  · cases h
  · cases h
    rfl
  · cases h
    split <;> rfl

theorem joined_observerConclude (b : Broker) (i : Nat) (panic : Option Panic) :
    (b.observerConclude i panic).joined = b.joined := by
  rw [Broker.observerConclude]
  split <;> rfl

end Observing

theorem act (h : b.Twin b') (a : Action) : (b.act a).Twin (b'.act a) := by
  -- What the listener and the observers do matters to neither.
  have bystander {c c' : Broker} (hv : c.view = b.view) (hd : c.desk = b.desk)
      (hj : c.joined = b.joined) (hv' : c'.view = b'.view) (hd' : c'.desk = b'.desk)
      (hj' : c'.joined = b'.joined) : c.Twin c' :=
    ((h.aside hv hd hj).symm.aside hv' hd' hj').symm
  cases a with
  | subscribe req => exact h.subscribe req
  | publish p => exact h.post p none
  | publishWithResult p receiver => exact h.post _ _
  | updateFreeze sel frozen => exact h.updateFreeze sel frozen
  | flushFrozen sel => exact h.flushFrozen sel
  | unsubscribe id => exact h.unsubscribe id
  | ownerDied pid => exact h.ownerDied pid
  | finish r code data abort => exact h.ask _ _ _
  | active r => exact h.ask _ _ _
  | shutdown => exact h.shutdown
  | resume k => exact h.resume k
  | work w =>
    cases w with
    | listener =>
      change (b.listenerStep.getD b).Twin (b'.listenerStep.getD b')
      have step (b : Broker) : (b.listenerStep.getD b).view = b.view ∧
          (b.listenerStep.getD b).desk = b.desk ∧ (b.listenerStep.getD b).joined = b.joined := by
        cases hb : b.listenerStep with
        | none => exact ⟨rfl, rfl, rfl⟩
        | some c => exact ⟨listenerStep_view hb, desk_listenerStep hb, joined_listenerStep hb⟩
      obtain ⟨hv, hd, hj⟩ := step b
      obtain ⟨hv', hd', hj'⟩ := step b'
      exact bystander hv hd hj hv' hd' hj'
    | observer i =>
      change ((b.observerStep i).getD b).Twin ((b'.observerStep i).getD b')
      have step (b : Broker) : ((b.observerStep i).getD b).view = b.view ∧
          ((b.observerStep i).getD b).desk = b.desk ∧
            ((b.observerStep i).getD b).joined = b.joined := by
        cases hb : b.observerStep i with
        | none => exact ⟨rfl, rfl, rfl⟩
        | some c => exact ⟨observerStep_view hb, desk_observerStep hb, joined_observerStep hb⟩
      obtain ⟨hv, hd, hj⟩ := step b
      obtain ⟨hv', hd', hj'⟩ := step b'
      exact bystander hv hd hj hv' hd' hj'
    | courier lane => exact h.courierStep lane
    | sequencer => exact h.sequencerStep
  | handedOff w reception =>
    cases w with
    | courier lane => exact h.courierConclude lane reception.result
    | sequencer => exact h.sequencerConclude reception.result
    | _ => exact h
  | observed i panic =>
    exact bystander (b.observerConclude_view i panic) (b.desk_observerConclude i panic)
      (joined_observerConclude b i panic) (b'.observerConclude_view i panic)
      (b'.desk_observerConclude i panic) (joined_observerConclude b' i panic)
  | tick now =>
    change ({ b with now := max b.now now } : Broker).Twin { b' with now := max b'.now now }
    rw [h.now]
    exact h.setNow _
  | setOracle o => exact h.setOracle o

theorem run (h : b.Twin b') (actions : List Action) : (b.run actions).Twin (b'.run actions) := by
  induction actions generalizing b b' with
  | nil => exact h
  | cons a rest ih => exact ih (h.act a)

theorem start (config : Config) (oracle : Oracle) (bundleOf : Uid → Option String)
    (observers : List Observer) :
    (start config oracle bundleOf observers).Twin (start config oracle bundleOf observers) where
  view := rfl
  calls _ := .inl rfl
  begun := rfl
  joined := rfl
  working _ := ⟨rfl, nofun⟩

end Twin

end Broker

end EventBroker
