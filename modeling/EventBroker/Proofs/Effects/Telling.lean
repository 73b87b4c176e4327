import EventBroker.Proofs.Effects.Topics

namespace EventBroker

def RecordKind.ofDelivery : RecordKind → Bool
  | .deliveryFailed | .eventFrozen | .receiverTimedOut | .watchdogFired | .chainStarted
  | .chainFinished => true
  | _ => false

def Occurrence.aside : Occurrence → Bool
  | .record r => !r.kind.ofDelivery
  | .notifying _ _ | .notified _ _ _ => false
  | _ => true

def Topic.aside : Topic → Bool
  | .record k => !k.ofDelivery
  | .handover => false
  | _ => true

theorem Occurrence.Within.aside {ts : List Topic} {o : Occurrence} (h : o.Within ts)
    (hts : ts.all Topic.aside = true) : o.aside = true := by
  rw [List.all_eq_true] at hts
  cases o with
  | record r => exact hts _ (h _ rfl)
  | notifying w n => exact hts _ (h _ rfl)
  | notified w n result => exact hts _ (h _ rfl)
  | _ => rfl

def Occurrence.reported : Occurrence → Option Record
  | .record r => if r.kind.ofDelivery then some r else none
  | _ => none

def Occurrence.Chainless (o : Occurrence) : Prop := ∀ r, o.reported = some r → r.chain = none

theorem Occurrence.reported_of_aside {o : Occurrence} (h : o.aside = true) : o.reported = none := by
  cases o with
  | record r =>
    rw [aside, Bool.not_eq_true'] at h
    rw [reported, h]
    rfl
  | _ => rfl

theorem Occurrence.Chainless.of_reported {o : Occurrence} (h : o.reported = none) :
    o.Chainless := by
  intro r hr
  cases h.symm.trans hr

theorem Occurrence.chainless_of_aside {o : Occurrence} (h : o.aside = true) : o.Chainless :=
  .of_reported (reported_of_aside h)

theorem Occurrence.chainless_record {r : Record} (h : r.chain = none) :
    (Occurrence.record r).Chainless := by
  intro x hx
  rw [reported] at hx
  split at hx
  · cases hx
    exact h
  · cases hx

namespace Broker

def Quiet (b b' : Broker) : Prop := b.Tells (fun o => o.aside = true) b'

section Quiet

variable {b b' b'' : Broker}

theorem Quiet.same (h : b'.past = b.past) : b.Quiet b' := Tells.same h

theorem Quiet.note (h : b.Quiet b') {o : Occurrence} (ho : o.aside = true) :
    b.Quiet (b'.note o) :=
  Tells.note h ho

theorem Quiet.log (h : b.Quiet b') {l : LogLine} : b.Quiet (b'.log l) := Tells.log h rfl

theorem Within.quiet (ts : List Topic) (h : b.Within ts b') (hts : ts.all Topic.aside = true) :
    b.Quiet b' :=
  Tells.imp h fun _ ho => ho.aside hts

end Quiet

section Operations

theorem quiet_setQueue (b : Broker) (lane : Lane) (q : DeliveryQueue) :
    b.Quiet (b.setQueue lane q) :=
  (b.airs_setQueue lane q).within.quiet [] rfl

theorem quiet_listenerStep {b b' : Broker} (h : b.listenerStep = some b') : b.Quiet b' :=
  (within_listenerStep h (.head _)).quiet (Action.topics (.work .listener)) rfl

theorem quiet_observerStep {b b' : Broker} {i : Nat} (h : b.observerStep i = some b') :
    b.Quiet b' :=
  (within_observerStep h (.head _)).quiet (Action.topics (.work (.observer i))) rfl

variable (b : Broker)

theorem quiet_stopSequencer : b.Quiet b.stopSequencer :=
  b.airs_stopSequencer.within.quiet [] rfl

theorem quiet_breakDown : b.Quiet b.breakDown :=
  b.airs_breakDown.within.quiet [] rfl

theorem quiet_handle (c : Command) : b.Quiet (b.handle c) :=
  (b.airs_handle c).within.quiet [] rfl

theorem quiet_act {a : Action} (h : isWork a = false) : b.Quiet (b.act a) := by
  refine (b.act_within a).quiet _ ?_
  cases a with
  | work w => cases h
  | handedOff w reception => cases h
  | _ => rfl

end Operations

section Deliveries

variable {b b' : Broker}

theorem tells_approach {P : Occurrence → Prop} {chain : Option ChainId}
    (hl : ∀ l, P (.logged l)) (hr : ∀ r : Record, r.chain = chain → P (.record r))
    {id : SubscriberId} {copy : Copy} {ready : Readiness}
    (h : b.approach id copy chain = (ready, b')) : b.Tells P b' := by
  rw [approach] at h
  split at h
  · cases h
    exact .same rfl
  · split at h
    · cases h
      exact .same rfl
    · cases h
      refine Tells.emit (Tells.log (.same rfl) (hl _)) (hr _ ?_)
      cases chain <;> rfl

theorem chainless_deliveryFailed (b : Broker) (s : Subscriber) (copy : Copy) (e : DeliveryError) :
    b.Tells Occurrence.Chainless (b.deliveryFailed s copy none e) :=
  Tells.emit (Tells.log (.same rfl) (Occurrence.chainless_of_aside rfl))
    (Occurrence.chainless_record rfl)

theorem Quiet.chainless (h : b.Quiet b') : b.Tells Occurrence.Chainless b' :=
  Tells.imp h fun _ => Occurrence.chainless_of_aside

theorem chainless_attempt (b : Broker) (lane : Lane) (d : Delivery) (rest : List Delivery) :
    b.Tells Occurrence.Chainless (b.attempt lane d rest) := by
  have approached {b' : Broker} {ready : Readiness} (h : b.approach d.target d.copy none =
      (ready, b')) : b.Tells Occurrence.Chainless b' :=
    tells_approach (fun _ => Occurrence.chainless_of_aside rfl)
      (fun _ => Occurrence.chainless_record) h
  rw [attempt]
  split
  · rename_i h
    refine Tells.note ((approached h).trans ?_) (.of_reported rfl)
    exact (quiet_setQueue _ lane _).chainless
  · rename_i h
    exact (approached h).trans (quiet_setQueue _ lane _).chainless

theorem chainless_courierStep {lane : Lane} (h : b.courierStep lane = some b') :
    b.Tells Occurrence.Chainless b' := by
  cases courierStep_cases h with
  | rest => exact (b.quiet_setQueue lane _).chainless
  | attempt => exact b.chainless_attempt lane _ _
  | stop => exact ((b.quiet_setQueue lane _).log.note rfl).chainless
  | @take job rest =>
    cases job with
    | broadcast copy flags targets => exact (b.quiet_setQueue lane _).chainless
    | replay held => exact (b.quiet_setQueue lane _).log.chainless

theorem chainless_courierConclude (b : Broker) (lane : Lane) (result : Except DeliveryError Unit) :
    b.Tells Occurrence.Chainless (b.courierConclude lane result) := by
  rw [courierConclude]
  split
  · rename_i n rest hq
    refine Tells.trans ?_ (quiet_setQueue _ lane _).chainless
    have hnotified : b.Tells Occurrence.Chainless
        (b.note (.notified (.courier lane) n result)) :=
      Tells.note (.same rfl) (.of_reported rfl)
    cases result with
    | ok u => exact hnotified
    | error e =>
      cases n.subscriber with
      | none => exact hnotified
      | some s => exact hnotified.trans (chainless_deliveryFailed _ s n.copy e)
  · exact .same rfl

end Deliveries

def Grows (b b' : Broker) : Prop := b.history <+: b'.history

section Grows

variable {b b' b'' : Broker}

theorem Grows.same (h : b'.past = b.past) : b.Grows b' := by
  have hhistory : b'.history = b.history := congrArg Journal.toList h
  exact ⟨[], (List.append_nil _).trans hhistory.symm⟩

theorem Grows.trans (h : b.Grows b') (h' : b'.Grows b'') : b.Grows b'' := List.IsPrefix.trans h h'

theorem Tells.grows {P : Occurrence → Prop} (h : b.Tells P b') : b.Grows b' := by
  obtain ⟨os, ho, -⟩ := h
  rw [Grows, ho]
  exact List.prefix_append _ _

theorem grows_act (b : Broker) (a : Action) : b.Grows (b.act a) := Tells.grows (b.act_within a)

theorem grows_run (b : Broker) (actions : List Action) : b.Grows (b.run actions) := by
  induction actions generalizing b with
  | nil => exact .same rfl
  | cons a rest ih => exact (b.grows_act a).trans (ih (b.act a))

theorem Grows.told_mono {β : Type} (h : b.Grows b') (f : Occurrence → Option β) :
    b.told f <+: b'.told f :=
  List.IsPrefix.filterMap _ h

end Grows

def reports (b : Broker) : List Record := b.told Occurrence.reported

section Reports

variable {b b' : Broker}

theorem Quiet.reports_eq (h : b.Quiet b') : b'.reports = b.reports :=
  Tells.told_eq h fun _ => Occurrence.reported_of_aside

theorem Grows.reports (h : b.Grows b') : b.reports <+: b'.reports := h.told_mono _

@[simp] theorem reports_log (b : Broker) (l : LogLine) : (b.log l).reports = b.reports :=
  (Quiet.log (.same rfl)).reports_eq

@[simp] theorem reports_setStage (b : Broker) (s : SequencerStage) :
    (b.setStage s).reports = b.reports := rfl

@[simp] theorem reports_setActive (b : Broker) (c : Option Chain) :
    (b.setActive c).reports = b.reports := rfl

theorem reports_notifying (b : Broker) (w : Worker) (n : Notice) :
    (b.note (.notifying w n)).reports = b.reports :=
  (told_note _ _ _).trans (List.append_nil _)

theorem reports_notified (b : Broker) (w : Worker) (n : Notice)
    (result : Except DeliveryError Unit) :
    (b.note (.notified w n result)).reports = b.reports :=
  (told_note _ _ _).trans (List.append_nil _)

theorem reports_emit (b : Broker) {r : Record} (h : r.kind.ofDelivery = true) :
    (b.emit r).reports = b.reports ++ [r] := by
  rw [reports, told_emit, Occurrence.reported, if_pos h]
  rfl

theorem reports_approach {id : SubscriberId} {e : Entry} (he : b.registry.entry? id = some e)
    (hf : e.frozenAt ≠ none) {copy : Copy} {chain : Option ChainId} {ready : Readiness}
    (h : b.approach id copy chain = (ready, b')) : ready = .frozen ∧
      ∃ r : Record, r.kind = .eventFrozen ∧ r.chain = chain ∧ r.subscriber = some id ∧
        b'.reports = b.reports ++ [r] := by
  have hn : ¬e.frozenAt.isNone = true := by
    rwa [Option.isNone_iff_eq_none]
  rw [approach, he] at h
  dsimp only at h
  rw [if_neg hn] at h
  cases h
  have hheld := reports_log { b with vault := b.vault.capture e.subscriber copy b.now }
    (.heldFrozen copy.event.name id)
  refine ⟨rfl, _, Record.kind_withChain _ _, ?_, ?_,
    (reports_emit _ ?_).trans (congrArg (· ++ [_]) hheld)⟩
  · cases chain <;> rfl
  · cases chain <;> rfl
  · rw [Record.kind_withChain]
    rfl

theorem reports_deliveryFailed (b : Broker) (s : Subscriber) (copy : Copy) (chain : Option ChainId)
    (e : DeliveryError) : ∃ r : Record, r.kind = .deliveryFailed ∧ r.chain = chain ∧
      r.subscriber = some s.id ∧
        (b.deliveryFailed s copy chain e).reports = b.reports ++ [r] := by
  refine ⟨_, Record.kind_withChain _ _, ?_, ?_,
    (reports_emit _ ?_).trans (congrArg (· ++ [_]) (b.reports_log _))⟩
  · cases chain <;> rfl
  · cases chain <;> rfl
  · rw [Record.kind_withChain]
    rfl

theorem reports_chainFinished (b : Broker) (c : Chain) (reason : FinishReason) :
    ∃ r : Record, r.kind = .chainFinished ∧ r.chain = some c.id ∧ r.subscriber = none ∧
      r.count = some (min c.delivered maxCount) ∧ r.reason = some reason.name ∧
        (b.chainFinished c reason).reports = b.reports ++ [r] :=
  ⟨_, rfl, rfl, rfl, rfl, rfl, (reports_emit _ rfl).trans (congrArg (· ++ [_]) (b.reports_log _))⟩

end Reports

end Broker

end EventBroker
