import EventBroker.Proofs.Effects.Calls
import EventBroker.Proofs.Effects.Observing
import EventBroker.Proofs.Effects.Requests

namespace EventBroker

inductive Mark
  | handed (n : Notice)
  | finished (receiver : SubscriberId)
  | released (receiver : SubscriberId)
  | timedOut (chain : Option ChainId) (receiver : Option SubscriberId)
  | expired (chain : Option ChainId) (receiver : Option SubscriberId)

def Record.mark? (r : Record) : Option Mark :=
  match r.kind with
  | .receiverTimedOut => some (.timedOut r.chain r.subscriber)
  | .watchdogFired => some (.expired r.chain r.subscriber)
  | _ => none

theorem Record.mark?_eq_none {r : Record} (ht : r.kind ≠ .receiverTimedOut)
    (hw : r.kind ≠ .watchdogFired) : r.mark? = none := by
  unfold mark?
  split
  · contradiction
  · contradiction
  · rfl

def Occurrence.mark? : Occurrence → Option Mark
  | .record r => r.mark?
  | .notified .sequencer n (.ok ()) => if n.subscriber.isSome then some (.handed n) else none
  | _ => none

structure Desk where
  calls : Table Nat Call
  begun : Nat
  marks : List (Instant × Mark)

def Desk.mark (d : Desk) (now : Instant) (m : Option Mark) : Desk :=
  { d with marks := d.marks ++ (m.map (now, ·)).toList }

@[simp] theorem Desk.mark_none (d : Desk) (now : Instant) : d.mark now none = d := by
  simp [mark]

namespace Broker

variable (b : Broker)

def marks : List (Instant × Mark) := b.history.filterMap fun o => o.2.mark?.map (o.1, ·)

def desk : Desk := ⟨b.calls, b.callsBegun, b.marks⟩

theorem desk_note (o : Occurrence) : (b.note o).desk = b.desk.mark b.now o.mark? := by
  have hm : (b.note o).marks = b.marks ++ (o.mark?.map (b.now, ·)).toList := by
    rw [marks, history_note, List.filterMap_append, marks]
    cases h : o.mark? <;> simp [h]
  rw [desk, hm]
  rfl

theorem desk_note_plain {o : Occurrence} (h : o.mark? = none) : (b.note o).desk = b.desk := by
  rw [desk_note, h, Desk.mark_none]

theorem desk_emit (r : Record) : (b.emit r).desk = b.desk.mark b.now r.mark? :=
  ({ b with bus := b.bus.publish r }).desk_note (.record r)

@[simp] theorem desk_log (l : LogLine) : (b.log l).desk = b.desk := b.desk_note_plain rfl

@[simp] theorem desk_emit_plain (r : Record) (ht : r.kind ≠ .receiverTimedOut)
    (hw : r.kind ≠ .watchdogFired) : (b.emit r).desk = b.desk := by
  rw [desk_emit, Record.mark?_eq_none ht hw, Desk.mark_none]

@[simp] theorem desk_setStage (s : SequencerStage) : (b.setStage s).desk = b.desk := rfl

@[simp] theorem desk_setActive (c : Option Chain) : (b.setActive c).desk = b.desk := rfl

@[simp] theorem desk_setQueue (lane : Lane) (q : DeliveryQueue) :
    (b.setQueue lane q).desk = b.desk := by
  cases lane <;> rfl

@[simp] theorem desk_setCourier (lane : Lane) (s : CourierStage) :
    (b.setCourier lane s).desk = b.desk :=
  b.desk_setQueue lane _

@[simp] theorem desk_deliveryFailed (s : Subscriber) (copy : Copy) (chain : Option ChainId)
    (e : DeliveryError) : (b.deliveryFailed s copy chain e).desk = b.desk := by
  simp [deliveryFailed]

@[simp] theorem desk_departed (s : Subscriber) (dropped : Nat) (released : Bool)
    (reason : String) : (b.departed s dropped released reason).desk = b.desk := by
  simp [departed]

section Delivering

theorem desk_approach {b b' : Broker} {id : SubscriberId} {copy : Copy} {chain : Option ChainId}
    {ready : Readiness} (h : b.approach id copy chain = (ready, b')) : b'.desk = b.desk := by
  rw [approach] at h
  split at h
  · cases h
    rfl
  · split at h
    · cases h
      rfl
    · cases h
      rw [desk_emit_plain _ _ (by simp) (by simp), desk_log]
      rfl

theorem Submits.desk_eq {b b' : Broker} {lane : Lane} {job : Job} {r : Option BrokerError}
    (h : b.Submits lane job r b') : b'.desk = b.desk := by
  cases h with
  | closed hc => rfl
  | full hc hr => exact desk_emit_plain _ _ (by simp) (by simp)
  | taken hc hr => rw [desk_note_plain _ rfl, desk_setQueue]

theorem desk_courierStep {b b' : Broker} {lane : Lane} (h : b.courierStep lane = some b') :
    b'.desk = b.desk := by
  cases courierStep_cases h with
  | rest => simp
  | attempt =>
    rw [Broker.attempt]
    split
    · rename_i ha
      rw [desk_note_plain _ rfl, desk_setCourier, desk_approach ha]
    · rename_i ha
      rw [desk_setCourier, desk_approach ha]
  | stop => rw [stopCourier, desk_note_plain _ rfl, desk_log, desk_setQueue]
  | @take job rest => cases job <;> simp [takeJob]

theorem desk_courierConclude (lane : Lane) (result : Except DeliveryError Unit) :
    (b.courierConclude lane result).desk = b.desk := by
  rw [courierConclude]
  split
  · dsimp only
    rw [desk_setCourier]
    split
    · rw [desk_deliveryFailed, desk_note_plain _ rfl]
    · exact b.desk_note_plain rfl
  · rfl

end Delivering

section Observing

theorem desk_offer (r : Record) : (b.offer r).desk = b.desk := by
  have h : ∀ (es : List Emission) (b : Broker),
      (∀ report, .lost (some report) ∈ es → report.kind = .observerOverflow) →
      (es.foldl applyEmission b).desk = b.desk := by
    intro es
    induction es with
    | nil => exact fun _ _ => rfl
    | cons e rest ih =>
      intro b he
      rw [List.foldl_cons, ih _ fun report hm => he report (List.mem_cons_of_mem _ hm)]
      cases e with
      | queued i => exact b.desk_note_plain rfl
      | lost report =>
        cases report with
        | none => rfl
        | some report =>
          have hk := he report List.mem_cons_self
          exact b.desk_emit_plain report (by simp [hk]) (by simp [hk])
  rw [offer]
  apply (h _ _ _).trans
  · rfl
  · intro report hm
    obtain ⟨offered, ho, he⟩ := List.mem_map.1 hm
    obtain ⟨i, hi, rfl⟩ := List.mem_mapIdx.1 ho
    exact Observers.offer_report he

theorem desk_listenerStep {b b' : Broker} (h : b.listenerStep = some b') : b'.desk = b.desk := by
  have queued : ∀ (is : List Nat) (b : Broker),
      (is.foldl (fun b i => b.note (.queued (.observer i))) b).desk = b.desk := by
    intro is
    induction is with
    | nil => exact fun _ => rfl
    | cons i rest ih => exact fun b => (ih _).trans (b.desk_note_plain rfl)
  cases listens h with
  | forward => exact desk_offer _ _
  | drain => exact queued _ _
  | stop => exact desk_note_plain _ rfl

theorem desk_observerStep {b b' : Broker} {i : Nat} (h : b.observerStep i = some b') :
    b'.desk = b.desk := by
  rw [observerStep] at h
  split at h
  · cases h
  · cases h
    exact desk_note_plain _ rfl
  · cases h
    split
    · exact (desk_log _ _).trans (desk_note_plain _ rfl)
    · exact desk_note_plain _ rfl

theorem desk_observerConclude (i : Nat) (panic : Option Panic) :
    (b.observerConclude i panic).desk = b.desk := by
  rw [observerConclude]
  split
  · rfl
  · rename_i report observers h
    have hk := Observers.done_report h
    exact desk_emit_plain _ report (by simp [hk]) (by simp [hk])

end Observing

section Requests

theorem desk_replaySticky (s : Subscriber) (name : String) :
    (b.replaySticky s name).desk = b.desk := by
  rw [replaySticky]
  split
  · rfl
  · split
    · split
      · rename_i hs
        exact (submits hs).desk_eq
      · rename_i hs
        exact (desk_log _ _).trans (submits hs).desk_eq
    · exact desk_log _ _

@[simp] theorem desk_evict (v : Eviction) : (b.evict v).desk = b.desk := by
  simp only [evict]
  rw [desk_emit_plain _ _ (by simp) (by simp), desk_log, desk_note_plain _ rfl, desk_log]

theorem desk_welcome (a : Admitted) : (b.welcome a).desk = b.desk := by
  have stickies : ∀ (names : List String) (b : Broker),
      (names.foldl (fun b name => b.replaySticky a.subscriber name) b).desk = b.desk := by
    intro names
    induction names with
    | nil => exact fun _ => rfl
    | cons name rest ih => exact fun b => (ih _).trans (b.desk_replaySticky _ _)
  rw [welcome]
  apply (stickies _ _).trans
  rw [desk_emit_plain _ _ (by simp) (by simp), desk_log]
  cases a.evicted <;> simp

theorem desk_subscribe (req : Subscription) : (b.subscribe req).2.desk = b.desk := by
  rw [subscribe]
  split
  · rfl
  · dsimp only
    split
    · rename_i e he
      cases e <;> simp [subscriptionRefused]
    · exact desk_welcome _ _

theorem Dispatches.desk_eq {b b' : Broker} {p : Publication} {matched : List Subscriber}
    {finalReceiver : Option Receiver} {r : Except BrokerError (Option ChainId)}
    (h : b.Dispatches p matched finalReceiver r b') : b'.desk = b.desk := by
  cases h with
  | nothing hm hf => rfl
  | chain ho hm hs => exact desk_note_plain _ rfl
  | stopped ho hs => rfl
  | job ho hm hs => exact hs.desk_eq
  | refused ho hs => exact hs.desk_eq

theorem desk_deny (p : Publication) (denied : Nat) : (b.deny p denied).desk = b.desk := by
  rw [deny]
  split
  · rfl
  · exact desk_emit_plain _ _ (by simp) (by simp)

@[simp] theorem desk_announce (p : Publication) (matched : Nat) (chain : Option ChainId) :
    (b.announce p matched chain).desk = b.desk := by
  simp only [announce]
  rw [desk_emit_plain _ _ (by simp) (by simp), desk_log, desk_note_plain _ rfl]
  split
  · exact desk_note_plain _ rfl
  · rfl

theorem desk_post (p : Publication) (finalReceiver : Option Receiver) :
    (b.post p finalReceiver).2.desk = b.desk := by
  cases hp : b.post p finalReceiver with
  | mk r b' =>
    cases posts_post hp with
    | closed hc => rfl
    | inadmissible hr => simp [publicationRefused]
    | refused hd => exact hd.desk_eq.trans (b.desk_deny _ _)
    | admitted hd => exact (desk_announce _ _ _ _).trans (hd.desk_eq.trans (b.desk_deny _ _))

theorem desk_updateFreeze (sel : Selector) (frozen : Bool) :
    (b.updateFreeze sel frozen).2.desk = b.desk := by
  simp only [updateFreeze]
  rw [desk_emit_plain _ _ (by simp) (by simp), desk_log]
  rfl

theorem desk_flushFrozen (sel : Selector) : (b.flushFrozen sel).2.desk = b.desk := by
  rw [flushFrozen]
  dsimp only
  split
  · rfl
  · split
    · rename_i hs
      dsimp only
      rw [desk_emit_plain _ _ (by simp) (by simp), desk_log, (submits hs).desk_eq]
      rfl
    · rename_i hs
      have hd := (submits hs).desk_eq
      exact (desk_log _ _).trans hd

end Requests

section Calls

theorem marks_of_desk {b b' : Broker} (h : b'.desk = b.desk) : b'.marks = b.marks :=
  congrArg Desk.marks h

@[simp] theorem marks_log (l : LogLine) : (b.log l).marks = b.marks := marks_of_desk (b.desk_log l)

@[simp] theorem marks_endCall (call : Nat) : (b.endCall call).marks = b.marks := rfl

@[simp] theorem marks_send (c : Command) : (b.send c).marks = b.marks := by
  rw [send]
  exact marks_of_desk (desk_note_plain _ rfl)

theorem marks_ask (w : Waiting) (command : Nat → Command) (otherwise : Response) :
    (b.ask w command otherwise).2.marks = b.marks := by
  rw [ask]
  split
  · exact marks_send _ _
  · rfl

theorem marks_retire (call : Nat) (cause : Departure) (total : Nat) (leaving : List Subscriber)
    (b : Broker) : (retire call cause total leaving b).2.marks = b.marks := by
  induction leaving generalizing b with
  | nil =>
    cases cause with
    | unsubscribed => rfl
    | ownerDied pid =>
      simp only [retire, allDeparted]
      split
      · rfl
      · rw [marks_endCall, marks_log]
  | cons s rest ih =>
    rw [retire]
    dsimp only
    split
    · exact marks_send _ _
    · exact (ih _).trans (marks_of_desk (desk_departed _ _ _ _ _))

theorem marks_resume (call : Nat) :
    (((b.resume call).map (·.2)).getD b).marks = b.marks := by
  have seeOff : ∀ (r : Retirement) (released : Bool), (retire call r.cause r.total r.rest
      (b.departed r.current r.dropped released r.cause.reason)).2.marks = b.marks :=
    fun r released => (marks_retire _ _ _ _ _).trans (marks_of_desk (desk_departed _ _ _ _ _))
  rw [resume]
  cases b.calls.get? call with
  | none => rfl
  | some c =>
    obtain ⟨waiting, answer⟩ := c
    cases waiting with
    | finish =>
      cases answer with
      | none => rfl
      | some a => cases a <;> rfl
    | active =>
      cases answer with
      | none => rfl
      | some a => cases a <;> rfl
    | retire r =>
      cases answer with
      | none => rfl
      | some a => cases a <;> exact seeOff r _
    | shutdown workers =>
      dsimp only
      split
      · exact (marks_endCall _ _).trans (b.marks_log _)
      · rfl

theorem marks_shutdown : b.shutdown.2.marks = b.marks := by
  have cancel : ∀ joined : Bool,
      (({ b with cancelled := true, joined }).note .cancelled).marks = b.marks :=
    fun joined => marks_of_desk (desk_note_plain _ rfl)
  rw [shutdown]
  generalize (if b.joined = true then [] else b.workers) = ws
  dsimp only
  split
  · exact (marks_log _ _).trans (cancel true)
  · exact cancel true

end Calls

end Broker

end EventBroker
