import EventBroker.Proofs.Airing
import EventBroker.Proofs.Attending
import EventBroker.Proofs.Effects.Telling
import EventBroker.Proofs.Evicting

namespace EventBroker

def RecordKind.ofEnrollment : RecordKind → Bool
  | .subscriberAdded | .subscribeRejected | .ownerEvicted => true
  | _ => false

def Eviction.record (v : Eviction) : Record :=
  { kind := .ownerEvicted
    pid := some v.pid
    count := some (min v.count maxCount)
    reason := some "subscription ceiling" }

def Action.retires : Action → Bool
  | .unsubscribe _ | .ownerDied _ | .resume _ => true
  | _ => false

theorem Action.removed_topics {a : Action} (h : a.retires = false) :
    .record .subscriberRemoved ∉ a.topics := by
  cases a with
  | unsubscribe id => cases h
  | ownerDied pid => cases h
  | resume k => cases h
  | work w => cases w <;> simp [topics, Topic.sequencing]
  | handedOff w reception => cases w <;> simp [topics, Topic.concluding]
  | _ => simp [topics, Topic.publishing, Topic.subscribing]

def leavingBy (calls : Table Nat Call) : List SubscriberId :=
  calls.values.flatMap fun c => c.waiting.leaving.map Subscriber.id

section LeavingBy

variable {calls calls' : Table Nat Call} {k : Nat} {c : Call}

theorem leavingBy_eq_map (calls : Table Nat Call) : leavingBy calls =
    (calls.map Call.waiting).values.flatMap fun w => w.leaving.map Subscriber.id := by
  simp [leavingBy, Table.values, Table.map, List.flatMap_map]

theorem leavingBy_congr
    (h : ∀ k, (calls'.get? k).map Call.waiting = (calls.get? k).map Call.waiting) :
    leavingBy calls' = leavingBy calls := by
  have same : calls'.map Call.waiting = calls.map Call.waiting := by
    apply Table.ext_get?
    intro k
    rw [Table.get?_map, Table.get?_map, h]
  rw [leavingBy_eq_map, leavingBy_eq_map, same]

theorem leavingBy_insert : (leavingBy (calls.insert k c)).Perm
    (c.waiting.leaving.map Subscriber.id ++ leavingBy (calls.erase k)) :=
  (Table.insert_perm.map Prod.snd).flatMap_right _

theorem leavingBy_erase (h : calls.get? k = some c) : (leavingBy calls).Perm
    (c.waiting.leaving.map Subscriber.id ++ leavingBy (calls.erase k)) :=
  ((Table.erase_perm h).map Prod.snd).flatMap_right _

theorem leavingBy_erase_of_none (h : calls.get? k = none) :
    leavingBy (calls.erase k) = leavingBy calls := by
  rw [leavingBy, Table.values, Table.erase_of_get?_none h]
  rfl

end LeavingBy

namespace Broker

variable (b : Broker)

def subjects (k : RecordKind) : List (Option SubscriberId) :=
  (b.records.filter fun r => r.kind = k).map Record.subscriber

def inFlight : List SubscriberId := leavingBy b.calls

def enrolling : Action → List Record
  | .subscribe req =>
    match b.subscribe req with
    | (.ok id, b') =>
      ((b.enrollment (.subscribe req)).toList.flatMap b.registry.evicts).map Eviction.record ++
        [{ kind := .subscriberAdded
           subscriber := some id
           pid := some req.owner.pid
           count := some (min b'.subscriberCount maxCount) }]
    | (.error (.tooManySubscribers pid count), _) =>
      [{ kind := .subscribeRejected, pid := some pid, count := some (min count maxCount) }]
    | (.error _, _) => []
  | _ => []

section Records

variable {b b' : Broker}

theorem records_note (b : Broker) {o : Occurrence} (h : o.record? = none) :
    (b.note o).records = b.records := by
  rw [records, told_note, h]
  exact List.append_nil _

theorem records_emit (b : Broker) (r : Record) : (b.emit r).records = b.records ++ [r] :=
  told_emit _ _ _

@[simp] theorem records_log (b : Broker) (l : LogLine) : (b.log l).records = b.records :=
  b.records_note rfl

theorem Within.filter_records {ts : List Topic} (h : b.Within ts b') {p : Record → Bool}
    (hp : ∀ r, p r = true → .record r.kind ∉ ts) : b'.records.filter p = b.records.filter p := by
  obtain ⟨os, ho, hw⟩ := h
  have hnone : (os.filterMap fun o => o.2.record?).filter p = [] := by
    apply List.filter_eq_nil_iff.2
    intro r hr hpr
    obtain ⟨o, hmem, he⟩ := List.mem_filterMap.1 hr
    refine hp r hpr (hw o hmem _ ?_)
    cases hrec : o.2 with
    | record r' =>
      rw [hrec] at he
      cases he
      rfl
    | _ =>
      rw [hrec] at he
      cases he
  rw [records, told, ho, List.filterMap_append, List.filter_append, hnone, List.append_nil]
  rfl

theorem Within.subjects_eq {ts : List Topic} (h : b.Within ts b') {k : RecordKind}
    (hk : .record k ∉ ts) : b'.subjects k = b.subjects k := by
  rw [subjects, h.filter_records, subjects]
  intro r hr
  rwa [of_decide_eq_true hr]

theorem subjects_of_records (h : b'.records = b.records) (k : RecordKind) :
    b'.subjects k = b.subjects k := by
  rw [subjects, h, subjects]

theorem subjects_emit (b : Broker) (r : Record) :
    (b.emit r).subjects r.kind = b.subjects r.kind ++ [r.subscriber] := by
  rw [subjects, records_emit, List.filter_append, List.map_append, subjects]
  simp

end Records

section Departures

variable {b b' : Broker}

theorem subjects_departed (b : Broker) (s : Subscriber) (dropped : Nat) (released : Bool)
    (reason : String) : (b.departed s dropped released reason).subjects .subscriberRemoved =
      b.subjects .subscriberRemoved ++ [some s.id] := by
  refine (subjects_emit (b.log _) _).trans ?_
  rw [subjects_of_records (b.records_log _)]
  rfl

def outgoing (b : Broker) : List (Option SubscriberId) :=
  b.subjects .subscriberRemoved ++ b.inFlight.map some

theorem outgoing_perm (hs : b'.subjects .subscriberRemoved = b.subjects .subscriberRemoved)
    (hl : b'.inFlight.Perm b.inFlight) : b'.outgoing.Perm b.outgoing := by
  rw [outgoing, hs]
  exact (hl.map some).append_left _

theorem outgoing_allDeparted (cause : Departure) (total : Nat) (b : Broker) :
    (b.allDeparted cause total).2.subjects .subscriberRemoved = b.subjects .subscriberRemoved ∧
      (b.allDeparted cause total).2.calls = b.calls := by
  cases cause with
  | unsubscribed => exact ⟨rfl, rfl⟩
  | ownerDied pid =>
    rw [allDeparted]
    split
    · exact ⟨rfl, rfl⟩
    · exact ⟨subjects_of_records (b.records_log _) _, rfl⟩

theorem outgoing_retire (k : Nat) (cause : Departure) (total : Nat) (leaving : List Subscriber)
    (b : Broker) : (retire k cause total leaving b).2.outgoing.Perm
      (b.subjects .subscriberRemoved ++
        (leaving.map Subscriber.id ++ leavingBy (b.calls.erase k)).map some) := by
  induction leaving generalizing b with
  | nil =>
    obtain ⟨hs, hc⟩ := outgoing_allDeparted cause total b
    have hend : (retire k cause total [] b).2.subjects .subscriberRemoved =
        b.subjects .subscriberRemoved := hs
    rw [outgoing, hend, inFlight]
    have hcalls : (retire k cause total [] b).2.calls = b.calls.erase k :=
      congrArg (fun t => Table.erase t k) hc
    rw [hcalls]
    exact .refl _
  | cons s rest ih =>
    rw [retire]
    dsimp only
    split
    · rw [outgoing]
      have hs : ((({ b with vault := (b.vault.purge s.id).2 } : Broker).setCall k
          (.retire ⟨cause, total, s, (b.vault.purge s.id).1, rest⟩)).send
            (.release s.id k)).subjects .subscriberRemoved = b.subjects .subscriberRemoved :=
        subjects_of_records (records_note _ rfl) _
      rw [hs]
      exact (leavingBy_insert.map some).append_left _
    · refine (ih _).trans ?_
      rw [subjects_departed, List.append_assoc]
      apply List.Perm.append_left
      exact .refl _

theorem Attends.inFlight {a : Action} {c : Counter} (h : b.Attends a c) (hb : b.counter.Sound)
    (hd : b.departing a = []) (hr : ∀ k, a ≠ .resume k) :
    (leavingBy c.calls).Perm b.inFlight := by
  have hnew : b.calls.get? (b.callsBegun + 1) = none := hb.not_begun
  have inserted {w : Waiting} (hw : w.leaving = []) :
      (leavingBy (b.calls.insert (b.callsBegun + 1) { waiting := w })).Perm b.inFlight := by
    refine leavingBy_insert.trans ?_
    rw [hw, leavingBy_erase_of_none hnew]
    exact .refl _
  cases h with
  | same hd => exact .refl _
  | send hd hq => exact .refl _
  | ask ht hw hq => exact inserted (hw.trans hd)
  | pass hd => exact .of_eq (leavingBy_erase_of_none hnew)
  | wait ws hd => exact inserted rfl
  | conclude ha => exact absurd ha (hr _)
  | proceed ha => exact absurd ha (hr _)
  | take ha hq =>
    refine .of_eq (leavingBy_congr fun k => ?_)
    rw [Desk.get?_answer]
    split
    · rw [Option.map_map]
      rfl
    · rfl
  | stop ha | breakDown ha =>
    refine .of_eq (leavingBy_congr fun k => ?_)
    rw [Desk.get?_forget]
    split
    · rw [Option.map_map]
      rfl
    · rfl

theorem outgoing_beginRetiring (hb : b.counter.Sound) (registry : Registry) (cause : Departure)
    (leaving : List Subscriber) :
    ({ b with registry }.beginRetiring cause leaving).2.outgoing.Perm
      (b.outgoing ++ (leaving.map Subscriber.id).map some) := by
  have hnew : b.calls.get? (b.callsBegun + 1) = none := hb.not_begun
  refine (outgoing_retire _ _ _ _ _).trans ?_
  change (b.subjects .subscriberRemoved ++ _).Perm _
  rw [leavingBy_erase_of_none hnew, List.map_append, outgoing, List.append_assoc]
  exact List.perm_append_comm.append_left _

theorem outgoing_resume (b : Broker) (k : Nat) :
    (b.act (.resume k)).outgoing.Perm b.outgoing := by
  have ended {c : Call} (hk : b.calls.get? k = some c) (hc : c.waiting.leaving = []) :
      (b.endCall k).inFlight.Perm b.inFlight := by
    have hrest := leavingBy_erase hk
    rw [hc] at hrest
    exact hrest.symm
  have seen {r : Retirement} {answer : Option Answer}
      (hk : b.calls.get? k = some ⟨.retire r, answer⟩) (released : Bool) :
      (retire k r.cause r.total r.rest
        (b.departed r.current r.dropped released r.cause.reason)).2.outgoing.Perm b.outgoing := by
    refine (outgoing_retire _ _ _ _ _).trans ?_
    rw [subjects_departed, List.append_assoc]
    exact ((leavingBy_erase hk).symm.map some).append_left _
  rw [act, resume]
  cases hk : b.calls.get? k with
  | none => exact .refl _
  | some c =>
    obtain ⟨waiting, answer⟩ := c
    cases waiting with
    | shutdown ws =>
      dsimp only
      split
      · exact outgoing_perm (subjects_of_records (b.records_log _) _) (ended hk rfl)
      · exact .refl _
    | retire r =>
      cases answer with
      | none => exact .refl _
      | some x => cases x <;> exact seen hk _
    | _ =>
      cases answer with
      | none => exact .refl _
      | some x => cases x <;> exact outgoing_perm rfl (ended hk rfl)

theorem removed_act (b : Broker) {a : Action} (h : a.retires = false) :
    (b.act a).subjects .subscriberRemoved = b.subjects .subscriberRemoved :=
  (b.act_within a).subjects_eq (Action.removed_topics h)

theorem outgoing_same (hb : b.counter.Sound) {a : Action} (h : a.retires = false) :
    (b.act a).outgoing.Perm b.outgoing := by
  refine outgoing_perm (b.removed_act h) ?_
  apply (b.attends_act a).inFlight hb
  · cases a <;> first | rfl | cases h
  · rintro k rfl
    cases h

theorem drops_eq_nil {a : Action} (h : a.retires = false) :
    (b.enrollment a).toList.flatMap b.registry.drops = [] := by
  cases a with
  | subscribe req =>
    rw [enrollment]
    split <;> rfl
  | _ => first | rfl | cases h

theorem outgoing_act (hb : b.counter.Sound) (a : Action) : (b.act a).outgoing.Perm
    (b.outgoing ++ ((b.enrollment a).toList.flatMap b.registry.drops).map some) := by
  cases a with
  | resume k => exact (b.outgoing_resume k).trans (.of_eq (List.append_nil _).symm)
  | unsubscribe id =>
    rw [act, unsubscribe, enrollment, Option.toList_some, List.flatMap_singleton, Registry.drops]
    cases b.registry.unsubscribe id with
    | none => exact .of_eq (List.append_nil _).symm
    | some x => exact outgoing_beginRetiring hb x.2 .unsubscribed [x.1]
  | ownerDied pid =>
    rw [enrollment, Option.toList_some, List.flatMap_singleton]
    exact outgoing_beginRetiring hb _ (.ownerDied pid) _
  | _ =>
    rw [drops_eq_nil rfl, List.map_nil, List.append_nil]
    exact outgoing_same hb rfl

end Departures

section Enrollment

def enrolled (b : Broker) : List Record := b.records.filter fun r => r.kind.ofEnrollment

variable {b b' : Broker}

theorem Within.enrolled_eq {ts : List Topic} (h : b.Within ts b')
    (hts : ∀ t ∈ ts, ∀ k, t = .record k → k.ofEnrollment = false) : b'.enrolled = b.enrolled := by
  refine h.filter_records fun r hr hmem => ?_
  rw [hts _ hmem _ rfl] at hr
  cases hr

theorem enrolled_emit (b : Broker) {r : Record} (h : r.kind.ofEnrollment = true) :
    (b.emit r).enrolled = b.enrolled ++ [r] := by
  rw [enrolled, records_emit, List.filter_append, enrolled]
  simp [h]

theorem enrolled_of_records (h : b'.records = b.records) : b'.enrolled = b.enrolled := by
  rw [enrolled, h, enrolled]

theorem enrolled_evict (b : Broker) (v : Eviction) :
    (b.evict v).enrolled = b.enrolled ++ [v.record] := by
  refine (enrolled_emit _ rfl).trans (congrArg (· ++ [v.record]) ?_)
  apply enrolled_of_records
  rw [records_log, records_note _ rfl, records_log]

theorem enrolled_welcome (b : Broker) (a : Admitted) : (b.welcome a).enrolled =
    b.enrolled ++ a.evicted.toList.map Eviction.record ++
      [{ kind := .subscriberAdded
         subscriber := some a.subscriber.id
         pid := some a.subscriber.owner.pid
         count := some (min b.registry.size maxCount) }] := by
  have replayed (c : Broker) : c.Within [.record .queueOverflow]
      (a.subscriber.interest.events.toList.foldl
        (fun c name => c.replaySticky a.subscriber name) c) :=
    Within.foldl (fun c name _ => (c.airs_replaySticky _ name (.head _)).within) c
  rw [welcome, (replayed _).enrolled_eq (by simp [RecordKind.ofEnrollment]), enrolled_emit _ rfl,
    enrolled_of_records (records_log _ _)]
  cases a.evicted with
  | none =>
    rw [Option.toList_none, List.map_nil, List.append_nil]
    rfl
  | some v =>
    have hregistry : (b.evict v).registry = b.registry := rfl
    dsimp only [log, note]
    rw [enrolled_evict, hregistry]
    rfl

theorem pid_named (b : Broker) (req : Subscription) : (b.named req).owner.pid = req.owner.pid := by
  rw [named, resolveBundle]
  split <;> rfl

theorem enrolled_subscribe (b : Broker) (req : Subscription) :
    (b.act (.subscribe req)).enrolled = b.enrolled ++ b.enrolling (.subscribe req) := by
  change (b.subscribe req).2.enrolled = _
  rw [enrolling]
  cases hs : b.subscribe req with
  | mk result b' =>
    cases subscribes hs with
    | closed hc => exact (List.append_nil _).symm
    | @refused e hc hr =>
      cases e with
      | tooManySubscribers pid count =>
        refine (enrolled_emit _ rfl).trans (congrArg (· ++ _) ?_)
        exact enrolled_of_records (b.records_log _)
      | _ => exact (List.append_nil _).symm
    | @admitted a r hc hr =>
      have hevicts : (b.enrollment (.subscribe req)).toList.flatMap b.registry.evicts =
          a.evicted.toList := by
        rw [enrollment, hc, if_neg Bool.false_ne_true, Option.toList_some, List.flatMap_singleton,
          Registry.evicts, hr]
      have hsize : ({ b with registry := r }.welcome a).subscriberCount = r.size :=
        congrArg Registry.size (registry_welcome _ a)
      have hpid : a.subscriber.owner.pid = req.owner.pid := by
        rw [(Registry.subscribe_adds hr).1]
        exact b.pid_named req
      refine (enrolled_welcome _ a).trans ?_
      dsimp only
      rw [hevicts, hsize, hpid, List.append_assoc]
      rfl

theorem Action.enrolled_topics {a : Action} (h : ∀ req, a ≠ .subscribe req) :
    ∀ t ∈ a.topics, ∀ k, t = .record k → k.ofEnrollment = false := by
  cases a with
  | subscribe req => exact absurd rfl (h req)
  | work w => cases w <;> simp [Action.topics, Topic.sequencing, RecordKind.ofEnrollment]
  | handedOff w reception =>
    cases w <;> simp [Action.topics, Topic.concluding, RecordKind.ofEnrollment]
  | _ => simp [Action.topics, Topic.publishing, RecordKind.ofEnrollment]

theorem enrolled_act (b : Broker) (a : Action) :
    (b.act a).enrolled = b.enrolled ++ b.enrolling a := by
  by_cases h : ∃ req, a = .subscribe req
  · obtain ⟨req, rfl⟩ := h
    exact b.enrolled_subscribe req
  · have hne : ∀ req, a ≠ .subscribe req := fun req e => h ⟨req, e⟩
    have hnone : b.enrolling a = [] := by
      cases a with
      | subscribe req => exact absurd rfl (hne req)
      | _ => rfl
    rw [hnone, List.append_nil]
    exact (b.act_within a).enrolled_eq (Action.enrolled_topics hne)

theorem subjects_of_enrolled (b : Broker) : b.subjects .subscriberAdded =
    (b.enrolled.filter fun r => r.kind = .subscriberAdded).map Record.subscriber := by
  rw [subjects, enrolled, List.filter_filter]
  congr 1
  apply List.filter_congr
  intro r _
  cases hk : r.kind <;> rfl

theorem admits_subscribe (b : Broker) (req : Subscription) :
    (b.enrollment (.subscribe req)).toList.flatMap b.registry.admits =
      (b.subscribe req).1.toOption.toList := by
  rw [enrollment]
  cases hs : b.subscribe req with
  | mk result b' =>
    cases subscribes hs with
    | closed hc =>
      rw [if_pos hc]
      rfl
    | refused hc hr =>
      rw [hc, if_neg Bool.false_ne_true, Option.toList_some, List.flatMap_singleton,
        Registry.admits, hr]
      rfl
    | admitted hc hr =>
      rw [hc, if_neg Bool.false_ne_true, Option.toList_some, List.flatMap_singleton,
        Registry.admits, hr]
      rfl

theorem not_added (vs : List Eviction) :
    (vs.map Eviction.record).filter (fun r => r.kind = .subscriberAdded) = [] := by
  apply List.filter_eq_nil_iff.2
  intro r hr
  obtain ⟨v, -, rfl⟩ := List.mem_map.1 hr
  exact Bool.false_ne_true

theorem added_act (b : Broker) (a : Action) : (b.act a).subjects .subscriberAdded =
    b.subjects .subscriberAdded ++
      ((b.enrollment a).toList.flatMap b.registry.admits).map some := by
  rw [subjects_of_enrolled, enrolled_act, List.filter_append, List.map_append,
    ← subjects_of_enrolled]
  congr 1
  cases a with
  | subscribe req =>
    rw [admits_subscribe, enrolling]
    obtain ⟨result, b'⟩ := b.subscribe req
    cases result with
    | ok id =>
      dsimp only
      rw [List.filter_append, not_added]
      rfl
    | error e => cases e <;> rfl
  | _ => rfl

end Enrollment

def AddedFirst (records : List Record) : Prop :=
  ∀ past r future, records = past ++ r :: future → r.kind = .subscriberRemoved →
    ∃ r' ∈ past, r'.kind = .subscriberAdded ∧ r'.subscriber = r.subscriber

theorem AddedFirst.append {records new : List Record} (h : AddedFirst records)
    (hnew : ∀ r ∈ new, r.kind = .subscriberRemoved →
      ∃ r' ∈ records, r'.kind = .subscriberAdded ∧ r'.subscriber = r.subscriber) :
    AddedFirst (records ++ new) := by
  intro past r future hsplit hk
  obtain ⟨mid, hpast, hrest⟩ | ⟨mid, hrecords, hrest⟩ := List.append_eq_append_iff.1 hsplit
  · have hr : r ∈ new := hrest ▸ List.mem_append_right mid List.mem_cons_self
    obtain ⟨r', hr', hadded⟩ := hnew r hr hk
    exact ⟨r', hpast ▸ List.mem_append_left mid hr', hadded⟩
  · cases mid with
    | nil =>
      rw [List.append_nil] at hrecords
      rw [List.nil_append] at hrest
      have hr : r ∈ new := hrest ▸ List.mem_cons_self
      exact hrecords ▸ hnew r hr hk
    | cons x mid =>
      cases hrest
      exact h past r mid hrecords hk

/-- The ids recorded as added are those given out, and those of them that the registry has let go
are recorded as removed, or on their way out. -/
def Accounted (b : Broker) : Prop :=
  ∃ admitted dropped, b.registry.Accounts admitted dropped ∧
    b.subjects .subscriberAdded = admitted.map some ∧ b.outgoing.Perm (dropped.map some)

namespace Accounted

variable {b : Broker} (h : b.Accounted)

include h

theorem settled : (b.subjects .subscriberAdded).Perm (b.subjects .subscriberRemoved ++
    (b.registry.live.map Subscriber.id ++ b.inFlight).map some) := by
  obtain ⟨admitted, dropped, haccounts, hadded, houtgoing⟩ := h
  rw [hadded, List.map_append]
  calc
    (admitted.map some).Perm
        ((b.registry.live.map Subscriber.id).map some ++ dropped.map some) := by
      rw [← List.map_append]
      exact haccounts.settled.map some
    List.Perm _ ((b.registry.live.map Subscriber.id).map some ++ b.outgoing) :=
      houtgoing.symm.append_left _
    List.Perm _ (b.subjects .subscriberRemoved ++
        ((b.registry.live.map Subscriber.id).map some ++ b.inFlight.map some)) :=
      List.perm_append_comm_assoc ..

theorem added_eq : b.subjects .subscriberAdded =
    (List.range (b.subjects .subscriberAdded).length).map fun i => some ⟨i + 1⟩ := by
  obtain ⟨admitted, dropped, haccounts, hadded, -⟩ := h
  rw [hadded, haccounts.issued]
  simp

theorem added_nodup : (b.subjects .subscriberAdded).Nodup := by
  rw [h.added_eq]
  apply List.Nodup.map _ List.nodup_range
  intro i j hij
  cases hij
  rfl

theorem act (hr : b.registry.Sound) (hc : b.counter.Sound) (a : Action) : (b.act a).Accounted := by
  obtain ⟨admitted, dropped, haccounts, hadded, houtgoing⟩ := h
  have hout := outgoing_act hc a
  rw [Accounted, registry_enrollment, added_act, hadded]
  cases hq : b.enrollment a with
  | none =>
    rw [hq] at hout
    refine ⟨admitted, dropped, haccounts, List.append_nil _, hout.trans ?_⟩
    exact (List.Perm.of_eq (List.append_nil _)).trans houtgoing
  | some q =>
    rw [hq, Option.toList_some, List.flatMap_singleton] at hout
    rw [Option.toList_some, List.flatMap_singleton, ← List.map_append]
    refine ⟨_, _, haccounts.apply hr q, rfl, hout.trans ?_⟩
    rw [List.map_append]
    exact houtgoing.append_right _

end Accounted

structure Balanced (b : Broker) : Prop where
  registry : b.registry.Coherent
  counter : b.counter.Sound
  accounted : b.Accounted
  ordered : AddedFirst b.records

namespace Balanced

variable {b : Broker}

theorem start (config : Config) (oracle : Oracle) (bundleOf : Uid → Option String)
    (observers : List Observer) : (Broker.start config oracle bundleOf observers).Balanced where
  registry := .ofCeiling config.ceiling
  counter := counter_start config oracle bundleOf observers
  accounted := ⟨[], [], .ofCeiling config.ceiling, rfl, .refl _⟩
  ordered := by
    intro past r future hsplit
    cases past <;> cases hsplit

theorem ordered_act (h : b.Balanced) (a : Action) (hact : (b.act a).Accounted) :
    AddedFirst (b.act a).records := by
  obtain ⟨new, hnew⟩ := (b.grows_act a).told_mono Occurrence.record?
  replace hnew : b.records ++ new = (b.act a).records := hnew
  rw [← hnew]
  refine h.ordered.append fun r hr hk => ?_
  have hremoved : r.subscriber ∈ (b.act a).subjects .subscriberRemoved := by
    apply List.mem_map_of_mem
    exact List.mem_filter.2 ⟨hnew ▸ List.mem_append_right _ hr, decide_eq_true hk⟩
  cases hretires : a.retires with
  | false =>
    -- Nobody is seen off, so no removal is recorded.
    have hsame := (b.act_within a).filter_records (p := fun r => r.kind = .subscriberRemoved)
      fun r hr => (of_decide_eq_true hr) ▸ Action.removed_topics hretires
    rw [← hnew, List.filter_append, List.append_right_eq_self] at hsame
    exact absurd (decide_eq_true hk) (List.filter_eq_nil_iff.1 hsame r hr)
  | true =>
    have hadds : (b.act a).subjects .subscriberAdded = b.subjects .subscriberAdded := by
      rw [added_act]
      cases a <;> first | exact List.append_nil _ | cases hretires
    have hadded : r.subscriber ∈ b.subjects .subscriberAdded := by
      rw [← hadds]
      exact hact.settled.symm.subset (List.mem_append_left _ hremoved)
    obtain ⟨r', hr', he⟩ := List.mem_map.1 hadded
    exact ⟨r', (List.mem_filter.1 hr').1, of_decide_eq_true (List.mem_filter.1 hr').2, he⟩

theorem act (h : b.Balanced) (a : Action) : (b.act a).Balanced := by
  have hact := h.accounted.act h.registry.toSound h.counter a
  refine ⟨?_, counter_act h.counter a, hact, h.ordered_act a hact⟩
  rw [registry_enrollment]
  cases b.enrollment a with
  | none => exact h.registry
  | some q => exact h.registry.apply q

theorem run (h : b.Balanced) (actions : List Action) : (b.run actions).Balanced := by
  induction actions generalizing b with
  | nil => exact h
  | cons a rest ih => exact ih (h.act a)

end Balanced

theorem inFlight_eq_nil {b : Broker} (h : ∀ k ret, b.waits k ≠ some (.retire ret)) :
    b.inFlight = [] := by
  apply List.flatMap_eq_nil_iff.2
  intro c hc
  obtain ⟨row, hrow, rfl⟩ := List.mem_map.1 hc
  have hwaits : b.waits row.1 = some row.2.waiting := by
    rw [waits, Table.get?_eq_some_iff.2 hrow]
    rfl
  cases hw : row.2.waiting with
  | retire ret => exact absurd (hwaits.trans (congrArg some hw)) (h row.1 ret)
  | _ => rfl

/-- The records of subscriptions are a ledger that balances. Ids are added as 1, 2, 3 and so on; one
is removed at most once, after it was added, and only by a call that sees subscriptions off; and
whoever was added but not removed is live, or on its way out by a call in progress. What a request
to subscribe adds to the records, and nobody else does, is what it comes to: one addition with the
count of those live right after it, and the eviction it took; or one rejection if the ceiling is the
reason. -/
theorem ledger_balances (config : Config) (oracle : Oracle) (bundleOf : Uid → Option String)
    (observers : List Observer) (actions : List Action) :
    let b := (start config oracle bundleOf observers).run actions
    let added := b.subjects .subscriberAdded
    let removed := b.subjects .subscriberRemoved
    added = ((List.range added.length).map fun i => some ⟨i + 1⟩) ∧ removed.Nodup ∧
      AddedFirst b.records ∧
      added.Perm (removed ++ (b.registry.live.map Subscriber.id ++ b.inFlight).map some) ∧
      ((∀ k ret, b.waits k ≠ some (.retire ret)) →
        added.length = removed.length + b.subscriberCount) ∧
      (∀ a, a.retires = false → (b.act a).subjects .subscriberRemoved = removed) ∧
      ∀ a, (b.act a).enrolled = b.enrolled ++ b.enrolling a := by
  intro b added removed
  have h : b.Balanced := (Balanced.start config oracle bundleOf observers).run actions
  have hsettled := h.accounted.settled
  refine ⟨h.accounted.added_eq, ?_, h.ordered, hsettled, fun hquiet => ?_,
    fun _ => b.removed_act, b.enrolled_act⟩
  · exact (List.nodup_append.1 (hsettled.nodup_iff.1 h.accounted.added_nodup)).1
  · rw [hsettled.length_eq, inFlight_eq_nil hquiet, List.append_nil, List.length_append,
      List.length_map, List.length_map, subscriberCount, Registry.size_eq]

theorem ledger_balances_leaving :
    let b := (start {} .allowAll (fun _ => none) []).run
      [joining, joining, .unsubscribe ⟨1⟩, .work .sequencer]
    let c := b.act (.resume 1)
    b.inFlight = [⟨1⟩] ∧ b.subjects .subscriberRemoved = [] ∧
      (b.subjects .subscriberAdded).length = 2 ∧
      (∀ k ret, c.waits k ≠ some (.retire ret)) ∧
      (c.subjects .subscriberAdded).length =
        (c.subjects .subscriberRemoved).length + c.subscriberCount := by
  intro b c
  obtain ⟨-, -, -, -, hquiet, -, -⟩ := ledger_balances {} .allowAll (fun _ => none) []
    ([joining, joining, .unsubscribe ⟨1⟩, .work .sequencer] ++ [.resume 1])
  have hcalls : c.calls = .empty := rfl
  have hnone : ∀ k ret, c.waits k ≠ some (.retire ret) := by
    intro k ret hk
    rw [waits, hcalls, Table.get?_empty] at hk
    cases hk
  exact ⟨by decide +kernel, by decide +kernel, by decide +kernel, hnone, hquiet hnone⟩

end Broker

end EventBroker
