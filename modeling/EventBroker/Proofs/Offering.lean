import EventBroker.Proofs.Evicting

namespace EventBroker

namespace DeliveryQueue

variable (q : DeliveryQueue)

def enter (jobs : List Job) : DeliveryQueue := { q with jobs := q.jobs ++ jobs }

def takes (jobs : List Job) : List Job := jobs.take (q.room - q.jobs.length)

def refused (jobs : List Job) : List Job := jobs.drop (q.room - q.jobs.length)

@[simp] theorem enter_nil : q.enter [] = q := by
  simp [enter]

theorem enter_enter (xs ys : List Job) : (q.enter xs).enter ys = q.enter (xs ++ ys) := by
  simp [enter]

@[simp] theorem takes_nil : q.takes [] = [] := List.take_nil

@[simp] theorem refused_nil : q.refused [] = [] := List.drop_nil

theorem takes_append (xs ys : List Job) :
    q.takes (xs ++ ys) = q.takes xs ++ (q.enter (q.takes xs)).takes ys := by
  simp only [takes, enter, List.take_append, List.length_append, List.length_take]
  congr 2
  omega

theorem refused_append (xs ys : List Job) :
    q.refused (xs ++ ys) = q.refused xs ++ (q.enter (q.takes xs)).refused ys := by
  simp only [refused, takes, enter, List.drop_append, List.length_append, List.length_take]
  congr 2
  omega

variable {q}

theorem takes_one (job : Job) (h : q.jobs.length < q.room) :
    q.takes [job] = [job] ∧ q.refused [job] = [] := by
  obtain ⟨n, hn⟩ : ∃ n, q.room - q.jobs.length = n + 1 := ⟨q.room - q.jobs.length - 1, by omega⟩
  simp [takes, refused, hn]

theorem refused_one (job : Job) (h : q.room ≤ q.jobs.length) :
    q.takes [job] = [] ∧ q.refused [job] = [job] := by
  simp [takes, refused, Nat.sub_eq_zero_of_le h]

end DeliveryQueue

def Lane.overflow (lane : Lane) : Record := { kind := .queueOverflow, reason := some lane.name }

def Occurrence.overflow? : Occurrence → Option Record
  | .record r => if r.kind = .queueOverflow then some r else none
  | _ => none

theorem Occurrence.Within.overflow?_eq {ts : List Topic} {o : Occurrence} (h : o.Within ts)
    (hts : .record .queueOverflow ∉ ts) : o.overflow? = none := by
  cases o with
  | record r =>
    rw [overflow?, if_neg]
    intro hk
    exact hts (hk ▸ h _ rfl)
  | _ => rfl

namespace Broker

def overflows (b : Broker) : List Record := b.told Occurrence.overflow?

variable {b b' b'' : Broker} {lane : Lane}

theorem Within.overflows_eq (ts : List Topic) (h : b.Within ts b')
    (hts : .record .queueOverflow ∉ ts) : b'.overflows = b.overflows :=
  Tells.told_eq h fun _ ho => ho.overflow?_eq hts

structure Accepts (b : Broker) (lane : Lane) (jobs : List Job) (b' : Broker) : Prop where
  view : b'.view = b.view.setQueue lane ((b.queue lane).enter ((b.queue lane).takes jobs))
  overflows : b'.overflows = b.overflows ++ ((b.queue lane).refused jobs).map fun _ => lane.overflow

namespace Accepts

theorem same (hv : b'.view = b.view) (ho : b'.overflows = b.overflows) : b.Accepts lane [] b' where
  view := by
    rw [DeliveryQueue.takes_nil, DeliveryQueue.enter_nil, hv]
    cases lane <;> rfl
  overflows := by
    rw [ho, DeliveryQueue.refused_nil, List.map_nil, List.append_nil]

theorem queue_eq {jobs : List Job} (h : b.Accepts lane jobs b') :
    b'.queue lane = (b.queue lane).enter ((b.queue lane).takes jobs) := by
  rw [← view_queue, h.view, View.queue_setQueue]

theorem queue_of_ne {jobs : List Job} (h : b.Accepts lane jobs b') {lane' : Lane}
    (hl : lane' ≠ lane) : b'.queue lane' = b.queue lane' := by
  rw [← view_queue, h.view]
  cases lane <;> cases lane' <;> first | rfl | exact absurd rfl hl

theorem trans {xs ys : List Job} (h : b.Accepts lane xs b') (h' : b'.Accepts lane ys b'') :
    b.Accepts lane (xs ++ ys) b'' where
  view := by
    rw [h'.view, h.view, h.queue_eq, DeliveryQueue.takes_append, ← DeliveryQueue.enter_enter]
    cases lane <;> rfl
  overflows := by
    rw [h'.overflows, h.overflows, h.queue_eq, DeliveryQueue.refused_append, List.map_append,
      List.append_assoc]

theorem after {jobs : List Job} (h : b.Accepts lane jobs b') (hv : b''.view = b'.view)
    (ho : b''.overflows = b'.overflows) : b.Accepts lane jobs b'' :=
  ⟨hv.trans h.view, ho.trans h.overflows⟩

theorem before {jobs : List Job} (h : b'.Accepts lane jobs b'') (hv : b'.view = b.view)
    (ho : b'.overflows = b.overflows) : b.Accepts lane jobs b'' := by
  have hq : b'.queue lane = b.queue lane := by
    rw [← view_queue, hv, view_queue]
  exact ⟨by rw [h.view, hv, hq], by rw [h.overflows, ho, hq]⟩

end Accepts

theorem Submits.accepts {job : Job} {r : Option BrokerError} (h : b.Submits lane job r b')
    (hc : (b.queue lane).courier ≠ .stopped) : b.Accepts lane [job] b' := by
  cases h with
  | closed hstopped => exact absurd hstopped hc
  | full _ hr =>
    obtain ⟨ht, hr⟩ := DeliveryQueue.refused_one job hr
    refine ⟨?_, ?_⟩
    · rw [ht, DeliveryQueue.enter_nil, view_emit_silent _ _ (by simp) (by simp)]
      cases lane <;> rfl
    · rw [hr]
      exact told_emit _ _ _
  | taken _ hr =>
    obtain ⟨ht, hr⟩ := DeliveryQueue.takes_one job hr
    refine ⟨?_, ?_⟩
    · rw [ht, view_note_silent _ _ rfl, view_setQueue]
      rfl
    · rw [hr, List.map_nil, List.append_nil]
      refine Within.overflows_eq [] (Within.note ?_ rfl) List.not_mem_nil
      exact (b.airs_setQueue lane _).within

section Subscribing

def stickies (b : Broker) (s : Subscriber) (names : List String) : List Publication :=
  (names.filterMap b.sticky.get?).filter fun p => p.verdict b.oracle s = .deliver

theorem stickies_cons (b : Broker) (s : Subscriber) (name : String) (rest : List String) :
    b.stickies s (name :: rest) = b.stickies s [name] ++ b.stickies s rest := by
  rw [stickies, stickies, stickies, ← List.filter_append, ← List.filterMap_append]
  rfl

theorem replaySticky_accepts (hc : b.fresh.courier ≠ .stopped) (s : Subscriber) (name : String) :
    b.Accepts .fresh ((b.stickies s [name]).map (stickyJob s.id)) (b.replaySticky s name) := by
  have logged (l : LogLine) (b' : Broker) : (b'.log l).overflows = b'.overflows :=
    Within.overflows_eq [] (Within.log (.same rfl)) List.not_mem_nil
  rw [replaySticky]
  cases hp : b.sticky.get? name with
  | none =>
    have hnone : b.stickies s [name] = [] := by simp [stickies, hp]
    rw [hnone]
    exact .same rfl rfl
  | some p =>
    dsimp only
    cases hv : p.verdict b.oracle s with
    | deliver =>
      have hsome : b.stickies s [name] = [p] := by simp [stickies, hp, hv]
      rw [hsome]
      dsimp only
      split
      · rename_i b' h
        exact (submits h).accepts hc
      · rename_i e b' h
        exact ((submits h).accepts hc).after (view_log _ _) (logged _ _)
    | filtered =>
      have hnone : b.stickies s [name] = [] := by simp [stickies, hp, hv]
      rw [hnone]
      exact .same (view_log _ _) (logged _ _)
    | denied =>
      have hnone : b.stickies s [name] = [] := by simp [stickies, hp, hv]
      rw [hnone]
      exact .same (view_log _ _) (logged _ _)

theorem replayStickies_accepts (s : Subscriber) (names : List String) (b : Broker)
    (hc : b.fresh.courier ≠ .stopped) :
    b.Accepts .fresh ((b.stickies s names).map (stickyJob s.id))
      (names.foldl (fun b name => b.replaySticky s name) b) := by
  induction names generalizing b with
  | nil => exact .same rfl rfl
  | cons name rest ih =>
    have hname := replaySticky_accepts hc s name
    have hsticky : (b.replaySticky s name).sticky = b.sticky := congrArg View.sticky hname.view
    have horacle : (b.replaySticky s name).oracle = b.oracle := congrArg View.oracle hname.view
    have hcourier : (b.replaySticky s name).fresh.courier = b.fresh.courier :=
      congrArg (fun v : View => v.fresh.courier) hname.view
    have hrest := ih (b.replaySticky s name) (hcourier ▸ hc)
    rw [stickies, hsticky, horacle] at hrest
    rw [stickies_cons, List.map_append, List.foldl_cons]
    exact hname.trans hrest

theorem welcome_accepts (hc : b.fresh.courier ≠ .stopped) (a : Admitted) :
    b.Accepts .fresh ((b.stickies a.subscriber a.subscriber.interest.events.toList).map
      (stickyJob a.subscriber.id)) (b.welcome a) := by
  have replayed : ∀ b' : Broker, b'.view = b.view → b'.overflows = b.overflows →
      b.Accepts .fresh ((b.stickies a.subscriber a.subscriber.interest.events.toList).map
        (stickyJob a.subscriber.id)) (a.subscriber.interest.events.toList.foldl
          (fun b name => b.replaySticky a.subscriber name) b') := by
    intro b' hv ho
    have hsticky : b'.sticky = b.sticky := congrArg View.sticky hv
    have horacle : b'.oracle = b.oracle := congrArg View.oracle hv
    have hcourier : b'.fresh.courier = b.fresh.courier :=
      congrArg (fun v : View => v.fresh.courier) hv
    have h := replayStickies_accepts a.subscriber a.subscriber.interest.events.toList b'
      (hcourier ▸ hc)
    rw [stickies, hsticky, horacle] at h
    exact h.before hv ho
  rw [welcome]
  apply replayed
  · rw [view_emit_silent, view_log]
    · cases a.evicted <;> simp
    · simp
    · simp
  · refine Within.overflows_eq [.killed, .record .ownerEvicted, .record .subscriberAdded] ?_
      (by decide)
    refine Within.emit (Within.log ?_) rfl (.tail _ (.tail _ (.head _)))
    cases a.evicted with
    | none => exact .same rfl
    | some v => exact (b.airs_evict v (by decide) (by decide)).within

def enrolls (b : Broker) (req : Subscription) : Option Subscriber :=
  if b.cancelled then none
  else
    match b.registry.subscribe (b.named req) (b.oracle.isPrivileged (b.named req).owner.token) with
    | .ok (a, _) => some a.subscriber
    | .error _ => none

theorem subscribe_accepts {req : Subscription} {id : SubscriberId}
    (hc : b.cancelled = false → b.fresh.courier ≠ .stopped)
    (h : b.subscribe req = (.ok id, b')) :
    ∃ s : Subscriber, b.enrolls req = some s ∧ s.id = id ∧ id = ⟨b.registry.issued + 1⟩ ∧
      { b with registry := b.registry.add s }.Accepts .fresh
        ((b.stickies s s.interest.events.toList).map (stickyJob id)) b' := by
  cases subscribes h with
  | @admitted a r hn hr =>
    obtain ⟨hs, rfl⟩ := Registry.subscribe_adds hr
    have haccepts := @welcome_accepts { b with registry := b.registry.add a.subscriber } (hc hn) a
    refine ⟨a.subscriber, ?_, rfl, by rw [hs]; rfl, haccepts⟩
    rw [enrolls, hn, hr]
    rfl

theorem enrolls_of_error {req : Subscription} {e : BrokerError}
    (h : b.subscribe req = (.error e, b')) :
    b.enrolls req = none ∧ b'.overflows = b.overflows := by
  cases subscribes h with
  | closed hc =>
    rw [enrolls, if_pos hc]
    exact ⟨rfl, rfl⟩
  | refused hc hr =>
    rw [enrolls, hc, hr]
    exact ⟨rfl, Within.overflows_eq [.record .subscribeRejected]
      (b.airs_subscriptionRefused _ (.head _)).within (by decide)⟩

end Subscribing

end Broker

def Lane.only (lane : Lane) (jobs : List Job) : Lane → List Job :=
  fun lane' => if lane' = lane then jobs else []

@[simp] theorem Lane.only_same (lane : Lane) (jobs : List Job) : lane.only jobs lane = jobs :=
  if_pos rfl

theorem Lane.only_of_ne {lane lane' : Lane} (h : lane' ≠ lane) (jobs : List Job) :
    lane.only jobs lane' = [] := if_neg h

def Publication.job (p : Publication) (matched : List Subscriber) : Job :=
  .broadcast ⟨p.serial, p.event⟩ ⟨false, p.options.sticky⟩ (matched.map Subscriber.id)

namespace Broker

variable {b b' b'' : Broker}

structure Offered (b : Broker) (jobs : Lane → List Job) (b' : Broker) : Prop where
  queue : ∀ lane, b'.queue lane = (b.queue lane).enter ((b.queue lane).takes (jobs lane))
  overflows : b'.overflows = b.overflows ++ [Lane.fresh, .replay].flatMap fun lane =>
    ((b.queue lane).refused (jobs lane)).map fun _ => lane.overflow

namespace Offered

theorem nothing {lane : Lane} (hq : ∀ lane, b'.queue lane = b.queue lane)
    (ho : b'.overflows = b.overflows) : b.Offered (lane.only []) b' where
  queue := by
    intro lane'
    rw [Lane.only, ite_self, DeliveryQueue.takes_nil, DeliveryQueue.enter_nil, hq]
  overflows := by simp [Lane.only, ho]

theorem after {jobs : Lane → List Job} (h : b.Offered jobs b')
    (hq : ∀ lane, b''.queue lane = b'.queue lane) (ho : b''.overflows = b'.overflows) :
    b.Offered jobs b'' :=
  ⟨fun lane => (hq lane).trans (h.queue lane), ho.trans h.overflows⟩

theorem before {jobs : Lane → List Job} (h : b'.Offered jobs b'')
    (hq : ∀ lane, b'.queue lane = b.queue lane) (ho : b'.overflows = b.overflows) :
    b.Offered jobs b'' where
  queue := fun lane => by rw [h.queue, hq]
  overflows := by simp [h.overflows, hq, ho]

end Offered

theorem queues_of_view (h : b'.view = b.view) (lane : Lane) : b'.queue lane = b.queue lane := by
  rw [← view_queue, h, view_queue]

theorem Accepts.offered {lane : Lane} {jobs : List Job} (h : b.Accepts lane jobs b') :
    b.Offered (lane.only jobs) b' where
  queue := by
    intro lane'
    by_cases hl : lane' = lane
    · subst hl
      rw [Lane.only_same]
      exact h.queue_eq
    · rw [Lane.only_of_ne hl, DeliveryQueue.takes_nil, DeliveryQueue.enter_nil]
      exact h.queue_of_ne hl
  overflows := by
    rw [h.overflows]
    cases lane <;> simp [Lane.only]

def broadcasts (b : Broker) (p : Publication) : List Job :=
  let matched := (b.matching p).matched
  if b.cancelled || (b.refusal (b.prepared p)).isSome ||
      (b.prepared p).options.ordered || matched.isEmpty then
    []
  else [(b.prepared p).job matched]

theorem broadcasts_eq_nil {p : Publication} (h : b.cancelled = true ∨
    (b.refusal (b.prepared p)).isSome = true ∨ (b.prepared p).options.ordered = true ∨
      (b.matching p).matched = []) : b.broadcasts p = [] := by
  rw [broadcasts, if_pos]
  simpa [or_assoc] using h

theorem broadcasts_eq {p : Publication} (hc : b.cancelled = false)
    (hr : b.refusal (b.prepared p) = none)
    (ho : (b.prepared p).options.ordered = false) (hm : (b.matching p).matched ≠ []) :
    b.broadcasts p = [(b.prepared p).job (b.matching p).matched] := by
  rw [broadcasts, if_neg]
  simp [hc, hr, ho, hm]

theorem overflows_deny (b : Broker) (p : Publication) (denied : Nat) :
    (b.deny p denied).overflows = b.overflows :=
  Within.overflows_eq [.record .permissionDenied] (b.airs_deny p denied (.head _)).within
    (by decide)

theorem Posts.offered {p : Publication} {finalReceiver : Option Receiver}
    {r : Except BrokerError PublishReceipt} (h : b.Posts p finalReceiver r b')
    (hc : b.fresh.courier ≠ .stopped) : b.Offered (Lane.fresh.only (b.broadcasts p)) b' := by
  have denied := fun lane => queues_of_view (b.view_deny (b.prepared p) (b.matching p).denied) lane
  have told := b.overflows_deny (b.prepared p) (b.matching p).denied
  have running : (b.deny (b.prepared p) (b.matching p).denied).fresh.courier ≠ .stopped :=
    (congrArg DeliveryQueue.courier (denied .fresh)).symm ▸ hc
  cases h with
  | closed hcancelled =>
    rw [broadcasts_eq_nil (.inl hcancelled)]
    exact .nothing (fun _ => rfl) rfl
  | inadmissible hr =>
    rw [broadcasts_eq_nil (.inr (.inl (by rw [hr]; rfl)))]
    refine .nothing (queues_of_view (view_publicationRefused _ _ _)) ?_
    exact Within.overflows_eq [.record .publishRejected]
      (Within.emit (Within.log (.same rfl)) rfl (.head _)) (by decide)
  | refused hd hn hr =>
    cases hd with
    | stopped ho hs =>
      rw [broadcasts_eq_nil (.inr (.inr (.inl ho)))]
      exact .nothing denied told
    | refused ho hs hm =>
      rw [broadcasts_eq hn hr ho hm]
      exact ((hs.accepts running).offered).before denied told
  | @admitted chain b₁ hd hn hr =>
    have hdispatched : b.Offered (Lane.fresh.only (b.broadcasts p)) b₁ := by
      cases hd with
      | nothing hm hf =>
        rw [broadcasts_eq_nil (.inr (.inr (.inr hm)))]
        exact .nothing denied told
      | chain ho hm hs =>
        rw [broadcasts_eq_nil (.inr (.inr (.inl ho)))]
        refine .nothing (fun lane => Eq.trans ?_ (denied lane)) (Eq.trans ?_ told)
        · rw [← view_queue, view_send, ← view_queue]
          cases lane <;> rfl
        · exact Within.overflows_eq [] (Within.note (.same rfl) rfl) List.not_mem_nil
      | job ho hm hs =>
        rw [broadcasts_eq hn hr ho hm]
        exact ((hs.accepts running).offered).before denied told
    refine hdispatched.after (fun lane => ?_) ?_
    · rw [← view_queue, view_announce, ← view_queue]
      cases lane <;> rfl
    · exact Within.overflows_eq [.publication, .record .eventPublished]
        (airs_announce _ _ _ _ (.head _) (.tail _ (.head _))).within (by decide)

theorem post_offered (hc : b.fresh.courier ≠ .stopped) (p : Publication)
    (finalReceiver : Option Receiver) :
    b.Offered (Lane.fresh.only (b.broadcasts p)) (b.post p finalReceiver).2 := by
  cases h : b.post p finalReceiver with
  | mk r b' => exact (posts_post h).offered hc

def releases (b : Broker) (sel : Selector) : List Job :=
  if (b.vault.flush sel).1.isEmpty then [] else [.replay (b.vault.flush sel).1]

theorem flushFrozen_offered (hc : b.replay.courier ≠ .stopped) (sel : Selector) :
    b.Offered (Lane.replay.only (b.releases sel)) (b.flushFrozen sel).2 := by
  simp only [flushFrozen, releases]
  split
  · exact .nothing (fun _ => rfl) rfl
  · have taken {r : Option BrokerError} {b₁ : Broker}
        (hs : { b with vault := (b.vault.flush sel).2 }.submit .replay
          (.replay (b.vault.flush sel).1) = (r, b₁)) :
        b.Offered (Lane.replay.only [.replay (b.vault.flush sel).1]) b₁ := by
      have haccepts := (submits hs).accepts (show b.replay.courier ≠ .stopped from hc)
      exact haccepts.offered.before (fun lane => by cases lane <;> rfl) rfl
    split
    · rename_i hs
      refine (taken hs).after (fun lane => ?_) ?_
      · cases lane <;> rfl
      · exact Within.overflows_eq [.record .frozenFlushed]
          ((Within.log (.same rfl)).emit rfl (.head _)) (by decide)
    · rename_i hs
      refine (taken hs).after (fun lane => ?_) ?_
      · cases lane <;> rfl
      · exact Within.overflows_eq [] (Within.log (.same rfl)) List.not_mem_nil

def offers (b : Broker) : Action → Lane → List Job
  | .subscribe req => Lane.fresh.only ((b.enrolls req).toList.flatMap fun s =>
      (b.stickies s s.interest.events.toList).map (stickyJob s.id))
  | .publish p => Lane.fresh.only (b.broadcasts p)
  | .flushFrozen sel => Lane.replay.only (b.releases sel)
  | _ => Lane.fresh.only []

theorem subscribe_offered (hc : b.fresh.courier ≠ .stopped) (req : Subscription) :
    b.Offered (b.offers (.subscribe req)) (b.subscribe req).2 := by
  rw [offers]
  cases h : b.subscribe req with
  | mk result b' =>
    cases result with
    | ok id =>
      obtain ⟨s, hs, rfl, -, hb⟩ := subscribe_accepts (fun _ => hc) h
      rw [hs, Option.toList_some, List.flatMap_singleton]
      exact (hb.offered).before (fun lane => by cases lane <;> rfl) rfl
    | error e =>
      obtain ⟨hnone, hoverflows⟩ := enrolls_of_error h
      rw [hnone]
      exact .nothing (queues_of_view (subscribe_refused h)) hoverflows

def isOffer : Action → Bool
  | .subscribe _ | .publish _ | .publishWithResult _ _ | .flushFrozen _ => true
  | _ => false

theorem queue_aside (b : Broker) {a : Action} (hw : isWork a = false) (ho : isOffer a = false)
    (lane : Lane) : (b.act a).queue lane = b.queue lane := by
  have sent {b' : Broker} {v : View} {cs : List Command} (hv : b'.view = v.send cs)
      (hq : v.queue lane = b.view.queue lane) : b'.queue lane = b.queue lane := by
    rw [← view_queue, hv, ← view_queue, ← hq]
    cases lane <;> rfl
  cases a with
  | updateFreeze sel frozen =>
    change (b.updateFreeze sel frozen).2.queue lane = b.queue lane
    rw [← view_queue, updateFreeze_view, ← view_queue]
    cases lane <;> rfl
  | unsubscribe id =>
    obtain ⟨cs, -, hv⟩ := b.unsubscribe_view id
    exact sent hv (by cases lane <;> rfl)
  | ownerDied pid =>
    obtain ⟨cs, -, hv⟩ := b.ownerDied_view pid
    exact sent hv (by cases lane <;> rfl)
  | finish receiver code data abort =>
    obtain ⟨cs, -, hv⟩ := b.ask_view .finish (.finish receiver code data abort) (.finished .stale)
      fun _ => rfl
    exact sent hv (by cases lane <;> rfl)
  | active receiver =>
    obtain ⟨cs, -, hv⟩ := b.ask_view .active (.active receiver) (.active none) fun _ => rfl
    exact sent hv (by cases lane <;> rfl)
  | shutdown =>
    change b.shutdown.2.queue lane = b.queue lane
    rw [← view_queue, shutdown_view, ← view_queue]
    cases lane <;> rfl
  | resume call =>
    obtain ⟨cs, -, hv⟩ := b.resume_view call
    exact sent hv (by cases lane <;> rfl)
  | observed i panic => exact queues_of_view (b.observerConclude_view i panic) lane
  | tick now => cases lane <;> rfl
  | setOracle o => cases lane <;> rfl
  | work w => cases hw
  | handedOff w reception => cases hw
  | _ => cases ho

theorem overflow_topics {a : Action} (h : isOffer a = false) :
    .record .queueOverflow ∉ a.topics := by
  cases a with
  | work w => cases w <;> simp [Action.topics, Topic.sequencing]
  | handedOff w reception => cases w <;> simp [Action.topics, Topic.concluding]
  | subscribe req => cases h
  | publish p => cases h
  | publishWithResult p receiver => cases h
  | flushFrozen sel => cases h
  | _ => simp [Action.topics]

theorem overflows_aside (b : Broker) {a : Action} (h : isOffer a = false) :
    (b.act a).overflows = b.overflows :=
  Within.overflows_eq a.topics (b.act_within a) (overflow_topics h)

theorem offered_act (hc : ∀ lane, (b.queue lane).courier ≠ .stopped) {a : Action}
    (hw : isWork a = false) : b.Offered (b.offers a) (b.act a) := by
  cases ho : isOffer a with
  | true =>
    cases a with
    | subscribe req => exact subscribe_offered (hc .fresh) req
    | publish p => exact post_offered (hc .fresh) p none
    | publishWithResult p receiver =>
      have h := post_offered (hc .fresh) { p with options := { p.options with ordered := true } }
        (some receiver)
      rw [broadcasts_eq_nil (.inr (.inr (.inl rfl)))] at h
      exact h
    | flushFrozen sel => exact flushFrozen_offered (hc .replay) sel
    | _ => cases ho
  | false =>
    have hnone : b.offers a = Lane.fresh.only [] := by
      cases a <;> first | rfl | cases ho
    rw [hnone]
    exact .nothing (b.queue_aside hw ho) (b.overflows_aside ho)

end Broker

end EventBroker
