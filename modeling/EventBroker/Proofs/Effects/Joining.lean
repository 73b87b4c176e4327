import EventBroker.Proofs.Twins

namespace EventBroker.Broker

variable {b b' : Broker}

theorem joined_setQueue (b : Broker) (lane : Lane) (q : DeliveryQueue) :
    (b.setQueue lane q).joined = b.joined := by
  cases lane <;> rfl

theorem joined_foldl {γ : Type} {f : Broker → γ → Broker} (h : ∀ b x, (f b x).joined = b.joined)
    (xs : List γ) (b : Broker) : (xs.foldl f b).joined = b.joined := by
  induction xs generalizing b with
  | nil => rfl
  | cons x rest ih => exact (ih _).trans (h b x)

section Requests

theorem Submits.joined_eq {lane : Lane} {job : Job} {r : Option BrokerError}
    (h : b.Submits lane job r b') : b'.joined = b.joined := by
  cases h with
  | taken hc hr => exact b.joined_setQueue lane _
  | _ => rfl

theorem joined_replaySticky (b : Broker) (s : Subscriber) (name : String) :
    (b.replaySticky s name).joined = b.joined := by
  rw [replaySticky]
  split
  · rfl
  · split
    · split
      · rename_i hs
        exact (submits hs).joined_eq
      · rename_i hs
        exact (submits hs).joined_eq
    · rfl

theorem joined_subscribe (b : Broker) (req : Subscription) :
    (b.subscribe req).2.joined = b.joined := by
  have welcomed (a : Admitted) (b : Broker) : (b.welcome a).joined = b.joined := by
    rw [welcome]
    refine (joined_foldl (fun b name => b.joined_replaySticky _ name) _ _).trans ?_
    dsimp only [emit, log, note]
    cases a.evicted <;> rfl
  rw [subscribe]
  split
  · rfl
  · dsimp only
    split
    · rename_i e hr
      cases e <;> rfl
    · exact welcomed _ _

theorem Dispatches.joined_eq {p : Publication} {matched : List Subscriber}
    {finalReceiver : Option Receiver} {r : Except BrokerError (Option ChainId)}
    (h : b.Dispatches p matched finalReceiver r b') : b'.joined = b.joined := by
  cases h with
  | job ho hm hs => exact hs.joined_eq
  | refused ho hs => exact hs.joined_eq
  | _ => rfl

theorem joined_post (b : Broker) (p : Publication) (finalReceiver : Option Receiver) :
    (b.post p finalReceiver).2.joined = b.joined := by
  have denied (q : Publication) (n : Nat) : (b.deny q n).joined = b.joined := by
    rw [deny]
    split <;> rfl
  have announced (q : Publication) (n : Nat) (chain : Option ChainId) (b : Broker) :
      (b.announce q n chain).joined = b.joined := by
    rw [announce]
    split <;> rfl
  cases hp : b.post p finalReceiver with
  | mk r b' =>
    cases posts_post hp with
    | closed hc => rfl
    | inadmissible hr => rfl
    | refused hd => exact hd.joined_eq.trans (denied _ _)
    | admitted hd => exact (announced _ _ _ _).trans (hd.joined_eq.trans (denied _ _))

theorem joined_flushFrozen (b : Broker) (sel : Selector) :
    (b.flushFrozen sel).2.joined = b.joined := by
  simp only [flushFrozen]
  split
  · rfl
  · split
    · rename_i hs
      exact (submits hs).joined_eq
    · rename_i hs
      exact (submits hs).joined_eq

end Requests

section Calls

theorem joined_ask (b : Broker) (w : Waiting) (command : Nat → Command) (otherwise : Response) :
    (b.ask w command otherwise).2.joined = b.joined := by
  rw [ask]
  split <;> rfl

theorem joined_retire (k : Nat) (cause : Departure) (total : Nat) (leaving : List Subscriber)
    (b : Broker) : (retire k cause total leaving b).2.joined = b.joined := by
  induction leaving generalizing b with
  | nil =>
    cases cause with
    | unsubscribed => rfl
    | ownerDied pid =>
      simp only [retire, allDeparted]
      split <;> rfl
  | cons s rest ih =>
    simp only [retire]
    split
    · rfl
    · exact ih _

theorem joined_unsubscribe (b : Broker) (id : SubscriberId) :
    (b.unsubscribe id).2.joined = b.joined := by
  rw [unsubscribe]
  split
  · rfl
  · exact joined_retire _ _ _ _ _

theorem joined_resume (b : Broker) (k : Nat) :
    (((b.resume k).map (·.2)).getD b).joined = b.joined := by
  rw [resume]
  cases b.calls.get? k with
  | none => rfl
  | some c =>
    obtain ⟨waiting, answer⟩ := c
    cases waiting with
    | shutdown workers =>
      dsimp only
      split <;> rfl
    | retire r =>
      cases answer with
      | none => rfl
      | some a => cases a <;> exact joined_retire _ _ _ _ _
    | _ =>
      cases answer with
      | none => rfl
      | some a => cases a <;> rfl

end Calls

section Deliveries

theorem joined_approach {id : SubscriberId} {copy : Copy} {chain : Option ChainId}
    {ready : Readiness} (h : b.approach id copy chain = (ready, b')) : b'.joined = b.joined := by
  rw [approach] at h
  split at h
  · cases h
    rfl
  · split at h <;> cases h <;> rfl

theorem joined_courierStep {lane : Lane} (h : b.courierStep lane = some b') :
    b'.joined = b.joined := by
  cases courierStep_cases h with
  | rest | stop => exact b.joined_setQueue lane _
  | attempt =>
    rw [Broker.attempt]
    split
    · rename_i ha
      exact (joined_setQueue _ lane _).trans (joined_approach ha)
    · rename_i ha
      exact (joined_setQueue _ lane _).trans (joined_approach ha)
  | @take job rest => cases job <;> exact b.joined_setQueue lane _

theorem joined_courierConclude (b : Broker) (lane : Lane) (result : Except DeliveryError Unit) :
    (b.courierConclude lane result).joined = b.joined := by
  rw [courierConclude]
  split
  · refine (joined_setQueue _ lane _).trans ?_
    split <;> rfl
  · rfl

end Deliveries

section Sequencing

theorem joined_handle (b : Broker) (c : Command) : (b.handle c).joined = b.joined := by
  cases c with
  | enqueue chain => rfl
  | finish receiver code data abort caller =>
    rw [handle]
    split
    · rfl
    · split <;> rfl
  | release receiver caller =>
    rw [handle]
    split
    · rfl
    · split <;> rfl
  | active receiver caller => rfl

theorem joined_closeSequencer (b : Broker) : b.closeSequencer.joined = b.joined :=
  joined_foldl (fun b c => by cases c <;> rfl) _ _

theorem PumpStep.joined_eq (h : b.PumpStep b') : b'.joined = b.joined := by
  cases h with
  | rest | start | park => rfl
  | breakDown => exact b.joined_closeSequencer
  | finalize =>
    rw [Broker.finalize]
    split <;> rfl
  | deliver =>
    rw [deliverTo]
    split
    · rename_i b'' ha
      have hb : b''.joined = b.joined := joined_approach ha
      exact hb
    · rename_i b'' _ ha
      have hb : b''.joined = b.joined := joined_approach ha
      exact hb

theorem joined_sweep (h : b.sweep = some b') : b'.joined = b.joined := by
  cases sweep_cases h <;> rfl

theorem joined_sequencerStep (h : b.sequencerStep = some b') : b'.joined = b.joined := by
  cases sequencerStep_cases h with
  | pump _ h => exact h.joined_eq
  | stop => exact b.joined_closeSequencer
  | take => exact joined_handle _ _
  | sweep _ _ _ h => exact joined_sweep h

theorem joined_sequencerConclude (b : Broker) (result : Except DeliveryError Unit) :
    (b.sequencerConclude result).joined = b.joined := by
  rw [sequencerConclude]
  split
  · dsimp only [deliveryFailed, setStage, setActive, emit, log, note]
    split <;> rfl
  · dsimp only [chainFinished, setStage, emit, log, note]
    split <;> rfl
  · rfl

end Sequencing

theorem joined_act (b : Broker) {a : Action} (h : a ≠ .shutdown) :
    (b.act a).joined = b.joined := by
  cases a with
  | subscribe req => exact b.joined_subscribe req
  | publish p => exact b.joined_post p none
  | publishWithResult p receiver => exact b.joined_post _ _
  | updateFreeze sel frozen => rfl
  | flushFrozen sel => exact b.joined_flushFrozen sel
  | unsubscribe id => exact b.joined_unsubscribe id
  | ownerDied pid => exact joined_retire _ _ _ _ _
  | finish r code data abort => exact b.joined_ask _ _ _
  | active r => exact b.joined_ask _ _ _
  | shutdown => exact absurd rfl h
  | resume k => exact b.joined_resume k
  | work w =>
    change ((b.work w).getD b).joined = b.joined
    cases hb : b.work w with
    | none => rfl
    | some b' =>
      cases w with
      | listener => exact Twin.joined_listenerStep hb
      | observer i => exact Twin.joined_observerStep hb
      | courier lane => exact joined_courierStep hb
      | sequencer => exact joined_sequencerStep hb
  | handedOff w reception =>
    cases w with
    | courier lane => exact b.joined_courierConclude lane reception.result
    | sequencer => exact b.joined_sequencerConclude reception.result
    | _ => rfl
  | observed i panic => exact Twin.joined_observerConclude b i panic
  | tick now => rfl
  | setOracle o => rfl

theorem joined_run {actions : List Action} (h : .shutdown ∉ actions) (b : Broker) :
    (b.run actions).joined = b.joined := by
  induction actions generalizing b with
  | nil => rfl
  | cons a rest ih =>
    rw [List.mem_cons, not_or] at h
    exact (ih h.2 (b.act a)).trans (b.joined_act (Ne.symm h.1))

end EventBroker.Broker
