import EventBroker.Proofs.Effects.Telling
import EventBroker.Proofs.Runs
import EventBroker.Proofs.Twins

namespace EventBroker

def Publication.called (p : Publication) (finalReceiver : Option Receiver) : Publication :=
  match finalReceiver with
  | none => p
  | some _ => { p with options := { p.options with ordered := true } }

/-- What a refused publication may leave in the history: lines of the log and records that tell of
its refusal, or of subscribers that it may not reach. -/
def Occurrence.ofRefusal : Occurrence → Bool
  | .logged _ => true
  | .record r =>
    r.kind == .publishRejected || r.kind == .permissionDenied || r.kind == .queueOverflow
  | _ => false

theorem View.Queues.now_eq {v w : View} {p : Publication} {matched : List Subscriber}
    {finalReceiver : Option Receiver} {chain : Option ChainId}
    (h : v.Queues p matched finalReceiver chain w) : w.now = v.now := by
  cases h <;> rfl

namespace Broker

variable (b : Broker)

def publishes (p : Publication) (finalReceiver : Option Receiver) :
    Except BrokerError PublishReceipt × Broker :=
  match finalReceiver with
  | none => b.publish p
  | some receiver => b.publishWithResult p receiver

theorem publishes_eq (p : Publication) (finalReceiver : Option Receiver) :
    b.publishes p finalReceiver = b.post (p.called finalReceiver) finalReceiver := by
  cases finalReceiver <;> rfl

inductive Refuses (p : Publication) : BrokerError → Prop
  | cancelled (h : b.cancelled = true) : Refuses p .closed
  | inadmissible {e : BrokerError} (h : b.refusal p = some e) : Refuses p e
  | sequencer (ho : p.options.ordered = true) (h : b.sequencer.stage = .stopped) :
    Refuses p .closed
  | courier (ho : p.options.ordered = false) (h : b.fresh.courier = .stopped) : Refuses p .closed
  | full (ho : p.options.ordered = false) (h : b.fresh.room ≤ b.fresh.jobs.length) :
    Refuses p (.queueFull Lane.fresh.name)

def publicationRecord (p : Publication) (matched : Nat) (chain : Option ChainId) : Record :=
  withChain ((({ kind := .eventPublished } : Record).setEvent p.event.name).setPid
    p.publisher.pid |>.setCount matched) chain

def announcement (p : Publication) (matched : Nat) (chain : Option ChainId) : List Occurrence :=
  (if p.options.sticky then [.remembered p] else []) ++
    [.announced p, .logged (.eventPublished p.event.name p.publisher.pid matched p.options.ordered),
      .record (publicationRecord p matched chain)]

def denials (p : Publication) (denied : Nat) : List Occurrence :=
  if denied = 0 then []
  else [.record ((({ kind := .permissionDenied } : Record).setEvent p.event.name).setCount denied)]

def summons (matched : Nat) (chain : Option ChainId) : List Occurrence :=
  match chain with
  | some _ => [.queued .sequencer]
  | none => if matched = 0 then [] else [.queued (.courier .fresh)]

variable {b} {b' : Broker} {p : Publication} {matched : List Subscriber}
  {finalReceiver : Option Receiver}

theorem history_emit (b : Broker) (r : Record) :
    (b.emit r).history = b.history ++ [(b.now, .record r)] :=
  ({ b with bus := b.bus.publish r } : Broker).history_note _

theorem history_announce (b : Broker) (p : Publication) (matched : Nat) (chain : Option ChainId) :
    (b.announce p matched chain).history =
      b.history ++ (announcement p matched chain).map (b.now, ·) := by
  have told (c : Broker) (hn : c.now = b.now) (o o' : Occurrence) (r : Record) :
      (((c.note o).note o').emit r).history =
        c.history ++ [o, o', .record r].map (b.now, ·) := by
    rw [history_emit, history_note, history_note, List.append_assoc, List.append_assoc, ← hn]
    rfl
  simp only [announce, announcement]
  cases p.options.sticky with
  | false => exact told { b with publications := p.serial } rfl _ _ _
  | true =>
    have hput := told (({ b with
      publications := p.serial, sticky := b.sticky.put p } : Broker).note (.remembered p)) rfl
    refine (hput _ _ _).trans ?_
    rw [history_note, List.append_assoc]
    rfl

theorem history_deny (b : Broker) (p : Publication) (denied : Nat) :
    (b.deny p denied).history = b.history ++ (denials p denied).map (b.now, ·) := by
  rw [deny, denials]
  split
  · exact (List.append_nil _).symm
  · exact history_emit _ _

theorem Dispatches.history_eq {chain : Option ChainId}
    (h : b.Dispatches p matched finalReceiver (.ok chain) b') :
    b'.history = b.history ++ (summons matched.length chain).map (b.now, ·) := by
  cases h with
  | nothing hm hf =>
    subst hm
    exact (List.append_nil _).symm
  | chain ho hm hs => exact history_note _ _
  | job ho hm hs =>
    rw [summons, if_neg (mt List.length_eq_zero_iff.1 hm)]
    cases hs with
    | taken hc hr => exact history_note _ _

theorem Dispatches.refuses {e : BrokerError}
    (h : b.Dispatches p matched finalReceiver (.error e) b') :
    b.Refuses p e ∧ b.Tells (fun o => o.ofRefusal = true) b' ∧ b'.joined = b.joined := by
  cases h with
  | stopped ho hs => exact ⟨.sequencer ho hs, .same rfl, rfl⟩
  | refused ho hs =>
    cases hs with
    | closed hc => exact ⟨.courier ho hc, .same rfl, rfl⟩
    | full hc hr => exact ⟨.full ho hr, Tells.emit (.same rfl) rfl, rfl⟩

theorem Refuses.of_deny {e : BrokerError} {q : Publication} {denied : Nat}
    (h : (b.deny q denied).Refuses p e) : b.Refuses p e := by
  rw [deny] at h
  split at h
  · exact h
  · cases h with
    | cancelled h => exact .cancelled h
    | inadmissible h => exact .inadmissible h
    | sequencer ho h => exact .sequencer ho h
    | courier ho h => exact .courier ho h
    | full ho h => exact .full ho h

theorem tells_deny (b : Broker) (p : Publication) (denied : Nat) :
    b.Tells (fun o => o.ofRefusal = true) (b.deny p denied) ∧
      (b.deny p denied).joined = b.joined := by
  rw [deny]
  split
  · exact ⟨.same rfl, rfl⟩
  · exact ⟨Tells.emit (.same rfl) rfl, rfl⟩

theorem Posts.refuses {e : BrokerError} (h : b.Posts p finalReceiver (.error e) b') :
    b.Refuses (b.prepared p) e ∧ b.Tells (fun o => o.ofRefusal = true) b' ∧
      b'.joined = b.joined := by
  cases h with
  | closed hc => exact ⟨.cancelled hc, .same rfl, rfl⟩
  | inadmissible hr =>
    refine ⟨.inadmissible hr, Tells.emit (Tells.log (.same rfl) ?_) ?_, rfl⟩
    · rfl
    · rfl
  | refused hd =>
    obtain ⟨hr, ht, hj⟩ := hd.refuses
    obtain ⟨hdenied, hjoined⟩ := b.tells_deny (b.prepared p) (b.matching p).denied
    exact ⟨hr.of_deny, hdenied.trans ht, hj.trans hjoined⟩

theorem Posts.history_eq {receipt : PublishReceipt}
    (h : b.Posts p finalReceiver (.ok receipt) b') :
    b'.history = b.history ++ (denials (b.prepared p) receipt.denied ++
      summons receipt.matched receipt.chain ++
        announcement (b.prepared p) receipt.matched receipt.chain).map (b.now, ·) := by
  cases h with
  | @admitted chain b₁ hd =>
    have hnow : (b.deny (b.prepared p) (b.matching p).denied).now = b.now :=
      congrArg View.now (b.view_deny _ _)
    have hnow₁ : b₁.now = b.now := hd.queues.now_eq.trans hnow
    rw [history_announce, hnow₁, hd.history_eq, hnow, history_deny, List.map_append,
      List.map_append, List.append_assoc, List.append_assoc, List.append_assoc]

theorem Posts.receipt_eq {receipt : PublishReceipt}
    (h : b.Posts p finalReceiver (.ok receipt) b') :
    receipt.matched = (b.matching p).matched.length ∧ receipt.denied = (b.matching p).denied := by
  cases h with
  | admitted hd => exact ⟨rfl, rfl⟩

/-- Publishing is all or nothing. Refused, for a reason that holds, a publication changes nothing
that matters for the work, neither then nor in whatever run follows; all that is left of it are
lines of the log and records of its refusal. Admitted, it reaches whom it matches in the same state,
in their rank order, by one chain or one job, or nobody is to be reached; it is put into the sticky
store if it is sticky, and the static subscribers and the readers of records are told of it once. -/
theorem published_or_refused (config : Config) (oracle : Oracle) (bundleOf : Uid → Option String)
    (observers : List Observer) (before : List Action) (p : Publication)
    (finalReceiver : Option Receiver) :
    let b := (start config oracle bundleOf observers).run before
    let q := b.prepared (p.called finalReceiver)
    let found := b.matching p
    match b.publishes p finalReceiver with
    | (.error e, b') => b.Refuses q e ∧ b'.view = b.view ∧
      b.Tells (fun o => o.ofRefusal = true) b' ∧
      ∀ after, (b'.run after).view = (b.run after).view
    | (.ok receipt, b') => receipt.matched = found.matched.length ∧
      receipt.denied = found.denied ∧ found.matched.Pairwise Subscriber.Outranks ∧
      (∃ w, b.view.Queues q found.matched finalReceiver receipt.chain w ∧
        b'.view = w.announce q) ∧
      b'.history = b.history ++ (denials q receipt.denied ++
        summons receipt.matched receipt.chain ++
          announcement q receipt.matched receipt.chain).map (b.now, ·) := by
  intro b q found
  have htwin : b.Twin b := (Twin.start config oracle bundleOf observers).run before
  have hsound : b.registry.Sound :=
    (runs_view (view_start_sound config oracle bundleOf observers) before).2.registry
  have hfound : b.matching (p.called finalReceiver) = found := by cases finalReceiver <;> rfl
  rw [publishes_eq]
  cases hp : b.post (p.called finalReceiver) finalReceiver with
  | mk result b' =>
    cases result with
    | error e =>
      obtain ⟨hr, htells, hjoined⟩ := (posts_post hp).refuses
      have hview : b'.view = b.view := post_refused hp
      have hdesk : b'.desk = b.desk := by
        have hd := b.desk_post (p.called finalReceiver) finalReceiver
        rwa [hp] at hd
      exact ⟨hr, hview, htells, fun after =>
        ((htwin.aside hview hdesk hjoined).run after).view.symm⟩
    | ok receipt =>
      obtain ⟨hmatched, hdenied⟩ := (posts_post hp).receipt_eq
      obtain ⟨w, hqueues, hview⟩ := post_admitted hp
      rw [hfound] at hmatched hdenied hqueues
      exact ⟨hmatched, hdenied, Registry.matched_ranked _ _ hsound, ⟨w, hqueues, hview⟩,
        (posts_post hp).history_eq⟩

end Broker

end EventBroker
