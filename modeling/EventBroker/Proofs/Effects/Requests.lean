import EventBroker.Proofs.Effects.Delivering
import EventBroker.Proofs.RegistryLaws

namespace EventBroker

def View.announce (v : View) (p : Publication) : View :=
  { v with
    publications := p.serial
    sticky := if p.options.sticky then v.sticky.put p else v.sticky }

/-- How the work of an admitted publication is queued, and under which chain: as one chain or as
one job, unless nobody is to be reached. -/
inductive View.Queues (v : View) (p : Publication) (matched : List Subscriber)
    (finalReceiver : Option Receiver) : Option ChainId → View → Prop
  | nothing (hm : matched = []) (hf : p.options.ordered = true → finalReceiver = none) :
    Queues v p matched finalReceiver none v
  | chain (ho : p.options.ordered = true) (hm : matched ≠ [] ∨ finalReceiver ≠ none)
      (hs : v.sequencer.stage ≠ .stopped) :
    Queues v p matched finalReceiver (some ⟨v.chains + 1⟩)
      ({ v with chains := v.chains + 1 }.send [.enqueue (.ofReceivers ⟨v.chains + 1⟩
        ⟨p.serial, p.event⟩ p.options.sticky (matched.map Subscriber.id) v.config.receiverTimeout
        (v.config.watchdogBudget matched.length) finalReceiver)])
  | job (ho : p.options.ordered = false) (hm : matched ≠ []) :
    Queues v p matched finalReceiver none (v.setQueue .fresh { v.fresh with
      jobs := v.fresh.jobs ++
        [.broadcast ⟨p.serial, p.event⟩ ⟨false, p.options.sticky⟩ (matched.map Subscriber.id)] })

theorem View.Queues.frame {v w : View} {p : Publication} {matched : List Subscriber}
    {finalReceiver : Option Receiver} {chain : Option ChainId}
    (h : v.Queues p matched finalReceiver chain w) : w = { v with
      fresh := w.fresh
      sequencer := w.sequencer
      chains := w.chains } := by
  cases h <;> rfl

namespace Broker

variable (b : Broker)

def stickyJob (id : SubscriberId) (p : Publication) : Job :=
  .broadcast ⟨p.serial, p.event⟩ ⟨false, true⟩ [id]

theorem replaySticky_view (s : Subscriber) (name : String) :
    ∃ ps : List Publication, ps.Sublist (b.sticky.get? name).toList ∧
      (b.replaySticky s name).view = b.view.setQueue .fresh
        { b.fresh with jobs := b.fresh.jobs ++ ps.map (stickyJob s.id) } := by
  have same : b.view = b.view.setQueue .fresh { b.fresh with jobs := b.fresh.jobs ++ [] } := by
    rw [List.append_nil]
    rfl
  rw [replaySticky]
  cases hp : b.sticky.get? name with
  | none => exact ⟨[], List.nil_sublist _, same⟩
  | some p =>
    dsimp only
    cases p.verdict b.oracle s with
    | deliver =>
      dsimp only
      split
      · rename_i b' h
        exact ⟨[p], List.Sublist.refl _, (submits h).view_taken⟩
      · rename_i e b' h
        refine ⟨[], List.nil_sublist _, ?_⟩
        rw [view_log, (submits h).view_eq]
        exact same
    | filtered => exact ⟨[], List.nil_sublist _, (b.view_log _).trans same⟩
    | denied => exact ⟨[], List.nil_sublist _, (b.view_log _).trans same⟩

theorem replayStickies_view (s : Subscriber) (names : List String) (b : Broker) :
    ∃ ps : List Publication, ps.Sublist (names.filterMap b.sticky.get?) ∧
      (names.foldl (fun b name => b.replaySticky s name) b).view = b.view.setQueue .fresh
        { b.fresh with jobs := b.fresh.jobs ++ ps.map (stickyJob s.id) } := by
  induction names generalizing b with
  | nil =>
    refine ⟨[], List.nil_sublist _, ?_⟩
    rw [List.map_nil, List.append_nil]
    rfl
  | cons name rest ih =>
    obtain ⟨ps, hps, hb⟩ := b.replaySticky_view s name
    obtain ⟨qs, hqs, hrest⟩ := ih (b.replaySticky s name)
    have hsticky : (b.replaySticky s name).sticky = b.sticky := congrArg View.sticky hb
    have hfresh : (b.replaySticky s name).fresh =
        { b.fresh with jobs := b.fresh.jobs ++ ps.map (stickyJob s.id) } :=
      congrArg View.fresh hb
    refine ⟨ps ++ qs, ?_, ?_⟩
    · rw [hsticky] at hqs
      have h := hps.append hqs
      cases hn : b.sticky.get? name <;> simpa [hn] using h
    · rw [List.foldl_cons, hrest, hb, hfresh]
      simp [View.setQueue]

@[simp] theorem view_evict (v : Eviction) : (b.evict v).view = b.view := by
  simp only [evict]
  rw [view_emit_silent, view_log, view_note_silent _ _ rfl, view_log]
  · simp
  · simp

@[simp] theorem view_subscriptionRefused (e : BrokerError) :
    (b.subscriptionRefused e).view = b.view := by
  cases e <;> simp [subscriptionRefused]

@[simp] theorem view_publicationRefused (p : Publication) (e : BrokerError) :
    (b.publicationRefused p e).view = b.view := by
  simp [publicationRefused]

theorem welcome_view (a : Admitted) :
    ∃ ps : List Publication,
      ps.Sublist (a.subscriber.interest.events.toList.filterMap b.sticky.get?) ∧
      (b.welcome a).view = b.view.setQueue .fresh
        { b.fresh with jobs := b.fresh.jobs ++ ps.map (stickyJob a.subscriber.id) } := by
  have h : ∀ b' : Broker, b'.view = b.view →
      ∃ ps : List Publication,
        ps.Sublist (a.subscriber.interest.events.toList.filterMap b.sticky.get?) ∧
        (a.subscriber.interest.events.toList.foldl
          (fun b name => b.replaySticky a.subscriber name) b').view = b.view.setQueue .fresh
          { b.fresh with jobs := b.fresh.jobs ++ ps.map (stickyJob a.subscriber.id) } := by
    intro b' hb
    obtain ⟨ps, hps, hv⟩ :=
      replayStickies_view a.subscriber a.subscriber.interest.events.toList b'
    have hsticky : b'.sticky = b.sticky := congrArg View.sticky hb
    have hfresh : b'.fresh = b.fresh := congrArg View.fresh hb
    rw [hsticky] at hps
    rw [hb, hfresh] at hv
    exact ⟨ps, hps, hv⟩
  rw [welcome]
  apply h
  rw [view_emit_silent, view_log]
  · cases a.evicted <;> simp
  · simp
  · simp

theorem subscribe_refused {b b' : Broker} {req : Subscription} {e : BrokerError}
    (h : b.subscribe req = (.error e, b')) : b'.view = b.view := by
  simp only [subscribe] at h
  split at h
  · cases h
    rfl
  · split at h
    · cases h
      exact b.view_subscriptionRefused e
    · cases h

theorem subscribe_admitted {b b' : Broker} {req : Subscription} {id : SubscriberId}
    (h : b.subscribe req = (.ok id, b')) :
    ∃ s : Subscriber, s.id = id ∧ id = ⟨b.registry.issued + 1⟩ ∧
      ∃ ps : List Publication, ps.Sublist (s.interest.events.toList.filterMap b.sticky.get?) ∧
        b'.view = { b.view with
          registry := b.registry.add s
          fresh := { b.fresh with jobs := b.fresh.jobs ++ ps.map (stickyJob id) } } := by
  simp only [subscribe] at h
  split at h
  · cases h
  · split at h
    · cases h
    · rename_i a registry ha
      obtain ⟨hs, rfl⟩ := Registry.subscribe_adds ha
      obtain ⟨ps, hps, hv⟩ := welcome_view { b with registry := b.registry.add a.subscriber } a
      cases h
      exact ⟨a.subscriber, rfl, by rw [hs]; rfl, ps, hps, hv⟩

/-- A publication as its copies carry it: its publisher named, and numbered. -/
def prepared (p : Publication) : Publication :=
  { p with publisher := b.resolveBundle p.publisher, serial := b.publications + 1 }

@[simp] theorem view_announce (p : Publication) (matched : Nat) (chain : Option ChainId) :
    (b.announce p matched chain).view = b.view.announce p := by
  simp only [announce]
  rw [view_emit_silent, view_log, view_note_silent _ _ rfl]
  · cases hs : p.options.sticky with
    | false => simp [View.announce, hs, view]; rfl
    | true =>
      rw [if_pos rfl, view_note_silent _ _ rfl]
      simp [View.announce, hs, view]
      rfl
  · simp
  · simp

inductive Dispatches (p : Publication) (matched : List Subscriber)
    (finalReceiver : Option Receiver) : Except BrokerError (Option ChainId) → Broker → Prop
  | nothing (hm : matched = []) (hf : p.options.ordered = true → finalReceiver = none) :
    Dispatches p matched finalReceiver (.ok none) b
  | chain (ho : p.options.ordered = true) (hm : matched ≠ [] ∨ finalReceiver ≠ none)
      (hs : b.sequencer.stage ≠ .stopped) :
    Dispatches p matched finalReceiver (.ok (some ⟨b.chains + 1⟩))
      ({ b with chains := b.chains + 1 }.send (.enqueue (.ofReceivers ⟨b.chains + 1⟩
        ⟨p.serial, p.event⟩ p.options.sticky (matched.map Subscriber.id) b.config.receiverTimeout
        (b.config.watchdogBudget matched.length) finalReceiver)))
  | stopped (ho : p.options.ordered = true) (hs : b.sequencer.stage = .stopped) :
    Dispatches p matched finalReceiver (.error .closed) b
  | job {b' : Broker} (ho : p.options.ordered = false) (hm : matched ≠ [])
      (hs : b.Submits .fresh (.broadcast ⟨p.serial, p.event⟩ ⟨false, p.options.sticky⟩
        (matched.map Subscriber.id)) none b') :
    Dispatches p matched finalReceiver (.ok none) b'
  | refused {b' : Broker} {e : BrokerError} (ho : p.options.ordered = false)
      (hs : b.Submits .fresh (.broadcast ⟨p.serial, p.event⟩ ⟨false, p.options.sticky⟩
        (matched.map Subscriber.id)) (some e) b') (hm : matched ≠ []) :
    Dispatches p matched finalReceiver (.error e) b'

def deny (p : Publication) (denied : Nat) : Broker :=
  let r : Record := { kind := .permissionDenied }
  if denied = 0 then b else b.emit ((r.setEvent p.event.name).setCount denied)

@[simp] theorem view_deny (p : Publication) (denied : Nat) : (b.deny p denied).view = b.view := by
  rw [deny]
  split
  · rfl
  · exact view_emit_silent _ _ (by simp) (by simp)

inductive Posts (p : Publication) (finalReceiver : Option Receiver) :
    Except BrokerError PublishReceipt → Broker → Prop
  | closed (hc : b.cancelled = true) : Posts p finalReceiver (.error .closed) b
  | inadmissible {e : BrokerError} (hr : b.refusal (b.prepared p) = some e) :
    Posts p finalReceiver (.error e) (b.publicationRefused (b.prepared p) e)
  | refused {e : BrokerError} {b' : Broker}
      (hd : (b.deny (b.prepared p) (b.matching p).denied).Dispatches (b.prepared p)
        (b.matching p).matched finalReceiver (.error e) b')
      (hc : b.cancelled = false) (hr : b.refusal (b.prepared p) = none) :
    Posts p finalReceiver (.error e) b'
  | admitted {chain : Option ChainId} {b' : Broker}
      (hd : (b.deny (b.prepared p) (b.matching p).denied).Dispatches (b.prepared p)
        (b.matching p).matched finalReceiver (.ok chain) b')
      (hc : b.cancelled = false) (hr : b.refusal (b.prepared p) = none) :
    Posts p finalReceiver
      (.ok ⟨(b.matching p).matched.length, (b.matching p).denied, chain⟩)
      (b'.announce (b.prepared p) (b.matching p).matched.length chain)

variable {b} {b' : Broker} {p : Publication} {matched : List Subscriber}
  {finalReceiver : Option Receiver}

theorem dispatches {r : Except BrokerError (Option ChainId)}
    (h : b.dispatch p matched finalReceiver = (r, b')) :
    b.Dispatches p matched finalReceiver r b' := by
  simp only [dispatch] at h
  split at h
  · rename_i ho
    split at h
    · rename_i hm
      simp only [Bool.and_eq_true, List.isEmpty_iff, Option.isNone_iff_eq_none] at hm
      cases h
      exact .nothing hm.1 fun _ => hm.2
    · rename_i hm
      simp only [Bool.and_eq_true, List.isEmpty_iff, Option.isNone_iff_eq_none] at hm
      split at h
      · rename_i ht
        cases h
        exact .chain ho (Decidable.not_and_iff_or_not.1 hm) (b.takesCommands_iff.1 ht)
      · rename_i ht
        cases h
        exact .stopped ho (Classical.not_not.1 (mt b.takesCommands_iff.2 ht))
  · rename_i ho
    rw [Bool.not_eq_true] at ho
    split at h
    · rename_i hm
      cases h
      refine .nothing (List.isEmpty_iff.1 hm) fun hord => ?_
      exact Bool.noConfusion (ho.symm.trans hord)
    · rename_i hm
      split at h
      · rename_i hs
        cases h
        exact .job ho (mt List.isEmpty_iff.2 hm) (submits hs)
      · rename_i hs
        cases h
        exact .refused ho (submits hs) (mt List.isEmpty_iff.2 hm)

theorem posts_post {r : Except BrokerError PublishReceipt}
    (h : b.post p finalReceiver = (r, b')) : b.Posts p finalReceiver r b' := by
  simp only [post] at h
  split at h
  · rename_i hc
    cases h
    exact .closed hc
  · rename_i hc
    rw [Bool.not_eq_true] at hc
    split at h
    · rename_i hr
      cases h
      exact .inadmissible hr
    · rename_i hr
      split at h
      · rename_i hd
        cases h
        exact .refused (dispatches hd) hc hr
      · rename_i hd
        cases h
        exact .admitted (dispatches hd) hc hr

theorem Dispatches.view_eq {e : BrokerError}
    (h : b.Dispatches p matched finalReceiver (.error e) b') : b'.view = b.view := by
  cases h with
  | stopped ho hs => rfl
  | refused ho hs => exact hs.view_eq

theorem Dispatches.queues {chain : Option ChainId}
    (h : b.Dispatches p matched finalReceiver (.ok chain) b') :
    b.view.Queues p matched finalReceiver chain b'.view := by
  cases h with
  | nothing hm hf => exact .nothing hm hf
  | chain ho hm hs =>
    rw [view_send]
    exact .chain (v := b.view) ho hm hs
  | job ho hm hs =>
    rw [hs.view_taken]
    exact .job ho hm

theorem post_refused {e : BrokerError} (h : b.post p finalReceiver = (.error e, b')) :
    b'.view = b.view := by
  cases posts_post h with
  | closed hc => rfl
  | inadmissible hr => exact b.view_publicationRefused _ _
  | refused hd => exact hd.view_eq.trans (b.view_deny _ _)

theorem post_admitted {r : PublishReceipt} (h : b.post p finalReceiver = (.ok r, b')) :
    ∃ w : View, b.view.Queues (b.prepared p) (b.matching p).matched finalReceiver r.chain w ∧
      b'.view = w.announce (b.prepared p) := by
  cases posts_post h with
  | admitted hd => exact ⟨_, b.view_deny _ _ ▸ hd.queues, view_announce _ _ _ _⟩

variable (b)

theorem updateFreeze_view (sel : Selector) (frozen : Bool) :
    (b.updateFreeze sel frozen).2.view =
      { b.view with registry := (b.registry.updateFreeze sel frozen b.now).2 } := by
  simp only [updateFreeze]
  rw [view_emit_silent, view_log]
  · rfl
  · simp
  · simp

theorem flushFrozen_nothing {sel : Selector} (h : (b.vault.flush sel).1 = []) :
    b.flushFrozen sel = (.ok 0, b) := by
  simp [flushFrozen, h]

theorem flushFrozen_taken {sel : Selector} (h : (b.vault.flush sel).1 ≠ [])
    (hr : b.replay.refuses = false) :
    (b.flushFrozen sel).2.view = { b.view with
      vault := (b.vault.flush sel).2
      replay := { b.replay with jobs := b.replay.jobs ++ [.replay (b.vault.flush sel).1] } } := by
  have hne : ¬(b.vault.flush sel).1.isEmpty = true := by
    rwa [List.isEmpty_iff]
  simp only [flushFrozen]
  rw [if_neg hne]
  split
  · rename_i hs
    rw [view_emit_silent, view_log, (submits hs).view_taken]
    · rfl
    · simp
    · simp
  · rename_i hs
    have hx : b.replay.refuses = true := (submits hs).refuses_eq
    rw [hr] at hx
    cases hx

theorem flushFrozen_refused {sel : Selector} (h : (b.vault.flush sel).1 ≠ [])
    (hr : b.replay.refuses = true) :
    (b.flushFrozen sel).2.view = { b.view with
      vault := ((b.vault.flush sel).2.restore (b.vault.flush sel).1 b.registry.contains).2 } := by
  have hne : ¬(b.vault.flush sel).1.isEmpty = true := by
    rwa [List.isEmpty_iff]
  simp only [flushFrozen]
  rw [if_neg hne]
  split
  · rename_i hs
    have hx : b.replay.refuses = false := (submits hs).refuses_eq
    rw [hr] at hx
    cases hx
  · rename_i e b' hs
    have hv := (submits hs).view_eq
    have hvault : b'.vault = (b.vault.flush sel).2 := congrArg View.vault hv
    have hregistry : b'.registry = b.registry := congrArg View.registry hv
    rw [view_log]
    change { b'.view with
      vault := (b'.vault.restore (b.vault.flush sel).1 b'.registry.contains).2 } = _
    rw [hv, hvault, hregistry]
    rfl

end Broker

end EventBroker
