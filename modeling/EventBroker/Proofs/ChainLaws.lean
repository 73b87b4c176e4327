import EventBroker.Chain

namespace EventBroker.Chain

variable (c : Chain)

def settled (how : DeliveryState) : List DeliveryState :=
  match c.current with
  | none => c.deliveries
  | some i => c.deliveries.modify i fun s => if s = .pending then how else s

theorem settle_eq (how : DeliveryState) :
    c.settle how = { c with current := none, deliveries := c.settled how } := by
  rw [settle, settled]
  cases h : c.current with
  | none =>
    dsimp only
    rw [← h]
  | some i => rfl

@[simp] theorem length_settled (how : DeliveryState) :
    (c.settled how).length = c.deliveries.length := by
  rw [settled]
  cases c.current with
  | none => rfl
  | some i => exact List.length_modify ..

theorem settled_of_ne {how : DeliveryState} {i : Nat} (h : c.current ≠ some i) :
    (c.settled how)[i]? = c.deliveries[i]? := by
  rw [settled]
  cases hc : c.current with
  | none => rfl
  | some j =>
    rw [hc] at h
    rw [List.getElem?_modify_ne]
    intro e
    exact h (congrArg some e)

theorem skip_eq :
    c.skip = { c with current := none, deliveries := c.settled .skipped, state := .idle } := by
  rw [skip, settle_eq]

variable {c} {r : SubscriberId}

theorem received_of_awaiting (h : c.awaiting = some r) : c.state = .received := by
  rw [awaiting] at h
  split at h
  · assumption
  · cases h

theorem receiver_of_awaiting (hr : c.awaiting = some r) :
    c.state ≠ .idle ∧ c.receiver? = some r := by
  have hs := received_of_awaiting hr
  rw [awaiting, if_pos hs] at hr
  exact ⟨by simp [hs], hr⟩

theorem finish_of_awaiting (h : c.awaiting = some r) (code : Int) (data : String) (abort : Bool) :
    c.finish r code data abort = (.accepted, { c with
      copy := { c.copy with event := c.event.setResult code data }
      current := none
      deliveries := c.settled .delivered
      abort
      state := .idle
      receivingSince := none }) := by
  rw [finish, if_pos h, settle_eq]

theorem finish_of_not_awaiting (h : c.awaiting ≠ some r) (code : Int) (data : String)
    (abort : Bool) : c.finish r code data abort = (.stale, c) := by
  rw [finish, if_neg h]

theorem release_of_awaiting (h : c.awaiting = some r) :
    c.release = (some r, { c with
      current := none
      deliveries := c.settled .delivered
      state := .idle
      receivingSince := none }) := by
  rw [release, h]
  dsimp only
  rw [finish_of_awaiting h]
  rfl

theorem expireReceiver_of_awaiting (h : c.awaiting = some r) :
    c.expireReceiver = (some r, { c with
      current := none
      deliveries := c.settled .timeout
      state := .idle
      receivingSince := none }) := by
  rw [expireReceiver, h]
  dsimp only
  rw [settle_eq]

theorem expireReceiver_of_not_awaiting (h : c.awaiting = none) :
    c.expireReceiver = (none, c) := by
  rw [expireReceiver, h]

@[simp] theorem fst_expireReceiver (c : Chain) : c.expireReceiver.1 = c.awaiting := by
  cases h : c.awaiting with
  | none => rw [expireReceiver_of_not_awaiting h]
  | some r => rw [expireReceiver_of_awaiting h]

@[simp] theorem fst_expire (c : Chain) : c.expire.1 = c.awaiting :=
  fst_expireReceiver { c with expired := true }

theorem expire_of_awaiting (h : c.awaiting = some r) :
    c.expire = (some r, { c with
      current := none
      deliveries := c.settled .timeout
      state := .idle
      expired := true
      receivingSince := none }) :=
  expireReceiver_of_awaiting (c := { c with expired := true }) h

def Overdue (c : Chain) (now : Instant) : Prop :=
  c.expired = true ∨ due c.watchdogDeadline now = true

/-- What a chain that is asked for its next step says and becomes. -/
inductive Next (c : Chain) (now : Instant) : ChainStep → Chain → Prop
  | aborted (ha : c.abort = true) :
    Next c now (.finalize .aborted) { c with current := none, state := .idle }
  | overdue (ha : c.abort = false) (ho : c.Overdue now) :
    Next c now (.finalize .watchdog) { c with current := none, state := .idle, expired := true }
  | overrun (ha : c.abort = false) (ho : ¬c.Overdue now) (hf : c.watchdogOverruns = true) :
    Next c now .overrun { c with current := none, state := .idle }
  | deliver {r : SubscriberId} (ha : c.abort = false) (ho : ¬c.Overdue now)
      (hr : c.receivers[c.cursor]? = some r) :
    Next c now (.deliver c.cursor r)
      { c with state := .idle, cursor := c.cursor + 1, current := some c.cursor }
  | exhausted (ha : c.abort = false) (ho : ¬c.Overdue now)
      (h : c.receivers.length ≤ c.cursor) :
    Next c now (.finalize .exhausted)
      { c with current := none, state := .idle, cursor := c.cursor + 1 }

theorem next_cases (c : Chain) (now : Instant) : c.Next now (c.next now).1 (c.next now).2 := by
  have hdue : (c.expired || due c.watchdogDeadline now) = true ↔ c.Overdue now :=
    Bool.or_eq_true_iff
  simp only [next]
  split
  · rename_i ha
    exact .aborted ha
  · rename_i ha
    rw [Bool.not_eq_true] at ha
    split
    · rename_i ho
      exact .overdue ha (hdue.1 ho)
    · rename_i ho
      replace ho := mt hdue.2 ho
      split
      · rename_i hf
        exact .overrun ha ho hf
      · split
        · rename_i hr
          exact .deliver ha ho hr
        · rename_i hr
          exact .exhausted ha ho (List.getElem?_eq_none_iff.1 hr)

variable {now : Instant} {c' : Chain} {reason : FinishReason}

theorem next_of_eq {step : ChainStep} (h : c.next now = (step, c')) : c.Next now step c' := by
  have hn := c.next_cases now
  rwa [h] at hn

theorem not_overdue : ¬c.Overdue now ↔ c.expired = false ∧ due c.watchdogDeadline now = false := by
  rw [Overdue, not_or, Bool.not_eq_true, Bool.not_eq_true]

theorem next_deliver {i : Nat} (h : c.next now = (.deliver i r, c')) :
    c.abort = false ∧ c.expired = false ∧ due c.watchdogDeadline now = false ∧ i = c.cursor ∧
      c.receivers[c.cursor]? = some r ∧
      c' = { c with state := .idle, cursor := c.cursor + 1, current := some c.cursor } := by
  cases next_of_eq h with
  | deliver ha ho hr =>
    obtain ⟨he, hd⟩ := not_overdue.1 ho
    exact ⟨ha, he, hd, rfl, hr, rfl⟩

theorem next_finalize (h : c.next now = (.finalize reason, c')) :
    c'.id = c.id ∧ c'.copy = c.copy ∧ c'.sticky = c.sticky ∧ c'.receivers = c.receivers ∧
      c'.finalReceiver = c.finalReceiver ∧ (c.abort = true ↔ reason = .aborted) ∧
      (reason = .exhausted → c.receivers.length ≤ c.cursor) := by
  cases next_of_eq h with
  | aborted ha => exact ⟨rfl, rfl, rfl, rfl, rfl, by simp [ha], by simp⟩
  | overdue ha => exact ⟨rfl, rfl, rfl, rfl, rfl, by simp [ha], by simp⟩
  | exhausted ha ho hlen => exact ⟨rfl, rfl, rfl, rfl, rfl, by simp [ha], fun _ => hlen⟩

theorem next_overrun (h : c.next now = (.overrun, c')) :
    c.abort = false ∧ c.watchdogOverruns = true := by
  cases next_of_eq h with
  | overrun ha ho hf => exact ⟨ha, hf⟩

/-- The sequencer breaks down over the chain: it needs a deadline past the end of the clock, to move
the chain on or to wait for its receiver. -/
def breaksDown (c : Chain) (now : Instant) : Bool :=
  if c.awaiting.isSome then c.overruns else decide ((c.next now).1 = .overrun)

theorem breaksDown_of_awaiting (h : c.awaiting = some r) (now : Instant) :
    c.breaksDown now = c.overruns := by
  rw [breaksDown, h]
  rfl

theorem breaksDown_of_next {step : ChainStep} (h : c.awaiting = none)
    (hn : c.next now = (step, c')) : c.breaksDown now = decide (step = .overrun) := by
  rw [breaksDown, h, hn]
  rfl

theorem next_of_breaksDown (h : c.awaiting = none)
    (hb : c.breaksDown now = true) : (c.next now).1 = .overrun := by
  rw [breaksDown, h] at hb
  exact of_decide_eq_true hb

theorem overruns_of_breaksDown (h : c.breaksDown now = true) :
    c.overruns = true := by
  cases hw : c.awaiting with
  | some r => exact (breaksDown_of_awaiting hw now).symm.trans h
  | none =>
    obtain ⟨-, ho⟩ := next_overrun (Prod.ext (next_of_breaksDown hw h) rfl)
    rw [overruns, ho, Bool.or_true]

/-- What a chain has from its start on: whom it goes to, when it started, how long it and each
receiver may take. -/
structure Terms (c c' : Chain) : Prop where
  id : c'.id = c.id
  receivers : c'.receivers = c.receivers
  startedAt : c'.startedAt = c.startedAt
  receiverTimeout : c'.receiverTimeout = c.receiverTimeout
  watchdogBudget : c'.watchdogBudget = c.watchdogBudget
  final : c'.finalReceiver = c.finalReceiver

theorem Terms.refl (c : Chain) : c.Terms c := ⟨rfl, rfl, rfl, rfl, rfl, rfl⟩

theorem Terms.watchdogDeadline (h : c.Terms c') :
    c'.watchdogDeadline = c.watchdogDeadline := by
  rw [Chain.watchdogDeadline, h.startedAt, h.watchdogBudget]
  rfl

theorem terms_of_finalize (h : c.next now = (.finalize reason, c')) : c.Terms c' := by
  cases next_of_eq h <;> exact ⟨rfl, rfl, rfl, rfl, rfl, rfl⟩

theorem overdue_of_next (h : c.next now = (.finalize .watchdog, c')) : c.Overdue now := by
  cases next_of_eq h with
  | overdue ha ho => exact ho

end EventBroker.Chain
