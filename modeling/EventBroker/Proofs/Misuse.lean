import EventBroker.Proofs.ChainLaws

namespace EventBroker.Chain

inductive Operation
  | start (now : Instant)
  | next (now : Instant)
  | skip
  | beginReceiving (now : Instant)
  | handedOff
  | finish (receiver : SubscriberId) (code : Int) (data : String) (abort : Bool)
  | release
  | expireReceiver
  | expire

variable (c : Chain)

def perform : Operation → Chain
  | .start now => c.start now
  | .next now => (c.next now).2
  | .skip => c.skip
  | .beginReceiving now => c.beginReceiving now
  | .handedOff => c.handedOff
  | .finish receiver code data abort => (c.finish receiver code data abort).2
  | .release => c.release.2
  | .expireReceiver => c.expireReceiver.2
  | .expire => c.expire.2

def performAll (ops : List Operation) : Chain := ops.foldl perform c

def turn : Operation → Option (SubscriberId × Nat)
  | .next now =>
    match (c.next now).1 with
    | .deliver i r => some (r, i)
    | .finalize _ | .overrun => none
  | _ => none

def turns (c : Chain) : List Operation → List (SubscriberId × Nat)
  | [] => []
  | op :: rest => (c.turn op).toList ++ (c.perform op).turns rest

def remaining : List (SubscriberId × Nat) := c.receivers.zipIdx.drop c.cursor

def Spent : Prop := ∀ ops now i r, ((c.performAll ops).next now).1 ≠ .deliver i r

inductive Does : Operation → Option (SubscriberId × Nat) → Chain → Prop
  | start (now : Instant) :
    Does (.start now) none { c with startedAt := c.startedAt.or (some now) }
  | aborted (now : Instant) (ha : c.abort = true) :
    Does (.next now) none { c with current := none, state := .idle }
  | overdue (now : Instant) (ha : c.abort = false) (ho : c.Overdue now) :
    Does (.next now) none { c with current := none, state := .idle, expired := true }
  | overrun (now : Instant) (ha : c.abort = false) (ho : ¬c.Overdue now)
      (hf : c.watchdogOverruns = true) :
    Does (.next now) none { c with current := none, state := .idle }
  | exhausted (now : Instant) (ha : c.abort = false) (ho : ¬c.Overdue now)
      (h : c.receivers.length ≤ c.cursor) :
    Does (.next now) none { c with current := none, state := .idle, cursor := c.cursor + 1 }
  | deliver (now : Instant) {r : SubscriberId} (ha : c.abort = false) (ho : ¬c.Overdue now)
      (hr : c.receivers[c.cursor]? = some r) :
    Does (.next now) (some (r, c.cursor))
      { c with state := .idle, cursor := c.cursor + 1, current := some c.cursor }
  | skip :
    Does .skip none { c with
      current := none, deliveries := c.settled .skipped, state := .idle }
  | beginReceiving (now : Instant) :
    Does (.beginReceiving now) none { c with state := .receiving, receivingSince := some now }
  | handedOff : Does .handedOff none { c with state := .received }
  | finish {r : SubscriberId} (h : c.awaiting = some r) (code : Int) (data : String)
      (abort : Bool) :
    Does (.finish r code data abort) none { c with
      copy := { c.copy with event := c.event.setResult code data }
      current := none
      deliveries := c.settled .delivered
      abort
      state := .idle
      receivingSince := none }
  | release :
    Does .release none { c with
      current := none, deliveries := c.settled .delivered, state := .idle, receivingSince := none }
  | expireReceiver :
    Does .expireReceiver none { c with
      current := none, deliveries := c.settled .timeout, state := .idle, receivingSince := none }
  | expire :
    Does .expire none { c with
      current := none
      deliveries := c.settled .timeout
      state := .idle
      expired := true
      receivingSince := none }
  | condemn : Does .expire none { c with expired := true }
  | ignore (op : Operation) (h : ∀ now, op ≠ .next now) : Does op none c

theorem does_next (now : Instant) : c.Does (.next now) (c.turn (.next now)) (c.next now).2 := by
  have h := c.next_cases now
  rw [turn]
  generalize c.next now = n at h ⊢
  obtain ⟨step, c'⟩ := n
  cases h with
  | aborted ha => exact .aborted now ha
  | overdue ha ho => exact .overdue now ha ho
  | overrun ha ho hf => exact .overrun now ha ho hf
  | deliver ha ho hr => exact .deliver now ha ho hr
  | exhausted ha ho hlen => exact .exhausted now ha ho hlen

theorem does_perform (op : Operation) : c.Does op (c.turn op) (c.perform op) := by
  cases op with
  | start now => exact .start now
  | next now => exact c.does_next now
  | skip =>
    rw [perform, skip_eq]
    exact .skip
  | beginReceiving now => exact .beginReceiving now
  | handedOff =>
    rw [perform, handedOff]
    split
    · exact .handedOff
    · exact .ignore _ (by simp)
  | finish r code data abort =>
    rw [perform]
    by_cases h : c.awaiting = some r
    · rw [finish_of_awaiting h]
      exact .finish h code data abort
    · rw [finish_of_not_awaiting h]
      exact .ignore _ (by simp)
  | release =>
    rw [perform]
    cases h : c.awaiting with
    | none =>
      rw [release, h]
      exact .ignore _ (by simp)
    | some r =>
      rw [release_of_awaiting h]
      exact .release
  | expireReceiver =>
    rw [perform]
    cases h : c.awaiting with
    | none =>
      rw [expireReceiver_of_not_awaiting h]
      exact .ignore _ (by simp)
    | some r =>
      rw [expireReceiver_of_awaiting h]
      exact .expireReceiver
  | expire =>
    rw [perform]
    cases h : c.awaiting with
    | none =>
      rw [expire, expireReceiver_of_not_awaiting (c := { c with expired := true }) h]
      exact .condemn
    | some r =>
      rw [expire_of_awaiting h]
      exact .expire

/-- What every operation leaves as it is: whom the chain goes to, the event up to its result pair,
the deliveries that are settled, and that it has expired. -/
structure Upholds (c c' : Chain) : Prop where
  id : c'.id = c.id
  receivers : c'.receivers = c.receivers
  event : c'.event = c.event.setResult c'.event.code c'.event.data
  sized : c'.deliveries.length = c.deliveries.length
  settled : ∀ (i : Nat) (d : DeliveryState), c.deliveries[i]? = some d → d ≠ .pending →
    c'.deliveries[i]? = some d
  expired : c.expired = true → c'.expired = true

structure Placed (c : Chain) : Prop where
  inside : ∀ i, c.current = some i → i < c.receivers.length
  vacant : c.abort = true → c.current = none

variable {c} {c' : Chain} {op : Operation} {turn : Option (SubscriberId × Nat)}

theorem Upholds.refl (c : Chain) : c.Upholds c :=
  ⟨rfl, rfl, rfl, rfl, fun _ _ h _ => h, fun h => h⟩

theorem Upholds.trans {c'' : Chain} (h : c.Upholds c') (h' : c'.Upholds c'') : c.Upholds c'' where
  id := h'.id.trans h.id
  receivers := h'.receivers.trans h.receivers
  event := by
    have he := h'.event
    rw [h.event] at he
    exact he
  sized := h'.sized.trans h.sized
  settled := fun i d hd hp => h'.settled i d (h.settled i d hd hp) hp
  expired := fun he => h'.expired (h.expired he)

theorem settled_of_settled {how d : DeliveryState} {i : Nat} (h : c.deliveries[i]? = some d)
    (hd : d ≠ .pending) : (c.settled how)[i]? = some d := by
  by_cases hc : c.current = some i
  · simp [settled, hc, h, hd]
  · rw [c.settled_of_ne hc, h]

theorem Upholds.settle {how : DeliveryState} (hd : c'.deliveries = c.settled how)
    (hid : c'.id = c.id) (hr : c'.receivers = c.receivers)
    (he : c'.event = c.event.setResult c'.event.code c'.event.data)
    (hx : c.expired = true → c'.expired = true) : c.Upholds c' where
  id := hid
  receivers := hr
  event := he
  sized := by rw [hd, length_settled]
  settled := by
    intro i d h hp
    rw [hd]
    exact settled_of_settled h hp
  expired := hx

theorem Does.upholds (h : c.Does op turn c') : c.Upholds c' := by
  cases h with
  | skip | finish | release | expireReceiver => exact .settle rfl rfl rfl rfl fun hx => hx
  | expire => exact .settle rfl rfl rfl rfl fun _ => rfl
  | overdue | condemn => exact ⟨rfl, rfl, rfl, rfl, fun _ _ h _ => h, fun _ => rfl⟩
  | _ => exact ⟨rfl, rfl, rfl, rfl, fun _ _ h _ => h, fun hx => hx⟩

theorem upholds_performAll (c : Chain) (ops : List Operation) : c.Upholds (c.performAll ops) := by
  induction ops generalizing c with
  | nil => exact .refl c
  | cons op rest ih => exact (c.does_perform op).upholds.trans (ih (c.perform op))

section Placed

theorem Placed.vacated (h : c.current = none) : c.Placed where
  inside := by
    intro i hi
    rw [h] at hi
    cases hi
  vacant := fun _ => h

theorem Placed.does (hp : c.Placed) (h : c.Does op turn c') : c'.Placed := by
  cases h with
  | deliver now ha ho hr =>
    refine ⟨?_, fun h => absurd (ha.symm.trans h) Bool.false_ne_true⟩
    intro i hi
    cases hi
    exact (List.getElem?_eq_some_iff.1 hr).1
  | start | beginReceiving | handedOff | condemn | ignore => exact ⟨hp.inside, hp.vacant⟩
  | _ => exact .vacated rfl

theorem Placed.performAll (hp : c.Placed) (ops : List Operation) : (c.performAll ops).Placed := by
  induction ops generalizing c with
  | nil => exact hp
  | cons op rest ih => exact ih (hp.does (c.does_perform op))

theorem Placed.receiver?_eq (hp : c.Placed) {i : Nat} (hi : c.current = some i) :
    ∃ hl : i < c.receivers.length, c.receiver? = some c.receivers[i] := by
  have hl := hp.inside i hi
  refine ⟨hl, ?_⟩
  rw [receiver?, hi]
  exact List.getElem?_eq_getElem hl

theorem Does.ended (h : c.Does op turn c') (hp : c.Placed)
    (he : c.expired = true ∨ c.abort = true) : c'.expired = true ∨ c'.abort = true := by
  cases h with
  | finish hr code data abort =>
    refine he.imp_right fun ha => ?_
    have hcurrent := (receiver_of_awaiting hr).2
    rw [receiver?, hp.vacant ha] at hcurrent
    cases hcurrent
  | overdue | condemn | expire => exact .inl rfl
  | _ => exact he

theorem Placed.spent (hp : c.Placed) (he : c.expired = true ∨ c.abort = true) : c.Spent := by
  intro ops now i r hn
  -- expiry alone would not do: a chain that was aborted never comes to expire
  induction ops generalizing c with
  | nil =>
    obtain ⟨ha, hx, -⟩ := next_deliver (Prod.ext hn rfl : c.next now = (.deliver i r, _))
    cases he with
    | inl h => exact Bool.false_ne_true (hx.symm.trans h)
    | inr h => exact Bool.false_ne_true (ha.symm.trans h)
  | cons op rest ih =>
    have hd := c.does_perform op
    exact ih (hp.does hd) (hd.ended hp he) hn

end Placed

theorem Does.expired_of_overdue {now : Instant} (h : c.Does (.next now) turn c')
    (ho : c.Overdue now) (ha : c.abort = false) : c'.expired = true := by
  cases h with
  | aborted now ha' => exact absurd (ha.symm.trans ha') Bool.false_ne_true
  | overdue => rfl
  | overrun now ha ho' | exhausted now ha ho' | deliver now ha ho' => exact absurd ho ho'
  | ignore op h => exact absurd rfl (h now)

theorem Does.abort_eq {now : Instant} (h : c.Does (.next now) turn c') : c'.abort = c.abort := by
  cases h with
  | _ => rfl

theorem Does.ended_of_overdue {now : Instant} (h : c.Does (.next now) turn c')
    (ho : c.Overdue now) : c'.expired = true ∨ c'.abort = true := by
  cases ha : c.abort with
  | false => exact .inl (h.expired_of_overdue ho ha)
  | true => exact .inr (h.abort_eq.trans ha)

theorem expired_of_expire (c : Chain) : c.expire.2.expired = true := by
  cases h : c.awaiting with
  | none => rw [expire, expireReceiver_of_not_awaiting (c := { c with expired := true }) h]
  | some r => rw [expire_of_awaiting h]

theorem Does.turns (h : c.Does op turn c') : turn.toList ++ c'.remaining = c.remaining := by
  cases h with
  | exhausted now ha ho h =>
    have hnone : ∀ n, c.receivers.length ≤ n → c.receivers.zipIdx.drop n = [] := by
      intro n hn
      exact List.drop_eq_nil_of_le (Nat.le_trans (Nat.le_of_eq List.length_zipIdx) hn)
    rw [remaining, remaining, hnone _ h, hnone _ (Nat.le_succ_of_le h)]
    rfl
  | @deliver now r ha ho hr =>
    obtain ⟨hl, rfl⟩ := List.getElem?_eq_some_iff.1 hr
    have hl' : c.cursor < c.receivers.zipIdx.length := List.length_zipIdx.symm ▸ hl
    rw [remaining, remaining, List.drop_eq_getElem_cons hl', List.getElem_zipIdx, Nat.zero_add]
    rfl
  | _ => rfl

theorem turns_append_remaining (c : Chain) (ops : List Operation) :
    c.turns ops ++ (c.performAll ops).remaining = c.remaining := by
  induction ops generalizing c with
  | nil => rfl
  | cons op rest ih =>
    rw [Chain.turns, List.append_assoc, ← (c.does_perform op).turns, ← ih (c.perform op)]
    rfl

theorem Does.event_eq (h : c.Does op turn c') : c'.event = c.event ∨
    ∃ r code data abort, op = .finish r code data abort ∧
      (c.finish r code data abort).1 = .accepted ∧ c'.event = c.event.setResult code data := by
  cases h with
  | @finish r hr code data abort =>
    refine .inr ⟨r, code, data, abort, rfl, ?_, rfl⟩
    rw [finish_of_awaiting hr]
  | _ => exact .inl rfl

/-- A chain keeps its rules in the hands of any caller: it stays with its receivers and its event;
a delivery that is settled stays so; whoever has the turn is one of the receivers; the turns are
given out in the order of the receivers, each once; only an accepted finish changes the result
pair; and once the chain has expired, or is asked for the next step when its budget is used up,
nobody gets a turn any more. -/
theorem rules_kept (id : ChainId) (copy : Copy) (sticky : Bool) (receivers : List SubscriberId)
    (receiverTimeout watchdogBudget : Duration) (finalReceiver : Option Receiver)
    (ops : List Operation) :
    let made := ofReceivers id copy sticky receivers receiverTimeout watchdogBudget finalReceiver
    let c := made.performAll ops
    (c.id = id ∧ c.receivers = receivers ∧
      c.event = copy.event.setResult c.event.code c.event.data ∧
      c.deliveries.length = receivers.length) ∧
    (∀ (more : List Operation) (i : Nat) (d : DeliveryState),
      c.deliveries[i]? = some d → d ≠ .pending → (c.performAll more).deliveries[i]? = some d) ∧
    (∀ i, c.current = some i → ∃ h : i < receivers.length, c.receiver? = some receivers[i]) ∧
    made.turns ops <+: receivers.zipIdx ∧
    (∀ op, (c.perform op).event ≠ c.event → ∃ r code data abort,
      op = .finish r code data abort ∧ (c.finish r code data abort).1 = .accepted ∧
        (c.perform op).event = c.event.setResult code data) ∧
    (c.expired = true → c.Spent) ∧ c.expire.2.expired = true ∧
    ∀ now, due c.watchdogDeadline now = true →
      (c.next now).2.Spent ∧ (c.abort = false → (c.next now).2.expired = true) := by
  intro made c
  have hu : made.Upholds c := made.upholds_performAll ops
  have hp : c.Placed := (Placed.vacated (c := made) rfl).performAll ops
  refine ⟨⟨hu.id, hu.receivers, hu.event, hu.sized.trans (List.length_map _)⟩,
    fun more => (c.upholds_performAll more).settled, ?_, ?_, ?_, fun he => hp.spent (.inl he), ?_,
    ?_⟩
  · intro i hi
    have hr : c.receivers = receivers := hu.receivers
    rw [← hr]
    exact hp.receiver?_eq hi
  · exact ⟨_, made.turns_append_remaining ops⟩
  · intro op hne
    exact (c.does_perform op).event_eq.resolve_left hne
  · exact c.expired_of_expire
  · intro now hd
    have hdoes := c.does_perform (.next now)
    exact ⟨(hp.does hdoes).spent (hdoes.ended_of_overdue (.inr hd)),
      hdoes.expired_of_overdue (.inr hd)⟩

end EventBroker.Chain
