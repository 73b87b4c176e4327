import Mathlib.Data.List.TakeDrop
import EventBroker.Proofs.Following
import EventBroker.Record

namespace EventBroker

/-- How a delivery ended: its finish was accepted, or it was released, or a deadline passed, or the
receiver did not get the event at its turn. -/
inductive Fate
  | finished (abort : Bool)
  | released
  | timedOut
  | expired
  | gone
  | held
  | failed
  deriving DecidableEq

namespace Fate

def state : Fate → DeliveryState
  | finished _ | released => .delivered
  | timedOut | expired => .timeout
  | gone | held | failed => .skipped

def kind? : Fate → Option RecordKind
  | finished _ | released | gone => none
  | timedOut => some .receiverTimedOut
  | expired => some .watchdogFired
  | held => some .eventFrozen
  | failed => some .deliveryFailed

def aborts : Fate → Bool
  | finished abort => abort
  | _ => false

def ledger (n : Nat) (ended : List Fate) : List DeliveryState :=
  ended.map state ++ List.replicate (n - ended.length) .pending

theorem length_ledger {n : Nat} {ended : List Fate} (h : ended.length ≤ n) :
    (ledger n ended).length = n := by
  rw [ledger, List.length_append, List.length_map, List.length_replicate]
  omega

theorem ledger_settle {n : Nat} {ended : List Fate} (h : ended.length < n) (f : Fate) :
    (ledger n ended).modify ended.length (fun s => if s = .pending then f.state else s) =
      ledger n (ended ++ [f]) := by
  obtain ⟨k, rfl⟩ := Nat.exists_eq_add_of_lt h
  have hleft : ended.length + k + 1 - ended.length = k + 1 := by omega
  have hleft' : ended.length + k + 1 - (ended.length + 1) = k := by omega
  have hat := List.modifyTailIdx_add
    (List.modifyHead fun s => if s = DeliveryState.pending then f.state else s) 0
    (ended.map state) (List.replicate (k + 1) .pending)
  rw [List.length_map, Nat.add_zero] at hat
  rw [ledger, ledger, hleft, List.length_append, List.length_singleton, hleft', List.map_append,
    List.append_assoc]
  exact hat

end Fate

/-- The reason for which a chain to `n` receivers is finished goes with how its deliveries ended. -/
structure FinishReason.Fits (reason : FinishReason) (n : Nat) (ended : List Fate) : Prop where
  exhausted : reason = .exhausted → ended.length = n
  aborted : reason = .aborted ↔ ended.getLast?.any Fate.aborts = true

namespace Chain

structure Kept (c : Chain) (ended : List (SubscriberId × Fate)) : Prop where
  whom : ended.map Prod.fst <+: c.receivers
  deliveries : c.deliveries = Fate.ledger c.receivers.length (ended.map Prod.snd)

/-- Between two receivers the next is the one after those whose deliveries have ended; otherwise it
is that one which the chain is at. -/
structure Posted (c : Chain) (ended : List (SubscriberId × Fate)) : Prop extends c.Kept ended where
  abort : c.abort = (ended.map Prod.snd).getLast?.any Fate.aborts
  idle : c.state = .idle → c.current = none ∧ c.cursor = ended.length
  engaged : c.state ≠ .idle →
    c.current = some ended.length ∧ c.cursor = ended.length + 1 ∧ c.abort = false

variable {c c' : Chain} {ended : List (SubscriberId × Fate)} {r : SubscriberId} {f : Fate}

theorem Kept.settle (h : c.Kept ended) (hr : c.receivers[ended.length]? = some r)
    (hc : c.current = some ended.length) (hreceivers : c'.receivers = c.receivers)
    (hd : c'.deliveries = c.settled f.state) : c'.Kept (ended ++ [(r, f)]) := by
  obtain ⟨hlt, hget⟩ := List.getElem?_eq_some_iff.1 hr
  constructor
  · rw [hreceivers, List.map_append, List.map_singleton, ← hget]
    have hwhom := List.prefix_iff_eq_take.1 h.whom
    rw [List.length_map] at hwhom
    rw [hwhom, List.take_append_getElem]
    exact List.take_prefix _ _
  · have hlen : (ended.map Prod.snd).length < c.receivers.length := by
      rwa [List.length_map]
    have hledger := Fate.ledger_settle hlen f
    rw [List.length_map] at hledger
    rw [hd, hreceivers, settled, hc, h.deliveries, List.map_append]
    exact hledger

@[simp] theorem deliveries_next (c : Chain) (now : Instant) :
    (c.next now).2.deliveries = c.deliveries := by
  have h := c.next_cases now
  generalize c.next now = n at h ⊢
  obtain ⟨step, c'⟩ := n
  cases h <;> rfl

theorem current_of_finalize {now : Instant} {reason : FinishReason}
    (h : c.next now = (.finalize reason, c')) : c'.current = none := by
  cases next_of_eq h <;> rfl

theorem Fresh.posted (h : c.Fresh) (now : Instant) : (c.start now).Posted [] := by
  cases h with
  | mk id copy sticky receivers receiverTimeout watchdogBudget finalReceiver =>
    refine ⟨⟨List.nil_prefix, ?_⟩, rfl, fun _ => ⟨rfl, rfl⟩, fun h => absurd rfl h⟩
    exact List.map_const' ..

namespace Posted

theorem length_lt (h : c.Posted ended) (hs : c.state ≠ .idle) (hr : c.receiver? = some r) :
    c.receivers[ended.length]? = some r := by
  rw [receiver?, (h.engaged hs).1] at hr
  exact hr

theorem settle (h : c.Posted ended) (hs : c.state ≠ .idle) (hr : c.receiver? = some r)
    (hreceivers : c'.receivers = c.receivers) (hd : c'.deliveries = c.settled f.state)
    (hidle : c'.state = .idle ∧ c'.current = none) (hcursor : c'.cursor = c.cursor)
    (habort : c'.abort = f.aborts) : c'.Posted (ended ++ [(r, f)]) := by
  obtain ⟨hc, hn, -⟩ := h.engaged hs
  refine ⟨h.toKept.settle (h.length_lt hs hr) hc hreceivers hd, ?_, fun _ => ?_,
    fun h => absurd hidle.1 h⟩
  · rw [habort, List.map_append, List.map_singleton, List.getLast?_concat]
    rfl
  · rw [List.length_append, List.length_singleton, hcursor, hn]
    exact ⟨hidle.2, rfl⟩

theorem finish (h : c.Posted ended) (hr : c.awaiting = some r) (code : Int) (data : String)
    (abort : Bool) : (c.finish r code data abort).2.Posted (ended ++ [(r, .finished abort)]) := by
  obtain ⟨hs, hrec⟩ := receiver_of_awaiting hr
  rw [finish_of_awaiting hr]
  exact h.settle hs hrec rfl rfl ⟨rfl, rfl⟩ rfl rfl

theorem release (h : c.Posted ended) (hr : c.awaiting = some r) :
    c.release.2.Posted (ended ++ [(r, .released)]) := by
  obtain ⟨hs, hrec⟩ := receiver_of_awaiting hr
  rw [release_of_awaiting hr]
  exact h.settle hs hrec rfl rfl ⟨rfl, rfl⟩ rfl (h.engaged hs).2.2

theorem expireReceiver (h : c.Posted ended) (hr : c.awaiting = some r) :
    c.expireReceiver.2.Posted (ended ++ [(r, .timedOut)]) := by
  obtain ⟨hs, hrec⟩ := receiver_of_awaiting hr
  rw [expireReceiver_of_awaiting hr]
  exact h.settle hs hrec rfl rfl ⟨rfl, rfl⟩ rfl (h.engaged hs).2.2

theorem expire (h : c.Posted ended) (hr : c.awaiting = some r) :
    c.expire.2.Posted (ended ++ [(r, .expired)]) := by
  obtain ⟨hs, hrec⟩ := receiver_of_awaiting hr
  rw [expire_of_awaiting hr]
  exact h.settle hs hrec rfl rfl ⟨rfl, rfl⟩ rfl (h.engaged hs).2.2

theorem fail (h : c.Posted ended) (hs : c.state ≠ .idle) (hr : c.receiver? = some r) :
    c.skip.Posted (ended ++ [(r, .failed)]) := by
  rw [skip_eq]
  exact h.settle hs hr rfl rfl ⟨rfl, rfl⟩ rfl (h.engaged hs).2.2

theorem handedOff (h : c.Posted ended) : c.handedOff.Posted ended := by
  rw [Chain.handedOff]
  split
  · rename_i hs
    obtain ⟨hc, hn, ha⟩ := h.engaged (by simp [hs])
    refine ⟨⟨h.whom, h.deliveries⟩, h.abort, fun h => ?_, fun _ => ⟨hc, hn, ha⟩⟩
    cases h
  · exact h

section Next

variable {now : Instant} {i : Nat} (h : c.Posted ended) (hs : c.state = .idle)
  (hn : c.next now = (.deliver i r, c'))

include h hs hn

theorem receiving : (c'.beginReceiving now).Posted ended := by
  obtain ⟨-, hcursor⟩ := h.idle hs
  obtain ⟨ha, -, -, -, -, rfl⟩ := next_deliver hn
  refine ⟨⟨h.whom, h.deliveries⟩, h.abort, fun h => absurd h nofun, fun _ => ?_⟩
  exact ⟨congrArg some hcursor, congrArg (· + 1) hcursor, ha⟩

theorem pass (hf : f = .gone ∨ f = .held) : c'.skip.Posted (ended ++ [(r, f)]) := by
  have hstate : f.state = .skipped ∧ f.aborts = false := by
    obtain rfl | rfl := hf
    · exact ⟨rfl, rfl⟩
    · exact ⟨rfl, rfl⟩
  obtain ⟨-, hcursor⟩ := h.idle hs
  obtain ⟨ha, -, -, -, hr, rfl⟩ := next_deliver hn
  rw [hcursor] at hr
  have hkept : Kept { c with
      state := .idle, cursor := c.cursor + 1, current := some c.cursor } ended :=
    ⟨h.whom, h.deliveries⟩
  rw [skip_eq]
  refine ⟨hkept.settle hr (congrArg some hcursor) rfl (by rw [hstate.1]), ?_, fun _ => ?_,
    fun h => absurd rfl h⟩
  · rw [List.map_append, List.map_singleton, List.getLast?_concat]
    exact ha.trans hstate.2.symm
  · rw [List.length_append, List.length_singleton]
    exact ⟨rfl, congrArg (· + 1) hcursor⟩

end Next

theorem finalize {now : Instant} {reason : FinishReason} (h : c.Posted ended)
    (hs : c.state = .idle) (hn : c.next now = (.finalize reason, c')) :
    c'.Kept ended ∧ reason.Fits c.receivers.length (ended.map Prod.snd) := by
  obtain ⟨-, -, -, hreceivers, -, habort, hexhausted⟩ := next_finalize hn
  have hdeliveries := c.deliveries_next now
  rw [hn] at hdeliveries
  refine ⟨⟨?_, ?_⟩, ⟨fun hr => ?_, ?_⟩⟩
  · rw [hreceivers]
    exact h.whom
  · rw [hreceivers]
    exact hdeliveries.trans h.deliveries
  · have hle := h.whom.length_le
    rw [List.length_map] at hle ⊢
    exact Nat.le_antisymm hle ((h.idle hs).2 ▸ hexhausted hr)
  · rw [← habort, h.abort]

end Posted

end Chain

end EventBroker
