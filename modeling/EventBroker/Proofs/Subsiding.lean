import EventBroker.Proofs.Airing
import EventBroker.Proofs.Workload

namespace EventBroker

open Observers (Motion Output)

section Costs

/-! What an item costs until nothing is left to do about it, with `n` observers. -/

def lagCost (n : Nat) : Nat := 2 * n + 1

def lossCost (n : Nat) : Nat := (2 * n + 1) + lagCost n

def breakdownCost (n : Nat) : Nat := n * (2 + lossCost n) + 1 + lagCost n

namespace Record

variable (n : Nat) (r : Record)

def showCost : Nat := if r.isReport then 2 else 2 + breakdownCost n

def emitCost : Nat := n * (r.showCost n + if r.isObserverOverflow then 0 else lossCost n)

end Record

namespace Observer

variable (n : Nat) (o : Observer)

def cost : Nat :=
  (o.queue.map (Record.showCost n)).sum + o.busy.elim 0 (fun r => r.showCost n - 1) +
    if o.stopped then 0 else 1

end Observer

def Reader.cost (n : Nat) (r : Reader Record) : Nat :=
  (r.unread.map fun r => r.emitCost n + 1).sum + if r.missed = 0 then 0 else lagCost n

namespace Broker

variable (b : Broker)

def listenerCost : Nat :=
  match b.listener with
  | none => 0
  | some l =>
    match l.stage with
    | .listening => 2 + (b.bus.readers[l.reader]?).elim 0 (Reader.cost b.observers.members.length)
    | .draining => 1
    | .stopped => 0

def observerLoad : Nat :=
  (b.observers.members.map (Observer.cost b.observers.members.length)).sum + b.listenerCost

end Broker

end Costs

section Laws

variable {n : Nat}

theorem Record.two_le_showCost (n : Nat) (r : Record) : 2 ≤ r.showCost n := by
  rw [showCost]
  split <;> omega

theorem Record.emitCost_overflow {r : Record} (h : r.kind = .observerOverflow) :
    r.emitCost n + 1 + lagCost n = lossCost n := by
  simp [emitCost, showCost, isReport, isObserverOverflow, h, lossCost, Nat.mul_comm]

theorem Record.emitCost_panicked {r : Record} (h : r.kind = .observerPanicked) :
    r.emitCost n + 1 + lagCost n = breakdownCost n := by
  simp [emitCost, showCost, isReport, isObserverOverflow, h, breakdownCost]

theorem Reader.cost_offer (room : Nat) (r : Record) (reader : Reader Record) :
    (reader.offer room r).cost n ≤ reader.cost n + (r.emitCost n + 1 + lagCost n) := by
  have htail (l : List Record) : (l.tail.map fun r => r.emitCost n + 1).sum ≤
      (l.map fun r => r.emitCost n + 1).sum := by
    cases l <;> simp
  rw [Reader.offer]
  split
  · simp only [cost, List.map_append, List.sum_append, List.map_cons, List.map_nil, List.sum_cons,
      List.sum_nil]
    omega
  · have := htail reader.unread
    simp only [cost, List.map_append, List.sum_append, List.map_cons, List.map_nil, List.sum_cons,
      List.sum_nil]
    split <;> split <;> omega

theorem Bus.cost_publish (bus : Bus Record) (r : Record) (i : Nat) :
    ((bus.publish r).readers[i]?).elim 0 (Reader.cost n) ≤
      (bus.readers[i]?).elim 0 (Reader.cost n) + (r.emitCost n + 1 + lagCost n) := by
  rw [publish, List.getElem?_map]
  cases bus.readers[i]? with
  | none => exact Nat.zero_le _
  | some reader => exact Reader.cost_offer bus.capacity r reader

theorem Bus.cost_foldl {rs : List Record} (h : ∀ r ∈ rs, r.kind = .observerOverflow)
    (bus : Bus Record) (i : Nat) :
    ((rs.foldl publish bus).readers[i]?).elim 0 (Reader.cost n) ≤
      (bus.readers[i]?).elim 0 (Reader.cost n) + rs.length * lossCost n := by
  induction rs generalizing bus with
  | nil => simp
  | cons r rest ih =>
    have hr := bus.cost_publish (n := n) r i
    have hrest := ih (fun r' hr' => h r' (List.mem_cons_of_mem _ hr')) (bus.publish r)
    rw [Record.emitCost_overflow (h r List.mem_cons_self)] at hr
    rw [List.foldl_cons, List.length_cons, Nat.add_mul]
    omega

theorem Bus.cost_take {bus : Bus Record} {i : Nat} {r : Record}
    (h : Broker.forwarded (bus.take i).1 = some r) :
    ((bus.take i).2.readers[i]?).elim 0 (Reader.cost n) + r.emitCost n + 1 =
      (bus.readers[i]?).elim 0 (Reader.cost n) := by
  simp only [take] at h ⊢
  cases hr : bus.readers[i]? with
  | none =>
    rw [hr] at h
    cases h
  | some reader =>
    have hi := (List.getElem?_eq_some_iff.1 hr).1
    rw [hr] at h
    simp only [List.getElem?_set_self hi, Option.elim_some]
    by_cases hm : reader.missed = 0
    · cases hu : reader.unread with
      | nil => simp [Reader.take, hm, hu, Broker.forwarded] at h
      | cons a rest =>
        simp [Reader.take, hm, hu, Broker.forwarded] at h
        subst h
        simp [Reader.take, Reader.cost, hm, hu]
        omega
    · simp [Reader.take, hm, Broker.forwarded] at h
      subst h
      simp [Reader.take, Reader.cost, hm, Record.emitCost, Record.showCost, Record.isReport,
        Record.isObserverOverflow, Record.observerOverflow, lagCost]
      omega

namespace Observer

variable {o : Observer}

theorem cost_offer (r : Record) (o : Observer) :
    (Observers.offer r 0 o).2.cost n + (o.report? r).toList.length * lossCost n ≤
      o.cost n + (r.showCost n + if r.isObserverOverflow then 0 else lossCost n) := by
  have hlost (reason : String) :
      (Observers.overflowReport r o.name reason).toList.length * lossCost n ≤
        if r.isObserverOverflow then 0 else lossCost n := by
    rw [Observers.overflowReport]
    split <;> simp
  rw [Observers.offer, report?]
  split
  · have := hlost "closed"
    dsimp only
    omega
  · split
    · have := hlost "full"
      dsimp only
      omega
    · simp only [cost, List.map_append, List.sum_append, List.map_cons, List.map_nil, List.sum_cons,
        List.sum_nil, Option.toList_none, List.length_nil]
      omega

theorem cost_worked {closed : Bool} (hb : (o.stopped || o.busy.isSome) = false)
    (h : o.queue ≠ [] ∨ closed = true) : (o.worked closed).cost n + 1 = o.cost n := by
  obtain ⟨hs, hbusy⟩ := Bool.or_eq_false_iff.1 hb
  have hnone : o.busy = none := by simpa using hbusy
  rw [worked, hb]
  simp only [Bool.false_eq_true, if_false]
  split
  · rename_i r rest hq
    have := r.two_le_showCost n
    simp only [cost, hq, hs, hnone, List.map_cons, List.sum_cons, Option.elim_some,
      Option.elim_none, Bool.false_eq_true, if_false]
    omega
  · rename_i hq
    have hc : closed = true := h.resolve_left fun h => h hq
    simp [cost, hq, hs, hnone, hc]

theorem cost_done {r : Record} (h : o.busy = some r) :
    cost n { o with busy := none } + (r.showCost n - 1) = o.cost n := by
  simp only [cost, h, Option.elim_some, Option.elim_none]
  omega

end Observer

theorem sum_map_set (f : Observer → Nat) {members : List Observer} {i : Nat} {o : Observer}
    (h : members[i]? = some o) (o' : Observer) :
    ((members.set i o').map f).sum + f o = (members.map f).sum + f o' := by
  induction members generalizing i with
  | nil => cases h
  | cons head rest ih =>
    cases i with
    | zero =>
      cases h
      simp only [List.set_cons_zero, List.map_cons, List.sum_cons]
      omega
    | succ i =>
      have := ih (i := i) h
      simp only [List.set_cons_succ, List.map_cons, List.sum_cons]
      omega

namespace Observers

theorem members_emit (os : Observers) (r : Record) :
    (os.emit r).2.members = os.members.map fun o => (offer r 0 o).2 := by
  apply List.ext_getElem?
  intro i
  rw [getElem?_emit, List.getElem?_map]

theorem cost_emit (os : Observers) (r : Record) :
    ((os.emit r).2.members.map (Observer.cost n)).sum +
        (os.members.filterMap (·.report? r)).length * lossCost n ≤
      (os.members.map (Observer.cost n)).sum +
        os.members.length * (r.showCost n + if r.isObserverOverflow then 0 else lossCost n) := by
  rw [members_emit]
  induction os.members with
  | nil => simp
  | cons o rest ih =>
    have ho := Observer.cost_offer (n := n) r o
    have hsplit : ((o :: rest).filterMap (·.report? r)).length =
        (o.report? r).toList.length + (rest.filterMap (·.report? r)).length := by
      cases hr : o.report? r <;> simp [hr, Nat.add_comm]
    simp only [hsplit, List.map_cons, List.sum_cons, List.length_cons, Nat.add_mul, Nat.one_mul]
    omega

theorem work_isSome {os : Observers} {i : Nat} {x : Progress × Observers} (h : os.work i = some x) :
    ∃ o, os.members[i]? = some o ∧ (o.stopped || o.busy.isSome) = false ∧
      (o.queue ≠ [] ∨ os.closed = true) := by
  rw [work] at h
  split at h
  · cases h
  · rename_i o ho
    refine ⟨o, ho, ?_⟩
    split at h
    · cases h
    · rename_i hb
      refine ⟨Bool.not_eq_true _ ▸ hb, ?_⟩
      split at h
      · rename_i hq
        exact .inl (by simp [hq])
      · split at h
        · exact .inr ‹_›
        · cases h

end Observers

namespace Broker

variable {b b' : Broker}

theorem observerLoad_of_listener (hl : b'.listener = b.listener) (hb : b'.bus = b.bus)
    (hn : b'.observers.members.length = b.observers.members.length) :
    b'.listenerCost = b.listenerCost := by
  rw [listenerCost, listenerCost, hl, hb, hn]

theorem listenerCost_listening {l : Listener} (hl : b.listener = some l)
    (hs : l.stage = .listening) : b.listenerCost =
      2 + (b.bus.readers[l.reader]?).elim 0 (Reader.cost b.observers.members.length) := by
  rw [listenerCost, hl]
  dsimp only
  rw [hs]

theorem observerLoad_listens (h : b.Listens b') : b'.observerLoad < b.observerLoad := by
  cases h with
  | @forward l r hl hs hc hr =>
    obtain ⟨hl', ho, hb, -⟩ := offer_reports { b with bus := (b.bus.take l.reader).2 } r
    generalize offer { b with bus := (b.bus.take l.reader).2 } r = b' at hl' ho hb
    dsimp only at hl' ho hb
    have hn : b'.observers.members.length = b.observers.members.length := by
      rw [ho]
      exact b.observers.length_step (.emit r)
    have hemit := b.observers.cost_emit (n := b.observers.members.length) r
    have htake := Bus.cost_take (n := b.observers.members.length) hr
    have hreports : ∀ report ∈ b.observers.members.filterMap (·.report? r),
        report.kind = .observerOverflow := by
      intro report hm
      obtain ⟨o, -, ho⟩ := List.mem_filterMap.1 hm
      exact Observer.report?_kind ho
    have hpublish := Bus.cost_foldl (n := b.observers.members.length) hreports
      (b.bus.take l.reader).2 l.reader
    rw [← Record.emitCost] at hemit
    rw [← hb] at hpublish
    rw [observerLoad, observerLoad, listenerCost_listening (hl'.trans hl) hs,
      listenerCost_listening hl hs, hn, ho]
    omega
  | @drain l hl hs hc =>
    obtain ⟨hl', ho, hb, -⟩ := foldl_wake (List.range b.observers.members.length)
      ({ b with observers := b.observers.close }.setListener { l with stage := .draining })
    rw [observerLoad, observerLoad, listenerCost_listening hl hs, ho, listenerCost, hl']
    dsimp only [setListener, Observers.close]
    omega
  | @stop l hl hs ho =>
    rw [observerLoad, observerLoad, listenerCost, listenerCost, hl]
    dsimp only [note, setListener]
    rw [hs]
    exact Nat.lt_succ_self _

theorem observerLoad_observerStep {i : Nat} (h : b.observerStep i = some b') :
    b'.observerLoad < b.observerLoad := by
  obtain ⟨hl, hb, ho, -⟩ := observerStep_eq h
  obtain ⟨o, hi, hidle, hdo⟩ : ∃ o, b.observers.members[i]? = some o ∧
      (o.stopped || o.busy.isSome) = false ∧ (o.queue ≠ [] ∨ b.observers.closed = true) := by
    rw [observerStep] at h
    split at h
    · cases h
    · exact Observers.work_isSome ‹_›
    · exact Observers.work_isSome ‹_›
  have hn : b'.observers.members.length = b.observers.members.length := by
    rw [ho]
    exact b.observers.length_step (.work i)
  have hsum := sum_map_set (Observer.cost b.observers.members.length) hi
    (o.worked b.observers.closed)
  have hcost := Observer.cost_worked (n := b.observers.members.length) hidle hdo
  rw [observerLoad, observerLoad, observerLoad_of_listener hl hb hn, hn, ho,
    Observers.step_work _ hi]
  dsimp only
  omega

theorem observerLoad_observerConclude {i : Nat} {o : Observer} {r : Record} {panic : Option Panic}
    (hi : b.observers.members[i]? = some o) (hbusy : o.busy = some r)
    (hp : panic = none ∨ r.isReport = false) :
    (b.observerConclude i panic).observerLoad < b.observerLoad := by
  obtain ⟨hl, ho, hb, -⟩ := b.observerConclude_eq i panic
  have hreport : (b.observers.done i panic).1 =
      panic.map fun p => .observerPanicked o.name p.describe := by
    simp [Observers.done, hi, hbusy]
  have hn : (b.observerConclude i panic).observers.members.length =
      b.observers.members.length := by
    rw [ho]
    exact b.observers.length_step (.done i panic)
  have hsum := sum_map_set (Observer.cost b.observers.members.length) hi { o with busy := none }
  have hdone := Observer.cost_done (n := b.observers.members.length) hbusy
  have hshow := r.two_le_showCost b.observers.members.length
  rw [hreport] at hb
  generalize b.observerConclude i panic = b' at hl ho hb hn
  rw [observerLoad, observerLoad, hn, ho, Observers.step_done _ hi]
  dsimp only
  cases panic with
  | none =>
    rw [observerLoad_of_listener hl hb hn]
    omega
  | some p =>
    have hreport : r.isReport = false := hp.resolve_left fun h => by cases h
    have hcost : r.showCost b.observers.members.length =
        2 + breakdownCost b.observers.members.length := by
      rw [Record.showCost, hreport]
      rfl
    have hlistener : b'.listenerCost ≤
        b.listenerCost + breakdownCost b.observers.members.length := by
      have hpublish (l : Listener) := b.bus.cost_publish (n := b.observers.members.length)
        (.observerPanicked o.name p.describe) l.reader
      simp only [Record.emitCost_panicked (r := .observerPanicked o.name p.describe) rfl]
        at hpublish
      rw [listenerCost, listenerCost, hl, hn]
      change b'.bus = b.bus.publish _ at hb
      rw [hb]
      cases b.listener with
      | none => exact Nat.zero_le _
      | some l =>
        obtain ⟨reader, stage⟩ := l
        have := hpublish ⟨reader, stage⟩
        cases stage with
        | listening =>
          dsimp only at this ⊢
          omega
        | _ => exact Nat.le_add_right _ _
    omega

end Broker

end Laws

/-- A caller asks for something. What follows of it needs no further request. -/
def Action.requests : Action → Bool
  | .work _ | .handedOff _ _ | .observed _ _ | .resume _ | .tick _ | .setOracle _ => false
  | _ => true

namespace Broker

def strides (b : Broker) : Action → Bool
  | .work w => (b.work w).isSome
  | .handedOff w _ => (b.handoff? w).isSome
  | .observed i _ => (b.observers.members[i]?.bind (·.busy)).isSome
  | .resume call => (b.resume call).isSome
  | .tick _ | .setOracle _ => false
  | _ => true

/-- An observer breaks down over a report. -/
def relapses (b : Broker) : Action → Bool
  | .observed i (some _) => (b.observers.members[i]?.bind (·.busy)).any Record.isReport
  | _ => false

def Rests (b b' : Broker) : Prop := { b' with now := b.now, oracle := b.oracle } = b

/-- What is left to do: first for calls in progress, then for couriers and sequencer, then for the
listener and the observers. -/
def left (b : Broker) : Nat × Nat × Nat := (b.callsLeft, b.view.workload, b.observerLoad)

def Less : Nat × Nat × Nat → Nat × Nat × Nat → Prop := Prod.Lex (· < ·) (Prod.Lex (· < ·) (· < ·))

theorem less_wf : WellFounded Less :=
  (Prod.lex Nat.lt_wfRel (Prod.lex Nat.lt_wfRel Nat.lt_wfRel)).wf

section Acting

variable {b : Broker} {a : Action}

theorem rests_of_not_strides (h : b.strides a = false) : b.Rests (b.act a) := by
  cases a with
  | work w =>
    have hw : b.work w = none := by simpa [strides] using h
    change b.Rests ((b.work w).getD b)
    rw [hw]
    rfl
  | resume call =>
    have hr : b.resume call = none := by simpa [strides] using h
    change b.Rests (((b.resume call).map (·.2)).getD b)
    rw [hr]
    rfl
  | handedOff w reception =>
    have hn : b.handoff? w = none := by simpa [strides] using h
    have same : b.conclude w reception = b := by
      cases w with
      | courier lane =>
        cases hc : (b.queue lane).courier with
        | handing n left => simp [handoff?, hc] at hn
        | _ => simp only [conclude, courierConclude, hc]
      | sequencer =>
        cases hs : b.sequencer.stage with
        | handing n index => simp [handoff?, hs] at hn
        | closing n c reason => simp [handoff?, hs] at hn
        | _ => simp only [conclude, sequencerConclude, hs]
      | _ => rfl
    change b.Rests (b.conclude w reception)
    rw [same]
    rfl
  | observed i panic =>
    have same : b.observerConclude i panic = b := by
      simp only [strides] at h
      rw [observerConclude, Observers.done]
      cases ho : b.observers.members[i]? with
      | none => rfl
      | some o =>
        have hbusy : o.busy = none := by simpa [ho] using h
        simp [hbusy]
    change b.Rests (b.observerConclude i panic)
    rw [same]
    rfl
  | tick now => rfl
  | setOracle o => rfl
  | _ => cases h

theorem Rests.same {α : Type} {b' : Broker} (h : b.Rests b') (f : Broker → α)
    (hf : ∀ (c : Broker) (now : Instant) (oracle : Oracle), f { c with now, oracle } = f c) :
    f b' = f b := by
  rw [← hf b' b.now b.oracle, h]

theorem left_of_rests {b' : Broker} (h : b.Rests b') : b'.left = b.left :=
  h.same left fun _ _ _ => rfl

theorem less_of_observers {b' : Broker} (hd : b'.desk = b.desk) (hv : b'.view = b.view)
    (h : b'.observerLoad < b.observerLoad) : Less b'.left b.left := by
  rw [left, left, callsLeft_of_waits (waits_of_desk hd), hv]
  exact .right _ (.right _ h)

theorem less_of_workers {b' : Broker} (hw : b'.waits = b.waits)
    (h : b'.view.workload < b.view.workload) : Less b'.left b.left := by
  rw [left, left, callsLeft_of_waits hw]
  exact .right _ (.left _ _ h)

theorem less_of_strides (hs : b.strides a = true) (hq : a.requests = false)
    (hr : b.relapses a = false) (hv : b.view.Sound) : Less (b.act a).left b.left := by
  cases a with
  | work w =>
    obtain ⟨b', hb⟩ := Option.isSome_iff_exists.1 hs
    have hact : b.act (.work w) = b' := congrArg (Option.getD · b) hb
    rw [hact]
    cases w with
    | listener =>
      exact less_of_observers (desk_listenerStep hb) (listenerStep_view hb)
        (observerLoad_listens (listens hb))
    | observer i =>
      exact less_of_observers (desk_observerStep hb) (observerStep_view hb)
        (observerLoad_observerStep hb)
    | courier lane =>
      exact less_of_workers (waits_of_desk (desk_courierStep hb))
        (courierStep_carries hb).workload_lt
    | sequencer =>
      obtain ⟨evs, hm⟩ := sequencerStep_moves hb
      exact less_of_workers (waits_sequencerStep hb) (hm.workload_lt hv.sequencer)
  | handedOff w reception =>
    obtain ⟨n, hn⟩ := Option.isSome_iff_exists.1 hs
    cases w with
    | courier lane =>
      rw [handoff?] at hn
      split at hn
      · rename_i hc
        exact less_of_workers (waits_of_desk (b.desk_courierConclude lane reception.result))
          (b.handed_carries hc reception.result).workload_lt
      · cases hn
    | sequencer =>
      have hwaits : (b.sequencerConclude reception.result).waits = b.waits :=
        waits_of_calls (congrArg Desk.calls (b.desk_sequencerConclude reception.result))
      have moved {evs : List ChainEvent}
          (hm : b.view.Moves evs (b.sequencerConclude reception.result).view) :
          Less (b.sequencerConclude reception.result).left b.left :=
        less_of_workers hwaits (hm.workload_lt hv.sequencer)
      rw [handoff?] at hn
      split at hn
      · rename_i hh
        exact moved (b.handing_moves hh reception.result).choose_spec
      · rename_i hc
        exact moved (b.closing_moves hc reception.result).choose_spec
      · cases hn
    | _ => cases hn
  | observed i panic =>
    obtain ⟨r, hbusy⟩ := Option.isSome_iff_exists.1 hs
    obtain ⟨o, ho, hbusy⟩ := Option.bind_eq_some_iff.1 hbusy
    refine less_of_observers (b.desk_observerConclude i panic) (b.observerConclude_view i panic)
      (observerLoad_observerConclude ho hbusy ?_)
    -- The report of a breakdown costs less than the record it was over, unless that is a report.
    cases panic with
    | none => exact .inl rfl
    | some p =>
      refine .inr ?_
      simpa [relapses, ho, hbusy] using hr
  | resume call =>
    obtain ⟨x, hx⟩ := Option.isSome_iff_exists.1 hs
    have hact : b.act (.resume call) = x.2 := congrArg (fun y => (y.map (·.2)).getD b) hx
    rw [hact]
    exact .left _ _ (callsLeft_resume (p := x.1) hx)
  | tick now => cases hs
  | setOracle o => cases hs
  | _ => cases hq

end Acting

def after (b : Broker) (schedule : Nat → Action) (n : Nat) : Broker :=
  b.run ((List.range n).map schedule)

theorem after_succ (b : Broker) (schedule : Nat → Action) (n : Nat) :
    b.after schedule (n + 1) = (b.after schedule n).act (schedule n) := by
  rw [after, List.range_succ, List.map_append, run_append]
  rfl

/-- The listener and each of the observers have a turn again and again, and every call of an
observer ends at last. -/
structure Attended (observers : Nat) (schedule : Nat → Action) : Prop where
  listener : ∀ m, ∃ n, m ≤ n ∧ schedule n = .work .listener
  observer : ∀ i, i < observers → ∀ m, ∃ n, m ≤ n ∧ schedule n = .work (.observer i)
  ending : ∀ i, i < observers → ∀ m, ∃ n panic, m ≤ n ∧ schedule n = .observed i panic

structure Idle (b : Broker) : Prop where
  listener : ∀ l, b.listener = some l → l.stage ≠ .draining ∧
    (l.stage = .listening → (b.bus.take l.reader).1 = .empty)
  observers : ∀ o ∈ b.observers.members, o.queue = [] ∧ o.busy = none

section Resting

variable {b : Broker} {schedule : Nat → Action}

theorem Rests.trans {b b' b'' : Broker} (h : b.Rests b') (h' : b'.Rests b'') : b.Rests b'' := by
  rw [Rests] at h h' ⊢
  rw [← h, ← h']

theorem Rests.symm {b b' : Broker} (h : b.Rests b') : b'.Rests b := by
  rw [Rests] at h ⊢
  rw [← h]

theorem exists_rest (hv : ∀ n, (b.after schedule n).view.Sound) (m : Nat)
    (hq : ∀ n, m ≤ n → (schedule n).requests = false)
    (hr : ∀ n, m ≤ n → (b.after schedule n).relapses (schedule n) = false) :
    ∃ N, ∀ n, N ≤ n → (b.after schedule n).strides (schedule n) = false := by
  generalize hx : (b.after schedule m).left = x
  induction x using less_wf.induction generalizing m with
  | _ x ih =>
    by_cases h : ∃ n, m ≤ n ∧ Less (b.after schedule n).left x
    · obtain ⟨n, hn, hless⟩ := h
      exact ih _ hless n (fun k hk => hq k (Nat.le_trans hn hk))
        (fun k hk => hr k (Nat.le_trans hn hk)) rfl
    · have idle : ∀ n, m ≤ n → (b.after schedule n).left = x →
          (b.after schedule n).strides (schedule n) = false := by
        intro n hn hleft
        by_contra hs
        have hless := less_of_strides (Bool.not_eq_false _ ▸ hs) (hq n hn) (hr n hn) (hv n)
        rw [← after_succ, hleft] at hless
        exact h ⟨n + 1, Nat.le_succ_of_le hn, hless⟩
      have same : ∀ k, (b.after schedule (m + k)).left = x := by
        intro k
        induction k with
        | zero => exact hx
        | succ k ihk =>
          have hrests := rests_of_not_strides (idle _ (Nat.le_add_right m k) ihk)
          rw [← Nat.add_assoc, after_succ, left_of_rests hrests, ihk]
      refine ⟨m, fun n hn => idle n hn ?_⟩
      obtain ⟨k, rfl⟩ := Nat.exists_eq_add_of_le hn
      exact same k

theorem rests_from {N : Nat}
    (h : ∀ n, N ≤ n → (b.after schedule n).strides (schedule n) = false) {n : Nat} (hn : N ≤ n) :
    (b.after schedule N).Rests (b.after schedule n) := by
  induction hn with
  | refl => rfl
  | step hn ih =>
    rw [after_succ]
    exact ih.trans (rests_of_not_strides (h _ hn))

theorem not_rests_of_relapses {b : Broker} {a : Action} (h : b.relapses a = true) :
    ¬b.Rests (b.act a) := by
  intro hrests
  have hsame : (b.act a).records = b.records := hrests.same records fun _ _ _ => rfl
  cases a with
  | observed i panic =>
    cases panic with
    | none => cases h
    | some p =>
      obtain ⟨r, hbusy, -⟩ := (Option.any_eq_true _ _).1 h
      obtain ⟨o, ho, hbusy⟩ := Option.bind_eq_some_iff.1 hbusy
      have hrecords := (b.observerConclude_eq i (some p)).2.2.2 Occurrence.record?
      rw [Observers.step_done _ ho, hbusy] at hrecords
      exact List.cons_ne_nil _ _ (List.append_right_eq_self.1 (hrecords.symm.trans hsame))
  | _ => cases h

end Resting

section Attending

variable {b : Broker}

theorem Rests.observing {b' : Broker} (h : b.Rests b') : b'.listener = b.listener ∧
    b'.bus = b.bus ∧ b'.observers = b.observers :=
  ⟨h.same listener fun _ _ _ => rfl, h.same bus fun _ _ _ => rfl,
    h.same observers fun _ _ _ => rfl⟩

theorem waits_of_listenerStep (h : b.listenerStep = none) {l : Listener}
    (hl : b.listener = some l) :
    (l.stage = .listening → (b.bus.take l.reader).1 = .empty) ∧
      (l.stage = .draining → b.observers.allStopped = false) := by
  rw [listenerStep, hl] at h
  dsimp only at h
  constructor
  · intro hs
    rw [hs] at h
    dsimp only at h
    split at h
    · cases h
    · split at h
      · rename_i ht
        rw [ht]
      · cases h
      · cases h
  · intro hs
    rw [hs] at h
    dsimp only at h
    split at h
    · cases h
    · exact Bool.not_eq_true _ ▸ ‹_›

theorem waits_of_observerStep {i : Nat} (h : b.observerStep i = none) {o : Observer}
    (ho : b.observers.members[i]? = some o) (hb : o.busy = none) :
    o.stopped = true ∨ o.queue = [] ∧ b.observers.closed = false := by
  have hw : b.observers.work i = none := by
    rw [observerStep] at h
    split at h
    · assumption
    · cases h
    · cases h
  cases hs : o.stopped with
  | true => exact .inl rfl
  | false =>
    rw [Observers.work, ho] at hw
    simp only [hs, hb, Option.isSome_none, Bool.or_self, Bool.false_eq_true, if_false] at hw
    split at hw
    · cases hw
    · rename_i hq
      split at hw
      · cases hw
      · exact .inr ⟨hq, Bool.not_eq_true _ ▸ ‹_›⟩

variable {schedule : Nat → Action} {N : Nat}

theorem idle_of_attended
    (ha : Attended (b.after schedule N).observers.members.length schedule)
    (h : ∀ n, N ≤ n → (b.after schedule n).strides (schedule n) = false)
    (hw : (b.after schedule N).Awaits) (hs : (b.after schedule N).observers.Sound) :
    (b.after schedule N).Idle := by
  -- Nothing moves from `N` on, so a turn after that finds its worker as it is at `N`.
  have hlistener : ∀ l, (b.after schedule N).listener = some l →
      (l.stage = .listening → ((b.after schedule N).bus.take l.reader).1 = .empty) ∧
      (l.stage = .draining → (b.after schedule N).observers.allStopped = false) := by
    intro l hl
    obtain ⟨n, hn, hturn⟩ := ha.listener N
    obtain ⟨hl', hb, ho⟩ := (rests_from h hn).observing
    have hstep := h n hn
    rw [hturn, strides, Option.isSome_eq_false_iff, Option.isNone_iff_eq_none] at hstep
    rw [← hb, ← ho]
    exact waits_of_listenerStep hstep (hl'.trans hl)
  have hobserver : ∀ (i : Nat) (o : Observer),
      (b.after schedule N).observers.members[i]? = some o → o.busy = none ∧
      (o.stopped = true ∨ o.queue = [] ∧ (b.after schedule N).observers.closed = false) := by
    intro i o hi
    have hlt := (List.getElem?_eq_some_iff.1 hi).1
    obtain ⟨n, panic, hn, hended⟩ := ha.ending i hlt N
    obtain ⟨n', hn', hturn⟩ := ha.observer i hlt N
    have hbusy : o.busy = none := by
      have hcall := h n hn
      rw [hended, strides, (rests_from h hn).observing.2.2, hi] at hcall
      simpa using hcall
    have hstep := h n' hn'
    rw [hturn, strides, Option.isSome_eq_false_iff, Option.isNone_iff_eq_none] at hstep
    have ho := (rests_from h hn').observing.2.2
    rw [← ho]
    exact ⟨hbusy, waits_of_observerStep hstep (ho ▸ hi) hbusy⟩
  constructor
  · intro l hl
    refine ⟨fun hd => ?_, (hlistener l hl).1⟩
    have hclosed := (hw l hl).1 (by simp [hd])
    have hall : (b.after schedule N).observers.allStopped = true := by
      refine List.all_eq_true.2 fun o hm => ?_
      obtain ⟨i, hi⟩ := List.getElem?_of_mem hm
      cases (hobserver i o hi).2 with
      | inl hs => exact hs
      | inr hopen => exact absurd (hclosed.symm.trans hopen.2) Bool.noConfusion
    exact absurd (((hlistener l hl).2 hd).symm.trans hall) Bool.noConfusion
  · intro o hm
    obtain ⟨i, hi⟩ := List.getElem?_of_mem hm
    obtain ⟨hbusy, hdone⟩ := hobserver i o hi
    refine ⟨?_, hbusy⟩
    cases hdone with
    | inl hstopped => exact ((hs o hm).stopped hstopped).2.1
    | inr hopen => exact hopen.1

end Attending

section Turning

def inTurn (panic : Option Panic) : Nat → Action
  | 0 => joining
  | n + 1 =>
    match n % 3 with
    | 0 => .work .listener
    | 1 => .work (.observer 0)
    | _ => .observed 0 panic

theorem inTurn_add (panic : Option Panic) (k : Nat) :
    inTurn panic (3 * k + 1) = .work .listener ∧
      inTurn panic (3 * k + 2) = .work (.observer 0) ∧
      inTurn panic (3 * k + 3) = .observed 0 panic := by
  refine ⟨?_, ?_, ?_⟩
  · rw [inTurn, Nat.mul_mod_right]
    rfl
  · rw [inTurn, Nat.mul_add_mod]
    rfl
  · rw [inTurn, Nat.mul_add_mod]
    rfl

theorem requests_inTurn (panic : Option Panic) {n : Nat} (hn : 1 ≤ n) :
    (inTurn panic n).requests = false := by
  obtain ⟨n, rfl⟩ := Nat.exists_eq_add_of_le' hn
  rw [inTurn]
  split <;> rfl

theorem attended_inTurn (panic : Option Panic) : Attended 1 (inTurn panic) := by
  have hlt {i : Nat} (hi : i < 1) : i = 0 := Nat.lt_one_iff.1 hi
  constructor
  · exact fun m => ⟨3 * m + 1, by omega, (inTurn_add panic m).1⟩
  · intro i hi m
    cases hlt hi
    exact ⟨3 * m + 2, by omega, (inTurn_add panic m).2.1⟩
  · intro i hi m
    cases hlt hi
    exact ⟨3 * m + 3, panic, by omega, (inTurn_add panic m).2.2⟩

theorem relapses_inTurn (b : Broker) (n : Nat) : b.relapses (inTurn none n) = false := by
  cases n with
  | zero => rfl
  | succ n =>
    rw [inTurn]
    split <;> rfl

structure Stirs (b : Broker) : Prop where
  listener : b.listener = some { reader := 0 }
  running : b.cancelled = false
  bus : ∃ r, b.bus = { capacity := 1024, readers := [{ unread := [r] }] }
  observers : b.observers = { members := [{ name := "o" }] }

theorem Stirs.turns {b : Broker} (h : b.Stirs) (p : Panic) :
    let b' := ((b.act (.work .listener)).act (.work (.observer 0))).act (.observed 0 (some p))
    b'.Stirs ∧ b'.records = b.records ++ [.observerPanicked "o" p.describe] := by
  obtain ⟨hl, hc, ⟨r, hb⟩, ho⟩ := h
  have hshown : b.act (.work .listener) = { b with
      bus := { capacity := 1024, readers := [{}] }
      observers := { members := [{ name := "o", queue := [r] }] } }.note
        (.queued (.observer 0)) := by
    simp [act, work, listenerStep, hl, hc, hb, ho, Bus.take, Reader.take, offer, Observers.emit,
      Observers.offer, applyEmission, note, Observer.isFull, Observer.room]
  intro b'
  have hended : b' = (({ b with
      bus := { capacity := 1024, readers := [{}] }
      observers := { members := [{ name := "o" }] } }.note (.queued (.observer 0))).note
        (.observing 0 r)).emit (.observerPanicked "o" p.describe) := by
    change ((b.act (.work .listener)).act (.work (.observer 0))).act (.observed 0 (some p)) = _
    rw [hshown]
    rfl
  rw [hended]
  refine ⟨⟨hl, hc, ⟨_, rfl⟩, rfl⟩, ?_⟩
  rw [records, told_emit, told_note, told_note]
  simp only [Occurrence.record?, Option.toList_none, Option.toList_some, List.append_nil]
  rfl

theorem stirs_start :
    ((start {} .allowAll (fun _ => none) [{ name := "o" }]).act joining).Stirs := by
  refine ⟨rfl, rfl, ?_, rfl⟩
  have hcapacity : Nat.nextPowerOfTwo 1024 = 1024 := by decide +kernel
  obtain ⟨r, hbus⟩ : ∃ r, ((start {} .allowAll (fun _ => none) [{ name := "o" }]).act joining).bus =
      Bus.publish { capacity := Nat.nextPowerOfTwo 1024, readers := [{}] } r := ⟨_, rfl⟩
  refine ⟨r, ?_⟩
  rw [hbus, hcapacity]
  rfl

end Turning

/-- With finitely many requests, a broker comes to rest just when its observers break down over
reports only finitely often: then nothing more is recorded, and if everybody has their turns, the
way of the records is empty in the end. A lost report is not reported, a breakdown always is. -/
theorem reports_subside (config : Config) (oracle : Oracle) (bundleOf : Uid → Option String)
    (observers : List Observer) (schedule : Nat → Action)
    (hq : ∃ m, ∀ n, m ≤ n → (schedule n).requests = false) :
    let b := (start config oracle bundleOf (observers.map Observer.fresh)).after schedule
    ((∃ m, ∀ n, m ≤ n → (b n).relapses (schedule n) = false) ↔
      ∃ N, ∀ n, N ≤ n → (b N).Rests (b n)) ∧
    ((∃ m, ∀ n, m ≤ n → (b n).relapses (schedule n) = false) →
      Attended observers.length schedule → ∃ N, ∀ n, N ≤ n → (b n).Idle) ∧
    (∀ (os : Observers) (r : Record), (os.step (.emit r)).1 =
      if r.isObserverOverflow then [] else (os.members.filterMap (·.report? r)).map .published) ∧
    ∀ (os : Observers) (i : Nat) (o : Observer) (r : Record) (p : Panic),
      os.members[i]? = some o → o.busy = some r →
      (os.step (.done i (some p))).1 = [.published (.observerPanicked o.name p.describe)] := by
  intro b
  have hsound : ∀ n, (b n).view.Sound := fun n =>
    (runs_view (view_start_sound config oracle bundleOf (observers.map Observer.fresh)) _).2
  have resting : (∃ m, ∀ n, m ≤ n → (b n).relapses (schedule n) = false) →
      ∃ N, ∀ n, N ≤ n → (b n).strides (schedule n) = false := by
    rintro ⟨m', hr⟩
    obtain ⟨m, hq⟩ := hq
    exact exists_rest hsound (max m m') (fun n hn => hq n (Nat.le_trans (Nat.le_max_left m m') hn))
      fun n hn => hr n (Nat.le_trans (Nat.le_max_right m m') hn)
  have hobservers (n : Nat) : (b n).observers.Sound ∧
      (b n).observers.members.length = observers.length := by
    rw [show (b n).observers = _ from (observed_run _ _).1]
    exact ⟨(Observers.Sound.fresh observers).after _,
      (Observers.length_after _ _).trans (List.length_map _)⟩
  refine ⟨⟨fun hr => ?_, ?_⟩, fun hr ha => ?_, fun os r => ?_, fun os i o r p ho hb => ?_⟩
  · obtain ⟨N, hN⟩ := resting hr
    exact ⟨N, fun n hn => rests_from hN hn⟩
  · rintro ⟨N, hN⟩
    refine ⟨N, fun n hn => ?_⟩
    -- A breakdown is recorded and does not leave everything as it was.
    by_contra hr
    have hnext : (b n).Rests (b (n + 1)) := (hN n hn).symm.trans (hN (n + 1) (Nat.le_succ_of_le hn))
    rw [show b (n + 1) = (b n).act (schedule n) from after_succ _ schedule n] at hnext
    exact not_rests_of_relapses (Bool.not_eq_false _ ▸ hr) hnext
  · obtain ⟨N, hN⟩ := resting hr
    refine ⟨N, fun n hn => idle_of_attended ?_ (fun k hk => hN k (Nat.le_trans hn hk))
      (awaits_run (awaits_start _ _ _ _) _) (hobservers n).1⟩
    exact (hobservers n).2 ▸ ha
  · rw [Observers.step, Observers.reports_emit]
    split
    · rename_i hr
      rw [reports_of_overflow os hr]
      rfl
    · rfl
  · rw [Observers.step_done _ ho, hb]
    rfl

theorem reports_subside_inTurn :
    let schedule := inTurn none
    let observers : List Observer := [{ name := "o" }]
    let b := (start {} .allowAll (fun _ => none) (observers.map Observer.fresh)).after schedule
    (∃ m, ∀ n, m ≤ n → (schedule n).requests = false) ∧ ∃ N, ∀ n, N ≤ n → (b n).Idle := by
  intro schedule observers b
  have hq : ∃ m, ∀ n, m ≤ n → (schedule n).requests = false := ⟨1, fun _ => requests_inTurn _⟩
  refine ⟨hq, ?_⟩
  exact (reports_subside {} .allowAll (fun _ => none) observers schedule hq).2.1
    ⟨0, fun n _ => relapses_inTurn _ n⟩ (attended_inTurn _)

/-- An observer that breaks down over its own reports has them reported for ever. -/
theorem reports_sustained :
    let schedule := inTurn (some .other)
    let observers : List Observer := [{ name := "o" }]
    let b := (start {} .allowAll (fun _ => none) (observers.map Observer.fresh)).after schedule
    (∀ n, 1 ≤ n → (schedule n).requests = false) ∧ Attended 1 schedule ∧
      (∀ k, (b (3 * k + 1)).records =
        (b 1).records ++ List.replicate k (.observerPanicked "o" "unknown panic")) ∧
      ¬∃ N, ∀ n, N ≤ n → (b n).Idle := by
  intro schedule observers b
  have stirs : ∀ k, (b (3 * k + 1)).Stirs ∧ (b (3 * k + 1)).records =
      (b 1).records ++ List.replicate k (.observerPanicked "o" "unknown panic") := by
    intro k
    induction k with
    | zero => exact ⟨stirs_start, (List.append_nil _).symm⟩
    | succ k ih =>
      obtain ⟨listening, showing, ending⟩ := inTurn_add (some .other) k
      have hround : b (3 * (k + 1) + 1) = (((b (3 * k + 1)).act (.work .listener)).act
          (.work (.observer 0))).act (.observed 0 (some .other)) := by
        rw [← listening, ← showing, ← ending]
        simp only [b, schedule, Nat.mul_succ, after_succ]
      obtain ⟨hstirs, hrecords⟩ := ih.1.turns .other
      rw [← hround] at hstirs hrecords
      refine ⟨hstirs, ?_⟩
      rw [hrecords, ih.2, List.replicate_succ', List.append_assoc]
      rfl
  refine ⟨fun _ => requests_inTurn _, attended_inTurn _, fun k => (stirs k).2, ?_⟩
  rintro ⟨N, hN⟩
  obtain ⟨hl, -, ⟨r, hb⟩, -⟩ := (stirs N).1
  have hempty := ((hN (3 * N + 1) (by omega)).listener _ hl).2 rfl
  rw [hb] at hempty
  cases hempty

end Broker

end EventBroker
