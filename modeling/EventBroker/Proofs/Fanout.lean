import Mathlib.Data.List.Basic
import EventBroker.Observers

namespace EventBroker

attribute [ext] Observers

def Observer.fresh (o : Observer) : Observer :=
  { o with queue := [], busy := none, stopped := false }

def Emission.report? : Emission → Option Record
  | .queued _ => none
  | .lost report => report

namespace Observers

inductive Motion
  | emit (r : Record)
  | work (i : Nat)
  | done (i : Nat) (panic : Option Panic)
  | close

inductive Output
  | shown (i : Nat) (r : Record)
  | published (r : Record)

def Motion.closes : Motion → Bool
  | .close => true
  | _ => false

def Motion.alone (i : Nat) : Motion → Option Motion
  | .emit r => some (.emit r)
  | .work j => if j = i then some (.work 0) else none
  | .done j panic => if j = i then some (.done 0 panic) else none
  | .close => some .close

def fresh (observers : List Observer) : Observers := { members := observers.map Observer.fresh }

variable (os : Observers)

def step : Motion → List Output × Observers
  | .emit r => (((os.emit r).1.filterMap Emission.report?).map .published, (os.emit r).2)
  | .work i =>
    match os.work i with
    | none => ([], os)
    | some (.stopped, os) => ([], os)
    | some (.started _ r, os) => ([.shown i r], os)
  | .done i panic => ((os.done i panic).1.toList.map .published, (os.done i panic).2)
  | .close => ([], os.close)

def after (motions : List Motion) : Observers := motions.foldl (fun os m => (os.step m).2) os

def outputs (os : Observers) : List Motion → List Output
  | [] => []
  | m :: rest => (os.step m).1 ++ (os.step m).2.outputs rest

def alone (i : Nat) : Observers := { os with members := os.members[i]?.toList }

def accepts (i : Nat) : Bool := os.members[i]?.any fun o => !o.stopped && !o.isFull

def gets (i : Nat) : Motion → List Record
  | .emit r => if os.accepts i then [r] else []
  | _ => []

def taken (i : Nat) (os : Observers) : List Motion → List Record
  | [] => []
  | m :: rest => os.gets i m ++ taken i (os.step m).2 rest

end Observers

namespace Observer

open Observers

variable (o : Observer)

def worked (closed : Bool) : Observer :=
  if o.stopped || o.busy.isSome then o
  else
    match o.queue with
    | r :: rest => { o with queue := rest, busy := some r }
    | [] => { o with stopped := closed }

def moved (closed : Bool) : Option Motion → Observer
  | some (.emit r) => (offer r 0 o).2
  | some (.work _) => o.worked closed
  | some (.done _ _) => { o with busy := none }
  | _ => o

def called : Option Motion → List Record
  | some (.work _) => if o.stopped || o.busy.isSome then [] else o.queue.take 1
  | _ => []

theorem worked_waiting {o : Observer} (hb : (o.stopped || o.busy.isSome) = false)
    (hq : o.queue = []) : o.worked false = o := by
  cases o
  simp_all [worked]

end Observer

namespace Observers

variable (os : Observers)

theorem offer_moved (r : Record) (i : Nat) (o : Observer) :
    (offer r i o).2 = (offer r 0 o).2 := by
  rw [offer, offer]
  split
  · rfl
  · split <;> rfl

theorem getElem?_emit (r : Record) (i : Nat) :
    (os.emit r).2.members[i]? = os.members[i]?.map fun o => (offer r 0 o).2 := by
  simp only [emit, List.getElem?_map, List.getElem?_mapIdx, Option.map_map]
  congr 1
  funext o
  exact offer_moved r i o

theorem step_absent {i : Nat} (h : os.members[i]? = none) (panic : Option Panic) :
    os.step (.work i) = ([], os) ∧ os.step (.done i panic) = ([], os) := by
  simp [step, work, done, h]

theorem step_work {i : Nat} {o : Observer} (h : os.members[i]? = some o) :
    os.step (.work i) = ((o.called (some (.work 0))).map (.shown i),
      { os with members := os.members.set i (o.worked os.closed) }) := by
  obtain ⟨members, closed⟩ := os
  obtain ⟨hi, rfl⟩ := List.getElem?_eq_some_iff.1 h
  dsimp only at h ⊢
  cases hb : members[i].stopped || members[i].busy.isSome with
  | true => simp [step, work, h, hb, Observer.worked, Observer.called]
  | false =>
    cases hq : members[i].queue with
    | cons r rest => simp [step, work, h, hb, hq, Observer.worked, Observer.called]
    | nil =>
      cases closed with
      | true => simp [step, work, h, hb, hq, Observer.worked, Observer.called]
      | false => simp [step, work, h, hb, hq, Observer.called, Observer.worked_waiting hb hq]

theorem step_done {i : Nat} {o : Observer} (h : os.members[i]? = some o) (panic : Option Panic) :
    os.step (.done i panic) =
      ((if o.busy.isSome then panic.toList else []).map fun p =>
          .published (.observerPanicked o.name p.describe),
        { os with members := os.members.set i { o with busy := none } }) := by
  obtain ⟨hi, rfl⟩ := List.getElem?_eq_some_iff.1 h
  cases hb : os.members[i].busy with
  | none =>
    have hsame : ({ os.members[i] with busy := none } : Observer) = os.members[i] := by
      rw [← hb]
    simp [step, done, h, hb, hsame]
  | some r => cases panic <;> simp [step, done, h, hb]

@[simp] theorem closed_step (m : Motion) :
    (os.step m).2.closed = (os.closed || m.closes) := by
  cases m with
  | emit r => simp [step, emit, Motion.closes]
  | close => simp [step, close, Motion.closes]
  | work i =>
    cases h : os.members[i]? with
    | none => simp [os.step_absent h none, Motion.closes]
    | some o => simp [os.step_work h, Motion.closes]
  | done i panic =>
    cases h : os.members[i]? with
    | none => simp [os.step_absent h panic, Motion.closes]
    | some o => simp [os.step_done h, Motion.closes]

theorem getElem?_step (m : Motion) (i : Nat) :
    (os.step m).2.members[i]? = os.members[i]?.map (·.moved os.closed (m.alone i)) := by
  have unmoved : ∀ j, j ≠ i →
      os.members[i]? = os.members[i]?.map (·.moved os.closed (none : Option Motion)) :=
    fun j hj => Option.map_id'.symm
  cases m with
  | emit r => exact os.getElem?_emit r i
  | close => exact Option.map_id'.symm
  | work j =>
    by_cases hj : j = i
    · subst hj
      cases h : os.members[j]? with
      | none => simp [os.step_absent h none, h]
      | some o =>
        rw [os.step_work h, List.getElem?_set_self (List.getElem?_eq_some_iff.1 h).1]
        simp [Motion.alone, Observer.moved]
    · cases h : os.members[j]? with
      | none => simpa [os.step_absent h none, Motion.alone, hj] using unmoved j hj
      | some o =>
        simpa [os.step_work h, List.getElem?_set_ne hj, Motion.alone, hj] using unmoved j hj
  | done j panic =>
    by_cases hj : j = i
    · subst hj
      cases h : os.members[j]? with
      | none => simp [os.step_absent h panic, h]
      | some o =>
        rw [os.step_done h, List.getElem?_set_self (List.getElem?_eq_some_iff.1 h).1]
        simp [Motion.alone, Observer.moved]
    · cases h : os.members[j]? with
      | none => simpa [os.step_absent h panic, Motion.alone, hj] using unmoved j hj
      | some o =>
        simpa [os.step_done h, List.getElem?_set_ne hj, Motion.alone, hj] using unmoved j hj

section Alone

theorem after_append (ms ms' : List Motion) : os.after (ms ++ ms') = (os.after ms).after ms' :=
  List.foldl_append

theorem outputs_append (ms ms' : List Motion) :
    os.outputs (ms ++ ms') = os.outputs ms ++ (os.after ms).outputs ms' := by
  induction ms generalizing os with
  | nil => rfl
  | cons m rest ih => simp [outputs, ih, after]

end Alone

section Keeping

end Keeping

end Observers

/-- What holds of an observer as long as its set is used: no more waits than there is room for, and
it stops only with nothing left to do. -/
structure Observer.Sound (closed : Bool) (o : Observer) : Prop where
  bounded : o.queue.length ≤ o.room
  stopped : o.stopped = true → closed = true ∧ o.queue = [] ∧ o.busy = none

namespace Observer

open Observers

variable {o : Observer} {closed : Bool}

theorem Sound.fresh (o : Observer) : o.fresh.Sound closed where
  bounded := Nat.zero_le _
  stopped h := Bool.noConfusion h

theorem Sound.mono (h : o.Sound closed) (closes : Bool) : o.Sound (closed || closes) where
  bounded := h.bounded
  stopped hs := ⟨by simp [(h.stopped hs).1], (h.stopped hs).2⟩

theorem Sound.running (h : o.Sound closed) (hc : closed = false) : o.stopped = false := by
  cases hs : o.stopped with
  | false => rfl
  | true => exact absurd (hc.symm.trans (h.stopped hs).1) Bool.false_ne_true

theorem Sound.isFull (h : o.Sound closed) :
    o.isFull = decide (o.queue.length = max o.capacity 1) :=
  decide_eq_decide.2 ⟨fun hge => Nat.le_antisymm h.bounded hge, fun he => Nat.le_of_eq he.symm⟩

theorem Sound.offer (h : o.Sound closed) (r : Record) (i : Nat) :
    (Observers.offer r i o).2.Sound closed := by
  rw [Observers.offer]
  split
  · exact h
  · split
    · exact h
    · rename_i hs hf
      have hroom : o.queue.length < o.room := by simpa [Observer.isFull] using hf
      exact ⟨by simpa [room, Nat.succ_le_iff] using hroom, fun h => absurd h hs⟩

theorem Sound.worked (h : o.Sound closed) : (o.worked closed).Sound closed := by
  rw [Observer.worked]
  split
  · exact h
  · rename_i hb
    simp only [Bool.or_eq_true, not_or, Bool.not_eq_true] at hb
    split
    · rename_i r rest hq
      have hlt := h.bounded
      rw [hq, List.length_cons] at hlt
      exact ⟨Nat.le_of_succ_le hlt, fun h => absurd (hb.1.symm.trans h) Bool.false_ne_true⟩
    · rename_i hq
      exact ⟨h.bounded, fun hc => ⟨hc, hq, by simpa using hb.2⟩⟩

theorem Sound.moved (h : o.Sound closed) (m : Option Motion) : (o.moved closed m).Sound closed := by
  match m with
  | some (.emit r) => exact h.offer r 0
  | some (.work i) => exact h.worked
  | some (.done i panic) => exact ⟨h.bounded, fun hs => ⟨(h.stopped hs).1, (h.stopped hs).2.1, rfl⟩⟩
  | some .close => exact h
  | none => exact h

theorem moved_same (m : Option Motion) :
    (o.moved closed m).name = o.name ∧ (o.moved closed m).capacity = o.capacity := by
  match m with
  | some (.emit r) =>
    simp only [moved, Observers.offer]
    split
    · exact ⟨rfl, rfl⟩
    · split <;> exact ⟨rfl, rfl⟩
  | some (.work i) =>
    simp only [moved, worked]
    split
    · exact ⟨rfl, rfl⟩
    · split <;> exact ⟨rfl, rfl⟩
  | some (.done i panic) => exact ⟨rfl, rfl⟩
  | some .close => exact ⟨rfl, rfl⟩
  | none => exact ⟨rfl, rfl⟩

theorem moved_stopped (h : o.stopped = true) (m : Option Motion) :
    (o.moved closed m).stopped = true := by
  match m with
  | some (.emit r) => simp [moved, Observers.offer, h]
  | some (.work i) => simp [moved, worked, h]
  | some (.done i panic) => exact h
  | some .close => exact h
  | none => exact h

def report? (r : Record) (o : Observer) : Option Record :=
  if o.stopped then overflowReport r o.name "closed"
  else if o.isFull then overflowReport r o.name "full"
  else none

theorem report?_kind {r report : Record} (h : o.report? r = some report) :
    report.kind = .observerOverflow := by
  have overflow (reason : String) (h : overflowReport r o.name reason = some report) :
      report.kind = .observerOverflow := by
    rw [overflowReport] at h
    split at h
    · cases h
    · cases h
      rfl
  rw [report?] at h
  split at h
  · exact overflow _ h
  · split at h
    · exact overflow _ h
    · cases h

end Observer

namespace Observers

variable {os : Observers}

def Sound (os : Observers) : Prop := ∀ o ∈ os.members, o.Sound os.closed

theorem Sound.fresh (observers : List Observer) : (fresh observers).Sound := by
  intro o ho
  obtain ⟨o', -, rfl⟩ := List.mem_map.1 ho
  exact .fresh o'

theorem Sound.step (h : os.Sound) (m : Motion) : (os.step m).2.Sound := by
  intro o ho
  obtain ⟨i, hi⟩ := List.getElem?_of_mem ho
  rw [getElem?_step] at hi
  obtain ⟨o', ho', rfl⟩ := Option.map_eq_some_iff.1 hi
  rw [closed_step]
  exact ((h o' (List.mem_of_getElem? ho')).moved _).mono _

theorem Sound.after (h : os.Sound) (ms : List Motion) : (os.after ms).Sound := by
  induction ms generalizing os with
  | nil => exact h
  | cons m rest ih => exact ih (h.step m)

theorem reports_emit (os : Observers) (r : Record) :
    (os.emit r).1.filterMap Emission.report? = os.members.filterMap (·.report? r) := by
  have hreport (i : Nat) (o : Observer) : (offer r i o).1.report? = o.report? r := by
    rw [offer, Observer.report?]
    split
    · rfl
    · split <;> rfl
  have hmap (ms : List Observer) (f : Nat → Observer → Emission × Observer)
      (hf : ∀ i o, (f i o).1.report? = o.report? r) :
      (ms.mapIdx f).filterMap (fun e => e.1.report?) = ms.filterMap (·.report? r) := by
    induction ms generalizing f with
    | nil => rfl
    | cons o rest ih =>
      rw [List.mapIdx_cons, List.filterMap_cons, List.filterMap_cons, hf,
        ih _ fun i o => hf (i + 1) o]
  simp only [emit, List.filterMap_map]
  exact hmap _ _ hreport

theorem Sound.emit (h : os.Sound) (hc : os.closed = false) (r : Record) :
    (os.step (.emit r)).1 = if r.isObserverOverflow then [] else
      (os.members.filter fun o => o.queue.length = max o.capacity 1).map fun o =>
        .published (.observerOverflow o.name "full") := by
  have hreport : ∀ o ∈ os.members, o.report? r = if r.isObserverOverflow then none
      else if o.queue.length = max o.capacity 1 then some (.observerOverflow o.name "full")
      else none := by
    intro o ho
    rw [Observer.report?, (h o ho).running hc, (h o ho).isFull]
    by_cases he : o.queue.length = max o.capacity 1 <;> simp [he, overflowReport]
  rw [Observers.step, reports_emit, List.filterMap_congr hreport]
  cases r.isObserverOverflow with
  | true => simp
  | false =>
    induction os.members with
    | nil => rfl
    | cons o rest ih =>
      by_cases he : o.queue.length = max o.capacity 1 <;> simpa [he] using ih

theorem members_step (os : Observers) (m : Motion) :
    (os.step m).2.members.map (fun o => (o.name, o.capacity)) =
      os.members.map fun o => (o.name, o.capacity) := by
  apply List.ext_getElem?
  intro i
  rw [List.getElem?_map, List.getElem?_map, getElem?_step, Option.map_map]
  congr 1
  funext o
  exact Prod.ext (Observer.moved_same _).1 (Observer.moved_same _).2

theorem length_step (os : Observers) (m : Motion) :
    (os.step m).2.members.length = os.members.length := by
  simpa using congrArg List.length (os.members_step m)

theorem allStopped_step {os : Observers} (h : os.allStopped = true) (m : Motion) :
    (os.step m).2.allStopped = true := by
  refine List.all_eq_true.2 fun o ho => ?_
  obtain ⟨i, hi⟩ := List.getElem?_of_mem ho
  rw [getElem?_step] at hi
  obtain ⟨o', ho', rfl⟩ := Option.map_eq_some_iff.1 hi
  exact Observer.moved_stopped (List.all_eq_true.1 h o' (List.mem_of_getElem? ho')) _

theorem members_after (os : Observers) (ms : List Motion) :
    (os.after ms).members.map (fun o => (o.name, o.capacity)) =
      os.members.map fun o => (o.name, o.capacity) := by
  induction ms generalizing os with
  | nil => rfl
  | cons m rest ih => exact (ih (os.step m).2).trans (os.members_step m)

theorem length_after (os : Observers) (ms : List Motion) :
    (os.after ms).members.length = os.members.length := by
  simpa using congrArg List.length (os.members_after ms)

theorem Sound.accepts (h : os.Sound) (hc : os.closed = false) {i : Nat} {o : Observer}
    (ho : os.members[i]? = some o) :
    os.accepts i = !decide (o.queue.length = max o.capacity 1) := by
  have hs := h o (List.mem_of_getElem? ho)
  rw [Observers.accepts, ho, Option.any_some, hs.running hc, hs.isFull]
  rfl

end Observers

end EventBroker
