import EventBroker.Proofs.Effects.Desk
import EventBroker.Proofs.Effects.Stepping

namespace EventBroker

def Command.caller? : Command → Option Nat
  | .enqueue _ => none
  | .finish _ _ _ _ caller | .release _ caller | .active _ caller => some caller

namespace Desk

variable (d : Desk)

def answer (q : Command) (a : Answer) : Desk :=
  match q.caller? with
  | none => d
  | some k =>
    { d with calls := d.calls.alter k fun c => c.map fun c => { c with answer := some a } }

@[simp] theorem begun_answer (q : Command) (a : Answer) : (d.answer q a).begun = d.begun := by
  cases q <;> rfl

@[simp] theorem marks_answer (q : Command) (a : Answer) : (d.answer q a).marks = d.marks := by
  cases q <;> rfl

theorem get?_answer (q : Command) (a : Answer) (k : Nat) :
    (d.answer q a).calls.get? k = if q.caller? = some k then
      (d.calls.get? k).map fun c => { c with answer := some a } else d.calls.get? k := by
  rw [answer]
  cases q.caller? with
  | none => rfl
  | some k' =>
    dsimp only
    rw [Table.get?_alter]
    by_cases hk : k' = k
    · rw [if_pos hk, if_pos (congrArg some hk), hk]
    · rw [if_neg hk, if_neg fun h => hk (Option.some.inj h)]

def forget (qs : List Command) : Desk := qs.foldl (fun d q => d.answer q .lost) d

@[simp] theorem begun_forget (qs : List Command) : (d.forget qs).begun = d.begun := by
  induction qs generalizing d with
  | nil => rfl
  | cons q rest ih => exact (ih _).trans (d.begun_answer q _)

@[simp] theorem marks_forget (qs : List Command) : (d.forget qs).marks = d.marks := by
  induction qs generalizing d with
  | nil => rfl
  | cons q rest ih => exact (ih _).trans (d.marks_answer q _)

theorem get?_forget (qs : List Command) (k : Nat) :
    (d.forget qs).calls.get? k = if k ∈ qs.filterMap Command.caller? then
      (d.calls.get? k).map fun c => { c with answer := some .lost } else d.calls.get? k := by
  induction qs generalizing d with
  | nil => rfl
  | cons q rest ih =>
    have hrest := ih (d.answer q .lost)
    rw [get?_answer] at hrest
    rw [forget, List.foldl_cons, ← forget, hrest]
    cases hq : q.caller? with
    | none => simp [hq]
    | some k' =>
      by_cases hk : k' = k
      · simp [hq, hk, Function.comp_def]
      · simp [hq, hk, Ne.symm hk]

end Desk

namespace Broker

variable (b : Broker)

/-- The receiver has been handed the active chain, and the chain waits for it. -/
def ParkedOn (r : SubscriberId) : Prop :=
  ∃ c, b.sequencer.active = some c ∧ c.state = .received ∧ c.receiver? = some r

variable {b} in
theorem parkedOn_iff {r : SubscriberId} :
    b.ParkedOn r ↔ b.sequencer.active.bind Chain.awaiting = some r := by
  have hc : ∀ c : Chain, c.awaiting = some r ↔ c.state = .received ∧ c.receiver? = some r := by
    intro c
    rw [Chain.awaiting]
    split
    · rename_i hs
      simp [hs]
    · rename_i hs
      simp [hs]
  simp only [ParkedOn, Option.bind_eq_some_iff, hc]

instance (r : SubscriberId) : Decidable (b.ParkedOn r) := decidable_of_iff' _ parkedOn_iff

def reply : Command → Answer
  | .enqueue _ => .lost
  | .finish r _ _ _ _ => .outcome (if b.ParkedOn r then .accepted else .stale)
  | .release r _ => .released (b.ParkedOn r)
  | .active r _ =>
    .snapshot ((b.sequencer.active.filter fun c => c.awaiting = some r).map Chain.snapshot)

def lapse : Option Mark :=
  b.sequencer.active.bind fun c =>
    if Chain.due c.watchdogDeadline b.now then some (.expired (some c.id) c.awaiting)
    else if Chain.due c.receiverDeadline b.now then
      c.awaiting.map fun r => .timedOut (some c.id) (some r)
    else none

def handed (result : Except DeliveryError Unit) : Option Mark :=
  (b.handoff? .sequencer).bind fun n => (Occurrence.notified .sequencer n result).mark?

@[simp] theorem desk_chainFinished (c : Chain) (reason : FinishReason) :
    (b.chainFinished c reason).desk = b.desk := by
  simp [chainFinished]

theorem desk_closeSequencer : b.closeSequencer.desk = b.desk.forget b.sequencer.commands := by
  have forgotten : ∀ (cs : List Command) (b : Broker),
      (cs.foldl forget b).desk = b.desk.forget cs := by
    intro cs
    induction cs with
    | nil => exact fun _ => rfl
    | cons q rest ih =>
      intro b
      have hq : (b.forget q).desk = b.desk.answer q .lost := by
        cases q <;> rfl
      rw [List.foldl_cons, ih, hq]
      rfl
  simp only [closeSequencer]
  rw [forgotten]
  rfl

theorem desk_stopSequencer :
    b.stopSequencer.desk = b.desk.forget b.sequencer.commands := by
  simp only [stopSequencer]
  rw [desk_note_plain _ rfl, desk_log, desk_closeSequencer]

theorem desk_breakDown : b.breakDown.desk = b.desk.forget b.sequencer.commands := by
  rw [breakDown, desk_note_plain _ rfl, desk_closeSequencer]

variable {b} in
theorem PumpStep.desk_eq {b' : Broker} (h : b.PumpStep b') (hb : b.breaks = false) :
    b'.desk = b.desk := by
  cases h with
  | rest | park => rfl
  | @start c rest =>
    have started := (b.log (.chainStarted c.event.name c.id c.receivers.length)).desk_emit_plain
      (((({ kind := .chainStarted } : Record).setEvent c.event.name).setChain c.id).setCount
        c.receivers.length) (by simp) (by simp)
    exact started.trans (desk_log _ _)
  | breakDown ha hbroken =>
    rw [breaks, ha, Option.any_some, hbroken] at hb
    cases hb
  | finalize =>
    rw [Broker.finalize]
    split
    · exact desk_chainFinished _ _ _
    · exact desk_note_plain _ rfl
  | deliver =>
    rw [deliverTo]
    split
    · rename_i ha
      rw [desk_note_plain _ rfl, desk_setStage, desk_setActive, desk_approach ha]
    · rename_i ha
      rw [desk_setActive, desk_approach ha]

theorem desk_sweep {b b' : Broker} (h : b.sweep = some b') :
    b'.desk = b.desk.mark b.now b.lapse := by
  cases sweep_cases h with
  | watchdog ha hd =>
    rw [lapse, ha, Option.bind_some, if_pos hd, watchdogFired, desk_setStage, desk_emit, desk_log]
    rfl
  | receiver ha hw hd hr =>
    rw [lapse, ha, Option.bind_some, if_neg hw, if_pos hd, hr, receiverTimedOut, desk_setStage,
      desk_emit, desk_log]
    rfl
  | nobody ha hw hd hr =>
    rw [lapse, ha, Option.bind_some, if_neg hw, if_pos hd, hr]
    exact (Desk.mark_none _ _).symm

theorem desk_handle (c : Command) : (b.handle c).desk = b.desk.answer c (b.reply c) := by
  cases c with
  | enqueue chain => rfl
  | finish r code data abort caller =>
    rw [handle, reply]
    by_cases hp : b.ParkedOn r
    · obtain ⟨c, ha, hr⟩ := Option.bind_eq_some_iff.1 (parkedOn_iff.1 hp)
      rw [if_pos hp, ha]
      dsimp only
      rw [Chain.finish_of_awaiting hr, desk_setStage, desk_log]
      rfl
    · rw [if_neg hp]
      cases ha : b.sequencer.active with
      | none => rfl
      | some c =>
        have hr : c.awaiting ≠ some r := fun hr => hp (parkedOn_iff.2 (by rw [ha]; exact hr))
        dsimp only
        rw [Chain.finish_of_not_awaiting hr]
        rfl
  | release r caller =>
    rw [handle, reply]
    by_cases hp : b.ParkedOn r
    · obtain ⟨c, ha, hr⟩ := Option.bind_eq_some_iff.1 (parkedOn_iff.1 hp)
      rw [decide_eq_true hp, ha]
      dsimp only
      rw [if_pos hr, desk_setStage, desk_log]
      rfl
    · rw [decide_eq_false hp]
      cases ha : b.sequencer.active with
      | none => rfl
      | some c =>
        have hr : c.awaiting ≠ some r := fun hr => hp (parkedOn_iff.2 (by rw [ha]; exact hr))
        dsimp only
        rw [if_neg hr]
        rfl
  | active r caller => rfl

theorem desk_sequencerConclude (result : Except DeliveryError Unit) :
    (b.sequencerConclude result).desk = b.desk.mark b.now (b.handed result) := by
  rw [sequencerConclude, handed, handoff?]
  cases hs : b.sequencer.stage with
  | handing n i =>
    rw [Option.bind_some, ← desk_note]
    dsimp only
    split
    · rw [desk_setStage, desk_log, desk_setActive]
    · rw [desk_setStage, desk_setActive, desk_deliveryFailed]
    · rw [desk_setStage]
  | closing n c reason =>
    rw [Option.bind_some, ← desk_note]
    dsimp only
    split
    · rw [desk_chainFinished]
    · rw [desk_chainFinished, desk_emit_plain _ _ (by simp) (by simp), desk_log]
  | _ => exact (Desk.mark_none _ _).symm

end Broker

end EventBroker
