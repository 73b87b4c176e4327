import Mathlib.Algebra.GroupWithZero.Nat
import EventBroker.Proofs.Effects.Waiting
import EventBroker.Proofs.Runs

/-! How much is left to do for the couriers, the sequencer and the calls in progress. Every step of
theirs leaves less of it, so they come to rest unless they are asked for more. -/

namespace EventBroker

def CourierStage.work : CourierStage → Nat
  | .stopped => 0
  | .waiting => 1
  | .carrying left => 2 + 2 * left.length
  | .handing _ left => 3 + 2 * left.length

def Job.work (j : Job) : Nat := 2 + 2 * j.deliveries.length

def DeliveryQueue.work (q : DeliveryQueue) : Nat := q.courier.work + (q.jobs.map Job.work).sum

def Chain.work (c : Chain) : Nat :=
  2 + 4 * (c.receivers.length - c.cursor) + if c.state = .idle then 0 else 2

def Command.work : Command → Nat
  | .enqueue c => c.work + 3
  | _ => 1

def SequencerStage.work : SequencerStage → Nat
  | .stopped => 0
  | .listening => 1
  | .pumping => 2
  | .handing _ _ | .closing _ _ _ => 3

def Sequencer.work (s : Sequencer) : Nat :=
  s.stage.work + (s.commands.map Command.work).sum + (s.pending.map fun c => c.work + 1).sum +
    s.active.elim 0 Chain.work

def Waiting.work : Waiting → Nat
  | .retire r => 2 + r.rest.length
  | _ => 1

theorem Command.work_pos (c : Command) : 0 < c.work := by
  cases c <;> simp [Command.work]

theorem Waiting.work_pos (w : Waiting) : 0 < w.work := by
  cases w with
  | retire r => exact Nat.add_pos_left Nat.two_pos _
  | _ => exact Nat.one_pos

namespace Chain

variable {c c' : Chain} {r : SubscriberId} {now : Instant} {i : Nat}

theorem two_le_work (c : Chain) : 2 ≤ c.work := by
  simp only [work]
  omega

theorem work_start (c : Chain) (now : Instant) : (c.start now).work = c.work := rfl

theorem work_skip (c : Chain) : c.skip.work ≤ c.work := by
  simp [skip_eq, work]

theorem work_handedOff (c : Chain) : c.handedOff.work = c.work := by
  rw [handedOff]
  split
  · rename_i h
    simp [work, h]
  · rfl

section Settling

variable (h : c.awaiting = some r)

include h

theorem work_finish (code : Int) (data : String) (abort : Bool) :
    (c.finish r code data abort).2.work + 2 = c.work := by
  simp [finish_of_awaiting h, work, received_of_awaiting h]

theorem work_release : c.release.2.work + 2 = c.work := by
  simp [release_of_awaiting h, work, received_of_awaiting h]

theorem work_expireReceiver : c.expireReceiver.2.work + 2 = c.work := by
  simp [expireReceiver_of_awaiting h, work, received_of_awaiting h]

theorem work_expire : c.expire.2.work + 2 = c.work := by
  simp [expire_of_awaiting h, work, received_of_awaiting h]

end Settling

section Turn

variable (h : c.next now = (.deliver i r, c'))

include h

theorem work_skip_next : c'.skip.work + 4 ≤ c.work := by
  obtain ⟨-, -, -, -, hr, rfl⟩ := next_deliver h
  have hl := (List.getElem?_eq_some_iff.1 hr).1
  simp only [skip_eq, work, if_true]
  omega

theorem work_beginReceiving_next : (c'.beginReceiving now).work + 2 ≤ c.work := by
  obtain ⟨-, -, -, -, hr, rfl⟩ := next_deliver h
  have hl := (List.getElem?_eq_some_iff.1 hr).1
  simp only [beginReceiving, work, reduceCtorEq, if_false]
  omega

end Turn

end Chain

namespace View

variable {v w : View}

def workload (v : View) : Nat := v.fresh.work + v.replay.work + v.sequencer.work

theorem workload_setQueue (v : View) (lane : Lane) (q : DeliveryQueue) :
    (v.setQueue lane q).workload + (v.queue lane).work = v.workload + q.work := by
  cases lane
  · simp only [workload, setQueue, queue]
    omega
  · simp only [workload, setQueue, queue]
    omega

theorem workload_tell (v : View) (s : Signal) : (v.tell s).workload = v.workload := rfl

theorem workload_setQueue_lt {lane : Lane} {q : DeliveryQueue} (h : q.work < (v.queue lane).work) :
    (v.setQueue lane q).workload < v.workload := by
  have := v.workload_setQueue lane q
  omega

theorem Carries.workload_lt {lane : Lane} (h : v.Carries lane w) : w.workload < v.workload := by
  cases h with
  | rest h =>
    refine workload_setQueue_lt ?_
    simp [DeliveryQueue.work, h, CourierStage.work]
  | stop h hc =>
    refine workload_setQueue_lt ?_
    simp only [DeliveryQueue.work, h, CourierStage.work, List.map_nil, List.sum_nil]
    omega
  | take h hj =>
    refine workload_setQueue_lt ?_
    simp only [DeliveryQueue.work, h, hj, CourierStage.work, Job.work, List.map_cons, List.sum_cons]
    omega
  | pass h hd =>
    refine workload_setQueue_lt ?_
    simp [DeliveryQueue.work, h, CourierStage.work]
  | @hold d rest e h he hf =>
    have hq : ({ v with vault := v.vault.capture e.subscriber d.copy v.now } : View).queue lane =
        v.queue lane := by
      cases lane <;> rfl
    refine Nat.lt_of_lt_of_eq (workload_setQueue_lt ?_) rfl
    rw [hq]
    simp [DeliveryQueue.work, h, CourierStage.work]
  | hand h he hf =>
    rw [workload_tell]
    refine workload_setQueue_lt ?_
    simp only [DeliveryQueue.work, h, CourierStage.work, List.length_cons]
    omega
  | handed h result =>
    rw [workload_tell]
    refine workload_setQueue_lt ?_
    simp only [DeliveryQueue.work, h, CourierStage.work]
    omega

theorem Moves.work_lt {evs : List ChainEvent} (h : v.Moves evs w) (hv : v.sequencer.Sound) :
    w.sequencer.work < v.sequencer.work := by
  cases h with
  | stop hs hc | breakDown hs =>
    simp only [Sequencer.work, hs, SequencerStage.work, List.map_nil, List.sum_nil]
    omega
  | enqueue hs hq =>
    simp only [Sequencer.work, hs, hq, SequencerStage.work, Command.work, List.map_cons,
      List.sum_cons, List.map_append, List.sum_append, List.map_nil, List.sum_nil]
    omega
  | @ignore q rest hs hq hn ha =>
    have := q.work_pos
    simp only [Sequencer.work, hs, hq, List.map_cons, List.sum_cons]
    omega
  | @accept c r code data abort caller rest hs hc hq ha hr =>
    have := Chain.work_finish hr code data abort
    simp only [Sequencer.work, hs, hq, ha, SequencerStage.work, Command.work, List.map_cons,
      List.sum_cons, Option.elim_some]
    omega
  | release hs hq ha hr =>
    have := Chain.work_release hr
    simp only [Sequencer.work, hs, hq, ha, SequencerStage.work, Command.work, List.map_cons,
      List.sum_cons, Option.elim_some]
    omega
  | expire hs hq ha hd =>
    obtain ⟨r, hr⟩ := hv.awaiting hs ha
    have := Chain.work_expire hr
    simp only [Sequencer.work, hs, ha, SequencerStage.work, Option.elim_some]
    omega
  | expireReceiver hs hq ha hd =>
    obtain ⟨r, hr⟩ := hv.awaiting hs ha
    have := Chain.work_expireReceiver hr
    simp only [Sequencer.work, hs, ha, SequencerStage.work, Option.elim_some]
    omega
  | rest hs ha hp =>
    simp only [Sequencer.work, hs, SequencerStage.work]
    omega
  | @start c rest hs ha hp =>
    have := c.work_start v.now
    simp only [tell, Sequencer.work, ha, hp, List.map_cons, List.sum_cons, Option.elim_some,
      Option.elim_none]
    omega
  | park hs ha hr =>
    simp only [Sequencer.work, hs, SequencerStage.work]
    omega
  | pass hs ha hw hn he =>
    have := Chain.work_skip_next hn
    simp only [Sequencer.work, ha, Option.elim_some]
    omega
  | hold hs ha hw hn he hf =>
    have := Chain.work_skip_next hn
    simp only [Sequencer.work, ha, Option.elim_some]
    omega
  | hand hs ha hw hn he hf =>
    have := Chain.work_beginReceiving_next hn
    simp only [tell, Sequencer.work, hs, ha, SequencerStage.work, Option.elim_some]
    omega
  | @finish c c' reason hs ha hw hn hf =>
    have := c.two_le_work
    simp only [tell, Sequencer.work, hs, ha, Option.elim_some, Option.elim_none]
    omega
  | @close c c' reason f hs ha hw hn hf =>
    have := c.two_le_work
    simp only [tell, Sequencer.work, hs, ha, SequencerStage.work, Option.elim_some,
      Option.elim_none]
    omega
  | @parked n i c s hs ha hn | @overrun n i c s hs ha hn =>
    have := c.work_handedOff
    simp only [tell, Sequencer.work, hs, ha, SequencerStage.work, Option.elim_some]
    omega
  | @failed n i c s e hs ha hn =>
    have := c.work_skip
    simp only [tell, Sequencer.work, hs, ha, SequencerStage.work, Option.elim_some]
    omega
  | stray hs hn =>
    simp only [tell, Sequencer.work, hs, SequencerStage.work]
    omega
  | closed hs =>
    simp only [tell, Sequencer.work, hs, SequencerStage.work]
    omega

theorem Moves.workload_lt {evs : List ChainEvent} (h : v.Moves evs w) (hv : v.sequencer.Sound) :
    w.workload < v.workload := by
  have hf : w.fresh = v.fresh := by rw [h.frame]
  have hr : w.replay = v.replay := by rw [h.frame]
  have hs := h.work_lt hv
  rw [workload, workload, hf, hr]
  omega

end View

namespace Broker

def pendingSteps (calls : Table Nat Waiting) : Nat := (calls.rows.map fun r => r.2.work).sum

def callsLeft (b : Broker) : Nat := pendingSteps (b.calls.map Call.waiting)

section Calls

variable {calls : Table Nat Waiting} {k : Nat} {w w' : Waiting}

theorem pendingSteps_erase (h : calls.get? k = some w) :
    pendingSteps (calls.erase k) + w.work = pendingSteps calls := by
  have hp := ((Table.erase_perm h).map fun r : Nat × Waiting => r.2.work).sum_nat
  rw [List.map_cons, List.sum_cons] at hp
  rw [pendingSteps, pendingSteps, hp, Nat.add_comm]

theorem pendingSteps_insert (h : calls.get? k = some w) :
    pendingSteps (calls.insert k w') + w.work = pendingSteps calls + w'.work := by
  have hp := ((Table.insert_perm (t := calls) (k := k) (v := w')).map
    fun r : Nat × Waiting => r.2.work).sum_nat
  have he := pendingSteps_erase h
  simp only [List.map_cons, List.sum_cons] at hp
  simp only [pendingSteps] at he ⊢
  omega

variable {b b' : Broker} {call : Nat}

theorem callsLeft_of_waits (h : b'.waits = b.waits) : b'.callsLeft = b.callsLeft := by
  have hmap : b'.calls.map Call.waiting = b.calls.map Call.waiting := by
    refine Table.ext_get? fun k => ?_
    rw [Table.get?_map, Table.get?_map]
    exact congrFun h k
  rw [callsLeft, hmap, callsLeft]

theorem callsLeft_endCall (h : b.waits call = some w) :
    (b.endCall call).callsLeft + w.work = b.callsLeft := by
  rw [waits, ← Table.get?_map] at h
  rw [callsLeft, endCall, Table.map_erase]
  exact pendingSteps_erase h

theorem callsLeft_setCall (h : b.waits call = some w) (w' : Waiting) :
    (b.setCall call w').callsLeft + w.work = b.callsLeft + w'.work := by
  rw [waits, ← Table.get?_map] at h
  rw [callsLeft, setCall, Table.map_insert]
  exact pendingSteps_insert h

theorem callsLeft_retire {cause : Departure} {total : Nat} {leaving : List Subscriber}
    (h : b.waits call = some w) (hw : leaving.length + 1 < w.work) :
    (retire call cause total leaving b).2.callsLeft < b.callsLeft := by
  induction leaving generalizing b with
  | nil =>
    have hd : (b.allDeparted cause total).2.waits = b.waits := by
      cases cause with
      | unsubscribed => rfl
      | ownerDied pid =>
        simp only [allDeparted]
        split <;> rfl
    have hend := callsLeft_endCall (hd.symm ▸ h : (b.allDeparted cause total).2.waits call = some w)
    have hleft := callsLeft_of_waits hd
    rw [retire]
    dsimp only
    omega
  | cons s rest ih =>
    rw [retire]
    dsimp only
    split
    · have hset := callsLeft_setCall (b := { b with vault := (b.vault.purge s.id).2 }) h
        (.retire ⟨cause, total, s, (b.vault.purge s.id).1, rest⟩)
      have hleft :
          Waiting.work (.retire ⟨cause, total, s, (b.vault.purge s.id).1, rest⟩) < w.work := by
        simp only [Waiting.work, List.length_cons] at hw ⊢
        omega
      change (setCall { b with vault := (b.vault.purge s.id).2 } call _).callsLeft < _
      change _ = b.callsLeft + _ at hset
      omega
    · refine ih h ?_
      simp only [List.length_cons] at hw
      omega

theorem callsLeft_resume {p : Progress} (h : b.resume call = some (p, b')) :
    b'.callsLeft < b.callsLeft := by
  have ended {c : Broker} {w : Waiting} (hc : c.waits = b.waits) (hw : b.waits call = some w) :
      (c.endCall call).callsLeft < b.callsLeft := by
    have hend := callsLeft_endCall (hc.symm ▸ hw : c.waits call = some w)
    have hleft := callsLeft_of_waits hc
    have := w.work_pos
    omega
  have retired {r : Retirement} (released : Bool) (hw : b.waits call = some (.retire r)) :
      (retire call r.cause r.total r.rest
        (b.departed r.current r.dropped released r.cause.reason)).2.callsLeft < b.callsLeft :=
    callsLeft_retire (b := b.departed r.current r.dropped released r.cause.reason) hw
      (by simp only [Waiting.work]; omega)
  rw [resume] at h
  cases hc : b.calls.get? call with
  | none =>
    rw [hc] at h
    cases h
  | some c =>
    obtain ⟨waiting, answer⟩ := c
    have hw : b.waits call = some waiting := by
      rw [waits, hc]
      rfl
    rw [hc] at h
    cases waiting with
    | shutdown workers =>
      dsimp only at h
      split at h
      · cases h
        exact ended rfl hw
      · cases h
    | retire r =>
      cases answer with
      | none => cases h
      | some a =>
        have hb' : ∃ released, b' = (retire call r.cause r.total r.rest
            (b.departed r.current r.dropped released r.cause.reason)).2 := by
          cases a <;> exact ⟨_, (congrArg Prod.snd (Option.some.inj h)).symm⟩
        obtain ⟨released, rfl⟩ := hb'
        exact retired released hw
    | _ =>
      cases answer with
      | none => cases h
      | some a =>
        have hb' : b' = b.endCall call := by
          cases a <;> exact (congrArg Prod.snd (Option.some.inj h)).symm
        subst hb'
        exact ended rfl hw

end Calls

end Broker

end EventBroker
