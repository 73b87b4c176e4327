import EventBroker.Proofs.Parcels

namespace EventBroker

inductive Cause
  | gone
  | outdated
  | purged
  | unrestored
  | aborted
  | overdue
  | abandoned
  | wrecked
  deriving DecidableEq

structure Loss where
  cause : Cause
  parcel : Parcel

def Loss.parcels (lost : List Loss) : List Parcel := lost.map Loss.parcel

theorem Loss.parcels_map (cause : Cause) (l : List Parcel) :
    Loss.parcels (l.map (⟨cause, ·⟩)) = l := by
  rw [parcels, List.map_map]
  exact List.map_id' l

def Chain.losses (c : Chain) : FinishReason → List Loss
  | .exhausted => []
  | .aborted => c.parcels.map (⟨.aborted, ·⟩)
  | .watchdog => c.parcels.map (⟨.overdue, ·⟩)

namespace View

variable (v : View)

/-- What is lost when it is a subscription's turn: its parcel if it is gone, and if it is frozen,
what was held for it for too long. -/
def turnLosses (id : SubscriberId) (serial : Nat) : List Loss :=
  match v.registry.entry? id with
  | none => [⟨.gone, (serial, id)⟩]
  | some e =>
    if e.frozenAt = none then []
    else ((v.vault.shelfFor e.subscriber).expired v.vault.retention v.now).map fun a =>
      ⟨.outdated, (a.1.serial, id)⟩

def courierLosses (lane : Lane) (w : View) : List Loss :=
  match (v.queue lane).courier, (w.queue lane).courier with
  | .waiting, .stopped => ((v.queue lane).jobs.flatMap Job.parcels).map (⟨.abandoned, ·⟩)
  | .carrying (d :: _), _ => v.turnLosses d.target d.copy.serial
  | _, _ => []

def stepLosses (c : Chain) : ChainStep → List Loss
  | .deliver _ r => v.turnLosses r c.copy.serial
  | .finalize reason => c.losses reason
  | .overrun => []

def sequencerLosses (w : View) : List Loss :=
  match v.sequencer.stage, w.sequencer.stage with
  | .listening, .stopped => v.sequencer.parcels.map (⟨.abandoned, ·⟩)
  | .pumping, .stopped => v.sequencer.parcels.map (⟨.wrecked, ·⟩)
  | .pumping, _ =>
    match v.sequencer.active with
    | none => []
    | some c => if c.awaiting.isSome then [] else v.stepLosses c (c.next v.now).1
  | _, _ => []

def Settles (new : List Parcel) (lost : List Loss) (w : View) : Prop :=
  ∀ x, w.parcels.count x + (Loss.parcels lost).count x = v.parcels.count x + new.count x

variable {v} {w : View}

theorem Settles.refl (v : View) : v.Settles [] [] v := fun _ => rfl

theorem Settles.of_eq (h : w.parcels = v.parcels) : v.Settles [] [] w := by
  intro x
  rw [h]
  rfl

theorem turnLosses_gone {id : SubscriberId} (h : v.registry.entry? id = none) (serial : Nat) :
    v.turnLosses id serial = [⟨.gone, (serial, id)⟩] := by
  rw [turnLosses, h]

theorem turnLosses_ready {id : SubscriberId} {e : Entry} (h : v.registry.entry? id = some e)
    (hf : e.frozenAt = none) (serial : Nat) : v.turnLosses id serial = [] := by
  rw [turnLosses, h]
  exact if_pos hf

theorem count_hold {id : SubscriberId} {e : Entry} (hr : v.registry.Sound)
    (h : v.registry.entry? id = some e) (hf : e.frozenAt ≠ none) (copy : Copy) (x : Parcel) :
    (v.vault.capture e.subscriber copy v.now).parcels.count x +
        (Loss.parcels (v.turnLosses id copy.serial)).count x =
      v.vault.parcels.count x + [(copy.serial, id)].count x := by
  have hid : e.subscriber.id = id := hr.keyed h
  have hv := (v.vault.parcels_capture e.subscriber copy v.now).count_eq x
  rw [List.count_append, List.count_append, hid] at hv
  have hl : Loss.parcels (v.turnLosses id copy.serial) =
      ((v.vault.shelfFor e.subscriber).expired v.vault.retention v.now).map
        fun a => (a.1.serial, id) := by
    rw [turnLosses, h]
    dsimp only
    rw [if_neg hf, Loss.parcels, List.map_map]
    rfl
  rw [hl]
  exact hv

theorem Carries.settles {lane : Lane} (h : v.Carries lane w) (hr : v.registry.Sound) :
    v.Settles [] (v.courierLosses lane w) w := by
  intro x
  rw [List.count_nil, Nat.add_zero]
  cases h with
  | rest h =>
    have hq := v.count_setCourier lane .waiting x
    rw [courierLosses, h]
    rw [h] at hq
    exact hq
  | stop h hc =>
    have hq := v.count_setJobs lane [] .stopped x
    rw [courierLosses, h, queue_setQueue]
    rw [h] at hq
    dsimp only
    rw [Loss.parcels_map]
    simpa [CourierStage.left] using hq
  | @take job rest h hj =>
    have hq := v.count_setJobs lane rest (.carrying job.deliveries) x
    rw [courierLosses, h, queue_setQueue]
    rw [h, hj, List.flatMap_cons, List.count_append] at hq
    change _ + (0 + (job.parcels.count x + _)) = _ + (job.parcels.count x + _) at hq
    change _ + 0 = _
    omega
  | @pass d rest h hd =>
    have hq := v.count_setCourier lane (.carrying rest) x
    rw [courierLosses, h]
    dsimp only
    rw [turnLosses_gone hd]
    rw [h] at hq
    change _ + ([d.parcel] ++ rest.map Delivery.parcel).count x = _ + (rest.map _).count x at hq
    change _ + [d.parcel].count x = _
    rw [List.count_append] at hq
    omega
  | @hold d rest e h he hf =>
    have hvault := v.count_setVault (v.vault.capture e.subscriber d.copy v.now) x
    have hheld := count_hold hr he hf d.copy x
    have hqueue : { v with vault := v.vault.capture e.subscriber d.copy v.now }.queue lane =
        v.queue lane := by
      cases lane <;> rfl
    have hq := { v with vault := v.vault.capture e.subscriber d.copy v.now }.count_setCourier lane
      (.carrying rest) x
    rw [courierLosses, h]
    rw [hqueue, h] at hq
    change _ + ([d.parcel] ++ rest.map Delivery.parcel).count x = _ + (rest.map _).count x at hq
    change _ = _ + [d.parcel].count x at hheld
    rw [List.count_append] at hq
    dsimp only
    omega
  | @hand d rest e h he hf =>
    have hq := v.count_setCourier lane (.handing (d.notice e.subscriber v.now) rest) x
    have hid : e.subscriber.id = d.target := hr.keyed he
    have hparcel : (Signal.notifying (d.notice e.subscriber v.now)).parcel? = some d.parcel := by
      rw [Delivery.parcel, ← hid]
      rfl
    rw [courierLosses, h, parcels_tell, hparcel]
    dsimp only
    rw [turnLosses_ready he hf, List.count_append]
    rw [h] at hq
    change _ + ([d.parcel] ++ rest.map Delivery.parcel).count x = _ + (rest.map _).count x at hq
    change _ + [d.parcel].count x + 0 = _
    rw [List.count_append] at hq
    omega
  | @handed n rest h result =>
    have hq := v.count_setCourier lane (.carrying rest) x
    rw [courierLosses, h, parcels_tell]
    rw [h] at hq
    change _ + (rest.map Delivery.parcel).count x = _ + (rest.map _).count x at hq
    change (_ ++ []).count x + 0 = _
    rw [List.append_nil]
    omega

section Sequencing

variable {new : List Parcel} {lost : List Loss}

theorem Settles.tell (h : v.Settles new lost w) {s : Signal} (hs : s.parcel? = none) :
    v.Settles new lost (w.tell s) := by
  intro x
  rw [parcels_tell, hs, Option.toList_none, List.append_nil]
  exact h x

theorem Settles.sequencer {s : Sequencer} (hv : v.sequencer.stage ≠ .stopped)
    (hs : s.stage ≠ .stopped)
    (h : ∀ x, s.load.count x + (Loss.parcels lost).count x = v.sequencer.load.count x) :
    v.Settles [] lost { v with sequencer := s } := by
  intro x
  have hset := v.count_setSequencer s x
  have h := h x
  rw [Sequencer.parcels_of_ne hv, Sequencer.parcels_of_ne hs] at hset
  rw [List.count_nil]
  omega

theorem Settles.stopped (cause : Cause) {s : Sequencer} (hs : s.stage = .stopped) :
    v.Settles [] (v.sequencer.parcels.map (⟨cause, ·⟩)) { v with sequencer := s } := by
  intro x
  have hset := v.count_setSequencer s x
  rw [Sequencer.parcels_of_stopped hs] at hset
  rw [Loss.parcels_map]
  exact hset

theorem Settles.active {c c' : Chain} {s : Sequencer} (hv : v.sequencer.stage ≠ .stopped)
    (hw : s.stage ≠ .stopped) (ha : v.sequencer.active = some c) (hs : s.active = some c')
    (hp : s.pending = v.sequencer.pending)
    (hc : Command.chains s.commands = Command.chains v.sequencer.commands)
    (h : c'.parcels = c.parcels) : v.Settles [] [] { v with sequencer := s } := by
  apply Settles.sequencer hv hw
  intro x
  rw [Sequencer.count_active ha, Sequencer.count_active hs, hp, hc, h]
  rfl

theorem sequencerLosses_listening (h : v.sequencer.stage = .listening)
    (hw : w.sequencer.stage ≠ .stopped) : v.sequencerLosses w = [] := by
  rw [sequencerLosses, h]
  split
  · contradiction
  · contradiction
  · contradiction
  · rfl

theorem sequencerLosses_busy (hl : v.sequencer.stage ≠ .listening)
    (hp : v.sequencer.stage ≠ .pumping) : v.sequencerLosses w = [] := by
  rw [sequencerLosses]
  split
  · contradiction
  · contradiction
  · contradiction
  · rfl

theorem sequencerLosses_none (h : v.sequencer.stage = .pumping)
    (hw : w.sequencer.stage ≠ .stopped) (ha : v.sequencer.active = none) :
    v.sequencerLosses w = [] := by
  rw [sequencerLosses, h, ha]
  split <;> first | contradiction | rfl

theorem sequencerLosses_awaiting {c : Chain} {r : SubscriberId} (h : v.sequencer.stage = .pumping)
    (hs : w.sequencer.stage ≠ .stopped) (ha : v.sequencer.active = some c)
    (hr : c.awaiting = some r) : v.sequencerLosses w = [] := by
  rw [sequencerLosses, h, ha]
  split
  · contradiction
  · contradiction
  · dsimp only
    rw [hr]
    rfl
  · rfl

theorem sequencerLosses_next {c c' : Chain} {step : ChainStep} (h : v.sequencer.stage = .pumping)
    (hs : w.sequencer.stage ≠ .stopped) (ha : v.sequencer.active = some c) (hw : c.awaiting = none)
    (hn : c.next v.now = (step, c')) :
    v.sequencerLosses w = v.stepLosses c step := by
  rw [sequencerLosses, h, ha]
  split
  · contradiction
  · contradiction
  · dsimp only
    rw [hw, hn]
    rfl
  · contradiction

theorem count_chainLosses {c c' : Chain} {reason : FinishReason} {now : Instant}
    (hn : c.next now = (.finalize reason, c')) (x : Parcel) :
    (Loss.parcels (c.losses reason)).count x = c.parcels.count x := by
  cases reason with
  | exhausted =>
    rw [Chain.parcels_exhausted hn]
    rfl
  | aborted => rw [Chain.losses, Loss.parcels_map]
  | watchdog => rw [Chain.losses, Loss.parcels_map]

theorem Settles.left {c c' : Chain} {s : Sequencer} {reason : FinishReason}
    (hv : v.sequencer.stage ≠ .stopped) (hw : s.stage ≠ .stopped)
    (ha : v.sequencer.active = some c) (hn : c.next v.now = (.finalize reason, c'))
    (hs : s.active = none) (hp : s.pending = v.sequencer.pending)
    (hc : s.commands = v.sequencer.commands) :
    v.Settles [] (c.losses reason) { v with sequencer := s } := by
  apply Settles.sequencer hv hw
  intro x
  rw [count_chainLosses hn]
  exact Sequencer.count_left ha hs hp hc x

theorem Moves.running {es : List ChainEvent} (h : v.Moves es w) :
    v.sequencer.stage ≠ .stopped := by
  cases h <;> simp [*]

theorem Moves.settles {es : List ChainEvent} (h : v.Moves es w) (hv : v.Sound) :
    v.Settles [] (v.sequencerLosses w) w := by
  -- Where the sequencer goes on, each case compares what it carries before and after.
  have hrun := h.running
  cases h with
  | stop h hc =>
    rw [sequencerLosses, h]
    exact Settles.stopped .abandoned rfl
  | breakDown h ha hb =>
    rw [sequencerLosses, h]
    exact Settles.stopped .wrecked rfl
  | @enqueue c rest h hq =>
    rw [sequencerLosses_listening h (by simp)]
    apply Settles.sequencer hrun (by simp)
    intro x
    rw [Sequencer.count_load, Sequencer.count_load, hq]
    have hc : Command.chains (.enqueue c :: rest) = c :: Command.chains rest := rfl
    rw [hc, List.flatMap_cons, List.flatMap_append, List.count_append, List.count_append]
    simp only [List.flatMap_singleton]
    change _ + 0 = _
    omega
  | @ignore q rest h hq hn ha =>
    rw [sequencerLosses_listening h (by simp [h])]
    apply Settles.sequencer hrun (by simp [h])
    intro x
    have hc : Command.chains (q :: rest) = Command.chains rest := List.filterMap_cons_none hn
    rw [Sequencer.count_load, Sequencer.count_load, hq, hc]
    rfl
  | accept h hc hq ha hr =>
    rw [sequencerLosses_listening h (by simp)]
    refine Settles.active hrun (by simp) ha rfl rfl ?_ (Chain.parcels_finish hr _ _ _)
    rw [hq]
    rfl
  | release h hq ha hr =>
    rw [sequencerLosses_listening h (by simp)]
    refine Settles.active hrun (by simp) ha rfl rfl ?_ (Chain.parcels_release hr)
    rw [hq]
    rfl
  | expire h hq ha hd =>
    obtain ⟨r, hr⟩ := hv.sequencer.awaiting h ha
    rw [sequencerLosses_listening h (by simp)]
    exact Settles.active hrun (by simp) ha rfl rfl rfl (Chain.parcels_expire hr)
  | expireReceiver h hq ha hd =>
    obtain ⟨r, hr⟩ := hv.sequencer.awaiting h ha
    rw [sequencerLosses_listening h (by simp)]
    exact Settles.active hrun (by simp) ha rfl rfl rfl (Chain.parcels_expireReceiver hr)
  | rest h ha hp =>
    rw [sequencerLosses_none h (by simp) ha]
    exact Settles.sequencer hrun (by simp) fun _ => rfl
  | @start c rest h ha hp =>
    rw [sequencerLosses_none h (by simp [tell, h]) ha]
    apply Settles.tell _ rfl
    apply Settles.sequencer hrun (by simp [h])
    intro x
    rw [Sequencer.count_active (c := c.start v.now) rfl, Sequencer.count_idle ha, hp,
      List.flatMap_cons, List.count_append]
    rfl
  | park h ha hr =>
    rw [sequencerLosses_awaiting h (by simp) ha hr]
    exact Settles.sequencer hrun (by simp) fun _ => rfl
  | @pass c c' i r h ha hw hn he =>
    rw [sequencerLosses_next h (by simp [h]) ha hw hn, stepLosses, turnLosses_gone he]
    apply Settles.sequencer hrun (by simp [h])
    exact Sequencer.count_reached ha rfl rfl rfl (by rw [Chain.parcels_skip, Chain.parcels_next hn])
  | @hold c c' i r e h ha hw hn he hf =>
    rw [sequencerLosses_next h (by simp [h]) ha hw hn, stepLosses]
    intro x
    have hboth := v.count_setBoth (v.vault.capture e.subscriber c.copy v.now)
      { v.sequencer with active := some c'.skip } x
    have hheld := count_hold hv.registry he hf c.copy x
    have hs := Sequencer.count_reached (t := { v.sequencer with active := some c'.skip }) ha rfl rfl
      rfl (by rw [Chain.parcels_skip, Chain.parcels_next hn]) x
    rw [Sequencer.parcels_of_ne hrun, Sequencer.parcels_of_ne (by simp [h])] at hboth
    rw [List.count_nil]
    omega
  | @hand c c' i r e h ha hw hn he hf =>
    rw [sequencerLosses_next h (by simp [tell]) ha hw hn, stepLosses, turnLosses_ready he hf]
    intro x
    have hset := v.count_setSequencer { v.sequencer with
      active := some (c'.beginReceiving v.now)
      stage := .handing (c.notice e.subscriber.receiver (some e.subscriber) v.now) i } x
    have hs := Sequencer.count_reached (t := { v.sequencer with
      active := some (c'.beginReceiving v.now)
      stage := .handing (c.notice e.subscriber.receiver (some e.subscriber) v.now) i }) ha rfl rfl
      rfl (by rw [Chain.parcels_next hn]; rfl) x
    have hid : e.subscriber.id = r := hv.registry.keyed he
    have hparcel : (Signal.notifying (c.notice e.subscriber.receiver (some e.subscriber)
        v.now)).parcel? = some (c.copy.serial, r) := by
      rw [← hid]
      rfl
    rw [Sequencer.parcels_of_ne hrun, Sequencer.parcels_of_ne (by simp)] at hset
    rw [parcels_tell, hparcel, List.count_append]
    change _ + [(c.copy.serial, r)].count x + 0 = _ + 0
    omega
  | finish h ha hw hn hf =>
    rw [sequencerLosses_next h (by simp [tell]) ha hw hn, stepLosses]
    apply Settles.tell
    · exact Settles.left hrun (by simp) ha hn rfl rfl rfl
    · rfl
  | close h ha hw hn hf =>
    rw [sequencerLosses_next h (by simp [tell]) ha hw hn, stepLosses]
    apply Settles.tell
    · exact Settles.left hrun (by simp) ha hn rfl rfl rfl
    · rfl
  | parked h ha hs | overrun h ha hs =>
    rw [sequencerLosses_busy (by simp [h]) (by simp [h])]
    apply Settles.tell
    · exact Settles.active hrun (by simp) ha rfl rfl rfl (Chain.parcels_handedOff _)
    · rfl
  | failed h ha hs =>
    rw [sequencerLosses_busy (by simp [h]) (by simp [h])]
    apply Settles.tell
    · exact Settles.active hrun (by simp) ha rfl rfl rfl (Chain.parcels_skip _)
    · rfl
  | stray h hs =>
    rw [sequencerLosses_busy (by simp [h]) (by simp [h])]
    apply Settles.tell _ rfl
    exact Settles.sequencer hrun (by simp) fun _ => rfl
  | closed h =>
    rw [sequencerLosses_busy (by simp [h]) (by simp [h])]
    apply Settles.tell
    · apply Settles.tell
      · exact Settles.sequencer hrun (by simp) fun _ => rfl
      · rfl
    · rfl

end Sequencing

end View

end EventBroker
