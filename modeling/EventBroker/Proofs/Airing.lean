import EventBroker.Proofs.Fanout
import EventBroker.Proofs.Effects.Topics
import EventBroker.Proofs.Runs

namespace EventBroker

open Observers (Motion Output)

def Record.isReport (r : Record) : Bool :=
  r.kind == .observerOverflow || r.kind == .observerPanicked

def Occurrence.output? : Occurrence → Option Output
  | .observing i r => some (.shown i r)
  | .record r => if r.isReport then some (.published r) else none
  | _ => none

def Observers.Output.occurrence : Output → Occurrence
  | .shown i r => .observing i r
  | .published r => .record r

structure Reads {β : Type} (f : Occurrence → Option β) : Prop where
  logged : ∀ l, f (.logged l) = none
  queued : ∀ w, f (.queued w) = none
  stopped : ∀ w, f (.stopped w) = none

namespace Bus

variable {α : Type}

def unread (bus : Bus α) (i : Nat) : List α := (bus.readers[i]?.map (·.unread)).getD []

end Bus

namespace Broker

def motion (b : Broker) : Action → Option Motion
  | .work .listener =>
    match b.listener with
    | some ⟨reader, .listening⟩ =>
      if b.cancelled then some .close else (forwarded (b.bus.take reader).1).map .emit
    | _ => none
  | .work (.observer i) => some (.work i)
  | .observed i panic => some (.done i panic)
  | _ => none

def motions (b : Broker) : List Action → List Motion
  | [] => []
  | a :: rest => (b.motion a).toList ++ (b.act a).motions rest

def records (b : Broker) : List Record := b.told Occurrence.record?

section Reporting

theorem foldl_applyEmission (es : List Emission) (b : Broker) :
    (es.foldl applyEmission b).listener = b.listener ∧
      (es.foldl applyEmission b).observers = b.observers ∧
      (es.foldl applyEmission b).bus =
        (es.filterMap Emission.report?).foldl Bus.publish b.bus ∧
      ∀ {β : Type} {f : Occurrence → Option β}, Reads f → (es.foldl applyEmission b).told f =
        b.told f ++ (es.filterMap Emission.report?).filterMap fun r => f (.record r) := by
  induction es generalizing b with
  | nil => simp
  | cons e rest ih =>
    obtain ⟨hl, ho, hb, ht⟩ := ih (b.applyEmission e)
    rw [List.foldl_cons, hl, ho, hb]
    cases e with
    | queued i =>
      refine ⟨rfl, rfl, rfl, fun {β f} hf => ?_⟩
      rw [ht hf, applyEmission, told_note, hf.queued]
      simp [Emission.report?, List.filterMap_cons]
    | lost report =>
      cases report with
      | none => exact ⟨rfl, rfl, rfl, ht⟩
      | some r =>
        refine ⟨rfl, rfl, rfl, fun {β f} hf => ?_⟩
        rw [ht hf, applyEmission, told_emit, List.append_assoc]
        cases hr : f (.record r) <;> simp [Emission.report?, hr]

theorem foldl_wake (is : List Nat) (b : Broker) :
    (is.foldl (fun b i => b.note (.queued (.observer i))) b).listener = b.listener ∧
      (is.foldl (fun b i => b.note (.queued (.observer i))) b).observers = b.observers ∧
      (is.foldl (fun b i => b.note (.queued (.observer i))) b).bus = b.bus ∧
      ∀ {β : Type} {f : Occurrence → Option β}, Reads f →
        (is.foldl (fun b i => b.note (.queued (.observer i))) b).told f = b.told f := by
  induction is generalizing b with
  | nil => exact ⟨rfl, rfl, rfl, fun _ => rfl⟩
  | cons i rest ih =>
    obtain ⟨hl, ho, hb, ht⟩ := ih (b.note (.queued (.observer i)))
    refine ⟨hl, ho, hb, fun {β f} hf => (ht hf).trans ?_⟩
    rw [told_note, hf.queued]
    exact List.append_nil _

theorem offer_reports (b : Broker) (r : Record) :
    (b.offer r).listener = b.listener ∧ (b.offer r).observers = (b.observers.emit r).2 ∧
      (b.offer r).bus = (b.observers.members.filterMap (·.report? r)).foldl Bus.publish b.bus ∧
      ∀ {β : Type} {f : Occurrence → Option β}, Reads f → (b.offer r).told f = b.told f ++
        (b.observers.step (.emit r)).1.filterMap fun out => f out.occurrence := by
  obtain ⟨hl, ho, hb, ht⟩ := foldl_applyEmission (b.observers.emit r).1
    { b with observers := (b.observers.emit r).2 }
  refine ⟨hl, ho, hb.trans (by rw [Observers.reports_emit]), fun hf => (ht hf).trans ?_⟩
  rw [Observers.step, List.filterMap_map]
  rfl

end Reporting

section Observing

variable {b b' : Broker} {i : Nat}

theorem observerStep_none (h : b.observerStep i = none) :
    b.observers.step (.work i) = ([], b.observers) := by
  rw [observerStep] at h
  split at h
  · rename_i hw
    rw [Observers.step, hw]
  · cases h
  · cases h

theorem observerStep_eq (h : b.observerStep i = some b') :
    b'.listener = b.listener ∧ b'.bus = b.bus ∧
      b'.observers = (b.observers.step (.work i)).2 ∧
      ∀ {β : Type} {f : Occurrence → Option β}, Reads f → b'.told f = b.told f ++
        (b.observers.step (.work i)).1.filterMap fun out => f out.occurrence := by
  rw [observerStep] at h
  split at h
  · cases h
  · rename_i observers hw
    cases h
    rw [Observers.step, hw]
    refine ⟨rfl, rfl, rfl, fun {β f} hf => ?_⟩
    rw [told_note, hf.stopped]
    rfl
  · rename_i o r observers hw
    cases h
    rw [Observers.step, hw]
    refine ⟨?_, ?_, ?_, fun {β f} hf => ?_⟩
    · split <;> rfl
    · split <;> rfl
    · split <;> rfl
    · have hnoted : ({ b with observers }.note (.observing i r)).told f = b.told f ++
          [Output.shown i r].filterMap fun out => f out.occurrence := by
        rw [told_note]
        cases hr : f (.observing i r) <;> simp [Output.occurrence, hr] <;> rfl
      split
      · rw [log, told_note, hf.logged, Option.toList_none, List.append_nil, hnoted]
      · exact hnoted

theorem observerConclude_eq (b : Broker) (i : Nat) (panic : Option Panic) :
    (b.observerConclude i panic).listener = b.listener ∧
      (b.observerConclude i panic).observers = (b.observers.step (.done i panic)).2 ∧
      (b.observerConclude i panic).bus =
        (b.observers.done i panic).1.toList.foldl Bus.publish b.bus ∧
      ∀ {β : Type} (f : Occurrence → Option β), (b.observerConclude i panic).told f =
        b.told f ++ (b.observers.step (.done i panic)).1.filterMap fun out => f out.occurrence := by
  rw [observerConclude, Observers.step]
  split
  · rename_i observers hd
    rw [hd]
    exact ⟨rfl, rfl, rfl, fun f => (List.append_nil _).symm⟩
  · rename_i report observers hd
    rw [hd]
    refine ⟨rfl, rfl, rfl, fun f => ?_⟩
    rw [told_emit]
    cases hr : f (.record report) <;> simp [Output.occurrence, hr] <;> rfl

end Observing

theorem listener_observes {b b' : Broker} (h : b.Listens b') :
    b'.observers = b.observers.after (b.motion (.work .listener)).toList ∧
      ∀ {β : Type} {f : Occurrence → Option β}, Reads f → b'.told f = b.told f ++
        (b.observers.outputs (b.motion (.work .listener)).toList).filterMap fun out =>
          f out.occurrence := by
  cases h with
  | @forward l r hl hs hc hr =>
    have hm : b.motion (.work .listener) = some (.emit r) := by
      obtain ⟨reader, stage⟩ := l
      cases hs
      simp [motion, hl, hc, hr]
    rw [hm]
    obtain ⟨-, ho, -, ht⟩ := offer_reports { b with bus := (b.bus.take l.reader).2 } r
    refine ⟨ho, fun {β f} hf => (ht hf).trans ?_⟩
    rw [Option.toList_some, Observers.outputs, Observers.outputs, List.append_nil]
    rfl
  | @drain l hl hs hc =>
    have hm : b.motion (.work .listener) = some .close := by
      obtain ⟨reader, stage⟩ := l
      cases hs
      simp [motion, hl, hc]
    rw [hm]
    obtain ⟨-, ho, -, ht⟩ := foldl_wake (List.range b.observers.members.length)
      ({ b with observers := b.observers.close }.setListener { l with stage := .draining })
    exact ⟨ho, fun {β f} hf => (ht hf).trans (List.append_nil _).symm⟩
  | @stop l hl hs ho =>
    have hm : b.motion (.work .listener) = none := by
      obtain ⟨reader, stage⟩ := l
      cases hs
      simp [motion, hl]
    rw [hm]
    refine ⟨rfl, fun {β f} hf => ?_⟩
    rw [told_note, hf.stopped]
    rfl

theorem listenerStep_none {b : Broker} (h : b.listenerStep = none) :
    b.motion (.work .listener) = none := by
  rw [motion]
  split
  · rename_i reader hl
    rw [listenerStep, hl] at h
    dsimp only at h
    split at h
    · cases h
    · rename_i hc
      rw [if_neg hc]
      split at h
      · rename_i ht
        rw [ht]
        rfl
      · cases h
      · cases h
  · rfl

theorem act_observing (b : Broker) {a : Action} (h : observes a = true) :
    (b.act a).observers = b.observers.after (b.motion a).toList ∧
      ∀ {β : Type} {f : Occurrence → Option β}, Reads f → (b.act a).told f = b.told f ++
        (b.observers.outputs (b.motion a).toList).filterMap fun out => f out.occurrence := by
  have same : b.observers = b.observers.after [] ∧
      ∀ {β : Type} {f : Occurrence → Option β}, Reads f → b.told f = b.told f ++
        (b.observers.outputs []).filterMap fun out => f out.occurrence :=
    ⟨rfl, fun _ => (List.append_nil _).symm⟩
  cases a with
  | work w =>
    cases w with
    | listener =>
      change ((b.listenerStep).getD b).observers = _ ∧ ∀ {β : Type} {f : Occurrence → Option β},
        Reads f → ((b.listenerStep).getD b).told f = _
      cases hb : b.listenerStep with
      | none =>
        rw [listenerStep_none hb]
        exact same
      | some b' => exact listener_observes (listens hb)
    | observer i =>
      change ((b.observerStep i).getD b).observers = _ ∧ ∀ {β : Type} {f : Occurrence → Option β},
        Reads f → ((b.observerStep i).getD b).told f = _
      simp only [motion, Option.toList_some, Observers.outputs, List.append_nil]
      cases hb : b.observerStep i with
      | none =>
        have hstep := observerStep_none hb
        refine ⟨(congrArg Prod.snd hstep).symm, fun {β f} hf => ?_⟩
        rw [hstep]
        exact (List.append_nil _).symm
      | some b' => exact ⟨(observerStep_eq hb).2.2.1, (observerStep_eq hb).2.2.2⟩
    | _ => cases h
  | observed i panic =>
    obtain ⟨-, ho, -, ht⟩ := b.observerConclude_eq i panic
    simp only [motion, Option.toList_some, Observers.outputs, List.append_nil]
    exact ⟨ho, fun {β f} _ => ht f⟩
  | _ => cases h

theorem reads_output : Reads Occurrence.output? := ⟨fun _ => rfl, fun _ => rfl, fun _ => rfl⟩

theorem topics_unreported {a : Action} (h : observes a = false) :
    .observing ∉ a.topics ∧ .record .observerOverflow ∉ a.topics ∧
      .record .observerPanicked ∉ a.topics := by
  cases a with
  | work w =>
    cases w with
    | courier lane => refine ⟨?_, ?_, ?_⟩ <;> simp [Action.topics]
    | sequencer => refine ⟨?_, ?_, ?_⟩ <;> simp [Action.topics, Topic.sequencing]
    | _ => cases h
  | handedOff w reception =>
    cases w <;> refine ⟨?_, ?_, ?_⟩ <;> simp [Action.topics, Topic.concluding]
  | observed i panic => cases h
  | _ =>
    refine ⟨?_, ?_, ?_⟩ <;> simp [Action.topics, Topic.subscribing, Topic.publishing]

theorem motion_of_not_observes {b : Broker} {a : Action} (h : observes a = false) :
    b.motion a = none := by
  cases a with
  | work w => cases w <;> first | rfl | cases h
  | observed i panic => cases h
  | _ => rfl

theorem Within.unreported {ts : List Topic} {b b' : Broker} (h : b.Within ts b')
    (ht : .observing ∉ ts ∧ .record .observerOverflow ∉ ts ∧ .record .observerPanicked ∉ ts) :
    b.Tells (fun o => o.output? = none) b' := by
  refine Tells.imp h fun o ho => ?_
  cases o with
  | observing i r => exact absurd (ho _ rfl) ht.1
  | record r =>
    have hkind := ho _ rfl
    have hne : r.isReport = false := by
      rw [Record.isReport, Bool.or_eq_false_iff, beq_eq_false_iff_ne, beq_eq_false_iff_ne]
      exact ⟨fun hk => ht.2.1 (hk ▸ hkind), fun hk => ht.2.2 (hk ▸ hkind)⟩
    simp [Occurrence.output?, hne]
  | _ => rfl

theorem output?_of_mem {os : Observers} {m : Motion} {out : Output} (h : out ∈ (os.step m).1) :
    out.occurrence.output? = some out := by
  have published {r : Record} (hr : r.kind = .observerOverflow ∨ r.kind = .observerPanicked) :
      (Output.published r).occurrence.output? = some (.published r) := by
    simp only [Output.occurrence, Occurrence.output?, Record.isReport]
    cases hr with
    | inl hr => simp [hr]
    | inr hr => simp [hr]
  cases m with
  | emit r =>
    rw [Observers.step, Observers.reports_emit] at h
    obtain ⟨report, hreport, rfl⟩ := List.mem_map.1 h
    obtain ⟨o, -, ho⟩ := List.mem_filterMap.1 hreport
    exact published (.inl (Observer.report?_kind ho))
  | close => cases h
  | work i =>
    rw [Observers.step] at h
    split at h
    · cases h
    · cases h
    · cases List.mem_singleton.1 h
      rfl
  | done i panic =>
    obtain ⟨report, hreport, rfl⟩ := List.mem_map.1 h
    have hdone : os.done i panic = (some report, (os.done i panic).2) :=
      Prod.ext (Option.mem_toList.1 hreport) rfl
    exact published (.inr (Observers.done_report hdone))

theorem observed_act (b : Broker) (a : Action) :
    (b.act a).observers = b.observers.after (b.motion a).toList ∧
      (b.act a).told Occurrence.output? =
        b.told Occurrence.output? ++ b.observers.outputs (b.motion a).toList := by
  cases ha : observes a with
  | false =>
    obtain ⟨-, ho, -⟩ := b.act_airs ha
    have htold := ((b.act_within a).unreported (topics_unreported ha)).told_eq fun _ h => h
    rw [motion_of_not_observes ha, htold]
    exact ⟨ho, (List.append_nil _).symm⟩
  | true =>
    obtain ⟨ho, ht⟩ := b.act_observing ha
    refine ⟨ho, (ht reads_output).trans ?_⟩
    congr 1
    cases b.motion a with
    | none => rfl
    | some m =>
      simp only [Option.toList_some, Observers.outputs, List.append_nil]
      rw [List.filterMap_congr fun out hm => output?_of_mem hm]
      exact List.filterMap_some

theorem observed_run (b : Broker) (actions : List Action) :
    (b.run actions).observers = b.observers.after (b.motions actions) ∧
      (b.run actions).told Occurrence.output? =
        b.told Occurrence.output? ++ b.observers.outputs (b.motions actions) := by
  induction actions generalizing b with
  | nil => exact ⟨rfl, (List.append_nil _).symm⟩
  | cons a rest ih =>
    obtain ⟨ho, ht⟩ := b.observed_act a
    obtain ⟨ho', ht'⟩ := ih (b.act a)
    refine ⟨ho'.trans ?_, ht'.trans ?_⟩
    · rw [ho, motions, Observers.after_append]
    · rw [ht, ho, motions, Observers.outputs_append, List.append_assoc]

section Counting

def backlog (b : Broker) : List Record :=
  (b.listener.map fun l => b.bus.unread l.reader).getD []

def reportedLosses (b : Broker) : Nat := b.records.countP Record.isObserverOverflow

def others (b : Broker) : Nat := b.records.countP fun r => !r.isObserverOverflow

def unheard (b : Broker) : Nat := b.backlog.countP fun r => !r.isObserverOverflow

/-- Each record that is no overflow report itself is emitted at most once, and then lost at most
once to each observer. -/
def Spares (b b' : Broker) : Prop :=
  b'.observers.members.length = b.observers.members.length ∧
    ∃ emitted recorded,
      b'.reportedLosses ≤ b.reportedLosses + b.observers.members.length * emitted ∧
      b'.unheard + emitted ≤ b.unheard + recorded ∧ b'.others = b.others + recorded

theorem Spares.trans {b b' b'' : Broker} (h : b.Spares b') (h' : b'.Spares b'') : b.Spares b'' := by
  obtain ⟨hn, e, r, ho, hu, hr⟩ := h
  obtain ⟨hn', e', r', ho', hu', hr'⟩ := h'
  refine ⟨hn'.trans hn, e + e', r + r', ?_, by omega, by omega⟩
  rw [hn] at ho'
  rw [Nat.mul_add]
  omega

theorem reports_of_overflow {r : Record} (os : Observers) (h : r.isObserverOverflow = true) :
    os.members.filterMap (·.report? r) = [] := by
  refine List.filterMap_eq_nil_iff.2 fun o _ => ?_
  rw [Observer.report?, Observers.overflowReport, Observers.overflowReport, if_pos h, if_pos h]
  split
  · rfl
  · split <;> rfl

end Counting

section Stopping

/-- Once the listener listens no longer, observers get no more records. It stops only after all of
them have. -/
def Awaits (b : Broker) : Prop :=
  ∀ l, b.listener = some l → (l.stage ≠ .listening → b.observers.closed = true) ∧
    (l.stage = .stopped → b.observers.allStopped = true)

theorem awaits_act {b : Broker} (h : b.Awaits) (a : Action) : (b.act a).Awaits := by
  have kept (hl : (b.act a).listener = b.listener) : (b.act a).Awaits := by
    intro l hl'
    rw [(b.observed_act a).1]
    obtain ⟨hclosed, hstopped⟩ := h l (hl ▸ hl')
    cases b.motion a with
    | none => exact ⟨hclosed, hstopped⟩
    | some m =>
      refine ⟨fun hs => ?_, fun hs => Observers.allStopped_step (hstopped hs) m⟩
      simp [Observers.after, hclosed hs]
  cases ha : observes a with
  | false => exact kept (b.act_airs ha).1
  | true =>
    cases a with
    | observed i panic => exact kept (b.observerConclude_eq i panic).1
    | work w =>
      cases hb : b.work w with
      | none => exact kept (congrArg (fun c => (Option.getD c b).listener) hb)
      | some b' =>
        have hact : b.act (.work w) = b' := congrArg (Option.getD · b) hb
        cases w with
        | observer i => exact kept (hact ▸ (observerStep_eq hb).1)
        | listener =>
          rw [hact]
          cases listens hb with
          | @forward l r hl hs hc hr =>
            intro l' hl'
            rw [(offer_reports _ r).1, hl] at hl'
            cases hl'
            exact ⟨fun h => absurd hs h, fun h => by cases hs.symm.trans h⟩
          | @drain l hl hs hc =>
            obtain ⟨hlistener, hobs, -⟩ := foldl_wake (List.range b.observers.members.length)
              ({ b with observers := b.observers.close }.setListener { l with stage := .draining })
            intro l' hl'
            rw [hlistener] at hl'
            rw [hobs]
            cases hl'
            exact ⟨fun _ => rfl, fun h => by cases h⟩
          | @stop l hl hs ho =>
            intro l' hl'
            have hclosed := (h l hl).1 (by simp [hs])
            exact ⟨fun _ => hclosed, fun _ => ho⟩
        | _ => cases ha
    | _ => cases ha

theorem awaits_run {b : Broker} (h : b.Awaits) (actions : List Action) :
    (b.run actions).Awaits := by
  induction actions generalizing b with
  | nil => exact h
  | cons a rest ih => exact ih (awaits_act h a)

theorem awaits_start (config : Config) (oracle : Oracle) (bundleOf : Uid → Option String)
    (observers : List Observer) : (start config oracle bundleOf observers).Awaits := by
  intro l hl
  cases observers with
  | nil => cases hl
  | cons o rest =>
    cases hl
    exact ⟨fun h => absurd rfl h, fun h => by cases h⟩

end Stopping

end Broker

end EventBroker
