import EventBroker.Proofs.Effects.Stepping
import EventBroker.Proofs.View

namespace EventBroker

theorem Observers.offer_report {r report : Record} {i : Nat} {o : Observer}
    (h : (Observers.offer r i o).1 = .lost (some report)) : report.kind = .observerOverflow := by
  have hr : ∀ name reason, Observers.overflowReport r name reason = some report →
      report.kind = .observerOverflow := by
    intro name reason hr
    rw [Observers.overflowReport] at hr
    split at hr
    · cases hr
    · cases hr
      rfl
  simp only [Observers.offer] at h
  split at h
  · exact hr _ _ (Emission.lost.inj h)
  · split at h
    · exact hr _ _ (Emission.lost.inj h)
    · cases h

theorem Observers.done_report {os os' : Observers} {i : Nat} {panic : Option Panic}
    {report : Record} (h : os.done i panic = (some report, os')) :
    report.kind = .observerPanicked := by
  rw [Observers.done] at h
  split at h
  · cases h
  · split at h
    · cases h
    · cases panic with
      | none => cases h
      | some p =>
        cases h
        rfl

namespace Broker

variable (b : Broker)

@[simp] theorem view_offer (r : Record) : (b.offer r).view = b.view := by
  have h : ∀ (es : List Emission) (b : Broker),
      (∀ report, .lost (some report) ∈ es → report.kind = .observerOverflow) →
      (es.foldl applyEmission b).view = b.view := by
    intro es
    induction es with
    | nil =>
      intro b _
      rfl
    | cons e rest ih =>
      intro b he
      rw [List.foldl_cons, ih _ fun report hm => he report (List.mem_cons_of_mem _ hm)]
      cases e with
      | queued i => exact b.view_note_silent _ rfl
      | lost report =>
        cases report with
        | none => rfl
        | some report =>
          have hk := he report List.mem_cons_self
          exact b.view_emit_silent report (by simp [hk]) (by simp [hk])
  rw [offer]
  apply (h _ _ _).trans
  · rfl
  · intro report hm
    obtain ⟨offered, ho, he⟩ := List.mem_map.1 hm
    obtain ⟨i, hi, rfl⟩ := List.mem_mapIdx.1 ho
    exact Observers.offer_report he

theorem listenerStep_view {b b' : Broker} (h : b.listenerStep = some b') : b'.view = b.view := by
  have queued : ∀ (is : List Nat) (b : Broker),
      (is.foldl (fun b i => b.note (.queued (.observer i))) b).view = b.view := by
    intro is
    induction is with
    | nil => exact fun _ => rfl
    | cons i rest ih => exact fun b => (ih _).trans (b.view_note_silent _ rfl)
  cases listens h with
  | forward => exact view_offer _ _
  | drain => exact queued _ _
  | stop => exact view_note_silent _ _ rfl

theorem observerStep_view {b b' : Broker} {i : Nat} (h : b.observerStep i = some b') :
    b'.view = b.view := by
  rw [observerStep] at h
  split at h
  · cases h
  · cases h
    exact view_note_silent _ _ rfl
  · cases h
    split
    · exact (view_log _ _).trans (view_note_silent _ _ rfl)
    · exact view_note_silent _ _ rfl

theorem observerConclude_view (i : Nat) (panic : Option Panic) :
    (b.observerConclude i panic).view = b.view := by
  rw [observerConclude]
  split
  · rfl
  · rename_i report observers h
    have hk := Observers.done_report h
    exact view_emit_silent _ report (by simp [hk]) (by simp [hk])

end Broker

end EventBroker
