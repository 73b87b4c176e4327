import EventBroker.Proofs.TableLaws
import EventBroker.Registry

namespace EventBroker

theorem SubscriberId.compare_eq_lt {a b : SubscriberId} : compare a b = .lt ↔ a.val < b.val := by
  rw [compare_def, Nat.compare_eq_lt]

@[simp] theorem Entry.subscriber_mark (e : Entry) (frozen : Bool) (now : Instant) :
    (e.mark frozen now).subscriber = e.subscriber := by
  cases frozen <;> rfl

def Subscriber.Outranks (s t : Subscriber) : Prop :=
  t.priority < s.priority ∨ s.priority = t.priority ∧ s.id.val < t.id.val

namespace Registry

variable {r r' : Registry} {id id' : SubscriberId}

structure Sound (r : Registry) : Prop where
  keyed : ∀ {id e}, r.entry? id = some e → e.subscriber.id = id
  known : ∀ {id e}, r.entry? id = some e → id.val ≤ r.issued

theorem entry_add (r : Registry) (s : Subscriber) (id : SubscriberId) :
    entry? (r.add s) id = if s.id = id then some { subscriber := s } else r.entry? id :=
  Table.get?_insert

theorem subscribe_adds {req : Subscription} {isSystem : Bool} {a : Admitted}
    (h : r.subscribe req isSystem = .ok (a, r')) :
    a.subscriber = .ofSubscription ⟨r.issued + 1⟩ req isSystem ∧ r' = r.add a.subscriber := by
  simp only [subscribe] at h
  split at h
  · cases h
  · split at h
    · cases h
      exact ⟨rfl, rfl⟩
    · split at h
      · cases h
      · cases h
        exact ⟨rfl, rfl⟩

theorem entry_unsubscribe {s : Subscriber} (h : r.unsubscribe id = some (s, r')) :
    entry? r' id' = if id = id' then none else r.entry? id' := by
  obtain ⟨e, -, he⟩ := Option.map_eq_some_iff.1 h
  cases he
  exact Table.get?_erase

theorem issued_unsubscribe {s : Subscriber} (h : r.unsubscribe id = some (s, r')) :
    r'.issued = r.issued := by
  obtain ⟨e, -, he⟩ := Option.map_eq_some_iff.1 h
  cases he
  rfl

theorem entry_of_unsubscribeAll {ids : List SubscriberId} {e : Entry}
    (h : entry? (unsubscribeAll ids r).2 id = some e) : r.entry? id = some e := by
  induction ids generalizing r with
  | nil => exact h
  | cons gone rest ih =>
    rw [unsubscribeAll] at h
    split at h
    · exact ih h
    · rename_i hu
      have he := ih h
      rw [entry_unsubscribe hu] at he
      split at he
      · cases he
      · exact he

theorem mem_unsubscribeAll {ids : List SubscriberId} {e : Entry} (he : r.entry? id = some e)
    (hn : entry? (unsubscribeAll ids r).2 id = none) : e.subscriber ∈ (unsubscribeAll ids r).1 := by
  induction ids generalizing r with
  | nil =>
    rw [unsubscribeAll, he] at hn
    cases hn
  | cons gone rest ih =>
    rw [unsubscribeAll] at hn ⊢
    cases hu : r.unsubscribe gone with
    | none =>
      rw [hu] at hn
      exact ih he hn
    | some x =>
      rw [hu] at hn
      by_cases hg : gone = id
      · obtain ⟨e', he', hx⟩ := Option.map_eq_some_iff.1 hu
        rw [hg] at he'
        cases he.symm.trans he'
        cases hx
        exact List.mem_cons_self
      · refine List.mem_cons_of_mem _ (ih ?_ hn)
        rw [entry_unsubscribe hu, if_neg hg]
        exact he

theorem issued_unsubscribeAll (ids : List SubscriberId) (r : Registry) :
    (unsubscribeAll ids r).2.issued = r.issued := by
  induction ids generalizing r with
  | nil => rfl
  | cons id rest ih =>
    rw [unsubscribeAll]
    split
    · exact ih r
    · rename_i hu
      exact (ih _).trans (issued_unsubscribe hu)

theorem entry_updateFreeze (r : Registry) (sel : Selector) (frozen : Bool) (now : Instant)
    (id : SubscriberId) :
    entry? (r.updateFreeze sel frozen now).2 id = (r.entry? id).map fun e =>
      if sel.selects e.subscriber.owner then e.mark frozen now else e :=
  Table.get?_map ..

theorem Sound.ofCeiling (ceiling : Option Nat) : (ofCeiling ceiling).Sound where
  keyed := nofun
  known := nofun

theorem Sound.add (h : r.Sound) {s : Subscriber} (hs : s.id = ⟨r.issued + 1⟩) :
    (r.add s).Sound where
  keyed := by
    intro id e he
    rw [entry_add] at he
    split at he
    · cases he
      assumption
    · exact h.keyed he
  known := by
    intro id e he
    change id.val ≤ r.issued + 1
    rw [entry_add] at he
    split at he
    · rename_i hid
      exact Nat.le_of_eq (congrArg SubscriberId.val (hid.symm.trans hs))
    · exact Nat.le_succ_of_le (h.known he)

theorem Sound.unsubscribeAll (h : r.Sound) (ids : List SubscriberId) :
    (unsubscribeAll ids r).2.Sound where
  keyed := fun he => h.keyed (entry_of_unsubscribeAll he)
  known := by
    intro id e he
    rw [issued_unsubscribeAll]
    exact h.known (entry_of_unsubscribeAll he)

theorem Sound.updateFreeze (h : r.Sound) (sel : Selector) (frozen : Bool) (now : Instant) :
    (r.updateFreeze sel frozen now).2.Sound where
  keyed := by
    intro id e he
    rw [entry_updateFreeze] at he
    obtain ⟨e', he', rfl⟩ := Option.map_eq_some_iff.1 he
    split
    · rw [Entry.subscriber_mark]
      exact h.keyed he'
    · exact h.keyed he'
  known := by
    intro id e he
    rw [entry_updateFreeze] at he
    obtain ⟨e', he', -⟩ := Option.map_eq_some_iff.1 he
    exact h.known he'

structure Gone (r : Registry) (id : SubscriberId) : Prop where
  absent : r.entry? id = none
  known : id.val ≤ r.issued

namespace Gone

theorem add (h : r.Gone id) {s : Subscriber} (hs : s.id = ⟨r.issued + 1⟩) : (r.add s).Gone id where
  absent := by
    have hne : s.id ≠ id := by
      intro he
      have hle := h.known
      rw [← he, hs] at hle
      exact Nat.not_succ_le_self _ hle
    rw [entry_add, if_neg hne]
    exact h.absent
  known := Nat.le_succ_of_le h.known

theorem unsubscribeAll (h : r.Gone id) (ids : List SubscriberId) :
    (Registry.unsubscribeAll ids r).2.Gone id where
  absent := by
    cases he : entry? (Registry.unsubscribeAll ids r).2 id with
    | none => rfl
    | some e =>
      have hold := entry_of_unsubscribeAll he
      rw [h.absent] at hold
      cases hold
  known := by
    rw [issued_unsubscribeAll]
    exact h.known

theorem updateFreeze (h : r.Gone id) (sel : Selector) (frozen : Bool) (now : Instant) :
    (r.updateFreeze sel frozen now).2.Gone id where
  absent := by
    rw [entry_updateFreeze, h.absent]
    rfl
  known := h.known

end Gone

theorem Sound.gone_of_unsubscribeAll (h : r.Sound) {ids : List SubscriberId} {s : Subscriber}
    (hs : s ∈ (Registry.unsubscribeAll ids r).1) : (Registry.unsubscribeAll ids r).2.Gone s.id := by
  induction ids generalizing r with
  | nil => cases hs
  | cons gone rest ih =>
    rw [Registry.unsubscribeAll] at hs ⊢
    cases hu : r.unsubscribe gone with
    | none =>
      rw [hu] at hs
      exact ih h hs
    | some x =>
      obtain ⟨t, r'⟩ := x
      rw [hu] at hs
      dsimp only at hs ⊢
      obtain ⟨e, he, ht⟩ := Option.map_eq_some_iff.1 hu
      have hid : t.id = gone := by
        have hk := h.keyed he
        cases ht
        exact hk
      cases List.mem_cons.1 hs with
      | inl hs =>
        have hgone : r'.Gone gone := by
          refine ⟨?_, ?_⟩
          · rw [entry_unsubscribe hu, if_pos rfl]
          · rw [issued_unsubscribe hu]
            exact h.known he
        rw [hs, hid]
        exact hgone.unsubscribeAll rest
      | inr hs =>
        have hr := h.unsubscribeAll [gone]
        rw [Registry.unsubscribeAll, hu] at hr
        exact ih hr hs

inductive Changes (r : Registry) : Registry → Prop
  | same : Changes r r
  | add {s : Subscriber} (hs : s.id = ⟨r.issued + 1⟩) : Changes r (r.add s)
  | freeze (sel : Selector) (frozen : Bool) (now : Instant) :
    Changes r (r.updateFreeze sel frozen now).2
  | leave (ids : List SubscriberId) : Changes r (Registry.unsubscribeAll ids r).2

namespace Changes

variable (h : r.Changes r')

include h

theorem sound (hr : r.Sound) : r'.Sound := by
  cases h with
  | same => exact hr
  | add hs => exact hr.add hs
  | freeze sel frozen now => exact hr.updateFreeze sel frozen now
  | leave ids => exact hr.unsubscribeAll ids

theorem issued_le : r.issued ≤ r'.issued := by
  cases h with
  | add hs => exact Nat.le_succ _
  | leave ids => exact Nat.le_of_eq (issued_unsubscribeAll ids r).symm
  | _ => exact Nat.le_refl _

theorem gone (hg : r.Gone id) : r'.Gone id := by
  cases h with
  | same => exact hg
  | add hs => exact hg.add hs
  | freeze sel frozen now => exact hg.updateFreeze sel frozen now
  | leave ids => exact hg.unsubscribeAll ids

end Changes

section Matching

variable (o : Oracle) (p : Publication)

theorem declaring_sorted (h : r.Sound) (name : String) :
    (r.declaring name).Pairwise fun s t => s.id.val < t.id.val := by
  apply List.pairwise_filterMap.2
  have hids : ((r.byEvent.get? name).getD .empty).toList.Pairwise fun a b => compare a b = .lt :=
    List.pairwise_map.2 ((r.byEvent.get? name).getD .empty).sorted
  apply hids.imp
  intro a b hab s hs t ht
  obtain ⟨e, he, rfl⟩ := Option.map_eq_some_iff.1 hs
  obtain ⟨e', he', rfl⟩ := Option.map_eq_some_iff.1 ht
  rw [h.keyed he, h.keyed he']
  exact SubscriberId.compare_eq_lt.1 hab

theorem mem_matched {s : Subscriber} (hs : s ∈ (r.matching o p).matched) :
    s ∈ r.declaring p.event.name ∧ p.verdict o s = .deliver := by
  simpa [matching] using hs

theorem entry_of_matched (h : r.Sound) {s : Subscriber} (hs : s ∈ (r.matching o p).matched) :
    ∃ e, r.entry? s.id = some e ∧ e.subscriber = s := by
  obtain ⟨id, -, hid⟩ := List.mem_filterMap.1 (mem_matched o p hs).1
  obtain ⟨e, he, rfl⟩ := Option.map_eq_some_iff.1 hid
  refine ⟨e, ?_, rfl⟩
  rw [h.keyed he]
  exact he

theorem priority_trans (a b c : Subscriber) (hab : decide (b.priority ≤ a.priority) = true)
    (hbc : decide (c.priority ≤ b.priority) = true) : decide (c.priority ≤ a.priority) = true := by
  rw [decide_eq_true_eq] at *
  omega

theorem priority_total (a b : Subscriber) :
    (decide (b.priority ≤ a.priority) || decide (a.priority ≤ b.priority)) = true := by
  simp only [Bool.or_eq_true, decide_eq_true_eq]
  omega

theorem filter_ranked (c : List Subscriber) (k : Int) :
    (c.mergeSort fun a b => b.priority ≤ a.priority).filter (fun s => s.priority = k) =
      c.filter fun s => s.priority = k := by
  have same : (c.filter fun s => s.priority = k).Pairwise
      fun a b => decide (b.priority ≤ a.priority) = true := by
    apply List.pairwise_of_forall_mem_list
    intro a ha b hb
    have ha : a.priority = k := by simpa using (List.mem_filter.1 ha).2
    have hb : b.priority = k := by simpa using (List.mem_filter.1 hb).2
    rw [ha, hb]
    exact decide_eq_true (Int.le_refl k)
  have hsub := (List.sublist_mergeSort priority_trans priority_total same
    List.filter_sublist).filter fun s => s.priority = k
  rw [List.filter_filter] at hsub
  simp only [Bool.and_self] at hsub
  exact (hsub.eq_of_length ((List.mergeSort_perm c _).filter _).length_eq.symm).symm

theorem matched_ranked (h : r.Sound) : (r.matching o p).matched.Pairwise Subscriber.Outranks := by
  have registered : ((r.declaring p.event.name).filter fun s => p.verdict o s == .deliver).Pairwise
      fun s t => s.id.val < t.id.val := (declaring_sorted h _).filter _
  rw [matching]
  dsimp only
  generalize (r.declaring p.event.name).filter (fun s => p.verdict o s == .deliver) = c
    at registered
  apply List.pairwise_iff_forall_sublist.2
  intro a b hab
  have hle := List.pairwise_iff_forall_sublist.1
    (List.pairwise_mergeSort priority_trans priority_total c) hab
  rw [decide_eq_true_eq] at hle
  by_cases hp : a.priority = b.priority
  · refine .inr ⟨hp, ?_⟩
    have hk := hab.filter fun s => s.priority = b.priority
    rw [filter_ranked] at hk
    simp only [List.filter_cons, hp, decide_true, if_true, List.filter_nil] at hk
    exact List.pairwise_iff_forall_sublist.1 (registered.filter _) hk
  · exact .inl (by omega)

theorem matched_nodup (h : r.Sound) : ((r.matching o p).matched.map Subscriber.id).Nodup := by
  have hc : ((r.declaring p.event.name).map Subscriber.id).Nodup := by
    apply List.pairwise_map.2
    apply (declaring_sorted h _).imp
    intro a b hab e
    rw [e] at hab
    exact absurd hab (Nat.lt_irrefl _)
  rw [matching]
  exact ((List.mergeSort_perm _ _).map _).nodup_iff.2 (hc.sublist (List.filter_sublist.map _))

end Matching

end Registry

end EventBroker
