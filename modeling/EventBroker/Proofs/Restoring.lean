import Mathlib.Algebra.GroupWithZero.Nat
import Mathlib.Data.List.DropRight
import EventBroker.Proofs.Retention

universe u

namespace EventBroker

variable {α : Type u} {retention : Duration}

/-- `kept` is `items` less the longest run in front that is older than the last of them by more
than the retention. -/
def Trimmed (retention : Duration) (items kept : List (α × Instant)) : Prop :=
  ∃ dropped first newest, items = dropped ++ kept ∧ kept.head? = some first ∧
    items.getLast? = some newest ∧ newest.2.since first.2 ≤ retention.toNanos ∧
    ∀ a ∈ dropped, retention.toNanos < newest.2.since a.2

theorem Trimmed.ne_nil {items kept : List (α × Instant)} (h : Trimmed retention items kept) :
    kept ≠ [] := by
  obtain ⟨_, first, _, -, hf, -⟩ := h
  exact List.ne_nil_of_mem (List.mem_of_head? hf)

theorem Trimmed.getLast?_eq {items kept : List (α × Instant)} (h : Trimmed retention items kept) :
    kept.getLast? = items.getLast? := by
  have hne := h.ne_nil
  obtain ⟨dropped, _, _, rfl, -⟩ := h
  exact (List.getLast?_append_of_ne_nil dropped hne).symm

namespace Shelf

variable {s : Shelf α}

theorem prune_of_newest {newest : α × Instant} (h : s.items.getLast? = some newest) :
    s.prune retention =
      { s with items := s.items.dropWhile fun a => outdated retention newest.2 a.2 } := by
  rw [prune, h]

theorem subscriber_prune (retention : Duration) (s : Shelf α) :
    (s.prune retention).subscriber = s.subscriber := by
  rw [prune]
  split <;> rfl

theorem trimmed_prune (retention : Duration) (h : s.items ≠ []) :
    Trimmed retention s.items (s.prune retention).items := by
  obtain ⟨newest, hn⟩ := Option.ne_none_iff_exists'.1 fun hn => h (List.getLast?_eq_none_iff.1 hn)
  rw [prune_of_newest hn]
  -- The newest item is not older than itself, so a first one stays.
  have hne : s.items.dropWhile (fun a => outdated retention newest.2 a.2) ≠ [] := by
    intro he
    have hself := List.dropWhile_eq_nil_iff.1 he newest (List.mem_of_getLast? hn)
    rw [not_outdated_self] at hself
    cases hself
  refine ⟨_, _, newest, List.takeWhile_append_dropWhile.symm, List.head?_eq_some_head hne, hn,
    ?_, ?_⟩
  · have hfirst := List.head_dropWhile_not _ hne
    exact Nat.not_lt.1 (of_decide_eq_false hfirst)
  · intro a ha
    have hlate := List.mem_takeWhile_imp ha
    exact of_decide_eq_true hlate

theorem prune_prune (retention : Duration) (s : Shelf α) :
    (s.prune retention).prune retention = s.prune retention := by
  cases h : s.items.getLast? with
  | none =>
    have hs : s.prune retention = s := by rw [prune, h]
    rw [hs, hs]
  | some newest =>
    have hne : s.items ≠ [] := List.ne_nil_of_mem (List.mem_of_getLast? h)
    rw [prune_of_newest ((trimmed_prune retention hne).getLast?_eq.trans h), prune_of_newest h]
    simp only [List.dropWhile_idempotent]

end Shelf

namespace Vault

def queue (v : Vault α) (id : SubscriberId) : List (α × Instant) :=
  ((v.shelves.get? id).map Shelf.items).getD []

inductive Reachable (retention : Duration) : Vault α → Prop
  | start : Reachable retention (ofRetention retention)
  | perform {v : Vault α} (h : Reachable retention v) (op : Operation α) :
      Reachable retention (v.perform op)
  | restore {v : Vault α} (h : Reachable retention v) (batch : List (Held α))
      (live : SubscriberId → Bool) : Reachable retention (v.restore batch live).2

section PutBack

variable {v : Vault α} {id : SubscriberId} {h : Held α}

def putBackAll (v : Vault α) (batch : List (Held α)) : Vault α :=
  batch.foldr (fun h v => v.putBack h) v

theorem queue_of_shelf {s : Shelf α} (hs : v.shelves.get? id = some s) : v.queue id = s.items := by
  rw [queue, hs]
  rfl

theorem exists_shelf (h : v.queue id ≠ []) :
    ∃ s, v.shelves.get? id = some s ∧ s.items = v.queue id := by
  cases hs : v.shelves.get? id with
  | none =>
    rw [queue, hs] at h
    exact absurd rfl h
  | some s => exact ⟨s, rfl, (queue_of_shelf hs).symm⟩

theorem length_queue (v : Vault α) (id : SubscriberId) :
    (v.queue id).length = v.pendingFor id := by
  rw [queue, pendingFor]
  cases v.shelves.get? id <;> rfl

theorem get?_putBack_of_ne (hne : h.subscriber.id ≠ id) :
    (v.putBack h).shelves.get? id = v.shelves.get? id := by
  rw [putBack, Table.get?_insert, if_neg hne]

theorem queue_putBack (v : Vault α) (h : Held α) :
    (v.putBack h).queue h.subscriber.id = h.entry :: v.queue h.subscriber.id := by
  rw [queue, putBack, Table.get?_insert, if_pos rfl, queue]
  cases v.shelves.get? h.subscriber.id <;> rfl

theorem get?_putBackAll_of_notMem {batch : List (Held α)}
    (hid : id ∉ batch.map fun h => h.subscriber.id) :
    (v.putBackAll batch).shelves.get? id = v.shelves.get? id := by
  induction batch with
  | nil => rfl
  | cons h rest ih =>
    rw [List.map_cons, List.mem_cons, not_or] at hid
    exact (get?_putBack_of_ne (Ne.symm hid.1)).trans (ih hid.2)

theorem queue_putBackAll (v : Vault α) (batch : List (Held α)) (id : SubscriberId) :
    (v.putBackAll batch).queue id =
      (batch.filter fun h => h.subscriber.id = id).map Held.entry ++ v.queue id := by
  induction batch with
  | nil => rfl
  | cons h rest ih =>
    change ((v.putBackAll rest).putBack h).queue id = _
    by_cases hid : h.subscriber.id = id
    · subst hid
      rw [queue_putBack, ih, List.filter_cons_of_pos (by simp)]
      rfl
    · rw [queue, get?_putBack_of_ne hid, ← queue, ih, List.filter_cons_of_neg (by simp [hid])]

theorem retention_putBackAll (v : Vault α) (batch : List (Held α)) :
    (v.putBackAll batch).retention = v.retention := by
  induction batch with
  | nil => rfl
  | cons h rest ih => exact ih

theorem keyed_putBackAll
    (hv : ∀ {id s}, v.shelves.get? id = some s → s.subscriber.id = id) (batch : List (Held α))
    {s : Shelf α} (hs : (v.putBackAll batch).shelves.get? id = some s) : s.subscriber.id = id := by
  induction batch generalizing id s with
  | nil => exact hv hs
  | cons h rest ih =>
    change ((v.putBackAll rest).putBack h).shelves.get? id = some s at hs
    rw [putBack, Table.get?_insert] at hs
    split at hs
    · rename_i hid
      cases hs
      cases hold : (v.putBackAll rest).shelves.get? h.subscriber.id with
      | none => exact hid
      | some s => exact (ih hold).trans hid
    · exact ih hs

end PutBack

theorem retention_pruneShelves (v : Vault α) (ids : List SubscriberId) :
    (ids.foldl pruneShelf v).retention = v.retention := by
  induction ids generalizing v with
  | nil => rfl
  | cons id rest ih => exact ih (v.pruneShelf id)

theorem get?_pruneShelves (v : Vault α) (ids : List SubscriberId) (id : SubscriberId) :
    (ids.foldl pruneShelf v).shelves.get? id =
      if id ∈ ids then (v.shelves.get? id).map (Shelf.prune v.retention)
      else v.shelves.get? id := by
  induction ids generalizing v with
  | nil => rfl
  | cons id' rest ih =>
    rw [List.foldl_cons, ih, pruneShelf, Table.get?_alter]
    by_cases hid : id' = id
    · subst hid
      rw [if_pos rfl, if_pos List.mem_cons_self, Option.map_map]
      have twice : (Shelf.prune v.retention ∘ Shelf.prune v.retention : Shelf α → Shelf α) =
          Shelf.prune v.retention := funext (Shelf.prune_prune v.retention)
      rw [twice, ite_self]
    · have hmem : id ∈ id' :: rest ↔ id ∈ rest := by
        rw [List.mem_cons, or_iff_right (Ne.symm hid)]
      simp only [if_neg hid, hmem]

section Restore

variable {v : Vault α} {batch : List (Held α)} {live : SubscriberId → Bool} {id : SubscriberId}

def regaining (batch : List (Held α)) (live : SubscriberId → Bool) : List SubscriberId :=
  (batch.map fun h => h.subscriber.id).filter live

theorem map_filter_live (batch : List (Held α)) (live : SubscriberId → Bool) :
    (batch.filter fun h => live h.subscriber.id).map (fun h => h.subscriber.id) =
      regaining batch live :=
  List.filter_map.symm

theorem get?_restore (v : Vault α) (batch : List (Held α)) (live : SubscriberId → Bool)
    (id : SubscriberId) :
    (v.restore batch live).2.shelves.get? id =
      if id ∈ regaining batch live then
        ((v.putBackAll (batch.filter fun h => live h.subscriber.id)).shelves.get? id).map
          (Shelf.prune v.retention)
      else v.shelves.get? id := by
  rw [restore]
  dsimp only
  rw [get?_pruneShelves, ← putBackAll, retention_putBackAll, map_filter_live]
  simp only [SortedSet.mem_ofList]
  split
  · rfl
  · rename_i hid
    apply get?_putBackAll_of_notMem
    rwa [map_filter_live]

theorem retention_restore (v : Vault α) (batch : List (Held α)) (live : SubscriberId → Bool) :
    (v.restore batch live).2.retention = v.retention :=
  (retention_pruneShelves _ _).trans (retention_putBackAll v _)

theorem shelf_restore (hid : id ∈ regaining batch live) :
    ∃ s, (v.putBackAll (batch.filter fun h => live h.subscriber.id)).shelves.get? id = some s ∧
      s.items = (batch.filter fun h => h.subscriber.id = id).map Held.entry ++ v.queue id ∧
      s.items ≠ [] ∧
      (v.restore batch live).2.shelves.get? id = some (s.prune v.retention) := by
  obtain ⟨hmem, hlive⟩ := List.mem_filter.1 hid
  have hall : (batch.filter fun h => live h.subscriber.id).filter (fun h => h.subscriber.id = id) =
      batch.filter fun h => h.subscriber.id = id := by
    rw [List.filter_filter]
    apply List.filter_congr
    intro h _
    by_cases he : h.subscriber.id = id
    · simp [he, hlive]
    · simp [he]
  have hqueue := v.queue_putBackAll (batch.filter fun h => live h.subscriber.id) id
  rw [hall] at hqueue
  have hne : (batch.filter fun h => h.subscriber.id = id).map Held.entry ++ v.queue id ≠ [] := by
    obtain ⟨h, hh, rfl⟩ := List.mem_map.1 hmem
    apply List.append_ne_nil_of_left_ne_nil
    apply List.ne_nil_of_mem
    exact List.mem_map_of_mem (List.mem_filter.2 ⟨hh, decide_eq_true rfl⟩)
  obtain ⟨s, hs, hitems⟩ := exists_shelf (hqueue ▸ hne)
  rw [hqueue] at hitems
  refine ⟨s, hs, hitems, hitems ▸ hne, ?_⟩
  rw [get?_restore, if_pos hid, hs]
  rfl

theorem Sound.restore_batch (h : v.Sound) (batch : List (Held α)) (live : SubscriberId → Bool) :
    (v.restore batch live).2.Sound := by
  constructor
  · intro id s hs
    by_cases hid : id ∈ regaining batch live
    · obtain ⟨s', hs', -, -, hr⟩ := shelf_restore (v := v) hid
      cases hs.symm.trans hr
      rw [Shelf.subscriber_prune]
      exact keyed_putBackAll h.keyed _ hs'
    · rw [get?_restore, if_neg hid] at hs
      exact h.keyed hs
  · intro id s hs
    by_cases hid : id ∈ regaining batch live
    · obtain ⟨s', -, -, hne, hr⟩ := shelf_restore (v := v) hid
      cases hs.symm.trans hr
      exact (Shelf.trimmed_prune v.retention hne).ne_nil
    · rw [get?_restore, if_neg hid] at hs
      exact h.stocked hs
  · intro id s hs
    rw [retention_restore]
    by_cases hid : id ∈ regaining batch live
    · obtain ⟨s', -, -, -, hr⟩ := shelf_restore (v := v) hid
      cases hs.symm.trans hr
      exact Shelf.prune_prune v.retention s'
    · rw [get?_restore, if_neg hid] at hs
      exact h.pruned hs

theorem restore_fst (v : Vault α) (batch : List (Held α)) (live : SubscriberId → Bool) :
    (v.restore batch live).1 = ((regaining batch live).dedup.map fun id =>
      ((v.restore batch live).2.queue id).length).sum := by
  have hsum : ∀ (w : Vault α) (ids : List SubscriberId),
      ids.foldl (fun n id => n + w.pendingFor id) 0 =
        (ids.map fun id => (w.queue id).length).sum := by
    intro w ids
    simp only [length_queue]
    rw [List.sum_eq_foldl, List.foldl_map]
  rw [← ((SortedSet.ofList_perm_dedup (regaining batch live)).map _).sum_nat, ← hsum,
    ← map_filter_live]
  rfl

end Restore

section Reachable

variable {v : Vault α}

theorem Reachable.retention_eq (h : Reachable retention v) : v.retention = retention := by
  induction h with
  | start => rfl
  | perform h op ih => exact (retention_performAll _ [op]).trans ih
  | restore h batch live ih => exact (retention_restore _ batch live).trans ih

theorem Reachable.sound (h : Reachable retention v) : v.Sound := by
  induction h with
  | start => exact Sound.ofRetention retention
  | perform h op ih => exact ih.performAll [op]
  | restore h batch live ih => exact ih.restore_batch batch live

theorem Sound.isEmpty_iff_size (h : v.Sound) : v.isEmpty = true ↔ v.size = 0 := by
  have hsize : v.size = (v.shelves.rows.map fun row => row.2.items.length).sum := by
    rw [size, Table.values, List.foldl_map, List.sum_eq_foldl, List.foldl_map]
  rw [isEmpty, Table.isEmpty, List.isEmpty_iff, hsize]
  constructor
  · intro hrows
    rw [hrows]
    rfl
  · intro hsum
    apply List.eq_nil_iff_forall_not_mem.2
    intro row hrow
    have hlen : row.2.items.length = 0 :=
      List.sum_eq_zero_iff_forall_eq_nat.1 hsum _ (List.mem_map_of_mem hrow)
    exact h.stocked (Table.get?_eq_some_iff.2 hrow) (List.length_eq_zero_iff.1 hlen)

theorem Sound.fresh (h : v.Sound) {id : SubscriberId} {s : Shelf α}
    (hs : v.shelves.get? id = some s) :
    ∃ first newest, s.items.head? = some first ∧ s.items.getLast? = some newest ∧
      newest.2.since first.2 ≤ v.retention.toNanos := by
  have htrim := Shelf.trimmed_prune v.retention (h.stocked hs)
  rw [h.pruned hs] at htrim
  obtain ⟨-, first, newest, -, hf, hn, hle, -⟩ := htrim
  exact ⟨first, newest, hf, hn, hle⟩

theorem Sound.restore_all (h : v.Sound) (sel : Selector) :
    ((v.flush sel).2.restore (v.flush sel).1 fun _ => true).2 = v := by
  rw [h.restore_flush]
  congr 1
  apply Table.ext_get?
  intro id
  rw [Table.get?_filter]
  cases v.shelves.get? id <;> simp

end Reachable

/-- A vault that is restored has each live subscription's part of the batch in front of what it held
for it, less what the retention has outlived, and otherwise stays as it is. -/
theorem restore_exact {v : Vault α} (h : Reachable retention v) :
    (∀ batch live,
      (∀ id ∈ regaining batch live, Trimmed retention
        ((batch.filter fun h => h.subscriber.id = id).map Held.entry ++ v.queue id)
        ((v.restore batch live).2.queue id)) ∧
      (∀ id ∉ regaining batch live,
        (v.restore batch live).2.shelves.get? id = v.shelves.get? id) ∧
      (v.restore batch live).1 = ((regaining batch live).dedup.map fun id =>
        ((v.restore batch live).2.queue id).length).sum) ∧
    (∀ id s, v.shelves.get? id = some s →
      ∃ first newest, s.items.head? = some first ∧ s.items.getLast? = some newest ∧
        newest.2.since first.2 ≤ retention.toNanos) ∧
    (v.isEmpty = true ↔ v.size = 0) ∧
    ∀ sel, ((v.flush sel).2.restore (v.flush sel).1 fun _ => true).2 = v := by
  have hsound := h.sound
  have hretention := h.retention_eq
  subst hretention
  refine ⟨fun batch live => ⟨?_, ?_, restore_fst v batch live⟩, fun id s hs => hsound.fresh hs,
    hsound.isEmpty_iff_size, hsound.restore_all⟩
  · intro id hid
    obtain ⟨s, -, hitems, hne, hs⟩ := shelf_restore (v := v) hid
    rw [queue_of_shelf hs, ← hitems]
    exact Shelf.trimmed_prune v.retention hne
  · intro id hid
    rw [get?_restore, if_neg hid]

/-- The clock has gone back before a mixed batch comes in, which also has an item for a subscription
that is gone. -/
theorem restore_exact_mixed :
    let s : Subscriber := { (default : Subscriber) with id := ⟨1⟩ }
    let t : Subscriber := { (default : Subscriber) with id := ⟨2⟩ }
    let gone : Subscriber := { (default : Subscriber) with id := ⟨3⟩ }
    let v : Vault String := (ofRetention (.ofMillis 10000)).performAll
      [.capture s "c" (Instant.ofMillis 20000), .capture s "d" (Instant.ofMillis 12000)]
    let batch : List (Held String) := [⟨t, "x", Instant.ofMillis 3000⟩,
      ⟨s, "a", Instant.ofMillis 1000⟩, ⟨gone, "z", Instant.ofMillis 5000⟩,
      ⟨t, "y", Instant.ofMillis 4000⟩, ⟨s, "b", Instant.ofMillis 15000⟩]
    let live : SubscriberId → Bool := fun id => id ≠ ⟨3⟩
    Reachable (.ofMillis 10000) v ∧ (v.restore batch live).1 = 5 ∧
      (v.restore batch live).2.queue ⟨1⟩ = [("b", Instant.ofMillis 15000),
        ("c", Instant.ofMillis 20000), ("d", Instant.ofMillis 12000)] ∧
      (v.restore batch live).2.queue ⟨2⟩ =
        [("x", Instant.ofMillis 3000), ("y", Instant.ofMillis 4000)] ∧
      ((v.flush .all).2.restore (v.flush .all).1 fun _ => true).2 = v := by
  intro s t gone v batch live
  have h : Reachable (.ofMillis 10000) v :=
    (Reachable.start.perform (.capture s "c" (Instant.ofMillis 20000))).perform
      (.capture s "d" (Instant.ofMillis 12000))
  obtain ⟨hbatch, -, -, hback⟩ := restore_exact h
  exact ⟨h, (hbatch batch live).2.2.trans (by decide), by decide, by decide, hback .all⟩

end Vault

end EventBroker
