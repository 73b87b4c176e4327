import Mathlib.Data.List.Induction
import EventBroker.Proofs.RegistryLaws
import EventBroker.Proofs.VaultLaws

universe u

namespace EventBroker

variable {α : Type u}

def Held.entry (h : Held α) : α × Instant := (h.item, h.capturedAt)

namespace Vault

def heldFor (v : Vault α) (id : SubscriberId) : List (Held α) :=
  ((v.shelves.get? id).map Shelf.held).getD []

structure Takes (v : Vault α) (sel : Selector) (taken : List (Held α)) : Prop where
  whole : ∀ id, taken.filter (fun h => h.subscriber.id = id) =
    (v.heldFor id).filter fun h => sel.selects h.subscriber.owner
  ascending : taken.Pairwise fun h h' => h.subscriber.id.val ≤ h'.subscriber.id.val

section Flush

variable {v : Vault α}

theorem heldFor_of_shelf {id : SubscriberId} {s : Shelf α} (h : v.shelves.get? id = some s) :
    v.heldFor id = s.held := by
  rw [heldFor, h]
  rfl

theorem heldFor_of_none {id : SubscriberId} (h : v.shelves.get? id = none) :
    v.heldFor id = [] := by
  rw [heldFor, h]
  rfl

theorem subscriber_of_held {s : Shelf α} {h : Held α} (hh : h ∈ s.held) :
    h.subscriber = s.subscriber := by
  obtain ⟨a, -, rfl⟩ := List.mem_map.1 hh
  rfl

theorem filter_held (s : Shelf α) (p : Subscriber → Bool) :
    s.held.filter (fun h => p h.subscriber) = if p s.subscriber then s.held else [] := by
  split
  · rename_i hp
    apply List.filter_eq_self.2
    intro h hh
    rw [subscriber_of_held hh, hp]
  · rename_i hp
    apply List.filter_eq_nil_iff.2
    intro h hh
    rw [subscriber_of_held hh]
    exact hp

theorem heldFor_filter (v : Vault α) (p : Subscriber → Bool) (id : SubscriberId) :
    { v with shelves := v.shelves.filter fun _ s => p s.subscriber }.heldFor id =
      (v.heldFor id).filter fun h => p h.subscriber := by
  rw [heldFor, Table.get?_filter]
  cases hs : v.shelves.get? id with
  | none =>
    rw [heldFor_of_none hs]
    rfl
  | some s =>
    rw [heldFor_of_shelf hs, filter_held, Option.filter_some]
    split <;> rfl

theorem heldFor_flush (v : Vault α) (sel : Selector) (id : SubscriberId) :
    (v.flush sel).2.heldFor id =
      (v.heldFor id).filter fun h => !sel.selects h.subscriber.owner := by
  rw [flush_snd]
  exact v.heldFor_filter (fun s => !sel.selects s.owner) id

theorem heldFor_capture_of_ne {s : Subscriber} {id : SubscriberId} (h : s.id ≠ id) (item : α)
    (now : Instant) : (v.capture s item now).heldFor id = v.heldFor id := by
  rw [capture_eq, heldFor, Table.get?_insert, if_neg h]
  rfl

theorem heldFor_purge (v : Vault α) (id' id : SubscriberId) :
    (v.purge id').2.heldFor id = if id' = id then [] else v.heldFor id := by
  rw [purge, heldFor, Table.get?_erase]
  split <;> rfl

theorem Sound.takes_flush (h : v.Sound) (sel : Selector) : v.Takes sel (v.flush sel).1 where
  whole := by
    intro id
    have hid : ∀ r ∈ v.shelves.rows.filter fun r => sel.selects r.2.subscriber.owner,
        r.2.subscriber.id = r.1 := by
      intro r hr
      exact h.keyed (Table.get?_eq_some_iff.2 (List.mem_of_mem_filter hr))
    change (List.flatMap _ _).filter _ = _
    rw [held_filter hid fun id' => decide (id' = id), List.filter_filter]
    simp only [Bool.and_comm (decide _)]
    rw [← List.filter_filter, Table.filter_key]
    cases hs : v.shelves.get? id with
    | none =>
      rw [heldFor_of_none hs]
      rfl
    | some s =>
      rw [heldFor_of_shelf hs, filter_held s fun s => sel.selects s.owner]
      change (List.filter _ [(id, s)]).flatMap _ = _
      split
      · rename_i hsel
        rw [List.filter_cons, if_pos hsel]
        exact List.append_nil _
      · rename_i hsel
        rw [List.filter_cons, if_neg hsel]
        rfl
  ascending := by
    apply List.pairwise_flatMap.2
    constructor
    · intro r hr
      apply List.pairwise_map.2
      exact List.pairwise_of_forall fun _ _ => Nat.le_refl _
    · apply (v.shelves.sorted.filter _).imp_of_mem
      intro r r' hr hr' hlt x hx y hy
      have hr := h.keyed (Table.get?_eq_some_iff.2 (List.mem_of_mem_filter hr))
      have hr' := h.keyed (Table.get?_eq_some_iff.2 (List.mem_of_mem_filter hr'))
      rw [subscriber_of_held hx, subscriber_of_held hy, hr, hr']
      exact Nat.le_of_lt (SubscriberId.compare_eq_lt.1 hlt)

end Flush

inductive Operation (α : Type u)
  | capture (s : Subscriber) (item : α) (now : Instant)
  | flush (sel : Selector)
  | purge (id : SubscriberId)

def Operation.time? : Operation α → Option Instant
  | capture _ _ now => some now
  | _ => none

def perform (v : Vault α) : Operation α → Vault α
  | .capture s item now => v.capture s item now
  | .flush sel => (v.flush sel).2
  | .purge id => (v.purge id).2

def performAll (v : Vault α) (ops : List (Operation α)) : Vault α := ops.foldl perform v

def gather (id : SubscriberId) (taken : List (Held α)) : Operation α → List (Held α)
  | .capture s item now => if s.id = id then taken ++ [⟨s, item, now⟩] else taken
  | .flush sel => if taken.head?.any fun h => sel.selects h.subscriber.owner then [] else taken
  | .purge id' => if id' = id then [] else taken

def captured (id : SubscriberId) (ops : List (Operation α)) : List (Held α) :=
  ops.foldl (gather id) []

def recent (retention : Duration) (taken : List (Held α)) : List (Held α) :=
  taken.filter fun h =>
    taken.getLast?.all fun newest => newest.capturedAt ≤ h.capturedAt.after retention

section Window

variable {retention : Duration} {taken : List (Held α)} {v : Vault α} {id : SubscriberId}

def shelfOf? (retention : Duration) (taken : List (Held α)) : Option (Shelf α) :=
  taken.head?.map fun h => ⟨h.subscriber, (recent retention taken).map Held.entry⟩

theorem outdated_eq (retention : Duration) (newest captured : Instant) :
    Shelf.outdated retention newest captured = !decide (newest ≤ captured.after retention) := by
  rw [Shelf.outdated, ← decide_not]
  exact decide_eq_decide.2 (Nat.lt_sub_iff_add_lt'.trans Nat.not_le.symm)

theorem dropWhile_outdated (ho : taken.Pairwise fun h h' => h.capturedAt ≤ h'.capturedAt)
    (now : Instant) :
    (taken.map Held.entry).dropWhile (fun a => Shelf.outdated retention now a.2) =
      (taken.filter fun h => now ≤ h.capturedAt.after retention).map Held.entry := by
  induction taken with
  | nil => rfl
  | cons h rest ih =>
    obtain ⟨hh, hrest⟩ := List.pairwise_cons.1 ho
    rw [List.map_cons, List.dropWhile_cons, Held.entry, outdated_eq]
    by_cases hn : now ≤ h.capturedAt.after retention
    · have hall : rest.filter (fun h => now ≤ h.capturedAt.after retention) = rest := by
        apply List.filter_eq_self.2
        intro x hx
        exact decide_eq_true (Nat.le_trans hn (Nat.add_le_add_right (hh x hx) _))
      simp [hn, hall, Held.entry]
    · have hcons : (h :: rest).filter (fun h => now ≤ h.capturedAt.after retention) =
          rest.filter fun h => now ≤ h.capturedAt.after retention := by
        simp [hn]
      rw [hcons, ← ih hrest]
      simp [hn]

theorem filter_recent {now : Instant} (hl : ∀ h ∈ taken, h.capturedAt ≤ now) :
    (recent retention taken).filter (fun h => now ≤ h.capturedAt.after retention) =
      taken.filter fun h => now ≤ h.capturedAt.after retention := by
  rw [recent, List.filter_filter]
  apply List.filter_congr
  intro h hh
  cases hlast : taken.getLast? with
  | none => simp
  | some newest =>
    have hle : newest.capturedAt ≤ now := hl newest (List.mem_of_getLast? hlast)
    by_cases hn : now ≤ h.capturedAt.after retention
    · simp [hn, Nat.le_trans hle hn]
    · simp [hn]

theorem recent_push (taken : List (Held α)) (h : Held α) :
    recent retention (taken ++ [h]) =
      taken.filter (fun x => h.capturedAt ≤ x.capturedAt.after retention) ++ [h] := by
  have hself : h.capturedAt ≤ h.capturedAt.after retention := Nat.le_add_right _ _
  simp only [recent, List.getLast?_concat, Option.all_some, List.filter_append]
  congr 1
  simp [hself]

theorem shelf_capture (hv : v.retention = retention)
    (h : v.shelves.get? id = shelfOf? retention taken)
    (ho : taken.Pairwise fun h h' => h.capturedAt ≤ h'.capturedAt) {now : Instant}
    (hl : ∀ h ∈ taken, h.capturedAt ≤ now) {s : Subscriber} (hs : s.id = id) (item : α) :
    (v.capture s item now).shelves.get? id = shelfOf? retention (taken ++ [⟨s, item, now⟩]) := by
  subst hs
  have hrecent : ((recent retention taken).map Held.entry).dropWhile
      (fun a => Shelf.outdated retention now a.2) =
      (taken.filter fun h => now ≤ h.capturedAt.after retention).map Held.entry := by
    exact (dropWhile_outdated (ho.filter _) now).trans
      (congrArg (List.map Held.entry) (filter_recent hl))
  rw [capture_eq, Table.get?_insert, if_pos rfl, shelfFor, h, hv, shelfOf?, shelfOf?, recent_push,
    List.map_append, ← hrecent]
  cases taken with
  | nil => rfl
  | cons first rest => rfl

theorem shelf_perform (hv : v.retention = retention)
    (h : v.shelves.get? id = shelfOf? retention taken)
    (ho : taken.Pairwise fun h h' => h.capturedAt ≤ h'.capturedAt) (op : Operation α)
    (hl : ∀ now, op.time? = some now → ∀ h ∈ taken, h.capturedAt ≤ now) :
    (v.perform op).shelves.get? id = shelfOf? retention (gather id taken op) := by
  cases op with
  | capture s item now =>
    rw [gather]
    split
    · rename_i hs
      exact shelf_capture hv h ho (hl now rfl) hs item
    · rename_i hs
      rw [perform, capture_eq, Table.get?_insert, if_neg hs]
      exact h
  | flush sel =>
    rw [perform, flush_snd, Table.get?_filter, h, gather]
    cases taken with
    | nil => rfl
    | cons first rest =>
      cases hsel : sel.selects first.subscriber.owner <;> simp [shelfOf?, hsel]
  | purge id' =>
    rw [perform, purge, Table.get?_erase, gather]
    split
    · rfl
    · exact h

theorem retention_performAll (v : Vault α) (ops : List (Operation α)) :
    (v.performAll ops).retention = v.retention := by
  induction ops generalizing v with
  | nil => rfl
  | cons op rest ih =>
    refine (ih (v.perform op)).trans ?_
    cases op <;> rfl

theorem Sound.performAll (h : v.Sound) (ops : List (Operation α)) : (v.performAll ops).Sound := by
  induction ops generalizing v with
  | nil => exact h
  | cons op rest ih =>
    apply ih
    cases op with
    | capture s item now => exact h.capture s item now
    | flush sel => exact h.flush sel
    | purge id => exact h.purge id

theorem captured_concat (id : SubscriberId) (ops : List (Operation α)) (op : Operation α) :
    captured id (ops ++ [op]) = gather id (captured id ops) op :=
  List.foldl_concat ..

theorem captured_times (id : SubscriberId) (ops : List (Operation α)) :
    ((captured id ops).map Held.capturedAt).Sublist (ops.filterMap Operation.time?) := by
  induction ops using List.reverseRecOn with
  | nil => exact List.Sublist.refl _
  | append_singleton ops op ih =>
    have hkeep : ((captured id ops).map Held.capturedAt).Sublist
        ((ops ++ [op]).filterMap Operation.time?) := by
      rw [List.filterMap_append]
      exact ih.trans (List.sublist_append_left _ _)
    rw [captured_concat]
    cases op with
    | capture s item now =>
      rw [gather]
      split
      · rw [List.map_append, List.filterMap_append]
        exact ih.append_right _
      · exact hkeep
    | flush sel =>
      rw [gather]
      split
      · exact List.nil_sublist _
      · exact hkeep
    | purge id' =>
      rw [gather]
      split
      · exact List.nil_sublist _
      · exact hkeep

theorem shelf_performAll {ops : List (Operation α)}
    (h : (ops.filterMap Operation.time?).Pairwise (· ≤ ·)) (id : SubscriberId) :
    ((ofRetention retention).performAll ops).shelves.get? id =
      shelfOf? retention (captured id ops) := by
  induction ops using List.reverseRecOn with
  | nil => rfl
  | append_singleton ops op ih =>
    rw [List.filterMap_append] at h
    obtain ⟨hops, -, hlate⟩ := List.pairwise_append.1 h
    have htimes := captured_times id ops
    rw [performAll, List.foldl_concat, ← performAll, captured_concat]
    apply shelf_perform (retention_performAll _ _) (ih hops)
    · exact List.pairwise_map.1 (hops.sublist htimes)
    · intro now hnow x hx
      exact hlate _ (htimes.subset (List.mem_map_of_mem hx)) now (by simp [hnow])

end Window

/-- While the clock does not go back, a vault holds for each subscription what was captured for it
since it was last flushed or purged and is not older than the newest of that by more than the
retention. Others do not matter to it, and a flush takes what is held for whom it selects. -/
theorem window_exact (retention : Duration) (ops : List (Operation α))
    (h : (ops.filterMap Operation.time?).Pairwise (· ≤ ·)) :
    let v := (ofRetention retention).performAll ops
    (∀ id, (v.heldFor id).map Held.entry =
        (recent retention (captured id ops)).map Held.entry ∧
      ∀ x ∈ v.heldFor id, (captured id ops).head?.map Held.subscriber = some x.subscriber) ∧
    (∀ id s item now, s.id ≠ id → (v.capture s item now).heldFor id = v.heldFor id) ∧
    (∀ id id', id' ≠ id → (v.purge id').2.heldFor id = v.heldFor id) ∧
    ∀ sel, v.Takes sel (v.flush sel).1 ∧
      ∀ id, (v.flush sel).2.heldFor id =
        (v.heldFor id).filter fun x => !sel.selects x.subscriber.owner := by
  intro v
  have hsound : v.Sound := (Sound.ofRetention retention).performAll ops
  refine ⟨?_, ?_, ?_, fun sel => ⟨hsound.takes_flush sel, v.heldFor_flush sel⟩⟩
  · intro id
    have hshelf : v.shelves.get? id = shelfOf? retention (captured id ops) := shelf_performAll h id
    cases htaken : captured id ops with
    | nil =>
      rw [htaken] at hshelf
      rw [heldFor_of_none hshelf]
      exact ⟨rfl, List.forall_mem_nil _⟩
    | cons first rest =>
      rw [htaken] at hshelf
      rw [heldFor_of_shelf hshelf]
      refine ⟨?_, fun x hx => congrArg some (subscriber_of_held hx).symm⟩
      rw [Shelf.held, List.map_map]
      exact List.map_id _
  · exact fun id s item now hs => heldFor_capture_of_ne hs item now
  · intro id id' hne
    rw [heldFor_purge, if_neg hne]

theorem window_exact_two :
    let s : Subscriber := { (default : Subscriber) with id := ⟨1⟩ }
    let t : Subscriber :=
      { (default : Subscriber) with id := ⟨2⟩, owner := { (default : Owner) with uid := 7 } }
    let ops : List (Operation String) := [.capture s "a" (Instant.ofMillis 0),
      .capture t "x" (Instant.ofMillis 4000), .capture s "b" (Instant.ofMillis 5000),
      .flush (.uid 7), .capture s "c" (Instant.ofMillis 12000)]
    let v := (ofRetention (.ofMillis 10000)).performAll ops
    (ops.filterMap Operation.time?).Pairwise (· ≤ ·) ∧
      (v.heldFor ⟨1⟩).map Held.entry =
        [("b", Instant.ofMillis 5000), ("c", Instant.ofMillis 12000)] ∧
      (v.heldFor ⟨2⟩).map Held.entry = [] := by
  intro s t ops v
  have h : (ops.filterMap Operation.time?).Pairwise (· ≤ ·) := by decide
  obtain ⟨held, -⟩ := window_exact (.ofMillis 10000) ops h
  exact ⟨h, (held ⟨1⟩).1.trans (by decide), (held ⟨2⟩).1.trans (by decide)⟩

end Vault

end EventBroker
