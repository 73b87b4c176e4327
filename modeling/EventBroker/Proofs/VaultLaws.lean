import EventBroker.Proofs.TableLaws
import EventBroker.Vault

universe u

namespace EventBroker

variable {α : Type u}

namespace Shelf

theorem not_outdated_self (retention : Duration) (now : Instant) :
    outdated retention now now = false := by
  simp [outdated, Instant.since]

def expired (retention : Duration) (s : Shelf α) (now : Instant) : List (α × Instant) :=
  s.items.takeWhile fun a => outdated retention now a.2

def unexpired (retention : Duration) (s : Shelf α) (now : Instant) : List (α × Instant) :=
  s.items.dropWhile fun a => outdated retention now a.2

theorem expired_append_unexpired (retention : Duration) (s : Shelf α) (now : Instant) :
    s.expired retention now ++ s.unexpired retention now = s.items :=
  List.takeWhile_append_dropWhile

theorem prune_push (retention : Duration) (s : Shelf α) (item : α) (now : Instant) :
    (s.push item now).prune retention =
      { s with items := s.unexpired retention now ++ [(item, now)] } := by
  have hl : (s.push item now).items.getLast? = some (item, now) := by
    simp [push]
  rw [prune, hl]
  dsimp only [push, unexpired]
  rw [List.dropWhile_append]
  split
  · rename_i h
    rw [List.isEmpty_iff.1 h]
    simp [not_outdated_self]
  · rfl

theorem dropWhile_settled {p : α × Instant → Bool} {a : α × Instant} (h : p a = false)
    (items : List (α × Instant)) :
    (items.dropWhile p ++ [a]).dropWhile p = items.dropWhile p ++ [a] := by
  induction items with
  | nil => simp [h]
  | cons b rest ih =>
    rw [List.dropWhile_cons]
    split
    · exact ih
    · rename_i hb
      simp [hb]

theorem prune_settled (retention : Duration) (s : Shelf α) (item : α) (now : Instant) :
    { s with items := s.unexpired retention now ++ [(item, now)] }.prune retention =
      { s with items := s.unexpired retention now ++ [(item, now)] } := by
  have hl : (s.unexpired retention now ++ [(item, now)]).getLast? = some (item, now) := by
    simp
  rw [prune]
  dsimp only
  rw [hl]
  dsimp only [unexpired]
  rw [dropWhile_settled (not_outdated_self retention now)]

end Shelf

namespace Vault

def newest? (v : Vault α) (id : SubscriberId) : Option (α × Instant) :=
  (v.shelves.get? id).bind fun s => s.items.getLast?

variable (v : Vault α)

def shelfFor (s : Subscriber) : Shelf α := (v.shelves.get? s.id).getD { subscriber := s }

theorem capture_eq (s : Subscriber) (item : α) (now : Instant) :
    v.capture s item now = { v with shelves := v.shelves.insert s.id { v.shelfFor s with
      items := (v.shelfFor s).unexpired v.retention now ++ [(item, now)] } } := by
  simp only [capture]
  rw [Shelf.prune_push]
  rfl

theorem newest?_capture (s : Subscriber) (item : α) (now : Instant) :
    (v.capture s item now).newest? s.id = some (item, now) := by
  rw [capture_eq, newest?, Table.get?_insert, if_pos rfl]
  simp

def contents : List (α × SubscriberId) :=
  v.shelves.rows.flatMap fun row => row.2.items.map fun a => (a.1, row.1)

structure Sound : Prop where
  keyed : ∀ {id s}, v.shelves.get? id = some s → s.subscriber.id = id
  stocked : ∀ {id s}, v.shelves.get? id = some s → s.items ≠ []
  pruned : ∀ {id s}, v.shelves.get? id = some s → s.prune v.retention = s

theorem contents_perm_shelfFor (s : Subscriber) :
    v.contents.Perm ((v.shelfFor s).items.map (fun a => (a.1, s.id)) ++
      { v with shelves := v.shelves.erase s.id }.contents) := by
  rw [shelfFor]
  cases h : v.shelves.get? s.id with
  | none =>
    rw [contents, contents, Table.erase_of_get?_none h]
    exact List.Perm.refl _
  | some shelf => exact (Table.erase_perm h).flatMap_right _

theorem contents_insert (id : SubscriberId) (s : Shelf α) :
    { v with shelves := v.shelves.insert id s }.contents.Perm
      (s.items.map (fun a : α × Instant => (a.1, id)) ++
        { v with shelves := v.shelves.erase id }.contents) :=
  Table.insert_perm.flatMap_right _

theorem contents_capture (s : Subscriber) (item : α) (now : Instant) :
    ((v.capture s item now).contents ++
      ((v.shelfFor s).expired v.retention now).map fun a => (a.1, s.id)).Perm
        (v.contents ++ [(item, s.id)]) := by
  classical
  rw [capture_eq]
  have hold := v.contents_perm_shelfFor s
  rw [← (v.shelfFor s).expired_append_unexpired v.retention now] at hold
  have hnew := v.contents_insert s.id { v.shelfFor s with
    items := (v.shelfFor s).unexpired v.retention now ++ [(item, now)] }
  apply List.perm_iff_count.2
  intro x
  have hold := hold.count_eq x
  have hnew := hnew.count_eq x
  simp only [List.map_append, List.count_append, List.map_cons, List.map_nil] at hold hnew ⊢
  omega

theorem flatMap_filter_keys (rows : List (SubscriberId × Shelf α)) (p : SubscriberId → Bool) :
    (rows.filter fun row => p row.1).flatMap
        (fun row => row.2.items.map fun a : α × Instant => (a.1, row.1)) =
      (rows.flatMap fun row => row.2.items.map fun a : α × Instant => (a.1, row.1)).filter
        fun x => p x.2 := by
  induction rows with
  | nil => rfl
  | cons row rest ih =>
    rw [List.flatMap_cons, List.filter_append, ← ih, List.filter_map]
    cases h : p row.1 with
    | true =>
      have hall : row.2.items.filter ((fun x : α × SubscriberId => p x.2) ∘ fun a => (a.1, row.1)) =
          row.2.items := List.filter_eq_self.2 fun a _ => h
      simp only [List.filter_cons, h, if_true, hall, List.flatMap_cons]
    | false =>
      have hnone :
          row.2.items.filter ((fun x : α × SubscriberId => p x.2) ∘ fun a => (a.1, row.1)) = [] :=
        List.filter_eq_nil_iff.2 fun a _ => by simp [h]
      simp only [List.filter_cons, h, hnone]
      rfl

theorem contents_purge (id : SubscriberId) :
    (v.purge id).2.contents = v.contents.filter fun x => decide (id ≠ x.2) :=
  flatMap_filter_keys v.shelves.rows fun k => decide (id ≠ k)

def clear (ids : List SubscriberId) : Vault α := ids.foldl (fun v id => (v.purge id).2) v

theorem contents_clear (ids : List SubscriberId) :
    (v.clear ids).contents = v.contents.filter fun x => decide (x.2 ∉ ids) := by
  induction ids generalizing v with
  | nil => simp [clear]
  | cons id rest ih =>
    refine (ih (v.purge id).2).trans ?_
    rw [contents_purge, List.filter_filter]
    apply List.filter_congr
    intro x _
    rw [← Bool.decide_and]
    apply decide_eq_decide.2
    rw [List.mem_cons, not_or, and_comm]
    exact and_congr_left' ne_comm

namespace Sound

variable {v : Vault α}

theorem ofRetention (retention : Duration) : (Vault.ofRetention retention : Vault α).Sound where
  keyed := nofun
  stocked := nofun
  pruned := nofun

theorem of_subset (h : v.Sound) {t : Table SubscriberId (Shelf α)}
    (ht : ∀ {id s}, t.get? id = some s → v.shelves.get? id = some s) :
    Vault.Sound { v with shelves := t } where
  keyed hs := h.keyed (ht hs)
  stocked hs := h.stocked (ht hs)
  pruned hs := h.pruned (ht hs)

theorem capture (h : v.Sound) (s : Subscriber) (item : α) (now : Instant) :
    (v.capture s item now).Sound := by
  have hid : (v.shelfFor s).subscriber.id = s.id := by
    rw [shelfFor]
    cases hs : v.shelves.get? s.id with
    | none => rfl
    | some shelf => exact h.keyed hs
  rw [capture_eq]
  constructor
  · intro id shelf hs
    rw [Table.get?_insert] at hs
    split at hs
    · rename_i he
      cases hs
      exact hid.trans he
    · exact h.keyed hs
  · intro id shelf hs
    rw [Table.get?_insert] at hs
    split at hs
    · cases hs
      simp
    · exact h.stocked hs
  · intro id shelf hs
    rw [Table.get?_insert] at hs
    split at hs
    · cases hs
      exact Shelf.prune_settled ..
    · exact h.pruned hs

theorem purge (h : v.Sound) (id : SubscriberId) : (v.purge id).2.Sound := by
  apply h.of_subset
  intro id' s hs
  rw [Table.get?_erase] at hs
  split at hs
  · cases hs
  · exact hs

theorem clear (h : v.Sound) (ids : List SubscriberId) : (v.clear ids).Sound := by
  induction ids generalizing v with
  | nil => exact h
  | cons id rest ih => exact ih (h.purge id)

theorem filter (h : v.Sound) (p : SubscriberId → Shelf α → Bool) :
    Vault.Sound { v with shelves := v.shelves.filter p } := by
  apply h.of_subset
  intro id s hs
  rw [Table.get?_filter] at hs
  exact (Option.filter_eq_some_iff.1 hs).1

end Sound

section Flush

variable {v : Vault α}

theorem flush_snd (v : Vault α) (sel : Selector) :
    (v.flush sel).2 =
      { v with shelves := v.shelves.filter fun _ s => !sel.selects s.subscriber.owner } :=
  congrArg (fun t => { v with shelves := t })
    (Table.foldl_erase_filter (fun _ s => sel.selects s.subscriber.owner) v.shelves)

theorem Sound.contents_held (h : v.Sound) (p : SubscriberId → Shelf α → Bool) :
    ((v.shelves.rows.filter fun r => p r.1 r.2).flatMap fun r => r.2.held).map
        (fun a => (a.item, a.subscriber.id)) =
      { v with shelves := v.shelves.filter p }.contents := by
  rw [contents, List.map_flatMap]
  apply List.flatMap_congr
  intro row hrow
  have hrow : v.shelves.get? row.1 = some row.2 :=
    Table.get?_eq_some_iff.2 (List.mem_of_mem_filter hrow)
  rw [Shelf.held, List.map_map, ← h.keyed hrow]
  rfl

theorem contents_filter_perm (v : Vault α) (p : SubscriberId → Shelf α → Bool) :
    ({ v with shelves := v.shelves.filter p }.contents ++
      { v with shelves := v.shelves.filter fun id s => !p id s }.contents).Perm v.contents := by
  rw [contents, contents, contents, ← List.flatMap_append]
  exact (Table.rows_perm_filter p v.shelves).symm.flatMap_right _

theorem Sound.contents_flush (h : v.Sound) (sel : Selector) :
    ((v.flush sel).2.contents ++
      (v.flush sel).1.map fun a => (a.item, a.subscriber.id)).Perm v.contents := by
  rw [flush_snd]
  apply List.perm_append_comm.trans
  change ((List.flatMap _ _).map _ ++ _).Perm _
  rw [h.contents_held fun _ s => sel.selects s.subscriber.owner]
  exact v.contents_filter_perm _

theorem Sound.flush (h : v.Sound) (sel : Selector) : (v.flush sel).2.Sound := by
  rw [flush_snd]
  exact h.filter _

theorem putBack_held (v : Vault α) {s : Shelf α} (hs : s.items ≠ [])
    (hv : v.shelves.get? s.subscriber.id = none) :
    s.held.foldr (fun h v => v.putBack h) v =
      { v with shelves := v.shelves.insert s.subscriber.id s } := by
  obtain ⟨subscriber, items⟩ := s
  rw [Shelf.held]
  dsimp only at hs hv ⊢
  induction items with
  | nil => exact absurd rfl hs
  | cons a rest ih =>
    rw [List.map_cons, List.foldr_cons]
    cases rest with
    | nil =>
      rw [List.map_nil, List.foldr_nil, putBack]
      dsimp only
      rw [hv]
      rfl
    | cons b rest =>
      rw [ih (by simp), putBack]
      dsimp only
      rw [Table.get?_insert, if_pos rfl, Table.insert_insert]
      rfl

theorem putBack_rows (v : Vault α) {rows : List (SubscriberId × Shelf α)}
    (hkeys : (rows.map Prod.fst).Nodup)
    (hs : ∀ r ∈ rows, r.2.subscriber.id = r.1 ∧ r.2.items ≠ [] ∧ v.shelves.get? r.1 = none) :
    (rows.flatMap fun r => r.2.held).foldr (fun h v => v.putBack h) v =
      { v with shelves := rows.foldr (fun r t => t.insert r.1 r.2) v.shelves } := by
  induction rows with
  | nil => rfl
  | cons r rest ih =>
    rw [List.map_cons, List.nodup_cons] at hkeys
    obtain ⟨hid, hne, hnone⟩ := hs r List.mem_cons_self
    rw [List.flatMap_cons, List.foldr_append,
      ih hkeys.2 fun r hr => hs r (List.mem_cons_of_mem _ hr), List.foldr_cons]
    rw [putBack_held _ hne, hid]
    rw [hid, Table.get?_foldr_insert, hnone, Table.lookupRow_eq_none hkeys.1]
    rfl

theorem held_filter {rows : List (SubscriberId × Shelf α)}
    (hid : ∀ r ∈ rows, r.2.subscriber.id = r.1) (live : SubscriberId → Bool) :
    (rows.flatMap fun r => r.2.held).filter (fun h => live h.subscriber.id) =
      (rows.filter fun r => live r.1).flatMap fun r => r.2.held := by
  induction rows with
  | nil => rfl
  | cons r rest ih =>
    have hr := hid r List.mem_cons_self
    rw [List.flatMap_cons, List.filter_append, ih fun r hr => hid r (List.mem_cons_of_mem _ hr)]
    have same : ∀ h ∈ r.2.held, h.subscriber.id = r.1 := by
      intro h hh
      obtain ⟨a, -, rfl⟩ := List.mem_map.1 hh
      exact hr
    cases hl : live r.1 with
    | true =>
      have hall : r.2.held.filter (fun h => live h.subscriber.id) = r.2.held := by
        apply List.filter_eq_self.2
        intro h hh
        rw [same h hh, hl]
      simp only [List.filter_cons, hl, if_true, hall, List.flatMap_cons]
    | false =>
      have hnone : r.2.held.filter (fun h => live h.subscriber.id) = [] := by
        apply List.filter_eq_nil_iff.2
        intro h hh
        rw [same h hh, hl]
        exact Bool.false_ne_true
      simp only [List.filter_cons, hl, hnone]
      rfl

theorem pruneShelves {v : Vault α} (h : ∀ {id s}, v.shelves.get? id = some s →
    s.prune v.retention = s) (ids : List SubscriberId) : ids.foldl pruneShelf v = v := by
  induction ids with
  | nil => rfl
  | cons id rest ih =>
    have same : v.shelves.alter id (fun s => s.map (Shelf.prune v.retention)) = v.shelves := by
      apply Table.ext_get?
      intro k
      rw [Table.get?_alter]
      split
      · rename_i hk
        subst hk
        cases hs : v.shelves.get? id with
        | none => rfl
        | some s => exact congrArg some (h hs)
      · rfl
    have hv : v.pruneShelf id = v := by
      rw [pruneShelf, same]
    rw [List.foldl_cons, hv]
    exact ih

theorem Sound.restore_flush (h : v.Sound) (sel : Selector) (live : SubscriberId → Bool) :
    ((v.flush sel).2.restore (v.flush sel).1 live).2 =
      { v with shelves := v.shelves.filter fun id s =>
          !sel.selects s.subscriber.owner || live id } := by
  have hrows : ∀ r ∈ v.shelves.rows.filter fun r => sel.selects r.2.subscriber.owner,
      v.shelves.get? r.1 = some r.2 := by
    intro r hr
    exact Table.get?_eq_some_iff.2 (List.mem_of_mem_filter hr)
  -- A shelf is put back as it was or not at all.
  have hshelves : ((v.shelves.rows.filter fun r => sel.selects r.2.subscriber.owner).filter
      fun r => live r.1).foldr (fun r t => t.insert r.1 r.2)
        (v.shelves.filter fun _ s => !sel.selects s.subscriber.owner) =
      v.shelves.filter fun id s => !sel.selects s.subscriber.owner || live id := by
    apply Table.ext_get?
    intro k
    have hpicked : Table.lookupRow k ((v.shelves.rows.filter fun r =>
        sel.selects r.2.subscriber.owner).filter fun r => live r.1) =
        (v.shelves.get? k).filter fun s => live k && sel.selects s.subscriber.owner := by
      rw [List.filter_filter]
      exact Table.get?_filter (fun id s => live id && sel.selects s.subscriber.owner) v.shelves k
    rw [Table.get?_foldr_insert, hpicked, Table.get?_filter, Table.get?_filter]
    cases hs : v.shelves.get? k with
    | none => rfl
    | some s =>
      simp only [Option.filter_some]
      cases sel.selects s.subscriber.owner <;> cases live k <;> rfl
  rw [restore]
  dsimp only
  rw [flush_snd]
  change List.foldl pruneShelf (List.foldr _ _ (List.filter _ (List.flatMap _ _))) _ = _
  rw [held_filter fun r hr => h.keyed (hrows r hr), putBack_rows, hshelves]
  · exact pruneShelves (h.filter _).pruned _
  · exact v.shelves.keys_nodup.sublist ((List.filter_sublist.trans List.filter_sublist).map _)
  · intro r hr
    have hr := List.mem_of_mem_filter hr
    have hs := hrows r hr
    refine ⟨h.keyed hs, h.stocked hs, ?_⟩
    change (v.shelves.filter _).get? r.1 = none
    rw [Table.get?_filter, hs]
    simpa using List.of_mem_filter hr

theorem Sound.contents_restore (h : v.Sound) (sel : Selector) (live : SubscriberId → Bool) :
    (((v.flush sel).2.restore (v.flush sel).1 live).2.contents ++
      ((v.flush sel).1.filter fun a => !live a.subscriber.id).map fun a =>
        (a.item, a.subscriber.id)).Perm v.contents := by
  have hid : ∀ r ∈ v.shelves.rows.filter fun r => sel.selects r.2.subscriber.owner,
      r.2.subscriber.id = r.1 := by
    intro r hr
    exact h.keyed (Table.get?_eq_some_iff.2 (List.mem_of_mem_filter hr))
  have hlost : ((v.flush sel).1.filter fun a => !live a.subscriber.id).map
      (fun a => (a.item, a.subscriber.id)) = { v with shelves := v.shelves.filter fun id s =>
        !(!sel.selects s.subscriber.owner || live id) }.contents := by
    change (List.filter _ (List.flatMap _ _)).map _ = _
    rw [held_filter hid fun id => !live id, List.filter_filter]
    refine (h.contents_held fun id s => !live id && sel.selects s.subscriber.owner).trans ?_
    congr 3
    funext id s
    rw [Bool.not_or, Bool.not_not, Bool.and_comm]
  rw [h.restore_flush, hlost]
  exact v.contents_filter_perm _

theorem Sound.restore (h : v.Sound) (sel : Selector) (live : SubscriberId → Bool) :
    ((v.flush sel).2.restore (v.flush sel).1 live).2.Sound := by
  rw [h.restore_flush]
  exact h.filter _

end Flush

end Vault

end EventBroker
