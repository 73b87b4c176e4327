import Mathlib.Data.List.DropRight
import EventBroker.Proofs.Coherence

namespace EventBroker

def Entry.ruled (e : Entry) (rulings : List (Bool × Instant)) : Entry :=
  rulings.foldl (fun e u => e.mark u.1 u.2) e

namespace Entry

@[simp] theorem isSome_frozenAt_mark (e : Entry) (frozen : Bool) (now : Instant) :
    (e.mark frozen now).frozenAt.isSome = frozen := by
  cases frozen
  · rfl
  · cases h : e.frozenAt <;> simp [mark, h]

theorem mark_mark (e : Entry) (frozen : Bool) (now later : Instant) :
    (e.mark frozen now).mark frozen later = e.mark frozen now := by
  cases frozen
  · rfl
  · cases h : e.frozenAt <;> simp [mark, h]

variable (e : Entry) (us vs : List (Bool × Instant))

theorem ruled_append : e.ruled (us ++ vs) = (e.ruled us).ruled vs := List.foldl_append

@[simp] theorem subscriber_ruled : (e.ruled us).subscriber = e.subscriber := by
  induction us generalizing e with
  | nil => rfl
  | cons u rest ih => exact (ih (e.mark u.1 u.2)).trans (e.subscriber_mark u.1 u.2)

variable {e}

theorem frozenAt_ruled (h : e.frozenAt = none) :
    (e.ruled us).frozenAt = (us.rtakeWhile Prod.fst).head?.map Prod.snd := by
  induction us using List.reverseRecOn with
  | nil => exact h
  | append_singleton us u ih =>
    have hlast : (e.ruled (us ++ [u])).frozenAt = ((e.ruled us).mark u.1 u.2).frozenAt := by
      rw [ruled_append]
      rfl
    rw [hlast, List.rtakeWhile_concat, mark]
    split
    · rw [ih, List.head?_append]
      cases (us.rtakeWhile Prod.fst).head? <;> rfl
    · rfl

example :
    (ruled { subscriber := default } [(true, 5), (false, 7), (true, 9), (true, 11)]).frozenAt =
      some 9 := rfl

theorem isSome_frozenAt_ruled (h : e.frozenAt = none) :
    (e.ruled us).frozenAt.isSome ↔ ∃ t, us.getLast? = some (true, t) := by
  rw [frozenAt_ruled us h]
  induction us using List.reverseRecOn with
  | nil => simp
  | append_singleton us u ih =>
    obtain ⟨frozen, t⟩ := u
    cases frozen <;> simp

end Entry

namespace Registry

def Request.ruling? (o : Owner) : Request → Option (Bool × Instant)
  | .updateFreeze sel frozen now => if sel.selects o then some (frozen, now) else none
  | _ => none

def rulings (o : Owner) (requests : List Request) : List (Bool × Instant) :=
  requests.filterMap (Request.ruling? o)

/-- The subscription was registered by one of the requests, and `since` came after that. -/
def Enrolled (r : Registry) (requests : List Request) (s : Subscriber) (since : List Request) :
    Prop :=
  ∃ before req isSystem evicted r', requests = before ++ .subscribe req isSystem :: since ∧
    (r.run before).subscribe req isSystem = .ok (⟨s, evicted⟩, r')

variable {r r' : Registry} {id : SubscriberId} {e : Entry}

theorem run_append (r : Registry) (xs ys : List Request) :
    r.run (xs ++ ys) = (r.run xs).run ys :=
  List.foldl_append

theorem apply_changes (r : Registry) (q : Request) : r.Changes (r.apply q) := by
  cases q with
  | subscribe req isSystem =>
    rw [apply]
    cases hs : r.subscribe req isSystem with
    | error e => exact .same
    | ok x =>
      obtain ⟨hsub, hadd⟩ := subscribe_adds hs
      dsimp only
      rw [hadd]
      exact .add (by rw [hsub]; rfl)
  | unsubscribe id =>
    have hleave : r.apply (.unsubscribe id) = (unsubscribeAll [id] r).2 := by
      rw [apply, unsubscribeAll]
      cases r.unsubscribe id <;> rfl
    rw [hleave]
    exact .leave [id]
  | removeOwner pid => exact .leave (r.idsOf pid)
  | updateFreeze sel frozen now => exact .freeze sel frozen now

theorem entry_apply {q : Request} (he : entry? (r.apply q) id = some e) :
    (∃ e₀, r.entry? id = some e₀ ∧ e = e₀.ruled (rulings e₀.subscriber.owner [q])) ∨
      ∃ req isSystem a, q = .subscribe req isSystem ∧
        r.subscribe req isSystem = .ok (a, r.add a.subscriber) ∧
        id = ⟨r.issued + 1⟩ ∧ e = { subscriber := a.subscriber } := by
  cases q with
  | subscribe req isSystem =>
    rw [apply] at he
    cases hs : r.subscribe req isSystem with
    | error err =>
      rw [hs] at he
      exact .inl ⟨e, he, rfl⟩
    | ok x =>
      obtain ⟨a, r'⟩ := x
      obtain ⟨hsub, rfl⟩ := subscribe_adds hs
      rw [hs] at he
      dsimp only at he
      rw [entry_add] at he
      split at he
      · rename_i hid
        cases he
        have hnew : id = ⟨r.issued + 1⟩ := hid.symm.trans (congrArg Subscriber.id hsub)
        exact .inr ⟨req, isSystem, a, rfl, hs, hnew, rfl⟩
      · exact .inl ⟨e, he, rfl⟩
  | unsubscribe id' =>
    rw [apply] at he
    cases hu : r.unsubscribe id' with
    | none =>
      rw [hu] at he
      exact .inl ⟨e, he, rfl⟩
    | some x =>
      obtain ⟨s, r'⟩ := x
      rw [hu] at he
      dsimp only [Option.map_some, Option.getD_some] at he
      rw [entry_unsubscribe hu] at he
      split at he
      · cases he
      · exact .inl ⟨e, he, rfl⟩
  | removeOwner pid => exact .inl ⟨e, entry_of_unsubscribeAll he, rfl⟩
  | updateFreeze sel frozen now =>
    rw [apply, entry_updateFreeze] at he
    obtain ⟨e₀, he₀, rfl⟩ := Option.map_eq_some_iff.1 he
    refine .inl ⟨e₀, he₀, ?_⟩
    simp only [rulings, Request.ruling?, List.filterMap_cons, List.filterMap_nil]
    split <;> rfl

theorem entry_run {since : List Request} (hid : id.val ≤ r.issued)
    (he : entry? (r.run since) id = some e) :
    ∃ e₀, r.entry? id = some e₀ ∧ e = e₀.ruled (rulings e₀.subscriber.owner since) := by
  induction since generalizing r with
  | nil => exact ⟨e, he, rfl⟩
  | cons q rest ih =>
    obtain ⟨e₁, he₁, rfl⟩ := ih (Nat.le_trans hid (r.apply_changes q).issued_le) he
    cases entry_apply he₁ with
    | inl h =>
      obtain ⟨e₀, he₀, rfl⟩ := h
      refine ⟨e₀, he₀, ?_⟩
      rw [Entry.subscriber_ruled, ← Entry.ruled_append, rulings, rulings, ← List.filterMap_append]
      rfl
    | inr h =>
      obtain ⟨-, -, -, -, -, hnew, -⟩ := h
      rw [hnew] at hid
      exact absurd hid (Nat.not_succ_le_self _)

theorem exists_enrolled {requests : List Request} (he : entry? (r.run requests) id = some e) :
    (∃ e₀, r.entry? id = some e₀ ∧ e₀.subscriber = e.subscriber) ∨
      ∃ since, r.Enrolled requests e.subscriber since := by
  induction requests generalizing r with
  | nil => exact .inl ⟨e, he, rfl⟩
  | cons q rest ih =>
    cases ih he with
    | inl h =>
      obtain ⟨e₁, he₁, hsub⟩ := h
      cases entry_apply he₁ with
      | inl h =>
        obtain ⟨e₀, he₀, rfl⟩ := h
        exact .inl ⟨e₀, he₀, (e₀.subscriber_ruled _).symm.trans hsub⟩
      | inr h =>
        obtain ⟨req, isSystem, a, rfl, hs, -, rfl⟩ := h
        refine .inr ⟨rest, [], req, isSystem, a.evicted, r.add a.subscriber, rfl, ?_⟩
        rw [← hsub]
        exact hs
    | inr h =>
      obtain ⟨since, before, req, isSystem, evicted, r', rfl, hs⟩ := h
      exact .inr ⟨since, q :: before, req, isSystem, evicted, r', rfl, hs⟩

theorem Enrolled.entry_eq {requests since : List Request} {s : Subscriber}
    (h : r.Enrolled requests s since) (he : entry? (r.run requests) s.id = some e) :
    e = Entry.ruled { subscriber := s } (rulings s.owner since) := by
  obtain ⟨before, req, isSystem, evicted, r', rfl, hs⟩ := h
  obtain ⟨hsub, hadd⟩ := subscribe_adds hs
  have hrun : r.run (before ++ .subscribe req isSystem :: since) =
      ((r.run before).add s).run since := by
    rw [run_append, ← hadd]
    change ((r.run before).apply (.subscribe req isSystem)).run since = _
    rw [apply, hs]
  have hid : s.id.val ≤ ((r.run before).add s).issued :=
    Nat.le_of_eq (congrArg (fun s : Subscriber => s.id.val) hsub)
  rw [hrun] at he
  obtain ⟨e₀, he₀, rfl⟩ := entry_run hid he
  rw [entry_add, if_pos rfl] at he₀
  cases he₀
  rfl

def isFrozen (r : Registry) (id : SubscriberId) : Bool :=
  (r.entry? id).any fun e => e.frozenAt.isSome

structure Remarks (r : Registry) (sel : Selector) (r' : Registry) : Prop where
  frame : r' = { r with entries := r'.entries }
  live_eq : r'.live = r.live
  unselected : ∀ id e, r.entry? id = some e → sel.selects e.subscriber.owner = false →
    r'.entry? id = some e

section UpdateFreeze

variable (r) (sel : Selector) (frozen : Bool) (now : Instant)

theorem updateFreeze_remarks : r.Remarks sel (r.updateFreeze sel frozen now).2 where
  frame := rfl
  live_eq := live_updateFreeze r sel frozen now
  unselected := by
    intro id e he hsel
    rw [entry_updateFreeze, he, Option.map_some, hsel, if_neg Bool.false_ne_true]

theorem isFrozen_updateFreeze (he : r.entry? id = some e) :
    (r.updateFreeze sel frozen now).2.isFrozen id =
      if sel.selects e.subscriber.owner then frozen else e.frozenAt.isSome := by
  rw [isFrozen, entry_updateFreeze, he, Option.map_some, Option.any_some]
  split
  · exact e.isSome_frozenAt_mark frozen now
  · rfl

variable {r} in
theorem Sound.updateFreeze_count (h : r.Sound) : (r.updateFreeze sel frozen now).1 =
    r.live.countP fun s => r.isFrozen s.id != (r.updateFreeze sel frozen now).2.isFrozen s.id := by
  change r.entries.values.countP _ = (r.entries.values.map Entry.subscriber).countP _
  rw [List.countP_map]
  apply List.countP_congr
  intro e he
  obtain ⟨row, hrow, rfl⟩ := List.mem_map.1 he
  have hentry : r.entry? row.1 = some row.2 := Table.get?_eq_some_iff.2 hrow
  have hown : r.entry? row.2.subscriber.id = some row.2 := by
    rw [h.keyed hentry]
    exact hentry
  rw [Function.comp, r.isFrozen_updateFreeze sel frozen now hown, isFrozen, hown, Option.any_some]
  cases sel.selects row.2.subscriber.owner <;> simp

theorem updateFreeze_updateFreeze (later : Instant) :
    (r.updateFreeze sel frozen now).2.updateFreeze sel frozen later =
      (0, (r.updateFreeze sel frozen now).2) := by
  rw [updateFreeze]
  refine Prod.ext ?_ ?_
  · apply List.countP_eq_zero.2
    intro e he
    obtain ⟨row, hrow, rfl⟩ := List.mem_map.1 he
    obtain ⟨row, -, rfl⟩ := List.mem_map.1 hrow
    cases hsel : sel.selects row.2.subscriber.owner <;> simp [hsel]
  · rw [updateFreeze]
    dsimp only
    congr 1
    apply Table.ext_get?
    intro id
    rw [Table.get?_map, Table.get?_map, Option.map_map]
    congr 1
    funext e
    cases hsel : sel.selects e.subscriber.owner <;> simp [hsel, Entry.mark_mark]

end UpdateFreeze

/-- A live subscription is frozen just if the last freeze or thaw of its owner since it was
registered was a freeze, and then since the first freeze that no thaw has come after. To freeze or
thaw counts the live subscriptions that it makes frozen or not, and changes nothing else. -/
theorem frozen_by_last_ruling (ceiling : Option Nat) (requests : List Request) :
    let r := (ofCeiling ceiling).run requests
    (∀ id e, r.entry? id = some e →
      (∃ since, (ofCeiling ceiling).Enrolled requests e.subscriber since) ∧
      ∀ since, (ofCeiling ceiling).Enrolled requests e.subscriber since →
        let us := rulings e.subscriber.owner since
        (e.frozenAt.isSome ↔ ∃ t, us.getLast? = some (true, t)) ∧
          e.frozenAt = (us.rtakeWhile Prod.fst).head?.map Prod.snd) ∧
    ∀ sel frozen now,
      let r' := (r.updateFreeze sel frozen now).2
      (r.updateFreeze sel frozen now).1 =
          r.live.countP (fun s => r.isFrozen s.id != r'.isFrozen s.id) ∧
        (∀ later, r'.updateFreeze sel frozen later = (0, r')) ∧ r.Remarks sel r' := by
  intro r
  have hr : r.Sound := ((Keeps.ofCeiling ceiling).run requests).toSound
  constructor
  · intro id e he
    constructor
    · exact (exists_enrolled he).resolve_left fun h => by
        obtain ⟨e₀, he₀, -⟩ := h
        cases he₀
    · intro since hs us
      have hid : r.entry? e.subscriber.id = some e := by
        rw [hr.keyed he]
        exact he
      rw [hs.entry_eq hid]
      exact ⟨Entry.isSome_frozenAt_ruled us rfl, Entry.frozenAt_ruled us rfl⟩
  · intro sel frozen now
    exact ⟨hr.updateFreeze_count sel frozen now, r.updateFreeze_updateFreeze sel frozen now,
      r.updateFreeze_remarks sel frozen now⟩

end Registry

end EventBroker
