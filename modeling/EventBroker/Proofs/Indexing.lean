import EventBroker.Proofs.RegistryLaws

namespace EventBroker

namespace Registry

inductive Request
  | subscribe (req : Subscription) (isSystem : Bool)
  | unsubscribe (id : SubscriberId)
  | removeOwner (pid : Pid)
  | updateFreeze (sel : Selector) (frozen : Bool) (now : Instant)

def apply (r : Registry) : Request → Registry
  | .subscribe req isSystem =>
    match r.subscribe req isSystem with
    | .ok (_, r') => r'
    | .error _ => r
  | .unsubscribe id => ((r.unsubscribe id).map (·.2)).getD r
  | .removeOwner pid => (r.removeOwner pid).2
  | .updateFreeze sel frozen now => (r.updateFreeze sel frozen now).2

def run (r : Registry) (requests : List Request) : Registry := requests.foldl apply r

def enlist (r : Registry) (live : List Subscriber) : Request → List Subscriber
  | .subscribe req isSystem =>
    match r.subscribe req isSystem with
    | .ok (a, _) => live ++ [a.subscriber]
    | .error _ => live
  | .unsubscribe id => live.filter fun s => s.id ≠ id
  | .removeOwner pid => live.filter fun s => s.owner.pid ≠ pid
  | .updateFreeze _ _ _ => live

/-- The live subscriptions after some requests, in the order of registration. -/
def roster (r : Registry) (live : List Subscriber) : List Request → List Subscriber
  | [] => live
  | q :: rest => (r.apply q).roster (r.enlist live q) rest

def Lists (index : Table String (SortedSet SubscriberId)) (name : String) (id : SubscriberId) :
    Prop :=
  id ∈ ((index.get? name).getD .empty).toList

section Lists

variable {index : Table String (SortedSet SubscriberId)} {name name' : String}
  {id id' : SubscriberId}

theorem lists_iff : Lists index name id ↔ (((index.get? name).getD .empty).get? id).isSome := by
  rw [Lists, SortedSet.toList, ← Table.contains_iff, Table.contains]

theorem lists_enter :
    Lists (index.alter name' fun ids => some ((ids.getD .empty).insert id')) name id ↔
      Lists index name id ∨ name' = name ∧ id' = id := by
  rw [lists_iff, lists_iff, Table.get?_alter]
  by_cases hn : name' = name
  · rw [if_pos hn, hn, Option.getD_some, SortedSet.insert, Table.get?_insert]
    by_cases hid : id' = id <;> simp [hid]
  · rw [if_neg hn]
    simp [hn]

theorem lists_drop :
    Lists (index.alter name' (dropId id')) name id ↔
      Lists index name id ∧ ¬(name' = name ∧ id' = id) := by
  rw [lists_iff, lists_iff, Table.get?_alter]
  by_cases hn : name' = name
  · rw [if_pos hn, hn]
    cases hix : index.get? name with
    | none => simp [dropId]
    | some ids =>
      have hleft : (Option.getD (dropId id' (some ids)) .empty).get? id =
          if id' = id then none else ids.get? id := by
        rw [← Table.get?_erase]
        simp only [dropId, Option.bind_some]
        split
        · rename_i he
          change none = Table.lookupRow id (Table.erase ids id').rows
          rw [List.isEmpty_iff.1 he]
          rfl
        · rfl
      rw [hleft]
      by_cases hid : id' = id <;> simp [hid]
  · rw [if_neg hn]
    simp [hn]

theorem lists_enterAll (names : List String) :
    Lists (names.foldl (fun index name =>
      index.alter name fun ids => some ((ids.getD .empty).insert id')) index) name id ↔
      Lists index name id ∨ name ∈ names ∧ id' = id := by
  induction names generalizing index with
  | nil => simp
  | cons n rest ih =>
    rw [List.foldl_cons, ih, lists_enter, List.mem_cons, or_assoc, ← or_and_right, eq_comm (a := n)]

theorem lists_dropAll (names : List String) :
    Lists (names.foldl (fun index name => index.alter name (dropId id')) index) name id ↔
      Lists index name id ∧ ¬(name ∈ names ∧ id' = id) := by
  induction names generalizing index with
  | nil => simp
  | cons n rest ih =>
    rw [List.foldl_cons, ih, lists_drop, and_assoc, ← not_or, ← or_and_right, List.mem_cons,
      eq_comm (a := n)]

end Lists

def live (r : Registry) : List Subscriber := r.entries.values.map Entry.subscriber

structure Indexed (r : Registry) : Prop extends r.Sound where
  indexed : ∀ name id, Lists r.byEvent name id ↔
    ∃ e, r.entry? id = some e ∧ name ∈ e.subscriber.interest.events.toList
  resolved : ∀ {id e}, r.entry? id = some e → e.subscriber.scope ≠ .current

variable {r r' : Registry}

theorem mem_live {s : Subscriber} :
    s ∈ r.live ↔ ∃ id e, r.entry? id = some e ∧ e.subscriber = s := by
  simp [live, Table.values, entry?, Table.get?_eq_some_iff]

theorem Sound.mem_live (h : r.Sound) {s : Subscriber} :
    s ∈ r.live ↔ ∃ e, r.entry? s.id = some e ∧ e.subscriber = s := by
  rw [Registry.mem_live]
  constructor
  · rintro ⟨id, e, he, rfl⟩
    exact ⟨e, by rw [h.keyed he, he], rfl⟩
  · rintro ⟨e, he, rfl⟩
    exact ⟨_, e, he, rfl⟩

theorem Sound.live_ascending (h : r.Sound) : r.live.Pairwise fun s t => s.id.val < t.id.val := by
  rw [live, Table.values, List.map_map]
  apply List.pairwise_map.2
  apply r.entries.sorted.imp_of_mem
  intro a b ha hb hab
  have keyed : ∀ x ∈ r.entries.rows, x.2.subscriber.id = x.1 := fun x hx =>
    h.keyed (Table.get?_eq_some_iff.2 hx)
  rw [Function.comp, Function.comp, keyed a ha, keyed b hb]
  exact SubscriberId.compare_eq_lt.1 hab

theorem Indexed.declaring_eq (h : r.Indexed) (name : String) :
    r.declaring name = r.live.filter fun s => s.interest.matchesName name := by
  have hmem : ∀ s, s ∈ r.declaring name ↔
      s ∈ r.live.filter fun s => s.interest.matchesName name := by
    intro s
    rw [List.mem_filter, h.mem_live, Interest.matchesName, Table.contains_iff, declaring,
      List.mem_filterMap]
    constructor
    · rintro ⟨id, hid, hs⟩
      obtain ⟨e, he, rfl⟩ := Option.map_eq_some_iff.1 hs
      obtain ⟨e', he', hname⟩ := (h.indexed name id).1 hid
      cases he.symm.trans he'
      exact ⟨⟨e, by rw [h.keyed he, he], rfl⟩, hname⟩
    · rintro ⟨⟨e, he, rfl⟩, hname⟩
      exact ⟨_, (h.indexed name _).2 ⟨e, he, hname⟩, by rw [he]; rfl⟩
  have nodup : ∀ {l : List Subscriber}, (l.Pairwise fun s t => s.id.val < t.id.val) → l.Nodup := by
    intro l hl
    apply hl.imp
    intro a b hab e
    exact Nat.lt_irrefl _ (e ▸ hab)
  have hd := declaring_sorted h.toSound name
  have hl := h.live_ascending.filter fun s => s.interest.matchesName name
  apply ((List.perm_ext_iff_of_nodup (nodup hd) (nodup hl)).2 hmem).eq_of_pairwise _ hd hl
  intro a b _ _ hab hba
  exact absurd (Nat.lt_trans hab hba) (Nat.lt_irrefl _)

section Preserved

variable {s : Subscriber} {id : SubscriberId}

theorem Indexed.ofCeiling (ceiling : Option Nat) : (ofCeiling ceiling).Indexed where
  toSound := .ofCeiling ceiling
  indexed := by
    intro name id
    constructor
    · nofun
    · rintro ⟨e, he, -⟩
      cases he
  resolved := nofun

theorem Indexed.add (h : r.Indexed) (hs : s.id = ⟨r.issued + 1⟩) (hr : s.scope ≠ .current) :
    (r.add s).Indexed where
  toSound := h.toSound.add hs
  indexed := by
    have absent : r.entry? s.id = none := by
      cases he : r.entry? s.id with
      | none => rfl
      | some e =>
        have hle := h.known he
        rw [hs] at hle
        exact absurd hle (Nat.not_succ_le_self _)
    intro name id
    refine (lists_enterAll _).trans ?_
    rw [h.indexed, entry_add]
    by_cases hid : s.id = id
    · subst hid
      simp [absent]
    · simp [hid]
  resolved := by
    intro id e he
    rw [entry_add] at he
    split at he
    · cases he
      exact hr
    · exact h.resolved he

theorem Indexed.unsubscribe (h : r.Indexed) (hu : r.unsubscribe id = some (s, r')) :
    r'.Indexed where
  toSound := by
    have hr := h.toSound.unsubscribeAll [id]
    rw [unsubscribeAll, hu] at hr
    exact hr
  indexed := by
    obtain ⟨e, he, hs⟩ := Option.map_eq_some_iff.1 hu
    intro name id'
    rw [entry_unsubscribe hu]
    have hix : Lists _ name id' ↔ Lists r.byEvent name id' ∧ ¬(name ∈ _ ∧ id = id') :=
      lists_dropAll e.subscriber.interest.events.toList
    cases hs
    refine hix.trans ?_
    rw [h.indexed]
    by_cases hid : id = id'
    · subst hid
      simp [he]
    · simp [hid]
  resolved := by
    intro id' e he
    rw [entry_unsubscribe hu] at he
    split at he
    · cases he
    · exact h.resolved he

theorem Indexed.unsubscribeAll (h : r.Indexed) (ids : List SubscriberId) :
    (Registry.unsubscribeAll ids r).2.Indexed := by
  induction ids generalizing r with
  | nil => exact h
  | cons id rest ih =>
    rw [Registry.unsubscribeAll]
    split
    · exact ih h
    · rename_i hu
      exact ih (h.unsubscribe hu)

theorem Indexed.updateFreeze (h : r.Indexed) (sel : Selector) (frozen : Bool) (now : Instant) :
    (r.updateFreeze sel frozen now).2.Indexed where
  toSound := h.toSound.updateFreeze sel frozen now
  indexed := by
    intro name id
    refine (h.indexed name id).trans ?_
    rw [entry_updateFreeze]
    cases r.entry? id with
    | none => simp
    | some e =>
      simp only [Option.some.injEq, Option.map_some, exists_eq_left']
      split
      · rw [Entry.subscriber_mark]
      · rfl
  resolved := by
    intro id e he
    rw [entry_updateFreeze] at he
    obtain ⟨e', he', rfl⟩ := Option.map_eq_some_iff.1 he
    split
    · rw [Entry.subscriber_mark]
      exact h.resolved he'
    · exact h.resolved he'

end Preserved

section Rosters

variable {s : Subscriber} {id : SubscriberId}

theorem live_add (h : r.Sound) (hs : s.id = ⟨r.issued + 1⟩) : (r.add s).live = r.live ++ [s] := by
  have hrows : (r.add s).entries.rows = r.entries.rows ++ [(s.id, { subscriber := s })] := by
    apply Table.insertRow_of_lt
    intro row hrow
    rw [SubscriberId.compare_eq_lt, hs]
    exact Nat.lt_succ_of_le (h.known (Table.get?_eq_some_iff.2 hrow))
  simp [live, Table.values, hrows]

theorem live_updateFreeze (r : Registry) (sel : Selector) (frozen : Bool) (now : Instant) :
    (r.updateFreeze sel frozen now).2.live = r.live := by
  simp only [live, Registry.updateFreeze, Table.values, Table.map, List.map_map]
  apply List.map_congr_left
  intro row _
  simp only [Function.comp]
  split
  · exact Entry.subscriber_mark _ _ _
  · rfl

theorem live_unsubscribeAll (h : r.Sound) (ids : List SubscriberId) :
    (unsubscribeAll ids r).2.live = r.live.filter fun s => s.id ∉ ids := by
  induction ids generalizing r with
  | nil => simp [unsubscribeAll]
  | cons id rest ih =>
    have hnext := h.unsubscribeAll [id]
    rw [unsubscribeAll] at hnext
    rw [unsubscribeAll]
    cases hu : r.unsubscribe id with
    | none =>
      have habsent : r.entry? id = none := Option.map_eq_none_iff.1 hu
      rw [ih h]
      apply List.filter_congr
      intro s hs
      obtain ⟨e, he, -⟩ := h.mem_live.1 hs
      have hne : s.id ≠ id := by
        intro hid
        rw [hid, habsent] at he
        cases he
      simp [hne]
    | some x =>
      obtain ⟨e, he, hx⟩ := Option.map_eq_some_iff.1 hu
      rw [hu] at hnext
      have hnext : x.2.Sound := hnext
      dsimp only
      rw [ih hnext]
      have hlive : x.2.live = r.live.filter fun s => s.id ≠ id := by
        cases hx
        simp only [live, Table.values, Table.erase, List.map_map, List.filter_map]
        congr 1
        apply List.filter_congr
        intro row hrow
        have hkey : row.2.subscriber.id = row.1 := h.keyed (Table.get?_eq_some_iff.2 hrow)
        simp [hkey, eq_comm]
      rw [hlive, List.filter_filter]
      apply List.filter_congr
      intro s _
      simp [Bool.and_comm]

theorem live_unsubscribe (h : r.Sound) (id : SubscriberId) :
    (r.apply (.unsubscribe id)).live = r.live.filter fun s => s.id ≠ id := by
  have hlive := live_unsubscribeAll h [id]
  rw [unsubscribeAll] at hlive
  rw [apply]
  simp only [List.mem_singleton] at hlive
  cases hu : r.unsubscribe id with
  | none =>
    rw [hu] at hlive
    exact hlive
  | some x =>
    rw [hu] at hlive
    exact hlive

theorem mem_idsOf {e : Entry} (he : r.entry? id = some e) (pid : Pid) :
    id ∈ r.idsOf pid ↔ e.subscriber.owner.pid = pid := by
  rw [idsOf, List.mem_map]
  constructor
  · rintro ⟨row, hrow, rfl⟩
    obtain ⟨hrow, hpid⟩ := List.mem_filter.1 hrow
    have hentry : r.entry? row.1 = some row.2 := Table.get?_eq_some_iff.2 hrow
    rw [he] at hentry
    cases hentry
    exact beq_iff_eq.1 hpid
  · intro hpid
    exact ⟨(id, e), List.mem_filter.2 ⟨Table.get?_eq_some_iff.1 he, beq_iff_eq.2 hpid⟩, rfl⟩

theorem live_removeOwner (h : r.Sound) (pid : Pid) :
    (r.removeOwner pid).2.live = r.live.filter fun s => s.owner.pid ≠ pid := by
  rw [removeOwner, live_unsubscribeAll h]
  apply List.filter_congr
  intro s hs
  obtain ⟨e, he, rfl⟩ := h.mem_live.1 hs
  simp [mem_idsOf he]

theorem Scope.resolve_ne_current (s : Scope) (o : Owner) : s.resolve o ≠ .current := by
  cases s <;> simp [Scope.resolve]

/-- The registry keeps `live`, and its index agrees with it. -/
structure Keeps (r : Registry) (live : List Subscriber) : Prop extends r.Indexed where
  live_eq : r.live = live

theorem Keeps.apply {live : List Subscriber} (h : r.Keeps live) (q : Request) :
    (r.apply q).Keeps (r.enlist live q) := by
  obtain ⟨hr, rfl⟩ := h
  cases q with
  | subscribe req isSystem =>
    rw [Registry.apply, enlist]
    cases hs : r.subscribe req isSystem with
    | error e => exact ⟨hr, rfl⟩
    | ok x =>
      obtain ⟨hsub, hadd⟩ := subscribe_adds hs
      have hid : x.1.subscriber.id = ⟨r.issued + 1⟩ := by
        rw [hsub]
        rfl
      have hscope : x.1.subscriber.scope ≠ .current := by
        rw [hsub]
        exact Scope.resolve_ne_current _ _
      dsimp only
      rw [hadd]
      exact ⟨hr.add hid hscope, live_add hr.toSound hid⟩
  | unsubscribe id =>
    refine ⟨?_, live_unsubscribe hr.toSound id⟩
    rw [Registry.apply]
    cases hu : r.unsubscribe id with
    | none => exact hr
    | some x => exact hr.unsubscribe hu
  | removeOwner pid => exact ⟨hr.unsubscribeAll _, live_removeOwner hr.toSound pid⟩
  | updateFreeze sel frozen now =>
    exact ⟨hr.updateFreeze sel frozen now, live_updateFreeze r sel frozen now⟩

theorem Keeps.run {live : List Subscriber} (h : r.Keeps live) (requests : List Request) :
    (r.run requests).Keeps (r.roster live requests) := by
  induction requests generalizing r live with
  | nil => exact h
  | cons q rest ih => exact ih (h.apply q)

theorem Keeps.ofCeiling (ceiling : Option Nat) : (Registry.ofCeiling ceiling).Keeps [] where
  toIndexed := .ofCeiling ceiling
  live_eq := rfl

end Rosters

end Registry

end EventBroker
