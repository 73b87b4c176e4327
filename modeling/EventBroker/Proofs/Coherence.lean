import Mathlib.Algebra.BigOperators.Group.Finset.Basic
import EventBroker.Proofs.Indexing

namespace EventBroker

namespace Registry

section Requests

variable (r : Registry)

def admits : Request → List SubscriberId
  | .subscribe req isSystem =>
    match r.subscribe req isSystem with
    | .ok (a, _) => [a.subscriber.id]
    | .error _ => []
  | .unsubscribe _ => []
  | .removeOwner _ => []
  | .updateFreeze _ _ _ => []

def drops : Request → List SubscriberId
  | .subscribe _ _ => []
  | .unsubscribe id => (r.unsubscribe id).toList.map (·.1.id)
  | .removeOwner pid => (r.removeOwner pid).1.map (·.id)
  | .updateFreeze _ _ _ => []

def admitted (r : Registry) : List Request → List SubscriberId
  | [] => []
  | q :: rest => r.admits q ++ (r.apply q).admitted rest

def dropped (r : Registry) : List Request → List SubscriberId
  | [] => []
  | q :: rest => r.drops q ++ (r.apply q).dropped rest

def owned (pid : Pid) : Nat := r.live.countP fun s => s.owner.pid = pid

end Requests

def tally (n : Nat) : Option Nat := if n = 0 then none else some n

@[simp] theorem getD_tally (n : Nat) : (tally n).getD 0 = n := by
  cases n <;> rfl

theorem dropOne_tally (n : Nat) : dropOne (tally (n + 1)) = tally n := by
  cases n <;> rfl

def Pruned (index : Table String (SortedSet SubscriberId)) : Prop :=
  ∀ name ids, index.get? name = some ids → ids.toList ≠ []

section Pruned

variable {index : Table String (SortedSet SubscriberId)} (h : Pruned index) (id : SubscriberId)

include h

theorem Pruned.alter (name : String)
    {f : Option (SortedSet SubscriberId) → Option (SortedSet SubscriberId)}
    (hf : ∀ ids, f (index.get? name) = some ids → ids.toList ≠ []) :
    Pruned (index.alter name f) := by
  intro name' ids hids
  rw [Table.get?_alter] at hids
  split at hids
  · exact hf ids hids
  · exact h name' ids hids

theorem Pruned.enterAll (names : List String) :
    Pruned (names.foldl (fun index name =>
      index.alter name fun ids => some ((ids.getD .empty).insert id)) index) := by
  induction names generalizing index with
  | nil => exact h
  | cons name rest ih =>
    apply ih
    apply h.alter name
    intro ids hids hnil
    cases hids
    have hmem : id ∈ SortedSet.toList (((index.get? name).getD .empty).insert id) := by
      rw [SortedSet.toList, ← Table.contains_iff, Table.contains, SortedSet.insert,
        Table.get?_insert, if_pos rfl]
      rfl
    rw [hnil] at hmem
    cases hmem

theorem Pruned.dropAll (names : List String) :
    Pruned (names.foldl (fun index name => index.alter name (dropId id)) index) := by
  induction names generalizing index with
  | nil => exact h
  | cons name rest ih =>
    apply ih
    apply h.alter name
    intro ids hids hnil
    obtain ⟨kept, -, hleft⟩ := Option.bind_eq_some_iff.1 hids
    dsimp only at hleft
    split at hleft
    · cases hleft
    · rename_i hne
      cases hleft
      apply hne
      rw [SortedSet.toList, Table.keys, List.map_eq_nil_iff] at hnil
      rw [Table.isEmpty, hnil]
      rfl

end Pruned

structure Coherent (r : Registry) : Prop extends r.Indexed where
  pruned : Pruned r.byEvent
  counted : ∀ pid, r.perPid.get? pid = tally (r.owned pid)

variable {r r' : Registry} {s : Subscriber} {id : SubscriberId} {pid : Pid}

theorem owned_add (h : r.Sound) (hs : s.id = ⟨r.issued + 1⟩) (pid : Pid) :
    (r.add s).owned pid = r.owned pid + if s.owner.pid = pid then 1 else 0 := by
  simp [owned, live_add h hs, List.countP_cons]

theorem live_perm_of_unsubscribe (h : r.unsubscribe id = some (s, r')) :
    r.live.Perm (s :: r'.live) := by
  obtain ⟨e, he, hx⟩ := Option.map_eq_some_iff.1 h
  cases hx
  have hrows := ((Table.erase_perm he).map (·.2)).map Entry.subscriber
  exact hrows

theorem owned_of_unsubscribe (h : r.unsubscribe id = some (s, r')) (pid : Pid) :
    r.owned pid = r'.owned pid + if s.owner.pid = pid then 1 else 0 := by
  rw [owned, (live_perm_of_unsubscribe h).countP_eq, List.countP_cons]
  simp [owned]

namespace Coherent

theorem ofCeiling (ceiling : Option Nat) : (ofCeiling ceiling).Coherent where
  toIndexed := .ofCeiling ceiling
  pruned := nofun
  counted := fun _ => rfl

theorem add (h : r.Coherent) (hs : s.id = ⟨r.issued + 1⟩) (hr : s.scope ≠ .current) :
    (r.add s).Coherent where
  toIndexed := h.toIndexed.add hs hr
  pruned := h.pruned.enterAll s.id _
  counted := by
    intro pid
    have hrow : (r.add s).perPid.get? pid =
        if s.owner.pid = pid then some ((r.perPid.get? s.owner.pid).getD 0 + 1)
        else r.perPid.get? pid := Table.get?_alter _
    rw [hrow, owned_add h.toSound hs, h.counted, h.counted]
    split
    · rename_i hpid
      rw [getD_tally, hpid]
      rfl
    · rfl

theorem unsubscribe (h : r.Coherent) (hu : r.unsubscribe id = some (s, r')) : r'.Coherent where
  toIndexed := h.toIndexed.unsubscribe hu
  pruned := by
    obtain ⟨e, -, hx⟩ := Option.map_eq_some_iff.1 hu
    cases hx
    exact h.pruned.dropAll id _
  counted := by
    intro pid
    have hrow : r'.perPid.get? pid =
        if s.owner.pid = pid then dropOne (r.perPid.get? s.owner.pid)
        else r.perPid.get? pid := by
      obtain ⟨e, -, hx⟩ := Option.map_eq_some_iff.1 hu
      cases hx
      exact Table.get?_alter _
    have howned := owned_of_unsubscribe hu pid
    rw [hrow, h.counted, h.counted]
    split
    · rename_i hpid
      rw [if_pos hpid] at howned
      rw [hpid, howned]
      exact dropOne_tally _
    · rename_i hpid
      rw [if_neg hpid] at howned
      rw [howned]
      rfl

theorem unsubscribeAll (h : r.Coherent) (ids : List SubscriberId) :
    (Registry.unsubscribeAll ids r).2.Coherent := by
  induction ids generalizing r with
  | nil => exact h
  | cons id rest ih =>
    rw [Registry.unsubscribeAll]
    split
    · exact ih h
    · rename_i hu
      exact ih (h.unsubscribe hu)

theorem updateFreeze (h : r.Coherent) (sel : Selector) (frozen : Bool) (now : Instant) :
    (r.updateFreeze sel frozen now).2.Coherent where
  toIndexed := h.toIndexed.updateFreeze sel frozen now
  pruned := h.pruned
  counted := by
    intro pid
    rw [owned, live_updateFreeze]
    exact h.counted pid

theorem apply (h : r.Coherent) (q : Request) : (r.apply q).Coherent := by
  cases q with
  | subscribe req isSystem =>
    rw [Registry.apply]
    cases hs : r.subscribe req isSystem with
    | error e => exact h
    | ok x =>
      obtain ⟨hsub, hadd⟩ := subscribe_adds hs
      dsimp only
      rw [hadd, hsub]
      exact h.add rfl (Scope.resolve_ne_current _ _)
  | unsubscribe id =>
    rw [Registry.apply]
    cases hu : r.unsubscribe id with
    | none => exact h
    | some x => exact h.unsubscribe hu
  | removeOwner pid => exact h.unsubscribeAll _
  | updateFreeze sel frozen now => exact h.updateFreeze sel frozen now

theorem run (h : r.Coherent) (requests : List Request) : (r.run requests).Coherent := by
  induction requests generalizing r with
  | nil => exact h
  | cons q rest ih => exact ih (h.apply q)

end Coherent

section Removals

theorem entry_unsubscribeAll (ids : List SubscriberId) (r : Registry) (id : SubscriberId) :
    entry? (unsubscribeAll ids r).2 id = if id ∈ ids then none else r.entry? id := by
  induction ids generalizing r with
  | nil => rfl
  | cons gone rest ih =>
    rw [unsubscribeAll]
    cases hu : r.unsubscribe gone with
    | none =>
      have habsent : r.entry? gone = none := Option.map_eq_none_iff.1 hu
      dsimp only
      rw [ih]
      by_cases hid : id = gone
      · simp [hid, habsent]
      · simp [hid]
    | some x =>
      dsimp only
      rw [ih, entry_unsubscribe hu]
      by_cases hid : id = gone
      · simp [hid]
      · simp [hid, Ne.symm hid]

theorem fst_unsubscribeAll {ids : List SubscriberId} (hids : ids.Nodup) (r : Registry) :
    (unsubscribeAll ids r).1 = ids.filterMap fun id => (r.entry? id).map (·.subscriber) := by
  induction ids generalizing r with
  | nil => rfl
  | cons gone rest ih =>
    obtain ⟨hgone, hrest⟩ := List.nodup_cons.1 hids
    rw [unsubscribeAll]
    cases hu : r.unsubscribe gone with
    | none =>
      have habsent : r.entry? gone = none := Option.map_eq_none_iff.1 hu
      dsimp only
      rw [ih hrest, List.filterMap_cons_none]
      rw [habsent]
      rfl
    | some x =>
      obtain ⟨e, he, hx⟩ := Option.map_eq_some_iff.1 hu
      have hfst : x.1 = e.subscriber := by
        rw [← hx]
      dsimp only
      rw [ih hrest, List.filterMap_cons_some (by rw [he, Option.map_some]), hfst]
      congr 1
      apply List.filterMap_congr
      intro id hid
      have hne : gone ≠ id := by
        rintro rfl
        exact hgone hid
      rw [entry_unsubscribe hu, if_neg hne]

theorem Sound.idsOf_eq (h : r.Sound) (pid : Pid) :
    r.idsOf pid = (r.live.filter fun s => s.owner.pid = pid).map (·.id) := by
  rw [idsOf, live, Table.values, List.map_map, List.filter_map, List.map_map]
  apply List.map_congr_left
  intro row hrow
  exact (h.keyed (Table.get?_eq_some_iff.2 (List.mem_filter.1 hrow).1)).symm

theorem idsOf_nodup (r : Registry) (pid : Pid) : (r.idsOf pid).Nodup :=
  r.entries.keys_nodup.sublist (List.filter_sublist.map _)

theorem length_idsOf (h : r.Sound) (pid : Pid) : (r.idsOf pid).length = r.owned pid := by
  rw [h.idsOf_eq, List.length_map, owned, List.countP_eq_length_filter]

theorem fst_removeOwner (r : Registry) (pid : Pid) :
    (r.removeOwner pid).1 = r.live.filter fun s => s.owner.pid = pid := by
  rw [removeOwner, fst_unsubscribeAll (r.idsOf_nodup pid), idsOf, List.filterMap_map, live,
    Table.values, List.map_map, List.filter_map, ← List.filterMap_eq_map]
  apply List.filterMap_congr
  intro row hrow
  have he : r.entry? row.1 = some row.2 := Table.get?_eq_some_iff.2 (List.mem_filter.1 hrow).1
  rw [Function.comp, he]
  rfl

theorem entry_removeOwner (r : Registry) (pid : Pid) (id : SubscriberId) :
    entry? (r.removeOwner pid).2 id =
      (r.entry? id).filter fun e => e.subscriber.owner.pid ≠ pid := by
  rw [removeOwner, entry_unsubscribeAll]
  cases he : r.entry? id with
  | none => simp
  | some e => simp [mem_idsOf he, Option.filter]

end Removals

structure Accounts (r : Registry) (admitted dropped : List SubscriberId) : Prop where
  issued : admitted = (List.range r.issued).map fun i => ⟨i + 1⟩
  settled : admitted.Perm (r.live.map (·.id) ++ dropped)

namespace Accounts

variable {admitted dropped : List SubscriberId}

theorem ofCeiling (ceiling : Option Nat) : (Registry.ofCeiling ceiling).Accounts [] [] where
  issued := rfl
  settled := .rfl

theorem add (h : r.Accounts admitted dropped) (hr : r.Sound) (hs : s.id = ⟨r.issued + 1⟩) :
    (r.add s).Accounts (admitted ++ [s.id]) dropped where
  issued := by
    have hissued : (r.add s).issued = r.issued + 1 := rfl
    rw [hissued, List.range_succ, List.map_append, ← h.issued, hs]
    rfl
  settled := by
    rw [live_add hr hs, List.map_append, List.append_assoc]
    refine (h.settled.append_right [s.id]).trans ?_
    rw [List.append_assoc]
    exact List.perm_append_comm.append_left _

theorem leave (h : r.Accounts admitted dropped) {gone : List SubscriberId}
    (hissued : r'.issued = r.issued)
    (hlive : (r.live.map (·.id)).Perm (gone ++ r'.live.map (·.id))) :
    r'.Accounts admitted (dropped ++ gone) where
  issued := by
    rw [hissued]
    exact h.issued
  settled := calc
    admitted.Perm (r.live.map (·.id) ++ dropped) := h.settled
    List.Perm _ (gone ++ (r'.live.map (·.id) ++ dropped)) := by
      rw [← List.append_assoc]
      exact hlive.append_right dropped
    List.Perm _ (r'.live.map (·.id) ++ (dropped ++ gone)) := by
      rw [← List.append_assoc (r'.live.map _)]
      exact List.perm_append_comm

theorem apply (h : r.Accounts admitted dropped) (hr : r.Sound) (q : Request) :
    (r.apply q).Accounts (admitted ++ r.admits q) (dropped ++ r.drops q) := by
  cases q with
  | subscribe req isSystem =>
    rw [Registry.apply, admits, drops, List.append_nil]
    cases hs : r.subscribe req isSystem with
    | error e =>
      rw [List.append_nil]
      exact h
    | ok x =>
      obtain ⟨hsub, hadd⟩ := subscribe_adds hs
      dsimp only
      rw [hadd]
      exact h.add hr (by rw [hsub]; rfl)
  | unsubscribe id =>
    rw [Registry.apply, admits, drops, List.append_nil]
    cases hu : r.unsubscribe id with
    | none =>
      rw [Option.toList_none, List.map_nil, List.append_nil]
      exact h
    | some x => exact h.leave (issued_unsubscribe hu) ((live_perm_of_unsubscribe hu).map (·.id))
  | removeOwner pid =>
    rw [admits, drops, List.append_nil]
    refine h.leave (issued_unsubscribeAll _ _) ?_
    rw [Registry.apply, fst_removeOwner, live_removeOwner hr, ← List.map_append]
    apply List.Perm.map
    simpa using (List.filter_append_perm (fun s => s.owner.pid = pid) r.live).symm
  | updateFreeze sel frozen now =>
    rw [admits, drops, List.append_nil]
    refine h.leave rfl ?_
    rw [Registry.apply, live_updateFreeze]
    exact .rfl

theorem run (h : r.Accounts admitted dropped) (hr : r.Coherent) (requests : List Request) :
    (r.run requests).Accounts (admitted ++ r.admitted requests)
      (dropped ++ r.dropped requests) := by
  induction requests generalizing r admitted dropped with
  | nil =>
    rw [Registry.admitted, Registry.dropped, List.append_nil, List.append_nil]
    exact h
  | cons q rest ih =>
    rw [Registry.admitted, Registry.dropped, ← List.append_assoc, ← List.append_assoc]
    exact ih (h.apply hr.toSound q) (hr.apply q)

end Accounts

/-- What a process owns is listed as it came and counted, and no count of zero is kept. -/
structure CountsFor (r : Registry) (live : List Subscriber) (pid : Pid) : Prop where
  ids_eq : r.idsOf pid = (live.filter fun s => s.owner.pid = pid).map (·.id)
  count_eq : r.countOf pid = (r.idsOf pid).length
  kept : r.perPid.get? pid = tally (r.countOf pid)

/-- A name leads to the live subscriptions that declare it, each once, and to nothing at all if
there are none. A publication is weighed against just those. -/
structure Remembers (r : Registry) (live : List Subscriber) (name : String) : Prop where
  declaring_eq : r.declaring name = live.filter fun s => s.interest.matchesName name
  examined : ∀ (o : Oracle) (p : Publication), p.event.name = name →
    (r.matching o p).matched.Perm
        ((r.declaring name).filter fun s => p.verdict o s == .deliver) ∧
      (r.matching o p).denied = (r.declaring name).countP fun s => p.verdict o s == .denied
  indexed : ∀ ids, r.byEvent.get? name = some ids →
    ids.toList ≠ [] ∧ ids.toList = (live.filter fun s => s.interest.matchesName name).map (·.id)
  forgotten : (∀ s ∈ live, s.interest.matchesName name = false) → r.byEvent.get? name = none

def RemovesOne (r : Registry) (id : SubscriberId) : Prop :=
  match r.entry? id with
  | none => r.unsubscribe id = none
  | some e => ∃ r', r.unsubscribe id = some (e.subscriber, r') ∧
    ∀ id', entry? r' id' = if id' = id then none else r.entry? id'

structure RemovesOwned (r : Registry) (live : List Subscriber) (pid : Pid) : Prop where
  removed : (r.removeOwner pid).1 = live.filter fun s => s.owner.pid = pid
  left : ∀ id, entry? (r.removeOwner pid).2 id =
    (r.entry? id).filter fun e => e.subscriber.owner.pid ≠ pid

theorem removesOne (r : Registry) (id : SubscriberId) : r.RemovesOne id := by
  rw [RemovesOne]
  cases he : r.entry? id with
  | none => rw [unsubscribe, he, Option.map_none]
  | some e =>
    obtain ⟨x, hu, hx⟩ : ∃ x, r.unsubscribe id = some x ∧ x.1 = e.subscriber := by
      rw [unsubscribe, he]
      exact ⟨_, rfl, rfl⟩
    refine ⟨x.2, by rw [hu, ← hx], ?_⟩
    intro id'
    rw [entry_unsubscribe hu]
    simp only [eq_comm]

section Coherent

variable (h : r.Coherent)

include h

theorem Coherent.countOf_eq (pid : Pid) : r.countOf pid = r.owned pid := by
  rw [countOf, h.counted, getD_tally]

theorem Coherent.countsFor (pid : Pid) : r.CountsFor r.live pid where
  ids_eq := h.idsOf_eq pid
  count_eq := by rw [h.countOf_eq, length_idsOf h.toSound]
  kept := by rw [h.countOf_eq, h.counted]

theorem Coherent.sum_countOf {pids : Finset Pid} (hpids : ∀ s ∈ r.live, s.owner.pid ∈ pids) :
    ∑ pid ∈ pids, r.countOf pid = r.live.length := by
  have hcount : ∀ pid, r.countOf pid = Multiset.count pid (r.live.map fun s => s.owner.pid) := by
    intro pid
    rw [h.countOf_eq, owned, Multiset.coe_count, List.count, List.countP_map]
    rfl
  simp only [hcount]
  rw [Multiset.sum_count_eq_card, Multiset.coe_card, List.length_map]
  simpa using hpids

theorem Coherent.toList_indexed {name : String} {ids : SortedSet SubscriberId}
    (hids : r.byEvent.get? name = some ids) : ids.toList = (r.declaring name).map (·.id) := by
  rw [declaring, hids, Option.getD_some, List.map_filterMap]
  have hall : ∀ id ∈ ids.toList,
      ((r.entry? id).map (·.subscriber)).map (·.id) = some id := by
    intro id hid
    obtain ⟨e, he, -⟩ := (h.indexed name id).1 (by rwa [Lists, hids])
    rw [he, Option.map_some, Option.map_some, h.keyed he]
  rw [List.filterMap_congr hall, List.filterMap_some]

theorem Coherent.remembers (name : String) : r.Remembers r.live name where
  declaring_eq := h.declaring_eq name
  examined := by
    rintro o p rfl
    exact ⟨List.mergeSort_perm _ _, rfl⟩
  indexed := by
    intro ids hids
    refine ⟨h.pruned name ids hids, ?_⟩
    rw [h.toList_indexed hids, h.declaring_eq]
  forgotten := by
    intro hnone
    cases hids : r.byEvent.get? name with
    | none => rfl
    | some ids =>
      have hlist := h.toList_indexed hids
      rw [h.declaring_eq, List.filter_eq_nil_iff.2 (by simpa using hnone)] at hlist
      exact absurd hlist (h.pruned name ids hids)

end Coherent

theorem size_eq (r : Registry) : r.size = r.live.length := by
  simp [size, live, Table.size, Table.values]

/-- However a registry has come about, its structures agree on what is live. The ids given out are
1, 2, 3 and so on, each live or taken away once; what a process owns is counted and what declares a
name is found just as a scan would; and a removal leaves all else as it is. -/
theorem structures_in_step (ceiling : Option Nat) (requests : List Request) :
    let r := (ofCeiling ceiling).run requests
    let live := (ofCeiling ceiling).roster [] requests
    let admitted := (ofCeiling ceiling).admitted requests
    let dropped := (ofCeiling ceiling).dropped requests
    r.live = live ∧ live.Pairwise (fun s t => s.id.val < t.id.val) ∧
      r.size + dropped.length = admitted.length ∧
      admitted = ((List.range r.issued).map fun i => ⟨i + 1⟩) ∧
      admitted.Perm (live.map (·.id) ++ dropped) ∧
      (∀ pid, r.CountsFor live pid) ∧
      (∀ pids : Finset Pid, (∀ s ∈ live, s.owner.pid ∈ pids) →
        ∑ pid ∈ pids, r.countOf pid = r.size) ∧
      (∀ name, r.Remembers live name) ∧
      (∀ id, r.RemovesOne id) ∧
      ∀ pid, r.RemovesOwned live pid := by
  intro r live admitted dropped
  have hkeeps : r.Keeps live := (Keeps.ofCeiling ceiling).run requests
  have hcoherent : r.Coherent := (Coherent.ofCeiling ceiling).run requests
  have haccounts : r.Accounts admitted dropped :=
    (Accounts.ofCeiling ceiling).run (.ofCeiling ceiling) requests
  rw [size_eq, ← hkeeps.live_eq]
  refine ⟨rfl, hcoherent.live_ascending, ?_, haccounts.issued, haccounts.settled,
    hcoherent.countsFor, fun pids => hcoherent.sum_countOf, hcoherent.remembers, r.removesOne,
    fun pid => ⟨r.fst_removeOwner pid, r.entry_removeOwner pid⟩⟩
  rw [haccounts.settled.length_eq, List.length_append, List.length_map]

end Registry

end EventBroker
