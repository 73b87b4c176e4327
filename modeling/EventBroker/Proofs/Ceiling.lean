import EventBroker.Proofs.Coherence

namespace EventBroker

namespace Registry

/-- The process owns the most live subscriptions, and none that owns as many has a lower pid. -/
structure Leads (live : List Subscriber) (v : Eviction) : Prop where
  count_eq : v.count = live.countP fun s => s.owner.pid = v.pid
  owns : 0 < v.count
  most : ∀ pid, (live.countP fun s => s.owner.pid = pid) ≤ v.count
  lowest : ∀ pid, (live.countP fun s => s.owner.pid = pid) = v.count → v.pid ≤ pid

def Heads (v : Eviction) (row : Pid × Nat) : Prop :=
  row.2 < v.count ∨ row.2 = v.count ∧ v.pid ≤ row.1

theorem Heads.refl (v : Eviction) : Heads v (v.pid, v.count) := .inr ⟨rfl, Nat.le_refl _⟩

theorem Heads.trans {v w : Eviction} {row : Pid × Nat} (h : Heads v (w.pid, w.count))
    (h' : Heads w row) : Heads v row := by
  rcases h with h | ⟨h, hpid⟩
  · exact .inl (Nat.lt_of_le_of_lt (h'.elim Nat.le_of_lt fun h' => Nat.le_of_eq h'.1) h)
  · rcases h' with h' | ⟨h', hpid'⟩
    · exact .inl (Nat.lt_of_lt_of_eq h' h)
    · exact .inr ⟨h'.trans h, Nat.le_trans hpid hpid'⟩

def lead (top : Option Eviction) (row : Pid × Nat) : Option Eviction :=
  match top with
  | none => some ⟨row.1, row.2⟩
  | some best => if best.count < row.2 then some ⟨row.1, row.2⟩ else some best

theorem topOwner_eq (r : Registry) : r.topOwner = r.perPid.rows.foldl lead none := rfl

theorem foldl_lead {rows : List (Pid × Nat)} (hrows : rows.Pairwise fun a b => a.1 < b.1)
    (best : Eviction) (hbest : ∀ row ∈ rows, best.pid < row.1) :
    ∃ v, rows.foldl lead (some best) = some v ∧
      (v.pid, v.count) ∈ (best.pid, best.count) :: rows ∧
      ∀ row ∈ (best.pid, best.count) :: rows, Heads v row := by
  induction rows generalizing best with
  | nil => exact ⟨best, rfl, List.mem_cons_self, by simpa using Heads.refl best⟩
  | cons row rest ih =>
    obtain ⟨hrow, hrest⟩ := List.pairwise_cons.1 hrows
    obtain ⟨hhead, htail⟩ := List.forall_mem_cons.1 hbest
    rw [List.foldl_cons, lead]
    split
    · rename_i hlt
      obtain ⟨v, hv, hmem, hall⟩ := ih hrest ⟨row.1, row.2⟩ hrow
      refine ⟨v, hv, List.mem_cons_of_mem _ hmem, List.forall_mem_cons.2 ⟨?_, hall⟩⟩
      exact (hall row List.mem_cons_self).trans (w := ⟨row.1, row.2⟩) (.inl hlt)
    · rename_i hle
      obtain ⟨v, hv, hmem, hall⟩ := ih hrest best htail
      obtain ⟨hvbest, hvrest⟩ := List.forall_mem_cons.1 hall
      have hbestrow : Heads best row :=
        (Nat.lt_or_eq_of_le (Nat.le_of_not_lt hle)).imp_right fun he => ⟨he, Nat.le_of_lt hhead⟩
      refine ⟨v, hv, ?_, ?_⟩
      · exact List.cons_subset_cons _ (List.subset_cons_self _ _) hmem
      · exact List.forall_mem_cons.2
          ⟨hvbest, List.forall_mem_cons.2 ⟨hvbest.trans hbestrow, hvrest⟩⟩

variable {r r' : Registry} {v : Eviction} {req : Subscription} {isSystem : Bool}

theorem topOwner_heads (r : Registry) (h : r.perPid.rows ≠ []) :
    ∃ v, r.topOwner = some v ∧ (v.pid, v.count) ∈ r.perPid.rows ∧
      ∀ row ∈ r.perPid.rows, Heads v row := by
  have hsorted : r.perPid.rows.Pairwise fun a b => a.1 < b.1 :=
    r.perPid.sorted.imp fun hab => Nat.compare_eq_lt.1 hab
  rw [topOwner_eq]
  cases hrows : r.perPid.rows with
  | nil => exact absurd hrows h
  | cons row rest =>
    rw [hrows] at hsorted
    obtain ⟨hrow, hrest⟩ := List.pairwise_cons.1 hsorted
    exact foldl_lead hrest ⟨row.1, row.2⟩ hrow

theorem tally_eq_some_iff {n k : Nat} : tally n = some k ↔ n = k ∧ 0 < k := by
  cases n with
  | zero => simp [tally]; omega
  | succ n => simp [tally]; omega

theorem Coherent.topOwner_leads (h : r.Coherent) (hlive : r.live ≠ []) :
    ∃ v, r.topOwner = some v ∧ Leads r.live v := by
  have row_iff : ∀ pid n, (pid, n) ∈ r.perPid.rows ↔ r.owned pid = n ∧ 0 < n := by
    intro pid n
    rw [← Table.get?_eq_some_iff, h.counted, tally_eq_some_iff]
  obtain ⟨s, hs⟩ := List.exists_mem_of_ne_nil _ hlive
  have hpos : 0 < r.owned s.owner.pid := List.countP_pos_iff.2 ⟨s, hs, by simp⟩
  have hrows : r.perPid.rows ≠ [] := List.ne_nil_of_mem ((row_iff _ _).2 ⟨rfl, hpos⟩)
  obtain ⟨v, hv, hmem, hall⟩ := topOwner_heads r hrows
  obtain ⟨hcount, hown⟩ := (row_iff _ _).1 hmem
  have heads : ∀ pid, 0 < r.owned pid → Heads v (pid, r.owned pid) :=
    fun pid hp => hall _ ((row_iff _ _).2 ⟨rfl, hp⟩)
  refine ⟨v, hv, hcount.symm, hown, ?_, ?_⟩
  · intro pid
    change r.owned pid ≤ v.count
    cases Nat.eq_zero_or_pos (r.owned pid) with
    | inl hzero => omega
    | inr hp => exact (heads pid hp).elim Nat.le_of_lt fun hh => Nat.le_of_eq hh.1
  · intro pid hpid
    change r.owned pid = v.count at hpid
    have hh := heads pid (by omega)
    exact (hh.resolve_left (Nat.not_lt_of_le (Nat.le_of_eq hpid.symm))).2

structure Joins (r : Registry) (s : Subscriber) (r' : Registry) : Prop where
  fresh : s.id = ⟨r.issued + 1⟩
  issued_eq : r'.issued = r.issued + 1
  live_eq : r'.live = r.live ++ [s]
  entry_eq : ∀ id e, r.entry? id = some e → r'.entry? id = some e

theorem Sound.joins (h : r.Sound) {s : Subscriber} (hs : s.id = ⟨r.issued + 1⟩) :
    r.Joins s (r.add s) where
  fresh := hs
  issued_eq := rfl
  live_eq := live_add h hs
  entry_eq := by
    intro id e he
    have hne : s.id ≠ id := by
      intro hid
      have hle := h.known he
      rw [← hid, hs] at hle
      exact Nat.not_succ_le_self _ hle
    rw [entry_add, if_neg hne]
    exact he

/-- How a request to subscribe is decided. An invalid filter is refused whatever the ceiling; at
the ceiling, the caller is refused if it leads and reports the one that does otherwise. -/
structure Decides (r : Registry) (req : Subscription) (isSystem : Bool) : Prop where
  nameless : req.interest.events.toList = [] → r.subscribe req isSystem = .error .emptyFilter
  unnamed : req.interest.events.toList ≠ [] → "" ∈ req.interest.events.toList →
    r.subscribe req isSystem = .error .emptyEventName
  full : req.interest.events.toList ≠ [] → "" ∉ req.interest.events.toList →
    (∃ m, r.ceiling = some m ∧ m ≤ r.live.length) → r.live ≠ [] →
    ∃ v, Leads r.live v ∧
      (v.pid = req.owner.pid →
        r.subscribe req isSystem = .error (.tooManySubscribers v.pid v.count)) ∧
      (v.pid ≠ req.owner.pid → ∃ s r', r.Joins s r' ∧
        r.subscribe req isSystem = .ok (⟨s, some v⟩, r'))
  spare : req.interest.events.toList ≠ [] → "" ∉ req.interest.events.toList →
    (∀ m, r.ceiling = some m → m ≤ r.live.length → r.live = []) →
    ∃ s r', r.Joins s r' ∧ r.subscribe req isSystem = .ok (⟨s, none⟩, r')

theorem Interest.validate_nameless {i : Interest} (h : i.events.toList = []) :
    i.validate = .error .emptyFilter := by
  have hempty : i.events.isEmpty = true := by
    rw [Table.isEmpty, List.isEmpty_iff]
    simpa [SortedSet.toList, Table.keys] using h
  rw [Interest.validate, if_pos hempty]

theorem Interest.isEmpty_eq_false {i : Interest} (h : i.events.toList ≠ []) :
    ¬i.events.isEmpty = true := by
  rw [Table.isEmpty, List.isEmpty_iff]
  intro hnil
  rw [SortedSet.toList, Table.keys, hnil] at h
  exact h rfl

theorem Interest.validate_unnamed {i : Interest} (h : i.events.toList ≠ [])
    (hn : "" ∈ i.events.toList) : i.validate = .error .emptyEventName := by
  rw [Interest.validate, if_neg (Interest.isEmpty_eq_false h), if_pos (Table.contains_iff.2 hn)]

theorem Interest.validate_ok {i : Interest} (h : i.events.toList ≠ [])
    (hn : "" ∉ i.events.toList) : i.validate = .ok () := by
  rw [Interest.validate, if_neg (Interest.isEmpty_eq_false h),
    if_neg (mt Table.contains_iff.1 hn)]

theorem isFull_iff : r.isFull = true ↔ ∃ m, r.ceiling = some m ∧ m ≤ r.live.length := by
  rw [isFull, size_eq, Option.any_eq_true]
  simp

theorem Coherent.decides (h : r.Coherent) (req : Subscription) (isSystem : Bool) :
    r.Decides req isSystem where
  nameless := by
    intro hnil
    rw [subscribe, Interest.validate_nameless hnil]
  unnamed := by
    intro hne hn
    rw [subscribe, Interest.validate_unnamed hne hn]
  full := by
    intro hne hn hfull hlive
    obtain ⟨v, hv, hleads⟩ := h.topOwner_leads hlive
    have hvictim : r.victim = some v := by
      rw [victim, if_pos (isFull_iff.2 hfull), hv]
    simp only [subscribe, Interest.validate_ok hne hn, hvictim]
    refine ⟨v, hleads, ?_, ?_⟩
    · intro hpid
      rw [if_pos hpid]
    · intro hpid
      rw [if_neg hpid]
      exact ⟨_, _, h.joins rfl, rfl⟩
  spare := by
    intro hne hn hspare
    have hvictim : r.victim = none := by
      rw [victim]
      split
      · rename_i hfull
        obtain ⟨m, hm, hle⟩ := isFull_iff.1 hfull
        have hnone : ∀ pid, r.perPid.get? pid = none := by
          intro pid
          rw [h.counted, owned, hspare m hm hle]
          rfl
        have hempty : r.perPid = .empty := Table.ext_get? fun pid => hnone pid
        rw [topOwner, hempty]
        rfl
      · rfl
    simp only [subscribe, Interest.validate_ok hne hn, hvictim]
    exact ⟨_, _, h.joins rfl, rfl⟩

theorem Coherent.evicted_above (h : r.Coherent) {m : Nat} (hm : r.ceiling = some m)
    (hpos : 0 < m) {a : Admitted} (ha : r.subscribe req isSystem = .ok (a, r'))
    (habove : m < r'.size) :
    ∃ v, Leads r.live v ∧ v.pid ≠ req.owner.pid ∧ a.evicted = some v := by
  have hd := h.decides req isSystem
  obtain ⟨hsub, hadd⟩ := subscribe_adds ha
  have hlength : r'.size = r.live.length + 1 := by
    rw [size_eq, hadd, live_add h.toSound (by rw [hsub]; rfl), List.length_append]
    rfl
  have hlive : r.live ≠ [] := by
    rw [← List.length_pos_iff]
    omega
  have hne : req.interest.events.toList ≠ [] := by
    intro hnil
    cases ha.symm.trans (hd.nameless hnil)
  have hn : "" ∉ req.interest.events.toList := by
    intro hn
    cases ha.symm.trans (hd.unnamed hne hn)
  obtain ⟨v, hleads, hrefused, hadmitted⟩ := hd.full hne hn ⟨m, hm, by omega⟩ hlive
  by_cases hpid : v.pid = req.owner.pid
  · cases ha.symm.trans (hrefused hpid)
  · obtain ⟨s, r'', -, hok⟩ := hadmitted hpid
    cases ha.symm.trans hok
    exact ⟨v, hleads, hpid, rfl⟩

end Registry

end EventBroker
