import Mathlib.Data.List.Basic
import Mathlib.Data.List.Dedup
import Mathlib.Data.List.Perm.Basic
import EventBroker.Table

universe u v w

namespace EventBroker.Table

variable {κ : Type u} {ν : Type v} [Ord κ]

def filter (p : κ → ν → Bool) (t : Table κ ν) : Table κ ν :=
  ⟨t.rows.filter fun r => p r.1 r.2, t.sorted.filter _⟩

theorem rows_perm_filter (p : κ → ν → Bool) (t : Table κ ν) :
    t.rows.Perm ((t.filter p).rows ++ (t.filter fun k v => !p k v).rows) :=
  (List.filter_append_perm (fun r : κ × ν => p r.1 r.2) t.rows).symm

theorem insertRow_of_lt [Std.TransOrd κ] {k : κ} (v : ν) {rows : List (κ × ν)}
    (h : ∀ r ∈ rows, compare r.1 k = .lt) : insertRow k v rows = rows ++ [(k, v)] := by
  induction rows with
  | nil => rfl
  | cons r rest ih =>
    have hgt : compare k r.1 = .gt := Std.OrientedCmp.gt_iff_lt.2 (h r List.mem_cons_self)
    rw [insertRow, hgt, List.cons_append]
    exact congrArg (r :: ·) (ih fun r' hr' => h r' (List.mem_cons_of_mem r hr'))

section Lookup

variable [DecidableEq κ] {t : Table κ ν} {k k' : κ} {v : ν}

theorem get?_map {μ : Type w} (f : ν → μ) (t : Table κ ν) (k : κ) :
    (t.map f).get? k = (t.get? k).map f := by
  simp only [get?, map]
  induction t.rows with
  | nil => rfl
  | cons r rest ih =>
    simp only [List.map_cons, lookupRow]
    split
    · rfl
    · exact ih

theorem get?_alter [Std.TransOrd κ] [Std.LawfulEqOrd κ] (f : Option ν → Option ν) :
    (t.alter k f).get? k' = if k = k' then f (t.get? k) else t.get? k' := by
  simp only [alter]
  cases hf : f (t.get? k) with
  | none => rw [get?_erase]
  | some v => rw [get?_insert]

omit [Ord κ] in
theorem lookupRow_eq_none {rows : List (κ × ν)} (h : k ∉ rows.map Prod.fst) :
    lookupRow k rows = none := by
  induction rows with
  | nil => rfl
  | cons r rest ih =>
    rw [List.map_cons, List.mem_cons, not_or] at h
    rw [lookupRow, if_neg h.1]
    exact ih h.2

theorem get?_foldr_insert [Std.TransOrd κ] [Std.LawfulEqOrd κ] (rows : List (κ × ν))
    (t : Table κ ν) (k : κ) :
    (rows.foldr (fun r t => t.insert r.1 r.2) t).get? k = (lookupRow k rows).or (t.get? k) := by
  induction rows with
  | nil => rfl
  | cons r rest ih =>
    rw [List.foldr_cons, get?_insert, ih, lookupRow]
    by_cases h : r.1 = k
    · rw [if_pos h, if_pos h.symm]
      rfl
    · rw [if_neg h, if_neg fun e => h e.symm]

theorem insert_insert [Std.TransOrd κ] [Std.LawfulEqOrd κ] (t : Table κ ν) (k : κ) (v v' : ν) :
    (t.insert k v).insert k v' = t.insert k v' := by
  apply ext_get?
  intro k'
  rw [get?_insert, get?_insert, get?_insert]
  split <;> rfl

section Mapping

variable {μ : Type w} (f : ν → μ) (t : Table κ ν) (k : κ)

theorem map_erase [Std.TransOrd κ] [Std.LawfulEqOrd κ] :
    (t.erase k).map f = (t.map f).erase k := by
  apply ext_get?
  intro k'
  rw [get?_map, get?_erase, get?_erase, get?_map]
  split <;> rfl

theorem map_insert [Std.TransOrd κ] [Std.LawfulEqOrd κ] (v : ν) :
    (t.insert k v).map f = (t.map f).insert k (f v) := by
  apply ext_get?
  intro k'
  rw [get?_map, get?_insert, get?_insert, get?_map]
  split <;> rfl

theorem map_alter [Std.TransOrd κ] [Std.LawfulEqOrd κ] {g : Option ν → Option ν}
    {g' : Option μ → Option μ} (h : ∀ v, (g v).map f = g' (v.map f)) :
    (t.alter k g).map f = (t.map f).alter k g' := by
  apply ext_get?
  intro k'
  rw [get?_map, get?_alter, get?_alter, get?_map, get?_map, ← h]
  split <;> rfl

end Mapping

theorem get?_foldl_erase (rows : List (κ × ν)) (t : Table κ ν) (k : κ) :
    (rows.foldl (fun t r => t.erase r.1) t).get? k =
      if k ∈ rows.map (·.1) then none else t.get? k := by
  induction rows generalizing t with
  | nil => simp
  | cons a rest ih =>
    rw [List.foldl_cons, ih, get?_erase, List.map_cons]
    by_cases h : a.1 = k
    · simp [h]
    · rw [if_neg h]
      have : k ≠ a.1 := fun e => h e.symm
      simp only [List.mem_cons, this, false_or]

end Lookup

section Lawful

variable [Std.LawfulEqOrd κ]

theorem rows_nodup (t : Table κ ν) : t.rows.Nodup := by
  apply t.sorted.imp
  intro a b hab e
  subst e
  simp at hab

theorem keys_nodup (t : Table κ ν) : t.keys.Nodup := by
  apply List.pairwise_map.2
  apply t.sorted.imp
  intro a b hab e
  rw [e] at hab
  simp at hab

variable [DecidableEq κ] {t : Table κ ν} {k k' : κ} {v : ν}

theorem get?_filter (p : κ → ν → Bool) (t : Table κ ν) (k : κ) :
    (t.filter p).get? k = (t.get? k).filter (p k) := by
  apply Option.ext
  intro v
  rw [get?_eq_some_iff, Option.filter_eq_some_iff, get?_eq_some_iff]
  simp [filter]

theorem erase_of_get?_none (h : t.get? k = none) : (t.erase k).rows = t.rows := by
  simp only [erase]
  apply List.filter_eq_self.2
  intro r hr
  have hne : k ≠ r.1 := by
    intro e
    subst e
    rw [get?_eq_some_iff.2 hr] at h
    cases h
  simpa using hne

theorem erase_perm (h : t.get? k = some v) : t.rows.Perm ((k, v) :: (t.erase k).rows) := by
  apply (List.perm_ext_iff_of_nodup t.rows_nodup _).2
  · intro r
    by_cases hr : k = r.1
    · subst hr
      have : (r.1, r.2) ∈ t.rows ↔ r.2 = v := by
        rw [← get?_eq_some_iff, h, Option.some.injEq, eq_comm]
      simp [erase, this, Prod.ext_iff]
    · simp [erase, hr, Prod.ext_iff, eq_comm]
  · apply List.nodup_cons.2
    exact ⟨by simp [erase], (t.erase k).rows_nodup⟩

theorem filter_key (t : Table κ ν) (k : κ) :
    t.rows.filter (fun r => r.1 = k) = ((t.get? k).map fun v => (k, v)).toList := by
  cases h : t.get? k with
  | none =>
    apply List.filter_eq_nil_iff.2
    intro r hr he
    have hr : t.get? r.1 = some r.2 := get?_eq_some_iff.2 hr
    rw [of_decide_eq_true he, h] at hr
    cases hr
  | some v =>
    have hrest : (t.erase k).rows.filter (fun r => r.1 = k) = [] := by
      apply List.filter_eq_nil_iff.2
      intro r hr he
      have hne : k ≠ r.1 := by simpa [erase] using (List.mem_filter.1 hr).2
      exact hne (of_decide_eq_true he).symm
    apply List.perm_singleton.1
    refine ((erase_perm h).filter _).trans ?_
    rw [List.filter_cons_of_pos (by simp), hrest]

theorem insert_perm [Std.TransOrd κ] :
    (t.insert k v).rows.Perm ((k, v) :: (t.erase k).rows) := by
  have h : (t.insert k v).erase k = t.erase k := by
    apply ext_get?
    intro k'
    simp only [get?_erase, get?_insert]
    split <;> rfl
  rw [← h]
  apply erase_perm
  simp [get?_insert]

theorem foldl_erase_filter [Std.TransOrd κ] (p : κ → ν → Bool) (t : Table κ ν) :
    (t.rows.filter fun r => p r.1 r.2).foldl (fun t r => t.erase r.1) t =
      t.filter fun k v => !p k v := by
  apply ext_get?
  intro k
  rw [get?_foldl_erase, get?_filter]
  have picked : k ∈ (t.rows.filter fun r => p r.1 r.2).map (·.1) ↔
      ∃ v, t.get? k = some v ∧ p k v = true := by
    simp [get?_eq_some_iff]
  cases h : t.get? k with
  | none => simp
  | some v =>
    simp only [picked, h, Option.some.injEq, exists_eq_left', Option.filter_some]
    cases p k v <;> rfl

end Lawful

end EventBroker.Table

namespace EventBroker.SortedSet

variable {κ : Type u} [Ord κ] [Std.TransOrd κ] [Std.LawfulEqOrd κ]

theorem mem_insert [DecidableEq κ] {s : SortedSet κ} {k k' : κ} :
    k' ∈ (s.insert k).toList ↔ k' = k ∨ k' ∈ s.toList := by
  rw [toList, toList, ← Table.contains_iff, ← Table.contains_iff, insert, Table.contains,
    Table.contains, Table.get?_insert]
  by_cases h : k = k'
  · simp [h]
  · simp [h, Ne.symm h]

theorem mem_ofList [DecidableEq κ] {ks : List κ} {k : κ} : k ∈ (ofList ks).toList ↔ k ∈ ks := by
  have step : ∀ s : SortedSet κ, k ∈ (ks.foldl insert s).toList ↔ k ∈ ks ∨ k ∈ s.toList := by
    induction ks with
    | nil => simp
    | cons k' rest ih =>
      intro s
      rw [List.foldl_cons, ih, mem_insert, List.mem_cons]
      tauto
  exact (step Table.empty).trans (or_iff_left List.not_mem_nil)

theorem ofList_perm_dedup [DecidableEq κ] (ks : List κ) : (ofList ks).toList.Perm ks.dedup := by
  apply (List.perm_ext_iff_of_nodup (ofList ks).keys_nodup ks.nodup_dedup).2
  intro k
  rw [List.mem_dedup]
  exact mem_ofList

end EventBroker.SortedSet
