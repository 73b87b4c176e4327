/-!
Finite maps kept as rows in strictly increasing key order, and sets as maps to `Unit`.

The order is part of the type, so everything listed from a table comes out by ascending key, and
two tables that answer every lookup alike are equal (`Table.ext_get?`).
-/

universe u v w

namespace EventBroker

structure Table (κ : Type u) (ν : Type v) [Ord κ] where
  rows : List (κ × ν)
  sorted : rows.Pairwise fun a b => compare a.1 b.1 = .lt
  deriving DecidableEq

abbrev SortedSet (κ : Type u) [Ord κ] := Table κ Unit

namespace Table

variable {κ : Type u} {ν : Type v} [Ord κ]

def lookupRow [DecidableEq κ] (k : κ) : List (κ × ν) → Option ν
  | [] => none
  | (k', v) :: rest => if k = k' then some v else lookupRow k rest

def insertRow (k : κ) (v : ν) : List (κ × ν) → List (κ × ν)
  | [] => [(k, v)]
  | (k', v') :: rest =>
    match compare k k' with
    | .lt => (k, v) :: (k', v') :: rest
    | .eq => (k, v) :: rest
    | .gt => (k', v') :: insertRow k v rest

theorem mem_insertRow {k : κ} {v : ν} {r : κ × ν} {rows : List (κ × ν)}
    (h : r ∈ insertRow k v rows) : r = (k, v) ∨ r ∈ rows := by
  induction rows with
  | nil => simpa [insertRow] using h
  | cons a rest ih =>
    simp only [insertRow] at h
    split at h <;> simp only [List.mem_cons] at h ⊢
    · exact h
    · exact h.imp_right .inr
    · rcases h with h | h
      · exact .inr (.inl h)
      · exact (ih h).imp_right .inr

theorem sorted_insertRow [Std.TransOrd κ] [Std.LawfulEqOrd κ] (k : κ) (v : ν)
    {rows : List (κ × ν)} (h : rows.Pairwise fun a b => compare a.1 b.1 = .lt) :
    (insertRow k v rows).Pairwise fun a b => compare a.1 b.1 = .lt := by
  induction rows with
  | nil => simp [insertRow]
  | cons a rest ih =>
    obtain ⟨ha, hrest⟩ := List.pairwise_cons.1 h
    simp only [insertRow]
    split
    · rename_i hk
      refine List.pairwise_cons.2 ⟨fun b hb => ?_, h⟩
      rcases List.mem_cons.1 hb with rfl | hb
      · exact hk
      · exact Std.TransCmp.lt_trans hk (ha b hb)
    · rename_i hk
      obtain rfl := Std.LawfulEqCmp.eq_of_compare hk
      exact List.pairwise_cons.2 ⟨ha, hrest⟩
    · rename_i hk
      refine List.pairwise_cons.2 ⟨fun b hb => ?_, ih hrest⟩
      rcases mem_insertRow hb with rfl | hb
      · exact Std.OrientedCmp.gt_iff_lt.1 hk
      · exact ha b hb

def empty : Table κ ν := ⟨[], .nil⟩

instance : EmptyCollection (Table κ ν) := ⟨empty⟩

instance : Inhabited (Table κ ν) := ⟨empty⟩

def get? [DecidableEq κ] (t : Table κ ν) (k : κ) : Option ν := lookupRow k t.rows

def contains [DecidableEq κ] (t : Table κ ν) (k : κ) : Bool := (t.get? k).isSome

def keys (t : Table κ ν) : List κ := t.rows.map (·.1)

def values (t : Table κ ν) : List ν := t.rows.map (·.2)

def size (t : Table κ ν) : Nat := t.rows.length

def isEmpty (t : Table κ ν) : Bool := t.rows.isEmpty

def erase [DecidableEq κ] (t : Table κ ν) (k : κ) : Table κ ν :=
  ⟨t.rows.filter fun r => decide (k ≠ r.1), t.sorted.filter _⟩

def map {μ : Type w} (f : ν → μ) (t : Table κ ν) : Table κ μ :=
  ⟨t.rows.map fun r => (r.1, f r.2), List.pairwise_map.2 t.sorted⟩

section Lawful

variable [Std.TransOrd κ] [Std.LawfulEqOrd κ]

def insert (t : Table κ ν) (k : κ) (v : ν) : Table κ ν :=
  ⟨insertRow k v t.rows, sorted_insertRow k v t.sorted⟩

def alter [DecidableEq κ] (t : Table κ ν) (k : κ) (f : Option ν → Option ν) : Table κ ν :=
  match f (t.get? k) with
  | some v => t.insert k v
  | none => t.erase k

def ofList (rows : List (κ × ν)) : Table κ ν := rows.foldl (fun t r => t.insert r.1 r.2) empty

end Lawful

section Lemmas

variable [DecidableEq κ] {t s : Table κ ν} {k k' : κ} {v : ν}

theorem lookupRow_eq_some_iff [Std.LawfulEqOrd κ] {rows : List (κ × ν)}
    (h : rows.Pairwise fun a b => compare a.1 b.1 = .lt) :
    lookupRow k rows = some v ↔ (k, v) ∈ rows := by
  induction rows with
  | nil => simp [lookupRow]
  | cons a rest ih =>
    obtain ⟨ha, hrest⟩ := List.pairwise_cons.1 h
    obtain ⟨k', v'⟩ := a
    simp only [lookupRow, List.mem_cons, Prod.mk.injEq]
    split
    · rename_i hk
      subst hk
      have : (k, v) ∉ rest := fun hm => by simpa using ha _ hm
      simp [this, eq_comm]
    · rename_i hk
      simp [ih hrest, hk]

theorem get?_eq_some_iff [Std.LawfulEqOrd κ] : t.get? k = some v ↔ (k, v) ∈ t.rows :=
  lookupRow_eq_some_iff t.sorted

theorem contains_iff [Std.LawfulEqOrd κ] : t.contains k = true ↔ k ∈ t.keys := by
  simp only [contains, Option.isSome_iff_exists, get?_eq_some_iff, keys, List.mem_map]
  exact ⟨fun ⟨v, h⟩ => ⟨_, h, rfl⟩, fun ⟨r, h, e⟩ => ⟨r.2, e ▸ h⟩⟩

@[simp] theorem get?_empty : (empty : Table κ ν).get? k = none := rfl

theorem get?_erase : (t.erase k).get? k' = if k = k' then none else t.get? k' := by
  simp only [get?, erase]
  induction t.rows with
  | nil => simp [lookupRow]
  | cons a rest ih =>
    by_cases h : k = a.1 <;> by_cases h' : k' = a.1 <;> grind [lookupRow]

theorem get?_insert [Std.TransOrd κ] [Std.LawfulEqOrd κ] :
    (t.insert k v).get? k' = if k = k' then some v else t.get? k' := by
  simp only [get?, insert]
  induction t.rows with
  | nil => simp [insertRow, lookupRow, eq_comm]
  | cons a rest ih =>
    simp only [insertRow]
    split
    · simp [lookupRow, eq_comm]
    · rename_i hk
      obtain rfl := Std.compare_eq_iff_eq.1 hk
      by_cases h : k' = a.1 <;> simp [lookupRow, h, eq_comm]
    · rename_i hk
      have hne : k ≠ a.1 := fun e => by simp [e] at hk
      by_cases h : k' = a.1
      · simp [lookupRow, h, hne]
      · simp [lookupRow, h, ih]

theorem ext_get? [Std.TransOrd κ] [Std.LawfulEqOrd κ] (h : ∀ k, t.get? k = s.get? k) : t = s := by
  have hm : ∀ r, r ∈ t.rows ↔ r ∈ s.rows := fun r => by
    rw [← get?_eq_some_iff, ← get?_eq_some_iff, h]
  have nodup : ∀ u : Table κ ν, u.rows.Nodup := fun u =>
    u.sorted.imp fun {a b} hab e => by subst e; simp at hab
  have antisymm : ∀ a b : κ × ν, a ∈ t.rows → b ∈ s.rows →
      compare a.1 b.1 = .lt → compare b.1 a.1 = .lt → a = b :=
    fun a b _ _ hab hba => (Std.OrientedCmp.not_lt_of_lt hab hba).elim
  have : t.rows = s.rows :=
    ((List.perm_ext_iff_of_nodup (nodup t) (nodup s)).2 hm).eq_of_pairwise antisymm
      t.sorted s.sorted
  cases t; cases s; simp_all

end Lemmas

end Table

namespace SortedSet

variable {κ : Type u} [Ord κ]

def toList (s : SortedSet κ) : List κ := s.keys

def subset [DecidableEq κ] (s t : SortedSet κ) : Bool := s.keys.all t.contains

def insert [Std.TransOrd κ] [Std.LawfulEqOrd κ] (s : SortedSet κ) (k : κ) : SortedSet κ :=
  Table.insert s k ()

def ofList [Std.TransOrd κ] [Std.LawfulEqOrd κ] (ks : List κ) : SortedSet κ :=
  ks.foldl insert Table.empty

theorem subset_iff [DecidableEq κ] [Std.LawfulEqOrd κ] {s t : SortedSet κ} :
    s.subset t = true ↔ ∀ k ∈ s.toList, k ∈ t.toList := by
  simp [subset, toList, Table.contains_iff]

end SortedSet

end EventBroker
