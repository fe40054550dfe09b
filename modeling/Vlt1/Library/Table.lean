import Mathlib.Data.List.AList
import Mathlib.Data.List.Sort

/-!
# Tables with a primary key

A table maps a primary key to the other columns of its row. It is an association list without
duplicate keys, so a lookup finds at most one row. `select` lists the rows in the order of a
comparison of keys, and the lemmas say what each write does to a later lookup.
-/

/-- A table with primary key `κ` and remaining columns `ρ`. -/
abbrev Table (κ ρ : Type) := AList fun _ : κ => ρ

namespace Table

variable {κ ρ : Type} [DecidableEq κ]

/-- The rows as pairs. -/
def rows (t : Table κ ρ) : List (κ × ρ) := t.entries.map fun e => (e.1, e.2)

/-- The rows ordered by key. -/
def select (le : κ → κ → Prop) [DecidableRel le] (t : Table κ ρ) : List (κ × ρ) :=
  t.rows.insertionSort fun a b => le a.1 b.1

omit [DecidableEq κ] in
@[simp] theorem rows_empty : (∅ : Table κ ρ).rows = [] := rfl

theorem lookup_insert_eq (t : Table κ ρ) (k k' : κ) (r : ρ) :
    (t.insert k r).lookup k' = if k' = k then some r else t.lookup k' := by
  by_cases h : k' = k
  · subst h; simp
  · rw [if_neg h, AList.lookup_insert_ne h]

theorem lookup_erase_eq (t : Table κ ρ) (k k' : κ) :
    (t.erase k).lookup k' = if k' = k then none else t.lookup k' := by
  by_cases h : k' = k
  · subst h; simp
  · rw [if_neg h, AList.lookup_erase_ne h]

theorem mem_rows {t : Table κ ρ} {k : κ} {r : ρ} : (k, r) ∈ t.rows ↔ t.lookup k = some r := by
  have hmem : (⟨k, r⟩ : Σ _ : κ, ρ) ∈ t.entries ↔ t.lookup k = some r :=
    (AList.mem_lookup_iff (a := k) (b := r) (s := t)).symm
  rw [← hmem, rows, List.mem_map]
  constructor
  · rintro ⟨⟨k', r'⟩, he, heq⟩
    obtain ⟨rfl, rfl⟩ := Prod.mk.inj heq
    exact he
  · intro he
    exact ⟨⟨k, r⟩, he, rfl⟩

omit [DecidableEq κ] in
/-- No two rows share a key. -/
theorem nodup_keys (t : Table κ ρ) : (t.rows.map Prod.fst).Nodup := by
  have h := t.keys_nodup
  rw [AList.keys, List.keys] at h
  rw [rows, List.map_map]
  exact h

section Select

variable (le : κ → κ → Prop) [DecidableRel le]

theorem mem_select {t : Table κ ρ} {k : κ} {r : ρ} :
    (k, r) ∈ t.select le ↔ t.lookup k = some r := by
  rw [select, List.mem_insertionSort, mem_rows]

omit [DecidableEq κ] in
theorem select_perm (t : Table κ ρ) : (t.select le).Perm t.rows :=
  List.perm_insertionSort _ _

omit [DecidableEq κ] in
theorem length_select (t : Table κ ρ) : (t.select le).length = t.rows.length :=
  (select_perm le t).length_eq

omit [DecidableEq κ] in
/-- The selected rows are in the order of their keys. -/
theorem pairwise_select [Std.Total le] [IsTrans κ le] (t : Table κ ρ) :
    ((t.select le).map Prod.fst).Pairwise le := by
  have : Std.Total fun a b : κ × ρ => le a.1 b.1 := ⟨fun a b => total_of le a.1 b.1⟩
  have : IsTrans (κ × ρ) fun a b => le a.1 b.1 := ⟨fun _ _ _ h h' => trans_of le h h'⟩
  exact List.pairwise_map.mpr (List.pairwise_insertionSort _ _)

omit [DecidableEq κ] in
/-- No two selected rows share a key. -/
theorem nodup_keys_select (t : Table κ ρ) : ((t.select le).map Prod.fst).Nodup :=
  ((select_perm le t).map Prod.fst).nodup_iff.mpr t.nodup_keys

end Select

end Table
