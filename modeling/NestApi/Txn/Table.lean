import Mathlib.Data.List.Basic
import Mathlib.Data.List.Nodup

/-!
# Tables with a primary key

A table is a list of rows whose keys are distinct. Every operation keeps that
property, so a lookup by key and a membership statement say the same thing and
a write by key reaches one row.
-/

namespace NestApi.Txn

/-- Rows with distinct keys, in insertion order. -/
structure Table {κ α : Type} (key : α → κ) where
  rows : List α
  nodup : (rows.map key).Nodup

/-- A rewrite of rows that keeps their keys. -/
structure Rewrite {κ α : Type} (key : α → κ) where
  row : α → α
  key_row : ∀ r, key (row r) = key r

namespace Table

variable {κ α : Type} {key : α → κ}

instance : Membership α (Table key) where
  mem t r := r ∈ t.rows

theorem mem_def {t : Table key} {r : α} : r ∈ t ↔ r ∈ t.rows := Iff.rfl

/-- The table without rows. -/
def empty : Table key := ⟨[], by simp⟩

/-- The rows that satisfy `p`, in order. -/
def filter (t : Table key) (p : α → Bool) : List α := t.rows.filter p

@[simp] theorem not_mem_empty {r : α} : r ∉ (empty : Table key) := by
  simp [empty, mem_def]

@[simp] theorem mem_filter {t : Table key} {p : α → Bool} {r : α} :
    r ∈ t.filter p ↔ r ∈ t ∧ p r := List.mem_filter

/-- The keys of selected rows are distinct. -/
theorem nodup_filter (t : Table key) (p : α → Bool) : ((t.filter p).map key).Nodup :=
  List.Nodup.sublist (List.Sublist.map _ List.filter_sublist) t.nodup

/-- Two rows with one key are the same row. -/
theorem eq_of_key {t : Table key} {r s : α} (hr : r ∈ t) (hs : s ∈ t) (hkey : key r = key s) :
    r = s :=
  List.inj_on_of_nodup_map t.nodup hr hs hkey

variable [DecidableEq κ]

/-- The row with a given key. -/
def find? (t : Table key) (k : κ) : Option α := t.rows.find? fun r => key r = k

/-- Add a row. A key that is taken already refuses the row. -/
def insert (t : Table key) (r : α) : Table key :=
  if h : key r ∈ t.rows.map key then t
  else ⟨t.rows ++ [r], by
    rw [List.map_append, List.nodup_append']
    exact ⟨t.nodup, by simp, by simpa using h⟩⟩

/-- Rewrite the rows with the given keys. -/
def update (t : Table key) (ks : List κ) (f : Rewrite key) : Table key where
  rows := t.rows.map fun r => if key r ∈ ks then f.row r else r
  nodup := by
    have hkeys : (t.rows.map fun r => if key r ∈ ks then f.row r else r).map key =
        t.rows.map key := by
      rw [List.map_map]
      refine List.map_congr_left fun r _ => ?_
      by_cases hr : key r ∈ ks <;> simp [hr, f.key_row]
    rw [hkeys]
    exact t.nodup

/-- Delete the rows with the given keys. -/
def delete (t : Table key) (ks : List κ) : Table key where
  rows := t.rows.filter fun r => key r ∉ ks
  nodup := List.Nodup.sublist (List.Sublist.map _ List.filter_sublist) t.nodup

/-! ### Lookups -/

theorem mem_of_find? {t : Table key} {k : κ} {r : α} (h : t.find? k = some r) : r ∈ t :=
  List.mem_of_find?_eq_some h

theorem key_of_find? {t : Table key} {k : κ} {r : α} (h : t.find? k = some r) : key r = k := by
  simpa using List.find?_some h

theorem find?_eq_none {t : Table key} {k : κ} : t.find? k = none ↔ ∀ r ∈ t, key r ≠ k := by
  simp [find?, List.find?_eq_none, mem_def]

/-- A row is found under its own key. -/
theorem find?_of_mem {t : Table key} {r : α} (hr : r ∈ t) : t.find? (key r) = some r := by
  rcases hfind : t.find? (key r) with _ | s
  · exact absurd rfl (find?_eq_none.mp hfind r hr)
  · rw [eq_of_key (mem_of_find? hfind) hr (key_of_find? hfind)]

theorem find?_eq_some {t : Table key} {k : κ} {r : α} :
    t.find? k = some r ↔ r ∈ t ∧ key r = k :=
  ⟨fun h => ⟨mem_of_find? h, key_of_find? h⟩, fun h => h.2 ▸ find?_of_mem h.1⟩

/-- Two tables that agree on a key have the same row under it. -/
theorem mem_congr {t t' : Table key} {r : α} (h : t'.find? (key r) = t.find? (key r)) :
    r ∈ t' ↔ r ∈ t :=
  ⟨fun hr => mem_of_find? (h ▸ find?_of_mem hr), fun hr => mem_of_find? (h ▸ find?_of_mem hr)⟩

/-! ### Inserting -/

/-- Without a freshness assumption a row of the new table is old or new. -/
theorem mem_of_mem_insert {t : Table key} {r s : α} (h : s ∈ t.insert r) : s ∈ t ∨ s = r := by
  unfold insert at h
  split at h
  · exact .inl h
  · simpa [mem_def] using h

theorem mem_insert_of_mem {t : Table key} {r s : α} (h : s ∈ t) : s ∈ t.insert r := by
  unfold insert
  split
  · exact h
  · exact List.mem_append_left _ h

theorem mem_insert {t : Table key} {r s : α} (hfresh : ∀ x ∈ t, key x ≠ key r) :
    s ∈ t.insert r ↔ s ∈ t ∨ s = r := by
  refine ⟨mem_of_mem_insert, ?_⟩
  rintro (h | rfl)
  · exact mem_insert_of_mem h
  · have hkey : key s ∉ t.rows.map key := by
      simpa [mem_def] using hfresh
    simp [insert, hkey, mem_def]

/-- A lookup after an insert sees the new row under its key only. -/
theorem find?_insert {t : Table key} {r : α} {k : κ} (hk : k ≠ key r) :
    (t.insert r).find? k = t.find? k := by
  unfold insert
  split
  · rfl
  · have hr : decide (key r = k) = false := by simpa using Ne.symm hk
    simp [find?, List.find?_append, hr]

/-- An insert is invisible to a filter that refuses the new row. -/
theorem filter_insert {t : Table key} {p : α → Bool} {r : α} (hr : p r = false) :
    (t.insert r).filter p = t.filter p := by
  unfold insert
  split
  · rfl
  · simp [filter, hr]

/-! ### Updating -/

variable {t : Table key} {ks : List κ} {f : Rewrite key}

theorem mem_update {s : α} :
    s ∈ t.update ks f ↔ ∃ r ∈ t, (if key r ∈ ks then f.row r else r) = s := by
  simp [update, mem_def]

/-- A row after an update is an old row or a rewritten one. -/
theorem of_mem_update {s : α} (h : s ∈ t.update ks f) :
    s ∈ t ∧ key s ∉ ks ∨ ∃ r ∈ t, key r ∈ ks ∧ f.row r = s := by
  obtain ⟨r, hr, rfl⟩ := mem_update.mp h
  by_cases hk : key r ∈ ks
  · exact .inr ⟨r, hr, hk, by simp [hk]⟩
  · exact .inl (by simpa [hk] using hr)

theorem mem_update_of_not_mem {r : α} (hr : r ∈ t) (hk : key r ∉ ks) : r ∈ t.update ks f :=
  mem_update.mpr ⟨r, hr, if_neg hk⟩

theorem mem_update_of_mem {r : α} (hr : r ∈ t) (hk : key r ∈ ks) : f.row r ∈ t.update ks f :=
  mem_update.mpr ⟨r, hr, if_pos hk⟩

/-- An update does not touch a class of rows that neither contains a rewritten row nor
gains one. -/
theorem mem_update_frame {q : α → Prop} {s : α} (hs : q s)
    (hold : ∀ r ∈ t, key r ∈ ks → ¬ q r) (hnew : ∀ r ∈ t, key r ∈ ks → ¬ q (f.row r)) :
    s ∈ t.update ks f ↔ s ∈ t := by
  constructor
  · intro h
    rcases of_mem_update h with ⟨hmem, -⟩ | ⟨r, hr, hk, rfl⟩
    · exact hmem
    · exact absurd hs (hnew r hr hk)
  · exact fun h => mem_update_of_not_mem h fun hk => hold s h hk hs

/-- Rewriting no row changes nothing. -/
@[simp] theorem update_nil : t.update [] f = t := by
  obtain ⟨rows, hnodup⟩ := t
  simp [update]

/-- A rewrite that changes no row changes nothing. -/
theorem update_eq_self (h : ∀ r ∈ t, key r ∈ ks → f.row r = r) : t.update ks f = t := by
  obtain ⟨rows, hnodup⟩ := t
  have hrows : (rows.map fun r => if key r ∈ ks then f.row r else r) = rows := by
    rw [List.map_congr_left (g := id), List.map_id]
    intro r hr
    by_cases hk : key r ∈ ks
    · simpa [hk] using h r hr hk
    · simp [hk]
  simpa [update] using hrows

/-- A lookup after an update sees the updated row. -/
theorem find?_update {k : κ} :
    (t.update ks f).find? k = (t.find? k).map fun r => if k ∈ ks then f.row r else r := by
  have hkey : ∀ r, key (if key r ∈ ks then f.row r else r) = key r := fun r => by
    by_cases hr : key r ∈ ks <;> simp [hr, f.key_row]
  simp only [find?, update, List.find?_map, Function.comp_def, hkey]
  cases hfind : t.rows.find? fun r => decide (key r = k) with
  | none => rfl
  | some r =>
    have hk : key r = k := by simpa using List.find?_some hfind
    simp [hk]

theorem find?_update_of_not_mem {k : κ} (hk : k ∉ ks) : (t.update ks f).find? k = t.find? k := by
  simp [find?_update, hk]

/-- An update is invisible to a filter that refuses the rewritten rows, before and after. -/
theorem filter_update {p : α → Bool}
    (h : ∀ r ∈ t, key r ∈ ks → p r = false ∧ p (f.row r) = false) :
    (t.update ks f).filter p = t.filter p := by
  have hrows : ∀ rows : List α, (∀ r ∈ rows, r ∈ t) →
      (rows.map fun r => if key r ∈ ks then f.row r else r).filter p = rows.filter p := by
    intro rows
    induction rows with
    | nil => intro _; rfl
    | cons r rows ih =>
      intro hmem
      have hrest := ih fun x hx => hmem x (List.mem_cons_of_mem _ hx)
      by_cases hk : key r ∈ ks
      · obtain ⟨hbefore, hafter⟩ := h r (hmem r List.mem_cons_self) hk
        rw [List.map_cons, if_pos hk, List.filter_cons_of_neg (by simp [hafter]),
          List.filter_cons_of_neg (by simp [hbefore]), hrest]
      · rw [List.map_cons, if_neg hk, List.filter_cons, List.filter_cons, hrest]
  exact hrows t.rows fun r hr => hr

/-! ### Deleting -/

theorem mem_delete {r : α} : r ∈ t.delete ks ↔ r ∈ t ∧ key r ∉ ks := by
  simp [delete, mem_def]

/-- A lookup after a delete misses the deleted rows only. -/
theorem find?_delete {k : κ} (hk : k ∉ ks) : (t.delete ks).find? k = t.find? k := by
  cases hfind : t.find? k with
  | none =>
    rw [find?_eq_none] at hfind ⊢
    exact fun r hr => hfind r (mem_delete.mp hr).1
  | some r =>
    obtain ⟨hmem, rfl⟩ := find?_eq_some.mp hfind
    exact find?_eq_some.mpr ⟨mem_delete.mpr ⟨hmem, hk⟩, rfl⟩

/-- A deleted key is gone. -/
theorem find?_delete_of_mem {k : κ} (hk : k ∈ ks) : (t.delete ks).find? k = none := by
  refine find?_eq_none.mpr fun r hr hkey => ?_
  exact (mem_delete.mp hr).2 (hkey ▸ hk)

/-- A delete is invisible to a filter that refuses the deleted rows. -/
theorem filter_delete {p : α → Bool} (h : ∀ r ∈ t, key r ∈ ks → p r = false) :
    (t.delete ks).filter p = t.filter p := by
  unfold filter delete
  rw [List.filter_filter]
  refine List.filter_congr fun r hr => ?_
  by_cases hk : key r ∈ ks
  · simp [hk, h r hr hk]
  · simp [hk]

end Table

end NestApi.Txn
