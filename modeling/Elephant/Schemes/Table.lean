import Mathlib.Data.List.Nodup

/-! A database table with a primary key and one unique column.

    The constraints are part of the type, so a table that breaks one cannot be built; `insert` and
    `update` answer `none` where the database reports a duplicate key. A table without a second
    unique column takes its key for it. -/

namespace Elephant.Schemes

variable {ρ κ υ : Type*}

/-- Rows with distinct primary keys and distinct values in the unique column, in insertion order. -/
structure Table (key : ρ → κ) (uniq : ρ → υ) where
  rows : List ρ
  keyNodup : (rows.map key).Nodup
  uniqNodup : (rows.map uniq).Nodup

namespace Table

variable {key : ρ → κ} {uniq : ρ → υ}

theorem ext {t t' : Table key uniq} (h : t.rows = t'.rows) : t = t' := by
  cases t; cases t'; simp_all

instance [DecidableEq ρ] : DecidableEq (Table key uniq) := fun t t' =>
  decidable_of_iff (t.rows = t'.rows) ⟨ext, fun h => h ▸ rfl⟩

def empty : Table key uniq := ⟨[], List.nodup_nil, List.nodup_nil⟩

/-- Two rows with one key are one row. -/
theorem eq_of_key {t : Table key uniq} {r r' : ρ} (hr : r ∈ t.rows) (hr' : r' ∈ t.rows)
    (h : key r = key r') : r = r' :=
  List.inj_on_of_nodup_map t.keyNodup hr hr' h

/-- `DELETE … WHERE condition`. -/
def destroyWhere (t : Table key uniq) (condition : ρ → Bool) : Table key uniq where
  rows := t.rows.filter fun r => !condition r
  keyNodup := (List.filter_sublist.map key).nodup t.keyNodup
  uniqNodup := (List.filter_sublist.map uniq).nodup t.uniqNodup

theorem mem_destroyWhere {t : Table key uniq} {condition : ρ → Bool} {r : ρ} :
    r ∈ (t.destroyWhere condition).rows ↔ r ∈ t.rows ∧ condition r = false := by
  simp [destroyWhere]

variable [DecidableEq κ]

/-- `SELECT … WHERE key = k`. -/
def find (t : Table key uniq) (k : κ) : Option ρ := t.rows.find? fun r => key r = k

/-- `DELETE … WHERE key = k`. -/
def destroy (t : Table key uniq) (k : κ) : Table key uniq where
  rows := t.rows.filter fun r => key r ≠ k
  keyNodup := (List.filter_sublist.map key).nodup t.keyNodup
  uniqNodup := (List.filter_sublist.map uniq).nodup t.uniqNodup

/-- The rows with the one under `key r` replaced by `r`. -/
def replaced (t : Table key uniq) (r : ρ) : List ρ :=
  t.rows.map fun x => if key x = key r then r else x

variable {t t' : Table key uniq} {k : κ} {r : ρ}

theorem find_eq_none : t.find k = none ↔ ∀ r ∈ t.rows, key r ≠ k := by
  simp [find, List.find?_eq_none]

theorem find_eq_some : t.find k = some r ↔ r ∈ t.rows ∧ key r = k := by
  refine ⟨fun h => ⟨List.mem_of_find?_eq_some h, by simpa using List.find?_some h⟩, ?_⟩
  rintro ⟨hr, hk⟩
  cases hf : t.find k with
  | none => exact absurd hk (find_eq_none.mp hf r hr)
  | some x =>
    have hx : key x = k := by simpa using List.find?_some hf
    rw [eq_of_key (List.mem_of_find?_eq_some hf) hr (hx.trans hk.symm)]

theorem find_congr (h : ∀ r, key r = k → (r ∈ t.rows ↔ r ∈ t'.rows)) : t.find k = t'.find k := by
  cases hf : t'.find k with
  | none =>
    rw [find_eq_none] at hf ⊢
    intro r hr hk; exact hf r ((h r hk).mp hr) hk
  | some r =>
    rw [find_eq_some] at hf ⊢
    exact ⟨(h r hf.2).mpr hf.1, hf.2⟩

theorem destroyWhere_key : t.destroyWhere (fun r => decide (key r = k)) = t.destroy k := by
  simp [destroyWhere, destroy]

theorem find_destroy_self : (t.destroy k).find k = none := by
  simp [find_eq_none, destroy]

theorem find_destroy_ne {k' : κ} (h : k ≠ k') : (t.destroy k').find k = t.find k := by
  refine find_congr fun r hr => ?_
  simp [destroy, hr, h]

theorem find_of_destroy {k' : κ} (h : (t.destroy k').find k = some r) : t.find k = some r := by
  by_cases hk : k = k'
  · rw [hk, find_destroy_self] at h; simp at h
  · rw [find_destroy_ne hk] at h; exact h

theorem map_key_replaced : (t.replaced r).map key = t.rows.map key := by
  rw [replaced, List.map_map]
  refine List.map_congr_left fun x _ => ?_
  by_cases h : key x = key r <;> simp [h]

theorem mem_replaced {x : ρ} : x ∈ t.replaced r ↔
    (x ∈ t.rows ∧ key x ≠ key r) ∨ (x = r ∧ ∃ y ∈ t.rows, key y = key r) := by
  simp only [replaced, List.mem_map]
  constructor
  · rintro ⟨y, hy, hx⟩
    by_cases hk : key y = key r
    · rw [if_pos hk] at hx; exact Or.inr ⟨hx.symm, y, hy, hk⟩
    · rw [if_neg hk] at hx; subst hx; exact Or.inl ⟨hy, hk⟩
  · rintro (⟨hx, hk⟩ | ⟨rfl, y, hy, hk⟩)
    · exact ⟨x, hx, if_neg hk⟩
    · exact ⟨y, hy, if_pos hk⟩

variable [DecidableEq υ]

/-- `INSERT`; `none` is a duplicate key, in either column. -/
def insert (t : Table key uniq) (r : ρ) : Option (Table key uniq) :=
  if h : key r ∉ t.rows.map key ∧ uniq r ∉ t.rows.map uniq then
    some ⟨t.rows ++ [r], by
      rw [List.map_append]; exact t.keyNodup.append (List.nodup_singleton _) (by simpa using h.1), by
      rw [List.map_append]; exact t.uniqNodup.append (List.nodup_singleton _) (by simpa using h.2)⟩
  else none

/-- `UPDATE … WHERE key = key r` that sets the other columns to `r`'s; `none` is a duplicate in the
    unique column. No row under the key is no error. -/
def update (t : Table key uniq) (r : ρ) : Option (Table key uniq) :=
  if h : ((t.replaced r).map uniq).Nodup then
    some ⟨t.replaced r, by rw [map_key_replaced]; exact t.keyNodup, h⟩
  else none

theorem insert_eq_some (h : t.insert r = some t') :
    t'.rows = t.rows ++ [r] ∧ key r ∉ t.rows.map key ∧ uniq r ∉ t.rows.map uniq := by
  unfold insert at h
  split at h
  · rename_i hc; simp only [Option.some.injEq] at h; subst h; exact ⟨rfl, hc⟩
  · simp at h

theorem insert_isSome (hk : ∀ x ∈ t.rows, key x ≠ key r) (hu : ∀ x ∈ t.rows, uniq x ≠ uniq r) :
    ∃ t', t.insert r = some t' := by
  unfold insert
  rw [dif_pos]
  · exact ⟨_, rfl⟩
  · simpa using ⟨hk, hu⟩

theorem find_insert_self (h : t.insert r = some t') : t'.find (key r) = some r := by
  rw [find_eq_some, (insert_eq_some h).1]; simp

theorem find_insert_ne (h : t.insert r = some t') (hk : k ≠ key r) : t'.find k = t.find k := by
  refine find_congr fun x hx => ?_
  rw [(insert_eq_some h).1, List.mem_append, List.mem_singleton]
  constructor
  · rintro (hx' | rfl)
    · exact hx'
    · exact absurd hx.symm hk
  · exact Or.inl

/-- Inserting a row and deleting it by its key leaves the table as it was. -/
theorem destroy_insert (h : t.insert r = some t') : t'.destroy (key r) = t := by
  obtain ⟨hrows, hkey, -⟩ := insert_eq_some h
  refine ext ?_
  show t'.rows.filter (fun x => key x ≠ key r) = t.rows
  have hold : t.rows.filter (fun x => key x ≠ key r) = t.rows := by
    rw [List.filter_eq_self]
    intro x hx
    simpa using fun hk => hkey (List.mem_map.mpr ⟨x, hx, hk⟩)
  rw [hrows, List.filter_append, hold]; simp

theorem update_eq_some (h : t.update r = some t') : t'.rows = t.replaced r := by
  unfold update at h
  split at h
  · simp only [Option.some.injEq] at h; subst h; rfl
  · simp at h

theorem update_isSome (hu : ∀ x ∈ t.rows, key x ≠ key r → uniq x ≠ uniq r) :
    ∃ t', t.update r = some t' := by
  unfold update
  rw [dif_pos]
  · exact ⟨_, rfl⟩
  · -- two rows that agree in the unique column after the update are one row
    rw [replaced, List.map_map]
    refine List.Nodup.map_on ?_ (List.Nodup.of_map key t.keyNodup)
    intro x hx y hy hxy
    simp only [Function.comp_apply] at hxy
    by_cases hxk : key x = key r <;> by_cases hyk : key y = key r
    · exact eq_of_key hx hy (hxk.trans hyk.symm)
    · rw [if_pos hxk, if_neg hyk] at hxy; exact absurd hxy.symm (hu y hy hyk)
    · rw [if_neg hxk, if_pos hyk] at hxy; exact absurd hxy (hu x hx hxk)
    · rw [if_neg hxk, if_neg hyk] at hxy
      exact List.inj_on_of_nodup_map t.uniqNodup hx hy hxy

theorem find_update_self (h : t.update r = some t') (hf : t.find (key r) ≠ none) :
    t'.find (key r) = some r := by
  obtain ⟨y, hy⟩ := Option.ne_none_iff_exists'.mp hf
  obtain ⟨hy, hk⟩ := find_eq_some.mp hy
  rw [find_eq_some, update_eq_some h, mem_replaced]
  exact ⟨Or.inr ⟨rfl, y, hy, hk⟩, rfl⟩

/-- An update that finds no row changes nothing. -/
theorem update_absent (hf : t.find (key r) = none) : t.update r = some t := by
  have hrows : t.replaced r = t.rows := by
    rw [replaced]
    conv_rhs => rw [← List.map_id t.rows]
    refine List.map_congr_left fun x hx => ?_
    rw [if_neg (find_eq_none.mp hf x hx)]; rfl
  rw [update, dif_pos (by rw [hrows]; exact t.uniqNodup)]
  exact congrArg some (ext hrows)

theorem find_update_ne (h : t.update r = some t') (hk : k ≠ key r) : t'.find k = t.find k := by
  refine find_congr fun x hx => ?_
  rw [update_eq_some h, mem_replaced]
  constructor
  · rintro (⟨hx', -⟩ | ⟨rfl, -⟩)
    · exact hx'
    · exact absurd hx.symm hk
  · exact fun hx' => Or.inl ⟨hx', hx ▸ hk⟩

end Table

end Elephant.Schemes
