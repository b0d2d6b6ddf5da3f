import Mathlib.Data.List.Nodup
import Mathlib.Tactic.Cases

/-!
# Tables

Rows of a relational table with the updates that SQL statements make. An update
of the rows with one key leaves the rows with other keys as they are, so that
what is known of the latter need not be proved again.
-/

namespace EasyDeploy.Foundation

variable {ρ κ α : Type*}

section Statements

variable [DecidableEq κ]

/-- `UPDATE rows SET .. WHERE key = target AND ..`. -/
def updateAt (rows : List ρ) (key : ρ → κ) (target : κ) (guard : ρ → Bool) (change : ρ → ρ) :
    List ρ :=
  rows.map fun row => if key row = target ∧ guard row then change row else row

/-- The number of rows that an update affects. -/
def affectedAt (rows : List ρ) (key : ρ → κ) (target : κ) (guard : ρ → Bool) : Nat :=
  rows.countP fun row => key row = target ∧ guard row

/-- `INSERT .. ON CONFLICT(key) DO UPDATE`. -/
def upsert (rows : List ρ) (key : ρ → κ) (row : ρ) : List ρ :=
  if rows.any fun old => key old = key row then
    updateAt rows key (key row) (fun _ => true) fun _ => row
  else
    rows ++ [row]

end Statements

/-- The next identifier of a table that numbers its rows. -/
def nextId (ids : List Int) : Int := ids.foldr max 0 + 1

theorem lt_nextId {ids : List Int} {id : Int} (h : id ∈ ids) : id < nextId ids := by
  unfold nextId
  induction ids with
  | nil => cases h
  | cons first ids ih =>
      rw [List.foldr_cons]
      rcases List.mem_cons.mp h with rfl | h
      · omega
      · have hlt := ih h
        omega

/-- A new row takes the next identifier. -/
theorem nextId_concat (ids : List Int) : nextId (ids ++ [nextId ids]) = nextId ids + 1 := by
  have hfold (ids : List Int) (id : Int) : (ids ++ [id]).foldr max 0 = max (ids.foldr max 0) id := by
    induction ids with
    | nil =>
        simp only [List.nil_append, List.foldr_cons, List.foldr_nil]
        omega
    | cons first ids ih =>
        simp only [List.cons_append, List.foldr_cons, ih]
        omega
  rw [nextId, nextId, hfold]
  omega

section Updates

variable [DecidableEq κ] {rows : List ρ} {key : ρ → κ} {target : κ} {guard : ρ → Bool}
  {change : ρ → ρ}

theorem mem_updateAt {row' : ρ} : row' ∈ updateAt rows key target guard change ↔
    ∃ row ∈ rows, (if key row = target ∧ guard row then change row else row) = row' :=
  List.mem_map

/-- What the change establishes on the rows it reaches, and what the other rows
have, holds of every row. -/
theorem forall_updateAt {P : ρ → Prop}
    (hchange : ∀ row ∈ rows, key row = target → guard row = true → P (change row))
    (hrest : ∀ row ∈ rows, (key row = target → guard row = false) → P row) :
    ∀ row ∈ updateAt rows key target guard change, P row := by
  intro row' h
  obtain ⟨row, hrow, rfl⟩ := mem_updateAt.mp h
  split
  · rename_i hwanted
    exact hchange row hrow hwanted.1 hwanted.2
  · rename_i hwanted
    refine hrest row hrow fun hkey => Bool.eq_false_iff.mpr fun hguard => hwanted ⟨hkey, hguard⟩

/-- A row with another key was there before. -/
theorem mem_of_updateAt {row' : ρ} (h : row' ∈ updateAt rows key target guard change)
    (hkey : ∀ row, key (change row) = key row) (hne : key row' ≠ target) : row' ∈ rows := by
  refine forall_updateAt (P := fun row' => key row' ≠ target → row' ∈ rows) ?_ ?_ row' h hne
  · intro row _ htarget _ hne
    exact absurd ((hkey row).trans htarget) hne
  · intro row hrow _ _
    exact hrow

/-- A row with another key stays. -/
theorem mem_updateAt_of_ne {row : ρ} (h : row ∈ rows) (hne : key row ≠ target) :
    row ∈ updateAt rows key target guard change :=
  mem_updateAt.mpr ⟨row, h, if_neg fun hwanted => hne hwanted.1⟩

/-- A row that the guard does not admit stays. -/
theorem mem_updateAt_of_guard {row : ρ} (h : row ∈ rows) (hguard : guard row = false) :
    row ∈ updateAt rows key target guard change :=
  mem_updateAt.mpr ⟨row, h, if_neg fun hwanted => by rw [hguard] at hwanted; cases hwanted.2⟩

/-- A row that the change does not produce was there before. -/
theorem mem_of_updateAt_of_not {P : ρ → Prop} {row' : ρ}
    (h : row' ∈ updateAt rows key target guard change)
    (hchange : ∀ row, guard row = true → ¬ P (change row)) (hP : P row') : row' ∈ rows :=
  forall_updateAt (P := fun row' => P row' → row' ∈ rows)
    (fun row _ _ hguard hP => absurd hP (hchange row hguard)) (fun _ hrow _ _ => hrow) row' h hP

/-- What the rows with the key have unless the update reaches and establishes it. -/
theorem holds_of_updateAt {P : ρ → Prop} {row' : ρ}
    (h : row' ∈ updateAt rows key target guard change)
    (hchange : ∀ row, guard row = true → P (change row))
    (hguard : ∀ row ∈ rows, key row = target → guard row = true ∨ P row)
    (hkey : key row' = target) : P row' := by
  refine forall_updateAt (P := fun row' => key row' = target → P row')
    (fun row _ _ hwanted _ => hchange row hwanted) (fun row hrow hother hkey => ?_) row' h hkey
  exact (hguard row hrow hkey).resolve_left (Bool.eq_false_iff.mp (hother hkey))

/-- An update that closes every open row with the key leaves none of them open. -/
theorem closed_of_updateAt {p : ρ → Bool} {row' : ρ}
    (h : row' ∈ updateAt rows key target guard change)
    (hchange : ∀ row, guard row = true → p (change row) = false)
    (hguard : ∀ row ∈ rows, key row = target → p row = true → guard row = true)
    (hkey : key row' = target) : p row' = false := by
  refine holds_of_updateAt (P := fun row => p row = false) h hchange (fun row hrow heq => ?_) hkey
  cases hopen : p row with
  | false => exact .inr rfl
  | true => exact .inl (hguard row hrow heq hopen)

/-- Columns that the change leaves alone stay as they are. -/
theorem map_updateAt {f : ρ → α} (hf : ∀ row, f (change row) = f row) :
    (updateAt rows key target guard change).map f = rows.map f := by
  rw [updateAt, List.map_map]
  refine List.map_congr_left fun row _ => ?_
  rw [Function.comp_apply]
  split
  · exact hf row
  · rfl

/-- An update after which no row it has reached is selected. -/
theorem countP_updateAt_le {p : ρ → Bool} (hchange : ∀ row, p (change row) = false) :
    (updateAt rows key target guard change).countP p ≤ rows.countP p := by
  rw [updateAt, List.countP_map]
  refine List.countP_mono_left fun row _ hselected => ?_
  rw [Function.comp_apply] at hselected
  split at hselected
  · rw [hchange row] at hselected
    cases hselected
  · exact hselected

/-- It takes a row from the selection. -/
theorem countP_updateAt_lt {p : ρ → Bool} (hchange : ∀ row, p (change row) = false) {row : ρ}
    (hrow : row ∈ rows) (hkey : key row = target) (hguard : guard row = true)
    (hp : p row = true) :
    (updateAt rows key target guard change).countP p < rows.countP p := by
  obtain ⟨before, after, rfl⟩ := List.append_of_mem hrow
  have hbefore : (updateAt before key target guard change).countP p ≤ before.countP p :=
    countP_updateAt_le hchange
  have hafter : (updateAt after key target guard change).countP p ≤ after.countP p :=
    countP_updateAt_le hchange
  have hsplit : updateAt (before ++ row :: after) key target guard change =
      updateAt before key target guard change ++
        change row :: updateAt after key target guard change := by
    rw [updateAt, List.map_append, List.map_cons, if_pos ⟨hkey, hguard⟩]
    rfl
  rw [hsplit, List.countP_append, List.countP_append, List.countP_cons_of_pos hp,
    List.countP_cons_of_neg (Bool.not_eq_true _ ▸ hchange row)]
  omega

/-- A selection that holds no row with the key is not updated. -/
theorem filter_updateAt {p : ρ → Bool} (hchange : ∀ row, p (change row) = p row)
    (hother : ∀ row, p row = true → key row ≠ target) :
    (updateAt rows key target guard change).filter p = rows.filter p := by
  induction rows with
  | nil => rfl
  | cons row rows ih =>
      rw [updateAt] at ih
      rw [updateAt, List.map_cons, List.filter_cons, List.filter_cons, ih]
      split
      · rename_i hwanted
        have hp : p row = false := Bool.eq_false_iff.mpr fun hp => hother row hp hwanted.1
        simp [hchange, hp]
      · rfl

/-- The row that is found by its key after an update. -/
theorem find?_updateAt {k : κ} (hkey : ∀ row, key (change row) = key row) :
    (updateAt rows key target guard change).find? (fun row => key row == k) =
      (rows.find? fun row => key row == k).map fun row =>
        if key row = target ∧ guard row then change row else row := by
  induction rows with
  | nil => rfl
  | cons row rows ih =>
      rw [updateAt] at ih
      have hsame : key (if key row = target ∧ guard row then change row else row) = key row := by
        split
        · exact hkey row
        · rfl
      rw [updateAt, List.map_cons, List.find?_cons, List.find?_cons, hsame, ih]
      split <;> rfl

/-- An update that reaches one row only. -/
theorem updateAt_append {row : ρ} {before after : List ρ} (hkey : key row = target)
    (hguard : guard row = true) (hbefore : ∀ other ∈ before, key other ≠ target)
    (hafter : ∀ other ∈ after, key other ≠ target) :
    updateAt (before ++ row :: after) key target guard change = before ++ change row :: after := by
  have hsame (rows : List ρ) (hother : ∀ other ∈ rows, key other ≠ target) :
      (rows.map fun row => if key row = target ∧ guard row then change row else row) = rows :=
    (List.map_congr_left fun other hmem => if_neg fun hwanted => hother other hmem hwanted.1).trans
      (List.map_id _)
  rw [updateAt, List.map_append, List.map_cons, hsame before hbefore, hsame after hafter,
    if_pos ⟨hkey, hguard⟩]

theorem mem_upsert {row row' : ρ} (h : row' ∈ upsert rows key row) :
    row' = row ∨ (row' ∈ rows ∧ key row' ≠ key row) := by
  unfold upsert at h
  split at h
  · refine forall_updateAt (P := fun row' => row' = row ∨ (row' ∈ rows ∧ key row' ≠ key row))
      (fun _ _ _ _ => .inl rfl) (fun old hold hother => .inr ⟨hold, ?_⟩) row' h
    exact fun heq => Bool.noConfusion (hother heq)
  · rename_i hnone
    rcases List.mem_append.mp h with h | h
    · refine .inr ⟨h, fun heq => hnone ?_⟩
      exact List.any_eq_true.mpr ⟨row', h, decide_eq_true heq⟩
    · exact .inl (List.mem_singleton.mp h)

end Updates

/-- Different rows have different keys. -/
def Keyed (rows : List ρ) (key : ρ → κ) : Prop := (rows.map key).Nodup

section Keys

variable {rows : List ρ} {key : ρ → κ}

theorem Keyed.eq (h : Keyed rows key) {row row' : ρ} (hrow : row ∈ rows) (hrow' : row' ∈ rows)
    (heq : key row = key row') : row = row' :=
  List.inj_on_of_nodup_map h hrow hrow' heq

/-- The row with a key after an update of this key. -/
theorem Keyed.eq_of_mem_updateAt [DecidableEq κ] (h : Keyed rows key) {guard : ρ → Bool}
    {change : ρ → ρ} {row row' : ρ} (hrow : row ∈ rows)
    (hrow' : row' ∈ updateAt rows key (key row) guard change)
    (hkey : ∀ row, key (change row) = key row) (heq : key row' = key row) :
    row' = if guard row then change row else row := by
  obtain ⟨old, hold, rfl⟩ := mem_updateAt.mp hrow'
  have hsame : key old = key row := by
    split at heq
    · exact (hkey old).symm.trans heq
    · exact heq
  obtain rfl := h.eq hold hrow hsame
  simp

/-- The rows before and behind a row have other keys. -/
theorem Keyed.exists_append (h : Keyed rows key) {row : ρ} (hrow : row ∈ rows) :
    ∃ before after, rows = before ++ row :: after ∧ (∀ other ∈ before, key other ≠ key row) ∧
      ∀ other ∈ after, key other ≠ key row := by
  obtain ⟨before, after, rfl⟩ := List.append_of_mem hrow
  rw [Keyed, List.map_append, List.map_cons, List.nodup_append] at h
  obtain ⟨-, hafter, hdisjoint⟩ := h
  rw [List.nodup_cons] at hafter
  refine ⟨before, after, rfl, fun other hother => ?_, fun other hother heq => ?_⟩
  · exact hdisjoint _ (List.mem_map_of_mem hother) _ List.mem_cons_self
  · exact hafter.1 (List.mem_map.mpr ⟨other, hother, heq⟩)

/-- The rows after an update of one row. -/
theorem Keyed.mem_updateAt [DecidableEq κ] (h : Keyed rows key) {row row' : ρ} (hrow : row ∈ rows)
    {guard : ρ → Bool} {change : ρ → ρ} (hguard : guard row = true) :
    row' ∈ updateAt rows key (key row) guard change ↔
      row' = change row ∨ row' ∈ rows ∧ key row' ≠ key row := by
  obtain ⟨before, after, rfl, hbefore, hafter⟩ := h.exists_append hrow
  rw [updateAt_append rfl hguard hbefore hafter, List.mem_append, List.mem_cons, List.mem_append,
    List.mem_cons]
  constructor
  · rintro (hmem | rfl | hmem)
    · exact .inr ⟨.inl hmem, hbefore row' hmem⟩
    · exact .inl rfl
    · exact .inr ⟨.inr (.inr hmem), hafter row' hmem⟩
  · rintro (rfl | ⟨hmem | rfl | hmem, hne⟩)
    · exact .inr (.inl rfl)
    · exact .inl hmem
    · exact absurd rfl hne
    · exact .inr (.inr hmem)

theorem Keyed.updateAt [DecidableEq κ] (h : Keyed rows key) {target : κ} {guard : ρ → Bool}
    {change : ρ → ρ} (hkey : ∀ row, key (change row) = key row) :
    Keyed (updateAt rows key target guard change) key := by
  rw [Keyed, map_updateAt hkey]
  exact h

theorem Keyed.append (h : Keyed rows key) {row : ρ} (hfresh : key row ∉ rows.map key) :
    Keyed (rows ++ [row]) key := by
  rw [Keyed, List.map_append, List.map_singleton, List.nodup_append]
  refine ⟨h, List.nodup_singleton _, ?_⟩
  intro old hold new hnew heq
  rw [List.mem_singleton.mp hnew] at heq
  exact hfresh (heq ▸ hold)

end Keys

end EasyDeploy.Foundation
