import Mathlib.Data.List.Nodup
import Mathlib.Data.List.Perm.Subperm
import Mathlib.Data.Set.Basic
import Mathlib.Tactic.Cases

/-!
# Closures by a work list

The items that can be reached from a start list, found by a cursor that goes over
a vector while the successors of the items it passes are pushed at its end.
-/

namespace EasyDeploy.Foundation

variable {α : Type*} {next : α → List α}

/-- With an item its successors are in the set. -/
def ClosedUnder (next : α → List α) (s : Set α) : Prop := ∀ item ∈ s, ∀ other ∈ next item, other ∈ s

/-- `items` are the least closed set with the start items. -/
structure LeastClosed (next : α → List α) (start items : List α) : Prop where
  includes : start ⊆ items
  closed : ClosedUnder next {item | item ∈ items}
  least : ∀ s : Set α, (∀ item ∈ start, item ∈ s) → ClosedUnder next s → ∀ item ∈ items, item ∈ s

namespace LeastClosed

variable {start start' items items' : List α}

theorem mono (h : LeastClosed next start items) (h' : LeastClosed next start' items')
    (hsub : start ⊆ start') : items ⊆ items' :=
  fun item hitem => h.least _ (fun _ hstart => h'.includes (hsub hstart)) h'.closed item hitem

/-- The closure of a closed set is the set. -/
theorem again (h : LeastClosed next start items) (h' : LeastClosed next items items') :
    ∀ item, item ∈ items' ↔ item ∈ items :=
  fun item => ⟨h'.least _ (fun _ hitem => hitem) h.closed item, fun hitem => h'.includes hitem⟩

/-- Only the items matter, not their order. -/
theorem congr (h : LeastClosed next start items) (hstart : ∀ item, item ∈ start' ↔ item ∈ start)
    (hitems : ∀ item, item ∈ items' ↔ item ∈ items) : LeastClosed next start' items' := by
  refine ⟨fun item hitem => (hitems item).mpr (h.includes ((hstart item).mp hitem)), ?_, ?_⟩
  · intro item hitem other hother
    exact (hitems other).mpr (h.closed item ((hitems item).mp hitem) other hother)
  · intro s hsub hclosed item hitem
    exact h.least s (fun other hother => hsub other ((hstart other).mpr hother)) hclosed item
      ((hitems item).mp hitem)

end LeastClosed

section Worklist

variable [DecidableEq α]

/-- Push the items that the vector does not contain. -/
def pushMissing (items : List α) : List α → List α
  | [] => items
  | item :: rest => pushMissing (if item ∈ items then items else items ++ [item]) rest

/-- Pass the items from a cursor on; `none` when the fuel is used up before the end is reached. -/
def closeFrom (next : α → List α) : Nat → Nat → List α → Option (List α)
  | 0, _, _ => none
  | fuel + 1, cursor, items =>
      match items[cursor]? with
      | none => some items
      | some item => closeFrom next fuel (cursor + 1) (pushMissing items (next item))

variable {items new : List α}

theorem prefix_pushMissing : items <+: pushMissing items new := by
  induction new generalizing items with
  | nil => exact List.prefix_rfl
  | cons item rest ih =>
      rw [pushMissing]
      split
      · exact ih
      · exact (List.prefix_append _ _).trans ih

theorem mem_pushMissing {item : α} : item ∈ pushMissing items new ↔ item ∈ items ∨ item ∈ new := by
  induction new generalizing items with
  | nil => simp [pushMissing]
  | cons first rest ih =>
      rw [pushMissing, ih, List.mem_cons]
      split
      · rename_i hfirst
        constructor
        · exact Or.imp_right .inr
        · rintro (h | rfl | h)
          · exact .inl h
          · exact .inl hfirst
          · exact .inr h
      · rw [List.mem_append, List.mem_singleton, or_assoc]

theorem nodup_pushMissing (h : items.Nodup) : (pushMissing items new).Nodup := by
  induction new generalizing items with
  | nil => exact h
  | cons item rest ih =>
      rw [pushMissing]
      split
      · exact ih h
      · rename_i hnew
        refine ih (List.nodup_append.mpr ⟨h, List.nodup_singleton _, ?_⟩)
        intro old hold other hother heq
        rw [List.mem_singleton.mp hother] at heq
        exact hnew (heq ▸ hold)

/-- What holds when the cursor has passed the items before it. -/
structure Passed (next : α → List α) (start : List α) (cursor : Nat) (items : List α) : Prop where
  includes : start ⊆ items
  nodup : items.Nodup
  cursor_le : cursor ≤ items.length
  passed : ∀ index < cursor, ∀ item, items[index]? = some item → next item ⊆ items
  least : ∀ s : Set α, (∀ item ∈ start, item ∈ s) → ClosedUnder next s → ∀ item ∈ items, item ∈ s

namespace Passed

variable {start : List α} {cursor : Nat}

omit [DecidableEq α] in
theorem initially (h : start.Nodup) : Passed next start 0 start :=
  ⟨fun _ hitem => hitem, h, Nat.zero_le _, fun _ hlt => absurd hlt (Nat.not_lt_zero _),
    fun _ hsub _ => hsub⟩

theorem step (h : Passed next start cursor items) {item : α} (hitem : items[cursor]? = some item) :
    Passed next start (cursor + 1) (pushMissing items (next item)) := by
  have hstart : items <+: pushMissing items (next item) := prefix_pushMissing
  obtain ⟨hlt, hget⟩ := List.getElem?_eq_some_iff.mp hitem
  refine ⟨fun other hother => hstart.subset (h.includes hother), nodup_pushMissing h.nodup,
    Nat.le_trans hlt hstart.length_le, ?_, ?_⟩
  · intro index hindex other hother
    have hbefore : items[index]? = some other := by
      rw [List.getElem?_eq_getElem (by omega)]
      rw [List.getElem?_eq_getElem (Nat.lt_of_lt_of_le (by omega) hstart.length_le)] at hother
      rw [hstart.getElem (by omega)]
      exact hother
    rcases Nat.lt_or_eq_of_le (Nat.le_of_lt_succ hindex) with hpassed | rfl
    · exact fun dependency hdependency =>
        hstart.subset (h.passed index hpassed other hbefore hdependency)
    · obtain rfl := Option.some.inj (hitem.symm.trans hbefore)
      exact fun dependency hdependency => mem_pushMissing.mpr (.inr hdependency)
  · intro s hsub hclosed other hother
    have hitems := h.least s hsub hclosed
    rcases mem_pushMissing.mp hother with hold | hnew
    · exact hitems other hold
    · exact hclosed item (hitems item (List.mem_of_getElem? hitem)) other hnew

omit [DecidableEq α] in
theorem leastClosed (h : Passed next start cursor items) (hend : items[cursor]? = none) :
    LeastClosed next start items := by
  refine ⟨h.includes, ?_, h.least⟩
  intro item hitem
  obtain ⟨index, hindex⟩ := List.mem_iff_getElem?.mp hitem
  have hlt : index < items.length := (List.getElem?_eq_some_iff.mp hindex).1
  have hle : items.length ≤ cursor := List.getElem?_eq_none_iff.mp hend
  exact fun other hother => h.passed index (by omega) item hindex hother

/-- With more fuel than there are items to pass, the end is reached. -/
theorem closeFrom (h : Passed next start cursor items) {known : List α} (hstart : start ⊆ known)
    (hknown : ClosedUnder next {item | item ∈ known}) {fuel : Nat}
    (hfuel : known.length < cursor + fuel) :
    ∃ result, closeFrom next fuel cursor items = some result ∧ result.Nodup ∧
      LeastClosed next start result := by
  induction fuel generalizing cursor items with
  | zero =>
      have hsub : items ⊆ known := fun item hitem =>
        h.least {item | item ∈ known} (fun _ hmem => hstart hmem) hknown item hitem
      have hle := (List.subperm_of_subset h.nodup hsub).length_le
      have hcursor := h.cursor_le
      omega
  | succ fuel ih =>
      rw [Foundation.closeFrom]
      split
      · rename_i hend
        exact ⟨items, rfl, h.nodup, h.leastClosed hend⟩
      · rename_i item hitem
        exact ih (h.step hitem) (by omega)

end Passed

end Worklist

end EasyDeploy.Foundation
