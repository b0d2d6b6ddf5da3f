import EasyDeploy.Foundation.Paths
import Mathlib.Logic.Function.Basic

/-!
# Directories with links

At each place there is a directory, a file or a symbolic link, or nothing. A link stands
for the names that it has as its target, from the root or from the directory of the link.
-/

namespace EasyDeploy.Foundation

/-- What is at a place. -/
inductive LinkNode (α : Type)
  | dir
  | file (content : α)
  | link (absolute : Bool) (names : List String)
deriving Repr, DecidableEq

/-- Places with what is at them. -/
abbrev LinkTree (α : Type) := Place → Option (LinkNode α)

namespace LinkTree

variable {α : Type} (tree : LinkTree α)

/-- What is there lies in a directory. -/
def Closed : Prop := ∀ place name, tree (place ++ [name]) ≠ none → tree place = some .dir

/-- Where a link is read from. -/
def linkBase (absolute : Bool) (place : Place) : Place := if absolute then [] else place

/-- The directory that names lead to from a directory. -/
inductive Leads (tree : LinkTree α) : Place → List String → Place → Prop
  | here {place} : Leads tree place [] place
  | stay {place name names other} (h : name = "" ∨ name = ".")
      (rest : Leads tree place names other) : Leads tree place (name :: names) other
  | back {place names other} (rest : Leads tree place.dropLast names other) :
      Leads tree place (".." :: names) other
  | enter {place name names other} (hplain : IsPlain name) (h : tree (place ++ [name]) = some .dir)
      (rest : Leads tree (place ++ [name]) names other) : Leads tree place (name :: names) other
  | through {place name names other absolute target} (hplain : IsPlain name)
      (h : tree (place ++ [name]) = some (.link absolute target))
      (rest : Leads tree (linkBase absolute place) (target ++ names) other) :
      Leads tree place (name :: names) other

/-- A walk along names, with as many steps as the system allows. -/
def follow : Nat → Place → List String → Option Place
  | _, place, [] => some place
  | 0, _, _ :: _ => none
  | steps + 1, place, name :: names =>
      if name = "" ∨ name = "." then follow steps place names
      else if name = ".." then follow steps place.dropLast names
      else match tree (place ++ [name]) with
        | some .dir => follow steps (place ++ [name]) names
        | some (.link absolute target) => follow steps (linkBase absolute place) (target ++ names)
        | _ => none

variable {tree}

/-- A walk leads where the names lead. -/
theorem leads_of_follow {steps : Nat} {place other : Place} {names : List String}
    (h : tree.follow steps place names = some other) : tree.Leads place names other := by
  induction steps generalizing place names with
  | zero =>
      cases names with
      | nil =>
          obtain rfl := Option.some.inj h
          exact .here
      | cons name names => cases h
  | succ steps ih =>
      cases names with
      | nil =>
          obtain rfl := Option.some.inj h
          exact .here
      | cons name names =>
          simp only [follow] at h
          split at h
          · rename_i hdot
            exact .stay hdot (ih h)
          rename_i hdot
          split at h
          · rename_i hback
            subst hback
            exact .back (ih h)
          rename_i hback
          have hplain : IsPlain name := ⟨fun hempty => hdot (.inl hempty),
            fun hsame => hdot (.inr hsame), hback⟩
          split at h
          · rename_i hdir
            exact .enter hplain hdir (ih h)
          · rename_i hlink
            exact .through hplain hlink (ih h)
          · cases h

/-- Names lead to one place only: where a walk along them ends. -/
theorem Leads.eq_of_follow {steps : Nat} {place other next : Place} {names : List String}
    (h : tree.Leads place names other) (hfollow : tree.follow steps place names = some next) :
    other = next := by
  induction h generalizing steps with
  | here =>
      cases steps with
      | zero => exact Option.some.inj hfollow
      | succ steps => exact Option.some.inj hfollow
  | stay hdot _ ih =>
      cases steps with
      | zero => cases hfollow
      | succ steps =>
          rw [follow, if_pos hdot] at hfollow
          exact ih hfollow
  | back _ ih =>
      cases steps with
      | zero => cases hfollow
      | succ steps =>
          rw [follow, if_neg (by decide), if_pos rfl] at hfollow
          exact ih hfollow
  | enter hplain hdir _ ih =>
      cases steps with
      | zero => cases hfollow
      | succ steps =>
          rw [follow, if_neg (not_or.mpr ⟨hplain.1, hplain.2.1⟩), if_neg hplain.2.2, hdir]
            at hfollow
          exact ih hfollow
  | through hplain hlink _ ih =>
      cases steps with
      | zero => cases hfollow
      | succ steps =>
          rw [follow, if_neg (not_or.mpr ⟨hplain.1, hplain.2.1⟩), if_neg hplain.2.2, hlink]
            at hfollow
          exact ih hfollow

/-- Names lead on from where the names before them lead. -/
theorem Leads.append {place middle other : Place} {names rest : List String}
    (h : tree.Leads place names middle) (hrest : tree.Leads middle rest other) :
    tree.Leads place (names ++ rest) other := by
  induction h with
  | here => exact hrest
  | stay hdot _ ih => exact .stay hdot (ih hrest)
  | back _ ih => exact .back (ih hrest)
  | enter hplain hdir _ ih => exact .enter hplain hdir (ih hrest)
  | through hplain hlink _ ih =>
      refine .through hplain hlink ?_
      have hlater := ih hrest
      rwa [List.append_assoc] at hlater

theorem Closed.root (h : tree.Closed) {place : Place} (hdir : tree place = some .dir) :
    tree [] = some .dir := by
  induction place using List.reverseRecOn with
  | nil => exact hdir
  | append_singleton parent name ih =>
      apply ih
      apply h parent name
      rw [hdir]
      exact Option.some_ne_none _

theorem Closed.parent (h : tree.Closed) {place : Place} (hdir : tree place = some .dir) :
    tree place.dropLast = some .dir := by
  induction place using List.reverseRecOn with
  | nil => exact hdir
  | append_singleton parent name _ =>
      rw [List.dropLast_concat]
      apply h parent name
      rw [hdir]
      exact Option.some_ne_none _

/-- Names lead to directories. -/
theorem Leads.dir {place other : Place} {names : List String}
    (h : tree.Leads place names other) (hclosed : tree.Closed) (hdir : tree place = some .dir) :
    tree other = some .dir := by
  induction h with
  | here => exact hdir
  | stay _ _ ih => exact ih hdir
  | back _ ih => exact ih (hclosed.parent hdir)
  | enter _ hthere _ ih => exact ih hthere
  | @through place name names other absolute target _ _ _ ih =>
      apply ih
      cases absolute with
      | false => exact hdir
      | true => exact hclosed.root hdir

/-- From an empty directory plain names lead nowhere. -/
theorem Leads.of_empty {place other : Place} {names : List String}
    (h : tree.Leads place names other) (hplain : ∀ name ∈ names, IsPlain name)
    (hempty : ∀ name, tree (place ++ [name]) = none) : names = [] ∧ other = place := by
  cases h with
  | here => exact ⟨rfl, rfl⟩
  | stay hdot _ =>
      have hname := hplain _ List.mem_cons_self
      rcases hdot with rfl | rfl
      · exact absurd rfl hname.1
      · exact absurd rfl hname.2.1
  | back _ => exact absurd rfl (hplain _ List.mem_cons_self).2.2
  | enter _ hthere _ =>
      rw [hempty] at hthere
      cases hthere
  | through _ hthere _ =>
      rw [hempty] at hthere
      cases hthere

/-- The tree with another node at a place. -/
def set (tree : LinkTree α) (place : Place) (node : LinkNode α) : LinkTree α :=
  Function.update tree place (some node)

theorem set_of_ne {place other : Place} (node : LinkNode α) (h : other ≠ place) :
    tree.set place node other = tree other := Function.update_of_ne h _ _

@[simp] theorem set_self (place : Place) (node : LinkNode α) :
    tree.set place node place = some node := Function.update_self _ _ _

/-- Only a directory has to stay one. -/
theorem Closed.set (h : tree.Closed) {parent : Place} {name : String} {node : LinkNode α}
    (hparent : tree parent = some .dir)
    (hnode : node = .dir ∨ tree (parent ++ [name]) ≠ some .dir) :
    (tree.set (parent ++ [name]) node).Closed := by
  intro place other hthere
  by_cases hplace : place = parent ++ [name]
  · rw [hplace] at hthere ⊢
    rw [set_self]
    rcases hnode with rfl | hnot
    · rfl
    · have hne : (parent ++ [name]) ++ [other] ≠ parent ++ [name] := by simp
      rw [set_of_ne node hne] at hthere
      exact absurd (h _ _ hthere) hnot
  · rw [set_of_ne node hplace]
    by_cases hnew : place ++ [other] = parent ++ [name]
    · rw [(List.append_inj' hnew rfl).1]
      exact hparent
    · rw [set_of_ne node hnew] at hthere
      exact h _ _ hthere

/-- Below a place where nothing is there is nothing. -/
theorem Closed.none_below (h : tree.Closed) {place : Place} {name : String}
    (hnone : tree place = none) : tree (place ++ [name]) = none := by
  by_contra hthere
  rw [h _ _ hthere] at hnone
  cases hnone

/-- A new directory is empty. -/
theorem set_empty (h : tree.Closed) {place : Place} {name : String}
    (hnone : tree (place ++ [name]) = none) (other : String) :
    tree.set (place ++ [name]) .dir ((place ++ [name]) ++ [other]) = none := by
  rw [set_of_ne _ (by simp)]
  exact h.none_below hnone

end LinkTree

end EasyDeploy.Foundation
