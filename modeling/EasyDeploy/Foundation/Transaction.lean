import Mathlib.Control.Basic

/-!
# Transactions

The statements of a transaction work on a copy of the database, and any of them
may fail. The copy becomes the database when the transaction is committed; a
failure discards it.
-/

namespace EasyDeploy.Foundation

variable {σ ε α β : Type}

/-- Statements on a working copy, with a result. -/
abbrev Statements (σ ε : Type) := StateT σ (Except ε)

namespace Statements

/-- A statement, which fails when the database reports a fault. -/
def statement (fault : Option ε) (effect : σ → Except ε (α × σ)) : Statements σ ε α := fun copy =>
  match fault with
  | some error => .error error
  | none => effect copy

/-- A query leaves the copy as it is. -/
def query (fault : Option ε) (read : σ → Except ε α) : Statements σ ε α :=
  statement fault fun copy => (read copy).map fun value => (value, copy)

/-- Go on if the condition holds. -/
def check (condition : Prop) [Decidable condition] (error : ε) : Statements σ ε Unit := fun copy =>
  if condition then .ok ((), copy) else .error error

/-- A computation beside the database. -/
def compute (result : Except ε α) : Statements σ ε α := fun copy =>
  result.map fun value => (value, copy)

/-- The statements for each element, one after the other. -/
def forEach (body : α → Statements σ ε Unit) : List α → Statements σ ε Unit
  | [] => pure ()
  | element :: rest => do
      body element
      forEach body rest

/-- Run the statements, and commit the copy or discard it. -/
def transact (body : Statements σ ε α) (database : σ) : Except ε α × σ :=
  match body database with
  | .ok (value, copy) => (.ok value, copy)
  | .error error => (.error error, database)

variable {body : Statements σ ε α} {next : α → Statements σ ε β} {database database' copy : σ}
  {value : α} {fault : Option ε} {error : ε}

/-- A transaction that fails changes nothing. -/
theorem transact_eq_error (h : (transact body database).1 = .error error) :
    (transact body database).2 = database := by
  unfold transact at h ⊢
  split
  · rename_i heq
    rw [heq] at h
    cases h
  · rfl

theorem transact_eq_ok : transact body database = (.ok value, database') ↔
    body database = .ok (value, database') := by
  unfold transact
  split
  · rename_i value' copy' heq
    rw [heq]
    simp
  · rename_i error' heq
    rw [heq]
    simp

theorem bind_eq_ok {result : β × σ} : (body >>= next) copy = .ok result ↔
    ∃ value between, body copy = .ok (value, between) ∧ next value between = .ok result := by
  show (body copy >>= fun after => next after.1 after.2) = .ok result ↔ _
  cases hbody : body copy with
  | error error => exact ⟨nofun, fun ⟨_, _, hfalse, _⟩ => nomatch hfalse⟩
  | ok after =>
      refine ⟨fun h => ⟨after.1, after.2, rfl, h⟩, fun ⟨value, between, heq, h⟩ => ?_⟩
      obtain rfl := Except.ok.inj heq
      exact h

theorem pure_eq_ok {result : α × σ} :
    (pure value : Statements σ ε α) copy = .ok result ↔ (value, copy) = result :=
  ⟨fun h => Except.ok.inj h, fun h => congrArg Except.ok h⟩

theorem statement_eq_ok {effect : σ → Except ε (α × σ)} {result : α × σ} :
    statement fault effect copy = .ok result ↔ fault = none ∧ effect copy = .ok result := by
  cases fault with
  | none => exact ⟨fun h => ⟨rfl, h⟩, fun h => h.2⟩
  | some error => exact ⟨nofun, fun h => nomatch h.1⟩

theorem compute_eq_ok {computed : Except ε α} :
    compute computed database = .ok (value, database') ↔
      computed = .ok value ∧ database = database' := by
  unfold compute
  cases computed with
  | error error => exact ⟨nofun, fun h => nomatch h.1⟩
  | ok value' =>
      refine ⟨fun h => ?_, fun h => ?_⟩
      · obtain ⟨rfl, rfl⟩ := Prod.mk.inj (Except.ok.inj h)
        exact ⟨rfl, rfl⟩
      · obtain ⟨heq, rfl⟩ := h
        obtain rfl := Except.ok.inj heq
        rfl

theorem query_eq_ok {read : σ → Except ε α} :
    query fault read database = .ok (value, database') ↔
      fault = none ∧ read database = .ok value ∧ database = database' := by
  rw [query, statement_eq_ok]
  exact and_congr_right fun _ => compute_eq_ok

theorem check_eq_ok {condition : Prop} [Decidable condition] :
    check condition error database = .ok ((), database') ↔ condition ∧ database = database' := by
  unfold check
  split
  · rename_i h
    refine ⟨fun heq => ⟨h, congrArg Prod.snd (Except.ok.inj heq)⟩, fun heq => ?_⟩
    rw [heq.2]
  · rename_i h
    exact ⟨nofun, fun heq => absurd heq.1 h⟩

/-- A statement without a result. -/
theorem perform_eq_ok {effect : σ → σ} {result : Unit × σ} :
    statement fault (fun copy => .ok ((), effect copy)) copy = .ok result ↔
      fault = none ∧ effect copy = result.2 := by
  rw [statement_eq_ok]
  exact and_congr_right fun _ =>
    ⟨fun h => congrArg Prod.snd (Except.ok.inj h), fun h => by rw [h]⟩

/-- What each body does to the copy, the loop does one after the other. -/
theorem forEach_eq_ok {each : α → Statements σ ε Unit} {effect : σ → α → σ} {elements : List α}
    (heach : ∀ element copy copy', each element copy = .ok ((), copy') →
      copy' = effect copy element)
    {copy copy' : σ} (h : forEach each elements copy = .ok ((), copy')) :
    copy' = elements.foldl effect copy := by
  induction elements generalizing copy with
  | nil => exact (congrArg Prod.snd (pure_eq_ok.mp h)).symm
  | cons element rest ih =>
      obtain ⟨⟨⟩, between, hfirst, hrest⟩ := bind_eq_ok.mp h
      rw [List.foldl_cons, ← heach element copy between hfirst]
      exact ih hrest

end Statements

end EasyDeploy.Foundation
