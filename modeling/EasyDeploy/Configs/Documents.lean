import EasyDeploy.Configs.Revisions
import EasyDeploy.Foundation.Results
import EasyDeploy.UnitRuntime.Prepare
import Mathlib.Data.List.Infix

/-!
# Configuration documents

What a configuration says about the environments, the deployment units and the stages
of an application, and the check that a draft passes when it is saved and again when it
is published.
-/

namespace EasyDeploy.Configs
open Foundation

/-- The values of a document. -/
inductive JsonValue
  | null
  | bool (value : Bool)
  | int (value : Int)
  /-- A number with a fraction, as it was written. -/
  | float (written : String)
  | string (text : String)
  | array (elements : List JsonValue)
  | object (fields : List (String × JsonValue))
deriving Repr

namespace JsonValue

/-- `get`. -/
def field (name : String) : JsonValue → Option JsonValue
  | object fields => (fields.find? fun entry => entry.1 == name).map (·.2)
  | _ => none

/-- A text. -/
def asStr : JsonValue → Option String
  | string text => some text
  | _ => none

/-- A number. -/
def asI64 : JsonValue → Option Int
  | int value =>
      if -9223372036854775808 ≤ value ∧ value ≤ 9223372036854775807 then some value else none
  | _ => none

end JsonValue

/-- An environment of a document. -/
structure ConfigEnvironment where
  key : String
  name : String
  maxParallelUnits : Nat
  targetNodeIds : List Int
deriving Repr, DecidableEq

/-- A unit of a document. -/
structure ConfigUnit where
  key : String
  name : String
  required : Bool
  status : String
  workDir : String
  scripts : UnitRuntime.Entries
  healthCheck : JsonValue

/-- A stage of a document. -/
structure ConfigStage where
  number : Nat
  key : String
  kind : String
  unitKeys : List String
deriving Repr, DecidableEq

/-- The configuration of an application. -/
structure ApplicationConfigDocument where
  environments : List ConfigEnvironment
  units : List ConfigUnit
  stages : List ConfigStage

/-- The characters of keys. -/
def isKeyChar (char : Char) : Bool := char.isLower || char.isDigit || char == '-' || char == '_'

/-- A key has characters, and these only. -/
def validateKey (kind value : String) : Except String Unit :=
  if value ≠ "" ∧ value.utf8ByteSize ≤ 64 ∧ value.toList.all isKeyChar then .ok ()
  else .error (kind ++ " key must contain lowercase letters, digits, dash or underscore")

/-- With the keys of the environments before. -/
def validateEnvironments (keys : List String) : List ConfigEnvironment → Except String Unit
  | [] => .ok ()
  | environment :: rest => do
      validateKey "environment" environment.key
      if environment.key ∈ keys then .error "environment keys must be unique"
      else if trim environment.name = "" then .error "environment name is required"
      else if environment.maxParallelUnits < 1 ∨ 32 < environment.maxParallelUnits then
        .error "environment parallel unit limit must be 1..=32"
      else if environment.targetNodeIds = [] then
        .error "environment must have at least one target node"
      else
        validateEnvironments (environment.key :: keys) rest

/-- With the keys of the units before. -/
def validateUnits (keys : List String) : List ConfigUnit → Except String Unit
  | [] => .ok ()
  | unit :: rest => do
      validateKey "deployment unit" unit.key
      if unit.key ∈ keys then .error "deployment unit keys must be unique"
      else if trim unit.name = "" then .error "deployment unit name is required"
      else if unit.status ≠ "active" ∧ unit.status ≠ "disabled" then
        .error "deployment unit status must be active or disabled"
      else if unit.workDir.toList.head? ≠ some '/' ∨ ['.', '.'] <:+: unit.workDir.toList then
        .error "deployment unit work directory must be an absolute normalized path"
      else
        validateUnits (unit.key :: keys) rest

/-- The units that some stage before has, with those of this stage. -/
def validateStageUnits (units staged : List String) : List String → Except String (List String)
  | [] => .ok staged
  | unitKey :: rest =>
      if unitKey ∉ units then .error "pipeline stage references an unknown unit"
      else if unitKey ∈ staged then .error "deployment unit can appear in only one stage"
      else validateStageUnits units (unitKey :: staged) rest

/-- A stage names the units that its kind allows. -/
def validateStageKind (units staged : List String) (stage : ConfigStage) :
    Except String (List String) :=
  match stage.kind with
  | "units" =>
      if stage.unitKeys = [] then .error "unit stage must include at least one unit"
      else validateStageUnits units staged stage.unitKeys
  | "application_check" =>
      if stage.unitKeys ≠ [] then .error "application check stage cannot reference units"
      else .ok staged
  | _ => .error "unsupported pipeline stage kind"

/-- With the stages before; returns the units that have a stage. -/
def validateStages (units : List String) (numbers : List Nat) (keys staged : List String) :
    List ConfigStage → Except String (List String)
  | [] => .ok staged
  | stage :: rest =>
      if stage.number = 0 ∨ stage.number ∈ numbers then
        .error "pipeline stage numbers must be unique and positive"
      else do
        validateKey "pipeline stage" stage.key
        if stage.key ∈ keys then .error "pipeline stage keys must be unique"
        else do
          let staged ← validateStageKind units staged stage
          validateStages units (stage.number :: numbers) (stage.key :: keys) staged rest

/-- The checks of a document in their order. -/
def validateDocument (document : ApplicationConfigDocument) : Except String Unit :=
  if document.environments = [] then .error "at least one environment is required"
  else if document.units.isEmpty then .error "at least one deployment unit is required"
  else if document.stages = [] then .error "at least one pipeline stage is required"
  else do
    validateEnvironments [] document.environments
    validateUnits [] document.units
    let staged ← validateStages (document.units.map (·.key)) [] [] [] document.stages
    if document.units.any fun unit =>
        unit.required && unit.status == "active" && !staged.contains unit.key then
      .error "every required active deployment unit must belong to a pipeline stage"
    else
      .ok ()

/-- Texts and hashes of documents, with this check. -/
def documentCodec (codec : ConfigCodec ApplicationConfigDocument) :
    ConfigCodec ApplicationConfigDocument :=
  { codec with validate := validateDocument }

/-- The draft is saved in some state, and what is saved is published. -/
def Accepted (codec : ConfigCodec ApplicationConfigDocument) (document : ApplicationConfigDocument)
    (secrets : UnitRuntime.Entries) : Prop :=
  ∃ (store saved : ConfigStore) (nonce : Nat) (draftHash : String) (draft : ConfigDraft)
    (result : ConfigRevisionResult) (published : ConfigStore),
    store.saveDraft (documentCodec codec) nonce document secrets.entries = .ok saved ∧
      saved.publishDraft (documentCodec codec) none draftHash = .ok (draft, result, published)

theorem workDir_of_validateUnits {keys : List String} {units : List ConfigUnit}
    (h : validateUnits keys units = .ok ()) :
    ∀ unit ∈ units, unit.workDir.toList.head? = some '/' ∧
      ¬ ['.', '.'] <:+: unit.workDir.toList := by
  induction units generalizing keys with
  | nil => rintro unit ⟨⟩
  | cons first rest ih =>
      obtain ⟨_, -, h⟩ := except_bind_eq_ok.mp h
      split at h
      · cases h
      split at h
      · cases h
      split at h
      · cases h
      split at h
      · cases h
      rename_i hdir
      rw [not_or, not_not] at hdir
      intro unit hunit
      rcases List.mem_cons.mp hunit with rfl | hlater
      · exact hdir
      · exact ih h unit hlater

theorem workDir_of_validateDocument {document : ApplicationConfigDocument}
    (h : validateDocument document = .ok ()) :
    ∀ unit ∈ document.units, unit.workDir.toList.head? = some '/' ∧
      ¬ ['.', '.'] <:+: unit.workDir.toList := by
  unfold validateDocument at h
  split at h
  · cases h
  split at h
  · cases h
  split at h
  · cases h
  obtain ⟨_, -, h⟩ := except_bind_eq_ok.mp h
  obtain ⟨_, hunits, -⟩ := except_bind_eq_ok.mp h
  exact workDir_of_validateUnits hunits

theorem Accepted.valid {codec : ConfigCodec ApplicationConfigDocument}
    {document : ApplicationConfigDocument} {secrets : UnitRuntime.Entries}
    (h : Accepted codec document secrets) : validateDocument document = .ok () := by
  obtain ⟨store, saved, nonce, draftHash, draft, result, published, hsave, -⟩ := h
  obtain ⟨row, hrow, -⟩ := except_bind_eq_ok.mp hsave
  obtain ⟨_, hvalid, -⟩ := except_bind_eq_ok.mp hrow
  exact mapError_eq_ok hvalid

end EasyDeploy.Configs
