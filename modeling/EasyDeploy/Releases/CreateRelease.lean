import EasyDeploy.Releases.Registry

/-!
# Creating an application release

`create_application_release`: the entries of a base release with the given
changes, checked against the units and the environments that the application has
now, and stored with the next version code.
-/

namespace EasyDeploy.Releases
open Foundation
open Foundation.Statements
open Orchestrator (DeploymentUnit ConfigRevision ReleaseEnvironmentConfig AppReleaseUnit
  Environment keyLe)

/-- What a release changes of a unit. -/
structure UnitReleaseChange where
  unitId : Int
  unitReleaseId : Option Int
  desiredStatus : String
deriving Repr, DecidableEq

/-- The configuration that a release chooses for an environment. -/
structure EnvironmentConfigSelection where
  environmentId : Int
  configRevisionId : Int
deriving Repr, DecidableEq

/-- What a release is created from. -/
structure CreateApplicationReleaseInput where
  appId : Int
  version : String
  baseAppReleaseId : Option Int
  unitChanges : List UnitReleaseChange
  environmentConfigs : List EnvironmentConfigSelection
  createdBy : String
deriving Repr, DecidableEq

/-- A unit in a manifest. -/
structure ManifestUnit where
  unitId : Int
  unitReleaseId : Option Int
  desiredStatus : String
  stageNo : Int
  unitOrder : Int
  removalOrder : Int
  targetFingerprint : String
deriving Repr, DecidableEq

/-- A configuration in a manifest. -/
structure ManifestEnvironmentConfig where
  environmentId : Int
  configRevisionId : Int
deriving Repr, DecidableEq

/-- The units of a manifest, in order. -/
abbrev ManifestUnits := OrderedMap ManifestUnit ManifestUnit.unitId

/-- The configurations of a manifest, in order. -/
abbrev ManifestConfigs := OrderedMap ManifestEnvironmentConfig ManifestEnvironmentConfig.environmentId

/-- What the creation answers. -/
structure ApplicationReleaseResult where
  appReleaseId : Int
  version : String
  versionCode : Int
  manifestHash : String
  units : List ManifestUnit
  environmentConfigs : List ManifestEnvironmentConfig
deriving Repr, DecidableEq

namespace ManifestUnit

/-- A unit as it is stored. -/
def toJson (unit : ManifestUnit) : Json :=
  .object [
    ("unit_id", .int unit.unitId),
    ("unit_release_id", .ofOption .int unit.unitReleaseId),
    ("desired_status", .string unit.desiredStatus),
    ("stage_no", .int unit.stageNo),
    ("unit_order", .int unit.unitOrder),
    ("removal_order", .int unit.removalOrder),
    ("target_fingerprint", .string unit.targetFingerprint)]

/-- A unit as it is read. -/
def ofJson (value : Json) : Except String ManifestUnit := do
  let unitId ← (← value.field "unit_id").asInt
  let unitReleaseId ← (← value.optionalField "unit_release_id").asOption Json.asInt
  let desiredStatus ← (← value.field "desired_status").asString
  let stageNo ← (← value.field "stage_no").asInt
  let unitOrder ← (← value.field "unit_order").asInt
  let removalOrder ← (← value.field "removal_order").asInt
  let targetFingerprint ← (← value.field "target_fingerprint").asString
  return { unitId, unitReleaseId, desiredStatus, stageNo, unitOrder, removalOrder
           targetFingerprint }

theorem ofJson_toJson (unit : ManifestUnit) : ofJson unit.toJson = .ok unit := by
  obtain ⟨unitId, unitReleaseId, desiredStatus, stageNo, unitOrder, removalOrder,
    targetFingerprint⟩ := unit
  cases unitReleaseId <;> rfl

/-- The stored row of an entry. -/
def row (appReleaseId : Int) (unit : ManifestUnit) : AppReleaseUnit :=
  { appReleaseId, unitId := unit.unitId, unitReleaseId := unit.unitReleaseId
    desiredStatus := unit.desiredStatus, stageNo := unit.stageNo, unitOrder := unit.unitOrder
    removalOrder := unit.removalOrder, targetFingerprint := unit.targetFingerprint }

/-- The entry of a stored row. -/
def ofRow (row : AppReleaseUnit) : ManifestUnit :=
  { unitId := row.unitId, unitReleaseId := row.unitReleaseId, desiredStatus := row.desiredStatus
    stageNo := row.stageNo, unitOrder := row.unitOrder, removalOrder := row.removalOrder
    targetFingerprint := row.targetFingerprint }

end ManifestUnit

namespace ManifestEnvironmentConfig

/-- A configuration as it is stored. -/
def toJson (config : ManifestEnvironmentConfig) : Json :=
  .object [
    ("environment_id", .int config.environmentId),
    ("config_revision_id", .int config.configRevisionId)]

/-- A configuration as it is read. -/
def ofJson (value : Json) : Except String ManifestEnvironmentConfig := do
  let environmentId ← (← value.field "environment_id").asInt
  let configRevisionId ← (← value.field "config_revision_id").asInt
  return { environmentId, configRevisionId }

theorem ofJson_toJson (config : ManifestEnvironmentConfig) : ofJson config.toJson = .ok config :=
  rfl

/-- The row of a configuration. -/
def row (appReleaseId : Int) (config : ManifestEnvironmentConfig) : ReleaseEnvironmentConfig :=
  { appReleaseId, environmentId := config.environmentId
    configRevisionId := config.configRevisionId }

end ManifestEnvironmentConfig

/-- The document that is stored with a release. -/
structure ManifestDocument where
  units : List ManifestUnit
  environmentConfigs : List ManifestEnvironmentConfig
deriving Repr, DecidableEq

namespace ManifestDocument

/-- The document as it is stored. -/
def toJson (document : ManifestDocument) : Json :=
  .object [
    ("units", .array (document.units.map (·.toJson))),
    ("environment_configs", .array (document.environmentConfigs.map (·.toJson)))]

/-- The document as it is read. -/
def ofJson (value : Json) : Except String ManifestDocument := do
  let units ← (← (← value.field "units").asArray).mapM ManifestUnit.ofJson
  let environmentConfigs ←
    (← (← value.field "environment_configs").asArray).mapM ManifestEnvironmentConfig.ofJson
  return { units, environmentConfigs }

/-- A manifest is read back from what is written of it. -/
theorem ofJson_toJson (document : ManifestDocument) : ofJson document.toJson = .ok document := by
  have hunits : (document.units.map (·.toJson)).mapM ManifestUnit.ofJson = .ok document.units :=
    Json.mapM_map ManifestUnit.ofJson_toJson document.units
  have hconfigs : (document.environmentConfigs.map (·.toJson)).mapM
      ManifestEnvironmentConfig.ofJson = .ok document.environmentConfigs :=
    Json.mapM_map ManifestEnvironmentConfig.ofJson_toJson document.environmentConfigs
  show ((document.units.map (·.toJson)).mapM ManifestUnit.ofJson >>= fun units =>
    (document.environmentConfigs.map (·.toJson)).mapM ManifestEnvironmentConfig.ofJson >>=
      fun environmentConfigs => Except.ok _) = _
  rw [hunits, hconfigs]
  rfl

/-- `serde_json::to_string(&ManifestDocument { .. })`. -/
def write (text : JsonText) (document : ManifestDocument) : Except String String :=
  text.toString document.toJson

/-- The document of a text. -/
def read (text : JsonText) (written : String) : Except String ManifestDocument :=
  text.fromStr written >>= ofJson

theorem read_of_write {text : JsonText} (htext : text.RoundTrips) {document : ManifestDocument}
    {written : String} (h : document.write text = .ok written) :
    read text written = .ok document := by
  rw [read, htext _ _ h]
  exact ofJson_toJson document

end ManifestDocument

/-- A unit of the application with its place in the pipeline. -/
structure ConfiguredUnit where
  unitId : Int
  stageNo : Option Int
  unitOrder : Option Int
  removalOrder : Option Int
deriving Repr, DecidableEq

/-- Stage, order and unit; a missing number comes last. -/
def configuredUnitLe (left right : ConfiguredUnit) : Bool :=
  keyLe (left.stageNo.getD 2147483647, left.unitOrder.getD 2147483647, left.unitId, 0)
    (right.stageNo.getD 2147483647, right.unitOrder.getD 2147483647, right.unitId, 0)

/-- Two lists of keys are the same set. -/
def SameKeys (keys keys' : List Int) : Prop := (∀ key ∈ keys, key ∈ keys') ∧ ∀ key ∈ keys', key ∈ keys

instance (keys keys' : List Int) : Decidable (SameKeys keys keys') :=
  inferInstanceAs (Decidable (_ ∧ _))

namespace Registry

variable (registry : Registry)

/-- The left join of a unit with its links to stages. -/
def configuredRows (unit : DeploymentUnit) : List ConfiguredUnit :=
  match registry.stageUnits.filter fun link => link.unitId == unit.id with
  | [] => [⟨unit.id, none, none, none⟩]
  | links => links.map fun link =>
      { unitId := unit.id
        stageNo := (registry.stages.find? fun stage => stage.id == link.stageId).map (·.stageNo)
        unitOrder := some link.unitOrder, removalOrder := some link.removalOrder }

/-- The units of an application. -/
def configuredUnits (appId : Int) : List ConfiguredUnit :=
  sortBy configuredUnitLe ((registry.units.filter fun unit =>
    unit.appId == appId).flatMap registry.configuredRows)

/-- The release is one of the application's, and its manifest is ready. -/
def baseIsReady (appId baseId : Int) : Bool :=
  registry.appReleases.any fun release => release.id == baseId && release.appId == appId &&
    registry.manifests.any fun manifest =>
      manifest.appReleaseId == release.id && manifest.immutableStatus == .ready

/-- The units of a release. -/
def manifestUnits (appReleaseId : Int) : ManifestUnits :=
  .ofRows ((registry.releaseUnits.filter fun row =>
    row.appReleaseId == appReleaseId).map ManifestUnit.ofRow)

/-- The configurations of a release. -/
def manifestConfigs (appReleaseId : Int) : ManifestConfigs :=
  .ofRows ((registry.environmentConfigs.filter fun row =>
    row.appReleaseId == appReleaseId).map fun row => ⟨row.environmentId, row.configRevisionId⟩)

/-- The unit release is one of the unit's, and its artifact is active. -/
def unitReleaseActive (unitId unitReleaseId : Int) : Bool :=
  registry.unitReleases.any fun release => release.id == unitReleaseId &&
    release.unitId == unitId && release.artifactStatus == .active

/-- The environment is an enabled one of the application, which has the revision. -/
def environmentConfigValid (appId environmentId configRevisionId : Int) : Bool :=
  registry.environments.any fun environment => environment.id == environmentId &&
    environment.appId == appId && environment.status != .disabled &&
    registry.configRevisions.any fun revision =>
      revision.id == configRevisionId && revision.appId == appId

/-- The environments of an application. -/
def configuredEnvironmentIds (appId : Int) : List Int :=
  (registry.environments.filter fun environment =>
    environment.appId == appId && environment.status != .disabled).map (·.id)

/-- The digest of what a unit is to run. -/
def unitTargetFingerprint (sha256Hex : String → String) (unitReleaseId : Option Int)
    (desiredStatus : String) : Except ApplicationReleaseError String :=
  match unitReleaseId with
  | none => .ok (sha256Hex s!"{desiredStatus}:")
  | some releaseId =>
      match registry.unitReleases.find? fun release => release.id == releaseId with
      | none =>
          .error (.database "no rows returned by a query that expected to return at least one row")
      | some release => .ok (sha256Hex s!"{desiredStatus}:{release.checksumSha256}")

/-- The row of a release. -/
def insertRelease (input : CreateApplicationReleaseInput) (versionCode : Int)
    (manifestHash : String) : Int × Registry :=
  let appReleaseId := registry.lastAppReleaseId + 1
  (appReleaseId, { registry with
    lastAppReleaseId := appReleaseId
    appReleases := registry.appReleases ++ [
      { id := appReleaseId, appId := input.appId, version := input.version, versionCode
        checksumSha256 := manifestHash }] })

/-- The row of its manifest. -/
def insertManifest (input : CreateApplicationReleaseInput) (appReleaseId : Int)
    (manifestHash manifestJson : String) : Registry :=
  { registry with manifests := registry.manifests ++ [
    { appReleaseId, baseAppReleaseId := input.baseAppReleaseId, manifestHash, manifestJson
      immutableStatus := .ready, createdBy := trim input.createdBy }] }

/-- The row of a unit in it. -/
def insertUnit (appReleaseId : Int) (unit : ManifestUnit) : Registry :=
  { registry with releaseUnits := registry.releaseUnits ++ [unit.row appReleaseId] }

/-- The row of a configuration in it. -/
def insertConfig (appReleaseId : Int) (config : ManifestEnvironmentConfig) : Registry :=
  { registry with environmentConfigs := registry.environmentConfigs ++ [config.row appReleaseId] }

end Registry

section Statements

variable (text : JsonText) (sha256Hex : String → String)
  (faults : ReleaseStatement → Option String)

/-- The unit release belongs to the unit and has its artifact. -/
def ensureUnitRelease (unitId unitReleaseId : Int) :
    Statements Registry ApplicationReleaseError Unit :=
  query ((faults (.unitRelease unitId)).map .database) fun registry =>
    if registry.unitReleaseActive unitId unitReleaseId then .ok ()
    else .error (.validation "unit release is not an active release of the selected deployment unit")

/-- The unit release of a change, which an active unit needs. -/
def changedUnitRelease (change : UnitReleaseChange) :
    Statements Registry ApplicationReleaseError (Option Int) :=
  if change.desiredStatus = "active" then do
    let releaseId ← compute (match change.unitReleaseId with
      | none => .error (.validation "active deployment unit requires a unit release")
      | some releaseId => .ok releaseId)
    ensureUnitRelease faults change.unitId releaseId
    return some releaseId
  else
    return none

/-- A unit after the change. -/
def changedUnit (configuredUnits : List ConfiguredUnit) (change : UnitReleaseChange) :
    Statements Registry ApplicationReleaseError ManifestUnit := do
  let configured ← compute
    (match configuredUnits.find? fun unit => unit.unitId == change.unitId with
    | none => .error (.validation "deployment unit does not belong to application")
    | some configured => .ok configured)
  check (change.desiredStatus = "active" ∨ change.desiredStatus = "disabled")
    (.validation "desired unit status must be active or disabled")
  let unitReleaseId ← changedUnitRelease faults change
  let targetFingerprint ← query ((faults (.fingerprint change.unitId)).map .database)
    fun registry => registry.unitTargetFingerprint sha256Hex unitReleaseId change.desiredStatus
  return { unitId := change.unitId, unitReleaseId, desiredStatus := change.desiredStatus
           stageNo := configured.stageNo.getD 1, unitOrder := configured.unitOrder.getD 1
           removalOrder := configured.removalOrder.getD 1, targetFingerprint }

/-- The loop over the changes; `changedUnits` holds the units before. -/
def applyUnitChanges (configuredUnits : List ConfiguredUnit) :
    ManifestUnits → List Int → List UnitReleaseChange →
      Statements Registry ApplicationReleaseError ManifestUnits
  | units, _, [] => pure units
  | units, changedUnits, change :: changes => do
      check (change.unitId ∉ changedUnits) (.validation "deployment unit change is duplicated")
      let unit ← changedUnit sha256Hex faults configuredUnits change
      applyUnitChanges configuredUnits (units.insert unit) (change.unitId :: changedUnits) changes

/-- The loop over the selections; `changedEnvironments` holds the environments before. -/
def applyConfigSelections (appId : Int) :
    ManifestConfigs → List Int → List EnvironmentConfigSelection →
      Statements Registry ApplicationReleaseError ManifestConfigs
  | configs, _, [] => pure configs
  | configs, changedEnvironments, selection :: selections => do
      check (selection.environmentId ∉ changedEnvironments)
        (.validation "environment config selection is duplicated")
      query ((faults (.environmentConfig selection.environmentId)).map .database) fun registry =>
        if registry.environmentConfigValid appId selection.environmentId
          selection.configRevisionId then .ok ()
        else .error (.validation "environment and config revision must belong to the application")
      applyConfigSelections appId
        (configs.insert ⟨selection.environmentId, selection.configRevisionId⟩)
        (selection.environmentId :: changedEnvironments) selections

/-- The application exists and the version is new. -/
def ensureAppAndVersionAvailable (appId : Int) (version : String) :
    Statements Registry ApplicationReleaseError Unit := do
  query ((faults .appExists).map .database) fun registry =>
    if appId ∈ registry.apps then .ok () else .error (.notFound "application not found")
  query ((faults .versionExists).map .database) fun registry =>
    if registry.appReleases.any fun release =>
      release.appId == appId && release.version == version then
      .error (.conflict "application version already exists")
    else .ok ()

/-- The entries of the base release, if there is one. -/
def baseUnits (input : CreateApplicationReleaseInput) :
    Statements Registry ApplicationReleaseError ManifestUnits :=
  match input.baseAppReleaseId with
  | none => pure .empty
  | some baseId => do
      query ((faults .baseRelease).map .database) fun registry =>
        if registry.baseIsReady input.appId baseId then .ok ()
        else .error (.validation
          "base application release is not a ready release of this application")
      query ((faults .manifestUnits).map .database) fun registry =>
        .ok (registry.manifestUnits baseId)

/-- The configurations that a release begins with. -/
def baseConfigs (input : CreateApplicationReleaseInput) :
    Statements Registry ApplicationReleaseError ManifestConfigs :=
  match input.baseAppReleaseId with
  | none => pure .empty
  | some baseId => query ((faults .baseConfigs).map .database) fun registry =>
      .ok (registry.manifestConfigs baseId)

/-- The rows of a release whose manifest has been resolved. -/
def storeRelease (input : CreateApplicationReleaseInput) (units : List ManifestUnit)
    (configs : List ManifestEnvironmentConfig) :
    Statements Registry ApplicationReleaseError ApplicationReleaseResult := do
  let manifestJson ← compute
    (((ManifestDocument.mk units configs).write text).mapError .validation)
  let manifestHash := sha256Hex manifestJson
  query ((faults .duplicateManifest).map .database) fun registry =>
    if registry.manifests.any fun manifest => manifest.manifestHash == manifestHash then
      .error (.conflict "an identical application release manifest already exists")
    else .ok ()
  let versionCode ← allocateVersionCode faults .appRelease input.appId
  let appReleaseId ← statement ((faults .insertRelease).map .database) fun registry =>
    .ok (registry.insertRelease input versionCode manifestHash)
  statement ((faults .insertManifest).map .database) fun registry =>
    .ok ((), registry.insertManifest input appReleaseId manifestHash manifestJson)
  forEach (fun unit => statement ((faults (.insertUnit unit.unitId)).map .database)
    fun registry => .ok ((), registry.insertUnit appReleaseId unit)) units
  forEach (fun config => statement ((faults (.insertConfig config.environmentId)).map .database)
    fun registry => .ok ((), registry.insertConfig appReleaseId config)) configs
  statement ((faults .commit).map .database) fun registry => .ok ((), registry)
  return { appReleaseId, version := input.version, versionCode, manifestHash, units
           environmentConfigs := configs }

/-- The transaction that creates a release. -/
def createApplicationRelease (input : CreateApplicationReleaseInput) :
    Statements Registry ApplicationReleaseError ApplicationReleaseResult := do
  check (validateVersion input.version = true) versionError
  statement ((faults .begin).map .database) fun registry => .ok ((), registry)
  ensureAppAndVersionAvailable faults input.appId input.version
  let configuredUnits ← query ((faults .configuredUnits).map .database) fun registry =>
    .ok (registry.configuredUnits input.appId)
  check (configuredUnits.isEmpty = false) (.validation "application has no deployment units")
  let base ← baseUnits faults input
  let units ← applyUnitChanges sha256Hex faults configuredUnits base [] input.unitChanges
  check (SameKeys units.keys (configuredUnits.map (·.unitId)))
    (.validation "application release must resolve every configured deployment unit")
  let baseConfigs ← baseConfigs faults input
  let configs ← applyConfigSelections faults input.appId baseConfigs [] input.environmentConfigs
  let configuredEnvironmentIds ← query ((faults .configuredEnvironments).map .database)
    fun registry => .ok (registry.configuredEnvironmentIds input.appId)
  check (SameKeys configs.keys configuredEnvironmentIds)
    (.validation "application release must resolve every enabled environment config")
  storeRelease text sha256Hex faults input units.rows configs.rows

/-- A call of `create_application_release`, and the registry after it. -/
def createApplicationReleaseCall (input : CreateApplicationReleaseInput) (registry : Registry) :
    Except ApplicationReleaseError ApplicationReleaseResult × Registry :=
  transact (createApplicationRelease text sha256Hex faults input) registry

end Statements

end EasyDeploy.Releases
