import Mathlib.Algebra.Group.Nat.Defs
import EasyDeploy.Foundation.Json
import EasyDeploy.Foundation.OrderedMap
import EasyDeploy.Foundation.Transaction
import EasyDeploy.Orchestrator.Database

/-!
# The registry of releases

The tables in which unit releases and application releases are kept, with
`register_unit_release` and `create_application_release` statement by statement.
The database may report a fault at any statement. Timestamps are left out.
-/

namespace EasyDeploy.Releases
open Foundation
open Foundation.Statements
open Orchestrator (DeploymentUnit ConfigRevision ReleaseEnvironmentConfig AppReleaseUnit
  Environment EnvironmentTarget keyLe intLe)

/-- The values of `deployment_unit_releases.artifact_status`. -/
inductive ArtifactStatus
  | active
  | deleting
  | deleteFailed
  | deleted
deriving Repr, DecidableEq

/-- The values of `application_release_manifests.immutable_status`. -/
inductive ImmutableStatus
  | ready
  | archived
  | deleting
  | deleted
deriving Repr, DecidableEq

/-- Where a package is stored. -/
structure UnitReleaseStorage where
  provider : String
  bucket : String
  objectKey : String
  endpoint : String
  objectVersionId : String
  integrity : String
deriving Repr, DecidableEq

/-- A package on the host itself. -/
def UnitReleaseStorage.local : UnitReleaseStorage :=
  { provider := "local", bucket := "", objectKey := "", endpoint := "", objectVersionId := ""
    integrity := "local" }

/-- A row of `deployment_unit_releases`. -/
structure UnitRelease where
  id : Int
  unitId : Int
  version : String
  versionCode : Int
  packageName : String
  packagePath : String
  extractDir : String
  source : String
  checksumSha256 : String
  sizeBytes : Int
  publishedAt : String
  metadata : String
  storage : UnitReleaseStorage
  artifactStatus : ArtifactStatus
  cleanupError : String
deriving Repr, DecidableEq

/-- A row of `app_releases`. -/
structure AppRelease where
  id : Int
  appId : Int
  version : String
  versionCode : Int
  checksumSha256 : String
deriving Repr, DecidableEq

/-- A row of `application_release_manifests`. -/
structure ReleaseManifest where
  appReleaseId : Int
  baseAppReleaseId : Option Int
  manifestHash : String
  manifestJson : String
  immutableStatus : ImmutableStatus
  createdBy : String
deriving Repr, DecidableEq

/-- A row of `deployment_pipeline_stages`. -/
structure PipelineStage where
  id : Int
  appId : Int
  stageNo : Int
deriving Repr, DecidableEq

/-- A row of `deployment_pipeline_stage_units`. -/
structure StageUnit where
  stageId : Int
  unitId : Int
  unitOrder : Int
  removalOrder : Int
deriving Repr, DecidableEq

/-- The values of `version_counters.scope_kind` for releases. -/
inductive ScopeKind
  | appRelease
  | unitRelease
deriving Repr, DecidableEq

/-- A row of `version_counters`. -/
structure VersionCounter where
  scopeKind : ScopeKind
  scopeId : Int
  nextValue : Int
deriving Repr, DecidableEq

/-- What a counter counts. -/
def VersionCounter.scope (counter : VersionCounter) : ScopeKind × Int :=
  (counter.scopeKind, counter.scopeId)

/-- The tables, with the last identifier that `app_releases` has given out. -/
structure Registry where
  apps : List Int
  units : List DeploymentUnit
  stages : List PipelineStage
  stageUnits : List StageUnit
  environments : List Environment
  targets : List EnvironmentTarget
  configRevisions : List ConfigRevision
  unitReleases : List UnitRelease
  appReleases : List AppRelease
  lastAppReleaseId : Int
  manifests : List ReleaseManifest
  releaseUnits : List AppReleaseUnit
  environmentConfigs : List ReleaseEnvironmentConfig
  versionCounters : List VersionCounter
deriving Repr, DecidableEq

/-- How a registration fails. -/
inductive ApplicationReleaseError
  | validation (message : String)
  | conflict (message : String)
  | notFound (message : String)
  | database (message : String)
deriving Repr, DecidableEq

/-- The number that decimal digits write. -/
def decimalValue (digits : List Char) : Nat :=
  digits.foldl (fun value digit => value * 10 + (digit.toNat - '0'.toNat)) 0

/-- A part of a version: decimal digits without a leading zero, for a `u64`. -/
def validVersionPart (part : List Char) : Bool :=
  !part.isEmpty && part.all Char.isDigit && (part == ['0'] || part.head? != some '0') &&
    decide (decimalValue part < 2 ^ 64)

/-- The characters and the length of a version. -/
def validateVersion (version : String) : Bool :=
  let parts := (trim version).toList.splitOn '.'
  parts.length == 3 && parts.all validVersionPart

/-- The answer to another one. -/
def versionError : ApplicationReleaseError := .validation "version must use x.y.z numeric format"

/-- The digits of a checksum. -/
def isHexDigit (char : Char) : Bool :=
  char.isDigit || ('a' ≤ char && char ≤ 'f') || ('A' ≤ char && char ≤ 'F')

/-- A SHA-256 digest in hexadecimal digits. -/
def validateChecksum (checksum : String) : Bool :=
  checksum.toList.length == 64 && checksum.toList.all isHexDigit

/-- What a unit release is registered with. -/
structure RegisterUnitReleaseInput where
  unitId : Int
  version : String
  packageName : String
  packagePath : String
  extractDir : String
  checksumSha256 : String
  sizeBytes : Int
  publishedAt : String
  source : String
  metadata : Json
  storage : UnitReleaseStorage
deriving Repr, DecidableEq

/-- The checks before the transaction. -/
def validateUnitReleaseInput (input : RegisterUnitReleaseInput) :
    Except ApplicationReleaseError Unit :=
  if (trim input.packageName).isEmpty then
    .error (.validation "unit release package name is required")
  else if input.sizeBytes < 0 then
    .error (.validation "unit release size cannot be negative")
  else if !(input.source == "openapi" || input.source == "web" || input.source == "migration") then
    .error (.validation "unsupported unit release source")
  else if input.storage.provider == "local" && input.storage.integrity == "local" ||
      input.storage.provider == "aliyun_oss" &&
        (input.storage.integrity == "unique_key" || input.storage.integrity == "version_pinned") &&
        !(trim input.storage.bucket).isEmpty && !(trim input.storage.objectKey).isEmpty then
    .ok ()
  else
    .error (.validation "unit release storage metadata is incomplete or unsupported")

/-- Where the database may report a fault. -/
inductive ReleaseStatement
  | begin
  | unitExists
  | existingRelease
  | insertUnitRelease
  | appExists
  | versionExists
  | configuredUnits
  | baseRelease
  | manifestUnits
  | unitRelease (unitId : Int)
  | fingerprint (unitId : Int)
  | baseConfigs
  | environmentConfig (environmentId : Int)
  | configuredEnvironments
  | duplicateManifest
  | initCounter
  | advanceCounter
  | insertRelease
  | insertManifest
  | insertUnit (unitId : Int)
  | insertConfig (environmentId : Int)
  | commit
deriving Repr, DecidableEq

namespace Registry

variable (registry : Registry)

/-- The next value of a counter. -/
def nextValue (scopeKind : ScopeKind) (scopeId : Int) : Option Int :=
  (registry.versionCounters.find? fun counter =>
    counter.scope == (scopeKind, scopeId)).map (·.nextValue)

/-- Begin a counter that does not exist at 100. -/
def initCounter (scopeKind : ScopeKind) (scopeId : Int) : Registry :=
  if (registry.nextValue scopeKind scopeId).isSome then registry
  else { registry with
    versionCounters := registry.versionCounters ++ [⟨scopeKind, scopeId, 100⟩] }

/-- The value of a counter, which goes one further. -/
def advanceCounter (scopeKind : ScopeKind) (scopeId : Int) :
    Except ApplicationReleaseError (Int × Registry) :=
  match registry.nextValue scopeKind scopeId with
  | none => .error (.database "no rows returned by a query that expected to return at least one row")
  | some value => .ok (value, { registry with
      versionCounters := updateAt registry.versionCounters VersionCounter.scope
        (scopeKind, scopeId) (fun _ => true)
        fun counter => { counter with nextValue := counter.nextValue + 1 } })

end Registry

/-- The next version code of a scope. -/
def allocateVersionCode (faults : ReleaseStatement → Option String) (scopeKind : ScopeKind)
    (scopeId : Int) : Statements Registry ApplicationReleaseError Int := do
  statement ((faults .initCounter).map .database) fun registry =>
    .ok ((), registry.initCounter scopeKind scopeId)
  statement ((faults .advanceCounter).map .database) fun registry =>
    registry.advanceCounter scopeKind scopeId

/-- What the registration answers. -/
structure UnitReleaseResult where
  releaseId : Int
  unitId : Int
  version : String
  versionCode : Int
  checksumSha256 : String
deriving Repr, DecidableEq

/-- The row of a unit release. -/
def Registry.insertUnitRelease (registry : Registry) (input : RegisterUnitReleaseInput)
    (versionCode : Int) (metadata : String) : Int × Registry :=
  let releaseId := nextId (registry.unitReleases.map (·.id))
  (releaseId, { registry with unitReleases := registry.unitReleases ++ [
    { id := releaseId, unitId := input.unitId, version := input.version, versionCode
      packageName := trim input.packageName, packagePath := trim input.packagePath
      extractDir := trim input.extractDir, source := trim input.source
      checksumSha256 := input.checksumSha256, sizeBytes := input.sizeBytes
      publishedAt := trim input.publishedAt, metadata, storage := input.storage
      artifactStatus := .active, cleanupError := "" }] })

section Register

variable (text : JsonText) (faults : ReleaseStatement → Option String)
  (input : RegisterUnitReleaseInput)

/-- The transaction that registers a unit release. -/
def registerUnitRelease : Statements Registry ApplicationReleaseError UnitReleaseResult := do
  check (validateVersion input.version = true) versionError
  check (validateChecksum input.checksumSha256 = true)
    (.validation "checksum_sha256 must be 64 hexadecimal characters")
  compute (validateUnitReleaseInput input)
  statement ((faults .begin).map .database) fun registry => .ok ((), registry)
  query ((faults .unitExists).map .database) fun registry =>
    if registry.units.any fun unit => unit.id == input.unitId then .ok ()
    else .error (.notFound "deployment unit not found")
  let existing ← query ((faults .existingRelease).map .database) fun registry =>
    .ok (registry.unitReleases.find? fun release =>
      release.unitId == input.unitId && release.version == input.version)
  match existing with
  | some existing => do
      check (existing.checksumSha256 = input.checksumSha256)
        (.conflict "unit version already exists with a different checksum")
      statement ((faults .commit).map .database) fun registry => .ok ((), registry)
      return { releaseId := existing.id, unitId := input.unitId, version := input.version
               versionCode := existing.versionCode, checksumSha256 := existing.checksumSha256 }
  | none => do
      let versionCode ← allocateVersionCode faults .unitRelease input.unitId
      let metadata ← compute ((text.toString input.metadata).mapError .validation)
      let releaseId ← statement ((faults .insertUnitRelease).map .database) fun registry =>
        .ok (registry.insertUnitRelease input versionCode metadata)
      statement ((faults .commit).map .database) fun registry => .ok ((), registry)
      return { releaseId, unitId := input.unitId, version := input.version, versionCode
               checksumSha256 := input.checksumSha256 }

/-- A call of `register_unit_release`, and the registry after it. -/
def registerUnitReleaseCall (registry : Registry) :
    Except ApplicationReleaseError UnitReleaseResult × Registry :=
  transact (registerUnitRelease text faults input) registry

end Register

end EasyDeploy.Releases
