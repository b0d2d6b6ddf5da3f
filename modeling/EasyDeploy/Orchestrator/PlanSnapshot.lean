import EasyDeploy.Foundation.Json
import EasyDeploy.Orchestrator.Plan

/-!
# Plan snapshots

The JSON values of plans, as their derived serialization writes and reads them.
Every field of a plan is written, so that a plan is read back as it was.
-/

namespace EasyDeploy.Orchestrator
open Foundation

namespace DeploymentMode

/-- A mode as it is stored. -/
def toJson : DeploymentMode → Json
  | normal => .string "normal"
  | force => .string "force"

/-- A mode as it is read. -/
def ofJson : Json → Except String DeploymentMode
  | .string "normal" => .ok normal
  | .string "force" => .ok force
  | _ => .error "unknown variant, expected `normal` or `force`"

theorem ofJson_toJson (mode : DeploymentMode) : ofJson mode.toJson = .ok mode := by
  cases mode <;> rfl

end DeploymentMode

namespace DeploymentAction

/-- An action as it is stored. -/
def toJson : DeploymentAction → Json
  | deploy => .string "deploy"
  | skip => .string "skip"
  | start => .string "start"
  | stop => .string "stop"
  | upgrade => .string "upgrade"
  | downgrade => .string "downgrade"
  | restore => .string "restore"
  | applicationCheck => .string "application_check"

/-- An action as it is read. -/
def ofJson : Json → Except String DeploymentAction
  | .string "deploy" => .ok deploy
  | .string "skip" => .ok skip
  | .string "start" => .ok start
  | .string "stop" => .ok stop
  | .string "upgrade" => .ok upgrade
  | .string "downgrade" => .ok downgrade
  | .string "restore" => .ok restore
  | .string "application_check" => .ok applicationCheck
  | _ => .error ("unknown variant, expected one of `deploy`, `skip`, `start`, `stop`, " ++
      "`upgrade`, `downgrade`, `restore`, `application_check`")

theorem ofJson_toJson (action : DeploymentAction) : ofJson action.toJson = .ok action := by
  cases action <;> rfl

end DeploymentAction

namespace DeploymentPlanItem

/-- An item as it is stored. -/
def toJson (item : DeploymentPlanItem) : Json :=
  .object [
    ("unit_id", .int item.unitId),
    ("unit_key", .string item.unitKey),
    ("unit_release_id", .ofOption .int item.unitReleaseId),
    ("release_version", .ofOption .string item.releaseVersion),
    ("stage_no", .int item.stageNo),
    ("unit_order", .int item.unitOrder),
    ("removal_order", .int item.removalOrder),
    ("action", item.action.toJson),
    ("reason", .string item.reason),
    ("target_fingerprint", .string item.targetFingerprint),
    ("previous_fingerprint", .string item.previousFingerprint)]

/-- An item as it is read. -/
def ofJson (value : Json) : Except String DeploymentPlanItem := do
  let unitId ← (← value.field "unit_id").asInt
  let unitKey ← (← value.field "unit_key").asString
  let unitReleaseId ← (← value.optionalField "unit_release_id").asOption Json.asInt
  let releaseVersion ← (← value.optionalField "release_version").asOption Json.asString
  let stageNo ← (← value.field "stage_no").asInt
  let unitOrder ← (← value.field "unit_order").asInt
  let removalOrder ← (← value.field "removal_order").asInt
  let action ← DeploymentAction.ofJson (← value.field "action")
  let reason ← (← value.field "reason").asString
  let targetFingerprint ← (← value.field "target_fingerprint").asString
  let previousFingerprint ← (← value.field "previous_fingerprint").asString
  return { unitId, unitKey, unitReleaseId, releaseVersion, stageNo, unitOrder, removalOrder, action
           reason, targetFingerprint, previousFingerprint }

theorem ofJson_toJson (item : DeploymentPlanItem) : ofJson item.toJson = .ok item := by
  obtain ⟨unitId, unitKey, unitReleaseId, releaseVersion, stageNo, unitOrder, removalOrder, action,
    reason, targetFingerprint, previousFingerprint⟩ := item
  cases unitReleaseId <;> cases releaseVersion <;> cases action <;> rfl

end DeploymentPlanItem

namespace DeploymentPlan

/-- A plan as it is stored. -/
def toJson (plan : DeploymentPlan) : Json :=
  .object [
    ("app_id", .int plan.appId),
    ("environment_id", .int plan.environmentId),
    ("app_release_id", .int plan.appReleaseId),
    ("config_revision_id", .int plan.configRevisionId),
    ("mode", plan.mode.toJson),
    ("target_node_ids", .array (plan.targetNodeIds.map .int)),
    ("items", .array (plan.items.map (·.toJson))),
    ("plan_hash", .string plan.planHash)]

/-- A plan as it is read. -/
def ofJson (value : Json) : Except String DeploymentPlan := do
  let appId ← (← value.field "app_id").asInt
  let environmentId ← (← value.field "environment_id").asInt
  let appReleaseId ← (← value.field "app_release_id").asInt
  let configRevisionId ← (← value.field "config_revision_id").asInt
  let mode ← DeploymentMode.ofJson (← value.field "mode")
  let targetNodeIds ← (← (← value.field "target_node_ids").asArray).mapM Json.asInt
  let items ← (← (← value.field "items").asArray).mapM DeploymentPlanItem.ofJson
  let planHash ← (← value.field "plan_hash").asString
  return { appId, environmentId, appReleaseId, configRevisionId, mode, targetNodeIds, items
           planHash }

/-- A plan is read back from what is written of it. -/
theorem ofJson_toJson (plan : DeploymentPlan) : ofJson plan.toJson = .ok plan := by
  have hnodes : (plan.targetNodeIds.map Json.int).mapM Json.asInt = .ok plan.targetNodeIds :=
    Json.mapM_map (fun nodeId => (rfl : (Json.int nodeId).asInt = .ok nodeId)) plan.targetNodeIds
  have hitems : (plan.items.map (·.toJson)).mapM DeploymentPlanItem.ofJson = .ok plan.items :=
    Json.mapM_map DeploymentPlanItem.ofJson_toJson plan.items
  have hmode := plan.mode.ofJson_toJson
  show (DeploymentMode.ofJson plan.mode.toJson >>= fun mode =>
    (plan.targetNodeIds.map Json.int).mapM Json.asInt >>= fun targetNodeIds =>
      (plan.items.map (·.toJson)).mapM DeploymentPlanItem.ofJson >>= fun items =>
        Except.ok _) = _
  rw [hmode, hnodes, hitems]
  rfl

/-- `serde_json::to_string(plan)`. -/
def write (text : JsonText) (plan : DeploymentPlan) : Except String String :=
  text.toString plan.toJson

/-- `serde_json::from_str::<DeploymentPlan>(written)`. -/
def read (text : JsonText) (written : String) : Except String DeploymentPlan :=
  text.fromStr written >>= ofJson

theorem read_of_write {text : JsonText} (htext : text.RoundTrips) {plan : DeploymentPlan}
    {written : String} (h : plan.write text = .ok written) : read text written = .ok plan := by
  rw [read, htext _ _ h]
  exact ofJson_toJson plan

end DeploymentPlan

end EasyDeploy.Orchestrator
