import EasyDeploy.Foundation.Sequences
import Mathlib.Data.List.Nodup

/-!
# Deployment plans

`buildDeploymentPlan` compares the unit releases of an application release with
the recorded node states of an environment, chooses an action for every unit and
puts the items into execution order. Identifiers, stage numbers and orders are
`Int`: the schema admits stage numbers and orders from one on, so that their
negation does not overflow.
-/

namespace EasyDeploy.Orchestrator
open Foundation

/-- How a plan treats what runs already. -/
inductive DeploymentMode
  | normal
  | force
deriving Repr, DecidableEq

/-- What a plan does with a unit. -/
inductive DeploymentAction
  | deploy
  | skip
  | start
  | stop
  | upgrade
  | downgrade
  | restore
  | applicationCheck
deriving Repr, DecidableEq

/-- The values of `deployment_unit_runtime_states.runtime_status`. -/
inductive UnitRuntimeStatus
  | unknown
  | healthy
  | unhealthy
  | deploying
  | stopped
deriving Repr, DecidableEq

/-- What a release asks of a unit. -/
structure TargetUnitState where
  unitId : Int
  unitKey : String
  unitReleaseId : Option Int
  releaseVersion : Option String
  releaseVersionCode : Option Int
  desiredStatus : String
  stageNo : Int
  unitOrder : Int
  removalOrder : Int
  targetFingerprint : String
deriving Repr, DecidableEq

/-- What runs on a node. -/
structure CurrentUnitNodeState where
  unitId : Int
  nodeId : Int
  runtimeStatus : UnitRuntimeStatus
  activeUnitReleaseId : Option Int
  activeVersionCode : Option Int
  activeFingerprint : String
  containerVersionLabel : String
deriving Repr, DecidableEq

/-- What a plan is made of. -/
structure DeploymentPlanInput where
  appId : Int
  environmentId : Int
  appReleaseId : Int
  configRevisionId : Int
  mode : DeploymentMode
  targetNodeIds : List Int
  targetUnits : List TargetUnitState
  currentStates : List CurrentUnitNodeState
deriving Repr, DecidableEq

/-- A unit in a plan. -/
structure DeploymentPlanItem where
  unitId : Int
  unitKey : String
  unitReleaseId : Option Int
  releaseVersion : Option String
  stageNo : Int
  unitOrder : Int
  removalOrder : Int
  action : DeploymentAction
  reason : String
  targetFingerprint : String
  previousFingerprint : String
deriving Repr, DecidableEq

/-- The part of a plan that its hash covers. -/
structure PlanHashDocument where
  appId : Int
  environmentId : Int
  appReleaseId : Int
  configRevisionId : Int
  mode : DeploymentMode
  targetNodeIds : List Int
  items : List DeploymentPlanItem
deriving Repr, DecidableEq

/-- A plan with the digest of its document. -/
structure DeploymentPlan extends PlanHashDocument where
  planHash : String
deriving Repr, DecidableEq

/-- Why there is no plan. -/
structure DeploymentPlanError where
  message : String
deriving Repr, DecidableEq

/-- The SHA-256 digests that the orchestrator takes, of a plan and of a unit
fingerprint with a config hash. -/
structure Digests where
  planHash : PlanHashDocument → String
  deploymentTargetFingerprint : String → String → String

/-- What ran on all nodes, if it was the same. -/
def commonPreviousFingerprint : List CurrentUnitNodeState → String
  | [] => ""
  | first :: states =>
      if (first :: states).all fun state => state.activeFingerprint == first.activeFingerprint then
        first.activeFingerprint
      else
        ""

/-- The node state is healthy and agrees with the target. -/
def fullyMatching (target : TargetUnitState) (state : CurrentUnitNodeState) : Bool :=
  state.runtimeStatus == .healthy && state.activeUnitReleaseId == target.unitReleaseId &&
    state.activeFingerprint == target.targetFingerprint &&
    some state.containerVersionLabel == target.releaseVersion

/-- What is done with a unit. -/
def classifyAction (mode : DeploymentMode) (target : TargetUnitState) (targetNodeIds : List Int)
    (states : List CurrentUnitNodeState) : DeploymentAction × String :=
  if target.desiredStatus = "disabled" then
    let alreadyStopped := states.length == targetNodeIds.length &&
      states.all fun state => state.runtimeStatus == .stopped
    if alreadyStopped || states.isEmpty then
      (.skip, "部署单元已经停止")
    else
      (.stop, "目标应用版本停用该单元")
  else if mode = .force then
    (.deploy, "强制全量部署重新执行启用单元")
  else if states.length ≠ targetNodeIds.length then
    if states.isEmpty then
      (.start, "目标节点尚未部署该单元")
    else
      (.deploy, "部分目标节点缺少可信运行状态")
  else if states.all (fullyMatching target) then
    (.skip, "版本、配置、容器 label 和健康状态均与目标一致")
  else if states.any fun state =>
      !(state.runtimeStatus == .healthy || state.runtimeStatus == .stopped) then
    (.deploy, "运行状态或健康探测不可信，不能跳过")
  else if states.all fun state => state.runtimeStatus == .stopped then
    (.restore, "部署单元已停止，需要恢复目标版本")
  else
    let currentCodes := states.filterMap (·.activeVersionCode)
    match target.releaseVersionCode with
    | some targetCode =>
        if currentCodes.all fun code => decide (code < targetCode) then
          (.upgrade, "目标发布包版本更高")
        else if currentCodes.all fun code => decide (targetCode < code) then
          (.downgrade, "目标发布包版本更低")
        else
          (.deploy, "目标指纹、容器 label 或节点版本不一致")
    | none => (.deploy, "目标指纹、容器 label 或节点版本不一致")

/-- The key by which items are sorted; `Reverse(x)` compares as `-x`. -/
def DeploymentPlanItem.sortKey (item : DeploymentPlanItem) : Int × Int × Int × Int :=
  match item.action with
  | .stop => (0, -item.stageNo, -item.removalOrder, item.unitId)
  | _ => (1, - -item.stageNo, - -item.unitOrder, item.unitId)

/-- The lexicographic order of sort keys. -/
def keyLe (left right : Int × Int × Int × Int) : Bool :=
  decide (left.1 < right.1 ∨ left.1 = right.1 ∧ (left.2.1 < right.2.1 ∨
    left.2.1 = right.2.1 ∧ (left.2.2.1 < right.2.2.1 ∨
      left.2.2.1 = right.2.2.1 ∧ left.2.2.2 ≤ right.2.2.2)))

/-- The order of items. -/
def itemLe (left right : DeploymentPlanItem) : Bool := keyLe left.sortKey right.sortKey

/-- The recorded states of a unit on the target nodes, in the order of the nodes. -/
def statesOf (currentStates : List CurrentUnitNodeState) (targetNodeIds : List Int)
    (unitId : Int) : List CurrentUnitNodeState :=
  targetNodeIds.filterMap fun nodeId =>
    currentStates.find? fun state => state.unitId == unitId && state.nodeId == nodeId

/-- The item of a unit. -/
def planItem (mode : DeploymentMode) (currentStates : List CurrentUnitNodeState)
    (targetNodeIds : List Int) (target : TargetUnitState) : DeploymentPlanItem :=
  let states := statesOf currentStates targetNodeIds target.unitId
  let previousFingerprint := commonPreviousFingerprint states
  let (action, reason) := classifyAction mode target targetNodeIds states
  { unitId := target.unitId, unitKey := target.unitKey, unitReleaseId := target.unitReleaseId
    releaseVersion := target.releaseVersion, stageNo := target.stageNo
    unitOrder := target.unitOrder, removalOrder := target.removalOrder, action, reason
    targetFingerprint := target.targetFingerprint, previousFingerprint }

/-- The loop over the target units; `seen` holds the units before. -/
def planItems (mode : DeploymentMode) (currentStates : List CurrentUnitNodeState)
    (targetNodeIds : List Int) :
    List Int → List TargetUnitState → Except DeploymentPlanError (List DeploymentPlanItem)
  | _, [] => .ok []
  | seen, target :: targets =>
      if target.unitId ∈ seen then
        .error ⟨"应用版本包含重复部署单元"⟩
      else if ¬ (target.desiredStatus = "active" ∨ target.desiredStatus = "disabled") then
        .error ⟨"部署单元目标状态必须是 active 或 disabled"⟩
      else if target.desiredStatus = "active" ∧ target.unitReleaseId.isNone then
        .error ⟨"启用的部署单元缺少发布包"⟩
      else
        match planItems mode currentStates targetNodeIds (target.unitId :: seen) targets with
        | .ok items => .ok (planItem mode currentStates targetNodeIds target :: items)
        | .error error => .error error

/-- The order of numbers. -/
def intLe (left right : Int) : Bool := decide (left ≤ right)

/-- The plan of an input. -/
def buildDeploymentPlan (digests : Digests) (input : DeploymentPlanInput) :
    Except DeploymentPlanError DeploymentPlan :=
  if input.targetNodeIds.isEmpty then
    .error ⟨"部署环境至少需要一个目标节点"⟩
  else if input.targetUnits.isEmpty then
    .error ⟨"应用版本不包含部署单元"⟩
  else if ¬ (input.currentStates.map fun state => (state.unitId, state.nodeId)).Nodup then
    .error ⟨"同一部署单元和节点存在重复运行状态"⟩
  else
    let targetNodeIds := dedup (sortBy intLe input.targetNodeIds)
    match planItems input.mode input.currentStates targetNodeIds [] input.targetUnits with
    | .error error => .error error
    | .ok items =>
        let document : PlanHashDocument :=
          { appId := input.appId, environmentId := input.environmentId
            appReleaseId := input.appReleaseId, configRevisionId := input.configRevisionId
            mode := input.mode, targetNodeIds, items := sortBy itemLe items }
        .ok { document with planHash := digests.planHash document }

theorem itemLe_trans (a b c : DeploymentPlanItem) (hab : itemLe a b = true)
    (hbc : itemLe b c = true) : itemLe a c = true := by
  simp only [itemLe, keyLe, decide_eq_true_eq] at *
  omega

theorem itemLe_total (a b : DeploymentPlanItem) : (itemLe a b || itemLe b a) = true := by
  simp only [itemLe, keyLe, Bool.or_eq_true, decide_eq_true_eq]
  omega

/-- Accepted target units are distinct, and each has its item in their order. -/
theorem planItems_eq_ok {mode : DeploymentMode} {currentStates : List CurrentUnitNodeState}
    {targetNodeIds seen : List Int} {targets : List TargetUnitState}
    {items : List DeploymentPlanItem}
    (h : planItems mode currentStates targetNodeIds seen targets = .ok items) :
    items = targets.map (planItem mode currentStates targetNodeIds) ∧
      (targets.map (·.unitId)).Nodup ∧ ∀ target ∈ targets, target.unitId ∉ seen := by
  induction targets generalizing seen items with
  | nil =>
      obtain rfl := Except.ok.inj h
      simp
  | cons target targets ih =>
      simp only [planItems] at h
      split at h
      · cases h
      · rename_i hseen
        split at h
        · cases h
        · split at h
          · cases h
          · split at h
            · rename_i rest hrest
              obtain rfl := Except.ok.inj h
              obtain ⟨rfl, hnodup, hfresh⟩ := ih hrest
              refine ⟨rfl, ?_, ?_⟩
              · rw [List.map_cons, List.nodup_cons]
                refine ⟨?_, hnodup⟩
                intro hmem
                obtain ⟨other, hother, heq⟩ := List.mem_map.mp hmem
                exact hfresh other hother (by simp [heq])
              · intro other hother
                rcases List.mem_cons.mp hother with rfl | hother
                · exact hseen
                · exact fun hmem => hfresh other hother (List.mem_cons_of_mem _ hmem)
            · cases h

variable {digests : Digests} {input : DeploymentPlanInput} {plan : DeploymentPlan}

/-- The parts of an accepted plan. -/
theorem buildDeploymentPlan_eq_ok (h : buildDeploymentPlan digests input = .ok plan) :
    plan.environmentId = input.environmentId ∧
      (∀ nodeId, nodeId ∈ plan.targetNodeIds ↔ nodeId ∈ input.targetNodeIds) ∧
      plan.items = sortBy itemLe (input.targetUnits.map
        (planItem input.mode input.currentStates plan.targetNodeIds)) ∧
      (input.targetUnits.map (·.unitId)).Nodup := by
  simp only [buildDeploymentPlan] at h
  split at h
  · cases h
  · split at h
    · cases h
    · split at h
      · cases h
      · split at h
        · cases h
        · rename_i items hitems
          obtain rfl := Except.ok.inj h
          obtain ⟨rfl, hnodup, -⟩ := planItems_eq_ok hitems
          exact ⟨rfl, fun nodeId => by simp, rfl, hnodup⟩

/-- A plan has one item for each target unit. -/
theorem unitIds_nodup_of_plan (h : buildDeploymentPlan digests input = .ok plan) :
    (plan.items.map (·.unitId)).Nodup := by
  obtain ⟨-, -, hitems, hnodup⟩ := buildDeploymentPlan_eq_ok h
  rw [hitems]
  refine (sortBy_perm.map _).nodup_iff.mpr ?_
  rw [List.map_map]
  exact hnodup

/-- The items of a plan are in execution order. -/
theorem pairwise_items (h : buildDeploymentPlan digests input = .ok plan) :
    plan.items.Pairwise fun left right => itemLe left right = true := by
  obtain ⟨-, -, hitems, -⟩ := buildDeploymentPlan_eq_ok h
  rw [hitems]
  exact pairwise_sortBy itemLe_trans itemLe_total

/-- Every item is the item of a target unit. -/
theorem mem_items_iff (h : buildDeploymentPlan digests input = .ok plan)
    {item : DeploymentPlanItem} : item ∈ plan.items ↔ ∃ target ∈ input.targetUnits,
      planItem input.mode input.currentStates plan.targetNodeIds target = item := by
  obtain ⟨-, -, hitems, -⟩ := buildDeploymentPlan_eq_ok h
  rw [hitems, mem_sortBy, List.mem_map]

end EasyDeploy.Orchestrator
