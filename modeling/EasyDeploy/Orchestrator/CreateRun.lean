import EasyDeploy.Foundation.Transaction
import EasyDeploy.Orchestrator.PlanSnapshot
import EasyDeploy.Orchestrator.Transactions

/-!
# The statements that create a run

`create_run` statement by statement, where the database may report a fault at
any of them. When it succeeds it has done what the transaction `createRun` does,
and otherwise nothing.
-/

namespace EasyDeploy.Orchestrator
open Foundation
open Foundation.Statements

/-- Where the database may report a fault. -/
inductive CreateRunStatement
  | begin
  | activeRun
  | loadPlan
  | insertTask
  | insertRun
  | insertPhase (index : Nat)
  | insertResult (unitId : Int)
  | commit
deriving Repr, DecidableEq

/-- The stages of a plan, in their order. -/
def phaseNumbers (items : List DeploymentPlanItem) : List Int :=
  dedup (sortBy intLe (items.map (·.stageNo)))

namespace Database

variable (database : Database)

/-- The task of a run. -/
def insertTaskRow (input : CreateDeploymentRunInput) (plan : DeploymentPlan) : Int × Database :=
  let taskId := nextId (database.tasks.map (·.id))
  (taskId, { database with tasks := database.tasks ++ [
    { id := taskId, title := s!"部署应用版本 #{input.appReleaseId} 到环境 #{input.environmentId}"
      appId := plan.appId, releaseId := input.appReleaseId, environmentId := input.environmentId
      status := .queued, phase := .queued, command := "", summary := "", exitCode := none
      createdBy := trim input.createdBy }] })

/-- Of the text `written` the row keeps what decoding it gives. -/
def insertRunRow (text : JsonText) (input : CreateDeploymentRunInput) (plan : DeploymentPlan)
    (taskId : Int) (written : String) : Int × Database :=
  let deploymentRunId := nextId (database.runs.map (·.id))
  (deploymentRunId, { database with runs := database.runs ++ [
    { id := deploymentRunId, appId := plan.appId, environmentId := plan.environmentId
      appReleaseId := plan.appReleaseId, configRevisionId := plan.configRevisionId, taskId
      deploymentMode := plan.mode, planHash := plan.planHash
      planJson := DeploymentPlan.read text written, status := .queued, summary := ""
      createdBy := trim input.createdBy, cancelRequested := false, cancelRequestedBy := ""
      reconciledBy := "", reconciliationNote := "" }] })

/-- A phase of its task. -/
def insertPhaseRow (taskId : Int) (numbered : Int × Nat) : Database :=
  { database with phases := database.phases ++ [
    { id := nextId (database.phases.map (·.id)), taskId, phaseNo := numbered.2 + 1
      phaseKey := phaseKey numbered.1, title := s!"部署阶段 {numbered.1}", status := .pending }] }

/-- A unit of a run. -/
def insertResultRow (deploymentRunId : Int) (item : DeploymentPlanItem) : Database :=
  { database with unitResults := database.unitResults ++ [newUnitResult deploymentRunId item] }

end Database

section Statements

variable (digests : Digests) (text : JsonText) (faults : CreateRunStatement → Option String)
  (input : CreateDeploymentRunInput)

/-- The transaction statement by statement. -/
def createRunStatements : Statements Database OrchestratorError CreatedDeploymentRun := do
  check ((trim input.expectedPlanHash).isEmpty = false)
    (.validation "确认部署时必须提交预览 plan hash")
  statement ((faults .begin).map .database) fun database => .ok ((), database)
  query ((faults .activeRun).map .database) fun database =>
    match database.activeRun input.environmentId with
    | some run => .error (.conflict
        s!"当前环境已有部署流程正在进行（部署 #{run.id}，状态 {run.status.name}）")
    | none => .ok ()
  let plan ← query ((faults .loadPlan).map .database) fun database =>
    database.loadDeploymentPlan digests input.environmentId input.appReleaseId input.mode
  check (plan.planHash = input.expectedPlanHash)
    (.conflict "部署目标或运行状态已变化，请重新预览并确认")
  -- The trigger on `operation_tasks` rejects a second open task of an environment.
  query none fun database =>
    if database.tasks.any fun task => task.status.isOpen &&
        task.environmentId == input.environmentId then
      .error (.conflict "当前环境已有部署流程正在进行")
    else .ok ()
  let taskId ← statement ((faults .insertTask).map .database) fun database =>
    .ok (database.insertTaskRow input plan)
  let written ← compute ((plan.write text).mapError .validation)
  let deploymentRunId ← statement ((faults .insertRun).map .database) fun database =>
    .ok (database.insertRunRow text input plan taskId written)
  forEach (fun numbered => statement ((faults (.insertPhase numbered.2)).map .database)
    fun database => .ok ((), database.insertPhaseRow taskId numbered)) (phaseNumbers plan.items).zipIdx
  forEach (fun item => statement ((faults (.insertResult item.unitId)).map .database)
    fun database => .ok ((), database.insertResultRow deploymentRunId item)) plan.items
  statement ((faults .commit).map .database) fun database => .ok ((), database)
  return { deploymentRunId, taskId, plan }

/-- A call of `create_run`, and the database after it. -/
def createRunCall (database : Database) : Except OrchestratorError CreatedDeploymentRun × Database :=
  transact (createRunStatements digests text faults input) database

end Statements

section Loops

variable {database : Database}

/-- One phase after the other appends the phases of the task. -/
theorem foldl_insertPhaseRow (taskId : Int) (items : List DeploymentPlanItem) :
    (phaseNumbers items).zipIdx.foldl (fun database => database.insertPhaseRow taskId) database =
      { database with
        phases := database.phases ++
          newPhases (nextId (database.phases.map (·.id))) taskId items } := by
  have hfold (numbers : List Int) : ∀ (index : Nat) (database : Database) (firstId : Int),
      nextId (database.phases.map (·.id)) = firstId + index →
      (numbers.zipIdx index).foldl (fun database => database.insertPhaseRow taskId) database =
        { database with
          phases := database.phases ++ (numbers.zipIdx index).map fun numbered =>
            { id := firstId + numbered.2, taskId, phaseNo := numbered.2 + 1
              phaseKey := phaseKey numbered.1, title := s!"部署阶段 {numbered.1}"
              status := .pending } } := by
    induction numbers with
    | nil =>
        intro index database firstId _
        simp
    | cons number numbers ih =>
        intro index database firstId hnext
        rw [List.zipIdx_cons, List.foldl_cons, ih (index + 1) _ firstId]
        · simp [Database.insertPhaseRow, hnext]
        · rw [Database.insertPhaseRow, List.map_append, List.map_singleton, nextId_concat, hnext]
          push_cast
          omega
  rw [hfold _ 0 database (nextId (database.phases.map (·.id))) (by simp), newPhases,
    List.mapIdx_eq_zipIdx_map]
  rfl

theorem foldl_insertResultRow (deploymentRunId : Int) (items : List DeploymentPlanItem) :
    items.foldl (fun database => database.insertResultRow deploymentRunId) database =
      { database with
        unitResults := database.unitResults ++ items.map (newUnitResult deploymentRunId) } := by
  induction items generalizing database with
  | nil => simp
  | cons item items ih =>
      rw [List.foldl_cons, ih]
      simp [Database.insertResultRow]

end Loops

variable {digests : Digests} {text : JsonText} {faults : CreateRunStatement → Option String}
  {input : CreateDeploymentRunInput} {database database' : Database}
  {created : CreatedDeploymentRun}

/-- A call that succeeds has committed the transaction `createRun`. -/
theorem createRun_of_call (htext : text.RoundTrips)
    (h : createRunCall digests text faults input database = (.ok created, database')) :
    database.createRun digests input = .ok (created, database') ∧
      created.plan.planHash = input.expectedPlanHash ∧
      ∃ written, created.plan.write text = .ok written := by
  have hrest := transact_eq_ok.mp h
  unfold createRunStatements at hrest
  obtain ⟨⟨⟩, _, hcheck, hrest⟩ := bind_eq_ok.mp hrest
  obtain ⟨hsubmitted, rfl⟩ := check_eq_ok.mp hcheck
  obtain ⟨⟨⟩, _, hbegin, hrest⟩ := bind_eq_ok.mp hrest
  obtain ⟨-, rfl⟩ := perform_eq_ok.mp hbegin
  obtain ⟨⟨⟩, _, hquery, hrest⟩ := bind_eq_ok.mp hrest
  obtain ⟨-, hactive, rfl⟩ := query_eq_ok.mp hquery
  obtain ⟨plan, _, hquery, hrest⟩ := bind_eq_ok.mp hrest
  obtain ⟨-, hplan, rfl⟩ := query_eq_ok.mp hquery
  obtain ⟨⟨⟩, _, hcheck, hrest⟩ := bind_eq_ok.mp hrest
  obtain ⟨hhash, rfl⟩ := check_eq_ok.mp hcheck
  obtain ⟨⟨⟩, _, hquery, hrest⟩ := bind_eq_ok.mp hrest
  obtain ⟨-, htasks, rfl⟩ := query_eq_ok.mp hquery
  obtain ⟨taskId, _, htask, hrest⟩ := bind_eq_ok.mp hrest
  obtain ⟨rfl, rfl⟩ := Prod.mk.inj (Except.ok.inj (statement_eq_ok.mp htask).2)
  obtain ⟨written, _, hcompute, hrest⟩ := bind_eq_ok.mp hrest
  obtain ⟨hwritten, rfl⟩ := compute_eq_ok.mp hcompute
  obtain ⟨deploymentRunId, _, hrun, hrest⟩ := bind_eq_ok.mp hrest
  obtain ⟨rfl, rfl⟩ := Prod.mk.inj (Except.ok.inj (statement_eq_ok.mp hrun).2)
  obtain ⟨⟨⟩, _, hphases, hrest⟩ := bind_eq_ok.mp hrest
  obtain rfl := forEach_eq_ok (fun _ _ _ heach => (perform_eq_ok.mp heach).2.symm) hphases
  obtain ⟨⟨⟩, _, hresults, hrest⟩ := bind_eq_ok.mp hrest
  obtain rfl := forEach_eq_ok (fun _ _ _ heach => (perform_eq_ok.mp heach).2.symm) hresults
  obtain ⟨⟨⟩, _, hcommit, hrest⟩ := bind_eq_ok.mp hrest
  obtain ⟨-, rfl⟩ := perform_eq_ok.mp hcommit
  obtain ⟨rfl, rfl⟩ := Prod.mk.inj (pure_eq_ok.mp hrest)
  have hnone : database.activeRun input.environmentId = none := by
    split at hactive
    · cases hactive
    · assumption
  have hidle : ¬ (database.tasks.any fun task => task.status.isOpen &&
      task.environmentId == input.environmentId) = true := fun hopen => by
    rw [if_pos hopen] at htasks
    cases htasks
  have hwrite : plan.write text = .ok written := by
    cases heq : plan.write text with
    | error error =>
        rw [heq] at hwritten
        cases hwritten
    | ok written' =>
        rw [heq] at hwritten
        exact congrArg Except.ok (Except.ok.inj hwritten)
  have hread := DeploymentPlan.read_of_write htext hwrite
  refine ⟨?_, hhash, written, hwrite⟩
  rw [foldl_insertPhaseRow, foldl_insertResultRow, Database.createRun,
    if_neg (Bool.eq_false_iff.mp hsubmitted), hnone]
  simp only [hplan]
  rw [if_neg (not_not_intro hhash), if_neg hidle]
  simp only [Database.insertRun, hread]

end EasyDeploy.Orchestrator
