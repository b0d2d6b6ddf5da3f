import EasyDeploy.Orchestrator.CompleteExecutions
import EasyDeploy.Orchestrator.CreateRun
import EasyDeploy.Orchestrator.FrozenRuns

/-!
# What was confirmed is what runs

A preview is confirmed by its plan hash. When a run is created, the plan with
this hash is computed from the database of the creating transaction and stored,
and the executions of the run start the items of this plan.
-/

namespace EasyDeploy.Orchestrator
open Foundation Foundation.Transition

/-- A plan carries the hash of its document. -/
theorem planHash_of_plan {digests : Digests} {input : DeploymentPlanInput} {plan : DeploymentPlan}
    (h : buildDeploymentPlan digests input = .ok plan) :
    plan.planHash = digests.planHash plan.toPlanHashDocument := by
  simp only [buildDeploymentPlan] at h
  split at h
  · cases h
  · split at h
    · cases h
    · split at h
      · cases h
      · split at h
        · cases h
        · obtain rfl := Except.ok.inj h
          rfl

/-- Plans with equal documents are equal. -/
theorem plan_ext {digests : Digests} {seen seen' : Database} {environmentId appReleaseId : Int}
    {environmentId' appReleaseId' : Int} {mode mode' : DeploymentMode} {plan plan' : DeploymentPlan}
    (h : seen.loadDeploymentPlan digests environmentId appReleaseId mode = .ok plan)
    (h' : seen'.loadDeploymentPlan digests environmentId' appReleaseId' mode' = .ok plan')
    (heq : plan.toPlanHashDocument = plan'.toPlanHashDocument) : plan = plan' := by
  obtain ⟨input, -, hbuilt⟩ := Database.loadDeploymentPlan_eq_ok h
  obtain ⟨input', -, hbuilt'⟩ := Database.loadDeploymentPlan_eq_ok h'
  have hhash := planHash_of_plan hbuilt
  have hhash' := planHash_of_plan hbuilt'
  obtain ⟨document, hash⟩ := plan
  obtain ⟨document', hash'⟩ := plan'
  obtain rfl : document = document' := heq
  exact congrArg (DeploymentPlan.mk document) (hhash.trans hhash'.symm)

/-- The executions of a run start the items of a plan that are to be executed, in their order, and
all of them unless a unit fails, the run is canceled or an error ends the execution. -/
structure ExecutesPlan (plan : DeploymentPlan) (deploymentRunId : Int)
    (log : List (Int × ExecutionEvent)) (system : System) : Prop where
  accepted : ∀ run database', system.database.claimDeploymentRun deploymentRunId =
    .ok (run, database') → run.planJson = .ok plan ∧ run.planHash = plan.planHash
  frozen : ∀ (index : Nat) execution run plan' stage, system.executions[index]? = some execution →
    execution.deploymentRunId = deploymentRunId → execution.progress = .executing run plan' stage →
    plan' = plan
  started : startedItems (eventsOf deploymentRunId log) <+:
    plan.items.filter fun item => item.action ≠ .skip
  finished : ∀ (index : Nat) execution run plan' counts,
    system.executions[index]? = some execution → execution.deploymentRunId = deploymentRunId →
    execution.progress = .executing run plan' (.finalizing false counts) →
    Clean (eventsOf deploymentRunId log) →
    startedItems (eventsOf deploymentRunId log) =
      plan.items.filter fun item => item.action ≠ .skip

section Executions

variable {digests : Digests} {log : List (Int × ExecutionEvent)} {system : System}

/-- Claiming a run returns its frozen plan and hash. -/
theorem planHash_of_claim {database database' : Database} {deploymentRunId : Int}
    {run : ExecutionRun} (h : database.claimDeploymentRun deploymentRunId = .ok (run, database')) :
    ∃ stored ∈ database.runs, stored.id = deploymentRunId ∧ run.planJson = stored.planJson ∧
      run.planHash = stored.planHash := by
  unfold Database.claimDeploymentRun at h
  split at h
  · cases h
  · rename_i stored hfind
    have hstored := List.find?_some hfind
    rw [Bool.and_eq_true, beq_iff_eq] at hstored
    split at h
    · cases h
    · split at h
      · cases h
      · obtain ⟨rfl, -⟩ := Prod.mk.inj (Except.ok.inj h)
        exact ⟨stored, List.mem_of_find?_eq_some hfind, hstored.1, rfl, rfl⟩

/-- A stored run is executed as its plan says. -/
theorem executesPlan_of_stored (h : Reachable (loggedOrchestrator digests) (log, system))
    {stored : DeploymentRun} (hstored : stored ∈ system.database.runs) {plan : DeploymentPlan}
    (hplan : stored.planJson = .ok plan) (hhash : stored.planHash = plan.planHash) :
    ExecutesPlan plan stored.id log system := by
  obtain ⟨hsound, htraced⟩ := sound_and_traced h
  have hkeyed := hsound.consistent.wellFormed.runIds
  have hfrozen : ∀ (index : Nat) execution run plan' stage,
      system.executions[index]? = some execution → execution.deploymentRunId = stored.id →
      execution.progress = .executing run plan' stage → plan' = plan := by
    intro index execution run plan' stage hindex hid hprogress
    obtain ⟨attended, hattends⟩ := hsound.attended _ _ _ _ _ hindex hprogress
    obtain rfl := hkeyed.eq hattends.mem hstored (hattends.id.trans hid)
    exact Except.ok.inj (hattends.planned.symm.trans hplan)
  refine ⟨fun run database' hclaim => ?_, hfrozen, htraced.started stored hstored plan hplan,
    fun index execution run plan' counts hindex hid hprogress hclean => ?_⟩
  · obtain ⟨claimed, hclaimed, hid, hjson, hclaimedHash⟩ := planHash_of_claim hclaim
    obtain rfl := hkeyed.eq hclaimed hstored hid
    exact ⟨hjson.trans hplan, hclaimedHash.trans hhash⟩
  · obtain rfl := hfrozen index execution run plan' _ hindex hid hprogress
    have hreachable := htraced.attended _ _ _ _ _ hindex hprogress
    rw [hid] at hreachable
    exact startedItems_of_finalizing hreachable hclean

/-- A run keeps its frozen columns in all later states. -/
theorem frozen_of_later {log' : List (Int × ExecutionEvent)} {system' : System}
    (h : ((loggedOrchestrator digests).startingAt (log, system)).Reachable (log', system'))
    {stored : DeploymentRun} (hstored : stored ∈ system.database.runs) :
    ∃ kept ∈ system'.database.runs, kept.frozen = stored.frozen := by
  refine h.invariant (P := fun s : List (Int × ExecutionEvent) × System =>
    ∃ kept ∈ s.2.database.runs, kept.frozen = stored.frozen) ?_ ?_
  · rintro start hstart
    obtain rfl : start = (log, system) := hstart
    exact ⟨stored, hstored, rfl⟩
  · rintro ⟨log, before⟩ action ⟨log', after⟩ - - ⟨kept, hkept, hfrozen⟩ hstep
    obtain ⟨hstep', -⟩ := step_logged_eq_some.mp hstep
    obtain ⟨kept', hkept', hfrozen'⟩ := frozen_kept (steps_of_step hstep') hkept
    exact ⟨kept', hkept', hfrozen'.trans hfrozen⟩

end Executions

/-- A call of `create_run` that fails changes nothing. When it succeeds, the plan with the hash
that was passed is the one computed from the database of the transaction, provided that no other
document has this hash; it is stored so that it is read back as it was, with one result for each
of its items; and whatever happens later, the executions of the run start its items. -/
theorem confirmed_plan_runs {text : JsonText} (htext : text.RoundTrips) (digests : Digests)
    (faults : CreateRunStatement → Option String) (input : CreateDeploymentRunInput)
    (database database' : Database) :
    (∀ error, createRunCall digests text faults input database = (.error error, database') →
      database' = database) ∧
    ∀ created, createRunCall digests text faults input database = (.ok created, database') →
      database.loadDeploymentPlan digests input.environmentId input.appReleaseId input.mode =
        .ok created.plan ∧
      created.plan.planHash = input.expectedPlanHash ∧
      (∀ (seen : Database) environmentId appReleaseId mode previewed,
        seen.loadDeploymentPlan digests environmentId appReleaseId mode = .ok previewed →
        previewed.planHash = input.expectedPlanHash →
        (∀ document, digests.planHash document = input.expectedPlanHash →
          document = created.plan.toPlanHashDocument) → previewed = created.plan) ∧
      (∃ run written, database'.runs = database.runs ++ [run] ∧
        run.id = created.deploymentRunId ∧ created.plan.write text = .ok written ∧
        run.planJson = DeploymentPlan.read text written ∧ run.planJson = .ok created.plan) ∧
      database'.unitResults =
        database.unitResults ++ created.plan.items.map (newUnitResult created.deploymentRunId) ∧
      (created.plan.items.map (·.unitId)).Nodup ∧
      ∀ log system, Reachable (loggedOrchestrator digests) (log, system) →
        system.database = database → system.serving = true → ∀ log' system',
        ((loggedOrchestrator digests).startingAt
          (log, { system with database := database' })).Reachable (log', system') →
        ExecutesPlan created.plan created.deploymentRunId log' system' := by
  refine ⟨fun error h => ?_, fun created h => ?_⟩
  · have hunchanged := Statements.transact_eq_error (congrArg Prod.fst h)
    exact (congrArg Prod.snd h).symm.trans hunchanged
  · obtain ⟨hcreate, hhash, written, hwrite⟩ := createRun_of_call htext h
    obtain ⟨plan, -, hplan, hinsert⟩ := Database.createRun_eq_ok hcreate
    obtain ⟨rfl, rfl⟩ := Prod.mk.inj hinsert
    obtain ⟨planInput, -, hbuilt⟩ := Database.loadDeploymentPlan_eq_ok hplan
    refine ⟨hplan, hhash, ?_, ⟨_, written, rfl, rfl, hwrite, ?_, rfl⟩, rfl,
      unitIds_nodup_of_plan hbuilt, ?_⟩
    · intro seen environmentId appReleaseId mode previewed hpreviewed hsame hcollision
      obtain ⟨seenInput, -, hseen⟩ := Database.loadDeploymentPlan_eq_ok hpreviewed
      refine plan_ext hpreviewed hplan (hcollision _ ?_)
      rw [← planHash_of_plan hseen, hsame]
    · exact (DeploymentPlan.read_of_write htext hwrite).symm
    · rintro log system hreachable rfl hserving log' system' hlater
      have hstep : (loggedOrchestrator digests).step (log, system) (.createRun input) =
          some (log, { system with database := (system.database.insertRun input plan).2 }) := by
        refine step_logged_eq_some.mpr ⟨?_, List.append_nil log⟩
        show System.step digests system (.createRun input) = _
        rw [System.step, if_pos hserving, hcreate]
        rfl
      obtain ⟨kept, hkept, hfrozen⟩ := frozen_of_later hlater
        (List.mem_append_right _ List.mem_cons_self)
      have hid : kept.id = nextId (system.database.runs.map (·.id)) :=
        congrArg FrozenRun.id hfrozen
      show ExecutesPlan plan (nextId (system.database.runs.map (·.id))) log' system'
      rw [← hid]
      exact executesPlan_of_stored ((hreachable.next trivial hstep).of_startingAt hlater) hkept
        (congrArg FrozenRun.planJson hfrozen) (congrArg FrozenRun.planHash hfrozen)

section Confirmed

def confirmedItem : DeploymentPlanItem :=
  { unitId := 1, unitKey := "api", unitReleaseId := some 1, releaseVersion := some "1.0.0"
    stageNo := 1, unitOrder := 1, removalOrder := 1, action := .start
    reason := "目标节点尚未部署该单元", targetFingerprint := "one", previousFingerprint := "" }

def confirmedPlan : DeploymentPlan :=
  { appId := 1, environmentId := 1, appReleaseId := 1, configRevisionId := 1, mode := .normal
    targetNodeIds := [1], items := [confirmedItem], planHash := "plan" }

/-- Only the previewed document has its hash. -/
def confirmedDigests : Digests :=
  ⟨fun document => if document = confirmedPlan.toPlanHashDocument then "plan" else "other",
    fun fingerprint _ => fingerprint⟩

def confirmedText : String :=
  "\x7b\"app_id\":1,\"environment_id\":1,\"app_release_id\":1,\"config_revision_id\":1," ++
    "\"mode\":\"normal\",\"target_node_ids\":[1],\"items\":[\x7b\"unit_id\":1," ++
    "\"unit_key\":\"api\",\"unit_release_id\":1,\"release_version\":\"1.0.0\"," ++
    "\"stage_no\":1,\"unit_order\":1,\"removal_order\":1,\"action\":\"start\"," ++
    "\"reason\":\"目标节点尚未部署该单元\",\"target_fingerprint\":\"one\"," ++
    "\"previous_fingerprint\":\"\"\x7d],\"plan_hash\":\"plan\"\x7d"

/-- A codec of this one text. -/
def confirmedCodec : JsonText where
  toString value := if value = confirmedPlan.toJson then .ok confirmedText else .error "other value"
  fromStr written := if written = confirmedText then .ok confirmedPlan.toJson else .error "other text"

theorem roundTrips_confirmedCodec : confirmedCodec.RoundTrips := by
  intro value written h
  simp only [confirmedCodec] at h ⊢
  split at h
  · rename_i hvalue
    rw [← Except.ok.inj h, if_pos rfl, hvalue]
  · cases h

/-- The preview is confirmed, and its plan is the one of the run. -/
theorem confirmed_plan_runs_preview : ∃ created database',
    createRunCall confirmedDigests confirmedCodec (fun _ => none)
      ⟨1, 1, .normal, "plan", "operator"⟩ Sample.installation.database = (.ok created, database') ∧
    confirmedPlan = created.plan ∧
    database'.unitResults = created.plan.items.map (newUnitResult created.deploymentRunId) := by
  have hpreview : Sample.installation.database.loadDeploymentPlan confirmedDigests 1 1 .normal =
      .ok confirmedPlan := by
    decide
  obtain ⟨result, hresult⟩ : ∃ result, createRunCall confirmedDigests confirmedCodec (fun _ => none)
      ⟨1, 1, .normal, "plan", "operator"⟩ Sample.installation.database = result := ⟨_, rfl⟩
  have hok : result.1.isOk = true := by
    rw [← hresult]
    decide
  obtain ⟨value, database'⟩ := result
  cases value with
  | error error => cases hok
  | ok created =>
      obtain ⟨hplan, -, hsame, -, hresults, -⟩ := (confirmed_plan_runs roundTrips_confirmedCodec
        confirmedDigests (fun _ => none) ⟨1, 1, .normal, "plan", "operator"⟩
        Sample.installation.database database').2 created hresult
      have hcreated : confirmedPlan = created.plan := Except.ok.inj (hpreview.symm.trans hplan)
      refine ⟨created, database', hresult, ?_, hresults⟩
      refine hsame Sample.installation.database 1 1 .normal confirmedPlan hpreview rfl
        fun document hhash => ?_
      rw [← hcreated]
      by_contra hne
      have hother : confirmedDigests.planHash document = "other" := if_neg hne
      rw [hother] at hhash
      exact absurd hhash (by decide)

end Confirmed

end EasyDeploy.Orchestrator
