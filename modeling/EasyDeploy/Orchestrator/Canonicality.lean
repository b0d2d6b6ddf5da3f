import EasyDeploy.Orchestrator.Plan

/-!
# Plans do not depend on the order of what they are built from

A plan is compared with a preview by its hash only. The target nodes enter it
sorted and without repetitions, the node states by their keys, and the items
sorted by keys that hold the units, so that one plan comes of all orders.
-/

namespace EasyDeploy.Orchestrator
open Foundation

/-- The target unit may be deployed. -/
structure TargetUnitState.Valid (target : TargetUnitState) : Prop where
  status : target.desiredStatus = "active" ∨ target.desiredStatus = "disabled"
  release : ¬ (target.desiredStatus = "active" ∧ target.unitReleaseId.isNone = true)

section Items

variable {mode : DeploymentMode} {currentStates : List CurrentUnitNodeState}
  {targetNodeIds seen : List Int} {targets : List TargetUnitState}

/-- Distinct valid target units are accepted, and no others. -/
theorem planItems_eq_ok_iff {items : List DeploymentPlanItem} :
    planItems mode currentStates targetNodeIds seen targets = .ok items ↔
      items = targets.map (planItem mode currentStates targetNodeIds) ∧
        (targets.map (·.unitId)).Nodup ∧ (∀ target ∈ targets, target.unitId ∉ seen) ∧
        ∀ target ∈ targets, target.Valid := by
  induction targets generalizing seen items with
  | nil =>
      rw [planItems, Except.ok.injEq]
      simp [eq_comm]
  | cons target targets ih =>
      constructor
      · intro h
        obtain ⟨hitems, hnodup, hfresh⟩ := planItems_eq_ok h
        refine ⟨hitems, hnodup, hfresh, ?_⟩
        simp only [planItems] at h
        split at h
        · cases h
        · split at h
          · cases h
          · rename_i hstatus
            split at h
            · cases h
            · rename_i hrelease
              split at h
              · rename_i rest hrest
                intro other hother
                rcases List.mem_cons.mp hother with rfl | hother
                · exact ⟨not_not.mp hstatus, hrelease⟩
                · exact (ih.mp hrest).2.2.2 other hother
              · cases h
      · rintro ⟨rfl, hnodup, hfresh, hvalid⟩
        obtain ⟨hnew, hnodup⟩ := List.nodup_cons.mp hnodup
        have hhead := hvalid target List.mem_cons_self
        have hrest : planItems mode currentStates targetNodeIds (target.unitId :: seen) targets =
            .ok (targets.map (planItem mode currentStates targetNodeIds)) := by
          refine ih.mpr ⟨rfl, hnodup, fun other hother hmem => ?_,
            fun other hother => hvalid other (List.mem_cons_of_mem _ hother)⟩
          rcases List.mem_cons.mp hmem with heq | hmem
          · exact hnew (List.mem_map.mpr ⟨other, hother, heq⟩)
          · exact hfresh other (List.mem_cons_of_mem _ hother) hmem
        rw [planItems, if_neg (hfresh target List.mem_cons_self),
          if_neg (not_not.mpr hhead.status), if_neg hhead.release, hrest, List.map_cons]

/-- Node states are looked up by their keys. -/
theorem statesOf_perm {currentStates' : List CurrentUnitNodeState}
    (hnodup : (currentStates.map fun state => (state.unitId, state.nodeId)).Nodup)
    (h : currentStates.Perm currentStates') (targetNodeIds : List Int) (unitId : Int) :
    statesOf currentStates targetNodeIds unitId = statesOf currentStates' targetNodeIds unitId := by
  refine List.filterMap_congr fun nodeId _ => ?_
  rw [← List.head?_filter, ← List.head?_filter]
  refine congrArg List.head? ?_
  have hperm := h.filter fun state => state.unitId == unitId && state.nodeId == nodeId
  have hshort : (currentStates.filter fun state =>
      state.unitId == unitId && state.nodeId == nodeId).length ≤ 1 := by
    rw [← List.countP_eq_length_filter]
    have hcount := List.nodup_iff_count_le_one.mp hnodup (unitId, nodeId)
    rw [List.count, List.countP_map] at hcount
    refine le_of_eq_of_le (List.countP_congr fun state _ => ?_) hcount
    simp
  match hlist : currentStates.filter fun state =>
      state.unitId == unitId && state.nodeId == nodeId with
  | [] =>
      rw [hlist] at hperm
      exact hlist.trans hperm.nil_eq
  | [state] =>
      rw [hlist] at hperm
      exact hlist.trans hperm.singleton_eq
  | _ :: _ :: _ =>
      rw [hlist] at hshort
      simp at hshort

end Items

/-- The target nodes of a plan depend on which nodes there are only. -/
theorem dedup_sort_congr {nodeIds nodeIds' : List Int}
    (h : ∀ nodeId, nodeId ∈ nodeIds ↔ nodeId ∈ nodeIds') :
    dedup (sortBy intLe nodeIds) = dedup (sortBy intLe nodeIds') := by
  have hsorted (nodeIds : List Int) : (dedup (sortBy intLe nodeIds)).Pairwise
      fun a b => a ≤ b ∧ a ≠ b := by
    refine pairwise_dedup (fun a b => le_antisymm) ?_
    refine (pairwise_sortBy (fun a b c => ?_) fun a b => ?_).imp fun hle => of_decide_eq_true hle
    · simp only [decide_eq_true_eq]
      omega
    · simp only [Bool.or_eq_true, decide_eq_true_eq]
      omega
  have hnodup (nodeIds : List Int) : (dedup (sortBy intLe nodeIds)).Nodup :=
    (hsorted nodeIds).imp fun hlt => hlt.2
  refine List.Perm.eq_of_pairwise (fun a b _ _ hab hba => le_antisymm hab.1 hba.1)
    (hsorted nodeIds) (hsorted nodeIds') ?_
  exact (List.perm_ext_iff_of_nodup (hnodup _) (hnodup _)).mpr fun nodeId => by simp [h nodeId]

/-- Of two items of different units only one comes first. -/
theorem unitId_eq_of_itemLe {item item' : DeploymentPlanItem} (h : itemLe item item' = true)
    (h' : itemLe item' item = true) : item.unitId = item'.unitId := by
  have hunit (item : DeploymentPlanItem) : item.sortKey.2.2.2 = item.unitId := by
    unfold DeploymentPlanItem.sortKey
    split <;> rfl
  simp only [itemLe, keyLe, decide_eq_true_eq] at h h'
  rw [← hunit item, ← hunit item']
  omega

/-- The first item may be executed before the later one: stop units first, from later stages to
earlier ones and by their removal orders, then the others by stages and orders. -/
structure MayPrecede (first later : DeploymentPlanItem) : Prop where
  stop : later.action = .stop → first.action = .stop ∧
    (later.stageNo < first.stageNo ∨ later.stageNo = first.stageNo ∧
      later.removalOrder ≤ first.removalOrder)
  other : first.action ≠ .stop → later.action ≠ .stop ∧
    (first.stageNo < later.stageNo ∨ first.stageNo = later.stageNo ∧
      first.unitOrder ≤ later.unitOrder)

theorem mayPrecede_of_itemLe {first later : DeploymentPlanItem} (h : itemLe first later = true) :
    MayPrecede first later := by
  have hkey (item : DeploymentPlanItem) : item.sortKey =
      if item.action = .stop then (0, -item.stageNo, -item.removalOrder, item.unitId)
      else (1, - -item.stageNo, - -item.unitOrder, item.unitId) := by
    cases hlabel : item.action <;> simp [DeploymentPlanItem.sortKey, hlabel]
  simp only [itemLe, keyLe, decide_eq_true_eq, hkey] at h
  by_cases hfirst : first.action = .stop <;> by_cases hlater : later.action = .stop <;>
    simp only [hfirst, hlater, if_true, if_false] at h <;>
    refine ⟨fun hstop => ?_, fun hstop => ?_⟩ <;> simp_all <;> omega

section Plans

variable {digests : Digests} {input : DeploymentPlanInput}

/-- What the plan of an accepted input covers with its hash. -/
def planDocument (input : DeploymentPlanInput) : PlanHashDocument :=
  let targetNodeIds := dedup (sortBy intLe input.targetNodeIds)
  { appId := input.appId, environmentId := input.environmentId, appReleaseId := input.appReleaseId
    configRevisionId := input.configRevisionId, mode := input.mode, targetNodeIds
    items := sortBy itemLe (input.targetUnits.map
      (planItem input.mode input.currentStates targetNodeIds)) }

/-- The input has target nodes and units, each unit once, and each node state once. -/
structure DeploymentPlanInput.Accepted (input : DeploymentPlanInput) : Prop where
  nodes : input.targetNodeIds ≠ []
  units : input.targetUnits ≠ []
  states : (input.currentStates.map fun state => (state.unitId, state.nodeId)).Nodup
  unitIds : (input.targetUnits.map (·.unitId)).Nodup
  valid : ∀ target ∈ input.targetUnits, target.Valid

/-- Accepted inputs have a plan, and no others. -/
theorem buildDeploymentPlan_eq_ok_iff {plan : DeploymentPlan} :
    buildDeploymentPlan digests input = .ok plan ↔ input.Accepted ∧
      plan = { planDocument input with planHash := digests.planHash (planDocument input) } := by
  constructor
  · intro h
    simp only [buildDeploymentPlan] at h
    split at h
    · cases h
    · rename_i hnodes
      split at h
      · cases h
      · rename_i hunits
        split at h
        · cases h
        · rename_i hstates
          split at h
          · cases h
          · rename_i items hitems
            obtain rfl := Except.ok.inj h
            obtain ⟨rfl, hnodup, -, hvalid⟩ := planItems_eq_ok_iff.mp hitems
            refine ⟨⟨fun heq => ?_, fun heq => ?_, not_not.mp hstates, hnodup, hvalid⟩, rfl⟩
            · exact hnodes (List.isEmpty_iff.mpr heq)
            · exact hunits (List.isEmpty_iff.mpr heq)
  · rintro ⟨haccepted, rfl⟩
    let nodeIds := dedup (sortBy intLe input.targetNodeIds)
    have hitems : planItems input.mode input.currentStates nodeIds [] input.targetUnits =
        .ok (input.targetUnits.map (planItem input.mode input.currentStates nodeIds)) :=
      planItems_eq_ok_iff.mpr
        ⟨rfl, haccepted.unitIds, fun _ _ => List.not_mem_nil, haccepted.valid⟩
    simp only [buildDeploymentPlan]
    rw [if_neg (fun heq => haccepted.nodes (List.isEmpty_iff.mp heq)),
      if_neg (fun heq => haccepted.units (List.isEmpty_iff.mp heq)),
      if_neg (not_not.mpr haccepted.states), hitems]
    rfl

/-- Two inputs that differ in the order of units and node states, and in the order and the
repetition of nodes, at most. -/
structure Rearranged (input input' : DeploymentPlanInput) : Prop where
  appId : input'.appId = input.appId
  environmentId : input'.environmentId = input.environmentId
  appReleaseId : input'.appReleaseId = input.appReleaseId
  configRevisionId : input'.configRevisionId = input.configRevisionId
  mode : input'.mode = input.mode
  nodes : ∀ nodeId, nodeId ∈ input.targetNodeIds ↔ nodeId ∈ input'.targetNodeIds
  units : input.targetUnits.Perm input'.targetUnits
  states : input.currentStates.Perm input'.currentStates

theorem Rearranged.symm {input' : DeploymentPlanInput} (h : Rearranged input input') :
    Rearranged input' input where
  appId := h.appId.symm
  environmentId := h.environmentId.symm
  appReleaseId := h.appReleaseId.symm
  configRevisionId := h.configRevisionId.symm
  mode := h.mode.symm
  nodes nodeId := (h.nodes nodeId).symm
  units := h.units.symm
  states := h.states.symm

theorem Rearranged.accepted {input' : DeploymentPlanInput} (h : Rearranged input input')
    (haccepted : input.Accepted) : input'.Accepted where
  nodes heq := by
    obtain ⟨nodeId, hmem⟩ := List.exists_mem_of_ne_nil _ haccepted.nodes
    exact List.not_mem_nil (heq ▸ (h.nodes nodeId).mp hmem)
  units heq := haccepted.units (heq ▸ h.units).eq_nil
  states := (h.states.map _).nodup_iff.mp haccepted.states
  unitIds := (h.units.map _).nodup_iff.mp haccepted.unitIds
  valid target hmem := haccepted.valid target (h.units.mem_iff.mpr hmem)

theorem Rearranged.planDocument {input' : DeploymentPlanInput} (h : Rearranged input input')
    (haccepted : input.Accepted) : planDocument input = Orchestrator.planDocument input' := by
  have hitem : planItem input.mode input'.currentStates (dedup (sortBy intLe input.targetNodeIds))
      = planItem input.mode input.currentStates (dedup (sortBy intLe input.targetNodeIds)) := by
    funext target
    simp only [planItem, ← statesOf_perm haccepted.states h.states]
  simp only [Orchestrator.planDocument, ← h.appId, ← h.environmentId, ← h.appReleaseId,
    ← h.configRevisionId, ← dedup_sort_congr h.nodes, hitem, h.mode]
  congr 1
  refine sortBy_congr itemLe_trans itemLe_total (h.units.map _) ?_
  intro item hitem item' hitem' hle hle'
  obtain ⟨target, htarget, rfl⟩ := List.mem_map.mp hitem
  obtain ⟨target', htarget', rfl⟩ := List.mem_map.mp hitem'
  have hunit : target.unitId = target'.unitId := unitId_eq_of_itemLe hle hle'
  rw [List.inj_on_of_nodup_map haccepted.unitIds htarget htarget' hunit]

/-- A plan and its hash do not depend on the order of nodes, units and node states, and an input
is refused in every order or in none. An accepted plan has the target units, each once, in an
order in which they may be executed. -/
theorem plan_canonical (digests : Digests) (input : DeploymentPlanInput) :
    (∀ input', Rearranged input input' →
      (buildDeploymentPlan digests input').toOption =
        (buildDeploymentPlan digests input).toOption) ∧
    ∀ plan, buildDeploymentPlan digests input = .ok plan →
      (plan.items.map (·.unitId)).Perm (input.targetUnits.map (·.unitId)) ∧
      (plan.items.map (·.unitId)).Nodup ∧ plan.items.Pairwise MayPrecede := by
  refine ⟨fun input' h => ?_, fun plan hplan => ⟨?_, unitIds_nodup_of_plan hplan, ?_⟩⟩
  · by_cases haccepted : input.Accepted
    · rw [buildDeploymentPlan_eq_ok_iff.mpr ⟨haccepted, rfl⟩,
        buildDeploymentPlan_eq_ok_iff.mpr ⟨h.accepted haccepted, rfl⟩, h.planDocument haccepted]
    · have hrefused {input : DeploymentPlanInput} (hrefuse : ¬ input.Accepted) :
          (buildDeploymentPlan digests input).toOption = none := by
        match hbuild : buildDeploymentPlan digests input with
        | .ok plan => exact absurd (buildDeploymentPlan_eq_ok_iff.mp hbuild).1 hrefuse
        | .error error => rfl
      rw [hrefused haccepted, hrefused fun haccepted' => haccepted (h.symm.accepted haccepted')]
  · obtain ⟨-, -, hitems, -⟩ := buildDeploymentPlan_eq_ok hplan
    rw [hitems]
    refine (sortBy_perm.map _).trans ?_
    rw [List.map_map]
    exact .refl _
  · exact (pairwise_items hplan).imp mayPrecede_of_itemLe

namespace Sample

/-- Three units of release two for two nodes, on which release one of a fourth unit is deployed as
well. -/
def rebuild : DeploymentPlanInput :=
  { appId := 1, environmentId := 1, appReleaseId := 2, configRevisionId := 1, mode := .normal
    targetNodeIds := [2, 1, 2]
    targetUnits := [⟨1, "api", some 2, some "2.0.0", some 2, "active", 2, 1, 1, "two"⟩,
      ⟨3, "web", some 3, some "2.0.0", some 2, "active", 2, 2, 1, "three"⟩,
      ⟨4, "db", some 4, some "2.0.0", some 2, "active", 1, 1, 2, "four"⟩]
    currentStates := [⟨1, 1, .healthy, some 1, some 1, "one", "1.0.0"⟩,
      ⟨2, 1, .healthy, some 7, some 1, "seven", "1.0.0"⟩] }

/-- The same in another order. -/
def rebuildRearranged : DeploymentPlanInput :=
  { rebuild with
    targetNodeIds := [1, 2], targetUnits := rebuild.targetUnits.reverse
    currentStates := rebuild.currentStates.reverse }

theorem rearranged_rebuild : Rearranged rebuild rebuildRearranged where
  appId := rfl
  environmentId := rfl
  appReleaseId := rfl
  configRevisionId := rfl
  mode := rfl
  nodes nodeId := by
    simp only [rebuild, rebuildRearranged, List.mem_cons, List.not_mem_nil]
    tauto
  units := (List.reverse_perm _).symm
  states := (List.reverse_perm _).symm

end Sample

/-- The nodes, the units and the node states of a plan are reordered. -/
theorem plan_canonical_rebuild : ∃ digests plan,
    buildDeploymentPlan digests Sample.rebuild = .ok plan ∧
      (buildDeploymentPlan digests Sample.rebuildRearranged).toOption = some plan ∧
      plan.items.Pairwise MayPrecede := by
  let digests : Digests := ⟨fun _ => "plan", fun fingerprint _ => fingerprint⟩
  have hbuild : buildDeploymentPlan digests Sample.rebuild = .ok _ := rfl
  refine ⟨digests, _, hbuild, ?_, ((plan_canonical digests _).2 _ hbuild).2.2⟩
  exact (plan_canonical digests _).1 _ Sample.rearranged_rebuild

/-- Units that a release does not hold stay out of its plan, also while they are deployed. -/
theorem deployed_unit_unplanned : ¬ ∀ digests input plan,
    buildDeploymentPlan digests input = .ok plan →
      ∀ state ∈ input.currentStates, ∃ item ∈ plan.items, item.unitId = state.unitId := by
  intro h
  let digests : Digests := ⟨fun _ => "plan", fun fingerprint _ => fingerprint⟩
  obtain ⟨item, hitem, hunit⟩ := h digests Sample.rebuild _ rfl
    ⟨2, 1, .healthy, some 7, some 1, "seven", "1.0.0"⟩ (List.mem_cons_of_mem _ List.mem_cons_self)
  have hplanned : item.unitId ∈ [4, 1, 3] := List.mem_map.mpr ⟨item, hitem, rfl⟩
  rw [hunit] at hplanned
  revert hplanned
  decide

end Plans

end EasyDeploy.Orchestrator
