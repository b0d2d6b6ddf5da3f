import EasyDeploy.Apps.Settings
import EasyDeploy.Foundation.Results

/-!
# Edits of the settings

`update_app_metadata` writes the compose file, the environment file and the
scripts again, the scripts without their contents, and an edit that fails behind
its first write leaves what it has written. Both operations do as they should
exactly when the files are already what is written.
-/

namespace EasyDeploy.Apps
open Foundation

variable {renderings : Renderings} {normalizers : Normalizers} {faults : Faults} {site : Site}
  {edit : Edit} {app : AppDetailItem}

/-- The stem of a unit file is its name without the suffix. -/
theorem unitStem_append (stem : String) : unitStem (stem ++ ".service") = stem := by
  have hlist : (stem ++ ".service").toList = stem.toList ++ ".service".toList :=
    String.toList_append
  have hlength : ".service".toList.length = 8 := by decide
  rw [unitStem, if_pos (by rw [hlist]; exact List.suffix_append _ _), hlist, List.rdrop,
    List.length_append, hlength, Nat.add_sub_cancel, List.take_left, String.ofList_toList]

/-- The name of an accepted unit file is its stem with the suffix. -/
theorem eq_unitStem_append {unitName : String} (h : validateUnitFileName unitName = .ok ()) :
    ∃ stem, unitName = stem ++ ".service" := by
  rw [validateUnitFileName] at h
  split at h
  · rename_i hvalid
    obtain ⟨stem, hstem⟩ := hvalid.2.1
    refine ⟨String.ofList stem, String.toList_inj.mp ?_⟩
    rw [String.toList_append, String.toList_ofList, hstem]
  · cases h

theorem append_left_injective (stem : String) : Function.Injective (stem ++ ·) := by
  intro left right h
  have hlist := congrArg String.toList h
  simp only [String.toList_append] at hlist
  exact String.toList_inj.mp (List.append_cancel_left hlist)

/-- A file is written once. -/
theorem nodup_binarySteps (app : AppDetailItem) (config : BinaryConfigItem) :
    ((saveBinaryRuntimeFiles renderings app config).filterMap WriteStep.key?).Nodup := by
  rw [saveBinaryRuntimeFiles]
  split
  · exact List.nodup_nil
  · rename_i hvalid
    have hunit : validateUnitFileName config.unitName = .ok () := by
      cases hkey : validateKey app.appKey with
      | error message =>
          rw [hkey] at hvalid
          cases hvalid
      | ok =>
          cases hrelease : validateReleaseId config.artifactVersion with
          | error message =>
              rw [hkey, hrelease] at hvalid
              cases hvalid
          | ok =>
              rw [hkey, hrelease] at hvalid
              exact hvalid
    obtain ⟨stem, hstem⟩ := eq_unitStem_append hunit
    have hslot (slot : String) : blueGreenUnitName config.unitName slot =
        stem ++ ("-" ++ slot) ++ ".service" := by
      rw [blueGreenUnitName, hstem, unitStem_append, ← String.append_assoc, ← String.append_assoc]
    have hkeys : ([".service", ".env", "-blue" ++ ".service", "-blue" ++ ".env",
        "-green" ++ ".service", "-green" ++ ".env"].map (stem ++ ·)).Nodup :=
      List.Nodup.map (append_left_injective stem) (by decide)
    rw [unitEnvFileName, unitEnvFileName, unitEnvFileName, hslot, hslot, unitStem_append,
      unitStem_append, hstem, unitStem_append]
    simp only [List.map_cons, List.map_nil, ← String.append_assoc] at hkeys
    simp only [writeFile, List.filterMap_cons, WriteStep.key?, List.filterMap_nil]
    simp [List.nodup_cons] at hkeys ⊢
    exact hkeys

/-- The files that the service makes are not those that are configured. -/
theorem not_configured_of_binarySteps {config : BinaryConfigItem} {path : RuntimePath}
    (h : path ∈ (saveBinaryRuntimeFiles renderings app config).filterMap WriteStep.key?) :
    path.configured = false ∧ path ≠ .metadata := by
  rw [saveBinaryRuntimeFiles] at h
  split at h
  · cases h
  · simp only [writeFile, List.filterMap_cons, WriteStep.key?, List.filterMap_nil,
      List.mem_cons, List.not_mem_nil, or_false] at h
    rcases h with rfl | rfl | rfl | rfl | rfl | rfl | rfl | rfl <;> exact ⟨rfl, by simp⟩

/-- The files of an application are written to different places. -/
theorem nodup_steps (composeContent envContent metadataContent : String)
    (deployScripts : DeployScriptSet) (config : Option BinaryConfigItem) :
    ((saveAppRuntimeFilesWithScripts composeContent envContent metadataContent deployScripts ++
      (config.map (saveBinaryRuntimeFiles renderings app)).getD []).filterMap
        WriteStep.key?).Nodup := by
  have hkeys : (saveAppRuntimeFilesWithScripts composeContent envContent metadataContent
      deployScripts).filterMap WriteStep.key? =
      [.compose, .env, .script .preDeploy, .script .deploy, .script .postDeploy,
        .script .switchTraffic, .script .cleanup, .metadata] := rfl
  rw [List.filterMap_append, hkeys]
  cases config with
  | none =>
      rw [Option.map_none, Option.getD_none, List.filterMap_nil, List.append_nil]
      decide
  | some config =>
      rw [Option.map_some, Option.getD_some]
      apply List.Nodup.append (by decide) (nodup_binarySteps app config)
      intro path hpath hbinary
      obtain ⟨hmade, hmetadata⟩ := not_configured_of_binarySteps hbinary
      simp only [List.mem_cons, List.not_mem_nil, or_false] at hpath
      rcases hpath with rfl | rfl | rfl | rfl | rfl | rfl | rfl | rfl <;>
        first | exact hmetadata rfl | cases hmade

/-- Something behind the checks fails. -/
def Edit.Fails (faults : Faults) (edit : Edit) : Prop :=
  (∃ step ∈ edit.steps, step.error faults.files ≠ none) ∨ faults.transaction ≠ none

/-- Each write that is reached finds what it leaves. -/
def Edit.Idle (faults : Faults) (edit : Edit) (site : Site) : Prop :=
  Foundation.Idle faults.files (site.files edit.appKey) edit.steps

/-- A call that fails leaves everything as it was. -/
def FailsCleanly (result : Except SettingsError Unit × Site) (site : Site) : Prop :=
  ∀ error, result.1 = .error error → result.2 = site

/-- An edit that does not fail writes all files and commits its tables. -/
theorem Edit.apply_of_not_fails (h : ¬ edit.Fails faults) :
    edit.apply faults site = (.ok (),
      { files := Function.update site.files edit.appKey
          (runWrites faults.files edit.steps (site.files edit.appKey)).2
        tables := edit.effect site.tables }) := by
  rw [Edit.Fails, not_or, not_not] at h
  have hnone : (runWrites faults.files edit.steps (site.files edit.appKey)).1 = none := by
    apply runWrites_eq_none_iff.mpr
    intro step hstep
    by_contra hfault
    exact h.1 ⟨step, hstep, hfault⟩
  simp only [Edit.apply, hnone, h.2]

/-- An edit that fails commits no table. -/
theorem Edit.apply_of_fails (h : edit.Fails faults) :
    ∃ error, edit.apply faults site = (.error error,
      { site with
        files := Function.update site.files edit.appKey
          (runWrites faults.files edit.steps (site.files edit.appKey)).2 }) := by
  cases hresult : (runWrites faults.files edit.steps (site.files edit.appKey)).1 with
  | some message => exact ⟨.runtime message, by simp only [Edit.apply, hresult]⟩
  | none =>
      cases htransaction : faults.transaction with
      | some message => exact ⟨.database message, by simp only [Edit.apply, hresult, htransaction]⟩
      | none =>
          rcases h with ⟨step, hstep, hfault⟩ | hfault
          · exact absurd (runWrites_eq_none_iff.mp hresult step hstep) hfault
          · exact absurd htransaction hfault

/-- The site is as it was when the files are. -/
theorem files_update_iff {store : RuntimeStore} {appKey : String} :
    ({ site with files := Function.update site.files appKey store } : Site) = site ↔
      store = site.files appKey := by
  constructor
  · intro h
    have hfiles : Function.update site.files appKey store appKey = site.files appKey :=
      congrFun (congrArg Site.files h) appKey
    rwa [Function.update_self] at hfiles
  · rintro rfl
    rw [Function.update_eq_self]

/-- An edit fails cleanly exactly when its writes have nothing to change or nothing fails. -/
theorem Edit.failsCleanly_iff (hkeys : (edit.steps.filterMap WriteStep.key?).Nodup) :
    FailsCleanly (edit.apply faults site) site ↔ (edit.Fails faults → edit.Idle faults site) := by
  by_cases hfails : edit.Fails faults
  · obtain ⟨error, heq⟩ : ∃ error, edit.apply faults site = (.error error, _) :=
      edit.apply_of_fails hfails
    rw [heq]
    constructor
    · intro h _
      exact (runWrites_eq_self_iff hkeys).mp (files_update_iff.mp (h error rfl))
    · intro h other hother
      exact files_update_iff.mpr ((runWrites_eq_self_iff hkeys).mpr (h hfails))
  · rw [Edit.apply_of_not_fails hfails]
    constructor
    · intro _ hfalse
      exact absurd hfalse hfails
    · intro _ error herror
      cases herror

/-- The checks change nothing. -/
theorem performEdit_failsCleanly_iff {result : Except SettingsError Edit}
    (hkeys : ∀ edit, result = .ok edit → (edit.steps.filterMap WriteStep.key?).Nodup) :
    FailsCleanly (performEdit faults result site) site ↔
      ∀ edit, faults.read = none → result = .ok edit →
        edit.Fails faults → edit.Idle faults site := by
  unfold performEdit
  cases hread : faults.read with
  | some message =>
      constructor
      · intro _ edit hnone
        cases hnone
      · intro _ error _
        rfl
  | none =>
      cases result with
      | error error =>
          constructor
          · intro _ edit _ hok
            cases hok
          · intro _ other _
            rfl
      | ok edit =>
          rw [Edit.failsCleanly_iff (hkeys edit rfl)]
          constructor
          · intro h other _ hother
            obtain rfl := Except.ok.inj hother
            exact h
          · intro h
            exact h edit rfl rfl

/-- The columns of an application that its settings have. -/
def EditedApp (appId : Int) (old new : AppDetailItem) : Prop :=
  if old.id = appId then
    new = { old with
      name := new.name, description := new.description, environment := new.environment
      workDir := new.workDir, deployStrategy := new.deployStrategy
      releaseSource := new.releaseSource, autoQueueRelease := new.autoQueueRelease }
  else new = old

/-- The configured files are as before, and the rows only change in the edited columns and in the
targets of the application. -/
structure OnlySettingsChange (app : AppDetailItem) (before after : Site) : Prop where
  files : ∀ appKey path, appKey ≠ app.appKey ∨ path.configured = true →
    after.files appKey path = before.files appKey path
  apps : List.Forall₂ (EditedApp app.id) before.tables.apps after.tables.apps
  nodes : after.tables.nodes = before.tables.nodes
  activeTasks : after.tables.activeTasks = before.tables.activeTasks
  targets : after.tables.targets.filter (fun target => target.1 != app.id) =
    before.tables.targets.filter fun target => target.1 != app.id
  runtimeStates : after.tables.runtimeStates.filter (fun state => state.appId != app.id) =
    before.tables.runtimeStates.filter fun state => state.appId != app.id
  environments : ∀ row ∈ before.tables.environments,
    ∃ row' ∈ after.tables.environments, row'.id = row.id ∧ row'.appId = row.appId ∧
      row'.maxParallelUnits = row.maxParallelUnits ∧
      ((∀ other ∈ before.tables.environments, other.id = row.id → other.appId ≠ app.id) →
        row' = row)
  environmentTargets : ∀ target : Int × Int,
    (∃ row ∈ before.tables.environments, row.id = target.1) →
    (∀ row ∈ before.tables.environments, row.id = target.1 → row.appId ≠ app.id) →
      (target ∈ after.tables.environmentTargets ↔ target ∈ before.tables.environmentTargets)
  binaryConfigs : ∀ entry ∈ after.tables.binaryConfigs, entry ∈ before.tables.binaryConfigs ∨
    entry.1 = app.id ∧ ∃ old, (app.id, old) ∈ before.tables.binaryConfigs ∧
      entry.2 = { old with workingDir := entry.2.workingDir }
  binaryArtifacts : after.tables.binaryArtifacts = before.tables.binaryArtifacts
  healthChecks : after.tables.healthChecks = before.tables.healthChecks
  snapshots : after.tables.snapshots = before.tables.snapshots

/-- The artifact of the configuration is a registered one that was not uploaded. -/
def ManualArtifact (appId : Int) (config : BinaryConfigItem) (rows : List BinaryArtifact) : Prop :=
  (∃ row ∈ rows, row.appId = appId ∧ row.version = config.artifactVersion) ∧
    ∀ row ∈ rows, row.appId = appId → row.version = config.artifactVersion →
      row.artifactPath = config.artifactPath ∧ row.status = "registered" ∧
        row.metadata = manualMetadata config

/-- There are no scripts, there is an environment file, the compose file is not blank, and the
artifact of a binary application is a manual one. -/
structure NothingToLose (site : Site) (app : AppDetailItem) : Prop where
  compose : ∀ text, site.files app.appKey .compose = some text → ¬ Blank text
  env : site.files app.appKey .env ≠ none
  scripts : ∀ stage, site.files app.appKey (.script stage) = none
  artifact : ∀ config, site.tables.loadBinaryConfig app = some config →
    ManualArtifact app.id config site.tables.binaryArtifacts

theorem manualMetadata_move (previousWorkDir workDir : String) (config : BinaryConfigItem) :
    (moveBinaryConfig previousWorkDir workDir config).artifactVersion = config.artifactVersion ∧
      (moveBinaryConfig previousWorkDir workDir config).artifactPath = config.artifactPath ∧
      manualMetadata (moveBinaryConfig previousWorkDir workDir config) = manualMetadata config := by
  rw [moveBinaryConfig]
  split <;> exact ⟨rfl, rfl, rfl⟩

theorem map_eq_self_iff {α : Type} {f : α → α} {items : List α} :
    items.map f = items ↔ ∀ item ∈ items, f item = item := by
  calc items.map f = items ↔ items.map f = items.map id := by rw [List.map_id]
    _ ↔ ∀ item ∈ items, f item = item := List.map_inj_left

/-- A configured version leaves the table if and only if its row is there and manual. -/
theorem upsertArtifact_eq_self_iff {appId : Int} {config : BinaryConfigItem}
    {rows : List BinaryArtifact} :
    upsertArtifact appId config rows = rows ↔ ManualArtifact appId config rows := by
  rw [upsertArtifact]
  split
  · rename_i hany
    obtain ⟨row, hrow, hkey⟩ := List.any_eq_true.mp hany
    rw [Bool.and_eq_true, beq_iff_eq, beq_iff_eq] at hkey
    constructor
    · intro heq
      refine ⟨⟨row, hrow, hkey⟩, fun other hother happ hversion => ?_⟩
      have hsame := map_eq_self_iff.mp heq other hother
      rw [if_pos ⟨happ, hversion⟩] at hsame
      rw [← hsame]
      exact ⟨rfl, rfl, rfl⟩
    · intro h
      apply map_eq_self_iff.mpr
      intro other hother
      split
      · rename_i hboth
        obtain ⟨hpath, hstatus, hmetadata⟩ := h.2 other hother hboth.1 hboth.2
        rw [← hpath, ← hstatus, ← hmetadata]
      · rfl
  · rename_i hnone
    constructor
    · intro heq
      have hlength := congrArg List.length heq
      rw [List.length_append, List.length_singleton] at hlength
      omega
    · rintro ⟨⟨row, hrow, happ, hversion⟩, -⟩
      refine absurd (List.any_eq_true.mpr ⟨row, hrow, ?_⟩) hnone
      rw [Bool.and_eq_true, beq_iff_eq, beq_iff_eq]
      exact ⟨happ, hversion⟩

theorem forall₂_updateApp {edited : AppDetailItem} {appId : Int} (hid : edited.id = appId)
    (apps : List AppDetailItem) : List.Forall₂ (EditedApp appId) apps (updateApp edited apps) := by
  rw [updateApp, updateAt, List.forall₂_map_right_iff, List.forall₂_same]
  intro row _
  rw [EditedApp, hid]
  by_cases hrow : row.id = appId
  · rw [if_pos hrow, if_pos ⟨hrow, rfl⟩]
  · rw [if_neg hrow, if_neg (fun hfalse => hrow hfalse.1)]

/-- The targets of others stay. -/
theorem filter_replaceTargets (owner : Int) (nodeIds : List Int) (targets : List (Int × Int)) :
    (replaceTargets owner nodeIds targets).filter (fun target => target.1 != owner) =
      targets.filter fun target => target.1 != owner := by
  have hnone : (nodeIds.map fun nodeId => (owner, nodeId)).filter (fun target => target.1 != owner) =
      [] := by
    apply List.filter_eq_nil_iff.mpr
    intro target htarget
    obtain ⟨nodeId, -, rfl⟩ := List.mem_map.mp htarget
    simp
  rw [replaceTargets, List.filter_append, hnone, List.append_nil, List.filter_filter]
  simp only [Bool.and_self]

theorem mem_replaceTargets_of_ne {owner : Int} {nodeIds : List Int} {targets : List (Int × Int)}
    {target : Int × Int} (h : target.1 ≠ owner) :
    target ∈ replaceTargets owner nodeIds targets ↔ target ∈ targets := by
  rw [replaceTargets, List.mem_append, List.mem_filter, bne_iff_ne]
  constructor
  · rintro (hold | hnew)
    · exact hold.1
    · obtain ⟨nodeId, -, rfl⟩ := List.mem_map.mp hnew
      exact absurd rfl h
  · intro hold
    exact .inl ⟨hold, h⟩

/-- The states of other applications stay. -/
theorem filter_replaceRuntimeStates (appId : Int) (nodeIds : List Int) (states : List RuntimeState) :
    (replaceRuntimeStates appId nodeIds states).filter (fun state => state.appId != appId) =
      states.filter fun state => state.appId != appId := by
  have hinserts (ids : List Int) : (ids.foldl (insertRuntimeState appId) states).filter
      (fun state => state.appId != appId) = states.filter fun state => state.appId != appId := by
    induction ids generalizing states with
    | nil => rfl
    | cons nodeId rest ih =>
        rw [List.foldl_cons, ih, insertRuntimeState]
        split
        · rfl
        · rw [List.filter_append]
          simp
  rw [replaceRuntimeStates, List.filter_filter, ← hinserts nodeIds]
  apply List.filter_congr
  intro state _
  cases state.appId != appId <;> rfl

/-- The environment that is placed is one of the application, or a new one. -/
theorem placeEnvironment_spec (edited : AppDetailItem) (previous : String)
    (environments : List AppEnvironment) :
    (∀ row ∈ environments, ∃ row' ∈ (placeEnvironment edited previous environments).1,
      row'.id = row.id ∧ row'.appId = row.appId ∧ row'.maxParallelUnits = row.maxParallelUnits ∧
        (row.id ≠ (placeEnvironment edited previous environments).2 → row' = row)) ∧
    ((∃ row ∈ environments, row.id = (placeEnvironment edited previous environments).2 ∧
        row.appId = edited.id) ∨
      ∀ row ∈ environments, row.id ≠ (placeEnvironment edited previous environments).2) := by
  have hupdate (environmentId : Int) (key : Option String) (name : String) :
      ∀ row ∈ environments, ∃ row' ∈ updateEnvironment environmentId key name environments,
        row'.id = row.id ∧ row'.appId = row.appId ∧ row'.maxParallelUnits = row.maxParallelUnits ∧
          (row.id ≠ environmentId → row' = row) := by
    intro row hrow
    refine ⟨_, List.mem_map.mpr ⟨row, hrow, rfl⟩, ?_⟩
    split
    · rename_i hid
      exact ⟨rfl, rfl, rfl, fun hne => absurd hid.1 hne⟩
    · exact ⟨rfl, rfl, rfl, fun _ => rfl⟩
  have hfind {key : String} {environmentId : Int}
      (h : findEnvironment edited.id key environments = some environmentId) :
      ∃ row ∈ environments, row.id = environmentId ∧ row.appId = edited.id := by
    obtain ⟨row, hrow, hid⟩ := Option.map_eq_some_iff.mp h
    have hkey := List.find?_some hrow
    rw [Bool.and_eq_true, beq_iff_eq] at hkey
    exact ⟨row, List.mem_of_find?_eq_some hrow, hid, hkey.1⟩
  rw [placeEnvironment]
  cases hsame : findEnvironment edited.id edited.environment environments with
  | some environmentId => exact ⟨hupdate _ _ _, .inl (hfind hsame)⟩
  | none =>
      cases hprevious : findEnvironment edited.id previous environments with
      | some environmentId => exact ⟨hupdate _ _ _, .inl (hfind hprevious)⟩
      | none =>
          constructor
          · intro row hrow
            exact ⟨row, List.mem_append_left _ hrow, rfl, rfl, rfl, fun _ => rfl⟩
          · refine .inr fun row hrow heq => ?_
            have hlt := lt_nextId (List.mem_map.mpr ⟨row, hrow, rfl⟩ :
              row.id ∈ environments.map (·.id))
            rw [heq] at hlt
            exact lt_irrefl _ hlt

/-- The edit behind the checks. -/
theorem metadataEdit_eq_ok {input : UpdateAppMetadataInput}
    (h : metadataEdit renderings site input = .ok edit)
    (happ : site.tables.fetchAppDetail input.appId = .ok app) :
    ∃ (edited : AppDetailItem) (metadataContent workDir : String),
      EditedApp app.id app edited ∧
      edit =
        { appKey := app.appKey
          steps := saveAppRuntimeFiles (readOptionalFile (site.files app.appKey) .compose)
              (readOptionalFile (site.files app.appKey) .env) metadataContent ++
            (((site.tables.loadBinaryConfig app).map (moveBinaryConfig app.workDir workDir)).map
              (saveBinaryRuntimeFiles renderings edited)).getD []
          effect := metadataEffect edited app.environment (dedupeIds input.targetNodeIds)
            ((site.tables.loadBinaryConfig app).map (moveBinaryConfig app.workDir workDir)) } := by
  unfold metadataEdit at h
  obtain ⟨found, hfound, h⟩ := except_bind_eq_ok.mp h
  obtain rfl := Except.ok.inj (happ.symm.trans hfound)
  obtain ⟨⟨⟩, -, h⟩ := except_bind_eq_ok.mp h
  obtain ⟨⟨⟩, -, h⟩ := except_bind_eq_ok.mp h
  obtain ⟨name, -, h⟩ := except_bind_eq_ok.mp h
  obtain ⟨environment, -, h⟩ := except_bind_eq_ok.mp h
  obtain ⟨workDir, -, h⟩ := except_bind_eq_ok.mp h
  obtain ⟨deployStrategy, -, h⟩ := except_bind_eq_ok.mp h
  obtain ⟨releaseSource, -, h⟩ := except_bind_eq_ok.mp h
  split at h
  · cases h
  · obtain ⟨targetNodes, -, h⟩ := except_bind_eq_ok.mp h
    obtain ⟨⟨⟩, -, h⟩ := except_bind_eq_ok.mp h
    obtain rfl := Except.ok.inj h
    refine ⟨_, _, workDir, ?_, rfl⟩
    rw [EditedApp, if_pos rfl]

theorem EditedApp.id_eq {edited : AppDetailItem} (h : EditedApp app.id app edited) :
    edited.id = app.id := by
  rw [EditedApp, if_pos rfl] at h
  rw [h]

theorem metadataEffect_eq (edited : AppDetailItem) (previous : String) (nodeIds : List Int)
    (config : Option BinaryConfigItem) (tables : AppTables) :
    metadataEffect edited previous nodeIds config tables =
      { tables with
        apps := updateApp edited tables.apps
        targets := replaceTargets edited.id nodeIds tables.targets
        runtimeStates := replaceRuntimeStates edited.id nodeIds tables.runtimeStates
        environments := (placeEnvironment edited previous tables.environments).1
        environmentTargets :=
          replaceTargets (placeEnvironment edited previous tables.environments).2 nodeIds
            tables.environmentTargets
        binaryConfigs := (config.map fun config =>
          upsert tables.binaryConfigs (·.1) (edited.id, config)).getD tables.binaryConfigs
        binaryArtifacts := (config.map fun config =>
          upsertArtifact edited.id config tables.binaryArtifacts).getD tables.binaryArtifacts } := by
  cases config <;> rfl

/-- An artifact is that of a configuration if it is that of the moved one. -/
theorem manualArtifact_move {appId : Int} {previous workDir : String} {config : BinaryConfigItem}
    {rows : List BinaryArtifact} :
    ManualArtifact appId (moveBinaryConfig previous workDir config) rows ↔
      ManualArtifact appId config rows := by
  obtain ⟨hversion, hpath, hmetadata⟩ := manualMetadata_move previous workDir config
  rw [ManualArtifact, ManualArtifact, hversion, hpath, hmetadata]

/-- The binary configuration is the stored one when its files can be written. -/
theorem mem_of_loadBinaryConfig {tables : AppTables} {config : BinaryConfigItem}
    (h : tables.loadBinaryConfig app = some config)
    (hversion : config.artifactVersion ≠ "") : (app.id, config) ∈ tables.binaryConfigs := by
  rw [AppTables.loadBinaryConfig] at h
  split at h
  · obtain rfl := Option.some.inj h
    cases hfind : tables.binaryConfigs.find? fun entry => entry.1 == app.id with
    | none =>
        rw [hfind] at hversion
        exact absurd rfl hversion
    | some entry =>
        have hfound := List.find?_some hfind
        have hkey : entry.1 = app.id := beq_iff_eq.mp hfound
        have hmem := List.mem_of_find?_eq_some hfind
        rw [← hkey]
        exact hmem
  · cases h

theorem version_ne_of_steps {config : BinaryConfigItem}
    (h : ∀ step ∈ saveBinaryRuntimeFiles renderings app config, step.error faults.files = none) :
    config.artifactVersion ≠ "" := by
  intro hempty
  have hrelease : validateReleaseId config.artifactVersion =
      .error "发布版本仅支持字母、数字、短横线、下划线和点" := by
    rw [hempty, validateReleaseId, if_neg (fun hfalse => hfalse.1 trim_empty)]
  rw [saveBinaryRuntimeFiles] at h
  cases hkey : validateKey app.appKey with
  | error message =>
      simp only [hkey] at h
      have hreject := h (.reject message) List.mem_cons_self
      cases hreject
  | ok =>
      simp only [hkey, hrelease] at h
      have hreject := h (.reject "发布版本仅支持字母、数字、短横线、下划线和点") List.mem_cons_self
      cases hreject

/-- An optional file that is written back. -/
theorem written_back_iff {content : Option String} :
    (if Blank (content.getD "") then none else some (content.getD "")) = content ↔
      ∀ text, content = some text → ¬ Blank text := by
  cases content with
  | none =>
      rw [Option.getD_none, if_pos (show Blank "" from trim_empty)]
      constructor
      · intro _ text hfalse
        cases hfalse
      · intro _
        rfl
  | some text =>
      rw [Option.getD_some]
      by_cases hblank : Blank text
      · rw [if_pos hblank]
        constructor
        · intro hfalse
          cases hfalse
        · intro h
          exact absurd hblank (h text rfl)
      · rw [if_neg hblank]
        constructor
        · intro _ other hother
          rwa [← Option.some.inj hother]
        · intro _
          rfl

/-- An edit that goes through keeps the frame exactly when there is nothing to lose. -/
theorem onlySettingsChange_iff {input : UpdateAppMetadataInput}
    (h : metadataEdit renderings site input = .ok edit)
    (happ : site.tables.fetchAppDetail input.appId = .ok app) (hfails : ¬ edit.Fails faults) :
    OnlySettingsChange app site (edit.apply faults site).2 ↔ NothingToLose site app := by
  obtain ⟨edited, metadataContent, workDir, hedited, rfl⟩ := metadataEdit_eq_ok h happ
  have hid := hedited.id_eq
  have hnone : ∀ step ∈ saveAppRuntimeFiles (readOptionalFile (site.files app.appKey) .compose)
      (readOptionalFile (site.files app.appKey) .env) metadataContent ++
        (((site.tables.loadBinaryConfig app).map (moveBinaryConfig app.workDir workDir)).map
          (saveBinaryRuntimeFiles renderings edited)).getD [],
      step.error faults.files = none := by
    intro step hstep
    by_contra hfault
    exact hfails (.inl ⟨step, hstep, hfault⟩)
  obtain ⟨store, hstore⟩ : ∃ store, store = (runWrites faults.files
      (saveAppRuntimeFiles (readOptionalFile (site.files app.appKey) .compose)
        (readOptionalFile (site.files app.appKey) .env) metadataContent ++
        (((site.tables.loadBinaryConfig app).map (moveBinaryConfig app.workDir workDir)).map
          (saveBinaryRuntimeFiles renderings edited)).getD []) (site.files app.appKey)).2 := ⟨_, rfl⟩
  have hvalue {path : RuntimePath} {value : Option String}
      (hput : .put path value ∈ saveAppRuntimeFiles
        (readOptionalFile (site.files app.appKey) .compose)
        (readOptionalFile (site.files app.appKey) .env) metadataContent) : store path = value := by
    rw [hstore]
    exact runWrites_of_mem (nodup_steps _ _ _ _ _) hnone (List.mem_append_left _ hput)
  have hcompose : store .compose =
      if Blank ((site.files app.appKey .compose).getD "") then none
      else some ((site.files app.appKey .compose).getD "") := by
    apply hvalue
    exact List.mem_cons_of_mem _ List.mem_cons_self
  have henv : store .env = some ((site.files app.appKey .env).getD "") := by
    apply hvalue
    exact List.mem_cons_of_mem _ (List.mem_cons_of_mem _ List.mem_cons_self)
  have hscript (stage : ScriptStage) : store (.script stage) = none := by
    apply hvalue
    cases stage <;> simp [saveAppRuntimeFiles, saveAppRuntimeFilesWithScripts, writeDeployScripts,
      writeOptionalFile, writeFile, DeployScriptSet.get, DeployScriptSet.default, Blank, trim_empty]
  have hafter : (Edit.apply faults _ site).2 = _ := congrArg Prod.snd (Edit.apply_of_not_fails hfails)
  dsimp only at hafter
  rw [← hstore] at hafter
  rw [hafter]
  constructor
  · intro hframe
    have hfile {path : RuntimePath} (hconfigured : path.configured = true) :
        store path = site.files app.appKey path := by
      have hsame := hframe.files app.appKey path (.inr hconfigured)
      dsimp only at hsame
      rwa [Function.update_self] at hsame
    constructor
    · exact written_back_iff.mp (hcompose.symm.trans (hfile rfl))
    · rw [← hfile rfl, henv]
      exact Option.some_ne_none _
    · intro stage
      rw [← hfile rfl, hscript]
    · intro config hconfig
      have hartifacts := hframe.binaryArtifacts
      dsimp only at hartifacts
      rw [metadataEffect_eq, hconfig, Option.map_some, Option.map_some, Option.getD_some,
        hid] at hartifacts
      exact manualArtifact_move.mp (upsertArtifact_eq_self_iff.mp hartifacts)
  · intro hkept
    constructor
    · intro appKey path hpath
      dsimp only
      by_cases hkey : appKey = app.appKey
      · rw [hkey, Function.update_self]
        have hconfigured := hpath.resolve_left (not_not.mpr hkey)
        cases path with
        | compose => exact hcompose.trans (written_back_iff.mpr hkept.compose)
        | env =>
            cases hstored : site.files app.appKey .env with
            | none => exact absurd hstored hkept.env
            | some text => rw [henv, hstored, Option.getD_some]
        | script stage => rw [hscript, hkept.scripts]
        | metadata => cases hconfigured
        | systemd name => cases hconfigured
        | release version => cases hconfigured
        | current => cases hconfigured
      · rw [Function.update_of_ne hkey]
    all_goals rw [metadataEffect_eq]
    all_goals dsimp only
    · exact forall₂_updateApp hid _
    · rw [hid]
      exact filter_replaceTargets _ _ _
    · rw [hid]
      exact filter_replaceRuntimeStates _ _ _
    · intro row hrow
      obtain ⟨hplaced, howner⟩ := placeEnvironment_spec edited app.environment
        site.tables.environments
      obtain ⟨row', hrow', hsameId, hsameApp, hsameUnits, hsame⟩ := hplaced row hrow
      refine ⟨row', hrow', hsameId, hsameApp, hsameUnits, fun hothers => hsame fun heq => ?_⟩
      rcases howner with ⟨own, hown, hownId, hownApp⟩ | hnew
      · exact hothers own hown (hownId.trans heq.symm) (hownApp.trans hid)
      · exact hnew row hrow heq
    · intro target hknown hothers
      apply mem_replaceTargets_of_ne
      intro heq
      rcases (placeEnvironment_spec edited app.environment site.tables.environments).2 with
        ⟨own, hown, hownId, hownApp⟩ | hnew
      · exact hothers own hown (hownId.trans heq.symm) (hownApp.trans hid)
      · obtain ⟨row, hrow, hrowId⟩ := hknown
        exact hnew row hrow (hrowId.trans heq)
    · intro entry hentry
      cases hload : site.tables.loadBinaryConfig app with
      | none =>
          rw [hload] at hentry
          exact .inl hentry
      | some config =>
          rw [hload, Option.map_some, Option.map_some, Option.getD_some] at hentry
          rcases mem_upsert hentry with rfl | hold
          · refine .inr ⟨hid, config, ?_, ?_⟩
            · apply mem_of_loadBinaryConfig hload
              rw [hload, Option.map_some, Option.map_some, Option.getD_some] at hnone
              have hversion := version_ne_of_steps fun step hstep =>
                hnone step (List.mem_append_right _ hstep)
              rwa [(manualMetadata_move _ _ config).1] at hversion
            · rw [moveBinaryConfig]
              split <;> rfl
          · exact .inl hold.1
    · cases hload : site.tables.loadBinaryConfig app with
      | none => rfl
      | some config =>
          rw [Option.map_some, Option.map_some, Option.getD_some, hid]
          exact upsertArtifact_eq_self_iff.mpr
            (manualArtifact_move.mpr (hkept.artifact config hload))

/-- An edit of the metadata that goes through keeps the frame, and one that fails is clean. -/
def KeepsRuntimeFiles (input : UpdateAppMetadataInput) (site : Site)
    (result : Except SettingsError Unit × Site) : Prop :=
  (∀ app, result.1 = .ok () → site.tables.fetchAppDetail input.appId = .ok app →
    OnlySettingsChange app site result.2) ∧ FailsCleanly result site

/-- An edit of the settings writes each file once. -/
theorem nodup_metadataEdit {input : UpdateAppMetadataInput}
    (h : metadataEdit renderings site input = .ok edit) :
    (edit.steps.filterMap WriteStep.key?).Nodup := by
  obtain ⟨app, happ, -⟩ := except_bind_eq_ok.mp h
  obtain ⟨edited, metadataContent, workDir, -, rfl⟩ := metadataEdit_eq_ok h happ
  exact nodup_steps _ _ _ _ _

/-- An edit of the configuration writes each file once. -/
theorem nodup_configEdit {input : UpdateAppConfigInput}
    (h : configEdit renderings normalizers site input = .ok edit) :
    (edit.steps.filterMap WriteStep.key?).Nodup := by
  unfold configEdit at h
  obtain ⟨app, -, h⟩ := except_bind_eq_ok.mp h
  obtain ⟨⟨⟩, -, h⟩ := except_bind_eq_ok.mp h
  obtain ⟨⟨⟩, -, h⟩ := except_bind_eq_ok.mp h
  obtain ⟨composeContent, -, h⟩ := except_bind_eq_ok.mp h
  obtain ⟨binaryConfig, -, h⟩ := except_bind_eq_ok.mp h
  obtain ⟨⟨⟩, -, h⟩ := except_bind_eq_ok.mp h
  obtain rfl := Except.ok.inj h
  exact nodup_steps _ _ _ _ _

/-- Edits keep the runtime files exactly when, behind the checks, a failure comes before the first
write that has something to change, and otherwise an edit of the metadata has nothing to lose. -/
theorem edits_keep_runtime_files_iff (renderings : Renderings) (normalizers : Normalizers)
    (faults : Faults) (site : Site) (metadataInput : UpdateAppMetadataInput)
    (configInput : UpdateAppConfigInput) :
    (KeepsRuntimeFiles metadataInput site (updateAppMetadata renderings faults metadataInput site) ↔
      ∀ edit, faults.read = none → metadataEdit renderings site metadataInput = .ok edit →
        (edit.Fails faults → edit.Idle faults site) ∧
        (¬ edit.Fails faults → ∀ app,
          site.tables.fetchAppDetail metadataInput.appId = .ok app → NothingToLose site app)) ∧
    (FailsCleanly (updateAppConfig renderings normalizers faults configInput site) site ↔
      ∀ edit, faults.read = none → configEdit renderings normalizers site configInput = .ok edit →
        edit.Fails faults → edit.Idle faults site) := by
  constructor
  · rw [KeepsRuntimeFiles, updateAppMetadata,
      performEdit_failsCleanly_iff (fun edit => nodup_metadataEdit)]
    constructor
    · rintro ⟨hframe, hclean⟩ edit hread hedit
      refine ⟨hclean edit hread hedit, fun hfails app happ => ?_⟩
      have hperform : performEdit faults (metadataEdit renderings site metadataInput) site =
          edit.apply faults site := by
        simp only [performEdit, hread, hedit]
      rw [hperform] at hframe
      have hok : (edit.apply faults site).1 = .ok () := by
        rw [Edit.apply_of_not_fails hfails]
      exact (onlySettingsChange_iff hedit happ hfails).mp (hframe app hok happ)
    · intro h
      refine ⟨fun app hok happ => ?_, fun edit hread hedit => (h edit hread hedit).1⟩
      unfold performEdit at hok ⊢
      cases hread : faults.read with
      | some message =>
          rw [hread] at hok
          cases hok
      | none =>
          cases hedit : metadataEdit renderings site metadataInput with
          | error error =>
              rw [hread, hedit] at hok
              cases hok
          | ok edit =>
              rw [hread, hedit] at hok
              have hfails : ¬ edit.Fails faults := by
                intro hfalse
                obtain ⟨error, herror⟩ : ∃ error, edit.apply faults site = (.error error, _) :=
                  edit.apply_of_fails hfalse
                dsimp only at hok
                rw [herror] at hok
                cases hok
              exact (onlySettingsChange_iff hedit happ hfails).mpr
                ((h edit hread hedit).2 hfails app happ)
  · exact performEdit_failsCleanly_iff fun edit => nodup_configEdit

namespace Sample

/-- Texts that only name their application. -/
def plainRenderings : Renderings where
  metadata app _ _ := "app_key: " ++ app.appKey ++ "\n"
  unit app _ := "[Service]\nUser=" ++ app.appKey ++ "\n"
  slotUnit app _ slot := "[Service]\nUser=" ++ app.appKey ++ "-" ++ slot ++ "\n"
  release _ config := "artifact_version: " ++ config.artifactVersion ++ "\n"
  current config := config.artifactVersion ++ "\n"
  snapshotMetadata _ _ := "snapshot"
  configHash _ _ _ _ := "hash"

def noFaults : Faults := ⟨none, ⟨fun _ => none, fun _ => none⟩, none⟩

def shop : AppDetailItem :=
  { id := 1, appKey := "shop", name := "Shop", description := "", environment := "test"
    appType := "compose", deployMode := "compose", deployStrategy := "rolling_stop_on_failure"
    releaseSource := "manual", autoQueueRelease := 0, workDir := "/srv/shop", status := "ready" }

def shopTables : AppTables :=
  { apps := [shop], nodes := [⟨1, "local", "Local", "online"⟩], activeTasks := []
    targets := [(1, 1)], runtimeStates := [⟨1, 1, "healthy", ""⟩]
    environments := [⟨1, 1, "test", "测试环境", "ready", 3⟩], environmentTargets := [(1, 1)]
    binaryConfigs := [], binaryArtifacts := [], healthChecks := [], snapshots := [] }

/-- The shop restarts a cache behind each deployment. -/
def shopSite : Site where
  files appKey path :=
    if appKey = "shop" then
      match path with
      | .compose => some "services:\n  shop:\n    image: shop\n"
      | .env => some "MODE=live\n"
      | .script .postDeploy => some "docker restart cache\n"
      | _ => none
    else none
  tables := shopTables

def rename : UpdateAppMetadataInput :=
  { appId := 1, name := "Web shop", description := "", environment := "test"
    workDir := "/srv/shop", deployStrategy := "", releaseSource := "manual"
    autoQueueRelease := false, targetNodeIds := [1] }

end Sample

/-- A new name takes the script away. -/
theorem rename_drops_script : ¬ ∀ (faults : Faults) (site : Site) (input : UpdateAppMetadataInput),
    KeepsRuntimeFiles input site (updateAppMetadata Sample.plainRenderings faults input site) := by
  intro hall
  have hkeeps := hall Sample.noFaults Sample.shopSite Sample.rename
  have hok : (updateAppMetadata Sample.plainRenderings Sample.noFaults Sample.rename
      Sample.shopSite).1.isOk = true := by
    decide +kernel
  have hresult : (updateAppMetadata Sample.plainRenderings Sample.noFaults Sample.rename
      Sample.shopSite).1 = .ok () := by
    cases hcall : (updateAppMetadata Sample.plainRenderings Sample.noFaults Sample.rename
        Sample.shopSite).1 with
    | ok => rfl
    | error error =>
        rw [hcall] at hok
        cases hok
  have hframe := hkeeps.1 Sample.shop hresult rfl
  have hsame := hframe.files "shop" (.script .postDeploy) (.inr rfl)
  have hgone : (updateAppMetadata Sample.plainRenderings Sample.noFaults Sample.rename
      Sample.shopSite).2.files "shop" (.script .postDeploy) = none := by
    decide +kernel
  rw [hgone] at hsame
  cases hsame

end EasyDeploy.Apps
