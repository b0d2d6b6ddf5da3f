import EasyDeploy.Foundation.Results
import EasyDeploy.UnitRuntime.Prepare

/-!
# What is published is what is prepared

The compose file and the scripts of a unit reach its directory, and so do the
secrets of its environment. Its own environment file does not, and what a
package has below the directory of the scripts stays there.
-/

namespace EasyDeploy.UnitRuntime
open Foundation

variable {records : ExecutionRecords} {context : UnitExecutionContext} {host : PackageHost}
  {spec : UnitExecutionSpec} {prepared : PreparedUnitRuntime} {identity : ExecutionIdentity}
  {revision : PublishedApplicationConfig} {unit : ConfigUnit} {tree tree' : Tree}

/-- The unit of an execution in the revision of its run. -/
structure Published (records : ExecutionRecords) (context : UnitExecutionContext)
    (identity : ExecutionIdentity) (revision : PublishedApplicationConfig) (unit : ConfigUnit) :
    Prop where
  identified : records.identity context = some identity
  loaded : records.loadRevision identity.appId identity.configRevisionId = .ok revision
  found : revision.units.find? (fun unit => unit.key == context.item.unitKey) = some unit

/-- A secret of a unit in an environment. -/
def IsSecret (revision : PublishedApplicationConfig) (environmentKey unitKey name value : String) :
    Prop :=
  (secretPrefix environmentKey unitKey ++ name, value) ∈ revision.secretValues.entries

/-- A variable that is published for a unit: a secret, or one of its environment file that is not
also a secret. -/
def Defines (revision : PublishedApplicationConfig) (environmentKey unitKey : String)
    (unit : ConfigUnit) (name value : String) : Prop :=
  IsSecret revision environmentKey unitKey name value ∨
    (∀ other, ¬ IsSecret revision environmentKey unitKey name other) ∧
      (name, value) ∈ assignments unit.envContent

/-- The file of one of the scripts. -/
def IsScript (unit : ConfigUnit) (path : RelPath) : Prop :=
  ∃ entry ∈ unit.scripts.entries, ∃ fileName, scriptFileName entry.1 = .ok fileName ∧
    path = scriptsRoot ++ [fileName]

/-- The directory has what was published and what the package brings, and nothing else. -/
structure Deployed (revision : PublishedApplicationConfig) (unit : ConfigUnit)
    (package : RelPath → Option ByteArray) (spec : UnitExecutionSpec)
    (prepared : PreparedUnitRuntime) : Prop where
  compose : prepared.tree.files ["compose.yaml"] = some unit.composeContent.toByteArray
  env : ∃ text : String, prepared.tree.files [".env"] = some text.toByteArray ∧
    ∀ name value, (name, value) ∈ assignments text ↔
      Defines revision spec.environmentKey spec.unitKey unit name value
  scripts : ∀ entry ∈ unit.scripts.entries, ∀ fileName, scriptFileName entry.1 = .ok fileName →
    prepared.tree.files (scriptsRoot ++ [fileName]) = some entry.2.toByteArray
  onlyScripts : ∀ path, scriptsRoot <+: path → prepared.tree.files path ≠ none → IsScript unit path
  package : ∀ path, path ≠ ["compose.yaml"] → path ≠ [".env"] → ¬ scriptsRoot <+: path →
    prepared.tree.files path = package path
  environment : ∀ name value, (name, value) ∈ executionEnvironment spec ↔
    Defines revision spec.environmentKey spec.unitKey unit name value ∨
      (name, value) ∈ platformVariables spec

/-- Each variable of the environment file is also a secret, and the package has nothing below the
directory of the scripts but what they replace. -/
structure NothingDropped (revision : PublishedApplicationConfig) (unit : ConfigUnit)
    (package : RelPath → Option ByteArray) (spec : UnitExecutionSpec) : Prop where
  env : ∀ entry ∈ assignments unit.envContent,
    ∃ value, IsSecret revision spec.environmentKey spec.unitKey entry.1 value
  scripts : ∀ path, scriptsRoot <+: path → package path ≠ none → IsScript unit path

theorem stripPrefix_eq_some {start text rest : String} :
    stripPrefix start text = some rest ↔ text = start ++ rest := by
  rw [stripPrefix]
  constructor
  · intro h
    split at h
    · rename_i hprefix
      obtain ⟨tail, htail⟩ := hprefix
      obtain rfl := Option.some.inj h
      apply String.toList_inj.mp
      rw [String.toList_append, String.toList_ofList, ← htail, List.drop_left]
    · cases h
  · rintro rfl
    have hlist : (start ++ rest).toList = start.toList ++ rest.toList := String.toList_append
    rw [hlist, if_pos (List.prefix_append _ _), List.drop_left, String.ofList_toList]

theorem mem_environmentVariables {secrets : Entries} {environmentKey unitKey name value : String} :
    (name, value) ∈ environmentVariables secrets environmentKey unitKey ↔
      (secretPrefix environmentKey unitKey ++ name, value) ∈ secrets.entries := by
  rw [environmentVariables, List.mem_filterMap]
  constructor
  · rintro ⟨entry, hentry, heq⟩
    obtain ⟨found, hfound, hpair⟩ := Option.map_eq_some_iff.mp heq
    obtain ⟨rfl, rfl⟩ := Prod.mk.inj hpair
    rw [← stripPrefix_eq_some.mp hfound]
    exact hentry
  · intro h
    exact ⟨_, h, Option.map_eq_some_iff.mpr ⟨name, stripPrefix_eq_some.mpr rfl, rfl⟩⟩

/-- Variables that pass the check stand on lines of their own. -/
theorem onOneLine_of_valid {entries : List (String × String)}
    (h : validateEnvironmentVariables entries = .ok ()) : ∀ entry ∈ entries, OnOneLine entry := by
  induction entries with
  | nil => exact fun entry hfalse => absurd hfalse List.not_mem_nil
  | cons first rest ih =>
      rw [validateEnvironmentVariables] at h
      split at h
      · cases h
      · rename_i hvalid
        simp only [Bool.or_eq_true, Bool.not_eq_true', not_or, Bool.not_eq_false] at hvalid
        obtain ⟨⟨hname, -⟩, hnewline⟩ := hvalid
        simp only [validName, Bool.and_eq_true, List.all_eq_true, Bool.or_eq_true,
          beq_iff_eq] at hname
        have hchar {char : Char} (hmem : char ∈ first.1.toList) :
            char.isAlphanum = true ∨ char = '_' := hname.1.2 char hmem
        intro entry hentry
        rcases List.mem_cons.mp hentry with rfl | hrest
        · refine ⟨fun hmem => ?_, fun hmem => ?_, fun hhead => ?_, ?_⟩
          · rcases hchar hmem with hfalse | hfalse <;> revert hfalse <;> decide
          · rcases hchar hmem with hfalse | hfalse <;> revert hfalse <;> decide
          · rcases hchar (List.mem_of_head? hhead) with hfalse | hfalse <;> revert hfalse <;> decide
          · intro hmem
            exact hnewline (List.contains_iff_mem.mpr hmem)
        · exact ih h entry hrest

theorem write_eq_ok {path : RelPath} {content : ByteArray} (h : tree.write path content = .ok tree') :
    tree'.files = Function.update tree.files path (some content) := by
  rw [Tree.write] at h
  split at h
  · cases h
  · split at h
    · cases h
    · obtain rfl := Except.ok.inj h
      rfl

theorem createDirAll_eq_ok {path : RelPath} (h : tree.createDirAll path = .ok tree') :
    tree'.files = tree.files := by
  rw [Tree.createDirAll] at h
  split at h
  · cases h
  · obtain rfl := Except.ok.inj h
    rfl

theorem scriptFileName_injective {slot other fileName : String}
    (h : scriptFileName slot = .ok fileName) (hother : scriptFileName other = .ok fileName) :
    slot = other := by
  unfold scriptFileName at h
  split at h <;> cases h <;> unfold scriptFileName at hother <;> split at hother <;>
    first | rfl | simp at hother

/-- Scripts with different slots have different files. -/
theorem writeScripts_files {scripts : List (String × String)} (hkeys : (scripts.map (·.1)).Nodup)
    (h : writeScripts tree scripts = .ok tree') :
    (∀ entry ∈ scripts, ∀ fileName, scriptFileName entry.1 = .ok fileName →
        tree'.files (scriptsRoot ++ [fileName]) = some entry.2.toByteArray) ∧
      ∀ path, (∀ entry ∈ scripts, ∀ fileName, scriptFileName entry.1 = .ok fileName →
        path ≠ scriptsRoot ++ [fileName]) → tree'.files path = tree.files path := by
  induction scripts generalizing tree with
  | nil =>
      obtain rfl := Except.ok.inj h
      exact ⟨fun entry hfalse => absurd hfalse List.not_mem_nil, fun _ _ => rfl⟩
  | cons first rest ih =>
      obtain ⟨fileName, hfile, h⟩ := except_bind_eq_ok.mp h
      obtain ⟨between, hwrite, h⟩ := except_bind_eq_ok.mp h
      rw [List.map_cons, List.nodup_cons] at hkeys
      obtain ⟨hscripts, hothers⟩ := ih hkeys.2 h
      have hbetween := write_eq_ok hwrite
      constructor
      · intro entry hentry name hname
        rcases List.mem_cons.mp hentry with rfl | hrest
        · obtain rfl := Except.ok.inj (hfile.symm.trans hname)
          rw [hothers, hbetween, Function.update_self]
          intro other hother otherName hotherName heq
          have hsame : otherName = fileName := by
            have hlast := List.append_cancel_left heq
            exact (List.cons.inj hlast).1.symm
          rw [hsame] at hotherName
          exact hkeys.1 (List.mem_map.mpr
            ⟨other, hother, scriptFileName_injective hotherName hfile⟩)
        · exact hscripts entry hrest name hname
      · intro path hpath
        rw [hothers path fun entry hentry => hpath entry (List.mem_cons_of_mem _ hentry), hbetween,
          Function.update_of_ne (hpath first List.mem_cons_self fileName hfile)]

/-- What an execution loads is what was published for its unit. -/
theorem spec_of_published (hload : records.loadUnitSpec context = .ok spec)
    (hpublished : Published records context identity revision unit) :
    spec.unit = unit ∧ spec.environmentKey = identity.environmentKey ∧
      spec.unitKey = context.item.unitKey ∧
      spec.environmentVariables =
        environmentVariables revision.secretValues spec.environmentKey spec.unitKey := by
  unfold ExecutionRecords.loadUnitSpec at hload
  obtain ⟨identity', hidentity, hload⟩ := except_bind_eq_ok.mp hload
  obtain ⟨revision', hrevision, hload⟩ := except_bind_eq_ok.mp hload
  obtain ⟨unit', hunit, hload⟩ := except_bind_eq_ok.mp hload
  obtain ⟨⟨⟩, -, hload⟩ := except_bind_eq_ok.mp hload
  obtain ⟨release, -, hload⟩ := except_bind_eq_ok.mp hload
  obtain ⟨targetNodes, -, hload⟩ := except_bind_eq_ok.mp hload
  obtain rfl := Except.ok.inj hload
  rw [ExecutionRecords.executionIdentity, hpublished.identified] at hidentity
  obtain rfl := Except.ok.inj hidentity
  rw [hpublished.loaded] at hrevision
  obtain rfl := Except.ok.inj hrevision
  rw [ExecutionRecords.findUnit, hpublished.found] at hunit
  obtain rfl := Except.ok.inj hunit
  exact ⟨rfl, rfl, rfl, rfl⟩

/-- The files of a directory that was prepared. -/
theorem prepared_files {package : Tree} (hpackage : extractRelease host spec.release = .ok package)
    (hprepare : prepareUnitRuntime host spec = .ok prepared) :
    (∀ entry ∈ spec.environmentVariables, OnOneLine entry) ∧
    prepared.tree.files ["compose.yaml"] = some spec.unit.composeContent.toByteArray ∧
    prepared.tree.files [".env"] = some (renderAssignments spec.environmentVariables).toByteArray ∧
    (∀ entry ∈ spec.unit.scripts.entries, ∀ fileName, scriptFileName entry.1 = .ok fileName →
      prepared.tree.files (scriptsRoot ++ [fileName]) = some entry.2.toByteArray) ∧
    ∀ path, path ≠ ["compose.yaml"] → path ≠ [".env"] → ¬ IsScript spec.unit path →
      prepared.tree.files path = package.files path := by
  unfold prepareUnitRuntime at hprepare
  obtain ⟨⟨⟩, hvalid, hprepare⟩ := except_bind_eq_ok.mp hprepare
  obtain ⟨extracted, hextracted, hprepare⟩ := except_bind_eq_ok.mp hprepare
  obtain rfl := Except.ok.inj (hpackage.symm.trans hextracted)
  obtain ⟨composed, hcompose, hprepare⟩ := except_bind_eq_ok.mp hprepare
  obtain ⟨withEnv, henv, hprepare⟩ := except_bind_eq_ok.mp hprepare
  obtain ⟨withDir, hdir, hprepare⟩ := except_bind_eq_ok.mp hprepare
  obtain ⟨scripted, hscripted, hprepare⟩ := except_bind_eq_ok.mp hprepare
  obtain rfl := Except.ok.inj hprepare
  obtain ⟨hscripts, hothers⟩ := writeScripts_files spec.unit.scripts.keys hscripted
  have hfiles : withDir.files = Function.update (Function.update package.files ["compose.yaml"]
      (some spec.unit.composeContent.toByteArray)) [".env"]
        (some (renderAssignments spec.environmentVariables).toByteArray) := by
    rw [createDirAll_eq_ok hdir, write_eq_ok henv, write_eq_ok hcompose]
  refine ⟨onOneLine_of_valid hvalid, ?_, ?_, hscripts, ?_⟩
  · rw [hothers _ (by simp [scriptsRoot]), hfiles, Function.update_of_ne (by decide),
      Function.update_self]
  · rw [hothers _ (by simp [scriptsRoot]), hfiles, Function.update_self]
  · intro path hcomposePath henvPath hscript
    rw [hothers path, hfiles, Function.update_of_ne henvPath, Function.update_of_ne hcomposePath]
    intro entry hentry fileName hname heq
    exact hscript ⟨entry, hentry, fileName, hname, heq⟩

/-- A package is empty or was unpacked. -/
theorem extractRelease_eq_ok {release : Option UnitRelease} {package : Tree}
    (h : extractRelease host release = .ok package) :
    package = .empty ∨ ∃ bytes, host.unpack bytes = .ok package := by
  cases release with
  | none => exact .inl (Except.ok.inj h).symm
  | some release =>
      unfold extractRelease at h
      dsimp only at h
      by_cases hlocal : release.storageProvider = "local"
      · rw [if_pos hlocal] at h
        unfold verifyAndExtractPackage at h
        cases hread : host.read release.packagePath with
        | none =>
            rw [hread] at h
            cases h
        | some bytes =>
            simp only [hread] at h
            split at h
            · cases h
            · split at h
              · cases h
              · cases hunpack : host.unpack bytes with
                | error error =>
                    rw [hunpack] at h
                    cases h
                | ok unpacked =>
                    rw [hunpack] at h
                    obtain rfl := Except.ok.inj h
                    exact .inr ⟨bytes, hunpack⟩
      · rw [if_neg hlocal] at h
        by_cases hoss : release.storageProvider = "aliyun_oss"
        · rw [if_pos hoss] at h
          cases h
        · rw [if_neg hoss] at h
          cases h

theorem not_isScript_of_head {path : RelPath} (h : ¬ scriptsRoot <+: path) :
    ¬ IsScript unit path := by
  rintro ⟨entry, -, fileName, -, rfl⟩
  exact h (List.prefix_append _ _)

section Prepared

variable {package : Tree} (hpublished : Published records context identity revision unit)
  (hload : records.loadUnitSpec context = .ok spec)
  (hpackage : extractRelease host spec.release = .ok package)
  (hprepare : prepareUnitRuntime host spec = .ok prepared)

include hpublished hload in
theorem mem_environmentVariables_iff (name value : String) :
    (name, value) ∈ spec.environmentVariables ↔
      IsSecret revision spec.environmentKey spec.unitKey name value := by
  obtain ⟨-, -, -, hvariables⟩ := spec_of_published hload hpublished
  rw [hvariables, mem_environmentVariables]
  rfl

/-- Below the directory of the scripts are none of the two files at the root. -/
theorem ne_of_scriptsRoot_prefix {path : RelPath} (h : scriptsRoot <+: path) :
    path ≠ ["compose.yaml"] ∧ path ≠ [".env"] := by
  constructor
  · rintro rfl
    revert h
    decide
  · rintro rfl
    revert h
    decide

include hpublished hload hpackage hprepare

theorem nothingDropped_of_deployed (h : Deployed revision unit package.files spec prepared) :
    NothingDropped revision unit package.files spec := by
  obtain ⟨rfl, -⟩ := spec_of_published hload hpublished
  obtain ⟨hlines, -, henv, -, hothers⟩ := prepared_files hpackage hprepare
  constructor
  · intro entry hentry
    by_contra hnone
    obtain ⟨text, htext, hdefined⟩ := h.env
    have hsame : text = renderAssignments spec.environmentVariables :=
      String.toByteArray_inj.mp (Option.some.inj (htext.symm.trans henv))
    have hmem := (hdefined entry.1 entry.2).mpr
      (.inr ⟨fun other hother => hnone ⟨other, hother⟩, hentry⟩)
    rw [hsame, assignments_render hlines] at hmem
    exact hnone ⟨entry.2, (mem_environmentVariables_iff hpublished hload _ _).mp hmem⟩
  · intro path hpath hfile
    by_contra hscript
    obtain ⟨hcompose, henvPath⟩ := ne_of_scriptsRoot_prefix hpath
    apply hscript
    apply h.onlyScripts path hpath
    rw [hothers path hcompose henvPath hscript]
    exact hfile

theorem deployed_of_nothingDropped (h : NothingDropped revision unit package.files spec) :
    Deployed revision unit package.files spec prepared := by
  obtain ⟨rfl, -⟩ := spec_of_published hload hpublished
  obtain ⟨hlines, hcompose, henv, hscripts, hothers⟩ := prepared_files hpackage hprepare
  have hdefines (name value : String) : (name, value) ∈ spec.environmentVariables ↔
      Defines revision spec.environmentKey spec.unitKey spec.unit name value := by
    rw [mem_environmentVariables_iff hpublished hload]
    constructor
    · exact .inl
    · rintro (hown | ⟨hnone, hfile⟩)
      · exact hown
      · obtain ⟨other, hother⟩ := h.env _ hfile
        exact absurd hother (hnone other)
  constructor
  · exact hcompose
  · refine ⟨_, henv, fun name value => ?_⟩
    rw [assignments_render hlines]
    exact hdefines name value
  · exact hscripts
  · intro path hpath hfile
    by_contra hscript
    obtain ⟨hcomposePath, henvPath⟩ := ne_of_scriptsRoot_prefix hpath
    rw [hothers path hcomposePath henvPath hscript] at hfile
    exact hscript (h.scripts path hpath hfile)
  · intro path hcomposePath henvPath hpath
    exact hothers path hcomposePath henvPath (not_isScript_of_head hpath)
  · intro name value
    rw [executionEnvironment, List.mem_append, hdefines]

end Prepared

/-- A unit is deployed as it was published exactly when nothing of it is dropped. -/
theorem published_is_deployed_iff {package : Tree}
    (hpublished : Published records context identity revision unit)
    (hload : records.loadUnitSpec context = .ok spec)
    (hpackage : extractRelease host spec.release = .ok package)
    (hprepare : prepareUnitRuntime host spec = .ok prepared) :
    Deployed revision unit package.files spec prepared ↔
      NothingDropped revision unit package.files spec :=
  ⟨nothingDropped_of_deployed hpublished hload hpackage hprepare,
    deployed_of_nothingDropped hpublished hload hpackage hprepare⟩

namespace Sample

/-- A package with one file. -/
def packageTree : Tree :=
  ⟨fun path => if path = ["release.txt"] then some "release".toByteArray else none,
    fun path => path.isEmpty⟩

/-- A host with one package, of seven bytes. -/
def packageHost : PackageHost where
  read path := if path = "/data/api.tar.gz" then some "package".toByteArray else none
  digest package := if package.size = 7 then "digest" else "other"
  unpack package := if package.size = 7 then .ok packageTree else .error "unexpected package"

/-- The unit `api` with an environment file. -/
def apiUnit (envContent : String) : ConfigUnit :=
  { key := "api", workDir := "/srv/api", composeContent := "services: {}\n", envContent
    scripts := ⟨[("deploy", "docker compose up -d\n")], by decide⟩ }

def apiRevision (envContent : String) : PublishedApplicationConfig :=
  ⟨1, [apiUnit envContent],
    ⟨[("production.api.TOKEN", "secret"), ("production.web.TOKEN", "other")], by decide⟩⟩

def apiIdentity : ExecutionIdentity :=
  { deploymentRunId := 1, taskId := 1, environmentId := 1, appId := 1, appKey := "shop"
    environmentKey := "production", configRevisionId := 1 }

def apiRecords (envContent : String) : ExecutionRecords :=
  { identities := [apiIdentity], loadRevision := fun _ _ => .ok (apiRevision envContent)
    units := [(1, 1, "api")]
    releases := [{ id := 1, unitId := 1, version := "1.0.0", packagePath := "/data/api.tar.gz"
                   checksumSha256 := "digest", sizeBytes := 7, storageProvider := "local"
                   storageBucket := "", storageObjectKey := "", artifactStatus := "active" }]
    environmentTargets := [(1, { id := 1, nodeKey := "local", nodeType := "local", sshUser := ""
                                 credentialPrivateKeyPath := none, status := "online"
                                 dockerStatus := "available" })] }

def apiContext : UnitExecutionContext :=
  { deploymentRunId := 1, taskId := 1, environmentId := 1, targetNodeIds := [1]
    item := { unitId := 1, unitKey := "api", unitReleaseId := some 1, releaseVersion := some "1.0.0"
              stageNo := 1, unitOrder := 1, removalOrder := 1, action := .deploy, reason := ""
              targetFingerprint := "one", previousFingerprint := "" } }

theorem published_api (envContent : String) :
    Published (apiRecords envContent) apiContext apiIdentity (apiRevision envContent)
      (apiUnit envContent) :=
  ⟨rfl, rfl, rfl⟩

/-- The unit is loaded and prepared, whatever its environment file is. -/
theorem prepared_api (envContent : String)
    (hload : ((apiRecords envContent).loadUnitSpec apiContext).isOk = true)
    (hextract : (((apiRecords envContent).loadUnitSpec apiContext).toOption.all fun spec =>
      (extractRelease packageHost spec.release).isOk) = true)
    (hprepare : (((apiRecords envContent).loadUnitSpec apiContext).toOption.all fun spec =>
      (prepareUnitRuntime packageHost spec).isOk) = true) :
    ∃ spec package prepared, (apiRecords envContent).loadUnitSpec apiContext = .ok spec ∧
      extractRelease packageHost spec.release = .ok package ∧
      prepareUnitRuntime packageHost spec = .ok prepared := by
  obtain ⟨spec, hspec⟩ := exists_of_isOk hload
  rw [hspec] at hextract hprepare
  obtain ⟨package, hpackage⟩ := exists_of_isOk hextract
  obtain ⟨prepared, hprepared⟩ := exists_of_isOk hprepare
  exact ⟨spec, package, prepared, hspec, hpackage, hprepared⟩

/-- The package has nothing below the directory of the scripts. -/
theorem package_api {release : Option UnitRelease} {package : Tree} {path : RelPath}
    (hpackage : extractRelease packageHost release = .ok package) (hpath : scriptsRoot <+: path) :
    package.files path = none := by
  have hother : path ≠ ["release.txt"] := by
    rintro rfl
    revert hpath
    decide
  rcases extractRelease_eq_ok hpackage with rfl | ⟨bytes, hunpack⟩
  · rfl
  · simp only [packageHost] at hunpack
    split at hunpack
    · obtain rfl := Except.ok.inj hunpack
      exact if_neg hother
    · cases hunpack

end Sample

/-- A unit whose environment file has a variable that is also a secret. -/
theorem published_is_deployed_iff_api : ∃ spec package prepared,
    (Sample.apiRecords "TOKEN=default\n").loadUnitSpec Sample.apiContext = .ok spec ∧
      extractRelease Sample.packageHost spec.release = .ok package ∧
      prepareUnitRuntime Sample.packageHost spec = .ok prepared ∧
      Deployed (Sample.apiRevision "TOKEN=default\n") (Sample.apiUnit "TOKEN=default\n")
        package.files spec prepared := by
  obtain ⟨spec, package, prepared, hload, hpackage, hprepare⟩ :=
    Sample.prepared_api "TOKEN=default\n" (by decide +kernel) (by decide +kernel)
      (by decide +kernel)
  refine ⟨spec, package, prepared, hload, hpackage, hprepare, ?_⟩
  have hpublished := Sample.published_api "TOKEN=default\n"
  obtain ⟨-, henvironment, hunit, -⟩ := spec_of_published hload hpublished
  apply (published_is_deployed_iff hpublished hload hpackage hprepare).mpr
  constructor
  · intro entry hentry
    have hentries : assignments (Sample.apiUnit "TOKEN=default\n").envContent =
        [("TOKEN", "default")] := by decide +kernel
    rw [hentries, List.mem_singleton] at hentry
    rw [hentry, henvironment, hunit]
    exact ⟨"secret", List.mem_cons_self⟩
  · intro path hpath hfile
    exact absurd (Sample.package_api hpackage hpath) hfile

/-- The environment file of a unit does not reach its directory. -/
theorem environment_file_dropped : ¬ ∀ (records : ExecutionRecords)
    (context : UnitExecutionContext) (host : PackageHost) (identity : ExecutionIdentity)
    (revision : PublishedApplicationConfig) (unit : ConfigUnit) (spec : UnitExecutionSpec)
    (package : Tree) (prepared : PreparedUnitRuntime),
    Published records context identity revision unit →
      records.loadUnitSpec context = .ok spec → extractRelease host spec.release = .ok package →
        prepareUnitRuntime host spec = .ok prepared →
          Deployed revision unit package.files spec prepared := by
  intro hall
  have hpublished := Sample.published_api "APP_ENV=production\n"
  obtain ⟨spec, package, prepared, hload, hpackage, hprepare⟩ :=
    Sample.prepared_api "APP_ENV=production\n" (by decide +kernel) (by decide +kernel)
      (by decide +kernel)
  have hkept := nothingDropped_of_deployed hpublished hload hpackage hprepare
    (hall _ _ _ _ _ _ _ _ _ hpublished hload hpackage hprepare)
  obtain ⟨-, henvironment, hunit, -⟩ := spec_of_published hload hpublished
  obtain ⟨value, hvalue⟩ := hkept.env ("APP_ENV", "production") (by decide +kernel)
  rw [henvironment, hunit] at hvalue
  have hname : secretPrefix "production" "api" ++ "APP_ENV" ∈
      ["production.api.TOKEN", "production.web.TOKEN"] := List.mem_map_of_mem (f := (·.1)) hvalue
  revert hname
  decide

end EasyDeploy.UnitRuntime
