import EasyDeploy.BinaryReleases.RegistrySafety

/-!
# Runs of the registry

Whatever calls are under way, an application runs a version that is registered for
it, and one version at most counts as active.
-/

namespace EasyDeploy.BinaryReleases
open Foundation Foundation.Transition
open Apps (AppDetailItem BinaryConfigItem)

variable {text : JsonText} {s s' : Registry} {a : Action} {appId : Int} {config : BinaryConfigItem}

/-- What holds of the tables between any two steps. -/
structure Coherent (s : Registry) : Prop where
  keyed : WellKeyed s.rows
  active : OneActive s.rows
  configured : ∀ entry ∈ s.configs, trim entry.2.artifactVersion ≠ "" → Registered entry s.rows

namespace Coherent

theorem of_tables (h : Coherent s) (hrows : s'.rows = s.rows) (hconfigs : s'.configs = s.configs) :
    Coherent s' := by
  constructor
  · rw [hrows]
    exact h.keyed
  · rw [hrows]
    exact h.active
  · rw [hrows, hconfigs]
    exact h.configured

/-- Rows of one application change, and the configured version stays registered. -/
theorem withRows (h : Coherent s) (appId : Int) {rows : ArtifactTable} (hkeyed : WellKeyed rows)
    (hactive : OneActive rows)
    (hframe : ∀ other, appId ≠ other → rowsOf other rows = rowsOf other s.rows)
    (hown : ∀ entry ∈ s.configs, entry.1 = appId → trim entry.2.artifactVersion ≠ "" →
      Registered entry rows) : Coherent { s with rows } where
  keyed := hkeyed
  active := hactive
  configured entry hentry hversion := by
    by_cases heq : entry.1 = appId
    · exact hown entry hentry heq hversion
    · exact (h.configured entry hentry hversion).of_rowsOf (hframe entry.1 fun h => heq h.symm)

theorem mem_upsertBinaryConfig {entry : Int × BinaryConfigItem}
    (h : entry ∈ (s.upsertBinaryConfig appId config).configs) (happ : entry.1 = appId) :
    entry = (appId, config) := by
  rcases mem_upsert h with heq | ⟨-, hne⟩
  · exact heq
  · exact absurd happ hne

theorem upsertBinaryConfig (h : Coherent s) : Coherent (s.upsertBinaryConfig appId config) where
  keyed := h.keyed.insertOrUpdate (.configured config)
  active := h.active.registerConfigured
  configured entry hentry hversion := by
    rcases mem_upsert hentry with rfl | ⟨hmem, hne⟩
    · exact registered_registerConfigured
    · refine (h.configured entry hmem hversion).of_rowsOf ?_
      exact rowsOf_registerConfigured fun heq => hne heq.symm

theorem createApp (h : Coherent s) {now : String} (hstep : s.createApp appId config now = some s') :
    Coherent s' := by
  unfold Registry.createApp at hstep
  split at hstep
  · cases hstep
  · rename_i hnew
    obtain rfl := Option.some.inj hstep
    rw [Bool.or_eq_true, not_or] at hnew
    have hother (entry : Int × BinaryConfigItem) (hentry : entry ∈ s.configs) :
        appId ≠ entry.1 := by
      intro heq
      exact hnew.1 (List.any_eq_true.mpr ⟨entry, hentry, beq_iff_eq.mpr heq.symm⟩)
    by_cases hblank : trim config.artifactVersion = ""
    · refine ⟨?_, ?_, fun entry hentry hversion => ?_⟩
      · rw [if_pos hblank]
        exact h.keyed
      · rw [if_pos hblank]
        exact h.active
      · rw [if_pos hblank]
        rcases List.mem_append.mp hentry with hentry | hentry
        · exact h.configured entry hentry hversion
        · rw [List.mem_singleton.mp hentry] at hversion
          exact absurd hblank hversion
    · have hchange (code : Int) : KeepsKeys fun row : BinaryArtifactItem =>
          { row with
            versionCode := code, artifactPath := config.artifactPath, status := .registered
            publishedAt := now, metadata := Apps.manualMetadata config } :=
        ⟨fun _ => rfl, fun _ => rfl, fun _ => rfl⟩
      refine ⟨?_, ?_, fun entry hentry hversion => ?_⟩
      · rw [if_neg hblank]
        exact h.keyed.insertOrUpdate (hchange _)
      · rw [if_neg hblank]
        exact h.active.insertOrUpdate (hchange _) ArtifactStatus.registered_ne_active
          fun _ => ArtifactStatus.registered_ne_active
      · rw [if_neg hblank]
        rcases List.mem_append.mp hentry with hentry | hentry
        · exact (h.configured entry hentry hversion).of_rowsOf
            (rowsOf_registerInitial (hother entry hentry))
        · rw [List.mem_singleton.mp hentry]
          exact registered_insertOrUpdate (hchange _) rfl rfl
            ArtifactStatus.registered_ne_disabled (fun _ => rfl)
            fun _ => ArtifactStatus.registered_ne_disabled

theorem registerBinaryArtifact (h : Coherent s) (upload : PreparedUpload) :
    Coherent (s.registerBinaryArtifact text upload).1 := by
  have hconfigured : Coherent (s.upsertBinaryConfig upload.appId upload.config) :=
    h.upsertBinaryConfig
  have hreplaced : WellKeyed
      (replaceActive upload (s.upsertBinaryConfig upload.appId upload.config).rows) :=
    hconfigured.keyed.replaceActive
  refine hconfigured.withRows upload.appId hreplaced.prune ?_ ?_ ?_
  · exact hconfigured.active.replaceActive.prune
  · intro other hne
    exact (rowsOf_prune hreplaced hne).trans (rowsOf_replaceActive hne)
  · intro entry hentry happ _
    rw [mem_upsertBinaryConfig hentry happ]
    exact registered_replaceActive.prune hreplaced

theorem deployBinaryArtifact (h : Coherent s) (app : AppDetailItem) (artifact : BinaryArtifactItem)
    (current : BinaryConfigItem) : Coherent (s.deployBinaryArtifact app artifact current) := by
  have hconfigured : Coherent (s.upsertBinaryConfig app.id (deployedConfig app artifact current)) :=
    h.upsertBinaryConfig
  have hchange := KeepsKeys.deployed artifact
  refine hconfigured.withRows app.id (hconfigured.keyed.updateAt hchange) ?_ ?_ ?_
  · refine hconfigured.active.updateAt artifact.id hconfigured.keyed hchange
      fun row hactive => ?_
    split at hactive
    · assumption
    · cases hactive
  · intro other hne
    exact rowsOf_updateAt hchange hne
  · intro entry hentry happ _
    rw [mem_upsertBinaryConfig hentry happ]
    refine registered_registerConfigured.updateAt hchange (fun row hpath => ?_) fun row => ?_
    · split
      · rfl
      · exact hpath
    · split
      · exact ArtifactStatus.active_ne_disabled
      · exact ArtifactStatus.registered_ne_disabled

theorem restoreConfigSnapshot (h : Coherent s) (artifact : Option BinaryArtifactItem) :
    Coherent (s.restoreConfigSnapshot appId artifact config) := by
  have hconfigured : Coherent (s.upsertBinaryConfig appId config) := h.upsertBinaryConfig
  cases artifact with
  | none => exact hconfigured
  | some artifact =>
      have hchange := KeepsKeys.status fun row =>
        if row.id = artifact.id then .active else .registered
      refine hconfigured.withRows appId (hconfigured.keyed.updateAt hchange) ?_ ?_ ?_
      · refine hconfigured.active.updateAt artifact.id hconfigured.keyed hchange
          fun row hactive => ?_
        by_contra hne
        rw [if_neg hne] at hactive
        cases hactive
      · intro other hne
        exact rowsOf_updateAt hchange hne
      · intro entry hentry happ _
        rw [mem_upsertBinaryConfig hentry happ]
        refine registered_registerConfigured.updateAt hchange (fun row hpath => hpath)
          fun row => ?_
        dsimp only
        split
        · exact ArtifactStatus.active_ne_disabled
        · exact ArtifactStatus.registered_ne_disabled

theorem commit (h : Coherent s) {number : Nat} {call : Call}
    (hstep : s.commit text number call = some s') : Coherent s' := by
  cases call with
  | registering upload =>
      obtain rfl := Option.some.inj hstep
      exact (h.registerBinaryArtifact upload).of_tables rfl rfl
  | deploying app artifact current =>
      obtain rfl := Option.some.inj hstep
      exact (h.deployBinaryArtifact app artifact current).of_tables rfl rfl
  | restoring appId artifact config =>
      obtain rfl := Option.some.inj hstep
      exact (h.restoreConfigSnapshot artifact).of_tables rfl rfl
  | saving | cleaning => cases hstep

theorem updateActiveSlot (h : Coherent s) (slot : String) :
    Coherent { s with
      configs := updateAt s.configs (·.1) appId (fun _ => true) fun entry =>
        (entry.1, { entry.2 with activeSlot := slot }) } where
  keyed := h.keyed
  active := h.active
  configured entry hentry hversion := by
    obtain ⟨old, hold, rfl⟩ := mem_updateAt.mp hentry
    split at hversion <;> rename_i hwanted
    · rw [if_pos hwanted]
      exact h.configured old hold hversion
    · rw [if_neg hwanted]
      exact h.configured old hold hversion

theorem step (h : Coherent s) (hstep : s.step text a = some s') : Coherent s' := by
  cases a with
  | createApp appId config now => exact h.createApp hstep
  | updatePlatform releasesToKeep =>
      simp only [Registry.step] at hstep
      split at hstep
      · obtain rfl := Option.some.inj hstep
        exact h.of_tables rfl rfl
      · cases hstep
  | configure appId config =>
      obtain rfl := Option.some.inj hstep
      exact h.upsertBinaryConfig
  | updateActiveSlot appId slot =>
      obtain rfl := Option.some.inj hstep
      exact h.updateActiveSlot slot
  | upload input =>
      simp only [Registry.step] at hstep
      split at hstep
      · obtain rfl := Option.some.inj hstep
        exact h.of_tables rfl rfl
      · cases hstep
  | deploy app artifactId =>
      obtain ⟨artifact, -, rfl⟩ := Option.map_eq_some_iff.mp hstep
      exact h.of_tables rfl rfl
  | restore app artifactVersion snapshot =>
      simp only [Registry.step, Registry.restore] at hstep
      split at hstep
      · obtain rfl := Option.some.inj hstep
        exact h.of_tables rfl rfl
      · obtain ⟨artifact, -, rfl⟩ := Option.map_eq_some_iff.mp hstep
        exact h.of_tables rfl rfl
  | save number =>
      obtain ⟨call, -, hsave⟩ := Option.bind_eq_some_iff.mp hstep
      cases call with
      | saving upload =>
          obtain rfl := Option.some.inj hsave
          exact h.of_tables rfl rfl
      | registering | cleaning | deploying | restoring => cases hsave
  | commit number =>
      obtain ⟨call, -, hcommit⟩ := Option.bind_eq_some_iff.mp hstep
      exact h.commit hcommit
  | removeDir number =>
      obtain ⟨call, -, hremove⟩ := Option.bind_eq_some_iff.mp hstep
      cases call with
      | cleaning appId versions =>
          cases versions with
          | nil =>
              obtain rfl := Option.some.inj hremove
              exact h.of_tables rfl rfl
          | cons version versions =>
              obtain rfl := Option.some.inj hremove
              exact h.of_tables rfl rfl
      | saving | registering | deploying | restoring => cases hremove
  | abandon number =>
      obtain ⟨call, -, rfl⟩ := Option.map_eq_some_iff.mp hstep
      exact h.of_tables rfl rfl

end Coherent

variable {releasesToKeep : Nat} {permitted : Registry → Action → Prop}

theorem coherent_of_initial (h : (registry text releasesToKeep).initial s) : Coherent s := by
  obtain rfl := h
  exact ⟨.nil, List.forall_mem_nil _, List.forall_mem_nil _⟩

theorem coherent_of_reached (h : Reached (registry text releasesToKeep) permitted s) :
    Coherent s :=
  h.invariant (fun _ => coherent_of_initial) fun _ _ _ _ _ hcoherent hstep => hcoherent.step hstep

/-- However calls interleave and end early, the version that an application is configured with is
one row of it, at the path of the configuration, which is not disabled. -/
theorem configured_versions_registered (text : JsonText) (releasesToKeep : Nat) (s : Registry)
    (h : Reachable (registry text releasesToKeep) s) (appId : Int) (config : BinaryConfigItem)
    (hconfig : (appId, config) ∈ s.configs) (hversion : trim config.artifactVersion ≠ "") :
    ∃ row ∈ s.rows, row.appId = appId ∧ row.version = config.artifactVersion ∧
      row.artifactPath = config.artifactPath ∧ row.status ≠ .disabled ∧
        ∀ other ∈ s.rows, other.appId = appId → other.version = config.artifactVersion →
          other = row := by
  have hcoherent := coherent_of_reached h
  obtain ⟨row, hrow, hslot, hpath, hstatus⟩ := hcoherent.configured _ hconfig hversion
  refine ⟨row, hrow, congrArg Prod.fst hslot, congrArg Prod.snd hslot, hpath, hstatus,
    fun other hother happ heq => ?_⟩
  apply hcoherent.keyed.slots.eq hother hrow
  rw [hslot, BinaryArtifactItem.slot, happ, heq]

/-- However calls interleave and end early, at most one version of an application is active. -/
theorem one_active_version (text : JsonText) (releasesToKeep : Nat) (s : Registry)
    (h : Reachable (registry text releasesToKeep) s) (row other : BinaryArtifactItem)
    (hrow : row ∈ s.rows) (hother : other ∈ s.rows) (hactive : row.status = .active)
    (hactive' : other.status = .active) (happ : row.appId = other.appId) : row = other := by
  have hcoherent := coherent_of_reached h
  apply hcoherent.keyed.slots.eq hrow hother
  exact hcoherent.active row hrow other hother hactive hactive' happ

namespace Sample

def shop : AppDetailItem where
  id := 1
  appKey := "shop"
  name := "Shop"
  description := ""
  environment := "test"
  appType := "binary"
  deployMode := "single"
  deployStrategy := "rolling_stop_on_failure"
  releaseSource := "package_upload"
  autoQueueRelease := 0
  workDir := "/srv/shop"
  status := "ready"

def package (artifactVersion : String) : RegisterBinaryArtifactInput where
  app := shop
  source := "web"
  artifactVersion := artifactVersion
  versionCode := none
  publishedAt := "2026-01-01T00:00:00Z"
  fileName := "shop"
  entryFile := ""
  uploadedPath := "/data/shop"
  sha256 := "c0ffee"
  sizeBytes := 12

def packageValue : Json :=
  .object [("entry_file", .string "shop"), ("original_file_name", .string "shop"),
    ("sha256", .string "c0ffee"), ("size_bytes", .int 12), ("source", .string "upload"),
    ("source_detail", .string "web"), ("unit_name", .string "easy-deploy-shop.service"),
    ("uploaded_path", .string "/data/shop")]

def packageText : String :=
  "\x7b\"entry_file\":\"shop\",\"original_file_name\":\"shop\",\"sha256\":\"c0ffee\"," ++
    "\"size_bytes\":12,\"source\":\"upload\",\"source_detail\":\"web\"," ++
      "\"unit_name\":\"easy-deploy-shop.service\",\"uploaded_path\":\"/data/shop\"\x7d"

def packageCodec : JsonText where
  toString value := if value = packageValue then .ok packageText else .error "unexpected value"
  fromStr written := if written = packageText then .ok packageValue else .error "unexpected text"

def start : Registry := ⟨[], [], [], 1, []⟩

/-- One upload is kept, and the second of three is older than the first. -/
def actions : List Action :=
  [.upload (package "v2.0.0"), .save 0, .commit 0, .removeDir 0,
    .upload (package "v1.0.0"), .save 0, .commit 0, .removeDir 0,
    .upload (package "v3.0.0"), .save 0, .commit 0, .removeDir 0, .removeDir 0, .removeDir 0]

def outline (s : Registry) : List (String × ArtifactStatus) × List String × List String :=
  (s.rows.map fun row => (row.version, row.status), s.configs.map (·.2.artifactVersion),
    s.releaseDirs.map (·.2))

theorem run : ((registry packageCodec 1).exec start actions).map outline =
    some ([("v2.0.0", .disabled), ("v1.0.0", .disabled), ("v3.0.0", .active)], ["v3.0.0"],
      ["v3.0.0"]) := by
  decide +kernel

theorem reachable_start : Reachable (registry packageCodec 1) start := .start rfl

end Sample

/-- The configured version after three uploads, of which the third one replaces the others. -/
theorem configured_versions_registered_sample : ∃ (s : Registry) (config : BinaryConfigItem),
    (registry Sample.packageCodec 1).exec Sample.start Sample.actions = some s ∧
      config.artifactVersion = "v3.0.0" ∧
        ∃ row ∈ s.rows, row.version = "v3.0.0" ∧ row.artifactPath = config.artifactPath := by
  obtain ⟨s, hexec, hrun⟩ := Option.map_eq_some_iff.mp Sample.run
  have hversions : s.configs.map (·.2.artifactVersion) = ["v3.0.0"] :=
    congrArg (fun outline => outline.2.1) hrun
  obtain ⟨⟨appId, config⟩, hconfig, hversion⟩ : ∃ entry ∈ s.configs,
      entry.2.artifactVersion = "v3.0.0" :=
    List.mem_map.mp (hversions ▸ List.mem_singleton_self _)
  refine ⟨s, config, hexec, hversion, ?_⟩
  obtain ⟨row, hrow, -, hrowVersion, hpath, -⟩ := configured_versions_registered
    Sample.packageCodec 1 s (Sample.reachable_start.exec hexec) appId config hconfig
    (by rw [hversion]; decide +kernel)
  exact ⟨row, hrow, hrowVersion.trans hversion, hpath⟩

/-- The last of three uploads is the active version of its application. -/
theorem one_active_version_sample : ∃ s,
    (registry Sample.packageCodec 1).exec Sample.start Sample.actions = some s ∧
      ∃ row ∈ s.rows, row.version = "v3.0.0" ∧ row.status = .active ∧
        ∀ other ∈ s.rows, other.status = .active → row.appId = other.appId → row = other := by
  obtain ⟨s, hexec, hrun⟩ := Option.map_eq_some_iff.mp Sample.run
  have hrows : ("v3.0.0", ArtifactStatus.active) ∈ s.rows.map fun row =>
      (row.version, row.status) := by
    rw [show (s.rows.map fun row => (row.version, row.status)) = _ from congrArg Prod.fst hrun]
    decide
  obtain ⟨row, hrow, heq⟩ := List.mem_map.mp hrows
  obtain ⟨hversion, hactive⟩ := Prod.mk.inj heq
  refine ⟨s, hexec, row, hrow, hversion, hactive, fun other hother hactive' happ => ?_⟩
  exact one_active_version Sample.packageCodec 1 s (Sample.reachable_start.exec hexec) row other
    hrow hother hactive hactive' happ

end EasyDeploy.BinaryReleases
