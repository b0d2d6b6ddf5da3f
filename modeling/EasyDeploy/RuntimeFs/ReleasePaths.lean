import EasyDeploy.Apps.Settings
import EasyDeploy.Foundation.Paths
import EasyDeploy.Foundation.Results

/-!
# Paths of releases

Packages and metadata of a release lie in a directory that has the version as its
name. A version may be a dot or two dots, which name the directory of all releases
and the directory of the application, and it may be the name of a staging
directory.
-/

namespace EasyDeploy.RuntimeFs
open Foundation

/-- `Path::file_name`: the last name, unless the path ends in two dots or has no name. -/
def fileName (path : List Char) : Option (List Char) :=
  match ((path.splitOn '/').filter fun part => part != [] && part != ['.']).getLast? with
  | none => none
  | some name => if name = ['.', '.'] then none else some name

/-- The characters of file names. -/
def isFileNameChar (char : Char) : Bool :=
  char.isAlphanum || ['-', '_', '.', '+', '@'].contains char

/-- A name that is not a path. -/
def sanitizeFileName (value : String) : Except String String :=
  match fileName value.toList with
  | none => .error "版本包文件名无效"
  | some name =>
      let name := trim (String.ofList name)
      if name = "" ∨ name = "." ∨ name = ".." ∨ !name.toList.all isFileNameChar then
        .error "版本包文件名仅支持字母、数字、短横线、下划线、点、加号和 @"
      else
        .ok name

/-- What a release belongs to. -/
inductive ReleaseOwner
  | app (appKey : String)
  | unit (appKey unitKey : String)
deriving Repr, DecidableEq

/-- The keys of an owner name directories. -/
def ReleaseOwner.validate : ReleaseOwner → Except String Unit
  | .app appKey => Apps.validateKey appKey
  | .unit appKey unitKey => do
      Apps.validateKey appKey
      Apps.validateKey unitKey

/-- `app_root` and `unit_root`, in the data directory. -/
def ReleaseOwner.root : ReleaseOwner → List String
  | .app appKey => ["apps", appKey]
  | .unit appKey unitKey => ["apps", appKey, "units", unitKey]

/-- The directory of an owner's releases. -/
def ReleaseOwner.releasesDir (owner : ReleaseOwner) : List String := owner.root ++ ["releases"]

/-- The directory of a release. -/
def ReleaseOwner.releaseDir (owner : ReleaseOwner) (version : String) : List String :=
  owner.releasesDir ++ [version]

/-- The name with the process and the number of the staging. -/
def stagingName (version : String) (process : UInt32) (sequence : UInt64) : String :=
  ".staging-" ++ version ++ "-" ++ toString process ++ "-" ++ toString sequence

/-- The directory that a package is staged in. -/
def ReleaseOwner.stagingDir (owner : ReleaseOwner) (version : String) (process : UInt32)
    (sequence : UInt64) : List String :=
  owner.releasesDir ++ [stagingName version process sequence]

/-- A staged package with where it goes. -/
structure StagedReleasePackage where
  stagingDir : List String
  stagedPackagePath : List String
  releaseDir : List String
  packagePath : List String
deriving Repr, DecidableEq

/-- `stage_release_package_file` and `stage_unit_release_package_file`. -/
def ReleaseOwner.stageReleasePackageFile (owner : ReleaseOwner) (version name : String)
    (process : UInt32) (sequence : UInt64) : Except String StagedReleasePackage := do
  owner.validate
  Apps.validateReleaseId version
  let name ← sanitizeFileName name
  let stagingDir := owner.stagingDir version process sequence
  let releaseDir := owner.releaseDir version
  .ok ⟨stagingDir, stagingDir ++ [name], releaseDir, releaseDir ++ [name]⟩

/-- What is done with the files of a release. -/
inductive ReleaseOperation
  | stageReleasePackageFile
  | promoteStagedReleasePackage
  | discardStagedReleasePackage
  | removePromotedReleasePackage
  | saveReleasePackageFile
  | saveReleaseRuntimeMetadata
  | saveBinaryRuntimeFiles
deriving Repr, DecidableEq

/-- What an operation creates, overwrites or removes for a release: directories that are missing
above the releases, systemd files and the current pointer are left out. -/
def ReleaseOperation.touched (owner : ReleaseOwner) (version name : String)
    (process : UInt32) (sequence : UInt64) : ReleaseOperation → Except String (List (List String))
  | .stageReleasePackageFile => do
      let staged ← owner.stageReleasePackageFile version name process sequence
      .ok [staged.stagingDir, staged.stagedPackagePath]
  | .promoteStagedReleasePackage => do
      let staged ← owner.stageReleasePackageFile version name process sequence
      .ok [staged.stagingDir, staged.releaseDir]
  | .discardStagedReleasePackage => do
      let staged ← owner.stageReleasePackageFile version name process sequence
      .ok [staged.stagingDir]
  | .removePromotedReleasePackage => do
      let staged ← owner.stageReleasePackageFile version name process sequence
      .ok [staged.releaseDir]
  | .saveReleasePackageFile => do
      owner.validate
      Apps.validateReleaseId version
      let name ← sanitizeFileName name
      .ok [owner.releaseDir version, owner.releaseDir version ++ [name]]
  | .saveReleaseRuntimeMetadata => do
      owner.validate
      Apps.validateReleaseId version
      .ok [owner.releaseDir version, owner.releaseDir version ++ ["release.yaml"]]
  | .saveBinaryRuntimeFiles => do
      owner.validate
      Apps.validateReleaseId version
      .ok [owner.releaseDir version, owner.releaseDir version ++ ["release.yaml"]]

/-- The promises about a version, next to another one. -/
structure ReleasePathsHold (data : Place) (owner : ReleaseOwner) (version other name : String) :
    Prop where
  below : ∀ (operation : ReleaseOperation) process sequence paths,
    operation.touched owner version name process sequence = .ok paths → ∀ path ∈ paths,
      StrictlyBelow (data.follow owner.releasesDir) (data.follow path)
  distinct : version ≠ other →
    data.follow (owner.releaseDir version) ≠ data.follow (owner.releaseDir other)
  staging : ∀ process sequence,
    data.follow (owner.stagingDir version process sequence) ≠ data.follow (owner.releaseDir other)

theorem plain_of_validateKey {key : String} (h : Apps.validateKey key = .ok ()) : IsPlain key := by
  unfold Apps.validateKey at h
  split at h
  · rename_i hvalid
    refine ⟨?_, ?_, ?_⟩
    all_goals
      rintro rfl
      revert hvalid
      decide
  · cases h

theorem plain_of_validate {owner : ReleaseOwner} (h : owner.validate = .ok ()) :
    ∀ name ∈ owner.releasesDir, IsPlain name := by
  cases owner with
  | app appKey =>
      intro name hname
      simp only [ReleaseOwner.releasesDir, ReleaseOwner.root, List.cons_append, List.nil_append,
        List.mem_cons, List.not_mem_nil, or_false] at hname
      rcases hname with rfl | rfl | rfl
      · decide
      · exact plain_of_validateKey h
      · decide
  | unit appKey unitKey =>
      obtain ⟨⟨⟩, happ, hunit⟩ := except_bind_eq_ok.mp h
      intro name hname
      simp only [ReleaseOwner.releasesDir, ReleaseOwner.root, List.cons_append, List.nil_append,
        List.mem_cons, List.not_mem_nil, or_false] at hname
      rcases hname with rfl | rfl | rfl | rfl | rfl
      · decide
      · exact plain_of_validateKey happ
      · decide
      · exact plain_of_validateKey hunit
      · decide

theorem ne_empty_of_validateReleaseId {version : String}
    (h : Apps.validateReleaseId version = .ok ()) : version ≠ "" := by
  rintro rfl
  revert h
  decide

theorem plain_of_sanitizeFileName {value name : String} (h : sanitizeFileName value = .ok name) :
    IsPlain name := by
  unfold sanitizeFileName at h
  split at h
  · cases h
  · dsimp only at h
    split at h
    · cases h
    · rename_i hvalid
      obtain rfl := Except.ok.inj h
      rw [not_or, not_or, not_or] at hvalid
      exact ⟨hvalid.1, hvalid.2.1, hvalid.2.2.1⟩

theorem plain_stagingName (version : String) (process : UInt32) (sequence : UInt64) :
    IsPlain (stagingName version process sequence) := by
  have hlist : ∃ rest, (stagingName version process sequence).toList =
      '.' :: 's' :: rest := by
    unfold stagingName
    rw [String.toList_append, String.toList_append, String.toList_append, String.toList_append,
      String.toList_append]
    exact ⟨_, rfl⟩
  obtain ⟨rest, hrest⟩ := hlist
  refine ⟨?_, ?_, ?_⟩
  all_goals
    intro heq
    rw [heq] at hrest
    revert hrest
    simp

/-- A version leads into a directory of its own unless it is made of dots. -/
theorem follow_releaseDir {data : Place} {owner : ReleaseOwner} {version : String}
    (howner : owner.validate = .ok ()) (hversion : version ≠ "") :
    data.follow (owner.releaseDir version) =
      if version = "." then data ++ owner.releasesDir
      else if version = ".." then data ++ owner.root
      else data ++ owner.releasesDir ++ [version] := by
  rw [ReleaseOwner.releaseDir, Place.follow_append, Place.follow_plain _ (plain_of_validate howner)]
  show (data ++ owner.releasesDir).step version = _
  rw [Place.step]
  by_cases hdot : version = "."
  · rw [if_pos (.inr hdot), if_pos hdot]
  · rw [if_neg (not_or.mpr ⟨hversion, hdot⟩), if_neg hdot]
    by_cases hdots : version = ".."
    · rw [if_pos hdots, if_pos hdots, ReleaseOwner.releasesDir, ← List.append_assoc,
        List.dropLast_concat]
    · rw [if_neg hdots, if_neg hdots]

/-- Where a version leads, relative to what it belongs to. -/
theorem releaseDir_injective {data : Place} {owner : ReleaseOwner} {version other : String}
    (howner : owner.validate = .ok ()) (hversion : version ≠ "") (hother : other ≠ "")
    (h : data.follow (owner.releaseDir version) = data.follow (owner.releaseDir other)) :
    version = other := by
  have hroot : owner.releasesDir = owner.root ++ ["releases"] := rfl
  rw [follow_releaseDir howner hversion, follow_releaseDir howner hother, hroot] at h
  by_cases hdot : version = "."
  · by_cases hdot' : other = "."
    · rw [hdot, hdot']
    · rw [if_pos hdot, if_neg hdot'] at h
      have hlength := congrArg List.length h
      split at hlength <;> simp at hlength
  · rw [if_neg hdot] at h
    by_cases hdots : version = ".."
    · rw [if_pos hdots] at h
      by_cases hdots' : other = ".."
      · rw [hdots, hdots']
      · have hlength := congrArg List.length h
        rw [if_neg hdots'] at hlength
        split at hlength <;> simp at hlength
    · rw [if_neg hdots] at h
      by_cases hdot' : other = "."
      · rw [if_pos hdot'] at h
        have hlength := congrArg List.length h
        simp at hlength
      · rw [if_neg hdot'] at h
        by_cases hdots' : other = ".."
        · rw [if_pos hdots'] at h
          have hlength := congrArg List.length h
          simp at hlength
        · rw [if_neg hdots'] at h
          exact List.singleton_inj.mp (List.append_cancel_left h)

theorem stageReleasePackageFile_eq_ok {owner : ReleaseOwner} {version name : String}
    {process : UInt32} {sequence : UInt64} {staged : StagedReleasePackage}
    (h : owner.stageReleasePackageFile version name process sequence = .ok staged) :
    ∃ fileName, IsPlain fileName ∧
      staged = ⟨owner.stagingDir version process sequence,
        owner.stagingDir version process sequence ++ [fileName], owner.releaseDir version,
        owner.releaseDir version ++ [fileName]⟩ := by
  obtain ⟨⟨⟩, -, h⟩ := except_bind_eq_ok.mp h
  obtain ⟨⟨⟩, -, h⟩ := except_bind_eq_ok.mp h
  obtain ⟨fileName, hname, h⟩ := except_bind_eq_ok.mp h
  exact ⟨fileName, plain_of_sanitizeFileName hname, (Except.ok.inj h).symm⟩

/-- An operation touches its staging directory, its release directory and files in them. -/
theorem touched_eq_ok {owner : ReleaseOwner} {version name : String} {process : UInt32}
    {sequence : UInt64} {operation : ReleaseOperation} {paths : List (List String)}
    (h : operation.touched owner version name process sequence = .ok paths) :
    ∀ path ∈ paths, ∃ rest, (∀ name ∈ rest, IsPlain name) ∧
      (path = owner.stagingDir version process sequence ++ rest ∨
        path = owner.releaseDir version ++ rest) := by
  have hnone : ∀ name ∈ ([] : List String), IsPlain name := by rintro name ⟨⟩
  have hone {fileName : String} (hname : IsPlain fileName) : ∀ name ∈ [fileName], IsPlain name := by
    intro name hmem
    rw [List.mem_singleton.mp hmem]
    exact hname
  have hmetadata (hpaths : paths = [owner.releaseDir version,
      owner.releaseDir version ++ ["release.yaml"]]) :
      ∀ path ∈ paths, ∃ rest, (∀ name ∈ rest, IsPlain name) ∧
        (path = owner.stagingDir version process sequence ++ rest ∨
          path = owner.releaseDir version ++ rest) := by
    intro path hpath
    rw [hpaths, List.mem_cons, List.mem_singleton] at hpath
    rcases hpath with rfl | rfl
    · exact ⟨[], hnone, .inr (List.append_nil _).symm⟩
    · exact ⟨["release.yaml"], hone (by decide), .inr rfl⟩
  cases operation with
  | stageReleasePackageFile =>
      obtain ⟨staged, hstaged, h⟩ := except_bind_eq_ok.mp h
      obtain ⟨fileName, hname, rfl⟩ := stageReleasePackageFile_eq_ok hstaged
      obtain rfl := Except.ok.inj h
      intro path hpath
      rw [List.mem_cons, List.mem_singleton] at hpath
      rcases hpath with rfl | rfl
      · exact ⟨[], hnone, .inl (List.append_nil _).symm⟩
      · exact ⟨[fileName], hone hname, .inl rfl⟩
  | promoteStagedReleasePackage =>
      obtain ⟨staged, hstaged, h⟩ := except_bind_eq_ok.mp h
      obtain ⟨fileName, hname, rfl⟩ := stageReleasePackageFile_eq_ok hstaged
      obtain rfl := Except.ok.inj h
      intro path hpath
      rw [List.mem_cons, List.mem_singleton] at hpath
      rcases hpath with rfl | rfl
      · exact ⟨[], hnone, .inl (List.append_nil _).symm⟩
      · exact ⟨[], hnone, .inr (List.append_nil _).symm⟩
  | discardStagedReleasePackage =>
      obtain ⟨staged, hstaged, h⟩ := except_bind_eq_ok.mp h
      obtain ⟨fileName, hname, rfl⟩ := stageReleasePackageFile_eq_ok hstaged
      obtain rfl := Except.ok.inj h
      intro path hpath
      rw [List.mem_singleton.mp hpath]
      exact ⟨[], hnone, .inl (List.append_nil _).symm⟩
  | removePromotedReleasePackage =>
      obtain ⟨staged, hstaged, h⟩ := except_bind_eq_ok.mp h
      obtain ⟨fileName, hname, rfl⟩ := stageReleasePackageFile_eq_ok hstaged
      obtain rfl := Except.ok.inj h
      intro path hpath
      rw [List.mem_singleton.mp hpath]
      exact ⟨[], hnone, .inr (List.append_nil _).symm⟩
  | saveReleasePackageFile =>
      obtain ⟨⟨⟩, -, h⟩ := except_bind_eq_ok.mp h
      obtain ⟨⟨⟩, -, h⟩ := except_bind_eq_ok.mp h
      obtain ⟨fileName, hname, h⟩ := except_bind_eq_ok.mp h
      obtain rfl := Except.ok.inj h
      intro path hpath
      rw [List.mem_cons, List.mem_singleton] at hpath
      rcases hpath with rfl | rfl
      · exact ⟨[], hnone, .inr (List.append_nil _).symm⟩
      · exact ⟨[fileName], hone (plain_of_sanitizeFileName hname), .inr rfl⟩
  | saveReleaseRuntimeMetadata =>
      obtain ⟨⟨⟩, -, h⟩ := except_bind_eq_ok.mp h
      obtain ⟨⟨⟩, -, h⟩ := except_bind_eq_ok.mp h
      exact hmetadata (Except.ok.inj h).symm
  | saveBinaryRuntimeFiles =>
      obtain ⟨⟨⟩, -, h⟩ := except_bind_eq_ok.mp h
      obtain ⟨⟨⟩, -, h⟩ := except_bind_eq_ok.mp h
      exact hmetadata (Except.ok.inj h).symm

/-- A version is not made of dots, and the other one is not the name of a staging directory. -/
theorem release_paths_hold_iff (data : Place) {owner : ReleaseOwner} {version other name : String}
    (howner : owner.validate = .ok ()) (hversion : Apps.validateReleaseId version = .ok ())
    (hother : Apps.validateReleaseId other = .ok ()) :
    ReleasePathsHold data owner version other name ↔
      version ≠ "." ∧ version ≠ ".." ∧
        ∀ process sequence, other ≠ stagingName version process sequence := by
  have hne := ne_empty_of_validateReleaseId hversion
  have hne' := ne_empty_of_validateReleaseId hother
  have hreleases : data.follow owner.releasesDir = data ++ owner.releasesDir :=
    Place.follow_plain _ (plain_of_validate howner)
  have hstaging (process : UInt32) (sequence : UInt64) :
      data.follow (owner.stagingDir version process sequence) =
        data ++ owner.releasesDir ++ [stagingName version process sequence] := by
    rw [ReleaseOwner.stagingDir, Place.follow_append, hreleases]
    exact Place.step_plain _ (plain_stagingName version process sequence)
  constructor
  · intro h
    have hdir : StrictlyBelow (data.follow owner.releasesDir)
        (data.follow (owner.releaseDir version)) := by
      have htouched : ReleaseOperation.saveReleaseRuntimeMetadata.touched owner version name 0 0 =
          .ok [owner.releaseDir version, owner.releaseDir version ++ ["release.yaml"]] := by
        rw [ReleaseOperation.touched, howner, hversion]
        rfl
      exact h.below _ _ _ _ htouched _ List.mem_cons_self
    rw [hreleases, follow_releaseDir howner hne] at hdir
    refine ⟨?_, ?_, ?_⟩
    · intro hdot
      rw [if_pos hdot] at hdir
      exact hdir.2 rfl
    · intro hdots
      have hdot : version ≠ "." := by
        rw [hdots]
        decide
      rw [if_neg hdot, if_pos hdots] at hdir
      have hlength := hdir.1.length_le
      simp only [ReleaseOwner.releasesDir, List.length_append, List.length_singleton] at hlength
      omega
    · intro process sequence heq
      apply h.staging process sequence
      rw [hstaging, heq, ReleaseOwner.releaseDir, Place.follow_append, hreleases]
      exact (Place.step_plain _ (plain_stagingName version process sequence)).symm
  · rintro ⟨hdot, hdots, hstagings⟩
    have hplain : IsPlain version := ⟨hne, hdot, hdots⟩
    constructor
    · intro operation process sequence paths htouched path hpath
      obtain ⟨rest, hrest, hcase⟩ := touched_eq_ok htouched path hpath
      rcases hcase with rfl | rfl
      · rw [Place.follow_append, hstaging, Place.follow_plain _ hrest, hreleases, List.append_assoc]
        exact strictlyBelow_append (by simp)
      · rw [ReleaseOwner.releaseDir, List.append_assoc, Place.follow_append, hreleases,
          Place.follow_append, Place.follow_plain _ hrest]
        show StrictlyBelow _ ((data ++ owner.releasesDir).step version ++ rest)
        rw [Place.step_plain _ hplain, List.append_assoc]
        exact strictlyBelow_append (by simp)
    · intro hdistinct heq
      exact hdistinct (releaseDir_injective howner hne hne' heq)
    · intro process sequence heq
      have hplain' := plain_stagingName version process sequence
      apply hstagings process sequence
      have hsame : data.follow (owner.releaseDir (stagingName version process sequence)) =
          data.follow (owner.releaseDir other) := heq
      exact (releaseDir_injective howner hplain'.1 hne' hsame).symm

/-- A version with dots and digits, next to another one. -/
theorem release_paths_hold_iff_semver :
    ReleasePathsHold ["srv", "data"] (.unit "shop" "api") "v1.2.3" "v1.2.4" "api.tar.gz" :=
  (release_paths_hold_iff ["srv", "data"] (by decide) (by decide +kernel)
    (by decide)).mpr ⟨by decide, by decide, fun process sequence heq => by
      have hhead := congrArg (fun text : String => text.toList.head?) heq
      unfold stagingName at hhead
      simp at hhead⟩

/-- The directory of the version `..` is the directory of the application. -/
theorem version_leads_outside : ¬ ∀ (data : Place) (owner : ReleaseOwner)
    (version other name : String), owner.validate = .ok () →
      Apps.validateReleaseId version = .ok () → Apps.validateReleaseId other = .ok () →
        (sanitizeFileName name).isOk = true → ReleasePathsHold data owner version other name := by
  intro hall
  have hholds := hall ["srv", "data"] (.app "shop") ".." "v1.2.4" "shop.tar.gz" (by decide)
    (by decide) (by decide +kernel) (by decide +kernel)
  have hbelow := hholds.below .removePromotedReleasePackage 1 0
    [["apps", "shop", "releases", ".."]] (by decide) _ List.mem_cons_self
  have hlength := hbelow.1.length_le
  revert hlength
  decide

end EasyDeploy.RuntimeFs
