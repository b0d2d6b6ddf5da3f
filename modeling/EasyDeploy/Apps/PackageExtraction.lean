import EasyDeploy.Foundation.LinkTrees
import EasyDeploy.Foundation.Transition
import EasyDeploy.ReleaseQueue.Tables

/-!
# Extraction of release packages

An uploaded package is staged in a directory of its own and unpacked there, entry by entry.
The path of an entry is checked by its names alone, and the links that earlier entries have
made are followed when the directory of an entry is made.
-/

namespace EasyDeploy.Apps
open Foundation Transition ReleaseQueue

/-- What an entry of an archive creates. -/
inductive EntryKind (α : Type)
  | directory
  | regular (content : α)
  | symlink (absolute : Bool) (names : List String)
  | hardLink (absolute : Bool) (names : List String)
  /-- A global header, for which nothing is unpacked. -/
  | header
deriving Repr, DecidableEq

/-- An entry with its path as the archive spells it. -/
structure Entry (α : Type) where
  path : String
  kind : EntryKind α
  /-- Unpacking fails behind its first write. -/
  broken : Bool
deriving Repr, DecidableEq

/-- The names of a path. -/
def pathNames (path : String) : List String :=
  ((path.toList.splitOn '/').map String.ofList).filter fun name => name != "" && name != "."

/-- The components of an entry's path; those that lead elsewhere are refused. -/
def sanitizeArchivePath (path : String) : Except AppError (List String) :=
  if path.toList.head? = some '/' ∨ ".." ∈ pathNames path then
    .error (.invalidInput "tar.gz 版本包不能包含绝对路径或上级目录")
  else if pathNames path = [] then .error (.invalidInput "tar.gz 条目路径无效")
  else .ok (pathNames path)

/-- What the system does: how far it follows a path, where it permits changes, the directory that
it runs the program in, and its texts for errors. -/
structure Host where
  steps : Nat
  permits : Place → Bool
  workDir : Place
  errorText : Place → String

variable {α : Type}

/-- `create_dir_all` from a directory, with where it ends. -/
def createDirAll (host : Host) : LinkTree α → Place → List String → LinkTree α × Option Place
  | tree, place, [] => (tree, some place)
  | tree, place, name :: names =>
      match tree (place ++ [name]) with
      | none =>
          if host.permits (place ++ [name]) then
            createDirAll host (tree.set (place ++ [name]) .dir) (place ++ [name]) names
          else
            (tree, none)
      | some .dir => createDirAll host tree (place ++ [name]) names
      | some (.link _ _) =>
          match tree.follow host.steps place [name] with
          | some next => createDirAll host tree next names
          | none => (tree, none)
      | some (.file _) => (tree, none)

/-- What a name is linked to; directories have no hard links. -/
def hardLinkSource (host : Host) (tree : LinkTree α) (absolute : Bool) (names : List String) :
    Option (LinkNode α) :=
  match tree.follow host.steps (LinkTree.linkBase absolute host.workDir) names.dropLast with
  | some place =>
      match tree (place ++ [names.getLastD ""]) with
      | some .dir => none
      | node => node
  | none => none

/-- What is put at the place of an entry. -/
def EntryKind.node (host : Host) (tree : LinkTree α) : EntryKind α → Option (LinkNode α)
  | .directory => some .dir
  | .regular content => some (.file content)
  | .symlink absolute names => some (.link absolute names)
  | .hardLink absolute names => hardLinkSource host tree absolute names
  | .header => none

/-- Files and links replace what is no directory; a directory that is there takes the mode of its
entry. -/
def EntryKind.writes : EntryKind α → Option (LinkNode α) → Bool
  | .directory, none | .directory, some .dir => true
  | .directory, some _ => false
  | .regular _, some .dir | .symlink _ _, some .dir => false
  | .regular _, _ | .symlink _ _, _ => true
  | .hardLink _ _, there => there.isNone
  | .header, _ => false

/-- `Entry::unpack` to a name in a directory, and whether it succeeds. -/
def unpack (host : Host) (tree : LinkTree α) (place : Place) (name : String) (entry : Entry α) :
    LinkTree α × Bool :=
  if entry.kind.writes (tree (place ++ [name])) then
    match entry.kind.node host tree, host.permits (place ++ [name]) with
    | some node, true => (tree.set (place ++ [name]) node, !entry.broken)
    | _, _ => (tree, false)
  else
    match entry.kind with
    | .header => (tree, true)
    | _ => (tree, false)

/-- What has been unpacked so far, and how the unpacking has failed. -/
structure Extraction (α : Type) where
  tree : LinkTree α
  failed : Option AppError

/-- `to_string_lossy` of a place. -/
def shown (place : Place) : String := "/" ++ "/".intercalate place

/-- One round of the loop of `extract_tar_gz`, where the next entry may be unreadable. -/
def extractEntry (host : Host) (releaseDir : Place) (artifactVersion : String)
    (tree : LinkTree α) : Except String (Entry α) → Extraction α
  | .error err => ⟨tree, some (.invalidInput
      s!"读取 tar.gz 条目 {artifactVersion} 失败: {err}")⟩
  | .ok entry =>
      match sanitizeArchivePath entry.path with
      | .error failure => ⟨tree, some failure⟩
      | .ok names =>
          let parent := releaseDir ++ names.dropLast
          let target := releaseDir ++ names
          match createDirAll host tree releaseDir names.dropLast with
          | (tree, none) => ⟨tree, some (.internal
              s!"创建解包目录 {shown parent} 失败: {host.errorText parent}")⟩
          | (tree, some place) =>
              match unpack host tree place (names.getLastD "") entry with
              | (tree, true) => ⟨tree, none⟩
              | (tree, false) => ⟨tree, some (.invalidInput
                  s!"解包 tar.gz 条目 {shown target} 失败: {host.errorText target}")⟩

/-- The loop of `extract_tar_gz`, which stops at the first error. -/
def extractEntries (host : Host) (releaseDir : Place) (artifactVersion : String)
    (tree : LinkTree α) : List (Except String (Entry α)) → Extraction α
  | [] => ⟨tree, none⟩
  | entry :: entries =>
      match extractEntry host releaseDir artifactVersion tree entry with
      | ⟨tree, none⟩ => extractEntries host releaseDir artifactVersion tree entries
      | failed => failed

/-- The release directory is the parent of the package; the archive may be unreadable as a whole. -/
def extractTarGz (host : Host) (path : Place) (artifactVersion : String) (tree : LinkTree α)
    (archive : Except String (List (Except String (Entry α)))) : Extraction α :=
  if path = [] then ⟨tree, some (.internal "无法定位发布版本目录")⟩
  else match tree path with
    | some (.file _) =>
        match archive with
        | .ok entries => extractEntries host path.dropLast artifactVersion tree entries
        | .error err => ⟨tree, some (.invalidInput
            s!"解析 tar.gz 版本包 {artifactVersion} 失败: {err}")⟩
    | _ => ⟨tree, some (.internal
        s!"读取 tar.gz 版本包 {shown path} 失败: {host.errorText path}")⟩

/-- An extraction from a tree, entry by entry. -/
def extraction (host : Host) (releaseDir : Place) (artifactVersion : String) (tree : LinkTree α) :
    Transition (Extraction α) (Except String (Entry α)) where
  initial state := state = ⟨tree, none⟩
  step state entry :=
    if state.failed.isNone then
      some (extractEntry host releaseDir artifactVersion state.tree entry)
    else none

/-- The release directory as it is staged, with the package. -/
structure Staged (tree : LinkTree α) (releaseDir : Place) (package : String) : Prop where
  closed : tree.Closed
  dir : tree releaseDir = some .dir
  uploaded : ∃ content, tree (releaseDir ++ [package]) = some (.file content)

/-- Outside the release directory and at the package everything is as before. -/
def Confined (before : LinkTree α) (releaseDir : Place) (package : String) (tree : LinkTree α) :
    Prop :=
  ∀ place, ¬StrictlyBelow releaseDir place ∨ place = releaseDir ++ [package] →
    tree place = before place

/-- Every directory that an entry needs and that is not there yet, and the entry itself where it
is written, lie inside the release directory when links are followed, and the entry is not
written where the package is. -/
structure StaysInside (tree : LinkTree α) (releaseDir : Place) (package : String)
    (names : List String) (kind : EntryKind α) : Prop where
  directories : ∀ front name, front ++ [name] <+: names.dropLast → ∀ place,
    tree.Leads releaseDir front place → tree (place ++ [name]) = none → releaseDir <+: place
  target : ∀ place, tree.Leads releaseDir names.dropLast place →
    kind.writes (tree (place ++ [names.getLastD ""])) = true →
      releaseDir <+: place ∧ place ++ [names.getLastD ""] ≠ releaseDir ++ [package]

/-- What is accepted of an entry stays inside. -/
def EntryStays (releaseDir : Place) (package : String) (tree : LinkTree α)
    (entry : Except String (Entry α)) : Prop :=
  ∀ read, entry = .ok read → ∀ names, sanitizeArchivePath read.path = .ok names →
    StaysInside tree releaseDir package names read.kind

/-- The entries stay inside, each as the entries before it have left the tree. -/
def ArchiveStays (host : Host) (releaseDir : Place) (package artifactVersion : String)
    (tree : LinkTree α) : List (Except String (Entry α)) → Prop
  | [] => True
  | entry :: entries => EntryStays releaseDir package tree entry ∧
      ((extractEntry host releaseDir artifactVersion tree entry).failed = none →
        ArchiveStays host releaseDir package artifactVersion
          (extractEntry host releaseDir artifactVersion tree entry).tree entries)

variable {host : Host} {releaseDir place : Place} {package artifactVersion : String}
  {tree before : LinkTree α} {names : List String}

theorem isPlain_of_sanitize {path : String} (h : sanitizeArchivePath path = .ok names) :
    names ≠ [] ∧ ∀ name ∈ names, IsPlain name := by
  rw [sanitizeArchivePath] at h
  split at h
  · cases h
  rename_i hrelative
  split at h
  · cases h
  rename_i hne
  obtain rfl := Except.ok.inj h
  refine ⟨hne, fun name hname => ?_⟩
  have hfilter := List.of_mem_filter hname
  rw [Bool.and_eq_true, bne_iff_ne, bne_iff_ne] at hfilter
  refine ⟨hfilter.1, hfilter.2, ?_⟩
  rintro rfl
  exact hrelative (.inr hname)

/-- What is made on the way to the directory of an entry is new and below the release directory. -/
structure MadeInside (tree : LinkTree α) (releaseDir place : Place) (names : List String)
    (made : LinkTree α × Option Place) : Prop where
  closed : made.1.Closed
  kept : ∀ other, ¬StrictlyBelow releaseDir other ∨ tree other ≠ none → made.1 other = tree other
  dir : ∀ last, made.2 = some last → made.1 last = some .dir
  ends : ∀ last, made.2 = some last → made.1 = tree ∧ tree.Leads place names last ∨
    tree last = none ∧ releaseDir <+: last

theorem strictlyBelow_of_inside (h : releaseDir <+: place) (name : String) :
    StrictlyBelow releaseDir (place ++ [name]) := by
  refine ⟨h.trans (List.prefix_append _ _), ?_⟩
  rintro rfl
  have hlength := h.length_le
  rw [List.length_append, List.length_singleton] at hlength
  omega

/-- Nothing is made where the way ends early. -/
theorem MadeInside.stopped (hclosed : tree.Closed) :
    MadeInside tree releaseDir place names (tree, none) where
  closed := hclosed
  kept _ _ := rfl
  dir _ h := by cases h
  ends _ h := by cases h

/-- A way that begins with what is there. -/
theorem MadeInside.through {next : Place} {name : String} {made : LinkTree α × Option Place}
    (hmade : MadeInside tree releaseDir next names made) (hleads : tree.Leads place [name] next) :
    MadeInside tree releaseDir place (name :: names) made where
  closed := hmade.closed
  kept := hmade.kept
  dir := hmade.dir
  ends last hlast := (hmade.ends last hlast).imp_left fun hsame => ⟨hsame.1,
    hleads.append hsame.2⟩

/-- A way that begins with a new directory. -/
theorem MadeInside.made {name : String} {made : LinkTree α × Option Place}
    (hclosed : tree.Closed) (hnone : tree (place ++ [name]) = none) (hinside : releaseDir <+: place)
    (hplain : ∀ other ∈ names, IsPlain other)
    (hmade : MadeInside (tree.set (place ++ [name]) .dir) releaseDir (place ++ [name]) names made) :
    MadeInside tree releaseDir place (name :: names) made := by
  have hbelow := strictlyBelow_of_inside hinside name
  refine ⟨hmade.closed, fun other hother => ?_, hmade.dir, fun last hlast => .inr ?_⟩
  · have hne : other ≠ place ++ [name] := by
      rintro rfl
      rcases hother with houtside | hthere
      · exact houtside hbelow
      · exact hthere hnone
    rw [hmade.kept other (by rwa [LinkTree.set_of_ne _ hne]), LinkTree.set_of_ne _ hne]
  · rcases hmade.ends last hlast with ⟨-, hleads⟩ | ⟨hlastNone, hlastInside⟩
    · rw [(hleads.of_empty hplain (LinkTree.set_empty hclosed hnone)).2]
      exact ⟨hnone, hbelow.1⟩
    · refine ⟨?_, hlastInside⟩
      by_cases hne : last = place ++ [name]
      · rw [hne]
        exact hnone
      · rwa [LinkTree.set_of_ne _ hne] at hlastNone

theorem createDirAll_inside (hclosed : tree.Closed) (hdir : tree place = some .dir)
    (hplain : ∀ name ∈ names, IsPlain name)
    (hinside : ∀ front name, front ++ [name] <+: names → ∀ other, tree.Leads place front other →
      tree (other ++ [name]) = none → releaseDir <+: other) :
    MadeInside tree releaseDir place names (createDirAll host tree place names) := by
  induction names generalizing tree place with
  | nil =>
      refine ⟨hclosed, fun _ _ => rfl, fun last hlast => ?_, fun last hlast => ?_⟩
      · obtain rfl := Option.some.inj hlast
        exact hdir
      · obtain rfl := Option.some.inj hlast
        exact .inl ⟨rfl, .here⟩
  | cons name names ih =>
      have hname := hplain name List.mem_cons_self
      have hrest : ∀ other ∈ names, IsPlain other := fun other hother =>
        hplain other (List.mem_cons_of_mem _ hother)
      have hlater : ∀ {next}, tree.Leads place [name] next → ∀ front other,
          front ++ [other] <+: names → ∀ last, tree.Leads next front last →
            tree (last ++ [other]) = none → releaseDir <+: last := by
        intro next hleads front other hfront last hlast
        exact hinside (name :: front) other (List.cons_prefix_cons.mpr ⟨rfl, hfront⟩) last
          (hleads.append hlast)
      rw [createDirAll]
      cases hthere : tree (place ++ [name]) with
      | none =>
          have hplace := hinside [] name (List.cons_prefix_cons.mpr ⟨rfl, List.nil_prefix⟩) place
            .here hthere
          dsimp only
          split
          · refine .made hclosed hthere hplace hrest (ih (hclosed.set hdir (.inl rfl))
              (LinkTree.set_self _ _) hrest fun front other hfront last hleads _ => ?_)
            have hfresh := hleads.of_empty
              (fun n hn => hrest n (hfront.subset (List.mem_append_left _ hn)))
              (LinkTree.set_empty hclosed hthere)
            rw [hfresh.2]
            exact (strictlyBelow_of_inside hplace name).1
          · exact .stopped hclosed
      | some node =>
          cases node with
          | dir =>
              have hleads : tree.Leads place [name] (place ++ [name]) := .enter hname hthere .here
              exact (ih hclosed hthere hrest (hlater hleads)).through hleads
          | file content => exact .stopped hclosed
          | link absolute target =>
              dsimp only
              cases hfollow : tree.follow host.steps place [name] with
              | none => exact .stopped hclosed
              | some next =>
                  have hleads := LinkTree.leads_of_follow hfollow
                  exact (ih hclosed (hleads.dir hclosed hdir) hrest (hlater hleads)).through hleads

/-- An entry changes at most its own place. -/
theorem unpack_eq (host : Host) (tree : LinkTree α) (place : Place) (name : String)
    (entry : Entry α) : (unpack host tree place name entry).1 = tree ∨
      entry.kind.writes (tree (place ++ [name])) = true ∧ ∃ node,
        entry.kind.node host tree = some node ∧
          (unpack host tree place name entry).1 = tree.set (place ++ [name]) node := by
  rw [unpack]
  split
  · rename_i hwrites
    split
    · rename_i node hnode _
      exact .inr ⟨hwrites, node, hnode, rfl⟩
    · exact .inl rfl
  · split
    · exact .inl rfl
    · exact .inl rfl

/-- Only a directory is written on a directory. -/
theorem EntryKind.dir_or_not_dir {kind : EntryKind α} {there : Option (LinkNode α)}
    {node : LinkNode α} (hwrites : kind.writes there = true)
    (hnode : kind.node host tree = some node) : node = .dir ∨ there ≠ some .dir := by
  cases kind with
  | directory => exact .inl (Option.some.inj hnode).symm
  | regular content =>
      refine .inr ?_
      rintro rfl
      cases hwrites
  | symlink absolute names =>
      refine .inr ?_
      rintro rfl
      cases hwrites
  | hardLink absolute names =>
      refine .inr ?_
      rintro rfl
      cases hwrites
  | header => cases hnode

/-- The round of an entry that stays inside. -/
theorem extractEntry_confined (hclosed : tree.Closed) (hdir : tree releaseDir = some .dir)
    (hpackage : tree (releaseDir ++ [package]) ≠ none)
    (hconfined : Confined before releaseDir package tree) {entry : Except String (Entry α)}
    (hinside : EntryStays releaseDir package tree entry) :
    (extractEntry host releaseDir artifactVersion tree entry).tree.Closed ∧
      Confined before releaseDir package
        (extractEntry host releaseDir artifactVersion tree entry).tree := by
  cases entry with
  | error err => exact ⟨hclosed, hconfined⟩
  | ok entry =>
      rw [extractEntry]
      cases hnames : sanitizeArchivePath entry.path with
      | error failure => exact ⟨hclosed, hconfined⟩
      | ok names =>
          obtain ⟨hne, hplain⟩ := isPlain_of_sanitize hnames
          have hstays := hinside entry rfl names hnames
          have hmade := @createDirAll_inside _ host releaseDir releaseDir tree names.dropLast
            hclosed hdir (fun name hname => hplain name (List.dropLast_subset _ hname)) hstays.directories
          dsimp only
          generalize createDirAll host tree releaseDir names.dropLast = made at hmade
          obtain ⟨between, ends⟩ := made
          have hbetween : Confined before releaseDir package between := by
            intro other hother
            rw [← hconfined other hother]
            apply hmade.kept
            rcases hother with houtside | rfl
            · exact .inl houtside
            · exact .inr hpackage
          cases ends with
          | none => exact ⟨hmade.closed, hbetween⟩
          | some last =>
              have hunpacked := unpack_eq host between last (names.getLastD "") entry
              dsimp only
              generalize unpack host between last (names.getLastD "") entry = unpacked at hunpacked
              obtain ⟨after, ok⟩ := unpacked
              have hresult : after.Closed ∧ Confined before releaseDir package after := by
                rcases hunpacked with hsame | ⟨hwrites, node, hnode, hset⟩
                · obtain rfl : after = between := hsame
                  exact ⟨hmade.closed, hbetween⟩
                · obtain rfl : after = between.set _ _ := hset
                  have hplaced : releaseDir <+: last ∧
                      last ++ [names.getLastD ""] ≠ releaseDir ++ [package] := by
                    rcases hmade.ends last rfl with ⟨hsame, hleads⟩ | ⟨hnone, hinside⟩
                    · obtain rfl : between = tree := hsame
                      exact hstays.target last hleads hwrites
                    · refine ⟨hinside, fun hsame => ?_⟩
                      rw [(List.append_inj' hsame rfl).1, hdir] at hnone
                      cases hnone
                  refine ⟨hmade.closed.set (hmade.dir last rfl)
                    (EntryKind.dir_or_not_dir hwrites hnode), fun other hother => ?_⟩
                  rw [← hbetween other hother]
                  apply LinkTree.set_of_ne
                  rintro rfl
                  rcases hother with houtside | hsame
                  · exact houtside (strictlyBelow_of_inside hplaced.1 _)
                  · exact hplaced.2 hsame
              cases ok with
              | true => exact hresult
              | false => exact hresult

/-- The states of an extraction whose entries stay inside. -/
theorem reached_confined (hstaged : Staged tree releaseDir package) {state : Extraction α}
    (h : Reached (extraction host releaseDir artifactVersion tree)
      (fun state entry => EntryStays releaseDir package state.tree entry) state) :
    state.tree.Closed ∧ Confined tree releaseDir package state.tree := by
  obtain ⟨hclosed, hdir, content, huploaded⟩ := hstaged
  refine Reached.invariant (P := fun state => state.tree.Closed ∧
    Confined tree releaseDir package state.tree) h ?_ ?_
  · rintro _ rfl
    exact ⟨hclosed, fun _ _ => rfl⟩
  · rintro state entry next - hinside ⟨hstateClosed, hconfined⟩ hstep
    have houtside : ¬StrictlyBelow releaseDir releaseDir := fun hbelow => hbelow.2 rfl
    have hreleaseDir : state.tree releaseDir = some .dir := by
      rw [hconfined releaseDir (.inl houtside), hdir]
    have hpackage : state.tree (releaseDir ++ [package]) ≠ none := by
      rw [hconfined _ (.inr rfl), huploaded]
      exact Option.some_ne_none _
    simp only [extraction] at hstep
    split at hstep
    · obtain rfl := Option.some.inj hstep
      exact extractEntry_confined hstateClosed hreleaseDir hpackage hconfined hinside
    · cases hstep

/-- The loop goes through states of the extraction. -/
theorem reached_extractEntries {state : Extraction α} {entries : List (Except String (Entry α))}
    (h : Reached (extraction host releaseDir artifactVersion tree)
      (fun state entry => EntryStays releaseDir package state.tree entry) state)
    (hfailed : state.failed = none)
    (hstays : ArchiveStays host releaseDir package artifactVersion state.tree entries) :
    Reached (extraction host releaseDir artifactVersion tree)
      (fun state entry => EntryStays releaseDir package state.tree entry)
      (extractEntries host releaseDir artifactVersion state.tree entries) := by
  induction entries generalizing state with
  | nil =>
      obtain ⟨after, failed⟩ := state
      obtain rfl : failed = none := hfailed
      exact h
  | cons entry entries ih =>
      have hnext : Reached (extraction host releaseDir artifactVersion tree)
          (fun state entry => EntryStays releaseDir package state.tree entry)
          (extractEntry host releaseDir artifactVersion state.tree entry) := by
        refine .next h hstays.1 ?_
        simp only [extraction, hfailed, Option.isNone_none, if_true]
      rw [Apps.extractEntries]
      have hlater := hstays.2
      generalize extractEntry host releaseDir artifactVersion state.tree entry = round
        at hnext hlater
      obtain ⟨after, failed⟩ := round
      cases failed with
      | none => exact ih hnext rfl (hlater rfl)
      | some failure => exact hnext

/-- While the entries stay inside, so do the files of every state and of the whole extraction. -/
theorem extraction_confined (host : Host) (artifactVersion : String)
    (hstaged : Staged tree releaseDir package) :
    (∀ state, Reached (extraction host releaseDir artifactVersion tree)
        (fun state entry => EntryStays releaseDir package state.tree entry) state →
      Confined tree releaseDir package state.tree) ∧
    ∀ archive : Except String (List (Except String (Entry α))),
      (∀ entries, archive = .ok entries →
        ArchiveStays host releaseDir package artifactVersion tree entries) →
      Confined tree releaseDir package
        (extractTarGz host (releaseDir ++ [package]) artifactVersion tree archive).tree := by
  refine ⟨fun state h => (reached_confined hstaged h).2, fun archive hstays => ?_⟩
  obtain ⟨content, huploaded⟩ := hstaged.uploaded
  unfold extractTarGz
  rw [if_neg (by simp), huploaded, List.dropLast_concat]
  cases archive with
  | error err => exact fun _ _ => rfl
  | ok entries =>
      exact (reached_confined hstaged (reached_extractEntries (Reached.start rfl) rfl
        (hstays entries rfl))).2

def shopHost : Host where
  steps := 40
  permits _ := true
  workDir := []
  errorText _ := "Permission denied"

/-- Beside the release directory there is a file of the system. -/
def shopTree : LinkTree Nat := fun place =>
  if place = [] ∨ place = ["etc"] ∨ place = ["staging"] then some .dir
  else if place = ["etc", "passwd"] then some (.file 1)
  else if place = ["staging", "shop.tgz"] then some (.file 2)
  else none

theorem shopTree_staged : Staged shopTree ["staging"] "shop.tgz" where
  closed place name hthere := by
    have hparent : ∀ parent last, place ++ [name] = parent ++ [last] →
        shopTree parent = some .dir → shopTree place = some .dir := by
      intro parent last hsame hdir
      rwa [(List.append_inj' hsame rfl).1]
    rw [shopTree] at hthere
    split at hthere
    · rename_i hdir
      rcases hdir with hnil | hetc | hstaging
      · simp at hnil
      · exact hparent [] "etc" hetc (by decide)
      · exact hparent [] "staging" hstaging (by decide)
    split at hthere
    · rename_i hpasswd
      exact hparent ["etc"] "passwd" hpasswd (by decide)
    split at hthere
    · rename_i hpackage
      exact hparent ["staging"] "shop.tgz" hpackage (by decide)
    · exact absurd rfl hthere
  dir := by decide
  uploaded := ⟨2, by decide⟩

/-- An entry whose directory is there, links followed, stays inside when it is written inside
and not at the package. -/
theorem entryStays_of_follow {tree : LinkTree Nat} {releaseDir : Place} {package path : String}
    {kind : EntryKind Nat} {broken : Bool} (names : List String) (place : Place)
    (hnames : sanitizeArchivePath path = .ok names)
    (hthere : ∀ front name, front ++ [name] <+: names.dropLast → front = [])
    (hfollow : tree.follow shopHost.steps releaseDir names.dropLast = some place)
    (hinside : releaseDir <+: place)
    (hpackage : place ++ [names.getLastD ""] ≠ releaseDir ++ [package]) :
    EntryStays releaseDir package tree (.ok ⟨path, kind, broken⟩) := by
  intro read hread others hothers
  obtain rfl := Except.ok.inj hread
  obtain rfl := Except.ok.inj (hnames.symm.trans hothers)
  refine ⟨fun front name hfront other hleads _ => ?_, fun other hleads _ => ?_⟩
  · obtain rfl := hthere front name hfront
    cases hleads
    exact List.prefix_refl _
  · obtain rfl := hleads.eq_of_follow hfollow
    exact ⟨hinside, hpackage⟩

def shopEntries : List (Except String (Entry Nat)) :=
  [.ok ⟨"releases/", .directory, false⟩, .ok ⟨"current", .symlink false ["releases"], false⟩,
    .ok ⟨"current/server", .regular 3, false⟩]

theorem shopEntries_stay :
    ArchiveStays shopHost ["staging"] "shop.tgz" "1.0.0" shopTree shopEntries := by
  have hshort : ∀ front : List String, ∀ name last, front ++ [name] <+: [last] → front = [] := by
    intro front name last hfront
    have hlength := hfront.length_le
    rw [List.length_append, List.length_singleton, List.length_singleton] at hlength
    exact List.eq_nil_of_length_eq_zero (by omega)
  have hnone : ∀ front : List String, ∀ name, front ++ [name] <+: [] → front = [] := by
    intro front name hfront
    cases List.append_eq_nil_iff.mp (List.prefix_nil.mp hfront) with
    | intro hempty _ => exact hempty
  refine ⟨?_, fun _ => ⟨?_, fun _ => ⟨?_, fun _ => trivial⟩⟩⟩
  · exact entryStays_of_follow ["releases"] ["staging"] (by decide) (fun front name =>
      hnone front name) rfl (List.prefix_refl _) (by decide)
  · exact entryStays_of_follow ["current"] ["staging"] (by decide) (fun front name =>
      hnone front name) rfl (List.prefix_refl _) (by decide)
  · exact entryStays_of_follow ["current", "server"] ["staging", "releases"] (by decide)
      (fun front name => hshort front name "current") (by decide) (by decide) (by decide)

/-- A directory, a link to it and an entry behind the link are unpacked inside the release
directory. -/
theorem extraction_confined_shop :
    Confined shopTree ["staging"] "shop.tgz" (extractTarGz shopHost ["staging", "shop.tgz"] "1.0.0"
      shopTree (.ok shopEntries)).tree ∧
    (extractTarGz shopHost ["staging", "shop.tgz"] "1.0.0" shopTree (.ok shopEntries)).tree
      ["staging", "releases", "server"] = some (.file 3) := by
  refine ⟨(extraction_confined shopHost "1.0.0" shopTree_staged).2 _ fun entries hentries => ?_,
    by decide⟩
  obtain rfl := Except.ok.inj hentries
  exact shopEntries_stay

/-- A link of the archive leads out of the release directory, and an entry behind it replaces a
file of the system. -/
theorem extraction_follows_links : ¬∀ (host : Host) (tree : LinkTree Nat) (releaseDir : Place)
    (package artifactVersion : String) (archive : Except String (List (Except String (Entry Nat)))),
    Staged tree releaseDir package → Confined tree releaseDir package
      (extractTarGz host (releaseDir ++ [package]) artifactVersion tree archive).tree := by
  intro h
  have hconfined := h shopHost shopTree ["staging"] "shop.tgz" "1.0.0"
    (.ok [.ok ⟨"conf", .symlink true ["etc"], false⟩, .ok ⟨"conf/passwd", .regular 3, false⟩])
    shopTree_staged ["etc", "passwd"] (.inl fun hbelow => absurd hbelow.1 (by decide))
  revert hconfined
  decide

end EasyDeploy.Apps
