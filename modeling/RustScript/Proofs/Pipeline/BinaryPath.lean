import RustScript.Proofs.Manifest.Canonical
import RustScript.Proofs.Pipeline.Again
import RustScript.Proofs.Project.PathText

/-!
# The source that a manifest points at

The manifest of a project names the source of its binary by a path, and whoever builds the project
reads that path in the directory of the manifest file. What is written there is the path by which
the program itself reaches the source, from the directory where it was called. The two are the same
for a build root that is absolute. For any other the path leads astray, unless the directory of the
project is reached in the same way from within (`binaryPath_of_generate`); so it is for every
relative build root that does not lead upwards (`source_not_found`).
-/

set_option autoImplicit false

namespace RustScript

namespace Manifest

open RustScript.Toml RustScript.Source

variable {σ : Type}

/-- The binaries stand in the document that is written. -/
theorem Sound.get?_bin {manifest : Manifest} (h : manifest.Sound) :
    manifest.toTable.get? "bin" = some manifest.binariesValue := by
  have hkeys : manifest.toTable.keys.Nodup := h.toTable_eq ▸ h.nodup_parts
  refine (Entries.get?_eq_some_iff hkeys).mpr ?_
  rw [h.toTable_eq]
  exact List.mem_append_right _ (List.mem_cons_of_mem _ List.mem_cons_self)

/-- The name of the package and the binary are not for a fragment to decide. -/
theorem own_of_declare {manifest declared : Manifest} {embedded : Option String}
    {warnings : List String} (h : declare manifest embedded = .ok (declared, warnings)) :
    declared.package.name = manifest.package.name ∧ declared.binaries = manifest.binaries := by
  cases embedded with
  | none =>
      obtain ⟨rfl, -⟩ := Prod.mk.inj (Except.ok.inj h)
      exact ⟨rfl, rfl⟩
  | some text =>
      unfold declare at h
      cases hfragment : fragment text with
      | error cause =>
          simp only [hfragment, bind, Except.bind] at h
          cases h
      | ok document =>
          cases hdeclared : declaredDependencies document with
          | error cause =>
              simp only [hfragment, hdeclared, bind, Except.bind] at h
              cases h
          | ok dependencies =>
              simp only [hfragment, hdeclared, bind, Except.bind, pure, Except.pure,
                Except.ok.injEq, Prod.mk.injEq] at h
              rw [← h.1]
              refine ⟨?_, rfl⟩
              unfold Package.withDeclared
              dsimp only
              split <;> rfl

theorem own_of_merge {resolver : Registry.Resolver σ} {version edition stem : String}
    {metadata : Metadata} {binary : Path} {world : World σ} {manifest : Manifest}
    (h : (merge resolver version edition metadata stem binary world).1.2 = .ok manifest) :
    manifest.package.name = .string stem ∧
      manifest.binaries = [⟨.string stem, .string binary.toString⟩] := by
  obtain ⟨kept, warnings, answers, found, hdeclare, -, -, -, -, rfl⟩ :=
    merge_eq_ok (Prod.ext (Prod.ext rfl h) rfl)
  exact own_of_declare hdeclare

end Manifest

namespace Pipeline

variable {σ : Type} {pipeline : Pipeline σ} {logs : Option Path}

/-- The place that a path in the manifest file of a project means: it is read in the directory of
the file. -/
def placeFor (files : FileSystem) (project : Project) (text : String) :
    Except SystemError Place :=
  FileSystem.place { files with here := project.directory.lands files.here } (.ofString text)

/-- The manifest file of the project, in a tree of files, names its binary and gives `text` as the
path of the source. -/
structure Names (project : Project) (files : FileSystem) (text : String) : Prop where
  manifest : ∃ document, files.find? project.manifestPath =
      some (.file (Utf8.encode (Toml.write document))) ∧
    document.get? "bin" =
      some (.array [.table [("name", .string project.stem), ("path", .string text)]])
  /-- The manifest file stands in the directory of the project. -/
  manifestPlace : files.place project.manifestPath =
    .ok (project.directory.lands files.here ++ ["Cargo.toml"])
  /-- The source stands in the same directory. -/
  source : ∃ content, files.node? (project.directory.lands files.here ++ ["main.rs"]) =
    some (.file content)
  /-- The program that a build makes bears the name of the binary, and stands there as well. -/
  target : project.targetPath.lands files.here =
    project.directory.lands files.here ++ ["target", "debug", project.stem]

/-- The directory of the project is reached in the same way from within. -/
def Returns (files : FileSystem) (project : Project) : Prop :=
  FileSystem.find? { files with here := project.directory.lands files.here } project.directory =
      some .directory ∧
    project.directory.lands (project.directory.lands files.here) =
      project.directory.lands files.here

theorem lands_targetPath {project : Project} (hstem : Path.Ordinary project.stem) (here : Place) :
    project.targetPath.lands here =
      project.directory.lands here ++ ["target", "debug", project.stem] := by
  unfold Project.targetPath
  rw [Path.lands_child_of_ordinary _ hstem, Path.lands_child_of_ordinary _ ordinary_debug,
    Path.lands_child_of_ordinary _ ordinary_target, List.append_assoc, List.append_assoc]
  rfl

/-- The path of the source is read from its text as it is. -/
theorem ofString_generatedSourcePath {root stem : String} (hstem : Path.Ordinary stem)
    {project : Project} (h : project.directory = (Path.ofString root).child stem) :
    Path.ofString project.generatedSourcePath.toString = project.generatedSourcePath := by
  unfold Project.generatedSourcePath
  rw [h, Path.child_of_ordinary ordinary_mainRs, Path.child_of_ordinary hstem]
  refine Path.ofString_toString ⟨(Path.regular_ofString root).slashes, fun name hname => ?_⟩ (by simp)
  rcases List.mem_append.mp hname with hfront | hlast
  · rcases List.mem_append.mp hfront with hroot | hmid
    · exact (Path.regular_ofString root).names name hroot
    · rw [List.mem_singleton.mp hmid]
      exact ⟨Path.isName_of_ordinary hstem, hstem.2.2.2⟩
  · rw [List.mem_singleton.mp hlast]
    exact ⟨Path.isName_of_ordinary ordinary_mainRs, ordinary_mainRs.2.2.2⟩

/-- From within, the path of the source means the source exactly if it means a directory in the same
way. -/
theorem placeFor_eq_ok_iff {root stem : String} (hstem : Path.Ordinary stem) {project : Project}
    (h : project.directory = (Path.ofString root).child stem) (files : FileSystem) :
    placeFor files project project.generatedSourcePath.toString =
        .ok (project.directory.lands files.here ++ ["main.rs"]) ↔ Returns files project := by
  unfold placeFor Returns
  rw [ofString_generatedSourcePath hstem h]
  unfold Project.generatedSourcePath
  rw [Path.child_of_ordinary ordinary_mainRs]
  refine (FileSystem.place_inner_eq_ok_iff (by decide) (by decide)).trans
    (and_congr_right fun _ => ?_)
  constructor
  · intro heq
    exact (List.append_cancel_right heq).symm
  · intro heq
    exact congrArg (· ++ ["main.rs"]) heq.symm

/-- Walking does not depend on the working directory. -/
theorem walk_elsewhere (files : FileSystem) (here start : Place) (names : List String) :
    FileSystem.walk { files with here } start names = files.walk start names := by
  induction names generalizing start with
  | nil => rfl
  | cons name rest ih =>
      rw [FileSystem.walk_cons, FileSystem.walk_cons, ih]
      rfl

theorem returns_of_absolute {files : FileSystem} {project : Project}
    (h : project.directory.slashes ≠ 0) (hfound : files.find? project.directory = some .directory) :
    Returns files project := by
  refine ⟨?_, ?_⟩
  · rw [← hfound]
    unfold FileSystem.find? FileSystem.place
    rw [if_neg h, if_neg h, walk_elsewhere]
    rfl
  · unfold Path.lands
    rw [if_neg h, if_neg h]

/-- Names that mean themselves lead further down, each by one. -/
theorem foldl_follow {names : List String} (hup : ".." ∉ names) (hdot : "." ∉ names)
    (here : Place) : names.foldl Path.follow here = here ++ names := by
  induction names generalizing here with
  | nil => exact (List.append_nil _).symm
  | cons name rest ih =>
      rw [List.mem_cons, not_or] at hup hdot
      have hname : Path.follow here name = here ++ [name] := by
        unfold Path.follow
        rw [if_neg (Ne.symm hup.1), if_neg (Ne.symm hdot.1)]
      rw [List.foldl_cons, hname, ih hup.2 hdot.2, List.append_assoc]
      rfl

/-- The names of the path lead downwards, one after the other, and there are some. -/
structure Downwards (names : List String) : Prop where
  up : ".." ∉ names
  dot : "." ∉ names
  some : names ≠ []

theorem downwards_concat {root stem : String} (hstem : Path.Ordinary stem)
    (hup : ".." ∉ (Path.ofString root).names) :
    Downwards ((Path.ofString root).names ++ [stem]) := by
  have hfree : ∀ name, name ∉ (Path.ofString root).names → name ≠ stem →
      name ∉ (Path.ofString root).names ++ [stem] := by
    intro name hroot hne hmem
    rcases List.mem_append.mp hmem with hmem | hlast
    · exact hroot hmem
    · exact hne (List.mem_singleton.mp hlast)
  exact ⟨hfree _ hup (Ne.symm hstem.2.2.1),
    hfree _ (fun hmem => (Path.mem_names_ofString hmem).2.1 rfl) (Ne.symm hstem.2.1), by simp⟩

theorem not_returns_of_downwards {files : FileSystem} {project : Project}
    (h : project.directory.slashes = 0) (hdown : Downwards project.directory.names) :
    ¬ Returns files project := by
  rintro ⟨-, heq⟩
  have hlands : ∀ here, project.directory.lands here = here ++ project.directory.names := by
    intro here
    unfold Path.lands
    rw [if_pos h]
    exact foldl_follow hdown.up hdown.dot here
  rw [hlands (project.directory.lands files.here)] at heq
  exact hdown.some (List.append_cancel_left (heq.trans (List.append_nil _).symm))

section

variable (hlogs : pipeline.WritesOnlyLogs logs) {root stem : String} (hstem : Path.Ordinary stem)
  {metadata noted : Source.Metadata} {source : Option Path}
  {tracker : Progress.Tracker (Session σ)} {project : Project}
  (hlisteners : tracker.listeners = pipeline.listeners)
  (h : (pipeline.generate metadata stem source tracker).1 = .ok (project, noted))

include hlogs hstem hlisteners h

/-- A generation leaves a manifest file that names the binary, with the path by which the program
reaches the source. -/
theorem names_of_generate :
    Names project (pipeline.generate metadata stem source tracker).2.state.world.files
      project.generatedSourcePath.toString := by
  obtain ⟨hplace, hgenerated, -⟩ := generated_of_generate hlogs hlisteners h
  obtain ⟨manifest, text, hmanifest, htext, hfile, -⟩ := hgenerated.manifest
  obtain ⟨hmanifestPlace, -⟩ := FileSystem.place_of_find? hfile
  obtain ⟨-, hsourceNode⟩ := FileSystem.place_of_find? hgenerated.source
  refine ⟨?_, ?_, ?_, ?_⟩
  · obtain ⟨merged, _, _, after, hgoes, timings, rfl⟩ := goes_of_generate h
    obtain rfl : merged = manifest := Option.some.inj hmanifest
    obtain ⟨hmerged, -, -⟩ := hgoes.merged hlogs
    obtain ⟨-, hbinaries⟩ := Manifest.own_of_merge hmerged
    have hbin := (Manifest.sound_of_merge hmerged).get?_bin
    unfold Manifest.binariesValue at hbin
    rw [hbinaries] at hbin
    obtain ⟨-, -, hwritten⟩ := Manifest.write_eq_ok_iff.mp htext
    exact ⟨merged.toTable, hwritten.symm ▸ hfile, hbin⟩
  · rw [hmanifestPlace]
    exact congrArg Except.ok (Path.lands_child_of_ordinary _ ordinary_cargoToml)
  · rw [← Path.lands_child_of_ordinary _ ordinary_mainRs]
    exact ⟨_, hsourceNode⟩
  · exact lands_targetPath (hplace.stem.symm ▸ hstem) _

/-- **Where a manifest points.** After a generation the manifest file of the project gives a path
for the source of its binary that is read in the directory of the file. It means the source that was
generated exactly if the directory of the project is reached in the same way from within: always, if
the build root is absolute; never, if it is relative and does not lead upwards. What a build makes
for the binary is in the same directory in any case. -/
theorem binaryPath_of_generate (hroot : pipeline.settings.buildRoot = .ofString root) :
    let files := (pipeline.generate metadata stem source tracker).2.state.world.files
    Names project files project.generatedSourcePath.toString ∧
      (placeFor files project project.generatedSourcePath.toString =
          .ok (project.directory.lands files.here ++ ["main.rs"]) ↔ Returns files project) ∧
      ((Path.ofString root).slashes ≠ 0 → Returns files project) ∧
      ((Path.ofString root).slashes = 0 → ".." ∉ (Path.ofString root).names →
        ¬ Returns files project) := by
  intro files
  obtain ⟨hplace, hgenerated, -⟩ := generated_of_generate hlogs hlisteners h
  have hdirectory : project.directory = (Path.ofString root).child stem := by
    rw [hplace.directory, ← hroot]
    rfl
  have hinner : (Path.ofString root).child stem =
      ⟨(Path.ofString root).slashes, (Path.ofString root).names ++ [stem]⟩ :=
    Path.child_of_ordinary hstem
  refine ⟨names_of_generate hlogs hstem hlisteners h, placeFor_eq_ok_iff hstem hdirectory files,
    fun habsolute => ?_, fun hrelative hup => ?_⟩
  · obtain ⟨_, _, -, -, hfile, -⟩ := hgenerated.manifest
    refine returns_of_absolute ?_ (find?_of_child ordinary_cargoToml hfile)
    rwa [hdirectory, hinner]
  · refine not_returns_of_downwards ?_ ?_
    all_goals rw [hdirectory, hinner]
    · exact hrelative
    · exact downwards_concat hstem hup

end

/-- With the relative build root `work/build` the path leads astray. -/
theorem binaryPath_of_generate_greeting :
    ∃ project noted, (logsBeside.generate greeting "demo" none
        (logsBeside.opened (World.untouched .empty))).1 = .ok (project, noted) ∧
      placeFor (logsBeside.generate greeting "demo" none
          (logsBeside.opened (World.untouched .empty))).2.state.world.files project
          project.generatedSourcePath.toString ≠
        .ok (project.directory.lands (logsBeside.generate greeting "demo" none
          (logsBeside.opened (World.untouched .empty))).2.state.world.files.here ++ ["main.rs"]) := by
  obtain ⟨project, noted, hgenerate⟩ := generate_greeting
  obtain ⟨-, hiff, -, hrelative⟩ := binaryPath_of_generate writesOnlyLogs_logsBeside ordinary_demo
    rfl hgenerate (show logsBeside.settings.buildRoot = .ofString "work/build" from rfl)
  exact ⟨project, noted, hgenerate, fun hplace => hrelative rfl (by decide) (hiff.mp hplace)⟩

/-- A generation in an empty tree of files, with the build root `build`. -/
def generatedDemo : Except Failure (Project × Source.Metadata) ×
    Progress.Tracker (Session Rehearsal.Trace) :=
  (rehearsed []).generate greeting "demo" none ((rehearsed []).opened (World.untouched .empty))

/-- Read in the directory of its manifest, the path of the source does not lead to it. -/
theorem source_not_found :
    ∃ project noted, generatedDemo.1 = .ok (project, noted) ∧
      Names project generatedDemo.2.state.world.files "build/demo/main.rs" ∧
      placeFor generatedDemo.2.state.world.files project "build/demo/main.rs" ≠
        .ok (project.directory.lands generatedDemo.2.state.world.files.here ++ ["main.rs"]) := by
  cases hresult : generatedDemo.1 with
  | error failure =>
      have hok : generatedDemo.1.isOk = true := by decide +kernel
      rw [hresult] at hok
      cases hok
  | ok generated =>
      obtain ⟨project, noted⟩ := generated
      have hlogs : (rehearsed []).WritesOnlyLogs none := ⟨rfl, fun name world => rfl⟩
      have hlisteners : ((rehearsed []).opened (World.untouched .empty)).listeners =
          (rehearsed []).listeners := rfl
      obtain ⟨hplace, -, -⟩ := generated_of_generate hlogs hlisteners hresult
      have hdirectory : project.directory = (Path.ofString "build").child "demo" := hplace.directory
      have hpath : project.generatedSourcePath.toString = "build/demo/main.rs" := by
        unfold Project.generatedSourcePath
        rw [hdirectory]
        decide
      have hnames := names_of_generate hlogs ordinary_demo hlisteners hresult
      refine ⟨project, noted, rfl, hpath ▸ hnames, fun hplaced => ?_⟩
      rw [← hpath, placeFor_eq_ok_iff ordinary_demo hdirectory] at hplaced
      refine not_returns_of_downwards ?_ ?_ hplaced
      all_goals rw [hdirectory, Path.child_of_ordinary ordinary_demo]
      · rfl
      · exact downwards_concat ordinary_demo (by decide)

end Pipeline

end RustScript
