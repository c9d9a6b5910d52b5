import RustScript.Proofs.Pipeline.Opened
import RustScript.Proofs.Registry.Contract
import RustScript.Proofs.Source.Agree

/-!
# The course of a generation

A generation that succeeds goes well in two steps: its manifest is complete, and then the files of
the project are written (`Goes`). The manifest is a function of the script and of the answers of the
registry, so a registry that gives the same answers leads to the same manifest (`merge_again`). The
manifest file is written only if it has other content, and a project that has been written is
written again by writing its source (`writeProject_again`).
-/

set_option autoImplicit false

namespace RustScript.Pipeline

open RustScript.Progress

variable {σ α : Type}

/-! ## Writing the files of a project -/

theorem child_eq_inner (path : Path) {name : String} (h : Path.Ordinary name) :
    path.child name = path.inner name := Path.child_of_ordinary h

theorem find?_child {files : FileSystem} {path : Path} {name : String} (h : Path.Ordinary name)
    (hdirectory : files.find? path = some .directory) :
    files.find? (path.child name) = files.node? (path.lands files.here ++ [name]) := by
  rw [child_eq_inner path h]
  exact FileSystem.find?_inner h.2.2.1 h.2.1 hdirectory

theorem find?_of_child {files : FileSystem} {path : Path} {name : String} {node : Node}
    (h : Path.Ordinary name) (hnode : files.find? (path.child name) = some node) :
    files.find? path = some .directory := by
  rw [child_eq_inner path h] at hnode
  exact FileSystem.find?_of_inner h.2.2.1 h.2.1 hnode

/-- The two files of a project are at different places. -/
theorem sourcePlace_ne (project : Project) (here : Place) :
    project.manifestPath.lands here ≠ project.generatedSourcePath.lands here := by
  unfold Project.manifestPath Project.generatedSourcePath
  rw [Path.lands_child_of_ordinary here ordinary_cargoToml,
    Path.lands_child_of_ordinary here ordinary_mainRs]
  intro heq
  have hname := List.append_cancel_left heq
  exact absurd hname (by decide)

theorem run_writeChanged (path : Path) (content : List UInt8) (files : FileSystem) :
    (writeChanged path content).run files =
      if files.find? path = some (.file content) then (.ok false, files)
      else if files.find? path = some .directory then
        (.error (.isDirectory path.toString), files)
      else match (FileAction.write path content).run files with
        | (.ok _, after) => (.ok true, after)
        | (.error error, after) => (.error error, after) := by
  have hwrite : ∀ files : FileSystem, (do
      FileAction.write path content
      return true : FileAction Bool).run files =
        match (FileAction.write path content).run files with
        | (.ok _, after) => (.ok true, after)
        | (.error error, after) => (.error error, after) := by
    intro files
    rw [FileAction.run_bind]
    rcases (FileAction.write path content).run files with ⟨_ | _, _⟩ <;> rfl
  unfold writeChanged
  rw [FileAction.run_bind, FileAction.run_get]
  dsimp only
  unfold FileSystem.exists
  cases hnode : files.find? path with
  | none => exact hwrite files
  | some node =>
      obtain ⟨hplace, hat⟩ := FileSystem.place_of_find? hnode
      have hread := FileAction.run_read path files
      rw [hplace] at hread
      dsimp only at hread
      rw [hat] at hread
      rw [if_pos (show (some node).isSome = true from rfl), FileAction.run_bind, hread]
      cases node with
      | directory => rfl
      | file old =>
          dsimp only
          by_cases hsame : old = content
          · rw [if_pos hsame, if_pos (by rw [hsame])]
            rfl
          · rw [if_neg hsame, if_neg fun heq => hsame (Node.file.inj (Option.some.inj heq)),
              if_neg fun heq => by cases heq]
            exact hwrite files

theorem run_leaveEmpty (path : Path) (files : FileSystem) :
    (leaveEmpty path).run files =
      match files.find? path with
      | none => (FileAction.write path []).run files
      | some .directory => (.error (.isDirectory path.toString), files)
      | some (.file _) => (.ok (), files) := by
  unfold leaveEmpty
  rw [FileAction.run_bind, FileAction.run_get]
  dsimp only
  unfold FileSystem.exists
  cases hnode : files.find? path with
  | none => rfl
  | some node =>
      obtain ⟨hplace, hat⟩ := FileSystem.place_of_find? hnode
      have hread := FileAction.run_read path files
      rw [hplace] at hread
      dsimp only at hread
      rw [hat] at hread
      rw [if_pos (show (some node).isSome = true from rfl), FileAction.run_bind, hread]
      cases node <;> rfl

/-- The source of a project is written, and its manifest file left alone. -/
def writeSource (project : Project) (source : String) : FileAction Unit := do
  FileAction.makeDirectories project.directory
  FileAction.write project.generatedSourcePath (Utf8.encode source)

theorem writeProject_eq (project : Project) (source manifest : String) :
    writeProject project source manifest = (do
      writeSource project source
      writeChanged project.manifestPath (Utf8.encode manifest)) := by
  unfold writeProject writeSource
  rw [bind_assoc]

/-- **What it takes to write a project.** The source is written, and then the manifest file unless
it has its content already. -/
theorem writeProject_ok {project : Project} {source manifest : String} {files after : FileSystem}
    {written : Bool} (h : (writeProject project source manifest).run files = (.ok written, after)) :
    ∃ made, (writeSource project source).run files = (.ok (), made) ∧
      (written = true ↔ made.find? project.manifestPath ≠ some (.file (Utf8.encode manifest))) ∧
      made.find? project.manifestPath ≠ some .directory ∧
      made.find? project.generatedSourcePath = some (.file (Utf8.encode source)) ∧
      (written = false → after = made) ∧
      after.find? project.manifestPath = some (.file (Utf8.encode manifest)) := by
  rw [writeProject_eq, FileAction.run_bind] at h
  rcases hsource : (writeSource project source).run files with ⟨error | _, made⟩
  · rw [hsource] at h
    cases (Prod.mk.inj h).1
  · rw [hsource] at h
    dsimp only at h
    refine ⟨made, rfl, ?_⟩
    have hfile : made.find? project.generatedSourcePath = some (.file (Utf8.encode source)) := by
      unfold writeSource at hsource
      rw [FileAction.run_bind] at hsource
      rcases hmade : (FileAction.makeDirectories project.directory).run files with
        ⟨error | _, ready⟩
      · rw [hmade] at hsource
        cases (Prod.mk.inj hsource).1
      · rw [hmade] at hsource
        exact FileAction.find?_of_write hsource
    rw [run_writeChanged] at h
    split at h
    · next hsame =>
        obtain ⟨hwritten, rfl⟩ := Prod.mk.inj h
        obtain rfl := Except.ok.inj hwritten
        refine ⟨?_, ?_, hfile, fun _ => rfl, hsame⟩
        · exact ⟨fun h => absurd h Bool.false_ne_true, fun h => absurd hsame h⟩
        · rw [hsame]
          exact fun h => by cases h
    · next hother =>
        split at h
        · cases (Prod.mk.inj h).1
        · next hfree =>
            rcases hwrite : (FileAction.write project.manifestPath (Utf8.encode manifest)).run made
              with ⟨error | _, done⟩
            · rw [hwrite] at h
              cases (Prod.mk.inj h).1
            · rw [hwrite] at h
              obtain ⟨hwritten, rfl⟩ := Prod.mk.inj h
              obtain rfl := Except.ok.inj hwritten
              exact ⟨⟨fun _ => hother, fun _ => rfl⟩, hfree, hfile, nofun,
                FileAction.find?_of_write hwrite⟩

/-- **A project that has been written** is written again by writing its source. -/
theorem writeProject_again {project : Project} {source manifest : String} {files : FileSystem}
    (hmanifest : files.find? project.manifestPath = some (.file (Utf8.encode manifest)))
    (hsource : files.find? project.generatedSourcePath = some (.file (Utf8.encode source))) :
    (writeProject project source manifest).run files =
      (.ok false, files.put (project.generatedSourcePath.lands files.here)
        (.file (Utf8.encode source))) := by
  have hdirectory := find?_of_child ordinary_mainRs hsource
  have hwrite := FileAction.write_of_file hsource (Utf8.encode source)
  have hgrows := FileAction.keeps_growing_change project.generatedSourcePath
    (fun _ => Utf8.encode source) files
  have hconfined : FileSystem.Confined (· = project.generatedSourcePath.lands files.here)
      (fun _ => False) files (files.put (project.generatedSourcePath.lands files.here)
        (.file (Utf8.encode source))) := .put files (by rfl) _
  rw [show ((FileAction.change project.generatedSourcePath fun _ => Utf8.encode source).run
    files).2 = files.put (project.generatedSourcePath.lands files.here)
      (.file (Utf8.encode source)) from congrArg Prod.snd hwrite] at hgrows
  have hkept := hgrows.find?_of_confined hconfined (sourcePlace_ne project files.here) hmanifest
  rw [writeProject_eq, FileAction.run_bind, writeSource, FileAction.run_bind,
    FileAction.makeDirectories_of_directory hdirectory]
  dsimp only
  rw [hwrite]
  dsimp only
  rw [run_writeChanged, if_pos hkept]

theorem keeps_writeSource {here : Place} {inside way : Place → Prop} {project : Project}
    (hinside : inside (project.generatedSourcePath.lands here))
    (hway : ∀ place, FileAction.OnWay here project.directory place → way place) (source : String) :
    FileAction.Keeps (FileSystem.frame here inside way) (writeSource project source) :=
  FileAction.keeps_bind (FileAction.keeps_makeDirectories hway) fun _ =>
    FileAction.keeps_write hinside _

theorem keeps_growing_writeChanged (path : Path) (content : List UInt8) :
    FileAction.Keeps FileSystem.growing (writeChanged path content) := by
  have hwrite : FileAction.Keeps FileSystem.growing (do
      FileAction.write path content
      return true) :=
    FileAction.keeps_bind (FileAction.keeps_growing_change _ _) fun _ => FileAction.keeps_pure _
  refine FileAction.keeps_bind FileAction.keeps_get fun files => FileAction.keeps_ite ?_ hwrite
  refine FileAction.keeps_bind (FileAction.keeps_read _) fun old => ?_
  exact FileAction.keeps_ite (FileAction.keeps_pure _) hwrite

/-- The source of a project that has been written is in place. -/
theorem source_of_writeProject {project : Project} {source manifest : String}
    {files after : FileSystem} {written : Bool}
    (h : (writeProject project source manifest).run files = (.ok written, after)) :
    after.find? project.generatedSourcePath = some (.file (Utf8.encode source)) := by
  obtain ⟨made, hsource, -, -, hfile, -, -⟩ := writeProject_ok h
  have hchanged : ((writeChanged project.manifestPath (Utf8.encode manifest)).run made).2 =
      after := by
    rw [writeProject_eq, FileAction.run_bind, hsource] at h
    exact congrArg Prod.snd h
  have hkeeps : FileAction.Keeps (FileSystem.frame made.here
      (· = project.manifestPath.lands made.here) fun _ => False)
      (writeChanged project.manifestPath (Utf8.encode manifest)) := keeps_writeChanged (by rfl) _
  have hgrows := keeps_growing_writeChanged project.manifestPath (Utf8.encode manifest) made
  have hconfined := (hkeeps made rfl).2
  rw [hchanged] at hgrows hconfined
  exact FileSystem.Grows.find?_of_confined hgrows hconfined
    (fun heq => sourcePlace_ne project made.here heq.symm) hfile

/-- Writing a project changes nothing but its source, and its manifest file if that is written. -/
theorem confined_writeProject {project : Project} {source manifest : String}
    {files after : FileSystem} {written : Bool}
    (h : (writeProject project source manifest).run files = (.ok written, after)) :
    FileSystem.Confined
      (fun place => place = project.generatedSourcePath.lands files.here ∨
        (place = project.manifestPath.lands files.here ∧ written = true))
      (FileAction.OnWay files.here project.directory) files after := by
  cases written with
  | true =>
      have hkeeps : FileAction.Keeps (FileSystem.frame files.here
          (fun place => place = project.generatedSourcePath.lands files.here ∨
            (place = project.manifestPath.lands files.here ∧ true = true))
          (FileAction.OnWay files.here project.directory))
          (writeProject project source manifest) := by
        rw [writeProject_eq]
        exact FileAction.keeps_bind (keeps_writeSource (.inl rfl) (fun _ => id) source) fun _ =>
          keeps_writeChanged (.inr ⟨rfl, rfl⟩) _
      have hrun := (hkeeps files rfl).2
      rw [h] at hrun
      exact hrun
  | false =>
      obtain ⟨made, hsource, -, -, -, hmade, -⟩ := writeProject_ok h
      have hkeeps : FileAction.Keeps (FileSystem.frame files.here
          (· = project.generatedSourcePath.lands files.here)
          (FileAction.OnWay files.here project.directory)) (writeSource project source) :=
        keeps_writeSource (by rfl) (fun _ => id) source
      have hrun := (hkeeps files rfl).2
      rw [hsource, ← hmade rfl] at hrun
      exact hrun.mono (fun _ => .inl) fun _ => id

theorem node?_put_same {files : FileSystem} {path : Path} {node : Node}
    (h : files.find? path = some node) (place : Place) :
    (files.put (path.lands files.here) node).node? place = files.node? place := by
  rw [FileSystem.node?_put]
  split
  · next heq => rw [← heq.2, (FileSystem.place_of_find? h).2]
  · rfl

/-! ## The same manifest -/

/-- The resolver gives the same answer whenever it is asked for a name, as long as what is kept
outside is `sound`, which it is after every look-up. -/
structure Steady (resolver : Registry.Resolver σ) (sound : σ → Prop) : Prop where
  answers : ∃ answers : String → Except Registry.LookupError Registry.Release,
    ∀ name world, sound world.outside → (resolver.resolve name world).1 = answers name
  sound : ∀ name world, sound world.outside → sound (resolver.resolve name world).2.outside

/-- Two analyses are of the same script. They may differ in the warnings, and in the order in which
they list the crates that the script needs. -/
structure SameScript (metadata other : Source.Metadata) : Prop where
  body : other.body = metadata.body
  mainCount : other.mainCount = metadata.mainCount
  embedded : other.embedded = metadata.embedded
  inferred : ∀ name, name ∈ other.inferred ↔ name ∈ metadata.inferred

theorem SameScript.generatedSource {metadata other : Source.Metadata}
    (h : SameScript metadata other) :
    generatedSource other = Pipeline.generatedSource metadata := by
  unfold Pipeline.generatedSource Source.Metadata.isProgram
  rw [h.body, h.mainCount]

theorem sameScript_warnings (metadata : Source.Metadata) (warnings : List String) :
    SameScript metadata { metadata with warnings } := ⟨rfl, rfl, rfl, fun _ => Iff.rfl⟩

theorem lookUpAll_steady {resolver : Registry.Resolver σ} {sound : σ → Prop}
    (h : Steady resolver sound) (names : List String) {world other : World σ}
    (hworld : sound world.outside) (hother : sound other.outside) :
    (Manifest.lookUpAll resolver names world).1 = (Manifest.lookUpAll resolver names other).1 := by
  obtain ⟨answers, hanswers⟩ := h.answers
  induction names generalizing world other with
  | nil => rfl
  | cons name rest ih =>
      have hmore := ih (h.sound name world hworld) (h.sound name other hother)
      unfold Manifest.lookUpAll
      rw [Frame.stateBind_apply, Frame.stateBind_apply, hanswers name world hworld,
        hanswers name other hother]
      cases Manifest.readAnswer (answers name) with
      | error error => rfl
      | ok answer =>
          show Except.map _ (Manifest.lookUpAll resolver rest _).1 =
            Except.map _ (Manifest.lookUpAll resolver rest _).1
          rw [hmore]

/-- A resolver that remembers is steady if the one that it asks is, as long as it remembers what that
one answers. Spellings of one crate must have the same release. -/
theorem steady_remembering {inner : Registry.Resolver σ} {sound : σ → Prop}
    {answers : String → Except Registry.LookupError Registry.Release}
    (hanswers : ∀ name world, sound world.outside → (inner.resolve name world).1 = answers name)
    (hsound : ∀ name world, sound world.outside → sound (inner.resolve name world).2.outside)
    (hspelling : ∀ name other release, Crate.normalize name = Crate.normalize other →
      answers name = .ok release → answers other = .ok release) :
    Steady (Registry.remembering inner) fun kept => sound kept.2 ∧
      ∀ name release, kept.1.get? (Crate.normalize name) = some release →
        answers name = .ok release := by
  refine ⟨⟨answers, fun name world hworld => ?_⟩, fun name world hworld => ?_⟩
  · rw [Registry.remembering_apply]
    cases hkept : world.outside.1.get? (Crate.normalize name) with
    | some release => exact (hworld.2 name release hkept).symm
    | none => exact hanswers name _ hworld.1
  · rw [Registry.remembering_apply]
    cases hkept : world.outside.1.get? (Crate.normalize name) with
    | some release => exact hworld
    | none =>
        refine ⟨hsound name _ hworld.1, fun other found hfound => ?_⟩
        dsimp only [World.keeping] at hfound
        rw [hanswers name _ hworld.1] at hfound
        cases hanswer : answers name with
        | error error =>
            rw [hanswer] at hfound
            exact hworld.2 other found hfound
        | ok release =>
            rw [hanswer] at hfound
            change Entries.get? (Entries.put _ _ _) _ = _ at hfound
            rw [Entries.get?_put] at hfound
            split at hfound
            · next heq =>
                rw [← Option.some.inj hfound]
                exact hspelling name other release heq hanswer
            · exact hworld.2 other found hfound

theorem missing_congr {inferred other : List String} (h : ∀ name, name ∈ other ↔ name ∈ inferred)
    (declared : Toml.Table) : Manifest.missing other declared = Manifest.missing inferred declared := by
  unfold Manifest.missing
  rw [Text.sortedNames_congr h]

/-- A steady resolver leads to the same manifest for the same script. -/
theorem merge_again {resolver : Registry.Resolver σ} {sound : σ → Prop}
    (hsteady : Steady resolver sound) {metadata again : Source.Metadata}
    (h : SameScript metadata again) (version edition : String) (stem : String) (binary : Path)
    {world other : World σ} (hworld : sound world.outside) (hother : sound other.outside) :
    (Manifest.merge resolver version edition again stem binary other).1.2 =
      (Manifest.merge resolver version edition metadata stem binary world).1.2 := by
  rw [Manifest.merge_eq, Manifest.merge_eq, h.embedded]
  cases Manifest.declare (Manifest.basic stem binary.toString version edition) metadata.embedded with
  | error cause => rfl
  | ok declared =>
      dsimp only
      split
      · dsimp only
        rw [missing_congr h.inferred, lookUpAll_steady hsteady _ hother hworld]
      · rfl

theorem sameScript_merge {resolver : Registry.Resolver σ} (version edition : String)
    (metadata : Source.Metadata) (stem : String) (binary : Path) (world : World σ) :
    SameScript metadata
      (Manifest.merge resolver version edition metadata stem binary world).1.1 := by
  rw [Manifest.merge_eq]
  cases Manifest.declare (Manifest.basic stem binary.toString version edition) metadata.embedded with
  | error cause => exact ⟨rfl, rfl, rfl, fun _ => Iff.rfl⟩
  | ok declared =>
      dsimp only
      split <;> exact sameScript_warnings metadata _

/-- The text of a manifest, or why there is none. -/
def writtenOf (merged : Source.Metadata × Except Manifest.MergeError Manifest) :
    Except Failure (Source.Metadata × Manifest × String) := do
  let manifest ← merged.2.mapError Failure.merge
  let text ← manifest.write.mapError Failure.unwritable
  return (merged.1, manifest, text)

theorem resolveManifest_apply (pipeline : Pipeline σ) (metadata : Source.Metadata)
    (project : Project) (world : World σ) :
    pipeline.resolveManifest metadata project world =
      (writtenOf (Manifest.merge pipeline.resolver pipeline.settings.packageVersion
          pipeline.settings.edition metadata project.stem project.generatedSourcePath world).1,
        (Manifest.merge pipeline.resolver pipeline.settings.packageVersion
          pipeline.settings.edition metadata project.stem project.generatedSourcePath world).2) :=
  rfl

theorem writtenOf_eq_ok_iff {merged : Source.Metadata × Except Manifest.MergeError Manifest}
    {noted : Source.Metadata} {manifest : Manifest} {text : String} :
    writtenOf merged = .ok (noted, manifest, text) ↔
      noted = merged.1 ∧ merged.2 = .ok manifest ∧ manifest.write = .ok text := by
  obtain ⟨metadata, error | merged⟩ := merged
  · exact ⟨nofun, fun h => nomatch h.2.1⟩
  · cases hwrite : merged.write with
    | error error =>
        have herror : writtenOf (metadata, .ok merged) = .error (.unwritable error) := by
          unfold writtenOf
          simp only [Except.mapError, bind, Except.bind, hwrite]
        rw [herror]
        refine ⟨nofun, ?_⟩
        rintro ⟨-, hmanifest, htext⟩
        rw [← Except.ok.inj hmanifest, hwrite] at htext
        cases htext
    | ok written =>
        have hok : writtenOf (metadata, .ok merged) = .ok (metadata, merged, written) := by
          unfold writtenOf
          simp only [Except.mapError, bind, Except.bind, hwrite, pure, Except.pure]
        rw [hok]
        constructor
        · intro h
          obtain ⟨rfl, hrest⟩ := Prod.mk.inj (Except.ok.inj h)
          obtain ⟨rfl, rfl⟩ := Prod.mk.inj hrest
          exact ⟨rfl, rfl, hwrite⟩
        · rintro ⟨rfl, hmanifest, htext⟩
          obtain rfl := Except.ok.inj hmanifest
          rw [hwrite] at htext
          rw [Except.ok.inj htext]

/-- Resolving a manifest leaves files alone if the resolver does. -/
theorem files_resolveManifest {pipeline : Pipeline σ} {logs : Option Path}
    (hlogs : pipeline.WritesOnlyLogs logs) (metadata : Source.Metadata) (project : Project)
    (world : World σ) : (pipeline.resolveManifest metadata project world).2.files = world.files := by
  have hsame : ((⟨(· = ·), fun _ => rfl, fun first second => first.trans second⟩ :
      Frame FileSystem).on World.files).Keeps (Manifest.merge pipeline.resolver
        pipeline.settings.packageVersion pipeline.settings.edition metadata project.stem
        project.generatedSourcePath) :=
    keeps_merge (fun name world => (hlogs.resolver name world).symm) _ _ _ _ _
  rw [resolveManifest_apply]
  exact (hsame world).symm

/-! ## The course of a generation -/

/-- The tracker in another world. -/
def inWorld (tracker : Tracker (Session σ)) (world : World σ) : Tracker (Session σ) :=
  { tracker with state := { tracker.state with world } }

theorem onWorld_apply (action : Act σ α) (tracker : Tracker (Session σ)) :
    onWorld action tracker =
      ((action tracker.state.world).1, inWorld tracker (action tracker.state.world).2) := rfl

/-- What a generation gives once the files of the project are written. -/
def generatedStep (project : Project) (metadata : Source.Metadata) (manifest : Manifest)
    (written : Bool) : Step Source.Metadata where
  detail := generationDetail manifest written
  project := { project with
    manifest := some manifest
    manifestWritten := written
    status := .generated }
  value := metadata

/-- A project that is given up is not there. -/
theorem giveUp_fails (metadata : Source.Metadata) (project : Project) (failure : Failure)
    (tracker : Tracker (Session σ)) :
    (giveUp metadata project failure tracker).1 = .error failure ∨
      ∃ error, (giveUp metadata project failure tracker).1 =
        .error (writeFailure project error) := by
  unfold giveUp
  split
  · rw [Frame.stateBind_apply, onWorld_apply, Act.files_apply]
    rcases (writeRest project (generatedSource metadata)).run tracker.state.world.files with
      ⟨error | _, _⟩
    · exact .inr ⟨error, rfl⟩
    · exact .inl rfl
  · exact .inl rfl

theorem generateStep_apply (pipeline : Pipeline σ) (metadata : Source.Metadata)
    (project : Project) (tracker : Tracker (Session σ)) :
    pipeline.generateStep metadata project tracker =
      match pipeline.resolveManifest metadata project tracker.state.world with
      | (.error failure, world) => giveUp metadata project failure (inWorld tracker world)
      | (.ok (noted, manifest, text), world) =>
          match (writeProject project (generatedSource noted) text).run world.files with
          | (.error error, files) =>
              (.error (writeFailure project error), inWorld tracker { world with files })
          | (.ok written, files) =>
              (.ok (generatedStep project noted manifest written),
                inWorld tracker { world with files }) := by
  rw [generateStep_eq, Frame.stateBind_apply, onWorld_apply]
  rcases pipeline.resolveManifest metadata project tracker.state.world with
    ⟨_ | ⟨noted, manifest, text⟩, world⟩
  · rfl
  · dsimp only [writeOrGiveUp]
    unfold writeStep
    rw [Frame.stateBind_apply, onWorld_apply, Act.files_apply]
    dsimp only [inWorld]
    rcases (writeProject project (generatedSource noted) text).run world.files with ⟨_ | _, _⟩ <;>
      rfl

/-- The body of a generation goes well: the manifest is complete, and then the files are written. -/
structure Goes (pipeline : Pipeline σ) (metadata : Source.Metadata) (project : Project)
    (before : World σ) (noted : Source.Metadata) (manifest : Manifest) (text : String)
    (written : Bool) (after : World σ) : Prop where
  resolved : (pipeline.resolveManifest metadata project before).1 = .ok (noted, manifest, text)
  wrote : (writeProject project (generatedSource noted) text).run
      (pipeline.resolveManifest metadata project before).2.files = (.ok written, after.files)
  /-- Writing files changes nothing else. -/
  world : after = { (pipeline.resolveManifest metadata project before).2 with files := after.files }

theorem generateStep_of_goes {pipeline : Pipeline σ} {metadata noted : Source.Metadata}
    {project : Project} {tracker : Tracker (Session σ)} {manifest : Manifest} {text : String}
    {written : Bool} {after : World σ}
    (h : pipeline.Goes metadata project tracker.state.world noted manifest text written after) :
    pipeline.generateStep metadata project tracker =
      (.ok (generatedStep project noted manifest written), inWorld tracker after) := by
  obtain ⟨hresolved, hwrote, hworld⟩ := h
  rw [generateStep_apply]
  rcases hresolve : pipeline.resolveManifest metadata project tracker.state.world with
    ⟨result, world⟩
  rw [hresolve] at hresolved hwrote hworld
  dsimp only at hresolved hwrote hworld ⊢
  subst hresolved
  dsimp only
  rw [hwrote]
  dsimp only
  rw [← hworld]

/-- A generation that succeeds goes well. -/
theorem goes_of_generateStep {pipeline : Pipeline σ} {metadata : Source.Metadata}
    {project : Project} {tracker : Tracker (Session σ)} {step : Step Source.Metadata}
    (h : (pipeline.generateStep metadata project tracker).1 = .ok step) :
    ∃ noted manifest text written after,
      pipeline.Goes metadata project tracker.state.world noted manifest text written after ∧
        step = generatedStep project noted manifest written := by
  rw [generateStep_apply] at h
  rcases hresolve : pipeline.resolveManifest metadata project tracker.state.world with
    ⟨failure | ⟨noted, manifest, text⟩, world⟩
  · rw [hresolve] at h
    obtain hfails | ⟨error, hfails⟩ := giveUp_fails metadata project failure (inWorld tracker world)
    all_goals
      dsimp only at h
      rw [hfails] at h
      cases h
  · rw [hresolve] at h
    dsimp only at h
    rcases hwrote : (writeProject project (generatedSource noted) text).run world.files with
      ⟨error | written, files⟩
    · rw [hwrote] at h
      cases h
    · rw [hwrote] at h
      refine ⟨noted, manifest, text, written, { world with files }, ⟨?_, ?_, ?_⟩,
        (Except.ok.inj h).symm⟩
      · rw [hresolve]
      · rw [hresolve]
        exact hwrote
      · rw [hresolve]

/-- The body of a generation that leaves the manifest file alone. -/
def sourceStep (pipeline : Pipeline σ) (metadata : Source.Metadata) (project : Project) :
    Run σ (Except Failure (Step Source.Metadata)) :=
  proceed (onWorld (pipeline.resolveManifest metadata project)) fun resolved => do
    match ← onWorld (Act.files (writeSource project (generatedSource resolved.1))) with
    | .error error => return .error (writeFailure project error)
    | .ok () => return .ok (generatedStep project resolved.1 resolved.2.1 false)

/-- Generates the source of a project and leaves its manifest file alone. -/
def generateSource (pipeline : Pipeline σ) (metadata : Source.Metadata) (stem : String)
    (source : Option Path) : Run σ (Except Failure (Project × Source.Metadata)) := do
  about stem
  let (project, result) ← inStage "generate" (pipeline.newProject stem source)
    (pipeline.sourceStep metadata (pipeline.newProject stem source))
  return result.map fun metadata => (project, metadata)

/-- A generation that does not write the manifest file does nothing about it. -/
theorem generateStep_of_unwritten {pipeline : Pipeline σ} {metadata noted : Source.Metadata}
    {project : Project} {tracker : Tracker (Session σ)} {manifest : Manifest} {text : String}
    {after : World σ}
    (h : pipeline.Goes metadata project tracker.state.world noted manifest text false after) :
    pipeline.generateStep metadata project tracker = pipeline.sourceStep metadata project tracker := by
  rw [generateStep_of_goes h]
  obtain ⟨hresolved, hwrote, hworld⟩ := h
  obtain ⟨made, hsource, -, -, -, hmade, -⟩ := writeProject_ok hwrote
  rw [← hmade rfl] at hsource
  unfold sourceStep
  rw [proceed_apply, onWorld_apply]
  dsimp only
  rw [hresolved]
  dsimp only
  rw [Frame.stateBind_apply, onWorld_apply, Act.files_apply]
  rcases hresolve : pipeline.resolveManifest metadata project tracker.state.world with
    ⟨result, world⟩
  rw [hresolve] at hsource hworld
  dsimp only [inWorld] at hsource hworld ⊢
  rw [hsource]
  dsimp only
  rw [← hworld]
  rfl

theorem withTiming_eq (project : Project) (stage : String) (elapsed : Option Binary64) :
    ∃ timings, project.withTiming stage elapsed = { project with timings } := by
  cases elapsed with
  | none => exact ⟨project.timings, rfl⟩
  | some seconds => exact ⟨_, rfl⟩

section

variable {pipeline : Pipeline σ} {metadata noted : Source.Metadata} {stem : String}
  {source : Option Path} {tracker : Tracker (Session σ)}

/-- A generation whose body goes well succeeds. -/
theorem generate_of_goes {manifest : Manifest} {text : String} {written : Bool} {after : World σ}
    (h : pipeline.Goes metadata (pipeline.newProject stem source)
      (opening "generate" (aboutStem stem tracker)).2.state.world noted manifest text written
      after) :
    ∃ timings, pipeline.generate metadata stem source tracker =
      (.ok ({ (generatedStep (pipeline.newProject stem source) noted manifest written).project with
          timings }, noted),
        (closing (opening "generate" (aboutStem stem tracker)).1
          (.ok (generatedStep (pipeline.newProject stem source) noted manifest written))
          (inWorld (opening "generate" (aboutStem stem tracker)).2 after)).2) := by
  rw [generate_apply, inStage_run, generateStep_of_goes h]
  dsimp only [conclude]
  obtain ⟨timings, htimings⟩ := withTiming_eq (generatedStep (pipeline.newProject stem source)
    noted manifest written).project "generate" _
  rw [htimings]
  exact ⟨timings, rfl⟩

/-- A generation that succeeds has a body that goes well. -/
theorem goes_of_generate {project : Project}
    (h : (pipeline.generate metadata stem source tracker).1 = .ok (project, noted)) :
    ∃ manifest text written after, pipeline.Goes metadata (pipeline.newProject stem source)
        (opening "generate" (aboutStem stem tracker)).2.state.world noted manifest text written
        after ∧
      ∃ timings, project = { (generatedStep (pipeline.newProject stem source) noted manifest
        written).project with timings } := by
  rw [generate_apply, inStage_run] at h
  dsimp only at h
  cases hbody : (pipeline.generateStep metadata (pipeline.newProject stem source)
      (opening "generate" (aboutStem stem tracker)).2).1 with
  | error failure =>
      rw [hbody] at h
      cases h
  | ok step =>
      obtain ⟨noted', manifest, text, written, after, hgoes, rfl⟩ := goes_of_generateStep hbody
      rw [hbody] at h
      obtain ⟨rfl, rfl⟩ := Prod.mk.inj (Except.ok.inj h)
      obtain ⟨timings, htimings⟩ := withTiming_eq (generatedStep (pipeline.newProject stem source)
        noted' manifest written).project "generate" _
      exact ⟨manifest, text, written, after, hgoes, timings, htimings⟩

end

end RustScript.Pipeline
