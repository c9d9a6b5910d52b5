import RustScript.Proofs.Pipeline.Course

/-!
# Generating again

After a generation the two files of the project hold what was made for the script, and nothing else
has changed but the journal and missing directories. The manifest file was written if and only if it
did not hold these bytes before (`Generated`). So when the same script is generated again, from a
registry that gives the same answers, nothing is left to do: the manifest file is not written, and
no file changes but the journal (`generation_settles`).
-/

set_option autoImplicit false

namespace RustScript.Pipeline

open RustScript.Progress

variable {σ α : Type} {pipeline : Pipeline σ} {logs : Option Path}

/-! ## Places of files -/

theorem lands_child_ne {name other : String} (hname : Path.Ordinary name)
    (hother : Path.Ordinary other) (h : name ≠ other) (here : Place) (path path' : Path) :
    (path.child name).lands here ≠ (path'.child other).lands here := by
  rw [Path.lands_child_of_ordinary here hname, Path.lands_child_of_ordinary here hother]
  intro heq
  have hlast := congrArg List.getLast? heq
  rw [List.getLast?_concat, List.getLast?_concat] at hlast
  exact h (Option.some.inj hlast)

theorem ordinary_journal : Path.Ordinary Log.journalName := by
  refine ⟨?_, ?_, ?_, ?_⟩ <;> decide

theorem not_journalAt_manifestPath (project : Project) (here : Place) (logs : Option Path)
    (stem : String) : ¬ JournalAt here logs stem (project.manifestPath.lands here) := by
  rintro ⟨base, -, heq⟩
  exact lands_child_ne ordinary_cargoToml ordinary_journal (by decide) here _ _ heq

theorem not_journalAt_generatedSourcePath (project : Project) (here : Place) (logs : Option Path)
    (stem : String) : ¬ JournalAt here logs stem (project.generatedSourcePath.lands here) := by
  rintro ⟨base, -, heq⟩
  exact lands_child_ne ordinary_mainRs ordinary_journal (by decide) here _ _ heq

/-! ## What a generation leaves -/

/-- What a generation that succeeds with `project` has made of the files. -/
structure Generated (logs : Option Path) (metadata : Source.Metadata) (project : Project)
    (before after : FileSystem) : Prop where
  /-- The manifest file holds the text of the manifest; it was written if and only if it was absent
  or had other content. -/
  manifest : ∃ manifest text, project.manifest = some manifest ∧ manifest.write = .ok text ∧
    after.find? project.manifestPath = some (.file (Utf8.encode text)) ∧
    (project.manifestWritten = true ↔
      before.node? (project.manifestPath.lands before.here) = none ∨
        ∃ old, old ≠ Utf8.encode text ∧
          before.node? (project.manifestPath.lands before.here) = some (.file old))
  /-- The source file holds the program, or the snippet as a program. -/
  source : after.find? project.generatedSourcePath = some (.file (Utf8.encode
    (if metadata.isProgram then metadata.body else Snippet.wrap metadata.body)))
  /-- Nothing else has changed but the journal, and missing directories. -/
  confined : FileSystem.Confined
    (fun place => place = project.generatedSourcePath.lands before.here ∨
      (place = project.manifestPath.lands before.here ∧ project.manifestWritten = true) ∨
      JournalAt before.here logs project.stem place)
    (fun place => FileAction.OnWay before.here project.directory place ∨
      OnWayToLogs before.here logs project.stem place) before after

section

variable {metadata noted : Source.Metadata} {project : Project} {before after : World σ}
  {manifest : Manifest} {text : String} {written : Bool}

/-- The manifest of a generation that goes well is the one that is merged, and the files are written
as the world was before. -/
theorem Goes.merged (h : pipeline.Goes metadata project before noted manifest text written after)
    (hlogs : pipeline.WritesOnlyLogs logs) :
    (Manifest.merge pipeline.resolver pipeline.settings.packageVersion pipeline.settings.edition
        metadata project.stem project.generatedSourcePath before).1.2 = .ok manifest ∧
      manifest.write = .ok text ∧
      (writeProject project (generatedSource metadata) text).run before.files =
        (.ok written, after.files) := by
  obtain ⟨hresolved, hwrote, -⟩ := h
  rw [files_resolveManifest hlogs] at hwrote
  rw [resolveManifest_apply] at hresolved
  obtain ⟨rfl, hmanifest, htext⟩ := writtenOf_eq_ok_iff.mp hresolved
  rw [(sameScript_merge _ _ _ _ _ _).generatedSource] at hwrote
  exact ⟨hmanifest, htext, hwrote⟩

end

/-- What stands at a place where only a directory can have been made stood there before, unless it is
a directory. -/
theorem node?_of_confined {inside way : Place → Prop} {before after : FileSystem} {place : Place}
    (h : FileSystem.Confined inside way before after) (hfree : ¬ inside place)
    (hfile : after.node? place ≠ some .directory) : after.node? place = before.node? place := by
  rcases h.nodes place hfree with hsame | ⟨-, -, hmade⟩
  · exact hsame
  · exact absurd hmade hfile

/-- **Writing a project** makes of the files what a generation makes of them, up to the journal. -/
theorem generated_of_write {project : Project} {metadata : Source.Metadata} {manifest : Manifest}
    {text : String} {written : Bool} {before opened wrote after : FileSystem}
    (hmanifest : project.manifest = some manifest) (hwritten : project.manifestWritten = written)
    (htext : manifest.write = .ok text)
    (hopened : FileSystem.Confined (JournalAt before.here logs project.stem)
      (OnWayToLogs before.here logs project.stem) before opened)
    (hwrite : (writeProject project (generatedSource metadata) text).run opened = (.ok written, wrote))
    (hclosed : FileSystem.Confined (JournalAt wrote.here logs project.stem)
      (OnWayToLogs wrote.here logs project.stem) wrote after)
    (hgrows : FileSystem.Grows wrote after) : Generated logs metadata project before after := by
  obtain ⟨made, hsource, hiff, hfree, hfile, -, hkept⟩ := writeProject_ok hwrite
  have hwrote := confined_writeProject hwrite
  have hhere : wrote.here = before.here := hwrote.here.trans hopened.here
  refine ⟨⟨manifest, text, hmanifest, htext, ?_, ?_⟩, ?_, ?_⟩
  · exact hgrows.find?_of_confined hclosed (not_journalAt_manifestPath _ _ _ _) hkept
  · -- nothing has happened at the place of the manifest file until the source was written
    have hmade : FileSystem.Confined (· = project.generatedSourcePath.lands opened.here)
        (FileAction.OnWay opened.here project.directory) opened made := by
      have hkeeps : FileAction.Keeps (FileSystem.frame opened.here
          (· = project.generatedSourcePath.lands opened.here)
          (FileAction.OnWay opened.here project.directory))
          (writeSource project (generatedSource metadata)) :=
        keeps_writeSource (by rfl) (fun _ => id) _
      have hrun := (hkeeps opened rfl).2
      rw [hsource] at hrun
      exact hrun
    have hstands := find?_of_child ordinary_mainRs hfile
    have hfound := find?_child ordinary_cargoToml hstands
    rw [← Path.lands_child_of_ordinary _ ordinary_cargoToml, hmade.here, hopened.here] at hfound
    rw [show project.directory.child "Cargo.toml" = project.manifestPath from rfl] at hfound
    rw [hfound] at hiff hfree
    have hafter : made.node? (project.manifestPath.lands before.here) =
        opened.node? (project.manifestPath.lands before.here) := by
      refine node?_of_confined hmade ?_ hfree
      rw [hopened.here]
      exact sourcePlace_ne project before.here
    rw [hafter] at hiff hfree
    have hbefore := node?_of_confined hopened (not_journalAt_manifestPath project _ _ _) hfree
    rw [hbefore] at hiff hfree
    rw [hwritten, hiff]
    rcases hnode : before.node? (project.manifestPath.lands before.here) with _ | (_ | old)
    · exact ⟨fun _ => .inl rfl, fun _ => nofun⟩
    · exact absurd hnode hfree
    · refine ⟨fun hother => .inr ⟨old, fun heq => hother (by rw [heq]), rfl⟩, ?_⟩
      rintro (hnone | ⟨other, hother, hold⟩)
      · cases hnone
      · rw [hold]
        exact fun heq => hother (Node.file.inj (Option.some.inj heq))
  · exact hgrows.find?_of_confined hclosed (not_journalAt_generatedSourcePath _ _ _ _)
      (source_of_writeProject hwrite)
  · rw [hhere] at hclosed
    rw [hopened.here] at hwrote
    refine (hopened.mono (fun _ h => .inr (.inr h)) fun _ => .inr).trans
      ((hwrote.mono ?_ fun _ => .inl).trans (hclosed.mono (fun _ h => .inr (.inr h)) fun _ => .inr))
    rintro place (hplace | hplace)
    · exact .inl hplace
    · exact .inr (.inl ⟨hplace.1, hwritten.trans hplace.2⟩)

section

variable (hlogs : pipeline.WritesOnlyLogs logs) {metadata noted : Source.Metadata} {stem : String}
  {source : Option Path} {tracker : Tracker (Session σ)} {project : Project}

include hlogs

/-- **What a generation leaves.** -/
theorem generated_of_generate (hlisteners : tracker.listeners = pipeline.listeners)
    (h : (pipeline.generate metadata stem source tracker).1 = .ok (project, noted)) :
    project.SharesPlace (pipeline.newProject stem source) ∧
      Generated logs metadata project tracker.state.world.files
        (pipeline.generate metadata stem source tracker).2.state.world.files ∧
      (project.manifestWritten = false → pipeline.generate metadata stem source tracker =
        pipeline.generateSource metadata stem source tracker) := by
  obtain ⟨manifest, text, written, after, hgoes, timings, rfl⟩ := goes_of_generate h
  obtain ⟨_, hgenerate⟩ := generate_of_goes hgoes
  obtain ⟨-, htext, hwrite⟩ := hgoes.merged hlogs
  have hreports := reports_aboutStem hlisteners stem
  have hopening := onlyNotes_opening pipeline stem "generate"
  have hopened := hopening.reports hreports
  have hdone : pipeline.Reports stem
      (inWorld (opening "generate" (aboutStem stem tracker)).2 after) :=
    ⟨hopened.listeners, hopened.subject⟩
  have hclosing := onlyNotes_closing pipeline stem (opening "generate" (aboutStem stem tracker)).1
    (.ok (generatedStep (pipeline.newProject stem source) noted manifest written))
  refine ⟨⟨rfl, rfl⟩, ?_, ?_⟩
  · rw [hgenerate]
    exact generated_of_write rfl rfl htext (hlogs.confined_notes hopening hreports).1 hwrite
      (hlogs.confined_notes hclosing hdone).1 (hlogs.confined_notes hclosing hdone).2
  · rintro rfl
    rw [generate_apply]
    show _ = (fun reached : (Project × Except Failure Source.Metadata) × Tracker (Session σ) =>
        (reached.1.2.map fun metadata => (reached.1.1, metadata), reached.2))
      (inStage "generate" (pipeline.newProject stem source)
        (pipeline.sourceStep metadata (pipeline.newProject stem source)) (aboutStem stem tracker))
    rw [inStage_run, inStage_run, generateStep_of_unwritten hgoes]

end

/-! ## Generating a second time -/

/-- The second generation of a project: it succeeds with the same manifest, and writes nothing but
the source, as it was, and the journal. -/
structure Regenerated (logs : Option Path) (project again : Project) (before after : FileSystem) :
    Prop where
  manifest : again.manifest = project.manifest
  unwritten : again.manifestWritten = false
  /-- Directories for the journal are made if they are missing. -/
  confined : FileSystem.Confined (JournalAt before.here logs project.stem)
    (OnWayToLogs before.here logs project.stem) before after
  settled : LogsSettled logs project.stem before → ∀ place,
    ¬ JournalAt before.here logs project.stem place → after.node? place = before.node? place

/-- What the files of a project hold is found again after notes. -/
theorem find?_of_notes {stem : String} {before after : FileSystem} {name : String}
    (hname : Path.Ordinary name) (hjournal : name ≠ Log.journalName)
    (h : FileSystem.Confined (JournalAt before.here logs stem) (OnWayToLogs before.here logs stem)
      before after) (hgrows : FileSystem.Grows before after) {path : Path} {node : Node}
    (hfound : before.find? (path.child name) = some node) :
    after.find? (path.child name) = some node := by
  refine hgrows.find?_of_confined h ?_ hfound
  rintro ⟨base, -, heq⟩
  exact lands_child_ne hname ordinary_journal hjournal before.here _ _ heq

section

variable (hlogs : pipeline.WritesOnlyLogs logs) {stem : String}

include hlogs

/-- A generation whose body changes nothing writes nothing but notes. -/
theorem regenerated_of_goes {metadata noted : Source.Metadata} {source : Option Path}
    {tracker : Tracker (Session σ)} (hlisteners : tracker.listeners = pipeline.listeners)
    {project : Project} (hstem : project.stem = stem) {manifest : Manifest}
    (hmanifest : project.manifest = some manifest) {text : String} {after : World σ}
    (hgoes : pipeline.Goes metadata (pipeline.newProject stem source)
      (opening "generate" (aboutStem stem tracker)).2.state.world noted manifest text false after)
    (hsame : FileSystem.Confined (fun _ => False) (fun _ => False)
      (opening "generate" (aboutStem stem tracker)).2.state.world.files after.files) :
    ∃ again, (pipeline.generate metadata stem source tracker).1 = .ok (again, noted) ∧
      Regenerated logs project again tracker.state.world.files
        (pipeline.generate metadata stem source tracker).2.state.world.files := by
  obtain ⟨timings, hgenerate⟩ := generate_of_goes hgoes
  have hreports := reports_aboutStem hlisteners stem
  have hopening := onlyNotes_opening pipeline stem "generate"
  have hopened := hopening.reports hreports
  have hdone : pipeline.Reports stem
      (inWorld (opening "generate" (aboutStem stem tracker)).2 after) :=
    ⟨hopened.listeners, hopened.subject⟩
  have hclosing := onlyNotes_closing pipeline stem (opening "generate" (aboutStem stem tracker)).1
    (.ok (generatedStep (pipeline.newProject stem source) noted manifest false))
  obtain ⟨hfirst, hgrows⟩ := hlogs.confined_notes hopening hreports
  have hlast := (hlogs.confined_notes hclosing hdone).1
  have hhere : (inWorld (opening "generate" (aboutStem stem tracker)).2 after).state.world.files.here =
      tracker.state.world.files.here := hsame.here.trans hfirst.here
  rw [hhere] at hlast
  subst hstem
  refine ⟨_, by rw [hgenerate], hmanifest.symm, rfl, ?_, ?_⟩
  · rw [hgenerate]
    exact hfirst.trans ((hsame.mono (fun _ => False.elim) fun _ => False.elim).trans hlast)
  · intro hsettled place hplace
    have hmiddle : FileSystem.Grows
        (opening "generate" (aboutStem project.stem tracker)).2.state.world.files after.files := .of_same hsame
    have hquiet := hlogs.confined_notes_of_settled hopening hreports hsettled
    have hend := hlogs.confined_notes_of_settled hclosing hdone
      ((hsettled.grows hgrows).grows hmiddle)
    rw [hhere] at hend
    rw [hgenerate]
    have hall := hquiet.trans ((hsame.mono (fun _ => False.elim) fun _ => id).trans hend)
    rcases hall.nodes place hplace with hkept | ⟨hway, -⟩
    · exact hkept
    · exact hway.elim

/-- The body of a generation changes nothing if the files of the project are as they are to be. -/
theorem goes_of_written {metadata : Source.Metadata} {project : Project} {before : World σ}
    {manifest : Manifest} {text : String}
    (hmerged : (Manifest.merge pipeline.resolver pipeline.settings.packageVersion
      pipeline.settings.edition metadata project.stem project.generatedSourcePath before).1.2 =
        .ok manifest)
    (htext : manifest.write = .ok text)
    (hmanifest : before.files.find? project.manifestPath = some (.file (Utf8.encode text)))
    (hsource : before.files.find? project.generatedSourcePath =
      some (.file (Utf8.encode (generatedSource metadata)))) :
    ∃ noted after, pipeline.Goes metadata project before noted manifest text false after ∧
      FileSystem.Confined (fun _ => False) (fun _ => False) before.files after.files := by
  refine ⟨(Manifest.merge pipeline.resolver pipeline.settings.packageVersion
    pipeline.settings.edition metadata project.stem project.generatedSourcePath before).1.1,
    { (pipeline.resolveManifest metadata project before).2 with
    files := before.files.put (project.generatedSourcePath.lands before.files.here)
      (.file (Utf8.encode (generatedSource metadata))) }, ⟨?_, ?_, rfl⟩,
    ⟨rfl, fun place _ => .inl (node?_put_same hsource place)⟩⟩
  · rw [resolveManifest_apply]
    exact writtenOf_eq_ok_iff.mpr ⟨rfl, hmerged, htext⟩
  · rw [files_resolveManifest hlogs, (sameScript_merge _ _ _ _ _ _).generatedSource]
    exact writeProject_again hmanifest hsource

/-- **Generating again** what has been generated: the resolver answers as it did, and the files of
the project are as they were left. -/
theorem regenerated {sound : σ → Prop} (hsteady : Steady pipeline.resolver sound)
    {metadata noted : Source.Metadata} {source : Option Path} {tracker : Tracker (Session σ)}
    {project : Project} (hlisteners : tracker.listeners = pipeline.listeners)
    (hsound : sound tracker.state.world.outside)
    (h : (pipeline.generate metadata stem source tracker).1 = .ok (project, noted))
    {again : Source.Metadata} (hagain : SameScript metadata again) (other : Option Path)
    {later : Tracker (Session σ)} (hlater : later.listeners = pipeline.listeners)
    (hstill : sound later.state.world.outside)
    (hmanifest : later.state.world.files.find? project.manifestPath =
      (pipeline.generate metadata stem source tracker).2.state.world.files.find?
        project.manifestPath)
    (hsource : later.state.world.files.find? project.generatedSourcePath =
      (pipeline.generate metadata stem source tracker).2.state.world.files.find?
        project.generatedSourcePath) :
    ∃ project' noted', (pipeline.generate again stem other later).1 = .ok (project', noted') ∧
      Regenerated logs project project' later.state.world.files
        (pipeline.generate again stem other later).2.state.world.files := by
  obtain ⟨hplace, hgenerated, -⟩ := generated_of_generate hlogs hlisteners h
  obtain ⟨manifest, text, hproject, htext, hfile, -⟩ := hgenerated.manifest
  obtain ⟨merged, _, _, _, hgoes, _, hmade⟩ := goes_of_generate h
  have hsame : merged = manifest := by
    rw [hmade] at hproject
    exact Option.some.inj hproject
  obtain ⟨hmerged, -, -⟩ := hgoes.merged hlogs
  rw [hsame] at hmerged
  -- the manifest is merged in a world that is as sound as the first one
  have hreports := reports_aboutStem hlater stem
  have hopening := onlyNotes_opening pipeline stem "generate"
  have hbefore : sound (opening "generate" (aboutStem stem tracker)).2.state.world.outside := by
    rw [hlogs.outside_notes hopening (reports_aboutStem hlisteners stem)]
    exact hsound
  have hopened : sound (opening "generate" (aboutStem stem later)).2.state.world.outside := by
    rw [hlogs.outside_notes hopening hreports]
    exact hstill
  have hmerge := (merge_again hsteady hagain pipeline.settings.packageVersion
    pipeline.settings.edition (pipeline.newProject stem other).stem
    (pipeline.newProject stem other).generatedSourcePath hbefore hopened).trans hmerged
  -- its files are found as the first generation left them
  obtain ⟨hconfined, hgrows⟩ := hlogs.confined_notes hopening hreports
  have hcargo : (opening "generate" (aboutStem stem later)).2.state.world.files.find?
      (pipeline.newProject stem other).manifestPath = some (.file (Utf8.encode text)) := by
    refine find?_of_notes ordinary_cargoToml (by decide) hconfined hgrows ?_
    rw [← show (pipeline.newProject stem source).directory = (pipeline.newProject stem other).directory
      from rfl, ← hplace.directory]
    exact hmanifest.trans hfile
  have hmain : (opening "generate" (aboutStem stem later)).2.state.world.files.find?
      (pipeline.newProject stem other).generatedSourcePath =
        some (.file (Utf8.encode (generatedSource again))) := by
    rw [hagain.generatedSource]
    refine find?_of_notes ordinary_mainRs (by decide) hconfined hgrows ?_
    rw [← show (pipeline.newProject stem source).directory = (pipeline.newProject stem other).directory
      from rfl, ← hplace.directory]
    exact hsource.trans hgenerated.source
  obtain ⟨noted', after', hbody, hquiet⟩ := goes_of_written hlogs hmerge htext hcargo hmain
  obtain ⟨project', hresult, hregenerated⟩ :=
    regenerated_of_goes hlogs hlater hplace.stem hproject hbody hquiet
  exact ⟨project', noted', hresult, hregenerated⟩

end

/-! ## Builds in between -/

theorem keeps_body_generateStep (pipeline : Pipeline σ) (metadata : Source.Metadata)
    (project : Project) : (bodyFrame σ).Keeps (pipeline.generateStep metadata project) :=
  keeps_generateStep_of (keeps_body_onWorld _) (fun _ _ => keeps_body_onWorld _)
    fun _ => keeps_body_onWorld _

/-- A stage that calls a command goes on in the world alone. -/
theorem keeps_body_commandStep (pipeline : Pipeline σ) (stem stage : String) (needed : Path)
    (missing : Failure) (call : Command.Call) (fault : Command.Fault → Failure)
    (failed : Command.Output → Failure) (done : Command.Output → Step Command.Output) :
    (bodyFrame σ).Keeps
      (pipeline.commandStep stem stage needed missing call fault failed done) := by
  refine Frame.keeps_bind (keeps_body_onWorld _) fun present => ?_
  cases present with
  | false => exact Frame.keeps_pure _
  | true =>
      refine Frame.keeps_bind (keeps_body_onWorld _) fun answer => ?_
      cases answer with
      | error problem => exact Frame.keeps_pure _
      | ok output =>
          refine Frame.keeps_bind ?_ fun _ => ?_
          · unfold keepOutput
            split
            · exact Frame.keeps_bind (keeps_body_onWorld _) fun _ => Frame.keeps_pure _
            · exact Frame.keeps_pure _
          · cases output.ok <;> exact Frame.keeps_pure _

theorem keeps_body_buildStep (pipeline : Pipeline σ) (project : Project) :
    (bodyFrame σ).Keeps (pipeline.buildStep project) :=
  keeps_body_commandStep pipeline _ _ _ _ _ _ _ _

/-- Projects of the script `stem` are built one after the other. -/
inductive Builds (pipeline : Pipeline σ) (stem : String) (first : Tracker (Session σ)) :
    Tracker (Session σ) → Prop
  | none : Builds pipeline stem first first
  | more {tracker : Tracker (Session σ)} {project : Project} :
      Builds pipeline stem first tracker → project.stem = stem →
        Builds pipeline stem first (pipeline.build project tracker).2

section

variable (hlogs : pipeline.WritesOnlyLogs logs) {stem : String}

include hlogs

theorem settled_generate (metadata : Source.Metadata) (source : Option Path)
    {tracker : Tracker (Session σ)} (hlisteners : tracker.listeners = pipeline.listeners) :
    pipeline.Reports stem (pipeline.generate metadata stem source tracker).2 ∧
      LogsSettled logs stem
        (pipeline.generate metadata stem source tracker).2.state.world.files := by
  rw [generate_apply]
  exact hlogs.settled_inStage "generate" _ (keeps_body_generateStep pipeline _ _)
    (reports_aboutStem hlisteners stem)

/-- **Builds leave the directory for notes settled**, whatever the toolchain does to files. -/
theorem Builds.settled {first last : Tracker (Session σ)} (h : pipeline.Builds stem first last)
    (hfirst : pipeline.Reports stem first)
    (hsettled : LogsSettled logs stem first.state.world.files) :
    pipeline.Reports stem last ∧ LogsSettled logs stem last.state.world.files := by
  induction h with
  | none => exact ⟨hfirst, hsettled⟩
  | @more tracker project _ hstem ih =>
      subst hstem
      exact hlogs.settled_inStage "build" project (keeps_body_buildStep pipeline project)
        (reports_aboutStem ih.1.listeners project.stem)

end

/-! ## The law -/

/-- The files of the project are as they were. -/
structure KeepsProject (project : Project) (before after : FileSystem) : Prop where
  manifest : after.find? project.manifestPath = before.find? project.manifestPath
  source : after.find? project.generatedSourcePath = before.find? project.generatedSourcePath

/-- **A generation settles its project.** If it succeeds, the files of the project hold what was made
for the script, and the manifest file was written only if that changed it. If the same script is
generated again, after anything that left these two files alone and with a resolver that answers as
it did, this succeeds with the same manifest, and writes no file but the journal; after builds it
makes no directory for that either. -/
theorem generation_settles (hlogs : pipeline.WritesOnlyLogs logs)
    {metadata noted : Source.Metadata} {stem : String} {source : Option Path}
    {tracker : Tracker (Session σ)} {project : Project}
    (hlisteners : tracker.listeners = pipeline.listeners)
    (h : (pipeline.generate metadata stem source tracker).1 = .ok (project, noted)) :
    project.SharesPlace (pipeline.newProject stem source) ∧ SameScript metadata noted ∧
    Generated logs metadata project tracker.state.world.files
      (pipeline.generate metadata stem source tracker).2.state.world.files ∧
    (project.manifestWritten = false → pipeline.generate metadata stem source tracker =
      pipeline.generateSource metadata stem source tracker) ∧
    ∀ (sound : σ → Prop) (again : Source.Metadata) (other : Option Path)
      (later : Tracker (Session σ)), Steady pipeline.resolver sound →
      sound tracker.state.world.outside → sound later.state.world.outside →
      SameScript metadata again → later.listeners = pipeline.listeners →
      KeepsProject project (pipeline.generate metadata stem source tracker).2.state.world.files
        later.state.world.files →
      ∃ project' noted', (pipeline.generate again stem other later).1 = .ok (project', noted') ∧
        Regenerated logs project project' later.state.world.files
          (pipeline.generate again stem other later).2.state.world.files ∧
        (pipeline.Builds stem (pipeline.generate metadata stem source tracker).2 later →
          ∀ place, ¬ JournalAt later.state.world.files.here logs stem place →
            (pipeline.generate again stem other later).2.state.world.files.node? place =
              later.state.world.files.node? place) := by
  obtain ⟨hplace, hgenerated, hunwritten⟩ := generated_of_generate hlogs hlisteners h
  obtain ⟨_, _, _, _, ⟨hresolved, -, -⟩, -⟩ := goes_of_generate h
  rw [resolveManifest_apply] at hresolved
  obtain ⟨hnoted, -, -⟩ := writtenOf_eq_ok_iff.mp hresolved
  refine ⟨hplace, ?_, hgenerated, hunwritten, ?_⟩
  · rw [hnoted]
    exact sameScript_merge _ _ _ _ _ _
  · intro sound again other later hsteady hsound hstill hagain hlater hkept
    obtain ⟨project', noted', hresult, hregenerated⟩ := regenerated hlogs hsteady hlisteners hsound h
      hagain other hlater hstill hkept.manifest hkept.source
    refine ⟨project', noted', hresult, hregenerated, fun hbuilds place hplace' => ?_⟩
    obtain ⟨hreports, hsettled⟩ := settled_generate hlogs metadata source hlisteners
    have hlogsSettled := (hbuilds.settled hlogs hreports hsettled).2
    have hstem : project.stem = stem := hplace.stem
    rw [← hstem] at hlogsSettled hplace'
    exact hregenerated.settled hlogsSettled place hplace'

/-- A snippet that needs no crates. -/
def greeting : Source.Metadata where
  body := "println!();\n"
  directives := []
  description := none
  embedded := none
  inferred := []
  mainCount := 0
  strategy := .textual
  warnings := []

theorem generate_greeting :
    ∃ project noted, (logsBeside.generate greeting "demo" none
      (logsBeside.opened (World.untouched .empty))).1 = .ok (project, noted) := by
  cases hresult : (logsBeside.generate greeting "demo" none
      (logsBeside.opened (World.untouched .empty))).1 with
  | ok generated => exact ⟨generated.1, generated.2, rfl⟩
  | error failure =>
      have hok : (logsBeside.generate greeting "demo" none
        (logsBeside.opened (World.untouched .empty))).1.isOk = true := by decide +kernel
      rw [hresult] at hok
      cases hok

/-- A pipeline that remembers releases and keeps its logs beside the build root. The registry knows
the crate serde. -/
def remembersSerde : Pipeline (Registry.Cache × Rehearsal.Trace) :=
  ⟨Settings.standard (Path.ofString "work/build"),
    Registry.remembering (Rehearsal.fixedResolver [("serde", "1.0.203")]),
    Rehearsal.Cast.plain.runner.beside, some (Log.storeIn (Path.ofString "work/logs")), true⟩

theorem writesOnlyLogs_remembersSerde :
    remembersSerde.WritesOnlyLogs (some (Path.ofString "work/logs")) :=
  ⟨rfl, Registry.files_remembering (Registry.files_fixedResolver _)⟩

/-- What a registry of some releases answers. -/
def shelfAnswer (versions : List (String × String)) (name : String) :
    Except Registry.LookupError Registry.Release :=
  match (Rehearsal.shelf versions).get? (Crate.normalize name) with
  | some (found, version) => .ok ⟨.string found, version⟩
  | none => .error (.notFound name)

theorem shelfAnswer_congr {versions : List (String × String)} {name other : String}
    {release : Registry.Release} (hspelling : Crate.normalize name = Crate.normalize other)
    (h : shelfAnswer versions name = .ok release) : shelfAnswer versions other = .ok release := by
  unfold shelfAnswer at h ⊢
  rw [← hspelling]
  cases hfound : (Rehearsal.shelf versions).get? (Crate.normalize name) with
  | some known =>
      rw [hfound] at h
      exact h
  | none =>
      rw [hfound] at h
      cases h

/-- Nothing is remembered but what the registry answers. -/
def RemembersShelf (versions : List (String × String))
    (kept : Registry.Cache × Rehearsal.Trace) : Prop :=
  True ∧ ∀ name release, kept.1.get? (Crate.normalize name) = some release →
    shelfAnswer versions name = .ok release

theorem steady_remembering_fixedResolver (versions : List (String × String)) :
    Steady (Registry.remembering (Rehearsal.fixedResolver versions)) (RemembersShelf versions) :=
  @steady_remembering _ _ (fun _ => True) (shelfAnswer versions)
    (fun name world _ => Registry.fixedResolver_resolve versions name world)
    (fun _ _ _ => trivial) fun _ _ _ => shelfAnswer_congr

theorem remembersShelf_nil (versions : List (String × String)) (trace : Rehearsal.Trace) :
    RemembersShelf versions ([], trace) := ⟨trivial, nofun⟩

/-- A snippet that needs the crate serde. -/
def usingSerdeTwice : Source.Metadata := { greeting with inferred := ["serde"] }

/-- The tracker before anything has been done. -/
def remembersNothing : Tracker (Session (Registry.Cache × Rehearsal.Trace)) :=
  remembersSerde.opened (World.untouched ([], .empty))

/-- The tracker after the snippet has been generated and then built. -/
def remembersBuilt : Tracker (Session (Registry.Cache × Rehearsal.Trace)) :=
  (remembersSerde.build (remembersSerde.newProject "demo" none)
    (remembersSerde.generate usingSerdeTwice "demo" none remembersNothing).2).2

theorem listeners_remembersBuilt : remembersBuilt.listeners = remembersSerde.listeners := by
  have hopened : remembersNothing.listeners = remembersSerde.listeners := rfl
  obtain ⟨hreports, hlogs⟩ :=
    settled_generate writesOnlyLogs_remembersSerde usingSerdeTwice none hopened
  have hbuilds : remembersSerde.Builds "demo"
      (remembersSerde.generate usingSerdeTwice "demo" none remembersNothing).2 remembersBuilt :=
    .more .none rfl
  exact (hbuilds.settled writesOnlyLogs_remembersSerde hreports hlogs).1.listeners

/-- The entry is the release of the crate serde. -/
def isSerde (entry : String × Registry.Release) : Bool :=
  entry.1 == "serde" && entry.2.version == RawText.ofString "1.0.203" &&
    match entry.2.name with
    | .string found => found == RawText.ofString "serde"
    | _ => false

theorem eq_of_isSerde {name : String} {release : Registry.Release}
    (h : isSerde (name, release) = true) :
    name = "serde" ∧ release = ⟨.string (RawText.ofString "serde"), RawText.ofString "1.0.203"⟩ := by
  obtain ⟨found, version⟩ := release
  unfold isSerde at h
  cases found <;> simp_all

theorem remembersShelf_remembersBuilt :
    RemembersShelf [("serde", "1.0.203")] remembersBuilt.state.world.outside := by
  have hentries : remembersBuilt.state.world.outside.1.all isSerde = true := by decide +kernel
  have hanswer : (Rehearsal.shelf [("serde", "1.0.203")]).get? "serde" =
      some ("serde", "1.0.203") := by decide +kernel
  refine ⟨trivial, fun name release hfound => ?_⟩
  obtain ⟨hname, hrelease⟩ :=
    eq_of_isSerde (List.all_eq_true.mp hentries _ (Entries.mem_of_get? hfound))
  unfold shelfAnswer
  rw [hname, hanswer, hrelease]

/-- The first generation has heard of the crate serde, and the second one remembers it. The build in
between leaves the files of the project alone. -/
theorem generation_settles_serde :
    ∃ project project' noted', project.SharesPlace (remembersSerde.newProject "demo" none) ∧
      (remembersSerde.generate usingSerdeTwice "demo" none remembersBuilt).1 =
        .ok (project', noted') ∧
      Regenerated (some (Path.ofString "work/logs")) project project'
        remembersBuilt.state.world.files
        (remembersSerde.generate usingSerdeTwice "demo" none
          remembersBuilt).2.state.world.files := by
  have hok : (remembersSerde.generate usingSerdeTwice "demo" none remembersNothing).1.isOk =
      true := by decide +kernel
  cases hgenerate : (remembersSerde.generate usingSerdeTwice "demo" none remembersNothing).1 with
  | error failure =>
      rw [hgenerate] at hok
      cases hok
  | ok made =>
      obtain ⟨project, noted⟩ := made
      obtain ⟨hplace, -, -, -, hagain⟩ :=
        generation_settles writesOnlyLogs_remembersSerde rfl hgenerate
      have hkeeps : KeepsProject project (remembersSerde.generate usingSerdeTwice "demo" none
          remembersNothing).2.state.world.files remembersBuilt.state.world.files := by
        constructor
        · unfold Project.manifestPath
          rw [hplace.directory]
          decide +kernel
        · unfold Project.generatedSourcePath
          rw [hplace.directory]
          decide +kernel
      have hsame : SameScript usingSerdeTwice usingSerdeTwice :=
        ⟨rfl, rfl, rfl, fun _ => Iff.rfl⟩
      have hnothing : RemembersShelf [("serde", "1.0.203")] remembersNothing.state.world.outside :=
        remembersShelf_nil _ _
      obtain ⟨project', noted', hresult, hregenerated, -⟩ := hagain
        (RemembersShelf [("serde", "1.0.203")]) usingSerdeTwice none remembersBuilt
        (steady_remembering_fixedResolver _) hnothing remembersShelf_remembersBuilt hsame
        listeners_remembersBuilt hkeeps
      exact ⟨project, project', noted', hplace, hresult, hregenerated⟩

end RustScript.Pipeline
