import RustScript.Proofs.Pipeline.Handover
import RustScript.Proofs.Pipeline.Noting

/-!
# One call and several calls

One call of all stages of a script and several calls, each for a group of them, analyze the script and
generate its project in the same way. From there on they come to the same ends, so both fail in the
same way or give the same outputs; they ask for the same, and leave the same files but for what the
journal holds (`calls_of_cut`).
-/

set_option autoImplicit false

namespace RustScript.Pipeline

open RustScript.Progress

variable {σ κ : Type} {pipeline : Pipeline σ} {logs : Option Path}

/-! ## The analysis and the generation -/

theorem generateFrom_apply (pipeline : Pipeline σ) (stem : String) (source : Option Path)
    (metadata : Source.Metadata) (tracker : Tracker (Session σ)) :
    pipeline.generateFrom stem source (.ok metadata) tracker =
      ((pipeline.generate metadata stem source tracker).1.map fun generated =>
        Outcome.generated generated.1 generated.2,
        (pipeline.generate metadata stem source tracker).2) := rfl

section

variable (hlogs : pipeline.WritesOnlyLogs logs) (script : Script)
  {tracker : Tracker (Session σ)} (hlisteners : tracker.listeners = pipeline.listeners)

include hlogs hlisteners

theorem heeds_analysis (here : Place) :
    (script.analysis pipeline tracker).2.listeners = pipeline.listeners ∧
      (Act.frame σ here (InLogsOf here logs script.stem) (OnWayToLogs here logs script.stem)).rel
        tracker.state.world (script.analysis pipeline tracker).2.state.world :=
  Script.heeds_analysis (hlogs.collaborates here script.stem) (allowsReading_files _ _ _) tracker
    hlisteners

/-- The working directory stays the same. -/
theorem here_entering :
    (script.entering pipeline tracker).2.state.world.files.here =
      tracker.state.world.files.here := by
  obtain ⟨hlater, hrel⟩ := heeds_analysis hlogs script hlisteners tracker.state.world.files.here
  obtain ⟨hhere, -⟩ := hrel rfl
  unfold Script.entering
  rw [proceed_apply]
  cases (script.analysis pipeline tracker).1 with
  | error failure => exact hhere
  | ok metadata =>
      dsimp only
      rw [generateFrom_apply]
      have hcollaborates := (hlogs.collaborates tracker.state.world.files.here script.stem).mono
        (fun _ _ => trivial) fun _ _ => trivial
      have hconfined : FileSystem.Confined (fun _ => True) (fun _ => True)
          (script.analysis pipeline tracker).2.state.world.files
          (pipeline.generate metadata script.stem script.source?
            (script.analysis pipeline tracker).2).2.state.world.files :=
        confined_generate hcollaborates (fun _ _ => trivial) (fun _ _ => trivial) metadata hhere
          hlater
      exact hconfined.here.trans hhere

omit hlogs hlisteners in
/-- A call that has generated its project has analyzed the script before. -/
theorem generate_of_entering {outcome : Outcome}
    (h : (script.entering pipeline tracker).1 = .ok outcome) :
    ∃ metadata project noted, (script.analysis pipeline tracker).1 = .ok metadata ∧
      outcome = .generated project noted ∧
      pipeline.generate metadata script.stem script.source? (script.analysis pipeline tracker).2 =
        (.ok (project, noted), (script.entering pipeline tracker).2) := by
  unfold Script.entering at h ⊢
  rw [proceed_apply] at h ⊢
  cases hanalysis : (script.analysis pipeline tracker).1 with
  | error failure =>
      rw [hanalysis] at h
      cases h
  | ok metadata =>
      rw [hanalysis] at h
      dsimp only at h ⊢
      rw [generateFrom_apply] at h ⊢
      cases hgenerate : (pipeline.generate metadata script.stem script.source?
          (script.analysis pipeline tracker).2).1 with
      | error failure =>
          rw [hgenerate] at h
          cases h
      | ok generated =>
          rw [hgenerate] at h
          exact ⟨metadata, generated.1, generated.2, rfl, (Except.ok.inj h).symm,
            Prod.ext hgenerate rfl⟩

/-- **Where a call stands that has generated its project.** -/
theorem left_of_entering {outcome : Outcome}
    (h : (script.entering pipeline tracker).1 = .ok outcome) :
    (∃ manifest text, pipeline.Left logs script.stem script.source? outcome.project manifest text
      (script.entering pipeline tracker).2) ∧
    outcome.buildOutput = none ∧ outcome.runOutput = none := by
  obtain ⟨hlater, -⟩ := heeds_analysis hlogs script hlisteners tracker.state.world.files.here
  obtain ⟨metadata, project, noted, -, rfl, hgenerate⟩ := generate_of_entering script h
  obtain ⟨manifest, text, hleft⟩ := left_of_generate hlogs hlater (congrArg Prod.fst hgenerate)
  rw [hgenerate] at hleft
  exact ⟨⟨manifest, text, hleft⟩, rfl, rfl⟩

end

/-! ## The law -/

/-- A call that only generates the project of the script gives this manifest. -/
def Script.Generates (pipeline : Pipeline σ) (script : Script) (tracker : Tracker (Session σ))
    (manifest : Manifest) : Prop :=
  ∃ outcome, (script.call pipeline (.ofStages [.generate]) [] true tracker).1 = .ok outcome ∧
    outcome.project.manifest = some manifest

/-- Manifests hold no NaN, and the writer and the reader of documents fit together for them. -/
structure Faithful (manifest : Manifest) : Prop where
  nanFree : manifest.NanFree
  readsBack : Toml.ReadsBack manifest.toTable

section

variable {manifest : Manifest} {text : String}

theorem Left.tells {stem : String} {source : Option Path} {project : Project}
    {tracker : Tracker (Session σ)}
    (h : pipeline.Left logs stem source project manifest text tracker)
    (hfaithful : Faithful manifest) : Tells text manifest ∧ manifest.same manifest = true := by
  obtain ⟨⟨found, hread, -, hsame⟩, -, hother⟩ :=
    Manifest.write_canonical h.arises hfaithful.nanFree h.written hfaithful.readsBack
  obtain ⟨-, -, htext⟩ := Manifest.write_eq_ok_iff.mp h.written
  refine ⟨⟨?_, found, hread, hsame⟩, hother manifest h.arises h.written hfaithful.readsBack⟩
  rw [← htext]
  exact Toml.textOfBytes_write _

end

section

variable (hlogs : pipeline.WritesOnlyLogs logs) {here : Place} {seen : σ → κ} {script : Script}
  (hoverlooks : pipeline.runner.Overlooks here (JournalAt here logs script.stem))
  (hshows : pipeline.runner.Shows seen) {manifest : Manifest} {text : String}
  (htells : Tells text manifest) {groups : List (List Stage)} (hcut : Cut groups)
  (hkeeps : [.run] ∈ groups →
    pipeline.KeepsManifest (pipeline.newProject script.stem script.source?))

include hlogs hoverlooks hshows htells hcut hkeeps

/-- From the generation on one call and several calls come to the same ends. -/
theorem Within.ends_of_cut {outcome other : Outcome} {first second : Tracker (Session σ)}
    (h : Within pipeline logs here seen script manifest outcome [] other first second)
    (hholds : HoldsManifest (pipeline.newProject script.stem script.source?) text
      second.state.world.files)
    (hbuild : outcome.buildOutput = none) (hrun : outcome.runOutput = none) (args : List String)
    (capture : Bool) :
    ∃ group later, groups = group :: later ∧ (Selection.ofStages group).generate = true ∧
      Ends logs here seen script.stem [] (pipeline.buildAndRun .all args capture outcome first)
        (script.goOn pipeline args capture (.ofStages group) later other second) := by
  obtain rfl | rfl | rfl | rfl := hcut.cases
  · refine ⟨_, _, rfl, rfl, ?_⟩
    exact h.goOn_build_run hlogs hoverlooks hshows hbuild hrun rfl rfl args capture
  · refine ⟨_, _, rfl, rfl, ?_⟩
    exact h.goOn_build hlogs hoverlooks hshows htells hholds
      (hkeeps (List.mem_cons_of_mem _ List.mem_cons_self)) hbuild hrun rfl rfl args capture
  · refine ⟨_, _, rfl, rfl, h.goOn_later hlogs htells hholds rfl rfl rfl args capture [] ?_⟩
    intro left next hwithin _
    exact hwithin.goOn_build_run hlogs hoverlooks hshows hbuild hrun rfl rfl args capture
  · refine ⟨_, _, rfl, rfl, h.goOn_later hlogs htells hholds rfl rfl rfl args capture [[.run]] ?_⟩
    intro left next hwithin hfound
    exact hwithin.goOn_build hlogs hoverlooks hshows htells hfound
      (hkeeps (List.mem_cons_of_mem _ (List.mem_cons_of_mem _ List.mem_cons_self))) hbuild hrun
      rfl rfl args capture

end

/-- **One call and several calls come to the same ends**, whatever is shown of the world outside. -/
theorem ends_of_cut (hlogs : pipeline.WritesOnlyLogs logs) (script : Script) (args : List String)
    (capture : Bool) (tracker : Tracker (Session σ)) {seen : σ → κ}
    (hoverlooks : pipeline.runner.Overlooks tracker.state.world.files.here
      (JournalAt tracker.state.world.files.here logs script.stem))
    (hshows : pipeline.runner.Shows seen)
    (hfaithful : ∀ manifest, script.Generates pipeline tracker manifest → Faithful manifest)
    {groups : List (List Stage)} (hcut : Cut groups)
    (hkeeps : [.run] ∈ groups →
      pipeline.KeepsManifest (pipeline.newProject script.stem script.source?)) :
    Ends logs tracker.state.world.files.here seen script.stem []
      (script.call pipeline .all args capture tracker)
      (script.callEach pipeline args capture groups tracker) := by
  have hlisteners : (pipeline.renew tracker).2.listeners = pipeline.listeners := rfl
  have hhere : (script.entering pipeline (pipeline.renew tracker).2).2.state.world.files.here =
      tracker.state.world.files.here := here_entering hlogs script hlisteners
  rw [script.call_of_generate pipeline args capture tracker rfl, proceed_apply]
  cases hentered : (script.entering pipeline (pipeline.renew tracker).2).1 with
  | error failure =>
      obtain ⟨group, later, rfl, hgroup⟩ : ∃ group later, groups = group :: later ∧
          (Selection.ofStages group).generate = true := by
        obtain rfl | rfl | rfl | rfl := hcut.cases
        all_goals exact ⟨_, _, rfl, rfl⟩
      rw [script.callEach_of_generate pipeline args capture later tracker hgroup, proceed_apply,
        hentered]
      exact ⟨.failed failure, .refl hhere, rfl⟩
  | ok outcome =>
      obtain ⟨⟨manifest, text, hleft⟩, hbuild, hrun⟩ :=
        left_of_entering hlogs script hlisteners hentered
      have hgenerates : script.Generates pipeline tracker manifest := by
        refine ⟨outcome, ?_, hleft.described⟩
        rw [script.call_of_generate pipeline [] true tracker rfl, proceed_apply, hentered]
        rfl
      obtain ⟨htells, hsame⟩ := hleft.tells (hfaithful manifest hgenerates)
      -- after the generation the one call and the first of the several are the same run
      have hwithin : Within pipeline logs tracker.state.world.files.here seen script manifest outcome
          [] outcome (script.entering pipeline (pipeline.renew tracker).2).2
          (script.entering pipeline (pipeline.renew tracker).2).2 :=
        ⟨⟨⟨.refl hhere, rfl, hleft.reports, hleft.reports⟩, hleft.noted, hleft.script,
          hleft.described, ⟨by rw [List.nil_append, List.filterMap_cons_none hbuild, hbuild]; rfl,
            by rw [List.nil_append, List.filterMap_cons_none hrun, hrun]; rfl⟩⟩,
          hleft.script, manifest, hleft.described, hsame⟩
      obtain ⟨group, later, rfl, hgroup, hends⟩ := hwithin.ends_of_cut hlogs hoverlooks hshows htells
        hcut hkeeps hleft.holds hbuild hrun args capture
      rw [script.callEach_of_generate pipeline args capture later tracker hgroup, proceed_apply,
        hentered]
      exact hends

/-- A call that generates a manifest has begun well. -/
theorem Script.Generates.entering {script : Script} {tracker : Tracker (Session σ)}
    {manifest : Manifest} (h : script.Generates pipeline tracker manifest) :
    ∃ outcome, (script.entering pipeline (pipeline.renew tracker).2).1 = .ok outcome ∧
      outcome.project.manifest = some manifest := by
  obtain ⟨outcome, houtcome, hmanifest⟩ := h
  rw [script.call_of_generate pipeline [] true tracker rfl, proceed_apply] at houtcome
  cases hentered : (script.entering pipeline (pipeline.renew tracker).2).1 with
  | error failure =>
      rw [hentered] at houtcome
      cases houtcome
  | ok entered =>
      rw [hentered] at houtcome
      obtain rfl : entered = outcome := Except.ok.inj houtcome
      exact ⟨entered, rfl, hmanifest⟩

/-- The noting pipeline generates the same manifest. -/
theorem Script.Generates.of_noting {script : Script} {tracker : Tracker (Session σ)}
    {manifest : Manifest} (h : script.Generates pipeline.noting (tracker.keeping []) manifest) :
    script.Generates pipeline tracker manifest := by
  obtain ⟨outcome, houtcome, hmanifest⟩ := h
  refine ⟨outcome, ?_, hmanifest⟩
  have hselected : (Selection.ofStages [.generate]).generate = true := rfl
  rw [Script.call_eq _ _ hselected] at houtcome ⊢
  obtain ⟨episodes, htold⟩ := toldBy_generatingCall pipeline script.stem script.source? hselected []
    true (script.traces_analysis pipeline) tracker
  rw [htold.noted] at houtcome
  exact houtcome

/-- **One call and several calls come to the same.** The stages of a script are cut into groups, and
run by a call for each group until one fails. If the runner does not see what the journal of the
script holds, builds leave the manifest file as it is as far as a further call runs the program, and
the manifest that is generated has no NaN and is read back as it was written, then this makes the
same as one call of all stages: the same failure, or the same outputs up to the times and a manifest
that means the same. It asks for the same, and leaves the same files but for what the journal
holds. -/
theorem calls_of_cut (hlogs : pipeline.WritesOnlyLogs logs) (script : Script) (args : List String)
    (capture : Bool) (tracker : Tracker (Session σ))
    (hoverlooks : pipeline.runner.Overlooks tracker.state.world.files.here
      (JournalAt tracker.state.world.files.here logs script.stem))
    (hfaithful : ∀ manifest, script.Generates pipeline tracker manifest → Faithful manifest)
    {groups : List (List Stage)} (hcut : Cut groups)
    (hkeeps : [.run] ∈ groups →
      pipeline.KeepsManifest (pipeline.newProject script.stem script.source?)) :
    Meets [] (script.call pipeline .all args capture tracker).1
      (script.callEach pipeline args capture groups tracker).1 ∧
    FileSystem.Similar tracker.state.world.files.here
      (JournalAt tracker.state.world.files.here logs script.stem)
      (script.call pipeline .all args capture tracker).2.state.world.files
      (script.callEach pipeline args capture groups tracker).2.state.world.files ∧
    (script.callEach pipeline.noting args capture groups
        (tracker.keeping [])).2.state.world.outside.1 =
      (script.call pipeline.noting .all args capture
        (tracker.keeping [])).2.state.world.outside.1 := by
  -- the pipeline itself shows nothing of the world outside, its noting copy what is asked for
  have hshows : pipeline.runner.Shows fun _ => () := fun _ _ _ _ => rfl
  have hends := ends_of_cut hlogs script args capture tracker hoverlooks hshows hfaithful hcut hkeeps
  have hasked := ends_of_cut hlogs.noting script args capture (tracker.keeping [])
    hoverlooks.noting pipeline.runner.shows_noting
    (fun manifest h => hfaithful manifest h.of_noting) hcut fun hmem => (hkeeps hmem).noting
  exact ⟨hends.meets, hends.similar, hasked.outside⟩

/-! ## Calls in a rehearsal -/

/-- What a rehearsed toolchain does to files does not depend on what they hold. -/
theorem overlooks_cast (cast : Rehearsal.Cast) (here : Place) (unseen : Place → Prop) :
    cast.runner.Overlooks here unseen := by
  intro call world other hsimilar
  unfold Rehearsal.Cast.runner
  rw [Frame.stateBind_apply, Frame.stateBind_apply]
  cases Rehearsal.Kind.ofCall call with
  | search => exact ⟨rfl, hsimilar⟩
  | run => exact ⟨rfl, hsimilar⟩
  | build =>
      dsimp only
      unfold Rehearsal.Cast.buildOutcome
      cases cast.build.outcome call with
      | error fault => exact ⟨rfl, hsimilar⟩
      | ok output =>
          cases call.directory with
          | none => exact ⟨rfl, hsimilar⟩
          | some directory =>
              dsimp only
              split
              · have hmade : FileAction.Matches here unseen (Rehearsal.makeProgram directory)
                    (Rehearsal.makeProgram directory) :=
                  (FileAction.matches_makeDirectories _).bind fun _ => FileAction.matches_write _ _
                obtain ⟨hresult, hfiles⟩ := hmade _ _ hsimilar
                exact ⟨congrArg (fun made : Except SystemError Unit =>
                  (made.mapError Command.Fault.system).map fun _ => output) hresult, hfiles⟩
              · exact ⟨rfl, hsimilar⟩

/-- A rehearsed build leaves the manifest file as it is, unless that is where it puts its program. -/
theorem keepsManifest_cast {pipeline : Pipeline Rehearsal.Trace} {cast : Rehearsal.Cast}
    (hrunner : pipeline.runner = cast.runner) {project : Project}
    (hname : Path.Ordinary project.directory.name) (hother : "Cargo.toml" ≠ project.directory.name) :
    pipeline.KeepsManifest project := by
  intro world content hfound
  rw [hrunner]
  unfold Rehearsal.Cast.runner
  rw [Frame.stateBind_apply]
  cases Rehearsal.Kind.ofCall (buildCall pipeline.settings project) with
  | search => exact hfound
  | run => exact hfound
  | build =>
      dsimp only
      unfold Rehearsal.Cast.buildOutcome
      cases cast.build.outcome (buildCall pipeline.settings project) with
      | error fault => exact hfound
      | ok output =>
          dsimp only [buildCall]
          split
          · have hplaces : FileAction.Keeps (FileSystem.frame world.files.here
                (· = (((project.directory.child "target").child "debug").child
                  project.directory.name).lands world.files.here) fun _ => True)
                (Rehearsal.makeProgram project.directory) :=
              FileAction.keeps_bind (FileAction.keeps_makeDirectories fun _ _ => trivial) fun _ =>
                FileAction.keeps_write (by rfl) _
            have hgrows : FileAction.Keeps FileSystem.growing
                (Rehearsal.makeProgram project.directory) :=
              FileAction.keeps_bind (FileAction.keeps_growing_makeDirectories _) fun _ =>
                FileAction.keeps_growing_change _ _
            exact (hgrows world.files).find?_of_confined (hplaces world.files rfl).2
              (lands_child_ne ordinary_cargoToml hname hother _ _ _) hfound
          · exact hfound

/-- A pipeline that keeps its logs in the build root, and knows no crates. -/
def logsInside (runner : Runner Rehearsal.Trace) : Pipeline Rehearsal.Trace :=
  { rehearsed [] with runner, store := some (Log.storeIn (Path.ofString "build")) }

theorem writesOnlyLogs_logsInside (runner : Runner Rehearsal.Trace) :
    (logsInside runner).WritesOnlyLogs (some (Path.ofString "build")) := by
  refine ⟨rfl, fun name world => ?_⟩
  rfl

/-- What a call generates from a script that declares and needs nothing. -/
theorem Script.Generates.eq_basic {pipeline : Pipeline σ} (hlogs : pipeline.WritesOnlyLogs logs)
    {script : Script} {tracker : Tracker (Session σ)} {manifest : Manifest}
    (h : script.Generates pipeline tracker manifest)
    (hplain : ∀ metadata, (script.analysis pipeline (pipeline.renew tracker).2).1 = .ok metadata →
      metadata.embedded = none ∧ metadata.inferred = []) :
    manifest = Manifest.basic script.stem
      (pipeline.newProject script.stem script.source?).generatedSourcePath.toString
      pipeline.settings.packageVersion pipeline.settings.edition := by
  obtain ⟨outcome, hentered, hmanifest⟩ := h.entering
  obtain ⟨metadata, project, noted, hanalysis, rfl, hgenerate⟩ :=
    generate_of_entering script hentered
  obtain ⟨merged, text, written, after, hgoes, timings, hproject⟩ :=
    goes_of_generate (congrArg Prod.fst hgenerate)
  obtain ⟨hmerged, -, -⟩ := hgoes.merged hlogs
  obtain ⟨hembedded, hinferred⟩ := hplain metadata hanalysis
  rw [Manifest.merge_eq, hembedded, Manifest.declare] at hmerged
  dsimp only at hmerged
  have hmissing : ∀ declared : Toml.Table, Manifest.missing [] declared = [] := by
    intro declared
    simp [Manifest.missing, Text.sortedNames]
  rw [hinferred, hmissing] at hmerged
  obtain rfl : Manifest.basic script.stem
      (pipeline.newProject script.stem script.source?).generatedSourcePath.toString
      pipeline.settings.packageVersion pipeline.settings.edition = merged := Except.ok.inj hmerged
  rw [hproject] at hmanifest
  exact (Option.some.inj hmanifest).symm

/-- The tables of the manifest of the text `1`. -/
def expressionTables : Toml.Table :=
  [("package", .table [("name", .string "rsrun_expr"), ("version", .string "0.0.1"),
      ("edition", .string "2021")]),
    ("dependencies", .table []), ("workspace", .table [])]

/-- Its binaries. -/
def expressionBinaries : Toml.Value :=
  .array [.table [("name", .string "rsrun_expr"), ("path", .string "build/rsrun_expr/main.rs")]]

/-- The manifest of the text `1`. -/
def expressionManifest : Manifest := .basic textStem "build/rsrun_expr/main.rs" "0.0.1" "2021"

theorem toTable_expressionManifest :
    expressionManifest.toTable = expressionTables ++ [("bin", expressionBinaries)] := by
  cbv

set_option maxRecDepth 4000 in
theorem readsBack_expressionManifest : Toml.ReadsBack expressionManifest.toTable := by
  have htext : Toml.write (expressionTables ++ [("bin", expressionBinaries)]) =
      "bin = [\n    \x7b name = \"rsrun_expr\", path = \"build/rsrun_expr/main.rs\" \x7d,\n]\n\n" ++
        "[package]\nname = \"rsrun_expr\"\nversion = \"0.0.1\"\nedition = \"2021\"\n\n" ++
        "[dependencies]\n\n[workspace]\n" := by
    decide +kernel
  rw [toTable_expressionManifest]
  -- the array is written in front of the tables
  refine ⟨⟨by decide, by decide⟩, ("bin", expressionBinaries) :: expressionTables, ?_, ?_⟩
  · rw [htext]
    cbv
  · have hkeys : (Entries.keys (("bin", expressionBinaries) :: expressionTables)).Nodup :=
      (by decide : ["bin", "package", "dependencies", "workspace"].Nodup)
    rw [Toml.alike_table_iff hkeys, Toml.sortedValues_eq, Toml.sortedValues_eq]
    exact ((List.perm_append_singleton _ expressionTables).map _).symm

theorem nanFree_expressionManifest : expressionManifest.NanFree := by
  have hstring : ∀ text, (Toml.Value.string text).NanFree := fun _ => .scalar rfl nofun
  have hbinary : expressionManifest.binariesValue.NanFree :=
    .array nofun (List.forall_mem_singleton.mpr (.table nofun
      (List.forall_mem_cons.mpr ⟨hstring _, List.forall_mem_singleton.mpr (hstring _)⟩)))
  exact ⟨hstring _, hstring _, hstring _, hbinary, .table nofun nofun, .table nofun nofun⟩

theorem result_textAnalysis (pipeline : Pipeline σ) (text : String)
    (tracker : Tracker (Session σ)) :
    (pipeline.textAnalysis text tracker).1 = pipeline.analyzeText text := rfl

/-- What is generated for the text `1` is read back. -/
theorem faithful_of_generates {runner : Runner Rehearsal.Trace}
    {tracker : Tracker (Session Rehearsal.Trace)} {manifest : Manifest}
    (h : (Script.text "1").Generates (logsInside runner) tracker manifest) : Faithful manifest := by
  have hplain : ∀ metadata, ((Script.text "1").analysis (logsInside runner)
      ((logsInside runner).renew tracker).2).1 = .ok metadata →
      metadata.embedded = none ∧ metadata.inferred = [] := by
    intro metadata hmetadata
    have hread : ((rehearsed []).analyzeText "1").toOption.map
        (fun metadata => (metadata.embedded, metadata.inferred)) = some (none, []) := by
      decide +kernel
    unfold Script.analysis at hmetadata
    rw [result_textAnalysis] at hmetadata
    rw [show (rehearsed []).analyzeText "1" = .ok metadata from hmetadata] at hread
    exact Prod.mk.inj (Option.some.inj hread)
  have hbinary : ((rehearsed []).newProject textStem none).generatedSourcePath.toString =
      "build/rsrun_expr/main.rs" := by
    decide +kernel
  have hmanifest : manifest = Manifest.basic textStem
      ((rehearsed []).newProject textStem none).generatedSourcePath.toString "0.0.1" "2021" :=
    h.eq_basic (writesOnlyLogs_logsInside runner) hplain
  rw [hbinary] at hmanifest
  rw [hmanifest]
  exact ⟨nanFree_expressionManifest, readsBack_expressionManifest⟩

/-- One call of all stages for the text `1`, from nothing. -/
def oneCall (runner : Runner Rehearsal.Trace) :
    Except Failure Outcome × Tracker (Session Rehearsal.Trace) :=
  (Script.text "1").call (logsInside runner) .all [] true
    ((logsInside runner).opened (World.untouched .empty))

/-- A call for each stage. -/
def threeCalls (runner : Runner Rehearsal.Trace) :
    Except Failure (List Outcome) × Tracker (Session Rehearsal.Trace) :=
  (Script.text "1").callEach (logsInside runner) [] true [[.generate], [.build], [.run]]
    ((logsInside runner).opened (World.untouched .empty))

theorem cut_three : Cut [[.generate], [.build], [.run]] := ⟨rfl, by decide⟩

/-- Where the journal is about the text `1`. -/
def journalPlace : Place := ["build", "rsrun_expr", "events.log"]

theorem eq_journalPlace {place : Place}
    (h : JournalAt [] (some (Path.ofString "build")) textStem place) : place = journalPlace := by
  obtain ⟨base, hbase, rfl⟩ := h
  rw [← Option.some.inj hbase]
  decide +kernel

/-- Everything succeeds, and only the journal tells the three calls from the one. -/
theorem calls_of_cut_three :
    Meets [] (oneCall Rehearsal.Cast.plain.runner).1 (threeCalls Rehearsal.Cast.plain.runner).1 ∧
      ∀ place, place ≠ journalPlace →
        (threeCalls Rehearsal.Cast.plain.runner).2.state.world.files.node? place =
          (oneCall Rehearsal.Cast.plain.runner).2.state.world.files.node? place := by
  have hkeeps : (logsInside Rehearsal.Cast.plain.runner).KeepsManifest
      ((logsInside Rehearsal.Cast.plain.runner).newProject textStem none) := by
    have hordinary : Path.Ordinary ((rehearsed []).newProject textStem none).directory.name := by
      refine ⟨?_, ?_, ?_, ?_⟩ <;> decide +kernel
    have hname : "Cargo.toml" ≠ ((rehearsed []).newProject textStem none).directory.name := by
      decide +kernel
    exact keepsManifest_cast rfl hordinary hname
  unfold oneCall threeCalls
  obtain ⟨hmeets, hsimilar, -⟩ := calls_of_cut
    (writesOnlyLogs_logsInside Rehearsal.Cast.plain.runner) (.text "1") [] true
    ((logsInside Rehearsal.Cast.plain.runner).opened (World.untouched .empty))
    (overlooks_cast _ _ _) (fun _ => faithful_of_generates) cut_three fun _ => hkeeps
  refine ⟨hmeets, fun place hplace => hsimilar.node?_of_seen fun hjournal => hplace ?_⟩
  exact eq_journalPlace hjournal

/-- A toolchain whose programs print what the journal holds. -/
def printingJournal : Runner Rehearsal.Trace := fun call => do
  if Rehearsal.Kind.ofCall call = .run then
    return (← Act.readText (Path.ofString "build/rsrun_expr/events.log")).mapError
      (fun _ => .incomplete) |>.map fun text => ⟨0, text, ""⟩
  else Rehearsal.Cast.plain.runner call

/-- A toolchain whose builds write a manifest of their own. -/
def rewritingManifest : Runner Rehearsal.Trace := fun call => do
  if Rehearsal.Kind.ofCall call = .build then
    let _ ← Act.files (FileAction.write (Path.ofString "build/rsrun_expr/Cargo.toml")
      (Utf8.encode "[package]\nname = 'other'\n"))
  Rehearsal.Cast.plain.runner call

/-- In the build root the journal holds more notes after three calls. A program that reads it prints
something else, and a manifest that a build has written is taken up by the call that runs. -/
theorem three_calls_differ :
    Cut [[.generate], [.build], [.run]] ∧
    (∀ runner manifest, (Script.text "1").Generates (logsInside runner)
      ((logsInside runner).opened (World.untouched .empty)) manifest → Faithful manifest) ∧
    ["build"] <+: journalPlace ∧
    (threeCalls Rehearsal.Cast.plain.runner).2.state.world.files.node? journalPlace ≠
      (oneCall Rehearsal.Cast.plain.runner).2.state.world.files.node? journalPlace ∧
    ((threeCalls printingJournal).1.toOption.getD []).filterMap
        (fun outcome => outcome.runOutput.map StageOutput.stdout) ≠
      ((oneCall printingJournal).1.toOption.bind
        fun outcome => outcome.runOutput.map StageOutput.stdout).toList ∧
    ∃ manifest found, ((oneCall rewritingManifest).1.toOption.bind
        fun outcome => outcome.project.manifest) = some manifest ∧
      (((threeCalls rewritingManifest).1.toOption.bind List.getLast?).bind
        fun outcome => outcome.project.manifest) = some found ∧
      manifest.same found = false := by
  refine ⟨cut_three, fun _ _ => faithful_of_generates, by decide, by decide +kernel,
    by decide +kernel, ?_⟩
  have hother : (((oneCall rewritingManifest).1.toOption.bind
      fun outcome => outcome.project.manifest).bind fun manifest =>
        (((threeCalls rewritingManifest).1.toOption.bind List.getLast?).bind
          fun outcome => outcome.project.manifest).map manifest.same) = some false := by
    decide +kernel
  obtain ⟨manifest, hmanifest, hrest⟩ := Option.bind_eq_some_iff.mp hother
  obtain ⟨found, hfound, hsame⟩ := Option.map_eq_some_iff.mp hrest
  exact ⟨manifest, found, hmanifest, hfound, hsame⟩

end RustScript.Pipeline
