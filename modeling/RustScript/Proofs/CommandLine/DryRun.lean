import RustScript.Proofs.CommandLine.ExitStatus
import RustScript.Proofs.CommandLine.Foretold

/-!
# Inspecting is a dry run

A call of the program that inspects a script prints the manifest that a call in its place would have
left which generates the project, and fails as that call would have failed in the analysis or in the
merge (`dry_run`). It calls no command but the search, and the only file that it changes is the
journal of the script: for this, directories are made on the way to the logs. A log directory under
the build root is therefore not left alone (`inspection_makes_journal`).
-/

set_option autoImplicit false

namespace RustScript.CommandLine

open RustScript.Progress RustScript.Pipeline

variable {σ : Type}

/-! ## What an inspection leaves behind -/

/-- An inspection keeps to what reading, looking up crates and notes keep to. -/
theorem rel_of_inspect {pipeline : Pipeline σ} {frame : Frame (World σ)} (script : String)
    (hnotes : pipeline.NotesKeep (Path.ofString script).stem frame)
    (hreading : AllowsReading frame)
    (hresolver : ∀ name, frame.Keeps (pipeline.resolver.resolve name))
    {tracker : Tracker (Session σ)} (hlisteners : tracker.listeners = pipeline.listeners) :
    frame.rel tracker.state.world (inspect pipeline script tracker).2.state.world := by
  have hanalysis := (heeds_analyze_of_notes hnotes hreading tracker hlisteners).2
  rw [inspect_apply]
  rcases hanalyzed : pipeline.analyze (.ofString script) tracker with ⟨failure | metadata, read⟩
  · rw [hanalyzed] at hanalysis
    exact hanalysis
  · rw [hanalyzed] at hanalysis
    exact frame.trans hanalysis (keeps_merge hresolver _ _ _ _ _ read.state.world)

theorem allowsReading_onFiles (frame : Frame FileSystem) :
    AllowsReading (frame.on (World.files (σ := σ))) where
  now world := frame.refl world.files
  text path := by
    have hread : (frame.on (World.files (σ := σ))).Keeps (Act.files (FileAction.read path)) :=
      fun world => FileAction.keeps_read path world.files
    refine Frame.keeps_bind hread fun content => ?_
    cases content <;> exact Frame.keeps_pure _

/-- **An inspection changes the journal**, and makes missing directories on the way to it. -/
theorem confined_inspect {pipeline : Pipeline σ} {logs : Option Path}
    (hlogs : pipeline.WritesOnlyLogs logs) (script : String) {tracker : Tracker (Session σ)}
    (hlisteners : tracker.listeners = pipeline.listeners) :
    FileSystem.Confined
      (JournalAt tracker.state.world.files.here logs (Path.ofString script).stem)
      (OnWayToLogs tracker.state.world.files.here logs (Path.ofString script).stem)
      tracker.state.world.files (inspect pipeline script tracker).2.state.world.files := by
  have hresolver : ∀ name, ((noteFrame tracker.state.world.files.here logs
      (Path.ofString script).stem).on World.files).Keeps (pipeline.resolver.resolve name) := by
    intro name world
    show (noteFrame _ logs _).rel world.files (pipeline.resolver.resolve name world).2.files
    rw [hlogs.resolver]
    exact Frame.refl _ world.files
  obtain ⟨hconfined, -⟩ := rel_of_inspect script (hlogs.notesKeep _ _) (allowsReading_onFiles _)
    hresolver hlisteners
  exact (hconfined rfl).2

/-- A registry that answers by the name alone and leaves files alone. -/
structure AnswersAlone (resolver : Registry.Resolver σ) : Prop where
  answers : ∃ answers, AnswersByName resolver answers
  resolve : ∀ name world, (resolver.resolve name world).2.files = world.files
  close : ∀ world, (resolver.close world).2.files = world.files

section

variable {host : Host σ} {settings : Settings}

theorem AnswersAlone.writesOnlyLogs
    (h : AnswersAlone (settings.resolver host.runner host.client)) :
    (pipelineFor host settings).WritesOnlyLogs settings.logDirectory :=
  ⟨rfl, Registry.files_remembering h.resolve⟩

theorem carryOut_of_inspect (host : Host σ) (settings : Settings) {request : Request}
    (hverb : request.verb = .inspect) (world : World σ) :
    carryOut host settings request world =
      ((inspect (pipelineFor host settings) request.subject
          ((pipelineFor host settings).opened (world.keeping []))).1,
        forgetting ((pipelineFor host settings).resolver.close
          (inspect (pipelineFor host settings) request.subject
            ((pipelineFor host settings).opened (world.keeping []))).2.state.world).2) := by
  have hperform : perform (pipelineFor host settings) request =
      inspect (pipelineFor host settings) request.subject := by
    unfold perform
    rw [hverb]
  rw [carryOut_apply, hperform]

/-- **A call that inspects** changes no file but the journal of its script. -/
theorem confined_carryOut (h : AnswersAlone (settings.resolver host.runner host.client))
    {request : Request} (hverb : request.verb = .inspect) (world : World σ) :
    FileSystem.Confined
      (JournalAt world.files.here settings.logDirectory (Path.ofString request.subject).stem)
      (OnWayToLogs world.files.here settings.logDirectory (Path.ofString request.subject).stem)
      world.files (carryOut host settings request world).2.files := by
  have hopened : ((pipelineFor host settings).opened (world.keeping [])).listeners =
      (pipelineFor host settings).listeners := rfl
  have hconfined := confined_inspect h.writesOnlyLogs request.subject hopened
  have hclose : ∀ world : World (Registry.Cache × σ),
      (forgetting ((pipelineFor host settings).resolver.close world).2).files = world.files :=
    fun world => h.close ⟨world.files, world.clock, world.readings, world.outside.2⟩
  rw [carryOut_of_inspect host settings hverb]
  dsimp only
  rw [hclose]
  exact hconfined

end

/-- Nothing has changed under a directory to which no way to the journal leads. -/
theorem node?_of_confined {logs : Option Path} {stem : String} {root : Place}
    {before after : FileSystem}
    (h : FileSystem.Confined (JournalAt before.here logs stem) (OnWayToLogs before.here logs stem)
      before after)
    (haside : ∀ base ∈ logs, ".." ∉ (base.child stem).names ∧
      ¬ root <+: ((base.child stem).child Log.journalName).lands before.here)
    {place : Place} (hplace : root <+: place) : after.node? place = before.node? place := by
  have hinside : ¬ JournalAt before.here logs stem place := by
    rintro ⟨base, hbase, rfl⟩
    exact (haside base hbase).2 hplace
  obtain hsame | ⟨⟨base, hbase, hway⟩, -⟩ := h.nodes place hinside
  · exact hsame
  · have hdirectory := FileAction.prefix_of_onWay (haside base hbase).1 hway
    have hjournal : (base.child stem).lands before.here <+:
        ((base.child stem).child Log.journalName).lands before.here := by
      have hname : Path.Ordinary Log.journalName := by refine ⟨?_, ?_, ?_, ?_⟩ <;> decide
      rw [Path.lands_child_of_ordinary before.here hname]
      exact List.prefix_append _ _
    exact absurd ((hplace.trans hdirectory).trans hjournal) (haside base hbase).2

/-! ## What an inspection asks for -/

theorem keeps_close_resolver (settings : Settings) (host : Host σ) :
    (((searches settings.cargo).on Prod.fst).on World.outside).Keeps
      (settings.resolver host.noting.runner host.noting.client).close := by
  unfold Settings.resolver
  cases settings.registry with
  | search => exact Frame.keeps_pure _
  | web => exact Act.keeps_beside_of_fst (searches settings.cargo) host.client.close

/-- **A call that inspects** calls no command but the search. -/
theorem searches_carryOut (host : Host σ) (settings : Settings) {request : Request}
    (hverb : request.verb = .inspect) (world : World σ) :
    ∃ names : List String,
      (carryOut host.noting settings request (world.keeping [])).2.outside.1 =
        names.map fun name => .command (Registry.searchCall settings.cargo name none) := by
  let frame : Frame (World (Registry.Cache × List RustScript.Request × σ)) :=
    (((searches settings.cargo).on Prod.fst).on Prod.snd).on World.outside
  have hpipeline := collaborates_searches host settings (Path.ofString request.subject).stem
  have hopened : ((pipelineFor host.noting settings).opened
      ((world.keeping []).keeping [])).listeners =
        (pipelineFor host.noting settings).listeners := rfl
  have hinspect := rel_of_inspect request.subject (fun _ => hpipeline.append)
    (allowsReading_outside _) hpipeline.resolve hopened
  have hclose : frame.Keeps (pipelineFor host.noting settings).resolver.close :=
    Act.keeps_beside (keeps_close_resolver settings host)
  rw [carryOut_of_inspect host.noting settings hverb]
  exact frame.trans hinspect (hclose _)

/-! ## The same settings -/

section

variable {host : Host σ} {request request' : Request}

/-- Two requests that choose the same registry and the same build root have the same settings, except
that one of them may want to see what the build does. -/
theorem settingsFor_alike (hregistry : request'.registry = request.registry)
    (hroot : request'.buildRoot = request.buildRoot) {settings : Settings}
    (h : settingsFor host request = .ok settings) :
    ∃ verbose, settingsFor host request' = .ok { settings with verboseBuild := verbose } := by
  obtain ⟨found, hfound, hsettings⟩ := exists_of_bind h
  refine ⟨request'.verboseBuild || found.verboseBuild, ?_⟩
  obtain rfl := Except.ok.inj hsettings
  unfold settingsFor
  rw [hfound, hregistry, hroot]
  rfl

theorem settingsFor_error {error : SettingsError} (h : settingsFor host request = .error error) :
    settingsFor host request' = .error error := by
  unfold settingsFor at h ⊢
  cases hfound : Settings.ofEnvironment host.temporary host.environment with
  | error other =>
      rw [hfound] at h
      exact h
  | ok found =>
      rw [hfound] at h
      cases h

/-- A call without settings reports on these. -/
theorem report_of_unsettled {arguments : List String} {world : World σ} {verb : Verb}
    {verbose : Bool} {rest : List String} {error : SettingsError}
    (hverb : readVerb arguments = .ok (verb, verbose, rest))
    (hread : read verb world.files rest = .ok request)
    (hsettings : settingsFor host request = .error error) :
    (invoke host arguments world).1.report =
      (Report.ofFailure "" "" (.settings error)).shownBy host := by
  have hanswer : answer host verb rest world = (.ofFailure "" "" (.settings error), world) := by
    unfold answer
    rw [Frame.stateBind_apply]
    have hfound : read verb ((get : Act σ (World σ)) world).1.files rest = .ok request := hread
    rw [hfound]
    dsimp only
    rw [hsettings]
    rfl
  have hresponds : (respond host arguments world).1.report =
      .ofFailure "" "" (.settings error) := by
    unfold respond
    rw [hverb]
    dsimp only
    rw [Frame.stateBind_apply, hanswer]
    rfl
  rw [invoke_apply, hresponds]

end

/-! ## What is to be seen of it -/

theorem endsLine_inspection (script : String) (project : Project) (metadata : Source.Metadata) :
    EndsLine (inspection script project metadata) := by
  unfold inspection
  dsimp only
  exact .inr ⟨_, String.append_assoc.symm⟩

/-- A manifest has no codes in it. -/
theorem shownOn_manifest (terminal : Bool) {manifest : Manifest} {text : String}
    (h : manifest.write = .ok text) : shownOn terminal text = text := by
  obtain ⟨-, -, rfl⟩ := Manifest.write_eq_ok_iff.mp h
  refine shownOn_eq_self_iff.mpr (.inr (not_hasCode_of_not_mem fun hescape => ?_))
  exact absurd (Toml.clean_write manifest.toTable _ hescape) (by decide)

theorem endsLine_table (timings : Bool) (records : List Record) :
    EndsLine (if timings then timingTable records else "") := by
  cases timings with
  | false => exact .inl rfl
  | true =>
      have hlast : toString "s\n" = "s" ++ "\n" := by decide
      rw [if_pos rfl]
      unfold timingTable
      dsimp only
      rw [hlast, ← String.append_assoc, ← String.append_assoc]
      exact .inr ⟨_, rfl⟩

/-! ## The law -/

/-- Two reports on one failure, one of which has printed `table` before. -/
structure FailAlike (table : String) (report other : Report) : Prop where
  exit : other.exit = report.exit
  escaped : other.escaped = report.escaped
  /-- Unless the failure ends the calls as it is, the same is printed. -/
  printed : report.escaped = none →
    other.stdout = report.stdout ∧ other.stderr = table ++ report.stderr

/-- A report on a failure and one on stages that have failed with it are alike. -/
theorem failAlike_of_blames {report : Report} {failure : Failure} (h : Blames report failure)
    (selection : Selection) (timings : Bool) (records : List Record) :
    FailAlike (if timings then timingTable records else "") report
      (.ofStages selection timings records (.error failure)) := by
  obtain ⟨front, warnings, rfl, hnothing⟩ := h
  unfold Report.ofStages
  dsimp only
  cases hstage : failure.stage? with
  | some stage =>
      have hreported : failure.isReported = true := by
        unfold Failure.isReported
        rw [hstage]
        rfl
      obtain ⟨rfl, rfl⟩ := hnothing hreported
      rw [if_pos hreported]
      unfold Report.ofFailure
      rw [hstage]
      refine ⟨rfl, rfl, fun _ => ⟨rfl, ?_⟩⟩
      dsimp only
      rw [String.empty_append]
  | none =>
      have hreported : ¬ failure.isReported = true := by
        unfold Failure.isReported
        rw [hstage]
        exact Bool.false_ne_true
      rw [if_neg hreported]
      unfold Report.ofFailure
      rw [hstage]
      exact ⟨rfl, rfl, nofun⟩

/-- Of reports that are alike, the same is to be seen. -/
theorem FailAlike.shownBy {table : String} {report other : Report}
    (h : FailAlike table report other) (htable : EndsLine table) (host : Host σ) :
    FailAlike (shownOn host.errIsTerminal table) (report.shownBy host) (other.shownBy host) := by
  refine ⟨h.exit, h.escaped, fun hescaped => ?_⟩
  obtain ⟨hout, herr⟩ := h.printed hescaped
  exact ⟨congrArg (shownOn host.outIsTerminal) hout,
    (congrArg (shownOn host.errIsTerminal) herr).trans (shownOn_append _ htable _)⟩

/-- The call with `arguments`, which inspects a script, is a dry run of the call with `arguments'`,
which generates its project. -/
structure DryRun (host : Host σ) (world : World σ) (arguments arguments' : List String)
    (request request' : Request) (settings settings' : Settings) : Prop where
  /-- What the inspection says foretells what the other call comes to. -/
  foretells : Foretells request.subject
    ((pipelineFor host settings).newProject (Path.ofString request.subject).stem
      (some (.ofString request.subject)))
    (respond host arguments world).1.report (reached host settings' request' world).1
    (reached host settings' request' world).2.records (invoke host arguments' world).2.files
  /-- If the other call succeeds, the inspection prints the text of its manifest file as it is. -/
  prints : ∀ outcome, (reached host settings' request' world).1 = .ok outcome →
    ∃ metadata text, outcome.metadata = some metadata ∧
      (invoke host arguments world).1.report =
        .success (shownOn host.outIsTerminal (inspection request.subject
            ((pipelineFor host settings).newProject (Path.ofString request.subject).stem
              (some (.ofString request.subject))) metadata) ++ text)
          (shownOn host.errIsTerminal (warningText metadata)) ∧
      (invoke host arguments' world).2.files.find? ((pipelineFor host settings).newProject
        (Path.ofString request.subject).stem (some (.ofString request.subject))).manifestPath =
          some (.file (Utf8.encode text))
  /-- The other call reports on what it comes to. -/
  reports : (invoke host arguments' world).1.report =
    (Report.ofStages generating request'.timings (reached host settings' request' world).2.records
      (reached host settings' request' world).1).shownBy host
  /-- If it fails in the analysis or in the merge, the inspection reports the same. -/
  alike : ∀ failure, (reached host settings' request' world).1 = .error failure →
    FailedEarly (reached host settings' request' world).2.records failure →
    FailAlike (shownOn host.errIsTerminal (if request'.timings then
        timingTable (reached host settings' request' world).2.records else ""))
      (invoke host arguments world).1.report (invoke host arguments' world).1.report
  /-- The inspection changes no file but the journal of the script. -/
  confined : FileSystem.Confined
    (JournalAt world.files.here settings.logDirectory (Path.ofString request.subject).stem)
    (OnWayToLogs world.files.here settings.logDirectory (Path.ofString request.subject).stem)
    world.files (invoke host arguments world).2.files
  /-- It changes nothing under the build root unless the journal is there. -/
  under : (∀ base ∈ settings.logDirectory,
      ".." ∉ (base.child (Path.ofString request.subject).stem).names ∧
        ¬ settings.buildRoot.lands world.files.here <+:
          ((base.child (Path.ofString request.subject).stem).child Log.journalName).lands
            world.files.here) →
    ∀ place, settings.buildRoot.lands world.files.here <+: place →
      (invoke host arguments world).2.files.node? place = world.files.node? place
  /-- It calls no command but the search. -/
  searches : ∃ names : List String,
    (invoke host.noting arguments (world.keeping [])).2.outside.1 =
      names.map fun name => .command (Registry.searchCall settings.cargo name none)

section

variable {host : Host σ} {settings : Settings} {request request' : Request}

/-- What the call leaves in files does not depend on the connection to the registry. -/
theorem files_of_stages (settings' : Settings)
    (hclose : ∀ world, ((settings'.resolver host.runner host.client).close world).2.files =
      world.files)
    (hverb : request'.verb = .run) (world : World σ) :
    (carryOut host settings' request' world).2.files =
      (reached host settings' request' world).2.state.world.files := by
  rw [(carryOut_of_stages host settings' world (.inl hverb)).2.closed, hclose]
  rfl

/-- Whether the build tells what it does makes no difference to an inspection. -/
theorem inspect_verbose (settings : Settings) (verbose : Bool) (script : String)
    (world : World (Registry.Cache × σ)) :
    inspect (pipelineFor host { settings with verboseBuild := verbose }) script
        ((pipelineFor host { settings with verboseBuild := verbose }).opened world) =
      inspect (pipelineFor host settings) script ((pipelineFor host settings).opened world) := rfl

theorem foretells_carryOut (h : AnswersAlone (settings.resolver host.runner host.client))
    (verbose : Bool) (hverb : request.verb = .inspect) (hverb' : request'.verb = .run)
    (hsubject : request'.subject = request.subject) (hselection : request'.selection = generating)
    (world : World σ) :
    Foretells request.subject
      ((pipelineFor host settings).newProject (Path.ofString request.subject).stem
        (some (.ofString request.subject)))
      (carryOut host settings request world).1
      (reached host { settings with verboseBuild := verbose } request' world).1
      (reached host { settings with verboseBuild := verbose } request' world).2.records
      (carryOut host { settings with verboseBuild := verbose } request' world).2.files := by
  obtain ⟨answers, hanswers⟩ := h.answers
  have hlogs : (pipelineFor host { settings with verboseBuild := verbose }).WritesOnlyLogs
      settings.logDirectory := ⟨rfl, Registry.files_remembering h.resolve⟩
  have hcall : (Script.file (.ofString request.subject)).call
      (pipelineFor host { settings with verboseBuild := verbose }) generating request'.arguments
      false ((pipelineFor host { settings with verboseBuild := verbose }).opened
        (world.keeping [])) =
      reached host { settings with verboseBuild := verbose } request' world := by
    unfold reached staged Request.script
    rw [hverb', hsubject, hselection]
    rfl
  have hforetells := foretells_inspect rfl hanswers hlogs rfl rfl request.subject
    request'.arguments false hcall
  rw [inspect_verbose] at hforetells
  rw [files_of_stages { settings with verboseBuild := verbose } h.close hverb',
    carryOut_of_inspect host settings hverb]
  exact hforetells

/-- **Inspecting is a dry run** of generating. -/
theorem dry_run (host : Host σ) (world : World σ) {arguments arguments' : List String}
    {verbose verbose' : Bool} {rest rest' : List String} {request request' : Request}
    (hverb : readVerb arguments = .ok (.inspect, verbose, rest))
    (hread : read .inspect world.files rest = .ok request)
    (hverb' : readVerb arguments' = .ok (.run, verbose', rest'))
    (hread' : read .run world.files rest' = .ok request')
    (hselection : request'.selection = generating) (hsubject : request'.subject = request.subject)
    (hregistry : request'.registry = request.registry)
    (hroot : request'.buildRoot = request.buildRoot) :
    (∀ error, settingsFor host request = .error error →
      (invoke host arguments world).1.report =
          (Report.ofFailure "" "" (.settings error)).shownBy host ∧
        (invoke host arguments' world).1.report =
          (Report.ofFailure "" "" (.settings error)).shownBy host) ∧
    ∀ settings, settingsFor host request = .ok settings →
      AnswersAlone (settings.resolver host.runner host.client) →
      ∃ settings', settingsFor host request' = .ok settings' ∧
        DryRun host world arguments arguments' request request' settings settings' := by
  constructor
  · intro error herror
    exact ⟨report_of_unsettled hverb hread herror,
      report_of_unsettled hverb' hread' (settingsFor_error herror)⟩
  · intro settings hsettings halone
    obtain ⟨verbose, hsettings'⟩ := settingsFor_alike hregistry hroot hsettings
    have hinspects : request.verb = .inspect := verb_of_read hread
    have hruns : request'.verb = .run := verb_of_read hread'
    have hforetells :=
      foretells_carryOut halone verbose hinspects hruns hsubject hselection world
    have hreports := (carryOut_of_stages host { settings with verboseBuild := verbose } world
      (.inl hruns)).1
    have hconfined := confined_carryOut halone hinspects world
    have hnoting : respond host.noting arguments (world.keeping []) = _ :=
      respond_of_read hverb hread hsettings
    refine ⟨{ settings with verboseBuild := verbose }, hsettings', ?_⟩
    rw [hselection] at hreports
    refine ⟨?_, ?_, ?_, ?_, ?_, ?_, ?_⟩
    · rw [invoke_apply, respond_of_read hverb hread hsettings,
        respond_of_read hverb' hread' hsettings']
      exact hforetells
    · intro outcome houtcome
      obtain ⟨metadata, text, manifest, hmetadata, htext, hreport, hfile⟩ :=
        hforetells.succeeds outcome houtcome
      refine ⟨metadata, text, hmetadata, ?_, ?_⟩
      · rw [invoke_apply, respond_of_read hverb hread hsettings]
        dsimp only
        rw [hreport]
        unfold Report.shownBy Report.success
        dsimp only
        rw [shownOn_append _ (endsLine_inspection _ _ _), shownOn_manifest _ htext]
      · rw [invoke_apply, respond_of_read hverb' hread' hsettings']
        exact hfile
    · rw [invoke_apply, respond_of_read hverb' hread' hsettings']
      exact congrArg (Report.shownBy · host) hreports
    · intro failure hfailure hearly
      rw [invoke_apply, invoke_apply, respond_of_read hverb hread hsettings,
        respond_of_read hverb' hread' hsettings']
      dsimp only
      rw [hreports, hfailure]
      exact (failAlike_of_blames (hforetells.fails failure hfailure hearly) _ _ _).shownBy
        (endsLine_table _ _) host
    · rw [invoke_apply, respond_of_read hverb hread hsettings]
      exact hconfined
    · intro haside place hplace
      rw [invoke_apply, respond_of_read hverb hread hsettings]
      exact node?_of_confined hconfined haside hplace
    · rw [invoke_apply, hnoting]
      exact searches_carryOut host settings hinspects world

end

/-! ## A rehearsal -/

/-- The search of a rehearsal knows no crates and leaves files alone. -/
theorem answersAlone_cast (cast : Rehearsal.Cast) (cargo : String) :
    AnswersAlone (Registry.searching cast.runner cargo none) where
  answers := ⟨fun name => Registry.interpretSearch name
    (cast.searchOutcome (Registry.searchCall cargo name none)), fun _ _ => rfl⟩
  resolve _ _ := rfl
  close _ := rfl

/-- A host that builds in `build` and keeps its logs in a directory. -/
def demoHost (logs : String) : Host Rehearsal.Trace where
  environment := [("RSRUN_BUILD_ROOT", "build"), ("RSRUN_LOG_DIR", logs)]
  temporary := Path.ofString "/tmp"
  runner := Rehearsal.Cast.plain.runner
  client := Rehearsal.client []

/-- A world with one script. -/
def demoWorld : World Rehearsal.Trace :=
  ⟨⟨[], [(["demo.rs"], .file (Utf8.encode "fn main() {}\n"))]⟩, fun _ => .nan, 0, .empty⟩

/-- The script is to be inspected. -/
def inspectDemo : Request :=
  ⟨.inspect, "demo.rs", [], ⟨false, false, false⟩, false, none, none, false⟩

/-- The project of the script is to be generated. -/
def generateDemo : Request := ⟨.run, "demo.rs", [], generating, false, none, none, false⟩

/-- The settings on that host. -/
def demoSettings (logs : String) : Settings :=
  { Settings.standard (Path.ofString "build") with logDirectory := some (Path.ofString logs) }

/-- With the logs beside the build root, the project gets the manifest that has been shown, and
nothing changes under the build root when it is shown. -/
theorem dry_run_demo :
    (∃ metadata text,
      (invoke (demoHost "logs") ["inspect", "demo.rs"] demoWorld).1.report =
          .success (shownOn false (inspection "demo.rs" ((pipelineFor (demoHost "logs")
            (demoSettings "logs")).newProject "demo" (some (Path.ofString "demo.rs"))) metadata) ++
              text) (shownOn false (warningText metadata)) ∧
        (invoke (demoHost "logs") ["run", "-g", "demo.rs"] demoWorld).2.files.find?
          ((Path.ofString "build/demo").child "Cargo.toml") = some (.file (Utf8.encode text))) ∧
      (∀ place, ["build"] <+: place →
        (invoke (demoHost "logs") ["inspect", "demo.rs"] demoWorld).2.files.node? place =
          demoWorld.files.node? place) := by
  have hverb : readVerb ["inspect", "demo.rs"] = .ok (.inspect, false, ["demo.rs"]) := rfl
  have hread : read .inspect demoWorld.files ["demo.rs"] = .ok inspectDemo := rfl
  have hverb' : readVerb ["run", "-g", "demo.rs"] = .ok (.run, false, ["-g", "demo.rs"]) := rfl
  have hread' : read .run demoWorld.files ["-g", "demo.rs"] = .ok generateDemo := rfl
  have hsettings : settingsFor (demoHost "logs") inspectDemo = .ok (demoSettings "logs") := rfl
  have hsettings' : settingsFor (demoHost "logs") generateDemo = .ok (demoSettings "logs") := rfl
  obtain ⟨settings', hfound, hdry⟩ :=
    (dry_run (demoHost "logs") demoWorld hverb hread hverb' hread' rfl rfl rfl rfl).2
      (demoSettings "logs") hsettings (answersAlone_cast .plain "cargo")
  obtain rfl := Except.ok.inj (hsettings'.symm.trans hfound)
  constructor
  · have hok : (reached (demoHost "logs") (demoSettings "logs") generateDemo demoWorld).1.isOk =
        true := by decide +kernel
    cases hreached : (reached (demoHost "logs") (demoSettings "logs") generateDemo demoWorld).1 with
    | error failure =>
        rw [hreached] at hok
        cases hok
    | ok outcome =>
        obtain ⟨metadata, text, -, hreport, hfile⟩ := hdry.prints outcome hreached
        exact ⟨metadata, text, hreport, hfile⟩
  · intro place hplace
    refine hdry.under ?_ place hplace
    rintro base hbase
    obtain rfl : Path.ofString "logs" = base := Option.some.inj hbase
    decide +kernel

/-- With the logs under the build root, showing the manifest leaves a journal there. -/
theorem inspection_makes_journal :
    readVerb ["inspect", "demo.rs"] = .ok (.inspect, false, ["demo.rs"]) ∧
      read .inspect demoWorld.files ["demo.rs"] = .ok inspectDemo ∧
      settingsFor (demoHost "build/logs") inspectDemo = .ok (demoSettings "build/logs") ∧
      AnswersAlone ((demoSettings "build/logs").resolver (demoHost "build/logs").runner
        (demoHost "build/logs").client) ∧
      (demoSettings "build/logs").buildRoot.lands demoWorld.files.here <+:
        ["build", "logs", "demo", "events.log"] ∧
      demoWorld.files.node? ["build", "logs", "demo", "events.log"] = none ∧
      (invoke (demoHost "build/logs") ["inspect", "demo.rs"] demoWorld).2.files.node?
        ["build", "logs", "demo", "events.log"] ≠ none := by
  refine ⟨rfl, rfl, rfl, answersAlone_cast .plain "cargo", ?_, ?_, ?_⟩
  all_goals decide +kernel

end RustScript.CommandLine
