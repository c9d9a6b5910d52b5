import RustScript.Proofs.Pipeline.OneClock

/-!
# What an inspection foretells

An inspection analyzes the script and merges its manifest as a call does that generates the project.
In between, such a call notes in its journal that it generates; but if the answers of the registry
depend on the names alone, its manifest is the one that the inspection has shown, and it fails before
it writes exactly if the inspection does (`foretells_inspect`).
-/

set_option autoImplicit false

namespace RustScript.CommandLine

open RustScript.Progress RustScript.Pipeline

variable {σ : Type}

/-! ## The same manifest -/

/-- The registry answers by the name alone. -/
def AnswersByName (resolver : Registry.Resolver σ)
    (answers : String → Except Registry.LookupError Registry.Release) : Prop :=
  ∀ name world, (resolver.resolve name world).1 = answers name

section

variable {inner : Registry.Resolver σ}
  {answers : String → Except Registry.LookupError Registry.Release}
  {world other : World (Registry.Cache × σ)}

/-- With the same releases in mind, a resolver that remembers gives the same answer, and then has the
same releases in mind. -/
theorem resolve_of_cache (h : AnswersByName inner answers)
    (hcache : world.outside.1 = other.outside.1) (name : String) :
    ((Registry.remembering inner).resolve name world).1 =
        ((Registry.remembering inner).resolve name other).1 ∧
      ((Registry.remembering inner).resolve name world).2.outside.1 =
        ((Registry.remembering inner).resolve name other).2.outside.1 := by
  rw [Registry.remembering_apply, Registry.remembering_apply, hcache]
  cases other.outside.1.get? (Crate.normalize name) with
  | some release => exact ⟨rfl, hcache⟩
  | none =>
      dsimp only
      rw [h name, h name]
      exact ⟨rfl, rfl⟩

theorem lookUpAll_of_cache (h : AnswersByName inner answers) (names : List String)
    (hcache : world.outside.1 = other.outside.1) :
    (Manifest.lookUpAll (Registry.remembering inner) names world).1 =
      (Manifest.lookUpAll (Registry.remembering inner) names other).1 := by
  induction names generalizing world other with
  | nil => rfl
  | cons name rest ih =>
      obtain ⟨hanswer, hcache⟩ := resolve_of_cache h hcache name
      have hmore := ih hcache
      unfold Manifest.lookUpAll
      rw [Frame.stateBind_apply, Frame.stateBind_apply, hanswer]
      cases Manifest.readAnswer ((Registry.remembering inner).resolve name other).1 with
      | error error => rfl
      | ok answer =>
          show Except.map _ (Manifest.lookUpAll _ rest _).1 =
            Except.map _ (Manifest.lookUpAll _ rest _).1
          rw [hmore]

/-- **The same manifest** comes of the same script with the same releases in mind. -/
theorem merge_of_cache (h : AnswersByName inner answers) (version edition : String)
    (metadata : Source.Metadata) (stem : String) (binary : Path)
    (hcache : world.outside.1 = other.outside.1) :
    (Manifest.merge (Registry.remembering inner) version edition metadata stem binary world).1 =
      (Manifest.merge (Registry.remembering inner) version edition metadata stem binary other).1 := by
  rw [Manifest.merge_eq, Manifest.merge_eq]
  cases Manifest.declare (Manifest.basic stem binary.toString version edition) metadata.embedded with
  | error cause => rfl
  | ok declared =>
      dsimp only
      split
      · dsimp only
        rw [lookUpAll_of_cache h _ hcache]
      · rfl

end

/-! ## Inspecting -/

/-- The report on a manifest and its text. -/
def inspected (script : String) (project : Project) :
    Source.Metadata × Except Manifest.MergeError Manifest → Report
  | (_, .error error) => .ofFailure "" "" (.merge error)
  | (metadata, .ok manifest) => .ofInspection script project metadata manifest

theorem inspect_apply (pipeline : Pipeline σ) (script : String) (tracker : Tracker (Session σ)) :
    inspect pipeline script tracker =
      match pipeline.analyze (.ofString script) tracker with
      | (.error failure, after) => (.ofFailure "" "" failure, after)
      | (.ok metadata, after) =>
          let project := pipeline.newProject (Path.ofString script).stem (some (.ofString script))
          let merged := Manifest.merge pipeline.resolver pipeline.settings.packageVersion
            pipeline.settings.edition metadata project.stem project.generatedSourcePath
            after.state.world
          (inspected script project merged.1, inWorld after merged.2) := by
  unfold inspect
  rw [Frame.stateBind_apply]
  rcases pipeline.analyze (.ofString script) tracker with ⟨failure | metadata, after⟩
  · rfl
  · dsimp only
    rw [Frame.stateBind_apply, onWorld_apply]
    dsimp only
    rcases (Manifest.merge pipeline.resolver pipeline.settings.packageVersion
      pipeline.settings.edition metadata _ _ after.state.world).1 with ⟨noted, error | manifest⟩ <;> rfl

/-- What an inspection says of a manifest with a text is that text. -/
theorem inspected_of_written {script : String} {project : Project}
    {merged : Source.Metadata × Except Manifest.MergeError Manifest} {metadata : Source.Metadata}
    {manifest : Manifest} {text : String} (h : writtenOf merged = .ok (metadata, manifest, text)) :
    inspected script project merged =
      .success (inspection script project metadata ++ text) (warningText metadata) := by
  obtain ⟨rfl, hmanifest, htext⟩ := writtenOf_eq_ok_iff.mp h
  obtain ⟨noted, _ | merged⟩ := merged
  · cases hmanifest
  · obtain rfl := Except.ok.inj hmanifest
    unfold inspected Report.ofInspection
    dsimp only
    rw [htext]

/-- The report is on a failure, with nothing in front of it if the failure is one that is reported. -/
def Blames (report : Report) (failure : Failure) : Prop :=
  ∃ front warnings, report = .ofFailure front warnings failure ∧
    (failure.isReported = true → front = "" ∧ warnings = "")

/-- An inspection fails as a manifest without a text does. -/
theorem blames_inspected (script : String) (project : Project)
    {merged : Source.Metadata × Except Manifest.MergeError Manifest} {failure : Failure}
    (h : writtenOf merged = .error failure) : Blames (inspected script project merged) failure := by
  obtain ⟨metadata, error | manifest⟩ := merged
  · obtain rfl : Failure.merge error = failure := Except.error.inj h
    exact ⟨"", "", rfl, fun _ => ⟨rfl, rfl⟩⟩
  · have hwritten : (manifest.write.mapError Failure.unwritable).bind
        (fun text => Except.ok (metadata, manifest, text)) = .error failure := h
    cases hwrite : manifest.write with
    | error reason =>
        rw [hwrite] at hwritten
        obtain rfl : Failure.unwritable reason = failure := Except.error.inj hwritten
        refine ⟨inspection script project metadata, warningText metadata, ?_, nofun⟩
        unfold inspected Report.ofInspection
        dsimp only
        rw [hwrite]
    | ok text =>
        rw [hwrite] at hwritten
        cases hwritten

/-! ## Generating -/

section

variable {pipeline : Pipeline σ} {metadata : Source.Metadata} {stem : String}
  {source : Option Path} {tracker : Tracker (Session σ)}

/-- What is merged when a project is generated. -/
def mergedIn (pipeline : Pipeline σ) (metadata : Source.Metadata) (stem : String)
    (source : Option Path) (world : World σ) :
    Source.Metadata × Except Manifest.MergeError Manifest :=
  (Manifest.merge pipeline.resolver pipeline.settings.packageVersion pipeline.settings.edition
    metadata stem (pipeline.newProject stem source).generatedSourcePath world).1

/-- The world in which the manifest is merged when a project is generated: the journal has been told
that the stage has begun. -/
def generatingIn (stem : String) (tracker : Tracker (Session σ)) : World σ :=
  (opening "generate" (aboutStem stem tracker)).2.state.world

/-- A generation without a manifest fails for that reason, or while it writes what can be written. -/
theorem generate_of_unwritten {failure : Failure}
    (h : writtenOf (mergedIn pipeline metadata stem source (generatingIn stem tracker)) =
      .error failure) :
    (pipeline.generate metadata stem source tracker).1 = .error failure ∨
      ∃ error, (pipeline.generate metadata stem source tracker).1 =
        .error (writeFailure (pipeline.newProject stem source) error) := by
  have hbody : (pipeline.generateStep metadata (pipeline.newProject stem source)
      (opening "generate" (aboutStem stem tracker)).2).1 = .error failure ∨
        ∃ error, (pipeline.generateStep metadata (pipeline.newProject stem source)
          (opening "generate" (aboutStem stem tracker)).2).1 =
            .error (writeFailure (pipeline.newProject stem source) error) := by
    rw [generateStep_apply, resolveManifest_apply]
    have hmerged : writtenOf (Manifest.merge pipeline.resolver pipeline.settings.packageVersion
        pipeline.settings.edition metadata (pipeline.newProject stem source).stem
        (pipeline.newProject stem source).generatedSourcePath
        (opening "generate" (aboutStem stem tracker)).2.state.world).1 = .error failure := h
    rw [hmerged]
    exact giveUp_fails _ _ _ _
  rw [generate_apply, inStage_run]
  obtain hbody | ⟨error, hbody⟩ := hbody
  · rw [hbody]
    exact .inl rfl
  · rw [hbody]
    exact .inr ⟨error, rfl⟩

/-- A generation whose manifest has a text fails only while it writes the project. -/
theorem failure_of_written {noted : Source.Metadata} {manifest : Manifest} {text : String}
    (h : writtenOf (mergedIn pipeline metadata stem source (generatingIn stem tracker)) =
      .ok (noted, manifest, text)) {failure : Failure}
    (hfailure : (pipeline.generate metadata stem source tracker).1 = .error failure) :
    ∃ error, failure = writeFailure (pipeline.newProject stem source) error := by
  have hbody : ∀ failure, (pipeline.generateStep metadata (pipeline.newProject stem source)
      (opening "generate" (aboutStem stem tracker)).2).1 = .error failure →
        ∃ error, failure = writeFailure (pipeline.newProject stem source) error := by
    intro failure hfailed
    rw [generateStep_apply, resolveManifest_apply] at hfailed
    have hmerged : writtenOf (Manifest.merge pipeline.resolver pipeline.settings.packageVersion
        pipeline.settings.edition metadata (pipeline.newProject stem source).stem
        (pipeline.newProject stem source).generatedSourcePath
        (opening "generate" (aboutStem stem tracker)).2.state.world).1 =
          .ok (noted, manifest, text) := h
    rw [hmerged] at hfailed
    dsimp only at hfailed
    split at hfailed
    · next error _ _ => exact ⟨error, (Except.error.inj hfailed).symm⟩
    · cases hfailed
  rw [generate_apply, inStage_run] at hfailure
  cases hresult : (pipeline.generateStep metadata (pipeline.newProject stem source)
      (opening "generate" (aboutStem stem tracker)).2).1 with
  | error other =>
      rw [hresult] at hfailure
      obtain rfl : other = failure := Except.error.inj hfailure
      exact hbody other hresult
  | ok step =>
      rw [hresult] at hfailure
      cases hfailure

/-- A generation ends with the record of its stage. -/
theorem last_of_generate :
    ∃ record, (pipeline.generate metadata stem source tracker).2.records.getLast? = some record ∧
      record.stage = "generate" := by
  obtain ⟨seconds, ⟨record, hrecords, hended, -⟩, -⟩ := times_generating pipeline metadata
    (pipeline.newProject stem source) (aboutStem stem tracker)
  refine ⟨record, ?_, hended.stage⟩
  rw [generate_apply]
  show (inStage "generate" _ _ _).2.records.getLast? = _
  rw [hrecords, List.getLast?_concat]

/-- What a generation leaves is the text of what is merged in it. -/
theorem written_of_generate {logs : Option Path} (hlogs : pipeline.WritesOnlyLogs logs)
    (hlisteners : tracker.listeners = pipeline.listeners) {project : Project}
    {noted : Source.Metadata}
    (h : (pipeline.generate metadata stem source tracker).1 = .ok (project, noted)) :
    ∃ manifest text,
      writtenOf (mergedIn pipeline metadata stem source (generatingIn stem tracker)) =
        .ok (noted, manifest, text) ∧
      (pipeline.generate metadata stem source tracker).2.state.world.files.find?
        (pipeline.newProject stem source).manifestPath = some (.file (Utf8.encode text)) := by
  obtain ⟨manifest, text, written, after, hgoes, timings, rfl⟩ := goes_of_generate h
  obtain ⟨-, ⟨⟨other, found, hmanifest, htext, hfile, -⟩, -, -⟩, -⟩ :=
    generated_of_generate hlogs hlisteners h
  obtain rfl := Option.some.inj hmanifest
  obtain ⟨-, htext', -⟩ := hgoes.merged hlogs
  obtain rfl : text = found := Except.ok.inj (htext'.symm.trans htext)
  exact ⟨manifest, text, hgoes.resolved, hfile⟩

end

/-! ## A call that generates -/

/-- Only generating is selected. -/
def generating : Selection := ⟨true, false, false⟩

/-- What the inspection of a script says about a call that generates its project. -/
structure Foretells (script : String) (project : Project) (report : Report)
    (result : Except Failure Outcome) (records : List Record) (files : FileSystem) : Prop where
  /-- If the call fails in the analysis or in the merge, the inspection fails with the same. -/
  fails : ∀ failure, result = .error failure → FailedEarly records failure → Blames report failure
  /-- If it succeeds, the manifest file holds the text that the inspection has printed. -/
  succeeds : ∀ outcome, result = .ok outcome → ∃ metadata text, ∃ manifest : Manifest,
    outcome.metadata = some metadata ∧ manifest.write = .ok text ∧
    report = .success (inspection script project metadata ++ text) (warningText metadata) ∧
    files.find? project.manifestPath = some (.file (Utf8.encode text))

section

variable {pipeline : Pipeline (Registry.Cache × σ)} {inner : Registry.Resolver σ}
  {answers : String → Except Registry.LookupError Registry.Release} {logs : Option Path}
  {tracker : Tracker (Session (Registry.Cache × σ))}

/-- Between the analysis and the merge nothing changes that the merge depends on. -/
theorem mergedIn_generatingIn (hresolver : pipeline.resolver = Registry.remembering inner)
    (hanswers : AnswersByName inner answers) (hlogs : pipeline.WritesOnlyLogs logs)
    (hlisteners : tracker.listeners = pipeline.listeners) (metadata : Source.Metadata)
    (stem : String) (source : Option Path) :
    mergedIn pipeline metadata stem source (generatingIn stem tracker) =
      mergedIn pipeline metadata stem source tracker.state.world := by
  have hreports := reports_aboutStem hlisteners stem
  have houtside : (generatingIn stem tracker).outside = tracker.state.world.outside :=
    hlogs.outside_notes (onlyNotes_opening pipeline stem "generate") hreports
  unfold mergedIn
  rw [hresolver]
  apply merge_of_cache hanswers
  rw [houtside]

end

section

variable {pipeline : Pipeline σ} {logs : Option Path} (hlogs : pipeline.WritesOnlyLogs logs)
  {tracker : Tracker (Session σ)}

include hlogs

/-- The manifest file of a project is found again after a note that a stage was left out. -/
theorem find?_skip {stem : String} (hreports : pipeline.Reports stem tracker) (stage : String)
    {project : Project} {node : Node}
    (hfound : tracker.state.world.files.find? project.manifestPath = some node) :
    pipeline.Reports stem (skip stage notRequested tracker).2 ∧
      (skip stage notRequested tracker).2.state.world.files.find? project.manifestPath =
        some node := by
  have hskip := onlyNotes_skip pipeline stem stage notRequested
  obtain ⟨hconfined, hgrows⟩ := hlogs.confined_notes hskip hreports
  exact ⟨hskip.reports hreports,
    find?_of_notes ordinary_cargoToml (by decide) hconfined hgrows hfound⟩

end

section

variable {pipeline : Pipeline (Registry.Cache × σ)} {inner : Registry.Resolver σ}
  {answers : String → Except Registry.LookupError Registry.Release} {logs : Option Path}
  {tracker : Tracker (Session (Registry.Cache × σ))}

theorem not_failedEarly_of_writing {records : List Record} {project : Project} {error : SystemError}
    (hlast : ∃ record, records.getLast? = some record ∧ record.stage = "generate") :
    ¬ FailedEarly records (writeFailure project error) := by
  rintro ⟨last, hfound, hearly⟩
  obtain ⟨record, hrecord, hstage⟩ := hlast
  obtain rfl := Option.some.inj (hrecord.symm.trans hfound)
  obtain hanalyze | ⟨-, hbefore⟩ := hearly
  · rw [hstage] at hanalyze
    exact absurd hanalyze (by decide)
  · exact hbefore _ _ rfl

theorem generateFrom_apply (pipeline : Pipeline σ) (metadata : Source.Metadata) (stem : String)
    (source : Option Path) (tracker : Tracker (Session σ)) :
    pipeline.generateFrom stem source (.ok metadata) tracker =
      ((pipeline.generate metadata stem source tracker).1.map fun made =>
          ⟨made.1, some made.2, none, none⟩,
        (pipeline.generate metadata stem source tracker).2) := by
  unfold generateFrom
  dsimp only
  rw [Frame.stateBind_apply]
  rfl

/-- The part of the call behind the analysis. -/
theorem foretells_inspected (hresolver : pipeline.resolver = Registry.remembering inner)
    (hanswers : AnswersByName inner answers) (hlogs : pipeline.WritesOnlyLogs logs)
    (hlisteners : tracker.listeners = pipeline.listeners) (script : String)
    (metadata : Source.Metadata) (stem : String) (source : Option Path) (args : List String)
    (capture : Bool) {result : Except Failure Outcome}
    {after : Tracker (Session (Registry.Cache × σ))}
    (h : proceed (pipeline.generateFrom stem source (.ok metadata))
      (pipeline.buildAndRun generating args capture) tracker = (result, after)) :
    Foretells script (pipeline.newProject stem source)
      (inspected script (pipeline.newProject stem source)
        (mergedIn pipeline metadata stem source tracker.state.world))
      result after.records after.state.world.files := by
  have hmerged := mergedIn_generatingIn hresolver hanswers hlogs hlisteners metadata stem source
  rw [proceed_apply, generateFrom_apply] at h
  cases hresult : (pipeline.generate metadata stem source tracker).1 with
  | error failure =>
      rw [hresult] at h
      obtain ⟨rfl, rfl⟩ := Prod.mk.inj h
      refine ⟨?_, fun _ houtcome => by cases houtcome⟩
      intro other hother hearly
      obtain rfl : failure = other := Except.error.inj hother
      cases hwritten : writtenOf (mergedIn pipeline metadata stem source
          (generatingIn stem tracker)) with
      | error unwritten =>
          obtain hfails | ⟨error, hfails⟩ := generate_of_unwritten hwritten
          · obtain rfl : unwritten = failure := Except.error.inj (hfails.symm.trans hresult)
            rw [hmerged] at hwritten
            exact blames_inspected script _ hwritten
          · obtain rfl := Except.error.inj (hfails.symm.trans hresult)
            exact absurd hearly (not_failedEarly_of_writing last_of_generate)
      | ok written =>
          -- only writing has failed, which is not early
          obtain ⟨error, rfl⟩ := failure_of_written hwritten hresult
          exact absurd hearly (not_failedEarly_of_writing last_of_generate)
  | ok made =>
      obtain ⟨generated, noted⟩ := made
      rw [hresult] at h
      obtain ⟨manifest, text, hwritten, hfile⟩ := written_of_generate hlogs hlisteners hresult
      have hreports : pipeline.Reports stem (pipeline.generate metadata stem source tracker).2 :=
        (settled_generate hlogs metadata source hlisteners).1
      obtain ⟨hbuilding, hbuild⟩ := find?_skip hlogs hreports "build" hfile
      have hrun := (find?_skip hlogs hbuilding "run" hbuild).2
      -- building and running are left out, which only leaves notes
      rw [hmerged] at hwritten
      obtain ⟨rfl, rfl⟩ := Prod.mk.inj h
      refine ⟨fun _ hfailure => (by cases hfailure), ?_⟩
      intro outcome houtcome
      obtain rfl : (⟨generated, some noted, none, none⟩ : Outcome) = outcome :=
        Except.ok.inj houtcome
      exact ⟨noted, text, manifest, rfl, (writtenOf_eq_ok_iff.mp hwritten).2.2,
        inspected_of_written hwritten, hrun⟩

/-- **An inspection foretells** what a call in the same place does that generates the project. -/
theorem foretells_inspect (hresolver : pipeline.resolver = Registry.remembering inner)
    (hanswers : AnswersByName inner answers) (hlogs : pipeline.WritesOnlyLogs logs)
    (hlisteners : tracker.listeners = pipeline.listeners) (hnothing : tracker.records = [])
    (script : String) (args : List String) (capture : Bool) {result : Except Failure Outcome}
    {after : Tracker (Session (Registry.Cache × σ))}
    (h : (Script.file (.ofString script)).call pipeline generating args capture tracker =
      (result, after)) :
    Foretells script
      (pipeline.newProject (Path.ofString script).stem (some (.ofString script)))
      (inspect pipeline script tracker).1 result after.records after.state.world.files := by
  have hrenewed : (pipeline.renew tracker).2 = tracker := by
    obtain ⟨records, listeners, state⟩ := tracker
    obtain rfl : records = [] := hnothing
    obtain rfl : listeners = pipeline.listeners := hlisteners
    rfl
  have hnotes : pipeline.NotesKeep (Path.ofString script).stem
      ⟨fun _ _ => True, fun _ => trivial, fun _ _ => trivial⟩ := fun _ _ _ _ _ => trivial
  have hheard : (pipeline.analyze (.ofString script) tracker).2.listeners = pipeline.listeners :=
    (heeds_analyze_of_notes hnotes ⟨fun _ => trivial, fun _ _ => trivial⟩ tracker hlisteners).1
  have hanalysis : (Script.file (.ofString script)).analysis pipeline tracker =
      pipeline.analyze (.ofString script) tracker := rfl
  rw [Script.call_of_generate pipeline (.file (.ofString script)) args capture tracker rfl,
    hrenewed] at h
  unfold Script.entering at h
  rw [proceed_assoc, proceed_apply, hanalysis] at h
  rw [inspect_apply]
  rcases hanalyzed : pipeline.analyze (.ofString script) tracker with ⟨failure | metadata, read⟩
  · rw [hanalyzed] at h
    obtain ⟨rfl, rfl⟩ := Prod.mk.inj h
    refine ⟨?_, fun _ houtcome => by cases houtcome⟩
    intro other hother _
    obtain rfl : failure = other := Except.error.inj hother
    exact ⟨"", "", rfl, fun _ => ⟨rfl, rfl⟩⟩
  · rw [hanalyzed] at h hheard
    exact foretells_inspected hresolver hanswers hlogs hheard script metadata _ _ args capture h

end

end RustScript.CommandLine
