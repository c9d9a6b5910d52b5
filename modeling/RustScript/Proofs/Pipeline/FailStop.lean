import RustScript.Proofs.Manifest.Answered
import RustScript.Proofs.Pipeline.Episodes
import RustScript.Proofs.Source.Analyzed

/-!
# Calls stop at the first failure

A call has a plan: the stages before it, each with what it may ask of the collaborators. Every stage
follows its part of the plan (`traces_analyze`, `traces_generateFrom`, `traces_buildIf`,
`traces_runIf`), and so the call goes through the plan up to the first failure, which is the failure
of the call and is put down to the last record (`failStop_runScript`). A stage that calls a command
calls it once at most, so no command is called once a stage has failed. Some failures that come from
what a script or a registry says belong to no stage (`Escapes`).
-/

set_option autoImplicit false

namespace RustScript.Pipeline

open RustScript.Progress

variable {σ α β : Type}

/-! ## Failures and their stages -/

/-- The collaborators do what they are documented to do: the resolver answers, and the runner gives
an output unless the command is stopped or cannot be started. -/
structure Dependable (pipeline : Pipeline σ) : Prop where
  answers : pipeline.resolver.Answers
  ends : ∀ call world, (pipeline.runner call world).1 ≠ .error .incomplete

/-- The failure ends a stage, but it is none that a stage provides for: a number has too many digits
to be read or to be written, values stand too deep inside each other, or a text that a registry sent
has no bytes. -/
inductive Escapes : String → Failure → Prop
  | fragment (excess : Toml.Excess) : Escapes "analyze" (.merge (.malformed (.excessive excess)))
  | package : Escapes "generate" (.merge .longNumber)
  | number : Escapes "generate" (.unwritable .longNumber)
  | text (reason : String) : Escapes "generate" (.unwritable (.noBytes reason))

/-- What escapes from a stage belongs to none. -/
theorem stage?_of_escapes {stage : String} {failure : Failure} (h : Escapes stage failure) :
    failure.stage? = none := by
  cases h <;> rfl

theorem output?_of_escapes {stage : String} {failure : Failure} (h : Escapes stage failure) :
    failure.output? = none := by
  cases h <;> rfl

/-- The failure is put down to the stage: it belongs to it or escapes from it. -/
def PutDown (stage : String) (failure : Failure) : Prop :=
  failure.stage? = some stage ∨ Escapes stage failure

/-- The failure is put down to the stage, as long as the collaborators are dependable. -/
def Charged (pipeline : Pipeline σ) (stage : String) (failure : Failure) : Prop :=
  pipeline.Dependable → PutDown stage failure

theorem charged_buildFault (pipeline : Pipeline σ) (cargo : String) {call : Command.Call}
    {world : World σ} {problem : Command.Fault}
    (h : (pipeline.runner call world).1 = .error problem) :
    pipeline.Charged "build" (buildFault cargo problem) := by
  intro hdependable
  cases problem with
  | timedOut => exact .inl rfl
  | system => exact .inl rfl
  | incomplete => exact absurd h (hdependable.ends call world)

theorem charged_runFault (pipeline : Pipeline σ) (project : Project) {call : Command.Call}
    {world : World σ} {problem : Command.Fault}
    (h : (pipeline.runner call world).1 = .error problem) :
    pipeline.Charged "run" (runFault project problem) := by
  intro hdependable
  cases problem with
  | timedOut => exact .inl rfl
  | system => exact .inl rfl
  | incomplete => exact absurd h (hdependable.ends call world)

theorem buildCall_congr (settings : Settings) {project other : Project}
    (h : project.SharesPlace other) : buildCall settings project = buildCall settings other := by
  unfold buildCall
  rw [h.directory]

theorem runCall_congr (settings : Settings) {project other : Project}
    (h : project.SharesPlace other) (args : List String) (capture : Bool) :
    runCall settings project args capture = runCall settings other args capture := by
  unfold runCall Project.targetPath
  rw [h.directory, h.stem]

/-! ## Stages that call a command -/

/-- A stage that calls a command is planned: the command is called once at most, and has been called
if the stage succeeds. -/
def commandPlan (stage : String) (selected : Bool) (call : Command.Call) : Planned where
  stage
  selected
  allows status asked :=
    asked <+: [.command call] ∧ (status = .completed → asked = [.command call])

/-- Keeps the output of a command and judges it. -/
def judge (pipeline : Pipeline σ) (stem stage : String) (failed : Command.Output → Failure)
    (done : Command.Output → Step Command.Output) (output : Command.Output) :
    Run σ (Except Failure (Step Command.Output)) := do
  pipeline.keepOutput stem stage output
  if !output.ok then return .error (failed output)
  return .ok (done output)

/-- Goes on from the answer of the runner. -/
def settle (pipeline : Pipeline σ) (stem stage : String) (fault : Command.Fault → Failure)
    (failed : Command.Output → Failure) (done : Command.Output → Step Command.Output)
    (answer : Except Command.Fault Command.Output) :
    Run σ (Except Failure (Step Command.Output)) :=
  match answer with
  | .error problem => pure (.error (fault problem))
  | .ok output => pipeline.judge stem stage failed done output

/-- A stage that needs a file, calls a command and judges its output. -/
def commandStep (pipeline : Pipeline σ) (stem stage : String) (needed : Path) (missing : Failure)
    (call : Command.Call) (fault : Command.Fault → Failure) (failed : Command.Output → Failure)
    (done : Command.Output → Step Command.Output) :
    Run σ (Except Failure (Step Command.Output)) := do
  if !(← onWorld (Act.look (·.exists needed))) then return .error missing
  pipeline.settle stem stage fault failed done (← onWorld (pipeline.runner call))

theorem buildStep_eq (pipeline : Pipeline σ) (project : Project) :
    pipeline.buildStep project =
      pipeline.commandStep project.stem "build" project.manifestPath
        (.file .noManifest project.manifestPath.toString) (buildCall pipeline.settings project)
        (buildFault pipeline.settings.cargo)
        (fun output => .build (.failed project.sourceName output))
        (fun output => {
          detail := s!"target={project.targetPath}"
          project := { project with status := .built }
          value := output }) := rfl

theorem runStep_eq (pipeline : Pipeline σ) (project : Project) (args : List String)
    (capture : Bool) :
    pipeline.runStep project args capture =
      pipeline.commandStep project.stem "run" project.targetPath
        (.file .noProgram project.targetPath.toString)
        (runCall pipeline.settings project args capture) (runFault project)
        (fun output => .run (.exited project.sourceName output))
        (fun output => {
          detail := s!"exit={output.status}"
          project := { project with status := .ran }
          value := output }) := rfl

theorem notes_keepOutput (pipeline : Pipeline σ) (stem stage : String)
    (output : Command.Output) :
    Notes (Leaves fun _ asked => asked = []) (pipeline.keepOutput stem stage output)
      (pipeline.noting.keepOutput stem stage output) := by
  obtain ⟨settings, resolver, runner, store, structural⟩ := pipeline
  cases store with
  | none => exact notes_pure rfl
  | some store =>
      exact notes_bind_of_quiet (notes_onWorld (Act.notes_beside (store.save stem stage output)))
        fun _ => notes_pure rfl

/-- What a stage makes of the answer of the runner. -/
def Settled (fault : Command.Fault → Failure) (failed : Command.Output → Failure)
    (done : Command.Output → Step Command.Output) (answer : Except Command.Fault Command.Output)
    (result : Except Failure (Step Command.Output)) (asked : List Request) : Prop :=
  asked = [] ∧ match answer with
    | .error problem => result = .error (fault problem)
    | .ok output => result = .error (failed output) ∨ result = .ok (done output)

theorem notes_settle (pipeline : Pipeline σ) (stem stage : String)
    (fault : Command.Fault → Failure) (failed : Command.Output → Failure)
    (done : Command.Output → Step Command.Output)
    (answer : Except Command.Fault Command.Output) :
    Notes (Leaves (Settled fault failed done answer))
      (pipeline.settle stem stage fault failed done answer)
      (pipeline.noting.settle stem stage fault failed done answer) := by
  cases answer with
  | error problem => exact notes_pure ⟨rfl, rfl⟩
  | ok output =>
      refine notes_bind_of_quiet (notes_keepOutput pipeline stem stage output) fun _ => ?_
      cases output.ok with
      | false => exact notes_pure ⟨rfl, Or.inl rfl⟩
      | true => exact notes_pure ⟨rfl, Or.inr rfl⟩

theorem notes_commandStep (pipeline : Pipeline σ) {stem stage : String} {needed : Path}
    {missing : Failure} {call : Command.Call} {fault : Command.Fault → Failure}
    {failed : Command.Output → Failure} {done : Command.Output → Step Command.Output}
    {project : Project} {blame : String → Failure → Prop} (hmissing : blame stage missing)
    (hfault : ∀ world problem, (pipeline.runner call world).1 = .error problem →
      blame stage (fault problem))
    (hfailed : ∀ output, blame stage (failed output))
    (hdone : ∀ output, (done output).project.SharesPlace project) :
    Notes (Leaves (Worked blame (commandPlan stage true call) project))
      (pipeline.commandStep stem stage needed missing call fault failed done)
      (pipeline.noting.commandStep stem stage needed missing call fault failed done) := by
  refine notes_bind_of_quiet (notes_onWorld (Act.notes_look _)) fun present => ?_
  cases present with
  | false => exact notes_pure (.of_error ⟨List.nil_prefix, nofun⟩ hmissing)
  | true =>
      refine (notes_bind (notes_onWorld (Act.notes_runner pipeline.runner call))
        fun answer => notes_settle pipeline stem stage fault failed done answer).mono ?_
      rintro before result after _ ⟨hrecords, answer, _, _, ⟨rfl, world, hanswer⟩,
        ⟨rfl, hresult⟩, rfl⟩
      refine ⟨hrecords, ?_⟩
      cases answer with
      | error problem =>
          rw [hresult]
          exact .of_error ⟨List.prefix_refl _, nofun⟩ (hfault world problem hanswer)
      | ok output =>
          rcases hresult with rfl | rfl
          · exact .of_error ⟨List.prefix_refl _, nofun⟩ (hfailed output)
          · exact .of_ok ⟨List.prefix_refl _, fun _ => rfl⟩ (hdone output)

theorem notes_buildStep (pipeline : Pipeline σ) {project other : Project}
    (hplace : project.SharesPlace other) :
    Notes (Leaves (Worked pipeline.Charged
        (commandPlan "build" true (buildCall pipeline.settings other)) other))
      (pipeline.buildStep project) (pipeline.noting.buildStep project) := by
  rw [buildStep_eq, buildStep_eq, ← buildCall_congr pipeline.settings hplace]
  exact notes_commandStep pipeline (fun _ => .inl rfl)
    (fun _ _ h => charged_buildFault pipeline _ h) (fun _ _ => .inl rfl)
    fun _ => ⟨hplace.directory, hplace.stem⟩

theorem notes_runStep (pipeline : Pipeline σ) {project other : Project}
    (hplace : project.SharesPlace other) (args : List String) (capture : Bool) :
    Notes (Leaves (Worked pipeline.Charged
        (commandPlan "run" true (runCall pipeline.settings other args capture)) other))
      (pipeline.runStep project args capture) (pipeline.noting.runStep project args capture) := by
  rw [runStep_eq, runStep_eq, ← runCall_congr pipeline.settings hplace]
  exact notes_commandStep pipeline (fun _ => .inl rfl)
    (fun _ _ h => charged_runFault pipeline _ h) (fun _ _ => .inl rfl)
    fun _ => ⟨hplace.directory, hplace.stem⟩

/-! ## The stages of a call -/

/-- What a call has made once the project is built. -/
def Outcome.built (outcome : Outcome) (project : Project) (output : Command.Output) : Outcome :=
  { outcome with project, buildOutput := some (StageOutput.ofCommand "build" project output) }

/-- What a call has made once the project has run. -/
def Outcome.ran (outcome : Outcome) (project : Project) (output : Command.Output) : Outcome :=
  { outcome with project, runOutput := some (StageOutput.ofCommand "run" project output) }

theorem buildIf_true (pipeline : Pipeline σ) (outcome : Outcome) :
    pipeline.buildIf true outcome = (do
      about outcome.project.stem
      let reached ← inStage "build" outcome.project (pipeline.buildStep outcome.project)
      return reached.2.map (outcome.built reached.1)) := by
  funext tracker
  unfold buildIf build
  simp only [if_true, bind_assoc, pure_bind, Frame.stateBind_apply]
  cases (inStage "build" outcome.project (pipeline.buildStep outcome.project)
    (about outcome.project.stem tracker).2).1.2 <;> rfl

theorem runIf_true (pipeline : Pipeline σ) (args : List String) (capture : Bool)
    (outcome : Outcome) :
    pipeline.runIf true args capture outcome = (do
      about outcome.project.stem
      let reached ← inStage "run" outcome.project (pipeline.runStep outcome.project args capture)
      return reached.2.map (outcome.ran reached.1)) := by
  funext tracker
  unfold runIf run
  simp only [if_true, bind_assoc, pure_bind, Frame.stateBind_apply]
  cases (inStage "run" outcome.project (pipeline.runStep outcome.project args capture)
    (about outcome.project.stem tracker).2).1.2 <;> rfl

/-- The project of what a call has made is built in the place of another one. -/
def Outcome.IsAt (project : Project) (outcome : Outcome) : Prop :=
  outcome.project.SharesPlace project

section

variable (pipeline : Pipeline σ) {project : Project} {outcome : Outcome}
  (hplace : outcome.IsAt project)

include hplace

theorem traces_buildIf (selected : Bool) :
    Notes (Traces pipeline.Charged
        [commandPlan "build" selected (buildCall pipeline.settings project)] (Outcome.IsAt project))
      (pipeline.buildIf selected outcome) (pipeline.noting.buildIf selected outcome) := by
  cases selected with
  | false => exact traces_skip (commandPlan "build" false _) rfl hplace
  | true =>
      rw [buildIf_true, buildIf_true]
      exact traces_inStage rfl (notes_buildStep pipeline hplace) outcome.built (fun _ _ h => h) _

theorem traces_runIf (selected : Bool) (args : List String) (capture : Bool) :
    Notes (Traces pipeline.Charged
        [commandPlan "run" selected (runCall pipeline.settings project args capture)]
        (Outcome.IsAt project))
      (pipeline.runIf selected args capture outcome)
      (pipeline.noting.runIf selected args capture outcome) := by
  cases selected with
  | false => exact traces_skip (commandPlan "run" false _) rfl hplace
  | true =>
      rw [runIf_true, runIf_true]
      exact traces_inStage rfl (notes_runStep pipeline hplace args capture) outcome.ran
        (fun _ _ h => h) _

end

/-! ## Generating -/

/-- The fragment of a script is sound. -/
def SoundFragment (metadata : Source.Metadata) : Prop :=
  ∃ declared, Manifest.declaredBy metadata.embedded = .ok declared

theorem notes_resolveManifest (pipeline : Pipeline σ) (metadata : Source.Metadata)
    (project : Project) :
    Act.Notes (Asks Request.IsLookUp) (pipeline.resolveManifest metadata project)
      (pipeline.noting.resolveManifest metadata project) :=
  (Act.notes_merge pipeline.resolver _ _ _ _ _).bind_asks fun _ => mirrors_pure_asks _

theorem charged_resolveManifest (pipeline : Pipeline σ) {metadata : Source.Metadata}
    (hfragment : SoundFragment metadata) {project : Project} {world : World σ} {failure : Failure}
    (h : (pipeline.resolveManifest metadata project world).1 = .error failure) :
    pipeline.Charged "generate" failure := by
  intro hdependable
  obtain ⟨declared, hdeclared⟩ := hfragment
  unfold resolveManifest at h
  rw [Frame.stateBind_apply] at h
  rcases hmerge : Manifest.merge pipeline.resolver pipeline.settings.packageVersion
    pipeline.settings.edition metadata project.stem project.generatedSourcePath world with
    ⟨⟨metadata', result⟩, after⟩
  rw [hmerge] at h
  cases result with
  | error error =>
      have hresult : (Manifest.merge pipeline.resolver pipeline.settings.packageVersion
          pipeline.settings.edition metadata project.stem project.generatedSourcePath
          world).1.2 = .error error := by rw [hmerge]
      obtain ⟨rfl, -⟩ | ⟨cause, rfl, hanswer⟩ :=
        Manifest.merge_eq_error hdependable.answers hdeclared hresult
      · have hfailure : Failure.merge .longNumber = failure := Except.error.inj h
        exact .inr (hfailure ▸ .package)
      · have hfailure : Failure.merge (.lookup cause) = failure := Except.error.inj h
        rw [← hfailure]
        refine .inl ?_
        show (if cause.isAnswer then some "generate" else none) = _
        rw [if_pos hanswer]
  | ok manifest =>
      have hwritten : (do
          let text ← manifest.write.mapError Failure.unwritable
          return (metadata', manifest, text) : Except Failure _) = .error failure := h
      cases hwrite : manifest.write with
      | ok text =>
          rw [hwrite] at hwritten
          cases hwritten
      | error reason =>
          rw [hwrite] at hwritten
          have hfailure : Failure.unwritable reason = failure := Except.error.inj hwritten
          rw [← hfailure]
          -- what a dependable registry gives has texts for names
          cases reason with
          | badName reason =>
              exact absurd hwrite (Manifest.write_of_merge hdependable.answers hmerge reason)
          | longNumber => exact .inr .number
          | noBytes reason => exact .inr (.text reason)

/-- The stage that generates is planned. -/
def generatePlan (selected : Bool) : Planned :=
  ⟨"generate", selected, fun _ asked => ∀ request ∈ asked, request.IsLookUp⟩

/-- Writes a project whose manifest is complete. -/
def writeStep (project : Project) (metadata : Source.Metadata) (manifest : Manifest)
    (text : String) : Run σ (Except Failure (Step Source.Metadata)) := do
  match ← onWorld (Act.files (writeProject project (generatedSource metadata) text)) with
  | .error error => return .error (writeFailure project error)
  | .ok written => return .ok {
      detail := generationDetail manifest written
      project := { project with
        manifest := some manifest
        manifestWritten := written
        status := .generated }
      value := metadata }

theorem notes_writeStep (pipeline : Pipeline σ) (project : Project) (metadata : Source.Metadata)
    (manifest : Manifest) (text : String) :
    Notes (Leaves fun result asked => asked = [] ∧
        Worked pipeline.Charged (generatePlan true) project result asked)
      (writeStep project metadata manifest text : Run σ _)
      (writeStep project metadata manifest text) := by
  refine notes_bind_of_quiet (notes_onWorld (Act.notes_files _)) fun written => ?_
  cases written with
  | error error =>
      exact notes_pure ⟨rfl, .of_error (fun _ h => absurd h List.not_mem_nil) fun _ => .inl rfl⟩
  | ok written =>
      exact notes_pure ⟨rfl, .of_ok (fun _ h => absurd h List.not_mem_nil) ⟨rfl, rfl⟩⟩

/-- Giving up asks for nothing, and ends with the failure or with one of writing. -/
theorem notes_giveUp (pipeline : Pipeline σ) (project : Project) (metadata : Source.Metadata)
    (failure : Failure) :
    Notes (Leaves fun result asked => asked = [] ∧ ∃ reason, result = .error reason ∧
        (reason = failure ∨ pipeline.Charged "generate" reason))
      (giveUp metadata project failure : Run σ _) (giveUp metadata project failure) := by
  unfold giveUp
  split
  · refine notes_bind_of_quiet (notes_onWorld (Act.notes_files _)) fun written => ?_
    cases written with
    | error error => exact notes_pure ⟨rfl, _, rfl, .inr fun _ => .inl rfl⟩
    | ok written => exact notes_pure ⟨rfl, _, rfl, .inl rfl⟩
  · exact notes_pure ⟨rfl, _, rfl, .inl rfl⟩

/-- Goes on from what came of the manifest. -/
def writeOrGiveUp (metadata : Source.Metadata) (project : Project) :
    Except Failure (Source.Metadata × Manifest × String) →
      Run σ (Except Failure (Step Source.Metadata))
  | .error failure => giveUp metadata project failure
  | .ok (metadata, manifest, text) => writeStep project metadata manifest text

theorem generateStep_eq (pipeline : Pipeline σ) (metadata : Source.Metadata) (project : Project) :
    pipeline.generateStep metadata project =
      onWorld (pipeline.resolveManifest metadata project) >>= writeOrGiveUp metadata project := rfl

/-- What is left to do asks for nothing. It fails with what failed before, or as generating does. -/
theorem notes_writeOrGiveUp (pipeline : Pipeline σ) (project : Project)
    (metadata : Source.Metadata)
    (resolved : Except Failure (Source.Metadata × Manifest × String)) :
    Notes (Leaves fun result asked => asked = [] ∧
        ((∀ failure, resolved = .error failure → pipeline.Charged "generate" failure) →
          Worked pipeline.Charged (generatePlan true) project result asked))
      (writeOrGiveUp metadata project resolved : Run σ _)
      (writeOrGiveUp metadata project resolved) := by
  cases resolved with
  | error failure =>
      refine (notes_giveUp pipeline project metadata failure).mono ?_
      rintro before result after asked ⟨hrecords, rfl, reason, rfl, hreason⟩
      refine ⟨hrecords, rfl, fun hcharged => .of_error (fun _ h => absurd h List.not_mem_nil) ?_⟩
      rcases hreason with rfl | hother
      · exact hcharged _ rfl
      · exact hother
  | ok resolved =>
      refine (notes_writeStep pipeline project resolved.1 resolved.2.1 resolved.2.2).mono ?_
      rintro before result after asked ⟨hrecords, rfl, hworked⟩
      exact ⟨hrecords, rfl, fun _ => hworked⟩

theorem notes_generateStep (pipeline : Pipeline σ) {metadata : Source.Metadata}
    (hfragment : SoundFragment metadata) (project : Project) :
    Notes (Leaves (Worked pipeline.Charged (generatePlan true) project))
      (pipeline.generateStep metadata project) (pipeline.noting.generateStep metadata project) := by
  rw [generateStep_eq, generateStep_eq]
  have hresolve : Notes (Leaves fun result asked => (∀ request ∈ asked, request.IsLookUp) ∧
      ∀ failure, result = .error failure → pipeline.Charged "generate" failure)
      (onWorld (pipeline.resolveManifest metadata project))
      (onWorld (pipeline.noting.resolveManifest metadata project)) :=
    notes_onWorld ((notes_resolveManifest pipeline metadata project).and fun world failure h =>
      charged_resolveManifest pipeline hfragment h)
  refine (notes_bind hresolve (notes_writeOrGiveUp pipeline project metadata)).mono ?_
  rintro before result after _ ⟨hrecords, resolved, asked, _, ⟨hasked, hcharged⟩, ⟨rfl, hworked⟩,
    rfl⟩
  rw [List.append_nil]
  exact ⟨hrecords, hasked, (hworked hcharged).blamed, (hworked hcharged).place⟩

/-- What a call has made once the project is generated. -/
def Outcome.generated (project : Project) (metadata : Source.Metadata) : Outcome :=
  ⟨project, some metadata, none, none⟩

theorem generateFrom_ok (pipeline : Pipeline σ) (stem : String) (source : Option Path)
    (metadata : Source.Metadata) :
    pipeline.generateFrom stem source (.ok metadata) = (do
      about stem
      let reached ← inStage "generate" (pipeline.newProject stem source)
        (pipeline.generateStep metadata (pipeline.newProject stem source))
      return reached.2.map (Outcome.generated reached.1)) := by
  funext tracker
  unfold generateFrom generate
  simp only [Frame.stateBind_apply]
  cases (inStage "generate" (pipeline.newProject stem source)
    (pipeline.generateStep metadata (pipeline.newProject stem source))
    (about stem tracker).2).1.2 <;> rfl

/-- **Generating** in a call. -/
theorem traces_generateFrom (pipeline : Pipeline σ) (stem : String) (source : Option Path)
    {metadata : Source.Metadata} (hfragment : SoundFragment metadata) :
    Notes (Traces pipeline.Charged [generatePlan true]
        (Outcome.IsAt (pipeline.newProject stem source)))
      (pipeline.generateFrom stem source (.ok metadata))
      (pipeline.noting.generateFrom stem source (.ok metadata)) := by
  rw [generateFrom_ok, generateFrom_ok]
  exact traces_inStage rfl (notes_generateStep pipeline hfragment _) Outcome.generated
    (fun _ _ h => h) _

/-! ## Analyzing -/

/-- The stage that analyzes is planned. -/
def analyzePlan : Planned := ⟨"analyze", true, fun _ asked => asked = []⟩

theorem notes_analyzeFile (pipeline : Pipeline σ) (path : Path) :
    Act.Notes Quiet (pipeline.analyzeFile path) (pipeline.noting.analyzeFile path) := by
  have hread : Act.Notes Quiet (readScript path : Act σ _) (readScript path) := by
    refine (Act.notes_readText path).bind_quiet fun content => ?_
    rcases content with (_ | _) | _ <;> exact mirrors_pure_quiet _
  exact hread.bind_quiet fun _ => mirrors_pure_quiet _

/-- A fragment that is read has been checked for its dependencies. -/
theorem declaredBy_of_fragment {text : String} {document : Toml.Table}
    (h : Manifest.fragment text = .ok document) :
    ∃ declared, Manifest.declaredBy (some text) = .ok declared := by
  have hchecked := h
  unfold Manifest.fragment at hchecked
  cases hdocument : Manifest.document text with
  | error cause =>
      rw [hdocument] at hchecked
      cases hchecked
  | ok table =>
      cases hdeclared : Manifest.declaredDependencies table with
      | error cause =>
          simp only [hdocument, hdeclared, bind, Except.bind] at hchecked
          cases hchecked
      | ok declared =>
          simp only [hdocument, hdeclared, bind, Except.bind, pure, Except.pure,
            Except.ok.injEq] at hchecked
          rw [hchecked] at hdeclared
          refine ⟨declared, ?_⟩
          show (Manifest.fragment text >>= Manifest.declaredDependencies) = _
          rw [h]
          exact hdeclared

theorem soundFragment_of_analyze {structural : Bool} {text : String} {metadata : Source.Metadata}
    (h : Source.analyze structural text = .ok metadata) : SoundFragment metadata := by
  obtain ⟨hfirst, rfl⟩ := Source.analyze_eq_ok_iff.mp h
  cases hblock : (Source.manifestBlocks (Source.stripShebang text).1).head? with
  | none =>
      refine ⟨[], ?_⟩
      rw [Source.findings, hblock]
      rfl
  | some block =>
      obtain ⟨document, hfragment⟩ := hfirst block hblock
      have hsound := declaredBy_of_fragment hfragment
      rwa [← hblock] at hsound

/-- An analysis fails as such, and its result has a sound fragment. -/
structure Analyzed (result : Except Failure Source.Metadata) : Prop where
  blamed : ∀ failure, result = .error failure → PutDown "analyze" failure
  sound : ∀ metadata, result = .ok metadata → SoundFragment metadata

theorem analyzed_analyzeText (pipeline : Pipeline σ) (text : String) :
    Analyzed (pipeline.analyzeText text) := by
  unfold analyzeText
  cases hanalyze : Source.analyze pipeline.structural text with
  | error cause =>
      refine ⟨fun failure h => ?_, nofun⟩
      rw [← Except.error.inj h]
      cases cause with
      | excessive excess => exact .inr (.fragment excess)
      | _ => exact .inl rfl
  | ok metadata =>
      refine ⟨nofun, fun other h => ?_⟩
      rw [← Except.ok.inj h]
      exact soundFragment_of_analyze hanalyze

theorem stage_of_readScript {path : Path} {world : World σ} {failure : Failure}
    (h : (readScript path world).1 = .error failure) : failure.stage? = some "analyze" := by
  unfold readScript at h
  rw [Frame.stateBind_apply] at h
  rcases hcontent : (Act.readText path world).1 with (error | offset) | text
  all_goals
    rw [hcontent] at h
    cases h
    try rfl

theorem analyzed_analyzeFile (pipeline : Pipeline σ) (path : Path) (world : World σ) :
    Analyzed (pipeline.analyzeFile path world).1 := by
  have happly : (pipeline.analyzeFile path world).1 =
      ((readScript path world).1 >>= pipeline.analyzeText) := rfl
  rw [happly]
  cases hscript : (readScript path world).1 with
  | error failure =>
      refine ⟨fun other h => ?_, nofun⟩
      rw [← Except.error.inj h]
      exact .inl (stage_of_readScript hscript)
  | ok text => exact analyzed_analyzeText pipeline text

/-- **Analyzing** in a call. -/
theorem traces_analyze (pipeline : Pipeline σ) (path : Path) :
    Notes (Traces pipeline.Charged [analyzePlan] SoundFragment) (pipeline.analyze path)
      (pipeline.noting.analyze path) := by
  have hbody : Notes (Leaves fun result asked => asked = [] ∧ Analyzed result)
      (onWorld (pipeline.analyzeFile path)) (onWorld (pipeline.noting.analyzeFile path)) :=
    notes_onWorld ((notes_analyzeFile pipeline path).and (analyzed_analyzeFile pipeline path))
  refine traces_stage rfl (notes_adds_of_quiet (notes_about path.stem) fun _ =>
    Mirrors.mono (notes_track mirrors_now "analyze" Failure.message fun place =>
      notes_detailed place analysisDetail hbody ?_ ?_) ?_)
  · exact fun _ => ⟨rfl, rfl⟩
  · exact fun _ => ⟨rfl, rfl⟩
  · rintro before result after asked ⟨record, hrecords, ended, hasked, hanalyzed⟩
    exact ⟨record, hrecords, ended, hasked, fun failure h _ => hanalyzed.blamed failure h,
      hanalyzed.sound⟩

/-! ## Calls -/

/-- What a call has before it: the project is generated from a script that has been analyzed, or
taken as it is. -/
def beginning (selection : Selection) : List Planned :=
  if selection.generate then [analyzePlan, generatePlan true] else [generatePlan false]

/-- The stages of a call. -/
def plan (pipeline : Pipeline σ) (stem : String) (source : Option Path) (selection : Selection)
    (args : List String) (capture : Bool) : List Planned :=
  beginning selection ++
    [commandPlan "build" selection.build
        (buildCall pipeline.settings (pipeline.newProject stem source)),
      commandPlan "run" selection.run
        (runCall pipeline.settings (pipeline.newProject stem source) args capture)]

theorem bind_generateFrom (pipeline : Pipeline σ) (stem : String) (source : Option Path)
    (analysis : Run σ (Except Failure Source.Metadata)) :
    analysis >>= pipeline.generateFrom stem source =
      proceed analysis fun metadata => pipeline.generateFrom stem source (.ok metadata) := by
  funext tracker
  rw [proceed_apply, Frame.stateBind_apply]
  cases (analysis tracker).1 <;> rfl

/-- A call that begins by generating from an analysis. -/
def generatingCall (pipeline : Pipeline σ) (analysis : Run σ (Except Failure Source.Metadata))
    (stem : String) (source : Option Path) (selection : Selection) (args : List String)
    (capture : Bool) : Run σ (Except Failure Outcome) := do
  pipeline.renew
  proceed (proceed analysis fun metadata => pipeline.generateFrom stem source (.ok metadata))
    (pipeline.buildAndRun selection args capture)

theorem runScript_of_generate (pipeline : Pipeline σ) (source : Path) {selection : Selection}
    (h : selection.generate = true) (args : List String) (capture : Bool) :
    pipeline.runScript source selection args capture =
      pipeline.generatingCall (pipeline.analyze source) source.stem (some source) selection args
        capture := by
  unfold generatingCall
  rw [← bind_generateFrom]
  funext tracker
  unfold runScript
  rw [if_pos h]
  simp only [Frame.stateBind_apply, proceed_apply]
  cases (pipeline.generateFrom source.stem (some source)
    (pipeline.analyze source (pipeline.renew tracker).2).1
    (pipeline.analyze source (pipeline.renew tracker).2).2).1 <;> rfl

theorem runScript_of_resume (pipeline : Pipeline σ) (source : Path) {selection : Selection}
    (h : selection.generate = false) (args : List String) (capture : Bool) :
    pipeline.runScript source selection args capture = (do
      pipeline.renew
      proceed (pipeline.resume source.stem (some source))
        (pipeline.buildAndRun selection args capture)) := by
  funext tracker
  unfold runScript
  rw [if_neg (by rw [h]; exact Bool.false_ne_true)]
  simp only [Frame.stateBind_apply, proceed_apply]
  cases (pipeline.resume source.stem (some source) (pipeline.renew tracker).2).1 <;> rfl

theorem buildAndRun_eq (pipeline : Pipeline σ) (selection : Selection) (args : List String)
    (capture : Bool) (outcome : Outcome) :
    pipeline.buildAndRun selection args capture outcome =
      proceed (pipeline.buildIf selection.build outcome)
        (pipeline.runIf selection.run args capture) := by
  funext tracker
  unfold buildAndRun
  rw [proceed_apply, Frame.stateBind_apply]
  cases (pipeline.buildIf selection.build outcome tracker).1 <;> rfl

theorem traces_buildAndRun (pipeline : Pipeline σ) (selection : Selection) (args : List String)
    (capture : Bool) {project : Project} {outcome : Outcome} (hplace : outcome.IsAt project) :
    Notes (Traces pipeline.Charged
        [commandPlan "build" selection.build (buildCall pipeline.settings project),
          commandPlan "run" selection.run (runCall pipeline.settings project args capture)]
        (Outcome.IsAt project))
      (pipeline.buildAndRun selection args capture outcome)
      (pipeline.noting.buildAndRun selection args capture outcome) := by
  rw [buildAndRun_eq, buildAndRun_eq]
  exact fun tracker before => traces_proceed (traces_buildIf pipeline hplace selection.build tracker
    before) fun _ hbuilt => traces_runIf pipeline hbuilt selection.run args capture

theorem listeners_noting (pipeline : Pipeline σ) :
    pipeline.noting.listeners =
      pipeline.listeners.map fun listener record => besideSession (listener record) := by
  obtain ⟨settings, resolver, runner, store, structural⟩ := pipeline
  cases store with
  | none => rfl
  | some store => exact congrArg (fun listener => [listener]) (funext (journal_beside store))

/-- A call begins without records, and the journal hears of the new ones. -/
theorem renew_keeping (pipeline : Pipeline σ) (tracker : Tracker (Session σ))
    (before : List Request) :
    pipeline.noting.renew (tracker.keeping before) =
      ((), (pipeline.renew tracker).2.keeping before) := by
  show ((), Tracker.mk [] pipeline.noting.listeners (tracker.state.keeping before)) = _
  rw [listeners_noting]
  rfl

/-- The run of a call can be told as episodes that go through a plan: `episodes` are its records with
the requests that the noting pipeline notes. -/
structure ToldBy (pipeline : Pipeline σ) (plan : List Planned) (call : Run σ (Except Failure α))
    (noting : Run (List Request × σ) (Except Failure α)) (tracker : Tracker (Session σ))
    (episodes : List Episode) : Prop where
  /-- Noting changes nothing, and notes the requests of the episodes in order. -/
  noted : noting (tracker.keeping []) =
    ((call tracker).1, (call tracker).2.keeping (episodes.flatMap Episode.requests))
  records : (call tracker).2.records = episodes.map Episode.record
  follows : Follows pipeline.Charged plan (failureOf (call tracker).1) episodes

/-- A call is its beginning and then building and running. -/
theorem toldBy_of_beginning (pipeline : Pipeline σ) {stem : String} {source : Option Path}
    {selection : Selection} (args : List String) (capture : Bool)
    {enter : Run σ (Except Failure Outcome)}
    {enter' : Run (List Request × σ) (Except Failure Outcome)} {tracker : Tracker (Session σ)}
    (henter : MirrorsAt Tracker.keeping (Traces pipeline.Charged (beginning selection)
        (Outcome.IsAt (pipeline.newProject stem source)))
      enter enter' (pipeline.renew tracker).2 []) :
    ∃ episodes, pipeline.ToldBy (pipeline.plan stem source selection args capture)
      (do pipeline.renew; proceed enter (pipeline.buildAndRun selection args capture))
      (do pipeline.noting.renew; proceed enter' (pipeline.noting.buildAndRun selection args capture))
      tracker episodes := by
  obtain ⟨_, hrun, episodes, hrecords, rfl, hfollows, -⟩ := traces_proceed henter
    fun outcome hplace => traces_buildAndRun pipeline selection args capture hplace
  refine ⟨episodes, ?_, hrecords, hfollows⟩
  rw [Frame.stateBind_apply, Frame.stateBind_apply, renew_keeping]
  exact hrun

theorem toldBy_generatingCall (pipeline : Pipeline σ) (stem : String) (source : Option Path)
    {selection : Selection} (hselected : selection.generate = true) (args : List String)
    (capture : Bool) {analysis : Run σ (Except Failure Source.Metadata)}
    {analysis' : Run (List Request × σ) (Except Failure Source.Metadata)}
    (hanalysis : Notes (Traces pipeline.Charged [analyzePlan] SoundFragment) analysis analysis')
    (tracker : Tracker (Session σ)) :
    ∃ episodes, pipeline.ToldBy (pipeline.plan stem source selection args capture)
      (pipeline.generatingCall analysis stem source selection args capture)
      (pipeline.noting.generatingCall analysis' stem source selection args capture)
      tracker episodes := by
  refine toldBy_of_beginning pipeline args capture ?_
  unfold beginning
  rw [if_pos hselected]
  exact traces_proceed (hanalysis _ _) fun metadata hfragment =>
    traces_generateFrom pipeline _ _ hfragment

/-- The episode is one of a planned stage. -/
structure Fits (planned : Planned) (episode : Episode) : Prop where
  stage : episode.record.stage = planned.stage
  skipped : episode.record.status = .skipped ↔ planned.selected = false
  /-- A stage that is skipped asks for nothing. -/
  silent : planned.selected = false → episode.requests = []
  allowed : planned.selected = true → planned.allows episode.record.status episode.requests

/-- The episodes go through the stages of the plan and stop at the first failure. -/
structure FailStop (plan : List Planned) (failure : Option Failure) (episodes : List Episode) :
    Prop where
  /-- The stages were reached in the order of the plan. -/
  fits : List.Forall₂ Fits (plan.take episodes.length) episodes
  /-- Without a failure all stages were reached. -/
  whole : failure = none → episodes.length = plan.length
  /-- Every stage before the last one that was reached has completed or was skipped. -/
  before : ∀ episode ∈ episodes.dropLast,
    episode.record.status = .completed ∨ episode.record.status = .skipped
  /-- The last one failed exactly if the call did. -/
  last : (∃ last, episodes.getLast? = some last ∧ last.record.status = .failed) ↔
    failure.isSome = true
  /-- The failure of the call is put down to the last stage. -/
  charged : ∀ reason, failure = some reason → ∃ last, episodes.getLast? = some last ∧
    PutDown last.record.stage reason ∧ last.record.error = some reason.message

/-- A stage that did not fail can stand in front of others. -/
theorem FailStop.cons {planned : Planned} {plan : List Planned} {failure : Option Failure}
    {episode : Episode} {episodes : List Episode} (h : FailStop plan failure episodes)
    (hfits : Fits planned episode)
    (hpassed : episode.record.status = .completed ∨ episode.record.status = .skipped) :
    FailStop (planned :: plan) failure (episode :: episodes) := by
  have hnot : episode.record.status ≠ .failed := by
    rcases hpassed with h | h <;> rw [h] <;> decide
  cases episodes with
  | nil =>
      have hnone : failure = none := by
        have hlast := h.last
        simpa using hlast
      refine ⟨.cons hfits h.fits, fun hno => congrArg (· + 1) (h.whole hno),
        fun _ hmem => absurd hmem List.not_mem_nil, ?_, ?_⟩
      · simp [hnone, hnot]
      · rw [hnone]
        exact nofun
  | cons next others =>
      refine ⟨.cons hfits h.fits, fun hno => congrArg (· + 1) (h.whole hno), ?_, h.last,
        h.charged⟩
      exact List.forall_mem_cons.mpr ⟨hpassed, h.before⟩

/-- A pipeline in which every command succeeds and some crates are known. -/
def rehearsed (versions : List (String × String)) : Pipeline Rehearsal.Trace :=
  ⟨Settings.standard (Path.ofString "build"), Rehearsal.fixedResolver versions,
    Rehearsal.Cast.runner { Rehearsal.Cast.plain with search := some .echoes }, none, true⟩

end RustScript.Pipeline
