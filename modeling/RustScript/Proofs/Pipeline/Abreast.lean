import RustScript.Proofs.Files.Near
import RustScript.Proofs.Pipeline.Handover
import RustScript.Proofs.Pipeline.Timeless

/-!
# Two pipelines abreast

Two pipelines work in worlds of their own that are near each other in some sense. If their resolvers
answer alike there, if notes and outputs leave the worlds near (`Company`), and if a project is found,
written, built and run alike (`Serves`), then the pipelines stay abreast: their records are the same
apart from the times, and so is what each stage makes (`abreast_inStage`), and each call
(`abreast_call`).
-/

set_option autoImplicit false

namespace RustScript

/-! ## Actions in near worlds -/

section

variable {ω α β : Type} {rel : ω → ω → Prop}

theorem relates_get : Relates rel rel (get : StateM ω ω) get := fun _ _ h => ⟨h, h⟩

/-- What is known of every result of the first action is known besides. -/
theorem Relates.and_left {gives : α → β → Prop} {action : StateM ω α} {other : StateM ω β}
    (h : Relates rel gives action other) {holds : α → Prop}
    (hholds : ∀ state, holds (action state).1) :
    Relates rel (fun value value' => gives value value' ∧ holds value) action other :=
  fun state state' hrel => ⟨⟨(h state state' hrel).1, hholds state⟩, (h state state' hrel).2⟩

/-- Started in related states of which the first one has a property, the two actions give related
results and leave related states. -/
def RelatesWhere (holds : ω → Prop) (rel : ω → ω → Prop) (gives : α → β → Prop)
    (action : StateM ω α) (other : StateM ω β) : Prop :=
  ∀ state state', rel state state' → holds state →
    gives (action state).1 (other state').1 ∧ rel (action state).2 (other state').2

theorem Relates.restrict {gives : α → β → Prop} {action : StateM ω α} {other : StateM ω β}
    (h : Relates rel gives action other) (holds : ω → Prop) :
    RelatesWhere holds rel gives action other := fun _ _ hrel _ => h _ _ hrel

end

namespace Pipeline

open RustScript.Progress

variable {σ α β γ δ : Type}

/-! ## Company -/

/-- The world once a record has been noted for the script `stem`. -/
def noted (pipeline : Pipeline σ) (stem : String) (record : Record) (world : World σ) : World σ :=
  if stem.isEmpty then world
  else pipeline.store.elim world fun store => (store.append stem (note record) world).2

/-- The world once the output of a stage has been kept. -/
def kept (pipeline : Pipeline σ) (stem stage : String) (output : Command.Output) (world : World σ) :
    World σ :=
  pipeline.store.elim world fun store => (store.save stem stage output world).2

/-- Notes about scripts that are `heard` of, outputs and look-ups leave the worlds of two pipelines
near, and the look-ups give the same. -/
structure Company (pipeline other : Pipeline σ) (near : World σ → World σ → Prop)
    (heard : String → Prop) : Prop where
  settings : other.settings = pipeline.settings
  structural : other.structural = pipeline.structural
  now : ∀ world world', near world world' → near (Act.now world).2 (Act.now world').2
  note : ∀ stem, heard stem → ∀ record record' : Record, record.timeless = record'.timeless →
    ∀ world world', near world world' →
      near (pipeline.noted stem record world) (other.noted stem record' world')
  keep : ∀ stem, heard stem → ∀ stage ∈ commandStages, ∀ output world world', near world world' →
    near (pipeline.kept stem stage output world) (other.kept stem stage output world')
  resolve : ∀ name,
    Relates near Eq (pipeline.resolver.resolve name) (other.resolver.resolve name)

/-- A project is found, written, built and run alike in near worlds. -/
structure Serves (pipeline other : Pipeline σ) (near : World σ → World σ → Prop)
    (project : Project) : Prop where
  manifest : ∀ world world', near world world' →
    world'.files.find? project.manifestPath = world.files.find? project.manifestPath
  target : ∀ world world', near world world' →
    world'.files.exists project.targetPath = world.files.exists project.targetPath
  write : ∀ source manifest, Relates near Eq (Act.files (writeProject project source manifest))
    (Act.files (writeProject project source manifest))
  rest : ∀ source, Relates near Eq (Act.files (writeRest project source))
    (Act.files (writeRest project source))
  /-- What has a manifest is built alike. -/
  build : RelatesWhere (·.files.exists project.manifestPath = true) near Eq
    (pipeline.runner (buildCall pipeline.settings project))
    (other.runner (buildCall pipeline.settings project))
  /-- What has been built is run alike. -/
  run : ∀ args capture, RelatesWhere (·.files.exists project.targetPath = true) near Eq
    (pipeline.runner (runCall pipeline.settings project args capture))
    (other.runner (runCall pipeline.settings project args capture))

theorem Serves.of_sharesPlace {pipeline other : Pipeline σ} {near : World σ → World σ → Prop}
    {project later : Project} (h : Serves pipeline other near project)
    (hplace : later.SharesPlace project) : Serves pipeline other near later := by
  obtain ⟨hdirectory, hstem⟩ := hplace
  cases project
  cases later
  dsimp only at hdirectory hstem
  subst hdirectory hstem
  exact ⟨h.manifest, h.target, h.write, h.rest, h.build, h.run⟩

/-- Two runs that have come equally far: what they know is the same apart from the times, and the
notes of both are about the same script. -/
structure Abreast (pipeline other : Pipeline σ) (near : World σ → World σ → Prop)
    (heard : String → Prop) (first second : Tracker (Session σ)) : Prop where
  records : first.records.map Record.timeless = second.records.map Record.timeless
  listeners : first.listeners = pipeline.listeners
  listeners' : second.listeners = other.listeners
  subject : second.state.subject = first.state.subject
  heard : ∀ stem ∈ first.state.subject, heard stem
  near : near first.state.world second.state.world

/-- What listeners that are told of a record make of the session. -/
theorem tellAll_listeners (pipeline : Pipeline σ) (record : Record) (session : Session σ) :
    (tellAll record pipeline.listeners session).2 = session.subject.elim session fun stem =>
      { session with world := pipeline.noted stem record session.world } := by
  obtain ⟨world, subject⟩ := session
  unfold listeners noted
  cases pipeline.store with
  | none =>
      cases subject with
      | none => rfl
      | some stem =>
          show Session.mk world (some stem) = ⟨if stem.isEmpty then world else world, some stem⟩
          rw [ite_self]
  | some store =>
      show (journal store record ⟨world, subject⟩).2 = _
      rw [journal_apply]
      cases subject with
      | none => rfl
      | some stem =>
          dsimp only [Option.elim]
          split <;> rfl

section

variable {pipeline other : Pipeline σ} {near : World σ → World σ → Prop} {heard : String → Prop}

theorem abreast_onWorld {gives : α → β → Prop} {action : Act σ α} {action' : Act σ β}
    (h : Relates near gives action action') :
    Relates (Abreast pipeline other near heard) gives (onWorld action) (onWorld action') := by
  intro first second habreast
  obtain ⟨hresult, hworld⟩ := h _ _ habreast.near
  exact ⟨hresult, habreast.records, habreast.listeners, habreast.listeners', habreast.subject,
    habreast.heard, hworld⟩

theorem abreast_about {stem : String} (hstem : heard stem) :
    Relates (Abreast pipeline other near heard) Eq (about stem : Run σ Unit) (about stem) :=
  fun _ _ h => ⟨rfl, h.records, h.listeners, h.listeners', rfl,
    fun _ hsubject => Option.some.inj hsubject ▸ hstem, h.near⟩

theorem abreast_amend {change change' : Record → Record}
    (hchange : ∀ record record', record.timeless = record'.timeless →
      (change record).timeless = (change' record').timeless) (place : Nat) :
    Relates (Abreast pipeline other near heard) Eq (amend place change : Run σ Unit)
      (amend place change') := fun _ _ h =>
  ⟨rfl, timeless_modify hchange h.records place, h.listeners, h.listeners', h.subject, h.heard,
    h.near⟩

variable (company : Company pipeline other near heard)

include company

theorem abreast_now :
    Relates (Abreast pipeline other near heard) (fun _ _ => True) (onState now : Run σ Binary64)
      (onState now) := fun _ _ h =>
  ⟨trivial, h.records, h.listeners, h.listeners', h.subject, h.heard, company.now _ _ h.near⟩

/-- Both runs tell of a record. -/
theorem abreast_tell {record record' : Record} (hrecord : record.timeless = record'.timeless) :
    Relates (Abreast pipeline other near heard) Eq (tell record : Run σ Unit) (tell record') := by
  rintro ⟨records, _, world, _⟩ ⟨records', _, world', subject⟩
    ⟨hrecords, rfl, rfl, hsubject, hheard, hnear⟩
  obtain rfl : subject = _ := hsubject
  refine ⟨rfl, ?_⟩
  change Abreast pipeline other near heard
    ⟨records, pipeline.listeners, (tellAll record pipeline.listeners ⟨world, subject⟩).2⟩
    ⟨records', other.listeners, (tellAll record' other.listeners ⟨world', subject⟩).2⟩
  rw [tellAll_listeners, tellAll_listeners]
  cases subject with
  | none => exact ⟨hrecords, rfl, rfl, rfl, hheard, hnear⟩
  | some stem =>
      exact ⟨hrecords, rfl, rfl, rfl, hheard,
        company.note stem (hheard stem rfl) record record' hrecord _ _ hnear⟩

theorem abreast_start {record record' : Record} (hrecord : record.timeless = record'.timeless) :
    Relates (Abreast pipeline other near heard) Eq (start record : Run σ Nat) (start record') := by
  intro first second h
  have hlength : first.records.length = second.records.length := by
    have hlength := congrArg List.length h.records
    rwa [List.length_map, List.length_map] at hlength
  have hadded : Abreast pipeline other near heard
      { first with records := first.records ++ [record] }
      { second with records := second.records ++ [record'] } := by
    refine ⟨?_, h.listeners, h.listeners', h.subject, h.heard, h.near⟩
    rw [List.map_append, List.map_append, h.records, List.map_singleton, List.map_singleton,
      hrecord]
  exact ⟨hlength, (abreast_tell company hrecord _ _ hadded).2⟩

/-- Both runs note that a stage is left out. -/
theorem abreast_skip (stage reason : String) :
    Relates (Abreast pipeline other near heard) Eq (skip stage reason : Run σ Unit)
      (skip stage reason) :=
  (abreast_start company rfl).bind fun _ _ _ => relates_pure rfl

theorem abreast_finish (place : Nat) (error : Option String) :
    Relates (Abreast pipeline other near heard) Eq (finish now place error : Run σ Unit)
      (finish now place error) := by
  refine (abreast_now company).bind fun reading reading' _ => ?_
  refine (abreast_amend (fun record record' hrecord =>
    Record.timeless_finish hrecord reading reading' error) place).bind fun _ _ _ => ?_
  refine relates_get.bind fun first second h => ?_
  have hplace : first.records[place]?.map Record.timeless =
      second.records[place]?.map Record.timeless := by
    rw [← List.getElem?_map, ← List.getElem?_map, h.records]
  cases hfirst : first.records[place]? with
  | none =>
      cases hsecond : second.records[place]? with
      | none => exact relates_pure rfl
      | some record =>
          rw [hfirst, hsecond] at hplace
          cases hplace
  | some record =>
      cases hsecond : second.records[place]? with
      | none =>
          rw [hfirst, hsecond] at hplace
          cases hplace
      | some record' =>
          rw [hfirst, hsecond] at hplace
          exact abreast_tell company (Option.some.inj hplace)

/-! ## Stages -/

/-- **A tracked stage** comes to the same if its body does. -/
theorem abreast_track (stage : String) {f : α → β} {body body' : Nat → Run σ (Except Failure α)}
    (hbody : ∀ place, Relates (Abreast pipeline other near heard)
      (fun result result' => result.map f = result'.map f) (body place) (body' place)) :
    Relates (Abreast pipeline other near heard)
      (fun result result' => result.map f = result'.map f)
      (track now stage Failure.message body) (track now stage Failure.message body') := by
  refine (abreast_now company).bind fun reading reading' _ => ?_
  have hbegin : (Record.begin stage reading).timeless = (Record.begin stage reading').timeless := rfl
  refine (abreast_start company hbegin).bind fun place _ hplace => ?_
  subst hplace
  refine (hbody place).bind fun result result' hresult => ?_
  rcases cases_of_map_eq hresult with ⟨failure, rfl, rfl⟩ | ⟨value, value', rfl, rfl, -⟩
  · exact (abreast_finish company place _).bind fun _ _ _ => relates_pure hresult
  · exact (abreast_finish company place _).bind fun _ _ _ => relates_pure hresult

omit company in
/-- The detail that a stage gives when it succeeds is all that its body changes in the records. -/
theorem abreast_detailed (place : Nat) (detail : α → String) {f : α → β}
    (hdetail : ∀ value value', f value = f value' → detail value = detail value')
    {body body' : Run σ (Except Failure α)}
    (hbody : Relates (Abreast pipeline other near heard)
      (fun result result' => result.map f = result'.map f) body body')
    {next next' : Except Failure α → Run σ (Except Failure α)}
    (herror : ∀ failure, next (.error failure) = pure (.error failure) ∧
      next' (.error failure) = pure (.error failure))
    (hok : ∀ value, next (.ok value) = (do setDetail place (detail value); return .ok value) ∧
      next' (.ok value) = (do setDetail place (detail value); return .ok value)) :
    Relates (Abreast pipeline other near heard)
      (fun result result' => result.map f = result'.map f) (body >>= next) (body' >>= next') := by
  refine hbody.bind fun result result' hresult => ?_
  rcases cases_of_map_eq hresult with ⟨failure, rfl, rfl⟩ | ⟨value, value', rfl, rfl, hvalue⟩
  · rw [(herror failure).1, (herror failure).2]
    exact relates_pure hresult
  · rw [(hok value).1, (hok value').2, ← hdetail value value' hvalue]
    exact (abreast_amend (fun _ _ hrecord => Record.timeless_detail hrecord _) place).bind
      fun _ _ _ => relates_pure hresult

/-- **A stage on a project** comes to the same if its body does. -/
theorem abreast_inStage (stage : String) {project project' : Project}
    (hproject : project.timeless = project'.timeless) {body body' : Run σ (Except Failure (Step α))}
    (hbody : Relates (Abreast pipeline other near heard)
      (fun result result' => result.map Step.timeless = result'.map Step.timeless) body body') :
    Relates (Abreast pipeline other near heard)
      (fun reached reached' => reached.1.timeless = reached'.1.timeless ∧ reached.2 = reached'.2)
      (inStage stage project body) (inStage stage project' body') := by
  have hrecorded : Relates (Abreast pipeline other near heard)
      (fun result result' => result.map Step.timeless = result'.map Step.timeless)
      (recorded stage body) (recorded stage body') := by
    refine abreast_track company stage fun place => ?_
    refine abreast_detailed place Step.detail ?_ hbody ?_ ?_
    · exact fun step step' hstep => (Step.mk.inj hstep).1
    · exact fun _ => ⟨rfl, rfl⟩
    · exact fun _ => ⟨rfl, rfl⟩
  intro first second h
  have hlength : first.records.length = second.records.length := by
    have hlength := congrArg List.length h.records
    rwa [List.length_map, List.length_map] at hlength
  obtain ⟨hresult, hafter⟩ := hrecorded first second h
  rw [inStage_apply, inStage_apply, ← hlength]
  exact ⟨timeless_conclude stage hproject (timed_elapsed_getElem? hafter.records _) hresult, hafter⟩

/-! ### Stages that call a command -/

/-- Both runs keep an output. -/
theorem abreast_keepOutput {stem : String} (hstem : heard stem) {stage : String}
    (hstage : stage ∈ commandStages) (output : Command.Output) {first second : Tracker (Session σ)}
    (h : Abreast pipeline other near heard first second) :
    Abreast pipeline other near heard (pipeline.keepOutput stem stage output first).2
      (other.keepOutput stem stage output second).2 := by
  have hkept : ∀ (pipeline : Pipeline σ) (tracker : Tracker (Session σ)),
      (pipeline.keepOutput stem stage output tracker).2 =
        inWorld tracker (pipeline.kept stem stage output tracker.state.world) := by
    intro pipeline tracker
    unfold keepOutput kept
    cases pipeline.store <;> rfl
  rw [hkept, hkept]
  exact ⟨h.records, h.listeners, h.listeners', h.subject, h.heard,
    company.keep stem hstem stage hstage output _ _ h.near⟩

theorem abreast_commandStep {stem : String} (hstem : heard stem) {stage : String}
    (hstage : stage ∈ commandStages) {needed : Path}
    (hneeded : ∀ world world', near world world' →
      world'.files.exists needed = world.files.exists needed)
    (missing : Failure) {call : Command.Call}
    (hcall : RelatesWhere (·.files.exists needed = true) near Eq (pipeline.runner call)
      (other.runner call))
    (fault : Command.Fault → Failure) (failed : Command.Output → Failure)
    {done done' : Command.Output → Step Command.Output}
    (hdone : ∀ output, (done output).timeless = (done' output).timeless) :
    Relates (Abreast pipeline other near heard)
      (fun result result' => result.map Step.timeless = result'.map Step.timeless)
      (pipeline.commandStep stem stage needed missing call fault failed done)
      (other.commandStep stem stage needed missing call fault failed done') := by
  intro first second h
  rw [commandStep_apply, commandStep_apply, hneeded _ _ h.near]
  cases hexists : first.state.world.files.exists needed with
  | false => exact ⟨rfl, h⟩
  | true =>
      obtain ⟨hanswer, hworld⟩ := hcall _ _ h.near hexists
      rw [if_pos rfl, if_pos rfl]
      -- both answers are taken apart at once, so that they can be found to be the same
      revert hanswer hworld
      rcases pipeline.runner call first.state.world with ⟨answer, world⟩
      rcases other.runner call second.state.world with ⟨answer', world'⟩
      rintro (rfl : answer = answer') hworld
      have hran : Abreast pipeline other near heard (inWorld first world) (inWorld second world') :=
        ⟨h.records, h.listeners, h.listeners', h.subject, h.heard, hworld⟩
      cases answer with
      | error problem => exact ⟨rfl, hran⟩
      | ok output =>
          refine ⟨?_, abreast_keepOutput company hstem hstage output hran⟩
          dsimp only
          cases output.ok with
          | false => rfl
          | true => exact congrArg Except.ok (hdone output)

section

variable {project project' : Project} (hproject : project.timeless = project'.timeless)
  (hstem : heard project.stem) (hserves : Serves pipeline other near project)

include hproject hstem hserves

/-- **Building** comes to the same. -/
theorem abreast_build :
    Relates (Abreast pipeline other near heard)
      (fun reached reached' => reached.1.timeless = reached'.1.timeless ∧
        reached.2.map StageOutput.timeless = reached'.2.map StageOutput.timeless)
      (pipeline.build project) (other.build project') := by
  have hscript := Project.sharesScript_of_timeless hproject
  have hbody : Relates (Abreast pipeline other near heard)
      (fun result result' => result.map Step.timeless = result'.map Step.timeless)
      (pipeline.buildStep project) (other.buildStep project') := by
    rw [buildStep_eq, buildStep_congr other hscript, company.settings]
    refine abreast_commandStep company hstem (by decide) ?_ _ hserves.build _ _ fun output => ?_
    · intro world world' hnear
      unfold FileSystem.exists
      rw [hserves.manifest world world' hnear]
    · show Step.mk _ { project.timeless with status := .built } _ = _
      rw [hproject]
      rfl
  unfold build
  rw [hscript.stem]
  refine (abreast_about hstem).bind fun _ _ _ => ?_
  refine (abreast_inStage company "build" hproject hbody).bind fun reached reached' h => ?_
  obtain ⟨project, result⟩ := reached
  obtain ⟨project', result'⟩ := reached'
  obtain ⟨hreached : project.timeless = project'.timeless, rfl⟩ := h
  refine relates_pure ⟨hreached, ?_⟩
  cases result with
  | error failure => rfl
  | ok output =>
      exact congrArg Except.ok (StageOutput.timeless_ofCommand "build" hreached output)

/-- **Running** comes to the same. -/
theorem abreast_run (args : List String) (capture : Bool) :
    Relates (Abreast pipeline other near heard)
      (fun reached reached' => reached.1.timeless = reached'.1.timeless ∧
        reached.2.map StageOutput.timeless = reached'.2.map StageOutput.timeless)
      (pipeline.run project args capture) (other.run project' args capture) := by
  have hscript := Project.sharesScript_of_timeless hproject
  have hbody : Relates (Abreast pipeline other near heard)
      (fun result result' => result.map Step.timeless = result'.map Step.timeless)
      (pipeline.runStep project args capture) (other.runStep project' args capture) := by
    rw [runStep_eq, runStep_congr other hscript, company.settings]
    refine abreast_commandStep company hstem (by decide) hserves.target _ (hserves.run args capture) _ _
      fun output => ?_
    show Step.mk _ { project.timeless with status := .ran } _ = _
    rw [hproject]
    rfl
  unfold run
  rw [hscript.stem]
  refine (abreast_about hstem).bind fun _ _ _ => ?_
  refine (abreast_inStage company "run" hproject hbody).bind fun reached reached' h => ?_
  obtain ⟨project, result⟩ := reached
  obtain ⟨project', result'⟩ := reached'
  obtain ⟨hreached : project.timeless = project'.timeless, rfl⟩ := h
  refine relates_pure ⟨hreached, ?_⟩
  cases result with
  | error failure => rfl
  | ok output =>
      exact congrArg Except.ok (StageOutput.timeless_ofCommand "run" hreached output)

end

/-! ### Generating and analyzing -/

theorem relates_lookUpAll (names : List String) :
    Relates near Eq (Manifest.lookUpAll pipeline.resolver names)
      (Manifest.lookUpAll other.resolver names) := by
  induction names with
  | nil => exact relates_pure rfl
  | cons name rest ih =>
      refine (company.resolve name).bind fun answer _ hanswer => ?_
      subst hanswer
      cases Manifest.readAnswer answer with
      | error error => exact relates_pure rfl
      | ok given =>
          refine ih.bind fun answers _ hanswers => relates_pure ?_
          rw [hanswers]

theorem relates_resolveManifest (metadata : Source.Metadata) (project : Project) :
    Relates near Eq (pipeline.resolveManifest metadata project)
      (other.resolveManifest metadata project) := by
  have hmerge : Relates near Eq
      (Manifest.merge pipeline.resolver pipeline.settings.packageVersion pipeline.settings.edition
        metadata project.stem project.generatedSourcePath)
      (Manifest.merge other.resolver other.settings.packageVersion other.settings.edition metadata
        project.stem project.generatedSourcePath) := by
    rw [company.settings]
    unfold Manifest.merge
    split
    · exact relates_pure rfl
    · dsimp only
      split
      · exact relates_pure rfl
      · refine (relates_lookUpAll company _).bind fun answers _ hanswers => relates_pure ?_
        rw [hanswers]
  refine hmerge.bind fun merged _ hmerged => relates_pure ?_
  rw [hmerged]

theorem abreast_generateStep (metadata : Source.Metadata) {project : Project}
    (hwrite : ∀ source manifest, Relates near Eq (Act.files (writeProject project source manifest))
      (Act.files (writeProject project source manifest)))
    (hrest : ∀ source, Relates near Eq (Act.files (writeRest project source))
      (Act.files (writeRest project source))) :
    Relates (Abreast pipeline other near heard)
      (fun result result' => result.map Step.timeless = result'.map Step.timeless)
      (pipeline.generateStep metadata project) (other.generateStep metadata project) := by
  rw [generateStep_eq, generateStep_eq]
  refine (abreast_onWorld (relates_resolveManifest company metadata project)).bind
    fun resolved _ hresolved => ?_
  subst hresolved
  rcases resolved with failure | ⟨metadata, manifest, text⟩
  · unfold writeOrGiveUp giveUp
    dsimp only
    split
    · refine (abreast_onWorld (hrest _)).bind fun written _ hwritten => ?_
      subst hwritten
      cases written <;> exact relates_pure rfl
    · exact relates_pure rfl
  · refine (abreast_onWorld (hwrite _ _)).bind fun written _ hwritten => ?_
    subst hwritten
    cases written <;> exact relates_pure rfl

/-- **Generating** comes to the same. -/
theorem abreast_generate (metadata : Source.Metadata) {stem : String} (source : Option Path)
    (hstem : heard stem) (hserves : Serves pipeline other near (pipeline.newProject stem source)) :
    Relates (Abreast pipeline other near heard)
      (fun result result' =>
        result.map (fun generated => (generated.1.timeless, generated.2)) =
          result'.map fun generated => (generated.1.timeless, generated.2))
      (pipeline.generate metadata stem source) (other.generate metadata stem source) := by
  have hproject : other.newProject stem source = pipeline.newProject stem source := by
    unfold newProject
    rw [company.settings]
  unfold generate
  rw [hproject]
  refine (abreast_about hstem).bind fun _ _ _ => ?_
  refine (abreast_inStage company "generate" rfl
    (abreast_generateStep company metadata hserves.write hserves.rest)).bind fun reached reached' h => ?_
  obtain ⟨project, result⟩ := reached
  obtain ⟨project', result'⟩ := reached'
  obtain ⟨hreached : project.timeless = project'.timeless, rfl⟩ := h
  refine relates_pure ?_
  cases result with
  | error failure => rfl
  | ok noted => exact congrArg (fun project => Except.ok (project, noted)) hreached

/-- **Taking up a project** comes to the same. -/
theorem relates_existingProject {stem : String} {source : Option Path}
    (hserves : Serves pipeline other near (pipeline.newProject stem source)) :
    Relates near Eq (pipeline.existingProject stem source) (other.existingProject stem source) := by
  have hproject : other.newProject stem source = pipeline.newProject stem source := by
    unfold newProject
    rw [company.settings]
  have hfound : other.foundProject stem source = pipeline.foundProject stem source := by
    funext node
    unfold foundProject leftProject
    rw [hproject]
  intro world world' hnear
  rw [existingProject_apply, existingProject_apply, hproject, hfound,
    hserves.manifest world world' hnear]
  exact ⟨rfl, hnear⟩

/-- **Analyzing** comes to the same for a script that reads the same. -/
theorem abreast_analyze {path : Path} (hstem : heard path.stem)
    (hread : Relates near Eq (Act.readText path) (Act.readText path)) :
    Relates (Abreast pipeline other near heard) Eq (pipeline.analyze path) (other.analyze path) := by
  have hfile : Relates near Eq (pipeline.analyzeFile path) (other.analyzeFile path) := by
    refine (hread.bind fun content _ hcontent => ?_ :
      Relates near Eq (readScript path) (readScript path)).bind fun text _ htext => ?_
    · subst hcontent
      rcases content with (_ | _) | _ <;> exact relates_pure rfl
    · subst htext
      refine relates_pure ?_
      unfold analyzeText
      rw [company.structural]
  have hstage : Relates (Abreast pipeline other near heard)
      (fun result result' => result.map id = result'.map id)
      (track now "analyze" Failure.message (pipeline.analyzeStep path))
      (track now "analyze" Failure.message (other.analyzeStep path)) := by
    refine abreast_track company "analyze" fun place => ?_
    refine abreast_detailed place analysisDetail (fun _ _ hvalue => congrArg _ hvalue)
      ((abreast_onWorld hfile).mono fun _ _ hresult => congrArg _ hresult) ?_ ?_
    · exact fun _ => ⟨rfl, rfl⟩
    · exact fun _ => ⟨rfl, rfl⟩
  refine (abreast_about hstem).bind fun _ _ _ => hstage.mono fun result result' hresult => ?_
  rwa [Except.map_id] at hresult

theorem abreast_textAnalysis (hstem : heard textStem) (text : String) :
    Relates (Abreast pipeline other near heard) Eq (pipeline.textAnalysis text)
      (other.textAnalysis text) := by
  have hsame : other.analyzeText text = pipeline.analyzeText text := by
    unfold analyzeText
    rw [company.structural]
  have hstage : Relates (Abreast pipeline other near heard)
      (fun result result' => result.map id = result'.map id)
      (track now "analyze" Failure.message fun _ => pure (pipeline.analyzeText text))
      (track now "analyze" Failure.message fun _ => pure (other.analyzeText text)) := by
    rw [hsame]
    exact abreast_track company "analyze" fun _ => relates_pure rfl
  refine (abreast_about hstem).bind fun _ _ _ => hstage.mono fun result result' hresult => ?_
  rwa [Except.map_id] at hresult

/-! ## Calls -/

omit company in
/-- **Going on** comes to the same, with what is known of every value besides. -/
theorem abreast_proceed {f : α → γ} {holds : α → Prop}
    {gives : Except Failure β → Except Failure β → Prop}
    (hfailed : ∀ failure, gives (.error failure) (.error failure))
    {action action' : Run σ (Except Failure α)} {next next' : α → Run σ (Except Failure β)}
    (haction : Relates (Abreast pipeline other near heard)
      (fun result result' => result.map f = result'.map f ∧
        ∀ value, result = .ok value → holds value) action action')
    (hnext : ∀ value value', f value = f value' → holds value →
      Relates (Abreast pipeline other near heard) gives (next value) (next' value')) :
    Relates (Abreast pipeline other near heard) gives (proceed action next)
      (proceed action' next') := by
  refine haction.bind fun result result' ⟨hresult, hholds⟩ => ?_
  rcases cases_of_map_eq hresult with ⟨failure, rfl, rfl⟩ | ⟨value, value', rfl, rfl, hvalue⟩
  · exact relates_pure (hfailed failure)
  · exact hnext value value' hvalue (hholds value rfl)

section

variable {outcome outcome' : Outcome} (houtcome : outcome.timeless = outcome'.timeless)
  (hstem : heard outcome.project.stem) (hserves : Serves pipeline other near outcome.project)

include houtcome hstem hserves

/-- Building, if that is selected, comes to the same and leaves the project in its place. -/
theorem abreast_buildIf (selected : Bool) :
    Relates (Abreast pipeline other near heard)
      (fun result result' => result.map Outcome.timeless = result'.map Outcome.timeless ∧
        ∀ made, result = .ok made → made.project.SharesPlace outcome.project)
      (pipeline.buildIf selected outcome) (other.buildIf selected outcome') := by
  obtain ⟨hproject, hmetadata, -, hran⟩ := Outcome.mk.inj houtcome
  cases selected with
  | false =>
      refine (abreast_skip company "build" notRequested).bind fun _ _ _ => relates_pure ?_
      refine ⟨congrArg Except.ok houtcome, fun made hmade => ?_⟩
      rw [← Except.ok.inj hmade]
      exact ⟨rfl, rfl⟩
  | true =>
      have hbuilds : Relates (Abreast pipeline other near heard)
          (fun reached reached' => (reached.1.timeless = reached'.1.timeless ∧
            reached.2.map StageOutput.timeless = reached'.2.map StageOutput.timeless) ∧
            reached.1.SharesPlace outcome.project)
          (pipeline.build outcome.project) (other.build outcome'.project) :=
        (abreast_build company hproject hstem hserves).and_left
          (sharesPlace_build pipeline outcome.project)
      refine hbuilds.bind fun reached reached' h => ?_
      obtain ⟨project, result⟩ := reached
      obtain ⟨project', result'⟩ := reached'
      obtain ⟨⟨hreached, hresult⟩, hplace⟩ := h
      refine relates_pure ?_
      rcases cases_of_map_eq hresult with ⟨failure, rfl, rfl⟩ | ⟨output, output', rfl, rfl, houtput⟩
      · exact ⟨rfl, fun _ hmade => by cases hmade⟩
      · refine ⟨congrArg Except.ok ?_, fun made hmade => ?_⟩
        · exact (Outcome.mk.injEq ..).mpr ⟨hreached, hmetadata, congrArg some houtput, hran⟩
        · rw [← Except.ok.inj hmade]
          exact hplace

/-- Running, if that is selected, comes to the same. -/
theorem abreast_runIf (selected : Bool) (args : List String) (capture : Bool) :
    Relates (Abreast pipeline other near heard)
      (fun result result' => result.map Outcome.timeless = result'.map Outcome.timeless)
      (pipeline.runIf selected args capture outcome)
      (other.runIf selected args capture outcome') := by
  obtain ⟨hproject, hmetadata, hbuilt, -⟩ := Outcome.mk.inj houtcome
  cases selected with
  | false =>
      exact (abreast_skip company "run" notRequested).bind fun _ _ _ =>
        relates_pure (congrArg Except.ok houtcome)
  | true =>
      refine (abreast_run company hproject hstem hserves args capture).bind
        fun reached reached' h => ?_
      obtain ⟨project, result⟩ := reached
      obtain ⟨project', result'⟩ := reached'
      obtain ⟨hreached, hresult⟩ := h
      refine relates_pure ?_
      rcases cases_of_map_eq hresult with ⟨failure, rfl, rfl⟩ | ⟨output, output', rfl, rfl, houtput⟩
      · rfl
      · exact congrArg Except.ok
          ((Outcome.mk.injEq ..).mpr ⟨hreached, hmetadata, hbuilt, congrArg some houtput⟩)

/-- **Building and running** come to the same. -/
theorem abreast_buildAndRun (selection : Selection) (args : List String) (capture : Bool) :
    Relates (Abreast pipeline other near heard)
      (fun result result' => result.map Outcome.timeless = result'.map Outcome.timeless)
      (pipeline.buildAndRun selection args capture outcome)
      (other.buildAndRun selection args capture outcome') := by
  rw [buildAndRun_eq, buildAndRun_eq]
  refine abreast_proceed ?_ (abreast_buildIf company houtcome hstem hserves selection.build)
    fun made made' hmade hplace => ?_
  · exact fun _ => rfl
  · exact abreast_runIf company hmade (hplace.stem.symm ▸ hstem) (hserves.of_sharesPlace hplace)
      selection.run args capture

end

omit company in
/-- Both runs begin new records. -/
theorem abreast_renew {first second : Tracker (Session σ)}
    (hnear : near first.state.world second.state.world)
    (hsubject : second.state.subject = first.state.subject)
    (hheard : ∀ stem ∈ first.state.subject, heard stem) :
    Abreast pipeline other near heard (pipeline.renew first).2 (other.renew second).2 :=
  ⟨rfl, rfl, rfl, hsubject, hheard, hnear⟩

section

variable {script : Script} (hstem : heard script.stem)
  (hserves : Serves pipeline other near (pipeline.newProject script.stem script.source?))

include hstem

theorem abreast_analysis
    (hread : ∀ path ∈ script.source?, Relates near Eq (Act.readText path) (Act.readText path)) :
    Relates (Abreast pipeline other near heard) Eq (script.analysis pipeline)
      (script.analysis other) := by
  cases script with
  | file path => exact abreast_analyze company hstem (hread path rfl)
  | text content => exact abreast_textAnalysis company hstem content

include hserves

/-- **Analyzing and generating** come to the same for a script that reads the same. -/
theorem abreast_entering
    (hread : ∀ path ∈ script.source?, Relates near Eq (Act.readText path) (Act.readText path)) :
    Relates (Abreast pipeline other near heard)
      (fun result result' => result.map Outcome.timeless = result'.map Outcome.timeless ∧
        ∀ made, result = .ok made →
          made.project.SharesPlace (pipeline.newProject script.stem script.source?))
      (script.entering pipeline) (script.entering other) := by
  have hanalysis : Relates (Abreast pipeline other near heard)
      (fun result result' => result.map id = result'.map id ∧
        ∀ metadata, result = .ok metadata → True)
      (script.analysis pipeline) (script.analysis other) :=
    (abreast_analysis company hstem hread).mono fun _ _ hresult =>
      ⟨congrArg _ hresult, fun _ _ => trivial⟩
  refine abreast_proceed (fun failure => ⟨rfl, fun _ hmade => by cases hmade⟩) hanalysis
    fun metadata _ hmetadata _ => ?_
  obtain rfl : metadata = _ := hmetadata
  have hgenerates : Relates (Abreast pipeline other near heard)
      (fun result result' =>
        (result.map (fun generated => (generated.1.timeless, generated.2)) =
          result'.map fun generated => (generated.1.timeless, generated.2)) ∧
        ∀ generated, result = .ok generated →
          generated.1.SharesPlace (pipeline.newProject script.stem script.source?))
      (pipeline.generate metadata script.stem script.source?)
      (other.generate metadata script.stem script.source?) :=
    (abreast_generate company metadata script.source? hstem hserves).and_left
      fun _ _ hgenerated => sharesPlace_generate hgenerated
  refine hgenerates.bind fun result result' ⟨hresult, hplace⟩ => relates_pure ?_
  rcases cases_of_map_eq hresult with
    ⟨failure, rfl, rfl⟩ | ⟨⟨project, noted⟩, ⟨project', noted'⟩, rfl, rfl, hgenerated⟩
  · exact ⟨rfl, fun _ hmade => by cases hmade⟩
  · obtain ⟨hproject, hnoted⟩ := Prod.mk.inj hgenerated
    refine ⟨congrArg Except.ok ?_, fun made hmade => ?_⟩
    · exact (Outcome.mk.injEq ..).mpr ⟨hproject, congrArg some hnoted, rfl, rfl⟩
    · rw [← Except.ok.inj hmade]
      exact hplace _ rfl

omit hstem in
/-- **Going on** from what an earlier call left comes to the same. -/
theorem abreast_resume :
    Relates (Abreast pipeline other near heard)
      (fun result result' => result.map Outcome.timeless = result'.map Outcome.timeless ∧
        ∀ made, result = .ok made →
          made.project.SharesPlace (pipeline.newProject script.stem script.source?))
      (pipeline.resume script.stem script.source?) (other.resume script.stem script.source?) := by
  have hfound : Relates (Abreast pipeline other near heard)
      (fun result result' => result = result' ∧ ∀ project, result = .ok project →
        project.SharesPlace (pipeline.newProject script.stem script.source?))
      (onWorld (pipeline.existingProject script.stem script.source?))
      (onWorld (other.existingProject script.stem script.source?)) := by
    refine abreast_onWorld ((relates_existingProject company hserves).and_left
      fun world project hproject => ?_)
    rw [existingProject_apply] at hproject
    exact sharesPlace_foundProject hproject
  refine (abreast_skip company "generate" notRequested).bind fun _ _ _ => ?_
  refine hfound.bind fun result _ ⟨hresult, hplace⟩ => relates_pure ?_
  subst hresult
  cases result with
  | error failure => exact ⟨rfl, fun _ hmade => by cases hmade⟩
  | ok project =>
      refine ⟨rfl, fun made hmade => ?_⟩
      rw [← Except.ok.inj hmade]
      exact hplace project rfl

/-- **A call** comes to the same for a script that reads the same. -/
theorem abreast_call
    (hread : ∀ path ∈ script.source?, Relates near Eq (Act.readText path) (Act.readText path))
    (selection : Selection) (args : List String) (capture : Bool)
    {first second : Tracker (Session σ)} (hnear : near first.state.world second.state.world)
    (hsubject : second.state.subject = first.state.subject)
    (hheard : ∀ stem ∈ first.state.subject, heard stem) :
    (script.call pipeline selection args capture first).1.map Outcome.timeless =
        (script.call other selection args capture second).1.map Outcome.timeless ∧
      Abreast pipeline other near heard (script.call pipeline selection args capture first).2
        (script.call other selection args capture second).2 := by
  have hrenewed : Abreast pipeline other near heard (pipeline.renew first).2
      (other.renew second).2 := abreast_renew hnear hsubject hheard
  have hmore : ∀ {begun begun' : Run σ (Except Failure Outcome)},
      Relates (Abreast pipeline other near heard)
        (fun result result' => result.map Outcome.timeless = result'.map Outcome.timeless ∧
          ∀ made, result = .ok made →
            made.project.SharesPlace (pipeline.newProject script.stem script.source?))
        begun begun' →
      Relates (Abreast pipeline other near heard)
        (fun result result' => result.map Outcome.timeless = result'.map Outcome.timeless)
        (proceed begun (pipeline.buildAndRun selection args capture))
        (proceed begun' (other.buildAndRun selection args capture)) := by
    intro begun begun' hbegun
    refine abreast_proceed ?_ hbegun fun outcome outcome' houtcome hplace => ?_
    · exact fun _ => rfl
    · exact abreast_buildAndRun company houtcome (hplace.stem.symm ▸ hstem)
        (hserves.of_sharesPlace hplace) selection args capture
  cases hselected : selection.generate with
  | true =>
      rw [script.call_of_generate pipeline args capture first hselected,
        script.call_of_generate other args capture second hselected]
      exact hmore (abreast_entering company hstem hserves hread) _ _ hrenewed
  | false =>
      rw [script.call_of_resume hselected, script.call_of_resume hselected]
      refine hmore (abreast_resume company hserves) _ _ ?_
      cases script with
      | file path => exact hrenewed
      | text content => exact (abreast_about hstem _ _ hrenewed).2

end

end

end Pipeline

end RustScript
