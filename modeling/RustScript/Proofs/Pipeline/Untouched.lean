import RustScript.CommandLine.Basic
import RustScript.Proofs.Pipeline.Confinement
import RustScript.Proofs.Pipeline.FailStop

/-!
# Nothing is written before the manifest is complete

Generating a project fails in one of two ways. Its manifest cannot be resolved or written down, or
its files cannot be written. In the first case no file of the project has been touched: what is left
behind is what the collaborators leave, above all the journal of the script. The same is so for a
call that fails while it analyzes its script or resolves its manifest, and such a call has asked for
nothing but crates (`untouched`). A manifest whose text has no bytes is a failure of the second kind,
although it does not come from the files: it is noticed when the text is to be written
(`strange_manifest_leaves_project`).
-/

set_option autoImplicit false

namespace RustScript

/-! ## Frames for some results -/

namespace Frame

variable {ω α β : Type} {frame : Frame ω}

/-- The action keeps to the frame whenever its result is one of some. -/
def KeepsWhen (frame : Frame ω) (holds : α → Prop) (action : StateM ω α) : Prop :=
  ∀ state, holds (action state).1 → frame.rel state (action state).2

theorem keepsWhen_bind {holds : β → Prop} {action : StateM ω α} {next : α → StateM ω β}
    (haction : frame.Keeps action) (hnext : ∀ value, frame.KeepsWhen holds (next value)) :
    frame.KeepsWhen holds (action >>= next) := fun state h =>
  frame.trans (haction state) (hnext (action state).1 (action state).2 h)

/-- The first action decides whether the result will be one of some. -/
theorem keepsWhen_bind_of {first : α → Prop} {holds : β → Prop} {action : StateM ω α}
    {next : α → StateM ω β} (haction : frame.KeepsWhen first action)
    (hnext : ∀ value, frame.Keeps (next value))
    (hfirst : ∀ value state, holds (next value state).1 → first value) :
    frame.KeepsWhen holds (action >>= next) := fun state h =>
  frame.trans (haction state (hfirst _ _ h)) (hnext (action state).1 (action state).2)

end Frame

namespace Pipeline

open RustScript.Progress

variable {σ α : Type}

/-! ## Scripts -/

/-- What a call is about. -/
inductive Script
  | file (path : Path)
  | text (content : String)

/-- The stem of the project of a script. -/
def Script.stem : Script → String
  | .file path => path.stem
  | .text _ => textStem

/-- The file of a script, if it has one. -/
def Script.source? : Script → Option Path
  | .file path => some path
  | .text _ => none

/-- The analysis of a script that is given as text. -/
def textAnalysis (pipeline : Pipeline σ) (text : String) :
    Run σ (Except Failure Source.Metadata) := do
  about textStem
  track now "analyze" Failure.message fun _ => pure (pipeline.analyzeText text)

/-- The analysis of a script. -/
def Script.analysis (pipeline : Pipeline σ) : Script → Run σ (Except Failure Source.Metadata)
  | .file path => pipeline.analyze path
  | .text content => pipeline.textAnalysis content

/-- A call about a script. -/
def Script.call (pipeline : Pipeline σ) : Script → Selection → List String → Bool →
    Run σ (Except Failure Outcome)
  | .file path => pipeline.runScript path
  | .text content => pipeline.runText content

/-! ## Stages that fail -/

variable {stem : String} {frame : Frame (World σ)} {pipeline : Pipeline σ}

/-- The result is a failure of some kind. -/
def FailsAs {ε : Type} (kind : ε → Prop) (result : Except ε α) : Prop :=
  ∃ error, result = .error error ∧ kind error

theorem keepsWhen_track {ω ε : Type} {frame : Frame ω} {listeners : List (Listener ω)}
    {now : StateM ω Binary64} (hnow : frame.Keeps now)
    (h : ∀ listener ∈ listeners, ∀ record, frame.Keeps (listener record)) (stage : String)
    (describe : ε → String) {holds : Except ε α → Prop} {body : Nat → Tracked ω (Except ε α)}
    (hbody : ∀ place, (trackerFrame frame listeners).KeepsWhen holds (body place)) :
    (trackerFrame frame listeners).KeepsWhen holds (track now stage describe body) := by
  refine Frame.keepsWhen_bind (keeps_onState hnow) fun reading => ?_
  refine Frame.keepsWhen_bind (keeps_start h _) fun place => ?_
  refine Frame.keepsWhen_bind_of (hbody place) (fun result => ?_) fun _ _ hresult => hresult
  exact Frame.keeps_bind (keeps_finish hnow h place _) fun _ => Frame.keeps_pure _

theorem fails_of_conclude {stage : String} {project : Project} {elapsed : Option Binary64}
    {kind : Failure → Prop} {result : Except Failure (Step α)}
    (h : FailsAs kind (conclude stage project elapsed result).2) : FailsAs kind result := by
  obtain ⟨failure, hfailure, hkind⟩ := h
  cases result with
  | error other => exact ⟨failure, congrArg Except.error (Except.error.inj hfailure), hkind⟩
  | ok step => cases hfailure

theorem keepsWhen_inStage (h : pipeline.Collaborates stem frame) (hnow : frame.Keeps Act.now)
    (stage : String) (project : Project) {kind : Failure → Prop}
    {body : Run σ (Except Failure (Step α))}
    (hbody : (trackerFrame (sessionFrame stem frame) pipeline.listeners).KeepsWhen
      (FailsAs kind) body) :
    (trackerFrame (sessionFrame stem frame) pipeline.listeners).KeepsWhen
      (fun reached => FailsAs kind reached.2) (inStage stage project body) := by
  have hrecorded : (trackerFrame (sessionFrame stem frame) pipeline.listeners).KeepsWhen
      (FailsAs kind) (recorded stage body) := by
    refine keepsWhen_track (keeps_inSession hnow) (keeps_listeners h) _ _ fun place => ?_
    refine Frame.keepsWhen_bind_of hbody (fun result => ?_) fun result tracker hresult => ?_
    · cases result with
      | error failure => exact Frame.keeps_pure _
      | ok step => exact Frame.keeps_bind (keeps_amend _ _) fun _ => Frame.keeps_pure _
    · cases result with
      | error failure => exact hresult
      | ok step => exact nomatch hresult
  intro tracker hreached
  rw [inStage_apply] at hreached ⊢
  exact hrecorded tracker (fails_of_conclude hreached)

/-! ## Generating -/

/-- The failure is not one of files. -/
def NotOfFiles (failure : Failure) : Prop := ∀ problem path, failure ≠ .file problem path

/-- The failure is that a text has no bytes. -/
def LacksBytes (failure : Failure) : Prop := ∃ reason, failure = .unwritable (.noBytes reason)

/-- The failure is not one of writing files, which there is also if a text has no bytes. -/
def BeforeWriting (failure : Failure) : Prop := NotOfFiles failure ∧ ¬ LacksBytes failure

theorem not_fails_writeStep (project : Project) (metadata : Source.Metadata) (manifest : Manifest)
    (text : String) (tracker : Tracker (Session σ)) :
    ¬ FailsAs BeforeWriting (writeStep project metadata manifest text tracker).1 := by
  unfold writeStep
  rw [Frame.stateBind_apply]
  rintro ⟨failure, hfailure, hbefore⟩
  cases hwritten : (onWorld (Act.files (writeProject project (generatedSource metadata) text))
    tracker).1 with
  | ok written =>
      rw [hwritten] at hfailure
      cases hfailure
  | error error =>
      rw [hwritten] at hfailure
      exact hbefore.1 _ _ (Except.error.inj hfailure).symm

/-- Whatever is given up before writing is given up at once. -/
theorem giveUp_of_before {metadata : Source.Metadata} {project : Project} {failure : Failure}
    {tracker : Tracker (Session σ)}
    (h : FailsAs BeforeWriting (giveUp metadata project failure tracker).1) :
    giveUp metadata project failure tracker = (.error failure, tracker) := by
  unfold giveUp at h ⊢
  split at h
  · next reason =>
      obtain ⟨other, hother, hbefore⟩ := h
      rw [Frame.stateBind_apply] at hother
      cases hwritten : (onWorld (Act.files (writeRest project (generatedSource metadata)))
        tracker).1 with
      | error error =>
          rw [hwritten] at hother
          exact absurd (Except.error.inj hother).symm (hbefore.1 _ _)
      | ok written =>
          rw [hwritten] at hother
          exact absurd ⟨reason, (Except.error.inj hother).symm⟩ hbefore.2
  · rfl

theorem keepsWhen_generateStep (hpipeline : pipeline.Collaborates stem frame)
    (metadata : Source.Metadata) (project : Project) :
    (trackerFrame (sessionFrame stem frame) pipeline.listeners).KeepsWhen
      (FailsAs BeforeWriting) (pipeline.generateStep metadata project) := by
  have hresolve : (trackerFrame (sessionFrame stem frame) pipeline.listeners).Keeps
      (onWorld (pipeline.resolveManifest metadata project)) :=
    keeps_onWorld (Frame.keeps_bind (keeps_merge hpipeline.resolve _ _ _ _ _) fun _ =>
      Frame.keeps_pure _)
  rw [generateStep_eq]
  intro tracker hfails
  rw [Frame.stateBind_apply] at hfails ⊢
  cases hresolved : (onWorld (pipeline.resolveManifest metadata project) tracker).1 with
  | error failure =>
      rw [hresolved] at hfails
      have hgivenUp : writeOrGiveUp metadata project (.error failure)
          (onWorld (pipeline.resolveManifest metadata project) tracker).2 = _ :=
        giveUp_of_before hfails
      rw [hgivenUp]
      exact hresolve tracker
  | ok resolved =>
      -- once the manifest is complete, only writing files can fail
      rw [hresolved] at hfails
      exact absurd hfails (not_fails_writeStep _ _ _ _ _)

/-- Generating keeps to a frame in which files may be written. -/
theorem keeps_generateStep_of_files (hpipeline : pipeline.Collaborates stem frame)
    (hfiles : ∀ {β : Type} (action : FileAction β), frame.Keeps (Act.files action))
    (metadata : Source.Metadata) (project : Project) :
    (trackerFrame (sessionFrame stem frame) pipeline.listeners).Keeps
      (pipeline.generateStep metadata project) := by
  have hresolve : frame.Keeps (pipeline.resolveManifest metadata project) :=
    Frame.keeps_bind (keeps_merge hpipeline.resolve _ _ _ _ _) fun _ => Frame.keeps_pure _
  exact keeps_generateStep_of (keeps_onWorld hresolve) (fun _ _ => keeps_onWorld (hfiles _))
    fun _ => keeps_onWorld (hfiles _)

/-- The tracker about the script `stem`. -/
def aboutStem (stem : String) (tracker : Tracker (Session σ)) : Tracker (Session σ) :=
  { tracker with state := { tracker.state with subject := some stem } }

theorem rel_of_frame {listeners : List (Listener (Session σ))}
    {tracker after : Tracker (Session σ)}
    (h : (trackerFrame (sessionFrame stem frame) listeners).rel (aboutStem stem tracker) after)
    (hlisteners : tracker.listeners = listeners) :
    after.listeners = listeners ∧ frame.rel tracker.state.world after.state.world := by
  obtain ⟨hafter, hsession⟩ := h hlisteners
  exact ⟨hafter, (hsession rfl).2⟩

theorem fails_of_map {β ε : Type} {kind : ε → Prop} {result : Except ε α} {f : α → β}
    (h : FailsAs kind (result.map f)) : FailsAs kind result := by
  obtain ⟨error, herror, hkind⟩ := h
  cases result with
  | error other => exact ⟨error, congrArg Except.error (Except.error.inj herror), hkind⟩
  | ok value => cases herror

theorem generate_apply (metadata : Source.Metadata) (stem : String) (source : Option Path)
    (tracker : Tracker (Session σ)) :
    pipeline.generate metadata stem source tracker =
      (fun reached : (Project × Except Failure Source.Metadata) × Tracker (Session σ) =>
        (reached.1.2.map fun metadata => (reached.1.1, metadata), reached.2))
      (inStage "generate" (pipeline.newProject stem source)
        (pipeline.generateStep metadata (pipeline.newProject stem source))
        (aboutStem stem tracker)) := rfl

/-- **A generation that fails before it writes** keeps to what the collaborators keep to. -/
theorem rel_of_generate_fails (hpipeline : pipeline.Collaborates stem frame)
    (hnow : frame.Keeps Act.now) {metadata : Source.Metadata} {source : Option Path}
    {tracker : Tracker (Session σ)} (hlisteners : tracker.listeners = pipeline.listeners)
    (h : FailsAs BeforeWriting (pipeline.generate metadata stem source tracker).1) :
    frame.rel tracker.state.world
      (pipeline.generate metadata stem source tracker).2.state.world := by
  rw [generate_apply] at h ⊢
  refine (rel_of_frame (keepsWhen_inStage hpipeline hnow "generate" _
    (keepsWhen_generateStep hpipeline metadata _) (aboutStem stem tracker) ?_) hlisteners).2
  exact fails_of_map h

/-- A generation keeps to a frame in which files may be written. -/
theorem rel_of_generate (hpipeline : pipeline.Collaborates stem frame)
    (hnow : frame.Keeps Act.now)
    (hfiles : ∀ {β : Type} (action : FileAction β), frame.Keeps (Act.files action))
    {metadata : Source.Metadata} {source : Option Path} {tracker : Tracker (Session σ)}
    (hlisteners : tracker.listeners = pipeline.listeners) :
    frame.rel tracker.state.world
      (pipeline.generate metadata stem source tracker).2.state.world := by
  rw [generate_apply]
  exact (rel_of_frame (keeps_inStage hpipeline hnow "generate" _
    (keeps_generateStep_of_files hpipeline hfiles metadata _) (aboutStem stem tracker))
    hlisteners).2

/-! ## Analyzing -/

/-- The frame allows reading files and the clock. -/
structure AllowsReading (frame : Frame (World σ)) : Prop where
  now : frame.Keeps Act.now
  text : ∀ path, frame.Keeps (Act.readText path)

/-- The action keeps to the frame, and the journal goes on hearing of every record. -/
def Heeds (pipeline : Pipeline σ) (frame : Frame (World σ)) (action : Run σ α) : Prop :=
  ∀ tracker, tracker.listeners = pipeline.listeners →
    (action tracker).2.listeners = pipeline.listeners ∧
      frame.rel tracker.state.world (action tracker).2.state.world

/-- Analyzing a file, as the body of the stage. -/
def analyzeStep (pipeline : Pipeline σ) (path : Path) (place : Nat) :
    Run σ (Except Failure Source.Metadata) := do
  let result ← onWorld (pipeline.analyzeFile path)
  if let .ok metadata := result then
    amend place fun record => { record with detail := analysisDetail metadata }
  return result

theorem analyze_apply (pipeline : Pipeline σ) (path : Path) (tracker : Tracker (Session σ)) :
    pipeline.analyze path tracker =
      track now "analyze" Failure.message (pipeline.analyzeStep path)
        (aboutStem path.stem tracker) := rfl

theorem textAnalysis_apply (pipeline : Pipeline σ) (text : String)
    (tracker : Tracker (Session σ)) :
    pipeline.textAnalysis text tracker =
      track now "analyze" Failure.message (fun _ => pure (pipeline.analyzeText text))
        (aboutStem textStem tracker) := rfl

theorem heeds_textAnalysis {text : String} (hpipeline : pipeline.Collaborates textStem frame)
    (hframe : AllowsReading frame) : pipeline.Heeds frame (pipeline.textAnalysis text) := by
  intro tracker hlisteners
  rw [textAnalysis_apply]
  exact rel_of_frame (keeps_track (keeps_inSession hframe.now) (keeps_listeners hpipeline) "analyze"
    Failure.message (fun _ => Frame.keeps_pure _) (aboutStem textStem tracker)) hlisteners

/-- Analyzing a file keeps to what reading and notes keep to. -/
theorem heeds_analyze_of_notes {path : Path} (hnotes : pipeline.NotesKeep path.stem frame)
    (hframe : AllowsReading frame) : pipeline.Heeds frame (pipeline.analyze path) := by
  have hscript : frame.Keeps (readScript path) := by
    refine Frame.keeps_bind (hframe.text path) fun content => ?_
    rcases content with (_ | _) | _ <;> exact Frame.keeps_pure _
  have hfile : frame.Keeps (pipeline.analyzeFile path) :=
    Frame.keeps_bind hscript fun _ => Frame.keeps_pure _
  intro tracker hlisteners
  rw [analyze_apply]
  refine rel_of_frame (keeps_track (keeps_inSession hframe.now) (keeps_listeners_of_notes hnotes)
    "analyze" Failure.message (fun place => ?_) (aboutStem path.stem tracker)) hlisteners
  refine Frame.keeps_bind (keeps_onWorld hfile) fun result => ?_
  cases result with
  | error failure => exact Frame.keeps_pure _
  | ok metadata => exact Frame.keeps_bind (keeps_amend _ _) fun _ => Frame.keeps_pure _

theorem heeds_analyze {path : Path} (hpipeline : pipeline.Collaborates path.stem frame)
    (hframe : AllowsReading frame) : pipeline.Heeds frame (pipeline.analyze path) :=
  heeds_analyze_of_notes (fun _ => hpipeline.append) hframe

/-! ## Calls -/

/-- A failed run that goes through a plan ends in a stage of the plan. -/
theorem last_of_traces {blame : String → Failure → Prop} {plan : List Planned} {gives : α → Prop}
    {action : Run σ (Except Failure α)} {noting : Run (List Request × σ) (Except Failure α)}
    (h : Notes (Traces blame plan gives) action noting) {tracker : Tracker (Session σ)}
    {failure : Failure} (hfailure : (action tracker).1 = .error failure) :
    ∃ record, (action tracker).2.records.getLast? = some record ∧
      record.stage ∈ plan.map Planned.stage := by
  obtain ⟨_, _, episodes, hrecords, -, hfollows, -⟩ := h tracker []
  rw [hfailure] at hfollows
  obtain ⟨last, hlast, hstage⟩ := hfollows.last
  refine ⟨last.record, ?_, hstage⟩
  rw [hrecords, List.getLast?_append, List.getLast?_map, hlast]
  rfl

/-- The call failed while it analyzed its script or resolved its manifest. -/
def FailedEarly (records : List Record) (failure : Failure) : Prop :=
  ∃ record, records.getLast? = some record ∧
    (record.stage = "analyze" ∨ record.stage = "generate" ∧ NotOfFiles failure)

/-- Up to building, an early failure comes from the analysis or from the manifest. -/
theorem lookUps_of_early {blame : String → Failure → Prop} {failure : Failure}
    {rest : List Planned} {episodes : List Episode}
    (h : Follows blame (analyzePlan :: generatePlan true :: rest) (some failure) episodes)
    (hrest : ∀ stage ∈ rest.map Planned.stage, stage ≠ "analyze" ∧ stage ≠ "generate")
    (hearly : FailedEarly (episodes.map Episode.record) failure) :
    ∀ request ∈ episodes.flatMap Episode.requests, request.IsLookUp := by
  cases h with
  | skipped selected => cases selected
  | failed _ _ hquiet =>
      intro request hrequest
      rw [List.flatMap_singleton, show _ = [] from hquiet] at hrequest
      exact absurd hrequest List.not_mem_nil
  | completed _ _ hquiet h =>
      cases h with
      | skipped selected => cases selected
      | failed _ _ hlookUps =>
          intro request hrequest
          rw [List.flatMap_cons, show _ = [] from hquiet, List.flatMap_singleton] at hrequest
          exact hlookUps request hrequest
      | completed _ _ _ h =>
          -- then the last stage is one of the rest, which is not early
          obtain ⟨last, hlast, hstage⟩ := h.last
          obtain ⟨record, hrecord, hstages⟩ := hearly
          rw [List.getLast?_map, List.getLast?_cons, List.getLast?_cons, hlast] at hrecord
          rw [← Option.some.inj hrecord] at hstages
          exact (hstages.elim (hrest _ hstage).1 fun h => (hrest _ hstage).2 h.1).elim

section

variable {source : Option Path} {selection : Selection} {args : List String} {capture : Bool}
  {analysis : Run σ (Except Failure Source.Metadata)}
  {analysis' : Run (List Request × σ) (Except Failure Source.Metadata)}
  (htraces : Notes (Traces pipeline.Charged [analyzePlan] SoundFragment) analysis analysis')
  {tracker : Tracker (Session σ)} {failure : Failure}
  (h : (pipeline.generatingCall analysis stem source selection args capture tracker).1 =
    .error failure)
  (hearly : FailedEarly
    (pipeline.generatingCall analysis stem source selection args capture tracker).2.records failure)

include htraces h hearly

/-- **Early failures** keep to what the analysis and a generation that fails so keep to. -/
theorem rel_of_early (hanalysis : pipeline.Heeds frame analysis)
    (hfailed : ∀ metadata before, before.listeners = pipeline.listeners → NotOfFiles failure →
      (pipeline.generate metadata stem source before).1 = .error failure →
      frame.rel before.state.world
        (pipeline.generate metadata stem source before).2.state.world) :
    frame.rel tracker.state.world
      (pipeline.generatingCall analysis stem source selection args capture
        tracker).2.state.world := by
  obtain ⟨hlisteners, hfirst⟩ := hanalysis (pipeline.renew tracker).2 rfl
  obtain ⟨_, _, _, _, _, _, hfragment⟩ := htraces (pipeline.renew tracker).2 []
  unfold generatingCall at h hearly ⊢
  simp only [Frame.stateBind_apply, proceed_apply] at h hearly ⊢
  cases hanalyzed : (analysis (pipeline.renew tracker).2).1 with
  | error other => exact hfirst
  | ok metadata =>
      simp only [hanalyzed] at h hearly ⊢
      have hgenerate := traces_generateFrom pipeline stem source (hfragment metadata hanalyzed)
      cases hgenerated : (pipeline.generateFrom stem source (.ok metadata)
          (analysis (pipeline.renew tracker).2).2).1 with
      | error other =>
          simp only [hgenerated] at h hearly ⊢
          obtain ⟨record, hrecord, hstage⟩ := last_of_traces hgenerate hgenerated
          obtain ⟨last, hlast, hearly⟩ := hearly
          rw [hrecord] at hlast
          rw [← Option.some.inj hlast, List.mem_singleton.mp hstage] at hearly
          obtain rfl : other = failure := Except.error.inj h
          refine frame.trans hfirst (hfailed metadata _ hlisteners
            (hearly.resolve_left (by decide)).2 ?_)
          have hother : FailsAs (· = other) _ := fails_of_map ⟨_, hgenerated, rfl⟩
          obtain ⟨_, herror, rfl⟩ := hother
          exact herror
      | ok outcome =>
          -- building and running are too late for an early failure
          simp only [hgenerated] at h hearly ⊢
          obtain ⟨_, _, _, _, _, _, hplace⟩ := hgenerate (analysis (pipeline.renew tracker).2).2 []
          obtain ⟨record, hrecord, hstage⟩ := last_of_traces (traces_buildAndRun pipeline selection
            args capture (hplace outcome hgenerated)) h
          obtain ⟨last, hlast, hearly⟩ := hearly
          rw [hrecord] at hlast
          rw [← Option.some.inj hlast] at hearly
          have hlate : record.stage = "build" ∨ record.stage = "run" := by
            simpa [commandPlan] using hstage
          rcases hlate with hlate | hlate
          all_goals
            rw [hlate] at hearly
            exact absurd hearly (by simp)

/-- **Early failures** have asked for nothing but crates. -/
theorem lookUps_generatingCall (hselected : selection.generate = true) :
    ∃ asked, pipeline.noting.generatingCall analysis' stem source selection args capture
        (tracker.keeping []) =
          ((pipeline.generatingCall analysis stem source selection args capture tracker).1,
            (pipeline.generatingCall analysis stem source selection args capture
              tracker).2.keeping asked) ∧
      ∀ request ∈ asked, request.IsLookUp := by
  obtain ⟨episodes, hnoted, hrecords, hfollows⟩ :=
    toldBy_generatingCall pipeline stem source hselected args capture htraces tracker
  refine ⟨_, hnoted, ?_⟩
  rw [h] at hfollows
  rw [hrecords] at hearly
  unfold plan beginning at hfollows
  rw [if_pos hselected] at hfollows
  exact lookUps_of_early hfollows (by simp [commandPlan]) hearly

end

/-! ## Calls about scripts -/

theorem runText_of_generate (pipeline : Pipeline σ) (text : String) {selection : Selection}
    (h : selection.generate = true) (args : List String) (capture : Bool) :
    pipeline.runText text selection args capture =
      pipeline.generatingCall (pipeline.textAnalysis text) textStem none selection args capture := by
  unfold generatingCall
  rw [← bind_generateFrom]
  funext tracker
  unfold runText
  rw [if_pos h]
  have hanalysis : ∀ tracker : Tracker (Session σ),
      track now "analyze" Failure.message (fun _ => pure (pipeline.analyzeText text))
        (about textStem tracker).2 = pipeline.textAnalysis text tracker := fun _ => rfl
  simp only [Frame.stateBind_apply, proceed_apply, hanalysis]
  cases (pipeline.generateFrom textStem none
    (pipeline.textAnalysis text (pipeline.renew tracker).2).1
    (pipeline.textAnalysis text (pipeline.renew tracker).2).2).1 <;> rfl

/-- **Analyzing a text** in a call. -/
theorem traces_textAnalysis (pipeline : Pipeline σ) (text : String) :
    Notes (Traces pipeline.Charged [analyzePlan] SoundFragment) (pipeline.textAnalysis text)
      (pipeline.noting.textAnalysis text) := by
  have hbody : ∀ place, Notes (Amends place fun result asked => asked = [] ∧ Analyzed result)
      (pure (pipeline.analyzeText text) : Run σ _) (pure (pipeline.noting.analyzeText text)) :=
    fun _ => mirrors_pure fun _ => ⟨⟨id, fun _ => rfl, (List.modify_id _ _).symm⟩, rfl,
      analyzed_analyzeText pipeline text⟩
  refine traces_stage rfl (notes_adds_of_quiet (notes_about textStem) fun _ =>
    Mirrors.mono (notes_track mirrors_now "analyze" Failure.message hbody) ?_)
  rintro before result after asked ⟨record, hrecords, ended, hasked, hanalyzed⟩
  exact ⟨record, hrecords, ended, hasked, fun failure h _ => hanalyzed.blamed failure h,
    hanalyzed.sound⟩

theorem Script.call_eq (pipeline : Pipeline σ) (script : Script) {selection : Selection}
    (h : selection.generate = true) (args : List String) (capture : Bool) :
    script.call pipeline selection args capture =
      pipeline.generatingCall (script.analysis pipeline) script.stem script.source? selection args
        capture := by
  cases script with
  | file path => exact runScript_of_generate pipeline path h args capture
  | text content => exact runText_of_generate pipeline content h args capture

theorem Script.traces_analysis (pipeline : Pipeline σ) (script : Script) :
    Notes (Traces pipeline.Charged [analyzePlan] SoundFragment) (script.analysis pipeline)
      (script.analysis pipeline.noting) := by
  cases script with
  | file path => exact traces_analyze pipeline path
  | text content => exact traces_textAnalysis pipeline content

theorem Script.heeds_analysis {script : Script} (hpipeline : pipeline.Collaborates script.stem frame)
    (hframe : AllowsReading frame) : pipeline.Heeds frame (script.analysis pipeline) := by
  cases script with
  | file path => exact heeds_analyze hpipeline hframe
  | text content => exact heeds_textAnalysis hpipeline hframe

section

variable {script : Script} {selection : Selection} {args : List String} {capture : Bool}
  {tracker : Tracker (Session σ)} {failure : Failure}
  (hpipeline : pipeline.Collaborates script.stem frame) (hframe : AllowsReading frame)
  (hselected : selection.generate = true)
  (h : (script.call pipeline selection args capture tracker).1 = .error failure)
  (hearly : FailedEarly (script.call pipeline selection args capture tracker).2.records failure)

include hpipeline hframe hselected h hearly

/-- **A call that fails early** keeps to what the collaborators keep to, unless a text has no
bytes. -/
theorem rel_of_call (hbytes : ¬ LacksBytes failure) :
    frame.rel tracker.state.world
      (script.call pipeline selection args capture tracker).2.state.world := by
  rw [Script.call_eq pipeline script hselected] at h hearly ⊢
  refine rel_of_early (script.traces_analysis pipeline) h hearly
    (Script.heeds_analysis hpipeline hframe) fun metadata before hlisteners hkind hfails => ?_
  exact rel_of_generate_fails hpipeline hframe.now hlisteners ⟨failure, hfails, hkind, hbytes⟩

/-- A call that fails early keeps to what the collaborators keep to, if files may be written. -/
theorem rel_of_call_of_files
    (hfiles : ∀ {β : Type} (action : FileAction β), frame.Keeps (Act.files action)) :
    frame.rel tracker.state.world
      (script.call pipeline selection args capture tracker).2.state.world := by
  rw [Script.call_eq pipeline script hselected] at h hearly ⊢
  exact rel_of_early (script.traces_analysis pipeline) h hearly
    (Script.heeds_analysis hpipeline hframe) fun metadata before hlisteners _ _ =>
      rel_of_generate hpipeline hframe.now hfiles hlisteners

end

/-! ## Logs beside the build root -/

/-- The collaborators write no files but a journal, if there is one, below the directory `logs`. -/
structure WritesOnlyLogs (pipeline : Pipeline σ) (logs : Option Path) : Prop where
  store : pipeline.store = logs.map Log.storeIn
  /-- The resolver leaves files alone. -/
  resolver : ∀ name world, (pipeline.resolver.resolve name world).2.files = world.files

/-- The place is one in the logs of a script. -/
def InLogsOf (here : Place) (logs : Option Path) (stem : String) (place : Place) : Prop :=
  ∃ base ∈ logs, InLogs here base stem place

/-- The place is on the way to the logs of a script. -/
def OnWayToLogs (here : Place) (logs : Option Path) (stem : String) (place : Place) : Prop :=
  ∃ base ∈ logs, FileAction.OnWay here (base.child stem) place

theorem WritesOnlyLogs.collaborates {logs : Option Path} (h : pipeline.WritesOnlyLogs logs) (here : Place)
    (stem : String) :
    pipeline.Collaborates stem
      (Act.frame σ here (InLogsOf here logs stem) (OnWayToLogs here logs stem)) := by
  have hkept : ∀ store ∈ pipeline.store, ∀ {α : Type} {action : Act σ α},
      (∀ base ∈ logs, store = Log.storeIn base → (Act.frame σ here (InLogs here base stem)
        (FileAction.OnWay here (base.child stem))).Keeps action) →
      (Act.frame σ here (InLogsOf here logs stem) (OnWayToLogs here logs stem)).Keeps action := by
    intro store hstore α action haction
    rw [h.store] at hstore
    obtain ⟨base, hbase, rfl⟩ := Option.mem_map.mp hstore
    exact fun world hhere => ⟨(haction base hbase rfl world hhere).1,
      (haction base hbase rfl world hhere).2.mono (fun _ hplace => ⟨base, hbase, hplace⟩)
        fun _ hplace => ⟨base, hbase, hplace⟩⟩
  refine ⟨fun name world => ?_, fun store hstore text => hkept store hstore ?_,
    fun store hstore => hkept store hstore ?_⟩
  · show (FileSystem.frame here _ _).rel world.files
      (pipeline.resolver.resolve name world).2.files
    rw [h.resolver]
    exact Frame.refl _ world.files
  · rintro base - rfl
    exact (keeps_storeIn here base stem).1 text
  · rintro base - rfl
    exact (keeps_storeIn here base stem).2

theorem allowsReading_files (here : Place) (inside way : Place → Prop) :
    AllowsReading (Act.frame σ here inside way) where
  now := Act.keeps_now
  text path := Frame.keeps_bind (Act.keeps_files (FileAction.keeps_read path)) fun content => by
    cases content <;> exact Frame.keeps_pure _

/-! ## Calls of the runner -/

end Pipeline

/-- The frame in which requests are noted: only searches are added. -/
def searches (cargo : String) : Frame (List Request) where
  rel before after := ∃ names : List String,
    after = before ++ names.map fun name => .command (Registry.searchCall cargo name none)
  refl before := ⟨[], (List.append_nil before).symm⟩
  trans := by
    rintro first _ _ ⟨early, rfl⟩ ⟨late, rfl⟩
    exact ⟨early ++ late, by rw [List.map_append, List.append_assoc]⟩

/-- The client beside something more that is kept outside. -/
def Registry.Client.beside {σ κ : Type} (client : Registry.Client σ) :
    Registry.Client (κ × σ) where
  fetch address := (client.fetch address).beside
  close := client.close.beside
  room := client.room

/-- The host that notes the calls of commands. -/
def CommandLine.Host.noting {σ : Type} (host : CommandLine.Host σ) :
    CommandLine.Host (List RustScript.Request × σ) where
  environment := host.environment
  temporary := host.temporary
  runner := host.runner.noting
  client := host.client.beside
  outIsTerminal := host.outIsTerminal
  errIsTerminal := host.errIsTerminal

namespace Act

variable {σ κ α : Type}

theorem keeps_files_outside (frame : Frame σ) (action : FileAction α) :
    (frame.on World.outside).Keeps (Act.files action) := fun world => frame.refl world.outside

theorem keeps_look_outside (frame : Frame σ) (view : FileSystem → α) :
    (frame.on World.outside).Keeps (Act.look view) := fun world => frame.refl world.outside

theorem keeps_beside {frame : Frame σ} {action : Act σ α}
    (h : (frame.on World.outside).Keeps action) :
    ((frame.on Prod.snd).on World.outside).Keeps (action.beside : Act (κ × σ) α) := fun world =>
  h world.behind

theorem keeps_beside_of_fst (frame : Frame κ) (action : Act σ α) :
    ((frame.on Prod.fst).on World.outside).Keeps (action.beside : Act (κ × σ) α) := fun world =>
  frame.refl world.outside.1

end Act

namespace Registry

variable {σ : Type}

theorem keeps_remembering {frame : Frame σ} {inner : Resolver σ} {name : String}
    (h : (frame.on World.outside).Keeps (inner.resolve name)) :
    ((frame.on Prod.snd).on World.outside).Keeps ((remembering inner).resolve name) := by
  refine Frame.keeps_bind Frame.keeps_get fun world => ?_
  split
  · exact Frame.keeps_pure _
  · refine Frame.keeps_bind (Act.keeps_beside h) fun answer => ?_
    cases answer with
    | error error => exact Frame.keeps_pure _
    | ok release =>
        have hput : ((frame.on Prod.snd).on World.outside).Keeps
            (Act.outside fun kept : Cache × σ => (kept.1.put (Crate.normalize name) release,
              kept.2)) := fun world => frame.refl world.outside.2
        exact Frame.keeps_bind hput fun _ => Frame.keeps_pure _

theorem keeps_browsing {frame : Frame (World σ)} {client : Client σ} {base name : String}
    (h : ∀ address, frame.Keeps (client.fetch address)) :
    frame.Keeps ((browsing client base).resolve name) := by
  unfold browsing
  dsimp only
  split
  · exact Frame.keeps_pure _
  · next address _ =>
      refine Frame.keeps_bind (h address.requested) fun reply => ?_
      cases reply <;> exact Frame.keeps_pure _

/-- A registry calls no command but the search. -/
theorem keeps_resolver (settings : Settings) (host : CommandLine.Host σ) (name : String) :
    (((searches settings.cargo).on Prod.fst).on World.outside).Keeps
      ((settings.resolver host.noting.runner host.noting.client).resolve name) := by
  unfold Settings.resolver
  cases settings.registry with
  | search =>
      intro world
      exact ⟨[name], rfl⟩
  | web =>
      dsimp only
      exact keeps_browsing fun address =>
        Act.keeps_beside_of_fst (searches settings.cargo) (host.client.fetch address)

end Registry

namespace Pipeline

open RustScript.Progress

variable {σ α : Type} {stem : String} {frame : Frame (World σ)} {pipeline : Pipeline σ}

/-- What the program keeps beside its cache. -/
theorem collaborates_searches (host : CommandLine.Host σ) (settings : Settings) (stem : String) :
    (CommandLine.pipelineFor host.noting settings).Collaborates stem
      ((((searches settings.cargo).on Prod.fst).on Prod.snd).on World.outside) := by
  refine ⟨fun name => Registry.keeps_remembering (Registry.keeps_resolver settings host name),
    fun store hstore text => ?_, fun store hstore => ?_⟩
  all_goals obtain ⟨base, -, rfl⟩ := Option.mem_map.mp hstore
  · exact Act.keeps_files_outside _ _
  · refine Frame.keeps_bind (Act.keeps_look_outside _ _) fun present => ?_
    split
    · exact Act.keeps_files_outside _ _
    · exact Frame.keeps_pure _

theorem allowsReading_outside (frame : Frame σ) : AllowsReading (frame.on World.outside) where
  now world := frame.refl world.outside
  text path := Frame.keeps_bind (Act.keeps_files_outside frame _) fun content => by
    cases content <;> exact Frame.keeps_pure _

/-! ## The law -/

/-- Neither place is under the other one. -/
def Apart (place other : Place) : Prop := ¬ place <+: other ∧ ¬ other <+: place

instance (place other : Place) : Decidable (Apart place other) :=
  inferInstanceAs (Decidable (_ ∧ _))

/-- Files of projects are as they were. -/
structure LeavesFiles (pipeline : Pipeline σ) (logs : Option Path) (stem : String)
    (before after : FileSystem) : Prop where
  /-- Nothing has changed but the logs of the script, and missing directories on the way to them. -/
  confined : FileSystem.Confined (InLogsOf before.here logs stem)
    (OnWayToLogs before.here logs stem) before after
  /-- Nothing under or above the build root is in logs that are apart from it. -/
  around : (∀ base ∈ logs, Apart ((base.child stem).lands before.here)
      (pipeline.settings.buildRoot.lands before.here)) →
    ∀ place, pipeline.settings.buildRoot.lands before.here <+: place ∨
        place <+: pipeline.settings.buildRoot.lands before.here →
      after.node? place = before.node? place ∨ (OnWayToLogs before.here logs stem place ∧
        before.node? place = none ∧ after.node? place = some .directory)

theorem leavesFiles_of_confined {logs : Option Path} {before after : FileSystem}
    (h : FileSystem.Confined (InLogsOf before.here logs stem) (OnWayToLogs before.here logs stem)
      before after) : pipeline.LeavesFiles logs stem before after := by
  refine ⟨h, fun hapart place hplace => h.nodes place ?_⟩
  rintro ⟨base, hbase, hlogs⟩
  obtain ⟨hunder, habove⟩ := hapart base hbase
  rcases hplace with hplace | hplace
  · exact (List.prefix_or_prefix_of_prefix hlogs hplace).elim hunder habove
  · exact hunder (hlogs.trans hplace)

/-- A call that failed early. -/
structure LeavesAlone (pipeline : Pipeline σ) (logs : Option Path) (script : Script)
    (selection : Selection) (args : List String) (capture : Bool) (tracker : Tracker (Session σ))
    (failure : Failure) : Prop where
  /-- Unless a text has no bytes, files of projects are as they were. -/
  files : ¬ LacksBytes failure → pipeline.LeavesFiles logs script.stem tracker.state.world.files
    (script.call pipeline selection args capture tracker).2.state.world.files
  /-- Nothing has been asked for but crates. -/
  requests : ∃ asked, script.call pipeline.noting selection args capture (tracker.keeping []) =
      ((script.call pipeline selection args capture tracker).1,
        (script.call pipeline selection args capture tracker).2.keeping asked) ∧
    ∀ request ∈ asked, request.IsLookUp

/-- **Nothing is touched before the manifest is complete.** A generation that does not fail to write
has written none of its files, and a call that fails while it analyzes its script or resolves its
manifest has written none either and has asked for nothing but crates; as the program is set up, its
runner has been called for nothing but searches. -/
theorem untouched {pipeline : Pipeline σ} {logs : Option Path} (h : pipeline.WritesOnlyLogs logs) :
    (∀ metadata stem source tracker, tracker.listeners = pipeline.listeners →
      FailsAs BeforeWriting (pipeline.generate metadata stem source tracker).1 →
      pipeline.LeavesFiles logs stem tracker.state.world.files
        (pipeline.generate metadata stem source tracker).2.state.world.files) ∧
    (∀ (script : Script) selection args capture tracker failure, selection.generate = true →
      (script.call pipeline selection args capture tracker).1 = .error failure →
      FailedEarly (script.call pipeline selection args capture tracker).2.records failure →
      pipeline.LeavesAlone logs script selection args capture tracker failure) ∧
    ∀ (host : CommandLine.Host σ) settings (script : Script) selection args capture tracker failure,
      selection.generate = true →
      (script.call (CommandLine.pipelineFor host.noting settings) selection args capture
        tracker).1 = .error failure →
      FailedEarly (script.call (CommandLine.pipelineFor host.noting settings) selection args
        capture tracker).2.records failure →
      ∃ names : List String,
        (script.call (CommandLine.pipelineFor host.noting settings) selection args capture
          tracker).2.state.world.outside.2.1 = tracker.state.world.outside.2.1 ++
            names.map fun name => .command (Registry.searchCall settings.cargo name none) := by
  refine ⟨?_, ?_, ?_⟩
  · intro metadata stem source tracker hlisteners hfails
    exact leavesFiles_of_confined (rel_of_generate_fails (h.collaborates _ stem) Act.keeps_now
      hlisteners hfails rfl).2
  · intro script selection args capture tracker failure hselected hfailure hearly
    refine ⟨fun hbytes => leavesFiles_of_confined (rel_of_call (h.collaborates _ script.stem)
      (allowsReading_files _ _ _) hselected hfailure hearly hbytes rfl).2, ?_⟩
    rw [Script.call_eq _ _ hselected] at hfailure hearly ⊢
    rw [Script.call_eq _ _ hselected]
    exact lookUps_generatingCall (script.traces_analysis pipeline) hfailure hearly hselected
  · intro host settings script selection args capture tracker failure hselected hfailure hearly
    exact rel_of_call_of_files (collaborates_searches host settings script.stem)
      (allowsReading_outside _) hselected hfailure hearly
      (Act.keeps_files_outside _)

/-- A pipeline that keeps its logs beside the build root, and knows no crates. -/
def logsBeside : Pipeline Rehearsal.Trace :=
  ⟨Settings.standard (Path.ofString "work/build"), Rehearsal.fixedResolver [],
    Rehearsal.Cast.plain.runner, some (Log.storeIn (Path.ofString "work/logs")), true⟩

theorem writesOnlyLogs_logsBeside :
    logsBeside.WritesOnlyLogs (some (Path.ofString "work/logs")) := by
  refine ⟨rfl, fun name world => ?_⟩
  rfl

/-- A script whose manifest is cut off. -/
def cutOff : Source.Metadata where
  body := ""
  directives := []
  description := none
  embedded := some "["
  inferred := []
  mainCount := 1
  strategy := .textual
  warnings := []

/-- The failure is one of a manifest. -/
def isOfManifest : Except Failure α → Bool
  | .error (.merge _) => true
  | _ => false

theorem failsAs_of_isOfManifest {result : Except Failure α} (h : isOfManifest result = true) :
    FailsAs BeforeWriting result := by
  rcases result with failure | value
  · cases failure with
    | merge problem => exact ⟨_, rfl, nofun, nofun⟩
    | _ => cases h
  · cases h

theorem generate_cutOff :
    FailsAs BeforeWriting
      (logsBeside.generate cutOff "demo" none (logsBeside.opened (World.untouched .empty))).1 :=
  failsAs_of_isOfManifest (by decide +kernel)

/-- The failure is one of files. -/
def isOfFiles : Except Failure α → Bool
  | .error (.file _ _) => true
  | _ => false

/-- The manifest is cut off, and there is no script file. -/
theorem untouched_logsBeside :
    logsBeside.LeavesFiles (some (Path.ofString "work/logs")) "demo" ⟨[], []⟩
      (logsBeside.generate cutOff "demo" none
        (logsBeside.opened (World.untouched .empty))).2.state.world.files ∧
    ∃ failure, ¬ LacksBytes failure ∧
      logsBeside.LeavesAlone (some (Path.ofString "work/logs")) (.file (Path.ofString "demo.rs"))
        .all [] true (logsBeside.opened (World.untouched .empty)) failure := by
  obtain ⟨hgenerate, hcall, -⟩ := untouched writesOnlyLogs_logsBeside
  refine ⟨hgenerate cutOff "demo" none _ rfl generate_cutOff, ?_⟩
  have hlast : (((Script.file (Path.ofString "demo.rs")).call logsBeside .all [] true
      (logsBeside.opened (World.untouched .empty))).2.records.getLast?.map Record.stage) =
        some "analyze" := by decide +kernel
  obtain ⟨record, hrecord, hstage⟩ := Option.map_eq_some_iff.mp hlast
  have hfails : isOfFiles ((Script.file (Path.ofString "demo.rs")).call logsBeside .all [] true
      (logsBeside.opened (World.untouched .empty))).1 = true := by decide +kernel
  cases hresult : ((Script.file (Path.ofString "demo.rs")).call logsBeside .all [] true
      (logsBeside.opened (World.untouched .empty))).1 with
  | error failure =>
      rw [hresult] at hfails
      refine ⟨failure, ?_, hcall _ .all [] true _ failure rfl hresult
        ⟨record, hrecord, .inl hstage⟩⟩
      rintro ⟨reason, rfl⟩
      cases hfails
  | ok outcome =>
      rw [hresult] at hfails
      cases hfails

/-- The journal makes a directory above the build root, although it is apart from it. -/
theorem journal_makes_directory_above :
    Apart (((Path.ofString "work/logs").child "demo").lands [])
        (logsBeside.settings.buildRoot.lands []) ∧
      ["work"] <+: logsBeside.settings.buildRoot.lands [] ∧
      FailsAs BeforeWriting
        (logsBeside.generate cutOff "demo" none (logsBeside.opened (World.untouched .empty))).1 ∧
      (World.untouched Rehearsal.Trace.empty).files.node? ["work"] = none ∧
      (logsBeside.generate cutOff "demo" none
        (logsBeside.opened (World.untouched .empty))).2.state.world.files.node? ["work"] =
          some .directory := by
  refine ⟨?_, ?_, generate_cutOff, ?_, ?_⟩ <;> decide +kernel

/-- A reply about a crate whose version is no text. -/
def strangeReply : Registry.Reply where
  status := 200
  body := Utf8.encode
    "\x7b\"crate\": \x7b\"name\": \"serde\", \"max_version\": \"1.0\\ud800\"\x7d\x7d"

/-- A pipeline without logs, whose registry on the web has a strange reply about the crate serde. -/
def strangelyAnswered : Pipeline Rehearsal.Trace :=
  ⟨Settings.standard (Path.ofString "work/build"),
    Registry.browsing (Rehearsal.client [("serde", .ok strangeReply)]) Registry.defaultAddress,
    Rehearsal.Cast.plain.runner, none, true⟩

/-- A script that uses the crate serde. -/
def usingSerde : Source.Metadata := { cutOff with embedded := none, inferred := ["serde"] }

/-- The result is that a text has no bytes. -/
def isLackingBytes : Except Failure α → Bool
  | .error (.unwritable (.noBytes _)) => true
  | _ => false

set_option maxRecDepth 10000 in
/-- A manifest whose text has no bytes is given up only when its file is there, and empty. -/
theorem strange_manifest_leaves_project :
    isLackingBytes (strangelyAnswered.generate usingSerde "demo" none
        (strangelyAnswered.opened (World.untouched .empty))).1 = true ∧
      (World.untouched Rehearsal.Trace.empty).files.node? ["work", "build", "demo"] = none ∧
      (strangelyAnswered.generate usingSerde "demo" none
        (strangelyAnswered.opened (World.untouched .empty))).2.state.world.files.node?
          ["work", "build", "demo", "Cargo.toml"] = some (.file []) := by
  refine ⟨?_, ?_, ?_⟩ <;> decide +kernel

end Pipeline

end RustScript
