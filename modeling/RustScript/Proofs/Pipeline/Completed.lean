import RustScript.Proofs.Pipeline.Handover
import RustScript.Proofs.Pipeline.Parallel
import RustScript.Proofs.Pipeline.Tasks

/-!
# What a call has completed when it ends

A call that succeeds has completed every stage that was asked for, and one that fails has left at
least one of them uncompleted (`completed_call_iff`). What a failure says that a command printed is
what the runner gave for a command of the call that did not succeed (`told_of_call`). Either way the
connection to the registry is left to whoever made the call (`call_withClose`).
-/

set_option autoImplicit false

namespace RustScript.Pipeline

open RustScript.Progress

variable {σ α β : Type}

/-! ## Stages that were asked for -/

/-- The stage of this name is selected. -/
inductive Selection.Asks (selection : Selection) : String → Prop
  | generate (h : selection.generate = true) : Asks selection "generate"
  | build (h : selection.build = true) : Asks selection "build"
  | run (h : selection.run = true) : Asks selection "run"

/-- Some stage is selected, and all of them if none was chosen. -/
theorem Selection.exists_asks_orAll (selection : Selection) :
    ∃ stage, selection.orAll.Asks stage := by
  obtain ⟨generate, build, run⟩ := selection
  cases generate with
  | true => exact ⟨_, .generate rfl⟩
  | false =>
      cases build with
      | true => exact ⟨_, .build rfl⟩
      | false => cases run <;> exact ⟨_, .run rfl⟩

/-- A record says that the stage has completed. -/
def Completes (records : List Record) (stage : String) : Prop :=
  ∃ record ∈ records, record.stage = stage ∧ record.status = .completed

/-! ## Plans -/

section

variable {blame : String → Failure → Prop} {plan : List Planned} {episodes : List Episode}

theorem Follows.completes (h : Follows blame plan none episodes) {planned : Planned}
    (hplanned : planned ∈ plan) (hselected : planned.selected = true) :
    Completes (episodes.map Episode.record) planned.stage := by
  generalize hfailure : none = failure at h
  induction h with
  | done => cases hplanned
  | skipped selected h ih =>
      rcases List.mem_cons.mp hplanned with rfl | hrest
      · rw [selected] at hselected
        cases hselected
      · obtain ⟨record, hmem, hrecord⟩ := ih hrest hfailure
        exact ⟨record, List.mem_cons_of_mem _ hmem, hrecord⟩
  | completed selected ended allowed h ih =>
      rcases List.mem_cons.mp hplanned with rfl | hrest
      · exact ⟨_, List.mem_cons_self, ended.stage, ended.status⟩
      · obtain ⟨record, hmem, hrecord⟩ := ih hrest hfailure
        exact ⟨record, List.mem_cons_of_mem _ hmem, hrecord⟩
  | failed => cases hfailure

/-- A plan that failed has completed nothing from one of its stages on. -/
theorem Follows.breaks {failure : Failure} (h : Follows blame plan (some failure) episodes) :
    ∃ front planned rest, plan = front ++ planned :: rest ∧ planned.selected = true ∧
      ∀ stage, Completes (episodes.map Episode.record) stage → stage ∈ front.map Planned.stage := by
  generalize hfailure : some failure = reason at h
  induction h with
  | done => cases hfailure
  | skipped selected h ih =>
      obtain ⟨front, planned, rest, rfl, hselected, hfront⟩ := ih hfailure
      refine ⟨_ :: front, planned, rest, rfl, hselected, ?_⟩
      rintro stage ⟨record, hmem, hstage, hstatus⟩
      rcases List.mem_cons.mp hmem with rfl | hrest
      · cases hstatus
      · exact List.mem_cons_of_mem _ (hfront stage ⟨record, hrest, hstage, hstatus⟩)
  | completed selected ended allowed h ih =>
      obtain ⟨front, planned, rest, rfl, hselected, hfront⟩ := ih hfailure
      refine ⟨_ :: front, planned, rest, rfl, hselected, ?_⟩
      rintro stage ⟨record, hmem, hstage, hstatus⟩
      rcases List.mem_cons.mp hmem with rfl | hrest
      · rw [← hstage, ended.stage]
        exact List.mem_cons_self
      · exact List.mem_cons_of_mem _ (hfront stage ⟨record, hrest, hstage, hstatus⟩)
  | failed selected ended =>
      refine ⟨[], _, _, rfl, selected, ?_⟩
      rintro stage ⟨record, hmem, -, hstatus⟩
      rw [List.map_singleton, List.mem_singleton] at hmem
      rw [hmem, ended.status] at hstatus
      cases hstatus

end

/-! ## Calls -/

variable (pipeline : Pipeline σ) (script : Script) (selection : Selection) (args : List String)
  (capture : Bool)

/-- The stages that were asked for are those of the plan that are selected, but for the analysis. -/
theorem asks_iff_mem_plan {stage : String} :
    selection.Asks stage ↔ stage ≠ "analyze" ∧
      ∃ planned ∈ pipeline.plan script.stem script.source? selection args capture,
        planned.stage = stage ∧ planned.selected = true := by
  obtain ⟨generate, build, run⟩ := selection
  unfold plan beginning
  constructor
  · rintro (h | h | h)
    · obtain rfl : generate = true := h
      exact ⟨by decide, generatePlan true, by simp, rfl, rfl⟩
    · exact ⟨by decide, _, List.mem_append_right _ List.mem_cons_self, rfl, h⟩
    · exact ⟨by decide, _,
        List.mem_append_right _ (List.mem_cons_of_mem _ List.mem_cons_self), rfl, h⟩
  · rintro ⟨hstage, planned, hmem, rfl, hselected⟩
    rcases List.mem_append.mp hmem with hbegin | hcommand
    · cases generate with
      | true =>
          rcases List.mem_pair.mp hbegin with rfl | rfl
          · exact absurd rfl hstage
          · exact .generate rfl
      | false =>
          rw [List.mem_singleton.mp hbegin] at hselected
          cases hselected
    · rcases List.mem_pair.mp hcommand with rfl | rfl
      · exact .build hselected
      · exact .run hselected

/-- The stages of a plan have different names. -/
theorem nodup_plan :
    ((pipeline.plan script.stem script.source? selection args capture).map Planned.stage).Nodup := by
  unfold plan beginning
  cases selection.generate with
  | true => exact (by decide : ["analyze", "generate", "build", "run"].Nodup)
  | false => exact (by decide : ["generate", "build", "run"].Nodup)

/-- Behind the analysis of a script its project is generated. -/
theorem asks_of_analyze {front rest : List Planned} {planned : Planned}
    (h : pipeline.plan script.stem script.source? selection args capture = front ++ planned :: rest)
    (hstage : planned.stage = "analyze") : front = [] ∧ selection.Asks "generate" := by
  unfold plan beginning at h
  cases hgenerate : selection.generate with
  | true =>
      refine ⟨?_, .generate hgenerate⟩
      cases front with
      | nil => rfl
      | cons first front =>
          rw [hgenerate, if_pos rfl] at h
          have hmem : planned ∈ front ++ planned :: rest :=
            List.mem_append_right front List.mem_cons_self
          rw [show front ++ planned :: rest = _ from (List.cons.inj h).2.symm] at hmem
          have hnames : planned.stage ∈ ["generate", "build", "run"] :=
            List.mem_map.mpr ⟨planned, hmem, rfl⟩
          rw [hstage] at hnames
          exact absurd hnames (by decide)
  | false =>
      rw [hgenerate, if_neg Bool.false_ne_true] at h
      have hnames : planned.stage ∈ ["generate", "build", "run"] :=
        List.mem_map.mpr ⟨planned, h ▸ List.mem_append_right front List.mem_cons_self, rfl⟩
      rw [hstage] at hnames
      exact absurd hnames (by decide)

theorem skip_records (stage reason : String) (tracker : Tracker (Session σ)) :
    (skip stage reason tracker).2.records = tracker.records ++ [.skip stage reason] := by
  obtain ⟨_, -, _, hrecords, rfl, -⟩ := notes_skip stage reason tracker []
  exact hrecords

/-- A call goes through its plan, unless the project that it is to go on with cannot be taken up. -/
theorem follows_call (tracker : Tracker (Session σ)) :
    (∃ episodes,
      (script.call pipeline selection args capture tracker).2.records =
        episodes.map Episode.record ∧
      Follows pipeline.Charged (pipeline.plan script.stem script.source? selection args capture)
        (failureOf (script.call pipeline selection args capture tracker).1) episodes) ∨
    (∃ failure, (script.call pipeline selection args capture tracker).1 = .error failure) ∧
      (script.call pipeline selection args capture tracker).2.records =
        [.skip "generate" notRequested] := by
  cases hgenerate : selection.generate with
  | true =>
      rw [Script.call_eq pipeline script hgenerate]
      obtain ⟨episodes, htold⟩ := toldBy_generatingCall pipeline script.stem script.source? hgenerate
        args capture (script.traces_analysis pipeline) tracker
      exact .inl ⟨episodes, htold.records, htold.follows⟩
  | false =>
      have hbegin : (script.beginning pipeline tracker).2.records = [] := by cases script <;> rfl
      have hskip := skip_records "generate" notRequested (script.beginning pipeline tracker).2
      rw [hbegin, List.nil_append] at hskip
      rw [script.call_of_resume hgenerate, proceed_apply, resume_apply]
      cases hfound : pipeline.foundProject script.stem script.source?
          ((skip "generate" notRequested (script.beginning pipeline tracker).2).2.state.world.files.find?
            (pipeline.newProject script.stem script.source?).manifestPath) with
      | error failure => exact .inr ⟨⟨failure, rfl⟩, hskip⟩
      | ok project =>
          have hplace : Outcome.IsAt (pipeline.newProject script.stem script.source?)
              ⟨project, none, none, none⟩ := sharesPlace_foundProject hfound
          obtain ⟨_, -, episodes, hrecords, -, hfollows, -⟩ := traces_buildAndRun pipeline selection
            args capture hplace (skip "generate" notRequested (script.beginning pipeline tracker).2).2 []
          refine .inl ⟨⟨.skip "generate" notRequested, []⟩ :: episodes, ?_, ?_⟩
          · exact hrecords.trans (congrArg (· ++ _) hskip)
          · unfold plan beginning
            rw [hgenerate, if_neg Bool.false_ne_true]
            have hselected : (generatePlan false).selected = false := rfl
            exact .skipped hselected hfollows

/-- What follows the plan of a call has completed every stage that was asked for exactly if it did
not fail. -/
theorem completes_iff_of_follows {result : Except Failure Outcome} {episodes : List Episode}
    (h : Follows pipeline.Charged (pipeline.plan script.stem script.source? selection args capture)
      (failureOf result) episodes) :
    (∀ stage, selection.Asks stage → Completes (episodes.map Episode.record) stage) ↔
      ∃ outcome, result = .ok outcome := by
  cases result with
  | ok outcome =>
      refine iff_of_true (fun stage hstage => ?_) ⟨outcome, rfl⟩
      obtain ⟨-, planned, hmem, rfl, hselected⟩ :=
        (asks_iff_mem_plan pipeline script selection args capture).mp hstage
      exact Follows.completes h hmem hselected
  | error failure =>
      refine iff_of_false (fun hall => ?_) fun ⟨_, hsuccess⟩ => by cases hsuccess
      obtain ⟨front, planned, rest, hplan, hselected, hfront⟩ := Follows.breaks h
      by_cases hanalyze : planned.stage = "analyze"
      · -- nothing has been completed before the analysis
        obtain ⟨rfl, hasks⟩ := asks_of_analyze pipeline script selection args capture hplan hanalyze
        exact absurd (hfront _ (hall _ hasks)) List.not_mem_nil
      · have hasks : selection.Asks planned.stage :=
          (asks_iff_mem_plan pipeline script selection args capture).mpr
            ⟨hanalyze, planned, by rw [hplan]; simp, rfl, hselected⟩
        have hnodup := nodup_plan pipeline script selection args capture
        rw [hplan, List.map_append, List.map_cons] at hnodup
        exact (List.nodup_append.mp hnodup).2.2 _ (hfront _ (hall _ hasks)) _ List.mem_cons_self rfl

/-- **A call succeeds exactly if it completes every stage that was asked for**, where there is one. -/
theorem completed_call_iff (h : ∃ stage, selection.Asks stage) (tracker : Tracker (Session σ)) :
    (∀ stage, selection.Asks stage →
      Completes (script.call pipeline selection args capture tracker).2.records stage) ↔
    ∃ outcome, (script.call pipeline selection args capture tracker).1 = .ok outcome := by
  rcases follows_call pipeline script selection args capture tracker with
    ⟨episodes, hrecords, hfollows⟩ | ⟨⟨failure, hfailure⟩, hrecords⟩
  · rw [hrecords]
    exact completes_iff_of_follows pipeline script selection args capture hfollows
  · rw [hrecords, hfailure]
    refine iff_of_false (fun hall => ?_) fun ⟨_, hsuccess⟩ => by cases hsuccess
    obtain ⟨stage, hstage⟩ := h
    obtain ⟨record, hmem, -, hstatus⟩ := hall stage hstage
    rw [List.mem_singleton.mp hmem] at hstatus
    cases hstatus

/-! ## Failures -/

/-- If the action fails, its failure is of this kind. -/
def FailsOnly (kind : Failure → Prop) (action : Run σ (Except Failure α)) : Prop :=
  ∀ tracker failure, (action tracker).1 = .error failure → kind failure

section

variable {kind : Failure → Prop}

theorem failsOnly_bind {action : Run σ β} {next : β → Run σ (Except Failure α)}
    (h : ∀ value, FailsOnly kind (next value)) : FailsOnly kind (action >>= next) := by
  intro tracker
  rw [Frame.stateBind_apply]
  exact h _ _

theorem failsOnly_proceed {action : Run σ (Except Failure β)} {next : β → Run σ (Except Failure α)}
    (haction : FailsOnly kind action)
    (hnext : ∀ tracker value, (action tracker).1 = .ok value → FailsOnly kind (next value)) :
    FailsOnly kind (proceed action next) := by
  intro tracker failure h
  rw [proceed_apply] at h
  cases hresult : (action tracker).1 with
  | error first =>
      rw [hresult] at h
      rw [← Except.error.inj h]
      exact haction tracker first hresult
  | ok value =>
      rw [hresult] at h
      exact hnext tracker value hresult _ failure h

theorem failsOnly_onWorld {action : Act σ (Except Failure α)}
    (h : ∀ world failure, (action world).1 = .error failure → kind failure) :
    FailsOnly kind (onWorld action) := by
  intro tracker failure hfailure
  rw [onWorld_apply] at hfailure
  exact h _ failure hfailure

theorem failsOnly_track {stage : String} {body : Nat → Run σ (Except Failure α)}
    (h : ∀ place, FailsOnly kind (body place)) :
    FailsOnly kind (track now stage Failure.message body) := by
  intro tracker failure hfailure
  unfold track at hfailure
  rw [Frame.stateBind_apply, Frame.stateBind_apply, Frame.stateBind_apply,
    Frame.stateBind_apply] at hfailure
  exact h _ _ failure hfailure

/-- What follows an action and keeps its result fails as the action does. -/
theorem failsOnly_followed {action : Run σ (Except Failure α)}
    {next : Except Failure α → Run σ (Except Failure α)} (h : FailsOnly kind action)
    (hnext : ∀ result tracker, (next result tracker).1 = result) :
    FailsOnly kind (action >>= next) := by
  intro tracker failure hfailure
  rw [Frame.stateBind_apply, hnext] at hfailure
  exact h tracker failure hfailure

theorem failsOnly_inStage {stage : String} {project : Project}
    {body : Run σ (Except Failure (Step α))} (h : FailsOnly kind body)
    (enter : Project → α → β) (stem : String) :
    FailsOnly kind (do
      about stem
      let reached ← inStage stage project body
      return reached.2.map (enter reached.1)) := by
  refine failsOnly_bind fun _ tracker failure hfailure => ?_
  rw [Frame.stateBind_apply, inStage_run] at hfailure
  cases hresult : (body (opening stage tracker).2).1 with
  | error other =>
      rw [hresult] at hfailure
      rw [← Except.error.inj hfailure]
      exact h _ other hresult
  | ok step =>
      rw [hresult] at hfailure
      cases hfailure

theorem failsOnly_commandStep {stem stage : String} {needed : Path} {missing : Failure}
    {call : Command.Call} {fault : Command.Fault → Failure} {failed : Command.Output → Failure}
    {done : Command.Output → Step Command.Output} (hmissing : kind missing)
    (hfault : ∀ problem, kind (fault problem))
    (hfailed : ∀ world output, (pipeline.runner call world).1 = .ok output → output.ok = false →
      kind (failed output)) :
    FailsOnly kind
      (pipeline.commandStep stem stage needed missing call fault failed done) := by
  intro tracker failure h
  rw [commandStep_apply] at h
  cases hexists : tracker.state.world.files.exists needed with
  | false =>
      rw [hexists, if_neg Bool.false_ne_true] at h
      rw [← Except.error.inj h]
      exact hmissing
  | true =>
      rw [hexists, if_pos rfl] at h
      rcases hanswer : pipeline.runner call tracker.state.world with ⟨problem | output, world⟩
      · rw [hanswer] at h
        rw [← Except.error.inj h]
        exact hfault problem
      · rw [hanswer] at h
        dsimp only at h
        cases hok : output.ok with
        | true =>
            rw [hok, if_pos rfl] at h
            cases h
        | false =>
            rw [hok, if_neg Bool.false_ne_true] at h
            rw [← Except.error.inj h]
            exact hfailed _ output (congrArg Prod.fst hanswer) hok

end

/-- What a failure of a call says that a command printed is what the runner gave for the command of
the project, and the command did not succeed. -/
inductive Told (project : Project) : Failure → Prop
  | build {name : String} {world : World σ} {output : Command.Output}
      (answered : (pipeline.runner (buildCall pipeline.settings project) world).1 = .ok output)
      (failed : output.ok = false) : Told project (.build (.failed name output))
  | run {name : String} {world : World σ} {output : Command.Output}
      (answered :
        (pipeline.runner (runCall pipeline.settings project args capture) world).1 = .ok output)
      (failed : output.ok = false) : Told project (.run (.exited name output))
  | silent {failure : Failure} (h : failure.output? = none) : Told project failure

section

variable {args capture} {project : Project} {outcome : Outcome} (hplace : outcome.IsAt project)

include hplace

theorem told_buildIf (selected : Bool) :
    FailsOnly (Told pipeline args capture project) (pipeline.buildIf selected outcome) := by
  cases selected with
  | false => exact failsOnly_bind fun _ _ _ h => by cases h
  | true =>
      rw [buildIf_true, buildStep_eq]
      refine failsOnly_inStage (failsOnly_commandStep pipeline (Told.silent rfl) (fun problem => ?_) ?_)
        _ _
      · cases problem <;> exact Told.silent rfl
      · intro world output answered failed
        rw [buildCall_congr _ hplace] at answered
        exact .build answered failed

theorem told_runIf (selected : Bool) :
    FailsOnly (Told pipeline args capture project)
      (pipeline.runIf selected args capture outcome) := by
  cases selected with
  | false => exact failsOnly_bind fun _ _ _ h => by cases h
  | true =>
      rw [runIf_true, runStep_eq]
      refine failsOnly_inStage (failsOnly_commandStep pipeline (Told.silent rfl) (fun problem => ?_) ?_)
        _ _
      · cases problem <;> exact Told.silent rfl
      · intro world output answered failed
        rw [runCall_congr _ hplace] at answered
        exact .run answered failed

theorem told_buildAndRun :
    FailsOnly (Told pipeline args capture project)
      (pipeline.buildAndRun selection args capture outcome) := by
  rw [buildAndRun_eq]
  refine failsOnly_proceed (told_buildIf pipeline hplace _) fun tracker built hbuilt => ?_
  obtain ⟨_, -, _, -, -, -, hgives⟩ := traces_buildIf pipeline hplace selection.build tracker []
  exact told_runIf pipeline (hgives built hbuilt) _

end

/-- The failures of an analysis are those of its stage. -/
theorem failsOnly_analysis :
    FailsOnly (PutDown "analyze") (script.analysis pipeline) := by
  cases script with
  | file path =>
      refine failsOnly_bind fun _ => failsOnly_track fun place => failsOnly_followed ?_ ?_
      · exact failsOnly_onWorld fun world => (analyzed_analyzeFile pipeline path world).blamed
      · intro result tracker
        cases result <;> rfl
  | text content =>
      refine failsOnly_bind fun _ => failsOnly_track fun place _ => ?_
      exact (analyzed_analyzeText pipeline content).blamed

theorem output?_resolveManifest {metadata : Source.Metadata} {project : Project} {world : World σ}
    {failure : Failure}
    (h : (pipeline.resolveManifest metadata project world).1 = .error failure) :
    failure.output? = none := by
  unfold resolveManifest at h
  rw [Frame.stateBind_apply] at h
  rcases hmerge : (Manifest.merge pipeline.resolver pipeline.settings.packageVersion
    pipeline.settings.edition metadata project.stem project.generatedSourcePath world).1 with
    ⟨noted, error | manifest⟩
  · rw [hmerge] at h
    rw [← Except.error.inj h]
    rfl
  · rw [hmerge] at h
    have hwrite : ((manifest.write.mapError Failure.unwritable).bind fun text =>
      Except.ok (noted, manifest, text)) = .error failure := h
    cases htext : manifest.write with
    | error reason =>
        rw [htext] at hwrite
        rw [← Except.error.inj hwrite]
        rfl
    | ok text =>
        rw [htext] at hwrite
        cases hwrite

theorem failsOnly_generateStep (metadata : Source.Metadata) (project : Project) :
    FailsOnly (fun failure => failure.output? = none) (pipeline.generateStep metadata project) := by
  intro tracker failure h
  rw [generateStep_apply] at h
  rcases hresolve : pipeline.resolveManifest metadata project tracker.state.world with
    ⟨reason | ⟨noted, manifest, text⟩, world⟩
  · rw [hresolve] at h
    dsimp only at h
    obtain hfails | ⟨error, hfails⟩ := giveUp_fails metadata project reason (inWorld tracker world)
    · rw [hfails] at h
      rw [← Except.error.inj h]
      exact output?_resolveManifest pipeline (congrArg Prod.fst hresolve)
    · rw [hfails] at h
      rw [← Except.error.inj h]
      rfl
  · rw [hresolve] at h
    dsimp only at h
    rcases hwrite : (writeProject project (generatedSource noted) text).run world.files with
      ⟨error | written, files⟩
    · rw [hwrite] at h
      rw [← Except.error.inj h]
      rfl
    · rw [hwrite] at h
      cases h

theorem told_entering :
    FailsOnly (Told pipeline args capture (pipeline.newProject script.stem script.source?))
      (script.entering pipeline) := by
  refine failsOnly_proceed (fun tracker failure h => Told.silent ?_) fun _ metadata _ => ?_
  · have hstage := failsOnly_analysis pipeline script tracker failure h
    rcases hstage with hstage | hescapes
    · cases failure with
      | build problem => exact absurd (Option.some.inj hstage) (by decide)
      | run problem => exact absurd (Option.some.inj hstage) (by decide)
      | _ => rfl
    · exact output?_of_escapes hescapes
  · rw [generateFrom_ok]
    exact failsOnly_inStage (fun tracker failure h =>
      Told.silent (failsOnly_generateStep pipeline metadata _ tracker failure h)) _ _

theorem output?_manifestAt {path : Path} {node : Node} {failure : Failure}
    (h : manifestAt path node = .error failure) : failure.output? = none := by
  unfold manifestAt at h
  cases htext : textAt path node with
  | error error =>
      rw [htext] at h
      rw [← Except.error.inj h]
      rfl
  | ok text =>
      rw [htext] at h
      have hload : (Manifest.read text).mapError Failure.load = .error failure := h
      cases hread : Manifest.read text with
      | error error =>
          rw [hread] at hload
          rw [← Except.error.inj hload]
          rfl
      | ok manifest =>
          rw [hread] at hload
          cases hload

theorem output?_foundProject {node : Option Node} {failure : Failure}
    (h : pipeline.foundProject script.stem script.source? node = .error failure) :
    failure.output? = none := by
  cases node with
  | none => cases h
  | some node =>
      have hfound : (manifestAt (pipeline.newProject script.stem script.source?).manifestPath
        node).map (pipeline.leftProject script.stem script.source?) = .error failure := h
      cases hmanifest : manifestAt (pipeline.newProject script.stem script.source?).manifestPath
          node with
      | error other =>
          rw [hmanifest] at hfound
          rw [← Except.error.inj hfound]
          exact output?_manifestAt hmanifest
      | ok manifest =>
          rw [hmanifest] at hfound
          cases hfound

theorem told_resume :
    FailsOnly (Told pipeline args capture (pipeline.newProject script.stem script.source?))
      (pipeline.resume script.stem script.source?) := by
  intro tracker failure h
  rw [resume_apply] at h
  cases hfound : pipeline.foundProject script.stem script.source?
      ((skip "generate" notRequested tracker).2.state.world.files.find?
        (pipeline.newProject script.stem script.source?).manifestPath) with
  | error other =>
      rw [hfound] at h
      rw [← Except.error.inj h]
      exact .silent (output?_foundProject pipeline script hfound)
  | ok project =>
      rw [hfound] at h
      cases h

theorem isAt_entering {tracker : Tracker (Session σ)} {made : Outcome}
    (h : (script.entering pipeline tracker).1 = .ok made) :
    made.IsAt (pipeline.newProject script.stem script.source?) := by
  obtain ⟨_, -, _, -, -, -, hgives⟩ := traces_proceed (script.traces_analysis pipeline tracker [])
    fun metadata hfragment => traces_generateFrom pipeline script.stem script.source? hfragment
  exact hgives made h

theorem isAt_resume {tracker : Tracker (Session σ)} {made : Outcome}
    (h : (pipeline.resume script.stem script.source? tracker).1 = .ok made) :
    made.IsAt (pipeline.newProject script.stem script.source?) := by
  rw [resume_apply] at h
  cases hfound : pipeline.foundProject script.stem script.source?
      ((skip "generate" notRequested tracker).2.state.world.files.find?
        (pipeline.newProject script.stem script.source?).manifestPath) with
  | error failure =>
      rw [hfound] at h
      cases h
  | ok project =>
      rw [hfound] at h
      rw [← Except.ok.inj h]
      exact sharesPlace_foundProject hfound

/-- **What a failed command printed** is what a failure of a call says it did. -/
theorem told_of_call :
    FailsOnly (Told pipeline args capture (pipeline.newProject script.stem script.source?))
      (script.call pipeline selection args capture) := by
  intro tracker
  cases hgenerate : selection.generate with
  | true =>
      rw [script.call_of_generate pipeline args capture tracker hgenerate]
      exact failsOnly_proceed (told_entering pipeline script args capture)
        (fun _ _ hmade => told_buildAndRun pipeline selection (isAt_entering pipeline script hmade)) _
  | false =>
      rw [script.call_of_resume hgenerate]
      exact failsOnly_proceed (told_resume pipeline script args capture)
        (fun _ _ hmade => told_buildAndRun pipeline selection (isAt_resume pipeline script hmade)) _

/-! ## The connection to the registry -/

/-- The pipeline with another way to give up the connection to the registry. -/
def withClose (pipeline : Pipeline σ) (close : Act σ Unit) : Pipeline σ :=
  { pipeline with resolver := { pipeline.resolver with close } }

section

variable (close : Act σ Unit)

theorem lookUpAll_withClose (names : List String) :
    Manifest.lookUpAll (pipeline.withClose close).resolver names =
      Manifest.lookUpAll pipeline.resolver names := by
  induction names with
  | nil => rfl
  | cons name rest ih =>
      unfold Manifest.lookUpAll
      rw [ih]
      rfl

theorem resolveManifest_withClose (metadata : Source.Metadata) (project : Project) :
    (pipeline.withClose close).resolveManifest metadata project =
      pipeline.resolveManifest metadata project := by
  unfold resolveManifest Manifest.merge
  simp only [lookUpAll_withClose]
  rfl

theorem generateFrom_withClose (stem : String) (source : Option Path)
    (analysis : Except Failure Source.Metadata) :
    (pipeline.withClose close).generateFrom stem source analysis =
      pipeline.generateFrom stem source analysis := by
  unfold generateFrom generate generateStep
  simp only [resolveManifest_withClose]
  rfl

/-- **A call does not give up the connection to the registry**: it does the same whatever giving it
up would do. -/
theorem call_withClose :
    script.call (pipeline.withClose close) selection args capture =
      script.call pipeline selection args capture := by
  cases script with
  | file path =>
      show (pipeline.withClose close).runScript path selection args capture =
        pipeline.runScript path selection args capture
      unfold runScript
      simp only [generateFrom_withClose]
      rfl
  | text content =>
      show (pipeline.withClose close).runText content selection args capture =
        pipeline.runText content selection args capture
      unfold runText
      simp only [generateFrom_withClose]
      rfl

end

end RustScript.Pipeline
