import RustScript.Proofs.Pipeline.Timed

/-!
# One clock

The seconds that a stage took are measured once, when its record is finished. The project, the output
of the stage and the timings of the records say the same: after a call that succeeds the project has
the seconds of exactly the stages that were completed, and whatever is built and run one after the
other, the project has for each of these stages what its latest record says (`one_clock`).
-/

set_option autoImplicit false

namespace RustScript.Pipeline

open RustScript.Progress

variable {σ α : Type}

/-! ## Calls -/

/-- What the record of a stage says after a call that went well: the stage was completed in some time,
or it was left out. -/
inductive Over : String × Bool → Record → Prop
  | completed {stage : String} {record : Record} (hstage : record.stage = stage)
      (hstatus : record.status = .completed) (helapsed : record.elapsed.isSome = true) :
      Over (stage, true) record
  | leftOut {stage : String} : Over (stage, false) (.skip stage notRequested)

theorem Over.stage {planned : String × Bool} {record : Record} (h : Over planned record) :
    record.stage = planned.1 := by
  cases h with
  | completed hstage => exact hstage
  | leftOut => rfl

/-- A stage adds its seconds to the timings exactly if it was completed. -/
theorem Over.timing?_eq_some_iff {planned : String × Bool} {record : Record}
    (h : Over planned record) (stage : String) (seconds : Binary64) :
    record.timing? = some (stage, seconds) ↔
      record.stage = stage ∧ record.status = .completed ∧ record.elapsed = some seconds := by
  unfold Record.timing?
  cases h with
  | completed hstage hstatus helapsed =>
      rw [if_pos (by simp [Record.finished, hstatus]), Option.map_eq_some_iff]
      constructor
      · rintro ⟨_, helapsed, hpair⟩
        obtain ⟨rfl, rfl⟩ := Prod.mk.inj hpair
        exact ⟨rfl, hstatus, helapsed⟩
      · rintro ⟨rfl, -, helapsed⟩
        exact ⟨seconds, helapsed, rfl⟩
  | leftOut => simp [Record.skip, Record.finished]

/-- The records are those of the analysis, if there was one, and of the stages that were planned, and
the timings are those of the latter. -/
def Accounts (analyzed : List Record) (plan : List (String × Bool)) (records : List Record)
    (timings : Entries Binary64) : Prop :=
  ∃ own, records = analyzed ++ own ∧ List.Forall₂ Over plan own ∧
    timings = own.filterMap Record.timing?

section

variable {analyzed records : List Record} {plan : List (String × Bool)}
  {timings : Entries Binary64} {stage : String}

theorem accounts_nil (analyzed : List Record) : Accounts analyzed [] analyzed [] :=
  ⟨[], (List.append_nil analyzed).symm, .nil, rfl⟩

theorem planned_of_mem {own : List Record} (h : List.Forall₂ Over plan own) {record : Record}
    (hrecord : record ∈ own) : ∃ planned, Over planned record := by
  induction h with
  | nil => cases hrecord
  | cons hover _ ih =>
      obtain rfl | hlater := List.mem_cons.mp hrecord
      · exact ⟨_, hover⟩
      · exact ih hlater

/-- A stage that is left out has no time. -/
theorem Accounts.skip (h : Accounts analyzed plan records timings) (stage : String) :
    Accounts analyzed (plan ++ [(stage, false)]) (records ++ [.skip stage notRequested]) timings := by
  obtain ⟨own, rfl, hover, rfl⟩ := h
  refine ⟨own ++ [.skip stage notRequested], List.append_assoc .., ?_, ?_⟩
  · exact List.rel_append hover (.cons .leftOut .nil)
  · rw [List.filterMap_append]
    exact (List.append_nil _).symm

theorem stages_of_over {own : List Record} (h : List.Forall₂ Over plan own) :
    own.map Record.stage = plan.map Prod.fst := by
  induction h with
  | nil => rfl
  | cons hover _ ih => rw [List.map_cons, List.map_cons, hover.stage, ih]

/-- The seconds of a stage that was not there yet come last. -/
theorem Accounts.times (h : Accounts analyzed plan records timings)
    (hnew : stage ∉ plan.map Prod.fst) {value : α} {seconds : Binary64} {after : List Record}
    (htimes : Times stage (.ok value) seconds records after) :
    Accounts analyzed (plan ++ [(stage, true)]) after (timings.put stage seconds) := by
  obtain ⟨own, rfl, hover, rfl⟩ := h
  obtain ⟨record, rfl, hended, helapsed⟩ := htimes
  have hrecord : Over (stage, true) record :=
    .completed hended.stage hended.status (by rw [helapsed]; rfl)
  have htiming : record.timing? = some (stage, seconds) :=
    (hrecord.timing?_eq_some_iff stage seconds).mpr ⟨hended.stage, hended.status, helapsed⟩
  refine ⟨own ++ [record], List.append_assoc .., List.rel_append hover (.cons hrecord .nil), ?_⟩
  rw [List.filterMap_append, Entries.put_of_new]
  · simp [htiming]
  · intro entry hentry hsame
    obtain ⟨other, hother, hadds⟩ := List.mem_filterMap.mp hentry
    have hstage : other.stage = entry.1 := by
      unfold Record.timing? at hadds
      split at hadds
      · obtain ⟨_, -, rfl⟩ := Option.map_eq_some_iff.mp hadds
        rfl
      · cases hadds
    apply hnew
    rw [← stages_of_over hover, ← hsame, ← hstage]
    exact List.mem_map_of_mem hother

end

/-- There is an output exactly if the stage was selected, with the seconds that the timings say. -/
def OutputOf (stage : String) (selected : Bool) (timings : Entries Binary64)
    (output? : Option StageOutput) : Prop :=
  output?.isSome = selected ∧ ∀ output ∈ output?,
    output.elapsed.isSome = true ∧ output.elapsed = timings.get? stage

theorem outputOf_of_times {stage : String} {timings : Entries Binary64} {seconds : Binary64}
    {output : StageOutput} (h : output.elapsed = some seconds) :
    OutputOf stage true (timings.put stage seconds) (some output) := by
  refine ⟨rfl, ?_⟩
  intro other hother
  obtain rfl := Option.some.inj hother
  rw [h, Entries.get?_put, if_pos rfl]
  exact ⟨rfl, rfl⟩

section

variable {pipeline : Pipeline σ} {tracker : Tracker (Session σ)} {analyzed : List Record}
  {plan : List (String × Bool)} {outcome made : Outcome} {selected : Bool}

/-- A command of a call that goes well. -/
theorem Accounts.output {stage : String}
    (h : Accounts analyzed plan tracker.records outcome.project.timings)
    (hnew : stage ∉ plan.map Prod.fst)
    {reached : (Project × Except Failure StageOutput) × Tracker (Session σ)} {seconds : Binary64}
    (htimes : TimesOutput stage outcome.project tracker.records reached seconds)
    {output : StageOutput} (houtput : reached.1.2 = .ok output) :
    Accounts analyzed (plan ++ [(stage, true)]) reached.2.records reached.1.1.timings ∧
      OutputOf stage true reached.1.1.timings (some output) := by
  have hrecord := htimes.record
  rw [houtput] at hrecord
  rw [htimes.project]
  exact ⟨h.times hnew hrecord, outputOf_of_times (htimes.output output houtput)⟩

theorem accounts_buildIf (h : Accounts analyzed plan tracker.records outcome.project.timings)
    (hnew : "build" ∉ plan.map Prod.fst) (hnone : outcome.buildOutput = none)
    (hmade : (pipeline.buildIf selected outcome tracker).1 = .ok made) :
    Accounts analyzed (plan ++ [("build", selected)])
        (pipeline.buildIf selected outcome tracker).2.records made.project.timings ∧
      OutputOf "build" selected made.project.timings made.buildOutput ∧
      made.runOutput = outcome.runOutput := by
  cases selected with
  | false =>
      obtain rfl : outcome = made := Except.ok.inj hmade
      have hrecords : (pipeline.buildIf false outcome tracker).2.records =
          tracker.records ++ [.skip "build" notRequested] := skip_records "build" notRequested tracker
      rw [hrecords, hnone]
      exact ⟨h.skip "build", ⟨rfl, nofun⟩, rfl⟩
  | true =>
      obtain ⟨seconds, htimes⟩ := timesOutput_build pipeline outcome.project tracker
      have hresult : (pipeline.build outcome.project tracker).1.2.map (fun output =>
          { outcome with
            project := (pipeline.build outcome.project tracker).1.1
            buildOutput := some output }) = .ok made := hmade
      cases hbuilt : (pipeline.build outcome.project tracker).1.2 with
      | error failure =>
          rw [hbuilt] at hresult
          cases hresult
      | ok output =>
          rw [hbuilt] at hresult
          obtain rfl := Except.ok.inj hresult
          obtain ⟨haccounts, houtput⟩ := h.output hnew htimes hbuilt
          exact ⟨haccounts, houtput, rfl⟩

theorem accounts_runIf {args : List String} {capture : Bool}
    (h : Accounts analyzed plan tracker.records outcome.project.timings)
    (hnew : "run" ∉ plan.map Prod.fst) (hnone : outcome.runOutput = none)
    (hmade : (pipeline.runIf selected args capture outcome tracker).1 = .ok made) :
    Accounts analyzed (plan ++ [("run", selected)])
        (pipeline.runIf selected args capture outcome tracker).2.records made.project.timings ∧
      OutputOf "run" selected made.project.timings made.runOutput ∧
      made.buildOutput = outcome.buildOutput ∧
      made.project.timings.get? "build" = outcome.project.timings.get? "build" := by
  cases selected with
  | false =>
      obtain rfl : outcome = made := Except.ok.inj hmade
      have hrecords : (pipeline.runIf false args capture outcome tracker).2.records =
          tracker.records ++ [.skip "run" notRequested] := skip_records "run" notRequested tracker
      rw [hrecords, hnone]
      exact ⟨h.skip "run", ⟨rfl, nofun⟩, rfl, rfl⟩
  | true =>
      obtain ⟨seconds, htimes⟩ := timesOutput_run pipeline outcome.project args capture tracker
      have hresult : (pipeline.run outcome.project args capture tracker).1.2.map (fun output =>
          { outcome with
            project := (pipeline.run outcome.project args capture tracker).1.1
            runOutput := some output }) = .ok made := hmade
      cases hran : (pipeline.run outcome.project args capture tracker).1.2 with
      | error failure =>
          rw [hran] at hresult
          cases hresult
      | ok output =>
          rw [hran] at hresult
          obtain rfl := Except.ok.inj hresult
          obtain ⟨haccounts, houtput⟩ := h.output hnew htimes hran
          refine ⟨haccounts, houtput, rfl, ?_⟩
          show (pipeline.run outcome.project args capture tracker).1.1.timings.get? "build" = _
          rw [htimes.project, Entries.get?_put, if_neg (by decide)]

/-- What a call has done before it builds. -/
structure Entered (analyzed : List Record) (selected : Bool) (outcome : Outcome)
    (records : List Record) : Prop where
  accounts : Accounts analyzed [("generate", selected)] records outcome.project.timings
  build : outcome.buildOutput = none
  run : outcome.runOutput = none

/-- What a call that went well leaves. -/
structure Accounted (analyzed : List Record) (selection : Selection) (outcome : Outcome)
    (records : List Record) : Prop where
  accounts : Accounts analyzed
    [("generate", selection.generate), ("build", selection.build), ("run", selection.run)] records
    outcome.project.timings
  build : OutputOf "build" selection.build outcome.project.timings outcome.buildOutput
  run : OutputOf "run" selection.run outcome.project.timings outcome.runOutput

theorem accounted_buildAndRun {selection : Selection} {args : List String} {capture : Bool}
    (h : Entered analyzed selection.generate outcome tracker.records)
    (hmade : (pipeline.buildAndRun selection args capture outcome tracker).1 = .ok made) :
    Accounted analyzed selection made
      (pipeline.buildAndRun selection args capture outcome tracker).2.records := by
  rw [buildAndRun_eq, proceed_apply] at hmade ⊢
  cases hbuilt : (pipeline.buildIf selection.build outcome tracker).1 with
  | error failure =>
      rw [hbuilt] at hmade
      cases hmade
  | ok built =>
      rw [hbuilt] at hmade
      obtain ⟨haccounts, hbuild, hnone⟩ :=
        accounts_buildIf h.accounts (by decide : "build" ∉ ["generate"]) h.build hbuilt
      obtain ⟨haccounts, hrun, hsame, htime⟩ := accounts_runIf haccounts
        (by decide : "run" ∉ ["generate", "build"]) (hnone.trans h.run) hmade
      refine ⟨haccounts, ?_, hrun⟩
      rw [hsame]
      unfold OutputOf at hbuild ⊢
      rw [htime]
      exact hbuild

end

/-! ## Before building -/

section

variable {pipeline : Pipeline σ} {script : Script} {stem : String} {source : Option Path}
  {tracker : Tracker (Session σ)} {outcome : Outcome}

theorem timings_foundProject {node : Option Node} {project : Project}
    (h : pipeline.foundProject stem source node = .ok project) : project.timings = [] := by
  cases node with
  | none =>
      rw [← Except.ok.inj h]
      rfl
  | some node =>
      have hleft : (manifestAt (pipeline.newProject stem source).manifestPath node).map
          (pipeline.leftProject stem source) = .ok project := h
      cases hmanifest : manifestAt (pipeline.newProject stem source).manifestPath node with
      | error failure =>
          rw [hmanifest] at hleft
          cases hleft
      | ok manifest =>
          rw [hmanifest] at hleft
          rw [← Except.ok.inj hleft]
          rfl

/-- A project that is taken up has no times. -/
theorem entered_resume (hnothing : tracker.records = [])
    (h : (pipeline.resume stem source tracker).1 = .ok outcome) :
    Entered [] false outcome (pipeline.resume stem source tracker).2.records := by
  have hrecords : (pipeline.resume stem source tracker).2.records =
      [] ++ [.skip "generate" notRequested] := by
    rw [resume_apply]
    show (skip "generate" notRequested tracker).2.records = _
    rw [skip_records, hnothing]
  rw [resume_apply] at h
  cases hfound : pipeline.foundProject stem source
      ((skip "generate" notRequested tracker).2.state.world.files.find?
        (pipeline.newProject stem source).manifestPath) with
  | error failure =>
      rw [hfound] at h
      cases h
  | ok project =>
      rw [hfound] at h
      obtain rfl := Except.ok.inj h
      refine ⟨?_, rfl, rfl⟩
      rw [hrecords]
      show Accounts [] [("generate", false)] _ project.timings
      rw [timings_foundProject hfound]
      exact (accounts_nil []).skip "generate"

/-- Generating is timed. -/
theorem times_generating (pipeline : Pipeline σ) (metadata : Source.Metadata) (project : Project)
    (tracker : Tracker (Session σ)) :
    ∃ seconds, Times "generate"
        (inStage "generate" project (pipeline.generateStep metadata project) tracker).1.2 seconds
        tracker.records
        (inStage "generate" project (pipeline.generateStep metadata project) tracker).2.records ∧
      (inStage "generate" project (pipeline.generateStep metadata project) tracker).1.1.timings =
        project.timings.put "generate" seconds := by
  apply times_inStage
  · exact keeps_body_generateStep pipeline metadata project
  · intro tracker step hstep
    obtain ⟨_, _, _, _, _, -, rfl⟩ := goes_of_generateStep hstep
    rfl

/-- Generating a project, after the records of the analysis. -/
theorem entered_generateFrom {metadata : Source.Metadata}
    (h : (pipeline.generateFrom stem source (.ok metadata) tracker).1 = .ok outcome) :
    Entered tracker.records true outcome
      (pipeline.generateFrom stem source (.ok metadata) tracker).2.records := by
  set project := pipeline.newProject stem source
  obtain ⟨seconds, htimes, hproject⟩ :=
    times_generating pipeline metadata project (aboutStem stem tracker)
  set reached := inStage "generate" project (pipeline.generateStep metadata project)
    (aboutStem stem tracker)
  have hgenerate : pipeline.generateFrom stem source (.ok metadata) tracker =
      (reached.1.2.map (Outcome.generated reached.1.1), reached.2) := by
    rw [generateFrom_ok]
    rfl
  rw [hgenerate] at h ⊢
  cases hresult : reached.1.2 with
  | error failure =>
      rw [hresult] at h
      cases h
  | ok noted =>
      rw [hresult] at h htimes
      obtain rfl := Except.ok.inj h
      refine ⟨?_, rfl, rfl⟩
      show Accounts tracker.records [("generate", true)] _ reached.1.1.timings
      rw [hproject]
      exact (accounts_nil tracker.records).times (by decide : "generate" ∉ []) htimes

/-- Analyzing is timed. -/
theorem times_analysis (hnothing : tracker.records = []) {metadata : Source.Metadata}
    (h : (script.analysis pipeline tracker).1 = .ok metadata) :
    ∃ record, (script.analysis pipeline tracker).2.records = [record] ∧
      Over ("analyze", true) record := by
  have htimes : ∃ seconds, Times "analyze" (script.analysis pipeline tracker).1 seconds
      tracker.records (script.analysis pipeline tracker).2.records := by
    cases script with
    | file path =>
        have hstep : pipeline.analyzeStep path =
            detailed (onWorld (pipeline.analyzeFile path)) analysisDetail := by
          unfold analyzeStep detailed
          funext place
          congr 1
          funext result
          cases result <;> rfl
        have htimes := times_detailed (keeps_body_onWorld (pipeline.analyzeFile path)) "analyze"
          analysisDetail (aboutStem path.stem tracker)
        rw [← hstep, ← analyze_apply] at htimes
        exact htimes.2
    | text content =>
        have hbegun : ((aboutStem textStem tracker).begun now "analyze").records =
            (aboutStem textStem tracker).records ++
              [.begin "analyze" (now (aboutStem textStem tracker).state).1] := rfl
        have htimes := times_track "analyze" (fun _ => pure (pipeline.analyzeText content))
          (aboutStem textStem tracker) hbegun
        rw [← textAnalysis_apply] at htimes
        exact htimes.2
  obtain ⟨seconds, record, hrecords, hended, helapsed⟩ := htimes
  rw [h] at hended
  rw [hnothing] at hrecords
  exact ⟨record, hrecords, .completed hended.stage hended.status (by rw [helapsed]; rfl)⟩

/-- The record of the analysis, if there was one. -/
def Analyzing (selected : Bool) (analyzed : List Record) : Prop :=
  if selected then ∃ record, analyzed = [record] ∧ Over ("analyze", true) record else analyzed = []

/-- **Every call that goes well is accounted for.** -/
theorem accounted_call {selection : Selection} {args : List String} {capture : Bool}
    (h : (script.call pipeline selection args capture tracker).1 = .ok outcome) :
    ∃ analyzed, Analyzing selection.generate analyzed ∧ Accounted analyzed selection outcome
      (script.call pipeline selection args capture tracker).2.records := by
  cases hselected : selection.generate with
  | true =>
      rw [Script.call_of_generate pipeline script args capture tracker hselected, proceed_apply] at h ⊢
      unfold Script.entering at h ⊢
      rw [proceed_apply] at h ⊢
      cases hanalysis : (script.analysis pipeline (pipeline.renew tracker).2).1 with
      | error failure =>
          rw [hanalysis] at h
          cases h
      | ok metadata =>
          rw [hanalysis] at h
          dsimp only at h ⊢
          have hrenewed : (pipeline.renew tracker).2.records = [] := rfl
          obtain ⟨record, hrecords, hover⟩ := times_analysis hrenewed hanalysis
          refine ⟨[record], ⟨record, rfl, hover⟩, ?_⟩
          cases hgenerated : (pipeline.generateFrom script.stem script.source? (.ok metadata)
              (script.analysis pipeline (pipeline.renew tracker).2).2).1 with
          | error failure =>
              rw [hgenerated] at h
              cases h
          | ok generated =>
              rw [hgenerated] at h
              have hentered := entered_generateFrom hgenerated
              rw [hrecords, ← hselected] at hentered
              exact accounted_buildAndRun hentered h
  | false =>
      rw [script.call_of_resume hselected, proceed_apply] at h ⊢
      have hnothing : (script.beginning pipeline tracker).2.records = [] := by
        cases script <;> rfl
      refine ⟨[], rfl, ?_⟩
      cases hresumed : (pipeline.resume script.stem script.source?
          (script.beginning pipeline tracker).2).1 with
      | error failure =>
          rw [hresumed] at h
          cases h
      | ok resumed =>
          rw [hresumed] at h
          have hentered := entered_resume hnothing hresumed
          rw [← hselected] at hentered
          exact accounted_buildAndRun hentered h

end

/-! ## What the timings say -/

/-- The timings are those of the records of a call that went well. -/
structure TimedBy (records : List Record) (selection : Selection) (outcome : Outcome) : Prop where
  /-- Every stage has one record. -/
  single : (records.map Record.stage).Nodup
  /-- A stage was completed in some time, or it was left out and has none. -/
  finished : ∀ record ∈ records, (record.status = .completed ∧ record.elapsed.isSome = true) ∨
    (record.status = .skipped ∧ record.elapsed = none)
  /-- The project has the seconds of the stages that were completed, but for the analysis. -/
  timings : ∀ stage seconds, outcome.project.timings.get? stage = some seconds ↔
    stage ∈ ["generate", "build", "run"] ∧ ∃ record ∈ records, record.stage = stage ∧
      record.status = .completed ∧ record.elapsed = some seconds
  build : OutputOf "build" selection.build outcome.project.timings outcome.buildOutput
  run : OutputOf "run" selection.run outcome.project.timings outcome.runOutput
  /-- The timings of the records are those of the project after that of the analysis. -/
  all : Progress.timings records =
    (records.filter (·.stage == "analyze")).filterMap Record.timing? ++ outcome.project.timings

theorem stage_of_timing? {record : Record} {entry : String × Binary64}
    (h : record.timing? = some entry) : record.stage = entry.1 := by
  unfold Record.timing? at h
  split at h
  · obtain ⟨_, -, rfl⟩ := Option.map_eq_some_iff.mp h
    rfl
  · cases h

/-- Records of different stages give timings in which no stage repeats. -/
theorem nodup_timings {records : List Record} (h : (records.map Record.stage).Nodup) :
    (Entries.keys (records.filterMap Record.timing?)).Nodup := by
  induction records with
  | nil => exact List.nodup_nil
  | cons record rest ih =>
      rw [List.map_cons, List.nodup_cons] at h
      cases htiming : record.timing? with
      | none =>
          rw [List.filterMap_cons_none htiming]
          exact ih h.2
      | some entry =>
          rw [List.filterMap_cons_some htiming]
          refine List.nodup_cons.mpr ⟨?_, ih h.2⟩
          intro hmem
          obtain ⟨other, hother, hkey⟩ := List.mem_map.mp hmem
          obtain ⟨later, hlater, hadds⟩ := List.mem_filterMap.mp hother
          apply h.1
          have hsame : later.stage = record.stage :=
            (stage_of_timing? hadds).trans (hkey.trans (stage_of_timing? htiming).symm)
          rw [← hsame]
          exact List.mem_map_of_mem hlater

theorem timedBy_of_accounted {analyzed records : List Record} {selection : Selection}
    {outcome : Outcome} (hanalyzed : Analyzing selection.generate analyzed)
    (h : Accounted analyzed selection outcome records) : TimedBy records selection outcome := by
  obtain ⟨⟨own, rfl, hover, htimings⟩, hbuild, hrun⟩ := h
  have hown : own.map Record.stage = ["generate", "build", "run"] := stages_of_over hover
  -- The analysis is timed like a stage of a plan.
  obtain ⟨first, hfirst, hstages⟩ : ∃ plan, List.Forall₂ Over plan analyzed ∧
      (plan.map Prod.fst = ["analyze"] ∨ plan.map Prod.fst = []) := by
    unfold Analyzing at hanalyzed
    split at hanalyzed
    · obtain ⟨record, rfl, hrecord⟩ := hanalyzed
      exact ⟨[("analyze", true)], .cons hrecord .nil, .inl rfl⟩
    · rw [hanalyzed]
      exact ⟨[], .nil, .inr rfl⟩
  rw [← stages_of_over hfirst] at hstages
  have hsingle : ((analyzed ++ own).map Record.stage).Nodup := by
    rw [List.map_append, hown]
    obtain hstages | hstages := hstages <;> rw [hstages] <;> decide
  have hanalyzes : ∀ record ∈ analyzed, record.stage = "analyze" := by
    intro record hrecord
    have hmem := List.mem_map_of_mem (f := Record.stage) hrecord
    obtain hstages | hstages := hstages <;> rw [hstages] at hmem
    · exact List.mem_singleton.mp hmem
    · cases hmem
  have howns : ∀ record ∈ own, record.stage ∈ ["generate", "build", "run"] := by
    intro record hrecord
    rw [← hown]
    exact List.mem_map_of_mem hrecord
  have hplanned : ∀ record ∈ analyzed ++ own, ∃ planned, Over planned record := by
    intro record hrecord
    exact planned_of_mem (List.rel_append hfirst hover) hrecord
  refine ⟨hsingle, ?_, ?_, hbuild, hrun, ?_⟩
  · intro record hrecord
    obtain ⟨planned, hplan⟩ := hplanned record hrecord
    cases hplan with
    | completed hstage hstatus helapsed => exact .inl ⟨hstatus, helapsed⟩
    | leftOut => exact .inr ⟨rfl, rfl⟩
  · intro stage seconds
    have hnodup : (own.map Record.stage).Nodup := by
      rw [hown]
      decide
    rw [htimings, Entries.get?_eq_some_iff (nodup_timings hnodup), List.mem_filterMap]
    constructor
    · rintro ⟨record, hrecord, htiming⟩
      obtain ⟨planned, hplan⟩ := hplanned record (List.mem_append_right _ hrecord)
      obtain ⟨rfl, hstatus, helapsed⟩ := (hplan.timing?_eq_some_iff stage seconds).mp htiming
      exact ⟨howns record hrecord, record, List.mem_append_right _ hrecord, rfl, hstatus, helapsed⟩
    · rintro ⟨hstage, record, hrecord, rfl, hstatus, helapsed⟩
      obtain ⟨planned, hplan⟩ := hplanned record hrecord
      obtain hrecord | hrecord := List.mem_append.mp hrecord
      · rw [hanalyzes record hrecord] at hstage
        exact absurd hstage (by decide)
      · exact ⟨record, hrecord, (hplan.timing?_eq_some_iff _ seconds).mpr ⟨rfl, hstatus, helapsed⟩⟩
  · have hfirst : (analyzed ++ own).filter (·.stage == "analyze") = analyzed := by
      rw [List.filter_append, List.filter_eq_self.mpr, List.filter_eq_nil_iff.mpr, List.append_nil]
      · intro record hrecord hstage
        have hmem := howns record hrecord
        rw [beq_iff_eq.mp hstage] at hmem
        exact absurd hmem (by decide)
      · intro record hrecord
        exact beq_iff_eq.mpr (hanalyzes record hrecord)
    have hofList : Progress.timings (analyzed ++ own) =
        Entries.ofList ((analyzed ++ own).filterMap Record.timing?) := rfl
    rw [hofList, Entries.ofList_of_nodup (nodup_timings hsingle), hfirst, htimings,
      List.filterMap_append]

/-! ## One job after the other -/

/-- The stage that a job goes through. -/
def Job.stage? : Job → Option String
  | .build => some "build"
  | .run _ _ => some "run"
  | .clean => none

/-- Does jobs on a project one after the other, whether they succeed or fail. Before each of them the
world may have changed in any way. -/
def doJobs (pipeline : Pipeline σ) : List ((World σ → World σ) × Job) → Project → Run σ Project
  | [], project => return project
  | (change, job) :: rest, project => do
      onWorld (modify change)
      let (project, _) ← pipeline.doJob project job
      doJobs pipeline rest project

/-- The project has for the stage the seconds that the latest record says. -/
def InStep (stage : String) (records : List Record) (project : Project) : Prop :=
  project.timings.get? stage = (latest? records stage).bind Record.elapsed

/-- The project and the latest record have some seconds for the stage. -/
def Stands (stage : String) (records : List Record) (project : Project) : Prop :=
  ∃ record seconds, latest? records stage = some record ∧ record.elapsed = some seconds ∧
    project.timings.get? stage = some seconds

theorem Stands.inStep {stage : String} {records : List Record} {project : Project}
    (h : Stands stage records project) : InStep stage records project := by
  obtain ⟨record, seconds, hlatest, helapsed, hproject⟩ := h
  unfold InStep
  rw [hproject, hlatest]
  exact helapsed.symm

theorem latest?_append_singleton (records : List Record) (record : Record) (stage : String) :
    latest? (records ++ [record]) stage =
      if record.stage = stage then some record else latest? records stage := by
  unfold latest?
  rw [List.reverse_append, List.reverse_singleton, List.singleton_append, List.find?_cons]
  by_cases hstage : record.stage = stage
  · rw [if_pos hstage, beq_iff_eq.mpr hstage]
  · rw [if_neg hstage, beq_eq_false_iff_ne.mpr hstage]

theorem mem_of_latest? {records : List Record} {stage : String} {record : Record}
    (h : latest? records stage = some record) : record ∈ records ∧ record.stage = stage := by
  obtain ⟨hstage, before, after, rfl, -⟩ := (latest?_eq_some_iff records stage record).mp h
  exact ⟨by simp, hstage⟩

/-- After a call that went well its stages are in step. -/
theorem TimedBy.inStep {records : List Record} {selection : Selection} {outcome : Outcome}
    (h : TimedBy records selection outcome) {stage : String}
    (hstage : stage ∈ ["generate", "build", "run"]) : InStep stage records outcome.project := by
  apply Option.ext
  intro seconds
  rw [h.timings, Option.bind_eq_some_iff]
  constructor
  · rintro ⟨-, record, hrecord, hsame, -, helapsed⟩
    have hsome : (latest? records stage).isSome = true := by
      unfold latest?
      rw [List.find?_isSome]
      exact ⟨record, List.mem_reverse.mpr hrecord, beq_iff_eq.mpr hsame⟩
    obtain ⟨last, hlast⟩ := Option.isSome_iff_exists.mp hsome
    obtain ⟨hmem, hlastStage⟩ := mem_of_latest? hlast
    -- every stage has one record, so that the latest one is the one
    have heq : last = record :=
      List.inj_on_of_nodup_map h.single hmem hrecord (hlastStage.trans hsame.symm)
    exact ⟨last, hlast, heq ▸ helapsed⟩
  · rintro ⟨record, hlatest, helapsed⟩
    obtain ⟨hmem, hsame⟩ := mem_of_latest? hlatest
    obtain ⟨hstatus, -⟩ | ⟨-, hnone⟩ := h.finished record hmem
    · exact ⟨hstage, record, hmem, hsame, hstatus, helapsed⟩
    · rw [hnone] at helapsed
      cases helapsed

section

variable {stage other : String} {records after : List Record} {project later : Project}
  {seconds : Binary64} {result : Except Failure α}

/-- The stage that was timed last stands. -/
theorem stands_of_times (htimes : Times stage result seconds records after)
    (hproject : later.timings = project.timings.put stage seconds) : Stands stage after later := by
  obtain ⟨record, rfl, hended, helapsed⟩ := htimes
  refine ⟨record, seconds, ?_, helapsed, ?_⟩
  · rw [latest?_append_singleton, if_pos hended.stage]
  · rw [hproject, Entries.get?_put, if_pos rfl]

/-- Timing a stage leaves the others as they are. -/
theorem others_of_times (htimes : Times stage result seconds records after)
    (hproject : later.timings = project.timings.put stage seconds) (hother : stage ≠ other) :
    latest? after other = latest? records other ∧
      later.timings.get? other = project.timings.get? other := by
  obtain ⟨record, rfl, hended, -⟩ := htimes
  constructor
  · rw [latest?_append_singleton, hended.stage, if_neg hother]
  · rw [hproject, Entries.get?_put, if_neg hother]

end

section

variable (pipeline : Pipeline σ) {stage : String} {project : Project}

theorem stage_doJob (project : Project) (job : Job) (tracker : Tracker (Session σ)) :
    (∃ stage seconds, job.stage? = some stage ∧
      ∃ result : Except Failure StageOutput, Times stage result seconds tracker.records
        (pipeline.doJob project job tracker).2.records ∧
      (pipeline.doJob project job tracker).1.1.timings = project.timings.put stage seconds) ∨
    job.stage? = none ∧ (pipeline.doJob project job tracker).2.records = tracker.records ∧
      (pipeline.doJob project job tracker).1.1.timings = project.timings := by
  cases job with
  | build =>
      obtain ⟨seconds, htimes⟩ := timesOutput_build pipeline project tracker
      exact .inl ⟨"build", seconds, rfl, _, htimes.record, htimes.project⟩
  | run args capture =>
      obtain ⟨seconds, htimes⟩ := timesOutput_run pipeline project args capture tracker
      exact .inl ⟨"run", seconds, rfl, _, htimes.record, htimes.project⟩
  | clean =>
      refine .inr ⟨rfl, rfl, ?_⟩
      show (pipeline.clean project tracker.state.world).1.1.timings = _
      rw [clean_apply]
      rcases pipeline.removeAll project
        (tracker.state.world.files.exists project.directory) tracker.state.world with
        ⟨error | _, after⟩ <;> rfl

/-- **One job** brings its stage into step and takes none out of it. -/
theorem inStep_doJob (stage : String) (project : Project) (job : Job)
    (tracker : Tracker (Session σ)) :
    (InStep stage tracker.records project →
      InStep stage (pipeline.doJob project job tracker).2.records
        (pipeline.doJob project job tracker).1.1) ∧
    (job.stage? = some stage ∨ Stands stage tracker.records project →
      Stands stage (pipeline.doJob project job tracker).2.records
        (pipeline.doJob project job tracker).1.1) := by
  obtain ⟨own, seconds, hown, result, htimes, hproject⟩ | ⟨hnone, hrecords, hproject⟩ :=
    stage_doJob pipeline project job tracker
  · by_cases hsame : own = stage
    · subst hsame
      have hstands := stands_of_times htimes hproject
      exact ⟨fun _ => hstands.inStep, fun _ => hstands⟩
    · obtain ⟨hlatest, hget⟩ := others_of_times htimes hproject hsame
      constructor
      · intro hstep
        unfold InStep at hstep ⊢
        rw [hlatest, hget, hstep]
      · rintro (hstage | ⟨record, seconds, hrecord, helapsed, htiming⟩)
        · rw [hown] at hstage
          exact absurd (Option.some.inj hstage) hsame
        · exact ⟨record, seconds, hlatest.trans hrecord, helapsed, hget.trans htiming⟩
  · rw [hrecords]
    unfold InStep Stands
    rw [hproject, hnone]
    exact ⟨id, fun h => h.resolve_left nofun⟩

/-- **Any jobs** bring their stages into step and take none out of it, by induction on the jobs. -/
theorem inStep_doJobs (stage : String) (jobs : List ((World σ → World σ) × Job)) (project : Project)
    (tracker : Tracker (Session σ)) :
    (InStep stage tracker.records project →
      InStep stage (pipeline.doJobs jobs project tracker).2.records
        (pipeline.doJobs jobs project tracker).1) ∧
    ((∃ task ∈ jobs, task.2.stage? = some stage) ∨ Stands stage tracker.records project →
      Stands stage (pipeline.doJobs jobs project tracker).2.records
        (pipeline.doJobs jobs project tracker).1) := by
  induction jobs generalizing project tracker with
  | nil =>
      refine ⟨id, ?_⟩
      rintro (⟨task, htask, -⟩ | hstands)
      · cases htask
      · exact hstands
  | cons task rest ih =>
      obtain ⟨change, job⟩ := task
      set changed : Tracker (Session σ) := (onWorld (modify change) tracker).2
      obtain ⟨hstep, hstand⟩ := inStep_doJob pipeline stage project job changed
      obtain ⟨hsteps, hstands⟩ := ih (pipeline.doJob project job changed).1.1
        (pipeline.doJob project job changed).2
      have hrun : pipeline.doJobs ((change, job) :: rest) project tracker =
          pipeline.doJobs rest (pipeline.doJob project job changed).1.1
            (pipeline.doJob project job changed).2 := rfl
      rw [hrun]
      refine ⟨fun h => hsteps (hstep h), ?_⟩
      rintro (⟨task, htask, hstage⟩ | h)
      · obtain rfl | hlater := List.mem_cons.mp htask
        · exact hstands (.inr (hstand (.inl hstage)))
        · exact hstands (.inl ⟨task, hlater, hstage⟩)
      · exact hstands (.inr (hstand (.inr h)))

/-- **One clock.** After a call that goes well the timings of the project are those of the stages that
its records say were completed, its outputs have the same, and the project is in step with the
records. Whatever is done to a project one job after the other, and whether it succeeds or fails, the
project has for each stage that was gone through the seconds that its latest record says, and for no
stage does it fall out of step. -/
theorem one_clock :
    (∀ (script : Script) (selection : Selection) (args : List String) (capture : Bool)
      (tracker : Tracker (Session σ)) (outcome : Outcome),
      (script.call pipeline selection args capture tracker).1 = .ok outcome →
        TimedBy (script.call pipeline selection args capture tracker).2.records selection outcome ∧
          ∀ stage ∈ ["generate", "build", "run"],
            InStep stage (script.call pipeline selection args capture tracker).2.records
              outcome.project) ∧
    ∀ (jobs : List ((World σ → World σ) × Job)) (project : Project) (tracker : Tracker (Session σ))
      (stage : String),
      (InStep stage tracker.records project →
        InStep stage (pipeline.doJobs jobs project tracker).2.records
          (pipeline.doJobs jobs project tracker).1) ∧
      ((∃ task ∈ jobs, task.2.stage? = some stage) →
        Stands stage (pipeline.doJobs jobs project tracker).2.records
          (pipeline.doJobs jobs project tracker).1) := by
  constructor
  · intro script selection args capture tracker outcome h
    obtain ⟨analyzed, hanalyzed, haccounted⟩ := accounted_call h
    have htimed := timedBy_of_accounted hanalyzed haccounted
    exact ⟨htimed, fun stage hstage => htimed.inStep hstage⟩
  · intro jobs project tracker stage
    obtain ⟨hstep, hstands⟩ := inStep_doJobs pipeline stage jobs project tracker
    exact ⟨hstep, fun h => hstands (.inl h)⟩

end

/-- A call of all stages for the text `1`. -/
def expressed : Except Failure Outcome × Tracker (Session Rehearsal.Trace) :=
  (Script.text "1").call (rehearsed []) .all [] true ((rehearsed []).opened (World.untouched .empty))

/-- Two builds of a project that has not been generated. -/
def builtTwice : Project × Tracker (Session Rehearsal.Trace) :=
  (rehearsed []).doJobs [(id, .build), (id, .build)] ((rehearsed []).newProject "demo" none)
    ((rehearsed []).opened (World.untouched .empty))

/-- The call goes well; the builds fail, and still leave their time. -/
theorem one_clock_expressed :
    (∃ outcome, expressed.1 = .ok outcome ∧ TimedBy expressed.2.records .all outcome) ∧
      Stands "build" builtTwice.2.records builtTwice.1 := by
  obtain ⟨hcalls, hjobs⟩ := one_clock (rehearsed [])
  have hok : expressed.1.isOk = true := by decide +kernel
  constructor
  · cases hresult : expressed.1 with
    | error failure =>
        rw [hresult] at hok
        cases hok
    | ok outcome => exact ⟨outcome, rfl, (hcalls _ _ _ _ _ outcome hresult).1⟩
  · unfold builtTwice
    exact (hjobs [(id, .build), (id, .build)] ((rehearsed []).newProject "demo" none)
      ((rehearsed []).opened (World.untouched .empty)) "build").2
      ⟨(id, .build), List.mem_cons_self, rfl⟩

end RustScript.Pipeline
