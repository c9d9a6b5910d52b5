import Mathlib.Data.List.DropRight
import RustScript.Proofs.CommandLine.Shown
import RustScript.Proofs.Pipeline.Completed

/-!
# The exit status tells the truth

A call of the program that runs stages exits with 0 exactly if every stage that was asked for has
completed. Otherwise it exits with the status of the script if that is what failed, and with 1 if
anything else did; what it says about the failure ends with what the toolchain complained about, and
is to be seen as it is unless codes in it are left out (`Truthful`). The connection to the registry
is given up once, whatever came before (`truthful_invoke`).
-/

set_option autoImplicit false

namespace RustScript.CommandLine

open RustScript.Pipeline

variable {σ : Type}

/-! ## Reports on failures -/

/-- The text is this one up to line feeds at its end. -/
structure IsBodyOf (body text : String) : Prop where
  ends : ∃ count, text.toList = body.toList ++ List.replicate count '\n'
  bare : body.toList.getLast? ≠ some '\n'

/-- A complaint is what was printed, up to line feeds at its end, and one line feed. -/
theorem complaint_eq (output : Command.Output) :
    output.stderr = "" ∧ complaint output = "" ∨
      ∃ body, IsBodyOf body output.stderr ∧ complaint output = body ++ "\n" := by
  by_cases hempty : output.stderr = ""
  · refine .inl ⟨hempty, ?_⟩
    unfold complaint
    rw [hempty]
    rfl
  · refine .inr ⟨String.ofList (output.stderr.toList.rdropWhile (· = '\n')), ⟨?_, ?_⟩, ?_⟩
    · refine ⟨(output.stderr.toList.rtakeWhile (· = '\n')).length, ?_⟩
      have hfeeds : output.stderr.toList.rtakeWhile (· = '\n') =
          List.replicate (output.stderr.toList.rtakeWhile (· = '\n')).length '\n' := by
        refine List.eq_replicate_iff.mpr ⟨rfl, fun c hc => ?_⟩
        exact of_decide_eq_true (List.mem_rtakeWhile_imp (p := (· = '\n')) hc)
      rw [String.toList_ofList, ← hfeeds, List.rdropWhile_append_rtakeWhile]
    · rw [String.toList_ofList]
      intro hlast
      obtain ⟨hne, hlast⟩ := List.mem_getLast?_eq_getLast hlast
      have hnot := List.rdropWhile_last_not (· = '\n') output.stderr.toList hne
      rw [← hlast] at hnot
      exact hnot (decide_eq_true rfl)
    · unfold complaint
      rw [if_neg (by simpa using hempty)]
      rfl

/-- What is said about a failure behind `table`: the stage that it belongs to, the failure in words,
and what the toolchain complained about, if the failure is one of the toolchain. -/
def Says (table : String) (failure : Failure) (said : String) : Prop :=
  ∃ stage words, failure.stage? = some stage ∧
    said = table ++ s!"Error [{stage}]: {failure.message}\n" ++ words ∧
    (failure.output? = none → words = "") ∧
    ∀ output, failure.output? = some output → output.stderr = "" ∧ words = "" ∨
      ∃ body, IsBodyOf body output.stderr ∧ words = body ++ "\n"

/-- What is to be seen of what is said about a failure: all of it, exactly if it is printed on a
terminal or has no codes in it. -/
def Describes (terminal : Bool) (table : String) (failure : Failure) (text : String) : Prop :=
  ∃ said, Says table failure said ∧ text = shownOn terminal said ∧
    (text = said ↔ terminal = true ∨ ¬ HasCode said.toList)

theorem Says.describes {table : String} {failure : Failure} {said : String}
    (h : Says table failure said) (terminal : Bool) :
    Describes terminal table failure (shownOn terminal said) :=
  ⟨said, h, rfl, shownOn_eq_self_iff⟩

theorem says_ofFailure (table : String) {failure : Failure} (h : failure.isReported = true) :
    (Report.ofFailure "" table failure).exit = exitStatus failure ∧
      Says table failure (Report.ofFailure "" table failure).stderr := by
  obtain ⟨stage, hstage⟩ := Option.isSome_iff_exists.mp h
  have hreport : Report.ofFailure "" table failure =
      ⟨exitStatus failure, "", table ++ (s!"Error [{stage}]: {failure.message}\n" ++
        (failure.output?.map complaint).getD ""), none⟩ := by
    unfold Report.ofFailure
    rw [hstage]
    simp only [toString, String.append_assoc]
  rw [hreport]
  refine ⟨rfl, stage, (failure.output?.map complaint).getD "", hstage, ?_, fun hnone => ?_,
    fun output houtput => ?_⟩
  · exact String.append_assoc.symm
  · rw [hnone]
    rfl
  · rw [houtput]
    exact complaint_eq output

/-! ## Calls that run stages -/

/-- What a request for stages is about. -/
def Request.script (request : Request) : Script :=
  if request.verb = .eval then .text request.subject else .file (.ofString request.subject)

/-- What the stages that were asked for come to. -/
def staged (pipeline : Pipeline σ) (request : Request) : Run σ (Except Failure Outcome) :=
  request.script.call pipeline request.selection.orAll request.arguments false

/-- The world without what is kept besides. -/
def forgetting {κ : Type} (world : World (κ × σ)) : World σ :=
  ⟨world.files, world.clock, world.readings, world.outside.2⟩

theorem runStages_apply (pipeline : Pipeline σ) (request : Request)
    (tracker : Progress.Tracker (Session σ)) :
    runStages pipeline request tracker =
      (.ofStages request.selection.orAll request.timings (staged pipeline request tracker).2.records
        (staged pipeline request tracker).1, (staged pipeline request tracker).2) := by
  unfold runStages staged Request.script
  split <;> rfl

theorem perform_of_stages (pipeline : Pipeline σ) {request : Request}
    (h : request.verb = .run ∨ request.verb = .eval) :
    perform pipeline request = runStages pipeline request := by
  unfold perform
  rcases h with h | h <;> rw [h]

/-- The pipeline begins with an empty cache, which is forgotten once it is closed. -/
theorem carryOut_apply (host : Host σ) (settings : Settings) (request : Request)
    (world : World σ) : carryOut host settings request world =
      ((perform (pipelineFor host settings) request
          ((pipelineFor host settings).opened (world.keeping []))).1,
        forgetting ((pipelineFor host settings).resolver.close
          (perform (pipelineFor host settings) request
            ((pipelineFor host settings).opened (world.keeping []))).2.state.world).2) := rfl

section

variable (host : Host σ) (settings : Settings) (request : Request) (world : World σ)

/-- What a call of the program that runs stages has come to before the connection to the registry is
given up. -/
def reached : Except Failure Outcome × Progress.Tracker (Session (Registry.Cache × σ)) :=
  staged (pipelineFor host settings) request
    ((pipelineFor host settings).opened (world.keeping []))

/-- The connection to the registry is given up behind the stages, and they themselves do not care
about it. -/
structure ClosesOnce (after : World σ) : Prop where
  closed : after = ((settings.resolver host.runner host.client).close
    (forgetting (reached host settings request world).2.state.world)).2
  indifferent : ∀ close, staged ((pipelineFor host settings).withClose close) request =
    staged (pipelineFor host settings) request

variable {request}

theorem carryOut_of_stages (h : request.verb = .run ∨ request.verb = .eval) :
    (carryOut host settings request world).1 =
        .ofStages request.selection.orAll request.timings
          (reached host settings request world).2.records (reached host settings request world).1 ∧
      ClosesOnce host settings request world (carryOut host settings request world).2 := by
  rw [carryOut_apply, perform_of_stages _ h, runStages_apply]
  exact ⟨rfl, rfl, fun close => call_withClose _ _ _ _ _ close⟩

variable {host settings}

/-- **The report tells the truth** about what the stages have come to. -/
structure Truthful (host : Host σ) (settings : Settings) (request : Request)
    (reached : Except Failure Outcome × Progress.Tracker (Session (Registry.Cache × σ)))
    (report : Report) : Prop where
  /-- The status is 0 exactly if every stage that was asked for has completed. -/
  zero : report.exit = 0 ↔
    ∀ stage, request.selection.orAll.Asks stage → Completes reached.2.records stage
  /-- If the script failed, the status is its own. -/
  exited : ∀ name output, reached.1 = .error (.run (.exited name output)) →
    report.exit = output.status
  /-- If anything else failed, the status is 1. -/
  one : ∀ failure, reached.1 = .error failure →
    (∀ name output, failure ≠ .run (.exited name output)) → report.exit = 1
  /-- What a command printed comes from a command that was called and did not succeed. -/
  told : ∀ failure, reached.1 = .error failure →
    Told (pipelineFor host settings) request.arguments false
      ((pipelineFor host settings).newProject request.script.stem request.script.source?) failure
  /-- The failure is described. -/
  describes : ∀ failure, reached.1 = .error failure →
    Describes host.errIsTerminal (if request.timings then timingTable reached.2.records else "")
      failure report.stderr

theorem exitStatus_of_exited {name : String} {output : Command.Output} (h : output.ok = false) :
    exitStatus (.run (.exited name output)) = output.status :=
  if_neg (of_decide_eq_false h)

theorem failed_of_told {pipeline : Pipeline σ} {args : List String} {capture : Bool}
    {project : Project} {name : String} {output : Command.Output}
    (h : Told pipeline args capture project (.run (.exited name output))) : output.ok = false := by
  cases h with
  | run _ failed => exact failed
  | silent houtput => cases houtput

theorem exitStatus_of_told {pipeline : Pipeline σ} {args : List String} {capture : Bool}
    {project : Project} {failure : Failure} (h : Told pipeline args capture project failure) :
    exitStatus failure ≠ 0 := by
  cases h with
  | build => exact Int.one_ne_zero
  | run _ failed =>
      rw [exitStatus_of_exited failed]
      exact of_decide_eq_false failed
  | silent houtput =>
      unfold exitStatus
      split
      · cases houtput
      · exact Int.one_ne_zero

theorem truthful_ofStages
    {call : Except Failure Outcome × Progress.Tracker (Session (Registry.Cache × σ))}
    (hcompleted : (∀ stage, request.selection.orAll.Asks stage →
      Completes call.2.records stage) ↔ ∃ outcome, call.1 = .ok outcome)
    (htold : ∀ failure, call.1 = .error failure →
      Told (pipelineFor host settings) request.arguments false
        ((pipelineFor host settings).newProject request.script.stem request.script.source?) failure)
    (hreported : ∀ failure, call.1 = .error failure → failure.isReported = true) :
    Truthful host settings request call
      ((Report.ofStages request.selection.orAll request.timings call.2.records call.1).shownBy
        host) := by
  obtain ⟨result, tracker⟩ := call
  cases result with
  | ok outcome => exact ⟨iff_of_true rfl (hcompleted.mpr ⟨outcome, rfl⟩), nofun, nofun, htold, nofun⟩
  | error failure =>
      have hreport : Report.ofStages request.selection.orAll request.timings tracker.records
          (.error failure) =
          .ofFailure "" (if request.timings then timingTable tracker.records else "") failure :=
        if_pos (hreported failure rfl)
      obtain ⟨hexit, hsays⟩ := says_ofFailure
        (if request.timings then timingTable tracker.records else "") (hreported failure rfl)
      have hnonzero := exitStatus_of_told (htold failure rfl)
      dsimp only
      rw [hreport]
      unfold Report.shownBy
      refine ⟨?_, fun name output h => ?_, fun other h hother => ?_, htold, fun other h => ?_⟩
      all_goals dsimp only
      · rw [hexit]
        refine iff_of_false hnonzero fun hall => ?_
        obtain ⟨outcome, houtcome⟩ := hcompleted.mp hall
        cases houtcome
      · obtain rfl := Except.error.inj h
        rw [hexit]
        exact exitStatus_of_exited (failed_of_told (htold _ rfl))
      · obtain rfl := Except.error.inj h
        rw [hexit]
        unfold exitStatus
        split
        · exact absurd rfl (hother _ _)
        · rfl
      · obtain rfl := Except.error.inj h
        exact hsays.describes _

end

theorem exists_of_bind {ε α β : Type} {result : Except ε α} {next : α → Except ε β} {value : β}
    (h : result >>= next = .ok value) : ∃ first, result = .ok first ∧ next first = .ok value := by
  cases result with
  | error error => cases h
  | ok first => exact ⟨first, rfl, h⟩

theorem verb_of_read {verb : Verb} {files : FileSystem} {arguments : List String}
    {request : Request} (h : read verb files arguments = .ok request) : request.verb = verb := by
  obtain ⟨words, -, h⟩ := exists_of_bind h
  obtain ⟨registry, -, h⟩ := exists_of_bind h
  obtain ⟨⟨subject, rest⟩, -, h⟩ := exists_of_bind h
  dsimp only at h
  split at h
  · cases h
  · rw [← Except.ok.inj h]

/-- A call for which there are settings carries out what is asked for. -/
theorem respond_of_read {host : Host σ} {arguments : List String} {world : World σ} {verb : Verb}
    {verbose : Bool} {rest : List String} {request : Request} {settings : Settings}
    (hverb : readVerb arguments = .ok (verb, verbose, rest))
    (hread : read verb world.files rest = .ok request)
    (hsettings : settingsFor host request = .ok settings) :
    respond host arguments world =
      (⟨(carryOut host settings request world).1, [if verbose then some "DEBUG" else none]⟩,
        (carryOut host settings request world).2) := by
  have hanswer : answer host verb rest world = carryOut host settings request world := by
    unfold answer
    rw [Frame.stateBind_apply]
    have hfound : read verb ((get : Act σ (World σ)) world).1.files rest = .ok request := hread
    rw [hfound]
    dsimp only
    rw [hsettings]
    rfl
  unfold respond
  rw [hverb]
  dsimp only
  rw [Frame.stateBind_apply, hanswer]
  rfl

theorem invoke_apply (host : Host σ) (arguments : List String) (world : World σ) :
    invoke host arguments world =
      (⟨(respond host arguments world).1.report.shownBy host,
          (respond host arguments world).1.logLevels⟩, (respond host arguments world).2) := rfl

/-- **The exit status tells the truth.** -/
theorem truthful_invoke (host : Host σ) (arguments : List String) (world : World σ) {verb : Verb}
    {verbose : Bool} {rest : List String} {request : Request} {settings : Settings}
    (hverb : readVerb arguments = .ok (verb, verbose, rest)) (hstages : verb = .run ∨ verb = .eval)
    (hread : read verb world.files rest = .ok request)
    (hsettings : settingsFor host request = .ok settings) :
    ClosesOnce host settings request world (invoke host arguments world).2 ∧
      ((∀ failure, (reached host settings request world).1 = .error failure →
          failure.isReported = true) →
        Truthful host settings request (reached host settings request world)
          (invoke host arguments world).1.report) := by
  have hruns : request.verb = .run ∨ request.verb = .eval := verb_of_read hread ▸ hstages
  obtain ⟨hreport, hcloses⟩ := carryOut_of_stages host settings world hruns
  rw [invoke_apply, respond_of_read hverb hread hsettings]
  refine ⟨hcloses, fun hreported => ?_⟩
  rw [hreport]
  exact truthful_ofStages
    (completed_call_iff _ _ _ _ _ request.selection.exists_asks_orAll _)
    (told_of_call _ _ _ _ _ _) hreported

/-- A host on which every script exits with 7. -/
def unluckyHost : Host Rehearsal.Trace where
  environment := [("RSRUN_REGISTRY", "crates-io")]
  temporary := Path.ofString "/tmp"
  runner := Rehearsal.Cast.runner
    { Rehearsal.Cast.plain with run := .prints ⟨7, "", "out of luck\n\n"⟩ }
  client := Rehearsal.client []

/-- The text `1` is to be evaluated. -/
def oneRequest : Request := ⟨.eval, "1", [], ⟨false, false, false⟩, false, none, none, false⟩

/-- The settings on that host. -/
def unluckySettings : Settings :=
  { Settings.standard ((Path.ofString "/tmp").child "rsrun") with registry := .web }

/-- The program exits with 7 as the script does, says so, and has given up its connection. -/
theorem truthful_invoke_unlucky :
    (invoke unluckyHost ["eval", "1"] (World.untouched .empty)).1.report.exit = 7 ∧
      Describes false "" (.run (.exited "rsrun_expr.rs" ⟨7, "", "out of luck\n\n"⟩))
        (invoke unluckyHost ["eval", "1"] (World.untouched .empty)).1.report.stderr ∧
      (invoke unluckyHost ["eval", "1"] (World.untouched .empty)).2.outside.closed = true := by
  have hverb : readVerb ["eval", "1"] = .ok (.eval, false, ["1"]) := rfl
  have hread : read .eval (World.untouched Rehearsal.Trace.empty).files ["1"] = .ok oneRequest := rfl
  have hsettings : settingsFor unluckyHost oneRequest = .ok unluckySettings := rfl
  obtain ⟨⟨hclosed, -⟩, htruthful⟩ := truthful_invoke unluckyHost ["eval", "1"]
    (World.untouched .empty) hverb (.inr rfl) hread hsettings
  have hfailure : failureOf (reached unluckyHost unluckySettings oneRequest
      (World.untouched .empty)).1 =
        some (.run (.exited "rsrun_expr.rs" ⟨7, "", "out of luck\n\n"⟩)) := by
    decide +kernel
  cases hreached : (reached unluckyHost unluckySettings oneRequest (World.untouched .empty)).1 with
  | ok outcome =>
      rw [hreached] at hfailure
      cases hfailure
  | error failure =>
      rw [hreached] at hfailure
      obtain rfl := Option.some.inj hfailure
      have htruth := htruthful fun other hother => by
        rw [← Except.error.inj (hreached.symm.trans hother)]
        rfl
      refine ⟨htruth.exited _ _ hreached, htruth.describes _ hreached, ?_⟩
      rw [hclosed]
      rfl

/-- What a compiler prints that complains in colours. -/
def colouredOutput : Command.Output := ⟨101, "", "\x1b[31merror\x1b[0m: no luck\n"⟩

/-- A host on which no script can be built. -/
def colouredHost : Host Rehearsal.Trace :=
  { unluckyHost with
    runner := Rehearsal.Cast.runner { Rehearsal.Cast.plain with build := .prints colouredOutput } }

theorem escape_mem_of_described {failure : Failure} {output : Command.Output} {table said : String}
    (h : Says table failure said) (houtput : failure.output? = some output)
    (hescape : escape ∈ output.stderr.toList) : escape ∈ said.toList := by
  obtain ⟨stage, words, -, rfl, -, hwords⟩ := h
  rw [String.toList_append]
  refine List.mem_append_right _ ?_
  obtain ⟨hempty, -⟩ | ⟨body, ⟨⟨count, hends⟩, -⟩, rfl⟩ := hwords output houtput
  · rw [hempty] at hescape
    cases hescape
  · rw [hends, List.mem_append] at hescape
    rw [String.toList_append]
    refine List.mem_append_left _ (hescape.resolve_right fun hfeeds => ?_)
    exact absurd (List.eq_of_mem_replicate hfeeds) (by decide)

/-- Without a terminal, the complaint in colours is not to be seen as it was printed. -/
theorem coloured_complaint_changed :
    failureOf (reached colouredHost unluckySettings oneRequest (World.untouched .empty)).1 =
        some (.build (.failed "rsrun_expr.rs" colouredOutput)) ∧
      (invoke colouredHost ["eval", "1"] (World.untouched .empty)).1.report.stderr =
        "Error [build]: cargo build failed for rsrun_expr.rs\nerror: no luck\n" ∧
      ¬ Says "" (.build (.failed "rsrun_expr.rs" colouredOutput))
        "Error [build]: cargo build failed for rsrun_expr.rs\nerror: no luck\n" := by
  refine ⟨by decide +kernel, by decide +kernel, fun h => ?_⟩
  exact absurd (escape_mem_of_described h rfl (by decide +kernel)) (by decide +kernel)

end RustScript.CommandLine
