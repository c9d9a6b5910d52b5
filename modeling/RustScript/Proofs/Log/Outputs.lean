import RustScript.Proofs.Log.Journal
import RustScript.Proofs.Number.Integer

/-!
# What a store gives back

The output of a stage is kept in three files and read from them as text, so that a carriage return
comes back as a line feed. Whatever else a store was asked for in between, it gives back the output
of a stage that was saved last, as it was saved exactly if nothing in it is a carriage return, and
none exactly if nothing was saved since the logs were deleted last (`load_of_calls`).
-/

set_option autoImplicit false

namespace RustScript.Log

open RustScript.Text

/-! ## Outputs that are read -/

/-- The text with the line ends that are read. -/
def unified (text : String) : String := String.ofList (normalizeLineEnds text.toList)

/-- The output with the line ends that are read. -/
def unifiedOutput (output : Command.Output) : Command.Output :=
  { output with stdout := unified output.stdout, stderr := unified output.stderr }

/-- No carriage return was printed. -/
def ReturnFree (output : Command.Output) : Prop :=
  '\r' ∉ output.stdout.toList ∧ '\r' ∉ output.stderr.toList

theorem return_not_mem_normalizeLineEnds (cs : List Char) : '\r' ∉ normalizeLineEnds cs := by
  fun_induction normalizeLineEnds cs with
  | case1 => exact List.not_mem_nil
  | case2 rest ih => exact List.not_mem_cons_of_ne_of_not_mem (by decide) ih
  | case3 c rest _ ih =>
      refine List.not_mem_cons_of_ne_of_not_mem ?_ ih
      split
      · decide
      · next hc => exact Ne.symm hc

theorem unified_eq_iff {text : String} : unified text = text ↔ '\r' ∉ text.toList := by
  constructor
  · intro h
    rw [← h, unified, String.toList_ofList]
    exact return_not_mem_normalizeLineEnds _
  · intro h
    rw [unified, normalizeLineEnds_of_not_mem h, String.ofList_toList]

theorem unifiedOutput_eq_iff {output : Command.Output} :
    unifiedOutput output = output ↔ ReturnFree output := by
  unfold unifiedOutput ReturnFree
  rw [← unified_eq_iff, ← unified_eq_iff]
  constructor
  · exact fun h => ⟨congrArg Command.Output.stdout h, congrArg Command.Output.stderr h⟩
  · rintro ⟨hstdout, hstderr⟩
    rw [hstdout, hstderr]

theorem textOfBytes_encode_unified (text : String) :
    textOfBytes (Utf8.encode text) = .ok (unified text) := by
  unfold textOfBytes
  rw [Utf8.decode_encode]
  rfl

/-! ## Calls -/

/-- What a store is asked for: a step, or something that it has kept. -/
inductive Call
  | change (step : Step)
  | load (stem stage : String)
  | events (stem : String)

namespace Call

/-- The stem that the call is about. -/
def stem : Call → String
  | change step => step.stem
  | load stem _ => stem
  | events stem => stem

/-- The name of a stage is part of the name of a file. -/
def Plain : Call → Prop
  | change step => step.Plain
  | load _ stage => '/' ∉ stage.toList
  | events _ => True

/-- The call is made; it tells whether it succeeded. -/
def run {σ : Type} (store : Store σ) : Call → Act σ Bool
  | change step => return (← step.run store).isOk
  | load stem stage => return (← store.load stem stage).isOk
  | events stem => return (← store.events stem).isOk

/-- The shelf after the call. -/
def shelve (shelf : Shelf) : Call → Shelf
  | change step => step.shelve shelf
  | load _ _ => shelf
  | events _ => shelf

end Call

/-- The calls are made one after the other. -/
def callAll {σ : Type} (store : Store σ) : List Call → Act σ (List Bool)
  | [] => pure []
  | call :: rest => do
      let succeeded ← call.run store
      return succeeded :: (← callAll store rest)

theorem callAll_cons {σ : Type} (store : Store σ) (call : Call) (rest : List Call)
    (world : World σ) : callAll store (call :: rest) world =
      ((call.run store world).1 :: (callAll store rest (call.run store world).2).1,
        (callAll store rest (call.run store world).2).2) := rfl

/-! ## The output that was saved last -/

/-- The step saves an output of the stage, or deletes the logs of the stem. -/
def Step.Touches (stem stage : String) : Step → Prop
  | .save other name _ => other = stem ∧ name = stage
  | .append _ _ => False
  | .delete other => other = stem

/-- The call is a step that saves an output of the stage, or deletes the logs of the stem. -/
def Call.Touches (stem stage : String) : Call → Prop
  | .change step => step.Touches stem stage
  | .load _ _ => False
  | .events _ => False

/-- The output of the stage that is there after one more step. -/
def Step.keep (stem stage : String) (kept : Option Command.Output) : Step → Option Command.Output
  | .save other name output => if other = stem ∧ name = stage then some output else kept
  | .append _ _ => kept
  | .delete other => if other = stem then none else kept

/-- The output of the stage that is there after one more call. -/
def Call.keep (stem stage : String) (kept : Option Command.Output) : Call → Option Command.Output
  | .change step => step.keep stem stage kept
  | .load _ _ => kept
  | .events _ => kept

/-- The output of the stage that was saved last, unless the logs were deleted since. -/
def saved (stem stage : String) (calls : List Call) : Option Command.Output :=
  calls.foldl (Call.keep stem stage) none

variable {stem stage : String}

theorem Call.keep_of_not_touches {call : Call} (h : ¬ call.Touches stem stage)
    (kept : Option Command.Output) : call.keep stem stage kept = kept := by
  cases call with
  | change step =>
      cases step with
      | save other name output => exact if_neg h
      | append other event => rfl
      | delete other => exact if_neg h
  | load other name => rfl
  | events other => rfl

theorem foldl_keep_of_not_touches {calls : List Call}
    (h : ∀ call ∈ calls, ¬ call.Touches stem stage) (kept : Option Command.Output) :
    calls.foldl (Call.keep stem stage) kept = kept := by
  induction calls with
  | nil => rfl
  | cons call rest ih =>
      obtain ⟨hcall, hrest⟩ := List.forall_mem_cons.mp h
      rw [List.foldl_cons, Call.keep_of_not_touches hcall, ih hrest]

/-- What was saved stays until it is saved again or deleted. -/
theorem saved_append_save (before : List Call) (output : Command.Output) {later : List Call}
    (h : ∀ call ∈ later, ¬ call.Touches stem stage) :
    saved stem stage (before ++ .change (.save stem stage output) :: later) = some output := by
  unfold saved
  rw [List.foldl_append, List.foldl_cons, foldl_keep_of_not_touches h]
  exact if_pos ⟨rfl, rfl⟩

/-- Each time that an output of the stage was saved, the logs were deleted later. -/
def Unsaved (stem stage : String) (calls : List Call) : Prop :=
  ∀ before output later, calls = before ++ .change (.save stem stage output) :: later →
    .change (.delete stem) ∈ later

theorem Unsaved.concat_iff {calls : List Call} {call : Call}
    (h : ∀ output, call ≠ .change (.save stem stage output)) :
    Unsaved stem stage (calls ++ [call]) ↔
      call = .change (.delete stem) ∨ Unsaved stem stage calls := by
  constructor
  · intro hunsaved
    refine or_iff_not_imp_left.mpr fun hother before output later hsplit => ?_
    have hlater := hunsaved before output (later ++ [call]) (by
      rw [hsplit, List.append_assoc, List.cons_append])
    refine (List.mem_append.mp hlater).resolve_right fun hmem => ?_
    exact hother (List.mem_singleton.mp hmem).symm
  · intro hunsaved before output later hsplit
    obtain rfl | ⟨more, last, rfl⟩ := List.eq_nil_or_concat later
    · exact absurd (List.append_inj_right' hsplit rfl) fun heq => h output (List.cons.inj heq).1
    · rw [List.concat_eq_append, ← List.cons_append, ← List.append_assoc] at hsplit
      obtain ⟨hcalls, hlast⟩ := List.append_inj' hsplit rfl
      obtain rfl := List.singleton_inj.mp hlast
      rw [List.concat_eq_append]
      obtain rfl | hunsaved := hunsaved
      · exact List.mem_append_right _ (List.mem_singleton_self _)
      · exact List.mem_append_left _ (hunsaved before output more hcalls)

theorem saved_eq_none_iff {calls : List Call} :
    saved stem stage calls = none ↔ Unsaved stem stage calls := by
  induction calls using List.reverseRecOn with
  | nil => exact iff_of_true rfl fun before _ _ hsplit => absurd hsplit (by simp)
  | append_singleton calls call ih =>
      have hsaved : saved stem stage (calls ++ [call]) =
          call.keep stem stage (saved stem stage calls) := List.foldl_concat ..
      rw [hsaved]
      by_cases htouches : call.Touches stem stage
      · match call, htouches with
        | .change (.save _ _ output), ⟨rfl, rfl⟩ =>
            refine iff_of_false ?_ fun hunsaved => List.not_mem_nil (hunsaved calls output [] rfl)
            exact fun hnone => Option.some_ne_none output ((if_pos ⟨rfl, rfl⟩).symm.trans hnone)
        | .change (.delete _), rfl =>
            have hsave : ∀ output, Call.change (.delete stem) ≠ .change (.save stem stage output) :=
              fun _ heq => Step.noConfusion (Call.change.inj heq)
            exact iff_of_true (if_pos rfl) ((Unsaved.concat_iff hsave).mpr (.inl rfl))
      · have hother : call ≠ .change (.delete stem) := by
          rintro rfl
          exact htouches rfl
        have hsave : ∀ output, call ≠ .change (.save stem stage output) := by
          rintro output rfl
          exact htouches ⟨rfl, rfl⟩
        rw [Call.keep_of_not_touches htouches, ih, Unsaved.concat_iff hsave, or_iff_right hother]

/-! ## Outputs on a shelf -/

/-- The ends of the names of a stage's files, and what is written into each. -/
def outputParts : List (String × (Command.Output → String)) :=
  [(".stdout", Command.Output.stdout), (".stderr", Command.Output.stderr),
    (".status", fun output => toString output.status ++ "\n")]

theorem outputFiles_eq (stage : String) (output : Command.Output) : outputFiles stage output =
    outputParts.map fun part => (stage ++ part.1, part.2 output) := rfl

theorem mem_outputFiles {part : String × (Command.Output → String)} (hpart : part ∈ outputParts)
    (stage : String) (output : Command.Output) :
    (stage ++ part.1, part.2 output) ∈ outputFiles stage output := by
  rw [outputFiles_eq]
  exact List.mem_map_of_mem hpart

/-- The files of a stage have other names than those of another one. -/
theorem stage_eq_of_append_eq {other : String} {part part' : String × (Command.Output → String)}
    (hpart : part ∈ outputParts) (hpart' : part' ∈ outputParts)
    (h : stage ++ part.1 = other ++ part'.1) : stage = other ∧ part.1 = part'.1 := by
  have hlength : ∀ ending ∈ outputParts.map Prod.fst, ending.toList.length = 7 := by decide
  have hlists := congrArg String.toList h
  rw [String.toList_append, String.toList_append] at hlists
  obtain ⟨hstage, hending⟩ := List.append_inj' hlists <| by
    rw [hlength _ (List.mem_map_of_mem hpart), hlength _ (List.mem_map_of_mem hpart')]
  exact ⟨String.toList_inj.mp hstage, String.toList_inj.mp hending⟩

/-- The shelf holds these outputs, and no files of a stage that has none. -/
def Shelf.Keeps (shelf : Shelf) (outputs : String → String → Option Command.Output) : Prop :=
  ∀ stem stage, ∀ part ∈ outputParts,
    shelf stem (stage ++ part.1) = (outputs stem stage).map fun output =>
      Utf8.encode (part.2 output)

theorem Shelf.keeps_empty : Shelf.empty.Keeps fun _ _ => none := fun _ _ _ _ => rfl

/-- **What a step writes is what should be there.** -/
theorem Shelf.Keeps.step {shelf : Shelf} {outputs : String → String → Option Command.Output}
    (h : shelf.Keeps outputs) (step : Step) :
    (step.shelve shelf).Keeps fun stem stage => step.keep stem stage (outputs stem stage) := by
  intro stem stage part hpart
  cases step with
  | save other name output =>
      show shelf.putTexts other (outputFiles name output) stem (stage ++ part.1) =
        (if other = stem ∧ name = stage then some output else outputs stem stage).map _
      by_cases hsame : other = stem ∧ name = stage
      · obtain ⟨rfl, rfl⟩ := hsame
        have hnames : ((outputFiles name output).map Prod.fst).Nodup := by
          have hends : (outputParts.map Prod.fst).Nodup := by decide
          rw [outputFiles_eq, List.map_map]
          exact List.Nodup.map_on (fun part hpart part' hpart' heq =>
            List.inj_on_of_nodup_map hends hpart hpart'
              (stage_eq_of_append_eq hpart hpart' heq).2) hends.of_map
        rw [if_pos ⟨rfl, rfl⟩]
        exact Shelf.putTexts_of_mem hnames (mem_outputFiles hpart name output)
      · rw [if_neg hsame]
        refine (Shelf.putTexts_of_ne fun file hfile heq => hsame ?_).trans (h stem stage part hpart)
        rw [outputFiles_eq] at hfile
        obtain ⟨part', hpart', rfl⟩ := List.mem_map.mp hfile
        exact ⟨heq.1.symm, (stage_eq_of_append_eq hpart hpart' heq.2).1.symm⟩
  | append other event =>
      have hname := ne_journalName_of_mem (mem_outputFiles hpart stage ⟨0, "", ""⟩)
      exact (if_neg fun hboth => hname hboth.2.symm).trans (h stem stage part hpart)
  | delete other =>
      show (if stem = other then none else shelf stem (stage ++ part.1)) =
        (if other = stem then none else outputs stem stage).map _
      by_cases hsame : other = stem
      · rw [if_pos hsame.symm, if_pos hsame]
        rfl
      · rw [if_neg (Ne.symm hsame), if_neg hsame]
        exact h stem stage part hpart

theorem Shelf.Keeps.call {shelf : Shelf} {outputs : String → String → Option Command.Output}
    (h : shelf.Keeps outputs) (call : Call) :
    (call.shelve shelf).Keeps fun stem stage => call.keep stem stage (outputs stem stage) := by
  cases call with
  | change step => exact h.step step
  | load stem stage => exact h
  | events stem => exact h

/-! ## Loading -/

theorem run_bind_of_ok {σ α β : Type} {action : ExceptT LoadError (Act σ) α}
    {next : α → ExceptT LoadError (Act σ) β} {world after : World σ} {a : α}
    (h : action.run world = (.ok a, after)) :
    (action >>= next).run world = (next a).run after := by
  show (action.run >>= ExceptT.bindCont next) world = _
  rw [Frame.stateBind_apply, h]
  rfl

section

variable {here : Place} {base : Path} {ours : String → Prop} (hapart : Apart here base ours)
  {shelf : Shelf} (hstem : ours stem) (hstage : '/' ∉ stage.toList)
  {outputs : String → String → Option Command.Output} (hkeeps : shelf.Keeps outputs)
  {σ : Type} {world : World σ} (hstands : shelf.Stands here base ours world.files)

include hapart hstem hstage hkeeps hstands

/-- Every file of a stage is read. -/
theorem Shelf.Keeps.readLog {output : Command.Output} (houtput : outputs stem stage = some output)
    {part : String × (Command.Output → String)} (hpart : part ∈ outputParts) :
    (readLog ((base.child stem).child (stage ++ part.1))).run world =
      (.ok (unified (part.2 output)), world) := by
  have hname := ordinary_of_mem_outputFiles hstage (mem_outputFiles hpart stage output)
  have hcontent := hkeeps stem stage part hpart
  rw [houtput, Option.map_some] at hcontent
  rw [hstands.readLog hapart hstem hname hcontent, textOfBytes_encode_unified]
  rfl

theorem Shelf.Keeps.readOutput {output : Command.Output}
    (houtput : outputs stem stage = some output) :
    (readOutput (base.child stem) stage).run world = (.ok (unifiedOutput output), world) := by
  have hread : ∀ part ∈ outputParts, (Log.readLog ((base.child stem).child (stage ++ part.1))).run
      world = (.ok (unified (part.2 output)), world) :=
    fun part => hkeeps.readLog hapart hstem hstage hstands houtput
  simp only [outputParts, List.forall_mem_cons] at hread
  obtain ⟨hstdout, hstderr, hstatus, -⟩ := hread
  have hline : unified (toString output.status ++ "\n") = toString output.status ++ "\n" := by
    rw [unified_eq_iff, String.toList_append, List.mem_append, not_or]
    exact ⟨Integer.not_mem_toString (by decide) (by decide) _, by decide⟩
  rw [hline] at hstatus
  unfold Log.readOutput
  rw [run_bind_of_ok hstatus, Integer.readLoose?_toString]
  dsimp only
  rw [run_bind_of_ok hstdout, run_bind_of_ok hstderr]
  rfl

/-- What is kept for a stage is given back. -/
theorem Shelf.Keeps.load : (storeIn base).load stem stage world =
    (.ok ((outputs stem stage).map unifiedOutput), world) := by
  have hstatus : (".status", fun output => toString output.status ++ "\n") ∈ outputParts := by
    simp [outputParts]
  have hname := ordinary_of_mem_outputFiles hstage (mem_outputFiles hstatus stage ⟨0, "", ""⟩)
  have hexists := hstands.exists hapart hstem hname
  rw [hkeeps stem stage _ hstatus] at hexists
  have hrun : (storeIn base).load stem stage world =
      if world.files.exists ((base.child stem).child (stage ++ ".status")) then
        (((Log.readOutput (base.child stem) stage).run world).1.map some,
          ((Log.readOutput (base.child stem) stage).run world).2)
      else (.ok none, world) := by
    show (if world.files.exists ((base.child stem).child (stage ++ ".status")) then _ else _ :
      Act σ _) world = _
    split <;> rfl
  rw [hrun, hexists]
  cases houtput : outputs stem stage with
  | none => rfl
  | some output =>
      rw [hkeeps.readOutput hapart hstem hstage hstands houtput]
      rfl

end

/-! ## After any calls -/

theorem isOk_of_run_eq {σ ε α : Type} {action : Act σ (Except ε α)} {world after : World σ} {a : α}
    (h : action world = (.ok a, after)) :
    (do return (← action).isOk : Act σ Bool) world = (true, after) := by
  rw [Frame.stateBind_apply, h]
  rfl

section

variable {here : Place} {base : Path} {ours : String → Prop} (hapart : Apart here base ours)
  {σ : Type} {world : World σ} {shelf : Shelf} (hstands : shelf.Stands here base ours world.files)
  {outputs : String → String → Option Command.Output} (hkeeps : shelf.Keeps outputs)
  {entries : String → List String} (htells : shelf.Tells entries)

include hapart hstands hkeeps htells

/-- **A call does to the shelf what it says**, and it never fails. -/
theorem stands_call {call : Call} (hstem : ours call.stem) (hplain : call.Plain) :
    ∃ after, call.run (storeIn base) world = (true, after) ∧
      (call.shelve shelf).Stands here base ours after.files ∧
      ∃ entries, (call.shelve shelf).Tells entries := by
  cases call with
  | change step =>
      obtain ⟨after, hrun, hafter⟩ := stands_run hapart hstands hstem hplain
      exact ⟨after, isOk_of_run_eq hrun, hafter, _, htells.step step⟩
  | load stem stage =>
      have hload := hkeeps.load hapart hstem hplain hstands
      exact ⟨world, isOk_of_run_eq hload, hstands, entries, htells⟩
  | events stem =>
      have hevents := htells.events hapart hstem hstands
      exact ⟨world, isOk_of_run_eq hevents, hstands, entries, htells⟩

theorem stands_callAll {calls : List Call} (hcalls : ∀ call ∈ calls, ours call.stem ∧ call.Plain) :
    ∃ after, callAll (storeIn base) calls world = (calls.map fun _ => true, after) ∧
      ∃ shelf : Shelf, shelf.Stands here base ours after.files ∧
        shelf.Keeps fun stem stage => calls.foldl (Call.keep stem stage) (outputs stem stage) := by
  induction calls generalizing world shelf outputs entries with
  | nil => exact ⟨world, rfl, shelf, hstands, hkeeps⟩
  | cons call rest ih =>
      obtain ⟨⟨hstem, hplain⟩, hrest⟩ := List.forall_mem_cons.mp hcalls
      obtain ⟨next, hrun, hnext, _, hnotes⟩ :=
        stands_call hapart hstands hkeeps htells hstem hplain
      obtain ⟨after, hruns, hafter⟩ := ih hnext (hkeeps.call call) hnotes hrest
      refine ⟨after, ?_, hafter⟩
      rw [callAll_cons, hrun, hruns, List.map_cons]

end

/-- **Stored output is given back as text.** Whatever a store is asked for, it does. Of a stage it
then gives back the output that was saved last, with the line ends that are read, as long as the
logs are not deleted, and so exactly what was saved if no carriage return is in it; and it gives
back none exactly if nothing was saved since the logs were deleted last. -/
theorem load_of_calls {here : Place} {base : Path} {ours : String → Prop}
    (hapart : Apart here base ours) {σ : Type} {world : World σ}
    (hnew : Shelf.empty.Stands here base ours world.files) {calls : List Call}
    (hcalls : ∀ call ∈ calls, ours call.stem ∧ call.Plain) :
    ∃ after, callAll (storeIn base) calls world = (calls.map fun _ => true, after) ∧
      ∀ stem stage, ours stem → '/' ∉ stage.toList →
        ∃ loaded, (storeIn base).load stem stage after = (.ok loaded, after) ∧
          (∀ before output later, calls = before ++ .change (.save stem stage output) :: later →
            (∀ call ∈ later, ¬ call.Touches stem stage) →
              loaded = some (unifiedOutput output) ∧
                (loaded = some output ↔ ReturnFree output)) ∧
          (loaded = none ↔ Unsaved stem stage calls) := by
  obtain ⟨after, hrun, _, hstands, hkeeps⟩ :=
    stands_callAll hapart hnew Shelf.keeps_empty Shelf.tells_empty hcalls
  refine ⟨after, hrun, fun stem stage hstem hstage =>
    ⟨_, hkeeps.load hapart hstem hstage hstands, ?_, ?_⟩⟩
  · rintro before output later rfl hlater
    have hsaved := saved_append_save before output hlater
    unfold saved at hsaved
    rw [hsaved, Option.map_some]
    exact ⟨rfl, Option.some_inj.trans unifiedOutput_eq_iff⟩
  · rw [Option.map_eq_none_iff]
    exact saved_eq_none_iff

/-! ## A new store -/

/-- A build and a run of a script, with questions in between. -/
def buildAndRun : List Call :=
  [.change (.save "demo" "build" ⟨101, "", "error: é\n"⟩), .change (.append "demo" "build failed"),
    .load "demo" "build", .change (.save "demo" "run" ⟨-11, "1\n", ""⟩), .change (.delete "other"),
    .events "demo"]

theorem load_of_calls_demo :
    ∃ after, callAll (storeIn besideScripts) buildAndRun (World.untouched ()) =
        (buildAndRun.map fun _ => true, after) ∧
      (storeIn besideScripts).load "demo" "build" after =
        (.ok (some ⟨101, "", "error: é\n"⟩), after) ∧
      (storeIn besideScripts).load "other" "run" after = (.ok none, after) := by
  have hdemo : Path.Ordinary "demo" := ⟨by decide, by decide, by decide, by decide⟩
  have hother : Path.Ordinary "other" := ⟨by decide, by decide, by decide, by decide⟩
  have hcalls : ∀ call ∈ buildAndRun, Path.Ordinary call.stem ∧ call.Plain := by
    simp only [buildAndRun, List.forall_mem_cons, List.not_mem_nil, false_implies, implies_true,
      and_true]
    exact ⟨⟨hdemo, by show '/' ∉ _; decide⟩, ⟨hdemo, trivial⟩,
      ⟨hdemo, by show '/' ∉ _; decide⟩, ⟨hdemo, by show '/' ∉ _; decide⟩, ⟨hother, trivial⟩,
      ⟨hdemo, trivial⟩⟩
  obtain ⟨after, hrun, hloads⟩ := load_of_calls apart_besideScripts stands_untouched hcalls
  refine ⟨after, hrun, ?_, ?_⟩
  · obtain ⟨loaded, hload, hsaved, -⟩ := hloads "demo" "build" hdemo (by decide)
    have hlater : ∀ call ∈ buildAndRun.tail, ¬ call.Touches "demo" "build" := by
      simp only [buildAndRun, List.tail_cons, List.forall_mem_cons, List.not_mem_nil, false_implies,
        implies_true, and_true, Call.Touches, Step.Touches]
      decide
    have hfree : ReturnFree ⟨101, "", "error: é\n"⟩ := ⟨by decide, by decide⟩
    rw [hload, (hsaved [] _ _ rfl hlater).2.mpr hfree]
  · obtain ⟨loaded, hload, -, hnone⟩ := hloads "other" "run" hother (by decide)
    rw [hload, hnone.mpr (saved_eq_none_iff.mp (by decide))]

/-- Of an output with carriage returns the stored one has line feeds instead. -/
theorem load_loses_return :
    ∃ after, callAll (storeIn besideScripts)
        [.change (.save "demo" "run" ⟨0, "10%\r100%\r\n", ""⟩)] (World.untouched ()) =
          ([true], after) ∧
      (storeIn besideScripts).load "demo" "run" after =
        (.ok (some ⟨0, "10%\n100%\n", ""⟩), after) ∧
      Command.Output.mk 0 "10%\n100%\n" "" ≠ ⟨0, "10%\r100%\r\n", ""⟩ := by
  have hdemo : Path.Ordinary "demo" := ⟨by decide, by decide, by decide, by decide⟩
  have hcalls : ∀ call ∈ [Call.change (.save "demo" "run" ⟨0, "10%\r100%\r\n", ""⟩)],
      Path.Ordinary call.stem ∧ call.Plain := by
    intro call hcall
    rw [List.mem_singleton.mp hcall]
    exact ⟨hdemo, by show '/' ∉ _; decide⟩
  obtain ⟨after, hrun, _, hstands, hkeeps⟩ := stands_callAll apart_besideScripts stands_untouched
    Shelf.keeps_empty Shelf.tells_empty hcalls
  refine ⟨after, hrun, ?_, by decide⟩
  rw [hkeeps.load apart_besideScripts hdemo (by decide) hstands]
  have hread : (saved "demo" "run" [.change (.save "demo" "run" ⟨0, "10%\r100%\r\n", ""⟩)]).map
      unifiedOutput = some ⟨0, "10%\n100%\n", ""⟩ := by decide
  exact congrArg (fun loaded => (Except.ok loaded, after)) hread

end RustScript.Log
