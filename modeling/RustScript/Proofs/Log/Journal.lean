import RustScript.Proofs.Log.Shelf
import RustScript.Proofs.Registry.Contract
import RustScript.Proofs.Text.Lines
import RustScript.Proofs.Text.Utf8

/-!
# What a journal tells

Every event goes to a journal as one line, and a journal is read by its lines. So an event with a
line break in it is read as the several lines that it is of (`linesOf`). After any steps of a store a
journal tells the events that it should, in order, exactly if none of them has a line break but line
feeds at its end (`journal_of_steps`).
-/

set_option autoImplicit false

namespace RustScript.Log

open RustScript.Text

/-! ## Events -/

/-- The event without line feeds at its end. -/
def trimmed (event : String) : String :=
  String.ofList (event.toList.reverse.dropWhile (· = '\n')).reverse

theorem journalLine_eq (event : String) : journalLine event = trimmed event ++ "\n" := rfl

/-- The events that the journal of a stem should tell after one more step. -/
def Step.note (stem : String) (entries : List String) : Step → List String
  | .save _ _ _ => entries
  | .append other event => if other = stem then entries ++ [trimmed event] else entries
  | .delete other => if other = stem then [] else entries

/-- The events that the journal of a stem should tell: those appended since it was deleted last. -/
def journal (stem : String) (steps : List Step) : List String := steps.foldl (Step.note stem) []

/-- The event is one line. -/
def OneLine (event : String) : Prop := ∀ c ∈ event.toList, isLineBreak c = false

instance (event : String) : Decidable (OneLine event) :=
  decidable_of_iff (event.toList.all (fun c => !isLineBreak c) = true) <| by
    simp [OneLine]

/-- The lines that are read where an event has been written. -/
def linesOf (event : String) : List String :=
  (splitLines (normalizeLineEnds (event ++ "\n").toList)).map String.ofList

theorem oneLine_of_mem_linesOf {event line : String} (h : line ∈ linesOf event) : OneLine line := by
  obtain ⟨cs, hcs, rfl⟩ := List.mem_map.mp h
  unfold OneLine
  rw [String.toList_ofList]
  exact not_break_of_mem_splitLines hcs

theorem linesOf_of_oneLine {event : String} (h : OneLine event) : linesOf event = [event] := by
  have hreturn : '\r' ∉ (event ++ "\n").toList := by
    rw [String.toList_append, List.mem_append]
    rintro (hmem | hmem)
    · exact absurd (h '\r' hmem) (by decide)
    · exact absurd hmem (by decide)
  unfold linesOf
  rw [normalizeLineEnds_of_not_mem hreturn, String.toList_append]
  show (splitLinesFrom [] false (event.toList ++ ['\n'])).map String.ofList = _
  rw [splitLinesFrom_of_not_break h, List.append_nil]
  show [String.ofList event.toList.reverse.reverse] = _
  rw [List.reverse_reverse, String.ofList_toList]

/-! ## Journals -/

/-- The text of a journal. -/
def journalText (entries : List String) : String := String.join (entries.map (· ++ "\n"))

theorem toList_journalText_cons (entry : String) (rest : List String) :
    (journalText (entry :: rest)).toList =
      entry.toList ++ '\n' :: (journalText rest).toList := by
  unfold journalText
  rw [String.toList_join, String.toList_join, List.map_cons, List.flatMap_cons,
    String.toList_append, List.append_assoc]
  rfl

/-- **A journal is read event by event.** -/
theorem splitLines_journalText (entries : List String) :
    (splitLines (normalizeLineEnds (journalText entries).toList)).map String.ofList =
      entries.flatMap linesOf := by
  induction entries with
  | nil => rfl
  | cons entry rest ih =>
      obtain ⟨front, hfront⟩ := exists_normalizeLineEnds entry.toList
      have hentry : linesOf entry = (splitLines (front ++ ['\n'])).map String.ofList := by
        unfold linesOf
        rw [String.toList_append]
        exact congrArg (fun cs => (splitLines cs).map String.ofList) (hfront [])
      rw [toList_journalText_cons, hfront, List.flatMap_cons, hentry, ← ih, ← List.map_append]
      unfold splitLines
      rw [splitLinesFrom_feed]
      rfl

/-- **A journal tells its events exactly if each of them is one line.** -/
theorem flatMap_linesOf_eq_iff {entries : List String} :
    entries.flatMap linesOf = entries ↔ ∀ entry ∈ entries, OneLine entry := by
  constructor
  · intro h entry hentry
    rw [← h] at hentry
    obtain ⟨event, -, hline⟩ := List.mem_flatMap.mp hentry
    exact oneLine_of_mem_linesOf hline
  · intro h
    induction entries with
    | nil => rfl
    | cons entry rest ih =>
        obtain ⟨hentry, hrest⟩ := List.forall_mem_cons.mp h
        rw [List.flatMap_cons, linesOf_of_oneLine hentry, ih hrest, List.singleton_append]

/-! ## Journals on a shelf -/

/-- The journals on the shelf tell these events, and there is none where nothing is to be told. -/
def Shelf.Tells (shelf : Shelf) (entries : String → List String) : Prop :=
  ∀ stem, shelf stem journalName =
    if entries stem = [] then none else some (Utf8.encode (journalText (entries stem)))

theorem encode_append (text more : String) :
    Utf8.encode (text ++ more) = Utf8.encode text ++ Utf8.encode more := by
  rw [Utf8.encode_eq, Utf8.encode_eq, Utf8.encode_eq, String.toList_append, List.flatMap_append]

theorem journalText_concat (entries : List String) (entry : String) :
    journalText (entries ++ [entry]) = journalText entries ++ (entry ++ "\n") := by
  rw [← String.toList_inj]
  unfold journalText
  rw [String.toList_append, String.toList_join, String.toList_join, List.map_append,
    List.flatMap_append, List.map_singleton, List.flatMap_singleton]

/-- The files of a stage are no journal. -/
theorem ne_journalName_of_mem {stage : String} {output : Command.Output} {file : String × String}
    (hfile : file ∈ outputFiles stage output) : journalName ≠ file.1 := by
  have hends : ∀ ending ∈ [".stdout", ".stderr", ".status"],
      ending.toList.getLast?.isSome = true ∧
        ending.toList.getLast? ≠ journalName.toList.getLast? := by decide
  have hname : file.1 ∈ [".stdout", ".stderr", ".status"].map (stage ++ ·) :=
    List.mem_map_of_mem (f := Prod.fst) hfile
  obtain ⟨ending, hending, hname⟩ := List.mem_map.mp hname
  obtain ⟨hsome, hlast⟩ := hends ending hending
  intro heq
  refine hlast ?_
  rw [heq, ← hname, String.toList_append, List.getLast?_append, Option.or_of_isSome hsome]

theorem Shelf.Tells.getD {shelf : Shelf} {entries : String → List String} (h : shelf.Tells entries)
    (stem : String) :
    (shelf stem journalName).getD [] = Utf8.encode (journalText (entries stem)) := by
  rw [h stem]
  split
  · next hnone =>
      rw [hnone, Utf8.encode_eq]
      rfl
  · rfl

/-- **What a step writes is what the journals should tell.** -/
theorem Shelf.Tells.step {shelf : Shelf} {entries : String → List String}
    (h : shelf.Tells entries) (step : Step) :
    (step.shelve shelf).Tells fun stem => step.note stem (entries stem) := by
  intro stem
  cases step with
  | save other stage output =>
      refine (Shelf.putTexts_of_ne fun file hfile hsame => ?_).trans (h stem)
      exact ne_journalName_of_mem hfile hsame.2
  | append other event =>
      show (if stem = other ∧ journalName = journalName then some
          ((shelf other journalName).getD [] ++ Utf8.encode (journalLine event))
        else shelf stem journalName) =
        if (if other = stem then entries stem ++ [trimmed event] else entries stem) = [] then none
        else some (Utf8.encode (journalText
          (if other = stem then entries stem ++ [trimmed event] else entries stem)))
      by_cases hsame : other = stem
      · subst hsame
        rw [if_pos ⟨rfl, rfl⟩, if_pos rfl, if_neg (List.append_ne_nil_of_right_ne_nil _
          (List.cons_ne_nil _ _)), h.getD, journalText_concat, encode_append, journalLine_eq]
      · rw [if_neg fun hboth => hsame hboth.1.symm, if_neg hsame]
        exact h stem
  | delete other =>
      show (if stem = other then none else shelf stem journalName) =
        if (if other = stem then [] else entries stem) = [] then none
        else some (Utf8.encode (journalText (if other = stem then [] else entries stem)))
      by_cases hsame : other = stem
      · rw [if_pos hsame.symm, if_pos hsame, if_pos rfl]
      · rw [if_neg (Ne.symm hsame), if_neg hsame]
        exact h stem

theorem Shelf.Tells.steps {shelf : Shelf} {entries : String → List String}
    (h : shelf.Tells entries) (steps : List Step) :
    (steps.foldl Step.shelve shelf).Tells fun stem =>
      steps.foldl (Step.note stem) (entries stem) := by
  induction steps generalizing shelf entries with
  | nil => exact h
  | cons step rest ih => exact ih (h.step step)

theorem Shelf.tells_empty : Shelf.empty.Tells fun _ => [] := fun _ => rfl

/-! ## The journals of a store -/

/-- A journal on a shelf is read event by event. -/
theorem Shelf.Tells.events {shelf : Shelf} {entries : String → List String}
    (h : shelf.Tells entries) {here : Place} {base : Path} {ours : String → Prop}
    (hapart : Apart here base ours) {stem : String} (hstem : ours stem) {σ : Type}
    {world : World σ} (hstands : shelf.Stands here base ours world.files) :
    (storeIn base).events stem world = (.ok ((entries stem).flatMap linesOf), world) := by
  have hexists := hstands.exists hapart hstem ordinary_journalName
  have hrun : (storeIn base).events stem world =
      if world.files.exists ((base.child stem).child journalName) then
        (((readLog ((base.child stem).child journalName)).run world).1.map fun text =>
          (splitLines text.toList).map String.ofList,
          ((readLog ((base.child stem).child journalName)).run world).2)
      else (.ok [], world) := by
    show (if world.files.exists ((base.child stem).child journalName) then _ else _ : Act σ _)
      world = _
    split <;> rfl
  rw [hrun, hexists]
  have htold := h stem
  split at htold
  · next hnone =>
      rw [htold, hnone]
      rfl
  · rw [hstands.readLog hapart hstem ordinary_journalName htold, htold]
    have htext : textOfBytes (Utf8.encode (journalText (entries stem))) =
        .ok (String.ofList (normalizeLineEnds (journalText (entries stem)).toList)) := by
      unfold textOfBytes
      rw [Utf8.decode_encode]
    rw [htext, ← splitLines_journalText]
    show (Except.ok (List.map String.ofList (splitLines (String.ofList _).toList)), world) = _
    rw [String.toList_ofList]

/-- **A journal is a list of events, if the events are lines.** Whatever a store is asked for, it
does, and its journals are read event by event: each as the lines that it is of. So a journal tells
what was appended to it since it was deleted last, no more and no less and in order, exactly if none
of these events has a line break in it but line feeds at its end. -/
theorem journal_of_steps {here : Place} {base : Path} {ours : String → Prop}
    (hapart : Apart here base ours) {σ : Type} {world : World σ}
    (hnew : Shelf.empty.Stands here base ours world.files) {steps : List Step}
    (hsteps : ∀ step ∈ steps, ours step.stem ∧ step.Plain) :
    ∃ after, runAll (storeIn base) steps world = (steps.map fun _ => .ok (), after) ∧
      ∀ stem, ours stem → ∃ lines, (storeIn base).events stem after = (.ok lines, after) ∧
        lines = (journal stem steps).flatMap linesOf ∧
        (lines = journal stem steps ↔ ∀ entry ∈ journal stem steps, OneLine entry) := by
  obtain ⟨after, hrun, hstands⟩ := stands_runAll hapart hnew hsteps
  have htells := Shelf.tells_empty.steps steps
  exact ⟨after, hrun, fun stem hstem => ⟨_, htells.events hapart hstem hstands, rfl,
    flatMap_linesOf_eq_iff⟩⟩

/-! ## A new store -/

/-- The directory of the logs. -/
def besideScripts : Path := Path.ofString "logs"

theorem apart_besideScripts : Apart [] besideScripts Path.Ordinary :=
  apart_of_ordinary (by unfold Path.Direct; decide) (fun _ => id) fun _ _ h =>
    List.cons_ne_nil _ _ (List.prefix_nil.mp h)

theorem stands_untouched :
    Shelf.empty.Stands [] besideScripts Path.Ordinary (World.untouched ()).files := by
  have hnode : ∀ place : Place, place ≠ [] → (⟨[], []⟩ : FileSystem).node? place = none :=
    fun place hplace => if_neg hplace
  refine Shelf.stands_empty rfl (FileSystem.Rooted.bare rfl) ?_ ?_
  · intro stem _ outer _ content hfile
    by_cases hroot : outer = []
    · rw [hroot] at hfile
      cases hfile
    · rw [show (World.untouched ()).files = ⟨[], []⟩ from rfl, hnode outer hroot] at hfile
      cases hfile
  · intro stem hstem
    rw [Path.lands_child_of_ordinary _ hstem]
    exact hnode _ (List.append_ne_nil_of_right_ne_nil _ (List.cons_ne_nil _ _))

/-- A build of a script, and a script that is deleted again. -/
def twoScripts : List Step :=
  [.append "demo" "build running", .save "demo" "build" ⟨0, "", ""⟩,
    .append "demo" "build completed 1.200s\n", .append "other" "build running", .delete "other"]

theorem journal_of_steps_demo :
    ∃ after, runAll (storeIn besideScripts) twoScripts (World.untouched ()) =
        (twoScripts.map fun _ => .ok (), after) ∧
      (storeIn besideScripts).events "demo" after =
        (.ok ["build running", "build completed 1.200s"], after) ∧
      (storeIn besideScripts).events "other" after = (.ok [], after) := by
  have hdemo : Path.Ordinary "demo" := ⟨by decide, by decide, by decide, by decide⟩
  have hother : Path.Ordinary "other" := ⟨by decide, by decide, by decide, by decide⟩
  have hsteps : ∀ step ∈ twoScripts, Path.Ordinary step.stem ∧ step.Plain := by
    simp only [twoScripts, List.forall_mem_cons, List.not_mem_nil, false_implies, implies_true,
      and_true]
    exact ⟨⟨hdemo, trivial⟩, ⟨hdemo, by unfold Step.Plain; decide⟩, ⟨hdemo, trivial⟩,
      ⟨hother, trivial⟩, ⟨hother, trivial⟩⟩
  obtain ⟨after, hrun, hevents⟩ :=
    journal_of_steps apart_besideScripts stands_untouched hsteps
  refine ⟨after, hrun, ?_, ?_⟩
  · obtain ⟨lines, hlines, -, htold⟩ := hevents "demo" hdemo
    have htells : journal "demo" twoScripts = ["build running", "build completed 1.200s"] := by
      decide
    rw [hlines, htold.mpr (by rw [htells]; decide), htells]
  · obtain ⟨lines, hlines, -, htold⟩ := hevents "other" hother
    have htells : journal "other" twoScripts = [] := by decide
    rw [hlines, htold.mpr (by rw [htells]; exact nofun), htells]

/-- An event of two lines is told as two events. -/
theorem journal_splits_event :
    ∃ after, runAll (storeIn besideScripts) [.append "demo" "error=x\ny"] (World.untouched ()) =
        ([.ok ()], after) ∧
      (storeIn besideScripts).events "demo" after = (.ok ["error=x", "y"], after) ∧
      journal "demo" [.append "demo" "error=x\ny"] = ["error=x\ny"] := by
  have hdemo : Path.Ordinary "demo" := ⟨by decide, by decide, by decide, by decide⟩
  have hsteps : ∀ step ∈ [Step.append "demo" "error=x\ny"],
      Path.Ordinary step.stem ∧ step.Plain := by
    intro step hstep
    rw [List.mem_singleton.mp hstep]
    exact ⟨hdemo, trivial⟩
  obtain ⟨after, hrun, hstands⟩ := stands_runAll apart_besideScripts stands_untouched hsteps
  refine ⟨after, hrun, ?_, by decide⟩
  rw [(Shelf.tells_empty.steps [.append "demo" "error=x\ny"]).events apart_besideScripts hdemo
    hstands]
  have hlines : [trimmed "error=x\ny"].flatMap linesOf = ["error=x", "y"] := by decide
  exact congrArg (fun lines => (Except.ok lines, after)) hlines

end RustScript.Log
