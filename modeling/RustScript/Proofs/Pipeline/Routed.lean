import RustScript.Proofs.Pipeline.Heard

/-!
# Which journal hears of which call

A call about a file that does not generate begins with leaving stages out before it says what it is
about, so that the notes of these go to the journal of the script before, or are lost if there was
none. Everything else goes where it belongs, unless the stem of the script is empty. `routes` says so
for any calls one after the other (`appended_of_calls`).
-/

set_option autoImplicit false

namespace RustScript.Pipeline

open RustScript.Progress

variable {σ : Type}

/-! ## Calls one after the other -/

/-- A call about a script, with what it is given. -/
structure Errand where
  script : Script
  selection : Selection
  args : List String
  capture : Bool

namespace Errand

/-- The call. -/
def call (pipeline : Pipeline σ) (errand : Errand) : Run σ (Except Failure Outcome) :=
  errand.script.call pipeline errand.selection errand.args errand.capture

/-- The call leaves out the generation before it says what it is about. -/
def resumes (errand : Errand) : Bool :=
  match errand.script with
  | .file _ => !errand.selection.generate
  | .text _ => false

/-- Of the records of the call those of which the journal of the script before hears. -/
def early (errand : Errand) (records : List Record) : List Record :=
  if errand.resumes then records.takeWhile Record.leftOut else []

/-- Of the records of the call those of which the journal of its own script hears. -/
def late (errand : Errand) (records : List Record) : List Record :=
  if errand.resumes then records.dropWhile Record.leftOut else records

/-- What is added to journals in a call with these records, when the pipeline was about `subject`
before. -/
def entries (errand : Errand) (subject : Option String) (records : List Record) : Appended :=
  notices subject (errand.early records) ++ notices (some errand.script.stem) (errand.late records)

/-- What the pipeline is about after a call with these records. -/
def leaves (errand : Errand) (subject : Option String) (records : List Record) : Option String :=
  if errand.late records = [] then subject else some errand.script.stem

/-- What would be added to journals if everything went to that of the script. -/
def own (errand : Errand) (records : List Record) : Appended :=
  notesTo errand.script.stem (records.flatMap Record.course)

/-- The call has left these records: there is one at least, and a call that leaves out the generation
begins with that. -/
structure Left (errand : Errand) (records : List Record) : Prop where
  nonempty : records ≠ []
  early : errand.resumes = true → errand.early records ≠ []

end Errand

/-- Calls one after the other, with the records that each of them leaves. Before each of them the
world may have changed in any way. -/
def callAll (pipeline : Pipeline σ) (store : Log.Store σ) :
    List ((World σ → World σ) × Errand) → Run (Appended × σ) (List (Errand × List Record))
  | [] => return []
  | (change, errand) :: rest => do
      onWorld (Act.beside (modify change))
      let _ ← errand.call (pipeline.telling store)
      let records := (← get).records
      let later ← callAll pipeline store rest
      return (errand, records) :: later

/-- What is added to journals in calls that leave these records, when the pipeline is about `subject`
before. -/
def routes (subject : Option String) : List (Errand × List Record) → Appended
  | [] => []
  | (errand, records) :: rest =>
      errand.entries subject records ++ routes (errand.leaves subject records) rest

/-- No stem is empty, and a call about a file that does not generate finds the pipeline about its own
script. -/
def Heeded (subject : Option String) : List (Errand × List Record) → Prop
  | [] => True
  | (errand, records) :: rest =>
      errand.script.stem.isEmpty = false ∧
        (errand.resumes = true → subject = some errand.script.stem) ∧
          Heeded (errand.leaves subject records) rest

/-- What is added to the journal of a script is what became known of the stages of its calls. -/
def EachItsOwn (told : List (Errand × List Record)) (appended : Appended) : Prop :=
  ∀ stem, appended.filter (·.1 == stem) =
    (told.filter (·.1.script.stem == stem)).flatMap fun entry => entry.1.own entry.2

/-! ### What one call adds -/

/-- In a call everything is told as `entries` says. -/
structure Errand.Adds (errand : Errand) (before after : Tracker (Session (Appended × σ))) :
    Prop where
  left : errand.Left after.records
  given : handed after =
    handed before ++ errand.entries before.state.subject after.records
  subject : after.state.subject = errand.leaves before.state.subject after.records

theorem takeWhile_leftOut {early late : List Record} (hearly : ∀ record ∈ early, record.leftOut = true)
    (hlate : ∀ record ∈ late.head?, record.leftOut = false) :
    (early ++ late).takeWhile Record.leftOut = early ∧
      (early ++ late).dropWhile Record.leftOut = late := by
  have hnone : late.takeWhile Record.leftOut = [] ∧ late.dropWhile Record.leftOut = late := by
    cases late with
    | nil => exact ⟨rfl, rfl⟩
    | cons record rest =>
        have hrecord : record.leftOut = false := hlate record rfl
        rw [List.takeWhile_cons, List.dropWhile_cons, hrecord]
        exact ⟨rfl, rfl⟩
  rw [List.takeWhile_append_of_pos hearly, List.dropWhile_append_of_pos hearly, hnone.1, hnone.2,
    List.append_nil]
  exact ⟨rfl, rfl⟩

/-- A call that says what it is about before anything else. -/
theorem adds_of_about (pipeline : Pipeline σ) (store : Log.Store σ) {errand : Errand}
    (hresumes : errand.resumes = false) {before after : Tracker (Session (Appended × σ))}
    {early late : List Record}
    (h : Segment errand.script.stem
      (aboutStem errand.script.stem ((pipeline.telling store).renew before).2) after early late)
    (hnonempty : early ++ late ≠ []) : errand.Adds before after := by
  have hall : after.records = early ++ late := h.records
  have hgiven : handed after = handed before ++
      (notices (some errand.script.stem) early ++ notices (some errand.script.stem) late) := h.given
  have hsubject : after.state.subject =
      if late = [] then some errand.script.stem else some errand.script.stem := h.subject
  have hearly : errand.early after.records = [] := by
    unfold Errand.early
    rw [hresumes]
    rfl
  have hlate : errand.late after.records = early ++ late := by
    unfold Errand.late
    rw [hresumes, hall]
    rfl
  refine ⟨⟨hall ▸ hnonempty, fun h => ?_⟩, ?_, ?_⟩
  · rw [hresumes] at h
    cases h
  · unfold Errand.entries
    rw [hgiven, hearly, hlate, notices_nil, notices_append, List.nil_append]
  · unfold Errand.leaves
    rw [hsubject, hlate, if_neg hnonempty, ite_self]

/-- A call that leaves out the generation before it says what it is about. -/
theorem adds_of_resuming (pipeline : Pipeline σ) (store : Log.Store σ) {errand : Errand}
    (hresumes : errand.resumes = true) {before after : Tracker (Session (Appended × σ))}
    {early late : List Record}
    (h : Segment errand.script.stem ((pipeline.telling store).renew before).2 after early late)
    (hnonempty : early ≠ []) : errand.Adds before after := by
  have hall : after.records = early ++ late := h.records
  obtain ⟨htake, hdrop⟩ := takeWhile_leftOut h.early h.late
  have hearly : errand.early after.records = early := by
    unfold Errand.early
    rw [if_pos hresumes, hall, htake]
  have hlate : errand.late after.records = late := by
    unfold Errand.late
    rw [if_pos hresumes, hall, hdrop]
  refine ⟨⟨?_, fun _ => ?_⟩, ?_, ?_⟩
  · rw [hall]
    exact List.append_ne_nil_of_left_ne_nil hnonempty _
  · rwa [hearly]
  · unfold Errand.entries
    rw [hearly, hlate]
    exact h.given
  · unfold Errand.leaves
    rw [hlate]
    exact h.subject

/-- **What one call adds to journals.** -/
theorem adds_call (pipeline : Pipeline σ) (store : Log.Store σ) (errand : Errand)
    (tracker : Tracker (Session (Appended × σ))) :
    errand.Adds tracker (errand.call (pipeline.telling store) tracker).2 := by
  obtain ⟨script, selection, args, capture⟩ := errand
  set start := ((pipeline.telling store).renew tracker).2
  have hlisteners : start.listeners = [journal store.telling] := rfl
  have habout : (aboutStem script.stem start).listeners = [journal store.telling] := rfl
  unfold Errand.call
  cases hgenerate : selection.generate with
  | true =>
      have hsame : (script.call (pipeline.telling store) selection args capture tracker) =
          proceed (script.entering (pipeline.telling store))
            ((pipeline.telling store).buildAndRun selection args capture)
            (aboutStem script.stem start) := by
        rw [Script.call_of_generate _ _ _ _ _ hgenerate]
        cases script <;> rfl
      obtain ⟨early, late, hcall, hnonempty⟩ :=
        segment_generating pipeline script selection args capture habout
      have hresumes : Errand.resumes ⟨script, selection, args, capture⟩ = false := by
        unfold Errand.resumes
        cases script with
        | file path =>
            dsimp only
            rw [hgenerate]
            rfl
        | text content => rfl
      rw [hsame]
      exact adds_of_about pipeline store hresumes hcall hnonempty
  | false =>
      rw [Script.call_of_resume script hgenerate]
      cases script with
      | text content =>
          obtain ⟨early, late, hcall, hnonempty⟩ := segment_resuming pipeline textStem none selection
            args capture habout
          have hresumes : Errand.resumes ⟨.text content, selection, args, capture⟩ = false := rfl
          exact adds_of_about pipeline store hresumes hcall
            (List.append_ne_nil_of_left_ne_nil hnonempty _)
      | file path =>
          obtain ⟨early, late, hcall, hnonempty⟩ := segment_resuming pipeline path.stem (some path)
            selection args capture hlisteners
          have hresumes : Errand.resumes ⟨.file path, selection, args, capture⟩ = true := by
            unfold Errand.resumes
            dsimp only
            rw [hgenerate]
            rfl
          exact adds_of_resuming pipeline store hresumes hcall hnonempty

/-! ### What all of them add -/

theorem handed_callAll (pipeline : Pipeline σ) (store : Log.Store σ)
    (errands : List ((World σ → World σ) × Errand)) (tracker : Tracker (Session (Appended × σ))) :
    handed (pipeline.callAll store errands tracker).2 =
        handed tracker ++ routes tracker.state.subject (pipeline.callAll store errands tracker).1 ∧
      ∀ entry ∈ (pipeline.callAll store errands tracker).1, entry.1.Left entry.2 := by
  induction errands generalizing tracker with
  | nil => exact ⟨(List.append_nil _).symm, nofun⟩
  | cons errand rest ih =>
      obtain ⟨change, errand⟩ := errand
      set changed := (onWorld (Act.beside (modify change)) tracker).2
      obtain ⟨hleft, hgiven, hsubject⟩ := adds_call pipeline store errand changed
      set called := (errand.call (pipeline.telling store) changed).2
      obtain ⟨hrest, hothers⟩ := ih called
      have hsame : changed.state.subject = tracker.state.subject := rfl
      have hkept : handed changed = handed tracker := rfl
      have hrun : pipeline.callAll store ((change, errand) :: rest) tracker =
          ((errand, called.records) :: (pipeline.callAll store rest called).1,
            (pipeline.callAll store rest called).2) := rfl
      rw [hrun]
      refine ⟨?_, ?_⟩
      · show handed (pipeline.callAll store rest called).2 = handed tracker ++
          (errand.entries tracker.state.subject called.records ++
            routes (errand.leaves tracker.state.subject called.records)
              (pipeline.callAll store rest called).1)
        rw [hrest, hgiven, hkept, hsubject, hsame, List.append_assoc]
      · intro entry hentry
        rcases List.mem_cons.mp hentry with rfl | hlater
        · exact hleft
        · exact hothers entry hlater

/-! ### When everything goes where it belongs -/

theorem mem_addressed {subject : Option String} {changes : List Record} {entry : String × String}
    (h : entry ∈ addressed subject changes) : subject = some entry.1 ∧ entry.1.isEmpty = false := by
  unfold addressed at h
  cases subject with
  | none => exact absurd h List.not_mem_nil
  | some stem =>
      dsimp only at h
      split at h
      · exact absurd h List.not_mem_nil
      · next hstem =>
          obtain ⟨record, -, rfl⟩ := List.mem_map.mp h
          exact ⟨rfl, Bool.eq_false_iff.mpr hstem⟩

theorem addressed_some {stem : String} (h : stem.isEmpty = false) (changes : List Record) :
    addressed (some stem) changes = notesTo stem changes := by
  unfold addressed
  dsimp only
  rw [if_neg (Bool.eq_false_iff.mp h)]

theorem length_addressed_le (subject : Option String) (changes : List Record) :
    (addressed subject changes).length ≤ changes.length := by
  unfold addressed notesTo
  cases subject with
  | none => exact Nat.zero_le _
  | some stem =>
      dsimp only
      split
      · exact Nat.zero_le _
      · exact (List.length_map _).le

theorem flatMap_course_ne_nil {records : List Record} (h : records ≠ []) :
    records.flatMap Record.course ≠ [] := by
  obtain ⟨record, rest, rfl⟩ := List.exists_cons_of_ne_nil h
  rw [List.flatMap_cons]
  exact List.append_ne_nil_of_left_ne_nil record.course_ne_nil _

namespace Errand

variable {errand : Errand} {records : List Record} {subject : Option String}

theorem early_append_late (errand : Errand) (records : List Record) :
    errand.early records ++ errand.late records = records := by
  unfold early late
  cases errand.resumes with
  | true => exact List.takeWhile_append_dropWhile
  | false => rfl

theorem own_eq (errand : Errand) (records : List Record) :
    errand.own records = notesTo errand.script.stem ((errand.early records).flatMap Record.course) ++
      notesTo errand.script.stem ((errand.late records).flatMap Record.course) := by
  unfold own notesTo
  rw [← List.map_append, ← List.flatMap_append, early_append_late]

theorem length_own (errand : Errand) (records : List Record) :
    (errand.own records).length = ((errand.early records).flatMap Record.course).length +
      ((errand.late records).flatMap Record.course).length := by
  rw [own_eq, List.length_append]
  unfold notesTo
  rw [List.length_map, List.length_map]

/-- Nothing is added twice. -/
theorem length_entries_le (errand : Errand) (subject : Option String) (records : List Record) :
    (errand.entries subject records).length ≤ (errand.own records).length := by
  unfold entries notices
  rw [length_own, List.length_append]
  exact Nat.add_le_add (length_addressed_le _ _) (length_addressed_le _ _)

/-- **A call adds to the journal of its script, and to no other**, exactly if the stem is not empty
and a call that leaves out the generation first finds the pipeline about its own script. -/
theorem entries_eq_own_iff (h : errand.Left records) :
    errand.entries subject records = errand.own records ↔
      errand.script.stem.isEmpty = false ∧
        (errand.resumes = true → subject = some errand.script.stem) := by
  constructor
  · intro heq
    have hown : ∀ entry ∈ errand.own records, entry.1 = errand.script.stem := by
      intro entry hentry
      obtain ⟨record, -, rfl⟩ := List.mem_map.mp hentry
      rfl
    have hstem : errand.script.stem.isEmpty = false := by
      obtain ⟨change, rest, hchanges⟩ :=
        List.exists_cons_of_ne_nil (flatMap_course_ne_nil h.nonempty)
      have hfirst : (errand.script.stem, note change) ∈ errand.entries subject records := by
        rw [heq]
        unfold own notesTo
        rw [hchanges]
        exact List.mem_cons_self
      rcases List.mem_append.mp hfirst with hfirst | hfirst
      · exact (mem_addressed hfirst).2
      · exact (mem_addressed hfirst).2
    refine ⟨hstem, fun hresumes => ?_⟩
    have hearly := flatMap_course_ne_nil (h.early hresumes)
    cases hnotices : notices subject (errand.early records) with
    | cons entry rest =>
        -- what the journal of the script before hears of is among what this script is owed
        have hentry : entry ∈ notices subject (errand.early records) := by
          rw [hnotices]
          exact List.mem_cons_self
        have hmem : entry ∈ errand.own records := by
          rw [← heq]
          exact List.mem_append_left _ hentry
        rw [← hown entry hmem]
        exact (mem_addressed hentry).1
    | nil =>
        -- something is lost, so that there are not enough entries
        have hlength := congrArg List.length heq
        unfold entries at hlength
        rw [hnotices, List.nil_append, length_own] at hlength
        have hlate := length_addressed_le (some errand.script.stem)
          ((errand.late records).flatMap Record.course)
        have hpositive := List.length_pos_of_ne_nil hearly
        unfold notices at hlength
        omega
  · rintro ⟨hstem, hsubject⟩
    rw [own_eq]
    unfold entries notices
    rw [addressed_some hstem]
    cases hresumes : errand.resumes with
    | true => rw [hsubject hresumes, addressed_some hstem]
    | false =>
        have hnone : errand.early records = [] := by
          unfold early
          rw [hresumes]
          rfl
        rw [hnone]
        exact congrArg (· ++ _) (addressed_nil subject)

end Errand

theorem length_routes_le (subject : Option String) (told : List (Errand × List Record)) :
    (routes subject told).length ≤ (told.flatMap fun entry => entry.1.own entry.2).length := by
  induction told generalizing subject with
  | nil => exact Nat.le_refl _
  | cons entry rest ih =>
      unfold routes
      rw [List.flatMap_cons, List.length_append, List.length_append]
      exact Nat.add_le_add (Errand.length_entries_le _ _ _) (ih _)

/-- **Everything goes where it belongs** exactly if all calls are heeded. -/
theorem routes_eq_iff {told : List (Errand × List Record)}
    (h : ∀ entry ∈ told, entry.1.Left entry.2) (subject : Option String) :
    routes subject told = (told.flatMap fun entry => entry.1.own entry.2) ↔
      Heeded subject told := by
  induction told generalizing subject with
  | nil => exact iff_of_true rfl trivial
  | cons entry rest ih =>
      obtain ⟨errand, records⟩ := entry
      have hleft : errand.Left records := h _ List.mem_cons_self
      have hrest := ih (fun entry hentry => h entry (List.mem_cons_of_mem _ hentry))
        (errand.leaves subject records)
      unfold routes Heeded
      rw [List.flatMap_cons, ← hrest, ← and_assoc, ← Errand.entries_eq_own_iff hleft]
      constructor
      · intro heq
        have hlength := congrArg List.length heq
        rw [List.length_append, List.length_append] at hlength
        dsimp only at hlength
        have hentries := errand.length_entries_le subject records
        have hroutes := length_routes_le (errand.leaves subject records) rest
        exact List.append_inj heq (by omega)
      · rintro ⟨hentries, hroutes⟩
        rw [hentries, hroutes]

theorem eachItsOwn_of_eq {told : List (Errand × List Record)} {appended : Appended}
    (h : appended = told.flatMap fun entry => entry.1.own entry.2) : EachItsOwn told appended := by
  intro stem
  subst h
  induction told with
  | nil => rfl
  | cons entry rest ih =>
      rw [List.flatMap_cons, List.filter_append, ih, List.filter_cons]
      by_cases hstem : entry.1.script.stem = stem
      · have hall : (entry.1.own entry.2).filter (·.1 == stem) = entry.1.own entry.2 := by
          refine List.filter_eq_self.mpr fun note hnote => ?_
          obtain ⟨record, -, rfl⟩ := List.mem_map.mp hnote
          exact beq_iff_eq.mpr hstem
        rw [hall, if_pos (beq_iff_eq.mpr hstem), List.flatMap_cons]
      · have hnone : (entry.1.own entry.2).filter (·.1 == stem) = [] := by
          refine List.filter_eq_nil_iff.mpr fun note hnote => ?_
          obtain ⟨record, -, rfl⟩ := List.mem_map.mp hnote
          exact mt beq_iff_eq.mp hstem
        rw [hnone, if_neg (mt beq_iff_eq.mp hstem), List.nil_append]

/-- **Which journal hears of what**, for any calls one after the other: that of the script that the
pipeline was last told to be about. So every journal hears of the stages of its own calls, each once
and in order, if no stem is empty and every call about a file that does not generate finds the
pipeline about its own script, and only then does every entry go to the journal that it belongs
to. -/
theorem appended_of_calls (pipeline : Pipeline σ) (store : Log.Store σ)
    (errands : List ((World σ → World σ) × Errand)) (world : World σ) :
    let run := pipeline.callAll store errands ((pipeline.telling store).opened (world.keeping []))
    handed run.2 = routes none run.1 ∧
      (handed run.2 = (run.1.flatMap fun entry => entry.1.own entry.2) ↔ Heeded none run.1) ∧
      (Heeded none run.1 → EachItsOwn run.1 (handed run.2)) := by
  intro run
  obtain ⟨hgiven, hleft⟩ := handed_callAll pipeline store errands
    ((pipeline.telling store).opened (world.keeping []))
  have hroutes : handed run.2 = routes none run.1 := hgiven
  have hiff := routes_eq_iff hleft none
  rw [← hroutes] at hiff
  exact ⟨hroutes, hiff, fun hheeded => eachItsOwn_of_eq (hiff.mpr hheeded)⟩

/-- Two scripts are built and run without generating, each by a call of its own. -/
def twoErrands : List (Errand × List Record) × Tracker (Session (Appended × Rehearsal.Trace)) :=
  (rehearsed []).callAll (Log.storeIn (Path.ofString "logs"))
    [(id, ⟨.file (Path.ofString "a.rs"), ⟨false, true, false⟩, [], true⟩),
      (id, ⟨.file (Path.ofString "b.rs"), ⟨false, false, true⟩, [], true⟩)]
    (((rehearsed []).telling (Log.storeIn (Path.ofString "logs"))).opened
      ((World.untouched .empty).keeping []))

/-- **The journal of the first script hears of the second one**, and the first note is lost. -/
theorem journal_hears_of_other : ¬ EachItsOwn twoErrands.1 (handed twoErrands.2) := by
  intro h
  have hlength := congrArg List.length (h "b")
  have hshort : ((handed twoErrands.2).filter (·.1 == "b")).length = 2 := by decide +kernel
  have hlong : ((twoErrands.1.filter (·.1.script.stem == "b")).flatMap
      fun entry => entry.1.own entry.2).length = 4 := by decide +kernel
  rw [hshort, hlong] at hlength
  cases hlength

end RustScript.Pipeline
