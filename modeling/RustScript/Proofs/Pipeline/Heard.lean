import RustScript.Proofs.Pipeline.Handover
import RustScript.Proofs.Pipeline.Tasks

/-!
# What journals hear

The pipeline `telling` has a store that takes down what it is given to add to journals. The journal
that hears of a stage is that of the script that the pipeline was last told to be about: a stage that
is left out is noted for the script before, and any other stage for its own. `Segment` says so of a
part of a call, and is closed under doing one thing after the other.
-/

set_option autoImplicit false

namespace RustScript

/-! ## What a store is given -/

/-- What a store was given to add to journals: the stem of the script and the line, in order. -/
abbrev Appended := List (String × String)

/-- The store that takes down what it is given to add to journals. -/
def Log.Store.telling {σ : Type} (store : Log.Store σ) : Log.Store (Appended × σ) :=
  { (store.beside : Log.Store (Appended × σ)) with
    append := fun stem line => do
      Act.outside fun kept => (kept.1 ++ [(stem, line)], kept.2)
      (store.append stem line).beside }

/-- The pipeline with a store that takes down what it is given to add to journals. -/
def Pipeline.telling {σ : Type} (pipeline : Pipeline σ) (store : Log.Store σ) :
    Pipeline (Appended × σ) where
  settings := pipeline.settings
  resolver := pipeline.resolver.beside
  runner := pipeline.runner.beside
  store := some store.telling
  structural := pipeline.structural

namespace Progress

/-- The stage was left out. -/
def Record.leftOut (record : Record) : Bool := record.status = .skipped

/-- What became known of a stage, one after the other. -/
def Record.course (record : Record) : List Record :=
  if record.leftOut then [record]
  else [⟨record.stage, .running, record.started, none, "", none⟩, record]

theorem Record.course_ne_nil (record : Record) : record.course ≠ [] := by
  unfold Record.course
  split <;> exact List.cons_ne_nil _ _

theorem Record.leftOut_finish (record : Record) (now : Binary64) (error : Option String) :
    (record.finish now error).leftOut = false := by cases error <;> rfl

end Progress

namespace Pipeline

open RustScript.Progress

variable {σ α β : Type}

/-- The notes about some changes of records, for the journal of a script. -/
def notesTo (stem : String) (changes : List Record) : Appended :=
  changes.map fun record => (stem, note record)

/-- The notes about some changes of records that are taken when the pipeline is about `subject`. -/
def addressed (subject : Option String) (changes : List Record) : Appended :=
  match subject with
  | none => []
  | some stem => if stem.isEmpty then [] else notesTo stem changes

theorem addressed_append (subject : Option String) (changes later : List Record) :
    addressed subject (changes ++ later) =
      addressed subject changes ++ addressed subject later := by
  unfold addressed notesTo
  cases subject with
  | none => rfl
  | some stem =>
      dsimp only
      split
      · rfl
      · exact List.map_append

theorem addressed_nil (subject : Option String) : addressed subject [] = [] := by
  unfold addressed notesTo
  cases subject with
  | none => rfl
  | some stem =>
      dsimp only
      split <;> rfl

/-- The notes about what became known of some stages. -/
def notices (subject : Option String) (records : List Record) : Appended :=
  addressed subject (records.flatMap Record.course)

theorem notices_append (subject : Option String) (records later : List Record) :
    notices subject (records ++ later) = notices subject records ++ notices subject later := by
  unfold notices
  rw [List.flatMap_append, addressed_append]

theorem notices_nil (subject : Option String) : notices subject [] = [] := addressed_nil subject

/-- What the store has been given so far. -/
def handed (tracker : Tracker (Session (Appended × σ))) : Appended := tracker.state.world.outside.1

/-! ## Actions that give the store nothing -/

/-- Nothing is given to the store. -/
def silentWorld (σ : Type) : Frame (World (Appended × σ)) where
  rel before after := after.outside.1 = before.outside.1
  refl _ := rfl
  trans first second := second.trans first

/-- Nothing is given to the store, and what goes on does so in the world alone. -/
def silent (σ : Type) : Frame (Tracker (Session (Appended × σ))) :=
  (bodyFrame (Appended × σ)).both ((silentWorld σ).on fun tracker => tracker.state.world)

theorem silent_beside (action : Act σ α) : (silentWorld σ).Keeps (action.beside (κ := Appended)) :=
  fun _ => rfl

theorem silent_onWorld {action : Act (Appended × σ) α} (h : (silentWorld σ).Keeps action) :
    (silent σ).Keeps (onWorld action) := fun tracker =>
  ⟨keeps_body_onWorld action tracker, h tracker.state.world⟩

section

variable (pipeline : Pipeline σ) (store : Log.Store σ)

theorem silent_generateStep (metadata : Source.Metadata) (project : Project) :
    (silent σ).Keeps ((pipeline.telling store).generateStep metadata project) := by
  have hresolve : (silentWorld σ).Keeps
      ((pipeline.telling store).resolveManifest metadata project) :=
    Frame.keeps_bind (keeps_merge (fun _ => silent_beside _) _ _ _ _ _) fun _ => Frame.keeps_pure _
  exact keeps_generateStep_of (silent_onWorld hresolve) (fun _ _ => silent_onWorld fun _ => rfl)
    fun _ => silent_onWorld fun _ => rfl

theorem silent_commandStep (stem stage : String) (needed : Path) (missing : Failure)
    (call : Command.Call) (fault : Command.Fault → Failure) (failed : Command.Output → Failure)
    (done : Command.Output → Step Command.Output) :
    (silent σ).Keeps
      ((pipeline.telling store).commandStep stem stage needed missing call fault failed done) := by
  refine Frame.keeps_bind (silent_onWorld fun _ => rfl) fun present => ?_
  cases present with
  | false => exact Frame.keeps_pure _
  | true =>
      refine Frame.keeps_bind (silent_onWorld (silent_beside _)) fun answer => ?_
      cases answer with
      | error problem => exact Frame.keeps_pure _
      | ok output =>
          refine Frame.keeps_bind ?_ fun _ => ?_
          · exact Frame.keeps_bind (silent_onWorld (silent_beside _)) fun _ => Frame.keeps_pure _
          · cases output.ok <;> exact Frame.keeps_pure _

end

/-! ## Segments of a call -/

/-- Between the two states some stages were left out first (`early`), of which the journal of the
script before heard, and then others were gone through (`late`), of which the journal of the script
`stem` heard. -/
structure Segment (stem : String) (before after : Tracker (Session (Appended × σ)))
    (early late : List Record) : Prop where
  listeners : after.listeners = before.listeners
  records : after.records = before.records ++ (early ++ late)
  given : handed after =
    handed before ++ (notices before.state.subject early ++ notices (some stem) late)
  subject : after.state.subject = if late = [] then before.state.subject else some stem
  early : ∀ record ∈ early, record.leftOut = true
  late : ∀ record ∈ late.head?, record.leftOut = false

/-- **One segment after the other**: what was gone through in the first one stays in front. -/
theorem Segment.trans {stem : String} {first second third : Tracker (Session (Appended × σ))}
    {early late early' late' : List Record} (h : Segment stem first second early late)
    (h' : Segment stem second third early' late') :
    ∃ sooner later, Segment stem first third sooner later ∧ early <+: sooner ∧
      early ++ late <+: sooner ++ later := by
  have hrecords : third.records = first.records ++ (early ++ late ++ (early' ++ late')) := by
    rw [h'.records, h.records, List.append_assoc]
  by_cases hlate : late = []
  · -- the pipeline is still about the script before
    subst hlate
    have hsubject : second.state.subject = first.state.subject := h.subject
    refine ⟨early ++ early', late',
      ⟨h'.listeners.trans h.listeners, ?_, ?_, ?_, ?_, h'.late⟩, List.prefix_append _ _, ?_⟩
    · rw [hrecords, List.append_nil, List.append_assoc]
    · rw [h'.given, h.given, hsubject, notices_nil, notices_append, List.append_nil]
      simp only [List.append_assoc]
    · rw [h'.subject, hsubject]
    · intro record hrecord
      exact (List.mem_append.mp hrecord).elim (h.early record) (h'.early record)
    · rw [List.append_nil, List.append_assoc]
      exact List.prefix_append _ _
  · have hsubject : second.state.subject = some stem := by rw [h.subject, if_neg hlate]
    have hlater : late ++ (early' ++ late') ≠ [] := List.append_ne_nil_of_left_ne_nil hlate _
    refine ⟨early, late ++ (early' ++ late'),
      ⟨h'.listeners.trans h.listeners, ?_, ?_, ?_, h.early, ?_⟩, List.prefix_refl _, ?_⟩
    · rw [hrecords, List.append_assoc]
    · rw [h'.given, h.given, hsubject, notices_append, notices_append]
      simp only [List.append_assoc]
    · rw [h'.subject, hsubject, if_neg hlater]
      split <;> rfl
    · obtain ⟨head, rest, rfl⟩ := List.exists_cons_of_ne_nil hlate
      exact h.late
    · rw [← List.append_assoc]
      exact List.prefix_append _ _

/-- What is done with a store that takes down what it is given is a segment about the script
`stem`. -/
def Heard (store : Log.Store σ) (stem : String) (action : Run (Appended × σ) α) : Prop :=
  ∀ tracker, tracker.listeners = [journal store.telling] →
    ∃ early late, Segment stem tracker (action tracker).2 early late

section

variable {store : Log.Store σ} {stem : String}

/-- **One thing after the other**: what the first one gives has a property that the second one
needs. -/
theorem Segment.proceed {gives : α → Prop} {action : Run (Appended × σ) (Except Failure α)}
    {next : α → Run (Appended × σ) (Except Failure β)}
    {tracker : Tracker (Session (Appended × σ))} (hlisteners : tracker.listeners = [journal store.telling])
    {early late : List Record} (h : Segment stem tracker (action tracker).2 early late)
    (hgives : ∀ value, (action tracker).1 = .ok value → gives value)
    (hnext : ∀ value, gives value → Heard store stem (next value)) :
    ∃ sooner later, Segment stem tracker (Pipeline.proceed action next tracker).2 sooner later ∧
      early <+: sooner ∧ early ++ late <+: sooner ++ later := by
  rw [proceed_apply]
  cases hresult : (action tracker).1 with
  | error failure => exact ⟨early, late, h, List.prefix_refl _, List.prefix_refl _⟩
  | ok value =>
      obtain ⟨early', late', hsecond⟩ := hnext value (hgives value hresult) (action tracker).2
        (h.listeners.trans hlisteners)
      exact h.trans hsecond

theorem Heard.proceed {gives : α → Prop} {action : Run (Appended × σ) (Except Failure α)}
    {next : α → Run (Appended × σ) (Except Failure β)} (h : Heard store stem action)
    (hgives : ∀ tracker value, (action tracker).1 = .ok value → gives value)
    (hnext : ∀ value, gives value → Heard store stem (next value)) :
    Heard store stem (Pipeline.proceed action next) := by
  intro tracker hlisteners
  obtain ⟨early, late, hfirst⟩ := h tracker hlisteners
  obtain ⟨sooner, later, hboth, -⟩ := hfirst.proceed hlisteners (hgives tracker) hnext
  exact ⟨sooner, later, hboth⟩

/-! ## What the journal is told -/

/-- The store is given notes about some changes of records, and the pipeline stays about the same
script. -/
structure PassesOn (before after : Tracker (Session (Appended × σ))) (changes : List Record) :
    Prop where
  listeners : after.listeners = before.listeners
  subject : after.state.subject = before.state.subject
  given : handed after = handed before ++ addressed before.state.subject changes

omit stem in
theorem PassesOn.trans {first second third : Tracker (Session (Appended × σ))}
    {changes later : List Record} (h : PassesOn first second changes) (h' : PassesOn second third later) :
    PassesOn first third (changes ++ later) where
  listeners := h'.listeners.trans h.listeners
  subject := h'.subject.trans h.subject
  given := by rw [h'.given, h.given, h.subject, addressed_append, List.append_assoc]

theorem passesOn_of_silent {before after : Tracker (Session (Appended × σ))}
    (h : (silent σ).rel before after) : PassesOn before after [] where
  listeners := h.1.1
  subject := h.1.2.2
  given := by
    have hgiven : handed after = handed before := h.2
    rw [hgiven, addressed_nil, List.append_nil]

theorem passesOn_tell (record : Record) (tracker : Tracker (Session (Appended × σ)))
    (h : tracker.listeners = [journal store.telling]) :
    PassesOn tracker (tell record tracker).2 [record] := by
  obtain ⟨records, listeners, world, subject⟩ := tracker
  subst h
  have htold : (tell record ⟨records, [journal store.telling], ⟨world, subject⟩⟩).2.state =
      (journal store.telling record ⟨world, subject⟩).2 := rfl
  refine ⟨rfl, ?_, ?_⟩
  · rw [htold, journal_apply]
    cases subject with
    | none => rfl
    | some stem =>
        dsimp only
        split <;> rfl
  · unfold handed addressed
    rw [htold, journal_apply]
    cases subject with
    | none => exact (List.append_nil _).symm
    | some stem =>
        dsimp only
        split
        · exact (List.append_nil _).symm
        · rfl

theorem passesOn_start (record : Record) (tracker : Tracker (Session (Appended × σ)))
    (h : tracker.listeners = [journal store.telling]) :
    (start record tracker).2.records = tracker.records ++ [record] ∧
      PassesOn tracker (start record tracker).2 [record] := by
  obtain ⟨hlisteners, hsubject, hgiven⟩ := passesOn_tell record
    ⟨tracker.records ++ [record], tracker.listeners, tracker.state⟩ h
  exact ⟨rfl, hlisteners, hsubject, hgiven⟩

omit stem in
theorem passesOn_now (tracker : Tracker (Session (Appended × σ))) :
    PassesOn tracker (onState now tracker).2 [] := by
  have hnow : (silentWorld σ).Keeps Act.now := fun _ => rfl
  exact passesOn_of_silent (silent_onWorld hnow tracker)

/-- The record of a stage is finished, and the journal hears of that. -/
theorem passesOn_finish (error : Option String) {records : List Record} {record : Record}
    (tracker : Tracker (Session (Appended × σ))) (h : tracker.listeners = [journal store.telling])
    (hrecords : tracker.records = records ++ [record]) :
    ∃ reading, (finish now records.length error tracker).2.records =
        records ++ [record.finish reading error] ∧
      PassesOn tracker (finish now records.length error tracker).2 [record.finish reading error] := by
  set reading := (now tracker.state).1
  set finished : Tracker (Session (Appended × σ)) := ⟨records ++ [record.finish reading error],
    tracker.listeners, (now tracker.state).2⟩
  have hrecord : (tracker.records.modify records.length fun record =>
      record.finish (onState now tracker).1 error) = finished.records := by
    rw [hrecords, modify_last]
    rfl
  have hamended : (amend records.length (fun record => record.finish (onState now tracker).1 error)
      (onState now tracker).2).2 = finished := by
    show Tracker.mk (tracker.records.modify records.length _) _ _ = _
    rw [hrecord]
    rfl
  have hfinish : finish now records.length error tracker =
      ((), (tell (record.finish reading error) finished).2) := by
    have hfound : ((get : Run _ _) finished).1.records[records.length]? =
        some (record.finish reading error) := List.getElem?_concat_length
    unfold finish
    rw [Frame.stateBind_apply, Frame.stateBind_apply, Frame.stateBind_apply, hamended, hfound]
    rfl
  have htold := passesOn_tell (record.finish reading error) finished h
  refine ⟨reading, ?_, ?_⟩
  · rw [hfinish]
    rfl
  · rw [hfinish]
    exact (passesOn_now tracker).trans ⟨htold.listeners, htold.subject, htold.given⟩

/-- The last record that a stage added is amended, and stays one of the same stage. -/
def Amended (before after : Tracker (Session (Appended × σ))) (place : Nat) : Prop :=
  ∃ change : Record → Record, (∀ record, (change record).stage = record.stage ∧
    (change record).started = record.started) ∧ after.records = before.records.modify place change

theorem track_apply (stage : String) (describe : Failure → String)
    (body : Nat → Run (Appended × σ) (Except Failure α))
    (tracker : Tracker (Session (Appended × σ))) :
    (track now stage describe body tracker).2 =
      (finish now (opening stage tracker).1
        (errorOf describe (body (opening stage tracker).1 (opening stage tracker).2).1)
        (body (opening stage tracker).1 (opening stage tracker).2).2).2 := by
  have hopening : opening stage tracker =
      start (.begin stage (onState now tracker).1) (onState now tracker).2 := rfl
  unfold track
  rw [Frame.stateBind_apply, Frame.stateBind_apply, Frame.stateBind_apply, ← hopening]
  rcases body (opening stage tracker).1 (opening stage tracker).2 with ⟨_ | _, after⟩ <;> rfl

/-- **A tracked stage** adds a record, and the journal hears of its beginning and of its end. -/
theorem passesOn_track (stage : String) (describe : Failure → String)
    (body : Nat → Run (Appended × σ) (Except Failure α))
    (hbody : ∀ tracker place, PassesOn tracker (body place tracker).2 [] ∧
      Amended tracker (body place tracker).2 place)
    (tracker : Tracker (Session (Appended × σ)))
    (h : tracker.listeners = [journal store.telling]) :
    ∃ record, record.leftOut = false ∧
      (track now stage describe body tracker).2.records = tracker.records ++ [record] ∧
      PassesOn tracker (track now stage describe body tracker).2 record.course := by
  set reading := (now tracker.state).1
  set read := (onState now tracker).2
  obtain ⟨hbegun, hstart⟩ := passesOn_start (.begin stage reading) read h
  set begun := (start (.begin stage reading) read).2
  obtain ⟨hworks, change, hchange, hamended⟩ := hbody begun read.records.length
  set result := (body read.records.length begun).1
  set worked := (body read.records.length begun).2
  have hlast : worked.records = read.records ++ [change (.begin stage reading)] := by
    rw [hamended, hbegun, modify_last]
  obtain ⟨ending, hfinished, hend⟩ := passesOn_finish (errorOf describe result) worked
    ((hworks.listeners.trans hstart.listeners).trans h) hlast
  set record := (change (.begin stage reading)).finish ending (errorOf describe result)
  have hleft : record.leftOut = false := Record.leftOut_finish _ _ _
  have hcourse : record.course = [.begin stage reading, record] := by
    have hstage : record.stage = stage := (hchange _).1
    have hstarted : record.started = some reading := (hchange _).2
    unfold Record.course
    rw [if_neg (Bool.eq_false_iff.mp hleft), hstage, hstarted]
    rfl
  have htrack : (track now stage describe body tracker).2 =
      (finish now read.records.length (errorOf describe result) worked).2 :=
    track_apply stage describe body tracker
  refine ⟨record, hleft, ?_, ?_⟩
  · rw [htrack]
    exact hfinished
  · rw [htrack, hcourse]
    exact (((passesOn_now tracker).trans hstart).trans hworks).trans hend

/-- **A stage of a script** is a segment: once the pipeline is about the script, its journal hears of
the stage. -/
theorem Segment.of_stage {before after : Tracker (Session (Appended × σ))} {record : Record}
    (hleft : record.leftOut = false) (hrecords : after.records = before.records ++ [record])
    (h : PassesOn (aboutStem stem before) after record.course) :
    Segment stem before after [] [record] where
  listeners := h.listeners
  records := hrecords
  given := by
    have hgiven : handed after = handed before ++ addressed (some stem) record.course := h.given
    rw [hgiven, notices_nil, List.nil_append]
    unfold notices
    rw [List.flatMap_singleton]
  subject := h.subject
  early := nofun
  late := by
    intro head hhead
    rwa [← Option.some.inj hhead]

/-- A stage that is left out is a segment: the journal at hand hears of it. -/
theorem segment_skip (stem stage reason : String) {tracker : Tracker (Session (Appended × σ))}
    (h : tracker.listeners = [journal store.telling]) :
    Segment stem tracker (skip stage reason tracker).2 [.skip stage reason] [] := by
  obtain ⟨hrecords, htold⟩ := passesOn_start (.skip stage reason) tracker h
  refine ⟨htold.listeners, hrecords, ?_, htold.subject, ?_, nofun⟩
  · rw [notices_nil, List.append_nil]
    exact htold.given
  · intro record hrecord
    rw [List.mem_singleton.mp hrecord]
    rfl

theorem passesOn_body {place : Nat} {before after : Tracker (Session (Appended × σ))}
    (h : (silent σ).rel before after) : PassesOn before after [] ∧ Amended before after place := by
  refine ⟨passesOn_of_silent h, id, fun _ => ⟨rfl, rfl⟩, ?_⟩
  rw [h.1.2.1, List.modify_id]

/-- The detail that a stage gives when it succeeds is all that its body changes in the records. -/
theorem passesOn_detailed (place : Nat) (detail : α → String)
    {body : Run (Appended × σ) (Except Failure α)} (hbody : (silent σ).Keeps body)
    {next : Except Failure α → Run (Appended × σ) (Except Failure α)}
    (herror : ∀ failure, next (.error failure) = pure (.error failure))
    (hok : ∀ value, next (.ok value) = (do setDetail place (detail value); return .ok value))
    (tracker : Tracker (Session (Appended × σ))) :
    PassesOn tracker ((body >>= next) tracker).2 [] ∧
      Amended tracker ((body >>= next) tracker).2 place := by
  have hsilent := hbody tracker
  rw [Frame.stateBind_apply]
  revert hsilent
  rcases body tracker with ⟨failure | value, between⟩ <;> intro hsilent
  · dsimp only
    rw [herror]
    exact passesOn_body hsilent
  · obtain ⟨hlisteners, hsubject, hgiven⟩ := passesOn_of_silent hsilent
    dsimp only
    rw [hok]
    refine ⟨⟨hlisteners, hsubject, hgiven⟩, fun record => { record with detail := detail value },
      fun _ => ⟨rfl, rfl⟩, ?_⟩
    show between.records.modify place _ = _
    rw [hsilent.1.2.1]

theorem passesOn_recorded (stage : String) {body : Run (Appended × σ) (Except Failure (Step α))}
    (hbody : (silent σ).Keeps body) (tracker : Tracker (Session (Appended × σ)))
    (h : tracker.listeners = [journal store.telling]) :
    ∃ record, record.leftOut = false ∧
      (recorded stage body tracker).2.records = tracker.records ++ [record] ∧
      PassesOn tracker (recorded stage body tracker).2 record.course := by
  unfold recorded
  refine passesOn_track stage Failure.message _ (fun tracker place => ?_) tracker h
  refine passesOn_detailed place Step.detail hbody ?_ ?_ tracker <;> exact fun _ => rfl

/-- **A stage on a project**, once the pipeline is about its script. -/
theorem segment_inStage (stem stage : String) (project : Project)
    {body : Run (Appended × σ) (Except Failure (Step α))} (hbody : (silent σ).Keeps body)
    {tracker : Tracker (Session (Appended × σ))} (h : tracker.listeners = [journal store.telling]) :
    ∃ record, Segment stem tracker (inStage stage project body (aboutStem stem tracker)).2 []
      [record] := by
  obtain ⟨record, hleft, hrecords, htold⟩ := passesOn_recorded stage hbody (aboutStem stem tracker) h
  refine ⟨record, ?_⟩
  rw [inStage_apply]
  exact .of_stage hleft hrecords htold

/-- **Analyzing** a script. -/
theorem segment_analysis (pipeline : Pipeline σ) (script : Script)
    {tracker : Tracker (Session (Appended × σ))} (h : tracker.listeners = [journal store.telling]) :
    ∃ record, Segment script.stem tracker (script.analysis (pipeline.telling store) tracker).2 []
      [record] := by
  cases script with
  | file path =>
      have hfile : (silentWorld σ).Keeps ((pipeline.telling store).analyzeFile path) := by
        refine Frame.keeps_bind (Frame.keeps_bind (Frame.keeps_bind (fun _ => rfl) fun content => ?_)
          fun text => ?_) fun _ => Frame.keeps_pure _
        · cases content <;> exact Frame.keeps_pure _
        · rcases text with (_ | _) | _ <;> exact Frame.keeps_pure _
      have hworks : ∀ tracker place,
          PassesOn tracker ((pipeline.telling store).analyzeStep path place tracker).2 [] ∧
            Amended tracker ((pipeline.telling store).analyzeStep path place tracker).2 place := by
        intro tracker place
        refine passesOn_detailed place analysisDetail (silent_onWorld hfile) ?_ ?_ tracker <;>
          exact fun _ => rfl
      obtain ⟨record, hleft, hrecords, htold⟩ := passesOn_track "analyze" Failure.message _ hworks
        (aboutStem path.stem tracker) h
      exact ⟨record, .of_stage hleft hrecords htold⟩
  | text content =>
      obtain ⟨record, hleft, hrecords, htold⟩ := passesOn_track "analyze" Failure.message
        (fun _ => pure ((pipeline.telling store).analyzeText content))
        (fun tracker _ => passesOn_body ((silent σ).refl tracker)) (aboutStem textStem tracker) h
      exact ⟨record, .of_stage hleft hrecords htold⟩

/-! ## Calls -/

/-- Building in a call, or leaving it out. -/
theorem heard_buildIf (pipeline : Pipeline σ) (selected : Bool) {outcome : Outcome}
    (hstem : outcome.project.stem = stem) :
    Heard store stem ((pipeline.telling store).buildIf selected outcome) := by
  intro tracker hlisteners
  cases selected with
  | false => exact ⟨_, _, segment_skip stem "build" notRequested hlisteners⟩
  | true =>
      obtain ⟨record, hstage⟩ := segment_inStage stem "build" outcome.project
        (silent_commandStep pipeline store _ _ _ _ _ _ _ _) hlisteners
      rw [buildIf_true, hstem]
      exact ⟨[], [record], hstage⟩

theorem heard_runIf (pipeline : Pipeline σ) (selected : Bool) (args : List String) (capture : Bool)
    {outcome : Outcome} (hstem : outcome.project.stem = stem) :
    Heard store stem ((pipeline.telling store).runIf selected args capture outcome) := by
  intro tracker hlisteners
  cases selected with
  | false => exact ⟨_, _, segment_skip stem "run" notRequested hlisteners⟩
  | true =>
      obtain ⟨record, hstage⟩ := segment_inStage stem "run" outcome.project
        (silent_commandStep pipeline store _ _ _ _ _ _ _ _) hlisteners
      rw [runIf_true, hstem]
      exact ⟨[], [record], hstage⟩

theorem stem_of_buildIf {pipeline : Pipeline σ} {selected : Bool} {outcome made : Outcome}
    {tracker : Tracker (Session σ)} (h : (pipeline.buildIf selected outcome tracker).1 = .ok made) :
    made.project.stem = outcome.project.stem := by
  cases selected with
  | false =>
      have hmade : (Except.ok outcome : Except Failure Outcome) = .ok made := h
      rw [← Except.ok.inj hmade]
  | true =>
      have hplace := sharesPlace_build pipeline outcome.project tracker
      have hresult : (pipeline.buildIf true outcome tracker).1 =
          (pipeline.build outcome.project tracker).1.2.map fun output =>
            { outcome with
              project := (pipeline.build outcome.project tracker).1.1
              buildOutput := some output } := rfl
      rw [hresult] at h
      cases hbuilt : (pipeline.build outcome.project tracker).1.2 with
      | error failure =>
          rw [hbuilt] at h
          cases h
      | ok output =>
          rw [hbuilt] at h
          rw [← Except.ok.inj h]
          exact hplace.stem

theorem heard_buildAndRun (pipeline : Pipeline σ) (selection : Selection) (args : List String)
    (capture : Bool) {outcome : Outcome} (hstem : outcome.project.stem = stem) :
    Heard store stem ((pipeline.telling store).buildAndRun selection args capture outcome) := by
  have hmade : ∀ tracker made, ((pipeline.telling store).buildIf selection.build outcome
      tracker).1 = .ok made → made.project.stem = stem := fun _ _ h => (stem_of_buildIf h).trans hstem
  rw [buildAndRun_eq]
  exact (heard_buildIf pipeline selection.build hstem).proceed hmade fun _ hmade =>
    heard_runIf pipeline selection.run args capture hmade

theorem heard_generateFrom (pipeline : Pipeline σ) (source : Option Path)
    (metadata : Source.Metadata) :
    Heard store stem ((pipeline.telling store).generateFrom stem source (.ok metadata)) := by
  intro tracker hlisteners
  obtain ⟨record, hstage⟩ := segment_inStage stem "generate"
    ((pipeline.telling store).newProject stem source)
    (silent_generateStep pipeline store metadata _) hlisteners
  rw [generateFrom_ok]
  exact ⟨[], [record], hstage⟩

theorem stem_of_generateFrom {pipeline : Pipeline σ} {source : Option Path}
    {metadata : Source.Metadata} {tracker : Tracker (Session σ)} {made : Outcome}
    (h : (pipeline.generateFrom stem source (.ok metadata) tracker).1 = .ok made) :
    made.project.stem = stem := by
  have hresult : (pipeline.generateFrom stem source (.ok metadata) tracker).1 =
      (pipeline.generate metadata stem source tracker).1.map fun generated =>
        ⟨generated.1, some generated.2, none, none⟩ := rfl
  rw [hresult] at h
  cases hgenerated : (pipeline.generate metadata stem source tracker).1 with
  | error failure =>
      rw [hgenerated] at h
      cases h
  | ok generated =>
      rw [hgenerated] at h
      rw [← Except.ok.inj h]
      exact (sharesPlace_generate hgenerated).stem

/-- A call that goes on from what an earlier one left begins by leaving out the generation. -/
theorem segment_resuming (pipeline : Pipeline σ) (stem : String) (source : Option Path)
    (selection : Selection) (args : List String) (capture : Bool)
    {tracker : Tracker (Session (Appended × σ))} (h : tracker.listeners = [journal store.telling]) :
    ∃ early late, Segment stem tracker (proceed ((pipeline.telling store).resume stem source)
        ((pipeline.telling store).buildAndRun selection args capture) tracker).2 early late ∧
      early ≠ [] := by
  have hresume : Segment stem tracker ((pipeline.telling store).resume stem source tracker).2
      [.skip "generate" notRequested] [] := by
    rw [resume_apply]
    exact segment_skip stem "generate" notRequested h
  have hfound : ∀ outcome, ((pipeline.telling store).resume stem source tracker).1 = .ok outcome →
      outcome.project.stem = stem := by
    intro outcome houtcome
    rw [resume_apply] at houtcome
    cases hproject : (pipeline.telling store).foundProject stem source
        ((skip "generate" notRequested tracker).2.state.world.files.find?
          ((pipeline.telling store).newProject stem source).manifestPath) with
    | error failure =>
        rw [hproject] at houtcome
        cases houtcome
    | ok project =>
        rw [hproject] at houtcome
        rw [← Except.ok.inj houtcome]
        exact (sharesPlace_foundProject hproject).stem
  obtain ⟨early, late, hcall, hearly, -⟩ := hresume.proceed h hfound fun outcome houtcome =>
    heard_buildAndRun pipeline selection args capture houtcome
  exact ⟨early, late, hcall, List.IsPrefix.ne_nil hearly (List.cons_ne_nil _ _)⟩

/-- A call that generates begins by analyzing the script. -/
theorem segment_generating (pipeline : Pipeline σ) (script : Script) (selection : Selection)
    (args : List String) (capture : Bool) {tracker : Tracker (Session (Appended × σ))}
    (h : tracker.listeners = [journal store.telling]) :
    ∃ early late, Segment script.stem tracker (proceed (script.entering (pipeline.telling store))
        ((pipeline.telling store).buildAndRun selection args capture) tracker).2 early late ∧
      early ++ late ≠ [] := by
  obtain ⟨record, hanalysis⟩ := segment_analysis pipeline script h
  obtain ⟨early, late, hentering, -, hrecord⟩ := hanalysis.proceed h (fun _ _ => trivial)
    fun metadata _ => heard_generateFrom pipeline script.source? metadata
  have hmade : ∀ outcome, (script.entering (pipeline.telling store) tracker).1 = .ok outcome →
      outcome.project.stem = script.stem := by
    intro outcome houtcome
    unfold Script.entering at houtcome
    rw [proceed_apply] at houtcome
    cases hmetadata : (script.analysis (pipeline.telling store) tracker).1 with
    | error failure =>
        rw [hmetadata] at houtcome
        cases houtcome
    | ok metadata =>
        rw [hmetadata] at houtcome
        exact stem_of_generateFrom houtcome
  obtain ⟨sooner, later, hcall, -, hmore⟩ := hentering.proceed h hmade fun outcome houtcome =>
    heard_buildAndRun pipeline selection args capture houtcome
  refine ⟨sooner, later, hcall, ?_⟩
  exact hmore.ne_nil (hrecord.ne_nil (List.cons_ne_nil _ _))

end

end Pipeline

end RustScript
