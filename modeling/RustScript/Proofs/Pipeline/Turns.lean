import Mathlib.Logic.Function.Basic
import RustScript.Proofs.Pipeline.Neighbours
import RustScript.Proofs.Pipeline.Undone

/-!
# Pipelines that take turns

Several pipelines work in one world, each on a script of its own and each at a desk of its own, and take
turns in any order (`takeTurns`). If each keeps clear of the places of the others, then none of them
notices: it replies the same as if the others did nothing, apart from the times, and leaves the same in
the directory of its project and in its logs (`turns_undisturbed`). A step of its own keeps the two
worlds near (`relates_perform`), and so does a step of another one. It is not enough that the scripts
have different names: the logs of one may lie among those of another (`logs_among_logs`).
-/

set_option autoImplicit false

namespace RustScript.Pipeline

open RustScript.Progress

variable {σ ι : Type}

/-! ## Without the times -/

/-- The reply without the times. -/
def Reply.timeless : Reply → Reply
  | .analyzed result => .analyzed result
  | .generated result =>
      .generated (result.map fun generated => (generated.1.timeless, generated.2))
  | .takenUp result => .takenUp (result.map Project.timeless)
  | .output result => .output (result.map StageOutput.timeless)
  | .cleaned result => .cleaned result
  | .absent => .absent

/-- The desk without the times. -/
def Desk.timeless (desk : Desk) : Desk :=
  ⟨desk.records.map Record.timeless, desk.subject, desk.projects.map Project.timeless⟩

theorem Desk.timeless_congr {desk desk' : Desk}
    (records : desk.records.map Record.timeless = desk'.records.map Record.timeless)
    (subject : desk'.subject = desk.subject)
    (projects : desk.projects.map Project.timeless = desk'.projects.map Project.timeless) :
    desk.timeless = desk'.timeless := by
  unfold timeless
  rw [records, subject, projects]

/-- The projects of two desks are the same apart from the times if those added to them are. -/
theorem timeless_withNew {projects projects' : List Project}
    (h : projects.map Project.timeless = projects'.map Project.timeless)
    {result result' : Except Failure Project}
    (hresult : result.map Project.timeless = result'.map Project.timeless) :
    (withNew projects result).map Project.timeless =
      (withNew projects' result').map Project.timeless := by
  rcases cases_of_map_eq hresult with ⟨failure, rfl, rfl⟩ | ⟨project, project', rfl, rfl, hproject⟩
  · exact h
  · show (projects ++ [project]).map _ = (projects' ++ [project']).map _
    rw [List.map_append, List.map_append, h, List.map_singleton, List.map_singleton, hproject]

/-! ## One task -/

section

variable {pipeline : Pipeline σ} {stem : String} {near : World σ → World σ → Prop}

/-- Whatever is done for the script comes to the same in worlds that are near. -/
structure WorksAlike (pipeline : Pipeline σ) (stem : String) (near : World σ → World σ → Prop) :
    Prop where
  company : Company pipeline pipeline near (· = stem)
  serves : Serves pipeline pipeline near (pipeline.newProject stem none)
  clean : ∀ project project' : Project, project.timeless = project'.timeless →
    project.SharesPlace (pipeline.newProject stem none) →
    Relates near
      (fun reached reached' => reached.1.timeless = reached'.1.timeless ∧ reached.2 = reached'.2)
      (pipeline.clean project) (pipeline.clean project')

/-- The script that a task reads. -/
def Task.script? : Task → Option Path
  | .analyze script => some script
  | _ => none

variable (h : pipeline.WorksAlike stem near)

include h

/-- **A job** comes to the same. -/
theorem abreast_doJob {project project' : Project} (hproject : project.timeless = project'.timeless)
    (hplace : project.SharesPlace (pipeline.newProject stem none)) (job : Job) :
    Relates (Abreast pipeline pipeline near (· = stem))
      (fun given given' => given.1.timeless = given'.1.timeless ∧
        given.2.timeless = given'.2.timeless)
      (pipeline.doJob project job) (pipeline.doJob project' job) := by
  have hserves := h.serves.of_sharesPlace hplace
  cases job with
  | build =>
      exact (abreast_build h.company hproject hplace.stem hserves).bind fun reached reached' hreached =>
        relates_pure ⟨hreached.1, congrArg Reply.output hreached.2⟩
  | run args capture =>
      exact (abreast_run h.company hproject hplace.stem hserves args capture).bind
        fun reached reached' hreached =>
          relates_pure ⟨hreached.1, congrArg Reply.output hreached.2⟩
  | clean =>
      exact (abreast_onWorld (h.clean project project' hproject hplace)).bind
        fun reached reached' hreached =>
          relates_pure ⟨hreached.1, congrArg Reply.cleaned hreached.2⟩

/-- **A task** comes to the same. -/
theorem abreast_work {task : Task} (htask : task.IsAbout stem)
    (hread : ∀ script ∈ task.script?,
      Relates near Eq (Act.readText script : Act σ _) (Act.readText script))
    {projects projects' : List Project}
    (hprojects : projects.map Project.timeless = projects'.map Project.timeless)
    (hhome : ∀ project ∈ projects, project.SharesPlace (pipeline.newProject stem none)) :
    Relates (Abreast pipeline pipeline near (· = stem))
      (fun given given' => given.1.timeless = given'.1.timeless ∧
        given.2.map Project.timeless = given'.2.map Project.timeless)
      (pipeline.work projects task) (pipeline.work projects' task) := by
  cases task with
  | analyze script =>
      refine (abreast_analyze h.company htask (hread script rfl)).bind fun result _ hresult => ?_
      subst hresult
      exact relates_pure ⟨rfl, hprojects⟩
  | generate metadata other source =>
      obtain rfl : other = stem := htask
      refine (abreast_generate h.company metadata source rfl
        (h.serves.of_sharesPlace ⟨rfl, rfl⟩)).bind fun result result' hresult =>
          relates_pure ⟨congrArg Reply.generated hresult, timeless_withNew hprojects ?_⟩
      rcases cases_of_map_eq hresult with ⟨failure, rfl, rfl⟩ | ⟨generated, generated', rfl, rfl, hsame⟩
      · rfl
      · exact congrArg Except.ok (Prod.mk.inj hsame).1
  | takeUp other source =>
      obtain rfl : other = stem := htask
      have hserves : Serves pipeline pipeline near (pipeline.newProject other source) :=
        h.serves.of_sharesPlace ⟨rfl, rfl⟩
      refine (abreast_onWorld (relates_existingProject h.company hserves)).bind
        fun result _ hresult => ?_
      subst hresult
      exact relates_pure ⟨rfl, timeless_withNew hprojects rfl⟩
  | on place job =>
      have hfound : projects[place]?.map Project.timeless = projects'[place]?.map Project.timeless := by
        rw [← List.getElem?_map, ← List.getElem?_map, hprojects]
      unfold work
      dsimp only
      cases hproject : projects[place]? with
      | none =>
          cases hproject' : projects'[place]? with
          | none => exact relates_pure ⟨rfl, hprojects⟩
          | some project' =>
              rw [hproject, hproject'] at hfound
              cases hfound
      | some project =>
          cases hproject' : projects'[place]? with
          | none =>
              rw [hproject, hproject'] at hfound
              cases hfound
          | some project' =>
              rw [hproject, hproject'] at hfound
              refine (abreast_doJob h (Option.some.inj hfound)
                (hhome project (List.mem_of_getElem? hproject)) job).bind
                  fun given given' hgiven => relates_pure ⟨hgiven.2, ?_⟩
              rw [List.map_set, List.map_set, hprojects, hgiven.1]

/-- **A task at a desk** comes to the same. -/
theorem relates_perform {task : Task} (htask : task.IsAbout stem)
    (hread : ∀ script ∈ task.script?,
      Relates near Eq (Act.readText script : Act σ _) (Act.readText script))
    {desk desk' : Desk} (hdesk : desk.timeless = desk'.timeless) (hhome : pipeline.AtHome stem desk) :
    Relates near
      (fun given given' => given.1.timeless = given'.1.timeless ∧
        given.2.timeless = given'.2.timeless)
      (pipeline.perform desk task) (pipeline.perform desk' task) := by
  obtain ⟨hrecords, hsubject, hprojects⟩ := Desk.mk.inj hdesk
  intro world world' hnear
  obtain ⟨⟨hreply, hafter⟩, habreast⟩ := abreast_work h htask hread hprojects hhome.projects
    (desk.tracker pipeline world) (desk'.tracker pipeline world')
    ⟨hrecords, rfl, rfl, hsubject.symm, hhome.subject, hnear⟩
  exact ⟨⟨hreply, Desk.timeless_congr habreast.records habreast.subject hafter⟩, habreast.near⟩

end

/-! ## Turns -/

section

variable [DecidableEq ι]

/-- Several pipelines take turns, each at its own desk. In a turn one of them does a task. -/
def takeTurns (pipelines : ι → Pipeline σ) :
    List (ι × Task) → (ι → Desk) → Act σ (List (ι × Reply) × (ι → Desk))
  | [], desks => return ([], desks)
  | (who, task) :: rest, desks => do
      let (reply, desk) ← (pipelines who).perform (desks who) task
      let (replies, desks) ← takeTurns pipelines rest (Function.update desks who desk)
      return ((who, reply) :: replies, desks)

/-- The turns of one of them. -/
def turnsOf (who : ι) (turns : List (ι × Task)) : List (ι × Task) := turns.filter (·.1 = who)

/-- The replies of one of them. -/
def repliesOf (who : ι) (replies : List (ι × Reply)) : List Reply :=
  (replies.filter (·.1 = who)).map Prod.snd

theorem takeTurns_cons (pipelines : ι → Pipeline σ) (who : ι) (task : Task) (rest : List (ι × Task))
    (desks : ι → Desk) (world : World σ) :
    takeTurns pipelines ((who, task) :: rest) desks world =
      (((who, ((pipelines who).perform (desks who) task world).1.1) ::
          (takeTurns pipelines rest
            (Function.update desks who ((pipelines who).perform (desks who) task world).1.2)
            ((pipelines who).perform (desks who) task world).2).1.1,
        (takeTurns pipelines rest
          (Function.update desks who ((pipelines who).perform (desks who) task world).1.2)
          ((pipelines who).perform (desks who) task world).2).1.2),
        (takeTurns pipelines rest
          (Function.update desks who ((pipelines who).perform (desks who) task world).1.2)
          ((pipelines who).perform (desks who) task world).2).2) := rfl

theorem repliesOf_cons_self (who : ι) (reply : Reply) (replies : List (ι × Reply)) :
    repliesOf who ((who, reply) :: replies) = reply :: repliesOf who replies := by
  simp [repliesOf]

theorem repliesOf_cons_of_ne {who other : ι} (h : other ≠ who) (reply : Reply)
    (replies : List (ι × Reply)) :
    repliesOf who ((other, reply) :: replies) = repliesOf who replies := by
  simp [repliesOf, h]

theorem turnsOf_cons_self (who : ι) (task : Task) (rest : List (ι × Task)) :
    turnsOf who ((who, task) :: rest) = (who, task) :: turnsOf who rest := by
  simp [turnsOf]

theorem turnsOf_cons_of_ne {who other : ι} (h : other ≠ who) (task : Task)
    (rest : List (ι × Task)) : turnsOf who ((other, task) :: rest) = turnsOf who rest := by
  simp [turnsOf, h]

end

/-! ## Parties -/

/-- A pipeline at work on one script, and where it keeps its logs. -/
structure Party (σ : Type) where
  pipeline : Pipeline σ
  logs : Option Path
  stem : String

/-- Where the party builds. -/
def Party.root (party : Party σ) : Path := party.pipeline.settings.buildRoot

/-- The directories that are made for the party. -/
def Party.paths (party : Party σ) : List Path := ownPaths party.root party.logs party.stem

/-- The party works in its own directories: the script has an ordinary name, the store is one of files,
the resolver answers by the name and leaves files alone, and the runner works in the directory of the
project. -/
structure Party.Orderly (party : Party σ) (here : Place) : Prop where
  ordinary : Path.Ordinary party.stem
  writes : party.pipeline.WritesOnlyLogs party.logs
  answers : party.pipeline.AnswersByName
  works : party.pipeline.WorksAtHome here (party.pipeline.newProject party.stem none)

section

variable {party : Party σ} {here : Place} {inside way : Place → Prop} (h : party.Orderly here)

include h

theorem Party.Orderly.worksAlike
    (hclear : KeepsClear here party.root party.logs party.stem inside way) :
    party.pipeline.WorksAlike party.stem (NearOthers σ here party.logs party.stem inside way) where
  company := company_of_clear hclear h.writes h.answers
  serves := serves_of_home hclear h.ordinary h.works
  clean _ _ := relates_clean hclear h.writes h.ordinary

end

/-- The place is in the directories of others. -/
def HeldByOthers (parties : ι → Party σ) (here : Place) (who : ι) (place : Place) : Prop :=
  ∃ other, other ≠ who ∧
    Holds here (parties other).root (parties other).logs (parties other).stem place

/-- The place is on the way to the directories of others. -/
def OnWayOfOthers (parties : ι → Party σ) (here : Place) (who : ι) (place : Place) : Prop :=
  ∃ other, other ≠ who ∧
    LeadsHome here (parties other).root (parties other).logs (parties other).stem place

/-- Where the trees differ that one of the parties meets alone and beside the others. -/
def differencesFor (parties : ι → Party σ) (here : Place) (who : ι) : Differences :=
  besideOthers here (parties who).logs (parties who).stem (HeldByOthers parties here who)
    (OnWayOfOthers parties here who)

/-- Each of the parties is orderly, and its paths keep clear of the places of the others. -/
structure SideBySide (parties : ι → Party σ) (here : Place) : Prop where
  orderly : ∀ who, (parties who).Orderly here
  clear : ∀ who, KeepsClear here (parties who).root (parties who).logs (parties who).stem
    (HeldByOthers parties here who) (OnWayOfOthers parties here who)

/-- The task in a turn is about the script of the party, and a script that is read for it lies clear of
the places of the others. -/
structure IsProper (parties : ι → Party σ) (here : Place) (turn : ι × Task) : Prop where
  about : turn.2.IsAbout (parties turn.1).stem
  script : ∀ path ∈ turn.2.script?, (differencesFor parties here turn.1).Free here path

/-! ## The law -/

/-- Two journals, or what stands in place of them, are the same apart from the times. -/
def TellAlike (first second : Option Node) : Prop :=
  second = first ∨ ∃ content content', first = some (.file content) ∧
    second = some (.file content') ∧ TellsSame content content'

section

variable [DecidableEq ι]

/-- The party comes to the same in both runs. -/
structure Undisturbed (party : Party σ) (here : Place) (who : ι)
    (alone together : (List (ι × Reply) × (ι → Desk)) × World σ) : Prop where
  /-- The same results and failures, apart from the times. -/
  replies : (repliesOf who alone.1.1).map Reply.timeless =
    (repliesOf who together.1.1).map Reply.timeless
  desk : (alone.1.2 who).timeless = (together.1.2 who).timeless
  project : ∀ place, (party.root.child party.stem).lands here <+: place →
    together.2.files.node? place = alone.2.files.node? place
  /-- The same in the logs, but for the journal. -/
  outputs : ∀ base ∈ party.logs, ∀ place, (base.child party.stem).lands here <+: place →
    place ≠ (base.child party.stem).lands here ++ [Log.journalName] →
    together.2.files.node? place = alone.2.files.node? place
  /-- The same in the journal, apart from the times. -/
  journal : ∀ base ∈ party.logs, TellAlike
    (alone.2.files.node? ((base.child party.stem).lands here ++ [Log.journalName]))
    (together.2.files.node? ((base.child party.stem).lands here ++ [Log.journalName]))

section

variable {parties : ι → Party σ} {here : Place} (h : SideBySide parties here)

include h

omit h in
/-- All desks are at home after a turn if the one of the party is. -/
theorem atHome_update (who : ι) {desks : ι → Desk}
    (hdesks : ∀ other, (parties other).pipeline.AtHome (parties other).stem (desks other))
    {desk : Desk} (hdesk : (parties who).pipeline.AtHome (parties who).stem desk) (other : ι) :
    (parties other).pipeline.AtHome (parties other).stem (Function.update desks who desk other) := by
  by_cases hother : other = who
  · subst hother
    rwa [Function.update_self]
  · rw [Function.update_of_ne hother]
    exact hdesks other

omit [DecidableEq ι] in
/-- A turn of another party leaves the worlds near. -/
theorem near_others {who other : ι} (hother : other ≠ who) {task : Task}
    (htask : task.IsAbout (parties other).stem) {desk : Desk}
    (hdesk : (parties other).pipeline.AtHome (parties other).stem desk) {world world' : World σ}
    (hnear : World.Near (differencesFor parties here who) here (fun _ => ()) world world') :
    World.Near (differencesFor parties here who) here (fun _ => ()) world
      ((parties other).pipeline.perform desk task world').2 := by
  have horderly := h.orderly other
  have hconfined := confined_perform horderly.writes horderly.ordinary horderly.works.stays htask
    hdesk hnear.files.secondHere
  exact ⟨hnear.files.confined (hconfined.mono (fun _ hplace => ⟨other, hother, hplace⟩)
    fun _ hplace => ⟨other, hother, hplace⟩), rfl⟩

/-- **Whole runs.** One of the parties takes its turns alone and among those of the others, at desks and
in worlds that are the same apart from what the others do. -/
theorem near_takeTurns (who : ι) {turns : List (ι × Task)}
    (hturns : ∀ turn ∈ turns, IsProper parties here turn) {desks desks' : ι → Desk}
    (hdesk : (desks who).timeless = (desks' who).timeless)
    (hhome : (parties who).pipeline.AtHome (parties who).stem (desks who))
    (hhome' : ∀ other, (parties other).pipeline.AtHome (parties other).stem (desks' other))
    {world world' : World σ}
    (hnear : World.Near (differencesFor parties here who) here (fun _ => ()) world world')
    {alone together : (List (ι × Reply) × (ι → Desk)) × World σ}
    (halone : takeTurns (Party.pipeline ∘ parties) (turnsOf who turns) desks world = alone)
    (htogether : takeTurns (Party.pipeline ∘ parties) turns desks' world' = together) :
    (repliesOf who alone.1.1).map Reply.timeless =
        (repliesOf who together.1.1).map Reply.timeless ∧
      (alone.1.2 who).timeless = (together.1.2 who).timeless ∧
      World.Near (differencesFor parties here who) here (fun _ => ()) alone.2 together.2 := by
  subst halone htogether
  induction turns generalizing desks desks' world world' with
  | nil => exact ⟨rfl, hdesk, hnear⟩
  | cons turn rest ih =>
      obtain ⟨other, task⟩ := turn
      obtain ⟨htask, hscript⟩ := hturns _ List.mem_cons_self
      have hrest := fun turn hturn => hturns turn (List.mem_cons_of_mem _ hturn)
      have hstays' := atHome_update other hhome' (atHome_perform htask (hhome' other) world')
      by_cases hwho : other = who
      · -- a turn of its own, in both runs
        subst hwho
        obtain ⟨⟨hreply, hdesks⟩, hworlds⟩ := relates_perform
          ((h.orderly other).worksAlike (h.clear other)) htask
          (fun script hmem => World.relates_readText (hscript script hmem)) hdesk hhome world world'
          hnear
        have hstays := atHome_perform htask hhome world
        rw [turnsOf_cons_self, takeTurns_cons, takeTurns_cons, repliesOf_cons_self,
          repliesOf_cons_self, List.map_cons, List.map_cons, List.cons_eq_cons, and_assoc]
        refine ⟨hreply, ih hrest ?_ ?_ hstays' hworlds⟩
        · rwa [Function.update_self, Function.update_self]
        · rwa [Function.update_self]
      · -- a turn of another party, in the second run alone
        have hworlds := near_others h hwho htask (hhome' other) hnear
        rw [turnsOf_cons_of_ne hwho, takeTurns_cons, repliesOf_cons_of_ne hwho]
        refine ih hrest ?_ hhome hstays' hworlds
        rwa [Function.update_of_ne (Ne.symm hwho)]

/-- **Parties with places of their own do not disturb each other.** In whatever order they take their
turns, each of them replies as if the others did nothing, apart from the times, and leaves the same in
the directory of its project and in its logs. -/
theorem turns_undisturbed {turns : List (ι × Task)}
    (hturns : ∀ turn ∈ turns, IsProper parties here turn) {desks : ι → Desk}
    (hdesks : ∀ who, (parties who).pipeline.AtHome (parties who).stem (desks who)) {world : World σ}
    (hhere : world.files.here = here) (hrooted : world.files.Rooted) (who : ι) :
    Undisturbed (parties who) here who
      (takeTurns (Party.pipeline ∘ parties) (turnsOf who turns) desks world)
      (takeTurns (Party.pipeline ∘ parties) turns desks world) := by
  obtain ⟨hreplies, hdesk, hnear⟩ := near_takeTurns h who hturns rfl (hdesks who) hdesks
    ⟨.refl hhere hrooted, rfl⟩ rfl rfl
  have hclear := h.clear who
  refine ⟨hreplies, hdesk,
    fun place hplace => hnear.files.node?_of_fixed (hclear.fixed_home hplace),
    fun base hbase place hplace hjournal =>
      hnear.files.node?_of_fixed (hclear.fixed_logs hbase hplace hjournal), fun base hbase => ?_⟩
  obtain ⟨houtside, hway⟩ := hclear.own _ (.inr ⟨base, hbase, List.prefix_append _ [Log.journalName]⟩)
  have hmeet := hnear.files.nodes _ houtside
  revert hmeet
  generalize (takeTurns (Party.pipeline ∘ parties) (turnsOf who turns) desks world).2.files.node?
    _ = first
  generalize (takeTurns (Party.pipeline ∘ parties) turns desks world).2.files.node? _ = second
  intro hmeet
  cases hmeet with
  | same => exact .inl rfl
  | made onWay => exact absurd onWay hway
  | told htold => exact .inr ⟨_, _, rfl, rfl, htold.2⟩

end

end

/-! ## Parties that lie apart -/

/-- No path goes upwards, all directories lie apart, and the working directory is in none of them. -/
structure LieApart (parties : ι → Party σ) (here : Place) : Prop where
  downward : ∀ who, ∀ path ∈ (parties who).paths, ".." ∉ path.names
  apart : ∀ who other, other ≠ who → ∀ path ∈ (parties who).paths,
    ∀ path' ∈ (parties other).paths, Apart (path.lands here) (path'.lands here)
  logs : ∀ who, ∀ base ∈ (parties who).logs,
    Apart (((parties who).root.child (parties who).stem).lands here)
      ((base.child (parties who).stem).lands here)
  away : ∀ who, ∀ path ∈ (parties who).paths, ¬ path.lands here <+: here

theorem exists_path_of_holds {here : Place} {root : Path} {logs : Option Path} {stem : String}
    {place : Place} (h : Holds here root logs stem place) :
    ∃ path ∈ ownPaths root logs stem, path.lands here <+: place := by
  obtain hproject | ⟨base, hbase, hlogs⟩ := h
  · exact ⟨_, directory_mem_ownPaths, hproject⟩
  · exact ⟨_, logs_mem_ownPaths hbase, hlogs⟩

theorem exists_path_of_leadsHome {here : Place} {root : Path} {logs : Option Path} {stem : String}
    {place : Place} (h : LeadsHome here root logs stem place) :
    ∃ path ∈ ownPaths root logs stem, FileAction.OnWay here path place := by
  obtain hproject | ⟨base, hbase, hlogs⟩ := h
  · exact ⟨_, directory_mem_ownPaths, hproject⟩
  · exact ⟨_, logs_mem_ownPaths hbase, hlogs⟩

section

variable {parties : ι → Party σ} {here : Place} {who : ι} {place : Place}

/-- What is apart from the directories of the others is not held by them. -/
theorem not_heldByOthers
    (h : ∀ other, other ≠ who → ∀ path ∈ (parties other).paths, ¬ path.lands here <+: place) :
    ¬ HeldByOthers parties here who place := by
  rintro ⟨other, hother, hholds⟩
  obtain ⟨path, hpath, hplace⟩ := exists_path_of_holds hholds
  exact h other hother path hpath hplace

/-- A path that goes nowhere upwards, to a place apart from the directories of the others, is clear. -/
theorem clear_of_apart {path : Path} (hup : ".." ∉ path.names)
    (hapart : ∀ other, other ≠ who → ∀ path' ∈ (parties other).paths,
      Apart (path.lands here) (path'.lands here)) :
    (differencesFor parties here who).Clear here path := by
  refine Differences.clear_of_outside hup fun place hplace => ?_
  exact not_heldByOthers fun other hother path' hpath' habove =>
    (hapart other hother path' hpath').2 (habove.trans hplace)

variable (h : LieApart parties here)

include h

theorem LieApart.not_onWayOfOthers
    (hplace : ∀ other, other ≠ who → ∀ path ∈ (parties other).paths, ¬ place <+: path.lands here) :
    ¬ OnWayOfOthers parties here who place := by
  rintro ⟨other, hother, hleads⟩
  obtain ⟨path, hpath, hway⟩ := exists_path_of_leadsHome hleads
  exact hplace other hother path hpath
    (FileAction.prefix_of_onWay (h.downward other path hpath) hway)

/-- Such a path is free if it does not lead to the journal of the party. -/
theorem LieApart.free {path : Path} (hup : ".." ∉ path.names)
    (hapart : ∀ other, other ≠ who → ∀ path' ∈ (parties other).paths,
      Apart (path.lands here) (path'.lands here))
    (hjournal : ¬ IsJournal here (parties who).logs (parties who).stem (path.lands here)) :
    (differencesFor parties here who).Free here path where
  clear := clear_of_apart hup hapart
  fixed := by
    refine ⟨not_heldByOthers fun other hother path' hpath' => (hapart other hother path' hpath').2,
      fun hway => absurd hway (h.not_onWayOfOthers fun other hother path' hpath' =>
        (hapart other hother path' hpath').1), fun content content' htold => hjournal htold.1⟩

theorem LieApart.keepsClear (who : ι) :
    KeepsClear here (parties who).root (parties who).logs (parties who).stem
      (HeldByOthers parties here who) (OnWayOfOthers parties here who) where
  paths path hpath := clear_of_apart (h.downward who path hpath) fun other hother =>
    h.apart who other hother path hpath
  own place hholds := by
    obtain ⟨path, hpath, hplace⟩ := exists_path_of_holds hholds
    constructor
    · refine not_heldByOthers fun other hother path' hpath' habove => ?_
      obtain ⟨hnot, hnot'⟩ := h.apart who other hother path hpath path' hpath'
      exact (List.prefix_or_prefix_of_prefix hplace habove).elim hnot hnot'
    · exact h.not_onWayOfOthers fun other hother path' hpath' habove =>
        (h.apart who other hother path hpath path' hpath').1 (hplace.trans habove)
  journal base hbase habove := by
    obtain ⟨hnot, hnot'⟩ := h.logs who base hbase
    rcases List.prefix_concat_iff.mp habove with heq | habove
    · exact hnot' (heq ▸ List.prefix_append _ _)
    · exact hnot habove
  away place hholds haway := by
    obtain ⟨path, hpath, hplace⟩ := exists_path_of_holds hholds
    exact h.away who path hpath (hplace.trans haway)

/-- **Parties that lie apart** work side by side. -/
theorem LieApart.sideBySide (horderly : ∀ who, (parties who).Orderly here) :
    SideBySide parties here := ⟨horderly, h.keepsClear⟩

end

/-- Different names in one directory lie apart. -/
theorem apart_of_ne (place : Place) {name name' : String} (h : name ≠ name') :
    Apart (place ++ [name]) (place ++ [name']) := by
  have hnot : ∀ {name name' : String}, name ≠ name' → ¬ place ++ [name] <+: place ++ [name'] := by
    intro name name' hne habove
    have heq := habove.eq_of_length (by rw [List.length_append, List.length_append]; rfl)
    exact hne (List.cons.inj (List.append_cancel_left heq)).1
  exact ⟨hnot h, hnot h.symm⟩

theorem Apart.symm {place other : Place} (h : Apart place other) : Apart other place := ⟨h.2, h.1⟩

/-- What is in directories that lie apart lies apart. -/
theorem Apart.append {place other : Place} (h : Apart place other) (names names' : List String) :
    Apart (place ++ names) (other ++ names') := by
  have hnot : ∀ {place other : Place} {names names' : List String}, Apart place other →
      ¬ place ++ names <+: other ++ names' := fun happart habove =>
    (List.prefix_or_prefix_of_prefix ((List.prefix_append _ _).trans habove)
      (List.prefix_append _ _)).elim happart.1 happart.2
  exact ⟨hnot h, hnot h.symm⟩

/-- **Different scripts over one build root** lie apart, if they keep their logs in one directory that
is apart from the build root. -/
theorem lieApart_of_stems {parties : ι → Party σ} {here : Place} {root : Path} {logs : Option Path}
    (hroot : ∀ who, (parties who).root = root) (hlogs : ∀ who, (parties who).logs = logs)
    (hordinary : ∀ who, Path.Ordinary (parties who).stem)
    (hdistinct : ∀ who other, other ≠ who → (parties who).stem ≠ (parties other).stem)
    (hup : ".." ∉ root.names) (hup' : ∀ base ∈ logs, ".." ∉ base.names)
    (hapart : ∀ base ∈ logs, Apart (root.lands here) (base.lands here))
    (haway : ∀ who, ∀ path ∈ (parties who).paths, ¬ path.lands here <+: here) :
    LieApart parties here := by
  have hpaths : ∀ who, ∀ path ∈ (parties who).paths, ∃ base, (base = root ∨ base ∈ logs) ∧
      path = base.child (parties who).stem := by
    intro who path hpath
    unfold Party.paths at hpath
    rw [hroot, hlogs] at hpath
    obtain rfl | ⟨base, hbase, rfl⟩ := mem_ownPaths hpath
    · exact ⟨root, .inl rfl, rfl⟩
    · exact ⟨base, .inr hbase, rfl⟩
  refine ⟨fun who path hpath => ?_, fun who other hother path hpath path' hpath' => ?_,
    fun who base hbase => ?_, haway⟩
  · obtain ⟨base, hbase, rfl⟩ := hpaths who path hpath
    rw [Path.child_of_ordinary (hordinary who)]
    refine fun hmem => (List.mem_append.mp hmem).elim ?_ fun hstem =>
      (hordinary who).2.2.1 (List.mem_singleton.mp hstem).symm
    obtain rfl | hbase := hbase
    · exact hup
    · exact hup' base hbase
  · obtain ⟨base, hbase, rfl⟩ := hpaths who path hpath
    obtain ⟨base', hbase', rfl⟩ := hpaths other path' hpath'
    rw [Path.lands_child_of_ordinary here (hordinary who),
      Path.lands_child_of_ordinary here (hordinary other)]
    obtain rfl | hbase := hbase
    · obtain rfl | hbase' := hbase'
      · exact apart_of_ne _ (hdistinct who other hother)
      · exact (hapart base' hbase').append _ _
    · obtain rfl | hbase' := hbase'
      · exact (hapart base hbase).symm.append _ _
      · rw [Option.mem_unique hbase' hbase]
        exact apart_of_ne _ (hdistinct who other hother)
  · rw [hlogs] at hbase
    rw [hroot, Path.lands_child_of_ordinary here (hordinary who),
      Path.lands_child_of_ordinary here (hordinary who)]
    exact (hapart base hbase).append _ _

/-! ### Two parties -/

section

open Rehearsal

/-- A party that builds in `build` and keeps its logs in a directory. -/
def partyAt (logs : String) (stem : String) : Party Trace :=
  ⟨{ besideLogs with store := some (Log.storeIn (Path.ofString logs)) }, some (Path.ofString logs),
    stem⟩

theorem orderly_partyAt (logs : String) {stem : String} (hstem : Path.Ordinary stem) (here : Place) :
    (partyAt logs stem).Orderly here := by
  have hname : ((partyAt logs stem).pipeline.newProject stem none).directory.name = stem := by
    rw [directory_newProject, Path.child_of_ordinary hstem]
    unfold Path.name
    simp
  exact ⟨hstem, ⟨rfl, fun _ _ => rfl⟩, fun _ _ _ => rfl,
    worksAtHome_cast rfl here (hname.symm ▸ hstem)⟩

theorem ordinary_other : Path.Ordinary "other" := by
  refine ⟨?_, ?_, ?_, ?_⟩ <;> decide

/-- Two parties that share the directory of the logs. -/
def neighbours : Bool → Party Trace
  | true => partyAt "logs" "demo"
  | false => partyAt "logs" "other"

/-- Two scripts are worked on in turns, and all that is left of one is removed in between. -/
def neighboursTurns : List (Bool × Task) :=
  [(true, .analyze (Path.ofString "demo.rs")), (false, .generate greeting "other" none),
    (true, .generate greeting "demo" none), (false, .on 0 .build), (true, .on 0 .build),
    (false, .on 0 .clean), (true, .on 0 (.run [] true)), (true, .takeUp "demo" none)]

theorem orderly_neighbours (here : Place) (who : Bool) : (neighbours who).Orderly here := by
  cases who with
  | true => exact orderly_partyAt "logs" ordinary_demo here
  | false => exact orderly_partyAt "logs" ordinary_other here

theorem lieApart_neighbours : LieApart neighbours [] := by
  have hroot : ∀ who, (neighbours who).root = Path.ofString "build" := by decide
  have hlogs : ∀ who, (neighbours who).logs = some (Path.ofString "logs") := by decide
  have hbase : ∀ base ∈ some (Path.ofString "logs"), base = Path.ofString "logs" :=
    fun _ hmem => (Option.some.inj hmem).symm
  refine lieApart_of_stems hroot hlogs (fun who => (orderly_neighbours [] who).ordinary) (by decide)
    (by decide) (fun base hmem => ?_) (fun base hmem => ?_) (by decide)
  · rw [hbase base hmem]
    decide
  · rw [hbase base hmem]
    decide

theorem isProper_neighboursTurns :
    ∀ turn ∈ neighboursTurns, IsProper neighbours [] turn := by
  have habout : ∀ turn ∈ neighboursTurns, turn.2.IsAbout (neighbours turn.1).stem := by
    unfold neighboursTurns
    simp only [List.forall_mem_cons]
    refine ⟨?_, rfl, rfl, trivial, trivial, trivial, trivial, rfl, nofun⟩
    show (Path.ofString "demo.rs").stem = "demo"
    decide
  have hscripts : ∀ turn ∈ neighboursTurns, ∀ path ∈ turn.2.script?,
      turn.1 = true ∧ path = Path.ofString "demo.rs" := by
    unfold neighboursTurns
    rw [List.forall_mem_cons]
    refine ⟨fun _ hmem => ⟨rfl, (Option.some.inj hmem).symm⟩, ?_⟩
    simp [Task.script?]
  refine fun turn hturn => ⟨habout turn hturn, fun path hpath => ?_⟩
  obtain ⟨hwho, rfl⟩ := hscripts turn hturn path hpath
  rw [hwho]
  refine lieApart_neighbours.free (by decide) (by decide) ?_
  rintro ⟨base, hbase, hplace⟩
  obtain rfl := Option.some.inj hbase
  exact absurd hplace (by decide)

theorem turns_undisturbed_neighbours :
    (∀ who, Undisturbed (neighbours who) [] who
      (takeTurns (Party.pipeline ∘ neighbours) (turnsOf who neighboursTurns) (fun _ => .empty)
        soleWorld)
      (takeTurns (Party.pipeline ∘ neighbours) neighboursTurns (fun _ => .empty) soleWorld)) ∧
    ((takeTurns (Party.pipeline ∘ neighbours) neighboursTurns (fun _ => .empty)
      soleWorld).2.files.exists (Path.ofString "build/demo/target/debug/demo") = true ∧
    (takeTurns (Party.pipeline ∘ neighbours) neighboursTurns (fun _ => .empty)
      soleWorld).2.files.exists (Path.ofString "build/other") = false) :=
  ⟨turns_undisturbed (lieApart_neighbours.sideBySide (orderly_neighbours [])) isProper_neighboursTurns
    (fun _ => atHome_empty _ _) rfl rooted_soleScript, by decide +kernel⟩

/-! ### Logs among logs -/

/-- Two parties of which one keeps its logs where the other one keeps the logs of its script. -/
def logsAmongLogs : Bool → Party Trace
  | true => partyAt "logs" "demo"
  | false => partyAt "logs/demo" "other"

/-- A project is generated for one script, and the other one is cleaned up. -/
def logsAmongLogsTurns : List (Bool × Task) :=
  [(false, .generate greeting "other" none), (true, .takeUp "demo" none), (true, .on 0 .clean)]

/-- The scripts are different, the build root is the same, the logs are outside it, and yet one party
removes the journal of the other one. -/
theorem logs_among_logs :
    (logsAmongLogs true).stem ≠ (logsAmongLogs false).stem ∧
      (∀ who, (logsAmongLogs who).Orderly []) ∧
      (logsAmongLogs true).root = (logsAmongLogs false).root ∧
      (∀ who, ∀ base ∈ (logsAmongLogs who).logs,
        Apart ((logsAmongLogs who).root.lands []) (base.lands [])) ∧
      ¬ Undisturbed (logsAmongLogs false) [] false
        (takeTurns (Party.pipeline ∘ logsAmongLogs) (turnsOf false logsAmongLogsTurns)
          (fun _ => .empty) (World.untouched .empty))
        (takeTurns (Party.pipeline ∘ logsAmongLogs) logsAmongLogsTurns (fun _ => .empty)
          (World.untouched .empty)) := by
  refine ⟨by decide, fun who => ?_, by decide, fun who base hbase => ?_, fun hundisturbed => ?_⟩
  · cases who with
    | true => exact orderly_partyAt "logs" ordinary_demo []
    | false => exact orderly_partyAt "logs/demo" ordinary_other []
  · cases who with
    | true =>
        obtain rfl := Option.some.inj hbase
        decide
    | false =>
        obtain rfl := Option.some.inj hbase
        decide
  · have hstands : ((takeTurns (Party.pipeline ∘ logsAmongLogs) (turnsOf false logsAmongLogsTurns)
        (fun _ => .empty) (World.untouched .empty)).2.files.node?
          (((Path.ofString "logs/demo").child "other").lands [] ++ [Log.journalName])).isSome = true := by
      decide +kernel
    have hgone : (takeTurns (Party.pipeline ∘ logsAmongLogs) logsAmongLogsTurns (fun _ => .empty)
        (World.untouched .empty)).2.files.node?
          (((Path.ofString "logs/demo").child "other").lands [] ++ [Log.journalName]) = none := by
      decide +kernel
    have htells := hundisturbed.journal (Path.ofString "logs/demo") rfl
    change TellAlike _ ((takeTurns (Party.pipeline ∘ logsAmongLogs) logsAmongLogsTurns
      (fun _ => .empty) (World.untouched .empty)).2.files.node?
        (((Path.ofString "logs/demo").child "other").lands [] ++ [Log.journalName])) at htells
    rw [hgone] at htells
    obtain hsame | ⟨_, _, -, hfile, -⟩ := htells
    · change none = (takeTurns (Party.pipeline ∘ logsAmongLogs)
        (turnsOf false logsAmongLogsTurns) (fun _ => .empty) (World.untouched .empty)).2.files.node?
          (((Path.ofString "logs/demo").child "other").lands [] ++ [Log.journalName]) at hsame
      rw [← hsame] at hstands
      cases hstands
    · cases hfile

end

end RustScript.Pipeline
