import RustScript.Log.Local
import RustScript.Proofs.Files.Direct
import RustScript.Proofs.Pipeline.Confinement

/-!
# What a store in files holds

The files of a store are told by stem and name (`Shelf`). As long as the directories of the stems are
apart (`Apart`), every step of the store succeeds and does to the shelf what it says, and nothing to
the shelf of another stem (`stands_run`), so that a shelf tells all the files after any sequence of
steps (`stands_runAll`).
-/

set_option autoImplicit false

namespace RustScript

theorem Act.files_of_run {σ α : Type} {action : FileAction α} {world : World σ}
    {result : Except SystemError α} {after : FileSystem}
    (h : action.run world.files = (result, after)) :
    Act.files action world = (result, { world with files := after }) := by
  show ((action.run world.files).1, { world with files := (action.run world.files).2 }) = _
  rw [h]

namespace Log

open FileSystem

/-! ## Steps -/

/-- What a store is asked to do. -/
inductive Step
  | save (stem stage : String) (output : Command.Output)
  | append (stem event : String)
  | delete (stem : String)

namespace Step

/-- The stem that the step is about. -/
def stem : Step → String
  | save stem _ _ => stem
  | append stem _ => stem
  | delete stem => stem

/-- The name of a stage is part of the name of a file. -/
def Plain : Step → Prop
  | save _ stage _ => '/' ∉ stage.toList
  | append _ _ => True
  | delete _ => True

/-- The step is taken. -/
def run {σ : Type} (store : Store σ) : Step → Act σ (Except SystemError Unit)
  | save stem stage output => store.save stem stage output
  | append stem event => store.append stem event
  | delete stem => store.delete stem

end Step

/-- The steps are taken one after the other. -/
def runAll {σ : Type} (store : Store σ) : List Step → Act σ (List (Except SystemError Unit))
  | [] => pure []
  | step :: rest => do
      let result ← step.run store
      return result :: (← runAll store rest)

theorem runAll_cons {σ : Type} (store : Store σ) (step : Step) (rest : List Step)
    (world : World σ) : runAll store (step :: rest) world =
      ((step.run store world).1 :: (runAll store rest (step.run store world).2).1,
        (runAll store rest (step.run store world).2).2) := rfl

/-! ## Shelves -/

/-- The contents of files, by the stem of their directory and by their name. -/
abbrev Shelf := String → String → Option (List UInt8)

namespace Shelf

/-- No file is there. -/
def empty : Shelf := fun _ _ => none

/-- The shelf with a file, in place of the one of this name. -/
def put (shelf : Shelf) (stem name : String) (content : List UInt8) : Shelf := fun other file =>
  if other = stem ∧ file = name then some content else shelf other file

/-- The shelf with texts in files, one after the other. -/
def putTexts (shelf : Shelf) (stem : String) (contents : List (String × String)) : Shelf :=
  contents.foldl (fun shelf file => shelf.put stem file.1 (Utf8.encode file.2)) shelf

/-- The shelf without the files of a stem. -/
def drop (shelf : Shelf) (stem : String) : Shelf := fun other file =>
  if other = stem then none else shelf other file

end Shelf

theorem Shelf.putTexts_of_ne {shelf : Shelf} {stem other name : String}
    {contents : List (String × String)}
    (h : ∀ file ∈ contents, ¬ (other = stem ∧ name = file.1)) :
    shelf.putTexts stem contents other name = shelf other name := by
  induction contents generalizing shelf with
  | nil => rfl
  | cons file rest ih =>
      obtain ⟨hfile, hrest⟩ := List.forall_mem_cons.mp h
      have hput : shelf.put stem file.1 (Utf8.encode file.2) other name = shelf other name :=
        if_neg hfile
      exact (ih hrest).trans hput

/-- Texts in files of different names are all there. -/
theorem Shelf.putTexts_of_mem {shelf : Shelf} {stem : String} {contents : List (String × String)}
    (hnames : (contents.map Prod.fst).Nodup) {file : String × String} (hfile : file ∈ contents) :
    shelf.putTexts stem contents stem file.1 = some (Utf8.encode file.2) := by
  induction contents generalizing shelf with
  | nil => cases hfile
  | cons first rest ih =>
      obtain ⟨hfirst, hrest⟩ := List.nodup_cons.mp hnames
      obtain rfl | hmem := List.mem_cons.mp hfile
      · have hkept : (shelf.put stem file.1 (Utf8.encode file.2)).putTexts stem rest stem file.1 =
            shelf.put stem file.1 (Utf8.encode file.2) stem file.1 :=
          Shelf.putTexts_of_ne fun other hother hsame =>
            hfirst (hsame.2 ▸ List.mem_map_of_mem (f := Prod.fst) hother)
        exact hkept.trans (if_pos ⟨rfl, rfl⟩)
      · exact ih hrest hmem

/-- The shelf after a step. -/
def Step.shelve (shelf : Shelf) : Step → Shelf
  | .save stem stage output => shelf.putTexts stem (outputFiles stage output)
  | .append stem event => shelf.put stem journalName
      ((shelf stem journalName).getD [] ++ Utf8.encode (journalLine event))
  | .delete stem => shelf.drop stem

/-- None of the stems' directories is in another one, and the working directory is in none. -/
structure Apart (here : Place) (base : Path) (ours : String → Prop) : Prop where
  direct : ∀ stem, ours stem → (base.child stem).Direct
  named : ∀ stem, ours stem → (base.child stem).names ≠ []
  away : ∀ stem, ours stem → ¬ (base.child stem).lands here <+: here
  apart : ∀ stem other, ours stem → ours other →
    (base.child stem).lands here <+: (base.child other).lands here → stem = other

/-- The directories of the stems hold the files of the shelf and nothing else, or they can be
made. -/
structure Shelf.Stands (shelf : Shelf) (here : Place) (base : Path) (ours : String → Prop)
    (files : FileSystem) : Prop where
  seen : files.here = here
  rooted : files.Rooted
  opened : ∀ stem, ours stem → files.Open ((base.child stem).lands here)
  nodes : ∀ stem, ours stem → ∀ name,
    files.node? ((base.child stem).lands here ++ [name]) = (shelf stem name).map .file

/-- Stems that are names of directories have directories that are apart. -/
theorem apart_of_ordinary {here : Place} {base : Path} (hbase : base.Direct)
    {ours : String → Prop} (hours : ∀ stem, ours stem → Path.Ordinary stem)
    (haway : ∀ stem, ours stem → ¬ base.lands here ++ [stem] <+: here) :
    Apart here base ours where
  direct stem hstem := by
    rw [Path.child_of_ordinary (hours stem hstem)]
    intro name hname
    rcases List.mem_append.mp hname with hmem | hmem
    · exact hbase name hmem
    · rw [List.mem_singleton.mp hmem]
      exact ⟨(hours stem hstem).2.1, (hours stem hstem).2.2.1⟩
  named stem hstem := by
    rw [Path.child_of_ordinary (hours stem hstem)]
    exact List.append_ne_nil_of_right_ne_nil _ (List.cons_ne_nil _ _)
  away stem hstem := by
    rw [Path.lands_child_of_ordinary here (hours stem hstem)]
    exact haway stem hstem
  apart stem other hstem hother h := by
    rw [Path.lands_child_of_ordinary here (hours stem hstem),
      Path.lands_child_of_ordinary here (hours other hother)] at h
    have hnames := h.eq_of_length (by rw [List.length_append, List.length_append]; rfl)
    exact (List.cons.inj (List.append_cancel_left hnames)).1

/-- An empty shelf tells the files where no directory of a stem has been made. -/
theorem Shelf.stands_empty {here : Place} {base : Path} {ours : String → Prop}
    {files : FileSystem} (hseen : files.here = here) (hrooted : files.Rooted)
    (hopened : ∀ stem, ours stem → files.Open ((base.child stem).lands here))
    (hnone : ∀ stem, ours stem → files.node? ((base.child stem).lands here) = none) :
    Shelf.empty.Stands here base ours files := by
  refine ⟨hseen, hrooted, hopened, fun stem hstem name => ?_⟩
  by_contra hstands
  have hdirectory := hrooted.above _ name hstands
  rw [hnone stem hstem] at hdirectory
  cases hdirectory

section

variable {here : Place} {base : Path} {ours : String → Prop} (hapart : Apart here base ours)
  {shelf : Shelf} {files : FileSystem} {stem : String} (hstem : ours stem)

include hapart hstem

/-- Two files of one place are the same file. -/
theorem Apart.eq_of_place_eq {other name file : String} (hother : ours other)
    (h : (base.child stem).lands here ++ [name] = (base.child other).lands here ++ [file]) :
    other = stem ∧ file = name := by
  obtain ⟨hlands, hname⟩ := List.append_inj' h rfl
  refine ⟨?_, (List.cons.inj hname).1.symm⟩
  exact (hapart.apart stem other hstem hother (hlands ▸ List.prefix_refl _)).symm

/-- A file of a stem does not stand in the way of another one. -/
theorem Apart.not_prefix {other : String} (hother : ours other) (name : String) :
    ¬ (base.child stem).lands here ++ [name] <+: (base.child other).lands here := by
  intro hprefix
  have hsame := hapart.apart stem other hstem hother
    ((List.prefix_append _ _).trans hprefix)
  have hlength := hprefix.length_le
  rw [hsame, List.length_append, List.length_singleton] at hlength
  omega

theorem Shelf.Stands.put (h : shelf.Stands here base ours files)
    (hdirectory : files.node? ((base.child stem).lands here) = some .directory) (name : String)
    (content : List UInt8) :
    (shelf.put stem name content).Stands here base ours
      (files.put ((base.child stem).lands here ++ [name]) (.file content)) := by
  refine ⟨h.seen, ?_, ?_, ?_⟩
  · refine h.rooted.put ?_ ?_ _
    · rw [h.nodes stem hstem]
      cases shelf stem name <;> exact fun heq => by cases heq
    · intro outer last heq
      rw [← (List.append_inj' heq rfl).1]
      exact hdirectory
  · intro other hother outer houter old
    rw [node?_put]
    split
    · next hplace =>
        rw [← hplace.2] at houter
        exact absurd houter (hapart.not_prefix hstem hother name)
    · exact h.opened other hother outer houter old
  · intro other hother file
    rw [node?_put]
    unfold Shelf.put
    by_cases hsame : other = stem ∧ file = name
    · obtain ⟨rfl, rfl⟩ := hsame
      rw [if_pos ⟨List.append_ne_nil_of_right_ne_nil _ (List.cons_ne_nil _ _), rfl⟩,
        if_pos ⟨rfl, rfl⟩]
      rfl
    · rw [if_neg hsame, if_neg fun hplace =>
        hsame (hapart.eq_of_place_eq hstem hother hplace.2)]
      exact h.nodes other hother file

/-- The directory of a stem is made if it is not there. -/
theorem Shelf.Stands.makeDirectories (h : shelf.Stands here base ours files) :
    ∃ after, (FileAction.makeDirectories (base.child stem)).run files = (.ok (), after) ∧
      shelf.Stands here base ours after ∧
      after.node? ((base.child stem).lands here) = some .directory := by
  obtain rfl := h.seen
  obtain ⟨after, hrun, hrooted, hconfined, hstands⟩ :=
    FileAction.makeDirectories_of_open h.rooted (hapart.direct stem hstem) (h.opened stem hstem)
  refine ⟨after, hrun, ⟨hconfined.here, hrooted, ?_, ?_⟩, hstands⟩
  · intro other hother outer houter content
    rcases hconfined.nodes outer not_false with hsame | ⟨-, -, hmade⟩
    · rw [hsame]
      exact h.opened other hother outer houter content
    · rw [hmade]
      exact fun heq => by cases heq
  · intro other hother name
    rcases hconfined.nodes _ not_false with hsame | ⟨hway, -, -⟩
    · rw [hsame]
      exact h.nodes other hother name
    · exact absurd hway (hapart.not_prefix hother hstem name)

/-- A stem's directory is removed if it is there. -/
theorem Shelf.Stands.removeTree (h : shelf.Stands here base ours files)
    (hdirectory : files.node? ((base.child stem).lands here) = some .directory) :
    ∃ after, (FileAction.removeTree (base.child stem)).run files = (.ok (), after) ∧
      (shelf.drop stem).Stands here base ours after := by
  obtain rfl := h.seen
  have hdirect := hapart.direct stem hstem
  have hfound : files.find? (base.child stem) = some .directory := by
    rw [h.rooted.find?_direct hdirect, hdirectory]
  have hremoval := FileAction.Removal.removed hfound
  refine ⟨_, FileAction.removeTree_of_directory h.rooted hdirect (hapart.named stem hstem)
    (hapart.away stem hstem) hdirectory,
    ⟨rfl, hremoval.rooted h.rooted (hapart.away stem hstem), ?_, ?_⟩⟩
  · intro other hother outer houter content hnode
    obtain ⟨old, hold⟩ := hremoval.grows.file outer content hnode
    exact h.opened other hother outer houter old hold
  · intro other hother name
    unfold Shelf.drop
    by_cases hsame : other = stem
    · subst hsame
      rw [if_pos rfl, node?_dropWhere]
      split
      · rfl
      · exact FileAction.node?_of_emptied files _ name []
    · have houtside : ¬ (base.child stem).lands files.here <+:
          (base.child other).lands files.here ++ [name] := by
        rw [List.prefix_concat_iff]
        rintro (heq | hprefix)
        · exact hsame (hapart.apart other stem hother hstem (heq ▸ List.prefix_append _ _))
        · exact hsame (hapart.apart stem other hstem hother hprefix).symm
      rw [if_neg hsame]
      rcases hremoval.confined.nodes _ houtside with hkept | ⟨hnever, -⟩
      · rw [hkept]
        exact h.nodes other hother name
      · exact hnever.elim

end

/-! ## Steps of the store -/

theorem ordinary_journalName : Path.Ordinary journalName :=
  ⟨by decide, by decide, by decide, by decide⟩

/-- The files of a stage have names that files can have. -/
theorem ordinary_stage {stage ending : String} (hstage : '/' ∉ stage.toList)
    (hending : '/' ∉ ending.toList) (hlong : 2 < ending.length) :
    Path.Ordinary (stage ++ ending) := by
  have hne : ∀ short : String, short.length ≤ 2 → stage ++ ending ≠ short := by
    rintro _ hshort rfl
    rw [String.length_append] at hshort
    omega
  refine ⟨hne "" (by decide), hne "." (by decide), hne ".." (by decide), ?_⟩
  rw [String.toList_append, List.mem_append, not_or]
  exact ⟨hstage, hending⟩

theorem ordinary_of_mem_outputFiles {stage : String} (hstage : '/' ∉ stage.toList)
    {output : Command.Output} {file : String × String} (hfile : file ∈ outputFiles stage output) :
    Path.Ordinary file.1 := by
  have hnames : ∀ ending ∈ [".stdout", ".stderr", ".status"],
      Path.Ordinary (stage ++ ending) := by
    simp only [List.forall_mem_cons, List.not_mem_nil, false_implies, implies_true, and_true]
    exact ⟨ordinary_stage hstage (by decide) (by decide),
      ordinary_stage hstage (by decide) (by decide), ordinary_stage hstage (by decide) (by decide)⟩
  simp only [outputFiles, List.mem_cons, List.not_mem_nil, or_false] at hfile
  rcases hfile with rfl | rfl | rfl <;> exact hnames _ (by decide)

section

variable {here : Place} {base : Path} {ours : String → Prop} (hapart : Apart here base ours)
  {shelf : Shelf} {stem : String} (hstem : ours stem)

include hapart hstem

/-- A file of a stem is changed, or made of nothing. -/
theorem Shelf.Stands.change {files : FileSystem} (h : shelf.Stands here base ours files)
    (hdirectory : files.node? ((base.child stem).lands here) = some .directory) {name : String}
    (hname : Path.Ordinary name) (f : List UInt8 → List UInt8) :
    ∃ after, (FileAction.change ((base.child stem).child name) f).run files = (.ok (), after) ∧
      (shelf.put stem name (f ((shelf stem name).getD []))).Stands here base ours after ∧
      after.node? ((base.child stem).lands here) = some .directory := by
  refine ⟨_, ?_, h.put hapart hstem hdirectory name _, ?_⟩
  · obtain rfl := h.seen
    have hfound : files.find? (base.child stem) = some .directory := by
      rw [h.rooted.find?_direct (hapart.direct stem hstem), hdirectory]
    rw [Path.child_of_ordinary hname]
    exact FileAction.change_in_directory hname.2.2.1 hname.2.1 hfound f (h.nodes stem hstem name)
  · rw [node?_put, if_neg]
    · exact hdirectory
    · rintro ⟨-, heq⟩
      exact List.cons_ne_nil _ _ (List.append_right_eq_self.mp heq)

theorem Shelf.Stands.writes {files : FileSystem} (h : shelf.Stands here base ours files)
    (hdirectory : files.node? ((base.child stem).lands here) = some .directory)
    {contents : List (String × String)} (hnames : ∀ file ∈ contents, Path.Ordinary file.1) :
    ∃ after, (contents.forM fun (name, content) => FileAction.write ((base.child stem).child name)
        (Utf8.encode content)).run files = (.ok (), after) ∧
      (shelf.putTexts stem contents).Stands here base ours after := by
  induction contents generalizing shelf files with
  | nil => exact ⟨files, rfl, h⟩
  | cons file rest ih =>
      obtain ⟨hname, hrest⟩ := List.forall_mem_cons.mp hnames
      obtain ⟨next, hrun, hnext, hstill⟩ :=
        h.change hapart hstem hdirectory hname fun _ => Utf8.encode file.2
      obtain ⟨after, hruns, hafter⟩ := ih hnext hstill hrest
      refine ⟨after, ?_, hafter⟩
      show ((FileAction.change ((base.child stem).child file.1) fun _ => Utf8.encode file.2) >>=
        fun _ => rest.forM fun (name, content) => FileAction.write ((base.child stem).child name)
          (Utf8.encode content)).run files = _
      rw [FileAction.run_bind, hrun]
      exact hruns

/-! ## Steps of the store -/

variable {σ : Type} {world : World σ}

theorem stands_save (h : shelf.Stands here base ours world.files) {stage : String}
    (hstage : '/' ∉ stage.toList) (output : Command.Output) :
    ∃ after, (storeIn base).save stem stage output world = (.ok (), after) ∧
      ((Step.save stem stage output).shelve shelf).Stands here base ours after.files := by
  obtain ⟨made, hmade, hstands, hdirectory⟩ := h.makeDirectories hapart hstem
  have hnames : ∀ file ∈ outputFiles stage output, Path.Ordinary file.1 :=
    fun _ => ordinary_of_mem_outputFiles hstage
  obtain ⟨after, hwrites, hafter⟩ := hstands.writes hapart hstem hdirectory hnames
  have hrun : (writeFiles (base.child stem) (outputFiles stage output)).run world.files =
      (.ok (), after) := by
    unfold writeFiles
    rw [FileAction.run_bind, hmade]
    exact hwrites
  exact ⟨{ world with files := after }, Act.files_of_run hrun, hafter⟩

theorem stands_append (h : shelf.Stands here base ours world.files) (event : String) :
    ∃ after, (storeIn base).append stem event world = (.ok (), after) ∧
      ((Step.append stem event).shelve shelf).Stands here base ours after.files := by
  obtain ⟨made, hmade, hstands, hdirectory⟩ := h.makeDirectories hapart hstem
  obtain ⟨after, hwrite, hafter, -⟩ := hstands.change hapart hstem hdirectory ordinary_journalName
    (· ++ Utf8.encode (journalLine event))
  have hrun : (FileAction.makeDirectories (base.child stem) >>= fun _ =>
      FileAction.append ((base.child stem).child journalName)
        (Utf8.encode (journalLine event))).run world.files = (.ok (), after) := by
    rw [FileAction.run_bind, hmade]
    exact hwrite
  exact ⟨{ world with files := after }, Act.files_of_run hrun, hafter⟩

theorem stands_delete (h : shelf.Stands here base ours world.files) :
    ∃ after, (storeIn base).delete stem world = (.ok (), after) ∧
      ((Step.delete stem).shelve shelf).Stands here base ours after.files := by
  have hfound : world.files.find? (base.child stem) =
      world.files.node? ((base.child stem).lands here) := by
    rw [h.rooted.find?_direct (hapart.direct stem hstem), h.seen]
  have hrun : (storeIn base).delete stem world =
      if world.files.exists (base.child stem) then
        Act.files (FileAction.removeTree (base.child stem)) world
      else (.ok (), world) := by
    show (if world.files.exists (base.child stem) then
      Act.files (FileAction.removeTree (base.child stem)) else pure (.ok ()) : Act σ _) world = _
    split <;> rfl
  rw [hrun]
  unfold FileSystem.exists
  rcases hnode : world.files.node? ((base.child stem).lands here) with _ | (_ | content)
  · -- without its directory no file of the stem is there
    rw [hfound, hnode]
    refine ⟨world, rfl, h.seen, h.rooted, h.opened, ?_⟩
    intro other hother name
    rw [h.nodes other hother]
    show _ = (shelf.drop stem other name).map Node.file
    unfold Shelf.drop
    split
    · next hsame =>
        subst hsame
        rw [← h.nodes other hother]
        by_contra hstands
        have hdirectory := h.rooted.above _ name hstands
        rw [hnode] at hdirectory
        cases hdirectory
    · rfl
  · obtain ⟨after, hremove, hafter⟩ := h.removeTree hapart hstem hnode
    rw [hfound, hnode]
    exact ⟨{ world with files := after }, Act.files_of_run hremove, hafter⟩
  · exact absurd hnode (h.opened stem hstem _ (List.prefix_refl _) content)

end

/-- **A step does to the shelf what it says**, and it never fails. -/
theorem stands_run {here : Place} {base : Path} {ours : String → Prop}
    (hapart : Apart here base ours) {σ : Type} {world : World σ} {shelf : Shelf}
    (h : shelf.Stands here base ours world.files) {step : Step} (hstem : ours step.stem)
    (hplain : step.Plain) :
    ∃ after, step.run (storeIn base) world = (.ok (), after) ∧
      (step.shelve shelf).Stands here base ours after.files := by
  cases step with
  | save stem stage output => exact stands_save hapart hstem h hplain output
  | append stem event => exact stands_append hapart hstem h event
  | delete stem => exact stands_delete hapart hstem h

/-- **A shelf tells the files after any sequence of steps.** -/
theorem stands_runAll {here : Place} {base : Path} {ours : String → Prop}
    (hapart : Apart here base ours) {σ : Type} {world : World σ} {shelf : Shelf}
    (h : shelf.Stands here base ours world.files) {steps : List Step}
    (hsteps : ∀ step ∈ steps, ours step.stem ∧ step.Plain) :
    ∃ after, runAll (storeIn base) steps world = (steps.map fun _ => .ok (), after) ∧
      (steps.foldl Step.shelve shelf).Stands here base ours after.files := by
  induction steps generalizing world shelf with
  | nil => exact ⟨world, rfl, h⟩
  | cons step rest ih =>
      obtain ⟨⟨hstem, hplain⟩, hrest⟩ := List.forall_mem_cons.mp hsteps
      obtain ⟨next, hrun, hnext⟩ := stands_run hapart h hstem hplain
      obtain ⟨after, hruns, hafter⟩ := ih hnext hrest
      refine ⟨after, ?_, hafter⟩
      rw [runAll_cons, hrun, hruns, List.map_cons]

/-! ## Reading -/

section

variable {here : Place} {base : Path} {ours : String → Prop} (hapart : Apart here base ours)
  {shelf : Shelf} {stem : String} (hstem : ours stem) {name : String} (hname : Path.Ordinary name)

include hapart hstem hname

theorem Apart.direct_file : ((base.child stem).child name).Direct := by
  rw [Path.child_of_ordinary hname]
  intro other hother
  rcases List.mem_append.mp hother with hmem | hmem
  · exact hapart.direct stem hstem other hmem
  · rw [List.mem_singleton.mp hmem]
    exact ⟨hname.2.1, hname.2.2.1⟩

variable {σ : Type} {world : World σ} (h : shelf.Stands here base ours world.files)

include h

theorem Shelf.Stands.find? : world.files.find? ((base.child stem).child name) =
    (shelf stem name).map .file := by
  rw [h.rooted.find?_direct (hapart.direct_file hstem hname),
    Path.lands_child_of_ordinary _ hname, h.seen, h.nodes stem hstem]

theorem Shelf.Stands.exists : world.files.exists ((base.child stem).child name) =
    (shelf stem name).isSome := by
  unfold FileSystem.exists
  rw [h.find? hapart hstem hname, Option.isSome_map]

/-- A file on the shelf is read. -/
theorem Shelf.Stands.readLog {content : List UInt8} (hcontent : shelf stem name = some content) :
    (readLog ((base.child stem).child name)).run world =
      ((textOfBytes content).mapError .text, world) := by
  have hfound := h.find? hapart hstem hname
  rw [hcontent] at hfound
  obtain ⟨hplace, hnode⟩ := FileSystem.place_of_find? hfound
  have hread := FileAction.run_read ((base.child stem).child name) world.files
  rw [hplace] at hread
  dsimp only at hread
  rw [hnode] at hread
  have htext : Act.readText ((base.child stem).child name) world =
      (textOfBytes content, world) := by
    unfold Act.readText
    rw [Frame.stateBind_apply, Act.files_of_run hread]
    rfl
  show ((Act.readText ((base.child stem).child name) world).1.mapError LoadError.text,
    (Act.readText ((base.child stem).child name) world).2) = _
  rw [htext]

end

end Log

end RustScript
