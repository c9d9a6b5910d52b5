import RustScript.Files.Action
import RustScript.World

/-!
# Where operations on files leave their marks

A frame says what an action may change of its state: it is a reflexive and transitive relation of
the states before and after. The frames of a file system name the places that may change and, apart
from these, the places where missing directories may be made. As there are no links, the place that
a path leads to is known from its names alone (`Path.lands`), which gives every operation on files
its frame.
-/

set_option autoImplicit false

namespace RustScript

/-! ## Frames -/

/-- What actions may change of a state. -/
structure Frame (ω : Type) where
  /-- The state may become the other one. -/
  rel : ω → ω → Prop
  refl : ∀ state, rel state state
  trans : ∀ {first second third}, rel first second → rel second third → rel first third

namespace Frame

variable {ω τ α β : Type}

/-- The action keeps to the frame, whatever its result. -/
def Keeps (frame : Frame ω) (action : StateM ω α) : Prop :=
  ∀ state, frame.rel state (action state).2

theorem stateBind_apply (action : StateM ω α) (next : α → StateM ω β) (state : ω) :
    (action >>= next) state = next (action state).1 (action state).2 := rfl

variable {frame : Frame ω}

theorem keeps_pure (value : α) : frame.Keeps (pure value) := fun state => frame.refl state

theorem keeps_get : frame.Keeps (get : StateM ω ω) := fun state => frame.refl state

theorem keeps_bind {action : StateM ω α} {next : α → StateM ω β} (haction : frame.Keeps action)
    (hnext : ∀ value, frame.Keeps (next value)) : frame.Keeps (action >>= next) := fun state =>
  frame.trans (haction state) (hnext (action state).1 (action state).2)

/-- The frame for a part of the state. -/
def on (part : τ → ω) (frame : Frame ω) : Frame τ where
  rel before after := frame.rel (part before) (part after)
  refl state := frame.refl (part state)
  trans := frame.trans

/-- What keeps to both of two frames. -/
def both (frame other : Frame ω) : Frame ω where
  rel before after := frame.rel before after ∧ other.rel before after
  refl state := ⟨frame.refl state, other.refl state⟩
  trans first second := ⟨frame.trans first.1 second.1, other.trans first.2 second.2⟩

/-- The frame for states with a property, which they keep. -/
def keeping (holds : ω → Prop) (frame : Frame ω) : Frame ω where
  rel before after := holds before → holds after ∧ frame.rel before after
  refl state h := ⟨h, frame.refl state⟩
  trans first second h :=
    ⟨(second (first h).1).1, frame.trans (first h).2 (second (first h).1).2⟩

end Frame

/-! ## The place that a path leads to -/

namespace Path

/-- The place that a name leads to. -/
def follow (place : Place) (name : String) : Place :=
  if name = ".." then place.dropLast else if name = "." then place else place ++ [name]

/-- The place that a path leads to if nothing is in the way, read at the working directory
`here`. -/
def lands (here : Place) (path : Path) : Place :=
  path.names.foldl follow (if path.slashes = 0 then here else [])

/-- Without steps upwards names lead further down. -/
theorem prefix_foldl_follow (start : Place) {names : List String} (h : ".." ∉ names) :
    start <+: names.foldl follow start := by
  induction names generalizing start with
  | nil => exact List.prefix_refl _
  | cons name rest ih =>
      rw [List.mem_cons, not_or] at h
      refine List.IsPrefix.trans ?_ (ih (follow start name) h.2)
      unfold follow
      rw [if_neg (Ne.symm h.1)]
      split
      · exact List.prefix_refl _
      · exact List.prefix_append _ _

theorem lands_child {here : Place} {base : Path} {name : String} (hup : name ≠ "..")
    (hhere : name ≠ ".") : lands here ⟨base.slashes, base.names ++ [name]⟩ =
      lands here base ++ [name] := by
  unfold lands
  rw [List.foldl_append]
  show follow _ name = _
  unfold follow
  rw [if_neg hup, if_neg hhere]

end Path

namespace FileSystem

theorem walk_eq_ok {files : FileSystem} {start place : Place} {names : List String}
    (h : files.walk start names = .ok place) : place = names.foldl Path.follow start := by
  induction names generalizing start with
  | nil => exact (Except.ok.inj h).symm
  | cons name rest ih =>
      rw [List.foldl_cons]
      unfold walk at h
      split at h
      · cases h
      · cases h
      · unfold Path.follow
        split at h
        · next hup => rw [if_pos hup]; exact ih h
        · next hup =>
            rw [if_neg hup]
            split at h
            · next hhere => rw [if_pos hhere]; exact ih h
            · next hhere => rw [if_neg hhere]; exact ih h

/-- A path means the place that it leads to, or none. -/
theorem place_eq_ok {files : FileSystem} {path : Path} {place : Place}
    (h : files.place path = .ok place) : place = path.lands files.here := by
  unfold FileSystem.place at h
  cases hwalk : files.walk (if path.slashes = 0 then files.here else []) path.names with
  | error error => rw [hwalk] at h; cases h
  | ok found =>
      rw [hwalk] at h
      rw [← Except.ok.inj h]
      exact walk_eq_ok hwalk

/-! ## Frames of a file system -/

/-- Nothing changes but what stands at `inside` places, and missing directories may be made at `way`
places. -/
structure Confined (inside way : Place → Prop) (before after : FileSystem) : Prop where
  here : after.here = before.here
  nodes : ∀ place, ¬ inside place → after.node? place = before.node? place ∨
    (way place ∧ before.node? place = none ∧ after.node? place = some .directory)

theorem Confined.refl {inside way : Place → Prop} (files : FileSystem) :
    Confined inside way files files := ⟨rfl, fun _ _ => Or.inl rfl⟩

theorem Confined.trans {inside way : Place → Prop} {first second third : FileSystem}
    (hfirst : Confined inside way first second) (hsecond : Confined inside way second third) :
    Confined inside way first third := by
  refine ⟨hsecond.here.trans hfirst.here, ?_⟩
  intro place hplace
  rcases hfirst.nodes place hplace with hsame | ⟨hway, hnone, hmade⟩
  · rw [← hsame]
    exact hsecond.nodes place hplace
  · rcases hsecond.nodes place hplace with hsame | ⟨-, hgone, -⟩
    · exact Or.inr ⟨hway, hnone, hsame.trans hmade⟩
    · rw [hmade] at hgone
      cases hgone

theorem Confined.mono {inside way inside' way' : Place → Prop} {before after : FileSystem}
    (h : Confined inside way before after) (hinside : ∀ place, inside place → inside' place)
    (hway : ∀ place, way place → way' place) : Confined inside' way' before after := by
  refine ⟨h.here, ?_⟩
  intro place hplace
  rcases h.nodes place fun hin => hplace (hinside place hin) with hsame | ⟨hmay, hrest⟩
  · exact Or.inl hsame
  · exact Or.inr ⟨hway place hmay, hrest⟩

theorem Confined.put {inside way : Place → Prop} (files : FileSystem) {place : Place}
    (h : inside place) (node : Node) : Confined inside way files (files.put place node) := by
  refine ⟨rfl, ?_⟩
  intro other hother
  rw [node?_put, if_neg]
  · exact Or.inl rfl
  · rintro ⟨-, rfl⟩
    exact hother h

theorem Confined.put_directory {inside way : Place → Prop} {files : FileSystem} {place : Place}
    (h : way place) (hnone : files.node? place = none) :
    Confined inside way files (files.put place .directory) := by
  refine ⟨rfl, ?_⟩
  intro other _
  rw [node?_put]
  split
  · next hplace =>
      rw [← hplace.2]
      exact Or.inr ⟨h, hnone, rfl⟩
  · exact Or.inl rfl

theorem Confined.dropWhere {inside way : Place → Prop} (files : FileSystem)
    {gone : Place → Bool} (h : ∀ place, gone place = true → inside place) :
    Confined inside way files (files.dropWhere gone) := by
  refine ⟨rfl, ?_⟩
  intro other hother
  rw [node?_dropWhere, if_neg]
  · exact Or.inl rfl
  · rintro ⟨-, hgone⟩
    exact hother (h other hgone)

/-- The frame of the files that are seen from the working directory `here`. -/
def frame (here : Place) (inside way : Place → Prop) : Frame FileSystem :=
  Frame.keeping (fun files => files.here = here) ⟨Confined inside way, .refl, .trans⟩

theorem frame_rel {here : Place} {inside way : Place → Prop} {before after : FileSystem}
    (h : before.here = here → Confined inside way before after) :
    (frame here inside way).rel before after := fun hhere =>
  ⟨(h hhere).here.trans hhere, h hhere⟩

end FileSystem

/-! ## Runs of operations -/

namespace FileAction

variable {α β : Type}

theorem run_bind (action : FileAction α) (next : α → FileAction β) (files : FileSystem) :
    (action >>= next).run files = match action.run files with
      | (.ok value, after) => (next value).run after
      | (.error error, after) => (Except.error error, after) := by
  rw [ExceptT.run_bind, Frame.stateBind_apply]
  rcases action.run files with ⟨error | value, after⟩ <;> rfl

theorem run_tryCatch (action : FileAction α) (handle : SystemError → FileAction α)
    (files : FileSystem) :
    (tryCatch action handle).run files = match action.run files with
      | (.ok value, after) => (Except.ok value, after)
      | (.error error, after) => (handle error).run after := by
  rw [ExceptT.run_tryCatch, Frame.stateBind_apply]
  rcases action.run files with ⟨error | value, after⟩ <;> rfl

theorem run_get (files : FileSystem) :
    (get : FileAction FileSystem).run files = (.ok files, files) := rfl

theorem run_place (path : Path) (files : FileSystem) :
    (place path).run files = (files.place path, files) := by
  rw [place, run_bind, run_get]
  dsimp only
  cases files.place path <;> rfl

/-! ## Operations and frames -/

/-- The operation keeps to the frame, whether it succeeds or fails. -/
def Keeps (frame : Frame FileSystem) (action : FileAction α) : Prop := frame.Keeps action.run

variable {frame : Frame FileSystem}

theorem keeps_pure (value : α) : Keeps frame (pure value) := fun files => frame.refl files

theorem keeps_throw (error : SystemError) : Keeps frame (throw error : FileAction α) :=
  fun files => frame.refl files

theorem keeps_get : Keeps frame (get : FileAction FileSystem) := fun files => frame.refl files

theorem keeps_bind {action : FileAction α} {next : α → FileAction β} (haction : Keeps frame action)
    (hnext : ∀ value, Keeps frame (next value)) : Keeps frame (action >>= next) := by
  intro files
  have hfirst := haction files
  rw [run_bind]
  revert hfirst
  rcases action.run files with ⟨error | value, after⟩
  · exact fun hfirst => hfirst
  · exact fun hfirst => frame.trans hfirst (hnext value after)

theorem keeps_tryCatch {action : FileAction α} {handle : SystemError → FileAction α}
    (haction : Keeps frame action) (hhandle : ∀ error, Keeps frame (handle error)) :
    Keeps frame (tryCatch action handle) := by
  intro files
  have hfirst := haction files
  rw [run_tryCatch]
  revert hfirst
  rcases action.run files with ⟨error | value, after⟩
  · exact fun hfirst => frame.trans hfirst (hhandle error after)
  · exact fun hfirst => hfirst

theorem keeps_forM {items : List β} {action : β → FileAction Unit}
    (h : ∀ item ∈ items, Keeps frame (action item)) : Keeps frame (items.forM action) := by
  induction items with
  | nil => exact keeps_pure _
  | cons item rest ih =>
      exact keeps_bind (h item List.mem_cons_self) fun _ =>
        ih fun other hother => h other (List.mem_cons_of_mem _ hother)

theorem keeps_ite {condition : Prop} [Decidable condition] {yes no : FileAction α}
    (hyes : Keeps frame yes) (hno : Keeps frame no) :
    Keeps frame (if condition then yes else no) := by
  split
  · exact hyes
  · exact hno

theorem keeps_place (path : Path) : Keeps frame (place path) := by
  intro files
  rw [run_place]
  exact frame.refl files

variable {here : Place} {inside way : Place → Prop}

/-- An operation on the place of a path acts where the path lands. -/
theorem keeps_place_bind {path : Path} {next : Place → FileAction α}
    (h : Keeps (FileSystem.frame here inside way) (next (path.lands here))) :
    Keeps (FileSystem.frame here inside way) (place path >>= next) := by
  intro files hhere
  rw [run_bind, run_place]
  cases hplace : files.place path with
  | error error => exact ⟨hhere, .refl files⟩
  | ok place =>
      have hlands : place = path.lands here := by rw [FileSystem.place_eq_ok hplace, hhere]
      rw [hlands]
      exact h files hhere

theorem keeps_put {place : Place} (h : inside place) (node : Node) :
    Keeps (FileSystem.frame here inside way)
      (modify (FileSystem.put · place node) : FileAction PUnit) := fun files =>
  FileSystem.frame_rel fun _ => .put files h node

theorem keeps_dropWhere {gone : Place → Bool} (h : ∀ place, gone place = true → inside place) :
    Keeps (FileSystem.frame here inside way)
      (modify (FileSystem.dropWhere · gone) : FileAction PUnit) := fun files =>
  FileSystem.frame_rel fun _ => .dropWhere files h

theorem keeps_read (path : Path) : Keeps frame (read path) := by
  refine keeps_bind (keeps_place path) fun place => keeps_bind keeps_get fun files => ?_
  rcases files.node? place with _ | (_ | content)
  · exact keeps_throw _
  · exact keeps_throw _
  · exact keeps_pure _

theorem keeps_change {path : Path} (h : inside (path.lands here)) (f : List UInt8 → List UInt8) :
    Keeps (FileSystem.frame here inside way) (change path f) := by
  refine keeps_place_bind (keeps_bind keeps_get fun files => ?_)
  rcases files.node? (path.lands here) with _ | (_ | content)
  · exact keeps_put h _
  · exact keeps_throw _
  · exact keeps_put h _

theorem keeps_write {path : Path} (h : inside (path.lands here)) (content : List UInt8) :
    Keeps (FileSystem.frame here inside way) (write path content) := keeps_change h _

theorem keeps_append {path : Path} (h : inside (path.lands here)) (content : List UInt8) :
    Keeps (FileSystem.frame here inside way) (append path content) := keeps_change h _

theorem keeps_makeDirectory {path : Path} (h : way (path.lands here)) :
    Keeps (FileSystem.frame here inside way) (makeDirectory path) := by
  refine keeps_place_bind fun files => ?_
  rw [run_bind, run_get]
  dsimp only
  cases hnode : files.node? (path.lands here) with
  | some node => exact Frame.refl _ files
  | none => exact FileSystem.frame_rel fun _ => .put_directory h hnode

theorem keeps_ensureDirectory {path : Path} (h : Keeps frame (makeDirectory path)) :
    Keeps frame (ensureDirectory path) := by
  unfold ensureDirectory
  refine keeps_bind (keeps_tryCatch ?_ fun error => ?_) fun ended => ?_
  · exact keeps_bind h fun _ => keeps_pure _
  · refine keeps_bind keeps_get fun files => keeps_ite (keeps_pure _) ?_
    exact keeps_bind (keeps_throw error) fun _ => keeps_pure _
  · cases ended <;> exact keeps_pure _

/-- Making the directories on the way to a path keeps to what making each of them keeps to. -/
theorem keeps_makeDirectoriesTo (depth : Nat) {path : Path}
    (h : ∀ names, names <+: path.names → Keeps frame (makeDirectory ⟨path.slashes, names⟩)) :
    Keeps frame (makeDirectoriesTo depth path) := by
  induction depth generalizing path with
  | zero => exact keeps_ensureDirectory (h path.names (List.prefix_refl _))
  | succ depth ih =>
      have hself := h path.names (List.prefix_refl _)
      unfold makeDirectoriesTo
      refine keeps_bind (keeps_tryCatch ?_ fun error => ?_) fun ended => ?_
      · exact keeps_bind hself fun _ => keeps_pure _
      · refine keeps_ite ?_ ?_
        · cases hparent : path.parent? with
          | none => exact keeps_bind (keeps_throw error) fun _ => keeps_pure _
          | some parent =>
              refine keeps_bind (ih fun names hnames => ?_) fun _ => ?_
              · unfold Path.parent? at hparent
                split at hparent
                · cases hparent
                · obtain rfl := Option.some.inj hparent
                  exact h names (hnames.trans (List.dropLast_prefix _))
              · exact keeps_bind (keeps_ensureDirectory hself) fun _ => keeps_pure _
        · refine keeps_bind keeps_get fun files => keeps_ite (keeps_pure _) ?_
          exact keeps_bind (keeps_throw error) fun _ => keeps_pure _
      · cases ended <;> exact keeps_pure _

/-- The places of the directories that lead to the place of a path, and this place itself. -/
def OnWay (here : Place) (path : Path) (place : Place) : Prop :=
  ∃ names, names <+: path.names ∧ place = Path.lands here ⟨path.slashes, names⟩

/-- **Making directories** makes those on the way that are missing, and changes nothing else. -/
theorem prefix_of_onWay {here : Place} {path : Path} {place : Place} (hup : ".." ∉ path.names)
    (h : OnWay here path place) : place <+: path.lands here := by
  obtain ⟨names, ⟨rest, hrest⟩, rfl⟩ := h
  unfold Path.lands
  rw [← hrest] at hup ⊢
  rw [List.foldl_append]
  exact Path.prefix_foldl_follow _ fun hmem => hup (List.mem_append_right _ hmem)

theorem keeps_makeDirectories {path : Path} (hway : ∀ place, OnWay here path place → way place) :
    Keeps (FileSystem.frame here inside way) (makeDirectories path) :=
  keeps_makeDirectoriesTo path.names.length fun names hnames =>
    keeps_makeDirectory (hway _ ⟨names, hnames, rfl⟩)

theorem keeps_removeEmptyDirectory {path : Path} (h : inside (path.lands here)) :
    Keeps (FileSystem.frame here inside way) (removeEmptyDirectory path) := by
  have hdrop : ∀ place, (place == path.lands here) = true → inside place := by
    intro place hplace
    rw [beq_iff_eq.mp hplace]
    exact h
  -- each of the three checks throws or goes on, and the rest stands behind it in either case
  refine keeps_place_bind (keeps_bind keeps_get fun files => ?_)
  refine keeps_ite (keeps_bind (keeps_throw _) fun _ => ?_) ?_
  all_goals refine keeps_ite (keeps_bind (keeps_throw _) fun _ => ?_) ?_
  all_goals refine keeps_ite (keeps_bind (keeps_throw _) fun _ => ?_) ?_
  all_goals exact keeps_dropWhere hdrop

/-- **Removing a tree** changes nothing outside of it. -/
theorem keeps_removeTree {path : Path}
    (h : ∀ place, path.lands here <+: place → inside place) :
    Keeps (FileSystem.frame here inside way) (removeTree path) := by
  refine keeps_place_bind (keeps_bind keeps_get fun files => ?_)
  rcases files.node? (path.lands here) with _ | (_ | content)
  · exact keeps_throw _
  · refine keeps_bind (keeps_dropWhere fun place hplace => ?_) fun _ =>
      keeps_removeEmptyDirectory (h _ (List.prefix_refl _))
    unfold isInside at hplace
    exact h place (List.isPrefixOf_iff_prefix.mp (Bool.and_eq_true_iff.mp hplace).1)
  · exact keeps_throw _

end FileAction

end RustScript
