import RustScript.Log.Local
import RustScript.Proofs.Files.Standing

/-!
# Similar files

Two trees of files are similar if they are the same but for what files at some places hold
(`Similar`). An operation that does not ask what such a file holds ends the same way on both of them
and leaves them similar (`Matches`): paths lead to the same places, and the same directories and
files can be made.
-/

set_option autoImplicit false

namespace RustScript

namespace FileSystem

/-! ## Similar trees -/

/-- The trees are seen from the working directory `here`, and are the same but for what files at
`unseen` places hold. -/
structure Similar (here : Place) (unseen : Place → Prop) (first second : FileSystem) : Prop where
  firstHere : first.here = here
  secondHere : second.here = here
  nodes : ∀ place, second.node? place = first.node? place ∨ (unseen place ∧
    ∃ content other, first.node? place = some (.file content) ∧
      second.node? place = some (.file other))

variable {here : Place} {unseen : Place → Prop} {first second third : FileSystem}

theorem Similar.refl (h : first.here = here) : Similar here unseen first first :=
  ⟨h, h, fun _ => .inl rfl⟩

theorem Similar.trans (h : Similar here unseen first second)
    (hnext : Similar here unseen second third) : Similar here unseen first third := by
  refine ⟨h.firstHere, hnext.secondHere, fun place => ?_⟩
  rcases h.nodes place with hsame | ⟨hunseen, content, other, hfirst, hsecond⟩
  · rw [← hsame]
    exact hnext.nodes place
  · rcases hnext.nodes place with hsame | ⟨-, -, last, -, hthird⟩
    · exact .inr ⟨hunseen, content, other, hfirst, hsame.trans hsecond⟩
    · exact .inr ⟨hunseen, content, last, hfirst, hthird⟩

section

variable (h : Similar here unseen first second)

include h

/-- What stands at a place of similar trees: the same, or two files. -/
theorem Similar.node?_cases (place : Place) :
    (first.node? place = none ∧ second.node? place = none) ∨
      (first.node? place = some .directory ∧ second.node? place = some .directory) ∨
      ∃ content other, first.node? place = some (.file content) ∧
        second.node? place = some (.file other) ∧ (other = content ∨ unseen place) := by
  rcases h.nodes place with hsame | ⟨hunseen, content, other, hfirst, hsecond⟩
  · rw [hsame]
    rcases first.node? place with _ | (_ | content)
    · exact .inl ⟨rfl, rfl⟩
    · exact .inr (.inl ⟨rfl, rfl⟩)
    · exact .inr (.inr ⟨content, content, rfl, rfl, .inl rfl⟩)
  · exact .inr (.inr ⟨content, other, hfirst, hsecond, .inr hunseen⟩)

theorem Similar.node?_of_seen {place : Place} (hplace : ¬ unseen place) :
    second.node? place = first.node? place :=
  (h.nodes place).resolve_right fun hfiles => hplace hfiles.1

theorem Similar.walk (start : Place) (names : List String) :
    second.walk start names = first.walk start names := by
  induction names generalizing start with
  | nil => rfl
  | cons name rest ih =>
      rw [walk_cons, walk_cons, ih]
      rcases h.node?_cases start with ⟨hfirst, hsecond⟩ | ⟨hfirst, hsecond⟩ |
        ⟨content, other, hfirst, hsecond, -⟩
      all_goals rw [hfirst, hsecond]

theorem Similar.place (path : Path) : second.place path = first.place path := by
  unfold FileSystem.place
  rw [h.firstHere, h.secondHere, h.walk]

theorem Similar.exists (path : Path) : second.exists path = first.exists path := by
  unfold FileSystem.exists FileSystem.find?
  rw [h.place]
  cases first.place path with
  | error error => rfl
  | ok place =>
      dsimp only
      rcases h.node?_cases place with ⟨hfirst, hsecond⟩ | ⟨hfirst, hsecond⟩ |
        ⟨content, other, hfirst, hsecond, -⟩
      all_goals rw [hfirst, hsecond]
      rfl

theorem Similar.isDirectory (path : Path) :
    second.isDirectory path = first.isDirectory path := by
  unfold FileSystem.isDirectory FileSystem.find?
  rw [h.place]
  cases first.place path with
  | error error => rfl
  | ok place =>
      dsimp only
      rcases h.node?_cases place with ⟨hfirst, hsecond⟩ | ⟨hfirst, hsecond⟩ |
        ⟨content, other, hfirst, hsecond, -⟩
      all_goals rw [hfirst, hsecond]
      rfl

/-- The same can be put into similar trees, and at places that are unseen two files. -/
theorem Similar.put {place : Place} {node other : Node}
    (hnode : other = node ∨ (unseen place ∧ ∃ content content', node = .file content ∧
      other = .file content')) :
    Similar here unseen (first.put place node) (second.put place other) := by
  refine ⟨h.firstHere, h.secondHere, fun other' => ?_⟩
  rw [node?_put, node?_put]
  by_cases hplace : other' ≠ [] ∧ place = other'
  · rw [if_pos hplace, if_pos hplace, ← hplace.2]
    rcases hnode with rfl | ⟨hunseen, content, content', rfl, rfl⟩
    · exact .inl rfl
    · exact .inr ⟨hunseen, content, content', rfl, rfl⟩
  · rw [if_neg hplace, if_neg hplace]
    exact h.nodes other'

end

end FileSystem

/-! ## Operations on similar trees -/

namespace FileAction

variable {α β : Type} {here : Place} {unseen : Place → Prop}

/-- On similar trees the two operations have the same result, and leave similar trees. -/
def Matches (here : Place) (unseen : Place → Prop) (action other : FileAction α) : Prop :=
  ∀ first second, FileSystem.Similar here unseen first second →
    (other.run second).1 = (action.run first).1 ∧
      FileSystem.Similar here unseen (action.run first).2 (other.run second).2

theorem matches_pure (value : α) : Matches here unseen (pure value) (pure value) :=
  fun _ _ h => ⟨rfl, h⟩

theorem Matches.bind {action other : FileAction α} {next next' : α → FileAction β}
    (haction : Matches here unseen action other)
    (hnext : ∀ value, Matches here unseen (next value) (next' value)) :
    Matches here unseen (action >>= next) (other >>= next') := by
  intro first second h
  obtain ⟨hresult, hfiles⟩ := haction first second h
  rw [run_bind, run_bind]
  revert hresult hfiles
  rcases action.run first with ⟨error | value, after⟩
  all_goals
    rcases other.run second with ⟨error' | value', after'⟩
    all_goals
      intro hresult hfiles
      cases hresult
  · exact ⟨rfl, hfiles⟩
  · exact hnext value after after' hfiles

/-- A file is given new content, which depends on the old one only where that is unseen. -/
theorem matches_change {path : Path} {f f' : List UInt8 → List UInt8}
    (h : (∃ content, f = (fun _ => content) ∧ f' = fun _ => content) ∨ unseen (path.lands here)) :
    Matches here unseen (change path f) (change path f') := by
  intro first second hsimilar
  rw [run_change, run_change, hsimilar.place]
  cases hplace : first.place path with
  | error error => exact ⟨rfl, hsimilar⟩
  | ok place =>
      have hlands : place = path.lands here := by
        rw [FileSystem.place_eq_ok hplace, hsimilar.firstHere]
      have hput : ∀ content content', FileSystem.Similar here unseen
          (first.put place (.file (f content))) (second.put place (.file (f' content'))) := by
        intro content content'
        refine hsimilar.put ?_
        rcases h with ⟨given, rfl, rfl⟩ | hunseen
        · exact .inl rfl
        · exact .inr ⟨hlands ▸ hunseen, _, _, rfl, rfl⟩
      dsimp only
      rcases hsimilar.node?_cases place with ⟨hfirst, hsecond⟩ | ⟨hfirst, hsecond⟩ |
        ⟨content, other, hfirst, hsecond, -⟩
      all_goals rw [hfirst, hsecond]
      · exact ⟨rfl, hput _ _⟩
      · exact ⟨rfl, hsimilar⟩
      · exact ⟨rfl, hput _ _⟩

theorem matches_write (path : Path) (content : List UInt8) :
    Matches here unseen (write path content) (write path content) :=
  matches_change (.inl ⟨content, rfl, rfl⟩)

theorem matches_append {path : Path} (h : unseen (path.lands here)) (content other : List UInt8) :
    Matches here unseen (append path content) (append path other) :=
  matches_change (.inr h)

theorem matches_makeDirectory (path : Path) :
    Matches here unseen (makeDirectory path) (makeDirectory path) := by
  intro first second hsimilar
  rw [run_makeDirectory, run_makeDirectory, hsimilar.place]
  cases first.place path with
  | error error => exact ⟨rfl, hsimilar⟩
  | ok place =>
      dsimp only
      rcases hsimilar.node?_cases place with ⟨hfirst, hsecond⟩ | ⟨hfirst, hsecond⟩ |
        ⟨content, other, hfirst, hsecond, -⟩
      all_goals rw [hfirst, hsecond]
      · exact ⟨rfl, hsimilar.put (.inl rfl)⟩
      · exact ⟨rfl, hsimilar⟩
      · exact ⟨rfl, hsimilar⟩

/-- Two runs on similar trees that have ended alike so far. -/
theorem matches_cases {action other : FileAction α} (h : Matches here unseen action other)
    {first second : FileSystem} (hsimilar : FileSystem.Similar here unseen first second) :
    ∃ result after after', action.run first = (result, after) ∧
      other.run second = (result, after') ∧ FileSystem.Similar here unseen after after' := by
  obtain ⟨hresult, hfiles⟩ := h first second hsimilar
  exact ⟨(action.run first).1, (action.run first).2, (other.run second).2, rfl,
    Prod.ext hresult rfl, hfiles⟩

theorem matches_ensureDirectory (path : Path) :
    Matches here unseen (ensureDirectory path) (ensureDirectory path) := by
  intro first second hsimilar
  obtain ⟨result, after, after', hfirst, hsecond, hafter⟩ :=
    matches_cases (matches_makeDirectory path) hsimilar
  rw [run_ensureDirectory, run_ensureDirectory, hfirst, hsecond]
  cases result with
  | ok made => exact ⟨rfl, hafter⟩
  | error error =>
      dsimp only
      rw [hafter.isDirectory]
      split <;> exact ⟨rfl, hafter⟩

theorem matches_makeDirectoriesTo (depth : Nat) (path : Path) :
    Matches here unseen (makeDirectoriesTo depth path) (makeDirectoriesTo depth path) := by
  induction depth generalizing path with
  | zero => exact matches_ensureDirectory path
  | succ depth ih =>
      intro first second hsimilar
      obtain ⟨result, after, after', hfirst, hsecond, hafter⟩ :=
        matches_cases (matches_makeDirectory path) hsimilar
      rw [run_makeDirectoriesTo_succ, run_makeDirectoriesTo_succ, hfirst, hsecond]
      cases result with
      | ok made => exact ⟨rfl, hafter⟩
      | error error =>
          dsimp only
          rw [hafter.isDirectory]
          split
          · cases path.parent? with
            | none => exact ⟨rfl, hafter⟩
            | some parent =>
                obtain ⟨outcome, made, made', houter, houter', hmade⟩ :=
                  matches_cases (ih parent) hafter
                dsimp only
                rw [houter, houter']
                cases outcome with
                | error error => exact ⟨rfl, hmade⟩
                | ok ready => exact matches_ensureDirectory path made made' hmade
          · split <;> exact ⟨rfl, hafter⟩

/-- **Making directories** does the same in similar trees. -/
theorem matches_makeDirectories (path : Path) :
    Matches here unseen (makeDirectories path) (makeDirectories path) :=
  matches_makeDirectoriesTo _ path

/-- **Writing files into a directory** does the same in similar trees. -/
theorem matches_writeFiles (directory : Path) (contents : List (String × String)) :
    Matches here unseen (Log.writeFiles directory contents) (Log.writeFiles directory contents) := by
  refine (matches_makeDirectories directory).bind fun _ => ?_
  induction contents with
  | nil => exact matches_pure _
  | cons file rest ih => exact (matches_write _ _).bind fun _ => ih

end FileAction

end RustScript
