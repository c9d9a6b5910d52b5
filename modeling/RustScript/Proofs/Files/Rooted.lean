import RustScript.Proofs.Files.Standing

/-!
# Trees of files

A tree of files is rooted if whatever stands in it stands in a directory, and the working directory is
one (`Rooted`). Paths then lead to places in directories (`Rooted.around_place`), so everything that
is made at the place of a path, and everything that is removed with all that it holds, leaves a rooted
tree.
-/

set_option autoImplicit false

namespace RustScript

namespace FileSystem

/-- Whatever stands somewhere stands in a directory. -/
structure Rooted (files : FileSystem) : Prop where
  here : files.node? files.here = some .directory
  above : ∀ place name, files.node? (place ++ [name]) ≠ none →
    files.node? place = some .directory

variable {files : FileSystem}

/-- A tree that holds nothing is rooted, seen from its root. -/
theorem Rooted.bare {files : FileSystem} (h : files = ⟨[], []⟩) : files.Rooted := by
  subst h
  refine ⟨rfl, fun place name hstands => absurd ?_ hstands⟩
  cases place <;> rfl

/-- The place is in a directory, if it is not the root. -/
def InDirectory (files : FileSystem) (place : Place) : Prop :=
  ∀ outer name, place = outer ++ [name] → files.node? outer = some .directory

section

variable (h : files.Rooted)

include h

theorem Rooted.inDirectory {place : Place} (hplace : files.node? place ≠ none) :
    files.InDirectory place := by
  rintro outer name rfl
  exact h.above outer name hplace

/-- What stands on the way to something is a directory. -/
theorem Rooted.directory_of_append {place : Place} {first : String} {rest : List String}
    (hinner : files.node? (place ++ first :: rest) ≠ none) : files.node? place = some .directory := by
  induction rest generalizing place first with
  | nil => exact h.above place first hinner
  | cons second rest ih =>
      refine h.above place first ?_
      rw [List.append_cons] at hinner
      rw [ih hinner]
      exact nofun

theorem Rooted.directory_of_here {place : Place} (habove : place <+: files.here) :
    files.node? place = some .directory := by
  obtain ⟨rest, hrest⟩ := habove
  cases rest with
  | nil => rw [← List.append_nil place, hrest, h.here]
  | cons first rest =>
      have hstands : files.node? (place ++ first :: rest) ≠ none := by
        rw [hrest, h.here]
        exact nofun
      exact h.directory_of_append hstands

/-- A walk that comes from a place in a directory leads to a place in a directory. -/
theorem Rooted.around_walk {start place : Place} {names : List String}
    (hstart : files.InDirectory start) (hwalk : files.walk start names = .ok place) :
    files.InDirectory place := by
  induction names generalizing start with
  | nil => rwa [← Except.ok.inj hwalk]
  | cons name rest ih =>
      rw [walk_cons] at hwalk
      rcases hnode : files.node? start with _ | (_ | content)
      · rw [hnode] at hwalk
        cases hwalk
      · rw [hnode] at hwalk
        refine ih ?_ hwalk
        unfold Path.follow
        split
        · -- a step upwards leads to a directory on the way to the start
          rcases start.eq_nil_or_concat with rfl | ⟨outer, last, rfl⟩
          · exact hstart
          · rw [List.concat_eq_append] at hstart ⊢
            rw [List.dropLast_concat]
            refine h.inDirectory ?_
            rw [hstart outer last rfl]
            exact nofun
        · split
          · exact hstart
          · rintro outer last heq
            rw [← (List.append_inj' heq rfl).1]
            exact hnode
      · rw [hnode] at hwalk
        cases hwalk

/-- **A path leads to a place in a directory**, if it leads anywhere. -/
theorem Rooted.around_place {path : Path} {place : Place} (hplace : files.place path = .ok place) :
    files.InDirectory place := by
  unfold FileSystem.place at hplace
  cases hwalk : files.walk (if path.slashes = 0 then files.here else []) path.names with
  | error error =>
      rw [hwalk] at hplace
      cases hplace
  | ok found =>
      rw [hwalk] at hplace
      rw [← Except.ok.inj hplace]
      refine h.around_walk ?_ hwalk
      split
      · refine h.inDirectory ?_
        rw [h.here]
        exact nofun
      · exact fun outer name hroot => absurd hroot.symm (List.append_ne_nil_of_right_ne_nil _ nofun)

/-! ## Changes of rooted trees -/

/-- Something can be put into a directory in the place of a file or of nothing. -/
theorem Rooted.put {place : Place} (hplace : files.node? place ≠ some .directory)
    (haround : files.InDirectory place) (node : Node) : (files.put place node).Rooted := by
  have hkeep : ∀ other, files.node? other = some .directory →
      (files.put place node).node? other = some .directory := by
    intro other hother
    rw [node?_put, if_neg]
    · exact hother
    · rintro ⟨-, rfl⟩
      exact hplace hother
  refine ⟨hkeep _ h.here, fun outer name hstands => hkeep _ ?_⟩
  by_cases heq : place = outer ++ [name]
  · exact haround outer name heq
  · rw [node?_put, if_neg fun hboth => heq hboth.2] at hstands
    exact h.above outer name hstands

/-- What is removed takes all that it holds with it. -/
theorem Rooted.dropWhere {gone : Place → Bool} (hhere : gone files.here = false)
    (hgone : ∀ outer name, gone outer = true → files.node? (outer ++ [name]) = none ∨
      gone (outer ++ [name]) = true) : (files.dropWhere gone).Rooted := by
  constructor
  · rw [node?_dropWhere, if_neg]
    · exact h.here
    · rintro ⟨-, hnow⟩
      rw [show (files.dropWhere gone).here = files.here from rfl, hhere] at hnow
      cases hnow
  · intro outer name hstands
    rw [node?_dropWhere] at hstands ⊢
    split at hstands
    · exact absurd rfl hstands
    · next hkept =>
        rw [if_neg]
        · exact h.above outer name hstands
        · rintro ⟨-, houter⟩
          rcases hgone outer name houter with hnone | hinner
          · exact hstands hnone
          · exact hkept ⟨List.append_ne_nil_of_right_ne_nil _ (List.cons_ne_nil _ _), hinner⟩

/-- A directory is emptied. -/
theorem Rooted.emptied {place : Place} (hhere : ¬ place <+: files.here) :
    (files.dropWhere (FileAction.isInside place)).Rooted := by
  refine h.dropWhere ?_ fun outer name houter => .inr ?_
  · unfold FileAction.isInside
    rw [Bool.and_eq_false_iff]
    exact .inl (Bool.eq_false_iff.mpr fun habove => hhere (List.isPrefixOf_iff_prefix.mp habove))
  · unfold FileAction.isInside at houter ⊢
    rw [Bool.and_eq_true, List.isPrefixOf_iff_prefix, bne_iff_ne] at houter ⊢
    refine ⟨houter.1.trans (List.prefix_append _ _), fun heq => ?_⟩
    have hlength := houter.1.length_le
    rw [← heq, List.length_append] at hlength
    exact absurd hlength (by simp)

/-- Something that holds nothing is removed. -/
theorem Rooted.removed {place : Place} (hhere : ¬ place <+: files.here)
    (hempty : ∀ name, files.node? (place ++ [name]) = none) :
    (files.dropWhere (· == place)).Rooted := by
  refine h.dropWhere ?_ fun outer name houter => .inl ?_
  · rw [beq_eq_false_iff_ne]
    intro heq
    exact hhere (heq ▸ List.prefix_refl _)
  · rw [beq_iff_eq.mp houter]
    exact hempty name

end

/-- The frame of rooted trees. -/
def rooting : Frame FileSystem :=
  Frame.keeping Rooted ⟨fun _ _ => True, fun _ => trivial, fun _ _ => trivial⟩

end FileSystem

/-! ## Operations on rooted trees -/

namespace FileAction

open FileSystem

theorem keeps_rooting_change (path : Path) (f : List UInt8 → List UInt8) :
    Keeps rooting (change path f) := by
  refine fun files hrooted => ⟨?_, trivial⟩
  rw [run_change]
  cases hplace : files.place path with
  | error error => exact hrooted
  | ok place =>
      have hput : files.node? place ≠ some .directory → ∀ content : List UInt8,
          (files.put place (.file content)).Rooted := fun hfree content =>
        hrooted.put hfree (hrooted.around_place hplace) _
      dsimp only
      rcases hnode : files.node? place with _ | (_ | content)
      · exact hput (by rw [hnode]; exact nofun) _
      · exact hrooted
      · exact hput (by rw [hnode]; exact fun heq => by cases heq) _

theorem keeps_rooting_makeDirectory (path : Path) : Keeps rooting (makeDirectory path) := by
  refine fun files hrooted => ⟨?_, trivial⟩
  rw [run_makeDirectory]
  cases hplace : files.place path with
  | error error => exact hrooted
  | ok place =>
      dsimp only
      cases hnode : files.node? place with
      | some node => exact hrooted
      | none => exact hrooted.put (by rw [hnode]; exact nofun) (hrooted.around_place hplace) _

theorem keeps_rooting_makeDirectories (path : Path) : Keeps rooting (makeDirectories path) :=
  keeps_makeDirectoriesTo _ fun _ _ => keeps_rooting_makeDirectory _

end FileAction

end RustScript
