import RustScript.Proofs.Files.Rooted
import RustScript.Proofs.Files.Similar

/-!
# Near trees of files

Someone else has been at work beside one of two trees of files: at some places anything may stand
there, on the way to them directories may have been made, and some files may tell other things. The
trees are near if that is all (`Near`). A path that keeps clear of these places, and goes upwards from
none of them, leads to the same in both trees (`Near.find?_of_free`); so whatever is done at such paths
ends in the same way and leaves near trees (`relates_makeDirectories`, `relates_change`,
`relates_removeTree`). The one thing that may come out differently is how many directories have to be
made on the way.
-/

set_option autoImplicit false

namespace RustScript

/-! ## Two runs -/

section

variable {ω α β γ δ : Type}

/-- Started in related states, the two actions give related results and leave related states. -/
def Relates (rel : ω → ω → Prop) (gives : α → β → Prop) (action : StateM ω α)
    (other : StateM ω β) : Prop :=
  ∀ state state', rel state state' →
    gives (action state).1 (other state').1 ∧ rel (action state).2 (other state').2

variable {rel : ω → ω → Prop} {gives : α → β → Prop} {next : α → StateM ω γ}
  {next' : β → StateM ω δ} {action : StateM ω α} {other : StateM ω β}

theorem relates_pure {value : α} {value' : β} (h : gives value value') :
    Relates rel gives (pure value) (pure value') := fun _ _ hrel => ⟨h, hrel⟩

theorem Relates.bind {gives' : γ → δ → Prop} (haction : Relates rel gives action other)
    (hnext : ∀ value value', gives value value' → Relates rel gives' (next value) (next' value')) :
    Relates rel gives' (action >>= next) (other >>= next') := by
  intro state state' hrel
  obtain ⟨hresult, hafter⟩ := haction state state' hrel
  exact hnext _ _ hresult _ _ hafter

theorem Relates.mono {gives' : α → β → Prop} (h : Relates rel gives action other)
    (hmono : ∀ value value', gives value value' → gives' value value') :
    Relates rel gives' action other := fun state state' hrel =>
  ⟨hmono _ _ (h state state' hrel).1, (h state state' hrel).2⟩

end

/-! ## Where trees differ -/

/-- Where two trees of files may differ. -/
structure Differences where
  /-- Anything may be different here. -/
  inside : Place → Prop
  /-- Here the second tree may have a directory where the first one has nothing. -/
  way : Place → Prop
  /-- Here the trees may have files of two such contents. -/
  told : Place → List UInt8 → List UInt8 → Prop

namespace Differences

variable (differences : Differences) (here : Place)

/-- The trees have the same at the place; the directories around the working directory `here` stand in
both. -/
structure Fixed (place : Place) : Prop where
  outside : ¬ differences.inside place
  standing : differences.way place → place <+: here
  untold : ∀ content content', ¬ differences.told place content content'

/-- The names lead from `start` past the places where anything may be different, and upwards only from
where the trees are the same. -/
structure Passes (start : Place) (names : List String) : Prop where
  outside : ∀ front, front <+: names → ¬ differences.inside (front.foldl Path.follow start)
  upward : ∀ front, front ++ [".."] <+: names →
    differences.Fixed here (front.foldl Path.follow start)

/-- The path leads past the places where anything may be different. -/
def Clear (path : Path) : Prop :=
  differences.Passes here (if path.slashes = 0 then here else []) path.names

/-- The path leads past these places to one where the trees are the same. -/
structure Free (path : Path) : Prop where
  clear : differences.Clear here path
  fixed : differences.Fixed here (path.lands here)

variable {differences here}

theorem Passes.tail {start : Place} {name : String} {rest : List String}
    (h : differences.Passes here start (name :: rest)) :
    differences.Passes here (Path.follow start name) rest where
  outside front hfront := h.outside (name :: front) (List.cons_prefix_cons.mpr ⟨rfl, hfront⟩)
  upward front hfront := h.upward (name :: front) (List.cons_prefix_cons.mpr ⟨rfl, hfront⟩)

theorem Passes.start {start : Place} {names : List String}
    (h : differences.Passes here start names) : ¬ differences.inside start :=
  h.outside [] List.nil_prefix

theorem Clear.outside {path : Path} (h : differences.Clear here path) :
    ¬ differences.inside (path.lands here) := Passes.outside h path.names (List.prefix_refl _)

theorem Clear.cut {path : Path} (h : differences.Clear here path) {names : List String}
    (hnames : names <+: path.names) : differences.Clear here (path.cut names) where
  outside front hfront := Passes.outside h front (hfront.trans hnames)
  upward front hfront := Passes.upward h front (hfront.trans hnames)

/-- A path that goes nowhere upwards is clear if it goes through no place that may be different. -/
theorem clear_of_outside {path : Path} (hup : ".." ∉ path.names)
    (h : ∀ place, place <+: path.lands here → ¬ differences.inside place) :
    differences.Clear here path where
  outside front hfront := by
    obtain ⟨rest, hrest⟩ := hfront
    refine h _ ?_
    unfold Path.lands
    rw [← hrest, List.foldl_append]
    rw [← hrest] at hup
    exact Path.prefix_foldl_follow _ fun hmem => hup (List.mem_append_right _ hmem)
  upward front hfront :=
    absurd (hfront.subset (List.mem_append_right _ (List.mem_singleton_self _))) hup

/-- A path stays clear in a directory. -/
theorem Clear.inner {base : Path} {name : String} (h : differences.Clear here base)
    (hup : name ≠ "..") (hhere : name ≠ ".")
    (hplace : ¬ differences.inside (base.lands here ++ [name])) :
    differences.Clear here (base.inner name) where
  outside front hfront := by
    rcases List.prefix_concat_iff.mp hfront with rfl | hfront
    · rw [List.foldl_append]
      show ¬ differences.inside (Path.follow _ name)
      unfold Path.follow
      rwa [if_neg hup, if_neg hhere]
    · exact Passes.outside h front hfront
  upward front hfront := by
    rcases List.prefix_concat_iff.mp hfront with heq | hfront
    · exact absurd (List.append_inj' heq rfl).2 fun hsame => hup (List.cons.inj hsame).1.symm
    · exact Passes.upward h front hfront

/-- What may stand at one place of the two trees. -/
inductive Meet (differences : Differences) (place : Place) : Option Node → Option Node → Prop
  | same (node : Option Node) : Meet differences place node node
  | made (way : differences.way place) : Meet differences place none (some .directory)
  | told {content content' : List UInt8} (told : differences.told place content content') :
      Meet differences place (some (.file content)) (some (.file content'))

end Differences

namespace FileSystem

/-- The trees are seen from the working directory `here`, and are the same but for the differences. -/
structure Near (differences : Differences) (here : Place) (first second : FileSystem) : Prop where
  firstHere : first.here = here
  secondHere : second.here = here
  rooted : first.Rooted
  nodes : ∀ place, ¬ differences.inside place →
    differences.Meet place (first.node? place) (second.node? place)

variable {differences : Differences} {here : Place} {files first second : FileSystem}

theorem Near.refl (hhere : files.here = here) (hrooted : files.Rooted) :
    Near differences here files files := ⟨hhere, hhere, hrooted, fun _ _ => .same _⟩

/-- Someone else goes on working beside the second tree. -/
theorem Near.confined {third : FileSystem} (h : Near differences here first second)
    (hconfined : Confined differences.inside differences.way second third) :
    Near differences here first third := by
  refine ⟨h.firstHere, hconfined.here.trans h.secondHere, h.rooted, fun place hplace => ?_⟩
  have hmeet := h.nodes place hplace
  rcases hconfined.nodes place hplace with hsame | ⟨hway, hnone, hmade⟩
  · rwa [hsame]
  · rw [hmade]
    rw [hnone] at hmeet
    generalize first.node? place = node at hmeet ⊢
    cases hmeet
    exact .made hway

/-- The same is done in both trees where they are the same. -/
theorem Near.alike {first' second' : FileSystem} {touched : Place → Prop}
    (h : Near differences here first second) (hrooted : first'.Rooted)
    (hfirst : Confined touched (fun _ => False) first first')
    (hsecond : Confined touched (fun _ => False) second second')
    (hsame : ∀ place, touched place → second'.node? place = first'.node? place) :
    Near differences here first' second' := by
  refine ⟨hfirst.here.trans h.firstHere, hsecond.here.trans h.secondHere, hrooted,
    fun place hplace => ?_⟩
  by_cases htouched : touched place
  · rw [hsame place htouched]
    exact .same _
  · have hkept := (hfirst.nodes place htouched).resolve_right fun hmade => hmade.1
    have hkept' := (hsecond.nodes place htouched).resolve_right fun hmade => hmade.1
    rw [hkept, hkept']
    exact h.nodes place hplace

section

variable (h : Near differences here first second)

include h

/-- The directories around the working directory stand. -/
theorem Near.standing {place : Place} (hplace : place <+: here) :
    first.node? place = some .directory := by
  rw [← h.firstHere] at hplace
  exact h.rooted.directory_of_here hplace

/-- Where the trees may not differ, they have the same. -/
theorem Near.node?_of_fixed {place : Place} (hplace : differences.Fixed here place) :
    second.node? place = first.node? place := by
  have hmeet := h.nodes place hplace.outside
  rcases hnode : first.node? place with _ | node
  · -- the directories around the working directory stand in the first tree
    rw [hnode] at hmeet
    generalize hother : second.node? place = other at hmeet
    cases hmeet with
    | same => rfl
    | made way =>
        have hstands := h.standing (hplace.standing way)
        rw [hnode] at hstands
        cases hstands
  · rw [hnode] at hmeet
    generalize hother : second.node? place = other at hmeet
    cases hmeet with
    | same => rfl
    | told htold => exact absurd htold (hplace.untold _ _)

/-! ## Paths in near trees -/

/-- From where the first tree has nothing a walk leads nowhere in it; in the second tree it may lead
on, to where the first has nothing. -/
theorem Near.walk_lost {start : Place} {names : List String} (hstart : first.node? start = none)
    (hpasses : differences.Passes here start names) :
    second.walk start names = .error .noEntry ∨
      (second.walk start names = .ok (names.foldl Path.follow start) ∧
        first.node? (names.foldl Path.follow start) = none) := by
  induction names generalizing start with
  | nil => exact .inr ⟨rfl, hstart⟩
  | cons name rest ih =>
      have hmeet := h.nodes start hpasses.start
      rw [hstart] at hmeet
      rw [walk_cons]
      generalize hother : second.node? start = other at hmeet
      cases hmeet with
      | same => exact .inl rfl
      | made way =>
          refine ih ?_ hpasses.tail
          unfold Path.follow
          split
          · next hup =>
              -- the trees are the same where a path goes upwards
              have hfixed := hpasses.upward []
                (List.cons_prefix_cons.mpr ⟨hup.symm, List.nil_prefix⟩)
              have hsame := h.node?_of_fixed hfixed
              rw [show ([] : List String).foldl Path.follow start = start from rfl, hstart,
                hother] at hsame
              cases hsame
          · split
            · exact hstart
            · refine Decidable.not_not.mp fun hstands => ?_
              rw [h.rooted.above start name hstands] at hstart
              cases hstart

theorem Near.walk {start : Place} {names : List String}
    (hpasses : differences.Passes here start names) :
    second.walk start names = first.walk start names ∨
      (first.walk start names = .error .noEntry ∧
        second.walk start names = .ok (names.foldl Path.follow start) ∧
        first.node? (names.foldl Path.follow start) = none) := by
  induction names generalizing start with
  | nil => exact .inl rfl
  | cons name rest ih =>
      have hmeet := h.nodes start hpasses.start
      cases hnode : first.node? start with
      | none =>
          have hlost := h.walk_lost hnode hpasses
          rw [walk_cons first, hnode]
          exact hlost.imp_right fun hon => ⟨rfl, hon⟩
      | some node =>
          rw [walk_cons, walk_cons, hnode]
          rw [hnode] at hmeet
          generalize second.node? start = other at hmeet
          cases hmeet with
          | same =>
              cases node with
              | directory => exact ih hpasses.tail
              | file content => exact .inl rfl
          | told => exact .inl rfl

/-- **A clear path** leads to the same place in both trees, or the second tree has directories where
the first one has nothing. -/
theorem Near.place {path : Path} (hclear : differences.Clear here path) :
    second.place path = first.place path ∨
      (first.place path = .error (.noEntry path.toString) ∧
        second.place path = .ok (path.lands here) ∧ first.node? (path.lands here) = none) := by
  unfold FileSystem.place
  rw [h.firstHere, h.secondHere]
  rcases h.walk hclear with hsame | ⟨hlost, hon, hnone⟩
  · exact .inl (by rw [hsame])
  · rw [hlost, hon]
    exact .inr ⟨rfl, rfl, hnone⟩

/-- **A free path** leads to the same in both trees. -/
theorem Near.find?_of_free {path : Path} (hfree : differences.Free here path) :
    second.find? path = first.find? path := by
  unfold find?
  rcases h.place hfree.clear with hsame | ⟨hlost, hon, hnone⟩
  · rw [hsame]
    cases hplace : first.place path with
    | error error => rfl
    | ok place =>
        rw [place_eq_ok hplace, h.firstHere]
        exact h.node?_of_fixed hfree.fixed
  · rw [hlost, hon]
    exact (h.node?_of_fixed hfree.fixed).trans hnone

/-! ## Changes of near trees -/

/-- Both trees get something at a place, in a directory and in the place of a file or of nothing. -/
theorem Near.put {place : Place} (hfree : first.node? place ≠ some .directory)
    (haround : first.InDirectory place) {node node' : Node}
    (hnode : differences.Meet place (some node) (some node')) :
    Near differences here (first.put place node) (second.put place node') := by
  refine ⟨h.firstHere, h.secondHere, h.rooted.put hfree haround node, fun other hother => ?_⟩
  rw [node?_put, node?_put]
  by_cases hplace : other ≠ [] ∧ place = other
  · rw [if_pos hplace, if_pos hplace, ← hplace.2]
    exact hnode
  · rw [if_neg hplace, if_neg hplace]
    exact h.nodes other hother

/-- The first tree gets a directory that stands in the second one already. -/
theorem Near.made {place : Place} (hnone : first.node? place = none)
    (haround : first.InDirectory place) (hmade : second.node? place = some .directory) :
    Near differences here (first.put place .directory) second := by
  have hfree : first.node? place ≠ some .directory := by
    rw [hnone]
    exact nofun
  refine ⟨h.firstHere, h.secondHere, h.rooted.put hfree haround .directory, fun other hother => ?_⟩
  rw [node?_put]
  by_cases hplace : other ≠ [] ∧ place = other
  · rw [if_pos hplace, ← hplace.2, hmade]
    exact .same _
  · rw [if_neg hplace]
    exact h.nodes other hother

/-- The same is removed from both trees. -/
theorem Near.dropWhere {gone : Place → Bool} (hrooted : (first.dropWhere gone).Rooted) :
    Near differences here (first.dropWhere gone) (second.dropWhere gone) := by
  refine ⟨h.firstHere, h.secondHere, hrooted, fun place hplace => ?_⟩
  rw [node?_dropWhere, node?_dropWhere]
  split
  · exact .same _
  · exact h.nodes place hplace

end

end FileSystem

/-! ## Operations on near trees -/

namespace FileAction

open FileSystem

variable {differences : Differences} {here : Place} {first second : FileSystem} {α β : Type}

theorem relates_bind {rel : FileSystem → FileSystem → Prop} {action other : FileAction α}
    {next next' : α → FileAction β} (haction : Relates rel Eq action.run other.run)
    (hnext : ∀ value, Relates rel Eq (next value).run (next' value).run) :
    Relates rel Eq (action >>= next).run (other >>= next').run := by
  intro first second h
  obtain ⟨hresult, hfiles⟩ := haction first second h
  rw [run_bind, run_bind]
  revert hresult hfiles
  rcases action.run first with ⟨result, after⟩
  rcases other.run second with ⟨result', after'⟩
  rintro (rfl : result = result') hfiles
  cases result with
  | error error => exact ⟨rfl, hfiles⟩
  | ok value => exact hnext value after after' hfiles

theorem relates_forM {rel : FileSystem → FileSystem → Prop} {items : List β}
    {action other : β → FileAction Unit}
    (h : ∀ item ∈ items, Relates rel Eq (action item).run (other item).run) :
    Relates rel Eq (items.forM action).run (items.forM other).run := by
  induction items with
  | nil => exact fun _ _ hrel => ⟨rfl, hrel⟩
  | cons item rest ih =>
      exact relates_bind (h item List.mem_cons_self) fun _ =>
        ih fun later hlater => h later (List.mem_cons_of_mem _ hlater)

section

variable (h : Near differences here first second)

include h

/-- What is read at a free path is the same. -/
theorem run_read_of_free {path : Path} (hfree : differences.Free here path) :
    ((read path).run first).1 = ((read path).run second).1 := by
  rw [run_read, run_read]
  dsimp only
  rcases h.place hfree.clear with hsame | ⟨hlost, hon, hnone⟩
  · rw [hsame]
    cases hplace : first.place path with
    | error error => rfl
    | ok place =>
        dsimp only
        rw [place_eq_ok hplace, h.firstHere, h.node?_of_fixed hfree.fixed]
  · rw [hlost, hon]
    dsimp only
    rw [h.node?_of_fixed hfree.fixed, hnone]

theorem near_ensureDirectory {path : Path} {place : Place} (hplace : ¬ differences.inside place)
    (hfirst : first.place path = .ok place) (hsecond : second.place path = .ok place) :
    ((ensureDirectory path).run first).1 = ((ensureDirectory path).run second).1 ∧
      Near differences here ((ensureDirectory path).run first).2
        ((ensureDirectory path).run second).2 := by
  have haround := h.rooted.around_place hfirst
  have hdirectory := isDirectory_eq (find?_of_place hfirst)
  have hdirectory' := isDirectory_eq (find?_of_place hsecond)
  have hmeet := h.nodes place hplace
  rw [run_ensureDirectory, run_ensureDirectory, run_makeDirectory, run_makeDirectory, hfirst,
    hsecond]
  dsimp only
  cases hnode : first.node? place with
  | none =>
      have hfree : first.node? place ≠ some .directory := by
        rw [hnode]
        exact nofun
      rw [hnode] at hmeet
      cases hnode' : second.node? place with
      | none => exact ⟨rfl, h.put hfree haround (.same _)⟩
      | some node =>
          rw [hnode'] at hmeet
          cases hmeet with
          | made way =>
              rw [hnode'] at hdirectory'
              dsimp only
              rw [hdirectory', if_pos (by rfl)]
              exact ⟨rfl, h.made hnode haround hnode'⟩
  | some node =>
      cases hnode' : second.node? place with
      | none =>
          rw [hnode, hnode'] at hmeet
          cases hmeet
      | some node' =>
          have hsame : (some node' == some .directory) = (some node == some .directory) := by
            rw [hnode, hnode'] at hmeet
            cases hmeet <;> rfl
          dsimp only
          rw [hdirectory, hdirectory', hnode, hnode', hsame]
          split <;> exact ⟨rfl, h⟩

end

/-- A directory whose place is known can be made without those around it. -/
theorem makeDirectoriesTo_of_place {files : FileSystem} {path : Path} {place : Place}
    (h : files.place path = .ok place) (depth : Nat) :
    (makeDirectoriesTo depth path).run files = (ensureDirectory path).run files := by
  cases depth with
  | zero => rfl
  | succ depth =>
      rw [run_makeDirectoriesTo_succ, run_ensureDirectory, run_makeDirectory, h]
      dsimp only
      cases files.node? place with
      | none => rfl
      | some node =>
          dsimp only
          rw [if_neg (alreadyExists_ne_noEntry _)]

/-- A directory whose place is not known is made in the one around it. -/
theorem makeDirectoriesTo_of_lost {files : FileSystem} {path parent : Path}
    (h : files.place path = .error (.noEntry path.toString)) (hparent : path.parent? = some parent)
    (depth : Nat) :
    (makeDirectoriesTo (depth + 1) path).run files =
      (makeDirectoriesTo depth parent >>= fun _ => ensureDirectory path).run files := by
  rw [run_makeDirectoriesTo_succ, run_makeDirectory, h, run_bind]
  dsimp only
  rw [if_pos rfl, hparent]
  dsimp only
  rcases (makeDirectoriesTo depth parent).run files with ⟨_ | _, _⟩ <;> rfl

/-- The directory around the place of a path stands. -/
theorem find?_parent_of_place {files : FileSystem} {path parent : Path} {place : Place}
    (hparent : path.parent? = some parent) (h : files.place path = .ok place) :
    files.find? parent = some .directory := by
  unfold Path.parent? at hparent
  split at hparent
  · cases hparent
  · next hnames =>
      obtain rfl := Option.some.inj hparent
      unfold FileSystem.place at h
      rw [← List.dropLast_concat_getLast hnames, walk_append] at h
      cases hwalk : files.walk (if path.slashes = 0 then files.here else []) path.names.dropLast with
      | error error =>
          rw [hwalk] at h
          cases h
      | ok found =>
          rw [hwalk] at h
          have houter : files.place ⟨path.slashes, path.names.dropLast⟩ = .ok found := by
            unfold FileSystem.place
            rw [hwalk]
            rfl
          rw [find?_of_place houter]
          change (files.walk found [path.names.getLast hnames]).mapError _ = _ at h
          rw [walk_cons] at h
          rcases hnode : files.node? found with _ | (_ | content)
          · rw [hnode] at h
            cases h
          · rfl
          · rw [hnode] at h
            cases h

theorem parent_of_lost {files : FileSystem} {path : Path} {error : SystemError}
    (h : files.place path = .error error) : path.parent? = some (path.cut path.names.dropLast) := by
  unfold Path.parent?
  rw [if_neg]
  · rfl
  · intro hnames
    unfold FileSystem.place at h
    rw [hnames] at h
    cases h

/-- **Making directories** ends in the same way, and afterwards the same directories stand. -/
theorem near_makeDirectoriesTo {depth : Nat} {path : Path} (hdepth : path.names.length ≤ depth)
    (hclear : differences.Clear here path) (h : Near differences here first second) :
    ((makeDirectoriesTo depth path).run first).1 = ((makeDirectoriesTo depth path).run second).1 ∧
      Near differences here ((makeDirectoriesTo depth path).run first).2
        ((makeDirectoriesTo depth path).run second).2 := by
  induction depth generalizing path first second with
  | zero =>
      have hnames : path.names = [] := List.eq_nil_of_length_eq_zero (Nat.le_zero.mp hdepth)
      have hplace : ∀ files : FileSystem, files.here = here →
          files.place path = .ok (path.lands here) := by
        intro files hhere
        unfold FileSystem.place Path.lands
        rw [hnames, hhere]
        rfl
      exact near_ensureDirectory h hclear.outside (hplace _ h.firstHere) (hplace _ h.secondHere)
  | succ depth ih =>
      have hshort : (path.cut path.names.dropLast).names.length ≤ depth := by
        show path.names.dropLast.length ≤ depth
        rw [List.length_dropLast]
        omega
      -- once the directory around it stands in both trees, the last one is made in both
      have hlast : ∀ {made made' : FileSystem},
          path.parent? = some (path.cut path.names.dropLast) →
          made.find? (path.cut path.names.dropLast) = some .directory →
          Near differences here made made' →
          ((ensureDirectory path).run made).1 = ((ensureDirectory path).run made').1 ∧
            Near differences here ((ensureDirectory path).run made).2
              ((ensureDirectory path).run made').2 := by
        intro made made' hparent hstands hmade
        obtain ⟨place, hplace⟩ := place_of_parent hparent hstands
        have hlands : place = path.lands here := by rw [place_eq_ok hplace, hmade.firstHere]
        rcases hmade.place hclear with hsame | ⟨hlost, -, -⟩
        · exact near_ensureDirectory hmade (hlands ▸ hclear.outside) hplace (hsame.trans hplace)
        · rw [hplace] at hlost
          cases hlost
      have hcut : differences.Clear here (path.cut path.names.dropLast) :=
        hclear.cut (List.dropLast_prefix _)
      rcases h.place hclear with hsame | ⟨hlost, hon, -⟩
      · cases hplace : first.place path with
        | ok place =>
            rw [hplace] at hsame
            rw [makeDirectoriesTo_of_place hplace, makeDirectoriesTo_of_place hsame]
            have hlands : place = path.lands here := by rw [place_eq_ok hplace, h.firstHere]
            exact near_ensureDirectory h (hlands ▸ hclear.outside) hplace hsame
        | error error =>
            rw [hplace] at hsame
            by_cases hmissing : error = .noEntry path.toString
            · rw [hmissing] at hplace hsame
              have hparent := parent_of_lost hplace
              obtain ⟨hresult, hmade⟩ := ih hshort hcut h
              have hsettles := settles_makeDirectoriesTo hshort first
              rw [makeDirectoriesTo_of_lost hplace hparent, makeDirectoriesTo_of_lost hsame hparent,
                run_bind, run_bind]
              revert hresult hmade hsettles
              rcases (makeDirectoriesTo depth (path.cut path.names.dropLast)).run first with
                ⟨result, made⟩
              rcases (makeDirectoriesTo depth (path.cut path.names.dropLast)).run second with
                ⟨result', made'⟩
              rintro (rfl : result = result') hmade hsettles
              cases result with
              | error error => exact ⟨rfl, hmade⟩
              | ok ready =>
                  obtain ⟨-, hstands⟩ | ⟨⟨_, herror⟩, -⟩ := hsettles
                  · exact hlast hparent hstands hmade
                  · cases herror
            · have hrun : ∀ files : FileSystem, files.place path = .error error →
                  (makeDirectoriesTo (depth + 1) path).run files = (.error error, files) := by
                intro files hfiles
                have hmake : (makeDirectory path).run files = (.error error, files) := by
                  rw [run_makeDirectory, hfiles]
                have hnone : files.find? path = none := by
                  unfold FileSystem.find?
                  rw [hfiles]
                rw [makeDirectoriesTo_of_error hmake hmissing, isDirectory_eq hnone]
                rfl
              rw [hrun first hplace, hrun second hsame]
              exact ⟨rfl, h⟩
      · -- in the second tree the directory around it stands already
        have hparent := parent_of_lost hlost
        have hstands := find?_parent_of_place hparent hon
        have hready : (makeDirectoriesTo depth (path.cut path.names.dropLast)).run second =
            (.ok (), second) := by
          rw [makeDirectoriesTo_of_find? hstands, isDirectory_eq hstands]
          rfl
        obtain ⟨hresult, hmade⟩ := ih hshort hcut h
        have hsettles := settles_makeDirectoriesTo hshort first
        rw [makeDirectoriesTo_of_lost hlost hparent, makeDirectoriesTo_of_place hon, run_bind]
        rw [hready] at hresult hmade
        revert hresult hmade hsettles
        rcases (makeDirectoriesTo depth (path.cut path.names.dropLast)).run first with
          ⟨result, made⟩
        rintro (rfl : result = .ok ()) hmade hsettles
        obtain ⟨-, hmadeStands⟩ | ⟨⟨_, herror⟩, -⟩ := hsettles
        · exact hlast hparent hmadeStands hmade
        · cases herror

/-- **Making directories** does the same in near trees. -/
theorem relates_makeDirectories {path : Path} (hclear : differences.Clear here path) :
    Relates (Near differences here) Eq (makeDirectories path).run (makeDirectories path).run :=
  fun _ _ => near_makeDirectoriesTo (Nat.le_refl _) hclear

/-! ### Files in directories -/

/-- The trees are near, and the first one has the directory, so the second one has it too. -/
structure NearIn (differences : Differences) (here : Place) (base : Path)
    (first second : FileSystem) : Prop where
  near : Near differences here first second
  stands : first.find? base = some .directory

/-- What is done in a directory is done behind making it. -/
theorem relates_inDirectory {base : Path} (hclear : differences.Clear here base)
    {action other : FileAction α}
    (h : Relates (NearIn differences here base) Eq action.run other.run) :
    Relates (Near differences here) Eq (makeDirectories base >>= fun _ => action).run
      (makeDirectories base >>= fun _ => other).run := by
  intro first second hnear
  obtain ⟨hresult, hmade⟩ := relates_makeDirectories hclear first second hnear
  have hsettles := settles_makeDirectoriesTo (Nat.le_refl base.names.length) first
  change Settles base ((makeDirectories base).run first) at hsettles
  rw [run_bind, run_bind]
  revert hresult hmade hsettles
  rcases (makeDirectories base).run first with ⟨result, made⟩
  rcases (makeDirectories base).run second with ⟨result', made'⟩
  rintro (rfl : result = result') hmade hsettles
  cases result with
  | error error => exact ⟨rfl, hmade⟩
  | ok ready =>
      obtain ⟨-, hstands⟩ | ⟨⟨_, herror⟩, -⟩ := hsettles
      · obtain ⟨hend, hafter⟩ := h made made' ⟨hmade, hstands⟩
        exact ⟨hend, hafter.near⟩
      · cases herror

section

variable {base : Path} {name : String} (hup : name ≠ "..") (hhere : name ≠ ".")
  (hclear : differences.Clear here (base.inner name))

include hup hhere hclear

/-- A path in a directory that stands leads to the same place in both trees. -/
theorem NearIn.place (h : NearIn differences here base first second) :
    first.place (base.inner name) = .ok (base.lands here ++ [name]) ∧
      second.place (base.inner name) = .ok (base.lands here ++ [name]) := by
  have hfirst := (place_inner_eq_ok_iff hup hhere).mpr ⟨h.stands, rfl⟩
  rw [h.near.firstHere] at hfirst
  rcases h.near.place hclear with hsame | ⟨hlost, -, -⟩
  · exact ⟨hfirst, hsame.trans hfirst⟩
  · rw [hfirst] at hlost
    cases hlost

/-- **A file in a directory** is given new contents, which are the same unless the trees may have files
of two such contents there. -/
theorem relates_change (hstanding : differences.way (base.lands here ++ [name]) →
      base.lands here ++ [name] <+: here)
    {f f' : List UInt8 → List UInt8}
    (hcontent : ∀ content content',
      content = content' ∨ differences.told (base.lands here ++ [name]) content content' →
      f content = f' content' ∨
        differences.told (base.lands here ++ [name]) (f content) (f' content')) :
    Relates (NearIn differences here base) Eq (change (base.inner name) f).run
      (change (base.inner name) f').run := by
  intro first second h
  obtain ⟨hfirst, hsecond⟩ := h.place hup hhere hclear
  have hmeet := h.near.nodes _ (Differences.Clear.outside hclear)
  rw [show (base.inner name).lands here = base.lands here ++ [name] from
    Path.lands_child hup hhere] at hmeet
  have hgrows := keeps_growing_change (base.inner name) f first
  have hput : ∀ {content content' : List UInt8}, first.node? (base.lands here ++ [name]) ≠
      some .directory →
      content = content' ∨ differences.told (base.lands here ++ [name]) content content' →
      Near differences here
        (first.put (base.lands here ++ [name]) (.file (f content)))
        (second.put (base.lands here ++ [name]) (.file (f' content'))) := by
    intro content content' hfree hsame
    refine h.near.put hfree (h.near.rooted.around_place hfirst) ?_
    rcases hcontent content content' hsame with heq | htold
    · rw [heq]
      exact .same _
    · exact .told htold
  suffices hend : ((change (base.inner name) f).run first).1 =
        ((change (base.inner name) f').run second).1 ∧
      Near differences here ((change (base.inner name) f).run first).2
        ((change (base.inner name) f').run second).2 from
    ⟨hend.1, hend.2, hgrows.find?_directory h.stands⟩
  rw [run_change, run_change, hfirst, hsecond]
  dsimp only
  cases hnode : first.node? (base.lands here ++ [name]) with
  | none =>
      rw [hnode] at hmeet hput
      generalize hnode' : second.node? (base.lands here ++ [name]) = node' at hmeet
      cases hmeet with
      | same => exact ⟨rfl, hput nofun (.inl rfl)⟩
      | made way =>
          -- a directory around the working directory stands in both trees
          have hstands := h.near.standing (hstanding way)
          rw [hnode] at hstands
          cases hstands
  | some node =>
      rw [hnode] at hmeet hput
      generalize second.node? (base.lands here ++ [name]) = node' at hmeet
      cases hmeet with
      | same =>
          cases node with
          | directory => exact ⟨rfl, h.near⟩
          | file content => exact ⟨rfl, hput nofun (.inl rfl)⟩
      | told htold => exact ⟨rfl, hput nofun (.inr htold)⟩

theorem relates_write (hfixed : differences.Fixed here (base.lands here ++ [name]))
    (content : List UInt8) :
    Relates (NearIn differences here base) Eq (write (base.inner name) content).run
      (write (base.inner name) content).run :=
  relates_change hup hhere hclear hfixed.standing fun _ _ _ => .inl rfl

end

/-! ### Removing trees -/

theorem run_removeEmptyDirectory {path : Path} (hnames : path.names ≠ [])
    (hup : path.names.getLast? ≠ some "..") (files : FileSystem) :
    (removeEmptyDirectory path).run files = match files.place path with
      | .error error => (.error error, files)
      | .ok place =>
          if files.node? place = none then (.error (.noEntry path.toString), files)
          else (.ok (), files.dropWhere (· == place)) := by
  rw [removeEmptyDirectory, run_bind, run_place]
  cases files.place path with
  | error error => rfl
  | ok place =>
      dsimp only
      rw [run_bind, run_get]
      dsimp only
      rw [if_neg hup, if_neg hnames]
      split <;> rfl

theorem run_removeTree (path : Path) (files : FileSystem) :
    (removeTree path).run files = match files.place path with
      | .error error => (.error error, files)
      | .ok place => match files.node? place with
        | none => (.error (.noEntry path.toString), files)
        | some (.file _) => (.error (.notDirectory path.toString), files)
        | some .directory =>
            (removeEmptyDirectory path).run (files.dropWhere (isInside place)) := by
  rw [removeTree, run_bind, run_place]
  cases files.place path with
  | error error => rfl
  | ok place =>
      dsimp only
      rw [run_bind, run_get]
      dsimp only
      rcases files.node? place with _ | (_ | _)
      · rfl
      · dsimp only
        rw [run_bind]
        rfl
      · rfl

section

variable {path : Path} (hfree : differences.Free here path) (hnames : path.names ≠ [])
  (hup : path.names.getLast? ≠ some "..") (hhere : ¬ path.lands here <+: here)

include hfree hnames hup hhere

theorem near_removeEmptyDirectory (h : Near differences here first second)
    (hempty : ∀ name, first.node? (path.lands here ++ [name]) = none) :
    ((removeEmptyDirectory path).run first).1 = ((removeEmptyDirectory path).run second).1 ∧
      Near differences here ((removeEmptyDirectory path).run first).2
        ((removeEmptyDirectory path).run second).2 := by
  rw [run_removeEmptyDirectory hnames hup, run_removeEmptyDirectory hnames hup]
  rcases h.place hfree.clear with hsame | ⟨hlost, hon, hgone⟩
  · rw [hsame]
    cases hplace : first.place path with
    | error error => exact ⟨rfl, h⟩
    | ok place =>
        have hlands : place = path.lands here := by rw [place_eq_ok hplace, h.firstHere]
        have hrooted := h.rooted.removed (by rwa [h.firstHere]) hempty
        dsimp only
        rw [hlands, h.node?_of_fixed hfree.fixed]
        split
        · exact ⟨rfl, h⟩
        · exact ⟨rfl, h.dropWhere hrooted⟩
  · rw [hlost, hon]
    dsimp only
    rw [h.node?_of_fixed hfree.fixed, hgone, if_pos rfl]
    exact ⟨rfl, h⟩

/-- **Removing a tree** does the same in near trees, away from the working directory. -/
theorem relates_removeTree :
    Relates (Near differences here) Eq (removeTree path).run (removeTree path).run := by
  intro first second h
  rw [run_removeTree, run_removeTree]
  rcases h.place hfree.clear with hsame | ⟨hlost, hon, hgone⟩
  · rw [hsame]
    cases hplace : first.place path with
    | error error => exact ⟨rfl, h⟩
    | ok place =>
        have hlands : place = path.lands here := by rw [place_eq_ok hplace, h.firstHere]
        dsimp only
        rw [hlands, h.node?_of_fixed hfree.fixed]
        rcases first.node? (path.lands here) with _ | (_ | _)
        · exact ⟨rfl, h⟩
        · have hrooted := h.rooted.emptied (by rwa [h.firstHere])
          refine near_removeEmptyDirectory hfree hnames hup hhere (h.dropWhere hrooted)
            fun name => ?_
          have hinside : isInside (path.lands here) (path.lands here ++ [name]) = true := by
            unfold isInside
            rw [Bool.and_eq_true, List.isPrefixOf_iff_prefix, bne_iff_ne]
            exact ⟨List.prefix_append _ _, fun heq =>
              List.cons_ne_nil name [] (List.append_right_eq_self.mp heq)⟩
          rw [node?_dropWhere, if_pos ⟨List.append_ne_nil_of_right_ne_nil _
            (List.cons_ne_nil _ _), hinside⟩]
        · exact ⟨rfl, h⟩
  · rw [hlost, hon]
    dsimp only
    rw [h.node?_of_fixed hfree.fixed, hgone]
    exact ⟨rfl, h⟩

end

end FileAction

end RustScript
