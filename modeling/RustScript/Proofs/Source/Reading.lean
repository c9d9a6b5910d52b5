import Mathlib.Data.List.Basic
import RustScript.Proofs.Source.Spells
import RustScript.Proofs.Source.UseTree

/-!
# Use trees read back from their texts

Reading a text that writes a use tree gives the names of the tree, in source order:
`readUseTree_renders`. What counts as a name is said by `textNames`, and from the grammar alone by
`outermost` and `lastName` (`useNames_renders`).
-/

set_option autoImplicit false

namespace RustScript.Source

open RustScript.Rust RustScript.Text

/-! ## The names of a use tree as its text tells them -/

/-- The name that a path binds as a leaf. Leading colons make no difference, and neither does the
kind of a word that may begin a path, `self` apart. -/
def textLeaf (nested : Bool) (path : UsePath) : List String :=
  match path.rest.getLast?, path.first with
  | some last, _ => if last = "self" then [] else [last]
  | none, .name text => if nested && text ≠ "self" then [text] else []
  | none, .keyword text => if nested && text ∈ pathWords && text ≠ "self" then [text] else []
  | none, _ => []

/-- The roots, unless the tree stands below a path, and the bindings. -/
def textNames (nested : Bool) (tree : UseTree) : UseNames :=
  ⟨if nested then [] else treeRoots tree, bindingsBy textLeaf nested tree⟩

/-- A group has the names of its members. -/
theorem concat_textNames (nested : Bool) (members : List Member) :
    UseNames.concat (members.map fun m => textNames nested m.tree) =
      textNames nested (.group none (members.map Member.tree)) := by
  unfold UseNames.concat textNames
  rw [treeRoots, treeRootsOf_eq_flatMap, bindingsBy, bindingsOfBy_eq_flatMap, Option.isSome_none,
    Bool.or_false, List.flatMap_map, List.flatMap_map, List.flatMap_map, List.flatMap_map]
  cases nested with
  | false => rfl
  | true => simp

theorem mem_textLeaf_iff {name : String} (hname : name ∉ pathWords) (nested : Bool)
    (path : UsePath) : name ∈ textLeaf nested path ↔ path.Binds .textual name nested := by
  constructor
  · intro h
    unfold textLeaf at h
    split at h
    · next last _ hlast =>
        split at h
        · cases h
        · next hself =>
            rw [List.mem_singleton.mp h]
            exact .last hlast hself
    · next text hrest hfirst =>
        split at h
        · next hcond =>
            rw [List.mem_singleton.mp h]
            simp only [Bool.and_eq_true, decide_eq_true_eq] at hcond
            exact .nested (List.getLast?_eq_none_iff.mp hrest) hfirst hcond.2 hcond.1
        · cases h
    · next text hrest hfirst =>
        split at h
        · next hcond =>
            simp only [Bool.and_eq_true, decide_eq_true_eq] at hcond
            rw [List.mem_singleton.mp h] at hname
            exact absurd hcond.1.2 hname
        · cases h
    · cases h
  · intro h
    unfold textLeaf
    cases h with
    | last hlast hself => simp [hlast, hself]
    | nested hrest hfirst hself hnested => simp [hrest, hfirst, hself, hnested]
    | absolute _ _ _ _ hstrategy => cases hstrategy

/-- The text of a use tree tells exactly the names that the tree binds, apart from the words that
may begin a path. -/
theorem mem_textNames_iff {name : String} (hname : name ∉ pathWords) (nested : Bool)
    (tree : UseTree) :
    name ∈ (textNames nested tree).bindings ↔ tree.Binds .textual name nested :=
  mem_bindingsBy_iff (mem_textLeaf_iff hname) nested tree

/-! ## Reading a path -/

/-- Behind a path there is no further character of its last word and no further segment. -/
structure PathEnd (tail : List Char) : Prop where
  breaks : Breaks tail
  stops : ∀ fuel, pathSegments fuel tail = ([], tail)

theorem PathEnd.nil : PathEnd [] := by
  refine ⟨trivial, fun fuel => ?_⟩
  cases fuel with
  | zero => rfl
  | succ fuel => rfl

theorem PathEnd.alias {before : List Char} (rest : List Char) (h : Gap before) :
    PathEnd (before ++ ("as".toList ++ rest)) := by
  refine ⟨Breaks.gap_append h _, fun fuel => ?_⟩
  cases fuel with
  | zero => rfl
  | succ fuel =>
      have hstrip : stripLeft (before ++ ("as".toList ++ rest)) = 'a' :: 's' :: rest := by
        rw [stripLeft_append_of_allBlank _ h.blank]
        exact stripLeft_cons_of_not_blank _ (by decide)
      unfold pathSegments
      rw [hstrip]
      rfl

theorem PathEnd.colons {before after : List Char} {c : Char} (rest : List Char)
    (hbefore : allBlank before) (hafter : allBlank after) (hblank : isBlank c = false)
    (hword : isAsciiWord c = false) :
    PathEnd (before ++ ':' :: ':' :: (after ++ c :: rest)) := by
  refine ⟨Breaks.blank_append hbefore (show isAsciiWord ':' = false by decide), fun fuel => ?_⟩
  cases fuel with
  | zero => rfl
  | succ fuel =>
      have hcolons : stripLeft (before ++ ':' :: ':' :: (after ++ c :: rest)) =
          ':' :: ':' :: (after ++ c :: rest) := by
        rw [stripLeft_append_of_allBlank _ hbefore, stripLeft_cons_of_not_blank _ (by decide)]
      have hnone : identifier (stripLeft (after ++ c :: rest)) = none := by
        rw [stripLeft_append_of_allBlank _ hafter, stripLeft_cons_of_not_blank _ hblank,
          identifier_of_not_word rest hword]
      unfold pathSegments
      rw [hcolons, afterPrefix, if_pos rfl, afterPrefix, if_pos rfl, afterPrefix]
      simp only [hnone]

theorem RendersRest.breaks {names : List String} {text tail : List Char}
    (h : RendersRest names text) (htail : Breaks tail) : Breaks (text ++ tail) := by
  cases h with
  | nil => exact htail
  | cons hbefore _ _ _ =>
      rw [List.append_assoc]
      exact Breaks.blank_append hbefore (show isAsciiWord ':' = false by decide)

theorem RendersRest.length_le {names : List String} {text : List Char}
    (h : RendersRest names text) : names.length ≤ text.length := by
  induction h with
  | nil => exact Nat.le_refl 0
  | cons _ _ _ _ ih =>
      simp only [List.length_append, List.length_cons]
      omega

/-- All segments of a path are read. -/
theorem pathSegments_append {names : List String} {text tail : List Char}
    (h : RendersRest names text) (htail : PathEnd tail) {fuel : Nat}
    (hfuel : names.length ≤ fuel) :
    pathSegments fuel (text ++ tail) = (names, tail) := by
  induction h generalizing fuel with
  | nil => exact htail.stops fuel
  | @cons name names before after text hbefore hafter hname hrest ih =>
      cases fuel with
      | zero => cases hfuel
      | succ fuel =>
          have hstrip :
              stripLeft ((before ++ ':' :: ':' :: (after ++ (name.toList ++ text))) ++ tail) =
                ':' :: ':' :: (after ++ (name.toList ++ (text ++ tail))) := by
            simp only [List.append_assoc, List.cons_append]
            rw [stripLeft_append_of_allBlank _ hbefore, stripLeft_cons_of_not_blank _ (by decide)]
          have hword : stripLeft (after ++ (name.toList ++ (text ++ tail))) =
              name.toList ++ (text ++ tail) := by
            rw [stripLeft_append_of_allBlank _ hafter,
              (isWord_of_isIdentifier hname).trimmed.stripLeft_append]
          unfold pathSegments
          rw [hstrip, afterPrefix, if_pos rfl, afterPrefix, if_pos rfl, afterPrefix]
          simp only [hword, identifier_append hname (hrest.breaks htail.breaks),
            ih (Nat.le_of_succ_le_succ hfuel), String.ofList_toList]

/-! ## Reading a tree -/

/-- Blanks around the tree and colons in front of it are taken off. -/
theorem strip_dropColons {lead : PathLead} {front body before after : List Char}
    (hlead : SpellsLead lead front) (hbody : Trimmed body) (hcolon : body.head? ≠ some ':')
    (hbefore : allBlank before) (hafter : allBlank after) :
    strip (dropColons (strip (before ++ (front ++ body) ++ after))) = body := by
  rw [(hlead.trimmed hbody).strip_padded hbefore hafter]
  cases hlead with
  | relative =>
      obtain ⟨c, rest, rfl, -⟩ := hbody.front
      have hc : ¬ ':' = c := fun hc => hcolon (by rw [hc]; rfl)
      rw [List.nil_append, dropColons, afterPrefix, if_neg hc, Option.getD_none, hbody.strip]
  | @absolute blanks hblanks =>
      have hdrop : dropColons (':' :: ':' :: blanks ++ body) = blanks ++ body := by
        rw [dropColons, show ':' :: ':' :: blanks ++ body = [':', ':'] ++ (blanks ++ body) from rfl,
          afterPrefix_append, Option.getD_some]
      rw [hdrop, hbody.strip_append hblanks]

theorem insideBraces_append (inner : List Char) : insideBraces (inner ++ ['\x7d']) = inner := by
  unfold insideBraces
  rw [List.reverse_append, List.reverse_singleton, List.singleton_append,
    List.dropWhile_cons_of_neg (by decide)]
  exact List.reverse_reverse inner

/-- A group is read as its members are. -/
theorem readUseTree_group {lead : PathLead} {front before after : List Char}
    {members : List Member} {last : Option (List Char)} {fuel : Nat} {nested : Bool}
    (hlead : SpellsLead lead front) (hbefore : allBlank before) (hafter : allBlank after)
    (hpadded : ∀ m ∈ members, m.Padded) (hlast : ∀ blanks ∈ last, allBlank blanks)
    (hspells : ∀ m ∈ members, Renders m.tree m.core)
    (hread : ∀ m ∈ members, readUseTree fuel nested m.text = textNames nested m.tree) :
    readUseTree (fuel + 1) nested (before ++ (front ++ groupText members last) ++ after) =
      textNames nested (.group none (members.map Member.tree)) := by
  have htree := strip_dropColons hlead (groupText_trimmed members last) (by simp [groupText])
    hbefore hafter
  -- the pieces between the commas are the members, and the blanks behind a last comma are dropped
  have hmembers : (members.map Member.text).filter (fun piece => !allBlank piece) =
      members.map Member.text := by
    refine List.filter_eq_self.mpr fun piece hpiece => ?_
    obtain ⟨m, hm, rfl⟩ := List.mem_map.mp hpiece
    have hcore : ¬ allBlank m.core := (hspells m hm).trimmed.not_allBlank
    have htext : allBlank m.text = false := by
      refine Bool.eq_false_iff.mpr fun hall => ?_
      exact hcore (allBlank_append.mp (allBlank_append.mp hall).1).2
    rw [htext]
    rfl
  have htrailing : last.toList.filter (fun piece => !allBlank piece) = [] := by
    refine List.filter_eq_nil_iff.mpr fun piece hpiece => ?_
    rw [hlast piece (Option.mem_toList.mp hpiece)]
    exact Bool.false_ne_true
  have hpieces : splitTopLevel (insideBraces
      ([','].intercalate (members.map Member.text ++ last.toList) ++ ['\x7d'])) =
      members.map Member.text := by
    rw [insideBraces_append, splitTopLevel_intercalate (pieces_solid hpadded hlast hspells),
      List.filter_append, hmembers, htrailing, List.append_nil]
  rw [readUseTree]
  simp only [htree]
  unfold groupText
  simp only [hpieces, List.map_map]
  rw [← concat_textNames]
  exact congrArg UseNames.concat (List.map_congr_left hread)

/-- The names in a tree that begins with a path, given the text behind its last segment. -/
def behindPath (fuel : Nat) (nested : Bool) (first : String) (names : List String)
    (rest : List Char) : UseNames :=
  let roots := if nested then [] else [first]
  match afterPrefix [':', ':'] rest with
  | some behind =>
      match strip behind with
      | '\x7b' :: inner => ⟨roots, (readUseTree fuel true ('\x7b' :: inner)).bindings⟩
      | _ => ⟨roots, []⟩
  | none => ⟨roots, boundName nested first names rest⟩

/-- A tree that begins with a path is read by its path and by what stands behind it. -/
theorem readUseTree_path {lead : PathLead} {first : String} {names : List String}
    {front rest tail before after : List Char} (hlead : SpellsLead lead front)
    (hfirst : isIdentifier first.toList) (hrest : RendersRest names rest) (htail : PathEnd tail)
    (htrimmed : Trimmed (first.toList ++ (rest ++ tail))) (hbefore : allBlank before)
    (hafter : allBlank after) (fuel : Nat) (nested : Bool) :
    readUseTree (fuel + 1) nested (before ++ (front ++ (first.toList ++ (rest ++ tail))) ++ after) =
      behindPath fuel nested first names (strip tail) := by
  -- the text begins with a character of a word, so no colons are taken off and it is no group
  have hisWord := isWord_of_isIdentifier hfirst
  obtain ⟨c, word, hc⟩ := List.exists_cons_of_ne_nil hisWord.ne_nil
  have hword : isAsciiWord c := hisWord.word c (by rw [hc]; exact List.mem_cons_self)
  have hcolon : (first.toList ++ (rest ++ tail)).head? ≠ some ':' := by
    rw [hc]
    intro h
    rw [Option.some.inj h] at hword
    cases hword
  have hbrace : ¬ c = '\x7b' := by
    rintro rfl
    cases hword
  have htree := strip_dropColons hlead htrimmed hcolon hbefore hafter
  have hidentifier := identifier_append hfirst (hrest.breaks htail.breaks)
  have hfuel : names.length ≤ (rest ++ tail).length := by
    have := hrest.length_le
    rw [List.length_append]
    omega
  rw [readUseTree]
  simp only [htree]
  split
  · next inner hinner =>
      rw [hc] at hinner
      exact absurd (List.cons.inj hinner).1 hbrace
  · simp only [hidentifier, pathSegments_append hrest htail hfuel, String.ofList_toList]
    rfl

theorem root?_segmentOf {lead : PathLead} {front : List Char} {first : String}
    (hlead : SpellsLead lead front) (hfirst : isIdentifier first.toList) (names : List String) :
    root? ⟨lead, segmentOf first, names⟩ = some first := by
  have htext : (segmentOf first).text = first := by
    unfold segmentOf
    split
    · rfl
    · rfl
  refine root?_of_startsWith hfirst ⟨?_, htext⟩
  cases hlead with
  | relative => exact PathLead.noConfusion
  | absolute _ => exact PathLead.noConfusion

/-- A path with nothing behind it binds what it binds as a leaf. -/
theorem boundName_nil (nested : Bool) (lead : PathLead) (first : String) (names : List String) :
    boundName nested first names [] = textLeaf nested ⟨lead, segmentOf first, names⟩ := by
  have hkeyword : (keyword "as" [] >>= identifier) = none := rfl
  unfold boundName textLeaf
  rw [hkeyword]
  cases hlast : names.getLast? with
  | some last =>
      have hne : names.isEmpty = false := by
        cases names with
        | nil => cases hlast
        | cons => rfl
      have hgetD : names.getLastD first = last := by
        rw [List.getLastD_eq_getLast?, hlast, Option.getD_some]
      simp only [hgetD, hne, Bool.not_false, Bool.or_true, Bool.true_and, decide_eq_true_eq]
      by_cases hself : last = "self"
      · simp [hself]
      · simp [hself]
  | none =>
      have hnames : names = [] := List.getLast?_eq_none_iff.mp hlast
      subst hnames
      unfold segmentOf
      by_cases hword : first ∈ pathWords
      · simp [hword]
      · simp [hword]

theorem strip_colons {before after body : List Char} (hbefore : allBlank before)
    (hbody : Trimmed body) :
    strip (before ++ ':' :: ':' :: (after ++ body)) = ':' :: ':' :: (after ++ body) := by
  have hcolon : Trimmed [':'] := Trimmed.singleton (by decide)
  exact (hcolon.append (':' :: after) hbody).strip_append hbefore

theorem length_core_lt {members : List Member} (last : Option (List Char)) {m : Member}
    (hm : m ∈ members) : m.core.length + 1 < (groupText members last).length := by
  have hpiece := length_le_intercalate
    (List.mem_append_left last.toList (List.mem_map_of_mem (f := Member.text) hm))
  calc m.core.length + 1
      ≤ m.text.length + 1 := by
        simp only [Member.text, List.length_append]
        omega
    _ ≤ ([','].intercalate (members.map Member.text ++ last.toList)).length + 1 :=
        Nat.succ_le_succ hpiece
    _ < (groupText members last).length := by
        simp only [groupText, List.length_cons, List.length_append, List.length_nil]
        omega

section

variable {path : UsePath} {text before after : List Char} (fuel : Nat) (nested : Bool)

theorem readUseTree_leaf (hpath : RendersPath path text) (hbefore : allBlank before)
    (hafter : allBlank after) :
    readUseTree (fuel + 1) nested (before ++ text ++ after) = textNames nested (.path path) := by
  cases hpath with
  | segments hlead hfirst hrest =>
      have htrimmed := hrest.trimmed (isWord_of_isIdentifier hfirst).trimmed
      rw [← List.append_nil (_ ++ _), List.append_assoc] at htrimmed
      have hread := readUseTree_path hlead hfirst hrest PathEnd.nil htrimmed hbefore hafter
        fuel nested
      rw [List.append_nil] at hread
      rw [hread, textNames, treeRoots, root?_segmentOf hlead hfirst, bindingsBy, ← boundName_nil]
      rfl

theorem readUseTree_renamed {gap gap' : List Char} {name : String} (hpath : RendersPath path text)
    (hgap : Gap gap) (hgap' : Gap gap') (hname : isIdentifier name.toList)
    (hbefore : allBlank before) (hafter : allBlank after) :
    readUseTree (fuel + 1) nested
        (before ++ (text ++ (gap ++ ("as".toList ++ (gap' ++ name.toList)))) ++ after) =
      textNames nested (.renamed path name) := by
  cases hpath with
  | segments hlead hfirst hrest =>
      have has : Trimmed ("as".toList ++ (gap' ++ name.toList)) :=
        (isWord_written (w := "as") (by decide)).trimmed.append gap'
          (isWord_of_isIdentifier hname).trimmed
      have htrimmed := (hrest.trimmed (isWord_of_isIdentifier hfirst).trimmed).append gap has
      rw [List.append_assoc] at htrimmed
      have hread := readUseTree_path hlead hfirst hrest (PathEnd.alias _ hgap) htrimmed hbefore
        hafter fuel nested
      have hkeyword : (keyword "as" ("as".toList ++ (gap' ++ name.toList)) >>= identifier) =
          some (name, []) := by
        have hleft := (isWord_of_isIdentifier hname).trimmed.stripLeft_append []
        have hname' := identifier_append hname (show Breaks [] from trivial)
        rw [List.append_nil] at hleft
        rw [List.append_nil, String.ofList_toList] at hname'
        rw [keyword_append "as" _ hgap', hleft]
        exact hname'
      rw [has.strip_append hgap.blank] at hread
      simp only [List.append_assoc] at hread ⊢
      rw [hread, textNames, treeRoots, root?_segmentOf hlead hfirst, bindingsBy]
      show UseNames.mk _ (boundName nested _ _ _) = _
      rw [boundName, hkeyword]
      rfl

/-- Behind a path and `::` stands something that is no segment. -/
theorem readUseTree_behind {gap gap' rest : List Char} {c : Char} (hpath : RendersPath path text)
    (hgap : allBlank gap) (hgap' : allBlank gap') (hword : isAsciiWord c = false)
    (hbody : Trimmed (c :: rest)) (hbefore : allBlank before) (hafter : allBlank after) :
    readUseTree (fuel + 1) nested
        (before ++ (text ++ (gap ++ ':' :: ':' :: (gap' ++ c :: rest))) ++ after) =
      ⟨if nested then [] else (root? path).toList,
        if c = '\x7b' then (readUseTree fuel true (c :: rest)).bindings else []⟩ := by
  cases hpath with
  | segments hlead hfirst hrest =>
      obtain ⟨_, _, hcons, hblank⟩ := hbody.front
      obtain ⟨rfl, rfl⟩ := List.cons.inj hcons
      have hpathTrimmed := hrest.trimmed (isWord_of_isIdentifier hfirst).trimmed
      have htrimmed := hpathTrimmed.append (gap ++ ':' :: ':' :: gap') hbody
      simp only [List.append_assoc, List.cons_append] at htrimmed
      have hread := readUseTree_path hlead hfirst hrest
        (PathEnd.colons _ hgap hgap' hblank hword) htrimmed hbefore hafter fuel nested
      rw [strip_colons hgap hbody] at hread
      simp only [List.append_assoc] at hread ⊢
      rw [hread, root?_segmentOf hlead hfirst, behindPath]
      simp only [afterPrefix, if_true, hbody.strip_append hgap']
      split
      · next inner hinner =>
          obtain ⟨rfl, rfl⟩ := List.cons.inj hinner
          rfl
      · next hother =>
          have hc : c ≠ '\x7b' := fun hc => hother _ (by rw [hc])
          rw [if_neg hc]
          rfl

theorem readUseTree_star {lead : PathLead} {front : List Char} (hlead : SpellsLead lead front)
    (hbefore : allBlank before) (hafter : allBlank after) :
    readUseTree (fuel + 1) nested (before ++ (front ++ ['*']) ++ after) =
      textNames nested (.glob none) := by
  have htree := strip_dropColons hlead (Trimmed.singleton (show isBlank '*' = false by decide))
    (by decide) hbefore hafter
  rw [readUseTree]
  simp only [htree]
  cases nested with
  | false => rfl
  | true => rfl

end

/-- **Reading the text of a use tree gives the names of the tree.** -/
theorem readUseTree_renders {tree : UseTree} {text : List Char} (h : Renders tree text) {fuel : Nat}
    (hfuel : text.length ≤ fuel) (nested : Bool) {before after : List Char}
    (hbefore : allBlank before) (hafter : allBlank after) :
    readUseTree (fuel + 1) nested (before ++ text ++ after) = textNames nested tree := by
  -- each group costs one unit of fuel, and its members are shorter than the group
  induction h generalizing fuel nested before after with
  | path hpath => exact readUseTree_leaf fuel nested hpath hbefore hafter
  | renamed hpath hgap hgap' hname =>
      exact readUseTree_renamed fuel nested hpath hgap hgap' hname hbefore hafter
  | globOf hpath hgap hgap' =>
      rw [readUseTree_behind fuel nested hpath hgap hgap' (by decide)
        (Trimmed.singleton (by decide)) hbefore hafter]
      rfl
  | glob hlead => exact readUseTree_star fuel nested hlead hbefore hafter
  | @groupOf path text gap gap' members last hpath hgap hgap' hpadded hlast hspells ih =>
      have hlength : (groupText members last).length < fuel := by
        simp only [List.length_append, List.length_cons] at hfuel
        omega
      obtain ⟨fuel, rfl⟩ : ∃ k, fuel = k + 1 := Nat.exists_eq_succ_of_ne_zero (by omega)
      -- behind the path the group is read as a tree of its own, below a path
      have hgroup : readUseTree (fuel + 1) true ([] ++ ([] ++ groupText members last) ++ []) =
          textNames true (.group none (members.map Member.tree)) := by
        refine readUseTree_group .relative rfl rfl hpadded hlast hspells fun m hm => ?_
        have hcore := length_core_lt last hm
        obtain ⟨fuel, rfl⟩ : ∃ k, fuel = k + 1 := Nat.exists_eq_succ_of_ne_zero (by omega)
        exact ih m hm (by omega) true (hpadded m hm).1 (hpadded m hm).2
      rw [List.nil_append, List.nil_append, List.append_nil] at hgroup
      have hbraces := groupText_trimmed members last
      unfold groupText at hgroup hbraces ⊢
      rw [readUseTree_behind (fuel + 1) nested hpath hgap hgap' (by decide) hbraces hbefore hafter,
        if_pos rfl, hgroup]
      simp only [textNames, treeRoots, bindingsBy, Option.isSome_some, Option.isSome_none,
        Bool.or_true, Bool.or_false]
  | @group lead front members last hlead hpadded hlast hspells ih =>
      refine readUseTree_group hlead hbefore hafter hpadded hlast hspells fun m hm => ?_
      have hlength := length_core_lt last hm
      rw [List.length_append] at hfuel
      obtain ⟨fuel, rfl⟩ : ∃ k, fuel = k + 1 := Nat.exists_eq_succ_of_ne_zero (by omega)
      exact ih m hm (by omega) nested (hpadded m hm).1 (hpadded m hm).2

/-! ## What a text tells, from the grammar alone -/

mutual

/-- The first segments of the paths that stand below no other path, in source order. -/
def outermost : UseTree → List String
  | .path path => [path.first.text]
  | .renamed path _ => [path.first.text]
  | .glob path => (path.map fun path => path.first.text).toList
  | .group (some path) _ => [path.first.text]
  | .group none trees => outermostOf trees

/-- The first segments of the outermost paths of several use trees. -/
def outermostOf : List UseTree → List String
  | [] => []
  | tree :: rest => outermost tree ++ outermostOf rest

end

/-- The last segment of a path, unless it is `self` or the path is a lone segment that stands below
no other path. -/
def lastName (nested : Bool) (path : UsePath) : List String :=
  let last := path.rest.getLastD path.first.text
  if last = "self" ∨ (path.rest = [] ∧ nested = false) then [] else [last]

theorem outermostOf_eq_flatMap (trees : List UseTree) :
    outermostOf trees = trees.flatMap outermost := by
  induction trees with
  | nil => rfl
  | cons tree rest ih => rw [outermostOf, ih, List.flatMap_cons]

theorem text_segmentOf (word : String) : (segmentOf word).text = word := by
  unfold segmentOf
  split
  · rfl
  · rfl

theorem RendersPath.root? {path : UsePath} {text : List Char} (h : RendersPath path text) :
    root? path = some path.first.text := by
  cases h with
  | segments hlead hfirst _ => rw [root?_segmentOf hlead hfirst, text_segmentOf]

theorem Renders.treeRoots {tree : UseTree} {text : List Char} (h : Renders tree text) :
    treeRoots tree = outermost tree := by
  induction h with
  | path hpath => rw [Source.treeRoots, hpath.root?, outermost, Option.toList_some]
  | renamed hpath _ _ _ => rw [Source.treeRoots, hpath.root?, outermost, Option.toList_some]
  | globOf hpath _ _ => rw [Source.treeRoots, hpath.root?, outermost, Option.map_some]
  | glob _ => rfl
  | groupOf hpath _ _ _ _ _ _ =>
      rw [Source.treeRoots, hpath.root?, outermost, Option.toList_some]
  | @group lead front members last _ _ _ _ ih =>
      rw [Source.treeRoots, outermost, treeRootsOf_eq_flatMap, outermostOf_eq_flatMap,
        List.flatMap_map, List.flatMap_map]
      exact List.flatMap_congr ih

theorem RendersPath.textLeaf {path : UsePath} {text : List Char} (h : RendersPath path text)
    (nested : Bool) : textLeaf nested path = lastName nested path := by
  cases h with
  | @segments lead first names _ _ _ _ _ =>
      unfold Source.textLeaf lastName
      rw [List.getLastD_eq_getLast?, text_segmentOf]
      cases hlast : names.getLast? with
      | some last =>
          have hnames : names ≠ [] := by
            rintro rfl
            cases hlast
          simp [hnames]
      | none =>
          obtain rfl := List.getLast?_eq_none_iff.mp hlast
          unfold segmentOf
          by_cases hword : first ∈ pathWords
          · cases nested <;> simp [hword]
          · cases nested <;> simp [hword]

theorem Renders.bindings {tree : UseTree} {text : List Char} (h : Renders tree text)
    (nested : Bool) : bindingsBy textLeaf nested tree = bindingsBy lastName nested tree := by
  induction h generalizing nested with
  | path hpath => exact hpath.textLeaf nested
  | renamed _ _ _ _ => rfl
  | globOf _ _ _ => rfl
  | glob _ => rfl
  | groupOf _ _ _ _ _ _ ih | group _ _ _ _ ih =>
      rw [bindingsBy, bindingsBy, bindingsOfBy_eq_flatMap, bindingsOfBy_eq_flatMap,
        List.flatMap_map, List.flatMap_map]
      exact List.flatMap_congr fun m hm => ih m hm _

/-- **A use tree is read from any text that writes it**, with any blanks and any identifiers: the
roots are the first segments of the outermost paths, and none below a path; each path binds what its
last name or its alias says. -/
theorem useNames_renders {tree : UseTree} {text : List Char} (h : Renders tree text)
    (nested : Bool) {before after : List Char} (hbefore : allBlank before)
    (hafter : allBlank after) :
    useNames nested (before ++ text ++ after) =
      ⟨if nested then [] else outermost tree, bindingsBy lastName nested tree⟩ := by
  have hlength : text.length ≤ (before ++ text ++ after).length := by
    rw [List.length_append, List.length_append]
    omega
  rw [useNames, readUseTree_renders h hlength nested hbefore hafter, textNames, h.treeRoots,
    h.bindings]

/-- A path of one segment. -/
def lonePath (lead : PathLead) (word : String) : UsePath := ⟨lead, segmentOf word, []⟩

/-- The members of the group in `nestedTree` that stands below two paths. -/
def innerMembers : List Member :=
  [⟨.renamed (lonePath .relative "d") "e", [], "d as\te".toList, []⟩,
    ⟨.glob none, [' '], ['*'], []⟩]

/-- The members of the group in `nestedTree` that stands below one path. -/
def outerMembers : List Member :=
  [⟨.path (lonePath .relative "self"), [], "self".toList, []⟩,
    ⟨.renamed (lonePath .relative "b") "_", [' '], "b as _".toList, []⟩,
    ⟨.group (some (lonePath .relative "c")) (innerMembers.map Member.tree), ['\n', ' '],
      "c::\x7bd as\te, *\x7d".toList, []⟩,
    ⟨.path (lonePath .relative "super"), [' '], "super".toList, []⟩]

/-- A tree of three levels, `a::{self, b as _, c::{d as e, *}, super,}` behind `::`. -/
def nestedTree : UseTree := .group (some (lonePath .absolute "a")) (outerMembers.map Member.tree)

theorem renders_lonePath (word : String) (hword : isIdentifier word.toList) :
    RendersPath (lonePath .relative word) word.toList := by
  have hpath : RendersPath (lonePath .relative word) ([] ++ (word.toList ++ [])) :=
    .segments .relative hword .nil
  rwa [List.nil_append, List.append_nil] at hpath

theorem renders_nestedTree :
    Renders nestedTree ":: a ::\x7bself, b as _,\n c::\x7bd as\te, *\x7d, super,\n\x7d".toList := by
  have hblank : Gap [' '] := ⟨by decide, List.cons_ne_nil _ _⟩
  have htab : Gap ['\t'] := ⟨by decide, List.cons_ne_nil _ _⟩
  have ha : RendersPath (lonePath .absolute "a") ([':', ':', ' '] ++ ("a".toList ++ [])) :=
    .segments (.absolute (by decide)) (by decide) .nil
  have hb : Renders (.renamed (lonePath .relative "b") "_") "b as _".toList :=
    .renamed (renders_lonePath "b" (by decide)) hblank hblank (by decide)
  have hd : Renders (.renamed (lonePath .relative "d") "e") "d as\te".toList :=
    .renamed (renders_lonePath "d" (by decide)) hblank htab (by decide)
  have hstar : Renders (.glob none) ([] ++ ['*']) := .glob .relative
  have hinner : ∀ m ∈ innerMembers, m.Padded ∧ Renders m.tree m.core := by
    simp only [innerMembers, List.forall_mem_cons, List.not_mem_nil, false_implies, implies_true,
      and_true]
    exact ⟨⟨⟨rfl, rfl⟩, hd⟩, ⟨by decide, rfl⟩, hstar⟩
  have hc : Renders (.group (some (lonePath .relative "c")) (innerMembers.map Member.tree))
      ("c".toList ++ ([] ++ ':' :: ':' :: ([] ++ groupText innerMembers none))) :=
    .groupOf (renders_lonePath "c" (by decide)) rfl rfl (fun m hm => (hinner m hm).1) nofun
      fun m hm => (hinner m hm).2
  have houter : ∀ m ∈ outerMembers, m.Padded ∧ Renders m.tree m.core := by
    simp only [outerMembers, List.forall_mem_cons, List.not_mem_nil, false_implies, implies_true,
      and_true]
    exact ⟨⟨⟨rfl, rfl⟩, .path (renders_lonePath "self" (by decide))⟩, ⟨⟨by decide, rfl⟩, hb⟩,
      ⟨⟨by decide, rfl⟩, hc⟩, ⟨by decide, rfl⟩, .path (renders_lonePath "super" (by decide))⟩
  have hgroup : Renders nestedTree ([':', ':', ' '] ++ ("a".toList ++ []) ++
      ([' '] ++ ':' :: ':' :: ([] ++ groupText outerMembers (some ['\n'])))) :=
    .groupOf ha (by decide) rfl (fun m hm => (houter m hm).1)
      (by rintro _ ⟨⟩; decide) fun m hm => (houter m hm).2
  exact hgroup

theorem useNames_nestedTree :
    Renders nestedTree ":: a ::\x7bself, b as _,\n c::\x7bd as\te, *\x7d, super,\n\x7d".toList ∧
      useNames false ([' '] ++
        ":: a ::\x7bself, b as _,\n c::\x7bd as\te, *\x7d, super,\n\x7d".toList ++ ['\n']) =
          ⟨["a"], ["e", "super"]⟩ := by
  refine ⟨renders_nestedTree, ?_⟩
  rw [useNames_renders renders_nestedTree false (by decide) (by decide)]
  decide

end RustScript.Source
