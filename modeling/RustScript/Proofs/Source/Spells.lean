import RustScript.Proofs.Source.Commas
import RustScript.Proofs.Source.Words
import RustScript.Rust.Syntax

/-!
# The texts of use trees

`Spells tree text` says that the text writes the tree: its tokens in their order, with any blanks
between them and at least one around `as`. `Renders tree text` says the same of trees whose names may
be reserved words. No comma splits such a text outside its groups, no semicolon ends it early, and it
begins and ends with a token.
-/

set_option autoImplicit false

namespace RustScript.Source

open RustScript.Rust RustScript.Text

/-! ## The texts of a use tree -/

/-- The words that begin a declaration. -/
def declaringWords : List String :=
  ["pub", "use", "mod", "enum", "struct", "trait", "type", "unsafe"]

/-- The words that declarations are written with. -/
def writtenWords : List String := "as" :: "in" :: "union" :: declaringWords

theorem isWord_written {w : String} (h : w ∈ writtenWords) : IsWord w.toList := by
  have hall : ∀ w ∈ writtenWords, isIdentifier w.toList := by decide +kernel
  exact isWord_of_isIdentifier (hall w h)

/-- An identifier in ASCII that is not reserved. -/
structure IsName (name : String) : Prop where
  identifier : isIdentifier name.toList
  free : name ∉ "as" :: declaringWords

/-- The words that begin a path without naming a crate. -/
def pathWords : List String := ["self", "super", "crate"]

/-- The segment that a word is when it stands first in a path. -/
def segmentOf (word : String) : Segment :=
  if word ∈ pathWords then .keyword word else .name word

inductive SpellsLead : PathLead → List Char → Prop
  | relative : SpellsLead .relative []
  | absolute {blanks : List Char} :
      allBlank blanks → SpellsLead .absolute (':' :: ':' :: blanks)

/-- The segments behind the first one. -/
inductive SpellsRest : List String → List Char → Prop
  | nil : SpellsRest [] []
  | cons {name : String} {names : List String} {before after text : List Char} :
      allBlank before → allBlank after → IsName name → SpellsRest names text →
      SpellsRest (name :: names) (before ++ ':' :: ':' :: (after ++ (name.toList ++ text)))

inductive SpellsPath : UsePath → List Char → Prop
  | segments {lead : PathLead} {first : String} {names : List String} {front rest : List Char} :
      SpellsLead lead front → IsName first → SpellsRest names rest →
      SpellsPath ⟨lead, segmentOf first, names⟩ (front ++ (first.toList ++ rest))

/-- A use tree in a group, with the blanks around its text. -/
structure Member where
  tree : UseTree
  before : List Char
  core : List Char
  after : List Char

def Member.text (m : Member) : List Char := m.before ++ m.core ++ m.after

def Member.Padded (m : Member) : Prop := allBlank m.before ∧ allBlank m.after

/-- The text of a group. There may be blanks behind a last comma, or in place of all members. -/
def groupText (members : List Member) (last : Option (List Char)) : List Char :=
  '\x7b' :: ([','].intercalate (members.map Member.text ++ last.toList) ++ ['\x7d'])

/-- The text writes the use tree. -/
inductive Spells : UseTree → List Char → Prop
  | path {path : UsePath} {text : List Char} :
      SpellsPath path text → Spells (.path path) text
  | renamed {path : UsePath} {text before after : List Char} {name : String} :
      SpellsPath path text → Gap before → Gap after → IsName name →
      Spells (.renamed path name)
        (text ++ (before ++ ("as".toList ++ (after ++ name.toList))))
  | globOf {path : UsePath} {text before after : List Char} :
      SpellsPath path text → allBlank before → allBlank after →
      Spells (.glob (some path)) (text ++ (before ++ ':' :: ':' :: (after ++ ['*'])))
  | glob {lead : PathLead} {front : List Char} :
      SpellsLead lead front → Spells (.glob none) (front ++ ['*'])
  | groupOf {path : UsePath} {text before after : List Char} {members : List Member}
      {last : Option (List Char)} :
      SpellsPath path text → allBlank before → allBlank after →
      (∀ m ∈ members, m.Padded) → (∀ blanks ∈ last, allBlank blanks) →
      (∀ m ∈ members, Spells m.tree m.core) →
      Spells (.group (some path) (members.map Member.tree))
        (text ++ (before ++ ':' :: ':' :: (after ++ groupText members last)))
  | group {lead : PathLead} {front : List Char} {members : List Member}
      {last : Option (List Char)} :
      SpellsLead lead front →
      (∀ m ∈ members, m.Padded) → (∀ blanks ∈ last, allBlank blanks) →
      (∀ m ∈ members, Spells m.tree m.core) →
      Spells (.group none (members.map Member.tree)) (front ++ groupText members last)

/-! ## Use trees of any identifiers -/

/-- The segments behind the first one, which may be any identifiers. -/
inductive RendersRest : List String → List Char → Prop
  | nil : RendersRest [] []
  | cons {name : String} {names : List String} {before after text : List Char} :
      allBlank before → allBlank after → isIdentifier name.toList → RendersRest names text →
      RendersRest (name :: names) (before ++ ':' :: ':' :: (after ++ (name.toList ++ text)))

inductive RendersPath : UsePath → List Char → Prop
  | segments {lead : PathLead} {first : String} {names : List String} {front rest : List Char} :
      SpellsLead lead front → isIdentifier first.toList → RendersRest names rest →
      RendersPath ⟨lead, segmentOf first, names⟩ (front ++ (first.toList ++ rest))

/-- The text writes the use tree, with any identifiers for names, words that are reserved
included. -/
inductive Renders : UseTree → List Char → Prop
  | path {path : UsePath} {text : List Char} :
      RendersPath path text → Renders (.path path) text
  | renamed {path : UsePath} {text before after : List Char} {name : String} :
      RendersPath path text → Gap before → Gap after → isIdentifier name.toList →
      Renders (.renamed path name)
        (text ++ (before ++ ("as".toList ++ (after ++ name.toList))))
  | globOf {path : UsePath} {text before after : List Char} :
      RendersPath path text → allBlank before → allBlank after →
      Renders (.glob (some path)) (text ++ (before ++ ':' :: ':' :: (after ++ ['*'])))
  | glob {lead : PathLead} {front : List Char} :
      SpellsLead lead front → Renders (.glob none) (front ++ ['*'])
  | groupOf {path : UsePath} {text before after : List Char} {members : List Member}
      {last : Option (List Char)} :
      RendersPath path text → allBlank before → allBlank after →
      (∀ m ∈ members, m.Padded) → (∀ blanks ∈ last, allBlank blanks) →
      (∀ m ∈ members, Renders m.tree m.core) →
      Renders (.group (some path) (members.map Member.tree))
        (text ++ (before ++ ':' :: ':' :: (after ++ groupText members last)))
  | group {lead : PathLead} {front : List Char} {members : List Member}
      {last : Option (List Char)} :
      SpellsLead lead front →
      (∀ m ∈ members, m.Padded) → (∀ blanks ∈ last, allBlank blanks) →
      (∀ m ∈ members, Renders m.tree m.core) →
      Renders (.group none (members.map Member.tree)) (front ++ groupText members last)

theorem SpellsRest.renders {names : List String} {text : List Char} (h : SpellsRest names text) :
    RendersRest names text := by
  induction h with
  | nil => exact .nil
  | cons hbefore hafter hname _ ih => exact .cons hbefore hafter hname.identifier ih

theorem SpellsPath.renders {path : UsePath} {text : List Char} (h : SpellsPath path text) :
    RendersPath path text := by
  cases h with
  | segments hlead hfirst hrest => exact .segments hlead hfirst.identifier hrest.renders

theorem Spells.renders {tree : UseTree} {text : List Char} (h : Spells tree text) :
    Renders tree text := by
  induction h with
  | path hpath => exact .path hpath.renders
  | renamed hpath hgap hgap' hname => exact .renamed hpath.renders hgap hgap' hname.identifier
  | globOf hpath hbefore hafter => exact .globOf hpath.renders hbefore hafter
  | glob hlead => exact .glob hlead
  | groupOf hpath hbefore hafter hpadded hlast _ ih =>
      exact .groupOf hpath.renders hbefore hafter hpadded hlast ih
  | group hlead hpadded hlast _ ih => exact .group hlead hpadded hlast ih

/-! ## What the texts are made of -/

/-- The characters that end a piece, begin or end a group, or end a declaration or a scope. -/
def endMarks : List Char := [',', '\x7b', '\x7d', ';', ')']

/-- No character of the text ends anything. -/
def Plain (cs : List Char) : Prop := ∀ c ∈ cs, c ∉ endMarks

theorem plain_append {a b : List Char} : Plain (a ++ b) ↔ Plain a ∧ Plain b :=
  List.forall_mem_append

theorem plain_cons {c : Char} {cs : List Char} :
    Plain (c :: cs) ↔ c ∉ endMarks ∧ Plain cs :=
  List.forall_mem_cons

theorem plain_star : Plain ['*'] :=
  plain_cons.mpr ⟨by decide, fun _ hc => absurd hc List.not_mem_nil⟩

theorem Plain.of_blank {cs : List Char} (h : allBlank cs) : Plain cs := by
  have hmarks : (endMarks.all fun c => !isBlank c) = true := by decide
  intro c hc hmem
  have hblank : isBlank c := isBlank_of_mem h hc
  have hfree := List.all_eq_true.mp hmarks c hmem
  rw [hblank] at hfree
  cases hfree

theorem IsName.isWord {name : String} (h : IsName name) : IsWord name.toList :=
  isWord_of_isIdentifier h.identifier

theorem Plain.of_word {cs : List Char} (h : IsWord cs) : Plain cs := by
  have hmarks : (endMarks.all fun c => !isAsciiWord c) = true := by decide
  intro c hc hmem
  have hword : isAsciiWord c := h.word c hc
  have hfree := List.all_eq_true.mp hmarks c hmem
  rw [hword] at hfree
  cases hfree

theorem Plain.solid {cs : List Char} (h : Plain cs) : Solid cs := by
  refine Solid.of_plain fun c hc => ?_
  have hnot := h c hc
  simp only [endMarks, List.mem_cons, List.not_mem_nil, or_false, not_or] at hnot
  exact ⟨hnot.1, hnot.2.1, hnot.2.2.1⟩

theorem SpellsLead.plain {lead : PathLead} {front : List Char} (h : SpellsLead lead front) :
    Plain front := by
  cases h with
  | relative => exact fun _ hc => absurd hc List.not_mem_nil
  | absolute hblank =>
      exact plain_cons.mpr ⟨by decide, plain_cons.mpr ⟨by decide, Plain.of_blank hblank⟩⟩

theorem RendersRest.plain {names : List String} {text : List Char} (h : RendersRest names text) :
    Plain text := by
  induction h with
  | nil => exact fun _ hc => absurd hc List.not_mem_nil
  | cons hbefore hafter hname _ ih =>
      refine plain_append.mpr ⟨Plain.of_blank hbefore, plain_cons.mpr ⟨by decide, ?_⟩⟩
      refine plain_cons.mpr ⟨by decide, plain_append.mpr ⟨Plain.of_blank hafter, ?_⟩⟩
      exact plain_append.mpr ⟨Plain.of_word (isWord_of_isIdentifier hname), ih⟩

theorem RendersPath.plain {path : UsePath} {text : List Char} (h : RendersPath path text) :
    Plain text := by
  cases h with
  | segments hlead hfirst hrest =>
      exact plain_append.mpr ⟨hlead.plain,
        plain_append.mpr ⟨Plain.of_word (isWord_of_isIdentifier hfirst), hrest.plain⟩⟩

/-- The text between a path and what follows behind `::`. -/
theorem plain_colons {before after : List Char} (hbefore : allBlank before)
    (hafter : allBlank after) : Plain (before ++ ':' :: ':' :: after) :=
  plain_append.mpr ⟨Plain.of_blank hbefore,
    plain_cons.mpr ⟨by decide, plain_cons.mpr ⟨by decide, Plain.of_blank hafter⟩⟩⟩

section

variable {P : List Char → Prop} (hplain : ∀ {cs : List Char}, Plain cs → P cs)
  (happend : ∀ {a b : List Char}, P a → P b → P (a ++ b))
  (hbraces : ∀ {pieces : List (List Char)}, (∀ piece ∈ pieces, P piece) →
    P ('\x7b' :: ([','].intercalate pieces ++ ['\x7d'])))

include hplain happend

theorem piece_induction {members : List Member} {last : Option (List Char)}
    (hpadded : ∀ m ∈ members, m.Padded) (hlast : ∀ blanks ∈ last, allBlank blanks)
    (h : ∀ m ∈ members, P m.core) : ∀ piece ∈ members.map Member.text ++ last.toList, P piece := by
  intro piece hpiece
  rcases List.mem_append.mp hpiece with hmember | htrailing
  · obtain ⟨m, hm, rfl⟩ := List.mem_map.mp hmember
    have hbefore : P m.before := hplain (Plain.of_blank (hpadded m hm).1)
    exact happend (happend hbefore (h m hm)) (hplain (Plain.of_blank (hpadded m hm).2))
  · exact hplain (Plain.of_blank (hlast piece (Option.mem_toList.mp htrailing)))

include hbraces

/-- What holds of plain texts, of texts put together and of texts joined in braces holds of every
use tree. -/
theorem Renders.text_induction {tree : UseTree} {text : List Char} (h : Renders tree text) :
    P text := by
  induction h with
  | path hpath => exact hplain hpath.plain
  | renamed hpath hbefore hafter hname =>
      refine happend (hplain hpath.plain) (happend (hplain (Plain.of_blank hbefore.blank)) ?_)
      exact hplain (plain_append.mpr ⟨Plain.of_word (isWord_written (w := "as") (by decide)),
        plain_append.mpr
          ⟨Plain.of_blank hafter.blank, Plain.of_word (isWord_of_isIdentifier hname)⟩⟩)
  | globOf hpath hbefore hafter =>
      have hcolons := happend (hplain (plain_colons hbefore hafter))
        (hplain plain_star)
      rw [List.append_assoc] at hcolons
      exact happend (hplain hpath.plain) hcolons
  | glob hlead => exact happend (hplain hlead.plain) (hplain plain_star)
  | groupOf hpath hbefore hafter hpadded hlast _ ih =>
      have hcolons := happend (hplain (plain_colons hbefore hafter))
        (hbraces (piece_induction hplain happend hpadded hlast ih))
      rw [List.append_assoc] at hcolons
      exact happend (hplain hpath.plain) hcolons
  | group hlead hpadded hlast _ ih =>
      exact happend (hplain hlead.plain)
        (hbraces (piece_induction hplain happend hpadded hlast ih))

end

/-- No comma outside the groups of a use tree splits it. -/
theorem Renders.solid {tree : UseTree} {text : List Char} (h : Renders tree text) : Solid text :=
  h.text_induction Plain.solid Solid.append Solid.braces

theorem pieces_solid {members : List Member} {last : Option (List Char)}
    (hpadded : ∀ m ∈ members, m.Padded) (hlast : ∀ blanks ∈ last, allBlank blanks)
    (h : ∀ m ∈ members, Renders m.tree m.core) :
    ∀ piece ∈ members.map Member.text ++ last.toList, Solid piece :=
  piece_induction Plain.solid Solid.append hpadded hlast fun m hm => (h m hm).solid

/-- A declaration does not end inside its use tree. -/
theorem Renders.not_mem_semicolon {tree : UseTree} {text : List Char} (h : Renders tree text) :
    ';' ∉ text := by
  refine h.text_induction (fun hcs hmem => hcs ';' hmem (by decide)) ?_ ?_
  · intro a b ha hb hmem
    rcases List.mem_append.mp hmem with h | h
    · exact ha h
    · exact hb h
  · intro pieces hpieces hmem
    rcases List.mem_cons.mp hmem with hopen | hmem
    · cases hopen
    rcases List.mem_append.mp hmem with hinner | hclose
    · rcases mem_of_mem_intercalate hinner with hcomma | ⟨piece, hpiece, hin⟩
      · cases hcomma
      · exact hpieces piece hpiece hin
    · cases List.mem_singleton.mp hclose

/-! ## Their ends -/

theorem SpellsLead.trimmed {lead : PathLead} {front text : List Char} (h : SpellsLead lead front)
    (htext : Trimmed text) : Trimmed (front ++ text) := by
  cases h with
  | relative => exact htext
  | @absolute blanks _ =>
      exact (Trimmed.singleton (show isBlank ':' = false by decide)).append (':' :: blanks) htext

theorem RendersRest.trimmed {names : List String} {front text : List Char}
    (h : RendersRest names text) (hfront : Trimmed front) : Trimmed (front ++ text) := by
  induction h generalizing front with
  | nil =>
      rw [List.append_nil]
      exact hfront
  | @cons name names before after text _ _ hname _ ih =>
      have hword := (isWord_of_isIdentifier hname).trimmed
      have hnext := ih (hfront.append (before ++ ':' :: ':' :: after) hword)
      simpa only [List.append_assoc, List.cons_append] using hnext

theorem RendersPath.trimmed {path : UsePath} {text : List Char} (h : RendersPath path text) :
    Trimmed text := by
  cases h with
  | segments hlead hfirst hrest =>
      exact hlead.trimmed (hrest.trimmed (isWord_of_isIdentifier hfirst).trimmed)

theorem groupText_trimmed (members : List Member) (last : Option (List Char)) :
    Trimmed (groupText members last) :=
  (Trimmed.singleton (show isBlank '\x7b' = false by decide)).append _
    (Trimmed.singleton (show isBlank '\x7d' = false by decide))

/-- A use tree begins and ends with a token. -/
theorem Renders.trimmed {tree : UseTree} {text : List Char} (h : Renders tree text) :
    Trimmed text := by
  cases h with
  | path hpath => exact hpath.trimmed
  | @renamed path text before after name hpath _ _ hname =>
      have htrimmed := hpath.trimmed.append (before ++ ("as".toList ++ after))
        (isWord_of_isIdentifier hname).trimmed
      simpa only [List.append_assoc] using htrimmed
  | @globOf path text before after hpath _ _ =>
      have hstar : Trimmed ['*'] := Trimmed.singleton (by decide)
      have htrimmed := hpath.trimmed.append (before ++ ':' :: ':' :: after) hstar
      simpa only [List.append_assoc, List.cons_append] using htrimmed
  | glob hlead => exact hlead.trimmed (Trimmed.singleton (by decide))
  | @groupOf path text before after members last hpath _ _ _ _ _ =>
      have htrimmed := hpath.trimmed.append (before ++ ':' :: ':' :: after)
        (groupText_trimmed members last)
      simpa only [List.append_assoc, List.cons_append] using htrimmed
  | @group lead front members last hlead _ _ _ => exact hlead.trimmed (groupText_trimmed _ _)

end RustScript.Source
