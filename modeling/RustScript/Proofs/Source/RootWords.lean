import RustScript.Proofs.Source.Reflow
import RustScript.Proofs.Source.RustWords
import RustScript.Proofs.Source.Traced

/-!
# Where the roots of a script stand

No crate root is made up. The roots in a syntax tree are taken of words among the tokens. Those
that a scan finds stand in the text without comments, behind a blank, a comma, a brace or a colon,
and are taken of the word that the lexer reads there. What is taken is the whole word, with three
exceptions: a word that goes on behind its letters of ASCII is cut there, a raw identifier keeps
its mark or leaves nothing but that, and a group without a closing brace loses characters at its
end.
-/

set_option autoImplicit false

namespace RustScript.Source

open RustScript.Rust RustScript.Text

/-! ## Parts of a text -/

/-- A mark that may stand before a word. -/
def isSeparator (c : Char) : Bool := isBlank c || c = ',' || c = '\x7b' || c = ':'

/-- The piece stands in the text behind a separator or at the front; and no word goes on behind it
if `ends` holds. -/
def Part (ends : Prop) (piece cs : List Char) : Prop :=
  ∃ before after, cs = before ++ (piece ++ after) ∧ (∀ c ∈ before.getLast?, isSeparator c) ∧
    (ends → Breaks after)

section

variable {P Q : Prop} {piece cs : List Char}

theorem Part.refl (cs : List Char) : Part P cs cs :=
  ⟨[], [], (List.append_nil cs).symm, by simp, fun _ => trivial⟩

theorem Part.mono (h : Part P piece cs) (hends : Q → P) : Part Q piece cs :=
  have ⟨before, after, hsplit, hbefore, hafter⟩ := h
  ⟨before, after, hsplit, hbefore, fun hq => hafter (hends hq)⟩

theorem Part.trans {text : List Char} (h : Part P piece cs) (htext : Part Q cs text) :
    Part (P ∧ Q) piece text := by
  obtain ⟨before, after, rfl, hbefore, hafter⟩ := h
  obtain ⟨front, back, rfl, hfront, hback⟩ := htext
  refine ⟨front ++ before, after ++ back, by simp only [List.append_assoc], ?_, fun hends => ?_⟩
  · cases before with
    | nil => rwa [List.append_nil]
    | cons c rest =>
        rw [List.getLast?_append_of_ne_nil _ (List.cons_ne_nil c rest)]
        exact hbefore
  · cases after with
    | nil => exact hback hends.2
    | cons c rest => exact hafter hends.1

theorem Part.within {text : List Char} (h : Part P piece cs) (htext : Part True cs text) :
    Part P piece text :=
  (h.trans htext).mono fun hends => ⟨hends, trivial⟩

theorem part_front (piece : List Char) {after : List Char} (h : Breaks after) :
    Part P piece (piece ++ after) :=
  ⟨[], after, rfl, by simp, fun _ => h⟩

theorem part_behind {before : List Char} (h : ∀ c ∈ before.getLast?, isSeparator c)
    (cs : List Char) : Part P cs (before ++ cs) :=
  ⟨before, [], by rw [List.append_nil], h, fun _ => trivial⟩

end

theorem isSeparator_of_last {before : List Char} {last : Char} (hlast : before.getLast? = some last)
    (h : isSeparator last) : ∀ c ∈ before.getLast?, isSeparator c := by
  intro c hc
  rw [hlast] at hc
  exact Option.some.inj hc ▸ h

theorem isSeparator_last {blanks : List Char} (h : allBlank blanks) :
    ∀ c ∈ blanks.getLast?, isSeparator c := by
  intro c hc
  simp [isSeparator, isBlank_of_mem h (List.mem_of_getLast? hc)]

theorem breaks_of_allBlank {blanks : List Char} (h : allBlank blanks) : Breaks blanks := by
  have hend : Breaks (blanks ++ []) := Breaks.blank_append h trivial
  rwa [List.append_nil] at hend

theorem part_stripLeft (cs : List Char) : Part True (stripLeft cs) cs := by
  obtain ⟨blanks, hblanks, hsplit⟩ := exists_blanks_append cs
  have hpart := part_behind (P := True) (isSeparator_last hblanks) (stripLeft cs)
  rwa [← hsplit] at hpart

theorem part_stripRight (cs : List Char) : Part True (stripRight cs) cs := by
  obtain ⟨blanks, hblanks, hsplit⟩ := exists_blanks_append cs.reverse
  have hreverse : allBlank blanks.reverse := by
    rw [allBlank, List.all_reverse]
    exact hblanks
  have hcs : cs = stripRight cs ++ blanks.reverse := by
    have := congrArg List.reverse hsplit
    rwa [List.reverse_reverse, List.reverse_append] at this
  have hpart := part_front (P := True) (stripRight cs) (breaks_of_allBlank hreverse)
  rwa [← hcs] at hpart

theorem part_strip (cs : List Char) : Part True (strip cs) cs :=
  (part_stripRight (stripLeft cs)).within (part_stripLeft cs)

theorem part_dropColons (cs : List Char) : Part True (dropColons cs) cs := by
  unfold dropColons
  cases h : afterPrefix [':', ':'] cs with
  | none => exact .refl cs
  | some rest =>
      rw [eq_append_of_afterPrefix h]
      exact part_behind (isSeparator_of_last rfl rfl) rest

/-- The text between braces ends at the closing brace, if there is one. -/
theorem part_insideBraces (inner : List Char) :
    Part ('\x7d' ∈ inner) (insideBraces inner) ('\x7b' :: inner) := by
  unfold insideBraces
  cases h : inner.reverse.dropWhile (· ≠ '\x7d') with
  | nil =>
      -- there is no brace to end at, and the last character is dropped in its place
      have hopen : '\x7d' ∉ inner := by
        intro hmem
        have := List.dropWhile_eq_nil_iff.1 h '\x7d' (List.mem_reverse.2 hmem)
        exact of_decide_eq_true this rfl
      obtain ⟨last, hsplit⟩ : inner.dropLast <+: inner := List.dropLast_prefix inner
      exact ⟨['\x7b'], last, by rw [hsplit]; rfl, isSeparator_of_last rfl rfl,
        fun hmem => absurd hmem hopen⟩
  | cons c before =>
      obtain ⟨front, -, hsplit⟩ := exists_of_dropWhile h
      have hinner : inner = before.reverse ++ '\x7d' :: front.reverse := by
        rw [← List.reverse_reverse inner, hsplit]
        simp
      exact ⟨['\x7b'], '\x7d' :: front.reverse, by rw [hinner]; rfl, isSeparator_of_last rfl rfl,
        fun _ => rfl⟩

theorem part_commaPieces {depth : Int} {begun cs piece : List Char}
    (h : piece ∈ commaPieces depth begun cs) : Part True piece (begun.reverse ++ cs) := by
  induction cs generalizing depth begun with
  | nil =>
      rw [List.mem_singleton.1 h]
      exact part_front _ trivial
  | cons c rest ih =>
      rw [commaPieces] at h
      split at h
      next hc =>
        rcases List.mem_cons.1 h with rfl | h
        · exact part_front _ (by rw [hc.1]; rfl)
        · have hcomma : ∀ d ∈ (begun.reverse ++ [c]).getLast?, isSeparator d :=
            isSeparator_of_last List.getLast?_concat (by rw [hc.1]; rfl)
          have hpart := (ih h).within (part_behind hcomma rest)
          rwa [List.append_assoc] at hpart
      · have hpart := ih h
        rwa [List.reverse_cons, List.append_assoc] at hpart

theorem part_splitTopLevel {cs piece : List Char} (h : piece ∈ splitTopLevel cs) :
    Part True piece cs :=
  part_commaPieces (List.mem_filter.1 h).1

/-! ## Use trees -/

/-- A group in the text of a use tree has no closing brace. -/
inductive Unclosed : List Char → Prop
  | here {cs inner : List Char} (group : strip (dropColons (strip cs)) = '\x7b' :: inner)
      (unclosed : '\x7d' ∉ inner) : Unclosed cs
  | inside {cs inner piece : List Char} (group : strip (dropColons (strip cs)) = '\x7b' :: inner)
      (mem : piece ∈ splitTopLevel (insideBraces inner)) (unclosed : Unclosed piece) : Unclosed cs

theorem part_tree (cs : List Char) : Part True (strip (dropColons (strip cs))) cs :=
  (part_strip _).within ((part_dropColons _).within (part_strip cs))

/-- A name that stands as a part of the text. -/
structure NamedPart (ends : Prop) (name : String) (cs : List Char) : Prop where
  isIdentifier : isIdentifier name.toList
  part : Part ends name.toList cs

theorem namedPart_of_identifier {cs rest : List Char} {name : String}
    (h : identifier cs = some (name, rest)) : NamedPart True name cs := by
  obtain ⟨hname, hbreaks, rfl⟩ := exists_of_identifier h
  exact ⟨hname, part_front _ hbreaks⟩

theorem NamedPart.within {ends : Prop} {name : String} {cs text : List Char}
    (h : NamedPart ends name cs) (htext : Part True cs text) : NamedPart ends name text :=
  ⟨h.isIdentifier, h.part.within htext⟩

theorem roots_behindPath {fuel : Nat} {nested : Bool} {first : String} {names : List String}
    {rest : List Char} : (behindPath fuel nested first names rest).roots ⊆ [first] := by
  have hroots : (if nested then [] else [first]) ⊆ [first] := by
    cases nested
    · exact List.Subset.refl _
    · exact List.nil_subset _
  unfold behindPath
  dsimp only
  split
  · split <;> exact hroots
  · exact hroots

/-- The roots in the text of a use tree stand in it, whole if all groups are closed. -/
theorem namedPart_of_mem_roots {fuel : Nat} {nested : Bool} {cs : List Char} {name : String}
    (h : name ∈ (readUseTree fuel nested cs).roots) : NamedPart (¬ Unclosed cs) name cs := by
  -- a group has the roots of its pieces, any other tree the first name in it
  induction fuel generalizing cs with
  | zero => cases h
  | succ fuel ih =>
      by_cases hgroup : ∃ inner, strip (dropColons (strip cs)) = '\x7b' :: inner
      · obtain ⟨inner, hgroup⟩ := hgroup
        rw [readUseTree_braces hgroup] at h
        obtain ⟨_, hnames, hname⟩ := List.mem_flatMap.1 h
        obtain ⟨piece, hpiece, rfl⟩ := List.mem_map.1 hnames
        obtain ⟨hidentifier, hpart⟩ := ih hname
        have hinner := (part_insideBraces inner).within (hgroup ▸ part_tree cs)
        refine ⟨hidentifier,
          ((hpart.within (part_splitTopLevel hpiece)).trans hinner).mono fun hclosed => ⟨?_, ?_⟩⟩
        · exact fun hunclosed => hclosed (.inside hgroup hpiece hunclosed)
        · exact not_not.1 fun hopen => hclosed (.here hgroup hopen)
      · rw [readUseTree_other rfl fun inner heq => hgroup ⟨inner, heq⟩] at h
        cases hfirst : identifier (strip (dropColons (strip cs))) with
        | none =>
            rw [hfirst] at h
            cases h
        | some found =>
            rw [hfirst] at h
            obtain rfl := List.mem_singleton.1 (roots_behindPath h)
            obtain ⟨hidentifier, hpart⟩ := (namedPart_of_identifier hfirst).within (part_tree cs)
            exact ⟨hidentifier, hpart.mono fun _ => trivial⟩

/-! ## Declarations -/

theorem part_of_keyword {word : String} {cs text rest : List Char} (hsuffix : text <:+ cs)
    (h : keyword word text = some rest) : Part True rest cs := by
  obtain ⟨front, rfl⟩ := hsuffix
  obtain ⟨gap, hgap, rfl⟩ := exists_of_keyword h
  have hlast : ∀ c ∈ (front ++ word.toList ++ gap).getLast?, isSeparator c := by
    rw [List.getLast?_append_of_ne_nil _ hgap.ne_nil]
    exact isSeparator_last hgap.blank
  have hpart := part_behind (P := True) hlast rest
  simpa only [List.append_assoc] using hpart

theorem part_of_treeText {cs text rest : List Char} (h : treeText cs = some (text, rest)) :
    Part True text cs := by
  unfold treeText at h
  split at h
  next hdrop =>
    obtain ⟨front, hfront, rfl⟩ := exists_of_dropWhile hdrop
    obtain ⟨rfl, rfl⟩ := Prod.mk.inj (Option.some.inj h)
    rw [takeWhile_mark hfront]
    exact part_front front rfl
  · cases h

theorem part_of_useDeclaration {cs text rest : List Char}
    (h : useDeclaration cs = some (text, rest)) : Part True text cs := by
  obtain ⟨behind, hkeyword, htext⟩ := Option.bind_eq_some_iff.1 ((behind_useDeclaration cs).symm.trans h)
  have hsuffix := (optionalVisibility_suffix _).trans (stripLeft_suffix cs)
  exact (part_of_treeText htext).within (part_of_keyword hsuffix hkeyword)

theorem namedPart_of_externCrate {cs rest : List Char} {name : String}
    (h : externCrate cs = some (name, rest)) : NamedPart True name cs := by
  obtain ⟨text, hextern, h⟩ := Option.bind_eq_some_iff.1 h
  obtain ⟨behind, hcrate, hname⟩ := Option.bind_eq_some_iff.1 h
  have hsuffix := (suffix_of_keyword hextern).trans
    ((skipAttributes_suffix _ _).trans (stripLeft_suffix cs))
  exact (namedPart_of_identifier hname).within (part_of_keyword hsuffix hcrate)

theorem exists_of_nextLine {cs rest : List Char} (h : nextLine cs = some rest) :
    ∃ line, cs = line ++ '\n' :: rest := by
  fun_induction nextLine cs with
  | case1 => cases h
  | case2 => exact ⟨[], by rw [Option.some.inj h, List.nil_append]⟩
  | case3 c cs _ ih =>
      obtain ⟨line, rfl⟩ := ih h
      exact ⟨c :: line, rfl⟩

theorem part_of_line (line rest : List Char) : Part True rest (line ++ '\n' :: rest) := by
  have hlast : ∀ c ∈ (line ++ ['\n']).getLast?, isSeparator c :=
    isSeparator_of_last List.getLast?_concat rfl
  have hpart := part_behind (P := True) hlast rest
  rwa [List.append_assoc] at hpart

/-- What is found at a line start is read there. -/
theorem exists_of_mem_atLineStarts {α : Type} {rel : α → α → Prop}
    {read : List Char → Option (α × List Char)} (hread : Finder rel read) {cs : List Char}
    {found : α} (h : found ∈ atLineStarts read cs) :
    ∃ text rest, Part True text cs ∧ read text = some (found, rest) := by
  fun_induction atLineStarts read cs with
  | case1 cs own rest hown after hafter hlt ih =>
      rcases List.mem_cons.1 h with rfl | h
      · exact ⟨cs, rest, .refl cs, hown⟩
      · obtain ⟨text, left, hpart, htext⟩ := ih h
        obtain ⟨front, rfl⟩ := hread.suffix _ _ _ hown
        obtain ⟨line, rfl⟩ := exists_of_nextLine hafter
        refine ⟨text, left, hpart.within ?_, htext⟩
        rw [← List.append_assoc]
        exact part_of_line (front ++ line) after
  | case2 cs own rest hown | case3 cs own rest hown =>
      obtain rfl := List.mem_singleton.1 h
      exact ⟨cs, rest, .refl cs, hown⟩
  | case4 cs _ after hafter ih =>
      obtain ⟨text, left, hpart, htext⟩ := ih h
      obtain ⟨line, rfl⟩ := exists_of_nextLine hafter
      exact ⟨text, left, hpart.within (part_of_line line after), htext⟩
  | case5 => cases h

/-! ## Roots -/

/-- The name is taken of the word at the front of the text, or it is the front of a literal. -/
inductive AtFront (name : List Char) : List Char → Prop
  | word {word after : List Char} (read : readToken false (word ++ after) = some (.word, after))
      (taken : Taken name word) : AtFront name (word ++ after)
  | literal {after : List Char} (begins : BeginsLiteral name after) : AtFront name (name ++ after)

theorem atFront_name {name after : List Char} (hname : isIdentifier name) (hbreaks : Breaks after) :
    AtFront name (name ++ after) := by
  by_cases hliteral : BeginsLiteral name after
  · exact .literal hliteral
  · -- the word of the lexer may go on behind the name, with letters beyond ASCII
    have hread := readToken_name hname hbreaks hliteral
    have hsplit := List.takeWhile_append_dropWhile (p := isIdentifierContinue) (l := after)
    have htaken : Taken name (name ++ after.takeWhile isIdentifierContinue) := by
      cases htake : after.takeWhile isIdentifierContinue with
      | nil =>
          rw [List.append_nil]
          exact .whole (isRustIdentifier_of_isIdentifier hname)
      | cons c rest =>
          rw [htake] at hsplit
          refine .cut (List.mem_takeWhile_imp (htake ▸ List.mem_cons_self)) ?_
          rw [← hsplit] at hbreaks
          exact hbreaks
    have hword : AtFront name ((name ++ after.takeWhile isIdentifierContinue) ++
        after.dropWhile isIdentifierContinue) := by
      refine .word ?_ htaken
      rw [List.append_assoc, hsplit]
      exact hread
    rwa [List.append_assoc, hsplit] at hword

/-- **Where a root stands.** In a syntax tree it is taken of a word among the tokens. In a scan it
stands in the text without comments, behind a separator, and is taken of the word there, or it has
lost its end with that of a group that is not closed. -/
inductive Stands (source name : String) : Strategy → Prop
  | token {tokens : List Token} {token : Token} (lexed : Token.lex source = some tokens)
      (mem : token ∈ tokens) (word : token.kind = .word)
      (taken : Taken name.toList token.text.toList) : Stands source name .structural
  | text {before rest : List Char} (split : removeComments source.toList = before ++ rest)
      (behind : ∀ c ∈ before.getLast?, isSeparator c) (front : AtFront name.toList rest) :
      Stands source name .textual
  | truncated {before after tree : List Char}
      (split : removeComments source.toList = before ++ (name.toList ++ after))
      (behind : ∀ c ∈ before.getLast?, isSeparator c)
      (mem : tree ∈ atLineStarts useDeclaration (removeComments source.toList))
      (unclosed : Unclosed tree) (inside : Part False name.toList tree) : Stands source name .textual

theorem stands_of_named {source name : String} {tokens : List Token}
    (hlex : Token.lex source = some tokens) (h : Named tokens name) :
    Stands source name .structural := by
  cases h with
  | whole mem word text =>
      exact .token hlex mem word (text ▸ taken_of_eq ((looks_lex hlex _ mem).1 word))
  | @head token mem word text =>
      rcases word with hword | hvariable
      · exact .token hlex mem hword (taken_of_asciiHead ((looks_lex hlex token mem).1 hword) text)
      · -- a macro variable begins with its mark, and no name does
        have hmark := (looks_lex hlex token mem).2 hvariable
        unfold asciiHead at text
        split at text
        next hcons =>
          rw [hcons] at hmark
          cases hmark
          cases text
        · cases text

theorem stands_of_part {ends : Prop} {source name : String} (hends : ends)
    (h : NamedPart ends name (removeComments source.toList)) : Stands source name .textual := by
  obtain ⟨hidentifier, before, after, hsplit, hbehind, hbreaks⟩ := h
  exact .text hsplit hbehind (atFront_name hidentifier (hbreaks hends))

theorem stands_of_scan {source name : String} (h : name ∈ (Facts.scan source).crateRoots) :
    Stands source name .textual := by
  rcases List.mem_append.1 h with hcrate | huse
  · obtain ⟨text, rest, hpart, hread⟩ := exists_of_mem_atLineStarts finder_externCrate hcrate
    exact stands_of_part trivial ((namedPart_of_externCrate hread).within hpart)
  · obtain ⟨_, hnames, hname⟩ := List.mem_flatMap.1 huse
    obtain ⟨tree, htree, rfl⟩ := List.mem_map.1 hnames
    obtain ⟨text, rest, hpart, hread⟩ := exists_of_mem_atLineStarts finder_useDeclaration htree
    have hinside := namedPart_of_mem_roots hname
    have hnamed := hinside.within ((part_of_useDeclaration hread).within hpart)
    by_cases hunclosed : Unclosed tree
    · obtain ⟨-, before, after, hsplit, hbehind, -⟩ := hnamed
      exact .truncated hsplit hbehind htree hunclosed (hinside.part.mono False.elim)
    · exact stands_of_part hunclosed hnamed

/-- **No crate root is made up, but some are cut.** Whichever way a script is read, each of its
crate roots is taken of a word of the script: of a token of the tree, or of the word that stands
behind a separator in the text. It is the whole word, unless the word is not one of ASCII or has
the mark of a raw identifier, or, in the text, it is the front of a literal or a group is not
closed. -/
theorem stands_of_mem_crateRoots {structural : Bool} {source name : String}
    (h : name ∈ (findFacts structural source).1.crateRoots) :
    Stands source name (findFacts structural source).2 := by
  unfold findFacts at h ⊢
  split at h
  next items hparse =>
    have hitems : Item.parse? source = some items := by
      cases structural
      · cases hparse
      · exact hparse
    obtain ⟨tokens, hlex, hnamed⟩ := named_of_parse hitems h
    exact stands_of_named hlex hnamed
  · exact stands_of_scan h

/-! ### Roots of four scripts -/

/-- A script that imports from a crate with a plain name. -/
def plainRoot : String := "use serde::Serialize;\nfn main() \x7b\x7d\n"

/-- Its one root stands in it, for the tree and for the text. -/
theorem stands_plainRoot :
    ("serde" ∈ (findFacts true plainRoot).1.crateRoots ∧
      Stands plainRoot "serde" (findFacts true plainRoot).2) ∧
    ("serde" ∈ (findFacts false plainRoot).1.crateRoots ∧
      Stands plainRoot "serde" (findFacts false plainRoot).2) := by
  have htree : "serde" ∈ (findFacts true plainRoot).1.crateRoots := by decide +kernel
  have htext : "serde" ∈ (findFacts false plainRoot).1.crateRoots := by decide +kernel
  exact ⟨⟨htree, stands_of_mem_crateRoots htree⟩, ⟨htext, stands_of_mem_crateRoots htext⟩⟩

/-- The identifier in a word, without the mark of a raw one. -/
def bareWord : List Char → List Char
  | 'r' :: '#' :: rest => rest
  | cs => cs

/-- The name is an identifier among the tokens of the source. -/
def isWrittenIn (source name : String) : Bool :=
  (Token.lex source).any fun tokens =>
    tokens.any fun token => token.kind = .word && bareWord token.text.toList = name.toList

/-- A script that imports from a crate with a letter beyond ASCII. -/
def foreignRoot : String := "use na\u00efve::Kind;\nfn main() \x7b\x7d\n"

/-- A script that imports from a crate with the name of a keyword. -/
def rawRoot : String := "use r#type::Kind;\nfn main() \x7b\x7d\n"

/-- A script with a group that is not closed. -/
def openGroup : String := "use \x7balpha, beta;\nfn main() \x7b\x7d\n"

/-- The roots of these scripts are no identifiers of theirs: a word is cut before its first letter
beyond ASCII, a raw identifier leaves its mark, and a group that is not closed loses a letter. -/
theorem roots_not_written :
    ((findFacts true foreignRoot).1.crateRoots = ["na"] ∧
      (findFacts false foreignRoot).1.crateRoots = ["na"] ∧
      isWrittenIn foreignRoot "na" = false) ∧
    ((findFacts true rawRoot).1.crateRoots = ["r"] ∧
      (findFacts false rawRoot).1.crateRoots = ["r"] ∧ isWrittenIn rawRoot "r" = false) ∧
    ((findFacts true openGroup).2 = .textual ∧
      (findFacts true openGroup).1.crateRoots = ["alpha", "bet"] ∧
      isWrittenIn openGroup "bet" = false) := by
  decide +kernel

end RustScript.Source
