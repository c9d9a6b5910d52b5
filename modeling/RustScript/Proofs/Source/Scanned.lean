import RustScript.Proofs.Source.Reading
import RustScript.Proofs.Source.Readers

/-!
# What the scans find in a script that is laid out

One step over a line or a declaration for each of the three scans, and from the steps, by induction
on the layout, the whole run: the use declarations are found exactly and in their order, every module
and type that is declared is found, and no other one is, casts of unions aside.
-/

set_option autoImplicit false

namespace RustScript.Source

open RustScript.Rust RustScript.Text

/-! ## A declaration is read by its own reader -/

theorem pub_not_mem_keywords (d : Declaration) : "pub" ∉ d.keywords := by
  cases d with
  | use _ => exact show "pub" ∉ ["use"] by decide
  | module _ => exact show "pub" ∉ ["mod"] by decide
  | type _ => exact show "pub" ∉ "unsafe" :: typeKeywords by decide

section

variable {α : Type} {read inner : List Char → Option (α × List Char)}

/-- The reader comes to the first keyword of a declaration. -/
theorem BehindVisibility.written (h : BehindVisibility read inner) {d : Declaration}
    {chunk after : List Char} (hwrites : Writes d chunk after) :
    ∃ body, Body d body after ∧ body.length ≤ chunk.length ∧
      read (chunk ++ after) = inner (body ++ after) := by
  cases hwrites with
  | @front lead vis body _ hlead hvis hbody =>
      obtain ⟨w, rest, rfl, hkeyword, hword, hbreaks⟩ := hbody.front
      have hpub : w ≠ "pub" := fun heq => pub_not_mem_keywords d (heq ▸ hkeyword)
      have hvis' := hvis.mono fun _ => Scope.not_mem_close
      have hread := h.visible hlead hvis' hword (toList_ne hpub) (hbreaks after)
      refine ⟨_, hbody, ?_, ?_⟩
      · simp only [List.length_append]
        omega
      · simpa only [List.append_assoc] using hread

/-- What is read stands behind blanks and a visibility. -/
theorem BehindVisibility.exists_of_read (h : BehindVisibility read inner) {cs : List Char}
    {found : α × List Char} (hread : read cs = some found) :
    ∃ lead vis body, allBlank lead ∧ Visibility (')' ∉ ·) vis ∧ cs = lead ++ (vis ++ body) ∧
      inner body = some found := by
  obtain ⟨lead, hlead, hsplit⟩ := exists_blanks_append cs
  obtain ⟨vis, hvis, hbody⟩ := exists_optionalVisibility (stripLeft cs)
  exact ⟨lead, vis, _, hlead, hvis, by rw [← hbody, ← hsplit], (h cs) ▸ hread⟩

end

/-! ## Use declarations -/

theorem useDeclaration_writes {tree : UseTree} {chunk after : List Char}
    (h : Writes (.use tree) chunk after) :
    ∃ text, useDeclaration (chunk ++ after) = some (text, after) ∧
      useNames false text = textNames false tree := by
  obtain ⟨body, hbody, -, hread⟩ := behind_useDeclaration.written h
  cases hbody with
  | @use _ gap text back _ hgap hspells hback =>
      have hfree : ';' ∉ text ++ back := by
        intro hmem
        rcases List.mem_append.mp hmem with htext | hin
        · exact hspells.renders.not_mem_semicolon htext
        · exact Plain.of_blank hback ';' hin (by decide)
      have htext : treeText (text ++ (back ++ ';' :: after)) = some (text ++ back, after) := by
        unfold treeText
        rw [← List.append_assoc, dropWhile_mark hfree, takeWhile_mark hfree]
      refine ⟨text ++ back, ?_, ?_⟩
      · rw [hread]
        simp only [List.append_assoc, List.singleton_append]
        rw [keyword_append "use" _ hgap, hspells.renders.trimmed.stripLeft_append]
        exact htext
      · have hlength : text.length ≤ (text ++ back).length := by
          rw [List.length_append]
          omega
        have hnames := readUseTree_renders hspells.renders hlength false allBlank_nil hback
        rw [List.nil_append] at hnames
        exact hnames

theorem useDeclaration_of_not_opens {text : List Char} (h : ¬ Opens text) :
    useDeclaration text = none := by
  cases hread : useDeclaration text with
  | none => rfl
  | some found =>
      obtain ⟨lead, vis, body, hlead, hvis, rfl, hinner⟩ :=
        behind_useDeclaration.exists_of_read hread
      obtain ⟨rest, hkeyword, -⟩ := Option.bind_eq_some_iff.mp hinner
      obtain ⟨gap, hgap, rfl⟩ := exists_of_keyword hkeyword
      exact absurd (.use hlead hvis hgap) h

/-- The use tree that is declared, if there is one. -/
def Declaration.tree? : Declaration → Option UseTree
  | .use tree => some tree
  | _ => none

/-- **The use declarations are found in their order, and nothing else is.** -/
theorem useDeclarations_laid {ds : List Declaration} {cs : List Char} (h : Laid ds cs) :
    (atLineStarts useDeclaration cs).map (useNames false) =
      (ds.filterMap Declaration.tree?).map (textNames false) := by
  have hskips : ∀ {found later : List (List Char)}, Skips (fun _ => False) found later →
      found = later := by
    rintro found later ⟨extra, hextra, rfl⟩
    rw [List.eq_nil_iff_forall_not_mem.mpr hextra, List.nil_append]
  induction h with
  | nil =>
      rw [atLineStarts_nil reader_useDeclaration.nil]
      rfl
  | other hopens _ ih =>
      rw [atLineStarts_of_none reader_useDeclaration.nil (useDeclaration_of_not_opens hopens)]
      exact ih
  | @declared d ds chunk after hwrites _ ih =>
      cases d with
      | use tree =>
          obtain ⟨text, hread, hnames⟩ := useDeclaration_writes hwrites
          have hlength : after.length ≤ (chunk ++ after).length := by
            rw [List.length_append]
            omega
          rw [atLineStarts_of_some reader_useDeclaration.nil hread hlength, List.map_cons, hnames,
            ih]
          rfl
      | module name =>
          have hforeign : ∀ w ∈ ["mod"], w ∉ ["pub", "use"] := by decide
          rw [hskips (reader_useDeclaration.skips hwrites hforeign)]
          exact ih
      | type name =>
          have hforeign : ∀ w ∈ "unsafe" :: typeKeywords, w ∉ ["pub", "use"] := by decide
          rw [hskips (reader_useDeclaration.skips hwrites hforeign)]
          exact ih

/-! ## Modules and types -/

section

variable {read : List Char → Option (String × List Char)} {hot : List String}
  {spurious : String → Prop} {after : List Char}

/-- A declaration of another kind adds nothing but spurious names to what is found. -/
theorem mem_of_skips {found later : List String} (h : Skips spurious found later) {name : String}
    (hname : name ∈ found) : spurious name ∨ name ∈ later := by
  obtain ⟨extra, hextra, rfl⟩ := h
  exact (List.mem_append.mp hname).imp_left (hextra name)

/-- What is found later is found. -/
theorem Skips.mem {found later : List String} (h : Skips spurious found later) {name : String}
    (hname : name ∈ later) : name ∈ found := by
  obtain ⟨extra, -, rfl⟩ := h
  exact List.mem_append_right extra hname

/-- Behind a name that has been found, the rest of the declaration is passed over. -/
theorem skips_own (hread : Reader read hot spurious) {chunk rest : List Char} {own : String}
    (hown : read (chunk ++ after) = some (own, rest ++ after))
    (hlength : rest.length ≤ chunk.length)
    (hrest : ∀ front line, rest = front ++ '\n' :: line → Calm hot after line) :
    ∃ found, atLineStarts read (chunk ++ after) = own :: found ∧
      Skips spurious found (atLineStarts read (afterLine after)) := by
  have hshort : (rest ++ after).length ≤ (chunk ++ after).length := by
    simp only [List.length_append]
    omega
  refine ⟨_, atLineStarts_of_some hread.nil hown hshort, skips_lines hread.nil ?_⟩
  exact fun front line hsplit => hread.passes (hrest front line hsplit)

end

theorem moduleDeclaration_writes {name : String} {chunk after : List Char}
    (h : Writes (.module name) chunk after) :
    ∃ rest, moduleDeclaration (chunk ++ after) = some (name, rest ++ after) ∧
      rest.length ≤ chunk.length ∧ Calm ["pub", "mod"] after rest := by
  obtain ⟨body, hbody, hlength, hread⟩ := behind_moduleDeclaration.written h
  cases hbody with
  | @module _ gap back _ stop hgap hname hback hstop =>
      have htail : Tail ["pub", "mod"] after (back ++ [stop]) :=
        (Tail.behindModule hstop).blank_append hback
      have hbreaks : Breaks (back ++ [stop] ++ after) := htail.calm.breaks_append htail.breaks
      have hidentifier := identifier_append hname.identifier hbreaks
      refine ⟨back ++ [stop], ?_, ?_, htail.calm⟩
      · rw [hread]
        simp only [List.append_assoc] at hidentifier ⊢
        rw [keyword_append "mod" _ hgap, hname.isWord.trimmed.stripLeft_append]
        rw [String.ofList_toList] at hidentifier
        exact hidentifier
      · simp only [List.length_append] at hlength ⊢
        omega

theorem moduleDeclaration_of_not_opens {text : List Char} (h : ¬ Opens text) :
    moduleDeclaration text = none := by
  cases hread : moduleDeclaration text with
  | none => rfl
  | some found =>
      obtain ⟨lead, vis, body, hlead, hvis, rfl, hinner⟩ :=
        behind_moduleDeclaration.exists_of_read hread
      obtain ⟨rest, hkeyword, hname⟩ := Option.bind_eq_some_iff.mp hinner
      obtain ⟨gap, hgap, rfl⟩ := exists_of_keyword hkeyword
      obtain ⟨hidentifier, hbreaks, rfl⟩ := exists_of_identifier hname
      exact absurd (.module hlead hvis hgap hidentifier hbreaks) h

/-- **The declared modules are found**, and no other ones. -/
theorem mem_moduleDeclarations_laid {ds : List Declaration} {cs : List Char} (h : Laid ds cs)
    (name : String) : name ∈ atLineStarts moduleDeclaration cs ↔ .module name ∈ ds := by
  induction h with
  | nil =>
      rw [atLineStarts_nil reader_moduleDeclaration.nil]
      simp
  | other hopens _ ih =>
      rw [atLineStarts_of_none reader_moduleDeclaration.nil
        (moduleDeclaration_of_not_opens hopens)]
      exact ih
  | @declared d ds chunk after hwrites _ ih =>
      have hother : (∀ w ∈ d.keywords, w ∉ ["pub", "mod"]) → Declaration.module name ≠ d →
          (name ∈ atLineStarts moduleDeclaration (chunk ++ after) ↔ .module name ∈ d :: ds) := by
        intro hforeign hne
        have hskips := reader_moduleDeclaration.skips hwrites hforeign
        rw [List.mem_cons, or_iff_right hne, ← ih]
        exact ⟨fun hname => (mem_of_skips hskips hname).resolve_left id, hskips.mem⟩
      cases d with
      | use tree => exact hother (show ∀ w ∈ ["use"], w ∉ ["pub", "mod"] by decide) nofun
      | type other =>
          exact hother (show ∀ w ∈ "unsafe" :: typeKeywords, w ∉ ["pub", "mod"] by decide) nofun
      | module own =>
          obtain ⟨rest, hread, hlength, hcalm⟩ := moduleDeclaration_writes hwrites
          obtain ⟨found, hfound, hskips⟩ := skips_own reader_moduleDeclaration hread hlength
            fun _ _ hsplit => (hsplit ▸ hcalm).behind
          rw [hfound, List.mem_cons, List.mem_cons, Declaration.module.injEq, ← ih]
          exact or_congr_right
            ⟨fun hname => (mem_of_skips hskips hname).resolve_left id, hskips.mem⟩

theorem typeDeclaration_writes {name : String} {chunk after : List Char}
    (h : Writes (.type name) chunk after) :
    typeDeclaration (chunk ++ after) = some (name, after) := by
  obtain ⟨body, hbody, -, hread⟩ := behind_typeDeclaration.written h
  cases hbody with
  | @type kind _ safety gap _ hsafety hkind hgap hname hbreaks =>
      have hidentifier := identifier_append hname.identifier hbreaks
      rw [String.ofList_toList] at hidentifier
      have hword := isWord_typeKeyword hkind
      have hne : kind ≠ "unsafe" := by
        rintro rfl
        exact absurd hkind (by decide)
      have hkeyword := behindTypeKeyword_word hword
        (Breaks.gap_append hgap (name.toList ++ after)) hne
      rw [if_pos hkind, keyword_append kind _ hgap,
        hname.isWord.trimmed.stripLeft_append] at hkeyword
      rw [← behindTypeKeyword_safety hsafety hword (Breaks.gap_append hgap _) hne] at hkeyword
      rw [hread, typeName]
      simp only [List.append_assoc]
      rw [hkeyword]
      exact hidentifier

/-- The cast of a union is calm for a scan for types. -/
theorem cast_calm {lead gap rest : List Char} (hlead : allBlank lead) (hgap : Gap gap)
    (hrest : Breaks rest) :
    Calm typeHot rest (lead ++ ("union".toList ++ (gap ++ "as".toList))) := by
  have hlast : Calm typeHot rest "as".toList := .last (isWord_written (by decide)) (by decide) hrest
  have hfollows : Follows rest (gap ++ ("as".toList ++ [])) := .renamed hgap hrest
  rw [List.append_nil] at hfollows
  exact (Calm.union hfollows (Breaks.gap_append hgap _)
    (hlast.blank_append hgap.blank)).blank_append hlead

/-- Where no type is declared at most the cast of a union is found, and nothing is lost by it. -/
theorem mem_typeDeclarations_of_not_opens {text : List Char} (h : ¬ Opens text) {name : String}
    (has : name ≠ "as") : name ∈ atLineStarts typeDeclaration text ↔
      name ∈ atLineStarts typeDeclaration (afterLine text) := by
  cases hread : typeDeclaration text with
  | none =>
      rw [atLineStarts_of_none reader_typeDeclaration.nil hread]
  | some found =>
      obtain ⟨own, rest⟩ := found
      obtain ⟨lead, vis, body, hlead, hvis, rfl, hinner⟩ :=
        behind_typeDeclaration.exists_of_read hread
      obtain ⟨behind, hkeyword, hidentifier⟩ := Option.bind_eq_some_iff.mp hinner
      obtain ⟨safety, kind, gap, hsafety, hkind, hgap, rfl⟩ :=
        exists_of_behindTypeKeyword hkeyword
      obtain ⟨hown, hbreaks, rfl⟩ := exists_of_identifier hidentifier
      by_cases hcast : vis = [] ∧ safety = [] ∧ kind = "union" ∧ own = "as"
      · -- the cast ends where the name `as` does, and the lines up to there hold no declaration
        obtain ⟨rfl, rfl, rfl, rfl⟩ := hcast
        have htext : lead ++ ([] ++ ([] ++ ("union".toList ++ (gap ++ ("as".toList ++ rest))))) =
            (lead ++ ("union".toList ++ (gap ++ "as".toList))) ++ rest := by
          simp only [List.append_assoc, List.nil_append]
        rw [htext] at hread ⊢
        have hshort : rest.length ≤ ((lead ++ ("union".toList ++ (gap ++ "as".toList))) ++
            rest).length := by
          rw [List.length_append]
          omega
        have hskips := reader_typeDeclaration.skips_calm (cast_calm hlead hgap hbreaks)
        rw [atLineStarts_of_some reader_typeDeclaration.nil hread hshort, List.mem_cons,
          or_iff_right has]
        exact ⟨hskips.mem, fun hname => (mem_of_skips hskips hname).resolve_left has⟩
      · exact absurd (.type hlead hvis hsafety hkind hgap hown hbreaks hcast) h

/-- **The declared types are found**, and no other ones, but for the cast of a union. -/
theorem mem_typeDeclarations_laid {ds : List Declaration} {cs : List Char} (h : Laid ds cs)
    {name : String} (has : name ≠ "as") :
    name ∈ atLineStarts typeDeclaration cs ↔ .type name ∈ ds := by
  induction h with
  | nil =>
      rw [atLineStarts_nil reader_typeDeclaration.nil]
      simp
  | other hopens _ ih => rw [mem_typeDeclarations_of_not_opens hopens has, ih]
  | @declared d ds chunk after hwrites _ ih =>
      have hother : (∀ w ∈ d.keywords, w ∉ typeHot) → Declaration.type name ≠ d →
          (name ∈ atLineStarts typeDeclaration (chunk ++ after) ↔ .type name ∈ d :: ds) := by
        intro hforeign hne
        have hskips := reader_typeDeclaration.skips hwrites hforeign
        rw [List.mem_cons, or_iff_right hne, ← ih]
        exact ⟨fun hname => (mem_of_skips hskips hname).resolve_left has, hskips.mem⟩
      cases d with
      | use tree => exact hother (show ∀ w ∈ ["use"], w ∉ typeHot by decide) nofun
      | module other => exact hother (show ∀ w ∈ ["mod"], w ∉ typeHot by decide) nofun
      | type own =>
          have hread := typeDeclaration_writes hwrites
          have hown : typeDeclaration (chunk ++ after) = some (own, [] ++ after) := hread
          obtain ⟨found, hfound, hskips⟩ := skips_own reader_typeDeclaration hown (Nat.zero_le _)
            fun front line hsplit => by cases front <;> cases hsplit
          rw [hfound, List.mem_cons, List.mem_cons, Declaration.type.injEq, ← ih]
          exact or_congr_right
            ⟨fun hname => (mem_of_skips hskips hname).resolve_left has, hskips.mem⟩

end RustScript.Source
