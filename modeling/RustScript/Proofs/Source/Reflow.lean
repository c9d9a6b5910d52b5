import RustScript.Proofs.Source.Alike
import RustScript.Proofs.Source.Reading

/-!
# Scans of texts that differ in their line ends

A scan finds the same facts in alike texts (`scan_alike`). Three things are shown for this, one for
each part of the scan: what is found at the starts of lines is the same, a use tree has the same
names, and alike texts are alike without their comments.
-/

set_option autoImplicit false

namespace RustScript.Source

open RustScript.Text

/-! ## The starts of lines -/

theorem exists_feed {cs : List Char} (h : '\n' ∈ cs) :
    ∃ line rest, cs = line ++ '\n' :: rest ∧ ∀ behind, afterLine (cs ++ behind) = rest ++ behind := by
  obtain ⟨line, rest, rfl, hline⟩ := List.eq_append_cons_of_mem h
  refine ⟨line, rest, rfl, fun behind => ?_⟩
  rw [List.append_assoc, List.cons_append, afterLine_line _ hline]

theorem length_afterLine_lt {cs rest : List Char} (h : rest <:+ cs) (hne : cs ≠ []) :
    (afterLine rest).length < cs.length := by
  unfold afterLine
  cases hnext : nextLine rest with
  | none => exact List.length_pos_iff.mpr hne
  | some after =>
      rw [Option.getD_some]
      exact Nat.lt_of_lt_of_le (length_nextLine_lt hnext) h.length_le

theorem alike_afterLine {cs cs' : List Char} (h : Alike cs cs') :
    Alike (stripLeft (afterLine cs)) (stripLeft (afterLine cs')) := by
  induction h with
  | nil => exact .nil
  | @same c cs cs' h ih =>
      by_cases hc : c = '\n'
      · rw [hc]
        exact h.stripLeft
      · have hskip : ∀ rest, afterLine ([c] ++ rest) = afterLine rest := fun rest =>
          afterLine_append rest (by simpa using Ne.symm hc)
        show Alike (stripLeft (afterLine ([c] ++ cs))) (stripLeft (afterLine ([c] ++ cs')))
        rw [hskip, hskip]
        exact ih
  | @gap gap gap' _ _ hgap hgap' hsame h ih =>
      by_cases hfeed : '\n' ∈ gap
      · obtain ⟨line, rest, rfl, hbehind⟩ := exists_feed hfeed
        obtain ⟨line', rest', rfl, hbehind'⟩ := exists_feed (hsame.mp hfeed)
        have hrest := (allBlank_cons.mp (allBlank_append.mp hgap.blank).2).2
        have hrest' := (allBlank_cons.mp (allBlank_append.mp hgap'.blank).2).2
        rw [hbehind, hbehind', stripLeft_append_of_allBlank _ hrest,
          stripLeft_append_of_allBlank _ hrest']
        exact h.stripLeft
      · rw [afterLine_append _ hfeed, afterLine_append _ fun hfeed' => hfeed (hsame.mpr hfeed')]
        exact ih

section

variable {α : Type} {rel : α → α → Prop} {read : List Char → Option (α × List Char)}
  (hread : Finder rel read)

include hread

theorem Finder.starts_of_none {cs : List Char} (h : read cs = none) :
    atLineStarts read cs = atLineStarts read (afterLine cs) :=
  atLineStarts_of_none hread.nil h

theorem Finder.starts_of_some {cs rest : List Char} {found : α} (h : read cs = some (found, rest)) :
    atLineStarts read cs = found :: atLineStarts read (afterLine rest) :=
  atLineStarts_of_some hread.nil h (hread.suffix cs found rest h).length_le

/-- Blanks at the front do not matter, line feeds included. -/
theorem Finder.starts_blank_append {gap : List Char} (hgap : allBlank gap) (cs : List Char) :
    atLineStarts read (gap ++ cs) = atLineStarts read cs := by
  have hsame : ∀ {gap : List Char}, allBlank gap → read (gap ++ cs) = read cs := fun hgap => by
    rw [← hread.strip, stripLeft_append_of_allBlank _ hgap, hread.strip]
  cases hfound : read cs with
  | some found =>
      rw [hread.starts_of_some hfound, hread.starts_of_some ((hsame hgap).trans hfound)]
  | none =>
      -- nothing is found at the starts of blank lines, so the induction is on their length
      induction hlength : gap.length using Nat.strongRecOn generalizing gap with
      | ind n ih =>
          rw [hread.starts_of_none ((hsame hgap).trans hfound)]
          by_cases hfeed : '\n' ∈ gap
          · obtain ⟨line, rest, rfl, hbehind⟩ := exists_feed hfeed
            rw [hbehind]
            refine ih rest.length ?_ (allBlank_cons.mp (allBlank_append.mp hgap).2).2 rfl
            simp only [← hlength, List.length_append, List.length_cons]
            omega
          · rw [afterLine_append _ hfeed, ← hread.starts_of_none hfound]

theorem Finder.starts_strip (cs : List Char) :
    atLineStarts read (stripLeft cs) = atLineStarts read cs := by
  obtain ⟨gap, hgap, hsplit⟩ := exists_blanks_append cs
  rw [← hread.starts_blank_append hgap (stripLeft cs), ← hsplit]

/-- **In alike texts the same is found.** -/
theorem Finder.starts_alike {cs cs' : List Char} (h : Alike cs cs') :
    List.Forall₂ rel (atLineStarts read cs) (atLineStarts read cs') := by
  induction hlength : cs.length using Nat.strongRecOn generalizing cs cs' with
  | ind n ih =>
      have hnext : ∀ {rest rest' : List Char}, rest <:+ cs → cs ≠ [] → Alike rest rest' →
          List.Forall₂ rel (atLineStarts read (afterLine rest))
            (atLineStarts read (afterLine rest')) := by
        intro rest rest' hsuffix hne hrest
        rw [← hread.starts_strip, ← hread.starts_strip (afterLine rest')]
        refine ih _ ?_ (alike_afterLine hrest) rfl
        rw [← hlength]
        exact Nat.lt_of_le_of_lt (stripLeft_suffix _).length_le (length_afterLine_lt hsuffix hne)
      cases hfound : read cs with
      | some found =>
          obtain ⟨x, rest⟩ := found
          obtain ⟨⟨x', rest'⟩, hfound', hrel, hrest⟩ := hread.preserves cs cs' h _ hfound
          have hne : cs ≠ [] := by
            rintro rfl
            rw [hread.nil] at hfound
            cases hfound
          rw [hread.starts_of_some hfound, hread.starts_of_some hfound']
          exact .cons hrel (hnext (hread.suffix _ _ _ hfound) hne hrest)
      | none =>
          rw [hread.starts_of_none hfound,
            hread.starts_of_none (hread.preserves.eq_none h hfound)]
          by_cases hne : cs = []
          · subst hne
            rw [h.eq_nil]
            have hnil : atLineStarts read (afterLine []) = [] := atLineStarts_nil hread.nil
            rw [hnil]
            exact .nil
          · exact hnext List.suffix_rfl hne h

end

/-! ## Use trees -/

theorem commaPieces_blank_append {gap : List Char} (hgap : allBlank gap) (depth : Int)
    (piece rest : List Char) :
    commaPieces depth piece (gap ++ rest) = commaPieces depth (gap.reverse ++ piece) rest :=
  commaPieces_append_of_not_mem (not_mem_of_blank (by decide) hgap)
    (not_mem_of_blank (by decide) hgap) (not_mem_of_blank (by decide) hgap) depth piece rest

/-- Alike texts are split into alike pieces. -/
theorem commaPieces_alike {cs cs' : List Char} (h : Alike cs cs') {depth : Int}
    {piece piece' : List Char} (hpiece : Alike piece piece') :
    List.Forall₂ Alike (commaPieces depth piece cs) (commaPieces depth piece' cs') := by
  induction h generalizing depth piece piece' with
  | nil => exact .cons hpiece.reverse .nil
  | @same c cs cs' _ ih =>
      rw [commaPieces, commaPieces]
      by_cases hcut : c = ',' ∧ depth = 0
      · rw [if_pos hcut, if_pos hcut]
        exact .cons hpiece.reverse (ih .nil)
      · rw [if_neg hcut, if_neg hcut]
        exact ih (.same c hpiece)
  | @gap gap gap' _ _ hgap hgap' hsame _ ih =>
      have hends : Alike gap gap' := by
        rw [← List.append_nil gap, ← List.append_nil gap']
        exact .gap hgap hgap' hsame .nil
      rw [commaPieces_blank_append hgap.blank, commaPieces_blank_append hgap'.blank]
      exact ih (hends.reverse.append hpiece)

theorem length_of_mem_commaPieces {cs found : List Char} {depth : Int} {piece : List Char}
    (h : found ∈ commaPieces depth piece cs) : found.length ≤ piece.length + cs.length := by
  have hlength := length_le_intercalate h
  rwa [intercalate_commaPieces, List.length_append, List.length_reverse] at hlength

theorem splitTopLevel_alike {cs cs' : List Char} (h : Alike cs cs') :
    List.Forall₂ Alike (splitTopLevel cs) (splitTopLevel cs') := by
  refine List.rel_filter ?_ (commaPieces_alike h .nil)
  intro piece piece' hpiece
  have hblank := hpiece.allBlank_iff
  cases hleft : allBlank piece <;> cases hright : allBlank piece' <;> simp_all

/-- Stripping leaves no blank at the end. -/
theorem not_blank_of_strip {cs front : List Char} {c : Char} (h : strip cs = front ++ [c]) :
    isBlank c = false := by
  have hback : stripLeft (stripLeft cs).reverse = c :: front.reverse := by
    rw [← List.reverse_inj, List.reverse_cons, List.reverse_reverse]
    exact h
  exact not_blank_of_stripLeft hback

theorem not_blank_of_strip_cons {cs rest : List Char} {c : Char} (h : strip cs = c :: rest) :
    isBlank c = false := by
  have hprefix : strip cs <+: stripLeft cs := by
    rw [← List.reverse_suffix]
    show (stripRight (stripLeft cs)).reverse <:+ _
    unfold stripRight
    rw [List.reverse_reverse]
    exact List.dropWhile_suffix isBlank
  obtain ⟨behind, hbehind⟩ := hprefix
  rw [h, List.cons_append] at hbehind
  exact not_blank_of_stripLeft hbehind.symm

theorem insideBraces_alike {cs cs' : List Char} (h : Alike cs cs')
    (hend : ∀ front c, cs = front ++ [c] → isBlank c = false) :
    Alike (insideBraces cs) (insideBraces cs') := by
  unfold insideBraces
  obtain ⟨-, ⟨hnone, hnone'⟩ | ⟨before, before', hsome, hsome', hbefore⟩⟩ :=
    alike_mark (show isBlank '\x7d' = false by decide) h.reverse
  · simp only [hnone, hnone']
    -- without a closing brace the last character goes, which is the same in both
    rcases List.eq_nil_or_concat cs with rfl | ⟨front, c, hsplit⟩
    · rw [h.eq_nil]
      exact .nil
    · rw [List.concat_eq_append] at hsplit
      have hc := hend front c hsplit
      obtain ⟨front', rest', rfl, hfront, hrest⟩ := Alike.of_mark hc (hsplit ▸ h)
      rw [hrest.eq_nil, hsplit, List.dropLast_concat, List.dropLast_concat]
      exact hfront
  · simp only [hsome, hsome']
    exact hbefore.reverse

theorem length_insideBraces_le (cs : List Char) : (insideBraces cs).length ≤ cs.length := by
  unfold insideBraces
  split
  · next before hbefore =>
      have hlength := (List.dropWhile_suffix (· ≠ '\x7d') (l := cs.reverse)).length_le
      rw [hbefore, List.length_cons, List.length_reverse] at hlength
      rw [List.length_reverse]
      omega
  · rw [List.length_dropLast]
    exact Nat.sub_le _ _

theorem pathSegments_alike {fuel fuel' : Nat} {cs cs' : List Char} (h : Alike cs cs')
    (hfuel : cs.length ≤ fuel) (hfuel' : cs'.length ≤ fuel') :
    (pathSegments fuel cs).1 = (pathSegments fuel' cs').1 ∧
      Alike (pathSegments fuel cs).2 (pathSegments fuel' cs').2 := by
  have hnil : ∀ fuel, pathSegments fuel [] = ([], []) := fun fuel => by cases fuel <;> rfl
  induction fuel generalizing fuel' cs cs' with
  | zero =>
      obtain rfl := List.eq_nil_of_length_eq_zero (Nat.le_zero.mp hfuel)
      obtain rfl := h.eq_nil
      rw [hnil, hnil]
      exact ⟨rfl, .nil⟩
  | succ fuel ih =>
      cases fuel' with
      | zero =>
          obtain rfl := List.eq_nil_of_length_eq_zero (Nat.le_zero.mp hfuel')
          obtain rfl := h.symm.eq_nil
          rw [hnil, hnil]
          exact ⟨rfl, .nil⟩
      | succ fuel' =>
          unfold pathSegments
          cases hafter : afterPrefix [':', ':'] (stripLeft cs) with
          | none =>
              rw [preserves_colons.eq_none h.stripLeft hafter]
              exact ⟨rfl, h⟩
          | some after =>
              obtain ⟨after', hafter', halike⟩ := preserves_colons _ _ h.stripLeft after hafter
              rw [hafter']
              dsimp only
              cases hname : identifier (stripLeft after) with
              | none =>
                  rw [preserves_identifier.eq_none halike.stripLeft hname]
                  exact ⟨rfl, h⟩
              | some found =>
                  obtain ⟨segment, rest⟩ := found
                  obtain ⟨⟨_, rest'⟩, hname', rfl, hrest⟩ :=
                    preserves_identifier _ _ halike.stripLeft _ hname
                  have hshort : ∀ {cs after rest : List Char},
                      afterPrefix [':', ':'] (stripLeft cs) = some after →
                      identifier (stripLeft after) = some (segment, rest) →
                      rest.length + 2 ≤ cs.length := by
                    intro cs after rest hafter hname
                    have hcs := (stripLeft_suffix cs).length_le
                    have hrest := (suffix_of_identifier hname).length_le
                    have hsuffix := (stripLeft_suffix after).length_le
                    rw [eq_append_of_afterPrefix hafter, List.length_append] at hcs
                    simp only [List.length_cons, List.length_nil] at hcs
                    omega
                  have hlength := hshort hafter hname
                  have hlength' := hshort hafter' hname'
                  have hleft : Alike rest rest' := hrest
                  have hmore : (pathSegments fuel rest).1 = (pathSegments fuel' rest').1 ∧
                      Alike (pathSegments fuel rest).2 (pathSegments fuel' rest').2 :=
                    ih hleft (by omega) (by omega)
                  simp only [hname']
                  exact ⟨by rw [hmore.1], hmore.2⟩

theorem pathSegments_suffix (fuel : Nat) (cs : List Char) : (pathSegments fuel cs).2 <:+ cs := by
  induction fuel generalizing cs with
  | zero => exact List.suffix_rfl
  | succ fuel ih =>
      unfold pathSegments
      split
      · exact List.suffix_rfl
      · next after hafter =>
          split
          · exact List.suffix_rfl
          · next segment rest hname =>
              have hcolons : after <:+ stripLeft cs := ⟨_, (eq_append_of_afterPrefix hafter).symm⟩
              exact (ih rest).trans ((suffix_of_identifier hname).trans
                ((stripLeft_suffix after).trans (hcolons.trans (stripLeft_suffix cs))))

/-- A tree in braces is read by its pieces. -/
theorem readUseTree_braces {cs inner : List Char} (h : strip (dropColons (strip cs)) = '\x7b' :: inner)
    (fuel : Nat) (nested : Bool) : readUseTree (fuel + 1) nested cs =
      .concat ((splitTopLevel (insideBraces inner)).map (readUseTree fuel nested)) := by
  rw [readUseTree]
  simp only [h]

/-- Any other tree is read by the path that it begins with. -/
theorem readUseTree_other {cs tree : List Char} (h : strip (dropColons (strip cs)) = tree)
    (hbrace : ∀ inner, tree ≠ '\x7b' :: inner) (fuel : Nat) (nested : Bool) :
    readUseTree (fuel + 1) nested cs = (identifier tree).elim ⟨[], []⟩ fun found =>
      behindPath fuel nested found.1 (pathSegments found.2.length found.2).1
        (strip (pathSegments found.2.length found.2).2) := by
  rw [readUseTree]
  cases hidentifier : identifier tree with
  | none => simp only [h, hidentifier, Option.elim_none]
  | some found =>
      simp only [h, hidentifier, Option.elim_some]
      rfl

theorem boundName_alike (nested : Bool) (first : String) (segments : List String)
    {rest rest' : List Char} (h : Alike rest rest') :
    boundName nested first segments rest = boundName nested first segments rest' := by
  have hname : Preserves (Finds Eq) fun cs => keyword "as" cs >>= identifier :=
    (preserves_keyword (isWord_written (by decide))).bind preserves_identifier
  unfold boundName
  cases hread : keyword "as" rest >>= identifier with
  | none => rw [hname.eq_none h hread]
  | some found =>
      obtain ⟨found', hread', hsame, -⟩ := hname _ _ h found hread
      have hother : keyword "as" rest' >>= identifier = some found' := hread'
      obtain ⟨other, _⟩ := found
      obtain ⟨other', _⟩ := found'
      obtain rfl : other = other' := hsame
      rw [hother]

theorem dropColons_alike {cs cs' : List Char} (h : Alike cs cs') :
    Alike (dropColons cs) (dropColons cs') := by
  exact preserves_colons.getD h

theorem dropColons_suffix (cs : List Char) : dropColons cs <:+ cs := by
  unfold dropColons
  cases h : afterPrefix [':', ':'] cs with
  | none => exact List.suffix_rfl
  | some rest => exact ⟨_, (eq_append_of_afterPrefix h).symm⟩

theorem length_strip_le (cs : List Char) : (strip cs).length ≤ cs.length := by
  have hright : (strip cs).length ≤ (stripLeft cs).length := by
    unfold strip stripRight
    rw [List.length_reverse]
    exact (stripLeft_suffix (stripLeft cs).reverse).length_le.trans_eq List.length_reverse
  exact hright.trans (stripLeft_suffix cs).length_le

/-- A text is no longer without blanks and colons around it. -/
theorem length_trimmed_le (cs : List Char) :
    (strip (dropColons (strip cs))).length ≤ cs.length :=
  calc (strip (dropColons (strip cs))).length
      ≤ (dropColons (strip cs)).length := length_strip_le _
    _ ≤ (strip cs).length := (dropColons_suffix _).length_le
    _ ≤ cs.length := length_strip_le cs

/-- Below a path and `::` a group is read as a tree of its own. -/
theorem behindPath_alike {fuel fuel' : Nat} {nested : Bool} {first : String}
    {names : List String} {rest rest' : List Char} (h : Alike rest rest')
    (hgroup : ∀ inner inner', Alike inner inner' → inner.length < rest.length →
      inner'.length < rest'.length →
      readUseTree fuel true inner = readUseTree fuel' true inner') :
    behindPath fuel nested first names rest = behindPath fuel' nested first names rest' := by
  unfold behindPath
  cases hread : afterPrefix [':', ':'] rest with
  | none =>
      rw [preserves_colons.eq_none h hread]
      exact congrArg (UseNames.mk _) (boundName_alike nested first names h)
  | some behind =>
      obtain ⟨behind', hread', hbehind⟩ := preserves_colons _ _ h behind hread
      rw [hread']
      have hlength : ∀ {rest behind : List Char}, afterPrefix [':', ':'] rest = some behind →
          (strip behind).length < rest.length := by
        intro rest behind hread
        have hstrip := length_strip_le behind
        rw [eq_append_of_afterPrefix hread]
        simp only [List.cons_append, List.nil_append, List.length_cons]
        omega
      have hshort := hlength hread
      have hshort' := hlength hread'
      have htree := hbehind.strip
      dsimp only
      cases htext : strip behind with
      | nil =>
          rw [htext] at htree
          rw [htree.eq_nil]
      | cons c inner =>
          have hc := not_blank_of_strip_cons htext
          rw [htext] at htree hshort
          obtain ⟨inner', htext', hinner⟩ := htree.of_cons hc
          rw [htext'] at hshort' ⊢
          by_cases hbrace : c = '\x7b'
          · subst hbrace
            exact congrArg (UseNames.mk _ ∘ UseNames.bindings)
              (hgroup _ _ (.same _ hinner) hshort hshort')
          · generalize (if nested = true then [] else [first]) = roots
            split
            · next heq => exact absurd (List.cons.inj heq).1 hbrace
            · split
              · next heq => exact absurd (List.cons.inj heq).1 hbrace
              · rfl

/-- Functions that agree on alike texts give the same of lists of them. -/
theorem map_eq_map {α : Type} {f g : List Char → α} {texts texts' : List (List Char)}
    (h : List.Forall₂ Alike texts texts')
    (heq : ∀ text text', text ∈ texts → text' ∈ texts' → Alike text text' → f text = g text') :
    texts.map f = texts'.map g := by
  induction h with
  | nil => rfl
  | cons halike _ ih =>
      rw [List.map_cons, List.map_cons, heq _ _ List.mem_cons_self List.mem_cons_self halike,
        ih fun text text' hmem hmem' =>
          heq text text' (List.mem_cons_of_mem _ hmem) (List.mem_cons_of_mem _ hmem')]

/-- **Alike texts name the same in use trees.** -/
theorem readUseTree_alike {fuel fuel' : Nat} {nested : Bool} {cs cs' : List Char} (h : Alike cs cs')
    (hfuel : cs.length < fuel) (hfuel' : cs'.length < fuel') :
    readUseTree fuel nested cs = readUseTree fuel' nested cs' := by
  induction fuel generalizing fuel' nested cs cs' with
  | zero => cases hfuel
  | succ fuel ih =>
      obtain ⟨fuel', rfl⟩ : ∃ n, fuel' = n + 1 := Nat.exists_eq_succ_of_ne_zero (by omega)
      have htree := (dropColons_alike h.strip).strip
      have hlength := length_trimmed_le cs
      have hlength' := length_trimmed_le cs'
      cases hcs : strip (dropColons (strip cs)) with
      | nil =>
          rw [hcs] at htree
          rw [readUseTree_other hcs nofun, readUseTree_other htree.eq_nil nofun]
          rfl
      | cons c inner =>
          rw [hcs] at htree hlength
          obtain ⟨inner', hcs', hinner⟩ := htree.of_cons (not_blank_of_strip_cons hcs)
          rw [hcs'] at htree hlength'
          by_cases hbrace : c = '\x7b'
          · subst hbrace
            rw [readUseTree_braces hcs, readUseTree_braces hcs']
            refine congrArg UseNames.concat ?_
            have hend : ∀ front last, inner = front ++ [last] → isBlank last = false := by
              rintro front last rfl
              exact not_blank_of_strip ((List.cons_append ▸ hcs : _ = ('\x7b' :: front) ++ [last]))
            have hshort : ∀ {inner piece : List Char}, piece ∈ splitTopLevel (insideBraces inner) →
                piece.length ≤ inner.length := by
              intro inner piece hpiece
              have hlength := length_of_mem_commaPieces (List.mem_of_mem_filter hpiece)
              have hinside := length_insideBraces_le inner
              rw [List.length_nil] at hlength
              omega
            rw [List.length_cons] at hlength hlength'
            refine map_eq_map (splitTopLevel_alike (insideBraces_alike hinner hend)) ?_
            intro piece piece' hpiece hpiece' halike
            have hle := hshort hpiece
            have hle' := hshort hpiece'
            exact ih halike (by omega) (by omega)
          · have hother : ∀ {inner : List Char}, ∀ rest, c :: inner ≠ '\x7b' :: rest := fun rest heq =>
              hbrace (List.cons.inj heq).1
            rw [readUseTree_other hcs hother, readUseTree_other hcs' hother]
            cases hname : identifier (c :: inner) with
            | none => rw [preserves_identifier.eq_none htree hname, Option.elim_none, Option.elim_none]
            | some found =>
                obtain ⟨first, rest⟩ := found
                obtain ⟨⟨_, rest'⟩, hname', rfl, halike⟩ := preserves_identifier _ _ htree _ hname
                have hrest : Alike rest rest' := halike
                rw [hname', Option.elim_some, Option.elim_some]
                obtain ⟨hnames, hleft⟩ :=
                  pathSegments_alike hrest (Nat.le_refl _) (Nat.le_refl _)
                dsimp only
                rw [hnames]
                have hshort : ∀ {tree rest : List Char}, identifier tree = some (first, rest) →
                    (strip (pathSegments rest.length rest).2).length ≤ tree.length := fun hname =>
                  (length_strip_le _).trans ((pathSegments_suffix _ _).length_le.trans
                    (suffix_of_identifier hname).length_le)
                have hfirst := hshort hname
                have hfirst' := hshort hname'
                exact behindPath_alike hleft.strip fun inner inner' hin hlt hlt' =>
                  ih hin (by omega) (by omega)

theorem useNames_alike (nested : Bool) {cs cs' : List Char} (h : Alike cs cs') :
    useNames nested cs = useNames nested cs' :=
  readUseTree_alike h (Nat.lt_succ_self _) (Nat.lt_succ_self _)

/-! ## Comments -/

theorem afterClose_cons {c : Char} (hc : c ≠ '*') (cs : List Char) :
    afterClose (c :: cs) = afterClose cs := by
  rw [afterClose]
  rintro _ rfl
  exact absurd rfl hc

theorem afterClose_blank_append {gap : List Char} (hgap : allBlank gap) (cs : List Char) :
    afterClose (gap ++ cs) = afterClose cs := by
  induction gap with
  | nil => rfl
  | cons c gap ih =>
      obtain ⟨hc, hgap⟩ := allBlank_cons.mp hgap
      have hstar : c ≠ '*' := by
        rintro rfl
        cases hc
      rw [List.cons_append, afterClose_cons hstar, ih hgap]

theorem preserves_afterClose : Preserves Alike afterClose := by
  intro cs cs' halike rest hrest
  induction halike with
  | nil => cases hrest
  | @same c cs cs' h ih =>
      by_cases hclose : ∃ after, c = '*' ∧ cs = '/' :: after
      · obtain ⟨after, rfl, rfl⟩ := hclose
        obtain ⟨after', rfl, hafter⟩ := h.of_cons (by decide)
        rw [afterClose] at hrest
        rw [afterClose, ← Option.some.inj hrest]
        exact ⟨after', rfl, hafter⟩
      · have hskip : ∀ {text : List Char}, (¬ ∃ after, c = '*' ∧ text = '/' :: after) →
            afterClose (c :: text) = afterClose text := by
          intro text hother
          rw [afterClose]
          exact fun after hc htext => hother ⟨after, hc, htext⟩
        have hclose' : ¬ ∃ after, c = '*' ∧ cs' = '/' :: after := by
          rintro ⟨after', hc, rfl⟩
          obtain ⟨after, hafter, -⟩ := h.symm.of_cons (by decide)
          exact hclose ⟨after, hc, hafter⟩
        rw [hskip hclose] at hrest
        rw [hskip hclose']
        exact ih hrest
  | gap hgap hgap' _ _ ih =>
      rw [afterClose_blank_append hgap.blank] at hrest
      rw [afterClose_blank_append hgap'.blank]
      exact ih hrest

/-- A block comment opens here. -/
def OpensComment (cs : List Char) : Prop := ∃ rest, cs = '/' :: '*' :: rest

theorem removeBlockComments_cons {c : Char} {cs : List Char} (h : ¬ OpensComment (c :: cs)) :
    removeBlockComments (c :: cs) = c :: removeBlockComments cs := by
  rw [removeBlockComments]
  rintro rest rfl rfl
  exact h ⟨rest, rfl⟩

theorem removeBlockComments_of_afterClose {inner rest : List Char}
    (h : afterClose inner = some rest) :
    removeBlockComments ('/' :: '*' :: inner) = removeBlockComments rest := by
  rw [removeBlockComments]
  split <;> simp_all

theorem removeBlockComments_blank_append {gap : List Char} (hgap : allBlank gap)
    (cs : List Char) : removeBlockComments (gap ++ cs) = gap ++ removeBlockComments cs := by
  induction gap with
  | nil => rfl
  | cons c gap ih =>
      obtain ⟨hc, hgap⟩ := allBlank_cons.mp hgap
      have hslash : ¬ OpensComment (c :: (gap ++ cs)) := by
        rintro ⟨rest, heq⟩
        rw [(List.cons.inj heq).1] at hc
        cases hc
      rw [List.cons_append, removeBlockComments_cons hslash, ih hgap, List.cons_append]

theorem removeBlockComments_alike {cs cs' : List Char} (h : Alike cs cs') :
    Alike (removeBlockComments cs) (removeBlockComments cs') := by
  induction hlength : cs.length using Nat.strongRecOn generalizing cs cs' with
  | ind n ih =>
      by_cases hopen : OpensComment cs
      · obtain ⟨rest, rfl⟩ := hopen
        obtain ⟨_, rfl, hstar⟩ := h.of_cons (by decide)
        obtain ⟨rest', rfl, hrest⟩ := hstar.of_cons (by decide)
        simp only [List.length_cons] at hlength
        rw [removeBlockComments, removeBlockComments]
        cases hclose : afterClose rest with
        | none =>
            rw [preserves_afterClose.eq_none hrest hclose]
            refine .same '/' (ih _ ?_ hstar rfl)
            rw [← hlength, List.length_cons]
            omega
        | some after =>
            obtain ⟨after', hclose', hafter⟩ := preserves_afterClose _ _ hrest after hclose
            rw [hclose']
            have hshort := length_afterClose_lt hclose
            exact ih _ (by omega) hafter rfl
      · cases h with
        | nil => exact .refl _
        | @same c rest rest' h =>
            have hopen' : ¬ OpensComment (c :: rest') := by
              rintro ⟨behind, heq⟩
              obtain ⟨rfl, rfl⟩ := List.cons.inj heq
              obtain ⟨behind', rfl, -⟩ := h.symm.of_cons (by decide)
              exact hopen ⟨behind', rfl⟩
            rw [removeBlockComments_cons hopen, removeBlockComments_cons hopen']
            rw [List.length_cons] at hlength
            exact .same c (ih _ (by omega) h rfl)
        | @gap gap gap' rest rest' hgap hgap' hsame h =>
            rw [removeBlockComments_blank_append hgap.blank,
              removeBlockComments_blank_append hgap'.blank]
            have hpos := List.length_pos_iff.mpr hgap.ne_nil
            rw [List.length_append] at hlength
            exact .gap hgap hgap' hsame (ih _ (by omega) h rfl)

/-- A line comment opens here. -/
def OpensLineComment (cs : List Char) : Prop := ∃ rest, cs = '/' :: '/' :: rest

/-- Inside a line comment everything up to the line feed goes. -/
theorem removeLineComments_inside (c : Char) (cs : List Char) :
    removeLineComments true (c :: cs) =
      if c = '\n' then '\n' :: removeLineComments false cs else removeLineComments true cs := by
  by_cases hopen : OpensLineComment (c :: cs)
  · obtain ⟨rest, heq⟩ := hopen
    obtain ⟨rfl, rfl⟩ := List.cons.inj heq
    rfl
  · have hslash : ∀ rest, c = '/' → cs = '/' :: rest → False := by
      rintro rest rfl rfl
      exact hopen ⟨rest, rfl⟩
    by_cases hfeed : c = '\n'
    · subst hfeed
      rfl
    · rw [if_neg hfeed, removeLineComments, if_pos (by simp [hfeed])]
      exact hslash

theorem removeLineComments_cons {c : Char} {cs : List Char} (h : ¬ OpensLineComment (c :: cs)) :
    removeLineComments false (c :: cs) = c :: removeLineComments false cs := by
  rw [removeLineComments]
  · rfl
  · rintro rest rfl rfl
    exact h ⟨rest, rfl⟩

theorem removeLineComments_blank_append {gap : List Char} (hgap : allBlank gap)
    (cs : List Char) : removeLineComments false (gap ++ cs) = gap ++ removeLineComments false cs := by
  induction gap with
  | nil => rfl
  | cons c gap ih =>
      obtain ⟨hc, hgap⟩ := allBlank_cons.mp hgap
      have hslash : ¬ OpensLineComment (c :: (gap ++ cs)) := by
        rintro ⟨rest, heq⟩
        rw [(List.cons.inj heq).1] at hc
        cases hc
      rw [List.cons_append, removeLineComments_cons hslash, ih hgap, List.cons_append]

theorem removeLineComments_inside_append {line : List Char} (hline : '\n' ∉ line)
    (cs : List Char) : removeLineComments true (line ++ cs) = removeLineComments true cs := by
  induction line with
  | nil => rfl
  | cons c line ih =>
      have hc : c ≠ '\n' := fun hc => hline (hc ▸ List.mem_cons_self)
      rw [List.cons_append, removeLineComments_inside, if_neg hc]
      exact ih fun hmem => hline (List.mem_cons_of_mem c hmem)

theorem removeLineComments_alike {cs cs' : List Char} (h : Alike cs cs') (inside : Bool) :
    Alike (removeLineComments inside cs) (removeLineComments inside cs') := by
  induction hlength : cs.length using Nat.strongRecOn generalizing inside cs cs' with
  | ind n ih =>
      cases h with
      | nil => exact .refl _
      | @same c rest rest' h =>
          rw [List.length_cons] at hlength
          cases inside with
          | true =>
              rw [removeLineComments_inside, removeLineComments_inside]
              by_cases hfeed : c = '\n'
              · rw [if_pos hfeed, if_pos hfeed]
                exact .same '\n' (ih _ (by omega) h false rfl)
              · rw [if_neg hfeed, if_neg hfeed]
                exact ih _ (by omega) h true rfl
          | false =>
              by_cases hopen : OpensLineComment (c :: rest)
              · obtain ⟨behind, heq⟩ := hopen
                obtain ⟨rfl, rfl⟩ := List.cons.inj heq
                obtain ⟨behind', rfl, hbehind⟩ := h.of_cons (by decide)
                rw [List.length_cons] at hlength
                exact ih _ (by omega) hbehind true rfl
              · have hopen' : ¬ OpensLineComment (c :: rest') := by
                  rintro ⟨behind, heq⟩
                  obtain ⟨rfl, rfl⟩ := List.cons.inj heq
                  obtain ⟨behind', rfl, -⟩ := h.symm.of_cons (by decide)
                  exact hopen ⟨behind', rfl⟩
                rw [removeLineComments_cons hopen, removeLineComments_cons hopen']
                exact .same c (ih _ (by omega) h false rfl)
      | @gap gap gap' rest rest' hgap hgap' hsame h =>
          have hpos := List.length_pos_iff.mpr hgap.ne_nil
          rw [List.length_append] at hlength
          have hrest : Alike (removeLineComments false rest) (removeLineComments false rest') :=
            ih _ (by omega) h false rfl
          cases inside with
          | false =>
              rw [removeLineComments_blank_append hgap.blank,
                removeLineComments_blank_append hgap'.blank]
              exact .gap hgap hgap' hsame hrest
          | true =>
              by_cases hfeed : '\n' ∈ gap
              · -- the blanks in front of the first line feed belong to the comment
                have hblanks : ∀ {gap : List Char} (rest : List Char), allBlank gap → '\n' ∈ gap →
                    ∃ behind, allBlank behind ∧ removeLineComments true (gap ++ rest) =
                      ('\n' :: behind) ++ removeLineComments false rest := by
                  intro gap rest hgap hfeed
                  obtain ⟨line, behind, rfl, hline⟩ := List.eq_append_cons_of_mem hfeed
                  have hbehind := (allBlank_cons.mp (allBlank_append.mp hgap).2).2
                  refine ⟨behind, hbehind, ?_⟩
                  rw [List.append_assoc, removeLineComments_inside_append hline, List.cons_append,
                    removeLineComments_inside, if_pos rfl, removeLineComments_blank_append hbehind,
                    List.cons_append]
                obtain ⟨behind, hbehind, htext⟩ := hblanks rest hgap.blank hfeed
                obtain ⟨behind', hbehind', htext'⟩ := hblanks rest' hgap'.blank (hsame.mp hfeed)
                rw [htext, htext']
                exact .feed (allBlank_cons.mpr ⟨rfl, hbehind⟩) (allBlank_cons.mpr ⟨rfl, hbehind'⟩)
                  List.mem_cons_self List.mem_cons_self hrest
              · -- otherwise they all do
                rw [removeLineComments_inside_append hfeed,
                  removeLineComments_inside_append fun hfeed' => hfeed (hsame.mpr hfeed')]
                exact ih _ (by omega) h true rfl

/-- Alike texts are alike without their comments. -/
theorem removeComments_alike {cs cs' : List Char} (h : Alike cs cs') :
    Alike (removeComments cs) (removeComments cs') :=
  removeLineComments_alike (removeBlockComments_alike h) false

/-! ## The whole scan -/

theorem eq_of_forall₂_eq {α : Type} {xs ys : List α} (h : List.Forall₂ Eq xs ys) : xs = ys :=
  List.forall₂_eq_eq_eq ▸ h

theorem useDeclarations_alike {cs cs' : List Char} (h : Alike cs cs') :
    useDeclarations cs = useDeclarations cs' := by
  unfold useDeclarations
  rw [map_eq_map (finder_useDeclaration.starts_alike h) fun _ _ _ _ => useNames_alike false]

end RustScript.Source
