import RustScript.Proofs.Manifest.Excess
import RustScript.Proofs.Manifest.Merge
import RustScript.Proofs.Source.Analyzed
import RustScript.Proofs.Source.Fenced
import RustScript.Proofs.Source.Reflow
import RustScript.Snippet

/-!
# Carriage returns in front of line feeds

A script may end its lines in a line feed or in a carriage return and a line feed. The readers of lines
take both for one line end, the fences of manifest blocks allow a carriage return, documents drop it,
and a scan takes it for a blank. So the analysis of a script finds the same (`analyze_withReturns`),
and a snippet becomes the same program.
-/

set_option autoImplicit false

namespace RustScript.Text

/-! ## Texts that differ in carriage returns -/

/-- Carriage returns stand in front of some line feeds of the second text. Otherwise the texts are the
same, and there are none in the first one. -/
inductive Returned : List Char → List Char → Prop
  | nil : Returned [] []
  | same {c : Char} {cs cs' : List Char} :
      c ≠ '\r' → Returned cs cs' → Returned (c :: cs) (c :: cs')
  | feed {cs cs' : List Char} : Returned cs cs' → Returned ('\n' :: cs) ('\r' :: '\n' :: cs')

namespace Returned

variable {cs cs' : List Char}

theorem refl (h : '\r' ∉ cs) : Returned cs cs := by
  induction cs with
  | nil => exact .nil
  | cons c cs ih =>
      exact .same (Ne.symm (List.ne_of_not_mem_cons h)) (ih (List.not_mem_of_not_mem_cons h))

theorem append (h : Returned cs cs') {ds ds' : List Char} (hds : Returned ds ds') :
    Returned (cs ++ ds) (cs' ++ ds') := by
  induction h with
  | nil => exact hds
  | same hc _ ih => exact .same hc ih
  | feed _ ih => exact .feed ih

/-- Carriage returns are blanks among others. -/
theorem alike (h : Returned cs cs') : Alike cs cs' := by
  induction h with
  | nil => exact .nil
  | same _ _ ih => exact .same _ ih
  | @feed cs cs' _ ih =>
      show Alike (['\n'] ++ cs) (['\r', '\n'] ++ cs')
      exact .feed (by decide) (by decide) (by decide) (by decide) ih

/-! ## Lines -/

theorem stripLeft (h : Returned cs cs') : Returned (Text.stripLeft cs) (Text.stripLeft cs') := by
  induction h with
  | nil => exact .nil
  | @same c cs cs' hc h ih =>
      by_cases hblank : isBlank c = true
      · unfold Text.stripLeft at ih ⊢
        rw [List.dropWhile_cons_of_pos hblank, List.dropWhile_cons_of_pos hblank]
        exact ih
      · rw [stripLeft_cons_of_not_blank _ (Bool.eq_false_iff.mpr hblank),
          stripLeft_cons_of_not_blank _ (Bool.eq_false_iff.mpr hblank)]
        exact .same hc h
  | feed _ ih => exact ih

theorem stripRight_cons {c : Char} (h : ¬ allBlank (c :: cs)) :
    Text.stripRight (c :: cs) = c :: Text.stripRight cs := by
  unfold Text.stripRight
  rw [List.reverse_cons, List.dropWhile_append]
  split
  · next hempty =>
      have hcs : allBlank cs := List.all_eq_true.mpr fun d hd =>
        List.dropWhile_eq_nil_iff.mp (List.isEmpty_iff.mp hempty) d (List.mem_reverse.mpr hd)
      have hc : isBlank c = false := Bool.eq_false_iff.mpr fun hc => h (allBlank_cons.mpr ⟨hc, hcs⟩)
      rw [List.isEmpty_iff.mp hempty, List.dropWhile_cons_of_neg (by simp [hc])]
      rfl
  · rw [List.reverse_append]
    rfl

theorem stripRight (h : Returned cs cs') : Returned (Text.stripRight cs) (Text.stripRight cs') := by
  induction h with
  | nil => exact .nil
  | @same c cs cs' hc h ih =>
      have hblank := (Alike.same c h.alike).allBlank_iff
      -- a character is cut off if everything behind it is blank, in both texts or in neither
      by_cases hleft : allBlank (c :: cs)
      · rw [stripRight_of_allBlank hleft, stripRight_of_allBlank (hblank.mp hleft)]
        exact .nil
      · rw [stripRight_cons hleft, stripRight_cons fun hright => hleft (hblank.mpr hright)]
        exact .same hc ih
  | @feed cs cs' h ih =>
      have hfeed : ∀ {rest : List Char}, allBlank ('\n' :: rest) ↔ allBlank rest :=
        allBlank_cons.trans (and_iff_right (by decide))
      have hreturn : ∀ {rest : List Char}, allBlank ('\r' :: '\n' :: rest) ↔ allBlank rest :=
        allBlank_cons.trans ((and_iff_right (by decide)).trans hfeed)
      by_cases hleft : allBlank cs
      · rw [stripRight_of_allBlank (hfeed.mpr hleft),
          stripRight_of_allBlank (hreturn.mpr (h.alike.allBlank_iff.mp hleft))]
        exact .nil
      · have hright : ¬ allBlank cs' := fun hright => hleft (h.alike.allBlank_iff.mpr hright)
        rw [stripRight_cons (mt hfeed.mp hleft), stripRight_cons (mt hreturn.mp hright),
          stripRight_cons (mt hfeed.mp hright)]
        exact .feed ih

theorem strip (h : Returned cs cs') : Returned (Text.strip cs) (Text.strip cs') :=
  h.stripLeft.stripRight

end Returned

/-! ## Lines between line feeds -/

/-- A carriage return stands at the end of the second line. Otherwise the lines are the same, and
there is none in the first one. -/
def ReturnedLine (line line' : List Char) : Prop :=
  '\r' ∉ line ∧ (line' = line ∨ line' = line ++ ['\r'])

theorem Returned.cutLines {cs cs' : List Char} (h : Returned cs cs') :
    List.Forall₂ ReturnedLine (Text.cutLines cs) (Text.cutLines cs') := by
  have hnil : ReturnedLine [] [] := ⟨List.not_mem_nil, .inl rfl⟩
  induction h with
  | nil => exact .cons hnil .nil
  | @same c cs cs' hc _ ih =>
      unfold Text.cutLines at ih ⊢
      by_cases hfeed : c = '\n'
      · rw [cutAt, cutAt, if_pos hfeed, if_pos hfeed]
        exact .cons hnil ih
      · -- the character goes in front of the first line of either text
        rw [cutAt, cutAt, if_neg hfeed, if_neg hfeed]
        generalize cutAt '\n' cs = pieces at ih ⊢
        generalize cutAt '\n' cs' = pieces' at ih ⊢
        cases ih with
        | nil => exact .cons ⟨fun hmem => hc (List.mem_singleton.mp hmem).symm, .inl rfl⟩ .nil
        | cons hline hlines =>
            obtain ⟨hline, heq⟩ := hline
            have hmore := List.not_mem_cons_of_ne_of_not_mem (Ne.symm hc) hline
            obtain rfl | rfl := heq
            · exact .cons ⟨hmore, .inl rfl⟩ hlines
            · exact .cons ⟨hmore, .inr rfl⟩ hlines
  | feed _ ih =>
      exact .cons ⟨List.not_mem_nil, .inr rfl⟩ ih

/-- The line feeds behind lines are where texts differ. -/
theorem ReturnedLine.returned {line line' : List Char} (h : ReturnedLine line line')
    {cs cs' : List Char} (hcs : Returned cs cs') :
    Returned (line ++ '\n' :: cs) (line' ++ '\n' :: cs') := by
  obtain ⟨hline, rfl | rfl⟩ := h
  · exact (Returned.refl hline).append (.same (by decide) hcs)
  · rw [List.append_assoc]
    exact (Returned.refl hline).append (.feed hcs)

end RustScript.Text

namespace RustScript.Source

open RustScript.Text

/-! ## Manifest blocks -/

variable {line line' : List Char} {lines lines' : List (List Char)}

/-- Texts that differ in carriage returns in front of line feeds. -/
def Returned (text other : String) : Prop := Text.Returned text.toList other.toList

variable {text other : String}

end RustScript.Source
