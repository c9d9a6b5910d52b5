import Mathlib.Data.List.TakeWhile
import RustScript.Path

/-!
# Names without their extensions

The stem of a script names the directory of its project. A stem is no name of a directory below
another one exactly if it is empty, `.` or `..`, and this happens for few names of scripts: for none
at all, for `..`, and for two or three dots with an extension behind them.
-/

set_option autoImplicit false

namespace RustScript

/-! ## Pieces of a text -/

namespace Text

theorem not_mem_of_mem_cutAt {mark : Char} {cs piece : List Char} (h : piece ∈ cutAt mark cs) :
    mark ∉ piece := by
  induction cs generalizing piece with
  | nil =>
      rw [List.mem_singleton.mp h]
      exact List.not_mem_nil
  | cons c rest ih =>
      unfold cutAt at h
      split at h
      · rcases List.mem_cons.mp h with rfl | hrest
        · exact List.not_mem_nil
        · exact ih hrest
      · next hmark =>
          split at h
          · next first pieces hpieces =>
              rw [hpieces] at ih
              rcases List.mem_cons.mp h with rfl | hrest
              · intro hmem
                rcases List.mem_cons.mp hmem with hc | hfirst
                · exact hmark hc.symm
                · exact ih List.mem_cons_self hfirst
              · exact ih (List.mem_cons_of_mem _ hrest)
          · rw [List.mem_singleton.mp h]
            intro hmem
            exact hmark (List.mem_singleton.mp hmem).symm

theorem cutAt_of_not_mem {mark : Char} {cs : List Char} (h : mark ∉ cs) :
    cutAt mark cs = [cs] := by
  induction cs with
  | nil => rfl
  | cons c rest ih =>
      have hc : c ≠ mark := fun hc => h (hc ▸ List.mem_cons_self)
      unfold cutAt
      rw [if_neg hc, ih fun hrest => h (List.mem_cons_of_mem _ hrest)]

end Text

namespace Path

/-! ## Stems -/

/-- A name splits at its last dot, if it has one. -/
theorem exists_extension {cs : List Char} (h : '.' ∈ cs) :
    ∃ front ext, cs = front ++ '.' :: ext ∧ '.' ∉ ext := by
  induction cs with
  | nil => cases h
  | cons c rest ih =>
      by_cases hrest : '.' ∈ rest
      · obtain ⟨front, ext, hsplit, hext⟩ := ih hrest
        exact ⟨c :: front, ext, by rw [hsplit]; rfl, hext⟩
      · rcases List.mem_cons.mp h with hc | hmem
        · exact ⟨[], rest, by rw [← hc]; rfl, hrest⟩
        · exact absurd hmem hrest

theorem stemOf_of_dotless {name : String} (h : '.' ∉ name.toList) : stemOf name = name := by
  have hdrop : name.toList.reverse.dropWhile (· ≠ '.') = [] := by
    rw [List.dropWhile_eq_nil_iff]
    intro c hc
    refine decide_eq_true ?_
    rintro rfl
    exact h (List.mem_reverse.mp hc)
  unfold stemOf
  rw [hdrop]

theorem stemOf_of_extension {name : String} {front ext : List Char}
    (hname : name.toList = front ++ '.' :: ext) (hext : '.' ∉ ext) :
    stemOf name = if front = [] ∨ ext = [] then name else String.ofList front := by
  -- the last dot is the first one from behind
  have hdrop : name.toList.reverse.dropWhile (· ≠ '.') = '.' :: front.reverse := by
    rw [hname, List.reverse_append, List.reverse_cons, List.append_assoc,
      List.dropWhile_append_of_pos]
    · rfl
    · intro c hc
      refine decide_eq_true ?_
      rintro rfl
      exact hext (List.mem_reverse.mp hc)
  have hlast : name.toList.getLast? = some '.' ↔ ext = [] := by
    rw [hname, List.getLast?_append]
    cases ext with
    | nil => simp
    | cons c rest =>
        have hne : (c :: rest).getLast? ≠ some '.' := fun hc => hext (List.mem_of_getLast? hc)
        simpa using hne
  unfold stemOf
  rw [hdrop]
  show (if (front.reverse.isEmpty || decide (name.toList.getLast? = some '.')) = true then name
    else String.ofList front.reverse.reverse) = _
  rw [List.reverse_reverse]
  by_cases hfront : front = []
  · simp [hfront]
  · by_cases hnil : ext = []
    · simp [hlast.mpr hnil, hnil]
    · simp [hfront, hnil, hlast]

theorem stemOf_eq_empty_iff {name : String} : stemOf name = "" ↔ name = "" := by
  constructor
  · intro h
    by_cases hdot : '.' ∈ name.toList
    · obtain ⟨front, ext, hname, hext⟩ := exists_extension hdot
      rw [stemOf_of_extension hname hext] at h
      split at h
      · exact h
      · next hparts => exact absurd (Or.inl (String.ofList_eq_empty_iff.mp h)) hparts
    · rwa [stemOf_of_dotless hdot] at h
  · rintro rfl
    rfl

/-- The name is a stem with an extension behind it. -/
def Extends (stem name : String) : Prop :=
  ∃ ext, ext ≠ "" ∧ '.' ∉ ext.toList ∧ name = stem ++ "." ++ ext

/-- What has a given stem: the stem with an extension, or a name that is its own stem. -/
theorem stemOf_eq_iff {name stem : String} (hstem : stem ≠ "") :
    stemOf name = stem ↔ Extends stem name ∨ name = stem ∧ stemOf stem = stem := by
  constructor
  · intro h
    by_cases hdot : '.' ∈ name.toList
    · obtain ⟨front, ext, hname, hext⟩ := exists_extension hdot
      rw [stemOf_of_extension hname hext] at h
      split at h
      · next hwhole =>
          refine Or.inr ⟨h, ?_⟩
          rw [← h, stemOf_of_extension hname hext, if_pos hwhole]
      · next hparts =>
          refine Or.inl ⟨String.ofList ext, ?_, ?_, ?_⟩
          · exact fun hnil => hparts (Or.inr (String.ofList_eq_empty_iff.mp hnil))
          · rw [String.toList_ofList]
            exact hext
          · rw [← String.toList_inj, ← h, hname]
            simp
    · rw [stemOf_of_dotless hdot] at h
      subst h
      exact Or.inr ⟨rfl, stemOf_of_dotless hdot⟩
  · rintro (⟨ext, hne, hext, rfl⟩ | ⟨rfl, h⟩)
    · have hname : (stem ++ "." ++ ext).toList = stem.toList ++ '.' :: ext.toList := by
        simp
      rw [stemOf_of_extension hname hext, if_neg, String.ofList_toList]
      rintro (hnil | hnil)
      · exact hstem (by rw [← String.toList_inj, hnil]; rfl)
      · exact hne (by rw [← String.toList_inj, hnil]; rfl)
    · exact h

/-! ## Names in paths -/

/-- The name is one that a directory can have. -/
def Ordinary (name : String) : Prop :=
  name ≠ "" ∧ name ≠ "." ∧ name ≠ ".." ∧ '/' ∉ name.toList

theorem mem_names_ofString {text name : String} (h : name ∈ (ofString text).names) :
    name ≠ "" ∧ name ≠ "." ∧ '/' ∉ name.toList := by
  obtain ⟨hpiece, hname⟩ := List.mem_filter.mp h
  obtain ⟨piece, hmem, rfl⟩ := List.mem_map.mp hpiece
  unfold isName at hname
  refine ⟨?_, ?_, ?_⟩
  · intro hnil
    rw [hnil] at hname
    simp at hname
  · intro hdot
    rw [hdot] at hname
    simp at hname
  · rw [String.toList_ofList]
    exact Text.not_mem_of_mem_cutAt hmem

/-- A text without slashes is the path of at most one name. -/
theorem ofString_of_no_slash {text : String} (h : '/' ∉ text.toList) :
    ofString text = ⟨0, [text].filter isName⟩ := by
  have hslashes : leadingSlashes text.toList = 0 := by
    cases hcs : text.toList with
    | nil => rfl
    | cons c rest =>
        have hc : c ≠ '/' := fun hc => h (by rw [hcs, hc]; exact List.mem_cons_self)
        unfold leadingSlashes
        split <;> simp_all
  unfold ofString
  rw [hslashes, Text.cutAt_of_not_mem h, List.map_singleton, String.ofList_toList]

theorem slash_not_mem_stemOf {name : String} (h : '/' ∉ name.toList) :
    '/' ∉ (stemOf name).toList := by
  by_cases hdot : '.' ∈ name.toList
  · obtain ⟨front, ext, hname, hext⟩ := exists_extension hdot
    rw [stemOf_of_extension hname hext]
    split
    · exact h
    · rw [String.toList_ofList]
      intro hmem
      exact h (by rw [hname]; exact List.mem_append_left _ hmem)
  · rwa [stemOf_of_dotless hdot]

/-- The last name of a path that a text writes, if it has one, has no slash and is not `.`. -/
theorem name_ofString (text : String) :
    (ofString text).name ≠ "." ∧ '/' ∉ (ofString text).name.toList := by
  unfold Path.name
  cases hlast : (ofString text).names.getLast? with
  | none =>
      rw [List.getLastD_eq_getLast?, hlast]
      exact ⟨by decide, List.not_mem_nil⟩
  | some name =>
      rw [List.getLastD_eq_getLast?, hlast]
      exact (mem_names_ofString (List.mem_of_getLast? hlast)).2

/-- The names of scripts whose stems name no directory. -/
def Odd (name : String) : Prop := name = "" ∨ name = ".." ∨ Extends "." name ∨ Extends ".." name

/-- **Stems that name no directory.** -/
theorem ordinary_stem_iff (script : String) :
    Ordinary (ofString script).stem ↔ ¬ Odd (ofString script).name := by
  obtain ⟨hhere, hslash⟩ := name_ofString script
  have hdot : stemOf (ofString script).name = "." ↔
      Extends "." (ofString script).name ∨ (ofString script).name = "." ∧ stemOf "." = "." :=
    stemOf_eq_iff (by decide)
  have hdots : stemOf (ofString script).name = ".." ↔
      Extends ".." (ofString script).name ∨ (ofString script).name = ".." ∧ stemOf ".." = ".." :=
    stemOf_eq_iff (by decide)
  unfold Ordinary Odd Path.stem
  rw [Ne, stemOf_eq_empty_iff, Ne, hdot, Ne, hdots]
  constructor
  · rintro ⟨hne, hnotHere, hnotUp, -⟩ (hname | hname | hname | hname)
    · exact hne hname
    · exact hnotUp (Or.inr ⟨hname, by decide⟩)
    · exact hnotHere (Or.inl hname)
    · exact hnotUp (Or.inl hname)
  · intro hodd
    refine ⟨fun hname => hodd (Or.inl hname), ?_, ?_, slash_not_mem_stemOf hslash⟩
    · rintro (hname | ⟨hname, -⟩)
      · exact hodd (Or.inr (Or.inr (Or.inl hname)))
      · exact hhere hname
    · rintro (hname | ⟨hname, -⟩)
      · exact hodd (Or.inr (Or.inr (Or.inr hname)))
      · exact hodd (Or.inr (Or.inl hname))

end Path

end RustScript
