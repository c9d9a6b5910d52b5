import RustScript.Proofs.Project.Stem

/-!
# Paths and their texts

A path that a text writes is written to a text that writes it again (`Path.ofString_toString`).
-/

set_option autoImplicit false

namespace RustScript

namespace Text

theorem cutAt_eq_splitOn (mark : Char) (cs : List Char) : cutAt mark cs = cs.splitOn mark := by
  induction cs with
  | nil => rfl
  | cons c rest ih =>
      unfold cutAt
      rw [ih]
      show _ = (c :: rest).splitOnP (· == mark)
      rw [List.splitOnP_cons_eq_if_modifyHead]
      by_cases hc : c = mark
      · rw [if_pos hc, if_pos (beq_iff_eq.mpr hc)]
        rfl
      · rw [if_neg hc, if_neg (by simpa using hc)]
        cases hpieces : rest.splitOn mark with
        | nil => exact absurd hpieces (List.splitOnP_ne_nil _ _)
        | cons piece pieces =>
            have hsplit : rest.splitOnP (· == mark) = piece :: pieces := hpieces
            rw [hsplit]
            rfl

theorem cutAt_intercalate {mark : Char} {pieces : List (List Char)}
    (h : ∀ piece ∈ pieces, mark ∉ piece) (hne : pieces ≠ []) :
    cutAt mark (List.intercalate [mark] pieces) = pieces := by
  rw [cutAt_eq_splitOn]
  exact List.splitOn_intercalate mark h hne

theorem cutAt_replicate_append (mark : Char) (count : Nat) (cs : List Char) :
    cutAt mark (List.replicate count mark ++ cs) = List.replicate count [] ++ cutAt mark cs := by
  induction count with
  | zero => rfl
  | succ count ih =>
      rw [List.replicate_succ, List.cons_append, cutAt, if_pos rfl, ih]
      rfl

end Text

namespace Path

/-- The path is one that a text can write: its names mean something and hold no slash, and no more
slashes are in front of it than count. -/
structure Regular (path : Path) : Prop where
  slashes : path.slashes ≤ 2
  names : ∀ name ∈ path.names, isName name = true ∧ '/' ∉ name.toList

theorem leadingSlashes_le (cs : List Char) : leadingSlashes cs ≤ 2 := by
  unfold leadingSlashes
  split <;> decide

theorem regular_ofString (text : String) : (ofString text).Regular := by
  refine ⟨leadingSlashes_le _, fun name hname => ?_⟩
  obtain ⟨hne, hdot, hslash⟩ := mem_names_ofString hname
  refine ⟨?_, hslash⟩
  unfold isName
  rw [Bool.and_eq_true, Bool.not_eq_true', decide_eq_true_eq]
  exact ⟨String.isEmpty_eq_false_iff.mpr hne, hdot⟩

theorem leadingSlashes_replicate_append {count : Nat} (h : count ≤ 2) {c : Char} (hc : c ≠ '/')
    (cs : List Char) : leadingSlashes (List.replicate count '/' ++ c :: cs) = count := by
  rcases count with _ | _ | _ | count
  · simp [leadingSlashes, hc]
  · simp [leadingSlashes, hc]
  · simp [leadingSlashes, hc]
  · omega

/-- The text of names begins as the first of them does. -/
theorem exists_cons_of_names {names : List String} (hne : names ≠ [])
    (h : ∀ name ∈ names, isName name = true ∧ '/' ∉ name.toList) :
    ∃ c cs, (String.intercalate "/" names).toList = c :: cs ∧ c ≠ '/' := by
  cases names with
  | nil => exact absurd rfl hne
  | cons name rest =>
      obtain ⟨hname, hslash⟩ := h name List.mem_cons_self
      cases hcs : name.toList with
      | nil =>
          rw [String.toList_eq_nil_iff.mp hcs] at hname
          cases hname
      | cons c cs =>
          rw [hcs] at hslash
          have hc : c ≠ '/' := fun hc => hslash (hc ▸ List.mem_cons_self)
          cases rest with
          | nil => exact ⟨c, cs, hcs, hc⟩
          | cons other rest =>
              rw [String.intercalate_cons_of_ne_nil (List.cons_ne_nil _ _), String.toList_append,
                String.toList_append, hcs]
              exact ⟨c, _, rfl, hc⟩

/-- **A path is read from its text** as it is, if it is one that a text can write and leads
somewhere. -/
theorem ofString_toString {path : Path} (h : path.Regular) (hne : path.names ≠ []) :
    ofString path.toString = path := by
  obtain ⟨slashes, names⟩ := path
  have htext : toString ⟨slashes, names⟩ =
      String.ofList (List.replicate slashes '/') ++ String.intercalate "/" names :=
    if_neg fun hempty => hne hempty.2
  obtain ⟨c, cs, hcs, hc⟩ := exists_cons_of_names hne h.names
  have hpieces : Text.cutAt '/' (String.intercalate "/" names).toList =
      names.map String.toList := by
    rw [String.toList_intercalate]
    refine Text.cutAt_intercalate (fun piece hpiece => ?_) (fun hnil => hne (List.map_eq_nil_iff.mp hnil))
    obtain ⟨name, hname, rfl⟩ := List.mem_map.mp hpiece
    exact (h.names name hname).2
  have hkept : names.filter isName = names :=
    List.filter_eq_self.mpr fun name hname => (h.names name hname).1
  rw [htext]
  unfold ofString
  rw [String.toList_append, String.toList_ofList]
  refine (Path.mk.injEq ..).mpr ⟨?_, ?_⟩
  · rw [hcs]
    exact leadingSlashes_replicate_append h.slashes hc cs
  · have hempty : ((List.replicate slashes ([] : List Char)).map String.ofList).filter isName = [] := by
      rw [List.map_replicate]
      exact List.filter_eq_nil_iff.mpr fun name hname => by
        rw [List.eq_of_mem_replicate hname]
        decide
    have htexts : (names.map String.toList).map String.ofList = names := by
      rw [List.map_map]
      exact List.map_id'' (fun name => String.ofList_toList) names
    rw [Text.cutAt_replicate_append, hpieces, List.map_append, List.filter_append, hempty, htexts,
      hkept]
    rfl

end Path

end RustScript
