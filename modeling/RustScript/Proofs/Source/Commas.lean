import RustScript.Proofs.Source.Pieces

/-!
# Splitting at the commas outside braces

A text is solid if a comma between its ends belongs to a group: reading it leaves the depth as it
was, and it is not split. Braces around texts joined by commas make a solid text of solid ones, and
at the top level the commas between solid texts are exactly the places where the splitting cuts.
-/

set_option autoImplicit false

namespace RustScript.Source

/-! ## Solid texts -/

/-- At every depth the text goes into the piece that has been begun. -/
def Solid (cs : List Char) : Prop :=
  ∀ (depth : Int) (piece rest : List Char), 0 ≤ depth →
    commaPieces depth piece (cs ++ rest) = commaPieces depth (cs.reverse ++ piece) rest

theorem Solid.nil : Solid [] := fun _ _ _ _ => rfl

theorem Solid.append {a b : List Char} (ha : Solid a) (hb : Solid b) : Solid (a ++ b) := by
  intro depth piece rest hdepth
  rw [List.append_assoc, ha depth piece _ hdepth, hb depth _ rest hdepth, List.reverse_append,
    List.append_assoc]

/-- A text without commas and braces is solid. -/
theorem Solid.of_plain {cs : List Char} (h : ∀ c ∈ cs, c ≠ ',' ∧ c ≠ '\x7b' ∧ c ≠ '\x7d') :
    Solid cs := fun depth piece rest _ =>
  commaPieces_append_of_not_mem (fun hmem => (h _ hmem).1 rfl) (fun hmem => (h _ hmem).2.1 rfl)
    (fun hmem => (h _ hmem).2.2 rfl) depth piece rest

/-- Inside braces the commas split nothing. -/
theorem commaPieces_inside {pieces : List (List Char)} (h : ∀ piece ∈ pieces, Solid piece)
    {depth : Int} (hdepth : 0 < depth) (begun rest : List Char) :
    commaPieces depth begun ([','].intercalate pieces ++ rest) =
      commaPieces depth (([','].intercalate pieces).reverse ++ begun) rest := by
  induction pieces generalizing begun with
  | nil => rfl
  | cons first others ih =>
      have hfirst : Solid first := h first List.mem_cons_self
      cases others with
      | nil =>
          rw [List.intercalate_singleton]
          exact hfirst depth begun rest (Int.le_of_lt hdepth)
      | cons second more =>
          have hrest := ih (fun piece hp => h piece (List.mem_cons_of_mem first hp))
            (',' :: (first.reverse ++ begun))
          -- the comma between the pieces stands below the top level, so it goes into the piece
          have hcomma : ¬ (',' = ',' ∧ depth = 0) := fun hc => by omega
          rw [List.intercalate_cons_cons, List.append_assoc, List.append_assoc,
            hfirst depth begun _ (Int.le_of_lt hdepth), List.singleton_append, commaPieces,
            if_neg hcomma, if_neg (by decide), if_neg (by decide), hrest]
          simp only [List.reverse_append, List.reverse_cons, List.nil_append, List.append_assoc,
            List.cons_append]

/-- Braces around solid texts joined by commas make a solid text. -/
theorem Solid.braces {pieces : List (List Char)} (h : ∀ piece ∈ pieces, Solid piece) :
    Solid ('\x7b' :: ([','].intercalate pieces ++ ['\x7d'])) := by
  intro depth piece rest hdepth
  have hopen : ¬ ('\x7b' = ',' ∧ depth = 0) := fun hc => absurd hc.1 (by decide)
  have hclose : ¬ ('\x7d' = ',' ∧ depth + 1 = 0) := fun hc => absurd hc.1 (by decide)
  have hback : depth + 1 - 1 = depth := by omega
  rw [List.cons_append, commaPieces, if_neg hopen, if_pos rfl, List.append_assoc,
    commaPieces_inside h (by omega), List.singleton_append, commaPieces, if_neg hclose,
    if_neg (by decide), if_pos rfl, hback]
  simp only [List.reverse_append, List.reverse_cons, List.reverse_nil, List.nil_append,
    List.append_assoc, List.cons_append]

theorem length_le_intercalate {piece : List Char} {pieces : List (List Char)}
    (h : piece ∈ pieces) : piece.length ≤ ([','].intercalate pieces).length := by
  induction pieces with
  | nil => cases h
  | cons first others ih =>
      cases others with
      | nil =>
          rw [List.mem_singleton.mp h]
          exact Nat.le_of_eq (congrArg List.length List.intercalate_singleton.symm)
      | cons second more =>
          rw [List.intercalate_cons_cons, List.length_append, List.length_append]
          rcases List.mem_cons.mp h with rfl | hmem
          · omega
          · have := ih hmem
            omega

/-! ## Splitting undoes joining -/

theorem mem_of_mem_intercalate {c : Char} {pieces : List (List Char)}
    (h : c ∈ [','].intercalate pieces) : c = ',' ∨ ∃ piece ∈ pieces, c ∈ piece := by
  induction pieces with
  | nil => cases h
  | cons first others ih =>
      cases others with
      | nil =>
          rw [List.intercalate_singleton] at h
          exact Or.inr ⟨first, List.mem_cons_self, h⟩
      | cons second more =>
          rw [List.intercalate_cons_cons] at h
          rcases List.mem_append.mp h with hfront | hrest
          · rcases List.mem_append.mp hfront with hfirst | hcomma
            · exact Or.inr ⟨first, List.mem_cons_self, hfirst⟩
            · exact Or.inl (List.mem_singleton.mp hcomma)
          · rcases ih hrest with hcomma | ⟨piece, hpiece, hmem⟩
            · exact Or.inl hcomma
            · exact Or.inr ⟨piece, List.mem_cons_of_mem first hpiece, hmem⟩

theorem Solid.whole {cs : List Char} (h : Solid cs) : Whole cs := by
  have hcut := h 0 [] [','] (Int.le_refl 0)
  rw [commaPieces_comma, List.append_nil, List.reverse_reverse] at hcut
  exact (commaPieces_eq_iff.mp hcut).whole

/-- Solid texts joined by commas are split into those that are not blank. -/
theorem splitTopLevel_intercalate {pieces : List (List Char)}
    (h : ∀ piece ∈ pieces, Solid piece) :
    splitTopLevel ([','].intercalate pieces) = pieces.filter fun piece => !Text.allBlank piece :=
  splitTopLevel_of_whole fun piece hpiece => (h piece hpiece).whole

end RustScript.Source
