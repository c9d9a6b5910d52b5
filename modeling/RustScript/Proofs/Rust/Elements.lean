import RustScript.Proofs.Rust.Placed

/-!
# Lexical elements

The lexer passes over blanks and comments. Here it keeps them: a text is cut into its elements, which
together are the text again (`text_of_cut`), and the tokens among them are those of the lexer
(`tokens_of_cut`). So one can say of a text where its comments are, and what it is without them.
-/

set_option autoImplicit false

namespace RustScript.Rust

open RustScript.Text RustScript.Source

/-- A piece of a source text: a blank, a comment, or a token. -/
inductive Element
  | space (c : Char)
  | lineComment (text : List Char)
  | blockComment (text : List Char)
  | token (t : Token)
  deriving DecidableEq, Repr

namespace Element

/-- The text of an element. -/
def text : Element → List Char
  | space c => [c]
  | lineComment text => text
  | blockComment text => text
  | token t => t.text.toList

/-- The token that the element is, if it is one. -/
def token? : Element → Option Token
  | token t => some t
  | _ => none

/-- The element is a comment. -/
def isComment : Element → Bool
  | lineComment _ => true
  | blockComment _ => true
  | _ => false

end Element

/-- The text of several elements. -/
def textOf (es : List Element) : List Char := es.flatMap Element.text

/-- The tokens among several elements. -/
def tokensOf (es : List Element) : List Token := es.filterMap Element.token?

theorem textOf_cons (e : Element) (es : List Element) : textOf (e :: es) = e.text ++ textOf es := by
  unfold textOf
  rw [List.flatMap_cons]

theorem textOf_append (es more : List Element) : textOf (es ++ more) = textOf es ++ textOf more := by
  unfold textOf
  rw [List.flatMap_append]

theorem text_infix_textOf {e : Element} {es : List Element} (h : e ∈ es) :
    e.text <:+: textOf es := by
  obtain ⟨front, back, rfl⟩ := List.append_of_mem h
  exact ⟨textOf front, textOf back, by rw [textOf_append, textOf_cons, List.append_assoc]⟩

/-- The elements of a text as `lexFrom` reads them, behind an interpreter line if there is one;
`fuel` bounds their number. -/
def cutFrom : Nat → LexState → List Char → Option (List Element)
  | 0, _, _ => some []
  | _ + 1, _, [] => some []
  | fuel + 1, state, '/' :: '/' :: rest =>
      (.lineComment ('/' :: '/' :: rest.takeWhile (· ≠ '\n')) :: ·) <$>
        cutFrom fuel { state with glued := false, commented := true } (rest.dropWhile (· ≠ '\n'))
  | fuel + 1, state, '/' :: '*' :: rest => do
      let after ← skipBlockComment 1 rest
      (.blockComment ('/' :: '*' :: rest.take (rest.length - after.length)) :: ·) <$>
        cutFrom fuel { state with glued := false, commented := true } after
  | fuel + 1, state, c :: rest => do
      if isSpace c then (.space c :: ·) <$> cutFrom fuel { state with glued := false } rest
      else
        let (kind, after) ← readToken state.afterDot (c :: rest)
        let text := String.ofList ((c :: rest).take (rest.length + 1 - after.length))
        let dot := c = '.' && !(state.afterDot && state.glued)
        (.token ⟨kind, text, state.glued, state.commented⟩ :: ·) <$>
          cutFrom fuel ⟨true, dot, true, false⟩ after

/-- The elements of a text in which no interpreter line stands, `none` when a comment or a literal does
not end. -/
def cut (cs : List Char) : Option (List Element) :=
  cutFrom (cs.length + 1) ⟨true, false, false, false⟩ cs

/-- **The tokens among the elements are those of the lexer.** -/
theorem tokens_of_cutFrom {fuel : Nat} {state : LexState} {cs : List Char}
    (hbegun : state.begun = true) :
    (cutFrom fuel state cs).map tokensOf = lexFrom fuel state cs := by
  fun_induction cutFrom fuel state cs with
  | case1 | case2 => rw [lexFrom]; rfl
  | case3 fuel state rest ih =>
      rw [lexFrom, ← ih hbegun, Option.map_eq_map, Option.map_map]
      rfl
  | case4 fuel state rest ih =>
      rw [lexFrom]
      cases skipBlockComment 1 rest with
      | none => rfl
      | some after =>
          show Option.map _ (Option.map _ _) = lexFrom fuel _ after
          rw [← ih after hbegun, Option.map_map]
          rfl
  | case5 fuel state c rest hslash hstar hspace ih =>
      rw [lexFrom, if_pos hspace, ← ih hbegun, Option.map_eq_map, Option.map_map]
      · rfl
      · exact hslash
      · exact hstar
  | case6 fuel state c rest hslash hstar hspace ih =>
      rw [lexFrom, if_neg hspace, hbegun]
      · cases readToken state.afterDot (c :: rest) with
        | none => rfl
        | some found =>
            show Option.map _ (Option.map _ (cutFrom fuel _ found.2)) =
              Option.map _ (lexFrom fuel _ found.2)
            rw [← ih found.2 rfl, Option.map_map, Option.map_map]
            rfl
      · exact hslash
      · exact hstar

/-! ## The text of the elements -/

theorem take_append_of_suffix {cs after : List Char} (h : after <:+ cs) :
    cs.take (cs.length - after.length) ++ after = cs := by
  obtain ⟨front, rfl⟩ := h
  rw [List.length_append, Nat.add_sub_cancel, List.take_left]

theorem length_of_readToken {afterDot : Bool} {cs after : List Char} {kind : TokenKind}
    (h : readToken afterDot cs = some (kind, after)) : after.length < cs.length := by
  have hends : Ends cs (kind, after) := ends_readToken afterDot cs _ h
  have hsolid : EndsSolid cs after → after.length < cs.length := by
    rintro ⟨front, c, -, rfl⟩
    simp only [List.length_append, List.length_cons]
    omega
  cases kind with
  | punctuation =>
      obtain ⟨c, rfl⟩ := hends
      simp
  | _ => exact hsolid hends

/-- **The elements of a text are the text**, if there is fuel for all of it. -/
theorem text_of_cutFrom {fuel : Nat} {state : LexState} {cs : List Char} {es : List Element}
    (h : cutFrom fuel state cs = some es) (hfuel : cs.length < fuel) : textOf es = cs := by
  fun_induction cutFrom fuel state cs generalizing es with
  | case1 => omega
  | case2 =>
      obtain rfl := Option.some.inj h
      rfl
  | case3 fuel state rest ih =>
      obtain ⟨es, hes, rfl⟩ := Option.map_eq_some_iff.mp h
      have hshort := List.length_dropWhile_le (fun c => decide (c ≠ '\n')) rest
      simp only [List.length_cons] at hfuel
      show '/' :: '/' :: (_ ++ textOf es) = _
      rw [ih hes (by omega), List.takeWhile_append_dropWhile]
  | case4 fuel state rest ih =>
      obtain ⟨after, hafter, h⟩ := Option.bind_eq_some_iff.mp h
      obtain ⟨es, hes, rfl⟩ := Option.map_eq_some_iff.mp h
      have hsuffix := suffix_of_skipBlockComment hafter
      have hshort := hsuffix.length_le
      simp only [List.length_cons] at hfuel
      show '/' :: '*' :: (_ ++ textOf es) = _
      rw [ih after hes (by omega), take_append_of_suffix hsuffix]
  | case5 fuel state c rest _ _ _ ih =>
      obtain ⟨es, hes, rfl⟩ := Option.map_eq_some_iff.mp h
      rw [List.length_cons] at hfuel
      show c :: textOf es = _
      rw [ih hes (by omega)]
  | case6 fuel state c rest _ _ _ ih =>
      obtain ⟨⟨kind, after⟩, hread, h⟩ := Option.bind_eq_some_iff.mp h
      obtain ⟨es, hes, rfl⟩ := Option.map_eq_some_iff.mp h
      have hshort := length_of_readToken hread
      obtain ⟨-, hsplit⟩ := closes_of_ends state.glued state.commented
        (ends_readToken state.afterDot (c :: rest) _ hread)
      show (String.ofList ((c :: rest).take ((c :: rest).length - after.length))).toList ++ textOf es = _
      rw [String.toList_ofList, ih after hes (by omega), ← hsplit]

theorem text_of_cut {cs : List Char} {es : List Element} (h : cut cs = some es) : textOf es = cs :=
  text_of_cutFrom h (Nat.lt_succ_self _)

theorem tokens_of_cut (cs : List Char) :
    (cut cs).map tokensOf = lexFrom (cs.length + 1) ⟨true, false, false, false⟩ cs :=
  tokens_of_cutFrom rfl

/-! ## What the elements look like -/

theorem isBlank_of_isSpace {c : Char} (h : isSpace c = true) : isBlank c = true := by
  unfold isSpace at h
  simp only [Bool.or_eq_true, decide_eq_true_eq] at h
  obtain ((((rfl | rfl) | rfl) | rfl) | rfl) | rfl := h <;> decide

/-- What is known of an element in front of the text `behind`. -/
def Element.Fits (behind : List Char) : Element → Prop
  | .space c => isSpace c = true
  | .lineComment text => (∃ inner, text = '/' :: '/' :: inner ∧ '\n' ∉ inner) ∧
      (behind = [] ∨ ∃ rest, behind = '\n' :: rest)
  | .blockComment text => ∃ inner, text = '/' :: '*' :: inner
  | .token t => t.Closes

/-- Each of the elements fits in front of the ones behind it. -/
def Fit : List Element → Prop
  | [] => True
  | e :: es => e.Fits (textOf es) ∧ Fit es

theorem Fit.behind {front back : List Element} (h : Fit (front ++ back)) : Fit back := by
  induction front with
  | nil => exact h
  | cons e front ih => exact ih h.2

theorem Element.Fits.text_ne_nil {e : Element} {behind : List Char} (h : e.Fits behind) :
    e.text ≠ [] := by
  cases e with
  | space c => exact List.cons_ne_nil c []
  | lineComment text =>
      obtain ⟨⟨inner, rfl, -⟩, -⟩ := h
      exact List.cons_ne_nil _ _
  | blockComment text =>
      obtain ⟨inner, rfl⟩ := h
      exact List.cons_ne_nil _ _
  | token t =>
      show t.text.toList ≠ []
      by_cases hkind : t.kind = .punctuation
      · obtain ⟨c, hc⟩ := Token.Closes.punctuation h hkind
        rw [hc]
        exact List.cons_ne_nil c []
      · obtain ⟨front, c, -, hc⟩ := Token.Closes.other h hkind
        rw [hc]
        exact List.append_ne_nil_of_right_ne_nil front (List.cons_ne_nil c [])

theorem fit_of_cutFrom {fuel : Nat} {state : LexState} {cs : List Char} {es : List Element}
    (h : cutFrom fuel state cs = some es) (hfuel : cs.length < fuel) : Fit es := by
  fun_induction cutFrom fuel state cs generalizing es with
  | case1 => omega
  | case2 =>
      obtain rfl := Option.some.inj h
      trivial
  | case3 fuel state rest ih =>
      obtain ⟨es, hes, rfl⟩ := Option.map_eq_some_iff.mp h
      have hshort := List.length_dropWhile_le (fun c => decide (c ≠ '\n')) rest
      simp only [List.length_cons] at hfuel
      refine ⟨⟨⟨_, rfl, fun hfeed => ?_⟩, ?_⟩, ih hes (by omega)⟩
      · have hmark := List.mem_takeWhile_imp hfeed
        exact of_decide_eq_true hmark rfl
      · rw [text_of_cutFrom hes (by omega)]
        cases hdrop : rest.dropWhile (fun c => decide (c ≠ '\n')) with
        | nil => exact .inl rfl
        | cons c more =>
            obtain ⟨line, hline, rfl⟩ := exists_of_dropWhile hdrop
            exact .inr ⟨more, hdrop.symm.trans (dropWhile_mark hline more)⟩
  | case4 fuel state rest ih =>
      obtain ⟨after, hafter, h⟩ := Option.bind_eq_some_iff.mp h
      obtain ⟨es, hes, rfl⟩ := Option.map_eq_some_iff.mp h
      have hsuffix := suffix_of_skipBlockComment hafter
      have hshort := hsuffix.length_le
      simp only [List.length_cons] at hfuel
      exact ⟨⟨_, rfl⟩, ih after hes (by omega)⟩
  | case5 fuel state c rest _ _ hspace ih =>
      obtain ⟨es, hes, rfl⟩ := Option.map_eq_some_iff.mp h
      rw [List.length_cons] at hfuel
      exact ⟨hspace, ih hes (by omega)⟩
  | case6 fuel state c rest _ _ _ ih =>
      obtain ⟨⟨kind, after⟩, hread, h⟩ := Option.bind_eq_some_iff.mp h
      obtain ⟨es, hes, rfl⟩ := Option.map_eq_some_iff.mp h
      have hshort := length_of_readToken hread
      exact ⟨(closes_of_ends state.glued state.commented
        (ends_readToken state.afterDot (c :: rest) _ hread)).1, ih after hes (by omega)⟩

theorem fit_of_cut {cs : List Char} {es : List Element} (h : cut cs = some es) : Fit es :=
  fit_of_cutFrom h (Nat.lt_succ_self _)

theorem isSpace_of_mem {es : List Element} (h : Fit es) {c : Char} (hc : .space c ∈ es) :
    isSpace c = true := by
  induction es with
  | nil => cases hc
  | cons e es ih =>
      obtain rfl | hmem := List.mem_cons.mp hc
      · exact h.1
      · exact ih h.2 hmem

/-- Elements without tokens and comments are blanks. -/
theorem allBlank_textOf {es : List Element} (hfit : Fit es)
    (hbare : ∀ e ∈ es, e.isComment = false) (hnone : tokensOf es = []) :
    allBlank (textOf es) = true := by
  refine List.all_eq_true.mpr fun c hc => ?_
  obtain ⟨e, he, hmem⟩ := List.mem_flatMap.mp hc
  have htoken := List.filterMap_eq_nil_iff.mp hnone e he
  cases e with
  | space d =>
      rw [List.mem_singleton.mp hmem]
      exact isBlank_of_isSpace (isSpace_of_mem hfit he)
  | token t => cases htoken
  | _ => cases hbare _ he

end RustScript.Rust
