import RustScript.Proofs.Source.RustWords

/-!
# Where tokens end

The lexer gives tokens without their places. Here it is read once more with the text behind each
token (`map_lexPlaced`). A token that is more than a punctuation character ends in a character that is
neither blank nor the end of a statement (`closes_of_mem`): what stands at the end of the last token is
a semicolon only if the token is one.
-/

set_option autoImplicit false

namespace RustScript.Rust

open RustScript.Text RustScript.Source

/-- The tokens of a text as `lexFrom` reads them, each with the text behind it. -/
def lexPlaced : Nat → LexState → List Char → Option (List (Token × List Char))
  | 0, _, _ => some []
  | _ + 1, _, [] => some []
  | fuel + 1, state, '/' :: '/' :: rest =>
      lexPlaced fuel { state with glued := false, commented := true } (rest.dropWhile (· ≠ '\n'))
  | fuel + 1, state, '/' :: '*' :: rest => do
      let after ← skipBlockComment 1 rest
      lexPlaced fuel { state with glued := false, commented := true } after
  | fuel + 1, state, c :: rest => do
      if isSpace c then lexPlaced fuel { state with glued := false } rest
      else if let some after := if state.begun then none else skipInterpreterLine? (c :: rest) then
        lexPlaced fuel { state with begun := true } after
      else
        let (kind, after) ← readToken state.afterDot (c :: rest)
        let text := String.ofList ((c :: rest).take (rest.length + 1 - after.length))
        let dot := c = '.' && !(state.afterDot && state.glued)
        ((⟨kind, text, state.glued, state.commented⟩, after) :: ·) <$>
          lexPlaced fuel ⟨true, dot, true, false⟩ after

/-- The tokens with the text behind them are the tokens. -/
theorem map_lexPlaced (fuel : Nat) (state : LexState) (cs : List Char) :
    (lexPlaced fuel state cs).map (List.map Prod.fst) = lexFrom fuel state cs := by
  fun_induction lexPlaced fuel state cs with
  | case1 | case2 => rw [lexFrom]; rfl
  | case3 fuel state rest ih => rw [lexFrom, ih]
  | case4 fuel state rest ih =>
      rw [lexFrom]
      cases skipBlockComment 1 rest with
      | none => rfl
      | some after => exact ih after
  | case5 fuel state c rest hslash hstar hspace ih =>
      rw [lexFrom, if_pos hspace, ih]
      · exact hslash
      · exact hstar
  | case6 fuel state c rest hslash hstar hspace after hafter ih =>
      rw [lexFrom, if_neg hspace, hafter]
      · exact ih
      · exact hslash
      · exact hstar
  | case7 fuel state c rest hslash hstar hspace hnone ih =>
      have hafter := Option.eq_none_iff_forall_ne_some.mpr hnone
      rw [lexFrom, if_neg hspace, hafter]
      · cases readToken state.afterDot (c :: rest) with
        | none => rfl
        | some found =>
            show Option.map _ (Option.map _ (lexPlaced fuel _ found.2)) =
              Option.map _ (lexFrom fuel _ found.2)
            rw [← ih found.2, Option.map_map, Option.map_map]
            rfl
      · exact hslash
      · exact hstar

/-! ## Characters that end tokens -/

/-- A character that is neither blank nor the end of a statement. -/
def Solid (c : Char) : Prop := isBlank c = false ∧ c ≠ ';' ∧ c ≠ '\x7d'

instance (c : Char) : Decidable (Solid c) := inferInstanceAs (Decidable (_ ∧ _ ∧ _))

/-- Blanks above U+007F. -/
def foreignBlanks : List Nat :=
  [0x85, 0xa0, 0x1680, 0x2000, 0x2001, 0x2002, 0x2003, 0x2004, 0x2005, 0x2006, 0x2007, 0x2008,
    0x2009, 0x200a, 0x2028, 0x2029, 0x202f, 0x205f, 0x3000]

theorem mem_foreignBlanks {c : Char} (h : isBlank c = true) (hc : 0x80 ≤ c.toNat) :
    c.toNat ∈ foreignBlanks := by
  unfold isBlank at h
  unfold foreignBlanks
  simp only [Bool.or_eq_true, Bool.and_eq_true, decide_eq_true_eq, beq_iff_eq, List.mem_cons,
    List.not_mem_nil, or_false] at h ⊢
  omega

/-- No table of identifier characters holds a blank. -/
theorem not_contains_of_mem_foreignBlanks {c : Char} (h : c.toNat ∈ foreignBlanks) :
    identifierStartRanges.contains c = false ∧
      identifierOnlyContinueRanges.contains c = false := by
  have hall : ∀ n ∈ foreignBlanks,
      (identifierStartRanges.toList.any fun range => range.1 ≤ n && n ≤ range.2) = false ∧
        (identifierOnlyContinueRanges.toList.any fun range =>
          range.1 ≤ n && n ≤ range.2) = false := by
    decide +kernel
  unfold Ranges.contains
  rw [← Array.any_toList, ← Array.any_toList]
  exact hall c.toNat h

theorem solid_of_isAsciiWord {c : Char} (h : isAsciiWord c = true) : Solid c := by
  refine ⟨not_blank_of_isAsciiWord h, ?_, ?_⟩
  all_goals
    rintro rfl
    exact absurd h (by decide)

theorem solid_of_continues {c : Char} (h : isIdentifierContinue c = true) : Solid c := by
  have hcases : isAsciiWord c = true ∨ 0x80 ≤ c.toNat ∧
      (identifierStartRanges.contains c = true ∨ identifierOnlyContinueRanges.contains c = true) := by
    unfold isAsciiWord Char.isAlphanum
    unfold isIdentifierContinue isIdentifierStart at h
    simp only [Bool.or_eq_true, Bool.and_eq_true, decide_eq_true_eq] at h ⊢
    obtain (((halpha | hline) | ⟨hforeign, htable⟩) | hdigit) | ⟨hforeign, htable⟩ := h
    · exact .inl (.inl (.inl halpha))
    · exact .inl (.inr hline)
    · exact .inr ⟨hforeign, .inl htable⟩
    · exact .inl (.inl (.inr hdigit))
    · exact .inr ⟨hforeign, .inr htable⟩
  obtain hword | ⟨hforeign, htable⟩ := hcases
  · exact solid_of_isAsciiWord hword
  · refine ⟨Bool.eq_false_iff.mpr fun hblank => ?_, ?_, ?_⟩
    · obtain ⟨hstart, hcontinue⟩ :=
        not_contains_of_mem_foreignBlanks (mem_foreignBlanks hblank hforeign)
      rw [hstart, hcontinue] at htable
      exact htable.elim Bool.false_ne_true Bool.false_ne_true
    · rintro rfl
      exact absurd hforeign (by decide)
    · rintro rfl
      exact absurd hforeign (by decide)

/-! ## What the readers leave -/

/-- What was read of a text, up to what is left of it, ends in a solid character. -/
def EndsSolid (cs after : List Char) : Prop := ∃ front c, Solid c ∧ cs = front ++ c :: after

section

variable {cs mid after : List Char}

theorem endsSolid_cons {c : Char} (hc : Solid c) (after : List Char) :
    EndsSolid (c :: after) after := ⟨[], c, hc, rfl⟩

theorem EndsSolid.of_suffix (h : EndsSolid mid after) (hmid : mid <:+ cs) : EndsSolid cs after := by
  obtain ⟨front, c, hc, rfl⟩ := h
  obtain ⟨start, rfl⟩ := hmid
  exact ⟨start ++ front, c, hc, (List.append_assoc _ _ _).symm⟩

theorem EndsSolid.cons (h : EndsSolid cs after) (c : Char) : EndsSolid (c :: cs) after :=
  h.of_suffix (List.suffix_cons c cs)

theorem EndsSolid.suffix (h : EndsSolid cs after) : after <:+ cs := by
  obtain ⟨front, c, -, rfl⟩ := h
  exact ⟨front ++ [c], List.append_assoc _ _ _⟩

/-- Nothing was read, or what was read ends in a solid character. -/
def MayEndSolid (cs after : List Char) : Prop := after = cs ∨ EndsSolid cs after

theorem EndsSolid.more (h : EndsSolid cs mid) (hmore : MayEndSolid mid after) :
    EndsSolid cs after := by
  obtain rfl | hmore := hmore
  · exact h
  · exact hmore.of_suffix h.suffix

theorem mayEndSolid_append {front : List Char} (h : ∀ c ∈ front, Solid c) (after : List Char) :
    MayEndSolid (front ++ after) after := by
  obtain rfl | ⟨start, c, rfl⟩ := List.eq_nil_or_concat front
  · exact .inl rfl
  · rw [List.concat_eq_append] at h ⊢
    refine .inr ⟨start, c, h c (List.mem_append_right _ (List.mem_singleton_self c)), ?_⟩
    rw [List.append_assoc, List.singleton_append]

theorem mayEndSolid_drop (count : Nat) (cs : List Char) (h : ∀ c ∈ cs.take count, Solid c) :
    MayEndSolid cs (cs.drop count) := by
  have hmay := mayEndSolid_append h (cs.drop count)
  rwa [List.take_append_drop] at hmay

theorem mayEndSolid_dropWhile {p : Char → Bool} (hp : ∀ c, p c = true → Solid c)
    (cs : List Char) : MayEndSolid cs (cs.dropWhile p) := by
  have hmay : MayEndSolid (cs.takeWhile p ++ cs.dropWhile p) (cs.dropWhile p) :=
    mayEndSolid_append (fun c hc => hp c (List.mem_takeWhile_imp hc)) _
  rwa [List.takeWhile_append_dropWhile] at hmay

theorem endsSolid_span {p : Char → Bool} (hp : ∀ c, p c = true → Solid c) {digit : Char}
    {digits : List Char} (h : cs.span p = (digit :: digits, after)) : EndsSolid cs after := by
  rw [List.span_eq_takeWhile_dropWhile] at h
  obtain ⟨htaken, rfl⟩ := Prod.mk.inj h
  obtain hnone | hsolid := mayEndSolid_dropWhile hp cs
  · have hsplit := List.takeWhile_append_dropWhile (p := p) (l := cs)
    rw [htaken, hnone] at hsplit
    exact absurd (List.append_left_eq_self.mp hsplit) (List.cons_ne_nil _ _)
  · exact hsolid

/-- A run of solid characters that has begun ends in one. -/
theorem endsSolid_dropWhile {p : Char → Bool} (hp : ∀ c, p c = true → Solid c) {c : Char}
    (hc : p c = true) (rest : List Char) : EndsSolid (c :: rest) ((c :: rest).dropWhile p) := by
  rw [List.dropWhile_cons_of_pos hc]
  exact (endsSolid_cons (hp c hc) rest).more (mayEndSolid_dropWhile hp rest)

end

theorem solid_of_isDigit {c : Char} (h : c.isDigit = true) : Solid c :=
  solid_of_isAsciiWord (by
    unfold isAsciiWord Char.isAlphanum
    rw [h, Bool.or_true, Bool.true_or])

theorem solid_of_isNumberChar {c : Char} (h : isNumberChar c = true) : Solid c := by
  obtain hdigit | hline := (Bool.or_eq_true _ _).mp h
  · exact solid_of_isDigit hdigit
  · rw [of_decide_eq_true hline]
    decide

/-! ### Strings and characters -/

theorem suffix_of_skipEscape {cs after : List Char} (h : skipEscape cs = some after) :
    after <:+ cs := by
  unfold skipEscape at h
  split at h
  · next a b rest =>
      split_ifs at h
      obtain rfl := Option.some.inj h
      exact ⟨['x', a, b], rfl⟩
  · next rest =>
      split at h
      · next digit digits after' hspan =>
          obtain rfl := Option.some.inj h
          rw [List.span_eq_takeWhile_dropWhile] at hspan
          have hdigits : '\x7d' :: after' <:+ rest :=
            (Prod.mk.inj hspan).2 ▸ List.dropWhile_suffix _
          exact ((List.suffix_cons _ _).trans hdigits).trans
            ((List.suffix_cons _ _).trans (List.suffix_cons _ _))
      · cases h
  · next a b c d rest _ =>
      split_ifs at h
      obtain rfl := Option.some.inj h
      exact ⟨['u', a, b, c, d], rfl⟩
  · cases h
  · cases h
  · next c rest _ _ _ _ _ =>
      obtain rfl := Option.some.inj h
      exact List.suffix_cons c _
  · cases h

theorem endsSolid_skipString {fuel : Nat} {cs after : List Char}
    (h : skipString fuel cs = some after) : EndsSolid cs after := by
  induction fuel generalizing cs with
  | zero => cases h
  | succ fuel ih =>
      unfold skipString at h
      split at h
      · cases h
      · cases h
      · obtain rfl := Option.some.inj h
        exact endsSolid_cons (by decide) _
      · next hfuel =>
          obtain rfl := Nat.succ.inj hfuel
          obtain ⟨mid, hmid, h⟩ := Option.bind_eq_some_iff.mp h
          exact ((ih h).of_suffix (suffix_of_skipEscape hmid)).cons _
      · next hfuel =>
          obtain rfl := Nat.succ.inj hfuel
          exact (ih h).cons _

theorem endsSolid_skipRawString {hashes : Nat} {cs after : List Char}
    (h : skipRawString hashes cs = some after) : EndsSolid cs after := by
  fun_induction skipRawString hashes cs with
  | case1 => cases h
  | case2 rest hclosed =>
      obtain rfl := Option.some.inj h
      obtain ⟨-, hmarks⟩ := Bool.and_eq_true_iff.mp hclosed
      have hrun := mayEndSolid_drop hashes rest fun mark hmark => by
        rw [of_decide_eq_true (List.all_eq_true.mp hmarks mark hmark)]
        decide
      exact (endsSolid_cons (by decide) rest).more hrun
  | case3 rest hopen ih => exact (ih h).cons _
  | case4 c rest _ ih => exact (ih h).cons c

theorem endsSolid_skipCharacter {cs after : List Char} (h : skipCharacter cs = some after) :
    EndsSolid cs after := by
  unfold skipCharacter at h
  split at h
  · obtain rfl := Option.some.inj h
    exact endsSolid_cons (by decide) _
  · split at h
    · next hescape =>
        obtain rfl := Option.some.inj h
        exact ((endsSolid_cons (by decide) _).of_suffix (suffix_of_skipEscape hescape)).cons _
    · cases h
  · obtain rfl := Option.some.inj h
    exact (endsSolid_cons (by decide) _).cons _
  · cases h

/-! ### Numbers -/

theorem mayEndSolid_skipSuffix (cs : List Char) : MayEndSolid cs (skipSuffix cs) := by
  have hwords : (numericSuffixes.all fun suffix => suffix.all isAsciiWord) = true := by decide
  unfold skipSuffix
  split
  · next suffix hfound =>
      have hmem := List.mem_of_find?_eq_some hfound
      have hprefix : suffix <+: cs := List.isPrefixOf_iff_prefix.mp
        (List.find?_some (p := fun suffix : List Char => suffix.isPrefixOf cs) hfound)
      refine mayEndSolid_drop suffix.length cs fun c hc => solid_of_isAsciiWord ?_
      rw [← List.prefix_iff_eq_take.mp hprefix] at hc
      exact List.all_eq_true.mp (List.all_eq_true.mp hwords suffix hmem) c hc
  · exact .inl rfl

/-- Digits and letters of ASCII are solid. -/
theorem solid_of_toNat {c : Char} (h : (48 ≤ c.toNat ∧ c.toNat ≤ 57) ∨
    (65 ≤ c.toNat ∧ c.toNat ≤ 90) ∨ (97 ≤ c.toNat ∧ c.toNat ≤ 122)) : Solid c := by
  refine ⟨Bool.eq_false_iff.mpr fun hblank => ?_, ?_, ?_⟩
  · unfold isBlank at hblank
    simp only [Bool.or_eq_true, Bool.and_eq_true, decide_eq_true_eq, beq_iff_eq] at hblank
    omega
  · rintro rfl
    exact absurd h (by decide)
  · rintro rfl
    exact absurd h (by decide)

theorem solid_of_hexadecimal {c : Char} (h : (skipEscape.isHex c || decide (c = '_')) = true) :
    Solid c := by
  unfold skipEscape.isHex at h
  simp only [Bool.or_eq_true, Bool.and_eq_true, decide_eq_true_eq] at h
  obtain ((hdigit | ⟨hfirst, hlast⟩) | ⟨hfirst, hlast⟩) | rfl := h
  · exact solid_of_isDigit hdigit
  · have hfirst : 97 ≤ c.toNat := hfirst
    have hlast : c.toNat ≤ 102 := hlast
    exact solid_of_toNat (by omega)
  · have hfirst : 65 ≤ c.toNat := hfirst
    have hlast : c.toNat ≤ 70 := hlast
    exact solid_of_toNat (by omega)
  · decide

theorem solid_of_binary {c : Char}
    (h : (decide (c = '0') || decide (c = '1') || decide (c = '_')) = true) : Solid c := by
  simp only [Bool.or_eq_true, decide_eq_true_eq] at h
  obtain (rfl | rfl) | rfl := h <;> decide

theorem solid_of_octal {c : Char}
    (h : (decide ('0' ≤ c) && decide (c ≤ '7') || decide (c = '_')) = true) : Solid c := by
  simp only [Bool.or_eq_true, Bool.and_eq_true, decide_eq_true_eq] at h
  obtain ⟨hfirst, hlast⟩ | rfl := h
  · have hfirst : 48 ≤ c.toNat := hfirst
    have hlast : c.toNat ≤ 55 := hlast
    exact solid_of_toNat (by omega)
  · decide

/-- Behind a digit, an integer and its suffix end in a solid character. -/
theorem endsSolid_skipInteger {c : Char} (hc : c.isDigit = true) (rest : List Char) :
    EndsSolid (c :: rest) (skipInteger (c :: rest)) := by
  have hdecimal : EndsSolid (c :: rest) (skipSuffix ((c :: rest).dropWhile isNumberChar)) :=
    (endsSolid_dropWhile (fun _ => solid_of_isNumberChar) (by unfold isNumberChar; rw [hc]; rfl)
      rest).more (mayEndSolid_skipSuffix _)
  have hbased : ∀ {digit : Char → Bool} {base : Char} {digits found after : List Char},
      (∀ d, digit d = true → Solid d) → rest = base :: digits →
      digits.span digit = (found, after) → found ≠ [] →
      EndsSolid (c :: rest) (skipSuffix after) := by
    rintro digit base digits found after hdigit rfl hspan hne
    obtain ⟨first, found, rfl⟩ := List.exists_cons_of_ne_nil hne
    exact (((endsSolid_span hdigit hspan).cons base).cons c).more (mayEndSolid_skipSuffix _)
  unfold skipInteger
  dsimp only
  -- behind a mark of a base there may be no digit, and then only the zero is read
  split
  · next digits heq =>
      obtain ⟨rfl, rfl⟩ := List.cons.inj heq
      split
      · exact hdecimal
      · next hne hspan => exact hbased (fun _ => solid_of_hexadecimal) rfl hspan hne
  · next digits heq =>
      obtain ⟨rfl, rfl⟩ := List.cons.inj heq
      split
      · exact hdecimal
      · next hne hspan => exact hbased (fun _ => solid_of_binary) rfl hspan hne
  · next digits heq =>
      obtain ⟨rfl, rfl⟩ := List.cons.inj heq
      split
      · exact hdecimal
      · next hne hspan => exact hbased (fun _ => solid_of_octal) rfl hspan hne
  · exact hdecimal

theorem mayEndSolid_skipFloatSuffix (cs : List Char) : MayEndSolid cs (skipFloatSuffix cs) := by
  unfold skipFloatSuffix
  split
  · next c rest =>
      split_ifs with hletter
      · split
        · exact .inl rfl
        · next digits after hne hspan =>
            obtain _ | ⟨digit, digits⟩ := digits
            · exact absurd rfl hne
            · exact .inr ((endsSolid_span (fun _ => solid_of_isDigit) hspan).cons c)
      · exact .inl rfl
  · exact .inl rfl

theorem mayEndSolid_skipExponent? {cs after : List Char} (h : skipExponent? cs = some after) :
    MayEndSolid cs after := by
  have hdigits : ∀ {c d : Char} {rest more : List Char}, d :: more <:+ rest →
      MayEndSolid (c :: rest) (if isNumberChar d then
        skipFloatSuffix ((d :: more).dropWhile isNumberChar) else c :: rest) := by
    intro c d rest more hsuffix
    split_ifs with hd
    · have hrun := (endsSolid_dropWhile (fun _ => solid_of_isNumberChar) hd more).more
        (mayEndSolid_skipFloatSuffix _)
      exact .inr ((hrun.of_suffix hsuffix).cons c)
    · exact .inl rfl
  unfold skipExponent? at h
  split at h
  · next c rest =>
      split_ifs at h
      dsimp only at h
      split at h
      · next d more heq =>
          rw [heq] at h
          obtain rfl := Option.some.inj h
          refine hdigits ?_
          -- a sign may stand before the digits
          rw [← heq]
          split
          · split_ifs
            · exact List.suffix_cons _ _
            · exact List.suffix_rfl
          · exact List.suffix_rfl
      · exact .inl (Option.some.inj h).symm
  · cases h

theorem endsSolid_skipFloat? {c : Char} (hc : c.isDigit = true) {rest after : List Char}
    (h : skipFloat? (c :: rest) = some after) : EndsSolid (c :: rest) after := by
  have hwhole : EndsSolid (c :: rest) ((c :: rest).dropWhile isNumberChar) :=
    endsSolid_dropWhile (fun _ => solid_of_isNumberChar) (by unfold isNumberChar; rw [hc]; rfl) rest
  unfold skipFloat? at h
  dsimp only at h
  split at h
  · next behind heq =>
      -- the point itself is solid, so a fraction may be empty
      rw [heq] at hwhole
      have hpoint := hwhole.more (.inr (endsSolid_cons (c := '.') (by decide) behind))
      split at h
      · next d more =>
          split_ifs at h
          obtain rfl := Option.some.inj h
          have hfraction := hpoint.more
            (mayEndSolid_dropWhile (fun _ => solid_of_isNumberChar) (d :: more))
          cases hexponent : skipExponent? ((d :: more).dropWhile isNumberChar) with
          | none => exact hfraction.more (mayEndSolid_skipFloatSuffix _)
          | some after => exact hfraction.more (mayEndSolid_skipExponent? hexponent)
      · obtain rfl := Option.some.inj h
        exact hpoint
  · exact hwhole.more (mayEndSolid_skipExponent? h)

/-! ## Tokens -/

/-- How a token that has been read off the front of a text ends: punctuation is one character, and
every other token ends in a solid one. -/
def Ends (cs : List Char) : TokenKind × List Char → Prop
  | (.punctuation, after) => ∃ c, cs = c :: after
  | (_, after) => EndsSolid cs after

theorem ends_run {c : Char} (rest : List Char) (hc : isIdentifierStart c = true) :
    Ends (c :: rest) (.word, (c :: rest).dropWhile isIdentifierContinue) :=
  endsSolid_dropWhile (fun _ => solid_of_continues) (continues_of_starts hc) rest

theorem ends_literal {cs : List Char} {rest : Option (List Char)}
    (h : ∀ after, rest = some after → EndsSolid cs after) :
    ∀ found ∈ rest.map fun after => (TokenKind.literal, after), Ends cs found := by
  intro found hfound
  obtain ⟨after, hafter, rfl⟩ := Option.map_eq_some_iff.mp hfound
  exact h after hafter

theorem endsSolid_rawString {cs content after : List Char} {hashes count : Nat}
    (hopening : rawStringOpening cs = some (count, content))
    (h : skipRawString hashes content = some after) : EndsSolid cs after := by
  unfold rawStringOpening at hopening
  split at hopening
  · next marks rest hspan =>
      rw [List.span_eq_takeWhile_dropWhile] at hspan
      obtain ⟨-, rfl⟩ := Prod.mk.inj (Option.some.inj hopening)
      have hrest : '"' :: rest <:+ cs := (Prod.mk.inj hspan).2 ▸ List.dropWhile_suffix _
      exact (endsSolid_skipRawString h).of_suffix ((List.suffix_cons _ _).trans hrest)
  · cases hopening

theorem ends_readToken (afterDot : Bool) (cs : List Char) :
    ∀ found ∈ readToken afterDot cs, Ends cs found := by
  intro found h
  unfold readToken at h
  dsimp only at h
  split at h
  · cases h
  · exact ends_literal (fun _ hskip => (endsSolid_skipString hskip).cons _) found h
  · exact ends_literal (fun _ hskip => ((endsSolid_skipString hskip).cons _).cons _) found h
  · exact ends_literal (fun _ hskip => ((endsSolid_skipString hskip).cons _).cons _) found h
  · split at h
    · next hopening =>
        exact ends_literal (fun _ hskip => (endsSolid_rawString hopening hskip).cons _) found h
    · cases h
      exact ends_run _ (by decide)
  · split at h
    · next hopening =>
        exact ends_literal
          (fun _ hskip => ((endsSolid_rawString hopening hskip).cons _).cons _) found h
    · cases h
      exact ends_run _ (by decide)
  · split at h
    · next hopening =>
        exact ends_literal
          (fun _ hskip => ((endsSolid_rawString hopening hskip).cons _).cons _) found h
    · cases h
      exact ends_run _ (by decide)
  · split at h
    · next hopening =>
        exact ends_literal (fun _ hskip => (endsSolid_rawString hopening hskip).cons _) found h
    · split at h
      next c more _ =>
        split_ifs at h with hc
        · cases h
          exact ((ends_run more hc : EndsSolid _ _).cons _).cons _
        · cases h
          exact ends_run _ (by decide)
      · cases h
        exact ends_run _ (by decide)
  · split at h <;> cases h
    · next hskip => exact (((endsSolid_skipCharacter hskip).cons _).cons _ : EndsSolid _ _)
    · exact ends_run _ (by decide)
  · split at h <;> cases h
    · next hskip => exact ((endsSolid_skipCharacter hskip).cons _ : EndsSolid _ _)
    · exact ⟨_, rfl⟩
  · split_ifs at h with hletter <;> cases h
    · next c rest =>
        have hc := solid_of_continues (continues_of_starts (starts_of_letter hletter))
        exact ((endsSolid_cons hc rest).more
          (mayEndSolid_dropWhile (fun _ => solid_of_continues) rest)).cons '$'
    · exact ⟨_, rfl⟩
  · split at h
    · next hdigit =>
        split at h
        · next hfloat =>
            split_ifs at hfloat
            cases h
            exact endsSolid_skipFloat? hdigit hfloat
        · cases h
          exact endsSolid_skipInteger hdigit _
    · split_ifs at h with hstart <;> cases h
      · exact ends_run _ hstart
      · exact ⟨_, rfl⟩

/-- A token is one punctuation character, or ends in a solid character. -/
structure Token.Closes (t : Token) : Prop where
  punctuation : t.kind = .punctuation → ∃ c, t.text.toList = [c]
  other : t.kind ≠ .punctuation → ∃ front c, Solid c ∧ t.text.toList = front ++ [c]

theorem closes_of_ends {cs after : List Char} {kind : TokenKind} (glued commented : Bool)
    (h : Ends cs (kind, after)) :
    Token.Closes ⟨kind, String.ofList (cs.take (cs.length - after.length)), glued, commented⟩ ∧
      cs = cs.take (cs.length - after.length) ++ after := by
  have htake : ∀ {read : List Char}, cs = read ++ after →
      cs.take (cs.length - after.length) = read := by
    rintro read rfl
    rw [List.length_append, Nat.add_sub_cancel, List.take_left]
  have hsolid : EndsSolid cs after → ∃ front c, Solid c ∧
      cs.take (cs.length - after.length) = front ++ [c] ∧ cs = front ++ [c] ++ after := by
    rintro ⟨front, c, hc, hsplit⟩
    rw [← List.singleton_append, ← List.append_assoc] at hsplit
    exact ⟨front, c, hc, htake hsplit, hsplit⟩
  by_cases hkind : kind = .punctuation
  · subst hkind
    obtain ⟨c, hsplit⟩ := h
    have hread : cs.take (cs.length - after.length) = [c] := htake hsplit
    rw [hread]
    exact ⟨⟨fun _ => ⟨c, String.toList_ofList⟩, fun hother => absurd rfl hother⟩, hsplit⟩
  · have hends : EndsSolid cs after := by
      cases kind with
      | punctuation => exact absurd rfl hkind
      | _ => exact h
    obtain ⟨front, c, hc, hread, hsplit⟩ := hsolid hends
    rw [hread]
    exact ⟨⟨fun hpunctuation => absurd hpunctuation hkind,
      fun _ => ⟨front, c, hc, String.toList_ofList⟩⟩, hsplit⟩

theorem suffix_of_skipBlockComment {depth : Nat} {cs after : List Char}
    (h : skipBlockComment depth cs = some after) : after <:+ cs := by
  fun_induction skipBlockComment depth cs with
  | case1 cs =>
      obtain rfl := Option.some.inj h
      exact List.suffix_rfl
  | case2 => cases h
  | case3 depth rest ih | case4 depth rest ih =>
      exact (ih h).trans ((List.suffix_cons _ _).trans (List.suffix_cons _ _))
  | case5 depth c rest _ _ ih => exact (ih h).trans (List.suffix_cons _ _)

theorem suffix_of_skipInterpreterLine? {cs after : List Char}
    (h : skipInterpreterLine? cs = some after) : after <:+ cs := by
  unfold skipInterpreterLine? at h
  split at h
  · next rest =>
      split_ifs at h
      split at h
      · next c behind hbehind =>
          obtain rfl := Option.some.inj h
          have hrest : c :: behind <:+ rest := hbehind ▸ List.dropWhile_suffix _
          exact ((List.suffix_cons _ _).trans hrest).trans
            ((List.suffix_cons _ _).trans (List.suffix_cons _ _))
      · cases h
  · cases h

/-- **A token stands in its text**, in front of what is behind it, and ends as tokens do. -/
theorem closes_of_mem {fuel : Nat} {state : LexState} {cs : List Char}
    {placed : List (Token × List Char)} (h : lexPlaced fuel state cs = some placed) :
    ∀ found ∈ placed, found.1.Closes ∧ found.1.text.toList ++ found.2 <:+ cs := by
  fun_induction lexPlaced fuel state cs generalizing placed with
  | case1 | case2 =>
      obtain rfl := Option.some.inj h
      exact fun _ hfound => absurd hfound List.not_mem_nil
  | case3 fuel state rest ih =>
      intro found hfound
      obtain ⟨hcloses, hsuffix⟩ := ih h found hfound
      exact ⟨hcloses, hsuffix.trans ((List.dropWhile_suffix _).trans
        ((List.suffix_cons _ _).trans (List.suffix_cons _ _)))⟩
  | case4 fuel state rest ih =>
      obtain ⟨after, hafter, h⟩ := Option.bind_eq_some_iff.mp h
      intro found hfound
      obtain ⟨hcloses, hsuffix⟩ := ih after h found hfound
      exact ⟨hcloses, hsuffix.trans ((suffix_of_skipBlockComment hafter).trans
        ((List.suffix_cons _ _).trans (List.suffix_cons _ _)))⟩
  | case5 fuel state c rest _ _ _ ih =>
      intro found hfound
      obtain ⟨hcloses, hsuffix⟩ := ih h found hfound
      exact ⟨hcloses, hsuffix.trans (List.suffix_cons c rest)⟩
  | case6 fuel state c rest _ _ _ after hafter ih =>
      intro found hfound
      obtain ⟨hcloses, hsuffix⟩ := ih h found hfound
      split_ifs at hafter
      exact ⟨hcloses, hsuffix.trans (suffix_of_skipInterpreterLine? hafter)⟩
  | case7 fuel state c rest _ _ _ _ ih =>
      obtain ⟨⟨kind, after⟩, hread, h⟩ := Option.bind_eq_some_iff.mp h
      obtain ⟨more, hmore, rfl⟩ := Option.map_eq_some_iff.mp h
      obtain ⟨hcloses, hsplit⟩ := closes_of_ends state.glued state.commented
        (ends_readToken state.afterDot (c :: rest) _ hread)
      refine List.forall_mem_cons.mpr ⟨⟨hcloses, ?_⟩, fun found hfound => ?_⟩
      · rw [String.toList_ofList]
        exact hsplit ▸ List.suffix_rfl
      · obtain ⟨hcloses, hsuffix⟩ := ih after hmore found hfound
        exact ⟨hcloses, hsuffix.trans ⟨_, hsplit.symm⟩⟩

end RustScript.Rust
