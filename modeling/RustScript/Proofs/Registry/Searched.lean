import RustScript.Proofs.Registry.Contract
import RustScript.Proofs.Text.Lines

/-!
# What a search says

A search prints its best match on the first line that is not blank. `ResultLine` is the form of such
a line, and the reader accepts exactly this form (`resultLine?_eq_some_iff`). With it every outcome
of a search is one of three: a match, a sign that there is nothing of that name, or something that
cannot be used (`search_contract`).
-/

set_option autoImplicit false

namespace RustScript.Registry

open RustScript.Text RustScript.Source RustScript.Command

variable {σ : Type}

/-! ## Versions -/

/-- Digits, and at least one of them. -/
structure IsNumber (cs : List Char) : Prop where
  digits : ∀ c ∈ cs, isDigit c
  ne_nil : cs ≠ []

/-- Three numbers with points between them, and whatever follows. -/
def IsVersion (cs : List Char) : Prop :=
  ∃ major minor patch more, IsNumber major ∧ IsNumber minor ∧ IsNumber patch ∧
    cs = major ++ '.' :: (minor ++ '.' :: (patch ++ more))

theorem isDigit_point : isDigit '.' = false := by decide +kernel

theorem afterDigits?_eq (cs : List Char) :
    afterDigits? cs =
      if cs.takeWhile isDigit = [] then none else some (cs.dropWhile isDigit) := by
  unfold afterDigits?
  rw [List.span_eq_takeWhile_dropWhile]
  cases cs.takeWhile isDigit <;> rfl

/-- The digits in front of a text are a number if there are any. -/
theorem isNumber_takeWhile {cs : List Char} (h : cs.takeWhile isDigit ≠ []) :
    IsNumber (cs.takeWhile isDigit) :=
  ⟨fun _ hc => List.mem_takeWhile_imp hc, h⟩

theorem exists_of_afterDigits? {cs rest : List Char} (h : afterDigits? cs = some rest) :
    ∃ number, IsNumber number ∧ cs = number ++ rest := by
  rw [afterDigits?_eq] at h
  split at h
  · cases h
  · next hne =>
      rw [← Option.some.inj h]
      exact ⟨_, isNumber_takeWhile hne, List.takeWhile_append_dropWhile.symm⟩

theorem afterDigits?_append_point {number : List Char} (h : IsNumber number) (rest : List Char) :
    afterDigits? (number ++ '.' :: rest) = some ('.' :: rest) := by
  have hpoint : ¬ isDigit '.' = true := by
    rw [isDigit_point]
    exact Bool.false_ne_true
  rw [afterDigits?_eq, List.takeWhile_append_of_pos h.digits, List.takeWhile_cons_of_neg hpoint,
    List.append_nil, if_neg h.ne_nil, List.dropWhile_append_of_pos h.digits,
    List.dropWhile_cons_of_neg hpoint]

/-- There are digits in front of a text that begins with a number, whatever follows it. -/
theorem isSome_afterDigits?_append {number : List Char} (h : IsNumber number) (rest : List Char) :
    (afterDigits? (number ++ rest)).isSome = true := by
  rw [afterDigits?_eq, List.takeWhile_append_of_pos h.digits, if_neg]
  · rfl
  · exact fun hnil => h.ne_nil (List.append_eq_nil_iff.mp hnil).1

theorem afterPoint?_eq_some_iff {cs rest : List Char} :
    afterPoint? cs = some rest ↔ cs = '.' :: rest := by
  unfold afterPoint?
  split
  · simp
  · next hpoint =>
      constructor
      · nofun
      · exact fun h => absurd h (hpoint rest)

theorem startsWithVersion_iff (cs : List Char) : startsWithVersion cs = true ↔ IsVersion cs := by
  unfold startsWithVersion
  constructor
  · intro h
    obtain ⟨more, hall⟩ := Option.isSome_iff_exists.mp h
    obtain ⟨fourth, hall, hdigits'⟩ := Option.bind_eq_some_iff.mp hall
    obtain ⟨third, hall, hpoint'⟩ := Option.bind_eq_some_iff.mp hall
    obtain ⟨second, hall, hdigits⟩ := Option.bind_eq_some_iff.mp hall
    obtain ⟨first, hfirst, hpoint⟩ := Option.bind_eq_some_iff.mp hall
    -- each reader says what it has passed over
    obtain ⟨major, hmajor, rfl⟩ := exists_of_afterDigits? hfirst
    obtain rfl := afterPoint?_eq_some_iff.mp hpoint
    obtain ⟨minor, hminor, rfl⟩ := exists_of_afterDigits? hdigits
    obtain rfl := afterPoint?_eq_some_iff.mp hpoint'
    obtain ⟨patch, hpatch, rfl⟩ := exists_of_afterDigits? hdigits'
    exact ⟨major, minor, patch, more, hmajor, hminor, hpatch, rfl⟩
  · rintro ⟨major, minor, patch, more, hmajor, hminor, hpatch, rfl⟩
    simp only [bind, afterDigits?_append_point hmajor, Option.bind, afterPoint?,
      afterDigits?_append_point hminor]
    exact isSome_afterDigits?_append hpatch more

theorem quotedVersion?_eq_some_iff {cs version : List Char} :
    quotedVersion? cs = some version ↔
      ∃ rest, cs = '"' :: (version ++ '"' :: rest) ∧ '"' ∉ version ∧ IsVersion version := by
  constructor
  · intro h
    unfold quotedVersion? at h
    split at h
    · next inner =>
        rw [List.span_eq_takeWhile_dropWhile] at h
        split at h
        · next text rest hspan =>
            obtain ⟨htext, hrest⟩ := Prod.mk.inj hspan
            split at h
            · next hversion =>
                obtain rfl := Option.some.inj h
                refine ⟨rest, ?_, ?_, (startsWithVersion_iff _).mp hversion⟩
                · rw [← hrest, ← htext, List.takeWhile_append_dropWhile]
                · intro hquote
                  rw [← htext] at hquote
                  have hother := List.mem_takeWhile_imp hquote
                  exact of_decide_eq_true hother rfl
            · cases h
        · cases h
    · cases h
  · rintro ⟨rest, rfl, hquote, hversion⟩
    rw [quotedVersion?, List.span_eq_takeWhile_dropWhile, takeWhile_mark hquote,
      dropWhile_mark hquote]
    exact if_pos ((startsWithVersion_iff version).mpr hversion)

/-! ## Lines -/

/-- ASCII letters, digits, `-` and `_`, and at least one of them. -/
structure IsCrateName (cs : List Char) : Prop where
  characters : ∀ c ∈ cs, c.isAlphanum = true ∨ c = '-' ∨ c = '_'
  ne_nil : cs ≠ []

/-- The line gives a crate by its name, an equals sign and a version between quotes. There may be
blanks in front of each of them, and anything behind them. -/
structure ResultLine (line found version : List Char) : Prop where
  named : IsCrateName found
  versioned : IsVersion version
  unquoted : '"' ∉ version
  written : ∃ front before behind rest, allBlank front ∧ allBlank before ∧ allBlank behind ∧
    line = front ++ (found ++ (before ++ '=' :: (behind ++ '"' :: (version ++ '"' :: rest))))

theorem isResultName_iff {c : Char} :
    isResultName c = true ↔ c.isAlphanum = true ∨ c = '-' ∨ c = '_' := by
  unfold isResultName
  simp only [Bool.or_eq_true, decide_eq_true_eq]
  tauto

theorem IsCrateName.resultName {cs : List Char} (h : IsCrateName cs) :
    ∀ c ∈ cs, isResultName c = true := fun c hc => isResultName_iff.mpr (h.characters c hc)

/-- A blank is no part of a name. -/
theorem not_isResultName_of_isBlank {c : Char} (h : isBlank c = true) : isResultName c = false := by
  rw [Bool.eq_false_iff]
  intro hname
  obtain hword | rfl | rfl := isResultName_iff.mp hname
  · have hsolid : isBlank c = false := not_blank_of_isAsciiWord (by simp [isAsciiWord, hword])
    exact absurd h (by rw [hsolid]; exact Bool.false_ne_true)
  · exact absurd h (by decide)
  · exact absurd h (by decide)

theorem IsCrateName.exists_solid {cs : List Char} (h : IsCrateName cs) :
    ∃ c rest, cs = c :: rest ∧ isBlank c = false := by
  obtain ⟨c, rest, rfl⟩ := List.exists_cons_of_ne_nil h.ne_nil
  refine ⟨c, rest, rfl, ?_⟩
  by_contra hblank
  have hno := not_isResultName_of_isBlank (Bool.eq_true_of_not_eq_false hblank)
  rw [h.resultName c List.mem_cons_self] at hno
  cases hno

/-- The equals sign behind a name, with the blanks between them, ends the name. -/
theorem not_isResultName_behind {blanks rest : List Char} (h : allBlank blanks) :
    ∀ c ∈ (blanks ++ '=' :: rest).head?, isResultName c = false := by
  cases blanks with
  | nil =>
      intro c hc
      rw [← Option.some.inj hc]
      decide
  | cons blank blanks =>
      intro c hc
      rw [← Option.some.inj hc]
      exact not_isResultName_of_isBlank (allBlank_cons.mp h).1

theorem span_name {found rest : List Char} (hfound : IsCrateName found)
    (hrest : ∀ c ∈ rest.head?, isResultName c = false) :
    (found ++ rest).span isResultName = (found, rest) := by
  rw [List.span_eq_takeWhile_dropWhile, List.takeWhile_append_of_pos hfound.resultName,
    List.dropWhile_append_of_pos hfound.resultName]
  cases rest with
  | nil => rw [List.takeWhile_nil, List.dropWhile_nil, List.append_nil]
  | cons c rest =>
      have hc : ¬ isResultName c = true := by
        rw [hrest c rfl]
        exact Bool.false_ne_true
      rw [List.takeWhile_cons_of_neg hc, List.dropWhile_cons_of_neg hc, List.append_nil]

/-- Stripping a line keeps everything from its first visible character to any visible one. -/
theorem exists_strip {front inner : List Char} (hfront : allBlank front)
    (hinner : ∃ c rest, inner = c :: rest ∧ isBlank c = false) {d : Char} (hd : isBlank d = false)
    (rest : List Char) :
    ∃ more, strip (front ++ (inner ++ d :: rest)) = inner ++ d :: more := by
  obtain ⟨c, tail, rfl, hc⟩ := hinner
  refine ⟨stripRight rest, ?_⟩
  calc strip (front ++ (c :: tail ++ d :: rest))
      = stripRight (stripLeft (c :: (tail ++ d :: rest))) := by
        unfold strip
        rw [stripLeft_append_of_allBlank _ hfront, List.cons_append]
    _ = stripRight ((c :: tail) ++ [d] ++ rest) := by
        rw [stripLeft_cons_of_not_blank _ hc, List.append_assoc]
        rfl
    _ = c :: tail ++ d :: stripRight rest := by
        rw [stripRight_append _ hd, List.append_assoc]
        rfl

/-- What stripping takes away stands at the ends. -/
theorem exists_strip_append (cs : List Char) :
    ∃ front back, allBlank front ∧ cs = front ++ (strip cs ++ back) := by
  obtain ⟨front, hfront, hsplit⟩ := exists_blanks_append cs
  obtain ⟨back, hback⟩ := prefix_stripRight (stripLeft cs)
  refine ⟨front, back, hfront, ?_⟩
  calc cs = front ++ stripLeft cs := hsplit
    _ = front ++ (strip cs ++ back) := by rw [← hback]; rfl

/-- Behind a name and an equals sign the version decides. -/
theorem resultLine?_of_span {line name afterName rest : List Char}
    (hspan : (strip line).span isResultName = (name, afterName))
    (hequals : stripLeft afterName = '=' :: rest) (hname : name ≠ []) :
    resultLine? line = (quotedVersion? (stripLeft rest)).map fun version =>
      (String.ofList name, String.ofList version) := by
  simp only [resultLine?, hspan, hequals, List.isEmpty_eq_false_iff.mpr hname, Bool.false_eq_true,
    if_false]

/-- What the reader accepts has the form of a result. -/
theorem resultLine_of_eq_some {line : List Char} {found version : String}
    (h : resultLine? line = some (found, version)) :
    ResultLine line found.toList version.toList := by
  unfold resultLine? at h
  rw [List.span_eq_takeWhile_dropWhile] at h
  dsimp only at h
  split at h
  · next rest hequals =>
      split at h
      · cases h
      · next hname =>
          obtain ⟨text, htext, hpair⟩ := Option.map_eq_some_iff.mp h
          obtain ⟨rfl, rfl⟩ := Prod.mk.inj hpair
          obtain ⟨more, hquoted, hquote, hversion⟩ := quotedVersion?_eq_some_iff.mp htext
          -- the text is put together again from what the readers passed over
          obtain ⟨front, back, hfront, hline⟩ := exists_strip_append line
          obtain ⟨before, hbefore, hname'⟩ :=
            exists_blanks_append ((strip line).dropWhile isResultName)
          obtain ⟨behind, hbehind, hrest⟩ := exists_blanks_append rest
          rw [String.toList_ofList, String.toList_ofList]
          refine ⟨⟨fun c hc => isResultName_iff.mp (List.mem_takeWhile_imp hc), ?_⟩, hversion,
            hquote, front, before, behind, more ++ back, hfront, hbefore, hbehind, ?_⟩
          · rw [Bool.not_eq_true, List.isEmpty_eq_false_iff] at hname
            exact hname
          · rw [hquoted] at hrest
            rw [hequals, hrest] at hname'
            have hstrip : strip line = (strip line).takeWhile isResultName ++
                (before ++ '=' :: (behind ++ '"' :: (text ++ '"' :: more))) := by
              rw [← hname', List.takeWhile_append_dropWhile]
            conv_lhs => rw [hline, hstrip]
            simp only [List.append_assoc, List.cons_append]
  · cases h

/-- A line of the form is accepted. -/
theorem resultLine?_of_resultLine {line : List Char} {found version : String}
    (h : ResultLine line found.toList version.toList) :
    resultLine? line = some (found, version) := by
  obtain ⟨hname, hversion, hquote, front, before, behind, rest, hfront, hbefore, hbehind, rfl⟩ := h
  obtain ⟨c, tail, hfound, hc⟩ := hname.exists_solid
  have hinner : ∃ c rest, found.toList ++ (before ++ '=' :: (behind ++ '"' :: version.toList)) =
      c :: rest ∧ isBlank c = false :=
    ⟨c, tail ++ (before ++ '=' :: (behind ++ '"' :: version.toList)), by rw [hfound]; rfl, hc⟩
  -- blanks behind the closing quote may be lost
  obtain ⟨more, hstrip⟩ := exists_strip hfront hinner (show isBlank '"' = false by decide) rest
  simp only [List.append_assoc, List.cons_append] at hstrip
  set quoted := '"' :: (version.toList ++ '"' :: more) with hquoted
  have hspan : (strip (front ++ (found.toList ++ (before ++ '=' :: (behind ++ '"' ::
      (version.toList ++ '"' :: rest)))))).span isResultName =
        (found.toList, before ++ '=' :: (behind ++ quoted)) := by
    rw [hstrip]
    exact span_name hname (not_isResultName_behind hbefore)
  have hequals : stripLeft (before ++ '=' :: (behind ++ quoted)) = '=' :: (behind ++ quoted) := by
    rw [stripLeft_append_of_allBlank _ hbefore, stripLeft_cons_of_not_blank _ (by decide)]
  have hversion' : quotedVersion? quoted = some version.toList :=
    quotedVersion?_eq_some_iff.mpr ⟨more, hquoted, hquote, hversion⟩
  rw [resultLine?_of_span hspan hequals hname.ne_nil, stripLeft_append_of_allBlank _ hbehind,
    hquoted, stripLeft_cons_of_not_blank _ (by decide), ← hquoted, hversion', Option.map_some,
    String.ofList_toList, String.ofList_toList]

/-- **The reader accepts the lines of this form and no others.** -/
theorem resultLine?_eq_some_iff {line : List Char} {found version : String} :
    resultLine? line = some (found, version) ↔ ResultLine line found.toList version.toList :=
  ⟨resultLine_of_eq_some, resultLine?_of_resultLine⟩

/-! ## Outcomes -/

/-- The line is the first one of the text that is not blank. -/
def FirstFilled (text : String) (line : List Char) : Prop :=
  ∃ above below, splitLines text.toList = above ++ line :: below ∧
    (∀ other ∈ above, allBlank other) ∧ ¬ allBlank line

theorem firstFilledLine?_eq_some_iff {text : String} {line : List Char} :
    firstFilledLine? text = some line ↔ FirstFilled text line := by
  unfold firstFilledLine? FirstFilled
  rw [List.find?_eq_some_iff_append]
  constructor
  · rintro ⟨hline, above, below, hsplit, habove⟩
    refine ⟨above, below, hsplit, fun other hother => ?_, ?_⟩
    · simpa using habove other hother
    · simpa using hline
  · rintro ⟨above, below, hsplit, habove, hline⟩
    refine ⟨by simpa using hline, above, below, hsplit, fun other hother => ?_⟩
    simpa using habove other hother

theorem firstFilledLine?_eq_none_iff {text : String} :
    firstFilledLine? text = none ↔ ∀ line ∈ splitLines text.toList, allBlank line := by
  simp [firstFilledLine?]

/-- The search succeeded, and its first line that is not blank gives a crate and its version. -/
def Matches (outcome : Except Fault Output) (found version : String) : Prop :=
  ∃ output line, outcome = .ok output ∧ output.status = 0 ∧ FirstFilled output.stdout line ∧
    ResultLine line found.toList version.toList

/-- The search succeeded and printed nothing but blanks. -/
def PrintsNothing (outcome : Except Fault Output) : Prop :=
  ∃ output, outcome = .ok output ∧ output.status = 0 ∧
    ∀ line ∈ splitLines output.stdout.toList, allBlank line

/-- What a search for `name` says, by the outcome of its command. -/
structure AnswersSearch (name : String) (outcome : Except Fault Output)
    (answer : Except LookupError Release) : Prop where
  /-- A release is given exactly if the best match is a spelling of the name, and it is this
  match. -/
  release : ∀ release, answer = .ok release ↔ ∃ found version, Matches outcome found version ∧
    Crate.equivalent found name = true ∧ release = ⟨.string found, version⟩
  /-- There is no such crate exactly if nothing is printed or another crate is the best match. -/
  notFound : ∀ other, answer = .error (.notFound other) ↔ other = name ∧
    (PrintsNothing outcome ∨
      ∃ found version, Matches outcome found version ∧ Crate.equivalent found name = false)
  /-- Every other outcome cannot be used. -/
  unusable : ∀ other, (∃ reason, answer = .error (.unusable other reason)) ↔ other = name ∧
    ¬ PrintsNothing outcome ∧ ∀ found version, ¬ Matches outcome found version
  /-- There is no other error. -/
  only : ∀ error, answer = .error error →
    error = .notFound name ∨ ∃ reason, error = .unusable name reason

theorem matches_ok_iff {output : Output} {line : List Char} (hstatus : output.status = 0)
    (hline : firstFilledLine? output.stdout = some line) {found version : String} :
    Matches (.ok output) found version ↔ resultLine? line = some (found, version) := by
  rw [resultLine?_eq_some_iff]
  constructor
  · rintro ⟨output', line', houtput, -, hfirst, hresult⟩
    obtain rfl := Except.ok.inj houtput
    rw [firstFilledLine?_eq_some_iff.mpr hfirst] at hline
    obtain rfl := Option.some.inj hline
    exact hresult
  · intro hresult
    exact ⟨output, line, rfl, hstatus, firstFilledLine?_eq_some_iff.mp hline, hresult⟩

theorem printsNothing_ok_iff {output : Output} (hstatus : output.status = 0) :
    PrintsNothing (.ok output) ↔ firstFilledLine? output.stdout = none := by
  rw [firstFilledLine?_eq_none_iff]
  constructor
  · rintro ⟨output', houtput, -, hblank⟩
    obtain rfl := Except.ok.inj houtput
    exact hblank
  · exact fun hblank => ⟨output, rfl, hstatus, hblank⟩

section

variable {name : String} {outcome : Except Fault Output}

/-- Nothing was found, so there is no such crate. -/
theorem answersSearch_of_nothing (hnothing : PrintsNothing outcome)
    (hnone : ∀ found version, ¬ Matches outcome found version) :
    AnswersSearch name outcome (.error (.notFound name)) where
  release := fun _ => iff_of_false nofun fun ⟨found, version, hmatch, _⟩ =>
    hnone found version hmatch
  notFound := by
    intro other
    constructor
    · intro hanswer
      obtain rfl := LookupError.notFound.inj (Except.error.inj hanswer)
      exact ⟨rfl, .inl hnothing⟩
    · rintro ⟨rfl, -⟩
      rfl
  unusable := fun _ => iff_of_false (fun ⟨_, hanswer⟩ => by cases hanswer)
    fun ⟨_, hprinted, _⟩ => hprinted hnothing
  only := fun _ herror => .inl (Except.error.inj herror).symm

/-- Something was found, and the two names decide. -/
theorem answersSearch_of_match {found version : String} (hprinted : ¬ PrintsNothing outcome)
    (hmatch : ∀ other number, Matches outcome other number ↔ (found, version) = (other, number)) :
    AnswersSearch name outcome (if Crate.equivalent found name then .ok ⟨.string found, version⟩
      else .error (.notFound name)) := by
  by_cases hsame : Crate.equivalent found name = true
  · rw [if_pos hsame]
    refine ⟨fun release => ⟨?_, ?_⟩, fun _ => iff_of_false nofun ?_, fun _ => iff_of_false ?_ ?_, ?_⟩
    · intro hanswer
      exact ⟨found, version, (hmatch _ _).mpr rfl, hsame, (Except.ok.inj hanswer).symm⟩
    · rintro ⟨other, number, hother, -, rfl⟩
      obtain ⟨rfl, rfl⟩ := Prod.mk.inj ((hmatch _ _).mp hother)
      rfl
    · rintro ⟨-, hnothing | ⟨other, number, hother, hdiffer⟩⟩
      · exact hprinted hnothing
      · obtain ⟨rfl, -⟩ := Prod.mk.inj ((hmatch _ _).mp hother)
        rw [hsame] at hdiffer
        cases hdiffer
    · rintro ⟨_, hanswer⟩
      cases hanswer
    · rintro ⟨-, -, hnone⟩
      exact hnone found version ((hmatch _ _).mpr rfl)
    · nofun
  · rw [if_neg hsame]
    have hdiffer : Crate.equivalent found name = false := Bool.eq_false_iff.mpr hsame
    refine ⟨fun release => iff_of_false nofun ?_, fun other => ⟨?_, ?_⟩, fun _ =>
      iff_of_false ?_ ?_, fun _ herror => .inl (Except.error.inj herror).symm⟩
    · rintro ⟨other, number, hother, hother', -⟩
      obtain ⟨rfl, -⟩ := Prod.mk.inj ((hmatch _ _).mp hother)
      exact hsame hother'
    · intro hanswer
      obtain rfl := LookupError.notFound.inj (Except.error.inj hanswer)
      exact ⟨rfl, .inr ⟨found, version, (hmatch _ _).mpr rfl, hdiffer⟩⟩
    · rintro ⟨rfl, -⟩
      rfl
    · rintro ⟨_, hanswer⟩
      cases hanswer
    · rintro ⟨-, -, hnone⟩
      exact hnone found version ((hmatch _ _).mpr rfl)

/-- There was nothing to read. -/
theorem answersSearch_of_unusable (reason : String) (hprinted : ¬ PrintsNothing outcome)
    (hnone : ∀ found version, ¬ Matches outcome found version) :
    AnswersSearch name outcome (.error (.unusable name reason)) where
  release := fun _ => iff_of_false nofun fun ⟨found, version, hmatch, _⟩ =>
    hnone found version hmatch
  notFound := by
    refine fun _ => iff_of_false nofun ?_
    rintro ⟨-, hnothing | ⟨found, version, hmatch, -⟩⟩
    · exact hprinted hnothing
    · exact hnone found version hmatch
  unusable := by
    intro other
    constructor
    · rintro ⟨other', hanswer⟩
      obtain ⟨rfl, -⟩ := LookupError.unusable.inj (Except.error.inj hanswer)
      exact ⟨rfl, hprinted, hnone⟩
    · rintro ⟨rfl, -⟩
      exact ⟨reason, rfl⟩
  only := fun _ herror => .inr ⟨reason, (Except.error.inj herror).symm⟩

/-- A command that did not succeed gives nothing to read. -/
theorem answersSearch_of_failed (reason : String)
    (hfailed : ∀ output, outcome = .ok output → output.status ≠ 0) :
    AnswersSearch name outcome (.error (.unusable name reason)) := by
  refine answersSearch_of_unusable reason ?_ ?_
  · rintro ⟨output, houtput, hstatus, -⟩
    exact hfailed output houtput hstatus
  · rintro found version ⟨output, line, houtput, hstatus, -⟩
    exact hfailed output houtput hstatus

end

theorem interpretSearch_of_ok {name : String} {output : Output} (hstatus : output.status = 0) :
    interpretSearch name (.ok output) =
      match firstFilledLine? output.stdout with
      | none => .error (.notFound name)
      | some line =>
          match resultLine? line with
          | none => .error (.unusable name (noResultLine (String.ofList line)))
          | some (found, version) =>
              if Crate.equivalent found name then .ok ⟨.string found, version⟩
              else .error (.notFound name) := by
  unfold interpretSearch
  exact if_neg (by simp [Output.ok, hstatus])

theorem interpretSearch_of_failed {name : String} {output : Output} (hstatus : output.status ≠ 0) :
    interpretSearch name (.ok output) = .error (.unusable name
      s!"cargo search exited {output.status}: {stripString output.stderr}") := by
  unfold interpretSearch
  exact if_pos (by simp [Output.ok, hstatus])

/-- **Every outcome is read as it should be.** -/
theorem answersSearch_interpretSearch (name : String) {outcome : Except Fault Output}
    (houtcome : outcome ≠ .error .incomplete) :
    AnswersSearch name outcome (interpretSearch name outcome) := by
  match outcome with
  | .error .incomplete => exact absurd rfl houtcome
  | .error (.timedOut args seconds) => exact answersSearch_of_failed _ nofun
  | .error (.system error) => exact answersSearch_of_failed _ nofun
  | .ok output =>
      by_cases hstatus : output.status = 0
      · rw [interpretSearch_of_ok hstatus]
        have hprints := printsNothing_ok_iff hstatus
        cases hline : firstFilledLine? output.stdout with
        | none =>
            refine answersSearch_of_nothing (hprints.mpr hline) ?_
            rintro found version ⟨output', line, houtput, -, hfirst, -⟩
            obtain rfl := Except.ok.inj houtput
            rw [firstFilledLine?_eq_some_iff.mpr hfirst] at hline
            cases hline
        | some line =>
            have hprinted : ¬ PrintsNothing (.ok output) := by
              rw [hprints, hline]
              nofun
            have hmatches : ∀ found version, Matches (.ok output) found version ↔
                resultLine? line = some (found, version) :=
              fun _ _ => matches_ok_iff hstatus hline
            dsimp only
            cases hresult : resultLine? line with
            | none =>
                refine answersSearch_of_unusable _ hprinted fun found version hmatch => ?_
                rw [hmatches, hresult] at hmatch
                cases hmatch
            | some result =>
                refine answersSearch_of_match hprinted fun other number => ?_
                rw [hmatches, hresult, Option.some.injEq]
      · rw [interpretSearch_of_failed hstatus]
        refine answersSearch_of_failed _ fun output' houtput => ?_
        rwa [← Except.ok.inj houtput]

/-! ## What cargo prints -/

/-- The line that a search prints for a crate. -/
def searchLine (name version description : String) : String :=
  name ++ " = \"" ++ version ++ "\"    # " ++ description

theorem not_isLineBreak_of_isResultName {c : Char} (h : isResultName c = true) :
    isLineBreak c = false := by
  refine not_isLineBreak_of_isBlank (Bool.eq_false_iff.mpr fun hblank => ?_)
  rw [not_isResultName_of_isBlank hblank] at h
  cases h

/-- The result that a search prints is read, whatever the description says. -/
theorem matches_searchLine {name version : String} (hname : IsCrateName name.toList)
    (hversion : IsVersion version.toList) (hquote : '"' ∉ version.toList)
    (hbreak : ∀ c ∈ version.toList, isLineBreak c = false) (description complaint : String) :
    Matches (.ok ⟨0, searchLine name version description, complaint⟩) name version := by
  set front := name.toList ++ ' ' :: '=' :: ' ' :: '"' :: (version.toList ++ ['"']) with hfront
  have htext : (searchLine name version description).toList =
      front ++ ("    # ".toList ++ description.toList) := by
    have hequals : " = \"".toList = [' ', '=', ' ', '"'] := rfl
    have hmark : "\"    # ".toList = '"' :: "    # ".toList := rfl
    unfold searchLine
    simp only [String.toList_append, hequals, hmark, hfront, List.append_assoc, List.cons_append,
      List.nil_append]
  have hsolid : ∀ c ∈ front, isLineBreak c = false := by
    intro c hc
    simp only [hfront, List.mem_append, List.mem_cons, List.not_mem_nil, or_false] at hc
    obtain hc | rfl | rfl | rfl | rfl | hc | rfl := hc
    · exact not_isLineBreak_of_isResultName (hname.resultName c hc)
    · decide
    · decide
    · decide
    · decide
    · exact hbreak c hc
    · decide
  obtain ⟨tail, below, hlines⟩ := exists_splitLines_append
    (List.append_ne_nil_of_left_ne_nil hname.ne_nil _) hsolid
    ("    # ".toList ++ description.toList)
  have hline : front ++ tail =
      [] ++ (name.toList ++ ([' '] ++ '=' :: ([' '] ++ '"' :: (version.toList ++ '"' :: tail)))) := by
    simp only [hfront, List.append_assoc, List.cons_append, List.nil_append]
  refine ⟨_, front ++ tail, rfl, rfl, ⟨[], below, ?_, nofun, ?_⟩, hname, hversion, hquote, [], [' '],
    [' '], tail, allBlank_nil, rfl, rfl, hline⟩
  · show splitLines (searchLine name version description).toList = _
    rw [htext, hlines, List.nil_append]
  · obtain ⟨c, rest, hcons, hc⟩ := hname.exists_solid
    rw [hfront, hcons, List.append_assoc, List.cons_append, allBlank_cons, hc]
    exact fun hblank => Bool.false_ne_true hblank.1

/-- **What a search comes to.** Whatever the command does, a release is given exactly if it succeeds
and its first line that is not blank is a result for a spelling of the name, and then the release is
that of this line; there is no such crate exactly if it succeeds and prints only blanks or the result
for another crate; and in all other cases the answer cannot be used. In particular a search that
prints the line of a spelling of the name, with any description, is answered by what the line says. -/
theorem search_contract (runner : Runner σ) (cargo : String) (timeout : Option Binary64)
    (name : String) (world : World σ)
    (hcalled : (runner (searchCall cargo name timeout) world).1 ≠ .error .incomplete) :
    AnswersSearch name (runner (searchCall cargo name timeout) world).1
        ((searching runner cargo timeout).resolve name world).1 ∧
      ∀ found version description complaint,
        (runner (searchCall cargo name timeout) world).1 =
            .ok ⟨0, searchLine found version description, complaint⟩ →
        IsCrateName found.toList → IsVersion version.toList → '"' ∉ version.toList →
        (∀ c ∈ version.toList, isLineBreak c = false) → Crate.equivalent found name = true →
        ((searching runner cargo timeout).resolve name world).1 = .ok ⟨.string found, version⟩ := by
  have hresolve : ((searching runner cargo timeout).resolve name world).1 =
      interpretSearch name (runner (searchCall cargo name timeout) world).1 := rfl
  have hreads := answersSearch_interpretSearch name hcalled
  rw [hresolve]
  refine ⟨hreads, ?_⟩
  intro found version description complaint houtcome hfound hversion hquote hbreak hsame
  refine (hreads.release _).mpr ⟨found, version, ?_, hsame, rfl⟩
  rw [houtcome]
  exact matches_searchLine hfound hversion hquote hbreak description complaint

/-- A search that prints the line of a crate whenever it is called. -/
def serdeSearch : Runner Unit := fun _ =>
  pure (.ok ⟨0, searchLine "serde" "1.0.203" "A generic serialization framework\n", ""⟩)

theorem search_contract_serde :
    AnswersSearch "Serde" (serdeSearch (searchCall "cargo" "Serde" none) (World.untouched ())).1
        ((searching serdeSearch "cargo" none).resolve "Serde" (World.untouched ())).1 ∧
      ((searching serdeSearch "cargo" none).resolve "Serde" (World.untouched ())).1 =
        .ok ⟨.string "serde", "1.0.203"⟩ := by
  obtain ⟨hreads, hline⟩ := search_contract serdeSearch "cargo" none "Serde" (World.untouched ()) nofun
  refine ⟨hreads, hline "serde" "1.0.203" "A generic serialization framework\n" "" rfl
    ⟨?_, by decide⟩ ⟨['1'], ['0'], ['2', '0', '3'], [], ?_, ?_, ?_, rfl⟩ (by decide) ?_ (by cbv)⟩
  · exact forall_mem_of_all (by cbv)
  · exact ⟨forall_mem_of_all (by cbv), by decide⟩
  · exact ⟨forall_mem_of_all (by cbv), by decide⟩
  · exact ⟨forall_mem_of_all (by cbv), by decide⟩
  · exact forall_mem_of_all (by cbv)

end RustScript.Registry
