import Mathlib
import RustScript.Proofs.Text.Utf8
import RustScript.Toml.Writer

/-!
# Characters of written documents

A document is written without control characters other than tabs and line feeds: in strings and in
keys they are escaped (`clean_write`). So a written document, which has no carriage returns, is found
again in a text file as it is (`textOfBytes_write`).
-/

set_option autoImplicit false

namespace RustScript.Toml

/-- There are no control characters but tabs and line feeds. -/
def CleanChars (cs : List Char) : Prop := ∀ c ∈ cs, isControlInLines c = false

-- the characters of the text are gone through, and not all that there are
instance (cs : List Char) : Decidable (CleanChars cs) :=
  List.decidableBAll (isControlInLines · = false) cs

/-- The text has no control characters but tabs and line feeds. -/
def Clean (text : String) : Prop := CleanChars text.toList

instance (text : String) : Decidable (Clean text) := inferInstanceAs (Decidable (CleanChars _))

/-! ## Pieces of texts -/

theorem CleanChars.append {cs more : List Char} (h : CleanChars cs) (hmore : CleanChars more) :
    CleanChars (cs ++ more) := fun c hc => (List.mem_append.mp hc).elim (h c) (hmore c)

theorem CleanChars.cons {c : Char} {cs : List Char} (hc : isControlInLines c = false)
    (h : CleanChars cs) : CleanChars (c :: cs) := List.forall_mem_cons.mpr ⟨hc, h⟩

theorem CleanChars.subset {cs some : List Char} (h : CleanChars cs) (hsome : some ⊆ cs) :
    CleanChars some := fun c hc => h c (hsome hc)

theorem clean_ofList {cs : List Char} (h : CleanChars cs) : Clean (String.ofList cs) := by
  unfold Clean
  rwa [String.toList_ofList]

theorem clean_empty : Clean "" := fun _ hc => absurd hc List.not_mem_nil

theorem Clean.append {text more : String} (h : Clean text) (hmore : Clean more) :
    Clean (text ++ more) := by
  unfold Clean at h hmore ⊢
  rw [String.toList_append]
  exact CleanChars.append h hmore

theorem clean_join {texts : List String} (h : ∀ text ∈ texts, Clean text) :
    Clean (String.join texts) := by
  intro c hc
  rw [String.toList_join, List.mem_flatMap] at hc
  obtain ⟨text, htext, hmem⟩ := hc
  exact h text htext c hmem

theorem clean_intercalate {separator : String} (hseparator : Clean separator)
    {texts : List String} (h : ∀ text ∈ texts, Clean text) :
    Clean (String.intercalate separator texts) := by
  unfold Clean
  rw [String.toList_intercalate]
  induction texts with
  | nil => exact clean_empty
  | cons text rest ih =>
      obtain ⟨htext, hrest⟩ := List.forall_mem_cons.mp h
      cases rest with
      | nil =>
          rw [List.map_singleton, List.intercalate_singleton]
          exact htext
      | cons next more =>
          rw [List.map_cons, List.map_cons, List.intercalate_cons_cons, ← List.map_cons]
          exact (CleanChars.append htext hseparator).append (ih hrest)

/-! ## Numbers -/

theorem not_isControlInLines {c : Char} (h : 0x20 ≤ c.toNat) (h' : c.toNat < 0x7f) :
    isControlInLines c = false := by
  have hsmall : decide (c.toNat < 0x20) = false := decide_eq_false (by omega)
  have hdelete : decide (c.toNat = 0x7f) = false := decide_eq_false (by omega)
  unfold isControlInLines isControl
  rw [hsmall, hdelete]
  rfl

theorem cleanChars_toDigits (n : Nat) : CleanChars (Nat.toDigits 10 n) := by
  intro c hc
  have hdigit := Nat.isDigit_of_mem_toDigits (by decide) (by decide) hc
  obtain ⟨hzero, hnine⟩ := Bool.and_eq_true_iff.mp hdigit
  have hzero : 48 ≤ c.toNat := of_decide_eq_true hzero
  have hnine : c.toNat ≤ 57 := of_decide_eq_true hnine
  exact not_isControlInLines (by omega) (by omega)

theorem cleanChars_replicate {c : Char} (hc : isControlInLines c = false) (n : Nat) :
    CleanChars (List.replicate n c) := fun _ hmem => List.eq_of_mem_replicate hmem ▸ hc

theorem clean_repr (n : Nat) : Clean n.repr := clean_ofList (cleanChars_toDigits n)

theorem clean_integer (value : Int) : Clean (toString value) := by
  cases value with
  | ofNat n => exact clean_repr n
  | negSucc n => exact Clean.append (by decide) (clean_repr (n + 1))

theorem cleanChars_stripZeros {digits : List Char} (h : CleanChars digits) :
    CleanChars (Binary64.stripZeros digits) := by
  unfold Binary64.stripZeros
  split
  · decide
  · exact h.subset fun c hc =>
      List.mem_reverse.mp (List.dropWhile_subset _ (List.mem_reverse.mp hc))

theorem cleanChars_twoDigits (n : Nat) : CleanChars (Binary64.twoDigits n) := by
  unfold Binary64.twoDigits
  split
  · exact (cleanChars_toDigits n).cons (by decide)
  · exact cleanChars_toDigits n

theorem cleanChars_layout {digits : List Char} (h : CleanChars digits) (lead : Int) :
    CleanChars (Binary64.layout digits lead) := by
  have hzeros := cleanChars_replicate (show isControlInLines '0' = false by decide)
  unfold Binary64.layout
  split
  · split
    · exact (((hzeros _).append h).cons (by decide)).cons (by decide)
    · have hpadded := h.append (hzeros ((lead + 1).toNat - digits.length))
      refine (hpadded.subset (List.take_subset _ _)).append (.cons (by decide) ?_)
      split
      · decide
      · exact hpadded.subset (List.drop_subset _ _)
  · have hsign : isControlInLines (if lead < 0 then '-' else '+') = false := by split <;> decide
    refine .append ?_ (((cleanChars_twoDigits _).cons hsign).cons (by decide))
    match digits with
    | [] => exact h
    | [d] => exact h
    | d :: next :: rest =>
        obtain ⟨hd, hrest⟩ := List.forall_mem_cons.mp h
        exact .cons hd (.cons (by decide) hrest)

theorem clean_shortest (value : Binary64) : Clean value.shortest := by
  cases value with
  | nan => decide
  | infinity negative => cases negative <;> decide
  | finite negative mantissa exponent =>
      have hsign : CleanChars (if negative then ['-'] else []) := by cases negative <;> decide
      unfold Binary64.shortest
      dsimp only
      split
      · exact clean_ofList (hsign.append (by decide))
      · exact clean_ofList
          (hsign.append (cleanChars_layout (cleanChars_stripZeros (cleanChars_toDigits _)) _))

/-! ## Dates and times -/

theorem clean_padded (width n : Nat) : Clean (padded width n) :=
  clean_ofList ((cleanChars_replicate (by decide) _).append (cleanChars_toDigits n))

theorem clean_date (date : Date) : Clean date.write :=
  (((clean_padded _ _).append (by decide)).append (clean_padded _ _)).append (by decide)
    |>.append (clean_padded _ _)

theorem clean_time (time : Time) : Clean time.write := by
  have hclock : Clean (s!"{padded 2 time.hour}:{padded 2 time.minute}:{padded 2 time.second}") :=
    (((clean_padded _ _).append (by decide)).append (clean_padded _ _)).append (by decide)
      |>.append (clean_padded _ _)
  unfold Time.write
  dsimp only
  split
  · exact hclock
  · exact (hclock.append (by decide)).append (clean_padded _ _)

theorem clean_offset (minutes : Int) : Clean (writeOffset minutes) := by
  have hsign : Clean (if minutes < 0 then "-" else "+") := by split <;> decide
  exact ((hsign.append (clean_padded _ _)).append (by decide)).append (clean_padded _ _)

theorem clean_dateTime {separator : String} (h : Clean separator) (value : DateTime) :
    Clean (value.write separator) := by
  have hoffset : Clean ((value.offset.map writeOffset).getD "") := by
    cases value.offset with
    | none => exact clean_empty
    | some minutes => exact clean_offset minutes
  exact (((clean_date _).append h).append (clean_time _)).append hoffset

/-! ## Strings and keys -/

theorem cleanChars_writeChar (c : Char) : CleanChars (writeChar c) := by
  unfold writeChar
  split
  · next image himage =>
      have himages : ∀ entry ∈ writtenEscapes, CleanChars entry.2 := by decide
      exact himages _ (List.mem_of_find?_eq_some himage)
  · split
    · next hcontrol =>
        have hsmall : c.toNat < 0x80 := by
          unfold isControl at hcontrol
          simp only [Bool.or_eq_true, Bool.and_eq_true, decide_eq_true_eq] at hcontrol
          omega
        have hdigits : ∀ n < 0x80, CleanChars (Text.hexDigits 4 n) := by decide
        exact ((hdigits _ hsmall).cons (by decide)).cons (by decide)
    · next hcontrol =>
        refine List.forall_mem_singleton.mpr ?_
        unfold isControlInLines
        rw [Bool.eq_false_iff.mpr hcontrol]
        rfl

theorem clean_writeString (text : String) : Clean (writeString text) := by
  refine clean_ofList (.append (.cons (by decide) fun c hc => ?_) (by decide))
  obtain ⟨inner, -, hmem⟩ := List.mem_flatMap.mp hc
  exact cleanChars_writeChar inner c hmem

theorem not_isControlInLines_of_isBareKey {c : Char} (h : isBareKey c = true) :
    isControlInLines c = false := by
  unfold isBareKey at h
  simp only [Char.isAlphanum, Char.isAlpha, Char.isUpper, Char.isLower, Char.isDigit,
    Bool.or_eq_true, Bool.and_eq_true, decide_eq_true_eq, UInt32.le_iff_toNat_le, ge_iff_le] at h
  change ((((65 ≤ c.toNat ∧ c.toNat ≤ 90) ∨ (97 ≤ c.toNat ∧ c.toNat ≤ 122)) ∨
    (48 ≤ c.toNat ∧ c.toNat ≤ 57)) ∨ c = '-') ∨ c = '_' at h
  rcases h with (h | rfl) | rfl
  · exact not_isControlInLines (by omega) (by omega)
  · decide
  · decide

theorem clean_writeKey (part : String) : Clean (writeKey part) := by
  unfold writeKey
  split
  · next hbare =>
      have hall := (Bool.and_eq_true_iff.mp hbare).2
      exact fun c hc => not_isControlInLines_of_isBareKey (List.all_eq_true.mp hall c hc)
  · exact clean_writeString part

/-! ## Values -/

theorem clean_indent (level : Nat) : Clean (indent level) :=
  clean_ofList (cleanChars_replicate (by decide) _)

mutual

theorem clean_writeInline (level : Nat) : (value : Value) → Clean (writeInline level value)
  | .string text => clean_writeString text
  | .broken _ => clean_writeString _
  | .boolean value => (by cases value <;> decide : Clean (if value then "true" else "false"))
  | .integer value => clean_integer value
  | .float value => clean_shortest value
  | .dateTime value => clean_dateTime (by decide) value
  | .date value => clean_date value
  | .time value => clean_time value
  | .array [] => (by decide : Clean "[]")
  | .array (first :: rest) =>
      ((Clean.append (by decide) (clean_writeInlineElements (level + 1) (first :: rest))).append
        (clean_indent level)).append (by decide)
  | .table [] => (by decide : Clean "\x7b\x7d")
  | .table (first :: rest) =>
      ((Clean.append (by decide) (clean_writeInlineEntry first)).append
        (clean_writeInlineEntries rest)).append (by decide)

theorem clean_writeInlineElements (level : Nat) :
    (elements : List Value) → Clean (writeInlineElements level elements)
  | [] => clean_empty
  | element :: rest =>
      (((clean_indent level).append (clean_writeInline level element)).append (by decide)).append
        (clean_writeInlineElements level rest)

theorem clean_writeInlineEntry : (entry : String × Value) → Clean (writeInlineEntry entry)
  | (key, value) =>
      ((clean_writeKey key).append (by decide)).append (clean_writeInline 0 value)

theorem clean_writeInlineEntries :
    (entries : List (String × Value)) → Clean (writeInlineEntries entries)
  | [] => clean_empty
  | entry :: rest =>
      (Clean.append (by decide) (clean_writeInlineEntry entry)).append
        (clean_writeInlineEntries rest)

end

/-! ## Documents -/

theorem clean_header (isElement : Bool) {name : String} (h : Clean name) :
    Clean (header isElement name) := by
  cases isElement with
  | true => exact (Clean.append (by decide) h).append (by decide)
  | false => exact (Clean.append (by decide) h).append (by decide)

theorem clean_nestedName {name : String} (h : Clean name) (key : String) :
    Clean (nestedName name key) := by
  unfold nestedName
  split
  · exact clean_writeKey key
  · exact (h.append (by decide)).append (clean_writeKey key)

theorem clean_entryLines (entries : List (String × Value)) : Clean (entryLines entries) := by
  refine clean_join fun line hline => ?_
  obtain ⟨⟨key, value⟩, -, rfl⟩ := List.mem_map.mp hline
  exact (((clean_writeKey key).append (by decide)).append (clean_writeInline 0 value)).append
    (by decide)

theorem clean_ownLines (isElement : Bool) {name : String} (h : Clean name)
    (entries : List (String × Value)) : Clean (ownLines isElement name entries) := by
  have hheader : ∀ named : Bool, Clean (if named then header isElement name else "") := by
    intro named
    cases named with
    | true => exact clean_header isElement h
    | false => exact clean_empty
  exact (hheader _).append (clean_entryLines entries)

theorem clean_joinBlocks {blocks : List String} (h : ∀ block ∈ blocks, Clean block) :
    Clean (joinBlocks blocks) :=
  clean_intercalate (by decide) fun block hblock => h block (List.mem_filter.mp hblock).1

mutual

theorem clean_writeTables {name : String} (h : Clean name) :
    (value : Value) → ∀ block ∈ writeTables name value, Clean block
  | .table entries => List.forall_mem_singleton.mpr <| clean_joinBlocks <|
      List.forall_mem_cons.mpr ⟨clean_ownLines false h entries, clean_writeNested h entries⟩
  | .array elements => by
      unfold writeTables
      split
      · exact clean_writeElements h elements
      · exact fun _ hmem => absurd hmem List.not_mem_nil
  | .string _ => fun _ hmem => absurd hmem List.not_mem_nil
  | .broken _ => fun _ hmem => absurd hmem List.not_mem_nil
  | .boolean _ => fun _ hmem => absurd hmem List.not_mem_nil
  | .integer _ => fun _ hmem => absurd hmem List.not_mem_nil
  | .float _ => fun _ hmem => absurd hmem List.not_mem_nil
  | .dateTime _ => fun _ hmem => absurd hmem List.not_mem_nil
  | .date _ => fun _ hmem => absurd hmem List.not_mem_nil
  | .time _ => fun _ hmem => absurd hmem List.not_mem_nil

theorem clean_writeNested {name : String} (h : Clean name) :
    (entries : List (String × Value)) → ∀ block ∈ writeNested name entries, Clean block
  | [] => fun _ hmem => absurd hmem List.not_mem_nil
  | (key, value) :: rest => fun block hmem => (List.mem_append.mp hmem).elim
      (clean_writeTables (clean_nestedName h key) value block) (clean_writeNested h rest block)

theorem clean_writeElements {name : String} (h : Clean name) :
    (elements : List Value) → ∀ block ∈ writeElements name elements, Clean block
  | [] => fun _ hmem => absurd hmem List.not_mem_nil
  | element :: rest => List.forall_mem_cons.mpr
      ⟨clean_writeElement h element, clean_writeElements h rest⟩

theorem clean_writeElement {name : String} (h : Clean name) :
    (value : Value) → Clean (writeElement name value)
  | .table entries => clean_joinBlocks <|
      List.forall_mem_cons.mpr ⟨clean_ownLines true h entries, clean_writeNested h entries⟩
  | .array _ => clean_empty
  | .string _ => clean_empty
  | .broken _ => clean_empty
  | .boolean _ => clean_empty
  | .integer _ => clean_empty
  | .float _ => clean_empty
  | .dateTime _ => clean_empty
  | .date _ => clean_empty
  | .time _ => clean_empty

end

/-- **A document is written without control characters** but tabs and line feeds. -/
theorem clean_write (table : Table) : Clean (write table) :=
  clean_joinBlocks <| List.forall_mem_cons.mpr
    ⟨clean_ownLines false clean_empty table, clean_writeNested clean_empty table⟩

/-- **A written document** is found in a text file as it is. -/
theorem textOfBytes_write (table : Table) :
    textOfBytes (Utf8.encode (write table)) = .ok (write table) :=
  textOfBytes_encode fun hreturn => absurd (clean_write table _ hreturn) (by decide)

end RustScript.Toml
