import RustScript.Source.UseText
import RustScript.Text.Lines

/-!
# Fenced manifest blocks

A script carries a manifest fragment between a line `/*[toml]` and a line that begins with `*/`.
Both fences may be indented by spaces and tabs, and only such blanks may follow the opening one.
-/

set_option autoImplicit false

namespace RustScript.Source

open RustScript.Text

/-- A space or a tab. -/
def isIndent (c : Char) : Bool := c = ' ' || c = '\t'

/-- The text that opens a block. -/
def openFence : String := "/*[toml]"

/-- The line opens a block. A carriage return may stand at its end. -/
def opensBlock (line : List Char) : Bool :=
  match afterPrefix openFence.toList (line.dropWhile isIndent) with
  | some rest => rest.dropWhile isIndent == [] || rest.dropWhile isIndent == ['\r']
  | none => false

/-- The line closes a block. -/
def closesBlock (line : List Char) : Bool :=
  (afterPrefix ['*', '/'] (line.dropWhile isIndent)).isSome

/-- The text before the first closing line, and the lines behind that line. -/
def blockText : List (List Char) → Option (List Char × List (List Char))
  | [] => none
  | line :: rest =>
      if closesBlock line then some ([], rest)
      else (blockText rest).map fun found => (line ++ '\n' :: found.1, found.2)

theorem length_blockText_lt {lines after : List (List Char)} {text : List Char}
    (h : blockText lines = some (text, after)) : after.length < lines.length := by
  induction lines generalizing text with
  | nil => simp [blockText] at h
  | cons line rest ih =>
      by_cases hc : closesBlock line
      · simp [blockText, hc] at h
        simp [h]
      · simp only [blockText, hc, Bool.false_eq_true, if_false, Option.map_eq_some_iff] at h
        obtain ⟨found, hfound, hpair⟩ := h
        have hfound : blockText rest = some (found.1, after) := by
          rw [hfound, ← (Prod.mk.inj hpair).2]
        have := ih hfound
        simp only [List.length_cons]
        omega

/-- The texts of the blocks that the lines hold, in order. A block that is not closed is none. -/
def blocksOf : List (List Char) → List (List Char)
  | [] => []
  | line :: rest =>
      if opensBlock line then
        match _h : blockText rest with
        | some (text, after) => text :: blocksOf after
        | none => []
      else blocksOf rest
termination_by lines => lines.length
decreasing_by
  · have := length_blockText_lt _h
    simp only [List.length_cons]
    omega
  · simp

/-- The contents of the manifest blocks of a script, verbatim and in order. -/
def manifestBlocks (body : String) : List String :=
  (blocksOf (cutLines body.toList)).map String.ofList

end RustScript.Source
