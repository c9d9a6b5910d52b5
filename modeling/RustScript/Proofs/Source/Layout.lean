import RustScript.Proofs.Source.Spells
import RustScript.Source.Scan

/-!
# Scripts with each declaration at the start of a line

`Laid ds text` says that the declarations of the text, comments taken out, are those of `ds`, in
their order, and that each of them begins a line. Between them stand lines that do not open one.
A declaration may have blanks wherever there may be some, line feeds included, and a visibility.

What a keyword needs behind it is a blank: `use{a}` and `use ::a` differ in that the first of them
opens no declaration.
-/

set_option autoImplicit false

namespace RustScript.Source

open RustScript.Rust RustScript.Text

/-! ## Declarations -/

/-- What a script can declare at the start of a line, as far as the scan cares. -/
inductive Declaration
  | use (tree : UseTree)
  | module (name : String)
  /-- An `enum`, `struct`, `union`, `trait` or `type`. -/
  | type (name : String)

/-- The words that write the declaration apart from its visibility and its names. -/
def Declaration.keywords : Declaration → List String
  | .use _ => ["use"]
  | .module _ => ["mod"]
  | .type _ => "unsafe" :: typeKeywords

/-- What stands in the parentheses of a visibility. -/
inductive Scope : List Char → Prop
  | path {path : UsePath} {before text after : List Char} :
      allBlank before → SpellsPath path text → allBlank after →
      Scope (before ++ (text ++ after))
  | within {path : UsePath} {before gap text after : List Char} :
      allBlank before → Gap gap → SpellsPath path text → allBlank after →
      Scope (before ++ ("in".toList ++ (gap ++ (text ++ after))))

/-- A visibility and the blanks behind it, with `P` of what stands in its parentheses. -/
inductive Visibility (P : List Char → Prop) : List Char → Prop
  | inherited : Visibility P []
  | everywhere {gap : List Char} : Gap gap → Visibility P ("pub".toList ++ gap)
  | restricted {inner gap : List Char} :
      P inner → Gap gap → Visibility P ("pub".toList ++ '(' :: (inner ++ ')' :: gap))

/-- The word `unsafe` and the blanks behind it, or nothing. -/
inductive Safety : List Char → Prop
  | safe : Safety []
  | marked {gap : List Char} : Gap gap → Safety ("unsafe".toList ++ gap)

/-- The text `body`, with `after` behind it, writes the declaration from its keyword on: a use
declaration with its semicolon, a module with the mark behind its name, a type with its name. -/
inductive Body : Declaration → List Char → List Char → Prop
  | use {tree : UseTree} {gap text back after : List Char} :
      Gap gap → Spells tree text → allBlank back →
      Body (.use tree) ("use".toList ++ (gap ++ (text ++ (back ++ [';'])))) after
  | module {name : String} {gap back after : List Char} {stop : Char} :
      Gap gap → IsName name → allBlank back → stop = '\x7b' ∨ stop = ';' →
      Body (.module name) ("mod".toList ++ (gap ++ (name.toList ++ (back ++ [stop])))) after
  | type {kind name : String} {safety gap after : List Char} :
      Safety safety → kind ∈ typeKeywords → Gap gap → IsName name → Breaks after →
      Body (.type name) (safety ++ (kind.toList ++ (gap ++ name.toList))) after

/-- The text `chunk`, with `after` behind it, writes the declaration, with the blanks and the
visibility in front. -/
inductive Writes (d : Declaration) : List Char → List Char → Prop
  | front {lead vis body after : List Char} :
      allBlank lead → Visibility Scope vis → Body d body after →
      Writes d (lead ++ (vis ++ body)) after

/-- The text opens a declaration: behind blanks and a visibility stands a keyword, and a name
behind it unless it is `use`. A union that is cast is no declaration. -/
inductive Opens : List Char → Prop
  | use {lead vis gap rest : List Char} :
      allBlank lead → Visibility (')' ∉ ·) vis → Gap gap →
      Opens (lead ++ (vis ++ ("use".toList ++ (gap ++ rest))))
  | module {name : String} {lead vis gap rest : List Char} :
      allBlank lead → Visibility (')' ∉ ·) vis → Gap gap → isIdentifier name.toList →
      Breaks rest → Opens (lead ++ (vis ++ ("mod".toList ++ (gap ++ (name.toList ++ rest)))))
  | type {kind name : String} {lead vis safety gap rest : List Char} :
      allBlank lead → Visibility (')' ∉ ·) vis → Safety safety → kind ∈ typeKeywords →
      Gap gap → isIdentifier name.toList → Breaks rest →
      ¬ (vis = [] ∧ safety = [] ∧ kind = "union" ∧ name = "as") →
      Opens (lead ++ (vis ++ (safety ++ (kind.toList ++ (gap ++ (name.toList ++ rest))))))

/-! ## Lines -/

/-- The text after the next line feed, and nothing if there is none. -/
def afterLine (cs : List Char) : List Char := (nextLine cs).getD []

/-- The declarations of the text are `ds`, each at the start of a line. -/
inductive Laid : List Declaration → List Char → Prop
  | nil : Laid [] []
  | other {ds : List Declaration} {text : List Char} :
      ¬ Opens text → Laid ds (afterLine text) → Laid ds text
  | declared {d : Declaration} {ds : List Declaration} {chunk after : List Char} :
      Writes d chunk after → Laid ds (afterLine after) → Laid (d :: ds) (chunk ++ after)

end RustScript.Source
