/-!
# Declarations of a Rust source

The part of the syntax tree that says what a source declares and imports: use trees, and items
with the items nested in them. Expressions, types and patterns leave nothing behind but the items
inside their blocks.
-/

set_option autoImplicit false

namespace RustScript.Rust

/-! ## Use trees -/

/-- How a path begins. -/
inductive PathLead
  /-- With its first segment. -/
  | relative
  /-- With `::`. -/
  | absolute
  /-- With `::` and a comment behind it. -/
  | absoluteCommented
  deriving DecidableEq, Repr

/-- The first segment of a path. -/
inductive Segment
  /-- A name, the `r#` of a raw one included. -/
  | name (text : String)
  /-- `self`, `super` or `crate`. -/
  | keyword (text : String)
  /-- A name after a dollar sign. -/
  | variable (text : String)
  /-- A type in angle brackets. -/
  | bracketed
  deriving DecidableEq, Repr

/-- The segment as written; a type in brackets is not kept. -/
def Segment.text : Segment → String
  | .name text => text
  | .keyword text => text
  | .variable text => text
  | .bracketed => ""

/-- A path of a use tree: its first segment and the names after it. -/
structure UsePath where
  lead : PathLead
  first : Segment
  rest : List String
  deriving DecidableEq, Repr

/-- What a use declaration imports. -/
inductive UseTree
  | path (path : UsePath)
  /-- `path as name`. -/
  | renamed (path : UsePath) (name : String)
  /-- `path::*`, `::*` or `*`. -/
  | glob (path : Option UsePath)
  /-- A list of trees in braces, after a path or on its own. -/
  | group (path : Option UsePath) (trees : List UseTree)

/-! ## Items -/

/-- A declaration, with the declarations written inside it. -/
inductive Item
  | use (tree : UseTree)
  | externCrate (name : String) (renamed : Option String)
  | module (name : String) (inner : List Item)
  /-- An `enum`, `struct`, `union`, `trait` or `type`. -/
  | typeItem (name : String) (inner : List Item)
  /-- A function with a body. -/
  | function (name : String) (inner : List Item)
  /-- Anything else that holds declarations. -/
  | other (inner : List Item)

mutual

/-- An item and every item nested in it, in source order. -/
def Item.all : Item → List Item
  | .use tree => [.use tree]
  | .externCrate name renamed => [.externCrate name renamed]
  | .module name inner => .module name inner :: Item.allOf inner
  | .typeItem name inner => .typeItem name inner :: Item.allOf inner
  | .function name inner => .function name inner :: Item.allOf inner
  | .other inner => .other inner :: Item.allOf inner

/-- Every item of a list and every item nested in one, in source order. -/
def Item.allOf : List Item → List Item
  | [] => []
  | item :: rest => item.all ++ Item.allOf rest

end

end RustScript.Rust
