import GodotGraph.Key

/-!
Contract: references to other files, as scripts and scenes write them.

Owns: the facts of a reference, and the key it names from the directory of the file
that holds it.
-/

set_option autoImplicit false

namespace GodotGraph

inductive Reference.Kind where
  /-- In a call that loads a file. -/
  | load
  /-- In the declaration of an external resource of some type. -/
  | resource (type : String)
  deriving DecidableEq, Repr

/-- A path without its scheme, and whether it starts at the project root. -/
structure Reference where
  kind : Reference.Kind
  path : String
  rooted : Bool
  deriving DecidableEq, Repr

namespace Reference

/-- The key that the reference names, if it stays inside the project. -/
def key? (rootName directory : String) (reference : Reference) : Option String :=
  if reference.rooted then Key.ofRooted? rootName reference.path
  else Key.ofRelative? rootName directory reference.path

/-- The path with the scheme of the project root, if it had one. -/
def written (reference : Reference) : String :=
  if reference.rooted then "res://" ++ reference.path else reference.path

/-- The key that the reference names, or else the path as written. -/
def resolve (rootName directory : String) (reference : Reference) : String :=
  (reference.key? rootName directory).getD reference.written

end Reference

end GodotGraph
