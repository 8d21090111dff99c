import GodotGraph.Grammar.TypeChain
import GodotGraph.Record

/-!
Contract: dependencies that follow from the types a class mentions.

Owns:
- the markers after which a type name may stand;
- the names mentioned in a stream, and those that become dependencies.

Every token is looked at as a marker, so that the two halves of a joined marker both
count.
-/

set_option autoImplicit false

namespace GodotGraph.TypeUsage

/-- What kind of name follows. -/
inductive Marker where
  /-- A type stands after a colon or an arrow. -/
  | declared
  /-- A value stands after an equals sign. -/
  | assigned
  deriving DecidableEq, Repr

/-- The marker that a stream starts with, and the tokens after it. The arrow may have
been cut in two. -/
def marker? : List String → Option (Marker × List String)
  | [] => none
  | token :: rest =>
      if token = ":" || token = "->" then some (.declared, rest)
      else if token = "-" then
        match rest with
        | next :: after => if next = ">" then some (.declared, after) else none
        | [] => none
      else if token = "=" then some (.assigned, rest)
      else none

/-- The identifiers and separators of the type chain that a token starts with. -/
def chain? (token : String) : Option (List String) :=
  match Grammar.typeChain.parse token with
  | .ok found => some (found.all Grammar.segmentCapture)
  | .error _ => none

/-- The name after a marker. In front of a call its last part is a method and does not
count. -/
def nameAfter? (marker : Marker) : List String → Option String
  | [] => none
  | token :: rest =>
      if token = Token.newline then none
      else (chain? token).map fun segments =>
        let called := marker = .assigned && rest.head? = some "("
        String.join (if called then segments.take (segments.length - 2) else segments)

/-- The names that follow the markers of a stream, in stream order. -/
def mentions : List String → List String
  | [] => []
  | token :: rest =>
      let here := (marker? (token :: rest)).bind fun (marker, after) => nameAfter? marker after
      here.toList ++ mentions rest

/-- The name is that of another known entity. -/
def counts (known : List String) (entity : EntityRecord) (name : String) : Bool :=
  name ≠ "" && !entity.isNamed name && known.contains name

/-- The dependencies of an entity with those that its types imply. -/
def dependencies (known : List String) (entity : EntityRecord) : List String :=
  addAllOnce entity.dependencies ((mentions entity.tokens).filter (counts known entity))

/-- The number of dependencies that the types of an entity add. -/
def added (known : List String) (entity : EntityRecord) : Nat :=
  (dependencies known entity).length - entity.dependencies.length

end GodotGraph.TypeUsage
