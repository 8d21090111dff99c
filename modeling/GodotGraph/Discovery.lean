import GodotGraph.Exclusion
import GodotGraph.FileTree.Listing
import GodotGraph.Record
import GodotGraph.Settings

/-!
Contract: finding and reading the sources of a project.

Owns:
- the walk through a directory, which leaves out what is excluded and stops at a depth;
- the sources that a walk comes upon, in order;
- reading sources, where a file that cannot be read is a problem and nothing more.

The order is that of the lists of names on the way to a source.
-/

set_option autoImplicit false

namespace GodotGraph

open FileTree (Listing)

structure Discovery.Rule where
  excluded : List String → Bool
  maxDepth : Option Nat
  wanted : String → Bool

/-- Something that a walk comes upon, by the names on the way to it. -/
inductive Discovery.Sight where
  | file (names : List String)
  | fault (names : List String) (message : String)
  deriving DecidableEq, Repr

/-- The sources that were found, and what could not be entered on the way. -/
structure Discovery where
  files : List String
  problems : List (String × Problem)
  deriving DecidableEq, Repr

namespace Discovery

/-! ## The walk -/

/-- Nothing below this depth is looked at. -/
def isDeepest (maxDepth : Option Nat) (names : List String) : Bool :=
  maxDepth.any fun limit => limit ≤ names.length

mutual

/-- What a walk comes upon at and below a node. -/
def sights (rule : Rule) (names : List String) : Listing → List Sight
  | .file => [.file names]
  | .other => []
  | .fault message => [.fault names message]
  | .directory entries =>
      if isDeepest rule.maxDepth names then [] else entrySights rule names entries

/-- What a walk comes upon at and below the entries of a directory. An entry that cannot
be entered is told of even if it is excluded. -/
def entrySights (rule : Rule) (names : List String) : List (String × Listing) → List Sight
  | [] => []
  | (name, .fault message) :: rest =>
      .fault (names ++ [name]) message :: entrySights rule names rest
  | (name, listing) :: rest =>
      (if rule.excluded (names ++ [name]) then [] else sights rule (names ++ [name]) listing) ++
        entrySights rule names rest

end

namespace Sight

def file? : Sight → Option (List String)
  | file names => some names
  | fault _ _ => none

def fault? : Sight → Option (List String × String)
  | file _ => none
  | fault names message => some (names, message)

end Sight

/-- The files of a walk that are wanted, in order. -/
def wantedFiles (rule : Rule) (listing : Listing) : List (List String) :=
  (((sights rule [] listing).filterMap Sight.file?).filter fun names =>
    rule.wanted (Text.joinSegments names)).mergeSort fun left right =>
      !right.lex left fun former latter => former < latter

/-! ## Sources -/

def pathBelow (root : String) (names : List String) : String :=
  names.foldl Path.join root

/-- The file is of a language that the settings ask for. -/
def isWanted (settings : Settings) (path : String) : Bool :=
  match Language.ofPath? path with
  | some .script => true
  | some .scene => settings.includeScenes
  | none => false

def ruleOf (settings : Settings) (exclusion : Exclusion) : Rule where
  excluded := fun names => exclusion.covers (Text.joinSegments names)
  maxDepth := settings.maxDepth
  wanted := isWanted settings

def entryProblem (root : String) (fault : List String × String) : String × Problem :=
  let path := pathBelow root fault.1
  (path, .traversal path ("Failed to read directory: " ++ fault.2))

/-- The place of the source root, which must be a directory. -/
def rootPlace (tree : FileTree) (settings : Settings) : Except Problem (List String) :=
  match tree.isDirectory settings.sourcePath, tree.place? settings.sourcePath with
  | true, .ok place => .ok place
  | _, _ => .error (.invalidPath settings.sourcePath)

def find (tree : FileTree) (settings : Settings) : Except Problem Discovery := do
  let place ← rootPlace tree settings
  let exclusion ← (Exclusion.ofPatterns settings.exclude).mapError Problem.glob
  let rule := ruleOf settings exclusion
  let root := FileTree.pathOf place
  let listing := tree.listingAt settings.followLinks place
  return {
    files := (wantedFiles rule listing).map (pathBelow root)
    problems := ((sights rule [] listing).filterMap Sight.fault?).map (entryProblem root) }

/-! ## Reading -/

/-- The source at a path, or the problem with it. -/
def readSource (tree : FileTree) (path : String) : Except (String × Problem) SourceFile :=
  match tree.read path with
  | .ok content => .ok ⟨path, content⟩
  | .error fault => .error (path, Problem.ofSourceFault path fault)

def readable (tree : FileTree) (paths : List String) : List SourceFile :=
  paths.filterMap fun path => (readSource tree path).toOption

def problemWith? (tree : FileTree) (path : String) : Option (String × Problem) :=
  match readSource tree path with
  | .ok _ => none
  | .error problem => some problem

def unreadable (tree : FileTree) (paths : List String) : List (String × Problem) :=
  paths.filterMap (problemWith? tree)

/-- Every path is either that of a source or that of a problem. -/
theorem length_readable_add_unreadable (tree : FileTree) (paths : List String) :
    (readable tree paths).length + (unreadable tree paths).length = paths.length := by
  induction paths with
  | nil => rfl
  | cons path rest inductionHypothesis =>
      have shorter := inductionHypothesis
      simp only [readable, unreadable] at shorter ⊢
      rw [List.filterMap_cons, List.filterMap_cons]
      cases found : readSource tree path with
      | ok source =>
          simp only [problemWith?, found, Except.toOption, List.length_cons] at shorter ⊢
          omega
      | error problem =>
          simp only [problemWith?, found, Except.toOption, List.length_cons] at shorter ⊢
          omega

end Discovery

end GodotGraph
