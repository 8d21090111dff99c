import GodotGraph.Proofs.Curation
import GodotGraph.Proofs.Grammar.Header
import GodotGraph.Proofs.Path
import GodotGraph.Proofs.Scope.Indentation
import GodotGraph.Proofs.Script.ClassTree
import GodotGraph.Proofs.Script.Fragment

/-!
Contract: class headers that make a class.

Owns:
- class headers at the lines of a script, as the class header grammar sees them;
- the scope and the entity that a script yields for a line;
- the exact condition under which a class header yields its class.

The splitter names a scope by the entity header, and parents are read by the class header.
Both look at the region of the line only. The two agree on headers that start with the name
and end inside the region; a header that starts with the parent yields nothing.
-/

set_option autoImplicit false

namespace GodotGraph

namespace Script

open Grammar (classKeyword extendsKeyword headerEnd nameCapture parentCapture)
open Scope (continuesBody indentation)
open Token (IsWord newline ofGodot ofLines firstWord?)

/-- The lines of a script without their comments. -/
def codeLines (file : FileRecord) : List (List Char) :=
  splitter.comments.bareLines file.source.toList

theorem newline_not_mem_codeLines {file : FileRecord} {line : List Char}
    (member : line ∈ codeLines file) : '\n' ∉ line :=
  Scope.newline_not_mem_bareLines member

/-- A line that opens a class starts with the keyword. -/
theorem ofGodot_of_startsAtLine {line : List Char} (inLine : '\n' ∉ line)
    (opens : splitter.startsAtLine line = true) :
    ∃ following, ofGodot line = classKeyword :: following := by
  rw [splitter.startsAtLine_eq_any_head? rfl inLine] at opens
  cases tokens : ofGodot line with
  | nil => simp [tokens] at opens
  | cons token following =>
      rw [tokens] at opens
      obtain rfl : token = classKeyword := by
        simpa [Scope.Splitter.isAnchor, splitter] using opens
      exact ⟨following, rfl⟩

/-- The keyword comes first in a line that opens a class, whatever lines come below. -/
theorem ofText_joinLines_of_startsAtLine {line : List Char} (inLine : '\n' ∉ line)
    (opens : splitter.startsAtLine line = true) :
    ∃ header, ofGodot line = classKeyword :: header ∧
      ∀ below, Token.ofText splitter.padding (Scope.joinLines (line :: below)) =
        classKeyword :: (header ++ ofLines below) := by
  obtain ⟨header, first⟩ := ofGodot_of_startsAtLine inLine opens
  refine ⟨header, first, fun below => ?_⟩
  show Token.ofText Token.Padding.godot _ = _
  rw [Token.ofText_godot, Scope.joinLines, String.toList_ofList, Token.ofGodot_intercalate, first,
    List.cons_append]

/-! ## Headers at lines -/

/-- The window that opens with the first token of some lines. -/
def windowAt (lines : List (List Char)) : Option Token.Window :=
  (Token.windows (Token.ofText splitter.padding (Scope.joinLines lines))).head?

/-- A class header with this name and this parent stands at a line of a script: the first token
of the line is the keyword, and the class header matches the window that opens with it. The
window has the lines `seen` of the rest, at least those of the region, at most all of them. -/
structure HeaderAt (file : FileRecord) (index : Nat) (line : List Char)
    (rest seen : List (List Char)) (name : String) (parent : Option String) : Prop where
  place : (codeLines file).drop index = line :: rest
  opens : splitter.startsAtLine line = true
  covered : rest.takeWhile (continuesBody (indentation line)) <+: seen
  following : seen <+: rest
  matched : ∃ window found, windowAt (line :: seen) = some window ∧
    Grammar.classHeader.parseWindow window = .ok found ∧
      found.first? nameCapture = some name ∧ found.first? parentCapture = parent

/-- A script yields a class for a line: a scope of the name, and an entity of that scope with the
name and, if there is one, the parent. -/
def YieldsClass (file : FileRecord) (index : Nat) (name : String) (parent : Option String) :
    Prop :=
  ∃ candidate ∈ splitter.candidates file.source, candidate.start = index ∧
    ⟨name, candidate.tokens⟩ ∈ (splitter.split file.source).bodies ∧
      ∃ entity ∈ (innerEntities file).1, entity.localName = name ∧
        entity.tokens = candidate.tokens ∧ ∀ wanted ∈ parent, wanted ∈ entity.inheritance

/-! ## Scopes and entities -/

/-- The entities of a scope with a name have the parents that its headers declare. -/
theorem exists_entity_iff {file : FileRecord} {name : String} {tokens : List String}
    (scope : ⟨name, tokens⟩ ∈ (splitter.split file.source).bodies) (parent : Option String) :
    (∃ entity ∈ (innerEntities file).1, entity.localName = name ∧ entity.tokens = tokens ∧
        ∀ wanted ∈ parent, wanted ∈ entity.inheritance) ↔
      ∀ wanted ∈ parent, wanted ∈ parentsNamed name tokens := by
  have inherits : ∀ wanted : String,
      wanted ∈ (withParents (entityOfBody file ⟨name, tokens⟩)).inheritance ↔
        wanted ∈ parentsNamed name tokens := by
    intro wanted
    show wanted ∈ addAllOnce [] (parentsNamed name tokens) ↔ _
    simp [mem_addAllOnce]
  constructor
  · rintro ⟨entity, member, named, same, inherited⟩ wanted isParent
    obtain ⟨body, _, rfl⟩ := List.mem_map.1 member
    obtain ⟨rfl, rfl⟩ : body.name = name ∧ body.tokens = tokens := ⟨named, same⟩
    exact (inherits wanted).1 (inherited wanted isParent)
  · intro declared
    refine ⟨withParents (entityOfBody file ⟨name, tokens⟩), List.mem_map_of_mem scope, rfl, rfl, ?_⟩
    exact fun wanted isParent => (inherits wanted).2 (declared wanted isParent)

/-- What a script yields for a line is decided by the region of the line. -/
theorem yieldsClass_iff_region {file : FileRecord} {index : Nat} {line : List Char}
    {rest : List (List Char)} (place : (codeLines file).drop index = line :: rest)
    (opens : splitter.startsAtLine line = true) (name : String) (parent : Option String) :
    YieldsClass file index name parent ↔
      splitter.headerName (splitter.region line rest) = some name ∧
        ∀ wanted ∈ parent, wanted ∈ parentsNamed name (splitter.region line rest) := by
  have candidates : splitter.candidates file.source = splitter.indentedFrom 0 (codeLines file) := rfl
  have bodies : (splitter.split file.source).bodies =
      ((splitter.indentedFrom 0 (codeLines file)).map fun candidate =>
        candidate.tokens).filterMap splitter.body? := by
    rw [Scope.Splitter.split, Scope.Splitter.bodies_collect, candidates]
  have isScope : ∀ candidate ∈ splitter.indentedFrom 0 (codeLines file),
      ⟨name, candidate.tokens⟩ ∈ (splitter.split file.source).bodies ↔
        splitter.headerName candidate.tokens = some name := by
    intro candidate member
    rw [bodies, List.mem_filterMap]
    constructor
    · rintro ⟨tokens, _, isBody⟩
      obtain ⟨found, named, same⟩ := Option.map_eq_some_iff.1 isBody
      obtain ⟨rfl, rfl⟩ : found = name ∧ tokens = candidate.tokens := by simpa using same
      exact named
    · intro named
      exact ⟨candidate.tokens, List.mem_map_of_mem member, by rw [Scope.Splitter.body?, named]; rfl⟩
  have decided := @Scope.Splitter.exists_candidate_iff splitter 0 index _ line rest place opens
    fun tokens => splitter.headerName tokens = some name ∧
      ∀ wanted ∈ parent, wanted ∈ parentsNamed name tokens
  rw [Nat.zero_add] at decided
  rw [← decided, YieldsClass, candidates]
  refine exists_congr fun candidate => and_congr_right fun member => and_congr_right fun _ => ?_
  rw [← isScope candidate member]
  exact and_congr_right fun scope => exists_entity_iff scope parent

theorem headerName_class_cons {following : List String}
    (readable : ∀ token ∈ following, IsWord token ∨ token = newline) :
    splitter.headerName (classKeyword :: following) =
      (firstWord? following).bind Grammar.nameOf? := by
  have window : Grammar.Captures (Grammar.entityHeader.parseWindow ⟨0, classKeyword, following⟩)
      (((firstWord? following).bind Grammar.nameOf?).map fun name => [⟨nameCapture, name⟩]) :=
    Grammar.entityHeader_name rfl readable
  have grammar : splitter.header = Grammar.entityHeader := rfl
  rw [Scope.Splitter.headerName, grammar]
  cases word : (firstWord? following).bind Grammar.nameOf? with
  | none =>
      rw [word] at window
      obtain ⟨mismatch, run⟩ := window
      rw [run]
  | some name =>
      rw [word] at window
      obtain ⟨stop, run⟩ := window
      rw [run]
      rfl

/-- Without a colon no header declares a parent. -/
theorem parentsNamed_of_no_colon (name : String) {tokens : List String}
    (noColon : ∀ token ∈ tokens, ':' ∉ token.toList) : parentsNamed name tokens = [] := by
  apply List.eq_nil_iff_forall_not_mem.2
  intro parent declared
  obtain ⟨front, back, rfl, found, matched, -⟩ := mem_parentsNamed_iff.1 declared
  obtain ⟨token, member, colon⟩ := Grammar.exists_colon_of_classHeader rfl matched
  exact noColon token (List.mem_append_right front (List.mem_cons_of_mem _ member)) colon

/-! ## Headers that make a class -/

theorem eq_headerEnd_of_colon {line : List Char} {rest : List (List Char)} {token : String}
    (member : token ∈ splitter.region line rest) (colon : ':' ∈ token.toList) :
    token = headerEnd :=
  Token.eq_mark_of_mem (by decide) token member colon

/-- A class header that ends inside a region is the same there. -/
theorem classHeader_parseWindow_of_isPrefix {front whole : List String} (starts : front <+: whole)
    (closed : headerEnd ∈ front) :
    Grammar.classHeader.parseWindow ⟨0, classKeyword, front⟩ =
      Grammar.classHeader.parseWindow ⟨0, classKeyword, whole⟩ := by
  have text : Token.Window.text ⟨0, classKeyword, front⟩ Grammar.classHeader.terminal =
      Token.Window.text ⟨0, classKeyword, whole⟩ Grammar.classHeader.terminal :=
    congrArg (fun tokens => Token.join (classKeyword :: tokens))
      (Token.through_eq_of_prefix starts closed)
  rw [Grammar.parseWindow, text, Grammar.parseWindow]

namespace HeaderAt

variable {file : FileRecord} {index : Nat} {line : List Char} {rest seen : List (List Char)}
  {name : String} {parent : Option String}

/-- A header as tokens: the region of its line starts the stream that the window is taken from. -/
structure Streams (line : List Char) (rest : List (List Char)) (name : String)
    (parent : Option String) (front whole : List String) : Prop where
  region : splitter.region line rest = classKeyword :: front
  starts : front <+: whole
  readable : ∀ token ∈ whole, IsWord token ∨ token = newline
  matched : ∃ found, Grammar.classHeader.parseWindow ⟨0, classKeyword, whole⟩ = .ok found ∧
    found.first? nameCapture = some name ∧ found.first? parentCapture = parent

theorem streams (header : HeaderAt file index line rest seen name parent) :
    ∃ front whole, Streams line rest name parent front whole ∧
      Token.ofText splitter.padding (Scope.joinLines (line :: seen)) = classKeyword :: whole := by
  have inLine : '\n' ∉ line := newline_not_mem_codeLines
    (List.mem_of_mem_drop (by rw [header.place]; exact List.mem_cons_self))
  obtain ⟨following, -, stream⟩ := ofText_joinLines_of_startsAtLine inLine header.opens
  obtain ⟨others, split⟩ := header.covered
  obtain ⟨window, found, opened, matched, captures⟩ := header.matched
  refine ⟨_, _, ⟨stream _, ?_, ?_, found, ?_, captures⟩, stream seen⟩
  · rw [← split, Token.ofLines_append, ← List.append_assoc]
    exact List.prefix_append _ _
  · intro token member
    have inStream : token ∈ Token.ofText splitter.padding (Scope.joinLines (line :: seen)) := by
      rw [stream]
      exact List.mem_cons_of_mem _ member
    exact Token.isWord_or_newline_of_mem token inStream
  · rw [windowAt, stream] at opened
    rw [← matched, ← Option.some.inj opened]

namespace Streams

variable {front whole : List String}

/-- The region has the name of the header if its first word is not the keyword of the parent. -/
theorem headerName_iff (streams : Streams line rest name parent front whole) :
    splitter.headerName (splitter.region line rest) = some name ↔
      ∃ word, firstWord? (splitter.region line rest).tail = some word ∧ word ≠ extendsKeyword := by
  have readable : ∀ token ∈ front, IsWord token ∨ token = newline :=
    fun token member => streams.readable token (streams.starts.subset member)
  obtain ⟨found, matched, named, _⟩ := streams.matched
  rw [streams.region, headerName_class_cons readable, List.tail_cons]
  constructor
  · intro first
    obtain ⟨word, isFirst, isName⟩ := Option.bind_eq_some_iff.1 first
    refine ⟨word, isFirst, ?_⟩
    rintro rfl
    have reserved : Grammar.nameOf? extendsKeyword = none := by decide +kernel
    simp [reserved] at isName
  · rintro ⟨word, isFirst, other⟩
    have inWhole := Token.firstWord?_of_prefix streams.starts isFirst
    rcases Grammar.classHeader_name rfl streams.readable matched named with nameFirst | parentFirst
    · rw [isFirst, ← inWhole]
      exact nameFirst
    · exact absurd (Option.some.inj (inWhole.symm.trans parentFirst)) other

/-- The region declares the parent of the header if the header ends inside it. -/
theorem parentsNamed_iff (streams : Streams line rest name parent front whole) :
    (∀ wanted ∈ parent, wanted ∈ parentsNamed name (splitter.region line rest)) ↔
      (parent.isSome = true → headerEnd ∈ splitter.region line rest) := by
  cases parent with
  | none => simp
  | some wanted =>
      obtain ⟨found, matched, named, inherits⟩ := streams.matched
      constructor
      · intro declared _
        by_contra noColon
        have silent := parentsNamed_of_no_colon name fun token member colon =>
          noColon (eq_headerEnd_of_colon member colon ▸ member)
        have inRegion := declared wanted rfl
        simp [silent] at inRegion
      · intro closed other isParent
        obtain rfl := Option.some.inj isParent
        rw [streams.region] at closed ⊢
        have inFront : headerEnd ∈ front := by
          rcases List.mem_cons.1 (closed rfl) with keyword | inside
          · exact absurd keyword (by decide)
          · exact inside
        have same := classHeader_parseWindow_of_isPrefix streams.starts inFront
        have inRegion := same.trans matched
        exact mem_parentsNamed_cons_iff.2 (Or.inl ⟨rfl, found, inRegion, named, inherits⟩)

end Streams

/-- A class header that ends inside its region yields its class unless it starts with the
parent. -/
theorem yieldsClass_iff_nameFirst
    (header : HeaderAt file index line rest (rest.takeWhile (continuesBody (indentation line)))
      name parent) :
    YieldsClass file index name parent ↔
      firstWord? (splitter.region line rest).tail ≠ some extendsKeyword := by
  obtain ⟨front, whole, streams, stream⟩ := header.streams
  obtain rfl : front = whole := by
    have region : splitter.region line rest = classKeyword :: whole := stream
    rw [streams.region] at region
    exact (List.cons.inj region).2
  obtain ⟨found, matched, named, _⟩ := streams.matched
  have closed : headerEnd ∈ splitter.region line rest := by
    obtain ⟨token, member, colon⟩ := Grammar.exists_colon_of_classHeader rfl matched
    have inRegion : token ∈ splitter.region line rest := by
      rw [streams.region]
      exact List.mem_cons_of_mem _ member
    exact eq_headerEnd_of_colon inRegion colon ▸ inRegion
  rw [yieldsClass_iff_region header.place header.opens, streams.headerName_iff,
    streams.parentsNamed_iff, streams.region, List.tail_cons]
  constructor
  · rintro ⟨⟨word, isFirst, other⟩, _⟩ parentFirst
    exact other (Option.some.inj (isFirst.symm.trans parentFirst))
  · intro other
    refine ⟨?_, fun _ => streams.region ▸ closed⟩
    rcases Grammar.classHeader_name rfl streams.readable matched named with nameFirst | parentFirst
    · obtain ⟨word, isFirst, _⟩ := Option.bind_eq_some_iff.1 nameFirst
      exact ⟨word, isFirst, fun same => other (same ▸ isFirst)⟩
    · exact absurd parentFirst other

/-- A class header yields its class exactly if its region has a word after the keyword that is
not the keyword of the parent, and, should there be a parent, the colon. -/
theorem yieldsClass_iff (header : HeaderAt file index line rest seen name parent) :
    YieldsClass file index name parent ↔
      ∃ word, firstWord? (splitter.region line rest).tail = some word ∧ word ≠ extendsKeyword ∧
        (parent.isSome = true → headerEnd ∈ splitter.region line rest) := by
  obtain ⟨front, whole, streams, _⟩ := header.streams
  rw [yieldsClass_iff_region header.place header.opens, streams.headerName_iff,
    streams.parentsNamed_iff]
  constructor
  · rintro ⟨⟨word, isFirst, other⟩, closed⟩
    exact ⟨word, isFirst, other, closed⟩
  · rintro ⟨word, isFirst, other, closed⟩
    exact ⟨⟨word, isFirst, other⟩, closed⟩

/-- A script of one text. -/
def fileOf (text : String) : FileRecord :=
  (extract "game" ⟨"/work/game/a.gd", text⟩ "game/a.gd").file

/-- A class with a parent, the name first. -/
theorem yieldsClass_inner :
    HeaderAt (fileOf "class Inner extends Base:\n\tpass\n") 0 "class Inner extends Base:".toList
        ["\tpass".toList] ["\tpass".toList] "Inner" (some "Base") ∧
      YieldsClass (fileOf "class Inner extends Base:\n\tpass\n") 0 "Inner" (some "Base") := by
  have header : HeaderAt (fileOf "class Inner extends Base:\n\tpass\n") 0
      "class Inner extends Base:".toList ["\tpass".toList] ["\tpass".toList] "Inner"
      (some "Base") := by
    refine ⟨by decide +kernel, by decide +kernel, List.takeWhile_prefix _, List.prefix_refl _,
      ⟨0, "class", ["Inner", "extends", "Base", ":", "\n", "pass"]⟩,
      ⟨[⟨"name", "Inner"⟩, ⟨"parent", "Base"⟩], 25⟩, ?_⟩
    decide +kernel
  exact ⟨header, header.yieldsClass_iff.2 ⟨"Inner", by decide +kernel⟩⟩

/-- The same class, the parent first: the class header grammar matches it, and nothing comes of
it. -/
theorem reversed_header_yields_nothing :
    ¬ ∀ (file : FileRecord) (index : Nat) (line : List Char) (rest seen : List (List Char))
      (name : String) (parent : Option String),
      HeaderAt file index line rest seen name parent → YieldsClass file index name parent := by
  intro yields
  have header : HeaderAt (fileOf "class extends Base Inner:\n\tpass\n") 0
      "class extends Base Inner:".toList ["\tpass".toList]
      (["\tpass".toList].takeWhile
        (continuesBody (indentation "class extends Base Inner:".toList))) "Inner" (some "Base") := by
    refine ⟨by decide +kernel, by decide +kernel, List.prefix_refl _, List.takeWhile_prefix _,
      ⟨0, "class", ["extends", "Base", "Inner", ":", "\n", "pass"]⟩,
      ⟨[⟨"parent", "Base"⟩, ⟨"name", "Inner"⟩], 25⟩, ?_⟩
    decide +kernel
  have yielded := yields _ _ _ _ _ _ _ header
  have parentFirst : firstWord? (splitter.region "class extends Base Inner:".toList
      ["\tpass".toList]).tail = some extendsKeyword := by
    decide +kernel
  exact header.yieldsClass_iff_nameFirst.1 yielded parentFirst

end HeaderAt

end Script

end GodotGraph
