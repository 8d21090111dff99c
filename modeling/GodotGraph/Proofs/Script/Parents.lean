import GodotGraph.Proofs.Script.HeaderAgreement

/-!
Contract: the parents of the classes inside a script.

Owns:
- the line that opens the scope of a class;
- the parents of a class, as the headers in its scope declare them;
- the exact condition under which a class has the parent of its own header line and no other.

A header counts for a class by its name alone. A class inside a class of the same name gives its
parent to both, and so does any text in a body that reads like a header of that name.
-/

set_option autoImplicit false

namespace GodotGraph.Script

open Grammar (classKeyword extendsKeyword headerEnd parentCapture)
open Scope (continuesBody indentation)
open Token (IsWord newline ofGodot ofLines firstWord?)

/-! ## Headers at a place -/

/-- The parent in the class header that the keyword opens before these tokens. -/
def headerParent? (following : List String) : Option String :=
  match Grammar.classHeader.parseWindow ⟨0, classKeyword, following⟩ with
  | .ok found => found.first? parentCapture
  | .error _ => none

/-- The first header of a scope has the name of the scope, so its parent comes first. -/
theorem parentsNamed_scope {name : String} {following : List String}
    (readable : ∀ token ∈ following, IsWord token ∨ token = newline)
    (named : (firstWord? following).bind Grammar.nameOf? = some name) :
    parentsNamed name (classKeyword :: following) =
      (headerParent? following).toList ++ parentsNamed name following := by
  cases outcome : Grammar.classHeader.parseWindow ⟨0, classKeyword, following⟩ with
  | error mismatch =>
      rw [parentsNamed_class_cons_of_error name outcome, headerParent?, outcome]
      rfl
  | ok found =>
      obtain ⟨own, isOwn⟩ := Grammar.exists_name_of_classHeader rfl outcome
      have same : own = name := by
        rcases Grammar.classHeader_name rfl readable outcome isOwn with nameFirst | parentFirst
        · exact Option.some.inj (nameFirst.symm.trans named)
        · have parentFirst : firstWord? following = some extendsKeyword := parentFirst
          have reserved : Grammar.nameOf? extendsKeyword = none := by decide +kernel
          rw [parentFirst, Option.bind_some, reserved] at named
          cases named
      rw [parentsNamed_class_cons_of_ok name outcome, parentOf?, if_pos (same ▸ isOwn),
        headerParent?, outcome]

/-- A header that ends on its line is the same with the lines below. -/
theorem headerParent?_of_colon {header : List String} (closed : headerEnd ∈ header)
    (below : List String) : headerParent? (header ++ below) = headerParent? header := by
  rw [headerParent?, headerParent?,
    classHeader_parseWindow_of_isPrefix (List.prefix_append header below) closed]

/-- A line without a colon has no header. -/
theorem headerParent?_of_no_colon {header : List String}
    (noColon : ∀ token ∈ header, ':' ∉ token.toList) : headerParent? header = none := by
  cases outcome : Grammar.classHeader.parseWindow ⟨0, classKeyword, header⟩ with
  | error mismatch => rw [headerParent?, outcome]
  | ok found =>
      obtain ⟨token, member, colon⟩ := Grammar.exists_colon_of_classHeader rfl outcome
      exact absurd colon (noColon token member)

/-! ## Scopes -/

/-- The tokens behind the first one up to the end of its line. -/
def headerLine (tokens : List String) : List String :=
  tokens.tail.takeWhile (· ≠ newline)

/-- A line of the script opens the scope of the entity: the scope is the region of the line, and
the name is the first word behind the keyword. -/
structure OpenedAt (file : FileRecord) (entity : EntityRecord) (index : Nat) (line : List Char)
    (rest : List (List Char)) : Prop where
  place : (codeLines file).drop index = line :: rest
  opens : splitter.startsAtLine line = true
  region : entity.tokens = splitter.region line rest
  keyword : entity.tokens = classKeyword :: entity.tokens.tail
  header : ofGodot line = classKeyword :: headerLine entity.tokens
  named : (firstWord? entity.tokens.tail).bind Grammar.nameOf? = some entity.localName

theorem takeWhile_append_ofLines {header : List String} (inLine : newline ∉ header)
    (below : List (List Char)) :
    (header ++ ofLines below).takeWhile (· ≠ newline) = header := by
  have whole : ∀ token ∈ header, decide (token ≠ newline) = true := by
    intro token member
    rw [decide_eq_true_eq]
    rintro rfl
    exact inLine member
  rw [List.takeWhile_append_of_pos whole]
  cases below with
  | nil => simp [ofLines]
  | cons line others => simp [ofLines]

theorem exists_openedAt {file : FileRecord} {entity : EntityRecord}
    (member : entity ∈ (innerEntities file).1) :
    ∃ index line rest, OpenedAt file entity index line rest := by
  obtain ⟨body, isScope, rfl⟩ := List.mem_map.1 member
  have regions : (splitter.split file.source).bodies =
      (splitter.regions (codeLines file)).filterMap splitter.body? :=
    Scope.Splitter.bodies_split splitter rfl file.source
  rw [regions] at isScope
  obtain ⟨tokens, isRegion, isBody⟩ := List.mem_filterMap.1 isScope
  obtain ⟨name, named, rfl⟩ := Option.map_eq_some_iff.1 isBody
  obtain ⟨index, line, rest, place, opens, region⟩ := splitter.exists_line_of_mem_regions isRegion
  have inLine : '\n' ∉ line := newline_not_mem_codeLines
    (List.mem_of_mem_drop (by rw [place]; exact List.mem_cons_self))
  obtain ⟨header, first, stream⟩ := ofText_joinLines_of_startsAtLine inLine opens
  have shape : tokens = classKeyword ::
      (header ++ ofLines (rest.takeWhile (continuesBody (indentation line)))) :=
    region.trans (stream _)
  have inHeader : newline ∉ header := by
    intro isToken
    refine Token.newline_not_mem_ofGodot inLine ?_
    rw [first]
    exact List.mem_cons_of_mem _ isToken
  have readable : ∀ token ∈ splitter.region line rest, IsWord token ∨ token = newline :=
    Token.isWord_or_newline_of_mem
  rw [← region, shape] at readable
  refine ⟨index, line, rest, ⟨place, opens, region, ?_, ?_, ?_⟩⟩
  · show tokens = classKeyword :: tokens.tail
    rw [shape, List.tail_cons]
  · show ofGodot line = classKeyword :: headerLine tokens
    rw [first, shape, headerLine, List.tail_cons, takeWhile_append_ofLines inHeader]
  · show (firstWord? tokens.tail).bind Grammar.nameOf? = some name
    rw [shape, headerName_class_cons fun token later =>
      readable token (List.mem_cons_of_mem _ later)] at named
    rw [shape, List.tail_cons, named]

/-! ## Parents -/

section

variable {file : FileRecord} {entity : EntityRecord} {parent : String}

/-- A parent on the line that opens a scope comes from a header that ends there. -/
theorem OpenedAt.headerEnd_mem {index : Nat} {line : List Char} {rest : List (List Char)}
    (opened : OpenedAt file entity index line rest)
    (inherits : headerParent? (headerLine entity.tokens) = some parent) :
    headerEnd ∈ headerLine entity.tokens := by
  by_contra noEnd
  have noColon : ∀ token ∈ headerLine entity.tokens, ':' ∉ token.toList := by
    intro token onLine colon
    have inLine : token ∈ ofGodot line := by
      rw [opened.header]
      exact List.mem_cons_of_mem _ onLine
    have isEnd : token = headerEnd := Token.eq_mark_of_mem (by decide) token inLine colon
    exact noEnd (isEnd ▸ onLine)
  rw [headerParent?_of_no_colon noColon] at inherits
  cases inherits

/-- The lines below change nothing about a header that ends on its line. -/
theorem headerParent?_tail {tokens : List String} (closed : headerEnd ∈ headerLine tokens) :
    headerParent? tokens.tail = headerParent? (headerLine tokens) := by
  have split : tokens.tail = headerLine tokens ++ tokens.tail.dropWhile (· ≠ newline) :=
    List.takeWhile_append_dropWhile.symm
  rw [split, headerParent?_of_colon closed]

/-- A class has the parent of the header in its scope, and those of later headers that have its
name. -/
theorem inheritance_eq (member : entity ∈ (innerEntities file).1) :
    entity.inheritance = addAllOnce [] ((headerParent? entity.tokens.tail).toList ++
      parentsNamed entity.localName entity.tokens.tail) := by
  obtain ⟨index, line, rest, opened⟩ := exists_openedAt member
  have readable : ∀ token ∈ entity.tokens.tail, IsWord token ∨ token = newline := by
    intro token later
    have inScope := List.mem_of_mem_tail later
    rw [opened.region] at inScope
    exact Token.isWord_or_newline_of_mem token inScope
  rw [← parentsNamed_scope readable opened.named, ← opened.keyword]
  obtain ⟨body, -, rfl⟩ := List.mem_map.1 member
  rfl

theorem mem_inheritance_iff (member : entity ∈ (innerEntities file).1) :
    parent ∈ entity.inheritance ↔ headerParent? entity.tokens.tail = some parent ∨
      ∃ front back, entity.tokens.tail = front ++ classKeyword :: back ∧
        Declares entity.localName parent back := by
  rw [inheritance_eq member, mem_addAllOnce, List.mem_append, Option.mem_toList,
    mem_parentsNamed_iff]
  simp

theorem length_le_one_of_nodup {names : List String} {only : Option String} (distinct : names.Nodup)
    (each : ∀ name ∈ names, only = some name) : names.length ≤ 1 := by
  match names with
  | [] => exact Nat.zero_le 1
  | [_] => exact Nat.le_refl 1
  | first :: second :: _ =>
      have same := (each first (by simp)).symm.trans (each second (by simp))
      simp [Option.some.inj same] at distinct

/-- Each class of a script has a line that opens its scope. Its parents are the one that the class
header captures there and those of later headers of the same name. It has no parent but the one on
that line exactly if its header ends on the line, or has no parent, and every header of its name
inside the scope has that same parent. -/
theorem inherits_from_header_line_iff (member : entity ∈ (innerEntities file).1) :
    (∃ index line rest, OpenedAt file entity index line rest) ∧
      entity.inheritance = addAllOnce [] ((headerParent? entity.tokens.tail).toList ++
        parentsNamed entity.localName entity.tokens.tail) ∧
      ((entity.inheritance.length ≤ 1 ∧
          ∀ parent ∈ entity.inheritance,
            headerParent? (headerLine entity.tokens) = some parent) ↔
        (headerEnd ∈ headerLine entity.tokens ∨ headerParent? entity.tokens.tail = none) ∧
          ∀ front back parent, entity.tokens.tail = front ++ classKeyword :: back →
            Declares entity.localName parent back →
              headerParent? (headerLine entity.tokens) = some parent) := by
  obtain ⟨index, line, rest, opened⟩ := exists_openedAt member
  refine ⟨⟨index, line, rest, opened⟩, inheritance_eq member, ?_, ?_⟩
  · rintro ⟨-, own⟩
    constructor
    · cases first : headerParent? entity.tokens.tail with
      | none => exact Or.inr rfl
      | some parent =>
          exact Or.inl (opened.headerEnd_mem
            (own parent ((mem_inheritance_iff member).2 (Or.inl first))))
    · intro front back parent split declares
      exact own parent ((mem_inheritance_iff member).2 (Or.inr ⟨front, back, split, declares⟩))
  · rintro ⟨closed, later⟩
    have own : ∀ parent ∈ entity.inheritance,
        headerParent? (headerLine entity.tokens) = some parent := by
      intro parent isParent
      rcases (mem_inheritance_iff member).1 isParent with first | ⟨front, back, split, declares⟩
      · rcases closed with ends | none
        · exact (headerParent?_tail ends).symm.trans first
        · cases none.symm.trans first
      · exact later front back parent split declares
    have distinct : entity.inheritance.Nodup := by
      rw [inheritance_eq member]
      exact nodup_addAllOnce _ List.nodup_nil
    exact ⟨length_le_one_of_nodup distinct own, own⟩

end

/-- A class with a parent, and a class of another name inside it. -/
def outerAndInner : FileRecord :=
  HeaderAt.fileOf "class Outer extends Root:\n\tclass Inner extends Base:\n\t\tpass\n"

def outer : EntityRecord :=
  withParents (entityOfBody outerAndInner ⟨"Outer", ["class", "Outer", "extends", "Root", ":", "\n",
    "class", "Inner", "extends", "Base", ":", "\n", "pass"]⟩)

theorem inherits_from_header_line_iff_outer :
    outer ∈ (innerEntities outerAndInner).1 ∧ outer.inheritance.length ≤ 1 ∧
      ∀ parent ∈ outer.inheritance, headerParent? (headerLine outer.tokens) = some parent := by
  have member : outer ∈ (innerEntities outerAndInner).1 := by decide +kernel
  have closed : headerEnd ∈ headerLine outer.tokens := by decide +kernel
  have noneLater : parentsNamed outer.localName outer.tokens.tail = [] := by decide +kernel
  refine ⟨member, (inherits_from_header_line_iff member).2.2.2 ⟨Or.inl closed, ?_⟩⟩
  intro front back parent split declares
  have inLater := mem_parentsNamed_iff.2 ⟨front, back, split, declares⟩
  rw [noneLater] at inLater
  cases inLater

/-- A class inside a class of the same name. -/
def namesakes : FileRecord :=
  HeaderAt.fileOf "class Foo extends A:\n\tclass Foo extends B:\n\t\tpass\n"

/-- The outer class gets the parent of the inner one as well. -/
theorem namesake_leaks_parent :
    ¬ ∀ (file : FileRecord), ∀ entity ∈ (innerEntities file).1,
      entity.inheritance.length ≤ 1 ∧
        ∀ parent ∈ entity.inheritance, headerParent? (headerLine entity.tokens) = some parent := by
  intro inherits
  have leaks : (innerEntities namesakes).1.any (fun entity => entity.inheritance == ["A", "B"]) =
      true := by
    decide +kernel
  obtain ⟨entity, member, both⟩ := List.any_eq_true.1 leaks
  have single := (inherits namesakes entity member).1
  rw [eq_of_beq both] at single
  exact absurd single (by decide)

end GodotGraph.Script
