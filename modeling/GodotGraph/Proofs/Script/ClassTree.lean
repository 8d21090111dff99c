import GodotGraph.Proofs.Extraction
import GodotGraph.Proofs.Script.Outline

/-!
Contract: reading the classes of a script back from an outline of it.

Owns:
- the parents that the headers in a stream declare for a name, header by header;
- the lines that the body of a class takes in, which are its own and no other header;
- one entity for each declared class, in the order of the outline, from its lines or from its text.

A body is read together with the lines after it that lie deeper than its header. These
open no class, so they change nothing about what is declared.
-/

set_option autoImplicit false

namespace GodotGraph.Script

open Grammar (Identifier classKeyword headerTokens)
open Token (newline ofGodot ofLines)
open Scope (continuesBody indentation)

/-! ## Headers in a stream -/

/-- The parents that the headers of a name declare in a stream. -/
def parentsNamed (name : String) (tokens : List String) : List String :=
  (matchesOf (headerAttempts tokens)).filterMap (parentOf? name)

theorem headerAttempts_cons (token : String) (rest : List String) :
    headerAttempts (token :: rest) =
      (if token = classKeyword then [Grammar.classHeader.parseWindow ⟨0, token, rest⟩] else []) ++
        headerAttempts rest := by
  have step := Grammar.attempts_cons Grammar.classHeader
    (fun anchor => decide (anchor = classKeyword)) token rest
  by_cases keyword : token = classKeyword
  · simpa [headerAttempts, keyword] using step
  · simpa [headerAttempts, keyword] using step

/-- The keyword opens a class header with this name and this parent before these tokens. -/
def Declares (name parent : String) (following : List String) : Prop :=
  ∃ found, Grammar.classHeader.parseWindow ⟨0, classKeyword, following⟩ = .ok found ∧
    found.first? Grammar.nameCapture = some name ∧ found.first? Grammar.parentCapture = some parent

theorem parentOf?_eq_some_iff {name parent : String} {found : Grammar.Match} :
    parentOf? name found = some parent ↔
      found.first? Grammar.nameCapture = some name ∧
        found.first? Grammar.parentCapture = some parent := by
  rw [parentOf?]
  split
  · next named => simp [named]
  · next other => simp [other]

theorem parentsNamed_cons_of_ne (name : String) {token : String} (other : token ≠ classKeyword)
    (rest : List String) : parentsNamed name (token :: rest) = parentsNamed name rest := by
  rw [parentsNamed, headerAttempts_cons, if_neg other]
  rfl

theorem parentsNamed_class_cons_of_error (name : String) {following : List String}
    {mismatch : Pattern.Mismatch}
    (failed : Grammar.classHeader.parseWindow ⟨0, classKeyword, following⟩ = .error mismatch) :
    parentsNamed name (classKeyword :: following) = parentsNamed name following := by
  rw [parentsNamed, headerAttempts_cons, if_pos rfl, failed]
  rfl

theorem parentsNamed_class_cons_of_ok (name : String) {following : List String}
    {found : Grammar.Match}
    (matched : Grammar.classHeader.parseWindow ⟨0, classKeyword, following⟩ = .ok found) :
    parentsNamed name (classKeyword :: following) =
      (parentOf? name found).toList ++ parentsNamed name following := by
  rw [parentsNamed, headerAttempts_cons, if_pos rfl, matched, List.singleton_append,
    matchesOf_ok_cons, List.filterMap_cons]
  cases parentOf? name found <;> rfl

theorem mem_parentsNamed_cons_iff {name parent token : String} {rest : List String} :
    parent ∈ parentsNamed name (token :: rest) ↔
      (token = classKeyword ∧ Declares name parent rest) ∨ parent ∈ parentsNamed name rest := by
  by_cases keyword : token = classKeyword
  · obtain rfl := keyword
    cases outcome : Grammar.classHeader.parseWindow ⟨0, classKeyword, rest⟩ with
    | error mismatch => simp [parentsNamed_class_cons_of_error name outcome, Declares, outcome]
    | ok found =>
        rw [parentsNamed_class_cons_of_ok name outcome, List.mem_append, Option.mem_toList,
          parentOf?_eq_some_iff]
        simp [Declares, outcome]
  · rw [parentsNamed_cons_of_ne name keyword]
    simp [keyword]

/-- The parents of a name in a stream are those of the headers that the keyword opens in it. -/
theorem mem_parentsNamed_iff {name parent : String} {tokens : List String} :
    parent ∈ parentsNamed name tokens ↔
      ∃ front back, tokens = front ++ classKeyword :: back ∧ Declares name parent back := by
  induction tokens with
  | nil =>
      have none : parentsNamed name [] = [] := rfl
      simp [none]
  | cons token rest inductionHypothesis =>
      rw [mem_parentsNamed_cons_iff, inductionHypothesis]
      constructor
      · rintro (⟨rfl, declares⟩ | ⟨front, back, rfl, declares⟩)
        · exact ⟨[], rest, rfl, declares⟩
        · exact ⟨token :: front, back, rfl, declares⟩
      · rintro ⟨front, back, split, declares⟩
        cases front with
        | nil =>
            obtain ⟨rfl, rfl⟩ := List.cons.inj split
            exact Or.inl ⟨rfl, declares⟩
        | cons first others => exact Or.inr ⟨others, back, (List.cons.inj split).2, declares⟩

theorem headerAttempts_append_of_not_mem {tokens : List String} (absent : classKeyword ∉ tokens)
    (rest : List String) : headerAttempts (tokens ++ rest) = headerAttempts rest := by
  have none : ∀ token ∈ tokens, decide (token = classKeyword) = false := by
    intro token member
    rw [decide_eq_false_iff_not]
    rintro rfl
    exact absent member
  exact Grammar.attempts_append_of_none Grammar.classHeader none rest

theorem parentsNamed_append_of_not_mem (name : String) {tokens : List String}
    (absent : classKeyword ∉ tokens) (rest : List String) :
    parentsNamed name (tokens ++ rest) = parentsNamed name rest := by
  rw [parentsNamed, headerAttempts_append_of_not_mem absent, parentsNamed]

theorem text_ne_classKeyword (identifier : Identifier) : identifier.text ≠ classKeyword := by
  intro same
  have letters : identifier.letters = classKeyword.toList := by
    rw [← same, Identifier.text, String.toList_ofList]
  have named := identifier.named
  rw [letters] at named
  exact absurd named (by decide)

theorem text_inj {first second : Identifier} (same : first.text = second.text) :
    first = second := by
  have letters : first.letters = second.letters := String.ofList_injective same
  cases first
  cases second
  simpa using letters

theorem headerAttempts_header (name : Identifier) (parent : Option Identifier)
    (rest : List String) :
    ∃ stop, headerAttempts (headerTokens name parent ++ rest) =
      .ok ⟨Grammar.headerCaptures name parent, stop⟩ :: headerAttempts rest := by
  have absent : classKeyword ∉
      name.text :: (Grammar.parentTokens parent ++ [Grammar.headerEnd]) := by
    have notName := (text_ne_classKeyword name).symm
    have notExtends : classKeyword ≠ Grammar.extendsKeyword := by decide
    have notEnd : classKeyword ≠ Grammar.headerEnd := by decide
    cases parent with
    | none => simp [Grammar.parentTokens, notName, notEnd]
    | some identifier =>
        have notParent := (text_ne_classKeyword identifier).symm
        simp [Grammar.parentTokens, notName, notExtends, notParent, notEnd]
  have header : classKeyword ::
      ((name.text :: (Grammar.parentTokens parent ++ [Grammar.headerEnd])) ++ rest) =
        headerTokens name parent ++ rest := rfl
  have window : ∃ stop, Grammar.classHeader.parseWindow ⟨0, classKeyword,
      (name.text :: (Grammar.parentTokens parent ++ [Grammar.headerEnd])) ++ rest⟩ =
        .ok ⟨Grammar.headerCaptures name parent, stop⟩ :=
    Grammar.classHeader_parseWindow name parent header
  obtain ⟨stop, run⟩ := window
  refine ⟨stop, ?_⟩
  have step := Grammar.attempts_cons Grammar.classHeader
    (fun anchor => decide (anchor = classKeyword)) classKeyword
    ((name.text :: (Grammar.parentTokens parent ++ [Grammar.headerEnd])) ++ rest)
  rw [run] at step
  rw [← header]
  refine step.trans ?_
  rw [← headerAttempts_append_of_not_mem absent rest]
  rfl

/-- A header declares its parent for its own name and nothing for any other. -/
theorem parentsNamed_header (wanted name : Identifier) (parent : Option Identifier)
    (rest : List String) :
    parentsNamed wanted.text (headerTokens name parent ++ rest) =
      (if name = wanted then parent.toList.map fun identifier => identifier.text else []) ++
        parentsNamed wanted.text rest := by
  obtain ⟨stop, attempts⟩ := headerAttempts_header name parent rest
  have own : parentOf? wanted.text ⟨Grammar.headerCaptures name parent, stop⟩ =
      if name = wanted then parent.map fun identifier => identifier.text else none := by
    have nameFound : Grammar.Match.first? ⟨Grammar.headerCaptures name parent, stop⟩
        Grammar.nameCapture = some name.text := by
      simp [Grammar.Match.first?, Grammar.headerCaptures]
    have parentFound : Grammar.Match.first? ⟨Grammar.headerCaptures name parent, stop⟩
        Grammar.parentCapture = parent.map fun identifier => identifier.text := by
      cases parent with
      | none =>
          simp [Grammar.Match.first?, Grammar.headerCaptures, Grammar.nameCapture,
            Grammar.parentCapture]
      | some identifier => rfl
    rw [parentOf?, nameFound, parentFound]
    by_cases same : name = wanted
    · simp [same]
    · have differs : name.text ≠ wanted.text := fun equal => same (text_inj equal)
      simp [same, differs]
  have first : parentsNamed wanted.text (headerTokens name parent ++ rest) =
      (parentOf? wanted.text ⟨Grammar.headerCaptures name parent, stop⟩).toList ++
        parentsNamed wanted.text rest := by
    rw [parentsNamed, attempts, parentsNamed, matchesOf_ok_cons, List.filterMap_cons]
    cases parentOf? wanted.text ⟨Grammar.headerCaptures name parent, stop⟩ <;> rfl
  rw [first, own]
  by_cases same : name = wanted
  · rw [if_pos same, if_pos same]
    cases parent <;> rfl
  · rw [if_neg same, if_neg same]
    rfl

/-! ## The lines of a body -/

/-- Lines that a body of at least this indentation takes in without taking in a header. -/
def Quiet (floor : Nat) (lines : List (List Char)) : Prop :=
  ∀ width, floor ≤ width → ∀ line ∈ lines.takeWhile (continuesBody width),
    classKeyword ∉ ofGodot line

theorem quiet_nil (floor : Nat) : Quiet floor [] := by
  intro width _ line member
  exact absurd member (by simp)

theorem Quiet.mono {floor higher : Nat} {lines : List (List Char)} (quiet : Quiet floor lines)
    (above : floor ≤ higher) : Quiet higher lines :=
  fun width below => quiet width (Nat.le_trans above below)

namespace Outline

/-- The lines of an outline without their comments. -/
def bareLines (outline : Outline) : List (List Char) :=
  outline.lines.map bareLine

theorem laid_line {floor width : Nat} {text : List Char} {rest : Outline}
    (laid : (line text rest).laid floor width = true) :
    isPlain text = true ∧ fits floor text = true ∧ rest.laid floor width = true := by
  simpa [Outline.laid, and_assoc] using laid

/-- What the layout says of a declaration. -/
structure LaidDeclaration (floor width : Nat) (indent : List Char) (body rest : Outline) : Prop where
  blank : ∀ c ∈ indent, Text.isBlank c = true ∧ c ≠ '\n'
  indented : indentation indent = width
  above : floor ≤ width
  body : body.laid (width + 1) body.width = true
  rest : rest.laid floor width = true

theorem laid_declare {floor width : Nat} {indent : List Char} {name : Identifier}
    {parent : Option Identifier} {body rest : Outline}
    (laid : (declare indent name parent body rest).laid floor width = true) :
    LaidDeclaration floor width indent body rest := by
  have all : ((((∀ c ∈ indent, Text.isBlank c = true ∧ c ≠ '\n') ∧ indentation indent = width) ∧
      floor ≤ width) ∧ body.laid (width + 1) body.width = true) ∧
        rest.laid floor width = true := by
    simpa [Outline.laid] using laid
  obtain ⟨⟨⟨⟨blank, indented⟩, above⟩, bodyLaid⟩, restLaid⟩ := all
  exact ⟨blank, indented, above, bodyLaid, restLaid⟩

theorem bareLines_declare {floor width : Nat} {indent : List Char} {body rest : Outline}
    (laid : LaidDeclaration floor width indent body rest) (name : Identifier)
    (parent : Option Identifier) :
    (declare indent name parent body rest).bareLines =
      (indent ++ headerText name parent) :: (body.bareLines ++ rest.bareLines) := by
  simp [bareLines, lines, bareLine_header laid.blank]

/-- A header belongs to a body exactly if it lies deeper. -/
theorem continuesBody_header {indent : List Char}
    (blank : ∀ c ∈ indent, Text.isBlank c = true ∧ c ≠ '\n') (name : Identifier)
    (parent : Option Identifier) (width : Nat) :
    continuesBody width (indent ++ headerText name parent) =
      decide (width < indentation indent) := by
  have filled : Text.allBlank (indent ++ headerText name parent) = false := by
    have solid : Text.isBlank 'c' = false := by decide
    simp [Text.allBlank, headerText, classKeyword, solid]
  rw [continuesBody, filled, indentation_header blank, Bool.false_or]

/-- All lines of an outline belong to a body that is less far in. -/
theorem continuesBody_of_laid {outline : Outline} {floor width outer : Nat}
    (laid : outline.laid floor width = true) (below : outer < floor) :
    ∀ line ∈ outline.bareLines, continuesBody outer line = true := by
  induction outline generalizing floor width with
  | done => simp [bareLines, lines]
  | line text rest inductionHypothesis =>
      obtain ⟨_, fits, restLaid⟩ := laid_line laid
      intro line member
      rcases List.mem_cons.1 member with rfl | inRest
      · simp only [Script.fits, Bool.or_eq_true, decide_eq_true_eq] at fits
        rw [continuesBody, Bool.or_eq_true, decide_eq_true_eq]
        rcases fits with blank | deep
        · exact Or.inl blank
        · exact Or.inr (by omega)
      · exact inductionHypothesis restLaid below line inRest
  | declare indent name parent body rest bodyHypothesis restHypothesis =>
      have declared := laid_declare laid
      have above := declared.above
      intro line member
      rw [bareLines_declare declared, List.mem_cons, List.mem_append] at member
      rcases member with rfl | inBody | inRest
      · rw [continuesBody_header declared.blank, declared.indented, decide_eq_true_eq]
        omega
      · exact bodyHypothesis declared.body (by omega) line inBody
      · exact restHypothesis declared.rest below line inRest

/-- A body takes nothing but plain lines from the siblings after it. -/
theorem quiet_bareLines_append {outline : Outline} {floor width : Nat}
    {after : List (List Char)} (laid : outline.laid floor width = true) (above : floor ≤ width)
    (quiet : Quiet floor after) : Quiet width (outline.bareLines ++ after) := by
  induction outline with
  | done => exact quiet.mono above
  | line text rest inductionHypothesis =>
      obtain ⟨plain, _, restLaid⟩ := laid_line laid
      intro inner deeper line member
      have shape : (Outline.line text rest).bareLines ++ after =
          bareLine text :: (rest.bareLines ++ after) := rfl
      rw [shape, List.takeWhile_cons] at member
      split at member
      · rcases List.mem_cons.1 member with rfl | inRest
        · simpa [isPlain] using plain
        · exact inductionHypothesis restLaid inner deeper line inRest
      · simp at member
  | declare indent name parent body rest bodyHypothesis restHypothesis =>
      have declared := laid_declare laid
      intro inner deeper line member
      have stops : continuesBody inner (indent ++ headerText name parent) = false := by
        rw [continuesBody_header declared.blank, declared.indented, decide_eq_false_iff_not]
        omega
      rw [bareLines_declare declared, List.cons_append,
        List.takeWhile_cons_of_neg (by simp [stops])] at member
      simp at member

/-- The body of a class takes in its own lines and some plain ones. -/
theorem takeWhile_body {floor width : Nat} {indent : List Char} {body rest : Outline}
    (declared : LaidDeclaration floor width indent body rest) {after : List (List Char)}
    (quiet : Quiet floor after) :
    ∃ plain, (∀ line ∈ plain, classKeyword ∉ ofGodot line) ∧
      (body.bareLines ++ (rest.bareLines ++ after)).takeWhile (continuesBody width) =
        body.bareLines ++ plain := by
  have inside := continuesBody_of_laid declared.body (Nat.lt_succ_self width)
  have others := quiet_bareLines_append declared.rest declared.above quiet
  exact ⟨_, others width (Nat.le_refl width), List.takeWhile_append_of_pos inside⟩

/-! ## The parents that a body declares -/

theorem classKeyword_not_mem_ofLines {lines : List (List Char)}
    (plain : ∀ line ∈ lines, classKeyword ∉ ofGodot line) : classKeyword ∉ ofLines lines := by
  have other : classKeyword ≠ newline := by decide
  intro member
  obtain ⟨line, inLines, inTokens⟩ := List.mem_flatMap.1 member
  rcases List.mem_cons.1 inTokens with same | inside
  · exact other same
  · exact plain line inLines inside

/-- The tokens of an outline start with those of its first header, if it comes first. -/
theorem ofLines_declare {floor width : Nat} {indent : List Char} {body rest : Outline}
    (declared : LaidDeclaration floor width indent body rest) (name : Identifier)
    (parent : Option Identifier) :
    ofLines (declare indent name parent body rest).bareLines =
      newline :: (headerTokens name parent ++ (ofLines body.bareLines ++ ofLines rest.bareLines)) := by
  have tokens := ofGodot_headerText declared.blank name parent
  rw [bareLines_declare declared]
  simp [ofLines, tokens]

/-- Classes with other names declare no parent for a name. -/
theorem parentsNamed_outline {wanted : Identifier} {outline : Outline} {floor width : Nat}
    (laid : outline.laid floor width = true) (other : wanted ∉ outline.names)
    (tokens : List String) :
    parentsNamed wanted.text (ofLines outline.bareLines ++ tokens) =
      parentsNamed wanted.text tokens := by
  have notNewline : classKeyword ∉ [newline] := by decide
  induction outline generalizing floor width tokens with
  | done => rfl
  | line text rest inductionHypothesis =>
      obtain ⟨plain, _, restLaid⟩ := laid_line laid
      have absent : classKeyword ∉ newline :: ofGodot (bareLine text) := by
        have head : classKeyword ≠ newline := by decide
        simpa [isPlain, head] using plain
      have shape : ofLines (Outline.line text rest).bareLines ++ tokens =
          (newline :: ofGodot (bareLine text)) ++ (ofLines rest.bareLines ++ tokens) := by
        simp [bareLines, lines, ofLines]
      rw [shape, parentsNamed_append_of_not_mem _ absent]
      exact inductionHypothesis restLaid other tokens
  | declare indent name parent body rest bodyHypothesis restHypothesis =>
      have declared := laid_declare laid
      obtain ⟨differs, notInBody, notInRest⟩ : wanted ≠ name ∧ wanted ∉ body.names ∧
          wanted ∉ rest.names := by
        simpa [names, declarations] using other
      have shape : ofLines (declare indent name parent body rest).bareLines ++ tokens =
          [newline] ++ (headerTokens name parent ++
            (ofLines body.bareLines ++ (ofLines rest.bareLines ++ tokens))) := by
        simp [ofLines_declare declared]
      rw [shape, parentsNamed_append_of_not_mem _ notNewline, parentsNamed_header,
        if_neg (Ne.symm differs), List.nil_append, bodyHypothesis declared.body notInBody,
        restHypothesis declared.rest notInRest]

end Outline

/-! ## Regions -/

/-- What a region declares: the name in its header, and the parents for that name. -/
def declaredBy? (tokens : List String) : Option (String × List String) :=
  (splitter.headerName tokens).map fun name => (name, parentsNamed name tokens)

/-- What a declaration of an outline declares. -/
def written (declaration : Identifier × Option Identifier) : String × List String :=
  (declaration.1.text, declaration.2.toList.map fun identifier => identifier.text)

theorem headerName_header (name : Identifier) (parent : Option Identifier) (rest : List String) :
    splitter.headerName (headerTokens name parent ++ rest) = some name.text := by
  have header : classKeyword ::
      (name.text :: (Grammar.parentTokens parent ++ [Grammar.headerEnd]) ++ rest) =
        headerTokens name parent ++ rest := rfl
  have window : ∃ stop, Grammar.entityHeader.parseWindow ⟨0, classKeyword,
      name.text :: (Grammar.parentTokens parent ++ [Grammar.headerEnd]) ++ rest⟩ =
        .ok ⟨[⟨Grammar.nameCapture, name.text⟩], stop⟩ :=
    Grammar.entityHeader_parseWindow name parent header
  obtain ⟨stop, run⟩ := window
  have grammar : splitter.header = Grammar.entityHeader := rfl
  rw [← header, Scope.Splitter.headerName, grammar, run]
  rfl

namespace Outline

/-- The region of a class declares the class, whatever plain lines it takes in. -/
theorem declaredBy?_region {floor width : Nat} {indent : List Char} {name : Identifier}
    {parent : Option Identifier} {body rest : Outline}
    (declared : LaidDeclaration floor width indent body rest) (other : name ∉ body.names)
    {plain : List (List Char)} (isPlain : ∀ line ∈ plain, classKeyword ∉ ofGodot line) :
    declaredBy? (Token.ofText splitter.padding
        (Scope.joinLines ((indent ++ headerText name parent) :: (body.bareLines ++ plain)))) =
      some (written (name, parent)) := by
  have tokens : Token.ofText splitter.padding
      (Scope.joinLines ((indent ++ headerText name parent) :: (body.bareLines ++ plain))) =
        headerTokens name parent ++ (ofLines body.bareLines ++ (ofLines plain ++ [])) := by
    show Token.ofText Token.Padding.godot _ = _
    rw [Token.ofText_godot, Scope.joinLines, String.toList_ofList, Token.ofGodot_intercalate,
      ofGodot_headerText declared.blank, Token.ofLines_append, List.append_nil]
  have nothing : ∀ wanted, parentsNamed wanted [] = [] := fun _ => rfl
  rw [declaredBy?, tokens, headerName_header, Option.map_some, parentsNamed_header, if_pos rfl,
    parentsNamed_outline declared.body other,
    parentsNamed_append_of_not_mem _ (classKeyword_not_mem_ofLines isPlain), nothing,
    List.append_nil, written]

/-- The regions of an outline declare its classes in order, and then come the regions of
the lines after it. -/
theorem filterMap_regions {outline : Outline} {floor width : Nat} {after : List (List Char)}
    (laid : outline.laid floor width = true) (apart : outline.apart = true)
    (quiet : Quiet floor after) :
    (splitter.regions (outline.bareLines ++ after)).filterMap declaredBy? =
      outline.declarations.map written ++ (splitter.regions after).filterMap declaredBy? := by
  induction outline generalizing floor width after with
  | done => rfl
  | line text rest inductionHypothesis =>
      obtain ⟨plain, _, restLaid⟩ := laid_line laid
      have shape : (Outline.line text rest).bareLines ++ after =
          bareLine text :: (rest.bareLines ++ after) := rfl
      rw [shape, Scope.Splitter.regions, startsAtLine_plain plain]
      exact inductionHypothesis restLaid apart quiet
  | declare indent name parent body rest bodyHypothesis restHypothesis =>
      have declared := laid_declare laid
      obtain ⟨⟨other, bodyApart⟩, restApart⟩ :
          (name ∉ body.names ∧ body.apart = true) ∧ rest.apart = true := by
        simpa [Outline.apart] using apart
      obtain ⟨plain, isPlain, taken⟩ := takeWhile_body declared quiet
      -- The scan goes on inside the body, to which the lines after it are quiet.
      have later : Quiet (width + 1) (rest.bareLines ++ after) :=
        (quiet_bareLines_append declared.rest declared.above quiet).mono (Nat.le_succ width)
      have width' : indentation (indent ++ headerText name parent) = width := by
        rw [indentation_header declared.blank, declared.indented]
      have shape : (declare indent name parent body rest).bareLines ++ after =
          (indent ++ headerText name parent) :: (body.bareLines ++ (rest.bareLines ++ after)) := by
        simp [bareLines_declare declared]
      rw [shape, Scope.Splitter.regions, startsAtLine_header declared.blank, if_pos rfl, width',
        taken, List.filterMap_cons_some (declaredBy?_region declared other isPlain),
        bodyHypothesis declared.body bodyApart later, restHypothesis declared.rest restApart quiet]
      simp [declarations]

end Outline

/-! ## Entities -/

/-- What an entity tells of its class: the name, the name in the module, and the parents. -/
def toldBy (entity : EntityRecord) : String × String × List String :=
  (entity.localName, entity.uniqueName, entity.inheritance)

/-- What is to be told of a declared class. -/
def toldOf (moduleName : String) (declaration : Identifier × Option Identifier) :
    String × String × List String :=
  (declaration.1.text, uniqueName moduleName declaration.1.text,
    (declaration.2.map fun parent => parent.text).toList)

/-- The entities of a script tell what its regions declare. -/
theorem map_toldBy_innerEntities (file : FileRecord) :
    (innerEntities file).1.map toldBy =
      ((splitter.regions (splitter.comments.bareLines file.source.toList)).filterMap
        declaredBy?).map fun found =>
          (found.1, uniqueName file.moduleName found.1, addAllOnce [] found.2) := by
  rw [innerEntities, Scope.Splitter.bodies_split splitter rfl, List.map_map, List.map_filterMap,
    List.map_filterMap]
  congr 1
  funext tokens
  rw [Scope.Splitter.body?, declaredBy?]
  cases splitter.headerName tokens with
  | none => rfl
  | some name => rfl

/-- The lines of an outline are enough, whatever their comments say. -/
theorem innerEntities_of_bareLines {outline : Outline} (wellFormed : outline.WellFormed)
    {file : FileRecord}
    (bare : splitter.comments.bareLines file.source.toList = outline.bareLines) :
    (innerEntities file).1.map toldBy = outline.declarations.map (toldOf file.moduleName) := by
  have declared := Outline.filterMap_regions wellFormed.laid wellFormed.apart (quiet_nil 0)
  rw [Scope.Splitter.regions, List.filterMap_nil, List.append_nil, List.append_nil] at declared
  rw [map_toldBy_innerEntities, bare, declared, List.map_map]
  refine List.map_congr_left fun declaration _ => ?_
  obtain ⟨name, parent⟩ := declaration
  have once : addAllOnce [] (parent.toList.map fun identifier => identifier.text) =
      (parent.map fun identifier => identifier.text).toList := by
    cases parent with
    | none => rfl
    | some identifier => rfl
  simp only [Function.comp_apply, written, toldOf, once]

theorem bareLines_eq_map (text : List Char) :
    splitter.comments.bareLines text = (Text.lines text).map bareLine := rfl

/-- The text of an outline gives the classes of the outline, unless a line holds a line end. -/
theorem innerEntities_render {outline : Outline} (wellFormed : outline.WellFormed)
    (clean : ∀ line ∈ outline.lines, '\n' ∉ line ∧ line.getLast? ≠ some '\r')
    {file : FileRecord} (isText : file.source = outline.render) :
    (innerEntities file).1.map toldBy = outline.declarations.map (toldOf file.moduleName) := by
  apply innerEntities_of_bareLines wellFormed
  rw [bareLines_eq_map, isText, Outline.lines_render clean, Outline.bareLines]

/-- A script written as an outline gives one entity for each class, every class before those
inside it, with its name, its name in the module, and its parent. -/
theorem innerEntities_outline {outline : Outline} (wellFormed : outline.WellFormed)
    {file : FileRecord} (rendered : Text.lines file.source.toList = outline.lines) :
    (innerEntities file).1.map
        (fun entity => (entity.localName, entity.uniqueName, entity.inheritance)) =
      outline.declarations.map fun declaration =>
        (declaration.1.text, uniqueName file.moduleName declaration.1.text,
          (declaration.2.map fun parent => parent.text).toList) := by
  show (innerEntities file).1.map toldBy = outline.declarations.map (toldOf file.moduleName)
  apply innerEntities_of_bareLines wellFormed
  rw [bareLines_eq_map, rendered, Outline.bareLines]

/-- A script with a class inside a class. Comments and blank lines lie in between. -/
def shapesOutline : Outline :=
  .line "# class Old:".toList <|
    .declare [] ⟨"Shape".toList, by decide⟩ (some ⟨"Node2D".toList, by decide⟩)
      (.line [] <|
        .declare ['\t'] ⟨"Side".toList, by decide⟩ none
          (.line "# not a class".toList <| .line "\t\tvar length".toList .done) <|
        .line "\tvar sides".toList .done) <|
    .declare [] ⟨"Circle".toList, by decide⟩ (some ⟨"Shape".toList, by decide⟩)
      (.line "\tvar radius".toList .done) .done

/-- The script of the outline, in a module of its own. -/
def shapesFile : FileRecord where
  key := "game/shapes.gd"
  path := "/work/game/shapes.gd"
  fileName := "shapes.gd"
  moduleName := "Shapes"
  language := .script
  tokens := []
  source := shapesOutline.render
  dependencies := []

theorem innerEntities_shapes :
    shapesOutline.WellFormed ∧ Text.lines shapesFile.source.toList = shapesOutline.lines ∧
      (innerEntities shapesFile).1.map
          (fun entity => (entity.localName, entity.uniqueName, entity.inheritance)) =
        [("Shape", "Shapes.Shape", ["Node2D"]), ("Side", "Shapes.Side", []),
          ("Circle", "Shapes.Circle", ["Shape"])] := by
  have wellFormed : shapesOutline.WellFormed := by decide +kernel
  have rendered : Text.lines shapesFile.source.toList = shapesOutline.lines := by decide +kernel
  refine ⟨wellFormed, rendered, ?_⟩
  rw [innerEntities_outline wellFormed rendered]
  decide +kernel

end GodotGraph.Script
