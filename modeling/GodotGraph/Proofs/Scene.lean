import GodotGraph.Proofs.Extraction
import GodotGraph.Proofs.Grammar.ResourceReading
import GodotGraph.Scene
import Mathlib.Data.List.Nodup

/-!
Contract: the references of a scene, from the lines that declare them.

Owns:
- declarations as lines of a text, with any blanks around their fields;
- the stream of such lines, and the attempts that are made on it;
- the reference that a declaration stands for.

Does not own: what the grammar reads of one declaration.
-/

set_option autoImplicit false

namespace GodotGraph

namespace Grammar.Match

/-- Where no name is captured twice, looking a name up finds its capture. -/
theorem first?_eq_some_iff {found : Match}
    (distinct : (found.captures.map fun capture => capture.name).Nodup) {name value : String} :
    found.first? name = some value ↔ (⟨name, value⟩ : Pattern.Capture) ∈ found.captures := by
  rw [first?, Option.map_eq_some_iff]
  constructor
  · rintro ⟨capture, search, rfl⟩
    have named : capture.name = name := by simpa using List.find?_some search
    exact named ▸ List.mem_of_find?_eq_some search
  · intro inside
    cases search : found.captures.find? fun capture => capture.name = name with
    | none =>
        have differs := List.find?_eq_none.1 search _ inside
        simp at differs
    | some capture =>
        have named : capture.name = name := by simpa using List.find?_some search
        have same : capture = ⟨name, value⟩ :=
          List.inj_on_of_nodup_map distinct (List.mem_of_find?_eq_some search) inside named
        exact ⟨capture, rfl, by rw [same]⟩

theorem first?_perm {captures others : Pattern.Trail} (same : captures.Perm others)
    (distinct : (captures.map fun capture => capture.name).Nodup) (stop : Nat) (name : String) :
    (⟨captures, stop⟩ : Match).first? name = (⟨others, stop⟩ : Match).first? name := by
  have distinctOther := (same.map fun capture => capture.name).nodup_iff.1 distinct
  apply Option.ext
  intro value
  rw [first?_eq_some_iff distinct, first?_eq_some_iff distinctOther]
  exact same.mem_iff

end Grammar.Match

namespace Scene

open Grammar (Field Resource declarationTokens)
open Token (newline ofGodot)

/-! ## Attempts -/

/-- A declaration is tried at every bracket that the keyword follows. -/
theorem resourceAttempts_cons (token : String) (rest : List String) :
    resourceAttempts (token :: rest) =
      (if token = declarationStart && rest[0]? = some Grammar.resourceKeyword then
        [Grammar.externalResource.parseWindow ⟨0, token, rest⟩] else []) ++
          resourceAttempts rest :=
  Grammar.attempts_window_cons Grammar.externalResource
    (fun anchor following =>
      anchor = declarationStart && following[0]? = some Grammar.resourceKeyword) token rest

theorem resourceAttempts_append_of_not_mem {front : List String}
    (absent : declarationStart ∉ front) (rest : List String) :
    resourceAttempts (front ++ rest) = resourceAttempts rest := by
  induction front with
  | nil => rfl
  | cons token others inductionHypothesis =>
      obtain ⟨other, later⟩ : declarationStart ≠ token ∧ declarationStart ∉ others := by
        simpa using absent
      rw [List.cons_append, resourceAttempts_cons, inductionHypothesis later]
      simp [Ne.symm other]

theorem length_resourceAttempts (tokens : List String) :
    (resourceAttempts tokens).length =
      (tokens.zip tokens.tail).count (declarationStart, Grammar.resourceKeyword) := by
  induction tokens with
  | nil => rfl
  | cons token rest inductionHypothesis =>
      rw [resourceAttempts_cons, List.length_append, inductionHypothesis]
      cases rest with
      | nil => simp
      | cons next others =>
          by_cases opens : token = declarationStart ∧ next = Grammar.resourceKeyword
          · simp [opens, Nat.add_comm]
          · simp [opens]

theorem resourceAttempts_declaration {resource : Resource} {order : List Field}
    (complete : order.Perm resource.fields) (rest : List String) :
    ∃ stop, resourceAttempts (declarationTokens order ++ rest) =
      .ok ⟨order.flatMap Field.captures, stop⟩ :: resourceAttempts rest := by
  have absent : declarationStart ∉ Grammar.resourceKeyword :: order.flatMap Field.tokens := by
    intro inside
    rcases List.mem_cons.1 inside with isKeyword | inFields
    · exact absurd isKeyword (by decide)
    · obtain ⟨written, _, inField⟩ := List.mem_flatMap.1 inFields
      exact written.ne_of_mem_tokens (by decide) (by decide) inField
  have others : resourceAttempts
      ((Grammar.resourceKeyword :: order.flatMap Field.tokens) ++ "]" :: rest) =
        resourceAttempts rest := by
    rw [resourceAttempts_append_of_not_mem absent]
    exact resourceAttempts_append_of_not_mem (show declarationStart ∉ ["]"] by decide) rest
  obtain ⟨stop, parsed⟩ := Grammar.externalResource_parseWindow complete 0 rest
  have tokens : declarationTokens order ++ rest =
      "[" :: ((Grammar.resourceKeyword :: order.flatMap Field.tokens) ++ "]" :: rest) := by
    simp [declarationTokens]
  refine ⟨stop, ?_⟩
  rw [tokens, resourceAttempts_cons, others, parsed]
  rfl

/-! ## Lines -/

/-- Blanks that end no line. -/
def InLine (blanks : List Char) : Prop :=
  ∀ c ∈ blanks, Text.isBlank c = true ∧ c ≠ '\n'

/-- A declaration written on one line. Its fields come in any order, each after some blanks. -/
structure ResourceLine where
  resource : Resource
  indent : List Char
  written : List (List Char × Field)
  trailing : List Char
  complete : (written.map Prod.snd).Perm resource.fields
  indented : InLine indent
  parted : ∀ entry ∈ written, entry.1 ≠ [] ∧ InLine entry.1
  trails : InLine trailing

namespace ResourceLine

/-- The fields as they are written, up to the closing bracket. -/
def fieldsText (written : List (List Char × Field)) : List Char :=
  written.flatMap (fun entry => entry.1 ++ entry.2.text) ++ [']']

/-- The line without its line end. -/
def text (line : ResourceLine) : List Char :=
  line.indent ++ ('[' :: (Grammar.resourceKeyword.toList ++ fieldsText line.written) ++
    line.trailing)

theorem ofGodot_fieldsText {written : List (List Char × Field)}
    (parted : ∀ entry ∈ written, entry.1 ≠ [] ∧ InLine entry.1) :
    ofGodot (fieldsText written) = (written.map Prod.snd).flatMap Field.tokens ++ ["]"] := by
  induction written with
  | nil => exact Token.ofGodot_append_mark [] [] (by decide)
  | cons entry others inductionHypothesis =>
      have later := inductionHypothesis fun other inside =>
        parted other (List.mem_cons_of_mem _ inside)
      have shape : fieldsText (entry :: others) =
          entry.1 ++ (entry.2.text ++ fieldsText others) := by
        simp [fieldsText]
      rw [shape, Token.ofGodot_blanks_append _ (parted entry List.mem_cons_self).2,
        Field.ofGodot_text_append, later]
      simp

theorem head?_fieldsText {written : List (List Char × Field)}
    (parted : ∀ entry ∈ written, entry.1 ≠ [] ∧ InLine entry.1) :
    ∀ c ∈ (fieldsText written).head?, Token.isBreak c = true := by
  intro c isHead
  cases written with
  | nil =>
      cases isHead
      decide
  | cons entry others =>
      obtain ⟨filled, inLine⟩ := parted entry List.mem_cons_self
      obtain ⟨blank, blanks, shape⟩ := List.exists_cons_of_ne_nil filled
      have same : blank = c := by simpa [fieldsText, shape] using isHead
      subst same
      have isBlank := (inLine blank (by simp [shape])).1
      simp [Token.isBreak, isBlank]

theorem ofGodot_text (line : ResourceLine) :
    ofGodot line.text = declarationTokens (line.written.map Prod.snd) := by
  have keyword : ofGodot Grammar.resourceKeyword.toList = [Grammar.resourceKeyword] := by
    decide +kernel
  have trailing : ofGodot line.trailing = [] := by
    simpa using Token.ofGodot_blanks_append [] line.trails
  have breaks : ∀ c ∈ line.trailing.head?, Token.isBreak c = true := by
    intro c isHead
    have isBlank := (line.trails c (List.mem_of_head? isHead)).1
    simp [Token.isBreak, isBlank]
  rw [text, Token.ofGodot_blanks_append _ line.indented, Token.ofGodot_append_of_head? breaks,
    trailing, List.append_nil]
  refine (Token.ofGodot_append_mark [] _ (by decide)).trans ?_
  rw [Token.ofGodot_append_of_head? (head?_fieldsText line.parted), keyword,
    ofGodot_fieldsText line.parted]
  rfl

end ResourceLine

/-- The lines as a text. The last one may be closed by a line end or by the end of the text. -/
def source (lines : List ResourceLine) (closed : Bool) : String :=
  String.ofList
    (['\n'].intercalate (lines.map ResourceLine.text) ++ if closed then ['\n'] else [])

/-- What the fields of a line capture. -/
def ResourceLine.captures (line : ResourceLine) : Pattern.Trail :=
  (line.written.map Prod.snd).flatMap Field.captures

/-- Every line gives one match, with the captures of its fields. -/
def Finds : List Attempt → List ResourceLine → Prop :=
  List.Forall₂ fun attempt line => ∃ stop, attempt = .ok ⟨line.captures, stop⟩

theorem resourceAttempts_newline_cons (rest : List String) :
    resourceAttempts (newline :: rest) = resourceAttempts rest :=
  resourceAttempts_append_of_not_mem (show declarationStart ∉ [newline] by decide) rest

theorem finds_ofLines (lines : List ResourceLine) {rest : List String}
    (quiet : resourceAttempts rest = []) :
    Finds (resourceAttempts (Token.ofLines (lines.map ResourceLine.text) ++ rest)) lines := by
  induction lines with
  | nil =>
      show Finds (resourceAttempts rest) []
      rw [quiet]
      exact .nil
  | cons line others inductionHypothesis =>
      have tokens : Token.ofLines ((line :: others).map ResourceLine.text) ++ rest =
          newline :: (declarationTokens (line.written.map Prod.snd) ++
            (Token.ofLines (others.map ResourceLine.text) ++ rest)) := by
        simp [Token.ofLines, line.ofGodot_text]
      obtain ⟨stop, found⟩ := resourceAttempts_declaration line.complete
        (Token.ofLines (others.map ResourceLine.text) ++ rest)
      rw [tokens, resourceAttempts_newline_cons, found]
      exact .cons ⟨stop, rfl⟩ inductionHypothesis

theorem finds_source (lines : List ResourceLine) (closed : Bool) :
    Finds (resourceAttempts (Token.ofSource (source lines closed))) lines := by
  have tokens : Token.ofSource (source lines closed) =
      ofGodot (['\n'].intercalate (lines.map ResourceLine.text)) ++
        if closed then [newline] else [] := by
    rw [Token.ofSource, Token.ofText_godot, source, String.toList_ofList]
    cases closed with
    | true => exact Token.ofGodot_append_newline _ []
    | false => simp
  have quiet : resourceAttempts (if closed then [newline] else []) = [] := by
    cases closed <;> rfl
  rw [tokens]
  cases lines with
  | nil =>
      show Finds (resourceAttempts (if closed then [newline] else [])) []
      rw [quiet]
      exact .nil
  | cons line others =>
      -- A line end before the first line would change nothing.
      have whole := finds_ofLines (line :: others) quiet
      have front : Token.ofLines ((line :: others).map ResourceLine.text) =
          newline :: ofGodot (['\n'].intercalate ((line :: others).map ResourceLine.text)) := by
        rw [List.map_cons, Token.ofGodot_intercalate]
        rfl
      rw [front, List.cons_append, resourceAttempts_newline_cons] at whole
      exact whole

/-! ## References -/

/-- The reference that a declaration stands for: the file of a script or a scene that is not
written under a number or outside the project. -/
def reference? (resource : Resource) : Option Reference :=
  if (resource.type.text = "Script" ∨ resource.type.text = "PackedScene") ∧
      resource.scheme ≠ some .number ∧ resource.scheme ≠ some .user then
    some ⟨.resource resource.type.text, resource.target.text, resource.scheme = some .project⟩
  else none

theorem distinct_captures (resource : Resource) :
    ((resource.fields.flatMap Field.captures).map fun capture => capture.name).Nodup := by
  cases number : resource.uid <;> cases scheme : resource.scheme <;>
    · simp only [Resource.fields, Field.captures, number, scheme, Option.toList, List.map_cons,
        List.map_nil, List.flatMap_cons, List.flatMap_nil, List.cons_append, List.nil_append]
      decide

theorem first?_captures (resource : Resource) (stop : Nat) :
    let found : Grammar.Match := ⟨resource.fields.flatMap Field.captures, stop⟩
    found.first? Grammar.typeCapture = some resource.type.text ∧
      found.first? Grammar.pathCapture = some resource.target.text ∧
        found.first? Grammar.rootCapture = resource.scheme.map Grammar.Scheme.name := by
  cases number : resource.uid <;> cases scheme : resource.scheme <;>
    simp [Grammar.Match.first?, Resource.fields, Field.captures, number, scheme,
      Grammar.typeCapture, Grammar.pathCapture, Grammar.rootCapture, Grammar.uidCapture,
      Grammar.idCapture]

/-- The order in which the fields are written makes no difference to the reference. -/
theorem resourceReference?_captures {resource : Resource} {order : List Field}
    (complete : order.Perm resource.fields) (stop : Nat) :
    resourceReference? ⟨order.flatMap Field.captures, stop⟩ = reference? resource := by
  have lookup := Grammar.Match.first?_perm (complete.symm.flatMap_right Field.captures)
    (distinct_captures resource) stop
  obtain ⟨type, path, root⟩ := first?_captures resource stop
  rw [resourceReference?, ← lookup, ← lookup, ← lookup, type, path, root, reference?]
  cases scheme : resource.scheme with
  | none => simp [dependencyTypes]
  | some name =>
      cases name <;>
        simp [dependencyTypes, Grammar.Scheme.name, Grammar.foreignSchemes, Grammar.projectScheme,
          Grammar.uidScheme, Grammar.userScheme]

/-- What a scene with these attempts counts and refers to. -/
theorem outcome_of_finds {attempts : List Attempt} {lines : List ResourceLine}
    (finds : Finds attempts lines) :
    Tally.ofCounts (countsOf attempts) = ⟨lines.length, 0⟩ ∧
      (matchesOf attempts).filterMap resourceReference? =
        lines.filterMap fun line => reference? line.resource := by
  induction finds with
  | nil => exact ⟨rfl, rfl⟩
  | @cons attempt line attempts lines found _ inductionHypothesis =>
      obtain ⟨stop, rfl⟩ := found
      obtain ⟨counts, references⟩ := inductionHypothesis
      constructor
      · simp only [Tally.ofCounts, countsOf, Tally.mk.injEq, List.map_cons] at counts ⊢
        simp [Count.ofAttempt, counts]
      · rw [matchesOf_ok_cons, List.filterMap_cons, List.filterMap_cons, references,
          ResourceLine.captures, resourceReference?_captures line.complete]

/-- Declarations of external resources, one on each line, are all matched, and the references of
the text are those that the declarations stand for, in the order of the lines. Of any stream, as
many windows are counted as there are brackets with the keyword of a declaration behind them. -/
theorem resources_of_lines :
    (∀ (lines : List ResourceLine) (closed : Bool),
      Tally.ofCounts (countsOf (resourceAttempts (Token.ofSource (source lines closed)))) =
          ⟨lines.length, 0⟩ ∧
        resources (Token.ofSource (source lines closed)) =
          lines.filterMap fun line => reference? line.resource) ∧
      ∀ tokens : List String,
        (Tally.ofCounts (countsOf (resourceAttempts tokens))).hits +
            (Tally.ofCounts (countsOf (resourceAttempts tokens))).misses =
          (tokens.zip tokens.tail).count (declarationStart, Grammar.resourceKeyword) := by
  constructor
  · intro lines closed
    exact outcome_of_finds (finds_source lines closed)
  · intro tokens
    rw [Tally.hits_add_misses, countsOf, List.length_map, length_resourceAttempts]

/-- A line with one space before each field. -/
def ResourceLine.ofOrder (resource : Resource) (order : List Field)
    (complete : order.Perm resource.fields) : ResourceLine where
  resource := resource
  indent := []
  written := order.map fun written => ([' '], written)
  trailing := []
  complete := by simpa using complete
  indented := by simp [InLine]
  parted := by
    have space : InLine [' '] := by
      intro c isSpace
      rw [List.mem_singleton.1 isSpace]
      decide
    intro entry inside
    obtain ⟨written, _, rfl⟩ := List.mem_map.1 inside
    exact ⟨by simp, space⟩
  trails := by simp [InLine]

/-- A script under the root, with a number. -/
def playerScript : Resource where
  type := ⟨"Script".toList, by decide⟩
  uid := some ⟨"b6x3kq".toList, by decide⟩
  scheme := some .project
  target := ⟨"player.gd".toList, by decide⟩
  id := ⟨"1_ab3".toList, by decide⟩

/-- A scene whose path starts with the letters of a scheme. -/
def relativeScene : Resource where
  type := ⟨"PackedScene".toList, by decide⟩
  uid := none
  scheme := none
  target := ⟨"resources/x.tscn".toList, by decide⟩
  id := ⟨"2".toList, by decide⟩

/-- A scene outside the project. -/
def userScene : Resource where
  type := ⟨"PackedScene".toList, by decide⟩
  uid := none
  scheme := some .user
  target := ⟨"save.tscn".toList, by decide⟩
  id := ⟨"3".toList, by decide⟩

/-- Three declarations with their fields in three orders. -/
def threeLines : List ResourceLine := [
  .ofOrder playerScript playerScript.fields (.refl _),
  .ofOrder relativeScene relativeScene.fields.reverse (List.reverse_perm _),
  .ofOrder userScene (userScene.fields.rotate 1) (by decide)]

theorem resources_of_lines_three :
    source threeLines true =
        "[ext_resource type=\"Script\" uid=\"uid://b6x3kq\" path=\"res://player.gd\" " ++
          "id=\"1_ab3\"]\n" ++
          "[ext_resource id=\"2\" path=\"resources/x.tscn\" type=\"PackedScene\"]\n" ++
          "[ext_resource path=\"user://save.tscn\" id=\"3\" type=\"PackedScene\"]\n" ∧
      Tally.ofCounts (countsOf (resourceAttempts (Token.ofSource (source threeLines true)))) =
        ⟨3, 0⟩ ∧
      resources (Token.ofSource (source threeLines true)) =
        [⟨.resource "Script", "player.gd", true⟩,
          ⟨.resource "PackedScene", "resources/x.tscn", false⟩] := by
  obtain ⟨counts, references⟩ := resources_of_lines.1 threeLines true
  refine ⟨by decide +kernel, counts, references.trans ?_⟩
  decide +kernel

end Scene

end GodotGraph
