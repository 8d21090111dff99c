import GodotGraph.Grammar.Resource
import GodotGraph.Proofs.Pattern.Purity
import GodotGraph.Proofs.Pattern.Spacing
import GodotGraph.Proofs.Token.Join

/-!
Contract: matching does not depend on how the tokens of a window are joined.

Owns: the outcomes of a grammar on two texts that join the same tokens, with the ends of the
matches as places among the tokens.

Both texts are compared with the one that has single spaces.
-/

set_option autoImplicit false

namespace GodotGraph.Grammar

open Pattern (Capture Mismatch Reading byteLength)
open Token (IsWord Joins SamePlace)

/-- Two outcomes on two texts that join the same tokens: both are mismatches, or both matches end
at the same place among the tokens and have the same captures but for blanks. -/
inductive SameOutcome (tokens : List String) (first second : List Char) :
    Except Mismatch Match → Except Mismatch Match → Prop where
  | mismatch (left right : Mismatch) :
      SameOutcome tokens first second (.error left) (.error right)
  | found {left right : Match} (place : SamePlace tokens first second left.stop right.stop)
      (captures : left.captures.map Capture.bare = right.captures.map Capture.bare) :
      SameOutcome tokens first second (.ok left) (.ok right)

/-- A match ends after the text that its reader reads. -/
theorem parse_of_reader_append {grammar : Grammar} {text : String} {read : List Char}
    {found : Reading} (reads : grammar.pattern.reader text.toList = .ok found)
    (shape : text.toList = read ++ found.rest) :
    grammar.parse text = .ok ⟨found.captures, byteLength read⟩ := by
  have start : grammar.pattern.reader (Pattern.Cursor.start text.toList).rest = .ok found := reads
  obtain ⟨_, run⟩ := (Pattern.simulates_reader grammar.pattern).ok start []
  have reached : (⟨byteLength [], text.toList⟩ : Pattern.Cursor).goto found.rest =
      ⟨byteLength ([] ++ read), found.rest⟩ := Pattern.goto_of_append shape
  have stop : (Pattern.Cursor.start text.toList).goto found.rest = ⟨byteLength read, found.rest⟩ :=
    reached
  rw [parse, run, stop]
  rfl

/-- However the tokens of a window are joined, a grammar whose words contain no blanks has the
same outcome. -/
theorem parse_joins {grammar : Grammar} (free : grammar.pattern.blankFree = true)
    {tokens : List String} (words : ∀ token ∈ tokens, IsWord token) {first second : String}
    (joinsFirst : Joins tokens first.toList) (joinsSecond : Joins tokens second.toList) :
    SameOutcome tokens first.toList second.toList (grammar.parse first) (grammar.parse second) := by
  have ignores := Pattern.ignoresSpacing_reader grammar.pattern free
  have agreeFirst := ignores first.toList
  have agreeSecond := ignores second.toList
  rw [Token.squeeze_of_joins words joinsFirst] at agreeFirst
  rw [Token.squeeze_of_joins words joinsSecond] at agreeSecond
  -- The tokens with single spaces have one outcome, so the outcomes of the texts are of one kind.
  rcases agreeFirst with
    ⟨left, joined, readFirst, readJoined, alikeFirst⟩ | ⟨stuck, other, readFirst, readJoined⟩ <;>
  rcases agreeSecond with
    ⟨right, last, readSecond, readAgain, alikeSecond⟩ | ⟨_, last, readSecond, readAgain⟩
  · obtain rfl := Except.ok.inj (readJoined.symm.trans readAgain)
    obtain ⟨_, shapeFirst, apartFirst⟩ := alikeFirst.lands
    obtain ⟨_, shapeSecond, apartSecond⟩ := alikeSecond.lands
    rw [parse_of_reader_append readFirst shapeFirst,
      parse_of_reader_append readSecond shapeSecond]
    exact .found
      (Token.samePlace_of_lands words joinsFirst joinsSecond shapeFirst shapeSecond apartFirst
        apartSecond (alikeFirst.rest.symm.trans alikeSecond.rest))
      (alikeFirst.captures.symm.trans alikeSecond.captures)
  · rw [readJoined] at readAgain
    cases readAgain
  · rw [readJoined] at readAgain
    cases readAgain
  · obtain ⟨_, parsedFirst⟩ := parse_of_reader_error readFirst
    obtain ⟨_, parsedSecond⟩ := parse_of_reader_error readSecond
    rw [parsedFirst, parsedSecond]
    exact .mismatch _ _

/-- The tokens of a resource with its fields out of order. -/
def resourceTokens : List String :=
  ["[", "ext_resource", "path", "=", "\"", "res", ":", "//", "a.gd", "\"", "id", "=", "7",
    "uid", "=", "\"", "uid", ":", "//", "b1", "\"", "type", "=", "Script", "]"]

/-- The resource on one line. -/
def resourceLine : String :=
  "[ ext_resource path = \" res : // a.gd \" id = 7 uid = \" uid : // b1 \" type = Script ]"

/-- The resource on several lines. One of the breaks is inside its number. -/
def resourceLines : String :=
  "[ ext_resource\n\tpath = \" res : // a.gd \"\n\tid  =  7\n\tuid = \" uid :\n// b1 \" " ++
    "type =\nScript\n]"

theorem parse_joins_externalResource :
    (externalResource.pattern.blankFree = true ∧ (∀ token ∈ resourceTokens, IsWord token) ∧
      Joins resourceTokens resourceLine.toList ∧ Joins resourceTokens resourceLines.toList) ∧
      SamePlace resourceTokens resourceLine.toList resourceLines.toList 84 89 ∧
      externalResource.parse resourceLine = .ok ⟨[⟨"root", "res"⟩, ⟨"path", "a.gd"⟩, ⟨"id", "7"⟩,
        ⟨"uid", "uid : // b1"⟩, ⟨"type", "Script"⟩], 84⟩ ∧
      externalResource.parse resourceLines = .ok ⟨[⟨"root", "res"⟩, ⟨"path", "a.gd"⟩, ⟨"id", "7"⟩,
        ⟨"uid", "uid :\n// b1"⟩, ⟨"type", "Script"⟩], 89⟩ := by
  have free : externalResource.pattern.blankFree = true := by decide +kernel
  have words : ∀ token ∈ resourceTokens, IsWord token := by decide +kernel
  have solid : ∀ token ∈ resourceTokens, ∀ c ∈ token.toList, Text.isBlank c = false :=
    fun token member => (words token member).2
  have joinsLine : Joins resourceTokens resourceLine.toList :=
    Token.joins_of_squeeze (by decide) solid (by decide +kernel)
  have joinsLines : Joins resourceTokens resourceLines.toList :=
    Token.joins_of_squeeze (by decide) solid (by decide +kernel)
  have parsedLine : externalResource.parse resourceLine = .ok ⟨[⟨"root", "res"⟩,
      ⟨"path", "a.gd"⟩, ⟨"id", "7"⟩, ⟨"uid", "uid : // b1"⟩, ⟨"type", "Script"⟩], 84⟩ := by
    decide +kernel
  have parsedLines : externalResource.parse resourceLines = .ok ⟨[⟨"root", "res"⟩,
      ⟨"path", "a.gd"⟩, ⟨"id", "7"⟩, ⟨"uid", "uid :\n// b1"⟩, ⟨"type", "Script"⟩], 89⟩ := by
    decide +kernel
  have same := parse_joins free words joinsLine joinsLines
  rw [parsedLine, parsedLines] at same
  cases same with
  | found place _ => exact ⟨⟨free, words, joinsLine, joinsLines⟩, place, parsedLine, parsedLines⟩

end GodotGraph.Grammar
