import GodotGraph.Grammar.Resource
import GodotGraph.Proofs.Grammar.Declaration
import GodotGraph.Proofs.Grammar.Load
import GodotGraph.Proofs.Pattern.AnyOrder
import GodotGraph.Proofs.Pattern.Spacing
import GodotGraph.Proofs.Token.Cut

/-!
Contract: declarations of external resources, as they are written and as they are read.

Owns:
- words of the languages of plain values and of paths;
- the fields of a declaration, the declaration as a line, and the tokens of that line;
- the reading of every field, and of the fields in whatever order they are written.

A field is read from its key to its closing quote. No two keys start alike, so at each place of
a text one field is read at most, and the order in which the fields are written is the one in
which the group reads them.

Does not own: which references the declarations make.
-/

set_option autoImplicit false

namespace GodotGraph

namespace Grammar

open Pattern (CharClass Reader Reading)
open Token (IsWord isSolid ofGodot spaced)

/-! ## Words and literals at a place -/

theorem literal_reads (expected : String) {text rest : List Char}
    (start : Text.trimStart text = expected.toList ++ rest) :
    (Pattern.literal expected).reader text = .ok ⟨rest, []⟩ := by
  simp [Pattern.reader, Reader.literal, start]

theorem start_of_literal {expected : String} {text : List Char} {found : Reading}
    (read : (Pattern.literal expected).reader text = .ok found) :
    Text.trimStart text = expected.toList ++ found.rest := by
  simp only [Pattern.reader, Reader.literal] at read
  split at read
  · next starts =>
      cases read
      obtain ⟨rest, shape⟩ := List.isPrefixOf_iff_prefix.1 starts
      rw [← shape, List.drop_left]
  · cases read

theorem named_reads (name : String) {inner : Pattern} {text read rest : List Char}
    {captures : Pattern.Trail} (reads : inner.reader text = .ok ⟨rest, captures⟩)
    (start : Text.trimStart text = read ++ rest) (trimmed : Text.trim read = read) :
    (Pattern.named name inner).reader text =
      .ok ⟨rest, captures ++ [⟨name, String.ofList read⟩]⟩ := by
  simp [Pattern.reader, Reader.named, reads, start, between_append, trimmed]

/-! ## Values -/

/-- The text is all of what the word pattern with these classes may read. -/
def isLexeme (opens continues : CharClass) : List Char → Bool
  | [] => false
  | c :: rest => opens.contains c && rest.all continues.contains

/-- A text that the word pattern with these classes reads as a whole. -/
structure Lexeme (opens continues : CharClass) where
  letters : List Char
  shaped : isLexeme opens continues letters = true
  deriving DecidableEq, Repr

/-- A word of the language of plain values. -/
abbrev ValueWord :=
  Lexeme (CharClass.alphanumeric.including "_") (CharClass.alphanumeric.including "_-.")

/-- A word of the language of paths. -/
abbrev PathWord :=
  Lexeme (CharClass.alphanumeric.including "-_/.") (CharClass.alphanumeric.including "-_/.")

/-- The characters of a class belong to words if those do that the class lists. -/
theorem isSolid_of_contains {family : CharClass}
    (listed : family.listed.all isSolid = true) {c : Char} (inside : family.contains c = true) :
    isSolid c = true := by
  have plain : Token.isBreak c = true → (!c.isAlpha && !c.isUpper && !c.isDigit) = true := by
    intro breaks
    rw [Token.isBreak, Bool.or_eq_true, List.contains_iff_mem] at breaks
    rcases breaks with blank | mark
    · exact Pattern.of_isBlank (fun d => !d.isAlpha && !d.isUpper && !d.isDigit)
        (by decide +kernel) blank
    · have all : (Token.Padding.godotMarks.all fun d =>
          !d.isAlpha && !d.isUpper && !d.isDigit) = true := by decide +kernel
      exact List.all_eq_true.1 all c mark
  by_contra notSolid
  have breaks : Token.isBreak c = true := by simpa [isSolid] using notSolid
  have letterless := plain breaks
  simp only [Bool.and_eq_true, Bool.not_eq_true'] at letterless
  have isListed : c ∈ family.listed := by simpa [CharClass.contains, letterless] using inside
  exact notSolid (List.all_eq_true.1 listed c isListed)

namespace Lexeme

variable {opens continues : CharClass}

/-- The word as a value. -/
def text (lexeme : Lexeme opens continues) : String := String.ofList lexeme.letters

theorem letters_ne_nil (lexeme : Lexeme opens continues) : lexeme.letters ≠ [] := by
  have shaped := lexeme.shaped
  intro empty
  rw [empty] at shaped
  exact absurd shaped (by simp [isLexeme])

theorem isSolid_of_mem (lexeme : Lexeme opens continues)
    (listed : (opens.listed ++ continues.listed).all isSolid = true) :
    ∀ c ∈ lexeme.letters, isSolid c = true := by
  rw [List.all_append, Bool.and_eq_true] at listed
  have shaped := lexeme.shaped
  intro c inside
  cases shape : lexeme.letters with
  | nil => exact absurd shape lexeme.letters_ne_nil
  | cons first rest =>
      rw [shape, isLexeme, Bool.and_eq_true] at shaped
      rw [shape] at inside
      rcases List.mem_cons.1 inside with rfl | later
      · exact isSolid_of_contains listed.1 shaped.1
      · exact isSolid_of_contains listed.2 (List.all_eq_true.1 shaped.2 c later)

/-- A word is read up to a character that it could not go on with. -/
theorem reads (lexeme : Lexeme opens continues) {text tail : List Char}
    (start : Text.trimStart text = lexeme.letters ++ tail)
    (stops : ∀ c ∈ tail.head?, continues.contains c = false) :
    (Pattern.word opens continues).reader text = .ok ⟨tail, []⟩ := by
  have shaped := lexeme.shaped
  cases shape : lexeme.letters with
  | nil => exact absurd shape lexeme.letters_ne_nil
  | cons first rest =>
      rw [shape, isLexeme, Bool.and_eq_true] at shaped
      have stop : tail.takeWhile continues.contains = [] := by
        cases tail with
        | nil => rfl
        | cons c others => simp [stops c rfl]
      have left := (takeWhile_append_of_stop rest stop).2
      have none : rest.dropWhile continues.contains = [] :=
        List.dropWhile_eq_nil_iff.2 (List.all_eq_true.1 shaped.2)
      rw [none, List.nil_append] at left
      simp [Pattern.reader, Reader.word, start, shape, shaped.1, left]

end Lexeme

theorem isSolid_of_mem_value (value : ValueWord) : ∀ c ∈ value.letters, isSolid c = true :=
  value.isSolid_of_mem (by decide)

theorem isSolid_of_mem_path (target : PathWord) : ∀ c ∈ target.letters, isSolid c = true :=
  target.isSolid_of_mem (by decide)

/-! ## Fields -/

/-- What a path may be written under. -/
inductive Scheme where
  | project
  | number
  | user
  deriving DecidableEq, Repr

/-- The scheme as it is written. -/
def Scheme.name : Scheme → String
  | project => projectScheme
  | number => uidScheme
  | user => userScheme

/-- A field of a declaration. A unique number is always written under its scheme. -/
inductive Field where
  | type (value : ValueWord)
  | uid (number : ValueWord)
  | path (scheme : Option Scheme) (target : PathWord)
  | id (value : ValueWord)
  deriving DecidableEq, Repr

/-- The words before the equals signs. -/
def fieldKeys : List String := ["type", "uid", "path", "id"]

namespace Field

/-- The word before the equals sign. -/
def key : Field → String
  | type _ => "type"
  | uid _ => "uid"
  | path _ _ => "path"
  | id _ => "id"

/-- The scheme that the value is written under. -/
def scheme? : Field → Option Scheme
  | uid _ => some .number
  | path scheme _ => scheme
  | type _ | id _ => none

/-- The value without its scheme. -/
def letters : Field → List Char
  | type value | uid value | id value => value.letters
  | path _ target => target.letters

/-- The value between its quotes. -/
def value (field : Field) : List Char :=
  match field.scheme? with
  | none => field.letters
  | some scheme => scheme.name.toList ++ ':' :: '/' :: '/' :: field.letters

/-- The field as it is written. -/
def text (field : Field) : List Char :=
  (field.key ++ "=").toList ++ '"' :: (field.value ++ ['"'])

/-- The tokens of the value. -/
def valueTokens (field : Field) : List String :=
  match field.scheme? with
  | none => [String.ofList field.letters]
  | some scheme => [scheme.name, ":", String.ofList ('/' :: '/' :: field.letters)]

/-- The tokens of the field. -/
def tokens (field : Field) : List String :=
  (field.key ++ "=") :: "\"" :: (field.valueTokens ++ ["\""])

/-- What reading the field captures. -/
def captures : Field → Pattern.Trail
  | type value => [⟨typeCapture, value.text⟩]
  | uid number => [⟨uidCapture, "uid : //" ++ number.text⟩]
  | path none target => [⟨pathCapture, target.text⟩]
  | path (some scheme) target => [⟨rootCapture, scheme.name⟩, ⟨pathCapture, target.text⟩]
  | id value => [⟨idCapture, value.text⟩]

/-- The pattern of the value. -/
def valuePattern : Field → Pattern
  | type _ => .named typeCapture valueWord
  | uid _ => uidValue
  | path _ _ => resourcePath
  | id _ => .named idCapture valueWord

/-- The member of the group that reads the field. -/
def member (written : Field) : Pattern :=
  match written with
  | uid _ => .optional (field written.key written.valuePattern)
  | _ => field written.key written.valuePattern

theorem standIn_member (written : Field) :
    written.member.standIn = field written.key written.valuePattern := by
  cases written <;> rfl

theorem letters_ne_nil (field : Field) : field.letters ≠ [] := by
  cases field <;> exact Lexeme.letters_ne_nil _

theorem isSolid_of_mem_letters (field : Field) : ∀ c ∈ field.letters, isSolid c = true := by
  cases field with
  | path scheme target => exact isSolid_of_mem_path target
  | type value => exact isSolid_of_mem_value value
  | uid number => exact isSolid_of_mem_value number
  | id value => exact isSolid_of_mem_value value

theorem key_mem (field : Field) : field.key ∈ fieldKeys := by
  cases field <;> simp [key, fieldKeys]

/-- A key with its equals sign is a word. -/
theorem key_solid (field : Field) :
    (field.key ++ "=").toList ≠ [] ∧ ∀ c ∈ (field.key ++ "=").toList, isSolid c = true := by
  have all : (fieldKeys.all fun key => (key ++ "=").toList.all isSolid) = true := by
    decide +kernel
  have solid := List.all_eq_true.1 all field.key field.key_mem
  exact ⟨by simp, List.all_eq_true.1 solid⟩

end Field

theorem Scheme.name_solid (scheme : Scheme) :
    scheme.name.toList ≠ [] ∧ ∀ c ∈ scheme.name.toList, isSolid c = true := by
  have solid : scheme.name.toList.all isSolid = true := by cases scheme <;> decide +kernel
  exact ⟨by cases scheme <;> decide, List.all_eq_true.1 solid⟩

/-! ## Tokens of fields -/

namespace Field

theorem isSolid_of_mem_slashed (field : Field) :
    ∀ c ∈ '/' :: '/' :: field.letters, isSolid c = true := by
  have slash : isSolid '/' = true := by decide
  intro c inside
  rcases List.mem_cons.1 inside with rfl | inside
  · exact slash
  · rcases List.mem_cons.1 inside with rfl | inside
    · exact slash
    · exact field.isSolid_of_mem_letters c inside

theorem ofGodot_value (field : Field) : ofGodot field.value = field.valueTokens := by
  rw [value, valueTokens]
  cases field.scheme? with
  | none => exact Token.ofGodot_solid field.letters_ne_nil field.isSolid_of_mem_letters
  | some scheme =>
      obtain ⟨filled, solid⟩ := scheme.name_solid
      dsimp only
      rw [Token.ofGodot_append_mark _ _ (by decide),
        Token.ofGodot_solid filled solid,
        Token.ofGodot_solid (by simp) field.isSolid_of_mem_slashed, String.ofList_toList]
      rfl

/-- A field ends with a mark, so its tokens are its own. -/
theorem ofGodot_text_append (field : Field) (rest : List Char) :
    ofGodot (field.text ++ rest) = field.tokens ++ ofGodot rest := by
  have quote : '"' ∈ Token.Padding.godotMarks := by decide
  obtain ⟨filled, solid⟩ := field.key_solid
  have shape : field.text ++ rest =
      (field.key ++ "=").toList ++ '"' :: (field.value ++ '"' :: rest) := by
    simp [text]
  rw [shape, Token.ofGodot_append_mark _ _ quote, Token.ofGodot_append_mark _ _ quote,
    Token.ofGodot_solid filled solid, field.ofGodot_value,
    String.ofList_toList, tokens]
  simp

/-- No bracket is a token of a field. -/
theorem ne_of_mem_tokens (field : Field) {c : Char} (breaks : isSolid c = false)
    (other : c ≠ '"' ∧ c ≠ ':') : String.ofList [c] ∉ field.tokens := by
  have notIn : ∀ letters : List Char, (∀ d ∈ letters, isSolid d = true) →
      String.ofList [c] ≠ String.ofList letters := by
    intro letters solid same
    have isLetters : [c] = letters := String.ofList_injective same
    have isSolid := solid c (by simp [← isLetters])
    rw [breaks] at isSolid
    cases isSolid
  have notQuote : String.ofList [c] ≠ "\"" := by
    intro same
    exact other.1 (by simpa using congrArg String.toList same)
  have notColon : String.ofList [c] ≠ ":" := by
    intro same
    exact other.2 (by simpa using congrArg String.toList same)
  have notKey := notIn _ field.key_solid.2
  rw [String.ofList_toList] at notKey
  have notValue : String.ofList [c] ∉ field.valueTokens := by
    rw [valueTokens]
    cases field.scheme? with
    | none => simpa using notIn _ field.isSolid_of_mem_letters
    | some scheme =>
        have notScheme := notIn _ scheme.name_solid.2
        rw [String.ofList_toList] at notScheme
        have notLetters := notIn _ field.isSolid_of_mem_slashed
        simp only [List.mem_cons, List.not_mem_nil, or_false, not_or]
        exact ⟨notScheme, notColon, notLetters⟩
  simp only [tokens, List.mem_cons, List.mem_append, List.not_mem_nil, or_false, not_or]
  exact ⟨notKey, notQuote, notValue, notQuote⟩

end Field

end Grammar

end GodotGraph
