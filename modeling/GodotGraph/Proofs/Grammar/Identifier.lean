import GodotGraph.Grammar.Words
import GodotGraph.Proofs.Pattern.Agreement
import Mathlib.Data.List.TakeWhile

/-!
Contract: what keywords and identifiers read of a text.

Owns:
- the outcome of a grammar as that of its reader, with the places counted in bytes;
- the identifier that a text starts with, unless it starts with a reserved word;
- whole identifiers, which carry the proof that they are read as such.

Does not own: the declarations that identifiers stand in.
-/

set_option autoImplicit false

namespace GodotGraph.Grammar

open Pattern (CharClass Reader Reading Stuck byteLength endsWord)

/-! ## Grammars and their readers -/

/-- The outcome of a grammar is that of its reader. A place is the number of bytes before it. -/
theorem parse_eq (grammar : Grammar) (text : String) :
    grammar.parse text =
      match grammar.pattern.reader text.toList with
      | .ok found => .ok ⟨found.captures, byteLength text.toList - byteLength found.rest⟩
      | .error stuck =>
          .error ⟨byteLength text.toList - byteLength stuck.rest, stuck.expected⟩ := by
  have simulates := Pattern.simulates_reader grammar.pattern
  cases read : grammar.pattern.reader text.toList with
  | ok found =>
      have start : grammar.pattern.reader (Pattern.Cursor.start text.toList).rest = .ok found :=
        read
      obtain ⟨_, run⟩ := simulates.ok start []
      rw [parse, run]
      simp [Pattern.Cursor.goto, Pattern.Cursor.start]
  | error stuck =>
      have start : grammar.pattern.reader (Pattern.Cursor.start text.toList).rest = .error stuck :=
        read
      obtain ⟨_, left, run⟩ := simulates.error start []
      rw [parse, run]
      simp [Pattern.Cursor.mismatch, Pattern.Cursor.goto, Pattern.Cursor.start]

theorem parse_of_reader_ok {grammar : Grammar} {text : String} {found : Reading}
    (read : grammar.pattern.reader text.toList = .ok found) :
    ∃ stop, grammar.parse text = .ok ⟨found.captures, stop⟩ := by
  rw [parse_eq, read]
  exact ⟨_, rfl⟩

theorem parse_of_reader_error {grammar : Grammar} {text : String} {stuck : Stuck}
    (read : grammar.pattern.reader text.toList = .error stuck) :
    ∃ mismatch, grammar.parse text = .error mismatch := by
  rw [parse_eq, read]
  exact ⟨_, rfl⟩

/-- The captures of a match are those that the reader makes. -/
theorem reader_of_parse_ok {grammar : Grammar} {text : String} {found : Match}
    (matched : grammar.parse text = .ok found) :
    ∃ rest, grammar.pattern.reader text.toList = .ok ⟨rest, found.captures⟩ := by
  cases read : grammar.pattern.reader text.toList with
  | ok reading =>
      obtain ⟨stop, run⟩ := parse_of_reader_ok read
      obtain rfl : ⟨reading.captures, stop⟩ = found := by simpa [run] using matched
      exact ⟨reading.rest, rfl⟩
  | error stuck =>
      obtain ⟨mismatch, run⟩ := parse_of_reader_error read
      simp [run] at matched

/-- The outcome has the given captures, or is some mismatch if there are none. -/
def Captures (outcome : Except Pattern.Mismatch Match) : Option Pattern.Trail → Prop
  | some captures => ∃ stop, outcome = .ok ⟨captures, stop⟩
  | none => ∃ mismatch, outcome = .error mismatch

/-! ## Keywords -/

/-- The text after a keyword, if the text starts with it as a whole word. -/
def afterKeyword? (word : List Char) (text : List Char) : Option (List Char) :=
  if word.isPrefixOf text && endsWord (text.drop word.length) then some (text.drop word.length)
  else none

theorem keyword_reads (label : String) (word text : List Char) :
    Reader.keyword label word text =
      match afterKeyword? word (Text.trimStart text) with
      | some rest => .ok ⟨rest, []⟩
      | none => .error ⟨Text.trimStart text, label⟩ := by
  simp only [Reader.keyword, afterKeyword?]
  split <;> rfl

/-! ## Identifiers -/

/-- A character that may open an identifier. -/
def opensName (c : Char) : Bool := (CharClass.letters.including "_").contains c

/-- A character that may continue an identifier. -/
def continuesName (c : Char) : Bool := (CharClass.alphanumeric.including "_").contains c

/-- The words that no identifier may equal. -/
def reservedWords : List String := bodyKeywords ++ [extendsKeyword, classNameKeyword]

/-- The text starts with a reserved word. -/
def startsReserved (text : List Char) : Bool :=
  reservedWords.any fun word => (afterKeyword? word.toList text).isSome

/-- The identifier that a text starts with, and the text after it. -/
def takeName? (text : List Char) : Option (List Char × List Char) :=
  if startsReserved text then none
  else
    match text with
    | [] => none
    | c :: rest =>
        if opensName c then some (c :: rest.takeWhile continuesName, rest.dropWhile continuesName)
        else none

theorem isOk_firstOf (label : String) (text : List Char) (readers : List Reader)
    (failure : Option Stuck) :
    (Reader.firstOf label text readers failure).isOk =
      readers.any fun reader => (reader text).isOk := by
  induction readers generalizing failure with
  | nil => cases failure <;> rfl
  | cons reader others inductionHypothesis =>
      simp only [Reader.firstOf, List.any_cons]
      cases read : reader text with
      | ok found => simp [Except.isOk, Except.toBool]
      | error stuck =>
          dsimp only
          rw [inductionHypothesis]
          simp [Except.isOk, Except.toBool]

theorem readers_map_keyword (words : List String) :
    Pattern.readers (words.map Pattern.keyword) =
      words.map fun word => Reader.keyword (Pattern.keyword word).describe word.toList := by
  induction words with
  | nil => rfl
  | cons word others inductionHypothesis =>
      simp [Pattern.readers, Pattern.reader, inductionHypothesis]

theorem isOk_reservedWord (text : List Char) :
    (reservedWord.reader text).isOk = startsReserved (Text.trimStart text) := by
  have shape : reservedWord = .first (reservedWords.map Pattern.keyword) := rfl
  rw [shape, Pattern.reader, Reader.first, isOk_firstOf, readers_map_keyword, List.any_map,
    startsReserved]
  congr 1
  funext word
  simp only [Function.comp_apply, keyword_reads]
  cases afterKeyword? word.toList (Text.trimStart text) <;> rfl

/-- The outcome is the given reading, or some failure if there is none. -/
def Reads (outcome : Except Stuck Reading) : Option Reading → Prop
  | some found => outcome = .ok found
  | none => ∃ stuck, outcome = .error stuck

theorem Reads.ok {outcome : Except Stuck Reading} {found : Reading}
    (reads : Reads outcome (some found)) : outcome = .ok found :=
  reads

/-- An identifier reads what `takeName?` says of the text after its blanks. -/
theorem identifier_reads (text : List Char) :
    Reads (identifier.reader text)
      ((takeName? (Text.trimStart text)).map fun taken => ⟨taken.2, []⟩) := by
  have reserved := isOk_reservedWord text
  have shape : identifier.reader text =
      Reader.sequence [Reader.notAhead (Pattern.notAhead reservedWord).describe reservedWord.reader,
        plainIdentifier.reader] text := rfl
  rw [shape]
  cases outcome : reservedWord.reader text with
  | ok found =>
      have starts : startsReserved (Text.trimStart text) = true := by
        rw [← reserved, outcome]
        rfl
      simp [takeName?, starts, Reader.sequence, Reader.notAhead, outcome, Reads]
  | error stuck =>
      have free : startsReserved (Text.trimStart text) = false := by
        rw [← reserved, outcome]
        rfl
      have plain : plainIdentifier.reader text =
          Reader.word plainIdentifier.describe opensName continuesName text := rfl
      simp only [takeName?, free, Reader.notAhead, outcome, Reader.sequence, plain, Reader.word]
      cases Text.trimStart text with
      | nil => simp [Reads]
      | cons c rest => cases hit : opensName c <;> simp [hit, Reads]

/-! ## The characters of names -/

theorem opensName_eq (c : Char) : opensName c = (c.isAlpha || c == '_') := by
  simp [opensName, CharClass.contains, CharClass.including, CharClass.letters, Bool.beq_eq_decide_eq]

theorem continuesName_eq (c : Char) : continuesName c = (c.isAlphanum || c == '_') := by
  have family : c.isAlphanum = (c.isAlpha || c.isDigit) := rfl
  simp [continuesName, CharClass.contains, CharClass.including, CharClass.alphanumeric, family,
    Bool.beq_eq_decide_eq]

/-- The code points of the characters of names. -/
theorem continuesName_iff (c : Char) :
    continuesName c = true ↔
      (65 ≤ c.toNat ∧ c.toNat ≤ 90) ∨ (97 ≤ c.toNat ∧ c.toNat ≤ 122) ∨
        (48 ≤ c.toNat ∧ c.toNat ≤ 57) ∨ c.toNat = 95 := by
  have underscore : c = '_' ↔ c.toNat = 95 := by
    rw [← Char.toNat_inj]
    rfl
  have family : c.isAlphanum = ((decide (c.val ≥ 65 ∧ c.val ≤ 90) ||
      (decide (c.val ≥ 97) && decide (c.val ≤ 122))) ||
        (decide (c.val ≥ 48) && decide (c.val ≤ 57))) := rfl
  rw [continuesName_eq, family]
  simp only [Bool.or_eq_true, Bool.and_eq_true, decide_eq_true_eq, beq_iff_eq,
    UInt32.le_iff_toNat_le, ge_iff_le, underscore]
  simp [or_assoc]

theorem continuesName_of_opensName {c : Char} (opens : opensName c = true) :
    continuesName c = true := by
  have family : c.isAlphanum = (c.isAlpha || c.isDigit) := rfl
  rw [opensName_eq, Bool.or_eq_true] at opens
  rw [continuesName_eq, family]
  rcases opens with letter | underscore
  · simp [letter]
  · simp [underscore]

theorem isBlank_of_continuesName {c : Char} (continues : continuesName c = true) :
    Text.isBlank c = false := by
  rw [continuesName_iff] at continues
  simp only [Text.isBlank, Bool.or_eq_false_iff, Bool.and_eq_false_iff, decide_eq_false_iff_not,
    beq_eq_false_iff_ne]
  omega

/-- A name is the part of its text before what is left. -/
theorem takeName?_eq_some {text name rest : List Char} (taken : takeName? text = some (name, rest)) :
    text = name ++ rest ∧ name ≠ [] ∧ ∀ c ∈ name, continuesName c = true := by
  simp only [takeName?] at taken
  split at taken
  · simp at taken
  · cases text with
    | nil => simp at taken
    | cons c others =>
        dsimp only at taken
        split at taken
        · next opens =>
            obtain ⟨rfl, rfl⟩ : c :: others.takeWhile continuesName = name ∧
                others.dropWhile continuesName = rest := by simpa using taken
            refine ⟨by simp, by simp, ?_⟩
            intro letter member
            rcases List.mem_cons.1 member with rfl | inside
            · exact continuesName_of_opensName opens
            · exact List.all_eq_true.1 List.all_takeWhile letter inside
        · simp at taken

theorem continuesIdentifier_of_continuesName {c : Char} (continues : continuesName c = true) :
    Text.continuesIdentifier c = true := by
  have low : c.toNat < 128 := by
    rw [continuesName_iff] at continues
    omega
  rwa [Text.continuesIdentifier, Text.isAlphanumeric_of_isAlphanum low, ← continuesName_eq]

/-! ## Text after an identifier -/

/-- A text after which an identifier could go on starts with no such character. -/
theorem endsWord_append {text tail : List Char} (boundary : endsWord tail = true) :
    endsWord (text ++ tail) = endsWord text := by
  cases text with
  | nil => exact boundary
  | cons c rest => rfl

/-- A keyword that a text starts with is not made longer by the text after it. -/
theorem isSome_afterKeyword?_append {word text tail : List Char}
    (letters : ∀ c ∈ word, Text.continuesIdentifier c = true) (boundary : endsWord tail = true) :
    (afterKeyword? word (text ++ tail)).isSome = (afterKeyword? word text).isSome := by
  have prefixes : word.isPrefixOf (text ++ tail) = word.isPrefixOf text := by
    rw [Bool.eq_iff_iff, List.isPrefixOf_iff_prefix, List.isPrefixOf_iff_prefix]
    constructor
    · intro starts
      rcases List.prefix_or_prefix_of_prefix starts (List.prefix_append text tail) with
        inside | ⟨more, rfl⟩
      · exact inside
      · cases more with
        | nil => simp
        | cons c others =>
            obtain ⟨after, rfl⟩ := (List.prefix_append_right_inj text).1 starts
            have goesOn := letters c (by simp)
            simp [endsWord, goesOn] at boundary
    · intro starts
      exact starts.trans (List.prefix_append _ _)
  simp only [afterKeyword?, prefixes]
  cases starts : word.isPrefixOf text with
  | false => simp
  | true =>
      have short := (List.isPrefixOf_iff_prefix.1 starts).length_le
      rw [List.drop_append_of_le_length short, endsWord_append boundary]
      cases endsWord (text.drop word.length) <;> simp

theorem letters_of_mem_reservedWords :
    ∀ word ∈ reservedWords, ∀ c ∈ word.toList, continuesName c = true := by
  have all : (reservedWords.all fun word => word.toList.all continuesName) = true := by
    decide +kernel
  exact fun word member => List.all_eq_true.1 (List.all_eq_true.1 all word member)

theorem startsReserved_append {text tail : List Char} (boundary : endsWord tail = true) :
    startsReserved (text ++ tail) = startsReserved text := by
  rw [startsReserved, startsReserved, Bool.eq_iff_iff, List.any_eq_true, List.any_eq_true]
  refine exists_congr fun word => and_congr_right fun member => ?_
  rw [isSome_afterKeyword?_append (fun c inside => continuesIdentifier_of_continuesName
    (letters_of_mem_reservedWords word member c inside)) boundary]

theorem takeWhile_eq_nil_of_head {wanted : Char → Bool} {text : List Char}
    (stops : ∀ c ∈ text.head?, wanted c = false) : text.takeWhile wanted = [] := by
  cases text with
  | nil => rfl
  | cons c rest => simp [stops c rfl]

theorem takeWhile_append_of_stop {wanted : Char → Bool} (text : List Char) {tail : List Char}
    (stops : tail.takeWhile wanted = []) :
    (text ++ tail).takeWhile wanted = text.takeWhile wanted ∧
      (text ++ tail).dropWhile wanted = text.dropWhile wanted ++ tail := by
  induction text with
  | nil =>
      have whole : tail.dropWhile wanted = tail := by
        have both := List.takeWhile_append_dropWhile (p := wanted) (l := tail)
        rwa [stops] at both
      exact ⟨stops, whole⟩
  | cons c rest inductionHypothesis =>
      by_cases hit : wanted c = true
      · simp [hit, inductionHypothesis]
      · simp [hit]

/-- An identifier ends before any character that cannot continue one. -/
theorem takeName?_append {text tail : List Char} (filled : text ≠ [])
    (boundary : endsWord tail = true) :
    takeName? (text ++ tail) =
      (takeName? text).map fun taken => (taken.1, taken.2 ++ tail) := by
  obtain ⟨c, rest, rfl⟩ := List.exists_cons_of_ne_nil filled
  have stops : tail.takeWhile continuesName = [] := by
    refine takeWhile_eq_nil_of_head fun d isHead => ?_
    obtain ⟨others, rfl⟩ := List.head?_eq_some_iff.1 isHead
    by_contra continues
    have goesOn := continuesIdentifier_of_continuesName (by simpa using continues)
    simp [endsWord, goesOn] at boundary
  obtain ⟨taken, left⟩ := takeWhile_append_of_stop rest stops
  have reserved : startsReserved (c :: rest ++ tail) = startsReserved (c :: rest) :=
    startsReserved_append boundary
  rw [List.cons_append] at *
  simp only [takeName?, reserved, taken, left]
  cases startsReserved (c :: rest) with
  | true => rfl
  | false => cases opensName c <;> rfl

/-! ## Whole identifiers -/

/-- The text is an identifier and no reserved word. -/
def isName (text : List Char) : Bool :=
  match text with
  | [] => false
  | c :: rest =>
      opensName c && rest.all continuesName && !reservedWords.contains (String.ofList (c :: rest))

/-- An identifier that is no reserved word. -/
structure Identifier where
  letters : List Char
  named : isName letters = true
  deriving DecidableEq, Repr

namespace Identifier

/-- The identifier as a name of a class. -/
def text (identifier : Identifier) : String := String.ofList identifier.letters

theorem letters_ne_nil (identifier : Identifier) : identifier.letters ≠ [] := by
  intro empty
  have named := identifier.named
  rw [empty] at named
  exact absurd named (by decide)

theorem continuesName_of_mem (identifier : Identifier) :
    ∀ c ∈ identifier.letters, continuesName c = true := by
  have named := identifier.named
  intro c member
  cases shape : identifier.letters with
  | nil => simp [shape] at member
  | cons first rest =>
      simp only [shape, isName, Bool.and_eq_true] at named
      rw [shape, List.mem_cons] at member
      rcases member with rfl | inside
      · exact continuesName_of_opensName named.1.1
      · exact List.all_eq_true.1 named.1.2 c inside

/-- No reserved word is read where an identifier stands: a shorter one would have to end
inside it. -/
theorem startsReserved_letters (identifier : Identifier) :
    startsReserved identifier.letters = false := by
  have continues := identifier.continuesName_of_mem
  have named := identifier.named
  by_contra starts
  have reads : startsReserved identifier.letters = true := by simpa using starts
  obtain ⟨word, reserved, found⟩ := List.any_eq_true.1 reads
  obtain ⟨isPrefix, ends⟩ : word.toList <+: identifier.letters ∧
      endsWord (identifier.letters.drop word.toList.length) = true := by
    simpa [afterKeyword?] using found
  obtain ⟨more, shape⟩ := isPrefix
  cases more with
  | nil =>
      rw [List.append_nil] at shape
      have same : String.ofList identifier.letters = word := by rw [← shape, String.ofList_toList]
      cases letters : identifier.letters with
      | nil => exact identifier.letters_ne_nil letters
      | cons first rest =>
          rw [letters] at named same
          simp [isName, same, reserved] at named
  | cons c others =>
      rw [← shape, List.drop_left] at ends
      have goesOn := continuesIdentifier_of_continuesName (continues c (by simp [← shape]))
      simp [endsWord, goesOn] at ends

theorem takeName?_letters (identifier : Identifier) :
    takeName? identifier.letters = some (identifier.letters, []) := by
  have reserved := identifier.startsReserved_letters
  have named := identifier.named
  cases shape : identifier.letters with
  | nil => exact absurd shape identifier.letters_ne_nil
  | cons first rest =>
      rw [shape] at reserved named
      simp only [isName, Bool.and_eq_true] at named
      have all : ∀ c ∈ rest, continuesName c = true := List.all_eq_true.1 named.1.2
      simp [takeName?, reserved, named.1.1, List.takeWhile_eq_self_iff.2 all,
        List.dropWhile_eq_nil_iff.2 all]

end Identifier

end GodotGraph.Grammar
