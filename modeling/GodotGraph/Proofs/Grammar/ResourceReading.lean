import GodotGraph.Proofs.Grammar.Resource

/-!
Contract: what the grammar of external resources reads of written fields.

Owns:
- the reading of a value, with its scheme or without;
- the reading of a field, and of all fields of a declaration in the order in which they are
  written;
- the outcome of the grammar on the window of a declaration.

A path without a scheme may start with the letters of one. The marker that would have to follow
is a token of its own, and the closing quote comes before any such token.

Does not own: the lines of a text.
-/

set_option autoImplicit false

namespace GodotGraph

namespace Grammar

open Pattern (CharClass Reader Reading compositional_reader memberOf)
open Token (IsWord isSolid spaced)

/-! ## Values -/

theorem seq_cons_ok {part : Pattern} {others : List Pattern} {text : List Char}
    {found last : Reading} (read : part.reader text = .ok found)
    (later : (Pattern.seq others).reader found.rest = .ok last) :
    (Pattern.seq (part :: others)).reader text =
      .ok ⟨last.rest, found.captures ++ last.captures⟩ :=
  compositional_reader.seqCons.2 ⟨found, last, read, later, rfl⟩

theorem stops_spaced {family : CharClass} (noSpace : family.contains ' ' = false)
    (tokens : List String) : ∀ c ∈ (spaced tokens).head?, family.contains c = false := by
  cases tokens with
  | nil => simp
  | cons token rest => simpa [Token.spaced_cons] using noSpace

theorem trimStart_letters {letters : List Char} (filled : letters ≠ [])
    (solid : ∀ c ∈ letters, isSolid c = true) (tail : List Char) :
    Text.trimStart (letters ++ tail) = letters ++ tail := by
  obtain ⟨c, rest, rfl⟩ := List.exists_cons_of_ne_nil filled
  exact Text.trimStart_cons_of_solid (Token.isBlank_of_isSolid (solid c List.mem_cons_self))

theorem trimStart_spaced_ofList {letters : List Char} (filled : letters ≠ [])
    (solid : ∀ c ∈ letters, isSolid c = true) (rest : List String) :
    Text.trimStart (spaced (String.ofList letters :: rest)) = letters ++ spaced rest := by
  rw [Token.trimStart_spaced (Token.isWord_ofList filled solid), String.toList_ofList]

theorem trim_letters {letters : List Char} (solid : ∀ c ∈ letters, isSolid c = true) :
    Text.trim letters = letters :=
  trim_of_solid fun c inside => Token.isBlank_of_isSolid (solid c inside)

theorem value_reads {value : ValueWord} {capture : String} {text : List Char}
    {rest : List String} (start : Text.trimStart text = value.letters ++ spaced rest) :
    (Pattern.named capture valueWord).reader text =
      .ok ⟨spaced rest, [⟨capture, value.text⟩]⟩ :=
  named_reads capture (value.reads start (stops_spaced (by decide) rest)) start
    (trim_letters (isSolid_of_mem_value value))

theorem target_reads {target : PathWord} {capture : String} {text : List Char}
    {rest : List String} (start : Text.trimStart text = target.letters ++ spaced rest) :
    (Pattern.named capture pathWord).reader text =
      .ok ⟨spaced rest, [⟨capture, target.text⟩]⟩ :=
  named_reads capture (target.reads start (stops_spaced (by decide) rest)) start
    (trim_letters (isSolid_of_mem_path target))

/-- The marker takes the first two characters of the token behind the colon. -/
theorem schemeMark_reads {letters : List Char} (solid : ∀ c ∈ letters, isSolid c = true)
    (rest : List String) :
    (Pattern.seq schemeMark).reader
        (spaced (":" :: String.ofList ('/' :: '/' :: letters) :: rest)) =
      .ok ⟨letters ++ spaced rest, []⟩ := by
  have slash : isSolid '/' = true := by decide
  have slashed : ∀ c ∈ '/' :: '/' :: letters, isSolid c = true := by
    simpa [slash] using solid
  have colon := literal_reads ":" (Token.trimStart_spaced (by decide)
    (String.ofList ('/' :: '/' :: letters) :: rest))
  have slashes := literal_reads "//"
    (trimStart_spaced_ofList (by simp) slashed rest)
  exact seq_cons_ok colon (seq_cons_ok slashes (compositional_reader.seqNil _))

theorem uidValue_reads (number : ValueWord) (rest : List String) :
    uidValue.reader
        (spaced (uidScheme :: ":" :: String.ofList ('/' :: '/' :: number.letters) :: rest)) =
      .ok ⟨spaced rest, [⟨uidCapture, "uid : //" ++ number.text⟩]⟩ := by
  have solid := isSolid_of_mem_value number
  have start := Token.trimStart_spaced (show IsWord uidScheme by decide)
    (":" :: String.ofList ('/' :: '/' :: number.letters) :: rest)
  have marked : (scheme uidScheme).reader
      (spaced (uidScheme :: ":" :: String.ofList ('/' :: '/' :: number.letters) :: rest)) =
        .ok ⟨number.letters ++ spaced rest, []⟩ :=
    seq_cons_ok (literal_reads uidScheme start) (schemeMark_reads solid rest)
  have read := number.reads (trimStart_letters number.letters_ne_nil solid (spaced rest))
    (stops_spaced (by decide) rest)
  have whole := seq_cons_ok marked (seq_cons_ok read (compositional_reader.seqNil _))
  have text : Text.trimStart
      (spaced (uidScheme :: ":" :: String.ofList ('/' :: '/' :: number.letters) :: rest)) =
        ("uid : //".toList ++ number.letters) ++ spaced rest := by
    rw [start]
    simp [Token.spaced_cons, uidScheme]
  have trimmed : Text.trim ("uid : //".toList ++ number.letters) =
      "uid : //".toList ++ number.letters := by
    refine trim_of_ends (by simp; decide) ?_
    intro c isLast
    rw [List.getLast?_append_of_ne_nil _ number.letters_ne_nil] at isLast
    exact Token.isBlank_of_isSolid (solid c (List.mem_of_getLast? isLast))
  have captured := named_reads uidCapture whole text trimmed
  rw [String.ofList_append, String.ofList_toList] at captured
  exact captured

/-! ## Paths -/

/-- The schemes that a path may stand under. -/
def anyScheme : Pattern := .first ((projectScheme :: foreignSchemes).map .literal)

/-- The marker of the scheme of a path, which may be absent. -/
def rootMark : Pattern := .seq (.named rootCapture anyScheme :: schemeMark)

theorem anyScheme_reads (scheme : Scheme) {text tail : List Char}
    (start : Text.trimStart text = scheme.name.toList ++ tail) :
    anyScheme.reader text = .ok ⟨tail, []⟩ := by
  have shape : anyScheme.reader text = Reader.first anyScheme.describe
      [(Pattern.literal projectScheme).reader, (Pattern.literal uidScheme).reader,
        (Pattern.literal userScheme).reader] text := rfl
  rw [shape]
  cases scheme <;>
    · simp only [Reader.first, Reader.firstOf, Pattern.reader, Reader.literal, start]
      rfl

theorem exists_scheme_of_anyScheme {text : List Char} {found : Reading}
    (read : anyScheme.reader text = .ok found) :
    ∃ scheme : Scheme, Text.trimStart text = scheme.name.toList ++ found.rest := by
  have isMatch := List.mem_of_head? (compositional_reader.first.1 read)
  simp only [Pattern.matching, Reader.successes, List.mem_filterMap] at isMatch
  obtain ⟨reader, isReader, readScheme⟩ := isMatch
  simp only [foreignSchemes, List.map_cons, List.map_nil, List.mem_cons, List.not_mem_nil,
    or_false] at isReader
  have ofScheme : ∀ scheme : Scheme, ((Pattern.literal scheme.name).reader text).toOption =
      some found → ∃ scheme : Scheme, Text.trimStart text = scheme.name.toList ++ found.rest := by
    intro scheme reads
    refine ⟨scheme, start_of_literal ?_⟩
    cases outcome : (Pattern.literal scheme.name).reader text with
    | error stuck => rw [outcome] at reads; cases reads
    | ok reading => rw [outcome] at reads; exact congrArg _ (Option.some.inj reads)
  rcases isReader with rfl | rfl | rfl
  · exact ofScheme .project readScheme
  · exact ofScheme .number readScheme
  · exact ofScheme .user readScheme

theorem rootMark_reads (scheme : Scheme) {letters : List Char}
    (solid : ∀ c ∈ letters, isSolid c = true) (rest : List String) :
    rootMark.reader
        (spaced (scheme.name :: ":" :: String.ofList ('/' :: '/' :: letters) :: rest)) =
      .ok ⟨letters ++ spaced rest, [⟨rootCapture, scheme.name⟩]⟩ := by
  obtain ⟨filled, isWord⟩ := scheme.name_solid
  have start := trimStart_spaced_ofList filled isWord
    (":" :: String.ofList ('/' :: '/' :: letters) :: rest)
  rw [String.ofList_toList] at start
  have named := named_reads rootCapture (anyScheme_reads scheme start) start (trim_letters isWord)
  rw [String.ofList_toList] at named
  exact seq_cons_ok named (schemeMark_reads solid rest)

/-- Letters like those of a scheme are no marker if a quote comes before any colon. -/
theorem schemed_fails {head : Pattern} {text letters tail rest : List Char}
    (named : ∀ found, head.reader text = .ok found →
      ∃ name, '"' ∉ name ∧ Text.trimStart text = name ++ found.rest)
    (solid : ∀ c ∈ letters, isSolid c = true) (start : Text.trimStart text = letters ++ tail)
    (quote : Text.trimStart tail = '"' :: rest) :
    ∃ stuck, (Pattern.seq (head :: schemeMark)).reader text = .error stuck := by
  cases outcome : (Pattern.seq (head :: schemeMark)).reader text with
  | error stuck => exact ⟨stuck, rfl⟩
  | ok whole =>
      obtain ⟨inside, _, readHead, readMark, -⟩ := compositional_reader.seqCons.1 outcome
      obtain ⟨name, noQuoteName, front⟩ := named inside readHead
      obtain ⟨colon, _, readColon, -, -⟩ := compositional_reader.seqCons.1 readMark
      obtain ⟨blanks, blank, split⟩ := Text.trimStart_append inside.rest
      obtain ⟨gap, blankGap, splitTail⟩ := Text.trimStart_append tail
      rw [start_of_literal readColon] at split
      rw [quote] at splitTail
      have same : (name ++ blanks) ++ ':' :: colon.rest = (letters ++ gap) ++ '"' :: rest := by
        rw [split, start, splitTail] at front
        simpa using front.symm
      have noQuote : '"' ∉ name ++ blanks := by
        intro inside
        rcases List.mem_append.1 inside with inName | inBlanks
        · exact noQuoteName inName
        · exact absurd (blank _ inBlanks) (by decide)
      rcases List.mem_append.1 (first_mark_unique (by decide) same noQuote) with inLetters | inGap
      · exact absurd (solid _ inLetters) (by decide)
      · exact absurd (blankGap _ inGap) (by decide)

theorem rootMark_fails {letters : List Char} (filled : letters ≠ [])
    (solid : ∀ c ∈ letters, isSolid c = true) (rest : List String) :
    ∃ stuck, rootMark.reader (spaced (String.ofList letters :: "\"" :: rest)) =
      .error stuck := by
  have quote := Token.trimStart_spaced (show IsWord "\"" by decide) rest
  refine schemed_fails ?_ solid (trimStart_spaced_ofList filled solid ("\"" :: rest)) quote
  intro found readRoot
  obtain ⟨inside, readScheme, rfl⟩ := compositional_reader.named.1 readRoot
  obtain ⟨scheme, front⟩ := exists_scheme_of_anyScheme readScheme
  refine ⟨scheme.name.toList, ?_, front⟩
  intro inName
  exact absurd (scheme.name_solid.2 _ inName) (by decide)

theorem resourcePath_reads (scheme? : Option Scheme) (target : PathWord) (rest : List String) :
    resourcePath.reader (spaced ((Field.path scheme? target).valueTokens ++ "\"" :: rest)) =
      .ok ⟨spaced ("\"" :: rest), (Field.path scheme? target).captures⟩ := by
  have solid := isSolid_of_mem_path target
  have shape : resourcePath = .seq [.optional rootMark, .named pathCapture pathWord] := rfl
  rw [shape]
  cases scheme? with
  | none =>
      have start := trimStart_spaced_ofList target.letters_ne_nil solid ("\"" :: rest)
      have absent : (Pattern.optional rootMark).reader
          (spaced (String.ofList target.letters :: "\"" :: rest)) =
            .ok ⟨spaced (String.ofList target.letters :: "\"" :: rest), []⟩ := by
        obtain ⟨stuck, fails⟩ := rootMark_fails target.letters_ne_nil solid rest
        rw [compositional_reader.optional, fails]
        rfl
      exact seq_cons_ok absent (seq_cons_ok (target_reads start) (compositional_reader.seqNil _))
  | some scheme =>
      have start := trimStart_letters target.letters_ne_nil solid (spaced ("\"" :: rest))
      have present : (Pattern.optional rootMark).reader
          (spaced (scheme.name :: ":" :: String.ofList ('/' :: '/' :: target.letters) ::
            "\"" :: rest)) =
            .ok ⟨target.letters ++ spaced ("\"" :: rest), [⟨rootCapture, scheme.name⟩]⟩ := by
        rw [compositional_reader.optional, rootMark_reads scheme solid]
        rfl
      exact seq_cons_ok present (seq_cons_ok (target_reads start) (compositional_reader.seqNil _))

/-! ## Fields -/

theorem valuePattern_reads (written : Field) (rest : List String) :
    written.valuePattern.reader (spaced (written.valueTokens ++ "\"" :: rest)) =
      .ok ⟨spaced ("\"" :: rest), written.captures⟩ := by
  cases written with
  | type value =>
      exact value_reads
        (trimStart_spaced_ofList value.letters_ne_nil (isSolid_of_mem_value value) _)
  | uid number => exact uidValue_reads number ("\"" :: rest)
  | path scheme? target => exact resourcePath_reads scheme? target rest
  | id value =>
      exact value_reads
        (trimStart_spaced_ofList value.letters_ne_nil (isSolid_of_mem_value value) _)

theorem quoted_reads {value : Pattern} {tokens rest : List String} {captures : Pattern.Trail}
    (read : value.reader (spaced (tokens ++ "\"" :: rest)) =
      .ok ⟨spaced ("\"" :: rest), captures⟩) :
    value.quoted.reader (spaced ("\"" :: (tokens ++ "\"" :: rest))) =
      .ok ⟨spaced rest, captures⟩ := by
  have quote : ∀ later : List String,
      (Pattern.silent (.literal "\"")).reader (spaced ("\"" :: later)) =
        .ok ⟨spaced later, []⟩ := fun later =>
    compositional_reader.silent.2
      ⟨_, literal_reads "\"" (Token.trimStart_spaced (by decide) later), rfl⟩
  have whole := seq_cons_ok (quote (tokens ++ "\"" :: rest))
    (seq_cons_ok read (seq_cons_ok (quote rest) (compositional_reader.seqNil _)))
  simpa [Pattern.quoted] using whole

/-- A field is read up to its closing quote. -/
theorem field_reads (written : Field) (rest : List String) :
    (field written.key written.valuePattern).reader (spaced (written.tokens ++ rest)) =
      .ok ⟨spaced rest, written.captures⟩ := by
  obtain ⟨filled, solid⟩ := written.key_solid
  have tokens : written.tokens ++ rest = (written.key ++ "=") ::
      "\"" :: (written.valueTokens ++ "\"" :: rest) := by
    simp [Field.tokens]
  have start := trimStart_spaced_ofList filled solid
    ("\"" :: (written.valueTokens ++ "\"" :: rest))
  rw [String.ofList_toList, ← tokens, String.toList_append, List.append_assoc] at start
  have key : (Pattern.keyword written.key).reader (spaced (written.tokens ++ rest)) =
      .ok ⟨'=' :: spaced ("\"" :: (written.valueTokens ++ "\"" :: rest)), []⟩ := by
    have boundary : Pattern.endsWord
        ("=".toList ++ spaced ("\"" :: (written.valueTokens ++ "\"" :: rest))) = true := by
      show (!Text.continuesIdentifier '=') = true
      decide +kernel
    rw [Pattern.reader, keyword_reads, start, afterKeyword?_append _ boundary]
    rfl
  have equals : (Pattern.literal "=").reader
      ('=' :: spaced ("\"" :: (written.valueTokens ++ "\"" :: rest))) =
        .ok ⟨spaced ("\"" :: (written.valueTokens ++ "\"" :: rest)), []⟩ :=
    literal_reads "=" (Text.trimStart_cons_of_solid (by decide))
  have value : (Pattern.first [written.valuePattern.quoted, written.valuePattern]).reader
      (spaced ("\"" :: (written.valueTokens ++ "\"" :: rest))) =
        .ok ⟨spaced rest, written.captures⟩ := by
    rw [compositional_reader.first, Pattern.matching, List.map_cons,
      Reader.successes_cons_ok (quoted_reads (valuePattern_reads written rest))]
    rfl
  have whole := seq_cons_ok key
    (seq_cons_ok equals (seq_cons_ok value (compositional_reader.seqNil _)))
  simpa [field] using whole

/-! ## Groups of fields -/

/-- The fields of a declaration, in the order in which the grammar lists them. -/
def resourceGroup : List Pattern := [
  field "type" (.named typeCapture valueWord),
  .optional (field "uid" uidValue),
  field "path" resourcePath,
  field "id" (.named idCapture valueWord)]

theorem fields_read (order : List Field) (rest : List String) :
    Reader.sequence (((order.map Field.member).map (memberOf Pattern.reader)).map
        Reader.Member.reader) (spaced (order.flatMap Field.tokens ++ rest)) =
      .ok ⟨spaced rest, order.flatMap Field.captures⟩ := by
  induction order with
  | nil => rfl
  | cons written others inductionHypothesis =>
      have read := field_reads written (others.flatMap Field.tokens ++ rest)
      rw [List.map_cons, List.map_cons, List.map_cons, Pattern.memberOf_reader,
        Field.standIn_member, List.flatMap_cons, List.append_assoc, Reader.sequence, read]
      dsimp only
      rw [inductionHypothesis]
      rfl

/-- A field starts with its key. -/
theorem key_of_matches {key : String} {value : Pattern} {text : List Char} {found : Reading}
    (read : (field key value).reader text = .ok found) : key.toList <+: Text.trimStart text := by
  obtain ⟨first, _, readKey, -, -⟩ := compositional_reader.seqCons.1 read
  rw [Pattern.reader, keyword_reads] at readKey
  cases after : afterKeyword? key.toList (Text.trimStart text) with
  | none =>
      rw [after] at readKey
      cases readKey
  | some rest =>
      simp only [afterKeyword?, Option.ite_none_right_eq_some, Bool.and_eq_true,
        List.isPrefixOf_iff_prefix] at after
      exact after.1.1

theorem keys_exclusive : fieldKeys.Pairwise fun one other =>
    ¬ (one.toList <+: other.toList ∨ other.toList <+: one.toList) := by
  decide

theorem exclusive_resourceGroup (text : List Char) :
    Reader.Exclusive (resourceGroup.map (memberOf Pattern.reader)) text := by
  intro rest _
  have keyed : ∀ (one other : String) (oneValue otherValue : Pattern),
      ¬ (one.toList <+: other.toList ∨ other.toList <+: one.toList) →
        ¬ ((∃ found, (field one oneValue).reader rest = .ok found) ∧
          ∃ found, (field other otherValue).reader rest = .ok found) := by
    intro one other oneValue otherValue apart both
    obtain ⟨⟨_, readOne⟩, ⟨_, readOther⟩⟩ := both
    exact apart (List.prefix_or_prefix_of_prefix (key_of_matches readOne)
      (key_of_matches readOther))
  have keys := keys_exclusive
  simp only [fieldKeys, List.pairwise_cons, List.mem_cons, List.not_mem_nil, or_false,
    forall_eq_or_imp, forall_eq] at keys
  simp only [resourceGroup, List.map_cons, List.map_nil, List.pairwise_cons, List.mem_cons,
    List.not_mem_nil, or_false, forall_eq_or_imp, forall_eq]
  obtain ⟨⟨typeUid, typePath, typeId⟩, ⟨uidPath, uidId⟩, pathId, -⟩ := keys
  exact ⟨⟨keyed _ _ _ _ typeUid, keyed _ _ _ _ typePath, keyed _ _ _ _ typeId⟩,
    ⟨keyed _ _ _ _ uidPath, keyed _ _ _ _ uidId⟩, keyed _ _ _ _ pathId, by simp⟩

/-! ## Declarations -/

/-- A declaration of an external resource. -/
structure Resource where
  type : ValueWord
  uid : Option ValueWord
  scheme : Option Scheme
  target : PathWord
  id : ValueWord
  deriving DecidableEq, Repr

/-- The fields of the declaration, in the order in which the grammar lists them. -/
def Resource.fields (resource : Resource) : List Field :=
  .type resource.type ::
    (resource.uid.toList.map .uid ++ [.path resource.scheme resource.target, .id resource.id])

/-- The members of the group that find no field in the declaration. -/
def Resource.absent (resource : Resource) : List Pattern :=
  match resource.uid with
  | some _ => []
  | none => [.optional (field "uid" uidValue)]

theorem resourceGroup_perm (resource : Resource) :
    resourceGroup.Perm (resource.fields.map Field.member ++ resource.absent) := by
  cases number : resource.uid with
  | some uid =>
      have present : resource.fields.map Field.member ++ resource.absent = resourceGroup := by
        simp [Resource.fields, Resource.absent, number, Field.member, Field.key,
          Field.valuePattern, resourceGroup]
      rw [present]
  | none =>
      have present : resource.fields.map Field.member ++ resource.absent =
          field "type" (.named typeCapture valueWord) ::
            ([field "path" resourcePath, field "id" (.named idCapture valueWord)] ++
              [.optional (field "uid" uidValue)]) := by
        simp [Resource.fields, Resource.absent, number, Field.member, Field.key,
          Field.valuePattern]
      rw [present]
      exact (List.perm_append_singleton _ _).symm.cons _

/-- In whatever order they are written, the group reads all fields. -/
theorem resourceGroup_reads {resource : Resource} {order : List Field}
    (complete : order.Perm resource.fields) (rest : List String) :
    (Pattern.anyOrder resourceGroup).reader (spaced (order.flatMap Field.tokens ++ "]" :: rest)) =
      .ok ⟨spaced ("]" :: rest), order.flatMap Field.captures⟩ := by
  rw [Pattern.reader_anyOrder]
  refine (Reader.anyOrder_eq_ok_iff (Pattern.shrinks_members resourceGroup)
    (exclusive_resourceGroup _)).2
      ⟨_, resource.absent.map (memberOf Pattern.reader), ?_, fields_read order ("]" :: rest), ?_⟩
  · have members := (resourceGroup_perm resource).trans
      ((complete.map Field.member).symm.append_right resource.absent)
    rw [← List.map_append]
    exact members.map _
  · have noKey : ¬ "uid".toList <+: Text.trimStart (spaced ("]" :: rest)) := by
      rw [Token.trimStart_spaced (by decide)]
      simp
    have noNumber : ¬ ∃ found, (field "uid" uidValue).reader (spaced ("]" :: rest)) = .ok found :=
      fun ⟨_, read⟩ => noKey (key_of_matches read)
    intro member inside
    obtain ⟨pattern, isAbsent, rfl⟩ := List.mem_map.1 inside
    have isNumber : pattern = .optional (field "uid" uidValue) := by
      rw [Resource.absent] at isAbsent
      split at isAbsent
      · cases isAbsent
      · exact List.mem_singleton.1 isAbsent
    rw [isNumber]
    exact ⟨rfl, noNumber⟩

/-- The tokens of a declaration with its fields in some order. -/
def declarationTokens (order : List Field) : List String :=
  "[" :: resourceKeyword :: (order.flatMap Field.tokens ++ ["]"])

theorem externalResource_reads {resource : Resource} {order : List Field}
    (complete : order.Perm resource.fields) :
    externalResource.pattern.reader (Token.join (declarationTokens order)).toList =
      .ok ⟨[], order.flatMap Field.captures⟩ := by
  have shape : externalResource.pattern = .seq [.literal "[", .keyword resourceKeyword,
      .anyOrder resourceGroup, .literal "]"] := rfl
  have isKeyword : IsWord resourceKeyword := by decide
  have bracket : Text.trimStart (Token.join (declarationTokens order)).toList =
      "[".toList ++ spaced (resourceKeyword :: (order.flatMap Field.tokens ++ ["]"])) := by
    rw [declarationTokens, trimStart_join, Token.trimStart_spaced (by decide)]
  have keyword : (Pattern.keyword resourceKeyword).reader
      (spaced (resourceKeyword :: (order.flatMap Field.tokens ++ ["]"]))) =
        .ok ⟨spaced (order.flatMap Field.tokens ++ ["]"]), []⟩ := by
    rw [Pattern.reader, keyword_reads, Token.trimStart_spaced isKeyword,
      afterKeyword?_append _ (Token.endsWord_spaced _)]
  have closing : (Pattern.literal "]").reader (spaced ["]"]) = .ok ⟨[], []⟩ :=
    literal_reads "]" (Token.trimStart_spaced (by decide) [])
  have whole := seq_cons_ok (literal_reads "[" bracket)
    (seq_cons_ok keyword (seq_cons_ok (resourceGroup_reads complete [])
      (seq_cons_ok closing (compositional_reader.seqNil _))))
  rw [shape]
  simpa using whole

/-- The window of a declaration ends at its closing bracket, whatever comes behind it. -/
theorem externalResource_parseWindow {resource : Resource} {order : List Field}
    (complete : order.Perm resource.fields) (index : Nat) (rest : List String) :
    ∃ stop, externalResource.parseWindow
        ⟨index, "[", (resourceKeyword :: order.flatMap Field.tokens) ++ "]" :: rest⟩ =
      .ok ⟨order.flatMap Field.captures, stop⟩ := by
  have inside : "]" ∉ resourceKeyword :: order.flatMap Field.tokens := by
    intro member
    rcases List.mem_cons.1 member with isKeyword | inField
    · exact absurd isKeyword (by decide)
    · obtain ⟨written, _, inTokens⟩ := List.mem_flatMap.1 inField
      exact written.ne_of_mem_tokens (by decide) (by decide) inTokens
  have cut : Token.through "]"
      ((resourceKeyword :: order.flatMap Field.tokens) ++ "]" :: rest) =
        (resourceKeyword :: order.flatMap Field.tokens) ++ ["]"] := by
    rw [Token.through_append_of_not_mem inside, Token.through, if_pos rfl]
  have text : Token.Window.text
      ⟨index, "[", (resourceKeyword :: order.flatMap Field.tokens) ++ "]" :: rest⟩
        externalResource.terminal = Token.join (declarationTokens order) :=
    congrArg (fun tokens => Token.join ("[" :: tokens)) cut
  rw [parseWindow, text]
  exact parse_of_reader_ok (externalResource_reads complete)

end Grammar

end GodotGraph
