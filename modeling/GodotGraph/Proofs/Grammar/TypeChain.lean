import GodotGraph.Grammar.TypeChain
import GodotGraph.Proofs.Grammar.Declaration
import GodotGraph.Proofs.Grammar.DottedName
import GodotGraph.Proofs.Pattern.Purity

/-!
Contract: the dotted name that a token starts with.

Owns:
- words of two classes of characters, which end only where no character fits;
- the links of a chain, each of which is dots and a name that are not a value at the end;
- the captures of a chain and what is left of the token behind them.

A link is read as a whole or not at all, so a dot without a name behind it stays unread.

Does not own: what becomes of the name.
-/

set_option autoImplicit false

namespace GodotGraph.Grammar

open Pattern (CharClass Reader Reading Stuck compositional_reader)

/-! ## Words -/

/-- After its blanks a text starts with a word, which goes as far as it can. -/
structure WordAt (opens continues : Char → Bool) (text : List Char) (word : String)
    (rest : List Char) : Prop where
  split : Text.trimStart text = word.toList ++ rest
  letters : ∃ c others, word.toList = c :: others ∧ opens c = true ∧
    ∀ d ∈ others, continues d = true
  ends : ∀ d ∈ rest.head?, continues d = false

theorem WordAt.letter {opens continues : Char → Bool} {text rest : List Char} {word : String}
    (isWord : WordAt opens continues text word rest) :
    ∀ c ∈ word.toList, opens c = true ∨ continues c = true := by
  obtain ⟨first, others, shape, opened, inside⟩ := isWord.letters
  intro c member
  rw [shape, List.mem_cons] at member
  rcases member with rfl | later
  · exact Or.inl opened
  · exact Or.inr (inside c later)

theorem wordAt_of_opens {opens : Char → Bool} (continues : Char → Bool) {text : List Char}
    {c : Char} {others : List Char} (shape : Text.trimStart text = c :: others)
    (opened : opens c = true) :
    WordAt opens continues text (String.ofList (c :: others.takeWhile continues))
      (others.dropWhile continues) := by
  refine ⟨?_, ⟨c, others.takeWhile continues, String.toList_ofList, opened,
    List.all_eq_true.1 List.all_takeWhile⟩, ?_⟩
  · rw [shape, String.toList_ofList, List.cons_append, List.takeWhile_append_dropWhile]
  · intro d isHead
    have stop := List.head?_dropWhile_not continues others
    rw [Option.mem_def] at isHead
    rwa [isHead] at stop

theorem word_ok_iff {opens continues : CharClass} {text : List Char} {found : Reading} :
    (Pattern.word opens continues).reader text = .ok found ↔
      ∃ word, WordAt opens.contains continues.contains text word found.rest ∧
        found.captures = [] := by
  simp only [Pattern.reader, Reader.word]
  constructor
  · intro read
    cases shape : Text.trimStart text with
    | nil => simp [shape] at read
    | cons c others =>
        rw [shape] at read
        dsimp only at read
        split at read
        · next opened =>
            obtain rfl : ⟨others.dropWhile continues.contains, []⟩ = found := by simpa using read
            exact ⟨_, wordAt_of_opens continues.contains shape opened, rfl⟩
        · cases read
  · rintro ⟨word, ⟨split, ⟨c, others, shape, opened, inside⟩, ends⟩, captures⟩
    have rest : (others ++ found.rest).dropWhile continues.contains = found.rest := by
      rw [(takeWhile_append_of_stop others (takeWhile_eq_nil_of_head ends)).2,
        List.dropWhile_eq_nil_iff.2 inside, List.nil_append]
    rw [split, shape, List.cons_append]
    simp only [opened, if_true, rest, ← captures]

/-- A named word is captured as it stands. -/
theorem named_word_ok_iff {capture : String} {opens continues : CharClass} {text : List Char}
    {found : Reading}
    (solid : ∀ c, opens.contains c = true ∨ continues.contains c = true → Text.isBlank c = false) :
    (Pattern.named capture (.word opens continues)).reader text = .ok found ↔
      ∃ word, WordAt opens.contains continues.contains text word found.rest ∧
        found.captures = [⟨capture, word⟩] := by
  have trimmed : ∀ {word : String} {rest : List Char},
      WordAt opens.contains continues.contains text word rest →
        String.ofList (Text.trim (Reader.between (Text.trimStart text) rest)) = word := by
    intro word rest isWord
    rw [isWord.split, between_append, trim_of_solid fun c inside => solid c (isWord.letter c inside),
      String.ofList_toList]
  rw [compositional_reader.named]
  constructor
  · rintro ⟨inside, read, rfl⟩
    obtain ⟨word, isWord, nothing⟩ := word_ok_iff.1 read
    exact ⟨word, isWord, by simp [nothing, trimmed isWord]⟩
  · rintro ⟨word, isWord, captures⟩
    refine ⟨⟨found.rest, []⟩, word_ok_iff.2 ⟨word, isWord, rfl⟩, ?_⟩
    rw [trimmed isWord, List.nil_append, ← captures]

/-! ## Links -/

/-- A character behind the dot of a value. -/
def continuesValue (c : Char) : Bool := (CharClass.uppercase.including "_0123456789").contains c

theorem isDigit_iff {c : Char} : c.isDigit = true ↔ c ∈ "0123456789".toList := by
  have range : c.isDigit = true ↔ 48 ≤ c.toNat ∧ c.toNat ≤ 57 := by
    simp only [Char.isDigit, Bool.and_eq_true, decide_eq_true_eq, ge_iff_le, UInt32.le_iff_toNat_le]
    rfl
  rw [range]
  simp only [String.reduceToList, List.mem_cons, List.not_mem_nil, or_false, ← Char.toNat_inj,
    Char.reduceToNat]
  omega

theorem continuesValue_iff {c : Char} :
    continuesValue c = true ↔ c.isUpper = true ∨ c.isDigit = true ∨ c = '_' := by
  have listed : c ∈ "_0123456789".toList ↔ c = '_' ∨ c ∈ "0123456789".toList := by simp
  have capital : CharClass.uppercase.contains c = c.isUpper := by
    simp [CharClass.contains, CharClass.uppercase]
  rw [continuesValue, CharClass.contains_including, Bool.or_eq_true, List.contains_iff_mem, capital,
    listed, isDigit_iff]
  exact or_congr_right or_comm

/-- What is left of a text is a value and nothing else. -/
def ValueAt (text : List Char) : Prop :=
  ∃ word rest, WordAt isDot continuesValue text word rest ∧ Text.trimStart rest = []

/-- A text goes on with dots and a name, and is no value. -/
structure LinkAt (text : List Char) (dots name : String) (rest : List Char) : Prop where
  noValue : ¬ ValueAt text
  words : ∃ middle, WordAt isDot isDot text dots middle ∧
    WordAt opensName continuesName middle name rest

/-- One more name of a chain, with the dots before it. -/
def chainLink : Pattern :=
  .seq [
    .notAhead enumValue,
    .named segmentCapture (.word (CharClass.chars ".") (CharClass.chars ".")),
    .named segmentCapture plainIdentifier]

/-- The captures of the parts of a chain. -/
def segments (parts : List String) : Pattern.Trail :=
  parts.map fun part => ⟨segmentCapture, part⟩

theorem windowEnd_ok_iff {text : List Char} {found : Reading} :
    Pattern.windowEnd.reader text = .ok found ↔
      Text.trimStart text = [] ∧ found = ⟨[], []⟩ := by
  cases shape : Text.trimStart text with
  | nil => simp [Pattern.reader, Reader.windowEnd, shape, eq_comm]
  | cons c rest => simp [Pattern.reader, Reader.windowEnd, shape]

theorem exists_enumValue_ok_iff {text : List Char} :
    (∃ found, enumValue.reader text = .ok found) ↔ ValueAt text := by
  simp only [enumValue, compositional_reader.seqCons, word_ok_iff, windowEnd_ok_iff,
    compositional_reader.seqNil]
  constructor
  · rintro ⟨_, found, _, ⟨word, isWord, -⟩, ⟨_, _, ⟨ended, -⟩, -⟩, -⟩
    exact ⟨word, found.rest, isWord, ended⟩
  · rintro ⟨word, rest, isWord, ended⟩
    exact ⟨_, ⟨rest, []⟩, _, ⟨word, isWord, rfl⟩, ⟨_, _, ⟨ended, rfl⟩, rfl, rfl⟩, rfl⟩

theorem isBlank_of_nameLetter (c : Char) (letter : opensName c = true ∨ continuesName c = true) :
    Text.isBlank c = false :=
  isBlank_of_continuesName (letter.elim continuesName_of_opensName id)

theorem isBlank_of_dot (c : Char) (dot : isDot c = true ∨ isDot c = true) :
    Text.isBlank c = false := by
  rw [or_self, isDot_iff] at dot
  subst dot
  decide

theorem named_plainIdentifier_ok_iff {text : List Char} {found : Reading} :
    (Pattern.named segmentCapture plainIdentifier).reader text = .ok found ↔
      ∃ name, WordAt opensName continuesName text name found.rest ∧
        found.captures = segments [name] :=
  named_word_ok_iff isBlank_of_nameLetter

theorem named_dots_ok_iff {text : List Char} {found : Reading} :
    (Pattern.named segmentCapture
        (.word (CharClass.chars ".") (CharClass.chars "."))).reader text = .ok found ↔
      ∃ dots, WordAt isDot isDot text dots found.rest ∧ found.captures = segments [dots] :=
  named_word_ok_iff isBlank_of_dot

theorem chainLink_ok_iff {text : List Char} {found : Reading} :
    chainLink.reader text = .ok found ↔
      ∃ dots name, LinkAt text dots name found.rest ∧ found.captures = segments [dots, name] := by
  simp only [chainLink, compositional_reader.seqCons, compositional_reader.notAhead,
    named_dots_ok_iff, named_plainIdentifier_ok_iff, compositional_reader.seqNil, Except.ok.injEq]
  have free : (∃ stuck, enumValue.reader text = .error stuck) ↔ ¬ ValueAt text := by
    rw [← exists_enumValue_ok_iff]
    cases enumValue.reader text <;> simp
  rw [free]
  constructor
  · rintro ⟨_, _, ⟨rfl, noValue⟩, ⟨first, _, ⟨dots, areDots, dotsCaught⟩, ⟨last, _,
      ⟨name, isName, nameCaught⟩, rfl, rfl⟩, rfl⟩, rfl⟩
    exact ⟨dots, name, ⟨noValue, first.rest, areDots, isName⟩, by
      simp [dotsCaught, nameCaught, segments]⟩
  · rintro ⟨dots, name, ⟨noValue, middle, areDots, isName⟩, caught⟩
    exact ⟨⟨text, []⟩, ⟨found.rest, segments [dots, name]⟩, ⟨rfl, noValue⟩,
      ⟨⟨middle, segments [dots]⟩, ⟨found.rest, segments [name]⟩, ⟨dots, areDots, rfl⟩,
        ⟨⟨found.rest, segments [name]⟩, ⟨found.rest, []⟩, ⟨name, isName, rfl⟩, rfl, by simp⟩, rfl⟩,
      congrArg (Reading.mk found.rest) caught⟩

/-! ## Chains of links -/

/-- Links that a text goes on with, up to the first place where no more fits. -/
inductive Links : List Char → List String → List Char → Prop where
  | done {text : List Char} (ends : ∀ dots name rest, ¬ LinkAt text dots name rest) :
      Links text [] text
  | more {text middle rest : List Char} {dots name : String} {parts : List String}
      (link : LinkAt text dots name middle) (later : Links middle parts rest) :
      Links text (dots :: name :: parts) rest

theorem length_rest_lt_of_wordAt {opens continues : Char → Bool} {text rest : List Char}
    {word : String} (isWord : WordAt opens continues text word rest) :
    rest.length < text.length := by
  obtain ⟨split, ⟨c, others, shape, -, -⟩, -⟩ := isWord
  have shorter := (Text.trimStart_suffix text).length_le
  rw [split, shape] at shorter
  simp only [List.length_append, List.length_cons] at shorter
  omega

theorem links_of_repeats {text : List Char} {last : Reading}
    (rounds : Reader.Repeats chainLink.reader text last) :
    ∃ parts, Links text parts last.rest ∧ last.captures = segments parts := by
  induction rounds with
  | stop read =>
      refine ⟨[], .done ?_, rfl⟩
      intro dots name rest link
      have reads : chainLink.reader _ = .ok ⟨rest, segments [dots, name]⟩ :=
        chainLink_ok_iff.2 ⟨dots, name, link, rfl⟩
      rw [read] at reads
      cases reads
  | idle read stays =>
      obtain ⟨dots, name, ⟨-, middle, areDots, isName⟩, -⟩ := chainLink_ok_iff.1 read
      have first := length_rest_lt_of_wordAt areDots
      have second := length_rest_lt_of_wordAt isName
      omega
  | again read moves later inductionHypothesis =>
      obtain ⟨dots, name, link, caught⟩ := chainLink_ok_iff.1 read
      obtain ⟨parts, links, others⟩ := inductionHypothesis
      exact ⟨dots :: name :: parts, .more link links, by simp [caught, others, segments]⟩

/-- A chain is a name and the links behind it. -/
theorem typeChain_ok {text : List Char} {found : Reading}
    (read : typeChain.pattern.reader text = .ok found) :
    ∃ name middle parts, WordAt opensName continuesName text name middle ∧
      Links middle parts found.rest ∧ found.captures = segments (name :: parts) := by
  have shape : typeChain.pattern =
      .seq [.named segmentCapture plainIdentifier, .zeroOrMore chainLink] := rfl
  simp only [shape, compositional_reader.seqCons, named_plainIdentifier_ok_iff,
    compositional_reader.seqNil, Except.ok.injEq] at read
  obtain ⟨first, _, ⟨name, isName, caught⟩, ⟨later, _, repeated, rfl, rfl⟩, rfl⟩ := read
  obtain ⟨last, run, rounds⟩ := compositional_reader.zeroOrMore chainLink first.rest
  obtain rfl : last = later := by simpa [run] using repeated
  obtain ⟨parts, links, others⟩ := links_of_repeats rounds
  exact ⟨name, first.rest, parts, isName, links, by simp [caught, others, segments]⟩

/-- A chain needs nothing but a first name. -/
theorem exists_typeChain_ok {text : List Char} {name : String} {middle : List Char}
    (isName : WordAt opensName continuesName text name middle) :
    ∃ found, typeChain.pattern.reader text = .ok found := by
  have shape : typeChain.pattern =
      .seq [.named segmentCapture plainIdentifier, .zeroOrMore chainLink] := rfl
  obtain ⟨last, run, -⟩ := compositional_reader.zeroOrMore chainLink middle
  simp only [shape, compositional_reader.seqCons, named_plainIdentifier_ok_iff,
    compositional_reader.seqNil]
  exact ⟨_, ⟨middle, segments [name]⟩, _, ⟨name, isName, rfl⟩, ⟨last, _, run, rfl, rfl⟩, rfl⟩

theorem WordAt.isPlainName {text rest : List Char} {name : String}
    (isName : WordAt opensName continuesName text name rest) : IsPlainName name := by
  obtain ⟨c, others, shape, opened, continues⟩ := isName.letters
  exact ⟨c, others, shape, opensName_iff.1 opened, fun d inside =>
    continuesName_iff_alphanum.1 (continues d inside)⟩

theorem WordAt.isDots {text rest : List Char} {dots : String}
    (areDots : WordAt isDot isDot text dots rest) : IsDots dots := by
  refine ⟨?_, fun c inside => isDot_iff.1 (or_self_iff.1 (areDots.letter c inside))⟩
  obtain ⟨c, others, shape, -⟩ := areDots.letters
  rintro rfl
  cases shape

/-! ## Tokens without blanks -/

/-- No character of the text is blank. -/
def Solid (text : List Char) : Prop := ∀ c ∈ text, Text.isBlank c = false

instance (text : List Char) : Decidable (Solid text) :=
  decidable_of_iff ((text.all fun c => !Text.isBlank c) = true) (by simp [Solid])

theorem Solid.trimStart {text : List Char} (solid : Solid text) : Text.trimStart text = text :=
  Text.trimStart_of_head fun c isHead => solid c (List.mem_of_head? isHead)

theorem Solid.of_append {first second : List Char} (solid : Solid (first ++ second)) :
    Solid second :=
  fun c inside => solid c (List.mem_append_right first inside)

theorem WordAt.solid_split {opens continues : Char → Bool} {text rest : List Char} {word : String}
    (isWord : WordAt opens continues text word rest) (solid : Solid text) :
    text = word.toList ++ rest ∧ Solid rest := by
  have shape : text = word.toList ++ rest := by rw [← isWord.split, solid.trimStart]
  exact ⟨shape, (shape ▸ solid).of_append⟩

theorem valueAt_iff {text : List Char} (solid : Solid text) : ValueAt text ↔ IsValue text := by
  constructor
  · rintro ⟨word, rest, isWord, ended⟩
    obtain ⟨split, left⟩ := isWord.solid_split solid
    obtain ⟨c, others, shape, opened, continues⟩ := isWord.letters
    obtain rfl : rest = [] := by rw [← left.trimStart, ended]
    refine ⟨others, ?_, fun d inside => continuesValue_iff.1 (continues d inside)⟩
    rw [split, shape, isDot_iff.1 opened, List.append_nil]
  · rintro ⟨word, rfl, letters⟩
    have all : ∀ c ∈ word, continuesValue c = true := fun c inside =>
      continuesValue_iff.2 (letters c inside)
    have isWord := wordAt_of_opens continuesValue solid.trimStart (isDot_iff.2 rfl)
    rw [List.dropWhile_eq_nil_iff.2 all] at isWord
    exact ⟨_, [], isWord, rfl⟩

/-- Where a name follows the dots and there is no value, a chain goes on. -/
theorem exists_linkAt {text : List Char} (solid : Solid text) (noValue : ¬ IsValue text)
    (goesOn : GoesOn text) : ∃ dots name rest, LinkAt text dots name rest := by
  obtain ⟨dots, c, rest, shape, filled, areDots, opens⟩ := goesOn
  have dotted : ∀ d ∈ dots, isDot d = true := fun d inside => isDot_iff.2 (areDots d inside)
  obtain ⟨d, others, rfl⟩ := List.exists_cons_of_ne_nil filled
  have later : Solid (c :: rest) := (shape ▸ solid).of_append
  have name := wordAt_of_opens continuesName later.trimStart (opensName_iff.2 opens)
  refine ⟨String.ofList (d :: others), _, _, fun value => noValue ((valueAt_iff solid).1 value),
    c :: rest, ⟨?_, ⟨d, others, String.toList_ofList, dotted d List.mem_cons_self, fun e inside =>
      dotted e (List.mem_cons_of_mem d inside)⟩, ?_⟩, name⟩
  · rw [solid.trimStart, shape, String.toList_ofList]
  · intro e isHead
    obtain rfl : c = e := by simpa using isHead
    exact isDot_of_opens opens

/-! ## What a chain leaves -/

namespace Links

variable {text rest : List Char} {parts : List String}

theorem alternates (links : Links text parts rest) {name : String} (isName : IsPlainName name) :
    Alternates (name :: parts) := by
  induction links generalizing name with
  | done ends => exact .one isName
  | more link later inductionHypothesis =>
      obtain ⟨-, middle, areDots, isNext⟩ := link
      exact .more isName areDots.isDots (inductionHypothesis isNext.isPlainName)

theorem append_eq (links : Links text parts rest) (solid : Solid text) :
    text = (String.join parts).toList ++ rest := by
  induction links with
  | done ends => simp
  | more link later inductionHypothesis =>
      obtain ⟨-, middle, areDots, isName⟩ := link
      obtain ⟨first, afterDots⟩ := areDots.solid_split solid
      obtain ⟨second, afterName⟩ := isName.solid_split afterDots
      rw [first, second, inductionHypothesis afterName]
      simp

theorem solid_rest (links : Links text parts rest) (solid : Solid text) : Solid rest := by
  rw [links.append_eq solid] at solid
  exact solid.of_append

theorem not_linkAt (links : Links text parts rest) :
    ∀ dots name after, ¬ LinkAt rest dots name after := by
  induction links with
  | done ends => exact ends
  | more link later inductionHypothesis => exact inductionHypothesis

/-- No name is cut short. -/
theorem stops (links : Links text parts rest)
    (stops : ∀ c ∈ text.head?, continuesName c = false) :
    ∀ c ∈ rest.head?, continuesName c = false := by
  induction links with
  | done ends => exact stops
  | more link later inductionHypothesis =>
      obtain ⟨-, middle, -, isName⟩ := link
      exact inductionHypothesis isName.ends

/-- No link takes in a value: wherever a chain is cut, what comes then is no value. -/
theorem not_isValue (links : Links text parts rest) (solid : Solid text)
    {front back : List String} (cut : parts = front ++ back) (filled : back ≠ []) :
    ¬ IsValue ((String.join back).toList ++ rest) := by
  induction links generalizing front with
  | done ends => exact absurd (List.append_eq_nil_iff.1 cut.symm).2 filled
  | @more text middle rest dots name parts link later inductionHypothesis =>
      have whole := (more link later).append_eq solid
      obtain ⟨noValue, afterDots, areDots, isName⟩ := link
      have behind : Solid middle :=
        (isName.solid_split (areDots.solid_split solid).2).2
      match front with
      | [] =>
          rw [List.nil_append] at cut
          rw [← cut, ← whole, ← valueAt_iff solid]
          exact noValue
      | [_] =>
          obtain ⟨-, rfl⟩ : dots = _ ∧ name :: parts = back := by simpa using cut
          rw [String.join_cons, String.toList_append, List.append_assoc]
          exact isName.isPlainName.not_isValue _
      | _ :: _ :: front =>
          obtain ⟨-, -, cut⟩ : dots = _ ∧ name = _ ∧ parts = front ++ back := by simpa using cut
          exact inductionHypothesis behind cut

end Links

theorem chainOf_links {token name : String} {middle rest : List Char} {parts : List String}
    (isName : WordAt opensName continuesName token.toList name middle)
    (links : Links middle parts rest) (solid : Solid token.toList) :
    ChainOf token (name :: parts) (String.ofList rest) := by
  obtain ⟨split, behind⟩ := isName.solid_split solid
  have left := links.solid_rest behind
  refine ⟨links.alternates isName.isPlainName, ?split, ?stops, ?ends, ?noValue⟩
  case split =>
    apply String.toList_injective
    rw [split, links.append_eq behind]
    simp
  case stops =>
    intro c isHead continues
    have stop := links.stops isName.ends c (by simpa using isHead)
    rw [continuesName_iff_alphanum.2 continues] at stop
    cases stop
  case ends =>
    rw [String.toList_ofList]
    by_cases isValue : IsValue rest
    · exact Or.inr (Or.inl isValue)
    · refine Or.inr (Or.inr fun goesOn => ?_)
      obtain ⟨dots, next, after, link⟩ := exists_linkAt left isValue goesOn
      exact links.not_linkAt dots next after link
  case noValue =>
    intro front back cut filled
    rw [String.toList_append, String.toList_ofList]
    cases front with
    | nil =>
        obtain rfl : name :: parts = back := by simpa using cut
        rw [String.join_cons, String.toList_append, List.append_assoc]
        exact isName.isPlainName.not_isValue _
    | cons _ front =>
        obtain ⟨-, cut⟩ : name = _ ∧ parts = front ++ back := by simpa using cut
        exact links.not_isValue behind cut filled

/-! ## Matches -/

theorem all_segments {found : Match} {parts : List String}
    (caught : found.captures = segments parts) : found.all segmentCapture = parts := by
  simp [Match.all, caught, segments, List.filter_map, Function.comp_def]

theorem alternates_parse {token : String} {found : Match}
    (matched : typeChain.parse token = .ok found) : Alternates (found.all segmentCapture) := by
  obtain ⟨rest, read⟩ := reader_of_parse_ok matched
  obtain ⟨name, middle, parts, isName, links, caught⟩ := typeChain_ok read
  rw [all_segments caught]
  exact links.alternates isName.isPlainName

/-- A chain of a token without blanks. -/
theorem chainOf_parse {token : String} (solid : Solid token.toList) {found : Match}
    (matched : typeChain.parse token = .ok found) :
    ∃ rest, ChainOf token (found.all segmentCapture) rest ∧
      found.stop = (String.join (found.all segmentCapture)).utf8ByteSize := by
  rw [parse_eq] at matched
  cases read : typeChain.pattern.reader token.toList with
  | error stuck => simp [read] at matched
  | ok reading =>
      obtain ⟨name, middle, parts, isName, links, caught⟩ := typeChain_ok read
      have chain := chainOf_links isName links solid
      simp only [read, caught, Except.ok.injEq] at matched
      subst matched
      rw [all_segments rfl]
      refine ⟨_, chain, ?_⟩
      have bytes := congrArg String.utf8ByteSize chain.split
      rw [String.utf8ByteSize_append, ← Pattern.byteLength_toList token,
        ← Pattern.byteLength_toList (String.ofList reading.rest), String.toList_ofList] at bytes
      dsimp only
      omega

theorem exists_parse_iff {token : String} (solid : Solid token.toList) :
    (∃ found, typeChain.parse token = .ok found) ↔
      ∃ c ∈ token.toList.head?, c.isAlpha = true ∨ c = '_' := by
  constructor
  · rintro ⟨found, matched⟩
    obtain ⟨rest, read⟩ := reader_of_parse_ok matched
    obtain ⟨name, middle, parts, isName, -, -⟩ := typeChain_ok read
    obtain ⟨split, -⟩ := isName.solid_split solid
    obtain ⟨c, others, shape, opened, -⟩ := isName.letters
    exact ⟨c, by simp [split, shape], opensName_iff.1 opened⟩
  · rintro ⟨c, isHead, opens⟩
    obtain ⟨others, shape⟩ := List.head?_eq_some_iff.1 isHead
    obtain ⟨found, read⟩ := exists_typeChain_ok (wordAt_of_opens continuesName
      (solid.trimStart.trans shape) (opensName_iff.2 opens))
    obtain ⟨stop, run⟩ := parse_of_reader_ok read
    exact ⟨_, run⟩

/-- A token without blanks is read if it starts like a name, and only then. The match has the one
chain of the token and ends behind it. If there is more than one name, leaving out the last two
parts leaves out the last run of dots with the name behind it. -/
theorem typeChain_takes_chain {token : String} (solid : Solid token.toList) :
    ((∃ found, typeChain.parse token = .ok found) ↔
        ∃ c ∈ token.toList.head?, c.isAlpha = true ∨ c = '_') ∧
      ∀ found, typeChain.parse token = .ok found →
        ∃ parts rest, found.all segmentCapture = parts ∧ ChainOf token parts rest ∧
          (∀ others other, ChainOf token others other → others = parts) ∧
          found.stop = (String.join parts).utf8ByteSize ∧
          (1 < parts.length → Alternates (parts.take (parts.length - 2)) ∧
            ∃ dots name, IsDots dots ∧ IsPlainName name ∧
              String.join parts = String.join (parts.take (parts.length - 2)) ++ dots ++ name) := by
  refine ⟨exists_parse_iff solid, fun found matched => ?_⟩
  obtain ⟨rest, chain, stop⟩ := chainOf_parse solid matched
  refine ⟨_, rest, rfl, chain, fun others other second => second.unique chain, stop, ?_⟩
  intro several
  obtain ⟨before, dots, name, areDots, isName, split⟩ := chain.alternates.take_two several
  refine ⟨before, dots, name, areDots, isName, ?_⟩
  conv_lhs => rw [split]
  simp [String.append_assoc]

theorem typeChain_takes_chain_enumValue :
    Solid "Inventory.Slot.KIND_2".toList ∧
      ∃ found, typeChain.parse "Inventory.Slot.KIND_2" = .ok found ∧
        found.all segmentCapture = ["Inventory", ".", "Slot"] ∧ found.stop = 14 ∧
        (∃ rest, ChainOf "Inventory.Slot.KIND_2" ["Inventory", ".", "Slot"] rest) ∧
        Alternates ["Inventory"] := by
  have solid : Solid "Inventory.Slot.KIND_2".toList := by decide +kernel
  have parsed : typeChain.parse "Inventory.Slot.KIND_2" =
      .ok ⟨segments ["Inventory", ".", "Slot"], 14⟩ := by
    decide +kernel
  obtain ⟨parts, rest, caught, chain, -, -, several⟩ :=
    (typeChain_takes_chain solid).2 _ parsed
  obtain rfl : parts = ["Inventory", ".", "Slot"] := by rw [← caught, all_segments rfl]
  exact ⟨solid, _, parsed, caught, rfl, ⟨rest, chain⟩, (several (by decide)).1⟩

/-- Of two dots neither stays when the name behind them is left out. -/
theorem not_one_dot_left_out_doubled :
    Solid "A..B".toList ∧ ∃ found, typeChain.parse "A..B" = .ok found ∧
      ¬ ∃ name, IsPlainName name ∧ String.join (found.all segmentCapture) =
        String.join ((found.all segmentCapture).take ((found.all segmentCapture).length - 2)) ++
          "." ++ name := by
  have parsed : typeChain.parse "A..B" = .ok ⟨segments ["A", "..", "B"], 4⟩ := by decide +kernel
  refine ⟨by decide +kernel, _, parsed, ?_⟩
  rintro ⟨name, ⟨c, others, shape, opens, -⟩, same⟩
  have letters := congrArg String.toList same
  rw [all_segments rfl] at letters
  simp [shape] at letters
  obtain ⟨rfl, -⟩ := letters
  revert opens
  decide

end GodotGraph.Grammar
