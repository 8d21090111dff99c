import GodotGraph.Proofs.Grammar.Load
import GodotGraph.Proofs.Script.Outline
import GodotGraph.Proofs.Token.Cut

/-!
Contract: the token streams of a script with its comments and without them.

Owns:
- the text of a script without its comments;
- fragments, which are the tokens of a script cut where comments start;
- the two streams as two readings of the same fragments.

A comment may start right after a word of code. That word and the first word of the
comment are one token then, which is neither of the two.
-/

set_option autoImplicit false

namespace GodotGraph

namespace Scope

/-- What a cut takes off a line is nothing, or it starts with the marker. -/
theorem cutLine_append (mark : Char) (line : List Char) :
    ∃ comment, line = cutLine [mark] line ++ comment ∧
      (comment = [] ∨ ∃ rest, comment = mark :: rest) := by
  have general : ∀ quoted, ∃ comment, line = cutOutside [mark] quoted line ++ comment ∧
      (comment = [] ∨ ∃ rest, comment = mark :: rest) := by
    induction line with
    | nil => exact fun quoted => ⟨[], rfl, Or.inl rfl⟩
    | cons c rest inductionHypothesis =>
        intro quoted
        unfold cutOutside
        split
        · obtain ⟨comment, split, form⟩ := inductionHypothesis (!quoted)
          exact ⟨comment, by rw [List.cons_append, ← split], form⟩
        · split
          · next both =>
              obtain ⟨_, starts⟩ := Bool.and_eq_true_iff.1 both
              have head : mark = c :=
                (List.cons_prefix_cons.1 (List.isPrefixOf_iff_prefix.1 starts)).1
              exact ⟨c :: rest, rfl, Or.inr ⟨rest, by rw [head]⟩⟩
          · obtain ⟨comment, split, form⟩ := inductionHypothesis quoted
            exact ⟨comment, by rw [List.cons_append, ← split], form⟩
  exact general false

end Scope

namespace Script

open Grammar (commentMark closeMark closeToken)
open Token (newline ofGodot ofLines isSolid isBreak)

/-! ## Comments of lines -/

/-- The comment of a line, with its mark. -/
def commentOf (line : List Char) : List Char :=
  line.drop (bareLine line).length

/-- A line is its code and its comment, and a comment starts with its mark. -/
theorem bareLine_append_commentOf (line : List Char) :
    bareLine line ++ commentOf line = line ∧
      (commentOf line = [] ∨ ∃ rest, commentOf line = commentMark :: rest) := by
  obtain ⟨comment, split, form⟩ := Scope.cutLine_append commentMark line
  have whole : line = bareLine line ++ comment := split
  have dropped : commentOf line = comment := by
    have both := congrArg (List.drop (bareLine line).length) whole
    rwa [List.drop_left] at both
  rw [dropped]
  exact ⟨whole.symm, form⟩

/-- The text of a script, every line cut at its comment. -/
def uncommented (text : String) : String :=
  String.ofList (['\n'].intercalate ((Text.pieces '\n' text.toList).map bareLine))

/-! ## Fragments -/

/-- A part of a script that both streams show, or one that they show differently. -/
inductive Fragment where
  /-- A token of code. -/
  | code (token : String)
  /-- A comment: the word of code right before it, empty if there is none, the first word
  of the comment, and the tokens after that word. -/
  | comment (word first : String) (rest : List String)
  deriving DecidableEq, Repr

namespace Fragment

/-- The tokens of a script as it is. -/
def full : Fragment → List String
  | code token => [token]
  | comment word first rest => (word ++ first) :: rest

/-- The tokens of a script without its comments. -/
def bare : Fragment → List String
  | code token => [token]
  | comment word _ _ => if word = "" then [] else [word]

end Fragment

/-- The stream of some fragments with their comments. -/
def fullStream (fragments : List Fragment) : List String :=
  fragments.flatMap Fragment.full

/-- The stream of some fragments without their comments. -/
def bareStream (fragments : List Fragment) : List String :=
  fragments.flatMap Fragment.bare

@[simp] theorem fullStream_nil : fullStream [] = [] := rfl

@[simp] theorem bareStream_nil : bareStream [] = [] := rfl

@[simp] theorem fullStream_cons (fragment : Fragment) (rest : List Fragment) :
    fullStream (fragment :: rest) = fragment.full ++ fullStream rest := by
  simp [fullStream]

@[simp] theorem bareStream_cons (fragment : Fragment) (rest : List Fragment) :
    bareStream (fragment :: rest) = fragment.bare ++ bareStream rest := by
  simp [bareStream]

/-- The fragments of a line, cut where the comment starts. -/
def lineFragments (line : List Char) : List Fragment :=
  let code := bareLine line
  let comment := commentOf line
  if comment = [] then (ofGodot code).map .code
  else
    (ofGodot (code.rdropWhile isSolid)).map .code ++
      [.comment (String.ofList (code.rtakeWhile isSolid))
        (String.ofList (comment.takeWhile isSolid)) (ofGodot (comment.dropWhile isSolid))]

/-- The fragments of a text, with a newline before each line. -/
def fragmentsOf (text : String) : List Fragment :=
  (Text.pieces '\n' text.toList).flatMap fun line => .code newline :: lineFragments line

theorem fullStream_map_code (tokens : List String) :
    fullStream (tokens.map .code) = tokens := by
  induction tokens with
  | nil => rfl
  | cons token rest inductionHypothesis =>
      rw [List.map_cons, fullStream_cons, inductionHypothesis]
      rfl

theorem bareStream_map_code (tokens : List String) :
    bareStream (tokens.map .code) = tokens := by
  induction tokens with
  | nil => rfl
  | cons token rest inductionHypothesis =>
      rw [List.map_cons, bareStream_cons, inductionHypothesis]
      rfl

theorem fullStream_append (first second : List Fragment) :
    fullStream (first ++ second) = fullStream first ++ fullStream second :=
  List.flatMap_append

theorem bareStream_append (first second : List Fragment) :
    bareStream (first ++ second) = bareStream first ++ bareStream second :=
  List.flatMap_append

/-! ## The streams of a script -/

theorem isSolid_commentMark : isSolid commentMark = true := by
  decide

/-- The last word before a comment is a token of its own. -/
theorem ofGodot_rtakeWhile (code : List Char) :
    ofGodot code = ofGodot (code.rdropWhile isSolid) ++
      (Fragment.comment (String.ofList (code.rtakeWhile isSolid)) "" []).bare := by
  have cut := Token.ofGodot_append_of_getLast? (Token.rdropWhile_isSolid_breaks code)
    (code.rtakeWhile isSolid)
  rw [List.rdropWhile_append_rtakeWhile] at cut
  rw [cut]
  congr 1
  by_cases empty : code.rtakeWhile isSolid = []
  · simp [empty, Fragment.bare]
  · have solid : ∀ c ∈ code.rtakeWhile isSolid, isSolid c = true :=
      fun c member => List.mem_rtakeWhile_imp member
    rw [Token.ofGodot_solid empty solid]
    simp [Fragment.bare, empty]

theorem bareStream_lineFragments (line : List Char) :
    bareStream (lineFragments line) = ofGodot (bareLine line) := by
  rw [lineFragments]
  split
  · exact bareStream_map_code _
  · rw [bareStream_append, bareStream_map_code, ofGodot_rtakeWhile (bareLine line)]
    simp [Fragment.bare]

theorem fullStream_lineFragments (line : List Char) :
    fullStream (lineFragments line) = ofGodot line := by
  obtain ⟨whole, form⟩ := bareLine_append_commentOf line
  rw [lineFragments]
  split
  · next none =>
      rw [none, List.append_nil] at whole
      rw [fullStream_map_code, whole]
  · next isComment =>
      obtain ⟨rest, shape⟩ := form.resolve_left isComment
      generalize commentOf line = comment at whole shape
      have front := Token.rdropWhile_isSolid_breaks (bareLine line)
      have back := Token.dropWhile_isSolid_breaks comment
      -- The word before the comment and the first word of the comment are one solid run.
      have filled : (bareLine line).rtakeWhile isSolid ++ comment.takeWhile isSolid ≠ [] := by
        rw [shape, List.takeWhile_cons_of_pos isSolid_commentMark]
        simp
      have solid : ∀ c ∈ (bareLine line).rtakeWhile isSolid ++ comment.takeWhile isSolid,
          isSolid c = true := by
        intro c member
        rcases List.mem_append.1 member with before | after
        · exact List.mem_rtakeWhile_imp before
        · exact List.mem_takeWhile_imp after
      have split : line = (bareLine line).rdropWhile isSolid ++
          (((bareLine line).rtakeWhile isSolid ++ comment.takeWhile isSolid) ++
            comment.dropWhile isSolid) := by
        rw [← List.append_assoc, ← List.append_assoc, List.rdropWhile_append_rtakeWhile,
          List.append_assoc, List.takeWhile_append_dropWhile, whole]
      conv_rhs => rw [split]
      rw [Token.ofGodot_append_of_getLast? front, Token.ofGodot_append_of_head? back,
        Token.ofGodot_solid filled solid, fullStream_append, fullStream_map_code]
      simp [Fragment.full]

theorem streams_flatMap_lines (lines : List (List Char)) :
    fullStream (lines.flatMap fun line => .code newline :: lineFragments line) = ofLines lines ∧
      bareStream (lines.flatMap fun line => .code newline :: lineFragments line) =
        ofLines (lines.map bareLine) := by
  induction lines with
  | nil => exact ⟨rfl, rfl⟩
  | cons line rest inductionHypothesis =>
      obtain ⟨full, bare⟩ := inductionHypothesis
      constructor
      · rw [List.flatMap_cons, fullStream_append, full, fullStream_cons, fullStream_lineFragments]
        rfl
      · rw [List.flatMap_cons, bareStream_append, bare, bareStream_cons, bareStream_lineFragments]
        rfl

theorem newline_ofSource_intercalate {lines : List (List Char)} (filled : lines ≠ []) :
    newline :: Token.ofSource (String.ofList (['\n'].intercalate lines)) = ofLines lines := by
  cases lines with
  | nil => exact absurd rfl filled
  | cons line rest =>
      rw [Token.ofSource, Token.ofText_godot, String.toList_ofList, Token.ofGodot_intercalate]
      rfl

/-- With their comments, the fragments of a text are its tokens. -/
theorem fullStream_fragmentsOf (text : String) :
    fullStream (fragmentsOf text) = newline :: Token.ofSource text := by
  have joined := newline_ofSource_intercalate (Text.pieces_ne_nil '\n' text.toList)
  rw [Text.intercalate_pieces, String.ofList_toList] at joined
  rw [fragmentsOf, (streams_flatMap_lines _).1, joined]

/-- Without their comments, they are the tokens of the text without comments. -/
theorem bareStream_fragmentsOf (text : String) :
    bareStream (fragmentsOf text) = newline :: Token.ofSource (uncommented text) := by
  have filled : (Text.pieces '\n' text.toList).map bareLine ≠ [] := by
    simpa using Text.pieces_ne_nil '\n' text.toList
  rw [fragmentsOf, (streams_flatMap_lines _).2, uncommented, newline_ofSource_intercalate filled]

/-! ## Sound fragments -/

/-- Comments start with their mark and end with the line, and no word of code holds the
mark that closes a call. -/
def Sound : List Fragment → Prop
  | [] => True
  | .code token :: rest => (closeMark ∈ token.toList → token = closeToken) ∧ Sound rest
  | .comment word first _ :: rest =>
      (∀ c ∈ word.toList, isSolid c = true) ∧ (∃ tail, first.toList = commentMark :: tail) ∧
        (∀ next ∈ rest.head?, next = .code newline) ∧ Sound rest

theorem sound_map_code_append {tokens : List String}
    (closed : ∀ token ∈ tokens, closeMark ∈ token.toList → token = closeToken)
    {rest : List Fragment} (sound : Sound rest) : Sound (tokens.map .code ++ rest) := by
  induction tokens with
  | nil => exact sound
  | cons token others inductionHypothesis =>
      exact ⟨closed token List.mem_cons_self,
        inductionHypothesis fun other member => closed other (List.mem_cons_of_mem _ member)⟩

theorem sound_lineFragments_append (line : List Char) {rest : List Fragment}
    (next : ∀ fragment ∈ rest.head?, fragment = .code newline) (sound : Sound rest) :
    Sound (lineFragments line ++ rest) := by
  have closed : ∀ text : List Char, ∀ token ∈ ofGodot text,
      closeMark ∈ token.toList → token = closeToken :=
    fun _ => Token.eq_mark_of_mem (by decide)
  obtain ⟨_, form⟩ := bareLine_append_commentOf line
  rw [lineFragments]
  split
  · exact sound_map_code_append (closed _) sound
  · next isComment =>
      obtain ⟨tail, shape⟩ := form.resolve_left isComment
      rw [List.append_assoc]
      refine sound_map_code_append (closed _) ⟨?_, ?_, next, sound⟩
      · intro c member
        rw [String.toList_ofList] at member
        exact List.mem_rtakeWhile_imp member
      · rw [String.toList_ofList, shape, List.takeWhile_cons_of_pos isSolid_commentMark]
        exact ⟨_, rfl⟩

theorem sound_fragmentsOf (text : String) : Sound (fragmentsOf text) := by
  have general : ∀ lines : List (List Char),
      Sound (lines.flatMap fun line => .code newline :: lineFragments line) ∧
        ∀ fragment ∈ (lines.flatMap fun line =>
          Fragment.code newline :: lineFragments line).head?, fragment = .code newline := by
    intro lines
    induction lines with
    | nil => exact ⟨trivial, by simp⟩
    | cons line rest inductionHypothesis =>
        obtain ⟨sound, next⟩ := inductionHypothesis
        refine ⟨⟨?_, sound_lineFragments_append line next sound⟩, by simp⟩
        intro member
        exact absurd member (by decide)
  exact (general _).1

end Script

end GodotGraph
