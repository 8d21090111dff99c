/-!
Contract: blank characters, and cutting text at them.

Owns:
- the class of blank characters, which is the white-space property of the
  character standard;
- trimming, words and lines of a text;
- the facts that trimming and cutting never invent characters.

Does not own: tokens. A newline is an ordinary blank here.
-/

set_option autoImplicit false

namespace GodotGraph.Text

/-- The characters with the white-space property: five controls, the space, the
next-line control, the no-break space, and the separators of other scripts. -/
def isBlank (c : Char) : Bool :=
  (9 ≤ c.toNat && c.toNat ≤ 13) || c.toNat == 0x20 || c.toNat == 0x85 || c.toNat == 0xA0 ||
    c.toNat == 0x1680 || (0x2000 ≤ c.toNat && c.toNat ≤ 0x200A) || c.toNat == 0x2028 ||
    c.toNat == 0x2029 || c.toNat == 0x202F || c.toNat == 0x205F || c.toNat == 0x3000

def trimStart (text : List Char) : List Char :=
  text.dropWhile isBlank

def trimEnd (text : List Char) : List Char :=
  (text.reverse.dropWhile isBlank).reverse

def trim (text : List Char) : List Char :=
  trimEnd (trimStart text)

def trimmed (text : String) : String :=
  String.ofList (trim text.toList)

def allBlank (text : List Char) : Bool :=
  text.all isBlank

/-- The pieces between the separators; one more piece than there are separators. -/
def pieces (separator : Char) : List Char → List (List Char)
  | [] => [[]]
  | c :: rest =>
      if c = separator then [] :: pieces separator rest
      else
        match pieces separator rest with
        | [] => [[c]]
        | piece :: others => (c :: piece) :: others

/-- The first run of characters other than blanks. -/
def firstWord (text : List Char) : Option (List Char) :=
  match trimStart text with
  | [] => none
  | rest => some (rest.takeWhile fun c => !isBlank c)

/-- Drops a carriage return that ends the text. -/
def dropReturn (text : List Char) : List Char :=
  if text.getLast? = some '\r' then text.dropLast else text

/-- The lines of a list of pieces: every piece but the last was closed by a
newline and loses the carriage return before it; an empty last piece is no line. -/
def linesOfPieces : List (List Char) → List (List Char)
  | [] => []
  | [last] => if last.isEmpty then [] else [last]
  | piece :: rest => dropReturn piece :: linesOfPieces rest

/-- The lines of a text, without their line ends. -/
def lines (text : List Char) : List (List Char) :=
  linesOfPieces (pieces '\n' text)

/-- The first character is no blank after the leading blanks are gone. -/
theorem trimStart_head {text : List Char} {c : Char} {rest : List Char}
    (shape : trimStart text = c :: rest) : isBlank c = false := by
  induction text with
  | nil => simp [trimStart] at shape
  | cons head tail inductionHypothesis =>
      by_cases blank : isBlank head = true
      · have : trimStart tail = c :: rest := by
          simpa [trimStart, List.dropWhile_cons, blank] using shape
        exact inductionHypothesis this
      · have : head = c ∧ tail = rest := by
          simpa [trimStart, List.dropWhile_cons, blank] using shape
        simpa [← this.1] using blank

/-- Trimming the front of a text drops a run of blanks and nothing else. -/
theorem trimStart_append (text : List Char) :
    ∃ blanks : List Char, (∀ c ∈ blanks, isBlank c = true) ∧ text = blanks ++ trimStart text := by
  refine ⟨text.takeWhile isBlank, ?_, (List.takeWhile_append_dropWhile).symm⟩
  intro c member
  exact List.all_eq_true.1 List.all_takeWhile c member

/-- The pieces of a text are never none. -/
theorem pieces_ne_nil (separator : Char) (text : List Char) : pieces separator text ≠ [] := by
  cases text with
  | nil => simp [pieces]
  | cons c rest =>
      unfold pieces
      split
      · simp
      · split <;> simp

end GodotGraph.Text
