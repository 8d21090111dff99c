import GodotGraph.Pattern.CharClass
import GodotGraph.Pattern.Matcher

/-!
Contract: patterns, the declarative rules that a grammar is made of.

Owns:
- the ways of building a pattern;
- the description of a pattern in a mismatch;
- the matcher of a pattern.

Blanks before every word, keyword and literal are skipped, so that a pattern does
not depend on how the tokens of a window were joined.
-/

set_option autoImplicit false

namespace GodotGraph

/-- A rule that text may match. -/
inductive Pattern where
  /-- Exact text that ends where an identifier would end. -/
  | keyword (text : String)
  /-- Exact text. -/
  | literal (text : String)
  /-- One opening character and any number of continuing ones. -/
  | word (opens continues : Pattern.CharClass)
  /-- Every part in order. -/
  | seq (parts : List Pattern)
  /-- The alternative that reads furthest. -/
  | longest (alternatives : List Pattern)
  /-- The first alternative that matches. -/
  | first (alternatives : List Pattern)
  /-- The inner pattern or nothing. -/
  | optional (inner : Pattern)
  /-- The inner pattern any number of times. -/
  | zeroOrMore (inner : Pattern)
  /-- Every member once, in any order; optional members may be absent. -/
  | anyOrder (members : List Pattern)
  /-- Anything up to the place where the target matches. -/
  | skipTo (target : Pattern)
  /-- The inner pattern comes next. -/
  | ahead (inner : Pattern)
  /-- The inner pattern does not come next. -/
  | notAhead (inner : Pattern)
  /-- Nothing but blanks comes next. -/
  | windowEnd
  /-- The inner pattern without its captures. -/
  | silent (inner : Pattern)
  /-- The inner pattern, captured under a name. -/
  | named (name : String) (inner : Pattern)
  deriving Repr

namespace Pattern

/-- What a mismatch says was expected. -/
def describe : Pattern → String
  | keyword text => "keyword '" ++ text ++ "'"
  | literal text => "'" ++ text ++ "'"
  | word _ _ => "word"
  | seq [] => "empty sequence"
  | seq (head :: _) => describe head
  | longest _ => "one of several alternatives"
  | first _ => "one of several alternatives"
  | optional inner => describe inner
  | zeroOrMore inner => describe inner
  | anyOrder _ => "group of fields"
  | skipTo target => describe target ++ " somewhere ahead"
  | ahead inner => "lookahead " ++ describe inner
  | notAhead inner => "anything but " ++ describe inner
  | windowEnd => "end of window"
  | silent inner => describe inner
  | named name _ => name

mutual

def matcher : Pattern → Matcher
  | keyword text => Matcher.keyword (keyword text).describe text.toList
  | literal text => Matcher.literal (literal text).describe text.toList
  | word opens continues =>
      Matcher.word (word opens continues).describe opens.contains continues.contains
  | seq parts => Matcher.sequence (matchers parts)
  | longest alternatives => Matcher.longest (longest alternatives).describe (matchers alternatives)
  | first alternatives => Matcher.first (first alternatives).describe (matchers alternatives)
  | optional inner => Matcher.optional (matcher inner)
  | zeroOrMore inner => Matcher.zeroOrMore (matcher inner)
  | anyOrder group => Matcher.anyOrder (members group)
  | skipTo target => Matcher.skipTo (skipTo target).describe (matcher target)
  | ahead inner => Matcher.ahead (matcher inner)
  | notAhead inner => Matcher.notAhead (notAhead inner).describe (matcher inner)
  | windowEnd => Matcher.windowEnd windowEnd.describe
  | silent inner => Matcher.silent (matcher inner)
  | named name inner => Matcher.named name (matcher inner)

def matchers : List Pattern → List Matcher
  | [] => []
  | pattern :: others => matcher pattern :: matchers others

/-- The members of a group: an optional one stands for its inner pattern. -/
def members : List Pattern → List Matcher.Member
  | [] => []
  | optional inner :: others => ⟨false, inner.describe, matcher inner⟩ :: members others
  | pattern :: others => ⟨true, pattern.describe, matcher pattern⟩ :: members others

end

/-- The pattern between a pair of double quotes. -/
def quoted (inner : Pattern) : Pattern :=
  seq [silent (literal "\""), inner, silent (literal "\"")]

end Pattern

end GodotGraph
