import GodotGraph.Proofs.Grammar.Identifier

/-!
Contract: dotted names, written as names and separators in turn.

Owns:
- plain names, runs of dots, and lists in which they alternate;
- values, which are a dot and capital letters, and places where a dotted name goes on;
- the chain of a token, of which there is one at most.

Does not own: the grammar that reads a chain.
-/

set_option autoImplicit false

namespace GodotGraph.Grammar

open Pattern (CharClass)

/-! ## Names and separators in turn -/

/-- A letter or underscore, then letters, digits and underscores. -/
def IsPlainName (name : String) : Prop :=
  ∃ c others, name.toList = c :: others ∧ (c.isAlpha = true ∨ c = '_') ∧
    ∀ d ∈ others, d.isAlphanum = true ∨ d = '_'

/-- One dot or more. -/
def IsDots (dots : String) : Prop :=
  dots ≠ "" ∧ ∀ c ∈ dots.toList, c = '.'

/-- Names with dots between them. -/
inductive Alternates : List String → Prop where
  | one {name : String} (isName : IsPlainName name) : Alternates [name]
  | more {name dots : String} {parts : List String} (isName : IsPlainName name)
      (areDots : IsDots dots) (later : Alternates parts) : Alternates (name :: dots :: parts)

/-- The separator of a chain. -/
def isDot (c : Char) : Bool := (CharClass.chars ".").contains c

theorem opensName_iff {c : Char} : opensName c = true ↔ c.isAlpha = true ∨ c = '_' := by
  simp [opensName_eq]

theorem continuesName_iff_alphanum {c : Char} :
    continuesName c = true ↔ c.isAlphanum = true ∨ c = '_' := by
  simp [continuesName_eq]

theorem isDot_iff {c : Char} : isDot c = true ↔ c = '.' := by
  simp [isDot, CharClass.contains, CharClass.chars]

theorem isDot_of_opens {c : Char} (opens : c.isAlpha = true ∨ c = '_') : isDot c = false := by
  rw [Bool.eq_false_iff, Ne, isDot_iff]
  rintro rfl
  revert opens
  decide

theorem IsPlainName.continues {name : String} (isName : IsPlainName name) :
    ∀ c ∈ name.toList, continuesName c = true := by
  obtain ⟨first, others, shape, opens, letters⟩ := isName
  intro c inside
  rw [shape, List.mem_cons] at inside
  rcases inside with rfl | later
  · exact continuesName_of_opensName (opensName_iff.2 opens)
  · exact continuesName_iff_alphanum.2 (letters c later)

theorem IsDots.exists_head {dots : String} (areDots : IsDots dots) :
    ∃ others, dots.toList = '.' :: others := by
  obtain ⟨filled, all⟩ := areDots
  obtain ⟨c, others, shape⟩ := List.exists_cons_of_ne_nil (mt String.toList_eq_nil_iff.1 filled)
  obtain rfl : c = '.' := all c (by simp [shape])
  exact ⟨others, shape⟩

namespace Alternates

/-- At the end stand dots and a name, unless there is only one name. -/
theorem split_last {parts : List String} (alternates : Alternates parts) :
    (∃ name, parts = [name]) ∨
      ∃ front dots name, parts = front ++ [dots, name] ∧ Alternates front ∧ IsDots dots ∧
        IsPlainName name := by
  induction alternates with
  | one isName => exact Or.inl ⟨_, rfl⟩
  | @more name dots parts isName areDots later inductionHypothesis =>
      right
      rcases inductionHypothesis with ⟨last, rfl⟩ | ⟨front, lastDots, last, rfl, before, areLast,
        isLast⟩
      · cases later with
        | one isLast => exact ⟨[name], dots, last, rfl, .one isName, areDots, isLast⟩
      · exact ⟨name :: dots :: front, lastDots, last, rfl, .more isName areDots before, areLast,
          isLast⟩

/-- Without its last two parts, a chain of more than one name lacks the last run of dots and the
name behind it. -/
theorem take_two {parts : List String} (alternates : Alternates parts)
    (several : 1 < parts.length) :
    Alternates (parts.take (parts.length - 2)) ∧ ∃ dots name, IsDots dots ∧ IsPlainName name ∧
      parts = parts.take (parts.length - 2) ++ [dots, name] := by
  rcases alternates.split_last with ⟨name, rfl⟩ | ⟨front, dots, name, rfl, before, areDots, isName⟩
  · simp at several
  · have short : (front ++ [dots, name]).length - 2 = front.length := by simp
    rw [short, List.take_left]
    exact ⟨before, dots, name, areDots, isName, rfl⟩

/-- A name comes first. -/
theorem exists_head {parts : List String} (alternates : Alternates parts) :
    ∃ c others, (String.join parts).toList = c :: others ∧ (c.isAlpha = true ∨ c = '_') := by
  cases alternates with
  | one isName =>
      obtain ⟨c, others, shape, opens, -⟩ := isName
      exact ⟨c, others, by simp [shape], opens⟩
  | more isName areDots later =>
      obtain ⟨c, others, shape, opens, -⟩ := isName
      exact ⟨c, _, by rw [String.join_cons, String.toList_append, shape]; rfl, opens⟩

theorem join_ne_empty {parts : List String} (alternates : Alternates parts) :
    String.join parts ≠ "" := by
  obtain ⟨c, others, shape, -⟩ := alternates.exists_head
  intro empty
  rw [empty] at shape
  cases shape

end Alternates

/-! ## Chains -/

/-- One dot, then capital letters, digits and underscores only. -/
def IsValue (text : List Char) : Prop :=
  ∃ word, text = '.' :: word ∧ ∀ c ∈ word, c.isUpper = true ∨ c.isDigit = true ∨ c = '_'

/-- Dots with the first character of a name behind them. -/
def GoesOn (text : List Char) : Prop :=
  ∃ dots c rest, text = dots ++ c :: rest ∧ dots ≠ [] ∧ (∀ d ∈ dots, d = '.') ∧
    (c.isAlpha = true ∨ c = '_')

/-- The parts of a chain that a token starts with, and the rest of the token. -/
structure ChainOf (token : String) (parts : List String) (rest : String) : Prop where
  alternates : Alternates parts
  split : token = String.join parts ++ rest
  /-- The last name is not cut short. -/
  stops : ∀ c ∈ rest.toList.head?, ¬ (c.isAlphanum = true ∨ c = '_')
  ends : rest = "" ∨ IsValue rest.toList ∨ ¬ GoesOn rest.toList
  /-- No value at the end of the token belongs to the chain. -/
  noValue : ∀ {front back : List String}, parts = front ++ back → back ≠ [] →
    ¬ IsValue (String.join back ++ rest).toList

theorem IsPlainName.not_isValue {name : String} (isName : IsPlainName name) (tail : List Char) :
    ¬ IsValue (name.toList ++ tail) := by
  obtain ⟨c, others, shape, opens, -⟩ := isName
  rintro ⟨word, value, -⟩
  rw [shape, List.cons_append, List.cons.injEq] at value
  rw [value.1] at opens
  revert opens
  decide

/-! ## One chain for each token -/

theorem eq_takeWhile_append {wanted : Char → Bool} {front rest : List Char}
    (inside : ∀ c ∈ front, wanted c = true) (stops : ∀ c ∈ rest.head?, wanted c = false) :
    front = (front ++ rest).takeWhile wanted := by
  rw [(takeWhile_append_of_stop front (takeWhile_eq_nil_of_head stops)).1,
    List.takeWhile_eq_self_iff.2 inside]

namespace ChainOf

variable {token name dots rest : String} {parts : List String}

theorem tail (chain : ChainOf token (name :: dots :: parts) rest) :
    ChainOf (String.join parts ++ rest) parts rest where
  alternates := by
    cases chain.alternates with
    | more isName areDots later => exact later
  split := rfl
  stops := chain.stops
  ends := chain.ends
  noValue := by
    intro front back cut filled
    exact chain.noValue (show name :: dots :: parts = (name :: dots :: front) ++ back by
      rw [cut]; rfl) filled

theorem name_eq (chain : ChainOf token (name :: parts) rest) :
    name.toList = token.toList.takeWhile continuesName := by
  have shape : token.toList = name.toList ++ (String.join parts ++ rest).toList := by
    rw [chain.split]
    simp
  rw [shape]
  cases chain.alternates with
  | one isName =>
      refine eq_takeWhile_append isName.continues fun c isHead => ?_
      have stop := chain.stops c (by simpa using isHead)
      rwa [← continuesName_iff_alphanum, Bool.not_eq_true] at stop
  | @more _ dots parts isName areDots later =>
      refine eq_takeWhile_append isName.continues fun c isHead => ?_
      obtain ⟨others, shape⟩ := areDots.exists_head
      obtain rfl : '.' = c := by simpa [shape] using isHead
      decide

theorem dots_eq (chain : ChainOf token (name :: dots :: parts) rest) :
    dots.toList = (String.join (dots :: parts) ++ rest).toList.takeWhile isDot := by
  cases chain.alternates with
  | more isName areDots later =>
      obtain ⟨c, others, shape, opens⟩ := later.exists_head
      rw [String.join_cons, String.append_assoc, String.toList_append]
      have dotted : ∀ d ∈ dots.toList, isDot d = true := fun d inside =>
        isDot_iff.2 (areDots.2 d inside)
      refine eq_takeWhile_append dotted fun d isHead => ?_
      obtain rfl : c = d := by simpa [shape] using isHead
      exact isDot_of_opens opens

/-- Where a chain goes on, it does not end: what is left would be a value. -/
theorem not_longer {other : String} (short : ChainOf token [name] rest)
    (long : ChainOf token (name :: dots :: parts) other) : False := by
  have left : rest = String.join (dots :: parts) ++ other := by
    have same := short.split.symm.trans long.split
    simpa [String.append_assoc] using same
  cases long.alternates with
  | more isName areDots later =>
      obtain ⟨c, others, shape, opens⟩ := later.exists_head
      obtain ⟨filled, all⟩ := areDots
      have goesOn : GoesOn rest.toList :=
        ⟨dots.toList, c, others ++ other.toList, by simp [left, shape],
          mt String.toList_eq_nil_iff.1 filled, all, opens⟩
      rcases short.ends with rfl | value | never
      · obtain ⟨dots, c, others, empty, -⟩ := goesOn
        simp at empty
      · rw [left] at value
        exact long.noValue (show name :: dots :: parts = [name] ++ dots :: parts from rfl)
          (List.cons_ne_nil _ _) value
      · exact never goesOn

/-- A token has one chain at most. -/
theorem unique {others : List String} {other : String} (left : ChainOf token parts rest)
    (right : ChainOf token others other) : parts = others := by
  have alternates := left.alternates
  induction alternates generalizing token others with
  | @one name isName =>
      cases right.alternates with
      | @one otherName otherIsName =>
          rw [String.toList_injective (left.name_eq.trans right.name_eq.symm)]
      | @more otherName dots parts otherIsName areDots later =>
          obtain rfl := String.toList_injective (left.name_eq.trans right.name_eq.symm)
          exact (left.not_longer right).elim
  | @more name dots parts isName areDots later inductionHypothesis =>
      cases right.alternates with
      | @one otherName otherIsName =>
          obtain rfl := String.toList_injective (left.name_eq.trans right.name_eq.symm)
          exact (right.not_longer left).elim
      | @more otherName otherDots otherParts otherIsName otherAreDots otherLater =>
          obtain rfl := String.toList_injective (left.name_eq.trans right.name_eq.symm)
          have behindName : String.join (dots :: parts) ++ rest =
              String.join (otherDots :: otherParts) ++ other := by
            have same := left.split.symm.trans right.split
            simpa [String.append_assoc] using same
          obtain rfl : dots = otherDots := String.toList_injective (by
            rw [left.dots_eq, right.dots_eq, behindName])
          have behindDots : String.join parts ++ rest = String.join otherParts ++ other := by
            simpa [String.append_assoc] using behindName
          rw [inductionHypothesis left.tail (behindDots ▸ right.tail)]

end ChainOf

end GodotGraph.Grammar
