import GodotGraph.Proofs.Script.Preamble

/-!
Contract: how far the scan of a preamble looks.

Owns:
- the names that the windows of a stream declare, and the place where the scan stops;
- the facts of a preamble as the last declarations up to that place, and its counts;
- the independence of both from everything behind the keyword that opens the body.

A window reaches over that keyword, up to the end of its line. It makes no difference: a
declaration takes the first word after its own keyword, and no body keyword is a name.
Nothing is asked of the tokens; they may hold blanks, or nothing at all.
-/

set_option autoImplicit false

namespace GodotGraph.Script

namespace Preamble

open Grammar (bodyKeywords classNameKeyword extendsKeyword takeName?)
open Token (IsWord newline spaced through)

/-! ## Names in front of a body -/

theorem body_of_mem {keyword : String} (opens : keyword ∈ bodyKeywords) :
    IsWord keyword ∧ keyword ≠ newline ∧ takeName? keyword.toList = none ∧
      grammarFor? keyword = none := by
  have none : bodyKeywords.all (fun word => (takeName? word.toList).isNone &&
      (grammarFor? word).isNone) = true := by
    decide +kernel
  have words : ∀ word ∈ bodyKeywords, IsWord word ∧ word ≠ newline := by
    decide
  have both := List.all_eq_true.1 none keyword opens
  simp only [Bool.and_eq_true, Option.isNone_iff_eq_none] at both
  exact ⟨(words keyword opens).1, (words keyword opens).2, both⟩

/-- A name is declared by the tokens in front of the body or not at all. -/
theorem declaredName?_append_body {keyword : String} (opens : keyword ∈ bodyKeywords)
    (before after : List String) :
    declaredName? (before ++ keyword :: after) = declaredName? before := by
  obtain ⟨isWord, inLine, nameless, -⟩ := body_of_mem opens
  induction before with
  | nil =>
      have filled : keyword.toList ≠ [] := fun empty =>
        isWord.1 (String.toList_eq_nil_iff.1 empty)
      have nothing : declaredName? [] = none := by decide +kernel
      rw [nothing, List.nil_append, declaredName?, through, if_neg inLine,
        Token.trimStart_spaced isWord, Grammar.takeName?_append filled (Token.endsWord_spaced _),
        nameless]
      rfl
  | cons token rest inductionHypothesis =>
      by_cases lineEnd : token = newline
      · rw [declaredName?, declaredName?, List.cons_append, through, through, if_pos lineEnd,
          if_pos lineEnd]
      · have line : ∀ others, Text.trimStart (spaced (through newline (token :: others))) =
            Text.trimStart (token.toList ++ spaced (through newline others)) := by
          intro others
          rw [through, if_neg lineEnd, Token.spaced_cons]
          rfl
        rw [declaredName?, declaredName?, List.cons_append, line, line]
        cases solid : Text.trimStart token.toList with
        | nil =>
            -- The token is blank, so the name is looked for behind it.
            have blank : ∀ c ∈ token.toList, Text.isBlank c = true :=
              List.dropWhile_eq_nil_iff.1 solid
            rw [Text.trimStart_append_of_blank blank, Text.trimStart_append_of_blank blank]
            exact inductionHypothesis
        | cons c more =>
            have start : ∀ others, Text.trimStart (token.toList ++ spaced others) =
                (c :: more) ++ spaced others := by
              intro others
              obtain ⟨blanks, blank, shape⟩ := Text.trimStart_append token.toList
              rw [shape, List.append_assoc, Text.trimStart_append_of_blank blank, solid]
              exact Text.trimStart_cons_of_solid (Text.trimStart_head solid)
            rw [start, start, Grammar.takeName?_append (List.cons_ne_nil c more)
                (Token.endsWord_spaced _),
              Grammar.takeName?_append (List.cons_ne_nil c more) (Token.endsWord_spaced _),
              Option.map_map, Option.map_map]
            rfl

/-- What stands behind the keyword of the body does not reach the scan. -/
theorem scan_append_body {keyword : String} (opens : keyword ∈ bodyKeywords)
    (facts : Preamble) (before first second : List String) (index : Nat) :
    facts.scan (Token.windowsFrom index (before ++ keyword :: first)) =
      facts.scan (Token.windowsFrom index (before ++ keyword :: second)) := by
  induction before generalizing facts index with
  | nil =>
      obtain ⟨-, -, -, noFact⟩ := body_of_mem opens
      have stops : bodyKeywords.contains keyword = true := List.contains_iff_mem.2 opens
      simp only [List.nil_append, Token.windowsFrom, scan, noFact, stops, if_true]
  | cons token rest inductionHypothesis =>
      rw [List.cons_append, List.cons_append, Token.windowsFrom, Token.windowsFrom, scan, scan]
      cases found : grammarFor? token with
      | none =>
          dsimp only
          rw [inductionHypothesis facts (index + 1)]
      | some grammar =>
          have left := absorb_parseWindow found index (rest ++ keyword :: first) facts
          have right := absorb_parseWindow found index (rest ++ keyword :: second) facts
          rw [declaredName?_append_body opens] at left right
          dsimp only at left right ⊢
          cases named : declaredName? rest with
          | none =>
              rw [named] at left right
              rw [left.1, left.2, right.1, right.2, inductionHypothesis facts (index + 1)]
          | some name =>
              rw [named] at left right
              rw [left.1, left.2, right.1, right.2,
                inductionHypothesis (facts.learn token name) (index + 1)]

/-! ## Declarations at a place -/

/-- The outcome of the declaration that a window opens, if it opens one. -/
def attempt? (window : Token.Window) : Option Attempt :=
  (grammarFor? window.anchor).map fun grammar => grammar.parseWindow window

/-- The name that a window declares with a keyword: the keyword opens it, and the grammar
matches. -/
def declared? (keyword : String) (window : Token.Window) : Option String :=
  if window.anchor = keyword then
    (attempt? window).bind fun attempt =>
      attempt.toOption.bind fun found => found.first? (captureOf keyword)
  else none

/-- The name that a keyword declares at a place of a stream. -/
def namedAt? (keyword : String) (tokens : List String) (place : Nat) : Option String :=
  ((Token.windows tokens)[place]?).bind (declared? keyword)

/-- The last name that a keyword declares up to a place. -/
def LastNamed (keyword : String) (tokens : List String) (stop : Nat) (name : String) : Prop :=
  ∃ place, place ≤ stop ∧ namedAt? keyword tokens place = some name ∧
    ∀ later, place < later → later ≤ stop → namedAt? keyword tokens later = none

/-- Both facts are declared up to a place. -/
def Complete (tokens : List String) (stop : Nat) : Prop :=
  (∃ place, place ≤ stop ∧ (namedAt? classNameKeyword tokens place).isSome = true) ∧
    ∃ place, place ≤ stop ∧ (namedAt? extendsKeyword tokens place).isSome = true

/-- The first place up to which both facts are declared, or the bound if they are not declared
before it. -/
structure StopsAt (tokens : List String) (bound stop : Nat) : Prop where
  inBound : stop ≤ bound
  incomplete : ∀ place < stop, ¬ Complete tokens place
  reached : stop = bound ∨ Complete tokens stop

/-- The count of the declaration that a window opens, if it opens one. -/
def countsOf (window : Token.Window) : List Count :=
  ((attempt? window).map Count.ofAttempt).toList

/-- The counts of all declarations up to a place. -/
def countsTo (tokens : List String) (stop : Nat) : List Count :=
  ((Token.windows tokens).take (stop + 1)).flatMap countsOf

/-! ## One window -/

/-- The facts after a window. -/
def after (facts : Preamble) (window : Token.Window) : Preamble :=
  match attempt? window with
  | some attempt => facts.absorb window.anchor attempt
  | none => facts

/-- What is known of the fact that a keyword declares. -/
def known (keyword : String) (facts : Preamble) : Option String :=
  if keyword = classNameKeyword then facts.className else facts.parent

theorem isComplete_eq (facts : Preamble) : facts.isComplete =
    ((known classNameKeyword facts).isSome && (known extendsKeyword facts).isSome) := by
  rfl

theorem known_learn {keyword anchor : String} (isFact : isFact keyword = true)
    (alsoFact : Preamble.isFact anchor = true) (facts : Preamble) (name : String) :
    known keyword (facts.learn anchor name) =
      if anchor = keyword then some name else known keyword facts := by
  have distinct : classNameKeyword ≠ extendsKeyword := by decide
  simp only [Preamble.isFact, Bool.or_eq_true, decide_eq_true_eq] at isFact alsoFact
  rcases isFact with rfl | rfl <;> rcases alsoFact with rfl | rfl <;>
    simp [known, learn, distinct, distinct.symm]

/-- A window overwrites the fact that it declares, and leaves the other one alone. -/
theorem known_after {keyword : String} (isFact : isFact keyword = true) (facts : Preamble)
    (window : Token.Window) :
    known keyword (facts.after window) = (declared? keyword window).or (known keyword facts) := by
  obtain ⟨index, anchor, following⟩ := window
  have shape := grammarFor?_cases anchor
  cases found : grammarFor? anchor with
  | none =>
      rw [found] at shape
      have other : anchor ≠ keyword := by
        rintro rfl
        cases isFact.symm.trans shape
      simp [after, declared?, attempt?, found, other]
  | some grammar =>
      rw [found] at shape
      have learned := absorb_parseWindow found index following facts
      have outcome := fact_parseWindow found index following
      dsimp only at learned
      cases named : declaredName? following with
      | none =>
          rw [named] at learned outcome
          obtain ⟨mismatch, failed⟩ := outcome
          rw [failed] at learned
          simp [after, declared?, attempt?, found, failed, learned.2, Except.toOption]
      | some name =>
          rw [named] at learned outcome
          obtain ⟨stop, matched⟩ := outcome
          rw [matched] at learned
          have onto : facts.after ⟨index, anchor, following⟩ = facts.learn anchor name := by
            simp [after, attempt?, found, matched, learned.2]
          rw [onto, known_learn isFact shape.1]
          by_cases same : anchor = keyword
          · obtain rfl := same
            simp [declared?, attempt?, found, matched, Except.toOption, Grammar.Match.first?]
          · simp [declared?, same]

/-- A scan that is not complete takes in one window, and goes on unless it is complete then. -/
theorem scan_cons {facts : Preamble} (incomplete : facts.isComplete = false)
    {window : Token.Window} (plain : window.anchor ∉ bodyKeywords) (rest : List Token.Window) :
    facts.scan (window :: rest) =
      if (facts.after window).isComplete then (facts.after window, countsOf window)
      else (((facts.after window).scan rest).1,
        countsOf window ++ ((facts.after window).scan rest).2) := by
  have notBody : bodyKeywords.contains window.anchor = false := by simpa using plain
  rw [scan]
  cases found : grammarFor? window.anchor with
  | none =>
      simp only [after, countsOf, attempt?, found, Option.map_none, Option.toList_none, notBody,
        incomplete, Bool.false_eq_true, if_false, List.nil_append]
  | some grammar =>
      simp only [after, countsOf, attempt?, found, Option.map_some, Option.toList_some]
      cases outcome : grammar.parseWindow window with
      | error mismatch =>
          have same : facts.absorb window.anchor (.error mismatch) = facts := rfl
          simp [same, incomplete, Count.ofAttempt]
      | ok matched =>
          simp only [Count.ofAttempt, decide_true, Bool.true_and]
          split <;> rfl

/-! ## The scan up to its stop -/

/-- A scan of some windows took in those up to `stop`, and nothing of the others. -/
structure Scanned (facts : Preamble) (windows : List Token.Window) (bound stop : Nat) : Prop where
  inBound : stop ≤ bound
  run : facts.scan windows =
    ((windows.take (stop + 1)).foldl after facts, (windows.take (stop + 1)).flatMap countsOf)
  incomplete : ∀ count ≤ stop, ((windows.take count).foldl after facts).isComplete = false
  reached : stop = bound ∨ ((windows.take (stop + 1)).foldl after facts).isComplete = true

theorem exists_scanned {facts : Preamble} {seen : List Token.Window}
    (plain : ∀ window ∈ seen, window.anchor ∉ bodyKeywords) {last : Token.Window}
    (opens : last.anchor ∈ bodyKeywords) (later : List Token.Window)
    (incomplete : facts.isComplete = false) :
    ∃ stop, Scanned facts (seen ++ last :: later) seen.length stop := by
  induction seen generalizing facts with
  | nil =>
      obtain ⟨-, -, -, noFact⟩ := body_of_mem opens
      refine ⟨0, Nat.le_refl 0, ?_, ?_, Or.inl rfl⟩
      · simp [scan, noFact, opens, after, countsOf, attempt?]
      · intro count atMost
        obtain rfl := Nat.le_zero.1 atMost
        exact incomplete
  | cons window rest inductionHypothesis =>
      have step := scan_cons incomplete (plain window List.mem_cons_self)
        (rest ++ last :: later)
      cases stops : (facts.after window).isComplete with
      | true =>
          rw [stops, if_pos rfl] at step
          refine ⟨0, Nat.zero_le _, ?_, ?_, Or.inr ?_⟩
          · simpa using step
          · intro count atMost
            obtain rfl := Nat.le_zero.1 atMost
            exact incomplete
          · simpa using stops
      | false =>
          rw [stops, if_neg Bool.false_ne_true] at step
          obtain ⟨stop, scanned⟩ := inductionHypothesis
            (fun other member => plain other (List.mem_cons_of_mem _ member)) stops
          refine ⟨stop + 1, Nat.succ_le_succ scanned.inBound, ?_, ?_, ?_⟩
          · rw [List.cons_append, step, scanned.run]
            rfl
          · intro count atMost
            cases count with
            | zero => exact incomplete
            | succ fewer => exact scanned.incomplete fewer (Nat.le_of_succ_le_succ atMost)
          · rcases scanned.reached with atBody | complete
            · exact Or.inl (congrArg Nat.succ atBody)
            · exact Or.inr complete

theorem known_foldl_succ {keyword : String} (isFact : isFact keyword = true)
    (tokens : List String) (count : Nat) :
    known keyword (((Token.windows tokens).take (count + 1)).foldl after empty) =
      (namedAt? keyword tokens count).or
        (known keyword (((Token.windows tokens).take count).foldl after empty)) := by
  rw [List.take_add_one, List.foldl_append, namedAt?]
  cases (Token.windows tokens)[count]? with
  | none => rfl
  | some window => exact known_after isFact _ window

theorem known_empty (keyword : String) : known keyword empty = none := by
  rw [known]
  split <;> rfl

/-- In front of any place, what is known is what was named last. -/
theorem known_foldl_eq_some_iff {keyword : String} (isFact : isFact keyword = true)
    (tokens : List String) (count : Nat) (name : String) :
    known keyword (((Token.windows tokens).take count).foldl after empty) = some name ↔
      ∃ place, place < count ∧ namedAt? keyword tokens place = some name ∧
        ∀ later, place < later → later < count → namedAt? keyword tokens later = none := by
  induction count with
  | zero => simp [known_empty]
  | succ count inductionHypothesis =>
      rw [known_foldl_succ isFact]
      cases here : namedAt? keyword tokens count with
      | none =>
          rw [Option.none_or, inductionHypothesis]
          constructor
          · rintro ⟨place, before, named, last⟩
            refine ⟨place, by omega, named, fun later behind inside => ?_⟩
            rcases Nat.lt_succ_iff_lt_or_eq.1 inside with below | rfl
            · exact last later behind below
            · exact here
          · rintro ⟨place, before, named, last⟩
            have other : place ≠ count := by
              rintro rfl
              cases here.symm.trans named
            exact ⟨place, by omega, named, fun later behind inside =>
              last later behind (by omega)⟩
      | some found =>
          rw [Option.some_or]
          constructor
          · intro same
            exact ⟨count, by omega, here.trans same, fun later behind inside => by omega⟩
          · rintro ⟨place, before, named, last⟩
            rcases Nat.lt_succ_iff_lt_or_eq.1 before with below | rfl
            · cases here.symm.trans (last count below (by omega))
            · exact here.symm.trans named

theorem isSome_known_foldl_iff {keyword : String} (isFact : isFact keyword = true)
    (tokens : List String) (count : Nat) :
    (known keyword (((Token.windows tokens).take count).foldl after empty)).isSome = true ↔
      ∃ place, place < count ∧ (namedAt? keyword tokens place).isSome = true := by
  induction count with
  | zero => simp [known_empty]
  | succ count inductionHypothesis =>
      rw [known_foldl_succ isFact, Option.isSome_or, Bool.or_eq_true, inductionHypothesis]
      constructor
      · rintro (here | ⟨place, before, named⟩)
        · exact ⟨count, by omega, here⟩
        · exact ⟨place, by omega, named⟩
      · rintro ⟨place, before, named⟩
        rcases Nat.lt_succ_iff_lt_or_eq.1 before with below | rfl
        · exact Or.inr ⟨place, below, named⟩
        · exact Or.inl named

theorem isComplete_foldl_iff (tokens : List String) (stop : Nat) :
    (((Token.windows tokens).take (stop + 1)).foldl after empty).isComplete = true ↔
      Complete tokens stop := by
  rw [isComplete_eq, Bool.and_eq_true, isSome_known_foldl_iff rfl, isSome_known_foldl_iff rfl]
  simp only [Nat.lt_succ_iff, Complete]

theorem Scanned.stopsAt {tokens : List String} {bound stop : Nat}
    (scanned : Scanned empty (Token.windows tokens) bound stop) : StopsAt tokens bound stop where
  inBound := scanned.inBound
  incomplete := by
    intro place before complete
    have still := scanned.incomplete (place + 1) before
    rw [(isComplete_foldl_iff tokens place).2 complete] at still
    cases still
  reached := scanned.reached.imp_right (isComplete_foldl_iff tokens stop).1

end Preamble

/-! ## Windows in front of a body -/

theorem split_windows_of_body (before : List String) (keyword : String) (after : List String) :
    ∃ seen later, Token.windows (before ++ keyword :: after) =
        seen ++ ⟨before.length, keyword, after⟩ :: later ∧
      seen.map (fun window => window.anchor) = before := by
  refine ⟨(Token.windows (before ++ keyword :: after)).take before.length,
    Token.windowsFrom (before.length + 1) after, ?_, ?_⟩
  · conv_lhs => rw [← List.take_append_drop before.length (Token.windows _)]
    rw [Token.windows, Token.drop_windowsFrom, List.drop_left, Nat.zero_add]
    rfl
  · rw [List.map_take, Token.windows, Token.map_anchor_windowsFrom, List.take_left]

/-- Whatever is read in front of the keyword that opens the body is all that the preamble says. The
scan stops where both facts are first declared, or else at that keyword; its facts are those that
were declared last up to there, and it counts the declarations up to there. -/
theorem preamble_of_body {before : List String}
    (plain : ∀ token ∈ before, token ∉ Grammar.bodyKeywords) {keyword : String}
    (opens : keyword ∈ Grammar.bodyKeywords) (after : List String) :
    (∀ other, preamble (before ++ keyword :: after) = preamble (before ++ keyword :: other)) ∧
      ∃ stop, Preamble.StopsAt (before ++ keyword :: after) before.length stop ∧
        (∀ name, (preamble (before ++ keyword :: after)).1.className = some name ↔
          Preamble.LastNamed Grammar.classNameKeyword (before ++ keyword :: after) stop name) ∧
        (∀ name, (preamble (before ++ keyword :: after)).1.parent = some name ↔
          Preamble.LastNamed Grammar.extendsKeyword (before ++ keyword :: after) stop name) ∧
        (preamble (before ++ keyword :: after)).2 =
          Preamble.countsTo (before ++ keyword :: after) stop := by
  refine ⟨fun other => Preamble.scan_append_body opens Preamble.empty before after other 0, ?_⟩
  obtain ⟨seen, later, split, anchors⟩ := split_windows_of_body before keyword after
  have notBody : ∀ window ∈ seen, window.anchor ∉ Grammar.bodyKeywords := by
    intro window member
    refine plain window.anchor ?_
    rw [← anchors]
    exact List.mem_map_of_mem member
  have start : Preamble.empty.isComplete = false := rfl
  obtain ⟨stop, scanned⟩ := @Preamble.exists_scanned Preamble.empty seen notBody
    ⟨before.length, keyword, after⟩ opens later start
  have length : seen.length = before.length := by rw [← anchors, List.length_map]
  rw [← split, length] at scanned
  have run : preamble (before ++ keyword :: after) = _ := scanned.run
  have named : Preamble.isFact Grammar.classNameKeyword = true := rfl
  have inherits : Preamble.isFact Grammar.extendsKeyword = true := rfl
  refine ⟨stop, scanned.stopsAt, fun name => ?_, fun name => ?_, by rw [run]; rfl⟩
  · have last := Preamble.known_foldl_eq_some_iff named (before ++ keyword :: after) (stop + 1) name
    simp only [Nat.lt_succ_iff] at last
    rw [run]
    exact last
  · have last :=
      Preamble.known_foldl_eq_some_iff inherits (before ++ keyword :: after) (stop + 1) name
    simp only [Nat.lt_succ_iff] at last
    rw [run]
    exact last

/-- A script that is named twice. The inheritance line is cut short by the body, and the word behind
it is no parent. -/
theorem preamble_of_body_named_twice :
    (∀ token ∈ ["class_name", "A", "\n", "class_name", "B", "\n", "extends"],
        token ∉ Grammar.bodyKeywords) ∧ "func" ∈ Grammar.bodyKeywords ∧
      preamble (["class_name", "A", "\n", "class_name", "B", "\n", "extends"] ++
          "func" :: ["Base"]) =
        preamble (["class_name", "A", "\n", "class_name", "B", "\n", "extends"] ++ "func" :: []) ∧
      ∃ stop, Preamble.StopsAt (["class_name", "A", "\n", "class_name", "B", "\n", "extends"] ++
          "func" :: ["Base"]) 7 stop ∧
        Preamble.LastNamed Grammar.classNameKeyword
          (["class_name", "A", "\n", "class_name", "B", "\n", "extends"] ++ "func" :: ["Base"])
          stop "B" := by
  have plain : ∀ token ∈ ["class_name", "A", "\n", "class_name", "B", "\n", "extends"],
      token ∉ Grammar.bodyKeywords := by
    decide
  have opens : "func" ∈ Grammar.bodyKeywords := by decide
  obtain ⟨same, stop, stopsAt, named, -, -⟩ := preamble_of_body plain opens ["Base"]
  exact ⟨plain, opens, same [], stop, stopsAt, (named "B").1 (by decide +kernel)⟩

end GodotGraph.Script
