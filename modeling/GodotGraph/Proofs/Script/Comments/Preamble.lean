import GodotGraph.Proofs.Script.Fragment
import GodotGraph.Proofs.Script.Preamble

/-!
Contract: comments in front of the body of a script.

Owns:
- the first comment that a preamble scan cannot pass over, and what was known there;
- the scans of both streams, which agree up to that comment;
- the attempts that are lost when words of that comment end the scan.
-/

set_option autoImplicit false

namespace GodotGraph

namespace Grammar

/-- A comment right after a name does not change the name. -/
theorem nameOf?_append_comment {word first : String} {tail : List Char}
    (shape : first.toList = commentMark :: tail) :
    nameOf? (word ++ first) = if word = "" then none else nameOf? word := by
  have boundary : Pattern.endsWord (commentMark :: tail) = true := by
    have stops : Text.continuesIdentifier commentMark = false := by decide +kernel
    simp [Pattern.endsWord, stops]
  rw [nameOf?, String.toList_append, shape]
  by_cases empty : word = ""
  · have closed : opensName commentMark = false := by decide +kernel
    simp [empty, takeName?, closed]
  · have filled : word.toList ≠ [] := fun none => empty (String.toList_eq_nil_iff.1 none)
    rw [if_neg empty, takeName?_append filled boundary, nameOf?, Option.map_map]
    rfl

end Grammar

namespace Script.Preamble

open Grammar (nameOf?)
open Token (newline)

/-! ## Words that a scan looks for -/

/-- The scan does not pass over the token. -/
def isWatched (token : String) : Bool :=
  isFact token || Grammar.bodyKeywords.contains token

/-- No word that a scan looks for holds a comment mark. -/
theorem isWatched_of_commentMark {token : String} (marked : Grammar.commentMark ∈ token.toList) :
    isWatched token = false := by
  have listed : ∀ word ∈ Grammar.classNameKeyword :: Grammar.extendsKeyword ::
      Grammar.bodyKeywords, Grammar.commentMark ∉ word.toList := by
    decide
  cases watched : isWatched token with
  | false => rfl
  | true =>
      refine absurd marked (listed token ?_)
      simpa [isWatched, isFact, or_assoc] using watched

theorem read_of_not_isWatched (preamble : Preamble) {token : String}
    (unwatched : isWatched token = false) (rest : List String) :
    preamble.read (token :: rest) = preamble.read rest := by
  obtain ⟨notFact, notBody⟩ := Bool.or_eq_false_iff.1 unwatched
  rw [read, notFact, notBody]
  rfl

theorem read_append_of_not_isWatched (preamble : Preamble) {tokens : List String}
    (unwatched : ∀ token ∈ tokens, isWatched token = false) (rest : List String) :
    preamble.read (tokens ++ rest) = preamble.read rest := by
  induction tokens with
  | nil => rfl
  | cons token others inductionHypothesis =>
      rw [List.cons_append, read_of_not_isWatched preamble (unwatched token List.mem_cons_self),
        inductionHypothesis fun other member => unwatched other (List.mem_cons_of_mem _ member)]

/-! ## The first comment that is noticed -/

/-- A comment that one of the two scans does not pass over. -/
structure Notice where
  /-- What is known before the comment. -/
  known : Preamble
  /-- The word of code right before the comment, empty if there is none. -/
  word : String
  /-- The words of the comment. -/
  comment : List String
  /-- What comes after the comment. -/
  rest : List Fragment

/-- The first comment that hides a word from one of the scans, while they still read. -/
def notice? (preamble : Preamble) : List Fragment → Option Notice
  | [] => none
  | .comment word _ comment :: rest =>
      if (word :: comment).any isWatched then some ⟨preamble, word, comment, rest⟩
      else notice? preamble rest
  | .code token :: rest =>
      if isFact token then
        match (bareStream rest).head?.bind nameOf? with
        | some name =>
            let next := preamble.learn token name
            if next.isComplete then none else notice? next rest
        | none => notice? preamble rest
      else if Grammar.bodyKeywords.contains token then none
      else notice? preamble rest

/-- What the scan with comments still reads. -/
def Notice.full (notice : Notice) : Preamble × List Count :=
  notice.known.read (notice.comment ++ fullStream notice.rest)

/-- What the scan without comments still reads. -/
def Notice.bare (notice : Notice) : Preamble × List Count :=
  notice.known.read (notice.word :: bareStream notice.rest)

/-- Two scans are the same, or they go on differently from some comment only. -/
def Agree (full bare : Preamble × List Count) : Option Notice → Prop
  | none => full = bare
  | some notice =>
      ∃ counts, full = (notice.full.1, counts ++ notice.full.2) ∧
        bare = (notice.bare.1, counts ++ notice.bare.2)

theorem Agree.cons {full bare : Preamble × List Count} {notice : Option Notice} (count : Count)
    (agree : Agree full bare notice) :
    Agree (full.1, count :: full.2) (bare.1, count :: bare.2) notice := by
  cases notice with
  | none =>
      obtain rfl : full = bare := agree
      rfl
  | some notice =>
      obtain ⟨counts, rfl, rfl⟩ := agree
      exact ⟨count :: counts, rfl, rfl⟩

/-- A comment never changes which name comes next. -/
theorem nameOf?_head_streams {fragments : List Fragment} (sound : Sound fragments) :
    (fullStream fragments).head?.bind nameOf? = (bareStream fragments).head?.bind nameOf? := by
  cases fragments with
  | nil => rfl
  | cons fragment rest =>
      cases fragment with
      | code token => rfl
      | comment word first others =>
          obtain ⟨_, ⟨tail, shape⟩, next, _⟩ := sound
          have head : nameOf? (word ++ first) = if word = "" then none else nameOf? word :=
            Grammar.nameOf?_append_comment shape
          by_cases empty : word = ""
          · have nothing : (bareStream rest).head?.bind nameOf? = none := by
              cases rest with
              | nil => rfl
              | cons following _ =>
                  obtain rfl := next following (by simp)
                  exact nameOf?_newline
            rw [if_pos empty] at head
            simpa [Fragment.full, Fragment.bare, empty] using head.trans nothing.symm
          · rw [if_neg empty] at head
            simpa [Fragment.full, Fragment.bare, empty] using head

/-- A comment without watched words is passed over by both scans. -/
theorem read_comment (preamble : Preamble) {word first : String} {comment : List String}
    (marked : Grammar.commentMark ∈ first.toList) (rest : List String) :
    preamble.read ((word ++ first) :: comment ++ rest) = preamble.read (comment ++ rest) := by
  have inToken : Grammar.commentMark ∈ (word ++ first).toList := by
    rw [String.toList_append]
    exact List.mem_append_right _ marked
  exact read_of_not_isWatched preamble (isWatched_of_commentMark inToken) _

/-- The word before a comment may as well be the empty word. -/
theorem read_bare_comment (preamble : Preamble) (word first : String) (comment : List String)
    (rest : List String) :
    preamble.read ((Fragment.comment word first comment).bare ++ rest) =
      preamble.read (word :: rest) := by
  by_cases empty : word = ""
  · have unwatched : isWatched "" = false := by decide
    rw [empty, read_of_not_isWatched preamble unwatched]
    rfl
  · simp [Fragment.bare, empty]

/-- Both scans agree up to the first comment that is noticed. -/
theorem read_streams (preamble : Preamble) {fragments : List Fragment} (sound : Sound fragments) :
    Agree (preamble.read (fullStream fragments)) (preamble.read (bareStream fragments))
      (notice? preamble fragments) := by
  induction fragments generalizing preamble with
  | nil => rfl
  | cons fragment rest inductionHypothesis =>
      cases fragment with
      | comment word first comment =>
          obtain ⟨_, ⟨tail, shape⟩, _, soundRest⟩ := sound
          have marked : Grammar.commentMark ∈ first.toList := by simp [shape]
          rw [fullStream_cons, bareStream_cons, read_bare_comment, Fragment.full,
            read_comment preamble marked, notice?]
          split
          · exact ⟨[], rfl, rfl⟩
          · next quiet =>
              have unwatched : ∀ token ∈ word :: comment, isWatched token = false := by
                simpa using quiet
              rw [read_of_not_isWatched preamble (unwatched word List.mem_cons_self),
                read_append_of_not_isWatched preamble
                  fun token member => unwatched token (List.mem_cons_of_mem _ member)]
              exact inductionHypothesis preamble soundRest
      | code token =>
          have soundRest := sound.2
          -- No comment can be taken for a name, so both see the same name after a keyword.
          have names := nameOf?_head_streams soundRest
          rw [fullStream_cons, bareStream_cons, Fragment.full, Fragment.bare,
            List.singleton_append, List.singleton_append, read, read, notice?, names]
          cases fact : isFact token with
          | true =>
              cases found : (bareStream rest).head?.bind nameOf? with
              | none => exact (inductionHypothesis preamble soundRest).cons .miss
              | some name =>
                  cases complete : (preamble.learn token name).isComplete with
                  | true =>
                      simp only [complete, if_true]
                      rfl
                  | false =>
                      simp only [complete, Bool.false_eq_true, if_false, if_true]
                      exact (inductionHypothesis _ soundRest).cons .hit
          | false =>
              cases body : Grammar.bodyKeywords.contains token with
              | true => rfl
              | false => exact inductionHypothesis preamble soundRest

/-! ## Comments that end the scan -/

theorem counts_ne_nil_of_isFact (preamble : Preamble) {token : String}
    (fact : isFact token = true) (rest : List String) :
    (preamble.read (token :: rest)).2 ≠ [] := by
  rw [read, if_pos fact]
  split
  · dsimp only
    split <;> simp
  · simp

theorem read_eq_of_no_counts {preamble : Preamble} {tokens : List String}
    (none : (preamble.read tokens).2 = []) : preamble.read tokens = (preamble, []) := by
  induction tokens with
  | nil => rfl
  | cons token rest inductionHypothesis =>
      cases fact : isFact token with
      | true => exact absurd none (preamble.counts_ne_nil_of_isFact fact rest)
      | false =>
          cases body : Grammar.bodyKeywords.contains token with
          | true =>
              rw [read, fact, body]
              rfl
          | false =>
              have passed := preamble.read_of_not_isWatched
                (show isWatched token = false by rw [isWatched, fact, body]; rfl) rest
              rw [passed] at none ⊢
              exact inductionHypothesis none

/-- If a scan attempts nothing and meets a watched word, it ends there. -/
theorem read_append_of_no_counts {preamble : Preamble} {tokens : List String}
    (none : (preamble.read tokens).2 = []) (watched : tokens.any isWatched = true)
    (rest : List String) : preamble.read (tokens ++ rest) = (preamble, []) := by
  induction tokens with
  | nil => simp at watched
  | cons token others inductionHypothesis =>
      cases here : isWatched token with
      | false =>
          rw [read_of_not_isWatched preamble here] at none
          rw [List.cons_append, read_of_not_isWatched preamble here]
          exact inductionHypothesis none (by simpa [here] using watched)
      | true =>
          cases fact : isFact token with
          | true => exact absurd none (preamble.counts_ne_nil_of_isFact fact others)
          | false =>
              have body : Grammar.bodyKeywords.contains token = true := by
                simpa [isWatched, fact] using here
              rw [List.cons_append, read, fact, body]
              rfl

theorem any_isWatched_of_notice? {preamble : Preamble} {fragments : List Fragment}
    {notice : Notice} (noticed : notice? preamble fragments = some notice) :
    (notice.word :: notice.comment).any isWatched = true := by
  induction fragments generalizing preamble with
  | nil => simp [notice?] at noticed
  | cons fragment rest inductionHypothesis =>
      cases fragment with
      | comment word first comment =>
          rw [notice?] at noticed
          split at noticed
          · next watched =>
              obtain rfl := Option.some.inj noticed
              exact watched
          · exact inductionHypothesis noticed
      | code token =>
          rw [notice?] at noticed
          split at noticed
          · split at noticed
            · dsimp only at noticed
              split at noticed
              · exact absurd noticed (by simp)
              · exact inductionHypothesis noticed
            · exact inductionHypothesis noticed
          · split at noticed
            · exact absurd noticed (by simp)
            · exact inductionHypothesis noticed

/-- The comment stands apart from watched words, and the scan attempts nothing in it. -/
def Notice.isSilent (notice : Notice) : Bool :=
  !isWatched notice.word && (notice.known.read notice.comment).2.isEmpty

/-- The scan of a script makes no attempt on account of a comment. -/
def isSilent (fragments : List Fragment) : Bool :=
  match notice? empty fragments with
  | none => true
  | some notice => notice.isSilent

/-- How many attempts are not made because a comment ends the scan of a script. -/
def lostAttempts (fragments : List Fragment) : Nat :=
  match notice? empty fragments with
  | none => 0
  | some notice => notice.bare.2.length

/-- A silent comment that is noticed ends the scan, and nothing else. -/
theorem Notice.full_of_isSilent {notice : Notice} (silent : notice.isSilent = true)
    (watched : (notice.word :: notice.comment).any isWatched = true) :
    notice.full = (notice.known, []) := by
  obtain ⟨apart, none⟩ := Bool.and_eq_true_iff.1 silent
  have inComment : notice.comment.any isWatched = true := by
    rw [Bool.not_eq_true'] at apart
    rwa [List.any_cons, apart, Bool.false_or] at watched
  exact read_append_of_no_counts (List.isEmpty_iff.1 none) inComment _

/-- With silent comments the scan makes fewer attempts or is the same. -/
theorem read_streams_of_isSilent {fragments : List Fragment} (sound : Sound fragments)
    (silent : isSilent fragments = true) :
    (empty.read (bareStream fragments)).2.length =
        (empty.read (fullStream fragments)).2.length + lostAttempts fragments ∧
      (lostAttempts fragments = 0 →
        empty.read (fullStream fragments) = empty.read (bareStream fragments)) := by
  have agree := read_streams empty sound
  rw [isSilent] at silent
  rw [lostAttempts]
  cases noticed : notice? empty fragments with
  | none =>
      rw [noticed] at agree
      have same : empty.read (fullStream fragments) = empty.read (bareStream fragments) := agree
      exact ⟨by rw [same]; rfl, fun _ => same⟩
  | some notice =>
      rw [noticed] at agree silent
      obtain ⟨counts, full, bare⟩ := agree
      have ended := notice.full_of_isSilent silent (any_isWatched_of_notice? noticed)
      rw [ended, List.append_nil] at full
      refine ⟨by rw [full, bare, List.length_append], ?_⟩
      intro nothingLost
      have same : notice.bare = (notice.known, []) :=
        read_eq_of_no_counts (List.length_eq_zero_iff.1 nothingLost)
      rw [full, bare, same, List.append_nil]

end Script.Preamble

end GodotGraph
