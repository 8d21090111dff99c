import GodotGraph.Proofs.Extraction
import GodotGraph.Proofs.Script.Fragment

/-!
Contract: comments and the load calls of a script.

Owns:
- load words in comments, which are attempted like any others;
- calls with a comment inside, which are found in the stream without comments only;
- the load attempts of both streams, call by call and in number.
-/

set_option autoImplicit false

namespace GodotGraph.Script

open Grammar (loadReference closeMark closeToken)
open Token (through)

/-! ## Load words -/

/-- The token opens a load call. -/
def isLoadWord (token : String) : Bool :=
  Grammar.loadKeywords.contains token

/-- The attempt on the load call that a token opens, if it opens one. -/
def loadAttempt (token : String) (rest : List String) : List Attempt :=
  if isLoadWord token then [loadReference.parseWindow ⟨0, token, rest⟩] else []

theorem loadAttempts_cons (token : String) (rest : List String) :
    loadAttempts (token :: rest) = loadAttempt token rest ++ loadAttempts rest :=
  loadReference.attempts_cons isLoadWord token rest

theorem loadAttempts_append_of_not_isLoadWord {tokens : List String}
    (none : ∀ token ∈ tokens, isLoadWord token = false) (rest : List String) :
    loadAttempts (tokens ++ rest) = loadAttempts rest :=
  loadReference.attempts_append_of_none none rest

theorem length_loadAttempts (tokens : List String) :
    (loadAttempts tokens).length = tokens.countP isLoadWord := by
  induction tokens with
  | nil => rfl
  | cons token rest inductionHypothesis =>
      rw [loadAttempts_cons, List.length_append, inductionHypothesis, List.countP_cons,
        loadAttempt]
      split <;> simp [Nat.add_comm]

/-- No load word holds a comment mark or a mark that closes a call. -/
theorem marks_not_mem_of_isLoadWord {token : String} (loads : isLoadWord token = true) :
    Grammar.commentMark ∉ token.toList ∧ closeMark ∉ token.toList := by
  have listed : ∀ word ∈ Grammar.loadKeywords,
      Grammar.commentMark ∉ word.toList ∧ closeMark ∉ word.toList := by
    decide
  exact listed token (by simpa [isLoadWord] using loads)

/-! ## Comments inside calls -/

/-- A comment comes before the next closing token. -/
def commentBeforeClose : List Fragment → Bool
  | [] => false
  | .code token :: rest => token != closeToken && commentBeforeClose rest
  | .comment _ _ _ :: _ => true

/-- How many load words stand in comments. -/
def hiddenLoads : List Fragment → Nat
  | [] => 0
  | .code _ :: rest => hiddenLoads rest
  | .comment _ _ comment :: rest => comment.countP isLoadWord + hiddenLoads rest

/-- No comment stands right after a load word. -/
def loadsApart : List Fragment → Bool
  | [] => true
  | .code _ :: rest => loadsApart rest
  | .comment word _ _ :: rest => !isLoadWord word && loadsApart rest

/-- The load call that the token opens would be found without the comment inside it. -/
def isCutCall (token : String) (rest : List Fragment) : Bool :=
  isLoadWord token && commentBeforeClose rest &&
    (loadReference.parseWindow ⟨0, token, bareStream rest⟩).isOk

/-- How many load calls are not found because of a comment inside them. -/
def cutCalls : List Fragment → Nat
  | [] => 0
  | .code token :: rest => (if isCutCall token rest then 1 else 0) + cutCalls rest
  | .comment _ _ _ :: rest => cutCalls rest

/-! ## Windows -/

/-- Without a comment before the closing token, both windows are the same. -/
theorem through_streams {fragments : List Fragment} (whole : commentBeforeClose fragments = false) :
    through closeToken (fullStream fragments) = through closeToken (bareStream fragments) := by
  induction fragments with
  | nil => rfl
  | cons fragment rest inductionHypothesis =>
      cases fragment with
      | comment _ _ _ => exact absurd whole (by simp [commentBeforeClose])
      | code token =>
          rw [fullStream_cons, bareStream_cons, Fragment.full, Fragment.bare,
            List.singleton_append, List.singleton_append, through, through]
          by_cases closes : token = closeToken
          · rw [if_pos closes, if_pos closes]
          · rw [if_neg closes, if_neg closes,
              inductionHypothesis (by simpa [commentBeforeClose, closes] using whole)]

/-- A comment before the closing token is the first thing that the two windows do not
share. -/
theorem fullStream_of_commentBeforeClose {fragments : List Fragment} (sound : Sound fragments)
    (inside : commentBeforeClose fragments = true) :
    ∃ front token rest, fullStream fragments = front ++ token :: rest ∧
      (∀ word ∈ front, closeMark ∉ word.toList) ∧ Grammar.IsCommented token := by
  induction fragments with
  | nil => simp [commentBeforeClose] at inside
  | cons fragment rest inductionHypothesis =>
      cases fragment with
      | comment word first comment =>
          obtain ⟨solid, ⟨tail, shape⟩, _, _⟩ := sound
          refine ⟨[], word ++ first, comment ++ fullStream rest, rfl, by simp, word.toList, tail,
            by rw [String.toList_append, shape], ?_⟩
          intro member
          exact absurd (solid closeMark member) (by decide)
      | code token =>
          obtain ⟨closed, soundRest⟩ := sound
          obtain ⟨other, later⟩ : token ≠ closeToken ∧ commentBeforeClose rest = true := by
            simpa [commentBeforeClose] using inside
          obtain ⟨front, marked, others, shape, openFront, commented⟩ :=
            inductionHypothesis soundRest later
          refine ⟨token :: front, marked, others, by rw [fullStream_cons, shape]; rfl, ?_, commented⟩
          intro word member
          rcases List.mem_cons.1 member with rfl | inFront
          · exact fun inWord => other (closed inWord)
          · exact openFront word inFront

/-- A call without a comment inside is attempted with the same outcome in both streams. -/
theorem loadAttempt_of_not_commentBeforeClose {fragments : List Fragment}
    (whole : commentBeforeClose fragments = false) (token : String) :
    loadAttempt token (fullStream fragments) = loadAttempt token (bareStream fragments) := by
  have window : loadReference.parseWindow ⟨0, token, fullStream fragments⟩ =
      loadReference.parseWindow ⟨0, token, bareStream fragments⟩ := by
    show loadReference.parse (Token.join (token :: through closeToken (fullStream fragments))) =
      loadReference.parse (Token.join (token :: through closeToken (bareStream fragments)))
    rw [through_streams whole]
  rw [loadAttempt, window]
  rfl

/-- A call with a comment inside is not found in the stream with comments. -/
theorem matchesOf_loadAttempt_of_commentBeforeClose {fragments : List Fragment}
    (sound : Sound fragments) (inside : commentBeforeClose fragments = true) (token : String) :
    matchesOf (loadAttempt token (fullStream fragments)) = [] := by
  rw [loadAttempt]
  split
  · next loads =>
      obtain ⟨front, marked, rest, shape, openFront, commented⟩ :=
        fullStream_of_commentBeforeClose sound inside
      obtain ⟨mismatch, failed⟩ := Grammar.loadReference_parseWindow_commented 0
        (marks_not_mem_of_isLoadWord loads).2 openFront commented rest
      rw [shape, failed]
      rfl
  · rfl

/-- The outcomes on one call differ exactly if the call is cut. -/
theorem matchesOf_loadAttempt_streams {fragments : List Fragment} (sound : Sound fragments)
    (token : String) :
    if isCutCall token fragments then
      matchesOf (loadAttempt token (fullStream fragments)) = [] ∧
        (matchesOf (loadAttempt token (bareStream fragments))).length = 1
    else matchesOf (loadAttempt token (fullStream fragments)) =
      matchesOf (loadAttempt token (bareStream fragments)) := by
  rw [isCutCall]
  cases inside : commentBeforeClose fragments with
  | false =>
      rw [Bool.and_false, Bool.false_and, if_neg (by decide),
        loadAttempt_of_not_commentBeforeClose inside]
  | true =>
      rw [matchesOf_loadAttempt_of_commentBeforeClose sound inside, loadAttempt]
      cases isLoadWord token with
      | false => rfl
      | true =>
          cases loadReference.parseWindow ⟨0, token, bareStream fragments⟩ with
          | ok found => exact ⟨rfl, rfl⟩
          | error mismatch => rfl

/-! ## All calls -/

/-- The first word of a comment opens no call, and neither does a word that it is glued
to. -/
theorem loadAttempts_comment {word first : String} {comment : List String}
    (marked : Grammar.commentMark ∈ first.toList) (rest : List String) :
    loadAttempts ((Fragment.comment word first comment).full ++ rest) =
      loadAttempts (comment ++ rest) := by
  have none : ∀ token ∈ [word ++ first], isLoadWord token = false := by
    intro token member
    obtain rfl := List.mem_singleton.1 member
    by_contra loads
    refine (marks_not_mem_of_isLoadWord (Bool.not_eq_false _ ▸ loads)).1 ?_
    rw [String.toList_append]
    exact List.mem_append_right _ marked
  exact loadAttempts_append_of_not_isLoadWord none (comment ++ rest)

theorem loadAttempts_bare_comment {word : String} (apart : isLoadWord word = false)
    (first : String) (comment rest : List String) :
    loadAttempts ((Fragment.comment word first comment).bare ++ rest) = loadAttempts rest := by
  refine loadAttempts_append_of_not_isLoadWord ?_ rest
  intro token member
  rw [Fragment.bare] at member
  split at member
  · simp at member
  · rwa [List.mem_singleton.1 member]

/-- Comments add one attempt for each load word in them. -/
theorem length_loadAttempts_streams {fragments : List Fragment} (sound : Sound fragments)
    (apart : loadsApart fragments = true) :
    (loadAttempts (fullStream fragments)).length =
      (loadAttempts (bareStream fragments)).length + hiddenLoads fragments := by
  induction fragments with
  | nil => rfl
  | cons fragment rest inductionHypothesis =>
      rw [fullStream_cons, bareStream_cons]
      cases fragment with
      | comment word first comment =>
          obtain ⟨_, ⟨tail, shape⟩, _, soundRest⟩ := sound
          obtain ⟨wordApart, apartRest⟩ := Bool.and_eq_true_iff.1 apart
          rw [loadAttempts_comment (by simp [shape]),
            loadAttempts_bare_comment (by simpa using wordApart), hiddenLoads,
            length_loadAttempts, List.countP_append, ← length_loadAttempts (fullStream rest),
            inductionHypothesis soundRest apartRest]
          omega
      | code token =>
          have later := inductionHypothesis sound.2 apart
          rw [length_loadAttempts, length_loadAttempts] at later ⊢
          rw [Fragment.full, Fragment.bare, hiddenLoads, List.countP_append, List.countP_append,
            later]
          omega

/-- Calls that are cut are missing with comments, and all others are found alike. -/
theorem matchesOf_loadAttempts_streams {fragments : List Fragment} (sound : Sound fragments)
    (apart : loadsApart fragments = true) (nothingHidden : hiddenLoads fragments = 0) :
    (matchesOf (loadAttempts (bareStream fragments))).length =
        (matchesOf (loadAttempts (fullStream fragments))).length + cutCalls fragments ∧
      (cutCalls fragments = 0 →
        matchesOf (loadAttempts (fullStream fragments)) =
          matchesOf (loadAttempts (bareStream fragments))) := by
  induction fragments with
  | nil => exact ⟨rfl, fun _ => rfl⟩
  | cons fragment rest inductionHypothesis =>
      rw [fullStream_cons, bareStream_cons]
      cases fragment with
      | comment word first comment =>
          obtain ⟨_, ⟨tail, shape⟩, _, soundRest⟩ := sound
          obtain ⟨wordApart, apartRest⟩ := Bool.and_eq_true_iff.1 apart
          obtain ⟨none, restHidden⟩ := Nat.add_eq_zero_iff.1 nothingHidden
          have unread : ∀ token ∈ comment, isLoadWord token = false := by
            simpa [List.countP_eq_zero] using none
          have passed := loadAttempts_append_of_not_isLoadWord unread (fullStream rest)
          rw [loadAttempts_comment (by simp [shape]), passed,
            loadAttempts_bare_comment (by simpa using wordApart)]
          exact inductionHypothesis soundRest apartRest restHidden
      | code token =>
          obtain ⟨lengths, same⟩ := inductionHypothesis sound.2 apart nothingHidden
          have head := matchesOf_loadAttempt_streams sound.2 token
          rw [Fragment.full, Fragment.bare, List.singleton_append, List.singleton_append,
            loadAttempts_cons, loadAttempts_cons, matchesOf_append, matchesOf_append, cutCalls,
            List.length_append, List.length_append]
          cases cut : isCutCall token rest with
          | true =>
              rw [cut] at head
              obtain ⟨missing, found⟩ := head
              refine ⟨?_, by simp⟩
              rw [missing, found, lengths]
              simp only [List.length_nil, if_true]
              omega
          | false =>
              rw [cut] at head
              have alike : matchesOf (loadAttempt token (fullStream rest)) =
                  matchesOf (loadAttempt token (bareStream rest)) := head
              refine ⟨by rw [alike, lengths]; simp; omega, ?_⟩
              intro nothingCut
              rw [alike, same (by simpa using nothingCut)]

end GodotGraph.Script
