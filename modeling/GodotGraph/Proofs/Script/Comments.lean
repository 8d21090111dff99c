import GodotGraph.Proofs.Script.Comments.Loads
import GodotGraph.Proofs.Script.Comments.Preamble
import GodotGraph.Script

/-!
Contract: what comments change in the extraction of a script.

Owns:
- the facts of an extraction, which are all of it but the text and the tokens;
- the exact condition under which a script has the same facts without its comments;
- comment lines that change nothing in front of any script.

The scans read the tokens of comments like any others. What decides is whether they look
for one of them, and whether one of them stands inside a load call.
-/

set_option autoImplicit false

namespace GodotGraph

/-- Attempts are counted alike if as many are made and the same matches are found. -/
theorem ofCounts_countsOf_congr {first second : List Attempt}
    (found : matchesOf first = matchesOf second) (lengths : first.length = second.length) :
    Tally.ofCounts (countsOf first) = Tally.ofCounts (countsOf second) := by
  have firstTotal := Tally.hits_add_misses (countsOf first)
  have secondTotal := Tally.hits_add_misses (countsOf second)
  have hits : (Tally.ofCounts (countsOf first)).hits = (Tally.ofCounts (countsOf second)).hits := by
    show (countsOf first).count .hit = (countsOf second).count .hit
    rw [← length_matchesOf, ← length_matchesOf, found]
  have sizes : (countsOf first).length = (countsOf second).length := by simpa [countsOf] using lengths
  rw [Tally.mk.injEq]
  exact ⟨hits, by omega⟩

namespace Script

open Grammar (commentMark)
open Token (newline ofGodot)

/-! ## Facts -/

/-- An extraction without the text and the tokens. -/
@[ext]
structure Facts where
  file : FileRecord
  entities : List EntityRecord
  tally : Tally
  deriving DecidableEq, Repr

/-- The facts of an extraction. -/
def factsOf (extraction : Extraction) : Facts where
  file := { extraction.file with tokens := [], source := "" }
  entities := extraction.entities.map fun entity => { entity with tokens := [] }
  tally := Tally.ofCounts extraction.counts

/-- The counts of an extraction come from the preamble and from the load calls. -/
theorem tally_factsOf (rootName : String) (source : SourceFile) (key : String) :
    (factsOf (extract rootName source key)).tally =
      (Tally.ofCounts (preamble (Token.ofSource source.text)).2).add
        (Tally.ofCounts (countsOf (loadAttempts (Token.ofSource source.text)))) :=
  Tally.ofCounts_append _ _

theorem attempts_factsOf (rootName : String) (source : SourceFile) (key : String) :
    (factsOf (extract rootName source key)).tally.hits +
        (factsOf (extract rootName source key)).tally.misses =
      (preamble (Token.ofSource source.text)).2.length +
        (loadAttempts (Token.ofSource source.text)).length := by
  rw [tally_factsOf, ← Tally.ofCounts_append, Tally.hits_add_misses, List.length_append, countsOf,
    List.length_map]

theorem moduleName_factsOf (rootName : String) (source : SourceFile) (key : String) :
    (factsOf (extract rootName source key)).file.moduleName =
      (preamble (Token.ofSource source.text)).1.className.getD "" := by
  simp only [factsOf, moduleName_extract]

/-- Facts depend on the preamble, the references and the counts alone. -/
theorem factsOf_congr (rootName : String) {source other : SourceFile} (key : String)
    (path : source.path = other.path)
    (facts : (preamble (Token.ofSource source.text)).1 =
      (preamble (Token.ofSource other.text)).1)
    (found : matchesOf (loadAttempts (Token.ofSource source.text)) =
      matchesOf (loadAttempts (Token.ofSource other.text)))
    (tally : (factsOf (extract rootName source key)).tally =
      (factsOf (extract rootName other key)).tally) :
    factsOf (extract rootName source key) = factsOf (extract rootName other key) := by
  have references : loads (Token.ofSource source.text) = loads (Token.ofSource other.text) := by
    rw [loads, loads, found]
  have fileName : source.fileName = other.fileName := by
    rw [SourceFile.fileName, SourceFile.fileName, path]
  refine Facts.ext ?_ ?_ tally
  · simp [factsOf, extract, facts, references, path, fileName]
  · simp [factsOf, extract, facts, references]

/-! ## Scripts with and without their comments -/

/-- Comments keep apart from the words that the scans look for: none opens a fact while the
preamble is read, none follows such a word or a load word directly, and they do not both
end the preamble early and name load words. -/
def isOrderly (fragments : List Fragment) : Bool :=
  Preamble.isSilent fragments && loadsApart fragments &&
    (hiddenLoads fragments = 0 || Preamble.lostAttempts fragments = 0)

theorem preamble_eq_read (text : String) :
    preamble (Token.ofSource text) = Preamble.empty.read (newline :: Token.ofSource text) := by
  have unwatched : Preamble.isWatched newline = false := by decide
  rw [preamble_ofSource, Preamble.read_of_not_isWatched _ unwatched]

theorem loadAttempts_newline_cons (tokens : List String) :
    loadAttempts (newline :: tokens) = loadAttempts tokens :=
  loadAttempts_cons newline tokens

section

variable (rootName : String) (source : SourceFile) (key : String)

/-- An orderly script has the same facts without its comments if and only if no comment
ends its preamble early, none names a load word, and none cuts a load call. -/
theorem facts_uncommented_iff (orderly : isOrderly (fragmentsOf source.text) = true) :
    factsOf (extract rootName { source with text := uncommented source.text } key) =
        factsOf (extract rootName source key) ↔
      Preamble.lostAttempts (fragmentsOf source.text) = 0 ∧
        hiddenLoads (fragmentsOf source.text) = 0 ∧ cutCalls (fragmentsOf source.text) = 0 := by
  obtain ⟨⟨silent, apart⟩, either⟩ : (Preamble.isSilent (fragmentsOf source.text) = true ∧
      loadsApart (fragmentsOf source.text) = true) ∧
      (hiddenLoads (fragmentsOf source.text) = 0 ∨
        Preamble.lostAttempts (fragmentsOf source.text) = 0) := by
    simpa [isOrderly] using orderly
  have sound := sound_fragmentsOf source.text
  obtain ⟨fewer, sameScan⟩ := Preamble.read_streams_of_isSilent sound silent
  have more := length_loadAttempts_streams sound apart
  have found := matchesOf_loadAttempts_streams sound apart
  rw [fullStream_fragmentsOf, bareStream_fragmentsOf] at fewer sameScan more found
  rw [← preamble_eq_read, ← preamble_eq_read] at fewer sameScan
  rw [loadAttempts_newline_cons, loadAttempts_newline_cons] at more found
  constructor
  · intro same
    have total := attempts_factsOf rootName { source with text := uncommented source.text } key
    rw [same, attempts_factsOf] at total
    dsimp only at total
    -- Lost attempts would make up for hidden load words, so one of them has to be none.
    have nothingHidden : hiddenLoads (fragmentsOf source.text) = 0 := by omega
    have nothingLost : Preamble.lostAttempts (fragmentsOf source.text) = 0 := by omega
    have hits := congrArg (fun facts => facts.tally.hits) same
    simp only [tally_factsOf] at hits
    rw [sameScan nothingLost] at hits
    simp only [Tally.add, Tally.ofCounts, ← length_matchesOf] at hits
    have lengths := (found nothingHidden).1
    exact ⟨nothingLost, nothingHidden, by omega⟩
  · rintro ⟨nothingLost, nothingHidden, nothingCut⟩
    have scans := sameScan nothingLost
    have sameMatches := (found nothingHidden).2 nothingCut
    have lengths : (loadAttempts (Token.ofSource (uncommented source.text))).length =
        (loadAttempts (Token.ofSource source.text)).length := by omega
    refine factsOf_congr rootName key rfl (congrArg Prod.fst scans.symm) sameMatches.symm ?_
    rw [tally_factsOf, tally_factsOf, ofCounts_countsOf_congr sameMatches.symm lengths]
    rw [scans]

end

/-! ## Comment lines -/

/-- The text with a comment line in front. -/
def withCommentLine (comment : List Char) (text : String) : String :=
  String.ofList (commentMark :: comment ++ '\n' :: text.toList)

theorem ofSource_withCommentLine (comment : List Char) (text : String) :
    Token.ofSource (withCommentLine comment text) =
      (ofGodot (commentMark :: comment) ++ [newline]) ++ Token.ofSource text := by
  rw [withCommentLine, Token.ofSource, Token.ofSource, Token.ofText_godot, Token.ofText_godot,
    String.toList_ofList, Token.ofGodot_append_newline, List.append_assoc]
  rfl

/-- None of the tokens is a word that a scan looks for. -/
def Unread (tokens : List String) : Prop :=
  ∀ token ∈ tokens, Preamble.isWatched token = false ∧ isLoadWord token = false

theorem unread_append_newline {tokens : List String} :
    Unread (tokens ++ [newline]) ↔ Unread tokens := by
  have ends : Preamble.isWatched newline = false ∧ isLoadWord newline = false := by decide
  constructor
  · exact fun unread token member => unread token (List.mem_append_left _ member)
  · intro unread token member
    rcases List.mem_append.1 member with before | last
    · exact unread token before
    · exact List.mem_singleton.1 last ▸ ends

section

variable (rootName key : String) {line : List String}

/-- Tokens that no scan looks for change nothing in front of a script. -/
theorem factsOf_of_unread (unread : Unread line) {source other : SourceFile}
    (path : other.path = source.path)
    (tokens : Token.ofSource other.text = line ++ Token.ofSource source.text) :
    factsOf (extract rootName other key) = factsOf (extract rootName source key) := by
  have scans : preamble (Token.ofSource other.text) = preamble (Token.ofSource source.text) := by
    rw [preamble_ofSource, preamble_ofSource, tokens,
      Preamble.read_append_of_not_isWatched _ fun token member => (unread token member).1]
  have attempts : loadAttempts (Token.ofSource other.text) =
      loadAttempts (Token.ofSource source.text) := by
    rw [tokens, loadAttempts_append_of_not_isLoadWord fun token member => (unread token member).2]
  refine factsOf_congr rootName key path (congrArg Prod.fst scans) (congrArg matchesOf attempts) ?_
  rw [tally_factsOf, tally_factsOf, scans, attempts]

/-- Nothing is attempted in a script with the facts of an empty one. -/
theorem no_attempts_of_empty {source : SourceFile}
    (same : factsOf (extract rootName source key) =
      factsOf (extract rootName { source with text := "" } key)) :
    (preamble (Token.ofSource source.text)).2 = [] ∧
      ∀ token ∈ Token.ofSource source.text, isLoadWord token = false := by
  have total := attempts_factsOf rootName source key
  have blank : Token.ofSource "" = [] := by
    rw [Token.ofSource, Token.ofText_godot]
    rfl
  have nothing : (preamble []).2.length + (loadAttempts []).length = 0 := rfl
  rw [same, attempts_factsOf, blank, nothing, length_loadAttempts] at total
  obtain ⟨noCounts, noLoads⟩ := Nat.add_eq_zero_iff.1 total.symm
  exact ⟨List.length_eq_zero_iff.1 noCounts, by simpa [List.countP_eq_zero] using noLoads⟩

/-- The name of a script is not found below a line that ends the scan. -/
theorem moduleName_below {text : String} (noCounts : (Preamble.empty.read line).2 = [])
    (watched : line.any Preamble.isWatched = true)
    (tokens : Token.ofSource text = line ++ Token.ofSource "class_name Foo") (path : String) :
    (factsOf (extract rootName ⟨path, text⟩ key)).file.moduleName ≠
      (factsOf (extract rootName ⟨path, "class_name Foo"⟩ key)).file.moduleName := by
  have ended := Preamble.read_append_of_no_counts noCounts watched (Token.ofSource "class_name Foo")
  have named : (preamble (Token.ofSource "class_name Foo")).1.className = some "Foo" := by
    decide +kernel
  rw [moduleName_factsOf, moduleName_factsOf, named, preamble_ofSource, tokens, ended]
  decide

/-- A comment line changes nothing in front of any script if and only if no scan looks for
one of its words. -/
theorem commentLine_changes_nothing_iff (comment : List Char) :
    (∀ source : SourceFile,
        factsOf (extract rootName
            { source with text := withCommentLine comment source.text } key) =
          factsOf (extract rootName source key)) ↔
      Unread (ofGodot (commentMark :: comment)) := by
  rw [← unread_append_newline]
  constructor
  · intro unchanged
    have alone : Token.ofSource (withCommentLine comment "") =
        ofGodot (commentMark :: comment) ++ [newline] := by
      rw [ofSource_withCommentLine]
      exact List.append_nil _
    have onEmpty := unchanged ⟨"", ""⟩
    obtain ⟨noCounts, noLoads⟩ := no_attempts_of_empty rootName key onEmpty
    rw [preamble_ofSource] at noCounts
    dsimp only at noCounts noLoads
    rw [alone] at noCounts noLoads
    intro token member
    refine ⟨?_, noLoads token member⟩
    by_contra notUnwatched
    have watched := List.any_eq_true.2 ⟨token, member, by simpa using notUnwatched⟩
    have sameFacts := unchanged ⟨"", "class_name Foo"⟩
    dsimp only at sameFacts
    refine moduleName_below rootName key noCounts watched (ofSource_withCommentLine comment _) "" ?_
    rw [sameFacts]
  · intro unread source
    exact factsOf_of_unread rootName key unread rfl (ofSource_withCommentLine comment source.text)

/-- Comments keep the facts of an orderly script if and only if none ends its preamble
early, none names a load word and none cuts a load call; and a comment line keeps the facts
of every script that it stands in front of if and only if no scan looks for one of its
words. -/
theorem comments_keep_facts_iff :
    (∀ source : SourceFile, isOrderly (fragmentsOf source.text) = true →
      (factsOf (extract rootName { source with text := uncommented source.text } key) =
          factsOf (extract rootName source key) ↔
        Preamble.lostAttempts (fragmentsOf source.text) = 0 ∧
          hiddenLoads (fragmentsOf source.text) = 0 ∧ cutCalls (fragmentsOf source.text) = 0)) ∧
      ∀ comment : List Char,
        (∀ source : SourceFile,
            factsOf (extract rootName
                { source with text := withCommentLine comment source.text } key) =
              factsOf (extract rootName source key)) ↔
          Unread (ofGodot (commentMark :: comment)) :=
  ⟨fun source => facts_uncommented_iff rootName source key,
    commentLine_changes_nothing_iff rootName key⟩

end

/-- A script with comments in every place where they do no harm: after a fact, with a
keyword of the body once both facts are known, and after a call. -/
def commentedScript : SourceFile where
  path := "/work/game/hud.gd"
  text := "class_name Hud # the hud\nextends Control\n# const only\nfunc show():\n\tload(\"res://hud.tscn\") # later\n"

theorem comments_keep_facts_harmless :
    isOrderly (fragmentsOf commentedScript.text) = true ∧
      factsOf (extract "game" { commentedScript with text := uncommented commentedScript.text }
          "game/hud.gd") =
        factsOf (extract "game" commentedScript "game/hud.gd") := by
  have orderly : isOrderly (fragmentsOf commentedScript.text) = true := by decide +kernel
  refine ⟨orderly, ((comments_keep_facts_iff "game" "game/hud.gd").1 commentedScript orderly).2 ?_⟩
  decide +kernel

/-- A script gets its name from a comment, and loses it with the comment. -/
theorem facts_change_with_comment :
    factsOf (extract "game" ⟨"/work/game/a.gd", uncommented "# class_name Foo\n"⟩ "game/a.gd") ≠
      factsOf (extract "game" ⟨"/work/game/a.gd", "# class_name Foo\n"⟩ "game/a.gd") := by
  decide +kernel

end Script

end GodotGraph
