import GodotGraph.Proofs.Pattern.Purity
import Mathlib.Data.List.Infix
import Mathlib.Data.List.Perm.Basic

/-!
Contract: groups whose members exclude one another.

Owns:
- members of which at most one matches at each end of a text;
- the order in which a group reads such members, which is the only one that matches;
- acceptance of every order by the group, and its independence of the order of the list.

A group takes the first member that matches and never takes it back. Where members exclude
one another that is no loss: the member that heads a matching order is the one taken.

Does not own: which groups have such members.
-/

set_option autoImplicit false

namespace GodotGraph.Pattern

namespace Reader

variable {members others order left : List Member} {text : List Char} {found last : Reading}

def Member.Matches (member : Member) (text : List Char) : Prop :=
  ∃ found, member.reader text = .ok found

theorem Member.not_matches_iff {member : Member} :
    ¬ member.Matches text ↔ ∃ stuck, member.reader text = .error stuck := by
  unfold Member.Matches
  cases member.reader text <;> simp

/-- The reader leaves an end of its text. -/
def Shrinks (reader : Reader) : Prop :=
  ∀ text found, reader text = .ok found → found.rest <:+ text

/-- At each end of the text one member matches at most. -/
def Exclusive (members : List Member) (text : List Char) : Prop :=
  ∀ rest, rest <:+ text →
    members.Pairwise fun one other => ¬ (one.Matches rest ∧ other.Matches rest)

namespace Exclusive

theorem perm (exclusive : Exclusive members text) (same : members.Perm others) :
    Exclusive others text := by
  intro rest ends
  apply (same.pairwise_iff _).1 (exclusive rest ends)
  intro one other apart both
  exact apart both.symm

theorem sublist (exclusive : Exclusive members text) (fewer : others.Sublist members)
    {rest : List Char} (ends : rest <:+ text) : Exclusive others rest :=
  fun later inRest => (exclusive later (inRest.trans ends)).sublist fewer

/-- The member that matches at the start of the text is the only one that does. -/
theorem eq_of_matches {before after : List Member} {one other : Member}
    (exclusive : Exclusive (before ++ one :: after) text) (oneMatches : one.Matches text)
    (inside : other ∈ before ++ one :: after) (otherMatches : other.Matches text) :
    other = one := by
  have apart := List.pairwise_append.1 (exclusive text List.suffix_rfl)
  rcases List.mem_append.1 inside with early | rest
  · exact absurd ⟨otherMatches, oneMatches⟩ (apart.2.2 other early one List.mem_cons_self)
  · rcases List.mem_cons.1 rest with same | late
    · exact same
    · exact absurd ⟨oneMatches, otherMatches⟩ ((List.pairwise_cons.1 apart.2.1).1 other late)

end Exclusive

/-! ## The order in which members are read -/

theorem sequence_append_ok {first second : List Reader}
    (readFirst : sequence first text = .ok found)
    (readSecond : sequence second found.rest = .ok last) :
    sequence (first ++ second) text = .ok ⟨last.rest, found.captures ++ last.captures⟩ := by
  induction first generalizing text found with
  | nil =>
      cases readFirst
      exact readSecond
  | cons reader readers inductionHypothesis =>
      simp only [sequence] at readFirst
      split at readFirst
      · cases readFirst
      · next next read =>
          split at readFirst
          · cases readFirst
          · next final readFinal =>
              cases readFirst
              simp only [List.cons_append, sequence, read,
                inductionHypothesis readFinal readSecond, List.append_assoc]

theorem exists_order_of_collects (collects : Collects members text left last) :
    ∃ order, members.Perm (order ++ left) ∧
      sequence (order.map Member.reader) text = .ok last ∧
        ∀ member ∈ left, ¬ member.Matches last.rest := by
  induction collects with
  | stop none =>
      exact ⟨[], .refl _, rfl, fun member inside => Member.not_matches_iff.2 (none member inside)⟩
  | take failed read later inductionHypothesis =>
      obtain ⟨order, same, sequenced, beyond⟩ := inductionHypothesis
      refine ⟨_ :: order, List.perm_middle.trans (same.cons _), ?_, beyond⟩
      simp only [List.map_cons, sequence, read, sequenced]

/-- Where members exclude one another, only one order matches up to a place at which no member
left over does. -/
theorem eq_of_collects (collects : Collects members text left last)
    (shrinks : ∀ member ∈ members, Shrinks member.reader) (exclusive : Exclusive members text)
    (same : members.Perm (order ++ others))
    (sequenced : sequence (order.map Member.reader) text = .ok found)
    (beyond : ∀ member ∈ others, ¬ member.Matches found.rest) :
    found = last ∧ others.Perm left := by
  induction collects generalizing order found with
  | @stop members text none =>
      have nothing : ∀ member ∈ members, ¬ member.Matches text :=
        fun member inside => Member.not_matches_iff.2 (none member inside)
      cases order with
      | nil =>
          cases sequenced
          exact ⟨rfl, same.symm⟩
      | cons head order =>
          have inside : head ∈ members := same.mem_iff.2 (by simp)
          obtain ⟨stuck, fails⟩ := none head inside
          simp only [List.map_cons, sequence, fails] at sequenced
          cases sequenced
  | @take before after member text left first last failed read later inductionHypothesis =>
      have taken : member.Matches text := ⟨first, read⟩
      cases order with
      | nil =>
          cases sequenced
          have leftOver : member ∈ others := same.mem_iff.1 (by simp)
          exact absurd taken (beyond member leftOver)
      | cons head order =>
          simp only [List.map_cons, sequence] at sequenced
          split at sequenced
          · cases sequenced
          · next next readHead =>
              have isTaken : head = member :=
                exclusive.eq_of_matches taken (same.mem_iff.2 (by simp)) ⟨next, readHead⟩
              subst isTaken
              rw [read] at readHead
              cases readHead
              split at sequenced
              · cases sequenced
              · next final readFinal =>
                  cases sequenced
                  have fewer : (before ++ after).Perm (order ++ others) :=
                    (List.perm_middle.symm.trans same).cons_inv
                  have sublist : (before ++ after).Sublist (before ++ head :: after) :=
                    (List.sublist_cons_self head after).append_left before
                  have ends : first.rest <:+ text := shrinks head (by simp) text first read
                  obtain ⟨rfl, same⟩ := inductionHypothesis
                    (fun other inside => shrinks other (sublist.subset inside))
                    (exclusive.sublist sublist ends) fewer readFinal beyond
                  exact ⟨rfl, same⟩

/-! ## Groups -/

section

variable (shrinks : ∀ member ∈ members, Shrinks member.reader)
  (exclusive : Exclusive members text)

include shrinks exclusive

/-- A group reads its members in the one order that matches and leaves no member behind that
is required or still matches. -/
theorem anyOrder_eq_ok_iff :
    anyOrder members text = .ok found ↔
      ∃ order left, members.Perm (order ++ left) ∧
        sequence (order.map Member.reader) text = .ok found ∧
          ∀ member ∈ left, member.required = false ∧ ¬ member.Matches found.rest := by
  obtain ⟨left, last, collects, outcome⟩ := collects_anyOrder members text
  rw [outcome]
  constructor
  · rintro ⟨rfl, complete⟩
    obtain ⟨order, same, sequenced, beyond⟩ := exists_order_of_collects collects
    exact ⟨order, left, same, sequenced,
      fun member inside => ⟨complete member inside, beyond member inside⟩⟩
  · rintro ⟨order, rest, same, sequenced, beyond⟩
    obtain ⟨rfl, leftOver⟩ := eq_of_collects collects shrinks exclusive same sequenced
      fun member inside => (beyond member inside).2
    exact ⟨rfl, fun member inside => (beyond member (leftOver.mem_iff.2 inside)).1⟩

theorem anyOrder_perm (same : members.Perm others) :
    anyOrder members text = .ok found ↔ anyOrder others text = .ok found := by
  have shrinksOthers : ∀ member ∈ others, Shrinks member.reader :=
    fun member inside => shrinks member (same.mem_iff.2 inside)
  rw [anyOrder_eq_ok_iff shrinks exclusive,
    anyOrder_eq_ok_iff shrinksOthers (exclusive.perm same)]
  constructor
  · rintro ⟨order, left, split, reads⟩
    exact ⟨order, left, same.symm.trans split, reads⟩
  · rintro ⟨order, left, split, reads⟩
    exact ⟨order, left, same.trans split, reads⟩

/-- Whatever optional members an order leaves out, the group goes on to read those that match
behind it. -/
theorem anyOrder_isOk_iff :
    (∃ found, anyOrder members text = .ok found) ↔
      ∃ order left, members.Perm (order ++ left) ∧ (∀ member ∈ left, member.required = false) ∧
        ∃ found, sequence (order.map Member.reader) text = .ok found := by
  constructor
  · rintro ⟨found, read⟩
    obtain ⟨order, left, same, sequenced, beyond⟩ :=
      (anyOrder_eq_ok_iff shrinks exclusive).1 read
    exact ⟨order, left, same, fun member inside => (beyond member inside).1, found, sequenced⟩
  · rintro ⟨order, left, same, spare, found, sequenced⟩
    obtain ⟨fewer, last, collects, -⟩ := collects_anyOrder left found.rest
    obtain ⟨further, split, sequencedFurther, beyond⟩ := exists_order_of_collects collects
    refine ⟨⟨last.rest, found.captures ++ last.captures⟩,
      (anyOrder_eq_ok_iff shrinks exclusive).2 ⟨order ++ further, fewer, ?_, ?_, ?_⟩⟩
    · rw [List.append_assoc]
      exact same.trans (split.append_left order)
    · rw [List.map_append]
      exact sequence_append_ok sequenced sequencedFurther
    · intro member inside
      have spared : member ∈ left := split.mem_iff.2 (List.mem_append_right _ inside)
      exact ⟨spare member spared, beyond member inside⟩

end

end Reader

/-! ## Members as patterns -/

/-- The pattern may be absent from a group. -/
def isOptional : Pattern → Bool
  | optional _ => true
  | _ => false

/-- What a group tries for the pattern: an optional one stands for its inner pattern. -/
def standIn : Pattern → Pattern
  | optional inner => inner
  | pattern => pattern

theorem memberOf_required (pattern : Pattern) :
    (memberOf reader pattern).required = !pattern.isOptional := by
  cases pattern <;> rfl

theorem memberOf_reader (pattern : Pattern) :
    (memberOf reader pattern).reader = pattern.standIn.reader := by
  cases pattern <;> rfl

theorem shrinks_reader (pattern : Pattern) : Reader.Shrinks pattern.reader := by
  intro text found read
  have start : pattern.reader (Cursor.start text).rest = .ok found := read
  exact ((simulates_reader pattern).ok start []).1

theorem matcher_eq_ok_iff {pattern : Pattern} {cursor next : Cursor} {trail longer : Trail} :
    pattern.matcher cursor trail = (.ok next, longer) ↔
      ∃ found, pattern.reader cursor.rest = .ok found ∧ next = cursor.goto found.rest ∧
        longer = trail ++ found.captures := by
  cases read : pattern.reader cursor.rest with
  | ok found =>
      rw [((simulates_reader pattern).ok read trail).2]
      simp [eq_comm]
  | error stuck =>
      obtain ⟨left, fails⟩ := ((simulates_reader pattern).error read trail).2
      simp [fails]

/-- The pattern matches from the cursor on. -/
def MatchesAt (pattern : Pattern) (cursor : Cursor) : Prop :=
  ∃ next longer, pattern.matcher cursor [] = (.ok next, longer)

/-- At each position of the text one of the patterns matches at most. -/
def Exclusive (group : List Pattern) (text : List Char) : Prop :=
  ∀ before rest, text = before ++ rest →
    group.Pairwise fun one other =>
      ¬ (one.standIn.MatchesAt ⟨byteLength before, rest⟩ ∧
        other.standIn.MatchesAt ⟨byteLength before, rest⟩)

theorem matches_memberOf_iff (pattern : Pattern) (cursor : Cursor) :
    (memberOf reader pattern).Matches cursor.rest ↔ pattern.standIn.MatchesAt cursor := by
  simp only [Reader.Member.Matches, memberOf_reader, MatchesAt, matcher_eq_ok_iff]
  simp

theorem exclusive_iff {group : List Pattern} {text : List Char} :
    Exclusive group text ↔ Reader.Exclusive (group.map (memberOf reader)) text := by
  constructor
  · rintro exclusive rest ⟨before, shape⟩
    rw [List.pairwise_map]
    refine (exclusive before rest shape.symm).imp ?_
    intro one other apart both
    exact apart ⟨(matches_memberOf_iff one ⟨_, rest⟩).1 both.1,
      (matches_memberOf_iff other ⟨_, rest⟩).1 both.2⟩
  · intro exclusive before rest shape
    have pairs := exclusive rest ⟨before, shape.symm⟩
    rw [List.pairwise_map] at pairs
    refine pairs.imp ?_
    intro one other apart both
    exact apart ⟨(matches_memberOf_iff one ⟨_, rest⟩).2 both.1,
      (matches_memberOf_iff other ⟨_, rest⟩).2 both.2⟩

theorem reader_anyOrder (group : List Pattern) :
    (anyOrder group).reader = Reader.anyOrder (group.map (memberOf reader)) := by
  rw [reader, memberReaders_eq_map]

theorem reader_seq_standIn (order : List Pattern) :
    (seq (order.map standIn)).reader =
      Reader.sequence ((order.map (memberOf reader)).map Reader.Member.reader) := by
  simp only [reader, readers_eq_map, List.map_map]
  congr 1
  apply List.map_congr_left
  intro pattern _
  exact (memberOf_reader pattern).symm

theorem shrinks_members (group : List Pattern) :
    ∀ member ∈ group.map (memberOf reader), Reader.Shrinks member.reader := by
  intro member inside
  obtain ⟨pattern, -, rfl⟩ := List.mem_map.1 inside
  rw [memberOf_reader]
  exact shrinks_reader _

/-- An order of the members of a group is one of its patterns. -/
theorem exists_order_iff {group : List Pattern} {good : List Reader.Member → Prop} :
    (∃ order left, (group.map (memberOf reader)).Perm (order ++ left) ∧
        (∀ member ∈ left, member.required = false) ∧ good order) ↔
      ∃ order left, group.Perm (order ++ left) ∧
        (∀ pattern ∈ left, pattern.isOptional = true) ∧ good (order.map (memberOf reader)) := by
  constructor
  · rintro ⟨order, left, same, spare, isGood⟩
    obtain ⟨mixed, shape, sameMixed⟩ : ∃ mixed : List Pattern,
        order ++ left = mixed.map (memberOf reader) ∧ mixed.Perm group := by
      have composed := List.eq_map_comp_perm (memberOf reader)
      exact (congrFun (congrFun composed (order ++ left)) group).symm.mp same.symm
    obtain ⟨front, back, rfl, rfl, rfl⟩ := List.append_eq_map_iff.1 shape
    refine ⟨front, back, sameMixed.symm, ?_, isGood⟩
    intro pattern inside
    have unneeded := spare _ (List.mem_map_of_mem inside)
    simpa [memberOf_required] using unneeded
  · rintro ⟨order, left, same, spare, isGood⟩
    refine ⟨_, left.map (memberOf reader), ?_, ?_, isGood⟩
    · rw [← List.map_append]
      exact same.map _
    · intro member inside
      obtain ⟨pattern, isSpare, rfl⟩ := List.mem_map.1 inside
      simp [memberOf_required, spare pattern isSpare]

/-- A group of members that exclude one another in the text matches exactly where some order of
all its required members and some of its optional ones matches. The order of the list makes no
difference to whether it matches, to where it ends, or to the captures. -/
theorem anyOrder_accepts_any_order {group : List Pattern} {before rest : List Char}
    (exclusive : Exclusive group (before ++ rest)) (trail : Trail) :
    ((∃ next longer,
        (anyOrder group).matcher ⟨byteLength before, rest⟩ trail = (.ok next, longer)) ↔
      ∃ order left, group.Perm (order ++ left) ∧
        (∀ pattern ∈ left, pattern.isOptional = true) ∧
          ∃ next longer, (seq (order.map standIn)).matcher ⟨byteLength before, rest⟩ trail =
            (.ok next, longer)) ∧
      ∀ other, group.Perm other → ∀ next longer,
        ((anyOrder group).matcher ⟨byteLength before, rest⟩ trail = (.ok next, longer) ↔
          (anyOrder other).matcher ⟨byteLength before, rest⟩ trail = (.ok next, longer)) := by
  have apart := (exclusive_iff.1 exclusive).sublist (.refl _) (List.suffix_append before rest)
  have shrinks := shrinks_members group
  constructor
  · have accepts := Reader.anyOrder_isOk_iff shrinks apart
    rw [exists_order_iff] at accepts
    simpa [matcher_eq_ok_iff, reader_anyOrder, reader_seq_standIn] using accepts
  · intro other same next longer
    have unchanged : ∀ found, Reader.anyOrder (group.map (memberOf reader)) rest = .ok found ↔
        Reader.anyOrder (other.map (memberOf reader)) rest = .ok found :=
      fun found => Reader.anyOrder_perm shrinks apart (same.map (memberOf reader))
    simp only [matcher_eq_ok_iff, reader_anyOrder, unchanged]

/-- Three fields, of which the second may be absent. -/
def letterFields : List Pattern :=
  [ .seq [.literal "a=", .named "a" (.word .letters .alphanumeric)],
    .optional (.seq [.literal "b=", .named "b" (.word .letters .alphanumeric)]),
    .seq [.literal "c=", .named "c" (.word .letters .alphanumeric)] ]

/-- From the start of the text all three fields are read, in the order of the text. Behind the
first one no order of the fields matches. -/
theorem letterFields_accept_any_order :
    Exclusive letterFields "a=x b=y c=z".toList ∧
      (∀ other, letterFields.Perm other →
        (anyOrder other).matcher ⟨0, "a=x b=y c=z".toList⟩ [] =
          (.ok ⟨11, []⟩, [⟨"a", "x"⟩, ⟨"b", "y"⟩, ⟨"c", "z"⟩])) ∧
      ¬ ∃ order left, letterFields.Perm (order ++ left) ∧
        (∀ pattern ∈ left, pattern.isOptional = true) ∧
          ∃ next longer, (seq (order.map standIn)).matcher ⟨3, " b=y c=z".toList⟩ [] =
            (.ok next, longer) := by
  have exclusive : Exclusive letterFields "a=x b=y c=z".toList := by
    rw [exclusive_iff]
    intro rest ends
    have apart : ∀ rest ∈ "a=x b=y c=z".toList.tails, letterFields.Pairwise fun one other =>
        ¬ ((one.standIn.reader rest).isOk = true ∧ (other.standIn.reader rest).isOk = true) := by
      decide +kernel
    rw [List.pairwise_map]
    refine (apart rest ((List.mem_tails _ _).2 ends)).imp ?_
    rintro one other apart ⟨⟨found, reads⟩, ⟨late, readsOther⟩⟩
    rw [memberOf_reader] at reads readsOther
    exact apart ⟨by rw [reads]; rfl, by rw [readsOther]; rfl⟩
  have atStart := @anyOrder_accepts_any_order letterFields [] "a=x b=y c=z".toList exclusive []
  have behind :=
    @anyOrder_accepts_any_order letterFields "a=x".toList " b=y c=z".toList exclusive []
  refine ⟨exclusive, ?_, ?_⟩
  · intro other same
    exact (atStart.2 other same _ _).1 (by decide +kernel)
  · intro accepted
    obtain ⟨next, longer, matched⟩ := behind.1.2 accepted
    have missing : (anyOrder letterFields).matcher ⟨3, " b=y c=z".toList⟩ [] =
        (.error ⟨11, "'a='"⟩, [⟨"b", "y"⟩, ⟨"c", "z"⟩]) := by decide +kernel
    exact absurd (missing.symm.trans matched) (by simp)

end GodotGraph.Pattern
