import GodotGraph.FileTree.Listing
import GodotGraph.Proofs.Path

/-!
Contract: well-formed file trees, and what a walk sees of them.

Owns:
- trees with proper names, each of which stands once in its directory;
- the way to what a walk sees below a place;
- that a walk through a well-formed tree sees a well-formed one, with links left alone or followed;
- files of a tree as files that a walk sees.

Does not own: what a walk leaves out.
-/

set_option autoImplicit false

namespace GodotGraph.FileTree

/-! ## Entries -/

/-- Names that can stand together in a directory. -/
structure ProperNames (names : List String) : Prop where
  distinct : names.Nodup
  isName : ∀ name ∈ names, Path.IsName name

instance : DecidablePred ProperNames := fun names =>
  decidable_of_iff (names.Nodup ∧ ∀ name ∈ names, Path.IsName name)
    ⟨fun ⟨distinct, isName⟩ => ⟨distinct, isName⟩, fun proper => ⟨proper.distinct, proper.isName⟩⟩

section Entries

variable {α β : Type}

theorem lookup_eq_some_iff_mem {entries : List (String × α)}
    (distinct : (entries.map Prod.fst).Nodup) {name : String} {value : α} :
    entries.lookup name = some value ↔ (name, value) ∈ entries := by
  induction entries with
  | nil => simp
  | cons entry rest inductionHypothesis =>
      obtain ⟨key, held⟩ := entry
      obtain ⟨absent, later⟩ := List.nodup_cons.1 distinct
      by_cases same : name = key
      · subst same
        have elsewhere : (name, value) ∉ rest := fun member =>
          absent (List.mem_map.2 ⟨(name, value), member, rfl⟩)
        simp [elsewhere, eq_comm]
      · have other : (name == key) = false := beq_eq_false_iff_ne.2 same
        rw [List.lookup_cons, other, inductionHypothesis later]
        simp [same]

theorem lookup_map_entry (change : String × α → β) (entries : List (String × α)) (name : String) :
    (entries.map fun entry => (entry.1, change entry)).lookup name =
      (entries.lookup name).map fun value => change (name, value) := by
  induction entries with
  | nil => rfl
  | cons entry rest inductionHypothesis =>
      obtain ⟨key, held⟩ := entry
      rw [List.map_cons, List.lookup_cons, List.lookup_cons, inductionHypothesis]
      by_cases same : name = key
      · simp [same]
      · simp [beq_eq_false_iff_ne.2 same]

end Entries

/-! ## Well-formed trees -/

/-- Every directory at or below the node has proper names. -/
inductive Node.Orderly : Node → Prop
  | file (content : Content) : Orderly (.file content)
  | link (target : String) : Orderly (.link target)
  | directory {entries : List (String × Node)} (names : ProperNames (entries.map Prod.fst))
      (below : ∀ entry ∈ entries, Orderly entry.2) : Orderly (.directory entries)

namespace Node

@[simp]
theorem orderly_file (content : Content) : (file content).Orderly := .file content

@[simp]
theorem orderly_link (target : String) : (link target).Orderly := .link target

theorem orderly_directory_iff {entries : List (String × Node)} :
    (directory entries).Orderly ↔
      ProperNames (entries.map Prod.fst) ∧ ∀ entry ∈ entries, entry.2.Orderly := by
  constructor
  · intro orderly
    cases orderly with
    | directory names below => exact ⟨names, below⟩
  · exact fun ⟨names, below⟩ => .directory names below

theorem at?_append (first second : List String) (node : Node) :
    node.at? (first ++ second) = (node.at? first).bind (at? second) := by
  induction first generalizing node with
  | nil => rfl
  | cons name first inductionHypothesis =>
      rw [List.cons_append, at?, at?]
      cases node.entry? name with
      | none => rfl
      | some below => exact inductionHypothesis below

theorem Orderly.of_entry? {node below : Node} {name : String} (orderly : node.Orderly)
    (isEntry : node.entry? name = some below) : Path.IsName name ∧ below.Orderly := by
  cases orderly with
  | file | link => cases isEntry
  | directory proper entriesOrderly =>
      have member := (lookup_eq_some_iff_mem proper.distinct).1 isEntry
      exact ⟨proper.isName name (List.mem_map_of_mem member), entriesOrderly _ member⟩

/-- What is below a well-formed node is well-formed, and there are only names on the way. -/
theorem Orderly.of_at? {node found : Node} {place : List String} (orderly : node.Orderly)
    (isThere : node.at? place = some found) :
    found.Orderly ∧ ∀ name ∈ place, Path.IsName name := by
  induction place generalizing node with
  | nil => exact ⟨Option.some.inj isThere ▸ orderly, List.forall_mem_nil _⟩
  | cons name place inductionHypothesis =>
      rw [at?] at isThere
      obtain ⟨below, isEntry, later⟩ := Option.bind_eq_some_iff.1 isThere
      obtain ⟨isName, belowOrderly⟩ := orderly.of_entry? isEntry
      obtain ⟨foundOrderly, names⟩ := inductionHypothesis belowOrderly later
      exact ⟨foundOrderly, List.forall_mem_cons.2 ⟨isName, names⟩⟩

end Node

/-! ## Well-formed listings -/

namespace Listing

/-- Every directory at or below has proper names. -/
inductive Orderly : Listing → Prop
  | file : Orderly .file
  | other : Orderly .other
  | fault (message : String) : Orderly (.fault message)
  | directory {entries : List (String × Listing)} (names : ProperNames (entries.map Prod.fst))
      (below : ∀ entry ∈ entries, Orderly entry.2) : Orderly (.directory entries)

/-- An entry of a directory that a walk sees. -/
def entry? (name : String) : Listing → Option Listing
  | directory entries => entries.lookup name
  | _ => none

/-- What a walk sees below some names. -/
def at? : List String → Listing → Option Listing
  | [], listing => some listing
  | name :: names, listing => (listing.entry? name).bind (at? names)

theorem Orderly.of_entry? {listing below : Listing} {name : String} (orderly : listing.Orderly)
    (isEntry : listing.entry? name = some below) : Path.IsName name ∧ below.Orderly := by
  cases orderly with
  | file | other | fault => cases isEntry
  | directory proper entriesOrderly =>
      have member := (lookup_eq_some_iff_mem proper.distinct).1 isEntry
      exact ⟨proper.isName name (List.mem_map_of_mem member), entriesOrderly _ member⟩

theorem Orderly.isName_of_at? {listing found : Listing} {names : List String}
    (orderly : listing.Orderly) (isThere : listing.at? names = some found) :
    ∀ name ∈ names, Path.IsName name := by
  induction names generalizing listing with
  | nil => exact List.forall_mem_nil _
  | cons name names inductionHypothesis =>
      rw [at?] at isThere
      obtain ⟨below, isEntry, later⟩ := Option.bind_eq_some_iff.1 isThere
      obtain ⟨isName, belowOrderly⟩ := orderly.of_entry? isEntry
      exact List.forall_mem_cons.2 ⟨isName, inductionHypothesis belowOrderly later⟩

end Listing

theorem entryListings_eq_map (rule : LinkRule) (above : List Ancestor) (place : List String)
    (path : String) (entries : List (String × Node)) :
    entryListings rule above place path entries = entries.map fun entry =>
      (entry.1, listing rule above (place ++ [entry.1]) (Path.join path entry.1) entry.2) := by
  induction entries with
  | nil => rw [entryListings, List.map_nil]
  | cons entry rest inductionHypothesis =>
      rw [entryListings, inductionHypothesis, List.map_cons]

theorem Node.Orderly.listing {rule : LinkRule} (links : ∀ above path, (rule above path).Orderly)
    {node : Node} (orderly : node.Orderly) (above : List Ancestor) (place : List String)
    (path : String) : (listing rule above place path node).Orderly := by
  induction orderly generalizing above place path with
  | file => rw [FileTree.listing]; exact .file
  | link => rw [FileTree.listing]; exact links above path
  | directory names _ inductionHypothesis =>
      rw [FileTree.listing, entryListings_eq_map]
      apply Listing.Orderly.directory
      · rw [List.map_map]
        exact names
      · intro entry member
        obtain ⟨original, isThere, rfl⟩ := List.mem_map.1 member
        exact inductionHypothesis original isThere _ _ _

section

variable {tree : FileTree} (orderly : tree.root.Orderly)

include orderly

theorem orderly_followLinks (links : Nat) (above : List Ancestor) (path : String) :
    (followLinks tree links above path).Orderly := by
  induction links generalizing above path with
  | zero => exact .fault _
  | succ links inductionHypothesis =>
      unfold followLinks
      split
      · exact .fault _
      · split
        · next isThere =>
            split
            · exact .fault _
            · exact (orderly.of_at? isThere).1.listing inductionHypothesis _ _ _
        · exact .file
        · exact .fault _

theorem orderly_listingAt (followed : Bool) (place : List String) :
    (tree.listingAt followed place).Orderly := by
  have ignored : ∀ above path, (ignoreLinks above path).Orderly := fun _ _ => .other
  unfold listingAt
  dsimp only
  split
  · next isThere =>
      apply (orderly.of_at? isThere).1.listing
      cases followed with
      | false => exact ignored
      | true => exact orderly_followLinks orderly _
  · exact .other

end

/-! ## Files -/

theorem at?_listing_ignoreLinks {names : List String} {above : List Ancestor}
    {place : List String} {path : String} {node : Node} :
    (listing ignoreLinks above place path node).at? names = some .file ↔
      ∃ content, node.at? names = some (.file content) := by
  induction names generalizing above place path node with
  | nil => cases node <;> simp [listing, ignoreLinks, Listing.at?, Node.at?]
  | cons name names inductionHypothesis =>
      cases node with
      | file content => simp [listing, Listing.at?, Listing.entry?, Node.at?, Node.entry?]
      | link target =>
          simp [listing, ignoreLinks, Listing.at?, Listing.entry?, Node.at?, Node.entry?]
      | directory entries =>
          rw [listing, Listing.at?, Listing.entry?, Node.at?, Node.entry?, entryListings_eq_map,
            lookup_map_entry]
          cases entries.lookup name with
          | none => simp
          | some below => exact inductionHypothesis

theorem exists_listingAt_eq_directory {tree : FileTree} {place : List String}
    {entries : List (String × Node)} (isThere : tree.root.at? place = some (.directory entries))
    (followed : Bool) : ∃ listings, tree.listingAt followed place = .directory listings := by
  simp only [listingAt, isThere, listing]
  exact ⟨_, rfl⟩

/-- A walk that leaves links alone sees the files of the tree, and no others. -/
theorem at?_listingAt_false_iff (tree : FileTree) (place names : List String) :
    (tree.listingAt false place).at? names = some .file ↔
      ∃ content, tree.root.at? (place ++ names) = some (.file content) := by
  rw [Node.at?_append, listingAt]
  cases tree.root.at? place with
  | some node => exact at?_listing_ignoreLinks
  | none => cases names <;> simp [Listing.at?, Listing.entry?]

end GodotGraph.FileTree
