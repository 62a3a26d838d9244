import Sapling.CommandLine.Files

/-!
# Reading from a tree of files

A file is read under the path that is written with the names which lead to it.  The names can be
read back from such a path, because none of them has a slash in it.  They are followed one by one
from the top of the tree, through directories all the way to the file.

## Main definitions

* `PlainName` — names that lead down from a directory.
* `FileTree.Holds` — a file stands in a tree.

## Main results

* `pathNames_intercalate` — the names on a path.
* `FileTree.read_intercalate` — a file that stands in a tree is read.
-/

namespace Sapling.CommandLine

/-! ### Names on a path -/

/-- A name that leads down from a directory, to an entry of that name. -/
def PlainName (name : String) : Prop :=
  name ∉ ["", ".", ".."] ∧ '/' ∉ name.toList ∧ name.utf8ByteSize ≤ FileTree.longestName

instance (name : String) : Decidable (PlainName name) := inferInstanceAs (Decidable (_ ∧ _))

/-- A path without slashes is one name. -/
theorem pathNames_of_not_mem {path : List Char} (h : '/' ∉ path) :
    pathNames path = [String.ofList path] := by
  induction path with
  | nil => rfl
  | cons c path ih =>
    have hc : c ≠ '/' := (List.ne_of_not_mem_cons h).symm
    rw [pathNames, if_neg hc, ih (List.not_mem_of_not_mem_cons h)]
    simp

/-- A slash ends a name. -/
theorem pathNames_append_slash {name : List Char} (h : '/' ∉ name) (path : List Char) :
    pathNames (name ++ '/' :: path) = String.ofList name :: pathNames path := by
  induction name with
  | nil => rfl
  | cons c name ih =>
    have hc : c ≠ '/' := (List.ne_of_not_mem_cons h).symm
    rw [List.cons_append, pathNames, if_neg hc, ih (List.not_mem_of_not_mem_cons h)]
    simp

/-- **The names on a path** are those that it is written with. -/
theorem pathNames_intercalate {names : List String} (hne : names ≠ [])
    (h : ∀ name ∈ names, '/' ∉ name.toList) :
    pathNames ("/".intercalate names).toList = names := by
  induction names with
  | nil => exact absurd rfl hne
  | cons name names ih =>
    obtain ⟨hname, hnames⟩ := List.forall_mem_cons.1 h
    cases names with
    | nil => rw [String.intercalate_singleton, pathNames_of_not_mem hname, String.ofList_toList]
    | cons next names =>
      have hpath : ("/".intercalate (name :: next :: names)).toList
          = name.toList ++ '/' :: ("/".intercalate (next :: names)).toList := by
        rw [String.intercalate_cons_cons, String.toList_append, String.toList_append,
          List.append_assoc]
        rfl
      rw [hpath, pathNames_append_slash hname, ih (List.cons_ne_nil _ _) hnames,
        String.ofList_toList]

/-! ### Files in a tree -/

namespace FileTree

/-- A file stands in a tree: it is found under its names, and no file is found on the way to it. -/
structure Holds (tree : FileTree) (names : List String) (content : ByteArray) : Prop where
  /-- The names lead down. -/
  plain : ∀ name ∈ names, PlainName name
  /-- The file is found under them. -/
  found : tree.lookup names = some (.file content)
  /-- There are no files on the way. -/
  above : ∀ place, place <+: names → place ≠ names → ∀ other,
    tree.lookup place ≠ some (.file other)

variable {tree : FileTree} {names : List String} {content : ByteArray}

/-- On the way to a file there are directories. -/
theorem Holds.entry?_above (h : tree.Holds names content) {place : List String}
    (hplace : place <+: names) (hne : place ≠ names) : tree.entry? place = some .directory := by
  unfold entry?
  cases hlookup : tree.lookup place with
  | some entry =>
    cases entry with
    | file other => exact absurd hlookup (h.above place hplace hne other)
    | directory => rfl
  | none =>
    obtain ⟨before, after, rfl, -⟩ := List.lookup_eq_some_iff.1 h.found
    have hbelow : place.isPrefixOf names = true := List.isPrefixOf_iff_prefix.2 hplace
    simp [hbelow]

/-- The names of a file are followed to it, from any place on the way. -/
theorem Holds.follow_eq (h : tree.Holds names content) (place : List String) {rest : List String}
    (hnames : place.reverse ++ rest = names) : tree.follow place rest = .ok (.file content) := by
  induction rest generalizing place with
  | nil =>
    rw [List.append_nil] at hnames
    rw [follow, hnames, entry?, h.found]
  | cons name rest ih =>
    obtain ⟨hdots, -, hshort⟩ : PlainName name := h.plain name (by simp [← hnames])
    obtain ⟨hempty, hdot, hup⟩ : name ≠ "" ∧ name ≠ "." ∧ name ≠ ".." := by simpa using hdots
    have hdirectory : tree.entry? place.reverse = some .directory :=
      h.entry?_above ⟨_, hnames⟩ (by simp [← hnames])
    simp only [follow, hdirectory, hempty, hdot, hup, if_false, if_neg (Nat.not_lt.2 hshort)]
    exact ih (name :: place) (by simp [← hnames])

/-- **A file that stands in a tree is read**, under the path that is written with its names. -/
theorem read_intercalate (h : tree.Holds names content) (hne : names ≠ [])
    (hshort : ("/".intercalate names).utf8ByteSize ≤ longestPath) :
    tree.read ("/".intercalate names) = textOfBytes content := by
  have hnames : pathNames ("/".intercalate names).toList = names :=
    pathNames_intercalate hne fun name hname => (h.plain name hname).2.1
  -- an empty name would come first on an empty path, and on one from the root
  have hempty : "" ∉ names := fun hmem => absurd (h.plain _ hmem) (by decide)
  have hpath : "/".intercalate names ≠ "" := by
    intro heq
    rw [heq] at hnames
    exact hempty (hnames ▸ List.mem_cons_self)
  have hroot : ("/".intercalate names).toList.head? ≠ some '/' := by
    intro hhead
    obtain ⟨rest, hrest⟩ := List.head?_eq_some_iff.1 hhead
    rw [hrest, pathNames, if_pos rfl] at hnames
    exact hempty (hnames ▸ List.mem_cons_self)
  simp only [read, hpath, if_false, if_neg (Nat.not_lt.2 hshort), hroot, hnames,
    h.follow_eq [] rfl]

end FileTree

end Sapling.CommandLine
