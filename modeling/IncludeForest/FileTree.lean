import IncludeForest.Text.Bytes
import IncludeForest.Text.Fields

/-!
# Trees of files

The program reads a log and a settings file and may write an export. A **file
tree** is what it finds on the disk: the files by their places, directories,
and the one that it works in. A **place** is the list of names on the way from
the root, which is the empty place. Looking a path up goes from directory to
directory, from the root if the path begins with a slash and else from the
working directory, and the ways in which that fails are those the operating
system has names for.

A path is taken apart at its slashes. A dot stays where it is, two dots go back
up, where the root is above itself, and a slash at the end asks for a directory.
A name may have 255 bytes and a path 4095, and a longer name is noticed where the
way comes to it.

The system may also refuse what it could do: to go through a directory or to add
a name to it, to read a file or to write it. What it says then stands in the tree
with the file or the directory (`Access`). Links are not part of a tree.
-/

namespace IncludeForest

/-- **Why a file cannot be had.** -/
inductive FileError where
  /-- There is nothing of this name. -/
  | notFound
  /-- The name goes through a file. -/
  | notADirectory
  /-- The name is that of a directory. -/
  | isADirectory
  /-- The name, or the path, has too many bytes. -/
  | nameTooLong
  /-- The system does not let anyone through to the name, in its words. -/
  | unreachable (text : String)
  /-- The system refuses what was asked of the name, in its words. -/
  | refused (text : String)
  deriving DecidableEq, Repr

namespace FileError

/-- What the system says. -/
def message : FileError → String
  | notFound => "No such file or directory (os error 2)"
  | notADirectory => "Not a directory (os error 20)"
  | isADirectory => "Is a directory (os error 21)"
  | nameTooLong => "File name too long (os error 36)"
  | unreachable text => text
  | refused text => text

/-- Whether it can be told that there is something of the name. -/
def nameExists : FileError → Bool
  | notFound => false
  | notADirectory => false
  | isADirectory => true
  | nameTooLong => false
  | unreachable _ => false
  | refused _ => true

end FileError

namespace FileTree

/-- **What the system says when it refuses** something, where it does. -/
structure Access where
  /-- What it says of reading a file, or of going through a directory. -/
  reading : Option String := none
  /-- What it says of writing a file, or of adding a name to a directory. -/
  writing : Option String := none
  deriving DecidableEq, Repr, Inhabited

/-- **A file.** -/
structure File where
  /-- What it holds. -/
  bytes : List UInt8
  /-- What is refused of it. -/
  access : Access := {}
  deriving DecidableEq, Repr, Inhabited

/-- Neither of two places lies at the other or below it. -/
def Apart (place other : List String) : Prop :=
  ¬ place <+: other ∧ ¬ other <+: place

end FileTree

/-- **The files that a run finds**, by their places. -/
structure FileTree where
  /-- The files. -/
  files : List (List String × FileTree.File) := []
  /-- Directories, with what is refused of them. Whatever a file or one of these
  lies below is a directory too, and nothing is refused of it. -/
  directories : List (List String × FileTree.Access) := []
  /-- The directory that a path leads from unless it begins with a slash. -/
  workingDirectory : List String := []
  /-- No file lies below another, and none comes twice. -/
  apart : files.Pairwise fun file other => FileTree.Apart file.1 other.1 := by simp
  /-- No file is a directory or has one below it. -/
  noDirectory : ∀ file ∈ files, ∀ place ∈ [] :: workingDirectory :: directories.map (·.1),
    ¬ file.1 <+: place := by simp

namespace FileTree

instance : Inhabited FileTree := ⟨{}⟩

/-- **What a path leads to.** A path to a file, or to where one could be, is
`closed` if slashes follow the name. -/
inductive Node where
  /-- A file, by its place. -/
  | file (place : List String) (file : File) (closed : Bool)
  /-- A directory. -/
  | directory
  /-- Nothing, in a directory where a file of this name could be. -/
  | free (place : List String) (closed : Bool)
  deriving Repr

/-- How many bytes a name may have. -/
def maxNameBytes : Nat :=
  255

/-- How many bytes a path may have. -/
def maxPathBytes : Nat :=
  4095

/-- Whether a name has more bytes than a name may have. -/
def isTooLong (name : String) : Bool :=
  maxNameBytes < Text.byteLength name.toList

/-- The file at exactly this place. -/
def fileAt? (tree : FileTree) (place : List String) : Option File :=
  (tree.files.find? (·.1 == place)).map (·.2)

/-- The directories that are there without a file. -/
def standing (tree : FileTree) : List (List String) :=
  [] :: tree.workingDirectory :: tree.directories.map (·.1)

/-- Whether there is a directory at exactly this place: one that is there without a file,
or one with something below it. -/
def hasDirectory (tree : FileTree) (place : List String) : Bool :=
  tree.standing.any (place.isPrefixOf ·) ||
    tree.files.any fun file => place.isPrefixOf file.1 && file.1 != place

/-- What is refused of the directory at this place. -/
def accessOf (tree : FileTree) (place : List String) : Access :=
  ((tree.directories.find? (·.1 == place)).map (·.2)).getD {}

theorem hasDirectory_iff {tree : FileTree} {place : List String} :
    tree.hasDirectory place = true ↔
      (∃ other ∈ tree.standing, place <+: other) ∨
        ∃ file ∈ tree.files, place <+: file.1 ∧ file.1 ≠ place := by
  simp only [hasDirectory, Bool.or_eq_true, List.any_eq_true, Bool.and_eq_true,
    List.isPrefixOf_iff_prefix, bne_iff_ne]

/-- A file that another one lies below or at is that one. -/
theorem eq_of_below {tree : FileTree} {file other : List String × File} (h : file ∈ tree.files)
    (hother : other ∈ tree.files) (hbelow : file.1 <+: other.1) : file = other := by
  obtain ⟨i, hi, rfl⟩ := List.getElem_of_mem h
  obtain ⟨j, hj, rfl⟩ := List.getElem_of_mem hother
  obtain hij | rfl | hij := Nat.lt_trichotomy i j
  · exact absurd hbelow (List.pairwise_iff_getElem.1 tree.apart i j hi hj hij).1
  · rfl
  · exact absurd hbelow (List.pairwise_iff_getElem.1 tree.apart j i hj hi hij).2

/-- **A directory is no file.** -/
theorem fileAt?_of_hasDirectory {tree : FileTree} {place : List String}
    (h : tree.hasDirectory place = true) : tree.fileAt? place = none := by
  rw [fileAt?, Option.map_eq_none_iff, List.find?_eq_none]
  intro file hfile hplace
  obtain rfl := beq_iff_eq.1 hplace
  obtain ⟨other, hother, hbelow⟩ | ⟨other, hother, hbelow, hne⟩ := hasDirectory_iff.1 h
  · exact tree.noDirectory file hfile other hother hbelow
  · exact hne (congrArg Prod.fst (eq_of_below hfile hother hbelow)).symm

/-- What the parts of a path lead to from the directory at `place`. -/
def walk (tree : FileTree) (place : List String) : List String → Except FileError Node
  | [] => .ok .directory
  | part :: rest =>
    if part = "" then walk tree place rest
    else
      match (tree.accessOf place).reading with
      | some text => .error (.unreachable text)
      | none =>
        if part = "." then walk tree place rest
        else if part = ".." then walk tree place.dropLast rest
        else
          let next := place ++ [part]
          let isLast := rest.all (· = "")
          match tree.fileAt? next with
          | some file =>
            if isLast then .ok (.file next file (!rest.isEmpty)) else .error .notADirectory
          | none =>
            if tree.hasDirectory next then walk tree next rest
            else if isLast then .ok (.free next (!rest.isEmpty))
            else if isTooLong part then .error .nameTooLong
            else .error .notFound

/-- The parts of a path, as they stand between its slashes. -/
def partsOf (path : String) : List String :=
  (Text.fields '/' path.toList).map String.ofList

/-- The directory that a path leads from. -/
def origin (tree : FileTree) (path : String) : List String :=
  if path.toList.head? = some '/' then [] else tree.workingDirectory

/-- **What a path leads to.** An empty path leads to nothing. -/
def find (tree : FileTree) (path : String) : Except FileError Node :=
  if maxPathBytes < Text.byteLength path.toList then .error .nameTooLong
  else if path.isEmpty then .error .notFound
  else tree.walk (tree.origin path) (partsOf path)

/-- Why there is no file at a free place: it could not have its name, or there
is just none. -/
def absence (place : List String) : FileError :=
  if place.any isTooLong then .nameTooLong else .notFound

/-- What comes of something that the system may refuse. -/
def unlessRefused {α : Type} (refusal : Option String) (a : α) : Except FileError α :=
  match refusal with
  | some text => .error (.refused text)
  | none => .ok a

/-- What the file holds that a path leads to, whoever may read it. -/
def content? (tree : FileTree) (path : String) : Option (List UInt8) :=
  match tree.find path with
  | .ok (.file _ file false) => some file.bytes
  | _ => none

/-- **The bytes of the file that a path leads to.** -/
def read (tree : FileTree) (path : String) : Except FileError (List UInt8) :=
  match tree.find path with
  | .ok (.file _ file closed) =>
    if closed then .error .notADirectory else unlessRefused file.access.reading file.bytes
  | .ok .directory => .error .isADirectory
  | .ok (.free place _) => .error (absence place)
  | .error e => .error e

/-- A file that makes room for itself where no directory is lies apart from all others. -/
theorem apart_cons {tree : FileTree} {place : List String}
    (h : ¬ tree.hasDirectory place = true) (file : File) :
    ((place, file) :: tree.files.filter fun other => !other.1.isPrefixOf place).Pairwise
      fun file other => Apart file.1 other.1 := by
  refine List.pairwise_cons.2 ⟨fun other hother => ?_, tree.apart.filter _⟩
  obtain ⟨hmem, hkept⟩ := List.mem_filter.1 hother
  rw [Bool.not_eq_true', ← Bool.not_eq_true, List.isPrefixOf_iff_prefix] at hkept
  refine ⟨fun hbelow => h (hasDirectory_iff.2 (.inr ⟨other, hmem, hbelow, ?_⟩)), hkept⟩
  exact fun heq => hkept (heq ▸ List.prefix_refl _)

/-- It has no directory below it either. -/
theorem noDirectory_cons {tree : FileTree} {place : List String}
    (h : ¬ tree.hasDirectory place = true) (new : File) :
    ∀ file ∈ (place, new) :: tree.files.filter fun other => !other.1.isPrefixOf place,
      ∀ other ∈ tree.standing, ¬ file.1 <+: other := by
  intro file hfile other hother hbelow
  obtain rfl | hfile := List.mem_cons.1 hfile
  · exact h (hasDirectory_iff.2 (.inl ⟨other, hother, hbelow⟩))
  · exact tree.noDirectory file (List.mem_filter.1 hfile).1 other hother hbelow

/-- **The tree with these bytes at a place**, in the file that is there or in a new
one. Where there is a directory there is no room for a file, and a file on the
way makes room for a directory. -/
def put (tree : FileTree) (place : List String) (bytes : List UInt8) : FileTree :=
  if h : tree.hasDirectory place then tree
  else
    { tree with
      files :=
        (place, { bytes, access := ((tree.fileAt? place).map (·.access)).getD {} }) ::
          tree.files.filter fun file => !file.1.isPrefixOf place
      apart := apart_cons h _
      noDirectory := noDirectory_cons h _ }

/-- **The tree with a file written**, in place of the one that the path leads
to, or as a new one. Slashes behind the name ask for a directory, which cannot
be written, whether or not there is a file of the name. -/
def write (tree : FileTree) (path : String) (bytes : List UInt8) : Except FileError FileTree :=
  match tree.find path with
  | .ok (.file place file closed) =>
    if closed then .error .isADirectory
    else unlessRefused file.access.writing (tree.put place bytes)
  | .ok .directory => .error .isADirectory
  | .ok (.free place closed) =>
    if closed then .error .isADirectory
    else if place.any isTooLong then .error .nameTooLong
    else unlessRefused (tree.accessOf place.dropLast).writing (tree.put place bytes)
  | .error e => .error e

/-- The place that the parts of a path name from the directory at `start`, as if
every directory on the way were there. -/
def placeOf (start : List String) (parts : List String) : List String :=
  parts.foldl
    (fun place part =>
      if part = "" ∨ part = "." then place
      else if part = ".." then place.dropLast
      else place ++ [part])
    start

/-- The tree of the given files, by their paths, for work in a directory. -/
def ofFiles (files : List (String × List UInt8)) (workingDirectory : List String := ["work"]) :
    FileTree :=
  files.foldl
    (fun tree (path, bytes) => tree.put (placeOf (tree.origin path) (partsOf path)) bytes)
    { workingDirectory }

end FileTree

end IncludeForest
