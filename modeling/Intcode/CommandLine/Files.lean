import Intcode.Text.Decimal
import Intcode.Text.Fields

/-!
# Files

A store of files by name, in which the reading and writing of files can be followed without touching
any disk. A file's name is a path of parts between slashes; a part that is empty or a dot stays
where it is, and a part of two dots goes back. Names start from some directory in a tree of
directories, or, with a slash in front, from the root of that tree. Of the directories outside
nothing is known but that they are there, so only what has been written outside is found there.

A name has at most `maxNameSize` bytes and each of its parts at most `maxPartSize`. The length of a
part counts only when something is looked up by it, so a fault of the directory comes first.

Reading a file gives what was last written under its name (`read_write`).
-/
namespace Intcode.CommandLine

/-- Why a file cannot be read or written. -/
inductive FileError where
  /-- The operating system refuses it, with a description and a number. -/
  | refused (description : String) (number : Nat)
  /-- What the file holds is not text. -/
  | notText
  deriving DecidableEq, Repr

namespace FileError

/-- There is nothing of that name, or no directory to put it into. -/
def notFound : FileError := refused "No such file or directory" 2

/-- A part of the name that has to be a directory is a file. -/
def notDirectory : FileError := refused "Not a directory" 20

/-- The name is that of a directory. -/
def isDirectory : FileError := refused "Is a directory" 21

/-- The name or a part of it is too long. -/
def nameTooLong : FileError := refused "File name too long" 36

/-- The report of a file that cannot be read or written. -/
def message : FileError → String
  | refused description number =>
    description ++ " (os error " ++ Decimal.text number ++ ")"
  | notText => "stream did not contain valid UTF-8"

end FileError

/-- A directory from which the ways to files begin. -/
inductive Origin where
  /-- The directory so many levels above the one that names start from. -/
  | above (levels : Nat)
  /-- The root of all directories. -/
  | root
  deriving DecidableEq

namespace Origin

/-- The directory that names start from. -/
def here : Origin := above 0

/-- The directory that this one is in. The root is in itself. -/
def parent : Origin → Origin
  | above levels => above (levels + 1)
  | root => root

end Origin

/-- The way to a file or directory. -/
structure Path where
  /-- Where the way begins. -/
  origin : Origin
  /-- The names on the way, from the outside to the inside. -/
  names : List (List Char)
  deriving DecidableEq

namespace Path

/-- The way that goes one name further in. -/
def push (path : Path) (name : List Char) : Path := { path with names := path.names ++ [name] }

/-- The way to the directory outside. -/
def parent (path : Path) : Path :=
  if path.names.isEmpty then ⟨path.origin.parent, []⟩
  else { path with names := path.names.dropLast }

/-- Tells whether the way to another place leads through this one. -/
def isOnWayTo (path other : Path) : Bool :=
  path.origin = other.origin && path.names.isPrefixOf other.names

end Path

/-- Files with their contents. -/
structure Files where
  /-- The path and the content of each file; the first one of a path counts. -/
  entries : List (Path × String)
  deriving DecidableEq

/-- What can be at a path. -/
inductive Entry where
  /-- A file with its content. -/
  | file (content : String)
  /-- A directory. -/
  | directory
  deriving DecidableEq

namespace Files

/-- No files. -/
def empty : Files := ⟨[]⟩

/-- The greatest number of bytes of a name. -/
def maxNameSize : Nat := 4095

/-- The greatest number of bytes of a part of a name. -/
def maxPartSize : Nat := 255

/-- What is at a path. -/
def find? (files : Files) (path : Path) : Option Entry :=
  match files.entries.lookup path with
  | some content => some (.file content)
  | none =>
    if path.names.isEmpty || files.entries.any fun entry => path.isOnWayTo entry.1 then
      some .directory
    else none

/-- Makes sure that a path is that of a directory. -/
def needDirectory (files : Files) (path : Path) : Except FileError Unit :=
  match files.find? path with
  | some .directory => .ok ()
  | some (.file _) => .error .notDirectory
  | none => .error .notFound

/-- The path that a part of a name leads to from a directory. -/
def follow (files : Files) (path : Path) (part : List Char) : Except FileError Path := do
  files.needDirectory path
  if part.isEmpty || part = ['.'] then return path
  else if part = ['.', '.'] then return path.parent
  else if maxPartSize < (String.ofList part).utf8ByteSize then throw .nameTooLong
  else return path.push part

/-- The path that the parts of a name lead to from a directory. -/
def followAll (files : Files) (path : Path) (parts : List (List Char)) : Except FileError Path :=
  parts.foldlM files.follow path

/-- The directory that a name starts from. -/
def start (name : String) : Path := ⟨if name.toList.head? = some '/' then .root else .here, []⟩

/-- The parts of a name that is not too long. -/
def parts (name : String) : Except FileError (List (List Char)) :=
  if maxNameSize < name.utf8ByteSize then .error .nameTooLong
  else .ok (Text.fields '/' name.toList)

/-- The content of the file with a name. -/
def read (files : Files) (name : String) : Except FileError String := do
  let path ← files.followAll (start name) (← parts name)
  match files.find? path with
  | some (.file content) => return content
  | some .directory => throw .isDirectory
  | none => throw .notFound

/-- All parts in front of the last one that is not empty. -/
def frontOf (parts : List (List Char)) : List (List Char) :=
  (parts.reverse.dropWhile List.isEmpty).reverse.dropLast

/-- The path of the file that is written under a name. A name with a slash at its end is taken to be
that of a directory. -/
def target (files : Files) (name : String) : Except FileError Path := do
  let parts ← parts name
  let directory ← files.followAll (start name) (frontOf parts)
  files.needDirectory directory
  let last := parts.getLastD []
  if last.isEmpty || last = ['.'] || last = ['.', '.'] then throw .isDirectory
  let path ← files.follow directory last
  if files.find? path = some .directory then throw .isDirectory
  return path

/-- Puts a content at a path. -/
def put (files : Files) (path : Path) (content : String) : Files :=
  ⟨(path, content) :: files.entries.filter fun entry => entry.1 ≠ path⟩

/-- Writes a content to the file with a name. -/
def write (files : Files) (name content : String) : Except FileError Files := do
  return files.put (← files.target name) content

/-- The files with these names and contents, in the directory that names start from. -/
def ofList (contents : List (String × String)) : Files :=
  ⟨contents.map fun (name, content) =>
    let names := Text.fields '/' name.toList
    (⟨.here, names.filter fun part => !part.isEmpty && part ≠ ['.']⟩, content)⟩

/-- The names and contents of the files, in the directory that names start from, that are new or
not the same in another store. -/
def changes (old new : Files) : List (String × String) :=
  (new.entries.filter fun (path, content) =>
    path.origin = .here && old.entries.lookup path ≠ some content).map
    fun (path, content) => (String.ofList (List.intercalate ['/'] path.names), content)

/-! ### Reading what was written -/

theorem find?_put (files : Files) (path : Path) (content : String) :
    (files.put path content).find? path = some (.file content) := by
  simp [put, find?]

theorem lookup_filter_of_ne {path other : Path} (h : other ≠ path) (entries : List (Path × String)) :
    (entries.filter fun entry => entry.1 ≠ path).lookup other = entries.lookup other := by
  induction entries with
  | nil => rfl
  | cons entry rest ih =>
    by_cases hpath : entry.1 = path
    · have hother : (other == entry.1) = false := by simpa [hpath] using h
      rw [List.filter_cons_of_neg (by simpa using hpath), ih, List.lookup_cons, hother]
    · rw [List.filter_cons_of_pos (by simpa using hpath), List.lookup_cons, List.lookup_cons, ih]

/-- Writing a file keeps all directories. -/
theorem find?_put_of_directory {files : Files} {path other : Path} (content : String)
    (hpath : files.find? path ≠ some .directory) (hother : files.find? other = some .directory) :
    (files.put path content).find? other = some .directory := by
  have hne : other ≠ path := by rintro rfl; exact hpath hother
  have hbeq : (other == path) = false := by simpa using hne
  unfold find? at hother ⊢
  simp only [put, List.lookup_cons, hbeq, lookup_filter_of_ne hne]
  cases hlookup : files.entries.lookup other with
  | some old => simp [hlookup] at hother
  | none =>
    simp only [hlookup] at hother ⊢
    have hany : other.names.isEmpty || files.entries.any fun entry => other.isOnWayTo entry.1 := by
      by_cases h : other.names.isEmpty || files.entries.any fun entry => other.isOnWayTo entry.1
      · exact h
      · rw [if_neg h] at hother; cases hother
    refine if_pos ?_
    rcases Bool.or_eq_true_iff.1 hany with hempty | hany
    · simp [hempty]
    · obtain ⟨entry, hmem, hfirst⟩ := List.any_eq_true.1 hany
      refine Bool.or_eq_true_iff.2 (Or.inr ?_)
      by_cases hentry : entry.1 = path
      · simp [hentry ▸ hfirst]
      · refine List.any_eq_true.2 ⟨entry, List.mem_cons_of_mem _ ?_, hfirst⟩
        exact List.mem_filter.2 ⟨hmem, by simpa using hentry⟩

theorem needDirectory_eq_ok_iff {files : Files} {path : Path} :
    files.needDirectory path = .ok () ↔ files.find? path = some .directory := by
  unfold needDirectory
  split <;> simp_all

theorem exists_of_bind_eq_ok {ε α β : Type} {x : Except ε α} {f : α → Except ε β} {b : β}
    (h : (x >>= f) = .ok b) : ∃ a, x = .ok a ∧ f a = .ok b := by
  cases x with
  | error e => cases h
  | ok a => exact ⟨a, rfl, h⟩

theorem follow_put {files : Files} {path start result : Path} {part : List Char} (content : String)
    (hpath : files.find? path ≠ some .directory) (h : files.follow start part = .ok result) :
    (files.put path content).follow start part = .ok result := by
  obtain ⟨_, hneed, h⟩ := exists_of_bind_eq_ok h
  have hdir := find?_put_of_directory content hpath (needDirectory_eq_ok_iff.1 hneed)
  unfold follow
  rw [needDirectory_eq_ok_iff.2 hdir]
  exact h

theorem followAll_put {files : Files} {path : Path} (content : String)
    (hpath : files.find? path ≠ some .directory) {parts : List (List Char)} {start result : Path}
    (h : files.followAll start parts = .ok result) :
    (files.put path content).followAll start parts = .ok result := by
  induction parts generalizing start with
  | nil => exact h
  | cons part rest ih =>
    unfold followAll at h ih ⊢
    rw [List.foldlM_cons] at h ⊢
    obtain ⟨next, hfollow, h⟩ := exists_of_bind_eq_ok h
    rw [follow_put content hpath hfollow]
    exact ih h

theorem frontOf_append_last {ps : List (List Char)} (h : ps.getLastD [] ≠ []) :
    frontOf ps ++ [ps.getLastD []] = ps := by
  rcases List.eq_nil_or_concat ps with rfl | ⟨front, last, rfl⟩
  · exact absurd rfl h
  · have hlast : last ≠ [] := by simpa [List.getLastD_eq_getLast?] using h
    simp [frontOf, List.getLastD_eq_getLast?, hlast]

/-- A file can be written under a name if all but its last part leads to a directory, and the last
part from there to something that is not a directory. -/
theorem exists_of_target_eq {files : Files} {name : String} {path : Path}
    (h : files.target name = .ok path) :
    ∃ front last directory, parts name = .ok (front ++ [last]) ∧
      files.followAll (start name) front = .ok directory ∧
      files.follow directory last = .ok path ∧ files.find? path ≠ some .directory := by
  obtain ⟨ps, hparts, h⟩ := exists_of_bind_eq_ok h
  obtain ⟨directory, hfollow, h⟩ := exists_of_bind_eq_ok h
  obtain ⟨_, _, h⟩ := exists_of_bind_eq_ok h
  simp only at h
  split at h
  · cases h
  next hlast =>
    obtain ⟨reached, hlastFollow, h⟩ := exists_of_bind_eq_ok h
    split at h
    · cases h
    next hentry =>
      cases h
      have hne : ps.getLastD [] ≠ [] := fun hempty => hlast (by rw [hempty]; rfl)
      refine ⟨frontOf ps, ps.getLastD [], directory, ?_, hfollow, hlastFollow, hentry⟩
      rw [frontOf_append_last hne, hparts]

/-- The way to the file that has been written leads to it. -/
theorem followAll_put_target {files : Files} {name : String} {path : Path} (content : String)
    (h : files.target name = .ok path) :
    ∃ ps, parts name = .ok ps ∧ (files.put path content).followAll (start name) ps = .ok path := by
  obtain ⟨front, last, directory, hparts, hfront, hlast, hentry⟩ := exists_of_target_eq h
  refine ⟨front ++ [last], hparts, followAll_put content hentry ?_⟩
  unfold followAll at hfront ⊢
  rw [List.foldlM_append, hfront]
  simp only [bind, Except.bind, List.foldlM_cons, List.foldlM_nil, hlast]
  rfl

/-- Reading the file that was written last gives its content. -/
theorem read_write {files files' : Files} {name content : String}
    (h : files.write name content = .ok files') : files'.read name = .ok content := by
  obtain ⟨path, htarget, h⟩ := exists_of_bind_eq_ok h
  cases h
  obtain ⟨ps, hparts, hfollow⟩ := followAll_put_target content htarget
  unfold read
  simp only [hparts, hfollow, find?_put, bind, Except.bind]
  rfl

end Files

end Intcode.CommandLine
