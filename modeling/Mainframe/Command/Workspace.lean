import Mainframe.Command.FileSystem
import Mainframe.Text.Lines

/-
  A directory of files, as a file system.

  The directory has no directories in it. A path leads to a file of it, or to a
  directory, or behind a file as though that were a directory; what else is
  outside of the directory cannot be reached. Files can be read and written, and
  new ones made, without any further condition.

  What is proved:
    1. `content?_put_self` and `content?_put_of_ne`: writing a file changes
       that file and no other.
    2. `writesWhole`: a write succeeds as a whole or changes nothing.
-/

namespace Mainframe.Command

/-- What a file holds. -/
inductive Content where
  | text (s : String)
  | notText
  deriving DecidableEq, Repr

/-- The text that is held, if it is a text. -/
def Content.read : Content → Except Cause String
  | text s => .ok s
  | notText => .error .notText

/-- The bytes that are held. Which bytes are no text does not matter. -/
def Content.bytes : Content → ByteArray
  | text s => s.toUTF8
  | notText => ⟨#[0xFF]⟩

/-- Files by name, and the standard input. The names hold no slash. -/
structure Workspace where
  files : List (String × Content)
  input : Content
  deriving DecidableEq, Repr

namespace Workspace

/-- Where a path leads. -/
inductive Place where
  | nowhere
  | directory
  | file (name : String)
  | behind (name : String) (parts : List String)
  deriving DecidableEq, Repr

/-- Where something outside of the directory is, if it is anywhere. -/
def Place.outside : Place → Place
  | directory => directory
  | _ => nowhere

/-- Where the parts of a path lead from the directory. -/
def follow : List String → Place
  | [] => .directory
  | part :: parts =>
    if part = "" ∨ part = "." then follow parts
    else if part = ".." then (follow parts).outside
    else if parts.isEmpty then .file part
    else .behind part parts

/-- Where the path leads, whether or not a file stands there. The empty path
leads nowhere, and one that starts with a slash leads outside. -/
def place (path : String) : Place :=
  match (Text.pieces '/' path.toList).map String.ofList with
  | [] | [""] => .nowhere
  | "" :: parts => (follow parts).outside
  | parts => follow parts

example :
    place "./a" = .file "a" ∧ place "a/" = .behind "a" [""] ∧ place "/a" = .nowhere ∧
      place "../.." = .directory := by
  decide +kernel

/-- What a list of files holds under a name. -/
def lookup (name : String) : List (String × Content) → Option Content
  | [] => none
  | f :: files => if f.1 = name then some f.2 else lookup name files

/-- What the file with the name holds. -/
def content? (w : Workspace) (name : String) : Option Content := lookup name w.files

/-- The files with the content put under the name. -/
def putFile (name : String) (c : Content) : List (String × Content) → List (String × Content)
  | [] => [(name, c)]
  | f :: files => if f.1 = name then (name, c) :: files else f :: putFile name c files

/-- The workspace with the content put under the name. -/
def put (w : Workspace) (name : String) (c : Content) : Workspace :=
  { w with files := putFile name c w.files }

/-- Why there is nothing behind a name. -/
def causeBehind (w : Workspace) (name : String) : Cause :=
  if (w.content? name).isSome then .notDirectory else .notFound

/-- The text of the file to which the path leads. -/
def readText (w : Workspace) (path : String) : Except Cause String :=
  match place path with
  | .nowhere => .error .notFound
  | .directory => .error .isDirectory
  | .file name =>
    match w.content? name with
    | some c => c.read
    | none => .error .notFound
  | .behind name _ => .error (w.causeBehind name)

/-- Writes the text to where the path leads. What ends with a slash cannot be
made as a file. -/
def write (w : Workspace) (path : String) (text : String) : Except Cause Unit × Workspace :=
  match place path with
  | .nowhere => (.error .notFound, w)
  | .directory => (.error .isDirectory, w)
  | .file name => (.ok (), w.put name (.text text))
  | .behind name parts =>
    (.error (if parts.all String.isEmpty then .isDirectory else w.causeBehind name), w)

/-- The bytes at a place. -/
def bytes? (w : Workspace) : Place → Option ByteArray
  | .file name => (w.content? name).map Content.bytes
  | _ => none

instance : FileSystem Workspace where
  Place := Place
  place _ := place
  bytes? := bytes?
  readText := readText
  inputText w := w.input.read
  write := write

/-- The files that are new, or hold something else, in the second workspace. -/
def changes (before after : Workspace) : List (String × Content) :=
  after.files.filter (fun f => before.content? f.1 != some f.2)

theorem lookup_putFile_self (name : String) (c : Content) (files : List (String × Content)) :
    lookup name (putFile name c files) = some c := by
  induction files with
  | nil => simp [putFile, lookup]
  | cons f files ih =>
    simp only [putFile]
    split
    · simp [lookup]
    next h => simp [lookup, h, ih]

theorem lookup_putFile_of_ne {name other : String} (c : Content) (h : name ≠ other)
    (files : List (String × Content)) :
    lookup other (putFile name c files) = lookup other files := by
  induction files with
  | nil => simp [putFile, lookup, h]
  | cons f files ih =>
    simp only [putFile]
    split
    next hf => simp [lookup, hf, h]
    · simp [lookup, ih]

theorem content?_put_self (w : Workspace) (name : String) (c : Content) :
    (w.put name c).content? name = some c := lookup_putFile_self name c w.files

theorem content?_put_of_ne (w : Workspace) {name other : String} (c : Content) (h : name ≠ other) :
    (w.put name c).content? other = w.content? other := lookup_putFile_of_ne c h w.files

theorem write_eq_ok {w after : Workspace} {path text : String}
    (h : w.write path text = (.ok (), after)) :
    ∃ name, place path = .file name ∧ after = w.put name (.text text) := by
  unfold write at h
  split at h
  · cases h
  · cases h
  next name hplace => exact ⟨name, hplace, (Prod.mk.inj h).2.symm⟩
  · cases h

theorem write_eq_error {w after : Workspace} {path text : String} {cause : Cause}
    (h : w.write path text = (.error cause, after)) : after = w := by
  unfold write at h
  split at h
  · exact (Prod.mk.inj h).2.symm
  · exact (Prod.mk.inj h).2.symm
  · cases h
  · exact (Prod.mk.inj h).2.symm

theorem bytes?_put_of_ne (w : Workspace) {name : String} {p : Place} (c : Content)
    (h : p ≠ .file name) : (w.put name c).bytes? p = w.bytes? p := by
  cases p with
  | file other =>
    have hne : name ≠ other := fun heq => h (congrArg Place.file heq.symm)
    rw [bytes?, content?_put_of_ne w c hne, bytes?]
  | _ => rfl

theorem writesWhole : WritesWhole Workspace where
  failed := write_eq_error
  written := by
    intro w after path text h
    obtain ⟨name, hplace, rfl⟩ := write_eq_ok h
    show (w.put name (.text text)).bytes? (place path) = some text.toUTF8
    rw [hplace, bytes?, content?_put_self]
    rfl
  others := by
    intro w after path text h p hp
    obtain ⟨name, hplace, rfl⟩ := write_eq_ok h
    exact bytes?_put_of_ne w _ (hplace ▸ hp)

end Workspace

end Mainframe.Command
