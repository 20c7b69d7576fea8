/-
  What a tool sees of files and of its standard input.

  A path leads to a place, and there are bytes at the place or not. Two paths may
  lead to one place. How paths lead anywhere, and why something cannot be read or
  written, is left open: a tool is run on whatever keeps files, as long as it can
  be read and written by path. What it keeps are files; a path does not lead to
  the standard input or output of the tool itself.

  A write that fails may leave the file cut off or empty. `WritesWhole` says of a
  file system that it does not.
-/

namespace Mainframe.Command

/-- Why a file cannot be read or written. -/
inductive Cause where
  | notFound
  | notDirectory
  | isDirectory
  | notText
  | other (message : String)
  deriving DecidableEq, Repr

/-- The words of the cause. -/
def Cause.message : Cause → String
  | notFound => "No such file or directory (os error 2)"
  | notDirectory => "Not a directory (os error 20)"
  | isDirectory => "Is a directory (os error 21)"
  | notText => "stream did not contain valid UTF-8"
  | other message => message

/-- Files and a standard input, in the states `σ`. -/
class FileSystem (σ : Type) where
  /-- Where files can be. -/
  Place : Type
  /-- Where a path leads, whether or not a file is there. -/
  place : σ → String → Place
  /-- The bytes of the file at a place, if one is there. -/
  bytes? : σ → Place → Option ByteArray
  /-- The text of the file to which a path leads. -/
  readText : σ → String → Except Cause String
  /-- The text of the standard input. -/
  inputText : σ → Except Cause String
  /-- Writes a text to where a path leads. -/
  write : σ → String → String → Except Cause Unit × σ

/-- A write changes no file but the one it is for. It leaves there what it should,
or fails and changes that file no more than the others. -/
structure WritesWhole (σ : Type) [FileSystem σ] : Prop where
  failed : ∀ {w after : σ} {path text : String} {cause : Cause},
    FileSystem.write w path text = (.error cause, after) → after = w
  written : ∀ {w after : σ} {path text : String},
    FileSystem.write w path text = (.ok (), after) →
      FileSystem.bytes? after (FileSystem.place w path) = some text.toUTF8
  others : ∀ {w after : σ} {path text : String},
    FileSystem.write w path text = (.ok (), after) → ∀ p, p ≠ FileSystem.place w path →
      FileSystem.bytes? after p = FileSystem.bytes? w p

end Mainframe.Command
