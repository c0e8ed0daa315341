import ScopeLexer.Files.Path

/-!
# Access to files

`MonadFiles` is what the program does with files.  `selectFormat` finds the file that a path means:
a path without an extension means the newest of the files that have a known one.
-/

namespace ScopeLexer

inductive FileFault where
  | missing
  | notDirectory
  | isDirectory
  | nameTooLong
  | zeroInPath
  | other (reason : String)
  deriving Repr, DecidableEq, Inhabited

def FileFault.message : FileFault → String
  | missing => "No such file or directory (os error 2)"
  | notDirectory => "Not a directory (os error 20)"
  | isDirectory => "Is a directory (os error 21)"
  | nameTooLong => "File name too long (os error 36)"
  | zeroInPath => "file name contained an unexpected NUL byte"
  | other reason => reason

class MonadFiles (m : Type → Type) where
  modified? : (path : String) → m (Option Nat)
  read : (path : String) → m (Except FileFault (List UInt8))
  /-- Put a file in place, or new bytes in place of those of a file. -/
  write : (path : String) → List UInt8 → m (Except FileFault Unit)

export MonadFiles (modified?)

/-- The file that a path means. -/
inductive Selection (α : Type) where
  | file (path : String) (format : α)
  | unrecognised (extension : String)
  | missing
  deriving Repr, DecidableEq, Inhabited

/-- The newest file among `path` with each of the extensions, if there is any; of several as new as
one another the first.  Each extension is put in place of the one tried before it.  `best` is the
newest file so far. -/
def newestFile {m : Type → Type} [Monad m] [MonadFiles m] {α : Type} (path : String) :
    List (String × α) → (best : Option (Nat × String × α)) → m (Option (Nat × String × α))
  | [], best => return best
  | (extension, format) :: formats, best => do
      let candidate := Path.withExtension path extension
      match ← modified? candidate with
      | none => newestFile candidate formats best
      | some time =>
          if best.all fun (other, _) => other < time then
            newestFile candidate formats (some (time, candidate, format))
          else
            newestFile candidate formats best

def selectFormat {m : Type → Type} [Monad m] [MonadFiles m] {α : Type} (path : String)
    (formats : List (String × α)) : m (Selection α) := do
  match Path.extension? path with
  | some extension =>
      match formats.find? fun format => format.1 == extension with
      | some (_, format) => return .file path format
      | none => return .unrecognised extension
  | none =>
      match ← newestFile path formats none with
      | some (_, file, format) => return .file file format
      | none => return .missing

end ScopeLexer
