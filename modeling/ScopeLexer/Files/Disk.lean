import ScopeLexer.Files

/-!
# Disks in memory

A `Disk` is a tree of directories and files with a working directory in it.  A place is told by the
names that lead to it from the root.
-/

namespace ScopeLexer

inductive DiskNode where
  | directory
  | file (bytes : List UInt8)
  deriving Repr, DecidableEq, Inhabited

structure DiskEntry where
  names : List String
  node : DiskNode
  modified : Nat
  deriving Repr, DecidableEq, Inhabited

structure Disk where
  entries : List DiskEntry := []
  /-- The working directory; it and the directories around it need no entries. -/
  directory : List String := ["work"]
  clock : Nat := 0
  deriving Repr, DecidableEq, Inhabited

namespace Disk

def entry? (disk : Disk) (names : List String) : Option DiskEntry :=
  disk.entries.find? fun entry => entry.names == names

def isDirectory (disk : Disk) (names : List String) : Bool :=
  names.isPrefixOf disk.directory || (disk.entry? names).any (·.node == .directory)

def contains (disk : Disk) (names : List String) : Bool :=
  disk.isDirectory names || (disk.entry? names).isSome

def parts (path : String) : List String :=
  (path.toList.splitOn '/').map String.ofList

def entryNames (path : String) : List String :=
  (parts path).filter fun part => part != "" && part != "."

def maxName : Nat := 255

def maxPath : Nat := 4095

/-- What keeps a path from leading anywhere, whatever the disk holds. -/
def pathFault? (path : String) : Option FileFault :=
  if path.toList.contains '\x00' then some .zeroInPath
  else if path.isEmpty then some .missing
  else if maxPath < path.utf8ByteSize then some .nameTooLong
  else none

def absence (name : String) : FileFault :=
  if maxName < name.utf8ByteSize then .nameTooLong else .missing

def enter (disk : Disk) (names : List String) (part : String) : Except FileFault (List String) :=
  if !disk.isDirectory names then .error .notDirectory
  else if part == "" || part == "." then .ok names
  -- the root is the directory around itself
  else if part == ".." then .ok names.dropLast
  else if disk.contains (names ++ [part]) then .ok (names ++ [part])
  else .error (absence part)

def start (disk : Disk) (path : String) : List String :=
  if path.toList.head? == some '/' then [] else disk.directory

def locate (disk : Disk) (path : String) : Except FileFault (List String) :=
  match pathFault? path with
  | some fault => .error fault
  | none => (parts path).foldlM disk.enter (disk.start path)

def modified? (disk : Disk) (path : String) : Option Nat :=
  match disk.locate path with
  | .ok names => some (((disk.entry? names).map (·.modified)).getD 0)
  | .error _ => none

def read (disk : Disk) (path : String) : Except FileFault (List UInt8) :=
  match disk.locate path with
  | .ok names =>
      match disk.entry? names with
      | some { node := .file bytes, .. } => .ok bytes
      | _ => .error .isDirectory
  | .error fault => .error fault

def insert (disk : Disk) (entry : DiskEntry) : Disk :=
  { disk with
    entries := entry :: disk.entries.filter fun other => other.names != entry.names }

/-- Where a file with a path would be put.  A path with a slash at its end means a directory. -/
def target (disk : Disk) (path : String) : Except FileFault (List String) :=
  let all := parts path
  let names := (all.reverse.dropWhile (·.isEmpty)).reverse
  let name := names.getLast?.getD "."
  let isName := name != "." && name != ".."
  match pathFault? path with
  | some fault => .error fault
  | none =>
      match names.dropLast.foldlM disk.enter (disk.start path) with
      | .error fault => .error fault
      | .ok around =>
          if !disk.isDirectory around then .error .notDirectory
          else if !isName || names.length < all.length || disk.isDirectory (around ++ [name]) then
            .error .isDirectory
          else if maxName < name.utf8ByteSize then .error .nameTooLong
          else .ok (around ++ [name])

def write (disk : Disk) (path : String) (bytes : List UInt8) : Except FileFault Unit × Disk :=
  match disk.target path with
  | .ok names => (.ok (), disk.insert ⟨names, .file bytes, disk.clock⟩)
  | .error fault => (.error fault, disk)

def makeDirectory (disk : Disk) (names : List String) : Disk :=
  if disk.contains names then disk else disk.insert ⟨names, .directory, disk.clock⟩

/-- A disk with a further file, and with the directories around it.  Without a time the file is
written now. -/
def addFile (disk : Disk) (path : String) (bytes : List UInt8) (modified : Option Nat) : Disk :=
  let names := disk.start path ++ entryNames path
  let around := (List.range (names.length - 1)).map fun i => names.take (i + 1)
  (around.foldl makeDirectory disk).insert ⟨names, .file bytes, modified.getD disk.clock⟩

def addDirectory (disk : Disk) (path : String) : Disk :=
  let names := disk.start path ++ entryNames path
  ((List.range names.length).map fun i => names.take (i + 1)).foldl makeDirectory disk

end Disk

abbrev OnDisk := StateM Disk

instance : MonadFiles OnDisk where
  modified? path := return (← get).modified? path
  read path := return (← get).read path
  write path bytes := fun disk => disk.write path bytes

namespace OnDisk

variable {path : String} {disk : Disk}

@[simp]
theorem run_modified? :
    (modified? path : OnDisk (Option Nat)).run disk = pure (disk.modified? path, disk) :=
  rfl

@[simp]
theorem run_read :
    (MonadFiles.read path : OnDisk (Except FileFault (List UInt8))).run disk =
      pure (disk.read path, disk) :=
  rfl

@[simp]
theorem run_write {bytes : List UInt8} :
    (MonadFiles.write path bytes : OnDisk (Except FileFault Unit)).run disk =
      pure (disk.write path bytes) :=
  rfl

theorem run_bind_of_run_eq {α β : Type} {first : OnDisk α} {next : α → OnDisk β} {value : α}
    {after : Disk} (h : first.run disk = (value, after)) :
    (first >>= next).run disk = (next value).run after := by
  rw [StateT.run_bind, h]
  rfl

end OnDisk

end ScopeLexer
