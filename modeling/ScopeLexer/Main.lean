import ScopeLexer.CommandLine

/-!
# The program as it is run

Files and the standard streams of the system.
-/

namespace ScopeLexer.CommandLine

def errorNumber? : IO.Error → Option UInt32
  | .noFileOrDirectory _ number _ => some number
  | .inappropriateType _ number _ => some number
  | .invalidArgument _ number _ => some number
  | _ => none

/-- The fault that an error of the system is.  Its number may come with either sign. -/
def fileFaultOf (error : IO.Error) : FileFault :=
  match (errorNumber? error).map fun number => min number (0 - number) with
  | some 2 => .missing
  | some 20 => .notDirectory
  | some 21 => .isDirectory
  | some 36 => .nameTooLong
  | _ => .other (toString error)

def onFile {α : Type} (action : IO α) : IO (Except FileFault α) := do
  try
    return .ok (← action)
  catch error =>
    return .error (fileFaultOf error)

def changedAt (path : String) : IO Nat := do
  let time := (← ((← IO.currentDir) / path).metadata).modified
  return time.sec.toNat * 1000000000 + time.nsec.toNat

instance : MonadFiles IO where
  modified? path := return (← onFile (changedAt path)).toOption
  read path := onFile do return (← IO.FS.readBinFile path).toList
  write path bytes := onFile (IO.FS.writeBinFile path ⟨bytes.toArray⟩)

def standardInput : IO (List UInt8) := do
  return (← (← IO.getStdin).readBinToEnd).toList

end ScopeLexer.CommandLine

open ScopeLexer

def main (arguments : List String) : IO UInt32 := do
  let outcome ← CommandLine.run CommandLine.standardInput arguments
  (← IO.getStdout).putStr outcome.output
  (← IO.getStderr).putStr outcome.complaint
  return outcome.code.toUInt32
