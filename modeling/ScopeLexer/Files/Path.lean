/-!
# File names in paths

The file name of a path is its last part; slashes and single dots behind it do not count.  Its
extension is what follows the last dot of the name, unless that dot is the first character.
-/

namespace ScopeLexer.Path

/-- Drop the slashes and single dots behind the file name of a path, which is given in reverse. -/
def dropTrailing : List Char → List Char
  | '/' :: rest => dropTrailing rest
  | '.' :: '/' :: rest => dropTrailing rest
  | chars => chars

structure Parts where
  directory : List Char
  stem : List Char
  extension : Option (List Char)
  deriving Repr, DecidableEq, Inhabited

def splitName (name : List Char) : List Char × Option (List Char) :=
  let after := (name.reverse.takeWhile (· != '.')).reverse
  let before := name.take (name.length - after.length - 1)
  if after.length == name.length || before.isEmpty then (name, none) else (before, some after)

def split? (path : String) : Option Parts :=
  let rest := dropTrailing path.toList.reverse
  let name := (rest.takeWhile (· != '/')).reverse
  if name.isEmpty || name == ['.'] || name == ['.', '.'] then none
  else
    let (stem, extension) := splitName name
    some ⟨(rest.dropWhile (· != '/')).reverse, stem, extension⟩

def extension? (path : String) : Option String :=
  (split? path).bind fun parts => parts.extension.map String.ofList

def dotted (extension : List Char) : List Char :=
  if extension.isEmpty then [] else '.' :: extension

/-- The path with an extension in place of its own, or as it is when it has no file name. -/
def withExtension (path extension : String) : String :=
  match split? path with
  | some parts => String.ofList (parts.directory ++ parts.stem ++ dotted extension.toList)
  | none => path

end ScopeLexer.Path
