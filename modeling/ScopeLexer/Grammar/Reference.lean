/-!
# References between rules

A grammar may include rules that are defined elsewhere.  A `Reference` says which; it is looked up
each time it is needed, so references may form cycles.
-/

namespace ScopeLexer

abbrev RuleId := Nat

abbrev RepositoryId := Nat

inductive Reference where
  /-- The top level of the grammar itself, `$self`. -/
  | itself
  /-- The top level of the grammar that the document began with, `$base`. -/
  | base
  /-- An entry of the nearest repository that has it, seen from a repository, `#name`. -/
  | entry (repository : RepositoryId) (name : String)
  /-- The top level of the grammar with a scope, or an entry of that grammar's repository. -/
  | external (scope : String) (name : Option String)
  deriving Repr, DecidableEq, Inhabited

inductive Pattern where
  | rule (id : RuleId)
  | reference (reference : Reference)
  deriving Repr, DecidableEq, Inhabited

namespace Reference

def ofText (text : String) (repository : RepositoryId) : Reference :=
  if text == "$self" then .itself
  else if text == "$base" then .base
  else
    match text.toList with
    | '#' :: name => .entry repository (String.ofList name)
    | chars =>
        match chars.dropWhile (· != '#') with
        | _ :: name =>
            .external (String.ofList (chars.takeWhile (· != '#'))) (some (String.ofList name))
        | [] => .external text none

def text : Reference → String
  | itself => "$self"
  | base => "$base"
  | entry _ name => "#" ++ name
  | external scope (some name) => scope ++ "#" ++ name
  | external scope none => scope

end Reference

end ScopeLexer
