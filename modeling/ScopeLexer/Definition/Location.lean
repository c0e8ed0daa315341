/-!
# Places in a definition

A `Location` leads from the top of a definition to a part of it: through fields, through the
elements of lists and through the entries of tables.  It is written like `patterns[0].captures.1`.
-/

namespace ScopeLexer

inductive LocationStep where
  | field (name : String)
  | key (key : String)
  | element (index : Nat)
  deriving Repr, DecidableEq, Inhabited

structure Location where
  steps : List LocationStep
  deriving Repr, DecidableEq, Inhabited

namespace LocationStep

def first : LocationStep → String
  | field name => name
  | key name => name
  | element index => "[" ++ toString index ++ "]"

def next : LocationStep → String
  | field name => "." ++ name
  | key name => "." ++ name
  | element index => "[" ++ toString index ++ "]"

end LocationStep

namespace Location

def ofField (name : String) : Location := ⟨[.field name]⟩

def field (location : Location) (name : String) : Location := ⟨location.steps ++ [.field name]⟩

def key (location : Location) (key : String) : Location := ⟨location.steps ++ [.key key]⟩

def element (location : Location) (index : Nat) : Location :=
  ⟨location.steps ++ [.element index]⟩

def render (location : Location) : String :=
  match location.steps with
  | [] => ""
  | step :: steps => step.first ++ String.join (steps.map LocationStep.next)

end Location

end ScopeLexer
