import ScopeLexer.Regex.Node

/-!
# Letters in any case

A run of letters that matches in any case is written out: each letter as the class of its variants,
and letters that some single character folds to also as that character.
-/

namespace ScopeLexer.Regex

open Unicode

def foldedTo (sequence : List Char) : List Char :=
  (foldExpansions.toList.filter fun entry => entry.2 == sequence).map (·.1)

def leadingFolds (run : List Char) : List (List Char) :=
  [3, 2].filterMap fun length =>
    let lead := run.take length
    if lead.length == length && !(foldedTo lead).isEmpty then some lead else none

/-- A letter in any case; one that folds to a sequence also matches as the sequence. -/
def caselessCharacter (c : Char) : Node :=
  match foldFull c with
  | first :: second :: rest =>
      .choice (.oneOf (.among (c :: caseVariants c ++ foldedTo (first :: second :: rest))))
        (Node.inSequence ((first :: second :: rest).map fun d => .oneOf (.anyCase d)))
  | _ => .oneOf (.anyCase c)

def caselessRun : (fuel : Nat) → List Char → Node
  | _, [] => .empty
  | 0, run => Node.inSequence (run.map caselessCharacter)
  | fuel + 1, c :: rest =>
      let plain :=
        if rest.isEmpty then caselessCharacter c
        else .sequence (caselessCharacter c) (caselessRun fuel rest)
      let folded := (leadingFolds ((c :: rest).map foldChar)).map fun lead =>
        Node.sequence (.oneOf (.among (foldedTo lead)))
          (caselessRun fuel ((c :: rest).drop lead.length))
      Node.inChoice (plain :: folded)

def caselessClass (negated : Bool) (inner : CharClass) : Node :=
  let members := Node.oneOf (.negateIf negated inner.closeCase)
  let sequences :=
    if negated then []
    else (foldExpansions.toList.filter fun entry => inner.contains entry.1).map fun entry =>
      Node.inSequence (entry.2.map fun d => .oneOf (.anyCase d))
  Node.inChoice (members :: sequences)

end ScopeLexer.Regex
