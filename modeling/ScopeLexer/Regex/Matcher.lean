import ScopeLexer.Regex.Program
import ScopeLexer.Unicode.Segmentation

/-!
# Matching

`Node.run` tries a node at a position and hands every way it can match, in order of preference, to
the rest of the expression; the first way that the rest accepts is the match.  Positions count
characters.
-/

namespace ScopeLexer.Regex

structure Subject where
  text : Array Char
  start : Nat
  /-- No match goes past this position. -/
  limit : Nat
  deriving Repr, DecidableEq, Inhabited

structure Span where
  first : Option Nat := none
  stop : Option Nat := none
  deriving Repr, DecidableEq, Inhabited

structure Progress where
  position : Nat
  spans : Array Span
  /-- Where the reported match begins, when that is not where it began. -/
  kept : Option Nat := none
  deriving Repr, DecidableEq, Inhabited

abbrev Rest := Progress → Option Progress

abbrev Calls := Nat → Subject → Progress → Rest → Option Progress

namespace Subject

def at? (subject : Subject) (position : Nat) : Option Char :=
  if position < subject.limit then subject.text[position]? else none

def wordAt (subject : Subject) (ascii : Bool) (position : Nat) : Bool :=
  subject.text[position]?.any fun c => Unicode.isWordCharacter c && !(ascii && 128 ≤ c.toNat)

def isWordBoundary (subject : Subject) (ascii : Bool) (position : Nat) : Bool :=
  (position != 0 && subject.wordAt ascii (position - 1)) != subject.wordAt ascii position

def isClusterBoundary (subject : Subject) (position : Nat) : Bool :=
  subject.text[position]?.all
    (Unicode.endsCluster (subject.text.toList.take position).reverse)

def meets (subject : Subject) (condition : Assertion) (position : Nat) : Bool :=
  let size := subject.text.size
  match condition with
  | .textStart => position == 0
  | .textEnd => position == size
  | .textEndOrFinalNewline =>
      position == size || (position + 1 == size && subject.text[position]? == some '\n')
  | .lineStart =>
      position == 0 || (position != size && subject.text[position - 1]? == some '\n')
  | .lineEnd => position == size || subject.text[position]? == some '\n'
  | .searchStart => position == subject.start
  | .wordBoundary ascii => subject.isWordBoundary ascii position
  | .notWordBoundary ascii => !subject.isWordBoundary ascii position
  | .clusterBoundary => subject.isClusterBoundary position
  | .notClusterBoundary => !subject.isClusterBoundary position

end Subject

namespace Progress

def moveTo (progress : Progress) (position : Nat) : Progress :=
  { progress with position := position }

def enter (progress : Progress) (index : Nat) : Progress :=
  { progress with
    spans := progress.spans.modify (index - 1) fun span =>
      { span with first := some progress.position } }

/-- Leave a group that was entered at a position.  When it called itself meanwhile, another one was
noted. -/
def leave (progress : Progress) (index first : Nat) : Progress :=
  { progress with
    spans := progress.spans.modify (index - 1) fun _ => ⟨some first, some progress.position⟩ }

def caught? (progress : Progress) (index : Nat) : Option (Nat × Nat) :=
  match progress.spans[index - 1]? with
  | some { first := some first, stop := some stop } => some (first, stop)
  | _ => none

end Progress

/-! ## Repetitions -/

def runTimes (step : Progress → Rest → Option Progress) : (count : Nat) → Progress → Rest →
    Option Progress
  | 0, progress, rest => rest progress
  | count + 1, progress, rest => step progress fun next => runTimes step count next rest

def prefer (preference : Preference) (more : Unit → Option Progress)
    (enough : Unit → Option Progress) : Option Progress :=
  match preference with
  | .greedy =>
      match more () with
      | some found => some found
      | none => enough ()
  | .lazy =>
      match enough () with
      | some found => some found
      | none => more ()

/-- Match `step` any number of times up to `most`.  An iteration that consumes nothing is the
last; `fuel` bounds the others by the text that is left. -/
def runMore (step : Progress → Rest → Option Progress) (preference : Preference) : (fuel : Nat) →
    (most : Option Nat) → Progress → Rest → Option Progress
  | 0, _, progress, rest => rest progress
  | fuel + 1, most, progress, rest =>
      if most == some 0 then rest progress
      else
        prefer preference
          (fun _ => step progress fun next =>
            if next.position == progress.position then rest next
            else runMore step preference fuel (most.map (· - 1)) next rest)
          (fun _ => rest progress)

def countMembers (subject : Subject) (members : CharClass) : (fuel : Nat) → (position : Nat) → Nat
  | 0, _ => 0
  | fuel + 1, position =>
      match subject.at? position with
      | some c =>
          if members.contains c then countMembers subject members fuel (position + 1) + 1 else 0
      | none => 0

def fromMost (rest : Nat → Option Progress) (least : Nat) : (extra : Nat) → Option Progress
  | 0 => rest least
  | extra + 1 =>
      match rest (least + (extra + 1)) with
      | some found => some found
      | none => fromMost rest least extra

def fromLeast (rest : Nat → Option Progress) : (extra : Nat) → (least : Nat) → Option Progress
  | 0, least => rest least
  | extra + 1, least =>
      match rest least with
      | some found => some found
      | none => fromLeast rest extra (least + 1)

def runMembers (subject : Subject) (members : CharClass) (least : Nat) (most : Option Nat)
    (preference : Preference) (progress : Progress) (rest : Rest) : Option Progress :=
  let remaining := subject.limit - progress.position
  let count := countMembers subject members (min remaining (most.getD remaining)) progress.position
  let after (n : Nat) := rest (progress.moveTo (progress.position + n))
  if count < least then none
  else
    match preference with
    | .greedy => fromMost after least (count - least)
    | .lazy => fromLeast after (count - least) least

/-! ## Nodes -/

def repeatsAt (subject : Subject) (anyCase : Bool) (first position : Nat) : (count : Nat) → Bool
  | 0 => true
  | count + 1 =>
      match subject.text[first]?, subject.at? position with
      | some a, some b =>
          (if anyCase then Unicode.foldFull a == Unicode.foldFull b else a == b)
            && repeatsAt subject anyCase (first + 1) (position + 1) count
      | _, _ => false

def repeatGroup? (subject : Subject) (anyCase : Bool) (progress : Progress) (index : Nat) :
    Option Nat :=
  match progress.caught? index with
  | some (first, stop) =>
      if repeatsAt subject anyCase first progress.position (stop - first) then
        some (progress.position + (stop - first))
      else
        none
  | none => none

/-- Look for a node that ends at the current position and begins `back` characters in front of it,
or else farther away, `tries` times. -/
def lookBack (run : Progress → Option Progress) (progress : Progress) : (back : Nat) →
    (tries : Nat) → Option Progress
  | _, 0 => none
  | back, tries + 1 =>
      match run (progress.moveTo (progress.position - back)) with
      | some found => some found
      | none => lookBack run progress (back + 1) tries

namespace Node

def run (calls : Calls) : Node → Subject → Progress → Rest → Option Progress
  | .empty, _, progress, rest => rest progress
  | .oneOf members, subject, progress, rest =>
      match subject.at? progress.position with
      | some c =>
          if members.contains c then rest (progress.moveTo (progress.position + 1)) else none
      | none => none
  | .sequence first second, subject, progress, rest =>
      first.run calls subject progress fun next => second.run calls subject next rest
  | .choice first second, subject, progress, rest =>
      match first.run calls subject progress rest with
      | some found => some found
      | none => second.run calls subject progress rest
  | .group index body, subject, progress, rest =>
      body.run calls subject (progress.enter index) fun next =>
        rest (next.leave index progress.position)
  | .atomic body, subject, progress, rest =>
      match body.run calls subject progress some with
      | some next => rest next
      | none => none
  | .scoped body, subject, progress, rest => body.run calls subject progress rest
  | .look .ahead negated body, subject, progress, rest =>
      match body.run calls subject progress some with
      | some next => if negated then none else rest (next.moveTo progress.position)
      | none => if negated then rest progress else none
  | .look .behind negated body, subject, progress, rest =>
      let tryFrom (start : Progress) :=
        body.run calls { subject with limit := progress.position } start fun next =>
          if next.position == progress.position then some next else none
      let (least, most) := body.lengths
      let farthest := min progress.position (most.getD progress.position)
      match lookBack tryFrom progress least (farthest + 1 - least) with
      | some next => if negated then none else rest next
      | none => if negated then rest progress else none
  | .repeated least most preference (.oneOf members), subject, progress, rest =>
      runMembers subject members least most preference progress rest
  | .repeated least most preference body, subject, progress, rest =>
      runTimes (fun start next => body.run calls subject start next) least progress fun next =>
        runMore (fun start after => body.run calls subject start after) preference
          (subject.limit - next.position + 1) (most.map (· - least)) next rest
  | .backreference groups anyCase, subject, progress, rest =>
      match groups.findSome? (repeatGroup? subject anyCase progress) with
      | some position => rest (progress.moveTo position)
      | none => none
  | .caught groups, _, progress, rest =>
      if groups.any fun index => (progress.caught? index).isSome then rest progress else none
  | .conditional condition yes no, subject, progress, rest =>
      match condition.run calls subject progress some with
      | some next => yes.run calls subject next rest
      | none => no.run calls subject progress rest
  | .assertion condition, subject, progress, rest =>
      if subject.meets condition progress.position then rest progress else none
  | .keep, _, progress, rest => rest { progress with kept := some progress.position }
  | .call index, subject, progress, rest => calls index subject progress rest

end Node

/-! ## Searching -/

namespace Program

def begin (program : Program) (position : Nat) : Progress :=
  { position, spans := Array.replicate program.groups {} }

def maxNesting : Nat := 20

def call (program : Program) : (depth : Nat) → Calls
  | 0, _, _, _, _ => none
  | depth + 1, index, subject, progress, rest =>
      match program.root.callee? index with
      | some callee => callee.run (program.call depth) subject progress rest
      | none => none

def searchFrom (program : Program) (subject : Subject) : (tries : Nat) → (position : Nat) →
    Option (Nat × Progress)
  | 0, _ => none
  | tries + 1, position =>
      match program.root.run (program.call maxNesting) subject (program.begin position) some with
      | some found => some (position, found)
      | none => searchFrom program subject tries (position + 1)

def search (program : Program) (text : Array Char) (start : Nat) : Option (Nat × Progress) :=
  searchFrom program { text, start, limit := text.size } (text.size + 1 - start) start

end Program

end ScopeLexer.Regex
