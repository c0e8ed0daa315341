import ScopeLexer.Regex.Reader

/-!
# Programs

A `Program` is an expression that was read and found sound: its references and calls name groups it
has, no group calls itself without end, and its look-behinds hold nothing that cannot be looked for
backwards.  Only calls of groups that call themselves are left, the others are written out.
-/

namespace ScopeLexer.Regex

namespace Node

def refersWithin (count : Nat) : Node → Bool
  | .sequence first second => first.refersWithin count && second.refersWithin count
  | .choice first second => first.refersWithin count && second.refersWithin count
  | .group _ body => body.refersWithin count
  | .atomic body => body.refersWithin count
  | .scoped body => body.refersWithin count
  | .look _ _ body => body.refersWithin count
  | .repeated _ _ _ body => body.refersWithin count
  | .backreference groups _ => groups.all (· ≤ count)
  | .caught groups => groups.all (· ≤ count)
  | .conditional condition yes no =>
      condition.refersWithin count && yes.refersWithin count && no.refersWithin count
  | _ => true

def groupBody? (index : Nat) : Node → Option Node
  | .sequence first second => (first.groupBody? index).or (second.groupBody? index)
  | .choice first second => (first.groupBody? index).or (second.groupBody? index)
  | .group i body => if i == index then some body else body.groupBody? index
  | .atomic body => body.groupBody? index
  | .scoped body => body.groupBody? index
  | .look _ _ body => body.groupBody? index
  | .repeated _ _ _ body => body.groupBody? index
  | .conditional condition yes no =>
      (condition.groupBody? index).or ((yes.groupBody? index).or (no.groupBody? index))
  | _ => none

def callee? (root : Node) (index : Nat) : Option Node :=
  if index == 0 then some (.scoped root) else (root.groupBody? index).map (.group index)

def nameCalls (target : Nat → Except Fault Nat) : Node → Except Fault Node
  | .sequence first second => do
      return .sequence (← first.nameCalls target) (← second.nameCalls target)
  | .choice first second => do
      return .choice (← first.nameCalls target) (← second.nameCalls target)
  | .group index body => do return .group index (← body.nameCalls target)
  | .atomic body => do return .atomic (← body.nameCalls target)
  | .scoped body => do return .scoped (← body.nameCalls target)
  | .look direction negated body => do return .look direction negated (← body.nameCalls target)
  | .repeated least most preference body => do
      return .repeated least most preference (← body.nameCalls target)
  | .conditional condition yes no => do
      return .conditional (← condition.nameCalls target) (← yes.nameCalls target)
        (← no.nameCalls target)
  | .call index => do return .call (← target index)
  | node => .ok node

def calledGroup (root : Node) (cursor : Cursor) (call : Nat) : Except Fault Nat :=
  let known (index : Nat) (fault : Fault) :=
    if (root.callee? index).isSome then .ok index else .error fault
  match cursor.calls[call]? with
  | some (.name name) =>
      match cursor.groupsNamed name with
      | index :: _ => known index (.unknownName name)
      | [] => .error (.unknownName name)
  | some (.number index) => known index (.unknownGroup (toString index))
  | some (.before distance) => .error (.unknownGroup ("-" ++ toString distance))
  | _ => .error .backreference

/-! ## Recursion -/

def mapCalls (target : Nat → Node) : Node → Node
  | .sequence first second => .sequence (first.mapCalls target) (second.mapCalls target)
  | .choice first second => .choice (first.mapCalls target) (second.mapCalls target)
  | .group index body => .group index (body.mapCalls target)
  | .atomic body => .atomic (body.mapCalls target)
  | .scoped body => .scoped (body.mapCalls target)
  | .look direction negated body => .look direction negated (body.mapCalls target)
  | .repeated least most preference body => .repeated least most preference (body.mapCalls target)
  | .conditional condition yes no =>
      .conditional (condition.mapCalls target) (yes.mapCalls target) (no.mapCalls target)
  | .call index => target index
  | node => node

def called : Node → List Nat
  | .sequence first second => first.called ++ second.called
  | .choice first second => first.called ++ second.called
  | .group _ body => body.called
  | .atomic body => body.called
  | .scoped body => body.called
  | .look _ _ body => body.called
  | .repeated _ _ _ body => body.called
  | .conditional condition yes no => condition.called ++ (yes.called ++ no.called)
  | .call index => [index]
  | _ => []

def callees (root : Node) (index : Nat) : List Nat :=
  (root.callee? index).elim [] called

def recursiveGroups (root : Node) (count : Nat) : List Nat :=
  let reach (found : List Nat) := (found ++ found.flatMap root.callees).eraseDups
  if root.called.isEmpty then []
  else
    (List.range (count + 1)).filter fun index =>
      (Nat.repeat reach count (root.callees index)).contains index

def consumes (consuming : List Nat) (node : Node) : Bool :=
  let marked := node.mapCalls fun index =>
    if consuming.contains index then .oneOf .everything else .empty
  marked.lengths.1 != 0

/-- The groups that match no empty text.  Until that is known of a group, a call of it counts as
empty. -/
def consumingGroups (root : Node) (count : Nat) : List Nat :=
  let grow (consuming : List Nat) :=
    (List.range (count + 1)).filter fun index => (root.callee? index).any (consumes consuming)
  Nat.repeat grow (count + 1) []

structure Return where
  /-- No way through the node avoids it. -/
  always : Bool := false
  /-- It may happen before a character is matched. -/
  atOnce : Bool := false
  deriving Repr, DecidableEq, Inhabited

/-- How a node leads back, when the groups that it calls do so as `calls` tells.  No character was
matched as long as it is `fresh`. -/
def leadsBack (consuming : List Nat) (calls : Bool → Nat → Return) : (fresh : Bool) → Node → Return
  | fresh, .sequence first second =>
      let before := first.leadsBack consuming calls fresh
      let behind := second.leadsBack consuming calls (fresh && !first.consumes consuming)
      ⟨before.always || behind.always, before.atOnce || behind.atOnce⟩
  | fresh, .choice first second =>
      let left := first.leadsBack consuming calls fresh
      let right := second.leadsBack consuming calls fresh
      ⟨left.always && right.always, left.atOnce || right.atOnce⟩
  | fresh, .group _ body => body.leadsBack consuming calls fresh
  | fresh, .atomic body => body.leadsBack consuming calls fresh
  | fresh, .scoped body => body.leadsBack consuming calls fresh
  | fresh, .look _ _ body => body.leadsBack consuming calls fresh
  | fresh, .repeated least most _ body =>
      let once := body.leadsBack consuming calls fresh
      if most == some 0 then {} else ⟨once.always && least != 0, once.atOnce⟩
  | fresh, .conditional condition yes no =>
      let tested := condition.leadsBack consuming calls fresh
      let held := yes.leadsBack consuming calls (fresh && !condition.consumes consuming)
      let failed := no.leadsBack consuming calls fresh
      ⟨(tested.always || held.always) && failed.always,
        tested.atOnce || held.atOnce || failed.atOnce⟩
  | fresh, .call index => calls fresh index
  | _, _ => {}

def returns (root : Node) (count target : Nat) : Bool → Nat → Return :=
  let consuming := root.consumingGroups count
  let find (table : List (Return × Return)) (fresh : Bool) (index : Nat) : Return :=
    let found := (table[index]?).getD ({}, {})
    if fresh then found.1 else found.2
  let grow (table : List (Return × Return)) :=
    (List.range (count + 1)).map fun index =>
      let back (fresh : Bool) : Return :=
        if index == target then ⟨true, fresh⟩
        else (root.callee? index).elim {} (leadsBack consuming (find table) fresh)
      (back true, back false)
  find (Nat.repeat grow (count + 1) [])

/-- Whether a group that calls itself does so without end: on all ways through it, or before any
character is matched. -/
def isEndless (root : Node) (count target : Nat) : Bool :=
  (root.callee? target).any fun callee =>
    let back := callee.leadsBack (root.consumingGroups count) (root.returns count target) true
    back.always || back.atOnce

def expandCalls (root : Node) (recursive : List Nat) : (depth : Nat) → Node → Node
  | 0, node => node
  | depth + 1, node => node.mapCalls fun index =>
      if recursive.contains index then .call index
      else expandCalls root recursive depth ((root.callee? index).getD .empty)

/-! ## Look-behinds -/

def Assertion.behind : Assertion → Bool
  | .textEnd => false
  | .textEndOrFinalNewline => false
  | _ => true

/-- Whether a node may stand in a look-behind: it looks ahead nowhere and calls no group that calls
itself, and when the look-behind is negated it captures nothing. -/
def allowedBehind (negated : Bool) : Node → Bool
  | .sequence first second => first.allowedBehind negated && second.allowedBehind negated
  | .choice first second => first.allowedBehind negated && second.allowedBehind negated
  | .group _ body => !negated && body.allowedBehind negated
  | .atomic body => body.allowedBehind negated
  | .scoped body => body.allowedBehind negated
  | .look .ahead _ _ => false
  | .look .behind inner body => (negated || !inner) && body.allowedBehind negated
  | .repeated _ _ _ body => body.allowedBehind negated
  | .conditional condition yes no =>
      condition.allowedBehind negated && yes.allowedBehind negated && no.allowedBehind negated
  | .assertion condition => Assertion.behind condition
  | .keep => false
  | .call _ => false
  | _ => true

def maxBehind : Nat := 65535

def withinReach (node : Node) : Bool :=
  node.lengths.1 ≤ maxBehind && (node.lengths.2.all (· ≤ maxBehind))

def looksBehindSoundly : Node → Bool
  | .sequence first second => first.looksBehindSoundly && second.looksBehindSoundly
  | .choice first second => first.looksBehindSoundly && second.looksBehindSoundly
  | .group _ body => body.looksBehindSoundly
  | .atomic body => body.looksBehindSoundly
  | .scoped body => body.looksBehindSoundly
  | .look .ahead _ body => body.looksBehindSoundly
  | .look .behind negated body =>
      body.allowedBehind negated && body.withinReach && body.looksBehindSoundly
  | .repeated _ _ _ body => body.looksBehindSoundly
  | .conditional condition yes no =>
      condition.looksBehindSoundly && yes.looksBehindSoundly && no.looksBehindSoundly
  | _ => true

end Node

structure Program where
  root : Node
  groups : Nat
  deriving Repr, DecidableEq, Inhabited

def readTree (text : List Char) : Except Fault (Node × Cursor) :=
  readAlternatives (text.length + 2) false {} [] [] { rest := text }

namespace Program

def ofNamed (root : Node) (groups : Nat) : Except Fault Program :=
  let recursive := root.recursiveGroups groups
  let expanded := root.expandCalls recursive (groups + 1) root
  if recursive.any (root.isEndless groups) then .error .endlessCall
  else if expanded.looksBehindSoundly then .ok { root := expanded, groups }
  else .error .lookBehind

def ofTree (tree : Node) (cursor : Cursor) : Except Fault Program := do
  if tree.refersWithin cursor.groups then
    ofNamed (← tree.nameCalls (tree.calledGroup cursor)) cursor.groups
  else .error .backreference

def ofText (text : List Char) : Except Fault Program := do
  let (tree, cursor) ← readTree text
  ofTree tree cursor

end Program

end ScopeLexer.Regex
