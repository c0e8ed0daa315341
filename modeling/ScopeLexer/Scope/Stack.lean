import ScopeLexer.Scope.Name

/-!
# The stack of open scopes

The scopes that apply at a position, outermost first.  The root scope of the grammar is always the
first and is never removed.
-/

namespace ScopeLexer

structure ScopeStack where
  root : Scope
  above : List Scope := []
  deriving Repr, DecidableEq, Inhabited

namespace ScopeStack

def toList (stack : ScopeStack) : List Scope := stack.root :: stack.above

def depth (stack : ScopeStack) : Nat := stack.above.length + 1

def extend (stack : ScopeStack) (scopes : List Scope) : ScopeStack :=
  { stack with above := stack.above ++ scopes }

/-- Open the scopes of a name, given the groups of a match on a line.  Without a name none. -/
def enter (stack : ScopeStack) (name : Option ScopeName) (line : Text) (groups : Groups) :
    ScopeStack :=
  match name with
  | some name => stack.extend (name.resolve line groups)
  | none => stack

/-- Close every scope above a depth.  The root scope stays open in any case. -/
def truncate (stack : ScopeStack) (depth : Nat) : ScopeStack :=
  { stack with above := stack.above.take (depth - 1) }

def innermost (stack : ScopeStack) : Scope := stack.above.getLast?.getD stack.root

/-! ## Depths -/

@[simp] theorem root_enter (stack : ScopeStack) (name : Option ScopeName) (line : Text)
    (groups : Groups) : (stack.enter name line groups).root = stack.root := by
  cases name <;> rfl

@[simp] theorem root_truncate (stack : ScopeStack) (depth : Nat) :
    (stack.truncate depth).root = stack.root := rfl

theorem toList_prefix_enter (stack : ScopeStack) (name : Option ScopeName) (line : Text)
    (groups : Groups) : stack.toList <+: (stack.enter name line groups).toList := by
  cases name with
  | none => exact List.prefix_refl _
  | some name => exact ⟨name.resolve line groups, by simp [enter, extend, toList]⟩

theorem one_le_depth (stack : ScopeStack) : 1 ≤ stack.depth := Nat.le_add_left 1 _

theorem eq_of_depth {stack : ScopeStack} (h : stack.depth = 1) :
    stack = { root := stack.root } := by
  obtain ⟨root, above⟩ := stack
  cases List.eq_nil_of_length_eq_zero (Nat.succ.inj h)
  rfl

theorem depth_le_enter (stack : ScopeStack) (name : Option ScopeName) (line : Text)
    (groups : Groups) : stack.depth ≤ (stack.enter name line groups).depth := by
  have hlength := (stack.toList_prefix_enter name line groups).length_le
  simpa [toList, depth] using hlength

@[simp] theorem depth_truncate (stack : ScopeStack) (depth : Nat) :
    (stack.truncate depth).depth = min stack.depth (max depth 1) := by
  simp only [truncate, ScopeStack.depth, List.length_take]
  omega

end ScopeStack

end ScopeLexer
