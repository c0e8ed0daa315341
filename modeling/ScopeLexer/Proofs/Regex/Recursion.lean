import ScopeLexer.Regex.Program

/-!
# Calls in changed trees

Whether a group calls itself, and whether it does so without end, depends on little of a tree: on its
calls, and on what matches no empty text.  `Node.KeepsCalls` holds of changes that leave these as they
are; such a change may be made before calls are written out or behind.
-/

namespace ScopeLexer.Regex.Node

def isSequence : Node → Bool
  | .sequence _ _ => true
  | _ => false

/-- A change of trees that leaves their groups and calls as they are. -/
structure KeepsCalls (change : Node → Node) : Prop where
  empty : change .empty = .empty
  oneOf (members : CharClass) : change (.oneOf members) = .oneOf members
  call (index : Nat) : change (.call index) = .call index
  group (index : Nat) (body : Node) : change (.group index body) = .group index (change body)
  «scoped» (body : Node) : change (.scoped body) = .scoped (change body)
  groupBody? (index : Nat) (node : Node) :
    (change node).groupBody? index = (node.groupBody? index).map change
  called (node : Node) : (change node).called = node.called
  lengths (node : Node) : (change node).lengths = node.lengths
  /-- What is put in place of a call must not become a part of the sequence around it. -/
  mapCalls {target changed : Nat → Node} (hsingle : ∀ index, (target index).isSequence = false)
    (htarget : ∀ index, change (target index) = changed index) (node : Node) :
    change (node.mapCalls target) = (change node).mapCalls changed

namespace KeepsCalls

variable {change : Node → Node} (h : KeepsCalls change)

include h

theorem callee? (root : Node) (index : Nat) :
    (change root).callee? index = (root.callee? index).map change := by
  unfold Node.callee?
  split
  · rw [Option.map_some, h.scoped]
  · rw [h.groupBody?, Option.map_map, Option.map_map]
    exact congrArg (Option.map · _) (funext fun body => (h.group index body).symm)

theorem calledGroup (root : Node) (cursor : Cursor) (call : Nat) :
    (change root).calledGroup cursor call = root.calledGroup cursor call := by
  simp only [Node.calledGroup, h.callee?, Option.isSome_map]

theorem recursiveGroups (root : Node) (count : Nat) :
    (change root).recursiveGroups count = root.recursiveGroups count := by
  have hcallees : (change root).callees = root.callees := by
    funext index
    rw [callees, h.callee?, callees]
    cases root.callee? index with
    | none => rfl
    | some callee => exact h.called callee
  simp only [Node.recursiveGroups, hcallees, h.called]

theorem consumes (consuming : List Nat) (node : Node) :
    (change node).consumes consuming = node.consumes consuming := by
  simp only [Node.consumes]
  rw [← h.mapCalls, h.lengths]
  · intro index
    split <;> rfl
  · intro index
    split
    · exact h.oneOf _
    · exact h.empty

theorem consumingGroups (root : Node) (count : Nat) :
    (change root).consumingGroups count = root.consumingGroups count := by
  have hany : ∀ consuming index, ((change root).callee? index).any (Node.consumes consuming) =
      (root.callee? index).any (Node.consumes consuming) := by
    intro consuming index
    rw [h.callee?]
    cases root.callee? index with
    | none => rfl
    | some callee => exact h.consumes consuming callee
  simp only [Node.consumingGroups, hany]

theorem isEndless (hback : ∀ consuming calls fresh node,
      (change node).leadsBack consuming calls fresh = node.leadsBack consuming calls fresh)
    (root : Node) (count target : Nat) :
    (change root).isEndless count target = root.isEndless count target := by
  have hcallee : ∀ consuming calls fresh index,
      ((change root).callee? index).elim {} (leadsBack consuming calls fresh) =
        (root.callee? index).elim {} (leadsBack consuming calls fresh) := by
    intro consuming calls fresh index
    rw [h.callee?]
    cases root.callee? index with
    | none => rfl
    | some callee => exact hback consuming calls fresh callee
  have hreturns : (change root).returns count target = root.returns count target := by
    simp only [returns, h.consumingGroups, hcallee]
  simp only [Node.isEndless, h.consumingGroups, hreturns, h.callee?, Option.any_map, hback]

end KeepsCalls

/-! ## Writing calls out -/

theorem callee?_eq_some {root callee : Node} {index : Nat} (h : root.callee? index = some callee) :
    callee = .scoped root ∨ ∃ body, root.groupBody? index = some body ∧
      callee = .group index body := by
  unfold callee? at h
  split at h
  · exact .inl (Option.some.inj h).symm
  · obtain ⟨body, hbody, rfl⟩ := Option.map_eq_some_iff.mp h
    exact .inr ⟨body, hbody, rfl⟩

theorem mapCalls_of_called {target : Nat → Node} {node : Node} (h : node.called = []) :
    node.mapCalls target = node := by
  induction node <;> simp_all [called, mapCalls]

theorem isSequence_expandCalls (root : Node) (recursive : List Nat) (depth index : Nat) :
    (expandCalls root recursive depth ((root.callee? index).getD .empty)).isSequence = false := by
  cases hcallee : root.callee? index with
  | none => cases depth <;> rfl
  | some callee =>
      rcases callee?_eq_some hcallee with rfl | ⟨body, -, rfl⟩ <;> cases depth <;> rfl

theorem KeepsCalls.expandCalls {change : Node → Node} (h : KeepsCalls change) (root : Node)
    (recursive : List Nat) (depth : Nat) (node : Node) :
    change (Node.expandCalls root recursive depth node) =
      Node.expandCalls (change root) recursive depth (change node) := by
  induction depth generalizing node with
  | zero => rfl
  | succ depth ih =>
      refine h.mapCalls (fun index => ?_) (fun index => ?_) node
      · split
        · rfl
        · exact isSequence_expandCalls root recursive depth index
      · split
        · exact h.call index
        · rw [ih, h.callee?]
          cases root.callee? index with
          | none => rw [Option.map_none, Option.getD_none, h.empty]
          | some callee => rfl

/-! ## Naming calls -/

theorem nameCalls_of_called {target : Nat → Except Fault Nat} {node : Node} (h : node.called = []) :
    node.nameCalls target = .ok node := by
  induction node with
  | call index => contradiction
  | sequence first second ihFirst ihSecond =>
      obtain ⟨hfirst, hsecond⟩ := List.append_eq_nil_iff.mp h
      rw [nameCalls, ihFirst hfirst, ihSecond hsecond]
      rfl
  | choice first second ihFirst ihSecond =>
      obtain ⟨hfirst, hsecond⟩ := List.append_eq_nil_iff.mp h
      rw [nameCalls, ihFirst hfirst, ihSecond hsecond]
      rfl
  | group index body ih => rw [nameCalls, ih h]; rfl
  | atomic body ih => rw [nameCalls, ih h]; rfl
  | «scoped» body ih => rw [nameCalls, ih h]; rfl
  | look direction negated body ih => rw [nameCalls, ih h]; rfl
  | repeated least most preference body ih => rw [nameCalls, ih h]; rfl
  | conditional condition yes no ihCondition ihYes ihNo =>
      obtain ⟨hcondition, hbranches⟩ := List.append_eq_nil_iff.mp h
      obtain ⟨hyes, hno⟩ := List.append_eq_nil_iff.mp hbranches
      rw [nameCalls, ihCondition hcondition, ihYes hyes, ihNo hno]
      rfl
  | empty | oneOf | backreference | caught | assertion | keep => rfl

section

variable {change : Node → Node}

theorem map_wrapped {wrap wrapped : Node → Node}
    (hwrap : ∀ node, change (wrap node) = wrapped (change node)) (read : Except Fault Node) :
    (do return wrapped (← read.map change)) = Except.map change (do return wrap (← read)) := by
  cases read with
  | error fault => rfl
  | ok node => exact congrArg Except.ok (hwrap node).symm

theorem map_joined {join joined : Node → Node → Node}
    (hjoin : ∀ left right, change (join left right) = joined (change left) (change right))
    (first second : Except Fault Node) :
    (do return joined (← first.map change) (← second.map change)) =
      Except.map change (do return join (← first) (← second)) := by
  cases first with
  | error fault => rfl
  | ok left => exact map_wrapped (hjoin left) second

theorem map_conditional {read reads : Node → Node → Node → Node}
    (hread : ∀ condition yes no,
      change (read condition yes no) = reads (change condition) (change yes) (change no))
    (condition yes no : Except Fault Node) :
    (do return reads (← condition.map change) (← yes.map change) (← no.map change)) =
      Except.map change (do return read (← condition) (← yes) (← no)) := by
  cases condition with
  | error fault => rfl
  | ok condition => exact map_joined (hread condition) yes no

end

end ScopeLexer.Regex.Node
