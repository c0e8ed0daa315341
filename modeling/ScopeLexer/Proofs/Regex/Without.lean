import Mathlib.Algebra.Ring.Nat
import ScopeLexer.Proofs.Outcome
import ScopeLexer.Proofs.Regex.Recursion
import ScopeLexer.Regex.Matcher

/-!
# Expressions without an assertion

`Node.without` replaces an assertion by a node that matches nowhere.  Everything that is done with
a tree while an expression is read goes alike without the assertion, but for look-behinds, which
hold no look-ahead.
-/

namespace ScopeLexer.Regex

open Outcome

namespace Node

def nowhere : Node := .look .ahead true .empty

theorem nowhere_run (calls : Calls) (subject : Subject) (progress : Progress) (rest : Rest) :
    nowhere.run calls subject progress rest = none := rfl

def without (off : Assertion) : Node → Node
  | .sequence first second => .sequence (first.without off) (second.without off)
  | .choice first second => .choice (first.without off) (second.without off)
  | .group index body => .group index (body.without off)
  | .atomic body => .atomic (body.without off)
  | .scoped body => .scoped (body.without off)
  | .look direction negated body => .look direction negated (body.without off)
  | .repeated least most preference body => .repeated least most preference (body.without off)
  | .conditional condition yes no =>
      .conditional (condition.without off) (yes.without off) (no.without off)
  | .assertion condition => if condition = off then nowhere else .assertion condition
  | node => node

def occurrences (off : Assertion) : Node → Nat
  | .sequence first second => first.occurrences off + second.occurrences off
  | .choice first second => first.occurrences off + second.occurrences off
  | .group _ body => body.occurrences off
  | .atomic body => body.occurrences off
  | .scoped body => body.occurrences off
  | .look _ _ body => body.occurrences off
  | .repeated _ _ _ body => body.occurrences off
  | .conditional condition yes no =>
      condition.occurrences off + (yes.occurrences off + no.occurrences off)
  | .assertion condition => if condition = off then 1 else 0
  | _ => 0

attribute [local simp] without occurrences

variable {off : Assertion} {node body : Node}

theorem without_eq_self (h : node.occurrences off = 0) : node.without off = node := by
  induction node with
  | sequence first second ihFirst ihSecond =>
      obtain ⟨hfirst, hsecond⟩ := Nat.add_eq_zero_iff.mp h
      rw [without, ihFirst hfirst, ihSecond hsecond]
  | choice first second ihFirst ihSecond =>
      obtain ⟨hfirst, hsecond⟩ := Nat.add_eq_zero_iff.mp h
      rw [without, ihFirst hfirst, ihSecond hsecond]
  | group index body ih => rw [without, ih h]
  | atomic body ih => rw [without, ih h]
  | «scoped» body ih => rw [without, ih h]
  | look direction negated body ih => rw [without, ih h]
  | repeated least most preference body ih => rw [without, ih h]
  | conditional condition yes no ihCondition ihYes ihNo =>
      obtain ⟨hcondition, hbranches⟩ := Nat.add_eq_zero_iff.mp h
      obtain ⟨hyes, hno⟩ := Nat.add_eq_zero_iff.mp hbranches
      rw [without, ihCondition hcondition, ihYes hyes, ihNo hno]
  | assertion condition =>
      rw [occurrences] at h
      rw [without, if_neg]
      rintro rfl
      simp at h
  | empty | oneOf | backreference | caught | keep | call => rfl

theorem occurrences_without {other : Assertion} (hne : other ≠ off) (node : Node) :
    (node.without off).occurrences other = node.occurrences other := by
  induction node with
  | sequence first second ihFirst ihSecond =>
      rw [without, occurrences, ihFirst, ihSecond, occurrences]
  | choice first second ihFirst ihSecond =>
      rw [without, occurrences, ihFirst, ihSecond, occurrences]
  | group index body ih => exact ih
  | atomic body ih => exact ih
  | «scoped» body ih => exact ih
  | look direction negated body ih => exact ih
  | repeated least most preference body ih => exact ih
  | conditional condition yes no ihCondition ihYes ihNo =>
      rw [without, occurrences, ihCondition, ihYes, ihNo, occurrences]
  | assertion condition =>
      rw [without]
      split
      · next heq =>
        rw [heq, occurrences, if_neg (Ne.symm hne)]
        rfl
      · rfl
  | empty | oneOf | backreference | caught | keep | call => rfl

/-! ## Building nodes -/

theorem without_inSequence (nodes : List Node) :
    (inSequence nodes).without off = inSequence (nodes.map (without off)) := by
  fun_induction inSequence nodes with
  | case1 => rfl
  | case2 => rfl
  | case3 node rest hrest ih =>
      obtain ⟨second, others, rfl⟩ := List.exists_cons_of_ne_nil fun h => hrest h
      rw [without, ih]
      rfl

theorem occurrences_inSequence (nodes : List Node) :
    (inSequence nodes).occurrences off = (nodes.map (occurrences off)).sum := by
  fun_induction inSequence nodes with
  | case1 => rfl
  | case2 node => simp
  | case3 node rest hrest ih => rw [occurrences, ih, List.map_cons, List.sum_cons]

theorem without_inChoice (nodes : List Node) :
    (inChoice nodes).without off = inChoice (nodes.map (without off)) := by
  fun_induction inChoice nodes with
  | case1 => rfl
  | case2 => rfl
  | case3 node rest hrest ih =>
      obtain ⟨second, others, rfl⟩ := List.exists_cons_of_ne_nil fun h => hrest h
      rw [without, ih]
      rfl

theorem occurrences_inChoice (nodes : List Node) :
    (inChoice nodes).occurrences off = (nodes.map (occurrences off)).sum := by
  fun_induction inChoice nodes with
  | case1 => rfl
  | case2 node => simp
  | case3 node rest hrest ih => rw [occurrences, ih, List.map_cons, List.sum_cons]

theorem lengths_without (node : Node) : (node.without off).lengths = node.lengths := by
  induction node with
  | sequence first second ihFirst ihSecond => rw [without, lengths, ihFirst, ihSecond, lengths]
  | choice first second ihFirst ihSecond => rw [without, lengths, ihFirst, ihSecond, lengths]
  | group index body ih => exact ih
  | atomic body ih => exact ih
  | «scoped» body ih => exact ih
  | look direction negated body ih => rfl
  | repeated least most preference body ih => rw [without, lengths, ih, lengths]
  | conditional condition yes no ihCondition ihYes ihNo =>
      rw [without, lengths, ihCondition, ihYes, ihNo, lengths]
  | assertion condition =>
      rw [without]
      split <;> rfl
  | empty | oneOf | backreference | caught | keep | call => rfl

theorem refusesRepeat_without (node : Node) :
    (node.without off).refusesRepeat = node.refusesRepeat := by
  induction node with
  | choice first second ihFirst ihSecond =>
      rw [without, refusesRepeat, ihFirst, ihSecond, refusesRepeat]
  | assertion condition =>
      rw [without]
      split <;> rfl
  | _ => rfl

theorem alternatives_without (node : Node) :
    (node.without off).alternatives = node.alternatives.map (without off) := by
  induction node with
  | choice first second _ ih => rw [without, alternatives, ih, alternatives, List.map_cons]
  | assertion condition =>
      by_cases hoff : condition = off <;> simp [alternatives, without, nowhere, hoff]
  | _ => rfl

theorem occurrences_alternatives (node : Node) :
    (node.alternatives.map (occurrences off)).sum = node.occurrences off := by
  induction node with
  | choice first second _ ih => rw [alternatives, List.map_cons, List.sum_cons, ih, occurrences]
  | _ => simp [alternatives]

theorem without_lookFor (direction : Direction) (negated : Bool) (body : Node) :
    (body.lookFor direction negated).without off = (body.without off).lookFor direction negated := by
  have hfixed : ∀ node : Node, (node.without off).hasFixedLength = node.hasFixedLength := by
    intro node
    rw [hasFixedLength, lengths_without, hasFixedLength]
  have hall : (body.alternatives.map (without off)).all hasFixedLength =
      body.alternatives.all hasFixedLength := by
    rw [List.all_map]
    exact congrArg _ (funext hfixed)
  rw [lookFor, lookFor, alternatives_without, hall, hfixed]
  split
  · rw [without_inChoice, List.map_map, List.map_map]
    rfl
  · rfl

theorem occurrences_lookFor (direction : Direction) (negated : Bool) (body : Node) :
    (body.lookFor direction negated).occurrences off = body.occurrences off := by
  rw [lookFor]
  split
  · rw [occurrences_inChoice, List.map_map]
    exact occurrences_alternatives body
  · rfl

theorem without_branchOn (body condition : Node) :
    (body.branchOn condition).without off = (body.without off).branchOn (condition.without off) := by
  cases body with
  | assertion inner =>
      by_cases hoff : inner = off <;> simp [branchOn, without, nowhere, hoff]
  | _ => rfl

theorem occurrences_branchOn (body condition : Node) :
    (body.branchOn condition).occurrences off =
      condition.occurrences off + body.occurrences off := by
  cases body <;> rfl

theorem merge_without (outer inner : Option Nat × Nat × Preference) (body : Node) :
    merge outer inner (body.without off) = (merge outer inner body).map (without off) := by
  unfold merge
  split <;> rfl

theorem occurrences_merge {outer inner : Option Nat × Nat × Preference} {merged : Node}
    (h : merge outer inner body = some merged) : merged.occurrences off = body.occurrences off := by
  unfold merge at h
  split at h <;> first | contradiction | (cases h; rfl)

theorem without_repeatNode (least : Nat) (most : Option Nat) (preference : Preference)
    (body : Node) :
    (repeatNode least most preference body).without off =
      repeatNode least most preference (body.without off) := by
  by_cases honce : (least == 1 && most == some 1) = true
  · simp only [repeatNode, if_pos honce]
  cases body with
  | repeated innerLeast innerMost innerPreference core =>
      simp only [without, repeatNode, if_neg honce]
      split
      · rw [merge_without]
        cases merge (most, least, preference) (innerMost, innerLeast, innerPreference) core <;> rfl
      · rfl
  | assertion condition =>
      by_cases hoff : condition = off <;> simp [repeatNode, honce, without, nowhere, hoff]
  | _ => simp [repeatNode, honce, without]

theorem occurrences_repeatNode (least : Nat) (most : Option Nat) (preference : Preference)
    (body : Node) :
    (repeatNode least most preference body).occurrences off = body.occurrences off := by
  unfold repeatNode
  split
  · rfl
  split
  · split
    · next core _ =>
      cases hmerge : merge (most, least, preference) _ core with
      | none => rfl
      | some merged =>
          exact (occurrences_merge hmerge : merged.occurrences off = core.occurrences off)
    · rfl
  · rfl

end Node

variable {off : Assertion}

/-! ## Letters in any case -/

theorem occurrences_letters (letters : List Char) (build : Char → CharClass) :
    (Node.inSequence (letters.map fun c => .oneOf (build c))).occurrences off = 0 := by
  rw [Node.occurrences_inSequence, List.sum_eq_zero_iff_forall_eq_nat]
  simp [Node.occurrences]

theorem occurrences_caselessCharacter (c : Char) : (caselessCharacter c).occurrences off = 0 := by
  unfold caselessCharacter
  split
  · next first second rest _ =>
    rw [Node.occurrences, occurrences_letters (first :: second :: rest) CharClass.anyCase]
    rfl
  · rfl

theorem occurrences_caselessRun (fuel : Nat) (run : List Char) :
    (caselessRun fuel run).occurrences off = 0 := by
  induction fuel generalizing run with
  | zero =>
      cases run with
      | nil => rfl
      | cons c rest =>
          rw [caselessRun, Node.occurrences_inSequence, List.sum_eq_zero_iff_forall_eq_nat]
          · simp [occurrences_caselessCharacter]
          · simp
  | succ fuel ih =>
      cases run with
      | nil => rfl
      | cons c rest =>
          rw [caselessRun, Node.occurrences_inChoice, List.sum_eq_zero_iff_forall_eq_nat]
          simp only [List.map_cons, List.map_map, List.mem_cons, List.mem_map, Function.comp_apply]
          rintro count (rfl | ⟨lead, _, rfl⟩)
          · split
            · exact occurrences_caselessCharacter c
            · rw [Node.occurrences, occurrences_caselessCharacter, ih]
          · rw [Node.occurrences, ih]
            rfl

theorem occurrences_caselessClass (negated : Bool) (inner : CharClass) :
    (caselessClass negated inner).occurrences off = 0 := by
  rw [caselessClass, Node.occurrences_inChoice, List.sum_eq_zero_iff_forall_eq_nat]
  simp only [List.map_cons, List.mem_cons]
  rintro count (rfl | hcount)
  · rfl
  · split at hcount
    · simp at hcount
    · simp only [List.map_map, List.mem_map, Function.comp_apply] at hcount
      obtain ⟨entry, _, rfl⟩ := hcount
      exact occurrences_letters entry.2 CharClass.anyCase

/-! ## Branches -/

namespace Item

def without (off : Assertion) : Item → Item
  | .node read => .node (read.without off)
  | .caseless c => .caseless c

def occurrences (off : Assertion) (item : Item) : Nat := item.toNode.occurrences off

theorem toNode_without (item : Item) : (item.without off).toNode = item.toNode.without off := by
  cases item with
  | node read => rfl
  | caseless c => exact (Node.without_eq_self (occurrences_caselessCharacter c)).symm

theorem repeated_without (item : Item) (repetition : Repetition) :
    (item.repeated repetition).without off = (item.without off).repeated repetition := by
  have hnode : ∀ read, (Item.node read).without off = .node (read.without off) := fun _ => rfl
  rw [repeated, repeated, hnode, toNode_without, ← Node.without_repeatNode]
  split <;> rfl

theorem occurrences_repeated (item : Item) (repetition : Repetition) :
    (item.repeated repetition).occurrences off = item.occurrences off := by
  simp only [repeated, occurrences, toNode]
  split
  · exact Node.occurrences_repeatNode ..
  · exact Node.occurrences_repeatNode ..

end Item

theorem joinItems_without (items : List Item) (run : List Char) :
    (joinItems items run).map (Node.without off) = joinItems (items.map (Item.without off)) run := by
  have hrun : ∀ run : List Char, (caselessRun run.length run.reverse).without off =
      caselessRun run.length run.reverse :=
    fun run => Node.without_eq_self (occurrences_caselessRun ..)
  fun_induction joinItems items run with
  | case1 => rfl
  | case2 run hne =>
      rw [List.map_singleton, hrun, List.map_nil, joinItems]
      exact hne
  | case3 c items run ih => exact ih
  | case4 read items ih =>
      rw [List.map_cons, ih]
      rfl
  | case5 run read items hne ih =>
      rw [List.map_cons, List.map_cons, hrun, ih, List.map_cons, Item.without, joinItems]
      exact hne

theorem occurrences_joinItems (items : List Item) (run : List Char) :
    ((joinItems items run).map (Node.occurrences off)).sum =
      (items.map (Item.occurrences off)).sum := by
  have hcaseless : ∀ c, (Item.caseless c).occurrences off = 0 := occurrences_caselessCharacter
  have hnode : ∀ read, (Item.node read).occurrences off = read.occurrences off := fun _ => rfl
  fun_induction joinItems items run with
  | case1 => rfl
  | case2 run hne => simp [occurrences_caselessRun]
  | case3 c items run ih => rw [ih, List.map_cons, List.sum_cons, hcaseless, Nat.zero_add]
  | case4 read items ih => rw [List.map_cons, List.map_cons, List.sum_cons, List.sum_cons, ih, hnode]
  | case5 run read items hne ih =>
      rw [List.map_cons, List.map_cons, List.map_cons, List.sum_cons, List.sum_cons, List.sum_cons,
        occurrences_caselessRun, ih, hnode, Nat.zero_add]

theorem branchNode_without (items : List Item) :
    (branchNode items).without off = branchNode (items.map (Item.without off)) := by
  rw [branchNode, Node.without_inSequence, joinItems_without, List.map_reverse, branchNode]

theorem occurrences_branchNode (items : List Item) :
    (branchNode items).occurrences off = (items.map (Item.occurrences off)).sum := by
  rw [branchNode, Node.occurrences_inSequence, occurrences_joinItems, List.map_reverse,
    List.sum_reverse]

theorem wrap_without (kind : GroupKind) (body : Node) :
    (kind.wrap body).without off = kind.wrap (body.without off) := by
  cases kind with
  | look direction negated => exact Node.without_lookFor direction negated body
  | decided groups => exact Node.without_branchOn body (.caught groups)
  | plain | capture | atomic | «scoped» | absent => rfl

theorem occurrences_wrap (kind : GroupKind) (body : Node) :
    (kind.wrap body).occurrences off = body.occurrences off := by
  cases kind with
  | look direction negated => exact Node.occurrences_lookFor direction negated body
  | decided groups =>
      exact (Node.occurrences_branchOn body (.caught groups)).trans (Nat.zero_add _)
  | plain | capture | atomic | «scoped» | absent => rfl

/-! ## Programs -/

namespace Node

theorem refersWithin_without (count : Nat) (node : Node) :
    (node.without off).refersWithin count = node.refersWithin count := by
  induction node with
  | sequence first second ihFirst ihSecond =>
      rw [without, refersWithin, ihFirst, ihSecond, refersWithin]
  | choice first second ihFirst ihSecond =>
      rw [without, refersWithin, ihFirst, ihSecond, refersWithin]
  | group index body ih => exact ih
  | atomic body ih => exact ih
  | «scoped» body ih => exact ih
  | look direction negated body ih => exact ih
  | repeated least most preference body ih => exact ih
  | conditional condition yes no ihCondition ihYes ihNo =>
      rw [without, refersWithin, ihCondition, ihYes, ihNo, refersWithin]
  | assertion condition =>
      rw [without]
      split <;> rfl
  | empty | oneOf | backreference | caught | keep | call => rfl

theorem groupBody?_without (index : Nat) (node : Node) :
    (node.without off).groupBody? index = (node.groupBody? index).map (without off) := by
  induction node with
  | sequence first second ihFirst ihSecond =>
      rw [without, groupBody?, ihFirst, ihSecond, groupBody?, Option.map_or]
  | choice first second ihFirst ihSecond =>
      rw [without, groupBody?, ihFirst, ihSecond, groupBody?, Option.map_or]
  | group i body ih =>
      rw [without, groupBody?, groupBody?]
      split
      · rfl
      · exact ih
  | atomic body ih => exact ih
  | «scoped» body ih => exact ih
  | look direction negated body ih => exact ih
  | repeated least most preference body ih => exact ih
  | conditional condition yes no ihCondition ihYes ihNo =>
      rw [without, groupBody?, ihCondition, ihYes, ihNo, groupBody?, Option.map_or, Option.map_or]
  | assertion condition =>
      rw [without]
      split <;> rfl
  | empty | oneOf | backreference | caught | keep | call => rfl

theorem nameCalls_without (target : Nat → Except Fault Nat) (node : Node) :
    (node.without off).nameCalls target = (node.nameCalls target).map (without off) := by
  induction node with
  | sequence first second ihFirst ihSecond =>
      rw [without, nameCalls, ihFirst, ihSecond, nameCalls]
      exact map_joined (by exact fun _ _ => rfl) _ _
  | choice first second ihFirst ihSecond =>
      rw [without, nameCalls, ihFirst, ihSecond, nameCalls]
      exact map_joined (by exact fun _ _ => rfl) _ _
  | group index body ih =>
      rw [without, nameCalls, ih, nameCalls]
      exact map_wrapped (by exact fun _ => rfl) _
  | atomic body ih =>
      rw [without, nameCalls, ih, nameCalls]
      exact map_wrapped (by exact fun _ => rfl) _
  | «scoped» body ih =>
      rw [without, nameCalls, ih, nameCalls]
      exact map_wrapped (by exact fun _ => rfl) _
  | look direction negated body ih =>
      rw [without, nameCalls, ih, nameCalls]
      exact map_wrapped (by exact fun _ => rfl) _
  | repeated least most preference body ih =>
      rw [without, nameCalls, ih, nameCalls]
      exact map_wrapped (by exact fun _ => rfl) _
  | conditional condition yes no ihCondition ihYes ihNo =>
      rw [without, nameCalls, ihCondition, ihYes, ihNo, nameCalls]
      exact map_conditional (by exact fun _ _ _ => rfl) _ _ _
  | call index =>
      change (Node.call index).nameCalls target = _
      rw [nameCalls]
      cases target index <;> rfl
  | assertion condition =>
      change _ = Except.ok ((Node.assertion condition).without off)
      rw [without]
      split <;> rfl
  | empty | oneOf | backreference | caught | keep => rfl

theorem mapCalls_without {target targetOff : Nat → Node}
    (htarget : ∀ index, (target index).without off = targetOff index) (node : Node) :
    (node.mapCalls target).without off = (node.without off).mapCalls targetOff := by
  induction node with
  | sequence first second ihFirst ihSecond =>
      rw [mapCalls, without, ihFirst, ihSecond, without, mapCalls]
  | choice first second ihFirst ihSecond =>
      rw [mapCalls, without, ihFirst, ihSecond, without, mapCalls]
  | group index body ih => rw [mapCalls, without, ih, without, mapCalls]
  | atomic body ih => rw [mapCalls, without, ih, without, mapCalls]
  | «scoped» body ih => rw [mapCalls, without, ih, without, mapCalls]
  | look direction negated body ih => rw [mapCalls, without, ih, without, mapCalls]
  | repeated least most preference body ih => rw [mapCalls, without, ih, without, mapCalls]
  | conditional condition yes no ihCondition ihYes ihNo =>
      rw [mapCalls, without, ihCondition, ihYes, ihNo, without, mapCalls]
  | call index => exact htarget index
  | assertion condition =>
      rw [without]
      split
      · next hoff => simp [mapCalls, without, nowhere, hoff]
      · next hoff => simp [mapCalls, without, hoff]
  | empty | oneOf | backreference | caught | keep => rfl

theorem called_without (node : Node) : (node.without off).called = node.called := by
  induction node with
  | sequence first second ihFirst ihSecond => rw [without, called, ihFirst, ihSecond, called]
  | choice first second ihFirst ihSecond => rw [without, called, ihFirst, ihSecond, called]
  | group index body ih => exact ih
  | atomic body ih => exact ih
  | «scoped» body ih => exact ih
  | look direction negated body ih => exact ih
  | repeated least most preference body ih => exact ih
  | conditional condition yes no ihCondition ihYes ihNo =>
      rw [without, called, ihCondition, ihYes, ihNo, called]
  | assertion condition =>
      rw [without]
      split <;> rfl
  | empty | oneOf | backreference | caught | keep | call => rfl

theorem without_keepsCalls (off : Assertion) : KeepsCalls (without off) where
  empty := rfl
  oneOf _ := rfl
  call _ := rfl
  group _ _ := rfl
  «scoped» _ := rfl
  groupBody? := groupBody?_without
  called := called_without
  lengths := lengths_without
  mapCalls _ htarget := mapCalls_without htarget

theorem isEndless_without (root : Node) (count target : Nat) :
    (root.without off).isEndless count target = root.isEndless count target := by
  refine (without_keepsCalls off).isEndless (fun consuming calls fresh node => ?_) root count target
  induction node generalizing fresh with
  | sequence first second ihFirst ihSecond =>
      simp only [without, leadsBack, ihFirst, ihSecond, (without_keepsCalls off).consumes]
  | choice first second ihFirst ihSecond => simp only [without, leadsBack, ihFirst, ihSecond]
  | group index body ih => exact ih fresh
  | atomic body ih => exact ih fresh
  | «scoped» body ih => exact ih fresh
  | look direction negated body ih => exact ih fresh
  | repeated least most preference body ih => simp only [without, leadsBack, ih]
  | conditional condition yes no ihCondition ihYes ihNo =>
      simp only [without, leadsBack, ihCondition, ihYes, ihNo, (without_keepsCalls off).consumes]
  | assertion condition =>
      rw [without]
      split <;> rfl
  | empty | oneOf | backreference | caught | keep | call => rfl

/-- Whether no look-behind of a node holds an assertion. -/
def keepsFromBehind (off : Assertion) : Node → Bool
  | .sequence first second => first.keepsFromBehind off && second.keepsFromBehind off
  | .choice first second => first.keepsFromBehind off && second.keepsFromBehind off
  | .group _ body => body.keepsFromBehind off
  | .atomic body => body.keepsFromBehind off
  | .scoped body => body.keepsFromBehind off
  | .look .ahead _ body => body.keepsFromBehind off
  | .look .behind _ body => body.occurrences off == 0
  | .repeated _ _ _ body => body.keepsFromBehind off
  | .conditional condition yes no =>
      condition.keepsFromBehind off && yes.keepsFromBehind off && no.keepsFromBehind off
  | _ => true

theorem looksBehindSoundly_without {node : Node} (hkeeps : node.keepsFromBehind off = true)
    (h : node.looksBehindSoundly = true) : (node.without off).looksBehindSoundly = true := by
  induction node with
  | sequence first second ihFirst ihSecond =>
      simp only [keepsFromBehind, looksBehindSoundly, Bool.and_eq_true] at hkeeps h
      simp [without, looksBehindSoundly, ihFirst hkeeps.1 h.1, ihSecond hkeeps.2 h.2]
  | choice first second ihFirst ihSecond =>
      simp only [keepsFromBehind, looksBehindSoundly, Bool.and_eq_true] at hkeeps h
      simp [without, looksBehindSoundly, ihFirst hkeeps.1 h.1, ihSecond hkeeps.2 h.2]
  | group index body ih => exact ih hkeeps h
  | atomic body ih => exact ih hkeeps h
  | «scoped» body ih => exact ih hkeeps h
  | look direction negated body ih =>
      cases direction with
      | ahead => exact ih hkeeps h
      | behind => rwa [without, without_eq_self (beq_iff_eq.mp hkeeps)]
  | repeated least most preference body ih => exact ih hkeeps h
  | conditional condition yes no ihCondition ihYes ihNo =>
      simp only [keepsFromBehind, looksBehindSoundly, Bool.and_eq_true] at hkeeps h
      simp [without, looksBehindSoundly, ihCondition hkeeps.1.1 h.1.1, ihYes hkeeps.1.2 h.1.2,
        ihNo hkeeps.2 h.2]
  | assertion condition =>
      rw [without]
      split <;> rfl
  | empty | oneOf | backreference | caught | keep | call => rfl

theorem keepsFromBehind_without {other : Assertion} (hne : other ≠ off) (node : Node) :
    (node.without off).keepsFromBehind other = node.keepsFromBehind other := by
  induction node with
  | sequence first second ihFirst ihSecond =>
      rw [without, keepsFromBehind, ihFirst, ihSecond, keepsFromBehind]
  | choice first second ihFirst ihSecond =>
      rw [without, keepsFromBehind, ihFirst, ihSecond, keepsFromBehind]
  | group index body ih => exact ih
  | atomic body ih => exact ih
  | «scoped» body ih => exact ih
  | look direction negated body ih =>
      cases direction with
      | ahead => exact ih
      | behind => rw [without, keepsFromBehind, occurrences_without hne, keepsFromBehind]
  | repeated least most preference body ih => exact ih
  | conditional condition yes no ihCondition ihYes ihNo =>
      rw [without, keepsFromBehind, ihCondition, ihYes, ihNo, keepsFromBehind]
  | assertion condition =>
      rw [without]
      split <;> rfl
  | empty | oneOf | backreference | caught | keep | call => rfl

end Node

end ScopeLexer.Regex
