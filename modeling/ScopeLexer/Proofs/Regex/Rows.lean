import ScopeLexer.Proofs.Regex.Without

/-!
# Sequences in a row

Whether the parts of a sequence are sequences themselves makes no difference to what it matches.
`Node.inRow` writes all sequences of a tree in one row each; two trees that are the same in rows are
found sound alike and match alike.
-/

namespace ScopeLexer.Regex

open Outcome

namespace Node

def join : Node → Node → Node
  | .sequence first second, last => .sequence first (second.join last)
  | node, last => .sequence node last

/-- The tree in which the first part of a sequence never is one. -/
def inRow : Node → Node
  | .sequence first second => first.inRow.join second.inRow
  | .choice first second => .choice first.inRow second.inRow
  | .group index body => .group index body.inRow
  | .atomic body => .atomic body.inRow
  | .scoped body => .scoped body.inRow
  | .look direction negated body => .look direction negated body.inRow
  | .repeated least most preference body => .repeated least most preference body.inRow
  | .conditional condition yes no => .conditional condition.inRow yes.inRow no.inRow
  | node => node

/-! ## Matching -/

theorem join_eq_sequence (first second : Node) :
    ∃ left right, first.join second = .sequence left right := by
  cases first <;> exact ⟨_, _, rfl⟩

theorem run_join (first second : Node) (calls : Calls) (subject : Subject) (progress : Progress)
    (rest : Rest) :
    (first.join second).run calls subject progress rest =
      first.run calls subject progress fun next => second.run calls subject next rest := by
  induction first generalizing progress rest with
  | sequence left right _ ih =>
      rw [join, run, run]
      exact congrArg _ (funext fun next => ih next rest)
  | _ => rfl

theorem run_repeated {body : Node} (h : ∀ members, body ≠ .oneOf members) (least : Nat)
    (most : Option Nat) (preference : Preference) (calls : Calls) (subject : Subject)
    (progress : Progress) (rest : Rest) :
    (Node.repeated least most preference body).run calls subject progress rest =
      runTimes (fun start next => body.run calls subject start next) least progress fun next =>
        runMore (fun start after => body.run calls subject start after) preference
          (subject.limit - next.position + 1) (most.map (· - least)) next rest := by
  cases body with
  | oneOf members => exact absurd rfl (h members)
  | _ => rfl

theorem inRow_ne_oneOf {node : Node} (h : ∀ members, node ≠ .oneOf members) (members : CharClass) :
    node.inRow ≠ .oneOf members := by
  cases node with
  | oneOf members => exact absurd rfl (h members)
  | sequence first second =>
      obtain ⟨left, right, hjoin⟩ := first.inRow.join_eq_sequence second.inRow
      rw [inRow, hjoin]
      exact Node.noConfusion
  | _ => exact Node.noConfusion

theorem lengths_join (first second : Node) :
    (first.join second).lengths = (Node.sequence first second).lengths := by
  induction first with
  | sequence left right _ ih =>
      rw [join, lengths, ih]
      simp only [lengths]
      rcases left.lengths with ⟨low, _ | high⟩ <;> rcases right.lengths with ⟨low', _ | high'⟩ <;>
        rcases second.lengths with ⟨low'', _ | high''⟩ <;> simp [Nat.add_assoc]
  | _ => rfl

theorem lengths_inRow (node : Node) : node.inRow.lengths = node.lengths := by
  induction node with
  | sequence first second ihFirst ihSecond =>
      rw [inRow, lengths_join, lengths, ihFirst, ihSecond, lengths]
  | choice first second ihFirst ihSecond => rw [inRow, lengths, ihFirst, ihSecond, lengths]
  | group index body ih => exact ih
  | atomic body ih => exact ih
  | «scoped» body ih => exact ih
  | look direction negated body ih => rfl
  | repeated least most preference body ih => rw [inRow, lengths, ih, lengths]
  | conditional condition yes no ihCondition ihYes ihNo =>
      rw [inRow, lengths, ihCondition, ihYes, ihNo, lengths]
  | empty | oneOf | backreference | caught | assertion | keep | call => rfl

theorem run_inRow (calls : Calls) (node : Node) : node.inRow.run calls = node.run calls := by
  induction node with
  | sequence first second ihFirst ihSecond =>
      funext subject progress rest
      rw [inRow, run_join, ihFirst, ihSecond, run]
  | choice first second ihFirst ihSecond =>
      funext subject progress rest
      rw [inRow, run, ihFirst, ihSecond, run]
  | group index body ih =>
      funext subject progress rest
      rw [inRow, run, ih, run]
  | atomic body ih =>
      funext subject progress rest
      rw [inRow, run, ih, run]
  | «scoped» body ih =>
      funext subject progress rest
      rw [inRow, run, ih, run]
  | look direction negated body ih =>
      funext subject progress rest
      cases direction with
      | ahead => rw [inRow, run, ih, run]
      | behind => rw [inRow, run, ih, lengths_inRow, run]
  | repeated least most preference body ih =>
      funext subject progress rest
      rw [inRow]
      by_cases hmembers : ∃ members, body = .oneOf members
      · obtain ⟨members, rfl⟩ := hmembers
        rfl
      · have hbody : ∀ members, body ≠ .oneOf members := fun members h => hmembers ⟨members, h⟩
        rw [run_repeated (inRow_ne_oneOf hbody), run_repeated hbody, ih]
  | conditional condition yes no ihCondition ihYes ihNo =>
      funext subject progress rest
      rw [inRow, run, ihCondition, ihYes, ihNo, run]
  | empty | oneOf | backreference | caught | assertion | keep | call => rfl

/-! ## Building nodes -/

theorem refusesRepeat_inRow (node : Node) : node.inRow.refusesRepeat = node.refusesRepeat := by
  induction node with
  | sequence first second =>
      obtain ⟨left, right, hjoin⟩ := first.inRow.join_eq_sequence second.inRow
      rw [inRow, hjoin]
      rfl
  | choice first second ihFirst ihSecond =>
      rw [inRow, refusesRepeat, ihFirst, ihSecond, refusesRepeat]
  | _ => rfl

theorem alternatives_inRow (node : Node) :
    node.inRow.alternatives = node.alternatives.map inRow := by
  induction node with
  | sequence first second =>
      obtain ⟨left, right, hjoin⟩ := first.inRow.join_eq_sequence second.inRow
      rw [inRow, hjoin, alternatives, alternatives, List.map_singleton, inRow, hjoin]
      · exact fun _ _ => Node.noConfusion
      · exact fun _ _ => Node.noConfusion
  | choice first second _ ih => rw [inRow, alternatives, ih, alternatives, List.map_cons]
  | _ => rfl

theorem inRow_inChoice (nodes : List Node) :
    (inChoice nodes).inRow = inChoice (nodes.map inRow) := by
  fun_induction inChoice nodes with
  | case1 => rfl
  | case2 => rfl
  | case3 node rest hrest ih =>
      obtain ⟨second, others, rfl⟩ := List.exists_cons_of_ne_nil fun h => hrest h
      rw [inRow, ih]
      rfl

theorem inRow_lookFor (direction : Direction) (negated : Bool) (body : Node) :
    (body.lookFor direction negated).inRow = body.inRow.lookFor direction negated := by
  have hfixed : ∀ node : Node, node.inRow.hasFixedLength = node.hasFixedLength := by
    intro node
    rw [hasFixedLength, lengths_inRow, hasFixedLength]
  have hall : (body.alternatives.map inRow).all hasFixedLength =
      body.alternatives.all hasFixedLength := by
    rw [List.all_map]
    exact congrArg _ (funext hfixed)
  rw [lookFor, lookFor, alternatives_inRow, hall, hfixed]
  split
  · rw [inRow_inChoice, List.map_map, List.map_map]
    rfl
  · rfl

theorem inRow_branchOn (body condition : Node) :
    (body.branchOn condition).inRow = body.inRow.branchOn condition.inRow := by
  cases body with
  | sequence first second =>
      obtain ⟨left, right, hjoin⟩ := first.inRow.join_eq_sequence second.inRow
      simp [branchOn, inRow, hjoin]
  | _ => rfl

theorem merge_inRow (outer inner : Option Nat × Nat × Preference) (body : Node) :
    merge outer inner body.inRow = (merge outer inner body).map inRow := by
  unfold merge
  split <;> rfl

theorem inRow_repeatNode (least : Nat) (most : Option Nat) (preference : Preference) (body : Node) :
    (repeatNode least most preference body).inRow =
      repeatNode least most preference body.inRow := by
  by_cases honce : (least == 1 && most == some 1) = true
  · simp only [repeatNode, if_pos honce]
  cases body with
  | repeated innerLeast innerMost innerPreference core =>
      simp only [inRow, repeatNode, if_neg honce]
      split
      · rw [merge_inRow]
        cases merge (most, least, preference) (innerMost, innerLeast, innerPreference) core <;> rfl
      · rfl
  | sequence first second =>
      obtain ⟨left, right, hjoin⟩ := first.inRow.join_eq_sequence second.inRow
      simp [repeatNode, honce, inRow, hjoin]
  | _ => simp [repeatNode, honce, inRow]

/-! ## Parts -/

def parts : Node → List Node
  | .sequence first second => first :: second.parts
  | node => [node]

theorem parts_ne_nil (node : Node) : node.parts ≠ [] := by
  cases node <;> exact List.cons_ne_nil _ _

theorem inSequence_cons {nodes : List Node} (node : Node) (h : nodes ≠ []) :
    inSequence (node :: nodes) = .sequence node (inSequence nodes) := by
  cases nodes with
  | nil => contradiction
  | cons second rest => rfl

theorem inSequence_parts (node : Node) : inSequence node.parts = node := by
  induction node with
  | sequence first second _ ih => rw [parts, inSequence_cons first second.parts_ne_nil, ih]
  | _ => rfl

theorem join_inSequence (node : Node) {nodes : List Node} (h : nodes ≠ []) :
    node.join (inSequence nodes) = inSequence (node.parts ++ nodes) := by
  induction node with
  | sequence first second _ ih =>
      rw [join, ih, parts, List.cons_append, inSequence_cons]
      exact List.append_ne_nil_of_right_ne_nil _ h
  | _ => exact (inSequence_cons _ h).symm

theorem inRow_inSequence (nodes : List Node) :
    (inSequence nodes).inRow = inSequence (nodes.flatMap fun node => node.inRow.parts) := by
  induction nodes with
  | nil => rfl
  | cons node rest ih =>
      cases rest with
      | nil => rw [List.flatMap_singleton, inSequence_parts, inSequence]
      | cons second rest =>
          rw [inSequence_cons node (List.cons_ne_nil second rest), inRow, ih, join_inSequence]
          · rfl
          · rw [List.flatMap_cons]
            exact List.append_ne_nil_of_left_ne_nil second.inRow.parts_ne_nil _

theorem parts_characters {text : List Char} (h : text ≠ []) :
    (inSequence (text.map character)).inRow.parts = text.map character := by
  induction text with
  | nil => contradiction
  | cons c text ih =>
      cases text with
      | nil => rfl
      | cons d text => exact congrArg _ (ih (List.cons_ne_nil d text))

/-! ## Programs -/

theorem refersWithin_join (count : Nat) (first second : Node) :
    (first.join second).refersWithin count =
      (first.refersWithin count && second.refersWithin count) := by
  induction first with
  | sequence left right _ ih => rw [join, refersWithin, ih, refersWithin, Bool.and_assoc]
  | _ => rfl

theorem refersWithin_inRow (count : Nat) (node : Node) :
    node.inRow.refersWithin count = node.refersWithin count := by
  induction node with
  | sequence first second ihFirst ihSecond =>
      rw [inRow, refersWithin_join, ihFirst, ihSecond, refersWithin]
  | choice first second ihFirst ihSecond =>
      rw [inRow, refersWithin, ihFirst, ihSecond, refersWithin]
  | group index body ih => exact ih
  | atomic body ih => exact ih
  | «scoped» body ih => exact ih
  | look direction negated body ih => exact ih
  | repeated least most preference body ih => exact ih
  | conditional condition yes no ihCondition ihYes ihNo =>
      rw [inRow, refersWithin, ihCondition, ihYes, ihNo, refersWithin]
  | empty | oneOf | backreference | caught | assertion | keep | call => rfl

theorem groupBody?_join (index : Nat) (first second : Node) :
    (first.join second).groupBody? index =
      (first.groupBody? index).or (second.groupBody? index) := by
  induction first with
  | sequence left right _ ih => rw [join, groupBody?, ih, groupBody?, Option.or_assoc]
  | _ => rfl

theorem groupBody?_inRow (index : Nat) (node : Node) :
    node.inRow.groupBody? index = (node.groupBody? index).map inRow := by
  induction node with
  | sequence first second ihFirst ihSecond =>
      rw [inRow, groupBody?_join, ihFirst, ihSecond, groupBody?, Option.map_or]
  | choice first second ihFirst ihSecond =>
      rw [inRow, groupBody?, ihFirst, ihSecond, groupBody?, Option.map_or]
  | group i body ih =>
      rw [inRow, groupBody?, groupBody?]
      split
      · rfl
      · exact ih
  | atomic body ih => exact ih
  | «scoped» body ih => exact ih
  | look direction negated body ih => exact ih
  | repeated least most preference body ih => exact ih
  | conditional condition yes no ihCondition ihYes ihNo =>
      rw [inRow, groupBody?, ihCondition, ihYes, ihNo, groupBody?, Option.map_or, Option.map_or]
  | empty | oneOf | backreference | caught | assertion | keep | call => rfl

theorem allowedBehind_join (negated : Bool) (first second : Node) :
    (first.join second).allowedBehind negated =
      (first.allowedBehind negated && second.allowedBehind negated) := by
  induction first with
  | sequence left right _ ih => rw [join, allowedBehind, ih, allowedBehind, Bool.and_assoc]
  | _ => rfl

theorem allowedBehind_inRow (negated : Bool) (node : Node) :
    node.inRow.allowedBehind negated = node.allowedBehind negated := by
  induction node with
  | sequence first second ihFirst ihSecond =>
      rw [inRow, allowedBehind_join, ihFirst, ihSecond, allowedBehind]
  | choice first second ihFirst ihSecond =>
      rw [inRow, allowedBehind, ihFirst, ihSecond, allowedBehind]
  | group index body ih => rw [inRow, allowedBehind, ih, allowedBehind]
  | atomic body ih => exact ih
  | «scoped» body ih => exact ih
  | look direction inner body ih =>
      cases direction with
      | ahead => rfl
      | behind => rw [inRow, allowedBehind, ih, allowedBehind]
  | repeated least most preference body ih => exact ih
  | conditional condition yes no ihCondition ihYes ihNo =>
      rw [inRow, allowedBehind, ihCondition, ihYes, ihNo, allowedBehind]
  | empty | oneOf | backreference | caught | assertion | keep | call => rfl

theorem looksBehindSoundly_join (first second : Node) :
    (first.join second).looksBehindSoundly =
      (first.looksBehindSoundly && second.looksBehindSoundly) := by
  induction first with
  | sequence left right _ ih =>
      rw [join, looksBehindSoundly, ih, looksBehindSoundly, Bool.and_assoc]
  | _ => rfl

theorem looksBehindSoundly_inRow (node : Node) :
    node.inRow.looksBehindSoundly = node.looksBehindSoundly := by
  induction node with
  | sequence first second ihFirst ihSecond =>
      rw [inRow, looksBehindSoundly_join, ihFirst, ihSecond, looksBehindSoundly]
  | choice first second ihFirst ihSecond =>
      rw [inRow, looksBehindSoundly, ihFirst, ihSecond, looksBehindSoundly]
  | group index body ih => exact ih
  | atomic body ih => exact ih
  | «scoped» body ih => exact ih
  | look direction negated body ih =>
      cases direction with
      | ahead => exact ih
      | behind =>
          rw [inRow, looksBehindSoundly, allowedBehind_inRow, withinReach, lengths_inRow, ih,
            looksBehindSoundly, withinReach]
  | repeated least most preference body ih => exact ih
  | conditional condition yes no ihCondition ihYes ihNo =>
      rw [inRow, looksBehindSoundly, ihCondition, ihYes, ihNo, looksBehindSoundly]
  | empty | oneOf | backreference | caught | assertion | keep | call => rfl

/-! ## Calls -/

theorem nameCalls_join (target : Nat → Except Fault Nat) (first second : Node) :
    (first.join second).nameCalls target =
      (do return (← first.nameCalls target).join (← second.nameCalls target)) := by
  induction first with
  | sequence left right _ ih => simp only [join, nameCalls, ih, bind_assoc, pure_bind]
  | empty | oneOf | backreference | caught | assertion | keep => rfl
  | _ => simp only [join, nameCalls, bind_assoc, pure_bind]

theorem nameCalls_inRow (target : Nat → Except Fault Nat) (node : Node) :
    node.inRow.nameCalls target = (node.nameCalls target).map inRow := by
  induction node with
  | sequence first second ihFirst ihSecond =>
      rw [inRow, nameCalls_join, ihFirst, ihSecond, nameCalls]
      exact map_joined (by exact fun _ _ => rfl) _ _
  | choice first second ihFirst ihSecond =>
      rw [inRow, nameCalls, ihFirst, ihSecond, nameCalls]
      exact map_joined (by exact fun _ _ => rfl) _ _
  | group index body ih =>
      rw [inRow, nameCalls, ih, nameCalls]
      exact map_wrapped (by exact fun _ => rfl) _
  | atomic body ih =>
      rw [inRow, nameCalls, ih, nameCalls]
      exact map_wrapped (by exact fun _ => rfl) _
  | «scoped» body ih =>
      rw [inRow, nameCalls, ih, nameCalls]
      exact map_wrapped (by exact fun _ => rfl) _
  | look direction negated body ih =>
      rw [inRow, nameCalls, ih, nameCalls]
      exact map_wrapped (by exact fun _ => rfl) _
  | repeated least most preference body ih =>
      rw [inRow, nameCalls, ih, nameCalls]
      exact map_wrapped (by exact fun _ => rfl) _
  | conditional condition yes no ihCondition ihYes ihNo =>
      rw [inRow, nameCalls, ihCondition, ihYes, ihNo, nameCalls]
      exact map_conditional (by exact fun _ _ _ => rfl) _ _ _
  | call index =>
      change (Node.call index).nameCalls target = _
      rw [nameCalls]
      cases target index <;> rfl
  | empty | oneOf | backreference | caught | assertion | keep => rfl

theorem join_of_single {first : Node} (h : first.isSequence = false) (second : Node) :
    first.join second = .sequence first second := by
  cases first with
  | sequence => contradiction
  | _ => rfl

theorem isSequence_inRow (node : Node) : node.inRow.isSequence = node.isSequence := by
  cases node with
  | sequence first second =>
      obtain ⟨left, right, hjoin⟩ := first.inRow.join_eq_sequence second.inRow
      rw [inRow, hjoin]
      rfl
  | _ => rfl

section

variable {target targetInRow : Nat → Node} (hsingle : ∀ index, (target index).isSequence = false)

include hsingle

theorem isSequence_mapCalls (node : Node) :
    (node.mapCalls target).isSequence = node.isSequence := by
  cases node with
  | call index => exact hsingle index
  | _ => rfl

theorem mapCalls_join (first second : Node) :
    (first.join second).mapCalls target =
      (first.mapCalls target).join (second.mapCalls target) := by
  induction first with
  | sequence left right _ ih => rw [join, mapCalls, ih, mapCalls, join]
  | _ =>
      rw [join_of_single rfl, mapCalls, join_of_single]
      rw [isSequence_mapCalls hsingle]
      rfl

/-- What is put in place of calls stands in the same rows, when it is no sequence itself. -/
theorem mapCalls_inRow (htarget : ∀ index, (target index).inRow = targetInRow index) (node : Node) :
    (node.mapCalls target).inRow = node.inRow.mapCalls targetInRow := by
  have hsingleInRow : ∀ index, (targetInRow index).isSequence = false := by
    intro index
    rw [← htarget, isSequence_inRow, hsingle]
  induction node with
  | sequence first second ihFirst ihSecond =>
      rw [mapCalls, inRow, ihFirst, ihSecond, inRow, mapCalls_join hsingleInRow]
  | choice first second ihFirst ihSecond =>
      rw [mapCalls, inRow, ihFirst, ihSecond, inRow, mapCalls]
  | group index body ih => rw [mapCalls, inRow, ih, inRow, mapCalls]
  | atomic body ih => rw [mapCalls, inRow, ih, inRow, mapCalls]
  | «scoped» body ih => rw [mapCalls, inRow, ih, inRow, mapCalls]
  | look direction negated body ih => rw [mapCalls, inRow, ih, inRow, mapCalls]
  | repeated least most preference body ih => rw [mapCalls, inRow, ih, inRow, mapCalls]
  | conditional condition yes no ihCondition ihYes ihNo =>
      rw [mapCalls, inRow, ihCondition, ihYes, ihNo, inRow, mapCalls]
  | call index => exact htarget index
  | empty | oneOf | backreference | caught | assertion | keep => rfl

end

theorem called_join (first second : Node) :
    (first.join second).called = first.called ++ second.called := by
  induction first with
  | sequence left right _ ih => rw [join, called, ih, called, List.append_assoc]
  | _ => rfl

theorem called_inRow (node : Node) : node.inRow.called = node.called := by
  induction node with
  | sequence first second ihFirst ihSecond =>
      rw [inRow, called_join, ihFirst, ihSecond, called]
  | choice first second ihFirst ihSecond => rw [inRow, called, ihFirst, ihSecond, called]
  | group index body ih => exact ih
  | atomic body ih => exact ih
  | «scoped» body ih => exact ih
  | look direction negated body ih => exact ih
  | repeated least most preference body ih => exact ih
  | conditional condition yes no ihCondition ihYes ihNo =>
      rw [inRow, called, ihCondition, ihYes, ihNo, called]
  | empty | oneOf | backreference | caught | assertion | keep | call => rfl

theorem inRow_keepsCalls : KeepsCalls inRow where
  empty := rfl
  oneOf _ := rfl
  call _ := rfl
  group _ _ := rfl
  «scoped» _ := rfl
  groupBody? := groupBody?_inRow
  called := called_inRow
  lengths := lengths_inRow
  mapCalls := mapCalls_inRow

theorem consumes_sequence (consuming : List Nat) (first second : Node) :
    (Node.sequence first second).consumes consuming =
      (first.consumes consuming || second.consumes consuming) := by
  simp only [consumes, mapCalls, lengths]
  rw [Bool.eq_iff_iff]
  simp
  omega

theorem leadsBack_join (consuming : List Nat) (calls : Bool → Nat → Return) (fresh : Bool)
    (first second : Node) : (first.join second).leadsBack consuming calls fresh =
      (Node.sequence first second).leadsBack consuming calls fresh := by
  induction first generalizing fresh with
  | sequence left right _ ih =>
      simp only [join, leadsBack, ih, consumes_sequence, Bool.or_assoc, Bool.not_or, Bool.and_assoc]
  | _ => rfl

theorem isEndless_inRow (root : Node) (count target : Nat) :
    root.inRow.isEndless count target = root.isEndless count target := by
  refine inRow_keepsCalls.isEndless (fun consuming calls fresh node => ?_) root count target
  induction node generalizing fresh with
  | sequence first second ihFirst ihSecond =>
      rw [inRow, leadsBack_join]
      simp only [leadsBack, ihFirst, ihSecond, inRow_keepsCalls.consumes]
  | choice first second ihFirst ihSecond => simp only [inRow, leadsBack, ihFirst, ihSecond]
  | group index body ih => exact ih fresh
  | atomic body ih => exact ih fresh
  | «scoped» body ih => exact ih fresh
  | look direction negated body ih => exact ih fresh
  | repeated least most preference body ih => simp only [inRow, leadsBack, ih]
  | conditional condition yes no ihCondition ihYes ihNo =>
      simp only [inRow, leadsBack, ihCondition, ihYes, ihNo, inRow_keepsCalls.consumes]
  | empty | oneOf | backreference | caught | assertion | keep | call => rfl

end Node

/-! ## Items -/

namespace Item

def inRow : Item → Item
  | .node read => .node read.inRow
  | .caseless c => .caseless c

theorem toNode_inRow {item other : Item} (h : item.inRow = other.inRow) :
    item.toNode.inRow = other.toNode.inRow := by
  cases item with
  | node read =>
      cases other with
      | node => exact Item.node.inj h
      | caseless => contradiction
  | caseless c =>
      cases other with
      | node => contradiction
      | caseless => rw [Item.caseless.inj h]

theorem repeated_inRow {item other : Item} (h : item.inRow = other.inRow)
    (repetition : Repetition) :
    (item.repeated repetition).inRow = (other.repeated repetition).inRow := by
  have hnode := toNode_inRow h
  simp only [repeated, inRow]
  split
  · rw [Node.inRow, Node.inRow, Node.inRow_repeatNode, Node.inRow_repeatNode, hnode]
  · rw [Node.inRow_repeatNode, Node.inRow_repeatNode, hnode]

end Item

def rowOf (items : List Item) (run : List Char) : List Node :=
  (joinItems items run).flatMap fun node => node.inRow.parts

theorem rowOf_node (read : Node) (items : List Item) (run : List Char) :
    rowOf (.node read :: items) run = rowOf [] run ++ (read.inRow.parts ++ rowOf items []) := by
  cases run <;> simp [rowOf, joinItems]

theorem rowOf_characters {text : List Char} (h : text ≠ []) (items : List Item)
    (run : List Char) :
    rowOf (text.map (Item.node ∘ Node.character) ++ items) run =
      rowOf [] run ++ (text.map Node.character ++ rowOf items []) := by
  induction text generalizing run with
  | nil => contradiction
  | cons c text ih =>
      cases text with
      | nil => exact rowOf_node (Node.character c) items run
      | cons d text =>
          have hrest := ih (List.cons_ne_nil d text) []
          exact (rowOf_node (Node.character c) _ run).trans (congrArg _ (congrArg _ hrest))

end ScopeLexer.Regex
