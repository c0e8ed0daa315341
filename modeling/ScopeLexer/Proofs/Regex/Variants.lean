import ScopeLexer.Proofs.Regex.Pieces
import ScopeLexer.Proofs.Regex.References
import ScopeLexer.Regex.Expression

/-!
# Variants of an expression

The variants of an expression are read from text in which anchors are switched off.  Where every
escape of an anchor is an assertion of the expression, and none stands in a look-behind, such a
variant is the expression with that assertion holding nowhere.
-/

namespace ScopeLexer.Regex

open Outcome

variable {anchor : Char} {off : Assertion} {fuel other : Nat} {inGroup : Bool} {options : Options}
  {branches : List Node} {items : List Item} {cursor next : Cursor} {piece : Piece}

/-! ## Alternatives -/

def complete (branches : List Node) (items : List Item) : Node :=
  Node.inChoice (branchNode items :: branches).reverse

abbrev ReadOn :=
  Bool → Options → List Node → List Item → Cursor → Except Fault (Node × Cursor)

def afterPiece (again : ReadOn) (piece : Piece) (inGroup : Bool) (options : Options)
    (branches : List Node) (items : List Item) (cursor : Cursor) : Except Fault (Node × Cursor) :=
  match piece with
  | .finish => if inGroup then .error .unclosedGroup else .ok (complete branches items, cursor)
  | .close => if inGroup then .ok (complete branches items, cursor) else .error .unopenedGroup
  | .bar => again inGroup options (branchNode items :: branches) [] cursor
  | .repetition repetition =>
      match items with
      | [] => .error .repeatOfNothing
      | item :: items =>
          if item.toNode.refusesRepeat then .error .repeatOfAssertion
          else again inGroup options branches (item.repeated repetition :: items) cursor
  | .node read => again inGroup options branches (.node read :: items) cursor
  | .caseless c => again inGroup options branches (.caseless c :: items) cursor
  | .opening kind inner =>
      again true inner [] kind.start cursor >>= fun (body, cursor) =>
        again inGroup options branches (.node (kind.wrap body) :: items) cursor
  | .condition inner =>
      again true inner [] [] cursor >>= fun (condition, cursor) =>
        cursor.behindCondition >>= fun cursor =>
          again true inner [] [.node .branchStart] cursor >>= fun (body, cursor) =>
            again inGroup options branches (.node (body.branchOn condition) :: items) cursor
  | .options inner =>
      again inGroup inner [] [] cursor >>= fun (body, cursor) =>
        .ok (complete branches (.node (.scoped body) :: items), cursor)

theorem readAlternatives_succ :
    readAlternatives (fuel + 1) inGroup options branches items cursor =
      readPiece options cursor >>= fun (piece, cursor) =>
        afterPiece (readAlternatives fuel) piece inGroup options branches items cursor := by
  rw [readAlternatives]
  cases readPiece options cursor with
  | error fault => rfl
  | ok read =>
      obtain ⟨piece, next⟩ := read
      cases piece with
      | finish => cases inGroup <;> rfl
      | close => cases inGroup <;> rfl
      | repetition repetition =>
          cases items with
          | nil => rfl
          | cons item items =>
              simp only [bind, Except.bind, afterPiece]
              split <;> rfl
      | _ => rfl

theorem complete_without (branches : List Node) (items : List Item) :
    (complete branches items).without off =
      complete (branches.map (Node.without off)) (items.map (Item.without off)) := by
  rw [complete, Node.without_inChoice, List.map_reverse, List.map_cons, branchNode_without, complete]

def held (off : Assertion) (branches : List Node) (items : List Item) : Nat :=
  (branches.map (Node.occurrences off)).sum + (items.map (Item.occurrences off)).sum

theorem occurrences_complete (branches : List Node) (items : List Item) :
    (complete branches items).occurrences off = held off branches items := by
  rw [complete, Node.occurrences_inChoice, List.map_reverse, List.sum_reverse, List.map_cons,
    List.sum_cons, occurrences_branchNode, held, Nat.add_comm]

theorem held_node (read : Node) :
    held off branches (.node read :: items) = held off branches items + read.occurrences off := by
  have hitem : (Item.node read).occurrences off = read.occurrences off := rfl
  rw [held, List.map_cons, List.sum_cons, hitem, held]
  omega

theorem held_caseless (c : Char) :
    held off branches (.caseless c :: items) = held off branches items := by
  have hitem : (Item.caseless c).occurrences off = 0 := occurrences_caselessCharacter c
  rw [held, List.map_cons, List.sum_cons, hitem, Nat.zero_add, held]

theorem held_bar : held off (branchNode items :: branches) [] = held off branches items := by
  rw [held, List.map_cons, List.sum_cons, occurrences_branchNode, held]
  simp only [List.map_nil, List.sum_nil]
  omega

theorem held_repeated (item : Item) (repetition : Repetition) :
    held off branches (item.repeated repetition :: items) = held off branches (item :: items) := by
  rw [held, List.map_cons, List.sum_cons, Item.occurrences_repeated, held, List.map_cons,
    List.sum_cons]

theorem held_start (kind : GroupKind) : held off [] kind.start = 0 := by
  cases kind <;> rfl

theorem start_without (kind : GroupKind) : kind.start.map (Item.without off) = kind.start := by
  cases kind <;> rfl

theorem behindCondition_eq_ok : cursor.behindCondition = .ok next ↔
    cursor.rest ≠ [] ∧ cursor.rest.head? ≠ some ')' ∧ next = cursor := by
  unfold Cursor.behindCondition
  split
  · simp_all
  · simp_all
  · next hnil hclose =>
    rw [Except.ok.injEq]
    constructor
    · rintro rfl
      exact ⟨hnil, fun h => (List.head?_eq_some_iff.mp h).elim hclose, rfl⟩
    · rintro ⟨-, -, rfl⟩
      rfl

theorem behindCondition_disable (h : cursor.behindCondition = .ok next) :
    (cursor.disable anchor).behindCondition = .ok (cursor.disable anchor) := by
  obtain ⟨hne, hclose, -⟩ := behindCondition_eq_ok.mp h
  exact behindCondition_eq_ok.mpr ⟨by rwa [Ne, Cursor.disable, Cursor.moveTo, disableAnchor_eq_nil],
    head?_disableAnchor_ne hclose (by decide) (by decide), rfl⟩

/-- A reader of trees that finds no more anchors than the text has escapes of it.  When it finds
them all, it reads the tree without the anchor from the text where that is switched off. -/
def Switches (anchor : Char) (off : Assertion) (holds : Nat) (cursor : Cursor)
    (read readOff : Except Fault (Node × Cursor)) : Prop :=
  ∀ node next, read = .ok (node, next) →
    node.occurrences off + escapes anchor next.rest ≤ holds + escapes anchor cursor.rest ∧
      (node.occurrences off + escapes anchor next.rest = holds + escapes anchor cursor.rest →
        readOff = .ok (node.without off, next.disable anchor))

namespace Switches

variable {holds : Nat} {read readOff : Except Fault (Node × Cursor)} {fault : Fault}
  {node : Node}

theorem error : Switches anchor off holds cursor (.error fault) readOff :=
  fun _ _ h => nomatch h

theorem ok (hnode : node.occurrences off = holds) :
    Switches anchor off holds cursor (.ok (node, cursor))
      (.ok (node.without off, cursor.disable anchor)) := by
  intro _ _ h
  cases h
  exact ⟨Nat.le_of_eq (congrArg (· + _) hnode), fun _ => rfl⟩

theorem bind {after afterOff : Node × Cursor → Except Fault (Node × Cursor)}
    (h : Switches anchor off 0 cursor read readOff)
    (hafter : ∀ body next, Switches anchor off (holds + body.occurrences off) next
      (after (body, next)) (afterOff (body.without off, next.disable anchor))) :
    Switches anchor off holds cursor (read >>= after) (readOff >>= afterOff) := by
  intro node next hread
  obtain ⟨⟨body, middle⟩, hfirst, hread⟩ := bind_eq_ok.mp hread
  obtain ⟨hle, hoff⟩ := h body middle hfirst
  obtain ⟨hle', hoffAfter⟩ := hafter body middle node next hread
  refine ⟨by omega, fun heq => ?_⟩
  rw [hoff (by omega)]
  exact hoffAfter (by omega)

end Switches

/-- Two readers of trees, the second of which reads on where the anchor is switched off. -/
def Switching (anchor : Char) (off : Assertion) (again againOff : ReadOn) : Prop :=
  ∀ inGroup options branches items cursor,
    Switches anchor off (held off branches items) cursor
      (again inGroup options branches items cursor)
      (againOff inGroup options (branches.map (Node.without off)) (items.map (Item.without off))
        (cursor.disable anchor))

section

variable {again againOff : ReadOn} (h : Switching anchor off again againOff)

include h

theorem repetition_switches (repetition : Repetition) :
    Switching anchor off (afterPiece again (.repetition repetition))
      (afterPiece againOff (.repetition repetition)) := by
  intro inGroup options branches items cursor
  cases items with
  | nil => exact .error
  | cons item items =>
      have hrefuses : (item.without off).toNode.refusesRepeat = item.toNode.refusesRepeat := by
        rw [Item.toNode_without, Node.refusesRepeat_without]
      simp only [afterPiece, List.map_cons, hrefuses]
      split
      · exact .error
      · rw [← held_repeated item repetition, ← Item.repeated_without]
        exact h inGroup options branches (item.repeated repetition :: items) cursor

theorem opening_switches (kind : GroupKind) (inner : Options) :
    Switching anchor off (afterPiece again (.opening kind inner))
      (afterPiece againOff (.opening kind inner)) := by
  intro inGroup options branches items cursor
  have hstart := h true inner [] kind.start cursor
  rw [held_start, start_without] at hstart
  refine Switches.bind hstart fun body next => ?_
  have hbody := h inGroup options branches (.node (kind.wrap body) :: items) next
  rw [held_node, occurrences_wrap, List.map_cons, Item.without, wrap_without] at hbody
  exact hbody

theorem condition_switches (inner : Options) :
    Switching anchor off (afterPiece again (.condition inner))
      (afterPiece againOff (.condition inner)) := by
  intro inGroup options branches items cursor
  refine Switches.bind (h true inner [] [] cursor) fun condition next => ?_
  dsimp only
  cases hbehind : next.behindCondition with
  | error fault => exact .error
  | ok behind =>
      obtain ⟨-, -, rfl⟩ := behindCondition_eq_ok.mp hbehind
      rw [behindCondition_disable hbehind]
      refine Switches.bind (h true inner [] [.node .branchStart] _) fun body next => ?_
      have hbody := h inGroup options branches (.node (body.branchOn condition) :: items) next
      rw [held_node, Node.occurrences_branchOn, ← Nat.add_assoc, List.map_cons, Item.without,
        Node.without_branchOn] at hbody
      exact hbody

theorem afterPiece_switches (hpiece : piece.occurrences off = 0) :
    Switching anchor off (afterPiece again piece) (afterPiece againOff piece) := by
  intro inGroup options branches items cursor
  have hcomplete : ∀ items cursor, Switches anchor off (held off branches items) cursor
      (.ok (complete branches items, cursor))
      (.ok (complete (branches.map (Node.without off)) (items.map (Item.without off)),
        cursor.disable anchor)) := by
    intro items cursor
    rw [← complete_without]
    exact .ok (occurrences_complete branches items)
  cases piece with
  | finish =>
      cases inGroup with
      | true => exact .error
      | false => exact hcomplete items cursor
  | close =>
      cases inGroup with
      | true => exact hcomplete items cursor
      | false => exact .error
  | bar =>
      rw [← held_bar]
      have hbar := h inGroup options (branchNode items :: branches) [] cursor
      rwa [List.map_cons, branchNode_without] at hbar
  | repetition repetition => exact repetition_switches h repetition _ _ _ _ _
  | node read =>
      have hzero : read.occurrences off = 0 := hpiece
      have hread : (Item.node read).without off = .node read :=
        congrArg Item.node (Node.without_eq_self hzero)
      have hnode := h inGroup options branches (.node read :: items) cursor
      rwa [List.map_cons, hread, held_node, hzero] at hnode
  | caseless c =>
      rw [← held_caseless c]
      exact h inGroup options branches (.caseless c :: items) cursor
  | opening kind inner => exact opening_switches h kind inner _ _ _ _ _
  | condition inner => exact condition_switches h inner _ _ _ _ _
  | options inner =>
      refine Switches.bind (h inGroup inner [] [] cursor) fun body next => ?_
      have hbody := hcomplete (.node (.scoped body) :: items) next
      rw [held_node] at hbody
      exact hbody

end

theorem readAlternatives_close (fuel : Nat) (options : Options) (cursor : Cursor)
    (rest : List Char) :
    readAlternatives (fuel + 1) true options [] [] (cursor.moveTo (')' :: rest)) =
      .ok (.empty, cursor.moveTo rest) := by
  have hskip : skipIgnored options (rest.length + 2) (')' :: rest) = .ok (')' :: rest) := by
    rw [skipIgnored_plain (by decide) fun h => absurd h (by decide), if_neg]
    simp [isBlank]
  have hpiece : readPiece options (cursor.moveTo (')' :: rest)) =
      .ok (.close, cursor.moveTo rest) := by
    rw [readPiece_eq]
    exact congrArg (· >>= _) hskip
  rw [readAlternatives_succ, hpiece]
  rfl

theorem readAlternatives_switches (hletter : off.letter? = some anchor) (hfuel : fuel ≤ other) :
    Switching anchor off (readAlternatives fuel) (readAlternatives other) := by
  -- The text grows where the anchor is switched off, so more fuel is allowed there.
  induction fuel generalizing other with
  | zero => exact fun _ _ _ _ _ => .error
  | succ fuel ih =>
      intro inGroup options branches items cursor
      obtain ⟨other, rfl⟩ := Nat.exists_eq_add_one_of_ne_zero (Nat.ne_zero_of_lt hfuel)
      have hless := Nat.le_of_succ_le_succ hfuel
      intro node next hread
      rw [readAlternatives_succ] at hread
      obtain ⟨⟨piece, middle⟩, hpiece, hread⟩ := bind_eq_ok.mp hread
      rw [readAlternatives_succ]
      rcases readPiece_cases hletter hpiece with ⟨rfl, hle, hoff⟩ | ⟨hoccurs, hle, hoff⟩
      · -- A group opens in place of the anchor, and is closed at once.
        obtain ⟨hle', hoffRead⟩ := ih hless inGroup options branches
          (.node (.assertion off) :: items) middle node next hread
        have hassertion : (Node.assertion off).occurrences off = 1 := if_pos rfl
        rw [held_node, hassertion] at hle' hoffRead
        refine ⟨by omega, fun heq => ?_⟩
        rw [hoff (by omega)]
        cases fuel with
        | zero => contradiction
        | succ fuel =>
            obtain ⟨other, rfl⟩ := Nat.exists_eq_add_one_of_ne_zero (Nat.ne_zero_of_lt hless)
            refine bind_eq_ok.mpr ⟨_, rfl, bind_eq_ok.mpr ⟨_, readAlternatives_close .., ?_⟩⟩
            rw [← hoffRead (by omega), List.map_cons, Item.without, Node.without, if_pos rfl]
            rfl
      · obtain ⟨hle', hoffAfter⟩ :=
          afterPiece_switches (ih hless) hoccurs inGroup options branches items middle node next
            hread
        refine ⟨by omega, fun heq => ?_⟩
        rw [hoff (by omega)]
        exact hoffAfter (by omega)

/-! ## Programs -/

def Program.without (off : Assertion) (program : Program) : Program :=
  { program with root := program.root.without off }

/-- Whether every escape of an anchor is an assertion of the expression, and none stands in a
look-behind. -/
def standsFree (anchor : Char) (off : Assertion) (text : List Char) : Bool :=
  match readTree text, Program.ofText text with
  | .ok (tree, _), .ok program =>
      tree.occurrences off == escapes anchor text && program.root.keepsFromBehind off
  | _, _ => false

variable {text : List Char} {program : Program}

theorem ofText_eq_ok :
    Program.ofText text = .ok program ↔ ∃ tree cursor, readTree text = .ok (tree, cursor) ∧
      Program.ofTree tree cursor = .ok program := by
  constructor
  · intro h
    obtain ⟨⟨tree, cursor⟩, htree, h⟩ := bind_eq_ok.mp h
    exact ⟨tree, cursor, htree, h⟩
  · rintro ⟨tree, cursor, htree, h⟩
    exact bind_eq_ok.mpr ⟨(tree, cursor), htree, h⟩

theorem ofNamed_eq_ok {root : Node} {groups : Nat} :
    Program.ofNamed root groups = .ok program ↔
      (root.recursiveGroups groups).any (root.isEndless groups) = false ∧
      program = ⟨root.expandCalls (root.recursiveGroups groups) (groups + 1) root, groups⟩ ∧
      program.root.looksBehindSoundly = true := by
  unfold Program.ofNamed
  constructor
  · intro h
    dsimp only at h
    split at h
    · contradiction
    · next hends =>
      split at h
      · next hbehind =>
        cases h
        exact ⟨Bool.eq_false_iff.mpr hends, rfl, hbehind⟩
      · contradiction
  · rintro ⟨hends, rfl, hbehind⟩
    simp only [hends, hbehind, if_true, Bool.false_eq_true, if_false]

theorem ofTree_eq_ok {tree : Node} :
    Program.ofTree tree cursor = .ok program ↔ tree.refersWithin cursor.groups = true ∧
      ∃ root, tree.nameCalls (tree.calledGroup cursor) = .ok root ∧
        Program.ofNamed root cursor.groups = .ok program := by
  unfold Program.ofTree
  constructor
  · intro h
    split at h
    · next hrefers =>
      obtain ⟨root, hroot, h⟩ := bind_eq_ok.mp h
      exact ⟨hrefers, root, hroot, h⟩
    · contradiction
  · rintro ⟨hrefers, root, hroot, h⟩
    rw [if_pos hrefers]
    exact bind_eq_ok.mpr ⟨root, hroot, h⟩

theorem standsFree_eq_true (h : standsFree anchor off text = true) {tree : Node} {cursor : Cursor}
    (htree : readTree text = .ok (tree, cursor)) (hprogram : Program.ofText text = .ok program) :
    tree.occurrences off = escapes anchor text ∧ program.root.keepsFromBehind off = true := by
  rw [standsFree, htree, hprogram] at h
  simpa using h

theorem readTree_disableAnchor (hletter : off.letter? = some anchor) {tree : Node} {cursor : Cursor}
    (htree : readTree text = .ok (tree, cursor))
    (hall : tree.occurrences off = escapes anchor text) :
    readTree (disableAnchor anchor text) = .ok (tree.without off, cursor.disable anchor) := by
  have hlonger := Nat.add_le_add_right (length_le_disableAnchor anchor text) 2
  obtain ⟨hle, hoff⟩ := readAlternatives_switches hletter hlonger false {} [] [] { rest := text }
    tree cursor htree
  have hnone : held off [] [] = 0 := rfl
  have hrest : escapes anchor ({ rest := text } : Cursor).rest = escapes anchor text := rfl
  rw [hnone, hrest] at hle hoff
  exact hoff (by omega)

theorem ofText_disableAnchor (hletter : off.letter? = some anchor)
    (hfree : standsFree anchor off text = true) (h : Program.ofText text = .ok program) :
    Program.ofText (disableAnchor anchor text) = .ok (program.without off) := by
  obtain ⟨tree, cursor, htree, hprogram⟩ := ofText_eq_ok.mp h
  obtain ⟨hall, hkeeps⟩ := standsFree_eq_true hfree htree h
  obtain ⟨hrefers, root, hroot, hprogram⟩ := ofTree_eq_ok.mp hprogram
  obtain ⟨hends, rfl, hbehind⟩ := ofNamed_eq_ok.mp hprogram
  have hcalls := Node.without_keepsCalls off
  have hnamed : (tree.without off).nameCalls
      ((tree.without off).calledGroup (cursor.disable anchor)) = .ok (root.without off) := by
    rw [funext (hcalls.calledGroup tree (cursor.disable anchor)), Node.nameCalls_without]
    exact congrArg (Except.map _) hroot
  refine ofText_eq_ok.mpr ⟨_, _, readTree_disableAnchor hletter htree hall,
    ofTree_eq_ok.mpr ⟨?_, _, hnamed, ofNamed_eq_ok.mpr ⟨?_, ?_, ?_⟩⟩⟩
  · rw [Node.refersWithin_without]
    exact hrefers
  · rw [hcalls.recursiveGroups, funext (Node.isEndless_without root _)]
    exact hends
  · rw [hcalls.recursiveGroups, ← hcalls.expandCalls]
    rfl
  · exact Node.looksBehindSoundly_without hkeeps hbehind

theorem without_eq_self (hletter : off.letter? = some anchor)
    (hfree : standsFree anchor off text = true) (h : Program.ofText text = .ok program)
    (hnone : escapes anchor text = 0) : program.without off = program := by
  have hoff := ofText_disableAnchor hletter hfree h
  rw [disableAnchor_eq_self hnone, h] at hoff
  exact (Except.ok.inj hoff).symm

theorem standsFree_disableAnchor {second : Char} {secondOff : Assertion}
    (hletter : off.letter? = some anchor) (hne : second ≠ anchor) (hneOff : secondOff ≠ off)
    (hfree : standsFree anchor off text = true) (hsecond : standsFree second secondOff text = true)
    (h : Program.ofText text = .ok program) :
    standsFree second secondOff (disableAnchor anchor text) = true := by
  obtain ⟨tree, cursor, htree, _⟩ := ofText_eq_ok.mp h
  obtain ⟨hall, _⟩ := standsFree_eq_true hfree htree h
  obtain ⟨hallSecond, hkeepsSecond⟩ := standsFree_eq_true hsecond htree h
  rw [standsFree, readTree_disableAnchor hletter htree hall, ofText_disableAnchor hletter hfree h]
  simp only [Program.without, Node.occurrences_without hneOff, Node.keepsFromBehind_without hneOff,
    escapes_disableAnchor hne, hallSecond, hkeepsSecond, BEq.rfl, Bool.and_true]

/-! ## Expressions -/

theorem features_searchAnchor (text : List Char) :
    (Features.ofSource text).searchAnchor = (escapes 'G' text != 0) := by
  induction text using walk with
  | nil => rfl
  | lone => rfl
  | escape c rest ih =>
      rw [Features.ofSource, Features.join, ih, escapes_escape]
      by_cases hc : c = 'G' <;> simp [Features.ofEscape, hc]
  | plain c rest hc ih => rw [Features.ofSource_cons hc, ih, escapes_cons hc]

theorem features_textAnchor (text : List Char) :
    (Features.ofSource text).textAnchor = (escapes 'A' text != 0) := by
  induction text using walk with
  | nil => rfl
  | lone => rfl
  | escape c rest ih =>
      rw [Features.ofSource, Features.join, ih, escapes_escape]
      by_cases hc : c = 'A' <;> simp [Features.ofEscape, hc]
  | plain c rest hc ih => rw [Features.ofSource_cons hc, ih, escapes_cons hc]

theorem escapes_searchAnchor (h : (Features.ofSource text).searchAnchor = false) :
    escapes 'G' text = 0 := by
  rw [features_searchAnchor] at h
  simpa using h

theorem escapes_textAnchor (h : (Features.ofSource text).textAnchor = false) :
    escapes 'A' text = 0 := by
  rw [features_textAnchor] at h
  simpa using h

/-- The program when only some of its anchors may match. -/
def Program.under (anchors : Anchors) (program : Program) : Program :=
  let program := if anchors.firstLine then program else program.without .textStart
  if anchors.atAnchor then program else program.without .searchStart

def Program.findAt? (program : Program) (text : Text) (start : Nat) : Option Match :=
  (text.index? start).bind fun index =>
    (program.search text.chars index).map fun (first, found) => Expression.report text first found

theorem compileIf_eq_ok (needed : Bool) (h : Program.ofText text = .ok program) :
    compileIf needed text = .ok (if needed then some program else none) := by
  cases needed with
  | true => simp [compileIf, compile, h, Except.map]
  | false => rfl

section

variable {source : String}

def compiledExpression (source : String) (program : Program) : Expression :=
  let features := Features.ofSource source.toList
  { source, features
    plain := program
    withoutSearchAnchor :=
      if features.searchAnchor then some (program.without .searchStart) else none
    withoutTextAnchor := if features.textAnchor then some (program.without .textStart) else none
    withoutAnchors :=
      if features.searchAnchor && features.textAnchor then
        some ((program.without .textStart).without .searchStart)
      else none }

variable (hprogram : Program.ofText source.toList = .ok program)
  (hsearch : standsFree 'G' .searchStart source.toList = true)
  (htext : standsFree 'A' .textStart source.toList = true)

include hprogram hsearch htext

theorem standsFree_behind_textStart :
    standsFree 'G' .searchStart (disableAnchor 'A' source.toList) = true :=
  standsFree_disableAnchor rfl (by decide) (by decide) htext hsearch hprogram

theorem ofSource_of_standsFree :
    Expression.ofSource source = .ok (compiledExpression source program) := by
  have hoffSearch := ofText_disableAnchor rfl hsearch hprogram
  have hoffText := ofText_disableAnchor rfl htext hprogram
  have hoffBoth := ofText_disableAnchor rfl
    (standsFree_behind_textStart hprogram hsearch htext) hoffText
  have hplain : compile source.toList = .ok program := by rw [compile, hprogram]
  rw [Expression.ofSource, Expression.build, hplain, compileIf_eq_ok _ hoffSearch,
    compileIf_eq_ok _ hoffText, compileIf_eq_ok _ hoffBoth]
  rfl

theorem variant_compiledExpression (anchors : Anchors) :
    (compiledExpression source program).variant anchors = program.under anchors := by
  have hnoSearch : (Features.ofSource source.toList).searchAnchor = false →
      program.without .searchStart = program :=
    fun h => without_eq_self rfl hsearch hprogram (escapes_searchAnchor h)
  have hnoText : (Features.ofSource source.toList).textAnchor = false →
      program.without .textStart = program :=
    fun h => without_eq_self rfl htext hprogram (escapes_textAnchor h)
  have hnoBoth : (Features.ofSource source.toList).searchAnchor = false →
      (program.without .textStart).without .searchStart = program.without .textStart := by
    intro h
    refine without_eq_self rfl (standsFree_behind_textStart hprogram hsearch htext)
      (ofText_disableAnchor rfl htext hprogram) ?_
    rw [escapes_disableAnchor (by decide), escapes_searchAnchor h]
  obtain ⟨firstLine, atAnchor⟩ := anchors
  rw [Expression.variant, compiledExpression, Program.under]
  cases hs : (Features.ofSource source.toList).searchAnchor with
  | true =>
      cases ht : (Features.ofSource source.toList).textAnchor with
      | true => cases firstLine <;> cases atAnchor <;> rfl
      | false => cases firstLine <;> cases atAnchor <;> simp [hnoText ht]
  | false =>
      cases ht : (Features.ofSource source.toList).textAnchor with
      | true => cases firstLine <;> cases atAnchor <;> simp [hnoSearch hs, hnoBoth hs]
      | false => cases firstLine <;> cases atAnchor <;> simp [hnoSearch hs, hnoText ht]

/-- An expression whose anchors stand free is compiled, and searched as the expression is in which
the anchors that may not match hold nowhere. -/
theorem findAt?_of_standsFree :
    ∃ expression, Expression.ofSource source = .ok expression ∧
      ∀ text start anchors, expression.findAt? text start anchors =
        (program.under anchors).findAt? text start := by
  refine ⟨_, ofSource_of_standsFree hprogram hsearch htext, fun text start anchors => ?_⟩
  rw [Expression.findAt?, variant_compiledExpression hprogram hsearch htext, Program.findAt?]
  cases text.index? start <;> rfl

end

theorem alternatives_switched_off :
    Program.ofText "\\Ga|\\Ab".toList = .ok
        ⟨.choice (.sequence (.assertion .searchStart) (.character 'a'))
          (.sequence (.assertion .textStart) (.character 'b')), 0⟩ ∧
      standsFree 'G' .searchStart "\\Ga|\\Ab".toList = true ∧
      standsFree 'A' .textStart "\\Ga|\\Ab".toList = true ∧
      ∃ expression, Expression.ofSource "\\Ga|\\Ab" = .ok expression ∧
        ∀ text start anchors, expression.findAt? text start anchors =
          (Program.under anchors ⟨.choice (.sequence (.assertion .searchStart) (.character 'a'))
            (.sequence (.assertion .textStart) (.character 'b')), 0⟩).findAt? text start :=
  ⟨rfl, by decide +kernel, by decide +kernel,
    findAt?_of_standsFree rfl (by decide +kernel) (by decide +kernel)⟩

/-- In brackets the letter of an anchor is switched off with the anchor. -/
theorem bracketed_letter_switched_off :
    ∃ program expression, Program.ofText "[\\G]".toList = .ok program ∧
      Expression.ofSource "[\\G]" = .ok expression ∧
        expression.findAt? (.ofString "G") 0 {} = none ∧
          ((program.under {}).findAt? (.ofString "G") 0).isSome = true := by
  refine ⟨⟨.oneOf (.union .nothing (.range 71 71)), 0⟩, _, rfl, rfl, ?_, ?_⟩
  · decide +kernel
  · decide +kernel

end ScopeLexer.Regex
