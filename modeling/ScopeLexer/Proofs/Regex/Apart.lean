import ScopeLexer.Proofs.Regex.Atoms

/-!
# References that stand apart

A resolved expression is read from the text of the expression and the escaped text of groups.  Where
its pieces are read as before, it is the expression in which each reference is an atom, and both
find the same matches.
-/

namespace ScopeLexer.Regex

open Outcome

/-! ## Items -/

/-- The items of an expression with atoms and those read once the references are resolved, last
first: an atom of several characters is spelled out there. -/
inductive Spelled : List Item → List Item → Prop where
  | nil : Spelled [] []
  | same {item other : Item} {atoms items : List Item} (hitem : item.inRow = other.inRow)
      (h : Spelled atoms items) : Spelled (item :: atoms) (other :: items)
  | atom {text : List Char} {atoms items : List Item} (htext : text ≠ [])
      (h : Spelled atoms items) :
      Spelled (.node (Node.inSequence (text.map .character)) :: atoms)
        (text.reverse.map (Item.node ∘ Node.character) ++ items)

theorem Spelled.rowOf_reverse {atoms items : List Item} (h : Spelled atoms items)
    {behind rest : List Item} (hrest : ∀ run, rowOf behind run = rowOf rest run)
    (run : List Char) : rowOf (atoms.reverse ++ behind) run = rowOf (items.reverse ++ rest) run := by
  induction h generalizing behind rest with
  | nil => exact hrest run
  | @same item other atoms items hitem _ ih =>
      rw [List.reverse_cons, List.append_assoc, List.reverse_cons, List.append_assoc]
      refine ih fun run => ?_
      cases item with
      | node read =>
          cases other with
          | node =>
              rw [List.singleton_append, rowOf_node, List.singleton_append, rowOf_node, hrest,
                Item.node.inj hitem]
          | caseless => contradiction
      | caseless c =>
          cases other with
          | node => contradiction
          | caseless => exact Item.caseless.inj hitem ▸ hrest (c :: run)
  | @atom text atoms items htext _ ih =>
      rw [List.reverse_cons, List.append_assoc, List.reverse_append, List.append_assoc]
      refine ih fun run => ?_
      rw [List.singleton_append, rowOf_node, Node.parts_characters htext, ← List.map_reverse,
        List.reverse_reverse, rowOf_characters htext, hrest]

theorem Spelled.branchNode {atoms items : List Item} (h : Spelled atoms items) :
    (branchNode atoms).inRow = (branchNode items).inRow := by
  have hrow := h.rowOf_reverse (fun run => @rfl _ (rowOf [] run)) []
  rw [List.append_nil, List.append_nil] at hrow
  rw [Regex.branchNode, Node.inRow_inSequence, Regex.branchNode, Node.inRow_inSequence]
  exact congrArg Node.inSequence hrow

theorem Spelled.refl (items : List Item) : Spelled items items := by
  induction items with
  | nil => exact .nil
  | cons item items ih => exact .same rfl ih

/-- Items behind which a repetition repeats the same in both readings. -/
inductive Repeatable : List Item → List Item → Prop where
  | nil : Repeatable [] []
  | same {item other : Item} {atoms items : List Item} (hitem : item.inRow = other.inRow)
      (h : Spelled atoms items) : Repeatable (item :: atoms) (other :: items)

theorem Repeatable.refl (items : List Item) : Repeatable items items := by
  cases items with
  | nil => exact .nil
  | cons item items => exact .same rfl (.refl items)

/-! ## Alternatives -/

variable {line : Text} {groups : Groups} {fuel other : Nat} {inGroup : Bool} {options : Options}
  {branches resolved : List Node} {atoms items : List Item} {cursor next : Cursor} {piece : Piece}

theorem complete_inRow (branches : List Node) (items : List Item) :
    (complete branches items).inRow =
      Node.inChoice ((branchNode items).inRow :: branches.map Node.inRow).reverse := by
  rw [complete, Node.inRow_inChoice, List.map_reverse, List.map_cons]

theorem GroupKind.wrap_inRow (kind : GroupKind) (body : Node) :
    (kind.wrap body).inRow = kind.wrap body.inRow := by
  cases kind with
  | look direction negated => exact Node.inRow_lookFor direction negated body
  | decided groups => exact Node.inRow_branchOn body (.caught groups)
  | _ => rfl

def Agree (line : Text) (groups : Groups) (read other : Node × Cursor) : Prop :=
  read.1.inRow = other.1.inRow ∧ other.2 = read.2.resolve line groups

def ReadsAlike (line : Text) (groups : Groups) (again : ReadOn) : Prop :=
  ∀ ⦃inGroup options branches resolved atoms items cursor read other result⦄,
    branches.map Node.inRow = resolved.map Node.inRow → Spelled atoms items →
    (repeats options (cursor.resolve line groups) = true → Repeatable atoms items) →
    again inGroup options branches atoms cursor = .ok read →
    readAlternatives other inGroup options resolved items (cursor.resolve line groups) = .ok result →
    Agree line groups read result

theorem readAlternatives_congr {first second : Cursor}
    (h : readPiece options first = readPiece options second) :
    readAlternatives fuel inGroup options branches items first =
      readAlternatives fuel inGroup options branches items second := by
  cases fuel with
  | zero => rfl
  | succ fuel => rw [readAlternatives_succ, readAlternatives_succ, h]

section

variable {again : ReadOn} (halike : ReadsAlike line groups again)
  (hbranches : branches.map Node.inRow = resolved.map Node.inRow) {read result : Node × Cursor}

include halike hbranches

theorem repetition_alike {repetition : Repetition} (hrepeat : Repeatable atoms items)
    (hread : afterPiece again (.repetition repetition) inGroup options branches atoms next =
      .ok read)
    (hresult : afterPiece (readAlternatives other) (.repetition repetition) inGroup options resolved
      items (next.resolve line groups) = .ok result) :
    Agree line groups read result := by
  cases hrepeat with
  | nil => contradiction
  | @same item second atoms items hitem htail =>
      have hrefuses : item.toNode.refusesRepeat = second.toNode.refusesRepeat := by
        rw [← Node.refusesRepeat_inRow, Item.toNode_inRow hitem, Node.refusesRepeat_inRow]
      have hrepeated := Item.repeated_inRow hitem repetition
      simp only [afterPiece, hrefuses] at hread hresult
      split at hread
      · contradiction
      · next hrefuses =>
        rw [if_neg hrefuses] at hresult
        exact halike hbranches (.same hrepeated htail)
          (fun _ => .same hrepeated htail) hread hresult

theorem opening_alike {kind : GroupKind} {inner : Options} (hitems : Spelled atoms items)
    (hread : afterPiece again (.opening kind inner) inGroup options branches atoms next = .ok read)
    (hresult : afterPiece (readAlternatives other) (.opening kind inner) inGroup options resolved
      items (next.resolve line groups) = .ok result) :
    Agree line groups read result := by
  obtain ⟨⟨body, middle⟩, hbody, hread⟩ := bind_eq_ok.mp hread
  obtain ⟨⟨bodyResolved, _⟩, hbodyResolved, hresult⟩ := bind_eq_ok.mp hresult
  obtain ⟨hrow, rfl⟩ := halike rfl (.refl _) (fun _ => .refl _) hbody hbodyResolved
  have hwrap : (Item.node (kind.wrap body)).inRow =
      (Item.node (kind.wrap bodyResolved)).inRow := by
    dsimp only at hrow
    rw [Item.inRow, Item.inRow, GroupKind.wrap_inRow, hrow, ← GroupKind.wrap_inRow]
  exact halike hbranches (.same hwrap hitems)
    (fun _ => .same hwrap hitems) hread hresult

theorem condition_alike {inner : Options} (hitems : Spelled atoms items)
    (hread : afterPiece again (.condition inner) inGroup options branches atoms next = .ok read)
    (hresult : afterPiece (readAlternatives other) (.condition inner) inGroup options resolved
      items (next.resolve line groups) = .ok result) :
    Agree line groups read result := by
  obtain ⟨⟨condition, middle⟩, hcondition, hbehind⟩ := bind_eq_ok.mp hread
  obtain ⟨⟨conditionResolved, _⟩, hconditionResolved, hbehindResolved⟩ := bind_eq_ok.mp hresult
  obtain ⟨hrow, rfl⟩ := halike rfl .nil (fun _ => .nil) hcondition hconditionResolved
  obtain ⟨_, hmiddle, hbody⟩ := bind_eq_ok.mp hbehind
  obtain ⟨_, hmiddleResolved, hbodyResolved⟩ := bind_eq_ok.mp hbehindResolved
  obtain ⟨-, -, rfl⟩ := behindCondition_eq_ok.mp hmiddle
  obtain ⟨-, -, rfl⟩ := behindCondition_eq_ok.mp hmiddleResolved
  obtain ⟨⟨body, last⟩, hbody, hrest⟩ := bind_eq_ok.mp hbody
  obtain ⟨⟨bodyResolved, _⟩, hbodyResolved, hrestResolved⟩ := bind_eq_ok.mp hbodyResolved
  obtain ⟨hrowBody, rfl⟩ := halike rfl (.refl _) (fun _ => .refl _) hbody hbodyResolved
  have hbranch : (Item.node (body.branchOn condition)).inRow =
      (Item.node (bodyResolved.branchOn conditionResolved)).inRow := by
    dsimp only at hrow hrowBody
    rw [Item.inRow, Item.inRow, Node.inRow_branchOn, hrow, hrowBody, ← Node.inRow_branchOn]
  exact halike hbranches (.same hbranch hitems)
    (fun _ => .same hbranch hitems) hrest hrestResolved

end

theorem afterPiece_alike {again : ReadOn} (halike : ReadsAlike line groups again)
    (hbranches : branches.map Node.inRow = resolved.map Node.inRow) (hitems : Spelled atoms items)
    (hrepeat : ∀ repetition, piece = .repetition repetition → Repeatable atoms items)
    {read result : Node × Cursor}
    (hread : afterPiece again piece inGroup options branches atoms next = .ok read)
    (hresult : afterPiece (readAlternatives other) piece inGroup options resolved items
      (next.resolve line groups) = .ok result) : Agree line groups read result := by
  have hcomplete : ∀ {atoms items : List Item}, Spelled atoms items →
      (complete branches atoms).inRow = (complete resolved items).inRow := by
    intro atoms items hitems
    rw [complete_inRow, hitems.branchNode, hbranches, ← complete_inRow]
  cases piece with
  | finish =>
      cases inGroup with
      | true => contradiction
      | false =>
          cases hread
          cases hresult
          exact ⟨hcomplete hitems, rfl⟩
  | close =>
      cases inGroup with
      | true =>
          cases hread
          cases hresult
          exact ⟨hcomplete hitems, rfl⟩
      | false => contradiction
  | bar =>
      refine halike ?_ .nil (fun _ => .nil) hread hresult
      rw [List.map_cons, List.map_cons, hitems.branchNode, hbranches]
  | repetition repetition =>
      exact repetition_alike halike hbranches (hrepeat repetition rfl) hread hresult
  | node read =>
      exact halike hbranches (.same rfl hitems) (fun _ => .same rfl hitems)
        hread hresult
  | caseless c =>
      exact halike hbranches (.same rfl hitems) (fun _ => .same rfl hitems)
        hread hresult
  | opening kind inner => exact opening_alike halike hbranches hitems hread hresult
  | condition inner => exact condition_alike halike hbranches hitems hread hresult
  | options inner =>
      obtain ⟨⟨body, middle⟩, hbody, hread⟩ := bind_eq_ok.mp hread
      obtain ⟨⟨bodyResolved, _⟩, hbodyResolved, hresult⟩ := bind_eq_ok.mp hresult
      obtain ⟨hrow, rfl⟩ := halike rfl .nil (fun _ => .nil) hbody hbodyResolved
      cases hread
      cases hresult
      exact ⟨hcomplete (.same (congrArg (Item.node ∘ Node.scoped) hrow) hitems), rfl⟩

theorem readBy_apartPiece (line : Text) (groups : Groups) (fuel : Nat) :
    ReadsAlike line groups (readBy (apartPiece line groups) fuel) := by
  -- An atom is one step here and a step for each of its characters there, so `other` is any fuel.
  induction fuel with
  | zero =>
      intro inGroup options branches resolved atoms items cursor read other result _ _ _ hread
      contradiction
  | succ fuel ih =>
      intro inGroup options branches resolved atoms items cursor read other result hbranches hitems
        hrepeat hread hresult
      obtain ⟨⟨piece?, next⟩, hpiece, hread⟩ := bind_eq_ok.mp hread
      unfold apartPiece at hpiece
      split at hpiece
      case isFalse => contradiction
      next halike =>
      unfold alike at halike
      unfold atomPiece at hpiece
      cases hreference : reference? options cursor with
      | some reference =>
          obtain ⟨c, rest⟩ := reference
          rw [hreference] at halike hpiece
          cases hpiece
          simp only [Bool.and_eq_true, Bool.or_eq_true, Bool.not_eq_true',
            decide_eq_true_eq] at halike
          obtain ⟨⟨hfirst, hcase⟩, honce⟩ := halike
          rw [readAlternatives_congr hfirst] at hresult
          cases htext : referred line groups c with
          | nil =>
              rw [htext] at hread honce hresult
              have hnone : repeats options ((cursor.moveTo rest).resolve line groups) = false :=
                honce.resolve_left (by decide)
              exact ih hbranches hitems
                (fun hrepeats => absurd hrepeats (hnone ▸ Bool.false_ne_true)) hread hresult
          | cons first text =>
              rw [htext] at hread honce hcase hresult
              obtain ⟨less, hresult⟩ :=
                readAlternatives_escape (hcase.resolve_left Bool.false_ne_true) hresult
              refine ih hbranches (.atom (List.cons_ne_nil first text) hitems)
                (fun hrepeats => ?_) hread hresult
              cases text with
              | nil => exact .same rfl hitems
              | cons second text =>
                  have hnone := honce.resolve_left (by simp)
                  exact absurd hrepeats (hnone ▸ Bool.false_ne_true)
      | none =>
          rw [hreference] at halike hpiece
          obtain ⟨⟨piece, middle⟩, hpiece, heq⟩ := map_eq_ok.mp hpiece
          cases heq
          have hresolved : readPiece options (cursor.resolve line groups) =
              .ok (piece, next.resolve line groups) := by
            rw [of_decide_eq_true halike, hpiece]
            rfl
          cases other with
          | zero => contradiction
          | succ other =>
              rw [readAlternatives_succ, hresolved] at hresult
              refine afterPiece_alike ih hbranches hitems ?_ hread hresult
              rintro repetition rfl
              exact hrepeat (by rw [repeats, hresolved])

/-! ## Programs -/

namespace Program

def ofAtoms (line : Text) (groups : Groups) (text : List Char) : Except Fault Program :=
  readAtoms line groups text >>= fun (tree, cursor) => ofTree tree cursor

def inRow (program : Program) : Program := { program with root := program.root.inRow }

theorem ofNamed_inRow (root : Node) (groups : Nat) :
    ofNamed root.inRow groups = (ofNamed root groups).map inRow := by
  simp only [ofNamed, Node.inRow_keepsCalls.recursiveGroups, ← Node.inRow_keepsCalls.expandCalls,
    Node.looksBehindSoundly_inRow, funext (Node.isEndless_inRow root groups)]
  split
  · rfl
  · split <;> rfl

theorem ofTree_inRow (tree : Node) (cursor : Cursor) :
    ofTree tree.inRow cursor = (ofTree tree cursor).map inRow := by
  unfold ofTree
  rw [Node.refersWithin_inRow, funext (Node.inRow_keepsCalls.calledGroup tree cursor),
    Node.nameCalls_inRow]
  split
  · cases tree.nameCalls (tree.calledGroup cursor) with
    | error fault => rfl
    | ok root => exact ofNamed_inRow root cursor.groups
  · rfl

theorem ofTree_moveTo (tree : Node) (cursor : Cursor) (rest : List Char) :
    ofTree tree (cursor.moveTo rest) = ofTree tree cursor := rfl

theorem call_inRow (program : Program) (depth : Nat) :
    program.inRow.call depth = program.call depth := by
  induction depth with
  | zero => rfl
  | succ depth ih =>
      funext index subject progress rest
      rw [call, ih, inRow, Node.inRow_keepsCalls.callee?, call]
      cases program.root.callee? index with
      | none => rfl
      | some callee => exact congrFun (congrFun (congrFun (callee.run_inRow _) _) _) _

theorem searchFrom_inRow (program : Program) (subject : Subject) (tries position : Nat) :
    program.inRow.searchFrom subject tries position = program.searchFrom subject tries position := by
  induction tries generalizing position with
  | zero => rfl
  | succ tries ih =>
      rw [searchFrom, searchFrom, ih, call_inRow, inRow, Node.run_inRow]
      rfl

theorem findAt?_inRow (program : Program) (text : Text) (start : Nat) :
    program.inRow.findAt? text start = program.findAt? text start := by
  simp only [findAt?, search, searchFrom_inRow]

end Program

theorem readAtoms_of_readsApart {text : List Char} (h : readsApart line groups text = true)
    {result : Node × Cursor} (hresult : readTree (substitute line groups text) = .ok result) :
    ∃ read, readAtoms line groups text = .ok read ∧ Agree line groups read result := by
  unfold readsApart at h
  cases hread : readBy (apartPiece line groups) (text.length + 2) false {} [] [] { rest := text } with
  | error fault =>
      rw [hread] at h
      contradiction
  | ok read =>
      refine ⟨read, readBy_mono (fun options cursor found hfound => ?_) hread,
        readBy_apartPiece line groups _ rfl .nil (fun _ => .nil) hread hresult⟩
      unfold apartPiece at hfound
      split at hfound
      · exact hfound
      · contradiction

theorem ofAtoms_of_readsApart {text : List Char} {resolved : Program}
    (h : readsApart line groups text = true)
    (hresolved : Program.ofText (substitute line groups text) = .ok resolved) :
    ∃ program, Program.ofAtoms line groups text = .ok program ∧
      program.inRow = resolved.inRow := by
  obtain ⟨tree, cursor, htree, hresolved⟩ := ofText_eq_ok.mp hresolved
  obtain ⟨⟨atoms, next⟩, hatoms, hrow, hcursor⟩ := readAtoms_of_readsApart h htree
  dsimp only at hrow hcursor
  rw [hcursor, Cursor.resolve, Program.ofTree_moveTo] at hresolved
  have hrows : (Program.ofTree atoms next).map Program.inRow = .ok resolved.inRow := by
    rw [← Program.ofTree_inRow, hrow, Program.ofTree_inRow, hresolved]
    rfl
  obtain ⟨program, hprogram, heq⟩ := map_eq_ok.mp hrows
  exact ⟨program, bind_eq_ok.mpr ⟨_, hatoms, hprogram⟩, heq⟩

/-! ## Expressions -/

def switchedOff (anchors : Anchors) (text : List Char) : List Char :=
  let text := if anchors.firstLine then text else disableAnchor 'A' text
  if anchors.atAnchor then text else disableAnchor 'G' text

theorem disableAnchor_escape_append {anchor : Char} (h : needsEscape anchor = false)
    (text rest : List Char) :
    disableAnchor anchor (escape text ++ rest) = escape text ++ disableAnchor anchor rest := by
  induction text with
  | nil => rfl
  | cons c text ih =>
      rw [escape, List.flatMap_cons, List.append_assoc, ← escape, List.append_assoc, ← ih]
      cases hc : needsEscape c with
      | true =>
          rw [escapeChar, if_pos hc]
          exact disableAnchor_escape (ne_of_needsEscape h hc).symm
      | false =>
          rw [escapeChar, hc]
          exact disableAnchor_cons (ne_of_needsEscape hc rfl)

theorem substitute_cons {c : Char} (hc : c ≠ '\\') (rest : List Char) :
    substitute line groups (c :: rest) = c :: substitute line groups rest := by
  rw [substitute]
  · simp [hc]
  · simp [hc]

theorem disableAnchor_substitute {anchor : Char} (hescape : needsEscape anchor = false)
    (hdigit : isReferenceDigit anchor = false) (text : List Char) :
    disableAnchor anchor (substitute line groups text) =
      substitute line groups (disableAnchor anchor text) := by
  induction text using walk with
  | nil => rfl
  | lone => rfl
  | escape c rest ih =>
      by_cases hc : c = anchor
      · rw [hc, disableAnchor_anchor, substitute, hdigit, if_neg Bool.false_ne_true,
          List.cons_append, List.cons_append, List.nil_append, disableAnchor_anchor, ih]
        rfl
      · rw [disableAnchor_escape hc, substitute, substitute, ← ih]
        split
        · exact disableAnchor_escape_append hescape _ _
        · exact disableAnchor_escape hc
  | plain c rest hc ih =>
      rw [substitute_cons hc, disableAnchor_cons hc, ih, disableAnchor_cons hc, substitute_cons hc]

theorem switchedOff_substitute (anchors : Anchors) (text : List Char) :
    switchedOff anchors (substitute line groups text) =
      substitute line groups (switchedOff anchors text) := by
  have hsearch := @disableAnchor_substitute line groups 'G' rfl rfl
  have htext := @disableAnchor_substitute line groups 'A' rfl rfl
  obtain ⟨firstLine, atAnchor⟩ := anchors
  cases firstLine <;> cases atAnchor <;> simp [switchedOff, hsearch, htext]

theorem compile_eq_ok {text : List Char} {program : Program} (h : compile text = .ok program) :
    Program.ofText text = .ok program := by
  unfold compile at h
  split at h
  · next heq =>
    cases h
    exact heq
  · contradiction

theorem ofText_of_compileIf {needed : Bool} {text : List Char} {program? : Option Program}
    {plain : Program} (h : compileIf needed text = .ok program?)
    (hplain : needed = false → Program.ofText text = .ok plain) :
    Program.ofText text = .ok (program?.getD plain) := by
  cases needed with
  | true =>
      obtain ⟨program, hprogram, rfl⟩ := map_eq_ok.mp h
      exact compile_eq_ok hprogram
  | false =>
      cases h
      exact hplain rfl

theorem ofText_variant_of_build {source : String} {searched : List Char} {expression : Expression}
    (h : Expression.build source searched = .ok expression)
    (hsearched : (Features.ofSource searched).searchAnchor =
      (Features.ofSource source.toList).searchAnchor)
    (htexted : (Features.ofSource searched).textAnchor =
      (Features.ofSource source.toList).textAnchor) (anchors : Anchors) :
    Program.ofText (switchedOff anchors searched) = .ok (expression.variant anchors) := by
  unfold Expression.build at h
  obtain ⟨plain, hplain, h⟩ := bind_eq_ok.mp h
  obtain ⟨withoutSearchAnchor, hsearch, h⟩ := bind_eq_ok.mp h
  obtain ⟨withoutTextAnchor, htext, h⟩ := bind_eq_ok.mp h
  obtain ⟨withoutAnchors, hboth, h⟩ := bind_eq_ok.mp h
  cases pure_eq_ok.mp h
  rw [← hsearched] at hsearch hboth
  rw [← htexted] at htext hboth
  have hplain := compile_eq_ok hplain
  have hnoText : (Features.ofSource searched).textAnchor = false →
      disableAnchor 'A' searched = searched :=
    fun h => disableAnchor_eq_self (escapes_textAnchor h)
  have hsearchOff := ofText_of_compileIf hsearch fun h =>
    (disableAnchor_eq_self (escapes_searchAnchor h)).symm ▸ hplain
  have htextOff := ofText_of_compileIf htext fun h => (hnoText h).symm ▸ hplain
  obtain ⟨firstLine, atAnchor⟩ := anchors
  cases firstLine with
  | true =>
      cases atAnchor with
      | true => exact hplain
      | false => exact hsearchOff
  | false =>
      cases atAnchor with
      | true => exact htextOff
      | false =>
          have hoff : Program.ofText (disableAnchor 'G' (disableAnchor 'A' searched)) =
              .ok (withoutAnchors.getD
                (withoutSearchAnchor.getD (withoutTextAnchor.getD plain))) := by
            refine ofText_of_compileIf hboth fun hmissing => ?_
            cases hs : (Features.ofSource searched).searchAnchor with
            | true =>
                have ht : (Features.ofSource searched).textAnchor = false := by
                  simpa [hs] using hmissing
                rw [ht] at htext
                cases htext
                rw [hnoText ht]
                exact hsearchOff
            | false =>
                rw [hs] at hsearch
                cases hsearch
                rw [disableAnchor_eq_self]
                · exact htextOff
                · rw [escapes_disableAnchor (by decide), escapes_searchAnchor hs]
          simpa [switchedOff, Expression.variant, Option.getD_or] using hoff

theorem ofText_variant {source : String} {expression : Expression}
    (h : Expression.ofSource source = .ok expression) (anchors : Anchors) :
    Program.ofText (switchedOff anchors source.toList) = .ok (expression.variant anchors) :=
  ofText_variant_of_build h rfl rfl anchors

/-- Where the references of an expression stand apart from its other pieces, resolving it finds
what the expression finds in which each reference is one atom that matches the text of its group. -/
theorem findAt?_of_readsApart {source : String} {expression resolved : Expression}
    {anchors : Anchors} (hexpression : Expression.ofEndSource source = .ok expression)
    (hresolved : expression.resolve line groups = .ok resolved)
    (hapart : readsApart line groups (switchedOff anchors source.toList) = true) :
    ∃ program, Program.ofAtoms line groups (switchedOff anchors source.toList) = .ok program ∧
      ∀ text start, resolved.findAt? text start anchors = program.findAt? text start := by
  rw [Expression.resolve, Expression.source_of_build hexpression] at hresolved
  have hvariant := ofText_variant hresolved anchors
  rw [String.toList_ofList, switchedOff_substitute] at hvariant
  obtain ⟨program, hprogram, hrow⟩ := ofAtoms_of_readsApart hapart hvariant
  refine ⟨program, hprogram, fun text start => ?_⟩
  calc resolved.findAt? text start anchors
    _ = (resolved.variant anchors).findAt? text start := by
      rw [Expression.findAt?, Program.findAt?]
      cases text.index? start <;> rfl
    _ = (resolved.variant anchors).inRow.findAt? text start :=
      ((resolved.variant anchors).findAt?_inRow text start).symm
    _ = program.inRow.findAt? text start := by rw [hrow]
    _ = program.findAt? text start := program.findAt?_inRow text start

theorem grouped_reference_repeats_whole_text :
    ∃ expression resolved, Expression.ofEndSource "^(?:\\1)+;" = .ok expression ∧
      expression.resolve (.ofString "<<a.b") [some ⟨0, 5⟩, some ⟨2, 5⟩] = .ok resolved ∧
      readsApart (.ofString "<<a.b") [some ⟨0, 5⟩, some ⟨2, 5⟩]
        (switchedOff {} "^(?:\\1)+;".toList) = true ∧
      resolved.findAt? (.ofString "a.ba.b;") 0 {} = some ⟨0, 7, [some ⟨0, 7⟩]⟩ ∧
      ∃ program, Program.ofAtoms (.ofString "<<a.b") [some ⟨0, 5⟩, some ⟨2, 5⟩]
          (switchedOff {} "^(?:\\1)+;".toList) = .ok program ∧
        ∀ text start, resolved.findAt? text start {} = program.findAt? text start :=
  ⟨_, _, rfl, rfl, by decide +kernel, by decide +kernel,
    findAt?_of_readsApart rfl rfl (by decide +kernel)⟩

/-- A repetition right behind a reference repeats the last character of its text only. -/
theorem repeated_reference_repeats_last_character :
    ∃ expression resolved program, Expression.ofEndSource "-\\1+>" = .ok expression ∧
      expression.resolve (.ofString "<ab") [some ⟨0, 3⟩, some ⟨1, 3⟩] = .ok resolved ∧
      Program.ofAtoms (.ofString "<ab") [some ⟨0, 3⟩, some ⟨1, 3⟩] "-\\1+>".toList =
        .ok program ∧
      resolved.findAt? (.ofString "-abab>") 0 {} = none ∧
      program.findAt? (.ofString "-abab>") 0 = some ⟨0, 6, [some ⟨0, 6⟩]⟩ := by
  refine ⟨_, _, _, rfl, rfl, rfl, ?_, ?_⟩
  · decide +kernel
  · decide +kernel

end ScopeLexer.Regex
