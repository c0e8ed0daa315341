import ScopeLexer.Proofs.Document.Course
import ScopeLexer.Proofs.Scan.Shelter

/-!
# Rules are brackets

A rule that stays open is closed where it was opened: by then the scopes, the frames and the anchor
are those in front of its opening match again.  `OpenRule` holds from the opening match on, over any
number of lines, until the rule is closed: the frames of the rule and of those around it stay at the
bottom of the stack, and everything above them was opened on top of the name of the rule.  Anchors
are only kept for the rest of the line.
-/

namespace ScopeLexer

open Regex Relation

/-! ## Forgetting anchors -/

def Frame.unanchored (frame : Frame) : Frame := { frame with anchor := none }

theorem State.frames_startLine (state : State) :
    state.startLine.frames = state.frames.map Frame.unanchored := rfl

theorem Frame.map_unanchored_idem (frames : List Frame) :
    (frames.map unanchored).map unanchored = frames.map unanchored := by
  rw [List.map_map]
  rfl

theorem Shelters.unanchored {outer : List Scope} {lower : List Frame} {scopes : ScopeStack}
    {frames : List Frame} (h : Shelters outer lower scopes frames) :
    Shelters outer (lower.map Frame.unanchored) scopes (frames.map Frame.unanchored) := by
  obtain ⟨hscopes, inner, rfl, hdepths⟩ := h
  refine ⟨hscopes, inner.map Frame.unanchored, List.map_append, fun frame hframe => ?_⟩
  obtain ⟨before, hbefore, rfl⟩ := List.mem_map.mp hframe
  exact hdepths before hbefore

/-! ## Open rules -/

/-- A rule that was opened when `lines` lines were behind is open, with the scopes `named` of its
name and the frames `lower`, its own first. -/
inductive OpenRule (grammar : Grammar) (named : ScopeStack) (lower : List Frame) (lines : Nat) :
    Place → Prop where
  | within {state : State} {rest : Lines} {scan : Scan} {nesting : Nat} {cursor : Cursor}
      {kept : List Frame} (hgrammar : scan.grammar = grammar)
      (hkept : state.lines = lines ∧ kept = lower ∨
        lines < state.lines ∧ kept = lower.map Frame.unanchored)
      (hcursor : Shelters named.toList kept cursor.scopes cursor.frames) :
      OpenRule grammar named lower lines (.within state rest scan nesting cursor)
  | between {state : State} {rest : Lines} {kept : List Frame} (hlines : lines < state.lines)
      (hkept : kept.map Frame.unanchored = lower.map Frame.unanchored)
      (hstate : Shelters named.toList kept state.scopes state.frames) :
      OpenRule grammar named lower lines (.between state rest)

namespace OpenRule

variable {grammar : Grammar} {named : ScopeStack} {lower : List Frame} {lines depth : Nat}
  {place next : Place}

theorem scopes (h : OpenRule grammar named lower lines place) :
    named.toList <+: place.scopes.toList := by
  cases h with
  | within hgrammar hkept hcursor => exact hcursor.scopes
  | between hlines hkept hstate => exact hstate.scopes

theorem moves (hlower : lower.length = depth + 1) (h : OpenRule grammar named lower lines place)
    (hmove : grammar.MovesAbove depth place next) : OpenRule grammar named lower lines next := by
  obtain ⟨hmove, hdepth⟩ := hmove
  cases hmove with
  | skip hskips =>
      cases h with
      | between hlines hkept hstate => exact .between (Nat.lt_succ_of_lt hlines) hkept hstate
  | start hscans =>
      cases h with
      | between hlines hkept hstate => exact .within rfl (.inr ⟨hlines, hkept⟩) hstate.unanchored
  | step hstep =>
      cases h with
      | @within _ _ _ _ _ kept hgrammar hkept hcursor =>
          have hlength : kept.length = depth + 1 := by
            rcases hkept with ⟨-, rfl⟩ | ⟨-, rfl⟩ <;> simp [hlower]
          have hstays := hlength.trans_le (Nat.succ_le_of_lt hdepth)
          exact .within hgrammar hkept ((Scan.stepped_of_step hstep).shelters hcursor hstays)
  | finish hdone =>
      cases h with
      | within hgrammar hkept hcursor =>
          rcases hkept with ⟨hsame, rfl⟩ | ⟨hlater, rfl⟩
          · exact .between (hsame ▸ Nat.lt_succ_self _) rfl hcursor
          · exact .between (Nat.lt_succ_of_lt hlater) (Frame.map_unanchored_idem lower) hcursor

theorem course (hlower : lower.length = depth + 1) (h : OpenRule grammar named lower lines place)
    (hcourse : grammar.CourseAbove depth place next) : OpenRule grammar named lower lines next := by
  induction hcourse with
  | refl => exact h
  | tail _ hmove ih => exact ih.moves hlower hmove

end OpenRule

namespace Scan.Enters

variable {scan : Scan} {nesting : Nat} {before entered : Cursor} {rule : Rule}
  {enclosure : Enclosure} {found : Match}

theorem openRule (h : scan.Enters nesting before rule enclosure found entered) (state : State)
    (rest : Lines) :
    OpenRule scan.grammar (before.scopes.enter rule.name scan.line found.groups)
      (scan.openFrame before (before.scopes.enter rule.name scan.line found.groups) rule.id
        enclosure found :: before.frames)
      state.lines (.within state rest scan nesting entered) := by
  obtain ⟨stream, -, rfl⟩ := h.next_eq
  refine .within rfl (.inl ⟨rfl, rfl⟩) ⟨?_, [], by simp, by simp⟩
  rw [advance_scopes]
  exact ScopeStack.toList_prefix_enter _ _ _ _

theorem adds (h : scan.Enters nesting before rule enclosure found entered) :
    TokenStream.Adds (before.scopes.enter rule.name scan.line found.groups).toList
      (before.stream.produce found.start before.scopes.toList) entered.stream := by
  obtain ⟨stream, hstream, rfl⟩ := h.next_eq
  rw [advance_stream]
  exact (TokenStream.Adds.captures (scan.capture_carries nesting) (List.prefix_refl _) hstream).trans
    (.produce (List.prefix_refl _) _)

end Scan.Enters

/-! ## Closing -/

namespace OpenRule

variable {grammar : Grammar} {named : ScopeStack} {frame : Frame} {outer : List Frame}
  {lines : Nat} {state : State} {rest : Lines} {scan : Scan} {nesting : Nat}
  {cursor next : Cursor} {found : Match}

theorem adds (hnamed : frame.nameDepth = named.depth)
    (h : OpenRule grammar named (frame :: outer) lines (.within state rest scan nesting cursor))
    (hstep : scan.step (scan.capture nesting) cursor = .ok (some next)) :
    TokenStream.Adds named.toList cursor.stream next.stream := by
  cases h with
  | within hgrammar hkept hcursor =>
      refine (Scan.stepped_of_step hstep).adds (scan.capture_carries nesting) hcursor ?_
      intro first hfirst
      rw [ScopeStack.length_toList, ← hnamed]
      rcases hkept with ⟨-, rfl⟩ | ⟨-, rfl⟩
      · cases hfirst
        exact Nat.le_refl _
      · cases hfirst
        exact Nat.le_refl _

theorem frames_eq (hinnermost : cursor.frames.length = outer.length + 1)
    (h : OpenRule grammar named (frame :: outer) lines (.within state rest scan nesting cursor)) :
    cursor.frames = if state.lines = lines then frame :: outer
      else (frame :: outer).map Frame.unanchored := by
  cases h with
  | @within _ _ _ _ _ kept hgrammar hkept hcursor =>
      obtain ⟨inner, hframes, -⟩ := hcursor.frames
      have hlength := congrArg List.length hframes
      rw [List.length_append] at hlength
      rcases hkept with ⟨hsame, rfl⟩ | ⟨hlater, rfl⟩
      · rw [List.length_cons] at hlength
        cases List.eq_nil_of_length_eq_zero (l := inner) (by omega)
        rw [if_pos hsame]
        exact hframes
      · rw [List.length_map, List.length_cons] at hlength
        cases List.eq_nil_of_length_eq_zero (l := inner) (by omega)
        rw [if_neg (by omega)]
        exact hframes

end OpenRule

/-- A closing match is given the scopes of the name for its captures, and leads back to scopes,
frames and an anchor. -/
structure Scan.Restores (scan : Scan) (nesting : Nat) (cursor : Cursor) (closing : Match)
    (named : ScopeStack) (captures : List Capture) (scopes : ScopeStack) (frames : List Frame)
    (anchor : Option Nat) (next : Cursor) : Prop where
  captures : ∃ stream, produceCaptures (scan.capture nesting) scan.line closing named captures []
      (cursor.stream.produce closing.start cursor.scopes.toList) = .ok stream ∧
    next.stream = stream.produce closing.stop named.toList
  scopes : next.scopes = scopes
  frames : next.frames = frames
  anchor : next.anchor = anchor

theorem Scan.Leaves.restores {scan : Scan} {nesting : Nat} {cursor next : Cursor} {closing : Match}
    {frame : Frame} {outer : List Frame} {named scopes : ScopeStack}
    (h : scan.Leaves nesting cursor closing next) (hframes : cursor.frames = frame :: outer)
    (hnamed : named.toList <+: cursor.scopes.toList) (hname : frame.nameDepth = named.depth)
    (hscopes : scopes.toList <+: named.toList) (hbase : frame.baseDepth = scopes.depth) :
    scan.Restores nesting cursor closing named (scan.closingCaptures frame) scopes outer
      frame.anchor next := by
  obtain ⟨stream, hstream, rfl⟩ := h.next_eq hframes
  rw [hname, ScopeStack.truncate_of_prefix hnamed, hbase, ScopeStack.truncate_of_prefix hscopes]
  rw [hname, ScopeStack.truncate_of_prefix hnamed] at hstream
  exact ⟨⟨stream, hstream, advance_stream _ _ _⟩, advance_scopes _ _ _, advance_frames _ _ _,
    advance_anchor _ _ _⟩

theorem Scan.Enters.closingCaptures_eq {scan other : Scan} {nesting : Nat} {before entered : Cursor}
    {rule : Rule} {enclosure : Enclosure} {found : Match}
    (h : scan.Enters nesting before rule enclosure found entered)
    (hgrammar : other.grammar = scan.grammar) {frame : Frame} (hframe : frame.rule = rule.id) :
    other.closingCaptures frame = enclosure.closingCaptures := by
  have hlisted := h.listed
  have hkind := h.kind
  obtain ⟨id, name, contentName, kind, patterns⟩ := rule
  dsimp only at hkind hframe hlisted
  subst hkind
  simp only [closingCaptures, hgrammar, hframe, hlisted]

namespace Grammar

/-- A rule is a bracket.  While it is open, its name stays on the scopes and on every token.  When it
is closed, its closing captures are given exactly the scopes of the name, and the scopes, the frames
and the anchor are those in front of the opening match again; on a later line the anchors of the line
before are forgotten. -/
theorem rules_are_brackets {grammar : Grammar} {scan : Scan} (hscan : scan.grammar = grammar)
    {nesting : Nat} {before entered : Cursor} {rule : Rule} {enclosure : Enclosure} {found : Match}
    (henters : scan.Enters nesting before rule enclosure found entered) (state : State)
    (rest : Lines) {named : ScopeStack}
    (hnamed : named = before.scopes.enter rule.name scan.line found.groups) :
    TokenStream.Adds named.toList (before.stream.produce found.start before.scopes.toList)
      entered.stream ∧
    ∀ place,
      grammar.CourseAbove before.frames.length (.within state rest scan nesting entered) place →
      named.toList <+: place.scopes.toList ∧
      ∀ later rest scan nesting cursor next, place = .within later rest scan nesting cursor →
        (scan.step (scan.capture nesting) cursor = .ok (some next) →
          TokenStream.Adds named.toList cursor.stream next.stream) ∧
        ∀ closing, cursor.frames.length = before.frames.length + 1 →
          scan.Leaves nesting cursor closing next →
          scan.Restores nesting cursor closing named enclosure.closingCaptures before.scopes
            (if later.lines = state.lines then before.frames
              else before.frames.map Frame.unanchored)
            (if later.lines = state.lines then before.anchor else none) next := by
  subst hscan hnamed
  refine ⟨henters.adds, fun place hcourse => ?_⟩
  have hopen := (henters.openRule state rest).course rfl hcourse
  refine ⟨hopen.scopes, ?_⟩
  rintro later rest' other nesting' cursor next rfl
  refine ⟨hopen.adds rfl, fun closing hinnermost hleaves => ?_⟩
  have hbefore := before.scopes.toList_prefix_enter rule.name scan.line found.groups
  have hframes := hopen.frames_eq hinnermost
  have hgrammar : other.grammar = scan.grammar := by
    cases hopen with
    | within hgrammar hkept hcursor => exact hgrammar
  split at hframes
  · next hsame =>
    rw [if_pos hsame, if_pos hsame]
    have hrestores := hleaves.restores hframes hopen.scopes rfl hbefore rfl
    rwa [henters.closingCaptures_eq hgrammar rfl] at hrestores
  · next hlater =>
    rw [if_neg hlater, if_neg hlater]
    have hrestores := hleaves.restores hframes hopen.scopes rfl hbefore rfl
    rwa [henters.closingCaptures_eq hgrammar rfl] at hrestores

end Grammar

/-! ## A quote over two lines -/

namespace Quotes

def stepOf (scan : Scan) (cursor : Cursor) : Except ScanFault (Option Cursor) :=
  scan.step (scan.capture scan.nestingBound) cursor

theorem stepOf_eq_some {scan : Scan} {cursor : Cursor}
    (h : ((stepOf scan cursor).toOption.bind id).isSome = true) :
    stepOf scan cursor = .ok (some (((stepOf scan cursor).toOption.bind id).getD default)) := by
  cases hstep : stepOf scan cursor with
  | error fault => simp [hstep, Except.toOption] at h
  | ok next =>
      cases next with
      | none => simp [hstep, Except.toOption] at h
      | some next => rfl

theorem stepOf_eq_none {scan : Scan} {cursor : Cursor}
    (h : (stepOf scan cursor).map (·.isSome) = .ok false) : stepOf scan cursor = .ok none := by
  obtain ⟨next, hstep, hnone⟩ := Outcome.map_eq_ok.mp h
  cases next with
  | none => exact hstep
  | some next => contradiction

def opening : Scan := grammar.scanOf (.initial grammar) (.ofString "x<ay")

def before : Cursor := (State.initial grammar).lineStart

def entered : Cursor := ((stepOf opening before).toOption.bind id).getD default

def middle : State := ⟨entered.scopes, entered.frames, 1⟩

def closing : Scan := grammar.scanOf middle (.ofString "za>")

def left : Cursor := ((stepOf closing middle.lineStart).toOption.bind id).getD default

theorem quote_is_bracket : ∃ rule enclosure found closed,
    opening.Enters opening.nestingBound before rule enclosure found entered ∧
    closing.Leaves closing.nestingBound middle.lineStart closed left ∧
    left.scopes = before.scopes ∧ left.frames = before.frames.map Frame.unanchored ∧
    left.anchor = none := by
  obtain ⟨rule, enclosure, hlisted, hkind, hid⟩ : ∃ (rule : Rule) (enclosure : Enclosure),
      grammar.rules[0]? = some rule ∧ rule.kind = .enclosed enclosure ∧ rule.id = 0 :=
    ⟨_, _, rfl, rfl, rfl⟩
  rw [← hid] at hlisted
  have hopens : (opening.findNext 0 none (.group grammar.root 1) []).map (·.map (·.1)) =
      .ok (some (.opening rule.id)) := by
    rw [hid]
    decide +kernel
  obtain ⟨_ | ⟨_, found⟩, hopens, htarget⟩ := Outcome.map_eq_ok.mp hopens
  · contradiction
  cases htarget
  have henters : opening.Enters opening.nestingBound before rule enclosure found entered :=
    ⟨hlisted, hkind, ⟨_, [], rfl, hopens⟩, stepOf_eq_some (by decide +kernel)⟩
  have hcloses : (closing.findNext 0 middle.lineStart.anchor (middle.lineStart.frames.headD default)
      []).map (·.map (·.1)) = .ok (some .closing) := by decide +kernel
  obtain ⟨_ | ⟨_, closed⟩, hcloses, htarget⟩ := Outcome.map_eq_ok.mp hcloses
  · contradiction
  cases htarget
  have hframes : middle.lineStart.frames.length = 2 := by decide +kernel
  have hleaves : closing.Leaves closing.nestingBound middle.lineStart closed left := by
    refine ⟨?_, stepOf_eq_some (by decide +kernel)⟩
    cases hstart : middle.lineStart.frames with
    | nil => simp [hstart] at hframes
    | cons frame outer =>
        rw [hstart] at hcloses
        exact ⟨frame, outer, rfl, hcloses⟩
  have hdone : stepOf opening entered = .ok none := stepOf_eq_none (by decide +kernel)
  have hlines : grammar.CourseAbove 1
      (grammar.inLine (.initial grammar) (.ofString "x<ay") [({}, .ofString "za>")] entered)
      (grammar.inLine middle (.ofString "za>") [] middle.lineStart) :=
    .tail (.single ⟨.finish hdone, by decide +kernel⟩) ⟨.start rfl, by decide +kernel⟩
  obtain ⟨-, hopen⟩ := Grammar.rules_are_brackets rfl henters (.initial grammar)
    [({}, .ofString "za>")] rfl
  obtain ⟨-, hlater⟩ := hopen _ hlines
  obtain ⟨-, hrestores⟩ := hlater _ _ _ _ _ _ rfl
  obtain ⟨-, hscopes, hframes, hanchor⟩ := hrestores closed hframes hleaves
  exact ⟨rule, enclosure, found, closed, henters, hleaves, hscopes, hframes, hanchor⟩

end Quotes

end ScopeLexer
