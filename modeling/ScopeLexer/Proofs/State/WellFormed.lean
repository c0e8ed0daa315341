import ScopeLexer.Proofs.Grammar.Compilation
import ScopeLexer.Proofs.Line.Reconstruction
import ScopeLexer.Proofs.Regex.References

/-!
# Well-formed states

The scopes and the frames of a state are kept apart, and only the depths that a frame remembers
connect them.  `Grammar.Nested` is the invariant: every frame was opened while the frame below it
was innermost, at the depth that the scopes had then.  The top level is never closed, since its rule
has no closing expression.
-/

namespace ScopeLexer

open Regex Outcome

/-! ## Nested frames -/

structure Grammar.OpenedIn (grammar : Grammar) (below frame : Frame) : Prop where
  candidate : ∃ candidates, grammar.candidates below.rule = .ok candidates ∧
    frame.rule ∈ candidates
  enclosed : ∃ rule enclosure, grammar.rules[frame.rule]? = some rule ∧
    rule.kind = .enclosed enclosure ∧
      ∀ expression, frame.closing = some expression →
        enclosure.closing.hasReferences = true ∧ expression.Resolved
  depths : frame.baseDepth ≤ frame.nameDepth

inductive Grammar.Nested (grammar : Grammar) : List Frame → (depth : Nat) → Prop where
  | top : Nested grammar [.group grammar.root 1] 1
  | inside {frame below : Frame} {outer : List Frame} {depth : Nat}
      (hopened : grammar.OpenedIn below frame) (hdepth : frame.nameDepth ≤ depth)
      (houter : Nested grammar (below :: outer) frame.baseDepth) :
      Nested grammar (frame :: below :: outer) depth

namespace Grammar.Nested

variable {grammar : Grammar} {frames : List Frame} {depth : Nat}

theorem one_le_depth (h : grammar.Nested frames depth) : 1 ≤ depth := by
  induction h with
  | top => exact Nat.le_refl 1
  | inside hopened hdepth houter ih => exact ih.trans (hopened.depths.trans hdepth)

theorem withoutAnchors (h : grammar.Nested frames depth) :
    grammar.Nested (frames.map fun frame => { frame with anchor := none }) depth := by
  induction h with
  | top => exact .top
  | inside hopened hdepth houter ih =>
      exact .inside ⟨hopened.candidate, hopened.enclosed, hopened.depths⟩ hdepth ih

end Grammar.Nested

/-! ## Steps -/

namespace Scan

variable {scan : Scan} {scanCapture : CaptureScan} {cursor next : Cursor}

/-- A frame only has a closing expression of its own when that of its rule has references. -/
theorem closingFor?_eq_some {enclosure : Enclosure} {found : Match} {expression : Expression}
    (h : scan.closingFor? enclosure found = some expression) :
    enclosure.closing.hasReferences = true ∧ expression.Resolved := by
  unfold closingFor? at h
  split at h
  · next hreferences =>
    refine ⟨hreferences, ?_⟩
    cases hresolve : enclosure.closing.resolve scan.line found.groups with
    | error error =>
        rw [hresolve] at h
        contradiction
    | ok resolved =>
        rw [hresolve] at h
        cases h
        exact .of_resolve hresolve
  · contradiction

theorem Stepped.nested (hnumbered : Grammar.Numbered scan.grammar.rules)
    (hroot : ∃ rule, scan.grammar.rules[scan.grammar.root]? = some rule ∧ rule.kind = .group)
    (hcursor : scan.grammar.Nested cursor.frames cursor.scopes.depth)
    (h : scan.Stepped scanCapture cursor next) :
    scan.grammar.Nested next.frames next.scopes.depth := by
  cases h with
  | @closes frame outer found stream hinside hframes hfound hstream =>
      simp only [advance_frames, advance_scopes, ScopeStack.depth_truncate]
      rw [hframes] at hcursor
      generalize cursor.scopes.depth = depth at hcursor ⊢
      cases hcursor with
      | top =>
          obtain ⟨expression, closesLast, hclosing, -⟩ := findNext_closing hfound
          obtain ⟨rule, enclosure, hrule, hkind, -, -⟩ := closing?_eq_some hclosing
          obtain ⟨root, hrootRule, hrootKind⟩ := hroot
          cases hrule.symm.trans hrootRule
          rw [hrootKind] at hkind
          contradiction
      | inside hopened hdepth houter =>
          have hbase := houter.one_le_depth
          have hname := hopened.depths
          have hdepths : min (min depth (max frame.nameDepth 1)) (max frame.baseDepth 1) =
              frame.baseDepth := by omega
          rw [hdepths]
          exact houter
  | passes hinside hframes hfound hrule hkind hstream =>
      simpa only [advance_frames, advance_scopes] using hcursor
  | @opens frame outer id found rule enclosure stream hinside hframes hfound hrule hkind hstream =>
      simp only [advance_frames, advance_scopes]
      obtain ⟨candidates, _, _, hcandidates, hmem, -, -, -⟩ := findNext_opening hfound
      cases hnumbered id rule hrule
      rw [hframes] at hcursor ⊢
      have hopened : scan.grammar.OpenedIn frame (scan.openFrame cursor
          (cursor.scopes.enter rule.name scan.line found.groups) rule.id enclosure found) := {
        candidate := ⟨candidates, hcandidates, hmem⟩
        enclosed := ⟨rule, enclosure, hrule, hkind, fun _ => closingFor?_eq_some⟩
        depths := cursor.scopes.depth_le_enter _ _ _ }
      exact .inside hopened (ScopeStack.depth_le_enter _ _ _ _) hcursor

theorem wholeLine_nested {anchor : Option Nat} {scopes : ScopeStack} {frames : List Frame}
    (hnumbered : Grammar.Numbered scan.grammar.rules)
    (hroot : ∃ rule, scan.grammar.rules[scan.grammar.root]? = some rule ∧ rule.kind = .group)
    (hframes : scan.grammar.Nested frames scopes.depth)
    (h : scan.wholeLine anchor scopes frames = .ok next) :
    scan.grammar.Nested next.frames next.scopes.depth := by
  obtain ⟨last, hsteps, rfl⟩ := run_eq_ok.mp h
  have hlast := steps_invariant
    (P := fun cursor => scan.grammar.Nested cursor.frames cursor.scopes.depth)
    (fun hcursor hstep => hstep.nested hnumbered hroot hcursor) hframes hsteps
  exact hlast

end Scan

/-! ## States -/

structure State.WellFormed (grammar : Grammar) (state : State) : Prop where
  root : state.scopes.root = grammar.scopeName
  top : state.frames.getLast? = some (.group grammar.root 1)
  /-- Every frame was opened within the one below it, above all scopes of that one. -/
  opened : state.frames.IsChain fun frame below =>
    grammar.OpenedIn below frame ∧ below.nameDepth ≤ frame.baseDepth
  depths : ∀ frame ∈ state.frames, 1 ≤ frame.baseDepth ∧ frame.baseDepth ≤ frame.nameDepth
  innermost : ∀ frame ∈ state.frames.head?, frame.nameDepth ≤ state.scopes.depth

namespace Grammar

variable {definition : GrammarDefinition} {grammar : Grammar} {frames : List Frame} {depth : Nat}
  {state next : State}

namespace Nested

theorem getLast? (h : grammar.Nested frames depth) :
    frames.getLast? = some (.group grammar.root 1) := by
  induction h with
  | top => rfl
  | inside hopened hdepth houter ih => simpa using ih

theorem innermost (h : grammar.Nested frames depth) :
    ∀ frame ∈ frames.head?, frame.nameDepth ≤ depth := by
  intro frame hframe
  cases h with
  | top =>
      cases hframe
      exact Nat.le_refl 1
  | inside hopened hdepth houter =>
      cases hframe
      exact hdepth

theorem opened (h : grammar.Nested frames depth) :
    frames.IsChain fun frame below =>
      grammar.OpenedIn below frame ∧ below.nameDepth ≤ frame.baseDepth := by
  induction h with
  | top => exact List.isChain_singleton _
  | inside hopened hdepth houter ih =>
      exact List.isChain_cons_cons.mpr ⟨⟨hopened, houter.innermost _ rfl⟩, ih⟩

theorem depths (h : grammar.Nested frames depth) :
    ∀ frame ∈ frames, 1 ≤ frame.baseDepth ∧ frame.baseDepth ≤ frame.nameDepth := by
  induction h with
  | top => simp [Frame.group]
  | inside hopened hdepth houter ih =>
      intro frame hframe
      rcases List.mem_cons.mp hframe with rfl | hframe
      · exact ⟨houter.one_le_depth, hopened.depths⟩
      · exact ih frame hframe

theorem eq_top (h : grammar.Nested frames depth) (hlength : frames.length ≤ 1) :
    frames = [.group grammar.root 1] ∧ depth = 1 := by
  cases h with
  | top => exact ⟨rfl, rfl⟩
  | inside hopened hdepth houter => simp at hlength

end Nested

theorem nested_of_tokenized (hgrammar : ofDefinition definition = .ok grammar)
    {options : TokenizeOptions} {line : Text} {tokens : List Token}
    (hstate : grammar.Nested state.frames state.scopes.depth)
    (h : grammar.Tokenized options state line tokens next) :
    grammar.Nested next.frames next.scopes.depth := by
  cases h with
  | skipped hskips => exact hstate
  | scanned hscans hcursor =>
      exact Scan.wholeLine_nested (numbered_of_ofDefinition hgrammar)
        (root_of_ofDefinition hgrammar) hstate.withoutAnchors hcursor

theorem Reachable.nested (hgrammar : ofDefinition definition = .ok grammar)
    (h : grammar.Reachable state) : grammar.Nested state.frames state.scopes.depth := by
  induction h with
  | initial => exact .top
  | line hstate hline ih => exact nested_of_tokenized hgrammar ih (tokenized_of_tokenizeLine hline)

/-- Every reachable state of a compiled grammar is well-formed.  So its depth counts its frames
without the top level, and a state without open rules is that in front of a document. -/
theorem reachable_wellFormed (hgrammar : ofDefinition definition = .ok grammar)
    (hstate : grammar.Reachable state) :
    state.WellFormed grammar ∧ state.frames.length = state.depth + 1 ∧
    state.openRules.length = state.depth ∧
    (state.depth = 0 → state = { State.initial grammar with lines := state.lines }) := by
  have hnested := hstate.nested hgrammar
  have hroot := hstate.root_scopes
  have hlength : 1 ≤ state.frames.length := by
    cases hframes : state.frames with
    | nil =>
        rw [hframes] at hnested
        cases hnested
    | cons frame frames => simp
  refine ⟨⟨hroot, hnested.getLast?, hnested.opened, hnested.depths, hnested.innermost⟩, ?_, ?_, ?_⟩
  · simp only [State.depth]
    omega
  · simp [State.openRules, State.depth]
  · intro hdepth
    simp only [State.depth] at hdepth
    obtain ⟨hframes, hdepth⟩ := hnested.eq_top (by omega)
    have hscopes : state.scopes = { root := grammar.scopeName } := by
      rw [← hroot]
      exact ScopeStack.eq_of_depth hdepth
    obtain ⟨scopes, frames, lines⟩ := state
    cases hframes
    cases hscopes
    rfl

theorem quotes_state_wellFormed :
    (Quotes.after "x<ay").WellFormed Quotes.grammar ∧ (Quotes.after "x<ay").frames.length = 2 ∧
    (Quotes.after "x<ay").openRules.length = 1 := by
  have hstate : Quotes.grammar.Reachable (Quotes.after "x<ay") :=
    Quotes.reachable_after (by decide +kernel)
  have hdepth : (Quotes.after "x<ay").depth = 1 := by decide +kernel
  obtain ⟨hwellFormed, hframes, hopen, -⟩ :=
    reachable_wellFormed Quotes.ofDefinition_definition hstate
  rw [hdepth] at hframes hopen
  exact ⟨hwellFormed, hframes, hopen⟩

end Grammar

end ScopeLexer
