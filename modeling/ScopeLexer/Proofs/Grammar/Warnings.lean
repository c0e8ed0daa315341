import ScopeLexer.Proofs.Grammar.Expansion
import ScopeLexer.Proofs.Line.Reachable

/-!
# Warnings decide nothing

A grammar keeps the warnings of its definition for those who ask.  With other warnings it looks up
the same rules and gives the same tokens.
-/

namespace ScopeLexer

open Outcome

def Grammar.reporting (grammar : Grammar) (warnings : List Warning) : Grammar :=
  { grammar with warnings }

namespace Grammar

variable (grammar : Grammar) (warnings : List Warning)

theorem lookup?_reporting (id : RepositoryId) (name : String) :
    (grammar.reporting warnings).lookup? id name = grammar.lookup? id name := by
  fun_induction grammar.lookup? id name with
  | case1 id hrepository =>
      rw [lookup?]
      simp only [reporting, hrepository]
  | case2 id repository hrepository entryName patterns hentry =>
      rw [lookup?]
      simp only [reporting, hrepository, hentry]
  | case3 id repository hrepository hentry hparent =>
      rw [lookup?]
      simp only [reporting, hrepository, hentry, hparent]
  | case4 id repository hrepository hentry parent hparent hlt ih =>
      rw [lookup?]
      simp only [reporting, hrepository, hentry, hparent, hlt]
      exact ih
  | case5 id repository hrepository hentry parent hparent hlt =>
      rw [lookup?]
      simp only [reporting, hrepository, hentry, hparent, hlt]
      rfl

theorem locate?_reporting (reference : Reference) :
    (grammar.reporting warnings).locate? reference = grammar.locate? reference := by
  cases reference <;> simp only [locate?, lookup?_reporting] <;> rfl

theorem expand_dangling {reference : Reference} (hlocate : grammar.locate? reference = none)
    (closed : List Origin) (found : List RuleId) (rest : List Pattern) :
    grammar.expand closed found (.reference reference :: rest) = .error ⟨reference⟩ := by
  rw [expand]
  split
  · rfl
  · next hother => simp [hlocate] at hother

theorem expand_reporting (closed : List Origin) (found : List RuleId) (patterns : List Pattern) :
    (grammar.reporting warnings).expand closed found patterns =
      grammar.expand closed found patterns := by
  fun_induction grammar.expand closed found patterns with
  | case1 => rw [expand]
  | case2 closed found id rest hfound ih => rw [expand, if_pos hfound, ih]
  | case3 closed found id rest hfound ih => rw [expand, if_neg hfound, ih]
  | case4 closed found reference rest hlocate =>
      rw [← locate?_reporting grammar warnings] at hlocate
      exact expand_dangling _ hlocate closed found rest
  | case5 closed found reference rest origin patterns hlocate hclosed ih =>
      rw [← locate?_reporting grammar warnings] at hlocate
      rw [expand_reference hlocate, if_pos hclosed, ih]
  | case6 closed found reference rest origin patterns hlocate hclosed ih =>
      rw [← locate?_reporting grammar warnings] at hlocate
      rw [expand_reference hlocate, if_neg hclosed, ih]

theorem candidates_reporting (rule : RuleId) :
    (grammar.reporting warnings).candidates rule = grammar.candidates rule :=
  expand_reporting grammar warnings _ _ _

end Grammar

namespace Scan

def reporting (scan : Scan) (warnings : List Warning) : Scan :=
  { scan with grammar := scan.grammar.reporting warnings }

variable (scan : Scan) (warnings : List Warning)

theorem findNext_reporting (position : Nat) (anchor : Option Nat) (frame : Frame)
    (spent : List RuleId) :
    (scan.reporting warnings).findNext position anchor frame spent =
      scan.findNext position anchor frame spent := by
  have hcandidates : (scan.reporting warnings).grammar.candidates frame.rule =
      scan.grammar.candidates frame.rule := scan.grammar.candidates_reporting warnings frame.rule
  rw [findNext, findNext, hcandidates]
  rfl

theorem step_reporting (scanCapture : CaptureScan) (cursor : Cursor) :
    (scan.reporting warnings).step scanCapture cursor = scan.step scanCapture cursor := by
  simp only [step, findNext_reporting]
  rfl

theorem steps_reporting (scanCapture : CaptureScan) (fuel : Nat) (cursor : Cursor) :
    (scan.reporting warnings).steps scanCapture fuel cursor =
      scan.steps scanCapture fuel cursor := by
  induction fuel generalizing cursor with
  | zero => rfl
  | succ fuel ih => simp only [steps, step_reporting, ih]

theorem run_reporting (scanCapture : CaptureScan) (cursor : Cursor) :
    (scan.reporting warnings).run scanCapture cursor = scan.run scanCapture cursor := by
  simp only [run, steps_reporting]
  rfl

theorem capture_reporting (nesting : Nat) :
    (scan.reporting warnings).capture nesting = scan.capture nesting := by
  induction nesting generalizing scan with
  | zero => rfl
  | succ nesting ih =>
      funext rule range scopes
      let inner : Scan := { scan with
        line := scan.line.upTo range.stop
        isFirst := scan.isFirst && range.start == 0 }
      have hinner (start : Cursor) :
          (inner.reporting warnings).run ((inner.reporting warnings).capture nesting) start =
            inner.run (inner.capture nesting) start := by
        rw [ih, run_reporting]
      rw [capture, capture]
      exact congrArg (· >>= fun cursor => pure cursor.stream.tokens) (hinner _)

theorem wholeLine_reporting (anchor : Option Nat) (scopes : ScopeStack) (frames : List Frame) :
    (scan.reporting warnings).wholeLine anchor scopes frames =
      scan.wholeLine anchor scopes frames := by
  rw [wholeLine, capture_reporting, run_reporting]
  rfl

end Scan

namespace Grammar

variable (grammar : Grammar) (warnings : List Warning)

theorem tokenizeLine_reporting (options : TokenizeOptions) (state : State) (line : Text) :
    (grammar.reporting warnings).tokenizeLine options state line =
      grammar.tokenizeLine options state line := by
  have hline := (grammar.scanOf state line).wholeLine_reporting warnings
    state.startLine.lineAnchor state.startLine.scopes state.startLine.frames
  cases hskips : options.skips line with
  | true => rw [tokenizeLine_of_skips hskips, tokenizeLine_of_skips hskips]
  | false =>
      rw [tokenizeLine_of_scans hskips, tokenizeLine_of_scans hskips, scanLine, scanLine]
      exact congrArg _ hline

end Grammar

end ScopeLexer
