import ScopeLexer.Proofs.Scan.Step

/-!
# How a scan fails

Only the search for what comes next can fail, with a reference among the patterns of the innermost
rule.  Whatever else fails, fails because a search did, perhaps in a captured text.
-/

namespace ScopeLexer

open Regex Outcome

/-- The faults of scans with a grammar: those of the candidates of its rules, and that the scan does
not come to an end. -/
inductive Grammar.Faults (grammar : Grammar) : ScanFault → Prop where
  | endless : Faults grammar .endless
  | unresolved {rule : RuleId} {unresolved : Unresolved}
      (hcandidates : grammar.candidates rule = .error unresolved) :
      Faults grammar (.unresolved unresolved)

variable {Allowed : ScanFault → Prop} {fault : ScanFault}

def CaptureScan.FaultsIn (scanCapture : CaptureScan) (Allowed : ScanFault → Prop) : Prop :=
  ∀ {rule range scopes fault}, scanCapture rule range scopes = .error fault → Allowed fault

theorem produceCaptures_faults {scanCapture : CaptureScan} (hscan : scanCapture.FaultsIn Allowed)
    {line : Text} {found : Match} {scopes : ScopeStack} {captures : List Capture}
    {opened : OpenCaptures} {stream : TokenStream}
    (h : produceCaptures scanCapture line found scopes captures opened stream = .error fault) :
    Allowed fault := by
  induction captures generalizing opened stream with
  | nil => contradiction
  | cons capture captures ih =>
      rw [produceCaptures] at h
      split at h
      · exact ih h
      · dsimp only at h
        split at h
        · rcases bind_eq_error.mp h with hcapture | ⟨tokens, -, h⟩
          · exact hscan hcapture
          · exact ih h
        · exact ih h

namespace Scan

variable {scan : Scan} {scanCapture : CaptureScan} {cursor : Cursor}

theorem close_faults (hscan : scanCapture.FaultsIn Allowed) {frame : Frame}
    {outer : List Frame} {found : Match}
    (h : scan.close scanCapture cursor frame outer found = .error fault) : Allowed fault := by
  rcases bind_eq_error.mp h with hcaptures | ⟨stream, -, h⟩
  · exact produceCaptures_faults hscan hcaptures
  · simp at h

theorem apply_faults (hscan : scanCapture.FaultsIn Allowed) {rule : Rule} {found : Match}
    (h : scan.apply scanCapture cursor rule found = .error fault) : Allowed fault := by
  unfold apply at h
  dsimp only at h
  split at h
  · simp at h
  · rcases bind_eq_error.mp h with hcaptures | ⟨stream, -, h⟩
    · exact produceCaptures_faults hscan hcaptures
    · simp at h
  · rcases bind_eq_error.mp h with hcaptures | ⟨stream, -, h⟩
    · exact produceCaptures_faults hscan hcaptures
    · simp at h

theorem step_faults (hscan : scanCapture.FaultsIn Allowed)
    (hsearch : ∀ {rule unresolved}, scan.grammar.candidates rule = .error unresolved →
      Allowed (.unresolved unresolved))
    (h : scan.step scanCapture cursor = .error fault) : Allowed fault := by
  unfold step at h
  split at h
  · simp at h
  split at h
  · simp at h
  · split at h
    · next unresolved hfound =>
      cases throw_eq_error.mp h
      exact hsearch (findNext_eq_error hfound)
    · simp at h
    · rcases bind_eq_error.mp h with hclose | ⟨closed, -, h⟩
      · exact close_faults hscan hclose
      · simp at h
    · split at h
      · simp at h
      · rcases bind_eq_error.mp h with happly | ⟨applied, -, h⟩
        · exact apply_faults hscan happly
        · simp at h

theorem steps_faults (hscan : scanCapture.FaultsIn scan.grammar.Faults) {fuel : Nat}
    (h : scan.steps scanCapture fuel cursor = .error fault) : scan.grammar.Faults fault := by
  induction fuel generalizing cursor with
  | zero =>
      cases h
      exact .endless
  | succ fuel ih =>
      rw [steps] at h
      rcases bind_eq_error.mp h with hstep | ⟨stepped, -, h⟩
      · exact step_faults hscan .unresolved hstep
      · cases stepped with
        | none => simp at h
        | some next => exact ih h

theorem run_faults (hscan : scanCapture.FaultsIn scan.grammar.Faults)
    (h : scan.run scanCapture cursor = .error fault) : scan.grammar.Faults fault := by
  rcases bind_eq_error.mp h with hsteps | ⟨last, -, h⟩
  · exact steps_faults hscan hsteps
  · simp at h

theorem capture_faults (scan : Scan) (nesting : Nat) :
    (scan.capture nesting).FaultsIn scan.grammar.Faults := by
  induction nesting generalizing scan with
  | zero =>
      intro rule range scopes fault h
      cases h
      exact .endless
  | succ nesting ih =>
      intro rule range scopes fault h
      rw [capture] at h
      rcases bind_eq_error.mp h with hrun | ⟨last, -, h⟩
      · have hfault := run_faults (ih _) hrun
        exact hfault
      · simp at h

theorem wholeLine_faults {anchor : Option Nat} {scopes : ScopeStack} {frames : List Frame}
    (h : scan.wholeLine anchor scopes frames = .error fault) : scan.grammar.Faults fault :=
  run_faults (scan.capture_faults scan.nestingBound) h

end Scan

end ScopeLexer
