import Mathlib.Control.Monad.Basic
import ScopeLexer.Proofs.Grammar.References
import ScopeLexer.Proofs.Line.Reachable
import ScopeLexer.Proofs.Scan.Faults

/-!
# Why a line has no tokens

A line only fails with a reference that its grammar cannot resolve, as some rule of the definition
writes it.  A grammar whose references were checked has tokens for every line.
-/

namespace ScopeLexer.Grammar

open Outcome

variable {definition : GrammarDefinition} {grammar : Grammar} {options : TokenizeOptions}
  {state : State} {line : Text} {fault : ScanFault}

theorem tokenizeLine_faults (h : grammar.tokenizeLine options state line = .error fault) :
    grammar.Faults fault :=
  Scan.wholeLine_faults (scanLine_of_tokenizeLine_error h)

theorem written_of_candidates (hgrammar : ofDefinition definition = .ok grammar) {rule : RuleId}
    {unresolved : Unresolved} (h : grammar.candidates rule = .error unresolved) :
    ∃ rule, definition.Contains rule ∧ rule.reference = some unresolved.reference.text :=
  writtenIn_of_mem_patternLists hgrammar (candidates_eq_error h).2

/-- After a check nothing fails.  Without one, what fails is a reference, and it is reported as some
rule of the definition writes it. -/
theorem only_references_fail (hgrammar : ofDefinition definition = .ok grammar) :
    (grammar.checkReferences = .ok () →
      (∀ rule, ∃ candidates, grammar.candidates rule = .ok candidates) ∧
      ∀ options state line, grammar.tokenizeLine options state line ≠ .error .endless →
        ∃ tokens next, grammar.tokenizeLine options state line = .ok (tokens, next)) ∧
    (∀ rule unresolved, grammar.candidates rule = .error unresolved →
      ∃ rule, definition.Contains rule ∧ rule.reference = some unresolved.reference.text) ∧
    (∀ options state line fault, grammar.tokenizeLine options state line = .error fault →
      fault ≠ .endless →
        ∃ unresolved rule, fault = .unresolved unresolved ∧ definition.Contains rule ∧
          rule.reference = some unresolved.reference.text) ∧
    (∀ text repository, (Reference.ofText text repository).text = text) := by
  refine ⟨fun hcheck => ⟨candidates_of_checkReferences hcheck, ?checked⟩,
    fun _ _ => written_of_candidates hgrammar, ?reported, Reference.text_ofText⟩
  case checked =>
    intro options state line hends
    cases hline : grammar.tokenizeLine options state line with
    | ok result => exact ⟨result.1, result.2, rfl⟩
    | error fault =>
        cases tokenizeLine_faults hline with
        | endless => exact absurd hline hends
        | @unresolved rule unresolved hcandidates =>
            obtain ⟨candidates, hok⟩ := candidates_of_checkReferences hcheck rule
            rw [hok] at hcandidates
            contradiction
  case reported =>
    intro options state line fault hline hends
    cases tokenizeLine_faults hline with
    | endless => exact absurd rfl hends
    | unresolved hcandidates =>
        obtain ⟨rule, hrule, hreference⟩ := written_of_candidates hgrammar hcandidates
        exact ⟨_, rule, rfl, hrule, hreference⟩

def dangling : GrammarDefinition where
  scopeName := "source"
  patterns := [{ reference := some "#missing" }]

def danglingGrammar : Grammar := (ofDefinition dangling).toOption.getD default

theorem quotes_and_dangling_references :
    (∃ tokens next, Quotes.grammar.tokenizeLine {} (Quotes.after "x<ay") (.ofString "za>") =
      .ok (tokens, next)) ∧
    ∃ unresolved rule, danglingGrammar.tokenizeLine {} (.initial danglingGrammar) (.ofString "a") =
      .error (.unresolved unresolved) ∧ dangling.Contains rule ∧
        rule.reference = some unresolved.reference.text := by
  constructor
  · obtain ⟨hchecked, -⟩ := only_references_fail Quotes.ofDefinition_definition
    obtain ⟨-, hline⟩ := hchecked (by decide +kernel)
    refine hline {} _ _ fun hends => ?_
    have hok : ((Quotes.grammar.tokenizeLine {} (Quotes.after "x<ay")
      (.ofString "za>")).toOption.isSome) = true := by decide +kernel
    rw [hends] at hok
    contradiction
  · have hgrammar : ofDefinition dangling = .ok danglingGrammar := rfl
    have hfails : (danglingGrammar.tokenizeLine {} (.initial danglingGrammar)
        (.ofString "a")).map (·.1) = .error (.unresolved ⟨.entry 0 "missing"⟩) := by decide +kernel
    have hline := map_eq_error.mp hfails
    obtain ⟨-, -, hreported, -⟩ := only_references_fail hgrammar
    obtain ⟨unresolved, rule, hfault, hrule, hreference⟩ :=
      hreported {} _ _ _ hline (by decide)
    exact ⟨unresolved, rule, hline.trans (congrArg _ hfault), hrule, hreference⟩

end ScopeLexer.Grammar
