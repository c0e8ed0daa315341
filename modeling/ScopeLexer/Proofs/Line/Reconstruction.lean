import ScopeLexer.Proofs.Line.Reachable
import ScopeLexer.Proofs.Scan.Spans

/-!
# Tokens rebuild their line

The tokens of a line cover it from its start to its end, so their texts behind one another are the
line, and each carries the root scope of the grammar.  This holds for every grammar and every
reachable state; of a search it only takes that it reports positions between characters, in whatever
order they are.
-/

namespace ScopeLexer.Grammar

open Outcome Scan

variable {grammar : Grammar} {options : TokenizeOptions} {state next : State} {line : Text}
  {tokens : List Token}

theorem root_of_tokenized (h : grammar.Tokenized options state line tokens next) :
    next.scopes.root = state.scopes.root := by
  cases h with
  | skipped hskips => rfl
  | scanned hscans hcursor => exact (wholeLine_spans hcursor).1.rooted

theorem Reachable.root_scopes (h : grammar.Reachable state) :
    state.scopes.root = grammar.scopeName := by
  induction h with
  | initial => rfl
  | line _ hline ih => exact (root_of_tokenized (tokenized_of_tokenizeLine hline)).trans ih

theorem byteSize_pos_of_skips (h : options.skips line = true) : 0 < line.byteSize := by
  unfold TokenizeOptions.skips at h
  cases hlimit : options.maxLineLength with
  | none => simp [hlimit] at h
  | some limit =>
      simp only [hlimit, Option.any_some, decide_eq_true_eq] at h
      omega

theorem tiles_of_tokenized (h : grammar.Tokenized options state line tokens next)
    (hpos : 0 < line.byteSize) : Tiles 0 line.byteSize tokens := by
  cases h with
  | skipped hskips => exact ⟨rfl, hpos, rfl⟩
  | scanned hscans hcursor =>
      obtain ⟨hspans, hend⟩ := wholeLine_spans hcursor
      exact TokenStream.tiles_finish hspans.stream.tiles hpos
        (Nat.le_trans line.byteSize_le_endLine hend) _ _

/-- Tokens end between characters, also where a span was cut at the end of the line. -/
theorem isBoundary_of_tokenized (h : grammar.Tokenized options state line tokens next)
    (hpos : 0 < line.byteSize) : ∀ token ∈ tokens, line.IsBoundary token.stop := by
  intro token htoken
  cases h with
  | skipped hskips =>
      rw [List.mem_singleton.mp htoken]
      exact line.isBoundary_byteSize
  | scanned hscans hcursor =>
      obtain ⟨hspans, -⟩ := wholeLine_spans hcursor
      obtain ⟨whole, hwhole, -, hstop⟩ := TokenStream.mem_finish hpos htoken
      rcases hstop with hstop | ⟨hstop, hle⟩
      · rw [hstop]
        exact line.isBoundary_byteSize
      · rw [hstop]
        exact (hspans.stream.tokens whole hwhole).stop.of_endLine hle

theorem scopes_head_of_tokenized (h : grammar.Tokenized options state line tokens next) :
    ∀ token ∈ tokens, token.scopes.head? = some state.scopes.root := by
  intro token htoken
  cases h with
  | skipped hskips =>
      rw [List.mem_singleton.mp htoken]
      rfl
  | scanned hscans hcursor =>
      obtain ⟨hspans, -⟩ := wholeLine_spans hcursor
      rcases Nat.eq_zero_or_pos line.byteSize with hempty | hpos
      · simp only [TokenStream.finish, hempty, beq_self_eq_true, if_true,
          List.mem_singleton] at htoken
        rw [htoken]
        exact congrArg some hspans.rooted
      · obtain ⟨whole, hwhole, hscopes, -⟩ := TokenStream.mem_finish hpos htoken
        obtain ⟨rest, hrest⟩ := (hspans.stream.tokens whole hwhole).scopes
        rw [hscopes, ← hrest]
        rfl

theorem scopesAlternate_of_tokenized (h : grammar.Tokenized options state line tokens next)
    (hmerge : options.mergeAdjacent = true) : ScopesAlternate tokens := by
  cases h with
  | skipped hskips => exact List.isChain_singleton _
  | scanned hscans hcursor =>
      obtain ⟨hspans, hend⟩ := wholeLine_spans hcursor
      rcases Nat.eq_zero_or_pos line.byteSize with hempty | hpos
      · simp only [TokenStream.finish, hempty, beq_self_eq_true, if_true]
        exact List.isChain_singleton _
      · rw [hmerge]
        exact TokenStream.scopesAlternate_finish hspans.stream.tiles hpos
          (Nat.le_trans line.byteSize_le_endLine hend) _

theorem tokens_of_empty (h : grammar.Tokenized options state line tokens next)
    (hempty : line.byteSize = 0) : ∃ scopes, tokens = [⟨0, 0, scopes⟩] := by
  cases h with
  | skipped hskips => exact absurd (byteSize_pos_of_skips hskips) (by omega)
  | @scanned cursor hscans hcursor =>
      exact ⟨cursor.scopes.toList, by simp [TokenStream.finish, hempty]⟩

/-- The tokens of a line are spans without gaps from its start to its end, none of them empty, whose
texts are the line; an empty line has one empty token.  All of them begin with the scope of the
grammar, and merged neighbours differ in their scopes. -/
theorem tokenizeLine_rebuilds_line (hstate : grammar.Reachable state)
    (hline : grammar.tokenizeLine options state line = .ok (tokens, next)) :
    (line.toList ≠ [] → Tiles 0 line.byteSize tokens) ∧
    (line.toList = [] → ∃ scopes, tokens = [⟨0, 0, scopes⟩]) ∧
    tokens.flatMap (·.value line) = line.toList ∧
    (∀ token ∈ tokens, token.scopes.head? = some grammar.scopeName) ∧
    (options.mergeAdjacent = true → ScopesAlternate tokens) := by
  have htokenized := tokenized_of_tokenizeLine hline
  refine ⟨?tiles, ?empty, ?values, ?root, scopesAlternate_of_tokenized htokenized⟩
  case tiles =>
    intro hne
    exact tiles_of_tokenized htokenized (byteLength_pos hne)
  case empty =>
    intro hnil
    exact tokens_of_empty htokenized (byteLength_eq_zero.mpr hnil)
  case values =>
    rcases Nat.eq_zero_or_pos line.byteSize with hempty | hpos
    · obtain ⟨scopes, rfl⟩ := tokens_of_empty htokenized hempty
      have hnil : line.toList = [] ++ [] ++ [] := byteLength_eq_zero.mp hempty
      have hvalue : (⟨0, 0, scopes⟩ : Token).value line = [] :=
        Token.value_between hnil rfl rfl
      simp [hnil, hvalue]
    · exact (tiles_of_tokenized htokenized hpos).flatMap_value
        (isBoundary_of_tokenized htokenized hpos) (List.nil_append _).symm rfl
  case root =>
    rw [← hstate.root_scopes]
    exact scopes_head_of_tokenized htokenized

theorem quotes_line_rebuilt : ∃ tokens next,
    Quotes.grammar.tokenizeLine {} (.initial Quotes.grammar) (.ofString "x<ay") =
      .ok (tokens, next) ∧
    Tiles 0 4 tokens ∧ tokens.flatMap (·.value (.ofString "x<ay")) = ['x', '<', 'a', 'y'] ∧
    (∀ token ∈ tokens, token.scopes.head? = some "source") ∧ ScopesAlternate tokens := by
  have htokens : (Quotes.grammar.tokenizeLine {} (.initial Quotes.grammar)
      (.ofString "x<ay")).map (·.1) =
        .ok [⟨0, 1, ["source"]⟩, ⟨1, 2, ["source", "quote"]⟩, ⟨2, 3, ["source", "quote", "mark"]⟩,
          ⟨3, 4, ["source", "quote", "text"]⟩] := by decide +kernel
  obtain ⟨⟨tokens, next⟩, hline, -⟩ := map_eq_ok.mp htokens
  obtain ⟨htiles, -, hvalues, hroot, halternate⟩ := tokenizeLine_rebuilds_line .initial hline
  exact ⟨tokens, next, hline, htiles (by decide), hvalues, hroot, halternate rfl⟩

end ScopeLexer.Grammar
