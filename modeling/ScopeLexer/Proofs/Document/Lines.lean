import ScopeLexer.Proofs.Line.Reconstruction

/-!
# Documents and their lines

The lines of a document with line feeds between them are the document, but for a line feed at its
end.  Its tokens rebuild it line by line, and since a line is tokenized in the state in front of it,
lines that follow never change what was found before.
-/

namespace ScopeLexer

open Outcome

def withoutFinalBreak (text : List Char) : List Char :=
  if text.getLast? == some '\n' then text.dropLast else text

theorem documentLines_eq (text : List Char) :
    documentLines text = (withoutFinalBreak text).splitOn '\n' := by
  rw [documentLines, withoutFinalBreak]
  split <;> rfl

/-- A line feed at the end would begin one more line. -/
theorem documentLines_prefix_splitOn (text : List Char) :
    documentLines text <+: text.splitOn '\n' := by
  rw [documentLines]
  split
  · next hbreak =>
    obtain ⟨before, rfl⟩ := List.getLast?_eq_some_iff.mp (eq_of_beq hbreak)
    rw [List.dropLast_concat, List.splitOn_append_cons_self]
    exact List.prefix_append _ _
  · exact List.prefix_refl _

theorem documentLines_append (first second : List Char) :
    documentLines first <+: documentLines (first ++ '\n' :: second) := by
  refine (documentLines_prefix_splitOn first).trans ?_
  cases second with
  | nil => simp [documentLines]
  | cons c second =>
      have hlast : (first ++ '\n' :: c :: second).getLast? = (c :: second).getLast? := by
        rw [List.getLast?_append_of_ne_nil _ (List.cons_ne_nil _ _), List.getLast?_cons_cons]
      have hdrop : (first ++ '\n' :: c :: second).dropLast =
          first ++ '\n' :: (c :: second).dropLast := by
        rw [List.dropLast_append_cons, List.dropLast_cons_cons]
      rw [documentLines, hlast, hdrop]
      split
      all_goals
        rw [List.splitOn_append_cons_self]
        exact List.prefix_append _ _

def Text.lines (text : Text) : List Text :=
  (documentLines text.toList).map fun line => ⟨line.toArray⟩

theorem Text.map_toList_lines (text : Text) :
    text.lines.map Text.toList = documentLines text.toList := by
  rw [lines, List.map_map]
  exact List.map_id _

theorem Text.lines_append (first second : Text) :
    first.lines <+: (⟨first.chars.push '\n' ++ second.chars⟩ : Text).lines := by
  have hchars : (⟨first.chars.push '\n' ++ second.chars⟩ : Text).toList =
      first.toList ++ '\n' :: second.toList := by
    simp [toList]
  rw [lines, lines, hchars]
  exact (documentLines_append first.toList second.toList).map _

namespace Grammar

variable {grammar : Grammar} {options : TokenizeOptions} {state next : State} {line : Text}
  {tokens : List Token} {lines : List Text} {result : List (Text × List Token)}

theorem values_of_tokenized (h : grammar.Tokenized options state line tokens next) :
    tokens.flatMap (·.value line) = line.toList := by
  rcases Nat.eq_zero_or_pos line.byteSize with hempty | hpos
  · obtain ⟨scopes, rfl⟩ := tokens_of_empty h hempty
    have hnil : line.toList = [] ++ [] ++ [] := byteLength_eq_zero.mp hempty
    have hvalue : (⟨0, 0, scopes⟩ : Token).value line = [] := Token.value_between hnil rfl rfl
    simp [hnil, hvalue]
  · exact (tiles_of_tokenized h hpos).flatMap_value (isBoundary_of_tokenized h hpos)
      (List.nil_append _).symm rfl

theorem tokenizeLines_values (h : grammar.tokenizeLines options state lines = .ok result) :
    result.map (fun entry => entry.2.flatMap (·.value entry.1)) = lines.map Text.toList := by
  induction lines generalizing state result with
  | nil =>
      cases h
      rfl
  | cons line lines ih =>
      obtain ⟨⟨tokens, next⟩, hline, h⟩ := bind_eq_ok.mp h
      obtain ⟨others, hothers, h⟩ := bind_eq_ok.mp h
      cases h
      have hvalues := values_of_tokenized (tokenized_of_tokenizeLine hline)
      simp only [List.map_cons, hvalues, ih hothers]

theorem tokenizeLines_append {before after : List Text}
    (h : grammar.tokenizeLines options state (before ++ after) = .ok result) :
    ∃ earlier, grammar.tokenizeLines options state before = .ok earlier ∧ earlier <+: result := by
  induction before generalizing state result with
  | nil => exact ⟨[], rfl, List.nil_prefix⟩
  | cons line before ih =>
      obtain ⟨⟨tokens, next⟩, hline, h⟩ := bind_eq_ok.mp h
      obtain ⟨others, hothers, h⟩ := bind_eq_ok.mp h
      cases h
      obtain ⟨earlier, hearlier, hprefix⟩ := ih hothers
      refine ⟨(line, tokens) :: earlier, ?_, (List.prefix_cons_inj _).mpr hprefix⟩
      rw [tokenizeLines, hline]
      simp only [bind, Except.bind, hearlier]
      rfl

/-- The texts of the tokens, joined line by line, are the document without a line feed at its end;
and a document that goes on behind a line feed begins with the lines and tokens of its beginning. -/
theorem tokenizeDocument_rebuilds_text (grammar : Grammar) (options : TokenizeOptions) :
    (∀ text result, grammar.tokenizeDocument options text = .ok result →
      List.intercalate ['\n'] (result.map fun entry => entry.2.flatMap (·.value entry.1)) =
        withoutFinalBreak text.toList) ∧
    (∀ (first second : Text) (result : List (Text × List Token)),
      grammar.tokenizeDocument options ⟨first.chars.push '\n' ++ second.chars⟩ = .ok result →
        ∃ earlier, grammar.tokenizeDocument options first = .ok earlier ∧ earlier <+: result) := by
  constructor
  · intro text result h
    have hlines : grammar.tokenizeLines options (.initial grammar) text.lines = .ok result := h
    rw [tokenizeLines_values hlines, text.map_toList_lines, documentLines_eq,
      List.intercalate_splitOn]
  · intro first second result h
    obtain ⟨after, hafter⟩ := first.lines_append second
    have hlines : grammar.tokenizeLines options (.initial grammar) (first.lines ++ after) =
        .ok result := hafter ▸ h
    exact tokenizeLines_append hlines

theorem quotes_document_rebuilt : ∃ result earlier,
    Quotes.grammar.tokenizeDocument {} (.ofString "x<a\n\nb a>\n") = .ok result ∧
    List.intercalate ['\n'] (result.map fun entry => entry.2.flatMap (·.value entry.1)) =
      "x<a\n\nb a>".toList ∧
    Quotes.grammar.tokenizeDocument {} (.ofString "x<a\n") = .ok earlier ∧
    earlier <+: result ∧ result.length = 3 := by
  obtain ⟨hrebuilds, happend⟩ := tokenizeDocument_rebuilds_text Quotes.grammar {}
  have hlength : (Quotes.grammar.tokenizeDocument {} (.ofString "x<a\n\nb a>\n")).map
      List.length = .ok 3 := by decide +kernel
  obtain ⟨result, hresult, hthree⟩ := map_eq_ok.mp hlength
  obtain ⟨earlier, hearlier, hprefix⟩ :=
    happend (.ofString "x<a\n") (.ofString "b a>\n") result hresult
  exact ⟨result, earlier, hresult, hrebuilds _ result hresult, hearlier, hprefix, hthree⟩

end Grammar

end ScopeLexer
