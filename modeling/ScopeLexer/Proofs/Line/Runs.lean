import ScopeLexer.Proofs.Line.Reachable
import ScopeLexer.Proofs.Scan.Spans
import ScopeLexer.Proofs.Token.Runs

/-!
# Merged and cut lines

The scan of a line decides on the scopes of its bytes and on the next state.  Whether neighbours are
merged and where the line ends are questions of its tokens only: merged tokens are the runs of the
bytes, and a line feed adds one byte that is cut off again.
-/

namespace ScopeLexer

open Outcome Scan

namespace Grammar

variable {grammar : Grammar} {options : TokenizeOptions} {state : State} {line : Text}

theorem merged_scopes_of_scanLine {cursor : Cursor} (h : grammar.scanLine state line = .ok cursor)
    (byte : Nat) :
    scopesAt? (cursor.stream.finish line.byteSize true cursor.scopes.toList) byte =
      scopesAt? (cursor.stream.finish line.byteSize false cursor.scopes.toList) byte := by
  obtain ⟨hspans, hend⟩ := wholeLine_spans h
  rcases Nat.eq_zero_or_pos line.byteSize with hempty | hpos
  · simp [TokenStream.finish, hempty]
  · have hle := Nat.le_trans line.byteSize_le_endLine hend
    rw [← TokenStream.mergeTokens_finish]
    exact scopesAt?_mergeTokens (TokenStream.tiles_finish hspans.stream.tiles hpos hle _ _) byte

theorem tokenizeLine_merging (grammar : Grammar) (options : TokenizeOptions) (state : State)
    (line : Text) :
    Related (fun merged plain => merged.1 = mergeTokens plain.1 ∧ merged.2 = plain.2 ∧
        ∀ byte, scopesAt? merged.1 byte = scopesAt? plain.1 byte)
      (grammar.tokenizeLine { options with mergeAdjacent := true } state line)
      (grammar.tokenizeLine { options with mergeAdjacent := false } state line) := by
  have hskips (merge : Bool) :
      ({ options with mergeAdjacent := merge } : TokenizeOptions).skips line =
        options.skips line := rfl
  cases hlong : options.skips line with
  | true =>
      rw [tokenizeLine_of_skips ((hskips _).trans hlong),
        tokenizeLine_of_skips ((hskips _).trans hlong)]
      exact .succeeded ⟨rfl, rfl, fun _ => rfl⟩
  | false =>
      rw [tokenizeLine_of_scans ((hskips _).trans hlong),
        tokenizeLine_of_scans ((hskips _).trans hlong)]
      cases hcursor : grammar.scanLine state line with
      | error fault => exact .failed fault
      | ok cursor =>
          refine .succeeded ⟨?_, rfl, merged_scopes_of_scanLine hcursor⟩
          exact (TokenStream.mergeTokens_finish ..).symm

/-- A line feed behind a line changes neither its outcome nor the state behind it, and its tokens
are those with the line feed, cut at the end of the line.  An empty line has one token anyway. -/
theorem tokenizeLine_push_newline (grammar : Grammar) (options : TokenizeOptions) (state : State)
    (line : Text) (hline : line.toList.getLast? ≠ some '\n')
    (hlimit : options.maxLineLength = none) :
    Related (fun plain fed => plain.2 = fed.2 ∧
        (line.toList ≠ [] → CutAt line.byteSize fed.1 plain.1))
      (grammar.tokenizeLine options state line)
      (grammar.tokenizeLine options state ⟨line.chars.push '\n'⟩) := by
  have hskips (text : Text) : options.skips text = false := by
    simp [TokenizeOptions.skips, hlimit]
  have hended : line.endLine = ⟨line.chars.push '\n'⟩ := Text.endLine_of_getLast? hline
  have hsame : (⟨line.chars.push '\n'⟩ : Text).endLine = line.endLine := by
    rw [hended, Text.endLine_push_newline]
  rw [tokenizeLine_of_scans (hskips _), tokenizeLine_of_scans (hskips _)]
  have hscan : grammar.scanLine state ⟨line.chars.push '\n'⟩ = grammar.scanLine state line := by
    simp only [scanLine, scanOf, hsame]
  rw [hscan]
  cases hcursor : grammar.scanLine state line with
  | error fault => exact .failed fault
  | ok cursor =>
      refine .succeeded ⟨rfl, fun hne => ?_⟩
      obtain ⟨hspans, hend⟩ := wholeLine_spans hcursor
      rw [← hended]
      exact TokenStream.cutAt_finish hspans.stream.tiles (byteLength_pos hne)
        line.byteSize_le_endLine hend _ _ _

theorem quotes_line_cut : ∃ plain fed next,
    Quotes.grammar.tokenizeLine {} (.initial Quotes.grammar) (.ofString "x<ay") =
      .ok (plain, next) ∧
    Quotes.grammar.tokenizeLine {} (.initial Quotes.grammar) (.ofString "x<ay\n") =
      .ok (fed, next) ∧
    CutAt 4 fed plain ∧ plain.getLast? = some ⟨3, 4, ["source", "quote", "text"]⟩ := by
  have hrelated := tokenizeLine_push_newline Quotes.grammar {} (.initial Quotes.grammar)
    (.ofString "x<ay") (by decide) rfl
  have htokens : (Quotes.grammar.tokenizeLine {} (.initial Quotes.grammar)
      (.ofString "x<ay")).map (·.1.getLast?) =
        .ok (some ⟨3, 4, ["source", "quote", "text"]⟩) := by decide +kernel
  obtain ⟨⟨plain, next⟩, hplain, hlast⟩ := map_eq_ok.mp htokens
  rw [hplain] at hrelated
  generalize hfed : Quotes.grammar.tokenizeLine {} (.initial Quotes.grammar) _ = outcome
    at hrelated
  obtain _ | ⟨hnext, hcut⟩ := hrelated
  obtain rfl : next = _ := hnext
  exact ⟨plain, _, _, hplain, hfed, hcut (by decide), hlast⟩

end Grammar

namespace TokenStream

/-- A stream after any calls covers the text from its start to the greatest position it was given,
with the scopes of the first call that reaches behind a byte.  The tokens of a line that it covers
leave these scopes alone; merged, they are the runs of the line, and merging the others gives them.
So merging changes neither the scopes of a byte of a line nor the state behind it. -/
theorem first_call_gives_scopes (start : Nat) (calls : List (Nat × List Scope)) :
    let stream := TokenStream.collect { position := start } calls
    Tiles start stream.position stream.tokens ∧
    (start :: calls.map (·.1)).max? = some stream.position ∧
    (∀ byte, start ≤ byte → scopesAt? stream.tokens byte =
      (calls.find? fun call => byte < call.1).map (·.2)) ∧
    (start = 0 → ∀ length scopes, 0 < length → length ≤ stream.position →
      (∀ merge, Tiles 0 length (stream.finish length merge scopes) ∧
        ∀ byte, byte < length →
          scopesAt? (stream.finish length merge scopes) byte = scopesAt? stream.tokens byte) ∧
      (∀ tokens, Runs 0 length (scopesAt? stream.tokens) tokens ↔
        tokens = stream.finish length true scopes) ∧
      mergeTokens (stream.finish length false scopes) = stream.finish length true scopes) ∧
    ∀ (grammar : Grammar) (options : TokenizeOptions) (state : State) (line : Text),
      Related (fun merged plain => merged.1 = mergeTokens plain.1 ∧ merged.2 = plain.2 ∧
          ∀ byte, scopesAt? merged.1 byte = scopesAt? plain.1 byte)
        (grammar.tokenizeLine { options with mergeAdjacent := true } state line)
        (grammar.tokenizeLine { options with mergeAdjacent := false } state line) := by
  intro stream
  have hempty : Tiles start start [] := rfl
  have htiles : Tiles start stream.position stream.tokens := tiles_collect hempty calls
  refine ⟨htiles, position_collect { position := start } calls,
    fun byte hle => scopesAt?_collect hempty hle calls, ?finished, Grammar.tokenizeLine_merging⟩
  case finished =>
    rintro rfl length scopes hpos hle
    refine ⟨fun merge => ⟨tiles_finish htiles hpos hle merge scopes, fun byte hbyte =>
      scopesAt?_finish htiles hle merge scopes hbyte⟩, fun tokens => ?_,
      mergeTokens_finish stream length scopes⟩
    have hruns := runs_finish htiles hpos hle scopes
    constructor
    · exact fun htokens => htokens.unique hruns
    · rintro rfl
      exact hruns

theorem first_call_gives_scopes_back_and_forth :
    let stream := collect { position := 0 } [(2, ["a"]), (1, ["b"]), (3, ["a"]), (5, ["b"])]
    scopesAt? stream.tokens 1 = some ["a"] ∧
    Runs 0 4 (scopesAt? stream.tokens) [⟨0, 3, ["a"]⟩, ⟨3, 4, ["b"]⟩] := by
  intro stream
  obtain ⟨-, -, hscopes, hfinished, -⟩ := first_call_gives_scopes 0
    [(2, ["a"]), (1, ["b"]), (3, ["a"]), (5, ["b"])]
  obtain ⟨-, hruns, -⟩ := hfinished rfl 4 [] (by decide) (by decide)
  exact ⟨hscopes 1 (by decide), (hruns _).mpr rfl⟩

end TokenStream

end ScopeLexer
