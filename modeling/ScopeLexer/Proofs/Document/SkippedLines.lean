import ScopeLexer.Proofs.State.Equivalence

/-!
# Lines that are skipped

A line that is too long is only counted.  Of the count it only matters whether it is zero, so a
skipped line that is not the first of its document leaves all other lines as they are, and the state
behind them has counted one line more.
-/

namespace ScopeLexer

open Outcome

def State.later (state : State) : State := { state with lines := state.lines + 1 }

namespace Grammar

/-- The state behind lines, each tokenized with options of its own, unless one of them fails. -/
def behind (grammar : Grammar) :
    State → List (TokenizeOptions × Text) → Except ScanFault State
  | state, [] => .ok state
  | state, (options, line) :: lines => do
      let (_, next) ← grammar.tokenizeLine options state line
      grammar.behind next lines

variable {grammar : Grammar} {options : TokenizeOptions} {state next : State} {line : Text}
  {tokens : List Token} {lines before after : List (TokenizeOptions × Text)} {fault : ScanFault}

theorem lines_ne_zero_of_tokenizeLine
    (h : grammar.tokenizeLine options state line = .ok (tokens, next)) : next.lines ≠ 0 := by
  cases tokenized_of_tokenizeLine h with
  | skipped hskips => exact Nat.succ_ne_zero _
  | scanned hscans hcursor => exact Nat.succ_ne_zero _

theorem tokenizeLine_skipped {limit : Nat} (hlimit : options.maxLineLength = some limit)
    (hlong : limit < line.byteSize) :
    grammar.tokenizeLine options state line =
      .ok ([⟨0, line.byteSize, state.scopes.toList⟩], state.later) := by
  have hskips : options.skips line = true := by simp [TokenizeOptions.skips, hlimit, hlong]
  exact tokenizeLine_of_skips hskips

/-! ## Behind a line that was counted once more -/

theorem scanLine_later (h : state.lines ≠ 0) :
    grammar.scanLine state.later line = grammar.scanLine state line := by
  have hfirst : (state.later.lines == 0) = (state.lines == 0) := by simp [State.later, h]
  have hscan : grammar.scanOf state.later line = grammar.scanOf state line := by
    rw [scanOf, scanOf, hfirst]
  rw [scanLine, scanLine, hscan]
  rfl

theorem tokenizeLine_later (h : state.lines ≠ 0) (options : TokenizeOptions) (line : Text) :
    grammar.tokenizeLine options state.later line =
      (grammar.tokenizeLine options state line).map fun (tokens, next) => (tokens, next.later) := by
  cases hskips : options.skips line with
  | true =>
      rw [tokenizeLine_of_skips hskips, tokenizeLine_of_skips hskips]
      rfl
  | false =>
      rw [tokenizeLine_of_scans hskips, tokenizeLine_of_scans hskips, scanLine_later h]
      cases grammar.scanLine state line <;> rfl

theorem outcomes_later (h : state.lines ≠ 0) (lines : List (TokenizeOptions × Text)) :
    grammar.outcomes state.later lines = grammar.outcomes state lines := by
  induction lines generalizing state with
  | nil => rfl
  | cons entry lines ih =>
      obtain ⟨options, line⟩ := entry
      rw [outcomes, outcomes, tokenizeLine_later h]
      cases hline : grammar.tokenizeLine options state line with
      | error fault => rfl
      | ok result =>
          obtain ⟨tokens, next⟩ := result
          exact congrArg _ (ih (lines_ne_zero_of_tokenizeLine hline))

theorem behind_later (h : state.lines ≠ 0) (lines : List (TokenizeOptions × Text)) :
    grammar.behind state.later lines = (grammar.behind state lines).map State.later := by
  induction lines generalizing state with
  | nil => rfl
  | cons entry lines ih =>
      obtain ⟨options, line⟩ := entry
      rw [behind, behind, tokenizeLine_later h]
      cases hline : grammar.tokenizeLine options state line with
      | error fault => rfl
      | ok result =>
          obtain ⟨tokens, next⟩ := result
          exact ih (lines_ne_zero_of_tokenizeLine hline)

/-! ## Lines after others -/

theorem behind_append (lines : List (TokenizeOptions × Text)) :
    grammar.behind state (before ++ lines) =
      grammar.behind state before >>= fun middle => grammar.behind middle lines := by
  induction before generalizing state with
  | nil => rfl
  | cons entry before ih =>
      obtain ⟨options, line⟩ := entry
      rw [List.cons_append, behind, behind]
      cases grammar.tokenizeLine options state line with
      | error fault => rfl
      | ok result => exact ih

theorem outcomes_append_of_ok (h : grammar.behind state before = .ok next)
    (lines : List (TokenizeOptions × Text)) :
    grammar.outcomes state (before ++ lines) =
      grammar.outcomes state before ++ grammar.outcomes next lines := by
  induction before generalizing state with
  | nil =>
      cases h
      rfl
  | cons entry before ih =>
      obtain ⟨options, line⟩ := entry
      obtain ⟨⟨tokens, middle⟩, hline, hbefore⟩ := bind_eq_ok.mp h
      rw [List.cons_append, outcomes, outcomes, hline]
      exact congrArg _ (ih hbefore)

theorem outcomes_append_of_error (h : grammar.behind state before = .error fault)
    (lines : List (TokenizeOptions × Text)) :
    grammar.outcomes state (before ++ lines) = grammar.outcomes state before := by
  induction before generalizing state with
  | nil => contradiction
  | cons entry before ih =>
      obtain ⟨options, line⟩ := entry
      rw [List.cons_append, outcomes, outcomes]
      rcases bind_eq_error.mp h with hline | ⟨⟨tokens, middle⟩, hline, hbefore⟩
      · rw [hline]
      · rw [hline]
        exact congrArg _ (ih hbefore)

theorem lines_ne_zero_of_behind (hne : before ≠ []) (h : grammar.behind state before = .ok next) :
    next.lines ≠ 0 := by
  obtain ⟨lines, ⟨options, line⟩, rfl⟩ := (List.eq_nil_or_concat' before).resolve_left hne
  rw [behind_append] at h
  obtain ⟨middle, -, hlast⟩ := bind_eq_ok.mp h
  obtain ⟨⟨tokens, last⟩, hline, hend⟩ := bind_eq_ok.mp hlast
  cases hend
  exact lines_ne_zero_of_tokenizeLine hline

/-- A line that is too long, put between other lines, is one token with the scopes open in front of
it.  All other lines have the outcome they have without it, and the state behind the last differs
only in that one line more is counted. -/
theorem skipped_line_is_invisible {limit : Nat} (hlimit : options.maxLineLength = some limit)
    (hlong : limit < line.byteSize) (hne : before ≠ []) (start : State)
    (after : List (TokenizeOptions × Text)) :
    (∀ state, grammar.behind start before = .ok state →
      grammar.outcomes start (before ++ after) =
        grammar.outcomes start before ++ grammar.outcomes state after ∧
      grammar.outcomes start (before ++ (options, line) :: after) =
        grammar.outcomes start before ++
          .ok [⟨0, line.byteSize, state.scopes.toList⟩] :: grammar.outcomes state after) ∧
    (∀ fault, grammar.behind start before = .error fault →
      grammar.outcomes start (before ++ after) = grammar.outcomes start before ∧
      grammar.outcomes start (before ++ (options, line) :: after) =
        grammar.outcomes start before) ∧
    grammar.behind start (before ++ (options, line) :: after) =
      (grammar.behind start (before ++ after)).map State.later := by
  have hskipped : ∀ state, grammar.tokenizeLine options state line =
      .ok ([⟨0, line.byteSize, state.scopes.toList⟩], state.later) :=
    fun _ => tokenizeLine_skipped hlimit hlong
  refine ⟨fun state hstate => ⟨outcomes_append_of_ok hstate after, ?inserted⟩,
    fun fault hfault => ⟨outcomes_append_of_error hfault _, outcomes_append_of_error hfault _⟩,
    ?last⟩
  case inserted =>
    have hlines := lines_ne_zero_of_behind hne hstate
    rw [outcomes_append_of_ok hstate, outcomes, hskipped, ← outcomes_later hlines]
  case last =>
    rw [behind_append, behind_append]
    cases hstate : grammar.behind start before with
    | error fault => rfl
    | ok state =>
        have hlines := lines_ne_zero_of_behind hne hstate
        have hbehind : grammar.behind state.later after = _ := behind_later hlines after
        change (grammar.tokenizeLine options state line >>= _) = _
        rw [hskipped]
        exact hbehind

theorem quotes_behind_first {line : String}
    (h : (Quotes.grammar.tokenizeLine {} (.initial Quotes.grammar)
      (.ofString line)).toOption.isSome = true) :
    Quotes.grammar.behind (.initial Quotes.grammar) [({}, .ofString line)] =
      .ok (Quotes.after line) := by
  rw [behind, Quotes.after]
  cases hline : Quotes.grammar.tokenizeLine {} (.initial Quotes.grammar) (.ofString line) with
  | error fault =>
      rw [hline] at h
      contradiction
  | ok result => rfl

theorem quote_over_skipped_line :
    Quotes.grammar.outcomes (.initial Quotes.grammar)
        [({}, .ofString "<a"), ({ maxLineLength := some 3 }, .ofString "a>a>"),
          ({}, .ofString "a>")] =
      [.ok [⟨0, 1, ["source", "quote"]⟩, ⟨1, 2, ["source", "quote", "mark"]⟩],
        .ok [⟨0, 4, ["source", "quote", "text"]⟩], .ok [⟨0, 2, ["source", "quote"]⟩]] ∧
    Quotes.grammar.outcomes (.initial Quotes.grammar)
        [({}, .ofString "<a"), ({}, .ofString "a>")] =
      [.ok [⟨0, 1, ["source", "quote"]⟩, ⟨1, 2, ["source", "quote", "mark"]⟩],
        .ok [⟨0, 2, ["source", "quote"]⟩]] := by
  obtain ⟨hpasses, -, -⟩ := @skipped_line_is_invisible Quotes.grammar
    { maxLineLength := some 3 } (.ofString "a>a>") [({}, .ofString "<a")] 3 rfl (by decide)
    (by decide) (.initial Quotes.grammar) [({}, .ofString "a>")]
  have hopen : Quotes.grammar.behind (.initial Quotes.grammar) [({}, .ofString "<a")] =
      .ok (Quotes.after "<a") := quotes_behind_first (by decide +kernel)
  have hbefore : Quotes.grammar.outcomes (.initial Quotes.grammar) [({}, .ofString "<a")] =
      [.ok [⟨0, 1, ["source", "quote"]⟩, ⟨1, 2, ["source", "quote", "mark"]⟩]] := by decide +kernel
  have hafter : Quotes.grammar.outcomes (Quotes.after "<a") [({}, .ofString "a>")] =
      [.ok [⟨0, 2, ["source", "quote"]⟩]] := by decide +kernel
  have hscopes : (Quotes.after "<a").scopes.toList = ["source", "quote", "text"] := by
    decide +kernel
  obtain ⟨hwithout, hwith⟩ := hpasses _ hopen
  rw [hbefore, hafter, hscopes] at hwith
  rw [hbefore, hafter] at hwithout
  exact ⟨hwith, hwithout⟩

end Grammar

end ScopeLexer
