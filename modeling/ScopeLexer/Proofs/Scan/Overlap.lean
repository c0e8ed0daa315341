import ScopeLexer.Proofs.Scan.Captures

/-!
# Captured groups that overlap

A look-ahead may set groups that overlap those behind it.  A group that begins before an earlier one
is over is taken to lie within that one: its text has the scopes of both to its own end, even where
it goes on behind the earlier group.  `Capture.Stacks` says which captures a byte has its scopes
from; all of them have the byte when no group goes on so.
-/

namespace ScopeLexer

open Regex Outcome

/-! ## Groups on top of one another -/

namespace Capture

def ReachesInto (found : Match) (outer inner : Capture) : Prop :=
  ∀ range ∈ capturedRange? found outer.group, ∀ later ∈ capturedRange? found inner.group,
    later.start < range.stop

/-- Captures on top of one another at a byte, the outermost first: all of them have begun, each
before the one below it was over, and the uppermost has the byte. -/
structure Stacks (found : Match) (byte : Nat) (stack : List Capture) : Prop where
  begun : ∀ capture ∈ stack, ∃ range ∈ capturedRange? found capture.group, range.start ≤ byte
  reaches : stack.IsChain (ReachesInto found)
  uppermost : ∀ capture ∈ stack.getLast?, capture.covers found byte

end Capture

/-- No captured group that begins before one with a smaller number is over goes on behind it. -/
def Regex.Match.ClosesInOrder (found : Match) (captures : List Capture) : Prop :=
  captures.Pairwise fun first second =>
    ∀ range ∈ capturedRange? found first.group, ∀ later ∈ capturedRange? found second.group,
      range.stop ≤ later.start ∨ later.stop ≤ range.stop

def StackedScopes (line : Text) (found : Match) (scopes : ScopeStack) (captures : List Capture)
    (byte : Nat) (given : List Scope) : Prop :=
  ∃ stack, stack.Sublist captures ∧ Capture.Stacks found byte stack ∧
    given = scopes.toList ++ stack.flatMap (·.names line found)

section

variable {line : Text} {found : Match} {scopes : ScopeStack} {captures stack : List Capture}
  {byte : Nat}

theorem Capture.Stacks.nil : Capture.Stacks found byte [] :=
  ⟨by simp, List.isChain_nil, by simp⟩

theorem Capture.Stacks.covers (h : Capture.Stacks found byte stack)
    (hcloses : found.ClosesInOrder stack) : ∀ capture ∈ stack, capture.covers found byte := by
  induction stack with
  | nil => simp
  | cons outer stack ih =>
      obtain ⟨hbegun, hothersBegun⟩ := List.forall_mem_cons.mp h.begun
      obtain ⟨hcloses, hothersClose⟩ := List.pairwise_cons.mp hcloses
      cases stack with
      | nil =>
          intro capture hcapture
          rw [List.mem_singleton.mp hcapture]
          exact h.uppermost outer rfl
      | cons inner stack =>
          obtain ⟨hreaches, hothersReach⟩ := List.isChain_cons_cons.mp h.reaches
          have hothers := ih ⟨hothersBegun, hothersReach, by simpa using h.uppermost⟩ hothersClose
          refine List.forall_mem_cons.mpr ⟨?_, hothers⟩
          obtain ⟨range, hrange, hstart⟩ := hbegun
          obtain ⟨later, hlater, -⟩ := hothersBegun inner (by simp)
          have hinner := (Capture.covers_iff hlater).mp (hothers inner (by simp))
          have hreaches := hreaches range hrange later hlater
          have hcloses := hcloses inner (by simp) range hrange later hlater
          exact (Capture.covers_iff hrange).mpr ⟨hstart, by omega⟩

theorem StackedScopes.outside : StackedScopes line found scopes captures byte scopes.toList :=
  ⟨[], List.nil_sublist _, .nil, by simp⟩

end

/-! ## Open captures -/

/-- An open capture has its scopes from captures on top of one another, of which it is the
uppermost.  All of them have begun at the position. -/
structure OpenedOn (line : Text) (found : Match) (scopes : ScopeStack) (earlier : List Capture)
    (position : Nat) (entry : ScopeStack × Nat) (stack : List Capture) : Prop where
  listed : stack.Sublist earlier
  begun : ∀ capture ∈ stack, ∃ range ∈ capturedRange? found capture.group, range.start ≤ position
  reaches : stack.IsChain (Capture.ReachesInto found)
  uppermost : ∃ capture ∈ stack.getLast?, ∃ range ∈ capturedRange? found capture.group,
    entry.2 = range.stop
  scopes : entry.1 = scopes.extend (stack.flatMap (·.names line found))

def OpenCaptures.Stacked (line : Text) (found : Match) (scopes : ScopeStack)
    (earlier : List Capture) (position : Nat) (opened : OpenCaptures) : Prop :=
  ∀ entry ∈ opened, ∃ stack, OpenedOn line found scopes earlier position entry stack

section

variable {line : Text} {found : Match} {scopes : ScopeStack} {earlier stack : List Capture}
  {capture : Capture} {position later : Nat} {entry : ScopeStack × Nat} {range : Range}
  {opened : OpenCaptures} {stream : TokenStream}

theorem OpenedOn.mono (h : OpenedOn line found scopes earlier position entry stack)
    (hle : position ≤ later) : OpenedOn line found scopes earlier later entry stack where
  listed := h.listed
  begun := fun capture hcapture =>
    have ⟨range, hrange, hstart⟩ := h.begun capture hcapture
    ⟨range, hrange, hstart.trans hle⟩
  reaches := h.reaches
  uppermost := h.uppermost
  scopes := h.scopes

theorem OpenedOn.append (h : OpenedOn line found scopes earlier position entry stack)
    (captures : List Capture) :
    OpenedOn line found scopes (earlier ++ captures) position entry stack :=
  ⟨h.listed.trans (List.sublist_append_left _ _), h.begun, h.reaches, h.uppermost, h.scopes⟩

theorem OpenCaptures.Stacked.mono (h : opened.Stacked line found scopes earlier position)
    (hle : position ≤ later) : opened.Stacked line found scopes earlier later :=
  fun entry hentry => (h entry hentry).imp fun _ hstack => hstack.mono hle

theorem OpenedOn.fills (h : OpenedOn line found scopes earlier stream.position entry stack)
    {stop : Nat} (hstop : stop ≤ entry.2) :
    TokenStream.Fills (StackedScopes line found scopes earlier) stream
      (stream.produce stop entry.1.toList) := by
  refine .produce fun byte hstart hbyte => ⟨stack, h.listed, ⟨?begun, h.reaches, ?uppermost⟩, ?_⟩
  case begun => exact (h.mono hstart).begun
  case uppermost =>
    intro capture hcapture
    obtain ⟨last, hlast, range, hrange, hend⟩ := h.uppermost
    cases Option.mem_unique hlast hcapture
    obtain ⟨other, hother, hbegun⟩ := (h.mono hstart).begun _ (List.mem_of_getLast? hlast)
    cases Option.mem_unique hrange hother
    exact (Capture.covers_iff hrange).mpr ⟨hbegun, by omega⟩
  · rw [h.scopes]
    simp [ScopeStack.extend, ScopeStack.toList]

theorem OpenedOn.push (h : OpenedOn line found scopes earlier position entry stack)
    (hrange : capturedRange? found capture.group = some range) (hover : range.start < entry.2)
    (hstart : range.start ≤ position) :
    OpenedOn line found scopes (earlier ++ [capture]) position
      (capture.scopesIn line found entry.1, range.stop) (stack ++ [capture]) where
  listed := h.listed.append (List.Sublist.refl _)
  begun := by
    refine List.forall_mem_append.mpr ⟨h.begun, fun other hother => ?_⟩
    rw [List.mem_singleton.mp hother]
    exact ⟨range, hrange, hstart⟩
  reaches := by
    refine h.reaches.append (List.isChain_singleton capture) fun below hbelow above habove => ?_
    cases habove
    obtain ⟨last, hlast, ending, hending, hend⟩ := h.uppermost
    cases Option.mem_unique hlast hbelow
    intro other hother next hnext
    cases Option.mem_unique hending hother
    cases Option.mem_unique hrange hnext
    omega
  uppermost := ⟨capture, by simp, range, hrange, rfl⟩
  scopes := by
    rw [Capture.scopesIn_eq, h.scopes]
    simp [ScopeStack.extend]

theorem OpenedOn.first (hrange : capturedRange? found capture.group = some range)
    (hstart : range.start ≤ position) :
    OpenedOn line found scopes (earlier ++ [capture]) position
      (capture.scopesIn line found scopes, range.stop) [capture] where
  listed := List.sublist_append_right _ _
  begun := by
    intro other hother
    rw [List.mem_singleton.mp hother]
    exact ⟨range, hrange, hstart⟩
  reaches := List.isChain_singleton capture
  uppermost := ⟨capture, rfl, range, hrange, rfl⟩
  scopes := by simp [Capture.scopesIn_eq]

theorem closeCaptures_stacked (start : Nat)
    (h : opened.Stacked line found scopes earlier stream.position) :
    TokenStream.Fills (StackedScopes line found scopes earlier) stream
        (closeCaptures start opened stream).2 ∧
      (closeCaptures start opened stream).1.Stacked line found scopes earlier
        (closeCaptures start opened stream).2.position ∧
      ∀ entry ∈ (closeCaptures start opened stream).1.head?, start < entry.2 := by
  induction opened generalizing stream with
  | nil => exact ⟨.refl stream, h, by simp [closeCaptures]⟩
  | cons entry opened ih =>
      obtain ⟨inner, stop⟩ := entry
      obtain ⟨⟨stack, hentry⟩, hothers⟩ := List.forall_mem_cons.mp h
      rw [closeCaptures]
      split
      · have hreached := stream.position_produce stop inner.toList
        obtain ⟨hfills, hleft, hlast⟩ :=
          @ih (stream.produce stop inner.toList) (OpenCaptures.Stacked.mono hothers (by omega))
        exact ⟨(hentry.fills (Nat.le_refl _)).trans hfills, hleft, hlast⟩
      · next hover =>
        refine ⟨.refl stream, h, fun entry hentry => ?_⟩
        cases hentry
        exact Nat.lt_of_not_le hover

theorem closeAllCaptures_stacked (h : opened.Stacked line found scopes earlier stream.position) :
    TokenStream.Fills (StackedScopes line found scopes earlier) stream
      (closeAllCaptures opened stream) := by
  induction opened generalizing stream with
  | nil => exact .refl stream
  | cons entry opened ih =>
      obtain ⟨inner, stop⟩ := entry
      obtain ⟨⟨stack, hentry⟩, hothers⟩ := List.forall_mem_cons.mp h
      have hreached := stream.position_produce stop inner.toList
      exact (hentry.fills (Nat.le_refl _)).trans
        (@ih (stream.produce stop inner.toList) (OpenCaptures.Stacked.mono hothers (by omega)))

theorem innermost_fills (h : opened.Stacked line found scopes earlier stream.position) {start : Nat}
    (hopen : ∀ entry ∈ opened.head?, start < entry.2) :
    TokenStream.Fills (StackedScopes line found scopes earlier) stream
      (stream.produce start (innermostScopes scopes opened).toList) := by
  cases opened with
  | nil => exact .produce fun byte _ _ => .outside
  | cons entry opened =>
      obtain ⟨stack, hentry⟩ := h entry (by simp)
      exact hentry.fills (Nat.le_of_lt (hopen entry rfl))

theorem OpenCaptures.Stacked.push (h : opened.Stacked line found scopes earlier position)
    (hrange : capturedRange? found capture.group = some range)
    (hopen : ∀ entry ∈ opened.head?, range.start < entry.2) (hstart : range.start ≤ position) :
    OpenCaptures.Stacked line found scopes (earlier ++ [capture]) position
      (if capture.name.isSome then
        (capture.scopesIn line found (innermostScopes scopes opened), range.stop) :: opened
      else opened) := by
  have hothers : opened.Stacked line found scopes (earlier ++ [capture]) position :=
    fun entry hentry => (h entry hentry).imp fun _ hstack => hstack.append _
  split
  · refine List.forall_mem_cons.mpr ⟨?_, hothers⟩
    cases opened with
    | nil => exact ⟨_, .first hrange hstart⟩
    | cons entry opened =>
        obtain ⟨stack, hentry⟩ := h entry (by simp)
        exact ⟨_, hentry.push hrange (hopen entry rfl) hstart⟩
  · exact hothers

end

/-! ## All captures of a match -/

section

variable {scanCapture : CaptureScan} {line : Text} {found : Match} {scopes : ScopeStack}
  {captures earlier : List Capture} {opened : OpenCaptures} {stream : TokenStream}

theorem StackedScopes.append {byte : Nat} {given : List Scope}
    (h : StackedScopes line found scopes earlier byte given) (captures : List Capture) :
    StackedScopes line found scopes (earlier ++ captures) byte given :=
  have ⟨stack, hlisted, hstack⟩ := h
  ⟨stack, hlisted.trans (List.sublist_append_left _ _), hstack⟩

theorem produceCaptures_stacked (scanCapture : CaptureScan)
    (hplain : ∀ capture ∈ captures, capture.rule = none)
    (h : opened.Stacked line found scopes earlier stream.position) :
    ∃ next, produceCaptures scanCapture line found scopes captures opened stream = .ok next ∧
      TokenStream.Fills (StackedScopes line found scopes (earlier ++ captures)) stream next := by
  induction captures generalizing earlier opened stream with
  | nil =>
      rw [List.append_nil]
      exact ⟨_, rfl, closeAllCaptures_stacked h⟩
  | cons capture captures ih =>
      obtain ⟨hrule, hothers⟩ := List.forall_mem_cons.mp hplain
      rw [List.append_cons, produceCaptures]
      split
      · next hrange =>
        exact ih hothers fun entry hentry => (h entry hentry).imp fun _ hstack => hstack.append _
      · next range hrange =>
        obtain ⟨hclosed, hleft, hopen⟩ := closeCaptures_stacked range.start h
        dsimp only
        generalize closeCaptures range.start opened stream = closed at hclosed hleft hopen
        have hreached := closed.2.position_produce range.start
          (innermostScopes scopes closed.1).toList
        rw [hrule]
        obtain ⟨next, hnext, hrest⟩ := ih hothers
          ((hleft.mono (by omega)).push hrange hopen (by omega : range.start ≤
            (closed.2.produce range.start (innermostScopes scopes closed.1).toList).position))
        have hfront := hclosed.trans (innermost_fills hleft hopen)
        refine ⟨next, hnext, (hfront.imp fun byte given _ _ hgiven => ?_).trans hrest⟩
        rw [List.append_assoc]
        exact hgiven.append _

/-- Captures without patterns give each byte of a match the scopes around the match and the names of
captures on top of one another.  When no group goes on behind an earlier one in which it begins,
these captures all have the byte. -/
theorem scopes_of_captures_around (scanCapture : CaptureScan) (line : Text) (found : Match)
    (scopes : ScopeStack) (stream : TokenStream)
    (hplain : ∀ capture ∈ captures, capture.rule = none) :
    ∃ next, produceCaptures scanCapture line found scopes captures [] stream = .ok next ∧
      TokenStream.Fills (fun byte given => ∃ stack, stack.Sublist captures ∧
          Capture.Stacks found byte stack ∧
          (found.ClosesInOrder captures → ∀ capture ∈ stack, capture.covers found byte) ∧
          given = scopes.toList ++ stack.flatMap (·.names line found))
        stream (next.produce found.stop scopes.toList) := by
  have hnothing : OpenCaptures.Stacked line found scopes [] stream.position [] := by
    simp [OpenCaptures.Stacked]
  obtain ⟨next, hnext, hfills⟩ := produceCaptures_stacked scanCapture hplain hnothing
  rw [List.nil_append] at hfills
  have hmatch : TokenStream.Fills (StackedScopes line found scopes captures) stream
      (next.produce found.stop scopes.toList) :=
    hfills.trans (.produce fun byte _ _ => .outside)
  refine ⟨next, hnext, hmatch.imp fun byte given _ _ hgiven => ?_⟩
  obtain ⟨stack, hlisted, hstack, hscopes⟩ := hgiven
  exact ⟨stack, hlisted, hstack, fun hcloses => hstack.covers (hcloses.sublist hlisted), hscopes⟩

end

/-! ## Groups of look-aheads -/

namespace LookAhead

def captures : List Capture := [⟨1, some ⟨"first"⟩, none⟩, ⟨2, some ⟨"second"⟩, none⟩]

def scanCapture : CaptureScan := fun _ _ _ => .ok []

theorem captures_over_at_once :
    let found : Match := ⟨0, 2, [some ⟨0, 2⟩, some ⟨1, 2⟩, some ⟨0, 2⟩]⟩
    (Expression.ofSource "(?=.(b))(ab)").map (·.findAt? (.ofString "ab") 0 {}) =
        .ok (some found) ∧
      produceCaptures scanCapture (.ofString "ab") found { root := "source" } captures []
          { position := 0 } =
        .ok ⟨[⟨0, 1, ["source"]⟩, ⟨1, 2, ["source", "first", "second"]⟩], 2⟩ ∧
      ∃ stack : List Capture, stack.Sublist captures ∧ (∀ capture ∈ stack, capture.covers found 1) ∧
        ["source", "first", "second"] =
          "source" :: stack.flatMap (·.names (.ofString "ab") found) := by
  intro found
  have hrun : produceCaptures scanCapture (.ofString "ab") found { root := "source" } captures []
      { position := 0 } =
        .ok ⟨[⟨0, 1, ["source"]⟩, ⟨1, 2, ["source", "first", "second"]⟩], 2⟩ := by decide +kernel
  have hplain : ∀ capture ∈ captures, capture.rule = none := by decide
  have hcloses : found.ClosesInOrder captures := by
    unfold Match.ClosesInOrder
    decide
  refine ⟨by decide +kernel, hrun, ?_⟩
  obtain ⟨next, hnext, more, htokens, -, hgiven⟩ := scopes_of_captures_around scanCapture
    (.ofString "ab") found { root := "source" } { position := 0 } hplain
  cases hrun.symm.trans hnext
  rw [List.nil_append] at htokens
  obtain ⟨stack, hlisted, -, hcovers, hscopes⟩ :=
    hgiven ⟨1, 2, ["source", "first", "second"]⟩ (by rw [← htokens]; decide) 1 (by decide)
      (by decide)
  exact ⟨stack, hlisted, hcovers hcloses, hscopes⟩

/-- The second group begins in the first and goes on behind it: what it has there keeps the scopes
of the first. -/
theorem scopes_outlive_group :
    ¬∀ (source : String) (expression : Expression) (line : Text) (position : Nat)
        (anchors : Anchors) (found : Match) (scopes : ScopeStack) (captures : List Capture)
        (next : TokenStream),
      Expression.ofSource source = .ok expression →
      expression.findAt? line position anchors = some found →
      (∀ capture ∈ captures, capture.rule = none) →
      produceCaptures scanCapture line found scopes captures [] { position := found.start } =
        .ok next →
      ∀ token ∈ next.tokens, ∀ byte, token.start ≤ byte → byte < token.stop →
        ∃ stack : List Capture, stack.Sublist captures ∧
          (∀ capture ∈ stack, capture.covers found byte) ∧
          token.scopes = scopes.toList ++ stack.flatMap (·.names line found) := by
  intro hstays
  let found : Match := ⟨0, 6, [some ⟨0, 6⟩, some ⟨0, 4⟩, some ⟨2, 6⟩]⟩
  have hfound : (Expression.ofSource "(?=(abcd))ab(cdef)").map
      (·.findAt? (.ofString "abcdef") 0 {}) = .ok (some found) := by decide +kernel
  obtain ⟨expression, hexpression, hfound⟩ := map_eq_ok.mp hfound
  have hrun : produceCaptures scanCapture (.ofString "abcdef") found { root := "source" } captures
      [] { position := 0 } =
        .ok ⟨[⟨0, 2, ["source", "first"]⟩, ⟨2, 6, ["source", "first", "second"]⟩], 6⟩ := by
    decide +kernel
  obtain ⟨stack, hlisted, hcovers, hscopes⟩ := hstays _ expression _ _ _ found _ captures _
    hexpression hfound (by decide) hrun
    ⟨2, 6, ["source", "first", "second"]⟩ (by decide) 5 (by decide) (by decide)
  -- only the second capture has the byte, and it is not named so
  have hnamed : "first" ∈ stack.flatMap (·.names (.ofString "abcdef") found) := by
    have hmem : "first" ∈ ["source"] ++ stack.flatMap (·.names (.ofString "abcdef") found) :=
      hscopes ▸ (by decide : "first" ∈ ["source", "first", "second"])
    exact (List.mem_append.mp hmem).resolve_left (by decide)
  obtain ⟨capture, hcapture, hname⟩ := List.mem_flatMap.mp hnamed
  have hfirst : ∀ capture ∈ captures, capture.covers found 5 = true →
      "first" ∉ capture.names (.ofString "abcdef") found := by decide +kernel
  exact hfirst capture (hlisted.subset hcapture) (hcovers capture hcapture) hname

end LookAhead

end ScopeLexer
