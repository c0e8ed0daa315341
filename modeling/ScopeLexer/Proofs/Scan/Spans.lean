import ScopeLexer.Proofs.Scan.Step
import ScopeLexer.Proofs.Token.Tiling

/-!
# The spans of a scan

Whatever the rules and captures of a grammar do, the stream of a scan holds spans without gaps, which
end between characters and whose scopes begin with the root scope.  Groups may lie outside the match
and in any order, as those of a look-around do: a span that would not move forward is dropped.
-/

namespace ScopeLexer

open Regex Outcome

variable {stops : Nat → Prop} {outer : List Scope} {start : Nat}

structure Token.Extends (stops : Nat → Prop) (outer : List Scope) (token : Token) : Prop where
  stop : stops token.stop
  scopes : outer <+: token.scopes

structure TokenStream.Spans (stops : Nat → Prop) (outer : List Scope) (start : Nat)
    (stream : TokenStream) : Prop where
  tiles : Tiles start stream.position stream.tokens
  tokens : ∀ token ∈ stream.tokens, token.Extends stops outer

namespace TokenStream

theorem spans_empty (stops : Nat → Prop) (outer : List Scope) (start : Nat) :
    Spans stops outer start { position := start } :=
  ⟨rfl, by simp⟩

theorem Spans.produce {stream : TokenStream} (h : stream.Spans stops outer start) {stop : Nat}
    {scopes : List Scope} (hstop : stops stop) (hscopes : outer <+: scopes) :
    (stream.produce stop scopes).Spans stops outer start := by
  refine ⟨h.tiles.produce stop scopes, fun token hmem => ?_⟩
  rcases mem_produce hmem with hold | ⟨rfl, rfl⟩
  · exact h.tokens token hold
  · exact ⟨hstop, hscopes⟩

theorem Spans.produceAll {stream : TokenStream} (h : stream.Spans stops outer start)
    {tokens : List Token} (htokens : ∀ token ∈ tokens, token.Extends stops outer) :
    (stream.produceAll tokens).Spans stops outer start := by
  induction tokens generalizing stream with
  | nil => exact h
  | cons token tokens ih =>
      have htoken := htokens token (by simp)
      exact ih (h.produce htoken.stop htoken.scopes)
        (fun other hother => htokens other (by simp [hother]))

end TokenStream

/-! ## Captures -/

def CaptureScan.Extends (stops : Nat → Prop) (outer : List Scope) (scanCapture : CaptureScan) :
    Prop :=
  ∀ {rule range scopes tokens}, outer <+: scopes.toList →
    scanCapture rule range scopes = .ok tokens → ∀ token ∈ tokens, token.Extends stops outer

def OpenCaptures.Extend (stops : Nat → Prop) (outer : List Scope) (opened : OpenCaptures) : Prop :=
  ∀ capture ∈ opened, stops capture.2 ∧ outer <+: capture.1.toList

theorem capturedRange?_mem {found : Match} {group : Nat} {range : Range}
    (h : capturedRange? found group = some range) : some range ∈ found.groups := by
  unfold capturedRange? at h
  split at h
  · next hgroup =>
    split at h
    · contradiction
    · cases h
      exact List.mem_of_getElem? hgroup
  · contradiction

theorem OpenCaptures.Extend.innermostScopes {opened : OpenCaptures}
    (h : opened.Extend stops outer) {scopes : ScopeStack} (hscopes : outer <+: scopes.toList) :
    outer <+: (innermostScopes scopes opened).toList := by
  cases opened with
  | nil => exact hscopes
  | cons capture opened => exact (h capture (by simp)).2

theorem closeCaptures_spans (position : Nat) {opened : OpenCaptures} {stream : TokenStream}
    (hopened : opened.Extend stops outer) (hstream : stream.Spans stops outer start) :
    (closeCaptures position opened stream).1.Extend stops outer ∧
      (closeCaptures position opened stream).2.Spans stops outer start := by
  induction opened generalizing stream with
  | nil => exact ⟨hopened, hstream⟩
  | cons capture opened ih =>
      have hcapture := hopened capture (by simp)
      rw [closeCaptures]
      split
      · exact ih (fun other hother => hopened other (by simp [hother]))
          (hstream.produce hcapture.1 hcapture.2)
      · exact ⟨hopened, hstream⟩

theorem closeAllCaptures_spans {opened : OpenCaptures} {stream : TokenStream}
    (hopened : opened.Extend stops outer) (hstream : stream.Spans stops outer start) :
    (closeAllCaptures opened stream).Spans stops outer start := by
  induction opened generalizing stream with
  | nil => exact hstream
  | cons capture opened ih =>
      have hcapture := hopened capture (by simp)
      exact ih (fun other hother => hopened other (by simp [hother]))
        (hstream.produce hcapture.1 hcapture.2)

theorem produceCaptures_spans {scanCapture : CaptureScan}
    (hscan : scanCapture.Extends stops outer) {line : Text} {found : Match}
    (hgroups : ∀ range, some range ∈ found.groups → stops range.start ∧ stops range.stop)
    {scopes : ScopeStack} (hscopes : outer <+: scopes.toList) {captures : List Capture}
    {opened : OpenCaptures} {stream next : TokenStream} (hopened : opened.Extend stops outer)
    (hstream : stream.Spans stops outer start)
    (h : produceCaptures scanCapture line found scopes captures opened stream = .ok next) :
    next.Spans stops outer start := by
  induction captures generalizing opened stream with
  | nil =>
      cases h
      exact closeAllCaptures_spans hopened hstream
  | cons capture captures ih =>
      rw [produceCaptures] at h
      split at h
      · exact ih hopened hstream h
      · next range hrange =>
        obtain ⟨hrangeStart, hrangeStop⟩ := hgroups range (capturedRange?_mem hrange)
        obtain ⟨hclosed, hclosedStream⟩ := closeCaptures_spans range.start hopened hstream
        have houter := hclosed.innermostScopes hscopes
        have hreached := hclosedStream.produce hrangeStart houter
        have hinner : outer <+: (capture.scopesIn line found
            (innermostScopes scopes (closeCaptures range.start opened stream).1)).toList :=
          houter.trans (ScopeStack.toList_prefix_enter _ _ _ _)
        dsimp only at h
        split at h
        · next rule hrule =>
          obtain ⟨tokens, htokens, h⟩ := bind_eq_ok.mp h
          exact ih hclosed (hreached.produceAll (hscan hinner htokens)) h
        · refine ih ?_ hreached h
          split
          · intro other hother
            rcases List.mem_cons.mp hother with rfl | hother
            · exact ⟨hrangeStop, hinner⟩
            · exact hclosed other hother
          · exact hclosed

/-! ## Runs -/

namespace Scan

variable {scan : Scan} {scanCapture : CaptureScan} {cursor next : Cursor} {root : Scope}

structure Spanning (scan : Scan) (root : Scope) (start : Nat) (cursor : Cursor) : Prop where
  rooted : cursor.scopes.root = root
  stream : cursor.stream.Spans scan.line.IsBoundary [root] start

theorem root_prefix_toList {scopes : ScopeStack} (h : scopes.root = root) :
    [root] <+: scopes.toList := by
  rw [← h]
  exact ⟨scopes.above, rfl⟩

theorem Spanning.produce (hscan : scanCapture.Extends scan.line.IsBoundary [root])
    (hcursor : scan.Spanning root start cursor) {found : Match} (hwithin : found.Within scan.line)
    {named : ScopeStack} (hnamed : named.root = root) {captures : List Capture}
    {stream : TokenStream}
    (hstream : produceCaptures scanCapture scan.line found named captures []
      (cursor.stream.produce found.start cursor.scopes.toList) = .ok stream) :
    (stream.produce found.stop named.toList).Spans scan.line.IsBoundary [root] start := by
  have hreached := hcursor.stream.produce hwithin.start (root_prefix_toList hcursor.rooted)
  have hcaptured := produceCaptures_spans hscan hwithin.groups (root_prefix_toList hnamed)
    (by simp [OpenCaptures.Extend]) hreached hstream
  exact hcaptured.produce hwithin.stop (root_prefix_toList hnamed)

theorem Spanning.stepped (hscan : scanCapture.Extends scan.line.IsBoundary [root])
    (hcursor : scan.Spanning root start cursor) (h : scan.Stepped scanCapture cursor next) :
    scan.Spanning root start next := by
  have hrooted := hcursor.rooted
  cases h with
  | closes hinside hframes hfound hstream =>
      refine ⟨by simpa using hrooted, ?_⟩
      rw [advance_stream]
      exact hcursor.produce hscan (findNext_within hfound) (by simpa using hrooted) hstream
  | passes hinside hframes hfound hrule hkind hstream =>
      refine ⟨by simpa using hrooted, ?_⟩
      rw [advance_stream]
      exact hcursor.produce hscan (findNext_within hfound) (by simpa using hrooted) hstream
  | opens hinside hframes hfound hrule hkind hstream =>
      refine ⟨by simpa using hrooted, ?_⟩
      rw [advance_stream]
      exact hcursor.produce hscan (findNext_within hfound) (by simpa using hrooted) hstream

theorem Spanning.run (hscan : scanCapture.Extends scan.line.IsBoundary [root])
    (hcursor : scan.Spanning root start cursor) (h : scan.run scanCapture cursor = .ok next) :
    scan.Spanning root start next ∧ scan.line.byteSize ≤ next.stream.position := by
  obtain ⟨last, hsteps, rfl⟩ := run_eq_ok.mp h
  have hlast := steps_invariant (fun hmiddle hstep => hmiddle.stepped hscan hstep) hcursor hsteps
  have hspans := hlast.stream.produce scan.line.isBoundary_byteSize
    (root_prefix_toList hlast.rooted)
  exact ⟨⟨hlast.rooted, hspans⟩, last.stream.le_position_produce _ _⟩

/-- Captured text, scanned on a line that is cut behind it, gives tokens of the whole line.  By
induction on how deep captures may lie in one another. -/
theorem capture_extends (scan : Scan) (root : Scope) (nesting : Nat) :
    (scan.capture nesting).Extends scan.line.IsBoundary [root] := by
  induction nesting generalizing scan with
  | zero =>
      intro rule range scopes tokens _ h
      contradiction
  | succ nesting ih =>
      intro rule range scopes tokens hscopes h token htoken
      rw [capture] at h
      obtain ⟨last, hrun, htokens⟩ := bind_eq_ok.mp h
      cases pure_eq_ok.mp htokens
      have hroot : scopes.root = root := by
        obtain ⟨rest, hrest⟩ := hscopes
        exact (List.cons.inj hrest).1.symm
      obtain ⟨hlast, -⟩ := Spanning.run (ih _) ⟨hroot, TokenStream.spans_empty _ _ _⟩ hrun
      have hextends := hlast.stream.tokens token htoken
      exact ⟨hextends.stop.of_upTo, hextends.scopes⟩

theorem wholeLine_spans {anchor : Option Nat} {scopes : ScopeStack} {frames : List Frame}
    (h : scan.wholeLine anchor scopes frames = .ok next) :
    scan.Spanning scopes.root 0 next ∧ scan.line.byteSize ≤ next.stream.position :=
  Spanning.run (scan.capture_extends scopes.root scan.nestingBound)
    ⟨rfl, TokenStream.spans_empty _ _ _⟩ h

end Scan

end ScopeLexer
