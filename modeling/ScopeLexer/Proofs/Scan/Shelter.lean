import ScopeLexer.Proofs.Scan.Spans

/-!
# Scopes that stay open

Scopes are closed by cutting the stack at a depth that a frame remembers.  As long as every frame
above a place remembers depths above some scopes, these scopes stay open, and whatever the scan
produces carries them: tokens of single matches, of captures and of scans within captures.
-/

namespace ScopeLexer

open Regex Outcome

/-! ## What is in a stream already -/

namespace TokenStream

def after (stream : TokenStream) (tokens : List Token) : TokenStream :=
  ⟨tokens ++ stream.tokens, stream.position⟩

theorem produce_after (stream : TokenStream) (tokens : List Token) (stop : Nat)
    (scopes : List Scope) :
    (stream.after tokens).produce stop scopes = (stream.produce stop scopes).after tokens := by
  unfold produce after
  split <;> simp

theorem produceAll_after (stream : TokenStream) (tokens more : List Token) :
    (stream.after tokens).produceAll more = (stream.produceAll more).after tokens := by
  induction more generalizing stream with
  | nil => rfl
  | cons token more ih =>
      simp only [produceAll, List.foldl_cons] at ih ⊢
      rw [produce_after, ih]

end TokenStream

theorem closeCaptures_after (start : Nat) (opened : OpenCaptures) (stream : TokenStream)
    (tokens : List Token) :
    closeCaptures start opened (stream.after tokens) =
      ((closeCaptures start opened stream).1,
        (closeCaptures start opened stream).2.after tokens) := by
  induction opened generalizing stream with
  | nil => rfl
  | cons capture opened ih =>
      simp only [closeCaptures]
      split
      · rw [TokenStream.produce_after, ih]
      · rfl

theorem closeAllCaptures_after (opened : OpenCaptures) (stream : TokenStream)
    (tokens : List Token) :
    closeAllCaptures opened (stream.after tokens) =
      (closeAllCaptures opened stream).after tokens := by
  induction opened generalizing stream with
  | nil => rfl
  | cons capture opened ih =>
      rw [closeAllCaptures, closeAllCaptures, TokenStream.produce_after, ih]

theorem produceCaptures_after (scanCapture : CaptureScan) (line : Text) (found : Match)
    (scopes : ScopeStack) (captures : List Capture) (opened : OpenCaptures) (stream : TokenStream)
    (tokens : List Token) :
    produceCaptures scanCapture line found scopes captures opened (stream.after tokens) =
      (produceCaptures scanCapture line found scopes captures opened stream).map
        (·.after tokens) := by
  induction captures generalizing opened stream with
  | nil =>
      rw [produceCaptures, produceCaptures, closeAllCaptures_after]
      rfl
  | cons capture captures ih =>
      rw [produceCaptures, produceCaptures]
      split
      · exact ih opened stream
      · next range hrange =>
        simp only [closeCaptures_after, TokenStream.produce_after]
        split
        · next rule hrule =>
          cases scanCapture rule range _ with
          | error fault => rfl
          | ok more =>
              change produceCaptures _ _ _ _ _ _ _ = Except.map _ (produceCaptures _ _ _ _ _ _ _)
              rw [TokenStream.produceAll_after, ih]
        · exact ih _ _

/-! ## Tokens with scopes -/

def TokenStream.Adds (outer : List Scope) (stream next : TokenStream) : Prop :=
  ∃ more, next.tokens = stream.tokens ++ more ∧ ∀ token ∈ more, outer <+: token.scopes

namespace TokenStream.Adds

variable {outer : List Scope} {stream middle next : TokenStream}

theorem refl (stream : TokenStream) : Adds outer stream stream :=
  ⟨[], by simp, by simp⟩

theorem trans (h : Adds outer stream middle) (h' : Adds outer middle next) :
    Adds outer stream next := by
  obtain ⟨more, htokens, hmore⟩ := h
  obtain ⟨others, hothers, hscopes⟩ := h'
  refine ⟨more ++ others, by rw [hothers, htokens, List.append_assoc], fun token htoken => ?_⟩
  rcases List.mem_append.mp htoken with hmem | hmem
  · exact hmore token hmem
  · exact hscopes token hmem

theorem produce {scopes : List Scope} (hscopes : outer <+: scopes) (stop : Nat) :
    Adds outer stream (stream.produce stop scopes) := by
  unfold TokenStream.produce
  split
  · exact refl stream
  · refine ⟨_, rfl, fun token htoken => ?_⟩
    rw [List.mem_singleton.mp htoken]
    exact hscopes

end TokenStream.Adds

def CaptureScan.Carries (scanCapture : CaptureScan) : Prop :=
  ∀ outer, scanCapture.Extends (fun _ => True) outer

theorem TokenStream.Adds.captures {scanCapture : CaptureScan} (hscan : scanCapture.Carries)
    {outer : List Scope} {line : Text} {found : Match} {scopes : ScopeStack}
    (hscopes : outer <+: scopes.toList) {captures : List Capture} {stream next : TokenStream}
    (h : produceCaptures scanCapture line found scopes captures [] stream = .ok next) :
    Adds outer stream next := by
  have hafter : stream = TokenStream.after { position := stream.position } stream.tokens := by
    simp [TokenStream.after]
  rw [hafter, produceCaptures_after] at h
  obtain ⟨fresh, hfresh, rfl⟩ := map_eq_ok.mp h
  have hspans := produceCaptures_spans (hscan outer) (fun _ _ => ⟨trivial, trivial⟩) hscopes
    (by simp [OpenCaptures.Extend]) (TokenStream.spans_empty _ outer stream.position) hfresh
  exact ⟨fresh.tokens, rfl, fun token htoken => (hspans.tokens token htoken).scopes⟩

/-! ## Depths -/

namespace ScopeStack

theorem length_toList (stack : ScopeStack) : stack.toList.length = stack.depth := by
  simp [toList, depth]

theorem prefix_truncate {stack : ScopeStack} {outer : List Scope} {depth : Nat}
    (h : outer <+: stack.toList) (hdepth : outer.length ≤ depth) :
    outer <+: (stack.truncate depth).toList := by
  cases outer with
  | nil => exact List.nil_prefix
  | cons scope outer =>
      obtain ⟨hroot, habove⟩ := List.cons_prefix_cons.mp h
      refine List.cons_prefix_cons.mpr ⟨hroot, List.prefix_take_iff.mpr ⟨habove, ?_⟩⟩
      simp only [List.length_cons] at hdepth
      omega

theorem truncate_of_prefix {stack other : ScopeStack} (h : stack.toList <+: other.toList) :
    other.truncate stack.depth = stack := by
  obtain ⟨hroot, habove⟩ := List.cons_prefix_cons.mp h
  obtain ⟨root, above⟩ := stack
  obtain ⟨otherRoot, otherAbove⟩ := other
  obtain ⟨rest, rfl⟩ := habove
  cases hroot
  simp [truncate, ScopeStack.depth]

end ScopeStack

/-! ## Frames above a place -/

/-- The scopes `outer` are open, and closing frames down to `lower` leaves them open. -/
structure Shelters (outer : List Scope) (lower : List Frame) (scopes : ScopeStack)
    (frames : List Frame) : Prop where
  scopes : outer <+: scopes.toList
  frames : ∃ inner, frames = inner ++ lower ∧ ∀ frame ∈ inner,
    outer.length ≤ frame.baseDepth ∧ frame.baseDepth ≤ frame.nameDepth

namespace Scan

variable {scan : Scan} {scanCapture : CaptureScan} {cursor next : Cursor} {outer : List Scope}
  {lower : List Frame}

theorem Stepped.shelters (h : Shelters outer lower cursor.scopes cursor.frames)
    (hstep : scan.Stepped scanCapture cursor next) (hdepth : lower.length ≤ next.frames.length) :
    Shelters outer lower next.scopes next.frames := by
  obtain ⟨hscopes, inner, hinner, hdepths⟩ := h
  cases hstep with
  | @closes frame rest found stream hinside hframes hfound hstream =>
      simp only [advance_frames, advance_scopes] at hdepth ⊢
      cases inner with
      | nil =>
          rw [List.nil_append] at hinner
          rw [← hinner, hframes, List.length_cons] at hdepth
          omega
      | cons top inner =>
          rw [hframes] at hinner
          cases hinner
          have hframe := hdepths frame (by simp)
          refine ⟨?_, inner, rfl, fun other hother => hdepths other (by simp [hother])⟩
          exact ScopeStack.prefix_truncate
            (ScopeStack.prefix_truncate hscopes (hframe.1.trans hframe.2)) hframe.1
  | passes hinside hframes hfound hrule hkind hstream =>
      simp only [advance_frames, advance_scopes]
      exact ⟨hscopes, inner, hinner, hdepths⟩
  | @opens frame rest id found rule enclosure stream hinside hframes hfound hrule hkind hstream =>
      simp only [advance_frames, advance_scopes]
      have hnamed := hscopes.trans
        (cursor.scopes.toList_prefix_enter rule.name scan.line found.groups)
      refine ⟨hnamed.trans (ScopeStack.toList_prefix_enter _ _ _ _),
        scan.openFrame cursor _ rule.id enclosure found :: inner, by rw [hinner]; rfl, ?_⟩
      intro other hother
      rcases List.mem_cons.mp hother with rfl | hother
      · refine ⟨?_, ScopeStack.depth_le_enter _ _ _ _⟩
        exact (hscopes.length_le).trans_eq cursor.scopes.length_toList
      · exact hdepths other hother

/-- Whatever a step produces carries the scopes, also when it closes the first of the lower frames,
provided that the name of that frame does. -/
theorem Stepped.adds (hscan : scanCapture.Carries)
    (h : Shelters outer lower cursor.scopes cursor.frames)
    (hlower : ∀ frame ∈ lower.head?, outer.length ≤ frame.nameDepth)
    (hstep : scan.Stepped scanCapture cursor next) :
    TokenStream.Adds outer cursor.stream next.stream := by
  obtain ⟨hscopes, inner, hinner, hdepths⟩ := h
  have produced {named : ScopeStack} {captures : List Capture} {found : Match}
      {stream : TokenStream} (hnamed : outer <+: named.toList)
      (hstream : produceCaptures scanCapture scan.line found named captures []
        (cursor.stream.produce found.start cursor.scopes.toList) = .ok stream) :
      TokenStream.Adds outer cursor.stream (stream.produce found.stop named.toList) :=
    ((TokenStream.Adds.produce hscopes _).trans (.captures hscan hnamed hstream)).trans
      (.produce hnamed _)
  cases hstep with
  | @closes frame rest found stream hinside hframes hfound hstream =>
      rw [advance_stream]
      refine produced (ScopeStack.prefix_truncate hscopes ?_) hstream
      cases inner with
      | nil =>
          rw [List.nil_append] at hinner
          exact hlower frame (by rw [← hinner, hframes]; rfl)
      | cons top inner =>
          rw [hframes] at hinner
          cases hinner
          have hframe := hdepths frame (by simp)
          exact hframe.1.trans hframe.2
  | passes hinside hframes hfound hrule hkind hstream =>
      rw [advance_stream]
      exact produced (hscopes.trans (ScopeStack.toList_prefix_enter _ _ _ _)) hstream
  | opens hinside hframes hfound hrule hkind hstream =>
      rw [advance_stream]
      exact produced (hscopes.trans (ScopeStack.toList_prefix_enter _ _ _ _)) hstream

theorem capture_carries (scan : Scan) (nesting : Nat) : (scan.capture nesting).Carries := by
  induction nesting generalizing scan with
  | zero =>
      intro outer rule range scopes tokens _ h
      contradiction
  | succ nesting ih =>
      intro outer rule range scopes tokens hscopes h token htoken
      rw [capture] at h
      obtain ⟨last, hrun, htokens⟩ := bind_eq_ok.mp h
      cases pure_eq_ok.mp htokens
      obtain ⟨middle, hsteps, rfl⟩ := run_eq_ok.mp hrun
      have hlength := hscopes.length_le.trans_eq scopes.length_toList
      obtain ⟨hmiddle, hadds⟩ := steps_invariant
        (P := fun cursor => Shelters outer [] cursor.scopes cursor.frames ∧
          TokenStream.Adds outer { position := range.start } cursor.stream)
        (fun hcursor hstep => ⟨hstep.shelters hcursor.1 (Nat.zero_le _),
          hcursor.2.trans (hstep.adds (ih _) hcursor.1 (by simp))⟩)
        ⟨⟨hscopes, _, (List.append_nil _).symm, by simpa [Frame.group] using hlength⟩,
          .refl _⟩ hsteps
      obtain ⟨more, hmore, hcarries⟩ :=
        hadds.trans (.produce hmiddle.scopes (scan.line.upTo range.stop).byteSize)
      rw [List.nil_append] at hmore
      exact ⟨trivial, hcarries token (hmore ▸ htoken)⟩

end Scan

end ScopeLexer
