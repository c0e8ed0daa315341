import ScopeLexer.Proofs.Token.Tiling

/-!
# The scopes of bytes

What tokens say about a line is which scopes each byte has.  A stream gives a byte the scopes of the
first call that reaches behind it; cutting and merging leave the scopes of all bytes alone.  Tokens
that cover a line with neighbours that differ are the runs of bytes with equal scopes, and there is
only one such list.
-/

namespace ScopeLexer

def scopesAt? (tokens : List Token) (byte : Nat) : Option (List Scope) :=
  (tokens.find? fun token => token.start ≤ byte && byte < token.stop).map (·.scopes)

@[simp] theorem scopesAt?_nil (byte : Nat) : scopesAt? [] byte = none := rfl

theorem scopesAt?_cons (token : Token) (tokens : List Token) (byte : Nat) :
    scopesAt? (token :: tokens) byte =
      if token.start ≤ byte ∧ byte < token.stop then some token.scopes
      else scopesAt? tokens byte := by
  by_cases h : token.start ≤ byte ∧ byte < token.stop <;> simp [scopesAt?, h]

theorem scopesAt?_append (tokens others : List Token) (byte : Nat) :
    scopesAt? (tokens ++ others) byte = (scopesAt? tokens byte).or (scopesAt? others byte) := by
  simp [scopesAt?, List.find?_append, Option.map_or]

namespace Tiles

variable {start stop byte : Nat} {token : Token} {tokens others : List Token}

theorem scopesAt?_cons (h : Tiles start stop (token :: tokens)) (hle : start ≤ byte) :
    scopesAt? (token :: tokens) byte =
      if byte < token.stop then some token.scopes else scopesAt? tokens byte := by
  obtain ⟨rfl, -, -⟩ := h
  simp [ScopeLexer.scopesAt?_cons, hle]

theorem scopesAt?_outside (h : Tiles start stop tokens) (hout : byte < start ∨ stop ≤ byte) :
    scopesAt? tokens byte = none := by
  simp only [scopesAt?, Option.map_eq_none_iff, List.find?_eq_none]
  intro token htoken
  have hbounds := h.bounds htoken
  simp only [Bool.and_eq_true, decide_eq_true_eq]
  omega

theorem scopesAt?_inside (h : Tiles start stop tokens) (hstart : start ≤ byte)
    (hstop : byte < stop) : ∃ scopes, scopesAt? tokens byte = some scopes := by
  induction tokens generalizing start with
  | nil =>
      cases h
      omega
  | cons token tokens ih =>
      rw [h.scopesAt?_cons hstart]
      split
      · exact ⟨token.scopes, rfl⟩
      · exact ih h.2.2 (by omega)

end Tiles

/-! ## Streams -/

namespace TokenStream

def collect (stream : TokenStream) (calls : List (Nat × List Scope)) : TokenStream :=
  calls.foldl (fun stream call => stream.produce call.1 call.2) stream

variable {stream : TokenStream} {start byte : Nat}

theorem tiles_collect (h : Tiles start stream.position stream.tokens)
    (calls : List (Nat × List Scope)) :
    Tiles start (stream.collect calls).position (stream.collect calls).tokens := by
  induction calls generalizing stream with
  | nil => exact h
  | cons call calls ih => exact ih (h.produce call.1 call.2)

theorem position_collect (stream : TokenStream) (calls : List (Nat × List Scope)) :
    (stream.position :: calls.map (·.1)).max? = some (stream.collect calls).position := by
  induction calls generalizing stream with
  | nil => rfl
  | cons call calls ih =>
      have hnext := ih (stream.produce call.1 call.2)
      rw [position_produce, List.max?_cons'] at hnext
      rw [List.map_cons, List.max?_cons', List.foldl_cons]
      exact hnext

theorem scopesAt?_produce (h : Tiles start stream.position stream.tokens) (hle : start ≤ byte)
    (stop : Nat) (scopes : List Scope) :
    scopesAt? (stream.produce stop scopes).tokens byte =
      (scopesAt? stream.tokens byte).or (if byte < stop then some scopes else none) := by
  rcases Nat.lt_or_ge byte stream.position with hin | hout
  · obtain ⟨given, hgiven⟩ := h.scopesAt?_inside hle hin
    unfold produce
    split
    · simp [hgiven]
    · simp [scopesAt?_append, hgiven]
  · have hnone := h.scopesAt?_outside (.inr hout)
    unfold produce
    split
    · simp [hnone, show ¬byte < stop by omega]
    · simp [scopesAt?_append, hnone, ScopeLexer.scopesAt?_cons, hout]

theorem scopesAt?_collect (h : Tiles start stream.position stream.tokens) (hle : start ≤ byte)
    (calls : List (Nat × List Scope)) :
    scopesAt? (stream.collect calls).tokens byte =
      (scopesAt? stream.tokens byte).or ((calls.find? fun call => byte < call.1).map (·.2)) := by
  induction calls generalizing stream with
  | nil => simp [collect]
  | cons call calls ih =>
      have hrest := ih (h.produce call.1 call.2)
      rw [scopesAt?_produce h hle, Option.or_assoc] at hrest
      rw [collect, List.foldl_cons, ← collect, hrest, List.find?_cons]
      by_cases hcall : byte < call.1 <;> simp [hcall]

end TokenStream

/-! ## Cutting -/

/-- The second list has the tokens that begin before a position, the last of them cut there. -/
def CutAt (length : Nat) (tokens cut : List Token) : Prop :=
  ∃ kept last dropped, tokens = kept ++ last :: dropped ∧
    (∀ token ∈ kept, token.stop < length) ∧ last.start < length ∧ length ≤ last.stop ∧
    (∀ token ∈ dropped, length ≤ token.start) ∧ cut = kept ++ [{ last with stop := length }]

section

variable {start stop length byte : Nat} {tokens cut : List Token}

theorem Tiles.cutAt (h : Tiles start stop tokens) (hlt : start < length) (hle : length ≤ stop) :
    CutAt length tokens (ScopeLexer.clipTokens length tokens) := by
  induction tokens generalizing start with
  | nil =>
      cases h
      omega
  | cons token tokens ih =>
      obtain ⟨rfl, hstop, hrest⟩ := h
      have hcons : ScopeLexer.clipTokens length (token :: tokens) =
          token.clip length :: ScopeLexer.clipTokens length tokens := by
        simp [ScopeLexer.clipTokens, hlt]
      rcases Nat.lt_or_ge token.stop length with hin | hout
      · obtain ⟨kept, last, dropped, rfl, hkept, hlast, hends, hdropped, hcut⟩ := ih hrest hin
        have hwhole : token.clip length = token := by
          rw [Token.clip, Nat.min_eq_left (Nat.le_of_lt hin)]
        exact ⟨token :: kept, last, dropped, rfl, List.forall_mem_cons.mpr ⟨hin, hkept⟩, hlast,
          hends, hdropped, by rw [hcons, hwhole, hcut, List.cons_append]⟩
      · refine ⟨[], token, tokens, rfl, by simp, hlt, hout, fun other hother => ?_, ?_⟩
        · exact hout.trans (hrest.bounds hother).1
        · rw [hcons, clipTokens_of_le hrest hout, Token.clip, Nat.min_eq_right hout]
          rfl

theorem CutAt.scopesAlternate (h : CutAt length tokens cut) (halternate : ScopesAlternate tokens) :
    ScopesAlternate cut := by
  obtain ⟨kept, last, dropped, rfl, -, -, -, -, rfl⟩ := h
  have hfront : ScopesAlternate (kept ++ [last]) :=
    halternate.prefix ⟨dropped, by simp⟩
  rw [ScopesAlternate, List.isChain_append] at hfront ⊢
  exact ⟨hfront.1, List.isChain_singleton _, by simpa using hfront.2.2⟩

theorem scopesAt?_clipTokens (hbyte : byte < length) (tokens : List Token) :
    scopesAt? (clipTokens length tokens) byte = scopesAt? tokens byte := by
  induction tokens with
  | nil => rfl
  | cons token tokens ih =>
      rw [scopesAt?_cons, ← ih]
      by_cases hstart : token.start < length
      · have hstop : byte < min token.stop length ↔ byte < token.stop := by omega
        simp [clipTokens, hstart, scopesAt?_cons, Token.clip, hstop]
      · have hbehind : ¬token.start ≤ byte := by omega
        simp [clipTokens, hstart, hbehind]

/-! ## Merging -/

theorem scopesAt?_mergeFrom {token : Token} (h : Tiles start stop (token :: tokens)) :
    scopesAt? (mergeFrom token tokens) byte = scopesAt? (token :: tokens) byte := by
  induction tokens generalizing token start with
  | nil => rfl
  | cons next rest ih =>
      have hnext := h.2.2
      rw [mergeFrom]
      split
      · next hsame =>
        simp only [Bool.and_eq_true, beq_iff_eq] at hsame
        have hjoined : Tiles start stop ({ token with stop := next.stop } :: rest) :=
          ⟨h.1, h.2.1.trans hnext.2.1, hnext.2.2⟩
        rw [ih hjoined]
        rcases Nat.lt_or_ge byte start with hbefore | hstart
        · rw [hjoined.scopesAt?_outside (.inl hbefore), h.scopesAt?_outside (.inl hbefore)]
        · rw [hjoined.scopesAt?_cons hstart, h.scopesAt?_cons hstart]
          have hstop := hnext.2.1
          grind [hnext.scopesAt?_cons]
      · rw [scopesAt?_cons, scopesAt?_cons, ih hnext]

theorem scopesAt?_mergeTokens (h : Tiles start stop tokens) (byte : Nat) :
    scopesAt? (mergeTokens tokens) byte = scopesAt? tokens byte := by
  cases tokens with
  | nil => rfl
  | cons token tokens => exact scopesAt?_mergeFrom h

end

/-! ## Runs -/

/-- The runs of neighbouring bytes with equal scopes: they follow one another, and one ends only
where the scopes change. -/
structure Runs (start stop : Nat) (given : Nat → Option (List Scope)) (tokens : List Token) :
    Prop where
  tiles : Tiles start stop tokens
  alternate : ScopesAlternate tokens
  scopes : ∀ byte, start ≤ byte → byte < stop → scopesAt? tokens byte = given byte

namespace Runs

variable {start stop : Nat} {given : Nat → Option (List Scope)} {token other : Token}
  {tokens others : List Token}

theorem first_scopes (h : Runs start stop given (token :: tokens)) :
    given start = some token.scopes := by
  have hlt := h.tiles.2.1
  have hfirst := h.scopes start (Nat.le_refl _) (Nat.lt_of_lt_of_le hlt h.tiles.2.2.le)
  rw [← hfirst, h.tiles.scopesAt?_cons (Nat.le_refl _), if_pos hlt]

theorem tail (h : Runs start stop given (token :: tokens)) :
    Runs token.stop stop given tokens where
  tiles := h.tiles.2.2
  alternate := h.alternate.tail
  scopes byte hstart hstop := by
    have hlt := h.tiles.2.1
    rw [← h.scopes byte (by omega) hstop, h.tiles.scopesAt?_cons (by omega),
      if_neg (Nat.not_lt_of_le hstart)]

/-- The first run cannot end before that of another list: the next one would go on with the same
scopes. -/
theorem first_stop_le (h : Runs start stop given (token :: tokens))
    (hother : Runs start stop given (other :: others)) : other.stop ≤ token.stop := by
  refine Nat.le_of_not_lt fun hlt => ?_
  have hle := hother.tiles.2.2.le
  have hscopes := h.first_scopes.symm.trans hother.first_scopes
  cases hrest : tokens with
  | nil =>
      have hstop := h.tiles.2.2
      rw [hrest] at hstop
      cases hstop
      omega
  | cons next rest =>
      rw [hrest] at h
      have hnext := h.tail.first_scopes
      have hstart := h.tiles.2.1
      have hinside := hother.scopes token.stop (by omega) (by omega)
      rw [hother.tiles.scopesAt?_cons (by omega), if_pos hlt, hnext] at hinside
      have hdiffer := (List.isChain_cons_cons.mp h.alternate).1
      exact hdiffer (Option.some.inj (hscopes.trans hinside))

theorem unique (h : Runs start stop given tokens) (hother : Runs start stop given others) :
    tokens = others := by
  induction tokens generalizing start others with
  | nil =>
      cases others with
      | nil => rfl
      | cons other others =>
          have hstop : start = stop := h.tiles
          have hlt := hother.tiles.2.1
          have hle := hother.tiles.2.2.le
          omega
  | cons token tokens ih =>
      cases others with
      | nil =>
          have hstop : start = stop := hother.tiles
          have hlt := h.tiles.2.1
          have hle := h.tiles.2.2.le
          omega
      | cons other others =>
          have hscopes := h.first_scopes.symm.trans hother.first_scopes
          have hstop := Nat.le_antisymm (hother.first_stop_le h) (h.first_stop_le hother)
          have htoken : token = other := by
            obtain ⟨tokenStart, tokenStop, tokenScopes⟩ := token
            obtain ⟨otherStart, otherStop, otherScopes⟩ := other
            cases hscopes
            cases hstop
            cases h.tiles.1
            cases hother.tiles.1
            rfl
          rw [htoken] at h ⊢
          rw [ih h.tail hother.tail]

end Runs

/-! ## Finished lines -/

theorem clipTokens_clipTokens {length longer : Nat} (hle : length ≤ longer) (tokens : List Token) :
    clipTokens length (clipTokens longer tokens) = clipTokens length tokens := by
  induction tokens with
  | nil => rfl
  | cons token tokens ih =>
      simp only [clipTokens, List.filter_cons] at ih ⊢
      by_cases hin : token.start < length
      · have hlonger : token.start < longer := by omega
        simp [hin, hlonger, ih, Token.clip, Nat.min_eq_right hle]
      · by_cases hlonger : token.start < longer <;> simp [hin, hlonger, ih, Token.clip]

namespace TokenStream

variable {stream : TokenStream} {length : Nat}

theorem mergeTokens_finish (stream : TokenStream) (length : Nat) (scopes : List Scope) :
    mergeTokens (stream.finish length false scopes) = stream.finish length true scopes := by
  rcases Nat.eq_zero_or_pos length with rfl | hpos
  · rfl
  · simp [finish_of_pos hpos]

theorem scopesAt?_finish (h : Tiles 0 stream.position stream.tokens)
    (hle : length ≤ stream.position) (merge : Bool) (scopes : List Scope) {byte : Nat}
    (hbyte : byte < length) :
    scopesAt? (stream.finish length merge scopes) byte = scopesAt? stream.tokens byte := by
  have hpos : 0 < length := by omega
  rw [← scopesAt?_clipTokens hbyte stream.tokens, finish_of_pos hpos]
  split
  · exact scopesAt?_mergeTokens (h.clipTokens hpos hle) byte
  · rfl

theorem runs_finish (h : Tiles 0 stream.position stream.tokens) (hpos : 0 < length)
    (hle : length ≤ stream.position) (scopes : List Scope) :
    Runs 0 length (scopesAt? stream.tokens) (stream.finish length true scopes) where
  tiles := tiles_finish h hpos hle true scopes
  alternate := scopesAlternate_finish h hpos hle scopes
  scopes _ _ hbyte := scopesAt?_finish h hle true scopes hbyte

theorem cutAt_finish (h : Tiles 0 stream.position stream.tokens) (hpos : 0 < length) {longer : Nat}
    (hlonger : length ≤ longer) (hle : longer ≤ stream.position) (merge : Bool)
    (scopes others : List Scope) :
    CutAt length (stream.finish longer merge scopes) (stream.finish length merge others) := by
  have htiles := tiles_finish h (by omega) hle merge scopes
  have hcut := htiles.cutAt hpos hlonger
  suffices heq : clipTokens length (stream.finish longer merge scopes) =
      stream.finish length merge others by rwa [heq] at hcut
  cases merge with
  | false => simp [finish_of_pos hpos, finish_of_pos (hpos.trans_le hlonger),
      clipTokens_clipTokens hlonger]
  | true =>
      -- both are the runs of the shorter line
      have hruns : Runs 0 length (scopesAt? stream.tokens)
          (clipTokens length (stream.finish longer true scopes)) := by
        refine ⟨htiles.clipTokens hpos hlonger, hcut.scopesAlternate ?_, fun byte _ hbyte => ?_⟩
        · exact scopesAlternate_finish h (by omega) hle scopes
        · rw [scopesAt?_clipTokens hbyte]
          exact scopesAt?_finish h hle true scopes (by omega)
      exact hruns.unique (runs_finish h hpos (hlonger.trans hle) others)

end TokenStream

end ScopeLexer
