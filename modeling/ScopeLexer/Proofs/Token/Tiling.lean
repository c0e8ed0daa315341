import Mathlib.Data.List.Chain
import ScopeLexer.Proofs.Text.Boundary
import ScopeLexer.Token

/-!
# Tokens that cover a line

`Tiles start stop tokens` says that tokens follow one another from `start` to `stop` without a gap,
an overlap or an empty span.  Every stream of tokens does, whatever the order of the positions it is
given; cutting at the end of the line and merging neighbours keep it so.
-/

namespace ScopeLexer

/-- Tokens that follow one another from `start` to `stop`, none of them empty. -/
def Tiles (start stop : Nat) : List Token → Prop
  | [] => start = stop
  | token :: tokens => token.start = start ∧ start < token.stop ∧ Tiles token.stop stop tokens

def ScopesAlternate (tokens : List Token) : Prop :=
  tokens.IsChain fun left right => left.scopes ≠ right.scopes

/-! ## Streams -/

theorem Tiles.concat {start middle stop : Nat} {tokens : List Token} {scopes : List Scope}
    (h : Tiles start middle tokens) (hlt : middle < stop) :
    Tiles start stop (tokens ++ [⟨middle, stop, scopes⟩]) := by
  induction tokens generalizing start with
  | nil =>
      cases h
      exact ⟨rfl, hlt, rfl⟩
  | cons token tokens ih =>
      obtain ⟨hstart, hstop, hrest⟩ := h
      exact ⟨hstart, hstop, ih hrest⟩

theorem Tiles.produce {start : Nat} {stream : TokenStream}
    (h : Tiles start stream.position stream.tokens) (stop : Nat) (scopes : List Scope) :
    Tiles start (stream.produce stop scopes).position (stream.produce stop scopes).tokens := by
  unfold TokenStream.produce
  split
  · exact h
  · next hlt => exact h.concat (Nat.lt_of_not_le hlt)

theorem TokenStream.mem_produce {stream : TokenStream} {stop : Nat} {scopes : List Scope}
    {token : Token} (h : token ∈ (stream.produce stop scopes).tokens) :
    token ∈ stream.tokens ∨ token.stop = stop ∧ token.scopes = scopes := by
  unfold produce at h
  split at h
  · exact .inl h
  · rcases List.mem_append.mp h with hmem | hmem
    · exact .inl hmem
    · rw [List.mem_singleton.mp hmem]
      exact .inr ⟨rfl, rfl⟩

theorem TokenStream.le_position_produce (stream : TokenStream) (stop : Nat)
    (scopes : List Scope) : stop ≤ (stream.produce stop scopes).position := by
  unfold produce
  split
  · assumption
  · exact Nat.le_refl _

theorem TokenStream.position_produce (stream : TokenStream) (stop : Nat) (scopes : List Scope) :
    (stream.produce stop scopes).position = max stream.position stop := by
  unfold produce
  split
  · exact (Nat.max_eq_left ‹_›).symm
  · next hlt => exact (Nat.max_eq_right (Nat.le_of_not_le hlt)).symm

theorem Tiles.append {start middle stop : Nat} {tokens more : List Token}
    (h : Tiles start middle tokens) (hmore : Tiles middle stop more) :
    Tiles start stop (tokens ++ more) := by
  induction tokens generalizing start with
  | nil =>
      cases h
      exact hmore
  | cons token tokens ih =>
      obtain ⟨hstart, hstop, hrest⟩ := h
      exact ⟨hstart, hstop, ih hrest⟩

theorem Tiles.le {start stop : Nat} {tokens : List Token} (h : Tiles start stop tokens) :
    start ≤ stop := by
  induction tokens generalizing start with
  | nil => exact Nat.le_of_eq h
  | cons token tokens ih =>
      obtain ⟨-, hstop, hrest⟩ := h
      exact Nat.le_trans (Nat.le_of_lt hstop) (ih hrest)

theorem Tiles.bounds {start stop : Nat} {tokens : List Token} (h : Tiles start stop tokens)
    {token : Token} (htoken : token ∈ tokens) :
    start ≤ token.start ∧ token.start < token.stop ∧ token.stop ≤ stop := by
  induction tokens generalizing start with
  | nil => contradiction
  | cons first tokens ih =>
      obtain ⟨hstart, hstop, hrest⟩ := h
      rcases List.mem_cons.mp htoken with rfl | htoken
      · exact ⟨Nat.le_of_eq hstart.symm, by omega, hrest.le⟩
      · obtain ⟨hle, hlt, hend⟩ := ih hrest htoken
        exact ⟨by omega, hlt, hend⟩

theorem Tiles.stop_le {start stop bound : Nat} {tokens : List Token} (h : Tiles start stop tokens)
    (hstart : start ≤ bound) (htokens : ∀ token ∈ tokens, token.stop ≤ bound) : stop ≤ bound := by
  induction tokens generalizing start with
  | nil => exact h ▸ hstart
  | cons token tokens ih =>
      obtain ⟨htoken, hothers⟩ := List.forall_mem_cons.mp htokens
      exact ih h.2.2 htoken hothers

/-! ## The end of the line -/

theorem clipTokens_of_le {start stop length : Nat} {tokens : List Token}
    (h : Tiles start stop tokens) (hle : length ≤ start) : clipTokens length tokens = [] := by
  induction tokens generalizing start with
  | nil => rfl
  | cons token tokens ih =>
      obtain ⟨rfl, hstop, hrest⟩ := h
      have hout : ¬ token.start < length := Nat.not_lt_of_le hle
      have hnone := ih hrest (by omega)
      simp only [clipTokens, List.map_eq_nil_iff] at hnone ⊢
      simp [hout, hnone]

theorem Tiles.clipTokens {start stop length : Nat} {tokens : List Token}
    (h : Tiles start stop tokens) (hlt : start < length) (hle : length ≤ stop) :
    Tiles start length (clipTokens length tokens) := by
  induction tokens generalizing start with
  | nil =>
      cases h
      omega
  | cons token tokens ih =>
      obtain ⟨rfl, hstop, hrest⟩ := h
      have hcons : ScopeLexer.clipTokens length (token :: tokens) =
          token.clip length :: ScopeLexer.clipTokens length tokens := by
        simp [ScopeLexer.clipTokens, hlt]
      rw [hcons]
      refine ⟨rfl, by simp only [Token.clip]; omega, ?_⟩
      rcases Nat.lt_or_ge token.stop length with hin | hout
      · have hmin : min token.stop length = token.stop := Nat.min_eq_left (Nat.le_of_lt hin)
        simpa only [Token.clip, hmin] using ih hrest hin
      · -- the token reaches the end of the line, and all that follow lie behind it
        rw [clipTokens_of_le hrest hout]
        exact Nat.min_eq_right hout

theorem mem_clipTokens {length : Nat} {tokens : List Token} {token : Token}
    (h : token ∈ clipTokens length tokens) :
    ∃ whole ∈ tokens, token.scopes = whole.scopes ∧
      (token.stop = length ∨ token.stop = whole.stop ∧ whole.stop ≤ length) := by
  obtain ⟨whole, hmem, rfl⟩ := List.mem_map.mp h
  refine ⟨whole, (List.mem_filter.mp hmem).1, rfl, ?_⟩
  simp only [Token.clip]
  omega

/-! ## Merging -/

theorem Tiles.mergeFrom {start stop : Nat} {token : Token} {tokens : List Token}
    (h : Tiles start stop (token :: tokens)) : Tiles start stop (mergeFrom token tokens) := by
  induction tokens generalizing token start with
  | nil => exact h
  | cons next rest ih =>
      obtain ⟨hstart, hstop, hnext, hlt, hrest⟩ := h
      rw [ScopeLexer.mergeFrom]
      split
      · have hjoined : Tiles start stop ({ token with stop := next.stop } :: rest) :=
          ⟨hstart, by simp only; omega, hrest⟩
        exact ih hjoined
      · exact ⟨hstart, hstop, ih ⟨hnext, hlt, hrest⟩⟩

theorem Tiles.mergeTokens {start stop : Nat} {tokens : List Token} (h : Tiles start stop tokens) :
    Tiles start stop (mergeTokens tokens) := by
  cases tokens with
  | nil => exact h
  | cons token tokens => exact h.mergeFrom

theorem mem_mergeFrom {first token : Token} {tokens : List Token}
    (h : token ∈ mergeFrom first tokens) :
    ∃ part ∈ first :: tokens, part.stop = token.stop ∧ part.scopes = token.scopes := by
  induction tokens generalizing first with
  | nil =>
      rw [List.mem_singleton.mp h]
      exact ⟨first, by simp, rfl, rfl⟩
  | cons next rest ih =>
      rw [mergeFrom] at h
      split at h
      · next hsame =>
        simp only [Bool.and_eq_true, beq_iff_eq] at hsame
        obtain ⟨part, hmem, hstop, hscopes⟩ := ih h
        rcases List.mem_cons.mp hmem with rfl | hmem
        · exact ⟨next, by simp, hstop, hsame.1 ▸ hscopes⟩
        · exact ⟨part, by simp [hmem], hstop, hscopes⟩
      · rcases List.mem_cons.mp h with rfl | h
        · exact ⟨token, by simp, rfl, rfl⟩
        · obtain ⟨part, hmem, hpart⟩ := ih h
          exact ⟨part, List.mem_cons_of_mem _ hmem, hpart⟩

theorem mem_mergeTokens {token : Token} {tokens : List Token} (h : token ∈ mergeTokens tokens) :
    ∃ part ∈ tokens, part.stop = token.stop ∧ part.scopes = token.scopes := by
  cases tokens with
  | nil => contradiction
  | cons first tokens => exact mem_mergeFrom h

theorem scopes_head_mergeFrom (token : Token) (tokens : List Token) :
    ∀ first ∈ (mergeFrom token tokens).head?, first.scopes = token.scopes := by
  induction tokens generalizing token with
  | nil => simp [mergeFrom]
  | cons next rest ih =>
      rw [mergeFrom]
      split
      · exact ih { token with stop := next.stop }
      · simp

theorem scopesAlternate_mergeFrom {start stop : Nat} {token : Token} {tokens : List Token}
    (h : Tiles start stop (token :: tokens)) : ScopesAlternate (mergeFrom token tokens) := by
  induction tokens generalizing token start with
  | nil => exact List.isChain_singleton token
  | cons next rest ih =>
      obtain ⟨hstart, hstop, hnext, hlt, hrest⟩ := h
      rw [mergeFrom]
      split
      · have hjoined : Tiles start stop ({ token with stop := next.stop } :: rest) :=
          ⟨hstart, by simp only; omega, hrest⟩
        exact ih hjoined
      · next hdiffer =>
        have hscopes : token.scopes ≠ next.scopes := by
          intro hsame
          simp [hsame, hnext] at hdiffer
        refine List.isChain_cons.mpr ⟨fun first hfirst => ?_, ih ⟨hnext, hlt, hrest⟩⟩
        rw [scopes_head_mergeFrom next rest first hfirst]
        exact hscopes

theorem scopesAlternate_mergeTokens {start stop : Nat} {tokens : List Token}
    (h : Tiles start stop tokens) : ScopesAlternate (mergeTokens tokens) := by
  cases tokens with
  | nil => exact List.isChain_nil
  | cons token tokens => exact scopesAlternate_mergeFrom h

/-! ## The text of tokens -/

theorem Token.value_between {line : Text} {token : Token} {before middle after : List Char}
    (h : line.toList = before ++ middle ++ after) (hstart : token.start = byteLength before)
    (hstop : token.stop = byteLength before + byteLength middle) : token.value line = middle := by
  simp only [value, range, Text.slice, hstart, hstop, Text.slice?_between h, Option.getD_some]

theorem Tiles.flatMap_value {line : Text} {start : Nat} {tokens : List Token}
    (h : Tiles start line.byteSize tokens) (hstops : ∀ token ∈ tokens, line.IsBoundary token.stop)
    {before rest : List Char} (hline : line.toList = before ++ rest)
    (hstart : byteLength before = start) : tokens.flatMap (·.value line) = rest := by
  induction tokens generalizing start before rest with
  | nil =>
      have hsize : byteLength before = byteLength before + byteLength rest := by
        rw [← byteLength_append, ← hline]
        exact hstart.trans h
      have hnone : rest = [] := byteLength_eq_zero.mp (by omega)
      simp [hnone]
  | cons token tokens ih =>
      obtain ⟨htoken, hlt, hrest⟩ := h
      obtain ⟨upTo, after, hsplit, hbytes⟩ := hstops token (by simp)
      rcases List.append_eq_append_iff.mp (hline.symm.trans hsplit) with
        ⟨middle, rfl, rfl⟩ | ⟨middle, rfl, -⟩
      · rw [byteLength_append] at hbytes
        have hthree : line.toList = before ++ middle ++ after := by simp [hline]
        have hvalue : token.value line = middle :=
          Token.value_between hthree (by omega) hbytes.symm
        rw [List.flatMap_cons, hvalue]
        congr 1
        exact ih hrest (fun next hnext => hstops next (by simp [hnext])) hsplit
          (by rw [byteLength_append]; exact hbytes)
      · -- the token would end in front of its start
        rw [byteLength_append] at hstart
        omega

/-! ## Finished lines -/

namespace TokenStream

theorem finish_of_pos {length : Nat} (hpos : 0 < length) (stream : TokenStream) (merge : Bool)
    (scopes : List Scope) :
    stream.finish length merge scopes =
      if merge then mergeTokens (clipTokens length stream.tokens)
      else clipTokens length stream.tokens := by
  have hne : (length == 0) = false := by
    simp only [beq_eq_false_iff_ne]
    omega
  simp [finish, hne]

theorem tiles_finish {stream : TokenStream} (h : Tiles 0 stream.position stream.tokens)
    {length : Nat} (hpos : 0 < length) (hle : length ≤ stream.position) (merge : Bool)
    (scopes : List Scope) : Tiles 0 length (stream.finish length merge scopes) := by
  have hclip := h.clipTokens hpos hle
  rw [finish_of_pos hpos]
  split
  · exact hclip.mergeTokens
  · exact hclip

/-- Every token of a finished line comes from one of the stream: it ends with it, or with the
line. -/
theorem mem_finish {stream : TokenStream} {length : Nat} (hpos : 0 < length) {merge : Bool}
    {scopes : List Scope} {token : Token} (h : token ∈ stream.finish length merge scopes) :
    ∃ whole ∈ stream.tokens, token.scopes = whole.scopes ∧
      (token.stop = length ∨ token.stop = whole.stop ∧ whole.stop ≤ length) := by
  rw [finish_of_pos hpos] at h
  split at h
  · obtain ⟨part, hpart, hstop, hscopes⟩ := mem_mergeTokens h
    rw [← hstop, ← hscopes]
    exact mem_clipTokens hpart
  · exact mem_clipTokens h

theorem scopesAlternate_finish {stream : TokenStream}
    (h : Tiles 0 stream.position stream.tokens) {length : Nat} (hpos : 0 < length)
    (hle : length ≤ stream.position) (scopes : List Scope) :
    ScopesAlternate (stream.finish length true scopes) := by
  rw [finish_of_pos hpos, if_pos rfl]
  exact scopesAlternate_mergeTokens (h.clipTokens hpos hle)

end TokenStream

end ScopeLexer
