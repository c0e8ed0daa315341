import ScopeLexer.Proofs.Line.Reachable
import ScopeLexer.Proofs.Scan.Spans

/-!
# The scopes of captured text

Groups that nest give each byte of a match the scopes of all groups around it.  A group with patterns
gives its text what a scan of its own gives it.  The open groups are closed late and the stream never
goes back, so what is left to do depends on both: the open groups have the bytes from the position
of the stream on, and no group that is still to come is cut by this position or by their ends.
-/

namespace ScopeLexer

open Regex Outcome

/-! ## Tokens with their bytes -/

namespace TokenStream

/-- The tokens of a stream, beyond those of an earlier one, follow it without a gap, and the scopes
of each of their bytes are as `given`. -/
def Fills (given : Nat → List Scope → Prop) (stream next : TokenStream) : Prop :=
  ∃ more, next.tokens = stream.tokens ++ more ∧ Tiles stream.position next.position more ∧
    ∀ token ∈ more, ∀ byte, token.start ≤ byte → byte < token.stop → given byte token.scopes

variable {given : Nat → List Scope → Prop} {stream middle next : TokenStream}

theorem Fills.refl (stream : TokenStream) : Fills given stream stream :=
  ⟨[], by simp, rfl, by simp⟩

theorem Fills.trans (h : Fills given stream middle) (h' : Fills given middle next) :
    Fills given stream next := by
  obtain ⟨more, htokens, htiles, hmore⟩ := h
  obtain ⟨others, hothers, hfollow, hgiven⟩ := h'
  refine ⟨more ++ others, by rw [hothers, htokens, List.append_assoc], htiles.append hfollow,
    fun token htoken => ?_⟩
  rcases List.mem_append.mp htoken with hmem | hmem
  · exact hmore token hmem
  · exact hgiven token hmem

theorem Fills.imp {other : Nat → List Scope → Prop} (h : Fills given stream next)
    (himp : ∀ byte scopes, stream.position ≤ byte → byte < next.position → given byte scopes →
      other byte scopes) : Fills other stream next := by
  obtain ⟨more, htokens, htiles, hmore⟩ := h
  refine ⟨more, htokens, htiles, fun token htoken byte hstart hstop => ?_⟩
  obtain ⟨hfirst, -, hlast⟩ := htiles.bounds htoken
  exact himp byte _ (by omega) (by omega) (hmore token htoken byte hstart hstop)

theorem Fills.produce {stop : Nat} {scopes : List Scope}
    (h : ∀ byte, stream.position ≤ byte → byte < stop → given byte scopes) :
    Fills given stream (stream.produce stop scopes) := by
  unfold TokenStream.produce
  split
  · exact .refl stream
  · next hlt =>
    refine ⟨_, rfl, ⟨rfl, Nat.lt_of_not_le hlt, rfl⟩, fun token htoken byte hstart hstop => ?_⟩
    cases List.mem_singleton.mp htoken
    exact h byte hstart hstop

end TokenStream

theorem Tiles.produceAll_fills {start stop : Nat} {tokens : List Token}
    (h : Tiles start stop tokens) {stream : TokenStream}
    (hposition : stream.position = start ∨ stop ≤ stream.position) :
    TokenStream.Fills (fun byte scopes => ∃ token ∈ tokens, token.start ≤ byte ∧ byte < token.stop ∧
      scopes = token.scopes) stream (stream.produceAll tokens) ∧
    (stream.produceAll tokens).position = max stream.position stop := by
  induction tokens generalizing stream start with
  | nil =>
      have hle : stop ≤ stream.position := hposition.elim (fun hstart => hstart ▸ h.ge) id
      exact ⟨⟨[], by simp [TokenStream.produceAll], rfl, by simp⟩, (Nat.max_eq_left hle).symm⟩
  | cons token tokens ih =>
      obtain ⟨htoken, hlt, hrest⟩ := h
      have hle := hrest.le
      have hreached := stream.position_produce token.stop token.scopes
      obtain ⟨hfills, hend⟩ :=
        @ih _ hrest (stream.produce token.stop token.scopes) (by omega)
      refine ⟨TokenStream.Fills.trans (.produce fun byte hstart hstop => ?_) (hfills.imp ?_), ?_⟩
      · exact ⟨token, by simp, by omega, hstop, rfl⟩
      · rintro byte scopes - - ⟨other, hother, hcovers⟩
        exact ⟨other, by simp [hother], hcovers⟩
      · rw [TokenStream.produceAll, List.foldl_cons, ← TokenStream.produceAll, hend]
        omega

/-! ## Groups that nest -/

namespace Capture

def names (capture : Capture) (line : Text) (found : Match) : List Scope :=
  match capture.name with
  | some name => name.resolve line found.groups
  | none => []

def encloses (found : Match) (range : Range) (capture : Capture) : Bool :=
  (capturedRange? found capture.group).any fun outer =>
    outer.start ≤ range.start && range.stop ≤ outer.stop

def covers (found : Match) (byte : Nat) (capture : Capture) : Bool :=
  capture.encloses found ⟨byte, byte + 1⟩

def Precedes (found : Match) (first second : Capture) : Prop :=
  ∀ range ∈ capturedRange? found first.group, ∀ later ∈ capturedRange? found second.group,
    range.stop ≤ later.start ∨ range.start ≤ later.start ∧ later.stop ≤ range.stop

end Capture

/-- The non-empty groups that are captured lie inside the match; of two of them the one with the
greater number lies behind the other or within it. -/
structure Regex.Match.Nests (found : Match) (captures : List Capture) : Prop where
  inside : ∀ capture ∈ captures, ∀ range ∈ capturedRange? found capture.group,
    found.start ≤ range.start ∧ range.stop ≤ found.stop
  precedes : ∀ first ∈ captures, ∀ second ∈ captures, first.group < second.group →
    first.Precedes found second

/-- The scopes that the captures of a match give a byte: the names of those around it or, when the
first with patterns decides, what the scan of its text gives. -/
inductive Gives (scanCapture : CaptureScan) (line : Text) (found : Match) (scopes : ScopeStack)
    (captures : List Capture) (byte : Nat) : List Scope → Prop where
  | named (hplain : ∀ capture ∈ captures, capture.covers found byte → capture.rule = none) :
      Gives scanCapture line found scopes captures byte
        (scopes.toList ++ (captures.filter (·.covers found byte)).flatMap (·.names line found))
  | scanned {before after : List Capture} {capture : Capture} {rule : RuleId} {range : Range}
      {tokens : List Token} {token : Token}
      (hcaptures : captures = before ++ capture :: after)
      (hbefore : ∀ other ∈ before, other.covers found byte → other.rule = none)
      (hrange : capturedRange? found capture.group = some range)
      (hcovers : capture.covers found byte) (hrule : capture.rule = some rule)
      (htokens : scanCapture rule range (scopes.extend
        (((before.filter (·.encloses found range)) ++ [capture]).flatMap (·.names line found))) =
          .ok tokens)
      (htoken : token ∈ tokens) (hstart : token.start ≤ byte) (hstop : byte < token.stop) :
      Gives scanCapture line found scopes captures byte token.scopes

def CaptureScan.Covers (scanCapture : CaptureScan) (line : Text) : Prop :=
  ∀ rule range scopes tokens, line.IsBoundary range.stop → range.start < range.stop →
    scanCapture rule range scopes = .ok tokens → Tiles range.start range.stop tokens

namespace Capture

variable {found : Match} {capture : Capture} {range : Range} {byte : Nat}

theorem covers_iff (hrange : capturedRange? found capture.group = some range) :
    capture.covers found byte = true ↔ range.start ≤ byte ∧ byte < range.stop := by
  simp only [covers, encloses, hrange, Option.any_some, Bool.and_eq_true, decide_eq_true_eq]
  exact Iff.rfl

theorem not_covers (hrange : capturedRange? found capture.group = none) :
    capture.covers found byte = false := by
  simp [covers, encloses, hrange]

theorem Precedes.encloses_eq {first : Capture} (h : first.Precedes found capture)
    (hrange : capturedRange? found capture.group = some range) (hstart : range.start ≤ byte)
    (hstop : byte < range.stop) : first.encloses found range = first.covers found byte := by
  cases hfirst : capturedRange? found first.group with
  | none => simp [covers, encloses, hfirst]
  | some outer =>
      have hprecedes := h outer hfirst range hrange
      simp only [covers, encloses, hfirst, Option.any_some]
      rw [Bool.eq_iff_iff]
      simp only [Bool.and_eq_true, decide_eq_true_eq]
      omega

theorem scopesIn_eq (capture : Capture) (line : Text) (found : Match) (outer : ScopeStack) :
    capture.scopesIn line found outer = outer.extend (capture.names line found) := by
  unfold scopesIn names ScopeStack.enter
  cases capture.name with
  | none => simp [ScopeStack.extend]
  | some name => rfl

end Capture

namespace Gives

variable {scanCapture : CaptureScan} {line : Text} {found : Match} {scopes : ScopeStack}
  {capture : Capture} {captures : List Capture} {byte : Nat} {given : List Scope}

theorem cons_apart (h : Gives scanCapture line found scopes captures byte given)
    (hprecedes : ∀ second ∈ captures, capture.Precedes found second)
    (hapart : capture.covers found byte = false) :
    Gives scanCapture line found scopes (capture :: captures) byte given := by
  have hnot : ¬capture.covers found byte = true := by simp [hapart]
  cases h with
  | named hplain =>
      rw [← List.filter_cons_of_neg hnot]
      exact .named (List.forall_mem_cons.mpr ⟨fun hcovers => absurd hcovers hnot, hplain⟩)
  | @scanned before after inner rule range tokens token hcaptures hbefore hrange hcovers hrule
      htokens htoken hstart hstop =>
      have hbyte := (Capture.covers_iff hrange).mp hcovers
      have hencloses : ¬capture.encloses found range = true := by
        rw [(hprecedes inner (by simp [hcaptures])).encloses_eq hrange hbyte.1 hbyte.2]
        exact hnot
      have hnames : before.filter (·.encloses found range) =
          (capture :: before).filter (·.encloses found range) :=
        (List.filter_cons_of_neg hencloses).symm
      rw [hnames] at htokens
      exact .scanned (by rw [hcaptures]; rfl)
        (List.forall_mem_cons.mpr ⟨fun hcovers => absurd hcovers hnot, hbefore⟩) hrange hcovers hrule
        htokens htoken hstart hstop

theorem outside (h : ∀ capture ∈ captures, capture.covers found byte = false) :
    Gives scanCapture line found scopes captures byte scopes.toList := by
  have hnone : captures.filter (·.covers found byte) = [] :=
    List.filter_eq_nil_iff.mpr fun capture hcapture => by simp [h capture hcapture]
  have hnames : scopes.toList = scopes.toList ++
      (captures.filter (·.covers found byte)).flatMap (·.names line found) := by simp [hnone]
  rw [hnames]
  exact .named fun capture hcapture hcovers => by simp [h capture hcapture] at hcovers

theorem cons_within
    (h : Gives scanCapture line found (capture.scopesIn line found scopes) captures byte given)
    (hprecedes : ∀ second ∈ captures, capture.Precedes found second)
    (hcovers : capture.covers found byte = true) (hrule : capture.rule = none) :
    Gives scanCapture line found scopes (capture :: captures) byte given := by
  rw [Capture.scopesIn_eq] at h
  cases h with
  | named hplain =>
      have hnames : (scopes.extend (capture.names line found)).toList ++
          (captures.filter (·.covers found byte)).flatMap (·.names line found) =
          scopes.toList ++
            ((capture :: captures).filter (·.covers found byte)).flatMap (·.names line found) := by
        rw [List.filter_cons_of_pos hcovers, List.flatMap_cons]
        simp [ScopeStack.extend, ScopeStack.toList]
      rw [hnames]
      exact .named (List.forall_mem_cons.mpr ⟨fun _ => hrule, hplain⟩)
  | @scanned before after inner rule range tokens token hcaptures hbefore hrange hinner hrule'
      htokens htoken hstart hstop =>
      have hbyte := (Capture.covers_iff hrange).mp hinner
      have hencloses : capture.encloses found range = true := by
        rw [(hprecedes inner (by simp [hcaptures])).encloses_eq hrange hbyte.1 hbyte.2]
        exact hcovers
      have hnames : (scopes.extend (capture.names line found)).extend
          ((before.filter (·.encloses found range) ++ [inner]).flatMap (·.names line found)) =
          scopes.extend (((capture :: before).filter (·.encloses found range) ++ [inner]).flatMap
            (·.names line found)) := by
        rw [List.filter_cons_of_pos hencloses, List.cons_append, List.flatMap_cons]
        simp [ScopeStack.extend]
      rw [hnames] at htokens
      exact .scanned (by rw [hcaptures]; rfl) (List.forall_mem_cons.mpr ⟨fun _ => hrule, hbefore⟩)
        hrange hinner hrule' htokens htoken hstart hstop

end Gives

/-! ## Open captures -/

def openScopes (scopes : ScopeStack) (opened : OpenCaptures) (byte : Nat) : ScopeStack :=
  innermostScopes scopes (opened.dropWhile (·.2 ≤ byte))

section

variable {scopes : ScopeStack} {opened : OpenCaptures} {inner : ScopeStack} {start stop byte : Nat}

theorem openScopes_over (h : stop ≤ byte) :
    openScopes scopes ((inner, stop) :: opened) byte = openScopes scopes opened byte := by
  simp [openScopes, h]

theorem openScopes_inside (h : byte < stop) :
    openScopes scopes ((inner, stop) :: opened) byte = inner := by
  simp [openScopes, Nat.not_le_of_lt h, innermostScopes]

theorem openScopes_dropWhile (h : start ≤ byte) :
    openScopes scopes (opened.dropWhile (·.2 ≤ start)) byte = openScopes scopes opened byte := by
  induction opened with
  | nil => rfl
  | cons entry opened ih =>
      obtain ⟨inner, stop⟩ := entry
      by_cases hover : stop ≤ start
      · rw [List.dropWhile_cons_of_pos (by simpa using hover), ih, openScopes_over (by omega)]
      · rw [List.dropWhile_cons_of_neg (by simpa using hover)]

theorem openScopes_uncut (h : ∀ entry ∈ opened, entry.2 ≤ start ∨ stop ≤ entry.2)
    (hstart : start ≤ byte) (hstop : byte < stop) :
    openScopes scopes opened byte = openScopes scopes opened start := by
  induction opened with
  | nil => rfl
  | cons entry opened ih =>
      obtain ⟨inner, ending⟩ := entry
      obtain ⟨hentry, hothers⟩ := List.forall_mem_cons.mp h
      by_cases hover : ending ≤ start
      · rw [openScopes_over hover, openScopes_over (by omega), ih hothers]
      · rw [openScopes_inside (by omega), openScopes_inside (by omega)]

theorem openScopes_of_over (h : ∀ entry ∈ opened, entry.2 ≤ byte) :
    openScopes scopes opened byte = scopes := by
  induction opened with
  | nil => rfl
  | cons entry opened ih =>
      obtain ⟨hentry, hothers⟩ := List.forall_mem_cons.mp h
      rw [openScopes_over hentry, ih hothers]

theorem closeCaptures_fst (start : Nat) (opened : OpenCaptures) (stream : TokenStream) :
    (closeCaptures start opened stream).1 = opened.dropWhile (·.2 ≤ start) := by
  induction opened generalizing stream with
  | nil => rfl
  | cons entry opened ih =>
      obtain ⟨inner, stop⟩ := entry
      rw [closeCaptures]
      split
      · next hover => rw [ih, List.dropWhile_cons_of_pos (by simpa using hover)]
      · next hover => rw [List.dropWhile_cons_of_neg (by simpa using hover)]

theorem closeCaptures_fills (stop : Nat) (opened : OpenCaptures) (stream : TokenStream) :
    TokenStream.Fills
      (fun byte given => byte < stop ∧ given = (openScopes scopes opened byte).toList) stream
      ((closeCaptures stop opened stream).2.produce stop
        (openScopes scopes opened stop).toList) := by
  induction opened generalizing stream with
  | nil => exact .produce fun byte _ hbyte => ⟨hbyte, rfl⟩
  | cons entry opened ih =>
      obtain ⟨inner, ending⟩ := entry
      rw [closeCaptures]
      split
      · next hover =>
        rw [openScopes_over hover]
        refine .trans (.produce fun byte _ hbyte => ⟨by omega, by rw [openScopes_inside hbyte]⟩)
          ((ih _).imp fun byte given hle _ hgiven => ?_)
        rw [TokenStream.position_produce] at hle
        rw [openScopes_over (by omega)]
        exact hgiven
      · next hover =>
        rw [openScopes_inside (by omega)]
        exact .produce fun byte _ hbyte => ⟨hbyte, by rw [openScopes_inside (by omega)]⟩

theorem closeCaptures_position (stop : Nat) (opened : OpenCaptures) (stream : TokenStream)
    (scopes : List Scope) :
    ((closeCaptures stop opened stream).2.produce stop scopes).position =
      max stream.position stop := by
  induction opened generalizing stream with
  | nil => exact stream.position_produce stop scopes
  | cons entry opened ih =>
      obtain ⟨inner, ending⟩ := entry
      rw [closeCaptures]
      split
      · rw [ih, TokenStream.position_produce]
        omega
      · exact stream.position_produce stop scopes

theorem closeAllCaptures_eq (h : ∀ entry ∈ opened, entry.2 ≤ stop) (stream : TokenStream) :
    closeAllCaptures opened stream = (closeCaptures stop opened stream).2 := by
  induction opened generalizing stream with
  | nil => rfl
  | cons entry opened ih =>
      obtain ⟨inner, ending⟩ := entry
      obtain ⟨hentry, hothers⟩ := List.forall_mem_cons.mp h
      rw [closeAllCaptures, closeCaptures, if_pos hentry, ih hothers]

end

def openCapture (line : Text) (found : Match) (scopes : ScopeStack) (capture : Capture)
    (range : Range) (opened : OpenCaptures) : OpenCaptures :=
  if capture.name.isSome then
    (capture.scopesIn line found (openScopes scopes opened range.start), range.stop) ::
      opened.dropWhile (·.2 ≤ range.start)
  else opened.dropWhile (·.2 ≤ range.start)

section

variable {line : Text} {found : Match} {scopes : ScopeStack} {capture : Capture} {range : Range}
  {opened : OpenCaptures} {byte : Nat}

theorem openCapture_subset : openCapture line found scopes capture range opened ⊆
    (capture.scopesIn line found (openScopes scopes opened range.start), range.stop) ::
      opened.dropWhile (·.2 ≤ range.start) := by
  unfold openCapture
  split
  · exact List.Subset.refl _
  · exact List.subset_cons_self _ _

theorem openCapture_inside
    (h : ∀ entry ∈ opened, entry.2 ≤ range.start ∨ range.stop ≤ entry.2)
    (hstart : range.start ≤ byte) (hstop : byte < range.stop) :
    openScopes scopes (openCapture line found scopes capture range opened) byte =
      capture.scopesIn line found (openScopes scopes opened byte) := by
  unfold openCapture
  split
  · rw [openScopes_inside hstop, openScopes_uncut h hstart hstop]
  · next hname =>
    rw [openScopes_dropWhile hstart, Capture.scopesIn, Option.not_isSome_iff_eq_none.mp hname]
    rfl

theorem openCapture_behind (hstop : range.stop ≤ byte) :
    openScopes scopes (openCapture line found scopes capture range opened) byte =
      openScopes scopes (opened.dropWhile (·.2 ≤ range.start)) byte := by
  unfold openCapture
  split
  · exact openScopes_over hstop
  · rfl

end

/-! ## The captures of a match -/

def Regex.Match.Uncut (found : Match) (captures : List Capture) (position : Nat) : Prop :=
  ∀ capture ∈ captures, ∀ range ∈ capturedRange? found capture.group,
    position ≤ range.start ∨ range.stop ≤ position

/-- What captures that are still to come may rely on. -/
structure Pending (line : Text) (found : Match) (captures : List Capture) (opened : OpenCaptures)
    (stream : TokenStream) : Prop where
  precedes : captures.Pairwise (Capture.Precedes found)
  within : ∀ capture ∈ captures, ∀ range ∈ capturedRange? found capture.group,
    line.IsBoundary range.stop ∧ range.stop ≤ found.stop
  position : found.Uncut captures stream.position
  opened : ∀ entry ∈ opened, entry.2 ≤ found.stop ∧ found.Uncut captures entry.2

theorem capturedRange?_lt {found : Match} {group : Nat} {range : Range}
    (h : capturedRange? found group = some range) : range.start < range.stop := by
  unfold capturedRange? at h
  split at h
  · split at h
    · contradiction
    · next hempty =>
      cases h
      simpa [Range.isEmpty] using hempty
  · contradiction

section

variable {scanCapture : CaptureScan} {line : Text} {found : Match} {scopes : ScopeStack}
  {capture : Capture} {captures : List Capture} {opened : OpenCaptures} {stream next : TokenStream}
  {range : Range}

theorem Pending.skip (h : Pending line found (capture :: captures) opened stream) :
    Pending line found captures opened stream where
  precedes := (List.pairwise_cons.mp h.precedes).2
  within := (List.forall_mem_cons.mp h.within).2
  position := (List.forall_mem_cons.mp h.position).2
  opened entry hentry := ⟨(h.opened entry hentry).1,
    (List.forall_mem_cons.mp (h.opened entry hentry).2).2⟩

theorem Pending.uncut (h : Pending line found (capture :: captures) opened stream)
    (hrange : capturedRange? found capture.group = some range) :
    found.Uncut captures range.start ∧ found.Uncut captures range.stop := by
  have hlt := capturedRange?_lt hrange
  have hprecedes := (List.pairwise_cons.mp h.precedes).1
  refine ⟨fun second hsecond later hlater => ?_, fun second hsecond later hlater => ?_⟩ <;>
    have hlater := hprecedes second hsecond range hrange later hlater <;> omega

theorem Pending.uncutBy (h : Pending line found (capture :: captures) opened stream)
    (hrange : capturedRange? found capture.group = some range) :
    ∀ entry ∈ opened, entry.2 ≤ range.start ∨ range.stop ≤ entry.2 :=
  fun entry hentry => (h.opened entry hentry).2 capture (by simp) range hrange

theorem Pending.outside (h : Pending line found (capture :: captures) opened stream)
    (hrange : capturedRange? found capture.group = some range) {byte : Nat}
    (hbyte : byte < range.start) :
    ∀ second ∈ capture :: captures, second.covers found byte = false := by
  have hlt := capturedRange?_lt hrange
  intro second hsecond
  cases hlater : capturedRange? found second.group with
  | none => exact Capture.not_covers hlater
  | some later =>
      have hstart : range.start ≤ later.start := by
        rcases List.mem_cons.mp hsecond with rfl | hsecond
        · rw [hrange] at hlater
          cases hlater
          exact Nat.le_refl _
        · have hprecedes := (List.pairwise_cons.mp h.precedes).1
          have hbehind := hprecedes second hsecond range hrange later hlater
          omega
      rw [Bool.eq_false_iff]
      intro hcovers
      have hcovered := (Capture.covers_iff hlater).mp hcovers
      omega

theorem Pending.step (h : Pending line found (capture :: captures) opened stream)
    (hrange : capturedRange? found capture.group = some range) {position : Nat}
    (hposition : position = range.start ∨ position = range.stop) {reached : TokenStream}
    (hreached : reached.position = max stream.position position) {inner : ScopeStack}
    {entries : OpenCaptures}
    (hentries : entries ⊆ (inner, range.stop) :: opened.dropWhile (·.2 ≤ range.start)) :
    Pending line found captures entries reached where
  precedes := h.skip.precedes
  within := h.skip.within
  position := by
    obtain ⟨hstart, hstop⟩ := h.uncut hrange
    rw [hreached]
    rcases Nat.le_total position stream.position with hle | hle
    · rw [Nat.max_eq_left hle]
      exact h.skip.position
    · rw [Nat.max_eq_right hle]
      rcases hposition with rfl | rfl
      · exact hstart
      · exact hstop
  opened entry hentry := by
    rcases List.mem_cons.mp (hentries hentry) with rfl | hentry
    · exact ⟨(h.within capture (by simp) range hrange).2, (h.uncut hrange).2⟩
    · exact h.skip.opened entry ((List.dropWhile_sublist _).subset hentry)

def Due (scanCapture : CaptureScan) (line : Text) (found : Match) (scopes : ScopeStack)
    (captures : List Capture) (opened : OpenCaptures) (byte : Nat) (given : List Scope) : Prop :=
  byte < found.stop ∧
    Gives scanCapture line found (openScopes scopes opened byte) captures byte given

theorem Pending.front (h : Pending line found (capture :: captures) opened stream)
    (hrange : capturedRange? found capture.group = some range) :
    TokenStream.Fills (Due scanCapture line found scopes (capture :: captures) opened) stream
      ((closeCaptures range.start opened stream).2.produce range.start
        (openScopes scopes opened range.start).toList) := by
  have hlt := capturedRange?_lt hrange
  have hinside := (h.within capture (by simp) range hrange).2
  refine (closeCaptures_fills range.start opened stream).imp fun byte given _ _ hgiven => ?_
  obtain ⟨hbyte, rfl⟩ := hgiven
  exact ⟨by omega, .outside (h.outside hrange hbyte)⟩

theorem Pending.scanned (h : Pending line found (capture :: captures) opened stream)
    (hscan : scanCapture.Covers line)
    (hrange : capturedRange? found capture.group = some range) {rule : RuleId}
    (hrule : capture.rule = some rule) {tokens : List Token}
    (htokens : scanCapture rule range
      (capture.scopesIn line found (openScopes scopes opened range.start)) = .ok tokens)
    {reached : TokenStream} (hreached : reached.position = max stream.position range.start) :
    TokenStream.Fills (Due scanCapture line found scopes (capture :: captures) opened) reached
      (reached.produceAll tokens) ∧
    (reached.produceAll tokens).position = max stream.position range.stop := by
  have hlt := capturedRange?_lt hrange
  obtain ⟨hboundary, hinside⟩ := h.within capture (by simp) range hrange
  have hposition := h.position capture (by simp) range hrange
  have htiles := hscan rule range _ tokens hboundary hlt htokens
  obtain ⟨hfills, hend⟩ := htiles.produceAll_fills (by omega : reached.position = range.start ∨ _)
  refine ⟨hfills.imp fun byte given hstart hstop hgiven => ?_, by omega⟩
  obtain ⟨token, htoken, hbyteStart, hbyteStop, rfl⟩ := hgiven
  have hsame : openScopes scopes opened byte = openScopes scopes opened range.start :=
    openScopes_uncut (h.uncutBy hrange) (by omega) (by omega)
  refine ⟨by omega, ?_⟩
  rw [hsame]
  refine .scanned (List.nil_append _).symm (by simp) hrange
    ((Capture.covers_iff hrange).mpr ⟨by omega, by omega⟩) hrule ?_ htoken hbyteStart hbyteStop
  simpa [← Capture.scopesIn_eq] using htokens

theorem Due.behind {byte : Nat} {given : List Scope}
    (h : Due scanCapture line found scopes captures (opened.dropWhile (·.2 ≤ range.start)) byte
      given)
    (hprecedes : ∀ second ∈ captures, capture.Precedes found second)
    (hrange : capturedRange? found capture.group = some range) (hbyte : range.stop ≤ byte) :
    Due scanCapture line found scopes (capture :: captures) opened byte given := by
  have hlt := capturedRange?_lt hrange
  obtain ⟨hinside, hgives⟩ := h
  rw [openScopes_dropWhile (by omega)] at hgives
  refine ⟨hinside, hgives.cons_apart hprecedes ?_⟩
  rw [Bool.eq_false_iff]
  intro hcovers
  have hcovered := (Capture.covers_iff hrange).mp hcovers
  omega

theorem produceCaptures_fills (hscan : scanCapture.Covers line)
    (hpending : Pending line found captures opened stream)
    (h : produceCaptures scanCapture line found scopes captures opened stream = .ok next) :
    TokenStream.Fills (Due scanCapture line found scopes captures opened) stream
      (next.produce found.stop scopes.toList) := by
  induction captures generalizing opened stream with
  | nil =>
      cases h
      have hover : ∀ entry ∈ opened, entry.2 ≤ found.stop :=
        fun entry hentry => (hpending.opened entry hentry).1
      have hfills := @closeCaptures_fills scopes found.stop opened stream
      rw [openScopes_of_over hover, ← closeAllCaptures_eq hover] at hfills
      refine hfills.imp fun byte given _ _ hgiven => ⟨hgiven.1, ?_⟩
      rw [hgiven.2]
      exact .outside (by simp)
  | cons capture captures ih =>
      have hprecedes := (List.pairwise_cons.mp hpending.precedes).1
      rw [produceCaptures] at h
      split at h
      · next hrange =>
        refine (ih hpending.skip h).imp fun byte given _ _ hgiven => ⟨hgiven.1, ?_⟩
        exact hgiven.2.cons_apart hprecedes (Capture.not_covers hrange)
      · next range hrange =>
        dsimp only at h
        rw [closeCaptures_fst, ← openScopes] at h
        have hlt := capturedRange?_lt hrange
        have hposition := hpending.position capture (by simp) range hrange
        obtain ⟨huncutStart, huncutStop⟩ := hpending.uncut hrange
        have hreached := closeCaptures_position range.start opened stream
          (openScopes scopes opened range.start).toList
        refine (hpending.front hrange).trans ?_
        generalize (closeCaptures range.start opened stream).2.produce range.start
          (openScopes scopes opened range.start).toList = reached at h hreached
        split at h
        · next rule hrule =>
          obtain ⟨tokens, htokens, h⟩ := bind_eq_ok.mp h
          obtain ⟨hscanned, hend⟩ := hpending.scanned hscan hrange hrule htokens hreached
          have hrest := ih (hpending.step hrange (.inr rfl) hend
            (List.subset_cons_self (scopes, range.stop) _)) h
          exact hscanned.trans (hrest.imp fun byte given hle _ hgiven =>
            hgiven.behind hprecedes hrange (by omega))
        · next hrule =>
          rw [← openCapture] at h
          have hrest := ih (hpending.step hrange (.inl rfl) hreached openCapture_subset) h
          refine hrest.imp fun byte given hle _ hgiven => ?_
          have hstart : range.start ≤ byte := by omega
          rcases Nat.lt_or_ge byte range.stop with hstop | hstop
          · refine ⟨hgiven.1, .cons_within ?_ hprecedes
              ((Capture.covers_iff hrange).mpr ⟨hstart, hstop⟩) hrule⟩
            rw [← openCapture_inside (hpending.uncutBy hrange) hstart hstop]
            exact hgiven.2
          · refine Due.behind ⟨hgiven.1, ?_⟩ hprecedes hrange hstop
            rw [← openCapture_behind hstop]
            exact hgiven.2

end

/-! ## Scans within captures -/

theorem Scan.capture_covers (scan : Scan) (nesting : Nat) :
    (scan.capture nesting).Covers scan.line := by
  intro rule range scopes tokens hboundary hlt h
  cases nesting with
  | zero => contradiction
  | succ nesting =>
      rw [capture] at h
      obtain ⟨last, hrun, htokens⟩ := bind_eq_ok.mp h
      cases pure_eq_ok.mp htokens
      obtain ⟨hlast, hend⟩ := Spanning.run (capture_extends _ scopes.root nesting)
        ⟨rfl, TokenStream.spans_empty _ _ _⟩ hrun
      have hsize := hboundary.byteSize_upTo
      have hle : last.stream.position ≤ range.stop :=
        hlast.stream.tiles.stop_le (Nat.le_of_lt hlt) fun token htoken =>
          (hlast.stream.tokens token htoken).stop.le_byteSize.trans_eq hsize
      have hposition : last.stream.position = range.stop :=
        Nat.le_antisymm hle (hsize ▸ hend)
      exact hposition ▸ hlast.stream.tiles

theorem Tiles.unique {start stop : Nat} {tokens : List Token} (h : Tiles start stop tokens)
    {first second : Token} (hfirst : first ∈ tokens) (hsecond : second ∈ tokens) {byte : Nat}
    (hin : first.start ≤ byte ∧ byte < first.stop)
    (hin' : second.start ≤ byte ∧ byte < second.stop) :
    first = second := by
  induction tokens generalizing start with
  | nil => contradiction
  | cons token tokens ih =>
      obtain ⟨-, -, hrest⟩ := h
      rcases List.mem_cons.mp hfirst with rfl | hfirstRest <;>
        rcases List.mem_cons.mp hsecond with rfl | hsecondRest
      · rfl
      · have hbounds := hrest.bounds hsecondRest
        omega
      · have hbounds := hrest.bounds hfirstRest
        omega
      · exact ih hrest hfirstRest hsecondRest

theorem first_patterned {found : Match} {byte : Nat} {before after before' after' : List Capture}
    {capture capture' : Capture} (h : before ++ capture :: after = before' ++ capture' :: after')
    (hbefore : ∀ other ∈ before, other.covers found byte → other.rule = none)
    (hbefore' : ∀ other ∈ before', other.covers found byte → other.rule = none)
    (hcovers : capture.covers found byte) (hcovers' : capture'.covers found byte)
    (hrule : capture.rule ≠ none) (hrule' : capture'.rule ≠ none) :
    before = before' ∧ capture = capture' := by
  rcases List.append_eq_append_iff.mp h with ⟨between, rfl, hrest⟩ | ⟨between, rfl, hrest⟩
  · cases between with
    | nil =>
        cases hrest
        exact ⟨(List.append_nil _).symm, rfl⟩
    | cons first between =>
        cases hrest
        exact absurd (hbefore' capture (by simp) hcovers) hrule
  · cases between with
    | nil =>
        cases hrest
        exact ⟨List.append_nil _, rfl⟩
    | cons first between =>
        cases hrest
        exact absurd (hbefore capture' (by simp) hcovers') hrule'

theorem Gives.unique {scanCapture : CaptureScan} {line : Text} {found : Match} {scopes : ScopeStack}
    {captures : List Capture} {byte : Nat} {given other : List Scope}
    (hscan : scanCapture.Covers line) (hwithin : found.Within line)
    (h : Gives scanCapture line found scopes captures byte given)
    (h' : Gives scanCapture line found scopes captures byte other) : given = other := by
  cases h with
  | named hplain =>
      cases h' with
      | named => rfl
      | scanned hcaptures hbefore hrange hcovers hrule =>
          rw [hplain _ (by simp [hcaptures]) hcovers] at hrule
          contradiction
  | @scanned before after capture rule range tokens token hcaptures hbefore hrange hcovers hrule
      htokens htoken hstart hstop =>
      cases h' with
      | named hplain =>
          rw [hplain _ (by simp [hcaptures]) hcovers] at hrule
          contradiction
      | scanned hcaptures' hbefore' hrange' hcovers' hrule' htokens' htoken' hstart' hstop' =>
          obtain ⟨rfl, rfl⟩ := first_patterned (hcaptures.symm.trans hcaptures') hbefore hbefore'
            hcovers hcovers' (by simp [hrule]) (by simp [hrule'])
          cases hrange.symm.trans hrange'
          cases hrule.symm.trans hrule'
          cases htokens.symm.trans htokens'
          have htiles := hscan rule range _ tokens
            (hwithin.groups range (capturedRange?_mem hrange)).2 (capturedRange?_lt hrange) htokens
          rw [htiles.unique htoken htoken' ⟨hstart, hstop⟩ ⟨hstart', hstop'⟩]

/-! ## All captures of a match -/

theorem compileCaptures_pairwise {table : Option (List (String × CaptureDefinition))}
    {groups : Nat} {inner : RepositoryId} {location : Location} {tables next : Compilation.Tables}
    {captures : List Capture}
    (h : Compilation.compileCaptures table groups inner location tables = .ok (captures, next)) :
    captures.Pairwise fun first second => first.group ≤ second.group := by
  cases table with
  | none =>
      cases h
      exact .nil
  | some table =>
      obtain ⟨⟨compiled, _⟩, -, h⟩ := bind_eq_ok.mp h
      cases pure_eq_ok.mp h
      refine (List.pairwise_mergeSort (fun first second third hle hle' => ?_)
        (fun first second => ?_) compiled).imp of_decide_eq_true
      · exact decide_eq_true ((of_decide_eq_true hle).trans (of_decide_eq_true hle'))
      · simpa using Nat.le_total first.group second.group

section

variable {scan : Scan} {nesting : Nat} {found : Match} {scopes : ScopeStack}
  {captures : List Capture} {stream next : TokenStream}

theorem pending_of_nests (hwithin : found.Within scan.line)
    (hsorted : captures.Pairwise fun first second => first.group ≤ second.group)
    (hnests : found.Nests captures) (hstream : stream.position = found.start) :
    Pending scan.line found captures [] stream where
  precedes := by
    refine hsorted.imp_of_mem fun {first second} hfirst hsecond hle => ?_
    rcases Nat.lt_or_eq_of_le hle with hlt | heq
    · exact hnests.precedes first hfirst second hsecond hlt
    · intro range hrange later hlater
      rw [heq] at hrange
      cases hrange.symm.trans hlater
      exact .inr ⟨Nat.le_refl _, Nat.le_refl _⟩
  within capture hcapture range hrange :=
    ⟨(hwithin.groups range (capturedRange?_mem hrange)).2,
      (hnests.inside capture hcapture range hrange).2⟩
  position capture hcapture range hrange :=
    .inl (hstream ▸ (hnests.inside capture hcapture range hrange).1)
  opened := by simp

/-- When the groups of a match nest, captures give each of its bytes exactly the scopes of the groups
around it. -/
theorem produceCaptures_gives (hwithin : found.Within scan.line)
    (hsorted : captures.Pairwise fun first second => first.group ≤ second.group)
    (hnests : found.Nests captures) (hstream : stream.position = found.start)
    (h : produceCaptures (scan.capture nesting) scan.line found scopes captures [] stream =
      .ok next) :
    ∃ more, (next.produce found.stop scopes.toList).tokens = stream.tokens ++ more ∧
      Tiles found.start (max found.start found.stop) more ∧
      ∀ token ∈ more, ∀ byte, token.start ≤ byte → byte < token.stop → ∀ given,
        Gives (scan.capture nesting) scan.line found scopes captures byte given ↔
          given = token.scopes := by
  have hscan := scan.capture_covers nesting
  obtain ⟨more, htokens, htiles, hdue⟩ := produceCaptures_fills hscan
    (pending_of_nests hwithin hsorted hnests hstream) h
  rw [hstream] at htiles
  have hend : (next.produce found.stop scopes.toList).position = max found.start found.stop := by
    refine Nat.le_antisymm (htiles.stop_le (Nat.le_max_left _ _) fun token htoken => ?_)
      (Nat.max_le.mpr ⟨htiles.le, next.le_position_produce _ _⟩)
    obtain ⟨-, hlt, -⟩ := htiles.bounds htoken
    have hlast := (hdue token htoken (token.stop - 1) (by omega) (by omega)).1
    omega
  refine ⟨more, htokens, hend ▸ htiles, fun token htoken byte hstart hstop given => ?_⟩
  have hgives := (hdue token htoken byte hstart hstop).2
  constructor
  · exact fun hgiven => hgiven.unique hscan hwithin hgives
  · rintro rfl
    exact hgives

theorem captures_around_quote :
    let scan : Scan := { grammar := Quotes.grammar, line := .ofString "a<xb", isFirst := true }
    let captures : List Capture := [⟨1, some ⟨"outer"⟩, none⟩, ⟨2, none, some 1⟩]
    let found : Match := ⟨0, 4, [some ⟨0, 4⟩, some ⟨0, 4⟩, some ⟨1, 3⟩]⟩
    produceCaptures (scan.capture 2) scan.line found { root := "source" } captures []
        { position := 0 } =
      .ok ⟨[⟨0, 1, ["source", "outer"]⟩, ⟨1, 2, ["source", "outer", "quote"]⟩,
        ⟨2, 3, ["source", "outer", "quote", "mark"]⟩, ⟨3, 4, ["source", "outer"]⟩], 4⟩ ∧
    ∀ given, Gives (scan.capture 2) scan.line found { root := "source" } captures 2 given ↔
      given = ["source", "outer", "quote", "mark"] := by
  intro scan captures found
  have hrun : produceCaptures (scan.capture 2) scan.line found { root := "source" } captures []
        { position := 0 } =
      .ok ⟨[⟨0, 1, ["source", "outer"]⟩, ⟨1, 2, ["source", "outer", "quote"]⟩,
        ⟨2, 3, ["source", "outer", "quote", "mark"]⟩, ⟨3, 4, ["source", "outer"]⟩], 4⟩ := by
    decide +kernel
  have hboundary := scan.line.isBoundary_offset
  have hwithin : found.Within scan.line := by
    refine ⟨hboundary 0, hboundary 4, fun range hrange => ?_⟩
    simp only [found, List.mem_cons, Option.some.injEq, List.not_mem_nil, or_false] at hrange
    rcases hrange with rfl | rfl | rfl
    · exact ⟨hboundary 0, hboundary 4⟩
    · exact ⟨hboundary 0, hboundary 4⟩
    · exact ⟨hboundary 1, hboundary 3⟩
  have hnests : found.Nests captures := ⟨by decide, by unfold Capture.Precedes; decide⟩
  obtain ⟨more, htokens, -, hgives⟩ :=
    produceCaptures_gives hwithin (by decide) hnests rfl hrun
  refine ⟨hrun, hgives ⟨2, 3, ["source", "outer", "quote", "mark"]⟩ ?_ 2 (by decide) (by decide)⟩
  rw [List.nil_append] at htokens
  rw [← htokens]
  decide

end

end ScopeLexer
