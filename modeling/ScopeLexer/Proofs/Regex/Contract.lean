import ScopeLexer.Proofs.Text.Boundary
import ScopeLexer.Regex.Expression

/-!
# What is relied on of a search

Lines are scanned with whatever `Expression.findAt?` finds.  The proofs about scanning rely on no more
of it than `Search.Reliable` says, and on `Search.Onward` for compiled expressions; how an expression
is matched does not matter to them.  An engine that keeps this contract may stand in its place.
-/

namespace ScopeLexer.Regex

abbrev Search := Text → (start : Nat) → Anchors → Option Match

/-- The ends of a match and of its groups lie between characters, in whatever order. -/
structure Match.Within (text : Text) (found : Match) : Prop where
  start : text.IsBoundary found.start
  stop : text.IsBoundary found.stop
  groups : ∀ range, some range ∈ found.groups →
    text.IsBoundary range.start ∧ text.IsBoundary range.stop

/-- Searches begin between characters, and what they find lies between characters. -/
structure Search.Reliable (search : Search) : Prop where
  isBoundary {text : Text} {start : Nat} {anchors : Anchors} {found : Match}
    (h : search text start anchors = some found) : text.IsBoundary start
  within {text : Text} {start : Nat} {anchors : Anchors} {found : Match}
    (h : search text start anchors = some found) : found.Within text

/-- No match begins in front of where its search does. -/
structure Search.Onward (search : Search) : Prop extends Search.Reliable search where
  le_start {text : Text} {start : Nat} {anchors : Anchors} {found : Match}
    (h : search text start anchors = some found) : start ≤ found.start

namespace Expression

theorem report_within (text : Text) (start : Nat) (found : Progress) :
    (report text start found).Within text := by
  refine ⟨text.isBoundary_offset _, text.isBoundary_offset _, fun range hrange => ?_⟩
  rcases List.mem_cons.mp hrange with hwhole | hgroup
  · cases hwhole
    exact ⟨text.isBoundary_offset _, text.isBoundary_offset _⟩
  · obtain ⟨span, -, hspan⟩ := List.mem_map.mp hgroup
    split at hspan
    · cases hspan
      exact ⟨text.isBoundary_offset _, text.isBoundary_offset _⟩
    · contradiction

theorem findAt?_eq_some {expression : Expression} {text : Text} {start : Nat} {anchors : Anchors}
    {found : Match} (h : expression.findAt? text start anchors = some found) :
    ∃ index first progress, text.index? start = some index ∧
      (expression.variant anchors).search text.chars index = some (first, progress) ∧
      found = report text first progress := by
  unfold findAt? at h
  split at h
  · next index hindex =>
    obtain ⟨⟨first, progress⟩, hsearch, rfl⟩ := Option.map_eq_some_iff.mp h
    exact ⟨index, first, progress, hindex, hsearch, rfl⟩
  · contradiction

theorem reliable (expression : Expression) : Search.Reliable expression.findAt? where
  isBoundary {text start _ _} h := by
    obtain ⟨index, _, _, hindex, -, -⟩ := findAt?_eq_some h
    exact text.offset_of_index? hindex ▸ text.isBoundary_offset index
  within {text _ _ _} h := by
    obtain ⟨_, first, progress, -, -, rfl⟩ := findAt?_eq_some h
    exact report_within text first progress

end Expression

end ScopeLexer.Regex
