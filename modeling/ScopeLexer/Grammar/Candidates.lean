import ScopeLexer.Grammar

/-!
# Looking up references

`Grammar.resolve` gives the patterns that a reference stands for, `Grammar.candidates` all rules that
may match within a rule: its patterns with every reference expanded, each list once.
-/

namespace ScopeLexer

inductive Origin where
  | root
  | entry (repository : RepositoryId) (name : String)
  deriving Repr, DecidableEq, Inhabited

namespace Grammar

def lookup? (grammar : Grammar) (id : RepositoryId) (name : String) :
    Option (Origin × List Pattern) :=
  match grammar.repositories[id]? with
  | none => none
  | some repository =>
      match repository.entries.find? fun entry => entry.1 == name with
      | some (_, patterns) => some (.entry id name, patterns)
      | none =>
          match repository.parent with
          | none => none
          | some parent => if parent < id then grammar.lookup? parent name else none
termination_by id

def locate? (grammar : Grammar) : Reference → Option (Origin × List Pattern)
  | .itself | .base => some (.root, grammar.patternsOf grammar.root)
  | .entry repository name => grammar.lookup? repository name
  | .external scope name =>
      if scope == grammar.scopeName then
        match name with
        | some name => grammar.lookup? 0 name
        | none => some (.root, grammar.patternsOf grammar.root)
      else
        none

def patternsAt (grammar : Grammar) : Origin → List Pattern
  | .root => grammar.patternsOf grammar.root
  | .entry id name =>
      match grammar.repositories[id]? with
      | none => []
      | some repository =>
          match repository.entries.find? fun entry => entry.1 == name with
          | some (_, patterns) => patterns
          | none => []

theorem patternsAt_of_lookup? {grammar : Grammar} {id : RepositoryId} {name : String}
    {origin : Origin} {patterns : List Pattern}
    (h : grammar.lookup? id name = some (origin, patterns)) :
    grammar.patternsAt origin = patterns := by
  fun_induction grammar.lookup? id name with
  | case1 => contradiction
  | case2 id repository hrepository entryName entryPatterns hentry =>
      cases h
      simp only [patternsAt, hrepository, hentry]
  | case3 => contradiction
  | case4 id repository hrepository hentry parent hparent hlt ih => exact ih h
  | case5 => contradiction

theorem patternsAt_of_locate? {grammar : Grammar} {reference : Reference} {origin : Origin}
    {patterns : List Pattern} (h : grammar.locate? reference = some (origin, patterns)) :
    grammar.patternsAt origin = patterns := by
  unfold locate? at h
  split at h
  · cases h
    rfl
  · cases h
    rfl
  · exact patternsAt_of_lookup? h
  · split at h
    · split at h
      · exact patternsAt_of_lookup? h
      · cases h
        rfl
    · contradiction

def resolve (grammar : Grammar) (reference : Reference) : Except Unresolved (List Pattern) :=
  match grammar.locate? reference with
  | some (_, patterns) => .ok patterns
  | none => .error ⟨reference⟩

def origins (grammar : Grammar) : List Origin :=
  .root :: (List.range grammar.repositories.size).flatMap fun id =>
    match grammar.repositories[id]? with
    | some repository => repository.entries.map fun (name, _) => .entry id name
    | none => []

/-- How many patterns are left to expand, when each of the closed lists is expanded once. -/
def unexpanded (grammar : Grammar) (closed : List Origin) (patterns : List Pattern) : Nat :=
  patterns.length + (closed.flatMap grammar.patternsAt).length

theorem length_flatMap_removeAll_le (grammar : Grammar) (closed : List Origin) (origin : Origin) :
    ((closed.removeAll [origin]).flatMap grammar.patternsAt).length
        + (if origin ∈ closed then (grammar.patternsAt origin).length else 0) ≤
      (closed.flatMap grammar.patternsAt).length := by
  induction closed with
  | nil => simp
  | cons other closed ih =>
      by_cases hother : other = origin
      · have hdrop : (other :: closed).removeAll [origin] = closed.removeAll [origin] := by
          simp [List.cons_removeAll, hother]
        rw [hdrop, if_pos (by simp [hother]), List.flatMap_cons, List.length_append, hother]
        omega
      · have hkeep : (other :: closed).removeAll [origin] = other :: closed.removeAll [origin] := by
          simp [List.cons_removeAll, hother]
        simp only [hkeep, List.mem_cons, Ne.symm hother, false_or, List.flatMap_cons,
          List.length_append]
        omega

theorem unexpanded_removeAll_le {grammar : Grammar} {closed : List Origin} {origin : Origin}
    (h : origin ∈ closed) (patterns : List Pattern) :
    grammar.unexpanded (closed.removeAll [origin]) (grammar.patternsAt origin ++ patterns) ≤
      grammar.unexpanded closed patterns := by
  have hle := grammar.length_flatMap_removeAll_le closed origin
  rw [if_pos h] at hle
  simp only [unexpanded, List.length_append]
  omega

/-- Expand patterns.  `closed` are the lists that were not expanded yet, `found` are the rules found
so far, last first. -/
def expand (grammar : Grammar) (closed : List Origin) (found : List RuleId) :
    List Pattern → Except Unresolved (List RuleId)
  | [] => .ok found.reverse
  | .rule id :: rest =>
      if found.contains id then grammar.expand closed found rest
      else grammar.expand closed (id :: found) rest
  | .reference reference :: rest =>
      match _ : grammar.locate? reference with
      | none => .error ⟨reference⟩
      | some (origin, patterns) =>
          if origin ∈ closed then
            grammar.expand (closed.removeAll [origin]) found (patterns ++ rest)
          else
            grammar.expand closed found rest
termination_by patterns => grammar.unexpanded closed patterns
decreasing_by
  · simp [unexpanded]
  · simp [unexpanded]
  · next hlocate hclosed =>
    rw [← patternsAt_of_locate? hlocate]
    refine Nat.lt_of_le_of_lt (unexpanded_removeAll_le hclosed _) ?_
    simp [unexpanded]
  · simp [unexpanded]

/-- The rules that may match within a rule, in order: its patterns with every reference expanded.
A rule counts where it comes first. -/
def candidates (grammar : Grammar) (rule : RuleId) : Except Unresolved (List RuleId) :=
  let closed :=
    if rule == grammar.root then grammar.origins.removeAll [.root] else grammar.origins
  grammar.expand closed [] (grammar.patternsOf rule)

def patternLists (grammar : Grammar) : List (List Pattern) :=
  grammar.rules.toList.map Rule.patterns
    ++ grammar.repositories.toList.flatMap fun repository => repository.entries.map (·.2)

def checkPatterns (grammar : Grammar) : List Pattern → Except Unresolved Unit
  | [] => .ok ()
  | .rule _ :: rest => grammar.checkPatterns rest
  | .reference reference :: rest =>
      match grammar.resolve reference with
      | .ok _ => grammar.checkPatterns rest
      | .error unresolved => .error unresolved

def checkReferences (grammar : Grammar) : Except Unresolved Unit :=
  grammar.checkPatterns grammar.patternLists.flatten

end Grammar

end ScopeLexer
