import ScopeLexer.Grammar.Candidates
import ScopeLexer.Proofs.Grammar.Compilation

/-!
# References that cannot be resolved

Expanding the patterns of a rule looks references up as it meets them, in lists that lead to one
another; `Grammar.checkReferences` goes through all lists once.  Whatever list an expansion comes to
is one of those, so it fails only with a reference that the check finds too.
-/

namespace ScopeLexer

open Outcome

/-! ## Texts of references -/

namespace Reference

theorem eq_of_dropWhile {chars name : List Char} {c : Char}
    (h : chars.dropWhile (· != '#') = c :: name) : c = '#' := by
  have hhead := List.head?_dropWhile_not (· != '#') chars
  rw [h] at hhead
  simpa using hhead

theorem text_ofText (text : String) (repository : RepositoryId) :
    (ofText text repository).text = text := by
  unfold ofText
  split
  · next hself => exact (eq_of_beq hself).symm
  split
  · next hbase => exact (eq_of_beq hbase).symm
  split
  · next name hchars =>
    apply String.toList_inj.mp
    simp [Reference.text, hchars]
  · split
    · next c name hname =>
      apply String.toList_inj.mp
      have hsplit := List.takeWhile_append_dropWhile (p := (· != '#')) (l := text.toList)
      rw [hname, eq_of_dropWhile hname] at hsplit
      simpa [Reference.text] using hsplit
    · rfl

end Reference

namespace Grammar

open Compilation

variable {grammar : Grammar} {reference : Reference} {unresolved : Unresolved}

/-! ## Lists of patterns -/

theorem mem_patternLists_of_rule {id : RuleId} {rule : Rule} (h : grammar.rules[id]? = some rule) :
    rule.patterns ∈ grammar.patternLists :=
  List.mem_append_left _ (List.mem_map_of_mem (Array.mem_of_getElem? h).val)

theorem mem_patternLists_of_entry {id : RepositoryId} {repository : Repository}
    {entry : String × List Pattern} (h : grammar.repositories[id]? = some repository)
    (hentry : entry ∈ repository.entries) : entry.2 ∈ grammar.patternLists :=
  List.mem_append_right _ (List.mem_flatMap.mpr
    ⟨repository, (Array.mem_of_getElem? h).val, List.mem_map_of_mem hentry⟩)

theorem mem_flatten_of_patternsOf {id : RuleId} {pattern : Pattern}
    (h : pattern ∈ grammar.patternsOf id) : pattern ∈ grammar.patternLists.flatten := by
  unfold patternsOf at h
  split at h
  · next rule hrule => exact List.mem_flatten_of_mem (mem_patternLists_of_rule hrule) h
  · contradiction

theorem mem_flatten_of_patternsAt {origin : Origin} {pattern : Pattern}
    (h : pattern ∈ grammar.patternsAt origin) : pattern ∈ grammar.patternLists.flatten := by
  cases origin with
  | root => exact mem_flatten_of_patternsOf h
  | entry id name =>
      unfold patternsAt at h
      dsimp only at h
      split at h
      · contradiction
      · next repository hrepository =>
        split at h
        · next entry patterns hentry =>
          exact List.mem_flatten_of_mem
            (mem_patternLists_of_entry hrepository (List.mem_of_find?_eq_some hentry)) h
        · contradiction

/-! ## Expansion -/

/-- An expansion fails with a reference that cannot be located; it never leaves the lists of the
grammar. -/
theorem expand_eq_error {closed : List Origin} {found : List RuleId} {patterns : List Pattern}
    (hpatterns : ∀ pattern ∈ patterns, pattern ∈ grammar.patternLists.flatten)
    (h : grammar.expand closed found patterns = .error unresolved) :
    grammar.locate? unresolved.reference = none ∧
      .reference unresolved.reference ∈ grammar.patternLists.flatten := by
  fun_induction grammar.expand closed found patterns with
  | case1 => contradiction
  | case2 closed found id rest hfound ih =>
      exact ih (fun pattern hmem => hpatterns pattern (by simp [hmem])) h
  | case3 closed found id rest hfound ih =>
      exact ih (fun pattern hmem => hpatterns pattern (by simp [hmem])) h
  | case4 closed found reference rest hlocate =>
      cases h
      exact ⟨hlocate, hpatterns _ (by simp)⟩
  | case5 closed found reference rest origin patterns hlocate hclosed ih =>
      refine ih (fun pattern hmem => ?_) h
      rcases List.mem_append.mp hmem with hmem | hmem
      · rw [← patternsAt_of_locate? hlocate] at hmem
        exact mem_flatten_of_patternsAt hmem
      · exact hpatterns pattern (by simp [hmem])
  | case6 closed found reference rest origin patterns hlocate hclosed ih =>
      exact ih (fun pattern hmem => hpatterns pattern (by simp [hmem])) h

theorem candidates_eq_error {rule : RuleId} (h : grammar.candidates rule = .error unresolved) :
    grammar.locate? unresolved.reference = none ∧
      .reference unresolved.reference ∈ grammar.patternLists.flatten :=
  expand_eq_error (fun _ hmem => mem_flatten_of_patternsOf hmem) h

/-! ## The check -/

theorem locate?_of_checkPatterns {patterns : List Pattern}
    (h : grammar.checkPatterns patterns = .ok ()) (hmem : .reference reference ∈ patterns) :
    grammar.locate? reference ≠ none := by
  induction patterns with
  | nil => contradiction
  | cons pattern rest ih =>
      cases pattern with
      | rule id => exact ih h (by simpa using hmem)
      | reference other =>
          rw [checkPatterns] at h
          split at h
          · next patterns hresolve =>
            rcases List.mem_cons.mp hmem with hother | hmem
            · cases hother
              intro hlocate
              simp [resolve, hlocate] at hresolve
            · exact ih h hmem
          · contradiction

theorem candidates_of_checkReferences (h : grammar.checkReferences = .ok ()) (rule : RuleId) :
    ∃ candidates, grammar.candidates rule = .ok candidates := by
  cases hcandidates : grammar.candidates rule with
  | ok candidates => exact ⟨candidates, rfl⟩
  | error unresolved =>
      obtain ⟨hlocate, hmem⟩ := candidates_eq_error hcandidates
      exact absurd hlocate (locate?_of_checkPatterns h hmem)

/-! ## Where references come from -/

theorem fine_of_mem_patternLists {Fine : Array Rule → Pattern → Prop} {pattern : Pattern}
    (hfine : AllFine Fine ⟨grammar.rules, grammar.repositories, grammar.warnings⟩)
    (hmem : pattern ∈ grammar.patternLists.flatten) : Fine grammar.rules pattern := by
  obtain ⟨list, hlist, hmem⟩ := List.mem_flatten.mp hmem
  rcases List.mem_append.mp hlist with hlist | hlist
  · obtain ⟨rule, hrule, rfl⟩ := List.mem_map.mp hlist
    exact hfine.rules rule (Array.mem_toList_iff.mp hrule) pattern hmem
  · obtain ⟨repository, hrepository, hlist⟩ := List.mem_flatMap.mp hlist
    obtain ⟨entry, hentry, rfl⟩ := List.mem_map.mp hlist
    exact hfine.entries repository (Array.mem_toList_iff.mp hrepository) entry hentry pattern hmem

def WrittenIn (definition : GrammarDefinition) (_ : Array Rule) : Pattern → Prop
  | .rule _ => True
  | .reference reference =>
      ∃ rule, definition.Contains rule ∧ rule.reference = some reference.text

theorem writtenIn_of_mem_patternLists {definition : GrammarDefinition} {pattern : Pattern}
    (h : ofDefinition definition = .ok grammar) (hmem : pattern ∈ grammar.patternLists.flatten) :
    WrittenIn definition grammar.rules pattern := by
  have hfine : AllFine (WrittenIn definition)
      ⟨grammar.rules, grammar.repositories, grammar.warnings⟩ := by
    refine ofDefinition_kept (allFine_kept (fun {_ _ pattern} _ hfine => ?mono) fun _ _ => trivial)
      ⟨by simp, by simp⟩ ?_ h
    case mono => cases pattern <;> exact hfine
    intro rule hrule text htext rules repository
    exact ⟨rule, hrule, by rw [htext, Reference.text_ofText]⟩
  exact fine_of_mem_patternLists hfine hmem

end Grammar

end ScopeLexer
