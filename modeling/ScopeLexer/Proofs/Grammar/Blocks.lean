import ScopeLexer.Proofs.Grammar.References

/-!
# Blocks of names

Seen from a place in a definition, its repositories are blocks of named rules around one another, the
innermost first.  In a grammar they are numbers that lead to their parents.  Where both agree, a
reference is resolved as its text is meant: to the nearest block that has the name.
-/

namespace ScopeLexer.Grammar

abbrev Block := List (String × List Pattern)

variable {grammar : Grammar} {blocks : List Block} {id : RepositoryId} {text : String}

/-! ## Nearest blocks -/

/-- The patterns that the text of a reference stands for within blocks, the innermost first. -/
def scoped? (grammar : Grammar) (blocks : List Block) (text : String) : Option (List Pattern) :=
  if text = "$self" ∨ text = "$base" ∨ text = grammar.scopeName then
    some (grammar.patternsOf grammar.root)
  else
    match text.toList with
    | '#' :: name => blocks.findSome? fun block => Entries.find? block (String.ofList name)
    | chars =>
        if grammar.scopeName.toList ++ ['#'] <+: chars then
          Entries.find? grammar.topEntries
            (String.ofList (chars.drop (grammar.scopeName.toList.length + 1)))
        else none

/-- A repository and those around it are blocks, and every one has a smaller number than those in
it. -/
inductive Chain (grammar : Grammar) : RepositoryId → List Block → Prop where
  | top {block : Block} (h : grammar.repositories[0]? = some ⟨none, block⟩) :
      Chain grammar 0 [block]
  | inner {id outer : RepositoryId} {block : Block} {blocks : List Block}
      (h : grammar.repositories[id]? = some ⟨some outer, block⟩) (hlt : outer < id)
      (houter : Chain grammar outer blocks) : Chain grammar id (block :: blocks)

theorem Chain.topEntries (h : grammar.Chain id blocks) :
    grammar.repositories[0]? = some ⟨none, grammar.topEntries⟩ := by
  induction h with
  | top h => simp [Grammar.topEntries, h]
  | inner _ _ _ ih => exact ih

theorem Chain.lookup? (h : grammar.Chain id blocks) (name : String) :
    (grammar.lookup? id name).map (·.2) =
      blocks.findSome? fun block => Entries.find? block name := by
  induction h with
  | @top block h =>
      rw [Grammar.lookup?, h]
      cases hfind : block.find? fun entry => entry.1 == name <;>
        simp [Entries.find?, hfind]
  | @inner id outer block blocks h hlt houter ih =>
      rw [Grammar.lookup?, h]
      cases hfind : block.find? fun entry => entry.1 == name with
      | none => simpa [Entries.find?, hfind, hlt] using ih
      | some entry => simp [Entries.find?, hfind]

theorem resolve_eq (reference : Reference) :
    grammar.resolve reference =
      match (grammar.locate? reference).map (·.2) with
      | some patterns => .ok patterns
      | none => .error ⟨reference⟩ := by
  unfold resolve
  cases grammar.locate? reference <;> rfl

structure Scoped (grammar : Grammar) (blocks : List Block) (text : String) (reference : Reference) :
    Prop where
  written : reference.text = text
  resolve : grammar.resolve reference =
    match grammar.scoped? blocks text with
    | some patterns => .ok patterns
    | none => .error ⟨reference⟩

theorem mark_notMem_takeWhile (chars : List Char) : '#' ∉ chars.takeWhile (· != '#') := by
  intro hmem
  simpa using List.all_eq_true.mp List.all_takeWhile _ hmem

theorem takeWhile_append_mark {scope name : List Char} (h : '#' ∉ scope) :
    (scope ++ '#' :: name).takeWhile (· != '#') = scope := by
  have hall : ∀ c ∈ scope, (c != '#') = true := by
    intro c hc
    exact bne_iff_ne.mpr fun heq => h (heq ▸ hc)
  rw [List.takeWhile_append_of_pos hall]
  simp

theorem scoped?_of_entry {scope name : List Char} (hscope : '#' ∉ grammar.scopeName.toList)
    (hfree : '#' ∉ scope) (htext : text.toList = scope ++ '#' :: name) (hnonempty : scope ≠ [])
    (hself : text ≠ "$self") (hbase : text ≠ "$base") :
    grammar.scoped? blocks text =
      if String.ofList scope = grammar.scopeName then
        Entries.find? grammar.topEntries (String.ofList name)
      else none := by
  have hwhole : text ≠ grammar.scopeName := by
    rintro rfl
    exact hscope (by simp [htext])
  have hbegins : grammar.scopeName.toList ++ ['#'] <+: text.toList ↔
      String.ofList scope = grammar.scopeName := by
    rw [htext]
    constructor
    · rintro ⟨rest, hrest⟩
      have hscopes : grammar.scopeName.toList = scope := by
        rw [← takeWhile_append_mark hscope, ← takeWhile_append_mark hfree, ← hrest,
          List.append_assoc]
        rfl
      rw [← hscopes, String.ofList_toList]
    · intro heq
      rw [← heq, String.toList_ofList]
      exact ⟨name, by simp⟩
  simp only [scoped?, hself, hbase, hwhole, or_self, if_false]
  split
  · next other hother =>
    cases scope with
    | nil => contradiction
    | cons c scope =>
        rw [htext] at hother
        cases hother
        simp at hfree
  · by_cases heq : String.ofList scope = grammar.scopeName
    · have hdrop : (scope ++ '#' :: name).drop (scope.length + 1) = name := by
        rw [List.append_cons]
        exact List.drop_left' (by simp)
      rw [if_pos (hbegins.mpr heq), if_pos heq, htext, ← heq, String.toList_ofList, hdrop]
    · rw [if_neg (fun h => heq (hbegins.mp h)), if_neg heq]

/-- What is read from a text means what the text means, given that the scope of the grammar does not
look like the name of an entry. -/
theorem scoped_ofText (hscope : '#' ∉ grammar.scopeName.toList) (h : grammar.Chain id blocks)
    (text : String) : grammar.Scoped blocks text (.ofText text id) := by
  refine ⟨Reference.text_ofText text id, ?_⟩
  rw [resolve_eq]
  suffices hlocate : (grammar.locate? (.ofText text id)).map (·.2) =
      grammar.scoped? blocks text by rw [hlocate]
  unfold Reference.ofText
  split
  · next hself => simp [locate?, scoped?, eq_of_beq hself]
  split
  · next hbase => simp [locate?, scoped?, eq_of_beq hbase]
  next hself hbase =>
  have hself : text ≠ "$self" := by simpa using hself
  have hbase : text ≠ "$base" := by simpa using hbase
  split
  · next name htext =>
    have hwhole : text ≠ grammar.scopeName := by
      rintro rfl
      exact hscope (by simp [htext])
    simp only [scoped?, hself, hbase, hwhole, or_self, if_false, htext]
    exact h.lookup? (String.ofList name)
  · next hunmarked =>
    split
    · next c name hname =>
      -- a scope in front of the mark
      have htext := List.takeWhile_append_dropWhile (p := (· != '#')) (l := text.toList)
      rw [hname, Reference.eq_of_dropWhile hname] at htext
      generalize hscopeText : text.toList.takeWhile (· != '#') = scope at htext ⊢
      have hfree : '#' ∉ scope := by
        intro hmem
        rw [← hscopeText] at hmem
        exact mark_notMem_takeWhile _ hmem
      have hnonempty : scope ≠ [] := by
        rintro rfl
        exact hunmarked name htext.symm
      rw [scoped?_of_entry hscope hfree htext.symm hnonempty hself hbase, locate?]
      by_cases heq : String.ofList scope = grammar.scopeName
      · rw [if_pos (beq_iff_eq.mpr heq), if_pos heq, (Chain.top h.topEntries).lookup?]
        simp
      · rw [if_neg (fun hbeq => heq (eq_of_beq hbeq)), if_neg heq]
        rfl
    · next hname =>
      -- a scope alone
      have hfree : '#' ∉ text.toList := by
        have htake := List.takeWhile_append_dropWhile (p := (· != '#')) (l := text.toList)
        rw [hname, List.append_nil] at htake
        rw [← htake]
        exact mark_notMem_takeWhile _
      by_cases hwhole : text = grammar.scopeName
      · simp [locate?, scoped?, hwhole]
      · have hbegins : ¬ grammar.scopeName.toList ++ ['#'] <+: text.toList := by
          rintro ⟨rest, hrest⟩
          exact hfree (by simp [← hrest])
        simp only [locate?, scoped?, hself, hbase, hwhole, or_self, if_false, beq_iff_eq, hbegins]
        rfl

end ScopeLexer.Grammar
