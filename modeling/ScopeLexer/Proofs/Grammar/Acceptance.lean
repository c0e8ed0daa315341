import ScopeLexer.Loading
import ScopeLexer.Proofs.Outcome

/-!
# Which definitions are grammars

Compilation visits the rules of a definition, but not those that nothing will use: a reference only
has its repository visited, a rule that is skipped its patterns, and a capture of a group that the
expression does not have is passed over.  A definition is accepted exactly when every rule that is
visited is well formed.
-/

namespace ScopeLexer

open Outcome Regex

/-! ## Rules that are visited -/

def Keyed (table : List (String × CaptureDefinition)) : Prop :=
  ∀ entry ∈ table, ∃ group, Decimal.indexOfText? entry.1.toList = some group

namespace RuleDefinition

inductive Uses (rule : RuleDefinition) : Nat → List (String × CaptureDefinition) → Prop where
  | single {source : String} {expression : Expression} {table : List (String × CaptureDefinition)}
      (hmatch : rule.matchSource = some source) (hbegin : rule.beginSource = none)
      (hexpression : Expression.ofSource source = .ok expression)
      (htable : rule.captures = some table) : Uses rule expression.groupCount table
  | opening {source : String} {expression : Expression}
      {table : List (String × CaptureDefinition)} (hmatch : rule.matchSource = none)
      (hbegin : rule.beginSource = some source) (hwhile : rule.whileSource = none)
      (hexpression : Expression.ofSource source = .ok expression)
      (htable : rule.beginCaptures.or rule.captures = some table) :
      Uses rule expression.groupCount table
  | closing {source endSource : String} {expression : Expression}
      {table : List (String × CaptureDefinition)} (hmatch : rule.matchSource = none)
      (hbegin : rule.beginSource = some source) (hwhile : rule.whileSource = none)
      (hend : rule.endSource = some endSource)
      (hexpression : Expression.ofEndSource endSource = .ok expression)
      (htable : rule.endCaptures.or rule.captures = some table) :
      Uses rule expression.groupCount table

/-- The rule itself and those that are visited with it: the entries of its repository and, unless it
is a reference, its patterns and those of the captures whose groups its expressions have. -/
inductive Visits : RuleDefinition → RuleDefinition → Prop where
  | itself (rule : RuleDefinition) : Visits rule rule
  | entry {outer rule inner : RuleDefinition} {entries : List (String × RuleDefinition)}
      {name : String} (hrepository : outer.repository = some entries)
      (hentry : (name, rule) ∈ entries) (hinner : Visits rule inner) : Visits outer inner
  | pattern {outer rule inner : RuleDefinition} {rules : List RuleDefinition}
      (hreference : outer.reference = none) (hpatterns : outer.patterns = some rules)
      (hrule : rule ∈ rules) (hinner : Visits rule inner) : Visits outer inner
  | capture {outer rule inner : RuleDefinition} {groups group : Nat}
      {table : List (String × CaptureDefinition)} {key : String} {capture : CaptureDefinition}
      {rules : List RuleDefinition} (hreference : outer.reference = none)
      (htable : outer.Uses groups table) (hcapture : (key, capture) ∈ table)
      (hkey : Decimal.indexOfText? key.toList = some group) (hgroup : group ≤ groups)
      (hpatterns : capture.patterns = some rules) (hrule : rule ∈ rules)
      (hinner : Visits rule inner) : Visits outer inner

/-- A rule is a reference, or it has one of the forms of a rule, with expressions that compile and
captures that have numbers. -/
inductive WellFormed (rule : RuleDefinition) : Prop where
  | reference {text : String} (hreference : rule.reference = some text)
  | single {source : String} {expression : Expression} (hmatch : rule.matchSource = some source)
      (hbegin : rule.beginSource = none) (hend : rule.endSource = none)
      (hwhile : rule.whileSource = none) (hexpression : Expression.ofSource source = .ok expression)
      (hkeys : ∀ table, rule.captures = some table → Keyed table)
  | skipped {source whileSource : String} (hmatch : rule.matchSource = none)
      (hbegin : rule.beginSource = some source) (hwhile : rule.whileSource = some whileSource)
  | enclosed {source endSource : String} {opening closing : Expression}
      (hmatch : rule.matchSource = none) (hbegin : rule.beginSource = some source)
      (hend : rule.endSource = some endSource) (hwhile : rule.whileSource = none)
      (hopening : Expression.ofSource source = .ok opening)
      (hclosing : Expression.ofEndSource endSource = .ok closing)
      (hopeningKeys : ∀ table, rule.beginCaptures.or rule.captures = some table → Keyed table)
      (hclosingKeys : ∀ table, rule.endCaptures.or rule.captures = some table → Keyed table)
  | grouped (hmatch : rule.matchSource = none) (hbegin : rule.beginSource = none)
      (hend : rule.endSource = none) (hwhile : rule.whileSource = none)

end RuleDefinition

inductive GrammarDefinition.Visits (definition : GrammarDefinition) : RuleDefinition → Prop where
  | entry {rule inner : RuleDefinition} {name : String}
      (hentry : (name, rule) ∈ definition.repository) (hinner : rule.Visits inner) :
      Visits definition inner
  | pattern {rule inner : RuleDefinition} (hrule : rule ∈ definition.patterns)
      (hinner : rule.Visits inner) : Visits definition inner

/-! ## Rules without faults -/

def RuleDefinition.Sound (rule : RuleDefinition) : Prop :=
  ∀ inner, rule.Visits inner → inner.WellFormed

def PatternsSound (patterns : Option (List RuleDefinition)) : Prop :=
  ∀ rules, patterns = some rules → ∀ rule ∈ rules, rule.Sound

def RepositorySound (repository : Option (List (String × RuleDefinition))) : Prop :=
  ∀ entries, repository = some entries → ∀ entry ∈ entries, entry.2.Sound

def TableSound (groups : Nat) (table : List (String × CaptureDefinition)) : Prop :=
  ∀ entry ∈ table, ∃ group, Decimal.indexOfText? entry.1.toList = some group ∧
    (group ≤ groups → PatternsSound entry.2.patterns)

def CapturesSound (groups : Nat) (captures : Option (List (String × CaptureDefinition))) : Prop :=
  ∀ table, captures = some table → TableSound groups table

theorem CapturesSound.keyed {groups : Nat} {captures : Option (List (String × CaptureDefinition))}
    (h : CapturesSound groups captures) : ∀ table, captures = some table → Keyed table := by
  intro table htable entry hentry
  obtain ⟨group, hgroup, -⟩ := h table htable entry hentry
  exact ⟨group, hgroup⟩

namespace RuleDefinition

def FormSound (rule : RuleDefinition) : Prop :=
  match rule.matchSource, rule.beginSource with
  | some _, some _ => False
  | some source, none =>
      (rule.endSource = none ∧ rule.whileSource = none) ∧
        ∃ expression, Expression.ofSource source = .ok expression ∧
          CapturesSound expression.groupCount rule.captures
  | none, some source =>
      rule.whileSource.isSome ∨
        ∃ endSource, rule.endSource = some endSource ∧
          ∃ opening, Expression.ofSource source = .ok opening ∧
            ∃ closing, Expression.ofEndSource endSource = .ok closing ∧
              CapturesSound opening.groupCount (rule.beginCaptures.or rule.captures) ∧
              CapturesSound closing.groupCount (rule.endCaptures.or rule.captures)
  | none, none => rule.endSource = none ∧ rule.whileSource = none

variable {rule : RuleDefinition} {groups : Nat} {table : List (String × CaptureDefinition)}

theorem FormSound.tableSound (h : rule.FormSound) (huses : rule.Uses groups table) :
    TableSound groups table := by
  cases huses with
  | single hmatch hbegin hexpression htable =>
      simp only [FormSound, hmatch, hbegin, hexpression, Except.ok.injEq] at h
      obtain ⟨-, _, rfl, hcaptures⟩ := h
      exact hcaptures table htable
  | opening hmatch hbegin hwhile hexpression htable =>
      simp only [FormSound, hmatch, hbegin, hwhile, hexpression, Option.isSome_none,
        Bool.false_eq_true, false_or, Except.ok.injEq] at h
      obtain ⟨endSource, -, _, rfl, closing, -, hcaptures, -⟩ := h
      exact hcaptures table htable
  | closing hmatch hbegin hwhile hend hexpression htable =>
      simp only [FormSound, hmatch, hbegin, hwhile, hend, Option.isSome_none, Bool.false_eq_true,
        false_or, Option.some.injEq] at h
      obtain ⟨_, rfl, opening, -, closing, hclosing, -, hcaptures⟩ := h
      rw [hexpression, Except.ok.injEq] at hclosing
      subst hclosing
      exact hcaptures table htable

theorem FormSound.wellFormed (h : rule.FormSound) : rule.WellFormed := by
  unfold FormSound at h
  split at h
  · exact h.elim
  · next source hmatch hbegin =>
    obtain ⟨hnone, expression, hexpression, hcaptures⟩ := h
    exact .single hmatch hbegin hnone.1 hnone.2 hexpression hcaptures.keyed
  · next source hmatch hbegin =>
    rcases hwhile : rule.whileSource with _ | whileSource
    · simp only [hwhile, Option.isSome_none, Bool.false_eq_true, false_or] at h
      obtain ⟨endSource, hend, opening, hopening, closing, hclosing, hcaptures, hothers⟩ := h
      exact .enclosed hmatch hbegin hend hwhile hopening hclosing hcaptures.keyed hothers.keyed
    · exact .skipped hmatch hbegin hwhile
  · next hmatch hbegin =>
    exact .grouped hmatch hbegin h.1 h.2

theorem Sound.tableSound (h : rule.Sound) (hreference : rule.reference = none)
    (huses : rule.Uses groups table) (hkeys : Keyed table) : TableSound groups table := by
  intro entry hentry
  obtain ⟨group, hgroup⟩ := hkeys entry hentry
  refine ⟨group, hgroup, fun hle rules hrules inner hinner visited hvisited => ?_⟩
  exact h visited (.capture hreference huses hentry hgroup hle hrules hinner hvisited)

theorem Sound.formSound (h : rule.Sound) (hreference : rule.reference = none) :
    rule.FormSound := by
  cases h rule (.itself rule) with
  | reference hsome => simp [hreference] at hsome
  | single hmatch hbegin hend hwhile hexpression hkeys =>
      simp only [FormSound, hmatch, hbegin, hend, hwhile]
      refine ⟨by simp, _, hexpression, fun table htable => ?_⟩
      exact h.tableSound hreference (.single hmatch hbegin hexpression htable) (hkeys table htable)
  | skipped hmatch hbegin hwhile => simp [FormSound, hmatch, hbegin, hwhile]
  | enclosed hmatch hbegin hend hwhile hopening hclosing hopeningKeys hclosingKeys =>
      simp only [FormSound, hmatch, hbegin]
      refine .inr ⟨_, hend, _, hopening, _, hclosing, fun table htable => ?_,
        fun table htable => ?_⟩
      · exact h.tableSound hreference (.opening hmatch hbegin hwhile hopening htable)
          (hopeningKeys table htable)
      · exact h.tableSound hreference (.closing hmatch hbegin hwhile hend hclosing htable)
          (hclosingKeys table htable)
  | grouped hmatch hbegin hend hwhile => simp [FormSound, hmatch, hbegin, hend, hwhile]

/-- What is asked of a rule: sound entries and, unless it is a reference, sound patterns and a sound
form. -/
theorem sound_iff (rule : RuleDefinition) :
    rule.Sound ↔ RepositorySound rule.repository ∧
      (rule.reference = none → PatternsSound rule.patterns ∧ rule.FormSound) := by
  constructor
  · intro h
    refine ⟨fun entries hentries entry hentry inner hinner => ?_, fun hreference =>
      ⟨fun rules hrules other hother inner hinner => ?_, h.formSound hreference⟩⟩
    · exact h inner (.entry hentries hentry hinner)
    · exact h inner (.pattern hreference hrules hother hinner)
  · rintro ⟨hentries, hrest⟩ inner hinner
    cases hinner with
    | itself =>
        rcases hreference : rule.reference with _ | text
        · exact (hrest hreference).2.wellFormed
        · exact .reference hreference
    | entry hrepository hentry hinner => exact hentries _ hrepository _ hentry inner hinner
    | pattern hreference hpatterns hrule hinner =>
        exact (hrest hreference).1 _ hpatterns _ hrule inner hinner
    | capture hreference huses hcapture hkey hgroup hpatterns hrule hinner =>
        obtain ⟨group, hfound, hsound⟩ := (hrest hreference).2.tableSound huses _ hcapture
        rw [hkey, Option.some.injEq] at hfound
        subst hfound
        exact hsound hgroup _ hpatterns _ hrule inner hinner

end RuleDefinition

namespace Compilation

/-! ## Compilation of the parts -/

theorem succeeds_expressionAt {α : Type} {location : Location}
    {compiled : Except ExpressionError Expression} {next : Expression → Except Malformed α}
    {Fine : Expression → Prop}
    (hnext : ∀ expression, Succeeds (next expression) ↔ Fine expression) :
    Succeeds (expressionAt location compiled >>= next) ↔
      ∃ expression, compiled = .ok expression ∧ Fine expression := by
  cases compiled with
  | error fault =>
      have hfault : expressionAt location (.error fault) =
          .error ⟨location, .badExpression fault⟩ := rfl
      simp [hfault, Succeeds]
  | ok expression =>
      have hcompiled : expressionAt location (.ok expression) = .ok expression := rfl
      simpa [hcompiled, Succeeds] using hnext expression

theorem no_end_or_while {endSource whileSource : Option String} :
    ¬(endSource.isSome || whileSource.isSome) = true ↔ endSource = none ∧ whileSource = none := by
  simp

theorem succeeds_orElse {groups : Nat} {own shared : Option (List (String × CaptureDefinition))}
    {first second : Except Malformed (List Capture × Tables)}
    (hown : Succeeds first ↔ CapturesSound groups own)
    (hshared : Succeeds second ↔ CapturesSound groups shared) :
    Succeeds (if own.isSome then first else second) ↔ CapturesSound groups (own.or shared) := by
  cases own with
  | none => simpa using hshared
  | some table => simpa using hown

mutual

theorem compileRule_succeeds (rule : RuleDefinition) {outer : RepositoryId} {location : Location}
    {tables : Tables} : Succeeds (compileRule rule outer location tables) ↔ rule.Sound := by
  rw [RuleDefinition.sound_iff]
  obtain ⟨reference, name, contentName, matchSource, beginSource, endSource, whileSource, captures,
    beginCaptures, endCaptures, patterns, repository, closesLast⟩ := rule
  rw [compileRule]
  refine succeeds_bind (compileInner_succeeds repository) fun (inner, tables) => ?_
  cases reference with
  | some text => simp
  | none =>
      rw [forall_prop_of_true rfl]
      refine succeeds_bind (compilePatterns_succeeds patterns) fun (nested, tables) => ?_
      cases matchSource with
      | some source =>
          cases beginSource with
          | some beginSource => simp [RuleDefinition.FormSound]
          | none =>
              dsimp only [RuleDefinition.FormSound]
              refine (succeeds_guard ?_).trans (and_congr_left' no_end_or_while)
              refine succeeds_expressionAt fun expression => ?_
              exact succeeds_bind_last (compileCaptures_succeeds captures) fun _ => succeeds_pure
      | none =>
          cases beginSource with
          | some source =>
              dsimp only [RuleDefinition.FormSound]
              split
              · next hwhile => simp [hwhile]
              · next hwhile =>
                rw [or_iff_right hwhile]
                cases endSource with
                | none => simp
                | some endSource =>
                    simp only [Option.some.injEq, exists_eq_left']
                    refine succeeds_expressionAt fun opening =>
                      succeeds_expressionAt fun closing => ?_
                    refine succeeds_bind (succeeds_orElse (compileCaptures_succeeds beginCaptures)
                      (compileCaptures_succeeds captures)) fun (openingCaptures, tables) => ?_
                    exact succeeds_bind_last (succeeds_orElse (compileCaptures_succeeds endCaptures)
                      (compileCaptures_succeeds captures)) fun _ => succeeds_pure
          | none =>
              dsimp only [RuleDefinition.FormSound]
              refine (succeeds_guard (P := True) ?_).trans
                ((and_true _).to_iff.trans no_end_or_while)
              split <;> simp
termination_by structural rule

theorem compileInner_succeeds (repository : Option (List (String × RuleDefinition)))
    {outer : RepositoryId} {location : Location} {tables : Tables} :
    Succeeds (compileInner repository outer location tables) ↔ RepositorySound repository := by
  cases repository with
  | none => simp [compileInner, RepositorySound, Succeeds]
  | some entries =>
      rw [compileInner]
      refine (succeeds_bind_last (compileEntries_succeeds entries) fun _ => succeeds_pure).trans ?_
      simp [RepositorySound]
termination_by structural repository

theorem compilePatterns_succeeds (patterns : Option (List RuleDefinition))
    {repository : RepositoryId} {location : Location} {tables : Tables} :
    Succeeds (compilePatterns patterns repository location tables) ↔ PatternsSound patterns := by
  cases patterns with
  | none => simp [compilePatterns, PatternsSound, Succeeds]
  | some rules =>
      refine (compileList_succeeds rules).trans ?_
      simp [PatternsSound]
termination_by structural patterns

theorem compileCaptures_succeeds (captures : Option (List (String × CaptureDefinition)))
    {groups : Nat} {repository : RepositoryId} {location : Location} {tables : Tables} :
    Succeeds (compileCaptures captures groups repository location tables) ↔
      CapturesSound groups captures := by
  cases captures with
  | none => simp [compileCaptures, CapturesSound, Succeeds]
  | some table =>
      rw [compileCaptures]
      refine (succeeds_bind_last (compileTable_succeeds table) fun _ => succeeds_pure).trans ?_
      simp [CapturesSound]
termination_by structural captures

theorem compileList_succeeds (rules : List RuleDefinition) {index : Nat}
    {repository : RepositoryId} {location : Location} {tables : Tables} :
    Succeeds (compileList rules index repository location tables) ↔
      ∀ rule ∈ rules, rule.Sound := by
  cases rules with
  | nil => simp [compileList, Succeeds]
  | cons rule rules =>
      rw [compileList, List.forall_mem_cons]
      refine succeeds_bind (compileRule_succeeds rule) fun (first, tables) => ?_
      exact succeeds_bind_last (compileList_succeeds rules) fun _ => succeeds_pure
termination_by structural rules

theorem compileEntries_succeeds (entries : List (String × RuleDefinition))
    {repository : RepositoryId} {location : Location} {tables : Tables} :
    Succeeds (compileEntries entries repository location tables) ↔
      ∀ entry ∈ entries, entry.2.Sound := by
  cases entries with
  | nil => simp [compileEntries, Succeeds]
  | cons entry entries =>
      obtain ⟨name, rule⟩ := entry
      rw [compileEntries, List.forall_mem_cons]
      refine succeeds_bind (compileRule_succeeds rule) fun (first, tables) => ?_
      exact succeeds_bind_last (compileEntries_succeeds entries) fun _ => succeeds_pure
termination_by structural entries

theorem compileTable_succeeds (captures : List (String × CaptureDefinition)) {groups : Nat}
    {repository : RepositoryId} {location : Location} {tables : Tables} :
    Succeeds (compileTable captures groups repository location tables) ↔
      TableSound groups captures := by
  cases captures with
  | nil => simp [compileTable, TableSound, Succeeds]
  | cons entry captures =>
      obtain ⟨key, name, patterns⟩ := entry
      rw [compileTable, TableSound, List.forall_mem_cons]
      dsimp only
      split
      · next hkey => simp [hkey]
      · next group hkey =>
        simp only [hkey, Option.some.injEq, exists_eq_left']
        split
        · next hgroup =>
          rw [and_iff_right fun hle => absurd hle (Nat.not_le_of_lt hgroup)]
          exact compileTable_succeeds captures
        · next hgroup =>
          rw [forall_prop_of_true (Nat.le_of_not_lt hgroup)]
          refine succeeds_bind (compilePatterns_succeeds patterns) fun (nested, tables) => ?_
          dsimp only
          split <;> exact succeeds_bind_last (compileTable_succeeds captures) fun _ => succeeds_pure
termination_by structural captures

end

end Compilation

namespace Grammar

open Compilation

variable (definition : GrammarDefinition)

theorem ofDefinition_succeeds :
    Succeeds (ofDefinition definition) ↔
      (∀ entry ∈ definition.repository, entry.2.Sound) ∧
        ∀ rule ∈ definition.patterns, rule.Sound := by
  unfold ofDefinition
  refine succeeds_bind (compileEntries_succeeds definition.repository) fun (entries, tables) => ?_
  exact succeeds_bind_last (compileList_succeeds definition.patterns) fun _ => succeeds_pure

/-- A definition is accepted exactly when every rule that is visited is well formed, and it is
refused only as malformed. -/
theorem accepted_iff_visits_wellFormed :
    ((∃ grammar, ofDefinition definition = .ok grammar) ↔
      ∀ rule, definition.Visits rule → rule.WellFormed) ∧
    ∀ error, grammarOf (.ok definition) = .error error → ∃ fault, error = .malformed fault := by
  refine ⟨(ofDefinition_succeeds definition).trans ⟨?_, fun h => ⟨?_, ?_⟩⟩, fun error h => ?_⟩
  · rintro ⟨hentries, hrules⟩ rule hvisits
    cases hvisits with
    | entry hentry hinner => exact hentries _ hentry rule hinner
    | pattern hrule hinner => exact hrules _ hrule rule hinner
  · exact fun entry hentry inner hinner => h inner (.entry hentry hinner)
  · exact fun rule hrule inner hinner => h inner (.pattern hrule hinner)
  · change (ofDefinition definition).mapError .malformed = .error error at h
    cases hcompiled : ofDefinition definition with
    | error fault =>
        rw [hcompiled] at h
        exact ⟨fault, (Except.error.inj h).symm⟩
    | ok grammar =>
        rw [hcompiled] at h
        cases h

/-- What a capture holds does not matter when its group does not exist: here a rule without end. -/
example : (ofDefinition {
    scopeName := "source"
    patterns := [{
      matchSource := some "a"
      captures := some [("1", { patterns := some [{ beginSource := some "b" }] })] }]
    }).toOption.isSome = true := by decide +kernel

end Grammar

end ScopeLexer
