import Mathlib.Data.Option.Basic
import ScopeLexer.Proofs.Grammar.Warnings

/-!
# Groups of patterns

A rule that only groups patterns has no number of its own: its patterns take its place.  So a
definition in which the patterns of such a rule are written out in its list compiles to the same
tables, wherever the list stands; only the locations in reports differ.
-/

namespace ScopeLexer

open Outcome Regex

/-! ## Definitions without a group -/

structure RuleDefinition.Groups (rule : RuleDefinition) (nested : List RuleDefinition) : Prop where
  patterns : rule.patterns = some nested
  reference : rule.reference = none
  matchSource : rule.matchSource = none
  beginSource : rule.beginSource = none
  endSource : rule.endSource = none
  whileSource : rule.whileSource = none
  repository : rule.repository = none

inductive TableExchanges (rules others : List RuleDefinition) :
    List (String × CaptureDefinition) → List (String × CaptureDefinition) → Prop where
  | capture {before after : List (String × CaptureDefinition)} {key : String}
      {capture : CaptureDefinition} (hpatterns : capture.patterns = some rules) :
      TableExchanges rules others (before ++ (key, capture) :: after)
        (before ++ (key, { capture with patterns := some others }) :: after)

/-- The first rule has the rules as a list of patterns, its own or that of a capture or of an entry
in it, where the second has others. -/
inductive RuleDefinition.Exchanges (rules others : List RuleDefinition) :
    RuleDefinition → RuleDefinition → Prop where
  | patterns {rule : RuleDefinition} (hpatterns : rule.patterns = some rules) :
      Exchanges rules others rule { rule with patterns := some others }
  | captures {rule : RuleDefinition} {table other : List (String × CaptureDefinition)}
      (hcaptures : rule.captures = some table) (htable : TableExchanges rules others table other) :
      Exchanges rules others rule { rule with captures := some other }
  | beginCaptures {rule : RuleDefinition} {table other : List (String × CaptureDefinition)}
      (hcaptures : rule.beginCaptures = some table)
      (htable : TableExchanges rules others table other) :
      Exchanges rules others rule { rule with beginCaptures := some other }
  | endCaptures {rule : RuleDefinition} {table other : List (String × CaptureDefinition)}
      (hcaptures : rule.endCaptures = some table)
      (htable : TableExchanges rules others table other) :
      Exchanges rules others rule { rule with endCaptures := some other }
  | entry {rule inner other : RuleDefinition} {before after : List (String × RuleDefinition)}
      {name : String} (hrepository : rule.repository = some (before ++ (name, inner) :: after))
      (hinner : Exchanges rules others inner other) :
      Exchanges rules others rule
        { rule with repository := some (before ++ (name, other) :: after) }

/-- The second list has the patterns of a group where the first, or a list at any depth in it, has
the group. -/
inductive Ungroups : List RuleDefinition → List RuleDefinition → Prop where
  | here {before nested after : List RuleDefinition} {rule : RuleDefinition}
      (hgroup : rule.Groups nested) :
      Ungroups (before ++ rule :: after) (before ++ (nested ++ after))
  | within {rules others before after : List RuleDefinition} {rule other : RuleDefinition}
      (hlists : Ungroups rules others) (hrule : RuleDefinition.Exchanges rules others rule other) :
      Ungroups (before ++ rule :: after) (before ++ other :: after)

inductive GrammarDefinition.Ungroups (definition : GrammarDefinition) :
    GrammarDefinition → Prop where
  | patterns {others : List RuleDefinition} (h : ScopeLexer.Ungroups definition.patterns others) :
      Ungroups definition { definition with patterns := others }
  | entry {rules others : List RuleDefinition} {before after : List (String × RuleDefinition)}
      {name : String} {rule other : RuleDefinition}
      (hrepository : definition.repository = before ++ (name, rule) :: after)
      (hlists : ScopeLexer.Ungroups rules others)
      (hrule : RuleDefinition.Exchanges rules others rule other) :
      Ungroups definition { definition with repository := before ++ (name, other) :: after }

namespace Compilation

/-! ## Tables but for locations -/

structure Tables.Alike (tables others : Tables) : Prop where
  rules : tables.rules = others.rules
  repositories : tables.repositories = others.repositories
  warnings : tables.warnings.map (·.kind) = others.warnings.map (·.kind)

namespace Tables.Alike

variable {tables others : Tables}

theorem refl (tables : Tables) : tables.Alike tables := ⟨rfl, rfl, rfl⟩

theorem nextRule (h : tables.Alike others) : tables.nextRule = others.nextRule := by
  simp [Tables.nextRule, h.rules]

theorem nextRepository (h : tables.Alike others) :
    tables.nextRepository = others.nextRepository := by
  simp [Tables.nextRepository, h.repositories]

theorem addRule (h : tables.Alike others) (name contentName : Option ScopeName) (kind : RuleKind)
    (patterns : List Pattern) :
    (tables.addRule name contentName kind patterns).Alike
      (others.addRule name contentName kind patterns) :=
  ⟨by simp [Tables.addRule, h.rules, h.nextRule], h.repositories, h.warnings⟩

theorem addRepository (h : tables.Alike others) (parent : Option RepositoryId) :
    (tables.addRepository parent).Alike (others.addRepository parent) :=
  ⟨h.rules, by simp [Tables.addRepository, h.repositories], h.warnings⟩

theorem setEntries (h : tables.Alike others) (id : RepositoryId)
    (entries : List (String × List Pattern)) :
    (tables.setEntries id entries).Alike (others.setEntries id entries) :=
  ⟨h.rules, by simp [Tables.setEntries, h.repositories], h.warnings⟩

theorem warn (h : tables.Alike others) (location elsewhere : Location) (kind : WarningKind) :
    (tables.warn location kind).Alike (others.warn elsewhere kind) :=
  ⟨h.rules, h.repositories, by simp [Tables.warn, h.warnings]⟩

end Tables.Alike

inductive Alike {α : Type} :
    Except Malformed (α × Tables) → Except Malformed (α × Tables) → Prop where
  | refused (cause : Malformation) (location elsewhere : Location) :
      Alike (.error ⟨location, cause⟩) (.error ⟨elsewhere, cause⟩)
  | compiled (result : α) {tables others : Tables} (htables : tables.Alike others) :
      Alike (.ok (result, tables)) (.ok (result, others))

def Agree {α : Type} (first second : Location → Tables → Except Malformed (α × Tables)) : Prop :=
  ∀ location elsewhere tables others, tables.Alike others →
    Alike (first location tables) (second elsewhere others)

namespace Alike

variable {α β : Type}

theorem bind {first second : Except Malformed (α × Tables)}
    {next other : α × Tables → Except Malformed (β × Tables)} (h : Alike first second)
    (hnext : ∀ result tables others, tables.Alike others →
      Alike (next (result, tables)) (other (result, others))) :
    Alike (first >>= next) (second >>= other) := by
  cases h with
  | refused cause location elsewhere => exact .refused cause location elsewhere
  | compiled result htables => exact hnext result _ _ htables

theorem expressionAt {location elsewhere : Location} {source : Except ExpressionError Expression}
    {next other : Expression → Except Malformed (β × Tables)}
    (hnext : ∀ expression, Alike (next expression) (other expression)) :
    Alike (Compilation.expressionAt location source >>= next)
      (Compilation.expressionAt elsewhere source >>= other) := by
  cases source with
  | error error => exact .refused (.badExpression error) location elsewhere
  | ok expression => exact hnext expression

end Alike

/-! ## Parts that compile alike -/

def RulesAgree (rule other : RuleDefinition) : Prop :=
  ∀ outer, Agree (compileRule rule outer) (compileRule other outer)

def ListsAgree (rules others : List RuleDefinition) : Prop :=
  ∀ index place repository, Agree (compileList rules index repository)
    (compileList others place repository)

def EntriesAgree (entries others : List (String × RuleDefinition)) : Prop :=
  ∀ repository, Agree (compileEntries entries repository) (compileEntries others repository)

def TablesAgree (captures others : List (String × CaptureDefinition)) : Prop :=
  ∀ groups repository, Agree (compileTable captures groups repository)
    (compileTable others groups repository)

theorem inner_agree {repository other : Option (List (String × RuleDefinition))}
    (h : Option.Rel EntriesAgree repository other) (outer : RepositoryId) :
    Agree (compileInner repository outer) (compileInner other outer) := by
  intro location elsewhere tables others htables
  cases h with
  | none => exact .compiled outer htables
  | some h =>
      rw [compileInner, compileInner, htables.nextRepository]
      refine (h _ _ _ _ _ (htables.addRepository _)).bind fun compiled tables others htables => ?_
      exact .compiled _ (htables.setEntries _ _)

theorem patterns_agree {patterns other : Option (List RuleDefinition)}
    (h : Option.Rel ListsAgree patterns other) (repository : RepositoryId) :
    Agree (compilePatterns patterns repository) (compilePatterns other repository) := by
  intro location elsewhere tables others htables
  cases h with
  | none => exact .compiled [] htables
  | some h => exact h 0 0 repository location elsewhere tables others htables

theorem captures_agree {captures other : Option (List (String × CaptureDefinition))}
    (h : Option.Rel TablesAgree captures other) (groups : Nat) (repository : RepositoryId) :
    Agree (compileCaptures captures groups repository)
      (compileCaptures other groups repository) := by
  intro location elsewhere tables others htables
  cases h with
  | none => exact .compiled [] htables
  | some h =>
      rw [compileCaptures, compileCaptures]
      exact (h groups repository _ _ _ _ htables).bind fun compiled tables others htables =>
        .compiled _ htables

theorem isSome_eq_of_rel {α : Type} {related : α → α → Prop} {first second : Option α}
    (h : Option.Rel related first second) : first.isSome = second.isSome := by
  cases h <;> rfl

theorem rules_agree (rule : RuleDefinition)
    {captures beginCaptures endCaptures : Option (List (String × CaptureDefinition))}
    {patterns : Option (List RuleDefinition)}
    {repository : Option (List (String × RuleDefinition))}
    (hcaptures : Option.Rel TablesAgree rule.captures captures)
    (hbegin : Option.Rel TablesAgree rule.beginCaptures beginCaptures)
    (hend : Option.Rel TablesAgree rule.endCaptures endCaptures)
    (hpatterns : Option.Rel ListsAgree rule.patterns patterns)
    (hrepository : Option.Rel EntriesAgree rule.repository repository) :
    RulesAgree rule
      { rule with captures, beginCaptures, endCaptures, patterns, repository } := by
  intro outer location elsewhere tables others htables
  obtain ⟨reference, name, contentName, matchSource, beginSource, endSource, whileSource,
    ownCaptures, ownBegin, ownEnd, ownPatterns, ownRepository, closesLast⟩ := rule
  rw [compileRule, compileRule]
  refine (inner_agree hrepository outer _ _ _ _ htables).bind fun inner tables others htables => ?_
  cases reference with
  | some text => exact .compiled _ htables
  | none =>
      refine (patterns_agree hpatterns inner _ _ _ _ htables).bind
        fun nested tables others htables => ?_
      dsimp only
      split
      · exact .refused .matchAndBegin _ _
      · -- A single match.
        split
        · exact .refused .matchWithEnd _ _
        refine .expressionAt fun expression => ?_
        refine (captures_agree hcaptures _ _ _ _ _ _ htables).bind
          fun compiled tables others htables => ?_
        rw [htables.nextRule]
        exact .compiled _ (htables.addRule _ _ _ _)
      · -- A rule between two matches.
        split
        · exact .compiled _ (htables.warn _ _ _)
        split
        · exact .refused .beginWithoutEnd _ _
        refine .expressionAt fun opening => .expressionAt fun closing => ?_
        rw [← isSome_eq_of_rel hbegin, ← isSome_eq_of_rel hend]
        refine Alike.bind (?_ : Alike (ite ..) (ite ..)) fun _ tables others htables => ?_
        · split
          · exact captures_agree hbegin _ _ _ _ _ _ htables
          · exact captures_agree hcaptures _ _ _ _ _ _ htables
        refine Alike.bind (?_ : Alike (ite ..) (ite ..)) fun _ tables others htables => ?_
        · split
          · exact captures_agree hend _ _ _ _ _ _ htables
          · exact captures_agree hcaptures _ _ _ _ _ _ htables
        rw [htables.nextRule]
        exact .compiled _ (htables.addRule _ _ _ _)
      · -- Patterns that are only grouped.
        split
        · exact .refused .endWithoutBegin _ _
        rw [← Option.not_isSome, ← Option.not_isSome, ← isSome_eq_of_rel hpatterns]
        split
        · exact .compiled _ (htables.warn _ _ _)
        · exact .compiled _ htables

theorem lists_cons_agree {rule other : RuleDefinition} {rules others : List RuleDefinition}
    (hrule : RulesAgree rule other) (hrules : ListsAgree rules others) :
    ListsAgree (rule :: rules) (other :: others) := by
  intro index place repository location elsewhere tables others htables
  rw [compileList, compileList]
  refine (hrule repository _ _ _ _ htables).bind fun first tables others htables => ?_
  refine (hrules (index + 1) (place + 1) repository _ _ _ _ htables).bind
    fun rest tables others htables => ?_
  exact .compiled _ htables

theorem entries_cons_agree {name : String} {rule other : RuleDefinition}
    {entries others : List (String × RuleDefinition)} (hrule : RulesAgree rule other)
    (hentries : EntriesAgree entries others) :
    EntriesAgree ((name, rule) :: entries) ((name, other) :: others) := by
  intro repository location elsewhere tables others htables
  rw [compileEntries, compileEntries]
  refine (hrule repository _ _ _ _ htables).bind fun patterns tables others htables => ?_
  refine (hentries repository _ _ _ _ htables).bind fun rest tables others htables => ?_
  exact .compiled _ htables

theorem tables_cons_agree {key : String} (capture : CaptureDefinition)
    {patterns : Option (List RuleDefinition)} {captures others : List (String × CaptureDefinition)}
    (hpatterns : Option.Rel ListsAgree capture.patterns patterns)
    (hcaptures : TablesAgree captures others) :
    TablesAgree ((key, capture) :: captures) ((key, { capture with patterns }) :: others) := by
  intro groups repository location elsewhere tables others htables
  obtain ⟨name, ownPatterns⟩ := capture
  rw [compileTable, compileTable]
  dsimp only
  split
  · exact .refused (.badGroup key) _ _
  split
  · exact hcaptures groups repository _ _ _ _ (htables.warn _ _ _)
  refine (patterns_agree hpatterns repository _ _ _ _ htables).bind
    fun nested tables others htables => ?_
  dsimp only
  rw [← isSome_eq_of_rel hpatterns, htables.nextRule]
  split
  · refine (hcaptures groups repository _ _ _ _ (htables.addRule _ _ _ _)).bind
      fun rest tables others htables => ?_
    exact .compiled _ htables
  · refine (hcaptures groups repository _ _ _ _ htables).bind
      fun rest tables others htables => ?_
    exact .compiled _ htables

/-! ## Parts and themselves -/

mutual

theorem rule_agrees (rule : RuleDefinition) : RulesAgree rule rule := by
  obtain ⟨reference, name, contentName, matchSource, beginSource, endSource, whileSource, captures,
    beginCaptures, endCaptures, patterns, repository, closesLast⟩ := rule
  exact rules_agree ⟨reference, name, contentName, matchSource, beginSource, endSource,
      whileSource, captures, beginCaptures, endCaptures, patterns, repository, closesLast⟩
    (captures_agree_self captures) (captures_agree_self beginCaptures)
    (captures_agree_self endCaptures) (patterns_agree_self patterns)
    (repository_agrees repository)
termination_by structural rule

theorem repository_agrees (repository : Option (List (String × RuleDefinition))) :
    Option.Rel EntriesAgree repository repository := by
  cases repository with
  | none => exact .none
  | some entries => exact .some (entries_agree entries)
termination_by structural repository

theorem patterns_agree_self (patterns : Option (List RuleDefinition)) :
    Option.Rel ListsAgree patterns patterns := by
  cases patterns with
  | none => exact .none
  | some rules => exact .some (lists_agree rules)
termination_by structural patterns

theorem captures_agree_self (captures : Option (List (String × CaptureDefinition))) :
    Option.Rel TablesAgree captures captures := by
  cases captures with
  | none => exact .none
  | some table => exact .some (tables_agree table)
termination_by structural captures

theorem lists_agree (rules : List RuleDefinition) : ListsAgree rules rules := by
  cases rules with
  | nil => exact fun _ _ _ _ _ _ _ htables => .compiled [] htables
  | cons rule rules => exact lists_cons_agree (rule_agrees rule) (lists_agree rules)
termination_by structural rules

theorem entries_agree (entries : List (String × RuleDefinition)) :
    EntriesAgree entries entries := by
  cases entries with
  | nil => exact fun _ _ _ _ _ htables => .compiled [] htables
  | cons entry entries =>
      obtain ⟨name, rule⟩ := entry
      exact entries_cons_agree (rule_agrees rule) (entries_agree entries)
termination_by structural entries

theorem tables_agree (captures : List (String × CaptureDefinition)) :
    TablesAgree captures captures := by
  cases captures with
  | nil => exact fun _ _ _ _ _ _ htables => .compiled [] htables
  | cons entry captures =>
      obtain ⟨key, name, patterns⟩ := entry
      exact tables_cons_agree ⟨name, patterns⟩ (patterns_agree_self patterns)
        (tables_agree captures)
termination_by structural captures

end

/-! ## Exchanged parts -/

theorem lists_append_agree {rules others : List RuleDefinition} (before : List RuleDefinition)
    (h : ListsAgree rules others) : ListsAgree (before ++ rules) (before ++ others) := by
  induction before with
  | nil => exact h
  | cons rule before ih => exact lists_cons_agree (rule_agrees rule) ih

theorem compileList_append (first second : List RuleDefinition) (index : Nat)
    (repository : RepositoryId) (location : Location) (tables : Tables) :
    compileList (first ++ second) index repository location tables = (do
      let (compiled, tables) ← compileList first index repository location tables
      let (others, tables) ← compileList second (index + first.length) repository location tables
      return (compiled ++ others, tables)) := by
  induction first generalizing index tables with
  | nil => exact (bind_pure _).symm
  | cons rule first ih =>
      have hplace : index + 1 + first.length = index + (first.length + 1) := by omega
      rw [List.cons_append, compileList, compileList]
      simp only [ih, hplace, bind_assoc, pure_bind, List.length_cons, List.append_assoc]

theorem compileRule_group {rule : RuleDefinition} {nested : List RuleDefinition}
    (hgroup : rule.Groups nested) (outer : RepositoryId) (location : Location) (tables : Tables) :
    compileRule rule outer location tables =
      compileList nested 0 outer (location.field "patterns") tables := by
  obtain ⟨reference, name, contentName, matchSource, beginSource, endSource, whileSource, captures,
    beginCaptures, endCaptures, patterns, repository, closesLast⟩ := rule
  obtain ⟨hpatterns, hreference, hmatch, hbegin, hend, hwhile, hrepository⟩ := hgroup
  dsimp only at hpatterns hreference hmatch hbegin hend hwhile hrepository
  subst hpatterns hreference hmatch hbegin hend hwhile hrepository
  have hrule : compileRule ⟨none, name, contentName, none, none, none, none, captures,
      beginCaptures, endCaptures, some nested, none, closesLast⟩ outer location tables =
      compileList nested 0 outer (location.field "patterns") tables >>= pure := rfl
  rw [hrule, bind_pure]

theorem lists_group_agree {rule : RuleDefinition} {nested : List RuleDefinition}
    (hgroup : rule.Groups nested) (after : List RuleDefinition) :
    ListsAgree (rule :: after) (nested ++ after) := by
  intro index place repository location elsewhere tables others htables
  rw [compileList, compileList_append, compileRule_group hgroup]
  refine (lists_agree nested _ _ repository _ _ _ _ htables).bind
    fun compiled tables others htables => ?_
  refine (lists_agree after _ _ repository _ _ _ _ htables).bind
    fun rest tables others htables => ?_
  exact .compiled _ htables

theorem tables_exchange_agree {rules others : List RuleDefinition}
    (hlists : ListsAgree rules others) {table other : List (String × CaptureDefinition)}
    (h : TableExchanges rules others table other) : TablesAgree table other := by
  obtain ⟨hpatterns⟩ := h
  rename_i before after key capture
  induction before with
  | nil =>
      refine tables_cons_agree capture ?_ (tables_agree after)
      rw [hpatterns]
      exact .some hlists
  | cons entry before ih =>
      exact tables_cons_agree entry.2 (patterns_agree_self entry.2.patterns) ih

theorem entries_exchange_agree {name : String} {rule other : RuleDefinition}
    (before after : List (String × RuleDefinition)) (hrule : RulesAgree rule other) :
    EntriesAgree (before ++ (name, rule) :: after) (before ++ (name, other) :: after) := by
  induction before with
  | nil => exact entries_cons_agree hrule (entries_agree after)
  | cons entry before ih => exact entries_cons_agree (rule_agrees entry.2) ih

theorem rules_exchange_agree {rules others : List RuleDefinition}
    (hlists : ListsAgree rules others) {rule other : RuleDefinition}
    (h : RuleDefinition.Exchanges rules others rule other) : RulesAgree rule other := by
  induction h with
  | @patterns rule hpatterns =>
      refine rules_agree rule (captures_agree_self _) (captures_agree_self _)
        (captures_agree_self _) ?_ (repository_agrees _)
      rw [hpatterns]
      exact .some hlists
  | @captures rule table other hcaptures htable =>
      refine rules_agree rule ?_ (captures_agree_self _) (captures_agree_self _)
        (patterns_agree_self _) (repository_agrees _)
      rw [hcaptures]
      exact .some (tables_exchange_agree hlists htable)
  | @beginCaptures rule table other hcaptures htable =>
      refine rules_agree rule (captures_agree_self _) ?_ (captures_agree_self _)
        (patterns_agree_self _) (repository_agrees _)
      rw [hcaptures]
      exact .some (tables_exchange_agree hlists htable)
  | @endCaptures rule table other hcaptures htable =>
      refine rules_agree rule (captures_agree_self _) (captures_agree_self _) ?_
        (patterns_agree_self _) (repository_agrees _)
      rw [hcaptures]
      exact .some (tables_exchange_agree hlists htable)
  | @entry rule inner other before after name hrepository hinner ih =>
      refine rules_agree rule (captures_agree_self _) (captures_agree_self _)
        (captures_agree_self _) (patterns_agree_self _) ?_
      rw [hrepository]
      exact .some (entries_exchange_agree before after ih)

/-- A list compiles like one with the patterns of a group in place of the group.  By induction on
how deep the group lies. -/
theorem lists_ungroup_agree {rules others : List RuleDefinition} (h : Ungroups rules others) :
    ListsAgree rules others := by
  induction h with
  | @here before nested after rule hgroup =>
      exact lists_append_agree before (lists_group_agree hgroup after)
  | @within rules others before after rule other hlists hrule ih =>
      exact lists_append_agree before
        (lists_cons_agree (rules_exchange_agree ih hrule) (lists_agree after))

end Compilation

/-! ## Grammars but for locations -/

structure Grammar.Alike (grammar other : Grammar) : Prop where
  scopeName : grammar.scopeName = other.scopeName
  name : grammar.name = other.name
  rules : grammar.rules = other.rules
  repositories : grammar.repositories = other.repositories
  root : grammar.root = other.root
  warnings : grammar.warnings.map (·.kind) = other.warnings.map (·.kind)

theorem Grammar.Alike.eq_reporting {grammar other : Grammar} (h : grammar.Alike other) :
    other = grammar.reporting other.warnings := by
  obtain ⟨scopeName, name, rules, repositories, root, warnings⟩ := other
  obtain ⟨rfl, rfl, rfl, rfl, rfl, -⟩ := h
  rfl

inductive SameButLocations : Except Malformed Grammar → Except Malformed Grammar → Prop where
  | refused (cause : Malformation) (location elsewhere : Location) :
      SameButLocations (.error ⟨location, cause⟩) (.error ⟨elsewhere, cause⟩)
  | accepted {grammar other : Grammar} (h : grammar.Alike other) :
      SameButLocations (.ok grammar) (.ok other)

namespace Compilation

theorem Alike.finish {α : Type} {first second : Except Malformed (α × Tables)}
    {next other : α × Tables → Except Malformed Grammar} (h : Alike first second)
    (hnext : ∀ result tables others, tables.Alike others →
      SameButLocations (next (result, tables)) (other (result, others))) :
    SameButLocations (first >>= next) (second >>= other) := by
  cases h with
  | refused cause location elsewhere => exact .refused cause location elsewhere
  | compiled result htables => exact hnext result _ _ htables

theorem ofDefinition_same {scopeName : String} {name : Option String} {fileTypes : List String}
    {patterns others : List RuleDefinition} {repository entries : Entries RuleDefinition}
    (hpatterns : ListsAgree patterns others) (hrepository : EntriesAgree repository entries) :
    SameButLocations (Grammar.ofDefinition ⟨scopeName, name, fileTypes, patterns, repository⟩)
      (Grammar.ofDefinition ⟨scopeName, name, fileTypes, others, entries⟩) := by
  unfold Grammar.ofDefinition
  refine (hrepository 0 _ _ _ _ (.refl _)).finish fun compiled tables others htables => ?_
  refine (hpatterns 0 0 0 _ _ _ _ (htables.setEntries 0 compiled)).finish
    fun top tables others htables => ?_
  have hroot := htables.addRule none none .group top
  exact .accepted ⟨rfl, rfl, hroot.rules, hroot.repositories, htables.nextRule, hroot.warnings⟩

theorem ofDefinition_ungrouped {definition ungrouped : GrammarDefinition}
    (h : definition.Ungroups ungrouped) :
    SameButLocations (Grammar.ofDefinition definition) (Grammar.ofDefinition ungrouped) := by
  cases h with
  | patterns hlists =>
      exact ofDefinition_same (lists_ungroup_agree hlists) (entries_agree definition.repository)
  | @entry rules others before after name rule other hrepository hlists hrule =>
      have hrules := rules_exchange_agree (lists_ungroup_agree hlists) hrule
      obtain ⟨scopeName, name, fileTypes, patterns, repository⟩ := definition
      dsimp only at hrepository
      subst hrepository
      exact ofDefinition_same (lists_agree patterns) (entries_exchange_agree before after hrules)

end Compilation

namespace GrammarDefinition

/-- With the patterns of a group in place of the group, wherever it stands, a definition is refused
for the same cause or has the same rules, repositories and kinds of warnings, and so the same
candidates and the same tokens for every line. -/
theorem groups_stand_for_their_patterns {definition ungrouped : GrammarDefinition}
    (h : definition.Ungroups ungrouped) :
    SameButLocations (Grammar.ofDefinition definition) (Grammar.ofDefinition ungrouped) ∧
      ∀ grammar other, Grammar.ofDefinition definition = .ok grammar →
        Grammar.ofDefinition ungrouped = .ok other →
          (∀ rule, grammar.candidates rule = other.candidates rule) ∧
          State.initial grammar = State.initial other ∧
          ∀ options state line, grammar.tokenizeLine options state line =
            other.tokenizeLine options state line := by
  have hsame := Compilation.ofDefinition_ungrouped h
  refine ⟨hsame, fun grammar other hgrammar hother => ?_⟩
  rw [hgrammar, hother] at hsame
  cases hsame with
  | accepted halike =>
      rw [halike.eq_reporting]
      exact ⟨fun rule => (grammar.candidates_reporting _ rule).symm, rfl,
        fun options state line => (grammar.tokenizeLine_reporting _ options state line).symm⟩

def group (nested : List RuleDefinition) : RuleDefinition where
  name := some "unused"
  contentName := some "unused"
  captures := some [("no number", {})]
  patterns := some nested

def bracket (patterns : List RuleDefinition) : RuleDefinition where
  beginSource := some "<(.*)"
  endSource := some ">"
  beginCaptures := some [("1", { patterns := some patterns })]

def bracketGrammar (patterns : List RuleDefinition) : GrammarDefinition where
  scopeName := "source"
  patterns := [{ reference := some "#bracket" }]
  repository := [("bracket", bracket patterns)]

theorem bracketGrammar_ungroups (before nested after : List RuleDefinition) :
    (bracketGrammar (before ++ group nested :: after)).Ungroups
      (bracketGrammar (before ++ (nested ++ after))) := by
  have hlists : ScopeLexer.Ungroups (before ++ group nested :: after)
      (before ++ (nested ++ after)) := .here ⟨rfl, rfl, rfl, rfl, rfl, rfl, rfl⟩
  have hrule : RuleDefinition.Exchanges _ _ (bracket (before ++ group nested :: after))
      (bracket (before ++ (nested ++ after))) :=
    .beginCaptures rfl (@TableExchanges.capture _ _ [] [] "1"
      { patterns := some (before ++ group nested :: after) } rfl)
  exact @Ungroups.entry _ _ _ [] [] "bracket" _ _ rfl hlists hrule

def letter : RuleDefinition := { matchSource := some "a", name := some "letter" }

def grouped : GrammarDefinition :=
  bracketGrammar ([letter] ++ group [letter, { reference := some "$self" }] :: [letter])

def written : GrammarDefinition :=
  bracketGrammar ([letter] ++ ([letter, { reference := some "$self" }] ++ [letter]))

theorem group_in_capture_stands_for_its_patterns :
    grouped.Ungroups written ∧
      SameButLocations (Grammar.ofDefinition grouped) (Grammar.ofDefinition written) ∧
      ∃ grammar other, Grammar.ofDefinition grouped = .ok grammar ∧
        Grammar.ofDefinition written = .ok other ∧ grammar.rules.size = 6 ∧
        ∀ options state line, grammar.tokenizeLine options state line =
          other.tokenizeLine options state line := by
  have hungroups : grouped.Ungroups written := bracketGrammar_ungroups _ _ _
  obtain ⟨hsame, hgrammars⟩ := groups_stand_for_their_patterns hungroups
  refine ⟨hungroups, hsame, _, _, rfl, rfl, rfl, (hgrammars _ _ rfl rfl).2.2⟩

end GrammarDefinition

end ScopeLexer
