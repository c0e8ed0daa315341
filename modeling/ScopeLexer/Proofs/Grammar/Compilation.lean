import ScopeLexer.Grammar.OfDefinition
import ScopeLexer.Proofs.Outcome

/-!
# Invariants of compilation

Compilation adds rules, repositories, entries and warnings to its tables, one after the other.  What
each addition keeps of the tables, and of the patterns that go into them, the compiled grammar has.
-/

namespace ScopeLexer

open Outcome

/-! ## Rules in rules -/

inductive RuleDefinition.Contains : RuleDefinition → RuleDefinition → Prop where
  | itself (rule : RuleDefinition) : Contains rule rule
  | pattern {outer rule inner : RuleDefinition} {rules : List RuleDefinition}
      (hpatterns : outer.patterns = some rules) (hrule : rule ∈ rules)
      (hinner : Contains rule inner) : Contains outer inner
  | entry {outer rule inner : RuleDefinition} {entries : List (String × RuleDefinition)}
      {name : String} (hrepository : outer.repository = some entries)
      (hentry : (name, rule) ∈ entries) (hinner : Contains rule inner) : Contains outer inner
  | capture {outer rule inner : RuleDefinition} {captures : List (String × CaptureDefinition)}
      {key : String} {capture : CaptureDefinition} {rules : List RuleDefinition}
      (hcaptures : outer.captures = some captures ∨ outer.beginCaptures = some captures ∨
        outer.endCaptures = some captures)
      (hcapture : (key, capture) ∈ captures) (hpatterns : capture.patterns = some rules)
      (hrule : rule ∈ rules) (hinner : Contains rule inner) : Contains outer inner

inductive GrammarDefinition.Contains (definition : GrammarDefinition) : RuleDefinition → Prop where
  | pattern {rule inner : RuleDefinition} (hrule : rule ∈ definition.patterns)
      (hinner : rule.Contains inner) : Contains definition inner
  | entry {rule inner : RuleDefinition} {name : String}
      (hentry : (name, rule) ∈ definition.repository) (hinner : rule.Contains inner) :
      Contains definition inner

def RuleKind.Compiled : RuleKind → Prop
  | .group => True
  | .single expression _ => ∃ source, Regex.Expression.ofSource source = .ok expression
  | .enclosed enclosure =>
      (∃ source, Regex.Expression.ofSource source = .ok enclosure.opening) ∧
        ∃ source, Regex.Expression.ofEndSource source = .ok enclosure.closing

namespace Compilation

/-! ## Additions to the tables -/

structure Grows (tables next : Tables) : Prop where
  rules : ∀ (id : RuleId) (rule : Rule), tables.rules[id]? = some rule →
    next.rules[id]? = some rule
  repositories : ∀ (id : RepositoryId) (repository : Repository),
    tables.repositories[id]? = some repository → next.repositories[id]? = some repository

namespace Grows

variable {tables middle next : Tables}

theorem refl (tables : Tables) : Grows tables tables :=
  ⟨fun _ _ h => h, fun _ _ h => h⟩

theorem trans (h : Grows tables middle) (h' : Grows middle next) : Grows tables next :=
  ⟨fun id rule hrule => h'.rules id rule (h.rules id rule hrule),
    fun id repository hid => h'.repositories id repository (h.repositories id repository hid)⟩

theorem nextRepository_le (h : Grows tables next) : tables.nextRepository ≤ next.nextRepository := by
  refine Nat.le_of_not_lt fun hlt => ?_
  have hrepository := h.repositories _ _ (Array.getElem?_eq_getElem hlt)
  simp [Tables.nextRepository] at hrepository

theorem addRule (tables : Tables) (name contentName : Option ScopeName) (kind : RuleKind)
    (patterns : List Pattern) : Grows tables (tables.addRule name contentName kind patterns) where
  rules id rule hrule := by
    have hid := (Array.getElem?_eq_some_iff.mp hrule).1
    simp only [Tables.addRule, Array.getElem?_push, Nat.ne_of_lt hid, if_false, hrule]
  repositories _ _ h := h

theorem addRepository (tables : Tables) (parent : Option RepositoryId) :
    Grows tables (tables.addRepository parent) where
  rules _ _ h := h
  repositories id repository h := by
    have hid := (Array.getElem?_eq_some_iff.mp h).1
    simp only [Tables.addRepository, Array.getElem?_push, Nat.ne_of_lt hid, if_false, h]

theorem warn (tables : Tables) (location : Location) (kind : WarningKind) :
    Grows tables (tables.warn location kind) :=
  ⟨fun _ _ h => h, fun _ _ h => h⟩

theorem setEntries (h : Grows tables next) {id : RepositoryId} (hid : tables.nextRepository ≤ id)
    (entries : List (String × List Pattern)) : Grows tables (next.setEntries id entries) where
  rules := h.rules
  repositories other repository hother := by
    have hlt : other < tables.repositories.size := (Array.getElem?_eq_some_iff.mp hother).1
    have hne : id ≠ other := Nat.ne_of_gt (Nat.lt_of_lt_of_le hlt hid)
    simp only [Tables.setEntries, Array.getElem?_modify, hne, if_false]
    exact h.repositories other repository hother

end Grows

theorem nextRepository_addRepository (tables : Tables) (parent : Option RepositoryId) :
    (tables.addRepository parent).nextRepository = tables.nextRepository + 1 :=
  Array.size_push _

theorem nextRepository_setEntries (tables : Tables) (id : RepositoryId)
    (entries : List (String × List Pattern)) :
    (tables.setEntries id entries).nextRepository = tables.nextRepository :=
  Array.size_modify ..

/-! ## What a rule is compiled to -/

theorem expressionAt_eq_ok {location : Location}
    {compiled : Except Regex.ExpressionError Regex.Expression} {expression : Regex.Expression}
    (h : expressionAt location compiled = .ok expression) : compiled = .ok expression := by
  cases compiled with
  | error fault => contradiction
  | ok compiled =>
      cases (h : (.ok compiled : Except Malformed Regex.Expression) = .ok expression)
      rfl

/-- The ways in which a rule is compiled, once the patterns in it are.  The rule itself comes behind
them and behind what its captures hold. -/
inductive CompiledKind (rule : RuleDefinition) (inner : RepositoryId) (location : Location)
    (nested : List Pattern) (tables : Tables) : List Pattern → Tables → Prop where
  | single {source : String} {expression : Regex.Expression} {captures : List Capture}
      {tablesCaptures : Tables} (hmatch : rule.matchSource = some source)
      (hcaptures : compileCaptures rule.captures expression.groupCount inner
        (location.field "captures") tables = .ok (captures, tablesCaptures))
      (hexpression : Regex.Expression.ofSource source = .ok expression) :
      CompiledKind rule inner location nested tables [.rule tablesCaptures.nextRule]
        (tablesCaptures.addRule (rule.name.map .mk) (rule.contentName.map .mk)
          (.single expression captures) nested)
  | skipped {source whileSource : String} (hbegin : rule.beginSource = some source)
      (hwhile : rule.whileSource = some whileSource) :
      CompiledKind rule inner location nested tables [] (tables.warn location .unsupportedWhile)
  | enclosed {source : String} {opening closing : Regex.Expression}
      {openingCaptures closingCaptures : List Capture} {tablesOpening tablesClosing : Tables}
      (hbegin : rule.beginSource = some source) (hwhile : rule.whileSource = none)
      (hopening :
        (if rule.beginCaptures.isSome then
          compileCaptures rule.beginCaptures opening.groupCount inner
            (location.field "beginCaptures") tables
        else
          compileCaptures rule.captures opening.groupCount inner
            (location.field "beginCaptures") tables) = .ok (openingCaptures, tablesOpening))
      (hclosing :
        (if rule.endCaptures.isSome then
          compileCaptures rule.endCaptures closing.groupCount inner
            (location.field "endCaptures") tablesOpening
        else
          compileCaptures rule.captures closing.groupCount inner
            (location.field "endCaptures") tablesOpening) = .ok (closingCaptures, tablesClosing))
      (hopeningSource : Regex.Expression.ofSource source = .ok opening)
      (hclosingSource : ∃ endSource, rule.endSource = some endSource ∧
        Regex.Expression.ofEndSource endSource = .ok closing) :
      CompiledKind rule inner location nested tables [.rule tablesClosing.nextRule]
        (tablesClosing.addRule (rule.name.map .mk) (rule.contentName.map .mk)
          (.enclosed ⟨opening, closing, openingCaptures, closingCaptures,
            rule.applyEndPatternLast⟩) nested)
  | grouped {next : Tables} (hmatch : rule.matchSource = none) (hbegin : rule.beginSource = none)
      (hnext : next = tables ∨ next = tables.warn location .emptyRule) :
      CompiledKind rule inner location nested tables nested next

inductive CompiledRule (rule : RuleDefinition) (outer : RepositoryId) (location : Location)
    (tables : Tables) : List Pattern → Tables → Prop where
  | reference {text : String} {inner : RepositoryId} {next : Tables}
      (hinner : compileInner rule.repository outer (location.field "repository") tables =
        .ok (inner, next))
      (hreference : rule.reference = some text) :
      CompiledRule rule outer location tables [.reference (.ofText text inner)] next
  | plain {inner : RepositoryId} {nested compiled : List Pattern}
      {tablesInner tablesNested next : Tables}
      (hinner : compileInner rule.repository outer (location.field "repository") tables =
        .ok (inner, tablesInner))
      (hreference : rule.reference = none)
      (hnested : compilePatterns rule.patterns inner (location.field "patterns") tablesInner =
        .ok (nested, tablesNested))
      (hkind : CompiledKind rule inner location nested tablesNested compiled next) :
      CompiledRule rule outer location tables compiled next

theorem compiledRule_of_compileRule {rule : RuleDefinition} {outer : RepositoryId}
    {location : Location} {tables next : Tables} {compiled : List Pattern}
    (h : compileRule rule outer location tables = .ok (compiled, next)) :
    CompiledRule rule outer location tables compiled next := by
  obtain ⟨reference, name, contentName, matchSource, beginSource, endSource, whileSource, captures,
    beginCaptures, endCaptures, patterns, repository, closesLast⟩ := rule
  rw [compileRule] at h
  obtain ⟨⟨inner, tablesInner⟩, hinner, h⟩ := bind_eq_ok.mp h
  dsimp only at h
  cases reference with
  | some text =>
      cases pure_eq_ok.mp h
      exact .reference hinner rfl
  | none =>
      obtain ⟨⟨nested, tablesNested⟩, hnested, h⟩ := bind_eq_ok.mp h
      refine .plain hinner rfl hnested ?_
      dsimp only at h
      split at h
      · simp at h
      · -- A single match.
        split at h
        · simp at h
        obtain ⟨expression, hexpression, h⟩ := bind_eq_ok.mp h
        obtain ⟨⟨compiledCaptures, tablesCaptures⟩, hcaptures, h⟩ := bind_eq_ok.mp h
        cases pure_eq_ok.mp h
        exact .single rfl hcaptures (expressionAt_eq_ok hexpression)
      · -- A rule between two matches.
        split at h
        · next hwhile =>
          cases pure_eq_ok.mp h
          obtain ⟨source, hsource⟩ := Option.isSome_iff_exists.mp hwhile
          exact .skipped rfl hsource
        · next hwhile =>
          split at h
          · simp at h
          obtain ⟨opening, hopeningSource, h⟩ := bind_eq_ok.mp h
          obtain ⟨closing, hclosingSource, h⟩ := bind_eq_ok.mp h
          obtain ⟨⟨openingCaptures, tablesOpening⟩, hopening, h⟩ := bind_eq_ok.mp h
          obtain ⟨⟨closingCaptures, tablesClosing⟩, hclosing, h⟩ := bind_eq_ok.mp h
          cases pure_eq_ok.mp h
          exact .enclosed rfl (Option.not_isSome_iff_eq_none.mp hwhile) hopening hclosing
            (expressionAt_eq_ok hopeningSource) ⟨_, rfl, expressionAt_eq_ok hclosingSource⟩
      · -- Patterns that are only grouped.
        split at h
        · simp at h
        split at h
        · cases pure_eq_ok.mp h
          exact .grouped rfl rfl (.inr rfl)
        · cases pure_eq_ok.mp h
          exact .grouped rfl rfl (.inl rfl)

/-! ## Invariants -/

/-- What every addition to the tables keeps: `Holds` of the tables, as long as the patterns that are
added are `Fine` among the rules and the expressions are compiled. -/
structure Kept (Holds : Tables → Prop) (Fine : Array Rule → Pattern → Prop) : Prop where
  mono {rules more : Array Rule} {pattern : Pattern}
    (hrules : ∀ (id : RuleId) (rule : Rule), rules[id]? = some rule → more[id]? = some rule)
    (h : Fine rules pattern) : Fine more pattern
  rule {rules : Array Rule} {id : RuleId} {rule : Rule} (hrule : rules[id]? = some rule)
    (hkind : rule.kind ≠ .group) : Fine rules (.rule id)
  addRule {tables : Tables} {name contentName : Option ScopeName} {kind : RuleKind}
    {patterns : List Pattern} (htables : Holds tables)
    (hpatterns : ∀ pattern ∈ patterns, Fine tables.rules pattern) (hkind : kind.Compiled) :
    Holds (tables.addRule name contentName kind patterns)
  addRepository {tables : Tables} {parent : Option RepositoryId} (htables : Holds tables)
    (hparent : ∀ id ∈ parent, id < tables.nextRepository) : Holds (tables.addRepository parent)
  setEntries {tables : Tables} {id : RepositoryId} {entries : List (String × List Pattern)}
    (htables : Holds tables)
    (hentries : ∀ entry ∈ entries, ∀ pattern ∈ entry.2, Fine tables.rules pattern) :
    Holds (tables.setEntries id entries)
  warn {tables : Tables} {location : Location} {kind : WarningKind} (htables : Holds tables) :
    Holds (tables.warn location kind)

def FineIn (Fine : Array Rule → Pattern → Prop) (rule : RuleDefinition) : Prop :=
  ∀ inner, rule.Contains inner → ∀ text, inner.reference = some text →
    ∀ rules repository, Fine rules (.reference (.ofText text repository))

/-- What comes of compiling a part: the tables grow, they hold, and its patterns are fine. -/
structure Adds (Holds : Tables → Prop) (Fine : Array Rule → Pattern → Prop) (tables next : Tables)
    (patterns : List Pattern) : Prop where
  grows : Grows tables next
  holds : Holds next
  fine : ∀ pattern ∈ patterns, Fine next.rules pattern

variable {Holds : Tables → Prop} {Fine : Array Rule → Pattern → Prop}

theorem FineIn.patterns {rule : RuleDefinition} (h : FineIn Fine rule) :
    ∀ rules, rule.patterns = some rules → ∀ inner ∈ rules, FineIn Fine inner :=
  fun _ hpatterns _ hmem _ hinner => h _ (.pattern hpatterns hmem hinner)

theorem FineIn.repository {rule : RuleDefinition} (h : FineIn Fine rule) :
    ∀ entries, rule.repository = some entries → ∀ entry ∈ entries, FineIn Fine entry.2 :=
  fun _ hrepository _ hmem _ hinner => h _ (.entry hrepository hmem hinner)

theorem FineIn.captures {rule : RuleDefinition} (h : FineIn Fine rule)
    {captures : List (String × CaptureDefinition)}
    (hcaptures : rule.captures = some captures ∨ rule.beginCaptures = some captures ∨
      rule.endCaptures = some captures) :
    ∀ entry ∈ captures, ∀ rules, entry.2.patterns = some rules → ∀ inner ∈ rules,
      FineIn Fine inner :=
  fun _ hmem _ hpatterns _ hrule _ hinner => h _ (.capture hcaptures hmem hpatterns hrule hinner)

namespace Adds

variable {tables middle next : Tables} {location : Location} {patterns others : List Pattern}
  {name contentName : Option ScopeName} {kind : RuleKind}

theorem nothing (htables : Holds tables) : Adds Holds Fine tables tables [] :=
  ⟨.refl tables, htables, by simp⟩

theorem trans (hkept : Kept Holds Fine) (h : Adds Holds Fine tables middle patterns)
    (h' : Adds Holds Fine middle next others) :
    Adds Holds Fine tables next (patterns ++ others) where
  grows := h.grows.trans h'.grows
  holds := h'.holds
  fine pattern hpattern := by
    rcases List.mem_append.mp hpattern with hmem | hmem
    · exact hkept.mono h'.grows.rules (h.fine pattern hmem)
    · exact h'.fine pattern hmem

theorem warn (hkept : Kept Holds Fine) (h : Adds Holds Fine tables next patterns)
    (kind : WarningKind) : Adds Holds Fine tables (next.warn location kind) patterns :=
  ⟨h.grows.trans (.warn ..), hkept.warn h.holds, h.fine⟩

theorem addRule (hkept : Kept Holds Fine) (h : Adds Holds Fine tables next patterns)
    (hcompiled : kind.Compiled) :
    Adds Holds Fine tables (next.addRule name contentName kind patterns) [] :=
  ⟨h.grows.trans (.addRule ..), hkept.addRule h.holds h.fine hcompiled, by simp⟩

theorem addMatch (hkept : Kept Holds Fine) (h : Adds Holds Fine tables next patterns)
    (hkind : kind ≠ .group) (hcompiled : kind.Compiled) :
    Adds Holds Fine tables (next.addRule name contentName kind patterns)
      [.rule next.nextRule] where
  grows := h.grows.trans (.addRule ..)
  holds := hkept.addRule h.holds h.fine hcompiled
  fine pattern hpattern := by
    rw [List.mem_singleton.mp hpattern]
    exact hkept.rule Array.getElem?_push_size hkind

end Adds

mutual

theorem compileRule_adds (hkept : Kept Holds Fine) {outer : RepositoryId} {location : Location}
    {tables next : Tables} {compiled : List Pattern}
    (rule : RuleDefinition) (hfine : FineIn Fine rule) (houter : outer < tables.nextRepository)
    (htables : Holds tables) (h : compileRule rule outer location tables = .ok (compiled, next)) :
    Adds Holds Fine tables next compiled := by
  obtain ⟨reference, name, contentName, matchSource, beginSource, endSource, whileSource, captures,
    beginCaptures, endCaptures, patterns, repository, closesLast⟩ := rule
  cases compiledRule_of_compileRule h with
  | reference hinner hreference =>
      obtain ⟨-, hadds⟩ := compileInner_adds hkept repository hfine.repository houter htables hinner
      refine ⟨hadds.grows, hadds.holds, fun pattern hpattern => ?_⟩
      rw [List.mem_singleton.mp hpattern]
      exact hfine _ (.itself _) _ hreference _ _
  | @plain _ _ _ _ tablesNested _ hinner _ hnested hkind =>
      obtain ⟨hbound, hadds⟩ :=
        compileInner_adds hkept repository hfine.repository houter htables hinner
      have hnested := compilePatterns_adds hkept patterns hfine.patterns hbound hadds.holds hnested
      have hbound := Nat.lt_of_lt_of_le hbound hnested.grows.nextRepository_le
      have hadds := hadds.trans hkept hnested
      cases hkind with
      | single _ hcaptures hexpression =>
          have hcaptures := compileCaptures_adds hkept captures
            (fun _ h => hfine.captures (.inl h)) hbound hadds.holds hcaptures
          refine Adds.addMatch hkept ?_ nofun ⟨_, hexpression⟩
          simpa using hadds.trans hkept hcaptures
      | skipped => exact Adds.warn hkept ⟨hadds.grows, hadds.holds, by simp⟩ _
      | @enclosed _ _ _ _ _ tablesOpening tablesClosing _ _ hopening hclosing hopeningSource
          hclosingSource =>
          have hopening : Adds Holds Fine tablesNested tablesOpening [] := by
            split at hopening
            · exact compileCaptures_adds hkept beginCaptures
                (fun _ h => hfine.captures (.inr (.inl h))) hbound hadds.holds hopening
            · exact compileCaptures_adds hkept captures (fun _ h => hfine.captures (.inl h)) hbound
                hadds.holds hopening
          have hbound := Nat.lt_of_lt_of_le hbound hopening.grows.nextRepository_le
          have hclosing : Adds Holds Fine tablesOpening tablesClosing [] := by
            split at hclosing
            · exact compileCaptures_adds hkept endCaptures
                (fun _ h => hfine.captures (.inr (.inr h))) hbound hopening.holds hclosing
            · exact compileCaptures_adds hkept captures (fun _ h => hfine.captures (.inl h)) hbound
                hopening.holds hclosing
          obtain ⟨endSource, -, hclosingSource⟩ := hclosingSource
          refine Adds.addMatch hkept ?_ nofun ⟨⟨_, hopeningSource⟩, endSource, hclosingSource⟩
          simpa using (hadds.trans hkept hopening).trans hkept hclosing
      | grouped _ _ hnext =>
          rcases hnext with rfl | rfl
          · exact hadds
          · exact hadds.warn hkept _
termination_by structural rule

theorem compileInner_adds (hkept : Kept Holds Fine) {outer inner : RepositoryId}
    {location : Location} {tables next : Tables}
    (repository : Option (List (String × RuleDefinition)))
    (hfine : ∀ entries, repository = some entries → ∀ entry ∈ entries, FineIn Fine entry.2)
    (houter : outer < tables.nextRepository) (htables : Holds tables)
    (h : compileInner repository outer location tables = .ok (inner, next)) :
    inner < next.nextRepository ∧ Adds Holds Fine tables next [] := by
  cases repository with
  | none =>
      cases h
      exact ⟨houter, .nothing htables⟩
  | some entries =>
      rw [compileInner] at h
      obtain ⟨⟨compiled, tablesEntries⟩, hentries, h⟩ := bind_eq_ok.mp h
      cases pure_eq_ok.mp h
      have hadded : Holds (tables.addRepository (some outer)) :=
        hkept.addRepository htables (by simpa using houter)
      have hbound : tables.nextRepository < (tables.addRepository (some outer)).nextRepository := by
        rw [nextRepository_addRepository]
        exact Nat.lt_succ_self _
      obtain ⟨hgrows, hholds, hcompiled⟩ :=
        compileEntries_adds hkept entries (hfine entries rfl) hbound hadded hentries
      refine ⟨?_, ?_, hkept.setEntries hholds fun entry hentry pattern hpattern => ?_, by simp⟩
      · rw [nextRepository_setEntries]
        exact Nat.lt_of_lt_of_le hbound hgrows.nextRepository_le
      · exact ((Grows.addRepository ..).trans hgrows).setEntries (Nat.le_refl _) compiled
      · exact hcompiled pattern (List.mem_flatMap.mpr ⟨entry, hentry, hpattern⟩)
termination_by structural repository

theorem compilePatterns_adds (hkept : Kept Holds Fine) {repository : RepositoryId}
    {location : Location} {tables next : Tables} {compiled : List Pattern}
    (patterns : Option (List RuleDefinition))
    (hfine : ∀ rules, patterns = some rules → ∀ inner ∈ rules, FineIn Fine inner)
    (hbound : repository < tables.nextRepository) (htables : Holds tables)
    (h : compilePatterns patterns repository location tables = .ok (compiled, next)) :
    Adds Holds Fine tables next compiled := by
  cases patterns with
  | none =>
      cases h
      exact .nothing htables
  | some rules => exact compileList_adds hkept rules (hfine rules rfl) hbound htables h
termination_by structural patterns

theorem compileCaptures_adds (hkept : Kept Holds Fine) {groups : Nat} {repository : RepositoryId}
    {location : Location} {tables next : Tables} {compiled : List Capture}
    (captures : Option (List (String × CaptureDefinition)))
    (hfine : ∀ table, captures = some table → ∀ entry ∈ table, ∀ rules,
      entry.2.patterns = some rules → ∀ inner ∈ rules, FineIn Fine inner)
    (hbound : repository < tables.nextRepository) (htables : Holds tables)
    (h : compileCaptures captures groups repository location tables = .ok (compiled, next)) :
    Adds Holds Fine tables next [] := by
  cases captures with
  | none =>
      cases h
      exact .nothing htables
  | some table =>
      rw [compileCaptures] at h
      obtain ⟨⟨unordered, tablesTable⟩, htable, h⟩ := bind_eq_ok.mp h
      cases pure_eq_ok.mp h
      exact compileTable_adds hkept table (hfine table rfl) hbound htables htable
termination_by structural captures

theorem compileList_adds (hkept : Kept Holds Fine) {index : Nat} {repository : RepositoryId}
    {location : Location} {tables next : Tables} {compiled : List Pattern}
    (rules : List RuleDefinition)
    (hfine : ∀ rule ∈ rules, FineIn Fine rule) (hbound : repository < tables.nextRepository)
    (htables : Holds tables)
    (h : compileList rules index repository location tables = .ok (compiled, next)) :
    Adds Holds Fine tables next compiled := by
  cases rules with
  | nil =>
      cases h
      exact .nothing htables
  | cons rule rules =>
      rw [compileList] at h
      obtain ⟨⟨first, tablesFirst⟩, hfirst, h⟩ := bind_eq_ok.mp h
      obtain ⟨⟨others, tablesOthers⟩, hothers, h⟩ := bind_eq_ok.mp h
      cases pure_eq_ok.mp h
      obtain ⟨hrule, hrules⟩ := List.forall_mem_cons.mp hfine
      have hfirst := compileRule_adds hkept rule hrule hbound htables hfirst
      have hbound := Nat.lt_of_lt_of_le hbound hfirst.grows.nextRepository_le
      exact hfirst.trans hkept (compileList_adds hkept rules hrules hbound hfirst.holds hothers)
termination_by structural rules

theorem compileEntries_adds (hkept : Kept Holds Fine) {repository : RepositoryId}
    {location : Location} {tables next : Tables} {compiled : List (String × List Pattern)}
    (entries : List (String × RuleDefinition))
    (hfine : ∀ entry ∈ entries, FineIn Fine entry.2) (hbound : repository < tables.nextRepository)
    (htables : Holds tables)
    (h : compileEntries entries repository location tables = .ok (compiled, next)) :
    Adds Holds Fine tables next (compiled.flatMap (·.2)) := by
  cases entries with
  | nil =>
      cases h
      exact .nothing htables
  | cons entry entries =>
      obtain ⟨name, rule⟩ := entry
      rw [compileEntries] at h
      obtain ⟨⟨patterns, tablesRule⟩, hrule, h⟩ := bind_eq_ok.mp h
      obtain ⟨⟨others, tablesOthers⟩, hothers, h⟩ := bind_eq_ok.mp h
      cases pure_eq_ok.mp h
      obtain ⟨hentry, hentries⟩ := List.forall_mem_cons.mp hfine
      have hrule := compileRule_adds hkept rule hentry hbound htables hrule
      have hbound := Nat.lt_of_lt_of_le hbound hrule.grows.nextRepository_le
      exact hrule.trans hkept
        (compileEntries_adds hkept entries hentries hbound hrule.holds hothers)
termination_by structural entries

theorem compileTable_adds (hkept : Kept Holds Fine) {groups : Nat} {repository : RepositoryId}
    {location : Location} {tables next : Tables} {compiled : List Capture}
    (captures : List (String × CaptureDefinition))
    (hfine : ∀ entry ∈ captures, ∀ rules, entry.2.patterns = some rules → ∀ inner ∈ rules,
      FineIn Fine inner)
    (hbound : repository < tables.nextRepository) (htables : Holds tables)
    (h : compileTable captures groups repository location tables = .ok (compiled, next)) :
    Adds Holds Fine tables next [] := by
  cases captures with
  | nil =>
      cases h
      exact .nothing htables
  | cons entry captures =>
      obtain ⟨key, name, patterns⟩ := entry
      obtain ⟨hentry, hcaptures⟩ := List.forall_mem_cons.mp hfine
      rw [compileTable] at h
      dsimp only at h
      split at h
      · simp at h
      · next group _ =>
        split at h
        · have hwarned : Adds Holds Fine tables
              (tables.warn (location.key key) (.captureOutOfRange group groups)) [] :=
            (Adds.nothing htables).warn hkept _
          exact hwarned.trans hkept
            (compileTable_adds hkept captures hcaptures hbound hwarned.holds h)
        · obtain ⟨⟨nested, tablesNested⟩, hnested, h⟩ := bind_eq_ok.mp h
          have hnested := compilePatterns_adds hkept patterns hentry hbound htables hnested
          have hbound := Nat.lt_of_lt_of_le hbound hnested.grows.nextRepository_le
          dsimp only at h
          split at h
          · obtain ⟨⟨others, tablesOthers⟩, hothers, h⟩ := bind_eq_ok.mp h
            cases pure_eq_ok.mp h
            have hgroup : Adds Holds Fine tables
                (tablesNested.addRule none none .group nested) [] := hnested.addRule hkept trivial
            exact hgroup.trans hkept
              (compileTable_adds hkept captures hcaptures hbound hgroup.holds hothers)
          · obtain ⟨⟨others, tablesOthers⟩, hothers, h⟩ := bind_eq_ok.mp h
            cases pure_eq_ok.mp h
            have hothers := compileTable_adds hkept captures hcaptures hbound hnested.holds hothers
            exact ⟨hnested.grows.trans hothers.grows, hothers.holds, by simp⟩
termination_by structural captures

end

/-! ## Growth -/

theorem anything_kept : Kept (fun _ => True) fun _ _ => True :=
  ⟨fun _ _ => trivial, fun _ _ => trivial, fun _ _ _ => trivial, fun _ _ => trivial,
    fun _ _ => trivial, fun _ => trivial⟩

theorem anything_fine (rule : RuleDefinition) : FineIn (fun _ _ => True) rule :=
  fun _ _ _ _ _ _ => trivial

variable {repository : RepositoryId} {location : Location} {tables next : Tables}

theorem grows_of_compileRule {rule : RuleDefinition} {compiled : List Pattern}
    (hbound : repository < tables.nextRepository)
    (h : compileRule rule repository location tables = .ok (compiled, next)) : Grows tables next :=
  (compileRule_adds anything_kept rule (anything_fine rule) hbound trivial h).grows

theorem grows_of_compileInner {entries : Option (List (String × RuleDefinition))}
    {inner : RepositoryId} (hbound : repository < tables.nextRepository)
    (h : compileInner entries repository location tables = .ok (inner, next)) :
    inner < next.nextRepository ∧ Grows tables next :=
  have ⟨hinner, hadds⟩ := compileInner_adds anything_kept entries
    (fun _ _ entry _ => anything_fine entry.2) hbound trivial h
  ⟨hinner, hadds.grows⟩

theorem grows_of_compilePatterns {patterns : Option (List RuleDefinition)}
    {compiled : List Pattern} (hbound : repository < tables.nextRepository)
    (h : compilePatterns patterns repository location tables = .ok (compiled, next)) :
    Grows tables next :=
  (compilePatterns_adds anything_kept patterns (fun _ _ rule _ => anything_fine rule) hbound
    trivial h).grows

theorem grows_of_compileCaptures {captures : Option (List (String × CaptureDefinition))}
    {groups : Nat} {compiled : List Capture} (hbound : repository < tables.nextRepository)
    (h : compileCaptures captures groups repository location tables = .ok (compiled, next)) :
    Grows tables next :=
  (compileCaptures_adds anything_kept captures (fun _ _ _ _ _ _ rule _ => anything_fine rule)
    hbound trivial h).grows

theorem grows_of_compileList {rules : List RuleDefinition} {index : Nat} {compiled : List Pattern}
    (hbound : repository < tables.nextRepository)
    (h : compileList rules index repository location tables = .ok (compiled, next)) :
    Grows tables next :=
  (compileList_adds anything_kept rules (fun rule _ => anything_fine rule) hbound trivial h).grows

theorem grows_of_compileEntries {entries : List (String × RuleDefinition)}
    {compiled : List (String × List Pattern)} (hbound : repository < tables.nextRepository)
    (h : compileEntries entries repository location tables = .ok (compiled, next)) :
    Grows tables next :=
  (compileEntries_adds anything_kept entries (fun entry _ => anything_fine entry.2) hbound trivial
    h).grows

theorem grows_of_compileTable {captures : List (String × CaptureDefinition)} {groups : Nat}
    {compiled : List Capture} (hbound : repository < tables.nextRepository)
    (h : compileTable captures groups repository location tables = .ok (compiled, next)) :
    Grows tables next :=
  (compileTable_adds anything_kept captures (fun _ _ _ _ rule _ => anything_fine rule) hbound
    trivial h).grows

theorem grows_of_compileKind {rule : RuleDefinition} {nested compiled : List Pattern}
    (hbound : repository < tables.nextRepository)
    (h : CompiledKind rule repository location nested tables compiled next) : Grows tables next := by
  cases h with
  | single _ hcaptures => exact (grows_of_compileCaptures hbound hcaptures).trans (.addRule ..)
  | skipped => exact .warn ..
  | @enclosed _ _ _ _ _ tablesOpening tablesClosing _ _ hopening hclosing =>
      have hopening : Grows tables tablesOpening := by
        split at hopening <;> exact grows_of_compileCaptures hbound hopening
      have hbound := Nat.lt_of_lt_of_le hbound hopening.nextRepository_le
      have hclosing : Grows tablesOpening tablesClosing := by
        split at hclosing <;> exact grows_of_compileCaptures hbound hclosing
      exact (hopening.trans hclosing).trans (.addRule ..)
  | grouped _ _ hnext =>
      rcases hnext with rfl | rfl
      · exact .refl _
      · exact .warn ..

end Compilation

namespace Grammar

open Compilation

variable {definition : GrammarDefinition} {grammar : Grammar}

theorem ofDefinition_eq_ok (h : ofDefinition definition = .ok grammar) :
    ∃ entries tablesEntries patterns tables,
      compileEntries definition.repository 0 (.ofField "repository")
        (Tables.addRepository {} none) = .ok (entries, tablesEntries) ∧
      compileList definition.patterns 0 0 (.ofField "patterns")
        (tablesEntries.setEntries 0 entries) = .ok (patterns, tables) ∧
      grammar = {
        scopeName := definition.scopeName
        name := definition.name
        rules := (tables.addRule none none .group patterns).rules
        repositories := tables.repositories
        root := tables.nextRule
        warnings := tables.warnings } := by
  unfold ofDefinition at h
  obtain ⟨⟨entries, tablesEntries⟩, hentries, h⟩ := bind_eq_ok.mp h
  obtain ⟨⟨patterns, tables⟩, hpatterns, h⟩ := bind_eq_ok.mp h
  cases pure_eq_ok.mp h
  exact ⟨entries, tablesEntries, patterns, tables, hentries, hpatterns, rfl⟩

theorem ofDefinition_kept {Holds : Tables → Prop} {Fine : Array Rule → Pattern → Prop}
    (hkept : Kept Holds Fine) (hempty : Holds {})
    (hfine : ∀ rule, definition.Contains rule → ∀ text, rule.reference = some text →
      ∀ rules repository, Fine rules (.reference (.ofText text repository)))
    (h : ofDefinition definition = .ok grammar) :
    Holds ⟨grammar.rules, grammar.repositories, grammar.warnings⟩ := by
  obtain ⟨entries, tablesEntries, patterns, tables, hentries, hpatterns, rfl⟩ :=
    ofDefinition_eq_ok h
  have htop : 0 < (Tables.addRepository {} none).nextRepository := Nat.zero_lt_one
  have hentries := compileEntries_adds hkept definition.repository
    (fun entry hentry rule hrule => hfine rule (.entry hentry hrule)) htop
    (hkept.addRepository hempty (by simp)) hentries
  have hset : Holds (tablesEntries.setEntries 0 entries) :=
    hkept.setEntries hentries.holds fun entry hentry pattern hpattern =>
      hentries.fine pattern (List.mem_flatMap.mpr ⟨entry, hentry, hpattern⟩)
  have htop : 0 < (tablesEntries.setEntries 0 entries).nextRepository := by
    rw [nextRepository_setEntries]
    exact Nat.lt_of_lt_of_le htop hentries.grows.nextRepository_le
  have hpatterns := compileList_adds hkept definition.patterns
    (fun outer houter rule hrule => hfine rule (.pattern houter hrule)) htop hset hpatterns
  exact hkept.addRule hpatterns.holds hpatterns.fine trivial

/-! ## Patterns of a grammar -/

structure AllFine (Fine : Array Rule → Pattern → Prop) (tables : Tables) : Prop where
  rules : ∀ rule ∈ tables.rules, ∀ pattern ∈ rule.patterns, Fine tables.rules pattern
  entries : ∀ repository ∈ tables.repositories, ∀ entry ∈ repository.entries,
    ∀ pattern ∈ entry.2, Fine tables.rules pattern

theorem allFine_kept {Fine : Array Rule → Pattern → Prop}
    (hmono : ∀ {rules more pattern},
      (∀ (id : RuleId) (rule : Rule), rules[id]? = some rule → more[id]? = some rule) →
        Fine rules pattern → Fine more pattern)
    (hrule : ∀ {rules : Array Rule} {id : RuleId} {rule : Rule}, rules[id]? = some rule →
      rule.kind ≠ .group → Fine rules (.rule id)) :
    Kept (AllFine Fine) Fine where
  mono := hmono
  rule := hrule
  addRule {tables name contentName kind patterns} htables hpatterns _ := by
    have hpush {pattern : Pattern} (h : Fine tables.rules pattern) :
        Fine (tables.addRule name contentName kind patterns).rules pattern :=
      hmono (Grows.addRule ..).rules h
    constructor
    · intro rule hmem pattern hpattern
      apply hpush
      rcases Array.mem_push.mp hmem with hmem | rfl
      · exact htables.rules rule hmem pattern hpattern
      · exact hpatterns pattern hpattern
    · intro repository hmem entry hentry pattern hpattern
      exact hpush (htables.entries repository hmem entry hentry pattern hpattern)
  addRepository htables _ := by
    refine ⟨htables.rules, fun repository hmem => ?_⟩
    rcases Array.mem_push.mp hmem with hmem | rfl
    · exact htables.entries repository hmem
    · simp
  setEntries {tables id entries} htables hentries := by
    refine ⟨htables.rules, fun repository hmem => ?_⟩
    obtain ⟨place, hplace⟩ := Array.mem_iff_getElem?.mp hmem
    simp only [Tables.setEntries, Array.getElem?_modify] at hplace
    split at hplace
    · obtain ⟨before, -, rfl⟩ := Option.map_eq_some_iff.mp hplace
      exact hentries
    · exact htables.entries repository (Array.mem_of_getElem? hplace)
  warn htables := ⟨htables.rules, htables.entries⟩

/-! ## Numbers of rules -/

def Numbered (rules : Array Rule) : Prop :=
  ∀ (id : RuleId) (rule : Rule), rules[id]? = some rule → rule.id = id

theorem numbered_kept : Kept (fun tables => Numbered tables.rules) fun _ _ => True where
  mono _ _ := trivial
  rule _ _ := trivial
  addRule htables _ _ := by
    intro id rule hrule
    simp only [Tables.addRule, Array.getElem?_push] at hrule
    split at hrule
    · next hid =>
      cases hrule
      exact hid.symm
    · exact htables id rule hrule
  addRepository htables _ := htables
  setEntries htables _ := htables
  warn htables := htables

theorem numbered_of_ofDefinition (h : ofDefinition definition = .ok grammar) :
    Numbered grammar.rules :=
  ofDefinition_kept numbered_kept (fun _ _ hrule => by simp at hrule)
    (fun _ _ _ _ _ _ => trivial) h

/-! ## Expressions of rules -/

def Expressive (rules : Array Rule) : Prop :=
  ∀ rule ∈ rules, rule.kind.Compiled

theorem expressive_kept : Kept (fun tables => Expressive tables.rules) fun _ _ => True where
  mono _ _ := trivial
  rule _ _ := trivial
  addRule htables _ hkind := by
    intro rule hrule
    rcases Array.mem_push.mp hrule with hrule | rfl
    · exact htables rule hrule
    · exact hkind
  addRepository htables _ := htables
  setEntries htables _ := htables
  warn htables := htables

theorem expressive_of_ofDefinition (h : ofDefinition definition = .ok grammar) :
    Expressive grammar.rules :=
  ofDefinition_kept expressive_kept (fun _ hrule => by simp at hrule)
    (fun _ _ _ _ _ _ => trivial) h

theorem root_of_ofDefinition (h : ofDefinition definition = .ok grammar) :
    ∃ rule, grammar.rules[grammar.root]? = some rule ∧ rule.kind = .group := by
  obtain ⟨_, _, _, _, -, -, rfl⟩ := ofDefinition_eq_ok h
  exact ⟨_, Array.getElem?_push_size, rfl⟩

end Grammar

end ScopeLexer
