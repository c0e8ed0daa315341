import ScopeLexer.Proofs.Grammar.Blocks

/-!
# What references mean where they are written

`ElaboratesRule` says what a rule within blocks stands for in a grammar: it goes along the rule as it
is written, and knows nothing of numbers and tables.  `elaborates_of_ofDefinition` says that a
definition is compiled to that.  The compiler passes numbers of repositories on, and fills tables that
are looked up later; what it adds to them stays as it is, and repositories get their entries before
anything is looked up in them.
-/

namespace ScopeLexer.Grammar

open Compilation Outcome

variable {grammar : Grammar} {blocks : List Block}

/-! ## Rules within blocks -/

mutual

/-- A rule within blocks stands for patterns of the grammar: for a reference that is resolved within
the blocks, its own one included, or for what it is by itself. -/
inductive ElaboratesRule (grammar : Grammar) :
    List Block → RuleDefinition → List Pattern → Prop where
  | reference {outer inner : List Block} {rule : RuleDefinition} {text : String}
      {reference : Reference} (hinner : ElaboratesInner grammar outer rule.repository inner)
      (hreference : rule.reference = some text) (hscoped : grammar.Scoped inner text reference) :
      ElaboratesRule grammar outer rule [.reference reference]
  | plain {outer inner : List Block} {rule : RuleDefinition} {nested compiled : List Pattern}
      (hinner : ElaboratesInner grammar outer rule.repository inner)
      (hreference : rule.reference = none)
      (hnested : ElaboratesPatterns grammar inner rule.patterns nested)
      (hkind : ElaboratesKind grammar inner rule nested compiled) :
      ElaboratesRule grammar outer rule compiled

inductive ElaboratesKind (grammar : Grammar) :
    List Block → RuleDefinition → List Pattern → List Pattern → Prop where
  | single {blocks : List Block} {rule : RuleDefinition} {nested : List Pattern} {source : String}
      {id : RuleId} {name contentName : Option ScopeName} {expression : Regex.Expression}
      {captures : List Capture} (hmatch : rule.matchSource = some source)
      (hrule : grammar.rules[id]? =
        some ⟨id, name, contentName, .single expression captures, nested⟩)
      (hcaptures : ElaboratesCaptures grammar blocks rule.captures expression.groupCount captures) :
      ElaboratesKind grammar blocks rule nested [.rule id]
  | skipped {blocks : List Block} {rule : RuleDefinition} {nested : List Pattern}
      {source whileSource : String} (hbegin : rule.beginSource = some source)
      (hwhile : rule.whileSource = some whileSource) :
      ElaboratesKind grammar blocks rule nested []
  | enclosed {blocks : List Block} {rule : RuleDefinition} {nested : List Pattern} {source : String}
      {id : RuleId} {name contentName : Option ScopeName} {enclosure : Enclosure}
      (hbegin : rule.beginSource = some source) (hwhile : rule.whileSource = none)
      (hrule : grammar.rules[id]? = some ⟨id, name, contentName, .enclosed enclosure, nested⟩)
      (hopening : ElaboratesCaptures grammar blocks (rule.beginCaptures.or rule.captures)
        enclosure.opening.groupCount enclosure.openingCaptures)
      (hclosing : ElaboratesCaptures grammar blocks (rule.endCaptures.or rule.captures)
        enclosure.closing.groupCount enclosure.closingCaptures) :
      ElaboratesKind grammar blocks rule nested [.rule id]
  | grouped {blocks : List Block} {rule : RuleDefinition} {nested : List Pattern}
      (hmatch : rule.matchSource = none) (hbegin : rule.beginSource = none) :
      ElaboratesKind grammar blocks rule nested nested

inductive ElaboratesInner (grammar : Grammar) :
    List Block → Option (List (String × RuleDefinition)) → List Block → Prop where
  | none {outer : List Block} : ElaboratesInner grammar outer none outer
  | some {outer : List Block} {entries : List (String × RuleDefinition)} {block : Block}
      (hentries : ElaboratesEntries grammar (block :: outer) entries block) :
      ElaboratesInner grammar outer (some entries) (block :: outer)

inductive ElaboratesPatterns (grammar : Grammar) :
    List Block → Option (List RuleDefinition) → List Pattern → Prop where
  | none {blocks : List Block} : ElaboratesPatterns grammar blocks none []
  | some {blocks : List Block} {rules : List RuleDefinition} {compiled : List Pattern}
      (hrules : ElaboratesList grammar blocks rules compiled) :
      ElaboratesPatterns grammar blocks (some rules) compiled

inductive ElaboratesCaptures (grammar : Grammar) : List Block →
    Option (List (String × CaptureDefinition)) → (groups : Nat) → List Capture → Prop where
  | none {blocks : List Block} {groups : Nat} : ElaboratesCaptures grammar blocks none groups []
  | some {blocks : List Block} {table : List (String × CaptureDefinition)} {groups : Nat}
      {captures : List Capture} (htable : ElaboratesTable grammar blocks table groups captures) :
      ElaboratesCaptures grammar blocks (some table) groups (orderCaptures captures)

inductive ElaboratesList (grammar : Grammar) :
    List Block → List RuleDefinition → List Pattern → Prop where
  | nil {blocks : List Block} : ElaboratesList grammar blocks [] []
  | cons {blocks : List Block} {rule : RuleDefinition} {rules : List RuleDefinition}
      {first others : List Pattern} (hrule : ElaboratesRule grammar blocks rule first)
      (hrules : ElaboratesList grammar blocks rules others) :
      ElaboratesList grammar blocks (rule :: rules) (first ++ others)

inductive ElaboratesEntries (grammar : Grammar) :
    List Block → List (String × RuleDefinition) → Block → Prop where
  | nil {blocks : List Block} : ElaboratesEntries grammar blocks [] []
  | cons {blocks : List Block} {name : String} {rule : RuleDefinition}
      {entries : List (String × RuleDefinition)} {patterns : List Pattern} {others : Block}
      (hrule : ElaboratesRule grammar blocks rule patterns)
      (hentries : ElaboratesEntries grammar blocks entries others) :
      ElaboratesEntries grammar blocks ((name, rule) :: entries) ((name, patterns) :: others)

/-- The captures of a table.  One whose group does not exist is left out with its patterns; the
patterns of the others are held by rules of their own. -/
inductive ElaboratesTable (grammar : Grammar) : List Block →
    List (String × CaptureDefinition) → (groups : Nat) → List Capture → Prop where
  | nil {blocks : List Block} {groups : Nat} : ElaboratesTable grammar blocks [] groups []
  | outside {blocks : List Block} {key : String} {capture : CaptureDefinition}
      {table : List (String × CaptureDefinition)} {groups group : Nat} {captures : List Capture}
      (hgroup : Decimal.indexOfText? key.toList = some group) (hout : groups < group)
      (htable : ElaboratesTable grammar blocks table groups captures) :
      ElaboratesTable grammar blocks ((key, capture) :: table) groups captures
  | bare {blocks : List Block} {key : String} {name : Option String}
      {table : List (String × CaptureDefinition)} {groups group : Nat} {captures : List Capture}
      (hgroup : Decimal.indexOfText? key.toList = some group) (hin : group ≤ groups)
      (htable : ElaboratesTable grammar blocks table groups captures) :
      ElaboratesTable grammar blocks ((key, ⟨name, none⟩) :: table) groups
        (⟨group, name.map .mk, none⟩ :: captures)
  | nested {blocks : List Block} {key : String} {name : Option String}
      {rules : List RuleDefinition} {table : List (String × CaptureDefinition)}
      {groups group : Nat} {id : RuleId} {nested : List Pattern} {captures : List Capture}
      (hgroup : Decimal.indexOfText? key.toList = some group) (hin : group ≤ groups)
      (hnested : ElaboratesPatterns grammar blocks (some rules) nested)
      (hrule : grammar.rules[id]? = some ⟨id, none, none, .group, nested⟩)
      (htable : ElaboratesTable grammar blocks table groups captures) :
      ElaboratesTable grammar blocks ((key, ⟨name, some rules⟩) :: table) groups
        (⟨group, name.map .mk, some id⟩ :: captures)

end

/-! ## Parts of a grammar -/

/-- What was added to tables is in a grammar: the rules, and the repositories behind those that the
tables had. -/
structure Within (grammar : Grammar) (tables next : Tables) : Prop where
  rules : ∀ (id : RuleId) (rule : Rule), next.rules[id]? = some rule →
    grammar.rules[id]? = some rule
  repositories : ∀ (id : RepositoryId) (repository : Repository), tables.nextRepository ≤ id →
    next.repositories[id]? = some repository → grammar.repositories[id]? = some repository

structure Placed (grammar : Grammar) (repository : RepositoryId) (blocks : List Block)
    (tables next : Tables) : Prop where
  scope : '#' ∉ grammar.scopeName.toList
  bound : repository < tables.nextRepository
  chain : grammar.Chain repository blocks
  within : grammar.Within tables next

namespace Placed

variable {repository inner : RepositoryId} {innerBlocks : List Block} {tables middle next : Tables}

theorem first (h : grammar.Placed repository blocks tables next) (hgrows : Grows middle next) :
    grammar.Placed repository blocks tables middle where
  scope := h.scope
  bound := h.bound
  chain := h.chain
  within := {
    rules := fun id rule hrule => h.within.rules id rule (hgrows.rules id rule hrule)
    repositories := fun id repository hid hrepository =>
      h.within.repositories id repository hid (hgrows.repositories id repository hrepository) }

theorem second (h : grammar.Placed repository blocks tables next) (hgrows : Grows tables middle) :
    grammar.Placed repository blocks middle next where
  scope := h.scope
  bound := Nat.lt_of_lt_of_le h.bound hgrows.nextRepository_le
  chain := h.chain
  within := {
    rules := h.within.rules
    repositories := fun id repository hid =>
      h.within.repositories id repository (Nat.le_trans hgrows.nextRepository_le hid) }

theorem enter (h : grammar.Placed repository blocks tables next)
    (hchain : grammar.Chain inner innerBlocks) (hbound : inner < middle.nextRepository)
    (hgrows : Grows tables middle) : grammar.Placed inner innerBlocks middle next :=
  ⟨h.scope, hbound, hchain, (h.second hgrows).within⟩

end Placed

/-! ## Compilation -/

mutual

theorem compileRule_elaborates {outer : RepositoryId} {blocks : List Block} {location : Location}
    {tables next : Tables} {compiled : List Pattern} (rule : RuleDefinition)
    (hplaced : grammar.Placed outer blocks tables next)
    (h : compileRule rule outer location tables = .ok (compiled, next)) :
    grammar.ElaboratesRule blocks rule compiled := by
  obtain ⟨reference, name, contentName, matchSource, beginSource, endSource, whileSource, captures,
    beginCaptures, endCaptures, patterns, repository, closesLast⟩ := rule
  cases compiledRule_of_compileRule h with
  | reference hinner hreference =>
      obtain ⟨inner, hblocks, hchain⟩ := compileInner_elaborates repository hplaced hinner
      exact .reference hblocks hreference (scoped_ofText hplaced.scope hchain _)
  | @plain _ _ _ tablesInner tablesNested _ hinner hreference hnested hkind =>
      obtain ⟨hbound, hinnerGrows⟩ := grows_of_compileInner hplaced.bound hinner
      have hnestedGrows := grows_of_compilePatterns hbound hnested
      have hkindGrows := grows_of_compileKind
        (Nat.lt_of_lt_of_le hbound hnestedGrows.nextRepository_le) hkind
      obtain ⟨inner, hblocks, hchain⟩ := compileInner_elaborates repository
        (hplaced.first (hnestedGrows.trans hkindGrows)) hinner
      have hplaced := hplaced.enter hchain hbound hinnerGrows
      refine .plain hblocks hreference
        (compilePatterns_elaborates patterns (hplaced.first hkindGrows) hnested) ?_
      have hplaced := hplaced.second hnestedGrows
      cases hkind with
      | single hmatch hcaptures =>
          exact .single hmatch (hplaced.within.rules _ _ Array.getElem?_push_size)
            (compileCaptures_elaborates captures (hplaced.first (.addRule ..)) hcaptures)
      | skipped hbegin hwhile => exact .skipped hbegin hwhile
      | @enclosed _ _ _ _ _ tablesOpening tablesClosing hbegin hwhile hopening hclosing =>
          have hrule := hplaced.within.rules _ _ Array.getElem?_push_size
          have hplaced := hplaced.first (.addRule ..)
          have hopeningGrows : Grows tablesNested tablesOpening := by
            split at hopening <;> exact grows_of_compileCaptures hplaced.bound hopening
          have hplacedClosing := hplaced.second hopeningGrows
          have hclosingGrows : Grows tablesOpening tablesClosing := by
            split at hclosing <;> exact grows_of_compileCaptures hplacedClosing.bound hclosing
          have hplacedOpening := hplaced.first hclosingGrows
          refine .enclosed hbegin hwhile hrule ?_ ?_
          · split at hopening
            · next hsome =>
              rw [Option.or_of_isSome hsome]
              exact compileCaptures_elaborates beginCaptures hplacedOpening hopening
            · next hnone =>
              rw [Option.or_of_isNone (by simpa using hnone)]
              exact compileCaptures_elaborates captures hplacedOpening hopening
          · split at hclosing
            · next hsome =>
              rw [Option.or_of_isSome hsome]
              exact compileCaptures_elaborates endCaptures hplacedClosing hclosing
            · next hnone =>
              rw [Option.or_of_isNone (by simpa using hnone)]
              exact compileCaptures_elaborates captures hplacedClosing hclosing
      | grouped hmatch hbegin => exact .grouped hmatch hbegin
termination_by structural rule

theorem compileInner_elaborates {outer inner : RepositoryId} {blocks : List Block}
    {location : Location} {tables next : Tables}
    (repository : Option (List (String × RuleDefinition)))
    (hplaced : grammar.Placed outer blocks tables next)
    (h : compileInner repository outer location tables = .ok (inner, next)) :
    ∃ innerBlocks, grammar.ElaboratesInner blocks repository innerBlocks ∧
      grammar.Chain inner innerBlocks := by
  cases repository with
  | none =>
      cases h
      exact ⟨blocks, .none, hplaced.chain⟩
  | some entries =>
      rw [compileInner] at h
      obtain ⟨⟨block, tablesEntries⟩, hentries, h⟩ := bind_eq_ok.mp h
      cases pure_eq_ok.mp h
      have hbound : tables.nextRepository < (tables.addRepository (some outer)).nextRepository := by
        rw [nextRepository_addRepository]
        exact Nat.lt_succ_self _
      -- the repository has no entries while they are compiled
      have hempty := (grows_of_compileEntries hbound hentries).repositories tables.nextRepository
        ⟨some outer, []⟩ Array.getElem?_push_size
      have hown : grammar.repositories[tables.nextRepository]? = some ⟨some outer, block⟩ := by
        refine hplaced.within.repositories _ _ (Nat.le_refl _) ?_
        simp [Tables.setEntries, Array.getElem?_modify, hempty]
      have hchain : grammar.Chain tables.nextRepository (block :: blocks) :=
        .inner hown hplaced.bound hplaced.chain
      have hwithin : grammar.Within (tables.addRepository (some outer)) tablesEntries := by
        refine ⟨hplaced.within.rules, fun id repository hid hrepository => ?_⟩
        rw [nextRepository_addRepository] at hid
        have hne : tables.nextRepository ≠ id := Nat.ne_of_lt hid
        refine hplaced.within.repositories id repository (Nat.le_of_succ_le hid) ?_
        simpa [Tables.setEntries, Array.getElem?_modify, hne] using hrepository
      exact ⟨block :: blocks, .some (compileEntries_elaborates entries
        ⟨hplaced.scope, hbound, hchain, hwithin⟩ hentries), hchain⟩
termination_by structural repository

theorem compilePatterns_elaborates {repository : RepositoryId} {blocks : List Block}
    {location : Location} {tables next : Tables} {compiled : List Pattern}
    (patterns : Option (List RuleDefinition))
    (hplaced : grammar.Placed repository blocks tables next)
    (h : compilePatterns patterns repository location tables = .ok (compiled, next)) :
    grammar.ElaboratesPatterns blocks patterns compiled := by
  cases patterns with
  | none =>
      cases h
      exact .none
  | some rules => exact .some (compileList_elaborates rules hplaced h)
termination_by structural patterns

theorem compileCaptures_elaborates {groups : Nat} {repository : RepositoryId} {blocks : List Block}
    {location : Location} {tables next : Tables} {compiled : List Capture}
    (captures : Option (List (String × CaptureDefinition)))
    (hplaced : grammar.Placed repository blocks tables next)
    (h : compileCaptures captures groups repository location tables = .ok (compiled, next)) :
    grammar.ElaboratesCaptures blocks captures groups compiled := by
  cases captures with
  | none =>
      cases h
      exact .none
  | some table =>
      rw [compileCaptures] at h
      obtain ⟨⟨unordered, tablesTable⟩, htable, h⟩ := bind_eq_ok.mp h
      cases pure_eq_ok.mp h
      exact .some (compileTable_elaborates table hplaced htable)
termination_by structural captures

theorem compileList_elaborates {index : Nat} {repository : RepositoryId} {blocks : List Block}
    {location : Location} {tables next : Tables} {compiled : List Pattern}
    (rules : List RuleDefinition) (hplaced : grammar.Placed repository blocks tables next)
    (h : compileList rules index repository location tables = .ok (compiled, next)) :
    grammar.ElaboratesList blocks rules compiled := by
  cases rules with
  | nil =>
      cases h
      exact .nil
  | cons rule rules =>
      rw [compileList] at h
      obtain ⟨⟨first, tablesFirst⟩, hfirst, h⟩ := bind_eq_ok.mp h
      obtain ⟨⟨others, tablesOthers⟩, hothers, h⟩ := bind_eq_ok.mp h
      cases pure_eq_ok.mp h
      have hplacedOthers := hplaced.second (grows_of_compileRule hplaced.bound hfirst)
      have hplacedFirst := hplaced.first (grows_of_compileList hplacedOthers.bound hothers)
      exact .cons (compileRule_elaborates rule hplacedFirst hfirst)
        (compileList_elaborates rules hplacedOthers hothers)
termination_by structural rules

theorem compileEntries_elaborates {repository : RepositoryId} {blocks : List Block}
    {location : Location} {tables next : Tables} {compiled : Block}
    (entries : List (String × RuleDefinition))
    (hplaced : grammar.Placed repository blocks tables next)
    (h : compileEntries entries repository location tables = .ok (compiled, next)) :
    grammar.ElaboratesEntries blocks entries compiled := by
  cases entries with
  | nil =>
      cases h
      exact .nil
  | cons entry entries =>
      obtain ⟨name, rule⟩ := entry
      rw [compileEntries] at h
      obtain ⟨⟨patterns, tablesRule⟩, hrule, h⟩ := bind_eq_ok.mp h
      obtain ⟨⟨others, tablesOthers⟩, hothers, h⟩ := bind_eq_ok.mp h
      cases pure_eq_ok.mp h
      have hplacedOthers := hplaced.second (grows_of_compileRule hplaced.bound hrule)
      have hplacedRule := hplaced.first (grows_of_compileEntries hplacedOthers.bound hothers)
      exact .cons (compileRule_elaborates rule hplacedRule hrule)
        (compileEntries_elaborates entries hplacedOthers hothers)
termination_by structural entries

theorem compileTable_elaborates {groups : Nat} {repository : RepositoryId} {blocks : List Block}
    {location : Location} {tables next : Tables} {compiled : List Capture}
    (captures : List (String × CaptureDefinition))
    (hplaced : grammar.Placed repository blocks tables next)
    (h : compileTable captures groups repository location tables = .ok (compiled, next)) :
    grammar.ElaboratesTable blocks captures groups compiled := by
  cases captures with
  | nil =>
      cases h
      exact .nil
  | cons entry captures =>
      obtain ⟨key, name, patterns⟩ := entry
      rw [compileTable] at h
      dsimp only at h
      split at h
      · simp at h
      · next group hgroup =>
        split at h
        · next hout =>
          have hplaced := hplaced.second
            (.warn tables (location.key key) (.captureOutOfRange group groups))
          exact .outside hgroup hout (compileTable_elaborates captures hplaced h)
        · next hin =>
          have hin := Nat.le_of_not_lt hin
          obtain ⟨⟨nested, tablesNested⟩, hnested, h⟩ := bind_eq_ok.mp h
          have hplacedBehind := hplaced.second (grows_of_compilePatterns hplaced.bound hnested)
          dsimp only at h
          split at h
          · next hsome =>
            obtain ⟨⟨others, tablesOthers⟩, hothers, h⟩ := bind_eq_ok.mp h
            cases pure_eq_ok.mp h
            have hgroupGrows := Grows.addRule tablesNested none none .group nested
            have hplacedOthers := hplacedBehind.second hgroupGrows
            have hothersGrows := grows_of_compileTable hplacedOthers.bound hothers
            have hpatterns := compilePatterns_elaborates patterns
              (hplaced.first (hgroupGrows.trans hothersGrows)) hnested
            have hrule := hplaced.within.rules _ _
              (hothersGrows.rules _ _ Array.getElem?_push_size)
            have htable := compileTable_elaborates captures hplacedOthers hothers
            obtain ⟨rules, rfl⟩ := Option.isSome_iff_exists.mp hsome
            exact .nested hgroup hin hpatterns hrule htable
          · next hnone =>
            obtain ⟨⟨others, tablesOthers⟩, hothers, h⟩ := bind_eq_ok.mp h
            cases pure_eq_ok.mp h
            have htable := compileTable_elaborates captures hplacedBehind hothers
            obtain rfl : patterns = none := by simpa using hnone
            exact .bare hgroup hin htable
termination_by structural captures

end

/-! ## Grammars -/

def ParentsFirst (repositories : Array Repository) : Prop :=
  ∀ (id : RepositoryId) (repository : Repository), repositories[id]? = some repository →
    ∀ parent ∈ repository.parent, parent < id

theorem parentsFirst_kept :
    Kept (fun tables => ParentsFirst tables.repositories) fun _ _ => True where
  mono _ _ := trivial
  rule _ _ := trivial
  addRule htables _ _ := htables
  addRepository htables hparent := by
    intro id repository hrepository parent hmem
    simp only [Tables.addRepository, Array.getElem?_push] at hrepository
    split at hrepository
    · next hid =>
      cases hrepository
      exact hid ▸ hparent parent hmem
    · exact htables id repository hrepository parent hmem
  setEntries htables _ := by
    intro id repository hrepository parent hmem
    simp only [Tables.setEntries, Array.getElem?_modify] at hrepository
    split at hrepository
    · obtain ⟨before, hbefore, rfl⟩ := Option.map_eq_some_iff.mp hrepository
      exact htables id before hbefore parent hmem
    · exact htables id repository hrepository parent hmem
  warn htables := htables

theorem placed_of_ofDefinition {definition : GrammarDefinition}
    (h : ofDefinition definition = .ok grammar) (hscope : '#' ∉ definition.scopeName.toList) :
    ∃ tablesEntries tables,
      compileEntries definition.repository 0 (.ofField "repository")
        (Tables.addRepository {} none) = .ok (grammar.topEntries, tablesEntries) ∧
      grammar.Placed 0 [grammar.topEntries] (Tables.addRepository {} none) tablesEntries ∧
      compileList definition.patterns 0 0 (.ofField "patterns")
        (tablesEntries.setEntries 0 grammar.topEntries) =
          .ok (grammar.patternsOf grammar.root, tables) ∧
      grammar.Placed 0 [grammar.topEntries] (tablesEntries.setEntries 0 grammar.topEntries)
        tables := by
  obtain ⟨entries, tablesEntries, patterns, tables, hentries, hpatterns, hgrammar⟩ :=
    ofDefinition_eq_ok h
  have hbound : 0 < (Tables.addRepository {} none).nextRepository := Nat.zero_lt_one
  have hentriesGrows := grows_of_compileEntries hbound hentries
  have hboundTop : 0 < (tablesEntries.setEntries 0 entries).nextRepository := by
    rw [nextRepository_setEntries]
    exact Nat.lt_of_lt_of_le hbound hentriesGrows.nextRepository_le
  have hpatternsGrows := grows_of_compileList hboundTop hpatterns
  have hrepositories : grammar.repositories = tables.repositories := by rw [hgrammar]
  -- the top level has no entries while they are compiled
  have htop : grammar.repositories[0]? = some ⟨none, entries⟩ := by
    have hempty := hentriesGrows.repositories 0 ⟨none, []⟩ rfl
    rw [hrepositories]
    refine hpatternsGrows.repositories 0 _ ?_
    simp [Tables.setEntries, Array.getElem?_modify, hempty]
  have hrule : grammar.rules[grammar.root]? =
      some ⟨tables.nextRule, none, none, .group, patterns⟩ := by
    rw [hgrammar]
    exact Array.getElem?_push_size
  have hscope : '#' ∉ grammar.scopeName.toList := by rwa [hgrammar]
  have hwithinPatterns : grammar.Within (tablesEntries.setEntries 0 entries) tables := by
    constructor
    · intro id rule hrule
      rw [hgrammar]
      exact (Grows.addRule tables none none .group patterns).rules id rule hrule
    · intro id repository _ hrepository
      rwa [hrepositories]
  have hwithinEntries : grammar.Within (Tables.addRepository {} none) tablesEntries := by
    constructor
    · intro id rule hrule
      exact hwithinPatterns.rules id rule (hpatternsGrows.rules id rule hrule)
    · intro id repository hid hrepository
      have hne : 0 ≠ id := Nat.ne_of_lt hid
      rw [hrepositories]
      refine hpatternsGrows.repositories id repository ?_
      simpa [Tables.setEntries, Array.getElem?_modify, hne] using hrepository
  have hentriesTop : grammar.topEntries = entries := by simp [topEntries, htop]
  have hroot : grammar.patternsOf grammar.root = patterns := by simp [patternsOf, hrule]
  rw [hentriesTop, hroot]
  exact ⟨tablesEntries, tables, hentries, ⟨hscope, hbound, .top htop, hwithinEntries⟩, hpatterns,
    ⟨hscope, hboundTop, .top htop, hwithinPatterns⟩⟩

/-- A definition is compiled to what it stands for within the block of its top level: every reference
in it, however deep, to what its text means within the blocks around it.  Looking a name up goes to
repositories with smaller numbers, so it comes to an end. -/
theorem elaborates_of_ofDefinition {definition : GrammarDefinition}
    (h : ofDefinition definition = .ok grammar) (hscope : '#' ∉ definition.scopeName.toList) :
    grammar.ElaboratesEntries [grammar.topEntries] definition.repository grammar.topEntries ∧
    grammar.ElaboratesList [grammar.topEntries] definition.patterns
      (grammar.patternsOf grammar.root) ∧
    ParentsFirst grammar.repositories := by
  obtain ⟨tablesEntries, tables, hentries, hplacedEntries, hpatterns, hplacedPatterns⟩ :=
    placed_of_ofDefinition h hscope
  refine ⟨compileEntries_elaborates definition.repository hplacedEntries hentries,
    compileList_elaborates definition.patterns hplacedPatterns hpatterns, ?_⟩
  exact ofDefinition_kept parentsFirst_kept (fun _ _ hrepository => by simp at hrepository)
    (fun _ _ _ _ _ _ => trivial) h

def shadowing : GrammarDefinition where
  scopeName := "source"
  patterns := [
    { reference := some "#a" },
    { matchSource := some "(x)"
      captures := some [("1", { patterns := some [
        { reference := some "#a" }, { reference := some "source#a" }, { reference := some "#b" },
        { reference := some "other" }] })]
      repository := some [("a", { matchSource := some "y" })] }]
  repository := [
    ("a", { matchSource := some "z" }),
    ("b", { reference := some "#a", repository := some [("c", {})] })]

def shadowingGrammar : Grammar := (ofDefinition shadowing).toOption.getD default

theorem shadowing_elaborates :
    shadowingGrammar.ElaboratesEntries [shadowingGrammar.topEntries] shadowing.repository
      shadowingGrammar.topEntries ∧
    shadowingGrammar.ElaboratesList [shadowingGrammar.topEntries] shadowing.patterns
      [.reference (.entry 0 "a"), .rule 3] ∧
    ParentsFirst shadowingGrammar.repositories ∧
    shadowingGrammar.patternsOf 2 = [.reference (.entry 2 "a"),
      .reference (.external "source" "a"), .reference (.entry 2 "b"),
      .reference (.external "other" none)] ∧
    (shadowingGrammar.resolve (.entry 2 "a")).toOption = some [.rule 1] ∧
    (shadowingGrammar.resolve (.external "source" "a")).toOption = some [.rule 0] := by
  have hgrammar : ofDefinition shadowing = .ok shadowingGrammar := rfl
  have hroot : shadowingGrammar.patternsOf shadowingGrammar.root =
      [.reference (.entry 0 "a"), .rule 3] := by decide +kernel
  obtain ⟨hentries, hpatterns, hparents⟩ := elaborates_of_ofDefinition hgrammar (by decide)
  rw [hroot] at hpatterns
  exact ⟨hentries, hpatterns, hparents, by decide +kernel, by decide +kernel⟩

end ScopeLexer.Grammar
