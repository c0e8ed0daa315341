import Mathlib.Data.List.Nodup
import Mathlib.Logic.Relation
import ScopeLexer.Proofs.Grammar.References

/-!
# Rules form a forest

Rules refer to other rules in their patterns and captures, and repositories do in their entries.  A
number is used where the rule with that number goes, and compilation hands it on to one place only:
`Builds` accounts for the numbers that were given out and are not used yet.
-/

namespace ScopeLexer

open Outcome

/-! ## Uses of numbers -/

def Pattern.rule? : Pattern → Option RuleId
  | .rule id => some id
  | .reference _ => none

def ruleIds (patterns : List Pattern) : List RuleId := patterns.filterMap Pattern.rule?

def captureRules (captures : List Capture) : List RuleId := captures.filterMap Capture.rule

def RuleKind.captures : RuleKind → List Capture
  | .group => []
  | .single _ captures => captures
  | .enclosed enclosure => enclosure.openingCaptures ++ enclosure.closingCaptures

def Rule.uses (rule : Rule) : List RuleId :=
  captureRules rule.kind.captures ++ ruleIds rule.patterns

def Repository.uses (repository : Repository) : List RuleId :=
  repository.entries.flatMap fun entry => ruleIds entry.2

@[simp] theorem ruleIds_append (patterns others : List Pattern) :
    ruleIds (patterns ++ others) = ruleIds patterns ++ ruleIds others :=
  List.filterMap_append

@[simp] theorem captureRules_append (captures others : List Capture) :
    captureRules (captures ++ others) = captureRules captures ++ captureRules others :=
  List.filterMap_append

theorem mem_ruleIds {patterns : List Pattern} {id : RuleId} :
    id ∈ ruleIds patterns ↔ Pattern.rule id ∈ patterns := by
  simp only [ruleIds, List.mem_filterMap]
  constructor
  · rintro ⟨_ | _, hpattern, hid⟩
    · cases hid
      exact hpattern
    · contradiction
  · exact fun hpattern => ⟨_, hpattern, rfl⟩

theorem mem_captureRules {captures : List Capture} {id : RuleId} :
    id ∈ captureRules captures ↔ ∃ capture ∈ captures, capture.rule = some id :=
  List.mem_filterMap

def Pattern.Fits (rules : Array Rule) (repositories : Nat) : Pattern → Prop
  | .rule id => ∃ rule, rules[id]? = some rule ∧ rule.kind ≠ .group
  | .reference (.entry repository _) => repository < repositories
  | .reference _ => True

structure Capture.Fits (rules : Array Rule) (groups : Nat) (capture : Capture) : Prop where
  group : capture.group ≤ groups
  rule : ∀ id, capture.rule = some id → ∃ rule, rules[id]? = some rule ∧ rule.kind = .group

structure CapturesFit (rules : Array Rule) (groups : Nat) (captures : List Capture) : Prop where
  ordered : captures.Pairwise fun left right => left.group ≤ right.group
  each : ∀ capture ∈ captures, capture.Fits rules groups

def RuleKind.Fits (rules : Array Rule) : RuleKind → Prop
  | .group => True
  | .single expression captures => CapturesFit rules expression.groupCount captures
  | .enclosed enclosure =>
      CapturesFit rules enclosure.opening.groupCount enclosure.openingCaptures ∧
        CapturesFit rules enclosure.closing.groupCount enclosure.closingCaptures

theorem CapturesFit.rules {rules : Array Rule} {groups : Nat} {captures : List Capture}
    (h : CapturesFit rules groups captures) :
    ∀ id ∈ captureRules captures, ∃ rule, rules[id]? = some rule ∧ rule.kind = .group := by
  intro id hid
  obtain ⟨capture, hcapture, hrule⟩ := mem_captureRules.mp hid
  exact (h.each capture hcapture).rule id hrule

theorem RuleKind.Fits.rules {rules : Array Rule} {kind : RuleKind} (h : kind.Fits rules) :
    ∀ id ∈ captureRules kind.captures, ∃ rule, rules[id]? = some rule ∧ rule.kind = .group := by
  intro id hid
  cases kind with
  | group => contradiction
  | single expression captures => exact CapturesFit.rules h id hid
  | enclosed enclosure =>
      rw [RuleKind.captures, captureRules_append, List.mem_append] at hid
      rcases hid with hid | hid
      · exact h.1.rules id hid
      · exact h.2.rules id hid

namespace Compilation

namespace Tables

def uses (tables : Tables) : List RuleId :=
  tables.rules.toList.flatMap Rule.uses ++ tables.repositories.toList.flatMap Repository.uses

end Tables

abbrev Fits (tables : Tables) (pattern : Pattern) : Prop :=
  pattern.Fits tables.rules tables.repositories.size

structure Sound (tables : Tables) : Prop where
  patterns : ∀ rule ∈ tables.rules, ∀ pattern ∈ rule.patterns, Fits tables pattern
  entries : ∀ repository ∈ tables.repositories, ∀ entry ∈ repository.entries,
    ∀ pattern ∈ entry.2, Fits tables pattern
  captures : ∀ rule ∈ tables.rules, rule.kind.Fits tables.rules
  smaller : ∀ (id : RuleId) (rule : Rule), tables.rules[id]? = some rule →
    ∀ inner ∈ rule.uses, inner < id

variable {tables middle next : Tables} {patterns : List Pattern} {captures : List Capture}
  {kind : RuleKind} {groups : Nat} {name contentName : Option ScopeName}

theorem captureFits_grow {capture : Capture} (hgrows : Grows tables next)
    (h : capture.Fits tables.rules groups) : capture.Fits next.rules groups where
  group := h.group
  rule id hid := by
    obtain ⟨rule, hrule, hkind⟩ := h.rule id hid
    exact ⟨rule, hgrows.rules id rule hrule, hkind⟩

theorem capturesFit_grow (hgrows : Grows tables next) (h : CapturesFit tables.rules groups captures) :
    CapturesFit next.rules groups captures :=
  ⟨h.ordered, fun capture hcapture => captureFits_grow hgrows (h.each capture hcapture)⟩

theorem kindFits_grow (hgrows : Grows tables next) (h : kind.Fits tables.rules) :
    kind.Fits next.rules := by
  cases kind with
  | group => trivial
  | single expression captures => exact capturesFit_grow hgrows h
  | enclosed enclosure => exact ⟨capturesFit_grow hgrows h.1, capturesFit_grow hgrows h.2⟩

theorem Fits.grow {pattern : Pattern} (hgrows : Grows tables next) (h : Fits tables pattern) :
    Fits next pattern := by
  cases pattern with
  | rule id =>
      obtain ⟨rule, hrule, hkind⟩ := h
      exact ⟨rule, hgrows.rules id rule hrule, hkind⟩
  | reference reference =>
      cases reference with
      | entry repository name => exact Nat.lt_of_lt_of_le h hgrows.nextRepository_le
      | itself => trivial
      | base => trivial
      | external scope name => trivial

theorem fits_ofText {repository : RepositoryId} (hbound : repository < tables.nextRepository)
    (text : String) : Fits tables (.reference (.ofText text repository)) := by
  unfold Reference.ofText
  split
  · trivial
  split
  · trivial
  split
  · exact hbound
  split <;> trivial

namespace Sound

theorem addRule (h : Sound tables) (hpatterns : ∀ pattern ∈ patterns, Fits tables pattern)
    (hkind : kind.Fits tables.rules) : Sound (tables.addRule name contentName kind patterns) := by
  have hgrows := Grows.addRule tables name contentName kind patterns
  constructor
  · intro rule hrule pattern hpattern
    refine Fits.grow hgrows ?_
    rcases Array.mem_push.mp hrule with hrule | rfl
    · exact h.patterns rule hrule pattern hpattern
    · exact hpatterns pattern hpattern
  · intro repository hrepository entry hentry pattern hpattern
    exact (h.entries repository hrepository entry hentry pattern hpattern).grow hgrows
  · intro rule hrule
    refine kindFits_grow hgrows ?_
    rcases Array.mem_push.mp hrule with hrule | rfl
    · exact h.captures rule hrule
    · exact hkind
  · intro id rule hrule inner hinner
    simp only [Tables.addRule, Array.getElem?_push] at hrule
    split at hrule
    · next hid =>
      cases hrule
      rw [hid]
      rcases List.mem_append.mp hinner with hinner | hinner
      · obtain ⟨_, hlisted, -⟩ := hkind.rules inner hinner
        exact (Array.getElem?_eq_some_iff.mp hlisted).1
      · obtain ⟨_, hlisted, -⟩ := hpatterns _ (mem_ruleIds.mp hinner)
        exact (Array.getElem?_eq_some_iff.mp hlisted).1
    · exact h.smaller id rule hrule inner hinner

theorem addRepository (h : Sound tables) (parent : Option RepositoryId) :
    Sound (tables.addRepository parent) := by
  have hgrows := Grows.addRepository tables parent
  refine ⟨fun rule hrule pattern hpattern => (h.patterns rule hrule pattern hpattern).grow hgrows,
    fun repository hrepository entry hentry pattern hpattern => ?_, h.captures, h.smaller⟩
  rcases Array.mem_push.mp hrepository with hrepository | rfl
  · exact (h.entries repository hrepository entry hentry pattern hpattern).grow hgrows
  · contradiction

theorem setEntries {id : RepositoryId} {entries : List (String × List Pattern)} (h : Sound tables)
    (hentries : ∀ entry ∈ entries, ∀ pattern ∈ entry.2, Fits tables pattern) :
    Sound (tables.setEntries id entries) := by
  have hfits {pattern : Pattern} (h : Fits tables pattern) :
      Fits (tables.setEntries id entries) pattern := by
    cases pattern with
    | rule id => exact h
    | reference reference =>
        cases reference with
        | entry repository name => exact Nat.lt_of_lt_of_eq h (nextRepository_setEntries ..).symm
        | itself => trivial
        | base => trivial
        | external scope name => trivial
  refine ⟨fun rule hrule pattern hpattern => hfits (h.patterns rule hrule pattern hpattern),
    fun repository hrepository entry hentry pattern hpattern => hfits ?_, h.captures, h.smaller⟩
  obtain ⟨place, hplace⟩ := Array.mem_iff_getElem?.mp hrepository
  simp only [Tables.setEntries, Array.getElem?_modify] at hplace
  split at hplace
  · obtain ⟨before, -, rfl⟩ := Option.map_eq_some_iff.mp hplace
    exact hentries entry hentry pattern hpattern
  · exact h.entries repository (Array.mem_of_getElem? hplace) entry hentry pattern hpattern

theorem warn (h : Sound tables) (location : Location) (kind : WarningKind) :
    Sound (tables.warn location kind) :=
  ⟨h.patterns, h.entries, h.captures, h.smaller⟩

end Sound

/-! ## Accounts of numbers -/

/-- How often a number may be used by what lies between two tables: once, if it was given out
there. -/
def fresh (tables next : Tables) (id : Nat) : Nat :=
  if tables.rules.size ≤ id ∧ id < next.rules.size then 1 else 0

/-- What comes of compiling a part.  Numbers in use were in use before, or were given out since and
are used once; those that are `pending` have no place yet. -/
structure Builds (tables next : Tables) (pending : List RuleId) : Prop where
  grows : Grows tables next
  sound : Sound next
  once : ∀ id : Nat, next.uses.count id + pending.count id ≤ tables.uses.count id + fresh tables next id

theorem Grows.size_le (h : Grows tables next) : tables.rules.size ≤ next.rules.size := by
  refine Nat.le_of_not_lt fun hlt => ?_
  have hrule := h.rules _ _ (Array.getElem?_eq_getElem hlt)
  simp at hrule

theorem count_uses_addRule (id : RuleId) :
    (tables.addRule name contentName kind patterns).uses.count id =
      tables.uses.count id + (captureRules kind.captures ++ ruleIds patterns).count id := by
  simp only [Tables.uses, Tables.addRule, Array.toList_push, List.flatMap_append,
    List.flatMap_singleton, List.count_append, Rule.uses]
  omega

theorem count_uses_addRepository (parent : Option RepositoryId) (id : RuleId) :
    (tables.addRepository parent).uses.count id = tables.uses.count id := by
  simp [Tables.uses, Tables.addRepository, Repository.uses]

theorem count_uses_setEntries_le (repository : RepositoryId)
    (entries : List (String × List Pattern)) (id : RuleId) :
    (tables.setEntries repository entries).uses.count id ≤
      tables.uses.count id + (entries.flatMap fun entry => ruleIds entry.2).count id := by
  have hmodify : ∀ (repositories : List Repository) (place : Nat),
      ((repositories.modify place fun repository => { repository with entries }).flatMap
          Repository.uses).count id ≤
        (repositories.flatMap Repository.uses).count id +
          (entries.flatMap fun entry => ruleIds entry.2).count id := by
    intro repositories
    induction repositories with
    | nil => simp
    | cons first repositories ih =>
        intro place
        cases place with
        | zero =>
            simp only [List.modify_zero_cons, List.flatMap_cons, List.count_append,
              Repository.uses]
            omega
        | succ place =>
            simp only [List.modify_succ_cons, List.flatMap_cons, List.count_append]
            have := ih place
            omega
  simp only [Tables.uses, Tables.setEntries, Array.toList_modify, List.count_append]
  have := hmodify tables.repositories.toList repository
  omega

namespace Builds

variable {pending others : List RuleId}

theorem nothing (h : Sound tables) : Builds tables tables [] :=
  ⟨.refl tables, h, fun id => by simp⟩

theorem trans (h : Builds tables middle pending) (h' : Builds middle next others) :
    Builds tables next (pending ++ others) where
  grows := h.grows.trans h'.grows
  sound := h'.sound
  once id := by
    have hfirst := h.once id
    have hsecond := h'.once id
    have hle := h.grows.size_le
    have hle' := h'.grows.size_le
    rw [List.count_append]
    unfold fresh at *
    split at hfirst <;> split at hsecond <;> split <;> omega

theorem warn (h : Builds tables next pending) (location : Location) (kind : WarningKind) :
    Builds tables (next.warn location kind) pending :=
  ⟨h.grows.trans (.warn ..), h.sound.warn location kind, h.once⟩

theorem setEntries {parent : Option RepositoryId} {entries : List (String × List Pattern)}
    (h : Builds (tables.addRepository parent) next (entries.flatMap fun entry => ruleIds entry.2))
    (hfits : ∀ entry ∈ entries, ∀ pattern ∈ entry.2, Fits next pattern) :
    Builds tables (next.setEntries tables.nextRepository entries) [] where
  grows := ((Grows.addRepository ..).trans h.grows).setEntries (Nat.le_refl _) entries
  sound := h.sound.setEntries hfits
  once id := by
    have honce := h.once id
    rw [count_uses_addRepository] at honce
    exact Nat.le_trans (count_uses_setEntries_le _ _ id) honce

theorem drop (h : Builds tables next pending) : Builds tables next [] :=
  ⟨h.grows, h.sound, fun id => Nat.le_trans (Nat.le_add_right _ _) (h.once id)⟩

theorem addRule (h : Builds tables next pending)
    (hpending : ∀ id, (captureRules kind.captures ++ ruleIds patterns).count id ≤ pending.count id)
    (hpatterns : ∀ pattern ∈ patterns, Fits next pattern) (hkind : kind.Fits next.rules) :
    Builds tables (next.addRule name contentName kind patterns) [next.nextRule] where
  grows := h.grows.trans (.addRule ..)
  sound := h.sound.addRule hpatterns hkind
  once id := by
    have hbefore := h.once id
    have huses := hpending id
    have hle := h.grows.size_le
    have hnext : (next.addRule name contentName kind patterns).rules.size = next.rules.size + 1 :=
      Array.size_push _
    rw [count_uses_addRule, List.count_singleton, fresh, hnext, Tables.nextRule]
    unfold fresh at hbefore
    simp only [beq_iff_eq]
    split at hbefore <;> split <;> split <;> omega

end Builds

structure BuildsPatterns (tables next : Tables) (patterns : List Pattern) : Prop where
  builds : Builds tables next (ruleIds patterns)
  fits : ∀ pattern ∈ patterns, Fits next pattern

structure BuildsTable (tables next : Tables) (groups : Nat) (captures : List Capture) : Prop where
  builds : Builds tables next (captureRules captures)
  fits : ∀ capture ∈ captures, capture.Fits next.rules groups

structure BuildsCaptures (tables next : Tables) (groups : Nat) (captures : List Capture) :
    Prop where
  builds : Builds tables next (captureRules captures)
  fits : CapturesFit next.rules groups captures

theorem BuildsPatterns.nothing (h : Sound tables) : BuildsPatterns tables tables [] :=
  ⟨.nothing h, by simp⟩

theorem BuildsPatterns.trans {others : List Pattern} (h : BuildsPatterns tables middle patterns)
    (h' : BuildsPatterns middle next others) : BuildsPatterns tables next (patterns ++ others) where
  builds := by
    rw [ruleIds_append]
    exact h.builds.trans h'.builds
  fits pattern hpattern := by
    rcases List.mem_append.mp hpattern with hmem | hmem
    · exact (h.fits pattern hmem).grow h'.builds.grows
    · exact h'.fits pattern hmem

theorem BuildsTable.nothing (h : Sound tables) : BuildsTable tables tables groups [] :=
  ⟨.nothing h, by simp⟩

theorem BuildsTable.trans {others : List Capture} (h : BuildsTable tables middle groups captures)
    (h' : BuildsTable middle next groups others) :
    BuildsTable tables next groups (captures ++ others) where
  builds := by
    rw [captureRules_append]
    exact h.builds.trans h'.builds
  fits capture hcapture := by
    rcases List.mem_append.mp hcapture with hmem | hmem
    · exact captureFits_grow h'.builds.grows (h.fits capture hmem)
    · exact h'.fits capture hmem

theorem BuildsTable.order (h : BuildsTable tables next groups captures) :
    BuildsCaptures tables next groups (orderCaptures captures) := by
  have hperm : (orderCaptures captures).Perm captures := List.mergeSort_perm ..
  refine ⟨⟨h.builds.grows, h.builds.sound, fun id => ?_⟩, ?_, fun capture hcapture => ?_⟩
  · rw [captureRules, (hperm.filterMap _).count_eq]
    exact h.builds.once id
  · have hsorted : (orderCaptures captures).Pairwise fun left right =>
        decide (left.group ≤ right.group) = true :=
      List.pairwise_mergeSort (by simp; omega) (by simp; omega) captures
    exact hsorted.imp of_decide_eq_true
  · exact h.fits capture (hperm.mem_iff.mp hcapture)

theorem BuildsPatterns.addRule (h : BuildsPatterns tables middle patterns)
    {kind : RuleKind} (hcaptures : Builds middle next (captureRules kind.captures))
    (hkind : kind.Fits next.rules) :
    Builds tables (next.addRule name contentName kind patterns) [next.nextRule] := by
  refine (h.builds.trans hcaptures).addRule (fun id => ?_) (fun pattern hpattern => ?_) hkind
  · simp only [List.count_append]
    omega
  · exact (h.fits pattern hpattern).grow hcaptures.grows

theorem BuildsPatterns.addMatch (h : BuildsPatterns tables middle patterns)
    {kind : RuleKind} (hcaptures : Builds middle next (captureRules kind.captures))
    (hkind : kind.Fits next.rules) (hmatch : kind ≠ .group) :
    BuildsPatterns tables (next.addRule name contentName kind patterns)
      [.rule next.nextRule] where
  builds := h.addRule hcaptures hkind
  fits pattern hpattern := by
    rw [List.mem_singleton.mp hpattern]
    exact ⟨_, Array.getElem?_push_size, hmatch⟩

/-! ## Compilation -/

mutual

theorem compileRule_builds {outer : RepositoryId} {location : Location} {tables next : Tables}
    {compiled : List Pattern} (rule : RuleDefinition) (houter : outer < tables.nextRepository)
    (htables : Sound tables) (h : compileRule rule outer location tables = .ok (compiled, next)) :
    BuildsPatterns tables next compiled := by
  obtain ⟨reference, name, contentName, matchSource, beginSource, endSource, whileSource, captures,
    beginCaptures, endCaptures, patterns, repository, closesLast⟩ := rule
  cases compiledRule_of_compileRule h with
  | reference hinner hreference =>
      obtain ⟨hbound, hbuilds⟩ := compileInner_builds repository houter htables hinner
      refine ⟨hbuilds, fun pattern hpattern => ?_⟩
      rw [List.mem_singleton.mp hpattern]
      exact fits_ofText hbound _
  | @plain _ _ _ tablesInner tablesNested _ hinner _ hnested hkind =>
      obtain ⟨hbound, hbuilds⟩ := compileInner_builds repository houter htables hinner
      have hnested := compilePatterns_builds patterns hbound hbuilds.sound hnested
      have hbound := Nat.lt_of_lt_of_le hbound hnested.builds.grows.nextRepository_le
      have hinner : BuildsPatterns tables tablesInner [] := ⟨hbuilds, by simp⟩
      have hnested := hinner.trans hnested
      rw [List.nil_append] at hnested
      cases hkind with
      | single _ hcaptures =>
          have hcaptures := compileCaptures_builds captures hbound hnested.builds.sound hcaptures
          exact hnested.addMatch hcaptures.builds hcaptures.fits nofun
      | skipped => exact ⟨hnested.builds.drop.warn .., by simp⟩
      | @enclosed _ opening closing openingCaptures closingCaptures tablesOpening tablesClosing
          _ _ hopening hclosing =>
          have hopening :
              BuildsCaptures tablesNested tablesOpening opening.groupCount openingCaptures := by
            split at hopening
            · exact compileCaptures_builds beginCaptures hbound hnested.builds.sound hopening
            · exact compileCaptures_builds captures hbound hnested.builds.sound hopening
          have hbound := Nat.lt_of_lt_of_le hbound hopening.builds.grows.nextRepository_le
          have hclosing :
              BuildsCaptures tablesOpening tablesClosing closing.groupCount closingCaptures := by
            split at hclosing
            · exact compileCaptures_builds endCaptures hbound hopening.builds.sound hclosing
            · exact compileCaptures_builds captures hbound hopening.builds.sound hclosing
          refine hnested.addMatch ?_
            ⟨capturesFit_grow hclosing.builds.grows hopening.fits, hclosing.fits⟩ nofun
          rw [RuleKind.captures, captureRules_append]
          exact hopening.builds.trans hclosing.builds
      | grouped _ _ hnext =>
          rcases hnext with rfl | rfl
          · exact hnested
          · exact ⟨hnested.builds.warn .., hnested.fits⟩
termination_by structural rule

theorem compileInner_builds {outer inner : RepositoryId} {location : Location}
    {tables next : Tables} (repository : Option (List (String × RuleDefinition)))
    (houter : outer < tables.nextRepository) (htables : Sound tables)
    (h : compileInner repository outer location tables = .ok (inner, next)) :
    inner < next.nextRepository ∧ Builds tables next [] := by
  cases repository with
  | none =>
      cases h
      exact ⟨houter, .nothing htables⟩
  | some entries =>
      rw [compileInner] at h
      obtain ⟨⟨compiled, tablesEntries⟩, hentries, h⟩ := bind_eq_ok.mp h
      cases pure_eq_ok.mp h
      have hbound : tables.nextRepository < (tables.addRepository (some outer)).nextRepository := by
        rw [nextRepository_addRepository]
        exact Nat.lt_succ_self _
      obtain ⟨hbuilds, hfits⟩ :=
        compileEntries_builds entries hbound (htables.addRepository (some outer)) hentries
      refine ⟨?_, hbuilds.setEntries hfits⟩
      rw [nextRepository_setEntries]
      exact Nat.lt_of_lt_of_le hbound hbuilds.grows.nextRepository_le
termination_by structural repository

theorem compilePatterns_builds {repository : RepositoryId} {location : Location}
    {tables next : Tables} {compiled : List Pattern} (patterns : Option (List RuleDefinition))
    (hbound : repository < tables.nextRepository) (htables : Sound tables)
    (h : compilePatterns patterns repository location tables = .ok (compiled, next)) :
    BuildsPatterns tables next compiled := by
  cases patterns with
  | none =>
      cases h
      exact .nothing htables
  | some rules => exact compileList_builds rules hbound htables h
termination_by structural patterns

theorem compileCaptures_builds {groups : Nat} {repository : RepositoryId} {location : Location}
    {tables next : Tables} {compiled : List Capture}
    (captures : Option (List (String × CaptureDefinition)))
    (hbound : repository < tables.nextRepository) (htables : Sound tables)
    (h : compileCaptures captures groups repository location tables = .ok (compiled, next)) :
    BuildsCaptures tables next groups compiled := by
  cases captures with
  | none =>
      cases h
      exact ⟨.nothing htables, .nil, by simp⟩
  | some table =>
      rw [compileCaptures] at h
      obtain ⟨⟨unordered, tablesTable⟩, htable, h⟩ := bind_eq_ok.mp h
      cases pure_eq_ok.mp h
      exact (compileTable_builds table hbound htables htable).order
termination_by structural captures

theorem compileList_builds {index : Nat} {repository : RepositoryId} {location : Location}
    {tables next : Tables} {compiled : List Pattern} (rules : List RuleDefinition)
    (hbound : repository < tables.nextRepository) (htables : Sound tables)
    (h : compileList rules index repository location tables = .ok (compiled, next)) :
    BuildsPatterns tables next compiled := by
  cases rules with
  | nil =>
      cases h
      exact .nothing htables
  | cons rule rules =>
      rw [compileList] at h
      obtain ⟨⟨first, tablesFirst⟩, hfirst, h⟩ := bind_eq_ok.mp h
      obtain ⟨⟨others, tablesOthers⟩, hothers, h⟩ := bind_eq_ok.mp h
      cases pure_eq_ok.mp h
      have hfirst := compileRule_builds rule hbound htables hfirst
      have hbound := Nat.lt_of_lt_of_le hbound hfirst.builds.grows.nextRepository_le
      exact hfirst.trans (compileList_builds rules hbound hfirst.builds.sound hothers)
termination_by structural rules

theorem compileEntries_builds {repository : RepositoryId} {location : Location}
    {tables next : Tables} {compiled : List (String × List Pattern)}
    (entries : List (String × RuleDefinition)) (hbound : repository < tables.nextRepository)
    (htables : Sound tables)
    (h : compileEntries entries repository location tables = .ok (compiled, next)) :
    Builds tables next (compiled.flatMap fun entry => ruleIds entry.2) ∧
      ∀ entry ∈ compiled, ∀ pattern ∈ entry.2, Fits next pattern := by
  cases entries with
  | nil =>
      cases h
      exact ⟨.nothing htables, by simp⟩
  | cons entry entries =>
      obtain ⟨name, rule⟩ := entry
      rw [compileEntries] at h
      obtain ⟨⟨patterns, tablesRule⟩, hrule, h⟩ := bind_eq_ok.mp h
      obtain ⟨⟨others, tablesOthers⟩, hothers, h⟩ := bind_eq_ok.mp h
      cases pure_eq_ok.mp h
      have hrule := compileRule_builds rule hbound htables hrule
      have hbound := Nat.lt_of_lt_of_le hbound hrule.builds.grows.nextRepository_le
      obtain ⟨hbuilds, hfits⟩ := compileEntries_builds entries hbound hrule.builds.sound hothers
      refine ⟨hrule.builds.trans hbuilds, List.forall_mem_cons.mpr ⟨?_, hfits⟩⟩
      intro pattern hpattern
      exact (hrule.fits pattern hpattern).grow hbuilds.grows
termination_by structural entries

theorem compileTable_builds {groups : Nat} {repository : RepositoryId} {location : Location}
    {tables next : Tables} {compiled : List Capture}
    (captures : List (String × CaptureDefinition)) (hbound : repository < tables.nextRepository)
    (htables : Sound tables)
    (h : compileTable captures groups repository location tables = .ok (compiled, next)) :
    BuildsTable tables next groups compiled := by
  cases captures with
  | nil =>
      cases h
      exact .nothing htables
  | cons entry captures =>
      obtain ⟨key, name, patterns⟩ := entry
      rw [compileTable] at h
      dsimp only at h
      split at h
      · simp at h
      · next group _ =>
        split at h
        · -- The group is out of range: the capture is left out.
          have hwarned : BuildsTable tables
              (tables.warn (location.key key) (.captureOutOfRange group groups)) groups [] :=
            ⟨(Builds.nothing htables).warn .., by simp⟩
          exact hwarned.trans (compileTable_builds captures hbound hwarned.builds.sound h)
        · next hgroup =>
          obtain ⟨⟨nested, tablesNested⟩, hnested, h⟩ := bind_eq_ok.mp h
          have hnested := compilePatterns_builds patterns hbound htables hnested
          have hbound := Nat.lt_of_lt_of_le hbound hnested.builds.grows.nextRepository_le
          dsimp only at h
          split at h
          · obtain ⟨⟨others, tablesOthers⟩, hothers, h⟩ := bind_eq_ok.mp h
            cases pure_eq_ok.mp h
            have hrule : BuildsTable tables (tablesNested.addRule none none .group nested) groups
                [⟨group, name.map .mk, some tablesNested.nextRule⟩] := by
              refine ⟨hnested.addRule (.nothing hnested.builds.sound) trivial, ?_⟩
              intro capture hcapture
              rw [List.mem_singleton.mp hcapture]
              refine ⟨Nat.le_of_not_lt hgroup, fun id hid => ?_⟩
              cases hid
              exact ⟨_, Array.getElem?_push_size, rfl⟩
            exact hrule.trans (compileTable_builds captures hbound hrule.builds.sound hothers)
          · obtain ⟨⟨others, tablesOthers⟩, hothers, h⟩ := bind_eq_ok.mp h
            cases pure_eq_ok.mp h
            have hplain : BuildsTable tables tablesNested groups
                [⟨group, name.map .mk, none⟩] := by
              refine ⟨hnested.builds.drop, fun capture hcapture => ?_⟩
              rw [List.mem_singleton.mp hcapture]
              exact ⟨Nat.le_of_not_lt hgroup, by simp⟩
            exact hplain.trans (compileTable_builds captures hbound hplain.builds.sound hothers)
termination_by structural captures

end

end Compilation

namespace Grammar

open Compilation

variable {definition : GrammarDefinition} {grammar : Grammar}

def uses (grammar : Grammar) : List RuleId :=
  grammar.rules.toList.flatMap Rule.uses ++ grammar.repositories.toList.flatMap Repository.uses

/-- The rules and repositories of a grammar fit together: every number stands for something of the
right kind, no rule is used twice, and rules within rules have smaller numbers. -/
structure Forest (grammar : Grammar) : Prop where
  numbered : Numbered grammar.rules
  root : grammar.rules.size = grammar.root + 1
  nodup : grammar.uses.Nodup
  root_unused : grammar.root ∉ grammar.uses
  patterns : ∀ pattern ∈ grammar.patternLists.flatten,
    pattern.Fits grammar.rules grammar.repositories.size
  captures : ∀ rule ∈ grammar.rules, rule.kind.Fits grammar.rules
  smaller : ∀ rule ∈ grammar.rules, ∀ inner ∈ rule.uses, inner < rule.id

theorem forest_of_ofDefinition (h : ofDefinition definition = .ok grammar) : grammar.Forest := by
  have hnumbered := numbered_of_ofDefinition h
  obtain ⟨entries, tablesEntries, patterns, tables, hentries, hpatterns, rfl⟩ :=
    ofDefinition_eq_ok h
  have hempty : Sound {} := ⟨by simp, by simp, by simp, by simp⟩
  have htop : 0 < (Tables.addRepository {} none).nextRepository := Nat.zero_lt_one
  obtain ⟨hentries, hfits⟩ :=
    compileEntries_builds definition.repository htop (hempty.addRepository none) hentries
  have hset : Builds {} (tablesEntries.setEntries 0 entries) [] := hentries.setEntries hfits
  have htop : 0 < (tablesEntries.setEntries 0 entries).nextRepository := by
    rw [nextRepository_setEntries]
    exact Nat.lt_of_lt_of_le htop hentries.grows.nextRepository_le
  have hpatterns := compileList_builds definition.patterns htop hset.sound hpatterns
  have hroot : Builds {} (tables.addRule none none .group patterns) [tables.nextRule] :=
    hset.trans (hpatterns.addRule (.nothing hpatterns.builds.sound) trivial)
  have honce (id : Nat) : (tables.addRule none none .group patterns).uses.count id +
      [tables.nextRule].count id ≤ 1 := by
    have honce := hroot.once id
    simp only [Tables.uses, fresh] at honce ⊢
    split at honce <;> simp at honce ⊢ <;> omega
  have hfine : AllFine (fun rules pattern =>
      pattern.Fits rules (tables.addRule none none .group patterns).repositories.size)
      (tables.addRule none none .group patterns) :=
    ⟨hroot.sound.patterns, hroot.sound.entries⟩
  exact {
    numbered := hnumbered
    root := Array.size_push _
    nodup := List.nodup_iff_count_le_one.mpr fun id =>
      Nat.le_trans (Nat.le_add_right _ _) (honce id)
    root_unused := by
      have hroot := honce tables.nextRule
      rw [List.count_singleton_self] at hroot
      exact List.count_eq_zero.mp (Nat.le_zero.mp (Nat.le_of_succ_le_succ hroot))
    patterns := fun pattern hpattern =>
      fine_of_mem_patternLists hfine hpattern
    captures := hroot.sound.captures
    smaller := fun rule hrule inner hinner => by
      obtain ⟨id, hid⟩ := Array.mem_iff_getElem?.mp hrule
      rw [hnumbered id rule hid]
      exact hroot.sound.smaller id rule hid inner hinner }

/-! ## Rules within rules -/

open Relation

def LiesIn (grammar : Grammar) (inner outer : RuleId) : Prop :=
  ∃ rule, grammar.rules[outer]? = some rule ∧ inner ∈ rule.uses

def Apart (grammar : Grammar) (ids : List RuleId) : Prop :=
  ids.Pairwise fun left right =>
    ∀ id, ReflTransGen grammar.LiesIn id left → ¬ReflTransGen grammar.LiesIn id right

namespace Forest

variable {inner outer other id left right : RuleId} {rule : Rule} {ids : List RuleId}

theorem mem_uses (h : grammar.LiesIn inner outer) : inner ∈ grammar.uses := by
  obtain ⟨rule, hrule, hinner⟩ := h
  exact List.mem_append_left _ (List.mem_flatMap.mpr
    ⟨rule, Array.mem_toList_iff.mpr (Array.mem_of_getElem? hrule), hinner⟩)

theorem lt_of_liesIn (hforest : grammar.Forest) (h : grammar.LiesIn inner outer) :
    inner < outer := by
  obtain ⟨rule, hrule, hinner⟩ := h
  rw [← hforest.numbered outer rule hrule]
  exact hforest.smaller rule (Array.mem_of_getElem? hrule) inner hinner

theorem le_of_liesWithin (hforest : grammar.Forest) (h : ReflTransGen grammar.LiesIn inner outer) :
    inner ≤ outer := by
  induction h with
  | refl => exact Nat.le_refl _
  | tail _ hlies ih => exact Nat.le_trans ih (Nat.le_of_lt (hforest.lt_of_liesIn hlies))

theorem liesIn_rightUnique (hforest : grammar.Forest) : Relator.RightUnique grammar.LiesIn := by
  rintro inner outer other ⟨rule, hrule, hinner⟩ ⟨rule', hrule', hinner'⟩
  have hnodup := (List.nodup_append.mp hforest.nodup).1
  have hdisjoint := (List.nodup_flatMap.mp hnodup).2
  rw [List.pairwise_iff_getElem] at hdisjoint
  obtain ⟨houter, rfl⟩ := Array.getElem?_eq_some_iff.mp hrule
  obtain ⟨hother, rfl⟩ := Array.getElem?_eq_some_iff.mp hrule'
  rcases Nat.lt_trichotomy outer other with hlt | rfl | hlt
  · exact absurd hinner' (hdisjoint outer other (by simpa) (by simpa) hlt hinner)
  · rfl
  · exact absurd hinner (hdisjoint other outer (by simpa) (by simpa) hlt hinner')

theorem comparable (hforest : grammar.Forest) (hleft : ReflTransGen grammar.LiesIn id left)
    (hright : ReflTransGen grammar.LiesIn id right) :
    ReflTransGen grammar.LiesIn left right ∨ ReflTransGen grammar.LiesIn right left :=
  ReflTransGen.total_of_right_unique hforest.liesIn_rightUnique hleft hright

theorem apart_of_liesIn (hforest : grammar.Forest) (hnodup : ids.Nodup)
    (hids : ∀ id ∈ ids, grammar.LiesIn id outer) : grammar.Apart ids := by
  have hnever : ∀ left right, left ≠ right → grammar.LiesIn left outer →
      grammar.LiesIn right outer → ¬ReflTransGen grammar.LiesIn left right := by
    intro left right hne hleft hright hwithin
    rcases hwithin.cases_head with heq | ⟨above, habove, hwithin⟩
    · exact hne heq
    · cases hforest.liesIn_rightUnique habove hleft
      exact Nat.not_lt_of_le (hforest.le_of_liesWithin hwithin) (hforest.lt_of_liesIn hright)
  refine hnodup.imp_of_mem fun hleft hright hne id hinLeft hinRight => ?_
  rcases hforest.comparable hinLeft hinRight with hwithin | hwithin
  · exact hnever _ _ hne (hids _ hleft) (hids _ hright) hwithin
  · exact hnever _ _ (Ne.symm hne) (hids _ hright) (hids _ hleft) hwithin

theorem apart_of_unused (hforest : grammar.Forest) (hnodup : ids.Nodup)
    (hids : ∀ id ∈ ids, ∀ outer, ¬grammar.LiesIn id outer) : grammar.Apart ids := by
  have hnever : ∀ left right, left ≠ right → (∀ outer, ¬grammar.LiesIn left outer) →
      ¬ReflTransGen grammar.LiesIn left right := by
    intro left right hne hleft hwithin
    rcases hwithin.cases_head with heq | ⟨above, habove, -⟩
    · exact hne heq
    · exact hleft above habove
  refine hnodup.imp_of_mem fun hleft hright hne id hinLeft hinRight => ?_
  rcases hforest.comparable hinLeft hinRight with hwithin | hwithin
  · exact hnever _ _ hne (hids _ hleft) hwithin
  · exact hnever _ _ (Ne.symm hne) (hids _ hright) hwithin

theorem nodup_uses (hforest : grammar.Forest) (hrule : grammar.rules[id]? = some rule) :
    rule.uses.Nodup :=
  (List.nodup_flatMap.mp (List.nodup_append.mp hforest.nodup).1).1 rule
    (Array.mem_toList_iff.mpr (Array.mem_of_getElem? hrule))

theorem apart_uses (hforest : grammar.Forest) (hrule : grammar.rules[id]? = some rule) :
    grammar.Apart rule.uses :=
  hforest.apart_of_liesIn (hforest.nodup_uses hrule) fun _ hinner => ⟨rule, hrule, hinner⟩

end Forest

end Grammar

end ScopeLexer
