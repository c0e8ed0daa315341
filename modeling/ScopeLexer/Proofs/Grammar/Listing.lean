import Mathlib.Data.List.Forall2
import ScopeLexer.Listing
import ScopeLexer.Proofs.Grammar.Expansion
import ScopeLexer.Proofs.Grammar.Forest
import ScopeLexer.Proofs.Scan.Step

/-!
# Listings of forests

A grammar is listed without end when a rule lies within itself, and a rule is listed twice when it
lies within two others.  In a forest neither happens, and no number that a scan looks up is missing.
-/

namespace ScopeLexer

open Relation

/-! ## Labels -/

namespace Tree

mutual

def labels : Tree → List String
  | node label children => label :: labelsOf children

def labelsOf : List Tree → List String
  | [] => []
  | tree :: trees => tree.labels ++ labelsOf trees

end

def Shows (line label : String) : Prop := ∃ branch, line = branch ++ label

theorem indent_shows {lines labels : List String} (first others : String)
    (h : List.Forall₂ Shows lines labels) :
    List.Forall₂ Shows (indent first others lines) labels := by
  have hlonger : ∀ {line label : String} (branch : String), Shows line label →
      Shows (branch ++ line) label := by
    rintro line label branch ⟨before, rfl⟩
    exact ⟨branch ++ before, (String.append_assoc ..).symm⟩
  cases h with
  | nil => exact .nil
  | cons hfirst hothers =>
      exact .cons (hlonger first hfirst)
        (List.forall₂_map_left_iff.mpr (hothers.imp fun _ _ => hlonger others))

mutual

theorem lines_show (tree : Tree) : List.Forall₂ Shows tree.lines tree.labels := by
  obtain ⟨label, children⟩ := tree
  rw [lines, labels]
  exact .cons ⟨"", (String.empty_append).symm⟩ (branches_show children)
termination_by structural tree

theorem branches_show (trees : List Tree) :
    List.Forall₂ Shows (branches trees) (labelsOf trees) := by
  match trees with
  | [] => exact .nil
  | [tree] =>
      rw [branches, labelsOf, labelsOf, List.append_nil]
      exact indent_shows _ _ (lines_show tree)
  | tree :: next :: rest =>
      rw [branches, labelsOf]
      exact List.rel_append (indent_shows _ _ (lines_show tree)) (branches_show (next :: rest))
termination_by structural trees

end

theorem labelsOf_append (trees others : List Tree) :
    labelsOf (trees ++ others) = labelsOf trees ++ labelsOf others := by
  induction trees with
  | nil => rfl
  | cons tree trees ih => rw [List.cons_append, labelsOf, ih, labelsOf, List.append_assoc]

end Tree

/-! ## Items -/

inductive Item where
  | heading (text : String)
  | rule (id : RuleId)
  | reference (reference : Reference)
  | capture (capture : Capture)

def Item.rule? : Item → Option RuleId
  | .rule id => some id
  | .heading _ | .reference _ | .capture _ => none

namespace Grammar

def itemLabel (grammar : Grammar) : Item → String
  | .heading text => text
  | .rule id => (grammar.rules[id]?.map ruleLabel).getD ""
  | .reference reference => "include " ++ reference.text
  | .capture capture => captureLabel capture

def captureItems (items : RuleId → List Item) (label : String) : List Capture → List Item
  | [] => []
  | captures => .heading label :: captures.flatMap fun capture =>
      .capture capture :: (capture.rule.map items).getD []

def kindItems (items : RuleId → List Item) : RuleKind → List Item
  | .group => []
  | .single _ captures => captureItems items "captures" captures
  | .enclosed enclosure =>
      captureItems items "beginCaptures" enclosure.openingCaptures
        ++ captureItems items "endCaptures" enclosure.closingCaptures

def ruleItems (grammar : Grammar) (items : List Pattern → List Item) (id : RuleId) : List Item :=
  match grammar.rules[id]? with
  | none => []
  | some rule =>
      .rule id :: (kindItems (fun id => items (grammar.patternsOf id)) rule.kind
        ++ items rule.patterns)

def patternItems (grammar : Grammar) : (nesting : Nat) → List Pattern → List Item
  | 0, _ => []
  | nesting + 1, patterns => patterns.flatMap fun
      | .reference reference => [.reference reference]
      | .rule id => grammar.ruleItems (grammar.patternItems nesting) id

def items (grammar : Grammar) : List Item :=
  let items := grammar.patternItems grammar.rules.size
  .heading grammar.title :: .heading "patterns" :: items (grammar.patternsOf grammar.root)
    ++ .heading "repository" :: grammar.topEntries.flatMap fun (name, patterns) =>
      .heading name :: items patterns

variable {grammar : Grammar} {id : RuleId} {kind : RuleKind} {patterns : List Pattern}

theorem labelsOf_captureTrees {trees : RuleId → List Tree} {items : RuleId → List Item}
    (h : ∀ id, Tree.labelsOf (trees id) = (items id).map grammar.itemLabel) (label : String)
    (captures : List Capture) :
    Tree.labelsOf (captureTrees trees label captures) =
      (captureItems items label captures).map grammar.itemLabel := by
  have hcaptures : ∀ captures : List Capture,
      Tree.labelsOf (captures.map fun capture =>
          .node (captureLabel capture) ((capture.rule.map trees).getD [])) =
        (captures.flatMap fun capture =>
          .capture capture :: (capture.rule.map items).getD []).map grammar.itemLabel := by
    intro captures
    induction captures with
    | nil => rfl
    | cons capture captures ih =>
        rw [List.map_cons, Tree.labelsOf, Tree.labels, ih]
        cases hrule : capture.rule <;> simp [hrule, h, itemLabel, Tree.labelsOf]
  cases captures with
  | nil => rfl
  | cons capture captures =>
      rw [captureTrees, captureItems, Tree.labelsOf, Tree.labels, hcaptures]
      · simp [Tree.labelsOf, itemLabel]
      · simp
      · simp

theorem labelsOf_kindTrees {trees : RuleId → List Tree} {items : RuleId → List Item}
    (h : ∀ id, Tree.labelsOf (trees id) = (items id).map grammar.itemLabel) (kind : RuleKind) :
    Tree.labelsOf (kindTrees trees kind) = (kindItems items kind).map grammar.itemLabel := by
  cases kind with
  | group => rfl
  | single expression captures => exact labelsOf_captureTrees h _ captures
  | enclosed enclosure =>
      rw [kindTrees, kindItems, Tree.labelsOf_append, labelsOf_captureTrees h,
        labelsOf_captureTrees h, List.map_append]

theorem labelsOf_patternTrees (grammar : Grammar) (nesting : Nat) (patterns : List Pattern) :
    Tree.labelsOf (grammar.patternTrees nesting patterns) =
      (grammar.patternItems nesting patterns).map grammar.itemLabel := by
  induction nesting generalizing patterns with
  | zero => rfl
  | succ nesting ih =>
      rw [patternTrees, patternItems]
      induction patterns with
      | nil => rfl
      | cons pattern patterns ihPatterns =>
          rw [List.flatMap_cons, List.map_append, ← ihPatterns]
          cases pattern with
          | reference reference => simp [Tree.labelsOf, Tree.labels, itemLabel]
          | rule id =>
              cases hrule : grammar.rules[id]? with
              | none => simp [ruleItems, hrule]
              | some rule =>
                  simp [ruleItems, hrule, Tree.labelsOf, Tree.labels, Tree.labelsOf_append,
                    itemLabel, ih, labelsOf_kindTrees (fun id => ih (grammar.patternsOf id))]

theorem labels_tree (grammar : Grammar) :
    grammar.tree.labels = grammar.items.map grammar.itemLabel := by
  have hentries : ∀ entries : List (String × List Pattern),
      Tree.labelsOf (entries.map fun (name, patterns) =>
          .node name (grammar.patternTrees grammar.rules.size patterns)) =
        (entries.flatMap fun (name, patterns) => .heading name ::
          grammar.patternItems grammar.rules.size patterns).map grammar.itemLabel := by
    intro entries
    induction entries with
    | nil => rfl
    | cons entry entries ih =>
        simp [Tree.labelsOf, Tree.labels, ih, labelsOf_patternTrees, itemLabel]
  simp [tree, items, Tree.labels, Tree.labelsOf, labelsOf_patternTrees, hentries, itemLabel]

/-! ## Rules that are shown -/

def shownRules (grammar : Grammar) (nesting : Nat) (patterns : List Pattern) : List RuleId :=
  (grammar.patternItems nesting patterns).filterMap Item.rule?

theorem rules_captureItems (items : RuleId → List Item) (label : String)
    (captures : List Capture) :
    (captureItems items label captures).filterMap Item.rule? =
      (captureRules captures).flatMap fun id => (items id).filterMap Item.rule? := by
  have hcaptures : ∀ captures : List Capture,
      (captures.flatMap fun capture =>
          .capture capture :: (capture.rule.map items).getD []).filterMap Item.rule? =
        (captureRules captures).flatMap fun id => (items id).filterMap Item.rule? := by
    intro captures
    induction captures with
    | nil => rfl
    | cons capture captures ih =>
        rw [List.flatMap_cons, List.filterMap_append, ih, List.filterMap_cons_none rfl]
        cases hrule : capture.rule <;> simp [captureRules, hrule]
  cases captures with
  | nil => rfl
  | cons capture captures =>
      rw [captureItems, List.filterMap_cons_none rfl, hcaptures]
      simp

theorem rules_kindItems (items : RuleId → List Item) (kind : RuleKind) :
    (kindItems items kind).filterMap Item.rule? =
      (captureRules kind.captures).flatMap fun id => (items id).filterMap Item.rule? := by
  cases kind with
  | group => rfl
  | single expression captures => exact rules_captureItems items _ captures
  | enclosed enclosure =>
      rw [kindItems, List.filterMap_append, rules_captureItems, rules_captureItems,
        RuleKind.captures, captureRules_append, List.flatMap_append]

def shownRule (grammar : Grammar) (nesting : Nat) (id : RuleId) : List RuleId :=
  (grammar.ruleItems (grammar.patternItems nesting) id).filterMap Item.rule?

theorem shownRules_succ (grammar : Grammar) (nesting : Nat) (patterns : List Pattern) :
    grammar.shownRules (nesting + 1) patterns =
      (ruleIds patterns).flatMap (grammar.shownRule nesting) := by
  rw [shownRules, patternItems]
  induction patterns with
  | nil => rfl
  | cons pattern patterns ih =>
      rw [List.flatMap_cons, List.filterMap_append, ih]
      cases pattern <;> rfl

theorem shownRule_eq {nesting : Nat} {rule : Rule} (hrule : grammar.rules[id]? = some rule) :
    grammar.shownRule nesting id =
      id :: ((captureRules rule.kind.captures).flatMap
          (fun group => grammar.shownRules nesting (grammar.patternsOf group))
        ++ grammar.shownRules nesting rule.patterns) := by
  simp only [shownRule, ruleItems, hrule]
  rw [List.filterMap_cons_some (f := Item.rule?) (a := .rule id) rfl, List.filterMap_append,
    rules_kindItems]
  rfl

theorem shownRule_eq_nil {nesting : Nat} (hrule : grammar.rules[id]? = none) :
    grammar.shownRule nesting id = [] := by
  simp only [shownRule, ruleItems, hrule, List.filterMap_nil]

theorem liesIn_of_mem_patternsOf {outer : RuleId} (h : id ∈ ruleIds (grammar.patternsOf outer)) :
    grammar.LiesIn id outer := by
  unfold patternsOf at h
  split at h
  · next rule hrule => exact ⟨rule, hrule, List.mem_append_right _ h⟩
  · contradiction

theorem liesWithin_of_mem_shownRules {nesting : Nat} (h : id ∈ grammar.shownRules nesting patterns) :
    ∃ top ∈ ruleIds patterns, ReflTransGen grammar.LiesIn id top := by
  induction nesting generalizing patterns with
  | zero => contradiction
  | succ nesting ih =>
      rw [shownRules_succ] at h
      obtain ⟨top, htop, hid⟩ := List.mem_flatMap.mp h
      refine ⟨top, htop, ?_⟩
      cases hrule : grammar.rules[top]? with
      | none =>
          rw [shownRule_eq_nil hrule] at hid
          contradiction
      | some rule =>
          rw [shownRule_eq hrule, List.mem_cons, List.mem_append, List.mem_flatMap] at hid
          rcases hid with rfl | ⟨group, hgroup, hid⟩ | hid
          · exact .refl
          · obtain ⟨inner, hinner, hwithin⟩ := ih hid
            exact (hwithin.tail (liesIn_of_mem_patternsOf hinner)).tail
              ⟨rule, hrule, List.mem_append_left _ hgroup⟩
          · obtain ⟨inner, hinner, hwithin⟩ := ih hid
            exact hwithin.tail ⟨rule, hrule, List.mem_append_right _ hinner⟩

theorem liesWithin_of_mem_shownRule {nesting : Nat} {top : RuleId}
    (h : id ∈ grammar.shownRule nesting top) : ReflTransGen grammar.LiesIn id top := by
  have hshown : id ∈ grammar.shownRules (nesting + 1) [.rule top] := by
    rw [shownRules_succ]
    exact List.mem_flatMap.mpr ⟨top, List.mem_singleton_self top, h⟩
  obtain ⟨_, hmem, hwithin⟩ := liesWithin_of_mem_shownRules hshown
  rwa [List.mem_singleton.mp hmem] at hwithin

theorem liesWithin_of_mem_shownGroup {nesting : Nat} {group : RuleId}
    (h : id ∈ grammar.shownRules nesting (grammar.patternsOf group)) :
    ReflTransGen grammar.LiesIn id group := by
  obtain ⟨top, htop, hwithin⟩ := liesWithin_of_mem_shownRules h
  exact hwithin.tail (liesIn_of_mem_patternsOf htop)

namespace Forest

variable {nesting : Nat}

theorem apart_patternsOf (hforest : grammar.Forest) (id : RuleId) :
    grammar.Apart (ruleIds (grammar.patternsOf id)) := by
  unfold patternsOf
  split
  · next rule hrule => exact (hforest.apart_uses hrule).sublist (List.sublist_append_right _ _)
  · exact .nil

theorem nodup_shownRules (hforest : grammar.Forest) (h : grammar.Apart (ruleIds patterns)) :
    (grammar.shownRules nesting patterns).Nodup := by
  induction nesting generalizing patterns with
  | zero => exact .nil
  | succ nesting ih =>
      rw [shownRules_succ, List.nodup_flatMap]
      refine ⟨fun id _ => ?_, h.imp fun hapart id hleft hright =>
        hapart id (liesWithin_of_mem_shownRule hleft) (liesWithin_of_mem_shownRule hright)⟩
      cases hrule : grammar.rules[id]? with
      | none =>
          rw [shownRule_eq_nil hrule]
          exact .nil
      | some rule =>
          obtain ⟨hgroups, hpatterns, hacross⟩ := List.pairwise_append.mp (hforest.apart_uses hrule)
          -- What a rule holds has smaller numbers, so the rule is not shown again within itself.
          have hsmaller : ∀ inner ∈ rule.uses, ¬ReflTransGen grammar.LiesIn id inner := by
            intro inner hinner hwithin
            exact Nat.not_lt_of_le (hforest.le_of_liesWithin hwithin)
              (hforest.lt_of_liesIn ⟨rule, hrule, hinner⟩)
          rw [shownRule_eq hrule, List.nodup_cons, List.mem_append, List.mem_flatMap]
          constructor
          · rintro (⟨group, hmem, hid⟩ | hid)
            · exact hsmaller group (List.mem_append_left _ hmem) (liesWithin_of_mem_shownGroup hid)
            · obtain ⟨top, htop, hwithin⟩ := liesWithin_of_mem_shownRules hid
              exact hsmaller top (List.mem_append_right _ htop) hwithin
          · rw [List.nodup_append', List.nodup_flatMap]
            refine ⟨⟨fun group _ => ih (hforest.apart_patternsOf group), ?_⟩, ih hpatterns, ?_⟩
            · exact hgroups.imp fun hapart inner hleft hright =>
                hapart inner (liesWithin_of_mem_shownGroup hleft)
                  (liesWithin_of_mem_shownGroup hright)
            · intro inner hleft hright
              obtain ⟨group, hmem, hinner⟩ := List.mem_flatMap.mp hleft
              obtain ⟨top, htop, hwithin⟩ := liesWithin_of_mem_shownRules hright
              exact hacross group hmem top htop inner (liesWithin_of_mem_shownGroup hinner) hwithin

def entryRules (grammar : Grammar) : List RuleId :=
  grammar.topEntries.flatMap fun entry => ruleIds entry.2

theorem entryRules_sublist (grammar : Grammar) :
    (entryRules grammar).Sublist (grammar.repositories.toList.flatMap Repository.uses) := by
  unfold entryRules topEntries
  split
  · next repository hrepository =>
    obtain ⟨before, behind, hsplit⟩ := List.append_of_mem
      (Array.mem_toList_iff.mpr (Array.mem_of_getElem? hrepository))
    rw [hsplit, List.flatMap_append, List.flatMap_cons]
    exact (List.sublist_append_left ..).trans (List.sublist_append_right ..)
  · exact List.nil_sublist _

theorem apart_root_entries (hforest : grammar.Forest) :
    grammar.Apart (grammar.root :: entryRules grammar) := by
  have hentries : (entryRules grammar).Sublist grammar.uses :=
    (entryRules_sublist grammar).trans (List.sublist_append_right ..)
  refine hforest.apart_of_unused (List.nodup_cons.mpr ⟨?_, hforest.nodup.sublist hentries⟩) ?_
  · exact fun hroot => hforest.root_unused (hentries.subset hroot)
  · intro id hid outer hlies
    rcases List.mem_cons.mp hid with rfl | hid
    · exact hforest.root_unused (mem_uses hlies)
    · obtain ⟨rule, hrule, hinner⟩ := hlies
      refine (List.nodup_append'.mp hforest.nodup).2.2 (List.mem_flatMap.mpr
        ⟨rule, Array.mem_toList_iff.mpr (Array.mem_of_getElem? hrule), hinner⟩) ?_
      exact (entryRules_sublist grammar).subset hid

theorem nodup_items (hforest : grammar.Forest) :
    (grammar.items.filterMap Item.rule?).Nodup := by
  have hitems : grammar.items.filterMap Item.rule? =
      grammar.shownRules grammar.rules.size (grammar.patternsOf grammar.root) ++
        grammar.topEntries.flatMap fun entry => grammar.shownRules grammar.rules.size entry.2 := by
    simp [items, List.filterMap_cons, Item.rule?, shownRules, List.filterMap_flatMap]
  obtain ⟨hroot, hentries⟩ := List.pairwise_cons.mp hforest.apart_root_entries
  obtain ⟨heach, hacross⟩ := List.pairwise_flatMap.mp hentries
  rw [hitems, List.nodup_append', List.nodup_flatMap]
  refine ⟨hforest.nodup_shownRules (hforest.apart_patternsOf _),
    ⟨fun entry hentry => hforest.nodup_shownRules (heach entry hentry), ?_⟩, ?_⟩
  · refine hacross.imp fun hapart id hleft hright => ?_
    obtain ⟨left, hmemLeft, hwithinLeft⟩ := liesWithin_of_mem_shownRules hleft
    obtain ⟨right, hmemRight, hwithinRight⟩ := liesWithin_of_mem_shownRules hright
    exact hapart left hmemLeft right hmemRight id hwithinLeft hwithinRight
  · intro id hleft hright
    obtain ⟨entry, hentry, hright⟩ := List.mem_flatMap.mp hright
    obtain ⟨left, hmemLeft, hwithinLeft⟩ := liesWithin_of_mem_shownRules hleft
    obtain ⟨right, hmemRight, hwithinRight⟩ := liesWithin_of_mem_shownRules hright
    exact hroot right (List.mem_flatMap.mpr ⟨entry, hentry, hmemRight⟩) id
      (hwithinLeft.tail (liesIn_of_mem_patternsOf hmemLeft)) hwithinRight

/-! ## Depth -/

theorem captureTrees_congr {trees others : RuleId → List Tree} {captures : List Capture}
    (label : String) (h : ∀ id ∈ captureRules captures, trees id = others id) :
    captureTrees trees label captures = captureTrees others label captures := by
  have hmap : (captures.map fun capture =>
        Tree.node (captureLabel capture) ((capture.rule.map trees).getD [])) =
      captures.map fun capture =>
        .node (captureLabel capture) ((capture.rule.map others).getD []) := by
    refine List.map_congr_left fun capture hcapture => ?_
    cases hrule : capture.rule with
    | none => rfl
    | some id =>
        have hid := h id (mem_captureRules.mpr ⟨capture, hcapture, hrule⟩)
        rw [Option.map_some, Option.map_some, hid]
  cases captures with
  | nil => rfl
  | cons capture captures => simp only [captureTrees, hmap]

theorem kindTrees_congr {trees others : RuleId → List Tree} {kind : RuleKind}
    (h : ∀ id ∈ captureRules kind.captures, trees id = others id) :
    kindTrees trees kind = kindTrees others kind := by
  cases kind with
  | group => rfl
  | single expression captures => exact captureTrees_congr _ h
  | enclosed enclosure =>
      rw [RuleKind.captures, captureRules_append] at h
      rw [kindTrees, kindTrees,
        captureTrees_congr _ fun id hid => h id (List.mem_append_left _ hid),
        captureTrees_congr _ fun id hid => h id (List.mem_append_right _ hid)]

/-- Nothing is left out when there is room for as many rules within one another as there are smaller
numbers. -/
theorem patternTrees_eq (hforest : grammar.Forest) {bound nesting others : Nat}
    (hpatterns : ∀ id ∈ ruleIds patterns, id < bound) (hnesting : bound < nesting)
    (hothers : bound < others) :
    grammar.patternTrees nesting patterns = grammar.patternTrees others patterns := by
  induction nesting generalizing bound others patterns with
  | zero => contradiction
  | succ nesting ih =>
      obtain ⟨others, rfl⟩ := Nat.exists_eq_add_one_of_ne_zero (Nat.ne_zero_of_lt hothers)
      rw [patternTrees, patternTrees]
      refine List.filterMap_congr fun pattern hpattern => ?_
      cases pattern with
      | reference reference => rfl
      | rule id =>
          have hid := hpatterns id (mem_ruleIds.mpr hpattern)
          have hnestingId : id < nesting := Nat.lt_of_lt_of_le hid (Nat.le_of_lt_succ hnesting)
          have hothersId : id < others := Nat.lt_of_lt_of_le hid (Nat.le_of_lt_succ hothers)
          cases hrule : grammar.rules[id]? with
          | none => simp only [hrule, Option.map_none]
          | some rule =>
              have hinner : ∀ inner ∈ rule.uses, inner < id := fun inner hinner =>
                hforest.lt_of_liesIn ⟨rule, hrule, hinner⟩
              have hgroups : ∀ group ∈ captureRules rule.kind.captures,
                  grammar.patternTrees nesting (grammar.patternsOf group) =
                    grammar.patternTrees others (grammar.patternsOf group) := by
                intro group hgroup
                have hlt := hinner group (List.mem_append_left _ hgroup)
                exact ih (fun inner hmem => hforest.lt_of_liesIn (liesIn_of_mem_patternsOf hmem))
                  (Nat.lt_trans hlt hnestingId) (Nat.lt_trans hlt hothersId)
              have hrest : grammar.patternTrees nesting rule.patterns =
                  grammar.patternTrees others rule.patterns :=
                ih (fun inner hmem => hinner inner (List.mem_append_right _ hmem)) hnestingId
                  hothersId
              simp only [hrule, Option.map_some, kindTrees_congr hgroups, hrest]

end Forest

/-! ## Lookups -/

def Lists (grammar : Grammar) (id : RuleId) : Prop := ∃ rule, grammar.rules[id]? = some rule

theorem Forest.lists_of_mem_uses (hforest : grammar.Forest) (h : id ∈ grammar.uses) :
    grammar.Lists id := by
  have hlisted : ∀ patterns ∈ grammar.patternLists, id ∈ ruleIds patterns → grammar.Lists id := by
    intro patterns hpatterns hid
    obtain ⟨rule, hrule, -⟩ := hforest.patterns _
      (List.mem_flatten.mpr ⟨patterns, hpatterns, mem_ruleIds.mp hid⟩)
    exact ⟨rule, hrule⟩
  rcases List.mem_append.mp h with h | h
  · obtain ⟨rule, hrule, hid⟩ := List.mem_flatMap.mp h
    rcases List.mem_append.mp hid with hid | hid
    · obtain ⟨group, hgroup, -⟩ :=
        (hforest.captures rule (Array.mem_toList_iff.mp hrule)).rules id hid
      exact ⟨group, hgroup⟩
    · exact hlisted rule.patterns (List.mem_append_left _ (List.mem_map.mpr ⟨rule, hrule, rfl⟩)) hid
  · obtain ⟨repository, hrepository, hid⟩ := List.mem_flatMap.mp h
    obtain ⟨entry, hentry, hid⟩ := List.mem_flatMap.mp hid
    exact hlisted entry.2 (List.mem_append_right _ (List.mem_flatMap.mpr
      ⟨repository, hrepository, List.mem_map.mpr ⟨entry, hentry, rfl⟩⟩)) hid

theorem Forest.lt_root_of_mem_uses (hforest : grammar.Forest) (h : id ∈ grammar.uses) :
    id < grammar.root := by
  obtain ⟨rule, hrule⟩ := hforest.lists_of_mem_uses h
  have hlt := (Array.getElem?_eq_some_iff.mp hrule).1
  rw [hforest.root] at hlt
  exact Nat.lt_of_le_of_ne (Nat.le_of_lt_succ hlt) fun heq => hforest.root_unused (heq ▸ h)

/-- Every number that a scan looks up is that of a rule: those of the frames it begins with, of what
may match in them, and of the frames that a step adds. -/
structure FindsRules (grammar : Grammar) : Prop where
  initial : ∀ frame ∈ (State.initial grammar).frames, grammar.Lists frame.rule
  captured : ∀ rule ∈ grammar.rules, ∀ id ∈ captureRules rule.kind.captures, grammar.Lists id
  candidates : ∀ rule candidates, grammar.candidates rule = .ok candidates →
    ∀ id ∈ candidates, grammar.Lists id
  step : ∀ (scan : Scan) scanCapture cursor next, scan.grammar = grammar →
    scan.step scanCapture cursor = .ok (some next) →
    (∀ frame ∈ cursor.frames, grammar.Lists frame.rule) →
    ∀ frame ∈ next.frames, grammar.Lists frame.rule

theorem Forest.findsRules (hforest : grammar.Forest) : grammar.FindsRules where
  initial frame hframe := by
    rw [List.mem_singleton.mp hframe]
    exact ⟨_, Array.getElem?_eq_getElem (hforest.root ▸ Nat.lt_succ_self _)⟩
  captured rule hrule id hid := hforest.lists_of_mem_uses (List.mem_append_left _
    (List.mem_flatMap.mpr ⟨rule, Array.mem_toList_iff.mpr hrule, List.mem_append_left _ hid⟩))
  candidates rule candidates hcandidates id hid := by
    have hleads := (mem_candidates hcandidates).mp hid
    obtain ⟨found, hfound, -⟩ := hforest.patterns _
      (hleads.mem_patternLists fun _ hpattern => mem_flatten_of_patternsOf hpattern)
    exact ⟨found, hfound⟩
  step scan scanCapture cursor next hgrammar hstep hframes := by
    subst hgrammar
    cases Scan.stepped_of_step hstep with
    | closes hinside hcursor hfound hstream =>
        rw [Scan.advance_frames]
        rw [hcursor] at hframes
        exact fun frame hframe => hframes frame (List.mem_cons_of_mem _ hframe)
    | passes hinside hcursor hfound hrule hkind hstream =>
        rw [Scan.advance_frames]
        exact hframes
    | opens hinside hcursor hfound hrule hkind hstream =>
        rw [Scan.advance_frames]
        refine List.forall_mem_cons.mpr ⟨?_, hframes⟩
        cases hforest.numbered _ _ hrule
        exact ⟨_, hrule⟩

/-! ## The whole listing -/

def treeWithin (grammar : Grammar) (nesting : Nat) : Tree :=
  .node grammar.title [
    .node "patterns" (grammar.patternTrees nesting (grammar.patternsOf grammar.root)),
    .node "repository" (grammar.topEntries.map fun (name, patterns) =>
      .node name (grammar.patternTrees nesting patterns))]

theorem Forest.treeWithin_eq (hforest : grammar.Forest) {nesting : Nat}
    (hnesting : grammar.rules.size ≤ nesting) : grammar.treeWithin nesting = grammar.tree := by
  have hroot : grammar.root < grammar.rules.size := hforest.root ▸ Nat.lt_succ_self _
  have hpatterns : ∀ patterns, (∀ id ∈ ruleIds patterns, id < grammar.root) →
      grammar.patternTrees nesting patterns = grammar.patternTrees grammar.rules.size patterns :=
    fun patterns h => hforest.patternTrees_eq h (Nat.lt_of_lt_of_le hroot hnesting) hroot
  have hbelow : ∀ id ∈ entryRules grammar, id < grammar.root := fun id hid =>
    hforest.lt_root_of_mem_uses
      (List.mem_append_right _ ((entryRules_sublist grammar).subset hid))
  have hentries : (grammar.topEntries.map fun (name, patterns) =>
        Tree.node name (grammar.patternTrees nesting patterns)) =
      grammar.topEntries.map fun (name, patterns) =>
        .node name (grammar.patternTrees grammar.rules.size patterns) := by
    refine List.map_congr_left fun (name, patterns) hentry => ?_
    have hsame := hpatterns patterns fun id hid =>
      hbelow id (List.mem_flatMap.mpr ⟨_, hentry, hid⟩)
    exact congrArg (Tree.node name) hsame
  rw [treeWithin, tree, hentries,
    hpatterns _ fun id hid => hforest.lt_of_liesIn (liesIn_of_mem_patternsOf hid)]

/-- The rules of a compiled grammar form a forest.  So no number that a scan looks up is missing, a
listing comes to an end, and each of its lines is that of one item, no rule twice. -/
theorem rules_form_forest {definition : GrammarDefinition}
    (h : ofDefinition definition = .ok grammar) :
    grammar.Forest ∧ grammar.FindsRules ∧
    (∀ nesting, grammar.rules.size ≤ nesting → grammar.treeWithin nesting = grammar.tree) ∧
    List.Forall₂ Tree.Shows grammar.tree.lines (grammar.items.map grammar.itemLabel) ∧
    (grammar.items.filterMap Item.rule?).Nodup := by
  have hforest := forest_of_ofDefinition h
  refine ⟨hforest, hforest.findsRules, fun nesting hnesting => hforest.treeWithin_eq hnesting, ?_,
    hforest.nodup_items⟩
  rw [← labels_tree]
  exact Tree.lines_show grammar.tree

def brackets : GrammarDefinition where
  scopeName := "source"
  patterns := [{
    beginSource := some "(\\()a"
    endSource := some "(\\))"
    captures := some [("1", { patterns := some [{ matchSource := some "." }] })]
    patterns := some [{ patterns := some [{ matchSource := some "b" }, { reference := some "#c" }] }] }]
  repository := [("c", { matchSource := some "c" })]

def bracketGrammar : Grammar := (ofDefinition brackets).toOption.getD default

theorem brackets_form_forest :
    bracketGrammar.Forest ∧ bracketGrammar.FindsRules ∧
    bracketGrammar.items.filterMap Item.rule? = [6, 2, 4, 1, 0] ∧
    bracketGrammar.treeWithin 10 = bracketGrammar.tree := by
  have hgrammar : ofDefinition brackets = .ok bracketGrammar := rfl
  obtain ⟨hforest, hfinds, htree, -, -⟩ := rules_form_forest hgrammar
  exact ⟨hforest, hfinds, by decide +kernel, htree 10 (by decide +kernel)⟩

end Grammar

end ScopeLexer
