import Mathlib.Data.List.Nodup
import ScopeLexer.Proofs.Grammar.References

/-!
# Lists that are expanded once

`Grammar.expand` opens each list once.  A reference to a list that was opened before adds nothing,
even when that list is itself still being expanded, or was expanded while another one was.  The plain
expansion replaces every reference by what it stands for, except within itself, and may come to a
list many times; but nothing that it finds then is new.

A list is closed, or on the path of lists that are being expanded, or else settled: its rules were
found, and its references lead to no closed list.  So the lists behind a settled one are settled or
on the path.
-/

namespace ScopeLexer.Grammar

open Compilation Outcome

variable {grammar : Grammar} {path closed later : List Origin} {found ids : List RuleId}
  {patterns rest : List Pattern} {origin : Origin} {id : RuleId}

/-! ## The plain expansion -/

theorem mem_origins_of_lookup? {id : RepositoryId} {name : String}
    (h : grammar.lookup? id name = some (origin, patterns)) : origin ∈ grammar.origins := by
  fun_induction grammar.lookup? id name with
  | case1 => contradiction
  | case2 id repository hrepository entryName entryPatterns hentry =>
      cases h
      have hname : entryName = name := by simpa using List.find?_some hentry
      have hsize := (Array.getElem?_eq_some_iff.mp hrepository).1
      refine List.mem_cons_of_mem _ (List.mem_flatMap.mpr ⟨id, List.mem_range.mpr hsize, ?_⟩)
      rw [hrepository, ← hname]
      exact List.mem_map_of_mem (List.mem_of_find?_eq_some hentry)
  | case3 => contradiction
  | case4 id repository hrepository hentry parent hparent hlt ih => exact ih h
  | case5 => contradiction

theorem mem_origins_of_locate? {reference : Reference}
    (h : grammar.locate? reference = some (origin, patterns)) : origin ∈ grammar.origins := by
  have hroot : Origin.root ∈ grammar.origins := List.mem_cons_self
  unfold locate? at h
  split at h
  · cases h
    exact hroot
  · cases h
    exact hroot
  · exact mem_origins_of_lookup? h
  · split at h
    · split at h
      · exact mem_origins_of_lookup? h
      · cases h
        exact hroot
    · contradiction

def offPath (grammar : Grammar) (path : List Origin) : Nat :=
  (grammar.origins.removeAll path).length

theorem offPath_cons_lt (horigin : origin ∈ grammar.origins) (hpath : origin ∉ path) :
    grammar.offPath (origin :: path) < grammar.offPath path := by
  have hless : grammar.origins.removeAll (origin :: path) =
      (grammar.origins.removeAll path).filter (· != origin) := by
    simp only [List.removeAll, List.filter_filter]
    congr 1
    funext other
    change (!(other == origin || path.elem other)) = _
    rw [Bool.not_or]
    rfl
  rw [offPath, hless]
  refine List.length_filter_lt_length_iff_exists.mpr ⟨origin, ?_, by simp⟩
  simpa [List.removeAll] using ⟨horigin, hpath⟩

/-- Every reference is replaced by what it stands for, or by nothing within itself.  `path` are the
lists around the patterns. -/
def plainExpansion (grammar : Grammar) (path : List Origin) :
    List Pattern → Except Unresolved (List RuleId)
  | [] => .ok []
  | .rule id :: rest => (grammar.plainExpansion path rest).map (id :: ·)
  | .reference reference :: rest =>
      match _ : grammar.locate? reference with
      | none => .error ⟨reference⟩
      | some (origin, patterns) =>
          if origin ∈ path then grammar.plainExpansion path rest
          else
            match grammar.plainExpansion (origin :: path) patterns with
            | .error unresolved => .error unresolved
            | .ok included => (grammar.plainExpansion path rest).map (included ++ ·)
termination_by patterns => (grammar.offPath path, patterns.length)
decreasing_by
  · simp [Prod.lex_def]
  · simp [Prod.lex_def]
  · next hlocate hpath =>
    exact Prod.Lex.left _ _ (offPath_cons_lt (mem_origins_of_locate? hlocate) hpath)
  · simp [Prod.lex_def]

/-! ## Collecting -/

def collect (found ids : List RuleId) : List RuleId :=
  ids.foldl (fun found id => found.insert id) found

theorem mem_collect : id ∈ collect found ids ↔ id ∈ found ∨ id ∈ ids := by
  induction ids generalizing found with
  | nil => simp [collect]
  | cons first ids ih =>
      change id ∈ collect (found.insert first) ids ↔ _
      rw [ih, List.mem_insert_iff, List.mem_cons, or_assoc, or_left_comm]

theorem collect_of_subset (h : ∀ id ∈ ids, id ∈ found) : collect found ids = found := by
  induction ids with
  | nil => rfl
  | cons first ids ih =>
      obtain ⟨hfirst, hids⟩ := List.forall_mem_cons.mp h
      change collect (found.insert first) ids = found
      rw [List.insert_of_mem hfirst, ih hids]

theorem nodup_collect (h : found.Nodup) : (collect found ids).Nodup := by
  induction ids generalizing found with
  | nil => exact h
  | cons first ids ih => exact ih h.insert

theorem reverse_collect_nil (ids : List RuleId) : (collect [] ids).reverse = ids.eraseDups := by
  have hloop (found : List RuleId) :
      (collect found ids).reverse = List.eraseDupsBy.loop (· == ·) ids found := by
    induction ids generalizing found with
    | nil => rfl
    | cons first ids ih =>
        change (collect (found.insert first) ids).reverse = _
        rw [ih, List.insert, List.eraseDupsBy.loop, List.any_beq]
        cases found.contains first <;> rfl
  exact hloop []

/-! ## Closed, open and settled lists -/

def SettledPattern (grammar : Grammar) (closed : List Origin) (found : List RuleId) :
    Pattern → Prop
  | .rule id => id ∈ found
  | .reference reference => ∃ origin patterns,
      grammar.locate? reference = some (origin, patterns) ∧ origin ∉ closed

def Settled (grammar : Grammar) (closed : List Origin) (found : List RuleId)
    (patterns : List Pattern) : Prop :=
  ∀ pattern ∈ patterns, grammar.SettledPattern closed found pattern

/-- An expansion is within the lists of a path; every other list is closed or settled. -/
structure Underway (grammar : Grammar) (path closed : List Origin) (found : List RuleId) :
    Prop where
  open_of_path : ∀ origin ∈ path, origin ∉ closed
  settled : ∀ origin ∈ grammar.origins, origin ∉ closed → origin ∉ path →
    grammar.Settled closed found (grammar.patternsAt origin)

theorem SettledPattern.mono {pattern : Pattern} {more : List RuleId}
    (h : grammar.SettledPattern closed found pattern) (hclosed : ∀ origin ∈ later, origin ∈ closed)
    (hfound : ∀ id ∈ found, id ∈ more) : grammar.SettledPattern later more pattern := by
  cases pattern with
  | rule id => exact hfound id h
  | reference reference =>
      obtain ⟨origin, patterns, hlocate, hopen⟩ := h
      exact ⟨origin, patterns, hlocate, fun hmem => hopen (hclosed origin hmem)⟩

theorem Underway.enter (h : grammar.Underway path closed found) :
    grammar.Underway (origin :: path) (closed.removeAll [origin]) found where
  open_of_path other hother hmem := by
    rw [List.removeAll, List.mem_filter] at hmem
    rcases List.mem_cons.mp hother with rfl | hpath
    · simp at hmem
    · exact h.open_of_path other hpath hmem.1
  settled other hother hclosed hpath := by
    rw [List.mem_cons, not_or] at hpath
    have hopen : other ∉ closed := fun hmem =>
      hclosed (List.mem_filter.mpr ⟨hmem, by simpa using hpath.1⟩)
    intro pattern hpattern
    refine (h.settled other hother hopen hpath.2 pattern hpattern).mono ?_ fun _ hid => hid
    exact fun _ hmem => (List.mem_filter.mp hmem).1

theorem Underway.leave (h : grammar.Underway (origin :: path) closed found)
    (hsettled : grammar.Settled closed found (grammar.patternsAt origin)) :
    grammar.Underway path closed found where
  open_of_path other hother := h.open_of_path other (List.mem_cons_of_mem _ hother)
  settled other hother hclosed hpath := by
    by_cases htop : other = origin
    · rw [htop]
      exact hsettled
    · refine h.settled other hother hclosed ?_
      simp [htop, hpath]

theorem Underway.insert (h : grammar.Underway path closed found) (id : RuleId) :
    grammar.Underway path closed (found.insert id) where
  open_of_path := h.open_of_path
  settled origin horigin hclosed hpath pattern hpattern :=
    (h.settled origin horigin hclosed hpath pattern hpattern).mono (fun _ hmem => hmem)
      fun _ hmem => List.mem_insert_of_mem hmem

theorem Underway.settled_of_open (h : grammar.Underway path closed found) {reference : Reference}
    (hlocate : grammar.locate? reference = some (origin, patterns)) (hopen : origin ∉ closed)
    (hpath : origin ∉ path) : grammar.Settled closed found patterns := by
  have hsettled := h.settled origin (mem_origins_of_locate? hlocate) hopen hpath
  rwa [patternsAt_of_locate? hlocate] at hsettled

theorem plainExpansion_of_settled (h : grammar.Underway path closed found) {wider : List Origin}
    (hwider : ∀ origin ∈ path, origin ∈ wider) (hsettled : grammar.Settled closed found patterns) :
    ∃ ids, grammar.plainExpansion wider patterns = .ok ids ∧ ∀ id ∈ ids, id ∈ found := by
  fun_induction grammar.plainExpansion wider patterns with
  | case1 => exact ⟨[], rfl, by simp⟩
  | case2 wider id rest ih =>
      obtain ⟨hid, hrest⟩ := List.forall_mem_cons.mp hsettled
      obtain ⟨ids, hids, hfound⟩ := ih hwider hrest
      refine ⟨id :: ids, by rw [hids]; rfl, ?_⟩
      exact List.forall_mem_cons.mpr ⟨hid, hfound⟩
  | case3 wider reference rest hlocate =>
      obtain ⟨⟨origin, patterns, hlocated, -⟩, -⟩ := List.forall_mem_cons.mp hsettled
      rw [hlocated] at hlocate
      contradiction
  | case4 wider reference rest origin patterns hlocate hpath ih =>
      exact ih hwider (List.forall_mem_cons.mp hsettled).2
  | case5 wider reference rest origin patterns hlocate hpath unresolved hincluded ih =>
      obtain ⟨⟨other, others, hother, hopen⟩, -⟩ := List.forall_mem_cons.mp hsettled
      cases hother.symm.trans hlocate
      have hinner := h.settled_of_open hlocate hopen fun hmem => hpath (hwider _ hmem)
      obtain ⟨ids, hids, -⟩ := ih (fun _ hmem => List.mem_cons_of_mem _ (hwider _ hmem)) hinner
      rw [hids] at hincluded
      contradiction
  | case6 wider reference rest origin patterns hlocate hpath included hincluded ih ihrest =>
      obtain ⟨⟨other, others, hother, hopen⟩, hrest⟩ := List.forall_mem_cons.mp hsettled
      cases hother.symm.trans hlocate
      have hinner := h.settled_of_open hlocate hopen fun hmem => hpath (hwider _ hmem)
      obtain ⟨ids, hids, hfound⟩ := ih (fun _ hmem => List.mem_cons_of_mem _ (hwider _ hmem)) hinner
      cases hincluded.symm.trans hids
      obtain ⟨more, hmore, hmoreFound⟩ := ihrest hwider hrest
      refine ⟨included ++ more, by rw [hmore]; rfl, ?_⟩
      exact List.forall_mem_append.mpr ⟨hfound, hmoreFound⟩

/-! ## Both expansions -/

theorem expand_rule (closed : List Origin) (found : List RuleId) (id : RuleId)
    (rest : List Pattern) :
    grammar.expand closed found (.rule id :: rest) =
      grammar.expand closed (found.insert id) rest := by
  rw [expand, List.insert]
  split <;> rfl

theorem expand_reference {reference : Reference}
    (hlocate : grammar.locate? reference = some (origin, patterns)) (rest : List Pattern) :
    grammar.expand closed found (.reference reference :: rest) =
      if origin ∈ closed then
        grammar.expand (closed.removeAll [origin]) found (patterns ++ rest)
      else grammar.expand closed found rest := by
  rw [expand]
  split
  · next hnone => simp [hnone] at hlocate
  · next hother =>
    cases hlocate.symm.trans hother
    rfl

/-- An expansion finds what the plain expansion finds, whatever is left to expand behind. -/
def Agrees (grammar : Grammar) (path closed : List Origin) (found : List RuleId)
    (patterns : List Pattern) : Except Unresolved (List RuleId) → Prop
  | .error unresolved => ∀ rest,
      grammar.expand closed found (patterns ++ rest) = .error unresolved
  | .ok ids => ∃ later, (∀ origin ∈ later, origin ∈ closed) ∧
      (∀ rest, grammar.expand closed found (patterns ++ rest) =
        grammar.expand later (collect found ids) rest) ∧
      grammar.Underway path later (collect found ids) ∧
      grammar.Settled later (collect found ids) patterns

theorem Agrees.cons {pattern : Pattern} {middle : List Origin} {included : List RuleId}
    {result : Except Unresolved (List RuleId)} (hmiddle : ∀ origin ∈ middle, origin ∈ closed)
    (hexpand : ∀ more, grammar.expand closed found (pattern :: more) =
      grammar.expand middle (collect found included) more)
    (hsettled : grammar.SettledPattern middle (collect found included) pattern)
    (h : grammar.Agrees path middle (collect found included) rest result) :
    grammar.Agrees path closed found (pattern :: rest) (result.map (included ++ ·)) := by
  cases result with
  | error unresolved =>
      intro more
      rw [List.cons_append, hexpand]
      exact h more
  | ok ids =>
      obtain ⟨later, hlater, hrest, hunderway, hsettledRest⟩ := h
      have hcollect : collect found (included ++ ids) = collect (collect found included) ids :=
        List.foldl_append
      change ∃ later, _
      rw [hcollect]
      refine ⟨later, fun origin hmem => hmiddle origin (hlater origin hmem), ?_, hunderway, ?_⟩
      · intro more
        rw [List.cons_append, hexpand, hrest]
      · refine List.forall_mem_cons.mpr ⟨hsettled.mono hlater fun id hid => ?_, hsettledRest⟩
        exact mem_collect.mpr (.inl hid)

theorem agrees_plainExpansion (h : grammar.Underway path closed found) :
    grammar.Agrees path closed found patterns (grammar.plainExpansion path patterns) := by
  fun_induction grammar.plainExpansion path patterns generalizing closed found with
  | case1 path => exact ⟨closed, fun _ hmem => hmem, fun _ => rfl, h, by simp [Settled]⟩
  | case2 path id rest ih =>
      have hid : grammar.SettledPattern closed (collect found [id]) (.rule id) :=
        List.mem_insert_self
      have hrest : grammar.Agrees path closed (collect found [id]) rest
          (grammar.plainExpansion path rest) := ih (h.insert id)
      exact Agrees.cons (fun _ hmem => hmem) (fun more => expand_rule closed found id more) hid hrest
  | case3 path reference rest hlocate =>
      intro more
      rw [List.cons_append, expand]
      split
      · rfl
      · next hother => simp [hlocate] at hother
  | case4 path reference rest origin patterns hlocate hpath ih =>
      have hopen := h.open_of_path origin hpath
      have hskip (more : List Pattern) : grammar.expand closed found (.reference reference :: more) =
          grammar.expand closed found more := by
        rw [expand_reference hlocate, if_neg hopen]
      have hnothing (result : Except Unresolved (List RuleId)) :
          result.map (([] : List RuleId) ++ ·) = result := by
        cases result <;> rfl
      rw [← hnothing (grammar.plainExpansion path rest)]
      exact Agrees.cons (fun _ hmem => hmem) hskip ⟨origin, patterns, hlocate, hopen⟩ (ih h)
  | case5 path reference rest origin patterns hlocate hpath unresolved hincluded ih =>
      by_cases hclosed : origin ∈ closed
      · have hinner := ih h.enter
        rw [hincluded] at hinner
        intro more
        rw [List.cons_append, expand_reference hlocate, if_pos hclosed]
        exact hinner (rest ++ more)
      · have hsettled := h.settled_of_open hlocate hclosed hpath
        obtain ⟨ids, hids, -⟩ :=
          plainExpansion_of_settled h (fun _ hmem => List.mem_cons_of_mem origin hmem) hsettled
        rw [hids] at hincluded
        contradiction
  | case6 path reference rest origin patterns hlocate hpath included hincluded ih ihrest =>
      by_cases hclosed : origin ∈ closed
      · have hinner := ih h.enter
        rw [hincluded] at hinner
        obtain ⟨later, hlater, hexpand, hunderway, hsettled⟩ := hinner
        have hopen : origin ∉ later := fun hmem => by
          have hmem := hlater origin hmem
          simp [List.removeAll] at hmem
        have hless (other : Origin) (hmem : other ∈ later) : other ∈ closed :=
          (List.mem_filter.mp (hlater other hmem)).1
        refine Agrees.cons hless (fun more => ?_) ⟨origin, patterns, hlocate, hopen⟩ (ihrest ?_)
        · rw [expand_reference hlocate, if_pos hclosed, hexpand]
        · refine hunderway.leave ?_
          rwa [patternsAt_of_locate? hlocate]
      · -- the list was settled before, so the plain expansion only finds what was found
        have hsettled := h.settled_of_open hlocate hclosed hpath
        obtain ⟨ids, hids, hfound⟩ :=
          plainExpansion_of_settled h (fun _ hmem => List.mem_cons_of_mem origin hmem) hsettled
        cases hincluded.symm.trans hids
        have hsame := collect_of_subset hfound
        refine Agrees.cons (fun _ hmem => hmem) (fun more => ?_) ⟨origin, patterns, hlocate, hclosed⟩ ?_
        · rw [expand_reference hlocate, if_neg hclosed, hsame]
        · rw [hsame]
          exact ihrest h

/-! ## Candidates -/

def startPath (grammar : Grammar) (rule : RuleId) : List Origin :=
  if rule = grammar.root then [.root] else []

theorem exists_start (rule : RuleId) : ∃ closed,
    grammar.Underway (grammar.startPath rule) closed [] ∧
      grammar.candidates rule = grammar.expand closed [] (grammar.patternsOf rule) := by
  refine ⟨_, ?_, rfl⟩
  by_cases hroot : rule = grammar.root
  · simp only [startPath, hroot, if_true, beq_self_eq_true]
    refine ⟨by simp [List.removeAll], fun origin horigin hopen hpath => absurd ?_ hopen⟩
    exact List.mem_filter.mpr ⟨horigin, by simpa using hpath⟩
  · have hne : (rule == grammar.root) = false := beq_false_of_ne hroot
    simp only [startPath, hroot, hne, if_false, Bool.false_eq_true]
    exact ⟨by simp, fun origin horigin hopen => absurd horigin hopen⟩

theorem candidates_eq_plainExpansion (rule : RuleId) :
    grammar.candidates rule =
      (grammar.plainExpansion (grammar.startPath rule) (grammar.patternsOf rule)).map
        List.eraseDups := by
  obtain ⟨closed, hstart, hcandidates⟩ := grammar.exists_start rule
  have hagrees : grammar.Agrees _ closed [] (grammar.patternsOf rule) _ :=
    agrees_plainExpansion hstart
  rw [hcandidates]
  cases hplain : grammar.plainExpansion (grammar.startPath rule) (grammar.patternsOf rule) with
  | error unresolved =>
      rw [hplain] at hagrees
      have herror := hagrees []
      rwa [List.append_nil] at herror
  | ok ids =>
      rw [hplain] at hagrees
      obtain ⟨later, -, hexpand, -, -⟩ := hagrees
      have hdone := hexpand []
      rw [List.append_nil, expand, reverse_collect_nil] at hdone
      exact hdone

inductive LeadsTo (grammar : Grammar) : List Pattern → RuleId → Prop where
  | rule {patterns : List Pattern} {id : RuleId} (hmem : .rule id ∈ patterns) :
      LeadsTo grammar patterns id
  | reference {patterns included : List Pattern} {reference : Reference} {origin : Origin}
      {id : RuleId} (hmem : .reference reference ∈ patterns)
      (hlocate : grammar.locate? reference = some (origin, included))
      (hincluded : LeadsTo grammar included id) : LeadsTo grammar patterns id

theorem LeadsTo.mono {more : List Pattern} (h : grammar.LeadsTo patterns id)
    (hmore : ∀ pattern ∈ patterns, pattern ∈ more) : grammar.LeadsTo more id := by
  cases h with
  | rule hmem => exact .rule (hmore _ hmem)
  | reference hmem hlocate hincluded => exact .reference (hmore _ hmem) hlocate hincluded

theorem leadsTo_of_mem_plainExpansion (h : grammar.plainExpansion path patterns = .ok ids)
    (hid : id ∈ ids) : grammar.LeadsTo patterns id := by
  have htail {pattern : Pattern} {rest : List Pattern} (h : grammar.LeadsTo rest id) :
      grammar.LeadsTo (pattern :: rest) id := h.mono fun _ hmem => List.mem_cons_of_mem _ hmem
  fun_induction grammar.plainExpansion path patterns generalizing ids with
  | case1 =>
      cases h
      contradiction
  | case2 path first rest ih =>
      obtain ⟨others, hothers, rfl⟩ := map_eq_ok.mp h
      rcases List.mem_cons.mp hid with rfl | hid
      · exact .rule List.mem_cons_self
      · exact htail (ih hothers hid)
  | case3 => contradiction
  | case4 path reference rest origin patterns hlocate hpath ih => exact htail (ih h hid)
  | case5 => contradiction
  | case6 path reference rest origin patterns hlocate hpath included hincluded ih ihrest =>
      obtain ⟨others, hothers, rfl⟩ := map_eq_ok.mp h
      rcases List.mem_append.mp hid with hid | hid
      · exact .reference List.mem_cons_self hlocate (ih hincluded hid)
      · exact htail (ihrest hothers hid)

theorem LeadsTo.mem_of_settled (h : grammar.LeadsTo patterns id)
    (hopen : ∀ origin ∈ grammar.origins, origin ∉ closed →
      grammar.Settled closed found (grammar.patternsAt origin))
    (hsettled : grammar.Settled closed found patterns) : id ∈ found := by
  induction h with
  | rule hmem => exact hsettled _ hmem
  | reference hmem hlocate hincluded ih =>
      obtain ⟨other, others, hother, hclosed⟩ := hsettled _ hmem
      cases hother.symm.trans hlocate
      have hsettled := hopen _ (mem_origins_of_locate? hlocate) hclosed
      rw [patternsAt_of_locate? hlocate] at hsettled
      exact ih hsettled

theorem LeadsTo.mem_patternLists (h : grammar.LeadsTo patterns id)
    (hpatterns : ∀ pattern ∈ patterns, pattern ∈ grammar.patternLists.flatten) :
    .rule id ∈ grammar.patternLists.flatten := by
  induction h with
  | rule hmem => exact hpatterns _ hmem
  | reference hmem hlocate hincluded ih =>
      refine ih fun pattern hpattern => ?_
      rw [← patternsAt_of_locate? hlocate] at hpattern
      exact mem_flatten_of_patternsAt hpattern

theorem settled_of_candidates {rule : RuleId} (h : grammar.candidates rule = .ok ids) :
    ∃ closed, grammar.Settled closed ids (grammar.patternsOf rule) ∧
      ∀ origin ∈ grammar.origins, origin ∉ closed →
        grammar.Settled closed ids (grammar.patternsAt origin) := by
  obtain ⟨start, hstart, hcandidates⟩ := grammar.exists_start rule
  have hagrees : grammar.Agrees _ start [] (grammar.patternsOf rule) _ :=
    agrees_plainExpansion hstart
  obtain ⟨plain, hplain, rfl⟩ := map_eq_ok.mp (candidates_eq_plainExpansion rule ▸ h)
  rw [hplain] at hagrees
  obtain ⟨closed, -, -, hunderway, hsettled⟩ := hagrees
  have hfound (patterns : List Pattern) (h : grammar.Settled closed (collect [] plain) patterns) :
      grammar.Settled closed plain.eraseDups patterns := by
    refine fun pattern hpattern => (h pattern hpattern).mono (fun _ hmem => hmem) fun id hid => ?_
    rwa [← reverse_collect_nil, List.mem_reverse]
  refine ⟨closed, hfound _ hsettled, fun origin horigin hopen => hfound _ ?_⟩
  by_cases hpath : origin ∈ grammar.startPath rule
  · unfold startPath at hpath
    split at hpath
    · next hroot =>
      rw [List.mem_singleton.mp hpath]
      rwa [hroot] at hsettled
    · contradiction
  · exact hunderway.settled origin horigin hopen hpath

theorem mem_candidates {rule : RuleId} (h : grammar.candidates rule = .ok ids) :
    id ∈ ids ↔ grammar.LeadsTo (grammar.patternsOf rule) id := by
  constructor
  · intro hid
    obtain ⟨plain, hplain, rfl⟩ := map_eq_ok.mp (candidates_eq_plainExpansion rule ▸ h)
    exact leadsTo_of_mem_plainExpansion hplain (List.mem_eraseDups.mp hid)
  · intro hleads
    obtain ⟨closed, hsettled, hopen⟩ := settled_of_candidates h
    exact hleads.mem_of_settled hopen hsettled

theorem nodup_candidates {rule : RuleId} (h : grammar.candidates rule = .ok ids) : ids.Nodup := by
  obtain ⟨plain, -, rfl⟩ := map_eq_ok.mp (candidates_eq_plainExpansion rule ▸ h)
  rw [← reverse_collect_nil, List.nodup_reverse]
  exact nodup_collect List.nodup_nil

/-! ## Rules that match -/

def Matchable (rules : Array Rule) : Pattern → Prop
  | .rule id => ∃ rule, rules[id]? = some rule ∧ rule.kind ≠ .group
  | .reference _ => True

theorem matchable_kept : Kept (AllFine Matchable) Matchable :=
  allFine_kept
    (fun {_ _ pattern} hrules h => by
      cases pattern with
      | rule id =>
          obtain ⟨rule, hrule, hkind⟩ := h
          exact ⟨rule, hrules id rule hrule, hkind⟩
      | reference => trivial)
    fun hrule hkind => ⟨_, hrule, hkind⟩

theorem matchable_of_ofDefinition {definition : GrammarDefinition} {pattern : Pattern}
    (h : ofDefinition definition = .ok grammar) (hmem : pattern ∈ grammar.patternLists.flatten) :
    Matchable grammar.rules pattern :=
  fine_of_mem_patternLists
    (ofDefinition_kept matchable_kept ⟨by simp, by simp⟩ (fun _ _ _ _ _ _ => trivial) h) hmem

/-- The candidates of a rule are what the plain expansion finds, each where it comes first: all rules
that the patterns lead to, each once, and only rules that match. -/
theorem candidates_as_plainly_expanded {definition : GrammarDefinition}
    (h : ofDefinition definition = .ok grammar) (rule : RuleId) :
    grammar.candidates rule =
      (grammar.plainExpansion (grammar.startPath rule) (grammar.patternsOf rule)).map
        List.eraseDups ∧
    ∀ candidates, grammar.candidates rule = .ok candidates →
      candidates.Nodup ∧
      (∀ id, id ∈ candidates ↔ grammar.LeadsTo (grammar.patternsOf rule) id) ∧
      ∀ id ∈ candidates, ∃ rule, grammar.rules[id]? = some rule ∧ rule.kind ≠ .group := by
  refine ⟨candidates_eq_plainExpansion rule, fun candidates hcandidates => ?_⟩
  refine ⟨nodup_candidates hcandidates, fun id => mem_candidates hcandidates, fun id hid => ?_⟩
  have hleads := (mem_candidates hcandidates).mp hid
  have hmem := hleads.mem_patternLists fun _ hpattern => mem_flatten_of_patternsOf hpattern
  exact matchable_of_ofDefinition h hmem

def cyclic : GrammarDefinition where
  scopeName := "source"
  patterns := [{ reference := some "#a" }, { matchSource := some "x" }]
  repository := [
    ("a", { patterns := some [
      { reference := some "#b" }, { matchSource := some "y" }, { reference := some "$self" }] }),
    ("b", { patterns := some [
      { matchSource := some "z" }, { reference := some "#a" }, { matchSource := some "w" }] })]

def cyclicGrammar : Grammar := (ofDefinition cyclic).toOption.getD default

theorem cyclic_as_plainly_expanded :
    (cyclicGrammar.plainExpansion [.root] (cyclicGrammar.patternsOf cyclicGrammar.root)).map
      List.eraseDups = .ok [1, 2, 0, 3] ∧
    ∀ id, cyclicGrammar.LeadsTo (cyclicGrammar.patternsOf cyclicGrammar.root) id ↔
      id ∈ [1, 2, 0, 3] := by
  have hgrammar : ofDefinition cyclic = .ok cyclicGrammar := rfl
  have hcandidates : cyclicGrammar.candidates cyclicGrammar.root = .ok [1, 2, 0, 3] := by
    decide +kernel
  have hstart : cyclicGrammar.startPath cyclicGrammar.root = [.root] := if_pos rfl
  obtain ⟨hplain, hfound⟩ := candidates_as_plainly_expanded hgrammar cyclicGrammar.root
  obtain ⟨-, hleads, -⟩ := hfound _ hcandidates
  rw [hcandidates, hstart] at hplain
  exact ⟨hplain.symm, fun id => (hleads id).symm⟩

end ScopeLexer.Grammar
