import ScopeLexer.Grammar.OfDefinition
import ScopeLexer.Proofs.Outcome

/-!
# Locations in a definition

The location of a report leads from the definition, through its fields, elements and entries, to
the part that the report is about.  One field is told wrongly: the captures that a rule reads in
place of missing `beginCaptures` or `endCaptures` are located in the field that is missing.
-/

namespace ScopeLexer

open Outcome

/-! ## Parts and their children -/

inductive Part where
  | definition (definition : GrammarDefinition)
  | rules (rules : List RuleDefinition)
  | entries (entries : List (String × RuleDefinition))
  | rule (rule : RuleDefinition)
  | captures (captures : List (String × CaptureDefinition))
  | capture (capture : CaptureDefinition)
  | texts (texts : List String)
  | value

namespace Part

def ofField (name : String) : Option Part → List (LocationStep × Part)
  | some part => [(.field name, part)]
  | none => []

def ofText (name : String) (text : Option String) : List (LocationStep × Part) :=
  ofField name (text.map fun _ => .value)

def children : Part → List (LocationStep × Part)
  | .definition top =>
      [(.field "scopeName", .value)] ++ ofText "name" top.name
        ++ [(.field "fileTypes", .texts top.fileTypes), (.field "patterns", .rules top.patterns),
          (.field "repository", .entries top.repository)]
  | .rules list => list.zipIdx.map fun entry => (.element entry.2, .rule entry.1)
  | .entries table => table.map fun entry => (.key entry.1, .rule entry.2)
  | .rule written =>
      ofText "include" written.reference ++ ofText "name" written.name
        ++ ofText "contentName" written.contentName ++ ofText "match" written.matchSource
        ++ ofText "begin" written.beginSource ++ ofText "end" written.endSource
        ++ ofText "while" written.whileSource
        ++ ofField "captures" (written.captures.map .captures)
        ++ ofField "beginCaptures" (written.beginCaptures.map .captures)
        ++ ofField "endCaptures" (written.endCaptures.map .captures)
        ++ ofField "patterns" (written.patterns.map .rules)
        ++ ofField "repository" (written.repository.map .entries)
        ++ (if written.applyEndPatternLast then [(.field "applyEndPatternLast", .value)] else [])
  | .captures table => table.map fun entry => (.key entry.1, .capture entry.2)
  | .capture written =>
      ofText "name" written.name ++ ofField "patterns" (written.patterns.map .rules)
  | .texts list => list.zipIdx.map fun entry => (.element entry.2, .value)
  | .value => []

end Part

def RuleDefinition.FallsBack (rule : RuleDefinition) : Prop :=
  rule.beginSource.isSome ∧ rule.captures.isSome ∧
    (rule.beginCaptures = none ∨ rule.endCaptures = none)

namespace Part

def standIn (name : String) (own shared : Option (List (String × CaptureDefinition))) :
    List (LocationStep × Part) :=
  if own.isNone then ofField name (shared.map .captures) else []

def fallbacks : Part → List (LocationStep × Part)
  | .rule written =>
      if written.beginSource.isSome then
        standIn "beginCaptures" written.beginCaptures written.captures
          ++ standIn "endCaptures" written.endCaptures written.captures
      else []
  | _ => []

/-- The parts of a part, also under the names that reports give them. -/
def readAs (part : Part) : List (LocationStep × Part) := part.children ++ part.fallbacks

@[simp] theorem mem_ofField {name : String} {field : Option Part} {step : LocationStep}
    {part : Part} :
    (step, part) ∈ ofField name field ↔ step = .field name ∧ field = some part := by
  cases field with
  | none => simp [ofField]
  | some other => simp [ofField, eq_comm]

@[simp] theorem mem_ofText {name : String} {text : Option String} {step : LocationStep}
    {part : Part} :
    (step, part) ∈ ofText name text ↔ step = .field name ∧ text.isSome ∧ part = .value := by
  cases text <;> simp [ofText, eq_comm]

@[simp] theorem mem_standIn {name : String}
    {own shared : Option (List (String × CaptureDefinition))} {step : LocationStep} {part : Part} :
    (step, part) ∈ standIn name own shared ↔
      own = none ∧ step = .field name ∧ shared.map .captures = some part := by
  cases own <;> simp [standIn]

theorem fallsBack_of_mem_fallbacks {part next : Part} {step : LocationStep}
    (h : (step, next) ∈ part.fallbacks) : ∃ rule, part = .rule rule ∧ rule.FallsBack := by
  cases part with
  | rule rule =>
      refine ⟨rule, rfl, ?_⟩
      simp only [fallbacks] at h
      split at h
      · next hbegin =>
        rcases List.mem_append.mp h with h | h
        · obtain ⟨hown, -, hnext⟩ := mem_standIn.mp h
          obtain ⟨captures, hcaptures, -⟩ := Option.map_eq_some_iff.mp hnext
          exact ⟨hbegin, Option.isSome_of_eq_some hcaptures, .inl hown⟩
        · obtain ⟨hown, -, hnext⟩ := mem_standIn.mp h
          obtain ⟨captures, hcaptures, -⟩ := Option.map_eq_some_iff.mp hnext
          exact ⟨hbegin, Option.isSome_of_eq_some hcaptures, .inr hown⟩
      · simp at h
  | _ => simp [fallbacks] at h

end Part

/-! ## Ways through a definition -/

/-- The steps lead from the whole to a part, each of them to a child of the part before. -/
inductive Leads (children : Part → List (LocationStep × Part)) (whole : Part) :
    List LocationStep → Part → Prop where
  | here : Leads children whole [] whole
  | step {steps : List LocationStep} {step : LocationStep} {part next : Part}
      (h : Leads children whole steps part) (hstep : (step, next) ∈ children part) :
      Leads children whole (steps ++ [step]) next

theorem Leads.mem_of_closed {children : Part → List (LocationStep × Part)} {whole part : Part}
    {steps : List LocationStep} {ways : List (List LocationStep × Part)}
    (hhere : ([], whole) ∈ ways)
    (hclosed : ∀ way ∈ ways, ∀ child ∈ children way.2, (way.1 ++ [child.1], child.2) ∈ ways)
    (h : Leads children whole steps part) : (steps, part) ∈ ways := by
  induction h with
  | here => exact hhere
  | step _ hstep ih => exact hclosed _ ih _ hstep

def Part.ways : (depth : Nat) → Part → List (List LocationStep × Part)
  | 0, part => [([], part)]
  | depth + 1, part =>
      ([], part) :: part.children.flatMap fun child =>
        (ways depth child.2).map fun way => (child.1 :: way.1, way.2)

/-- A way that needs the other names leaves the definition at a rule that falls back. -/
theorem Leads.present_or_fallsBack {whole part : Part} {steps : List LocationStep}
    (h : Leads Part.readAs whole steps part) :
    Leads Part.children whole steps part ∨
      ∃ before rule, before <+: steps ∧ Leads Part.children whole before (.rule rule) ∧
        rule.FallsBack := by
  induction h with
  | here => exact .inl .here
  | step _ hstep ih =>
      rcases ih with hpresent | ⟨before, rule, hbefore, hrule, hfalls⟩
      · rcases List.mem_append.mp hstep with hchild | hfallback
        · exact .inl (hpresent.step hchild)
        · obtain ⟨rule, rfl, hfalls⟩ := Part.fallsBack_of_mem_fallbacks hfallback
          exact .inr ⟨_, rule, List.prefix_append .., hpresent, hfalls⟩
      · exact .inr ⟨before, rule, hbefore.trans (List.prefix_append ..), hrule, hfalls⟩

namespace Compilation

/-! ## Reports of an outcome -/

def At (whole : Part) (location : Location) (part : Part) : Prop :=
  Leads Part.readAs whole location.steps part

def Located (whole : Part) (tables : Tables) : Prop :=
  ∀ warning ∈ tables.warnings, ∃ part, At whole warning.location part

def Reports {α : Type} (whole : Part) : Except Malformed (α × Tables) → Prop
  | .error fault => ∃ part, At whole fault.location part
  | .ok (_, tables) => Located whole tables

variable {α β : Type} {whole part : Part} {location : Location} {tables : Tables}

theorem Located.addRule (h : Located whole tables) {name contentName : Option ScopeName}
    {kind : RuleKind} {patterns : List Pattern} :
    Located whole (tables.addRule name contentName kind patterns) := h

theorem Located.addRepository (h : Located whole tables) {parent : Option RepositoryId} :
    Located whole (tables.addRepository parent) := h

theorem Located.setEntries (h : Located whole tables) {id : RepositoryId}
    {entries : List (String × List Pattern)} : Located whole (tables.setEntries id entries) := h

theorem Located.warn (h : Located whole tables) (hat : At whole location part)
    (kind : WarningKind) : Located whole (tables.warn location kind) := by
  intro warning hwarning
  rcases List.mem_append.mp hwarning with hmem | hmem
  · exact h warning hmem
  · rw [List.mem_singleton.mp hmem]
    exact ⟨part, hat⟩

namespace Reports

theorem throw (hat : At whole location part) (cause : Malformation) :
    Reports whole (throw ⟨location, cause⟩ : Except Malformed (α × Tables)) :=
  ⟨part, hat⟩

theorem pure (h : Located whole tables) (value : α) :
    Reports whole (pure (value, tables) : Except Malformed (α × Tables)) := h

theorem bind {first : Except Malformed (α × Tables)}
    {next : α × Tables → Except Malformed (β × Tables)} (h : Reports whole first)
    (hnext : ∀ value tables, Located whole tables → Reports whole (next (value, tables))) :
    Reports whole (first >>= next) := by
  cases first with
  | error fault => exact h
  | ok result => exact hnext result.1 result.2 h

theorem expressionAt {compiled : Except Regex.ExpressionError Regex.Expression}
    {next : Regex.Expression → Except Malformed (β × Tables)} (hat : At whole location part)
    (hnext : ∀ expression, Reports whole (next expression)) :
    Reports whole (expressionAt location compiled >>= next) := by
  cases compiled with
  | error fault => exact ⟨part, hat⟩
  | ok expression => exact hnext expression

end Reports

/-! ## Steps into a part -/

section

variable {rule : RuleDefinition}

theorem At.field {name : String} {next : Part} (h : At whole location part)
    (hstep : (.field name, next) ∈ part.readAs) : At whole (location.field name) next :=
  Leads.step h hstep

theorem At.element {rules : List RuleDefinition} (h : At whole location (.rules rules)) {i : Nat}
    (hrule : rules[i]? = some rule) : At whole (location.element i) (.rule rule) := by
  refine Leads.step h (List.mem_append_left _ (List.mem_map.mpr ⟨(rule, i), ?_, rfl⟩))
  simpa [List.mem_zipIdx_iff_getElem?] using hrule

theorem At.entry {entries : List (String × RuleDefinition)}
    (h : At whole location (.entries entries)) {entry : String × RuleDefinition}
    (hentry : entry ∈ entries) : At whole (location.key entry.1) (.rule entry.2) :=
  Leads.step h (List.mem_append_left _ (List.mem_map.mpr ⟨entry, hentry, rfl⟩))

theorem At.capture {captures : List (String × CaptureDefinition)}
    (h : At whole location (.captures captures)) {entry : String × CaptureDefinition}
    (hentry : entry ∈ captures) : At whole (location.key entry.1) (.capture entry.2) :=
  Leads.step h (List.mem_append_left _ (List.mem_map.mpr ⟨entry, hentry, rfl⟩))

theorem At.ruleField (h : At whole location (.rule rule)) {name : String} {next : Part}
    (hstep : (.field name, next) ∈ (Part.rule rule).children) :
    At whole (location.field name) next :=
  h.field (List.mem_append_left _ hstep)

theorem At.ruleText (h : At whole location (.rule rule)) {name : String}
    (hstep : (.field name, .value) ∈ (Part.rule rule).children) :
    At whole (location.field name) .value :=
  h.ruleField hstep

end

/-! ## Compilation of the parts -/

mutual

theorem compileRule_reports (rule : RuleDefinition) {outer : RepositoryId} {location : Location}
    {tables : Tables} (hat : At whole location (.rule rule)) (htables : Located whole tables) :
    Reports whole (compileRule rule outer location tables) := by
  obtain ⟨reference, name, contentName, matchSource, beginSource, endSource, whileSource, captures,
    beginCaptures, endCaptures, patterns, repository, closesLast⟩ := rule
  rw [compileRule]
  have hinner : ∀ entries, repository = some entries →
      At whole (location.field "repository") (.entries entries) := by
    rintro entries rfl
    exact hat.ruleField (by simp [Part.children])
  refine (compileInner_reports repository hinner htables).bind fun inner tables htables => ?_
  cases reference with
  | some text => exact .pure htables _
  | none =>
      have hpatterns : ∀ rules, patterns = some rules →
          At whole (location.field "patterns") (.rules rules) := by
        rintro rules rfl
        exact hat.ruleField (by simp [Part.children])
      have hcaptures : ∀ table, captures = some table →
          At whole (location.field "captures") (.captures table) := by
        rintro table rfl
        exact hat.ruleField (by simp [Part.children])
      refine (compilePatterns_reports patterns hpatterns htables).bind fun nested tables htables =>
        ?_
      dsimp only
      split
      · exact .throw hat _
      · -- A single match.
        split
        · exact .throw hat _
        refine .expressionAt (hat.ruleText ?_) fun expression => ?_
        · simp [Part.children]
        refine (compileCaptures_reports captures hcaptures htables).bind
          fun compiled tables htables => ?_
        exact .pure htables.addRule _
      · -- A rule between two matches.
        split
        · exact .pure (htables.warn hat _) _
        split
        · exact .throw hat _
        refine .expressionAt (hat.ruleText ?_) fun opening => ?_
        · simp [Part.children]
        refine .expressionAt (hat.ruleText ?_) fun closing => ?_
        · simp [Part.children]
        refine .bind (?_ : Reports whole (ite ..)) fun openingCaptures tables htables => ?_
        · split
          · refine compileCaptures_reports beginCaptures ?_ htables
            rintro table rfl
            exact hat.ruleField (by simp [Part.children])
          · next hbegin =>
            refine compileCaptures_reports captures ?_ htables
            rintro table rfl
            refine hat.field (List.mem_append_right _ ?_)
            simpa [Part.fallbacks] using hbegin
        refine .bind (?_ : Reports whole (ite ..)) fun closingCaptures tables htables => ?_
        · split
          · refine compileCaptures_reports endCaptures ?_ htables
            rintro table rfl
            exact hat.ruleField (by simp [Part.children])
          · next hend =>
            refine compileCaptures_reports captures ?_ htables
            rintro table rfl
            refine hat.field (List.mem_append_right _ ?_)
            simpa [Part.fallbacks] using hend
        exact .pure htables.addRule _
      · -- Patterns that are only grouped.
        split
        · exact .throw hat _
        split
        · exact .pure (htables.warn hat _) _
        · exact .pure htables _
termination_by structural rule

theorem compileInner_reports (repository : Option (List (String × RuleDefinition)))
    {outer : RepositoryId} {location : Location} {tables : Tables}
    (hat : ∀ entries, repository = some entries → At whole location (.entries entries))
    (htables : Located whole tables) :
    Reports whole (compileInner repository outer location tables) := by
  cases repository with
  | none => exact htables
  | some entries =>
      rw [compileInner]
      refine (compileEntries_reports entries (fun _ hentry => (hat entries rfl).entry hentry)
        htables.addRepository).bind fun compiled tables htables => ?_
      exact .pure htables.setEntries _
termination_by structural repository

theorem compilePatterns_reports (patterns : Option (List RuleDefinition))
    {repository : RepositoryId} {location : Location} {tables : Tables}
    (hat : ∀ rules, patterns = some rules → At whole location (.rules rules))
    (htables : Located whole tables) :
    Reports whole (compilePatterns patterns repository location tables) := by
  cases patterns with
  | none => exact htables
  | some rules =>
      refine compileList_reports rules (fun i rule hrule => ?_) htables
      rw [Nat.zero_add]
      exact (hat rules rfl).element hrule
termination_by structural patterns

theorem compileCaptures_reports (captures : Option (List (String × CaptureDefinition)))
    {groups : Nat} {repository : RepositoryId} {location : Location} {tables : Tables}
    (hat : ∀ table, captures = some table → At whole location (.captures table))
    (htables : Located whole tables) :
    Reports whole (compileCaptures captures groups repository location tables) := by
  cases captures with
  | none => exact htables
  | some table =>
      rw [compileCaptures]
      refine (compileTable_reports table (fun _ hentry => (hat table rfl).capture hentry)
        htables).bind fun compiled tables htables => ?_
      exact .pure htables _
termination_by structural captures

theorem compileList_reports (rules : List RuleDefinition) {index : Nat}
    {repository : RepositoryId} {location : Location} {tables : Tables}
    (hat : ∀ i rule, rules[i]? = some rule →
      At whole (location.element (index + i)) (.rule rule))
    (htables : Located whole tables) :
    Reports whole (compileList rules index repository location tables) := by
  cases rules with
  | nil => exact htables
  | cons rule rules =>
      rw [compileList]
      refine (compileRule_reports rule (hat 0 rule rfl) htables).bind fun first tables htables => ?_
      have hothers : ∀ i rule, rules[i]? = some rule →
          At whole (location.element (index + 1 + i)) (.rule rule) := by
        intro i rule hrule
        rw [Nat.add_right_comm]
        exact hat (i + 1) rule hrule
      refine (compileList_reports rules hothers htables).bind fun others tables htables => ?_
      exact .pure htables _
termination_by structural rules

theorem compileEntries_reports (entries : List (String × RuleDefinition))
    {repository : RepositoryId} {location : Location} {tables : Tables}
    (hat : ∀ entry ∈ entries, At whole (location.key entry.1) (.rule entry.2))
    (htables : Located whole tables) :
    Reports whole (compileEntries entries repository location tables) := by
  cases entries with
  | nil => exact htables
  | cons entry entries =>
      obtain ⟨name, rule⟩ := entry
      obtain ⟨hrule, hothers⟩ := List.forall_mem_cons.mp hat
      rw [compileEntries]
      refine (compileRule_reports rule hrule htables).bind fun patterns tables htables => ?_
      refine (compileEntries_reports entries hothers htables).bind
        fun others tables htables => ?_
      exact .pure htables _
termination_by structural entries

theorem compileTable_reports (captures : List (String × CaptureDefinition)) {groups : Nat}
    {repository : RepositoryId} {location : Location} {tables : Tables}
    (hat : ∀ entry ∈ captures, At whole (location.key entry.1) (.capture entry.2))
    (htables : Located whole tables) :
    Reports whole (compileTable captures groups repository location tables) := by
  cases captures with
  | nil => exact htables
  | cons entry captures =>
      obtain ⟨key, name, patterns⟩ := entry
      obtain ⟨hcapture, hothers⟩ := List.forall_mem_cons.mp hat
      rw [compileTable]
      dsimp only
      split
      · exact .throw hcapture _
      split
      · exact compileTable_reports captures hothers (htables.warn hcapture _)
      · have hpatterns : ∀ rules, patterns = some rules →
            At whole ((location.key key).field "patterns") (.rules rules) := by
          rintro rules rfl
          refine hcapture.field (List.mem_append_left _ ?_)
          simp [Part.children]
        refine (compilePatterns_reports patterns hpatterns htables).bind
          fun nested tables htables => ?_
        dsimp only
        split
        · refine (compileTable_reports captures hothers htables.addRule).bind
            fun others tables htables => ?_
          exact .pure htables _
        · refine (compileTable_reports captures hothers htables).bind
            fun others tables htables => ?_
          exact .pure htables _
termination_by structural captures

end

theorem ofDefinition_reports (definition : GrammarDefinition) :
    (∀ fault, Grammar.ofDefinition definition = .error fault →
      ∃ part, At (.definition definition) fault.location part) ∧
    ∀ grammar, Grammar.ofDefinition definition = .ok grammar →
      ∀ warning ∈ grammar.warnings, ∃ part, At (.definition definition) warning.location part := by
  have hentries : At (.definition definition) (.ofField "repository")
      (.entries definition.repository) :=
    Leads.here.step (by simp [Part.readAs, Part.children])
  have hrules : At (.definition definition) (.ofField "patterns") (.rules definition.patterns) :=
    Leads.here.step (by simp [Part.readAs, Part.children])
  have hnothing : Located (.definition definition) {} := by
    intro warning hwarning
    simp at hwarning
  have htop : Reports (.definition definition) (compileEntries definition.repository 0
      (.ofField "repository") (Tables.addRepository {} none)) :=
    compileEntries_reports definition.repository (fun _ hentry => hentries.entry hentry)
      hnothing.addRepository
  have hpatterns (entries : List (String × List Pattern)) (tables : Tables)
      (htables : Located (.definition definition) tables) :
      Reports (.definition definition) (compileList definition.patterns 0 0
        (.ofField "patterns") (tables.setEntries 0 entries)) :=
    compileList_reports definition.patterns
      (fun i rule hrule => by simpa using hrules.element hrule) htables.setEntries
  unfold Grammar.ofDefinition
  refine ⟨fun fault h => ?_, fun grammar h => ?_⟩
  · rcases bind_eq_error.mp h with h | ⟨⟨entries, tables⟩, hentries, h⟩
    · rw [h] at htop
      exact htop
    · rw [hentries] at htop
      have hlist := hpatterns entries tables htop
      simp only [bind_eq_error, pure_ne_error, and_false, exists_false, or_false] at h
      rw [h] at hlist
      exact hlist
  · obtain ⟨⟨entries, tables⟩, hentries, h⟩ := bind_eq_ok.mp h
    obtain ⟨⟨patterns, tablesPatterns⟩, hcompiled, h⟩ := bind_eq_ok.mp h
    cases pure_eq_ok.mp h
    rw [hentries] at htop
    have hlist := hpatterns entries tables htop
    rw [hcompiled] at hlist
    exact hlist

end Compilation

/-! ## Locations of reports -/

def GrammarDefinition.ReportsAt (definition : GrammarDefinition) (location : Location) : Prop :=
  (∃ cause, Grammar.ofDefinition definition = .error ⟨location, cause⟩) ∨
    ∃ grammar kind, Grammar.ofDefinition definition = .ok grammar ∧
      ⟨location, kind⟩ ∈ grammar.warnings

/-- The location of a report leads to a part of the definition, once the captures that stand for
others are found under the names of these.  All its steps are in the definition as it is written
unless it passes a rule with such captures. -/
theorem GrammarDefinition.location_leads_to_part {definition : GrammarDefinition}
    {location : Location} (h : definition.ReportsAt location) :
    (∃ part, Leads Part.readAs (.definition definition) location.steps part) ∧
      ((∀ before rule, before <+: location.steps →
          Leads Part.children (.definition definition) before (.rule rule) → ¬rule.FallsBack) →
        ∃ part, Leads Part.children (.definition definition) location.steps part) := by
  obtain ⟨hfaults, hwarnings⟩ := Compilation.ofDefinition_reports definition
  have hread : ∃ part, Leads Part.readAs (.definition definition) location.steps part := by
    rcases h with ⟨cause, hfault⟩ | ⟨grammar, kind, hgrammar, hwarning⟩
    · exact hfaults _ hfault
    · exact hwarnings grammar hgrammar _ hwarning
  refine ⟨hread, fun hnone => ?_⟩
  obtain ⟨part, hpart⟩ := hread
  rcases hpart.present_or_fallsBack with hpresent | ⟨before, rule, hbefore, hrule, hfalls⟩
  · exact ⟨part, hpresent⟩
  · exact absurd hfalls (hnone before rule hbefore hrule)

/-! ## Two definitions -/

namespace GrammarDefinition

def endless : GrammarDefinition :=
  { scopeName := "source"
    repository := [("r", { patterns := some [{ beginSource := some "a" }] })] }

theorem endless_leads {steps : List LocationStep} {part : Part}
    (h : Leads Part.children (.definition endless) steps part) :
    (steps, part) ∈ (Part.definition endless).ways 6 :=
  h.mem_of_closed (by simp [Part.ways])
    (by simp [Part.ways, Part.children, Part.ofText, Part.ofField, endless])

theorem endless_rule_located :
    endless.ReportsAt ⟨[.field "repository", .key "r", .field "patterns", .element 0]⟩ ∧
      ∃ part, Leads Part.children (.definition endless)
        [.field "repository", .key "r", .field "patterns", .element 0] part := by
  have hreport : endless.ReportsAt
      ⟨[.field "repository", .key "r", .field "patterns", .element 0]⟩ :=
    .inl ⟨.beginWithoutEnd, rfl⟩
  refine ⟨hreport, (location_leads_to_part hreport).2 fun before rule _ hrule hfalls => ?_⟩
  have hways : ∀ way ∈ (Part.definition endless).ways 6, ∀ rule, way.2 = .rule rule →
      rule.captures = none := by
    simp [Part.ways, Part.children, Part.ofText, Part.ofField, endless]
  simpa [hways _ (endless_leads hrule) rule rfl] using hfalls.2.1

def fallingBack : GrammarDefinition :=
  { scopeName := "source"
    patterns := [{
      beginSource := some "a"
      endSource := some "b"
      captures := some [("x", { name := some "n" })] }] }

theorem fallingBack_leads {steps : List LocationStep} {part : Part}
    (h : Leads Part.children (.definition fallingBack) steps part) :
    (steps, part) ∈ (Part.definition fallingBack).ways 6 :=
  h.mem_of_closed (by simp [Part.ways])
    (by simp [Part.ways, Part.children, Part.ofText, Part.ofField, fallingBack])

theorem fallingBack_located_elsewhere :
    ∃ location, fallingBack.ReportsAt location ∧ location.render = "patterns[0].beginCaptures.x" ∧
      ∀ steps part, Leads Part.children (.definition fallingBack) steps part →
        (Location.mk steps).render ≠ location.render := by
  refine ⟨⟨[.field "patterns", .element 0, .field "beginCaptures", .key "x"]⟩,
    .inl ⟨.badGroup "x", rfl⟩, by decide +kernel, fun steps part hpart => ?_⟩
  have hnone : ∀ way ∈ (Part.definition fallingBack).ways 6,
      (Location.mk way.1).render ≠ "patterns[0].beginCaptures.x" := by decide +kernel
  exact hnone _ (fallingBack_leads hpart)

end GrammarDefinition

end ScopeLexer
