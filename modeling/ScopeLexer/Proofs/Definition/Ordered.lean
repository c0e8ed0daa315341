import ScopeLexer.Definition.Format
import ScopeLexer.Proofs.Definition.Canonical
import ScopeLexer.Proofs.Json.Decoder
import ScopeLexer.Proofs.Yaml.Decoder

/-!
# Definitions that were read

Whatever a definition is read from, its tables are in order.  So it can be stored when its lengths
can be written, and the stored form gives the same definition again.
-/

namespace ScopeLexer

open Outcome

/-! ## Tables in order -/

/-- A table in ascending order of its keys, with good values. -/
def Entries.Ordered {α : Type} (good : α → Prop) (table : Entries α) : Prop :=
  table.ascending ∧ ∀ entry ∈ table, good entry.2

theorem Entries.ordered_ofList {α : Type} {good : α → Prop} {entries : List (String × α)}
    (h : ∀ entry ∈ entries, good entry.2) : Ordered good (ofList entries) :=
  ⟨ascending_ofList entries, fun entry hentry => h entry (mem_ofList hentry)⟩

abbrev RuleDefinition.IsOrdered (rule : RuleDefinition) : Prop :=
  rule.ascending

def CaptureOf.IsOrdered (capture : CaptureDefinition) : Prop :=
  ∀ rules ∈ capture.patterns, ∀ rule ∈ rules, rule.IsOrdered

theorem ascendingRules_iff {rules : List RuleDefinition} :
    ascendingRules rules ↔ ∀ rule ∈ rules, rule.IsOrdered := by
  induction rules with
  | nil => simp [ascendingRules]
  | cons rule rules ih => simp [ascendingRules, ih]

theorem ascendingRules?_iff {rules? : Option (List RuleDefinition)} :
    ascendingRules? rules? ↔ ∀ rules ∈ rules?, ∀ rule ∈ rules, rule.IsOrdered := by
  cases rules? with
  | none => simp [ascendingRules?]
  | some rules => simp [ascendingRules?, ascendingRules_iff]

theorem ascendingEntries_iff {entries : List (String × RuleDefinition)} :
    ascendingEntries entries ↔ ∀ entry ∈ entries, entry.2.IsOrdered := by
  induction entries with
  | nil => simp [ascendingEntries]
  | cons entry entries ih => simp [ascendingEntries, ih]

theorem ascendingEntries?_iff {entries? : Option (List (String × RuleDefinition))} :
    ascendingEntries? entries? ↔
      ∀ entries ∈ entries?, Entries.Ordered RuleDefinition.IsOrdered entries := by
  cases entries? with
  | none => simp [ascendingEntries?]
  | some entries => simp [ascendingEntries?, ascendingEntries_iff, Entries.Ordered]

theorem ascendingCaptures_iff {captures : List (String × CaptureDefinition)} :
    ascendingCaptures captures ↔ ∀ capture ∈ captures, capture.2.IsOrdered := by
  induction captures with
  | nil => simp [ascendingCaptures]
  | cons capture captures ih =>
      simp [ascendingCaptures, ih, ascendingRules?_iff, CaptureOf.IsOrdered]

theorem ascendingCaptures?_iff {captures? : Option (List (String × CaptureDefinition))} :
    ascendingCaptures? captures? ↔
      ∀ captures ∈ captures?, Entries.Ordered CaptureOf.IsOrdered captures := by
  cases captures? with
  | none => simp [ascendingCaptures?]
  | some captures => simp [ascendingCaptures?, ascendingCaptures_iff, Entries.Ordered]

theorem RuleDefinition.isOrdered_iff {rule : RuleDefinition} : rule.IsOrdered ↔
    ascendingCaptures? rule.captures ∧ ascendingCaptures? rule.beginCaptures ∧
      ascendingCaptures? rule.endCaptures ∧ ascendingRules? rule.patterns ∧
      ascendingEntries? rule.repository := by
  cases rule
  simp [IsOrdered, ascending, and_assoc]

theorem GrammarDefinition.ascending_iff {definition : GrammarDefinition} : definition.ascending ↔
    (∀ rule ∈ definition.patterns, rule.IsOrdered) ∧
      Entries.Ordered RuleDefinition.IsOrdered definition.repository := by
  simp [ascending, ascendingRules_iff, ascendingEntries_iff, Entries.Ordered, and_assoc]

/-! ## Definitions in JSON -/

namespace Definition

open Json

variable {inner : Decoder RuleDefinition}

theorem sortedTable_yields {α : Type} {inner : Decoder α} {good : α → Prop}
    (h : Yields inner good) : Yields (sortedTable inner) (Entries.Ordered good) := by
  intro depth bytes result rest hread
  obtain ⟨⟨entries, more⟩, hentries, heq⟩ := bind_eq_ok.mp hread
  cases heq
  exact Entries.ordered_ofList (h.table hentries)

theorem captureTable_yields (h : Yields inner RuleDefinition.IsOrdered) :
    Yields (captureTable inner) fun captures? => ascendingCaptures? captures? := by
  have hcapture : Yields (record "RawCapture" (captureFields inner) {}) CaptureOf.IsOrdered := by
    refine yields_record ?_ (by simp [CaptureOf.IsOrdered])
    simp only [captureFields, List.forall_mem_cons]
    refine ⟨.of (yields_any _) ?_, .of h.list.nullable ?_, List.forall_mem_nil _⟩
    · exact fun capture name hcapture _ => hcapture
    · exact fun capture patterns _ hpatterns => hpatterns
  exact (sortedTable_yields hcapture).nullable.imp fun _ => ascendingCaptures?_iff.mpr

theorem ruleFields_keep (h : Yields inner RuleDefinition.IsOrdered) :
    ∀ field ∈ ruleFields inner, field.Keeps RuleDefinition.IsOrdered := by
  have hcaptures := captureTable_yields h
  have hpatterns := h.list.nullable.imp fun _ => ascendingRules?_iff.mpr
  have hrepository := (sortedTable_yields h).nullable.imp fun _ => ascendingEntries?_iff.mpr
  simp only [ruleFields, List.forall_mem_cons]
  refine ⟨.of (yields_any _) ?_, .of (yields_any _) ?_, .of (yields_any _) ?_,
    .of (yields_any _) ?_, .of (yields_any _) ?_, .of (yields_any _) ?_, .of (yields_any _) ?_,
    .of hcaptures ?_, .of hcaptures ?_, .of hcaptures ?_, .of hpatterns ?_, .of hrepository ?_,
    .of (yields_any _) ?_, List.forall_mem_nil _⟩
  all_goals
    intro rule value hrule hvalue
    rw [RuleDefinition.isOrdered_iff] at hrule ⊢
    simp only [hrule, hvalue, and_self]

theorem rule_yields (nesting : Nat) : Yields (rule nesting) RuleDefinition.IsOrdered := by
  induction nesting with
  | zero => exact nofun
  | succ nesting ih => exact yields_record (ruleFields_keep ih) rfl

theorem grammarFields_keep :
    ∀ field ∈ grammarFields, field.Keeps fun definition => definition.ascending := by
  simp only [grammarFields, List.forall_mem_cons]
  refine ⟨.of (yields_any _) ?scopeName, .of (yields_any _) ?name, .of (yields_any _) ?fileTypes,
    .of (rule_yields _).list ?patterns, .of (sortedTable_yields (rule_yields _)) ?repository,
    List.forall_mem_nil _⟩
  case patterns =>
    intro definition patterns h hpatterns
    exact GrammarDefinition.ascending_iff.mpr
      ⟨hpatterns, (GrammarDefinition.ascending_iff.mp h).2⟩
  case repository =>
    intro definition repository h hrepository
    exact GrammarDefinition.ascending_iff.mpr
      ⟨(GrammarDefinition.ascending_iff.mp h).1, hrepository⟩
  all_goals exact fun definition value h _ => h

theorem ascending_of_ofJson {bytes : List UInt8} {definition : GrammarDefinition}
    (h : ofJson bytes = .ok definition) : definition.ascending :=
  (yields_record grammarFields_keep rfl).of_decode h

end Definition

/-! ## Definitions in YAML -/

namespace Definition.FromYaml

open Yaml

variable {inner : Decoder RuleDefinition}

theorem sortedTable_yields {α : Type} {inner : Decoder α} {good : α → Prop}
    (h : Yields inner good) : Yields (sortedTable inner) (Entries.Ordered good) := by
  intro depth location node
  exact (h.table depth location node).bind fun entries hentries =>
    .pure (Entries.ordered_ofList hentries)

theorem captureTable_yields (h : Yields inner RuleDefinition.IsOrdered) :
    Yields (captureTable inner) fun captures? => ascendingCaptures? captures? := by
  have hcapture : Yields (record "RawCapture" (captureFields inner) {}) CaptureOf.IsOrdered := by
    refine yields_record ?_ (by simp [CaptureOf.IsOrdered])
    simp only [captureFields, List.forall_mem_cons]
    refine ⟨.of (yields_any _) ?_, .of h.list.nullable ?_, List.forall_mem_nil _⟩
    · exact fun capture name hcapture _ => hcapture
    · exact fun capture patterns _ hpatterns => hpatterns
  exact (sortedTable_yields hcapture).nullable.imp fun _ => ascendingCaptures?_iff.mpr

theorem ruleFields_keep (h : Yields inner RuleDefinition.IsOrdered) :
    ∀ field ∈ ruleFields inner, field.Keeps RuleDefinition.IsOrdered := by
  have hcaptures := captureTable_yields h
  have hpatterns := h.list.nullable.imp fun _ => ascendingRules?_iff.mpr
  have hrepository := (sortedTable_yields h).nullable.imp fun _ => ascendingEntries?_iff.mpr
  simp only [ruleFields, List.forall_mem_cons]
  refine ⟨.of (yields_any _) ?_, .of (yields_any _) ?_, .of (yields_any _) ?_,
    .of (yields_any _) ?_, .of (yields_any _) ?_, .of (yields_any _) ?_, .of (yields_any _) ?_,
    .of hcaptures ?_, .of hcaptures ?_, .of hcaptures ?_, .of hpatterns ?_, .of hrepository ?_,
    .of (yields_any _) ?_, List.forall_mem_nil _⟩
  all_goals
    intro rule value hrule hvalue
    rw [RuleDefinition.isOrdered_iff] at hrule ⊢
    simp only [hrule, hvalue, and_self]

theorem rule_yields (nesting : Nat) : Yields (rule nesting) RuleDefinition.IsOrdered := by
  induction nesting with
  | zero => exact fun _ _ _ => .refuse _ _
  | succ nesting ih => exact yields_record (ruleFields_keep ih) rfl

theorem grammarFields_keep :
    ∀ field ∈ grammarFields, field.Keeps fun definition => definition.ascending := by
  simp only [grammarFields, List.forall_mem_cons]
  refine ⟨.of (yields_any _) ?scopeName, .of (yields_any _) ?name, .of (yields_any _) ?fileTypes,
    .of (rule_yields _).list ?patterns, .of (sortedTable_yields (rule_yields _)) ?repository,
    List.forall_mem_nil _⟩
  case patterns =>
    intro definition patterns h hpatterns
    exact GrammarDefinition.ascending_iff.mpr
      ⟨hpatterns, (GrammarDefinition.ascending_iff.mp h).2⟩
  case repository =>
    intro definition repository h hrepository
    exact GrammarDefinition.ascending_iff.mpr
      ⟨(GrammarDefinition.ascending_iff.mp h).1, hrepository⟩
  all_goals exact fun definition value h _ => h

theorem ascending_of_ofYaml {bytes : List UInt8} {definition : GrammarDefinition}
    (h : ofYaml bytes = .ok definition) : definition.ascending :=
  (yields_record grammarFields_keep rfl).of_decode h

end Definition.FromYaml

/-! ## What was read can be stored -/

namespace Definition

variable {format : Format} {bytes : List UInt8} {definition : GrammarDefinition}

theorem storable_of_decode (h : decode format bytes = .ok definition) (hfits : definition.fits) :
    definition.storable := by
  cases format with
  | compiled =>
      obtain ⟨written, rest, hwritten, rfl, -, -⟩ := Compiled.written_of_decode h
      exact GrammarDefinition.storable_inOrder hwritten
  | json =>
      exact GrammarDefinition.storable_of_ascending hfits
        (ascending_of_ofJson (mapError_eq_ok.mp h))
  | yaml =>
      exact GrammarDefinition.storable_of_ascending hfits
        (FromYaml.ascending_of_ofYaml (mapError_eq_ok.mp h))

end Definition

end ScopeLexer
