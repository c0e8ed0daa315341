import ScopeLexer.Definition.Compiled
import ScopeLexer.Proofs.Definition.Storable

/-!
# Definitions as they are written

Whoever writes a table may write its entries in any order, and several with one key.  What was
written is a definition too, if not one with its tables in order; put in order it can be stored, and
its compiled form has become no longer.
-/

namespace ScopeLexer

/-! ## Entries that are put in order -/

namespace Entries

variable {α β : Type}

theorem mem_ofList {entries : List (String × α)} {entry : String × α}
    (h : entry ∈ ofList entries) : entry ∈ entries := by
  have hfold (rest : List (String × α)) (table : Entries α)
      (h : entry ∈ rest.foldl (fun table entry => insert entry.1 entry.2 table) table) :
      entry ∈ table ∨ entry ∈ rest := by
    induction rest generalizing table with
    | nil => exact .inl h
    | cons first rest ih =>
        rcases ih _ h with hmem | hmem
        · rcases mem_insert hmem with rfl | hmem
          · exact .inr List.mem_cons_self
          · exact .inl hmem
        · exact .inr (List.mem_cons_of_mem _ hmem)
  exact (hfold entries [] h).resolve_left List.not_mem_nil

theorem length_flatMap_insert_le (write : String × α → List β) (entry : String × α)
    (table : Entries α) : ((insert entry.1 entry.2 table).flatMap write).length ≤
      (table.flatMap write).length + (write entry).length := by
  induction table with
  | nil => simp [insert]
  | cons other table ih =>
      obtain ⟨key, value⟩ := entry
      obtain ⟨otherKey, current⟩ := other
      rw [insert]
      split
      · simp only [List.flatMap_cons, List.length_append]
        omega
      · split
        · simp only [List.flatMap_cons, List.length_append]
          omega
        · simp only [List.flatMap_cons, List.length_append] at ih ⊢
          omega

/-- An entry is lost where another with its key comes later, and none is added. -/
theorem length_flatMap_ofList_le (write : String × α → List β) (entries : List (String × α)) :
    ((ofList entries).flatMap write).length ≤ (entries.flatMap write).length := by
  have hfold (table : Entries α) :
      ((entries.foldl (fun table entry => insert entry.1 entry.2 table) table).flatMap write).length
        ≤ (table.flatMap write).length + (entries.flatMap write).length := by
    induction entries generalizing table with
    | nil => exact Nat.le_refl _
    | cons entry entries ih =>
        have hrest := ih (insert entry.1 entry.2 table)
        have hinsert := length_flatMap_insert_le write entry table
        rw [List.foldl_cons, List.flatMap_cons, List.length_append]
        omega
  have hempty := hfold []
  rwa [List.flatMap_nil, List.length_nil, Nat.zero_add] at hempty

theorem length_ofList_le (entries : List (String × α)) :
    (ofList entries).length ≤ entries.length := by
  have hsingle := length_flatMap_ofList_le (fun entry => [entry]) entries
  rwa [List.flatMap_singleton', List.flatMap_singleton'] at hsingle

end Entries

/-! ## Lengths that fit -/

mutual

def RuleDefinition.fits : RuleDefinition → Bool
  | ⟨reference, name, contentName, matchSource, beginSource, endSource, whileSource, captures,
      beginCaptures, endCaptures, patterns, repository, _⟩ =>
      reference.all fitsText && name.all fitsText && contentName.all fitsText
        && matchSource.all fitsText && beginSource.all fitsText && endSource.all fitsText
        && whileSource.all fitsText && fitsCaptures? captures && fitsCaptures? beginCaptures
        && fitsCaptures? endCaptures && fitsRules? patterns && fitsEntries? repository
  termination_by structural rule => rule

def fitsRules? : Option (List RuleDefinition) → Bool
  | none => true
  | some rules => fitsLength rules.length && fitsRules rules
  termination_by structural rules => rules

def fitsEntries? : Option (List (String × RuleDefinition)) → Bool
  | none => true
  | some entries => fitsLength entries.length && fitsEntries entries
  termination_by structural entries => entries

def fitsCaptures? : Option (List (String × CaptureOf RuleDefinition)) → Bool
  | none => true
  | some captures => fitsLength captures.length && fitsCaptures captures
  termination_by structural captures => captures

def fitsRules : List RuleDefinition → Bool
  | [] => true
  | rule :: rules => rule.fits && fitsRules rules
  termination_by structural rules => rules

def fitsEntries : List (String × RuleDefinition) → Bool
  | [] => true
  | (key, rule) :: entries => fitsText key && rule.fits && fitsEntries entries
  termination_by structural entries => entries

def fitsCaptures : List (String × CaptureOf RuleDefinition) → Bool
  | [] => true
  | (key, ⟨name, patterns⟩) :: captures =>
      fitsText key && name.all fitsText && fitsRules? patterns && fitsCaptures captures
  termination_by structural captures => captures

end

def CaptureOf.fits (capture : CaptureDefinition) : Bool :=
  capture.name.all fitsText && fitsRules? capture.patterns

def GrammarDefinition.fits (definition : GrammarDefinition) : Bool :=
  fitsText definition.scopeName && definition.name.all fitsText
    && fitsLength definition.fileTypes.length && definition.fileTypes.all fitsText
    && fitsLength definition.patterns.length && fitsRules definition.patterns
    && fitsLength definition.repository.length && fitsEntries definition.repository

theorem fitsRules_eq (rules : List RuleDefinition) :
    fitsRules rules = rules.all RuleDefinition.fits := by
  induction rules with
  | nil => rfl
  | cons rule rules ih => rw [fitsRules, List.all_cons, ih]

theorem fitsEntries_eq (entries : List (String × RuleDefinition)) :
    fitsEntries entries = entries.all fun entry => fitsText entry.1 && entry.2.fits := by
  induction entries with
  | nil => rfl
  | cons entry entries ih => rw [fitsEntries, List.all_cons, ih]

theorem fitsCaptures_eq (captures : List (String × CaptureDefinition)) :
    fitsCaptures captures = captures.all fun capture => fitsText capture.1 && capture.2.fits := by
  induction captures with
  | nil => rfl
  | cons capture captures ih =>
      rw [fitsCaptures, List.all_cons, ih, CaptureOf.fits, Bool.and_assoc (fitsText capture.1)]

/-! ## Tables that are in order -/

mutual

/-- Whether the keys of each table in a rule are in ascending order, each once. -/
def RuleDefinition.ascending : RuleDefinition → Bool
  | ⟨_, _, _, _, _, _, _, captures, beginCaptures, endCaptures, patterns, repository, _⟩ =>
      ascendingCaptures? captures && ascendingCaptures? beginCaptures
        && ascendingCaptures? endCaptures && ascendingRules? patterns
        && ascendingEntries? repository
  termination_by structural rule => rule

def ascendingRules? : Option (List RuleDefinition) → Bool
  | none => true
  | some rules => ascendingRules rules
  termination_by structural rules => rules

def ascendingEntries? : Option (List (String × RuleDefinition)) → Bool
  | none => true
  | some entries => Entries.ascending entries && ascendingEntries entries
  termination_by structural entries => entries

def ascendingCaptures? : Option (List (String × CaptureOf RuleDefinition)) → Bool
  | none => true
  | some captures => Entries.ascending captures && ascendingCaptures captures
  termination_by structural captures => captures

def ascendingRules : List RuleDefinition → Bool
  | [] => true
  | rule :: rules => rule.ascending && ascendingRules rules
  termination_by structural rules => rules

def ascendingEntries : List (String × RuleDefinition) → Bool
  | [] => true
  | (_, rule) :: entries => rule.ascending && ascendingEntries entries
  termination_by structural entries => entries

def ascendingCaptures : List (String × CaptureOf RuleDefinition) → Bool
  | [] => true
  | (_, ⟨_, patterns⟩) :: captures => ascendingRules? patterns && ascendingCaptures captures
  termination_by structural captures => captures

end

def GrammarDefinition.ascending (definition : GrammarDefinition) : Bool :=
  ascendingRules definition.patterns && Entries.ascending definition.repository
    && ascendingEntries definition.repository

/-! Nothing else is asked of what can be stored. -/

mutual

theorem RuleDefinition.storable_of_ascending : (rule : RuleDefinition) → rule.fits →
    rule.ascending → rule.storable
  | ⟨reference, name, contentName, matchSource, beginSource, endSource, whileSource, captures,
      beginCaptures, endCaptures, patterns, repository, last⟩, hfits, hascending => by
      simp only [RuleDefinition.fits, Bool.and_eq_true] at hfits
      simp only [RuleDefinition.ascending, Bool.and_eq_true] at hascending
      obtain ⟨⟨⟨⟨⟨htexts, hcaptures⟩, hbegin⟩, hend⟩, hpatterns⟩, hrepository⟩ := hfits
      obtain ⟨⟨⟨⟨hcaptures', hbegin'⟩, hend'⟩, hpatterns'⟩, hrepository'⟩ := hascending
      simp only [RuleDefinition.storable, Bool.and_eq_true]
      exact ⟨⟨⟨⟨⟨htexts, storableCaptures?_of_ascending captures hcaptures hcaptures'⟩,
        storableCaptures?_of_ascending beginCaptures hbegin hbegin'⟩,
        storableCaptures?_of_ascending endCaptures hend hend'⟩,
        storableRules?_of_ascending patterns hpatterns hpatterns'⟩,
        storableEntries?_of_ascending repository hrepository hrepository'⟩
  termination_by structural rule => rule

theorem storableRules?_of_ascending : (rules : Option (List RuleDefinition)) → fitsRules? rules →
    ascendingRules? rules → storableRules? rules
  | none, _, _ => rfl
  | some rules, hfits, hascending => by
      simp only [fitsRules?, Bool.and_eq_true] at hfits
      simp only [storableRules?, Bool.and_eq_true]
      exact ⟨hfits.1, storableRules_of_ascending rules hfits.2 hascending⟩
  termination_by structural rules => rules

theorem storableEntries?_of_ascending : (entries : Option (List (String × RuleDefinition))) →
    fitsEntries? entries → ascendingEntries? entries → storableEntries? entries
  | none, _, _ => rfl
  | some entries, hfits, hascending => by
      simp only [fitsEntries?, Bool.and_eq_true] at hfits
      simp only [ascendingEntries?, Bool.and_eq_true] at hascending
      simp only [storableEntries?, Bool.and_eq_true]
      exact ⟨⟨hfits.1, hascending.1⟩, storableEntries_of_ascending entries hfits.2 hascending.2⟩
  termination_by structural entries => entries

theorem storableCaptures?_of_ascending :
    (captures : Option (List (String × CaptureOf RuleDefinition))) → fitsCaptures? captures →
      ascendingCaptures? captures → storableCaptures? captures
  | none, _, _ => rfl
  | some captures, hfits, hascending => by
      simp only [fitsCaptures?, Bool.and_eq_true] at hfits
      simp only [ascendingCaptures?, Bool.and_eq_true] at hascending
      simp only [storableCaptures?, Bool.and_eq_true]
      exact ⟨⟨hfits.1, hascending.1⟩, storableCaptures_of_ascending captures hfits.2 hascending.2⟩
  termination_by structural captures => captures

theorem storableRules_of_ascending : (rules : List RuleDefinition) → fitsRules rules →
    ascendingRules rules → storableRules rules
  | [], _, _ => rfl
  | rule :: rules, hfits, hascending => by
      simp only [fitsRules, Bool.and_eq_true] at hfits
      simp only [ascendingRules, Bool.and_eq_true] at hascending
      simp only [storableRules, Bool.and_eq_true]
      exact ⟨rule.storable_of_ascending hfits.1 hascending.1,
        storableRules_of_ascending rules hfits.2 hascending.2⟩
  termination_by structural rules => rules

theorem storableEntries_of_ascending : (entries : List (String × RuleDefinition)) →
    fitsEntries entries → ascendingEntries entries → storableEntries entries
  | [], _, _ => rfl
  | (key, rule) :: entries, hfits, hascending => by
      simp only [fitsEntries, Bool.and_eq_true] at hfits
      simp only [ascendingEntries, Bool.and_eq_true] at hascending
      simp only [storableEntries, Bool.and_eq_true]
      exact ⟨⟨hfits.1.1, rule.storable_of_ascending hfits.1.2 hascending.1⟩,
        storableEntries_of_ascending entries hfits.2 hascending.2⟩
  termination_by structural entries => entries

theorem storableCaptures_of_ascending :
    (captures : List (String × CaptureOf RuleDefinition)) → fitsCaptures captures →
      ascendingCaptures captures → storableCaptures captures
  | [], _, _ => rfl
  | (key, ⟨name, patterns⟩) :: captures, hfits, hascending => by
      simp only [fitsCaptures, Bool.and_eq_true] at hfits
      simp only [ascendingCaptures, Bool.and_eq_true] at hascending
      simp only [storableCaptures, Bool.and_eq_true]
      exact ⟨⟨hfits.1.1, storableRules?_of_ascending patterns hfits.1.2 hascending.1⟩,
        storableCaptures_of_ascending captures hfits.2 hascending.2⟩
  termination_by structural captures => captures

end

theorem GrammarDefinition.storable_of_ascending {definition : GrammarDefinition}
    (hfits : definition.fits) (hascending : definition.ascending) : definition.storable := by
  simp only [GrammarDefinition.fits, Bool.and_eq_true] at hfits
  simp only [GrammarDefinition.ascending, Bool.and_eq_true] at hascending
  obtain ⟨⟨⟨htexts, hpatterns⟩, hlength⟩, hrepository⟩ := hfits
  simp only [GrammarDefinition.storable, Bool.and_eq_true]
  exact ⟨⟨⟨⟨htexts, storableRules_of_ascending _ hpatterns hascending.1.1⟩, hlength⟩,
    hascending.1.2⟩, storableEntries_of_ascending _ hrepository hascending.2⟩

/-! ## Tables that are put in order -/

mutual

def RuleDefinition.inOrder : RuleDefinition → RuleDefinition
  | ⟨reference, name, contentName, matchSource, beginSource, endSource, whileSource, captures,
      beginCaptures, endCaptures, patterns, repository, last⟩ =>
      ⟨reference, name, contentName, matchSource, beginSource, endSource, whileSource,
        inOrderCaptures? captures, inOrderCaptures? beginCaptures, inOrderCaptures? endCaptures,
        inOrderRules? patterns, inOrderEntries? repository, last⟩
  termination_by structural rule => rule

def inOrderRules? : Option (List RuleDefinition) → Option (List RuleDefinition)
  | none => none
  | some rules => some (inOrderRules rules)
  termination_by structural rules => rules

def inOrderEntries? :
    Option (List (String × RuleDefinition)) → Option (List (String × RuleDefinition))
  | none => none
  | some entries => some (Entries.ofList (inOrderEntries entries))
  termination_by structural entries => entries

def inOrderCaptures? : Option (List (String × CaptureOf RuleDefinition)) →
    Option (List (String × CaptureOf RuleDefinition))
  | none => none
  | some captures => some (Entries.ofList (inOrderCaptures captures))
  termination_by structural captures => captures

def inOrderRules : List RuleDefinition → List RuleDefinition
  | [] => []
  | rule :: rules => rule.inOrder :: inOrderRules rules
  termination_by structural rules => rules

def inOrderEntries : List (String × RuleDefinition) → List (String × RuleDefinition)
  | [] => []
  | (key, rule) :: entries => (key, rule.inOrder) :: inOrderEntries entries
  termination_by structural entries => entries

def inOrderCaptures :
    List (String × CaptureOf RuleDefinition) → List (String × CaptureOf RuleDefinition)
  | [] => []
  | (key, ⟨name, patterns⟩) :: captures =>
      (key, ⟨name, inOrderRules? patterns⟩) :: inOrderCaptures captures
  termination_by structural captures => captures

end

def CaptureOf.inOrder (capture : CaptureDefinition) : CaptureDefinition :=
  { capture with patterns := inOrderRules? capture.patterns }

def GrammarDefinition.inOrder (definition : GrammarDefinition) : GrammarDefinition :=
  { definition with
    patterns := inOrderRules definition.patterns
    repository := Entries.ofList (inOrderEntries definition.repository) }

theorem inOrderRules_eq (rules : List RuleDefinition) :
    inOrderRules rules = rules.map RuleDefinition.inOrder := by
  induction rules with
  | nil => rfl
  | cons rule rules ih => rw [inOrderRules, List.map_cons, ih]

theorem inOrderEntries_eq (entries : List (String × RuleDefinition)) :
    inOrderEntries entries = entries.map fun entry => (entry.1, entry.2.inOrder) := by
  induction entries with
  | nil => rfl
  | cons entry entries ih => rw [inOrderEntries, List.map_cons, ih]

theorem inOrderCaptures_eq (captures : List (String × CaptureDefinition)) :
    inOrderCaptures captures =
      captures.map fun capture => (capture.1, capture.2.inOrder) := by
  induction captures with
  | nil => rfl
  | cons capture captures ih => rw [inOrderCaptures, List.map_cons, ih, CaptureOf.inOrder]

theorem length_inOrderRules (rules : List RuleDefinition) :
    (inOrderRules rules).length = rules.length := by
  rw [inOrderRules_eq, List.length_map]

theorem length_ofList_inOrderEntries_le (entries : List (String × RuleDefinition)) :
    (Entries.ofList (inOrderEntries entries)).length ≤ entries.length := by
  have hlength := Entries.length_ofList_le (inOrderEntries entries)
  rwa [inOrderEntries_eq, List.length_map, ← inOrderEntries_eq] at hlength

theorem length_ofList_inOrderCaptures_le (captures : List (String × CaptureDefinition)) :
    (Entries.ofList (inOrderCaptures captures)).length ≤ captures.length := by
  have hlength := Entries.length_ofList_le (inOrderCaptures captures)
  rwa [inOrderCaptures_eq, List.length_map, ← inOrderCaptures_eq] at hlength

/-! ### What is in order can be stored -/

theorem fitsLength_of_le {m n : Nat} (h : fitsLength n) (hle : m ≤ n) : fitsLength m :=
  decide_eq_true (Nat.lt_of_le_of_lt hle (of_decide_eq_true h))

theorem storableEntries_iff {entries : List (String × RuleDefinition)} :
    storableEntries entries ↔ ∀ entry ∈ entries, fitsText entry.1 ∧ entry.2.storable := by
  induction entries with
  | nil => simp [storableEntries]
  | cons entry entries ih => simp [storableEntries, ih]

theorem storableCaptures_iff {captures : List (String × CaptureDefinition)} :
    storableCaptures captures ↔ ∀ capture ∈ captures, fitsText capture.1 ∧
      capture.2.name.all fitsText ∧ storableRules? capture.2.patterns := by
  induction captures with
  | nil => simp [storableCaptures]
  | cons capture captures ih => simp [storableCaptures, ih, and_assoc]

theorem storableEntries_ofList {entries : List (String × RuleDefinition)}
    (h : storableEntries entries) : storableEntries (Entries.ofList entries) :=
  storableEntries_iff.mpr fun entry hentry =>
    storableEntries_iff.mp h entry (Entries.mem_ofList hentry)

theorem storableCaptures_ofList {captures : List (String × CaptureDefinition)}
    (h : storableCaptures captures) : storableCaptures (Entries.ofList captures) :=
  storableCaptures_iff.mpr fun capture hcapture =>
    storableCaptures_iff.mp h capture (Entries.mem_ofList hcapture)

mutual

theorem RuleDefinition.storable_inOrder : (rule : RuleDefinition) → rule.fits →
    rule.inOrder.storable
  | ⟨reference, name, contentName, matchSource, beginSource, endSource, whileSource, captures,
      beginCaptures, endCaptures, patterns, repository, last⟩, hfits => by
      simp only [RuleDefinition.fits, Bool.and_eq_true] at hfits
      obtain ⟨⟨⟨⟨⟨htexts, hcaptures⟩, hbegin⟩, hend⟩, hpatterns⟩, hrepository⟩ := hfits
      simp only [RuleDefinition.inOrder, RuleDefinition.storable, Bool.and_eq_true]
      exact ⟨⟨⟨⟨⟨htexts, storable_inOrderCaptures? captures hcaptures⟩,
        storable_inOrderCaptures? beginCaptures hbegin⟩,
        storable_inOrderCaptures? endCaptures hend⟩, storable_inOrderRules? patterns hpatterns⟩,
        storable_inOrderEntries? repository hrepository⟩
  termination_by structural rule => rule

theorem storable_inOrderRules? : (rules : Option (List RuleDefinition)) → fitsRules? rules →
    storableRules? (inOrderRules? rules)
  | none, _ => rfl
  | some rules, hfits => by
      simp only [fitsRules?, Bool.and_eq_true] at hfits
      simp only [inOrderRules?, storableRules?, Bool.and_eq_true, length_inOrderRules]
      exact ⟨hfits.1, storable_inOrderRules rules hfits.2⟩
  termination_by structural rules => rules

theorem storable_inOrderEntries? : (entries : Option (List (String × RuleDefinition))) →
    fitsEntries? entries → storableEntries? (inOrderEntries? entries)
  | none, _ => rfl
  | some entries, hfits => by
      simp only [fitsEntries?, Bool.and_eq_true] at hfits
      simp only [inOrderEntries?, storableEntries?, Bool.and_eq_true]
      exact ⟨⟨fitsLength_of_le hfits.1 (length_ofList_inOrderEntries_le entries),
        Entries.ascending_ofList _⟩,
        storableEntries_ofList (storable_inOrderEntries entries hfits.2)⟩
  termination_by structural entries => entries

theorem storable_inOrderCaptures? :
    (captures : Option (List (String × CaptureOf RuleDefinition))) → fitsCaptures? captures →
      storableCaptures? (inOrderCaptures? captures)
  | none, _ => rfl
  | some captures, hfits => by
      simp only [fitsCaptures?, Bool.and_eq_true] at hfits
      simp only [inOrderCaptures?, storableCaptures?, Bool.and_eq_true]
      exact ⟨⟨fitsLength_of_le hfits.1 (length_ofList_inOrderCaptures_le captures),
        Entries.ascending_ofList _⟩,
        storableCaptures_ofList (storable_inOrderCaptures captures hfits.2)⟩
  termination_by structural captures => captures

theorem storable_inOrderRules : (rules : List RuleDefinition) → fitsRules rules →
    storableRules (inOrderRules rules)
  | [], _ => rfl
  | rule :: rules, hfits => by
      simp only [fitsRules, Bool.and_eq_true] at hfits
      simp only [inOrderRules, storableRules, Bool.and_eq_true]
      exact ⟨rule.storable_inOrder hfits.1, storable_inOrderRules rules hfits.2⟩
  termination_by structural rules => rules

theorem storable_inOrderEntries : (entries : List (String × RuleDefinition)) →
    fitsEntries entries → storableEntries (inOrderEntries entries)
  | [], _ => rfl
  | (key, rule) :: entries, hfits => by
      simp only [fitsEntries, Bool.and_eq_true] at hfits
      simp only [inOrderEntries, storableEntries, Bool.and_eq_true]
      exact ⟨⟨hfits.1.1, rule.storable_inOrder hfits.1.2⟩, storable_inOrderEntries entries hfits.2⟩
  termination_by structural entries => entries

theorem storable_inOrderCaptures : (captures : List (String × CaptureOf RuleDefinition)) →
    fitsCaptures captures → storableCaptures (inOrderCaptures captures)
  | [], _ => rfl
  | (key, ⟨name, patterns⟩) :: captures, hfits => by
      simp only [fitsCaptures, Bool.and_eq_true] at hfits
      simp only [inOrderCaptures, storableCaptures, Bool.and_eq_true]
      exact ⟨⟨hfits.1.1, storable_inOrderRules? patterns hfits.1.2⟩,
        storable_inOrderCaptures captures hfits.2⟩
  termination_by structural captures => captures

end

theorem GrammarDefinition.storable_inOrder {definition : GrammarDefinition}
    (h : definition.fits) : definition.inOrder.storable := by
  simp only [GrammarDefinition.fits, Bool.and_eq_true] at h
  obtain ⟨⟨⟨⟨htexts, hlength⟩, hpatterns⟩, hlength'⟩, hrepository⟩ := h
  simp only [GrammarDefinition.inOrder, GrammarDefinition.storable, Bool.and_eq_true,
    length_inOrderRules]
  exact ⟨⟨⟨⟨⟨htexts, hlength⟩, storable_inOrderRules _ hpatterns⟩,
    fitsLength_of_le hlength' (length_ofList_inOrderEntries_le _)⟩, Entries.ascending_ofList _⟩,
    storableEntries_ofList (storable_inOrderEntries _ hrepository)⟩

/-! ### What is in order is not longer -/

namespace Compiled

theorem length_littleEndian (count n : Nat) : (littleEndian count n).length = count := by
  induction count generalizing n with
  | zero => rfl
  | succ count ih => rw [littleEndian, List.length_cons, ih]

theorem length_encodeLength (n : Nat) : (encodeLength n).length = 8 := length_littleEndian 8 n

def encodeCapture (capture : CaptureDefinition) : List UInt8 :=
  encodeText? capture.name ++ encodeRules? capture.patterns

theorem encodeRules_eq (rules : List RuleDefinition) :
    encodeRules rules = rules.flatMap encodeRule := by
  induction rules with
  | nil => rfl
  | cons rule rules ih => rw [encodeRules, List.flatMap_cons, ih]

theorem encodeEntries_eq (entries : List (String × RuleDefinition)) :
    encodeEntries entries =
      entries.flatMap fun entry => encodeText entry.1 ++ encodeRule entry.2 := by
  induction entries with
  | nil => rfl
  | cons entry entries ih => rw [encodeEntries, List.flatMap_cons, ih]

theorem encodeCaptures_eq (captures : List (String × CaptureDefinition)) :
    encodeCaptures captures =
      captures.flatMap fun capture => encodeText capture.1 ++ encodeCapture capture.2 := by
  induction captures with
  | nil => rfl
  | cons capture captures ih =>
      rw [encodeCaptures, List.flatMap_cons, ih, encodeCapture,
        List.append_assoc (encodeText capture.1)]

theorem length_encodeEntries_ofList_le (entries : List (String × RuleDefinition)) :
    (encodeEntries (Entries.ofList entries)).length ≤ (encodeEntries entries).length := by
  rw [encodeEntries_eq, encodeEntries_eq]
  exact Entries.length_flatMap_ofList_le _ entries

theorem length_encodeCaptures_ofList_le (captures : List (String × CaptureDefinition)) :
    (encodeCaptures (Entries.ofList captures)).length ≤ (encodeCaptures captures).length := by
  rw [encodeCaptures_eq, encodeCaptures_eq]
  exact Entries.length_flatMap_ofList_le _ captures

mutual

theorem length_encode_inOrder_le : (rule : RuleDefinition) →
    (encodeRule rule.inOrder).length ≤ (encodeRule rule).length
  | ⟨reference, name, contentName, matchSource, beginSource, endSource, whileSource, captures,
      beginCaptures, endCaptures, patterns, repository, last⟩ => by
      have hcaptures := length_encode_inOrderCaptures?_le captures
      have hbegin := length_encode_inOrderCaptures?_le beginCaptures
      have hend := length_encode_inOrderCaptures?_le endCaptures
      have hpatterns := length_encode_inOrderRules?_le patterns
      have hrepository := length_encode_inOrderEntries?_le repository
      simp only [RuleDefinition.inOrder, encodeRule, List.length_append]
      omega
  termination_by structural rule => rule

theorem length_encode_inOrderRules?_le : (rules : Option (List RuleDefinition)) →
    (encodeRules? (inOrderRules? rules)).length ≤ (encodeRules? rules).length
  | none => Nat.le_refl _
  | some rules => by
      have hrules := length_encode_inOrderRules_le rules
      simp only [inOrderRules?, encodeRules?, List.length_cons, List.length_append,
        length_encodeLength]
      omega
  termination_by structural rules => rules

theorem length_encode_inOrderEntries?_le : (entries : Option (List (String × RuleDefinition))) →
    (encodeEntries? (inOrderEntries? entries)).length ≤ (encodeEntries? entries).length
  | none => Nat.le_refl _
  | some entries => by
      have hentries := length_encode_inOrderEntries_le entries
      have htable := length_encodeEntries_ofList_le (inOrderEntries entries)
      simp only [inOrderEntries?, encodeEntries?, List.length_cons, List.length_append,
        length_encodeLength]
      omega
  termination_by structural entries => entries

theorem length_encode_inOrderCaptures?_le :
    (captures : Option (List (String × CaptureOf RuleDefinition))) →
      (encodeCaptures? (inOrderCaptures? captures)).length ≤ (encodeCaptures? captures).length
  | none => Nat.le_refl _
  | some captures => by
      have hcaptures := length_encode_inOrderCaptures_le captures
      have htable := length_encodeCaptures_ofList_le (inOrderCaptures captures)
      simp only [inOrderCaptures?, encodeCaptures?, List.length_cons, List.length_append,
        length_encodeLength]
      omega
  termination_by structural captures => captures

theorem length_encode_inOrderRules_le : (rules : List RuleDefinition) →
    (encodeRules (inOrderRules rules)).length ≤ (encodeRules rules).length
  | [] => Nat.le_refl _
  | rule :: rules => by
      have hrule := length_encode_inOrder_le rule
      have hrules := length_encode_inOrderRules_le rules
      simp only [inOrderRules, encodeRules, List.length_append]
      omega
  termination_by structural rules => rules

theorem length_encode_inOrderEntries_le : (entries : List (String × RuleDefinition)) →
    (encodeEntries (inOrderEntries entries)).length ≤ (encodeEntries entries).length
  | [] => Nat.le_refl _
  | (key, rule) :: entries => by
      have hrule := length_encode_inOrder_le rule
      have hentries := length_encode_inOrderEntries_le entries
      simp only [inOrderEntries, encodeEntries, List.length_append]
      omega
  termination_by structural entries => entries

theorem length_encode_inOrderCaptures_le : (captures : List (String × CaptureOf RuleDefinition)) →
    (encodeCaptures (inOrderCaptures captures)).length ≤ (encodeCaptures captures).length
  | [] => Nat.le_refl _
  | (key, ⟨name, patterns⟩) :: captures => by
      have hpatterns := length_encode_inOrderRules?_le patterns
      have hcaptures := length_encode_inOrderCaptures_le captures
      simp only [inOrderCaptures, encodeCaptures, List.length_append]
      omega
  termination_by structural captures => captures

end

theorem length_encode_inOrderDefinition_le (definition : GrammarDefinition) :
    (encode definition.inOrder).length ≤ (encode definition).length := by
  have hpatterns := length_encode_inOrderRules_le definition.patterns
  have hentries := length_encode_inOrderEntries_le definition.repository
  have htable := length_encodeEntries_ofList_le (inOrderEntries definition.repository)
  simp only [GrammarDefinition.inOrder, encode, List.length_append, length_encodeLength]
  omega

end Compiled

end ScopeLexer
