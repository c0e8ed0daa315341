import Mathlib.Algebra.Group.Nat.Defs
import ScopeLexer.Definition
import ScopeLexer.Text.Utf8

/-!
# Definitions that have a compiled form

Two things are asked of a definition, and every one that a machine holds has them: its tables are in
order, as they are wherever they were read, and eight bytes hold the length of any text, list or
table.
-/

namespace ScopeLexer

/-! ## Lengths and tables -/

def fitsLength (n : Nat) : Bool := n < 2 ^ 64

def fitsText (s : String) : Bool := fitsLength (Utf8.encode s.toList).length

/-- Whether the keys of a table are in ascending order, each once. -/
def Entries.ascending {α : Type} (entries : Entries α) : Bool :=
  entries.Pairwise (·.1 < ·.1)

namespace Entries

variable {α : Type}

theorem insert_last {table : Entries α} {key : String} {value : α}
    (h : ∀ entry ∈ table, entry.1 < key) : insert key value table = table ++ [(key, value)] := by
  induction table with
  | nil => rfl
  | cons entry table ih =>
      obtain ⟨hentry, htable⟩ := List.forall_mem_cons.mp h
      have hne : key ≠ entry.1 := fun heq => String.lt_irrefl _ (heq ▸ hentry)
      rw [insert, if_neg (String.lt_asymm hentry), if_neg (by simpa using hne), ih htable]
      rfl

theorem foldl_insert {table rest : Entries α} (h : (table ++ rest).ascending) :
    rest.foldl (fun table entry => insert entry.1 entry.2 table) table = table ++ rest := by
  induction rest generalizing table with
  | nil => simp
  | cons entry rest ih =>
      have hpairs := List.pairwise_append.mp (of_decide_eq_true h)
      have hbefore : ∀ other ∈ table, other.1 < entry.1 := fun other hother =>
        hpairs.2.2 other hother entry List.mem_cons_self
      have happend : table ++ entry :: rest = table ++ [entry] ++ rest := by simp
      rw [List.foldl_cons, insert_last hbefore, happend]
      exact ih (happend ▸ h)

theorem ofList_of_ascending {entries : Entries α} (h : entries.ascending) :
    ofList entries = entries :=
  foldl_insert h

theorem mem_insert {table : Entries α} {key : String} {value : α} {entry : String × α}
    (h : entry ∈ insert key value table) : entry = (key, value) ∨ entry ∈ table := by
  induction table with
  | nil => exact .inl (List.mem_singleton.mp h)
  | cons other table ih =>
      rw [insert] at h
      split at h
      · exact List.mem_cons.mp h
      · split at h
        · exact (List.mem_cons.mp h).imp_right (List.mem_cons_of_mem _)
        · rcases List.mem_cons.mp h with rfl | h
          · exact .inr List.mem_cons_self
          · exact (ih h).imp_right (List.mem_cons_of_mem _)

theorem insert_ascending {table : Entries α} {key : String} {value : α}
    (h : table.Pairwise (·.1 < ·.1)) : (insert key value table).Pairwise (·.1 < ·.1) := by
  induction table with
  | nil => simp [insert]
  | cons other table ih =>
      obtain ⟨hfirst, htable⟩ := List.pairwise_cons.mp h
      rw [insert]
      split
      · next hlt =>
        refine List.pairwise_cons.mpr ⟨fun entry hentry => ?_, h⟩
        rcases List.mem_cons.mp hentry with rfl | hentry
        · exact hlt
        · exact String.lt_trans hlt (hfirst entry hentry)
      · next hle =>
        split
        · next heq =>
          rw [eq_of_beq heq]
          exact List.pairwise_cons.mpr ⟨hfirst, htable⟩
        · next hne =>
          have hlt : other.1 < key := by
            refine String.not_le.mp fun hkey => hne ?_
            exact beq_iff_eq.mpr (String.le_antisymm hkey (String.not_lt.mp hle))
          refine List.pairwise_cons.mpr ⟨fun entry hentry => ?_, ih htable⟩
          rcases mem_insert hentry with rfl | hentry
          · exact hlt
          · exact hfirst entry hentry

theorem ascending_ofList (entries : List (String × α)) : (ofList entries).ascending := by
  have hfold (table : Entries α) (h : table.Pairwise (·.1 < ·.1)) :
      (entries.foldl (fun table entry => insert entry.1 entry.2 table) table).Pairwise
        (·.1 < ·.1) := by
    induction entries generalizing table with
    | nil => exact h
    | cons entry entries ih => exact ih _ (insert_ascending h)
  exact decide_eq_true (hfold [] .nil)

end Entries

/-! ## Definitions -/

mutual

def RuleDefinition.storable : RuleDefinition → Bool
  | ⟨reference, name, contentName, matchSource, beginSource, endSource, whileSource, captures,
      beginCaptures, endCaptures, patterns, repository, _⟩ =>
      reference.all fitsText && name.all fitsText && contentName.all fitsText
        && matchSource.all fitsText && beginSource.all fitsText && endSource.all fitsText
        && whileSource.all fitsText && storableCaptures? captures
        && storableCaptures? beginCaptures && storableCaptures? endCaptures
        && storableRules? patterns && storableEntries? repository
  termination_by structural rule => rule

def storableRules? : Option (List RuleDefinition) → Bool
  | none => true
  | some rules => fitsLength rules.length && storableRules rules
  termination_by structural rules => rules

def storableEntries? : Option (List (String × RuleDefinition)) → Bool
  | none => true
  | some entries => fitsLength entries.length && Entries.ascending entries && storableEntries entries
  termination_by structural entries => entries

def storableCaptures? : Option (List (String × CaptureOf RuleDefinition)) → Bool
  | none => true
  | some captures =>
      fitsLength captures.length && Entries.ascending captures && storableCaptures captures
  termination_by structural captures => captures

def storableRules : List RuleDefinition → Bool
  | [] => true
  | rule :: rules => rule.storable && storableRules rules
  termination_by structural rules => rules

def storableEntries : List (String × RuleDefinition) → Bool
  | [] => true
  | (key, rule) :: entries => fitsText key && rule.storable && storableEntries entries
  termination_by structural entries => entries

def storableCaptures : List (String × CaptureOf RuleDefinition) → Bool
  | [] => true
  | (key, ⟨name, patterns⟩) :: captures =>
      fitsText key && name.all fitsText && storableRules? patterns && storableCaptures captures
  termination_by structural captures => captures

end

def GrammarDefinition.storable (definition : GrammarDefinition) : Bool :=
  fitsText definition.scopeName && definition.name.all fitsText
    && fitsLength definition.fileTypes.length && definition.fileTypes.all fitsText
    && fitsLength definition.patterns.length && storableRules definition.patterns
    && fitsLength definition.repository.length && definition.repository.ascending
    && storableEntries definition.repository

end ScopeLexer
