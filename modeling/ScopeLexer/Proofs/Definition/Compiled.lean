import ScopeLexer.Definition.Format
import ScopeLexer.Proofs.Definition.Storable
import ScopeLexer.Proofs.Outcome
import ScopeLexer.Proofs.Text.Utf8

/-!
# Definitions that are compiled and read again

Lengths come in front of what they count, so a reader knows where to stop: a value is read from its
bytes whatever follows them.  And a reader that succeeds never looked at what it left, so it succeeds
in the same way when more follows.  Together: nothing compiled begins something else compiled.
-/

namespace ScopeLexer

open Outcome

namespace Compiled

variable {α β : Type} {first first' : Reader α} {next next' : α → Reader β} {read read' : Reader α}
  {bytes more : List UInt8} {value : α} {result : β} {count nesting : Nat}

/-! ## What is read again -/

/-- A value is read from bytes, whatever follows them. -/
def Reads (read : Reader α) (bytes : List UInt8) (value : α) : Prop :=
  ∀ rest, read (bytes ++ rest) = .ok (value, rest)

namespace Reads

theorem pure (value : α) : Reads (pure value) [] value := fun _ => rfl

theorem bind (hfirst : Reads first bytes value) (hnext : Reads (next value) more result) :
    Reads (first >>= next) (bytes ++ more) result := by
  intro rest
  change (first (bytes ++ more ++ rest) >>= fun read => next read.1 read.2) = _
  rw [List.append_assoc, hfirst (more ++ rest)]
  exact hnext rest

theorem last (hfirst : Reads first bytes value) (hnext : Reads (next value) [] result) :
    Reads (first >>= next) bytes result := by
  simpa using hfirst.bind hnext

end Reads

theorem decodeByte_reads (b : UInt8) : Reads decodeByte [b] b := fun _ => rfl

theorem decodeBytes_reads (bytes : List UInt8) : Reads (decodeBytes bytes.length) bytes bytes := by
  intro rest
  have hlength : ¬ (bytes ++ rest).length < bytes.length := by
    rw [List.length_append]
    omega
  rw [decodeBytes, if_neg hlength, List.take_left, List.drop_left]

theorem decodeNumber_reads {n : Nat} (h : n < 256 ^ count) :
    Reads (decodeNumber count) (littleEndian count n) n := by
  induction count generalizing n with
  | zero =>
      obtain rfl : n = 0 := by simpa using h
      exact .pure 0
  | succ count ih =>
      have hhigh : n / 256 < 256 ^ count := Nat.div_lt_of_lt_mul (Nat.pow_succ' ▸ h)
      have hlow : (n % 256).toUInt8.toNat = n % 256 := Utf8.toNat_byte (Nat.mod_lt _ (by omega))
      have hread : Reads (decodeNumber (count + 1)) (littleEndian (count + 1) n)
          ((n % 256).toUInt8.toNat + 256 * (n / 256)) :=
        (decodeByte_reads _).bind ((ih hhigh).last (.pure _))
      rw [hlow, Nat.mod_add_div] at hread
      exact hread

theorem decodeLength_reads {n : Nat} (h : fitsLength n) :
    Reads decodeLength (encodeLength n) n :=
  decodeNumber_reads (of_decide_eq_true h)

theorem decodeFlag_reads (flag : Bool) : Reads decodeFlag (encodeFlag flag) flag := by
  cases flag <;> exact fun _ => rfl

theorem decodeText_reads {s : String} (h : fitsText s) : Reads decodeText (encodeText s) s := by
  refine (decodeLength_reads h).bind ((decodeBytes_reads _).last ?_)
  rw [Utf8.decode_encode]
  simpa using Reads.pure (String.ofList s.toList)

theorem decodeOption_none : Reads (decodeOption read) [0] none := fun _ => rfl

theorem decodeOption_some (h : Reads read bytes value) :
    Reads (decodeOption read) (1 :: bytes) (some value) :=
  (decodeByte_reads 1).bind (h.last (.pure (some value)))

theorem decodeText?_reads {s : Option String} (h : s.all fitsText) :
    Reads (decodeOption decodeText) (encodeText? s) s := by
  cases s with
  | none => exact decodeOption_none
  | some s => exact decodeOption_some (decodeText_reads h)

theorem decodeTimes_nil : Reads (decodeTimes read 0) [] [] := .pure []

theorem decodeTimes_cons {values : List α} (hvalue : Reads read bytes value)
    (hvalues : Reads (decodeTimes read count) more values) :
    Reads (decodeTimes read (count + 1)) (bytes ++ more) (value :: values) :=
  hvalue.bind (hvalues.last (.pure (value :: values)))

theorem decodeList_reads {values : List α} (hlength : fitsLength values.length)
    (h : Reads (decodeTimes read values.length) bytes values) :
    Reads (decodeList read) (encodeLength values.length ++ bytes) values :=
  (decodeLength_reads hlength).bind h

theorem decodeTexts_reads {texts : List String} (hlength : fitsLength texts.length)
    (h : texts.all fitsText) : Reads (decodeList decodeText) (encodeTexts texts) texts := by
  refine decodeList_reads hlength ?_
  clear hlength
  induction texts with
  | nil => exact decodeTimes_nil
  | cons text texts ih =>
      rw [List.all_cons, Bool.and_eq_true] at h
      exact decodeTimes_cons (decodeText_reads h.1) (ih h.2)

theorem decodeEntry_reads {key : String} (hkey : fitsText key) (h : Reads read bytes value) :
    Reads (decodeEntry read) (encodeText key ++ bytes) (key, value) :=
  (decodeText_reads hkey).bind (h.last (.pure (key, value)))

theorem decodeTable_reads {entries : Entries α} (hlength : fitsLength entries.length)
    (hascending : entries.ascending)
    (h : Reads (decodeTimes (decodeEntry read) entries.length) bytes entries) :
    Reads (decodeTable read) (encodeLength entries.length ++ bytes) entries := by
  refine (decodeList_reads hlength h).last ?_
  rw [Entries.ofList_of_ascending hascending]
  exact .pure entries

theorem decodeCapture_reads {rule : Reader RuleDefinition} {name : Option String}
    {patterns : Option (List RuleDefinition)} (hname : name.all fitsText)
    (hpatterns : Reads (decodeOption (decodeList rule)) bytes patterns) :
    Reads (decodeCapture rule) (encodeText? name ++ bytes) ⟨name, patterns⟩ :=
  (decodeText?_reads hname).bind (hpatterns.last (.pure _))

mutual

theorem decodeRule_reads {nesting : Nat} : (rule : RuleDefinition) → rule.storable →
    (encodeRule rule).length ≤ nesting → Reads (decodeRule nesting) (encodeRule rule) rule
  | ⟨reference, name, contentName, matchSource, beginSource, endSource, whileSource, captures,
      beginCaptures, endCaptures, patterns, repository, last⟩, hstorable, hlength => by
      cases nesting with
      | zero => simp [encodeRule, encodeFlag] at hlength
      | succ nesting =>
          simp only [RuleDefinition.storable, Bool.and_eq_true] at hstorable
          simp only [encodeRule, encodeFlag, List.length_append, List.length_singleton] at hlength
          obtain ⟨⟨⟨⟨⟨⟨⟨⟨⟨⟨⟨hreference, hname⟩, hcontentName⟩, hmatch⟩, hbegin⟩, hend⟩, hwhile⟩,
            hcaptures⟩, hbeginCaptures⟩, hendCaptures⟩, hpatterns⟩, hrepository⟩ := hstorable
          simp only [encodeRule, List.append_assoc]
          exact (decodeText?_reads hreference).bind <| (decodeText?_reads hname).bind <|
            (decodeText?_reads hcontentName).bind <| (decodeText?_reads hmatch).bind <|
            (decodeText?_reads hbegin).bind <| (decodeText?_reads hend).bind <|
            (decodeText?_reads hwhile).bind <|
            (decodeCaptures?_reads captures hcaptures (by omega)).bind <|
            (decodeCaptures?_reads beginCaptures hbeginCaptures (by omega)).bind <|
            (decodeCaptures?_reads endCaptures hendCaptures (by omega)).bind <|
            (decodeRules?_reads patterns hpatterns (by omega)).bind <|
            (decodeEntries?_reads repository hrepository (by omega)).bind <|
            (decodeFlag_reads last).last (.pure _)
  termination_by structural rule => rule

theorem decodeRules?_reads {nesting : Nat} : (rules : Option (List RuleDefinition)) →
    storableRules? rules → (encodeRules? rules).length ≤ nesting →
      Reads (decodeOption (decodeList (decodeRule nesting))) (encodeRules? rules) rules
  | none, _, _ => decodeOption_none
  | some rules, hstorable, hlength => by
      simp only [storableRules?, Bool.and_eq_true] at hstorable
      simp only [encodeRules?, List.length_cons, List.length_append] at hlength
      exact decodeOption_some (decodeList_reads hstorable.1
        (decodeRules_reads rules hstorable.2 (by omega)))
  termination_by structural rules => rules

theorem decodeEntries?_reads {nesting : Nat} :
    (entries : Option (List (String × RuleDefinition))) → storableEntries? entries →
      (encodeEntries? entries).length ≤ nesting →
        Reads (decodeOption (decodeTable (decodeRule nesting))) (encodeEntries? entries) entries
  | none, _, _ => decodeOption_none
  | some entries, hstorable, hlength => by
      simp only [storableEntries?, Bool.and_eq_true] at hstorable
      simp only [encodeEntries?, List.length_cons, List.length_append] at hlength
      exact decodeOption_some (decodeTable_reads hstorable.1.1 hstorable.1.2
        (decodeEntries_reads entries hstorable.2 (by omega)))
  termination_by structural entries => entries

theorem decodeCaptures?_reads {nesting : Nat} :
    (captures : Option (List (String × CaptureOf RuleDefinition))) → storableCaptures? captures →
      (encodeCaptures? captures).length ≤ nesting →
        Reads (decodeOption (decodeTable (decodeCapture (decodeRule nesting))))
          (encodeCaptures? captures) captures
  | none, _, _ => decodeOption_none
  | some captures, hstorable, hlength => by
      simp only [storableCaptures?, Bool.and_eq_true] at hstorable
      simp only [encodeCaptures?, List.length_cons, List.length_append] at hlength
      exact decodeOption_some (decodeTable_reads hstorable.1.1 hstorable.1.2
        (decodeCaptures_reads captures hstorable.2 (by omega)))
  termination_by structural captures => captures

theorem decodeRules_reads {nesting : Nat} : (rules : List RuleDefinition) → storableRules rules →
    (encodeRules rules).length ≤ nesting →
      Reads (decodeTimes (decodeRule nesting) rules.length) (encodeRules rules) rules
  | [], _, _ => decodeTimes_nil
  | rule :: rules, hstorable, hlength => by
      simp only [storableRules, Bool.and_eq_true] at hstorable
      simp only [encodeRules, List.length_append] at hlength
      exact decodeTimes_cons (decodeRule_reads rule hstorable.1 (by omega))
        (decodeRules_reads rules hstorable.2 (by omega))
  termination_by structural rules => rules

theorem decodeEntries_reads {nesting : Nat} : (entries : List (String × RuleDefinition)) →
    storableEntries entries → (encodeEntries entries).length ≤ nesting →
      Reads (decodeTimes (decodeEntry (decodeRule nesting)) entries.length)
        (encodeEntries entries) entries
  | [], _, _ => decodeTimes_nil
  | (key, rule) :: entries, hstorable, hlength => by
      simp only [storableEntries, Bool.and_eq_true] at hstorable
      simp only [encodeEntries, List.length_append] at hlength
      exact decodeTimes_cons
        (decodeEntry_reads hstorable.1.1 (decodeRule_reads rule hstorable.1.2 (by omega)))
        (decodeEntries_reads entries hstorable.2 (by omega))
  termination_by structural entries => entries

theorem decodeCaptures_reads {nesting : Nat} :
    (captures : List (String × CaptureOf RuleDefinition)) → storableCaptures captures →
      (encodeCaptures captures).length ≤ nesting →
        Reads (decodeTimes (decodeEntry (decodeCapture (decodeRule nesting))) captures.length)
          (encodeCaptures captures) captures
  | [], _, _ => decodeTimes_nil
  | (key, ⟨name, patterns⟩) :: captures, hstorable, hlength => by
      simp only [storableCaptures, Bool.and_eq_true] at hstorable
      simp only [encodeCaptures, List.length_append] at hlength
      obtain ⟨⟨⟨hkey, hname⟩, hpatterns⟩, hcaptures⟩ := hstorable
      rw [encodeCaptures, List.append_assoc (encodeText key)]
      exact decodeTimes_cons
        (decodeEntry_reads hkey
          (decodeCapture_reads hname (decodeRules?_reads patterns hpatterns (by omega))))
        (decodeCaptures_reads captures hcaptures (by omega))
  termination_by structural captures => captures

end

theorem decodeDefinition_reads {definition : GrammarDefinition} (h : definition.storable)
    (hlength : (encode definition).length ≤ nesting) :
    Reads (decodeDefinition nesting) (encode definition) definition := by
  obtain ⟨scopeName, name, fileTypes, patterns, repository⟩ := definition
  simp only [GrammarDefinition.storable, Bool.and_eq_true] at h
  obtain ⟨⟨⟨⟨⟨⟨⟨⟨hscopeName, hname⟩, htypes⟩, hallTypes⟩, hpatterns⟩, hallPatterns⟩, hrepository⟩,
    hascending⟩, hentries⟩ := h
  simp only [encode, List.length_append] at hlength
  have hbytes : encode ⟨scopeName, name, fileTypes, patterns, repository⟩ =
      encodeText scopeName ++ (encodeText? name ++ (encodeTexts fileTypes ++
        ((encodeLength patterns.length ++ encodeRules patterns) ++
          (encodeLength repository.length ++ encodeEntries repository)))) := by
    simp only [encode, List.append_assoc]
  rw [hbytes]
  exact (decodeText_reads hscopeName).bind <| (decodeText?_reads hname).bind <|
    (decodeTexts_reads htypes hallTypes).bind <|
    (decodeList_reads hpatterns (decodeRules_reads patterns hallPatterns (by omega))).bind <|
    (decodeTable_reads hrepository hascending
      (decodeEntries_reads repository hentries (by omega))).last (.pure _)

/-! ## What more bytes change -/

def Extends (read read' : Reader α) : Prop :=
  ∀ ⦃bytes value rest⦄, read bytes = .ok (value, rest) →
    ∀ more, read' (bytes ++ more) = .ok (value, rest ++ more)

namespace Extends

theorem pure (value : α) : Extends (pure value) (pure value) := by
  intro bytes result rest h more
  cases h
  rfl

theorem throw (fault : Fault) : Extends (throw fault : Reader α) read := nofun

theorem bind (hfirst : Extends first first') (hnext : ∀ value, Extends (next value) (next' value)) :
    Extends (first >>= next) (first' >>= next') := by
  intro bytes result rest h more
  change (first bytes >>= fun read => next read.1 read.2) = _ at h
  change (first' (bytes ++ more) >>= fun read => next' read.1 read.2) = _
  obtain ⟨⟨value, middle⟩, hvalue, hresult⟩ := bind_eq_ok.mp h
  rw [hfirst hvalue more]
  exact hnext value hresult more

theorem ite {c : Prop} [Decidable c] (h : Extends first first') (h' : Extends read read') :
    Extends (if c then first else read) (if c then first' else read') := by
  split
  · exact h
  · exact h'

end Extends

theorem decodeByte_extends : Extends decodeByte decodeByte := by
  intro bytes value rest h more
  cases bytes with
  | nil => contradiction
  | cons b bytes =>
      cases h
      rfl

theorem decodeBytes_extends (length : Nat) : Extends (decodeBytes length) (decodeBytes length) := by
  intro bytes value rest h more
  unfold decodeBytes at h ⊢
  split at h
  · contradiction
  · next hlength =>
    cases h
    have hmore : ¬ (bytes ++ more).length < length := by
      rw [List.length_append]
      omega
    rw [if_neg hmore, List.take_append_of_le_length (by omega),
      List.drop_append_of_le_length (by omega)]

theorem decodeNumber_extends (count : Nat) :
    Extends (decodeNumber count) (decodeNumber count) := by
  induction count with
  | zero => exact .pure 0
  | succ count ih => exact decodeByte_extends.bind fun b => ih.bind fun high => .pure _

theorem decodeLength_extends : Extends decodeLength decodeLength := decodeNumber_extends 8

theorem decodeFlag_extends : Extends decodeFlag decodeFlag :=
  decodeByte_extends.bind fun _ => (Extends.pure false).ite ((Extends.pure true).ite (.throw _))

theorem decodeText_extends : Extends decodeText decodeText := by
  refine decodeLength_extends.bind fun length => (decodeBytes_extends length).bind fun bytes => ?_
  split
  · exact .pure _
  · exact .throw _

theorem decodeOption_extends (h : Extends read read') :
    Extends (decodeOption read) (decodeOption read') :=
  decodeByte_extends.bind fun _ =>
    (Extends.pure none).ite ((h.bind fun value => .pure (some value)).ite (.throw _))

theorem decodeTimes_extends (h : Extends read read') (count : Nat) :
    Extends (decodeTimes read count) (decodeTimes read' count) := by
  induction count with
  | zero => exact .pure []
  | succ count ih => exact h.bind fun value => ih.bind fun values => .pure (value :: values)

theorem decodeList_extends (h : Extends read read') : Extends (decodeList read) (decodeList read') :=
  decodeLength_extends.bind (decodeTimes_extends h)

theorem decodeEntry_extends (h : Extends read read') :
    Extends (decodeEntry read) (decodeEntry read') :=
  decodeText_extends.bind fun key => h.bind fun value => .pure (key, value)

theorem decodeTable_extends (h : Extends read read') :
    Extends (decodeTable read) (decodeTable read') :=
  (decodeList_extends (decodeEntry_extends h)).bind fun entries => .pure (Entries.ofList entries)

theorem decodeCapture_extends {rule rule' : Reader RuleDefinition} (h : Extends rule rule') :
    Extends (decodeCapture rule) (decodeCapture rule') :=
  (decodeOption_extends decodeText_extends).bind fun name =>
    (decodeOption_extends (decodeList_extends h)).bind fun patterns =>
      .pure (⟨name, patterns⟩ : CaptureDefinition)

theorem decodeRule_extends {nesting deeper : Nat} (h : nesting ≤ deeper) :
    Extends (decodeRule nesting) (decodeRule deeper) := by
  induction nesting generalizing deeper with
  | zero => exact .throw _
  | succ nesting ih =>
      obtain ⟨deeper, rfl⟩ : ∃ less, deeper = less + 1 := ⟨deeper - 1, by omega⟩
      have hrule := ih (Nat.le_of_succ_le_succ h)
      have htext := decodeOption_extends decodeText_extends
      have hcaptures := decodeOption_extends (decodeTable_extends (decodeCapture_extends hrule))
      exact htext.bind fun _ => htext.bind fun _ => htext.bind fun _ => htext.bind fun _ =>
        htext.bind fun _ => htext.bind fun _ => htext.bind fun _ =>
        hcaptures.bind fun _ => hcaptures.bind fun _ => hcaptures.bind fun _ =>
        (decodeOption_extends (decodeList_extends hrule)).bind fun _ =>
        (decodeOption_extends (decodeTable_extends hrule)).bind fun _ =>
        decodeFlag_extends.bind fun _ => .pure _

theorem decodeDefinition_extends {nesting deeper : Nat} (h : nesting ≤ deeper) :
    Extends (decodeDefinition nesting) (decodeDefinition deeper) := by
  have hrule := decodeRule_extends h
  exact decodeText_extends.bind fun _ => (decodeOption_extends decodeText_extends).bind fun _ =>
    (decodeList_extends decodeText_extends).bind fun _ => (decodeList_extends hrule).bind fun _ =>
    (decodeTable_extends hrule).bind fun _ => .pure _

/-! ## Compiled definitions -/

theorem decode_encode_append {definition : GrammarDefinition} (h : definition.storable)
    (rest : List UInt8) : decode (encode definition ++ rest) = .ok definition := by
  have hlength : (encode definition).length ≤ (encode definition ++ rest).length := by
    rw [List.length_append]
    omega
  have hread := decodeDefinition_reads h hlength rest
  simp only [decode, StateT.run', hread]
  rfl

/-- A part at the front would, with the rest behind it, be read as a definition that leaves bytes. -/
theorem decode_cut {definition : GrammarDefinition} (h : definition.storable)
    {cut : List UInt8} (hcut : cut <+: encode definition) (hne : cut ≠ encode definition) :
    ∃ fault, decode cut = .error fault := by
  cases hdecode : decodeDefinition cut.length cut with
  | error fault => exact ⟨fault, by simp only [decode, StateT.run', hdecode]; rfl⟩
  | ok read =>
      exfalso
      obtain ⟨more, hmore⟩ := hcut
      have hle : cut.length ≤ (encode definition).length := by
        rw [← hmore, List.length_append]
        omega
      have hwhole := decodeDefinition_reads h (Nat.le_refl _) []
      have hextended := decodeDefinition_extends hle hdecode more
      rw [List.append_nil] at hwhole
      rw [hmore, hwhole, Except.ok.injEq, Prod.mk.injEq] at hextended
      have hnone : more = [] := (List.append_eq_nil_iff.mp hextended.2.symm).2
      exact hne (by rw [← hmore, hnone, List.append_nil])

/-- A definition is read from its compiled form, whatever follows; and no part of the form that begins
it is one. -/
theorem encode_selfDelimiting (definition : GrammarDefinition) (h : definition.storable) :
    (∀ rest, Definition.decode .compiled (encode definition ++ rest) = .ok definition) ∧
    ∀ cut, cut <+: encode definition → cut ≠ encode definition →
      ∃ fault, Definition.decode .compiled cut = .error fault := by
  constructor
  · intro rest
    simp only [Definition.decode, decode_encode_append h rest]
    rfl
  · intro cut hcut hne
    obtain ⟨fault, hfault⟩ := decode_cut h hcut hne
    refine ⟨.compiled fault, ?_⟩
    simp only [Definition.decode, hfault]
    rfl

def nested : GrammarDefinition where
  scopeName := "source.é"
  name := some "€"
  fileTypes := ["a", "𝄞"]
  patterns := [{
    beginSource := some "("
    endSource := some ")"
    beginCaptures := some [
      ("0", { name := some "open" }),
      ("1", { patterns := some [{ reference := some "#inner", applyEndPatternLast := true }] })]
    patterns := some [{ reference := some "$self" }] }]
  repository := [
    ("inner", { repository := some [("a", { matchSource := some "x" }), ("b", {})] }),
    ("other", {})]

theorem nested_selfDelimiting : nested.storable = true ∧
    Definition.decode .compiled (encode nested ++ [0, 255]) = .ok nested ∧
    ∃ fault, Definition.decode .compiled ((encode nested).take 200) = .error fault := by
  have hstorable : nested.storable = true := by decide +kernel
  have hshort : (encode nested).take 200 ≠ encode nested := by decide +kernel
  obtain ⟨hread, hcut⟩ := encode_selfDelimiting nested hstorable
  exact ⟨hstorable, hread _, hcut _ (List.take_prefix _ _) hshort⟩

end Compiled

end ScopeLexer
