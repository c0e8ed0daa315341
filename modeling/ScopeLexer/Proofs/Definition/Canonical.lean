import ScopeLexer.Proofs.Definition.Compiled
import ScopeLexer.Proofs.Definition.Written

/-!
# Bytes that are read and written again

Each byte of a compiled form is one that writing makes too, whoever made it: a number, a truth value
and a text have no second spelling.  Only the entries of a table may come in another order than the
one they are written in, or with one key several times.  So where the tables are in order the bytes
come back, and elsewhere no more bytes come back than there were.
-/

namespace ScopeLexer.Compiled

open Outcome

variable {α β : Type} {read first : Reader α} {next : α → Reader β}
  {shape : List UInt8 → α → Prop} {shape' : List UInt8 → β → Prop} {nesting : Nat}

/-! ## What is taken -/

/-- What a reader takes from the front of its bytes has a shape, together with the value. -/
def Takes (read : Reader α) (shape : List UInt8 → α → Prop) : Prop :=
  ∀ ⦃bytes value rest⦄, read bytes = .ok (value, rest) →
    ∃ used, bytes = used ++ rest ∧ shape used value

namespace Takes

theorem pure {value : α} (h : shape [] value) : Takes (pure value) shape := by
  intro bytes result rest hread
  cases hread
  exact ⟨[], rfl, h⟩

theorem throw (fault : Fault) : Takes (throw fault : Reader α) shape := nofun

theorem bind (hfirst : Takes first shape)
    (hnext : ∀ used value, shape used value →
      Takes (next value) fun more result => shape' (used ++ more) result) :
    Takes (first >>= next) shape' := by
  intro bytes result rest hread
  change (first bytes >>= fun read => next read.1 read.2) = _ at hread
  obtain ⟨⟨value, middle⟩, hvalue, hresult⟩ := bind_eq_ok.mp hread
  obtain ⟨used, rfl, hused⟩ := hfirst hvalue
  obtain ⟨more, rfl, hmore⟩ := hnext used value hused hresult
  exact ⟨used ++ more, (List.append_assoc ..).symm, hmore⟩

theorem imp {weaker : List UInt8 → α → Prop} (h : Takes read shape)
    (hweaker : ∀ used value, shape used value → weaker used value) : Takes read weaker := by
  intro bytes value rest hread
  obtain ⟨used, hbytes, hused⟩ := h hread
  exact ⟨used, hbytes, hweaker used value hused⟩

theorem ite {c : Prop} [Decidable c] {other : Reader α} (h : c → Takes read shape)
    (h' : ¬c → Takes other shape) : Takes (if c then read else other) shape := by
  split
  · next hc => exact h hc
  · next hc => exact h' hc

end Takes

/-! ## Forms -/

@[ext]
structure Form (α : Type) where
  fits : α → Bool
  write : α → List UInt8
  arrange : α → α

namespace Form

/-- The bytes are those of something that fits, from which the value is read. -/
def Spells (form : Form α) (bytes : List UInt8) (value : α) : Prop :=
  ∃ written, form.fits written ∧ form.write written = bytes ∧ form.arrange written = value

def text : Form String := ⟨fitsText, encodeText, id⟩

def option (form : Form α) : Form (Option α) where
  fits written := written.all form.fits
  write
    | none => [0]
    | some written => 1 :: form.write written
  arrange written := written.map form.arrange

def list (form : Form α) : Form (List α) where
  fits written := fitsLength written.length && written.all form.fits
  write written := encodeLength written.length ++ written.flatMap form.write
  arrange written := written.map form.arrange

def entry (form : Form α) : Form (String × α) where
  fits written := fitsText written.1 && form.fits written.2
  write written := encodeText written.1 ++ form.write written.2
  arrange written := (written.1, form.arrange written.2)

def table (form : Form α) : Form (Entries α) :=
  { form.entry.list with
    arrange := fun written => Entries.ofList (form.entry.list.arrange written) }

def capture : Form CaptureDefinition := ⟨CaptureOf.fits, encodeCapture, CaptureOf.inOrder⟩

def rule : Form RuleDefinition := ⟨RuleDefinition.fits, encodeRule, RuleDefinition.inOrder⟩

def definition : Form GrammarDefinition :=
  ⟨GrammarDefinition.fits, encode, GrammarDefinition.inOrder⟩

theorem option_eq {form : Form α} {fits : Option α → Bool} {write : Option α → List UInt8}
    {arrange : Option α → Option α}
    (hnone : fits none = true ∧ write none = [0] ∧ arrange none = none)
    (hfits : ∀ written, fits (some written) = form.fits written)
    (hwrite : ∀ written, write (some written) = 1 :: form.write written)
    (harrange : ∀ written, arrange (some written) = some (form.arrange written)) :
    form.option = ⟨fits, write, arrange⟩ := by
  obtain ⟨hfits', hwrite', harrange'⟩ := hnone
  apply Form.ext
  · funext written
    cases written with
    | none => exact hfits'.symm
    | some written => exact (hfits written).symm
  · funext written
    cases written with
    | none => exact hwrite'.symm
    | some written => exact (hwrite written).symm
  · funext written
    cases written with
    | none => exact harrange'.symm
    | some written => exact (harrange written).symm

theorem option_text : text.option = ⟨Option.all fitsText, encodeText?, id⟩ :=
  option_eq ⟨rfl, rfl, rfl⟩ (fun _ => rfl) (fun _ => rfl) (fun _ => rfl)

theorem option_rules : rule.list.option = ⟨fitsRules?, encodeRules?, inOrderRules?⟩ := by
  apply option_eq ⟨rfl, rfl, rfl⟩
  · exact fun rules => congrArg (fitsLength rules.length && ·) (fitsRules_eq rules)
  · exact fun rules =>
      congrArg (fun bytes => 1 :: (encodeLength rules.length ++ bytes)) (encodeRules_eq rules)
  · exact fun rules => congrArg some (inOrderRules_eq rules)

theorem option_entries : rule.table.option = ⟨fitsEntries?, encodeEntries?, inOrderEntries?⟩ := by
  apply option_eq ⟨rfl, rfl, rfl⟩
  · exact fun entries => congrArg (fitsLength entries.length && ·) (fitsEntries_eq entries)
  · exact fun entries =>
      congrArg (fun bytes => 1 :: (encodeLength entries.length ++ bytes)) (encodeEntries_eq entries)
  · exact fun entries =>
      congrArg (fun table => some (Entries.ofList table)) (inOrderEntries_eq entries)

theorem option_captures :
    capture.table.option = ⟨fitsCaptures?, encodeCaptures?, inOrderCaptures?⟩ := by
  apply option_eq ⟨rfl, rfl, rfl⟩
  · exact fun captures => congrArg (fitsLength captures.length && ·) (fitsCaptures_eq captures)
  · exact fun captures =>
      congrArg (fun bytes => 1 :: (encodeLength captures.length ++ bytes))
        (encodeCaptures_eq captures)
  · exact fun captures =>
      congrArg (fun table => some (Entries.ofList table)) (inOrderCaptures_eq captures)

end Form

theorem Takes.bindSpelled {form : Form α} (hfirst : Takes first form.Spells)
    (hnext : ∀ written, form.fits written → Takes (next (form.arrange written)) fun more result =>
      shape' (form.write written ++ more) result) : Takes (first >>= next) shape' := by
  refine hfirst.bind ?_
  rintro _ _ ⟨written, hfits, rfl, rfl⟩
  exact hnext written hfits

/-! ## Numbers, truth values and texts -/

theorem decodeByte_takes : Takes decodeByte fun used b => used = [b] := by
  intro bytes value rest h
  cases bytes with
  | nil => contradiction
  | cons b bytes =>
      cases h
      exact ⟨[value], rfl, rfl⟩

theorem decodeBytes_takes (length : Nat) :
    Takes (decodeBytes length) fun used bytes => used = bytes ∧ bytes.length = length := by
  intro bytes value rest h
  unfold decodeBytes at h
  split at h
  · contradiction
  · next hlength =>
    cases h
    refine ⟨bytes.take length, (List.take_append_drop ..).symm, rfl, ?_⟩
    rw [List.length_take]
    omega

theorem decodeNumber_takes (count : Nat) :
    Takes (decodeNumber count) fun used n => used = littleEndian count n ∧ n < 256 ^ count := by
  induction count with
  | zero => exact .pure ⟨rfl, by decide⟩
  | succ count ih =>
      refine decodeByte_takes.bind fun _ b hb => ih.bind fun _ high hhigh => .pure ?_
      obtain ⟨rfl, hbound⟩ := hhigh
      have hbyte : b.toNat < 256 := b.toNat_lt
      have hlow : ((b.toNat + 256 * high) % 256).toUInt8 = b := Utf8.byte_eq (by omega)
      have hrest : (b.toNat + 256 * high) / 256 = high := by omega
      rw [hb, littleEndian, hlow, hrest, List.append_nil, Nat.pow_succ]
      exact ⟨rfl, by omega⟩

theorem decodeLength_takes :
    Takes decodeLength fun used n => used = encodeLength n ∧ fitsLength n := by
  intro bytes n rest h
  obtain ⟨used, hbytes, hused, hn⟩ := decodeNumber_takes 8 h
  exact ⟨used, hbytes, hused, decide_eq_true hn⟩

theorem decodeFlag_takes : Takes decodeFlag fun used flag => used = encodeFlag flag := by
  refine decodeByte_takes.bind fun used b hb => ?_
  subst hb
  refine .ite (fun hzero => ?_) fun _ => .ite (fun hone => ?_) fun _ => .throw _
  · rw [eq_of_beq hzero]
    exact .pure rfl
  · rw [eq_of_beq hone]
    exact .pure rfl

theorem decodeText_takes : Takes decodeText Form.text.Spells := by
  refine decodeLength_takes.bind fun _ length hlength =>
    (decodeBytes_takes length).bind fun used bytes hbytes => ?_
  obtain ⟨rfl, hfits⟩ := hlength
  obtain ⟨rfl, rfl⟩ := hbytes
  split
  · next chars hchars =>
    have hencode : Utf8.encode (String.ofList chars).toList = used := by
      rw [String.toList_ofList]
      exact Utf8.encode_of_decode hchars
    refine .pure ⟨String.ofList chars, ?_, ?_, rfl⟩
    · rw [← hencode] at hfits
      exact hfits
    · change encodeText (String.ofList chars) = _
      rw [encodeText, hencode, List.append_nil]
  · exact .throw _

/-! ## Options, lists and tables -/

variable {form : Form α}

theorem decodeOption_takes (h : Takes read form.Spells) :
    Takes (decodeOption read) form.option.Spells := by
  refine decodeByte_takes.bind fun used b hb => ?_
  subst hb
  refine .ite (fun hzero => ?_) fun _ => .ite (fun hone => ?_) fun _ => .throw _
  · rw [eq_of_beq hzero]
    exact .pure ⟨none, rfl, rfl, rfl⟩
  · rw [eq_of_beq hone]
    refine h.bindSpelled fun written hfits => .pure ⟨some written, hfits, ?_, rfl⟩
    rw [List.append_nil]
    rfl

theorem decodeTimes_takes (h : Takes read form.Spells) (count : Nat) :
    Takes (decodeTimes read count) fun used values => ∃ written : List α,
      written.length = count ∧ written.all form.fits ∧ written.flatMap form.write = used ∧
        written.map form.arrange = values := by
  induction count with
  | zero => exact .pure ⟨[], rfl, rfl, rfl, rfl⟩
  | succ count ih =>
      refine h.bindSpelled fun written hfits => ih.bind fun more values hvalues => .pure ?_
      obtain ⟨others, rfl, hothers, rfl, rfl⟩ := hvalues
      refine ⟨written :: others, rfl, ?_, ?_, rfl⟩
      · rw [List.all_cons, hfits, hothers, Bool.and_self]
      · rw [List.flatMap_cons, List.append_nil]

theorem decodeList_takes (h : Takes read form.Spells) :
    Takes (decodeList read) form.list.Spells := by
  refine decodeLength_takes.bind fun _ count hcount =>
    (decodeTimes_takes h count).imp fun used values hvalues => ?_
  obtain ⟨rfl, hlength⟩ := hcount
  obtain ⟨written, rfl, hall, rfl, rfl⟩ := hvalues
  exact ⟨written, Bool.and_eq_true_iff.mpr ⟨hlength, hall⟩, rfl, rfl⟩

theorem decodeEntry_takes (h : Takes read form.Spells) :
    Takes (decodeEntry read) form.entry.Spells := by
  refine decodeText_takes.bindSpelled fun key hkey => h.bindSpelled fun written hfits => .pure ?_
  refine ⟨(key, written), Bool.and_eq_true_iff.mpr ⟨hkey, hfits⟩, ?_, rfl⟩
  rw [List.append_nil]
  rfl

theorem decodeTable_takes (h : Takes read form.Spells) :
    Takes (decodeTable read) form.table.Spells := by
  refine (decodeList_takes (decodeEntry_takes h)).bindSpelled fun written hfits => .pure ?_
  exact ⟨written, hfits, (List.append_nil _).symm, rfl⟩

/-! ## Rules and definitions -/

theorem decodeText?_takes :
    Takes (decodeOption decodeText) (Form.Spells ⟨Option.all fitsText, encodeText?, id⟩) :=
  Form.option_text ▸ decodeOption_takes decodeText_takes

section

variable {read : Reader RuleDefinition} (h : Takes read Form.rule.Spells)

include h

theorem decodeRules?_takes : Takes (decodeOption (decodeList read))
    (Form.Spells ⟨fitsRules?, encodeRules?, inOrderRules?⟩) :=
  Form.option_rules ▸ decodeOption_takes (decodeList_takes h)

theorem decodeEntries?_takes : Takes (decodeOption (decodeTable read))
    (Form.Spells ⟨fitsEntries?, encodeEntries?, inOrderEntries?⟩) :=
  Form.option_entries ▸ decodeOption_takes (decodeTable_takes h)

theorem decodeCapture_takes : Takes (decodeCapture read) Form.capture.Spells := by
  refine decodeText?_takes.bindSpelled fun name hname =>
    (decodeRules?_takes h).bindSpelled fun patterns hpatterns => .pure ?_
  refine ⟨⟨name, patterns⟩, Bool.and_eq_true_iff.mpr ⟨hname, hpatterns⟩, ?_, rfl⟩
  rw [List.append_nil]
  rfl

theorem decodeCaptures?_takes : Takes (decodeOption (decodeTable (decodeCapture read)))
    (Form.Spells ⟨fitsCaptures?, encodeCaptures?, inOrderCaptures?⟩) :=
  Form.option_captures ▸ decodeOption_takes (decodeTable_takes (decodeCapture_takes h))

end

theorem decodeRule_takes (nesting : Nat) : Takes (decodeRule nesting) Form.rule.Spells := by
  induction nesting with
  | zero => exact .throw _
  | succ nesting ih =>
      refine decodeText?_takes.bindSpelled fun reference hreference => ?_
      refine decodeText?_takes.bindSpelled fun name hname => ?_
      refine decodeText?_takes.bindSpelled fun contentName hcontentName => ?_
      refine decodeText?_takes.bindSpelled fun matchSource hmatch => ?_
      refine decodeText?_takes.bindSpelled fun beginSource hbegin => ?_
      refine decodeText?_takes.bindSpelled fun endSource hend => ?_
      refine decodeText?_takes.bindSpelled fun whileSource hwhile => ?_
      refine (decodeCaptures?_takes ih).bindSpelled fun captures hcaptures => ?_
      refine (decodeCaptures?_takes ih).bindSpelled fun beginCaptures hbegins => ?_
      refine (decodeCaptures?_takes ih).bindSpelled fun endCaptures hends => ?_
      refine (decodeRules?_takes ih).bindSpelled fun patterns hpatterns => ?_
      refine (decodeEntries?_takes ih).bindSpelled fun repository hrepository => ?_
      refine decodeFlag_takes.bind fun _ last hlast => .pure ?_
      subst hlast
      refine ⟨⟨reference, name, contentName, matchSource, beginSource, endSource, whileSource,
        captures, beginCaptures, endCaptures, patterns, repository, last⟩, ?_, ?_, rfl⟩
      · simp only [Form.rule, RuleDefinition.fits, Bool.and_eq_true]
        exact ⟨⟨⟨⟨⟨⟨⟨⟨⟨⟨⟨hreference, hname⟩, hcontentName⟩, hmatch⟩, hbegin⟩, hend⟩, hwhile⟩,
          hcaptures⟩, hbegins⟩, hends⟩, hpatterns⟩, hrepository⟩
      · simp only [Form.rule, encodeRule, List.append_assoc, List.append_nil]

theorem decodeDefinition_takes (nesting : Nat) :
    Takes (decodeDefinition nesting) Form.definition.Spells := by
  have hrule := decodeRule_takes nesting
  refine decodeText_takes.bindSpelled fun scopeName hscopeName => ?_
  refine decodeText?_takes.bindSpelled fun name hname => ?_
  refine (decodeList_takes decodeText_takes).bindSpelled fun fileTypes htypes => ?_
  refine (decodeList_takes hrule).bindSpelled fun patterns hpatterns => ?_
  refine (decodeTable_takes hrule).bindSpelled fun repository hrepository => .pure ?_
  refine ⟨⟨scopeName, name, fileTypes, patterns, repository⟩, ?_, ?_, ?_⟩
  · obtain ⟨htypes, hallTypes⟩ := Bool.and_eq_true_iff.mp htypes
    obtain ⟨hpatterns, hallPatterns⟩ := Bool.and_eq_true_iff.mp hpatterns
    obtain ⟨hrepository, hentries⟩ := Bool.and_eq_true_iff.mp hrepository
    simp only [Form.definition, GrammarDefinition.fits, Bool.and_eq_true, fitsRules_eq,
      fitsEntries_eq]
    exact ⟨⟨⟨⟨⟨⟨⟨hscopeName, hname⟩, htypes⟩, hallTypes⟩, hpatterns⟩, hallPatterns⟩, hrepository⟩,
      hentries⟩
  · simp only [Form.definition, encode, encodeTexts, encodeRules_eq, encodeEntries_eq,
      List.append_assoc, List.append_nil]
    rfl
  · have htypes : Form.text.list.arrange fileTypes = fileTypes := List.map_id fileTypes
    simp only [Form.definition, GrammarDefinition.inOrder, inOrderRules_eq, inOrderEntries_eq]
    rw [htypes]
    rfl

/-! ## What comes back -/

/-- The bytes are those of a definition as it was written, its tables in whatever order. -/
def WrittenAs (bytes : List UInt8) (written : GrammarDefinition) : Prop :=
  written.fits ∧ encode written = bytes

/-- The tables in the bytes of a definition are written with ascending keys. -/
def Ascending (bytes : List UInt8) : Prop :=
  ∃ written, WrittenAs bytes written ∧ written.ascending

theorem encode_of_ascending {bytes consumed rest : List UInt8} {definition : GrammarDefinition}
    (hbytes : bytes = consumed ++ rest)
    (hread : decodeDefinition bytes.length bytes = .ok (definition, rest))
    (h : Ascending consumed) : encode definition = consumed := by
  obtain ⟨written, ⟨hfits, rfl⟩, hascending⟩ := h
  have hstorable := GrammarDefinition.storable_of_ascending hfits hascending
  have hlength : (encode written).length ≤ bytes.length := by
    rw [hbytes, List.length_append]
    omega
  have hwritten := decodeDefinition_reads hstorable hlength rest
  rw [← hbytes, hread] at hwritten
  cases hwritten
  rfl

theorem decode_encode {definition : GrammarDefinition} (h : definition.storable) :
    Definition.decode .compiled (encode definition) = .ok definition := by
  have happend := decode_encode_append h []
  rw [List.append_nil] at happend
  simp only [Definition.decode, happend]
  rfl

theorem written_of_decode {bytes : List UInt8} {definition : GrammarDefinition}
    (h : Definition.decode .compiled bytes = .ok definition) :
    ∃ written rest, written.fits ∧ written.inOrder = definition ∧ bytes = encode written ++ rest ∧
      decodeDefinition bytes.length bytes = .ok (definition, rest) := by
  simp only [Definition.decode, decode, StateT.run'] at h
  cases hread : decodeDefinition bytes.length bytes with
  | error fault =>
      rw [hread] at h
      contradiction
  | ok read =>
      rw [hread] at h
      cases h
      obtain ⟨used, hbytes, written, hfits, rfl, harrange⟩ := decodeDefinition_takes _ hread
      exact ⟨written, read.2, hfits, harrange, hbytes, rfl⟩

/-- From whatever bytes a definition is read, they are one of the ways to write it.  Only the order
of tables tells these apart: with ascending keys the bytes come back, no more bytes come back than
there were, and from those the definition is read again.  So two that are taken whole are the
same. -/
theorem decode_canonical :
    (∀ bytes definition, Definition.decode .compiled bytes = .ok definition →
      ∃ consumed rest, bytes = consumed ++ rest ∧
        decodeDefinition bytes.length bytes = .ok (definition, rest) ∧
        (∃ written, WrittenAs consumed written ∧ written.inOrder = definition) ∧
        (Ascending consumed → encode definition = consumed) ∧
        (encode definition).length ≤ consumed.length ∧
        Definition.decode .compiled (encode definition) = .ok definition) ∧
    ∀ first second definition, Ascending first → Ascending second →
      decodeDefinition first.length first = .ok (definition, []) →
      decodeDefinition second.length second = .ok (definition, []) → first = second := by
  constructor
  · intro bytes definition h
    obtain ⟨written, rest, hfits, rfl, rfl, hread⟩ := written_of_decode h
    refine ⟨encode written, rest, rfl, hread, ⟨written, ⟨hfits, rfl⟩, rfl⟩, ?_,
      length_encode_inOrderDefinition_le written,
      decode_encode (GrammarDefinition.storable_inOrder hfits)⟩
    exact encode_of_ascending rfl hread
  · intro first second definition hfirst hsecond hreadFirst hreadSecond
    have hone := encode_of_ascending (List.append_nil first).symm hreadFirst hfirst
    have htwo := encode_of_ascending (List.append_nil second).symm hreadSecond hsecond
    rw [← hone, htwo]

def unordered : GrammarDefinition where
  scopeName := "é"
  repository := [("b", { matchSource := some "x" }), ("a", {}), ("b", { captures := some [
    ("1", { name := some "€" }), ("0", {})] })]

def plain : GrammarDefinition where
  scopeName := "s"

set_option maxRecDepth 1024 in
theorem unordered_shortened :
    (∃ consumed rest, encode unordered ++ [7] = consumed ++ rest ∧
      (encode unordered.inOrder).length ≤ consumed.length) ∧
    Definition.decode .compiled (encode unordered.inOrder) = .ok unordered.inOrder ∧
    encode plain = [1, 0, 0, 0, 0, 0, 0, 0, 115] ++ List.replicate 25 0 := by
  obtain ⟨hcanonical, hsame⟩ := decode_canonical
  have hread : Definition.decode .compiled (encode unordered ++ [7]) = .ok unordered.inOrder := rfl
  have hplain : Ascending (encode plain) := ⟨plain, ⟨by decide +kernel, rfl⟩, rfl⟩
  have hbytes : Ascending ([1, 0, 0, 0, 0, 0, 0, 0, 115] ++ List.replicate 25 0) :=
    ⟨plain, ⟨by decide +kernel, rfl⟩, rfl⟩
  obtain ⟨consumed, rest, happend, -, -, -, hlength, hagain⟩ := hcanonical _ _ hread
  exact ⟨⟨consumed, rest, happend, hlength⟩, hagain, hsame _ _ plain hplain hbytes rfl rfl⟩

end ScopeLexer.Compiled
