import ScopeLexer.Proofs.Outcome
import ScopeLexer.Text.Utf8

/-!
# Text that is written and read again

The first byte of a character tells how many there are, and the bits of the others are put together
again.  So characters are read as they were written, whatever bytes follow.  And they are read from
these bytes only: of the longer forms of a character none is accepted.
-/

namespace ScopeLexer.Utf8

open Outcome

/-! ## Bytes -/

theorem toNat_byte {n : Nat} (h : n < 256) : (UInt8.ofNat n).toNat = n := by
  rw [UInt8.toNat_ofNat']
  exact Nat.mod_eq_of_lt h

theorem byte_beq {m n : Nat} (hm : m < 256) (hn : n < 256) :
    (UInt8.ofNat m == UInt8.ofNat n) = decide (m = n) := by
  rw [Bool.eq_iff_iff, beq_iff_eq, decide_eq_true_iff, ← UInt8.toNat_inj, toNat_byte hm,
    toNat_byte hn]

theorem byte_between {n : Nat} (low high : Nat) (hlow : low ≤ n) (hhigh : n < high)
    (hbyte : high < 256) :
    (decide (UInt8.ofNat low ≤ UInt8.ofNat n) && decide (UInt8.ofNat n < UInt8.ofNat high)) =
      true := by
  have hl : (UInt8.ofNat low).toNat = low := toNat_byte (by omega)
  have hn : (UInt8.ofNat n).toNat = n := toNat_byte (by omega)
  have hh : (UInt8.ofNat high).toNat = high := toNat_byte hbyte
  rw [Bool.and_eq_true, decide_eq_true_iff, decide_eq_true_iff, UInt8.le_iff_toNat_le,
    UInt8.lt_iff_toNat_lt, hl, hn, hh]
  exact ⟨hlow, hhigh⟩

theorem isContinuation_byte (n : Nat) : isContinuation (UInt8.ofNat (n % 64 + 128)) = true := by
  have hlow : 0x80 ≤ n % 64 + 128 := by omega
  have hhigh : n % 64 + 128 < 0xC0 := by omega
  exact byte_between 0x80 0xC0 hlow hhigh (by omega)

theorem bits_byte (n : Nat) : bits (UInt8.ofNat (n % 64 + 128)) = n % 64 := by
  have hn : (UInt8.ofNat (n % 64 + 128)).toNat = n % 64 + 128 := toNat_byte (by omega)
  unfold bits
  omega

theorem allowsSecondOfThree_byte {n : Nat} (hlow : 0x800 ≤ n) (hhigh : n < 0x10000)
    (hvalid : n < 0xD800 ∨ 0xDFFF < n) :
    allowsSecondOfThree (UInt8.ofNat (n / 4096 % 16 + 224)) (UInt8.ofNat (n / 64 % 64 + 128)) =
      true := by
  have hE0 := byte_beq (show n / 4096 % 16 + 224 < 256 by omega) (show 0xE0 < 256 by omega)
  have hED := byte_beq (show n / 4096 % 16 + 224 < 256 by omega) (show 0xED < 256 by omega)
  unfold allowsSecondOfThree
  split
  · next h =>
    have := of_decide_eq_true (hE0.symm.trans h)
    exact byte_between 0xA0 0xC0 (by omega) (by omega) (by omega)
  · split
    · next h =>
      have := of_decide_eq_true (hED.symm.trans h)
      exact byte_between 0x80 0xA0 (by omega) (by omega) (by omega)
    · exact isContinuation_byte _

theorem allowsSecondOfFour_byte {n : Nat} (hlow : 0x10000 ≤ n) (hhigh : n < 0x110000) :
    allowsSecondOfFour (UInt8.ofNat (n / 262144 % 8 + 240)) (UInt8.ofNat (n / 4096 % 64 + 128)) =
      true := by
  have hF0 := byte_beq (show n / 262144 % 8 + 240 < 256 by omega) (show 0xF0 < 256 by omega)
  have hF4 := byte_beq (show n / 262144 % 8 + 240 < 256 by omega) (show 0xF4 < 256 by omega)
  unfold allowsSecondOfFour
  split
  · next h =>
    have := of_decide_eq_true (hF0.symm.trans h)
    exact byte_between 0x90 0xC0 (by omega) (by omega) (by omega)
  · split
    · next h =>
      have := of_decide_eq_true (hF4.symm.trans h)
      exact byte_between 0x80 0x90 (by omega) (by omega) (by omega)
    · exact isContinuation_byte _

/-! ## Characters -/

variable {n : Nat} (rest : List UInt8)

theorem lead_one (h : n < 0x80) :
    lead (UInt8.ofNat n) rest = .character (Char.ofNat n) rest := by
  simp only [lead, toNat_byte (show n < 256 by omega), h, if_true]

theorem lead_two (hlow : 0x80 ≤ n) (hhigh : n < 0x800) :
    lead (UInt8.ofNat (n / 64 % 32 + 192)) (UInt8.ofNat (n % 64 + 128) :: rest) =
      .character (Char.ofNat n) rest := by
  have hfirst : (UInt8.ofNat (n / 64 % 32 + 192)).toNat = n / 64 % 32 + 192 :=
    toNat_byte (by omega)
  have hvalue : (n / 64 % 32 + 192 - 0xC0) * 64 + n % 64 = n := by omega
  unfold lead
  simp only [hfirst, isContinuation_byte, bits_byte, hvalue, if_true]
  rw [if_neg (by omega), if_neg (by omega), if_pos (by omega)]

theorem lead_three (hlow : 0x800 ≤ n) (hhigh : n < 0x10000) (hvalid : n < 0xD800 ∨ 0xDFFF < n) :
    lead (UInt8.ofNat (n / 4096 % 16 + 224))
      (UInt8.ofNat (n / 64 % 64 + 128) :: UInt8.ofNat (n % 64 + 128) :: rest) =
      .character (Char.ofNat n) rest := by
  have hfirst : (UInt8.ofNat (n / 4096 % 16 + 224)).toNat = n / 4096 % 16 + 224 :=
    toNat_byte (by omega)
  have hvalue : ((n / 4096 % 16 + 224 - 0xE0) * 64 + n / 64 % 64) * 64 + n % 64 = n := by omega
  unfold lead
  simp only [hfirst, allowsSecondOfThree_byte hlow hhigh hvalid, isContinuation_byte, bits_byte,
    hvalue, Bool.not_true, Bool.false_eq_true, if_true, if_false]
  rw [if_neg (by omega), if_neg (by omega), if_neg (by omega), if_pos (by omega)]

theorem lead_four (hlow : 0x10000 ≤ n) (hhigh : n < 0x110000) :
    lead (UInt8.ofNat (n / 262144 % 8 + 240))
      (UInt8.ofNat (n / 4096 % 64 + 128) :: UInt8.ofNat (n / 64 % 64 + 128) ::
        UInt8.ofNat (n % 64 + 128) :: rest) =
      .character (Char.ofNat n) rest := by
  have hfirst : (UInt8.ofNat (n / 262144 % 8 + 240)).toNat = n / 262144 % 8 + 240 :=
    toNat_byte (by omega)
  have hvalue : (((n / 262144 % 8 + 240 - 0xF0) * 64 + n / 4096 % 64) * 64 + n / 64 % 64) * 64
      + n % 64 = n := by omega
  unfold lead
  simp only [hfirst, allowsSecondOfFour_byte hlow hhigh, isContinuation_byte, bits_byte,
    hvalue, Bool.not_true, Bool.false_eq_true, if_true, if_false]
  rw [if_neg (by omega), if_neg (by omega), if_neg (by omega), if_neg (by omega),
    if_pos (by omega)]

theorem lead_encodeChar (c : Char) :
    ∃ first tail, String.utf8EncodeChar c ++ rest = first :: tail ∧
      lead first tail = .character c rest := by
  have hvalid : c.toNat < 0xD800 ∨ (0xDFFF < c.toNat ∧ c.toNat < 0x110000) := c.valid
  have hchar : Char.ofNat c.toNat = c := Char.ofNat_toNat c
  fun_cases String.utf8EncodeChar c with
  | case1 v h =>
      have hone := lead_one rest (Nat.lt_succ_of_le h)
      exact ⟨_, _, rfl, hchar ▸ hone⟩
  | case2 v hone h =>
      have htwo := lead_two rest (Nat.not_le.mp hone) (Nat.lt_succ_of_le h)
      exact ⟨_, _, rfl, hchar ▸ htwo⟩
  | case3 v hone htwo h =>
      have hthree := lead_three rest (Nat.not_le.mp htwo) (Nat.lt_succ_of_le h)
        (hvalid.imp_right And.left)
      exact ⟨_, _, rfl, hchar ▸ hthree⟩
  | case4 v hone htwo hthree =>
      have hhigh : c.toNat < 0x110000 := by omega
      have hfour := lead_four rest (Nat.not_le.mp hthree) hhigh
      exact ⟨_, _, rfl, hchar ▸ hfour⟩

/-! ## Texts -/

theorem decodeFrom_encode (chars : List Char) {fuel : Nat} (hfuel : chars.length ≤ fuel)
    (offset : Nat) : decodeFrom fuel offset (encode chars) = .ok chars := by
  induction chars generalizing fuel offset with
  | nil => simp [encode, decodeFrom]
  | cons c chars ih =>
      obtain ⟨first, tail, hbytes, hlead⟩ := lead_encodeChar (encode chars) c
      obtain ⟨fuel, rfl⟩ : ∃ less, fuel = less + 1 := ⟨fuel - 1, by simp at hfuel; omega⟩
      have hbytes : encode (c :: chars) = first :: tail := hbytes
      simp only [hbytes, decodeFrom, hlead]
      rw [ih (by simpa using hfuel)]
      rfl

theorem length_le_length_encode (chars : List Char) : chars.length ≤ (encode chars).length := by
  induction chars with
  | nil => simp
  | cons c chars ih =>
      have hsize := c.utf8Size_pos
      simp only [encode, List.flatMap_cons, List.length_append, String.length_utf8EncodeChar,
        List.length_cons] at ih ⊢
      omega

theorem decode_encode (chars : List Char) : decode (encode chars) = .ok chars :=
  decodeFrom_encode chars (length_le_length_encode chars) 0

/-! ## What was read -/

theorem toNat_ofNat {n : Nat} (h : n.isValidChar) : (Char.ofNat n).val.toNat = n := by
  rw [Char.ofNat, dif_pos h]
  rfl

theorem encodeChar_one {n : Nat} (h : n < 0x80) :
    String.utf8EncodeChar (Char.ofNat n) = [UInt8.ofNat n] := by
  simp only [String.utf8EncodeChar, toNat_ofNat (.inl (show n < 55296 by omega))]
  rw [if_pos (by omega)]

theorem encodeChar_two {n : Nat} (hlow : 0x80 ≤ n) (hhigh : n < 0x800) :
    String.utf8EncodeChar (Char.ofNat n) =
      [UInt8.ofNat (n / 64 % 32 + 192), UInt8.ofNat (n % 64 + 128)] := by
  simp only [String.utf8EncodeChar, toNat_ofNat (.inl (show n < 55296 by omega))]
  rw [if_neg (by omega), if_pos (by omega)]

theorem encodeChar_three {n : Nat} (hlow : 0x800 ≤ n) (hhigh : n < 0x10000)
    (hvalid : n.isValidChar) :
    String.utf8EncodeChar (Char.ofNat n) =
      [UInt8.ofNat (n / 4096 % 16 + 224), UInt8.ofNat (n / 64 % 64 + 128),
        UInt8.ofNat (n % 64 + 128)] := by
  simp only [String.utf8EncodeChar, toNat_ofNat hvalid]
  rw [if_neg (by omega), if_neg (by omega), if_pos (by omega)]

theorem encodeChar_four {n : Nat} (hlow : 0x10000 ≤ n) (hhigh : n < 0x110000) :
    String.utf8EncodeChar (Char.ofNat n) =
      [UInt8.ofNat (n / 262144 % 8 + 240), UInt8.ofNat (n / 4096 % 64 + 128),
        UInt8.ofNat (n / 64 % 64 + 128), UInt8.ofNat (n % 64 + 128)] := by
  simp only [String.utf8EncodeChar, toNat_ofNat (.inr (show 57343 < n ∧ n < 1114112 by omega))]
  rw [if_neg (by omega), if_neg (by omega), if_neg (by omega)]

theorem bounds_of_isContinuation {b : UInt8} (h : isContinuation b = true) :
    0x80 ≤ b.toNat ∧ b.toNat < 0xC0 := by
  simpa [isContinuation, UInt8.le_iff_toNat_le, UInt8.lt_iff_toNat_lt] using h

theorem toNat_eq_bits {b : UInt8} (h : 0x80 ≤ b.toNat ∧ b.toNat < 0xC0) :
    bits b < 64 ∧ b.toNat = bits b + 0x80 := by
  unfold bits
  omega

theorem bounds_of_allowsSecondOfThree {first second : UInt8}
    (h : allowsSecondOfThree first second = true) :
    (0x80 ≤ second.toNat ∧ second.toNat < 0xC0) ∧ (first.toNat = 0xE0 → 0xA0 ≤ second.toNat) ∧
      (first.toNat = 0xED → second.toNat < 0xA0) := by
  have hE0 : first = 0xE0 ↔ first.toNat = 0xE0 := UInt8.toNat_inj.symm
  have hED : first = 0xED ↔ first.toNat = 0xED := UInt8.toNat_inj.symm
  unfold allowsSecondOfThree at h
  simp only [beq_iff_eq, hE0, hED] at h
  split at h
  · simp only [Bool.and_eq_true, decide_eq_true_eq, UInt8.le_iff_toNat_le,
      UInt8.lt_iff_toNat_lt, UInt8.reduceToNat] at h
    omega
  · split at h
    · simp only [Bool.and_eq_true, decide_eq_true_eq, UInt8.le_iff_toNat_le,
        UInt8.lt_iff_toNat_lt, UInt8.reduceToNat] at h
      omega
    · have hbounds := bounds_of_isContinuation h
      omega

theorem bounds_of_allowsSecondOfFour {first second : UInt8}
    (h : allowsSecondOfFour first second = true) :
    (0x80 ≤ second.toNat ∧ second.toNat < 0xC0) ∧ (first.toNat = 0xF0 → 0x90 ≤ second.toNat) ∧
      (first.toNat = 0xF4 → second.toNat < 0x90) := by
  have hF0 : first = 0xF0 ↔ first.toNat = 0xF0 := UInt8.toNat_inj.symm
  have hF4 : first = 0xF4 ↔ first.toNat = 0xF4 := UInt8.toNat_inj.symm
  unfold allowsSecondOfFour at h
  simp only [beq_iff_eq, hF0, hF4] at h
  split at h
  · simp only [Bool.and_eq_true, decide_eq_true_eq, UInt8.le_iff_toNat_le,
      UInt8.lt_iff_toNat_lt, UInt8.reduceToNat] at h
    omega
  · split at h
    · simp only [Bool.and_eq_true, decide_eq_true_eq, UInt8.le_iff_toNat_le,
        UInt8.lt_iff_toNat_lt, UInt8.reduceToNat] at h
      omega
    · have hbounds := bounds_of_isContinuation h
      omega

theorem byte_eq {b : UInt8} {n : Nat} (h : n = b.toNat) : UInt8.ofNat n = b := by
  rw [h, UInt8.ofNat_toNat]

theorem encodeChar_of_lead {first : UInt8} {rest left : List UInt8} {c : Char}
    (h : lead first rest = .character c left) :
    first :: rest = String.utf8EncodeChar c ++ left := by
  revert h
  fun_cases lead first rest with
  | case1 rest n hone =>
      intro h
      obtain ⟨rfl, rfl⟩ := Lead.character.inj h
      rw [encodeChar_one hone, byte_eq rfl, List.singleton_append]
  | case4 n hone hinvalid htwo b rest hb =>
      intro h
      obtain ⟨rfl, rfl⟩ := Lead.character.inj h
      obtain ⟨hlow, hbyte⟩ := toNat_eq_bits (bounds_of_isContinuation hb)
      rw [encodeChar_two (by omega) (by omega), @byte_eq first _ (by omega),
        @byte_eq b _ (by omega)]
      rfl
  | case9 n hone hinvalid htwo hthree b hb c' rest hc' =>
      intro h
      obtain ⟨rfl, rfl⟩ := Lead.character.inj h
      have hsecond := bounds_of_allowsSecondOfThree (by simpa using hb)
      obtain ⟨hlow, hbyte⟩ := toNat_eq_bits hsecond.1
      obtain ⟨hlow', hbyte'⟩ := toNat_eq_bits (bounds_of_isContinuation hc')
      have hvalid : (((n - 224) * 64 + bits b) * 64 + bits c').isValidChar := by
        unfold Nat.isValidChar
        omega
      rw [encodeChar_three (by omega) (by omega) hvalid, @byte_eq first _ (by omega),
        @byte_eq b _ (by omega), @byte_eq c' _ (by omega)]
      rfl
  | case16 n hone hinvalid htwo hthree hfour b hb c' hc' d rest hd =>
      intro h
      obtain ⟨rfl, rfl⟩ := Lead.character.inj h
      have hsecond := bounds_of_allowsSecondOfFour (by simpa using hb)
      obtain ⟨hlow, hbyte⟩ := toNat_eq_bits hsecond.1
      obtain ⟨hlow', hbyte'⟩ := toNat_eq_bits (bounds_of_isContinuation (by simpa using hc'))
      obtain ⟨hlow'', hbyte''⟩ := toNat_eq_bits (bounds_of_isContinuation hd)
      rw [encodeChar_four (by omega) (by omega), @byte_eq first _ (by omega),
        @byte_eq b _ (by omega), @byte_eq c' _ (by omega), @byte_eq d _ (by omega)]
      rfl
  | _ => exact fun h => nomatch h

theorem encode_of_decodeFrom {fuel offset : Nat} {bytes : List UInt8} {chars : List Char}
    (h : decodeFrom fuel offset bytes = .ok chars) : encode chars = bytes := by
  induction fuel generalizing offset bytes chars with
  | zero =>
      cases bytes with
      | nil =>
          cases h
          rfl
      | cons first rest => contradiction
  | succ fuel ih =>
      cases bytes with
      | nil =>
          cases h
          rfl
      | cons first rest =>
          rw [decodeFrom] at h
          split at h
          · next c left hlead =>
            obtain ⟨others, hothers, rfl⟩ := map_eq_ok.mp h
            rw [encodeChar_of_lead hlead, encode, List.flatMap_cons, ← encode, ih hothers]
          · contradiction
          · contradiction

/-- Text has no other bytes than those it is written in. -/
theorem encode_of_decode {bytes : List UInt8} {chars : List Char}
    (h : decode bytes = .ok chars) : encode chars = bytes :=
  encode_of_decodeFrom h

end ScopeLexer.Utf8
