import ScopeLexer.Text

/-!
# Positions between characters

A byte offset is a position of a text when it lies between two of its characters.  The offsets that
searches report are such positions, and the range between two of them is a slice of the text.
-/

namespace ScopeLexer

/-! ## Bytes of characters -/

@[simp] theorem byteLength_nil : byteLength [] = 0 := rfl

@[simp] theorem byteLength_cons (c : Char) (rest : List Char) :
    byteLength (c :: rest) = c.utf8Size + byteLength rest := rfl

@[simp] theorem byteLength_append (first second : List Char) :
    byteLength (first ++ second) = byteLength first + byteLength second := by
  induction first with
  | nil => simp
  | cons c rest ih => simp [ih, Nat.add_assoc]

theorem byteLength_pos {chars : List Char} (h : chars ≠ []) : 0 < byteLength chars := by
  cases chars with
  | nil => contradiction
  | cons c rest =>
      have hsize := c.utf8Size_pos
      simp only [byteLength_cons]
      omega

@[simp] theorem byteLength_eq_zero {chars : List Char} : byteLength chars = 0 ↔ chars = [] := by
  cases chars with
  | nil => simp
  | cons c rest =>
      have hpos := byteLength_pos (List.cons_ne_nil c rest)
      simp only [reduceCtorEq, iff_false]
      omega

theorem dropBytes?_cons (c : Char) (rest : List Char) (size : Nat) :
    dropBytes? (c :: rest) (c.utf8Size + size) = dropBytes? rest size := by
  have hsize := c.utf8Size_pos
  rw [dropBytes?]
  · simp
  · omega

theorem takeBytes?_cons (c : Char) (rest : List Char) (size : Nat) :
    takeBytes? (c :: rest) (c.utf8Size + size) = (takeBytes? rest size).map (c :: ·) := by
  have hsize := c.utf8Size_pos
  rw [takeBytes?]
  · simp
  · omega

theorem dropBytes?_append (before after : List Char) :
    dropBytes? (before ++ after) (byteLength before) = some after := by
  induction before with
  | nil => simp [dropBytes?]
  | cons c before ih => rw [List.cons_append, byteLength_cons, dropBytes?_cons, ih]

theorem takeBytes?_append (before after : List Char) :
    takeBytes? (before ++ after) (byteLength before) = some before := by
  induction before with
  | nil => simp [takeBytes?]
  | cons c before ih =>
      rw [List.cons_append, byteLength_cons, takeBytes?_cons, ih, Option.map_some]

theorem countBefore?_append (before after : List Char) :
    countBefore? (before ++ after) (byteLength before) = some before.length := by
  induction before with
  | nil => simp [countBefore?]
  | cons c before ih =>
      have hsize := c.utf8Size_pos
      rw [List.cons_append, byteLength_cons, countBefore?]
      · simp [ih]
      · omega

theorem takeBytes?_eq_some {chars before : List Char} {size : Nat}
    (h : takeBytes? chars size = some before) :
    ∃ after, chars = before ++ after ∧ byteLength before = size := by
  fun_induction takeBytes? chars size generalizing before with
  | case1 chars => exact ⟨chars, by simp_all⟩
  | case2 => contradiction
  | case3 c rest size _ hle ih =>
      obtain ⟨taken, htaken, rfl⟩ := Option.map_eq_some_iff.mp h
      obtain ⟨after, hrest, hbytes⟩ := ih htaken
      refine ⟨after, by simp [hrest], ?_⟩
      simp only [byteLength_cons]
      omega
  | case4 => contradiction

theorem dropBytes?_eq_some {chars after : List Char} {offset : Nat}
    (h : dropBytes? chars offset = some after) :
    ∃ before, chars = before ++ after ∧ byteLength before = offset := by
  fun_induction dropBytes? chars offset with
  | case1 chars =>
      cases h
      exact ⟨[], rfl, rfl⟩
  | case2 => contradiction
  | case3 c rest offset _ hle ih =>
      obtain ⟨before, rfl, hbytes⟩ := ih h
      refine ⟨c :: before, rfl, ?_⟩
      simp only [byteLength_cons]
      omega
  | case4 => contradiction

/-! ## Positions -/

namespace Text

/-- A byte offset between two characters of a text, or at one of its ends. -/
def IsBoundary (text : Text) (position : Nat) : Prop :=
  ∃ before after, text.toList = before ++ after ∧ byteLength before = position

theorem isBoundary_byteSize (text : Text) : text.IsBoundary text.byteSize :=
  ⟨text.toList, [], by simp, rfl⟩

theorem isBoundary_offset (text : Text) (index : Nat) : text.IsBoundary (text.offset index) :=
  ⟨text.toList.take index, text.toList.drop index, by simp, rfl⟩

theorem slice?_between {text : Text} {before middle after : List Char}
    (h : text.toList = before ++ middle ++ after) :
    text.slice? ⟨byteLength before, byteLength before + byteLength middle⟩ = some middle := by
  simp only [slice?, if_pos (Nat.le_add_right _ _), h, List.append_assoc, dropBytes?_append,
    Nat.add_sub_cancel_left, Option.bind_eq_bind, Option.bind_some, takeBytes?_append]

theorem slice?_eq_some {line : Text} {range : Range} {text : List Char}
    (h : line.slice? range = some text) :
    ∃ before after, line.toList = before ++ text ++ after ∧
      range = ⟨byteLength before, byteLength before + byteLength text⟩ := by
  obtain ⟨start, stop⟩ := range
  unfold slice? at h
  split at h
  · next hle =>
    obtain ⟨rest, hdrop, htake⟩ := Option.bind_eq_some_iff.mp h
    obtain ⟨before, hline, rfl⟩ := dropBytes?_eq_some hdrop
    obtain ⟨after, rfl, hbytes⟩ := takeBytes?_eq_some htake
    refine ⟨before, after, by simp [hline], ?_⟩
    simp only at hle hbytes
    simp only [Range.mk.injEq, true_and]
    omega
  · contradiction

theorem offset_mono (text : Text) {index later : Nat} (h : index ≤ later) :
    text.offset index ≤ text.offset later := by
  have hsplit := List.take_append_drop index (text.toList.take later)
  rw [List.take_take, Nat.min_eq_left h] at hsplit
  rw [offset, offset, ← hsplit, byteLength_append]
  exact Nat.le_add_right _ _

theorem offset_length (text : Text) {before after : List Char} (h : text.toList = before ++ after) :
    text.offset before.length = byteLength before := by
  rw [offset, h, List.take_left]

theorem offset_lt (text : Text) {index later : Nat} (h : index < later)
    (hlater : later ≤ text.toList.length) : text.offset index < text.offset later := by
  have hpart : (text.toList.take later).drop index ≠ [] := by
    intro hnil
    have hlength := congrArg List.length hnil
    simp only [List.length_drop, List.length_take, List.length_nil] at hlength
    omega
  have hsplit := List.take_append_drop index (text.toList.take later)
  rw [List.take_take, Nat.min_eq_left (Nat.le_of_lt h)] at hsplit
  have hpos := byteLength_pos hpart
  rw [offset, offset, ← hsplit, byteLength_append]
  omega

theorem byteLength_take_of_countBefore? {chars : List Char} {position count : Nat}
    (h : countBefore? chars position = some count) : byteLength (chars.take count) = position := by
  fun_induction countBefore? chars position generalizing count with
  | case1 =>
      cases h
      rfl
  | case2 => contradiction
  | case3 c rest position _ hle ih =>
      obtain ⟨before, hbefore, rfl⟩ := Option.map_eq_some_iff.mp h
      rw [List.take_succ_cons, byteLength_cons, ih hbefore]
      omega
  | case4 => contradiction

theorem offset_of_index? (text : Text) {position index : Nat}
    (h : text.index? position = some index) : text.offset index = position :=
  byteLength_take_of_countBefore? h

theorem index?_of_isBoundary {text : Text} {position : Nat} (h : text.IsBoundary position) :
    ∃ index, text.index? position = some index ∧ index ≤ text.toList.length := by
  obtain ⟨before, after, hsplit, rfl⟩ := h
  exact ⟨before.length, by rw [index?, hsplit, countBefore?_append], by simp [hsplit]⟩

theorem lt_of_next? {text : Text} {position next : Nat} (h : text.next? position = some next) :
    position < next := by
  unfold next? at h
  split at h
  · next c rest hdrop =>
    have hsize := c.utf8Size_pos
    cases h
    omega
  · contradiction

/-! ## Parts of a text -/

theorem IsBoundary.le_byteSize {text : Text} {position : Nat} (h : text.IsBoundary position) :
    position ≤ text.byteSize := by
  obtain ⟨before, after, hsplit, rfl⟩ := h
  rw [byteSize, hsplit, byteLength_append]
  exact Nat.le_add_right _ _

theorem IsBoundary.byteSize_upTo {text : Text} {offset : Nat} (h : text.IsBoundary offset) :
    (text.upTo offset).byteSize = offset := by
  obtain ⟨before, after, hsplit, rfl⟩ := h
  simp only [upTo, hsplit, takeBytes?_append]
  rfl

theorem IsBoundary.of_upTo {text : Text} {offset position : Nat}
    (h : (text.upTo offset).IsBoundary position) : text.IsBoundary position := by
  unfold upTo at h
  split at h
  · next chars htake =>
    obtain ⟨rest, hrest, -⟩ := takeBytes?_eq_some htake
    obtain ⟨before, after, hsplit, hbytes⟩ := h
    refine ⟨before, after ++ rest, ?_, hbytes⟩
    have hchars : chars = before ++ after := by simpa [toList] using hsplit
    rw [hrest, hchars, List.append_assoc]
  · exact h

theorem byteSize_le_endLine (text : Text) : text.byteSize ≤ text.endLine.byteSize := by
  unfold endLine
  split
  · exact Nat.le_refl _
  · simp [byteSize, toList]

theorem endLine_of_getLast? {text : Text} (h : text.toList.getLast? ≠ some '\n') :
    text.endLine = ⟨text.chars.push '\n'⟩ := by
  have hback : text.chars.back? ≠ some '\n' := by
    rwa [toList, Array.getLast?_toList] at h
  simp [endLine, hback]

theorem endLine_push_newline (chars : Array Char) :
    (⟨chars.push '\n'⟩ : Text).endLine = ⟨chars.push '\n'⟩ := by
  simp [endLine]

theorem IsBoundary.of_endLine {text : Text} {position : Nat}
    (h : text.endLine.IsBoundary position) (hle : position ≤ text.byteSize) :
    text.IsBoundary position := by
  unfold endLine at h
  split at h
  · exact h
  · obtain ⟨before, after, hsplit, rfl⟩ := h
    have hchars : text.toList ++ ['\n'] = before ++ after := by simpa [toList] using hsplit
    rcases List.append_eq_append_iff.mp hchars with ⟨middle, rfl, -⟩ | ⟨middle, hmiddle, -⟩
    · -- the position cannot lie behind the text, so it is its end
      have hnone : middle = [] := by
        rw [← byteLength_eq_zero]
        simp only [byteSize, byteLength_append] at hle
        omega
      simpa [hnone, byteSize] using text.isBoundary_byteSize
    · exact ⟨before, middle, hmiddle, rfl⟩

end Text

end ScopeLexer
