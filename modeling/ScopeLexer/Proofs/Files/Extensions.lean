import Mathlib.Data.List.TakeWhile
import ScopeLexer.Files.Path

/-!
# Extensions of paths

The extension of a file name is what follows its last dot, so it has no dot itself.  Putting an
extension behind a path without one and then another in its place is the same as putting the other
there at once.
-/

namespace ScopeLexer.Path

variable {path : String} {directory name stem extension : List Char}

/-! ## File names -/

def IsExtension (extension : String) : Prop :=
  ∃ path, extension? path = some extension

structure IsFileName (name : List Char) : Prop where
  ne_nil : name ≠ []
  noSlash : '/' ∉ name
  ne_dot : name ≠ ['.']
  ne_dots : name ≠ ['.', '.']

def EndsInSlash (directory : List Char) : Prop :=
  ∀ c ∈ directory.getLast?, c = '/'

theorem bne_of_notMem {mark : Char} {chars : List Char} (h : mark ∉ chars) :
    ∀ c ∈ chars.reverse, (c != mark) = true := by
  intro c hc
  rw [bne_iff_ne]
  rintro rfl
  exact h (List.mem_reverse.mp hc)

theorem takeWhile_reverse_append {mark : Char} {behind : List Char} (h : mark ∉ behind)
    (before : List Char) :
    (before ++ mark :: behind).reverse.takeWhile (· != mark) = behind.reverse := by
  rw [List.reverse_append, List.reverse_cons, List.append_assoc,
    List.takeWhile_append_of_pos (bne_of_notMem h)]
  simp

theorem splitName_append (hne : name ≠ []) (hdot : '.' ∉ extension) :
    splitName (name ++ '.' :: extension) = (name, some extension) := by
  have hlength : (name ++ '.' :: extension).length - extension.length - 1 = name.length := by
    simp only [List.length_append, List.length_cons]
    omega
  simp only [splitName, takeWhile_reverse_append hdot, List.reverse_reverse, hlength,
    List.take_left']
  rw [if_neg]
  simp only [List.length_append, List.length_cons, Bool.or_eq_true, beq_iff_eq,
    List.isEmpty_iff, hne, or_false]
  omega

theorem splitName_of_noDot (h : '.' ∉ name) : splitName name = (name, none) := by
  have hafter : (name.reverse.takeWhile (· != '.')).reverse = name := by
    rw [List.takeWhile_eq_self_iff.mpr (bne_of_notMem h), List.reverse_reverse]
  simp [splitName, hafter]

theorem splitName_leading (h : '.' ∉ extension) :
    splitName ('.' :: extension) = ('.' :: extension, none) := by
  have hafter := takeWhile_reverse_append h []
  rw [List.nil_append] at hafter
  simp only [splitName, hafter, List.reverse_reverse, List.length_cons]
  rw [if_pos]
  simp

theorem splitName_cases (name : List Char) : splitName name = (name, none) ∨
    ∃ stem extension, stem ≠ [] ∧ '.' ∉ extension ∧ name = stem ++ '.' :: extension ∧
      splitName name = (stem, some extension) := by
  by_cases hdot : '.' ∈ name
  · obtain ⟨after, before, hname, hafter⟩ :=
      List.eq_append_cons_of_mem (List.mem_reverse.mpr hdot)
    have hname : name = before.reverse ++ '.' :: after.reverse := by
      rw [← List.reverse_reverse name, hname]
      simp
    have hafter : '.' ∉ after.reverse := fun h => hafter (List.mem_reverse.mp h)
    cases before with
    | nil =>
        left
        rw [hname]
        exact splitName_leading hafter
    | cons c before =>
        right
        have hne : (c :: before).reverse ≠ [] := by simp
        exact ⟨_, _, hne, hafter, hname, hname ▸ splitName_append hne hafter⟩
  · exact .inl (splitName_of_noDot hdot)

/-! ## Paths -/

theorem dropTrailing_eq_self {before : List Char} (hne : name ≠ []) (hslash : '/' ∉ name)
    (hdot : name ≠ ['.']) : dropTrailing (name ++ before) = name ++ before := by
  match name with
  | c :: rest =>
      obtain ⟨hc, hrest⟩ := List.ne_and_not_mem_of_not_mem_cons hslash
      rw [List.cons_append, dropTrailing]
      · intro others h
        exact hc (List.cons_eq_cons.mp h).1.symm
      · intro others h
        obtain ⟨rfl, hothers⟩ := List.cons_eq_cons.mp h
        cases rest with
        | nil => exact hdot rfl
        | cons d rest =>
            cases hothers
            exact hrest List.mem_cons_self

theorem split?_append (hname : IsFileName name) (hdirectory : EndsInSlash directory) :
    split? (String.ofList (directory ++ name)) =
      some ⟨directory, (splitName name).1, (splitName name).2⟩ := by
  have hreverse : dropTrailing (directory ++ name).reverse = name.reverse ++ directory.reverse := by
    rw [List.reverse_append]
    refine dropTrailing_eq_self ?_ ?_ ?_
    · simpa using hname.ne_nil
    · simpa using hname.noSlash
    · intro h
      exact hname.ne_dot (by rw [← List.reverse_reverse name, h]; rfl)
  have hname' := bne_of_notMem hname.noSlash
  have hhead : ∀ c ∈ directory.reverse.head?, c = '/' := by
    simpa [EndsInSlash] using hdirectory
  have htake : directory.reverse.takeWhile (· != '/') = [] := by
    cases h : directory.reverse with
    | nil => rfl
    | cons c rest => simp [hhead c (by rw [h]; rfl)]
  have hdrop : directory.reverse.dropWhile (· != '/') = directory.reverse := by
    have hboth := @List.takeWhile_append_dropWhile _ (· != '/') directory.reverse
    rwa [htake] at hboth
  simp only [split?, String.toList_ofList, hreverse, List.takeWhile_append_of_pos hname',
    List.dropWhile_append_of_pos hname', htake, hdrop, List.append_nil, List.reverse_reverse]
  rw [if_neg]
  simp [hname.ne_nil, hname.ne_dot, hname.ne_dots]

theorem split?_eq_some {parts : Parts} (h : split? path = some parts) :
    ∃ name, IsFileName name ∧ EndsInSlash parts.directory ∧
      splitName name = (parts.stem, parts.extension) := by
  unfold split? at h
  extract_lets rest name at h
  have hslash : '/' ∉ name := by
    intro hslash
    have hplain := List.mem_takeWhile_imp (List.mem_reverse.mp hslash)
    contradiction
  have hends : EndsInSlash (rest.dropWhile (· != '/')).reverse := by
    intro c hc
    rw [List.getLast?_reverse] at hc
    have hstop := List.head?_dropWhile_not (· != '/') rest
    rw [Option.mem_def.mp hc] at hstop
    simpa using hstop
  clear_value name
  split at h
  · contradiction
  · next hname =>
    rw [Option.some.injEq] at h
    subst h
    simp only [Bool.or_eq_true, List.isEmpty_iff, beq_iff_eq, not_or] at hname
    exact ⟨name, ⟨hname.1.1, hslash, hname.1.2, hname.2⟩, hends, rfl⟩

theorem IsExtension.plain {extension : String} (h : IsExtension extension) :
    '.' ∉ extension.toList ∧ '/' ∉ extension.toList := by
  obtain ⟨path, hextension⟩ := h
  obtain ⟨⟨directory, stem, behind⟩, hparts, hextension⟩ := Option.bind_eq_some_iff.mp hextension
  obtain ⟨chars, rfl, rfl⟩ := Option.map_eq_some_iff.mp hextension
  obtain ⟨name, hname, -, hsplit⟩ := split?_eq_some hparts
  rw [String.toList_ofList]
  rcases splitName_cases name with hnone | ⟨stem, extension, -, hdot, heq, hsome⟩
  · cases hnone.symm.trans hsplit
  · cases hsome.symm.trans hsplit
    refine ⟨hdot, fun hslash => hname.noSlash ?_⟩
    rw [heq]
    exact List.mem_append_right _ (List.mem_cons_of_mem _ hslash)

theorem split?_of_extension?_eq_none {parts : Parts} (hnone : extension? path = none)
    (h : split? path = some parts) : IsFileName parts.stem ∧ EndsInSlash parts.directory ∧
      splitName parts.stem = (parts.stem, none) := by
  obtain ⟨directory, stem, behind⟩ := parts
  obtain ⟨name, hname, hdirectory, hsplit⟩ := split?_eq_some h
  rw [extension?, h] at hnone
  cases Option.map_eq_none_iff.mp hnone
  rcases splitName_cases name with hwhole | ⟨stem, extension, -, -, -, hsome⟩
  · cases hwhole.symm.trans hsplit
    exact ⟨hname, hdirectory, hsplit⟩
  · cases hsome.symm.trans hsplit

theorem IsFileName.dotted (hname : IsFileName name) (hslash : '/' ∉ extension) :
    IsFileName (name ++ dotted extension) := by
  cases extension with
  | nil => simpa [Path.dotted] using hname
  | cons c extension =>
      have hpositive := List.length_pos_iff.mpr hname.ne_nil
      have hlength : 2 < (name ++ Path.dotted (c :: extension)).length := by
        simp only [Path.dotted, List.isEmpty_cons, Bool.false_eq_true, if_false,
          List.length_append, List.length_cons]
        omega
      refine ⟨?_, ?_, ?_, ?_⟩
      · intro h
        simp [h] at hlength
      · simpa [Path.dotted, hname.noSlash] using hslash
      · intro h
        simp [h] at hlength
      · intro h
        simp [h] at hlength

theorem splitName_dotted (hname : splitName name = (name, none)) (hne : name ≠ [])
    (hdot : '.' ∉ extension) : (splitName (name ++ dotted extension)).1 = name := by
  cases extension with
  | nil => simp [dotted, hname]
  | cons c extension => exact congrArg Prod.fst (splitName_append hne hdot)

/-- An extension that is put in place of one put there before leaves nothing of that one. -/
theorem withExtension_withExtension {first : String} (hnone : extension? path = none)
    (hfirst : IsExtension first) (second : String) :
    withExtension (withExtension path first) second = withExtension path second := by
  obtain ⟨hdot, hslash⟩ := hfirst.plain
  cases hsplit : split? path with
  | none => simp [withExtension, hsplit]
  | some parts =>
      obtain ⟨hname, hdirectory, hwhole⟩ := split?_of_extension?_eq_none hnone hsplit
      have hagain := split?_append (hname.dotted hslash) hdirectory
      rw [splitName_dotted hwhole hname.ne_nil hdot] at hagain
      simp only [withExtension, hsplit, List.append_assoc, hagain]

end ScopeLexer.Path
