import Mathlib.Data.List.DropRight
import ScopeLexer.Files.Disk
import ScopeLexer.Proofs.Outcome

/-!
# Files that are written

A file is put in place of a file or of nothing, never of a directory.  So every path still leads to
where it did, and the one that was written to leads to the new file.
-/

namespace ScopeLexer.Disk

open Outcome

variable {disk : Disk} {names other around : List String} {path part name : String}
  {bytes : List UInt8} {time : Nat} {place next : List String}

/-- On one of two disks a file was written, and all else is as on the other. -/
structure Replaced (before after : Disk) (names : List String) (bytes : List UInt8) : Prop where
  file : after.entry? names = some ⟨names, .file bytes, before.clock⟩
  others : ∀ other, other ≠ names → after.entry? other = before.entry? other

theorem entry?_insert_self (entry : DiskEntry) :
    entry? (disk.insert entry) entry.names = some entry := by
  simp [insert, entry?]

theorem entry?_insert_of_ne {entry : DiskEntry} (h : other ≠ entry.names) :
    entry? (disk.insert entry) other = disk.entry? other := by
  have hentry : (entry.names == other) = false := beq_false_of_ne (Ne.symm h)
  simp only [insert, entry?, List.find?_cons, hentry, List.find?_filter]
  congr 1
  funext found
  by_cases hfound : found.names = other
  · simp [hfound, h]
  · simp [hfound]

theorem replaced_insert (names : List String) (bytes : List UInt8) :
    Replaced disk (disk.insert ⟨names, .file bytes, disk.clock⟩) names bytes :=
  ⟨entry?_insert_self _, fun _ h => entry?_insert_of_ne h⟩

/-! ## Where paths lead -/

theorem isDirectory_insert (h : disk.isDirectory names = false) (other : List String) :
    (disk.insert ⟨names, .file bytes, time⟩).isDirectory other = disk.isDirectory other := by
  by_cases hother : other = names
  · subst hother
    have hself := @entry?_insert_self disk ⟨other, .file bytes, time⟩
    rw [h]
    simp only [isDirectory, Bool.or_eq_false_iff] at h ⊢
    exact ⟨h.1, by simp [hself]⟩
  · rw [isDirectory, isDirectory, entry?_insert_of_ne hother]
    rfl

theorem contains_insert (h : disk.isDirectory names = false) (hother : disk.contains other) :
    (disk.insert ⟨names, .file bytes, time⟩).contains other := by
  simp only [contains, isDirectory_insert h, Bool.or_eq_true] at hother ⊢
  refine hother.imp_right fun hentry => ?_
  by_cases hself : other = names
  · rw [hself, @entry?_insert_self disk ⟨names, .file bytes, time⟩]
    rfl
  · rwa [entry?_insert_of_ne hself]

theorem enter_insert (h : disk.isDirectory names = false)
    (henter : disk.enter place part = .ok next) :
    (disk.insert ⟨names, .file bytes, time⟩).enter place part = .ok next := by
  simp only [enter, isDirectory_insert h] at henter ⊢
  by_cases hpart : disk.contains (place ++ [part])
  · rw [if_pos hpart] at henter
    rwa [if_pos (contains_insert h hpart)]
  · grind

theorem foldlM_enter_insert (h : disk.isDirectory names = false) {parts : List String}
    (hparts : parts.foldlM disk.enter place = .ok next) :
    parts.foldlM (disk.insert ⟨names, .file bytes, time⟩).enter place = .ok next := by
  induction parts generalizing place with
  | nil => exact hparts
  | cons part parts ih =>
      rw [List.foldlM_cons, bind_eq_ok] at hparts ⊢
      obtain ⟨reached, hpart, hparts⟩ := hparts
      exact ⟨reached, enter_insert h hpart, ih hparts⟩

theorem enter_name (haround : disk.isDirectory around) (hempty : name ≠ "") (hdot : name ≠ ".")
    (hdots : name ≠ "..") (hname : disk.contains (around ++ [name])) :
    disk.enter around name = .ok (around ++ [name]) := by
  simp [enter, haround, hempty, hdot, hdots, hname]

/-! ## Where files are put -/

theorem eq_append_of_length_le_rdropWhile {all : List String}
    (hlength : all.length ≤ (all.rdropWhile String.isEmpty).length)
    (hlast : (all.rdropWhile String.isEmpty).getLast? = some name) :
    all = (all.rdropWhile String.isEmpty).dropLast ++ [name] ∧ name ≠ "" := by
  have hall := (List.rdropWhile_prefix String.isEmpty all).eq_of_length_le hlength
  obtain ⟨before, hbefore⟩ := List.getLast?_eq_some_iff.mp hlast
  have hne : all.rdropWhile String.isEmpty ≠ [] := by simp [hbefore]
  have hname := List.rdropWhile_last_not String.isEmpty all hne
  simp only [hbefore, List.getLast_concat, String.isEmpty_iff] at hname
  refine ⟨?_, hname⟩
  rw [hbefore, List.dropLast_concat, ← hbefore, hall]

theorem target_eq_ok (h : disk.target path = .ok names) :
    ∃ around name before, names = around ++ [name] ∧ pathFault? path = none ∧
      parts path = before ++ [name] ∧ (name ≠ "" ∧ name ≠ "." ∧ name ≠ "..") ∧
      before.foldlM disk.enter (disk.start path) = .ok around ∧
      disk.isDirectory around ∧ disk.isDirectory names = false := by
  unfold target at h
  extract_lets all kept name isName at h
  cases hfault : pathFault? path with
  | some fault => simp [hfault] at h
  | none =>
      cases hbefore : kept.dropLast.foldlM disk.enter (disk.start path) with
      | error fault => simp [hfault, hbefore] at h
      | ok around =>
          simp only [hfault, hbefore, ite_eq_iff, reduceCtorEq, and_false, false_or] at h
          obtain ⟨haround, hname, -, h⟩ := h
          cases h
          simp only [Bool.or_eq_true, Bool.not_eq_true', decide_eq_true_eq, not_or,
            Bool.not_eq_false, Bool.not_eq_true, Nat.not_lt] at haround hname
          obtain ⟨⟨hisName, hlength⟩, hdirectory⟩ := hname
          have hlast : kept.getLast? = some name := by
            cases hkept : kept.getLast? with
            | none => simp [isName, name, hkept] at hisName
            | some last => simp [name, hkept]
          obtain ⟨hall, hempty⟩ := eq_append_of_length_le_rdropWhile hlength hlast
          exact ⟨around, name, kept.dropLast, rfl, rfl, hall,
            ⟨hempty, by simpa [isName] using hisName⟩, hbefore, haround, hdirectory⟩

theorem locate_insert_target (h : disk.target path = .ok names) :
    (disk.insert ⟨names, .file bytes, time⟩).locate path = .ok names := by
  obtain ⟨around, name, before, rfl, hfault, hparts, ⟨hempty, hdot, hdots⟩, hbefore, haround,
    hdirectory⟩ := target_eq_ok h
  simp only [locate, hfault, hparts, List.foldlM_append, bind_eq_ok, List.foldlM_cons,
    List.foldlM_nil, pure_eq_ok]
  refine ⟨_, foldlM_enter_insert hdirectory hbefore, _, enter_name ?_ hempty hdot hdots ?_, rfl⟩
  · rwa [isDirectory_insert hdirectory]
  · simp only [contains, entry?_insert_self ⟨around ++ [name], .file bytes, time⟩,
      Option.isSome_some, Bool.or_true]

theorem read_insert_target (h : disk.target path = .ok names) :
    (disk.insert ⟨names, .file bytes, time⟩).read path = .ok bytes := by
  simp only [read, locate_insert_target h, entry?_insert_self ⟨names, .file bytes, time⟩]

end ScopeLexer.Disk
