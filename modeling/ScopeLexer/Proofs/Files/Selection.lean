import Mathlib.Data.List.Basic
import ScopeLexer.Definition.Format
import ScopeLexer.Files.Disk
import ScopeLexer.Proofs.Files.Extensions

/-!
# The file that is selected

A path with an extension means itself, when the extension is listed.  A path without one means the
newest of the files that it becomes with each listed extension; of several as new as one another it
means the one whose extension is listed first.
-/

namespace ScopeLexer

variable {α : Type} {disk : Disk} {path file : String} {formats seen : List (String × α)}

/-! ## What a path means -/

/-- Which file a path means on a disk. -/
inductive Picks (disk : Disk) (path : String) (formats : List (String × α)) :
    Selection α → Prop where
  | listed {extension : String} {format : α} {before behind : List (String × α)}
      (hextension : Path.extension? path = some extension)
      (hformats : formats = before ++ (extension, format) :: behind)
      (hfirst : ∀ other ∈ before, other.1 ≠ extension) : Picks disk path formats (.file path format)
  | unlisted {extension : String} (hextension : Path.extension? path = some extension)
      (hformats : ∀ other ∈ formats, other.1 ≠ extension) :
      Picks disk path formats (.unrecognised extension)
  /-- The file exists, it is newer than those listed before it, and none listed behind it is newer
  than it. -/
  | newest {extension : String} {format : α} {before behind : List (String × α)} {time : Nat}
      (hextension : Path.extension? path = none)
      (hformats : formats = before ++ (extension, format) :: behind)
      (htime : disk.modified? (Path.withExtension path extension) = some time)
      (hbefore : ∀ other ∈ before, ∀ earlier,
        disk.modified? (Path.withExtension path other.1) = some earlier → earlier < time)
      (hbehind : ∀ other ∈ behind, ∀ earlier,
        disk.modified? (Path.withExtension path other.1) = some earlier → earlier ≤ time) :
      Picks disk path formats (.file (Path.withExtension path extension) format)
  | missing (hextension : Path.extension? path = none)
      (hformats : ∀ other ∈ formats, disk.modified? (Path.withExtension path other.1) = none) :
      Picks disk path formats .missing

theorem append_cons_eq {before behind others rest : List (String × α)} {first second : String × α}
    (h : before ++ first :: behind = others ++ second :: rest) :
    first = second ∨ (second ∈ behind ∧ first ∈ others) ∨ (first ∈ rest ∧ second ∈ before) := by
  rcases List.append_eq_append_iff.mp h with ⟨between, rfl, hbetween⟩ | ⟨between, rfl, hbetween⟩
  · cases between with
    | nil =>
        cases hbetween
        exact .inl rfl
    | cons entry between =>
        cases hbetween
        exact .inr (.inl ⟨by simp, by simp⟩)
  · cases between with
    | nil =>
        cases hbetween
        exact .inl rfl
    | cons entry between =>
        cases hbetween
        exact .inr (.inr ⟨by simp, by simp⟩)

theorem mem_of_eq_append_cons {before behind : List (String × α)} {entry : String × α}
    (h : formats = before ++ entry :: behind) : entry ∈ formats :=
  h ▸ List.mem_append_right before List.mem_cons_self

theorem Picks.unique {first second : Selection α} (hfirst : Picks disk path formats first)
    (hsecond : Picks disk path formats second) : first = second := by
  cases hfirst with
  | listed hextension hformats hbefore =>
      cases hsecond with
      | listed hextension' hformats' hbefore' =>
          cases hextension.symm.trans hextension'
          rcases append_cons_eq (hformats.symm.trans hformats') with heq | ⟨-, h⟩ | ⟨-, h⟩
          · cases heq
            rfl
          · exact absurd rfl (hbefore' _ h)
          · exact absurd rfl (hbefore _ h)
      | unlisted hextension' hnone =>
          cases hextension.symm.trans hextension'
          exact absurd rfl (hnone _ (mem_of_eq_append_cons hformats))
      | newest hextension' => cases hextension.symm.trans hextension'
      | missing hextension' => cases hextension.symm.trans hextension'
  | unlisted hextension hnone =>
      cases hsecond with
      | listed hextension' hformats' hbefore' =>
          cases hextension.symm.trans hextension'
          exact absurd rfl (hnone _ (mem_of_eq_append_cons hformats'))
      | unlisted hextension' hnone' =>
          cases hextension.symm.trans hextension'
          rfl
      | newest hextension' => cases hextension.symm.trans hextension'
      | missing hextension' => cases hextension.symm.trans hextension'
  | newest hextension hformats htime hbefore hbehind =>
      cases hsecond with
      | listed hextension' => cases hextension.symm.trans hextension'
      | unlisted hextension' => cases hextension.symm.trans hextension'
      | newest _ hformats' htime' hbefore' hbehind' =>
          rcases append_cons_eq (hformats.symm.trans hformats') with heq | ⟨h, h'⟩ | ⟨h, h'⟩
          · cases heq
            rfl
          · have hle := hbehind _ h _ htime'
            have hlt := hbefore' _ h' _ htime
            omega
          · have hle := hbehind' _ h _ htime
            have hlt := hbefore _ h' _ htime'
            omega
      | missing _ hnone =>
          rw [hnone _ (mem_of_eq_append_cons hformats)] at htime
          cases htime
  | missing hextension hnone =>
      cases hsecond with
      | listed hextension' => cases hextension.symm.trans hextension'
      | unlisted hextension' => cases hextension.symm.trans hextension'
      | newest _ hformats' htime' =>
          rw [hnone _ (mem_of_eq_append_cons hformats')] at htime'
          cases htime'
      | missing => rfl

/-! ## The newest file -/

def Leading (disk : Disk) (path : String) (seen : List (String × α)) :
    Option (Nat × String × α) → Prop
  | none => ∀ other ∈ seen, disk.modified? (Path.withExtension path other.1) = none
  | some (time, file, format) =>
      ∃ extension before behind, seen = before ++ (extension, format) :: behind ∧
        file = Path.withExtension path extension ∧ disk.modified? file = some time ∧
        (∀ other ∈ before, ∀ earlier,
          disk.modified? (Path.withExtension path other.1) = some earlier → earlier < time) ∧
        ∀ other ∈ behind, ∀ earlier,
          disk.modified? (Path.withExtension path other.1) = some earlier → earlier ≤ time

namespace Leading

variable {best : Option (Nat × String × α)} {extension : String} {format : α} {time : Nat}

theorem le (h : Leading disk path seen (some (time, file, format))) :
    ∀ other ∈ seen, ∀ earlier,
      disk.modified? (Path.withExtension path other.1) = some earlier → earlier ≤ time := by
  obtain ⟨extension, before, behind, rfl, rfl, htime, hbefore, hbehind⟩ := h
  intro other hother earlier hearlier
  rcases List.mem_append.mp hother with hother | hother
  · exact Nat.le_of_lt (hbefore other hother earlier hearlier)
  · rcases List.mem_cons.mp hother with rfl | hother
    · rw [htime] at hearlier
      cases hearlier
      exact Nat.le_refl _
    · exact hbehind other hother earlier hearlier

theorem keep (h : Leading disk path seen best)
    (hkeep : ∀ time, disk.modified? (Path.withExtension path extension) = some time →
      ∃ later leader, best = some (later, leader) ∧ time ≤ later) :
    Leading disk path (seen ++ [(extension, format)]) best := by
  match best with
  | none =>
      intro other hother
      rcases List.mem_append.mp hother with hother | hother
      · exact h other hother
      · cases List.mem_singleton.mp hother
        cases htime : disk.modified? (Path.withExtension path extension) with
        | none => rfl
        | some time =>
            obtain ⟨_, _, hbest, _⟩ := hkeep time htime
            cases hbest
  | some (later, leader) =>
      obtain ⟨first, before, behind, rfl, hfile, htime, hbefore, hbehind⟩ := h
      refine ⟨first, before, behind ++ [(extension, format)], by simp, hfile, htime, hbefore, ?_⟩
      intro other hother earlier hearlier
      rcases List.mem_append.mp hother with hother | hother
      · exact hbehind other hother earlier hearlier
      · cases List.mem_singleton.mp hother
        obtain ⟨_, _, hbest, hle⟩ := hkeep earlier hearlier
        cases hbest
        exact hle

theorem replace (h : Leading disk path seen best)
    (htime : disk.modified? (Path.withExtension path extension) = some time)
    (hnewer : best.all fun (earlier, _) => earlier < time) :
    Leading disk path (seen ++ [(extension, format)])
      (some (time, Path.withExtension path extension, format)) := by
  refine ⟨extension, seen, [], rfl, rfl, htime, fun other hother earlier hearlier => ?_, by simp⟩
  match best with
  | none =>
      rw [h other hother] at hearlier
      cases hearlier
  | some (later, leader) =>
      have hle := h.le other hother earlier hearlier
      have hlt : later < time := of_decide_eq_true hnewer
      omega

end Leading

/-! ## The search -/

section

variable {current : String} {best : Option (Nat × String × α)}

theorem newestFile_cons_run (extension : String) (format : α) (hbest : Leading disk path seen best)
    (hcurrent : Path.withExtension current extension = Path.withExtension path extension) :
    ∃ leader, Leading disk path (seen ++ [(extension, format)]) leader ∧
      (newestFile current ((extension, format) :: formats) best : OnDisk _).run disk =
        (newestFile (Path.withExtension path extension) formats leader : OnDisk _).run disk := by
  cases htime : disk.modified? (Path.withExtension path extension) with
  | none =>
      refine ⟨best, hbest.keep ?_, ?_⟩
      · intro time hsome
        cases htime.symm.trans hsome
      · simp [newestFile, hcurrent, htime]
  | some time =>
      by_cases hnewer : best.all fun (other, _) => other < time
      · exact ⟨_, hbest.replace htime hnewer, by simp [newestFile, hcurrent, htime, hnewer]⟩
      · refine ⟨best, hbest.keep ?_, by simp [newestFile, hcurrent, htime, hnewer]⟩
        intro time' hsome
        cases htime.symm.trans hsome
        match best, hnewer with
        | none, hnewer => exact absurd rfl hnewer
        | some (later, leader), hnewer =>
            exact ⟨later, leader, rfl, Nat.le_of_not_lt fun hlt => hnewer (decide_eq_true hlt)⟩

theorem newestFile_run (hnone : Path.extension? path = none)
    (hextensions : ∀ listed ∈ formats, Path.IsExtension listed.1)
    (hcurrent : ∀ extension,
      Path.withExtension current extension = Path.withExtension path extension)
    (hbest : Leading disk path seen best) :
    ∃ leader, Leading disk path (seen ++ formats) leader ∧
      (newestFile current formats best : OnDisk _).run disk = (leader, disk) := by
  induction formats generalizing current seen best with
  | nil => exact ⟨best, by rwa [List.append_nil], rfl⟩
  | cons listed formats ih =>
      obtain ⟨extension, format⟩ := listed
      have hextension := hextensions _ List.mem_cons_self
      obtain ⟨next, hnext, hstep⟩ :=
        newestFile_cons_run extension format hbest (hcurrent extension)
      obtain ⟨leader, hleader, hrun⟩ :=
        ih (fun other hother => hextensions other (List.mem_cons_of_mem _ hother))
          (Path.withExtension_withExtension hnone hextension) hnext
      rw [List.append_assoc] at hleader
      exact ⟨leader, hleader, hstep.trans hrun⟩

end

theorem selectFormat_run_of_some {extension : String}
    (hextension : Path.extension? path = some extension) :
    ∃ selection, Picks disk path formats selection ∧
      (selectFormat path formats : OnDisk (Selection α)).run disk = (selection, disk) := by
  cases hfind : formats.find? fun format => format.1 == extension with
  | none =>
      refine ⟨.unrecognised extension, .unlisted hextension fun other hother heq => ?_, ?_⟩
      · exact List.find?_eq_none.mp hfind other hother (beq_iff_eq.mpr heq)
      · simp only [selectFormat, hextension, hfind]
        rfl
  | some listed =>
      obtain ⟨first, format⟩ := listed
      obtain ⟨heq, before, behind, hformats, hbefore⟩ := List.find?_eq_some_iff_append.mp hfind
      cases beq_iff_eq.mp heq
      refine ⟨.file path format, .listed hextension hformats fun other hother heq => ?_, ?_⟩
      · simpa [heq] using hbefore other hother
      · simp only [selectFormat, hextension, hfind]
        rfl

theorem selectFormat_run_of_none (hnone : Path.extension? path = none)
    (hextensions : ∀ listed ∈ formats, Path.IsExtension listed.1) :
    ∃ selection, Picks disk path formats selection ∧
      (selectFormat path formats : OnDisk (Selection α)).run disk = (selection, disk) := by
  have hstart : Leading disk path ([] : List (String × α)) none := by
    intro other hother
    cases hother
  obtain ⟨leader, hleader, hsearch⟩ :=
    newestFile_run hnone hextensions (fun extension => rfl) hstart
  rw [List.nil_append] at hleader
  rw [selectFormat, hnone]
  simp only [OnDisk.run_bind_of_run_eq hsearch]
  match leader with
  | none => exact ⟨.missing, .missing hnone hleader, rfl⟩
  | some (time, file, format) =>
      obtain ⟨extension, before, behind, hformats, rfl, htime, hbefore, hbehind⟩ := hleader
      exact ⟨_, .newest hnone hformats htime hbefore hbehind, rfl⟩

theorem exists_picks (disk : Disk) (path : String) (hextensions : Path.extension? path = none →
    ∀ listed ∈ formats, Path.IsExtension listed.1) :
    ∃ selection, Picks disk path formats selection ∧
      (selectFormat path formats : OnDisk (Selection α)).run disk = (selection, disk) := by
  cases hextension : Path.extension? path with
  | some extension => exact selectFormat_run_of_some hextension
  | none => exact selectFormat_run_of_none hextension (hextensions hextension)

/-- The file that is selected is the one that the path means, and nothing is changed on the disk.
What is put behind a path without an extension has to be one: of a text with dots in it a part would
be left when the next one is put in its place.  A directory is selected as a file would be. -/
theorem selectFormat_picks (disk : Disk) (path : String) (formats : List (String × α))
    (hextensions : Path.extension? path = none → ∀ listed ∈ formats, Path.IsExtension listed.1)
    (selection : Selection α) :
    (selectFormat path formats : OnDisk (Selection α)).run disk = (selection, disk) ↔
      Picks disk path formats selection := by
  obtain ⟨picked, hpicked, hrun⟩ := exists_picks disk path hextensions
  rw [hrun]
  constructor
  · intro heq
    cases heq
    exact hpicked
  · intro hpicks
    rw [hpicked.unique hpicks]

theorem Format.isExtension_of_mem :
    ∀ listed ∈ Format.byExtension, Path.IsExtension listed.1 := by
  have hnames : ∀ listed ∈ Format.byExtension,
      Path.extension? ("t." ++ listed.1) = some listed.1 := by decide
  exact fun listed hlisted => ⟨_, hnames listed hlisted⟩

/-- The compiled form is listed first but it is older than the others, which are as new as each
other. -/
theorem edited_source_is_picked :
    (Path.extension? "t" = none → ∀ listed ∈ Format.byExtension, Path.IsExtension listed.1) ∧
      Picks { entries := [⟨["work", "t.ctm"], .file [], 1⟩, ⟨["work", "t.yml"], .file [], 3⟩,
        ⟨["work", "t.json"], .file [], 3⟩] } "t" Format.byExtension (.file "t.json" .json) :=
  ⟨fun _ => Format.isExtension_of_mem,
    (selectFormat_picks _ "t" Format.byExtension (fun _ => Format.isExtension_of_mem) _).mp rfl⟩

def archived : Disk where
  entries := [⟨["work", "t.zip"], .file [], 1⟩]

def shadowed : Disk where
  entries := [⟨["work", "t.json"], .file [], 1⟩, ⟨["work", "t.ctm"], .directory, 2⟩]

/-- Behind the first extension `t.tar.zip` is looked for, and `t.zip` is not found.  And a newer
directory hides a file that could be read. -/
theorem dotted_extension_hides_file :
    (Picks archived "t" [("tar.gz", 0), ("zip", 1)] (.file "t.zip" 1) ∧
      (selectFormat "t" [("tar.gz", 0), ("zip", 1)] : OnDisk (Selection Nat)).run archived =
        (.missing, archived)) ∧
    ((selectFormat "t" Format.byExtension : OnDisk (Selection Format)).run shadowed =
        (.file "t.ctm" .compiled, shadowed) ∧
      shadowed.read "t.ctm" = .error .isDirectory ∧ shadowed.read "t.json" = .ok []) := by
  have hmissing : archived.modified? (Path.withExtension "t" "tar.gz") = none := rfl
  have hpicks : Picks archived "t" [("tar.gz", 0), ("zip", 1)]
      (.file (Path.withExtension "t" "zip") 1) := by
    refine @Picks.newest _ _ _ _ "zip" 1 [("tar.gz", 0)] [] 1 rfl rfl rfl ?_ nofun
    intro other hother earlier hearlier
    cases List.mem_singleton.mp hother
    cases hmissing.symm.trans hearlier
  exact ⟨⟨hpicks, rfl⟩, rfl, rfl, rfl⟩

end ScopeLexer
