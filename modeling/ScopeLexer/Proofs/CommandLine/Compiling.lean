import ScopeLexer.CommandLine
import ScopeLexer.Proofs.Definition.Ordered
import ScopeLexer.Proofs.Files.Selection
import ScopeLexer.Proofs.Files.Writing

/-!
# Grammars that are compiled

Nothing is written before the whole grammar is accepted, and then the one file that is written holds
the definition that was read.
-/

namespace ScopeLexer

open Outcome

variable {disk after : Disk} {path file : String} {format : Format} {picked : Selection Format}
  {definition : GrammarDefinition} {result : Except LoadError GrammarDefinition}

/-! ## Definitions that are read -/

def Means (disk : Disk) (path : String) (definition : GrammarDefinition) : Prop :=
  ∃ file format bytes, Picks disk path Format.byExtension (.file file format) ∧
    disk.read file = .ok bytes ∧ Definition.decode format bytes = .ok definition

theorem Picks.means_iff (hpicked : Picks disk path Format.byExtension (.file file format)) :
    Means disk path definition ↔
      ∃ bytes, disk.read file = .ok bytes ∧ Definition.decode format bytes = .ok definition := by
  constructor
  · rintro ⟨_, _, bytes, hpicks, hread, hdecode⟩
    cases hpicked.unique hpicks
    exact ⟨bytes, hread, hdecode⟩
  · rintro ⟨bytes, hread, hdecode⟩
    exact ⟨file, format, bytes, hpicked, hread, hdecode⟩

theorem Picks.not_means (hpicked : Picks disk path Format.byExtension picked)
    (hnone : ∀ file format, picked ≠ .file file format) : ¬Means disk path definition := by
  rintro ⟨file, format, -, hpicks, -⟩
  exact hnone file format (hpicked.unique hpicks)

theorem definitionOfPath_run (disk : Disk) (path : String) :
    ∃ result, (definitionOfPath path : OnDisk (Except LoadError GrammarDefinition)).run disk =
        (result, disk) ∧
      ∀ definition, result = .ok definition ↔ Means disk path definition := by
  obtain ⟨picked, hpicked, hrun⟩ := exists_picks disk path fun _ => Format.isExtension_of_mem
  rw [definitionOfPath, OnDisk.run_bind_of_run_eq hrun]
  cases picked with
  | file file format =>
      cases hread : disk.read file with
      | error fault =>
          refine ⟨.error (.unreadable file fault), ?_, fun definition => ?_⟩
          · simp only [StateT.run_bind, OnDisk.run_read, hread]
            rfl
          · simp [hpicked.means_iff, hread]
      | ok bytes =>
          refine ⟨(Definition.decode format bytes).mapError (.undecodable file), ?_,
            fun definition => ?_⟩
          · simp only [StateT.run_bind, OnDisk.run_read, hread]
            rfl
          · simp [hpicked.means_iff, hread]
  | unrecognised extension =>
      exact ⟨.error (.unrecognised extension path), rfl, fun definition =>
        iff_of_false nofun (hpicked.not_means nofun)⟩
  | missing =>
      exact ⟨.error (.notFound path), rfl, fun definition =>
        iff_of_false nofun (hpicked.not_means nofun)⟩

/-! ## Definitions that are compiled -/

namespace CommandLine

variable {output : Option String} {outcome : Outcome}

def compiledPath (output : Option String) (path : String) : String :=
  output.getD (Path.withExtension path Format.compiledExtension)

/-- A grammar that is compiled was read and accepted, and there is room for its compiled form. -/
structure Compilable (disk : Disk) (output : Option String) (path : String)
    (definition : GrammarDefinition) (names : List String) : Prop where
  means : Means disk path definition
  accepted : ∃ grammar, Grammar.ofDefinition definition = .ok grammar
  target : disk.target (compiledPath output path) = .ok names

theorem compile_run_of_compilable {names : List String}
    (h : Compilable disk output path definition names) :
    (compile output path : OnDisk Outcome).run disk = ({ code := 0 },
      disk.insert ⟨names, .file (Compiled.encode definition), disk.clock⟩) := by
  obtain ⟨result, hrun, hmeans⟩ := definitionOfPath_run disk path
  obtain ⟨grammar, hgrammar⟩ := h.accepted
  cases (hmeans definition).mpr h.means
  have htarget := h.target
  rw [compiledPath] at htarget
  rw [compile, OnDisk.run_bind_of_run_eq hrun]
  simp only [hgrammar, StateT.run_bind, OnDisk.run_write, Disk.write, htarget]
  rfl

theorem compile_run_of_not_compilable
    (h : ∀ definition names, ¬Compilable disk output path definition names) :
    ∃ failure : Failure,
      (compile output path : OnDisk Outcome).run disk = (failure.outcome, disk) := by
  obtain ⟨result, hrun, hmeans⟩ := definitionOfPath_run disk path
  rw [compile, OnDisk.run_bind_of_run_eq hrun]
  cases result with
  | error error => exact ⟨_, rfl⟩
  | ok definition =>
      cases hgrammar : Grammar.ofDefinition definition with
      | error malformed =>
          refine ⟨⟨(LoadError.malformed malformed).message, []⟩, ?_⟩
          simp only [hgrammar]
          rfl
      | ok grammar =>
          cases htarget : disk.target (compiledPath output path) with
          | error fault =>
              refine ⟨⟨"failed to write " ++ compiledPath output path, [fault.message]⟩, ?_⟩
              rw [compiledPath] at htarget ⊢
              simp only [hgrammar, StateT.run_bind, OnDisk.run_write, Disk.write, htarget]
              rfl
          | ok names =>
              exact absurd ⟨(hmeans definition).mp rfl, ⟨grammar, hgrammar⟩, htarget⟩
                (h definition names)

/-- Compiling a grammar fails and changes nothing, unless there is a definition that can be compiled
and a place for it.  Then one file is written, and it can be read; the definition comes back from it,
its lengths being ones that eight bytes hold. -/
theorem compile_all_or_nothing (disk : Disk) (output : Option String) (path : String)
    (hrun : (compile output path : OnDisk Outcome).run disk = (outcome, after)) :
    (outcome.code ≠ 0 ∧ after = disk ∧
      ∀ definition names, ¬Compilable disk output path definition names) ∨
    (outcome.code = 0 ∧ ∃ definition names blob, Compilable disk output path definition names ∧
      Disk.Replaced disk after names blob ∧ after.read (compiledPath output path) = .ok blob ∧
      (definition.fits → Definition.decode .compiled blob = .ok definition)) := by
  by_cases h : ∃ definition names, Compilable disk output path definition names
  · obtain ⟨definition, names, h⟩ := h
    cases hrun.symm.trans (compile_run_of_compilable h)
    refine .inr ⟨rfl, definition, names, _, h, Disk.replaced_insert _ _,
      Disk.read_insert_target h.target, fun hfits => ?_⟩
    obtain ⟨_, _, _, -, -, hdecode⟩ := h.means
    exact Compiled.decode_encode (Definition.storable_of_decode hdecode hfits)
  · have hnone : ∀ definition names, ¬Compilable disk output path definition names :=
      fun definition names hcompilable => h ⟨definition, names, hcompilable⟩
    obtain ⟨failure, hfailure⟩ := compile_run_of_not_compilable hnone
    cases hrun.symm.trans hfailure
    exact .inl ⟨by simp [Failure.outcome], rfl, hnone⟩

def edited : Disk where
  entries := [⟨["work", "t.ctm"], .file [], 1⟩, ⟨["work", "t.json"], .file (Utf8.encode
    "\x7b\"scopeName\":\"s\",\"patterns\":[\x7b\"match\":\"a\",\"name\":\"b\"\x7d]\x7d".toList), 2⟩]
  clock := 3

def recompiled : Disk :=
  edited.insert ⟨["work", "t.ctm"], .file (Compiled.encode
    { scopeName := "s", patterns := [{ matchSource := some "a", name := some "b" }] }), 3⟩

theorem edited_recompiled :
    (compile none "t" : OnDisk Outcome).run edited = ({ code := 0 }, recompiled) ∧
      ∃ definition blob, Means edited "t" definition ∧
        Disk.Replaced edited recompiled ["work", "t.ctm"] blob ∧
        Definition.decode .compiled blob = .ok definition := by
  have hrun : @Eq (Outcome × Disk) ((compile none "t" : OnDisk Outcome).run edited)
      ({ code := 0 }, recompiled) := by decide +kernel
  have htarget : edited.target (compiledPath none "t") = .ok ["work", "t.ctm"] := by
    decide +kernel
  have hselect : (selectFormat "t" Format.byExtension : OnDisk (Selection Format)).run edited =
      (.file "t.json" .json, edited) := rfl
  have hfits : ((edited.read "t.json").toOption.bind fun bytes =>
      (Definition.decode .json bytes).toOption).all (·.fits) := by decide +kernel
  refine ⟨hrun, ?_⟩
  rcases compile_all_or_nothing edited none "t" hrun with ⟨hcode, -⟩ | ⟨-, h⟩
  · exact absurd rfl hcode
  · obtain ⟨definition, names, blob, hcompilable, hreplaced, -, hdecode⟩ := h
    rw [hcompilable.target, Except.ok.injEq] at htarget
    subst htarget
    obtain ⟨picked, hpicked, hpick⟩ := exists_picks edited "t" fun _ => Format.isExtension_of_mem
    rw [hselect, Prod.mk.injEq] at hpick
    rw [← hpick.1] at hpicked
    obtain ⟨bytes, hread, hdefinition⟩ := hpicked.means_iff.mp hcompilable.means
    rw [hread] at hfits
    simp only [Except.toOption, Option.bind_some, hdefinition, Option.all_some] at hfits
    exact ⟨definition, blob, hcompilable.means, hreplaced, hdecode hfits⟩

end CommandLine

end ScopeLexer
