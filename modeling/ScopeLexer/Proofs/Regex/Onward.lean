import ScopeLexer.Proofs.Regex.Contract
import ScopeLexer.Proofs.Regex.Variants

/-!
# Matches lie ahead

No match begins in front of where its search does.  Only a look-behind goes backwards, and it comes
back to where it was without moving the start of the match, since it must not hold a `\K`.
-/

namespace ScopeLexer.Regex

open Outcome

/-! ## What a matcher leads to -/

/-- Whatever a matcher finds, the rest accepts it at a progress that is so related to the first. -/
def Leads (related : Progress → Progress → Prop) (step : Progress → Rest → Option Progress) :
    Prop :=
  ∀ progress rest found, step progress rest = some found →
    ∃ next, related progress next ∧ rest next = some found

structure Passage (related : Progress → Progress → Prop) : Prop where
  refl (progress : Progress) : related progress progress
  trans {first second third : Progress} (h : related first second) (h' : related second third) :
    related first third
  forward (progress : Progress) (count : Nat) :
    related progress (progress.moveTo (progress.position + count))
  catches (progress : Progress) (spans : Array Span) : related progress { progress with spans }
  back {progress next : Progress} (h : related progress next) :
    related progress (next.moveTo progress.position)

section

variable {related : Progress → Progress → Prop}
  {step first second : Progress → Rest → Option Progress}
  {progress : Progress} {rest : Rest} {found : Progress}

theorem Leads.refl (hpassage : Passage related) : Leads related fun progress rest => rest progress :=
  fun progress _ _ h => ⟨progress, hpassage.refl progress, h⟩

theorem Leads.test (hpassage : Passage related) (test : Progress → Bool) :
    Leads related fun progress rest => if test progress then rest progress else none := by
  intro progress rest found h
  dsimp only at h
  split at h
  · exact ⟨progress, hpassage.refl progress, h⟩
  · contradiction

theorem Leads.andThen (hpassage : Passage related) (hfirst : Leads related first)
    (hsecond : Leads related second) :
    Leads related fun progress rest => first progress fun next => second next rest := by
  intro progress rest found h
  obtain ⟨middle, hmiddle, hrest⟩ := hfirst progress _ found h
  obtain ⟨next, hnext, hfound⟩ := hsecond middle rest found hrest
  exact ⟨next, hpassage.trans hmiddle hnext, hfound⟩

theorem Leads.times (hpassage : Passage related) (hstep : Leads related step) (count : Nat) :
    Leads related (runTimes step count) := by
  induction count with
  | zero => exact .refl hpassage
  | succ count ih =>
      intro progress rest found h
      exact Leads.andThen hpassage hstep ih progress rest found h

theorem prefer_eq_some {preference : Preference} {more enough : Unit → Option Progress}
    (h : prefer preference more enough = some found) :
    more () = some found ∨ enough () = some found := by
  cases preference with
  | greedy =>
      simp only [prefer] at h
      split at h
      · exact .inl (by simp_all)
      · exact .inr h
  | «lazy» =>
      simp only [prefer] at h
      split at h
      · exact .inr (by simp_all)
      · exact .inl h

theorem Leads.more (hpassage : Passage related) (hstep : Leads related step)
    (preference : Preference) (fuel : Nat) (most : Option Nat) :
    Leads related (runMore step preference fuel most) := by
  induction fuel generalizing most with
  | zero => exact .refl hpassage
  | succ fuel ih =>
      intro progress rest found h
      rw [runMore] at h
      split at h
      · exact ⟨progress, hpassage.refl progress, h⟩
      · rcases prefer_eq_some h with hmore | henough
        · obtain ⟨middle, hmiddle, hrest⟩ := hstep progress _ found hmore
          split at hrest
          · exact ⟨middle, hmiddle, hrest⟩
          · obtain ⟨next, hnext, hfound⟩ := ih _ middle rest found hrest
            exact ⟨next, hpassage.trans hmiddle hnext, hfound⟩
        · exact ⟨progress, hpassage.refl progress, henough⟩

theorem fromMost_eq_some {rest : Nat → Option Progress} {least extra : Nat}
    (h : fromMost rest least extra = some found) : ∃ count, rest count = some found := by
  induction extra with
  | zero => exact ⟨least, h⟩
  | succ extra ih =>
      rw [fromMost] at h
      split at h
      · next hfound =>
        cases h
        exact ⟨_, hfound⟩
      · exact ih h

theorem fromLeast_eq_some {rest : Nat → Option Progress} {least extra : Nat}
    (h : fromLeast rest extra least = some found) : ∃ count, rest count = some found := by
  induction extra generalizing least with
  | zero => exact ⟨least, h⟩
  | succ extra ih =>
      rw [fromLeast] at h
      split at h
      · next hfound =>
        cases h
        exact ⟨_, hfound⟩
      · exact ih h

theorem Leads.members (hpassage : Passage related) (subject : Subject) (members : CharClass)
    (least : Nat) (most : Option Nat) (preference : Preference) :
    Leads related (runMembers subject members least most preference) := by
  intro progress rest found h
  have hcount : ∃ count, rest (progress.moveTo (progress.position + count)) = some found := by
    unfold runMembers at h
    dsimp only at h
    split at h
    · contradiction
    · cases preference with
      | greedy => exact fromMost_eq_some h
      | «lazy» => exact fromLeast_eq_some h
  obtain ⟨count, hfound⟩ := hcount
  exact ⟨_, hpassage.forward progress count, hfound⟩

theorem lookBack_eq_some {run : Progress → Option Progress} {back tries : Nat}
    (h : lookBack run progress back tries = some found) :
    ∃ position, run (progress.moveTo position) = some found := by
  induction tries generalizing back with
  | zero => contradiction
  | succ tries ih =>
      rw [lookBack] at h
      split at h
      · next hfound =>
        cases h
        exact ⟨_, hfound⟩
      · exact ih h

theorem repeatGroup?_eq_some {subject : Subject} {anyCase : Bool} {index position : Nat}
    (h : repeatGroup? subject anyCase progress index = some position) :
    ∃ count, position = progress.position + count := by
  unfold repeatGroup? at h
  split at h
  · split at h
    · cases h
      exact ⟨_, rfl⟩
    · contradiction
  · contradiction

theorem Leads.orElse (hfirst : Leads related first) (hsecond : Leads related second) :
    Leads related fun progress rest =>
      match first progress rest with
      | some found => some found
      | none => second progress rest := by
  intro progress rest found h
  dsimp only at h
  split at h
  · next hfound =>
    cases h
    exact hfirst _ _ _ hfound
  · exact hsecond _ _ _ h

theorem Leads.of_found (hstep : Leads related step) {next : Progress}
    (h : step progress some = some next) : related progress next := by
  obtain ⟨_, hnext, hsome⟩ := hstep _ _ _ h
  cases hsome
  exact hnext

theorem Leads.conditional (hpassage : Passage related) {test : Progress → Rest → Option Progress}
    (htest : Leads related test) (hyes : Leads related first) (hno : Leads related second) :
    Leads related fun progress rest =>
      match test progress some with
      | some next => first next rest
      | none => second progress rest := by
  intro progress rest found h
  dsimp only at h
  split at h
  · next middle htested =>
    obtain ⟨next, hnext, hfound⟩ := hyes _ _ _ h
    exact ⟨next, hpassage.trans (htest.of_found htested) hnext, hfound⟩
  · exact hno _ _ _ h

end

/-! ## Nodes -/

/-- A later progress of a match.  Its start is marked in between only where that is `allowed`. -/
structure Ahead (allowed : Bool) (progress next : Progress) : Prop where
  position : progress.position ≤ next.position
  kept : next.kept = progress.kept ∨
    allowed = true ∧ ∃ start, next.kept = some start ∧ progress.position ≤ start

theorem ahead_passage (allowed : Bool) : Passage (Ahead allowed) where
  refl _ := ⟨Nat.le_refl _, .inl rfl⟩
  trans {first second third} h h' := by
    refine ⟨Nat.le_trans h.position h'.position, ?_⟩
    rcases h'.kept with hkept | ⟨hallowed, start, hstart, hle⟩
    · rw [hkept]
      exact h.kept
    · exact .inr ⟨hallowed, start, hstart, Nat.le_trans h.position hle⟩
  forward _ _ := ⟨Nat.le_add_right _ _, .inl rfl⟩
  catches _ _ := ⟨Nat.le_refl _, .inl rfl⟩
  back h := ⟨Nat.le_refl _, h.kept⟩

namespace Node

/-- Whether the start of the match is only marked where that is allowed, and in no look-behind. -/
def marksStart (allowed : Bool) : Node → Bool
  | .sequence first second => first.marksStart allowed && second.marksStart allowed
  | .choice first second => first.marksStart allowed && second.marksStart allowed
  | .group _ body => body.marksStart allowed
  | .atomic body => body.marksStart allowed
  | .scoped body => body.marksStart allowed
  | .look .ahead _ body => body.marksStart allowed
  | .look .behind _ body => body.marksStart false
  | .repeated _ _ _ body => body.marksStart allowed
  | .conditional condition yes no =>
      condition.marksStart allowed && yes.marksStart allowed && no.marksStart allowed
  | .keep => allowed
  | .call _ => allowed
  | _ => true

theorem marksStart_of_allowedBehind {negated : Bool} {node : Node}
    (h : node.allowedBehind negated = true) : node.marksStart false = true := by
  induction node with
  | sequence first second ihFirst ihSecond =>
      simp only [allowedBehind, Bool.and_eq_true] at h
      simp [marksStart, ihFirst h.1, ihSecond h.2]
  | choice first second ihFirst ihSecond =>
      simp only [allowedBehind, Bool.and_eq_true] at h
      simp [marksStart, ihFirst h.1, ihSecond h.2]
  | group index body ih =>
      simp only [allowedBehind, Bool.and_eq_true] at h
      exact ih h.2
  | atomic body ih => exact ih h
  | «scoped» body ih => exact ih h
  | look direction inner body ih =>
      cases direction with
      | ahead => contradiction
      | behind =>
          simp only [allowedBehind, Bool.and_eq_true] at h
          exact ih h.2
  | repeated least most preference body ih => exact ih h
  | conditional condition yes no ihCondition ihYes ihNo =>
      simp only [allowedBehind, Bool.and_eq_true] at h
      simp [marksStart, ihCondition h.1.1, ihYes h.1.2, ihNo h.2]
  | keep | call => contradiction
  | empty | oneOf | backreference | caught | assertion => rfl

theorem marksStart_of_looksBehindSoundly {node : Node} (h : node.looksBehindSoundly = true) :
    node.marksStart true = true := by
  induction node with
  | sequence first second ihFirst ihSecond =>
      simp only [looksBehindSoundly, Bool.and_eq_true] at h
      simp [marksStart, ihFirst h.1, ihSecond h.2]
  | choice first second ihFirst ihSecond =>
      simp only [looksBehindSoundly, Bool.and_eq_true] at h
      simp [marksStart, ihFirst h.1, ihSecond h.2]
  | group index body ih => exact ih h
  | atomic body ih => exact ih h
  | «scoped» body ih => exact ih h
  | look direction negated body ih =>
      cases direction with
      | ahead => exact ih h
      | behind =>
          simp only [looksBehindSoundly, Bool.and_eq_true] at h
          exact marksStart_of_allowedBehind h.1.1
  | repeated least most preference body ih => exact ih h
  | conditional condition yes no ihCondition ihYes ihNo =>
      simp only [looksBehindSoundly, Bool.and_eq_true] at h
      simp [marksStart, ihCondition h.1.1, ihYes h.1.2, ihNo h.2]
  | empty | oneOf | backreference | caught | assertion | keep | call => rfl

theorem marksStart_of_false {allowed : Bool} {node : Node} (h : node.marksStart false = true) :
    node.marksStart allowed = true := by
  induction node with
  | look direction negated body ih =>
      cases direction with
      | ahead => exact ih h
      | behind => exact h
  | keep | call => contradiction
  | _ => simp_all [marksStart]

theorem marksStart_groupBody? {root body : Node} {index : Nat} (h : root.marksStart true = true)
    (hbody : root.groupBody? index = some body) : body.marksStart true = true := by
  induction root with
  | sequence first second ihFirst ihSecond | choice first second ihFirst ihSecond =>
      simp only [marksStart, Bool.and_eq_true] at h
      rcases Option.or_eq_some_iff.mp hbody with hfirst | ⟨-, hsecond⟩
      · exact ihFirst h.1 hfirst
      · exact ihSecond h.2 hsecond
  | group i inner ih =>
      rw [groupBody?] at hbody
      split at hbody
      · cases hbody
        exact h
      · exact ih h hbody
  | look direction negated inner ih =>
      cases direction with
      | ahead => exact ih h hbody
      | behind => exact ih (marksStart_of_false h) hbody
  | atomic inner ih | «scoped» inner ih | repeated _ _ _ inner ih => exact ih h hbody
  | conditional condition yes no ihCondition ihYes ihNo =>
      simp only [marksStart, Bool.and_eq_true] at h
      rcases Option.or_eq_some_iff.mp hbody with hcondition | ⟨-, hbranch⟩
      · exact ihCondition h.1.1 hcondition
      · rcases Option.or_eq_some_iff.mp hbranch with hyes | ⟨-, hno⟩
        · exact ihYes h.1.2 hyes
        · exact ihNo h.2 hno
  | empty | oneOf | backreference | caught | assertion | keep | call => contradiction

/-! ### Looks and repetitions -/

variable {allowed negated : Bool} {body : Node} {calls : Calls} {subject : Subject}

theorem leads_look {progress found : Progress} {rest : Rest} {looked : Option Progress}
    {back : Progress → Progress}
    (h : (match looked with
      | some next => if negated then none else rest (back next)
      | none => if negated then rest progress else none) = some found)
    (hback : ∀ next, looked = some next → Ahead allowed progress (back next)) :
    ∃ next, Ahead allowed progress next ∧ rest next = some found := by
  split at h
  · split at h
    · contradiction
    · exact ⟨_, hback _ rfl, h⟩
  · split at h
    · exact ⟨progress, (ahead_passage allowed).refl progress, h⟩
    · contradiction

theorem ahead_lookAhead (hbody : Leads (Ahead allowed) (body.run calls subject)) :
    Leads (Ahead allowed) ((look .ahead negated body).run calls subject) := by
  intro progress rest found hrun
  rw [run] at hrun
  exact leads_look hrun fun next hnext => (ahead_passage allowed).back (hbody.of_found hnext)

theorem lookBack_ahead {step : Progress → Rest → Option Progress}
    (hstep : Leads (Ahead false) step) {progress found : Progress} {back tries : Nat}
    (h : lookBack (fun start => step start fun next =>
      if next.position == progress.position then some next else none) progress back tries =
        some found) : Ahead allowed progress found := by
  obtain ⟨position, hrun⟩ := lookBack_eq_some h
  obtain ⟨next, hnext, hend⟩ := hstep _ _ _ hrun
  split at hend
  · next hposition =>
    cases hend
    rcases hnext.kept with hkept | ⟨hallowed, -⟩
    · exact ⟨Nat.le_of_eq (beq_iff_eq.mp hposition).symm, .inl hkept⟩
    · contradiction
  · contradiction

theorem ahead_lookBehind
    (hbody : ∀ limit, Leads (Ahead false) (body.run calls { subject with limit })) :
    Leads (Ahead allowed) ((look .behind negated body).run calls subject) := by
  intro progress rest found hrun
  rw [run] at hrun
  exact leads_look hrun fun next hnext => lookBack_ahead (hbody _) hnext

theorem ahead_repeated (hbody : Leads (Ahead allowed) (body.run calls subject)) (least : Nat)
    (most : Option Nat) (preference : Preference) :
    Leads (Ahead allowed) ((repeated least most preference body).run calls subject) := by
  cases body with
  | oneOf members => exact .members (ahead_passage allowed) subject members least most preference
  | _ =>
      intro progress rest found hrun
      obtain ⟨middle, hmiddle, hmore⟩ :=
        Leads.times (ahead_passage allowed) hbody least _ _ _ hrun
      obtain ⟨next, hnext, hfound⟩ :=
        Leads.more (ahead_passage allowed) hbody preference _ _ _ _ _ hmore
      exact ⟨next, (ahead_passage allowed).trans hmiddle hnext, hfound⟩

theorem ahead_group (hbody : Leads (Ahead allowed) (body.run calls subject)) (index : Nat) :
    Leads (Ahead allowed) ((group index body).run calls subject) := by
  intro progress rest found hrun
  obtain ⟨next, hnext, hfound⟩ := hbody _ _ _ hrun
  have hpassage := ahead_passage allowed
  exact ⟨_, hpassage.trans (hpassage.trans (hpassage.catches progress _) hnext)
    (hpassage.catches next _), hfound⟩

theorem ahead_oneOf (members : CharClass) :
    Leads (Ahead allowed) ((oneOf members).run calls subject) := by
  intro progress rest found hrun
  rw [run] at hrun
  split at hrun
  · split at hrun
    · exact ⟨_, (ahead_passage allowed).forward progress 1, hrun⟩
    · contradiction
  · contradiction

theorem ahead_atomic (hbody : Leads (Ahead allowed) (body.run calls subject)) :
    Leads (Ahead allowed) ((atomic body).run calls subject) := by
  intro progress rest found hrun
  rw [run] at hrun
  split at hrun
  · next hfound => exact ⟨_, hbody.of_found hfound, hrun⟩
  · contradiction

theorem ahead_backreference (groups : List Nat) (anyCase : Bool) :
    Leads (Ahead allowed) ((backreference groups anyCase).run calls subject) := by
  intro progress rest found hrun
  rw [run] at hrun
  split at hrun
  · next position hposition =>
    obtain ⟨index, -, hgroup⟩ := List.exists_of_findSome?_eq_some hposition
    obtain ⟨count, rfl⟩ := repeatGroup?_eq_some hgroup
    exact ⟨_, (ahead_passage allowed).forward progress count, hrun⟩
  · contradiction

/-- A node matches on from where it begins, when all that is called does. -/
theorem run_ahead {node : Node} (hcalls : ∀ index subject, Leads (Ahead true) (calls index subject))
    (h : node.marksStart allowed = true) (subject : Subject) :
    Leads (Ahead allowed) (node.run calls subject) := by
  induction node generalizing allowed subject with
  | empty => exact .refl (ahead_passage allowed)
  | oneOf members => exact ahead_oneOf members
  | sequence first second ihFirst ihSecond =>
      simp only [marksStart, Bool.and_eq_true] at h
      intro progress rest found hrun
      exact Leads.andThen (ahead_passage allowed) (ihFirst h.1 subject) (ihSecond h.2 subject)
        progress rest found hrun
  | choice first second ihFirst ihSecond =>
      simp only [marksStart, Bool.and_eq_true] at h
      exact Leads.orElse (ihFirst h.1 subject) (ihSecond h.2 subject)
  | group index body ih => exact ahead_group (ih h subject) index
  | atomic body ih => exact ahead_atomic (ih h subject)
  | «scoped» body ih => exact ih h subject
  | look direction negated body ih =>
      cases direction with
      | ahead => exact ahead_lookAhead (ih h subject)
      | behind => exact ahead_lookBehind fun _ => ih h _
  | repeated least most preference body ih =>
      exact ahead_repeated (ih h subject) least most preference
  | backreference groups anyCase => exact ahead_backreference groups anyCase
  | caught groups =>
      exact .test (ahead_passage allowed) fun progress =>
        groups.any fun index => (progress.caught? index).isSome
  | conditional condition yes no ihCondition ihYes ihNo =>
      simp only [marksStart, Bool.and_eq_true] at h
      exact Leads.conditional (ahead_passage allowed) (ihCondition h.1.1 subject)
        (ihYes h.1.2 subject) (ihNo h.2 subject)
  | assertion condition =>
      exact .test (ahead_passage allowed) fun progress =>
        subject.meets condition progress.position
  | keep =>
      intro progress rest found hrun
      rw [run] at hrun
      refine ⟨{ progress with kept := some progress.position }, ⟨Nat.le_refl _, ?_⟩, hrun⟩
      exact .inr ⟨h, progress.position, rfl, Nat.le_refl _⟩
  | call index =>
      obtain rfl : allowed = true := h
      exact hcalls index subject

end Node

/-! ## Searches -/

def Program.Compiled (program : Program) : Prop :=
  ∃ text, Program.ofText text = .ok program

namespace Program

variable {program : Program}

theorem Compiled.marksStart (h : program.Compiled) : program.root.marksStart true = true := by
  obtain ⟨text, hprogram⟩ := h
  obtain ⟨_, _, -, htree⟩ := ofText_eq_ok.mp hprogram
  obtain ⟨-, _, -, hnamed⟩ := ofTree_eq_ok.mp htree
  obtain ⟨-, -, hbehind⟩ := ofNamed_eq_ok.mp hnamed
  exact Node.marksStart_of_looksBehindSoundly hbehind

theorem call_ahead (h : program.root.marksStart true = true) (depth index : Nat)
    (subject : Subject) : Leads (Ahead true) (program.call depth index subject) := by
  induction depth generalizing index subject with
  | zero => intro progress rest found hcall; contradiction
  | succ depth ih =>
      intro progress rest found hcall
      rw [call] at hcall
      split at hcall
      · next callee hcallee =>
        have hmarks : callee.marksStart true = true := by
          rcases Node.callee?_eq_some hcallee with rfl | ⟨body, hbody, rfl⟩
          · exact h
          · exact (Node.marksStart_groupBody? h hbody :)
        exact Node.run_ahead ih hmarks subject _ _ _ hcall
      · contradiction

theorem searchFrom_ahead (h : program.root.marksStart true = true) {subject : Subject}
    {tries position first : Nat} {found : Progress}
    (hfound : program.searchFrom subject tries position = some (first, found)) :
    position ≤ found.kept.getD first := by
  induction tries generalizing position with
  | zero => contradiction
  | succ tries ih =>
      rw [searchFrom] at hfound
      split at hfound
      · next hrun =>
        cases hfound
        have hahead := Node.run_ahead (call_ahead h maxNesting) h subject
        rcases (hahead.of_found hrun).kept with hkept | ⟨-, mark, hmark, hle⟩
        · rw [hkept]
          exact Nat.le_refl _
        · rw [hmark]
          exact hle
      · exact Nat.le_of_succ_le (ih hfound)

end Program

/-! ## Expressions -/

structure Expression.Compiled (expression : Expression) : Prop where
  plain : expression.plain.Compiled
  withoutSearchAnchor : ∀ program ∈ expression.withoutSearchAnchor, program.Compiled
  withoutTextAnchor : ∀ program ∈ expression.withoutTextAnchor, program.Compiled
  withoutAnchors : ∀ program ∈ expression.withoutAnchors, program.Compiled

theorem compiled_of_compile {text : List Char} {program : Program}
    (h : compile text = .ok program) : program.Compiled := by
  unfold compile at h
  split at h
  · next hprogram =>
    cases h
    exact ⟨text, hprogram⟩
  · contradiction

theorem compiled_of_compileIf {needed : Bool} {text : List Char} {program? : Option Program}
    (h : compileIf needed text = .ok program?) : ∀ program ∈ program?, program.Compiled := by
  intro program hprogram
  unfold compileIf at h
  split at h
  · obtain ⟨compiled, hcompiled, rfl⟩ := map_eq_ok.mp h
    cases hprogram
    exact compiled_of_compile hcompiled
  · cases h
    contradiction

namespace Expression

variable {expression : Expression}

theorem compiled_of_build {source : String} {searched : List Char}
    (h : build source searched = .ok expression) : expression.Compiled := by
  unfold build at h
  obtain ⟨plain, hplain, h⟩ := bind_eq_ok.mp h
  obtain ⟨withoutSearchAnchor, hsearch, h⟩ := bind_eq_ok.mp h
  obtain ⟨withoutTextAnchor, htext, h⟩ := bind_eq_ok.mp h
  obtain ⟨withoutAnchors, hboth, h⟩ := bind_eq_ok.mp h
  cases pure_eq_ok.mp h
  exact ⟨compiled_of_compile hplain, compiled_of_compileIf hsearch, compiled_of_compileIf htext,
    compiled_of_compileIf hboth⟩

theorem Compiled.variant (h : expression.Compiled) (anchors : Anchors) :
    (expression.variant anchors).Compiled := by
  have hchosen : ∀ {chosen : Option Program}, (∀ program ∈ chosen, program.Compiled) →
      (chosen.getD expression.plain).Compiled := by
    intro chosen hprograms
    cases chosen with
    | none => exact h.plain
    | some program => exact hprograms program rfl
  obtain ⟨firstLine, atAnchor⟩ := anchors
  cases firstLine <;> cases atAnchor
  · refine hchosen fun program hprogram => ?_
    rcases Option.or_eq_some_iff.mp hprogram with hor | ⟨-, htext⟩
    · rcases Option.or_eq_some_iff.mp hor with hboth | ⟨-, hsearch⟩
      · exact h.withoutAnchors program hboth
      · exact h.withoutSearchAnchor program hsearch
    · exact h.withoutTextAnchor program htext
  · exact hchosen h.withoutTextAnchor
  · exact hchosen h.withoutSearchAnchor
  · exact h.plain

theorem Compiled.onward (h : expression.Compiled) : Search.Onward expression.findAt? where
  toReliable := expression.reliable
  le_start {text position anchors _} hfound := by
    obtain ⟨index, first, progress, hindex, hsearch, rfl⟩ := findAt?_eq_some hfound
    calc position = text.offset index := (text.offset_of_index? hindex).symm
      _ ≤ text.offset (progress.kept.getD first) :=
        text.offset_mono (Program.searchFrom_ahead (h.variant anchors).marksStart hsearch)

end Expression

end ScopeLexer.Regex
