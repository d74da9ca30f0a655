import PenDrawing.CommandLine.Arguments
import PenDrawing.Proofs.Outcome
import Mathlib.Tactic.Common

/-!
# What a command line can ask for

No command line gives an empty name: each argument that is read keeps the directory for pictures, or
sets it to a value that is not empty (`Arguments.Named`), so a run that saves pictures has a
directory with a name (`png_ne_empty`).
-/

namespace PenDrawing.CommandLine

/-- The directory for pictures has a name, if there is one. -/
def Arguments.Named (a : Arguments) : Prop := ∀ directory ∈ a.png, directory ≠ ""

theorem ne_empty_of_nonempty {name value given : String}
    (h : Arguments.nonempty name value = .ok given) : given ≠ "" := by
  rw [Arguments.nonempty] at h
  by_cases empty : value.isEmpty = true
  · rw [if_pos empty] at h
    cases h
  · rw [if_neg empty] at h
    rw [← Except.ok.inj h]
    exact fun none => empty (by rw [none]; rfl)

variable {a a' : Arguments} {name value : String}

theorem png_addProgram (h : a.addProgram name = .ok a') : a'.png = a.png := by
  rw [Arguments.addProgram] at h
  by_cases given : a.program.isSome = true
  · rw [if_pos given] at h
    cases h
  · rw [if_neg given] at h
    obtain ⟨program, -, h⟩ := exists_of_bind h
    rw [← Except.ok.inj h]

theorem png_turnOn {which : Switch} (h : a.turnOn name which = .ok a') : a'.png = a.png := by
  cases which with
  | dump =>
      rw [Arguments.turnOn] at h
      by_cases on : a.dump = true
      · rw [if_pos on] at h
        cases h
      · rw [if_neg on] at h
        rw [← Except.ok.inj h]
  | debug =>
      rw [Arguments.turnOn] at h
      by_cases on : a.debug = true
      · rw [if_pos on] at h
        cases h
      · rw [if_neg on] at h
        rw [← Except.ok.inj h]
  | version => cases h
  | help => cases h

/-- No choice leaves the directory for pictures without a name. -/
theorem named_choose {which : Choice} (named : a.Named) (h : a.choose name value which = .ok a') :
    a'.Named := by
  cases which with
  | speed =>
      obtain ⟨_, -, h⟩ := exists_of_bind h
      cases read : speedOfText? value with
      | none =>
          rw [read] at h
          cases h
      | some speed =>
          rw [read] at h
          rw [← Except.ok.inj h]
          exact named
  | config =>
      obtain ⟨_, -, h⟩ := exists_of_bind h
      obtain ⟨config, -, h⟩ := exists_of_bind h
      rw [← Except.ok.inj h]
      exact named
  | png =>
      obtain ⟨_, -, h⟩ := exists_of_bind h
      obtain ⟨directory, given, h⟩ := exists_of_bind h
      rw [← Except.ok.inj h]
      intro other same
      rw [← Option.some.inj same]
      exact ne_empty_of_nonempty given
  | encodeText =>
      obtain ⟨_, -, h⟩ := exists_of_bind h
      rw [← Except.ok.inj h]
      exact named

theorem png_foldlM_addProgram {names : List String}
    (h : names.foldlM Arguments.addProgram a = .ok a') : a'.png = a.png := by
  induction names generalizing a with
  | nil => rw [← Except.ok.inj h]
  | cons name rest ih =>
      rw [List.foldlM_cons] at h
      obtain ⟨next, added, h⟩ := exists_of_bind h
      rw [ih h, png_addProgram added]

/-- Reading arguments gives no empty directory for pictures. -/
theorem named_readArguments {arguments : List String} (named : a.Named)
    (h : readArguments a arguments = .ok a') : a'.Named := by
  induction a, arguments using readArguments.induct with
  | case1 a =>
      rw [readArguments] at h
      rw [← Except.ok.inj h]
      exact named
  | case2 a argument rest shape =>
      rw [readArguments, shape] at h
      rw [Arguments.Named, png_foldlM_addProgram h]
      exact named
  | case3 a argument rest shape =>
      rw [readArguments, shape] at h
      cases h
  | case4 a argument rest shape ih =>
      rw [readArguments, shape] at h
      obtain ⟨next, added, h⟩ := exists_of_bind h
      refine ih next ?_ h
      rw [Arguments.Named, png_addProgram added]
      exact named
  | case5 a argument rest which name value shape given =>
      rw [readArguments, shape] at h
      dsimp only at h
      rw [if_pos given] at h
      cases h
  | case6 a argument rest which name value shape given ih =>
      rw [readArguments, shape] at h
      dsimp only at h
      rw [if_neg given] at h
      obtain ⟨next, turned, h⟩ := exists_of_bind h
      refine ih next ?_ h
      rw [Arguments.Named, png_turnOn turned]
      exact named
  | case7 a argument rest which name value shape ih =>
      rw [readArguments, shape] at h
      obtain ⟨next, chosen, h⟩ := exists_of_bind h
      exact ih next (named_choose named chosen) h
  | case8 a argument which name shape =>
      rw [readArguments, shape] at h
      cases h
  | case9 a argument which name shape value rest plain ih =>
      rw [readArguments, shape] at h
      dsimp only at h
      rw [if_pos plain] at h
      obtain ⟨next, chosen, h⟩ := exists_of_bind h
      exact ih next (named_choose named chosen) h
  | case10 a argument which name shape value rest plain =>
      rw [readArguments, shape] at h
      dsimp only at h
      rw [if_neg plain] at h
      cases h

/-- Arguments that pass are as they were. -/
theorem eq_of_check {b : Arguments}
    (h : (match b.check with
      | .ok a => Request.run a
      | .error cause => .refused cause) = .run a) : b = a := by
  rw [Arguments.check] at h
  by_cases both : b.dump ∧ b.png.isSome
  · rw [if_pos both] at h
    cases h
  rw [if_neg both] at h
  by_cases nothing : b.program.isNone ∧ b.encodeText.isNone
  · rw [if_pos nothing] at h
    cases h
  rw [if_neg nothing] at h
  exact Request.run.inj h

/-- A run that saves pictures has a directory with a name. -/
theorem png_ne_empty {arguments : List String} {directory : String}
    (asked : Request.ofArguments arguments = .run a) (png : a.png = some directory) :
    directory ≠ "" := by
  rw [Request.ofArguments] at asked
  cases read : readArguments .none arguments with
  | error stop =>
      rw [read] at asked
      cases stop <;> cases asked
  | ok b =>
      have named : b.Named := named_readArguments (fun _ none => by cases none) read
      rw [read] at asked
      dsimp only at asked
      rw [eq_of_check asked] at named
      exact named directory png

end PenDrawing.CommandLine
