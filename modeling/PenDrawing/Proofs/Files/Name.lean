import PenDrawing.Files.Name
import PenDrawing.Proofs.Text.Run
import Mathlib.Tactic.Common

/-!
# Names of files in a directory

The steps of a name are the runs between its slashes (`steps_eq_runs`).  So the name of a file in a
directory leads where the directory does, and one part further (`parts_inside`,
`startOf_inside`).
-/

namespace PenDrawing.Files

/-- A text that names a file without a way to it. -/
structure IsPlain (file : String) : Prop where
  nonempty : file ≠ ""
  slash : '/' ∉ file.toList
  stays : file ≠ here
  leaves : file ≠ up

/-- The steps of a name are what stands between its slashes. -/
theorem steps_eq_runs (name : String) :
    steps name = (Text.runs (· ≠ '/') name.toList).map String.ofList := by
  have same : ∀ c : Char, (!decide (c ≠ '/')) = (c == '/') := by
    intro c
    by_cases h : c = '/' <;> simp [h]
  rw [steps, Text.runs, List.splitOn_eq_splitOnP, funext same]

/-- No slash stands in a step. -/
theorem slash_not_mem_of_mem_steps {name part : String} (h : part ∈ steps name) :
    '/' ∉ part.toList := by
  rw [steps_eq_runs] at h
  obtain ⟨run, hrun, rfl⟩ := List.mem_map.mp h
  rw [String.toList_ofList]
  intro slash
  have other := Text.forall_of_mem_runs hrun '/' slash
  exact of_decide_eq_true other rfl

/-- The characters of a stem are those of its name. -/
theorem mem_of_mem_dropExtension {part : List Char} {c : Char} (h : c ∈ dropExtension part) :
    c ∈ part := by
  rw [dropExtension, splitExtension?] at h
  cases stem : (part.reverse.dropWhile (· ≠ '.')).tail.reverse with
  | nil =>
      rw [stem] at h
      exact h
  | cons d rest =>
      rw [stem] at h
      dsimp only at h
      rw [← stem, List.mem_reverse] at h
      exact List.mem_reverse.mp ((List.dropWhile_sublist _).subset (List.mem_of_mem_tail h))

/-- A stem is one part of a way. -/
theorem slash_not_mem_of_stem? {name stem : String} (h : stem? name = some stem) :
    '/' ∉ stem.toList := by
  rw [stem?] at h
  cases last : (steps name).getLast? with
  | none =>
      rw [last] at h
      cases h
  | some part =>
      rw [last] at h
      dsimp only at h
      by_cases leaves : part = up
      · rw [if_pos leaves] at h
        cases h
      · rw [if_neg leaves] at h
        rw [← Option.some.inj h, String.toList_ofList]
        have step := slash_not_mem_of_mem_steps (List.mem_of_getLast? last)
        exact fun slash => step (mem_of_mem_dropExtension slash)

variable {directory file : String}

theorem IsPlain.runs (h : IsPlain file) : Text.runs (· ≠ '/') file.toList = [file.toList] := by
  have letters : file.toList ≠ [] := fun none => h.nonempty (String.toList_eq_nil_iff.mp none)
  refine Text.runs_of_forall letters fun c hc => ?_
  rw [decide_eq_true_eq]
  exact fun same => h.slash (same ▸ hc)

/-- The steps to a file in a directory. -/
theorem steps_inside (h : IsPlain file) :
    steps (inside directory file) = steps directory ++ [file] := by
  have slash : decide ('/' ≠ '/') = false := by decide
  have last : [file] = [file.toList].map String.ofList := by
    rw [List.map_singleton, String.ofList_toList]
  rw [steps_eq_runs, steps_eq_runs, inside, last, ← h.runs, ← List.map_append]
  refine congrArg (List.map String.ofList) ?_
  cases ends : endsInSlash directory with
  | true =>
      rw [endsInSlash, decide_eq_true_eq, List.getLast?_eq_some_iff] at ends
      obtain ⟨front, cut⟩ := ends
      rw [if_pos rfl, String.toList_append, cut, List.append_assoc,
        List.singleton_append, Text.runs_append_cons front _ slash,
        Text.runs_append_cons front [] slash, Text.runs_nil, List.append_nil]
  | false =>
      rw [if_neg Bool.false_ne_true, String.toList_append, String.toList_append,
        List.append_assoc]
      exact Text.runs_append_cons directory.toList _ slash

theorem getLast?_inside (h : IsPlain file) :
    (inside directory file).toList.getLast? = file.toList.getLast? := by
  have letters : file.toList ≠ [] := fun none => h.nonempty (String.toList_eq_nil_iff.mp none)
  have ends : file.toList.getLast?.isSome = true := List.getLast?_isSome.mpr letters
  rw [inside]
  cases endsInSlash directory with
  | true => rw [if_pos rfl, String.toList_append, List.getLast?_append, Option.or_of_isSome ends]
  | false =>
      rw [if_neg Bool.false_ne_true, String.toList_append, List.getLast?_append,
        Option.or_of_isSome ends]

/-- The parts of the name of a file in a directory. -/
theorem parts_inside (h : IsPlain file) :
    parts (inside directory file) = steps directory ++ [file] := by
  have ends : endsInSlash (inside directory file) = false := by
    rw [endsInSlash, getLast?_inside h, decide_eq_false_iff_not]
    exact fun last => h.slash (List.mem_of_getLast? last)
  rw [parts, ends, if_neg Bool.false_ne_true, steps_inside h]

/-- A file is looked for where its directory is. -/
theorem startOf_inside (named : directory ≠ "") (file : String) :
    startOf (inside directory file) = startOf directory := by
  have letters : directory.toList ≠ [] := fun none => named (String.toList_eq_nil_iff.mp none)
  have first : (inside directory file).toList.head? = directory.toList.head? := by
    obtain ⟨c, rest, cut⟩ := List.exists_cons_of_ne_nil letters
    rw [inside]
    cases endsInSlash directory with
    | true => rw [if_pos rfl, String.toList_append, cut]; rfl
    | false =>
        rw [if_neg Bool.false_ne_true, String.toList_append, String.toList_append, cut]; rfl
  rw [startOf, startOf, first]

end PenDrawing.Files
