import Mathlib.Data.List.TakeWhile

/-!
# Runs of characters

A text that is a run of characters of one class, and a rest that begins with none of them, is cut
there and nowhere else (`takeWhile_run`, `dropWhile_run`), so facts about all texts go from one run
to the next (`run_induction`).  The maximal runs of a text (**`runs`**) are those before a character
of another class and those behind it (`runs_append_cons`).  They stay runs where each character is
exchanged for one of the same class (`runs_map`).
-/

namespace PenDrawing.Text

variable {α : Type} {p : α → Bool}

/-- A run ends where a character of another class comes, or nothing. -/
def Stops (p : α → Bool) (rest : List α) : Prop := ∀ c ∈ rest.head?, p c = false

theorem stops_nil : Stops p [] := by
  intro c hc
  cases hc

theorem stops_cons {c : α} (h : p c = false) (rest : List α) : Stops p (c :: rest) := by
  rintro d hd
  rw [← Option.some.inj hd]
  exact h

theorem stops_dropWhile (p : α → Bool) (cs : List α) : Stops p (cs.dropWhile p) := by
  intro c hc
  have head := List.head?_dropWhile_not p cs
  rw [hc] at head
  exact head

theorem dropWhile_run {run rest : List α} (h : ∀ c ∈ run, p c = true) (stop : Stops p rest) :
    (run ++ rest).dropWhile p = rest := by
  rw [List.dropWhile_append_of_pos h]
  cases rest with
  | nil => rfl
  | cons c rest =>
      rw [List.dropWhile_cons_of_neg]
      rw [stop c rfl]
      exact Bool.false_ne_true

/-- A run is taken up to what stops it. -/
theorem takeWhile_run {run rest : List α} (h : ∀ c ∈ run, p c = true) (stop : Stops p rest) :
    (run ++ rest).takeWhile p = run := by
  rw [List.takeWhile_append_of_pos h]
  cases rest with
  | nil => exact List.append_nil run
  | cons c rest =>
      rw [List.takeWhile_cons_of_neg, List.append_nil]
      rw [stop c rfl]
      exact Bool.false_ne_true

/-- Every text is cut behind a longest run. -/
theorem exists_run (p : α → Bool) (cs : List α) :
    ∃ run rest, cs = run ++ rest ∧ (∀ c ∈ run, p c = true) ∧ Stops p rest :=
  ⟨cs.takeWhile p, cs.dropWhile p, List.takeWhile_append_dropWhile.symm,
    fun _ hc => List.mem_takeWhile_imp hc, stops_dropWhile p cs⟩

/-- What holds for a run, and for a run in front of a character of another class if it holds for what
follows that, holds for every text. -/
theorem run_induction {motive : List α → Prop}
    (last : ∀ run, (∀ c ∈ run, p c = true) → motive run)
    (next : ∀ run c rest, (∀ d ∈ run, p d = true) → p c = false → motive rest →
      motive (run ++ c :: rest)) (cs : List α) : motive cs := by
  obtain ⟨run, rest, parts, inside, stop⟩ := exists_run p cs
  cases rest with
  | nil =>
      rw [parts, List.append_nil]
      exact last run inside
  | cons c rest =>
      have later := run_induction last next rest
      rw [parts]
      exact next run c rest inside (stop c rfl) later
termination_by cs.length
decreasing_by
  rw [parts, List.length_append, List.length_cons]
  omega

/-! ## All runs -/

/-- The maximal runs of a class, from the first to the last. -/
def runs (p : α → Bool) (cs : List α) : List (List α) :=
  (cs.splitOnP (!p ·)).filter (!·.isEmpty)

theorem runs_nil : runs p [] = [] := rfl

/-- A character of another class belongs to no run. -/
theorem runs_append_cons (front : List α) {c : α} (back : List α) (h : p c = false) :
    runs p (front ++ c :: back) = runs p front ++ runs p back := by
  have parts : (!p c) = true := by rw [h]; rfl
  rw [runs, List.splitOnP_append_cons front back parts, List.filter_append]
  rfl

theorem runs_cons {c : α} (back : List α) (h : p c = false) : runs p (c :: back) = runs p back :=
  runs_append_cons [] back h

/-- A character of another class that a text ends with belongs to no run. -/
theorem runs_concat (front : List α) {c : α} (h : p c = false) :
    runs p (front ++ [c]) = runs p front := by
  rw [runs_append_cons front [] h, runs_nil, List.append_nil]

/-- Characters of one class are one run. -/
theorem runs_of_forall {run : List α} (nonempty : run ≠ []) (h : ∀ c ∈ run, p c = true) :
    runs p run = [run] := by
  have inside : ∀ c ∈ run, (!p c) = false := fun c hc => by rw [h c hc]; rfl
  rw [runs, List.splitOnP_eq_singleton inside, List.filter_eq_self]
  intro cs hcs
  rw [List.mem_singleton.mp hcs, List.isEmpty_eq_false_iff.mpr nonempty]
  rfl

/-- No piece of a text holds a character that it was cut at. -/
theorem forall_of_mem_splitOnP (p : α → Bool) (cs : List α) :
    ∀ piece ∈ cs.splitOnP p, ∀ c ∈ piece, p c = false := by
  induction cs with
  | nil =>
      intro piece hpiece c hc
      rw [List.splitOnP_nil, List.mem_singleton] at hpiece
      rw [hpiece] at hc
      cases hc
  | cons d rest ih =>
      rw [List.splitOnP_cons_eq_if_modifyHead]
      by_cases cut : p d = true
      · rw [if_pos cut]
        intro piece hpiece
        rcases List.mem_cons.mp hpiece with rfl | later
        · exact fun c hc => absurd hc List.not_mem_nil
        · exact ih piece later
      · rw [if_neg cut]
        obtain ⟨first, others, pieces⟩ := List.exists_cons_of_ne_nil (List.splitOnP_ne_nil p rest)
        rw [pieces] at ih ⊢
        intro piece hpiece
        rcases List.mem_cons.mp hpiece with rfl | later
        · intro c hc
          rcases List.mem_cons.mp hc with rfl | inside
          · exact eq_false_of_ne_true cut
          · exact ih first List.mem_cons_self c inside
        · exact ih piece (List.mem_cons_of_mem first later)

/-- The characters of a run are of its class. -/
theorem forall_of_mem_runs {run cs : List α} (h : run ∈ runs p cs) : ∀ c ∈ run, p c = true := by
  intro c hc
  have inside := forall_of_mem_splitOnP (!p ·) cs run (List.mem_filter.mp h).1 c hc
  exact Bool.of_not_eq_false fun other => by
    rw [other] at inside
    cases inside

/-! ## Runs of characters that were exchanged -/

section

variable {β : Type} {q : β → Bool} {f : β → α}

/-- A text is cut where the one that it was made of, character by character, is cut. -/
theorem splitOnP_map {cs : List β} (h : ∀ c ∈ cs, p (f c) = q c) :
    (cs.map f).splitOnP p = (cs.splitOnP q).map (List.map f) := by
  induction cs with
  | nil => rw [List.map_nil, List.splitOnP_nil, List.splitOnP_nil]; rfl
  | cons c rest ih =>
      have later := ih fun d hd => h d (List.mem_cons_of_mem c hd)
      rw [List.map_cons, List.splitOnP_cons_eq_if_modifyHead, List.splitOnP_cons_eq_if_modifyHead,
        h c List.mem_cons_self, later]
      by_cases cut : q c = true
      · rw [if_pos cut, if_pos cut]
        rfl
      · rw [if_neg cut, if_neg cut]
        cases rest.splitOnP q with
        | nil => rfl
        | cons first others => rfl

/-- Runs of images are images of runs. -/
theorem runs_map {cs : List β} (h : ∀ c ∈ cs, p (f c) = q c) :
    runs p (cs.map f) = (runs q cs).map (List.map f) := by
  have cut : (cs.map f).splitOnP (!p ·) = (cs.splitOnP (!q ·)).map (List.map f) :=
    splitOnP_map fun c hc => congrArg not (h c hc)
  rw [runs, runs, cut, List.filter_map]
  refine congrArg (List.map (List.map f)) (List.filter_congr ?_)
  intro piece _
  cases piece with
  | nil => rfl
  | cons c rest => rfl

end

end PenDrawing.Text
