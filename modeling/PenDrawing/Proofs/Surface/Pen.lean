import PenDrawing.Proofs.Surface.History

/-!
# Where the pen of a canvas is

A canvas remembers of all that it was told about its pen one place, or none.  The route:

* an event that moves the pen puts it down, one that lifts it takes the place away, and all others
  leave it where it is (`Canvas.pen_happen_of_lifts`, `Canvas.pen_happen_of_other`);
* so the pen is at the place that it was moved to last, in shares of the part of the world that is
  shown, if nothing has lifted it since then (**`RestsAt`**, `Canvas.pen_history`), and it is down
  just if it was moved since it was last lifted (**`Down`**, `Canvas.pen_isSome_iff`).

Dots and lines are made at that place.  Together with what always holds of a canvas (`Canvas.Sound`)
that is all about its state that a history has to keep (`Canvas.history_invariant`).
-/

namespace PenDrawing

/-! ## What came last -/

section Since

variable {α : Type} {P Q : α → Prop}

/-- Something of one kind stands in a list, and all behind it is of another kind. -/
def Since (P Q : α → Prop) (list : List α) : Prop :=
  ∃ before a later, list = before ++ a :: later ∧ P a ∧ ∀ b ∈ later, Q b

theorem not_since_nil : ¬ Since P Q [] := by
  rintro ⟨before, a, later, cut, -, -⟩
  exact List.append_ne_nil_of_right_ne_nil before (List.cons_ne_nil a later) cut.symm

/-- The last element is of the one kind, or it is of the other kind and the rest is as before. -/
theorem since_concat (list : List α) (last : α) :
    Since P Q (list ++ [last]) ↔ P last ∨ (Q last ∧ Since P Q list) := by
  constructor
  · rintro ⟨before, a, later, cut, here, behind⟩
    rcases List.eq_nil_or_concat later with rfl | ⟨front, b, rfl⟩
    · obtain ⟨-, same⟩ := List.append_inj' cut rfl
      exact .inl ((List.singleton_inj.mp same).symm ▸ here)
    · rw [List.concat_eq_append] at cut behind
      have split : list ++ [last] = (before ++ a :: front) ++ [b] := by
        rw [cut, List.append_assoc, List.cons_append]
      obtain ⟨rfl, same⟩ := List.append_inj' split rfl
      have last_eq : b = last := (List.singleton_inj.mp same).symm
      refine .inr ⟨last_eq ▸ behind b (by simp), before, a, front, rfl, here, ?_⟩
      intro c mem
      exact behind c (List.mem_append_left _ mem)
  · rintro (here | ⟨other, before, a, later, rfl, here, behind⟩)
    · exact ⟨list, last, [], rfl, here, by simp⟩
    · refine ⟨before, a, later ++ [last], by simp, here, ?_⟩
      intro c mem
      rcases List.mem_append.mp mem with earlier | new
      · exact behind c earlier
      · exact List.mem_singleton.mp new ▸ other

end Since

namespace Canvas

/-! ## What happens to the pen -/

/-- An event that moves the pen. -/
def Event.Moves (event : Event) : Prop := ∃ place, event = .tell (.moveTo place)

/-- An event that lifts the pen: that it is told to, that all marks are taken away, or that another
part of the world is shown. -/
def Event.Lifts (event : Event) : Prop :=
  event = .tell .penUp ∨ event = .tell .clear ∨ ∃ bounds, event = .tell (.setWorld bounds)

/-- The pen was moved, and not lifted since then. -/
def Down (events : List Event) : Prop := Since Event.Moves (¬ ·.Lifts) events

/-- The pen was moved to a place, and neither lifted nor moved since then. -/
def RestsAt (place : Place) (events : List Event) : Prop :=
  Since (· = .tell (.moveTo place)) (fun event => ¬ event.Lifts ∧ ¬ event.Moves) events

/-- A pen that is down has a last place. -/
theorem down_iff (events : List Event) : Down events ↔ ∃ place, RestsAt place events := by
  induction events using List.reverseRecOn with
  | nil =>
      constructor
      · intro down
        exact absurd down not_since_nil
      · rintro ⟨place, rests⟩
        exact absurd rests not_since_nil
  | append_singleton events event ih =>
      rw [Down, since_concat]
      simp only [RestsAt, since_concat]
      by_cases moves : event.Moves
      · obtain ⟨place, rfl⟩ := moves
        exact iff_of_true (.inl ⟨place, rfl⟩) ⟨place, .inl rfl⟩
      · have still : ∀ place, event ≠ .tell (.moveTo place) := fun place same => moves ⟨place, same⟩
        simp only [moves, still, false_or, not_false_eq_true, and_true, exists_and_left]
        exact and_congr_right fun _ => ih

variable (c : Canvas)

/-- A move puts the pen down at its place, in shares of the sides. -/
theorem pen_moveTo (place : Place) :
    (c.moveTo place).pen = some (c.bounds.normalize place) ∧
      (c.moveTo place).bounds = c.bounds := by
  rw [moveTo]
  cases c.pen with
  | none => exact ⟨rfl, rfl⟩
  | some start => exact ⟨rfl, rfl⟩

theorem pen_dot (size : Float32) : (c.dot size).pen = c.pen ∧ (c.dot size).bounds = c.bounds := by
  rw [dot]
  cases down : c.pen with
  | none => exact ⟨down, rfl⟩
  | some center => exact ⟨down, rfl⟩

/-- Time leaves the pen where it is. -/
theorem pen_advance (time : Duration) :
    (c.advance time).1.pen = c.pen ∧ (c.advance time).1.bounds = c.bounds := by
  cases waits : c.speed.stepDelay with
  | none =>
      rw [advance_of_instant waits]
      exact ⟨rfl, rfl⟩
  | some delay =>
      rcases advance_cases waits time with same | ⟨kept, shown, after, -, -⟩
      · rw [same]
        exact ⟨rfl, rfl⟩
      · rw [after]
        exact ⟨rfl, rfl⟩

theorem pen_happen_of_lifts {event : Event} (lifts : event.Lifts) :
    (c.happen event).pen = none := by
  rcases lifts with rfl | rfl | ⟨bounds, rfl⟩
  · rfl
  · rfl
  · rfl

/-- All other events leave the pen where it is, and the part of the world that is shown. -/
theorem pen_happen_of_other {event : Event} (still : ¬ event.Moves) (stays : ¬ event.Lifts) :
    (c.happen event).pen = c.pen ∧ (c.happen event).bounds = c.bounds := by
  cases event with
  | tell command =>
      cases command with
      | setWorld bounds => exact absurd (.inr (.inr ⟨bounds, rfl⟩)) stays
      | penUp => exact absurd (.inl rfl) stays
      | moveTo place => exact absurd ⟨place, rfl⟩ still
      | dot size => exact c.pen_dot size
      | clear => exact absurd (.inr (.inl rfl)) stays
      | setSpeed speed => exact ⟨rfl, rfl⟩
      | close => exact ⟨rfl, rfl⟩
  | pass time => exact c.pen_advance time
  | revealAll => exact ⟨rfl, rfl⟩

/-- **The pen rests where it was moved to last**, in shares of what is shown, if it was not lifted
since then. -/
theorem pen_history (style : Style) (events : List Event) (share : Place) :
    ((blank style).history events).pen = some share ↔
      ∃ place, RestsAt place events ∧
        share = ((blank style).history events).bounds.normalize place := by
  induction events using List.reverseRecOn with
  | nil =>
      constructor
      · intro down
        cases down
      · rintro ⟨place, rests, -⟩
        exact absurd rests not_since_nil
  | append_singleton events event ih =>
      rw [history_concat]
      simp only [RestsAt, since_concat]
      by_cases moves : event.Moves
      · obtain ⟨place, rfl⟩ := moves
        obtain ⟨pen, bounds⟩ := ((blank style).history events).pen_moveTo place
        have there : ∀ place', Event.tell (.moveTo place) = .tell (.moveTo place') ↔
            place' = place := by
          intro place'
          constructor
          · intro same
            cases same
            rfl
          · rintro rfl
            rfl
        have moved : Event.Moves (.tell (.moveTo place)) := ⟨place, rfl⟩
        simp only [happen, Surface.apply, pen, bounds, there, moved, not_true_eq_false, and_false,
          false_and, or_false, exists_eq_left, Option.some_inj]
        exact eq_comm
      · have still : ∀ place, event ≠ .tell (.moveTo place) := fun place same => moves ⟨place, same⟩
        by_cases lifts : event.Lifts
        · simp only [pen_happen_of_lifts _ lifts, still, lifts, not_true_eq_false, false_and,
            or_self, exists_false, reduceCtorEq]
        · obtain ⟨pen, bounds⟩ := ((blank style).history events).pen_happen_of_other moves lifts
          simp only [pen, bounds, still, lifts, moves, not_false_eq_true, true_and, false_or]
          exact ih

/-- The pen is down exactly if it was moved since it was last lifted. -/
theorem pen_isSome_iff (style : Style) (events : List Event) :
    ((blank style).history events).pen.isSome ↔ Down events := by
  rw [Option.isSome_iff_exists, down_iff]
  simp only [pen_history]
  exact ⟨fun ⟨_, place, rests, _⟩ => ⟨place, rests⟩, fun ⟨place, rests⟩ => ⟨_, place, rests, rfl⟩⟩

/-! ## Marks at the pen -/

/-- What adds a mark at the pen adds it just if the pen is down. -/
theorem adds_iff (mark : Place → Mark) {marks : Array Mark}
    (made : marks = match c.pen with
      | none => c.marks
      | some place => c.marks.push (mark place)) :
    ((∃ place, c.pen = some place ∧ marks = c.marks.push (mark place)) ↔ c.pen.isSome) ∧
      (marks = c.marks ↔ ¬ c.pen.isSome) := by
  rw [made]
  cases c.pen with
  | none => simp
  | some place =>
      have more : c.marks.push (mark place) ≠ c.marks := by
        intro same
        have sizes := congrArg Array.size same
        rw [Array.size_push] at sizes
        omega
      simp [more]

/-- A dot adds one mark if the pen is down, and none otherwise. -/
theorem marks_dot (size : Float32) :
    (Surface.apply c (.dot size)).marks = match c.pen with
      | none => c.marks
      | some center => c.marks.push (.dot center size) := by
  show (c.dot size).marks = _
  rw [dot]
  cases c.pen with
  | none => rfl
  | some center => rfl

/-- A move adds one line if the pen was down, and nothing otherwise. -/
theorem marks_moveTo (place : Place) :
    (Surface.apply c (.moveTo place)).marks = match c.pen with
      | none => c.marks
      | some start => c.marks.push (.line start (c.bounds.normalize place)) := by
  show (c.moveTo place).marks = _
  rw [moveTo]
  cases c.pen with
  | none => rfl
  | some start => rfl

/-- **What a canvas keeps.** Whatever happened to a canvas, no more marks are shown than there are,
so those that are shown are the first ones; and less than 50 milliseconds are kept.  Its pen is down
just if it was moved since it was last lifted, and it is where it was moved to last.  Just then a dot
adds a mark there, and a move adds a line that begins there; else neither adds any. -/
theorem history_invariant (style : Style) (events : List Event) :
    let c := (blank style).history events
    c.revealed ≤ c.marks.size ∧ c.revealedMarks <+: c.marks.toList ∧
    c.revealedMarks.length = c.revealed ∧ c.banked.nanos < 50000000 ∧
    (c.pen.isSome ↔ Down events) ∧
    (∀ share, c.pen = some share ↔
      ∃ place, RestsAt place events ∧ share = c.bounds.normalize place) ∧
    (∀ size,
      ((∃ center, c.pen = some center ∧
        (Surface.apply c (.dot size)).marks = c.marks.push (.dot center size)) ↔ Down events) ∧
      ((Surface.apply c (.dot size)).marks = c.marks ↔ ¬ Down events)) ∧
    ∀ place,
      ((∃ start, c.pen = some start ∧ (Surface.apply c (.moveTo place)).marks =
        c.marks.push (.line start (c.bounds.normalize place))) ↔ Down events) ∧
      ((Surface.apply c (.moveTo place)).marks = c.marks ↔ ¬ Down events) := by
  intro c
  have sound : Sound c := sound_history style events
  have down : c.pen.isSome ↔ Down events := pen_isSome_iff style events
  refine ⟨sound.shown, List.take_prefix _ _, ?_, sound.kept, down, pen_history style events,
    ?_, ?_⟩
  · rw [revealedMarks, List.length_take, Array.length_toList]
    exact Nat.min_eq_left sound.shown
  · intro size
    rw [← down]
    exact c.adds_iff (.dot · size) (c.marks_dot size)
  · intro place
    rw [← down]
    exact c.adds_iff (.line · (c.bounds.normalize place)) (c.marks_moveTo place)

end Canvas

end PenDrawing
