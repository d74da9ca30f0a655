import PenDrawing.Proofs.Listing.Segments
import Mathlib.Data.List.DropRight

/-!
# Walks and lists of drawings

A walk decodes one drawing after another.  It may be asked for the next one, for the number of
those that are left, or to begin again, in any order.  Whatever it is asked, its answers are those
that the list of all entries gives (`Walk.answers_ofSource`).

The two sides are tied by how many entries are used up (`usedUp`): the walk stands behind them, and
remembers the last of them (`Walk.Stands`).  Each request keeps this (`Walk.Stands.ask`), also at the
end of a listing, where a walk stays where it is.
-/

namespace PenDrawing.Listing

/-- What a walk can be asked. -/
inductive Request where
  /-- The next drawing. -/
  | next
  /-- The number of drawings that are left; the walk goes on to its end. -/
  | count
  /-- To begin again. -/
  | restart
deriving DecidableEq

/-- What is answered to a request. -/
inductive Answer where
  /-- A drawing, or why a payload does not stand for one; nothing at the end. -/
  | drawing (result : Option (Except DecodeError Path))
  | left (count : Nat)
  | restarted

/-! ## The answers of a list -/

/-- How many of so many entries are used up by requests: since the walk began again, each request
for a drawing takes one as long as there is one, and counting takes all of them. -/
def usedUp (total : Nat) (asked : List Request) : Nat :=
  let since := asked.rtakeWhile (· ≠ .restart)
  if .count ∈ since then total else min total (since.count .next)

/-- What a list of entries answers to a request, after others. -/
def answerOf (entries : List Entry) (asked : List Request) : Request → Answer
  | .next => .drawing (entries[usedUp entries.length asked]?.map Entry.decode)
  | .count => .left (entries.length - usedUp entries.length asked)
  | .restart => .restarted

/-- What the last entry that is used up is attached to. -/
def latestKind (entries : List Entry) (asked : List Request) : Option Kind :=
  (entries.take (usedUp entries.length asked)).getLast?.map Entry.kind

/-- No more results are used up than there are. -/
theorem usedUp_le (total : Nat) (asked : List Request) : usedUp total asked ≤ total := by
  rw [usedUp]
  split
  · exact Nat.le_refl total
  · exact Nat.min_le_left _ _

/-- Behind a restart nothing is used up. -/
theorem usedUp_restart (total : Nat) (asked : List Request) :
    usedUp total (asked ++ [.restart]) = 0 := by
  rw [usedUp, List.rtakeWhile_concat_neg _ _ _ (by decide)]
  exact Nat.min_zero total

/-- Counting uses up everything. -/
theorem usedUp_count (total : Nat) (asked : List Request) :
    usedUp total (asked ++ [.count]) = total := by
  rw [usedUp, List.rtakeWhile_concat_pos _ _ _ (by decide)]
  exact if_pos (List.mem_append_right _ (List.mem_singleton_self _))

/-- A request for a drawing uses up one entry, if there is one. -/
theorem usedUp_next (total : Nat) (asked : List Request) :
    usedUp total (asked ++ [.next]) = min total (usedUp total asked + 1) := by
  rw [usedUp, usedUp, List.rtakeWhile_concat_pos _ _ _ (by decide)]
  generalize asked.rtakeWhile (· ≠ .restart) = since
  have same : .count ∈ since ++ [.next] ↔ .count ∈ since := by simp
  by_cases counted : .count ∈ since
  · simp only [if_pos counted, if_pos (same.mpr counted)]
    omega
  · simp only [if_neg counted, if_neg (mt same.mp counted), List.count_append,
      List.count_singleton_self]
    omega

/-! ## The answers of a walk -/

namespace Walk

/-- What a walk answers to a request, and the walk after it. -/
def ask (source : List Char) (walk : Walk) : Request → Answer × Walk
  | .next =>
    match walk.next? with
    | some (result, after) => (.drawing (some result), after)
    | none => (.drawing none, walk)
  | .count => (.left walk.drain.1, walk.drain.2)
  | .restart => (.restarted, ofSource source)

/-- What a walk answers to one request after another, and what the latest drawing is attached to
after each of them. -/
def answers (source : List Char) (walk : Walk) : List Request → List (Answer × Option Kind)
  | [] => []
  | request :: rest =>
    let (answer, after) := walk.ask source request
    (answer, after.current) :: after.answers source rest

theorem drain_of_none {walk : Walk} (h : walk.cursor.next? = none) : walk.drain = (0, walk) := by
  rw [drain]
  split
  · rfl
  · rename_i found
    rw [h] at found
    cases found

/-- Counting counts the next result and those behind it. -/
theorem drain_of_some {walk : Walk} {entry : Entry} {after : Cursor}
    (h : walk.cursor.next? = some (entry, after)) :
    walk.drain =
      ((drain ⟨after, some entry.kind⟩).1 + 1, (drain ⟨after, some entry.kind⟩).2) := by
  rw [drain]
  split
  · rename_i found
    rw [h] at found
    cases found
  · rename_i found
    rw [h] at found
    obtain ⟨rfl, rfl⟩ := Prod.mk.inj (Option.some.inj found)
    rfl

/-- A walk that goes on to its end comes through all entries that are left, and remembers the last of
them. -/
theorem exists_drain (cursor : Cursor) : ∀ current : Option Kind,
    ∃ last : Cursor, last.entries = [] ∧
      drain ⟨cursor, current⟩ =
        (cursor.entries.length, ⟨last, (cursor.entries.getLast?.map Entry.kind).or current⟩) := by
  refine Cursor.entries_induction
    (motive := fun cursor entries => ∀ current : Option Kind, ∃ last : Cursor, last.entries = [] ∧
      drain ⟨cursor, current⟩ =
        (entries.length, ⟨last, (entries.getLast?.map Entry.kind).or current⟩)) ?_ ?_ cursor
  · intro cursor done current
    exact ⟨cursor, Cursor.entries_of_none done, drain_of_none done⟩
  · intro cursor after entry moved ih current
    obtain ⟨last, nothing, drained⟩ := ih (some entry.kind)
    refine ⟨last, nothing, ?_⟩
    rw [drain_of_some moved, drained, List.length_cons, List.getLast?_cons]
    cases after.entries.getLast? with
    | none => rfl
    | some final => rfl

/-- A walk stands behind so many entries of a listing: the others are still to come, and the latest
drawing was that of the last of them. -/
structure Stands (source : List Char) (used : Nat) (walk : Walk) : Prop where
  left : walk.cursor.entries = (entries source).drop used
  latest : walk.current = ((entries source).take used).getLast?.map Entry.kind

variable {source : List Char} {used : Nat} {walk : Walk}

/-- A new walk stands in front of all results. -/
theorem stands_ofSource (source : List Char) : Stands source 0 (ofSource source) := ⟨rfl, rfl⟩

/-- A walk comes to the entry behind those that are used up, or is at its end and stays there. -/
theorem Stands.next (h : Stands source used walk) (inside : used ≤ (entries source).length) :
    (walk.ask source .next).1 = .drawing ((entries source)[used]?.map Entry.decode) ∧
      Stands source (min (entries source).length (used + 1)) (walk.ask source .next).2 := by
  have left := h.left
  cases moved : walk.cursor.next? with
  | none =>
      rw [Cursor.entries_of_none moved] at left
      have stops : walk.next? = none := by
        rw [next?, moved]
        rfl
      -- nothing is left, so all entries are used up
      have all : (entries source).length ≤ used := List.drop_eq_nil_iff.mp left.symm
      have same : min (entries source).length (used + 1) = used := by omega
      rw [ask, stops, List.getElem?_eq_none all, same]
      exact ⟨rfl, h⟩
  | some found =>
      obtain ⟨entry, after⟩ := found
      rw [Cursor.entries_of_some moved] at left
      have goes : walk.next? = some (entry.decode, ⟨after, some entry.kind⟩) := by
        rw [next?, moved]
        rfl
      have here : (entries source)[used]? = some entry := by
        rw [← List.head?_drop, ← left]
        rfl
      have later : (entries source).drop (used + 1) = after.entries := by
        rw [← List.tail_drop, ← left]
        rfl
      have more : used < (entries source).length := (List.getElem?_eq_some_iff.mp here).1
      have one : min (entries source).length (used + 1) = used + 1 := by omega
      rw [ask, goes, here, one]
      refine ⟨rfl, later.symm, ?_⟩
      rw [List.take_add_one, here]
      show some entry.kind = ((_ ++ [entry]).getLast?).map Entry.kind
      rw [List.getLast?_concat]
      rfl

/-- A walk counts the entries that are not used up, and then stands behind all of them. -/
theorem Stands.count (h : Stands source used walk) :
    (walk.ask source .count).1 = .left ((entries source).length - used) ∧
      Stands source (entries source).length (walk.ask source .count).2 := by
  obtain ⟨last, nothing, drained⟩ := exists_drain walk.cursor walk.current
  have drained : walk.drain = _ := drained
  rw [ask, drained, h.left, h.latest]
  refine ⟨congrArg Answer.left List.length_drop, ?_, ?_⟩
  · rw [List.drop_length]
    exact nothing
  · show Option.or _ _ = _
    rw [← Option.map_or, ← List.getLast?_append, List.take_append_drop, List.take_length]

/-- **Step.** A walk that stands behind the entries that are used up answers a request as the list
does, and stands behind those that are used up then. -/
theorem Stands.ask {asked : List Request}
    (h : Stands source (usedUp (entries source).length asked) walk) (request : Request) :
    (walk.ask source request).1 = answerOf (entries source) asked request ∧
      Stands source (usedUp (entries source).length (asked ++ [request]))
        (walk.ask source request).2 := by
  cases request with
  | next =>
      rw [usedUp_next]
      exact h.next (usedUp_le _ asked)
  | count =>
      rw [usedUp_count]
      exact h.count
  | restart =>
      rw [usedUp_restart]
      exact ⟨rfl, stands_ofSource source⟩

/-- **Run.** Behind any requests the answers to all others are those of the list. -/
theorem Stands.answers (asked : List Request) : ∀ {before : List Request} {walk : Walk},
    Stands source (usedUp (entries source).length before) walk →
    walk.answers source asked = asked.mapIdx fun i request =>
      (answerOf (entries source) (before ++ asked.take i) request,
        latestKind (entries source) (before ++ asked.take (i + 1))) := by
  induction asked with
  | nil => intro before walk _; rfl
  | cons request rest ih =>
      intro before walk h
      obtain ⟨answer, stands⟩ := h.ask request
      have later := ih stands
      show ((walk.ask source request).1, (walk.ask source request).2.current) ::
        (walk.ask source request).2.answers source rest = _
      rw [List.mapIdx_cons, later, answer, stands.latest]
      simp only [List.take_zero, List.append_nil, List.take_succ_cons, List.append_assoc,
        List.singleton_append]
      rfl

/-- **A walk is a list of drawings.**  To each request a new walk answers what the list of all
entries answers, whatever was asked before: to the next request for a drawing the drawing of the
first entry that is not used up, or nothing once all are; to counting how many are left.  After each
request it remembers what the last entry that is used up is attached to. -/
theorem answers_ofSource (source : List Char) (asked : List Request) :
    (ofSource source).answers source asked = asked.mapIdx fun i request =>
      (answerOf (entries source) (asked.take i) request,
        latestKind (entries source) (asked.take (i + 1))) := by
  have start : usedUp (entries source).length [] = 0 := Nat.min_zero _
  have stands : Stands source (usedUp (entries source).length []) (ofSource source) := by
    rw [start]
    exact stands_ofSource source
  exact stands.answers asked

end Walk

end PenDrawing.Listing
