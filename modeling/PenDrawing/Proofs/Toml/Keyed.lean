import PenDrawing.Proofs.Toml.Scan
import Mathlib.Data.List.Nodup

/-!
# Documents hold each key once

However a document puts its tables together, by headers, dotted keys or braces, no table in it holds
a key twice.  A value or a table is **`Keyed`** if that is so of every table in it, and every way to
add to a table keeps that (`KeepsKeyed`): a key is added where it was missing, and a value that is
replaced stays under its key.  So it holds of values read at any depth (`keyed_valueAt`) and of
whole documents (`keyed_parse`).
-/

namespace PenDrawing.Toml

open Scan

/-- No table in a value holds a key twice. -/
inductive Value.Keyed : Value → Prop where
  | string (text : String) : Keyed (.string text)
  | integer (n : Int) : Keyed (.integer n)
  | float (x : Float) : Keyed (.float x)
  | boolean (b : Bool) : Keyed (.boolean b)
  | moment (text : String) : Keyed (.moment text)
  | array {items : List (Located Value)} (each : ∀ item ∈ items, Keyed item.value) :
      Keyed (.array items)
  | table {origin : Origin} {entries : Entries} (distinct : (entries.map Prod.fst).Nodup)
      (each : ∀ entry ∈ entries, Keyed entry.2.value) : Keyed (.table origin entries)
  | tables {items : List (Located Entries)}
      (distinct : ∀ item ∈ items, (item.value.map Prod.fst).Nodup)
      (each : ∀ item ∈ items, ∀ entry ∈ item.value, Keyed entry.2.value) : Keyed (.tables items)

namespace Entries

/-- A table holds no key twice, and no table in it does. -/
structure Keyed (entries : Entries) : Prop where
  distinct : (entries.map Prod.fst).Nodup
  each : ∀ entry ∈ entries, entry.2.value.Keyed

theorem keyed_nil : Keyed [] := ⟨List.nodup_nil, fun _ mem => absurd mem List.not_mem_nil⟩

end Entries

theorem Value.keyed_table {origin : Origin} {entries : Entries} :
    (Value.table origin entries).Keyed ↔ entries.Keyed := by
  constructor
  · rintro ⟨⟩
    exact ⟨‹_›, ‹_›⟩
  · rintro ⟨distinct, each⟩
    exact .table distinct each

theorem Value.keyed_tables {items : List (Located Entries)} :
    (Value.tables items).Keyed ↔ ∀ item ∈ items, item.value.Keyed := by
  constructor
  · rintro (_ | _ | _ | _ | _ | _ | _ | ⟨distinct, each⟩) item mem
    exact ⟨distinct item mem, each item mem⟩
  · intro keyed
    exact .tables (fun item mem => (keyed item mem).distinct) fun item mem => (keyed item mem).each

/-! ## Adding to a table -/

/-- A change to a table, where it is possible, keeps each key in its tables single. -/
def KeepsKeyed (change : Entries → Option Entries) : Prop :=
  ∀ entries changed : Entries, entries.Keyed → change entries = some changed → changed.Keyed

theorem keepsKeyed_foldlM {γ : Type} {add : Entries → γ → Option Entries} {cs : List γ}
    (h : ∀ c ∈ cs, KeepsKeyed (add · c)) : KeepsKeyed (cs.foldlM add) := by
  induction cs with
  | nil =>
      intro entries changed keyed same
      rw [← Option.some.inj same]
      exact keyed
  | cons c cs ih =>
      intro entries changed keyed (given : (c :: cs).foldlM add entries = some changed)
      rw [List.foldlM_cons] at given
      obtain ⟨between, first, later⟩ := Option.bind_eq_some_iff.mp given
      exact ih (fun d mem => h d (List.mem_cons_of_mem c mem)) between changed
        (h c List.mem_cons_self entries between keyed first) later

namespace Entries

variable {entries : Entries} {key : String} {value : Located Value}

theorem mem_of_get? (h : entries.get? key = some value) : (key, value) ∈ entries := by
  obtain ⟨before, after, parts, -⟩ := List.lookup_eq_some_iff.mp h
  rw [parts]
  exact List.mem_append_right before List.mem_cons_self

theorem not_mem_of_get? (h : entries.get? key = none) : key ∉ entries.map Prod.fst := by
  intro mem
  obtain ⟨entry, mem, same⟩ := List.mem_map.mp mem
  have other := List.lookup_eq_none_iff.mp h entry mem
  rw [same, bne_self_eq_false] at other
  cases other

namespace Keyed

/-- A key that was missing may be added to a keyed table. -/
theorem add (keyed : entries.Keyed) (missing : entries.get? key = none)
    (single : value.value.Keyed) : (entries.add key value).Keyed := by
  constructor
  · rw [Entries.add, List.map_append, List.nodup_append]
    refine ⟨keyed.distinct, List.nodup_singleton key, ?_⟩
    intro old inside new here same
    rw [same, List.mem_singleton.mp here] at inside
    exact not_mem_of_get? missing inside
  · intro entry mem
    rcases List.mem_append.mp mem with old | new
    · exact keyed.each entry old
    · rw [List.mem_singleton.mp new]
      exact single

/-- Replacing a value leaves a table keyed. -/
theorem replace (keyed : entries.Keyed) (single : value.value.Keyed) :
    (entries.replace key value).Keyed := by
  have keys : (entries.replace key value).map Prod.fst = entries.map Prod.fst := by
    rw [Entries.replace, List.map_map]
    refine List.map_congr_left fun ⟨k, v⟩ _ => ?_
    show (if k = key then (k, value) else (k, v)).1 = k
    split <;> rfl
  constructor
  · rw [keys]
    exact keyed.distinct
  · intro entry mem
    obtain ⟨⟨k, v⟩, old, rfl⟩ := List.mem_map.mp mem
    show (if k = key then (k, value) else (k, v)).2.value.Keyed
    by_cases same : k = key
    · rw [if_pos same]
      exact single
    · rw [if_neg same]
      exact keyed.each (k, v) old

/-- Taking a key out leaves a table keyed. -/
theorem erase (keyed : entries.Keyed) : (entries.erase key).Keyed :=
  ⟨(List.filter_sublist.map Prod.fst).nodup keyed.distinct,
    fun entry mem => keyed.each entry (List.mem_filter.mp mem).1⟩

theorem get?_erase : (entries.erase key).get? key = none := by
  refine List.lookup_eq_none_iff.mpr fun entry mem => ?_
  have other := of_decide_eq_true (List.mem_filter.mp mem).2
  exact bne_iff_ne.mpr fun same => other same.symm

theorem value_of_get? (keyed : entries.Keyed) (h : entries.get? key = some value) :
    value.value.Keyed := keyed.each _ (mem_of_get? h)

end Keyed

variable {change fill : Entries → Option Entries}

/-- Changing the last of several tables leaves all of them keyed. -/
theorem keyed_changeLast (keeps : KeepsKeyed change) {items changed : List (Located Entries)}
    (keyed : ∀ item ∈ items, item.value.Keyed) (h : changeLast change items = some changed) :
    ∀ item ∈ changed, item.value.Keyed := by
  rw [changeLast] at h
  cases found : items.getLast? with
  | none =>
      rw [found] at h
      cases h
  | some last =>
      rw [found] at h
      obtain ⟨sub, set, rfl⟩ := Option.map_eq_some_iff.mp h
      intro item mem
      rcases List.mem_append.mp mem with early | new
      · exact keyed item (List.dropLast_subset items early)
      · rw [List.mem_singleton.mp new]
        exact keeps last.value sub (keyed last (List.mem_of_getLast? found)) set

section

variable {changed : Entries} (keyed : entries.Keyed) (keeps : KeepsKeyed change)

include keyed keeps

/-- A table that is made under a key that is missing. -/
theorem keyed_of_add {span : Span} {origin : Origin} (missing : entries.get? key = none)
    (h : (change []).map (fun sub => entries.add key ⟨span, .table origin sub⟩) = some changed) :
    changed.Keyed := by
  obtain ⟨sub, inner, rfl⟩ := Option.map_eq_some_iff.mp h
  exact keyed.add missing (Value.keyed_table.mpr (keeps [] sub keyed_nil inner))

/-- A table that is changed where it is. -/
theorem keyed_of_replace {span : Span} {origin : Origin} {sub : Entries}
    (found : entries.get? key = some ⟨span, .table origin sub⟩)
    (h : (change sub).map (fun sub => entries.replace key ⟨span, .table origin sub⟩) =
      some changed) : changed.Keyed := by
  obtain ⟨sub', inner, rfl⟩ := Option.map_eq_some_iff.mp h
  have old := Value.keyed_table.mp (keyed.value_of_get? found)
  exact keyed.replace (Value.keyed_table.mpr (keeps sub sub' old inner))

/-- The latest of some tables, changed where it is. -/
theorem keyed_of_replaceLast {span : Span} {items : List (Located Entries)}
    (found : entries.get? key = some ⟨span, .tables items⟩)
    (h : (changeLast change items).map (fun items => entries.replace key ⟨span, .tables items⟩) =
      some changed) : changed.Keyed := by
  obtain ⟨items', inner, rfl⟩ := Option.map_eq_some_iff.mp h
  have old := Value.keyed_tables.mp (keyed.value_of_get? found)
  exact keyed.replace (Value.keyed_tables.mpr (keyed_changeLast keeps old inner))

end

/-- Setting a dotted key adds a table or a key that is missing, or changes a table on the way. -/
theorem keepsKeyed_setDotted (path : List (Located String)) (key : String)
    (single : value.value.Keyed) : KeepsKeyed (setDotted · path key value) := by
  induction path with
  | nil =>
      intro entries changed keyed set
      simp only [setDotted] at set
      split at set
      · cases set
      · rename_i missing
        rw [← Option.some.inj set]
        exact keyed.add (Option.not_isSome_iff_eq_none.mp missing) single
  | cons part rest ih =>
      intro entries changed keyed set
      simp only [setDotted] at set
      split at set
      · rename_i missing
        exact keyed_of_add keyed ih missing set
      · rename_i found
        split at set
        · cases set
        · exact keyed_of_replace keyed ih found set
      · rename_i found
        split at set
        · cases set
        · exact keyed_of_replaceLast keyed ih found set
      · cases set

/-- A change at the end of a path keeps keys unique along it. -/
theorem keepsKeyed_changeAt (path : List (Located String)) (keeps : KeepsKeyed change) :
    KeepsKeyed (changeAt · path change) := by
  induction path with
  | nil => exact keeps
  | cons part rest ih =>
      intro entries changed keyed set
      simp only [changeAt] at set
      split at set
      · rename_i missing
        exact keyed_of_add keyed ih missing set
      · rename_i found
        split at set
        · cases set
        · exact keyed_of_replace keyed ih found set
      · rename_i found
        exact keyed_of_replaceLast keyed ih found set
      · cases set

/-- A table that only headers implied is taken out and comes back at the end. -/
theorem keepsKeyed_openTable (key : String) (span : Span) (keeps : KeepsKeyed fill) :
    KeepsKeyed (openTable · key span fill) := by
  intro entries changed keyed set
  simp only [openTable] at set
  split at set
  · rename_i missing
    exact keyed_of_add keyed keeps missing set
  · rename_i found
    obtain ⟨sub, inner, rfl⟩ := Option.map_eq_some_iff.mp set
    have old := Value.keyed_table.mp (keyed.value_of_get? found)
    exact keyed.erase.add Keyed.get?_erase (Value.keyed_table.mpr (keeps _ sub old inner))
  · cases set

/-- Opening one more table of an array keeps keys unique. -/
theorem keepsKeyed_openItem (key : String) (span : Span) (keeps : KeepsKeyed fill) :
    KeepsKeyed (openItem · key span fill) := by
  intro entries changed keyed set
  simp only [openItem] at set
  split at set
  · rename_i missing
    obtain ⟨item, inner, rfl⟩ := Option.map_eq_some_iff.mp set
    refine keyed.add missing (Value.keyed_tables.mpr fun only mem => ?_)
    rw [List.mem_singleton.mp mem]
    exact keeps [] item keyed_nil inner
  · rename_i found
    obtain ⟨item, inner, rfl⟩ := Option.map_eq_some_iff.mp set
    have old := Value.keyed_tables.mp (keyed.value_of_get? found)
    refine keyed.replace (Value.keyed_tables.mpr fun one mem => ?_)
    rcases List.mem_append.mp mem with early | new
    · exact old one early
    · rw [List.mem_singleton.mp new]
      exact keeps [] item keyed_nil inner
  · cases set

end Entries

/-! ## Reading values and documents -/

/-- Setting one key after another keeps keys unique. -/
theorem keepsKeyed_settle {settings : List Setting}
    (single : ∀ s ∈ settings, s.value.value.Keyed) : KeepsKeyed (settle · settings) :=
  keepsKeyed_foldlM fun s mem => Entries.keepsKeyed_setDotted s.key.path s.key.last (single s mem)

/-- A section keeps keys unique. -/
theorem keepsKeyed_addSection {s : Section} (single : ∀ t ∈ s.settings, t.value.value.Keyed) :
    KeepsKeyed (addSection · s) := by
  refine Entries.keepsKeyed_changeAt s.name.path ?_
  have fill := keepsKeyed_settle single
  intro entries changed keyed set
  dsimp only at set
  split at set
  · exact Entries.keepsKeyed_openItem s.name.last s.extent fill entries changed keyed set
  · exact Entries.keepsKeyed_openTable s.name.last s.extent fill entries changed keyed set

section

variable {element : Scan Value} (each : Gives Value.Keyed element)

include each

theorem keyed_array : Gives Value.Keyed (array element) := by
  have item : Gives (fun item : Located Value => item.value.Keyed)
      (do gap; let item ← located element; gap; return item) := by
    refine gives_bind (gives_any _) fun _ _ => gives_bind (gives_located each) fun item keyed => ?_
    exact gives_bind (gives_any _) fun _ _ => gives_pure keyed
  refine gives_bind (gives_any _) fun _ _ => gives_bind (gives_separated item) fun items keyed => ?_
  have last : Gives Value.Keyed (do gap; char ']'; return .array items) :=
    gives_bind (gives_any _) fun _ _ => gives_bind (gives_any _) fun _ _ =>
      gives_pure (.array keyed)
  dsimp only
  split
  · exact last
  · exact gives_bind (gives_any _) fun _ _ => last

theorem keyed_setting : Gives (fun s : Setting => s.value.value.Keyed) (setting element) := by
  refine gives_bind (gives_any _) fun name _ => gives_bind (gives_any _) fun _ _ => ?_
  refine gives_bind (gives_any _) fun _ _ => gives_bind (gives_located each) fun value keyed => ?_
  exact gives_bind (gives_any _) fun _ _ => gives_pure keyed

theorem keyed_inlineTable : Gives Value.Keyed (inlineTable element) := by
  refine gives_bind (gives_any _) fun _ _ => gives_bind (gives_any _) fun _ _ => ?_
  refine gives_bind (gives_separated (keyed_setting each)) fun settings keyed => ?_
  refine gives_bind (gives_any _) fun _ _ => gives_bind (gives_any _) fun _ _ => ?_
  cases settled : settle [] settings with
  | none => exact gives_failure
  | some entries =>
      have whole := keepsKeyed_settle keyed [] entries Entries.keyed_nil settled
      exact gives_pure (Value.keyed_table.mpr whole)

end

theorem keyed_fitting (n : Int) : Gives Value.Keyed (fitting n) := by
  rw [fitting]
  split
  · exact gives_pure (.integer n)
  · exact gives_failure

theorem keyed_number : Gives Value.Keyed number := by
  have based (mark : String) (base : Nat) (ok : Char → Bool) :
      Gives Value.Keyed (based mark base ok) :=
    gives_bind (gives_any _) fun _ _ => gives_bind (gives_any _) fun _ _ => keyed_fitting _
  refine gives_orElse ?_ (gives_orElse ?_ ?_)
  · refine gives_bind (gives_any _) fun _ _ => gives_bind (gives_any _) fun _ _ => ?_
    refine gives_bind (gives_any _) fun _ _ => gives_bind (gives_any _) fun _ _ => ?_
    split
    · exact gives_failure
    · dsimp only
      split
      · exact gives_failure
      · exact gives_pure (.float _)
  · refine gives_bind (gives_any _) fun _ _ => gives_bind (gives_any _) fun _ _ => ?_
    exact gives_pure (.float _)
  · refine gives_orElse (based _ _ _) (gives_orElse (based _ _ _) (gives_orElse (based _ _ _) ?_))
    exact gives_bind (gives_any _) fun _ _ => gives_bind (gives_any _) fun _ _ => keyed_fitting _

/-- A value without parts holds no table. -/
theorem keyed_simple : Gives Value.Keyed simple := by
  refine gives_orElse ?_ (gives_orElse ?_ (gives_orElse ?_ keyed_number))
  · exact gives_bind (gives_any _) fun _ _ => gives_pure (.string _)
  · exact gives_orElse (gives_bind (gives_any _) fun _ _ => gives_pure (.boolean _))
      (gives_bind (gives_any _) fun _ _ => gives_pure (.boolean _))
  · exact gives_bind (gives_any _) fun _ _ => gives_pure (.moment _)

/-- Whatever is read as a value is keyed, however deep it is. -/
theorem keyed_valueAt (depth : Nat) : Gives Value.Keyed (valueAt depth) := by
  induction depth with
  | zero => exact keyed_simple
  | succ depth ih =>
      exact gives_orElse (keyed_array ih) (gives_orElse (keyed_inlineTable ih) keyed_simple)

/-- Whatever is read as settings has keyed values. -/
theorem keyed_settings :
    Gives (fun settings : List Setting => ∀ s ∈ settings, s.value.value.Keyed) settings := by
  have line : Gives (fun found : Option Setting => ∀ s ∈ found, s.value.value.Keyed)
      ((do return some (← (do let s ← setting value; trailing; return s))) <|>
        (do spaces; let _ ← lineEnd; return none) <|>
        (do spaces; comment; (do let _ ← lineEnd) <|> finish; return none)) := by
    refine gives_orElse ?_ (gives_orElse ?_ ?_)
    · have read := keyed_setting (keyed_valueAt (depthLimit - 1))
      refine gives_bind (gives_bind read fun s keyed => gives_bind (gives_any _) fun _ _ =>
        gives_pure keyed) fun s keyed => gives_pure ?_
      intro t mem
      rw [← Option.some.inj mem]
      exact keyed
    · exact gives_bind (gives_any _) fun _ _ => gives_bind (gives_any _) fun _ _ =>
        gives_pure fun _ mem => nomatch mem
    · exact gives_bind (gives_any _) fun _ _ => gives_bind (gives_any _) fun _ _ =>
        gives_bind (gives_any _) fun _ _ => gives_pure fun _ mem => nomatch mem
  refine gives_bind (gives_many line) fun lines keyed => gives_bind (gives_any _) fun _ _ => ?_
  refine gives_pure fun s mem => ?_
  obtain ⟨found, inside, same⟩ := List.mem_filterMap.mp mem
  exact keyed found inside s same

theorem keyed_tableSection :
    Gives (fun s : Section => ∀ t ∈ s.settings, t.value.value.Keyed) tableSection := by
  refine gives_bind (gives_any _) fun _ _ => gives_bind (gives_any _) fun ⟨_, _, _⟩ _ => ?_
  exact gives_bind (gives_any _) fun _ _ => gives_bind keyed_settings fun _ keyed =>
    gives_pure keyed

/-- **No table of a document holds a key twice.** -/
theorem keyed_parse {text : String} {entries : Entries} (h : parse text = some entries) :
    entries.Keyed := by
  have parts : Gives (fun parts : List Setting × List Section =>
      (∀ s ∈ parts.1, s.value.value.Keyed) ∧ ∀ s ∈ parts.2, ∀ t ∈ s.settings, t.value.value.Keyed)
      document := by
    refine gives_bind (gives_any _) fun _ _ => gives_bind keyed_settings fun top first => ?_
    refine gives_bind (gives_many keyed_tableSection) fun sections later => ?_
    exact gives_bind (gives_any _) fun _ _ => gives_bind (gives_any _) fun _ _ =>
      gives_pure ⟨first, later⟩
  rw [parse] at h
  split at h
  · rename_i top sections rest read
    obtain ⟨first, later⟩ := parts _ _ _ read
    obtain ⟨between, settled, added⟩ := Option.bind_eq_some_iff.mp h
    have keyed := keepsKeyed_settle first [] between Entries.keyed_nil settled
    exact keepsKeyed_foldlM (fun s mem => keepsKeyed_addSection (later s mem)) between entries keyed
      added
  · cases h

end PenDrawing.Toml
