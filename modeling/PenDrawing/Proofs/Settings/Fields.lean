import PenDrawing.Settings
import PenDrawing.Proofs.Outcome
import Mathlib.Tactic.Common

/-!
# Reading a group of settings

A group is read from a section entry by entry, and each entry goes to the field of its key.  What
one setting comes to can therefore be told without the others (**`Tracks`**): only the field of its
key changes it, so if the section holds the key once, the setting is what was read from there, and
if the section does not hold it, the setting stays as it was (`Tracks.of_foldlM`).  A group is read
if every value under the key of a field is read (`exists_foldlM`).

Single values are read just if they are of the kind that is expected (`readBounded_eq_ok_iff`,
`readNumber_eq_ok_iff`, `readColor_eq_ok_iff`).
-/

namespace PenDrawing

/-! ## Single values -/

/-- A value is a whole number below a limit. -/
def Whole (limit : Nat) (v : Toml.Value) (n : Nat) : Prop := v = .integer n ∧ n < limit

/-- A value is a number, whole or not, and this is the nearest one of four bytes. -/
inductive Numeral : Toml.Value → Float32 → Prop where
  | integer (n : Int) : Numeral (.integer n) (.ofInt n)
  | float (x : Float) : Numeral (.float x) (Decimal.narrow x)

/-- A value is an array of three numbers, the shares of a colour.  More elements do not matter. -/
def Shades (v : Toml.Value) (c : Color) : Prop :=
  ∃ red green blue more, v = .array (red :: green :: blue :: more) ∧
    Numeral red.value c.red ∧ Numeral green.value c.green ∧ Numeral blue.value c.blue

variable {v : Toml.Located Toml.Value}

/-- Only whole numbers below the limit are read, each as itself. -/
theorem readBounded_eq_ok_iff {expected : Expected} {limit n : Nat} :
    readBounded expected limit v = .ok n ↔ Whole limit v.value n := by
  obtain ⟨span, value⟩ := v
  cases value with
  | integer m =>
      show (if 0 ≤ m ∧ m < limit then .ok m.toNat else .error _ : Reading Nat) = .ok n ↔
        Toml.Value.integer m = .integer n ∧ n < limit
      rw [Toml.Value.integer.injEq]
      by_cases fits : 0 ≤ m ∧ m < limit
      · rw [if_pos fits, Except.ok.injEq]
        omega
      · rw [if_neg fits]
        refine iff_of_false (fun given => nomatch given) ?_
        omega
  | _ => exact iff_of_false (fun given => nomatch given) fun whole => nomatch whole.1

/-- Numbers are read, whole or not, and nothing else. -/
theorem readNumber_eq_ok_iff {x : Float32} : readNumber v = .ok x ↔ Numeral v.value x := by
  obtain ⟨span, value⟩ := v
  cases value with
  | integer n =>
      constructor
      · intro given
        rw [← Except.ok.inj given]
        exact .integer n
      · rintro ⟨⟩
        rfl
  | float y =>
      constructor
      · intro given
        rw [← Except.ok.inj given]
        exact .float y
      · rintro ⟨⟩
        rfl
  | _ => exact iff_of_false (fun given => nomatch given) fun numeral => nomatch numeral

/-- Tables that share a header are elements, but no numbers. -/
theorem exists_readNumber_of_tables {items : List (Toml.Located Toml.Entries)}
    {first : Toml.Located Toml.Value} {rest : List (Toml.Located Toml.Value)}
    (h : items? (.tables items) = some (first :: rest)) : ∀ x, readNumber first ≠ .ok x := by
  cases items with
  | nil => cases h
  | cons item items =>
      rw [← (List.cons.inj (Option.some.inj h)).1]
      intro x given
      cases given

/-- Arrays of at least three numbers are read as colours, and nothing else. -/
theorem readColor_eq_ok_iff {c : Color} : readColor v = .ok c ↔ Shades v.value c := by
  constructor
  · intro given
    rw [readColor] at given
    split at given
    · cases given
    · rename_i items elements
      split at given
      · cases given
      · obtain ⟨_, -, given⟩ := exists_of_bind given
        cases given
      · obtain ⟨_, -, given⟩ := exists_of_bind given
        obtain ⟨_, -, given⟩ := exists_of_bind given
        cases given
      · rename_i red green blue more
        obtain ⟨r, first, given⟩ := exists_of_bind given
        obtain ⟨g, second, given⟩ := exists_of_bind given
        obtain ⟨b, third, given⟩ := exists_of_bind given
        rw [← Except.ok.inj given]
        refine ⟨red, green, blue, more, ?_, readNumber_eq_ok_iff.mp first,
          readNumber_eq_ok_iff.mp second, readNumber_eq_ok_iff.mp third⟩
        cases kind : v.value with
        | array all =>
            rw [kind] at elements
            rw [Option.some.inj elements]
        | tables all =>
            rw [kind] at elements
            exact absurd first (exists_readNumber_of_tables elements r)
        | _ =>
            rw [kind] at elements
            cases elements
  · rintro ⟨red, green, blue, more, kind, first, second, third⟩
    rw [readColor, kind]
    show (do return ⟨← readNumber red, ← readNumber green, ← readNumber blue⟩ : Reading Color) = _
    rw [readNumber_eq_ok_iff.mpr first, readNumber_eq_ok_iff.mpr second,
      readNumber_eq_ok_iff.mpr third]
    rfl

/-! ## Fields -/

variable {γ α : Type}

/-- A field leaves one part of the group as it is. -/
def Field.Keeps (field : Field γ) (get : γ → α) : Prop :=
  ∀ v group changed, field.read v group = .ok changed → get changed = get group

/-- A field can be read from a value, whatever the group is. -/
def Field.Reads (field : Field γ) (v : Toml.Located Toml.Value) : Prop :=
  ∀ group, ∃ changed, field.read v group = .ok changed

section

variable {β : Type} {key : String} {reader : Toml.Located Toml.Value → Reading α}
  {put : α → γ → γ}

theorem Field.keeps_of {get : γ → β} (law : ∀ a group, get (put a group) = get group) :
    (Field.of key reader put).Keeps get := by
  intro v group changed given
  obtain ⟨a, -, rfl⟩ := exists_of_map given
  exact law a group

theorem Field.exists_reader_of {get : γ → α} (law : ∀ a group, get (put a group) = a)
    {group changed : γ} (given : (Field.of key reader put).read v group = .ok changed) :
    reader v = .ok (get changed) := by
  obtain ⟨a, read, rfl⟩ := exists_of_map given
  rw [law]
  exact read

theorem Field.reads_of {a : α} (h : reader v = .ok a) : (Field.of key reader put).Reads v := by
  intro group
  refine ⟨put a group, ?_⟩
  show (reader v).map (put · group) = _
  rw [h]
  rfl

end

/-! ## Entries -/

variable {field : Field γ} {fields : List (Field γ)} {group changed : γ}
  {entry : String × Toml.Located Toml.Value}

/-- An entry goes to the first field with its key. -/
theorem readEntry_cons :
    readEntry (field :: fields) group entry =
      if field.key = entry.1 then field.read entry.2 group else readEntry fields group entry := by
  rw [readEntry, List.find?_cons]
  by_cases same : field.key = entry.1
  · rw [if_pos same, decide_eq_true same]
  · rw [if_neg same, decide_eq_false same]
    rfl

theorem readEntry_keeps {get : γ → α} (keeps : ∀ field ∈ fields, field.Keeps get)
    (given : readEntry fields group entry = .ok changed) : get changed = get group := by
  induction fields with
  | nil =>
      rw [← Except.ok.inj given]
  | cons field fields ih =>
      rw [readEntry_cons] at given
      split at given
      · exact keeps field List.mem_cons_self entry.2 group changed given
      · exact ih (fun other mem => keeps other (List.mem_cons_of_mem field mem)) given

/-- An entry is read if every field of its key takes the value. -/
theorem exists_readEntry (reads : ∀ field ∈ fields, field.key = entry.1 → field.Reads entry.2)
    (group : γ) : ∃ changed, readEntry fields group entry = .ok changed := by
  induction fields with
  | nil => exact ⟨group, rfl⟩
  | cons field fields ih =>
      rw [readEntry_cons]
      split
      · rename_i same
        exact reads field List.mem_cons_self same group
      · exact ih fun other mem => reads other (List.mem_cons_of_mem field mem)

/-- A section is read if every value under the key of a field is. -/
theorem exists_foldlM {entries : Toml.Entries}
    (reads : ∀ entry ∈ entries, ∀ field ∈ fields, field.key = entry.1 → field.Reads entry.2)
    (group : γ) : ∃ changed, entries.foldlM (readEntry fields) group = .ok changed := by
  induction entries generalizing group with
  | nil => exact ⟨group, rfl⟩
  | cons entry entries ih =>
      obtain ⟨between, first⟩ := exists_readEntry (reads entry List.mem_cons_self) group
      rw [List.foldlM_cons, first]
      exact ih (fun other mem => reads other (List.mem_cons_of_mem entry mem)) between

/-! ## One setting of a group -/

variable {key : String} {get : γ → α} {Rule : α → Toml.Value → α → Prop}

/-- One part of a group goes by a key: the field of the key changes it by a rule, in terms of what it
was before and of the value, and no other field changes it. -/
inductive Tracks (key : String) (get : γ → α) (Rule : α → Toml.Value → α → Prop) :
    List (Field γ) → Prop where
  | here {field : Field γ} {fields : List (Field γ)} (same : field.key = key)
      (own : ∀ v group changed, field.read v group = .ok changed →
        Rule (get group) v.value (get changed))
      (others : ∀ other ∈ fields, other.Keeps get) : Tracks key get Rule (field :: fields)
  | later {field : Field γ} {fields : List (Field γ)} (other : field.key ≠ key)
      (keeps : field.Keeps get) (rest : Tracks key get Rule fields) :
      Tracks key get Rule (field :: fields)

namespace Tracks

/-- An entry under the key of a setting changes the setting by its rule. -/
theorem readEntry_own (h : Tracks key get Rule fields)
    (given : readEntry fields group (key, v) = .ok changed) :
    Rule (get group) v.value (get changed) := by
  induction h with
  | here same own others =>
      rw [readEntry_cons, if_pos same] at given
      exact own v group changed given
  | later other keeps rest ih =>
      rw [readEntry_cons, if_neg other] at given
      exact ih given

/-- An entry under another key leaves a setting as it is. -/
theorem readEntry_other (h : Tracks key get Rule fields) (other : entry.1 ≠ key)
    (given : readEntry fields group entry = .ok changed) : get changed = get group := by
  induction h with
  | here same own others =>
      have skipped : ¬ _ = entry.1 := fun found => other (found.symm.trans same)
      rw [readEntry_cons, if_neg skipped] at given
      exact readEntry_keeps others given
  | later _ keeps rest ih =>
      rw [readEntry_cons] at given
      split at given
      · exact keeps entry.2 group changed given
      · exact ih given

/-- **A setting is what its key holds.**  In a section that holds no key twice, it goes by the value
under its key, and stays as it was if there is none. -/
theorem of_foldlM (h : Tracks key get Rule fields) {entries : Toml.Entries}
    (distinct : (entries.map Prod.fst).Nodup)
    (given : entries.foldlM (readEntry fields) group = .ok changed) :
    (∀ v, (key, v) ∈ entries → Rule (get group) v.value (get changed)) ∧
    (key ∉ entries.map Prod.fst → get changed = get group) := by
  induction entries generalizing group with
  | nil =>
      rw [← Except.ok.inj given]
      exact ⟨fun v mem => absurd mem List.not_mem_nil, fun _ => rfl⟩
  | cons entry entries ih =>
      rw [List.foldlM_cons] at given
      obtain ⟨between, first, later⟩ := exists_of_bind given
      rw [List.map_cons, List.nodup_cons] at distinct
      obtain ⟨found, missing⟩ := ih distinct.2 later
      by_cases same : entry.1 = key
      · -- the key does not come again
        have kept := missing (same ▸ distinct.1)
        refine ⟨?_, fun absent => absurd (same ▸ List.mem_cons_self) absent⟩
        intro v mem
        rcases List.mem_cons.mp mem with rfl | again
        · rw [kept]
          exact h.readEntry_own first
        · exact absurd (List.mem_map.mpr ⟨_, again, same.symm⟩) distinct.1
      · have kept := h.readEntry_other same first
        rw [kept] at found missing
        refine ⟨?_, fun absent => missing fun mem => absent (List.mem_cons_of_mem _ mem)⟩
        intro v mem
        rcases List.mem_cons.mp mem with rfl | later
        · exact absurd rfl same
        · exact found v later

end Tracks

end PenDrawing
