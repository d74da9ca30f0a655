import PenDrawing.Proofs.Settings.Fields

/-!
# The settings, one by one

There are nine settings, each with a place of its own in a document: a key in a section
(**`Slot`**). A setting is **`Overlaid`** by a document if it is what the document holds at its
place, wherever that stands and whatever stands around it, and as preset if there is nothing.

No section but that of its group changes a setting, and no field but that of its key changes it
there. So it goes by the section of its group (`Slot.tracks`), and there by the value under its key
(`tracks_sectionField`).
-/

namespace PenDrawing.Settings

/-! ## The settings, one by one -/

/-- The settings by their places in a document. -/
inductive Slot : Type → Type where
  | windowWidth : Slot Nat
  | windowHeight : Slot Nat
  | dotSize : Slot Float32
  | penSize : Slot Float32
  | paper : Slot Color
  | ink : Slot Color
  | speed : Slot Nat
  | imageWidth : Slot Nat
  | imageHeight : Slot Nat

namespace Slot

variable {α : Type}

/-- The name of the section that a setting belongs to. -/
def group : Slot α → String
  | .windowWidth | .windowHeight => "window"
  | .dotSize | .penSize | .paper | .ink => "style"
  | .speed => "speed"
  | .imageWidth | .imageHeight => "output"

/-- The key of a setting in its section. -/
def key : Slot α → String
  | .windowWidth => "width"
  | .windowHeight => "height"
  | .dotSize => "dot_size"
  | .penSize => "pen_size"
  | .paper => "background"
  | .ink => "ink"
  | .speed => "default"
  | .imageWidth => "image_width"
  | .imageHeight => "image_height"

/-- The setting itself. -/
def get : Slot α → Settings → α
  | .windowWidth, s => s.window.width
  | .windowHeight, s => s.window.height
  | .dotSize, s => s.style.dotSize
  | .penSize, s => s.style.penSize
  | .paper, s => s.style.paper
  | .ink, s => s.style.ink
  | .speed, s => s.speed
  | .imageWidth, s => s.output.width
  | .imageHeight, s => s.output.height

/-- What the setting is where a document does not say otherwise. -/
def preset : Slot α → α
  | .windowWidth | .windowHeight => (656 : Nat)
  | .dotSize | .penSize => (10 : Float32)
  | .paper => Color.mk 1 1 1
  | .ink => Color.mk 0 0 0
  | .speed => (10 : Nat)
  | .imageWidth => (420 : Nat)
  | .imageHeight => (140 : Nat)

/-- What values of a setting are below, where they are whole numbers. -/
def limit? : Slot α → Option Nat
  | .windowWidth | .windowHeight | .imageWidth | .imageHeight => some (Nat.pow 2 32)
  | .speed => some (Nat.pow 2 8)
  | .dotSize | .penSize | .paper | .ink => none

/-- A value is of the kind that the setting expects, and stands for this. -/
def Takes : Slot α → Toml.Value → α → Prop
  | .windowWidth | .windowHeight | .imageWidth | .imageHeight => Whole (Nat.pow 2 32)
  | .speed => Whole (Nat.pow 2 8)
  | .dotSize | .penSize => Numeral
  | .paper | .ink => Shades

/-- A value is a text, or a whole number out of the range that the setting expects. -/
def Refuses (slot : Slot α) (v : Toml.Value) : Prop :=
  (∃ limit ∈ slot.limit?, ∃ n : Int, v = .integer n ∧ (n < 0 ∨ limit ≤ n)) ∨
    ∃ text, v = .string text

/-- A document holds a value at the place of the setting. -/
def Holds (slot : Slot α) (doc : Toml.Entries) (v : Toml.Value) : Prop :=
  ∃ span origin entries inner, (slot.group, ⟨span, .table origin entries⟩) ∈ doc ∧
    (slot.key, ⟨inner, v⟩) ∈ entries

/-- The setting is what the document holds at its place, and its preset if there is nothing. -/
def Overlaid (slot : Slot α) (doc : Toml.Entries) (x : α) : Prop :=
  (∀ v, slot.Holds doc v → slot.Takes v x) ∧ ((∀ v, ¬ slot.Holds doc v) → x = slot.preset)

/-- How a value is read for the setting. -/
def reader : Slot α → Toml.Located Toml.Value → Reading α
  | .windowWidth | .windowHeight | .imageWidth | .imageHeight => readWord
  | .speed => readByte
  | .dotSize | .penSize => readNumber
  | .paper | .ink => readColor

/-- A setting is read from exactly the values that it takes. -/
theorem reader_eq_ok_iff (slot : Slot α) {v : Toml.Located Toml.Value} {x : α} :
    slot.reader v = .ok x ↔ slot.Takes v.value x := by
  cases slot with
  | windowWidth | windowHeight | imageWidth | imageHeight => exact readBounded_eq_ok_iff
  | speed => exact readBounded_eq_ok_iff
  | dotSize | penSize => exact readNumber_eq_ok_iff
  | paper | ink => exact readColor_eq_ok_iff

/-- A value stands for one thing only. -/
theorem eq_of_takes (slot : Slot α) {v : Toml.Value} {x y : α} (hx : slot.Takes v x)
    (hy : slot.Takes v y) : x = y := by
  have first := slot.reader_eq_ok_iff (v := ⟨⟨0, 0⟩, v⟩).mpr hx
  have second := slot.reader_eq_ok_iff (v := ⟨⟨0, 0⟩, v⟩).mpr hy
  exact Except.ok.inj (first.symm.trans second)

theorem not_takes_of_refuses (slot : Slot α) {v : Toml.Value} (h : slot.Refuses v) (x : α) :
    ¬ slot.Takes v x := by
  rcases h with ⟨limit, bound, n, rfl, out⟩ | ⟨text, rfl⟩
  · cases slot with
    | windowWidth | windowHeight | imageWidth | imageHeight | speed =>
        rintro ⟨same, inside⟩
        rw [← Option.some.inj bound, Toml.Value.integer.inj same] at out
        omega
    | dotSize | penSize | paper | ink => cases bound
  · cases slot with
    | windowWidth | windowHeight | imageWidth | imageHeight | speed =>
        exact fun whole => nomatch whole.1
    | dotSize | penSize => exact fun numeral => nomatch numeral
    | paper | ink =>
        rintro ⟨red, green, blue, more, kind, -⟩
        cases kind

/-- Without a document every setting is at its preset. -/
theorem get_standard (slot : Slot α) : slot.get standard = slot.preset := by
  cases slot <;> rfl

/-- The settings are all that there is. -/
theorem ext {s t : Settings} (h : ∀ {α : Type} (slot : Slot α), slot.get s = slot.get t) :
    s = t := by
  obtain ⟨⟨width, height⟩, ⟨ink, paper, dotSize, penSize⟩, speed, ⟨imageWidth, imageHeight⟩⟩ := s
  obtain ⟨⟨_, _⟩, ⟨_, _, _, _⟩, _, ⟨_, _⟩⟩ := t
  congr
  · exact h .windowWidth
  · exact h .windowHeight
  · exact h .ink
  · exact h .paper
  · exact h .dotSize
  · exact h .penSize
  · exact h .speed
  · exact h .imageWidth
  · exact h .imageHeight

end Slot

/-! ## Sections -/

variable {γ α : Type}

/-- The field of a group of settings, which is read from a section. -/
def sectionField (name report : String) (fields : List (Field γ)) (get : Settings → γ)
    (put : γ → Settings → Settings) : Field Settings :=
  ⟨name, fun v s => (readGroup report fields v (get s)).map (put · s)⟩

/-- There are four groups of settings, each under a key of its own. -/
theorem groups_eq :
    groups =
      [sectionField "window" "WindowConfig" (sizeFields "width" "height") window
          (fun window s => { s with window }),
        sectionField "style" "StyleConfig" styleFields style fun style s => { s with style },
        sectionField "speed" "SpeedConfig" speedFields speed fun speed s => { s with speed },
        sectionField "output" "OutputConfig" (sizeFields "image_width" "image_height") output
          fun output s => { s with output }] := rfl

/-- How a setting goes by its section: by the value under its key, and it stays as it was if there
is none. -/
def ByTable (key : String) (Takes : Toml.Value → α → Prop) (old : α) (v : Toml.Value) (new : α) :
    Prop :=
  ∀ origin entries, v = .table origin entries → (entries.map Prod.fst).Nodup →
    (∀ w, (key, w) ∈ entries → Takes w.value new) ∧ (key ∉ entries.map Prod.fst → new = old)

section

variable {name report key : String} {fields : List (Field γ)} {outer : Settings → γ}
  {put : γ → Settings → Settings}

theorem sectionField_keeps {get : Settings → α} (law : ∀ group s, get (put group s) = get s) :
    (sectionField name report fields outer put).Keeps get := by
  intro v s changed given
  obtain ⟨group, -, rfl⟩ := exists_of_map given
  exact law group s

/-- A setting that goes by its key in the group goes by the section that the group is read from. -/
theorem tracks_sectionField {get : γ → α} {Takes : Toml.Value → α → Prop}
    (law : ∀ group s, outer (put group s) = group)
    (inner : Tracks key get (fun _ => Takes) fields) :
    ∀ v s changed, (sectionField name report fields outer put).read v s = .ok changed →
      ByTable key Takes (get (outer s)) v.value (get (outer changed)) := by
  intro ⟨span, value⟩ s changed given origin entries table distinct
  obtain ⟨group, read, rfl⟩ := exists_of_map given
  rw [law]
  rw [show value = .table origin entries from table] at read
  exact inner.of_foldlM distinct read

/-- A section is read if it is a table in which every value under the key of a field is read. -/
theorem sectionField_reads {span : Toml.Span} {origin : Toml.Origin} {entries : Toml.Entries}
    (reads : ∀ entry ∈ entries, ∀ field ∈ fields, field.key = entry.1 → field.Reads entry.2) :
    (sectionField name report fields outer put).Reads ⟨span, .table origin entries⟩ := by
  intro s
  obtain ⟨group, read⟩ := exists_foldlM reads (outer s)
  refine ⟨put group s, ?_⟩
  show (entries.foldlM (readEntry fields) (outer s)).map (put · s) = _
  rw [read]
  rfl

end

/-- Each field is one of the settings of a section. -/
def Covers (name : String) (fields : List (Field γ)) : Prop :=
  ∀ field ∈ fields, ∃ (α : Type) (slot : Slot α) (put : α → γ → γ),
    slot.group = name ∧ field = .of slot.key slot.reader put

theorem covers_window : Covers "window" (sizeFields "width" "height") :=
  List.forall_mem_cons.mpr ⟨⟨Nat, .windowWidth, _, rfl, rfl⟩,
    List.forall_mem_singleton.mpr ⟨Nat, .windowHeight, _, rfl, rfl⟩⟩

theorem covers_style : Covers "style" styleFields :=
  List.forall_mem_cons.mpr ⟨⟨Float32, .dotSize, _, rfl, rfl⟩,
    List.forall_mem_cons.mpr ⟨⟨Float32, .penSize, _, rfl, rfl⟩,
      List.forall_mem_cons.mpr ⟨⟨Color, .paper, _, rfl, rfl⟩,
        List.forall_mem_singleton.mpr ⟨Color, .ink, _, rfl, rfl⟩⟩⟩⟩

theorem covers_speed : Covers "speed" speedFields :=
  List.forall_mem_singleton.mpr ⟨Nat, .speed, _, rfl, rfl⟩

theorem covers_output : Covers "output" (sizeFields "image_width" "image_height") :=
  List.forall_mem_cons.mpr ⟨⟨Nat, .imageWidth, _, rfl, rfl⟩,
    List.forall_mem_singleton.mpr ⟨Nat, .imageHeight, _, rfl, rfl⟩⟩

section

variable {key : String} {Takes : Toml.Value → α → Prop}

theorem tracks_window (get : Size → α)
    (inner : Tracks key get (fun _ => Takes) (sizeFields "width" "height")) :
    Tracks "window" (fun s : Settings => get s.window) (ByTable key Takes) groups := by
  rw [groups_eq]
  refine .here rfl (tracks_sectionField (fun _ _ => rfl) inner) ?_
  exact List.forall_mem_cons.mpr ⟨sectionField_keeps fun _ _ => rfl,
    List.forall_mem_cons.mpr ⟨sectionField_keeps fun _ _ => rfl,
      List.forall_mem_singleton.mpr (sectionField_keeps fun _ _ => rfl)⟩⟩

theorem tracks_style (get : Style → α) (inner : Tracks key get (fun _ => Takes) styleFields) :
    Tracks "style" (fun s : Settings => get s.style) (ByTable key Takes) groups := by
  rw [groups_eq]
  refine .later (by decide) (sectionField_keeps fun _ _ => rfl) ?_
  refine .here rfl (tracks_sectionField (fun _ _ => rfl) inner) ?_
  exact List.forall_mem_cons.mpr ⟨sectionField_keeps fun _ _ => rfl,
    List.forall_mem_singleton.mpr (sectionField_keeps fun _ _ => rfl)⟩

theorem tracks_speed (get : Nat → α) (inner : Tracks key get (fun _ => Takes) speedFields) :
    Tracks "speed" (fun s : Settings => get s.speed) (ByTable key Takes) groups := by
  rw [groups_eq]
  refine .later (by decide) (sectionField_keeps fun _ _ => rfl) ?_
  refine .later (by decide) (sectionField_keeps fun _ _ => rfl) ?_
  exact .here rfl (tracks_sectionField (fun _ _ => rfl) inner)
    (List.forall_mem_singleton.mpr (sectionField_keeps fun _ _ => rfl))

theorem tracks_output (get : Size → α)
    (inner : Tracks key get (fun _ => Takes) (sizeFields "image_width" "image_height")) :
    Tracks "output" (fun s : Settings => get s.output) (ByTable key Takes) groups := by
  rw [groups_eq]
  refine .later (by decide) (sectionField_keeps fun _ _ => rfl) ?_
  refine .later (by decide) (sectionField_keeps fun _ _ => rfl) ?_
  refine .later (by decide) (sectionField_keeps fun _ _ => rfl) ?_
  exact .here rfl (tracks_sectionField (fun _ _ => rfl) inner) (List.forall_mem_nil _)

end

theorem own_of (slot : Slot α) {get : γ → α} {put : α → γ → γ}
    (law : ∀ a group, get (put a group) = a) (v : Toml.Located Toml.Value) (group changed : γ)
    (given : (Field.of slot.key slot.reader put).read v group = .ok changed) :
    slot.Takes v.value (get changed) :=
  slot.reader_eq_ok_iff.mp (Field.exists_reader_of law given)

/-- Each setting goes by the section of its group. -/
theorem Slot.tracks (slot : Slot α) :
    Tracks slot.group slot.get (ByTable slot.key slot.Takes) groups := by
  cases slot with
  | windowWidth =>
      exact tracks_window Size.width <| .here rfl (own_of .windowWidth fun _ _ => rfl)
        (List.forall_mem_singleton.mpr (Field.keeps_of fun _ _ => rfl))
  | windowHeight =>
      exact tracks_window Size.height <| .later (by decide) (Field.keeps_of fun _ _ => rfl)
        (.here rfl (own_of .windowHeight fun _ _ => rfl) (List.forall_mem_nil _))
  | dotSize =>
      refine tracks_style Style.dotSize <| .here rfl (own_of .dotSize fun _ _ => rfl) ?_
      exact List.forall_mem_cons.mpr ⟨Field.keeps_of fun _ _ => rfl,
        List.forall_mem_cons.mpr ⟨Field.keeps_of fun _ _ => rfl,
          List.forall_mem_singleton.mpr (Field.keeps_of fun _ _ => rfl)⟩⟩
  | penSize =>
      refine tracks_style Style.penSize <| .later (by decide) (Field.keeps_of fun _ _ => rfl)
        (.here rfl (own_of .penSize fun _ _ => rfl) ?_)
      exact List.forall_mem_cons.mpr ⟨Field.keeps_of fun _ _ => rfl,
        List.forall_mem_singleton.mpr (Field.keeps_of fun _ _ => rfl)⟩
  | paper =>
      exact tracks_style Style.paper <| .later (by decide) (Field.keeps_of fun _ _ => rfl) <|
        .later (by decide) (Field.keeps_of fun _ _ => rfl) <|
        .here rfl (own_of .paper fun _ _ => rfl)
          (List.forall_mem_singleton.mpr (Field.keeps_of fun _ _ => rfl))
  | ink =>
      exact tracks_style Style.ink <| .later (by decide) (Field.keeps_of fun _ _ => rfl) <|
        .later (by decide) (Field.keeps_of fun _ _ => rfl) <|
        .later (by decide) (Field.keeps_of fun _ _ => rfl) <|
        .here rfl (own_of .ink fun _ _ => rfl) (List.forall_mem_nil _)
  | speed =>
      exact tracks_speed id <| .here rfl (own_of .speed fun _ _ => rfl)
        (List.forall_mem_nil _)
  | imageWidth =>
      exact tracks_output Size.width <| .here rfl (own_of .imageWidth fun _ _ => rfl)
        (List.forall_mem_singleton.mpr (Field.keeps_of fun _ _ => rfl))
  | imageHeight =>
      exact tracks_output Size.height <| .later (by decide) (Field.keeps_of fun _ _ => rfl)
        (.here rfl (own_of .imageHeight fun _ _ => rfl) (List.forall_mem_nil _))

end PenDrawing.Settings
