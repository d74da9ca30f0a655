import PenDrawing.Files.Tree
import PenDrawing.Proofs.Files.Name
import Mathlib.Tactic.Common

/-!
# What operations do to a tree

A tree is known by what stands at each place (`Tree.find?`), and every operation puts nodes at
places (`find?_put`).  The route:

* the way to a directory stays as long as directories do (`walk_of_keeps`);
* making a directory adds directories where nothing was, and makes a way to it
  (`grows_makeDirectories`, `exists_walk_of_makeDirectories`);
* a picture that is saved stands where its name leads to (`exists_of_save`), and of several under
  one name the last one stays (`find?_saveIn`).
-/

namespace PenDrawing.Files.Tree

variable {t t' : Tree} {spot start : Spot}

/-! ## Places -/

/-- The directory of a run, those above it and the root are always there. -/
theorem find?_of_isBase (t : Tree) (h : spot.isBase = true) : t.find? spot = some .directory := by
  rw [find?, if_pos h]

/-- Where no directory stands, it is not one of those that are always there. -/
theorem isBase_of_find? (h : t.find? spot ≠ some .directory) : spot.isBase = false := by
  rw [Bool.eq_false_iff]
  exact fun base => h (t.find?_of_isBase base)

/-- Putting a node at a place changes what stands there, and nothing else. -/
theorem find?_putNode (spot : Spot) (node : Node) (nodes : List (Spot × Node)) (other : Spot) :
    ((putNode spot node nodes).find? (·.1 = other)).map (·.2) =
      if other = spot then some node else (nodes.find? (·.1 = other)).map (·.2) := by
  induction nodes with
  | nil =>
      rw [putNode]
      by_cases same : other = spot
      · rw [if_pos same, List.find?_cons_of_pos (by simp [same])]
        rfl
      · rw [if_neg same, List.find?_cons_of_neg (by simpa using Ne.symm same)]
  | cons entry rest ih =>
      rw [putNode]
      by_cases there : entry.1 = spot
      · rw [if_pos there]
        by_cases same : other = spot
        · rw [if_pos same, List.find?_cons_of_pos (by simp [same])]
          rfl
        · rw [if_neg same, List.find?_cons_of_neg (by simpa using Ne.symm same),
            List.find?_cons_of_neg (by simpa [there] using Ne.symm same)]
      · rw [if_neg there]
        by_cases first : entry.1 = other
        · have apart : other ≠ spot := fun same => there (first.trans same)
          rw [if_neg apart, List.find?_cons_of_pos (by simpa using first),
            List.find?_cons_of_pos (by simpa using first)]
        · rw [List.find?_cons_of_neg (by simpa using first),
            List.find?_cons_of_neg (by simpa using first)]
          exact ih

/-- A node stands where it was put, and all other places are as they were. -/
theorem find?_put (t : Tree) (node : Node) (free : spot.isBase = false) (other : Spot) :
    (t.put spot node).find? other = if other = spot then some node else t.find? other := by
  rw [find?, find?, put]
  by_cases base : other.isBase = true
  · have apart : other ≠ spot := fun same => by
      rw [same, free] at base
      cases base
    rw [if_pos base, if_neg apart, if_pos base]
  · rw [if_neg base, if_neg base]
    exact find?_putNode spot node t.nodes other

/-! ## Ways -/

/-- All directories of a tree are there in another one. -/
def Keeps (t t' : Tree) : Prop :=
  ∀ spot, t.find? spot = some .directory → t'.find? spot = some .directory

theorem Keeps.put {node : Node} (free : t.find? spot ≠ some .directory) :
    t.Keeps (t.put spot node) := by
  intro other there
  have apart : other ≠ spot := fun same => free (same ▸ there)
  rw [find?_put t node (isBase_of_find? free), if_neg apart]
  exact there

/-- A way is gone part by part. -/
theorem walk_cons (t : Tree) (start : Spot) (part : String) (rest : List String) :
    t.walk start (part :: rest) = (t.walk start [part]).bind (t.walk · rest) := by
  rw [walk, walk]
  by_cases stays : part = here
  · rw [if_pos stays, if_pos stays]
    rfl
  rw [if_neg stays, if_neg stays]
  by_cases leaves : part = up
  · rw [if_pos leaves, if_pos leaves]
    rfl
  rw [if_neg leaves, if_neg leaves]
  by_cases long : isPartTooLong part = true
  · rw [if_pos long, if_pos long]
    rfl
  rw [if_neg long, if_neg long]
  rcases t.find? (start ++ [part]) with _ | _ | _ | _ <;> rfl

/-- A way in two parts is walked one part after the other. -/
theorem walk_append (t : Tree) (start : Spot) (front back : List String) :
    t.walk start (front ++ back) = (t.walk start front).bind (t.walk · back) := by
  induction front generalizing start with
  | nil => rfl
  | cons part rest ih =>
      rw [List.cons_append, walk_cons, walk_cons t start part rest]
      cases t.walk start [part] with
      | error cause => rfl
      | ok next => exact ih next

/-- Where one part leads to stays a directory. -/
theorem walk_part_of_keeps (keeps : t.Keeps t') {part : String} {place : Spot}
    (way : t.walk start [part] = .ok place) : t'.walk start [part] = .ok place := by
  rw [walk] at way ⊢
  by_cases stays : part = here
  · rw [if_pos stays] at way ⊢
    exact way
  rw [if_neg stays] at way ⊢
  by_cases leaves : part = up
  · rw [if_pos leaves] at way ⊢
    exact way
  rw [if_neg leaves] at way ⊢
  by_cases long : isPartTooLong part = true
  · rw [if_pos long] at way
    cases way
  rw [if_neg long] at way ⊢
  cases there : t.find? (start ++ [part]) with
  | none =>
      rw [there] at way
      cases way
  | some node =>
      rw [there] at way
      cases node with
      | directory =>
          rw [keeps _ there]
          exact way
      | file bytes => cases way
      | picture raster => cases way

/-- Ways stay as long as directories do. -/
theorem walk_of_keeps (keeps : t.Keeps t') {parts : List String} {place : Spot}
    (way : t.walk start parts = .ok place) : t'.walk start parts = .ok place := by
  induction parts generalizing start with
  | nil => exact way
  | cons part rest ih =>
      rw [walk_cons] at way ⊢
      cases first : t.walk start [part] with
      | error cause =>
          rw [first] at way
          cases way
      | ok next =>
          rw [first] at way
          rw [walk_part_of_keeps keeps first]
          exact ih way

/-- What a way ends at that need not be there yet: the last part is a name, and the others lead to a
directory. -/
theorem exists_of_locate {parts : List String} (h : t.locate start parts = .ok (some spot)) :
    ∃ front last directory, parts = front ++ [last] ∧ t.walk start front = .ok directory ∧
      spot = directory ++ [last] ∧ last ≠ here ∧ last ≠ up ∧ isPartTooLong last = false := by
  rw [locate] at h
  cases ends : parts.getLast? with
  | none =>
      rw [ends] at h
      cases h
  | some last =>
      obtain ⟨front, rfl⟩ := List.getLast?_eq_some_iff.mp ends
      rw [ends, List.dropLast_concat] at h
      cases way : t.walk start front with
      | error cause =>
          rw [way] at h
          cases h
      | ok directory =>
          rw [way] at h
          have h : (if last = here ∨ last = up then (.ok none : Except Error (Option Spot))
              else if isPartTooLong last then .error .nameTooLong
              else .ok (some (directory ++ [last]))) = .ok (some spot) := h
          by_cases special : last = here ∨ last = up
          · rw [if_pos special] at h
            cases h
          · rw [if_neg special] at h
            by_cases long : isPartTooLong last = true
            · rw [if_pos long] at h
              cases h
            · rw [if_neg long] at h
              exact ⟨front, last, directory, rfl, way, (Option.some.inj (Except.ok.inj h)).symm,
                fun same => special (.inl same), fun same => special (.inr same),
                eq_false_of_ne_true long⟩

/-- A last part that is a name is found where the others lead to. -/
theorem locate_concat {front : List String} {last : String} {directory : Spot}
    (way : t.walk start front = .ok directory) (stays : last ≠ here) (leaves : last ≠ up) :
    t.locate start (front ++ [last]) =
      if isPartTooLong last then .error .nameTooLong else .ok (some (directory ++ [last])) := by
  have special : ¬ (last = here ∨ last = up) := not_or.mpr ⟨stays, leaves⟩
  rw [locate, List.getLast?_concat]
  dsimp only
  rw [List.dropLast_concat, way]
  exact if_neg special

/-- A name leads to a directory that stands there. -/
theorem walk_concat {front : List String} {last : String} {directory : Spot}
    (way : t.walk start front = .ok directory) (stays : last ≠ here) (leaves : last ≠ up)
    (short : isPartTooLong last = false) (there : t.find? (directory ++ [last]) = some .directory) :
    t.walk start (front ++ [last]) = .ok (directory ++ [last]) := by
  have long : ¬ isPartTooLong last = true := by rw [short]; exact Bool.false_ne_true
  rw [walk_append, way]
  show t.walk directory [last] = _
  rw [walk, if_neg stays, if_neg leaves, if_neg long, there]
  rfl

/-! ## Making directories -/

/-- A tree has become another one by directories alone, each where nothing stood. -/
def Grows (t t' : Tree) : Prop :=
  ∀ spot, t'.find? spot = t.find? spot ∨
    t.find? spot = none ∧ t'.find? spot = some .directory

theorem Grows.refl (t : Tree) : t.Grows t := fun _ => .inl rfl

theorem Grows.trans {t t' t'' : Tree} (first : t.Grows t') (second : t'.Grows t'') :
    t.Grows t'' := by
  intro spot
  rcases second spot with same | ⟨free, made⟩
  · rw [same]
    exact first spot
  · rcases first spot with same | ⟨_, made'⟩
    · exact .inr ⟨same ▸ free, made⟩
    · rw [made'] at free
      cases free

/-- A directory where nothing stood makes a tree grow. -/
theorem Grows.put (free : t.find? spot = none) : t.Grows (t.put spot .directory) := by
  have ordinary : spot.isBase = false := isBase_of_find? (by rw [free]; nofun)
  intro other
  rw [find?_put t .directory ordinary]
  by_cases same : other = spot
  · rw [if_pos same, same]
    exact .inr ⟨free, rfl⟩
  · rw [if_neg same]
    exact .inl rfl

/-- A directory that is made was not there, and is there afterwards. -/
theorem exists_of_makeDirectory {parts : List String}
    (made : t.makeDirectory start parts = .ok t') :
    ∃ spot, t.locate start parts = .ok (some spot) ∧ t.find? spot = none ∧
      t' = t.put spot .directory := by
  rw [makeDirectory] at made
  cases located : t.locate start parts with
  | error cause =>
      rw [located] at made
      cases made
  | ok place =>
      rw [located] at made
      cases place with
      | none => cases made
      | some spot =>
          dsimp only [bind, Except.bind] at made
          cases there : t.find? spot with
          | none =>
              rw [there] at made
              exact ⟨spot, rfl, there, (Except.ok.inj made).symm⟩
          | some node =>
              rw [there] at made
              cases made

/-- Making a directory makes a tree grow at most, whether it goes well or not. -/
theorem grows_makeOne (t : Tree) (start : Spot) (parts : List String) :
    t.Grows (t.makeOne start parts).1 := by
  rw [makeOne]
  cases made : t.makeDirectory start parts with
  | error cause => exact .refl t
  | ok t' =>
      obtain ⟨spot, -, free, rfl⟩ := exists_of_makeDirectory made
      exact .put free

/-- There is a way to a directory that was made, or was there. -/
theorem exists_walk_of_makeOne {parts : List String}
    (made : t.makeOne start parts = (t', .ok ())) : ∃ place, t'.walk start parts = .ok place := by
  rw [makeOne] at made
  cases one : t.makeDirectory start parts with
  | error cause =>
      rw [one] at made
      obtain ⟨rfl, there⟩ := Prod.ext_iff.mp made
      cases way : t.walk start parts with
      | error cause' =>
          dsimp only at there
          rw [isDirectory, way] at there
          cases there
      | ok place => exact ⟨place, rfl⟩
  | ok t'' =>
      rw [one] at made
      obtain ⟨rfl, -⟩ := Prod.ext_iff.mp made
      obtain ⟨spot, located, free, rfl⟩ := exists_of_makeDirectory one
      obtain ⟨front, last, directory, rfl, way, rfl, stays, leaves, short⟩ :=
        exists_of_locate located
      have unused : t.find? (directory ++ [last]) ≠ some .directory := by rw [free]; nofun
      have there : (t.put (directory ++ [last]) .directory).find? (directory ++ [last]) =
          some .directory := by
        rw [find?_put t .directory (isBase_of_find? unused), if_pos rfl]
      exact ⟨_, walk_concat (walk_of_keeps (.put unused) way) stays leaves short there⟩

/-- Making directories one above another adds directories only. -/
theorem grows_makeAll (t : Tree) (start : Spot) (parts : List String) :
    t.Grows (t.makeAll start parts).1 := by
  induction t, parts using makeAll.induct start with
  | case1 t =>
      rw [makeAll, dif_pos rfl]
      exact .refl t
  -- the directory above is made in the tree of the first attempt, the directory itself after that
  | case2 t parts nonempty t₁ missing t₂ above ih =>
      have one := grows_makeOne t start parts
      rw [makeAll, dif_neg nonempty, missing]
      rw [missing] at one
      dsimp only
      rw [above] at ih ⊢
      exact one.trans (ih.trans (grows_makeOne t₂ start parts))
  | case3 t parts nonempty t₁ missing t₂ cause above ih =>
      have one := grows_makeOne t start parts
      rw [makeAll, dif_neg nonempty, missing]
      rw [missing] at one
      dsimp only
      rw [above] at ih ⊢
      exact one.trans ih
  | case4 t parts nonempty other =>
      have one := grows_makeOne t start parts
      rw [makeAll, dif_neg nonempty]
      split
      · exact absurd ‹_› (other _)
      · exact one

/-- Whatever had to be made first, the directory itself is made last. -/
theorem exists_walk_of_makeAll {parts : List String} (made : t.makeAll start parts = (t', .ok ())) :
    ∃ place, t'.walk start parts = .ok place := by
  rw [makeAll] at made
  by_cases empty : parts = []
  · rw [empty]
    exact ⟨start, rfl⟩
  rw [dif_neg empty] at made
  split at made
  · split at made
    · exact exists_walk_of_makeOne made
    · cases made
  · exact exists_walk_of_makeOne made

/-- Making directories makes a tree grow at most, whether it goes well or not. -/
theorem grows_makeDirectories (t : Tree) (name : String) : t.Grows (t.makeDirectories name).1 := by
  rw [makeDirectories]
  by_cases long : isTooLong name = true
  · rw [if_pos long]
    exact .refl t
  · rw [if_neg long]
    exact grows_makeAll t (startOf name) (steps name)

/-- There is a way to a directory that was asked for and made. -/
theorem exists_walk_of_makeDirectories {name : String}
    (made : t.makeDirectories name = (t', .ok ())) :
    ∃ place, t'.walk (startOf name) (steps name) = .ok place := by
  rw [makeDirectories] at made
  by_cases long : isTooLong name = true
  · rw [if_pos long] at made
    cases made
  · rw [if_neg long] at made
    exact exists_walk_of_makeAll made

/-! ## Saving pictures -/

/-- A picture is saved where its name leads to, and in place of no directory. -/
theorem exists_of_save {name : String} {raster : Raster}
    (saved : t.save name raster = (t', .ok ())) :
    ∃ spot, t.locateName name = .ok (some spot) ∧ t.find? spot ≠ some .directory ∧
      t' = t.put spot (.picture raster) := by
  rw [save] at saved
  cases located : t.locateName name with
  | error cause =>
      rw [located] at saved
      cases saved
  | ok place =>
      rw [located] at saved
      cases place with
      | none => cases saved
      | some spot =>
          dsimp only at saved
          split at saved
          · cases saved
          · rename_i free
            by_cases columns : raster.width = 0
            · rw [if_pos columns] at saved
              cases saved
            rw [if_neg columns] at saved
            by_cases rows : raster.height = 0
            · rw [if_pos rows] at saved
              cases saved
            rw [if_neg rows] at saved
            exact ⟨spot, rfl, free, (Prod.ext_iff.mp saved).1.symm⟩

/-- A picture with pixels is saved wherever its name leads to no directory. -/
theorem save_of_locateName {name : String} {raster : Raster}
    (located : t.locateName name = .ok (some spot)) (free : t.find? spot ≠ some .directory)
    (columns : raster.width ≠ 0) (rows : raster.height ≠ 0) :
    t.save name raster = (t.put spot (.picture raster), .ok ()) := by
  rw [save, located]
  dsimp only
  split
  · exact absurd ‹_› free
  · rw [if_neg columns, if_neg rows]

section

variable {directory file : String} {place : Spot}

/-- The name of a file in a directory leads into it. -/
theorem locateName_inside (named : directory ≠ "") (plain : IsPlain file)
    (way : t.walk (startOf directory) (steps directory) = .ok place) :
    t.locateName (inside directory file) =
      if isTooLong (inside directory file) || isPartTooLong file then .error .nameTooLong
      else .ok (some (place ++ [file])) := by
  rw [locateName, startOf_inside named, parts_inside plain,
    locate_concat way plain.stays plain.leaves]
  cases isTooLong (inside directory file) <;> rfl

/-- A picture that is saved in a directory stands there. -/
theorem eq_put_of_save (named : directory ≠ "") (plain : IsPlain file)
    (way : t.walk (startOf directory) (steps directory) = .ok place) {raster : Raster}
    (saved : t.save (inside directory file) raster = (t', .ok ())) :
    t.find? (place ++ [file]) ≠ some .directory ∧
      t' = t.put (place ++ [file]) (.picture raster) := by
  obtain ⟨spot, located, free, stood⟩ := exists_of_save saved
  rw [locateName_inside named plain way] at located
  by_cases long : (isTooLong (inside directory file) || isPartTooLong file) = true
  · rw [if_pos long] at located
    cases located
  · rw [if_neg long] at located
    obtain rfl := Option.some.inj (Except.ok.inj located)
    exact ⟨free, stood⟩

end

/-! ## Saving several pictures -/

/-- The tree after several pictures were saved, up to the first that cannot be saved. -/
def saveAll (t : Tree) : List (String × Raster) → Tree × Except Error Unit
  | [] => (t, .ok ())
  | (name, raster) :: rest =>
    match t.save name raster with
    | (t, .error cause) => (t, .error cause)
    | (t, .ok ()) => t.saveAll rest

/-- The tree after several pictures were saved in a directory. -/
def saveIn (t : Tree) (directory : String) (pictures : List (String × Raster)) :
    Tree × Except Error Unit :=
  t.saveAll (pictures.map fun (file, raster) => (inside directory file, raster))

/-- The picture that was saved last at a place, among pictures in a directory. -/
def lastAt (place spot : Spot) (pictures : List (String × Raster)) : Option Node :=
  (pictures.filter (place ++ [·.1] = spot)).getLast?.map (.picture ·.2)

/-- The first of several pictures stays just if no later one takes its place. -/
theorem lastAt_cons (place spot : Spot) (file : String) (raster : Raster)
    (rest : List (String × Raster)) :
    lastAt place spot ((file, raster) :: rest) =
      (lastAt place spot rest).or
        (if spot = place ++ [file] then some (.picture raster) else none) := by
  rw [lastAt, lastAt]
  by_cases same : spot = place ++ [file]
  · rw [if_pos same, List.filter_cons_of_pos (by simp [same]), List.getLast?_cons]
    cases (rest.filter (place ++ [·.1] = spot)).getLast? <;> rfl
  · rw [if_neg same, List.filter_cons_of_neg (by simpa using Ne.symm same), Option.or_none]

/-- **Of several pictures under one name the last one stays**, and no other place in the tree
changes. -/
theorem find?_saveIn {directory : String} {place : Spot} (named : directory ≠ "")
    {pictures : List (String × Raster)} (plain : ∀ picture ∈ pictures, IsPlain picture.1)
    (way : t.walk (startOf directory) (steps directory) = .ok place)
    (saved : t.saveIn directory pictures = (t', .ok ())) :
    t'.walk (startOf directory) (steps directory) = .ok place ∧
      ∀ spot, t'.find? spot = (lastAt place spot pictures).or (t.find? spot) := by
  -- for every tree with a way to the directory: each picture that is saved leaves one
  induction pictures generalizing t with
  | nil =>
      obtain ⟨rfl, -⟩ := Prod.ext_iff.mp saved
      exact ⟨way, fun _ => rfl⟩
  | cons picture rest ih =>
      obtain ⟨file, raster⟩ := picture
      rw [saveIn, List.map_cons, saveAll] at saved
      cases first : t.save (inside directory file) raster with
      | mk t₁ result =>
          rw [first] at saved
          cases result with
          | error cause => cases saved
          | ok _ =>
              obtain ⟨free, rfl⟩ := eq_put_of_save named (plain _ List.mem_cons_self) way first
              obtain ⟨way', stands⟩ := ih
                (fun later mem => plain later (List.mem_cons_of_mem _ mem))
                (walk_of_keeps (.put free) way) saved
              refine ⟨way', fun spot => ?_⟩
              rw [stands, lastAt_cons, find?_put t _ (isBase_of_find? free), Option.or_assoc]
              by_cases same : spot = place ++ [file]
              · rw [if_pos same, if_pos same]
                rfl
              · rw [if_neg same, if_neg same]
                rfl

/-- Pictures with pixels and with short names are saved, where no directory is in their way. -/
theorem exists_saveIn {directory : String} {place : Spot} (named : directory ≠ "")
    {pictures : List (String × Raster)} (plain : ∀ picture ∈ pictures, IsPlain picture.1)
    (short : ∀ picture ∈ pictures,
      (isTooLong (inside directory picture.1) || isPartTooLong picture.1) = false)
    (pixels : ∀ picture ∈ pictures, picture.2.width ≠ 0 ∧ picture.2.height ≠ 0)
    (way : t.walk (startOf directory) (steps directory) = .ok place)
    (free : ∀ picture ∈ pictures, t.find? (place ++ [picture.1]) ≠ some .directory) :
    ∃ t', t.saveIn directory pictures = (t', .ok ()) := by
  induction pictures generalizing t with
  | nil => exact ⟨t, rfl⟩
  | cons picture rest ih =>
      obtain ⟨file, raster⟩ := picture
      have unused := free _ List.mem_cons_self
      have located : t.locateName (inside directory file) = .ok (some (place ++ [file])) := by
        rw [locateName_inside named (plain _ List.mem_cons_self) way,
          short _ List.mem_cons_self]
        rfl
      obtain ⟨columns, rows⟩ := pixels _ List.mem_cons_self
      have way' : (t.put (place ++ [file]) (.picture raster)).walk (startOf directory)
          (steps directory) = .ok place := walk_of_keeps (.put unused) way
      have free' : ∀ later ∈ rest, (t.put (place ++ [file]) (.picture raster)).find?
          (place ++ [later.1]) ≠ some .directory := by
        intro later mem
        rw [find?_put t _ (isBase_of_find? unused)]
        by_cases same : place ++ [later.1] = place ++ [file]
        · rw [if_pos same]
          nofun
        · rw [if_neg same]
          exact free later (List.mem_cons_of_mem _ mem)
      obtain ⟨t', saved⟩ := ih (fun later mem => plain later (List.mem_cons_of_mem _ mem))
        (fun later mem => short later (List.mem_cons_of_mem _ mem))
        (fun later mem => pixels later (List.mem_cons_of_mem _ mem)) way' free'
      refine ⟨t', ?_⟩
      rw [saveIn, List.map_cons, saveAll, save_of_locateName located unused columns rows]
      exact saved

/-! ## Files -/

/-- Something stands at a place that is no directory. -/
def HasFile (t : Tree) (spot : Spot) : Prop := ∃ node, t.find? spot = some node ∧ node ≠ .directory

theorem not_hasFile_empty (spot : Spot) : ¬ empty.HasFile spot := by
  rintro ⟨node, stands, other⟩
  rw [find?] at stands
  by_cases base : spot.isBase = true
  · rw [if_pos base] at stands
    exact other (Option.some.inj stands).symm
  · rw [if_neg base] at stands
    cases stands

/-- Directories are no files. -/
theorem Grows.hasFile_iff (grows : t.Grows t') (spot : Spot) :
    t'.HasFile spot ↔ t.HasFile spot := by
  rcases grows spot with same | ⟨free, made⟩
  · rw [HasFile, HasFile, same]
  · rw [HasFile, HasFile, free, made]
    constructor
    · rintro ⟨node, stands, other⟩
      exact absurd (Option.some.inj stands).symm other
    · rintro ⟨node, stands, -⟩
      cases stands

theorem exists_of_lastAt {place spot : Spot} {pictures : List (String × Raster)} {node : Node}
    (h : lastAt place spot pictures = some node) :
    ∃ picture ∈ pictures, spot = place ++ [picture.1] ∧ node = .picture picture.2 := by
  obtain ⟨picture, last, rfl⟩ := Option.map_eq_some_iff.mp h
  obtain ⟨mem, there⟩ := List.mem_filter.mp (List.mem_of_getLast? last)
  exact ⟨picture, mem, (of_decide_eq_true there).symm, rfl⟩

theorem lastAt_eq_none_iff {place spot : Spot} {pictures : List (String × Raster)} :
    lastAt place spot pictures = none ↔ ∀ picture ∈ pictures, spot ≠ place ++ [picture.1] := by
  rw [lastAt, Option.map_eq_none_iff, List.getLast?_eq_none_iff, List.filter_eq_nil_iff]
  refine forall₂_congr fun picture _ => ?_
  rw [decide_eq_true_eq]
  exact not_congr eq_comm

/-- The files after pictures were saved are theirs and those that were there. -/
theorem hasFile_saveIn_iff {place : Spot} {pictures : List (String × Raster)}
    (stands : ∀ spot, t'.find? spot = (lastAt place spot pictures).or (t.find? spot))
    (spot : Spot) :
    t'.HasFile spot ↔ (∃ picture ∈ pictures, spot = place ++ [picture.1]) ∨ t.HasFile spot := by
  rw [HasFile, stands]
  cases last : lastAt place spot pictures with
  | none =>
      have apart := lastAt_eq_none_iff.mp last
      rw [Option.none_or]
      exact ⟨.inr, fun h => h.resolve_left fun ⟨picture, mem, there⟩ => apart picture mem there⟩
  | some node =>
      obtain ⟨picture, mem, there, rfl⟩ := exists_of_lastAt last
      rw [Option.some_or]
      exact ⟨fun _ => .inl ⟨picture, mem, there⟩, fun _ => ⟨_, rfl, nofun⟩⟩

end PenDrawing.Files.Tree
