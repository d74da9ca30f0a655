import PenDrawing.Proofs.CommandLine.Arguments
import PenDrawing.Proofs.CommandLine.Performed
import PenDrawing.Proofs.Listing.RoundTrip
import PenDrawing.Proofs.Surface.Order
import Mathlib.Data.Finset.Card
import Mathlib.Data.Set.Card

/-!
# The files of the pictures

The picture of a drawing is named for what the drawing is attached to, so two drawings have one file
exactly if they are attached to the same (`pictureFile_inj`).  The route:

* a run that goes well has made its directory, has read every entry and has saved every picture
  (`exists_of_run_pictures`);
* of the pictures of one name the last one stays (`Files.Tree.find?_saveIn`), so the files are as
  many as there are kinds of drawings, which may be fewer than the run says (`run_pictures`).
-/

namespace PenDrawing

namespace Listing

/-- The letter that the name of a kind begins with. -/
def Kind.initial : Kind → Char
  | .comment _ => 'c'
  | .label _ => 'l'
  | .bare _ => 'p'

theorem Kind.head?_name (kind : Kind) : kind.name.toList.head? = some kind.initial := by
  cases kind <;> simp only [name, String.toList_append] <;> rfl

/-- Numbers are told apart by their digits. -/
theorem eq_of_repr {m n : Nat} (h : m.repr = n.repr) : m = n := by
  have digits : Nat.toDigits 10 m = Nat.toDigits 10 n := by
    rw [← Nat.toList_repr, ← Nat.toList_repr, h]
  have value := Text.value?_toDigits m
  rw [digits, Text.value?_toDigits] at value
  exact (Option.some.inj value).symm

/-- Kinds are told apart by their names. -/
theorem Kind.name_inj {a b : Kind} (h : a.name = b.name) : a = b := by
  have first : a.initial = b.initial := by
    rw [← Option.some_inj, ← head?_name, ← head?_name, h]
  cases a with
  | comment m =>
      cases b with
      | comment n => rw [eq_of_repr ((String.append_right_inj _).mp h)]
      | label n => exact absurd (show 'c' = 'l' from first) (by decide)
      | bare n => exact absurd (show 'c' = 'p' from first) (by decide)
  | label m =>
      cases b with
      | comment n => exact absurd (show 'l' = 'c' from first) (by decide)
      | label n => rw [eq_of_repr ((String.append_right_inj _).mp h)]
      | bare n => exact absurd (show 'l' = 'p' from first) (by decide)
  | bare m =>
      cases b with
      | comment n => exact absurd (show 'p' = 'c' from first) (by decide)
      | label n => exact absurd (show 'p' = 'l' from first) (by decide)
      | bare n => rw [eq_of_repr ((String.append_right_inj _).mp h)]

/-- No name of a kind leads into a directory. -/
theorem Kind.slash_not_mem_name (kind : Kind) : '/' ∉ kind.name.toList := by
  have digits : ∀ n : Nat, '/' ∉ n.repr.toList := by
    intro n
    rw [Nat.toList_repr]
    exact fun slash => absurd (Text.isAsciiDigit_of_mem_toDigits slash) (by decide)
  have word : ∀ (front : String) (n : Nat), '/' ∉ front.toList →
      '/' ∉ (front ++ n.repr).toList := by
    intro front n none
    rw [String.toList_append, List.mem_append]
    exact not_or.mpr ⟨none, digits n⟩
  cases kind with
  | comment n => exact word "comment-" n (by decide)
  | label n => exact word "label-" n (by decide)
  | bare n => exact word "program-" n (by decide)

end Listing

namespace CommandLine

open Files (Tree)

/-! ## Names -/

/-- The file of a picture, in its directory. -/
def pictureFile (stem : String) (kind : Listing.Kind) : String := s!"{stem}-{kind.name}.png"

/-- Drawings have one file only if they are attached to the same. -/
theorem pictureFile_inj {stem : String} {a b : Listing.Kind}
    (h : pictureFile stem a = pictureFile stem b) : a = b := by
  have front := (String.append_left_inj _).mp h
  exact Listing.Kind.name_inj ((String.append_right_inj _).mp front)

/-- The stem of a listing leads into no directory. -/
theorem slash_not_mem_pictureStem (listing : String) : '/' ∉ (pictureStem listing).toList := by
  rw [pictureStem]
  cases stem : Files.stem? listing with
  | none => decide
  | some stem => exact Files.slash_not_mem_of_stem? ‹_›

theorem getLast?_pictureFile (stem : String) (kind : Listing.Kind) :
    (pictureFile stem kind).toList.getLast? = some 'g' := by
  rw [pictureFile, String.toList_append, List.getLast?_append]
  rfl

/-- The file of a picture is one part of a way, and no step up or in place. -/
theorem isPlain_pictureFile (listing : String) (kind : Listing.Kind) :
    Files.IsPlain (pictureFile (pictureStem listing) kind) := by
  have last := getLast?_pictureFile (pictureStem listing) kind
  have other : ∀ text : String, text.toList.getLast? ≠ some 'g' →
      pictureFile (pictureStem listing) kind ≠ text := by
    intro text ends same
    exact ends (same ▸ last)
  refine ⟨other "" (by decide), ?_, other "." (by decide), other ".." (by decide)⟩
  intro slash
  simp only [pictureFile, String.toList_append, List.mem_append] at slash
  rcases slash with ((stem | dash) | name) | ending
  · exact slash_not_mem_pictureStem listing stem
  · exact absurd dash (by decide)
  · exact kind.slash_not_mem_name name
  · exact absurd ending (by decide)

/-! ## Runs that go well -/

/-- A script that saves pictures comes out as its listing does. -/
theorem outcome_pictures (directory stem : String) (r : Renderer Picture)
    (entries : List Listing.Entry) :
    (pictures directory stem r entries).outcome = outcomeOf entries := by
  induction entries generalizing r with
  | nil => rfl
  | cons entry rest ih =>
      cases decoded : entry.decode with
      | error cause =>
          obtain ⟨notes, read, -⟩ := exists_notes decoded
          rw [pictures, read, outcomeOf_of_error rest decoded]
      | ok path =>
          obtain ⟨notes, read, -⟩ := exists_notes decoded
          rw [pictures, read, outcomeOf_of_ok rest decoded]
          dsimp only
          cases path.isEmpty with
          | true =>
              rw [if_pos rfl, if_pos rfl, Script.after, ih]
              rfl
          | false =>
              rw [if_neg Bool.false_ne_true, if_neg Bool.false_ne_true, Script.after, ih]
              rfl

/-- The drawings of a listing that have points. -/
def shown (entries : List Listing.Entry) : List (Listing.Kind × Path) :=
  (drawings entries).filter (!·.2.isEmpty)

/-- The number that a listing comes out as is that of its drawings with points. -/
theorem eq_length_shown {entries : List Listing.Entry} {drawn : Nat}
    (h : outcomeOf entries = .ok drawn) : drawn = (shown entries).length := by
  rw [outcomeOf] at h
  cases failed : entries.findSome? failure? with
  | some cause =>
      rw [failed] at h
      cases h
  | none =>
      rw [failed] at h
      rw [shown, ← List.countP_eq_length_filter]
      exact (Except.ok.inj h).symm

/-- The new renderer that a run begins with. -/
def freshRenderer (settings : Settings) (speed : Speed) : Renderer Picture :=
  ⟨.blank settings.output.width settings.output.height settings.style, speed,
    settings.style.dotSize⟩

/-- The drawings with points, each with the file and the picture that is saved of it. -/
def shownFiles (stem : String) (fresh : Renderer Picture) (entries : List Listing.Entry) :
    List (String × Raster) :=
  (shown entries).map fun drawing =>
    (pictureFile stem drawing.1, (fresh.render drawing.2).surface.raster)

theorem eq_ok_of_mapError {ε ε' α : Type} {result : Except ε α} {f : ε → ε'} {a : α}
    (h : result.mapError f = .ok a) : result = .ok a := by
  cases result with
  | error cause => cases h
  | ok b => exact congrArg Except.ok (Except.ok.inj h)

/-- What a script of pictures does: they are saved one after another, up to the first that cannot be
saved. -/
theorem exists_run_script (settings : Settings) (speed : Speed) (listing directory : String)
    (entries : List Listing.Entry) (stage : Stage) (debug : Bool) :
    let saved := stage.tree.saveIn directory
      (shownFiles (pictureStem listing) (freshRenderer settings speed) entries)
    ∃ lines, (runScript debug (pictures directory (pictureStem listing)
        (freshRenderer settings speed) entries) : Step Rehearsal Nat).run.run stage =
      (saved.2.mapError .picture >>= fun _ => (outcomeOf entries).mapError .entry,
        ⟨saved.1, stage.installed, lines⟩) := by
  have named : stage.tree.saveAll (saves (pictures directory (pictureStem listing)
      (freshRenderer settings speed) entries).actions) = stage.tree.saveIn directory
      (shownFiles (pictureStem listing) (freshRenderer settings speed) entries) := by
    rw [Tree.saveIn, shownFiles, List.map_map]
    exact congrArg stage.tree.saveAll
      (saves_pictures directory (pictureStem listing) speed (Picture.clean_blank _ _ _) entries)
  obtain ⟨lines, performed, -⟩ := exists_of_perform debug
    (pictures directory (pictureStem listing) (freshRenderer settings speed) entries).actions stage
  refine ⟨lines, ?_⟩
  rw [run_runScript, performed, named, outcome_pictures]
  rcases stage.tree.saveIn directory _ with ⟨tree, _ | _⟩ <;> rfl

section

variable {a : Arguments} {settings : Settings} {speed : Speed} {listing directory : String}
  {entries : List Listing.Entry} {stage after : Stage} {drawn : Nat}

/-- A run that goes well has made its directory, read all entries and saved all pictures. -/
theorem exists_of_run_pictures (png : a.png = some directory)
    (ran : (drawEntries a settings speed listing entries : Step Rehearsal Nat).run.run stage =
      (.ok drawn, after)) :
    ∃ made, stage.tree.makeDirectories directory = (made, .ok ()) ∧
      outcomeOf entries = .ok drawn ∧
      made.saveIn directory
        (shownFiles (pictureStem listing) (freshRenderer settings speed) entries) =
        (after.tree, .ok ()) := by
  rw [run_drawEntries_of_some settings speed listing entries stage png] at ran
  rcases makes : stage.tree.makeDirectories directory with ⟨made, cause | _⟩
  · rw [makes] at ran
    cases (Prod.ext_iff.mp ran).1
  rw [makes] at ran
  dsimp only at ran
  cases scripted : script a settings speed listing entries with
  | error cause =>
      rw [scripted] at ran
      cases (Prod.ext_iff.mp ran).1
  | ok s =>
      have whole : s = pictures directory (pictureStem listing) (freshRenderer settings speed)
          entries := eq_pictures_of_script png scripted
      obtain ⟨lines, done⟩ := exists_run_script settings speed listing directory entries
        { stage with tree := made } a.debug
      rw [scripted, whole] at ran
      obtain ⟨came, rfl⟩ := Prod.ext_iff.mp (done.symm.trans ran)
      obtain ⟨_, saved, counted⟩ := exists_of_bind came
      exact ⟨made, rfl, eq_ok_of_mapError counted, Prod.ext rfl (eq_ok_of_mapError saved)⟩

/-- A run goes well if its directory can be made, its entries can be read and its pictures can be
saved. -/
theorem exists_run_of_saveIn (png : a.png = some directory) {made tree : Tree}
    (makes : stage.tree.makeDirectories directory = (made, .ok ()))
    (sized : Raster.checkSize settings.output.width settings.output.height = .ok ())
    (counts : outcomeOf entries = .ok drawn)
    (saved : made.saveIn directory
        (shownFiles (pictureStem listing) (freshRenderer settings speed) entries) =
      (tree, .ok ())) :
    ∃ lines, (drawEntries a settings speed listing entries : Step Rehearsal Nat).run.run stage =
      (.ok drawn, ⟨tree, stage.installed, lines⟩) := by
  have scripted : script a settings speed listing entries =
      .ok (pictures directory (pictureStem listing) (freshRenderer settings speed) entries) := by
    simp only [script, png, Picture.ofSize, sized]
    rfl
  obtain ⟨lines, done⟩ := exists_run_script settings speed listing directory entries
    { stage with tree := made } a.debug
  refine ⟨lines, ?_⟩
  rw [run_drawEntries_of_some settings speed listing entries stage png, makes, scripted]
  dsimp only at done ⊢
  rw [done, saved, counts]
  rfl

/-- All pictures of a run have plain names. -/
theorem isPlain_of_mem_shownFiles {fresh : Renderer Picture} :
    ∀ picture ∈ shownFiles (pictureStem listing) fresh entries, Files.IsPlain picture.1 := by
  intro picture mem
  obtain ⟨drawing, -, rfl⟩ := List.mem_map.mp mem
  exact isPlain_pictureFile listing drawing.1

/-- Pictures have the size that the settings ask for. -/
theorem size_of_mem_shownFiles {stem : String} :
    ∀ picture ∈ shownFiles stem (freshRenderer settings speed) entries,
      picture.2.width = settings.output.width ∧ picture.2.height = settings.output.height := by
  intro picture mem
  obtain ⟨drawing, -, rfl⟩ := List.mem_map.mp mem
  have blank := Picture.framed_blank settings.output.width settings.output.height settings.style
  have framed := framed_render (r := freshRenderer settings speed) blank drawing.2
  exact ⟨framed.width, framed.height⟩

/-- What is left of the drawings of one kind is the last of them. -/
theorem lastAt_shownFiles (stem : String) (fresh : Renderer Picture) (entries : List Listing.Entry)
    (place : Files.Spot) (kind : Listing.Kind) :
    Tree.lastAt place (place ++ [pictureFile stem kind]) (shownFiles stem fresh entries) =
      ((shown entries).filter (·.1 = kind)).getLast?.map fun drawing =>
        .picture (fresh.render drawing.2).surface.raster := by
  have same : ∀ drawing : Listing.Kind × Path,
      decide (place ++ [pictureFile stem drawing.1] = place ++ [pictureFile stem kind]) =
        decide (drawing.1 = kind) := by
    intro drawing
    refine decide_eq_decide.mpr ⟨fun h => ?_, fun h => by rw [h]⟩
    exact pictureFile_inj (List.cons.inj (List.append_cancel_left h)).1
  rw [Tree.lastAt, shownFiles, List.filter_map, List.getLast?_map, Option.map_map]
  refine congrArg (fun kept => Option.map _ (List.getLast? kept)) ?_
  exact List.filter_congr fun drawing _ => same drawing

/-- As many names as there are drawings: none of them is the name of two. -/
theorem ncard_pictureFiles_iff (stem : String) (kinds : List Listing.Kind) :
    {name | ∃ kind ∈ kinds, name = pictureFile stem kind}.ncard = kinds.length ↔ kinds.Nodup := by
  have names : {name | ∃ kind ∈ kinds, name = pictureFile stem kind} =
      ((kinds.map (pictureFile stem)).toFinset : Set String) := by
    ext name
    simp [eq_comm]
  have apart : (kinds.map (pictureFile stem)).Nodup ↔ kinds.Nodup :=
    List.nodup_map_iff fun _ _ => pictureFile_inj
  rw [names, Set.ncard_coe_finset, ← apart, ← List.length_map (pictureFile stem)]
  exact Multiset.toFinset_card_eq_card_iff_nodup

/-- Drawings are attached to what their entries are. -/
theorem sublist_kinds (entries : List Listing.Entry) :
    ((drawings entries).map Prod.fst).Sublist (entries.map Listing.Entry.kind) := by
  induction entries with
  | nil => exact .slnil
  | cons entry rest ih =>
      rw [drawings]
      cases entry.decode with
      | error cause => exact List.nil_sublist _
      | ok path => exact ih.cons_cons _

/-- The drawings of a bare listing are of different kinds. -/
theorem nodup_shown_of_not_occurs {source : List Char} (bare : ¬ Listing.Occurs source) :
    ((shown (Listing.entries source)).map Prod.fst).Nodup := by
  have numbered : ((Listing.entries source).map Listing.Entry.kind).Nodup := by
    rw [Listing.entries_of_not_occurs bare, Listing.kind_bareEntries]
    exact List.nodup_range.map fun _ _ => Listing.Kind.bare.inj
  exact (numbered.sublist (sublist_kinds _)).sublist (List.filter_sublist.map Prod.fst)

/-- What stands anywhere after a run: the last picture of its name, or what stood there when the
directory was made. -/
theorem exists_place_of_run {arguments : List String}
    (asked : Request.ofArguments arguments = .run a) (png : a.png = some directory)
    (ran : (drawEntries a settings speed listing entries : Step Rehearsal Nat).run.run stage =
      (.ok drawn, after)) :
    drawn = (shown entries).length ∧ ∃ made place, stage.tree.Grows made ∧
      after.tree.walk (Files.startOf directory) (Files.steps directory) = .ok place ∧
      ∀ spot, after.tree.find? spot =
        (Tree.lastAt place spot
          (shownFiles (pictureStem listing) (freshRenderer settings speed) entries)).or
          (made.find? spot) := by
  obtain ⟨made, makes, counted, saved⟩ := exists_of_run_pictures png ran
  have grows := stage.tree.grows_makeDirectories directory
  rw [makes] at grows
  obtain ⟨place, way⟩ := Tree.exists_walk_of_makeDirectories makes
  obtain ⟨stays, stands⟩ := Tree.find?_saveIn (png_ne_empty asked png)
    isPlain_of_mem_shownFiles way saved
  exact ⟨eq_length_shown counted, made, place, grows, stays, stands⟩

/-- The files in a directory that had none are those of the kinds of drawings. -/
theorem hasFile_iff_of_run {place : Files.Spot} {made : Tree} (grows : stage.tree.Grows made)
    (stands : ∀ spot, after.tree.find? spot =
      (Tree.lastAt place spot
        (shownFiles (pictureStem listing) (freshRenderer settings speed) entries)).or
        (made.find? spot))
    (empty : ∀ name, ¬ stage.tree.HasFile (place ++ [name])) (name : String) :
    after.tree.HasFile (place ++ [name]) ↔
      ∃ kind ∈ (shown entries).map Prod.fst, name = pictureFile (pictureStem listing) kind := by
  -- making the directory adds no files, so all of them are pictures
  rw [Tree.hasFile_saveIn_iff stands, grows.hasFile_iff, or_iff_left (empty name)]
  constructor
  · rintro ⟨picture, mem, there⟩
    obtain ⟨drawing, drawn, rfl⟩ := List.mem_map.mp mem
    exact ⟨drawing.1, List.mem_map_of_mem drawn,
      (List.cons.inj (List.append_cancel_left there)).1⟩
  · rintro ⟨kind, mem, rfl⟩
    obtain ⟨drawing, drawn, rfl⟩ := List.mem_map.mp mem
    exact ⟨_, List.mem_map_of_mem drawn, rfl⟩

/-- **The pictures that a run leaves.**  Of the drawings of one kind the last one is there; in a
directory that had no files these are all, and they are as many as the run says exactly if no two
drawings are of one kind, which is so in a bare listing. -/
theorem run_pictures {arguments : List String} {source : List Char}
    (asked : Request.ofArguments arguments = .run a) (png : a.png = some directory)
    (ran : (drawEntries a settings speed listing (Listing.entries source) :
      Step Rehearsal Nat).run.run stage = (.ok drawn, after)) :
    let drawings := shown (Listing.entries source)
    let kinds := drawings.map Prod.fst
    let file := pictureFile (pictureStem listing)
    let fresh := freshRenderer settings speed
    drawn = drawings.length ∧
    ∃ place, after.tree.walk (Files.startOf directory) (Files.steps directory) = .ok place ∧
      (∀ kind path, (drawings.filter (·.1 = kind)).getLast? = some (kind, path) →
        after.tree.find? (place ++ [file kind]) =
          some (.picture (fresh.render path).surface.raster)) ∧
      ((∀ name, ¬ stage.tree.HasFile (place ++ [name])) →
        (∀ name, after.tree.HasFile (place ++ [name]) ↔ ∃ kind ∈ kinds, name = file kind) ∧
        ({name | after.tree.HasFile (place ++ [name])}.ncard = drawn ↔ kinds.Nodup)) ∧
      (¬ Listing.Occurs source → kinds.Nodup) := by
  intro drawings kinds file fresh
  obtain ⟨drew, made, place, grows, way, stands⟩ := exists_place_of_run asked png ran
  refine ⟨drew, place, way, ?_, ?_, nodup_shown_of_not_occurs⟩
  · intro kind path last
    rw [stands, lastAt_shownFiles, last]
    rfl
  · intro empty
    have files := hasFile_iff_of_run grows stands empty
    refine ⟨files, ?_⟩
    have all : {name | after.tree.HasFile (place ++ [name])} =
        {name | ∃ kind ∈ kinds, name = file kind} := Set.ext files
    rw [all, drew, ← List.length_map Prod.fst]
    exact ncard_pictureFiles_iff _ kinds

end

/-! ## Two drawings of one kind -/

/-- Two drawings, both for the first comment. -/
def twoComments : List Listing.ExportedDrawing :=
  [⟨.comment, 1, ⟨[⟨100, 250⟩]⟩, fun _ => [], []⟩, ⟨.comment, 1, ⟨[⟨300, 4⟩]⟩, fun _ => [], []⟩]

/-- Pictures are asked for, in a directory. -/
def intoDirectory : Arguments :=
  { Arguments.none with program := some "drawing.txt", png := some "out" }

/-- The two drawings are read back. -/
theorem exists_source_twoComments :
    ∃ source, Listing.exportedSource Zlib.store twoComments = .ok source ∧
      outcomeOf (Listing.entries source) = .ok 2 ∧
      shown (Listing.entries source) =
        [(.comment 1, ⟨[⟨100, 250⟩]⟩), (.comment 1, ⟨[⟨300, 4⟩]⟩)] := by
  obtain ⟨source, made, all, none⟩ := exists_listing_of_lines
    [(.comment, 1, ⟨[⟨100, 250⟩]⟩), (.comment, 1, ⟨[⟨300, 4⟩]⟩)]
    (List.cons_ne_nil _ _) (by decide)
  refine ⟨source, made, ?_, ?_⟩
  · rw [outcomeOf, none, all]
    rfl
  · rw [shown, all]
    rfl

/-- Both pictures are saved, under one name. -/
theorem exists_run_twoComments :
    ∃ source after, Listing.exportedSource Zlib.store twoComments = .ok source ∧
      shown (Listing.entries source) =
        [(.comment 1, ⟨[⟨100, 250⟩]⟩), (.comment 1, ⟨[⟨300, 4⟩]⟩)] ∧
      (drawEntries intoDirectory .standard .fastest "drawing.txt" (Listing.entries source) :
        Step Rehearsal Nat).run.run ⟨.empty, none, #[]⟩ = (.ok 2, after) := by
  obtain ⟨source, written, counts, both⟩ := exists_source_twoComments
  have makes : Tree.empty.makeDirectories "out" = (⟨[(["out"], .directory)]⟩, .ok ()) := by
    rw [Tree.makeDirectories, if_neg (by decide), Tree.makeAll, dif_neg (by decide)]
    rfl
  have way : (⟨[(["out"], .directory)]⟩ : Tree).walk (Files.startOf "out") (Files.steps "out") =
      .ok ["out"] := rfl
  have named : ∀ picture ∈ shownFiles (pictureStem "drawing.txt")
      (freshRenderer .standard .fastest) (Listing.entries source),
      picture.1 = "drawing-comment-1.png" := by
    intro picture mem
    rw [shownFiles, both] at mem
    simp only [List.map_cons, List.map_nil, List.mem_cons, List.not_mem_nil, or_false] at mem
    rcases mem with rfl | rfl <;> rfl
  obtain ⟨tree, saved⟩ := Tree.exists_saveIn (by decide) isPlain_of_mem_shownFiles
    (fun picture mem => by rw [named picture mem]; decide)
    (fun picture mem => by
      obtain ⟨columns, rows⟩ := size_of_mem_shownFiles picture mem
      rw [columns, rows]
      decide)
    way (fun picture mem => by
      rw [named picture mem]
      exact (Option.some_ne_none _).symm)
  have ran : ∃ lines, (drawEntries intoDirectory .standard .fastest "drawing.txt"
      (Listing.entries source) : Step Rehearsal Nat).run.run ⟨.empty, none, #[]⟩ =
        (.ok 2, ⟨tree, none, lines⟩) :=
    exists_run_of_saveIn rfl makes rfl counts saved
  obtain ⟨lines, ran⟩ := ran
  exact ⟨source, _, written, both, ran⟩

/-- Two drawings for the first comment: the run says that it has shown two, and in its directory,
where nothing was, there is one file. -/
theorem one_file_of_twoComments :
    ∃ source after place, Listing.exportedSource Zlib.store twoComments = .ok source ∧
      (drawEntries intoDirectory .standard .fastest "drawing.txt" (Listing.entries source) :
        Step Rehearsal Nat).run.run ⟨.empty, none, #[]⟩ = (.ok 2, after) ∧
      after.tree.walk (Files.startOf "out") (Files.steps "out") = .ok place ∧
      (∀ name, ¬ Tree.empty.HasFile (place ++ [name])) ∧
      {name | after.tree.HasFile (place ++ [name])} = {"drawing-comment-1.png"} := by
  obtain ⟨source, after, made, both, ran⟩ := exists_run_twoComments
  obtain ⟨-, _, place, grows, way, stands⟩ := exists_place_of_run
    (show Request.ofArguments ["--png", "out", "drawing.txt"] = .run intoDirectory from rfl) rfl ran
  have empty : ∀ name, ¬ Tree.empty.HasFile (place ++ [name]) :=
    fun name => Tree.not_hasFile_empty (place ++ [name])
  refine ⟨source, after, place, made, ran, way, empty, ?_⟩
  refine Set.ext fun name => ?_
  show after.tree.HasFile (place ++ [name]) ↔ name = "drawing-comment-1.png"
  rw [hasFile_iff_of_run grows stands empty, both]
  simp only [List.map_cons, List.map_nil, List.mem_cons, List.not_mem_nil, or_false, or_self,
    exists_eq_left]
  rfl

/-- Of two drawings for the first comment the second one is the picture, and the first one is
lost. -/
theorem run_pictures_twoComments :
    Request.ofArguments ["--png", "out", "drawing.txt"] = .run intoDirectory ∧
    intoDirectory.png = some "out" ∧
    ∃ source after place, Listing.exportedSource Zlib.store twoComments = .ok source ∧
      (drawEntries intoDirectory .standard .fastest "drawing.txt" (Listing.entries source) :
        Step Rehearsal Nat).run.run ⟨.empty, none, #[]⟩ = (.ok 2, after) ∧
      after.tree.find? (place ++ ["drawing-comment-1.png"]) = some
        (.picture ((freshRenderer .standard .fastest).render ⟨[⟨300, 4⟩]⟩).surface.raster) ∧
      (∀ name, ¬ Tree.empty.HasFile (place ++ [name])) ∧
      {name | after.tree.HasFile (place ++ [name])}.ncard ≠ 2 := by
  refine ⟨rfl, rfl, ?_⟩
  obtain ⟨source, after, written, both, ran⟩ := exists_run_twoComments
  have asked : Request.ofArguments ["--png", "out", "drawing.txt"] = .run intoDirectory := rfl
  obtain ⟨-, place, -, last, files, -⟩ := run_pictures asked rfl ran
  have empty : ∀ name, ¬ Tree.empty.HasFile (place ++ [name]) :=
    fun name => Tree.not_hasFile_empty (place ++ [name])
  refine ⟨source, after, place, written, ran, ?_, empty, ?_⟩
  · refine last (.comment 1) ⟨[⟨300, 4⟩]⟩ ?_
    rw [both]
    rfl
  · intro two
    have apart := (files empty).2.mp two
    rw [both] at apart
    exact absurd apart (by decide)

end CommandLine

end PenDrawing
