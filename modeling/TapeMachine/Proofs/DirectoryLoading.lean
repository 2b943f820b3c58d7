import Mathlib.Data.List.Sort
import TapeMachine.Proofs.TableGrammar
import TapeMachine.Proofs.TreePaths

/-!
# Loading a directory

A directory is loaded file by file: the plain files with the extension of programs
(`Loader.mem_programFiles`) in the order of the bytes of their names
(`Loader.pairwise_programFiles`). What a file gives depends on its path and bytes and not on the
files loaded before it (`Loader.loadPrograms_result`). So a directory has one result, in whatever
order its items are listed, and another file with a given name, or none, changes no other part of
the result (`Loader.loadPrograms_each_by_itself`).
-/

namespace TapeMachine

namespace Loader

variable {items items' : List DirectoryItem} {f g : FileName × List UInt8}

/-! ## The programs of a directory -/

/-- An extension has no point, and follows the last point of a name that something stands before. -/
theorem extension?_eq_some_iff {name : FileName} {ext : List UInt8} :
    extension? name = some ext ↔ point ∉ ext ∧ ∃ stem, stem ≠ [] ∧ name = stem ++ point :: ext := by
  unfold extension?
  dsimp only
  constructor
  · intro h
    split at h
    next b c rest hdrop =>
      obtain rfl := Option.some.inj h
      obtain rfl : b = point := by
        have hpoint := List.head?_dropWhile_not (· ≠ point) name.reverse
        rw [hdrop] at hpoint
        exact of_not_not (of_decide_eq_false hpoint)
      refine ⟨fun hmem => ?_, rest.reverse ++ [c], by simp, ?_⟩
      · simpa using List.mem_takeWhile_imp (List.mem_reverse.1 hmem)
      · have hname : name.reverse = _ := (List.takeWhile_append_dropWhile (p := (· ≠ point))).symm
        rw [hdrop] at hname
        exact (List.reverse_eq_iff.1 hname).trans (by simp)
    next => cases h
  · rintro ⟨hext, stem, hstem, rfl⟩
    have hpos : ∀ b ∈ ext.reverse, decide (b ≠ point) = true := fun b hb =>
      decide_eq_true fun hpoint => hext (hpoint ▸ List.mem_reverse.1 hb)
    obtain ⟨b, rest, hrev⟩ := List.exists_cons_of_ne_nil (mt List.reverse_eq_nil_iff.1 hstem)
    have hreverse : (stem ++ point :: ext).reverse = ext.reverse ++ point :: b :: rest := by
      rw [List.reverse_append, List.reverse_cons, hrev, List.append_assoc, List.singleton_append]
    rw [hreverse, List.takeWhile_append_of_pos hpos, List.dropWhile_append_of_pos hpos]
    simp

/-- The name of a program: something, and then `.tur`. -/
def IsProgramName (name : FileName) : Prop :=
  ∃ stem, stem ≠ [] ∧ name = stem ++ FileName.ofString ".tur"

/-- A plain file of this name and with these bytes is among the items, and has the name of a
program. -/
def IsProgram (items : List DirectoryItem) (f : FileName × List UInt8) : Prop :=
  ⟨f.1, some f.2⟩ ∈ items ∧ IsProgramName f.1

theorem extension?_eq_program_iff {name : FileName} :
    extension? name = some programExtension ↔ IsProgramName name :=
  extension?_eq_some_iff.trans (and_iff_right (by decide))

theorem IsProgramName.isItemName {name : FileName} (h : IsProgramName name)
    (hsingle : Path.separator ∉ name) : FileTree.IsItemName name := by
  obtain ⟨stem, -, rfl⟩ := h
  have hlast : (stem ++ FileName.ofString ".tur").getLast? = some 0x72 :=
    List.getLast?_append_of_ne_nil _ (by decide)
  refine ⟨fun h => ?_, fun h => ?_, fun h => ?_, hsingle⟩
  all_goals
    rw [h] at hlast
    revert hlast
    decide

/-- An item is made a program if it is a plain file with the extension. -/
theorem programFile_eq_some_iff {item : DirectoryItem} :
    (item.content.bind fun bytes =>
      if extension? item.name = some programExtension then some (item.name, bytes)
      else none) = some f ↔
    item = ⟨f.1, some f.2⟩ ∧ IsProgramName f.1 := by
  obtain ⟨name, bytes⟩ := f
  rw [← extension?_eq_program_iff]
  constructor
  · intro h
    obtain ⟨bytes', hcontent, h⟩ := Option.bind_eq_some_iff.1 h
    obtain ⟨hext, h⟩ := Option.ite_none_right_eq_some.1 h
    obtain ⟨rfl, rfl⟩ := Prod.mk.inj (Option.some.inj h)
    exact ⟨by rw [← hcontent], hext⟩
  · rintro ⟨rfl, hext⟩
    exact if_pos hext

theorem mem_programFiles : f ∈ programFiles items ↔ IsProgram items f := by
  simp only [programFiles, List.mem_mergeSort, List.mem_filterMap, programFile_eq_some_iff,
    IsProgram, ← and_assoc, exists_and_right, exists_eq_right]

/-- The order of names, by their bytes. -/
def ByName (f g : FileName × List UInt8) : Prop :=
  f.1 < g.1

instance : Std.Irrefl ByName :=
  ⟨fun f => List.lt_irrefl f.1⟩

instance : Std.Antisymm ByName :=
  ⟨fun _ _ h h' => absurd h (List.lt_asymm h')⟩

theorem pairwise_programFiles (distinct : (items.map DirectoryItem.name).Nodup) :
    (programFiles items).Pairwise ByName := by
  have hsorted : (programFiles items).Pairwise fun f g => decide (f.1 ≤ g.1) := by
    refine List.pairwise_mergeSort (fun f g k hfg hgk => ?_) (fun f g => ?_) _
    · exact decide_eq_true (List.le_trans (of_decide_eq_true hfg) (of_decide_eq_true hgk))
    · rw [Bool.or_eq_true, decide_eq_true_eq, decide_eq_true_eq]
      exact List.le_total f.1 g.1
  have hne : (programFiles items).Pairwise fun f g => f.1 ≠ g.1 := by
    refine ((List.mergeSort_perm _ _).pairwise_iff fun h => h.symm).2 ?_
    refine (List.pairwise_map.1 distinct).filterMap _ fun a a' ha f hf g hg => ?_
    obtain ⟨rfl, -⟩ := programFile_eq_some_iff.1 hf
    obtain ⟨rfl, -⟩ := programFile_eq_some_iff.1 hg
    exact ha
  exact hsorted.imp₂ (fun f g hle hne => Std.lt_of_le_of_ne (of_decide_eq_true hle) hne) hne

/-- Of the items of a directory one is a plain file of a given name at most. -/
theorem IsProgram.bytes_eq {name : FileName} {bytes bytes' : List UInt8}
    (distinct : (items.map DirectoryItem.name).Nodup)
    (h : IsProgram items (name, bytes)) (h' : IsProgram items (name, bytes')) : bytes = bytes' := by
  have heq := List.inj_on_of_nodup_map distinct h.1 h'.1 rfl
  exact Option.some.inj (congrArg DirectoryItem.content heq)

/-- A list in the order of names is cut in three by a name. -/
theorem eq_cut {files : List (FileName × List UInt8)} (h : files.Pairwise ByName)
    (name : FileName) :
    files = files.filter (·.1 < name) ++ files.filter (·.1 = name) ++
      files.filter (name < ·.1) := by
  refine h.eq_of_mem_iff ?_ fun f => ?_
  · simp only [List.pairwise_append, h.filter, List.mem_append, List.mem_filter, decide_eq_true_eq,
      true_and]
    refine ⟨fun f hf g hg => ?_, fun f hf g hg => ?_⟩
    · rw [ByName, hg.2]
      exact hf.2
    · obtain ⟨-, hf⟩ | ⟨-, hf⟩ := hf
      · exact List.lt_trans hf hg.2
      · rw [ByName, hf]
        exact hg.2
  · simp only [List.mem_append, List.mem_filter, decide_eq_true_eq, ← and_or_left, or_assoc,
      Std.lt_trichotomy, and_true]

/-! ## One result for each program -/

/-- If the result of each action is a function of what it is for, the results of all are those of a
map, whatever the actions do to the state. -/
theorem mapM_result {σ α β : Type} {act : α → StateM σ β} {f : α → β}
    (h : ∀ a s, ((act a).run s).1 = f a) (as : List α) (s : σ) :
    ((as.mapM act).run s).1 = as.map f := by
  induction as generalizing s with
  | nil => rfl
  | cons a as ih =>
    rw [List.mapM_cons]
    change ((act a).run s).1 :: ((as.mapM act).run ((act a).run s).2).1 = _
    rw [h, ih, List.map_cons]

/-- What loading the program at a path gives, with the path. -/
def attempt (path : Path) (found : Access) (j : Journal) : Except Error (Path × Program) :=
  ((loadProgram path found false).run j).1.map (path, ·)

/-- What a file gives does not depend on the journal. -/
theorem attempt_file (path : Path) (bytes : List UInt8) (j j' : Journal) :
    attempt path (.file bytes) j = attempt path (.file bytes) j' := by
  have hresult : ∀ j, attempt path (.file bytes) j =
      ((Table.outcome
        (Table.findings (Delivery.withCancel false (Delivery.ofBytes bytes)))).mapError
          (blame path)).map (path, ·) := fun j => by
    rw [← Table.read_result _ j]
    rfl
  rw [hresult, hresult]

theorem loadFile_result (path : Path) (bytes : List UInt8) (j : Journal) :
    ((loadFile path bytes).run j).1 = attempt path (.file bytes) j := by
  unfold loadFile attempt
  generalize (loadProgram path (.file bytes) false).run = load
  rw [StateT.run_bind, StateT.run]
  obtain ⟨r, j'⟩ := load j
  cases r <;> rfl

theorem loadPrograms_result (path : Path) (items : List DirectoryItem) (j j' : Journal) :
    ((loadPrograms path (.directory items)).run j).1 =
      (programFiles items).map fun f => attempt (path.join f.1) (.file f.2) j' :=
  mapM_result (fun _ s => (loadFile_result _ _ s).trans (attempt_file _ _ s j')) _ j

/-! ## Listings -/

/-- A listing of the directory at a path of a file system: its items in any order. Their names are
distinct, and no paths of several names. -/
structure Listing (system : FileSystem) (path : Path) (items : List DirectoryItem) : Prop where
  stored : ∃ stored, system.access path = .directory stored ∧ items.Perm stored
  distinct : (items.map DirectoryItem.name).Nodup
  single : ∀ item ∈ items, Path.separator ∉ item.name

theorem Listing.access_program {system : FileSystem} {path : Path}
    (listing : Listing system path items) (h : IsProgram items f) :
    system.access (path.join f.1) = .file f.2 := by
  obtain ⟨hitem, hname⟩ := h
  obtain ⟨stored, hstored, hperm⟩ := listing.stored
  exact FileSystem.access_join hstored (hname.isItemName (listing.single _ hitem))
    ((hperm.map _).nodup listing.distinct) (hperm.subset hitem)

/-- What the item of a name adds to the result for its directory. -/
inductive Share (path : Path) (items : List DirectoryItem) (name : FileName) :
    List (Except Error (Path × Program)) → Prop
  | nothing (h : ∀ bytes, ¬IsProgram items (name, bytes)) : Share path items name []
  | program {bytes : List UInt8} {result : Except Error (Path × Program)}
    (h : IsProgram items (name, bytes))
    (hresult : ∀ j, attempt (path.join name) (.file bytes) j = result) :
    Share path items name [result]

theorem share_filter (distinct : (items.map DirectoryItem.name).Nodup) (path : Path)
    (name : FileName) (j : Journal) :
    Share path items name
      (((programFiles items).filter (·.1 = name)).map fun f =>
        attempt (path.join f.1) (.file f.2) j) := by
  by_cases hsome : ∃ bytes, IsProgram items (name, bytes)
  · obtain ⟨bytes, h⟩ := hsome
    have hfilter : (programFiles items).filter (·.1 = name) = [(name, bytes)] := by
      refine ((pairwise_programFiles distinct).filter _).eq_of_mem_iff
        (List.pairwise_singleton ..) fun ⟨other, bytes'⟩ => ?_
      simp only [List.mem_filter, mem_programFiles, decide_eq_true_eq, List.mem_singleton,
        Prod.mk.injEq]
      constructor
      · rintro ⟨h', rfl⟩
        exact ⟨rfl, h'.bytes_eq distinct h⟩
      · rintro ⟨rfl, rfl⟩
        exact ⟨h, rfl⟩
    rw [hfilter]
    exact .program h fun j' => attempt_file ..
  · have hfilter : (programFiles items).filter (·.1 = name) = [] := by
      refine List.filter_eq_nil_iff.2 fun f hf hname => hsome ⟨f.2, ?_⟩
      rw [← of_decide_eq_true hname]
      exact mem_programFiles.1 hf
    rw [hfilter]
    exact .nothing (not_exists.1 hsome)

/-- Directories that have the programs of some names in common have them in the same order. -/
theorem filter_programFiles_eq (distinct : (items.map DirectoryItem.name).Nodup)
    (distinct' : (items'.map DirectoryItem.name).Nodup) {p : FileName × List UInt8 → Bool}
    (h : ∀ f, p f → (IsProgram items f ↔ IsProgram items' f)) :
    (programFiles items).filter p = (programFiles items').filter p := by
  refine ((pairwise_programFiles distinct).filter _).eq_of_mem_iff
    ((pairwise_programFiles distinct').filter _) fun f => ?_
  simp only [List.mem_filter, mem_programFiles]
  exact and_congr_left (h f)

/-- The result for a directory is cut in three by a name: what comes before it, its share, and what
comes after it. -/
theorem loadPrograms_cut (distinct : (items.map DirectoryItem.name).Nodup) (path : Path)
    (name : FileName) (j j' : Journal) :
    let element := fun f : FileName × List UInt8 => attempt (path.join f.1) (.file f.2) j'
    ((loadPrograms path (.directory items)).run j).1 =
      ((programFiles items).filter (·.1 < name)).map element ++
        ((programFiles items).filter (·.1 = name)).map element ++
        ((programFiles items).filter (name < ·.1)).map element := by
  intro element
  rw [loadPrograms_result path items j j', ← List.map_append, ← List.map_append,
    ← eq_cut (pairwise_programFiles distinct) name]

/-- Every program of a directory is loaded by itself. The plain files with the extension of
programs, in the order of the bytes of their names, have one element of the result each: what
loading the program at the path of the file gives, with the path, where nothing but that path and
the bytes of the file counts. In whatever order the directory lists its items, the result is the
same; and where another directory has all items but the one of some name in common with this one,
the results differ in nothing but the share of that name. -/
theorem loadPrograms_each_by_itself {system : FileSystem} {path : Path}
    (listing : Listing system path items) (j : Journal) :
    let result := ((loadPrograms path (.directory items)).run j).1
    (∃ files : List (FileName × List UInt8),
      files.Pairwise (fun f g => f.1 < g.1) ∧
      (∀ f, f ∈ files ↔ IsProgram items f) ∧
      (∀ f ∈ files, system.access (path.join f.1) = .file f.2) ∧
      ∀ j', result = files.map fun f => attempt (path.join f.1) (.file f.2) j') ∧
    (∀ items' j', items'.Perm items →
      ((loadPrograms path (.directory items')).run j').1 = result) ∧
    ∀ items' j' name, (items'.map DirectoryItem.name).Nodup →
      (∀ item, item.name ≠ name → (item ∈ items ↔ item ∈ items')) →
      ∃ before own own' after,
        result = before ++ own ++ after ∧ Share path items name own ∧
        ((loadPrograms path (.directory items')).run j').1 = before ++ own' ++ after ∧
        Share path items' name own' := by
  intro result
  have hresult : ∀ j', result = _ := loadPrograms_result path items j
  refine ⟨⟨programFiles items, ?_, fun f => mem_programFiles, fun f hf => ?_, hresult⟩,
    fun items' j' hperm => ?_, fun items' j' name distinct' hsame => ?_⟩
  · exact pairwise_programFiles listing.distinct
  · exact listing.access_program (mem_programFiles.1 hf)
  · have hfiles := filter_programFiles_eq (p := fun _ => true) listing.distinct
      ((hperm.map _).nodup_iff.2 listing.distinct)
      fun f _ => and_congr_left' hperm.symm.mem_iff
    rw [List.filter_true, List.filter_true] at hfiles
    rw [loadPrograms_result path items' j' j, ← hfiles, hresult j]
  · have hprogram : ∀ f : FileName × List UInt8, f.1 ≠ name →
        (IsProgram items f ↔ IsProgram items' f) := fun f hf => and_congr_left' (hsame _ hf)
    have hbefore := filter_programFiles_eq (p := (·.1 < name)) listing.distinct distinct'
      fun f hf => hprogram f (Std.ne_of_lt (of_decide_eq_true hf))
    have hafter := filter_programFiles_eq (p := (name < ·.1)) listing.distinct distinct'
      fun f hf => hprogram f (Std.ne_of_lt (of_decide_eq_true hf)).symm
    have hcut := loadPrograms_cut distinct' path name j' j
    rw [← hbefore, ← hafter] at hcut
    exact ⟨_, _, _, _, loadPrograms_cut listing.distinct path name j j,
      share_filter listing.distinct path name j, hcut, share_filter distinct' path name j⟩

open FileName (ofString)

/-- A file whose name and bytes are no text, one without a name before its extension, one with its
extension in capitals, a directory with the name of a program, and a file without a table. -/
def mixedItems : List DirectoryItem :=
  [⟨0xff :: ofString ".tur", some [0xff]⟩, ⟨ofString ".tur", some []⟩,
    ⟨ofString "x.TUR", some []⟩, ⟨ofString "c.tur", none⟩, ⟨ofString "a.tur", some []⟩]

/-- A file system that lists these items in a directory beside the working directory. -/
def mixed : FileSystem where
  root := .directory
    [(ofString "home", .empty),
      (ofString "programs", .directory
        [(0xff :: ofString ".tur", .file [0xff]), (ofString ".tur", .file []),
          (ofString "x.TUR", .file []), (ofString "c.tur", .empty),
          (ofString "a.tur", .file [])])]
  working := [ofString "home"]

/-- The file that is no text can be removed: the rest of the result stays. -/
theorem loadPrograms_each_by_itself_mixed :
    let path := Path.ofString "/programs"
    let result := ((loadPrograms path (.directory mixedItems)).run ⟨.error, #[]⟩).1
    Listing mixed path mixedItems ∧ Listing mixed (.ofString "../programs/") mixedItems ∧
      ((loadPrograms path (.directory mixedItems.reverse)).run ⟨.warn, #[]⟩).1 = result ∧
      ∃ before after,
        result = before ++
          [.error (.fileError
            ("/programs/\ufffd.tur: Failed to read program: " ++ Delivery.notUtf8))] ++ after ∧
        ((loadPrograms path (.directory mixedItems.tail)).run ⟨.error, #[]⟩).1 =
          before ++ after := by
  intro path result
  have hdistinct : (mixedItems.map DirectoryItem.name).Nodup := by decide
  have hsingle : ∀ item ∈ mixedItems, Path.separator ∉ item.name := by decide
  have hlisting : Listing mixed path mixedItems := ⟨⟨mixedItems, rfl, .rfl⟩, hdistinct, hsingle⟩
  obtain ⟨-, horder, hother⟩ := loadPrograms_each_by_itself hlisting ⟨.error, #[]⟩
  have hprogram : IsProgram mixedItems (0xff :: ofString ".tur", [0xff]) :=
    ⟨List.mem_cons_self, [0xff], by decide, rfl⟩
  obtain ⟨before, own, own', after, hresult, hown, hresult', hown'⟩ :=
    hother mixedItems.tail ⟨.error, #[]⟩ (0xff :: ofString ".tur") (by decide) fun item hname =>
      ⟨fun h => (List.mem_cons.1 h).resolve_left fun heq => hname (heq ▸ rfl),
        List.mem_cons_of_mem _⟩
  have hbroken : attempt (path.join (0xff :: ofString ".tur")) (.file [0xff]) ⟨.error, #[]⟩ =
      .error (.fileError
        ("/programs/\ufffd.tur: Failed to read program: " ++ Delivery.notUtf8)) := by
    rfl
  refine ⟨hlisting, ⟨⟨mixedItems, rfl, .rfl⟩, hdistinct, hsingle⟩,
    horder _ _ (List.reverse_perm _), before, after, ?_, ?_⟩
  · cases hown with
    | nothing h => exact absurd hprogram (h _)
    | program h hattempt =>
      obtain rfl := h.bytes_eq hlisting.distinct hprogram
      rwa [← hattempt ⟨.error, #[]⟩, hbroken] at hresult
  · cases hown' with
    | nothing h => rwa [List.append_nil] at hresult'
    | program h _ =>
      have hgone : 0xff :: ofString ".tur" ∉ mixedItems.tail.map DirectoryItem.name := by decide
      exact absurd (List.mem_map_of_mem h.1) hgone

end Loader

end TapeMachine
