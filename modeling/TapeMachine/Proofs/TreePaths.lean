import TapeMachine.Files.FileTree
import TapeMachine.Files.Loader

/-!
# Paths of items

The path of an item of a directory is that of the directory, a `/` unless it ends in one already,
and the name of the item. So it has the names of the directory's path and one more
(`Path.names_join`), and leads on from the same place (`FileSystem.start_join`): the root or the
working directory. The name leads on from where those before it lead to (`FileTree.follow_append`),
whether that is below this place or, by `..`, above it. At the path of an item stands that item
(`FileSystem.access_join`).
-/

namespace TapeMachine

/-! ## The names of an item's path -/

namespace Path

/-- The path of an item begins with that of its directory. -/
theorem bytes_join (path : Path) (name : FileName) :
    ∃ rest, (path.join name).bytes = path.bytes ++ rest := by
  unfold join
  split
  next => exact ⟨name, rfl⟩
  next => exact ⟨separator :: name, rfl⟩

/-- The names of the path of an item are those of the path of its directory, up to an empty last
one, and its own. -/
theorem names_join (path : Path) {name : FileName} (h : separator ∉ name) :
    ∃ ns, (path.join name).names = ns ++ [name] ∧ (path.names = ns ∨ path.names = ns ++ [[]]) := by
  have hsplit : ∀ s : List UInt8,
      (s ++ separator :: name).splitOn separator = s.splitOn separator ++ [name] := fun s => by
    rw [List.splitOn_append_cons_self, List.splitOn_eq_singleton h]
  obtain ⟨bytes⟩ := path
  unfold join
  split
  next hlast =>
    obtain rfl | ⟨init, b, rfl⟩ := List.eq_nil_or_concat bytes
    · exact ⟨[], List.splitOn_eq_singleton h, .inr (List.splitOn_nil separator)⟩
    · obtain rfl : b = separator := by simpa using hlast
      refine ⟨init.splitOn separator, ?_, .inr ?_⟩
      · simpa only [names, List.concat_eq_append, List.append_assoc, List.singleton_append] using
          hsplit init
      · simp only [names, List.concat_eq_append, List.splitOn_append_cons_self, List.splitOn_nil]
  next => exact ⟨_, hsplit bytes, .inl rfl⟩

end Path

/-! ## The way through a tree -/

namespace FileTree

/-- Following names and then more is following the rest from where the first lead to, below the
directories they passed. -/
theorem follow_append (above : List FileTree) (here : FileTree) (ns ms : List FileName) :
    ∃ above', follow above here (ns ++ ms) =
      (follow above here ns).bind fun t => follow above' t ms := by
  -- a name stays in a directory, leads up to the one above, to an item, or nowhere
  fun_induction follow above here ns with
  | case1 above here => exact ⟨above, rfl⟩
  | case2 => exact ⟨[], rfl⟩
  | case3 above name rest items hstay ih =>
    simpa only [List.cons_append, follow, if_pos hstay] using ih
  | case4 rest items hstay ih =>
    simpa only [List.cons_append, follow, if_neg hstay, if_true] using ih
  | case5 rest items parent above hstay ih =>
    simpa only [List.cons_append, follow, if_neg hstay, if_true] using ih
  | case6 above name rest items hstay hup t ht ih =>
    simpa only [List.cons_append, follow, if_neg hstay, if_neg hup, ht] using ih
  | case7 above name rest items hstay hup hnone =>
    exact ⟨[], by simp only [List.cons_append, follow, if_neg hstay, if_neg hup, hnone]; rfl⟩

/-- A name that is neither empty nor `.` nor `..`, and no path of several names. -/
def IsItemName (name : FileName) : Prop :=
  name ≠ [] ∧ name ≠ dot ∧ name ≠ dots ∧ Path.separator ∉ name

/-- An empty name at the end leads on from nothing but a directory, and stays in it. -/
theorem follow_trailing {above : List FileTree} {here t : FileTree} {ns : List FileName}
    (h : follow above here (ns ++ [[]]) = .ok t) : follow above here ns = .ok t := by
  obtain ⟨above', heq⟩ := follow_append above here ns [[]]
  rw [heq] at h
  cases hns : follow above here ns with
  | error e =>
    rw [hns] at h
    cases h
  | ok t' =>
    rw [hns] at h
    cases t' with
    | file bytes => cases h
    | directory items => exact h

/-- A name leads from a directory to the item of that name. -/
theorem follow_item {name : FileName} (h : IsItemName name) (above : List FileTree)
    {items : List (FileName × FileTree)} {t : FileTree} (ht : items.lookup name = some t) :
    follow above (directory items) [name] = .ok t := by
  obtain ⟨hempty, hdot, hup, -⟩ := h
  simp only [follow, hempty, hdot, hup, or_self, if_false, ht]

theorem lookup_of_mem {items : List (FileName × FileTree)} {name : FileName} {bytes : List UInt8}
    (distinct : ((items.map item).map DirectoryItem.name).Nodup)
    (h : ⟨name, some bytes⟩ ∈ items.map item) : items.lookup name = some (file bytes) := by
  induction items with
  | nil => cases h
  | cons first items ih =>
    obtain ⟨other, t⟩ := first
    obtain ⟨hnew, distinct⟩ := List.nodup_cons.1 distinct
    obtain hfirst | hrest := List.mem_cons.1 h
    · cases t with
      | directory _ => cases hfirst
      | file _ =>
        cases hfirst
        exact List.lookup_cons_self
    · have hother : (name == other) = false := beq_eq_false_iff_ne.2 fun heq => by
        refine hnew (List.mem_map.2 ⟨_, hrest, ?_⟩)
        cases t <;> exact heq
      rw [List.lookup_cons, hother]
      exact ih distinct hrest

/-- Names that lead to a directory, up to an empty last one, lead with the name of an item to that
item. -/
theorem follow_join {root : FileTree} {ns ns' : List FileName} {items : List (FileName × FileTree)}
    {name : FileName} {t : FileTree} (hdirectory : follow [] root ns' = .ok (directory items))
    (hnames : ns' = ns ∨ ns' = ns ++ [[]]) (hname : IsItemName name)
    (ht : items.lookup name = some t) : follow [] root (ns ++ [name]) = .ok t := by
  have hns : follow [] root ns = .ok (directory items) := by
    obtain rfl | rfl := hnames
    · exact hdirectory
    · exact follow_trailing hdirectory
  obtain ⟨above, heq⟩ := follow_append [] root ns [name]
  rw [heq, hns]
  exact follow_item hname above ht

end FileTree

/-! ## What stands at an item's path -/

namespace FileSystem

variable {system : FileSystem} {path : Path}

/-- The path of an item leads on from the place that of its directory leads on from. -/
theorem start_join (hne : path.bytes ≠ []) (name : FileName) :
    system.start (path.join name) = system.start path := by
  obtain ⟨rest, hrest⟩ := path.bytes_join name
  obtain ⟨b, bs, hbytes⟩ := List.exists_cons_of_ne_nil hne
  have hhead : (path.join name).isAbsolute = path.isAbsolute := by
    rw [Path.isAbsolute, Path.isAbsolute, hrest, hbytes]
    rfl
  rw [start, start, hhead]

/-- The names of a path at which a directory stands lead to that directory. -/
theorem access_eq_directory {stored : List DirectoryItem}
    (h : system.access path = .directory stored) :
    path.bytes ≠ [] ∧ ∃ items, items.map FileTree.item = stored ∧
      FileTree.follow [] system.root (system.start path ++ path.names) =
        .ok (.directory items) := by
  unfold access at h
  split at h
  next => cases h
  next hne =>
    refine ⟨hne, ?_⟩
    split at h
    next => cases h
    next => cases h
    next items hfollow => exact ⟨items, Access.directory.inj h, hfollow⟩

/-- At the path of a plain file of a directory stands that file. -/
theorem access_join {name : FileName} {bytes : List UInt8} {stored : List DirectoryItem}
    (hpath : system.access path = .directory stored) (hname : FileTree.IsItemName name)
    (distinct : (stored.map DirectoryItem.name).Nodup) (hitem : ⟨name, some bytes⟩ ∈ stored) :
    system.access (path.join name) = .file bytes := by
  obtain ⟨hne, items, rfl, hfollow⟩ := access_eq_directory hpath
  have hjoin : (path.join name).bytes ≠ [] := by
    obtain ⟨rest, hrest⟩ := path.bytes_join name
    rw [hrest]
    exact List.append_ne_nil_of_left_ne_nil hne rest
  obtain ⟨ns, hnames, hdirectory⟩ := path.names_join hname.2.2.2
  have hfile : FileTree.follow [] system.root (system.start path ++ ns ++ [name]) =
      .ok (.file bytes) := by
    refine FileTree.follow_join hfollow ?_ hname (FileTree.lookup_of_mem distinct hitem)
    obtain heq | heq := hdirectory
    · exact .inl (by rw [heq])
    · exact .inr (by rw [heq, List.append_assoc])
  rw [access, if_neg hjoin, start_join hne, hnames, ← List.append_assoc, hfile]

end FileSystem

end TapeMachine
