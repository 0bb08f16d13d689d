import TierIsolation.FileSystem
import TierIsolation.Proofs.Success

/-!
# Below a folder

A path that only goes down leads from a folder to what is below it: `read?_join_eq_ok_iff` says what
reading it gives, by the files below the folder (`FileSystem.fileBelow?`) and by the text of the
path. It holds of file systems in which everything is in a folder (`FileSystem.Rooted`).

* `Path.names_join`: the names of a relative path follow those of the folder.
* `FileSystem.walk_eq_ok_iff`: names that lead down are followed as far as there are folders.
-/

namespace TierIsolation

/-! ## Names -/

namespace Path

variable {base path : List Char}

theorem names_append_slash (base path : List Char) :
    names (base ++ '/' :: path) = names base ++ names path := by
  rw [names, List.splitOn_append_cons_self, List.filter_append, names, names]

theorem names_join (hrelative : isAbsolute path = false) :
    names (join base path) = names base ++ names path := by
  rw [join, if_neg (by simp [hrelative])]
  split
  · rename_i hbase
    obtain hempty | hslash := Bool.or_eq_true_iff.1 hbase
    · rw [List.isEmpty_iff.1 hempty]
      rfl
    · obtain ⟨front, rfl⟩ := List.getLast?_eq_some_iff.1 (of_decide_eq_true hslash)
      rw [List.append_assoc, List.singleton_append, names_append_slash, names_append_slash]
      simp [names]
  · exact names_append_slash base path

theorem isAbsolute_join (hrelative : isAbsolute path = false) :
    isAbsolute (join base path) = isAbsolute base := by
  rw [join, if_neg (by simp [hrelative])]
  cases base with
  | nil => exact hrelative
  | cons c rest => split <;> rfl

/-- All relative paths go on behind the same text. -/
theorem exists_join_eq_append (base : List Char) :
    ∃ front, ∀ path, isAbsolute path = false → join base path = front ++ path := by
  by_cases hbase : base.isEmpty || base.getLast? = some '/'
  · refine ⟨base, fun path hrelative => ?_⟩
    rw [join, if_neg (by simp [hrelative]), if_pos hbase]
  · refine ⟨base ++ ['/'], fun path hrelative => ?_⟩
    rw [join, if_neg (by simp [hrelative]), if_neg hbase, List.append_assoc, List.singleton_append]

theorem getLast?_join (hrelative : isAbsolute path = false) (hpath : path ≠ []) :
    (join base path).getLast? = path.getLast? := by
  obtain ⟨front, hfront⟩ := exists_join_eq_append base
  rw [hfront path hrelative, List.getLast?_append, List.getLast?_eq_some_getLast hpath,
    Option.some_or]

theorem mem_splitOn_append (front : List Char) {back : List Char} (hback : '/' ∉ back) :
    (∀ n ∈ (front ++ back).splitOn '/', n ⊆ front ∨ back <:+ n) ∧
      ∃ n ∈ (front ++ back).splitOn '/', back <:+ n := by
  induction front with
  | nil => simp [List.splitOn_eq_singleton hback]
  | cons c rest ih =>
    obtain ⟨hall, n, hn, hend⟩ := ih
    rw [List.cons_append, List.splitOn_cons_eq_if_modifyHead]
    split
    · refine ⟨fun m hm => ?_, n, List.mem_cons_of_mem _ hn, hend⟩
      obtain rfl | hm := List.mem_cons.1 hm
      · exact .inl (List.nil_subset _)
      · exact (hall m hm).imp_left (List.subset_cons_of_subset c)
    · obtain ⟨head, tail, hsplit⟩ := List.exists_cons_of_ne_nil
        (List.splitOn_ne_nil '/' (rest ++ back))
      rw [hsplit] at hall hn ⊢
      obtain ⟨hhead, htail⟩ := List.forall_mem_cons.1 hall
      rw [List.modifyHead_cons]
      constructor
      · refine List.forall_mem_cons.2 ⟨?_, fun m hm => ?_⟩
        · exact hhead.imp (List.cons_subset_cons c) fun h => h.trans (List.suffix_cons c head)
        · exact (htail m hm).imp_left (List.subset_cons_of_subset c)
      · obtain rfl | hn := List.mem_cons.1 hn
        · exact ⟨_, List.mem_cons_self, hend.trans (List.suffix_cons c n)⟩
        · exact ⟨n, List.mem_cons_of_mem _ hn, hend⟩

/-- If no slash is in the end of a path, a name has that end; the others are what is before it. -/
theorem mem_names_append (front : List Char) {back : List Char} (hback : '/' ∉ back)
    (hne : back ≠ []) :
    (∀ n ∈ names (front ++ back), n ⊆ front ∨ back <:+ n) ∧
      ∃ n ∈ names (front ++ back), back <:+ n := by
  obtain ⟨hall, n, hn, hend⟩ := mem_splitOn_append front hback
  refine ⟨fun m hm => hall m (List.mem_filter.1 hm).1, n, List.mem_filter.2 ⟨hn, ?_⟩, hend⟩
  obtain ⟨before, rfl⟩ := hend
  simp [hne]

/-- Does a name lead down? -/
def LeadsDown (name : List Char) : Prop := name ≠ ['.'] ∧ name ≠ ['.', '.']

end Path

namespace FileSystem

variable {fs : FileSystem} {here place next : List (List Char)} {name path folder : List Char}
  {ns : List (List Char)} {contents : ByteArray}

/-! ## Following names -/

/-- Everything is in a folder. -/
def Rooted (fs : FileSystem) : Prop :=
  ∀ place name, fs.node (place ++ [name]) ≠ none → fs.node place = some .folder

/-- What has something below it is a folder. -/
theorem Rooted.node_eq_folder (hfs : fs.Rooted) (hns : ns ≠ [])
    (h : (fs.node (place ++ ns)).isSome) : fs.node place = some .folder := by
  induction ns generalizing place with
  | nil => exact absurd rfl hns
  | cons name rest ih =>
    rw [List.append_cons] at h
    refine hfs place name ?_
    by_cases hrest : rest = []
    · rw [hrest, List.append_nil] at h
      exact Option.isSome_iff_ne_none.1 h
    · simp [ih hrest h]

/-- It suffices that what the disk lists is in folders of the list. -/
theorem rooted_of_forall {disk : List (List (List Char) × FileNode)} {w : List (List Char)}
    (h : ∀ x ∈ disk, x.1 ≠ [] → List.lookup x.1.dropLast disk = some .folder) :
    Rooted ⟨fun place => List.lookup place disk, w⟩ := by
  intro place name hnode
  obtain ⟨node, hnode⟩ := Option.ne_none_iff_exists'.1 hnode
  obtain ⟨before, after, hdisk, -⟩ := List.lookup_eq_some_iff.1 hnode
  have hfolder := h (place ++ [name], node) (by simp [hdisk]) (by simp)
  rwa [List.dropLast_concat] at hfolder

theorem walk_append (here : List (List Char)) (xs ys : List (List Char)) :
    fs.walk here (xs ++ ys) = .ok place ↔
      ∃ next, fs.walk here xs = .ok next ∧ fs.walk next ys = .ok place := by
  induction xs generalizing here with
  | nil => simp [walk]
  | cons name rest ih =>
    rw [List.cons_append, walk, walk]
    split
    · simp
    · exact ih _

theorem step_self_eq_ok_iff :
    fs.step here ['.'] = .ok next ↔ fs.node here = some .folder ∧ next = here := by
  unfold step
  grind

theorem step_eq_ok_iff (hname : Path.LeadsDown name) :
    fs.step here name = .ok next ↔ fs.node here = some .folder ∧ byteLength name ≤ nameLimit ∧
      (fs.node (here ++ [name])).isSome ∧ next = here ++ [name] := by
  obtain ⟨hself, habove⟩ := hname
  unfold step
  grind

/-- Names that lead down lead from a folder to what is there. -/
theorem walk_eq_ok_iff (hfs : fs.Rooted) (hns : ns ≠ []) (hdown : ∀ n ∈ ns, Path.LeadsDown n) :
    fs.walk here ns = .ok place ↔ fs.node here = some .folder ∧
      (∀ n ∈ ns, byteLength n ≤ nameLimit) ∧ (fs.node (here ++ ns)).isSome ∧
      place = here ++ ns := by
  induction ns generalizing here with
  | nil => exact absurd rfl hns
  | cons name rest ih =>
    obtain ⟨hname, hdown⟩ := List.forall_mem_cons.1 hdown
    have hwalk : fs.walk here (name :: rest) = .ok place ↔
        ∃ next, fs.step here name = .ok next ∧ fs.walk next rest = .ok place := by
      rw [walk]
      split <;> simp_all
    simp only [hwalk, step_eq_ok_iff hname, List.forall_mem_cons]
    cases rest with
    | nil => grind [walk]
    | cons n rest =>
      simp only [ih (List.cons_ne_nil n rest) hdown]
      constructor
      · rintro ⟨next, ⟨hfolder, hshort, -, rfl⟩, -, hshorts, hsome, rfl⟩
        rw [List.append_assoc] at hsome ⊢
        exact ⟨hfolder, ⟨hshort, hshorts⟩, hsome, rfl⟩
      · rintro ⟨hfolder, ⟨hshort, hshorts⟩, hsome, rfl⟩
        have hnext : fs.node (here ++ [name]) = some .folder := by
          refine hfs.node_eq_folder (List.cons_ne_nil n rest) ?_
          rwa [List.append_assoc]
        refine ⟨_, ⟨hfolder, hshort, by rw [hnext]; rfl, rfl⟩, hnext, hshorts, ?_, ?_⟩
        · rwa [List.append_assoc]
        · rw [List.append_assoc, List.singleton_append]

/-! ## Reading -/

/-- The text of a path can be the text of one that leads somewhere. -/
def Admissible (path : List Char) : Prop :=
  '\x00' ∉ path ∧ path ≠ [] ∧ byteLength path ≤ pathLimit

theorem byteLength_append (xs ys : List Char) :
    byteLength (xs ++ ys) = byteLength xs + byteLength ys := by
  induction xs with
  | nil => simp [byteLength]
  | cons c rest ih => simp_all [byteLength, Nat.add_assoc]

theorem byteLength_pos (hpath : path ≠ []) : 0 < byteLength path := by
  obtain ⟨c, rest, rfl⟩ := List.exists_cons_of_ne_nil hpath
  exact Nat.lt_of_lt_of_le c.utf8Size_pos (Nat.le_add_right _ (byteLength rest))

/-- A folder can be written if a path into it can. -/
theorem Admissible.self (h : Admissible (Path.join folder path))
    (hrelative : Path.isAbsolute path = false) (hpath : path ≠ []) :
    Admissible (Path.join folder ['.']) := by
  obtain ⟨front, hfront⟩ := Path.exists_join_eq_append folder
  obtain ⟨hnul, -, hlength⟩ := h
  rw [hfront path hrelative] at hnul hlength
  rw [hfront _ rfl]
  have hone : byteLength ['.'] = 1 := rfl
  have hpos := byteLength_pos hpath
  rw [byteLength_append] at hlength
  refine ⟨?_, List.append_ne_nil_of_right_ne_nil _ (List.cons_ne_nil _ _), ?_⟩
  · simp_all
  · rw [byteLength_append]
    omega

/-- Where a written path starts. -/
def start (fs : FileSystem) (path : List Char) : List (List Char) :=
  if Path.isAbsolute path then [] else fs.workingFolder

theorem locate_eq_ok_iff (hlast : path.getLast? ≠ some '/') :
    fs.locate path = .ok place ↔
      Admissible path ∧ fs.walk (fs.start path) (Path.names path) = .ok place := by
  unfold locate Admissible start
  grind

theorem lookup_eq_ok_iff {node : FileNode} :
    fs.lookup path = .ok node ↔
      ∃ place, fs.locate path = .ok place ∧ fs.node place = some node := by
  rw [lookup, Except.bind_eq_ok]
  refine exists_congr fun place => and_congr_right fun _ => ?_
  split <;> simp_all

theorem read?_eq_ok_iff :
    fs.read? path = .ok contents ↔
      ∃ place, fs.locate path = .ok place ∧ fs.node place = some (.file contents) := by
  rw [← lookup_eq_ok_iff, read?, Except.bind_eq_ok]
  constructor
  · rintro ⟨node, hnode, hread⟩
    split at hread
    · rwa [← Except.ok.inj hread]
    · cases hread
  · exact fun h => ⟨_, h, rfl⟩

/-- The file below a folder, at the place that names lead down to. -/
def fileBelow? (fs : FileSystem) (folder : List Char) (ns : List (List Char)) :
    Option ByteArray :=
  match fs.locate (Path.join folder ['.']) with
  | .error _ => none
  | .ok place =>
    match fs.node (place ++ ns) with
    | some (.file contents) => some contents
    | _ => none

theorem fileBelow?_eq_some_iff :
    fs.fileBelow? folder ns = some contents ↔
      ∃ place, fs.locate (Path.join folder ['.']) = .ok place ∧
        fs.node (place ++ ns) = some (.file contents) := by
  unfold fileBelow?
  grind

theorem locate_join_self (hfolder : Admissible (Path.join folder ['.'])) :
    fs.locate (Path.join folder ['.']) = .ok place ↔
      fs.walk (fs.start folder) (Path.names folder) = .ok place ∧ fs.node place = some .folder := by
  have hlast : (Path.join folder ['.']).getLast? ≠ some '/' := by
    rw [Path.getLast?_join rfl (List.cons_ne_nil _ _)]
    decide
  have hnames : Path.names (Path.join folder ['.']) = Path.names folder ++ [['.']] :=
    Path.names_join rfl
  rw [locate_eq_ok_iff hlast, hnames, walk_append, start, Path.isAbsolute_join rfl, ← start]
  simp only [hfolder, true_and, walk]
  constructor
  · rintro ⟨here, hhere, hself⟩
    split at hself
    · cases hself
    · rename_i next hstep
      obtain ⟨hnode, rfl⟩ := step_self_eq_ok_iff.1 hstep
      obtain rfl := Except.ok.inj hself
      exact ⟨hhere, hnode⟩
  · rintro ⟨hplace, hnode⟩
    refine ⟨place, hplace, ?_⟩
    rw [step_self_eq_ok_iff.2 ⟨hnode, rfl⟩]

/-- Reading a path that leads down from a folder gives the file below the folder. -/
theorem read?_join_eq_ok_iff (hfs : fs.Rooted) (hrelative : Path.isAbsolute path = false)
    (hlast : path.getLast? ≠ some '/') (hnames : Path.names path ≠ [])
    (hdown : ∀ n ∈ Path.names path, Path.LeadsDown n) :
    fs.read? (Path.join folder path) = .ok contents ↔
      Admissible (Path.join folder path) ∧
      (∀ n ∈ Path.names path, byteLength n ≤ nameLimit) ∧
      fs.fileBelow? folder (Path.names path) = some contents := by
  have hpath : path ≠ [] := by
    rintro rfl
    exact hnames rfl
  have hlocate : ∀ place, fs.locate (Path.join folder path) = .ok place ↔
      Admissible (Path.join folder path) ∧ ∃ here,
        fs.walk (fs.start folder) (Path.names folder) = .ok here ∧
        fs.node here = some .folder ∧ (∀ n ∈ Path.names path, byteLength n ≤ nameLimit) ∧
        (fs.node (here ++ Path.names path)).isSome ∧ place = here ++ Path.names path := by
    intro place
    rw [locate_eq_ok_iff (by rwa [Path.getLast?_join hrelative hpath]), Path.names_join hrelative,
      walk_append, start, Path.isAbsolute_join hrelative, ← start]
    simp only [walk_eq_ok_iff hfs hnames hdown]
  rw [read?_eq_ok_iff, fileBelow?_eq_some_iff]
  simp only [hlocate]
  constructor
  · rintro ⟨_, ⟨hadmissible, here, hhere, hfolder, hshort, -, rfl⟩, hfile⟩
    refine ⟨hadmissible, hshort, here, ?_, hfile⟩
    exact (locate_join_self (hadmissible.self hrelative hpath)).2 ⟨hhere, hfolder⟩
  · rintro ⟨hadmissible, hshort, here, hself, hfile⟩
    obtain ⟨hhere, hfolder⟩ := (locate_join_self (hadmissible.self hrelative hpath)).1 hself
    exact ⟨_, ⟨hadmissible, here, hhere, hfolder, hshort, by rw [hfile]; rfl, rfl⟩, hfile⟩

end FileSystem

end TierIsolation
