import Mathlib.Algebra.Order.BigOperators.Group.List
import Mathlib.Algebra.Order.Group.Nat
import Mathlib.Data.List.Chain
import Mathlib.Data.List.Perm.Basic
import Superviseur.Library.Groups
import Superviseur.Library.OrderedDict
import Superviseur.Library.Separated

/-!
# The tree of points

`points_tree` lists one level of the logical paths: the folders, which are the next segments with
the number of points under each, and the points that are directly there. A point without a path is
under "(sans chemin)", by its name.

The walk starts at the root and follows the path of every folder that is returned. **Every point is
returned once, and the counts are right, if and only if no logical path begins with a slash or has
two in a row** (`partition_iff`): such a path makes a folder without a name, whose path leads back
to the level that it is in.
-/

namespace Superviseur.PointsTree

variable {ι : Type}

/-- What the request reads of a point. -/
structure Point (ι : Type) where
  id : ι
  path : Option (List Char)
  name : List Char
  missing : Bool

/-- `TreeFolder`. -/
structure TreeFolder where
  name : List Char
  path : List Char
  count : ℕ

/-- `TreeOut`. -/
structure TreeOut (ι : Type) where
  path : List Char
  folders : List TreeFolder
  points : List (Point ι)

/-- `NO_PATH`. -/
def noPath : List Char := "(sans chemin)".toList

/-- `MAX_TREE_POINTS`. -/
def maxTreePoints : ℕ := 200

/-- `coalesce(Point.path, NO_PATH + "/" + Point.name)`. -/
def Point.logical (p : Point ι) : List Char := p.path.getD (noPath ++ '/' :: p.name)

/-- `f"{prefix}/" if prefix else ""`, for the prefix of the path. -/
def stemOf (path : List Char) : List Char :=
  if Separated.strip '/' path = [] then [] else Separated.strip '/' path ++ ['/']

/-- The rows of the first query. -/
def rows (points : List (Point ι)) (stem : List Char) : List (Point ι) :=
  points.filter fun p ↦ !p.missing && stem.isPrefixOf p.logical

/-- `full[len(stem):]`. -/
def Point.rest (stem : List Char) (p : Point ι) : List Char := p.logical.drop stem.length

/-- `rest.split("/", 1)[0]`, where there is a slash. -/
def folderOf (rest : List Char) : Option (List Char) :=
  if '/' ∈ rest then some (rest.takeWhile (· ≠ '/')) else none

/-- What the loop over the rows gathers. -/
structure Level (ι : Type) where
  counts : OrderedDict (List Char) ℕ := .empty
  leaves : List ι := []

/-- A turn of the loop over the rows. -/
def Level.add (stem : List Char) (level : Level ι) (row : Point ι) : Level ι :=
  match folderOf (row.rest stem) with
  | some folder => { level with counts := level.counts.tally folder }
  | none => { level with leaves := level.leaves ++ [row.id] }

/-- The folders and the points of a level. -/
def level (points : List (Point ι)) (stem : List Char) : Level ι :=
  (rows points stem).foldl (Level.add stem) {}

section

variable [DecidableEq ι]

/-- The order of `sorted`. -/
def byCodePoint (a b : List Char) : Bool := decide (String.ofList a ≤ String.ofList b)

/-- `points_tree`; `le` orders the names as the database does. -/
def pointsTree (le : List Char → List Char → Bool) (points : List (Point ι)) (path : List Char) :
    TreeOut ι :=
  let stem := stemOf path
  let found := level points stem
  { path := Separated.strip '/' path
    folders := (found.counts.entries.mergeSort fun a b ↦ byCodePoint a.1 b.1).map fun entry ↦
      { name := entry.1, path := stem ++ entry.1, count := entry.2 }
    points := ((points.filter (·.id ∈ found.leaves.take (maxTreePoints * 5))).mergeSort
      fun a b ↦ le a.name b.name).take maxTreePoints }

/-! ## The walk -/

/-- The levels that `next` reaches from the folders, in turn. -/
def walkAll (next : List Char → Option (List (TreeOut ι))) :
    List TreeFolder → Option (List (TreeOut ι))
  | [] => some []
  | folder :: folders => do
    let here ← next folder.path
    let others ← walkAll next folders
    return here ++ others

/-- The levels reached from a path, following the path of every folder, no more than so many levels
deep. -/
def walk (le : List Char → List Char → Bool) (points : List (Point ι)) :
    ℕ → List Char → Option (List (TreeOut ι))
  | 0, _ => none
  | n + 1, path => do
    let out := pointsTree le points path
    let below ← walkAll (walk le points n) out.folders
    return out :: below

/-- The points that levels return. -/
def returned (outs : List (TreeOut ι)) : List (Point ι) := outs.flatMap (·.points)

/-- Each folder counts the points that are returned from its path on. -/
def Counted (le : List Char → List Char → Bool) (points : List (Point ι)) (out : TreeOut ι) :
    Prop :=
  ∀ folder ∈ out.folders, ∃ n below,
    walk le points n folder.path = some below ∧ folder.count = (returned below).length

/-- The walk from the root ends, returns every point once, and the counts are right. -/
def Partition (le : List Char → List Char → Bool) (points : List (Point ι)) : Prop :=
  ∃ n outs, walk le points n [] = some outs ∧
    (∀ p ∈ points, ((returned outs).map (·.id)).count p.id = 1) ∧
    ∀ out ∈ outs, Counted le points out

end

/-- Neither does the text begin with a slash, nor are there two in a row. -/
def Regular (cs : List Char) : Prop :=
  cs.head? ≠ some '/' ∧ cs.IsChain fun a b ↦ a ≠ '/' ∨ b ≠ '/'

instance {cs : List Char} : Decidable (Regular cs) := inferInstanceAs (Decidable (_ ∧ _))

variable {cs name tail : List Char}

theorem regular_of_not_mem (h : '/' ∉ cs) : Regular cs := by
  refine ⟨fun hhead ↦ h (List.mem_of_head? hhead), List.Pairwise.isChain ?_⟩
  refine List.pairwise_of_forall_mem_list fun a ha _ _ ↦ .inl ?_
  rintro rfl
  exact h ha

theorem regular_append_iff (hname : '/' ∉ name) :
    Regular (name ++ '/' :: tail) ↔ name ≠ [] ∧ Regular tail := by
  constructor
  · rintro ⟨hhead, hchain⟩
    obtain ⟨-, hchain, -⟩ := List.isChain_append.mp hchain
    obtain ⟨hnext, hchain⟩ := List.isChain_cons.mp hchain
    refine ⟨?_, fun htail ↦ ?_, hchain⟩
    · rintro rfl
      exact hhead rfl
    · rcases hnext '/' htail with h | h <;> exact h rfl
  · rintro ⟨hne, hhead, hchain⟩
    refine ⟨fun hslash ↦ hname ?_,
      List.isChain_append.mpr ⟨?_, List.isChain_cons.mpr ⟨?_, hchain⟩, ?_⟩⟩
    · rw [List.head?_append_of_ne_nil _ hne] at hslash
      exact List.mem_of_head? hslash
    · exact (regular_of_not_mem hname).2
    · rintro d hd
      refine .inr ?_
      rintro rfl
      exact hhead hd
    · rintro c hc _ _
      refine .inl ?_
      rintro rfl
      exact hname (List.mem_of_getLast? hc)

/-! ## Folders -/

theorem folderOf_eq_none_iff : folderOf cs = none ↔ '/' ∉ cs := by
  rw [folderOf]
  split
  · rename_i hmem
    exact iff_of_false (Option.some_ne_none _) (not_not_intro hmem)
  · rename_i hmem
    exact iff_of_true rfl hmem

theorem folderOf_append (hname : '/' ∉ name) : folderOf (name ++ '/' :: tail) = some name := by
  rw [folderOf, if_pos (List.mem_append_right name List.mem_cons_self),
    List.takeWhile_append_of_pos, List.takeWhile_cons_of_neg (by simp), List.append_nil]
  intro c hc
  refine decide_eq_true ?_
  rintro rfl
  exact hname hc

theorem folderOf_eq_some_iff :
    folderOf cs = some name ↔ '/' ∉ name ∧ ∃ tail, cs = name ++ '/' :: tail := by
  constructor
  · intro h
    have hmem : '/' ∈ cs := by
      by_contra hnot
      rw [folderOf_eq_none_iff.mpr hnot] at h
      exact Option.some_ne_none name h.symm
    obtain ⟨first, tail, rfl, hfirst⟩ := List.eq_append_cons_of_mem hmem
    rw [folderOf_append hfirst, Option.some.injEq] at h
    subst h
    exact ⟨hfirst, tail, rfl⟩
  · rintro ⟨hname, tail, rfl⟩
    exact folderOf_append hname

theorem exists_folderOf (h : ¬Regular cs) : ∃ name, folderOf cs = some name := by
  refine Option.ne_none_iff_exists'.mp fun hnone ↦ h ?_
  exact regular_of_not_mem (folderOf_eq_none_iff.mp hnone)

/-! ## Stems -/

variable (path : List Char)

theorem stemOf_append (hne : name ≠ []) (hname : '/' ∉ name) :
    stemOf (stemOf path ++ name) = stemOf path ++ name ++ ['/'] := by
  have hlast : (stemOf path ++ name).getLast? ≠ some '/' := by
    rw [List.getLast?_append_of_ne_nil _ hne]
    exact fun hslash ↦ hname (List.mem_of_getLast? hslash)
  have hhead : (stemOf path ++ name).head? ≠ some '/' := by
    rw [stemOf]
    split
    · exact fun hslash ↦ hname (List.mem_of_head? hslash)
    · rename_i hstrip
      rw [List.append_assoc, List.head?_append_of_ne_nil _ hstrip]
      exact Separated.head?_strip path
  have hstrip := Separated.strip_eq_self hhead hlast
  rw [stemOf, hstrip, if_neg (List.append_ne_nil_of_right_ne_nil _ hne)]

/-- The path of a folder without name leads back to the level of the folder. -/
theorem stemOf_stemOf : stemOf (stemOf path) = stemOf path := by
  by_cases hstrip : Separated.strip '/' path = []
  · have hnil : stemOf path = [] := if_pos hstrip
    rw [hnil]
    rfl
  · have hstem : stemOf path = Separated.strip '/' path ++ ['/'] := if_neg hstrip
    have hself := Separated.strip_concat_sep hstrip (Separated.head?_strip path)
      (Separated.getLast?_strip path)
    rw [hstem, stemOf, hself, if_neg hstrip]

/-! ## A level -/

variable {le : List Char → List Char → Bool} {points : List (Point ι)} {path stem : List Char}
  {p : Point ι}

theorem mem_rows : p ∈ rows points stem ↔ p ∈ points ∧ p.missing = false ∧ stem <+: p.logical := by
  rw [rows, List.mem_filter, Bool.and_eq_true, Bool.not_eq_true', List.isPrefixOf_iff_prefix]

theorem foldl_add (found : List (Point ι)) (start : Level ι) :
    found.foldl (Level.add stem) start =
      { counts := (found.filterMap fun p ↦ folderOf (p.rest stem)).foldl OrderedDict.tally
          start.counts
        leaves := start.leaves ++
          (found.filter fun p ↦ folderOf (p.rest stem) = none).map (·.id) } := by
  induction found generalizing start with
  | nil => simp
  | cons row found ih =>
    rw [List.foldl_cons, ih, Level.add]
    rcases hfolder : folderOf (row.rest stem) with _ | folder
    · simp [hfolder]
    · simp [hfolder]

theorem prefix_append_iff (hname : '/' ∉ name) : stem ++ name ++ ['/'] <+: p.logical ↔
    stem <+: p.logical ∧ folderOf (p.rest stem) = some name := by
  rw [folderOf_eq_some_iff, Point.rest]
  constructor
  · rintro ⟨tail, htail⟩
    rw [List.append_assoc, List.append_assoc, List.singleton_append] at htail
    refine ⟨⟨_, htail⟩, hname, tail, ?_⟩
    rw [← htail, List.drop_left]
  · rintro ⟨⟨rest, hrest⟩, -, tail, htail⟩
    rw [← hrest, List.drop_left] at htail
    refine ⟨tail, ?_⟩
    rw [← hrest, htail, List.append_assoc, List.append_assoc, List.singleton_append]

theorem rows_append (hname : '/' ∉ name) :
    rows points (stem ++ name ++ ['/']) =
      (rows points stem).filter fun p ↦ folderOf (p.rest stem) = some name := by
  rw [rows, rows, List.filter_filter]
  refine List.filter_congr fun p _ ↦ ?_
  rw [Bool.eq_iff_iff, Bool.and_eq_true, Bool.and_eq_true, Bool.and_eq_true, decide_eq_true_eq,
    List.isPrefixOf_iff_prefix, List.isPrefixOf_iff_prefix, prefix_append_iff hname, ← and_assoc]
  exact and_comm

theorem rest_append (hrest : p.rest stem = name ++ '/' :: tail) :
    p.rest (stem ++ name ++ ['/']) = tail := by
  have hlength : (stem ++ name ++ ['/']).length = stem.length + (name ++ ['/']).length := by
    rw [List.append_assoc, List.length_append]
  rw [Point.rest, hlength, ← List.drop_drop, ← Point.rest, hrest, List.append_cons name '/' tail,
    List.drop_left]

theorem level_eq : level points stem =
    { counts := ((rows points stem).filterMap fun p ↦ folderOf (p.rest stem)).foldl
        OrderedDict.tally .empty
      leaves := ((rows points stem).filter fun p ↦ folderOf (p.rest stem) = none).map (·.id) } :=
  foldl_add _ _

theorem mem_counts {count : ℕ} : (name, count) ∈ (level points stem).counts.entries ↔
    (∃ p ∈ rows points stem, folderOf (p.rest stem) = some name) ∧
      count = (rows points (stem ++ name ++ ['/'])).length := by
  rw [level_eq, OrderedDict.mem_entries_foldl_tally_filterMap]
  refine and_congr_right fun ⟨p, _, hfolder⟩ ↦ ?_
  rw [rows_append (folderOf_eq_some_iff.mp hfolder).1]

variable [DecidableEq ι] {folder : TreeFolder}

theorem mem_folders : folder ∈ (pointsTree le points path).folders ↔
    (∃ p ∈ rows points (stemOf path), folderOf (p.rest (stemOf path)) = some folder.name) ∧
      folder.count = (rows points (stemOf path ++ folder.name ++ ['/'])).length ∧
      folder.path = stemOf path ++ folder.name := by
  rw [pointsTree, List.mem_map, ← and_assoc, ← mem_counts]
  constructor
  · rintro ⟨entry, hentry, rfl⟩
    exact ⟨List.mem_mergeSort.mp hentry, rfl⟩
  · rintro ⟨hentry, hpath⟩
    exact ⟨(folder.name, folder.count), List.mem_mergeSort.mpr hentry, by rw [← hpath]⟩

theorem exists_folder (hp : p ∈ rows points (stemOf path))
    (hname : folderOf (p.rest (stemOf path)) = some name) :
    ∃ folder ∈ (pointsTree le points path).folders,
      folder.name = name ∧ folder.path = stemOf path ++ name :=
  ⟨⟨name, stemOf path ++ name, (rows points (stemOf path ++ name ++ ['/'])).length⟩,
    mem_folders.mpr ⟨⟨p, hp, hname⟩, rfl, rfl⟩, rfl, rfl⟩

theorem nodup_folders : ((pointsTree le points path).folders.map (·.name)).Nodup := by
  rw [pointsTree, List.map_map]
  exact ((List.mergeSort_perm _ _).map Prod.fst).nodup_iff.mpr
    (level points (stemOf path)).counts.nodup

theorem points_perm (hnodup : (points.map (·.id)).Nodup)
    (hleaves : (level points (stemOf path)).leaves.length ≤ maxTreePoints) :
    (pointsTree le points path).points.Perm
      ((rows points (stemOf path)).filter fun p ↦ folderOf (p.rest (stemOf path)) = none) := by
  have htake : (level points (stemOf path)).leaves.take (maxTreePoints * 5) =
      (level points (stemOf path)).leaves :=
    List.take_of_length_le (hleaves.trans (by decide))
  have hmem : ∀ p ∈ points, p.id ∈ (level points (stemOf path)).leaves ↔
      p ∈ (rows points (stemOf path)).filter fun p ↦ folderOf (p.rest (stemOf path)) = none := by
    intro p hp
    rw [level_eq, List.mem_map]
    constructor
    · rintro ⟨p', hp', hid⟩
      have hin : p' ∈ points := (mem_rows.mp (List.mem_filter.mp hp').1).1
      rw [← List.inj_on_of_nodup_map hnodup hin hp hid]
      exact hp'
    · intro hp'
      exact ⟨p, hp', rfl⟩
  have hfilter : (points.filter fun p ↦ p.id ∈ (level points (stemOf path)).leaves) =
      (rows points (stemOf path)).filter fun p ↦ folderOf (p.rest (stemOf path)) = none := by
    rw [rows, List.filter_filter]
    refine List.filter_congr fun p hp ↦ ?_
    rw [Bool.eq_iff_iff, decide_eq_true_eq, hmem p hp, rows, List.filter_filter, List.mem_filter,
      and_iff_right hp]
  have hlength : (((rows points (stemOf path)).filter fun p ↦
      folderOf (p.rest (stemOf path)) = none).mergeSort fun a b ↦ le a.name b.name).length ≤
        maxTreePoints := by
    rw [level_eq, List.length_map] at hleaves
    rw [List.length_mergeSort]
    exact hleaves
  rw [pointsTree]
  dsimp only
  rw [htake, hfilter, List.take_of_length_le hlength]
  exact List.mergeSort_perm _ _

/-- **The rows of a level are those of its points and those of its folders.** -/
theorem rows_perm :
    (((rows points (stemOf path)).filter fun p ↦ folderOf (p.rest (stemOf path)) = none) ++
      (pointsTree le points path).folders.flatMap fun folder ↦
        rows points (stemOf path ++ folder.name ++ ['/'])).Perm (rows points (stemOf path)) := by
  have hkeys : ∀ p ∈ rows points (stemOf path), ∀ name,
      folderOf (p.rest (stemOf path)) = some name →
        name ∈ (pointsTree le points path).folders.map (·.name) := by
    intro p hp name hname
    obtain ⟨folder, hfolder, rfl, -⟩ := exists_folder hp hname
    exact List.mem_map_of_mem hfolder
  have hparts : ((pointsTree le points path).folders.flatMap fun folder ↦
      rows points (stemOf path ++ folder.name ++ ['/'])) =
      (pointsTree le points path).folders.flatMap fun folder ↦ (rows points (stemOf path)).filter
        fun p ↦ folderOf (p.rest (stemOf path)) = some folder.name := by
    refine List.flatMap_congr fun folder hfolder ↦ ?_
    obtain ⟨⟨p, -, hname⟩, -⟩ := mem_folders.mp hfolder
    exact rows_append (folderOf_eq_some_iff.mp hname).1
  have hperm := Groups.filter_append_flatMap_perm nodup_folders hkeys
  rw [List.flatMap_map] at hperm
  rw [hparts]
  exact hperm

/-! ## The walk ends where the paths are regular -/

omit [DecidableEq ι] in
theorem walkAll_of_forall {next : List Char → Option (List (TreeOut ι))} {good : TreeOut ι → Prop}
    {under : TreeFolder → List (Point ι)} {folders : List TreeFolder}
    (h : ∀ folder ∈ folders, ∃ outs, next folder.path = some outs ∧
      (returned outs).Perm (under folder) ∧ ∀ out ∈ outs, good out) :
    ∃ outs, walkAll next folders = some outs ∧
      (returned outs).Perm (folders.flatMap under) ∧ ∀ out ∈ outs, good out := by
  induction folders with
  | nil => exact ⟨[], rfl, .nil, fun out hout ↦ nomatch hout⟩
  | cons folder folders ih =>
    obtain ⟨⟨here, hnext, hhere, hgood⟩, h⟩ := List.forall_mem_cons.mp h
    obtain ⟨others, hothers, hperm, hgood'⟩ := ih h
    refine ⟨here ++ others, ?_, ?_, List.forall_mem_append.mpr ⟨hgood, hgood'⟩⟩
    · rw [walkAll, hnext, hothers]
      rfl
    · rw [returned, List.flatMap_append, List.flatMap_cons]
      exact hhere.append hperm

/-- What follows the stem is regular, and shorter than so many characters. -/
def Shallow (points : List (Point ι)) (path : List Char) (n : ℕ) : Prop :=
  ∀ p ∈ rows points (stemOf path),
    Regular (p.rest (stemOf path)) ∧ (p.rest (stemOf path)).length < n

theorem Shallow.descend {n : ℕ} (h : Shallow points path (n + 1))
    (hfolder : folder ∈ (pointsTree le points path).folders) :
    0 < n ∧ stemOf folder.path = stemOf path ++ folder.name ++ ['/'] ∧
      Shallow points folder.path n := by
  obtain ⟨⟨p, hp, hname⟩, -, hpath⟩ := mem_folders.mp hfolder
  have hslash := (folderOf_eq_some_iff.mp hname).1
  -- a row of the folder is regular after the name of the folder too
  have htail : ∀ p ∈ rows points (stemOf path), ∀ tail,
      p.rest (stemOf path) = folder.name ++ '/' :: tail →
        folder.name ≠ [] ∧ Regular tail ∧ tail.length < n := by
    intro p hp tail htail
    obtain ⟨hregular, hlength⟩ := h p hp
    rw [htail] at hregular hlength
    rw [List.length_append, List.length_cons] at hlength
    obtain ⟨hne, hregular⟩ := (regular_append_iff hslash).mp hregular
    exact ⟨hne, hregular, by omega⟩
  obtain ⟨-, tail, hrest⟩ := folderOf_eq_some_iff.mp hname
  obtain ⟨hne, -, hlength⟩ := htail p hp tail hrest
  have hstem : stemOf folder.path = stemOf path ++ folder.name ++ ['/'] := by
    rw [hpath, stemOf_append path hne hslash]
  refine ⟨Nat.zero_lt_of_lt hlength, hstem, ?_⟩
  rw [Shallow, hstem]
  intro p hp
  rw [rows_append hslash, List.mem_filter, decide_eq_true_eq] at hp
  obtain ⟨-, tail, hrest⟩ := folderOf_eq_some_iff.mp hp.2
  rw [rest_append hrest]
  exact (htail p hp.1 tail hrest).2

/-- **The walk from a path returns the rows of its level.** -/
theorem walk_of_shallow {n : ℕ} (hnodup : (points.map (·.id)).Nodup)
    (hleaves : ∀ path, (level points (stemOf path)).leaves.length ≤ maxTreePoints)
    (hpos : 0 < n) (h : Shallow points path n) :
    ∃ outs, walk le points n path = some outs ∧
      (returned outs).Perm (rows points (stemOf path)) ∧ ∀ out ∈ outs, Counted le points out := by
  induction n generalizing path with
  | zero => exact absurd hpos (Nat.lt_irrefl 0)
  | succ n ih =>
    have hfolders : ∀ folder ∈ (pointsTree le points path).folders,
        ∃ outs, walk le points n folder.path = some outs ∧
          (returned outs).Perm (rows points (stemOf path ++ folder.name ++ ['/'])) ∧
            ∀ out ∈ outs, Counted le points out := by
      intro folder hfolder
      obtain ⟨hpos, hstem, hshallow⟩ := h.descend hfolder
      rw [← hstem]
      exact ih hpos hshallow
    obtain ⟨below, hbelow, hperm, hgood⟩ := walkAll_of_forall hfolders
    refine ⟨pointsTree le points path :: below, ?_, ?_, List.forall_mem_cons.mpr ⟨?_, hgood⟩⟩
    · rw [walk, hbelow]
      rfl
    · rw [returned, List.flatMap_cons]
      exact ((points_perm hnodup (hleaves path)).append hperm).trans rows_perm
    · intro folder hfolder
      obtain ⟨outs, hwalk, hperm, -⟩ := hfolders folder hfolder
      refine ⟨n, outs, hwalk, ?_⟩
      rw [hperm.length_eq]
      exact (mem_folders.mp hfolder).2.1

/-! ## It does not end elsewhere -/

omit [DecidableEq ι] in
theorem walkAll_eq_none {next : List Char → Option (List (TreeOut ι))} {folders : List TreeFolder}
    (hmem : folder ∈ folders) (h : next folder.path = none) : walkAll next folders = none := by
  induction folders with
  | nil => nomatch hmem
  | cons first folders ih =>
    rw [walkAll]
    rcases List.mem_cons.mp hmem with rfl | hmem
    · rw [h]
      rfl
    · rw [ih hmem]
      exact Option.bind_fun_none _

/-- **A path that is not regular makes the walk go on.** -/
theorem walk_of_not_regular (n : ℕ) (hp : p ∈ rows points (stemOf path))
    (h : ¬Regular (p.rest (stemOf path))) : walk le points n path = none := by
  induction n generalizing path with
  | zero => rfl
  | succ n ih =>
    obtain ⟨name, hname⟩ := exists_folderOf h
    obtain ⟨hslash, tail, htail⟩ := folderOf_eq_some_iff.mp hname
    obtain ⟨folder, hfolder, rfl, hpath⟩ := exists_folder hp hname
    have hnext : walk le points n folder.path = none := by
      rw [hpath]
      by_cases hne : folder.name = []
      · -- the folder without name leads back here
        have hstem : stemOf (stemOf path ++ folder.name) = stemOf path := by
          rw [hne, List.append_nil, stemOf_stemOf]
        exact ih (by rw [hstem]; exact hp) (by rw [hstem]; exact h)
      · have hstem := stemOf_append path hne hslash
        rw [htail, regular_append_iff hslash] at h
        refine ih ?_ ?_
        · rw [hstem, rows_append hslash]
          exact List.mem_filter.mpr ⟨hp, decide_eq_true hname⟩
        · rw [hstem, rest_append htail]
          exact fun hregular ↦ h ⟨hne, hregular⟩
    rw [walk, walkAll_eq_none hfolder hnext]
    rfl

/-! ## Every point once -/

omit [DecidableEq ι] in
theorem rows_root (h : ∀ p ∈ points, p.missing = false) : rows points (stemOf []) = points := by
  refine List.filter_eq_self.mpr fun p hp ↦ ?_
  rw [h p hp]
  rfl

omit [DecidableEq ι] in
theorem exists_shallow (h : ∀ p ∈ points, p.missing = false)
    (hregular : ∀ p ∈ points, Regular p.logical) : ∃ n, 0 < n ∧ Shallow points [] n := by
  refine ⟨(points.map (·.logical.length)).sum + 1, Nat.succ_pos _, ?_⟩
  rw [Shallow, rows_root h]
  intro p hp
  refine ⟨hregular p hp, Nat.lt_succ_of_le ?_⟩
  exact List.le_sum_of_mem (List.mem_map_of_mem hp)

/-- **The walk returns every point once, with the right counts, if and only if no path begins with a
slash or has two in a row.** -/
theorem partition_iff (le : List Char → List Char → Bool) (points : List (Point ι))
    (hnodup : (points.map (·.id)).Nodup) (hmissing : ∀ p ∈ points, p.missing = false)
    (hleaves : ∀ path, (level points (stemOf path)).leaves.length ≤ maxTreePoints) :
    Partition le points ↔ ∀ p ∈ points, Regular p.logical := by
  constructor
  · rintro ⟨n, outs, hwalk, -⟩ p hp
    by_contra hregular
    have hrow : p ∈ rows points (stemOf []) := by
      rw [rows_root hmissing]
      exact hp
    rw [walk_of_not_regular n hrow hregular] at hwalk
    exact Option.some_ne_none outs hwalk.symm
  · intro hregular
    obtain ⟨n, hpos, hshallow⟩ := exists_shallow hmissing hregular
    obtain ⟨outs, hwalk, hperm, hcounted⟩ := walk_of_shallow hnodup hleaves hpos hshallow
    rw [rows_root hmissing] at hperm
    refine ⟨n, outs, hwalk, fun p hp ↦ ?_, hcounted⟩
    rw [(hperm.map (·.id)).count_eq]
    exact List.count_eq_one_of_mem hnodup (List.mem_map_of_mem hp)

omit [DecidableEq ι] in
theorem length_leaves_le : (level points stem).leaves.length ≤ points.length := by
  rw [level_eq, List.length_map]
  exact (List.length_filter_le _ _).trans (List.length_filter_le _ _)

/-- A point with a path, one that has none, and one whose path ends with a slash. -/
def threePoints : List (Point ℕ) :=
  [{ id := 1, path := some "Site/CTA".toList, name := "T".toList, missing := false },
   { id := 2, path := none, name := "P".toList, missing := false },
   { id := 3, path := some "Site/".toList, name := "U".toList, missing := false }]

theorem partition_iff_threePoints : Partition byCodePoint threePoints :=
  (partition_iff _ threePoints (by decide) (by decide)
    fun _ ↦ length_leaves_le.trans (by decide)).mpr (by decide)

/-- A path with two slashes in a row. -/
def doubled : Point ℕ :=
  { id := 1, path := some "Site//CTA".toList, name := "T".toList, missing := false }

/-- **A point under a folder without name is never reached.** -/
theorem not_partition : ¬∀ points : List (Point ℕ), (points.map (·.id)).Nodup →
    (∀ p ∈ points, p.missing = false) →
    (∀ path, (level points (stemOf path)).leaves.length ≤ maxTreePoints) →
    Partition byCodePoint points := by
  intro h
  obtain ⟨n, outs, hwalk, -⟩ := h [doubled] (by decide) (by decide)
    fun _ ↦ length_leaves_le.trans (by decide)
  have hnone : walk byCodePoint [doubled] n [] = none :=
    walk_of_not_regular n (mem_rows.mpr ⟨List.mem_singleton.mpr rfl, rfl, List.nil_prefix⟩)
      (by decide : ¬Regular (doubled.rest (stemOf [])))
  rw [hnone] at hwalk
  exact Option.some_ne_none outs hwalk.symm

end Superviseur.PointsTree
