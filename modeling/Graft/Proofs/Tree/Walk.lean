import Graft.Proofs.Tree.Entries
import Graft.Proofs.Tree.Order

/-!
This module contains the search for source files below a directory. It finds the files that have one
of the suffixes and no hidden name on the way to them, each of them once, and in an order that is
given by their names alone. In which order the directories hold their entries, or a walk comes
through them, makes no difference.
-/

namespace Graft

namespace Tree

structure IsSource (t : Tree) (suffixes : List String) (loc names : Location) : Prop where
  file : ∃ content, t.lookup (loc ++ names) = some (.file content)
  visible : ∀ name ∈ names, ¬ (name.IsText ∧ name.BeginsWithDot)
  suffix : ∃ name ∈ names.getLast?, name.IsText ∧ name.EndsWithOneOf suffixes

/--
A file with one of the suffixes and no dot at the beginning of a name, whether or not the names are
texts.
-/
structure IsPromised (t : Tree) (suffixes : List String) (loc names : Location) : Prop where
  file : ∃ content, t.lookup (loc ++ names) = some (.file content)
  visible : ∀ name ∈ names, ¬ name.BeginsWithDot
  suffix : ∃ name ∈ names.getLast?, name.EndsWithOneOf suffixes

/--
The list holds the source files below `loc`, which `root` leads to, one after the other in the order
of their names.
-/
structure IsScan (t : Tree) (suffixes : List String) (loc : Location) (root : Path)
    (files : List FoundPath) : Prop where
  mem_iff : ∀ p, p ∈ files ↔ p.root = root ∧ t.IsSource suffixes loc p.names
  sorted : files.Pairwise fun p q => p.names < q.names

/--
A walk below `loc` has come once through everything that is not in a hidden directory. Links are
entries of their own, and they are not followed.
-/
structure Visits (t : Tree) (loc : Location) (visited : List (Location × Entry)) : Prop where
  nodup : visited.Nodup
  mem_iff : ∀ names e, (names, e) ∈ visited ↔
    t.lookup (loc ++ names) = some e ∧ ∀ name ∈ names.dropLast, ¬ name.isHidden

def below? (loc : Location) : Location × Entry → Option (Location × Entry)
  | (place, e) =>
    let names := place.drop loc.length
    if loc <+: place ∧ names ≠ [] ∧ ∀ name ∈ names.dropLast, ¬ name.isHidden then some (names, e)
    else none

def entriesBelow (t : Tree) (loc : Location) : List (Location × Entry) :=
  ([], .directory) :: t.entries.entries.filterMap (below? loc)

def sourceAt? (root : Path) (suffixes : List String) : Location × Entry → Option FoundPath
  | (names, .file _) =>
    match names.getLast? with
    | some name => if ¬ name.isHidden ∧ name.hasSuffix suffixes then some ⟨root, names⟩ else none
    | none => none
  | _ => none

def sourcesAmong (root : Path) (suffixes : List String) (visited : List (Location × Entry)) :
    List FoundPath :=
  (visited.filterMap (sourceAt? root suffixes)).mergeSort FoundPath.le

/--
The source files in an entry of a directory, at most `depth` directories down.
-/
def filesIn (t : Tree) (suffixes : List String) (depth : Nat) (loc : Location)
    (child : FileName × Entry) : List Location :=
  if child.1.isHidden then []
  else
    match child.2 with
    | .file _ => if child.1.hasSuffix suffixes then [[child.1]] else []
    | .directory => (t.filesBelow suffixes depth (loc ++ [child.1])).map (child.1 :: ·)
    | .link _ => []

theorem filesBelow_succ (t : Tree) (suffixes : List String) (depth : Nat) (loc : Location) :
    t.filesBelow suffixes (depth + 1) loc
      =
    (t.children loc).flatMap (t.filesIn suffixes depth loc) :=
  rfl

section Source

variable {t : Tree} {suffixes : List String} {loc names : Location}

theorem IsSource.ne_nil (h : t.IsSource suffixes loc names) : names ≠ [] := by
  rintro rfl
  obtain ⟨name, hname, -⟩ := h.suffix
  contradiction

theorem isSource_cons_iff (h : t.IsConnected) {name : FileName} :
    t.IsSource suffixes loc (name :: names)
      ↔
    ¬ (name.IsText ∧ name.BeginsWithDot)
      ∧ ((names = [] ∧ (∃ content, t.lookup (loc ++ [name]) = some (.file content))
          ∧ name.IsText ∧ name.EndsWithOneOf suffixes)
        ∨ (t.lookup (loc ++ [name]) = some .directory
          ∧ t.IsSource suffixes (loc ++ [name]) names)) := by
  cases names with
  | nil =>
    constructor
    . rintro ⟨hfile, hvisible, hsuffix⟩
      refine ⟨hvisible name List.mem_cons_self, Or.inl ⟨rfl, hfile, ?_⟩⟩
      simpa using hsuffix
    . rintro ⟨hvisible, ⟨-, hfile, hsuffix⟩ | ⟨-, hsource⟩⟩
      . refine ⟨hfile, by simpa using hvisible, ?_⟩
        simpa using hsuffix
      . exact absurd rfl hsource.ne_nil
  | cons name' rest =>
    have hassoc : loc ++ name :: name' :: rest = loc ++ [name] ++ name' :: rest := by simp
    constructor
    . rintro ⟨hfile, hvisible, hsuffix⟩
      rw [List.forall_mem_cons] at hvisible
      rw [List.getLast?_cons_cons] at hsuffix
      rw [hassoc] at hfile
      refine ⟨hvisible.1, Or.inr ⟨?_, hfile, hvisible.2, hsuffix⟩⟩
      obtain ⟨content, hcontent⟩ := hfile
      apply h.lookup_front (List.cons_ne_nil name' rest)
      rw [hcontent]
      rfl
    . rintro ⟨hvisible, ⟨hnil, -⟩ | ⟨-, hsource⟩⟩
      . contradiction
      . refine ⟨?_, List.forall_mem_cons.mpr ⟨hvisible, hsource.visible⟩, ?_⟩
        . rw [hassoc]
          exact hsource.file
        . rw [List.getLast?_cons_cons]
          exact hsource.suffix

theorem isSource_iff_isPromised (h : ∀ name ∈ names, name.IsText) :
    t.IsSource suffixes loc names ↔ t.IsPromised suffixes loc names := by
  constructor
  . rintro ⟨hfile, hvisible, ⟨name, hlast, -, hsuffix⟩⟩
    refine ⟨hfile, ?_, ⟨name, hlast, hsuffix⟩⟩
    intro name hname hdot
    exact hvisible name hname ⟨h name hname, hdot⟩
  . rintro ⟨hfile, hvisible, ⟨name, hlast, hsuffix⟩⟩
    refine ⟨hfile, ?_, ⟨name, hlast, h name (List.mem_of_getLast? hlast), hsuffix⟩⟩
    intro name hname hdot
    exact hvisible name hname hdot.2

theorem SameEntries.isSource {t' : Tree} (h : t.SameEntries t') :
    t'.IsSource suffixes loc names ↔ t.IsSource suffixes loc names := by
  constructor
  . rintro ⟨hfile, hvisible, hsuffix⟩
    rw [h.lookup] at hfile
    exact ⟨hfile, hvisible, hsuffix⟩
  . rintro ⟨hfile, hvisible, hsuffix⟩
    rw [← h.lookup] at hfile
    exact ⟨hfile, hvisible, hsuffix⟩

end Source

section Below

variable {t : Tree} (ht : t.IsProper) (suffixes : List String)

include ht

theorem mem_filesIn {depth : Nat} {loc names : Location} {child : FileName × Entry}
    (hchild : child ∈ t.children loc) :
    names ∈ t.filesIn suffixes depth loc child
      ↔
    ∃ rest, names = child.1 :: rest ∧ ¬ (child.1.IsText ∧ child.1.BeginsWithDot)
      ∧ ((rest = [] ∧ (∃ content, t.lookup (loc ++ [child.1]) = some (.file content))
          ∧ child.1.IsText ∧ child.1.EndsWithOneOf suffixes)
        ∨ (t.lookup (loc ++ [child.1]) = some .directory
          ∧ rest ∈ t.filesBelow suffixes depth (loc ++ [child.1]))) := by
  obtain ⟨name, e⟩ := child
  rw [mem_children ht.nodup] at hchild
  unfold filesIn
  rw [hchild, ← FileName.isHidden_iff, ← FileName.hasSuffix_iff]
  by_cases hhidden : name.isHidden
  . simp [hhidden]
  . cases e <;> simp [hhidden, and_comm, @eq_comm _ _ names]

theorem mem_filesBelow {depth : Nat} {loc names : Location} :
    names ∈ t.filesBelow suffixes depth loc
      ↔
    names.length ≤ depth ∧ t.IsSource suffixes loc names := by
  induction depth generalizing loc names with
  | zero =>
    unfold filesBelow
    rw [List.mem_nil_iff, false_iff]
    rintro ⟨hlength, hsource⟩
    exact hsource.ne_nil (List.length_eq_zero_iff.mp (Nat.le_zero.mp hlength))
  | succ depth ih =>
    rw [filesBelow_succ, List.mem_flatMap]
    constructor
    . rintro ⟨⟨name, e⟩, hchild, hnames⟩
      obtain ⟨rest, rfl, hvisible, ⟨rfl, hfile⟩ | ⟨hdirectory, hrest⟩⟩ :=
        (mem_filesIn ht suffixes hchild).mp hnames
      . exact ⟨by simp, (isSource_cons_iff ht.connected).mpr ⟨hvisible, Or.inl ⟨rfl, hfile⟩⟩⟩
      . obtain ⟨hlength, hsource⟩ := ih.mp hrest
        refine ⟨Nat.succ_le_succ hlength, (isSource_cons_iff ht.connected).mpr ⟨hvisible, ?_⟩⟩
        exact Or.inr ⟨hdirectory, hsource⟩
    . rintro ⟨hlength, hsource⟩
      obtain ⟨name, rest, rfl⟩ := List.exists_cons_of_ne_nil hsource.ne_nil
      obtain ⟨hvisible, hcases⟩ := (isSource_cons_iff ht.connected).mp hsource
      rcases hcases with ⟨rfl, ⟨content, hfile⟩, hsuffix⟩ | ⟨hdirectory, hrest⟩
      . have hchild : (name, .file content) ∈ t.children loc := (mem_children ht.nodup).mpr hfile
        refine ⟨_, hchild, (mem_filesIn ht suffixes hchild).mpr ⟨[], rfl, hvisible, ?_⟩⟩
        exact Or.inl ⟨rfl, ⟨content, hfile⟩, hsuffix⟩
      . have hchild : (name, .directory) ∈ t.children loc := (mem_children ht.nodup).mpr hdirectory
        refine ⟨_, hchild, (mem_filesIn ht suffixes hchild).mpr ⟨rest, rfl, hvisible, ?_⟩⟩
        exact Or.inr ⟨hdirectory, ih.mpr ⟨Nat.le_of_succ_le_succ hlength, hrest⟩⟩

theorem nodup_filesBelow (depth : Nat) (loc : Location) :
    (t.filesBelow suffixes depth loc).Nodup := by
  induction depth generalizing loc with
  | zero => exact List.nodup_nil
  | succ depth ih =>
    rw [filesBelow_succ, List.nodup_flatMap]
    constructor
    . rintro ⟨name, e⟩ -
      unfold filesIn
      split
      . exact List.nodup_nil
      . split
        . split
          . exact List.nodup_singleton _
          . exact List.nodup_nil
        . exact (ih _).map (List.cons_injective)
        . exact List.nodup_nil
    . apply (pairwise_children ht.nodup loc).imp_of_mem
      intro child child' hchild hchild' hne names hnames hnames'
      obtain ⟨rest, rfl, -⟩ := (mem_filesIn ht suffixes hchild).mp hnames
      obtain ⟨rest', heq, -⟩ := (mem_filesIn ht suffixes hchild').mp hnames'
      exact hne (List.cons.inj heq).1

end Below

section Scan

variable {t : Tree} {suffixes : List String} {loc : Location} {root : Path}

theorem IsScan.unique {files files' : List FoundPath} (h : t.IsScan suffixes loc root files)
    (h' : t.IsScan suffixes loc root files') :
    files = files' := by
  apply FoundPath.eq_of_pairwise_lt h.sorted h'.sorted
  intro p
  rw [h.mem_iff, h'.mem_iff]

theorem IsScan.mergeSort {files : List FoundPath}
    (hmem : ∀ p, p ∈ files ↔ p.root = root ∧ t.IsSource suffixes loc p.names)
    (hne : files.Pairwise fun p q => p.names ≠ q.names) :
    t.IsScan suffixes loc root (files.mergeSort FoundPath.le) where
  mem_iff := by
    intro p
    rw [List.mem_mergeSort, hmem]
  sorted := FoundPath.pairwise_lt_mergeSort hne

theorem SameEntries.isScan {t' : Tree} (h : t.SameEntries t') {files : List FoundPath}
    (hfiles : t'.IsScan suffixes loc root files) :
    t.IsScan suffixes loc root files where
  mem_iff := by
    intro p
    rw [hfiles.mem_iff, h.isSource]
  sorted := hfiles.sorted

theorem sourceAt?_eq_some_iff {names : Location} {e : Entry} {p : FoundPath} :
    sourceAt? root suffixes (names, e) = some p
      ↔
    p = ⟨root, names⟩ ∧ (∃ content, e = .file content)
      ∧ ∃ name ∈ names.getLast?, ¬ (name.IsText ∧ name.BeginsWithDot)
        ∧ name.IsText ∧ name.EndsWithOneOf suffixes := by
  simp only [← FileName.isHidden_iff, ← FileName.hasSuffix_iff]
  unfold sourceAt?
  cases e with
  | directory => simp
  | link => simp
  | file content =>
    dsimp only
    cases names.getLast? with
    | none => simp
    | some name => simp [and_comm, @eq_comm _ p]

variable {visited : List (Location × Entry)}

theorem Visits.isSource_iff (h : t.Visits loc visited) {names : Location} :
    (∃ e, (names, e) ∈ visited ∧ sourceAt? root suffixes (names, e) = some ⟨root, names⟩)
      ↔
    t.IsSource suffixes loc names := by
  constructor
  . rintro ⟨e, hvisit, hp⟩
    obtain ⟨-, ⟨content, rfl⟩, name, hlast, hvisible, hsuffix⟩ := sourceAt?_eq_some_iff.mp hp
    obtain ⟨hlookup, hfront⟩ := (h.mem_iff names _).mp hvisit
    refine ⟨⟨content, hlookup⟩, ?_, ⟨name, hlast, hsuffix⟩⟩
    rw [← List.dropLast_append_getLast? name hlast]
    intro name' hname'
    rcases List.mem_append.mp hname' with hname' | hname'
    . rw [← FileName.isHidden_iff]
      exact hfront name' hname'
    . rwa [List.mem_singleton.mp hname']
  . rintro ⟨⟨content, hlookup⟩, hvisible, ⟨name, hlast, hsuffix⟩⟩
    refine ⟨.file content, (h.mem_iff names _).mpr ⟨hlookup, ?_⟩, ?_⟩
    . intro name' hname'
      rw [FileName.isHidden_iff]
      exact hvisible name' ((List.dropLast_sublist names).subset hname')
    . refine sourceAt?_eq_some_iff.mpr ⟨rfl, ⟨content, rfl⟩, name, hlast, ?_, hsuffix⟩
      exact hvisible name (List.mem_of_getLast? hlast)

theorem Visits.mem_filterMap (h : t.Visits loc visited) {p : FoundPath} :
    p ∈ visited.filterMap (sourceAt? root suffixes)
      ↔
    p.root = root ∧ t.IsSource suffixes loc p.names := by
  rw [List.mem_filterMap]
  constructor
  . rintro ⟨⟨names, e⟩, hvisit, hp⟩
    obtain ⟨rfl, -⟩ := sourceAt?_eq_some_iff.mp hp
    exact ⟨rfl, h.isSource_iff.mp ⟨e, hvisit, hp⟩⟩
  . obtain ⟨root', names⟩ := p
    rintro ⟨rfl, hsource⟩
    obtain ⟨e, hvisit, hp⟩ := h.isSource_iff.mpr hsource
    exact ⟨(names, e), hvisit, hp⟩

theorem Visits.perm (h : t.Visits loc visited) {visited' : List (Location × Entry)}
    (hperm : visited'.Perm visited) :
    t.Visits loc visited' where
  nodup := hperm.nodup_iff.mpr h.nodup
  mem_iff := by
    intro names e
    rw [hperm.mem_iff, h.mem_iff]

theorem below?_eq_some_iff {place names : Location} {e e' : Entry} :
    below? loc (place, e) = some (names, e')
      ↔
    place = loc ++ names ∧ e = e' ∧ names ≠ [] ∧ ∀ name ∈ names.dropLast, ¬ name.isHidden := by
  unfold below?
  dsimp only
  constructor
  . intro h
    split at h
    . next hbelow =>
      obtain ⟨⟨rest, rfl⟩, hnames⟩ := hbelow
      cases h
      rw [List.drop_left] at hnames ⊢
      exact ⟨rfl, rfl, hnames⟩
    . contradiction
  . rintro ⟨rfl, rfl, hnames⟩
    rw [List.drop_left, if_pos ⟨List.prefix_append _ _, hnames⟩]

theorem visits_entriesBelow (ht : t.IsProper) (hloc : t.lookup loc = some .directory) :
    t.Visits loc (t.entriesBelow loc) where
  nodup := by
    unfold entriesBelow
    rw [List.nodup_cons]
    constructor
    . rw [List.mem_filterMap]
      rintro ⟨⟨place, e⟩, -, hbelow⟩
      exact (below?_eq_some_iff.mp hbelow).2.2.1 rfl
    . rw [List.nodup_iff_pairwise_ne, List.pairwise_filterMap]
      have hkeys := ht.nodup
      unfold Register.keys at hkeys
      rw [List.nodup_iff_pairwise_ne, List.pairwise_map] at hkeys
      apply hkeys.imp
      rintro ⟨place, e⟩ ⟨place', e'⟩ hne ⟨names, e₁⟩ hbelow ⟨names', e₂⟩ hbelow' heq
      obtain ⟨rfl, -⟩ := below?_eq_some_iff.mp hbelow
      obtain ⟨rfl, -⟩ := below?_eq_some_iff.mp hbelow'
      cases heq
      exact hne rfl
  mem_iff := by
    intro names e
    unfold entriesBelow
    rw [List.mem_cons, List.mem_filterMap]
    by_cases hnames : names = []
    . subst hnames
      have hbelow : ¬ ∃ entry ∈ t.entries.entries, below? loc entry = some ([], e) := by
        rintro ⟨⟨place, e'⟩, -, h⟩
        exact (below?_eq_some_iff.mp h).2.2.1 rfl
      rw [or_iff_left hbelow, List.append_nil, hloc]
      simp [@eq_comm _ e]
    . have hroot : (names, e) ≠ ([], .directory) := by
        intro heq
        exact hnames (Prod.ext_iff.mp heq).1
      rw [or_iff_right hroot,
        lookup_eq_some_iff ht.nodup (List.append_ne_nil_of_right_ne_nil _ hnames)]
      constructor
      . rintro ⟨⟨place, e'⟩, hmem, hbelow⟩
        obtain ⟨rfl, rfl, -, hfront⟩ := below?_eq_some_iff.mp hbelow
        exact ⟨hmem, hfront⟩
      . rintro ⟨hmem, hfront⟩
        exact ⟨_, hmem, below?_eq_some_iff.mpr ⟨rfl, rfl, hnames, hfront⟩⟩

theorem isScan_sourcesAmong (h : t.Visits loc visited) :
    t.IsScan suffixes loc root (sourcesAmong root suffixes visited) := by
  apply IsScan.mergeSort
  . intro p
    exact h.mem_filterMap
  . rw [List.pairwise_filterMap]
    apply (List.nodup_iff_pairwise_ne.mp h.nodup).imp_of_mem
    rintro ⟨names, e⟩ ⟨names', e'⟩ hvisit hvisit' hne p hp q hq heq
    obtain ⟨rfl, -⟩ := sourceAt?_eq_some_iff.mp hp
    obtain ⟨rfl, -⟩ := sourceAt?_eq_some_iff.mp hq
    obtain rfl : names = names' := heq
    have he := ((h.mem_iff names e).mp hvisit).1
    rw [((h.mem_iff names e').mp hvisit').1, Option.some_inj] at he
    exact hne (by rw [he])

theorem exists_isScan_sourceFiles (ht : t.IsProper) (hat : t.at? root = .ok (loc, .directory)) :
    ∃ files, t.sourceFiles root suffixes = .ok files ∧ t.IsScan suffixes loc root files := by
  let found := t.filesBelow suffixes (t.entries.size + 1) loc
  have hfound : ∀ names, names ∈ found ↔ t.IsSource suffixes loc names := by
    intro names
    rw [mem_filesBelow ht, and_iff_right_of_imp]
    intro hsource
    obtain ⟨content, hcontent⟩ := hsource.file
    have hlength : names.length ≤ t.entries.size := by
      apply ht.connected.length_le
      rw [hcontent]
      rfl
    exact Nat.le_succ_of_le hlength
  have hmem : ∀ p, p ∈ found.map (FoundPath.mk root)
      ↔ p.root = root ∧ t.IsSource suffixes loc p.names := by
    rintro ⟨root', names⟩
    rw [List.mem_map, ← hfound]
    simp [and_comm, eq_comm]
  have hne : (found.map (FoundPath.mk root)).Pairwise fun p q => p.names ≠ q.names := by
    rw [List.pairwise_map]
    exact List.nodup_iff_pairwise_ne.mp (nodup_filesBelow ht suffixes _ _)
  refine ⟨_, ?_, IsScan.mergeSort hmem hne⟩
  unfold sourceFiles
  rw [hat]

end Scan

namespace SameEntries

variable {t t' : Tree} (h : t.SameEntries t')

include h

theorem isLink (p : Path) : t'.isLink p = t.isLink p := by
  unfold Tree.isLink
  simp only [h.at?, h.lookup]

theorem sourceFiles (ht : t.IsProper) (root : Path) (suffixes : List String) :
    t'.sourceFiles root suffixes = t.sourceFiles root suffixes := by
  cases hat : t.at? root with
  | error cause =>
    unfold Tree.sourceFiles
    rw [h.at?, hat]
  | ok found =>
    obtain ⟨loc, e⟩ := found
    cases e with
    | directory =>
      obtain ⟨files, hfiles, hscan⟩ := exists_isScan_sourceFiles ht hat
      obtain ⟨files', hfiles', hscan'⟩ :=
        exists_isScan_sourceFiles (h.isProper ht) ((h.at? root).trans hat)
      rw [hfiles, hfiles', (h.isScan hscan').unique hscan]
    | file content =>
      unfold Tree.sourceFiles
      rw [h.at?, hat]
      simp only [h.isLink]
    | link target =>
      unfold Tree.sourceFiles
      rw [h.at?, hat]
      simp only [h.isLink]

end SameEntries

end Tree
end Graft
