import Graft.Digest.Sha256
import Graft.Proofs.Closure.HeaderPaths
import Graft.Proofs.Closure.Materialize

/-!
This module contains the condition on a name prefix under which no header is taken from outside the
donor tree or put outside the target tree: the directories in the prefix must not lead up from where
they start.
-/

namespace Graft
namespace Path

/--
Read from any place, the first path leads to somewhere inside the directory of the second.
-/
def IsBelow (p root : Path) : Prop :=
  ∀ here, ∃ names, names ≠ [] ∧ p.locate here = root.locate here ++ names

/--
Pieces that lead above the place they are read from, of which the last `depth` names were entered
before.
-/
def climbs (depth : Nat) : List (List Char) → Bool
  | [] => false
  | piece :: pieces =>
    match Component.ofPiece? piece with
    | some .parent => depth = 0 || climbs (depth - 1) pieces
    | some (.name _) => climbs (depth + 1) pieces
    | _ => climbs depth pieces

theorem trace_append_of_not_climbs {pieces : List (List Char)} {depth : Nat}
    (h : climbs depth pieces = false) (base : Location) {entered : Location}
    (hdepth : depth ≤ entered.length) :
    trace (base ++ entered) pieces = base ++ trace entered pieces := by
  induction pieces generalizing depth entered with
  | nil => simp
  | cons piece pieces ih =>
    rw [trace_cons, trace_cons entered]
    unfold climbs at h
    rcases Component.ofPiece?_cases piece with hpiece | hpiece | hpiece
    . rw [hpiece] at h
      rw [trace_none _ hpiece, trace_none _ hpiece]
      apply ih h hdepth
    . rw [hpiece] at h
      simp only [Bool.or_eq_false_iff, decide_eq_false_iff_not] at h
      have hentered : entered ≠ [] := by
        apply List.ne_nil_of_length_pos
        omega
      rw [trace_parent _ hpiece, trace_parent _ hpiece, List.dropLast_append_of_ne_nil hentered]
      apply ih h.2
      rw [List.length_dropLast]
      omega
    . rw [hpiece] at h
      rw [trace_name _ hpiece, trace_name _ hpiece, List.append_assoc]
      apply ih h
      rw [List.length_append, List.length_singleton]
      omega

theorem mem_of_mem_trace {pieces : List (List Char)} {here : Location} {n : List Char}
    (h : .ofText n ∈ trace here pieces) :
    .ofText n ∈ here ∨ n ∈ pieces := by
  induction pieces generalizing here with
  | nil => exact Or.inl h
  | cons piece pieces ih =>
    rw [trace_cons] at h
    rcases ih h with h | h
    . rcases Component.ofPiece?_cases piece with hpiece | hpiece | hpiece
      . rw [trace_none _ hpiece] at h
        exact Or.inl h
      . rw [trace_parent _ hpiece] at h
        exact Or.inl ((List.dropLast_sublist here).subset h)
      . rw [trace_name _ hpiece] at h
        rcases List.mem_append.mp h with h | h
        . exact Or.inl h
        . simp_all
    . exact Or.inr (List.mem_cons_of_mem _ h)

theorem not_mem_trace_of_climbs {pieces : List (List Char)} {n : List Char} {entered : Location}
    (h : climbs entered.length pieces = true) (hentered : .ofText n ∉ entered)
    (hpieces : n ∉ pieces) :
    .ofText n ∉ trace (.ofText n :: entered) pieces := by
  -- `entered` holds the names below `n`; the walk can only drop `n` once they are all left again.
  induction pieces generalizing entered with
  | nil => simp [climbs] at h
  | cons piece pieces ih =>
    simp only [List.mem_cons, not_or] at hpieces
    rw [trace_cons]
    unfold climbs at h
    rcases Component.ofPiece?_cases piece with hpiece | hpiece | hpiece
    . rw [hpiece] at h
      rw [trace_none _ hpiece]
      apply ih h hentered hpieces.2
    . rw [hpiece] at h
      rw [trace_parent _ hpiece]
      cases entered using List.reverseRecOn with
      | nil =>
        intro hmem
        rcases mem_of_mem_trace hmem with hmem | hmem
        . contradiction
        . exact hpieces.2 hmem
      | append_singleton front last =>
        rw [← List.cons_append, List.dropLast_concat]
        apply ih
        . simpa using h
        . simp_all
        . exact hpieces.2
    . rw [hpiece] at h
      rw [trace_name _ hpiece, List.cons_append]
      apply ih
      . simpa using h
      . simp [hentered, hpieces.1]
      . exact hpieces.2

end Path

namespace Materializer

def staysBelow (namePrefix : String) : Bool :=
  !(⟨namePrefix⟩ : Path).isAbsolute && !Path.climbs 0 (prefixPieces namePrefix)

/--
Headers come from inside the donor root and go to inside the target root, or they are refused.
-/
structure Confined (m : Materializer) : Prop where
  donor : ∀ request paths, m.pathsFor request = .ok paths → paths.donor.IsBelow m.donorRoot
  target : ∀ request paths, m.pathsFor request = .ok paths → paths.target.IsBelow m.targetRoot
  refused : ∀ request e, m.pathsFor request = .error e →
    e = .unsafeHeaderPath request.header request.sourceFile
  recorded : ∀ t request iteration r m' t',
    m.materialize t request iteration = (.ok r, m', t') → r.targetPath.IsBelow m.targetRoot
  written : ∀ t request iteration loc, t.NoLinks → ¬ m.LogsTo t loc →
    (m.materialize t request iteration).2.2.fileAt? loc ≠ t.fileAt? loc →
      ∃ names, names ≠ [] ∧ loc = t.locate m.targetRoot ++ names

theorem isBelow_donor {m : Materializer} {request : MissingInclude} {paths : HeaderPaths}
    (h : m.pathsFor request = .ok paths) :
    paths.donor.IsBelow m.donorRoot := by
  obtain ⟨front, n, _, hdonor, _⟩ := pathsFor_eq_ok h
  intro here
  refine ⟨front ++ [.ofText n], by simp, ?_⟩
  rw [hdonor, List.append_assoc]

theorem isBelow_target {m : Materializer} {request : MissingInclude} {paths : HeaderPaths}
    (hstays : staysBelow m.policy.namePrefixText) (h : m.pathsFor request = .ok paths) :
    paths.target.IsBelow m.targetRoot := by
  unfold staysBelow at hstays
  simp only [Bool.and_eq_true, Bool.not_eq_true'] at hstays
  obtain ⟨habsolute, hclimbs⟩ := hstays
  obtain ⟨front, n, _, _, htarget⟩ := pathsFor_eq_ok h
  intro here
  rw [htarget]
  unfold prefixPlace Tree.start
  simp only [habsolute, Bool.false_eq_true, ↓reduceIte]
  rw [Path.trace_append_of_not_climbs hclimbs _ (Nat.zero_le front.length), List.append_assoc]
  exact ⟨_, by simp, rfl⟩

theorem confined_of_staysBelow {m : Materializer} (hstays : staysBelow m.policy.namePrefixText) :
    m.Confined where
  donor _ _ := isBelow_donor
  target _ _ := isBelow_target hstays
  refused _ _ := pathsFor_eq_error
  recorded t request iteration r m' t' h := by
    obtain ⟨_, _, paths, hpaths, htarget⟩ := materialize_record h
    rw [htarget]
    apply isBelow_target hstays hpaths
  written t request iteration loc hlinks hlog hne := by
    obtain ⟨_, hchanges⟩ := materialize_changes hlinks rfl
    by_cases htouches : m.Touches t request loc
    . rcases htouches with ⟨paths, hpaths, hloc⟩ | htouches
      . rw [hloc]
        apply isBelow_target hstays hpaths
      . contradiction
    . exact absurd (hchanges.file loc htouches) hne

theorem exists_pathsFor_letter (m : Materializer) :
    ∃ paths, m.pathsFor ⟨"", "a"⟩ = .ok paths
      ∧ ∀ here, paths.target.locate here
          =
        prefixPlace m.policy.namePrefixText (m.targetRoot.locate here)
          ++ [.ofText (prefixName m.policy.namePrefixText ++ ['a'])] := by
  have haccepted : ∃ paths, m.pathsFor ⟨"", "a"⟩ = .ok paths := by
    have hcontained : (⟨"a"⟩ : Path).isContained = true := by decide +kernel
    have hname : (⟨"a"⟩ : Path).fileName? = some ['a'] := by decide +kernel
    have hparent : (⟨"a"⟩ : Path).parent? = some ⟨""⟩ := by decide +kernel
    exact ⟨_, pathsFor_of_isContained hcontained hname hparent⟩
  obtain ⟨paths, hpaths⟩ := haccepted
  refine ⟨paths, hpaths, ?_⟩
  intro here
  obtain ⟨front, n, hheader, _, htarget⟩ := pathsFor_eq_ok hpaths
  have hletter : Path.locate [] ⟨"a"⟩ = [.ofText ['a']] := by decide +kernel
  have := hheader []
  rw [hletter] at this
  simp only [List.nil_append] at this
  rcases List.append_eq_singleton_iff.mp this.symm with ⟨hfront, hn⟩ | ⟨_, hn⟩
  . have hn : n = ['a'] := by simpa using hn
    rw [htarget, hfront, hn, List.append_nil]
  . simp at hn

theorem not_confined_of_isAbsolute {m : Materializer}
    (habsolute : (⟨m.policy.namePrefixText⟩ : Path).isAbsolute)
    (hroot : m.targetRoot = ⟨m.policy.namePrefixText ++ "a"⟩) :
    ¬ m.Confined := by
  intro hconfined
  obtain ⟨paths, hpaths, htarget⟩ := exists_pathsFor_letter m
  obtain ⟨names, hne, hnames⟩ := hconfined.target _ _ hpaths []
  have hplace : ∀ here, prefixPlace m.policy.namePrefixText here
      = prefixPlace m.policy.namePrefixText [] := by
    intro here
    unfold prefixPlace Tree.start
    rw [if_pos habsolute, if_pos habsolute]
  -- The target and its root are one and the same place.
  have hsame : m.targetRoot.locate [] = paths.target.locate [] := by
    rw [htarget, hplace, hroot]
    apply locate_prefixed (n := ['a'])
    . decide
    . rfl
  rw [hsame] at hnames
  exact hne (by simpa using hnames)

theorem not_confined_of_climbs {m : Materializer} {n : List Char}
    (habsolute : ¬ (⟨m.policy.namePrefixText⟩ : Path).isAbsolute)
    (hclimbs : Path.climbs 0 (prefixPieces m.policy.namePrefixText))
    (hroot : m.targetRoot.locate [] = [.ofText n])
    (hpieces : n ∉ prefixPieces m.policy.namePrefixText)
    (hname : n ≠ prefixName m.policy.namePrefixText ++ ['a']) :
    ¬ m.Confined := by
  intro hconfined
  obtain ⟨paths, hpaths, htarget⟩ := exists_pathsFor_letter m
  obtain ⟨names, _, hnames⟩ := hconfined.target _ _ hpaths []
  have hmem : .ofText n ∈ paths.target.locate [] := by
    rw [hnames, hroot]
    simp
  rw [htarget, hroot, List.mem_append, List.mem_singleton, FileName.ofText_inj] at hmem
  rcases hmem with hmem | hmem
  . have hstart : Tree.start [.ofText n] ⟨m.policy.namePrefixText⟩ = [.ofText n] := by
      simp [Tree.start, habsolute]
    unfold prefixPlace at hmem
    rw [hstart] at hmem
    have hentered : Path.climbs ([] : Location).length (prefixPieces m.policy.namePrefixText) :=
      hclimbs
    exact Path.not_mem_trace_of_climbs hentered (by simp) hpieces hmem
  . exact hname hmem

theorem exists_name_not_mem (pieces : List (List Char)) :
    ∃ n : List Char, '/' ∉ n ∧ Component.ofPiece? n = some (.name n) ∧ n ∉ pieces := by
  let n := List.replicate (pieces.flatten.length + 3) 'x'
  have hlength : n.length = pieces.flatten.length + 3 := by simp [n]
  refine ⟨n, ?_, ?_, ?_⟩
  . intro h
    simp [n] at h
  . apply Component.ofPiece?_of_ne
    all_goals
      intro h
      rw [h] at hlength
      simp at hlength
  . intro h
    have := (List.sublist_flatten_of_mem h).length_le
    omega

/--
Exactly the prefixes that lead further down confine the headers, whatever the roots are.
-/
theorem confined_iff_staysBelow (namePrefix : Option String) :
    (∀ m : Materializer, m.policy.namePrefix = namePrefix → m.donorRoot.text ≠ "" →
        m.targetRoot.text ≠ "" → m.Confined)
      ↔
    staysBelow (namePrefix.getD "") := by
  constructor
  . intro h
    generalize hprefixText : namePrefix.getD "" = text
    by_contra hstays
    unfold staysBelow at hstays
    simp only [Bool.and_eq_true, Bool.not_eq_true', not_and, Bool.not_eq_false] at hstays
    by_cases habsolute : (⟨text⟩ : Path).isAbsolute
    . let root : Path := ⟨text ++ "a"⟩
      let m : Materializer := {
        donorRoot := root, targetRoot := root, policy := { namePrefix }, digest := Sha256.hex }
      have hm : m.policy.namePrefixText = text := hprefixText
      apply not_confined_of_isAbsolute (m := m)
      . rwa [hm]
      . rw [hm]
      . apply h m rfl <;> simp [m, root]
    . obtain ⟨n, hslash, hn, hmem⟩ :=
        exists_name_not_mem ((prefixName text ++ ['a']) :: prefixPieces text)
      simp only [List.mem_cons, not_or] at hmem
      let root : Path := ⟨.ofList n⟩
      let m : Materializer := {
        donorRoot := root, targetRoot := root, policy := { namePrefix }, digest := Sha256.hex }
      have hm : m.policy.namePrefixText = text := hprefixText
      have hroot : root.text ≠ "" := by
        intro hempty
        simp only [root, String.ofList_eq_empty_iff] at hempty
        subst hempty
        simp [Component.ofPiece?] at hn
      apply not_confined_of_climbs (m := m) (n := n)
      . rwa [hm]
      . rw [hm]
        apply hstays
        simpa using habsolute
      . apply Path.locate_piece [] hslash hn
      . rw [hm]
        exact hmem.2
      . rw [hm]
        exact hmem.1
      . apply h m rfl hroot hroot
  . rintro hstays m rfl _ _
    apply confined_of_staysBelow hstays

theorem not_confined_dots :
    ¬ Materializer.Confined {
      donorRoot := ⟨"donor"⟩
      targetRoot := ⟨"target"⟩
      digest := Sha256.hex
      policy := { namePrefix := some "../" } } := by
  apply not_confined_of_climbs (n := "target".toList)
  all_goals decide +kernel

end Materializer
end Graft
