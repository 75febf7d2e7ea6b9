import Graft.Digest.Sha256
import Graft.Proofs.Closure.Targets

/-!
This module contains which headers have places under both roots, and that these places repeat the
names of the header: under a prefix without a separator, two headers share a target exactly if they
share a donor.
-/

namespace Graft

structure LeadsDown (header : String) : Prop where
  relative : header.toList.head? ≠ some '/'
  downward : ['.', '.'] ∉ header.toList.splitOn '/'
  named : namedPieces header.toList ≠ []

namespace Path

variable {p : Path}

theorem steps_eq_namedPieces (h : ['.', '.'] ∉ p.text.toList.splitOn '/') :
    p.steps = (namedPieces p.text.toList).map .name := by
  unfold steps namedPieces
  rw [← List.filterMap_eq_map, List.filterMap_filter]
  apply List.filterMap_congr
  intro piece hpiece
  have hparent : piece ≠ ['.', '.'] := by
    rintro rfl
    exact h hpiece
  by_cases hname : piece ≠ [] ∧ piece ≠ ['.']
  . simp [Component.ofPiece?_of_ne hname.1 hname.2 hparent, hname]
  . rw [not_and_or, not_not, not_not] at hname
    rcases hname with rfl | rfl <;> rfl

theorem parent_mem_steps_iff : .parent ∈ p.steps ↔ ['.', '.'] ∈ p.text.toList.splitOn '/' := by
  unfold steps
  rw [List.mem_filterMap]
  constructor
  . rintro ⟨piece, hpiece, hparent⟩
    unfold Component.ofPiece? at hparent
    split at hparent
    . contradiction
    . split at hparent
      . next hdots =>
        rw [← hdots]
        exact hpiece
      . simp at hparent
  . intro hdots
    exact ⟨_, hdots, rfl⟩

theorem start_cases (p : Path) :
    p.body.start = none ∨ p.body.start = some .root ∨ p.body.start = some .current :=
  (Body.readable_trimEnd_ofText p.text.toList).start

theorem isContained_iff : p.isContained ↔ ¬ p.isAbsolute ∧ .parent ∉ p.steps := by
  have hcomponents : p.isContained ↔ .root ∉ p.components ∧ .parent ∉ p.components := by
    unfold isContained
    rw [List.all_eq_true]
    constructor
    . intro h
      refine ⟨?_, ?_⟩
      all_goals
        intro hmem
        have := h _ hmem
        contradiction
    . rintro ⟨hroot, hparent⟩ c hc
      cases c with
      | root => contradiction
      | current => rfl
      | parent => contradiction
      | name n => rfl
  have hsteps := (not_mem_steps p).1
  rw [hcomponents, ← start_eq_root_iff, components_eq_steps]
  rcases start_cases p with hstart | hstart | hstart <;> simp [hstart, hsteps]

theorem fileName?_of_steps {names : List (List Char)} (h : p.steps = names.map .name) :
    p.fileName? = names.getLast? := by
  unfold fileName?
  rw [components_eq_steps, h]
  cases names using List.reverseRecOn with
  | nil => rcases start_cases p with hstart | hstart | hstart <;> simp [hstart]
  | append_singleton front n => simp

end Path

namespace Materializer

structure Mirrors (m : Materializer) : Prop where
  accepted : ∀ request, (∃ paths, m.pathsFor request = .ok paths) ↔ LeadsDown request.header
  donor : ∀ request paths, m.pathsFor request = .ok paths →
    paths.donor.components = m.donorRoot.components ++ (namedPieces request.header.toList).map .name
  target : ∀ request paths, m.pathsFor request = .ok paths →
    ∃ directory name, namedPieces request.header.toList = directory ++ [name]
      ∧ paths.target.components = m.targetRoot.components ++ directory.map .name
        ++ [.name (m.policy.namePrefixText.toList ++ name)]
  /-- Different donors never compete for one target. -/
  separate : ∀ request request' paths paths', m.pathsFor request = .ok paths →
    m.pathsFor request' = .ok paths' →
      (paths.target.sameAs paths'.target ↔ paths.donor.sameAs paths'.donor)
  /-- Two spellings of one header have the same places. -/
  spelled : ∀ request request' paths paths', m.pathsFor request = .ok paths →
    m.pathsFor request' = .ok paths' →
      (paths.donor.sameAs paths'.donor
        ↔ namedPieces request.header.toList = namedPieces request'.header.toList)

theorem isContained_iff_leadsDown {header : String} :
    (⟨header⟩ : Path).isContained ∧ (⟨header⟩ : Path).fileName?.isSome ↔ LeadsDown header := by
  have habsolute : ¬ (⟨header⟩ : Path).isAbsolute ↔ header.toList.head? ≠ some '/' := by
    unfold Path.isAbsolute
    simp
  rw [Path.isContained_iff, habsolute, Path.parent_mem_steps_iff]
  constructor
  . rintro ⟨⟨hrelative, hdownward⟩, hname⟩
    rw [Path.fileName?_of_steps (Path.steps_eq_namedPieces hdownward)] at hname
    refine ⟨hrelative, hdownward, ?_⟩
    simpa using hname
  . rintro ⟨hrelative, hdownward, hnamed⟩
    rw [Path.fileName?_of_steps (Path.steps_eq_namedPieces hdownward)]
    refine ⟨⟨hrelative, hdownward⟩, ?_⟩
    simpa using hnamed

theorem exists_pathsFor_iff {m : Materializer} {request : MissingInclude} :
    (∃ paths, m.pathsFor request = .ok paths) ↔ LeadsDown request.header := by
  rw [← isContained_iff_leadsDown]
  unfold pathsFor
  dsimp only
  constructor
  . rintro ⟨paths, hpaths⟩
    split at hpaths
    . next n hcontained hname => simp [hcontained, hname]
    . contradiction
  . rintro ⟨hcontained, hname⟩
    obtain ⟨n, hname⟩ := Option.isSome_iff_exists.mp hname
    rw [hcontained, hname]
    exact ⟨_, rfl⟩

theorem steps_prefixed {namePrefix : String} (hflat : '/' ∉ namePrefix.toList) {n : List Char}
    (hslash : '/' ∉ n) (hn : Component.ofPiece? n = some (.name n)) :
    (⟨namePrefix ++ .ofList n⟩ : Path).steps = [.name (namePrefix.toList ++ n)] := by
  have hpieces : prefixPieces namePrefix = [] ∧ prefixName namePrefix = namePrefix.toList := by
    refine ⟨?_, prefixName_of_not_mem hflat⟩
    unfold prefixPieces
    rw [List.splitOn_eq_singleton hflat]
    rfl
  unfold Path.steps
  rw [splitOn_prefixed namePrefix hslash, hpieces.1, hpieces.2, List.nil_append,
    List.filterMap_cons_some (Path.ofPiece?_append hn _)]
  rfl

section Places

variable {m : Materializer} (hdonor : m.donorRoot.text ≠ "") (htarget : m.targetRoot.text ≠ "")
variable (hflat : '/' ∉ m.policy.namePrefixText.toList)

include hdonor htarget hflat

theorem exists_names_of_pathsFor {request : MissingInclude} {paths : HeaderPaths}
    (h : m.pathsFor request = .ok paths) :
    ∃ directory name, namedPieces request.header.toList = directory ++ [name]
      ∧ paths.donor.components = m.donorRoot.components ++ directory.map .name ++ [.name name]
      ∧ paths.target.components = m.targetRoot.components ++ directory.map .name
        ++ [.name (m.policy.namePrefixText.toList ++ name)] := by
  have hdown := exists_pathsFor_iff.mp ⟨paths, h⟩
  have hheader :
      ∀ here, Path.locate here ⟨request.header⟩
        = here ++ (namedPieces request.header.toList).map .ofText := by
    apply Path.locate_of_steps
    . exact (Path.isContained_iff.mp (isContained_iff_leadsDown.mpr hdown).1).1
    . exact Path.steps_eq_namedPieces hdown.downward
  unfold pathsFor at h
  dsimp only at h
  split at h
  . next n hcontained hname =>
    cases h
    obtain ⟨parent, hparent, hslash, hn, hlocate⟩ := Path.exists_parent hname
    obtain ⟨hrelative, directory, hsteps⟩ :=
      Path.steps_parent_of_isContained hcontained hname hparent
    rw [hparent]
    refine ⟨directory, n, ?_, ?_, ?_⟩
    . have hnames := (hheader []).symm.trans (hlocate [])
      rw [Path.locate_of_steps hrelative hsteps, List.nil_append, List.nil_append,
        ← List.map_singleton, ← List.map_append, FileName.map_ofText_inj] at hnames
      exact hnames
    . -- The donor path is the target path under an empty prefix.
      have hempty : ¬ (⟨""⟩ : Path).isAbsolute := by decide
      have hplace := components_target hdonor hempty hrelative hsteps hslash
      rw [steps_prefixed (by simp) hslash hn] at hplace
      simpa using hplace
    . have hplace := components_target htarget (not_isAbsolute_of_not_mem hflat) hrelative hsteps
        hslash
      rw [steps_prefixed hflat hslash hn] at hplace
      exact hplace
  . contradiction

theorem sameAs_iff_namedPieces {request request' : MissingInclude} {paths paths' : HeaderPaths}
    (h : m.pathsFor request = .ok paths) (h' : m.pathsFor request' = .ok paths') :
    (paths.donor.sameAs paths'.donor
        ↔ namedPieces request.header.toList = namedPieces request'.header.toList)
      ∧ (paths.target.sameAs paths'.target
        ↔ namedPieces request.header.toList = namedPieces request'.header.toList) := by
  obtain ⟨directory, name, hheader, hfrom, hto⟩ := exists_names_of_pathsFor hdonor htarget hflat h
  obtain ⟨directory', name', hheader', hfrom', hto'⟩ :=
    exists_names_of_pathsFor hdonor htarget hflat h'
  have hinjective : Function.Injective (List.map Component.name) :=
    List.map_injective_iff.mpr fun _ _ => Component.name.inj
  rw [Path.sameAs_iff, Path.sameAs_iff, hheader, hheader', hfrom, hfrom', hto, hto']
  simp [List.append_assoc, hinjective.eq_iff]

end Places

/--
A prefix without a separator makes the places under both roots repeat the names of the header.
-/
theorem pathsFor_mirrors {m : Materializer} (hdonor : m.donorRoot.text ≠ "")
    (htarget : m.targetRoot.text ≠ "") (hflat : '/' ∉ m.policy.namePrefixText.toList) :
    m.Mirrors := by
  constructor
  . intro request
    exact exists_pathsFor_iff
  . intro request paths h
    obtain ⟨directory, name, hheader, hfrom, _⟩ :=
      exists_names_of_pathsFor hdonor htarget hflat h
    rw [hheader, hfrom]
    simp
  . intro request paths h
    obtain ⟨directory, name, hheader, _, hto⟩ := exists_names_of_pathsFor hdonor htarget hflat h
    exact ⟨directory, name, hheader, hto⟩
  . intro request request' paths paths' h h'
    have hsame := sameAs_iff_namedPieces hdonor htarget hflat h h'
    rw [hsame.1, hsame.2]
  . intro request request' paths paths' h h'
    exact (sameAs_iff_namedPieces hdonor htarget hflat h h').1

def dotsCopier : Materializer where
  donorRoot := ⟨"./d/"⟩
  targetRoot := ⟨"/t"⟩
  digest := Sha256.hex
  policy := { namePrefix := some ".." }

theorem pathsFor_mirrors_dots :
    dotsCopier.donorRoot.text ≠ "" ∧ dotsCopier.targetRoot.text ≠ ""
      ∧ '/' ∉ dotsCopier.policy.namePrefixText.toList ∧ dotsCopier.Mirrors
      ∧ ∃ paths paths', dotsCopier.pathsFor ⟨"x.c", "./sys//a.h/"⟩ = .ok paths
        ∧ dotsCopier.pathsFor ⟨"y.c", "sys/./a.h"⟩ = .ok paths'
        ∧ paths.target.sameAs paths'.target := by
  have hdonor : dotsCopier.donorRoot.text ≠ "" := by decide
  have htarget : dotsCopier.targetRoot.text ≠ "" := by decide
  have hflat : '/' ∉ dotsCopier.policy.namePrefixText.toList := by decide +kernel
  have hmirrors := pathsFor_mirrors hdonor htarget hflat
  have hdown : LeadsDown "./sys//a.h/" ∧ LeadsDown "sys/./a.h" := by
    refine ⟨⟨?_, ?_, ?_⟩, ⟨?_, ?_, ?_⟩⟩ <;> decide +kernel
  obtain ⟨paths, h⟩ := (hmirrors.accepted ⟨"x.c", "./sys//a.h/"⟩).mpr hdown.1
  obtain ⟨paths', h'⟩ := (hmirrors.accepted ⟨"y.c", "sys/./a.h"⟩).mpr hdown.2
  refine ⟨hdonor, htarget, hflat, hmirrors, paths, paths', h, h', ?_⟩
  rw [hmirrors.separate _ _ _ _ h h', hmirrors.spelled _ _ _ _ h h']
  decide +kernel

end Materializer
end Graft
