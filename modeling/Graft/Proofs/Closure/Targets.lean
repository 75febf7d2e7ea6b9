import Graft.Proofs.Closure.Confinement
import Graft.Proofs.Tree.Spelling

/-!
This module contains when two headers share a target: unless the name prefix leads up from where it
starts, targets at one place are one path.
-/

namespace Graft
namespace Materializer

/--
A prefix under which targets with different components are different places: it starts anew or leads
nowhere but further down.
-/
def separates (namePrefix : String) : Bool :=
  (⟨namePrefix⟩ : Path).isAbsolute || !Path.climbs 0 (prefixPieces namePrefix)

theorem endsWithName_prefixed (namePrefix : String) {n : List Char} (hslash : '/' ∉ n)
    (hn : Component.ofPiece? n = some (.name n)) :
    (⟨namePrefix ++ .ofList n⟩ : Path).EndsWithName := by
  refine ⟨prefixName namePrefix ++ n, ?_, Path.ofPiece?_append hn _⟩
  rw [splitOn_prefixed namePrefix hslash, List.getLast?_concat]

theorem exists_target {m : Materializer} {request : MissingInclude} {paths : HeaderPaths}
    (h : m.pathsFor request = .ok paths) :
    ∃ (directory : Path) (names : List (List Char)) (n : List Char),
      ¬ directory.isAbsolute ∧ directory.steps = names.map .name
        ∧ '/' ∉ n ∧ Component.ofPiece? n = some (.name n)
        ∧ paths.target
          = (m.targetRoot.join directory).join ⟨m.policy.namePrefixText ++ .ofList n⟩ := by
  unfold pathsFor at h
  dsimp only at h
  split at h
  . next n hcontained hname =>
    cases h
    obtain ⟨parent, hparent, hslash, hn, _⟩ := Path.exists_parent hname
    obtain ⟨habsolute, names, hsteps⟩ := Path.steps_parent_of_isContained hcontained hname hparent
    refine ⟨parent, names, n, habsolute, hsteps, hslash, hn, ?_⟩
    rw [hparent]
    rfl
  . contradiction

theorem endsWithName_target {m : Materializer} {request : MissingInclude} {paths : HeaderPaths}
    (h : m.pathsFor request = .ok paths) :
    paths.target.EndsWithName := by
  obtain ⟨directory, names, n, _, _, hslash, hn, htarget⟩ := exists_target h
  rw [htarget]
  apply (endsWithName_prefixed _ hslash hn).join

theorem prefixPlace_of_not_climbs {namePrefix : String}
    (habsolute : ¬ (⟨namePrefix⟩ : Path).isAbsolute)
    (hclimbs : Path.climbs 0 (prefixPieces namePrefix) = false) (here : Location) :
    prefixPlace namePrefix here = here ++ Path.trace [] (prefixPieces namePrefix) := by
  have htrace := Path.trace_append_of_not_climbs hclimbs here (Nat.zero_le ([] : Location).length)
  rw [List.append_nil] at htrace
  unfold prefixPlace
  rw [← htrace]
  simp [Tree.start, habsolute]

theorem join_prefixed_of_isAbsolute {namePrefix : String} {n : List Char} (hslash : '/' ∉ n)
    (habsolute : (⟨namePrefix⟩ : Path).isAbsolute) (p : Path) :
    p.join ⟨namePrefix ++ .ofList n⟩ = ⟨namePrefix ++ .ofList n⟩ := by
  apply Path.join_eq_right
  left
  rw [isAbsolute_prefixed _ hslash]
  exact habsolute

theorem components_target {root directory : Path} {namePrefix : String} {names : List (List Char)}
    {n : List Char} (hroot : root.text ≠ "") (habsolute : ¬ (⟨namePrefix⟩ : Path).isAbsolute)
    (hrelative : ¬ directory.isAbsolute) (hnames : directory.steps = names.map .name)
    (hslash : '/' ∉ n) :
    ((root.join directory).join ⟨namePrefix ++ .ofList n⟩).components
      =
    root.components ++ names.map .name ++ (⟨namePrefix ++ .ofList n⟩ : Path).steps := by
  rw [← isAbsolute_prefixed _ hslash] at habsolute
  rw [Path.components_join (Path.join_text_ne hroot hrelative) habsolute,
    Path.components_join hroot hrelative, hnames]

theorem sameAs_of_locate_eq {m : Materializer} (hroot : m.targetRoot.text ≠ "")
    (hseparates : separates m.policy.namePrefixText) {request request' : MissingInclude}
    {paths paths' : HeaderPaths} (h : m.pathsFor request = .ok paths)
    (h' : m.pathsFor request' = .ok paths') {here : Location}
    (heq : paths.target.locate here = paths'.target.locate here) :
    paths.target.sameAs paths'.target := by
  obtain ⟨directory, names, n, hrelative, hnames, hslash, hn, htarget⟩ := exists_target h
  obtain ⟨directory', names', n', hrelative', hnames', hslash', hn', htarget'⟩ := exists_target h'
  rw [htarget, htarget'] at heq ⊢
  simp only [Path.locate_join] at heq
  rw [Path.locate_of_steps hrelative hnames, Path.locate_of_steps hrelative' hnames',
    locate_prefixed _ _ hslash hn, locate_prefixed _ _ hslash' hn', List.append_singleton_inj,
    FileName.ofText_inj, List.append_cancel_left_eq] at heq
  obtain ⟨hdirectory, hname⟩ := heq
  subst hname
  rw [Path.sameAs_iff]
  by_cases habsolute : (⟨m.policy.namePrefixText⟩ : Path).isAbsolute
  . rw [join_prefixed_of_isAbsolute hslash habsolute, join_prefixed_of_isAbsolute hslash habsolute]
  . unfold separates at hseparates
    simp only [habsolute, Bool.false_or, Bool.not_eq_true'] at hseparates
    rw [prefixPlace_of_not_climbs habsolute hseparates,
      prefixPlace_of_not_climbs habsolute hseparates, List.append_cancel_right_eq,
      List.append_cancel_left_eq, FileName.map_ofText_inj] at hdirectory
    subst hdirectory
    rw [components_target hroot habsolute hrelative hnames hslash,
      components_target hroot habsolute hrelative' hnames' hslash]

end Materializer

/--
Where a walk leaves the place that it starts from, the name of that place makes no difference.
-/
theorem Path.trace_eq_of_climbs {pieces : List (List Char)} {entered : Location}
    (h : climbs entered.length pieces = true) (here : Location) (n n' : FileName) :
    trace (here ++ n :: entered) pieces = trace (here ++ n' :: entered) pieces := by
  induction pieces generalizing entered with
  | nil => simp [climbs] at h
  | cons piece pieces ih =>
    rw [trace_cons, trace_cons (here ++ n' :: entered)]
    unfold climbs at h
    rcases Component.ofPiece?_cases piece with hpiece | hpiece | hpiece
    . rw [hpiece] at h
      rw [trace_none _ hpiece, trace_none _ hpiece]
      apply ih h
    . rw [hpiece] at h
      rw [trace_parent _ hpiece, trace_parent _ hpiece]
      cases entered using List.reverseRecOn with
      | nil => rw [List.dropLast_concat, List.dropLast_concat]
      | append_singleton front last =>
        rw [← List.cons_append, ← List.cons_append, ← List.append_assoc, ← List.append_assoc,
          List.dropLast_concat, List.dropLast_concat]
        apply ih
        simpa using h
    . rw [hpiece] at h
      rw [trace_name _ hpiece, trace_name _ hpiece, List.append_assoc, List.append_assoc,
        List.cons_append, List.cons_append]
      apply ih
      simpa using h

namespace Materializer

theorem separates_iff {m : Materializer} (hroot : m.targetRoot.text ≠ "") :
    separates m.policy.namePrefixText ↔
      ∀ request request' paths paths' here,
        m.pathsFor request = .ok paths → m.pathsFor request' = .ok paths' →
        paths.target.locate here = paths'.target.locate here →
          paths.target.sameAs paths'.target := by
  constructor
  . intro hseparates request request' paths paths' here h h' heq
    apply sameAs_of_locate_eq hroot hseparates h h' heq
  . intro hsame
    by_contra hnot
    unfold separates at hnot
    simp only [Bool.or_eq_true, Bool.not_eq_true', not_or, Bool.not_eq_true, Bool.not_eq_false]
      at hnot
    obtain ⟨habsolute, hclimbs⟩ := hnot
    rw [← Bool.not_eq_true] at habsolute
    -- The prefix leads out of both directories again.
    have hx : m.pathsFor ⟨"", "x/a"⟩ = .ok {
        donor := (m.donorRoot.join ⟨"x"⟩).join ⟨.ofList ['a']⟩
        target := (m.targetRoot.join ⟨"x"⟩).join ⟨m.policy.namePrefixText ++ .ofList ['a']⟩ } := by
      apply pathsFor_of_isContained <;> decide +kernel
    have hy : m.pathsFor ⟨"", "y/a"⟩ = .ok {
        donor := (m.donorRoot.join ⟨"y"⟩).join ⟨.ofList ['a']⟩
        target := (m.targetRoot.join ⟨"y"⟩).join ⟨m.policy.namePrefixText ++ .ofList ['a']⟩ } := by
      apply pathsFor_of_isContained <;> decide +kernel
    have hrelative : ¬ (⟨"x"⟩ : Path).isAbsolute ∧ ¬ (⟨"y"⟩ : Path).isAbsolute := by
      decide +kernel
    have hsteps : (⟨"x"⟩ : Path).steps = [['x']].map .name
        ∧ (⟨"y"⟩ : Path).steps = [['y']].map .name := by
      decide +kernel
    have hslash : '/' ∉ ['a'] := by decide
    have hplace : prefixPlace m.policy.namePrefixText (m.targetRoot.locate [] ++ [['x']].map .ofText)
        = prefixPlace m.policy.namePrefixText (m.targetRoot.locate [] ++ [['y']].map .ofText) := by
      have hentered : Path.climbs ([] : Location).length (prefixPieces m.policy.namePrefixText) :=
        hclimbs
      unfold prefixPlace Tree.start
      rw [if_neg habsolute, if_neg habsolute]
      apply Path.trace_eq_of_climbs hentered
    have hsame := hsame _ _ _ _ [] hx hy
    simp only [Path.locate_join] at hsame
    rw [Path.locate_of_steps hrelative.1 hsteps.1, Path.locate_of_steps hrelative.2 hsteps.2,
      locate_prefixed _ _ hslash rfl, locate_prefixed _ _ hslash rfl, hplace] at hsame
    replace hsame := hsame rfl
    rw [Path.sameAs_iff, components_target hroot habsolute hrelative.1 hsteps.1 hslash,
      components_target hroot habsolute hrelative.2 hsteps.2 hslash, List.append_cancel_right_eq,
      List.append_cancel_left_eq] at hsame
    simp at hsame

end Materializer
end Graft
