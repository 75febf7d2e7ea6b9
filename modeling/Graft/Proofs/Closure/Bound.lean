import Graft.Proofs.Closure.Overlay

/-!
This module contains a bound on the tool calls of a closure run. A new header ends a row of passes
without one, so what a run uses up are files of the donor tree and further spellings of them.
-/

namespace Graft

def Tree.addedBelow (t t' : Tree) (root : Location) : List Location :=
  (t'.filePlaces root).filter (· ∉ t.filePlaces root)

def Materializer.newHeaders (m m' : Materializer) : List String :=
  (m'.log.drop m.log.length).map (·.header)

theorem Materializer.newHeaders_eq {m m' : Materializer} {headers : List String}
    (h : m'.log.map (·.header) = m.log.map (·.header) ++ headers) :
    m.newHeaders m' = headers := by
  unfold newHeaders
  rw [List.map_drop, h, ← List.length_map (f := (·.header)), List.drop_left]

/--
How many of the headers, read from `root`, lead to a place to which an earlier one leads.
-/
def respelled (root : Location) (headers : List String) : Nat :=
  headers.length - (distinct (headers.map fun header => Path.locate root ⟨header⟩)).length

theorem length_le_of_filePlaces {t : Tree} {root : Location} {headers : List String}
    (h : ∀ header ∈ headers, Path.locate root ⟨header⟩ ∈ t.filePlaces root) :
    headers.length ≤ (t.filePlaces root).length + respelled root headers := by
  have hplaces : (distinct (headers.map fun header => Path.locate root ⟨header⟩)).length
      ≤ (t.filePlaces root).length := by
    apply (nodup_distinct _).length_le_of_subset
    intro loc hloc
    obtain ⟨header, hheader, rfl⟩ := List.mem_map.mp (mem_distinct.mp hloc)
    exact h header hheader
  unfold respelled
  omega

namespace Tree

theorem length_filePlaces_le (t t' : Tree) (root : Location) :
    (t'.filePlaces root).length ≤ (t.filePlaces root).length + (t.addedBelow t' root).length := by
  rw [← List.length_append]
  apply (nodup_filePlaces t' root).length_le_of_subset
  intro loc hloc
  rw [List.mem_append]
  by_cases hold : loc ∈ t.filePlaces root
  . exact Or.inl hold
  . right
    unfold addedBelow
    rw [List.mem_filter]
    simp [hloc, hold]

theorem addedBelow_eq_nil {t t' : Tree} {root : Location}
    (h : ∀ loc, root <+: loc → t'.fileAt? loc = t.fileAt? loc) :
    t.addedBelow t' root = [] := by
  unfold addedBelow
  rw [List.filter_eq_nil_iff]
  intro loc hloc
  rw [mem_filePlaces] at hloc
  have hold : loc ∈ t.filePlaces root := by
    rw [mem_filePlaces, ← h loc hloc.1]
    exact hloc
  simp [hold]

end Tree

namespace Closure

variable {σ : Type}

structure Supplied (m : Materializer) (t : Tree) (headers : List String) (m' : Materializer)
    (t' : Tree) : Prop where
  later : m.Later t m' t'
  log : m'.log.map (·.header) = m.log.map (·.header) ++ headers
  present : ∀ header ∈ headers,
    Path.locate (t.locate m.donorRoot) ⟨header⟩ ∈ t'.filePlaces (t.locate m.donorRoot)
  donor : m.Separate t → ∀ loc, t.locate m.donorRoot <+: loc → t'.fileAt? loc = t.fileAt? loc

namespace Supplied

variable {m m₁ m₂ : Materializer} {t t₁ t₂ : Tree} {headers : List String}
variable {request : MissingInclude} {iteration : Nat}

theorem refl (m : Materializer) (hlinks : t.NoLinks) : Supplied m t [] m t where
  later := .refl m hlinks
  log := by simp
  present := by simp
  donor _ _ _ := rfl

theorem donor_materialize (h : Supplied m t headers m₁ t₁)
    {result : Except ClosureError MaterializedHeader}
    (hdone : m₁.materialize t₁ request iteration = (result, m₂, t₂)) (hseparate : m.Separate t)
    {loc : Location} (hloc : t.locate m.donorRoot <+: loc) :
    t₂.fileAt? loc = t.fileAt? loc := by
  rw [(h.later.materialize hdone).2 loc (hseparate.not_touches hloc)]
  apply h.donor hseparate loc hloc

theorem present_materialize (h : Supplied m t headers m₁ t₁)
    {result : Except ClosureError MaterializedHeader}
    (hdone : m₁.materialize t₁ request iteration = (result, m₂, t₂)) :
    ∀ header ∈ headers,
      Path.locate (t.locate m.donorRoot) ⟨header⟩ ∈ t₂.filePlaces (t.locate m.donorRoot) := by
  intro header hheader
  have hpresent := h.present header hheader
  rw [Tree.mem_filePlaces] at hpresent ⊢
  obtain ⟨_, hchanges⟩ := Materializer.materialize_changes h.later.noLinks hdone
  exact ⟨hpresent.1, hchanges.kept _ hpresent.2⟩

theorem handled (h : Supplied m t headers m₁ t₁) {r : MaterializedHeader}
    (hdone : m₁.materialize t₁ request iteration = (.ok r, m₂, t₂)) :
    Supplied m t (headers ++ [request.header]) m₂ t₂ := by
  obtain ⟨hlog, hheader, _⟩ := Materializer.materialize_record hdone
  obtain ⟨paths, content, hpaths, hread, _⟩ := h.later.materialize_eq_ok hdone
  obtain ⟨_, hchanges⟩ := Materializer.materialize_changes h.later.noLinks hdone
  constructor
  . exact (h.later.materialize hdone).1
  . rw [hlog, List.map_append, h.log, List.map_singleton, hheader, List.append_assoc]
  . intro header hmem
    rcases List.mem_append.mp hmem with hmem | hmem
    . exact h.present_materialize hdone header hmem
    . rw [List.mem_singleton] at hmem
      rw [hmem, Materializer.locate_header hpaths, Tree.mem_filePlaces]
      refine ⟨Materializer.donorRoot_prefix_donor hpaths, hchanges.kept _ ?_⟩
      rw [hread]
      rfl
  . intro hseparate loc hloc
    exact h.donor_materialize hdone hseparate hloc

theorem failed (h : Supplied m t headers m₁ t₁) {e : ClosureError}
    (hdone : m₁.materialize t₁ request iteration = (.error e, m₂, t₂)) :
    Supplied m t headers m₂ t₂ := by
  constructor
  . exact (h.later.materialize hdone).1
  . rw [Materializer.log_materialize_of_error hdone, h.log]
  . exact h.present_materialize hdone
  . intro hseparate loc hloc
    exact h.donor_materialize hdone hseparate hloc

end Supplied

theorem log_of_ended {firsts done : List MissingInclude}
    {result : Except ClosureError ClosureReport} {m m' : Materializer} {t t' : Tree}
    (h : Ended firsts result m' t' done m t) :
    m'.log = m.log := by
  cases h with
  | all => rfl
  | failed _ _ hfails => apply Materializer.log_materialize_of_error hfails

/--
However the tool treats the tree, a run calls it for every new header no more often than it puts up
with, and once more.
-/
theorem answers_length_le_newHeaders {g : Grammar} {k : Nat} {tool : Tool σ} {m : Materializer}
    {t : Tree} {state : σ} {ending : Ending σ} (h : close g k tool m t state = some ending) :
    (answers g k tool m t state).length
      ≤ max 1 k * (m.newHeaders ending.materializer).length + 1 := by
  have hrun := close_handled
    (P := fun done m' _ => m'.log.map (·.header) = m.log.map (·.header) ++ done.map (·.header))
    ?_ ?_ (by simp) h
  . obtain ⟨done, m₁, t₁, hlog, hcount, hended⟩ := hrun
    rw [← log_of_ended hended] at hlog
    rw [Materializer.newHeaders_eq hlog, List.length_map]
    exact hcount
  . intro done m' t' state cwd hlog
    exact hlog
  . intro done m₁ t₁ request iteration r m₂ t₂ hlog hdone
    obtain ⟨hrecord, hheader, _⟩ := Materializer.materialize_record hdone
    rw [hrecord, List.map_append, hlog, List.map_singleton, hheader, List.append_assoc,
      List.map_append, List.map_singleton]

/--
The calls that a run needs, if the tool only prints and the tree has no links. Besides a file of the
donor tree, only a file that the run puts there itself or another spelling of a header can make room
for more of them.
-/
theorem answers_length_le {g : Grammar} {k : Nat} {tool : Tool σ} {m : Materializer} {t : Tree}
    {state : σ} {ending : Ending σ} (hlinks : t.NoLinks) (htool : tool.OnlyPrints)
    (h : close g k tool m t state = some ending) :
    (answers g k tool m t state).length
        ≤ max 1 k * ((t.filePlaces (t.locate m.donorRoot)).length
          + (t.addedBelow ending.tree (t.locate m.donorRoot)).length
          + respelled (t.locate m.donorRoot) (m.newHeaders ending.materializer)) + 1
      ∧ (m.Separate t → t.addedBelow ending.tree (t.locate m.donorRoot) = []) := by
  have hrun := close_handled (P := fun done => Supplied m t (done.map (·.header)))
    ?_ ?_ (.refl m hlinks) h
  . obtain ⟨done, m₁, t₁, hsupplied, hcount, hended⟩ := hrun
    have hsupplied : Supplied m t (done.map (·.header)) ending.materializer ending.tree := by
      cases hended with
      | all => exact hsupplied
      | failed _ _ hfails => exact hsupplied.failed hfails
    rw [Materializer.newHeaders_eq hsupplied.log]
    constructor
    . have hheaders := length_le_of_filePlaces hsupplied.present
      have hfiles := Tree.length_filePlaces_le t ending.tree (t.locate m.donorRoot)
      rw [List.length_map] at hheaders
      apply Nat.le_trans hcount
      apply Nat.succ_le_succ
      apply Nat.mul_le_mul_left
      omega
    . intro hseparate
      apply Tree.addedBelow_eq_nil (hsupplied.donor hseparate)
  . intro done m' t' state cwd hsupplied
    rw [htool]
    exact hsupplied
  . intro done m₁ t₁ request iteration r m₂ t₂ hsupplied hdone
    rw [List.map_append]
    exact hsupplied.handled hdone

theorem answers_length_le_respelled :
    ∃ ending,
      close .default 1 .ofTexts headerCopier .oneHeader (missingTexts ["a.h", "./a.h", "./a.h"])
        = some ending
      ∧ (answers .default 1 .ofTexts headerCopier .oneHeader
            (missingTexts ["a.h", "./a.h", "./a.h"])).length
          ≤ max 1 1
            * ((Tree.oneHeader.filePlaces (Tree.oneHeader.locate headerCopier.donorRoot)).length
              + (Tree.oneHeader.addedBelow ending.tree
                  (Tree.oneHeader.locate headerCopier.donorRoot)).length
              + respelled (Tree.oneHeader.locate headerCopier.donorRoot)
                  (headerCopier.newHeaders ending.materializer)) + 1
      ∧ Tree.oneHeader.addedBelow ending.tree (Tree.oneHeader.locate headerCopier.donorRoot)
          = [] := by
  have hrun : (close .default 1 .ofTexts headerCopier .oneHeader
      (missingTexts ["a.h", "./a.h", "./a.h"])).isSome = true := by
    decide +kernel
  obtain ⟨ending, hclose⟩ := Option.isSome_iff_exists.mp hrun
  obtain ⟨hcount, hadded⟩ :=
    answers_length_le Tree.noLinks_oneHeader Tool.onlyPrints_ofTexts hclose
  exact ⟨ending, hclose, hcount, hadded separate_headerCopier⟩

theorem answers_length_gt_files :
    ∃ ending,
      close .default 1 .ofTexts headerCopier .oneHeader (missingTexts ["a.h", "./a.h", "./a.h"])
        = some ending
      ∧ ¬ (answers .default 1 .ofTexts headerCopier .oneHeader
            (missingTexts ["a.h", "./a.h", "./a.h"])).length
          ≤ max 1 1
            * (Tree.oneHeader.filePlaces (Tree.oneHeader.locate headerCopier.donorRoot)).length + 1 := by
  have hrun : (close .default 1 .ofTexts headerCopier .oneHeader
      (missingTexts ["a.h", "./a.h", "./a.h"])).isSome = true := by
    decide +kernel
  obtain ⟨ending, hclose⟩ := Option.isSome_iff_exists.mp hrun
  refine ⟨ending, hclose, ?_⟩
  decide +kernel

end Closure
end Graft
