import Graft.Proofs.Closure.Handled
import Graft.Proofs.Closure.HeaderPaths

/-!
This module contains the effect of a whole closure run on the files of a tree: the handled headers
are at their targets with their content from the donor tree, and nothing else has changed.
-/

namespace Graft
namespace Materializer

/--
Neither root is inside the other, the name prefix leads to no other directory, and the audit log is
not in the donor tree.
-/
structure Separate (m : Materializer) (t : Tree) : Prop where
  donor : ¬ t.locate m.donorRoot <+: t.locate m.targetRoot
  target : ¬ t.locate m.targetRoot <+: t.locate m.donorRoot
  name : '/' ∉ m.policy.namePrefixText.toList
  log : ∀ loc, m.LogsTo t loc → ¬ t.locate m.donorRoot <+: loc

/--
The files of the second tree, the audit log aside, are those of the first with the donor content of
the handled headers laid over their targets.
-/
structure Overlays (m : Materializer) (handled : List MissingInclude) (t t' : Tree) : Prop where
  placed : ∀ request ∈ handled, ∃ paths content, m.pathsFor request = .ok paths
    ∧ t.fileAt? (t.locate paths.donor) = some content
    ∧ t'.fileAt? (t.locate paths.target) = some content
  others : ∀ loc, ¬ m.LogsTo t loc →
    (∀ request ∈ handled, ∀ paths, m.pathsFor request = .ok paths → loc ≠ t.locate paths.target) →
      t'.fileAt? loc = t.fileAt? loc
  donor : ∀ loc, t.locate m.donorRoot <+: loc → t'.fileAt? loc = t.fileAt? loc

section Separate

variable {m : Materializer} {t : Tree} {request request' : MissingInclude}
variable {paths paths' : HeaderPaths}

theorem donorRoot_prefix_donor (h : m.pathsFor request = .ok paths) :
    t.locate m.donorRoot <+: t.locate paths.donor := by
  obtain ⟨front, n, _, hdonor, _⟩ := pathsFor_eq_ok h
  unfold Tree.locate
  rw [hdonor, List.append_assoc]
  apply List.prefix_append

theorem locate_header (h : m.pathsFor request = .ok paths) :
    Path.locate (t.locate m.donorRoot) ⟨request.header⟩ = t.locate paths.donor := by
  obtain ⟨front, n, hheader, hdonor, _⟩ := pathsFor_eq_ok h
  unfold Tree.locate
  rw [hheader, hdonor]

namespace Separate

theorem locate_target (hseparate : m.Separate t) (h : m.pathsFor request = .ok paths) :
    ∃ front n, t.locate paths.donor = t.locate m.donorRoot ++ (front ++ [.ofText n])
      ∧ t.locate paths.target
        = t.locate m.targetRoot ++ (front ++ [.ofText (m.policy.namePrefixText.toList ++ n)]) := by
  obtain ⟨front, n, _, hdonor, htarget⟩ := pathsFor_eq_ok h
  refine ⟨front, n, ?_, ?_⟩
  . unfold Tree.locate
    rw [hdonor, List.append_assoc]
  . unfold Tree.locate
    rw [htarget, prefixPlace_of_not_mem hseparate.name, prefixName_of_not_mem hseparate.name,
      List.append_assoc]

theorem not_prefix_target (hseparate : m.Separate t) (h : m.pathsFor request = .ok paths) :
    ¬ t.locate m.donorRoot <+: t.locate paths.target := by
  intro hdonor
  obtain ⟨front, n, _, htarget⟩ := hseparate.locate_target h
  rw [htarget] at hdonor
  rcases List.prefix_or_prefix_of_prefix hdonor (List.prefix_append _ _) with hroots | hroots
  . exact hseparate.donor hroots
  . exact hseparate.target hroots

theorem not_touches (hseparate : m.Separate t) {loc : Location}
    (hloc : t.locate m.donorRoot <+: loc) :
    ¬ m.Touches t request loc := by
  rintro (⟨paths, hpaths, rfl⟩ | hlogs)
  . exact hseparate.not_prefix_target hpaths hloc
  . exact hseparate.log loc hlogs hloc

theorem donor_eq_of_target_eq (hseparate : m.Separate t) (h : m.pathsFor request = .ok paths)
    (h' : m.pathsFor request' = .ok paths') (heq : t.locate paths.target = t.locate paths'.target) :
    t.locate paths.donor = t.locate paths'.donor := by
  obtain ⟨front, n, hdonor, htarget⟩ := hseparate.locate_target h
  obtain ⟨front', n', hdonor', htarget'⟩ := hseparate.locate_target h'
  rw [htarget, htarget', List.append_cancel_left_eq] at heq
  obtain ⟨hfront, hname⟩ := List.append_inj' heq rfl
  simp only [List.cons.injEq, FileName.ofText_inj, List.append_cancel_left_eq, and_true] at hname
  rw [hdonor, hdonor', hfront, hname]

end Separate
end Separate

namespace Overlays

theorem refl (m : Materializer) (t : Tree) : m.Overlays [] t t where
  placed := by simp
  others _ _ _ := rfl
  donor _ _ := rfl

theorem materialize {m m₁ m₂ : Materializer} {t t₁ t₂ : Tree} {done : List MissingInclude}
    {request : MissingInclude} {iteration : Nat} {r : MaterializedHeader}
    (hseparate : m.Separate t) (hlater : m.Later t m₁ t₁)
    (hlog : ∀ request' ∈ done ++ [request], ∀ paths, m.pathsFor request' = .ok paths →
      ¬ m.LogsTo t (t.locate paths.target))
    (hover : m.Overlays done t t₁)
    (h : m₁.materialize t₁ request iteration = (.ok r, m₂, t₂)) :
    m.Overlays (done ++ [request]) t t₂ := by
  obtain ⟨paths, content, hpaths, hread, hwritten⟩ := hlater.materialize_eq_ok h
  have hwritten := hwritten (hlog request (by simp) paths hpaths)
  rw [hover.donor _ (donorRoot_prefix_donor hpaths)] at hread
  have huntouched := (hlater.materialize h).2
  have hkept : ∀ loc, ¬ m.LogsTo t loc → loc ≠ t.locate paths.target →
      t₂.fileAt? loc = t₁.fileAt? loc := by
    intro loc hnot hne
    apply huntouched
    rintro (⟨paths', hpaths', hloc⟩ | hlogs)
    . rw [hpaths] at hpaths'
      cases hpaths'
      exact hne hloc
    . exact hnot hlogs
  constructor
  . intro request' hmem
    rcases List.mem_append.mp hmem with hdone | hlast
    . obtain ⟨paths', content', hpaths', hread', hwritten'⟩ := hover.placed request' hdone
      refine ⟨paths', content', hpaths', hread', ?_⟩
      -- A later spelling of the same header writes what is there already.
      by_cases htarget : t.locate paths'.target = t.locate paths.target
      . have hdonor := hseparate.donor_eq_of_target_eq hpaths' hpaths htarget
        rw [hdonor, hread] at hread'
        rw [htarget, hwritten, hread']
      . rw [hkept _ (hlog request' hmem paths' hpaths') htarget, hwritten']
    . rw [List.mem_singleton] at hlast
      subst hlast
      exact ⟨paths, content, hpaths, hread, hwritten⟩
  . intro loc hnot hne
    rw [hkept loc hnot (hne request (by simp) paths hpaths)]
    apply hover.others loc hnot
    intro request' hdone
    exact hne request' (by simp [hdone])
  . intro loc hloc
    rw [huntouched loc (hseparate.not_touches hloc), hover.donor loc hloc]

end Overlays
end Materializer

namespace Closure

variable {σ : Type}

/--
The files after a run, if the tool only prints and the file system refuses nothing.
-/
theorem close_overlays {g : Grammar} {k : Nat} {tool : Tool σ} {m : Materializer} {t : Tree}
    {state : σ} {ending : Ending σ} (hlinks : t.NoLinks) (htool : tool.OnlyPrints)
    (hseparate : m.Separate t) (h : close g k tool m t state = some ending)
    (hfile : ∀ path cause, ending.result ≠ .error (.fileError path cause))
    (hlog : ∀ request ∈ handled g (answers g k tool m t state) ending.result,
      ∀ paths, m.pathsFor request = .ok paths → ¬ m.LogsTo t (t.locate paths.target)) :
    m.Overlays (handled g (answers g k tool m t state) ending.result) t ending.tree := by
  have hrun := close_handled
    (P := fun done m₁ t₁ =>
      (∀ request ∈ done, ∀ paths, m.pathsFor request = .ok paths →
        ¬ m.LogsTo t (t.locate paths.target)) →
      m.Later t m₁ t₁ ∧ m.Overlays done t t₁)
    ?_ ?_ (fun _ => ⟨.refl m hlinks, .refl m t⟩) h
  . obtain ⟨done, m₁, t₁, hover, _, hended⟩ := hrun
    obtain ⟨hdone, _, htree⟩ := hended.handled_eq hfile
    rw [hdone] at hlog ⊢
    rw [htree]
    exact (hover hlog).2
  . intro done m₁ t₁ state cwd hP
    rw [htool]
    exact hP
  . intro done m₁ t₁ request iteration r m₂ t₂ hP hdone hlog
    obtain ⟨hlater, hover⟩ := hP (by
      intro request' hmem
      exact hlog request' (by simp [hmem]))
    exact ⟨(hlater.materialize hdone).1, hover.materialize hseparate hlater hlog hdone⟩

theorem not_logsTo_headerCopier (t : Tree) (loc : Location) : ¬ headerCopier.LogsTo t loc := by
  rintro ⟨log, hlog, _⟩
  cases hlog

theorem separate_headerCopier : headerCopier.Separate .oneHeader where
  donor := by decide +kernel
  target := by decide +kernel
  name := by decide +kernel
  log loc hloc := absurd hloc (not_logsTo_headerCopier _ loc)

theorem close_overlays_respelled :
    ∃ ending,
      close .default 1 .ofTexts headerCopier .oneHeader (missingTexts ["a.h", ".//a.h"])
        = some ending
      ∧ handled .default
          (answers .default 1 .ofTexts headerCopier .oneHeader (missingTexts ["a.h", ".//a.h"]))
          ending.result
        = [⟨"x.c", "a.h"⟩, ⟨"x.c", ".//a.h"⟩]
      ∧ headerCopier.Overlays
          (handled .default
            (answers .default 1 .ofTexts headerCopier .oneHeader (missingTexts ["a.h", ".//a.h"]))
            ending.result)
          .oneHeader ending.tree := by
  have hrun : (close .default 1 .ofTexts headerCopier .oneHeader
      (missingTexts ["a.h", ".//a.h"])).any (·.result.isOk) = true := by
    decide +kernel
  have hfirsts : firsts .default
        (answers .default 1 .ofTexts headerCopier .oneHeader (missingTexts ["a.h", ".//a.h"]))
      = [⟨"x.c", "a.h"⟩, ⟨"x.c", ".//a.h"⟩] := by
    decide +kernel
  obtain ⟨ending, hclose, hok⟩ := (Option.any_eq_true _ _).mp hrun
  refine ⟨ending, hclose, ?_, ?_⟩
  . cases hresult : ending.result with
    | error e =>
      rw [hresult] at hok
      exact absurd hok Bool.false_ne_true
    | ok report => exact hfirsts
  . apply close_overlays Tree.noLinks_oneHeader Tool.onlyPrints_ofTexts separate_headerCopier hclose
    . intro path cause heq
      rw [heq] at hok
      exact Bool.false_ne_true hok
    . intro request _ paths _
      apply not_logsTo_headerCopier

end Closure
end Graft
