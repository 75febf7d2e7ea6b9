import Graft.Job.Index
import Graft.Proofs.Tree.Walk

/-!
This module contains the extraction of definitions from a source tree. Like the search for the source
files, it does not depend on the order in which the directories hold their entries.
-/

namespace Graft

def Tree.SameOutcome {α : Type} (run run' : α × Tree) : Prop :=
  run'.1 = run.1 ∧ run.2.SameEntries run'.2

def Extraction.IgnoresOrder (extract : Extractor) : Prop :=
  ∀ file t t', t.SameEntries t' → Tree.SameOutcome (extract file t) (extract file t')

theorem Tree.SameOutcome.exists_eq {α : Type} {run run' : α × Tree} (h : SameOutcome run run') :
    ∃ result after after', run = (result, after) ∧ run' = (result, after')
      ∧ after.SameEntries after' := by
  obtain ⟨result, after⟩ := run
  obtain ⟨result', after'⟩ := run'
  obtain ⟨rfl, hafter⟩ : result' = result ∧ _ := h
  exact ⟨_, after, after', rfl, rfl, hafter⟩

namespace Extraction

variable {extract : Extractor} {t t' : Tree}

theorem IgnoresOrder.extractFile (hextract : IgnoresOrder extract) (h : t.SameEntries t')
    (cleanup : List NameCleanup.Step) (root : Path) (file : FoundPath) :
    Tree.SameOutcome (extractFile extract cleanup root file t)
      (extractFile extract cleanup root file t') := by
  obtain ⟨output, after, after', hrun, hrun', hafter⟩ := (hextract file t t' h).exists_eq
  unfold Extraction.extractFile
  rw [hrun, hrun']
  cases output with
  | ok => exact ⟨rfl, hafter⟩
  | error => exact ⟨rfl, hafter⟩

theorem IgnoresOrder.extractAll (hextract : IgnoresOrder extract) (h : t.SameEntries t')
    (cleanup : List NameCleanup.Step) (root : Path) (files : List FoundPath) :
    Tree.SameOutcome (extractAll extract cleanup root files t)
      (extractAll extract cleanup root files t') := by
  induction files generalizing t t' with
  | nil => exact ⟨rfl, h⟩
  | cons file files ih =>
    obtain ⟨definitions, after, after', hrun, hrun', hafter⟩ :=
      (hextract.extractFile h cleanup root file).exists_eq
    unfold Extraction.extractAll
    rw [hrun, hrun']
    cases definitions with
    | error => exact ⟨rfl, hafter⟩
    | ok =>
      obtain ⟨more, last, last', hmore, hmore', hlast⟩ := (ih hafter).exists_eq
      dsimp only
      rw [hmore, hmore']
      cases more with
      | ok => exact ⟨rfl, hlast⟩
      | error => exact ⟨rfl, hlast⟩

end Extraction

namespace Job

variable {t : Tree} {root : Path} {suffixes : List String}

theorem runIn_bind {α β : Type} (job : Job α) (f : α → Job β) (t : Tree) :
    (job >>= f).runIn t
      =
    match job.runIn t with
    | (.ok a, t) => (f a).runIn t
    | (.error e, t) => (.error e, t) := by
  unfold runIn
  simp only [bind, ExceptT.bind, ExceptT.mk, StateT.bind, ExceptT.bindCont]
  obtain ⟨result, after⟩ := job t
  cases result with
  | ok => rfl
  | error => rfl

theorem runIn_look {α : Type} (f : Tree → Except Fault α) (t : Tree) :
    (look f).runIn t = ((f t).mapError .fault, t) := by
  unfold runIn look
  cases f t with
  | ok => rfl
  | error => rfl

theorem runIn_extractTree {files : List FoundPath} (h : t.sourceFiles root suffixes = .ok files)
    (extract : Extraction.Extractor) (cleanup : List NameCleanup.Step) :
    (extractTree extract cleanup root suffixes).runIn t
      =
    (step (Extraction.extractAll extract cleanup root files) .fault).runIn t := by
  unfold extractTree
  rw [runIn_bind, runIn_look, h]
  rfl

theorem runIn_extractTree_error {e : Fault} (h : t.sourceFiles root suffixes = .error e)
    (extract : Extraction.Extractor) (cleanup : List NameCleanup.Step) :
    (extractTree extract cleanup root suffixes).runIn t = (.error (.fault e), t) := by
  unfold extractTree
  rw [runIn_bind, runIn_look, h]
  rfl

theorem sameOutcome_step {ε α : Type} {f : Tree → Except ε α × Tree} {t' : Tree}
    (h : Tree.SameOutcome (f t) (f t')) (wrap : ε → Failure) :
    Tree.SameOutcome ((step f wrap).runIn t) ((step f wrap).runIn t') := by
  obtain ⟨result, after, after', hrun, hrun', hafter⟩ := h.exists_eq
  unfold step runIn
  dsimp only
  rw [hrun, hrun']
  cases result with
  | ok => exact ⟨rfl, hafter⟩
  | error => exact ⟨rfl, hafter⟩

theorem sameOutcome_extractTree {t' : Tree} (ht : t.IsProper) (h : t.SameEntries t')
    {extract : Extraction.Extractor} (hextract : Extraction.IgnoresOrder extract)
    (cleanup : List NameCleanup.Step) (root : Path) (suffixes : List String) :
    Tree.SameOutcome ((extractTree extract cleanup root suffixes).runIn t)
      ((extractTree extract cleanup root suffixes).runIn t') := by
  have hfiles := h.sourceFiles ht root suffixes
  cases hscan : t.sourceFiles root suffixes with
  | error e =>
    rw [runIn_extractTree_error hscan, runIn_extractTree_error (hfiles.trans hscan)]
    exact ⟨rfl, h⟩
  | ok files =>
    rw [runIn_extractTree hscan, runIn_extractTree (hfiles.trans hscan)]
    exact sameOutcome_step (hextract.extractAll h cleanup root files) _

end Job

namespace Tree

/--
The search below a directory finds the source files and nothing else, each of them once, in the
order of the names that lead to them, whichever way a walk takes through the directories. Where all
names are texts these are the files that the names promise. Neither the search nor the extraction
depends on the order in which the tree holds its entries.
-/
theorem sourceFiles_exact {t : Tree} (ht : t.IsProper) (root : Path) (suffixes : List String) :
    (∀ loc, t.at? root = .ok (loc, .directory) →
      ∃ files, t.sourceFiles root suffixes = .ok files
        ∧ (∀ p, p ∈ files ↔ p.root = root ∧ t.IsSource suffixes loc p.names)
        ∧ files.Pairwise (fun p q => p.names < q.names)
        ∧ (∀ names, (∀ name ∈ names, name.IsText) →
          (t.IsSource suffixes loc names ↔ t.IsPromised suffixes loc names))
        ∧ ∀ visited, t.Visits loc visited →
          sourcesAmong root suffixes visited = files
            ∧ ∀ extract cleanup, (Job.extractTree extract cleanup root suffixes).runIn t
              = (Job.step (Extraction.extractAll extract cleanup root
                  (sourcesAmong root suffixes visited)) .fault).runIn t)
      ∧ ∀ t', t.SameEntries t' →
        t'.sourceFiles root suffixes = t.sourceFiles root suffixes
          ∧ ∀ extract cleanup, Extraction.IgnoresOrder extract →
            SameOutcome ((Job.extractTree extract cleanup root suffixes).runIn t)
              ((Job.extractTree extract cleanup root suffixes).runIn t') := by
  constructor
  . intro loc hat
    obtain ⟨files, hfiles, hscan⟩ := exists_isScan_sourceFiles ht hat
    refine ⟨files, hfiles, hscan.mem_iff, hscan.sorted, fun _ => isSource_iff_isPromised, ?_⟩
    intro visited hvisited
    have heq : sourcesAmong root suffixes visited = files :=
      (isScan_sourcesAmong hvisited).unique hscan
    rw [heq]
    exact ⟨rfl, Job.runIn_extractTree hfiles⟩
  . intro t' h
    refine ⟨h.sourceFiles ht root suffixes, ?_⟩
    intro extract cleanup hextract
    exact Job.sameOutcome_extractTree ht h hextract cleanup root suffixes

/--
A hidden directory with two source files. Below it, a file is hidden, another stands in a hidden
directory, and a third is a link.
-/
def hiddenRoot : Tree :=
  ⟨⟨[(.ofTexts [".src"], .directory),
    (.ofTexts [".src", "sys-old.h"], .file "macro MLEN".toUTF8),
    (.ofTexts [".src", ".git"], .directory),
    (.ofTexts [".src", ".git", "cache.h"], .file "macro CACHE".toUTF8),
    (.ofTexts [".src", "sys"], .directory),
    (.ofTexts [".src", "sys", ".tmp.h"], .file ByteArray.empty),
    (.ofTexts [".src", "sys", "mbuf.h"], .file "struct mbuf".toUTF8),
    (.ofTexts [".src", "link.h"], .link ⟨"sys/mbuf.h"⟩)]⟩, []⟩

def hiddenRootReversed : Tree :=
  { hiddenRoot with entries := ⟨hiddenRoot.entries.entries.reverse⟩ }

theorem isProper_hiddenRoot : hiddenRoot.IsProper where
  nodup := by decide
  connected := by
    apply isConnected_of_forall_entries
    decide

theorem sameEntries_hiddenRootReversed : hiddenRoot.SameEntries hiddenRootReversed where
  nodup := isProper_hiddenRoot.nodup
  perm := List.reverse_perm _
  current := rfl

def hiddenRootFiles : List FoundPath :=
  [⟨⟨".src"⟩, .ofTexts ["sys", "mbuf.h"]⟩, ⟨⟨".src"⟩, .ofTexts ["sys-old.h"]⟩]

theorem sourceFiles_hiddenRoot :
    hiddenRoot.sourceFiles ⟨".src"⟩ [".c", ".h"] = .ok hiddenRootFiles := by
  have hat : hiddenRoot.at? ⟨".src"⟩ = .ok (.ofTexts [".src"], .directory) := by decide
  have hbelow : hiddenRoot.filesBelow [".c", ".h"] (hiddenRoot.entries.size + 1) (.ofTexts [".src"])
      = [.ofTexts ["sys-old.h"], .ofTexts ["sys", "mbuf.h"]] := by decide
  unfold sourceFiles
  rw [hat]
  dsimp only
  rw [hbelow, Except.ok.injEq]
  apply FoundPath.eq_of_pairwise_lt (FoundPath.pairwise_lt_mergeSort (by decide)) (by decide)
  intro p
  rw [List.mem_mergeSort]
  simp [hiddenRootFiles, or_comm]

def readSource : Extraction.Extractor := fun file t =>
  ((t.readText file.path).mapError (.readFile file.path), t)

theorem ignoresOrder_readSource : Extraction.IgnoresOrder readSource := by
  intro file t t' h
  unfold readSource
  rw [h.readText]
  exact ⟨rfl, h⟩

theorem sourceFiles_exact_hiddenRoot :
    hiddenRoot.IsProper
      ∧ hiddenRoot.at? ⟨".src"⟩ = .ok (.ofTexts [".src"], .directory)
      ∧ hiddenRoot.Visits (.ofTexts [".src"]) (hiddenRoot.entriesBelow (.ofTexts [".src"])).reverse
      ∧ sourcesAmong ⟨".src"⟩ [".c", ".h"] (hiddenRoot.entriesBelow (.ofTexts [".src"])).reverse
        = hiddenRootFiles
      ∧ hiddenRoot.SameEntries hiddenRootReversed
      ∧ hiddenRootReversed.sourceFiles ⟨".src"⟩ [".c", ".h"] = .ok hiddenRootFiles
      ∧ Extraction.IgnoresOrder readSource
      ∧ ((Job.extractTree readSource [] ⟨".src"⟩ [".c", ".h"]).runIn hiddenRootReversed).1
        = .ok [⟨.struct, "mbuf", "sys/mbuf.h"⟩, ⟨.macroName, "MLEN", "sys-old.h"⟩] := by
  have hat : hiddenRoot.at? ⟨".src"⟩ = .ok (.ofTexts [".src"], .directory) := by decide
  have hvisits : hiddenRoot.Visits (.ofTexts [".src"])
      (hiddenRoot.entriesBelow (.ofTexts [".src"])).reverse :=
    (visits_entriesBelow isProper_hiddenRoot (by decide)).perm (List.reverse_perm _)
  obtain ⟨hexact, hreproducible⟩ :=
    sourceFiles_exact isProper_hiddenRoot ⟨".src"⟩ [".c", ".h"]
  obtain ⟨files, hfiles, -, -, -, hvisited⟩ := hexact _ hat
  rw [sourceFiles_hiddenRoot] at hfiles
  cases hfiles
  obtain ⟨hsources, hrun⟩ := hvisited _ hvisits
  obtain ⟨hsame, hextract⟩ := hreproducible hiddenRootReversed sameEntries_hiddenRootReversed
  refine ⟨isProper_hiddenRoot, hat, hvisits, hsources, sameEntries_hiddenRootReversed,
    hsame.trans sourceFiles_hiddenRoot, ignoresOrder_readSource, ?_⟩
  rw [(hextract readSource [] ignoresOrder_readSource).1, hrun, hsources]
  rfl

/--
A directory and a file whose names are no texts. The one begins with a dot, the other ends with a
suffix.
-/
def rawNames : Tree :=
  ⟨⟨[([⟨[46, 255]⟩], .directory), ([⟨[46, 255]⟩, .ofText "a.c".toList], .file ByteArray.empty),
    ([⟨[255, 46, 99]⟩], .file ByteArray.empty)]⟩, []⟩

theorem isProper_rawNames : rawNames.IsProper where
  nodup := by decide
  connected := by
    apply isConnected_of_forall_entries
    decide

/--
With such names the search does not keep what they promise.
-/
theorem sourceFiles_rawNames :
    rawNames.IsProper
      ∧ rawNames.sourceFiles ⟨"."⟩ [".c"] = .ok [⟨⟨"."⟩, [⟨[46, 255]⟩, .ofText "a.c".toList]⟩]
      ∧ ¬ rawNames.IsPromised [".c"] [] [⟨[46, 255]⟩, .ofText "a.c".toList]
      ∧ rawNames.IsPromised [".c"] [] [⟨[255, 46, 99]⟩] := by
  have hat : rawNames.at? ⟨"."⟩ = .ok ([], .directory) := by decide
  have hbelow : rawNames.filesBelow [".c"] (rawNames.entries.size + 1) []
      = [[⟨[46, 255]⟩, .ofText "a.c".toList]] := by decide
  refine ⟨isProper_rawNames, ?_, ?_, ⟨ByteArray.empty, rfl⟩, by decide, ?_⟩
  . unfold sourceFiles
    rw [hat]
    dsimp only
    rw [hbelow, List.map_singleton, List.mergeSort_singleton]
  . intro hpromised
    exact hpromised.visible _ List.mem_cons_self rfl
  . exact ⟨_, rfl, ".c", List.mem_singleton_self _, by decide⟩

end Tree
end Graft
