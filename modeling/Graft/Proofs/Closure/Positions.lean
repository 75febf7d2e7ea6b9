import Graft.Proofs.Closure.Awaits
import Graft.Register

/-!
This module contains unfinished files with a memory of where each of them is, so that no file has to
be searched for. What is remembered is always where the search would find the file.
-/

namespace Graft
namespace Closure

/--
Files and the positions of their paths. Nothing but the additions keeps the two in step.
-/
structure PendingIndex where
  files : List SourceFile
  positions : Register String Nat

namespace PendingIndex

def empty : PendingIndex := ⟨[], .empty⟩

def enter (p : PendingIndex) (file : SourceFile) : Nat × PendingIndex :=
  match p.positions.get? file.path with
  | some i => (i, p)
  | none =>
    let files := p.files ++ [file]
    (files.length - 1, ⟨files, p.positions.update file.path fun _ => files.length - 1⟩)

/--
Add a header to the file at a position. There is no outcome if the position is out of range.
-/
def addAt? (p : PendingIndex) (i : Nat) (header : String) : Option PendingIndex :=
  if i < p.files.length then
    some { p with files := p.files.modify i (·.addUnresolvedInclude header) }
  else none

def push? (p : PendingIndex) (request : MissingInclude) : Option PendingIndex :=
  let (i, p) := p.enter (.ofPath request.sourceFile .target)
  p.addAt? i request.header

def ofRequests? (requests : List MissingInclude) : Option PendingIndex :=
  requests.foldlM push? empty

structure Finds (p : PendingIndex) (plain : List SourceFile) : Prop where
  files : p.files = plain
  positions : ∀ path, p.positions.get? path = plain.findIdx? (·.path = path)

end PendingIndex

theorem addPending_of_findIdx? {request : MissingInclude} {files : List SourceFile} {i : Nat}
    (h : files.findIdx? (·.path = request.file) = some i) :
    addPending request files = files.modify i (·.addUnresolvedInclude request.header) := by
  induction files generalizing i with
  | nil => contradiction
  | cons file files ih =>
    have hunfold : SourcePath.normalize request.sourceFile = request.file := rfl
    unfold addPending
    rw [hunfold]
    rw [List.findIdx?_cons] at h
    by_cases hfile : file.path = request.file
    . rw [if_pos (by simpa using hfile)] at h
      cases h
      rw [if_pos hfile]
      rfl
    . rw [if_neg (by simpa using hfile), Option.map_eq_some_iff] at h
      obtain ⟨j, hj, rfl⟩ := h
      rw [if_neg hfile, ih hj]
      rfl

theorem addPending_of_not_mem {request : MissingInclude} {files : List SourceFile}
    (h : files.findIdx? (·.path = request.file) = none) :
    addPending request files
      =
    files ++ [(SourceFile.ofPath request.sourceFile .target).addUnresolvedInclude
      request.header] := by
  induction files with
  | nil => rfl
  | cons file files ih =>
    have hunfold : SourcePath.normalize request.sourceFile = request.file := rfl
    rw [List.findIdx?_eq_none_iff] at h
    have hfile : file.path ≠ request.file := by simpa using h file List.mem_cons_self
    unfold addPending
    rw [hunfold, if_neg hfile, ih, List.cons_append]
    rw [List.findIdx?_eq_none_iff]
    intro later hlater
    exact h later (List.mem_cons_of_mem _ hlater)

theorem findIdx?_modify (files : List SourceFile) (i : Nat) (header path : String) :
    (files.modify i (·.addUnresolvedInclude header)).findIdx? (·.path = path)
      =
    files.findIdx? (·.path = path) := by
  induction files generalizing i with
  | nil => simp
  | cons file files ih =>
    cases i with
    | zero => rfl
    | succ i => rw [List.modify_succ_cons, List.findIdx?_cons, List.findIdx?_cons, ih]

namespace PendingIndex

variable {p : PendingIndex} {files : List SourceFile}

theorem finds_empty : empty.Finds [] :=
  ⟨rfl, fun _ => rfl⟩

theorem Finds.addAt? (h : p.Finds files) {i : Nat} (hi : i < files.length) (header : String) :
    ∃ p', p.addAt? i header = some p'
      ∧ p'.Finds (files.modify i (·.addUnresolvedInclude header)) := by
  unfold PendingIndex.addAt?
  rw [h.files, if_pos hi]
  refine ⟨_, rfl, rfl, ?_⟩
  intro path
  rw [findIdx?_modify]
  exact h.positions path

theorem Finds.concat (h : p.Finds files) (file : SourceFile)
    (hnew : files.findIdx? (·.path = file.path) = none) :
    p.enter file = (files.length, ⟨files ++ [file],
        p.positions.update file.path fun _ => files.length⟩)
      ∧ (p.enter file).2.Finds (files ++ [file]) := by
  have henter : p.enter file = (files.length, ⟨files ++ [file],
      p.positions.update file.path fun _ => files.length⟩) := by
    unfold enter
    rw [h.positions, hnew, h.files]
    simp
  refine ⟨henter, ?_⟩
  rw [henter]
  refine ⟨rfl, ?_⟩
  intro path
  dsimp only
  rw [Register.get?_update, List.findIdx?_append, h.positions]
  by_cases hpath : path = file.path
  . simp [hpath, hnew]
  . simp [hpath, Ne.symm hpath]

theorem Finds.push? (h : p.Finds files) (request : MissingInclude) :
    ∃ p', p.push? request = some p' ∧ p'.Finds (addPending request files) := by
  unfold PendingIndex.push?
  cases hfind : files.findIdx? (·.path = request.file) with
  | some i =>
    have henter : p.enter (.ofPath request.sourceFile .target) = (i, p) := by
      unfold enter
      rw [h.positions]
      exact hfind ▸ rfl
    obtain ⟨hi, -, -⟩ := List.findIdx?_eq_some_iff_getElem.mp hfind
    rw [henter, addPending_of_findIdx? hfind]
    exact h.addAt? hi request.header
  | none =>
    obtain ⟨henter, hfinds⟩ := h.concat (.ofPath request.sourceFile .target) hfind
    have hmodify : ∀ file : SourceFile,
        (files ++ [file]).modify files.length (·.addUnresolvedInclude request.header)
          = files ++ [file.addUnresolvedInclude request.header] := by
      intro file
      simp [List.modify_eq_take_drop]
    have hadd := hfinds.addAt? (i := files.length) (by simp) request.header
    rw [hmodify] at hadd
    rw [addPending_of_not_mem hfind]
    rw [henter] at hadd ⊢
    exact hadd

theorem exists_ofRequests? (requests : List MissingInclude) :
    ∃ p, ofRequests? requests = some p ∧ p.Finds (pendingFiles requests) := by
  induction requests using List.reverseRecOn with
  | nil => exact ⟨_, rfl, finds_empty⟩
  | append_singleton requests request ih =>
    obtain ⟨p, hp, hfinds⟩ := ih
    obtain ⟨p', hp', hfinds'⟩ := hfinds.push? request
    refine ⟨p', ?_, ?_⟩
    . unfold ofRequests? at hp ⊢
      rw [List.foldlM_append, hp]
      simpa using hp'
    . rw [pendingFiles_concat]
      exact hfinds'

/--
To leave out what was requested before and to remember positions, or to search for every file, comes
to the same.
-/
theorem exists_ofRequests?_dedupRequests (requests : List MissingInclude) :
    ∃ p, ofRequests? (dedupRequests requests) = some p ∧ p.Finds (pendingFiles requests) := by
  rw [← pendingFiles_dedupRequests]
  apply exists_ofRequests?

end PendingIndex
end Closure
end Graft
