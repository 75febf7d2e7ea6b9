import Graft.Closure.Run
import Graft.Proofs.FirstBy
import Mathlib.Data.String.Basic

/-!
This module contains the files that requests leave unfinished: one for all spellings of a path, each
with the headers that it misses.
-/

namespace Graft

def MissingInclude.file (request : MissingInclude) : String :=
  SourcePath.normalize request.sourceFile

theorem pairwise_insertSorted {ss : List String} (h : ss.Pairwise (· < ·)) (s : String) :
    (insertSorted s ss).Pairwise (· < ·) := by
  induction ss with
  | nil => simp [insertSorted]
  | cons t rest ih =>
    rw [List.pairwise_cons] at h
    unfold insertSorted
    split
    . next hlt =>
      rw [List.pairwise_cons, List.pairwise_cons]
      refine ⟨?_, h⟩
      intro u hu
      rcases List.mem_cons.mp hu with rfl | hu
      . exact hlt
      . exact hlt.trans (h.1 u hu)
    . next hlt =>
      split
      . rw [List.pairwise_cons]
        exact h
      . next hne =>
        rw [List.pairwise_cons]
        refine ⟨?_, ih h.2⟩
        intro u hu
        rcases mem_insertSorted.mp hu with rfl | hu
        . exact lt_of_le_of_ne (not_lt.mp hlt) (Ne.symm hne)
        . exact h.1 u hu

theorem insertSorted_eq_self {ss : List String} (h : ss.Pairwise (· < ·)) {s : String}
    (hs : s ∈ ss) :
    insertSorted s ss = ss := by
  induction ss with
  | nil => contradiction
  | cons t rest ih =>
    rw [List.pairwise_cons] at h
    unfold insertSorted
    rcases List.mem_cons.mp hs with rfl | hrest
    . rw [if_neg (lt_irrefl s), if_pos rfl]
    . have hlt := h.1 s hrest
      rw [if_neg (lt_asymm hlt), if_neg (ne_of_gt hlt), ih h.2 hrest]

namespace Closure

/--
A file of the target tree with the headers that some requests are made for it, in ascending order.
-/
structure Awaits (requests : List MissingInclude) (file : SourceFile) : Prop where
  ecosystem : file.ecosystem = .target
  definitions : file.definitions = []
  includes : ∀ header, header ∈ file.unresolvedIncludes
    ↔ ∃ request ∈ requests, request.file = file.path ∧ request.header = header
  ascending : file.unresolvedIncludes.Pairwise (· < ·)

/--
The files that some requests are made for, in the order in which these first name them.
-/
structure Pending (requests : List MissingInclude) (files : List SourceFile) : Prop where
  paths : files.map (·.path) = firstBy id (requests.map (·.file))
  awaits : ∀ file ∈ files, Awaits requests file

section Awaits

variable {requests : List MissingInclude} {request : MissingInclude} {file : SourceFile}

theorem Awaits.concat_of_ne (h : Awaits requests file) (hne : request.file ≠ file.path) :
    Awaits (requests ++ [request]) file := by
  refine ⟨h.ecosystem, h.definitions, ?_, h.ascending⟩
  intro header
  rw [h.includes]
  simp [or_and_right, exists_or, hne]

theorem Awaits.concat (h : Awaits requests file) (heq : request.file = file.path) :
    Awaits (requests ++ [request]) (file.addUnresolvedInclude request.header) := by
  refine ⟨h.ecosystem, h.definitions, ?_, pairwise_insertSorted h.ascending _⟩
  intro header
  unfold SourceFile.addUnresolvedInclude
  dsimp only
  rw [mem_insertSorted, h.includes]
  simp only [List.mem_append, List.mem_singleton, or_and_right, exists_or, exists_eq_left, heq,
    true_and]
  rw [or_comm, eq_comm]

theorem awaits_ofPath {path : String} (h : SourcePath.normalize path ∉ requests.map (·.file)) :
    Awaits requests (.ofPath path .target) := by
  refine ⟨rfl, rfl, ?_, List.Pairwise.nil⟩
  intro header
  constructor
  . intro hmem
    contradiction
  . rintro ⟨request, hrequest, hfile, _⟩
    exact absurd (List.mem_map.mpr ⟨request, hrequest, hfile⟩) h

end Awaits

theorem paths_addPending (request : MissingInclude) (files : List SourceFile) :
    (addPending request files).map (·.path)
      =
    if request.file ∈ files.map (·.path) then files.map (·.path)
    else files.map (·.path) ++ [request.file] := by
  induction files with
  | nil => rfl
  | cons file files ih =>
    have hunfold : SourcePath.normalize request.sourceFile = request.file := rfl
    unfold addPending
    rw [hunfold]
    by_cases hfile : file.path = request.file
    . rw [if_pos hfile, if_pos (by simp [hfile])]
      rfl
    . rw [if_neg hfile, List.map_cons, ih, List.map_cons]
      simp only [List.mem_cons, Ne.symm hfile, false_or]
      split <;> rfl

theorem mem_addPending {request : MissingInclude} {files : List SourceFile} {file : SourceFile}
    (hnodup : (files.map (·.path)).Nodup) (h : file ∈ addPending request files) :
    (file ∈ files ∧ request.file ≠ file.path)
      ∨ ∃ old, (old ∈ files ∨ (request.file ∉ files.map (·.path)
            ∧ old = .ofPath request.sourceFile .target))
          ∧ request.file = old.path ∧ file = old.addUnresolvedInclude request.header := by
  induction files with
  | nil =>
    rw [addPending, List.mem_singleton] at h
    exact Or.inr ⟨_, Or.inr ⟨by simp, rfl⟩, rfl, h⟩
  | cons first files ih =>
    have hunfold : SourcePath.normalize request.sourceFile = request.file := rfl
    rw [List.map_cons, List.nodup_cons] at hnodup
    rw [addPending, hunfold] at h
    by_cases hfirst : first.path = request.file
    . rw [if_pos hfirst, List.mem_cons] at h
      rcases h with rfl | h
      . exact Or.inr ⟨first, Or.inl List.mem_cons_self, hfirst.symm, rfl⟩
      . refine Or.inl ⟨List.mem_cons_of_mem _ h, ?_⟩
        intro heq
        apply hnodup.1
        rw [hfirst, heq]
        exact List.mem_map_of_mem h
    . rw [if_neg hfirst, List.mem_cons] at h
      rcases h with rfl | h
      . exact Or.inl ⟨List.mem_cons_self, Ne.symm hfirst⟩
      . rcases ih hnodup.2 h with ⟨hmem, hne⟩ | ⟨old, hold, heq⟩
        . exact Or.inl ⟨List.mem_cons_of_mem _ hmem, hne⟩
        . refine Or.inr ⟨old, ?_, heq⟩
          rcases hold with hold | ⟨hnew, hold⟩
          . exact Or.inl (List.mem_cons_of_mem _ hold)
          . exact Or.inr ⟨by simp [Ne.symm hfirst, hnew], hold⟩

theorem Pending.addPending {requests : List MissingInclude} {files : List SourceFile}
    (h : Pending requests files) (request : MissingInclude) :
    Pending (requests ++ [request]) (addPending request files) := by
  have hnodup : (files.map (·.path)).Nodup := by
    rw [h.paths]
    apply nodup_firstBy_id
  constructor
  . rw [paths_addPending, h.paths, List.map_append, List.map_singleton, firstBy_id_concat]
    simp only [mem_firstBy_id]
  . intro file hfile
    rcases mem_addPending hnodup hfile with ⟨hmem, hne⟩ | ⟨old, hold, heq, rfl⟩
    . exact (h.awaits file hmem).concat_of_ne hne
    . apply Awaits.concat _ heq
      rcases hold with hold | ⟨hnew, rfl⟩
      . exact h.awaits old hold
      . rw [h.paths, mem_firstBy_id] at hnew
        exact awaits_ofPath hnew

theorem pendingFiles_concat (requests : List MissingInclude) (request : MissingInclude) :
    pendingFiles (requests ++ [request]) = addPending request (pendingFiles requests) := by
  unfold pendingFiles
  rw [List.foldl_append]
  rfl

theorem pending_pendingFiles (requests : List MissingInclude) :
    Pending requests (pendingFiles requests) := by
  induction requests using List.reverseRecOn with
  | nil => exact ⟨rfl, by simp [pendingFiles]⟩
  | append_singleton requests request ih =>
    rw [pendingFiles_concat]
    exact ih.addPending request

theorem addPending_eq_self {request : MissingInclude} {files : List SourceFile}
    (hmem : request.file ∈ files.map (·.path))
    (hsame : ∀ file ∈ files, request.file = file.path →
      file.addUnresolvedInclude request.header = file) :
    addPending request files = files := by
  induction files with
  | nil => contradiction
  | cons file files ih =>
    have hunfold : SourcePath.normalize request.sourceFile = request.file := rfl
    unfold addPending
    rw [hunfold]
    by_cases hfile : file.path = request.file
    . rw [if_pos hfile, hsame file List.mem_cons_self hfile.symm]
    . rw [if_neg hfile, ih]
      . simpa [Ne.symm hfile] using hmem
      . intro later hlater
        exact hsame later (List.mem_cons_of_mem _ hlater)

theorem Pending.addPending_of_mem {requests : List MissingInclude} {files : List SourceFile}
    (h : Pending requests files) {request : MissingInclude} (hrequest : request ∈ requests) :
    Closure.addPending request files = files := by
  apply addPending_eq_self
  . rw [h.paths, mem_firstBy_id]
    exact List.mem_map_of_mem hrequest
  . intro file hfile hpath
    have hawaits := h.awaits file hfile
    have hheader := (hawaits.includes request.header).mpr ⟨request, hrequest, hpath, rfl⟩
    unfold SourceFile.addUnresolvedInclude
    rw [insertSorted_eq_self hawaits.ascending hheader]

theorem dedupRequests_concat (requests : List MissingInclude) (request : MissingInclude) :
    dedupRequests (requests ++ [request])
      =
    dedupRequests requests ++ if request ∈ requests then [] else [request] := by
  have hpair : request.pair ∈ requests.map (·.pair) ↔ request ∈ requests := by
    rw [List.mem_map]
    constructor
    . rintro ⟨other, hother, heq⟩
      cases request
      cases other
      cases heq
      exact hother
    . intro hrequest
      exact ⟨request, hrequest, rfl⟩
  unfold dedupRequests
  rw [newBy_nil_left, newBy_nil_left, firstBy_concat]
  simp only [hpair]

theorem pendingFiles_dedupRequests (requests : List MissingInclude) :
    pendingFiles (dedupRequests requests) = pendingFiles requests := by
  induction requests using List.reverseRecOn with
  | nil => rfl
  | append_singleton requests request ih =>
    rw [dedupRequests_concat, pendingFiles_concat]
    split
    . next hmem =>
      rw [List.append_nil, ih, (pending_pendingFiles requests).addPending_of_mem hmem]
    . rw [pendingFiles_concat, ih]

end Closure
end Graft
