import Graft.Proofs.DefinitionIndex

/-!
This module contains the consistency of the views of an index, and that they are kept by an index that
has its keys, owners, files and declarations in four separate parts.
-/

namespace Graft
namespace DefinitionIndex

/--
What the views of an index say of the definitions that were entered into it.
-/
structure Views (index : DefinitionIndex) (ds : List Definition) : Prop where
  keys : index.keys = firstBy id (ds.map (·.key))
  lookup : ∀ key,
    index.lookup key = ((ds.filter (·.key = key)).map (·.entry.1)).destutter (· ≠ ·)
  lookup_ne_nil : ∀ key, index.lookup key ≠ [] ↔ key ∈ index.keys
  isChain_lookup : ∀ key, (index.lookup key).IsChain (· ≠ ·)
  files : index.files = firstBy id (ds.map (·.entry.1))
  declaredBy : ∀ file,
    index.declaredBy file = (ds.filter (·.entry.1 = SourcePath.normalize file)).map (·.key)
  /-- The two views tell of the same pairs of a file and a key. -/
  mem_lookup : ∀ file key,
    SourcePath.normalize file ∈ index.lookup key ↔ key ∈ index.declaredBy file
  keyOf_eq : ∀ kind kind' name name',
    Definition.keyOf kind name = Definition.keyOf kind' name' ↔ kind = kind' ∧ name = name'
  functions : index.functions
    = (firstBy id ((ds.filter (·.kind = .function)).map (·.name))).map fun name =>
      (name, index.lookup (Definition.keyOf .function name))

theorem views_of_entries (ds : List Definition) : (ofDefinitions ds).Views ds where
  keys := keys_ofDefinitions ds
  lookup := lookup_ofDefinitions ds
  lookup_ne_nil key := by
    rw [lookup_ofDefinitions_ne_nil_iff, keys_ofDefinitions, mem_firstBy_id, List.mem_map]
  isChain_lookup key := by
    rw [lookup_ofDefinitions]
    apply List.isChain_destutter
  files := files_ofDefinitions ds
  declaredBy := declaredBy_ofDefinitions ds
  mem_lookup file key := by
    rw [mem_lookup_ofDefinitions, declaredBy_ofDefinitions]
    unfold keysIn
    simp only [List.mem_map, List.mem_filter, decide_eq_true_eq, and_assoc]
    apply exists_congr
    intro d
    apply and_congr_right
    intro _
    exact Prod.ext_iff
  keyOf_eq _ _ _ _ := Definition.keyOf_inj
  functions := by
    rw [functions_ofDefinitions, map_fst_functionsIn]

/--
An index in four parts. Nothing but the insertions keeps them in step.
-/
structure Split where
  /-- In the order in which they were first seen. -/
  keys : List String
  owners : Register String (List String)
  /-- In the order in which they were first seen. -/
  files : List String
  byFile : Register String (List String)

namespace Split

def empty : Split := ⟨[], .empty, [], .empty⟩

def enterFile (index : Split) (file key : String) : Split :=
  let index :=
    if index.byFile.contains file then index else { index with files := index.files ++ [file] }
  { index with byFile := index.byFile.update file fun keys => keys.getD [] ++ [key] }

def enterKey (index : Split) (file key : String) : Split :=
  match index.owners.get? key with
  | some owners =>
    if owners.getLast? = some file then index
    else { index with owners := index.owners.update key fun _ => owners ++ [file] }
  | none =>
    { index with
      keys := index.keys ++ [key]
      owners := index.owners.update key fun _ => [file] }

def insert (index : Split) (file : String) (kind : DefinitionKind) (name : String) : Split :=
  let file := SourcePath.normalize file
  let key := Definition.keyOf kind name
  (index.enterFile file key).enterKey file key

def ofDefinitions (ds : List Definition) : Split :=
  ds.foldl (fun index d => index.insert d.owningFile d.kind d.name) empty

def lookup (index : Split) (key : String) : List String :=
  (index.owners.get? key).getD []

def declaredBy (index : Split) (file : String) : List String :=
  (index.byFile.get? (SourcePath.normalize file)).getD []

def functions (index : Split) : List (String × List String) :=
  index.keys.filterMap fun key => (functionName? key).map (·, index.lookup key)

structure InStep (index : Split) (whole : DefinitionIndex) : Prop where
  keys : index.keys = whole.byKey.keys
  owners : ∀ key, index.owners.get? key = whole.byKey.get? key
  files : index.files = whole.byFile.keys
  byFile : ∀ file, index.byFile.get? file = whole.byFile.get? file

structure Shows (index : Split) (whole : DefinitionIndex) : Prop where
  keys : index.keys = whole.keys
  lookup : ∀ key, index.lookup key = whole.lookup key
  files : index.files = whole.files
  declaredBy : ∀ file, index.declaredBy file = whole.declaredBy file
  functions : index.functions = whole.functions

section InStep

variable {index : Split} {whole : DefinitionIndex}

theorem inStep_empty : empty.InStep .empty :=
  ⟨rfl, fun _ => rfl, rfl, fun _ => rfl⟩

theorem InStep.enterFile (h : index.InStep whole) (file key : String) :
    (index.enterFile file key).InStep { whole with
      byFile := whole.byFile.update file fun keys => keys.getD [] ++ [key] } := by
  have hcontains : index.byFile.contains file = true ↔ file ∈ whole.byFile.keys := by
    rw [← Register.contains_iff]
    unfold Register.contains
    rw [h.byFile]
  have hbyFile : ∀ file',
      (index.byFile.update file fun keys => keys.getD [] ++ [key]).get? file'
        = (whole.byFile.update file fun keys => keys.getD [] ++ [key]).get? file' := by
    intro file'
    rw [Register.get?_update, Register.get?_update, h.byFile, h.byFile]
  unfold Split.enterFile
  dsimp only
  split
  . next hmem =>
    refine ⟨h.keys, h.owners, ?_, hbyFile⟩
    rw [Register.keys_update, if_pos (hcontains.mp hmem)]
    exact h.files
  . next hnew =>
    refine ⟨h.keys, h.owners, ?_, hbyFile⟩
    rw [Register.keys_update, if_neg (mt hcontains.mpr hnew)]
    exact congrArg (· ++ [file]) h.files

theorem InStep.enterKey (h : index.InStep whole) (file key : String) :
    (index.enterKey file key).InStep { whole with
      byKey := whole.byKey.update key fun owners => appendOwner (owners.getD []) file } := by
  unfold Split.enterKey
  cases howners : index.owners.get? key with
  | none =>
    rw [h.owners] at howners
    refine ⟨?_, ?_, h.files, h.byFile⟩
    . rw [Register.keys_update, if_neg (Register.get?_eq_none_iff.mp howners)]
      exact congrArg (· ++ [key]) h.keys
    . intro key'
      dsimp only
      rw [Register.get?_update, Register.get?_update, h.owners, howners]
      rfl
  | some owners =>
    rw [h.owners] at howners
    have hmem : key ∈ whole.byKey.keys := by
      rw [← Register.contains_iff, Register.contains, howners]
      rfl
    have hkeys : index.keys
        = (whole.byKey.update key fun owners => appendOwner (owners.getD []) file).keys := by
      rw [Register.keys_update, if_pos hmem]
      exact h.keys
    dsimp only
    split
    . next hlast =>
      refine ⟨hkeys, ?_, h.files, h.byFile⟩
      intro key'
      rw [Register.get?_update, h.owners, howners, Option.getD_some, appendOwner, if_pos hlast]
      split
      . next heq => rw [heq, howners]
      . rfl
    . next hlast =>
      refine ⟨hkeys, ?_, h.files, h.byFile⟩
      intro key'
      dsimp only
      rw [Register.get?_update, Register.get?_update, h.owners, howners, Option.getD_some,
        appendOwner, if_neg hlast]

theorem InStep.insert (h : index.InStep whole) (file : String) (kind : DefinitionKind)
    (name : String) :
    (index.insert file kind name).InStep (whole.insert file kind name) :=
  (h.enterFile (SourcePath.normalize file) (Definition.keyOf kind name)).enterKey
    (SourcePath.normalize file) (Definition.keyOf kind name)

theorem inStep_ofDefinitions (ds : List Definition) :
    (ofDefinitions ds).InStep (DefinitionIndex.ofDefinitions ds) := by
  unfold ofDefinitions DefinitionIndex.ofDefinitions
  induction ds using List.reverseRecOn with
  | nil => exact inStep_empty
  | append_singleton ds d ih =>
    rw [List.foldl_append, List.foldl_append]
    exact ih.insert d.owningFile d.kind d.name

theorem InStep.lookup (h : index.InStep whole) (key : String) :
    index.lookup key = whole.lookup key := by
  unfold Split.lookup DefinitionIndex.lookup
  rw [h.owners]

theorem InStep.shows (h : index.InStep whole) : index.Shows whole where
  keys := h.keys
  lookup := h.lookup
  files := h.files
  declaredBy file := by
    unfold Split.declaredBy DefinitionIndex.declaredBy
    rw [h.byFile]
  functions := by
    unfold Split.functions DefinitionIndex.functions
    simp only [h.lookup]
    rw [h.keys]
    rfl

end InStep
end Split

/--
The views of an index are consistent, whatever was entered into it and in whatever order, and so they
are if its four parts are kept apart.
-/
theorem views_ofDefinitions (ds : List Definition) :
    (ofDefinitions ds).Views ds
      ∧ (Split.ofDefinitions ds).InStep (ofDefinitions ds)
      ∧ (Split.ofDefinitions ds).Shows (ofDefinitions ds) :=
  ⟨views_of_entries ds, Split.inStep_ofDefinitions ds, (Split.inStep_ofDefinitions ds).shows⟩

end DefinitionIndex
end Graft
