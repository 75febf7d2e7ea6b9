import Graft.DefinitionIndex
import Graft.Proofs.FirstBy
import Mathlib.Data.List.Basic
import Mathlib.Data.List.Destutter

/-!
This module contains what an index says of the definitions that it was built from: its views by key
and by file agree with each other.
-/

namespace Graft

namespace Definition

theorem keyOf_inj {kind kind' : DefinitionKind} {name name' : String} :
    keyOf kind name = keyOf kind' name' ↔ kind = kind' ∧ name = name' := by
  constructor
  . intro h
    rw [← String.toList_inj] at h
    simp only [keyOf, String.toList_append] at h
    -- Two tags differ in their first character.
    cases kind <;> cases kind' <;> simp_all [DefinitionKind.tag, String.toList_inj]
  . rintro ⟨rfl, rfl⟩
    rfl

def entry (d : Definition) : String × String :=
  (SourcePath.normalize d.owningFile, d.key)

def function? (d : Definition) : Option (String × String) :=
  if d.kind = .function then some (d.name, d.owningFile) else none

end Definition

namespace DefinitionIndex

/--
The number of definitions that all files together declare, repetitions included.
-/
def declarations (index : DefinitionIndex) : Nat :=
  (index.byFile.entries.flatMap (·.2)).length

theorem ofDefinitions_concat (ds : List Definition) (d : Definition) :
    ofDefinitions (ds ++ [d]) = (ofDefinitions ds).insert d.owningFile d.kind d.name := by
  unfold ofDefinitions
  rw [List.foldl_append]
  rfl

theorem ofDefinitions_congr {ds es : List Definition}
    (h : ds.map (·.entry) = es.map (·.entry)) :
    ofDefinitions ds = ofDefinitions es := by
  -- Entering a definition looks at nothing but its entry.
  let enter (index : DefinitionIndex) (entry : String × String) : DefinitionIndex := {
    byKey := index.byKey.update entry.2 fun owners => appendOwner (owners.getD []) entry.1
    byFile := index.byFile.update entry.1 fun keys => keys.getD [] ++ [entry.2]
  }
  have hentries : ∀ ds : List Definition,
      ofDefinitions ds = (ds.map (·.entry)).foldl enter empty := by
    intro ds
    rw [List.foldl_map]
    rfl
  rw [hentries, hentries, h]

theorem keys_ofDefinitions (ds : List Definition) :
    (ofDefinitions ds).keys = firstBy id (ds.map (·.key)) := by
  induction ds using List.reverseRecOn with
  | nil => rfl
  | append_singleton ds d ih =>
    rw [ofDefinitions_concat, List.map_append, List.map_singleton, firstBy_id_concat, ← ih]
    unfold keys insert at *
    rw [Register.keys_update, ih]
    simp [Definition.key]

theorem files_ofDefinitions (ds : List Definition) :
    (ofDefinitions ds).files = firstBy id (ds.map (·.entry.1)) := by
  induction ds using List.reverseRecOn with
  | nil => rfl
  | append_singleton ds d ih =>
    rw [ofDefinitions_concat, List.map_append, List.map_singleton, firstBy_id_concat, ← ih]
    unfold files insert at *
    rw [Register.keys_update, ih]
    simp [Definition.entry]

section Insert

variable (index : DefinitionIndex) (file : String) (kind : DefinitionKind) (name : String)

theorem declaredBy_insert (file' : String) :
    (index.insert file kind name).declaredBy file'
      =
    index.declaredBy file'
      ++ if SourcePath.normalize file' = SourcePath.normalize file then
        [Definition.keyOf kind name]
      else [] := by
  unfold declaredBy insert
  dsimp only
  rw [Register.get?_update]
  split
  . next heq => simp [heq]
  . simp

theorem lookup_insert (key : String) :
    (index.insert file kind name).lookup key
      =
    if key = Definition.keyOf kind name then
      appendOwner (index.lookup key) (SourcePath.normalize file)
    else index.lookup key := by
  unfold lookup insert
  dsimp only
  rw [Register.get?_update]
  split
  . next heq => simp [heq]
  . rfl

end Insert

theorem firstBy_id_appendOwner (owners : List String) (file : String) :
    firstBy id (appendOwner owners file) = firstBy id (owners ++ [file]) := by
  unfold appendOwner
  split
  . next hlast => rw [firstBy_id_concat, if_pos (List.mem_of_getLast? hlast)]
  . rfl

theorem destutter'_concat (first : String) (files : List String) (file : String) :
    (files ++ [file]).destutter' (· ≠ ·) first
      =
    appendOwner (files.destutter' (· ≠ ·) first) file := by
  induction files generalizing first with
  | nil => by_cases hfirst : first = file <;> simp [appendOwner, hfirst]
  | cons next files ih =>
    by_cases hfirst : first = next
    . rw [List.cons_append, List.destutter'_cons_neg _ (not_not.mpr hfirst),
        List.destutter'_cons_neg _ (not_not.mpr hfirst), ih]
    . have hlast : (first :: files.destutter' (· ≠ ·) next).getLast?
          = (files.destutter' (· ≠ ·) next).getLast? := by
        rw [List.getLast?_cons, List.getLast?_eq_some_getLast (List.destutter'_ne_nil _ _)]
        rfl
      rw [List.cons_append, List.destutter'_cons_pos _ hfirst, List.destutter'_cons_pos _ hfirst,
        ih]
      unfold appendOwner
      rw [hlast]
      split <;> rfl

theorem destutter_concat (files : List String) (file : String) :
    (files ++ [file]).destutter (· ≠ ·) = appendOwner (files.destutter (· ≠ ·)) file := by
  cases files with
  | nil => rfl
  | cons first files => exact destutter'_concat first files file

theorem firstBy_id_destutter (files : List String) :
    firstBy id (files.destutter (· ≠ ·)) = firstBy id files := by
  induction files using List.reverseRecOn with
  | nil => rfl
  | append_singleton files file ih =>
    have hmem : file ∈ files.destutter (· ≠ ·) ↔ file ∈ files := by
      rw [← mem_firstBy_id, ih, mem_firstBy_id]
    rw [destutter_concat, firstBy_id_appendOwner, firstBy_id_concat, firstBy_id_concat, ih]
    simp only [hmem]

def keysIn (ds : List Definition) (file : String) : List String :=
  (ds.filter (·.entry.1 = file)).map (·.key)

theorem declaredBy_ofDefinitions (ds : List Definition) (file : String) :
    (ofDefinitions ds).declaredBy file = keysIn ds (SourcePath.normalize file) := by
  induction ds using List.reverseRecOn with
  | nil => rfl
  | append_singleton ds d ih =>
    have hlast : keysIn [d] (SourcePath.normalize file)
        = if SourcePath.normalize file = SourcePath.normalize d.owningFile then
          [Definition.keyOf d.kind d.name]
        else [] := by
      unfold keysIn Definition.entry
      by_cases hfile : SourcePath.normalize d.owningFile = SourcePath.normalize file
      . simp [Definition.key, hfile]
      . simp [hfile, Ne.symm hfile]
    rw [ofDefinitions_concat, declaredBy_insert, ih, ← hlast]
    unfold keysIn
    rw [List.filter_append, List.map_append]

theorem lookup_ofDefinitions_concat (ds : List Definition) (d : Definition) (key : String) :
    (ofDefinitions (ds ++ [d])).lookup key
      =
    if d.key = key then appendOwner ((ofDefinitions ds).lookup key) d.entry.1
    else (ofDefinitions ds).lookup key := by
  rw [ofDefinitions_concat, lookup_insert]
  simp only [eq_comm]
  rfl

theorem lookup_ofDefinitions (ds : List Definition) (key : String) :
    (ofDefinitions ds).lookup key
      =
    ((ds.filter (·.key = key)).map (·.entry.1)).destutter (· ≠ ·) := by
  induction ds using List.reverseRecOn with
  | nil => rfl
  | append_singleton ds d ih =>
    rw [lookup_ofDefinitions_concat, List.filter_append, List.map_append, ih]
    by_cases hkey : d.key = key
    . have hlast : ([d].filter (·.key = key)).map (·.entry.1) = [d.entry.1] := by
        simp [hkey]
      rw [if_pos hkey, hlast, destutter_concat]
    . have hlast : ([d].filter (·.key = key)).map (·.entry.1) = [] := by
        simp [hkey]
      rw [if_neg hkey, hlast, List.append_nil]

theorem mem_lookup_ofDefinitions {ds : List Definition} {key file : String} :
    file ∈ (ofDefinitions ds).lookup key ↔ ∃ d ∈ ds, d.entry = (file, key) := by
  rw [lookup_ofDefinitions, ← mem_firstBy_id, firstBy_id_destutter, mem_firstBy_id]
  simp only [List.mem_map, List.mem_filter, decide_eq_true_eq, and_assoc]
  apply exists_congr
  intro d
  apply and_congr_right
  intro _
  rw [and_comm, Prod.ext_iff]
  exact Iff.rfl

theorem lookup_ofDefinitions_ne_nil_iff {ds : List Definition} {key : String} :
    (ofDefinitions ds).lookup key ≠ [] ↔ ∃ d ∈ ds, d.key = key := by
  constructor
  . intro hne
    obtain ⟨file, hfile⟩ := List.exists_mem_of_ne_nil _ hne
    obtain ⟨d, hd, hentry⟩ := mem_lookup_ofDefinitions.mp hfile
    exact ⟨d, hd, congrArg Prod.snd hentry⟩
  . rintro ⟨d, hd, rfl⟩
    exact List.ne_nil_of_mem (mem_lookup_ofDefinitions.mpr ⟨d, hd, rfl⟩)

theorem contains_ofDefinitions {ds : List Definition} {key : String} :
    (ofDefinitions ds).contains key ↔ (ofDefinitions ds).lookup key ≠ [] := by
  unfold contains
  rw [Register.contains_iff, lookup_ofDefinitions_ne_nil_iff]
  have hkeys := keys_ofDefinitions ds
  unfold keys at hkeys
  rw [hkeys, mem_firstBy_id, List.mem_map]

theorem firstBy_lookup_ofDefinitions (ds : List Definition) (key : String) :
    firstBy id ((ofDefinitions ds).lookup key)
      =
    firstBy id ((ds.filter (·.key = key)).map (·.entry.1)) := by
  rw [lookup_ofDefinitions, firstBy_id_destutter]

theorem functionName?_eq_some_iff {key name : String} :
    functionName? key = some name ↔ key = Definition.keyOf .function name := by
  unfold functionName?
  rw [Option.map_eq_some_iff]
  constructor
  . rintro ⟨rest, hrest, rfl⟩
    rw [Text.stripStart?_eq_some_iff] at hrest
    rw [← String.toList_inj, hrest]
    simp [Definition.keyOf]
  . rintro rfl
    refine ⟨name.toList, ?_, String.ofList_toList⟩
    rw [Text.stripStart?_eq_some_iff]
    simp [Definition.keyOf]

theorem functionName?_key (d : Definition) :
    functionName? d.key = if d.kind = .function then some d.name else none := by
  split
  . next hkind =>
    rw [functionName?_eq_some_iff, Definition.key, hkind]
  . next hkind =>
    rw [Option.eq_none_iff_forall_ne_some]
    intro name hname
    rw [functionName?_eq_some_iff, Definition.key, Definition.keyOf_inj] at hname
    exact hkind hname.1

def functionsIn (ds : List Definition) : List (String × String) :=
  ds.filterMap (·.function?)

theorem files_functionsIn (ds : List Definition) (name : String) :
    ((functionsIn ds).filter (·.1 = name)).map (fun function => SourcePath.normalize function.2)
      =
    (ds.filter (·.key = Definition.keyOf .function name)).map (·.entry.1) := by
  unfold functionsIn
  induction ds with
  | nil => rfl
  | cons d ds ih =>
    have hkey : d.key = Definition.keyOf .function name ↔ d.kind = .function ∧ d.name = name :=
      Definition.keyOf_inj
    have hfunction : d.function?
        = if d.kind = .function then some (d.name, d.owningFile) else none := rfl
    rw [List.filterMap_cons, List.filter_cons, hfunction]
    simp only [hkey]
    by_cases hkind : d.kind = .function
    . by_cases hname : d.name = name
      . simpa [hkind, hname, Definition.entry] using ih
      . simpa [hkind, hname] using ih
    . simpa [hkind] using ih

theorem mem_functionsIn_iff {ds : List Definition} {name : String} :
    name ∈ (functionsIn ds).map (·.1)
      ↔
    (ofDefinitions ds).lookup (Definition.keyOf .function name) ≠ [] := by
  rw [lookup_ofDefinitions_ne_nil_iff]
  unfold functionsIn Definition.function?
  simp only [List.mem_map, List.mem_filterMap, Option.ite_none_right_eq_some, Option.some.injEq]
  constructor
  . rintro ⟨_, ⟨d, hd, hkind, rfl⟩, rfl⟩
    refine ⟨d, hd, ?_⟩
    rw [Definition.key, hkind]
  . rintro ⟨d, hd, hkey⟩
    obtain ⟨hkind, hname⟩ := Definition.keyOf_inj.mp hkey
    exact ⟨_, ⟨d, hd, hkind, rfl⟩, hname⟩

theorem functions_ofDefinitions (ds : List Definition) :
    (ofDefinitions ds).functions
      =
    (firstBy id ((functionsIn ds).map (·.1))).map fun name =>
      (name, (ofDefinitions ds).lookup (Definition.keyOf .function name)) := by
  have hnames : ((functionsIn ds).map (·.1)) = (ds.map (·.key)).filterMap functionName? := by
    unfold functionsIn
    rw [List.map_filterMap, List.filterMap_map]
    apply List.filterMap_congr
    intro d _
    rw [Function.comp_apply, functionName?_key]
    unfold Definition.function?
    split <;> rfl
  have hinj : ∀ key key' name, functionName? key = some name → functionName? key' = some name →
      key = key' := by
    intro key key' name hkey hkey'
    rw [functionName?_eq_some_iff] at hkey hkey'
    rw [hkey, hkey']
  rw [hnames, ← filterMap_firstBy hinj, ← keys_ofDefinitions]
  unfold functions
  rw [List.map_filterMap]
  apply List.filterMap_congr
  intro key _
  cases hname : functionName? key with
  | none => rfl
  | some name =>
    rw [functionName?_eq_some_iff] at hname
    rw [hname]
    rfl

theorem map_fst_functionsIn (ds : List Definition) :
    (functionsIn ds).map (·.1) = (ds.filter (·.kind = .function)).map (·.name) := by
  unfold functionsIn Definition.function?
  rw [List.map_filterMap, ← List.filterMap_eq_map', ← List.filterMap_eq_filter,
    List.filterMap_filterMap]
  apply List.filterMap_congr
  intro d _
  by_cases hkind : d.kind = .function <;> simp [Option.guard, hkind]

theorem declarations_insert (index : DefinitionIndex) (file : String) (kind : DefinitionKind)
    (name : String) :
    (index.insert file kind name).declarations = index.declarations + 1 := by
  unfold declarations insert Register.update
  dsimp only
  generalize SourcePath.normalize file = file
  induction index.byFile.entries with
  | nil => simp [Register.update.go]
  | cons entry rest ih =>
    unfold Register.update.go
    split
    . simp only [List.flatMap_cons, Option.getD_some, List.length_append, List.length_singleton]
      omega
    . simp only [List.flatMap_cons, List.length_append, ih]
      omega

theorem declarations_ofDefinitions (ds : List Definition) :
    (ofDefinitions ds).declarations = ds.length := by
  induction ds using List.reverseRecOn with
  | nil => rfl
  | append_singleton ds d ih =>
    rw [ofDefinitions_concat, declarations_insert, ih, List.length_append]
    rfl

section SameIndex

variable {ds es : List Definition}

theorem exists_key_eq (heq : ofDefinitions ds = ofDefinitions es) {d : Definition} (hd : d ∈ ds) :
    ∃ e ∈ es, e.key = d.key := by
  have hmem : d.key ∈ (ofDefinitions ds).keys := by
    rw [keys_ofDefinitions, mem_firstBy_id]
    apply List.mem_map_of_mem hd
  rw [heq, keys_ofDefinitions, mem_firstBy_id] at hmem
  exact List.mem_map.mp hmem

theorem exists_file_eq (heq : ofDefinitions ds = ofDefinitions es) {d : Definition} (hd : d ∈ ds) :
    ∃ e ∈ es, SourcePath.normalize e.owningFile = SourcePath.normalize d.owningFile := by
  have hmem : SourcePath.normalize d.owningFile ∈ (ofDefinitions ds).files := by
    rw [files_ofDefinitions, mem_firstBy_id]
    exact List.mem_map.mpr ⟨d, hd, rfl⟩
  rw [heq, files_ofDefinitions, mem_firstBy_id] at hmem
  exact List.mem_map.mp hmem

theorem length_eq (heq : ofDefinitions ds = ofDefinitions es) : ds.length = es.length := by
  rw [← declarations_ofDefinitions, heq, declarations_ofDefinitions]

end SameIndex

end DefinitionIndex
end Graft
