import Graft.Manifest
import Graft.Proofs.FirstBy

/-!
This module contains what a manifest holds after any number of additions: one entry for each file,
with the symbols that were added under it.
-/

namespace Graft

def symbolsUnder (additions : List (String × Symbol)) (file : String) : List Symbol :=
  firstBy id ((additions.filter (·.1 = file)).map (·.2))

theorem symbolsUnder_concat (additions : List (String × Symbol)) (file file' : String)
    (symbol : Symbol) :
    symbolsUnder (additions ++ [(file, symbol)]) file'
      =
    if file' = file ∧ symbol ∉ symbolsUnder additions file' then
      symbolsUnder additions file' ++ [symbol]
    else symbolsUnder additions file' := by
  unfold symbolsUnder
  rw [List.filter_append, List.map_append]
  by_cases hfile : file' = file
  . subst hfile
    simp only [decide_true, List.filter_cons_of_pos, List.filter_nil, List.map_singleton,
      firstBy_id_concat, mem_firstBy_id]
    split <;> simp_all
  . simp [hfile, Ne.symm hfile]

theorem symbolsUnder_of_not_mem {additions : List (String × Symbol)} {file : String}
    (h : file ∉ additions.map (·.1)) :
    symbolsUnder additions file = [] := by
  unfold symbolsUnder
  rw [List.filter_eq_nil_iff.mpr]
  . rfl
  . intro addition hmem
    rw [decide_eq_true_eq]
    rintro rfl
    exact h (List.mem_map_of_mem hmem)

theorem addSymbol_symbolsUnder (additions : List (String × Symbol)) (file file' : String)
    (symbol : Symbol) :
    (if file' = file then
      (⟨file', symbolsUnder additions file'⟩ : ManifestEntry).addSymbol symbol
    else ⟨file', symbolsUnder additions file'⟩)
      =
    ⟨file', symbolsUnder (additions ++ [(file, symbol)]) file'⟩ := by
  rw [symbolsUnder_concat]
  by_cases hfile : file' = file
  . by_cases hsymbol : symbol ∈ symbolsUnder additions file' <;>
      simp_all [ManifestEntry.addSymbol]
  . simp [hfile]

namespace Manifest

def ofAdditions (additions : List (String × Symbol)) : Manifest :=
  additions.foldl (fun m (file, symbol) => m.push file symbol) empty

theorem modify_eq_map {entries : List ManifestEntry} {file : String} {i : Nat}
    (hnodup : (entries.map (·.definingFile)).Nodup)
    (hi : entries.findIdx? (·.definingFile == file) = some i) (f : ManifestEntry → ManifestEntry) :
    entries.modify i f = entries.map fun e => if e.definingFile = file then f e else e := by
  induction entries generalizing i with
  | nil => simp at hi
  | cons e rest ih =>
    rw [List.map_cons, List.nodup_cons] at hnodup
    rw [List.findIdx?_cons] at hi
    by_cases he : e.definingFile = file
    . have hrest : ∀ e' ∈ rest, e'.definingFile ≠ file := by
        rintro e' he' rfl
        exact hnodup.1 (he ▸ List.mem_map_of_mem he')
      simp only [he, beq_self_eq_true, ↓reduceIte, Option.some.injEq] at hi
      subst hi
      rw [List.modify_zero_cons, List.map_cons, if_pos he]
      congr 1
      apply Eq.symm
      rw [List.map_congr_left (g := id), List.map_id]
      intro e' he'
      rw [if_neg (hrest e' he')]
      rfl
    . simp only [beq_iff_eq, he, ↓reduceIte, Option.map_eq_some_iff] at hi
      obtain ⟨j, hj, rfl⟩ := hi
      rw [List.modify_succ_cons, List.map_cons, if_neg he, ih hnodup.2 hj]

theorem entries_push {m : Manifest} (hnodup : (m.entries.map (·.definingFile)).Nodup)
    (file : String) (symbol : Symbol) :
    (m.push file symbol).entries
      =
    if file ∈ m.entries.map (·.definingFile) then
      m.entries.map fun e => if e.definingFile = file then e.addSymbol symbol else e
    else m.entries ++ [⟨file, [symbol]⟩] := by
  unfold push position?
  split
  . next i hi =>
    have hmem : file ∈ m.entries.map (·.definingFile) := by
      obtain ⟨hlt, hfile, _⟩ := List.findIdx?_eq_some_iff_getElem.mp hi
      rw [beq_iff_eq] at hfile
      rw [← hfile]
      apply List.mem_map_of_mem (List.getElem_mem hlt)
    rw [if_pos hmem]
    apply modify_eq_map hnodup hi
  . next hi =>
    rw [List.findIdx?_eq_none_iff] at hi
    rw [if_neg]
    rintro hmem
    obtain ⟨e, he, rfl⟩ := List.mem_map.mp hmem
    have := hi e he
    simp at this

theorem entries_ofAdditions (additions : List (String × Symbol)) :
    (ofAdditions additions).entries
      =
    (firstBy id (additions.map (·.1))).map fun file => ⟨file, symbolsUnder additions file⟩ := by
  induction additions using List.reverseRecOn with
  | nil => rfl
  | append_singleton additions addition ih =>
    obtain ⟨file, symbol⟩ := addition
    have hstep : ofAdditions (additions ++ [(file, symbol)])
        = (ofAdditions additions).push file symbol := by
      unfold ofAdditions
      rw [List.foldl_append]
      rfl
    have hfiles : (ofAdditions additions).entries.map (·.definingFile)
        = firstBy id (additions.map (·.1)) := by
      rw [ih, List.map_map]
      apply List.map_id
    have hnodup := nodup_firstBy_id (additions.map (·.1))
    rw [← hfiles] at hnodup
    rw [hstep, entries_push hnodup, hfiles, ih, List.map_append, List.map_singleton,
      firstBy_id_concat]
    simp only [mem_firstBy_id]
    split
    . rw [List.map_map]
      apply List.map_congr_left
      intro file' _
      apply addSymbol_symbolsUnder
    . next hnew =>
      rw [List.map_append, List.map_singleton]
      congr 1
      . apply List.map_congr_left
        intro file' hfile'
        rw [mem_firstBy_id] at hfile'
        rw [← addSymbol_symbolsUnder, if_neg]
        rintro rfl
        exact hnew hfile'
      . rw [symbolsUnder_concat, symbolsUnder_of_not_mem hnew]
        simp

end Manifest
end Graft
