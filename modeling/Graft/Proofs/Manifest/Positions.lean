import Graft.Proofs.Manifest
import Graft.Register

/-!
This module contains manifests that remember where the entry of a file is, so that no entry has to
be searched for. What is remembered is always where the search would find the entry.
-/

namespace Graft
namespace Manifest

/--
Entries and the positions of their files. Nothing but the additions keeps the two in step.
-/
structure Indexed where
  entries : List ManifestEntry
  positions : Register String Nat

namespace Indexed

def empty : Indexed := ⟨[], .empty⟩

/--
Add a symbol to the entry at a position. There is no outcome if the position is out of range.
-/
def addAt? (m : Indexed) (i : Nat) (symbol : Symbol) : Option Indexed :=
  if i < m.entries.length then some { m with entries := m.entries.modify i (·.addSymbol symbol) }
  else none

def addFile (m : Indexed) (file : String) : Indexed :=
  let entries := m.entries ++ [⟨file, []⟩]
  ⟨entries, m.positions.update file fun _ => entries.length - 1⟩

def push? (m : Indexed) (file : String) (symbol : Symbol) : Option Indexed :=
  match m.positions.get? file with
  | some i => m.addAt? i symbol
  | none => (m.addFile file).addAt? ((m.addFile file).entries.length - 1) symbol

/--
The entry of a file, if it has one. There is no outcome if the position of the file is out of range.
-/
def get? (m : Indexed) (file : String) : Option (Option ManifestEntry) :=
  match m.positions.get? file with
  | some i => m.entries[i]?.map some
  | none => some none

def ofAdditions? (additions : List (String × Symbol)) : Option Indexed :=
  additions.foldlM (fun m (file, symbol) => m.push? file symbol) empty

structure Indexes (m : Indexed) (plain : Manifest) : Prop where
  entries : m.entries = plain.entries
  positions : ∀ file, m.positions.get? file = plain.position? file

/--
What a manifest says of the additions made to it, step by step.
-/
structure Represents (m : Indexed) (additions : List (String × Symbol)) : Prop where
  entries : m.entries
    = (firstBy id (additions.map (·.1))).map fun file => ⟨file, symbolsUnder additions file⟩
  /-- A position is in range, and is that of the entry of its own file. -/
  positions : ∀ file i, m.positions.get? file = some i →
    ∃ e, m.entries[i]? = some e ∧ e.definingFile = file
  get? : ∀ file, m.get? file
    = some (if file ∈ additions.map (·.1) then some ⟨file, symbolsUnder additions file⟩ else none)
  push? : ∀ file symbol, (file, symbol) ∈ additions → m.push? file symbol = some m

end Indexed

theorem position?_eq_some {m : Manifest} {file : String} {i : Nat} (h : m.position? file = some i) :
    ∃ e, m.entries[i]? = some e ∧ e.definingFile = file := by
  obtain ⟨hlt, hfile, -⟩ := List.findIdx?_eq_some_iff_getElem.mp h
  exact ⟨m.entries[i], List.getElem?_eq_getElem hlt, by simpa using hfile⟩

theorem position?_concat (m : Manifest) (e : ManifestEntry) (file : String) :
    position? ⟨m.entries ++ [e]⟩ file
      =
    (m.position? file).or (if e.definingFile = file then some m.entries.length else none) := by
  unfold position?
  rw [List.findIdx?_append]
  by_cases hfile : e.definingFile = file <;> simp [hfile]

theorem position?_modify (entries : List ManifestEntry) (i : Nat) (symbol : Symbol)
    (file : String) :
    position? ⟨entries.modify i (·.addSymbol symbol)⟩ file = position? ⟨entries⟩ file := by
  have hfile : ∀ e : ManifestEntry, (e.addSymbol symbol).definingFile = e.definingFile := by
    intro e
    unfold ManifestEntry.addSymbol
    split <;> rfl
  unfold position?
  induction entries generalizing i with
  | nil => simp
  | cons e entries ih =>
    cases i with
    | zero => simp [List.findIdx?_cons, hfile]
    | succ i =>
      dsimp only at ih ⊢
      rw [List.modify_succ_cons, List.findIdx?_cons, List.findIdx?_cons, ih]

namespace Indexed

variable {m : Indexed} {plain : Manifest}

theorem indexes_empty : empty.Indexes .empty :=
  ⟨rfl, fun _ => rfl⟩

theorem Indexes.addAt? (h : m.Indexes plain) {i : Nat} (hi : i < plain.entries.length)
    (symbol : Symbol) :
    ∃ m', m.addAt? i symbol = some m'
      ∧ m'.Indexes ⟨plain.entries.modify i (·.addSymbol symbol)⟩ := by
  refine ⟨{ m with entries := m.entries.modify i (·.addSymbol symbol) }, ?_, ?_, ?_⟩
  . unfold Indexed.addAt?
    rw [h.entries, if_pos hi]
  . rw [h.entries]
  . intro file
    rw [position?_modify]
    exact h.positions file

theorem Indexes.addFile (h : m.Indexes plain) {file : String}
    (hfile : plain.position? file = none) :
    (m.addFile file).Indexes ⟨plain.entries ++ [⟨file, []⟩]⟩ where
  entries := by
    unfold Indexed.addFile
    rw [h.entries]
  positions file' := by
    unfold Indexed.addFile
    dsimp only
    rw [Register.get?_update, position?_concat, h.positions, h.entries]
    by_cases heq : file' = file
    . simp [heq, hfile]
    . simp [heq, Ne.symm heq]

theorem Indexes.push? (h : m.Indexes plain) (file : String) (symbol : Symbol) :
    ∃ m', m.push? file symbol = some m' ∧ m'.Indexes (plain.push file symbol) := by
  unfold Indexed.push? Manifest.push
  rw [h.positions]
  cases hposition : plain.position? file with
  | some i =>
    obtain ⟨e, he, -⟩ := position?_eq_some hposition
    exact h.addAt? (List.getElem?_eq_some_iff.mp he).1 symbol
  | none =>
    have hadd := h.addFile hposition
    have hlength : (m.addFile file).entries.length - 1 = plain.entries.length := by
      rw [hadd.entries]
      simp
    have hmodify : (plain.entries ++ [(⟨file, []⟩ : ManifestEntry)]).modify plain.entries.length
          (·.addSymbol symbol)
        = plain.entries ++ [⟨file, [symbol]⟩] := by
      simp [List.modify_eq_take_drop, ManifestEntry.addSymbol]
    obtain ⟨m', hm', hindexes⟩ := hadd.addAt? (i := plain.entries.length) (by simp) symbol
    rw [hmodify] at hindexes
    rw [hlength]
    exact ⟨m', hm', hindexes⟩

theorem Indexes.get? (h : m.Indexes plain) (file : String) :
    m.get? file = some (plain.get? file) := by
  unfold Indexed.get? Manifest.get?
  rw [h.positions, h.entries]
  cases hposition : plain.position? file with
  | none => rfl
  | some i =>
    obtain ⟨e, he, -⟩ := position?_eq_some hposition
    simp [he]

theorem exists_ofAdditions? (additions : List (String × Symbol)) :
    ∃ m, ofAdditions? additions = some m ∧ m.Indexes (Manifest.ofAdditions additions) := by
  induction additions using List.reverseRecOn with
  | nil => exact ⟨_, rfl, indexes_empty⟩
  | append_singleton additions addition ih =>
    obtain ⟨m, hm, hindexes⟩ := ih
    obtain ⟨m', hm', hindexes'⟩ := hindexes.push? addition.1 addition.2
    refine ⟨m', ?_, ?_⟩
    . unfold ofAdditions? at hm ⊢
      rw [List.foldlM_append, hm]
      simpa using hm'
    . unfold Manifest.ofAdditions at hindexes' ⊢
      rw [List.foldl_append]
      exact hindexes'

end Indexed

theorem get?_ofAdditions (additions : List (String × Symbol)) (file : String) :
    (ofAdditions additions).get? file
      =
    if file ∈ additions.map (·.1) then some ⟨file, symbolsUnder additions file⟩ else none := by
  have hentries := entries_ofAdditions additions
  unfold get?
  cases hposition : (ofAdditions additions).position? file with
  | none =>
    rw [if_neg, Option.bind_none]
    intro hmem
    unfold position? at hposition
    rw [hentries, List.findIdx?_eq_none_iff] at hposition
    have hentry := hposition ⟨file, symbolsUnder additions file⟩
      (List.mem_map_of_mem (mem_firstBy_id.mpr hmem))
    simp at hentry
  | some i =>
    obtain ⟨e, he, hfile⟩ := position?_eq_some hposition
    have hmem := List.mem_of_getElem? he
    rw [hentries, List.mem_map] at hmem
    obtain ⟨file', hfile', rfl⟩ := hmem
    rw [mem_firstBy_id] at hfile'
    subst hfile
    rw [if_pos hfile', Option.bind_some, he]

theorem modify_addSymbol {entries : List ManifestEntry} {i : Nat} {e : ManifestEntry}
    (he : entries[i]? = some e) {symbol : Symbol} (hsymbol : symbol ∈ e.symbols) :
    entries.modify i (·.addSymbol symbol) = entries := by
  obtain ⟨hi, rfl⟩ := List.getElem?_eq_some_iff.mp he
  have hadd : entries[i].addSymbol symbol = entries[i] := if_pos hsymbol
  rw [List.modify_eq_take_cons_drop hi, hadd, ← List.drop_eq_getElem_cons hi,
    List.take_append_drop]

section Represents

variable {additions : List (String × Symbol)} {file : String} {symbol : Symbol}

theorem exists_entry_of_mem (h : (file, symbol) ∈ additions) :
    ∃ i e, (ofAdditions additions).position? file = some i
      ∧ (ofAdditions additions).entries[i]? = some e ∧ symbol ∈ e.symbols := by
  have hget := get?_ofAdditions additions file
  rw [if_pos (List.mem_map_of_mem h)] at hget
  obtain ⟨i, hi, he⟩ := Option.bind_eq_some_iff.mp hget
  refine ⟨i, _, hi, he, ?_⟩
  unfold symbolsUnder
  rw [mem_firstBy_id, List.mem_map]
  exact ⟨(file, symbol), by simp [h], rfl⟩

theorem push_of_mem (h : (file, symbol) ∈ additions) :
    (ofAdditions additions).push file symbol = ofAdditions additions := by
  obtain ⟨i, e, hi, he, hsymbol⟩ := exists_entry_of_mem h
  unfold push
  rw [hi]
  dsimp only
  rw [modify_addSymbol he hsymbol]

theorem Indexed.Indexes.represents {m : Indexed} (h : m.Indexes (ofAdditions additions)) :
    m.Represents additions where
  entries := h.entries.trans (entries_ofAdditions additions)
  positions file i hi := by
    rw [h.positions] at hi
    rw [h.entries]
    exact position?_eq_some hi
  get? file := by
    rw [h.get?, get?_ofAdditions]
  push? file symbol hmem := by
    obtain ⟨i, e, hi, he, hsymbol⟩ := exists_entry_of_mem hmem
    have hlt := (List.getElem?_eq_some_iff.mp he).1
    unfold Indexed.push? Indexed.addAt?
    rw [h.positions, hi]
    dsimp only
    rw [h.entries, if_pos hlt, modify_addSymbol he hsymbol, ← h.entries]

end Represents

/--
A manifest has one entry for each file, in the order in which the files were first added, with each
symbol that was added under the file once. The positions that it remembers are those of the entries
of their files, so that no addition and no question for a file goes out of range; to remember them
or to search for them comes to the same, and to add what is there already changes nothing.
-/
theorem indexed_represents (additions : List (String × Symbol)) :
    ∃ m, Indexed.ofAdditions? additions = some m
      ∧ m.Represents additions
      ∧ m.Indexes (ofAdditions additions)
      ∧ (∀ file, m.get? file = some ((ofAdditions additions).get? file))
      ∧ ∀ file symbol, (file, symbol) ∈ additions →
        (ofAdditions additions).push file symbol = ofAdditions additions := by
  obtain ⟨m, hm, hindexes⟩ := Indexed.exists_ofAdditions? additions
  exact ⟨m, hm, hindexes.represents, hindexes, hindexes.get?, fun _ _ => push_of_mem⟩

def mbufAdditions : List (String × Symbol) :=
  [("netinet/in_cksum.c", ⟨"in_cksum"⟩), ("kern/uipc_mbuf.c", ⟨"m_get"⟩),
    ("netinet/in_cksum.c", ⟨"in_cksum"⟩), ("kern/uipc_mbuf.c", ⟨"m_free"⟩)]

theorem indexed_represents_mbuf :
    ("kern/uipc_mbuf.c", ⟨"m_get"⟩) ∈ mbufAdditions
      ∧ ∃ m, Indexed.ofAdditions? mbufAdditions = some m
        ∧ m.positions.get? "kern/uipc_mbuf.c" = some 1
        ∧ (∃ e, m.entries[1]? = some e ∧ e.definingFile = "kern/uipc_mbuf.c")
        ∧ m.get? "kern/uipc_mbuf.c" = some (some ⟨"kern/uipc_mbuf.c", [⟨"m_get"⟩, ⟨"m_free"⟩]⟩)
        ∧ m.push? "kern/uipc_mbuf.c" ⟨"m_get"⟩ = some m
        ∧ (ofAdditions mbufAdditions).push "kern/uipc_mbuf.c" ⟨"m_get"⟩
          = ofAdditions mbufAdditions := by
  have hmem : ("kern/uipc_mbuf.c", ⟨"m_get"⟩) ∈ mbufAdditions := by decide
  obtain ⟨m, hm, hrepresents, hindexes, -, hpush⟩ := indexed_represents mbufAdditions
  have hposition : m.positions.get? "kern/uipc_mbuf.c" = some 1 := by
    rw [hindexes.positions]
    decide
  have hget : m.get? "kern/uipc_mbuf.c"
      = some (some ⟨"kern/uipc_mbuf.c", [⟨"m_get"⟩, ⟨"m_free"⟩]⟩) := by
    rw [hrepresents.get?]
    decide
  exact ⟨hmem, m, hm, hposition, hrepresents.positions _ _ hposition, hget,
    hrepresents.push? _ _ hmem, hpush _ _ hmem⟩

end Manifest
end Graft
