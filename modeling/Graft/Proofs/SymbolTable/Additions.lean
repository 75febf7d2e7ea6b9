import Graft.Proofs.SymbolTable

/-!
This module contains what a symbol table holds after any additions, pair by pair or object by
object. Their order makes no difference to the set of files that define a symbol, nor does it matter
whether the table keeps its symbols and their files apart.
-/

namespace Graft
namespace SymbolTable

inductive Addition where
  | pair (symbol file : String)
  /-- All that a symbol lister prints for an object, which is known by a file. -/
  | object (file output : String)

namespace Addition

def addTo (table : SymbolTable) : Addition → SymbolTable
  | .pair symbol file => table.insert symbol file
  | .object file output => table.addObject file output

def pairs : Addition → List (String × String)
  | .pair symbol file => [(symbol, file)]
  | .object file output => ((Text.lines output.toList).filterMap definedSymbol?).map (·, file)

theorem addTo_eq_insertAll (table : SymbolTable) (addition : Addition) :
    addition.addTo table = table.insertAll addition.pairs := by
  cases addition <;> rfl

end Addition

def ofAdditions (additions : List Addition) : SymbolTable :=
  additions.foldl Addition.addTo empty

/--
A symbol table in two parts: the symbols in the order in which they came, and the files of each of
them. Nothing but the insertions keeps the two in step.
-/
structure Split where
  symbols : List String
  owners : Register String (List String)

namespace Split

def empty : Split := ⟨[], .empty⟩

def insert (table : Split) (symbol file : String) : Split :=
  let file := SourcePath.normalize file
  match table.owners.get? symbol with
  | some owners => { table with owners := table.owners.update symbol fun _ => addOwner owners file }
  | none => ⟨table.symbols ++ [symbol], table.owners.update symbol fun _ => [file]⟩

def insertAll (table : Split) (pairs : List (String × String)) : Split :=
  pairs.foldl (fun table (symbol, file) => table.insert symbol file) table

def ofAdditions (additions : List Addition) : Split :=
  additions.foldl (fun table addition => table.insertAll addition.pairs) empty

structure InStep (table : Split) (whole : SymbolTable) : Prop where
  symbols : table.symbols = whole.files.keys
  owners : ∀ symbol, table.owners.get? symbol = whole.files.get? symbol

section InStep

variable {table : Split} {whole : SymbolTable}

theorem inStep_empty : empty.InStep .empty :=
  ⟨rfl, fun _ => rfl⟩

theorem InStep.insert (h : table.InStep whole) (symbol file : String) :
    (table.insert symbol file).InStep (whole.insert symbol file) := by
  unfold Split.insert SymbolTable.insert
  dsimp only
  cases howners : table.owners.get? symbol with
  | some owners =>
    rw [h.owners] at howners
    have hmem : symbol ∈ whole.files.keys := by
      rw [← Register.contains_iff, Register.contains, howners]
      rfl
    constructor
    . rw [Register.keys_update, if_pos hmem]
      exact h.symbols
    . intro symbol'
      rw [Register.get?_update, Register.get?_update, h.owners, howners, Option.getD_some]
  | none =>
    rw [h.owners] at howners
    constructor
    . rw [Register.keys_update, if_neg (Register.get?_eq_none_iff.mp howners)]
      exact congrArg (· ++ [symbol]) h.symbols
    . intro symbol'
      dsimp only
      rw [Register.get?_update, Register.get?_update, h.owners, howners]
      rfl

theorem InStep.insertAll (h : table.InStep whole) (pairs : List (String × String)) :
    (table.insertAll pairs).InStep (whole.insertAll pairs) := by
  induction pairs generalizing table whole with
  | nil => exact h
  | cons pair pairs ih => exact ih (h.insert pair.1 pair.2)

theorem inStep_ofAdditions (additions : List Addition) :
    (ofAdditions additions).InStep (SymbolTable.ofAdditions additions) := by
  unfold ofAdditions SymbolTable.ofAdditions
  induction additions using List.reverseRecOn with
  | nil => exact inStep_empty
  | append_singleton additions addition ih =>
    rw [List.foldl_append, List.foldl_append, List.foldl_cons, List.foldl_nil, List.foldl_cons,
      List.foldl_nil, addition.addTo_eq_insertAll]
    exact ih.insertAll addition.pairs

end InStep
end Split

structure Represents (table : SymbolTable) (pairs : List (String × String)) : Prop where
  symbols : table.files.keys = firstBy id (pairs.map (·.1))
  owners : ∀ symbol,
    table.owners symbol
      = firstBy id ((pairs.filter (·.1 = symbol)).map fun pair => SourcePath.normalize pair.2)
  owners_eq_nil : ∀ symbol, table.owners symbol = [] ↔ symbol ∉ pairs.map (·.1)
  size : table.size = (pairs.map (·.1)).toFinset.card

theorem insertAll_append (table : SymbolTable) (pairs pairs' : List (String × String)) :
    table.insertAll (pairs ++ pairs') = (table.insertAll pairs).insertAll pairs' :=
  List.foldl_append

theorem ofAdditions_eq_insertAll (additions : List Addition) :
    ofAdditions additions = empty.insertAll (additions.flatMap (·.pairs)) := by
  unfold ofAdditions
  induction additions using List.reverseRecOn with
  | nil => rfl
  | append_singleton additions addition ih =>
    rw [List.foldl_append, List.flatMap_append, insertAll_append, ← ih, List.flatMap_singleton]
    exact addition.addTo_eq_insertAll _

theorem represents_insertAll (pairs : List (String × String)) :
    (empty.insertAll pairs).Represents pairs where
  symbols := symbols_insertAll pairs
  owners := owners_insertAll pairs
  owners_eq_nil symbol := by
    rw [owners_insertAll, List.eq_nil_iff_forall_not_mem]
    simp
  size := by
    rw [← length_firstBy_id, ← symbols_insertAll]
    exact (List.length_map _).symm

theorem Represents.perm {table table' : SymbolTable} {pairs pairs' : List (String × String)}
    (h : table.Represents pairs) (h' : table'.Represents pairs') (hperm : pairs'.Perm pairs) :
    table'.size = table.size ∧ ∀ symbol, (table'.owners symbol).Perm (table.owners symbol) := by
  constructor
  . rw [h.size, h'.size, List.toFinset_eq_of_perm _ _ (hperm.map _)]
  . intro symbol
    rw [h.owners, h'.owners]
    apply firstBy_id_perm
    exact (hperm.filter _).map _

theorem definedSymbol?_eq_some_iff {line : List Char} {name : String} :
    definedSymbol? line = some name
      ↔
    ∃ letter ∈ definedLetters,
      (∃ first rest, Text.words line = first :: [letter] :: name.toList :: rest)
        ∨ Text.words line = [[letter], name.toList] := by
  have hname : ∀ field, String.ofList field = name ↔ field = name.toList := by
    intro field
    rw [← String.toList_inj, String.toList_ofList]
  unfold definedSymbol?
  rcases Text.words line with _ | ⟨first, _ | ⟨second, _ | ⟨third, rest⟩⟩⟩
  . simp
  . simp
  . -- Of two fields the first is the kind.
    rcases first with _ | ⟨letter, _ | ⟨_, _⟩⟩ <;> simp [hname]
  . rcases second with _ | ⟨letter, _ | ⟨_, _⟩⟩ <;> simp [hname]

/--
A symbol table holds every file that was entered for a symbol once, in its normal form and where it
first came, and is as large as the number of symbols; to make the additions in another order changes
the order of the files and nothing else. Symbols and files that are kept apart stay in step. What a
symbol lister prints for an object counts as the pairs of the global definitions in it.
-/
theorem ofAdditions_represents (additions : List Addition) :
    (ofAdditions additions).Represents (additions.flatMap (·.pairs))
      ∧ (Split.ofAdditions additions).InStep (ofAdditions additions)
      ∧ (∀ line name, definedSymbol? line = some name
        ↔ ∃ letter ∈ ['T', 'D', 'B', 'R', 'S', 'G', 'V', 'W', 'C'],
          (∃ first rest, Text.words line = first :: [letter] :: name.toList :: rest)
            ∨ Text.words line = [[letter], name.toList])
      ∧ ∀ additions', additions'.Perm additions →
        (ofAdditions additions').size = (ofAdditions additions).size
          ∧ ∀ symbol, ((ofAdditions additions').owners symbol).Perm
              ((ofAdditions additions).owners symbol) := by
  have hrepresents : ∀ additions,
      (ofAdditions additions).Represents (additions.flatMap (·.pairs)) := by
    intro additions
    rw [ofAdditions_eq_insertAll]
    apply represents_insertAll
  refine ⟨hrepresents additions, Split.inStep_ofAdditions additions,
    fun _ _ => definedSymbol?_eq_some_iff, ?_⟩
  intro additions' hperm
  exact (hrepresents additions).perm (hrepresents additions') (hperm.flatMap_right _)

def mbufAdditions : List Addition :=
  [.object "kern/uipc_mbuf.c" "0000 T m_get\n0040 t m_local\n     U malloc\nW m_weak\n",
    .pair "m_get" "./kern//uipc_mbuf.c", .object "compat/mbuf.c" "0000 T m_get extra\n"]

theorem ofAdditions_represents_mbuf :
    mbufAdditions.reverse.Perm mbufAdditions
      ∧ (ofAdditions mbufAdditions).owners "m_get" = ["kern/uipc_mbuf.c", "compat/mbuf.c"]
      ∧ (ofAdditions mbufAdditions.reverse).owners "m_get"
        = ["compat/mbuf.c", "kern/uipc_mbuf.c"]
      ∧ ((ofAdditions mbufAdditions.reverse).owners "m_get").Perm
        ((ofAdditions mbufAdditions).owners "m_get")
      ∧ (ofAdditions mbufAdditions).owners "m_local" = []
      ∧ (ofAdditions mbufAdditions.reverse).size = (ofAdditions mbufAdditions).size
      ∧ (ofAdditions mbufAdditions).size = 2 := by
  have hperm : mbufAdditions.reverse.Perm mbufAdditions := List.reverse_perm _
  obtain ⟨hsize, howners⟩ := (ofAdditions_represents mbufAdditions).2.2.2 _ hperm
  exact ⟨hperm, by decide +kernel, by decide +kernel, howners _, by decide +kernel, hsize,
    by decide +kernel⟩

end SymbolTable
end Graft
