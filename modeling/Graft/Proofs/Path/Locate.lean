import Graft.Proofs.Pieces
import Graft.Tree
import Mathlib.Data.List.DropRight

/-!
This module contains the place that a path stands for by its text alone: `.` stays, `..` cancels the
name in front of it and a root starts anew. Joining two paths is locating the second from the place
of the first.
-/

namespace Graft

def Component.follow (here : Location) : Component → Location
  | .root => []
  | .current => here
  | .parent => here.dropLast
  | .name n => here ++ [.ofText n]

theorem Component.ofPiece?_cases (piece : List Char) :
    ofPiece? piece = none ∨ ofPiece? piece = some .parent ∨ ofPiece? piece = some (.name piece) := by
  unfold ofPiece?
  split
  . exact Or.inl rfl
  . split
    . exact Or.inr (Or.inl rfl)
    . exact Or.inr (Or.inr rfl)

theorem Component.eq_of_ofPiece? {piece n : List Char} (h : ofPiece? piece = some (.name n)) :
    n = piece := by
  rcases ofPiece?_cases piece with hpiece | hpiece | hpiece <;> simp_all

theorem Component.ofPiece?_of_ne {piece : List Char} (hempty : piece ≠ []) (hdot : piece ≠ ['.'])
    (hdots : piece ≠ ['.', '.']) :
    ofPiece? piece = some (.name piece) := by
  simp [ofPiece?, hempty, hdot, hdots]

namespace Path

def locate (here : Location) (p : Path) : Location :=
  p.components.foldl Component.follow here

def trace (here : Location) (pieces : List (List Char)) : Location :=
  (pieces.filterMap Component.ofPiece?).foldl Component.follow here

@[simp]
theorem trace_nil (here : Location) : trace here [] = here := rfl

theorem trace_append (here : Location) (ps qs : List (List Char)) :
    trace here (ps ++ qs) = trace (trace here ps) qs := by
  unfold trace
  rw [List.filterMap_append, List.foldl_append]

theorem trace_cons (here : Location) (piece : List Char) (pieces : List (List Char)) :
    trace here (piece :: pieces) = trace (trace here [piece]) pieces := by
  apply trace_append here [piece] pieces

theorem trace_of_isNone {pieces : List (List Char)} (here : Location)
    (h : ∀ piece ∈ pieces, (Component.ofPiece? piece).isNone) :
    trace here pieces = here := by
  have : pieces.filterMap Component.ofPiece? = [] := by
    rw [List.filterMap_eq_nil_iff]
    intro piece hpiece
    simpa using h piece hpiece
  unfold trace
  rw [this]
  rfl

@[simp]
theorem trace_empty_cons (here : Location) (pieces : List (List Char)) :
    trace here ([] :: pieces) = trace here pieces := by
  simp [trace, Component.ofPiece?]

@[simp]
theorem trace_dot_cons (here : Location) (pieces : List (List Char)) :
    trace here (['.'] :: pieces) = trace here pieces := by
  simp [trace, Component.ofPiece?]

theorem trace_none {piece : List Char} (here : Location) (h : Component.ofPiece? piece = none) :
    trace here [piece] = here := by
  simp [trace, h]

theorem trace_parent {piece : List Char} (here : Location)
    (h : Component.ofPiece? piece = some .parent) :
    trace here [piece] = here.dropLast := by
  simp [trace, h, Component.follow]

theorem trace_name {n : List Char} (here : Location)
    (h : Component.ofPiece? n = some (.name n)) :
    trace here [n] = here ++ [.ofText n] := by
  simp [trace, h, Component.follow]

namespace Body

theorem ofText_slash_cons (cs : List Char) :
    ofText ('/' :: cs) = ⟨some .root, cs.splitOn '/'⟩ := by
  obtain ⟨first, rest, h⟩ := List.exists_cons_of_ne_nil (List.splitOn_ne_nil '/' cs)
  unfold ofText
  rw [splitOn_cons_self, h]

theorem ofText_eq_or {cs : List Char} (h : cs.head? ≠ some '/') :
    ofText cs = ⟨none, cs.splitOn '/'⟩
      ∨ ∃ pieces, cs.splitOn '/' = ['.'] :: pieces ∧ ofText cs = ⟨some .current, pieces⟩ := by
  cases cs with
  | nil => exact Or.inl rfl
  | cons c cs =>
    have hc : c ≠ '/' := by simpa using h
    obtain ⟨first, rest, hcs, hsplit⟩ := exists_splitOn_cons hc cs
    unfold ofText
    rw [hsplit]
    by_cases hdot : c :: first = ['.']
    . rw [hdot]
      exact Or.inr ⟨rest, rfl, rfl⟩
    . left
      split
      . simp_all
      . simp_all
      . rfl

theorem locate_ofText (here : Location) (cs : List Char) :
    (ofText cs).components.foldl Component.follow here
      =
    trace (if cs.head? = some '/' then [] else here) (cs.splitOn '/') := by
  by_cases h : cs.head? = some '/'
  . obtain ⟨rest, rfl⟩ := List.head?_eq_some_iff.mp h
    rw [ofText_slash_cons, splitOn_cons_self]
    simp [components, trace, Component.follow, Component.ofPiece?]
  . simp only [h, ↓reduceIte]
    rcases ofText_eq_or h with heq | ⟨pieces, hsplit, heq⟩
    . rw [heq]
      simp [components, trace]
    . rw [heq, hsplit, trace_dot_cons]
      simp [components, trace, Component.follow]

end Body

theorem locate_eq_trace (here : Location) (p : Path) :
    p.locate here = trace (Tree.start here p) (p.text.toList.splitOn '/') := by
  unfold locate components body
  rw [Body.locate_ofText]
  simp [Tree.start, isAbsolute]

@[simp]
theorem locate_empty (here : Location) : locate here ⟨""⟩ = here := by
  rw [locate_eq_trace]
  simp [Tree.start, isAbsolute]

theorem trace_splitOn_append (here : Location) (front back : List Char) :
    trace here ((front ++ '/' :: back).splitOn '/')
      =
    trace (trace here (front.splitOn '/')) (back.splitOn '/') := by
  rw [List.splitOn_append_cons_self]
  apply trace_append

theorem start_eq_of_append {p q : Path} {back : List Char} (hp : p.text ≠ "")
    (h : q.text.toList = p.text.toList ++ back) (here : Location) :
    Tree.start here q = Tree.start here p := by
  have : p.text.toList ≠ [] := by simpa using hp
  unfold Tree.start isAbsolute
  rw [h, List.head?_append_of_ne_nil _ this]

theorem join_eq_right {p q : Path} (h : q.isAbsolute ∨ p.text = "") : p.join q = q := by
  unfold join
  rw [if_pos]
  simpa using h

theorem exists_text_join {p q : Path} (hp : p.text ≠ "") (hq : ¬ q.isAbsolute) :
    ∃ front, (p.join q).text.toList = front ++ '/' :: q.text.toList
      ∧ (p.text.toList = front ∨ p.text.toList = front ++ ['/']) := by
  unfold join
  rw [if_neg]
  . split
    . next hlast =>
      obtain ⟨front, hfront⟩ := List.getLast?_eq_some_iff.mp (by simpa using hlast)
      refine ⟨front, ?_, Or.inr hfront⟩
      rw [String.toList_append, hfront, List.append_assoc]
      rfl
    . refine ⟨p.text.toList, ?_, Or.inl rfl⟩
      simp
  . simp [hp, hq]

theorem locate_join (here : Location) (p q : Path) :
    (p.join q).locate here = q.locate (p.locate here) := by
  by_cases hright : q.isAbsolute ∨ p.text = ""
  . rw [join_eq_right hright]
    rcases hright with hq | hp
    . rw [locate_eq_trace, locate_eq_trace]
      simp [Tree.start, hq]
    . have : p = ⟨""⟩ := by cases p; simp_all
      rw [this, locate_empty]
  . rw [not_or] at hright
    obtain ⟨hq, hp⟩ := hright
    obtain ⟨front, htext, hfront⟩ := exists_text_join hp hq
    have hstart : Tree.start (p.locate here) q = p.locate here := by simp [Tree.start, hq]
    have hsame : Tree.start here (p.join q) = Tree.start here p := by
      rcases hfront with hfront | hfront
      . apply start_eq_of_append hp
        rw [htext, hfront]
      . apply start_eq_of_append hp
        rw [htext, hfront, List.append_assoc]
        rfl
    have htrace : ∀ here,
        trace here (p.text.toList.splitOn '/') = trace here (front.splitOn '/') := by
      intro here
      rcases hfront with hfront | hfront
      . rw [hfront]
      . rw [hfront, trace_splitOn_append]
        simp
    rw [locate_eq_trace here, hsame, htext, trace_splitOn_append, locate_eq_trace _ q, hstart,
      locate_eq_trace here p, htrace]

theorem locate_piece {n : List Char} (here : Location) (hslash : '/' ∉ n)
    (hname : Component.ofPiece? n = some (.name n)) :
    locate here ⟨.ofList n⟩ = here ++ [.ofText n] := by
  have hstart : Tree.start here ⟨.ofList n⟩ = here := by
    unfold Tree.start isAbsolute
    have : n.head? ≠ some '/' := by
      intro h
      exact hslash (List.mem_of_head? h)
    simp [this]
  rw [locate_eq_trace, hstart, String.toList_ofList, List.splitOn_eq_singleton hslash]
  apply trace_name here hname

namespace Body

structure Readable (b : Body) : Prop where
  start : b.start = none ∨ b.start = some .root ∨ b.start = some .current
  slash : ∀ piece ∈ b.pieces, '/' ∉ piece
  head : b.start = none → b.pieces.head? ≠ some []

theorem pieces_eq_trimEnd_append (b : Body) :
    ∃ dropped, b.pieces = b.trimEnd.pieces ++ dropped
      ∧ ∀ piece ∈ dropped, (Component.ofPiece? piece).isNone := by
  refine ⟨b.pieces.rtakeWhile fun p => (Component.ofPiece? p).isNone, ?_, ?_⟩
  . apply Eq.symm
    apply List.rdropWhile_append_rtakeWhile
  . intro piece h
    exact List.mem_rtakeWhile_imp (p := fun p => (Component.ofPiece? p).isNone) h

theorem prefix_trimEnd (b : Body) : b.trimEnd.pieces <+: b.pieces := by
  apply List.rdropWhile_prefix

theorem components_trimEnd (b : Body) : b.trimEnd.components = b.components := by
  obtain ⟨dropped, hpieces, hdropped⟩ := pieces_eq_trimEnd_append b
  have : dropped.filterMap Component.ofPiece? = [] := by
    rw [List.filterMap_eq_nil_iff]
    intro piece hpiece
    simpa using hdropped piece hpiece
  unfold components
  rw [hpieces, List.filterMap_append, this, List.append_nil]
  rfl

theorem Readable.of_prefix {b : Body} (h : b.Readable) {pieces : List (List Char)}
    (hfront : pieces <+: b.pieces) :
    Readable { b with pieces } where
  start := h.start
  slash piece hpiece := h.slash piece (hfront.subset hpiece)
  head hstart := by
    cases pieces with
    | nil => simp
    | cons first rest =>
      obtain ⟨back, hback⟩ := hfront
      have := h.head hstart
      rw [← hback] at this
      simpa using this

theorem readable_trimEnd_ofText (cs : List Char) : (ofText cs).trimEnd.Readable := by
  by_cases hroot : cs.head? = some '/'
  . obtain ⟨rest, rfl⟩ := List.head?_eq_some_iff.mp hroot
    rw [ofText_slash_cons]
    apply Readable.of_prefix _ (prefix_trimEnd _)
    exact ⟨by simp, fun _ => not_mem_of_mem_splitOn, by simp⟩
  . rcases ofText_eq_or hroot with heq | ⟨pieces, hsplit, heq⟩
    . rw [heq]
      cases cs with
      | nil =>
        exact ⟨Or.inl rfl, by simp [trimEnd, Component.ofPiece?],
          by simp [trimEnd, Component.ofPiece?]⟩
      | cons c cs =>
        obtain ⟨first, rest, _, hsplit⟩ := exists_splitOn_cons (by simpa using hroot) cs
        apply Readable.of_prefix _ (prefix_trimEnd _)
        refine ⟨Or.inl rfl, fun _ => not_mem_of_mem_splitOn, ?_⟩
        simp [hsplit]
    . rw [heq]
      apply Readable.of_prefix _ (prefix_trimEnd _)
      refine ⟨by simp, ?_, by simp⟩
      intro piece hpiece
      have hmem : piece ∈ cs.splitOn '/' := by simp_all
      exact not_mem_of_mem_splitOn hmem

end Body

end Path
end Graft
