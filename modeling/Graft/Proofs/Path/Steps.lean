import Graft.Proofs.Path.Locate

/-!
This module contains the steps of a path, which are its components behind a root or a leading `.`.
Joining two paths puts the steps of the second behind those of the first.
-/

namespace Graft
namespace Path

def steps (p : Path) : List Component :=
  (p.text.toList.splitOn '/').filterMap Component.ofPiece?

theorem mem_steps {p : Path} {c : Component} (h : c ∈ p.steps) :
    c = .parent ∨ ∃ n, c = .name n := by
  obtain ⟨piece, _, hpiece⟩ := List.mem_filterMap.mp h
  rcases Component.ofPiece?_cases piece with hcase | hcase | hcase
  all_goals
    rw [hcase] at hpiece
    cases hpiece
  . exact Or.inl rfl
  . exact Or.inr ⟨piece, rfl⟩

theorem locate_eq_steps (here : Location) (p : Path) :
    p.locate here = p.steps.foldl Component.follow (Tree.start here p) := by
  rw [locate_eq_trace]
  rfl

theorem start_ofText (cs : List Char) :
    (Body.ofText cs).start
      =
    if cs.head? = some '/' then some .root
    else if (cs.splitOn '/').head? = some ['.'] then some .current
    else none := by
  by_cases hroot : cs.head? = some '/'
  . obtain ⟨rest, rfl⟩ := List.head?_eq_some_iff.mp hroot
    rw [Body.ofText_slash_cons]
    rfl
  . rw [if_neg hroot]
    cases cs with
    | nil => rfl
    | cons c cs =>
      have hc : c ≠ '/' := by simpa using hroot
      obtain ⟨first, rest, _, hsplit⟩ := exists_splitOn_cons hc cs
      unfold Body.ofText
      rw [hsplit]
      by_cases hdot : c :: first = ['.']
      . rw [hdot]
        rfl
      . simp only [List.head?_cons, Option.some_inj, hdot, ↓reduceIte]
        split <;> simp_all

theorem start_append (front back back' : List Char) :
    (Body.ofText (front ++ '/' :: back)).start = (Body.ofText (front ++ '/' :: back')).start := by
  rw [start_ofText, start_ofText, List.splitOn_append_cons_self, List.splitOn_append_cons_self,
    List.head?_append_of_ne_nil _ (List.splitOn_ne_nil _ _),
    List.head?_append_of_ne_nil _ (List.splitOn_ne_nil _ _), List.head?_append, List.head?_append]
  rfl

theorem start_append_of_ne_nil {front : List Char} (hne : front ≠ []) (back : List Char) :
    (Body.ofText (front ++ '/' :: back)).start = (Body.ofText front).start := by
  rw [start_ofText, start_ofText, List.splitOn_append_cons_self,
    List.head?_append_of_ne_nil _ (List.splitOn_ne_nil _ _), List.head?_append_of_ne_nil _ hne]

theorem components_eq_steps (p : Path) : p.components = p.body.start.toList ++ p.steps := by
  unfold components body Body.components steps
  congr 1
  generalize p.text.toList = cs
  by_cases hroot : cs.head? = some '/'
  . obtain ⟨rest, rfl⟩ := List.head?_eq_some_iff.mp hroot
    rw [Body.ofText_slash_cons, splitOn_cons_self]
    rfl
  . rcases Body.ofText_eq_or hroot with heq | ⟨pieces, hsplit, heq⟩
    . rw [heq]
    . rw [heq, hsplit]
      rfl

theorem start_eq_root_iff {p : Path} : p.body.start = some .root ↔ p.isAbsolute := by
  unfold body isAbsolute
  rw [start_ofText, beq_iff_eq]
  split
  . simp_all
  . split <;> simp_all

theorem not_mem_steps (p : Path) : .root ∉ p.steps ∧ .current ∉ p.steps := by
  constructor
  all_goals
    intro hmem
    rcases mem_steps hmem with h | ⟨_, h⟩
    all_goals contradiction

theorem sameAs_iff {p q : Path} : p.sameAs q ↔ p.components = q.components := by
  unfold sameAs
  rw [decide_eq_true_eq]

theorem sameAs_symm {p q : Path} (h : p.sameAs q) : q.sameAs p := by
  rw [sameAs_iff] at *
  exact h.symm

section SameAs

variable {p q : Path} (h : p.sameAs q)

include h

theorem steps_eq_of_sameAs : p.steps = q.steps := by
  have hfilter : ∀ p : Path,
      p.components.filter (fun c => c ≠ .root ∧ c ≠ .current) = p.steps := by
    intro p
    have hsteps : p.steps.filter (fun c => c ≠ .root ∧ c ≠ .current) = p.steps := by
      rw [List.filter_eq_self]
      intro c hc
      rcases mem_steps hc with rfl | ⟨_, rfl⟩ <;> rfl
    rw [components_eq_steps, List.filter_append, hsteps]
    unfold body
    rw [start_ofText]
    split
    . rfl
    . split <;> rfl
  rw [← hfilter, sameAs_iff.mp h, hfilter]

theorem isAbsolute_eq_of_sameAs : p.isAbsolute = q.isAbsolute := by
  have hroot : ∀ p : Path, p.isAbsolute ↔ .root ∈ p.components := by
    intro p
    rw [components_eq_steps, List.mem_append, ← start_eq_root_iff, Option.mem_toList]
    simp [(not_mem_steps p).1]
  rw [Bool.eq_iff_iff, hroot, sameAs_iff.mp h, hroot]

end SameAs

theorem join_text_ne {p q : Path} (hp : p.text ≠ "") (hq : ¬ q.isAbsolute) :
    (p.join q).text ≠ "" := by
  obtain ⟨front, htext, _⟩ := exists_text_join hp hq
  intro hempty
  rw [hempty] at htext
  simp at htext

theorem components_join {p q : Path} (hp : p.text ≠ "") (hq : ¬ q.isAbsolute) :
    (p.join q).components = p.components ++ q.steps := by
  obtain ⟨front, htext, hfront⟩ := exists_text_join hp hq
  -- Only the first path has a beginning; the separator between the two adds no step.
  have hstart : (p.join q).body.start = p.body.start := by
    unfold body
    rw [htext]
    rcases hfront with hfront | hfront
    . have hne : front ≠ [] := by
        rw [← hfront]
        simpa using hp
      rw [hfront, start_append_of_ne_nil hne]
    . rw [hfront]
      apply start_append
  have hsteps : (p.join q).steps = p.steps ++ q.steps := by
    unfold steps
    rw [htext, List.splitOn_append_cons_self, List.filterMap_append]
    rcases hfront with hfront | hfront
    . rw [hfront]
    . rw [hfront, List.splitOn_append_cons_self, List.filterMap_append]
      simp [Component.ofPiece?]
  rw [components_eq_steps, components_eq_steps, hstart, hsteps, List.append_assoc]

namespace Body

theorem steps_ofBody {b : Body} (h : b.Readable) :
    (ofBody b).steps = b.pieces.filterMap Component.ofPiece? := by
  have hpieces : ((['/'].intercalate b.pieces).splitOn '/').filterMap Component.ofPiece?
      = b.pieces.filterMap Component.ofPiece? := by
    cases hb : b.pieces with
    | nil => rfl
    | cons first rest =>
      rw [← hb, List.splitOn_intercalate _ h.slash (by simp [hb])]
  unfold steps ofBody text
  rw [String.toList_ofList]
  rcases h.start with hstart | hstart | hstart
  all_goals rw [hstart]
  . exact hpieces
  . dsimp only
    rw [splitOn_cons_self, ← hpieces]
    rfl
  . dsimp only
    rw [List.splitOn_intercalate _ _ (by simp)]
    . rfl
    . simpa [Component.text] using h.slash

theorem isAbsolute_ofBody {b : Body} (h : b.Readable) :
    (ofBody b).isAbsolute ↔ b.start = some .root := by
  unfold isAbsolute ofBody text
  rw [String.toList_ofList, beq_iff_eq]
  rcases h.start with hstart | hstart | hstart
  all_goals rw [hstart]
  . -- The first piece is not empty and has no separator.
    have hhead := h.head hstart
    have hslash := h.slash
    cases hb : b.pieces with
    | nil => simp
    | cons first rest =>
      rw [hb] at hhead hslash
      cases first with
      | nil => simp at hhead
      | cons c cs =>
        have := hslash (c :: cs) (by simp)
        cases rest <;> simp_all [eq_comm]
  . simp
  . cases b.pieces <;> simp [Component.text]

theorem locate_ofBody {b : Body} (h : b.Readable) (here : Location) :
    (ofBody b).locate here = b.components.foldl Component.follow here := by
  rw [locate_eq_steps, steps_ofBody h]
  unfold components
  rw [List.foldl_append]
  congr 1
  unfold Tree.start
  by_cases hroot : b.start = some .root
  . rw [if_pos ((isAbsolute_ofBody h).mpr hroot), hroot]
    rfl
  . rw [if_neg (mt (isAbsolute_ofBody h).mp hroot)]
    rcases h.start with hstart | hstart | hstart
    . rw [hstart]
      rfl
    . contradiction
    . rw [hstart]
      rfl

end Body
end Path
end Graft
