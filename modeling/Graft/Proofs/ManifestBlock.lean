import Graft.Manifest
import Graft.Proofs.Text.Words

/-!
This module contains which blocks are read back from their written form. Only blank lines divide
blocks, so no line of a block may be blank or fall apart.
-/

namespace Graft

def ManifestEntry.block (entry : ManifestEntry) : ManifestBlock :=
  ⟨entry.definingFile, entry.symbols.map fun symbol => "\t" ++ symbol.name⟩

theorem Manifest.render_eq_renderAll (m : Manifest) :
    m.render = ManifestBlock.renderAll (m.entries.map (·.block)) := by
  unfold render ManifestBlock.renderAll
  rw [List.map_map]
  rfl

namespace ManifestBlock

/--
A line that belongs to a block and stays one line.
-/
def IsBlockLine (line : String) : Prop :=
  Text.isBlankText line = false ∧ Text.IsLine line.toList

def lines (block : ManifestBlock) : List String :=
  block.fileLine :: block.details

theorem lines_renderBlock {ls : List String} (h : ∀ line ∈ ls, IsBlockLine line)
    (back : List Char) :
    Text.lines ((renderBlock ls).toList ++ back)
      =
    ls.map String.toList ++ [] :: Text.lines back := by
  have hrender : (renderBlock ls).toList
      = (ls.map String.toList ++ [[]]).flatMap (· ++ ['\n']) := by
    have hfeed : "\n".toList = ['\n'] := rfl
    unfold renderBlock
    rw [String.toList_append, String.toList_join, List.flatMap_map, List.flatMap_append,
      List.flatMap_map]
    simp [hfeed]
  rw [hrender, Text.lines_flatMap_append, List.append_assoc]
  . rfl
  . intro line hline
    rw [List.mem_append, List.mem_map, List.mem_singleton] at hline
    rcases hline with ⟨line, hline, rfl⟩ | rfl
    . exact (h line hline).2
    . simp [Text.IsLine]

theorem ofLines.go_details {details : List String}
    (h : ∀ line ∈ details, Text.isBlankText line = false) (block : ManifestBlock)
    (rest : List String) :
    go (some block) (details ++ "" :: rest)
      =
    { block with details := block.details ++ details } :: go none rest := by
  induction details generalizing block with
  | nil => simp [go, Text.isBlankText]
  | cons line details ih =>
    rw [List.forall_mem_cons] at h
    rw [List.cons_append, go, h.1, if_neg Bool.false_ne_true, ih h.2]
    simp

theorem ofLines.go_block {block : ManifestBlock}
    (h : ∀ line ∈ block.lines, Text.isBlankText line = false) (rest : List String) :
    go none (block.lines ++ "" :: rest) = block :: go none rest := by
  unfold lines at h ⊢
  rw [List.forall_mem_cons] at h
  rw [List.cons_append, go, h.1, if_neg Bool.false_ne_true, go_details h.2]
  rfl

theorem parse_renderAll {blocks : List ManifestBlock}
    (h : ∀ block ∈ blocks, ∀ line ∈ block.lines, IsBlockLine line) :
    parse (renderAll blocks) = blocks := by
  unfold parse ofLines renderAll Text.lineTexts
  rw [String.toList_join]
  induction blocks with
  | nil => rfl
  | cons block blocks ih =>
    rw [List.forall_mem_cons] at h
    have hrender : block.render = renderBlock block.lines := rfl
    have htexts : (block.lines.map String.toList).map String.ofList = block.lines := by
      rw [List.map_map]
      simp [Function.comp_def]
    rw [List.map_cons, List.flatMap_cons, hrender, lines_renderBlock h.1, List.map_append, htexts,
      List.map_cons, String.ofList_nil, ofLines.go_block, ih h.2]
    intro line hline
    exact (h.1 line hline).1

theorem difference_renderAll {blocks : List ManifestBlock}
    (h : ∀ block ∈ blocks, ∀ line ∈ block.lines, IsBlockLine line) (handled : String) :
    difference (renderAll blocks) handled
      =
    renderAll (blocks.filter fun block => block.file ∉ (parse handled).map (·.file)) := by
  unfold difference remaining
  rw [parse_renderAll h]

theorem isBlockLine_append_isWord {front word : String} (hfront : '\n' ∉ front.toList)
    (h : Text.IsWord word.toList) :
    IsBlockLine (front ++ word) := by
  unfold IsBlockLine Text.isBlankText
  rw [String.toList_append]
  refine ⟨?_, Text.isLine_append_isWord hfront h⟩
  obtain ⟨c, hc⟩ := List.exists_mem_of_ne_nil _ h.1
  rw [List.all_eq_false]
  refine ⟨c, List.mem_append_right _ hc, ?_⟩
  simp [h.2 c hc]

end ManifestBlock

structure ManifestEntry.IsWorded (entry : ManifestEntry) : Prop where
  file : Text.IsWord entry.definingFile.toList
  symbols : ∀ symbol ∈ entry.symbols, Text.IsWord symbol.name.toList

theorem ManifestEntry.IsWorded.isBlockLine {entry : ManifestEntry} (h : entry.IsWorded) :
    ∀ line ∈ entry.block.lines, ManifestBlock.IsBlockLine line := by
  intro line hline
  rcases List.mem_cons.mp hline with rfl | hline
  . have hempty : '\n' ∉ "".toList := by decide
    have := ManifestBlock.isBlockLine_append_isWord hempty h.file
    rwa [String.empty_append] at this
  . obtain ⟨symbol, hsymbol, rfl⟩ := List.mem_map.mp hline
    apply ManifestBlock.isBlockLine_append_isWord (by decide) (h.symbols symbol hsymbol)

theorem ManifestEntry.IsWorded.file_block {entry : ManifestEntry} (h : entry.IsWorded) :
    entry.block.file = entry.definingFile := by
  unfold ManifestBlock.file Text.trimmed ManifestEntry.block
  rw [Text.trim_of_words_eq_singleton (Text.words_of_isWord h.file), String.ofList_toList]

namespace Manifest

variable {m : Manifest} (hworded : ∀ entry ∈ m.entries, entry.IsWorded)

include hworded

theorem isBlockLine_of_isWorded :
    ∀ block ∈ m.entries.map (·.block), ∀ line ∈ block.lines, ManifestBlock.IsBlockLine line := by
  intro block hblock
  obtain ⟨entry, hentry, rfl⟩ := List.mem_map.mp hblock
  exact (hworded entry hentry).isBlockLine

theorem parse_render :
    (ManifestBlock.parse m.render).map (fun block => (block.file, block.details))
      =
    m.entries.map fun entry =>
      (entry.definingFile, entry.symbols.map fun symbol => "\t" ++ symbol.name) := by
  rw [render_eq_renderAll, ManifestBlock.parse_renderAll (isBlockLine_of_isWorded hworded),
    List.map_map]
  apply List.map_congr_left
  intro entry hentry
  rw [Function.comp_apply, (hworded entry hentry).file_block]
  rfl

theorem difference_render (handled : String) :
    ManifestBlock.difference m.render handled
      =
    render ⟨m.entries.filter fun entry =>
      entry.definingFile ∉ (ManifestBlock.parse handled).map (·.file)⟩ := by
  have hkept : m.entries.filter (fun entry =>
        entry.block.file ∉ (ManifestBlock.parse handled).map (·.file))
      = m.entries.filter fun entry =>
        entry.definingFile ∉ (ManifestBlock.parse handled).map (·.file) := by
    apply List.filter_congr
    intro entry hentry
    rw [(hworded entry hentry).file_block]
  rw [render_eq_renderAll, render_eq_renderAll,
    ManifestBlock.difference_renderAll (isBlockLine_of_isWorded hworded), List.filter_map, ← hkept]
  rfl

end Manifest
end Graft
