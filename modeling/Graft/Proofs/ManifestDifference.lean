import Graft.Proofs.ManifestBlock

/-!
This module contains what is left of a manifest without the files of others. A blank line keeps two
manifests apart, so that it makes no difference whether files are taken out one after the other or
all at once.
-/

namespace Graft
namespace ManifestBlock

def take (current : Option ManifestBlock) (line : String) : ManifestBlock :=
  match current with
  | none => ⟨line, []⟩
  | some block => { block with details := block.details ++ [line] }

theorem ofLines.go_cons (current : Option ManifestBlock) (line : String) (rest : List String) :
    go current (line :: rest)
      =
    if Text.isBlankText line then current.toList ++ go none rest
    else go (some (take current line)) rest := by
  cases current <;> rfl

theorem ofLines.flatMap_lines_go (current : Option ManifestBlock) (ls : List String) :
    (go current ls).flatMap lines
      =
    current.toList.flatMap lines ++ ls.filter (!Text.isBlankText ·) := by
  induction ls generalizing current with
  | nil => simp [go]
  | cons line rest ih =>
    rw [go_cons]
    split
    . next hblank =>
      rw [List.flatMap_append, ih, List.filter_cons_of_neg (by simp [hblank])]
      rfl
    . next hblank =>
      rw [ih, List.filter_cons_of_pos (by simp [hblank])]
      cases current <;> simp [take, lines]

theorem isBlockLine_of_mem_parse {text : String}
    (hreturn : ∀ line ∈ Text.lines text.toList, line.getLast? ≠ some '\r') {block : ManifestBlock}
    (hblock : block ∈ parse text) {line : String} (hline : line ∈ block.lines) :
    IsBlockLine line := by
  have hmem : line ∈ (parse text).flatMap lines := List.mem_flatMap.mpr ⟨block, hblock, hline⟩
  unfold parse ofLines at hmem
  rw [ofLines.flatMap_lines_go, Option.toList_none, List.flatMap_nil, List.nil_append,
    List.mem_filter, Bool.not_eq_true'] at hmem
  obtain ⟨cs, hcs, rfl⟩ := List.mem_map.mp hmem.1
  refine ⟨hmem.2, ?_⟩
  rw [String.toList_ofList]
  exact ⟨Text.not_mem_of_mem_lines hcs, hreturn cs hcs⟩

theorem parse_difference {required : String}
    (hreturn : ∀ line ∈ Text.lines required.toList, line.getLast? ≠ some '\r') (handled : String) :
    parse (difference required handled)
      =
    (parse required).filter fun block => block.file ∉ (parse handled).map (·.file) := by
  unfold difference
  rw [parse_renderAll]
  . rfl
  . intro block hblock line hline
    exact isBlockLine_of_mem_parse hreturn (List.mem_of_mem_filter hblock) hline

section Files

theorem ofLines.go_append_blank (current : Option ManifestBlock) (front back : List String) :
    go current (front ++ "" :: back) = go current front ++ go none back := by
  induction front generalizing current with
  | nil => rfl
  | cons line front ih =>
    rw [List.cons_append, go_cons, go_cons]
    split
    . rw [ih, List.append_assoc]
    . exact ih _

variable {current current' : Option ManifestBlock} (hcurrent : current.map file = current'.map file)

include hcurrent

theorem map_file_toList : current.toList.map file = current'.toList.map file := by
  rw [← Option.toList_map, hcurrent, Option.toList_map]

theorem ofLines.map_file_go_cons {line line' : List Char} (h : Text.trim line = Text.trim line')
    {rest rest' : List String}
    (hrest : ∀ {current current' : Option ManifestBlock}, current.map file = current'.map file →
      (go current rest).map file = (go current' rest').map file) :
    (go current (.ofList line :: rest)).map file
      =
    (go current' (.ofList line' :: rest')).map file := by
  have hblank : Text.isBlankText (.ofList line) = Text.isBlankText (.ofList line') := by
    unfold Text.isBlankText
    rw [String.toList_ofList, String.toList_ofList, Text.all_isBlank_eq_of_trim_eq h]
  have htrimmed : Text.trimmed (.ofList line) = Text.trimmed (.ofList line') := by
    unfold Text.trimmed
    rw [String.toList_ofList, String.toList_ofList, h]
  rw [go_cons, go_cons, hblank]
  split
  . rw [List.map_append, List.map_append, map_file_toList hcurrent, hrest rfl]
  . apply hrest
    cases current with
    | none =>
      cases current' with
      | none => exact congrArg some htrimmed
      | some => contradiction
    | some =>
      cases current' with
      | none => contradiction
      | some => exact hcurrent

theorem ofLines.map_file_go_linesOfPieces (pieces : List (List Char)) :
    (go current ((Text.linesOfPieces pieces).map .ofList)).map file
      =
    (go current' (pieces.map .ofList)).map file := by
  induction pieces generalizing current current' with
  | nil => exact map_file_toList hcurrent
  | cons piece pieces ih =>
    cases pieces with
    | nil =>
      unfold Text.linesOfPieces
      split
      . next hempty =>
        rw [List.isEmpty_iff] at hempty
        rw [hempty]
        change current.toList.map file = (current'.toList ++ []).map file
        rw [List.append_nil, map_file_toList hcurrent]
      . exact map_file_go_cons hcurrent rfl map_file_toList
    | cons piece' pieces =>
      rw [Text.linesOfPieces]
      . exact map_file_go_cons hcurrent (Text.trim_dropReturn piece) ih
      . simp

end Files

theorem files_append_blank (handled handled' : String) :
    (parse (handled ++ "\n\n" ++ handled')).map (·.file)
      =
    (parse handled).map (·.file) ++ (parse handled').map (·.file) := by
  have hfiles : ∀ text : String, (parse text).map file
      = (ofLines.go none ((text.toList.splitOn '\n').map .ofList)).map file := by
    intro text
    exact ofLines.map_file_go_linesOfPieces rfl _
  have htext : (handled ++ "\n\n" ++ handled').toList
      = handled.toList ++ '\n' :: ([] ++ '\n' :: handled'.toList) := by
    rw [String.toList_append, String.toList_append, List.append_assoc]
    rfl
  rw [hfiles, htext, List.splitOn_append_cons_self, List.splitOn_append_cons_self, List.map_append,
    List.map_append, List.splitOn_nil, List.map_singleton, String.ofList_nil, List.singleton_append,
    ofLines.go_append_blank, List.map_append, ← hfiles, ← hfiles]

theorem remaining_append_blank (required handled handled' : String) :
    remaining required (handled ++ "\n\n" ++ handled')
      =
    (remaining required handled).filter fun block =>
      block.file ∉ (parse handled').map (·.file) := by
  unfold remaining
  rw [files_append_blank, List.filter_filter]
  apply List.filter_congr
  intro block _
  rw [Bool.eq_iff_iff]
  simp only [List.mem_append, not_or, decide_eq_true_eq, Bool.and_eq_true]
  exact and_comm

theorem remaining_difference {required : String}
    (hreturn : ∀ line ∈ Text.lines required.toList, line.getLast? ≠ some '\r')
    (handled handled' : String) :
    remaining (difference required handled) handled'
      =
    remaining required (handled ++ "\n\n" ++ handled') := by
  rw [remaining_append_blank]
  unfold remaining
  rw [parse_difference hreturn]

/--
To take the files of two manifests out of a third is to take out those of both at once, in whatever
order. What is left has its blocks as they were, all of a file or none.
-/
theorem difference_in_steps {required : String}
    (hreturn : ∀ line ∈ Text.lines required.toList, line.getLast? ≠ some '\r')
    (handled handled' : String) :
    parse (difference required handled)
        = (parse required).filter (fun block => block.file ∉ (parse handled).map (·.file))
      ∧ (∀ file, (parse (difference required handled)).filter (·.file = file)
        = if file ∈ (parse handled).map (·.file) then []
          else (parse required).filter (·.file = file))
      ∧ difference (difference required handled) handled'
        = difference required (handled ++ "\n\n" ++ handled')
      ∧ difference (difference required handled) handled = difference required handled
      ∧ difference (difference required handled) handled'
        = difference (difference required handled') handled := by
  have hjoined : ∀ handled handled', difference (difference required handled) handled'
      = difference required (handled ++ "\n\n" ++ handled') := by
    intro handled handled'
    exact congrArg renderAll (remaining_difference hreturn handled handled')
  refine ⟨parse_difference hreturn handled, ?_, hjoined handled handled', ?_, ?_⟩
  . intro file
    rw [parse_difference hreturn, List.filter_filter]
    split
    . next hfile =>
      rw [List.filter_eq_nil_iff]
      intro block _
      rw [Bool.and_eq_true, decide_eq_true_eq, decide_eq_true_eq]
      rintro ⟨rfl, hkept⟩
      exact hkept hfile
    . next hfile =>
      apply List.filter_congr
      intro block _
      rw [Bool.eq_iff_iff, Bool.and_eq_true, decide_eq_true_eq, decide_eq_true_eq]
      constructor
      . exact And.left
      . rintro rfl
        exact ⟨rfl, hfile⟩
  . rw [hjoined]
    unfold difference
    rw [remaining_append_blank]
    unfold remaining
    rw [List.filter_filter]
    simp only [Bool.and_self]
  . rw [hjoined, hjoined]
    unfold difference
    rw [remaining_append_blank, remaining_append_blank]
    unfold remaining
    rw [List.filter_filter, List.filter_filter]
    simp only [Bool.and_comm]

def mbufManifest : String :=
  "  kern/uipc_mbuf.c\r\n\tm_get\r\n \t\n\nnet/if.c\n\tif_attach\nnet/route.c\n\n"
    ++ "kern/uipc_mbuf.c  \n\tm_free"

theorem difference_in_steps_mbuf :
    (∀ line ∈ Text.lines mbufManifest.toList, line.getLast? ≠ some '\r')
      ∧ difference (difference mbufManifest "net/if.c") "net/route.c\n"
        = difference mbufManifest ("net/if.c" ++ "\n\n" ++ "net/route.c\n")
      ∧ parse (difference mbufManifest "net/if.c")
        = (parse mbufManifest).filter (fun block => block.file ∉ (parse "net/if.c").map (·.file))
      ∧ (parse (difference mbufManifest "net/if.c")).map (·.fileLine)
        = ["  kern/uipc_mbuf.c", "kern/uipc_mbuf.c  "] := by
  have hreturn : ∀ line ∈ Text.lines mbufManifest.toList, line.getLast? ≠ some '\r' := by
    decide +kernel
  obtain ⟨hleft, _, hjoined, _⟩ := difference_in_steps hreturn "net/if.c" "net/route.c\n"
  exact ⟨hreturn, hjoined, hleft, by decide +kernel⟩

end ManifestBlock
end Graft
