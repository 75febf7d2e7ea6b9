import Graft.Extraction
import Graft.Listing
import Graft.Proofs.DefinitionIndex
import Graft.Proofs.SourcePath
import Graft.Proofs.Text.Words

/-!
This module contains which definitions an index gets back from their listing. The fields of a line
are separated by tabs, while any white space separates them for the reader.
-/

namespace Graft
namespace Definition

structure Listable (d : Definition) : Prop where
  /-- The file is one word, with nothing but white space around it, and begins no comment. -/
  file : ∃ word, Text.words d.owningFile.toList = [word] ∧ word.head? ≠ some '#'
  /-- Kind and name are on the line of the file. -/
  unbroken : '\n' ∉ Text.trimStart d.owningFile.toList
  name : Text.IsWord d.name.toList

def fields (d : Definition) : List Char :=
  '\t' :: (d.kind.tag.toList ++ '\t' :: d.name.toList)

/--
What the line of a definition is read as. A line feed in one of its fields makes it several lines.
-/
def reread (d : Definition) : List Definition :=
  (d.toTriple.toList.splitOn '\n').filterMap ofTripleChars?

theorem toList_toTriple (d : Definition) :
    d.toTriple.toList = d.owningFile.toList ++ d.fields := by
  simp [toTriple, fields]

theorem isWord_tag (kind : DefinitionKind) : Text.IsWord kind.tag.toList := by
  cases kind <;> simp [Text.IsWord, DefinitionKind.tag, Text.isBlank]

theorem words_append_fields {d : Definition} (hname : Text.IsWord d.name.toList) (cs : List Char) :
    Text.words (cs ++ d.fields) = Text.words cs ++ [d.kind.tag.toList, d.name.toList] := by
  unfold fields
  rw [Text.words_append_blank _ (by rfl), Text.words_append_blank _ (by rfl),
    Text.words_of_isWord (isWord_tag _), Text.words_of_isWord hname]
  rfl

theorem not_mem_fields {d : Definition} (hname : Text.IsWord d.name.toList) : '\n' ∉ d.fields := by
  intro hmem
  unfold fields at hmem
  rw [List.mem_cons, List.mem_append, List.mem_cons] at hmem
  rcases hmem with hmem | hmem | hmem | hmem
  . contradiction
  . have := (isWord_tag _).2 _ hmem
    contradiction
  . contradiction
  . have := hname.2 _ hmem
    contradiction

theorem ofTripleChars?_of_words {line file name : List Char} {kind : DefinitionKind}
    (h : Text.words line = [file, kind.tag.toList, name]) :
    ofTripleChars? line
      =
    if file.head? = some '#' then none else some ⟨kind, .ofList name, .ofList file⟩ := by
  unfold ofTripleChars?
  rw [h]
  simp

theorem ofTripleChars?_of_length_lt {line : List Char} (h : (Text.words line).length < 3) :
    ofTripleChars? line = none := by
  unfold ofTripleChars?
  split
  . next hwords =>
    rw [hwords] at h
    simp at h
    omega
  . rfl

theorem isWord_of_ofTripleChars? {line : List Char} {d : Definition}
    (h : ofTripleChars? line = some d) :
    Text.IsWord d.owningFile.toList ∧ Text.IsWord d.name.toList := by
  unfold ofTripleChars? at h
  split at h
  . next file kind name _ hwords =>
    split at h
    . contradiction
    . obtain ⟨_, _, rfl⟩ := Option.map_eq_some_iff.mp h
      rw [String.toList_ofList, String.toList_ofList]
      have hword : ∀ word ∈ Text.words line, Text.IsWord word :=
        fun _ hmem => Text.isWord_of_mem_words hmem
      rw [hwords] at hword
      exact ⟨hword file (by simp), hword name (by simp)⟩
  . contradiction

/--
Only the last line of a definition that is written on several has all fields.
-/
theorem exists_reread {d : Definition} (hname : Text.IsWord d.name.toList)
    (hfile : (Text.words d.owningFile.toList).length ≤ 1) :
    ∃ front last, d.owningFile.toList.splitOn '\n' = front ++ [last]
      ∧ d.reread = (ofTripleChars? (last ++ d.fields)).toList := by
  obtain ⟨front, last, hsplit, hline⟩ :=
    exists_splitOn_append (not_mem_fields hname) d.owningFile.toList
  refine ⟨front, last, hsplit, ?_⟩
  have hfront : front.filterMap ofTripleChars? = [] := by
    rw [List.filterMap_eq_nil_iff]
    intro piece hpiece
    apply ofTripleChars?_of_length_lt
    have hle : (Text.words piece).length ≤ (Text.words d.owningFile.toList).length := by
      rw [← Text.flatMap_words_splitOn d.owningFile.toList, hsplit]
      apply List.Sublist.length_le
      apply List.sublist_flatten_of_mem
      apply List.mem_map_of_mem
      simp [hpiece]
    omega
  unfold reread
  rw [toList_toTriple, hline, List.filterMap_append, hfront, List.nil_append]
  cases h : ofTripleChars? (last ++ d.fields) <;> simp [h]

theorem length_reread_le_one {d : Definition} (hname : Text.IsWord d.name.toList)
    (hfile : (Text.words d.owningFile.toList).length ≤ 1) :
    d.reread.length ≤ 1 := by
  obtain ⟨_, _, _, hreread⟩ := exists_reread hname hfile
  rw [hreread]
  apply Option.length_toList_le

theorem listable_of_reread {d : Definition} (hname : Text.IsWord d.name.toList)
    (hfile : (Text.words d.owningFile.toList).length ≤ 1) (h : d.reread ≠ []) : d.Listable := by
  obtain ⟨front, last, hsplit, hreread⟩ := exists_reread hname hfile
  have hwords := Text.flatMap_words_splitOn d.owningFile.toList
  rw [hsplit, List.flatMap_append, List.flatMap_singleton] at hwords
  have hlast : (Text.words last).length ≤ 1 := by
    rw [← hwords, List.length_append] at hfile
    omega
  cases hword : Text.words last with
  | nil =>
    rw [hreread, ofTripleChars?_of_length_lt] at h
    . contradiction
    . rw [words_append_fields hname, hword]
      simp
  | cons word rest =>
    rw [hword, List.length_cons] at hlast
    have hrest : rest = [] := List.eq_nil_of_length_eq_zero (by omega)
    subst hrest
    have hone : Text.words d.owningFile.toList = [word] := by
      rw [← hwords, List.length_append, hword, List.length_singleton] at hfile
      rw [← hwords, hword, List.eq_nil_of_length_eq_zero (l := front.flatMap Text.words) (by omega)]
      rfl
    refine ⟨⟨word, hone, ?_⟩, (Text.words_last_iff hsplit hone).mp hword, hname⟩
    intro hcomment
    have hline : Text.words (last ++ d.fields) = [word, d.kind.tag.toList, d.name.toList] := by
      rw [words_append_fields hname, hword]
      rfl
    rw [hreread, ofTripleChars?_of_words hline, if_pos hcomment] at h
    contradiction

theorem Listable.exists_reread {d : Definition} (h : d.Listable) :
    ∃ d', d.reread = [d'] ∧ d'.entry = d.entry := by
  obtain ⟨word, hone, hcomment⟩ := h.file
  obtain ⟨front, last, hsplit, hreread⟩ := Definition.exists_reread h.name (by simp [hone])
  have hline : Text.words (last ++ d.fields) = [word, d.kind.tag.toList, d.name.toList] := by
    rw [words_append_fields h.name, (Text.words_last_iff hsplit hone).mpr h.unbroken]
    rfl
  have hmem : word ∈ Text.words d.owningFile.toList := by
    rw [hone]
    apply List.mem_singleton_self
  have hword := Text.isWord_of_mem_words hmem
  have hfile : SourcePath.normalize (.ofList word) = SourcePath.normalize d.owningFile := by
    apply SourcePath.normalize_eq_of_trim_eq
    rw [Text.trim_of_words_eq_singleton hone, String.toList_ofList,
      Text.trim_of_words_eq_singleton (Text.words_of_isWord hword)]
  rw [hreread, ofTripleChars?_of_words hline, if_neg hcomment]
  refine ⟨_, rfl, ?_⟩
  unfold entry key
  rw [String.ofList_toList, hfile]

theorem isWord_of_mem_reread {ds : List Definition} {e : Definition}
    (he : e ∈ ds.flatMap (·.reread)) :
    Text.IsWord e.owningFile.toList ∧ Text.IsWord e.name.toList := by
  obtain ⟨d, _, hmem⟩ := List.mem_flatMap.mp he
  obtain ⟨line, _, hline⟩ := List.mem_filterMap.mp hmem
  apply isWord_of_ofTripleChars? hline

theorem length_reread_le {ds : List Definition} (hle : ∀ d ∈ ds, d.reread.length ≤ 1) :
    (ds.flatMap (·.reread)).length ≤ ds.length := by
  induction ds with
  | nil => simp
  | cons d ds ih =>
    rw [List.forall_mem_cons] at hle
    rw [List.flatMap_cons, List.length_append, List.length_cons]
    have := ih hle.2
    omega

theorem reread_ne_nil {ds : List Definition} (hle : ∀ d ∈ ds, d.reread.length ≤ 1)
    (hlength : ds.length ≤ (ds.flatMap (·.reread)).length) :
    ∀ d ∈ ds, d.reread ≠ [] := by
  induction ds with
  | nil => simp
  | cons d ds ih =>
    rw [List.forall_mem_cons] at hle ⊢
    have hrest := length_reread_le hle.2
    rw [List.flatMap_cons, List.length_append, List.length_cons] at hlength
    constructor
    . intro hnil
      rw [hnil, List.length_nil] at hlength
      omega
    . apply ih hle.2
      omega

end Definition

namespace ListingFormat

theorem lines_render (ds : List Definition) :
    (Text.lines (render ds .triples).toList).filterMap Definition.ofTripleChars?
      =
    ds.flatMap (·.reread) := by
  have hreturn : ∀ line, Definition.ofTripleChars? (Text.dropReturn line)
      = Definition.ofTripleChars? line := by
    intro line
    unfold Definition.ofTripleChars?
    rw [Text.words_dropReturn]
  unfold render
  rw [String.toList_join]
  induction ds with
  | nil => rfl
  | cons d ds ih =>
    rw [List.map_cons, List.flatMap_cons, List.flatMap_cons, String.toList_append,
      List.append_assoc]
    have hline : "\n".toList = ['\n'] := rfl
    rw [hline, List.singleton_append, Text.lines_append_lineFeed, List.filterMap_append, ih,
      List.filterMap_map]
    simp only [Function.comp_def, hreturn]
    rfl

end ListingFormat

namespace DefinitionIndex

theorem ofListing_render (ds : List Definition) :
    ofListing (ListingFormat.render ds .triples) = ofDefinitions (ds.flatMap (·.reread)) := by
  unfold ofListing
  rw [ListingFormat.lines_render]

theorem ofListing_render_eq_iff (ds : List Definition) :
    ofListing (ListingFormat.render ds .triples) = ofDefinitions ds ↔ ∀ d ∈ ds, d.Listable := by
  rw [ofListing_render]
  constructor
  . intro heq
    -- What is read has words as names and files, and the index tells of no others.
    have hname : ∀ d ∈ ds, Text.IsWord d.name.toList := by
      intro d hd
      obtain ⟨e, he, hkey⟩ := exists_key_eq heq.symm hd
      rw [← (Definition.keyOf_inj.mp hkey).2]
      exact (Definition.isWord_of_mem_reread he).2
    have hfile : ∀ d ∈ ds, (Text.words d.owningFile.toList).length ≤ 1 := by
      intro d hd
      obtain ⟨e, he, hfile⟩ := exists_file_eq heq.symm hd
      apply SourcePath.length_words_le_one_of_normalize_eq hfile.symm
      exact (Definition.isWord_of_mem_reread he).1
    have hle : ∀ d ∈ ds, d.reread.length ≤ 1 := by
      intro d hd
      apply Definition.length_reread_le_one (hname d hd) (hfile d hd)
    -- So each definition is read once at most; a lost one would be missing from the count.
    intro d hd
    apply Definition.listable_of_reread (hname d hd) (hfile d hd)
    exact Definition.reread_ne_nil hle (length_eq heq).ge d hd
  . intro hlistable
    apply ofDefinitions_congr
    induction ds with
    | nil => rfl
    | cons d ds ih =>
      rw [List.forall_mem_cons] at hlistable
      obtain ⟨d', hreread, hentry⟩ := hlistable.1.exists_reread
      rw [List.flatMap_cons, hreread, List.singleton_append, List.map_cons, List.map_cons, hentry,
        ih hlistable.2]

end DefinitionIndex

namespace Extraction

/--
The listing of what a tool's output says of a file is loaded as the index of it if and only if each
definition can be read back.
-/
theorem listing_loads_iff (cleanup : List NameCleanup.Step) (path output : String) :
    DefinitionIndex.ofListing
        (ListingFormat.render (parse cleanup (SourcePath.normalize path) output) .triples)
      = DefinitionIndex.ofDefinitions (parse cleanup (SourcePath.normalize path) output)
      ↔ ∀ d ∈ parse cleanup (SourcePath.normalize path) output, d.Listable := by
  apply DefinitionIndex.ofListing_render_eq_iff

/--
A function with an attribute that is not stripped is loaded under the name of the attribute.
-/
theorem listing_of_attribute_ne :
    DefinitionIndex.ofListing
        (ListingFormat.render
          (parse [] (SourcePath.normalize "a.c") "funcdef __malloc_like m_getcl(int how)\n")
          .triples)
      ≠ DefinitionIndex.ofDefinitions
          (parse [] (SourcePath.normalize "a.c") "funcdef __malloc_like m_getcl(int how)\n") := by
  intro heq
  have hkeys := congrArg DefinitionIndex.keys heq
  revert hkeys
  decide +kernel

end Extraction
end Graft
