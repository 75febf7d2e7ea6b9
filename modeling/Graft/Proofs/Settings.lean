import Graft.Settings.Reader

/-!
This module contains settings as a collection of single settings, each of them set or not, and that
merging two collections is to ask the later one first, for each setting by itself.
-/

namespace Graft

namespace Settings

/--
The name of a single setting. The build's environment has one for each of its variables.
-/
inductive Key where
  | donor
  | target
  | buildCommand
  | buildVariable (name : String)
  | linkCommand
  | objects
  | nm
  | sourceExtension
  | symbols
  | headerSuffixes
  | stallThreshold
  | namePrefix
  | allowOverwrite
  | log
  | errorMarkers
  | missingIncludeSuffixes
  | undefinedTokens
  | blankSeparatedSymbols
  | extractionCommand
  | sourceSuffixes
  | strip
  deriving DecidableEq, Repr

def Key.Value : Key → Type
  | .donor | .target | .nm | .symbols | .log => Path
  | .buildVariable _ | .sourceExtension | .namePrefix => String
  | .stallThreshold => Nat
  | .allowOverwrite | .blankSeparatedSymbols => Bool
  | .strip => List StripRule
  | .buildCommand | .linkCommand | .objects | .headerSuffixes | .errorMarkers
  | .missingIncludeSuffixes | .undefinedTokens | .extractionCommand | .sourceSuffixes => List String

/--
A list that is set by having entries.
-/
def listed? (as : List α) : Option (List α) :=
  if as.isEmpty then none else some as

theorem listed?_laterList (earlier later : List α) :
    listed? (laterList earlier later) = (listed? later).or (listed? earlier) := by
  cases later <;> rfl

theorem listed?_inj {as bs : List α} (h : listed? as = listed? bs) : as = bs := by
  cases as <;> cases bs <;> simp_all [listed?]

def get? (s : Settings) : (key : Key) → Option key.Value
  | .donor => s.trees.donor
  | .target => s.trees.target
  | .buildCommand => listed? s.build.command
  | .buildVariable name => s.build.environment.get? name
  | .linkCommand => listed? s.link.command
  | .objects => listed? s.link.objects
  | .nm => s.link.nm
  | .sourceExtension => s.link.sourceExtension
  | .symbols => s.link.symbols
  | .headerSuffixes => s.link.headerSuffixes
  | .stallThreshold => s.closure.stallThreshold
  | .namePrefix => s.closure.namePrefix
  | .allowOverwrite => s.closure.allowOverwrite
  | .log => s.closure.log
  | .errorMarkers => s.grammar.errorMarkers
  | .missingIncludeSuffixes => s.grammar.missingIncludeSuffixes
  | .undefinedTokens => s.grammar.undefinedTokens
  | .blankSeparatedSymbols => s.grammar.blankSeparatedSymbols
  | .extractionCommand => listed? s.extraction.command
  | .sourceSuffixes => s.extraction.suffixes
  | .strip => listed? s.extraction.strip

variable {s s' : Settings}

theorem ext_get? (h : ∀ key, s.get? key = s'.get? key) : s = s' := by
  obtain ⟨trees, build, link, closure, grammar, extraction⟩ := s
  obtain ⟨trees', build', link', closure', grammar', extraction'⟩ := s'
  have htrees : trees = trees' := by
    cases trees; cases trees'
    exact (TreeSettings.mk.injEq ..).mpr ⟨h .donor, h .target⟩
  have hbuild : build = build' := by
    cases build; cases build'
    exact (BuildSettings.mk.injEq ..).mpr
      ⟨listed?_inj (h .buildCommand), Environment.ext_get? fun name => h (.buildVariable name)⟩
  have hlink : link = link' := by
    cases link; cases link'
    exact (LinkSettings.mk.injEq ..).mpr
      ⟨listed?_inj (h .linkCommand), listed?_inj (h .objects), h .nm, h .sourceExtension,
        h .symbols, h .headerSuffixes⟩
  have hclosure : closure = closure' := by
    cases closure; cases closure'
    exact (ClosureSettings.mk.injEq ..).mpr
      ⟨h .stallThreshold, h .namePrefix, h .allowOverwrite, h .log⟩
  have hgrammar : grammar = grammar' := by
    cases grammar; cases grammar'
    exact (GrammarSettings.mk.injEq ..).mpr
      ⟨h .errorMarkers, h .missingIncludeSuffixes, h .undefinedTokens, h .blankSeparatedSymbols⟩
  have hextraction : extraction = extraction' := by
    cases extraction; cases extraction'
    exact (ExtractionSettings.mk.injEq ..).mpr
      ⟨listed?_inj (h .extractionCommand), h .sourceSuffixes, listed?_inj (h .strip)⟩
  rw [htrees, hbuild, hlink, hclosure, hgrammar, hextraction]

theorem eq_iff_get? : s = s' ↔ ∀ key, s.get? key = s'.get? key := by
  constructor
  . rintro rfl key
    rfl
  . exact ext_get?

@[simp]
theorem get?_default (key : Key) : ({} : Settings).get? key = none := by
  cases key <;> rfl

@[simp]
theorem get?_merge (earlier later : Settings) (key : Key) :
    (earlier.merge later).get? key = (later.get? key).or (earlier.get? key) := by
  cases key with
  | buildVariable name => exact Environment.get?_union _ _ name
  | buildCommand => exact listed?_laterList _ _
  | linkCommand => exact listed?_laterList _ _
  | objects => exact listed?_laterList _ _
  | extractionCommand => exact listed?_laterList _ _
  | strip => exact listed?_laterList _ _
  | _ => rfl

theorem merge_assoc (a b c : Settings) : (a.merge b).merge c = a.merge (b.merge c) := by
  apply ext_get?
  intro key
  simp only [get?_merge, Option.or_assoc]

theorem default_merge (s : Settings) : merge {} s = s := by
  apply ext_get?
  intro key
  rw [get?_merge, get?_default, Option.or_none]

theorem merge_default (s : Settings) : s.merge {} = s := by
  apply ext_get?
  intro key
  rw [get?_merge, get?_default, Option.none_or]

def loadIfThere (t : Tree) (file : Path) : Except Fault Settings :=
  if t.pathExists file then load t file else .ok {}

theorem foldlM_loadIfThere (t : Tree) (files : List Path) (s : Settings) :
    (files.filter t.pathExists).foldlM (fun s file => (load t file).map s.merge) s
      =
    files.foldlM (fun s file => (loadIfThere t file).map s.merge) s := by
  induction files generalizing s with
  | nil => rfl
  | cons file files ih =>
    rw [List.foldlM_cons, List.filter_cons]
    unfold loadIfThere
    split
    . rw [List.foldlM_cons]
      congr 1
      funext s'
      exact ih s'
    . change _ = List.foldlM _ (s.merge {}) files
      rw [merge_default]
      exact ih s

/--
The settings of a user come first, so that those of a project are merged into them.
-/
theorem loadAll_eq (t : Tree) (user : Option Path) (project : Path) :
    loadAll t (user.toList ++ [project])
      =
    (user.elim (.ok {}) (loadIfThere t)).bind fun earlier =>
      (loadIfThere t project).map earlier.merge := by
  unfold loadAll
  rw [foldlM_loadIfThere]
  cases user with
  | none =>
    change List.foldlM _ _ [project] = (loadIfThere t project).map _
    rw [List.foldlM_cons]
    cases loadIfThere t project <;> rfl
  | some user =>
    change List.foldlM _ _ [user, project] = (loadIfThere t user).bind _
    rw [List.foldlM_cons]
    cases loadIfThere t user with
    | error e => rfl
    | ok earlier =>
      change List.foldlM (fun s file => (loadIfThere t file).map s.merge) (merge {} earlier) [project]
        = (loadIfThere t project).map earlier.merge
      rw [default_merge, List.foldlM_cons]
      cases loadIfThere t project <;> rfl

theorem loadAll_eq_ok_iff {t : Tree} {user : Option Path} {project : Path} :
    loadAll t (user.toList ++ [project]) = .ok s
      ↔
    ∃ earlier later, user.elim (.ok {}) (loadIfThere t) = .ok earlier
      ∧ loadIfThere t project = .ok later
      ∧ ∀ key, s.get? key = (later.get? key).or (earlier.get? key) := by
  have hmerge : ∀ earlier later : Settings, earlier.merge later = s
      ↔ ∀ key, s.get? key = (later.get? key).or (earlier.get? key) := by
    intro earlier later
    rw [eq_comm, eq_iff_get?]
    simp only [get?_merge]
  rw [loadAll_eq]
  cases user.elim (.ok {}) (loadIfThere t) with
  | error e => simp [Except.bind]
  | ok earlier =>
    cases loadIfThere t project with
    | error e => simp [Except.bind, Except.map]
    | ok later => simp [Except.bind, Except.map, hmerge]

/--
To merge settings is associative with the default as its unit, and decides each setting by itself:
the later value wins where one is set. So a project's settings come before those of its user, and
both before the default.
-/
theorem merge_monoid :
    (∀ a b c : Settings, (a.merge b).merge c = a.merge (b.merge c))
    ∧ (∀ a : Settings, merge {} a = a ∧ a.merge {} = a)
    ∧ (∀ (a b : Settings) (key : Key), (a.merge b).get? key = (b.get? key).or (a.get? key))
    ∧ (∀ a b : Settings, a = b ↔ ∀ key, a.get? key = b.get? key)
    ∧ ∀ (t : Tree) (user : Option Path) (project : Path) (s : Settings),
      loadAll t (user.toList ++ [project]) = .ok s
        ↔
      ∃ earlier later, user.elim (.ok {}) (loadIfThere t) = .ok earlier
        ∧ loadIfThere t project = .ok later
        ∧ ∀ key,
          s.get? key = (later.get? key).or ((earlier.get? key).or (({} : Settings).get? key)) := by
  refine ⟨merge_assoc, fun a => ⟨default_merge a, merge_default a⟩, get?_merge,
    fun _ _ => eq_iff_get?, ?_⟩
  intro t user project s
  simp only [get?_default, Option.or_none]
  exact loadAll_eq_ok_iff

end Settings
end Graft
