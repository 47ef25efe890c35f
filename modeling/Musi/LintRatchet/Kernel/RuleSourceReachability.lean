import Musi.LintRatchet.Kernel.RuleSourceClosure

namespace Musi.LintRatchet
open Musi.Js Musi.System Relation
set_option autoImplicit true

/-- A file system of finitely many paths, each of them a file or a directory; only a directory
cannot be read. -/
structure FiniteFileSystem (fileSystem : LocalRuleSourceFileSystem) (paths : List JsString) :
    Prop where
  finite : ∀ p, fileSystem.pathExists p = true → p ∈ paths
  directory : ∀ p, fileSystem.isDirectory p = true →
    fileSystem.pathExists p = true ∧ fileSystem.readFile p = none
  file : ∀ p, fileSystem.pathExists p = true → fileSystem.isDirectory p = false →
    ∃ source, fileSystem.readFile p = some source

section Exactness
variable (host : ClosureHost) (entryPath : JsString)

def Reachable (path : JsString) : Prop := ReflTransGen (Imports host) entryPath path

/-- A file that is missing or malformed or loads a module dynamically, or a directory without
index.js, reached as a path or as what an import resolves to. -/
def Faulty (path : JsString) : Prop :=
  host.fileSystem.pathExists path = false ∨ Malformed host path ∨ LoadsDynamically host path ∨
    ImportsBareDirectory host path ∨
    (host.fileSystem.isDirectory path = true ∧
      host.fileSystem.pathExists (joinPath path (js "index.js")) = false)

/-- A directory that has an index.js, reached under its own path. -/
def IndexedDirectory (path : JsString) : Prop :=
  host.fileSystem.isDirectory path = true ∧
    host.fileSystem.pathExists (joinPath path (js "index.js")) = true

/-- The files that the entry reaches, each once and in the order of their paths, and the packages
that these files name. -/
structure ExactClosure (closure : LocalRuleClosure) : Prop where
  files : ∀ file, file ∈ closure.sortedFiles ↔
    Reachable host entryPath file.path ∧ host.fileSystem.readFile file.path = some file.source
  once : (closure.sortedFiles.map (·.path)).Nodup
  sorted : closure.sortedFiles.Pairwise fun left right => compareCodeUnits left.path right.path ≤ 0
  roots : ∀ root, root ∈ closure.bareSpecifierRoots ↔
    ∃ path, Reachable host entryPath path ∧ NamesPackage host path root
  rootsOnce : closure.bareSpecifierRoots.Nodup
  rootsSorted : closure.bareSpecifierRoots.Pairwise fun left right => compareCodeUnits left right ≤ 0

end Exactness

variable {host : ClosureHost} {paths : List JsString} {entryPath : JsString}

theorem ExactClosure.unique {closure closure' : LocalRuleClosure}
    (h : ExactClosure host entryPath closure) (h' : ExactClosure host entryPath closure') :
    closure = closure' := by
  have hfiles : closure.sortedFiles = closure'.sortedFiles := by
    refine eq_of_perm_sorted h.sorted h'.sorted ((List.perm_ext_iff_of_nodup
      (List.Nodup.of_map _ h.once) (List.Nodup.of_map _ h'.once)).2 fun file => ?_)
      fun a ha b hb hab hba => ?_
    · rw [h.files, h'.files]
    · have hpath := compareCodeUnits_strict.antisymm hab hba
      have hsource := ((h.files a).1 ha).2
      rw [hpath, ((h'.files b).1 hb).2, Option.some.injEq] at hsource
      cases a
      cases b
      cases hpath
      cases hsource
      rfl
  have hroots : closure.bareSpecifierRoots = closure'.bareSpecifierRoots := by
    refine eq_of_perm_sorted h.rootsSorted h'.rootsSorted
      ((List.perm_ext_iff_of_nodup h.rootsOnce h'.rootsOnce).2 fun root => ?_)
      fun a _ b _ hab hba => compareCodeUnits_strict.antisymm hab hba
    rw [h.roots, h'.roots]
  cases closure
  cases closure'
  cases hfiles
  cases hroots
  rfl

theorem recorded_empty : recorded {} = ∅ :=
  Set.eq_empty_of_forall_notMem fun _ h => absurd h List.not_mem_nil

/-- A collection that starts with nothing read ends with what the entry reaches. -/
theorem CollectedFrom.exact {st : ClosureState} (h : CollectedFrom host {entryPath} ∅ {} st) :
    ExactClosure host entryPath (closureOf st) := by
  have hsearch := h.search
  rw [recorded_empty] at hsearch
  have hreach (p : JsString) : p ∈ recorded st ↔ Reachable host entryPath p := hsearch.reachable p
  have hmem (file : LocalRuleSourceFile) :
      file ∈ (closureOf st).sortedFiles ↔ st.filesByPath.get file.path = some file.source := by
    rw [closureOf, mem_sortBy, List.mem_map, ← JsMap.mem_entries]
    constructor
    · rintro ⟨e, he, rfl⟩
      exact he
    · exact fun he => ⟨_, he, rfl⟩
  exact
    { files := by
        intro file
        rw [hmem, ← hreach]
        constructor
        · intro hs
          refine ⟨JsMap.mem_keys.2 ⟨_, hs⟩, ?_⟩
          rcases h.sources _ _ hs with hs | hs
          · cases hs
          · exact hs
        · rintro ⟨hp, hread⟩
          obtain ⟨source, hs⟩ := JsMap.mem_keys.1 hp
          rcases h.sources _ _ hs with hs' | hs'
          · cases hs'
          · rw [hs, ← hs', hread]
      once := by
        have hperm := (sortBy_perm (fun left right : LocalRuleSourceFile =>
          compareCodeUnits left.path right.path)
          (st.filesByPath.entries.map fun e => { path := e.1, source := e.2 })).map (·.path)
        refine hperm.nodup_iff.2 ?_
        rw [List.map_map]
        exact st.filesByPath.nodup
      sorted := sortBy_sorted
        (compareCodeUnits_strict.toConsistentComparator.comap LocalRuleSourceFile.path) _
      roots := by
        intro root
        rw [closureOf, mem_sortBy, h.roots]
        constructor
        · rintro (hr | hr | ⟨p, hp, -, hname⟩)
          · exact absurd hr List.not_mem_nil
          · exact absurd hr (Set.notMem_empty root)
          · exact ⟨p, (hreach p).1 hp, hname⟩
        · rintro ⟨p, hp, hname⟩
          exact .inr (.inr ⟨p, (hreach p).2 hp, by rw [recorded_empty]; exact Set.notMem_empty p, hname⟩)
      rootsOnce := nodup_sortBy.2 (h.distinct List.nodup_nil)
      rootsSorted := sortBy_sorted compareCodeUnits_strict.toConsistentComparator _ }

/-- What a collection returns is the exact closure, and nothing that stops it is reached. -/
theorem collectLocalRuleClosure_returns {depth : Nat} {run : Except ClosureError LocalRuleClosure}
    (h : collectLocalRuleClosure host depth entryPath = some run) :
    Returns
      (fun closure => ExactClosure host entryPath closure ∧
        ∀ path, Reachable host entryPath path → ¬ Stops host path)
      (fun _ => ∃ path, Reachable host entryPath path ∧ Stops host path) run := by
  rw [collectLocalRuleClosure, Option.map_eq_some_iff] at h
  obtain ⟨collected, hrun, rfl⟩ := h
  have hspec := collectLocalRuleSourceClosure_returns hrun
  cases collected with
  | ok st =>
    have hcollected : CollectedFrom host {entryPath} ∅ {} st := hspec
    refine ⟨hcollected.exact, fun path hr => ?_⟩
    have hsearch := hcollected.search
    rw [recorded_empty] at hsearch
    refine hcollected.sound path ((hsearch.reachable path).2 hr) ?_
    rw [recorded_empty]
    exact Set.notMem_empty path
  | error e =>
    obtain ⟨s, rfl, path, hr, hstops⟩ := hspec
    exact ⟨path, hr, hstops⟩

/-- At a depth above the number of paths the collection ends. -/
theorem collectLocalRuleClosure_cases
    (hpaths : ∀ p, host.fileSystem.pathExists p = true → p ∈ paths) (entryPath : JsString) :
    ∃ run, (∀ depth, paths.length < depth →
        collectLocalRuleClosure host depth entryPath = some run) ∧
      Returns
        (fun closure => ExactClosure host entryPath closure ∧
          ∀ path, Reachable host entryPath path → ¬ Stops host path)
        (fun _ => ∃ path, Reachable host entryPath path ∧ Stops host path) run := by
  have hless : unrecorded paths {} < paths.length + 1 :=
    Nat.lt_succ_of_le (List.length_filter_le _ _)
  obtain ⟨collected, hcollected⟩ :=
    @collectLocalRuleSourceClosure_ends host paths hpaths (paths.length + 1) entryPath {} hless
  have hrun (depth : Nat) (hd : paths.length < depth) :
      collectLocalRuleClosure host depth entryPath =
        some (match collected with | .ok st => .ok (closureOf st) | .error e => .error e) := by
    rw [collectLocalRuleClosure, collectLocalRuleSourceClosure_mono hd hcollected, Option.map_some]
    cases collected with
    | ok st => rfl
    | error e => rfl
  exact ⟨_, hrun, collectLocalRuleClosure_returns (hrun _ (Nat.lt_succ_self _))⟩

/-! ## The order of imports -/

/-- The same files with the statements of every one in some other order. -/
structure ImportsReordered (host host' : ClosureHost) : Prop where
  cwd : host'.cwd = host.cwd
  fileSystem : host'.fileSystem = host.fileSystem
  statements : ∀ path source scriptKind, (host'.ts.createSourceFile path source scriptKind).Perm
    (host.ts.createSourceFile path source scriptKind)
  diagnostics : host'.ts.transpileModule = host.ts.transpileModule
  positions : host'.ts.getLineAndCharacterOfPosition = host.ts.getLineAndCharacterOfPosition

section Order
variable {host' : ClosureHost}

theorem ImportsReordered.symm (h : ImportsReordered host host') : ImportsReordered host' host where
  cwd := h.cwd.symm
  fileSystem := h.fileSystem.symm
  statements := fun path source scriptKind => (h.statements path source scriptKind).symm
  diagnostics := h.diagnostics.symm
  positions := h.positions.symm

theorem anyLoadsDynamically_perm {statements statements' : List SyntaxNode}
    (h : statements.Perm statements') :
    anyLoadsDynamically statements = anyLoadsDynamically statements' := by
  have hany (nodes : List SyntaxNode) : anyLoadsDynamically nodes = nodes.any loadsDynamically := by
    induction nodes with
    | nil => rfl
    | cons node nodes ih => rw [anyLoadsDynamically, ih, List.any_cons]
  rw [hany, hany]
  exact h.any_eq

theorem ParsesTo.reordered (h : ImportsReordered host host') {statements : List SyntaxNode}
    (hp : ParsesTo host path statements) :
    ∃ statements', ParsesTo host' path statements' ∧ statements'.Perm statements := by
  obtain ⟨hex, source, scriptKind, hread, hkind, hparse⟩ := hp
  rw [parseJavaScriptSource] at hparse
  dsimp only at hparse
  split at hparse
  · cases hparse
  · next hnone =>
    cases hparse
    rw [← h.fileSystem] at hex hread
    refine ⟨_, ⟨hex, source, scriptKind, hread, hkind, ?_⟩, h.statements path source scriptKind⟩
    rw [parseJavaScriptSource, h.diagnostics]
    dsimp only
    rw [hnone]

theorem Malformed.reordered (h : ImportsReordered host host') (hm : Malformed host path) :
    Malformed host' path := by
  obtain ⟨hex, source, scriptKind, e, hread, hkind, hparse⟩ := hm
  rw [parseJavaScriptSource] at hparse
  dsimp only at hparse
  split at hparse
  · next diagnostic hsome =>
    rw [← h.fileSystem] at hex hread
    refine ⟨hex, source, scriptKind, e, hread, hkind, ?_⟩
    rw [parseJavaScriptSource, h.diagnostics, h.positions]
    dsimp only
    rw [hsome]
    exact hparse
  · cases hparse

theorem NamesSpecifier.reordered (h : ImportsReordered host host') {specifier : JsString}
    (hs : NamesSpecifier host path specifier) : NamesSpecifier host' path specifier := by
  obtain ⟨statements, hp, hmem⟩ := hs
  obtain ⟨statements', hp', hperm⟩ := hp.reordered h
  exact ⟨statements', hp', (hperm.filterMap _).mem_iff.2 hmem⟩

theorem Imports.reordered (h : ImportsReordered host host') {target : JsString}
    (hi : Imports host path target) : Imports host' path target := by
  obtain ⟨specifier, hs, hdot, hr⟩ := hi
  refine ⟨specifier, hs.reordered h, hdot, ?_⟩
  rw [h.cwd, h.fileSystem]
  exact hr

theorem Stops.reordered (h : ImportsReordered host host') (hs : Stops host path) :
    Stops host' path := by
  rcases hs with hm | ⟨hex, hread⟩ | hm | ⟨statements, hp, hd⟩ | ⟨specifier, e, hs, hdot, hr⟩
  · rw [← h.fileSystem] at hm
    exact .inl hm
  · rw [← h.fileSystem] at hex hread
    exact .inr (.inl ⟨hex, hread⟩)
  · exact .inr (.inr (.inl (hm.reordered h)))
  · obtain ⟨statements', hp', hperm⟩ := hp.reordered h
    exact .inr (.inr (.inr (.inl ⟨statements', hp', by rw [anyLoadsDynamically_perm hperm, hd]⟩)))
  · rw [← h.cwd, ← h.fileSystem] at hr
    exact .inr (.inr (.inr (.inr ⟨specifier, e, hs.reordered h, hdot, hr⟩)))

theorem Reachable.reordered (h : ImportsReordered host host') (hr : Reachable host entryPath path) :
    Reachable host' entryPath path := by
  have hle : Imports host ≤ Imports host' := fun _ _ hi => hi.reordered h
  exact ReflTransGen.mono hle _ _ hr

theorem ExactClosure.reordered (h : ImportsReordered host host') {closure : LocalRuleClosure}
    (hc : ExactClosure host entryPath closure) : ExactClosure host' entryPath closure := by
  have hreach (p : JsString) : Reachable host entryPath p ↔ Reachable host' entryPath p :=
    ⟨Reachable.reordered h, Reachable.reordered h.symm⟩
  have hname (p root : JsString) : NamesPackage host p root ↔ NamesPackage host' p root := by
    constructor
    · rintro ⟨specifier, hs, hdot, hr⟩
      exact ⟨specifier, hs.reordered h, hdot, hr⟩
    · rintro ⟨specifier, hs, hdot, hr⟩
      exact ⟨specifier, hs.reordered h.symm, hdot, hr⟩
  exact
    { hc with
      files := fun file => by rw [hc.files, hreach, h.fileSystem]
      roots := fun root => by simp only [hc.roots, hreach, hname] }

end Order

/-! ## The collection -/

/-- What stops the collection on a finite file system is a fault, or a directory with an index.js
that is read under its own path. -/
theorem FiniteFileSystem.stops_iff (h : FiniteFileSystem host.fileSystem paths) :
    Stops host path ↔ Faulty host path ∨ IndexedDirectory host path := by
  constructor
  · rintro (hm | ⟨hex, hread⟩ | hm | hd | hi)
    · exact .inl (.inl hm)
    · have hdir : host.fileSystem.isDirectory path = true := by
        by_contra hn
        obtain ⟨source, hs⟩ := h.file path hex (Bool.eq_false_iff.2 hn)
        rw [hread] at hs
        cases hs
      cases hindex : host.fileSystem.pathExists (joinPath path (js "index.js")) with
      | false => exact .inl (.inr (.inr (.inr (.inr ⟨hdir, hindex⟩))))
      | true => exact .inr ⟨hdir, hindex⟩
    · exact .inl (.inr (.inl hm))
    · exact .inl (.inr (.inr (.inl hd)))
    · exact .inl (.inr (.inr (.inr (.inl hi))))
  · rintro ((hm | hm | hd | hi | ⟨hdir, -⟩) | ⟨hdir, -⟩)
    · exact .inl hm
    · exact .inr (.inr (.inl hm))
    · exact .inr (.inr (.inr (.inl hd)))
    · exact .inr (.inr (.inr (.inr hi)))
    · exact .inr (.inl (h.directory path hdir))
    · exact .inr (.inl (h.directory path hdir))

/-- The collection ends at a depth that the number of paths bounds; what it returns is the exact
closure, in whatever order the statements stand; and it throws exactly at a reachable fault unless
a directory with an index.js is read under its own path. -/
theorem collectLocalRuleClosure_exact (h : FiniteFileSystem host.fileSystem paths)
    (entryPath : JsString) :
    ∃ run,
      (∀ depth, paths.length < depth →
        collectLocalRuleClosure host depth entryPath = some run) ∧
      (∀ closure, run = .ok closure → ExactClosure host entryPath closure) ∧
      (∀ host', ImportsReordered host host' → ∃ run',
        (∀ depth, paths.length < depth →
          collectLocalRuleClosure host' depth entryPath = some run') ∧
        ∀ closure, run' = .ok closure ↔ run = .ok closure) ∧
      (((∃ e, run = .error e) ↔ ∃ path, Reachable host entryPath path ∧ Faulty host path) ↔
        ((∃ path, Reachable host entryPath path ∧ IndexedDirectory host path) →
          ∃ path, Reachable host entryPath path ∧ Faulty host path)) := by
  obtain ⟨run, hrun, hspec⟩ := collectLocalRuleClosure_cases h.finite entryPath
  refine ⟨run, hrun, fun closure hc => (hspec.ok hc).1, fun host' hsame => ?_, ?_⟩
  · have hfinite : FiniteFileSystem host'.fileSystem paths := by rwa [hsame.fileSystem]
    obtain ⟨run', hrun', hspec'⟩ := collectLocalRuleClosure_cases hfinite.finite entryPath
    refine ⟨run', hrun', fun closure => ?_⟩
    cases run with
    | ok first =>
      obtain ⟨hexact, hclean⟩ := hspec
      cases run' with
      | ok second =>
        rw [hspec'.1.unique (hexact.reordered hsame)]
      | error e =>
        obtain ⟨path, hr, hstops⟩ := hspec'
        exact absurd (hstops.reordered hsame.symm) (hclean path (hr.reordered hsame.symm))
    | error e =>
      obtain ⟨path, hr, hstops⟩ := hspec
      cases run' with
      | ok second => exact absurd (hstops.reordered hsame) (hspec'.2 path (hr.reordered hsame))
      | error e' => exact iff_of_false (fun hc => by cases hc) fun hc => by cases hc
  · have hthrows : (∃ e, run = .error e) ↔ ∃ path, Reachable host entryPath path ∧ Stops host path := by
      cases run with
      | ok closure =>
        exact iff_of_false (fun ⟨e, he⟩ => by cases he) fun ⟨path, hr, hs⟩ => hspec.2 path hr hs
      | error e => exact iff_of_true ⟨e, rfl⟩ hspec
    rw [hthrows]
    constructor
    · rintro hiff ⟨path, hr, hi⟩
      exact hiff.1 ⟨path, hr, h.stops_iff.2 (.inr hi)⟩
    · intro himp
      constructor
      · rintro ⟨path, hr, hs⟩
        rcases h.stops_iff.1 hs with hf | hi
        · exact ⟨path, hr, hf⟩
        · exact himp ⟨path, hr, hi⟩
      · rintro ⟨path, hr, hf⟩
        exact ⟨path, hr, h.stops_iff.2 (.inl hf)⟩

/-! ## Two runs -/

section Runs

/-- Files with their bytes, and directories. -/
def fileSystemOf (files : List (JsString × Bytes)) (directories : List JsString) :
    LocalRuleSourceFileSystem where
  pathExists path := path ∈ directories ∨ path ∈ files.map Prod.fst
  readFile path := if path ∈ directories then none else files.lookup path
  isDirectory path := path ∈ directories

/-- A compiler that knows some programs by their bytes and finds no fault in them. -/
def compilerOf (programs : List (Bytes × List SyntaxNode)) : TypeScript where
  createSourceFile _ source _ := (programs.lookup source).getD []
  transpileModule _ _ := none
  getLineAndCharacterOfPosition _ _ := (0, 0)

theorem fileSystemOf_finite (files : List (JsString × Bytes)) (directories : List JsString) :
    FiniteFileSystem (fileSystemOf files directories) (directories ++ files.map Prod.fst) where
  finite := by
    intro path h
    rw [List.mem_append]
    exact of_decide_eq_true h
  directory := by
    intro path h
    have hdir : path ∈ directories := of_decide_eq_true h
    exact ⟨decide_eq_true (.inl hdir), if_pos hdir⟩
  file := by
    intro path hex hdir
    have hn : path ∉ directories := of_decide_eq_false hdir
    have hmem : path ∈ files.map Prod.fst :=
      (of_decide_eq_true (p := path ∈ directories ∨ path ∈ files.map Prod.fst) hex).resolve_left hn
    change ∃ source, (if path ∈ directories then none else files.lookup path) = some source
    rw [if_neg hn, ← Option.isSome_iff_exists, List.lookup_isSome_iff]
    obtain ⟨file, hf, rfl⟩ := List.mem_map.1 hmem
    exact ⟨file, hf, beq_self_eq_true _⟩

def importOf (specifier : String) : SyntaxNode := .importDeclaration (some (js specifier)) []

def sourceOf (text : String) : Bytes := utf8Bytes (js text)

/-- Two rules that import each other, and a package. -/
def cyclicRules : ClosureHost where
  cwd := js "/repo"
  fileSystem := fileSystemOf
    [(js "/repo/rules/a.js", sourceOf "import './b.js';"),
      (js "/repo/rules/b.js", sourceOf "import 'eslint/rules'; import './a.js';")] []
  ts := compilerOf
    [(sourceOf "import './b.js';", [importOf "./b.js"]),
      (sourceOf "import 'eslint/rules'; import './a.js';",
        [importOf "eslint/rules", importOf "./a.js"])]

theorem collectLocalRuleClosure_exact_cyclic :
    ExactClosure cyclicRules (js "/repo/rules/a.js")
      { sortedFiles :=
          [⟨js "/repo/rules/a.js", sourceOf "import './b.js';"⟩,
            ⟨js "/repo/rules/b.js", sourceOf "import 'eslint/rules'; import './a.js';"⟩]
        bareSpecifierRoots := [js "eslint"] } := by
  have hfinite : FiniteFileSystem cyclicRules.fileSystem _ := fileSystemOf_finite _ []
  obtain ⟨run, hrun, hexact, -⟩ := collectLocalRuleClosure_exact hfinite (js "/repo/rules/a.js")
  refine hexact _ (Option.some.inj ?_)
  rw [← hrun 3 (by decide)]
  rfl

/-- A rule that imports a directory whose name has a dot, with an index.js. -/
def dottedRules : ClosureHost where
  cwd := js "/repo"
  fileSystem := fileSystemOf
    [(js "/repo/rules/a.js", sourceOf "import './lib.v2';"),
      (js "/repo/rules/lib.v2/index.js", sourceOf "export const limit = 80;")]
    [js "/repo/rules/lib.v2"]
  ts := compilerOf [(sourceOf "import './lib.v2';", [importOf "./lib.v2"])]

theorem dottedRules_parses {path : JsString} {statements : List SyntaxNode}
    (h : ParsesTo dottedRules path statements) :
    path = js "/repo/rules/a.js" ∧ statements = [importOf "./lib.v2"] ∨ statements = [] := by
  obtain ⟨-, source, scriptKind, hread, -, hparse⟩ := h
  have hstatements : ([(sourceOf "import './lib.v2';", [importOf "./lib.v2"])].lookup source).getD [] =
      statements := Except.ok.inj hparse
  by_cases hpath : path = js "/repo/rules/a.js"
  · subst hpath
    have hsource : dottedRules.fileSystem.readFile (js "/repo/rules/a.js") =
        some (sourceOf "import './lib.v2';") := by decide +kernel
    rw [hsource, Option.some.injEq] at hread
    rw [← hread, List.lookup_cons_self, Option.getD_some] at hstatements
    exact .inl ⟨rfl, hstatements.symm⟩
  · have hother : source = sourceOf "export const limit = 80;" := by
      change (if path ∈ [js "/repo/rules/lib.v2"] then none else
        [(js "/repo/rules/a.js", sourceOf "import './lib.v2';"),
          (js "/repo/rules/lib.v2/index.js", sourceOf "export const limit = 80;")].lookup path) =
        some source at hread
      split at hread
      · cases hread
      · simp only [List.lookup_cons, List.lookup_nil, beq_eq_false_iff_ne.2 hpath] at hread
        split at hread
        · exact (Option.some.inj hread).symm
        · cases hread
    have hunknown : [(sourceOf "import './lib.v2';", [importOf "./lib.v2"])].lookup
        (sourceOf "export const limit = 80;") = none := by rfl
    rw [hother, hunknown] at hstatements
    exact .inr hstatements.symm

theorem dottedRules_specifier {path specifier : JsString} (h : NamesSpecifier dottedRules path specifier) :
    path = js "/repo/rules/a.js" ∧ specifier = js "./lib.v2" := by
  obtain ⟨statements, hp, hmem⟩ := h
  rcases dottedRules_parses hp with ⟨rfl, rfl⟩ | rfl
  · exact ⟨rfl, List.mem_singleton.1 hmem⟩
  · exact absurd hmem List.not_mem_nil

theorem dottedRules_resolves :
    resolveLocalRuleImport (js "/repo") (js "/repo/rules/a.js") (js "./lib.v2") dottedRules.fileSystem =
      .ok (js "/repo/rules/lib.v2") := by
  rfl

theorem dottedRules_reachable {path : JsString}
    (h : Reachable dottedRules (js "/repo/rules/a.js") path) :
    path = js "/repo/rules/a.js" ∨ path = js "/repo/rules/lib.v2" := by
  induction h with
  | refl => exact .inl rfl
  | tail _ hi _ =>
    obtain ⟨specifier, hs, -, hr⟩ := hi
    obtain ⟨rfl, rfl⟩ := dottedRules_specifier hs
    exact .inr (Except.ok.inj (hr.symm.trans dottedRules_resolves))

/-- The directory is read under its own path, and no path that the rule reaches is at fault. -/
theorem collectLocalRuleClosure_exact_fails :
    FiniteFileSystem dottedRules.fileSystem
      [js "/repo/rules/lib.v2", js "/repo/rules/a.js", js "/repo/rules/lib.v2/index.js"] ∧
    (∀ depth, 3 < depth → collectLocalRuleClosure dottedRules depth (js "/repo/rules/a.js") =
      some (.error (.unreadable (js "/repo/rules/lib.v2")))) ∧
    ¬ ∃ path, Reachable dottedRules (js "/repo/rules/a.js") path ∧ Faulty dottedRules path := by
  have hfinite : FiniteFileSystem dottedRules.fileSystem
      [js "/repo/rules/lib.v2", js "/repo/rules/a.js", js "/repo/rules/lib.v2/index.js"] :=
    fileSystemOf_finite _ _
  refine ⟨hfinite, fun depth hd => ?_, ?_⟩
  · obtain ⟨run, hrun, -⟩ := collectLocalRuleClosure_cases hfinite.finite (js "/repo/rules/a.js")
    rw [hrun depth hd, ← hrun 4 (by decide)]
    rfl
  · rintro ⟨path, hr, hmissing | ⟨-, source, scriptKind, e, -, -, hparse⟩ | ⟨statements, hp, hd⟩ |
      ⟨specifier, e, hs, -, he⟩ | ⟨hdir, hindex⟩⟩
    · rcases dottedRules_reachable hr with rfl | rfl
      · exact absurd hmissing (by decide +kernel)
      · exact absurd hmissing (by decide +kernel)
    · cases hparse
    · rcases dottedRules_parses hp with ⟨-, rfl⟩ | rfl
      · cases hd
      · cases hd
    · obtain ⟨rfl, rfl⟩ := dottedRules_specifier hs
      cases he.symm.trans dottedRules_resolves
    · rcases dottedRules_reachable hr with rfl | rfl
      · exact absurd hdir (by decide +kernel)
      · exact absurd hindex (by decide +kernel)

end Runs

end Musi.LintRatchet
