import Musi.Js.RelativePath
import Musi.System.Worklist
import Musi.ImportClosure.ClosureWalk

namespace Musi.ImportClosure
open Musi.Js Musi.System
set_option autoImplicit true

/-! ## Trees of files -/

/-- Real paths are resolved, and those of files are among finitely many. -/
structure FiniteTree (host : ClosureHost) (files : List JsString) : Prop where
  resolved : ∀ path real, host.realpathSync path = .ok real → IsResolved real
  files : ∀ path real, host.isFile path = true → host.realpathSync path = .ok real → real ∈ files

section
variable (host : ClosureHost) (context : ClosureContext)

/-- The local files that a file imports, one for every specifier that stays in the tree. -/
def imports (importer : JsString) : List JsString :=
  match host.analysisOf importer context.options with
  | .error _ => []
  | .ok specifiers => specifiers.filterMap fun specifier =>
    match resolveLocalImport host context.resolution importer specifier with
    | .error _ => none
    | .ok imported => imported

/-- The imports, followed from the files that are traversed. -/
def importGraph : EnteredGraph JsString where
  next := imports host context
  enter path := runtimeFileShouldBeTraversed (extname path) (path ∈ context.terminalFiles) false

/-- Nothing that the walk resolves throws. -/
structure NeverThrows (files : List JsString) : Prop where
  entry : context.entry ∈ files
  analysis : ∀ importer ∈ files, (importGraph host context).enter importer = true →
    ∃ specifiers, host.analysisOf importer context.options = .ok specifiers ∧
      ∀ specifier ∈ specifiers, ∃ imported,
        resolveLocalImport host context.resolution importer specifier = .ok imported

end

section
variable {host : ClosureHost} {context : ClosureContext} {files : List JsString}

theorem validateResolvedLocalImport_ok {root specifier importer candidate resolved : JsString}
    (h : validateResolvedLocalImport host root specifier importer candidate = .ok resolved) :
    host.realpathSync candidate = .ok resolved := by
  rw [validateResolvedLocalImport, bind_ok] at h
  obtain ⟨real, hreal, h⟩ := h
  split at h
  · cases h
  · split at h
    · cases h
    · cases h
      exact hreal

/-- What a specifier is resolved to is the real path of a file. -/
theorem resolveLocalImport_ok {resolution : ImportResolutionContext}
    {importer specifier imported : JsString}
    (h : resolveLocalImport host resolution importer specifier = .ok (some imported)) :
    ∃ path, host.isFile path = true ∧ host.realpathSync path = .ok imported := by
  have hvalid {root path : JsString} (hfile : host.isFile path = true)
      (hpath : (validateResolvedLocalImport host root specifier importer path).map some =
        .ok (some imported)) :
      ∃ path, host.isFile path = true ∧ host.realpathSync path = .ok imported := by
    cases hresolved : validateResolvedLocalImport host root specifier importer path with
    | error e =>
      rw [hresolved] at hpath
      cases hpath
    | ok resolved =>
      rw [hresolved] at hpath
      cases hpath
      exact ⟨path, hfile, validateResolvedLocalImport_ok hresolved⟩
  rw [resolveLocalImport] at h
  split at h
  · next path _ =>
    by_cases hfile : host.isFile path = true
    · rw [hfile] at h
      exact hvalid hfile h
    · rw [Bool.eq_false_iff.2 hfile] at h
      cases h
  · split at h
    · cases h
    · rw [bind_ok] at h
      obtain ⟨base, -, h⟩ := h
      cases base with
      | none =>
        dsimp only at h
        rw [resolveUnmappedRuntimeImport] at h
        split at h
        · cases h
        · split at h
          · cases h
          · cases h
          · cases h
          · next path _ =>
            split at h
            · cases h
            · by_cases hfile : host.isFile path = true
              · rw [hfile] at h
                exact hvalid hfile h
              · rw [Bool.eq_false_iff.2 hfile] at h
                cases h
      | some base =>
        dsimp only at h
        split at h
        · cases h
        · next path hpath => exact hvalid (List.find?_some hpath) h

theorem mem_imports {importer imported : JsString} (h : imported ∈ imports host context importer) :
    ∃ path, host.isFile path = true ∧ host.realpathSync path = .ok imported := by
  rw [imports] at h
  split at h
  · cases h
  · obtain ⟨specifier, -, h⟩ := List.mem_filterMap.1 h
    split at h
    · cases h
    · next resolved hresolved =>
      rw [h] at hresolved
      exact resolveLocalImport_ok hresolved

/-- The walk stays among the files of the tree. -/
theorem FiniteTree.closed (htree : FiniteTree host files) : ∀ importer ∈ files,
    (importGraph host context).enter importer = true →
    ∀ imported ∈ (importGraph host context).next importer, imported ∈ files := by
  intro importer _ _ imported himported
  obtain ⟨path, hfile, hreal⟩ := mem_imports himported
  exact htree.files path imported hfile hreal

theorem closureContext_entry {options : ClosureOptions}
    (h : closureContext host options = .ok context) :
    ∃ path, host.realpathSync path = .ok context.entry := by
  rw [closureContext, bind_ok] at h
  obtain ⟨root, -, h⟩ := h
  obtain ⟨entry, hentry, h⟩ := bind_ok.1 h
  obtain ⟨allowedFiles, -, h⟩ := bind_ok.1 h
  obtain ⟨terminalFiles, -, h⟩ := bind_ok.1 h
  obtain rfl := Except.ok.inj h
  exact ⟨_, hentry⟩

theorem FiniteTree.reached_resolved (htree : FiniteTree host files) {options : ClosureOptions}
    (hcontext : closureContext host options = .ok context) {path : JsString}
    (hreach : (importGraph host context).Reaches context.entry path) : IsResolved path := by
  induction hreach with
  | refl =>
    obtain ⟨path, hentry⟩ := closureContext_entry hcontext
    exact htree.resolved path _ hentry
  | tail _ hedge _ =>
    obtain ⟨path, -, hreal⟩ := mem_imports hedge.2
    exact htree.resolved path _ hreal

/-! ## The loop follows the worklist -/

/-- The state of the loop when the worklist is this far. -/
def walkState (host : ClosureHost) (context : ClosureContext) (progress : Progress JsString) :
    WalkState where
  pending := progress.pending
  visited := progress.visited
  traversed := progress.traversed
  violations := (progress.crossed.filter fun e => !isAllowed host context e.2).map fun e =>
    violationText host context e.1 e.2

/-- The imports of a file are pushed one after the other. -/
theorem foldlM_followImport {importer : JsString} {specifiers : List JsString}
    (h : ∀ specifier ∈ specifiers, ∃ imported,
      resolveLocalImport host context.resolution importer specifier = .ok imported)
    (state : WalkState) (targets : List JsString)
    (htargets : targets = specifiers.filterMap fun specifier =>
      match resolveLocalImport host context.resolution importer specifier with
      | .error _ => none
      | .ok imported => imported) :
    specifiers.foldlM (followImport host context importer) state = .ok { state with
      pending := targets.reverse ++ state.pending
      violations := state.violations ++ (targets.filter fun imported =>
        !isAllowed host context imported).map (violationText host context importer) } := by
  induction specifiers generalizing state targets with
  | nil =>
    rw [htargets]
    simp
    rfl
  | cons specifier specifiers ih =>
    obtain ⟨⟨imported, himported⟩, hspecifiers⟩ := List.forall_mem_cons.1 h
    rw [List.foldlM_cons, bind_ok]
    cases imported with
    | none =>
      refine ⟨state, ?_, ?_⟩
      · rw [followImport, himported]
        rfl
      · refine ih hspecifiers state targets ?_
        rw [htargets, List.filterMap_cons, himported]
    | some imported =>
      refine ⟨_, by rw [followImport, himported]; rfl, ?_⟩
      rw [ih hspecifiers _ _ rfl, htargets, List.filterMap_cons, himported]
      dsimp only
      rw [List.reverse_cons, List.append_assoc, List.singleton_append, List.filter_cons]
      cases isAllowed host context imported with
      | true => simp
      | false => simp

theorem walkStep_eq (h : NeverThrows host context files) {importer : JsString}
    (himporter : importer ∈ files) (rest visited traversed : List JsString)
    (crossed : List (JsString × JsString)) :
    walkStep host context importer
        { walkState host context ⟨importer :: rest, visited, traversed, crossed⟩ with
          pending := rest } =
      .ok (walkState host context
        (Progress.step (importGraph host context) ⟨importer :: rest, visited, traversed, crossed⟩)) := by
  rw [walkStep, Progress.step]
  dsimp only [walkState]
  have htraversed : runtimeFileShouldBeTraversed (extname importer)
      (importer ∈ context.terminalFiles) (importer ∈ traversed) = true ↔
        (importGraph host context).enter importer = true ∧ importer ∉ traversed := by
    simp only [runtimeFileShouldBeTraversed, importGraph, Bool.and_eq_true, Bool.not_eq_true',
      decide_eq_false_iff_not, Bool.not_false, and_true]
    tauto
  by_cases henter : (importGraph host context).enter importer = true ∧ importer ∉ traversed
  · obtain ⟨specifiers, hanalysis, hspecifiers⟩ := h.analysis importer himporter henter.1
    have htargets : (importGraph host context).next importer = specifiers.filterMap fun specifier =>
        match resolveLocalImport host context.resolution importer specifier with
        | .error _ => none
        | .ok imported => imported := by
      unfold importGraph imports
      simp only [hanalysis]
    have hskip := congrArg (!·) (htraversed.2 henter)
    rw [if_pos henter]
    refine (if_neg (Bool.eq_false_iff.1 hskip)).trans ?_
    rw [hanalysis]
    refine (foldlM_followImport hspecifiers _ _ htargets).trans ?_
    rw [List.filter_append, List.map_append, List.filter_map, List.map_map]
    -- The two ways to decide whether the importer was visited agree.
    congr 2
    dsimp only
    congr
  · have hskip := congrArg (!·) (Bool.eq_false_iff.2 (mt htraversed.1 henter))
    rw [if_neg henter]
    refine (if_pos hskip).trans ?_
    congr 2
    dsimp only
    congr

/-- As long as only files of the tree are pending, the loop is the worklist. -/
theorem walk_eq (htree : FiniteTree host files) (h : NeverThrows host context files) (fuel : Nat)
    {progress : Progress JsString} (hpending : ∀ path ∈ progress.pending, path ∈ files) :
    walk host context fuel (walkState host context progress) =
      (progress.run (importGraph host context) fuel).map fun ended =>
        .ok (walkState host context ended) := by
  induction fuel generalizing progress with
  | zero =>
    have hsame : (walkState host context progress).pending = progress.pending := rfl
    rw [walk, Progress.run, hsame]
    by_cases hnil : progress.pending = []
    · rw [if_pos hnil, if_pos hnil]
      rfl
    · rw [if_neg hnil, if_neg hnil]
      rfl
  | succ fuel ih =>
    obtain ⟨pending, visited, traversed, crossed⟩ := progress
    cases pending with
    | nil => rfl
    | cons importer rest =>
      have hstep := walkStep_eq h (hpending importer List.mem_cons_self) rest visited traversed
        crossed
      rw [walk, Progress.run, if_neg (List.cons_ne_nil _ _)]
      dsimp only [walkState] at hstep ⊢
      rw [hstep]
      exact ih (Progress.pending_step hpending htree.closed)

end

/-! ## What the walk returns -/

/-- The files a walk visits and the files it traverses, each once. -/
structure Listing (host : ClosureHost) (context : ClosureContext)
    (visited traversed : List JsString) : Prop where
  visited_nodup : visited.Nodup
  visited_iff : ∀ path, path ∈ visited ↔ (importGraph host context).Reaches context.entry path
  traversed_nodup : traversed.Nodup
  traversed_iff : ∀ path, path ∈ traversed ↔
    (importGraph host context).Reaches context.entry path ∧
      (importGraph host context).enter path = true

/-- The import edges of the traversed files, one for every occurrence. -/
def importEdges (host : ClosureHost) (context : ClosureContext) (traversed : List JsString) :
    List (JsString × JsString) :=
  traversed.flatMap fun importer => (imports host context importer).map fun imported =>
    (importer, imported)

def relativeFiles (host : ClosureHost) (context : ClosureContext) (visited : List JsString) :
    List JsString := visited.map fun path => relativePath host.cwd context.root path

def violationTexts (host : ClosureHost) (context : ClosureContext)
    (edges : List (JsString × JsString)) : List JsString :=
  edges.map fun e => violationText host context e.1 e.2

def walkResult (host : ClosureHost) (context : ClosureContext) (visited traversed : List JsString) :
    ClosureValidation where
  files := sortStrings (relativeFiles host context visited)
  violations := sortStrings (violationTexts host context
    ((importEdges host context traversed).filter fun e => !isAllowed host context e.2))

section
variable {host : ClosureHost} {context : ClosureContext} {files : List JsString}
  {options : ClosureOptions}

/-- The walk ends, and returns what it visited and what the files it traversed import. -/
theorem validateSeedImportClosure_ends (hcontext : closureContext host options = .ok context)
    (htree : FiniteTree host files) (h : NeverThrows host context files) :
    ∃ visited traversed enough, Listing host context visited traversed ∧ ∀ fuel ≥ enough,
      validateSeedImportClosure host options fuel =
        some (.ok (walkResult host context visited traversed)) := by
  have hstart : ∀ path ∈ (Progress.start context.entry).pending, path ∈ files := by
    intro path hpath
    rw [List.mem_singleton.1 hpath]
    exact h.entry
  obtain ⟨ended, hended⟩ : ∃ ended, ∀ fuel,
      (Progress.start context.entry).potential (importGraph host context) files ≤ fuel →
      (Progress.start context.entry).run (importGraph host context) fuel = some ended :=
    Progress.run_ends htree.closed hstart
  obtain ⟨hsound, hnil⟩ := (Progress.sound_start context.entry).run (hended _ (Nat.le_refl _))
  refine ⟨ended.visited, ended.traversed,
    (Progress.start context.entry).potential (importGraph host context) files, ⟨hsound.visited_nodup,
    fun path => hsound.mem_visited hnil, hsound.traversed_nodup,
    fun path => hsound.mem_traversed hnil⟩, fun fuel hfuel => ?_⟩
  · have hwalk : walk host context fuel ⟨[context.entry], [], [], []⟩ =
        some (.ok (walkState host context ended)) :=
      (walk_eq htree h fuel hstart).trans (by rw [hended fuel hfuel]; rfl)
    have hcrossed : ended.crossed = importEdges host context ended.traversed := hsound.crossed
    rw [validateSeedImportClosure, hcontext]
    dsimp only
    rw [hwalk, walkResult, ← hcrossed]
    rfl

theorem sortStrings_perm {l m : List JsString} (h : l.Perm m) : sortStrings l = sortStrings m :=
  sortBy_eq_of_perm compareCodeUnits_strict h

theorem Listing.visited_perm {visited visited' traversed traversed' : List JsString}
    {host' : ClosureHost} (h : Listing host context visited traversed)
    (h' : Listing host' context visited' traversed')
    (hreaches : ∀ path, (importGraph host context).Reaches context.entry path ↔
      (importGraph host' context).Reaches context.entry path) : visited.Perm visited' := by
  refine (List.perm_ext_iff_of_nodup h.visited_nodup h'.visited_nodup).2 fun path => ?_
  rw [h.visited_iff, h'.visited_iff, hreaches]

theorem Listing.traversed_perm {visited visited' traversed traversed' : List JsString}
    {host' : ClosureHost} (h : Listing host context visited traversed)
    (h' : Listing host' context visited' traversed')
    (hreaches : ∀ path, (importGraph host context).Reaches context.entry path ↔
      (importGraph host' context).Reaches context.entry path) : traversed.Perm traversed' := by
  refine (List.perm_ext_iff_of_nodup h.traversed_nodup h'.traversed_nodup).2 fun path => ?_
  rw [h.traversed_iff, h'.traversed_iff, hreaches]
  exact Iff.rfl

/-! ## Permuted imports -/

/-- A host whose files import the same, each in another order. -/
def permuteImports (host : ClosureHost)
    (analysisOf : JsString → RuntimeSourceOptions → Except JsString (List JsString)) :
    ClosureHost := { host with analysisOf }

/-- Whatever was imported still is. -/
def Permutes (host : ClosureHost)
    (analysisOf : JsString → RuntimeSourceOptions → Except JsString (List JsString)) : Prop :=
  ∀ path options, (∃ specifiers specifiers', host.analysisOf path options = .ok specifiers ∧
      analysisOf path options = .ok specifiers' ∧ specifiers'.Perm specifiers) ∨
    ∃ e e', host.analysisOf path options = .error e ∧ analysisOf path options = .error e'

variable {analysisOf : JsString → RuntimeSourceOptions → Except JsString (List JsString)}

theorem Permutes.imports_perm (h : Permutes host analysisOf) (importer : JsString) :
    (imports (permuteImports host analysisOf) context importer).Perm
      (imports host context importer) := by
  rcases h importer context.options with ⟨specifiers, specifiers', hspecifiers, hspecifiers', hperm⟩ |
      ⟨e, e', he, he'⟩
  · have hnew : imports (permuteImports host analysisOf) context importer =
        specifiers'.filterMap fun specifier =>
          match resolveLocalImport host context.resolution importer specifier with
          | .error _ => none
          | .ok imported => imported := by
      unfold imports permuteImports
      simp only [hspecifiers']
      rfl
    have hold : imports host context importer = specifiers.filterMap fun specifier =>
        match resolveLocalImport host context.resolution importer specifier with
        | .error _ => none
        | .ok imported => imported := by
      unfold imports
      simp only [hspecifiers]
    rw [hnew, hold]
    exact hperm.filterMap _
  · have hnew : imports (permuteImports host analysisOf) context importer = [] := by
      unfold imports permuteImports
      simp only [he']
    have hold : imports host context importer = [] := by
      unfold imports
      simp only [he]
    rw [hnew, hold]

theorem Permutes.reaches (h : Permutes host analysisOf) (path : JsString) :
    (importGraph host context).Reaches context.entry path ↔
      (importGraph (permuteImports host analysisOf) context).Reaches context.entry path := by
  have hedges : (fun a b => (importGraph host context).enter a = true ∧
      b ∈ (importGraph host context).next a) = fun a b =>
        (importGraph (permuteImports host analysisOf) context).enter a = true ∧
          b ∈ (importGraph (permuteImports host analysisOf) context).next a := by
    funext importer imported
    exact propext (and_congr Iff.rfl (h.imports_perm importer).mem_iff.symm)
  rw [EnteredGraph.Reaches, EnteredGraph.Reaches, hedges]

theorem Permutes.neverThrows (h : Permutes host analysisOf) (hthrows : NeverThrows host context files) :
    NeverThrows (permuteImports host analysisOf) context files where
  entry := hthrows.entry
  analysis := by
    intro importer himporter henter
    obtain ⟨specifiers, hspecifiers, hresolve⟩ := hthrows.analysis importer himporter henter
    rcases h importer context.options with ⟨_, specifiers', hspecifiers', hnew, hperm⟩ |
        ⟨e, _, he, -⟩
    · obtain rfl := Except.ok.inj (hspecifiers.symm.trans hspecifiers')
      exact ⟨specifiers', hnew, fun specifier hmem => hresolve specifier (hperm.subset hmem)⟩
    · rw [hspecifiers] at he
      cases he

/-- The order of the imports is not seen. -/
theorem Permutes.walkResult_eq (h : Permutes host analysisOf)
    {visited visited' traversed traversed' : List JsString}
    (hlisting : Listing host context visited traversed)
    (hlisting' : Listing (permuteImports host analysisOf) context visited' traversed') :
    walkResult (permuteImports host analysisOf) context visited' traversed' =
      walkResult host context visited traversed := by
  have hvisited := hlisting.visited_perm hlisting' h.reaches
  have htraversed := hlisting.traversed_perm hlisting' h.reaches
  have hedges : (importEdges (permuteImports host analysisOf) context traversed').Perm
      (importEdges host context traversed) :=
    (List.Perm.flatMap htraversed.symm fun importer _ => (h.imports_perm importer).map _)
  rw [walkResult, walkResult]
  refine congrArg₂ ClosureValidation.mk (sortStrings_perm (hvisited.symm.map _)) ?_
  exact sortStrings_perm ((hedges.filter _).map _)

end

end Musi.ImportClosure
