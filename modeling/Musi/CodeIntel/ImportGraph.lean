import Musi.CodeIntel.GraphQueriesExact

namespace Musi.CodeIntel
open Musi.Js Musi.System Musi.DriftAi
set_option autoImplicit true

/-! ## The import graph of source files -/

inductive ModuleRefKind where
  | importFrom
  | exportFrom
  | dynamicImport
  deriving DecidableEq

structure ModuleRef where
  specifier : JsString
  kind : ModuleRefKind
  typeOnly : Bool

/-- A parsed source file: its module references and, in a test, the specifiers it mocks. -/
structure SourceFile where
  path : JsString
  moduleRefs : List ModuleRef
  viMockSpecifiers : List JsString

def viaByKind : ModuleRefKind → Via
  | .importFrom => .direct
  | .exportFrom => .reExport
  | .dynamicImport => .dynamic

def Via.text : Via → JsString
  | .direct => js "direct"
  | .reExport => js "re-export"
  | .dynamic => js "dynamic"

def edgeKey (edge : ImportEdge) : JsString :=
  edge.source ++ [0] ++ edge.target ++ [0] ++ edge.via.text

def addUniqueEdge (unique : JsMap ImportEdge) (edge : ImportEdge) : JsMap ImportEdge :=
  match unique.get (edgeKey edge) with
  | none => unique.set (edgeKey edge) edge
  | some previous =>
    if edge.runtime && !previous.runtime then unique.set (edgeKey edge) edge else unique

def uniqueEdges (edges : List ImportEdge) : List ImportEdge :=
  (edges.foldl addUniqueEdge JsMap.empty).entries.map Prod.snd

/-- The edge of a reference that resolves to another file. -/
def resolvedEdge (resolveModule : JsString → JsString → Option JsString) (file : SourceFile)
    (ref : ModuleRef) : Option ImportEdge :=
  match resolveModule ref.specifier file.path with
  | none => none
  | some target =>
    if target = [] ∨ target = file.path then none
    else some ⟨file.path, target, !ref.typeOnly, viaByKind ref.kind⟩

def mockedSpecifiers (file : SourceFile) : List JsString :=
  if isTestFile file.path then file.viMockSpecifiers else []

def collectImportEdges (resolveModule : JsString → JsString → Option JsString) (file : SourceFile) :
    List ImportEdge :=
  uniqueEdges (file.moduleRefs.filterMap fun ref =>
    if ref.kind = .importFrom ∧ ref.specifier ∈ mockedSpecifiers file then none
    else resolvedEdge resolveModule file ref)

def compareEdges [DriftAi.Locale] (left right : ImportEdge) : Int :=
  if DriftAi.Locale.localeCompare left.source right.source ≠ 0 then
    DriftAi.Locale.localeCompare left.source right.source
  else DriftAi.Locale.localeCompare left.via.text right.via.text

def pushEdge (incoming : JsMap (List ImportEdge)) (edge : ImportEdge) : JsMap (List ImportEdge) :=
  incoming.set edge.target ((incoming.get edge.target).getD [] ++ [edge])

def buildImportGraph [DriftAi.Locale] (resolveModule : JsString → JsString → Option JsString)
    (sourceFiles : List SourceFile) : ImportGraph :=
  ⟨JsMap.ofList (((sourceFiles.flatMap (collectImportEdges resolveModule)).foldl pushEdge
    JsMap.empty).entries.map fun entry => (entry.1, sortBy compareEdges entry.2))⟩

/-! ## Edges of one kind -/

theorem Via.text_end (via via' : Via)
    (h : via.text.reverse.take 2 = via'.text.reverse.take 2) : via = via' := by
  revert h
  cases via <;> cases via' <;> decide

theorem edgeKey_injective {edge edge' : ImportEdge} (hsource : edge.source = edge'.source)
    (h : edgeKey edge = edgeKey edge') : edge.target = edge'.target ∧ edge.via = edge'.via := by
  have hlength (via : Via) : 2 ≤ via.text.reverse.length := by cases via <;> decide
  have hvia : edge.via = edge'.via := by
    have hend := congrArg (fun key => key.reverse.take 2) h
    simp only [edgeKey, List.reverse_append, List.append_assoc] at hend
    rw [List.take_append_of_le_length (hlength _), List.take_append_of_le_length (hlength _)] at hend
    exact edge.via.text_end edge'.via hend
  rw [edgeKey, edgeKey, hsource, hvia] at h
  exact ⟨by simpa using h, hvia⟩

/-- What the unique edges say of the edges that were added. -/
structure UniqueOf (edges : List ImportEdge) (unique : JsMap ImportEdge) : Prop where
  sound : ∀ key edge, unique.get key = some edge → edge ∈ edges ∧ edgeKey edge = key
  complete : ∀ edge ∈ edges, ∃ kept, unique.get (edgeKey edge) = some kept ∧
    (edge.runtime → kept.runtime)

/-- An edge is kept under its key in place of one that is less of a runtime edge. -/
theorem get_addUniqueEdge (unique : JsMap ImportEdge) (edge : ImportEdge) : ∃ kept,
    (∀ key, (addUniqueEdge unique edge).get key =
      if key = edgeKey edge then some kept else unique.get key) ∧
    (kept = edge ∨ unique.get (edgeKey edge) = some kept) ∧ (edge.runtime → kept.runtime) ∧
    ∀ previous, unique.get (edgeKey edge) = some previous → previous.runtime → kept.runtime := by
  rw [addUniqueEdge]
  cases hprevious : unique.get (edgeKey edge) with
  | none => exact ⟨edge, fun key => JsMap.get_set .., .inl rfl, id, fun _ h => by cases h⟩
  | some previous =>
    by_cases hruntime : (edge.runtime && !previous.runtime) = true
    · dsimp only
      rw [if_pos hruntime]
      exact ⟨edge, fun key => JsMap.get_set .., .inl rfl, id, fun _ _ _ => by simp_all⟩
    · dsimp only
      rw [if_neg hruntime]
      refine ⟨previous, fun key => ?_, .inr rfl, by simp_all, fun p hp hr => ?_⟩
      · split
        · next hkey => rw [hkey, hprevious]
        · rfl
      · rwa [Option.some.inj hp]

theorem UniqueOf.add {edges : List ImportEdge} {unique : JsMap ImportEdge}
    (h : UniqueOf edges unique) (edge : ImportEdge) :
    UniqueOf (edges ++ [edge]) (addUniqueEdge unique edge) := by
  obtain ⟨kept, hget, hkept, hruntime, hprevious⟩ := get_addUniqueEdge unique edge
  constructor
  · intro key found hfound
    rw [hget] at hfound
    split at hfound
    · next hkey =>
      cases hfound
      rcases hkept with rfl | hkept
      · exact ⟨List.mem_append_right _ (List.mem_singleton_self _), hkey.symm⟩
      · obtain ⟨hmem, hkeys⟩ := h.sound _ _ hkept
        exact ⟨List.mem_append_left _ hmem, hkeys.trans hkey.symm⟩
    · obtain ⟨hmem, hkeys⟩ := h.sound _ _ hfound
      exact ⟨List.mem_append_left _ hmem, hkeys⟩
  · intro added hadded
    rw [hget]
    rcases List.mem_append.1 hadded with hadded | hadded
    · obtain ⟨before, hbefore, hr⟩ := h.complete added hadded
      split
      · next hkey => exact ⟨kept, rfl, fun ha => hprevious before (hkey ▸ hbefore) (hr ha)⟩
      · exact ⟨before, hbefore, hr⟩
    · rw [List.mem_singleton.1 hadded, if_pos rfl]
      exact ⟨kept, rfl, hruntime⟩

theorem uniqueOf_foldl (edges added : List ImportEdge) {unique : JsMap ImportEdge}
    (h : UniqueOf edges unique) : UniqueOf (edges ++ added) (added.foldl addUniqueEdge unique) := by
  induction added generalizing edges unique with
  | nil => rwa [List.append_nil]
  | cons edge added ih =>
    rw [List.append_cons]
    exact ih _ (h.add edge)

theorem uniqueOf_uniqueEdges (edges : List ImportEdge) :
    UniqueOf edges (edges.foldl addUniqueEdge JsMap.empty) :=
  uniqueOf_foldl [] edges ⟨fun _ _ h => (by cases h), fun _ h => (by cases h)⟩

/-- No target of the edges of a file is lost, nor that it is imported at run time. -/
theorem uniqueEdges_targets {edges : List ImportEdge} {path : JsString}
    (hsource : ∀ edge ∈ edges, edge.source = path) (runtimeOnly : Bool) (target : JsString) :
    (∃ edge ∈ uniqueEdges edges, edge.target = target ∧ edge.source = path ∧
      (runtimeOnly → edge.runtime)) ↔
    ∃ edge ∈ edges, edge.target = target ∧ (runtimeOnly → edge.runtime) := by
  have hunique := uniqueOf_uniqueEdges edges
  constructor
  · rintro ⟨edge, hedge, rfl, -, hruntime⟩
    obtain ⟨⟨key, found⟩, hentry, rfl⟩ := List.mem_map.1 hedge
    exact ⟨found, (hunique.sound _ _ (JsMap.mem_entries.1 hentry)).1, rfl, hruntime⟩
  · rintro ⟨edge, hedge, rfl, hruntime⟩
    obtain ⟨kept, hkept, hr⟩ := hunique.complete edge hedge
    obtain ⟨hmem, hkey⟩ := hunique.sound _ _ hkept
    have hsame := edgeKey_injective ((hsource _ hmem).trans (hsource _ hedge).symm) hkey
    exact ⟨kept, List.mem_map.2 ⟨_, JsMap.mem_entries.2 hkept, rfl⟩, hsame.1, hsource _ hmem,
      fun h => hr (hruntime h)⟩

/-! ## The edges into a file -/

theorem get_pushEdges (edges : List ImportEdge) (incoming : JsMap (List ImportEdge))
    (file : JsString) : ((edges.foldl pushEdge incoming).get file).getD [] =
      (incoming.get file).getD [] ++ edges.filter fun edge => edge.target = file := by
  induction edges generalizing incoming with
  | nil => simp
  | cons edge edges ih =>
    rw [List.foldl_cons, ih, pushEdge, JsMap.get_set]
    by_cases hfile : edge.target = file
    · subst hfile
      simp
    · rw [if_neg (Ne.symm hfile), List.filter_cons_of_neg (by simpa using hfile)]

theorem resolvedEdge_eq_some {resolveModule : JsString → JsString → Option JsString}
    {file : SourceFile} {ref : ModuleRef} {edge : ImportEdge} :
    resolvedEdge resolveModule file ref = some edge ↔
      resolveModule ref.specifier file.path = some edge.target ∧ edge.target ≠ [] ∧
        edge.target ≠ file.path ∧ edge = ⟨file.path, edge.target, !ref.typeOnly, viaByKind ref.kind⟩ := by
  rw [resolvedEdge]
  cases hresolve : resolveModule ref.specifier file.path with
  | none => simp
  | some target =>
    dsimp only
    constructor
    · intro h
      split at h
      · cases h
      · next hkeep =>
        cases h
        exact ⟨rfl, fun h => hkeep (.inl h), fun h => hkeep (.inr h), rfl⟩
    · rintro ⟨htarget, hne, hself, heq⟩
      rw [Option.some.inj htarget, if_neg (not_or.2 ⟨hne, hself⟩), ← heq]

section
variable [DriftAi.Locale]

theorem getD_ofList_map_sortBy (incoming : JsMap (List ImportEdge)) (file : JsString) :
    ((JsMap.ofList (incoming.entries.map fun entry => (entry.1, sortBy compareEdges entry.2))).get
      file).getD [] = sortBy compareEdges ((incoming.get file).getD []) := by
  rw [JsMap.get_ofList_map (JsMap.nodup_keys incoming) (fun _ edges => sortBy compareEdges edges)]
  rw [JsMap.get]
  cases List.lookup file incoming.entries with
  | none => rfl
  | some edges => rfl

theorem edgesInto_buildImportGraph (resolveModule : JsString → JsString → Option JsString)
    (sourceFiles : List SourceFile) (target : JsString) :
    (buildImportGraph resolveModule sourceFiles).edgesInto target =
      sortBy compareEdges ((sourceFiles.flatMap (collectImportEdges resolveModule)).filter
        fun edge => edge.target = target) := by
  have hpushed := get_pushEdges (sourceFiles.flatMap (collectImportEdges resolveModule))
    JsMap.empty target
  rw [JsMap.get_empty, Option.getD_none, List.nil_append] at hpushed
  rw [ImportGraph.edgesInto, ← hpushed]
  exact getD_ofList_map_sortBy _ target

theorem mem_edgesInto (resolveModule : JsString → JsString → Option JsString)
    (sourceFiles : List SourceFile) (target : JsString) (edge : ImportEdge) :
    edge ∈ (buildImportGraph resolveModule sourceFiles).edgesInto target ↔
      ∃ file ∈ sourceFiles, edge ∈ collectImportEdges resolveModule file ∧ edge.target = target := by
  rw [edgesInto_buildImportGraph, mem_sortBy, List.mem_filter, List.mem_flatMap,
    decide_eq_true_eq]
  constructor
  · rintro ⟨⟨file, hfile, hedge⟩, htarget⟩
    exact ⟨file, hfile, hedge, htarget⟩
  · rintro ⟨file, hfile, hedge, htarget⟩
    exact ⟨⟨file, hfile, hedge⟩, htarget⟩

/-- One of the references of a file that are not mocked resolves to the other file. -/
def Refers (resolveModule : JsString → JsString → Option JsString) (sourceFiles : List SourceFile)
    (runtimeOnly : Bool) (target importer : JsString) : Prop :=
  ∃ file ∈ sourceFiles, file.path = importer ∧ ∃ ref ∈ file.moduleRefs,
    ¬ (ref.kind = .importFrom ∧ ref.specifier ∈ mockedSpecifiers file) ∧
    resolveModule ref.specifier importer = some target ∧ target ≠ [] ∧ target ≠ importer ∧
    (runtimeOnly → ref.typeOnly = false)

theorem importedBy_buildImportGraph (resolveModule : JsString → JsString → Option JsString)
    (sourceFiles : List SourceFile) (runtimeOnly : Bool) (target importer : JsString) :
    ImportedBy (buildImportGraph resolveModule sourceFiles) runtimeOnly target importer ↔
      Refers resolveModule sourceFiles runtimeOnly target importer := by
  rw [ImportedBy]
  have hsource (file : SourceFile) : ∀ edge ∈ file.moduleRefs.filterMap (fun ref =>
      if ref.kind = .importFrom ∧ ref.specifier ∈ mockedSpecifiers file then none
      else resolvedEdge resolveModule file ref), edge.source = file.path := by
    intro edge hedge
    obtain ⟨ref, -, hedge⟩ := List.mem_filterMap.1 hedge
    split at hedge
    · cases hedge
    · obtain ⟨-, -, -, heq⟩ := resolvedEdge_eq_some.1 hedge
      rw [heq]
  constructor
  · rintro ⟨edge, hedge, rfl, hruntime⟩
    obtain ⟨file, hfile, hcollected, rfl⟩ := (mem_edgesInto resolveModule _ _ _).1 hedge
    have hpath : edge.source = file.path := by
      obtain ⟨⟨key, found⟩, hentry, rfl⟩ := List.mem_map.1 hcollected
      exact hsource file _ ((uniqueOf_uniqueEdges _).sound _ _ (JsMap.mem_entries.1 hentry)).1
    obtain ⟨found, hfound, htarget, hr⟩ := (uniqueEdges_targets (hsource file) runtimeOnly _).1
      ⟨edge, hcollected, rfl, hpath, hruntime⟩
    obtain ⟨ref, href, hresolved⟩ := List.mem_filterMap.1 hfound
    split at hresolved
    · cases hresolved
    · next hmock =>
      obtain ⟨hresolve, hne, hself, heq⟩ := resolvedEdge_eq_some.1 hresolved
      rw [htarget] at hresolve hne hself
      rw [hpath]
      refine ⟨file, hfile, rfl, ref, href, hmock, hresolve, hne, hself, fun hro => ?_⟩
      have hrun := hr hro
      rw [heq] at hrun
      simpa using hrun
  · rintro ⟨file, hfile, rfl, ref, href, hmock, hresolve, hne, hself, hruntime⟩
    have hresolved : resolvedEdge resolveModule file ref =
        some ⟨file.path, target, !ref.typeOnly, viaByKind ref.kind⟩ :=
      resolvedEdge_eq_some.2 ⟨hresolve, hne, hself, rfl⟩
    obtain ⟨edge, hedge, htarget, hpath, hr⟩ := (uniqueEdges_targets (hsource file) runtimeOnly
      target).2 ⟨_, List.mem_filterMap.2 ⟨ref, href, (if_neg hmock).trans hresolved⟩, rfl,
        fun hro => by rw [hruntime hro]; rfl⟩
    exact ⟨edge, (mem_edgesInto resolveModule _ _ _).2 ⟨file, hfile, hedge, htarget⟩, hpath, hr⟩

/-! ## Queries over the source files -/

structure QueryDependentsOptions where
  excludeTests : Bool
  project : Option ProjectFilter

def filterDependents (results : List BfsVisit) (options : QueryDependentsOptions) : List BfsVisit :=
  results.filter fun result => !(options.excludeTests && isTestFile result.file) &&
    options.project.all (fileMatchesProject result.file)

def queryDependents (fuel : Nat) (host : QueryHost) (graph : ImportGraph) (file : JsString)
    (depthLimit : DepthLimit) (options : QueryDependentsOptions) :
    Option (Except JsString (List BfsVisit)) :=
  match host.existingRelativeFile file with
  | .error e => some (.error e)
  | .ok target => (reverseBfs fuel graph target depthLimit false).map fun visits =>
      .ok (filterDependents visits options)

omit [DriftAi.Locale] in
theorem mem_filterDependents {results : List BfsVisit} {options : QueryDependentsOptions} {v : BfsVisit} :
    v ∈ filterDependents results options ↔
      v ∈ results ∧ ¬ (options.excludeTests ∧ isTestFile v.file) ∧
        ∀ project, options.project = some project → fileMatchesProject v.file project := by
  rw [filterDependents, List.mem_filter, Bool.and_eq_true, Bool.not_eq_true', ← Bool.not_eq_true,
    Bool.and_eq_true, Option.all_eq_true]

/-- A query for dependents gives the files that refer to the target by a chain of references, each
once, at the length of a shortest chain and nearest first. A query for tests gives the tests beside
the target and those that refer to it at run time, and misses none. -/
theorem queries_refer (resolveModule : JsString → JsString → Option JsString)
    (sourceFiles : List SourceFile) (host : QueryHost) :
    (∀ depthLimit options, ∃ results : JsString → List BfsVisit,
      (∀ file, ∃ enough, ∀ fuel, enough ≤ fuel →
        queryDependents fuel host (buildImportGraph resolveModule sourceFiles) file depthLimit
          options = some ((host.existingRelativeFile file).map results)) ∧
      ∀ target, ((results target).map BfsVisit.file).Nodup ∧
        (results target).Pairwise (fun v w => v.depth ≤ w.depth) ∧
        ∀ importer depth, (∃ v ∈ results target, v.file = importer ∧ v.depth = depth) ↔
          importer ≠ target ∧
            Distance (Refers resolveModule sourceFiles false) target importer depth ∧
            depthLimit.allows depth ∧ ¬ (options.excludeTests ∧ isTestFile importer) ∧
            ∀ project, options.project = some project → fileMatchesProject importer project) ∧
    ∀ options, ∃ results : JsString → List TestResult,
      (∀ file, ∃ enough, ∀ fuel, enough ≤ fuel →
        queryTests fuel host (buildImportGraph resolveModule sourceFiles) file options =
          some ((host.existingRelativeFile file).map results)) ∧
      ∀ target, ((results target).map TestResult.file).Nodup ∧
        ∀ test, (∃ result ∈ results target, result.file = test) ↔
          (∀ project, options.project = some project → fileMatchesProject test project) ∧
            (test ∈ colocatedTestCandidates target ∧ host.fileExistsRelative test ∨
              isTestFile test ∧ test ≠ target ∧ ∃ depth,
                Distance (Refers resolveModule sourceFiles true) target test depth ∧
                  (options.depth.getD .infinity).allows depth) := by
  have hrefers (runtimeOnly : Bool) : ImportedBy (buildImportGraph resolveModule sourceFiles)
      runtimeOnly = Refers resolveModule sourceFiles runtimeOnly :=
    funext₂ fun _ _ => propext (importedBy_buildImportGraph ..)
  refine ⟨fun depthLimit options => ?_, fun options => ?_⟩
  · choose visits hdependents hfound using fun target => reverseBfs_dependents
      (buildImportGraph resolveModule sourceFiles) target depthLimit false
    refine ⟨fun target => filterDependents (visits target) options, fun file => ?_, fun target =>
      ⟨(hdependents target).nodup.sublist (List.filter_sublist.map _),
        (hdependents target).sorted.filter _, fun importer depth => ?_⟩⟩
    · cases hfile : host.existingRelativeFile file with
      | error e => exact ⟨0, fun fuel _ => by rw [queryDependents, hfile]; rfl⟩
      | ok target =>
        refine (hfound target).imp fun enough h fuel hfuel => ?_
        simp only [queryDependents, hfile, h fuel hfuel]
        rfl
    · have hexact := (hdependents target).exact_iff importer depth
      rw [hrefers] at hexact
      simp only [mem_filterDependents]
      constructor
      · rintro ⟨v, ⟨hv, haccepted⟩, rfl, rfl⟩
        obtain ⟨hne, hdistance, hallowed⟩ := hexact.1 ⟨v, hv, rfl, rfl⟩
        exact ⟨hne, hdistance, hallowed, haccepted⟩
      · rintro ⟨hne, hdistance, hallowed, haccepted⟩
        obtain ⟨v, hv, rfl, rfl⟩ := hexact.2 ⟨hne, hdistance, hallowed⟩
        exact ⟨v, ⟨hv, haccepted⟩, rfl, rfl⟩
  · choose visits hdependents hfound using fun target => reverseBfs_dependents
      (buildImportGraph resolveModule sourceFiles) target (options.depth.getD .infinity) true
    have hselection (target : JsString) :=
      testSelection host target (hdependents target).nodup options.project
    refine ⟨_, fun file => ?_, fun target => ⟨(hselection target).nodup, fun test => ?_⟩⟩
    · cases hfile : host.existingRelativeFile file with
      | error e => exact ⟨0, fun fuel _ => by rw [queryTests, hfile]; rfl⟩
      | ok target =>
        refine (hfound target).imp fun enough h fuel hfuel => ?_
        simp only [queryTests, hfile, h fuel hfuel]
        rfl
    · have hexact (depth : Nat) := (hdependents target).exact_iff test depth
      rw [hrefers] at hexact
      simp only [(hselection target).mem_iff]
      constructor
      · rintro ⟨result, ⟨hproject, ⟨candidate, hcandidate, hexists, rfl⟩ |
          ⟨v, hv, htest, -, rfl⟩⟩, rfl⟩
        · exact ⟨hproject, .inl ⟨hcandidate, hexists⟩⟩
        · obtain ⟨hne, hdistance, hallowed⟩ := (hexact v.depth).1 ⟨v, hv, rfl, rfl⟩
          exact ⟨hproject, .inr ⟨htest, hne, v.depth, hdistance, hallowed⟩⟩
      · rintro ⟨hproject, h⟩
        by_cases hbeside : test ∈ colocatedTestCandidates target ∧ host.fileExistsRelative test
        · exact ⟨_, ⟨hproject, .inl ⟨test, hbeside.1, hbeside.2, rfl⟩⟩, rfl⟩
        · obtain ⟨htest, hne, depth, hdistance, hallowed⟩ := h.resolve_left hbeside
          obtain ⟨v, hv, rfl, -⟩ := (hexact depth).2 ⟨hne, hdistance, hallowed⟩
          exact ⟨_, ⟨hproject, .inr ⟨v, hv, htest, hbeside, rfl⟩⟩, rfl⟩

end

end Musi.CodeIntel
