import Musi.ImportClosure.ClosureWalkExact

namespace Musi.ImportClosure
open Musi.Js Musi.System
set_option autoImplicit true

/-! ## Files under a root -/

section
variable (host : ClosureHost) (context : ClosureContext)

/-- The path begins with the segments of the root. -/
def isUnder (root path : JsString) : Bool :=
  (pathSegments host.cwd root).isPrefixOf (pathSegments host.cwd path)

/-- The path is under the root, and the segment after the root does not begin with two dots. -/
def IsPlainlyUnder (root path : JsString) : Prop :=
  ∃ rest, pathSegments host.cwd path = pathSegments host.cwd root ++ rest ∧
    ∀ segment ∈ rest.head?, startsWith segment (js "..") = false

/-- Neither an allowed file nor under an allowed root. -/
def isOutside (imported : JsString) : Bool :=
  imported ∉ context.allowedFiles &&
    context.allowedRoots.all fun allowedRoot => !isUnder host allowedRoot imported

variable {host context}

theorem isWithin_iff {parent child : JsString} :
    isWithin host parent child = true ↔ IsPlainlyUnder host parent child := by
  have habsolute : isAbsolute (relativePath host.cwd parent child) = false :=
    startsWith_relativePath_slash host.cwd parent child
  have hnil : relativePath host.cwd parent child = [] →
      startsWith (relativePath host.cwd parent child) (js "..") = false := by
    intro h
    rw [h]
    decide
  rw [isWithin, habsolute, IsPlainlyUnder, ← startsWith_relativePath]
  simp only [Bool.not_false, Bool.and_true, Bool.or_eq_true, decide_eq_true_eq, Bool.not_eq_true']
  exact or_iff_right_of_imp hnil

theorem isUnder_of_plainly {root path : JsString} (h : IsPlainlyUnder host root path) :
    isUnder host root path = true := by
  obtain ⟨rest, hrest, -⟩ := h
  rw [isUnder, List.isPrefixOf_iff_prefix, hrest]
  exact List.prefix_append _ _

/-- The walk allows nothing that is outside. -/
theorem isAllowed_of_outside {imported : JsString} (h : isOutside host context imported = true) :
    isAllowed host context imported = false := by
  obtain ⟨hfile, hroots⟩ := Bool.and_eq_true_iff.1 h
  have hfile := of_decide_eq_true hfile
  rw [isAllowed, Bool.or_eq_false_iff]
  refine ⟨decide_eq_false hfile, List.any_eq_false.2 fun root hroot hwithin => ?_⟩
  have hunder := List.all_eq_true.1 hroots root hroot
  rw [isUnder_of_plainly (isWithin_iff.1 hwithin)] at hunder
  cases hunder

end

/-! ## The walk and its specification -/

/-- The walk ends with this result, however much fuel is left. -/
def Returns (host : ClosureHost) (options : ClosureOptions) (result : ClosureValidation) : Prop :=
  ∃ enough, ∀ fuel ≥ enough, validateSeedImportClosure host options fuel = some (.ok result)

/-- The files are what the entry reaches, and the violations the edges that lead outside. -/
structure ExactResult (host : ClosureHost) (context : ClosureContext) (result : ClosureValidation) :
    Prop where
  once : result.files.Nodup
  listed : ∃ visited traversed, Listing host context visited traversed ∧
    result.files.Perm (relativeFiles host context visited) ∧
    result.violations.Perm (violationTexts host context
      ((importEdges host context traversed).filter fun e => isOutside host context e.2))

/-- The walk returns an exact result, and the same one for every order of the imports. -/
def ExactWalk (host : ClosureHost) (options : ClosureOptions) (context : ClosureContext) : Prop :=
  ∃ result, Returns host options result ∧ ExactResult host context result ∧
    ∀ analysisOf, Permutes host analysisOf → Returns (permuteImports host analysisOf) options result

/-- What a traversed file imports from under an allowed root is an allowed file, or it is under some
allowed root by a segment that does not begin with two dots. -/
def PlainlyNamed (host : ClosureHost) (context : ClosureContext) : Prop :=
  ∀ importer, (importGraph host context).Reaches context.entry importer →
    (importGraph host context).enter importer = true →
    ∀ imported ∈ imports host context importer,
      (∃ root ∈ context.allowedRoots, isUnder host root imported = true) →
      imported ∈ context.allowedFiles ∨
        ∃ root ∈ context.allowedRoots, IsPlainlyUnder host root imported

section
variable {host : ClosureHost} {context : ClosureContext} {files : List JsString}
  {options : ClosureOptions}

theorem plainlyNamed_iff {visited traversed : List JsString}
    (h : Listing host context visited traversed) : PlainlyNamed host context ↔
      ∀ e ∈ importEdges host context traversed,
        isAllowed host context e.2 = false → isOutside host context e.2 = true := by
  have hallowed {imported : JsString} : isAllowed host context imported = true ↔
      imported ∈ context.allowedFiles ∨
        ∃ root ∈ context.allowedRoots, IsPlainlyUnder host root imported := by
    rw [isAllowed, Bool.or_eq_true, decide_eq_true_eq, List.any_eq_true]
    simp only [isWithin_iff]
  have houtside {imported : JsString} : isOutside host context imported = false ↔
      imported ∈ context.allowedFiles ∨
        ∃ root ∈ context.allowedRoots, isUnder host root imported = true := by
    rw [isOutside, Bool.and_eq_false_iff, decide_eq_false_iff_not, not_not, List.all_eq_false]
    simp only [Bool.not_eq_true, Bool.not_eq_false']
  constructor
  · intro hplain e he hnot
    obtain ⟨importer, himporter, he⟩ := List.mem_flatMap.1 he
    obtain ⟨imported, himported, rfl⟩ := List.mem_map.1 he
    obtain ⟨hreach, henter⟩ := (h.traversed_iff importer).1 himporter
    by_contra hinside
    rw [Bool.not_eq_true, houtside] at hinside
    have : isAllowed host context imported = true := by
      rw [hallowed]
      rcases hinside with hfile | hunder
      · exact .inl hfile
      · exact hplain importer hreach henter imported himported hunder
    rw [this] at hnot
    cases hnot
  · intro hedges importer hreach henter imported himported hunder
    rw [← hallowed]
    by_contra hnot
    have he : (importer, imported) ∈ importEdges host context traversed :=
      List.mem_flatMap.2 ⟨importer, (h.traversed_iff importer).2 ⟨hreach, henter⟩,
        List.mem_map.2 ⟨imported, himported, rfl⟩⟩
    have hinside := hedges _ he (Bool.eq_false_iff.2 hnot)
    rw [houtside.2 (.inr hunder)] at hinside
    cases hinside

theorem files_once (htree : FiniteTree host files)
    (hcontext : closureContext host options = .ok context)
    {visited traversed : List JsString} (hlisting : Listing host context visited traversed) :
    (walkResult host context visited traversed).files.Nodup := by
  rw [walkResult, sortStrings, nodup_sortBy]
  refine List.Nodup.map_on (fun path hpath path' hpath' he => ?_) hlisting.visited_nodup
  exact relativePath_injective (htree.reached_resolved hcontext ((hlisting.visited_iff path).1 hpath))
    (htree.reached_resolved hcontext ((hlisting.visited_iff path').1 hpath')) he

theorem Returns.unique {result result' : ClosureValidation} (h : Returns host options result)
    (h' : Returns host options result') : result = result' := by
  obtain ⟨enough, h⟩ := h
  obtain ⟨enough', h'⟩ := h'
  have he := (h (max enough enough') (le_max_left _ _)).symm.trans
    (h' (max enough enough') (le_max_right _ _))
  exact Except.ok.inj (Option.some.inj he)

theorem FiniteTree.permuteImports (h : FiniteTree host files)
    (analysisOf : JsString → RuntimeSourceOptions → Except JsString (List JsString)) :
    FiniteTree (permuteImports host analysisOf) files := ⟨h.resolved, h.files⟩

/-- An exact walk reports only edges that lead outside. -/
theorem ExactWalk.plainlyNamed (hexact : ExactWalk host options context)
    (hcontext : closureContext host options = .ok context) (htree : FiniteTree host files)
    (h : NeverThrows host context files) : PlainlyNamed host context := by
  obtain ⟨visited, traversed, enough, hlisting, hends⟩ :=
    validateSeedImportClosure_ends hcontext htree h
  rw [plainlyNamed_iff hlisting]
  obtain ⟨result, hreturns, hexact, -⟩ := hexact
  obtain rfl := hreturns.unique ⟨enough, hends⟩
  obtain ⟨visited', traversed', hlisting', -, hviolations⟩ := hexact.listed
  have hedges : (importEdges host context traversed').Perm (importEdges host context traversed) :=
    (hlisting'.traversed_perm hlisting fun _ => Iff.rfl).flatMap fun _ _ => .refl _
  have hlength := (sortBy_perm compareCodeUnits _).symm.trans hviolations
  replace hlength := (hlength.trans ((hedges.filter _).map _)).length_eq
  rw [violationTexts, List.length_map, List.length_map] at hlength
  have hsub : ((importEdges host context traversed).filter fun e => isOutside host context e.2) =
      ((importEdges host context traversed).filter fun e =>
        !isAllowed host context e.2).filter fun e => isOutside host context e.2 := by
    rw [List.filter_filter]
    refine List.filter_congr fun e _ => ?_
    cases houtside : isOutside host context e.2 with
    | false => rfl
    | true =>
      rw [isAllowed_of_outside houtside]
      rfl
  rw [hsub] at hlength
  have hall := List.length_filter_eq_length_iff.1 hlength.symm
  intro e he hnot
  exact hall e (List.mem_filter.2 ⟨he, by rw [hnot]; rfl⟩)

theorem PlainlyNamed.exactWalk (hplain : PlainlyNamed host context)
    (hcontext : closureContext host options = .ok context) (htree : FiniteTree host files)
    (h : NeverThrows host context files) : ExactWalk host options context := by
  obtain ⟨visited, traversed, enough, hlisting, hends⟩ :=
    validateSeedImportClosure_ends hcontext htree h
  have hedges := (plainlyNamed_iff hlisting).1 hplain
  have hfilter : ((importEdges host context traversed).filter fun e =>
      !isAllowed host context e.2) =
      (importEdges host context traversed).filter fun e => isOutside host context e.2 := by
    refine List.filter_congr fun e he => ?_
    cases houtside : isOutside host context e.2 with
    | true =>
      rw [isAllowed_of_outside houtside]
      rfl
    | false =>
      cases hallowed : isAllowed host context e.2 with
      | true => rfl
      | false =>
        rw [hedges e he hallowed] at houtside
        cases houtside
  refine ⟨walkResult host context visited traversed, ⟨enough, hends⟩,
    ⟨files_once htree hcontext hlisting, visited, traversed, hlisting, sortBy_perm _ _, ?_⟩, ?_⟩
  · rw [← hfilter]
    exact sortBy_perm _ _
  · intro analysisOf hpermutes
    obtain ⟨visited', traversed', enough', hlisting', hends'⟩ :=
      @validateSeedImportClosure_ends (permuteImports host analysisOf) context files options
        hcontext (htree.permuteImports analysisOf) (hpermutes.neverThrows h)
    rw [hpermutes.walkResult_eq hlisting hlisting'] at hends'
    exact ⟨enough', hends'⟩

/-- The walk is exact exactly when no directory whose name begins with two dots stands right below
the allowed root of an import. -/
theorem validateSeedImportClosure_exact (host : ClosureHost) (options : ClosureOptions)
    (context : ClosureContext) (files : List JsString)
    (hcontext : closureContext host options = .ok context) (htree : FiniteTree host files)
    (h : NeverThrows host context files) :
    ExactWalk host options context ↔ PlainlyNamed host context :=
  ⟨fun hexact => hexact.plainlyNamed hcontext htree h,
    fun hplain => hplain.exactWalk hcontext htree h⟩

end

/-! ## A file below a directory of dots -/

/-- The file below a directory of the library. -/
def libraryFile (directory : JsString) : JsString := js "/repo/lib/" ++ directory ++ js "/b.ts"

/-- A file and one below a directory of the library, which import each other. -/
def twoFiles (directory : JsString) : ClosureHost where
  cwd := js "/repo"
  isFile path := path ∈ [js "/repo/a.ts", libraryFile directory]
  realpathSync path :=
    if path ∈ [js "/repo", js "/repo/a.ts", libraryFile directory] then .ok path
    else .error (js "ENOENT")
  importMetaResolve _ _ := none
  analysisOf path _ :=
    .ok (if path = js "/repo/a.ts" then [js "./lib/" ++ directory ++ js "/b.ts"]
      else [js "../../a.ts"])

/-- The first file, with everything in the library allowed. -/
def libraryOptions : ClosureOptions where
  root := js "/repo"
  entry := js "a.ts"
  allowedRoots := [js "lib"]
  allowedFiles := []

def libraryContext : ClosureContext where
  root := js "/repo"
  entry := js "/repo/a.ts"
  resolution := ⟨[], JsMap.empty, js "/repo"⟩
  allowedRoots := [js "/repo/lib"]
  allowedFiles := [js "/repo/a.ts"]
  terminalFiles := []
  options := {}

theorem twoFiles_tree {directory : JsString} (hfile : IsResolved (libraryFile directory)) :
    FiniteTree (twoFiles directory) [js "/repo/a.ts", libraryFile directory] where
  resolved := by
    intro path real h
    rw [twoFiles] at h
    dsimp only at h
    split at h
    · next hpath =>
      obtain rfl := Except.ok.inj h
      rcases List.mem_cons.1 hpath with rfl | hpath
      · exact ⟨[js "repo"], by decide, by decide⟩
      · rcases List.mem_cons.1 hpath with rfl | hpath
        · exact ⟨[js "repo", js "a.ts"], by decide, by decide⟩
        · rw [List.mem_singleton.1 hpath]
          exact hfile
    · cases h
  files := by
    intro path real hfile h
    rw [twoFiles] at h
    dsimp only at h
    split at h
    · obtain rfl := Except.ok.inj h
      exact of_decide_eq_true hfile
    · cases h

/-- Either file imports the other. -/
theorem twoFiles_neverThrows {directory : JsString}
    (hfirst : (resolveLocalImport (twoFiles directory) libraryContext.resolution (js "/repo/a.ts")
      (js "./lib/" ++ directory ++ js "/b.ts")).toOption = some (some (libraryFile directory)))
    (hsecond : (resolveLocalImport (twoFiles directory) libraryContext.resolution
      (libraryFile directory) (js "../../a.ts")).toOption = some (some (js "/repo/a.ts")))
    (hne : libraryFile directory ≠ js "/repo/a.ts") :
    NeverThrows (twoFiles directory) libraryContext [js "/repo/a.ts", libraryFile directory] where
  entry := List.mem_cons_self
  analysis := by
    have hok {result : Except JsString (Option JsString)} {imported : JsString}
        (h : result.toOption = some (some imported)) : result = .ok (some imported) := by
      cases result with
      | error e => cases h
      | ok found => exact congrArg Except.ok (Option.some.inj h)
    intro importer himporter _
    rcases List.mem_cons.1 himporter with rfl | himporter
    · refine ⟨[js "./lib/" ++ directory ++ js "/b.ts"], rfl, fun specifier hspecifier => ?_⟩
      rw [List.mem_singleton.1 hspecifier]
      exact ⟨_, hok hfirst⟩
    · rw [List.mem_singleton.1 himporter]
      refine ⟨[js "../../a.ts"], ?_, fun specifier hspecifier => ?_⟩
      · rw [twoFiles]
        dsimp only
        rw [if_neg hne]
      · rw [List.mem_singleton.1 hspecifier]
        exact ⟨_, hok hsecond⟩

theorem validateSeedImportClosure_exact_plain :
    ExactWalk (twoFiles (js "x")) libraryOptions libraryContext := by
  have hresolved : IsResolved (libraryFile (js "x")) :=
    ⟨[js "repo", js "lib", js "x", js "b.ts"], by decide, by decide⟩
  have htree := twoFiles_tree hresolved
  refine (validateSeedImportClosure_exact _ _ _ _ rfl htree (twoFiles_neverThrows
    (by decide +kernel) (by decide +kernel) (by decide))).2 ?_
  intro importer _ _ imported himported _
  obtain ⟨path, hfile, hreal⟩ := mem_imports himported
  rcases List.mem_cons.1 (htree.files path imported hfile hreal) with rfl | hmem
  · exact .inl (by decide)
  · rw [List.mem_singleton.1 hmem]
    exact .inr ⟨js "/repo/lib", List.mem_cons_self, [js "x", js "b.ts"], by decide +kernel, by decide⟩

/-- The file is in the library, and the walk says that it is not. -/
theorem validateSeedImportClosure_exact_fails : ¬ ∀ (host : ClosureHost) (options : ClosureOptions)
    (context : ClosureContext) (files : List JsString),
    closureContext host options = .ok context → FiniteTree host files →
    NeverThrows host context files → ExactWalk host options context := by
  intro h
  have hresolved : IsResolved (libraryFile (js "..x")) :=
    ⟨[js "repo", js "lib", js "..x", js "b.ts"], by decide, by decide⟩
  have hthrows : NeverThrows (twoFiles (js "..x")) libraryContext _ :=
    twoFiles_neverThrows (by decide +kernel) (by decide +kernel) (by decide)
  have hexact := h _ libraryOptions libraryContext _ rfl (twoFiles_tree hresolved) hthrows
  have hplain := hexact.plainlyNamed rfl (twoFiles_tree hresolved) hthrows (js "/repo/a.ts") .refl
    (by decide +kernel) (libraryFile (js "..x")) (by decide +kernel)
    ⟨js "/repo/lib", List.mem_cons_self, by decide +kernel⟩
  rcases hplain with hfile | ⟨root, hroot, rest, hrest, hhead⟩
  · revert hfile
    decide
  · rw [List.mem_singleton.1 hroot] at hrest
    have hdown : rest = [js "..x", js "b.ts"] :=
      List.append_cancel_left (hrest.symm.trans (by decide +kernel))
    rw [hdown] at hhead
    have hdots := hhead (js "..x") rfl
    revert hdots
    decide

end Musi.ImportClosure
