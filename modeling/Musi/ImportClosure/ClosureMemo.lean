import Musi.Js.Table
import Musi.System.PrefixCode
import Musi.ImportClosure.RuntimeImports

namespace Musi.ImportClosure
open Musi.Js Musi.System
set_option autoImplicit true

/-! ## The memo -/

structure MemoizedAnalysis where
  imports : List JsString
  source : JsString

abbrev SourceAnalysisCache := JsMap MemoizedAnalysis

def sourceAnalysisCacheLimit : Nat := 4096

/-- A call of `analysisOf`. -/
structure AnalysisCall where
  path : JsString
  source : JsString
  options : RuntimeSourceOptions
  deriving DecidableEq

def NonStaticSpecifiers.text : NonStaticSpecifiers → JsString
  | throw => js "throw"
  | skip => js "skip"

def TypeOnlyImports.text : TypeOnlyImports → JsString
  | skip => js "skip"
  | included => js "include"

def AnalysisCall.environmentPolicy (call : AnalysisCall) : JsString :=
  join (js ",") (call.options.allowedEnvironmentVariables.getD [])

def AnalysisCall.key (call : AnalysisCall) : JsString :=
  (call.options.nonStaticSpecifiers.getD .throw).text ++ js " " ++
    ((call.options.typeOnlyImports.getD .skip).text ++ js " " ++
      (call.environmentPolicy ++ js " " ++ call.path))

section
variable (createSourceFile : JsString → JsString → SourceFile)

/-- The analysis of a fresh parse. -/
def freshAnalysis (call : AnalysisCall) : Except JsString (List JsString) :=
  analyzeRuntimeSource (createSourceFile call.path call.source) call.options

def remember (cache : SourceAnalysisCache) (key : JsString) (memoized : MemoizedAnalysis) :
    SourceAnalysisCache :=
  (if cache.entries.length ≥ sourceAnalysisCacheLimit then JsMap.empty else cache).set key memoized

def analysisOf (cache : SourceAnalysisCache) (call : AnalysisCall) :
    Except JsString (List JsString) × SourceAnalysisCache :=
  match cache.get call.key with
  | some memoized =>
    if memoized.source = call.source then (.ok memoized.imports, cache) else analyze
  | none => analyze
where
  analyze : Except JsString (List JsString) × SourceAnalysisCache :=
    match freshAnalysis createSourceFile call with
    | .error e => (.error e, cache)
    | .ok imports => (.ok imports, remember cache call.key { imports, source := call.source })

/-- The results of calls one after the other. -/
def analysesOf : SourceAnalysisCache → List AnalysisCall → List (Except JsString (List JsString))
  | _, [] => []
  | cache, call :: calls =>
    (analysisOf createSourceFile cache call).1 ::
      analysesOf (analysisOf createSourceFile cache call).2 calls

end

/-! ## What the key tells of a call -/

theorem NonStaticSpecifiers.text_inj {a b : NonStaticSpecifiers} (h : a.text = b.text) : a = b := by
  revert h
  cases a <;> cases b <;> decide

theorem TypeOnlyImports.text_inj {a b : TypeOnlyImports} (h : a.text = b.text) : a = b := by
  revert h
  cases a <;> cases b <;> decide

theorem NonStaticSpecifiers.blank_notMem (a : NonStaticSpecifiers) : unit ' ' ∉ a.text := by
  cases a <;> decide

theorem TypeOnlyImports.blank_notMem (a : TypeOnlyImports) : unit ' ' ∉ a.text := by
  cases a <;> decide

/-- The first two words of a key are read back from it. -/
theorem AnalysisCall.key_words {call earlier : AnalysisCall} (h : earlier.key = call.key) :
    earlier.options.nonStaticSpecifiers.getD .throw = call.options.nonStaticSpecifiers.getD .throw ∧
      earlier.options.typeOnlyImports.getD .skip = call.options.typeOnlyImports.getD .skip := by
  have hblank : js " " = [unit ' '] := by decide
  simp only [AnalysisCall.key, hblank, List.append_assoc, List.singleton_append] at h
  obtain ⟨hfirst, hrest⟩ := append_terminator (NonStaticSpecifiers.blank_notMem _)
    (NonStaticSpecifiers.blank_notMem _) h
  obtain ⟨hsecond, -⟩ := append_terminator (TypeOnlyImports.blank_notMem _)
    (TypeOnlyImports.blank_notMem _) hrest
  exact ⟨NonStaticSpecifiers.text_inj hfirst, TypeOnlyImports.text_inj hsecond⟩

/-! ## Analyses under two policies -/

/-- Every node of the file passes an environment policy. -/
def PassesEnvironment (sourceFile : SourceFile) (allowed : List JsString) : Prop :=
  ∀ e ∈ sourceFile.occurrences, checkEnvironmentPolicy sourceFile.fileName e.1 e.2 allowed = .ok ()

/-- What the file passes when there is no policy, and under the policy that there is. -/
def PassesPolicy (sourceFile : SourceFile) (allowed : Option (List JsString)) : Prop :=
  ∀ list, allowed = some list → PassesEnvironment sourceFile list

/-- A loop whose passes succeed under one reading of its body succeeds under another that agrees
where it succeeds. -/
theorem foldlM_ok_congr {ε α β : Type} {f g : β → α → Except ε β} {l : List α}
    (h : ∀ a ∈ l, ∀ b b', f b a = .ok b' → g b a = .ok b') {b b' : β}
    (hf : l.foldlM f b = .ok b') : l.foldlM g b = .ok b' := by
  induction l generalizing b with
  | nil => exact hf
  | cons a l ih =>
    rw [List.foldlM_cons, bind_ok] at hf ⊢
    obtain ⟨c, hc, hrest⟩ := hf
    obtain ⟨ha, hl⟩ := List.forall_mem_cons.1 h
    exact ⟨c, ha b c hc, ih hl hrest⟩

/-- A file that is accepted under some policy has the same imports under every policy that it
passes. -/
theorem analyzeRuntimeSource_ok {sourceFile : SourceFile} {options options' : RuntimeSourceOptions}
    {imports : List JsString} (h : analyzeRuntimeSource sourceFile options = .ok imports)
    (hspecifiers : options.nonStaticSpecifiers.getD .throw = options'.nonStaticSpecifiers.getD .throw)
    (htypes : options.typeOnlyImports.getD .skip = options'.typeOnlyImports.getD .skip)
    (hpasses : PassesPolicy sourceFile options'.allowedEnvironmentVariables) :
    analyzeRuntimeSource sourceFile options' = .ok imports := by
  rw [analyzeRuntimeSource] at h ⊢
  split
  · next hextension =>
    rw [if_pos hextension] at h
    cases h
  · next hextension =>
    rw [if_neg hextension] at h
    refine foldlM_ok_congr (fun e he found found' hstep => ?_) h
    rw [visitNode, bind_ok] at hstep ⊢
    obtain ⟨_, hpolicy, hcollect⟩ := hstep
    rw [← hspecifiers, ← htypes]
    exact ⟨(), checkPolicy_ok.2 ⟨(checkPolicy_ok.1 hpolicy).1,
      fun list hlist => hpasses list hlist e he⟩, hcollect⟩

/-! ## Runs -/

/-- Nothing that the earlier call leaves in the memo misleads the later one: where the two have one
key and one source, they are about one file, and the file passes the later policy unless the earlier
call had it too. -/
def Undisturbed (createSourceFile : JsString → JsString → SourceFile) (earlier call : AnalysisCall) :
    Prop :=
  earlier.key = call.key → earlier.source = call.source → earlier.path = call.path ∧
    (call.options.allowedEnvironmentVariables = earlier.options.allowedEnvironmentVariables ∨
      PassesPolicy (createSourceFile call.path call.source) call.options.allowedEnvironmentVariables)

section
variable {createSourceFile : JsString → JsString → SourceFile}

/-- What a call finds in the memo of an undisturbing one is its own analysis. -/
theorem Undisturbed.freshAnalysis {earlier call : AnalysisCall}
    (h : Undisturbed createSourceFile earlier call) (hkey : earlier.key = call.key)
    (hsource : earlier.source = call.source) {imports : List JsString}
    (hearlier : freshAnalysis createSourceFile earlier = .ok imports) :
    freshAnalysis createSourceFile call = .ok imports := by
  obtain ⟨hpath, hpolicy⟩ := h hkey hsource
  obtain ⟨hspecifiers, htypes⟩ := AnalysisCall.key_words hkey
  rw [ImportClosure.freshAnalysis, hpath, hsource] at hearlier
  refine analyzeRuntimeSource_ok hearlier hspecifiers htypes ?_
  rcases hpolicy with hsame | hpasses
  · intro list hlist e he
    rw [hsame] at hlist
    exact (checkPolicy_ok.1 (checkPolicy_of_ok hearlier he)).2 list hlist
  · exact hpasses

/-- Every entry of the memo was left by one of the calls. -/
def Remembers (createSourceFile : JsString → JsString → SourceFile) (calls : List AnalysisCall)
    (cache : SourceAnalysisCache) : Prop :=
  ∀ key memoized, cache.get key = some memoized → ∃ call ∈ calls, call.key = key ∧
    call.source = memoized.source ∧
    freshAnalysis createSourceFile call = .ok memoized.imports

theorem remembers_empty : Remembers createSourceFile [] JsMap.empty := by
  intro key memoized h
  cases h

/-- A call leaves its own analysis in the memo, or nothing. -/
theorem Remembers.step {calls : List AnalysisCall} {cache : SourceAnalysisCache}
    (h : Remembers createSourceFile calls cache) (call : AnalysisCall) :
    Remembers createSourceFile (calls ++ [call]) (analysisOf createSourceFile cache call).2 := by
  have hkept : Remembers createSourceFile (calls ++ [call]) cache := by
    intro key memoized hget
    obtain ⟨earlier, hearlier, hrest⟩ := h key memoized hget
    exact ⟨earlier, List.mem_append_left _ hearlier, hrest⟩
  have hanalyze : Remembers createSourceFile (calls ++ [call])
      (analysisOf.analyze createSourceFile cache call).2 := by
    rw [analysisOf.analyze]
    cases hfresh : freshAnalysis createSourceFile call with
    | error e => exact hkept
    | ok imports =>
      intro key memoized hget
      dsimp only at hget
      rw [remember, JsMap.get_set] at hget
      split at hget
      · next hkey =>
        obtain rfl := Option.some.inj hget
        exact ⟨call, List.mem_append_right _ List.mem_cons_self, hkey.symm, rfl, hfresh⟩
      · split at hget
        · cases hget
        · exact hkept key memoized hget
  rw [analysisOf]
  split
  · split
    · exact hkept
    · exact hanalyze
  · exact hanalyze

/-- A call that no earlier one disturbs gives its own analysis. -/
theorem Remembers.analysisOf {calls : List AnalysisCall} {cache : SourceAnalysisCache}
    (h : Remembers createSourceFile calls cache) (call : AnalysisCall)
    (hcalls : ∀ earlier ∈ calls, Undisturbed createSourceFile earlier call) :
    (analysisOf createSourceFile cache call).1 = freshAnalysis createSourceFile call := by
  have hanalyze : (analysisOf.analyze createSourceFile cache call).1 =
      freshAnalysis createSourceFile call := by
    rw [analysisOf.analyze]
    cases freshAnalysis createSourceFile call with
    | error e => rfl
    | ok imports => rfl
  rw [ImportClosure.analysisOf]
  split
  · next memoized hget =>
    split
    · next hsource =>
      obtain ⟨earlier, hearlier, hkey, hearlierSource, hfresh⟩ := h call.key memoized hget
      exact ((hcalls earlier hearlier).freshAnalysis hkey (hearlierSource.trans hsource)
        hfresh).symm
    · exact hanalyze
  · exact hanalyze

/-- By induction on the calls; the memo holds analyses of the calls before them. -/
theorem Remembers.analysesOf {earlier calls : List AnalysisCall} {cache : SourceAnalysisCache}
    (h : Remembers createSourceFile earlier cache)
    (hearlier : ∀ call ∈ calls, ∀ before ∈ earlier, Undisturbed createSourceFile before call)
    (hcalls : calls.Pairwise (Undisturbed createSourceFile)) :
    analysesOf createSourceFile cache calls = calls.map (freshAnalysis createSourceFile) := by
  induction calls generalizing earlier cache with
  | nil => rfl
  | cons call calls ih =>
    obtain ⟨hcall, hlater⟩ := List.forall_mem_cons.1 hearlier
    obtain ⟨hfirst, hrest⟩ := List.pairwise_cons.1 hcalls
    rw [ImportClosure.analysesOf, List.map_cons, h.analysisOf call hcall]
    refine congrArg _ (ih (h.step call) (fun later hmem before hbefore => ?_) hrest)
    rcases List.mem_append.1 hbefore with hbefore | hbefore
    · exact hlater later hmem before hbefore
    · rw [List.mem_singleton.1 hbefore]
      exact hfirst later hmem

end

/-- Calls that do not disturb each other are answered as if there were no memo. -/
theorem analysesOf_transparent (createSourceFile : JsString → JsString → SourceFile)
    (calls : List AnalysisCall) (h : calls.Pairwise (Undisturbed createSourceFile)) :
    analysesOf createSourceFile JsMap.empty calls = calls.map (freshAnalysis createSourceFile) := by
  refine remembers_empty.analysesOf (fun call _ before hbefore => ?_) h
  cases hbefore

/-! ## Calls with and without a policy -/

/-- What `void process.env.SECRET` is parsed to. -/
def readsSecret (path _source : JsString) : SourceFile where
  fileName := path
  statements := [.other [.propertyAccess (.propertyAccess (.identifier (js "process"))
    (.identifier (js "env"))) (.identifier (js "SECRET"))]]

def secretCall (allowed : Option (List JsString)) : AnalysisCall where
  path := js "/seed.ts"
  source := js "void process.env.SECRET;"
  options := { allowedEnvironmentVariables := allowed }

theorem analysesOf_transparent_allowed :
    analysesOf readsSecret JsMap.empty [secretCall (some [js "SECRET"]), secretCall none] =
      [secretCall (some [js "SECRET"]), secretCall none].map (freshAnalysis readsSecret) := by
  refine analysesOf_transparent readsSecret _ (List.pairwise_pair.2 fun _ _ => ⟨rfl, .inr ?_⟩)
  intro list hlist
  cases hlist

/-- Accepted without a policy, the file is then answered under the one that allows nothing. -/
theorem analysesOf_transparent_fails : ¬ ∀ (createSourceFile : JsString → JsString → SourceFile)
    (calls : List AnalysisCall),
    analysesOf createSourceFile JsMap.empty calls = calls.map (freshAnalysis createSourceFile) := by
  intro h
  have hcalls := congrArg (List.map Except.toOption) (h readsSecret [secretCall none, secretCall (some [])])
  revert hcalls
  decide +kernel

end Musi.ImportClosure
