import Musi.System.Runs
import Musi.System.Search
import Musi.LintRatchet.Kernel.RuleSource

namespace Musi.LintRatchet
open Musi.Js Musi.System Relation
set_option autoImplicit true

/-! ## The import graph -/

section Graph
variable (host : ClosureHost) (path : JsString)

/-- The statements of an existing JavaScript file that parses. -/
def ParsesTo (statements : List SyntaxNode) : Prop :=
  host.fileSystem.pathExists path = true ∧ ∃ source scriptKind,
    host.fileSystem.readFile path = some source ∧ javaScriptKindForPath path = some scriptKind ∧
      parseJavaScriptSource host.ts path source scriptKind = .ok statements

def NamesSpecifier (specifier : JsString) : Prop :=
  ∃ statements, ParsesTo host path statements ∧ specifier ∈ staticModuleSpecifiers statements

/-- A static relative import or export of a parsed file. -/
def Imports (target : JsString) : Prop :=
  ∃ specifier, NamesSpecifier host path specifier ∧ startsWith specifier (js ".") = true ∧
    resolveLocalRuleImport host.cwd path specifier host.fileSystem = .ok target

def NamesPackage (root : JsString) : Prop :=
  ∃ specifier, NamesSpecifier host path specifier ∧ startsWith specifier (js ".") = false ∧
    bareSpecifierPackageRoot specifier = some root

def Malformed : Prop :=
  host.fileSystem.pathExists path = true ∧ ∃ source scriptKind e,
    host.fileSystem.readFile path = some source ∧ javaScriptKindForPath path = some scriptKind ∧
      parseJavaScriptSource host.ts path source scriptKind = .error e

def LoadsDynamically : Prop :=
  ∃ statements, ParsesTo host path statements ∧ anyLoadsDynamically statements = true

/-- An import of the file resolves to a directory without index.js. -/
def ImportsBareDirectory : Prop :=
  ∃ specifier e, NamesSpecifier host path specifier ∧ startsWith specifier (js ".") = true ∧
    resolveLocalRuleImport host.cwd path specifier host.fileSystem = .error e

/-- Everything that stops the collection at a path. -/
def Stops : Prop :=
  host.fileSystem.pathExists path = false ∨
    (host.fileSystem.pathExists path = true ∧ host.fileSystem.readFile path = none) ∨
    Malformed host path ∨ LoadsDynamically host path ∨ ImportsBareDirectory host path

end Graph

theorem ParsesTo.unique {host : ClosureHost} (h : ParsesTo host path statements)
    (h' : ParsesTo host path statements') : statements = statements' := by
  obtain ⟨-, source, scriptKind, hr, hk, hp⟩ := h
  obtain ⟨-, source', scriptKind', hr', hk', hp'⟩ := h'
  rw [hr, Option.some.injEq] at hr'
  rw [hk, Option.some.injEq] at hk'
  subst hr' hk'
  rw [hp] at hp'
  exact Except.ok.inj hp'

/-! ## What a call adds to the state -/

def recorded (st : ClosureState) : Set JsString := {p | p ∈ st.filesByPath.keys}

theorem mem_recorded {st : ClosureState} : path ∈ recorded st ↔ st.filesByPath.has path = true := by
  rw [JsMap.has, Option.isSome_iff_exists]
  exact JsMap.mem_keys

/-- The call searched from some paths, recorded what it read, and added the packages that the new
files name and some that the current file names. -/
structure CollectedFrom (host : ClosureHost) (starts named : Set JsString) (st st' : ClosureState) :
    Prop where
  search : Searched (Imports host) starts (recorded st) (recorded st')
  sources : ∀ p source, st'.filesByPath.get p = some source →
    st.filesByPath.get p = some source ∨ host.fileSystem.readFile p = some source
  sound : ∀ p ∈ recorded st', p ∉ recorded st → ¬ Stops host p
  roots : ∀ root, root ∈ st'.bareRoots ↔ root ∈ st.bareRoots ∨ root ∈ named ∨
    ∃ p ∈ recorded st', p ∉ recorded st ∧ NamesPackage host p root
  distinct : st.bareRoots.Nodup → st'.bareRoots.Nodup

section Growth
variable {host : ClosureHost} {starts starts' named named' : Set JsString}
  {st st' st'' : ClosureState}

theorem CollectedFrom.nothing : CollectedFrom host ∅ ∅ st st where
  search := .nothing
  sources := fun _ _ h => .inl h
  sound := fun _ hp hn => absurd hp hn
  roots := by
    intro root
    refine ⟨.inl, ?_⟩
    rintro (h | h | ⟨p, hp, hn, -⟩)
    · exact h
    · exact absurd h (Set.notMem_empty root)
    · exact absurd hp hn
  distinct := id

theorem CollectedFrom.seen (h : path ∈ recorded st) : CollectedFrom host {path} ∅ st st :=
  { @CollectedFrom.nothing host st with search := .seen h }

theorem CollectedFrom.append (h : CollectedFrom host starts named st st')
    (h' : CollectedFrom host starts' named' st' st'') :
    CollectedFrom host (starts ∪ starts') (named ∪ named') st st'' where
  search := h.search.append h'.search
  sources := by
    intro p source hs
    rcases h'.sources p source hs with hs | hs
    · exact h.sources p source hs
    · exact .inr hs
  sound := by
    intro p hp hn
    by_cases hmid : p ∈ recorded st'
    · exact h.sound p hmid hn
    · exact h'.sound p hp hmid
  roots := by
    intro root
    rw [h'.roots, h.roots]
    constructor
    · rintro ((hr | hr | ⟨p, hp, hn, hname⟩) | hr | ⟨p, hp, hn, hname⟩)
      · exact .inl hr
      · exact .inr (.inl (.inl hr))
      · exact .inr (.inr ⟨p, h'.search.grows hp, hn, hname⟩)
      · exact .inr (.inl (.inr hr))
      · exact .inr (.inr ⟨p, hp, fun hs => hn (h.search.grows hs), hname⟩)
    · rintro (hr | (hr | hr) | ⟨p, hp, hn, hname⟩)
      · exact .inl (.inl hr)
      · exact .inl (.inr (.inl hr))
      · exact .inr (.inl hr)
      · by_cases hmid : p ∈ recorded st'
        · exact .inl (.inr (.inr ⟨p, hmid, hn, hname⟩))
        · exact .inr (.inr ⟨p, hp, hmid, hname⟩)
  distinct := fun hd => h'.distinct (h.distinct hd)

theorem recorded_set (st : ClosureState) (path : JsString) (source : Bytes) :
    recorded { st with filesByPath := st.filesByPath.set path source } =
      insert path (recorded st) := by
  ext p
  rw [Set.mem_insert_iff]
  change p ∈ (st.filesByPath.set path source).keys ↔ p = path ∨ p ∈ st.filesByPath.keys
  rw [JsMap.mem_keys, JsMap.mem_keys]
  simp only [JsMap.get_set]
  by_cases hp : p = path
  · simp [hp]
  · simp [hp]

/-- A file is recorded, then the files that it imports are collected. -/
theorem CollectedFrom.visit {source : Bytes} (hn : path ∉ recorded st)
    (hread : host.fileSystem.readFile path = some source) (hstops : ¬ Stops host path)
    (h : CollectedFrom host {q | Imports host path q} {root | NamesPackage host path root}
      { st with filesByPath := st.filesByPath.set path source } st') :
    CollectedFrom host {path} ∅ st st' where
  search := by
    have hs := h.search
    rw [recorded_set] at hs
    exact hs.visit hn
  sources := by
    intro p s hs
    rcases h.sources p s hs with hs | hs
    · rw [JsMap.get_set] at hs
      split at hs
      · next hp =>
        rw [hp, hread]
        exact .inr hs
      · exact .inl hs
    · exact .inr hs
  sound := by
    intro p hp hs
    by_cases hpath : p = path
    · rw [hpath]
      exact hstops
    · refine h.sound p hp ?_
      rw [recorded_set, Set.mem_insert_iff]
      exact fun hi => hi.elim hpath hs
  roots := by
    intro root
    rw [h.roots]
    have hpath : path ∈ recorded st' := h.search.grows (by rw [recorded_set]; exact .inl rfl)
    constructor
    · rintro (hr | hr | ⟨p, hp, hs, hname⟩)
      · exact .inl hr
      · exact .inr (.inr ⟨path, hpath, hn, hr⟩)
      · rw [recorded_set, Set.mem_insert_iff, not_or] at hs
        exact .inr (.inr ⟨p, hp, hs.2, hname⟩)
    · rintro (hr | hr | ⟨p, hp, hs, hname⟩)
      · exact .inl hr
      · exact absurd hr (Set.notMem_empty root)
      · by_cases hq : p = path
        · exact .inr (.inl (hq ▸ hname))
        · refine .inr (.inr ⟨p, hp, ?_, hname⟩)
          rw [recorded_set, Set.mem_insert_iff]
          exact fun hi => hi.elim hq hs
  distinct := h.distinct

/-- A package of the current file is added once. -/
theorem CollectedFrom.addRoot (root : JsString) :
    CollectedFrom host ∅ {root} st { st with bareRoots := addRoot root st.bareRoots } where
  search := .nothing
  sources := fun _ _ h => .inl h
  sound := fun _ hp hn => absurd hp hn
  roots := by
    intro r
    have hadded : r ∈ LintRatchet.addRoot root st.bareRoots ↔ r ∈ st.bareRoots ∨ r = root := by
      rw [LintRatchet.addRoot]
      split
      · next hmem => exact ⟨.inl, fun h => h.elim id fun he => he ▸ hmem⟩
      · simp
    rw [hadded]
    constructor
    · rintro (h | h)
      · exact .inl h
      · exact .inr (.inl h)
    · rintro (h | h | ⟨p, hp, hn, -⟩)
      · exact .inl h
      · exact .inr h
      · exact absurd hp hn
  distinct := by
    intro hd
    rw [LintRatchet.addRoot]
    split
    · exact hd
    · next hmem => exact List.nodup_append.2 ⟨hd, List.nodup_singleton root, by
        intro a ha b hb he
        rw [List.mem_singleton] at hb
        exact hmem (hb ▸ he ▸ ha)⟩

end Growth

/-! ## One call -/

section Calls
variable {host : ClosureHost}

/-- Something that stops the collection is reached from one of the paths. -/
def StopsFrom (host : ClosureHost) (starts : Set JsString) : Prop :=
  ∃ s ∈ starts, ∃ p, ReflTransGen (Imports host) s p ∧ Stops host p

theorem StopsFrom.mono {starts starts' : Set JsString} (h : StopsFrom host starts)
    (hs : starts ⊆ starts') : StopsFrom host starts' := by
  obtain ⟨s, hmem, p, hp⟩ := h
  exact ⟨s, hs hmem, p, hp⟩

/-- What the specifiers of a list resolve to. -/
def targetsOf (host : ClosureHost) (path : JsString) (specifiers : List JsString) : Set JsString :=
  {q | ∃ specifier ∈ specifiers, startsWith specifier (js ".") = true ∧
    resolveLocalRuleImport host.cwd path specifier host.fileSystem = .ok q}

def packagesOf (specifiers : List JsString) : Set JsString :=
  {root | ∃ specifier ∈ specifiers, startsWith specifier (js ".") = false ∧
    bareSpecifierPackageRoot specifier = some root}

def Resolved (host : ClosureHost) (path : JsString) (specifiers : List JsString) : Prop :=
  ∀ specifier ∈ specifiers, startsWith specifier (js ".") = true →
    ∃ q, resolveLocalRuleImport host.cwd path specifier host.fileSystem = .ok q

theorem targetsOf_cons (path specifier : JsString) (specifiers : List JsString) :
    targetsOf host path (specifier :: specifiers) =
      targetsOf host path [specifier] ∪ targetsOf host path specifiers := by
  ext q
  simp [targetsOf]

theorem packagesOf_cons (specifier : JsString) (specifiers : List JsString) :
    packagesOf (specifier :: specifiers) = packagesOf [specifier] ∪ packagesOf specifiers := by
  ext q
  simp [packagesOf]

theorem targetsOf_bare {specifier : JsString} (h : startsWith specifier (js ".") = false)
    (path : JsString) : targetsOf host path [specifier] = ∅ := by
  ext q
  refine iff_of_false ?_ (Set.notMem_empty q)
  rintro ⟨s, hs, hdot, -⟩
  rw [List.mem_singleton.1 hs, h] at hdot
  cases hdot

theorem targetsOf_relative {specifier target : JsString} (h : startsWith specifier (js ".") = true)
    (ht : resolveLocalRuleImport host.cwd path specifier host.fileSystem = .ok target) :
    targetsOf host path [specifier] = {target} := by
  ext q
  constructor
  · rintro ⟨s, hs, -, hq⟩
    rw [List.mem_singleton.1 hs, ht] at hq
    exact (Except.ok.inj hq).symm
  · intro hq
    exact ⟨specifier, List.mem_singleton_self _, h, (Set.mem_singleton_iff.1 hq).symm ▸ ht⟩

theorem packagesOf_relative {specifier : JsString} (h : startsWith specifier (js ".") = true) :
    packagesOf [specifier] = ∅ := by
  ext root
  refine iff_of_false ?_ (Set.notMem_empty root)
  rintro ⟨s, hs, hdot, -⟩
  rw [List.mem_singleton.1 hs, h] at hdot
  cases hdot

theorem packagesOf_bare {specifier : JsString} (h : startsWith specifier (js ".") = false) :
    packagesOf [specifier] = {root | bareSpecifierPackageRoot specifier = some root} := by
  ext root
  constructor
  · rintro ⟨s, hs, -, hroot⟩
    rwa [List.mem_singleton.1 hs] at hroot
  · exact fun hroot => ⟨specifier, List.mem_singleton_self _, h, hroot⟩

theorem collectSpecifiers_returns {collect : JsString → ClosureState → ClosureRun ClosureState}
    (hcollect : ∀ target st run, collect target st = some run →
      Returns (CollectedFrom host {target} ∅ st) (fun _ => StopsFrom host {target}) run)
    {path : JsString} {specifiers : List JsString} {st : ClosureState}
    {run : Except ClosureError ClosureState}
    (h : collectSpecifiers host collect path specifiers st = some run) :
    Returns
      (fun st' => CollectedFrom host (targetsOf host path specifiers) (packagesOf specifiers) st st' ∧
        Resolved host path specifiers)
      (fun _ => ¬ Resolved host path specifiers ∨ StopsFrom host (targetsOf host path specifiers))
      run := by
  induction specifiers generalizing st with
  | nil =>
    cases h
    have hnil : CollectedFrom host (targetsOf host path []) (packagesOf []) st st := by
      have htargets : targetsOf host path [] = ∅ := by ext q; simp [targetsOf]
      have hpackages : packagesOf [] = ∅ := by ext q; simp [packagesOf]
      rw [htargets, hpackages]
      exact .nothing
    exact ⟨hnil, fun _ hs => absurd hs List.not_mem_nil⟩
  | cons specifier specifiers ih =>
    rw [collectSpecifiers] at h
    rw [targetsOf_cons, packagesOf_cons]
    -- The rest of the list after a step that its first specifier takes.
    have hrest {st₁ : ClosureState} (hfirst : CollectedFrom host (targetsOf host path [specifier])
        (packagesOf [specifier]) st st₁)
        (hresolved : startsWith specifier (js ".") = true →
          ∃ q, resolveLocalRuleImport host.cwd path specifier host.fileSystem = .ok q)
        (h : collectSpecifiers host collect path specifiers st₁ = some run) :
        Returns (fun st' => CollectedFrom host
            (targetsOf host path [specifier] ∪ targetsOf host path specifiers)
            (packagesOf [specifier] ∪ packagesOf specifiers) st st' ∧
            Resolved host path (specifier :: specifiers))
          (fun _ => ¬ Resolved host path (specifier :: specifiers) ∨
            StopsFrom host (targetsOf host path [specifier] ∪ targetsOf host path specifiers)) run := by
      refine (ih h).mono ?_ ?_
      · rintro st' ⟨hc, hr⟩
        exact ⟨hfirst.append hc, List.forall_mem_cons.2 ⟨hresolved, hr⟩⟩
      · rintro e (hr | hs)
        · exact .inl fun hall => hr fun s hs => hall s (List.mem_cons_of_mem _ hs)
        · exact .inr (hs.mono Set.subset_union_right)
    cases hdot : startsWith specifier (js ".") with
    | false =>
      rw [hdot, Bool.not_false, if_pos rfl] at h
      rw [hdot] at hrest
      have hbare : CollectedFrom host (targetsOf host path [specifier]) (packagesOf [specifier]) st
          ((bareSpecifierPackageRoot specifier).elim st fun root =>
            { st with bareRoots := addRoot root st.bareRoots }) := by
        rw [targetsOf_bare hdot, packagesOf_bare hdot]
        cases hroot : bareSpecifierPackageRoot specifier with
        | none =>
          have hempty : {root | (none : Option JsString) = some root} = ∅ := by ext; simp
          rw [hempty]
          exact .nothing
        | some root =>
          have hone : {r | some root = some r} = {root} := by ext; simp [eq_comm]
          rw [hone]
          exact .addRoot root
      refine hrest hbare (fun hf => absurd hf Bool.false_ne_true) ?_
      cases hroot : bareSpecifierPackageRoot specifier with
      | none => rwa [hroot] at h
      | some root => rwa [hroot] at h
    | true =>
      rw [hdot, Bool.not_true, if_neg Bool.false_ne_true] at h
      cases htarget : resolveLocalRuleImport host.cwd path specifier host.fileSystem with
      | error e =>
        rw [htarget] at h
        cases h
        refine .inl fun hall => ?_
        obtain ⟨q, hq⟩ := hall specifier List.mem_cons_self hdot
        rw [htarget] at hq
        cases hq
      | ok target =>
        rw [htarget] at h
        dsimp only at h
        have htargets := targetsOf_relative hdot htarget
        cases hrun : collect target st with
        | none =>
          rw [hrun] at h
          cases h
        | some first =>
          have hspec := hcollect target st first hrun
          rw [hrun] at h
          cases first with
          | error e =>
            cases h
            refine .inr (StopsFrom.mono hspec ?_)
            rw [htargets]
            exact Set.subset_union_left
          | ok st₁ =>
            refine hrest ?_ (fun _ => ⟨target, htarget⟩) h
            rw [htargets, packagesOf_relative hdot]
            exact hspec

/-- What a call returns has collected its path, and what it throws at is reached from it. -/
theorem collectLocalRuleSourceClosure_returns {depth : Nat} {path : JsString} {st : ClosureState}
    {run : Except ClosureError ClosureState}
    (h : collectLocalRuleSourceClosure host depth path st = some run) :
    Returns (CollectedFrom host {path} ∅ st) (fun _ => StopsFrom host {path}) run := by
  induction depth generalizing path st run with
  | zero => cases h
  | succ depth ih =>
    have hself (hstops : Stops host path) : StopsFrom host {path} := ⟨path, rfl, path, .refl, hstops⟩
    rw [collectLocalRuleSourceClosure] at h
    split at h
    · next hseen =>
      cases h
      exact .seen (mem_recorded.2 hseen)
    · next hnew =>
      have hn : path ∉ recorded st := fun hp => hnew (mem_recorded.1 hp)
      split at h
      · next hmissing =>
        cases h
        exact hself (.inl (by simpa using hmissing))
      · next hexists =>
        have hex : host.fileSystem.pathExists path = true := by simpa using hexists
        split at h
        · next hread =>
          cases h
          exact hself (.inr (.inl ⟨hex, hread⟩))
        · next source hread =>
          have hfound : ¬ (host.fileSystem.pathExists path = false ∨
              (host.fileSystem.pathExists path = true ∧ host.fileSystem.readFile path = none)) := by
            simp [hex, hread]
          split at h
          · next hkind =>
            cases h
            -- A file that is no JavaScript has no specifiers.
            have hparse (statements) : ¬ ParsesTo host path statements := by
              rintro ⟨-, s, k, -, hk, -⟩
              rw [hkind] at hk
              cases hk
            have hname (specifier) : ¬ NamesSpecifier host path specifier :=
              fun ⟨statements, hp, _⟩ => hparse statements hp
            have hstops : ¬ Stops host path := by
              rintro (hm | hu | ⟨-, s, k, e, -, hk, -⟩ | ⟨statements, hp, -⟩ | ⟨specifier, e, hs, -⟩)
              · exact hfound (.inl hm)
              · exact hfound (.inr hu)
              · rw [hkind] at hk
                cases hk
              · exact hparse statements hp
              · exact hname specifier hs
            refine .visit hn hread hstops ?_
            have himports : {q | Imports host path q} = ∅ := by
              ext q
              exact iff_of_false (fun ⟨specifier, hs, _⟩ => hname specifier hs) id
            have hpackages : {root | NamesPackage host path root} = ∅ := by
              ext q
              exact iff_of_false (fun ⟨specifier, hs, _⟩ => hname specifier hs) id
            rw [himports, hpackages]
            exact .nothing
          · next scriptKind hkind =>
            split at h
            · next e hparse =>
              cases h
              exact hself (.inr (.inr (.inl ⟨hex, source, scriptKind, e, hread, hkind, hparse⟩)))
            · next sourceFile hparse =>
              have hparses : ParsesTo host path sourceFile :=
                ⟨hex, source, scriptKind, hread, hkind, hparse⟩
              have hname (specifier : JsString) : NamesSpecifier host path specifier ↔
                  specifier ∈ staticModuleSpecifiers sourceFile := by
                constructor
                · rintro ⟨statements, hp, hs⟩
                  rwa [hparses.unique hp]
                · exact fun hs => ⟨sourceFile, hparses, hs⟩
              split at h
              · next e hdynamic =>
                cases h
                rw [assertStaticModuleLoading] at hdynamic
                split at hdynamic
                · next hd =>
                  exact hself (.inr (.inr (.inr (.inl ⟨sourceFile, hparses, hd⟩))))
                · cases hdynamic
              · next hstatic =>
                have hstatic : ¬ LoadsDynamically host path := by
                  rintro ⟨statements, hp, hd⟩
                  rw [assertStaticModuleLoading, ← hparses.unique hp, if_pos] at *
                  · cases hstatic
                  · rwa [hparses.unique hp]
                have htargets : targetsOf host path (staticModuleSpecifiers sourceFile) =
                    {q | Imports host path q} := by
                  ext q
                  simp only [targetsOf, Imports, hname, Set.mem_ofPred_eq]
                have hpackages : packagesOf (staticModuleSpecifiers sourceFile) =
                    {root | NamesPackage host path root} := by
                  ext q
                  simp only [packagesOf, NamesPackage, hname, Set.mem_ofPred_eq]
                have hloop := collectSpecifiers_returns (fun _ _ _ hc => ih hc) h
                rw [htargets, hpackages] at hloop
                refine hloop.mono ?_ ?_
                · rintro st' ⟨hc, hr⟩
                  refine .visit hn hread ?_ hc
                  rintro (hm | hu | ⟨-, s, k, e, hs, hk, hp⟩ | hd | ⟨specifier, e, hs, hdot, hres⟩)
                  · exact hfound (.inl hm)
                  · exact hfound (.inr hu)
                  · rw [hread, Option.some.injEq] at hs
                    rw [hkind, Option.some.injEq] at hk
                    subst hs hk
                    rw [hparse] at hp
                    cases hp
                  · exact hstatic hd
                  · obtain ⟨q, hq⟩ := hr specifier ((hname specifier).1 hs) hdot
                    rw [hres] at hq
                    cases hq
                · rintro e (hr | ⟨s, hs, p, hp, hstops⟩)
                  · refine hself (.inr (.inr (.inr (.inr ?_))))
                    rw [Resolved] at hr
                    push Not at hr
                    obtain ⟨specifier, hs, hdot, hres⟩ := hr
                    cases hresult : resolveLocalRuleImport host.cwd path specifier host.fileSystem with
                    | ok q => exact absurd hresult (hres q)
                    | error e => exact ⟨specifier, e, (hname specifier).2 hs, hdot, hresult⟩
                  · exact ⟨path, rfl, p, .head hs hp, hstops⟩

end Calls

/-! ## Ending -/

section Ending
variable {host : ClosureHost} {paths : List JsString}

/-- The paths of a list that were not read yet. -/
def unrecorded (paths : List JsString) (st : ClosureState) : Nat :=
  (paths.filter fun p => !st.filesByPath.has p).length

theorem unrecorded_mono {st st' : ClosureState} (h : recorded st ⊆ recorded st') :
    unrecorded paths st' ≤ unrecorded paths st := by
  refine (List.monotone_filter_right paths fun p hp => ?_).length_le
  rw [Bool.not_eq_true'] at hp ⊢
  by_contra hseen
  rw [Bool.not_eq_false] at hseen
  have hmem := mem_recorded.1 (h (mem_recorded.2 hseen))
  rw [hp] at hmem
  cases hmem

theorem unrecorded_set {st : ClosureState} {path : JsString} (hp : path ∈ paths)
    (hn : path ∉ recorded st) (source : Bytes) :
    unrecorded paths { st with filesByPath := st.filesByPath.set path source } <
      unrecorded paths st := by
  have hsub : List.Sublist
      (paths.filter fun p => !(st.filesByPath.set path source).has p)
      ((paths.filter fun p => !st.filesByPath.has p).filter fun p => p ≠ path) := by
    rw [List.filter_filter]
    refine List.monotone_filter_right paths fun p hp => ?_
    by_cases he : p = path
    · subst he
      simp [JsMap.has, JsMap.get_set] at hp
    · simpa [JsMap.has, JsMap.get_set, he] using hp
  refine Nat.lt_of_le_of_lt hsub.length_le (List.length_filter_lt_length_iff_exists.2 ⟨path, ?_, by simp⟩)
  rw [List.mem_filter]
  refine ⟨hp, ?_⟩
  rw [Bool.not_eq_true', Bool.eq_false_iff]
  exact fun hs => hn (mem_recorded.2 hs)

theorem collectSpecifiers_ends {collect : JsString → ClosureState → ClosureRun ClosureState}
    {bound : Nat} (hends : ∀ target st, unrecorded paths st < bound → ∃ run, collect target st = some run)
    (hgrows : ∀ target st st', collect target st = some (.ok st') → recorded st ⊆ recorded st')
    (path : JsString) {specifiers : List JsString} {st : ClosureState}
    (h : unrecorded paths st < bound) :
    ∃ run, collectSpecifiers host collect path specifiers st = some run := by
  induction specifiers generalizing st with
  | nil => exact ⟨_, rfl⟩
  | cons specifier specifiers ih =>
    rw [collectSpecifiers]
    split
    · split
      · exact ih h
      · exact ih h
    · split
      · exact ⟨_, rfl⟩
      · next target _ =>
        obtain ⟨run, hrun⟩ := hends target st h
        rw [hrun]
        cases run with
        | error e => exact ⟨_, rfl⟩
        | ok st' => exact ih (Nat.lt_of_le_of_lt (unrecorded_mono (hgrows target st st' hrun)) h)

/-- A call is not cut off where the depth exceeds the files that are left to read. -/
theorem collectLocalRuleSourceClosure_ends
    (hpaths : ∀ p, host.fileSystem.pathExists p = true → p ∈ paths) {depth : Nat} {path : JsString}
    {st : ClosureState} (h : unrecorded paths st < depth) :
    ∃ run, collectLocalRuleSourceClosure host depth path st = some run := by
  induction depth generalizing path st with
  | zero => exact absurd h (Nat.not_lt_zero _)
  | succ depth ih =>
    rw [collectLocalRuleSourceClosure]
    split
    · exact ⟨_, rfl⟩
    · next hnew =>
      split
      · exact ⟨_, rfl⟩
      · next hexists =>
        split
        · exact ⟨_, rfl⟩
        · next source hread =>
          dsimp only
          split
          · exact ⟨_, rfl⟩
          · split
            · exact ⟨_, rfl⟩
            · split
              · exact ⟨_, rfl⟩
              · have hless := unrecorded_set (hpaths path (by simpa using hexists))
                  (fun hp => hnew (mem_recorded.1 hp)) source
                exact collectSpecifiers_ends (fun target st => ih)
                  (fun target st st' hc =>
                    (collectLocalRuleSourceClosure_returns hc : CollectedFrom ..).search.grows)
                  path (by omega)

theorem collectSpecifiers_mono {collect collect' : JsString → ClosureState → ClosureRun ClosureState}
    (hcollect : ∀ target st run, collect target st = some run → collect' target st = some run)
    {path : JsString} {specifiers : List JsString} {st : ClosureState}
    {run : Except ClosureError ClosureState}
    (h : collectSpecifiers host collect path specifiers st = some run) :
    collectSpecifiers host collect' path specifiers st = some run := by
  induction specifiers generalizing st with
  | nil => exact h
  | cons specifier specifiers ih =>
    rw [collectSpecifiers] at h ⊢
    split at h
    · next hbare =>
      rw [if_pos hbare]
      split at h
      · exact ih h
      · exact ih h
    · next hrelative =>
      rw [if_neg hrelative]
      split at h
      · exact h
      · next target _ =>
        cases hrun : collect target st with
        | none =>
          rw [hrun] at h
          cases h
        | some first =>
          rw [hrun] at h
          rw [hcollect target st first hrun]
          cases first with
          | error e => exact h
          | ok st' => exact ih h

/-- A deeper bound gives the same result. -/
theorem collectLocalRuleSourceClosure_mono {depth deeper : Nat} (hd : depth ≤ deeper)
    {path : JsString} {st : ClosureState} {run : Except ClosureError ClosureState}
    (h : collectLocalRuleSourceClosure host depth path st = some run) :
    collectLocalRuleSourceClosure host deeper path st = some run := by
  induction depth generalizing deeper path st run with
  | zero => cases h
  | succ depth ih =>
    obtain ⟨deeper, rfl⟩ : ∃ d, deeper = d + 1 := ⟨deeper - 1, by omega⟩
    rw [collectLocalRuleSourceClosure] at h ⊢
    split at h
    · next hseen =>
      rw [if_pos hseen]
      exact h
    · next hnew =>
      rw [if_neg hnew]
      split at h
      · next hmissing =>
        rw [if_pos hmissing]
        exact h
      · next hexists =>
        rw [if_neg hexists]
        split at h
        · exact h
        · dsimp only at h ⊢
          split at h
          · exact h
          · split at h
            · exact h
            · split at h
              · exact h
              · exact collectSpecifiers_mono (fun _ _ _ hc => ih (by omega) hc) h

end Ending

end Musi.LintRatchet
