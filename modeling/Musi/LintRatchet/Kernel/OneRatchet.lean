import Musi.Js.Number
import Musi.LintRatchet.Kernel.BaselineFacts

namespace Musi.LintRatchet
open Musi.Js
set_option autoImplicit true

/-! ## Baselines of one ratchet -/

section OneRatchet
variable {N : Type}

/-- The ratchet of a registry of one, in the scope of the paths that its globs spell out. -/
def oneRatchet (N : Type) (metric : LintRatchetMetric) (files : List JsString) :
    LintRatchetConfig N where
  id := js "ratchet/one"
  ruleId := js "local/one"
  files := files
  ignores := []
  ruleOptions := []
  mode := .noNew
  metric := metric
  principle := js "one"
  zeroBaselineDisposition := none
  source := none
  parserProfile := none
  typeAwareProject := none

def zeroHash : JsString := js "sha256:" ++ List.replicate 64 (unit '0')

def oneTest (metric : LintRatchetMetric) (files : List JsString)
    (items : Entries LintRatchetMetricItem) : LintRatchetBaselineTest N where
  ruleId := js "local/one"
  mode := .noNew
  metric := metric
  files := files
  ignores := []
  ruleOptions := []
  configHash := zeroHash
  ruleSourceHash := zeroHash
  items := Record.fromEntries items

def oneBaseline (metric : LintRatchetMetric) (files : List JsString)
    (items : Entries LintRatchetMetricItem) : LintRatchetBaseline N where
  version := annotatedVersion
  regenerate := none
  tests := Record.fromEntries [(js "ratchet/one", oneTest metric files items)]

variable {metric metric' : LintRatchetMetric} {files files' : List JsString}
  {items : Entries LintRatchetMetricItem}

theorem own_oneBaseline : (oneBaseline metric files items : LintRatchetBaseline N).tests.own testId =
    if testId = js "ratchet/one" then some (oneTest metric files items) else none := by
  rw [oneBaseline, Record.own_fromEntries_of_nodup (by simp)]
  by_cases h : testId = js "ratchet/one" <;> simp [Entries.lookup_cons, h]

@[simp] theorem own_oneBaseline_self :
    (oneBaseline metric files items : LintRatchetBaseline N).tests.own (js "ratchet/one") =
      some (oneTest metric files items) := by rw [own_oneBaseline, if_pos rfl]

theorem own_oneTest (hn : (Entries.keys items).Nodup) (path : JsString) :
    (oneTest metric files items : LintRatchetBaselineTest N).items.own path = items.lookup path :=
  Record.own_fromEntries_of_nodup hn path

theorem oneTest_of_own {test : LintRatchetBaselineTest N}
    (h : (oneBaseline metric files items).tests.own testId = some test) :
    testId = js "ratchet/one" ∧ test = oneTest metric files items := by
  rw [own_oneBaseline] at h
  split at h
  · next hid => exact ⟨hid, (Option.some.inj h).symm⟩
  · cases h

variable [JsNumber N]

/-- What a one-ratchet baseline needs of its items. -/
structure OneItems (N : Type) [JsNumber N] (metric : LintRatchetMetric)
    (items : Entries LintRatchetMetricItem) : Prop where
  nodup : (Entries.keys items).Nodup
  paths : ∀ e ∈ items, isNormalizedPath e.1 = true ∧ e.1 ≠ js "__proto__"
  item : ∀ e ∈ items, ItemWellFormed N e.2 ∧ 0 < e.2.count
  valid : ∀ e ∈ items, ItemValid metric e.2

/-- The checks of the structure do not look at the metric of the items. -/
theorem OneItems.wellFormed (h : OneItems N metric' items) :
    BaselineWellFormed (oneBaseline metric files items : LintRatchetBaseline N) where
  version := show annotatedVersion ∈ _ by decide
  regenerate := by simp [oneBaseline]
  tests testId test ht := by
    obtain ⟨rfl, rfl⟩ := oneTest_of_own ht
    have hmem {path item} (hi : (oneTest metric files items : LintRatchetBaselineTest N).items.own
        path = some item) : (path, item) ∈ items := by
      rw [own_oneTest h.nodup] at hi
      exact (Entries.mem_iff_lookup h.nodup).2 hi
    refine ⟨⟨by decide, show isBaselineRuleId (js "local/one") = true by decide,
      show isSha256Hash zeroHash = true by decide, .inr (show isSha256Hash zeroHash = true by decide),
      by simp [oneTest], fun path item hi => h.paths _ (hmem hi), fun path item hi =>
        h.item _ (hmem hi)⟩, show zeroHash ≠ [] by decide⟩

theorem OneItems.parsed [Host] (h : OneItems N metric' items) (w : LintRatchetWorkflowVocabulary) :
    parseLintRatchetBaselineStructure
      (baselineText (oneBaseline metric files items : LintRatchetBaseline N)) w =
        .ok (oneBaseline metric files items : LintRatchetBaseline N) :=
  parseLintRatchetBaselineStructure_text defaultVersionPolicy w defaultBaselineFilename
    h.wellFormed (show annotatedVersion ∈ _ by decide)

theorem OneItems.accepted [Host] (h : OneItems N metric' items) (w : LintRatchetWorkflowVocabulary) :
    Accepted w (oneBaseline metric files items : LintRatchetBaseline N) :=
  ⟨_, h.parsed w⟩

theorem OneItems.itemsValid (h : OneItems N metric items) :
    ItemsValid (oneBaseline metric files items : LintRatchetBaseline N) := by
  intro testId test ht path item hi
  obtain ⟨rfl, rfl⟩ := oneTest_of_own ht
  rw [own_oneTest h.nodup] at hi
  exact h.valid _ ((Entries.mem_iff_lookup h.nodup).2 hi)

omit [JsNumber N] in
theorem builtFrom_one :
    BuiltFrom [oneRatchet N metric files'] (oneBaseline metric files items) where
  ids testId := by
    rw [Record.mem_keys]
    simp only [own_oneBaseline, List.map_cons, List.map_nil, List.mem_singleton, oneRatchet]
    by_cases h : testId = js "ratchet/one" <;> simp [h]
  agrees ratchet hr test ht := by
    obtain rfl := List.mem_singleton.1 hr
    obtain ⟨-, rfl⟩ := oneTest_of_own ht
    exact ⟨rfl, rfl⟩

end OneRatchet

/-- Every number is exact among the evaluated ones. -/
theorem exact_numeral (n : Nat) : Exact Numeral n := rfl

theorem itemWellFormed_numeral {item : LintRatchetMetricItem} (hl : item.lines ≠ some ⊤)
    (hf : ∀ fs ∈ item.perFunction, ∀ f ∈ fs, f.label ≠ [])
    (hs : ∀ s ∈ item.messagesFingerprint, isSha256Hash s = true) : ItemWellFormed Numeral item where
  count := exact_numeral _
  lines l hl' := by
    obtain ⟨n, hn⟩ := ENat.ne_top_iff_exists.1 fun he : l = ⊤ => hl (he ▸ hl')
    exact ⟨n, hn.symm, exact_numeral n⟩
  maxComplexity m _ := exact_numeral m
  perFunction fs hfs f hf' := ⟨exact_numeral _, hf fs hfs f hf', exact_numeral _⟩
  messagesFingerprint := hs

/-! ## One ratchet over one file -/

/-- The commands of the examples. -/
def plainVocabulary : LintRatchetWorkflowVocabulary where
  updateCommand := js "update"
  installMergeDriverCommand := js "install"
  restoreBaselineOursCommand file := js "restore " ++ file

def onePath : JsString := js "src/a.ts"

def oneFileTest (metric : LintRatchetMetric) (item : LintRatchetMetricItem) :
    LintRatchetBaselineTest Numeral := oneTest metric [onePath] [(onePath, item)]

def oneFile (metric : LintRatchetMetric) (item : LintRatchetMetricItem) :
    LintRatchetBaseline Numeral := oneBaseline metric [onePath] [(onePath, item)]

def oneFileRatchet (metric : LintRatchetMetric) : LintRatchetConfig Numeral :=
  oneRatchet Numeral metric [onePath]

/-- An item that a ratchet over one file can have. -/
def OneItem (metric : LintRatchetMetric) (item : LintRatchetMetricItem) : Prop :=
  OneItems Numeral metric [(onePath, item)]

variable {metric : LintRatchetMetric} {item : LintRatchetMetricItem}

@[simp] theorem own_oneFile : (oneFile metric item).tests.own (js "ratchet/one") =
    some (oneFileTest metric item) := own_oneBaseline_self

@[simp] theorem own_oneFileTest : (oneFileTest metric item).items.own onePath = some item := by
  rw [oneFileTest, own_oneTest (by simp)]
  simp

theorem OneItem.of_valid (hwf : ItemWellFormed Numeral item) (hc : 0 < item.count)
    (hv : ItemValid metric item) : OneItem metric item where
  nodup := by simp
  paths := by
    simp only [List.mem_singleton, forall_eq]
    exact show isNormalizedPath onePath = true ∧ onePath ≠ js "__proto__" by decide
  item := by simpa using ⟨hwf, hc⟩
  valid := by simpa using hv

theorem OneItem.parsed [Host] (h : OneItem metric item) (w : LintRatchetWorkflowVocabulary) :
    parseLintRatchetBaselineStructure (baselineText (oneFile metric item)) w =
      .ok (oneFile metric item) := OneItems.parsed h w

theorem OneItem.accepted [Host] (h : OneItem metric item) (w : LintRatchetWorkflowVocabulary) :
    Accepted w (oneFile metric item) := OneItems.accepted h w

theorem OneItem.itemsValid (h : OneItem metric item) : ItemsValid (oneFile metric item) :=
  OneItems.itemsValid h

theorem builtFrom_oneFile : BuiltFrom [oneFileRatchet metric] (oneFile metric item) := builtFrom_one

/-- The item of a list of functions. -/
def complexityItem (fs : ComplexityFunctions) : LintRatchetMetricItem where
  count := fs.length
  maxComplexity := maxComplexityFor (some fs)
  perFunction := some fs

theorem oneItem_complexity (hne : fs ≠ []) (hl : ∀ f ∈ fs, f.label ≠ []) :
    OneItem .complexitySeverity (complexityItem fs) := by
  refine .of_valid (itemWellFormed_numeral (by simp [complexityItem])
    (by simpa [complexityItem] using hl) (by simp [complexityItem])) (List.length_pos_iff.2 hne) ?_
  cases fs with
  | nil => exact absurd rfl hne
  | cons f fs =>
    intro location
    simp [validateMetricItem, complexityItem, failWhen, onlyForEffectiveLineCount,
      onlyForMessageCount, maxComplexityFor]

/-- An item of the count alone. -/
theorem oneItem_count (hc : 0 < count) : OneItem .messageCount { count } :=
  .of_valid (itemWellFormed_numeral (by simp) (by simp) (by simp)) hc
    (itemValid_messageCount.2 ⟨rfl, rfl, rfl⟩)

end Musi.LintRatchet
