import Mathlib.Data.List.ReduceOption
import Musi.LintRatchet.Kernel.CurrentCollector
import Musi.LintRatchet.Kernel.MetricFacts

namespace Musi.LintRatchet
open Musi.Js
set_option autoImplicit true

variable {N : Type} [JsNumber N]

/-! ## The findings of a run -/

/-- The messages of the results, each with the file it is in. -/
def located (results : List (ESLintFileResult N)) : List (JsString × ESLintMessage N) :=
  results.flatMap fun result => result.messages.map fun message => (result.filePath, message)

/-- What a message of the rule adds to the item of its file. -/
structure Finding (N : Type) where
  path : JsString
  line : Option N
  metric : MetricFinding
  identity : Option JsString

section Host
variable [Host]

def findingFor (ratchet : LintRatchetConfig N) (repoRootPath filePath : JsString)
    (message : ESLintMessage N) (metric : MetricFinding) : Finding N where
  path := relativePathForRoot filePath repoRootPath
  line := message.line
  metric := metric
  identity := if recordsMessageIdentity ratchet.metric then
      messageIdentityForFinding metric.message metric.messageId
        ⟨filePath, message.line, message.column⟩ repoRootPath
    else none

/-- The finding of a message; a message of another rule is none. -/
def findingOf (ratchet : LintRatchetConfig N) (repoRootPath : JsString)
    (x : JsString × ESLintMessage N) : Except JsString (Option (Finding N)) :=
  let path := relativePathForRoot x.1 repoRootPath
  if isFatalMessage x.2 then
    .error (js "ESLint could not parse " ++ path ++ js ": " ++ x.2.message)
  else if x.2.ruleId ≠ some ratchet.ruleId then .ok none
  else (reduceMessage ratchet path x.2).map fun metric =>
    some (findingFor ratchet repoRootPath x.1 x.2 metric)

end Host

def Collected.add (collected : Collected N) : Option (Finding N) → Collected N
  | none => collected
  | some finding =>
    { items := addFinding collected.items finding.path finding.line finding.metric
      messageIdentitiesByPath := match finding.identity with
        | none => collected.messageIdentitiesByPath
        | some identity => collected.messageIdentitiesByPath.set finding.path
            ((collected.messageIdentitiesByPath.get finding.path).getD [] ++ [identity]) }

/-- The identities that findings record, with their paths. -/
def identitiesOf (findings : List (Finding N)) : List (JsString × JsString) :=
  findings.filterMap fun finding => finding.identity.map fun identity => (finding.path, identity)

/-- What the loop has collected after some findings. -/
def collectedOf (findings : List (Finding N)) : Collected N where
  items := groupFold Finding.path (fun item finding => nextItem finding.line finding.metric item)
    .empty findings
  messageIdentitiesByPath :=
    groupFold Prod.fst (fun identities e => identities.getD [] ++ [e.2]) .empty
      (identitiesOf findings)

theorem collectedOf_append (findings : List (Finding N)) (finding : Finding N) :
    (collectedOf findings).add (some finding) = collectedOf (findings ++ [finding]) := by
  rw [Collected.add, collectedOf, collectedOf, groupFold, groupFold, groupFold, groupFold,
    identitiesOf, identitiesOf, List.foldl_append, List.filterMap_append, List.foldl_append]
  cases hidentity : finding.identity with
  | none =>
    rw [List.filterMap_cons_none (by rw [hidentity]; rfl)]
    rfl
  | some identity =>
    rw [List.filterMap_cons_some (b := (finding.path, identity)) (by rw [hidentity]; rfl)]
    rfl

theorem foldl_add (found : List (Option (Finding N))) :
    found.foldl Collected.add {} = collectedOf found.reduceOption := by
  induction found using List.reverseRecOn with
  | nil => rfl
  | append_singleton found o ih =>
    rw [List.foldl_append, ih, List.foldl_cons, List.foldl_nil, List.reduceOption_append]
    cases o with
    | none => simp [Collected.add]
    | some finding => exact collectedOf_append _ finding

section Host
variable [Host]

theorem collectMessage_eq (ratchet : LintRatchetConfig N) (repoRootPath : JsString)
    (collected : Collected N) (x : JsString × ESLintMessage N) :
    collectMessage ratchet repoRootPath x.1 collected x.2 =
      (findingOf ratchet repoRootPath x).map collected.add := by
  unfold collectMessage findingOf
  dsimp only
  split
  · rfl
  · split
    · rfl
    · cases reduceMessage ratchet (relativePathForRoot x.1 repoRootPath) x.2 with
      | error e => rfl
      | ok metric =>
        refine congrArg (fun m => Except.ok (Collected.mk _ m)) ?_
        rw [recordMessageIdentity, findingFor]
        dsimp only
        split
        · cases messageIdentityForFinding metric.message metric.messageId
            (⟨x.1, x.2.line, x.2.column⟩ : MessageIdentityLocation N) repoRootPath <;> rfl
        · rfl

theorem foldlM_collectResult (ratchet : LintRatchetConfig N) (repoRootPath : JsString)
    (results : List (ESLintFileResult N)) (collected : Collected N) :
    results.foldlM (collectResult ratchet repoRootPath) collected =
      (located results).foldlM (fun c x => (findingOf ratchet repoRootPath x).map c.add)
        collected := by
  induction results generalizing collected with
  | nil => rfl
  | cons result results ih =>
    have hlocated : located (result :: results) =
        (result.messages.map fun message => (result.filePath, message)) ++ located results := rfl
    rw [List.foldlM_cons, hlocated, List.foldlM_append, List.foldlM_map]
    simp only [← collectMessage_eq] at ih ⊢
    exact congrArg (collectResult ratchet repoRootPath collected result >>= ·) (funext ih)

/-- The items of findings. -/
def itemsOf (findings : List (Finding N)) : JsMap (LintRatchetCurrentItem N) :=
  addMessageFingerprints (collectedOf findings).items (collectedOf findings).messageIdentitiesByPath

/-- The collector reads every message, or throws, and folds the findings. -/
theorem itemsFromResults_eq (ratchet : LintRatchetConfig N) (repoRootPath : JsString)
    (results : List (ESLintFileResult N)) : itemsFromResults ratchet results repoRootPath =
      ((located results).mapM (findingOf ratchet repoRootPath)).map fun found =>
        itemsOf found.reduceOption := by
  rw [itemsFromResults, foldlM_collectResult, foldlM_map]
  cases (located results).mapM (findingOf ratchet repoRootPath) with
  | error e => rfl
  | ok found =>
    have hadd := foldl_add found
    exact congrArg (fun c => Except.ok (addMessageFingerprints c.items c.messageIdentitiesByPath)) hadd

end Host

/-! ## The item of a path -/

theorem maxLines_comm (a b : ℕ∞) : maxLines a b = maxLines b a := by
  grind [maxLines]

theorem maxLines_right_comm (a b c : ℕ∞) :
    maxLines (maxLines a b) c = maxLines (maxLines a c) b := by
  grind [maxLines]

/-- The largest of some line counts. -/
def largest (lines : List ℕ∞) : Option ℕ∞ :=
  lines.foldl (fun best line => some ((best.map (maxLines · line)).getD line)) none

theorem largest_perm {lines lines' : List ℕ∞} (h : lines.Perm lines') :
    largest lines = largest lines' := by
  refine h.foldl_eq' (fun a _ b _ best => ?_) none
  cases best with
  | none => simp [maxLines_comm]
  | some best => simp [maxLines_right_comm]

/-- A list, or undefined for want of members. -/
def listed (functions : ComplexityFunctions) : Option ComplexityFunctions :=
  if functions = [] then none else some functions

/-- What the loop makes of the findings of one path. -/
structure ItemOf (findings : List (Finding N)) (item : LintRatchetMetricItem) : Prop where
  count : item.count = findings.length
  lines : item.lines = largest (findings.filterMap fun f => f.metric.lines)
  maxComplexity : item.maxComplexity = none
  perFunction : item.perFunction = listed (findings.filterMap fun f => f.metric.complexity)
  messagesFingerprint : item.messagesFingerprint = none

def itemFor (findings : List (Finding N)) : Option (LintRatchetCurrentItem N) :=
  findings.foldl (fun item f => some (nextItem f.line f.metric item)) none

theorem largest_append (lines : List ℕ∞) (line : ℕ∞) :
    largest (lines ++ [line]) = some (((largest lines).map (maxLines · line)).getD line) := by
  simp [largest]

theorem listed_append (functions : ComplexityFunctions) (f : LintRatchetComplexityFunction) :
    listed (functions ++ [f]) = some ((listed functions).getD [] ++ [f]) := by
  rw [listed, if_neg (by simp), listed]
  split
  · next h => rw [h]; rfl
  · rfl

/-- Without findings there is no item. -/
theorem itemFor_itemOf (findings : List (Finding N)) :
    (findings = [] ∧ itemFor findings = none) ∨
      ∃ item, itemFor findings = some item ∧ ItemOf findings item.toLintRatchetMetricItem := by
  induction findings using List.reverseRecOn with
  | nil => exact .inl ⟨rfl, rfl⟩
  | append_singleton findings f ih =>
    have hnext : itemFor (findings ++ [f]) = some (nextItem f.line f.metric (itemFor findings)) := by
      simp [itemFor]
    have hprevious : ((itemFor findings).map fun item => item.count).getD 0 = findings.length ∧
        ((itemFor findings).bind (·.lines)) = largest (findings.filterMap fun f => f.metric.lines) ∧
        ((itemFor findings).bind (·.perFunction)) =
          listed (findings.filterMap fun f => f.metric.complexity) := by
      rcases ih with ⟨rfl, hnone⟩ | ⟨item, hitem, h⟩
      · rw [hnone]
        exact ⟨rfl, rfl, rfl⟩
      · rw [hitem]
        exact ⟨h.count, h.lines, h.perFunction⟩
    obtain ⟨hcount, hlines, hfunctions⟩ := hprevious
    refine .inr ⟨_, hnext, ?_, ?_, rfl, ?_, rfl⟩
    · rw [List.length_append, ← hcount]
      rfl
    · rw [List.filterMap_append]
      simp only [nextItem, mergeLines, hlines]
      cases hf : f.metric.lines with
      | none => simp [hf]
      | some line =>
        have hone : [f].filterMap (fun f => f.metric.lines) = [line] := by simp [hf]
        rw [hone, largest_append]
        cases largest (findings.filterMap fun f => f.metric.lines) <;> rfl
    · rw [List.filterMap_append]
      simp only [nextItem, mergePerFunction, hfunctions]
      cases hf : f.metric.complexity with
      | none => simp [hf]
      | some complexity =>
        have hone : [f].filterMap (fun f => f.metric.complexity) = [complexity] := by simp [hf]
        rw [hone, listed_append]

/-- The identities of one path. -/
def identitiesFor (findings : List (Finding N)) (path : JsString) : List JsString :=
  ((identitiesOf findings).filter fun e => e.1 = path).map Prod.snd

theorem get_identities (findings : List (Finding N)) (path : JsString) :
    ((collectedOf findings).messageIdentitiesByPath.get path).getD [] =
      identitiesFor findings path := by
  have happend (es : List (JsString × JsString)) (o : Option (List JsString)) :
      (es.foldl (fun o e => some (o.getD [] ++ [e.2])) o).getD [] = o.getD [] ++ es.map Prod.snd := by
    induction es generalizing o with
    | nil => simp
    | cons e es ih => simp [ih]
  rw [collectedOf, get_groupFold, happend]
  rfl

section Host
variable [Host]

def stampFingerprint (identities : List JsString) (item : LintRatchetCurrentItem N) :
    LintRatchetCurrentItem N :=
  if identities = [] then item
  else { item with messagesFingerprint := some (messageFingerprintFor N identities) }

theorem get_addMessageFingerprint (items : JsMap (LintRatchetCurrentItem N))
    (entry : JsString × List JsString) (path : JsString) :
    (addMessageFingerprint items entry).get path =
      (items.get path).map (if path = entry.1 then stampFingerprint entry.2 else id) := by
  unfold addMessageFingerprint
  by_cases hpath : path = entry.1
  · subst hpath
    cases hitem : items.get entry.1 with
    | none => simp [hitem]
    | some item =>
      by_cases hempty : entry.2 = []
      · simp [hitem, hempty, stampFingerprint]
      · simp [hempty, stampFingerprint]
  · cases items.get entry.1 with
    | none => simp [hpath]
    | some item =>
      by_cases hempty : entry.2 = []
      · simp [hempty, hpath]
      · simp [hempty, hpath]

theorem get_addMessageFingerprints (items : JsMap (LintRatchetCurrentItem N))
    (identitiesByPath : JsMap (List JsString)) (path : JsString) :
    (addMessageFingerprints items identitiesByPath).get path =
      (items.get path).map (stampFingerprint ((identitiesByPath.get path).getD [])) := by
  have hfold (es : Entries (List JsString)) (hn : (Entries.keys es).Nodup)
      (items : JsMap (LintRatchetCurrentItem N)) : (es.foldl addMessageFingerprint items).get path =
        (items.get path).map (stampFingerprint ((es.lookup path).getD [])) := by
    induction es generalizing items with
    | nil =>
      have hsame : stampFingerprint (N := N) [] = id := funext fun item => if_pos rfl
      rw [List.foldl_nil, List.lookup_nil, Option.getD_none, hsame, Option.map_id, id]
    | cons e es ih =>
      rw [Entries.keys_cons, List.nodup_cons] at hn
      rw [List.foldl_cons, ih hn.2, get_addMessageFingerprint, Entries.lookup_cons, Option.map_map]
      by_cases hpath : path = e.1
      · have hlookup : es.lookup path = none := Entries.lookup_none.2 (by rw [hpath]; exact hn.1)
        rw [if_pos hpath, if_pos hpath, hlookup]
        rfl
      · rw [if_neg hpath, if_neg hpath]
        rfl
  exact hfold identitiesByPath.entries identitiesByPath.nodup items

/-- The item of a path is made of the findings of that path alone. -/
theorem get_itemsOf (findings : List (Finding N)) (path : JsString) :
    (itemsOf findings).get path = (itemFor (findings.filter fun f => f.path = path)).map
      (stampFingerprint (identitiesFor findings path)) := by
  rw [itemsOf, get_addMessageFingerprints, get_identities]
  exact congrArg (Option.map (stampFingerprint (identitiesFor findings path)))
    (get_groupFold Finding.path _ .empty findings path)

/-! ## Counting the findings -/

/-- The sum of the counts of some items. -/
def totalCount (items : JsMap (LintRatchetCurrentItem N)) : Nat :=
  (items.entries.map fun e => e.2.count).sum

theorem totalCount_addMessageFingerprint (items : JsMap (LintRatchetCurrentItem N))
    (entry : JsString × List JsString) :
    totalCount (addMessageFingerprint items entry) = totalCount items := by
  unfold addMessageFingerprint
  cases hitem : items.get entry.1 with
  | none => rfl
  | some item =>
    dsimp only
    split
    · rfl
    · have hset := sum_setEntry (fun item : LintRatchetCurrentItem N => item.count) items.entries
        entry.1 { item with messagesFingerprint := some (messageFingerprintFor N entry.2) }
      change _ + ((items.get entry.1).map _).getD 0 = _ at hset
      rw [hitem] at hset
      exact Nat.add_right_cancel hset

/-- Every finding counts once. -/
theorem totalCount_itemsOf (findings : List (Finding N)) :
    totalCount (itemsOf findings) = findings.length := by
  have hstamps (es : Entries (List JsString)) (items : JsMap (LintRatchetCurrentItem N)) :
      totalCount (es.foldl addMessageFingerprint items) = totalCount items := by
    induction es generalizing items with
    | nil => rfl
    | cons e es ih => rw [List.foldl_cons, ih, totalCount_addMessageFingerprint]
  have hfold := sum_groupFold Finding.path
    (fun (item : Option (LintRatchetCurrentItem N)) f => nextItem f.line f.metric item)
    (fun item => item.count) .empty findings fun _ _ => rfl
  rw [itemsOf, addMessageFingerprints, hstamps]
  exact hfold.trans (Nat.zero_add _)

end Host

end Musi.LintRatchet
