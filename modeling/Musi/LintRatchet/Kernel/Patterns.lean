import Musi.Js.Text

namespace Musi.LintRatchet
open Musi.Js
set_option autoImplicit true

def isLowerAlphaNumeric (c : UInt16) : Bool := isLowerAlpha c || isDigit c

def isHexDigit (c : UInt16) : Bool := isDigit c || (0x61 ≤ c && c ≤ 0x66)

/-- `[a-z0-9]+(?:-[a-z0-9]+)*` -/
def isKebabName (s : JsString) : Bool :=
  (splitOn (unit '-') s).all fun part => part ≠ [] && part.all isLowerAlphaNumeric

/-- `[a-z0-9][a-z0-9-]*` -/
def isRuleSegment : JsString → Bool
  | [] => false
  | c :: s => isLowerAlphaNumeric c && s.all fun d => isLowerAlphaNumeric d || d = unit '-'

/-- `[a-z0-9][a-z0-9._-]*` -/
def isPackageSegment : JsString → Bool
  | [] => false
  | c :: s => isLowerAlphaNumeric c &&
      s.all fun d => isLowerAlphaNumeric d || d = unit '.' || d = unit '_' || d = unit '-'

/-- RATCHET_ID_PATTERN -/
def isRatchetId (s : JsString) : Bool :=
  startsWith s (js "ratchet/") && isKebabName (s.drop (js "ratchet/").length)

/-- LOCAL_RULE_ID_PATTERN -/
def isLocalRuleId (s : JsString) : Bool :=
  startsWith s (js "local/") && isKebabName (s.drop (js "local/").length)

/-- CORE_RULE_ID_PATTERN -/
def isCoreRuleId : JsString → Bool
  | [] => false
  | c :: s => isLowerAlpha c && s.all fun d => isLowerAlphaNumeric d || d = unit '-'

/-- PACKAGE_SPECIFIER_PATTERN -/
def isPackageSpecifier (s : JsString) : Bool :=
  match splitOn (unit '/') s with
  | [name] => isPackageSegment name
  | [scope, name] => scope.head? = some (unit '@') && isPackageSegment scope.tail &&
      isPackageSegment name
  | _ => false

/-- RULE_ID_PATTERN of baseline-hash.ts: a namespaced rule id. -/
def isNamespacedRuleId (s : JsString) : Bool :=
  match splitOn (unit '/') s with
  | first :: second :: rest => (isRuleSegment first || (first.head? = some (unit '@') &&
      isRuleSegment first.tail)) && (second :: rest).all isRuleSegment
  | _ => false

/-- BASELINE_RULE_ID_PATTERN: a bare or a namespaced rule id. -/
def isBaselineRuleId (s : JsString) : Bool := isCoreRuleId s || isNamespacedRuleId s

/-- SHA256_HASH_PATTERN -/
def isSha256Hash (s : JsString) : Bool :=
  startsWith s (js "sha256:") && (s.drop 7).length = 64 && (s.drop 7).all isHexDigit

theorem isRatchetId_iff :
    isRatchetId s = true ↔ ∃ name, s = js "ratchet/" ++ name ∧ isKebabName name = true := by
  rw [isRatchetId, Bool.and_eq_true, startsWith_iff]
  constructor
  · rintro ⟨⟨name, rfl⟩, hk⟩
    exact ⟨name, rfl, by simpa using hk⟩
  · rintro ⟨name, rfl, hk⟩
    exact ⟨List.prefix_append _ _, by simpa using hk⟩

/-- The value of a kebab-case part is a rule segment. -/
theorem isKebabName_segment (h : isKebabName s = true) : isRuleSegment s = true := by
  rw [isKebabName, List.all_eq_true] at h
  have hchar (t : JsString) (ht : ∀ part ∈ splitOn (unit '-') t,
      part.all isLowerAlphaNumeric = true) :
      (t.all fun d => isLowerAlphaNumeric d || d = unit '-') = true := by
    induction t with
    | nil => rfl
    | cons c t ih =>
      rw [List.all_cons]
      by_cases hc : c = unit '-'
      · simp only [splitOn, if_pos hc, List.mem_cons, forall_eq_or_imp] at ht
        simp [hc, ih ht.2]
      · simp only [splitOn, if_neg hc] at ht
        split at ht
        · next he => exact (splitOn_ne_nil _ _ he).elim
        · next p ps he =>
          simp only [List.mem_cons, forall_eq_or_imp, List.all_cons, Bool.and_eq_true] at ht
          rw [ht.1.1, ih (by rw [he]; exact List.forall_mem_cons.2 ⟨ht.1.2, ht.2⟩)]
          rfl
  have hall := hchar s fun part hp => (Bool.and_eq_true _ _ ▸ h part hp).2
  cases s with
  | nil => simp [splitOn] at h
  | cons c s =>
    rw [List.all_cons, Bool.and_eq_true] at hall
    rw [isRuleSegment, hall.2, Bool.and_true]
    by_cases hc : c = unit '-'
    · simp [splitOn, hc] at h
    · simpa [hc] using hall.1

theorem isLocalRuleId_baseline (h : isLocalRuleId s = true) : isBaselineRuleId s = true := by
  rw [isLocalRuleId, Bool.and_eq_true, startsWith_iff] at h
  obtain ⟨⟨name, rfl⟩, hk⟩ := h
  have hseg := isKebabName_segment (s := name) (by simpa using hk)
  have hno : unit '/' ∉ name := by
    intro hm
    cases name with
    | nil => simp at hm
    | cons c t =>
      rw [isRuleSegment, Bool.and_eq_true, List.all_eq_true] at hseg
      rcases List.mem_cons.1 hm with rfl | hm
      · exact absurd hseg.1 (by decide)
      · exact absurd (hseg.2 _ hm) (by decide)
  have hsplit : splitOn (unit '/') (js "local/" ++ name) = [js "local", name] := by
    have := splitOn_append (c := unit '/') (s := js "local") (t := name) (by decide)
    rw [splitOn_of_notMem hno] at this
    exact this
  rw [isBaselineRuleId, isNamespacedRuleId, hsplit]
  simp [hseg, show isRuleSegment (js "local") = true by decide]

theorem isSha256Hash_append (hl : s.length = 64) (hx : ∀ c ∈ s, isHexDigit c = true) :
    isSha256Hash (js "sha256:" ++ s) = true := by
  have hdrop : (js "sha256:" ++ s).drop 7 = s := by
    have : (js "sha256:").length = 7 := by decide
    rw [← this, List.drop_left]
  rw [isSha256Hash, hdrop, Bool.and_eq_true, Bool.and_eq_true, startsWith_iff]
  exact ⟨⟨List.prefix_append _ _, by simpa using hl⟩, List.all_eq_true.2 hx⟩

end Musi.LintRatchet
