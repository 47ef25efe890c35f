import Musi.DriftAi.PathUtil

namespace Musi.DriftAi
open Musi.Js
set_option autoImplicit true

/-- What the language takes from the Unicode tables: `toLowerCase`, known on ASCII. -/
class CaseMapping where
  toLowerCase : JsString → JsString
  toLowerCase_ascii : ∀ s : JsString, (∀ c ∈ s, c < 0x80) → toLowerCase s = s.map asciiLower

/-- Letters beyond ASCII as they are. -/
instance asciiCase : CaseMapping where
  toLowerCase s := s.map asciiLower
  toLowerCase_ascii _ _ := rfl

/-! ## The tokens of a file name -/

def isUpperAlpha (c : UInt16) : Bool := 0x41 ≤ c && c ≤ 0x5A

/-- `[a-zA-Z0-9]` -/
def isAlphanumeric (c : UInt16) : Bool := isLowerAlpha c || isUpperAlpha c || isDigit c

/-- The pieces between the code units that a test holds of. -/
def splitWhere (p : UInt16 → Bool) : JsString → List JsString
  | [] => [[]]
  | c :: s =>
    if p c then [] :: splitWhere p s
    else match splitWhere p s with
      | [] => [[c]]
      | part :: parts => (c :: part) :: parts

/-- `[A-Z]+(?=[A-Z][a-z])|[A-Z]?[a-z]+|[A-Z]+|\d+` at the start of a string: how much it matches,
or nothing. -/
def partLength (s : JsString) : Nat :=
  let uppers := (s.takeWhile isUpperAlpha).length
  let lowers := ((s.drop uppers).takeWhile isLowerAlpha).length
  if uppers ≥ 2 ∧ lowers > 0 then uppers - 1
  else if lowers > 0 then uppers + lowers
  else if uppers > 0 then uppers
  else (s.takeWhile isDigit).length

/-- String.prototype.match of that expression with the g flag. -/
def partsFrom : Nat → JsString → List JsString
  | _, [] => []
  | 0, _ => []
  | fuel + 1, c :: s =>
    let length := partLength (c :: s)
    if length = 0 then partsFrom fuel s
    else (c :: s).take length :: partsFrom fuel ((c :: s).drop length)

/-- The name without its extension. -/
def basenameStem (filename : JsString) : JsString :=
  filename.take (filename.length - (extname filename).length)

section

variable [CaseMapping]

def tokenize (basename : JsString) : List JsString :=
  let segments := (splitWhere (fun c => !isAlphanumeric c) (basenameStem basename)).filter
    fun part => part.length > 0
  segments.flatMap fun segment =>
    let found := partsFrom segment.length segment
    let parts := if found.length > 0 then found else [segment]
    parts.map CaseMapping.toLowerCase

def singularInvariants : List JsString := [js "series", js "species", js "news"]

def singularize (token : JsString) : JsString :=
  if token ∈ singularInvariants then token
  else if token.length > 3 ∧ endsWith token (js "ies") then token.take (token.length - 3) ++ js "y"
  else if token.length > 4 ∧ [js "ses", js "xes", js "zes", js "shes", js "ches"].any (endsWith token) then
    token.take (token.length - 2)
  else if token.length > 2 ∧ endsWith token (js "s") ∧ ¬ endsWith token (js "ss") then
    token.take (token.length - 1)
  else token

def normalizedTokens (basename : JsString) : List JsString := (tokenize basename).map singularize

end

def strongTokens (tokens weakTokens : List JsString) : List JsString :=
  tokens.filter fun token => token ∉ weakTokens

/-- Members of the first list that are in the second, each once. -/
def intersection (a b : List JsString) : List JsString := (a.filter fun item => item ∈ b).eraseDups

example : normalizedTokens (js "HTTPServer-utilities_v2.test.ts") =
    [js "http", js "server", js "utility", js "v", js "2", js "test"] := by decide +kernel

/-! ## Excluded files -/

/-- `\.test\.[cm]?[jt]sx?$` and its like. -/
def peerSuffixes (word : String) : List JsString :=
  [js "", js "c", js "m"].flatMap fun cm => [js "j", js "t"].flatMap fun jt =>
    [js "", js "x"].map fun x => js "." ++ js word ++ js "." ++ cm ++ jt ++ js "s" ++ x

def peerExcludePatterns : List JsString :=
  peerSuffixes "test" ++ peerSuffixes "spec" ++ peerSuffixes "fixture" ++ [js ".d.ts"]

def isExcludedSibling (filename : JsString) : Bool := peerExcludePatterns.any (endsWith filename)

def isExcludedPath (filePath : JsString) : Bool :=
  let segments := splitOn slash (toPosix filePath)
  if js "__tests__" ∈ segments then true
  else if js "fixtures" ∈ segments ∨ js "__fixtures__" ∈ segments then true
  else isExcludedSibling (segments.getLast?.getD [])

/-! ## What a token looks like -/

theorem mem_splitWhere {p : UInt16 → Bool} {s part : JsString} (h : part ∈ splitWhere p s) :
    ∀ c ∈ part, c ∈ s ∧ p c = false := by
  induction s generalizing part with
  | nil =>
    rw [splitWhere, List.mem_singleton] at h
    subst h
    intro c hc
    cases hc
  | cons d s ih =>
    have hrest {part : JsString} (h : part ∈ splitWhere p s) : ∀ c ∈ part, c ∈ d :: s ∧ p c = false :=
      fun c hc => ⟨List.mem_cons_of_mem d (ih h c hc).1, (ih h c hc).2⟩
    rw [splitWhere] at h
    split at h
    · rcases List.mem_cons.1 h with rfl | h
      · intro c hc
        cases hc
      · exact hrest h
    · next hd =>
      have hfirst : ∀ c ∈ [d], c ∈ d :: s ∧ p c = false := by
        intro c hc
        rw [List.mem_singleton.1 hc]
        exact ⟨List.mem_cons_self, Bool.eq_false_iff.2 hd⟩
      split at h
      · rw [List.mem_singleton] at h
        rw [h]
        exact hfirst
      · next first parts hparts =>
        rcases List.mem_cons.1 h with rfl | h
        · intro c hc
          rcases List.mem_cons.1 hc with rfl | hc
          · exact hfirst c List.mem_cons_self
          · exact hrest (hparts ▸ List.mem_cons_self) c hc
        · exact hrest (hparts ▸ List.mem_cons_of_mem first h)

theorem mem_partsFrom {fuel : Nat} {s part : JsString} (h : part ∈ partsFrom fuel s) :
    part ≠ [] ∧ ∀ c ∈ part, c ∈ s := by
  induction fuel generalizing s with
  | zero => cases s <;> cases h
  | succ fuel ih =>
    cases s with
    | nil => cases h
    | cons d s =>
      rw [partsFrom] at h
      split at h
      · exact ⟨(ih h).1, fun c hc => List.mem_cons_of_mem d ((ih h).2 c hc)⟩
      · next hlength =>
        rcases List.mem_cons.1 h with rfl | h
        · refine ⟨?_, fun c hc => List.mem_of_mem_take hc⟩
          rw [Ne, List.take_eq_nil_iff]
          rintro (hzero | hnil)
          · exact hlength hzero
          · cases hnil
        · exact ⟨(ih h).1, fun c hc => List.mem_of_mem_drop ((ih h).2 c hc)⟩

theorem isAlphanumeric_lt {c : UInt16} (h : isAlphanumeric c = true) : c < 0x80 := by
  simp only [isAlphanumeric, isLowerAlpha, isUpperAlpha, isDigit, Bool.or_eq_true, Bool.and_eq_true,
    decide_eq_true_eq, UInt16.le_iff_toNat_le] at h
  rw [UInt16.lt_iff_toNat_lt]
  rcases h with (h | h) | h
  · exact h.2.trans_lt (by decide)
  · exact h.2.trans_lt (by decide)
  · exact h.2.trans_lt (by decide)

theorem isAlphanumeric_asciiLower {c : UInt16} (h : isAlphanumeric c = true) :
    isAlphanumeric (asciiLower c) = true := by
  have hlt : c.toNat < 0x80 := UInt16.lt_iff_toNat_lt.1 (isAlphanumeric_lt h)
  have hall : ∀ n, n < 0x80 → isAlphanumeric (UInt16.ofNat n) = true →
      isAlphanumeric (asciiLower (UInt16.ofNat n)) = true := by decide +kernel
  have := hall c.toNat hlt
  rw [UInt16.ofNat_toNat] at this
  exact this h

variable [CaseMapping]

/-- A token is a letter or a digit, and more of them. -/
def IsToken (token : JsString) : Prop := token ≠ [] ∧ ∀ c ∈ token, isAlphanumeric c = true

theorem isToken_tokenize {basename token : JsString} (h : token ∈ tokenize basename) :
    IsToken token := by
  obtain ⟨segment, hsegment, htoken⟩ := List.mem_flatMap.1 h
  obtain ⟨part, hpart, rfl⟩ := List.mem_map.1 htoken
  obtain ⟨hsplit, hlength⟩ := List.mem_filter.1 hsegment
  have hunits : part ≠ [] ∧ ∀ c ∈ part, c ∈ segment := by
    split at hpart
    · exact mem_partsFrom hpart
    · rw [List.mem_singleton.1 hpart]
      exact ⟨List.ne_nil_of_length_pos (of_decide_eq_true hlength), fun c hc => hc⟩
  have halnum : ∀ c ∈ part, isAlphanumeric c = true := by
    intro c hc
    have := (mem_splitWhere hsplit c (hunits.2 c hc)).2
    simpa using this
  rw [CaseMapping.toLowerCase_ascii part fun c hc => isAlphanumeric_lt (halnum c hc)]
  refine ⟨fun hnil => hunits.1 (List.map_eq_nil_iff.1 hnil), fun c hc => ?_⟩
  obtain ⟨d, hd, rfl⟩ := List.mem_map.1 hc
  exact isAlphanumeric_asciiLower (halnum d hd)

omit [CaseMapping] in
theorem IsToken.take {token : JsString} (h : IsToken token) {n : Nat} (hn : 0 < n) :
    IsToken (token.take n) := by
  refine ⟨fun hnil => ?_, fun c hc => h.2 c (List.mem_of_mem_take hc)⟩
  rcases List.take_eq_nil_iff.1 hnil with hzero | hnil
  · omega
  · exact h.1 hnil

omit [CaseMapping] in
theorem IsToken.singularize {token : JsString} (h : IsToken token) : IsToken (singularize token) := by
  rw [DriftAi.singularize]
  split
  · exact h
  · split
    · next hies =>
      refine ⟨List.append_ne_nil_of_right_ne_nil _ (by decide), fun c hc => ?_⟩
      rcases List.mem_append.1 hc with hc | hc
      · exact h.2 c (List.mem_of_mem_take hc)
      · have hy : js "y" = [unit 'y'] := rfl
        rw [hy, List.mem_singleton] at hc
        rw [hc]
        decide
    · split
      · next hlength => exact h.take (by omega)
      · split
        · next hlength => exact h.take (by omega)
        · exact h

theorem isToken_normalizedTokens {basename token : JsString} (h : token ∈ normalizedTokens basename) :
    IsToken token := by
  obtain ⟨raw, hraw, rfl⟩ := List.mem_map.1 h
  exact (isToken_tokenize hraw).singularize

end Musi.DriftAi
