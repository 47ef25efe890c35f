import Musi.Js.PosixPath

namespace Musi.CodeIntel
open Musi.Js
set_option autoImplicit true

def star : UInt16 := unit '*'

def dollar : UInt16 := unit '$'

/-! ## String.prototype.replaceAll -/

/-- The units after a dollar sign that a replacement text does not keep: another one, an ampersand, a
grave accent and an apostrophe. -/
def isReplacementEscape (c : UInt16) : Bool :=
  c = dollar || c = unit '&' || c = 0x60 || c = 0x27

/-- What a replacement text stands for where it replaces a match between two texts. The pattern is
no expression, so a dollar sign before a digit or an angle bracket is kept. -/
def getSubstitution (matched before after : JsString) : JsString → JsString
  | c :: d :: rest =>
    if c = dollar ∧ d = dollar then dollar :: getSubstitution matched before after rest
    else if c = dollar ∧ d = unit '&' then matched ++ getSubstitution matched before after rest
    else if c = dollar ∧ d = 0x60 then before ++ getSubstitution matched before after rest
    else if c = dollar ∧ d = 0x27 then after ++ getSubstitution matched before after rest
    else c :: getSubstitution matched before after (d :: rest)
  | s => s

/-- replaceAll of one code unit, from a position on. -/
def replaceAllFrom (pattern : UInt16) (replacement before : JsString) : JsString → JsString
  | [] => []
  | c :: s =>
    (if c = pattern then getSubstitution [c] before s replacement else [c]) ++
      replaceAllFrom pattern replacement (before ++ [c]) s

def replaceAll (s : JsString) (pattern : UInt16) (replacement : JsString) : JsString :=
  replaceAllFrom pattern replacement [] s

/-- The text with every match replaced by the replacement as it is. -/
def substitute (s : JsString) (pattern : UInt16) (replacement : JsString) : JsString :=
  s.flatMap fun c => if c = pattern then replacement else [c]

/-! ## Resolving a package specifier -/

structure ExportRule where
  exportPattern : JsString
  packageName : JsString
  packageRoot : JsString
  sourcePatterns : List JsString

/-- What the resolver asks the file system. -/
structure ResolverHost where
  cwd : JsString
  fileExists : JsString → Bool

/-- path.join of an absolute path and others. -/
def pathJoin (paths : List JsString) : JsString :=
  let joined := join (js "/") (paths.filter fun path => path ≠ [])
  let normalized := slash :: join (js "/") (resolveSegments (splitOn slash joined))
  if endsWith joined (js "/") ∧ normalized ≠ [slash] then normalized ++ [slash] else normalized

def jsExtensions : List JsString := [js ".js", js ".jsx", js ".mjs", js ".cjs"]

/-- The path without its last units. -/
def dropEnd (path extension : JsString) : JsString := path.take (path.length - extension.length)

/-- The candidates before they are resolved. -/
def candidatePaths (basePath : JsString) : List JsString :=
  if endsWith basePath (js ".d.ts") then
    let withoutDts := dropEnd basePath (js ".d.ts")
    [withoutDts ++ js ".ts", withoutDts ++ js ".tsx"]
  else match jsExtensions.find? fun extension => endsWith basePath extension with
    | some extension =>
      let withoutExtension := dropEnd basePath extension
      [withoutExtension ++ js ".ts", withoutExtension ++ js ".tsx"]
    | none =>
      if endsWith basePath (js ".ts") then [basePath, dropEnd basePath (js ".ts") ++ js ".tsx"]
      else if endsWith basePath (js ".tsx") then [basePath]
      else [basePath ++ js ".ts", basePath ++ js ".tsx", pathJoin [basePath, js "index.ts"],
        pathJoin [basePath, js "index.tsx"]]

def sourceCandidates (host : ResolverHost) (basePath : JsString) : List JsString :=
  ((candidatePaths basePath).map (resolvePath host.cwd)).eraseDups

def probeSourcePath (host : ResolverHost) (basePath : JsString) : Option JsString :=
  ((sourceCandidates host basePath).find? host.fileExists).map (resolvePath host.cwd)

def packageSubpath (specifier packageName : JsString) : Option JsString :=
  if specifier = packageName then some (js ".")
  else if ¬ startsWith specifier (packageName ++ js "/") then none
  else some (js "./" ++ specifier.drop (packageName ++ js "/").length)

/-- slice of a text between two indices. -/
def slice (s : JsString) (start stop : Nat) : JsString := (s.take stop).drop start

def matchExportPattern (pattern subpath : JsString) : Option JsString :=
  if star ∉ pattern then if pattern = subpath then some [] else none
  else match splitOn star pattern with
    | [before, after] =>
      if ¬ startsWith subpath before ∨ ¬ endsWith subpath after then none
      else some (slice subpath before.length (subpath.length - after.length))
    | _ => none

/-- The path of a source for what the pattern's star stands for. -/
def sourceRelative (sourcePattern capture : JsString) : JsString := replaceAll sourcePattern star capture

def resolveByRule (host : ResolverHost) (repoRoot specifier : JsString) (rule : ExportRule) :
    Option JsString := do
  let subpath ← packageSubpath specifier rule.packageName
  let capture ← matchExportPattern rule.exportPattern subpath
  rule.sourcePatterns.findSome? fun sourcePattern =>
    probeSourcePath host (pathJoin [repoRoot, rule.packageRoot, sourceRelative sourcePattern capture])

def resolvePackageSpecifier (host : ResolverHost) (repoRoot : JsString) (rules : List ExportRule)
    (specifier : JsString) : Option JsString :=
  rules.findSome? (resolveByRule host repoRoot specifier)

/-! ## Replacement texts -/

/-- The text has a dollar sign that replaceAll gives a meaning. -/
def hasReplacementEscape : JsString → Bool
  | c :: d :: rest => (c = dollar && isReplacementEscape d) || hasReplacementEscape (d :: rest)
  | _ => false

theorem isReplacementEscape_iff {c : UInt16} : isReplacementEscape c = true ↔
    c = dollar ∨ c = unit '&' ∨ c = 0x60 ∨ c = 0x27 := by
  simp [isReplacementEscape, or_assoc]

/-- Without such a sign the replacement is the text itself. -/
theorem getSubstitution_of_plain {matched before after : JsString} {replacement : JsString}
    (h : hasReplacementEscape replacement = false) :
    getSubstitution matched before after replacement = replacement := by
  induction replacement using getSubstitution.induct with
  | case1 c d rest hescape _ =>
    rw [hasReplacementEscape, Bool.or_eq_false_iff] at h
    simp [hescape, isReplacementEscape] at h
  | case2 c d rest _ hescape _ =>
    rw [hasReplacementEscape, Bool.or_eq_false_iff] at h
    simp [hescape, isReplacementEscape] at h
  | case3 c d rest _ _ hescape _ =>
    rw [hasReplacementEscape, Bool.or_eq_false_iff] at h
    simp [hescape, isReplacementEscape] at h
  | case4 c d rest _ _ _ hescape _ =>
    rw [hasReplacementEscape, Bool.or_eq_false_iff] at h
    simp [hescape, isReplacementEscape] at h
  | case5 c d rest h1 h2 h3 h4 ih =>
    rw [hasReplacementEscape, Bool.or_eq_false_iff] at h
    rw [getSubstitution, if_neg h1, if_neg h2, if_neg h3, if_neg h4, ih h.2]
  | case6 s hshort =>
    rw [getSubstitution]
    exact hshort

theorem getSubstitution_length (c : UInt16) (replacement : JsString) :
    (getSubstitution [c] [] [] replacement).length ≤ replacement.length ∧
      (hasReplacementEscape replacement = true →
        (getSubstitution [c] [] [] replacement).length < replacement.length) := by
  induction replacement using getSubstitution.induct with
  | case1 c d rest hescape ih =>
    rw [getSubstitution, if_pos hescape]
    simp only [List.length_cons]
    omega
  | case2 c d rest h1 hescape ih =>
    rw [getSubstitution, if_neg h1, if_pos hescape]
    simp only [List.length_append, List.length_cons, List.length_nil]
    omega
  | case3 c d rest h1 h2 hescape ih =>
    rw [getSubstitution, if_neg h1, if_neg h2, if_pos hescape]
    simp only [List.nil_append, List.length_cons]
    omega
  | case4 c d rest h1 h2 h3 hescape ih =>
    rw [getSubstitution, if_neg h1, if_neg h2, if_neg h3, if_pos hescape]
    simp only [List.nil_append, List.length_cons]
    omega
  | case5 c d rest h1 h2 h3 h4 ih =>
    have hplain : (c = dollar && isReplacementEscape d) = false := by
      rw [Bool.and_eq_false_iff, decide_eq_false_iff_not, Bool.eq_false_iff, Ne,
        isReplacementEscape_iff]
      tauto
    rw [getSubstitution, if_neg h1, if_neg h2, if_neg h3, if_neg h4, hasReplacementEscape, hplain,
      Bool.false_or]
    simp only [List.length_cons] at ih ⊢
    exact ⟨Nat.succ_le_succ ih.1, fun h => Nat.succ_lt_succ (ih.2 h)⟩
  | case6 s hshort =>
    have hsame : getSubstitution [c] [] [] s = s := by
      rw [getSubstitution]
      exact hshort
    rw [hsame]
    refine ⟨Nat.le_refl _, fun h => ?_⟩
    rw [hasReplacementEscape] at h
    · cases h
    · exact hshort

theorem replaceAllFrom_of_plain {pattern : UInt16} {replacement before s : JsString}
    (h : hasReplacementEscape replacement = false) :
    replaceAllFrom pattern replacement before s = substitute s pattern replacement := by
  induction s generalizing before with
  | nil => rfl
  | cons c s ih =>
    rw [replaceAllFrom, getSubstitution_of_plain h, ih, substitute, substitute, List.flatMap_cons]

/-! ## Patterns with one star -/

structure StarPattern where
  before : JsString
  after : JsString
  before_plain : star ∉ before
  after_plain : star ∉ after

def StarPattern.text (pattern : StarPattern) : JsString := pattern.before ++ star :: pattern.after

variable (pattern : StarPattern)

/-- The subpath starts and ends as the pattern does, in units that it does not have twice. -/
def StarPattern.Overlaps (subpath : JsString) : Prop :=
  startsWith subpath pattern.before = true ∧ endsWith subpath pattern.after = true ∧
    subpath.length < pattern.before.length + pattern.after.length

theorem substitute_of_plain {s replacement : JsString} (h : star ∉ s) :
    substitute s star replacement = s := by
  induction s with
  | nil => rfl
  | cons c s ih =>
    rw [List.mem_cons, not_or] at h
    rw [substitute, List.flatMap_cons, if_neg (Ne.symm h.1), ← substitute, ih h.2]
    rfl

theorem StarPattern.substitute_text (capture : JsString) :
    substitute pattern.text star capture = pattern.before ++ capture ++ pattern.after := by
  rw [StarPattern.text, substitute, List.flatMap_append, List.flatMap_cons, if_pos rfl,
    ← substitute, ← substitute, substitute_of_plain pattern.before_plain,
    substitute_of_plain pattern.after_plain, List.append_assoc]

theorem StarPattern.matchExportPattern_text (subpath : JsString) :
    matchExportPattern pattern.text subpath =
      if ¬ startsWith subpath pattern.before ∨ ¬ endsWith subpath pattern.after then none
      else some (slice subpath pattern.before.length (subpath.length - pattern.after.length)) := by
  have hstar : star ∈ pattern.text := List.mem_append_right _ List.mem_cons_self
  have hsplit : splitOn star pattern.text = [pattern.before, pattern.after] := by
    rw [StarPattern.text, splitOn_append pattern.before_plain, splitOn_of_notMem pattern.after_plain]
  rw [matchExportPattern, if_neg (not_not.2 hstar), hsplit]

theorem slice_between (before middle after : JsString) :
    slice (before ++ middle ++ after) before.length
      ((before ++ middle ++ after).length - after.length) = middle := by
  have hlength : (before ++ middle ++ after).length - after.length = (before ++ middle).length := by
    rw [List.length_append, Nat.add_sub_cancel]
  rw [slice, hlength, List.take_left, List.drop_left]

/-- Where the ends do not overlap, a match takes out what the star stands for. -/
theorem StarPattern.matchExportPattern_iff {subpath : JsString} (h : ¬ pattern.Overlaps subpath)
    (capture : JsString) : matchExportPattern pattern.text subpath = some capture ↔
      substitute pattern.text star capture = subpath := by
  rw [pattern.matchExportPattern_text, pattern.substitute_text]
  constructor
  · intro hmatch
    split at hmatch
    · cases hmatch
    · next hends =>
      rw [not_or, not_not, not_not] at hends
      obtain ⟨rest, rfl⟩ := startsWith_iff.1 hends.1
      have hlength : pattern.after.length ≤ rest.length := by
        by_contra hlt
        refine h ⟨hends.1, hends.2, ?_⟩
        rw [List.length_append]
        omega
      obtain ⟨middle, rfl⟩ : pattern.after <:+ rest :=
        List.suffix_of_suffix_length_le (endsWith_iff.1 hends.2) (List.suffix_append _ _) hlength
      rw [← List.append_assoc, slice_between, Option.some.injEq] at hmatch
      rw [hmatch, List.append_assoc]
  · rintro rfl
    have hstarts : startsWith (pattern.before ++ capture ++ pattern.after) pattern.before = true :=
      startsWith_iff.2 ⟨capture ++ pattern.after, (List.append_assoc _ _ _).symm⟩
    have hendsWith : endsWith (pattern.before ++ capture ++ pattern.after) pattern.after = true :=
      endsWith_iff.2 (List.suffix_append _ _)
    rw [if_neg (by rw [hstarts, hendsWith]; simp), slice_between]

/-- The pattern is inverted, and every source path has the capture in the place of its stars. -/
def StarPattern.Inverts (subpath : JsString) : Prop :=
  (∀ capture, matchExportPattern pattern.text subpath = some capture ↔
    substitute pattern.text star capture = subpath) ∧
  ∀ capture, matchExportPattern pattern.text subpath = some capture → ∀ sourcePattern,
    sourceRelative sourcePattern capture = substitute sourcePattern star capture

/-- The pattern is inverted exactly where its ends do not overlap in the subpath and what stands for
its star has no dollar sign that replaceAll gives a meaning. -/
theorem matchExportPattern_exact (pattern : StarPattern) (subpath : JsString) :
    pattern.Inverts subpath ↔ ¬ pattern.Overlaps subpath ∧
      ∀ capture, substitute pattern.text star capture = subpath →
        hasReplacementEscape capture = false := by
  constructor
  · rintro ⟨hinverts, hsources⟩
    constructor
    · rintro ⟨hstarts, hendsWith, hlength⟩
      have hmatch := pattern.matchExportPattern_text subpath
      rw [if_neg (by rw [hstarts, hendsWith]; simp)] at hmatch
      have heq := (hinverts _).1 hmatch
      rw [pattern.substitute_text] at heq
      have hle : pattern.before.length + pattern.after.length ≤ subpath.length := by
        rw [← heq, List.length_append, List.length_append]
        omega
      omega
    · intro capture hcapture
      by_contra hescape
      rw [Bool.not_eq_false] at hescape
      have hone := hsources capture ((hinverts capture).2 hcapture) [star]
      have hlt := (getSubstitution_length star capture).2 hescape
      have hreplaced : sourceRelative [star] capture = getSubstitution [star] [] [] capture := by
        rw [sourceRelative, replaceAll, replaceAllFrom, if_pos rfl, replaceAllFrom, List.append_nil]
      have hliteral : substitute [star] star capture = capture := by
        rw [substitute, List.flatMap_cons, if_pos rfl, List.flatMap_nil, List.append_nil]
      rw [hreplaced, hliteral] at hone
      rw [hone] at hlt
      exact absurd hlt (Nat.lt_irrefl _)
  · rintro ⟨hoverlap, hplain⟩
    have hinverts := pattern.matchExportPattern_iff hoverlap
    refine ⟨hinverts, fun capture hmatch sourcePattern => ?_⟩
    exact replaceAllFrom_of_plain (hplain capture ((hinverts capture).1 hmatch))

/-- The specifier of an index that a pattern for the indexes of directories matches. -/
theorem matchExportPattern_exact_fails : ¬ ∀ (pattern : StarPattern) (subpath : JsString),
    pattern.Inverts subpath := by
  intro h
  have hindex := (h ⟨js "./", js "/index", by decide +kernel, by decide +kernel⟩ (js "./index")).1 []
  revert hindex
  decide +kernel

end Musi.CodeIntel
