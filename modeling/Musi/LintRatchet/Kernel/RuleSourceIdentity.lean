import Musi.System.PrefixCode
import Musi.LintRatchet.Kernel.RuleSourceReachability

namespace Musi.LintRatchet
open Musi.Js Musi.System
set_option autoImplicit true

/-! ## The bytes of a path -/

theorem codePoints_bounds {s : JsString} {x : Nat} (h : x ∈ codePoints s) :
    x < 0x110000 ∧ (x = 0 → (0 : UInt16) ∈ s) := by
  induction s using codePoints.induct with
  | case1 => exact absurd h List.not_mem_nil
  | case2 a =>
    rw [codePoints, List.mem_singleton] at h
    subst h
    have := a.toNat_lt
    exact ⟨by omega, fun h0 => List.mem_singleton.2 (UInt16.toNat_inj.1 h0).symm⟩
  | case3 a b s hp ih =>
    rw [codePoints, if_pos hp, List.mem_cons] at h
    rw [Bool.and_eq_true] at hp
    rcases h with rfl | h
    · have hlow := (pairCodePoint_bounds hp.1 hp.2).1
      refine ⟨?_, fun h0 => by omega⟩
      have ha := a.toNat_lt
      have hb := b.toNat_lt
      simp only [isHighSurrogate, isLowSurrogate, Bool.and_eq_true, decide_eq_true_eq,
        UInt16.le_iff_toNat_le] at hp
      have ha' : a.toNat ≤ 0xDBFF := hp.1.2
      have hb' : b.toNat ≤ 0xDFFF := hp.2.2
      unfold pairCodePoint
      omega
    · obtain ⟨hbound, hzero⟩ := ih h
      exact ⟨hbound, fun h0 => List.mem_cons_of_mem _ (List.mem_cons_of_mem _ (hzero h0))⟩
  | case4 a b s hp ih =>
    rw [codePoints, if_neg hp, List.mem_cons] at h
    rcases h with rfl | h
    · have := a.toNat_lt
      refine ⟨by omega, fun h0 => ?_⟩
      have ha : a = 0 := UInt16.toNat_inj.1 h0
      exact ha ▸ List.mem_cons_self
    · obtain ⟨hbound, hzero⟩ := ih h
      exact ⟨hbound, fun h0 => List.mem_cons_of_mem _ (hzero h0)⟩

theorem ofNat_ne_zero {n : Nat} (h0 : 0 < n) (hn : n < 256) : (0 : UInt8) ≠ UInt8.ofNat n := by
  intro h
  have hnat := congrArg UInt8.toNat h
  rw [UInt8.toNat_ofNat', Nat.mod_eq_of_lt hn] at hnat
  exact h0.ne hnat

theorem zero_notMem_utf8 {x : Nat} (hx : x < 0x110000) (h0 : x ≠ 0) : 0 ∉ utf8 x := by
  rw [utf8]
  dsimp only
  generalize hc : (if 0xD800 ≤ x ∧ x ≤ 0xDFFF then 0xFFFD else x) = c
  have hbounds : 0 < c ∧ c < 0x110000 := by
    split at hc
    · omega
    · omega
  have hcontinuation (shift : Nat) : (0 : UInt8) ≠ UInt8.ofNat (0x80 + c / shift % 64) :=
    ofNat_ne_zero (by omega) (by omega)
  split
  · simp only [List.mem_cons, List.not_mem_nil, or_false]
    exact ofNat_ne_zero hbounds.1 (by omega)
  · split
    · simp only [List.mem_cons, List.not_mem_nil, or_false, not_or]
      exact ⟨ofNat_ne_zero (by omega) (by omega), hcontinuation 1⟩
    · split
      · simp only [List.mem_cons, List.not_mem_nil, or_false, not_or]
        exact ⟨ofNat_ne_zero (by omega) (by omega), hcontinuation 64, hcontinuation 1⟩
      · simp only [List.mem_cons, List.not_mem_nil, or_false, not_or]
        exact ⟨ofNat_ne_zero (by omega) (by omega), hcontinuation 4096, hcontinuation 64,
          hcontinuation 1⟩

theorem zero_notMem_utf8Bytes {s : JsString} (h : (0 : UInt16) ∉ s) : 0 ∉ utf8Bytes s := by
  rw [utf8Bytes, List.mem_flatMap]
  rintro ⟨x, hx, hmem⟩
  obtain ⟨hbound, hzero⟩ := codePoints_bounds hx
  exact zero_notMem_utf8 hbound (fun h0 => h (hzero h0)) hmem

/-- A host whose paths hold no NUL, as no path of a file system does. -/
structure NulFree (host : ClosureHost) : Prop where
  cwd : (0 : UInt16) ∉ host.cwd
  paths : ∀ p, host.fileSystem.pathExists p = true → (0 : UInt16) ∉ p

theorem NulFree.relativePath {host : ClosureHost} (h : NulFree host) {path : JsString}
    (hex : host.fileSystem.pathExists path = true) (repoRootPath : JsString) :
    (0 : UInt16) ∉ relativePath host.cwd repoRootPath path := by
  intro hmem
  rcases mem_relativePath hmem with h0 | h0 | h0 | h0
  · exact absurd h0 (by decide)
  · exact absurd h0 (by decide)
  · exact h.cwd h0
  · exact h.paths path hex h0

/-! ## The files of a closure, named from the repository root -/

structure RepoFile where
  path : JsString
  source : Bytes
  deriving DecidableEq

def repoFiles (host : ClosureHost) (repoRootPath : JsString) (closure : LocalRuleClosure) :
    List RepoFile :=
  closure.sortedFiles.map fun file =>
    { path := relativePath host.cwd repoRootPath file.path, source := file.source }

/-- Equal closures; of two closures of one file each, the paths may differ. -/
def SameFiles (c d : List RepoFile) : Prop :=
  c = d ∨ ∃ path path' source, c = [⟨path, source⟩] ∧ d = [⟨path', source⟩]

/-- A file with its path as it is written: with slashes, in UTF-8. -/
def RepoFile.record (file : RepoFile) : Bytes × Bytes :=
  (utf8Bytes (file.path.map fun c => if c = unit '\\' then slash else c), file.source)

/-- What keeps two closures apart. A closure of one file is written as its content alone, which
must not be the listing of the other closure; of two longer ones, no content may go on over a NUL
and what the other closure lists there, and no two paths may be written alike. -/
def SpelledApart : List RepoFile → List RepoFile → Prop
  | [_], [_] => True
  | [file], files => file.source ≠ listing 0 (files.map RepoFile.record)
  | files, [file] => file.source ≠ listing 0 (files.map RepoFile.record)
  | c, d =>
    ¬ Swallows 0 (c.map RepoFile.record) (d.map RepoFile.record) ∧
      ¬ Swallows 0 (d.map RepoFile.record) (c.map RepoFile.record) ∧
      (c.map RepoFile.record = d.map RepoFile.record → c.map RepoFile.path = d.map RepoFile.path)

/-! ## The stream of a closure -/

def streamOf : List RepoFile → Bytes
  | [file] => file.source
  | files => listing 0 (files.map RepoFile.record)

theorem closureHashInput_eq (host : ClosureHost) (repoRootPath : JsString)
    (closure : LocalRuleClosure) :
    closureHashInput host.cwd repoRootPath closure.sortedFiles =
      streamOf (repoFiles host repoRootPath closure) := by
  have hlisting (files : List LocalRuleSourceFile) :
      (files.flatMap fun file => utf8Bytes (repoRelativePath host.cwd repoRootPath file.path) ++ [0] ++
        file.source ++ [0]) =
      listing 0 ((files.map fun file => RepoFile.mk (relativePath host.cwd repoRootPath file.path)
        file.source).map RepoFile.record) := by
    induction files with
    | nil => rfl
    | cons file files ih =>
      rw [List.flatMap_cons, ih, List.map_cons, List.map_cons, RepoFile.record, listing]
      simp only [List.append_assoc, List.cons_append, List.nil_append]
      rfl
  rw [repoFiles]
  rcases closure.sortedFiles with _ | ⟨file, _ | ⟨second, files⟩⟩
  · rfl
  · rfl
  · exact hlisting (file :: second :: files)

theorem streamOf_many {files : List RepoFile} (h : files.length ≠ 1) :
    streamOf files = listing 0 (files.map RepoFile.record) := by
  rcases files with _ | ⟨file, _ | ⟨second, files⟩⟩
  · rfl
  · exact absurd rfl h
  · rfl

theorem record_injective {c d : List RepoFile} (hrecords : c.map RepoFile.record = d.map RepoFile.record)
    (hpaths : c.map RepoFile.path = d.map RepoFile.path) : c = d := by
  induction c generalizing d with
  | nil => exact (List.map_eq_nil_iff.1 hrecords.symm).symm
  | cons file c ih =>
    cases d with
    | nil => cases hrecords
    | cons file' d =>
      rw [List.map_cons, List.map_cons, List.cons.injEq] at hrecords hpaths
      have hsource : file.source = file'.source := congrArg Prod.snd hrecords.1
      rw [ih hrecords.2 hpaths.2]
      cases file
      cases file'
      cases hpaths.1
      cases hsource
      rfl

theorem sameFiles_many {c d : List RepoFile} (hc : c.length ≠ 1) : SameFiles c d ↔ c = d := by
  refine ⟨?_, .inl⟩
  rintro (h | ⟨path, path', source, rfl, -⟩)
  · exact h
  · exact absurd rfl hc

theorem SameFiles.length {c d : List RepoFile} (h : SameFiles c d) : c.length = d.length := by
  rcases h with rfl | ⟨path, path', source, rfl, rfl⟩
  · rfl
  · rfl

theorem spelledApart_many {c d : List RepoFile} (hc : c.length ≠ 1) (hd : d.length ≠ 1) :
    SpelledApart c d ↔ ¬ Swallows 0 (c.map RepoFile.record) (d.map RepoFile.record) ∧
      ¬ Swallows 0 (d.map RepoFile.record) (c.map RepoFile.record) ∧
      (c.map RepoFile.record = d.map RepoFile.record → c.map RepoFile.path = d.map RepoFile.path) := by
  rcases c with _ | ⟨file, _ | ⟨second, c⟩⟩
  · rcases d with _ | ⟨file, _ | ⟨second, d⟩⟩
    · rfl
    · exact absurd rfl hd
    · rfl
  · exact absurd rfl hc
  · rcases d with _ | ⟨file, _ | ⟨second, d⟩⟩
    · rfl
    · exact absurd rfl hd
    · rfl

/-- The streams of two lists of files tell them apart exactly where they are spelled apart. -/
theorem streamOf_faithful {c d : List RepoFile} (hc : ∀ file ∈ c, 0 ∉ file.record.1)
    (hd : ∀ file ∈ d, 0 ∉ file.record.1) :
    (streamOf c = streamOf d → SameFiles c d) ↔ SpelledApart c d := by
  by_cases hone : c.length = 1
  · obtain ⟨file, rfl⟩ := List.length_eq_one_iff.1 hone
    by_cases htwo : d.length = 1
    · obtain ⟨file', rfl⟩ := List.length_eq_one_iff.1 htwo
      refine iff_of_true (fun h => .inr ⟨file.path, file'.path, file.source, rfl, ?_⟩) trivial
      have hsource : file.source = file'.source := h
      rw [hsource]
    · have hapart : SpelledApart [file] d ↔ file.source ≠ listing 0 (d.map RepoFile.record) := by
        rcases d with _ | ⟨second, _ | ⟨third, d⟩⟩
        · rfl
        · exact absurd rfl htwo
        · rfl
      rw [hapart, streamOf_many htwo]
      constructor
      · exact fun h heq => htwo (h heq).length.symm
      · exact fun h heq => absurd heq h
  · by_cases htwo : d.length = 1
    · obtain ⟨file, rfl⟩ := List.length_eq_one_iff.1 htwo
      have hapart : SpelledApart c [file] ↔ file.source ≠ listing 0 (c.map RepoFile.record) := by
        rcases c with _ | ⟨second, _ | ⟨third, c⟩⟩
        · rfl
        · exact absurd rfl hone
        · rfl
      rw [hapart, streamOf_many hone]
      constructor
      · exact fun h heq => hone (h heq.symm).length
      · exact fun h heq => absurd heq.symm h
    · rw [spelledApart_many hone htwo, streamOf_many hone, streamOf_many htwo, sameFiles_many hone,
        listing_eq_iff (List.forall_mem_map.2 hc) (List.forall_mem_map.2 hd)]
      constructor
      · intro h
        refine ⟨fun hs => ?_, fun hs => ?_, fun heq => by rw [h (.inl heq)]⟩
        · exact hs.ne (by rw [h (.inr (.inl hs))])
        · exact hs.ne (by rw [h (.inr (.inr hs))])
      · rintro ⟨hs, hs', hpaths⟩ (h | h | h)
        · exact record_injective h (hpaths h)
        · exact absurd h hs
        · exact absurd h hs'

/-- Two closures of more than one file whose contents hold no NUL are spelled apart, but for paths
that are written alike. -/
theorem spelledApart_of_free {c d : List RepoFile} (hc : c.length ≠ 1) (hd : d.length ≠ 1)
    (hfree : ∀ file ∈ c ++ d, 0 ∉ file.source)
    (hpaths : c.map RepoFile.record = d.map RepoFile.record → c.map RepoFile.path = d.map RepoFile.path) :
    SpelledApart c d := by
  rw [spelledApart_many hc hd]
  refine ⟨not_swallows (List.forall_mem_map.2 fun file hf => ?_),
    not_swallows (List.forall_mem_map.2 fun file hf => ?_), hpaths⟩
  · exact hfree file (List.mem_append_right _ hf)
  · exact hfree file (List.mem_append_left _ hf)

theorem zero_notMem_path {file : RepoFile} (h : (0 : UInt16) ∉ file.path) : 0 ∉ file.record.1 := by
  rw [RepoFile.record]
  refine zero_notMem_utf8Bytes fun hmem => ?_
  obtain ⟨c, hc, h0⟩ := List.mem_map.1 hmem
  split at h0
  · exact absurd h0 (by decide)
  · exact h (h0 ▸ hc)

theorem zero_notMem_record {host : ClosureHost} {depth : Nat} {entryPath : JsString}
    {closure : LocalRuleClosure} (hn : NulFree host) (repoRootPath : JsString)
    (h : collectLocalRuleClosure host depth entryPath = some (.ok closure)) :
    ∀ file ∈ repoFiles host repoRootPath closure, 0 ∉ file.record.1 := by
  obtain ⟨hexact, hclean⟩ := (collectLocalRuleClosure_returns h).ok rfl
  rw [repoFiles, List.forall_mem_map]
  intro file hf
  have hex : host.fileSystem.pathExists file.path = true := by
    by_contra hmissing
    exact hclean file.path ((hexact.files file).1 hf).1 (.inl (Bool.eq_false_iff.2 hmissing))
  exact zero_notMem_path (hn.relativePath hex repoRootPath)

/-- The streams of two closures that were collected tell them apart exactly where the closures are
spelled apart. -/
theorem closureHashInput_faithful {host host' : ClosureHost} {depth depth' : Nat}
    {entryPath entryPath' : JsString} {c d : LocalRuleClosure}
    (hc : collectLocalRuleClosure host depth entryPath = some (.ok c))
    (hd : collectLocalRuleClosure host' depth' entryPath' = some (.ok d))
    (hn : NulFree host) (hn' : NulFree host') (repoRootPath repoRootPath' : JsString) :
    (closureHashInput host.cwd repoRootPath c.sortedFiles =
        closureHashInput host'.cwd repoRootPath' d.sortedFiles →
      SameFiles (repoFiles host repoRootPath c) (repoFiles host' repoRootPath' d)) ↔
    SpelledApart (repoFiles host repoRootPath c) (repoFiles host' repoRootPath' d) := by
  rw [closureHashInput_eq, closureHashInput_eq]
  exact streamOf_faithful (zero_notMem_record hn repoRootPath hc)
    (zero_notMem_record hn' repoRootPath' hd)

/-! ## Two closures with one stream -/

section Runs

/-- A rule and the one that it imports. -/
def pairOfRules (importing imported : String) : ClosureHost where
  cwd := js "/repo"
  fileSystem := fileSystemOf
    [(js "/repo/rules/a.js", sourceOf importing), (js "/repo/rules/b.js", sourceOf imported)] []
  ts := compilerOf
    [(sourceOf "import './b.js';", [importOf "./b.js"]),
      (sourceOf "import './b.js';//", [importOf "./b.js"]),
      (sourceOf "import './b.js';//\x00b.js\x00//", [importOf "./b.js"]),
      (sourceOf "export const limit = 80;", [.other []]),
      (sourceOf "export const limit = 120;", [.other []])]

def pairClosure (importing imported : String) : LocalRuleClosure where
  sortedFiles := [⟨js "/repo/rules/a.js", sourceOf importing⟩, ⟨js "/repo/rules/b.js", sourceOf imported⟩]
  bareSpecifierRoots := []

theorem eq_ok_of_toOption {run : ClosureRun LocalRuleClosure} {closure : LocalRuleClosure}
    (h : run.bind Except.toOption = some closure) : run = some (.ok closure) := by
  rcases run with _ | e | c
  · cases h
  · cases h
  · cases h
    rfl

theorem pairOfRules_nulFree (importing imported : String) : NulFree (pairOfRules importing imported) where
  cwd := by
    have hcwd : (0 : UInt16) ∉ js "/repo" := by decide +kernel
    exact hcwd
  paths := by
    have hpaths : ∀ p ∈ [js "/repo/rules/a.js", js "/repo/rules/b.js"], (0 : UInt16) ∉ p := by
      decide +kernel
    intro path h
    rcases of_decide_eq_true h with h | h
    · exact absurd h List.not_mem_nil
    · exact hpaths path h

theorem length_pairFiles (importing imported : String) (repoRootPath : JsString) :
    (repoFiles (pairOfRules importing imported) repoRootPath
      (pairClosure importing imported)).length ≠ 1 := by
  simp [repoFiles, pairClosure]

theorem path_pairFiles (importing imported : String) (repoRootPath : JsString) :
    (repoFiles (pairOfRules importing imported) repoRootPath
      (pairClosure importing imported)).map RepoFile.path =
      [js "/repo/rules/a.js", js "/repo/rules/b.js"].map (relativePath (js "/repo") repoRootPath) := by
  simp only [repoFiles, pairClosure, List.map_cons, List.map_nil]
  rfl

theorem closureHashInput_faithful_limits :
    closureHashInput (js "/repo") (js "/repo/rules")
        (pairClosure "import './b.js';" "export const limit = 80;").sortedFiles ≠
      closureHashInput (js "/repo") (js "/repo/rules")
        (pairClosure "import './b.js';" "export const limit = 120;").sortedFiles := by
  have hcollect : collectLocalRuleClosure (pairOfRules "import './b.js';" "export const limit = 80;") 3
      (js "/repo/rules/a.js") = some (.ok (pairClosure "import './b.js';" "export const limit = 80;")) :=
    eq_ok_of_toOption (by decide +kernel)
  have hcollect' : collectLocalRuleClosure (pairOfRules "import './b.js';" "export const limit = 120;") 3
      (js "/repo/rules/a.js") = some (.ok (pairClosure "import './b.js';" "export const limit = 120;")) :=
    eq_ok_of_toOption (by decide +kernel)
  intro heq
  have happart := spelledApart_of_free
    (length_pairFiles "import './b.js';" "export const limit = 80;" (js "/repo/rules"))
    (length_pairFiles "import './b.js';" "export const limit = 120;" (js "/repo/rules"))
    (by decide +kernel) fun _ => by rw [path_pairFiles, path_pairFiles]
  have hsame := (closureHashInput_faithful hcollect hcollect' (pairOfRules_nulFree _ _)
    (pairOfRules_nulFree _ _) (js "/repo/rules") (js "/repo/rules")).2 happart heq
  rw [sameFiles_many (length_pairFiles _ _ _)] at hsame
  exact absurd hsame (by decide +kernel)

/-- A comment with a NUL takes the place of what the listing writes between two files. -/
theorem closureHashInput_faithful_fails :
    collectLocalRuleClosure (pairOfRules "import './b.js';//\x00b.js\x00//" "export const limit = 80;") 3
        (js "/repo/rules/a.js") =
      some (.ok (pairClosure "import './b.js';//\x00b.js\x00//" "export const limit = 80;")) ∧
    collectLocalRuleClosure
        (pairOfRules "import './b.js';//" "//\x00b.js\x00export const limit = 80;") 3
        (js "/repo/rules/a.js") =
      some (.ok (pairClosure "import './b.js';//" "//\x00b.js\x00export const limit = 80;")) ∧
    closureHashInput (js "/repo") (js "/repo/rules")
        (pairClosure "import './b.js';//\x00b.js\x00//" "export const limit = 80;").sortedFiles =
      closureHashInput (js "/repo") (js "/repo/rules")
        (pairClosure "import './b.js';//" "//\x00b.js\x00export const limit = 80;").sortedFiles ∧
    ¬ SameFiles
      (repoFiles (pairOfRules "import './b.js';//\x00b.js\x00//" "export const limit = 80;")
        (js "/repo/rules") (pairClosure "import './b.js';//\x00b.js\x00//" "export const limit = 80;"))
      (repoFiles (pairOfRules "import './b.js';//" "//\x00b.js\x00export const limit = 80;")
        (js "/repo/rules")
        (pairClosure "import './b.js';//" "//\x00b.js\x00export const limit = 80;")) := by
  refine ⟨eq_ok_of_toOption (by decide +kernel), eq_ok_of_toOption (by decide +kernel),
    by decide +kernel, ?_⟩
  rw [sameFiles_many (length_pairFiles _ _ _)]
  decide +kernel

end Runs

end Musi.LintRatchet
