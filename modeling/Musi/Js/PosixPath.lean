import Musi.Js.Text

namespace Musi.Js
set_option autoImplicit true

/-! ## node:path on POSIX -/

def slash : UInt16 := unit '/'

/-- The segments of an absolute path: empty ones and `.` fall away, `..` takes one back. -/
def resolveSegments (segments : List JsString) : List JsString :=
  segments.foldl (fun resolved segment =>
    if segment = [] ∨ segment = js "." then resolved
    else if segment = js ".." then resolved.dropLast
    else resolved ++ [segment]) []

/-- path.resolve of one path, against the working directory where it is relative. -/
def resolvePath (cwd path : JsString) : JsString :=
  let absolute := if startsWith path (js "/") then path else cwd ++ js "/" ++ path
  slash :: join (js "/") (resolveSegments (splitOn slash absolute))

/-- path.resolve(directory, path) -/
def resolveFrom (cwd directory path : JsString) : JsString :=
  resolvePath cwd (if startsWith path (js "/") then path else directory ++ js "/" ++ path)

/-- path.join(directory, name) of an absolute directory. -/
def joinPath (directory name : JsString) : JsString :=
  slash :: join (js "/") (resolveSegments (splitOn slash (directory ++ js "/" ++ name)))

/-- path.dirname -/
def dirname (path : JsString) : JsString :=
  match path with
  | [] => js "."
  | first :: body =>
    -- Slashes at the end belong to the last segment; the first unit is never one of them.
    match ((body.reverse.dropWhile (· = slash)).dropWhile (· ≠ slash)) with
    | [] => if first = slash then js "/" else js "."
    | _ :: before =>
      if before = [] ∧ first = slash then js "//" else first :: before.reverse

/-- The last segment of a path, slashes at its end left out. -/
def lastSegment (path : JsString) : JsString :=
  ((path.reverse.dropWhile (· = slash)).takeWhile (· ≠ slash)).reverse

/-- path.extname: from the last dot of the last segment, unless the dot is its first unit. -/
def extname (path : JsString) : JsString :=
  let name := lastSegment path
  let extension := (name.reverse.takeWhile (· ≠ unit '.')).reverse
  if name = js ".." ∨ unit '.' ∉ name ∨ extension.length + 1 = name.length then []
  else unit '.' :: extension

/-- path.relative -/
def relativePath (cwd start target : JsString) : JsString :=
  let segments (path : JsString) := resolveSegments (splitOn slash (resolvePath cwd path))
  let shared := ((segments start).zip (segments target)).takeWhile fun (a, b) => a = b
  join (js "/") (List.replicate ((segments start).length - shared.length) (js "..") ++
    (segments target).drop shared.length)

example : dirname (js "/repo/rules/a.js") = js "/repo/rules" := by decide +kernel

example : resolveFrom (js "/") (js "/repo/rules") (js "../lib/./b.js") = js "/repo/lib/b.js" := by
  decide +kernel

example : extname (js "/repo/lib.v2/.hidden") = [] ∧ extname (js "/repo/lib.v2") = js ".v2" := by
  decide +kernel

example : relativePath (js "/") (js "/repo/tools") (js "/repo/rules/a.js") = js "../rules/a.js" := by
  decide +kernel

/-! ## Units of a resolved path -/

theorem mem_splitOn {c d : UInt16} {s segment : JsString} (h : segment ∈ splitOn c s)
    (hd : d ∈ segment) : d ∈ s := by
  induction s generalizing segment with
  | nil =>
    rw [splitOn, List.mem_singleton] at h
    subst h
    exact hd
  | cons e s ih =>
    by_cases he : e = c
    · rw [splitOn, if_pos he, List.mem_cons] at h
      rcases h with rfl | h
      · exact absurd hd List.not_mem_nil
      · exact List.mem_cons_of_mem _ (ih h hd)
    · rw [splitOn, if_neg he] at h
      split at h
      · next hnil => exact absurd hnil (splitOn_ne_nil c s)
      · next first rest hs =>
        rcases List.mem_cons.1 h with rfl | h
        · rcases List.mem_cons.1 hd with rfl | hd
          · exact List.mem_cons_self
          · exact List.mem_cons_of_mem _ (ih (hs ▸ List.mem_cons_self) hd)
        · exact List.mem_cons_of_mem _ (ih (hs ▸ List.mem_cons_of_mem _ h) hd)

theorem mem_resolveSegments {segments : List JsString} {segment : JsString}
    (h : segment ∈ resolveSegments segments) : segment ∈ segments := by
  induction segments using List.reverseRecOn with
  | nil => exact absurd h List.not_mem_nil
  | append_singleton segments last ih =>
    rw [resolveSegments, List.foldl_append, List.foldl_cons, List.foldl_nil] at h
    change segment ∈ (if last = [] ∨ last = js "." then resolveSegments segments
      else if last = js ".." then (resolveSegments segments).dropLast
      else resolveSegments segments ++ [last]) at h
    split at h
    · exact List.mem_append_left _ (ih h)
    · split at h
      · exact List.mem_append_left _ (ih (List.mem_of_mem_dropLast h))
      · rcases List.mem_append.1 h with h | h
        · exact List.mem_append_left _ (ih h)
        · exact List.mem_append_right _ h

theorem mem_join {d : UInt16} {sep : JsString} {parts : List JsString} (h : d ∈ join sep parts) :
    d ∈ sep ∨ ∃ part ∈ parts, d ∈ part := by
  induction parts with
  | nil => exact absurd h List.not_mem_nil
  | cons part parts ih =>
    cases parts with
    | nil => exact .inr ⟨part, List.mem_cons_self, h⟩
    | cons next parts =>
      rw [join, List.mem_append, List.mem_append] at h
      rcases h with (h | h) | h
      · exact .inr ⟨part, List.mem_cons_self, h⟩
      · exact .inl h
      · rcases ih h with h | ⟨p, hp, hd⟩
        · exact .inl h
        · exact .inr ⟨p, List.mem_cons_of_mem _ hp, hd⟩

theorem mem_slash {d : UInt16} (h : d ∈ js "/") : d = slash := by
  have hone : js "/" = [slash] := by decide
  rwa [hone, List.mem_singleton] at h

theorem mem_dots {d : UInt16} (h : d ∈ js "..") : d = unit '.' := by
  have hdots : js ".." = List.replicate 2 (unit '.') := by decide
  rw [hdots] at h
  exact List.eq_of_mem_replicate h

/-- A relative path has no units but those of the two directories it is read from, dots and
slashes. -/
theorem mem_relativePath {cwd start target : JsString} {d : UInt16}
    (h : d ∈ relativePath cwd start target) : d = slash ∨ d = unit '.' ∨ d ∈ cwd ∨ d ∈ target := by
  have hresolved {path : JsString} (hd : d ∈ resolvePath cwd path) :
      d = slash ∨ d ∈ cwd ∨ d ∈ path := by
    rw [resolvePath, List.mem_cons] at hd
    rcases hd with hd | hd
    · exact .inl hd
    · rcases mem_join hd with hd | ⟨segment, hs, hd⟩
      · exact .inl (mem_slash hd)
      · have hpath := mem_splitOn (mem_resolveSegments hs) hd
        split at hpath
        · exact .inr (.inr hpath)
        · rw [List.mem_append, List.mem_append] at hpath
          rcases hpath with (hc | hc) | hp
          · exact .inr (.inl hc)
          · exact .inl (mem_slash hc)
          · exact .inr (.inr hp)
  rcases mem_join h with h | ⟨segment, hs, hd⟩
  · exact .inl (mem_slash h)
  · rcases List.mem_append.1 hs with hs | hs
    · rw [List.eq_of_mem_replicate hs] at hd
      exact .inr (.inl (mem_dots hd))
    · rcases hresolved (mem_splitOn (mem_resolveSegments (List.mem_of_mem_drop hs)) hd) with
        hd | hd | hd
      · exact .inl hd
      · exact .inr (.inr (.inl hd))
      · exact .inr (.inr (.inr hd))

end Musi.Js
