import Musi.Js.Joined
import Musi.Js.PosixPath

namespace Musi.Js
set_option autoImplicit true

/-! ## Resolved paths and their segments -/

/-- A segment of a resolved path. -/
def IsSegment (segment : JsString) : Prop :=
  segment ≠ [] ∧ segment ≠ js "." ∧ segment ≠ js ".." ∧ slash ∉ segment

instance (segment : JsString) : Decidable (IsSegment segment) :=
  inferInstanceAs (Decidable (_ ∧ _))

/-- The path of some segments below the root. -/
def pathOf (segments : List JsString) : JsString := slash :: join (js "/") segments

/-- A path as `realpath` gives it. -/
def IsResolved (path : JsString) : Prop :=
  ∃ segments : List JsString, (∀ segment ∈ segments, IsSegment segment) ∧ path = pathOf segments

theorem resolveSegments_append (segments : List JsString) (segment : JsString) :
    resolveSegments (segments ++ [segment]) =
      if segment = [] ∨ segment = js "." then resolveSegments segments
      else if segment = js ".." then (resolveSegments segments).dropLast
      else resolveSegments segments ++ [segment] := by
  rw [resolveSegments, List.foldl_append, List.foldl_cons, List.foldl_nil]
  rfl

/-- Segments that say where they are resolve to themselves. -/
theorem resolveSegments_self {segments : List JsString}
    (h : ∀ segment ∈ segments, IsSegment segment) : resolveSegments segments = segments := by
  induction segments using List.reverseRecOn with
  | nil => rfl
  | append_singleton segments last ih =>
    obtain ⟨hnil, hdot, hdots, -⟩ := h last (List.mem_append_right _ List.mem_cons_self)
    rw [resolveSegments_append, if_neg (by simp [hnil, hdot]), if_neg hdots,
      ih fun segment hsegment => h segment (List.mem_append_left _ hsegment)]

/-- What is resolved has no empty segment and none of dots. -/
theorem isSegment_resolveSegments {segments : List JsString}
    (h : ∀ segment ∈ segments, slash ∉ segment) :
    ∀ segment ∈ resolveSegments segments, IsSegment segment := by
  induction segments using List.reverseRecOn with
  | nil =>
    intro segment hsegment
    cases hsegment
  | append_singleton segments last ih =>
    have hsegments := ih fun segment hsegment => h segment (List.mem_append_left _ hsegment)
    have hlast := h last (List.mem_append_right _ List.mem_cons_self)
    rw [resolveSegments_append]
    split
    · exact hsegments
    · next hplain =>
      split
      · intro segment hsegment
        exact hsegments segment (List.mem_of_mem_dropLast hsegment)
      · next hdots =>
        intro segment hsegment
        rcases List.mem_append.1 hsegment with hsegment | hsegment
        · exact hsegments segment hsegment
        · rw [List.mem_singleton.1 hsegment]
          exact ⟨fun hnil => hplain (.inl hnil), fun hdot => hplain (.inr hdot), hdots, hlast⟩

theorem startsWith_pathOf (segments : List JsString) : startsWith (pathOf segments) (js "/") = true := by
  have hone : js "/" = [slash] := by decide
  rw [startsWith_iff, hone, pathOf]
  exact ⟨_, rfl⟩

/-- The segments of a path. -/
def pathSegments (cwd path : JsString) : List JsString :=
  resolveSegments (splitOn slash (resolvePath cwd path))

theorem resolveSegments_splitOn_pathOf {segments : List JsString}
    (h : ∀ segment ∈ segments, IsSegment segment) :
    resolveSegments (splitOn slash (pathOf segments)) = segments := by
  have hone : js "/" = [slash] := by decide
  have hfirst (rest : List JsString) : resolveSegments ([] :: rest) = resolveSegments rest := by
    rw [resolveSegments, List.foldl_cons, if_pos (.inl rfl)]
    rfl
  rw [pathOf, splitOn, if_pos rfl, hfirst, hone]
  by_cases hnil : segments = []
  · rw [hnil]
    rfl
  · rw [splitOn_joined hnil fun segment hsegment => (h segment hsegment).2.2.2,
      resolveSegments_self h]

theorem resolvePath_pathOf {cwd : JsString} {segments : List JsString}
    (h : ∀ segment ∈ segments, IsSegment segment) :
    resolvePath cwd (pathOf segments) = pathOf segments := by
  rw [resolvePath, if_pos (startsWith_pathOf segments), resolveSegments_splitOn_pathOf h]
  rfl

theorem pathSegments_pathOf {cwd : JsString} {segments : List JsString}
    (h : ∀ segment ∈ segments, IsSegment segment) : pathSegments cwd (pathOf segments) = segments := by
  rw [pathSegments, resolvePath_pathOf h, resolveSegments_splitOn_pathOf h]

theorem isSegment_pathSegments (cwd path : JsString) :
    ∀ segment ∈ pathSegments cwd path, IsSegment segment :=
  isSegment_resolveSegments fun _ hsegment => notMem_splitOn hsegment

/-- A resolved path is read back from its segments. -/
theorem IsResolved.eq_pathOf {cwd path : JsString} (h : IsResolved path) :
    path = pathOf (pathSegments cwd path) := by
  obtain ⟨segments, hsegments, rfl⟩ := h
  rw [pathSegments_pathOf hsegments]

/-! ## Relative paths -/

/-- How many segments two paths begin with together. -/
def sharedLength (start target : List JsString) : Nat :=
  ((start.zip target).takeWhile fun (a, b) => a = b).length

theorem relativePath_eq (cwd start target : JsString) : relativePath cwd start target =
    join (js "/") (List.replicate ((pathSegments cwd start).length -
        sharedLength (pathSegments cwd start) (pathSegments cwd target)) (js "..") ++
      (pathSegments cwd target).drop
        (sharedLength (pathSegments cwd start) (pathSegments cwd target))) := rfl

theorem sharedLength_cons (a b : JsString) (start target : List JsString) :
    sharedLength (a :: start) (b :: target) = if a = b then sharedLength start target + 1 else 0 := by
  rw [sharedLength, List.zip_cons_cons]
  by_cases h : a = b
  · simp [h, sharedLength]
  · simp [h]

theorem sharedLength_spec (start target : List JsString) :
    sharedLength start target ≤ start.length ∧
      start.take (sharedLength start target) = target.take (sharedLength start target) := by
  induction start generalizing target with
  | nil => exact ⟨Nat.le_refl _, by simp [sharedLength]⟩
  | cons a start ih =>
    cases target with
    | nil => exact ⟨Nat.zero_le _, rfl⟩
    | cons b target =>
      rw [sharedLength_cons]
      split
      · next hab =>
        obtain ⟨hle, htake⟩ := ih target
        rw [hab, List.take_succ_cons, List.take_succ_cons, htake]
        exact ⟨Nat.succ_le_succ hle, rfl⟩
      · exact ⟨Nat.zero_le _, rfl⟩

/-- Everything is shared exactly when the target is below the start. -/
theorem sharedLength_eq_length {start target : List JsString} :
    sharedLength start target = start.length ↔ start <+: target := by
  constructor
  · intro h
    have htake := (sharedLength_spec start target).2
    rw [h, List.take_length] at htake
    rw [htake]
    exact List.take_prefix _ _
  · rintro ⟨rest, rfl⟩
    induction start with
    | nil => rfl
    | cons a start ih => rw [List.cons_append, sharedLength_cons, if_pos rfl, ih, List.length_cons]

theorem isPart_relative {segments : List JsString} (h : ∀ segment ∈ segments, IsSegment segment)
    (n m : Nat) : ∀ part ∈ List.replicate n (js "..") ++ segments.drop m, part ≠ [] ∧ slash ∉ part := by
  intro part hpart
  rcases List.mem_append.1 hpart with hpart | hpart
  · rw [List.eq_of_mem_replicate hpart]
    decide
  · obtain ⟨hnil, -, -, hslash⟩ := h part (List.mem_of_mem_drop hpart)
    exact ⟨hnil, hslash⟩

theorem takeWhile_dots {segments : List JsString} (h : ∀ segment ∈ segments, IsSegment segment)
    (n : Nat) : ((List.replicate n (js "..") ++ segments).takeWhile fun part => part = js "..").length
      = n := by
  induction n with
  | zero =>
    cases segments with
    | nil => rfl
    | cons segment segments =>
      have hdots := (h segment List.mem_cons_self).2.2.1
      rw [List.replicate_zero, List.nil_append, List.takeWhile_cons_of_neg (by simpa using hdots)]
      rfl
  | succ n ih =>
    rw [List.replicate_succ, List.cons_append, List.takeWhile_cons, if_pos (by simp),
      List.length_cons, ih]

/-- Two resolved paths are told apart by their relative paths from one start. -/
theorem relativePath_injective {cwd start path path' : JsString} (hpath : IsResolved path)
    (hpath' : IsResolved path') (h : relativePath cwd start path = relativePath cwd start path') :
    path = path' := by
  have hone : js "/" = [slash] := by decide
  have hparts := isSegment_pathSegments cwd path
  have hparts' := isSegment_pathSegments cwd path'
  rw [relativePath_eq, relativePath_eq, hone] at h
  have hjoin := join_injective (isPart_relative hparts _ _) (isPart_relative hparts' _ _) h
  obtain ⟨hle, htake⟩ := sharedLength_spec (pathSegments cwd start) (pathSegments cwd path)
  obtain ⟨hle', htake'⟩ := sharedLength_spec (pathSegments cwd start) (pathSegments cwd path')
  have hlength := congrArg (fun parts => (parts.takeWhile fun part => part = js "..").length) hjoin
  rw [takeWhile_dots fun segment hmem => hparts segment (List.mem_of_mem_drop hmem),
    takeWhile_dots fun segment hmem => hparts' segment (List.mem_of_mem_drop hmem)] at hlength
  have hshared : sharedLength (pathSegments cwd start) (pathSegments cwd path) =
      sharedLength (pathSegments cwd start) (pathSegments cwd path') := by omega
  rw [hshared] at hjoin htake
  have hdrop := List.append_cancel_left hjoin
  have hsegments : pathSegments cwd path = pathSegments cwd path' := by
    rw [← List.take_append_drop (sharedLength (pathSegments cwd start) (pathSegments cwd path'))
      (pathSegments cwd path), ← htake, htake', hdrop, List.take_append_drop]
  rw [hpath.eq_pathOf, hpath'.eq_pathOf, hsegments]

theorem startsWith_join {segment : JsString} (h : segment ≠ []) (hslash : slash ∉ segment)
    (hdot : segment ≠ js ".") (segments : List JsString) :
    startsWith (join (js "/") (segment :: segments)) (js "..") = startsWith segment (js "..") := by
  have hone : js "/" = [slash] := by decide
  have hdots : js ".." = [unit '.', unit '.'] := by decide
  have hdot' : segment ≠ [unit '.'] := by
    intro he
    exact hdot (he.trans (by decide))
  have hne : unit '.' ≠ slash := by decide
  cases segments with
  | nil => rfl
  | cons next segments =>
    rw [join, hone, hdots, Bool.eq_iff_iff, startsWith_iff, startsWith_iff, List.append_assoc,
      List.singleton_append]
    cases segment with
    | nil => exact absurd rfl h
    | cons a segment =>
      cases segment with
      | nil =>
        simp only [List.cons_append, List.nil_append, List.cons_prefix_cons]
        constructor
        · rintro ⟨-, hslash, -⟩
          exact absurd hslash hne
        · rintro ⟨-, hnil⟩
          cases List.prefix_nil.1 hnil
      | cons b segment => simp only [List.cons_append, List.cons_prefix_cons, List.nil_prefix]

/-- A relative path is no way up when the target is below the start, and the first segment on the
way down does not begin with two dots itself. -/
theorem startsWith_relativePath (cwd start target : JsString) :
    startsWith (relativePath cwd start target) (js "..") = false ↔
      ∃ rest, pathSegments cwd target = pathSegments cwd start ++ rest ∧
        ∀ segment ∈ rest.head?, startsWith segment (js "..") = false := by
  have hsegments := isSegment_pathSegments cwd target
  have hbelow {rest : List JsString} (hrest : pathSegments cwd target =
      pathSegments cwd start ++ rest) : relativePath cwd start target = join (js "/") rest := by
    have hshared := sharedLength_eq_length.2 ⟨rest, hrest.symm⟩
    rw [relativePath_eq, hshared, Nat.sub_self, List.replicate_zero, List.nil_append, hrest,
      List.drop_left]
  constructor
  · intro h
    have hprefix : pathSegments cwd start <+: pathSegments cwd target := by
      rw [← sharedLength_eq_length]
      by_contra hne
      obtain ⟨hle, -⟩ := sharedLength_spec (pathSegments cwd start) (pathSegments cwd target)
      obtain ⟨n, hn⟩ : ∃ n, (pathSegments cwd start).length -
          sharedLength (pathSegments cwd start) (pathSegments cwd target) = n + 1 :=
        Nat.exists_eq_succ_of_ne_zero (by omega)
      rw [relativePath_eq, hn, List.replicate_succ, List.cons_append,
        startsWith_join (by decide) (by decide) (by decide)] at h
      revert h
      decide
    obtain ⟨rest, hrest⟩ := hprefix
    refine ⟨rest, hrest.symm, fun segment hsegment => ?_⟩
    obtain ⟨tail, rfl⟩ : ∃ tail, rest = segment :: tail := List.head?_eq_some_iff.1 hsegment
    obtain ⟨hnil, hdot, -, hslash⟩ := hsegments segment (by rw [← hrest]; simp)
    rw [hbelow hrest.symm, startsWith_join hnil hslash hdot] at h
    exact h
  · rintro ⟨rest, hrest, hhead⟩
    rw [hbelow hrest]
    cases rest with
    | nil => decide
    | cons segment rest =>
      obtain ⟨hnil, hdot, -, hslash⟩ := hsegments segment (by rw [hrest]; simp)
      rw [startsWith_join hnil hslash hdot]
      exact hhead segment rfl

/-- A relative path does not begin at the root. -/
theorem startsWith_relativePath_slash (cwd start target : JsString) :
    startsWith (relativePath cwd start target) (js "/") = false := by
  have hone : js "/" = [slash] := by decide
  have hparts := isPart_relative (isSegment_pathSegments cwd target)
    ((pathSegments cwd start).length -
      sharedLength (pathSegments cwd start) (pathSegments cwd target))
    (sharedLength (pathSegments cwd start) (pathSegments cwd target))
  rw [relativePath_eq]
  revert hparts
  generalize List.replicate _ (js "..") ++ _ = parts
  intro hparts
  cases parts with
  | nil => decide
  | cons part parts =>
    obtain ⟨hnil, hslash⟩ := hparts part List.mem_cons_self
    obtain ⟨first, part, rfl⟩ := List.exists_cons_of_ne_nil hnil
    have hfirst : slash ≠ first := fun he => hslash (he ▸ List.mem_cons_self)
    have hplain (rest : JsString) : startsWith (first :: rest) (js "/") = false := by
      rw [hone, Bool.eq_false_iff, Ne, startsWith_iff, List.cons_prefix_cons]
      exact fun h => hfirst h.1
    cases parts with
    | nil => exact hplain part
    | cons next parts => exact hplain _

end Musi.Js
