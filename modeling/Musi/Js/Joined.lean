import Musi.Js.Text

namespace Musi.Js
set_option autoImplicit true

/-! ## Parts joined by a unit that none of them holds -/

theorem join_flatMap {c : UInt16} {ls : List JsString} (hne : ls ≠ []) :
    join [c] ls ++ [c] = ls.flatMap fun l => l ++ [c] := by
  induction ls with
  | nil => exact absurd rfl hne
  | cons l ls ih =>
    cases ls with
    | nil => rw [List.flatMap_cons, List.flatMap_nil, List.append_nil, join]
    | cons l' ls =>
      rw [join, List.append_assoc, ih (List.cons_ne_nil _ _), List.flatMap_cons (x := l)]

theorem splitOn_joined {c : UInt16} {ls : List JsString} (hne : ls ≠ []) (h : ∀ l ∈ ls, c ∉ l) :
    splitOn c (join [c] ls) = ls := by
  fun_induction join [c] ls with
  | case1 => exact absurd rfl hne
  | case2 l => rw [splitOn_of_notMem (h l List.mem_cons_self)]
  | case3 l l' ls ih =>
    rw [List.forall_mem_cons] at h
    rw [List.append_assoc, List.singleton_append, splitOn_append h.1, ih (List.cons_ne_nil _ _) h.2]

theorem join_splitOn (c : UInt16) (s : JsString) : join [c] (splitOn c s) = s := by
  induction s with
  | nil => rfl
  | cons a s ih =>
    rw [splitOn]
    cases hs : splitOn c s with
    | nil => exact absurd hs (splitOn_ne_nil c s)
    | cons part parts =>
      rw [hs] at ih
      split
      · next ha =>
        subst ha
        rw [join, ih]
        rfl
      · cases parts with
        | nil =>
          rw [join] at ih ⊢
          rw [ih]
        | cons next parts =>
          rw [join] at ih ⊢
          rw [← ih]
          rfl

theorem notMem_splitOn {c : UInt16} {s part : JsString} (h : part ∈ splitOn c s) : c ∉ part := by
  induction s generalizing part with
  | nil =>
    rw [splitOn, List.mem_singleton] at h
    subst h
    exact List.not_mem_nil
  | cons a s ih =>
    rw [splitOn] at h
    cases hs : splitOn c s with
    | nil => exact absurd hs (splitOn_ne_nil c s)
    | cons first parts =>
      rw [hs] at h ih
      split at h
      · rcases List.mem_cons.1 h with rfl | h
        · exact List.not_mem_nil
        · exact ih h
      · next ha =>
        rcases List.mem_cons.1 h with rfl | h
        · rw [List.mem_cons, not_or]
          exact ⟨Ne.symm ha, ih List.mem_cons_self⟩
        · exact ih (List.mem_cons_of_mem _ h)

theorem join_eq_nil {sep : JsString} {ls : List JsString} (hne : ls ≠ []) (h : ∀ l ∈ ls, l ≠ []) :
    join sep ls ≠ [] := by
  cases ls with
  | nil => exact absurd rfl hne
  | cons l ls =>
    have hl := h l List.mem_cons_self
    cases ls with
    | nil => exact hl
    | cons l' ls =>
      rw [join, List.append_assoc]
      exact List.append_ne_nil_of_left_ne_nil hl _

/-- Parts without the separator, none of them empty, can be read back from what they are joined
to. -/
theorem join_injective {c : UInt16} {ls ms : List JsString} (hl : ∀ l ∈ ls, l ≠ [] ∧ c ∉ l)
    (hm : ∀ m ∈ ms, m ≠ [] ∧ c ∉ m) (h : join [c] ls = join [c] ms) : ls = ms := by
  by_cases hls : ls = []
  · by_cases hms : ms = []
    · rw [hls, hms]
    · exact absurd (h.symm.trans (congrArg (join [c]) hls))
        (join_eq_nil hms fun m hm' => (hm m hm').1)
  · by_cases hms : ms = []
    · exact absurd (h.trans (congrArg (join [c]) hms)) (join_eq_nil hls fun l hl' => (hl l hl').1)
    · rw [← splitOn_joined hls fun l hl' => (hl l hl').2, h,
        splitOn_joined hms fun m hm' => (hm m hm').2]

namespace Lines

/-! ## Texts of lines, each with its line feed -/

def lineFeed : UInt16 := 0x0A
def carriageReturn : UInt16 := 0x0D

/-- The text of lines, each ended by a line feed. -/
def print (lines : List JsString) : JsString := lines.flatMap fun line => line ++ [lineFeed]

/-- `line.replace(/\r$/u, "")` -/
def dropReturn (line : JsString) : JsString :=
  if line.getLast? = some carriageReturn then line.dropLast else line

/-- `text.replace(/\r\n/gu, "\n")` -/
def unifyEnds : JsString → JsString
  | [] => []
  | [c] => [c]
  | c :: d :: s =>
    if c = carriageReturn ∧ d = lineFeed then lineFeed :: unifyEnds s else c :: unifyEnds (d :: s)

theorem splitOn_print {lines : List JsString} (h : ∀ line ∈ lines, lineFeed ∉ line) :
    splitOn lineFeed (print lines) = lines ++ [[]] := by
  induction lines with
  | nil => rfl
  | cons line lines ih =>
    rw [List.forall_mem_cons] at h
    rw [print, List.flatMap_cons, List.append_assoc, List.singleton_append, splitOn_append h.1]
    rw [print] at ih
    rw [ih h.2, List.cons_append]

theorem dropReturn_of_ne {line : JsString} (h : line.getLast? ≠ some carriageReturn) :
    dropReturn line = line := by
  rw [dropReturn, if_neg h]

theorem dropReturn_append {first : JsString} (h : first.getLast? ≠ some carriageReturn)
    (second : JsString) : dropReturn (first ++ second) = first ++ dropReturn second := by
  by_cases hsecond : second = []
  · rw [hsecond, List.append_nil, dropReturn_of_ne h]
    exact (List.append_nil first).symm
  · rw [dropReturn, dropReturn, List.getLast?_append_of_ne_nil _ hsecond]
    split
    · rw [List.dropLast_append_of_ne_nil hsecond]
    · rfl

theorem notMem_dropReturn {c : UInt16} {line : JsString} (h : c ∉ line) : c ∉ dropReturn line := by
  rw [dropReturn]
  split
  · exact fun hc => h (List.dropLast_subset line hc)
  · exact h

theorem unifyEnds_line {line : JsString} (h : lineFeed ∉ line) (rest : JsString) :
    unifyEnds (line ++ lineFeed :: rest) = dropReturn line ++ lineFeed :: unifyEnds rest := by
  have hstart : unifyEnds (lineFeed :: rest) = lineFeed :: unifyEnds rest := by
    cases rest with
    | nil => rfl
    | cons d rest =>
      rw [unifyEnds, if_neg]
      rintro ⟨heq, -⟩
      exact absurd heq (by decide)
  induction line with
  | nil => exact hstart
  | cons c line ih =>
    rw [List.mem_cons, not_or] at h
    cases line with
    | nil =>
      rw [List.cons_append, List.nil_append, unifyEnds]
      by_cases hc : c = carriageReturn
      · subst hc
        rw [if_pos ⟨rfl, rfl⟩]
        rfl
      · have hlast : ([c] : JsString).getLast? ≠ some carriageReturn := fun heq =>
          hc (Option.some.inj heq)
        rw [if_neg (fun heq => hc heq.1), hstart, dropReturn_of_ne hlast]
        rfl
    | cons d line =>
      have hd : d ≠ lineFeed := fun heq => h.2 (heq ▸ List.mem_cons_self)
      rw [List.cons_append, List.cons_append, unifyEnds, if_neg fun heq => hd heq.2]
      rw [List.cons_append] at ih
      have hlast : dropReturn (c :: d :: line) = c :: dropReturn (d :: line) := by
        rw [dropReturn, dropReturn, List.getLast?_cons_cons]
        split
        · rfl
        · rfl
      rw [ih h.2, hlast]
      rfl

theorem unifyEnds_print {lines : List JsString} (h : ∀ line ∈ lines, lineFeed ∉ line) :
    unifyEnds (print lines) = print (lines.map dropReturn) := by
  induction lines with
  | nil => rfl
  | cons line lines ih =>
    rw [List.forall_mem_cons] at h
    rw [print, List.flatMap_cons, List.append_assoc, List.singleton_append, unifyEnds_line h.1]
    rw [print] at ih
    rw [ih h.2, print, print, List.map_cons, List.flatMap_cons, List.append_assoc,
      List.singleton_append]

end Lines

end Musi.Js
