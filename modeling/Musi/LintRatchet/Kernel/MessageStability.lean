import Musi.Js.Joined
import Musi.Js.JsonLines
import Musi.Js.Number
import Musi.LintRatchet.Kernel.RepoRoot

namespace Musi.LintRatchet
open Musi.Js
set_option autoImplicit true

variable {N : Type} [JsNumber N]

/-! ## A message that ends in a location line and a code frame -/

def isFrameLine (line : JsString) : Bool :=
  isCodeFrameSourceLine line || isCodeFrameTargetLine line || isCodeFramePointerLine line

/-- `:line:column` -/
def positionText (line column : N) : JsString :=
  js ":" ++ JsNumber.toText line ++ js ":" ++ JsNumber.toText column

/-- The lines before the location line, the location line and the frame. -/
def framedMessage (semantic : List JsString) (filePath : JsString) (line column : N)
    (frame : List JsString) : JsString :=
  join [0x0A] (semantic ++ (filePath ++ positionText line column) :: frame)

/-- A location line that is one line and no line of a frame, in which the root occurs within the
path only, and a well-formed frame. -/
structure Framed (root filePath : JsString) (line column : N) (frame : List JsString) : Prop where
  oneLine : 0x0A ∉ filePath ++ positionText line column
  notFrame : isFrameLine (filePath ++ positionText line column) = false
  inside : root ≠ [] → ∀ before after, filePath ++ positionText line column = before ++ root ++ after →
    (before ++ root).length ≤ filePath.length
  frameLines : ∀ l ∈ frame, 0x0A ∉ l
  frame : isCodeFrame frame = true

/-- The text before the location line, the root written as its token and one blank line at the end
dropped. -/
def semanticText (root : JsString) (semantic : List JsString) : JsString :=
  let lines := semantic.map fun line => normalizeRepoRoot line root
  join [0x0A] (if lines.getLast? = some [] then lines.dropLast else lines)

theorem mem_replaceAllFrom {c : UInt16} {pattern replacement s : JsString} {skipped : Nat}
    (h : c ∈ replaceAllFrom pattern replacement skipped s) : c ∈ replacement ∨ c ∈ s := by
  induction s generalizing skipped with
  | nil =>
    rw [replaceAllFrom] at h
    exact absurd h List.not_mem_nil
  | cons d s ih =>
    cases skipped with
    | succ skipped =>
      rw [replaceAllFrom] at h
      exact (ih h).imp_right (List.mem_cons_of_mem d)
    | zero =>
      rw [replaceAllFrom] at h
      split at h
      · rcases List.mem_append.1 h with h | h
        · exact .inl h
        · exact (ih h).imp_right (List.mem_cons_of_mem d)
      · rcases List.mem_cons.1 h with rfl | h
        · exact .inr List.mem_cons_self
        · exact (ih h).imp_right (List.mem_cons_of_mem d)

theorem oneLine_normalizeRepoRoot {line : JsString} (h : 0x0A ∉ line) (root : JsString) :
    0x0A ∉ normalizeRepoRoot line root := by
  rw [normalizeRepoRoot]
  split
  · exact h
  · intro hmem
    rcases mem_replaceAllFrom hmem with htoken | hline
    · exact absurd htoken (by decide)
    · exact h hline

theorem lastIndexOf_absent {value : JsString} {lines : List JsString} (h : value ∉ lines) :
    lastIndexOf value lines = none := by
  induction lines with
  | nil => rfl
  | cons line lines ih =>
    rw [List.mem_cons, not_or] at h
    rw [lastIndexOf, ih h.2]
    exact if_neg fun heq => h.1 heq.symm

theorem lastIndexOf_last {value : JsString} {before after : List JsString} (h : value ∉ after) :
    lastIndexOf value (before ++ value :: after) = some before.length := by
  induction before with
  | nil =>
    rw [List.nil_append, lastIndexOf, lastIndexOf_absent h]
    exact if_pos rfl
  | cons line before ih =>
    rw [List.cons_append, lastIndexOf, ih]
    rfl

section Frames
variable {root : JsString}

theorem RootPath.isFrameLine (h : RootPath root) (line : JsString) :
    LintRatchet.isFrameLine (normalizeRepoRoot line root) = LintRatchet.isFrameLine line := by
  rw [LintRatchet.isFrameLine, LintRatchet.isFrameLine, h.isCodeFrameSourceLine,
    h.isCodeFrameTargetLine, h.isCodeFramePointerLine]

theorem RootPath.isCodeFrame (h : RootPath root) (frame : List JsString) :
    LintRatchet.isCodeFrame (frame.map fun line => normalizeRepoRoot line root) =
      LintRatchet.isCodeFrame frame := by
  rw [LintRatchet.isCodeFrame, LintRatchet.isCodeFrame]
  simp only [List.all_map, List.any_map, Function.comp_def, h.isCodeFrameSourceLine,
    h.isCodeFrameTargetLine, h.isCodeFramePointerLine]

theorem isFrameLine_of_frame {frame : List JsString} (h : isCodeFrame frame = true) :
    ∀ line ∈ frame, isFrameLine line = true := by
  rw [isCodeFrame, Bool.and_eq_true, Bool.and_eq_true, Bool.and_eq_true] at h
  exact List.all_eq_true.1 h.1.1.1

/-- The location line of a framed message is the path with its root replaced, and the position. -/
theorem Framed.normalize {filePath : JsString} {line column : N} {frame : List JsString}
    (h : Framed root filePath line column frame) :
    normalizeRepoRoot (filePath ++ positionText line column) root =
      normalizeRepoRoot filePath root ++ positionText line column := by
  rw [normalizeRepoRoot, normalizeRepoRoot]
  split
  · rfl
  · next hroot =>
    have habsent : ∀ before after, positionText line column ≠ before ++ root ++ after := by
      intro before after heq
      have hle := h.inside hroot (filePath ++ before) after (by
        rw [heq]
        simp only [List.append_assoc])
      have hpos := List.length_pos_iff.2 hroot
      rw [List.length_append, List.length_append] at hle
      omega
    rw [replaceAllFrom_append (Nat.zero_le _) fun before after heq _ => h.inside hroot before after heq,
      replaceAllFrom_absent habsent]

/-- What is left of a framed message is the text before its location line. -/
theorem normalizedMessage_framed (hroot : RootPath root) {semantic : List JsString}
    (hsemantic : ∀ l ∈ semantic, 0x0A ∉ l) {filePath : JsString} {line column : N}
    {frame : List JsString} (h : Framed root filePath line column frame) :
    normalizedMessageForIdentity (framedMessage semantic filePath line column frame)
      { filePath, line := some line, column := some column } root = semanticText root semantic := by
  let normalize (l : JsString) : JsString := normalizeRepoRoot l root
  have hlines : ∀ l ∈ semantic ++ (filePath ++ positionText line column) :: frame, 0x0A ∉ l := by
    intro l hl
    rcases List.mem_append.1 hl with hl | hl
    · exact hsemantic l hl
    · rcases List.mem_cons.1 hl with rfl | hl
      · exact h.oneLine
      · exact h.frameLines l hl
  have hsplit : splitOn 0x0A
      (normalizeRepoRoot (framedMessage semantic filePath line column frame) root) =
      semantic.map normalize ++ normalize (filePath ++ positionText line column) ::
        frame.map normalize := by
    rw [framedMessage, normalizeRepoRoot_join hroot.oneLine
      (List.append_ne_nil_of_right_ne_nil _ (List.cons_ne_nil _ _)), splitOn_joined]
    · rw [List.map_append, List.map_cons]
    · exact List.map_eq_nil_iff.not.2 (List.append_ne_nil_of_right_ne_nil _ (List.cons_ne_nil _ _))
    · exact List.forall_mem_map.2 fun l hl => oneLine_normalizeRepoRoot (hlines l hl) root
  -- The location line is no line of the frame, so it is the last of its kind.
  have hlast : normalize (filePath ++ positionText line column) ∉ frame.map normalize := by
    intro hmem
    obtain ⟨l, hl, heq⟩ := List.mem_map.1 hmem
    have hframe := isFrameLine_of_frame h.frame l hl
    rw [← hroot.isFrameLine, show normalizeRepoRoot l root =
      normalizeRepoRoot (filePath ++ positionText line column) root from heq, hroot.isFrameLine,
      h.notFrame] at hframe
    cases hframe
  have hlocation : normalizeRepoRoot filePath root ++ js ":" ++ JsNumber.toText line ++ js ":" ++
      JsNumber.toText column = normalize (filePath ++ positionText line column) := by
    change _ = normalizeRepoRoot (filePath ++ positionText line column) root
    rw [h.normalize, positionText]
    simp only [List.append_assoc]
  have hdrop : (semantic.map normalize ++ normalize (filePath ++ positionText line column) ::
      frame.map normalize).drop ((semantic.map normalize).length + 1) = frame.map normalize := by
    rw [← List.drop_drop, List.drop_left]
    rfl
  have hframe : isCodeFrame (frame.map normalize) = true := (hroot.isCodeFrame frame).trans h.frame
  rw [normalizedMessageForIdentity]
  dsimp only
  rw [hlocation, hsplit, lastIndexOf_last hlast]
  dsimp only
  rw [hdrop, hframe, if_pos rfl, List.take_left]
  rfl

end Frames

/-! ## Identities -/

theorem messageIdentity_injective {location location' : MessageIdentityLocation N}
    {message message' root root' : JsString}
    (h : messageIdentityForFinding (some message) none location root =
      messageIdentityForFinding (some message') none location' root') :
    normalizedMessageForIdentity message location root =
      normalizedMessageForIdentity message' location' root' := by
  have hcanonical (text : JsString) : Canonical (.obj [(js "message", .str text)] : Json N) := by
    refine .obj (List.nodup_singleton _) rfl fun e he => ?_
    rw [List.mem_singleton.1 he]
    exact .str text
  have hobj := stringify_injective (hcanonical _) (hcanonical _) (Option.some.inj h)
  exact Json.str.inj (congrArg Prod.snd (List.cons.inj (Json.obj.inj hobj)).1)

/-- The place of the repository, the position and the frame do not show in an identity, and the text
before the location line does. -/
theorem messageIdentityForFinding_stable :
    (∀ (root root' : JsString) (pieces path : List JsString) (line column : Option N)
        (messageId : Option JsString),
      Rendered root pieces → Rendered root path → Rendered root' pieces → Rendered root' path →
      messageIdentityForFinding (some (join root pieces)) messageId
          { filePath := join root path, line, column } root =
        messageIdentityForFinding (some (join root' pieces)) messageId
          { filePath := join root' path, line, column } root') ∧
    (∀ (root : JsString) (semantic : List JsString), RootPath root → (∀ l ∈ semantic, 0x0A ∉ l) →
      ∀ (messageId : Option JsString) (filePath : JsString) (line column line' column' : N)
        (frame frame' : List JsString),
      Framed root filePath line column frame → Framed root filePath line' column' frame' →
      messageIdentityForFinding (some (framedMessage semantic filePath line column frame)) messageId
          { filePath, line := some line, column := some column } root =
        messageIdentityForFinding (some (framedMessage semantic filePath line' column' frame'))
          messageId { filePath, line := some line', column := some column' } root) ∧
    ∀ (root root' : JsString) (semantic semantic' : List JsString), RootPath root → RootPath root' →
      (∀ l ∈ semantic, 0x0A ∉ l) → (∀ l ∈ semantic', 0x0A ∉ l) →
      ∀ (filePath filePath' : JsString) (line column line' column' : N) (frame frame' : List JsString),
      Framed root filePath line column frame → Framed root' filePath' line' column' frame' →
      semanticText root semantic ≠ semanticText root' semantic' →
      messageIdentityForFinding (some (framedMessage semantic filePath line column frame)) none
          { filePath, line := some line, column := some column } root ≠
        messageIdentityForFinding (some (framedMessage semantic' filePath' line' column' frame')) none
          { filePath := filePath', line := some line', column := some column' } root' := by
  refine ⟨fun root root' pieces path line column messageId hm hp hm' hp' => ?_,
    fun root semantic hroot hsemantic messageId filePath line column line' column' frame frame' h h' => ?_,
    fun root root' semantic semantic' hroot hroot' hs hs' filePath filePath' line column line' column'
      frame frame' h h' hne heq => ?_⟩
  · cases messageId with
    | some messageId => rfl
    | none =>
      rw [messageIdentityForFinding, messageIdentityForFinding, normalizedMessageForIdentity,
        normalizedMessageForIdentity, normalizeRepoRoot_rendered hm, normalizeRepoRoot_rendered hm',
        normalizeRepoRoot_rendered hp, normalizeRepoRoot_rendered hp']
  · cases messageId with
    | some messageId => rfl
    | none =>
      rw [messageIdentityForFinding, messageIdentityForFinding, normalizedMessage_framed hroot hsemantic h,
        normalizedMessage_framed hroot hsemantic h']
  · refine hne ?_
    rw [← normalizedMessage_framed hroot hs h, ← normalizedMessage_framed hroot' hs' h']
    exact messageIdentity_injective heq

/-! ## Two findings -/

section Runs

def numeral (k : Int) : Numeral := JsNumber.ofInt k

/-- The location of a finding in a file. -/
def placeOf (filePath : String) (line column : Int) : MessageIdentityLocation Numeral where
  filePath := js filePath
  line := some (numeral line)
  column := some (numeral column)

def frameOf (line : String) : List JsString :=
  [js "  " ++ js line ++ js " | a", js "> 9 | b", js "    | ^"]

/-- The identity of a framed message. -/
def framedIdentity (root : String) (semantic : List String) (filePath : String) (line column : Int)
    (frame : List JsString) : Option JsString :=
  messageIdentityForFinding
    (some (framedMessage (semantic.map js) (js filePath) (numeral line) (numeral column) frame)) none
    (placeOf filePath line column) (js root)

theorem occurs_at {s root : JsString} {P : Nat → Prop}
    (h : ∀ i < s.length + 1, startsWith (s.drop i) root = true → P i) {before after : JsString}
    (heq : s = before ++ root ++ after) : P before.length := by
  refine h before.length ?_ ?_
  · rw [heq, List.length_append, List.length_append]
    omega
  · rw [heq, List.append_assoc, List.drop_left]
    exact startsWith_append root after

/-- A text in which the root stands once. -/
theorem rendered_pair {root first second : JsString} (hroot : root ≠ [])
    (h : ∀ i < (join root [first, second]).length + 1,
      startsWith ((join root [first, second]).drop i) root = true → i = first.length) :
    Rendered root [first, second] where
  rooted := hroot
  pieced := List.cons_ne_nil _ _
  only := by
    intro before after heq
    have hlength : before.length = first.length := occurs_at h heq
    have hjoin : first ++ root ++ second = before ++ root ++ after := heq
    rw [List.append_assoc, List.append_assoc] at hjoin
    obtain ⟨hfirst, hrest⟩ := List.append_inj hjoin hlength.symm
    exact ⟨[first], [second], List.cons_ne_nil _ _, List.cons_ne_nil _ _, rfl, hfirst.symm,
      (List.append_cancel_left hrest).symm⟩

theorem framed_of {root filePath : JsString} {line column : Numeral} {frame : List JsString}
    (hline : 0x0A ∉ filePath ++ positionText line column ∧
      isFrameLine (filePath ++ positionText line column) = false)
    (hinside : ∀ i < (filePath ++ positionText line column).length + 1,
      startsWith ((filePath ++ positionText line column).drop i) root = true →
        i + root.length ≤ filePath.length)
    (hframe : (∀ l ∈ frame, 0x0A ∉ l) ∧ isCodeFrame frame = true) :
    Framed root filePath line column frame where
  oneLine := hline.1
  notFrame := hline.2
  inside := by
    intro _ before after heq
    rw [List.length_append]
    exact @occurs_at _ root (fun i => i + root.length ≤ filePath.length) hinside _ _ heq
  frameLines := hframe.1
  frame := hframe.2

theorem rootPath_repo : RootPath (js "/repo") where
  oneLine := by decide
  notSpace := fun c h => by
    rw [← Option.some.inj h]
    rfl
  notDigit := fun c h => by
    rw [← Option.some.inj h]
    rfl
  notMark := fun c h => by
    rw [← Option.some.inj h]
    decide

theorem framed_three : Framed (js "/repo") (js "/repo/src/a.ts") (numeral 3) (numeral 7) (frameOf "2") :=
  framed_of (by decide +kernel) (by decide +kernel) (by decide +kernel)

theorem framed_forty :
    Framed (js "/repo") (js "/repo/src/a.ts") (numeral 40) (numeral 1) (frameOf "39") :=
  framed_of (by decide +kernel) (by decide +kernel) (by decide +kernel)

theorem messageIdentityForFinding_stable_moved :
    messageIdentityForFinding (some (js "cannot find /repo/b.ts")) none
        (placeOf "/repo/src/a.ts" 3 7) (js "/repo") =
      messageIdentityForFinding (some (js "cannot find /home/musi/b.ts")) none
        (placeOf "/home/musi/src/a.ts" 3 7) (js "/home/musi") ∧
    framedIdentity "/repo" ["cannot find /repo/b.ts", ""] "/repo/src/a.ts" 3 7 (frameOf "2") =
      framedIdentity "/repo" ["cannot find /repo/b.ts", ""] "/repo/src/a.ts" 40 1 (frameOf "39") ∧
    framedIdentity "/repo" ["cannot find /repo/b.ts"] "/repo/src/a.ts" 3 7 (frameOf "2") ≠
      framedIdentity "/repo" ["cannot find /repo/c.ts"] "/repo/src/a.ts" 3 7 (frameOf "2") := by
  obtain ⟨hmoved, hshifted, hdistinct⟩ := @messageIdentityForFinding_stable Numeral _
  refine ⟨?_, ?_, ?_⟩
  · exact hmoved (js "/repo") (js "/home/musi") [js "cannot find ", js "/b.ts"] [[], js "/src/a.ts"]
      (some (numeral 3)) (some (numeral 7)) none (rendered_pair (by decide) (by decide +kernel))
      (rendered_pair (by decide) (by decide +kernel)) (rendered_pair (by decide) (by decide +kernel))
      (rendered_pair (by decide) (by decide +kernel))
  · exact hshifted (js "/repo") _ rootPath_repo (by decide +kernel) none _ _ _ _ _ _ _ framed_three
      framed_forty
  · exact hdistinct (js "/repo") (js "/repo") _ _ rootPath_repo rootPath_repo (by decide +kernel)
      (by decide +kernel) _ _ _ _ _ _ _ _ framed_three framed_three (by decide +kernel)

/-- A blank line before the location line, the token for the root and one message id: equal
identities of different texts. Then a root that reaches over the end of the path, one with a line
feed, one that is a line number, and a location line that is a frame line. -/
theorem messageIdentityForFinding_stable_fails :
    framedIdentity "/repo" ["a"] "/repo/src/a.ts" 3 7 (frameOf "2") =
      framedIdentity "/repo" ["a", ""] "/repo/src/a.ts" 3 7 (frameOf "2") ∧
    framedIdentity "/repo" ["in /repo"] "/repo/src/a.ts" 3 7 (frameOf "2") =
      framedIdentity "/repo" ["in <repo-root>"] "/repo/src/a.ts" 3 7 (frameOf "2") ∧
    messageIdentityForFinding (some (js "a")) (some (js "id")) (placeOf "/repo/src/a.ts" 3 7) (js "/repo") =
      messageIdentityForFinding (some (js "b")) (some (js "id")) (placeOf "/repo/src/a.ts" 3 7)
        (js "/repo") ∧
    framedIdentity "/repo:3" ["a"] "/src/repo" 3 7 (frameOf "2") ≠
      framedIdentity "/repo:3" ["a"] "/src/repo" 4 7 (frameOf "2") ∧
    framedIdentity "a\n> 9" ["a"] "/repo/src/a.ts" 3 7 (frameOf "2") ≠
      framedIdentity "a\n> 9" ["a"] "/repo/src/a.ts" 3 7 [js "  2 | b", js "> 9 | b", js "    | ^"] ∧
    framedIdentity "2" ["a"] "/repo/src/a.ts" 3 7 (frameOf "2") ≠
      framedIdentity "2" ["a"] "/repo/src/a.ts" 3 7 (frameOf "3") ∧
    framedIdentity "/repo" ["a"] " 1 |" 3 7 (frameOf "2") ≠
      framedIdentity "/repo" ["a"] " 1 |" 3 7 [js " 1 |:3:7", js "> 9 | b", js "    | ^"] := by
  decide +kernel

end Runs

end Musi.LintRatchet
