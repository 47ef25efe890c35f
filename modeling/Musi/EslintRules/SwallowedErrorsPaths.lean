import Musi.System.Flow

namespace Musi.EslintRules
open Musi.System
set_option autoImplicit true

/-! ## Statements

The console calls, the returns and the throws have labels. Nested functions are values. -/

inductive Expression
  | value
  /-- whatever may throw: a name, a property, a call of a function -/
  | unknown
  | consoleCall (label : Nat) (arguments : Expression)
  | both (first second : Expression)
  | choice (test consequent alternate : Expression)

mutual

inductive Statement
  | expression (e : Expression)
  | block (body : Statements)
  | ifThen (test : Expression) (consequent : Statement)
  | ifElse (test : Expression) (consequent alternate : Statement)
  | whileLoop (test : Expression) (body : Statement)
  | doWhile (body : Statement) (test : Expression)
  | forLoop (init test update : Expression) (body : Statement)
  | forOf (right : Expression) (body : Statement)
  | tryCatch (block handler : Statement)
  | tryFinally (block finalizer : Statement)
  | breakLoop
  | continueLoop
  | returns (label : Nat) (argument : Expression)
  | throws (label : Nat) (argument : Expression)

inductive Statements
  | nil
  | cons (first : Statement) (rest : Statements)

end

/-! ## What runs -/

inductive Completion
  | normal
  | breaks
  | continues
  | returned
  | thrown
  deriving DecidableEq

abbrev Control := Flow Nat Completion

def followedBy (first second : Control) : Control :=
  .andThen first fun c => if c = .normal then second else .done c

def Expression.flow : Expression → Control
  | value => .done .normal
  | unknown => .either (.done .normal) (.done .thrown)
  | consoleCall label arguments => followedBy arguments.flow (.emit label .normal)
  | both first second => followedBy first.flow second.flow
  | choice test consequent alternate =>
    followedBy test.flow (.either consequent.flow alternate.flow)

/-- The body of a loop, and what comes after it before the next turn. -/
def turn (body rest : Control) : Control :=
  .andThen body fun c => if c = .normal ∨ c = .continues then rest else .done c

/-- The loop is over when its test fails, which counts as a break here. -/
def whileTrue (test body : Control) : Control := followedBy test (.either body (.done .breaks))

def afterTurn : Completion → Option Completion
  | .normal => none
  | .continues => none
  | .breaks => some .normal
  | .returned => some .returned
  | .thrown => some .thrown

mutual

def Statement.flow : Statement → Control
  | .expression e => e.flow
  | .block body => body.flow
  | .ifThen test consequent => followedBy test.flow (.either consequent.flow (.done .normal))
  | .ifElse test consequent alternate =>
    followedBy test.flow (.either consequent.flow alternate.flow)
  | .whileLoop test body => .loop afterTurn (whileTrue test.flow (turn body.flow (.done .normal)))
  | .doWhile body test => .loop afterTurn (turn body.flow (whileTrue test.flow (.done .normal)))
  | .forLoop init test update body =>
    followedBy init.flow (.loop afterTurn (whileTrue test.flow (turn body.flow update.flow)))
  | .forOf right body =>
    followedBy right.flow
      (.loop afterTurn (whileTrue Expression.unknown.flow (turn body.flow (.done .normal))))
  | .tryCatch block handler =>
    .andThen block.flow fun c => if c = .thrown then handler.flow else .done c
  | .tryFinally block finalizer =>
    .andThen block.flow fun c =>
      .andThen finalizer.flow fun d => .done (if d = .normal then c else d)
  | .breakLoop => .done .breaks
  | .continueLoop => .done .continues
  | .returns label argument => followedBy argument.flow (.emit label .returned)
  | .throws label argument => followedBy argument.flow (.emit label .thrown)

def Statements.flow : Statements → Control
  | .nil => .done .normal
  | .cons first rest => followedBy first.flow rest.flow

end

/-! ## The check -/

def Expression.labels : Expression → List Nat
  | value => []
  | unknown => []
  | consoleCall label arguments => label :: arguments.labels
  | both first second => first.labels ++ second.labels
  | choice test consequent alternate => test.labels ++ consequent.labels ++ alternate.labels

mutual

/-- The labels of the statement and of what is in it, in the order of the text. -/
def Statement.labels : Statement → List Nat
  | .expression e => e.labels
  | .block body => body.labels
  | .ifThen test consequent => test.labels ++ consequent.labels
  | .ifElse test consequent alternate => test.labels ++ consequent.labels ++ alternate.labels
  | .whileLoop test body => test.labels ++ body.labels
  | .doWhile body test => body.labels ++ test.labels
  | .forLoop init test update body => init.labels ++ test.labels ++ update.labels ++ body.labels
  | .forOf right body => right.labels ++ body.labels
  | .tryCatch block handler => block.labels ++ handler.labels
  | .tryFinally block finalizer => block.labels ++ finalizer.labels
  | .breakLoop => []
  | .continueLoop => []
  | .returns label argument => label :: argument.labels
  | .throws label argument => label :: argument.labels

def Statements.labels : Statements → List Nat
  | .nil => []
  | .cons first rest => first.labels ++ rest.labels

end

/-- A node is no descendant of itself. -/
def isDescendantOf (node : Nat) : Statement → Bool
  | .returns _ argument => node ∈ argument.labels
  | .throws _ argument => node ∈ argument.labels
  | statement => node ∈ statement.labels

def isExit : Statement → Bool
  | .returns _ _ => true
  | .throws _ _ => true
  | _ => false

def Statements.any (p : Statement → Bool) : Statements → Bool
  | .nil => false
  | .cons first rest => p first || rest.any p

/-- The first return or throw counts behind the direct statement that has the node in it. -/
def Statements.terminatesAfter (node : Nat) : Statements → Bool
  | .nil => false
  | .cons first rest =>
    if node ∈ first.labels then rest.any isExit else rest.terminatesAfter node

def branchTerminatesAfter (node : Nat) : Statement → Bool
  | .block body => body.terminatesAfter node
  | _ => false

/-- An if statement, with the labels that begin where it ends or later. -/
structure IfPlace where
  consequent : Statement
  alternate : Option Statement
  behind : List Nat

mutual

/-- The if statements in a statement that has these labels behind it. -/
def Statement.ifPlaces (behind : List Nat) : Statement → List IfPlace
  | .expression _ => []
  | .block body => body.ifPlaces behind
  | .ifThen _ consequent => ⟨consequent, none, behind⟩ :: consequent.ifPlaces behind
  | .ifElse _ consequent alternate =>
    ⟨consequent, some alternate, behind⟩ ::
      (consequent.ifPlaces (alternate.labels ++ behind) ++ alternate.ifPlaces behind)
  | .whileLoop _ body => body.ifPlaces behind
  | .doWhile body test => body.ifPlaces (test.labels ++ behind)
  | .forLoop _ _ _ body => body.ifPlaces behind
  | .forOf _ body => body.ifPlaces behind
  | .tryCatch block handler => block.ifPlaces (handler.labels ++ behind) ++ handler.ifPlaces behind
  | .tryFinally block finalizer =>
    block.ifPlaces (finalizer.labels ++ behind) ++ finalizer.ifPlaces behind
  | .breakLoop => []
  | .continueLoop => []
  | .returns _ _ => []
  | .throws _ _ => []

def Statements.ifPlaces (behind : List Nat) : Statements → List IfPlace
  | .nil => []
  | .cons first rest => first.ifPlaces (rest.labels ++ behind) ++ rest.ifPlaces behind

end

/-- The branch that has the node in it, and the other branch. -/
def containingIfBranch (node : Nat) (place : IfPlace) : Option (Statement × Option Statement) :=
  if isDescendantOf node place.consequent then some (place.consequent, place.alternate)
  else if place.alternate.any (isDescendantOf node) then
    place.alternate.map fun alternate => (alternate, some place.consequent)
  else none

/-- The if statement shows, to the check, that no path has both nodes. -/
def IfPlace.separates (place : IfPlace) (first second : Nat) : Bool :=
  (containingIfBranch first place).any fun (firstBranch, otherBranch) =>
    otherBranch.any (isDescendantOf second) ||
      (second ∈ place.behind && branchTerminatesAfter first firstBranch)

def nodesMaySharePath (catchBody : Statement) (first second : Nat) : Bool :=
  !(catchBody.ifPlaces []).any fun place => place.separates first second

/-! ## When the check is right -/

/-- Whether control leads from the start of the body to the one node and then to the other, by way
of the loops, the jumps and the handlers in the body. -/
def leadsInOrder (catchBody : Statement) (first second : Nat) : Bool :=
  catchBody.flow.leads (inOrder first second) .waiting .finished

/-- `while (…) { if (…) { console.error(…); } else { return null; } }` -/
def loopedCatch : Statement :=
  .block (.cons (.whileLoop .unknown (.block (.cons (.ifElse .unknown
    (.block (.cons (.expression (.consoleCall 0 .unknown)) .nil))
    (.block (.cons (.returns 1 .value) .nil))) .nil))) .nil)

mutual

def Statement.isStraight : Statement → Bool
  | .expression _ => true
  | .block body => body.isStraight
  | .ifThen _ consequent => consequent.isStraight
  | .ifElse _ consequent alternate => consequent.isStraight && alternate.isStraight
  | .returns _ _ => true
  | .throws _ _ => true
  | _ => false

def Statements.isStraight : Statements → Bool
  | .nil => true
  | .cons first rest => first.isStraight && rest.isStraight

end

theorem runs_done {c d : Completion} (h : (Flow.done c : Control).Runs t d) : t = [] ∧ d = c := by
  cases h
  exact ⟨rfl, rfl⟩

theorem runs_emit {a : Nat} {c d : Completion} (h : (Flow.emit a c : Control).Runs t d) :
    t = [a] ∧ d = c := by
  cases h
  exact ⟨rfl, rfl⟩

theorem runs_either {f g : Control} {c : Completion} (h : (Flow.either f g).Runs t c) :
    f.Runs t c ∨ g.Runs t c := by
  cases h with
  | left hf => exact .inl hf
  | right hg => exact .inr hg

theorem runs_followedBy {first second : Control} {c : Completion}
    (h : (followedBy first second).Runs t c) :
    (first.Runs t c ∧ c ≠ .normal) ∨
      ∃ before after, first.Runs before .normal ∧ second.Runs after c ∧ t = before ++ after := by
  cases h with
  | @andThen _ before d _ after _ hfirst hsecond =>
    by_cases hnormal : d = .normal
    · rw [hnormal] at hfirst hsecond
      exact .inr ⟨before, after, hfirst, hsecond, rfl⟩
    · have hdone : (Flow.done d : Control).Runs after c := by
        rw [show (fun c => if c = Completion.normal then second else Flow.done c) d = Flow.done d
          from if_neg hnormal] at hsecond
        exact hsecond
      obtain ⟨rfl, rfl⟩ := runs_done hdone
      rw [List.append_nil]
      exact .inl ⟨hfirst, hnormal⟩

theorem Expression.runs_labels {e : Expression} {t : List Nat} {c : Completion}
    (h : e.flow.Runs t c) {a : Nat} (ha : a ∈ t) : a ∈ e.labels := by
  induction e generalizing t c with
  | value =>
    obtain ⟨rfl, -⟩ := runs_done h
    exact ha
  | unknown =>
    rcases runs_either h with h | h
    · obtain ⟨rfl, -⟩ := runs_done h
      exact ha
    · obtain ⟨rfl, -⟩ := runs_done h
      exact ha
  | consoleCall label arguments ih =>
    rcases runs_followedBy h with ⟨h, -⟩ | ⟨before, after, hbefore, hafter, rfl⟩
    · exact List.mem_cons_of_mem _ (ih h ha)
    · obtain ⟨rfl, -⟩ := runs_emit hafter
      rw [List.mem_append, List.mem_singleton] at ha
      rcases ha with ha | rfl
      · exact List.mem_cons_of_mem _ (ih hbefore ha)
      · exact List.mem_cons_self
  | both first second ihfirst ihsecond =>
    rw [labels, List.mem_append]
    rcases runs_followedBy h with ⟨h, -⟩ | ⟨before, after, hbefore, hafter, rfl⟩
    · exact .inl (ihfirst h ha)
    · rw [List.mem_append] at ha
      exact ha.imp (ihfirst hbefore) (ihsecond hafter)
  | choice test consequent alternate ihtest ihconsequent ihalternate =>
    rw [labels, List.mem_append, List.mem_append]
    rcases runs_followedBy h with ⟨h, -⟩ | ⟨before, after, hbefore, hafter, rfl⟩
    · exact .inl (.inl (ihtest h ha))
    · rw [List.mem_append] at ha
      rcases ha with ha | ha
      · exact .inl (.inl (ihtest hbefore ha))
      · rcases runs_either hafter with hafter | hafter
        · exact .inl (.inr (ihconsequent hafter ha))
        · exact .inr (ihalternate hafter ha)

/-- Only the labels of the test come before a branch. -/
theorem runs_branch {test : Expression} {f g : Control} {c : Completion}
    (h : (followedBy test.flow (.either f g)).Runs t c) :
    (∀ x ∈ t, x ∈ test.labels) ∨ ∃ before after, (∀ x ∈ before, x ∈ test.labels) ∧
      (Flow.either f g).Runs after c ∧ t = before ++ after := by
  rcases runs_followedBy h with ⟨htest, -⟩ | ⟨before, after, htest, hbranch, rfl⟩
  · exact .inl fun x hx => Expression.runs_labels htest hx
  · exact .inr ⟨before, after, fun x hx => Expression.runs_labels htest hx, hbranch, rfl⟩

mutual

theorem Statement.runs_labels {a : Nat} {t : List Nat} {c : Completion} :
    ∀ {s : Statement}, s.isStraight = true → s.flow.Runs t c → a ∈ t → a ∈ s.labels
  | .expression e, _, h, ha => Expression.runs_labels h ha
  | .block body, hs, h, ha => by
    have hbody : body.isStraight = true := hs
    exact Statements.runs_labels hbody h ha
  | .ifThen test consequent, hs, h, ha => by
    rw [Statement.labels, List.mem_append]
    rcases runs_branch h with h | ⟨before, after, hbefore, hafter, rfl⟩
    · exact .inl (h a ha)
    · rw [List.mem_append] at ha
      rcases ha with ha | ha
      · exact .inl (hbefore a ha)
      · rcases runs_either hafter with hafter | hafter
        · exact .inr (Statement.runs_labels hs hafter ha)
        · obtain ⟨rfl, -⟩ := runs_done hafter
          exact absurd ha List.not_mem_nil
  | .ifElse test consequent alternate, hs, h, ha => by
    rw [Statement.isStraight, Bool.and_eq_true] at hs
    rw [Statement.labels, List.mem_append, List.mem_append]
    rcases runs_branch h with h | ⟨before, after, hbefore, hafter, rfl⟩
    · exact .inl (.inl (h a ha))
    · rw [List.mem_append] at ha
      rcases ha with ha | ha
      · exact .inl (.inl (hbefore a ha))
      · rcases runs_either hafter with hafter | hafter
        · exact .inl (.inr (Statement.runs_labels hs.1 hafter ha))
        · exact .inr (Statement.runs_labels hs.2 hafter ha)
  | .returns label argument, _, h, ha => by
    rw [Statement.labels, List.mem_cons]
    rcases runs_followedBy h with ⟨h, -⟩ | ⟨before, after, hbefore, hafter, rfl⟩
    · exact .inr (Expression.runs_labels h ha)
    · obtain ⟨rfl, -⟩ := runs_emit hafter
      rw [List.mem_append, List.mem_singleton] at ha
      exact ha.symm.imp_right (Expression.runs_labels hbefore)
  | .throws label argument, _, h, ha => by
    rw [Statement.labels, List.mem_cons]
    rcases runs_followedBy h with ⟨h, -⟩ | ⟨before, after, hbefore, hafter, rfl⟩
    · exact .inr (Expression.runs_labels h ha)
    · obtain ⟨rfl, -⟩ := runs_emit hafter
      rw [List.mem_append, List.mem_singleton] at ha
      exact ha.symm.imp_right (Expression.runs_labels hbefore)

theorem Statements.runs_labels {a : Nat} {t : List Nat} {c : Completion} :
    ∀ {ss : Statements}, ss.isStraight = true → ss.flow.Runs t c → a ∈ t → a ∈ ss.labels
  | .nil, _, h, ha => by
    obtain ⟨rfl, -⟩ := runs_done h
    exact ha
  | .cons first rest, hs, h, ha => by
    rw [Statements.isStraight, Bool.and_eq_true] at hs
    rw [Statements.labels, List.mem_append]
    rcases runs_followedBy h with ⟨h, -⟩ | ⟨before, after, hbefore, hafter, rfl⟩
    · exact .inl (Statement.runs_labels hs.1 h ha)
    · rw [List.mem_append] at ha
      exact ha.imp (Statement.runs_labels hs.1 hbefore) (Statements.runs_labels hs.2 hafter)

end

theorem isExit_runs {s : Statement} (hexit : isExit s = true) (h : s.flow.Runs t c) : c ≠ .normal := by
  cases s with
  | returns label argument =>
    rcases runs_followedBy h with ⟨-, hc⟩ | ⟨before, after, -, hafter, -⟩
    · exact hc
    · obtain ⟨-, rfl⟩ := runs_emit hafter
      decide
  | throws label argument =>
    rcases runs_followedBy h with ⟨-, hc⟩ | ⟨before, after, -, hafter, -⟩
    · exact hc
    · obtain ⟨-, rfl⟩ := runs_emit hafter
      decide
  | _ => cases hexit

theorem any_isExit_runs : ∀ {ss : Statements} {t : List Nat}, ss.any isExit = true →
    ss.flow.Runs t c → c ≠ .normal
  | .nil, _, hexit, _ => by cases hexit
  | .cons first rest, _, hexit, h => by
    rw [Statements.any, Bool.or_eq_true] at hexit
    rcases runs_followedBy h with ⟨-, hc⟩ | ⟨before, after, hbefore, hafter, -⟩
    · exact hc
    · rcases hexit with hexit | hexit
      · exact absurd rfl (isExit_runs hexit hbefore)
      · exact any_isExit_runs hexit hafter

theorem terminatesAfter_runs : ∀ {ss : Statements} {t : List Nat}, ss.isStraight = true →
    ss.terminatesAfter a = true → ss.flow.Runs t c → a ∈ t → c ≠ .normal
  | .nil, _, _, hterminates, _, _ => by cases hterminates
  | .cons first rest, _, hs, hterminates, h, ha => by
    rw [Statements.isStraight, Bool.and_eq_true] at hs
    rcases runs_followedBy h with ⟨-, hc⟩ | ⟨before, after, hbefore, hafter, rfl⟩
    · exact hc
    · rw [Statements.terminatesAfter] at hterminates
      split at hterminates
      · exact any_isExit_runs hterminates hafter
      · next hfirst =>
        rw [List.mem_append] at ha
        have hlater := ha.resolve_left fun hmem => hfirst (Statement.runs_labels hs.1 hbefore hmem)
        exact terminatesAfter_runs hs.2 hterminates hafter hlater

namespace IfPlace

def labels (place : IfPlace) : List Nat :=
  place.consequent.labels ++ (place.alternate.map Statement.labels).getD []

def flow (place : IfPlace) : Control :=
  .either place.consequent.flow ((place.alternate.map Statement.flow).getD (.done .normal))

def isStraight (place : IfPlace) : Bool :=
  place.consequent.isStraight && place.alternate.all Statement.isStraight

end IfPlace

theorem isDescendantOf_labels {s : Statement} (h : isDescendantOf a s = true) : a ∈ s.labels := by
  cases s with
  | returns label argument => exact List.mem_cons_of_mem _ (of_decide_eq_true h)
  | throws label argument => exact List.mem_cons_of_mem _ (of_decide_eq_true h)
  | _ => exact of_decide_eq_true h

theorem branchTerminatesAfter_runs {s : Statement} (hs : s.isStraight = true)
    (hterminates : branchTerminatesAfter a s = true) (h : s.flow.Runs t c) (ha : a ∈ t) :
    c ≠ .normal := by
  cases s with
  | block body =>
    have hbody : body.isStraight = true := hs
    exact terminatesAfter_runs hbody hterminates h ha
  | _ => cases hterminates

/-- What the check has found: the branch with the one node, and where the other is. -/
theorem separates_cases {place : IfPlace} (h : place.separates a b = true) :
    (isDescendantOf a place.consequent = true ∧
      ((∃ alternate, place.alternate = some alternate ∧ isDescendantOf b alternate = true) ∨
        b ∈ place.behind ∧ branchTerminatesAfter a place.consequent = true)) ∨
    ∃ alternate, place.alternate = some alternate ∧ isDescendantOf a alternate = true ∧
      (isDescendantOf b place.consequent = true ∨
        b ∈ place.behind ∧ branchTerminatesAfter a alternate = true) := by
  obtain ⟨consequent, alternate, behind⟩ := place
  rw [IfPlace.separates, containingIfBranch] at h
  by_cases hconsequent : isDescendantOf a consequent = true
  · rw [if_pos hconsequent, Option.any_some, Bool.or_eq_true, Bool.and_eq_true, decide_eq_true_eq,
      Option.any_eq_true] at h
    exact .inl ⟨hconsequent, h⟩
  · rw [if_neg hconsequent] at h
    cases alternate with
    | none => cases h
    | some alternate =>
      rw [Option.any_some] at h
      by_cases halternate : isDescendantOf a alternate = true
      · rw [if_pos halternate, Option.map_some, Option.any_some] at h
        refine .inr ⟨alternate, rfl, halternate, ?_⟩
        dsimp only at h
        rw [Option.any_some, Bool.or_eq_true, Bool.and_eq_true, decide_eq_true_eq] at h
        exact h
      · rw [if_neg halternate] at h
        cases h

theorem separates_labels {place : IfPlace} (h : place.separates a b = true) :
    a ∈ place.labels ∧ b ∈ place.labels ++ place.behind := by
  rw [IfPlace.labels, List.mem_append, List.mem_append, List.mem_append]
  rcases separates_cases h with ⟨ha, hb⟩ | ⟨alternate, halternate, ha, hb⟩
  · refine ⟨.inl (isDescendantOf_labels ha), ?_⟩
    rcases hb with ⟨alternate, halternate, hb⟩ | ⟨hb, -⟩
    · rw [halternate]
      exact .inl (.inr (isDescendantOf_labels hb))
    · exact .inr hb
  · rw [halternate]
    refine ⟨.inr (isDescendantOf_labels ha), ?_⟩
    rcases hb with hb | ⟨hb, -⟩
    · exact .inl (.inl (isDescendantOf_labels hb))
    · exact .inr hb

theorem place_runs_labels {place : IfPlace} (hs : place.isStraight = true) (h : place.flow.Runs t c)
    (ha : a ∈ t) : a ∈ place.labels := by
  obtain ⟨consequent, alternate, behind⟩ := place
  rw [IfPlace.isStraight, Bool.and_eq_true] at hs
  rw [IfPlace.labels, List.mem_append]
  rcases runs_either h with h | h
  · exact .inl (Statement.runs_labels hs.1 h ha)
  · cases alternate with
    | none =>
      obtain ⟨rfl, -⟩ := runs_done h
      exact absurd ha List.not_mem_nil
    | some alternate => exact .inr (Statement.runs_labels hs.2 h ha)

/-- A run that has the one node does not have the other, and does not get to what is behind. -/
def Apart (a b : Nat) (behind t : List Nat) (c : Completion) : Prop :=
  a ∈ t → b ∉ t ∧ (b ∈ behind → c ≠ .normal)

theorem place_apart {place : IfPlace} (hs : place.isStraight = true)
    (hnodup : (place.labels ++ place.behind).Nodup) (hseparates : place.separates a b = true)
    (h : place.flow.Runs t c) : Apart a b place.behind t c := by
  intro ha
  have hbehind (hb : b ∈ place.behind) : b ∉ t := by
    intro hmem
    exact (List.nodup_append.1 hnodup).2.2 b (place_runs_labels hs h hmem) b hb rfl
  have hbranch {x y : Nat} (hx : x ∈ place.consequent.labels)
      (hy : y ∈ (place.alternate.map Statement.labels).getD []) : x ≠ y :=
    (List.nodup_append.1 (List.nodup_append.1 hnodup).1).2.2 x hx y hy
  have hplace {x : Nat} (hx : x ∈ place.labels) : x ∉ place.behind := by
    intro hmem
    exact (List.nodup_append.1 hnodup).2.2 x hx x hmem rfl
  obtain ⟨consequent, alternate, behind⟩ := place
  rw [IfPlace.isStraight, Bool.and_eq_true] at hs
  rcases separates_cases hseparates with ⟨hin, hb⟩ | ⟨other, halternate, hin, hb⟩
  · have hruns : consequent.flow.Runs t c := by
      refine (runs_either h).resolve_right fun h => ?_
      cases alternate with
      | none =>
        obtain ⟨rfl, -⟩ := runs_done h
        exact List.not_mem_nil ha
      | some other =>
        exact hbranch (isDescendantOf_labels hin) (Statement.runs_labels hs.2 h ha) rfl
    rcases hb with ⟨other, halternate, hb⟩ | ⟨hb, hterminates⟩
    · have hother : b ∈ (alternate.map Statement.labels).getD [] := by
        have halternate : alternate = some other := halternate
        rw [halternate]
        exact isDescendantOf_labels hb
      refine ⟨fun hmem => hbranch (Statement.runs_labels hs.1 hruns hmem) hother rfl, fun hmem => ?_⟩
      exact absurd hmem (hplace (List.mem_append_right _ hother))
    · exact ⟨hbehind hb, fun _ => branchTerminatesAfter_runs hs.1 hterminates hruns ha⟩
  · have halternate : alternate = some other := halternate
    subst halternate
    have hruns : other.flow.Runs t c := by
      refine (runs_either h).resolve_left fun h => ?_
      exact hbranch (Statement.runs_labels hs.1 h ha) (isDescendantOf_labels hin) rfl
    rcases hb with hb | ⟨hb, hterminates⟩
    · have hconsequent := isDescendantOf_labels hb
      refine ⟨fun hmem => hbranch hconsequent (Statement.runs_labels hs.2 hruns hmem) rfl,
        fun hmem => ?_⟩
      exact absurd hmem (hplace (List.mem_append_left _ hconsequent))
    · exact ⟨hbehind hb, fun _ => branchTerminatesAfter_runs hs.2 hterminates hruns ha⟩

/-- Nodes of a branch are apart in the whole if statement when they are so in the branch. -/
theorem branch_apart {test : Expression} {f g : Control} (ha : a ∉ test.labels) (hb : b ∉ test.labels)
    (h : (followedBy test.flow (.either f g)).Runs t c)
    (hbranch : ∀ {after}, (Flow.either f g).Runs after c → Apart a b behind after c) :
    Apart a b behind t c := by
  intro hmem
  rcases runs_branch h with h | ⟨before, after, hbefore, hafter, rfl⟩
  · exact absurd (h a hmem) ha
  · rw [List.mem_append] at hmem
    have hin := hmem.resolve_left fun h => ha (hbefore a h)
    obtain ⟨hnot, hnormal⟩ := hbranch hafter hin
    refine ⟨fun h => ?_, hnormal⟩
    rw [List.mem_append] at h
    exact h.elim (fun h => hb (hbefore b h)) hnot

mutual

theorem Statement.place_labels {a b : Nat} {place : IfPlace} :
    ∀ {s : Statement} {behind : List Nat}, s.isStraight = true → place ∈ s.ifPlaces behind →
      place.separates a b = true → a ∈ s.labels ∧ b ∈ s.labels ++ behind
  | .expression _, _, _, hplace, _ => absurd hplace List.not_mem_nil
  | .block body, behind, hs, hplace, h => by
    have hbody : body.isStraight = true := hs
    have hplace : place ∈ body.ifPlaces behind := hplace
    exact Statements.place_labels hbody hplace h
  | .ifThen test consequent, behind, hs, hplace, h => by
    have hin : a ∈ consequent.labels ∧ b ∈ consequent.labels ++ behind := by
      rcases List.mem_cons.1 hplace with rfl | hplace
      · have hroot := separates_labels h
        rw [IfPlace.labels, Option.map_none, Option.getD_none, List.append_nil] at hroot
        exact hroot
      · exact Statement.place_labels hs hplace h
    rw [Statement.labels, List.append_assoc]
    exact ⟨List.mem_append_right _ hin.1, List.mem_append_right _ hin.2⟩
  | .ifElse test consequent alternate, behind, hs, hplace, h => by
    rw [Statement.isStraight, Bool.and_eq_true] at hs
    have hin : a ∈ consequent.labels ++ alternate.labels ∧
        b ∈ consequent.labels ++ alternate.labels ++ behind := by
      rw [Statement.ifPlaces, List.mem_cons, List.mem_append] at hplace
      rcases hplace with rfl | hplace | hplace
      · exact separates_labels h
      · obtain ⟨ha, hb⟩ := Statement.place_labels hs.1 hplace h
        rw [List.append_assoc]
        exact ⟨List.mem_append_left _ ha, hb⟩
      · obtain ⟨ha, hb⟩ := Statement.place_labels hs.2 hplace h
        rw [List.append_assoc]
        exact ⟨List.mem_append_right _ ha, List.mem_append_right _ hb⟩
    rw [Statement.labels, List.append_assoc, List.append_assoc]
    exact ⟨List.mem_append_right _ hin.1, List.mem_append_right _ hin.2⟩
  | .returns _ _, _, _, hplace, _ => absurd hplace List.not_mem_nil
  | .throws _ _, _, _, hplace, _ => absurd hplace List.not_mem_nil

theorem Statements.place_labels {a b : Nat} {place : IfPlace} :
    ∀ {ss : Statements} {behind : List Nat}, ss.isStraight = true → place ∈ ss.ifPlaces behind →
      place.separates a b = true → a ∈ ss.labels ∧ b ∈ ss.labels ++ behind
  | .nil, _, _, hplace, _ => absurd hplace List.not_mem_nil
  | .cons first rest, behind, hs, hplace, h => by
    rw [Statements.isStraight, Bool.and_eq_true] at hs
    rw [Statements.ifPlaces, List.mem_append] at hplace
    rw [Statements.labels, List.append_assoc]
    rcases hplace with hplace | hplace
    · obtain ⟨ha, hb⟩ := Statement.place_labels hs.1 hplace h
      exact ⟨List.mem_append_left _ ha, hb⟩
    · obtain ⟨ha, hb⟩ := Statements.place_labels hs.2 hplace h
      exact ⟨List.mem_append_right _ ha, List.mem_append_right _ hb⟩

end

theorem Apart.mono (h : Apart a b behind t c) (hsub : ∀ x ∈ behind', x ∈ behind) :
    Apart a b behind' t c := by
  intro ha
  obtain ⟨hnot, hnormal⟩ := h ha
  exact ⟨hnot, fun hb => hnormal (hsub b hb)⟩

theorem notMem_of_nodup {xs ys : List Nat} (h : (xs ++ ys).Nodup) {x : Nat} (hx : x ∈ ys) : x ∉ xs :=
  fun hmem => (List.nodup_append.1 h).2.2 x hmem x hx rfl

mutual

theorem Statement.apart {a b : Nat} {place : IfPlace} :
    ∀ {s : Statement} {behind t : List Nat} {c : Completion}, s.isStraight = true →
      (s.labels ++ behind).Nodup → place ∈ s.ifPlaces behind → place.separates a b = true →
      s.flow.Runs t c → Apart a b behind t c
  | .expression _, _, _, _, _, _, hplace, _, _ => absurd hplace List.not_mem_nil
  | .block body, behind, _, _, hs, hnodup, hplace, h, hruns => by
    have hbody : body.isStraight = true := hs
    have hplace : place ∈ body.ifPlaces behind := hplace
    exact Statements.apart hbody hnodup hplace h hruns
  | .ifThen test consequent, behind, t, c, hs, hnodup, hplace, h, hruns => by
    rw [Statement.labels, List.append_assoc] at hnodup
    have hinside := hnodup.of_append_right
    rcases List.mem_cons.1 hplace with rfl | hplace
    · have hroot : (IfPlace.labels ⟨consequent, none, behind⟩ ++ behind).Nodup := by
        rw [IfPlace.labels, Option.map_none, Option.getD_none, List.append_nil]
        exact hinside
      have hlabels := separates_labels h
      rw [IfPlace.labels, Option.map_none, Option.getD_none, List.append_nil] at hlabels
      have hstraight : IfPlace.isStraight ⟨consequent, none, behind⟩ = true := by
        rw [IfPlace.isStraight, Option.all_none, Bool.and_true]
        exact hs
      exact branch_apart (notMem_of_nodup hnodup (List.mem_append_left _ hlabels.1))
        (notMem_of_nodup hnodup hlabels.2) hruns fun hafter => place_apart hstraight hroot h hafter
    · have hconsequent : consequent.isStraight = true := hs
      obtain ⟨ha, hb⟩ := Statement.place_labels hconsequent hplace h
      refine branch_apart (notMem_of_nodup hnodup (List.mem_append_left _ ha))
        (notMem_of_nodup hnodup hb) hruns fun hafter => ?_
      rcases runs_either hafter with hafter | hafter
      · exact Statement.apart hconsequent hinside hplace h hafter
      · obtain ⟨rfl, -⟩ := runs_done hafter
        exact fun hmem => absurd hmem List.not_mem_nil
  | .ifElse test consequent alternate, behind, t, c, hs, hnodup, hplace, h, hruns => by
    rw [Statement.labels, List.append_assoc, List.append_assoc] at hnodup
    have hinside := hnodup.of_append_right
    have hstraight : IfPlace.isStraight ⟨consequent, some alternate, behind⟩ = true := hs
    rw [Statement.isStraight, Bool.and_eq_true] at hs
    rw [Statement.ifPlaces, List.mem_cons, List.mem_append] at hplace
    rcases hplace with rfl | hplace | hplace
    · have hroot : (IfPlace.labels ⟨consequent, some alternate, behind⟩ ++ behind).Nodup := by
        rw [IfPlace.labels, Option.map_some, Option.getD_some, List.append_assoc]
        exact hinside
      have hlabels := separates_labels h
      rw [IfPlace.labels, Option.map_some, Option.getD_some, List.append_assoc] at hlabels
      have ha : a ∈ consequent.labels ++ (alternate.labels ++ behind) := by
        rw [← List.append_assoc]
        exact List.mem_append_left _ hlabels.1
      exact branch_apart (notMem_of_nodup hnodup ha) (notMem_of_nodup hnodup hlabels.2) hruns
        fun hafter => place_apart hstraight hroot h hafter
    · obtain ⟨ha, hb⟩ := Statement.place_labels hs.1 hplace h
      refine branch_apart (notMem_of_nodup hnodup (List.mem_append_left _ ha))
        (notMem_of_nodup hnodup hb) hruns fun hafter => ?_
      rcases runs_either hafter with hafter | hafter
      · exact (Statement.apart hs.1 hinside hplace h hafter).mono
          fun x hx => List.mem_append_right _ hx
      · intro hmem
        have hother := Statement.runs_labels hs.2 hafter hmem
        exact absurd ha (notMem_of_nodup hinside (List.mem_append_left _ hother))
    · obtain ⟨ha, hb⟩ := Statement.place_labels hs.2 hplace h
      refine branch_apart (notMem_of_nodup hnodup (List.mem_append_right _ (List.mem_append_left _ ha)))
        (notMem_of_nodup hnodup (List.mem_append_right _ hb)) hruns fun hafter => ?_
      rcases runs_either hafter with hafter | hafter
      · intro hmem
        have hother := Statement.runs_labels hs.1 hafter hmem
        exact absurd hother (notMem_of_nodup hinside (List.mem_append_left _ ha))
      · exact Statement.apart hs.2 hinside.of_append_right hplace h hafter
  | .returns _ _, _, _, _, _, _, hplace, _, _ => absurd hplace List.not_mem_nil
  | .throws _ _, _, _, _, _, _, hplace, _, _ => absurd hplace List.not_mem_nil

theorem Statements.apart {a b : Nat} {place : IfPlace} :
    ∀ {ss : Statements} {behind t : List Nat} {c : Completion}, ss.isStraight = true →
      (ss.labels ++ behind).Nodup → place ∈ ss.ifPlaces behind → place.separates a b = true →
      ss.flow.Runs t c → Apart a b behind t c
  | .nil, _, _, _, _, _, hplace, _, _ => absurd hplace List.not_mem_nil
  | .cons first rest, behind, t, c, hs, hnodup, hplace, h, hruns => by
    rw [Statements.isStraight, Bool.and_eq_true] at hs
    rw [Statements.labels, List.append_assoc] at hnodup
    rw [Statements.ifPlaces, List.mem_append] at hplace
    rcases hplace with hplace | hplace
    · have hfirst := Statement.place_labels hs.1 hplace h
      rcases runs_followedBy hruns with ⟨hruns, hc⟩ | ⟨before, after, hbefore, hafter, rfl⟩
      · exact (Statement.apart hs.1 hnodup hplace h hruns).mono fun x hx => List.mem_append_right _ hx
      · intro hmem
        rw [List.mem_append] at hmem
        have hin : a ∈ before := hmem.resolve_right fun hmem =>
          notMem_of_nodup hnodup (List.mem_append_left _ (Statements.runs_labels hs.2 hafter hmem))
            hfirst.1
        obtain ⟨hnot, hnormal⟩ := Statement.apart hs.1 hnodup hplace h hbefore hin
        have hbehind : b ∉ rest.labels ++ behind := fun hb => hnormal hb rfl
        rw [List.mem_append, not_or] at hbehind
        refine ⟨fun hb => ?_, fun hb => absurd hb hbehind.2⟩
        rw [List.mem_append] at hb
        exact hb.elim hnot fun hb => hbehind.1 (Statements.runs_labels hs.2 hafter hb)
    · obtain ⟨ha, hb⟩ := Statements.place_labels hs.2 hplace h
      have hnotFirst := notMem_of_nodup hnodup (List.mem_append_left _ ha)
      rcases runs_followedBy hruns with ⟨hruns, hc⟩ | ⟨before, after, hbefore, hafter, rfl⟩
      · intro hmem
        exact absurd (Statement.runs_labels hs.1 hruns hmem) hnotFirst
      · intro hmem
        rw [List.mem_append] at hmem
        have hin := hmem.resolve_left fun hmem => hnotFirst (Statement.runs_labels hs.1 hbefore hmem)
        obtain ⟨hnot, hnormal⟩ := Statements.apart hs.2 hnodup.of_append_right hplace h hafter hin
        refine ⟨fun hmem => ?_, hnormal⟩
        rw [List.mem_append] at hmem
        exact hmem.elim (fun hmem => notMem_of_nodup hnodup hb
          (Statement.runs_labels hs.1 hbefore hmem)) hnot

end

/-- Where no loop, no jump and no inner try is, the check is right. -/
theorem nodesMaySharePath_sound {catchBody : Statement} (hs : catchBody.isStraight = true)
    (hnodup : catchBody.labels.Nodup) {call exit : Nat}
    (h : nodesMaySharePath catchBody call exit = false)
    (hruns : catchBody.flow.Runs evaluated completion) : ¬[call, exit].Sublist evaluated := by
  intro hsub
  rw [nodesMaySharePath, Bool.not_eq_false', List.any_eq_true] at h
  obtain ⟨place, hplace, hseparates⟩ := h
  have hlabels : (catchBody.labels ++ []).Nodup := by
    rw [List.append_nil]
    exact hnodup
  have hcall : call ∈ evaluated := hsub.subset List.mem_cons_self
  have hexit : exit ∈ evaluated := hsub.subset (List.mem_cons_of_mem _ List.mem_cons_self)
  exact (Statement.apart hs hlabels hplace hseparates hruns hcall).1 hexit

/-- `if (…) console.error(…); else { return null; }` -/
def branchedCatch : Statement :=
  .ifElse .unknown (.expression (.consoleCall 0 .unknown)) (.block (.cons (.returns 1 .value) .nil))

theorem nodesMaySharePath_sound_branched :
    branchedCatch.flow.Runs [0] .normal ∧ ¬[0, 1].Sublist [0] := by
  have hruns : branchedCatch.flow.Runs ([] ++ ([] ++ [0])) .normal :=
    .andThen (.left .done) (.left (.andThen (.left .done) .emit))
  exact ⟨hruns, nodesMaySharePath_sound (by decide) (by decide) (by decide) hruns⟩

end Musi.EslintRules
