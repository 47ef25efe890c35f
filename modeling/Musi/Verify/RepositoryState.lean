import Mathlib.Data.List.Dedup
import Musi.Shell.Text

namespace Musi.Verify
open Musi.Shell
set_option autoImplicit true

section

/-! ## What git records -/

inductive EntryKind
  | file
  | symlink
  | gitlink
  deriving DecidableEq

/-- An entry of a tree or of the index: its type, its mode and its content. -/
structure IndexEntry where
  kind : EntryKind
  executable : Bool
  content : Text
  deriving DecidableEq

abbrev Tree := Text → Option IndexEntry

def isHex (c : Char) : Bool := c ∈ sh "0123456789abcdef"

/-- What `rev-parse HEAD` prints of a commit. -/
structure CommitId where
  value : Text
  hex : value ≠ [] ∧ ∀ c ∈ value, isHex c = true
  deriving DecidableEq

inductive WorktreeNode
  | file (executable : Bool) (content : Text)
  | symlink (target : Text)
  | submodule (commit : Text)
  deriving DecidableEq

/-- The entry that staging a node would make. -/
def WorktreeNode.entry : WorktreeNode → IndexEntry
  | .file executable content => { kind := .file, executable, content }
  | .symlink target => { kind := .symlink, executable := false, content := target }
  | .submodule commit => { kind := .gitlink, executable := false, content := commit }

/-- A node without its executable bit. -/
def WorktreeNode.bare : WorktreeNode → WorktreeNode
  | .file _ content => .file false content
  | node => node

/-- One moment of a repository whose commits have the given trees. -/
structure RepoState (trees : CommitId → Tree) where
  head : Option CommitId
  index : Tree
  worktree : Text → Option WorktreeNode
  /-- The content of the regular file that a symlink leads to, if it leads to one. -/
  linked : Text → Option Text
  /-- What `--exclude-standard` leaves out. -/
  ignored : Text → Bool
  /-- The fast-commit mode of the snapshot. -/
  fastCommit : Bool
  /-- Every path of the head, the index or the worktree. -/
  paths : List Text
  complete : ∀ path, head.bind (trees · path) ≠ none ∨ index path ≠ none ∨ worktree path ≠ none →
    path ∈ paths
  named : ∀ path ∈ paths, path ≠ [] ∧ '\x00' ∉ path

variable {trees : CommitId → Tree}

/-- The tree that the diffs compare with; empty before the first commit. -/
def RepoState.headTree (s : RepoState trees) : Tree := fun path => s.head.bind (trees · path)

/-- The side of the worktree in a diff with HEAD: a path that is not in the index is gone. -/
def RepoState.worktreeTree (s : RepoState trees) : Tree := fun path =>
  if s.index path = none then none else (s.worktree path).map (·.entry)

/-- What `[ -f ]` and sha256sum see of a path. -/
def RepoState.reading (s : RepoState trees) (path : Text) : Option Text :=
  match s.worktree path with
  | some (.file _ content) => some content
  | some (.symlink _) => s.linked path
  | some (.submodule _) | none => none

/-! ## Diffs -/

inductive DiffStatus
  | added
  | copied
  | deleted
  | modified
  | renamed
  | typeChanged
  deriving DecidableEq

/-- What rename detection makes of a path that only one side has. -/
inductive Pairing
  | rename
  | copy

def diffStatus (pairing : Option Pairing) : Option IndexEntry → Option IndexEntry → Option DiffStatus
  | none, none => none
  | none, some _ => match pairing with
    | none => some .added
    | some .rename => some .renamed
    | some .copy => some .copied
  | some _, none => match pairing with
    | some .rename => some .renamed
    | _ => some .deleted
  | some old, some new =>
    if old = new then none
    else if old.kind = new.kind then some .modified
    else some .typeChanged

structure Change where
  path : Text
  status : DiffStatus
  old : Option IndexEntry
  new : Option IndexEntry
  deriving DecidableEq

/-- The programs that the functions call: git diff, by the entries it prints, and sha256sum, by
the digest it prints. -/
structure Tools where
  pairing : Tree → Tree → Text → Option Pairing
  diffText : List Change → Text
  sha256sum : Text → Text

/-- What `--name-only` prints: a rename by its new path. -/
def nameOnly (changes : List Change) : List Text :=
  (changes.filter fun change => !(change.status = .renamed && change.new.isNone)).map (·.path)

/-- The letters ACMRD. -/
def filterACMRD : List DiffStatus := [.added, .copied, .modified, .renamed, .deleted]

/-- The entries that `git diff --diff-filter` selects. -/
def selectedChanges (tools : Tools) (diffFilter : List DiffStatus) (old new : Tree)
    (paths : List Text) : List Change :=
  paths.filterMap fun path =>
    match diffStatus (tools.pairing old new path) (old path) (new path) with
    | none => none
    | some status =>
      if status ∈ diffFilter then some { path, status, old := old path, new := new path } else none

end

section
variable {trees : CommitId → Tree}

/-! ## Path policy -/

/-- The selectors that the queries match a path against. -/
structure PathPolicy where
  sourceRelevant : Text → Bool
  precommitStagedExcluded : Text → Bool
  precommitTrackedExtra : Text → Bool
  /-- No selector or prefix starts with a dash, so no selected path is an option of sha256sum. -/
  undashed : ∀ path, sourceRelevant path = true ∨ precommitTrackedExtra path = true →
    path.head? ≠ some '-'

def PathPolicy.precommitStaged (policy : PathPolicy) (path : Text) : Bool :=
  policy.sourceRelevant path && !policy.precommitStagedExcluded path

def PathPolicy.precommitTracked (policy : PathPolicy) (path : Text) : Bool :=
  policy.sourceRelevant path || policy.precommitTrackedExtra path

/-! ## Staged changes -/

def stagedSourcePathsNul (tools : Tools) (diffFilter : List DiffStatus) (policyQuery : Text → Bool)
    (s : RepoState trees) : List Text :=
  (nameOnly (selectedChanges tools diffFilter s.headTree s.index s.paths)).filter policyQuery

def stagedHasSourceRelevantChange (tools : Tools) (policy : PathPolicy) (s : RepoState trees) : Bool :=
  !(stagedSourcePathsNul tools filterACMRD policy.precommitStaged s).isEmpty

/-! ## The digest input -/

/-- `sort -z -u` in the C locale. -/
def sortUnique (paths : List Text) : List Text :=
  (paths.mergeSort fun a b => !List.lex b a fun c d => decide (c.toNat < d.toNat)).dedup

/-- The characters that sha256sum escapes in a file name. -/
def escapeChar (c : Char) : Text :=
  if c = '\\' then sh "\\\\"
  else if c = '\n' then sh "\\n"
  else if c = '\r' then sh "\\r"
  else [c]

def needsEscape (path : Text) : Bool := path.any fun c => c = '\\' || c = '\n' || c = '\r'

/-- A line of sha256sum. -/
def checksumLine (digest path : Text) : Text :=
  (if needsEscape path then ['\\'] else []) ++ digest ++ sh "  " ++ path.flatMap escapeChar ++ ['\n']

/-- What is written of one selected path. -/
structure PathRecord where
  path : Text
  digest : Option Text

def recordText (record : PathRecord) : Text :=
  match record.digest with
  | some digest => checksumLine digest record.path
  | none => sh "deleted" ++ '\x00' :: record.path ++ ['\x00']

def trackedPaths (tools : Tools) (policy : PathPolicy) (s : RepoState trees) : List Text :=
  (sortUnique (nameOnly (selectedChanges tools filterACMRD s.headTree s.worktreeTree s.paths))).filter
    policy.precommitTracked

def trackedRecords (tools : Tools) (policy : PathPolicy) (s : RepoState trees) : List PathRecord :=
  (trackedPaths tools policy s).map fun path =>
    { path, digest := (s.reading path).map tools.sha256sum }

/-- `git ls-files --others --exclude-standard` -/
def RepoState.untracked (s : RepoState trees) : List Text :=
  s.paths.filter fun path => (s.worktree path).isSome && (s.index path).isNone && !s.ignored path

def untrackedRecords (tools : Tools) (policy : PathPolicy) (s : RepoState trees) : List PathRecord :=
  ((sortUnique s.untracked).filter policy.sourceRelevant).filterMap fun path =>
    (s.reading path).map fun content => { path, digest := some (tools.sha256sum content) }

def headLine (head : Option CommitId) : Text :=
  match head with
  | some commit => commit.value ++ ['\n']
  | none => sh "none\n"

def modeLine (fastCommit : Bool) : Text := if fastCommit then sh "fast-commit=1\n" else []

/-- The bytes that precommit_fingerprint digests. -/
def precommitFingerprintInput (tools : Tools) (policy : PathPolicy) (s : RepoState trees) : Text :=
  headLine s.head ++ (modeLine s.fastCommit ++
    (tools.diffText (selectedChanges tools filterACMRD s.headTree s.index s.paths) ++
      (trackedRecords tools policy s ++ untrackedRecords tools policy s).flatMap recordText))

end

end Musi.Verify
