import Musi.System.PrefixCode
import Musi.Verify.RepositoryState

namespace Musi.Verify
open Musi.Shell Musi.System
set_option autoImplicit true

/-! ## Records in the digest input -/

section

theorem prefixCode_escapeChar : PrefixCode (fun _ : Char => True) escapeChar := by
  intro a b rest rest' _ _ h
  have hslash : sh "\\\\" = ['\\', '\\'] := rfl
  have hnewline : sh "\\n" = ['\\', 'n'] := rfl
  have hreturn : sh "\\r" = ['\\', 'r'] := rfl
  unfold escapeChar at h
  rw [hslash, hnewline, hreturn] at h
  split_ifs at h <;> grind

theorem escapeChar_ne_nil (c : Char) : escapeChar c ≠ [] := by
  unfold escapeChar
  split_ifs <;> exact List.cons_ne_nil _ _

theorem escaped_injective {path path' : Text}
    (h : path.flatMap escapeChar = path'.flatMap escapeChar) : path = path' :=
  prefixCode_escapeChar.flatMap (fun c _ => escapeChar_ne_nil c) (fun _ _ => trivial)
    (fun _ _ => trivial) h

/-- An escaped file name stays on its line. -/
theorem newline_notMem_escaped (path : Text) : '\n' ∉ path.flatMap escapeChar := by
  intro hmem
  obtain ⟨c, -, hc⟩ := List.mem_flatMap.1 hmem
  unfold escapeChar at hc
  split_ifs at hc with hslash hnewline hreturn
  · exact absurd hc (by decide)
  · exact absurd hc (by decide)
  · exact absurd hc (by decide)
  · exact hnewline (List.mem_singleton.1 hc).symm

def IsDigest (digest : Text) : Prop := digest ≠ [] ∧ ∀ c ∈ digest, isHex c = true

structure PathRecord.Written (record : PathRecord) : Prop where
  path : '\x00' ∉ record.path
  digest : ∀ digest, record.digest = some digest → IsDigest digest

/-- A digest and its blank do not look like a word that leaves the hex digits. -/
theorem digest_ne_word (word : Text) (c : Char) {digest rest rest' : Text} (h : IsDigest digest)
    (hblank : ' ' ∉ word) (hc : isHex c = false) (hc' : c ≠ ' ') :
    digest ++ ' ' :: rest ≠ word ++ c :: rest' := by
  intro heq
  rcases List.append_eq_append_iff.1 heq with ⟨more, rfl, hmore⟩ | ⟨more, rfl, hmore⟩
  · cases more with
    | nil => exact hc' (List.cons.inj hmore).1.symm
    | cons d more =>
      refine hblank (List.mem_append_right _ ?_)
      rw [(List.cons.inj hmore).1]
      exact List.mem_cons_self
  · cases more with
    | nil => exact hc' (List.cons.inj hmore).1
    | cons d more =>
      have hd := h.2 d (List.mem_append_right _ List.mem_cons_self)
      rw [← (List.cons.inj hmore).1, hc] at hd
      cases hd

theorem checksumLine_append (digest path rest : Text) :
    checksumLine digest path ++ rest = (if needsEscape path then ['\\'] else []) ++
      (digest ++ ' ' :: (' ' :: (path.flatMap escapeChar ++ '\n' :: rest))) := by
  simp [checksumLine, sh]

theorem deletedText_append (path rest : Text) :
    recordText { path, digest := none } ++ rest =
      sh "deleted" ++ '\x00' :: (path ++ '\x00' :: rest) := by
  simp [recordText]

/-- Nor does a line of checksums, whose escape mark is none of the word. -/
theorem checksumLine_ne_word (word : Text) (c : Char) {digest path rest rest' : Text}
    (h : IsDigest digest) (hne : word ≠ []) (hslash : '\\' ∉ word) (hblank : ' ' ∉ word)
    (hc : isHex c = false) (hc' : c ≠ ' ') : checksumLine digest path ++ rest ≠ word ++ c :: rest' := by
  rw [checksumLine_append]
  split
  · intro heq
    cases word with
    | nil => exact hne rfl
    | cons d word =>
      rw [List.cons_append, List.cons_append] at heq
      exact hslash ((List.cons.inj heq).1 ▸ List.mem_cons_self)
  · exact digest_ne_word _ _ h hblank hc hc'

theorem checksumLine_ne_deleted {digest path rest rest' : Text} (h : IsDigest digest) :
    checksumLine digest path ++ rest ≠ sh "deleted" ++ rest' :=
  checksumLine_ne_word (sh "de") 'l' h (by decide) (by decide) (by decide) (by decide) (by decide)

/-- A record does not start like a diff. -/
theorem recordText_ne_diff {record : PathRecord} {rest rest' : Text} (h : record.Written) :
    recordText record ++ rest ≠ sh "diff --git " ++ rest' := by
  obtain ⟨path, digest⟩ := record
  cases digest with
  | none =>
    rw [deletedText_append]
    intro heq
    exact absurd (List.cons.inj (List.cons.inj heq).2).1 (by decide)
  | some digest =>
    exact checksumLine_ne_word (sh "d") 'i' (h.digest digest rfl) (by decide) (by decide)
      (by decide) (by decide) (by decide)

/-- A record does not start like the line of the fast-commit mode. -/
theorem recordText_ne_mode {record : PathRecord} {rest rest' : Text} (h : record.Written) :
    recordText record ++ rest ≠ modeLine true ++ rest' := by
  obtain ⟨path, digest⟩ := record
  cases digest with
  | none =>
    rw [deletedText_append]
    intro heq
    exact absurd (List.cons.inj heq).1 (by decide)
  | some digest =>
    exact checksumLine_ne_word (sh "fa") 's' (h.digest digest rfl) (by decide) (by decide)
      (by decide) (by decide) (by decide)

/-- A line of checksums is determined by the stream. -/
theorem checksumLine_inj {digest digest' path path' rest rest' : Text} (h : IsDigest digest)
    (h' : IsDigest digest')
    (heq : checksumLine digest path ++ rest = checksumLine digest' path' ++ rest') :
    digest = digest' ∧ path = path' ∧ rest = rest' := by
  have hblank : ∀ {d : Text}, IsDigest d → ' ' ∉ d :=
    fun hd hmem => absurd (hd.2 _ hmem) (by decide)
  have hmark : ∀ {d x y : Text}, IsDigest d → d ++ ' ' :: x ≠ '\\' :: y :=
    fun hd => digest_ne_word [] _ hd List.not_mem_nil (by decide) (by decide)
  have htail : digest ++ ' ' :: (' ' :: (path.flatMap escapeChar ++ '\n' :: rest)) =
      digest' ++ ' ' :: (' ' :: (path'.flatMap escapeChar ++ '\n' :: rest')) := by
    rw [checksumLine_append, checksumLine_append] at heq
    split at heq
    · split at heq
      · exact List.append_cancel_left heq
      · exact absurd heq.symm (hmark h')
    · split at heq
      · exact absurd heq (hmark h)
      · exact heq
  obtain ⟨hd, hlines⟩ := append_terminator (hblank h) (hblank h') htail
  obtain ⟨hpath, hrest⟩ := append_terminator (newline_notMem_escaped path)
    (newline_notMem_escaped path') (List.cons.inj hlines).2
  exact ⟨hd, escaped_injective hpath, hrest⟩

theorem prefixCode_recordText : PrefixCode PathRecord.Written recordText := by
  rintro ⟨path, digest⟩ ⟨path', digest'⟩ rest rest' h h' heq
  cases digest with
  | none =>
    cases digest' with
    | none =>
      rw [deletedText_append, deletedText_append] at heq
      obtain ⟨rfl, hrest⟩ :=
        append_terminator h.path h'.path (List.cons.inj (List.append_cancel_left heq)).2
      exact ⟨rfl, hrest⟩
    | some digest' =>
      rw [deletedText_append] at heq
      exact absurd heq.symm (checksumLine_ne_deleted (h'.digest digest' rfl))
  | some digest =>
    cases digest' with
    | none =>
      rw [deletedText_append] at heq
      exact absurd heq (checksumLine_ne_deleted (h.digest digest rfl))
    | some digest' =>
      obtain ⟨rfl, rfl, hrest⟩ := checksumLine_inj (h.digest digest rfl) (h'.digest digest' rfl) heq
      exact ⟨rfl, hrest⟩

end

/-! ## The digest input -/

section
variable {trees : CommitId → Tree} {tools : Tools} {policy : PathPolicy} {s t : RepoState trees}

/-- What is relied on of git and sha256sum: a diff encodes its entries, what goes on over a whole
diff is another entry, and a digest is made of hex digits. -/
structure ReliableTools (tools : Tools) : Prop where
  entries : ∀ changes changes', tools.diffText changes = tools.diffText changes' →
    ∀ change, change ∈ changes ↔ change ∈ changes'
  empty : tools.diffText [] = []
  next : ∀ changes changes' more, tools.diffText changes' = tools.diffText changes ++ more →
    more = [] ∨ ∃ rest, more = sh "diff --git " ++ rest
  digest : ∀ content, IsDigest (tools.sha256sum content)

theorem mem_sortUnique {path : Text} {paths : List Text} :
    path ∈ sortUnique paths ↔ path ∈ paths := by
  rw [sortUnique, List.mem_dedup, List.mem_mergeSort]

theorem mem_selectedChanges {diffFilter : List DiffStatus} {old new : Tree} {paths : List Text}
    {change : Change} :
    change ∈ selectedChanges tools diffFilter old new paths ↔
      ∃ path ∈ paths, ∃ status ∈ diffFilter,
        diffStatus (tools.pairing old new path) (old path) (new path) = some status ∧
        change = { path, status, old := old path, new := new path } := by
  rw [selectedChanges, List.mem_filterMap]
  refine exists_congr fun path => and_congr_right fun _ => ?_
  cases diffStatus (tools.pairing old new path) (old path) (new path) with
  | none => simp
  | some status =>
    by_cases hstatus : status ∈ diffFilter
    · simp only [hstatus, if_true, Option.some.injEq]
      constructor
      · rintro rfl
        exact ⟨status, hstatus, rfl, rfl⟩
      · rintro ⟨status', -, rfl, rfl⟩
        rfl
    · simp only [hstatus, if_false, Option.some.injEq]
      constructor
      · rintro h
        cases h
      · rintro ⟨status', hmem, rfl, -⟩
        exact absurd hmem hstatus

/-- The paths that the diff of the worktree with HEAD prints. -/
def RepoState.changedPaths (tools : Tools) (s : RepoState trees) : List Text :=
  nameOnly (selectedChanges tools filterACMRD s.headTree s.worktreeTree s.paths)

theorem mem_of_nameOnly {changes : List Change} {path : Text} (h : path ∈ nameOnly changes) :
    ∃ change ∈ changes, change.path = path := by
  obtain ⟨change, hchange, hpath⟩ := List.mem_map.1 h
  exact ⟨change, List.mem_of_mem_filter hchange, hpath⟩

theorem changedPaths_subset {path : Text} (h : path ∈ s.changedPaths tools) : path ∈ s.paths := by
  obtain ⟨change, hchange, rfl⟩ := mem_of_nameOnly h
  obtain ⟨path, hpath, status, -, -, rfl⟩ := mem_selectedChanges.1 hchange
  exact hpath

/-- The records of a state. -/
def records (tools : Tools) (policy : PathPolicy) (s : RepoState trees) : List PathRecord :=
  trackedRecords tools policy s ++ untrackedRecords tools policy s

theorem mem_trackedRecords {record : PathRecord} :
    record ∈ trackedRecords tools policy s ↔
      record.path ∈ s.changedPaths tools ∧ policy.precommitTracked record.path = true ∧
        record.digest = (s.reading record.path).map tools.sha256sum := by
  rw [trackedRecords, List.mem_map]
  constructor
  · rintro ⟨path, hpath, rfl⟩
    rw [trackedPaths, List.mem_filter, mem_sortUnique] at hpath
    exact ⟨hpath.1, hpath.2, rfl⟩
  · rintro ⟨hpath, hpolicy, hdigest⟩
    refine ⟨record.path, ?_, ?_⟩
    · rw [trackedPaths, List.mem_filter, mem_sortUnique]
      exact ⟨hpath, hpolicy⟩
    · rw [← hdigest]

theorem mem_untrackedRecords {record : PathRecord} :
    record ∈ untrackedRecords tools policy s ↔
      record.path ∈ s.untracked ∧ policy.sourceRelevant record.path = true ∧
        ∃ content, s.reading record.path = some content ∧
          record.digest = some (tools.sha256sum content) := by
  rw [untrackedRecords, List.mem_filterMap]
  constructor
  · rintro ⟨path, hpath, hrecord⟩
    rw [List.mem_filter, mem_sortUnique] at hpath
    obtain ⟨content, hreading, rfl⟩ := Option.map_eq_some_iff.1 hrecord
    exact ⟨hpath.1, hpath.2, content, hreading, rfl⟩
  · rintro ⟨hpath, hpolicy, content, hreading, hdigest⟩
    refine ⟨record.path, ?_, ?_⟩
    · rw [List.mem_filter, mem_sortUnique]
      exact ⟨hpath, hpolicy⟩
    · rw [hreading, Option.map_some, ← hdigest]

/-- A record says what is read of its path. -/
theorem records_digest {record : PathRecord} (h : record ∈ records tools policy s) :
    record.path ∈ s.paths ∧ record.digest = (s.reading record.path).map tools.sha256sum := by
  rcases List.mem_append.1 h with h | h
  · obtain ⟨hpath, -, hdigest⟩ := mem_trackedRecords.1 h
    exact ⟨changedPaths_subset hpath, hdigest⟩
  · obtain ⟨hpath, -, content, hreading, hdigest⟩ := mem_untrackedRecords.1 h
    rw [hreading, hdigest]
    exact ⟨List.mem_of_mem_filter hpath, rfl⟩

theorem records_written (htools : ReliableTools tools) :
    ∀ record ∈ records tools policy s, record.Written := by
  intro record h
  obtain ⟨hpath, hdigest⟩ := records_digest h
  refine ⟨(s.named _ hpath).2, fun digest hsome => ?_⟩
  rw [hdigest] at hsome
  obtain ⟨content, -, rfl⟩ := Option.map_eq_some_iff.1 hsome
  exact htools.digest content

theorem diffText_start (htools : ReliableTools tools) (changes : List Change) :
    tools.diffText changes = [] ∨ ∃ rest, tools.diffText changes = sh "diff --git " ++ rest :=
  htools.next [] changes _ (by rw [htools.empty, List.nil_append])

/-- A diff ends where the records start. -/
theorem diffText_append_records (htools : ReliableTools tools) {changes changes' : List Change}
    {l l' : List PathRecord} (hl : ∀ record ∈ l, record.Written)
    (hl' : ∀ record ∈ l', record.Written)
    (heq : tools.diffText changes ++ l.flatMap recordText =
      tools.diffText changes' ++ l'.flatMap recordText) :
    tools.diffText changes = tools.diffText changes' ∧ l.flatMap recordText = l'.flatMap recordText := by
  have hends : ∀ {changes changes' : List Change} {more rest : Text} {l : List PathRecord},
      (∀ record ∈ l, record.Written) → tools.diffText changes' = tools.diffText changes ++ more →
      l.flatMap recordText = more ++ rest → more = [] := by
    intro changes changes' more rest l hl hmore hrest
    refine (htools.next _ _ _ hmore).resolve_right ?_
    rintro ⟨more, rfl⟩
    cases l with
    | nil => cases hrest
    | cons record l =>
      rw [List.flatMap_cons, List.append_assoc] at hrest
      exact recordText_ne_diff (hl record List.mem_cons_self) hrest
  rcases List.append_eq_append_iff.1 heq with ⟨more, hmore, hrest⟩ | ⟨more, hmore, hrest⟩
  · obtain rfl := hends hl hmore hrest
    rw [List.append_nil] at hmore
    exact ⟨hmore.symm, hrest⟩
  · obtain rfl := hends hl' hmore hrest
    rw [List.append_nil] at hmore
    exact ⟨hmore, hrest.symm⟩

/-- The line of HEAD ends at its newline, and no commit is called none. -/
theorem headLine_inj {head head' : Option CommitId} {rest rest' : Text}
    (heq : headLine head ++ rest = headLine head' ++ rest') : head = head' ∧ rest = rest' := by
  have hline : ∀ commit : CommitId, '\n' ∉ commit.value ∧ commit.value ≠ sh "none" := by
    intro commit
    refine ⟨fun hmem => absurd (commit.hex.2 _ hmem) (by decide), fun hnone => ?_⟩
    have hn : 'n' ∈ commit.value := by
      rw [hnone]
      exact List.mem_cons_self
    exact absurd (commit.hex.2 _ hn) (by decide)
  have hnone : ∀ rest : Text, headLine none ++ rest = sh "none" ++ '\n' :: rest := fun _ => rfl
  have hsome : ∀ (commit : CommitId) (rest : Text),
      headLine (some commit) ++ rest = commit.value ++ '\n' :: rest := by
    intro commit rest
    rw [headLine, List.append_assoc, List.singleton_append]
  cases head with
  | none =>
    cases head' with
    | none => exact ⟨rfl, List.append_cancel_left heq⟩
    | some commit' =>
      rw [hnone, hsome] at heq
      obtain ⟨hvalue, -⟩ := append_terminator (by decide) (hline commit').1 heq
      exact absurd hvalue.symm (hline commit').2
  | some commit =>
    cases head' with
    | none =>
      rw [hnone, hsome] at heq
      obtain ⟨hvalue, -⟩ := append_terminator (hline commit).1 (by decide) heq
      exact absurd hvalue (hline commit).2
    | some commit' =>
      rw [hsome, hsome] at heq
      obtain ⟨hvalue, hrest⟩ := append_terminator (hline commit).1 (hline commit').1 heq
      obtain ⟨value, hex⟩ := commit
      obtain ⟨value', hex'⟩ := commit'
      obtain rfl : value = value' := hvalue
      exact ⟨rfl, hrest⟩

/-- Neither a diff nor the records start like the line of the fast-commit mode. -/
theorem modeLine_ne_body (htools : ReliableTools tools) {changes : List Change}
    {l : List PathRecord} {rest : Text} (hl : ∀ record ∈ l, record.Written) :
    modeLine true ++ rest ≠ tools.diffText changes ++ l.flatMap recordText := by
  intro heq
  rcases diffText_start htools changes with hempty | ⟨more, hmore⟩
  · rw [hempty, List.nil_append] at heq
    cases l with
    | nil => cases heq
    | cons record l => exact recordText_ne_mode (hl record List.mem_cons_self) heq.symm
  · rw [hmore] at heq
    exact absurd (List.cons.inj heq).1 (by decide)

theorem modeLine_inj (htools : ReliableTools tools) {mode mode' : Bool}
    {changes changes' : List Change} {l l' : List PathRecord} (hl : ∀ record ∈ l, record.Written)
    (hl' : ∀ record ∈ l', record.Written)
    (heq : modeLine mode ++ (tools.diffText changes ++ l.flatMap recordText) =
      modeLine mode' ++ (tools.diffText changes' ++ l'.flatMap recordText)) :
    mode = mode' ∧ tools.diffText changes ++ l.flatMap recordText =
      tools.diffText changes' ++ l'.flatMap recordText := by
  cases mode with
  | true =>
    cases mode' with
    | true => exact ⟨rfl, List.append_cancel_left heq⟩
    | false => exact absurd heq (modeLine_ne_body htools hl')
  | false =>
    cases mode' with
    | true => exact absurd heq.symm (modeLine_ne_body htools hl)
    | false => exact ⟨rfl, heq⟩

/-- The entries of the staged diff. -/
def RepoState.stagedChanges (tools : Tools) (s : RepoState trees) : List Change :=
  selectedChanges tools filterACMRD s.headTree s.index s.paths

/-- The parts of the digest input are determined by its bytes. -/
theorem precommitFingerprintInput_inj (htools : ReliableTools tools)
    (heq : precommitFingerprintInput tools policy s = precommitFingerprintInput tools policy t) :
    s.head = t.head ∧ s.fastCommit = t.fastCommit ∧
      (∀ change, change ∈ s.stagedChanges tools ↔ change ∈ t.stagedChanges tools) ∧
      records tools policy s = records tools policy t := by
  have hs : ∀ record ∈ records tools policy s, record.Written := records_written htools
  have ht : ∀ record ∈ records tools policy t, record.Written := records_written htools
  obtain ⟨hhead, hbody⟩ := headLine_inj heq
  obtain ⟨hmode, hbody⟩ := modeLine_inj htools hs ht hbody
  obtain ⟨hdiff, hrecords⟩ := diffText_append_records htools hs ht hbody
  refine ⟨hhead, hmode, htools.entries _ _ hdiff, ?_⟩
  refine prefixCode_recordText.flatMap (fun record _ => ?_) hs ht hrecords
  cases hdigest : record.digest with
  | none => simp [recordText, hdigest, sh]
  | some digest => simp [recordText, hdigest, checksumLine]

/-- States that the functions look at alike have one digest input. -/
theorem precommitFingerprintInput_congr (hhead : s.head = t.head) (hmode : s.fastCommit = t.fastCommit)
    (hstaged : s.stagedChanges tools = t.stagedChanges tools)
    (hchanged : s.changedPaths tools = t.changedPaths tools) (huntracked : s.untracked = t.untracked)
    (hreading : ∀ path ∈ s.changedPaths tools ++ s.untracked, policy.precommitTracked path = true →
      s.reading path = t.reading path) :
    precommitFingerprintInput tools policy s = precommitFingerprintInput tools policy t := by
  have htracked : trackedRecords tools policy s = trackedRecords tools policy t := by
    have hpaths : trackedPaths tools policy s = trackedPaths tools policy t :=
      congrArg (fun paths => (sortUnique paths).filter policy.precommitTracked) hchanged
    rw [trackedRecords, trackedRecords, ← hpaths]
    refine List.map_congr_left fun path hpath => ?_
    rw [trackedPaths, List.mem_filter, mem_sortUnique] at hpath
    rw [hreading path (List.mem_append_left _ hpath.1) hpath.2]
  have huntracked : untrackedRecords tools policy s = untrackedRecords tools policy t := by
    rw [untrackedRecords, untrackedRecords, ← huntracked]
    refine List.filterMap_congr fun path hpath => ?_
    rw [List.mem_filter, mem_sortUnique] at hpath
    have hpolicy : policy.precommitTracked path = true := by
      rw [PathPolicy.precommitTracked, hpath.2, Bool.true_or]
    rw [hreading path (List.mem_append_right _ hpath.1) hpolicy]
  have hstaged : tools.diffText (selectedChanges tools filterACMRD s.headTree s.index s.paths) =
      tools.diffText (selectedChanges tools filterACMRD t.headTree t.index t.paths) :=
    congrArg tools.diffText hstaged
  rw [precommitFingerprintInput, precommitFingerprintInput, hhead, hmode, hstaged, htracked, huntracked]

/-! ## What the fingerprint separates -/

/-- Both sides have an entry, of different types. -/
def TypeChanged (old new : Option IndexEntry) : Prop :=
  ∃ entry entry', old = some entry ∧ new = some entry' ∧ entry.kind ≠ entry'.kind

theorem diffStatus_some (pairing : Option Pairing) {old new : Option IndexEntry}
    (hne : new ≠ old) (htype : ¬ TypeChanged old new) :
    ∃ status ∈ filterACMRD, diffStatus pairing old new = some status := by
  cases old with
  | none =>
    cases new with
    | none => exact absurd rfl hne
    | some entry' =>
      cases pairing with
      | none => exact ⟨.added, by decide, rfl⟩
      | some pairing =>
        cases pairing with
        | rename => exact ⟨.renamed, by decide, rfl⟩
        | copy => exact ⟨.copied, by decide, rfl⟩
  | some entry =>
    cases new with
    | none =>
      cases pairing with
      | none => exact ⟨.deleted, by decide, rfl⟩
      | some pairing =>
        cases pairing with
        | rename => exact ⟨.renamed, by decide, rfl⟩
        | copy => exact ⟨.deleted, by decide, rfl⟩
    | some entry' =>
      have hkind : entry.kind = entry'.kind := by
        by_contra hkind
        exact htype ⟨entry, entry', rfl, rfl, hkind⟩
      refine ⟨.modified, by decide, ?_⟩
      rw [diffStatus, if_neg fun h => hne (congrArg some h.symm), if_pos hkind]

/-- An index entry that differs from HEAD in another way than its type is in the staged diff. -/
theorem mem_stagedChanges (tools : Tools) {path : Text} (hne : s.index path ≠ s.headTree path)
    (htype : ¬ TypeChanged (s.headTree path) (s.index path)) :
    ∃ status ∈ filterACMRD,
      diffStatus (tools.pairing s.headTree s.index path) (s.headTree path) (s.index path) = some status ∧
      ({ path, status, old := s.headTree path, new := s.index path } : Change) ∈
        s.stagedChanges tools := by
  obtain ⟨status, hmem, hstatus⟩ :=
    diffStatus_some (tools.pairing s.headTree s.index path) hne htype
  refine ⟨status, hmem, hstatus, mem_selectedChanges.2 ⟨path, s.complete path ?_, status, hmem,
    hstatus, rfl⟩⟩
  by_cases hindex : s.index path = none
  · refine .inl fun hhead => hne ?_
    rw [hindex]
    exact hhead.symm
  · exact .inr (.inl hindex)

/-- No two files of one name that the states hold have one digest. -/
def CollisionFree (tools : Tools) (s t : RepoState trees) : Prop :=
  ∀ path content content', s.reading path = some content → t.reading path = some content' →
    tools.sha256sum content = tools.sha256sum content' → content = content'

/-- What two states with one fingerprint share. -/
structure SameVouched (tools : Tools) (policy : PathPolicy) (s t : RepoState trees) : Prop where
  head : s.head = t.head
  fastCommit : s.fastCommit = t.fastCommit
  index : ∀ path, ¬ TypeChanged (s.headTree path) (s.index path) →
    ¬ TypeChanged (t.headTree path) (t.index path) → s.index path = t.index path
  tracked : ∀ path, policy.sourceRelevant path = true →
    path ∈ s.changedPaths tools ∨ path ∈ t.changedPaths tools → s.reading path = t.reading path
  untracked : ∀ path, policy.sourceRelevant path = true →
    (path ∈ s.untracked ∧ s.reading path ≠ none) ∨ (path ∈ t.untracked ∧ t.reading path ≠ none) →
    s.reading path = t.reading path

theorem index_eq_of_stagedChanges (hhead : s.head = t.head)
    (hchanges : ∀ change, change ∈ s.stagedChanges tools ↔ change ∈ t.stagedChanges tools)
    {path : Text} (hs : ¬ TypeChanged (s.headTree path) (s.index path))
    (ht : ¬ TypeChanged (t.headTree path) (t.index path)) : s.index path = t.index path := by
  have htree : s.headTree path = t.headTree path := by rw [RepoState.headTree, RepoState.headTree, hhead]
  by_cases hne : s.index path = s.headTree path
  · by_cases hne' : t.index path = t.headTree path
    · rw [hne, hne', htree]
    · obtain ⟨status, -, -, hmem⟩ := mem_stagedChanges tools hne' ht
      obtain ⟨path', -, status', -, -, heq⟩ := mem_selectedChanges.1 ((hchanges _).2 hmem)
      obtain rfl : path = path' := congrArg Change.path heq
      exact (congrArg Change.new heq).symm
  · obtain ⟨status, -, -, hmem⟩ := mem_stagedChanges tools hne hs
    obtain ⟨path', -, status', -, -, heq⟩ := mem_selectedChanges.1 ((hchanges _).1 hmem)
    obtain rfl : path = path' := congrArg Change.path heq
    exact congrArg Change.new heq

/-- Where both states have one record of a path, they hold one content. -/
theorem reading_eq_of_records (hcollision : CollisionFree tools s t)
    (hrecords : records tools policy s = records tools policy t) {record : PathRecord}
    (h : record ∈ records tools policy s) : s.reading record.path = t.reading record.path := by
  have hs := (records_digest h).2
  have ht := (records_digest (hrecords ▸ h)).2
  rw [hs] at ht
  cases hreading : s.reading record.path with
  | none =>
    rw [hreading, Option.map_none] at ht
    exact (Option.map_eq_none_iff.1 ht.symm).symm
  | some content =>
    rw [hreading, Option.map_some] at ht
    obtain ⟨content', hreading', hdigest⟩ := Option.map_eq_some_iff.1 ht.symm
    rw [hreading', hcollision _ _ _ hreading hreading' hdigest.symm]

/-- A path that the functions look at has a record. -/
theorem exists_record {path : Text} (hpolicy : policy.sourceRelevant path = true)
    (h : path ∈ s.changedPaths tools ∨ path ∈ s.untracked ∧ s.reading path ≠ none) :
    ∃ record ∈ records tools policy s, record.path = path := by
  rcases h with h | ⟨h, hreading⟩
  · refine ⟨{ path, digest := (s.reading path).map tools.sha256sum },
      List.mem_append_left _ (mem_trackedRecords.2 ⟨h, ?_, rfl⟩), rfl⟩
    rw [PathPolicy.precommitTracked, hpolicy, Bool.true_or]
  · obtain ⟨content, hcontent⟩ := Option.ne_none_iff_exists'.1 hreading
    exact ⟨{ path, digest := some (tools.sha256sum content) },
      List.mem_append_right _ (mem_untrackedRecords.2 ⟨h, hpolicy, content, hcontent, rfl⟩), rfl⟩

theorem reading_eq_of_look (hcollision : CollisionFree tools s t)
    (hrecords : records tools policy s = records tools policy t) {path : Text}
    (hpolicy : policy.sourceRelevant path = true)
    (h : (path ∈ s.changedPaths tools ∨ path ∈ s.untracked ∧ s.reading path ≠ none) ∨
      (path ∈ t.changedPaths tools ∨ path ∈ t.untracked ∧ t.reading path ≠ none)) :
    s.reading path = t.reading path := by
  rcases h with h | h
  · obtain ⟨record, hrecord, rfl⟩ := exists_record hpolicy h
    exact reading_eq_of_records hcollision hrecords hrecord
  · obtain ⟨record, hrecord, rfl⟩ := exists_record hpolicy h
    exact reading_eq_of_records hcollision hrecords (hrecords ▸ hrecord)

/-- An index entry that differs from HEAD in another way than its type and is not where a rename
comes from. -/
structure RepoState.StagedByName (tools : Tools) (s : RepoState trees) (path : Text) : Prop where
  differs : s.index path ≠ s.headTree path
  sameType : ¬ TypeChanged (s.headTree path) (s.index path)
  kept : s.index path = none → tools.pairing s.headTree s.index path ≠ some .rename

theorem pairing_of_renamed {pairing : Option Pairing} {old : Option IndexEntry}
    (h : diffStatus pairing old none = some .renamed) : pairing = some .rename := by
  cases old with
  | none => cases h
  | some entry =>
    cases pairing with
    | none => cases h
    | some pairing =>
      cases pairing with
      | rename => rfl
      | copy => cases h

theorem stagedHasSourceRelevantChange_of_staged {path : Text}
    (hpolicy : policy.precommitStaged path = true) (h : s.StagedByName tools path) :
    stagedHasSourceRelevantChange tools policy s = true := by
  obtain ⟨status, -, hstatus, hmem⟩ := mem_stagedChanges tools h.differs h.sameType
  have hname : path ∈ stagedSourcePathsNul tools filterACMRD policy.precommitStaged s := by
    refine List.mem_filter.2 ⟨List.mem_map.2 ⟨_, List.mem_filter.2 ⟨hmem, ?_⟩, rfl⟩, hpolicy⟩
    cases hindex : s.index path with
    | some entry => rw [Option.isNone_some, Bool.and_false, Bool.not_false]
    | none =>
      have hstatus' : status ≠ .renamed := by
        rintro rfl
        exact h.kept hindex (pairing_of_renamed (hindex ▸ hstatus))
      rw [Option.isNone_none, Bool.and_true, decide_eq_false hstatus', Bool.not_false]
  rw [stagedHasSourceRelevantChange, Bool.not_eq_true', List.isEmpty_eq_false_iff]
  exact List.ne_nil_of_mem hname

end

/-! ## Example -/

section

/-- A text with a mark before each of its characters and one behind. -/
def marked (text : Text) : Text := text.flatMap (fun c => ['=', c]) ++ ['.']

theorem marked_append_inj {text text' rest rest' : Text}
    (heq : marked text ++ rest = marked text' ++ rest') : text = text' ∧ rest = rest' := by
  induction text generalizing text' with
  | nil =>
    cases text' with
    | nil => exact ⟨rfl, List.append_cancel_left heq⟩
    | cons c text' => exact absurd (List.cons.inj heq).1 (by decide)
  | cons c text ih =>
    cases text' with
    | nil => exact absurd (List.cons.inj heq).1 (by decide)
    | cons d text' =>
      have htail := (List.cons.inj heq).2
      obtain ⟨hc, htail⟩ := List.cons.inj htail
      obtain ⟨htext, hrest⟩ := ih htail
      exact ⟨by rw [hc, htext], hrest⟩

def EntryKind.letter : EntryKind → Char
  | .file => 'f'
  | .symlink => 'l'
  | .gitlink => 'g'

def DiffStatus.letter : DiffStatus → Char
  | .added => 'A'
  | .copied => 'C'
  | .deleted => 'D'
  | .modified => 'M'
  | .renamed => 'R'
  | .typeChanged => 'T'

def entryText : Option IndexEntry → Text
  | none => ['-']
  | some entry => '+' :: entry.kind.letter :: (if entry.executable then 'x' else 'r') ::
      marked entry.content

theorem entryText_append_inj {entry entry' : Option IndexEntry} {rest rest' : Text}
    (heq : entryText entry ++ rest = entryText entry' ++ rest') : entry = entry' ∧ rest = rest' := by
  cases entry with
  | none =>
    cases entry' with
    | none => exact ⟨rfl, List.append_cancel_left heq⟩
    | some entry' => exact absurd (List.cons.inj heq).1 (by decide)
  | some entry =>
    cases entry' with
    | none => exact absurd (List.cons.inj heq).1 (by decide)
    | some entry' =>
      obtain ⟨kind, executable, content⟩ := entry
      obtain ⟨kind', executable', content'⟩ := entry'
      obtain ⟨hkind, htail⟩ := List.cons.inj (List.cons.inj heq).2
      obtain ⟨hexecutable, htail⟩ := List.cons.inj htail
      obtain ⟨rfl, hrest⟩ := marked_append_inj htail
      obtain rfl : kind = kind' := by cases kind <;> cases kind' <;> first | rfl | cases hkind
      obtain rfl : executable = executable' := by
        cases executable <;> cases executable' <;> first | rfl | cases hexecutable
      exact ⟨rfl, hrest⟩

def changeText (change : Change) : Text :=
  sh "diff --git " ++ (marked change.path ++
    (change.status.letter :: (entryText change.old ++ entryText change.new)))

theorem changeText_append (change : Change) (rest : Text) :
    changeText change ++ rest = sh "diff --git " ++ (marked change.path ++
      change.status.letter :: (entryText change.old ++ (entryText change.new ++ rest))) := by
  simp [changeText]

theorem prefixCode_changeText : PrefixCode (fun _ : Change => True) changeText := by
  rintro ⟨path, status, old, new⟩ ⟨path', status', old', new'⟩ rest rest' - - heq
  rw [changeText_append, changeText_append] at heq
  obtain ⟨rfl, heq⟩ := marked_append_inj (List.append_cancel_left heq)
  obtain ⟨hstatus, heq⟩ := List.cons.inj heq
  obtain rfl : status = status' := by
    cases status <;> cases status' <;> first | rfl | cases hstatus
  obtain ⟨rfl, heq⟩ := entryText_append_inj heq
  obtain ⟨rfl, hrest⟩ := entryText_append_inj heq
  exact ⟨rfl, hrest⟩

/-- The one rename that an unchanged content shows between two paths. -/
def exactRename (source target : Text) (old new : Tree) (path : Text) : Option Pairing :=
  if (path = source ∨ path = target) ∧ old source ≠ none ∧ new source = none ∧ old target = none ∧
    new target = old source then some .rename else none

/-- The digest of the empty file. -/
def emptyDigest : Text := sh "e3b0c44298fc1c149afbf4c8996fb92427ae41e4649b934ca495991b7852b855"

/-- Tools for states whose files are empty. -/
def sampleTools : Tools where
  pairing := exactRename (sh "scripts/a") (sh "notes/a")
  diffText := List.flatMap changeText
  sha256sum := fun _ => emptyDigest

theorem sampleTools_reliable : ReliableTools sampleTools := by
  have hne : ∀ change, True → changeText change ≠ [] := fun _ _ => List.cons_ne_nil _ _
  refine ⟨fun changes changes' heq change => ?_, rfl, fun changes changes' more heq => ?_, fun _ => ?_⟩
  · rw [prefixCode_changeText.flatMap hne (fun _ _ => trivial) (fun _ _ => trivial) heq]
  · obtain ⟨rest, rfl⟩ := prefixCode_changeText.flatMap_append hne (fun _ _ => trivial)
      (fun _ _ => trivial) heq
    cases rest with
    | nil => exact .inl rfl
    | cons change rest =>
      rw [List.flatMap_cons, changeText, List.append_assoc]
      exact .inr ⟨_, rfl⟩
  · refine ⟨List.cons_ne_nil _ _, fun c hc => ?_⟩
    have hall : emptyDigest.all isHex = true := by decide +kernel
    exact List.all_eq_true.1 hall c hc

/-- The empty file, as an index entry. -/
def emptyFile : IndexEntry := { kind := .file, executable := false, content := [] }

def commitTree (entries : List (Text × IndexEntry)) : CommitId → Tree := fun _ path =>
  entries.lookup path

def firstCommit : CommitId where
  value := sh "0"
  hex := by
    refine ⟨List.cons_ne_nil _ _, fun c hc => ?_⟩
    obtain rfl := List.mem_singleton.1 hc
    decide

/-- A state with the given entries. Its files are empty, its symlinks lead to empty files. -/
def stateOf (head index : List (Text × IndexEntry)) (worktree : List (Text × Bool))
    (named : ∀ path ∈ head.map (·.1) ++ (index.map (·.1) ++ worktree.map (·.1)),
      path ≠ [] ∧ '\x00' ∉ path) : RepoState (commitTree head) where
  head := some firstCommit
  index := fun path => index.lookup path
  worktree := fun path => (worktree.lookup path).map fun isLink =>
    if isLink then .symlink (sh "empty") else .file false []
  linked := fun _ => some []
  ignored := fun _ => false
  fastCommit := false
  paths := head.map (·.1) ++ (index.map (·.1) ++ worktree.map (·.1))
  complete := by
    intro path h
    have hmem : ∀ {α : Type} {entries : List (Text × α)}, entries.lookup path ≠ none →
        path ∈ entries.map (·.1) := by
      intro α entries hne
      by_contra hmem
      refine hne (List.lookup_eq_none_iff.2 fun entry hentry => ?_)
      exact bne_iff_ne.2 fun heq => hmem (List.mem_map.2 ⟨entry, hentry, heq.symm⟩)
    rw [List.mem_append, List.mem_append]
    exact h.imp hmem (.imp hmem fun hne => hmem (mt Option.map_eq_none_iff.2 hne))
  named := named

theorem stateOf_collisionFree {head : List (Text × IndexEntry)}
    {index index' worktree worktree' named named'} :
    CollisionFree sampleTools (stateOf head index worktree named)
      (stateOf head index' worktree' named') := by
  have hempty : ∀ {head index worktree named path content},
      (stateOf head index worktree named).reading path = some content → content = [] := by
    intro head index worktree named path content h
    cases hnode : worktree.lookup path with
    | none => simp [RepoState.reading, stateOf, hnode] at h
    | some isLink => cases isLink <;> simpa [RepoState.reading, stateOf, hnode] using h.symm
  intro path content content' h h' _
  rw [hempty h, hempty h']

/-- The scripts are source-relevant, and a lock file that is left out of the staged check. -/
def samplePolicy : PathPolicy where
  sourceRelevant := fun path => (sh "scripts/").isPrefixOf path || path = sh "bun.lock"
  precommitStagedExcluded := fun path => path = sh "bun.lock"
  precommitTrackedExtra := fun _ => false
  undashed := by
    intro path h
    cases path with
    | nil => exact fun hhead => nomatch hhead
    | cons c path =>
      intro hhead
      obtain rfl : c = '-' := Option.some.inj hhead
      rcases h with h | h
      · cases h
      · cases h

end

end Musi.Verify
