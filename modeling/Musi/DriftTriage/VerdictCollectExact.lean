import Musi.System.Runs
import Musi.DriftTriage.VerdictCollect

namespace Musi.DriftTriage
open Musi.Js Musi.System Relation
set_option autoImplicit true

/-! ## Loops that add entries -/

/-- A loop whose passes add entries of new keys adds all of them. -/
theorem addLoop_ok {α β : Type} {f : JsMap α → β → Except JsString (JsMap α)} {P : β → Prop}
    {entries : β → Entries α}
    (hstep : ∀ m b m', f m b = .ok m' ↔ P b ∧ (Entries.keys (m.entries ++ entries b)).Nodup ∧
      m'.entries = m.entries ++ entries b) {l : List β} {m m' : JsMap α} :
    l.foldlM f m = .ok m' ↔ (∀ b ∈ l, P b) ∧
      (Entries.keys (m.entries ++ l.flatMap entries)).Nodup ∧
        m'.entries = m.entries ++ l.flatMap entries := by
  induction l generalizing m with
  | nil =>
    rw [List.flatMap_nil, List.append_nil]
    constructor
    · intro h
      obtain rfl := Except.ok.inj h
      exact ⟨List.forall_mem_nil _, m.nodup, rfl⟩
    · intro h
      exact congrArg Except.ok (JsMap.ext h.2.2).symm
  | cons b l ih =>
    rw [List.foldlM_cons, bind_ok, List.forall_mem_cons, List.flatMap_cons, ← List.append_assoc]
    constructor
    · rintro ⟨next, hnext, hl⟩
      obtain ⟨hb, -, hentries⟩ := (hstep m b next).1 hnext
      obtain ⟨hall, hnodup, hlast⟩ := ih.1 hl
      rw [hentries] at hnodup hlast
      exact ⟨⟨hb, hall⟩, hnodup, hlast⟩
    · rintro ⟨⟨hb, hall⟩, hnodup, hlast⟩
      have hfirst : (Entries.keys (m.entries ++ entries b)).Nodup := by
        rw [Entries.keys_append] at hnodup
        exact hnodup.of_append_left
      exact ⟨⟨m.entries ++ entries b, hfirst⟩, (hstep m b _).2 ⟨hb, hfirst, rfl⟩,
        ih.2 ⟨hall, hnodup, hlast⟩⟩

theorem set_entries {α : Type} {m m' : JsMap α} {k : JsString} {v : α} :
    m.has k = false ∧ m' = m.set k v ↔
      (Entries.keys (m.entries ++ [(k, v)])).Nodup ∧ m'.entries = m.entries ++ [(k, v)] := by
  have hnone : m.has k = false ↔ k ∉ Entries.keys m.entries := by
    rw [JsMap.has, Option.isSome_eq_false_iff, Option.isNone_iff_eq_none]
    exact JsMap.get_none
  have hnodup : (Entries.keys (m.entries ++ [(k, v)])).Nodup ↔ k ∉ Entries.keys m.entries := by
    have hn : (Entries.keys m.entries).Nodup := m.nodup
    rw [Entries.keys_append, List.nodup_append]
    constructor
    · intro h hk
      exact h.2.2 k hk k (List.mem_singleton_self k) rfl
    · intro h
      refine ⟨hn, List.nodup_singleton k, fun a ha b hb heq => h ?_⟩
      have hak : a = k := heq.trans (List.mem_singleton.1 hb)
      exact hak ▸ ha
  rw [hnone, hnodup]
  refine and_congr_right fun hk => ⟨?_, fun h => JsMap.ext ?_⟩
  · rintro rfl
    exact setEntry_of_notMem hk
  · exact h.trans (setEntry_of_notMem hk).symm

/-! ## Ownership -/

/-- Every item with the packet that it is assigned to. -/
def AssignedPacket.assignments (packet : AssignedPacket) : Entries JsString :=
  packet.itemIds.map fun itemId => (itemId, packet.packetId)

theorem assignItem_ok {packet : AssignedPacket} {ownership ownership' : JsMap JsString}
    {itemId : JsString} : assignItem packet ownership itemId = .ok ownership' ↔
      True ∧ (Entries.keys (ownership.entries ++ [(itemId, packet.packetId)])).Nodup ∧
        ownership'.entries = ownership.entries ++ [(itemId, packet.packetId)] := by
  rw [assignItem, true_and, ← set_entries]
  cases ownership.has itemId with
  | true => exact ⟨fun h => (by cases h), fun h => (by cases h.1)⟩
  | false => exact ⟨fun h => ⟨rfl, (Except.ok.inj h).symm⟩, fun h => congrArg Except.ok h.2.symm⟩

/-- What a manifest that is accepted assigns. -/
structure Assigns (manifest : PacketManifestInput) (ownership : JsMap JsString) : Prop where
  packetIds : (manifest.packets.map AssignedPacket.packetId).Nodup
  entries : ownership.entries = manifest.packets.flatMap AssignedPacket.assignments

theorem buildOwnership_assigns {manifest : PacketManifestInput} {ownership : JsMap JsString}
    (h : buildOwnership manifest = .ok ownership) : Assigns manifest ownership := by
  rw [buildOwnership, bind_ok] at h
  obtain ⟨state, hstate, heq⟩ := h
  cases heq
  have hloop := foldlM_ok
    (fun (state : List JsString × JsMap JsString) (done : List AssignedPacket) =>
      state.1 = done.map AssignedPacket.packetId ∧ state.1.Nodup ∧
        state.2.entries = done.flatMap AssignedPacket.assignments)
    (fun state packet done next hdone hnext => ?_) hstate [] ⟨rfl, List.nodup_nil, rfl⟩
  · rw [List.nil_append] at hloop
    exact ⟨hloop.1 ▸ hloop.2.1, hloop.2.2⟩
  · obtain ⟨hids, hnodup, hentries⟩ := hdone
    rw [assignPacket] at hnext
    split at hnext
    · cases hnext
    · next hnew =>
      obtain ⟨ownership, hownership, hnext⟩ := bind_ok.1 hnext
      cases hnext
      have hadded := (addLoop_ok fun m itemId m' => @assignItem_ok packet m m' itemId).1 hownership
      refine ⟨?_, ?_, ?_⟩
      · rw [List.map_append, hids]
        rfl
      · rw [List.nodup_append]
        refine ⟨hnodup, List.nodup_singleton _, fun a ha b hb heq => hnew ?_⟩
        rw [← List.mem_singleton.1 hb, ← heq]
        exact ha
      · rw [hadded.2.2, hentries, List.flatMap_append, List.flatMap_singleton,
          AssignedPacket.assignments, ← List.map_eq_flatMap]

theorem Assigns.nodup {manifest : PacketManifestInput} {ownership : JsMap JsString}
    (h : Assigns manifest ownership) : (manifest.packets.flatMap AssignedPacket.itemIds).Nodup := by
  have hnodup := ownership.nodup
  rw [h.entries, Entries.keys, List.map_flatMap] at hnodup
  have hkeys (packet : AssignedPacket) : packet.assignments.map Prod.fst = packet.itemIds := by
    rw [AssignedPacket.assignments, List.map_map]
    exact List.map_id _
  simpa only [hkeys] using hnodup

theorem Assigns.get_iff {manifest : PacketManifestInput} {ownership : JsMap JsString}
    (h : Assigns manifest ownership) {itemId packetId : JsString} :
    ownership.get itemId = some packetId ↔
      ∃ packet ∈ manifest.packets, packet.packetId = packetId ∧ itemId ∈ packet.itemIds := by
  rw [← JsMap.mem_entries, h.entries, List.mem_flatMap]
  refine exists_congr fun packet => and_congr_right fun _ => ?_
  rw [AssignedPacket.assignments, List.mem_map]
  constructor
  · rintro ⟨item, hitem, heq⟩
    cases heq
    exact ⟨rfl, hitem⟩
  · rintro ⟨rfl, hitem⟩
    exact ⟨itemId, hitem, rfl⟩

theorem Assigns.has_iff {manifest : PacketManifestInput} {ownership : JsMap JsString}
    (h : Assigns manifest ownership) {itemId : JsString} :
    ownership.has itemId = true ↔ itemId ∈ manifest.packets.flatMap AssignedPacket.itemIds := by
  rw [JsMap.has, Option.isSome_iff_exists, List.mem_flatMap]
  constructor
  · rintro ⟨packetId, hget⟩
    obtain ⟨packet, hpacket, -, hitem⟩ := h.get_iff.1 hget
    exact ⟨packet, hpacket, hitem⟩
  · rintro ⟨packet, hpacket, hitem⟩
    exact ⟨packet.packetId, h.get_iff.2 ⟨packet, hpacket, rfl, hitem⟩⟩

/-! ## Collection -/

def fileEntries (file : NamedTriageVerdictFile) : Entries CollectedVerdict :=
  file.result.verdicts.map fun verdict => (verdict.itemId, collectedVerdict file verdict)

/-- A file gives verdicts of items of its packet only. -/
def OwnsVerdicts (ownership : JsMap JsString) (file : NamedTriageVerdictFile) : Prop :=
  file.result.packetId ∈ ownership.entries.map Prod.snd ∧
    ∀ verdict ∈ file.result.verdicts, ownership.get verdict.itemId = some file.result.packetId

theorem collectVerdict_ok {ownership : JsMap JsString} {file : NamedTriageVerdictFile}
    {collected collected' : JsMap CollectedVerdict} {verdict : TriageVerdict} :
    collectVerdict ownership file collected verdict = .ok collected' ↔
      ownership.get verdict.itemId = some file.result.packetId ∧
        (Entries.keys (collected.entries ++
          [(verdict.itemId, collectedVerdict file verdict)])).Nodup ∧
        collected'.entries = collected.entries ++ [(verdict.itemId, collectedVerdict file verdict)] := by
  have howner : validateOwnership verdict file.result.packetId ownership = .ok () ↔
      ownership.get verdict.itemId = some file.result.packetId := by
    rw [validateOwnership]
    cases ownership.get verdict.itemId with
    | none => exact ⟨fun h => (by cases h), fun h => (by cases h)⟩
    | some owner =>
      by_cases heq : owner = file.result.packetId
      · subst heq
        simp only [ne_eq, not_true_eq_false, if_false]
        exact ⟨fun _ => trivial, fun _ => rfl⟩
      · simp only [ne_eq, heq, not_false_eq_true, if_true]
        exact ⟨fun h => (by cases h), fun h => absurd (Option.some.inj h) heq⟩
  rw [collectVerdict, bind_ok, ← howner, ← set_entries]
  constructor
  · rintro ⟨⟨⟩, hunit, h⟩
    refine ⟨hunit, ?_⟩
    cases hhas : collected.has verdict.itemId with
    | true =>
      rw [hhas] at h
      cases h
    | false =>
      rw [hhas] at h
      exact ⟨rfl, (Except.ok.inj h).symm⟩
  · rintro ⟨hunit, hhas, rfl⟩
    refine ⟨(), hunit, ?_⟩
    rw [hhas]
    rfl

theorem collectFile_ok {ownership : JsMap JsString} {collected collected' : JsMap CollectedVerdict}
    {file : NamedTriageVerdictFile} :
    collectFile ownership (ownership.entries.map Prod.snd) collected file = .ok collected' ↔
      OwnsVerdicts ownership file ∧
        (Entries.keys (collected.entries ++ fileEntries file)).Nodup ∧
        collected'.entries = collected.entries ++ fileEntries file := by
  have hloop : file.result.verdicts.foldlM (collectVerdict ownership file) collected = .ok collected' ↔
      (∀ verdict ∈ file.result.verdicts,
        ownership.get verdict.itemId = some file.result.packetId) ∧
        (Entries.keys (collected.entries ++ fileEntries file)).Nodup ∧
        collected'.entries = collected.entries ++ fileEntries file := by
    rw [fileEntries, List.map_eq_flatMap]
    exact addLoop_ok (f := collectVerdict ownership file) fun _ _ _ => collectVerdict_ok
  rw [collectFile, OwnsVerdicts]
  by_cases hpacket : file.result.packetId ∈ ownership.entries.map Prod.snd
  · rw [if_neg (not_not.2 hpacket), and_iff_right hpacket]
    exact hloop
  · rw [if_pos hpacket]
    exact ⟨fun h => (by cases h), fun h => absurd h.1.1 hpacket⟩

/-- Files are collected exactly when each verdict is one of its packet, and no two are of one item. -/
theorem collectFiles_ok {ownership : JsMap JsString} {files : List NamedTriageVerdictFile}
    {collected : JsMap CollectedVerdict} : collectFiles files ownership = .ok collected ↔
      (∀ file ∈ files, OwnsVerdicts ownership file) ∧
        (Entries.keys (files.flatMap fileEntries)).Nodup ∧
        collected.entries = files.flatMap fileEntries := by
  exact addLoop_ok (f := collectFile ownership (ownership.entries.map Prod.snd))
    (m := JsMap.empty) fun _ _ _ => collectFile_ok

/-- A duplicate names another item that is assigned, and no other verdict names one. -/
def NamesCanonical (ownership : JsMap JsString) (verdict : CollectedVerdict) : Prop :=
  if verdict.verdict = .duplicateOf then
    ∃ itemId, verdict.canonicalItemId = some itemId ∧ itemId ≠ verdict.itemId ∧
      ownership.has itemId = true
  else verdict.canonicalItemId = none

theorem validateCanonicalItem_ok {ownership : JsMap JsString} {verdict : CollectedVerdict} :
    validateCanonicalItem ownership verdict = .ok () ↔ NamesCanonical ownership verdict := by
  rw [validateCanonicalItem, NamesCanonical]
  by_cases hkind : verdict.verdict = .duplicateOf
  · rw [if_neg (not_not.2 hkind), if_pos hkind]
    cases hcanonical : verdict.canonicalItemId with
    | none =>
      refine ⟨fun h => (by cases h), ?_⟩
      rintro ⟨itemId, heq, -⟩
      cases heq
    | some itemId =>
      by_cases hself : itemId = verdict.itemId
      · simp only [hself, if_true]
        refine ⟨fun h => (by cases h), ?_⟩
        rintro ⟨other, heq, hne, -⟩
        exact absurd (Option.some.inj heq).symm hne
      · simp only [if_neg hself]
        cases hhas : ownership.has itemId with
        | true => exact ⟨fun _ => ⟨itemId, rfl, hself, hhas⟩, fun _ => rfl⟩
        | false =>
          refine ⟨fun h => (by cases h), ?_⟩
          rintro ⟨other, heq, -, hother⟩
          rw [← Option.some.inj heq, hhas] at hother
          cases hother
  · rw [if_pos hkind, if_neg hkind]
    cases verdict.canonicalItemId with
    | none => exact ⟨fun _ => rfl, fun _ => rfl⟩
    | some itemId => exact ⟨fun h => (by cases h), fun h => (by cases h)⟩

/-- What is collected of files that are accepted. -/
structure Collects (manifest : PacketManifestInput) (files : List NamedTriageVerdictFile)
    (ownership : JsMap JsString) (collected : JsMap CollectedVerdict) : Prop where
  assigns : Assigns manifest ownership
  owned : ∀ file ∈ files, OwnsVerdicts ownership file
  entries : collected.entries = files.flatMap fileEntries
  canonical : ∀ entry ∈ collected.entries, NamesCanonical ownership entry.2

def reportOf (manifest : PacketManifestInput) (currentSource : Option CurrentSourceState)
    (collected : JsMap CollectedVerdict) : VerdictCollectionReport where
  sourceState := sourceState manifest currentSource
  summary := buildSummary manifest (orderVerdicts collected manifest)
    (missingByPacket manifest collected)
  missing := missingByPacket manifest collected
  verificationQueue := buildVerificationQueue (orderVerdicts collected manifest)
  verdicts := orderVerdicts collected manifest

theorem collectTriageVerdicts_ok {manifest : PacketManifestInput}
    {files : List NamedTriageVerdictFile} {currentSource : Option CurrentSourceState}
    {report : VerdictCollectionReport} :
    collectTriageVerdicts manifest files currentSource = .ok report ↔
      ∃ ownership collected, buildOwnership manifest = .ok ownership ∧
        Collects manifest files ownership collected ∧
        report = reportOf manifest currentSource collected := by
  rw [collectTriageVerdicts, bind_ok]
  refine exists_congr fun ownership => ?_
  rw [bind_ok]
  have hvalidate (collected : JsMap CollectedVerdict) :
      validateCanonicalItems collected ownership = .ok () ↔
        ∀ entry ∈ collected.entries, NamesCanonical ownership entry.2 := by
    rw [validateCanonicalItems, forM_ok, List.forall_mem_map]
    simp only [validateCanonicalItem_ok]
  constructor
  · rintro ⟨hownership, collected, hcollected, h⟩
    obtain ⟨⟨⟩, hcanonical, hreport⟩ := bind_ok.1 h
    obtain ⟨howned, -, hentries⟩ := collectFiles_ok.1 hcollected
    exact ⟨collected, hownership, ⟨buildOwnership_assigns hownership, howned, hentries,
      (hvalidate collected).1 hcanonical⟩, (Except.ok.inj hreport).symm⟩
  · rintro ⟨collected, hownership, hcollects, rfl⟩
    have hnodup : (Entries.keys (files.flatMap fileEntries)).Nodup := by
      rw [← hcollects.entries]
      exact collected.nodup
    exact ⟨hownership, collected, collectFiles_ok.2 ⟨hcollects.owned, hnodup, hcollects.entries⟩,
      bind_ok.2 ⟨(), (hvalidate collected).2 hcollects.canonical, rfl⟩⟩

section
variable {manifest : PacketManifestInput} {files : List NamedTriageVerdictFile}
  {ownership : JsMap JsString} {collected : JsMap CollectedVerdict}

theorem Collects.get_iff (h : Collects manifest files ownership collected) {itemId : JsString}
    {verdict : CollectedVerdict} : collected.get itemId = some verdict ↔
      ∃ file ∈ files, ∃ given ∈ file.result.verdicts, given.itemId = itemId ∧
        verdict = collectedVerdict file given := by
  rw [← JsMap.mem_entries, h.entries, List.mem_flatMap]
  refine exists_congr fun file => and_congr_right fun _ => ?_
  rw [fileEntries, List.mem_map]
  refine exists_congr fun given => and_congr_right fun _ => ?_
  rw [Prod.mk.injEq, eq_comm (a := verdict)]

theorem Collects.itemId_eq (h : Collects manifest files ownership collected) (itemId : JsString)
    (verdict : CollectedVerdict) (hget : collected.get itemId = some verdict) :
    verdict.itemId = itemId := by
  obtain ⟨file, -, given, -, hitem, rfl⟩ := h.get_iff.1 hget
  exact hitem

theorem Collects.owner (h : Collects manifest files ownership collected) {itemId : JsString}
    {verdict : CollectedVerdict} (hget : collected.get itemId = some verdict) :
    ownership.get itemId = some verdict.packetId := by
  obtain ⟨file, hfile, given, hgiven, rfl, rfl⟩ := h.get_iff.1 hget
  exact (h.owned file hfile).2 given hgiven

theorem Collects.names (h : Collects manifest files ownership collected) {itemId : JsString}
    {verdict : CollectedVerdict} (hget : collected.get itemId = some verdict) :
    NamesCanonical ownership verdict := h.canonical _ (JsMap.mem_entries.2 hget)

/-! ## Every assigned item -/

theorem orderVerdicts_eq : orderVerdicts collected manifest =
    (manifest.packets.flatMap AssignedPacket.itemIds).filterMap collected.get := by
  rw [orderVerdicts, List.filterMap_flatMap]

theorem mem_orderVerdicts (h : Collects manifest files ownership collected)
    {verdict : CollectedVerdict} : verdict ∈ orderVerdicts collected manifest ↔
      collected.get verdict.itemId = some verdict := by
  rw [orderVerdicts_eq, List.mem_filterMap]
  constructor
  · rintro ⟨itemId, -, hget⟩
    rw [h.itemId_eq itemId verdict hget]
    exact hget
  · intro hget
    obtain ⟨packet, hpacket, -, hitem⟩ := h.assigns.get_iff.1 (h.owner hget)
    exact ⟨verdict.itemId, List.mem_flatMap.2 ⟨packet, hpacket, hitem⟩, hget⟩

theorem filter_orderVerdicts (h : Collects manifest files ownership collected) (itemId : JsString) :
    (orderVerdicts collected manifest).filter (fun verdict => verdict.itemId = itemId) =
      (collected.get itemId).toList := by
  rw [orderVerdicts_eq]
  refine filter_filterMap_keyed h.assigns.nodup (fun verdict : CollectedVerdict => verdict.itemId)
    h.itemId_eq ?_
  intro hout
  rw [Option.eq_none_iff_forall_ne_some]
  intro verdict hget
  obtain ⟨packet, hpacket, -, hitem⟩ := h.assigns.get_iff.1 (h.owner hget)
  exact hout (List.mem_flatMap.2 ⟨packet, hpacket, hitem⟩)

theorem mem_missingByPacket {missing : AssignedPacket} :
    missing ∈ missingByPacket manifest collected ↔
      ∃ packet ∈ manifest.packets, missing = missingOf collected packet ∧ missing.itemIds ≠ [] := by
  rw [missingByPacket, List.mem_filter, List.mem_map, decide_eq_true_eq, gt_iff_lt,
    List.length_pos_iff]
  constructor
  · rintro ⟨⟨packet, hpacket, rfl⟩, hne⟩
    exact ⟨packet, hpacket, rfl, hne⟩
  · rintro ⟨packet, hpacket, rfl, hne⟩
    exact ⟨⟨packet, hpacket, rfl⟩, hne⟩

theorem mem_missing_items {itemId : JsString} :
    (∃ missing ∈ missingByPacket manifest collected, itemId ∈ missing.itemIds) ↔
      itemId ∈ manifest.packets.flatMap AssignedPacket.itemIds ∧ collected.get itemId = none := by
  have hitems (packet : AssignedPacket) : itemId ∈ (missingOf collected packet).itemIds ↔
      itemId ∈ packet.itemIds ∧ collected.get itemId = none := by
    rw [missingOf, List.mem_filter, JsMap.has, Bool.not_eq_true', Option.isSome_eq_false_iff,
      Option.isNone_iff_eq_none]
  rw [List.mem_flatMap]
  constructor
  · rintro ⟨missing, hmissing, hitem⟩
    obtain ⟨packet, hpacket, rfl, -⟩ := mem_missingByPacket.1 hmissing
    rw [hitems] at hitem
    exact ⟨⟨packet, hpacket, hitem.1⟩, hitem.2⟩
  · rintro ⟨⟨packet, hpacket, hitem⟩, hnone⟩
    have hmem := (hitems packet).2 ⟨hitem, hnone⟩
    exact ⟨_, mem_missingByPacket.2 ⟨packet, hpacket, rfl, List.ne_nil_of_mem hmem⟩, hmem⟩

/-- An assigned item has one verdict, with its packet, or is one of those its packet misses. -/
def AccountsFor (report : VerdictCollectionReport) (packet : AssignedPacket) (itemId : JsString) :
    Prop :=
  (∃ verdict, report.verdicts.filter (fun verdict => verdict.itemId = itemId) = [verdict] ∧
      verdict.packetId = packet.packetId ∧ ∀ missing ∈ report.missing, itemId ∉ missing.itemIds) ∨
    report.verdicts.filter (fun verdict => verdict.itemId = itemId) = [] ∧
      ∃ missing ∈ report.missing, missing.packetId = packet.packetId ∧ itemId ∈ missing.itemIds

theorem accountsFor (h : Collects manifest files ownership collected)
    (currentSource : Option CurrentSourceState) {packet : AssignedPacket}
    (hpacket : packet ∈ manifest.packets) {itemId : JsString} (hitem : itemId ∈ packet.itemIds) :
    AccountsFor (reportOf manifest currentSource collected) packet itemId := by
  have hfilter := filter_orderVerdicts h itemId
  rw [AccountsFor, reportOf]
  cases hget : collected.get itemId with
  | some verdict =>
    left
    rw [hget] at hfilter
    refine ⟨verdict, hfilter, ?_, fun missing hmissing hmem => ?_⟩
    · have howner := h.owner hget
      rw [h.assigns.get_iff.2 ⟨packet, hpacket, rfl, hitem⟩] at howner
      exact (Option.some.inj howner).symm
    · have hnone := (mem_missing_items.1 ⟨missing, hmissing, hmem⟩).2
      rw [hget] at hnone
      cases hnone
  | none =>
    right
    rw [hget] at hfilter
    have hmem : itemId ∈ (missingOf collected packet).itemIds := by
      rw [missingOf, List.mem_filter, JsMap.has, hget]
      exact ⟨hitem, rfl⟩
    exact ⟨hfilter, _, mem_missingByPacket.2 ⟨packet, hpacket, rfl, List.ne_nil_of_mem hmem⟩, rfl,
      hmem⟩

end

/-! ## Sums -/

theorem sum_setEntry (k : JsString) (n : Nat) (es : Entries Nat) :
    ((setEntry k n es).map Prod.snd).sum + (es.lookup k).getD 0 = (es.map Prod.snd).sum + n := by
  induction es with
  | nil =>
    rw [setEntry, List.lookup_nil, Option.getD_none, List.map_cons, List.map_nil, List.sum_cons,
      List.sum_nil, Nat.add_zero, Nat.add_comm]
  | cons e es ih =>
    obtain ⟨k', n'⟩ := e
    rw [setEntry, Entries.lookup_cons]
    by_cases hk : k = k'
    · rw [if_pos hk, if_pos hk.symm, List.map_cons, List.map_cons, List.sum_cons, List.sum_cons,
        Option.getD_some]
      omega
    · rw [if_neg hk, if_neg (Ne.symm hk), List.map_cons, List.map_cons, List.sum_cons,
        List.sum_cons]
      omega

theorem sum_countTokens (tokens : List JsString) :
    ((countTokens tokens).entries.map Prod.snd).sum = tokens.length := by
  have hloop (counts : JsMap Nat) : ((tokens.foldl (fun counts token =>
      counts.set token (countOf counts token + 1)) counts).entries.map Prod.snd).sum =
        (counts.entries.map Prod.snd).sum + tokens.length := by
    induction tokens generalizing counts with
    | nil => rfl
    | cons token tokens ih =>
      have hset := sum_setEntry token (countOf counts token + 1) counts.entries
      have hcount : (counts.entries.lookup token).getD 0 = countOf counts token := rfl
      rw [List.foldl_cons, ih, List.length_cons]
      change ((setEntry token (countOf counts token + 1) counts.entries).map Prod.snd).sum +
        tokens.length = _
      omega
  exact (hloop JsMap.empty).trans (Nat.zero_add _)

theorem sum_countBy {Value : Type} (values : List Value) (keyFor : Value → JsString) :
    ((countBy values keyFor).map Prod.snd).sum = values.length := by
  rw [countBy, sum_countTokens, List.length_map]

theorem sum_tally (missingCounts : JsMap Nat) (packets : List AssignedPacket) (tally : PacketTally) :
    (packets.foldl (tallyPacket missingCounts) tally).completedPackets +
        (packets.foldl (tallyPacket missingCounts) tally).partialPackets +
        (packets.foldl (tallyPacket missingCounts) tally).unstartedPackets =
      tally.completedPackets + tally.partialPackets + tally.unstartedPackets + packets.length := by
  induction packets generalizing tally with
  | nil => rfl
  | cons packet packets ih =>
    have hpacket : (tallyPacket missingCounts tally packet).completedPackets +
        (tallyPacket missingCounts tally packet).partialPackets +
        (tallyPacket missingCounts tally packet).unstartedPackets =
          tally.completedPackets + tally.partialPackets + tally.unstartedPackets + 1 := by
      simp only [tallyPacket]
      split
      · dsimp only
        omega
      · split
        · dsimp only
          omega
        · dsimp only
          omega
    rw [List.foldl_cons, ih, hpacket, List.length_cons]
    omega

theorem assigned_length (packets : List AssignedPacket) (total : Nat) :
    packets.foldl (fun total packet => total + packet.itemIds.length) total =
      total + (packets.flatMap AssignedPacket.itemIds).length := by
  induction packets generalizing total with
  | nil => rfl
  | cons packet packets ih =>
    rw [List.foldl_cons, ih, List.flatMap_cons, List.length_append, Nat.add_assoc]

/-- The items that the packets miss are those without a verdict. -/
theorem missing_length (manifest : PacketManifestInput) (collected : JsMap CollectedVerdict) :
    ((missingByPacket manifest collected).flatMap AssignedPacket.itemIds).length +
        (orderVerdicts collected manifest).length =
      (manifest.packets.flatMap AssignedPacket.itemIds).length := by
  rw [missingByPacket, orderVerdicts]
  induction manifest.packets with
  | nil => rfl
  | cons packet packets ih =>
    have hpacket : (packet.itemIds.filter fun itemId => !collected.has itemId).length +
        (packet.itemIds.filterMap collected.get).length = packet.itemIds.length := by
      induction packet.itemIds with
      | nil => rfl
      | cons itemId itemIds ih =>
        cases hget : collected.get itemId with
        | none =>
          rw [List.filterMap_cons_none hget, List.filter_cons_of_pos (by rw [JsMap.has, hget]; rfl),
            List.length_cons, List.length_cons]
          omega
        | some verdict =>
          rw [List.filterMap_cons_some hget, List.filter_cons_of_neg (by
            rw [JsMap.has, hget]
            exact Bool.false_ne_true),
            List.length_cons, List.length_cons]
          omega
    have hkept : (((packet :: packets).map (missingOf collected)).filter fun packet =>
        packet.itemIds.length > 0).flatMap AssignedPacket.itemIds =
          (missingOf collected packet).itemIds ++ ((packets.map (missingOf collected)).filter
            fun packet => packet.itemIds.length > 0).flatMap AssignedPacket.itemIds := by
      rw [List.map_cons]
      by_cases hnil : (missingOf collected packet).itemIds = []
      · rw [List.filter_cons_of_neg (by rw [hnil]; decide), hnil, List.nil_append]
      · rw [List.filter_cons_of_pos (by
          rw [decide_eq_true_eq, gt_iff_lt, List.length_pos_iff]
          exact hnil), List.flatMap_cons]
    have hitems : (missingOf collected packet).itemIds =
        packet.itemIds.filter fun itemId => !collected.has itemId := rfl
    rw [hkept, hitems, List.flatMap_cons, List.flatMap_cons, List.length_append, List.length_append,
      List.length_append]
    omega

/-- The counts of a report add up. -/
structure AddsUp (manifest : PacketManifestInput) (report : VerdictCollectionReport) : Prop where
  assigned : report.summary.assignedItems =
    (manifest.packets.flatMap AssignedPacket.itemIds).length
  received : report.summary.receivedVerdicts = report.verdicts.length
  missing : report.summary.missingItems = (report.missing.flatMap AssignedPacket.itemIds).length
  items : (report.summary.receivedVerdicts : Int) + report.summary.missingItems =
    report.summary.assignedItems
  totalPackets : report.summary.totalPackets = manifest.packets.length
  packets : report.summary.completedPackets + report.summary.partialPackets +
    report.summary.unstartedPackets = report.summary.totalPackets
  byVerdict : (report.summary.byVerdict.map Prod.snd).sum = report.summary.receivedVerdicts
  bySeverity : (report.summary.bySeverity.map Prod.snd).sum = report.summary.receivedVerdicts

theorem addsUp (manifest : PacketManifestInput) (currentSource : Option CurrentSourceState)
    (collected : JsMap CollectedVerdict) :
    AddsUp manifest (reportOf manifest currentSource collected) := by
  have hassigned : (reportOf manifest currentSource collected).summary.assignedItems =
      (manifest.packets.flatMap AssignedPacket.itemIds).length :=
    (assigned_length manifest.packets 0).trans (Nat.zero_add _)
  have hmissing := missing_length manifest collected
  have hdifference : (reportOf manifest currentSource collected).summary.missingItems =
      ((reportOf manifest currentSource collected).summary.assignedItems : Int) -
        (orderVerdicts collected manifest).length := rfl
  refine ⟨hassigned, rfl, ?_, ?_, rfl, ?_, sum_countBy _ _, sum_countBy _ _⟩
  · rw [hdifference, hassigned]
    change _ = (((missingByPacket manifest collected).flatMap AssignedPacket.itemIds).length : Int)
    omega
  · rw [hdifference]
    exact add_sub_cancel _ _
  · refine (sum_tally _ manifest.packets ⟨0, 0, 0⟩).trans ?_
    exact Nat.zero_add _

/-! ## The order of the files -/

/-- The same file with its verdicts in another order. -/
structure SameVerdicts (file file' : NamedTriageVerdictFile) : Prop where
  path : file.path = file'.path
  packetId : file.result.packetId = file'.result.packetId
  reviewer : file.result.reviewer = file'.result.reviewer
  verdicts : file.result.verdicts.Perm file'.result.verdicts

/-- The same files in another order, each with its verdicts in another order. -/
def Reordered (files files' : List NamedTriageVerdictFile) : Prop :=
  ∃ moved, files.Perm moved ∧ List.Forall₂ SameVerdicts moved files'

theorem SameVerdicts.entries {file file' : NamedTriageVerdictFile} (h : SameVerdicts file file') :
    (fileEntries file).Perm (fileEntries file') := by
  have hverdict : collectedVerdict file = collectedVerdict file' := by
    funext verdict
    rw [collectedVerdict, collectedVerdict, h.path, h.packetId, h.reviewer]
  rw [fileEntries, fileEntries, hverdict]
  exact h.verdicts.map _

theorem SameVerdicts.owns {file file' : NamedTriageVerdictFile} (h : SameVerdicts file file')
    {ownership : JsMap JsString} (howns : OwnsVerdicts ownership file) :
    OwnsVerdicts ownership file' := by
  rw [OwnsVerdicts, ← h.packetId]
  exact ⟨howns.1, fun verdict hverdict => howns.2 verdict (h.verdicts.mem_iff.2 hverdict)⟩

theorem Reordered.entries {files files' : List NamedTriageVerdictFile} (h : Reordered files files') :
    (files.flatMap fileEntries).Perm (files'.flatMap fileEntries) := by
  obtain ⟨moved, hperm, hsame⟩ := h
  refine (hperm.flatMap_right fileEntries).trans ?_
  clear hperm
  induction hsame with
  | nil => exact .refl _
  | cons hfile _ ih =>
    rw [List.flatMap_cons, List.flatMap_cons]
    exact hfile.entries.append ih

theorem Reordered.owns {files files' : List NamedTriageVerdictFile} (h : Reordered files files')
    {ownership : JsMap JsString} (howns : ∀ file ∈ files, OwnsVerdicts ownership file) :
    ∀ file ∈ files', OwnsVerdicts ownership file := by
  obtain ⟨moved, hperm, hsame⟩ := h
  have hmoved : ∀ file ∈ moved, OwnsVerdicts ownership file := fun file hfile =>
    howns file (hperm.mem_iff.2 hfile)
  clear hperm
  induction hsame with
  | nil => exact List.forall_mem_nil _
  | cons hfile _ ih =>
    rw [List.forall_mem_cons] at hmoved ⊢
    exact ⟨hfile.owns hmoved.1, ih hmoved.2⟩

/-- A report does not depend on the order of the files, or of the verdicts of a file. -/
theorem collectTriageVerdicts_reordered {manifest : PacketManifestInput}
    {files files' : List NamedTriageVerdictFile} {currentSource : Option CurrentSourceState}
    {report : VerdictCollectionReport}
    (h : collectTriageVerdicts manifest files currentSource = .ok report)
    (hfiles : Reordered files files') :
    collectTriageVerdicts manifest files' currentSource = .ok report := by
  obtain ⟨ownership, collected, hownership, hcollects, rfl⟩ := collectTriageVerdicts_ok.1 h
  have hperm := hfiles.entries
  rw [← hcollects.entries] at hperm
  have hnodup : (Entries.keys (files'.flatMap fileEntries)).Nodup :=
    (hperm.map Prod.fst).nodup_iff.1 collected.nodup
  have hget : collected.get = (⟨files'.flatMap fileEntries, hnodup⟩ : JsMap CollectedVerdict).get := by
    funext itemId
    exact Entries.lookup_perm collected.nodup hperm itemId
  have hreport : reportOf manifest currentSource collected =
      reportOf manifest currentSource ⟨files'.flatMap fileEntries, hnodup⟩ := by
    have hhas : collected.has =
        (⟨files'.flatMap fileEntries, hnodup⟩ : JsMap CollectedVerdict).has := by
      funext itemId
      rw [JsMap.has, JsMap.has, hget]
    have hverdicts : orderVerdicts collected manifest =
        orderVerdicts ⟨files'.flatMap fileEntries, hnodup⟩ manifest := by
      rw [orderVerdicts, orderVerdicts, hget]
    have hmissing : missingByPacket manifest collected =
        missingByPacket manifest ⟨files'.flatMap fileEntries, hnodup⟩ := by
      rw [missingByPacket, missingByPacket]
      refine congrArg (List.filter _) (List.map_congr_left fun packet _ => ?_)
      rw [missingOf, missingOf, hhas]
    rw [reportOf, reportOf, hverdicts, hmissing]
  rw [hreport]
  refine collectTriageVerdicts_ok.2 ⟨ownership, _, hownership,
    ⟨hcollects.assigns, hfiles.owns hcollects.owned, rfl, ?_⟩, rfl⟩
  exact fun entry hentry => hcollects.canonical entry (hperm.mem_iff.2 hentry)

/-! ## Duplicates -/

/-- What a duplicate-of verdict of an item refers to. -/
def canonicalOf (report : VerdictCollectionReport) (itemId : JsString) : Option JsString :=
  (report.verdicts.find? fun verdict =>
    verdict.itemId = itemId ∧ verdict.verdict = .duplicateOf).bind fun verdict =>
      verdict.canonicalItemId

/-- A verdict of the files calls an item a duplicate of another. -/
def Duplicates (files : List NamedTriageVerdictFile) (itemId canonicalItemId : JsString) : Prop :=
  ∃ file ∈ files, ∃ verdict ∈ file.result.verdicts, verdict.itemId = itemId ∧
    verdict.verdict = .duplicateOf ∧ verdict.canonicalItemId = some canonicalItemId

/-- Following the canonical items from a duplicate ends at an item that is none, or is missing. -/
def EndsDuplicates (report : VerdictCollectionReport) : Prop :=
  ∀ verdict ∈ report.verdicts, verdict.verdict = .duplicateOf →
    ∃ itemId, ReflTransGen (Follows (canonicalOf report)) verdict.itemId itemId ∧
      ((∃ missing ∈ report.missing, itemId ∈ missing.itemIds) ∨
        ∃ last ∈ report.verdicts, last.itemId = itemId ∧ last.verdict ≠ .duplicateOf)

section
variable {manifest : PacketManifestInput} {files : List NamedTriageVerdictFile}
  {ownership : JsMap JsString} {collected : JsMap CollectedVerdict}
  (currentSource : Option CurrentSourceState)

theorem canonicalOf_eq (h : Collects manifest files ownership collected) (itemId : JsString) :
    canonicalOf (reportOf manifest currentSource collected) itemId =
      ((collected.get itemId).filter fun verdict => verdict.verdict = .duplicateOf).bind
        fun verdict => verdict.canonicalItemId := by
  have hfind : (orderVerdicts collected manifest).find? (fun verdict =>
      verdict.itemId = itemId ∧ verdict.verdict = .duplicateOf) =
        (collected.get itemId).filter fun verdict => verdict.verdict = .duplicateOf := by
    have hfilter := filter_orderVerdicts h itemId
    rw [← List.head?_filter]
    have hboth : (orderVerdicts collected manifest).filter (fun verdict =>
        verdict.itemId = itemId ∧ verdict.verdict = .duplicateOf) =
          ((collected.get itemId).toList).filter fun verdict => verdict.verdict = .duplicateOf := by
      rw [← hfilter, List.filter_filter]
      refine List.filter_congr fun verdict _ => ?_
      rw [Bool.decide_and, Bool.and_comm]
    rw [hboth]
    cases collected.get itemId with
    | none => rfl
    | some verdict =>
      rw [Option.toList_some, Option.filter_some]
      by_cases hkind : verdict.verdict = .duplicateOf
      · rw [List.filter_cons_of_pos (by rw [decide_eq_true_eq]; exact hkind), decide_eq_true hkind]
        rfl
      · rw [List.filter_cons_of_neg (by rw [decide_eq_true_eq]; exact hkind), decide_eq_false hkind]
        rfl
  rw [canonicalOf, reportOf, hfind]

theorem follows_iff (h : Collects manifest files ownership collected) {itemId next : JsString} :
    Follows (canonicalOf (reportOf manifest currentSource collected)) itemId next ↔
      Duplicates files itemId next := by
  rw [Follows, canonicalOf_eq currentSource h, Option.bind_eq_some_iff]
  simp only [Option.filter_eq_some_iff, h.get_iff, decide_eq_true_eq]
  constructor
  · rintro ⟨_, ⟨⟨file, hfile, given, hgiven, hitem, rfl⟩, hkind⟩, hnext⟩
    exact ⟨file, hfile, given, hgiven, hitem, hkind, hnext⟩
  · rintro ⟨file, hfile, given, hgiven, hitem, hkind, hnext⟩
    exact ⟨collectedVerdict file given, ⟨⟨file, hfile, given, hgiven, hitem, rfl⟩, hkind⟩, hnext⟩

/-- An assigned item refers to no other exactly when it is missing, or its verdict is not
duplicate-of. -/
theorem canonicalOf_none (h : Collects manifest files ownership collected) {itemId : JsString}
    (hassigned : itemId ∈ manifest.packets.flatMap AssignedPacket.itemIds) :
    canonicalOf (reportOf manifest currentSource collected) itemId = none ↔
      (∃ missing ∈ missingByPacket manifest collected, itemId ∈ missing.itemIds) ∨
        ∃ last ∈ orderVerdicts collected manifest, last.itemId = itemId ∧
          last.verdict ≠ .duplicateOf := by
  rw [canonicalOf_eq currentSource h, mem_missing_items]
  cases hget : collected.get itemId with
  | none => exact iff_of_true rfl (.inl ⟨hassigned, rfl⟩)
  | some verdict =>
    have hitem := h.itemId_eq itemId verdict hget
    have hnames := h.names hget
    rw [NamesCanonical] at hnames
    rw [Option.filter_some]
    by_cases hkind : verdict.verdict = .duplicateOf
    · rw [if_pos hkind] at hnames
      obtain ⟨canonical, hcanonical, -⟩ := hnames
      rw [decide_eq_true hkind, if_pos rfl, Option.bind_some, hcanonical]
      refine iff_of_false (fun heq => by cases heq) ?_
      rintro (⟨-, heq⟩ | ⟨last, hlast, hsame, hother⟩)
      · cases heq
      · rw [mem_orderVerdicts h, hsame, hget] at hlast
        cases hlast
        exact hother hkind
    · rw [decide_eq_false hkind, if_neg Bool.false_ne_true]
      refine iff_of_true rfl (.inr ⟨verdict, ?_, hitem, hkind⟩)
      rw [mem_orderVerdicts h, hitem]
      exact hget

theorem endsDuplicates_iff (h : Collects manifest files ownership collected) :
    EndsDuplicates (reportOf manifest currentSource collected) ↔
      ∀ itemId, ¬ TransGen (Duplicates files) itemId itemId := by
  have hfollows : Follows (canonicalOf (reportOf manifest currentSource collected)) =
      Duplicates files := by
    funext itemId next
    exact propext (follows_iff currentSource h)
  have hassigned {itemId next : JsString} (hdup : Duplicates files itemId next) :
      itemId ∈ manifest.packets.flatMap AssignedPacket.itemIds ∧
        next ∈ manifest.packets.flatMap AssignedPacket.itemIds := by
    obtain ⟨file, hfile, given, hgiven, hitem, hkind, hnext⟩ := hdup
    have hget : collected.get itemId = some (collectedVerdict file given) :=
      h.get_iff.2 ⟨file, hfile, given, hgiven, hitem, rfl⟩
    have hnames := h.names hget
    have hduplicate : (collectedVerdict file given).verdict = .duplicateOf := hkind
    have hcanonical : (collectedVerdict file given).canonicalItemId = some next := hnext
    rw [NamesCanonical, if_pos hduplicate, hcanonical] at hnames
    obtain ⟨canonical, heq, -, hhas⟩ := hnames
    cases heq
    refine ⟨h.assigns.has_iff.1 ?_, h.assigns.has_iff.1 hhas⟩
    rw [JsMap.has, h.owner hget]
    rfl
  have hreached {itemId last : JsString} (hreach : ReflTransGen (Duplicates files) itemId last)
      (hitem : itemId ∈ manifest.packets.flatMap AssignedPacket.itemIds) :
      last ∈ manifest.packets.flatMap AssignedPacket.itemIds := by
    cases hreach with
    | refl => exact hitem
    | tail _ hlast => exact (hassigned hlast).2
  rw [← hfollows, ← ends_iff_acyclic (manifest.packets.flatMap AssignedPacket.itemIds)
    fun itemId next hnext => (hassigned (hfollows ▸ hnext)).1]
  constructor
  · intro hends itemId
    cases hcanonical : canonicalOf (reportOf manifest currentSource collected) itemId with
    | none => exact ⟨itemId, .refl, hcanonical⟩
    | some next =>
      obtain ⟨file, hfile, given, hgiven, hitem, hkind, -⟩ := (follows_iff currentSource h).1 hcanonical
      have hget : collected.get itemId = some (collectedVerdict file given) :=
        h.get_iff.2 ⟨file, hfile, given, hgiven, hitem, rfl⟩
      have hmem : collectedVerdict file given ∈ orderVerdicts collected manifest := by
        rw [mem_orderVerdicts h, h.itemId_eq itemId _ hget]
        exact hget
      obtain ⟨last, hlast, hend⟩ := hends _ hmem hkind
      rw [h.itemId_eq itemId _ hget] at hlast
      refine ⟨last, hlast, (canonicalOf_none currentSource h ?_).2 hend⟩
      exact hreached (hfollows ▸ hlast) (hassigned ((follows_iff currentSource h).1 hcanonical)).1
  · intro hends verdict hverdict hkind
    obtain ⟨last, hlast, hnone⟩ := hends verdict.itemId
    have hget := (mem_orderVerdicts h).1 hverdict
    have hitem : verdict.itemId ∈ manifest.packets.flatMap AssignedPacket.itemIds := by
      refine h.assigns.has_iff.1 ?_
      rw [JsMap.has, h.owner hget]
      rfl
    exact ⟨last, hlast, (canonicalOf_none currentSource h (hreached (hfollows ▸ hlast) hitem)).1 hnone⟩

end

/-! ## What is claimed of a report -/

structure WellFoundedCollection (manifest : PacketManifestInput) (files : List NamedTriageVerdictFile)
    (currentSource : Option CurrentSourceState) (report : VerdictCollectionReport) : Prop where
  complete : ∀ packet ∈ manifest.packets, ∀ itemId ∈ packet.itemIds, AccountsFor report packet itemId
  sums : AddsUp manifest report
  unordered : ∀ files', Reordered files files' →
    collectTriageVerdicts manifest files' currentSource = .ok report
  founded : EndsDuplicates report

/-- A report is complete and well founded exactly when the duplicates of the files form no cycle. -/
theorem collectTriageVerdicts_exact {manifest : PacketManifestInput}
    {files : List NamedTriageVerdictFile} {currentSource : Option CurrentSourceState}
    {report : VerdictCollectionReport}
    (h : collectTriageVerdicts manifest files currentSource = .ok report) :
    WellFoundedCollection manifest files currentSource report ↔
      ∀ itemId, ¬ TransGen (Duplicates files) itemId itemId := by
  obtain ⟨ownership, collected, -, hcollects, rfl⟩ := collectTriageVerdicts_ok.1 h
  rw [← endsDuplicates_iff currentSource hcollects]
  constructor
  · intro hreport
    exact hreport.founded
  · intro hfounded
    exact ⟨fun packet hpacket itemId hitem => accountsFor hcollects currentSource hpacket hitem,
      addsUp manifest currentSource collected,
      fun files' hfiles => collectTriageVerdicts_reordered h hfiles, hfounded⟩

def pairManifest : PacketManifestInput := ⟨⟨none, none⟩, [⟨js "packet-001", [js "a", js "b"]⟩]⟩

def duplicateVerdict (itemId canonicalItemId : JsString) : TriageVerdict :=
  ⟨itemId, .duplicateOf, .low, .high, js "same", [], none, some canonicalItemId⟩

def verdictFile (verdicts : List TriageVerdict) : NamedTriageVerdictFile :=
  ⟨js "verdicts.json", ⟨js "packet-001", none, verdicts⟩⟩

theorem collectTriageVerdicts_exact_missing : ∃ report,
    collectTriageVerdicts pairManifest [verdictFile [duplicateVerdict (js "a") (js "b")]] none =
        .ok report ∧
      (WellFoundedCollection pairManifest [verdictFile [duplicateVerdict (js "a") (js "b")]] none
          report ↔
        ∀ itemId, ¬ TransGen (Duplicates [verdictFile [duplicateVerdict (js "a") (js "b")]])
          itemId itemId) :=
  ⟨_, rfl, collectTriageVerdicts_exact rfl⟩

/-- Two items that are called duplicates of each other are accepted, and neither is ever reviewed. -/
theorem collectTriageVerdicts_fails : ∃ report,
    collectTriageVerdicts pairManifest [verdictFile [duplicateVerdict (js "a") (js "b"),
        duplicateVerdict (js "b") (js "a")]] none = .ok report ∧
      ¬ WellFoundedCollection pairManifest [verdictFile [duplicateVerdict (js "a") (js "b"),
        duplicateVerdict (js "b") (js "a")]] none report := by
  refine ⟨_, rfl, fun hreport => ?_⟩
  obtain ⟨ownership, collected, -, hcollects, heq⟩ := collectTriageVerdicts_ok.1
    (hreport.unordered _ ⟨_, .refl _, List.forall₂_same.2 fun file _ => ⟨rfl, rfl, rfl, .refl _⟩⟩)
  have hfounded := hreport.founded
  rw [heq, endsDuplicates_iff none hcollects] at hfounded
  have hfirst : Duplicates [verdictFile [duplicateVerdict (js "a") (js "b"),
      duplicateVerdict (js "b") (js "a")]] (js "a") (js "b") :=
    ⟨_, List.mem_singleton_self _, _, List.mem_cons_self, rfl, rfl, rfl⟩
  have hsecond : Duplicates [verdictFile [duplicateVerdict (js "a") (js "b"),
      duplicateVerdict (js "b") (js "a")]] (js "b") (js "a") :=
    ⟨_, List.mem_singleton_self _, _, List.mem_cons_of_mem _ (List.mem_singleton_self _), rfl, rfl,
      rfl⟩
  exact hfounded (js "a") (.tail (.single hfirst) hsecond)

end Musi.DriftTriage
