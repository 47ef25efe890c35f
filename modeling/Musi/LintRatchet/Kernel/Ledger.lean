import Musi.Js.Number
import Musi.LintRatchet.Kernel.Merge
import Musi.LintRatchet.Kernel.PosixHost

namespace Musi.LintRatchet
open Musi.Js
set_option autoImplicit true

/-! ## A ledger of counts by key -/

structure LedgerEntry where
  key : JsString
  count : Numeral
  deriving DecidableEq

instance : BaselineEntry Numeral LedgerEntry where
  key entry := entry.key
  count entry := some entry.count
  withCount entry n := { entry with count := n }
  key_withCount _ _ := rfl
  count_withCount _ _ := rfl

def LedgerEntry.fields (entry : LedgerEntry) : Entries (Json Numeral) :=
  [(js "key", .str entry.key), (js "count", .num entry.count)]

theorem LedgerEntry.record_entries (entry : LedgerEntry) :
    (Record.fromEntries entry.fields).entries = entry.fields := by
  have hkeys : Entries.keys entry.fields = [js "key", js "count"] := rfl
  rw [Record.fromEntries_entries (hkeys ▸ by decide), ownKeyOrder_of_names (hkeys ▸ by decide)]

/-- Entries of a key and a count, summed up by their number. -/
def ledgerSpec : BaselineMetricSpec Numeral LedgerEntry where
  tool := js "demo"
  metric := js "caps"
  fixedFields := Record.empty
  regenerate := none
  conflictMarkerRemediation := none
  parseEntry raw :=
    match raw.field (js "key"), raw.field (js "count") with
    | some (.str key), some (.num count) => .ok { key, count } []
    | _, _ => .failure (js "entry needs string key and number count") none
  formatEntry entry := Record.fromEntries entry.fields
  summarize entries := Record.fromEntries [(js "entries", .num (.int entries.length))]
  built_formatEntry entry e he := by
    have he := Record.mem_fromEntries he
    simp only [LedgerEntry.fields, List.mem_cons, List.not_mem_nil, or_false] at he
    rcases he with rfl | rfl
    · exact .str _
    · exact .num _
  built_summarize entries e he := by
    have he := Record.mem_fromEntries he
    simp only [List.mem_cons, List.not_mem_nil, or_false] at he
    subst he
    exact .num _

/-- The ledger's text of some entries. -/
def ledgerText (entries : List LedgerEntry) : JsString :=
  flatText ledgerSpec (JsMap.ofList (entries.map fun entry => (entry.key, entry)))

theorem ledgerSpec_inverse : EntryInverse ledgerSpec := by
  intro raw entry warnings _
  refine ⟨[], ?_⟩
  have hwire : wire (ledgerSpec.entryJson entry) = .obj entry.fields := by
    rw [BaselineMetricSpec.entryJson, wire_obj]
    exact congrArg (fun es => Json.obj (es.map fun e => (e.1, wire e.2))) entry.record_entries
  rw [hwire]
  rfl

end Musi.LintRatchet
