import Mathlib.Data.Option.Basic
import Postal.Proofs.Text.Map
import Postal.RegionTable

/-!
# Records behind the lookups

Every lookup of a region reads one record, its own or that of the region it is an alias of. A
region without a record reads as if its record were empty.
-/

set_option autoImplicit false

namespace Postal

def RegionRecord.text? (record : RegionRecord) (k : RegionKey) : Option Text :=
  Json.lookup? k.name record >>= Json.string?

namespace RegionTable

theorem get?_of_record?_eq_none (table : RegionTable) (region : Text)
    (h : table.record? region = none) (k : RegionKey) : table.get? region k = none := by
  rw [get?, h]
  rfl

theorem get?_of_record? (table : RegionTable) (region : Text) (record : RegionRecord)
    (h : table.record? region = some record) (k : RegionKey) :
    table.get? region k = record.text? k := by
  rw [get?, h]
  rfl

/-- The last record given for the region, and else the last one given for its alias. -/
theorem record?_ofRecords (records : List (Text × RegionRecord)) (region : Text) :
    (ofRecords records).record? region = (records.reverse.lookup region <|>
      aliases.lookup region >>= fun code => records.reverse.lookup code) := by
  have hget : (ofRecords records).records.get? = fun code => records.reverse.lookup code :=
    funext (TextMap.get?_ofList records)
  rw [record?, aliased?, hget]

theorem mem_of_record?_ofRecords (records : List (Text × RegionRecord)) (region : Text)
    (record : RegionRecord) (h : (ofRecords records).record? region = some record) :
    ∃ code, (code, record) ∈ records := by
  rw [record?, Option.orElse_eq_some] at h
  rcases h with h | ⟨-, h⟩
  · exact ⟨region, TextMap.mem_of_get?_ofList records region record h⟩
  · obtain ⟨code, -, h⟩ := Option.bind_eq_some_iff.mp h
    exact ⟨code, TextMap.mem_of_get?_ofList records code record h⟩

theorem get?_ofRecords (records : List (Text × RegionRecord)) (region : Text) :
    ∃ record : RegionRecord, (record = [] ∨ ∃ code, (code, record) ∈ records) ∧
      ∀ k, (ofRecords records).get? region k = record.text? k := by
  cases h : (ofRecords records).record? region with
  | some record =>
    exact ⟨record, .inr (mem_of_record?_ofRecords records region record h),
      get?_of_record? _ region record h⟩
  | none => exact ⟨[], .inl rfl, get?_of_record?_eq_none _ region h⟩

end RegionTable
end Postal
