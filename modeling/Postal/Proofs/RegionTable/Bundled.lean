import Postal.Proofs.Json.RoundTrip
import Postal.Proofs.RegionTable.Entries
import Postal.Proofs.Text.Search
import Postal.RegionTable.Bundled

/-!
# The bundled texts

The codes of the bundled table rise strictly, so the search for a code finds its text wherever
there is one. No record holds a number or is nested deeply, so each text is read as the record it
was printed from, and the table that is served is the one that the texts make.
-/

set_option autoImplicit false

namespace Postal

theorem TextMap.get?_ofList_of_sorted {α : Type} (pairs : List (Text × α)) (h : Sorted pairs)
    (key : Text) (value : α) : (ofList pairs).get? key = some value ↔ (key, value) ∈ pairs := by
  refine ⟨mem_of_get?_ofList pairs key value, fun hm => ?_⟩
  rw [get?_ofList, lookup_reverse_eq_some]
  obtain ⟨before, after, rfl⟩ := List.append_of_mem hm
  have hafter := (List.pairwise_cons.mp (List.pairwise_append.mp h).2.1).1
  exact ⟨before, after, rfl, fun entry he => (hafter entry he).ne'⟩

namespace Bundled

theorem sorted_records : TextMap.Sorted records := by
  have hchain : (records.map Prod.fst).IsChain (· < ·) := by decide +kernel
  exact List.pairwise_map.mp (List.isChain_iff_pairwise.mp hchain)

theorem texts_toList :
    texts.toList = records.map fun e => (e.1, Json.compact (.object e.2)) := by
  simp only [texts, List.toList_toArray]

theorem sorted_texts : TextMap.Sorted texts.toList := by
  rw [texts_toList]
  exact List.pairwise_map.mpr sorted_records

theorem read?_compact (entry : Text × RegionRecord) (h : entry ∈ records) :
    Json.read? (Json.compact (.object entry.2)) = some (.object entry.2) := by
  have hfit : ∀ entry ∈ records, Json.fits Json.depthLimit (.object entry.2) = true := by
    decide +kernel
  exact (Json.read?_of_fits _ (hfit entry h)).1

theorem ofEntries_texts : RegionTable.ofEntries texts.toList = .ok .bundled := by
  have hread : ∀ e ∈ texts.toList,
      Json.read? e.2 = some (.object (RegionTable.objectOf e.2)) := by
    intro e he
    obtain ⟨entry, hm, rfl⟩ := List.mem_map.mp (texts_toList ▸ he)
    exact RegionTable.read?_of_isObject _ ⟨_, read?_compact entry hm⟩
  have hrecords : (texts.toList.map fun e => (e.1, RegionTable.objectOf e.2)) = records := by
    rw [texts_toList, List.map_map]
    refine (List.map_congr_left fun entry hm => ?_).trans (List.map_id records)
    simp only [Function.comp, RegionTable.objectOf, read?_compact entry hm, id]
  rw [RegionTable.ofEntries_objects texts.toList RegionTable.objectOf hread, hrecords]
  rfl

theorem codes_bundled : RegionTable.bundled.codes = codes := by
  rw [codes_eq, RegionTable.codes, TextMap.keys, RegionTable.bundled, RegionTable.ofRecords,
    TextMap.ofList, TextMap.sortedEntries_of_sorted records sorted_records]

/-- The record of a code with a text is read from that text, and not by way of an alias. -/
theorem exists_record_of_mem_texts (region text : Text) (h : (region, text) ∈ texts) :
    ∃ record, Json.read? text = some (.object record) ∧
      RegionTable.bundled.record? region = some record := by
  rw [← Array.mem_toList_iff, texts_toList] at h
  obtain ⟨⟨code, record⟩, hm, he⟩ := List.mem_map.mp h
  cases he
  refine ⟨record, read?_compact _ hm, ?_⟩
  have hown := (TextMap.get?_ofList_of_sorted records sorted_records code record).mpr hm
  rw [RegionTable.record?, RegionTable.bundled, RegionTable.ofRecords, hown]
  rfl

/-- The search finds the text of exactly the codes that are listed, and the table that is served
has records for just these codes, each read from the text that the search finds. -/
theorem text?_complete (region : Text) :
    (∀ text, text? region = some text ↔ (region, text) ∈ texts) ∧
    (text? region = none ↔ ∀ entry ∈ texts, entry.1 ≠ region) ∧
    ((text? region).isSome = true ↔ region ∈ codes) ∧
    RegionTable.ofEntries texts.toList = .ok .bundled ∧
    RegionTable.bundled.codes = codes ∧
    ∀ text, text? region = some text → ∃ record, Json.read? text = some (.object record) ∧
      RegionTable.bundled.record? region = some record := by
  have hsome := Text.search_eq_some_iff texts sorted_texts region
  have hnone := Text.search_eq_none_iff texts sorted_texts region
  refine ⟨hsome, ?_, ?_, ofEntries_texts, codes_bundled, fun text h => ?_⟩
  · rw [text?, hnone, List.mem_map, not_exists]
    simp only [Array.mem_toList_iff, not_and, ne_eq]
  · rw [← Option.ne_none_iff_isSome, ne_eq, text?, hnone, not_not, codes]
  · exact exists_record_of_mem_texts region text ((hsome text).mp h)

example : text? "us".toList = none ∧ text? "USA".toList = none := by decide +kernel

end Bundled
end Postal
