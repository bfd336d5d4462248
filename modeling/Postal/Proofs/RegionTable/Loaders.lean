import Postal.Proofs.Json.Value
import Postal.Proofs.Outcome
import Postal.Proofs.RegionTable.Records

/-!
# Two ways to load a table

A table is loaded from pairs of a code and a text or from one document. With
distinct codes the order in which the pairs come has no part in the table, so
the document whose members hold the texts gives the same table, and the
document whose members hold the objects themselves gives one that holds the
same values. Both ways fail together; only which fault is found first hangs
on the order.
-/

set_option autoImplicit false

namespace Postal.RegionTable

open Json (strings)

variable (number : Numeral → Numeral)

/-! ## Records in any order -/

def entryRecord (e : Text × Text) : RegionRecord := (readEntry e.1 e.2).toOption.getD []

theorem entryRecord_of_read (e : Text × Text) (record : RegionRecord)
    (h : readEntry e.1 e.2 = .ok record) : entryRecord e = record := by
  rw [entryRecord, h]
  rfl

theorem readEntries_cons_eq_ok (e : Text × Text) (rest : List (Text × Text))
    (records : List (Text × RegionRecord)) : readEntries (e :: rest) = .ok records ↔
      readEntry e.1 e.2 = .ok (entryRecord e) ∧
        ∃ more, readEntries rest = .ok more ∧ records = (e.1, entryRecord e) :: more := by
  constructor
  · intro h
    obtain ⟨record, hr, h⟩ := (bind_eq_ok _ _ _).mp h
    obtain ⟨more, hm, h⟩ := (bind_eq_ok _ _ _).mp h
    cases h
    rw [entryRecord_of_read e record hr]
    exact ⟨hr, more, hm, rfl⟩
  · rintro ⟨hr, more, hm, rfl⟩
    exact (bind_eq_ok _ _ _).mpr ⟨_, hr, (bind_eq_ok _ _ _).mpr ⟨more, hm, rfl⟩⟩

theorem readEntries_eq_ok (entries : List (Text × Text)) (records : List (Text × RegionRecord)) :
    readEntries entries = .ok records ↔
      (∀ e ∈ entries, readEntry e.1 e.2 = .ok (entryRecord e)) ∧
        records = entries.map fun e => (e.1, entryRecord e) := by
  induction entries generalizing records with
  | nil => simp [readEntries, eq_comm]
  | cons e rest ih =>
    rw [readEntries_cons_eq_ok, List.forall_mem_cons]
    simp only [ih]
    constructor
    · rintro ⟨hr, _, ⟨hrest, rfl⟩, rfl⟩
      exact ⟨⟨hr, hrest⟩, rfl⟩
    · rintro ⟨⟨hr, hrest⟩, rfl⟩
      exact ⟨hr, _, ⟨hrest, rfl⟩, rfl⟩

theorem ofEntries_eq_ok (entries : List (Text × Text)) (table : RegionTable) :
    ofEntries entries = .ok table ↔
      (∀ e ∈ entries, readEntry e.1 e.2 = .ok (entryRecord e)) ∧
        table = ofRecords (entries.map fun e => (e.1, entryRecord e)) := by
  constructor
  · intro h
    obtain ⟨records, hr, h⟩ := (bind_eq_ok _ _ _).mp h
    obtain ⟨hread, rfl⟩ := (readEntries_eq_ok entries records).mp hr
    cases h
    exact ⟨hread, rfl⟩
  · rintro ⟨hread, rfl⟩
    exact (bind_eq_ok _ _ _).mpr ⟨_, (readEntries_eq_ok entries _).mpr ⟨hread, rfl⟩, rfl⟩

theorem ofEntries_objects (entries : List (Text × Text)) (objects : Text → RegionRecord)
    (h : ∀ e ∈ entries, Json.read? e.2 = some (.object (objects e.2))) :
    ofEntries entries = .ok (ofRecords (entries.map fun e => (e.1, objects e.2))) := by
  have hread : ∀ e ∈ entries, readEntry e.1 e.2 = .ok (objects e.2) := by
    intro e he
    rw [readEntry, readValue, h e he]
    rfl
  have hrecord : ∀ e ∈ entries, entryRecord e = objects e.2 :=
    fun e he => entryRecord_of_read e _ (hread e he)
  have hmap : entries.map (fun e => (e.1, objects e.2)) =
      entries.map fun e => (e.1, entryRecord e) :=
    List.map_congr_left fun e he => congrArg (Prod.mk e.1) (hrecord e he).symm
  refine (ofEntries_eq_ok entries _).mpr ⟨fun e he => ?_, congrArg ofRecords hmap⟩
  rw [hread e he, hrecord e he]

theorem ofRecords_perm (records others : List (Text × RegionRecord))
    (h : (records.map Prod.fst).Nodup) (hp : records.Perm others) :
    ofRecords records = ofRecords others := by
  rw [ofRecords, TextMap.ofList, TextMap.sortedEntries_eq_of_perm records others h hp, ofRecords,
    TextMap.ofList]

theorem ofEntries_perm (entries others : List (Text × Text)) (h : (entries.map Prod.fst).Nodup)
    (hp : entries.Perm others) (table : RegionTable) :
    ofEntries entries = .ok table ↔ ofEntries others = .ok table := by
  have hcodes : ((entries.map fun e => (e.1, entryRecord e)).map Prod.fst).Nodup := by
    rwa [List.map_map]
  rw [ofEntries_eq_ok, ofEntries_eq_ok, ofRecords_perm _ _ hcodes (hp.map _)]
  simp only [hp.mem_iff]

/-! ## Documents -/

theorem readMembers_strings (entries : List (Text × Text)) :
    readMembers (strings entries) = readEntries entries := by
  induction entries with
  | nil => rfl
  | cons e rest ih =>
    have htail : readMembers (rest.map fun e => (e.1, .string e.2)) = readEntries rest := ih
    rw [strings, List.map_cons, readMembers, readEntries, readMember, htail]

theorem ofJsonText_strings (text : Text) (entries : List (Text × Text))
    (h : Json.Denotes number text (.object (strings entries))) :
    ofJsonText text = ofEntries (TextMap.sortedEntries entries) := by
  obtain ⟨found, hfound, hvalues⟩ := h.read?_eq
  rw [Json.sortedEntries_strings] at hvalues
  have hmembers := Json.eq_strings_of_values_eq number _ _ hvalues
  rw [ofJsonText, hfound]
  change ofDocument found = _
  rw [ofDocument, TextMap.ofList, hmembers, readMembers_strings, ofEntries]

def recordValue (record : RegionRecord) : Json Text := Json.value number (.object record)

def values (table : RegionTable) : List (Text × Json Text) :=
  table.records.entries.map fun e => (e.1, recordValue number e.2)

theorem values_ofRecords (records : List (Text × RegionRecord)) :
    (ofRecords records).values number =
      (TextMap.sortedEntries records).map fun e => (e.1, recordValue number e.2) := rfl

theorem readMembers_objects (members : List (Text × Json Text))
    (records : List (Text × RegionRecord))
    (h : members.map (fun m => (m.1, Json.value number m.2)) =
      records.map fun r => (r.1, recordValue number r.2)) :
    ∃ found, readMembers members = .ok found ∧
      found.map (fun r => (r.1, recordValue number r.2)) =
        records.map fun r => (r.1, recordValue number r.2) := by
  induction members generalizing records with
  | nil => exact ⟨[], rfl, h⟩
  | cons m members ih =>
    obtain ⟨name, v⟩ := m
    cases records with
    | nil => cases h
    | cons r records =>
      obtain ⟨hfirst, hrest⟩ := List.cons_eq_cons.mp h
      obtain ⟨rfl, hvalue⟩ := Prod.mk.inj hfirst
      obtain ⟨found, hfound, hvalues⟩ := ih records hrest
      obtain ⟨object, rfl, -⟩ := Json.value_eq_object number v r.2 hvalue
      refine ⟨(r.1, object) :: found, ?_, ?_⟩
      · rw [readMembers, hfound]
        rfl
      · have hrecord : recordValue number object = recordValue number r.2 := hvalue
        rw [List.map_cons, List.map_cons, hvalues, hrecord]

theorem ofJsonText_objects (text : Text) (records : List (Text × RegionRecord))
    (h : Json.Denotes number text (.object (records.map fun r => (r.1, .object r.2)))) :
    ∃ table, ofJsonText text = .ok table ∧
      table.values number = (ofRecords records).values number := by
  obtain ⟨members, hmembers, hvalues⟩ := h.read?_eq
  rw [TextMap.sortedEntries_map, List.map_map] at hvalues
  obtain ⟨found, hfound, hsame⟩ :=
    readMembers_objects number _ (TextMap.sortedEntries records) hvalues
  refine ⟨ofRecords found, ?_, ?_⟩
  · rw [ofJsonText, hmembers]
    exact (bind_eq_ok _ _ _).mpr ⟨found, hfound, rfl⟩
  · -- The order is that of the codes, so the values may be taken before the entries are sorted.
    have hsorted := TextMap.sortedEntries_of_sorted _ (TextMap.sorted_sortedEntries records)
    rw [values_ofRecords, values_ofRecords, ← TextMap.sortedEntries_map (recordValue number),
      hsame, TextMap.sortedEntries_map (recordValue number), hsorted]

/-! ## Answers of tables with the same values -/

/-- The tables answer every question alike. -/
structure Agrees (table other : RegionTable) : Prop where
  get : ∀ region k, table.get? region k = other.get? region k
  contains : ∀ region, table.contains region = other.contains region
  codes : table.codes = other.codes
  size : table.size = other.size

section
variable {number} {table other : RegionTable}

theorem record?_values (h : table.values number = other.values number) (region : Text) :
    (table.record? region).map (recordValue number) =
      (other.record? region).map (recordValue number) := by
  have hget : ∀ code, (table.records.get? code).map (recordValue number) =
      (other.records.get? code).map (recordValue number) := by
    intro code
    have hlookup := congrArg (List.lookup code) h
    rwa [values, values, TextMap.lookup_map, TextMap.lookup_map] at hlookup
  have halias : (table.aliased? region).map (recordValue number) =
      (other.aliased? region).map (recordValue number) := by
    rw [aliased?, aliased?]
    cases aliases.lookup region with
    | none => rfl
    | some code => exact hget code
  simp only [record?, Option.orElse_eq_orElse, Option.orElse_eq_or, Option.map_or, hget, halias]

theorem agrees_of_values_eq (h : table.values number = other.values number) :
    table.Agrees other where
  get region k := by
    have hr := record?_values h region
    rw [get?, get?]
    cases ht : table.record? region with
    | none =>
      rw [ht] at hr
      rw [Option.map_eq_none_iff.mp hr.symm]
    | some r =>
      rw [ht] at hr
      obtain ⟨s, hs, he⟩ := Option.map_eq_some_iff.mp hr.symm
      rw [hs]
      exact Json.lookup?_of_value_eq number r s he.symm k.name
  contains region := by
    have hr := congrArg Option.isSome (record?_values h region)
    rwa [Option.isSome_map, Option.isSome_map] at hr
  codes := by
    have hk := congrArg (List.map Prod.fst) h
    rwa [values, values, List.map_map, List.map_map] at hk
  size := by
    have hl := congrArg List.length h
    rwa [values, values, List.length_map, List.length_map] at hl

end

/-- Pairs with distinct codes give the same table as any document that holds their texts by code,
and where the pairs come in the order of the codes, the same fault. Where the texts are objects,
any document that holds these by code gives a table of the same values. -/
theorem loaders_agree (entries : List (Text × Text)) (distinct : (entries.map Prod.fst).Nodup) :
    Json.Denotes number (Json.compact (.object (strings entries))) (.object (strings entries)) ∧
    (∀ text, Json.Denotes number text (.object (strings entries)) →
      (∀ table, ofJsonText text = .ok table ↔ ofEntries entries = .ok table) ∧
      (TextMap.Sorted entries → ofJsonText text = ofEntries entries)) ∧
    ∀ objects : Text → RegionRecord,
      (∀ e ∈ entries, Json.read? e.2 = some (.object (objects e.2))) → ∀ text,
      Json.Denotes number text (.object (entries.map fun e => (e.1, .object (objects e.2)))) →
        ∃ table found, ofEntries entries = .ok table ∧ ofJsonText text = .ok found ∧
          found.values number = table.values number ∧ found.Agrees table := by
  refine ⟨?_, ?_, ?_⟩
  · rw [Json.Denotes, (Json.read?_strings entries).1]
    rfl
  · intro text h
    have hperm := TextMap.sortedEntries_perm entries distinct
    rw [ofJsonText_strings number text entries h]
    constructor
    · exact fun table => (ofEntries_perm entries _ distinct hperm.symm table).symm
    · exact fun hsorted => by rw [TextMap.sortedEntries_of_sorted entries hsorted]
  · intro objects hobjects text h
    obtain ⟨found, hfound, hvalues⟩ := ofJsonText_objects number text
      (entries.map fun e => (e.1, objects e.2)) (by rwa [List.map_map])
    exact ⟨_, found, ofEntries_objects entries objects hobjects, hfound, hvalues,
      agrees_of_values_eq hvalues⟩

theorem loaders_agree_repeated :
    let entries := [("US".toList, "\x7b\"fmt\":\"%A\"\x7d".toList),
      ("AT".toList, "\x7b\"lang\":\"de\"\x7d".toList)]
    let text :=
      "\x7b\"US\":\x7b\"fmt\":null,\"fmt\":\"%A\"\x7d,\"AT\":\x7b\"lang\":\"de\"\x7d\x7d".toList
    (entries.map Prod.fst).Nodup ∧ ∃ table found, ofEntries entries = .ok table ∧
      ofJsonText text = .ok found ∧ found.values id = table.values id ∧ found.Agrees table := by
  have hfirst : Json.read? "\x7b\"fmt\":\"%A\"\x7d".toList =
      some (.object [("fmt".toList, .string "%A".toList)]) := by cbv
  have hsecond : Json.read? "\x7b\"lang\":\"de\"\x7d".toList =
      some (.object [("lang".toList, .string "de".toList)]) := by cbv
  have hread : Json.read?
      "\x7b\"US\":\x7b\"fmt\":null,\"fmt\":\"%A\"\x7d,\"AT\":\x7b\"lang\":\"de\"\x7d\x7d".toList =
        some (.object [("US".toList, .object [("fmt".toList, .null),
          ("fmt".toList, .string "%A".toList)]),
          ("AT".toList, .object [("lang".toList, .string "de".toList)])]) := by
    cbv
  intro entries text
  have hdistinct : (entries.map Prod.fst).Nodup := by decide
  refine ⟨hdistinct, (loaders_agree id entries hdistinct).2.2
    (fun t => if 'f' ∈ t then [("fmt".toList, .string "%A".toList)]
      else [("lang".toList, .string "de".toList)]) ?_ text ?_⟩
  · intro e he
    rcases List.mem_pair.mp he with rfl | rfl
    · exact hfirst
    · exact hsecond
  · rw [Json.Denotes, hread]
    rfl

end Postal.RegionTable
