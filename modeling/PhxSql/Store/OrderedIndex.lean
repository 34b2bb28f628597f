import PhxSql.Gtid.OrderedKey
import PhxSql.Store.EventIndex

/-!
# The order of the event index

`EventComparator` is the comparator of the LevelDB under the event index. It compares as `gtidRank`
does (`EventComparator.compare_eq`), so that the ordered map of the model is the order LevelDB
keeps, and the entry a seek stops at is the lower bound of that map (`seek_eq_lowerBound`). From the
text of a UUID and a number a seek therefore stops at the smallest stored number of this UUID that
is not below (`seek_reaches`), whatever else is stored.
-/

set_option autoImplicit false

namespace PhxSql.Store

open PhxSql.Proto PhxSql.Lib PhxSql.Gtid

/-- `EventComparator::Compare`. -/
def EventComparator.compare (a b : Bytes) : Int :=
  let key1 := parseGTID a
  let key2 := parseGTID b
  if key1.1 = key2.1 then
    if key1.2 = key2.2 then 0
    else if key1.2 < key2.2 then -1 else 1
  else if byteRank key1.1 < byteRank key2.1 then -1 else 1

/-- `leveldb::Iterator::Seek`: the first entry that the comparator does not put before the key. -/
def seek (index : EventIndex) (target : Bytes) : Option (Bytes × IndexValue) :=
  index.entries.find? fun e => decide (0 ≤ EventComparator.compare e.1 target)

/-- The comparator compares by `gtidRank`. -/
theorem EventComparator.compare_eq (a b : Bytes) :
    compare a b = orderSign (gtidRank a) (gtidRank b) := by
  rw [orderSign_gtidRank_eq, orderSign_eq, orderSign_eq, compare]
  split
  · rfl
  · rename_i hne
    rw [if_neg (mt byteRank_inj.mp hne)]
    congr

theorem EventComparator.compare_nonneg_iff (a b : Bytes) :
    0 ≤ compare a b ↔ gtidRank b ≤ gtidRank a := by
  rw [compare_eq, orderSign]
  split
  · rename_i hlt
    simp [hlt]
  · rename_i hle
    simp only [not_lt] at hle
    split <;> simp [hle]

theorem seek_eq_lowerBound (index : EventIndex) (target : Bytes) :
    seek index target = index.lowerBound target := by
  simp only [seek, SortedMap.lowerBound, EventComparator.compare_nonneg_iff]

/-- What a seek is for: the entry it stops at has the UUID, and the smallest of the stored numbers
of this UUID that are not below the given one. -/
structure Reached (index : EventIndex) (uuid : Bytes) (n : Nat) (e : Bytes × IndexValue) :
    Prop where
  mem : e ∈ index.entries
  uuid_eq : (parseGTID e.1).1 = uuid
  le : n ≤ (parseGTID e.1).2
  smallest : ∀ e' ∈ index.entries, (parseGTID e'.1).1 = uuid → n ≤ (parseGTID e'.1).2 →
    (parseGTID e.1).2 ≤ (parseGTID e'.1).2

/-- From the text of a UUID and a number, a seek stops at the smallest stored number of the UUID
that is not below, if there is one. -/
theorem seek_reaches (index : EventIndex) (u : Bytes) {n : Nat} (hn : n < 2 ^ 64)
    {e₀ : Bytes × IndexValue} (hmem : e₀ ∈ index.entries)
    (huuid : (parseGTID e₀.1).1 = genUUID u) (hle : n ≤ (parseGTID e₀.1).2) :
    ∃ e, seek index (genGTID (genUUID u) n) = some e ∧ Reached index (genUUID u) n e := by
  have hparse := @parseGTID_genUUID u n hn
  have hrank : ∀ e' : Bytes × IndexValue, (parseGTID e'.1).1 = genUUID u →
      n ≤ (parseGTID e'.1).2 → gtidRank (genGTID (genUUID u) n) ≤ gtidRank e'.1 := by
    intro e' huuid' hle'
    apply gtidRank_le
    · rw [hparse, huuid']
    · rw [hparse]
      exact hle'
  rw [seek_eq_lowerBound]
  cases hlower : index.lowerBound (genGTID (genUUID u) n) with
  | none =>
    have hlt := SortedMap.lowerBound_eq_none_iff.mp hlower e₀ hmem
    exact absurd (hrank e₀ huuid hle) (not_le_of_gt hlt)
  | some e =>
    obtain ⟨he, hge, hmin⟩ := SortedMap.lowerBound_eq_some_iff.mp hlower
    -- The entry lies between the target and every stored number of the UUID that is not below.
    have hbetween : ∀ e' ∈ index.entries, (parseGTID e'.1).1 = genUUID u →
        n ≤ (parseGTID e'.1).2 →
          (parseGTID e.1).1 = genUUID u ∧ n ≤ (parseGTID e.1).2 ∧
            (parseGTID e.1).2 ≤ (parseGTID e'.1).2 := by
      intro e' he' huuid' hle'
      have h := gtidRank_between (by rw [hparse, huuid']) hge (hmin e' he' (hrank e' huuid' hle'))
      rwa [hparse] at h
    obtain ⟨huuid', hle', -⟩ := hbetween e₀ hmem huuid hle
    refine ⟨e, rfl, ?_⟩
    refine { mem := he, uuid_eq := huuid', le := hle', smallest := ?smallest }
    case smallest =>
      intro e' he' huuid'' hle''
      exact (hbetween e' he' huuid'' hle'').2.2

/-- A lookup by lower bound gives the entry that the seek reaches, if it is a place. -/
theorem getGTIDIndex_of_reached {index : EventIndex} {u : Bytes} {n : Nat} {e : Bytes × IndexValue}
    {i : EventDataInfo} (hn : n < 2 ^ 64) (hseek : seek index (genGTID (genUUID u) n) = some e)
    (hreached : Reached index (genUUID u) n e) (hinfo : e.2 = .info i) :
    getGTIDIndex index (genGTID (genUUID u) n) true = (.ok, i) := by
  rw [seek_eq_lowerBound] at hseek
  have huuid : getUUIDByGTID e.1 = getUUIDByGTID (genGTID (genUUID u) n) := by
    rw [getUUIDByGTID_eq, getUUIDByGTID_eq, parseGTID_genUUID hn, hreached.uuid_eq]
  simp only [getGTIDIndex, hseek, huuid, hinfo, and_self, or_true, if_true]

/-- GTID text is a faithful ordered key: it parses to what it was generated from, no two pairs have
the same text, both comparators order the texts by the bytes of the UUID and then by the number, and
from such a text the index is entered at the smallest stored number of the UUID that is not below.
-/
theorem gtid_text_ordered_key (u v : Bytes) (hu : u.length = 16) (hv : v.length = 16) (m n : Nat)
    (hm : m < 2 ^ 64) (hn : n < 2 ^ 64) :
    parseGTID (genGTID (genUUID u) m) = (genUUID u, m) ∧
    (genGTID (genUUID u) m = genGTID (genUUID v) n ↔ u = v ∧ m = n) ∧
    EventComparator.compare (genGTID (genUUID u) m) (genGTID (genUUID v) n) =
      orderSign (toLex (byteRank u, m)) (toLex (byteRank v, n)) ∧
    gtidCmp (genGTID (genUUID u) m) (genGTID (genUUID v) n) =
      orderSign (toLex (byteRank u, m)) (toLex (byteRank v, n)) ∧
    ∀ index : EventIndex,
      (∃ e ∈ index.entries, (parseGTID e.1).1 = genUUID u ∧ n ≤ (parseGTID e.1).2) →
        ∃ e, seek index (genGTID (genUUID u) n) = some e ∧ Reached index (genUUID u) n e ∧
          ∀ i, e.2 = .info i → getGTIDIndex index (genGTID (genUUID u) n) true = (.ok, i) := by
  refine ⟨parseGTID_genUUID hm, genGTID_genUUID_inj hu hv, ?_, ?_, ?_⟩
  · rw [EventComparator.compare_eq, orderSign_gtidRank hu hv hm hn]
  · rw [gtidCmp_eq, orderSign_gtidRank hu hv hm hn]
  · rintro index ⟨e₀, hmem, huuid, hle⟩
    obtain ⟨e, hseek, hreached⟩ := seek_reaches index u hn hmem huuid hle
    refine ⟨e, hseek, hreached, ?_⟩
    intro i hinfo
    exact getGTIDIndex_of_reached hn hseek hreached hinfo

/-- At a length boundary the number decides, not its text. -/
theorem gtid_text_ordered_key_nine_ten :
    EventComparator.compare (genGTID (genUUID (List.replicate 16 171)) 9)
        (genGTID (genUUID (List.replicate 16 171)) 10) = -1 ∧
      gtidCmp (genGTID (genUUID (List.replicate 16 171)) 9)
        (genGTID (genUUID (List.replicate 16 171)) 10) = -1 := by
  obtain ⟨-, -, hcompare, hcmp, -⟩ :=
    gtid_text_ordered_key (List.replicate 16 171) (List.replicate 16 171) rfl rfl 9 10
      (by decide) (by decide)
  rw [hcompare, hcmp]
  decide

end PhxSql.Store
