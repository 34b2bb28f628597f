import PhxSql.Gtid.GtidHandler

/-!
# GTID text as an ordered key

`GTIDCmp` parses two GTIDs and compares their UUIDs as texts and their numbers as numbers. The text
`GenUUID` makes of 16 bytes is ordered as the bytes are: every byte becomes two digits whose codes
are in the order of their values, and the dashes stand at the same places. With the number in
decimal and parsed again, canonical GTIDs are compared by the pair of the UUID's bytes and the
number (`gtidRank_lt_iff`), and no two of them have the same text (`genGTID_genUUID_inj`).
-/

set_option autoImplicit false

namespace PhxSql.Gtid

open PhxSql.Proto PhxSql.Lib

/-- `GtidHandler::GTIDCmp`. -/
def gtidCmp (gtid1 gtid2 : Bytes) : Int :=
  let res1 := parseGTID gtid1
  let res2 := parseGTID gtid2
  if res1 = res2 then 0
  -- This is `operator<` of `std::pair`.
  else if byteRank res1.1 < byteRank res2.1 ∨
      (¬byteRank res2.1 < byteRank res1.1 ∧ res1.2 < res2.2) then -1
  else 1

/-- The number by which a C++ comparator reports an order. -/
def orderSign {α : Type*} [LinearOrder α] (a b : α) : Int :=
  if a < b then -1 else if b < a then 1 else 0

theorem orderSign_eq {α : Type*} [LinearOrder α] (a b : α) :
    orderSign a b = if a = b then 0 else if a < b then -1 else 1 := by
  unfold orderSign
  rcases lt_trichotomy a b with h | rfl | h
  · simp [h, h.ne]
  · simp
  · simp [h, h.asymm, h.ne']

/-- GTIDs of one UUID are compared by their numbers, others by their UUIDs. -/
theorem orderSign_gtidRank_eq (g g' : Bytes) :
    orderSign (gtidRank g) (gtidRank g') =
      if (parseGTID g).1 = (parseGTID g').1 then orderSign (parseGTID g).2 (parseGTID g').2
      else orderSign (byteRank (parseGTID g).1) (byteRank (parseGTID g').1) := by
  simp only [orderSign, gtidRank, Prod.Lex.toLex_lt_toLex, byteRank_inj]
  by_cases heq : (parseGTID g).1 = (parseGTID g').1
  · simp [heq]
  · have hne : byteRank (parseGTID g).1 ≠ byteRank (parseGTID g').1 := mt byteRank_inj.mp heq
    rcases lt_or_gt_of_ne hne with hlt | hgt
    · simp [heq, hlt]
    · simp [heq, hgt, hgt.asymm]

/-- `GTIDCmp` compares by `gtidRank`. -/
theorem gtidCmp_eq (g g' : Bytes) : gtidCmp g g' = orderSign (gtidRank g) (gtidRank g') := by
  rw [orderSign_gtidRank_eq, orderSign_eq, orderSign_eq]
  simp only [gtidCmp, Prod.ext_iff, byteRank_inj]
  by_cases heq : (parseGTID g).1 = (parseGTID g').1
  · simp [heq]
  · have hne : byteRank (parseGTID g).1 ≠ byteRank (parseGTID g').1 := mt byteRank_inj.mp heq
    rcases lt_or_gt_of_ne hne with hlt | hgt
    · simp [heq, hlt]
    · simp [heq, hgt, hgt.asymm]

/-! ## The order of UUID texts -/

theorem byteToHex_lt_iff {m n : Nat} (hm : m < 16) (hn : n < 16) :
    (byteToHex m).toNat < (byteToHex n).toNat ↔ m < n := by
  have hall : ∀ m < 16, ∀ n < 16, (byteToHex m).toNat < (byteToHex n).toNat ↔ m < n := by decide
  exact hall m hm n hn

theorem byteToHex_inj {m n : Nat} (hm : m < 16) (hn : n < 16) :
    (byteToHex m).toNat = (byteToHex n).toNat ↔ m = n :=
  eq_iff_of_lt_iff (byteToHex_lt_iff hm hn) (byteToHex_lt_iff hn hm)

/-- The two digits of a byte are compared as the byte is. -/
theorem hexPair_lt_iff (b c : UInt8) :
    byteRank (hexPair b) < byteRank (hexPair c) ↔ b.toNat < c.toNat := by
  have hb : b.toNat < 256 := b.toNat_lt
  have hc : c.toNat < 256 := c.toNat_lt
  have hhigh := byteToHex_lt_iff (m := b.toNat / 16) (n := c.toNat / 16) (by omega) (by omega)
  have hsame := byteToHex_inj (m := b.toNat / 16) (n := c.toNat / 16) (by omega) (by omega)
  have hlow := byteToHex_lt_iff (m := b.toNat % 16) (n := c.toNat % 16) (by omega) (by omega)
  simp only [byteRank, hexPair, List.map_cons, List.map_nil, List.cons_lt_cons_iff, hhigh, hsame,
    hlow, lt_self_iff_false, and_false, or_false]
  omega

theorem hexPair_eq_iff (b c : UInt8) :
    byteRank (hexPair b) = byteRank (hexPair c) ↔ b.toNat = c.toNat :=
  eq_iff_of_lt_iff (hexPair_lt_iff b c) (hexPair_lt_iff c b)

@[simp] theorem length_flatMap_hexPair (bs : Bytes) :
    (bs.flatMap hexPair).length = 2 * bs.length := by
  induction bs with
  | nil => rfl
  | cons b bs ih =>
    rw [List.flatMap_cons, List.length_append, ih, List.length_cons]
    simp [hexPair]
    omega

theorem flatMap_hexPair_lt_iff {bs cs : Bytes} (h : bs.length = cs.length) :
    byteRank (bs.flatMap hexPair) < byteRank (cs.flatMap hexPair) ↔ byteRank bs < byteRank cs := by
  induction bs generalizing cs with
  | nil =>
    rw [List.eq_nil_of_length_eq_zero h.symm]
    rfl
  | cons b bs ih =>
    cases cs with
    | nil => cases h
    | cons c cs =>
      rw [List.flatMap_cons, List.flatMap_cons, byteRank_append, byteRank_append,
        append_lt_append_iff _ _ (by simp [hexPair]), hexPair_lt_iff, hexPair_eq_iff,
        ih (Nat.succ.inj h)]
      exact List.cons_lt_cons_iff.symm

/-- Texts with dashes at the same places are compared as their bytes are. -/
theorem genSections_lt_iff (ns : List Nat) {bs cs : Bytes} (hbs : bs.length = ns.sum)
    (hcs : cs.length = ns.sum) :
    byteRank (genSections ns bs) < byteRank (genSections ns cs) ↔ byteRank bs < byteRank cs := by
  induction ns generalizing bs cs with
  | nil =>
    rw [List.eq_nil_of_length_eq_zero hbs, List.eq_nil_of_length_eq_zero hcs]
    simp
  | cons n ns ih =>
    rw [List.sum_cons] at hbs hcs
    have hlen : (bs.take n).length = (cs.take n).length := by
      simp only [List.length_take]
      omega
    have hrest := @ih (bs.drop n) (cs.drop n) (by rw [List.length_drop]; omega)
      (by rw [List.length_drop]; omega)
    have hfirst := flatMap_hexPair_lt_iff hlen
    have hsame := eq_iff_of_lt_iff hfirst (flatMap_hexPair_lt_iff hlen.symm)
    have hbytes : byteRank bs < byteRank cs ↔
        byteRank (bs.take n) ++ byteRank (bs.drop n) <
          byteRank (cs.take n) ++ byteRank (cs.drop n) := by
      rw [← byteRank_append, ← byteRank_append, List.take_append_drop, List.take_append_drop]
    have hpairs : (byteRank ((bs.take n).flatMap hexPair)).length =
        (byteRank ((cs.take n).flatMap hexPair)).length := by
      rw [length_byteRank, length_byteRank, length_flatMap_hexPair, length_flatMap_hexPair, hlen]
    have htext : ∀ x : Bytes, byteRank (genSections (n :: ns) x) =
        45 :: (byteRank ((x.take n).flatMap hexPair) ++ byteRank (genSections ns (x.drop n))) := by
      intro x
      rw [genSections, List.cons_append, ← byteRank_append]
      rfl
    rw [hbytes, htext, htext, List.cons_lt_cons_self, append_lt_append_iff _ _ hpairs,
      append_lt_append_iff _ _ (by simpa using hlen), hfirst, hsame, hrest]

/-- UUID texts are ordered as the bytes of the UUIDs. -/
theorem genUUID_lt_iff {u v : Bytes} (hu : u.length = 16) (hv : v.length = 16) :
    byteRank (genUUID u) < byteRank (genUUID v) ↔ byteRank u < byteRank v := by
  have hsections := @genSections_lt_iff bytesPerSection u v hu hv
  have htext : ∀ x : Bytes,
      byteRank (genSections bytesPerSection x) = 45 :: byteRank (genUUID x) := by
    intro x
    rw [genUUID, bytesPerSection, genSections, List.cons_append, List.tail_cons]
    rfl
  rw [htext, htext, List.cons_lt_cons_self] at hsections
  exact hsections

theorem genUUID_inj {u v : Bytes} (hu : u.length = 16) (hv : v.length = 16) :
    genUUID u = genUUID v ↔ u = v := by
  rw [← byteRank_inj, ← byteRank_inj (a := u)]
  exact eq_iff_of_lt_iff (genUUID_lt_iff hu hv) (genUUID_lt_iff hv hu)

/-! ## The order of GTIDs -/

section Canonical

variable {u v : Bytes} (hu : u.length = 16) (hv : v.length = 16) {m n : Nat} (hm : m < 2 ^ 64)
  (hn : n < 2 ^ 64)

include hu hv

theorem genGTID_genUUID_inj :
    genGTID (genUUID u) m = genGTID (genUUID v) n ↔ u = v ∧ m = n := by
  constructor
  · intro heq
    obtain ⟨huuid, hnumber⟩ :=
      genGTID_inj (colon_not_mem_genUUID u) (colon_not_mem_genUUID v) heq
    exact ⟨(genUUID_inj hu hv).mp huuid, hnumber⟩
  · rintro ⟨rfl, rfl⟩
    rfl

include hm hn

/-- Canonical GTIDs are ordered by the bytes of the UUID and then by the number. -/
theorem gtidRank_lt_iff :
    gtidRank (genGTID (genUUID u) m) < gtidRank (genGTID (genUUID v) n) ↔
      toLex (byteRank u, m) < toLex (byteRank v, n) := by
  rw [gtidRank, gtidRank, parseGTID_genUUID hm, parseGTID_genUUID hn, Prod.Lex.toLex_lt_toLex,
    Prod.Lex.toLex_lt_toLex]
  simp only [genUUID_lt_iff hu hv, byteRank_inj, genUUID_inj hu hv]

theorem orderSign_gtidRank :
    orderSign (gtidRank (genGTID (genUUID u) m)) (gtidRank (genGTID (genUUID v) n)) =
      orderSign (toLex (byteRank u, m)) (toLex (byteRank v, n)) := by
  simp only [orderSign, gtidRank_lt_iff hu hv hm hn, gtidRank_lt_iff hv hu hn hm]

end Canonical

end PhxSql.Gtid
