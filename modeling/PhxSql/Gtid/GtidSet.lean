import PhxSql.Gtid.GtidHandler
import Mathlib.Data.List.Pairwise

/-!
# The GTID set of a replica

A set of GTIDs is given by the intervals of the sequence numbers of each server id. A replica sends
the GTIDs it has executed in the command `COM_BINLOG_DUMP_GTID`, each interval as its first number
and the number after its last one; `parsePreviousGTIDCommand_encode` says that the decoder gives the
last GTID of every interval. In answer to a query MySQL prints the set as text, with the intervals
in order and apart.
-/

set_option autoImplicit false

namespace PhxSql.Gtid

open PhxSql.Proto PhxSql.Lib

/-! ## Sets -/

/-- The intervals of one server id, with their first and last numbers. -/
structure SidIntervals where
  sid : Bytes
  intervals : List (Nat × Nat)
  sid_length : sid.length = 16
  ordered : ∀ iv ∈ intervals, iv.1 ≤ iv.2 ∧ iv.2 + 1 < 2 ^ 64

abbrev GtidSet := List SidIntervals

def SidIntervals.uuid (e : SidIntervals) : Bytes :=
  genUUID e.sid

/-- The GTIDs of a set. -/
def GtidSet.Contains (S : GtidSet) (gtid : Bytes) : Prop :=
  ∃ e ∈ S, ∃ iv ∈ e.intervals, ∃ n, iv.1 ≤ n ∧ n ≤ iv.2 ∧ gtid = genGTID e.uuid n

/-- The text of an interval, and that of its last GTID. -/
def intervalGtids (uuid : Bytes) (iv : Nat × Nat) : Bytes × Bytes :=
  (uuid ++ colon :: decimal iv.1 ++ 45 :: decimal iv.2, genGTID uuid iv.2)

/-- Both texts for each interval, in the order of the set. -/
def GtidSet.intervalGtids (S : GtidSet) : List (Bytes × Bytes) :=
  S.flatMap fun e => e.intervals.map (Gtid.intervalGtids e.uuid)

/-- The last GTID of each interval. -/
def GtidSet.lastGtids (S : GtidSet) : List Bytes :=
  S.flatMap fun e => e.intervals.map fun iv => genGTID e.uuid iv.2

/-! ## The command -/

def encodeInterval (iv : Nat × Nat) : Bytes :=
  leBytes 8 iv.1 ++ leBytes 8 (iv.2 + 1)

def encodeSid (e : SidIntervals) : Bytes :=
  e.sid ++ (leBytes 8 e.intervals.length ++ e.intervals.flatMap encodeInterval)

def GtidSet.encode (S : GtidSet) : Bytes :=
  leBytes 8 S.length ++ S.flatMap encodeSid

/-- The payload of the command: flags and server id, a file name, a position, and the set. -/
structure DumpCommand where
  header : Bytes
  name : Bytes
  position : Bytes
  set : GtidSet
  header_length : header.length = 6
  name_length : name.length < 2 ^ 32
  position_length : position.length = 8
  set_length : set.encode.length < 2 ^ 32

def DumpCommand.encode (c : DumpCommand) : Bytes :=
  c.header ++ (leBytes 4 c.name.length ++ (c.name ++ (c.position ++
    (leBytes 4 c.set.encode.length ++ c.set.encode))))

/-- The payload up to the size of the set, with other bytes in place of the set. -/
def DumpCommand.encodeWith (c : DumpCommand) (data : Bytes) : Bytes :=
  c.header ++ (leBytes 4 c.name.length ++ (c.name ++ (c.position ++
    (leBytes 4 c.set.encode.length ++ data))))

/-! ## Decoding -/

theorem getBuffer_append {as bs cs : Bytes} {pos len : Nat} (hpos : as.length = pos)
    (hlen : bs.length = len) : getBuffer (as ++ (bs ++ cs)) pos len = leValue bs := by
  rw [getBuffer, readAt_append hpos hlen]

theorem getBuffer_leBytes {as cs : Bytes} {pos k n : Nat} (hpos : as.length = pos)
    (hn : n < 256 ^ k) : getBuffer (as ++ (leBytes k n ++ cs)) pos k = n := by
  rw [getBuffer_append hpos (length_leBytes k n), leValue_leBytes_of_lt hn]

theorem length_encodeIntervals (ivs : List (Nat × Nat)) :
    (ivs.flatMap encodeInterval).length = 16 * ivs.length := by
  induction ivs with
  | nil => rfl
  | cons iv ivs ih =>
    simp only [List.flatMap_cons, List.length_append, ih, encodeInterval, length_leBytes,
      List.length_cons]
    omega

theorem length_encodeSid (e : SidIntervals) :
    (encodeSid e).length = 24 + 16 * e.intervals.length := by
  simp only [encodeSid, List.length_append, e.sid_length, length_leBytes, length_encodeIntervals]
  omega

/-- The intervals of one server id. -/
theorem parseIntervals_encode (uuid : Bytes) (ivs : List (Nat × Nat))
    (hivs : ∀ iv ∈ ivs, iv.1 ≤ iv.2 ∧ iv.2 + 1 < 2 ^ 64) (cs : Bytes) :
    ∀ (as : Bytes),
      parseIntervals (as ++ (ivs.flatMap encodeInterval ++ cs)) uuid ivs.length as.length =
        (ivs.map (intervalGtids uuid), as.length + 16 * ivs.length) := by
  induction ivs with
  | nil =>
    intro as
    rfl
  | cons iv ivs ih =>
    intro as
    obtain ⟨hle, hlt⟩ := hivs iv List.mem_cons_self
    have htexts := ih (fun iv' hiv' => hivs iv' (List.mem_cons_of_mem _ hiv'))
      (as ++ encodeInterval iv)
    have hbuffer : as ++ ((iv :: ivs).flatMap encodeInterval ++ cs) =
        as ++ (leBytes 8 iv.1 ++ (leBytes 8 (iv.2 + 1) ++ (ivs.flatMap encodeInterval ++ cs))) := by
      simp [encodeInterval]
    have hbuffer' : as ++ encodeInterval iv ++ (ivs.flatMap encodeInterval ++ cs) =
        as ++ (leBytes 8 iv.1 ++ (leBytes 8 (iv.2 + 1) ++ (ivs.flatMap encodeInterval ++ cs))) := by
      simp [encodeInterval]
    have hfirst : getBuffer (as ++ (leBytes 8 iv.1 ++ (leBytes 8 (iv.2 + 1) ++
        (ivs.flatMap encodeInterval ++ cs)))) as.length 8 = iv.1 :=
      getBuffer_leBytes rfl (by omega)
    have hlast : getBuffer (as ++ (leBytes 8 iv.1 ++ (leBytes 8 (iv.2 + 1) ++
        (ivs.flatMap encodeInterval ++ cs)))) (as.length + 8) 8 = iv.2 + 1 := by
      rw [← List.append_assoc]
      exact getBuffer_leBytes (by simp) (by omega)
    have hnext : (as ++ encodeInterval iv).length = as.length + 16 := by
      simp [encodeInterval]
    -- The source turns the number after the last one into the last one by a decrement.
    have hmod : (iv.2 + 1 + (2 ^ 64 - 1)) % 2 ^ 64 = iv.2 := by omega
    rw [hbuffer', hnext] at htexts
    rw [hbuffer, List.length_cons, parseIntervals, htexts, hfirst, hlast, hmod]
    refine Prod.ext rfl ?_
    simp only
    omega

/-- The server ids of a set. -/
theorem parseSids_encode (S : GtidSet) :
    ∀ (as : Bytes) (len : Nat), len = (as ++ S.flatMap encodeSid).length → len < 2 ^ 32 →
      parseSids (as ++ S.flatMap encodeSid) len S.length as.length = (.ok, S.intervalGtids) := by
  induction S with
  | nil =>
    intro as len hlen _
    simp [parseSids, hlen, GtidSet.intervalGtids]
  | cons e S ih =>
    intro as len hlen hsmall
    -- `as` is what has been read; it grows by an id, first its count and then its intervals.
    have hbuffer : as ++ (e :: S : GtidSet).flatMap encodeSid =
        as ++ (e.sid ++ (leBytes 8 e.intervals.length ++
          (e.intervals.flatMap encodeInterval ++ S.flatMap encodeSid))) := by
      simp [encodeSid]
    have htotal : len = as.length + (24 + 16 * e.intervals.length) + (S.flatMap encodeSid).length := by
      rw [hlen]
      simp only [List.flatMap_cons, List.length_append, length_encodeSid]
      omega
    have huuid : readAt (as ++ (e.sid ++ (leBytes 8 e.intervals.length ++
        (e.intervals.flatMap encodeInterval ++ S.flatMap encodeSid)))) as.length 16 = e.sid :=
      readAt_append rfl e.sid_length
    have hcount : getBuffer (as ++ (e.sid ++ (leBytes 8 e.intervals.length ++
        (e.intervals.flatMap encodeInterval ++ S.flatMap encodeSid)))) (as.length + 16) 8 =
          e.intervals.length := by
      rw [← List.append_assoc]
      exact getBuffer_leBytes (by simp [e.sid_length]) (by omega)
    have htexts := parseIntervals_encode e.uuid e.intervals e.ordered
      (S.flatMap encodeSid) (as ++ (e.sid ++ leBytes 8 e.intervals.length))
    have hpos : (as ++ (e.sid ++ leBytes 8 e.intervals.length)).length = as.length + 24 := by
      simp [e.sid_length]
    have htexts' := ih (as ++ encodeSid e) len
      (by rw [hlen, List.flatMap_cons, List.append_assoc]) hsmall
    have hpos' : (as ++ encodeSid e).length = as.length + 24 + 16 * e.intervals.length := by
      rw [List.length_append, length_encodeSid]
      omega
    have hinner : ¬(as.length ≤ len ∧ len - as.length < 24) := by omega
    have hbuffer₁ : as ++ (e.sid ++ leBytes 8 e.intervals.length) ++
        (e.intervals.flatMap encodeInterval ++ S.flatMap encodeSid) =
          as ++ (e.sid ++ (leBytes 8 e.intervals.length ++
            (e.intervals.flatMap encodeInterval ++ S.flatMap encodeSid))) := by
      simp
    have hbuffer₂ : as ++ encodeSid e ++ S.flatMap encodeSid =
        as ++ (e.sid ++ (leBytes 8 e.intervals.length ++
          (e.intervals.flatMap encodeInterval ++ S.flatMap encodeSid))) := by
      simp [encodeSid]
    rw [hbuffer₁, hpos] at htexts
    rw [hbuffer₂, hpos'] at htexts'
    rw [hbuffer, List.length_cons, parseSids, if_neg hinner, huuid, hcount]
    have huuid' : genUUID e.sid = e.uuid := rfl
    simp only [huuid', htexts, htexts']
    rfl

section Command

variable (c : DumpCommand) (data : Bytes)

theorem DumpCommand.getBuffer_name : getBuffer (c.encodeWith data) 6 4 = c.name.length :=
  getBuffer_leBytes c.header_length (by have := c.name_length; omega)

theorem DumpCommand.getBuffer_size :
    getBuffer (c.encodeWith data) (10 + c.name.length + 8) 4 = c.set.encode.length := by
  have hassoc : c.encodeWith data =
      (c.header ++ (leBytes 4 c.name.length ++ (c.name ++ c.position))) ++
        (leBytes 4 c.set.encode.length ++ data) := by
    simp [DumpCommand.encodeWith]
  have hlen : (c.header ++ (leBytes 4 c.name.length ++ (c.name ++ c.position))).length =
      10 + c.name.length + 8 := by
    simp [c.header_length, c.position_length]
    omega
  rw [hassoc]
  exact getBuffer_leBytes hlen (by have := c.set_length; omega)

theorem DumpCommand.length_encodeWith :
    (c.encodeWith data).length = 10 + c.name.length + 8 + 4 + data.length := by
  simp [DumpCommand.encodeWith, c.header_length, c.position_length]
  omega

theorem DumpCommand.drop_encodeWith :
    (c.encodeWith data).drop (10 + c.name.length + 8 + 4) = data := by
  have hassoc : c.encodeWith data = (c.header ++ (leBytes 4 c.name.length ++ (c.name ++
      (c.position ++ leBytes 4 c.set.encode.length)))) ++ data := by
    simp [DumpCommand.encodeWith]
  rw [hassoc]
  apply List.drop_left'
  simp [c.header_length, c.position_length]
  omega

/-- The decoder compares the size field with the bytes after it, and then decodes these. -/
theorem parsePreviousGTIDCommand_encodeWith :
    parsePreviousGTIDCommand (c.encodeWith data) =
      if data.length ≠ c.set.encode.length then (.bufferFail, [])
      else parsePreviousGTIDEvent data c.set.encode.length := by
  simp only [parsePreviousGTIDCommand, c.getBuffer_name, c.getBuffer_size, c.length_encodeWith,
    c.drop_encodeWith, ne_eq, Nat.add_left_cancel_iff, eq_comm]

end Command

theorem length_le_length_encodeSids (S : GtidSet) :
    S.length ≤ (S.flatMap encodeSid).length := by
  induction S with
  | nil => simp
  | cons e S ih =>
    simp only [List.length_cons, List.flatMap_cons, List.length_append, length_encodeSid]
    omega

theorem parsePreviousGTIDEvent_encode {S : GtidSet} (hsmall : S.encode.length < 2 ^ 32) :
    parsePreviousGTIDEvent S.encode S.encode.length = (.ok, S.intervalGtids) := by
  have hcount : getBuffer S.encode 0 8 = S.length := by
    have hle := length_le_length_encodeSids S
    simp only [GtidSet.encode, List.length_append, length_leBytes] at hsmall
    exact @getBuffer_leBytes [] (S.flatMap encodeSid) 0 8 S.length rfl (by omega)
  have hparse := parseSids_encode S (leBytes 8 S.length) S.encode.length rfl hsmall
  rw [length_leBytes] at hparse
  rw [parsePreviousGTIDEvent, hcount]
  exact hparse

theorem GtidSet.map_intervalGtids (S : GtidSet) : S.intervalGtids.map Prod.snd = S.lastGtids := by
  simp only [GtidSet.intervalGtids, GtidSet.lastGtids, List.map_flatMap, List.map_map]
  rfl

/-- The decoder gives the last GTID of every interval of the set. -/
theorem parsePreviousGTIDCommand_encode (c : DumpCommand) :
    ∃ texts, parsePreviousGTIDCommand c.encode = (.ok, texts) ∧
      texts.map Prod.snd = c.set.lastGtids := by
  refine ⟨c.set.intervalGtids, ?_, c.set.map_intervalGtids⟩
  have hdecode := parsePreviousGTIDCommand_encodeWith c c.set.encode
  rw [if_neg (not_not.mpr rfl), parsePreviousGTIDEvent_encode c.set_length] at hdecode
  exact hdecode

/-- The decoder inverts the encoder: it gives both texts of every interval, in order. The size field
guards the set: with any other number of bytes after it the command is an error. -/
theorem decode_dumpCommand (c : DumpCommand) :
    parsePreviousGTIDCommand c.encode = (.ok, c.set.intervalGtids) ∧
      ∀ data : Bytes, data.length ≠ c.set.encode.length →
        parsePreviousGTIDCommand (c.encodeWith data) = (.bufferFail, []) := by
  constructor
  · have hdecode := parsePreviousGTIDCommand_encodeWith c c.set.encode
    rw [if_neg (not_not.mpr rfl), parsePreviousGTIDEvent_encode c.set_length] at hdecode
    exact hdecode
  · intro data hlength
    rw [parsePreviousGTIDCommand_encodeWith, if_pos hlength]

/-- A command with the numbers from 3 to 9 and 12 of one server id. -/
def sampleCommand : DumpCommand where
  header := List.replicate 6 1
  name := [98, 105, 110]
  position := List.replicate 8 0
  set := [{ sid := List.replicate 16 17, intervals := [(3, 9), (12, 12)], sid_length := rfl,
            ordered := by decide }]
  header_length := rfl
  name_length := by decide
  position_length := rfl
  set_length := by decide

theorem decode_sampleCommand :
    (parsePreviousGTIDCommand sampleCommand.encode).2 =
        [intervalGtids (genUUID (List.replicate 16 17)) (3, 9),
          intervalGtids (genUUID (List.replicate 16 17)) (12, 12)] ∧
      parsePreviousGTIDCommand (sampleCommand.encodeWith []) = (.bufferFail, []) :=
  ⟨by rw [(decode_dumpCommand sampleCommand).1]; rfl,
    (decode_dumpCommand sampleCommand).2 [] (by decide)⟩

/-! ## The text of a set -/

/-- One number, or the first and the last one with a dash between them. -/
def intervalText (iv : Nat × Nat) : Bytes :=
  if iv.1 = iv.2 then decimal iv.1 else decimal iv.1 ++ 45 :: decimal iv.2

/-- The UUID and its intervals, each after a colon. -/
def SidIntervals.text (e : SidIntervals) : Bytes :=
  e.uuid ++ e.intervals.flatMap fun iv => colon :: intervalText iv

/-- The server ids of a set, with a comma and a line end between them. -/
def GtidSet.text : GtidSet → Bytes
  | [] => []
  | e :: S => e.text ++ List.flatMap (fun e : SidIntervals => 44 :: 10 :: e.text) S

/-- The form in which MySQL keeps a set: no server id twice, and its intervals in order and apart.
-/
structure GtidSet.Normal (S : GtidSet) : Prop where
  uuids : S.Pairwise fun e e' => e.uuid ≠ e'.uuid
  nonempty : ∀ e ∈ S, e.intervals ≠ []
  apart : ∀ e ∈ S, e.intervals.Pairwise fun iv iv' => iv.2 + 1 < iv'.1

theorem GtidSet.Normal.eq_of_uuid_eq {S : GtidSet} (h : S.Normal) {e e' : SidIntervals} (he : e ∈ S)
    (he' : e' ∈ S) (huuid : e.uuid = e'.uuid) : e = e' := by
  have hsymm : Std.Symm fun e e' : SidIntervals => e.uuid ≠ e'.uuid := ⟨fun _ _ h => h.symm⟩
  by_contra hne
  exact h.uuids.forall he he' hne huuid

/-- The numbers of a server id in a set are those of its intervals. -/
theorem GtidSet.Normal.contains_iff {S : GtidSet} (h : S.Normal) {e : SidIntervals} (he : e ∈ S)
    (n : Nat) :
    S.Contains (genGTID e.uuid n) ↔ ∃ iv ∈ e.intervals, iv.1 ≤ n ∧ n ≤ iv.2 := by
  constructor
  · rintro ⟨e', he', iv, hiv, m, hfirst, hlast, hgtid⟩
    obtain ⟨huuid, rfl⟩ := genGTID_inj (colon_not_mem_genUUID _) (colon_not_mem_genUUID _) hgtid
    rw [h.eq_of_uuid_eq he he' huuid]
    exact ⟨iv, hiv, hfirst, hlast⟩
  · rintro ⟨iv, hiv, hfirst, hlast⟩
    exact ⟨e, he, iv, hiv, n, hfirst, hlast, rfl⟩

/-- Intervals that are apart and cover the numbers from 1 to `k` are one interval. -/
theorem intervals_eq_singleton {ivs : List (Nat × Nat)} {k : Nat} (hne : ivs ≠ [])
    (hle : ∀ iv ∈ ivs, iv.1 ≤ iv.2) (hapart : ivs.Pairwise fun iv iv' => iv.2 + 1 < iv'.1)
    (hcover : ∀ n, (∃ iv ∈ ivs, iv.1 ≤ n ∧ n ≤ iv.2) ↔ 1 ≤ n ∧ n ≤ k) : ivs = [(1, k)] := by
  obtain ⟨iv, rest, rfl⟩ := List.exists_cons_of_ne_nil hne
  have hiv := hle iv List.mem_cons_self
  obtain ⟨hfirst, hrest⟩ := List.pairwise_cons.mp hapart
  have hin := (hcover iv.1).mp ⟨iv, List.mem_cons_self, Nat.le_refl _, hiv⟩
  have hin' := (hcover iv.2).mp ⟨iv, List.mem_cons_self, hiv, Nat.le_refl _⟩
  have hnil : rest = [] := by
    cases rest with
    | nil => rfl
    | cons iv' rest =>
      -- The number after the first interval is covered by no interval, but a larger one is.
      have hgap := hfirst iv' List.mem_cons_self
      have hiv' := hle iv' (by simp)
      have hlarge := (hcover iv'.1).mp ⟨iv', by simp, Nat.le_refl _, hiv'⟩
      obtain ⟨iv'', hmem, hfrom, hto⟩ := (hcover (iv.2 + 1)).mpr ⟨by omega, by omega⟩
      rcases List.mem_cons.mp hmem with rfl | hmem
      · omega
      · have := hfirst iv'' hmem
        omega
  subst hnil
  obtain ⟨iv', hmem, hfrom, -⟩ := (hcover 1).mpr ⟨Nat.le_refl _, by omega⟩
  rw [List.mem_singleton.mp hmem] at hfrom
  obtain ⟨iv'', hmem', -, hto⟩ := (hcover k).mpr ⟨by omega, Nat.le_refl _⟩
  rw [List.mem_singleton.mp hmem'] at hto
  have heq : iv = (1, k) := Prod.ext (by omega) (by omega)
  rw [heq]

end PhxSql.Gtid
