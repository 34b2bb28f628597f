import PhxSql.Lib.Bytes

/-!
# Length-prefixed records

A record is stored as its length in eight bytes, lowest first, followed by its bytes. `readFrame`
reads one record at the start of a byte string and gives none where the length or the record is cut
off, or where the length is above a limit. Records written one after another are read back one after
another (`readFrame_frame`), and a cut-off record is not read (`readFrame_torn`). The first bytes of
a file of records hold the records that lie wholly in them and nothing more that can be read
(`take_frames`).
-/

set_option autoImplicit false

namespace PhxSql.Lib

/-- A record as it is stored. -/
def frame (p : List UInt8) : List UInt8 :=
  leBytes 8 p.length ++ p

/-- Records stored one after another. -/
def frames (ps : List (List UInt8)) : List UInt8 :=
  ps.flatMap frame

/-- The record at the start of a byte string. -/
def readFrame (limit : ℕ) (bs : List UInt8) : Option (List UInt8) :=
  let len := leValue (bs.take 8)
  if bs.length < 8 then none
  else if limit < len then none
  else if bs.length < 8 + len then none
  else some ((bs.drop 8).take len)

@[simp] theorem length_frame (p : List UInt8) : (frame p).length = 8 + p.length := by
  simp [frame]

@[simp] theorem frames_nil : frames [] = [] := rfl

@[simp] theorem frames_cons (p : List UInt8) (ps : List (List UInt8)) :
    frames (p :: ps) = frame p ++ frames ps := rfl

@[simp] theorem frames_append (ps qs : List (List UInt8)) :
    frames (ps ++ qs) = frames ps ++ frames qs := by
  simp [frames]

@[simp] theorem readFrame_nil (limit : ℕ) : readFrame limit [] = none := rfl

/-- The length field of a record. -/
theorem leValue_take_frame {p : List UInt8} (hp : p.length < 256 ^ 8) (rest : List UInt8) :
    leValue ((frame p ++ rest).take 8) = p.length := by
  have htake : (frame p ++ rest).take 8 = leBytes 8 p.length := by
    rw [frame, List.append_assoc]
    exact List.take_left' (length_leBytes 8 p.length)
  rw [htake, leValue_leBytes_of_lt hp]

/-- A whole record is read. -/
theorem readFrame_frame {limit : ℕ} {p : List UInt8} (hp : p.length ≤ limit)
    (hlimit : limit < 256 ^ 8) (rest : List UInt8) :
    readFrame limit (frame p ++ rest) = some p := by
  have hlen := leValue_take_frame (Nat.lt_of_le_of_lt hp hlimit) rest
  have hdrop : (frame p ++ rest).drop 8 = p ++ rest := by
    rw [frame, List.append_assoc]
    exact List.drop_left' (length_leBytes 8 p.length)
  have hlong : ¬ (frame p ++ rest).length < 8 + p.length := by
    rw [List.length_append, length_frame]
    omega
  have height : ¬ (frame p ++ rest).length < 8 := by
    rw [List.length_append, length_frame]
    omega
  simp only [readFrame, hlen, height, Nat.not_lt.mpr hp, hlong, if_false, hdrop]
  simp

/-- A record that is cut off is not read. -/
theorem readFrame_torn {limit : ℕ} {p bs : List UInt8} (hp : p.length < 256 ^ 8)
    (hbs : bs <+: frame p) (hcut : bs.length < (frame p).length) : readFrame limit bs = none := by
  obtain ⟨t, ht⟩ := hbs
  unfold readFrame
  by_cases h8 : bs.length < 8
  · simp [h8]
  · have htake : bs.take 8 = (frame p).take 8 := by
      rw [← ht, List.take_append_of_le_length (Nat.not_lt.mp h8)]
    have hlen : leValue (bs.take 8) = p.length := by
      have h := leValue_take_frame hp []
      rwa [List.append_nil, ← htake] at h
    rw [length_frame] at hcut
    simp only [hlen, h8, if_false, hcut, if_true]
    split <;> rfl

/-- The records that lie wholly in the first `n` bytes of records stored one after another. -/
def whole : List (List UInt8) → ℕ → List (List UInt8)
  | [], _ => []
  | p :: ps, n => if (frame p).length ≤ n then p :: whole ps (n - (frame p).length) else []

theorem exists_eq_whole_append (ps : List (List UInt8)) (n : ℕ) :
    ∃ rest, ps = whole ps n ++ rest := by
  induction ps generalizing n with
  | nil => exact ⟨[], rfl⟩
  | cons p ps ih =>
    unfold whole
    split
    · obtain ⟨rest, hrest⟩ := ih (n - (frame p).length)
      exact ⟨rest, congrArg (p :: ·) hrest⟩
    · exact ⟨p :: ps, rfl⟩

/-- The first bytes of a file of records are the records that lie wholly in them and a part of the
next one that is not read. -/
theorem take_frames {limit : ℕ} (hlimit : limit < 256 ^ 8) {ps : List (List UInt8)}
    (hps : ∀ p ∈ ps, p.length ≤ limit) (n : ℕ) :
    ∃ tail, (frames ps).take n = frames (whole ps n) ++ tail ∧ readFrame limit tail = none := by
  induction ps generalizing n with
  | nil => exact ⟨[], by simp [whole], readFrame_nil limit⟩
  | cons p ps ih =>
    rw [frames_cons, whole]
    by_cases hn : (frame p).length ≤ n
    · obtain ⟨tail, htail, hnone⟩ := ih (fun q hq => hps q (List.mem_cons_of_mem p hq))
        (n - (frame p).length)
      refine ⟨tail, ?_, hnone⟩
      rw [if_pos hn, frames_cons, List.take_append, List.take_of_length_le hn, htail,
        List.append_assoc]
    · -- The cut is inside the first record.
      have hcut : n < (frame p).length := Nat.lt_of_not_le hn
      refine ⟨(frame p).take n, ?_, ?_⟩
      · rw [if_neg hn, frames_nil, List.nil_append, List.take_append_of_le_length hcut.le]
      · have hpart := List.take_prefix n (frame p)
        apply readFrame_torn (Nat.lt_of_le_of_lt (hps p List.mem_cons_self) hlimit) hpart
        rw [List.length_take]
        omega

end PhxSql.Lib
