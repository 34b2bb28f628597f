import PhxSql.Lib.Reads
import PhxSql.Proxy.IORoutine
import Mathlib.Data.List.TakeWhile

/-!
# The bytes of a client

`TransMsgDirect` looks into each buffer of a client before it passes it on: for the database in the
first one, for a `COM_INIT_DB` in the others, and `CanExecute` prints the text of a request that it
refuses. The offsets come from the buffer: names that end with a zero byte, a length of up to 64
bits, and the 24-bit length of a packet.

For each of these functions its reads of the buffer and the strings it makes from it are listed, up
to the first that leaves the buffer. `client_buffer_inside_iff` says for which buffers and
connections none does.
-/

set_option autoImplicit false

namespace PhxSql.Proxy

open PhxSql.Proto PhxSql.Lib

/-! ## Reads and strings -/

/-- What a function does with a buffer: its reads, and the strings it makes, each with the offset of
its first byte and its length, which is of type `size_t`. -/
structure Access where
  reads : List (Nat × Nat) := []
  strings : List (Nat × Nat) := []
  deriving DecidableEq, Repr

def Access.append (a a' : Access) : Access :=
  ⟨a.reads ++ a'.reads, a.strings ++ a'.strings⟩

/-- All bytes that are read are in the first `n`, and no string is longer than `n`. -/
def Access.InBuffer (n : Nat) (a : Access) : Prop :=
  Inside n a.reads ∧ Inside n a.strings ∧ ∀ s ∈ a.strings, s.2 ≤ n

instance (n : Nat) (a : Access) : Decidable (a.InBuffer n) :=
  inferInstanceAs (Decidable (_ ∧ _))

theorem inBuffer_append {n : Nat} {a a' : Access} :
    (a.append a').InBuffer n ↔ a.InBuffer n ∧ a'.InBuffer n := by
  simp only [Access.append, Access.InBuffer, inside_append, List.forall_mem_append]
  constructor
  · rintro ⟨⟨h₁, h₂⟩, ⟨h₃, h₄⟩, h₅, h₆⟩
    exact ⟨⟨h₁, h₃, h₅⟩, h₂, h₄, h₆⟩
  · rintro ⟨⟨h₁, h₃, h₅⟩, h₂, h₄, h₆⟩
    exact ⟨⟨h₁, h₂⟩, ⟨h₃, h₄⟩, h₅, h₆⟩

theorem inBuffer_empty (n : Nat) : Access.InBuffer n {} :=
  ⟨inside_nil n, inside_nil n, fun _ h => absurd h List.not_mem_nil⟩

theorem inBuffer_reads {n : Nat} {reads : List (Nat × Nat)} :
    Access.InBuffer n ⟨reads, []⟩ ↔ Inside n reads :=
  ⟨fun h => h.1, fun h => ⟨h, inside_nil n, fun _ hs => absurd hs List.not_mem_nil⟩⟩

/-- One string. -/
theorem inBuffer_string {n offset len : Nat} (hoffset : offset ≤ n) :
    Access.InBuffer n ⟨[], [(offset, len)]⟩ ↔ offset + len ≤ n := by
  constructor
  · rintro ⟨-, hinside, -⟩
    rcases Nat.eq_zero_or_pos len with rfl | hlen
    · exact hoffset
    · exact ((inside_cons hlen).mp hinside).1
  · intro hend
    refine ⟨inside_nil n, ?_, ?_⟩
    · intro r hr i _ hi
      rw [List.mem_singleton.mp hr] at hi
      exact Nat.lt_of_lt_of_le hi hend
    · intro s hs
      rw [List.mem_singleton.mp hs]
      exact Nat.le_trans (Nat.le_add_left _ _) hend

/-! ## The functions -/

/-- `DecodedLengthBinary` at an offset of the buffer. -/
def decodedLengthReads (buf : Bytes) (offset : Nat) : List (Nat × Nat) :=
  let field := fun size : Nat =>
    if buf.length - offset < size + 1 then [] else [(offset + 1, size)]
  (offset, 1) ::
    match (buf.drop offset).headD 0 with
    | 252 => field 2
    | 253 => field 3
    | 254 => field 8
    | _ => []

/-- `IOChannel::GetDBNameFromAuthBuf`. -/
def authAccess (buf : Bytes) : Access :=
  if buf.length < 36 then {}
  else if connectsWithDB buf = false then { reads := [(4, 4)] }
  else
    let reads := (4, 4) :: (36, strlenAt buf 36 + 1) :: decodedLengthReads buf (authOffset buf)
    match decodedLengthBinary (buf.drop (authOffset buf)) with
    | none => { reads := reads }
    | some (len, size) =>
      -- `len` comes from the client and is added without a comparison.
      let offset := (authOffset buf + (size + len)) % 2 ^ 64
      { reads := reads ++ [(offset, strlenAt buf offset + 1)]
        strings := if strlenAt buf offset ≠ 0 then [(offset, strlenAt buf offset)] else [] }

/-- `IOChannel::GetDBNameFromReqBuf`. -/
def reqAccess (buf : Bytes) : Access :=
  if buf.length ≤ 5 then {}
  else if buf.getD 4 0 ≠ 2 then { reads := [(4, 1)] }
  else
    -- The length of the packet less one; for an empty packet it is the largest `size_t`.
    { reads := [(4, 1), (0, 3)]
      strings := [(5, (leValue (buf.take 3) + (2 ^ 64 - 1)) % 2 ^ 64)] }

section Channel

variable (cfg : ProxyConfig) (filter : Bool → Bytes → Bytes → Bool) (now : Nat)
  (c : GroupStatusCache) (kind : PortKind)

/-- `CanExecute` refuses the buffer at its end, where it prints the text of the request. Without a
cached master it returns before, and so does the slave channel that is connected to the master. -/
def refusesWithText (ch : IOChannel) (buf : Bytes) : Bool :=
  match c.getMaster cfg now with
  | none => false
  | some masterIp =>
    match kind with
    | .master => !canExecute cfg filter now c .master ch buf
    | .slave =>
      if cfg.masterEnableReadPort = false ∧ masterIp = ch.connectDest then false
      else !canExecute cfg filter now c .slave ch buf

/-- `MasterIOChannel::CanExecute` and `SlaveIOChannel::CanExecute`. -/
def canExecuteAccess (ch : IOChannel) (buf : Bytes) : Access :=
  if refusesWithText cfg filter now c kind ch buf then
    -- The text behind the header and the command byte, `size - 5` bytes of it.
    { strings := [(5, (buf.length + (2 ^ 64 - 5)) % 2 ^ 64)] }
  else {}

/-- What `IOChannel::TransMsgDirect` does with a buffer of the client before it writes it. -/
def clientBufferAccess (ch : IOChannel) (buf : Bytes) : Access :=
  (if ch.isAuthed then reqAccess buf else authAccess buf).append
    (match namedChannel ch buf with
      | none => {}
      | some named => canExecuteAccess cfg filter now c kind named buf)

end Channel

/-- The database of the first buffer is the string that is made, if one is. -/
theorem getDBNameFromAuthBuf_eq (buf dbName : Bytes) :
    getDBNameFromAuthBuf buf dbName =
      match (authAccess buf).strings with
      | [] => dbName
      | s :: _ => (buf.drop s.1).take s.2 := by
  unfold getDBNameFromAuthBuf authAccess
  split
  · rfl
  · split
    · rfl
    · cases decodedLengthBinary (buf.drop (authOffset buf)) with
      | none => rfl
      | some field =>
        simp only
        split
        · rfl
        · rfl

/-! ## When they stay inside -/

/-- A name at an offset ends inside the buffer if there is a zero byte. -/
theorem strlenAt_inside (buf : Bytes) (offset : Nat) :
    offset + (strlenAt buf offset + 1) ≤ buf.length ↔ 0 ∈ buf.drop offset := by
  have hlen : (buf.drop offset).length = buf.length - offset := List.length_drop
  constructor
  · intro hend
    by_contra hmem
    have hall : (buf.drop offset).takeWhile (fun b => decide (b ≠ 0)) = buf.drop offset := by
      rw [List.takeWhile_eq_self_iff]
      intro b hb
      rw [decide_eq_true_eq]
      rintro rfl
      exact hmem hb
    rw [strlenAt, hall, hlen] at hend
    omega
  · intro hmem
    have hlt : strlenAt buf offset < (buf.drop offset).length := by
      have hpart : (buf.drop offset).takeWhile (fun b => decide (b ≠ 0)) <+: buf.drop offset :=
        List.takeWhile_prefix _
      rcases Nat.lt_or_eq_of_le hpart.length_le with hlt | heq
      · exact hlt
      · have hall := List.takeWhile_eq_self_iff.mp (hpart.eq_of_length heq)
        exact absurd (hall 0 hmem) (by decide)
    omega

/-- The user name ends inside, the authorisation data begins inside, and where its length is read,
it leads to a name that ends inside. -/
def AuthFits (buf : Bytes) : Prop :=
  36 ≤ buf.length → connectsWithDB buf = true →
    0 ∈ buf.drop 36 ∧ authOffset buf < buf.length ∧
      ∀ len size, decodedLengthBinary (buf.drop (authOffset buf)) = some (len, size) →
        0 ∈ buf.drop ((authOffset buf + (size + len)) % 2 ^ 64)

/-- The packet of a `COM_INIT_DB` is not empty and ends inside. -/
def ReqFits (buf : Bytes) : Prop :=
  5 < buf.length → buf.getD 4 0 = 2 →
    1 ≤ leValue (buf.take 3) ∧ 4 + leValue (buf.take 3) ≤ buf.length

theorem inside_decodedLengthReads (buf : Bytes) (offset : Nat) :
    Inside buf.length (decodedLengthReads buf offset) ↔ offset < buf.length := by
  have hfield : ∀ size, offset < buf.length →
      Inside buf.length (if buf.length - offset < size + 1 then [] else [(offset + 1, size)]) := by
    intro size hoffset
    split
    · exact inside_nil _
    · intro r hr i _ hi
      rw [List.mem_singleton.mp hr] at hi
      simp only at hi
      omega
  rw [decodedLengthReads, inside_cons Nat.one_pos]
  constructor
  · rintro ⟨hend, -⟩
    exact hend
  · intro hoffset
    refine ⟨hoffset, ?_⟩
    split
    · exact hfield 2 hoffset
    · exact hfield 3 hoffset
    · exact hfield 8 hoffset
    · exact inside_nil _

theorem authAccess_inBuffer_iff (buf : Bytes) :
    (authAccess buf).InBuffer buf.length ↔ AuthFits buf := by
  unfold authAccess AuthFits
  by_cases hshort : buf.length < 36
  · rw [if_pos hshort]
    exact iff_of_true (inBuffer_empty _) fun h => absurd h (by omega)
  · rw [if_neg hshort, forall_prop_of_true (Nat.le_of_not_lt hshort)]
    have hproperty : 4 + 4 ≤ buf.length := by omega
    cases hflag : connectsWithDB buf with
    | false =>
      refine iff_of_true (inBuffer_reads.mpr ?_) fun h => by cases h
      exact (inside_cons (by omega)).mpr ⟨hproperty, inside_nil _⟩
    | true =>
      rw [if_neg (by simp), forall_prop_of_true rfl]
      have hhead : Inside buf.length ((4, 4) :: (36, strlenAt buf 36 + 1) ::
          decodedLengthReads buf (authOffset buf)) ↔
            0 ∈ buf.drop 36 ∧ authOffset buf < buf.length := by
        rw [inside_cons (by omega), inside_cons (by omega), strlenAt_inside,
          inside_decodedLengthReads]
        exact and_iff_right hproperty
      cases hfield : decodedLengthBinary (buf.drop (authOffset buf)) with
      | none =>
        rw [inBuffer_reads, hhead]
        constructor
        · rintro ⟨huser, hauth⟩
          exact ⟨huser, hauth, fun len size h => by cases h⟩
        · rintro ⟨huser, hauth, -⟩
          exact ⟨huser, hauth⟩
      | some field =>
        obtain ⟨len, size⟩ := field
        simp only [Option.some.injEq, Prod.mk.injEq, and_imp]
        generalize hoffset : (authOffset buf + (size + len)) % 2 ^ 64 = offset
        constructor
        · rintro ⟨hreads, -⟩
          rw [inside_append, hhead, inside_cons (by omega), strlenAt_inside] at hreads
          refine ⟨hreads.1.1, hreads.1.2, ?_⟩
          rintro _ _ rfl rfl
          rw [hoffset]
          exact hreads.2.1
        · rintro ⟨huser, hauth, hname⟩
          have hname := hname len size rfl rfl
          rw [hoffset] at hname
          have hend := (strlenAt_inside buf offset).mpr hname
          refine ⟨?_, ?_⟩
          · rw [inside_append, hhead, inside_cons (by omega)]
            exact ⟨⟨huser, hauth⟩, hend, inside_nil _⟩
          · -- The string is shorter than the read that has found its end.
            split
            · have hstring := (inBuffer_string (show offset ≤ buf.length by omega)).mpr
                (show offset + strlenAt buf offset ≤ buf.length by omega)
              exact hstring.2
            · exact (inBuffer_empty _).2

theorem reqAccess_inBuffer_iff {buf : Bytes} (hmax : buf.length ≤ 16384) :
    (reqAccess buf).InBuffer buf.length ↔ ReqFits buf := by
  unfold reqAccess ReqFits
  by_cases hshort : buf.length ≤ 5
  · rw [if_pos hshort]
    exact iff_of_true (inBuffer_empty _) fun h => absurd h (by omega)
  · rw [if_neg hshort, forall_prop_of_true (Nat.lt_of_not_le hshort)]
    by_cases hcmd : buf.getD 4 0 = 2
    · rw [if_neg (not_not.mpr hcmd), forall_prop_of_true hcmd]
      have hreads : Inside buf.length [(4, 1), (0, 3)] :=
        (inside_cons (by omega)).mpr ⟨by omega, (inside_cons (by omega)).mpr
          ⟨by omega, inside_nil _⟩⟩
      have hstring := @inBuffer_string buf.length 5
        ((leValue (buf.take 3) + (2 ^ 64 - 1)) % 2 ^ 64) (by omega)
      have hlen : leValue (buf.take 3) < 2 ^ 24 := by
        have hlt := leValue_lt (buf.take 3)
        have htake : (buf.take 3).length = 3 := by
          rw [List.length_take]
          omega
        rw [htake] at hlt
        omega
      -- A length of zero wraps around to a string that does not end in the buffer.
      constructor
      · rintro ⟨-, hinside, hshorter⟩
        have hend := hstring.mp ⟨inside_nil _, hinside, hshorter⟩
        omega
      · rintro ⟨hpos, hend⟩
        exact ⟨hreads, (hstring.mpr (by omega)).2⟩
    · rw [if_pos hcmd]
      refine iff_of_true (inBuffer_reads.mpr ?_) fun h => absurd h hcmd
      exact (inside_cons (by omega)).mpr ⟨by omega, inside_nil _⟩

section Channel

variable (cfg : ProxyConfig) (filter : Bool → Bytes → Bytes → Bool) (now : Nat)
  (c : GroupStatusCache) (kind : PortKind) (ch : IOChannel)

theorem canExecuteAccess_inBuffer_iff {buf : Bytes} (hmax : buf.length ≤ 16384) :
    (canExecuteAccess cfg filter now c kind ch buf).InBuffer buf.length ↔
      (refusesWithText cfg filter now c kind ch buf = true → 5 ≤ buf.length) := by
  unfold canExecuteAccess
  by_cases hrefuses : refusesWithText cfg filter now c kind ch buf = true
  · rw [if_pos hrefuses, forall_prop_of_true hrefuses]
    by_cases hlen : 5 ≤ buf.length
    · refine iff_of_true ((inBuffer_string hlen).mpr ?_) hlen
      omega
    · refine iff_of_false ?_ hlen
      rintro ⟨-, -, hshorter⟩
      have hle := hshorter _ List.mem_cons_self
      simp only at hle
      omega
  · rw [if_neg hrefuses]
    exact iff_of_true (inBuffer_empty _) fun h => absurd h hrefuses

/-- In every state of a connection and of the cache, the reads and strings that a buffer of the
client leads to stay inside it exactly if its names and lengths do, and it has five bytes if its
text is printed. -/
theorem client_buffer_inside_iff {buf : Bytes} (hmax : buf.length ≤ 16384) :
    (clientBufferAccess cfg filter now c kind ch buf).InBuffer buf.length ↔
      (ch.isAuthed = false → AuthFits buf) ∧ (ch.isAuthed = true → ReqFits buf) ∧
        ∀ named, namedChannel ch buf = some named →
          refusesWithText cfg filter now c kind named buf = true → 5 ≤ buf.length := by
  have hexecute : (match namedChannel ch buf with
      | none => {}
      | some named => canExecuteAccess cfg filter now c kind named buf : Access).InBuffer
        buf.length ↔ ∀ named, namedChannel ch buf = some named →
          refusesWithText cfg filter now c kind named buf = true → 5 ≤ buf.length := by
    cases namedChannel ch buf with
    | none => exact iff_of_true (inBuffer_empty _) fun _ h => by cases h
    | some named =>
      simp only [Option.some.injEq, forall_eq']
      exact canExecuteAccess_inBuffer_iff cfg filter now c kind named hmax
  rw [clientBufferAccess, inBuffer_append, hexecute, ← and_assoc]
  apply and_congr_left
  intro _
  cases ch.isAuthed with
  | false =>
    rw [if_neg (by simp), authAccess_inBuffer_iff]
    exact ⟨fun h => ⟨fun _ => h, fun h => (by cases h)⟩, fun h => h.1 rfl⟩
  | true =>
    rw [if_pos rfl, reqAccess_inBuffer_iff hmax]
    exact ⟨fun h => ⟨fun h => (by cases h), fun _ => h⟩, fun h => h.2 rfl⟩

end Channel

/-! ## Buffers on either side -/

/-- The master is `2`. -/
def fixedMaster : ProxyConfig :=
  { svrIp := [49], svrPort := 54321, mysqlPort := 11111, specifiedMasterIP := [50] }

/-- A connection to `3`, which is not the master. -/
def staleChannel (isAuthed : Bool) : IOChannel :=
  { connectDest := [51], connectPort := 54323, isAuthed := isAuthed }

/-- A `COM_INIT_DB` for the database `ab`. -/
def initDB : Bytes :=
  [3, 0, 0, 0, 2, 97, 98]

theorem client_buffer_inside_initDB :
    (clientBufferAccess fixedMaster (fun _ _ _ => true) 0 {} .master (staleChannel true)
      initDB).InBuffer initDB.length := by
  apply (client_buffer_inside_iff fixedMaster (fun _ _ _ => true) 0 {} .master (staleChannel true)
    (show initDB.length ≤ 16384 by decide)).mpr
  refine ⟨fun h => ?_, fun _ _ _ => by decide +kernel, fun _ _ _ => by decide⟩
  cases h

/-- The first buffer of a client that names a database, with the given bytes behind the fixed ones.
-/
def authBuffer (rest : Bytes) : Bytes :=
  [0, 0, 0, 1, 8, 0, 0, 0] ++ List.replicate 28 0 ++ rest

/-- First buffers whose user name has no end, that end with the user name, and whose authorisation
data is said to have 250 bytes or `2 ^ 40`; a `COM_INIT_DB` with an empty packet and one whose
packet goes on in the next buffer; and a buffer of one byte on a connection to a former master. -/
theorem client_buffer_leaves :
    (∀ rest ∈ ([[117], [117, 0], [117, 0, 250, 1], [0, 254, 0, 0, 0, 0, 0, 1, 0, 0, 97, 0]] :
        List Bytes),
      ¬ (clientBufferAccess fixedMaster (fun _ _ _ => true) 0 {} .slave (staleChannel false)
        (authBuffer rest)).InBuffer (authBuffer rest).length) ∧
    (∀ buf ∈ ([[0, 0, 0, 0, 2, 97], [200, 0, 0, 0, 2, 97]] : List Bytes),
      ¬ (clientBufferAccess fixedMaster (fun _ _ _ => true) 0 {} .slave (staleChannel true)
        buf).InBuffer buf.length) ∧
    ¬ (clientBufferAccess fixedMaster (fun _ _ _ => true) 0 {} .master (staleChannel true)
      [1]).InBuffer 1 := by
  decide +kernel

end PhxSql.Proxy
