import PhxSql.Lib.Transition
import PhxSql.Proto.Messages

/-!
# Writing to the destination

`IOChannel::WriteToDest` passes a buffer on with as many calls of `RoutineWriteWithTimeout` as it
takes. One call tries to write, waits with `co_poll` for the socket if it was not ready, and tries
once more; the caller adds what it returns to its position in the buffer.

The outcomes of `write` and `co_poll` are the actions of a transition system whose state is the loop
of `WriteToDest` together with the bytes that the socket has taken. `RoutineWriteWithTimeout`
returns a number of bytes in all cases but one: if `co_poll` reports `POLLHUP` or `POLLERR` without
`POLLOUT` it returns the number of descriptors, which is 1. `forwarded_bytes_iff` says that this is
the only way to lose a byte.
-/

set_option autoImplicit false

namespace PhxSql.Proxy

open PhxSql.Proto PhxSql.Lib

/-! ## System calls -/

/-- The values of `errno` that the code tells apart. -/
inductive Errno
  | eagain
  | eintr
  | other
  deriving DecidableEq, Repr

/-- What `write` does: the number of bytes that the socket has room for, none for a failure, and
`errno` afterwards. -/
structure WriteOutcome where
  room : Option Nat
  errno : Errno := .other
  deriving DecidableEq, Repr

/-- The bytes that the socket takes. -/
def WriteOutcome.accepted (w : WriteOutcome) (buf : Bytes) : Bytes :=
  buf.take (w.room.getD 0)

/-- The return value of `write`. -/
def WriteOutcome.result (w : WriteOutcome) (buf : Bytes) : Int :=
  match w.room with
  | none => -1
  | some room => (buf.take room).length

/-- The events that `co_poll` reports for a socket. -/
structure PollEvents where
  pollout : Bool := false
  pollhup : Bool := false
  pollerr : Bool := false
  deriving DecidableEq, Repr

/-- What `co_poll` does for one descriptor: it returns `-code - 1`, 0, or 1 with the events. -/
inductive PollOutcome
  | failed (code : Nat)
  | timeout
  | ready (revents : PollEvents)
  deriving DecidableEq, Repr

/-- The outcomes that one call of `RoutineWriteWithTimeout` can see. -/
structure Attempt where
  first : WriteOutcome
  poll : PollOutcome := .timeout
  second : WriteOutcome := { room := none }
  deriving DecidableEq, Repr

/-! ## The loop -/

/-- `RoutineWriteWithTimeout`: what it returns, and the bytes that the socket took. -/
def routineWriteWithTimeout (buf : Bytes) (a : Attempt) : Int × Bytes :=
  let writtenOnce := a.first.result buf
  let sent := a.first.accepted buf
  if 0 < writtenOnce then (writtenOnce, sent)
  else if a.first.errno = .other then (-100, sent)
  else
    match a.poll with
    | .failed code => (-(code : Int) - 1, sent)
    | .timeout => (0, sent)
    | .ready revents =>
      if revents.pollout then
        let writtenOnce := a.second.result buf
        let sent := sent ++ a.second.accepted buf
        if writtenOnce ≤ 0 ∧ a.second.errno ≠ .other then (0, sent) else (writtenOnce, sent)
      else if revents.pollhup then (1, sent)
      else if revents.pollerr then (1, sent)
      else (0, sent)

/-- `WriteToDest` between two iterations of its loop, with the bytes that the socket has taken and
the value that was returned. It has not returned only where the loop goes on. -/
structure WriteToDest (buf : Bytes) where
  totalWritten : Nat
  sent : Bytes
  returned : Option Int
  pending : returned = none → totalWritten < buf.length

namespace WriteToDest

variable {buf : Bytes}

/-- The loop condition with the given number of bytes. -/
def loop (buf : Bytes) (totalWritten : Nat) (sent : Bytes) : WriteToDest buf where
  totalWritten := totalWritten
  sent := sent
  returned := if totalWritten < buf.length then none else some totalWritten
  pending := by
    intro hreturned
    split at hreturned
    · assumption
    · cases hreturned

/-- One iteration of the loop of `IOChannel::WriteToDest`. -/
def iterate (s : WriteToDest buf) (a : Attempt) : WriteToDest buf :=
  let (writtenOnce, sent) := routineWriteWithTimeout (buf.drop s.totalWritten) a
  if writtenOnce < 0 then
    { totalWritten := s.totalWritten
      sent := s.sent ++ sent
      returned := some (-148)
      pending := nofun }
  else loop buf (s.totalWritten + writtenOnce.toNat) (s.sent ++ sent)

end WriteToDest

/-- The calls of `RoutineWriteWithTimeout` until `WriteToDest` returns. -/
def writeSystem (buf : Bytes) : Transition.System (WriteToDest buf) Attempt where
  init := .loop buf 0 []
  step := fun s a => if s.returned = none then some (s.iterate a) else none

/-- The socket took the bytes up to the position of the loop, and the size of the buffer is returned
only if it took all of them. -/
def WriteToDest.Exact {buf : Bytes} (s : WriteToDest buf) : Prop :=
  s.sent = buf.take s.totalWritten ∧ (s.returned = some (buf.length : Int) → s.sent = buf)

/-- The socket is not ready, and `co_poll` reports `POLLHUP` or `POLLERR` without `POLLOUT`. -/
def Attempt.HangsUp (a : Attempt) : Prop :=
  a.first.room.getD 0 = 0 ∧ a.first.errno ≠ .other ∧
    ∃ revents, a.poll = .ready revents ∧ revents.pollout = false ∧
      (revents.pollhup = true ∨ revents.pollerr = true)

/-! ## One call -/

theorem WriteOutcome.result_cases (w : WriteOutcome) (buf : Bytes) :
    (w.result buf = -1 ∧ w.accepted buf = []) ∨
    ∃ n, w.result buf = ((buf.take n).length : Int) ∧ w.accepted buf = buf.take n := by
  unfold result accepted
  cases w.room with
  | none => exact .inl ⟨rfl, rfl⟩
  | some room => exact .inr ⟨room, rfl, rfl⟩

theorem WriteOutcome.accepted_of_result_le {w : WriteOutcome} {buf : Bytes}
    (h : w.result buf ≤ 0) : w.accepted buf = [] := by
  rcases w.result_cases buf with ⟨-, hnothing⟩ | ⟨n, hresult, haccepted⟩
  · exact hnothing
  · rw [haccepted, ← List.length_eq_zero_iff]
    omega

theorem WriteOutcome.result_le_iff {w : WriteOutcome} {buf : Bytes} (hne : buf ≠ []) :
    w.result buf ≤ 0 ↔ w.room.getD 0 = 0 := by
  unfold result
  cases w.room with
  | none => simp
  | some room => simp [hne]

/-- The second `write`: it fails, or the number of bytes that the socket took is returned. -/
theorem second_write_cases (buf : Bytes) (w : WriteOutcome) :
    (if w.result buf ≤ 0 ∧ w.errno ≠ .other then (0, w.accepted buf)
      else (w.result buf, w.accepted buf)) = (-1, []) ∨
    ∃ n, (if w.result buf ≤ 0 ∧ w.errno ≠ .other then (0, w.accepted buf)
      else (w.result buf, w.accepted buf)) = (((buf.take n).length : Int), buf.take n) := by
  split
  · rename_i hagain
    refine .inr ⟨0, ?_⟩
    rw [WriteOutcome.accepted_of_result_le hagain.1]
    rfl
  · rcases w.result_cases buf with ⟨hresult, haccepted⟩ | ⟨n, hresult, haccepted⟩
    · exact .inl (by rw [hresult, haccepted])
    · exact .inr ⟨n, by rw [hresult, haccepted]⟩

theorem Attempt.hangsUp_iff {a : Attempt} (hroom : a.first.room.getD 0 = 0)
    (herrno : a.first.errno ≠ .other) {revents : PollEvents} (hpoll : a.poll = .ready revents) :
    a.HangsUp ↔ revents.pollout = false ∧ (revents.pollhup = true ∨ revents.pollerr = true) := by
  constructor
  · rintro ⟨-, -, revents', hready, hevents⟩
    rw [hpoll] at hready
    cases hready
    exact hevents
  · exact fun hevents => ⟨hroom, herrno, revents, hpoll, hevents⟩

/-- What one call does with a buffer that is not empty: it hangs up and returns 1, it fails, or it
returns the number of bytes that the socket took from the front of the buffer. -/
theorem routineWriteWithTimeout_cases {buf : Bytes} (hne : buf ≠ []) (a : Attempt) :
    (a.HangsUp ∧ routineWriteWithTimeout buf a = (1, [])) ∨
    (¬a.HangsUp ∧ ∃ code < 0, routineWriteWithTimeout buf a = (code, [])) ∨
    (¬a.HangsUp ∧ ∃ n, routineWriteWithTimeout buf a =
      (((buf.take n).length : Int), buf.take n)) := by
  by_cases hfirst : 0 < a.first.result buf
  · refine .inr (.inr ⟨?_, ?_⟩)
    · intro hangs
      have hresult := (WriteOutcome.result_le_iff hne).mpr hangs.1
      omega
    · rcases a.first.result_cases buf with ⟨hresult, -⟩ | ⟨n, hresult, haccepted⟩
      · omega
      · refine ⟨n, ?_⟩
        rw [routineWriteWithTimeout, if_pos hfirst, hresult, haccepted]
  have hnothing := WriteOutcome.accepted_of_result_le (Int.not_lt.mp hfirst)
  by_cases herrno : a.first.errno = .other
  · refine .inr (.inl ⟨fun hangs => hangs.2.1 herrno, -100, by decide, ?_⟩)
    rw [routineWriteWithTimeout, if_neg hfirst, if_pos herrno, hnothing]
  have hroom := (WriteOutcome.result_le_iff hne).mp (Int.not_lt.mp hfirst)
  -- The socket is not ready, and what is returned depends on `co_poll`.
  rw [routineWriteWithTimeout, if_neg hfirst, if_neg herrno, hnothing]
  cases hpoll : a.poll with
  | failed code =>
    refine .inr (.inl ⟨?_, -(code : Int) - 1, by omega, rfl⟩)
    rintro ⟨-, -, revents, hready, -⟩
    cases hpoll ▸ hready
  | timeout =>
    refine .inr (.inr ⟨?_, 0, rfl⟩)
    rintro ⟨-, -, revents, hready, -⟩
    cases hpoll ▸ hready
  | ready revents =>
    rw [Attempt.hangsUp_iff hroom herrno hpoll]
    obtain ⟨pollout, pollhup, pollerr⟩ := revents
    cases pollout with
    | true =>
      simp only [List.nil_append, if_true, Bool.true_eq_false, false_and, not_false_iff, true_and]
      exact .inr ((second_write_cases buf a.second).imp (fun hfailed => ⟨-1, by decide, hfailed⟩) id)
    | false =>
      cases pollhup with
      | true => exact .inl ⟨⟨rfl, .inl rfl⟩, rfl⟩
      | false =>
        cases pollerr with
        | true => exact .inl ⟨⟨rfl, .inr rfl⟩, rfl⟩
        | false => exact .inr (.inr ⟨by simp, 0, rfl⟩)

/-! ## Whole runs -/

variable {buf : Bytes}

theorem WriteToDest.exact_loop {totalWritten : Nat} {sent : Bytes}
    (hsent : sent = buf.take totalWritten) : (loop buf totalWritten sent).Exact := by
  refine ⟨hsent, ?_⟩
  intro hreturned
  simp only [loop] at hreturned ⊢
  split at hreturned
  · cases hreturned
  · rw [hsent]
    apply List.take_of_length_le
    omega

/-- An iteration keeps the bytes exact if and only if it does not hang up. -/
theorem WriteToDest.exact_iterate_iff {s : WriteToDest buf} {a : Attempt} (hexact : s.Exact)
    (hpending : s.returned = none) : (s.iterate a).Exact ↔ ¬a.HangsUp := by
  have hlt := s.pending hpending
  have hne : buf.drop s.totalWritten ≠ [] := by
    rw [Ne, List.drop_eq_nil_iff]
    omega
  unfold iterate
  rcases routineWriteWithTimeout_cases hne a with ⟨hangs, hcall⟩ | ⟨hangs, code, hcode, hcall⟩ |
      ⟨hangs, n, hcall⟩
  · -- The position moves on by one, the bytes of the socket stay.
    rw [hcall]
    refine iff_of_false ?_ (not_not.mpr hangs)
    rintro ⟨hsent, -⟩
    have hlength := congrArg List.length hsent
    simp [loop, hexact.1] at hlength
    omega
  · rw [hcall]
    refine iff_of_true ?_ hangs
    simp only [hcode, if_true, List.append_nil]
    refine ⟨hexact.1, ?_⟩
    intro hreturned
    simp at hreturned
  · -- The position moves on by the number of bytes that the socket took.
    rw [hcall]
    refine iff_of_true ?_ hangs
    simp only [Int.natCast_nonneg, Int.not_lt.mpr, if_false, Int.toNat_natCast]
    apply exact_loop
    rw [hexact.1, List.take_add, List.length_take]
    congr 1
    exact List.take_eq_take_min

/-- In a run of `WriteToDest` over any outcomes of `write` and `co_poll` the socket has, after every
iteration, taken exactly the bytes up to the position of the loop, and the size of the buffer is
returned only after it took all bytes, if and only if no call finds the socket not ready and is told
`POLLHUP` or `POLLERR` without `POLLOUT`. -/
theorem forwarded_bytes_iff (buf : Bytes) (attempts : List Attempt) (last : WriteToDest buf)
    (hrun : Transition.run (writeSystem buf) (writeSystem buf).init attempts = some last) :
    Transition.AlongRun (writeSystem buf) WriteToDest.Exact (writeSystem buf).init attempts ↔
      ∀ a ∈ attempts, ¬a.HangsUp := by
  have hinit : (writeSystem buf).init.Exact := WriteToDest.exact_loop rfl
  have hiterate : ∀ (s : WriteToDest buf) (a : Attempt) (s' : WriteToDest buf), s.Exact →
      (writeSystem buf).step s a = some s' → (s'.Exact ↔ ¬a.HangsUp) := by
    intro s a s' hexact hstep
    simp only [writeSystem, Option.ite_none_right_eq_some, Option.some.injEq] at hstep
    obtain ⟨hpending, rfl⟩ := hstep
    exact WriteToDest.exact_iterate_iff hexact hpending
  rw [Transition.alongRun_iff_stepsMeet hiterate attempts hinit hrun]
  exact Transition.stepsMeet_action_iff attempts hrun

/-- One byte is written at once and the rest after the socket was full. -/
def fullSocket : List Attempt :=
  [{ first := { room := some 1 } },
    { first := { room := none, errno := .eagain }, poll := .timeout },
    { first := { room := none, errno := .eagain }, poll := .ready { pollout := true, pollhup := true }
      second := { room := some 16 } }]

theorem forwarded_bytes_fullSocket :
    Transition.AlongRun (writeSystem [1, 2, 3]) WriteToDest.Exact (writeSystem [1, 2, 3]).init
        fullSocket ∧
      (Transition.run (writeSystem [1, 2, 3]) (writeSystem [1, 2, 3]).init fullSocket).map
        (fun s => (s.sent, s.returned)) = some ([1, 2, 3], some 3) := by
  have hend : (Transition.run (writeSystem [1, 2, 3]) (writeSystem [1, 2, 3]).init fullSocket).map
      (fun s => (s.sent, s.returned)) = some ([1, 2, 3], some 3) := by decide +kernel
  obtain ⟨last, hrun, -⟩ := Option.map_eq_some_iff.mp hend
  refine ⟨(forwarded_bytes_iff [1, 2, 3] fullSocket last hrun).mpr ?_, hend⟩
  simp [fullSocket, Attempt.HangsUp]

/-- The socket is full when `POLLHUP` is reported, and then takes all it is given. -/
def hungUpSocket : List Attempt :=
  [{ first := { room := none, errno := .eagain }, poll := .ready { pollhup := true } },
    { first := { room := some 16 } }]

/-- Of three bytes the first one is skipped, and 3 is returned. -/
theorem skipped_byte_hungUpSocket :
    (Transition.run (writeSystem [1, 2, 3]) (writeSystem [1, 2, 3]).init hungUpSocket).map
        (fun s => (s.totalWritten, s.sent, s.returned)) = some (3, [2, 3], some 3) ∧
      ¬Transition.AlongRun (writeSystem [1, 2, 3]) WriteToDest.Exact
        (writeSystem [1, 2, 3]).init hungUpSocket := by
  refine ⟨by decide +kernel, ?_⟩
  intro halong
  have hfirst := (halong.2 _ rfl).head
  apply (WriteToDest.exact_iterate_iff halong.head rfl).mp hfirst
  exact ⟨rfl, by decide, { pollhup := true }, rfl, rfl, .inl rfl⟩

end PhxSql.Proxy
