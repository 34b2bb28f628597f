import Mathlib.Data.List.Induction
import Mathlib.Tactic.Linarith
import PhxSql.Proto.Messages

/-!
# Token buckets

A `FreqCtrlBucket` holds the read tokens and the write tokens of a database. Time is cut into
windows of `period` seconds, and the first call that finds itself in another window than the last
one fills both buckets. The time is a parameter of every call; the code reads it as a 32-bit number.

`quota_enforced` is about every sequence of calls at times that do not go back: in a window no more
calls of a kind succeed than there are tokens, a call fails only when they are used up, and the
calls of one kind are answered as if the others were not made. It asks that the 32-bit clock tells
the windows of the run apart, which it does before it overflows (`clockSeparates_of_lt`).
-/

set_option autoImplicit false

namespace PhxSql.Proxy

open PhxSql.Proto

/-! ## The bucket -/

/-- Which of the two buckets a call is about. -/
inductive TokenKind
  | read
  | write
  deriving DecidableEq, Repr

/-- `DBToken_t`; the period is used as an unsigned number. -/
structure DBToken where
  readToken : Int := 0
  writeToken : Int := 0
  period : Nat := 0
  deriving DecidableEq, Repr

def DBToken.quota (token : DBToken) : TokenKind → Int
  | .read => token.readToken
  | .write => token.writeToken

/-- `DBBucket_t`. -/
structure DBBucket where
  readBucket : Int := 0
  writeBucket : Int := 0
  lastRefillTime : Nat := 0
  deriving DecidableEq, Repr

structure FreqCtrlBucket where
  dbToken : DBToken := {}
  dbBucket : DBBucket := {}
  deriving DecidableEq, Repr

/-- The start of the window of a time, from its low 32 bits. -/
def refillTime (period now : Nat) : Nat :=
  now % 2 ^ 32 - now % 2 ^ 32 % period

namespace FreqCtrlBucket

def bucket (b : FreqCtrlBucket) : TokenKind → Int
  | .read => b.dbBucket.readBucket
  | .write => b.dbBucket.writeBucket

/-- `FreqCtrlBucket::Refill`. -/
def refill (b : FreqCtrlBucket) (now : Nat) : FreqCtrlBucket :=
  { b with
    dbBucket :=
      { readBucket := b.dbToken.readToken
        writeBucket := b.dbToken.writeToken
        lastRefillTime := refillTime b.dbToken.period now } }

/-- `FreqCtrlBucket::Sedb_token`. -/
def sedbToken (b : FreqCtrlBucket) (token : DBToken) (now : Nat) : FreqCtrlBucket :=
  { b with dbToken := token }.refill now

/-- The first lines of `ApplyToken` and `HasToken`. -/
def refillIfNew (b : FreqCtrlBucket) (now : Nat) : FreqCtrlBucket :=
  if b.dbBucket.lastRefillTime ≠ refillTime b.dbToken.period now then b.refill now else b

/-- The subtraction of `ApplyToken` from the bucket that its pointer leads to. -/
def take (b : FreqCtrlBucket) (count : Int) : TokenKind → FreqCtrlBucket
  | .read => { b with dbBucket := { b.dbBucket with readBucket := b.dbBucket.readBucket - count } }
  | .write =>
    { b with dbBucket := { b.dbBucket with writeBucket := b.dbBucket.writeBucket - count } }

/-- `FreqCtrlBucket::ApplyToken`. -/
def applyToken (b : FreqCtrlBucket) (now : Nat) (kind : TokenKind) (count : Int) :
    Bool × FreqCtrlBucket :=
  let b := b.refillIfNew now
  if count ≤ b.bucket kind then (true, b.take count kind) else (false, b)

/-- `FreqCtrlBucket::ApplyReadToken`. -/
def applyReadToken (b : FreqCtrlBucket) (now : Nat) (count : Int) : Bool × FreqCtrlBucket :=
  b.applyToken now .read count

/-- `FreqCtrlBucket::ApplyWriteToken`. -/
def applyWriteToken (b : FreqCtrlBucket) (now : Nat) (count : Int) : Bool × FreqCtrlBucket :=
  b.applyToken now .write count

/-- `FreqCtrlBucket::HasToken`. -/
def hasToken (b : FreqCtrlBucket) (now : Nat) (kind : TokenKind) : Bool × FreqCtrlBucket :=
  let b := b.refillIfNew now
  (decide (0 < b.bucket kind), b)

/-- `FreqCtrlBucket::HasReadToken`. -/
def hasReadToken (b : FreqCtrlBucket) (now : Nat) : Bool × FreqCtrlBucket :=
  b.hasToken now .read

/-- `FreqCtrlBucket::HasWriteToken`. -/
def hasWriteToken (b : FreqCtrlBucket) (now : Nat) : Bool × FreqCtrlBucket :=
  b.hasToken now .write

end FreqCtrlBucket

/-! ## Runs -/

/-- A call at a time: `apply` takes a token, without it the call only asks for one. -/
structure Call where
  time : Nat
  kind : TokenKind
  apply : Bool
  deriving DecidableEq, Repr

/-- The four functions a call can be, with the count 1. -/
def FreqCtrlBucket.call (b : FreqCtrlBucket) (c : Call) : Bool × FreqCtrlBucket :=
  match c.kind, c.apply with
  | .read, true => b.applyReadToken c.time 1
  | .write, true => b.applyWriteToken c.time 1
  | .read, false => b.hasReadToken c.time
  | .write, false => b.hasWriteToken c.time

/-- Makes a call and notes its answer. -/
def recordCall (st : List (Call × Bool) × FreqCtrlBucket) (c : Call) :
    List (Call × Bool) × FreqCtrlBucket :=
  (st.1 ++ [(c, (st.2.call c).1)], (st.2.call c).2)

/-- The calls with their answers and the bucket after them, from a bucket that was given its tokens
at the time `start`. -/
def runCalls (token : DBToken) (start : Nat) (calls : List Call) :
    List (Call × Bool) × FreqCtrlBucket :=
  calls.foldl recordCall ([], ({} : FreqCtrlBucket).sedbToken token start)

/-- How many calls of a kind have taken a token in the `k`-th window. -/
def used (period : Nat) (kind : TokenKind) (k : Nat) (trace : List (Call × Bool)) : Nat :=
  trace.countP fun e => e.1.apply && e.2 && decide (e.1.kind = kind ∧ e.1.time / period = k)

/-- The 32-bit clock tells the windows of some times apart. -/
def ClockSeparates (period : Nat) (times : List Nat) : Prop :=
  ∀ t ∈ times, ∀ t' ∈ times, refillTime period t = refillTime period t' ↔ t / period = t' / period

/-- A configuration and calls: a period, quotas that are not negative, and times that do not go
back, whose windows the clock tells apart. -/
structure CallRun (token : DBToken) (start : Nat) (calls : List Call) : Prop where
  period_pos : 1 ≤ token.period
  quota_nonneg : ∀ kind, 0 ≤ token.quota kind
  ordered : (start :: calls.map Call.time).Pairwise (· ≤ ·)
  separates : ClockSeparates token.period (start :: calls.map Call.time)

/-- What the buckets are for. -/
structure QuotaEnforced (token : DBToken) (start : Nat) (calls : List Call) : Prop where
  bound : ∀ kind k, (used token.period kind k (runCalls token start calls).1 : Int) ≤
    token.quota kind
  exhausted : ∀ before e after, (runCalls token start calls).1 = before ++ e :: after →
    e.2 = false →
      token.quota e.1.kind ≤ used token.period e.1.kind (e.1.time / token.period) before
  independent : ∀ kind,
    (runCalls token start calls).1.filter (fun e => decide (e.1.kind = kind)) =
      (runCalls token start (calls.filter fun c => decide (c.kind = kind))).1
  bucket_bounds : ∀ kind, 0 ≤ (runCalls token start calls).2.bucket kind ∧
    (runCalls token start calls).2.bucket kind ≤ token.quota kind

/-! ## One call -/

namespace FreqCtrlBucket

theorem lastRefillTime_refillIfNew (b : FreqCtrlBucket) (now : Nat) :
    (b.refillIfNew now).dbBucket.lastRefillTime = refillTime b.dbToken.period now := by
  unfold refillIfNew
  split
  · rfl
  · rename_i hsame
    exact not_not.mp hsame

theorem dbToken_refillIfNew (b : FreqCtrlBucket) (now : Nat) :
    (b.refillIfNew now).dbToken = b.dbToken := by
  unfold refillIfNew
  split
  · rfl
  · rfl

theorem bucket_refill (b : FreqCtrlBucket) (now : Nat) (kind : TokenKind) :
    (b.refill now).bucket kind = b.dbToken.quota kind := by
  cases kind with
  | read => rfl
  | write => rfl

theorem bucket_refillIfNew (b : FreqCtrlBucket) (now : Nat) (kind : TokenKind) :
    (b.refillIfNew now).bucket kind =
      if b.dbBucket.lastRefillTime = refillTime b.dbToken.period now then b.bucket kind
      else b.dbToken.quota kind := by
  by_cases hsame : b.dbBucket.lastRefillTime = refillTime b.dbToken.period now
  · rw [if_pos hsame, refillIfNew, if_neg (not_not.mpr hsame)]
  · rw [if_neg hsame, refillIfNew, if_pos hsame, bucket_refill]

theorem bucket_take (b : FreqCtrlBucket) (count : Int) (kind kind' : TokenKind) :
    (b.take count kind).bucket kind' = b.bucket kind' - if kind = kind' then count else 0 := by
  cases kind with
  | read => cases kind' <;> simp [take, bucket]
  | write => cases kind' <;> simp [take, bucket]

theorem call_eq (b : FreqCtrlBucket) (c : Call) :
    b.call c = if c.apply then b.applyToken c.time c.kind 1 else b.hasToken c.time c.kind := by
  obtain ⟨time, kind, apply⟩ := c
  cases kind <;> cases apply <;> rfl

theorem applyToken_one (b : FreqCtrlBucket) (now : Nat) (kind : TokenKind) :
    b.applyToken now kind 1 =
      if 0 < (b.refillIfNew now).bucket kind then (true, (b.refillIfNew now).take 1 kind)
      else (false, b.refillIfNew now) :=
  if_congr (by omega) rfl rfl

/-- A call is answered by the bucket of its kind, after the refill. -/
theorem fst_call (b : FreqCtrlBucket) (c : Call) :
    (b.call c).1 = decide (0 < (b.refillIfNew c.time).bucket c.kind) := by
  rw [call_eq, applyToken_one]
  cases c.apply with
  | true =>
    by_cases hpos : 0 < (b.refillIfNew c.time).bucket c.kind
    · simp [hpos]
    · simp [hpos]
  | false => rfl

/-- A call that takes a token takes it from the bucket of its kind. -/
theorem bucket_call (b : FreqCtrlBucket) (c : Call) (kind : TokenKind) :
    (b.call c).2.bucket kind = (b.refillIfNew c.time).bucket kind -
      if (c.apply && (b.call c).1 && decide (c.kind = kind)) = true then 1 else 0 := by
  rw [fst_call, call_eq, applyToken_one]
  by_cases hpos : 0 < (b.refillIfNew c.time).bucket c.kind
  · cases happly : c.apply with
    | true => simp [hpos, bucket_take]
    | false => simp [hasToken]
  · simp [hasToken, hpos]

theorem call_unchanged (b : FreqCtrlBucket) (c : Call) :
    (b.call c).2.dbToken = b.dbToken ∧
      (b.call c).2.dbBucket.lastRefillTime = refillTime b.dbToken.period c.time := by
  have htoken := b.dbToken_refillIfNew c.time
  have hlast := b.lastRefillTime_refillIfNew c.time
  rw [call_eq, applyToken_one]
  split
  · split
    · cases c.kind with
      | read => exact ⟨htoken, hlast⟩
      | write => exact ⟨htoken, hlast⟩
    · exact ⟨htoken, hlast⟩
  · exact ⟨htoken, hlast⟩

end FreqCtrlBucket

/-! ## Whole runs -/

/-- The time of the last call. -/
def lastTime (start : Nat) (calls : List Call) : Nat :=
  (calls.getLast?.map Call.time).getD start

@[simp] theorem lastTime_concat (start : Nat) (calls : List Call) (c : Call) :
    lastTime start (calls ++ [c]) = c.time := by
  simp [lastTime]

theorem lastTime_mem (start : Nat) (calls : List Call) :
    lastTime start calls ∈ start :: calls.map Call.time := by
  rcases List.eq_nil_or_concat' calls with rfl | ⟨calls, c, rfl⟩
  · simp [lastTime]
  · simp

theorem runCalls_concat (token : DBToken) (start : Nat) (calls : List Call) (c : Call) :
    runCalls token start (calls ++ [c]) = recordCall (runCalls token start calls) c := by
  rw [runCalls, List.foldl_append]
  rfl

theorem used_concat (period : Nat) (kind : TokenKind) (k : Nat) (trace : List (Call × Bool))
    (e : Call × Bool) :
    used period kind k (trace ++ [e]) = used period kind k trace +
      if (e.1.apply && e.2 && decide (e.1.kind = kind ∧ e.1.time / period = k)) = true then 1
      else 0 := by
  rw [used, List.countP_append, List.countP_singleton]
  rfl

namespace CallRun

variable {token : DBToken} {start : Nat} {calls : List Call} {c : Call}

/-- Some of the calls of a run are a run. -/
theorem sublist {some : List Call} (hrun : CallRun token start calls) (hsome : some.Sublist calls) :
    CallRun token start some where
  period_pos := hrun.period_pos
  quota_nonneg := hrun.quota_nonneg
  ordered := hrun.ordered.sublist ((hsome.map Call.time).cons_cons start)
  separates := by
    have hsub := ((hsome.map Call.time).cons_cons start).subset
    intro t ht t' ht'
    exact hrun.separates t (hsub ht) t' (hsub ht')

theorem init (hrun : CallRun token start (calls ++ [c])) : CallRun token start calls :=
  hrun.sublist (List.sublist_append_left calls [c])

theorem lastTime_le (hrun : CallRun token start (calls ++ [c])) : lastTime start calls ≤ c.time := by
  have hordered := hrun.ordered
  rw [List.map_append, ← List.cons_append] at hordered
  exact (List.pairwise_append.mp hordered).2.2 _ (lastTime_mem start calls) _ (by simp)

theorem separates_last (hrun : CallRun token start (calls ++ [c])) :
    refillTime token.period (lastTime start calls) = refillTime token.period c.time ↔
      lastTime start calls / token.period = c.time / token.period := by
  have hmem := lastTime_mem start calls
  refine hrun.separates _ ?_ _ (by simp)
  rw [List.map_append, ← List.cons_append]
  exact List.mem_append_left _ hmem

end CallRun

/-- The bucket of a kind holds what is left of the quota in the window of the last call. -/
structure Counted (token : DBToken) (last : Nat) (trace : List (Call × Bool)) (b : FreqCtrlBucket) :
    Prop where
  token_eq : b.dbToken = token
  refilled : b.dbBucket.lastRefillTime = refillTime token.period last
  left : ∀ kind, b.bucket kind = token.quota kind - used token.period kind (last / token.period) trace
  times : ∀ e ∈ trace, e.1.time ≤ last
  bound : ∀ kind k, (used token.period kind k trace : Int) ≤ token.quota kind

/-- Nothing is used yet in a window after that of the last call. -/
theorem used_eq_zero {period : Nat} {kind : TokenKind} {last k : Nat} {trace : List (Call × Bool)}
    (htimes : ∀ e ∈ trace, e.1.time ≤ last) (hnew : last / period < k) :
    used period kind k trace = 0 := by
  rw [used, List.countP_eq_zero]
  intro e he heq
  have hle := Nat.div_le_div_right (c := period) (htimes e he)
  simp only [Bool.and_eq_true, decide_eq_true_eq] at heq
  omega

/-- The refill of a call leaves the bucket with what is left of the quota in the window of the
call. -/
theorem Counted.bucket_refillIfNew {token : DBToken} {last : Nat} {trace : List (Call × Bool)}
    {b : FreqCtrlBucket} (hcount : Counted token last trace b) {time : Nat} (hle : last ≤ time)
    (hseparates : refillTime token.period last = refillTime token.period time ↔
      last / token.period = time / token.period) (kind : TokenKind) :
    (b.refillIfNew time).bucket kind =
      token.quota kind - used token.period kind (time / token.period) trace := by
  rw [FreqCtrlBucket.bucket_refillIfNew, hcount.token_eq, hcount.refilled]
  by_cases hsame : last / token.period = time / token.period
  · rw [if_pos (hseparates.mpr hsame), hcount.left, hsame]
  · -- A new window: the bucket is full, and nothing is used.
    have hnew : last / token.period < time / token.period :=
      lt_of_le_of_ne (Nat.div_le_div_right hle) hsame
    rw [if_neg (mt hseparates.mp hsame), used_eq_zero hcount.times hnew]
    simp

/-- One call keeps the count. -/
theorem Counted.call {token : DBToken} {last : Nat} {trace : List (Call × Bool)}
    {b : FreqCtrlBucket} (hcount : Counted token last trace b) {c : Call} (hle : last ≤ c.time)
    (hseparates : refillTime token.period last = refillTime token.period c.time ↔
      last / token.period = c.time / token.period) :
    Counted token c.time (trace ++ [(c, (b.call c).1)]) (b.call c).2 := by
  obtain ⟨htoken, hrefilled⟩ := b.call_unchanged c
  have hbucket := hcount.bucket_refillIfNew hle hseparates
  refine
    { token_eq := htoken.trans hcount.token_eq
      refilled := ?refilled
      left := ?left
      times := ?times
      bound := ?bound }
  case refilled => rw [hrefilled, hcount.token_eq]
  case left =>
    intro kind
    rw [b.bucket_call c kind, hbucket, used_concat]
    by_cases hkind : c.kind = kind
    · simp only [hkind, and_self, decide_true, Bool.and_true]
      split
      · push_cast
        omega
      · simp
    · simp [hkind]
  case times =>
    intro e he
    rcases List.mem_append.mp he with he | he
    · exact (hcount.times e he).trans hle
    · rw [List.mem_singleton.mp he]
  case bound =>
    intro kind k
    have hbound := hcount.bound kind k
    rw [used_concat]
    split
    · -- The call has taken a token, so there was one left.
      rename_i htaken
      simp only [Bool.and_eq_true, decide_eq_true_eq] at htaken
      obtain ⟨⟨-, hok⟩, rfl, rfl⟩ := htaken
      rw [b.fst_call c, decide_eq_true_eq, hbucket] at hok
      push_cast
      omega
    · simpa using hbound

theorem counted_runCalls {token : DBToken} {start : Nat} {calls : List Call}
    (hrun : CallRun token start calls) :
    Counted token (lastTime start calls) (runCalls token start calls).1
      (runCalls token start calls).2 := by
  induction calls using List.reverseRecOn with
  | nil =>
    refine { token_eq := rfl, refilled := rfl, left := ?left, times := ?times, bound := ?bound }
    case left =>
      intro kind
      cases kind <;> simp [runCalls, used, FreqCtrlBucket.sedbToken, FreqCtrlBucket.refill,
        FreqCtrlBucket.bucket, DBToken.quota]
    case times => simp [runCalls]
    case bound =>
      intro kind k
      simpa [runCalls, used] using hrun.quota_nonneg kind
  | append_singleton calls c ih =>
    rw [runCalls_concat, lastTime_concat]
    exact (ih hrun.init).call hrun.lastTime_le hrun.separates_last

/-- A call is answered by what the calls of its kind have used in its window. -/
theorem fst_call_runCalls {token : DBToken} {start : Nat} {calls : List Call} {c : Call}
    (hrun : CallRun token start (calls ++ [c])) :
    ((runCalls token start calls).2.call c).1 =
      decide ((used token.period c.kind (c.time / token.period) (runCalls token start calls).1 :
        Int) < token.quota c.kind) := by
  rw [FreqCtrlBucket.fst_call, (counted_runCalls hrun.init).bucket_refillIfNew hrun.lastTime_le
    hrun.separates_last, decide_eq_decide]
  exact Int.sub_pos

theorem used_filter (period : Nat) (kind : TokenKind) (k : Nat) (trace : List (Call × Bool)) :
    used period kind k (trace.filter fun e => decide (e.1.kind = kind)) =
      used period kind k trace := by
  rw [used, used, List.countP_filter]
  apply List.countP_congr
  intro e _
  simp only [Bool.and_eq_true, decide_eq_true_eq]
  tauto

/-- The calls of a kind are answered as if the others were not made. -/
theorem filter_runCalls {token : DBToken} {start : Nat} {calls : List Call}
    (hrun : CallRun token start calls) (kind : TokenKind) :
    (runCalls token start calls).1.filter (fun e => decide (e.1.kind = kind)) =
      (runCalls token start (calls.filter fun c => decide (c.kind = kind))).1 := by
  induction calls using List.reverseRecOn with
  | nil => rfl
  | append_singleton calls c ih =>
    have ih := ih hrun.init
    rw [runCalls_concat, recordCall, List.filter_append, ih, List.filter_append]
    -- The answer depends on the uses of its own kind only, and these are the same in both runs.
    by_cases hkind : c.kind = kind
    · have hfilter : [c].filter (fun c => decide (c.kind = kind)) = [c] := by simp [hkind]
      have hsome : CallRun token start
          (calls.filter (fun c => decide (c.kind = kind)) ++ [c]) := by
        rw [← hfilter, ← List.filter_append]
        exact hrun.sublist List.filter_sublist
      rw [hfilter, runCalls_concat, recordCall, fst_call_runCalls hrun, fst_call_runCalls hsome,
        ← ih, hkind, used_filter]
      simp [hkind]
    · simp [hkind]

/-- A call that is refused finds the quota of its window used up. -/
theorem exhausted_runCalls {token : DBToken} {start : Nat} {calls : List Call}
    (hrun : CallRun token start calls) :
    ∀ before e after, (runCalls token start calls).1 = before ++ e :: after → e.2 = false →
      token.quota e.1.kind ≤ used token.period e.1.kind (e.1.time / token.period) before := by
  induction calls using List.reverseRecOn with
  | nil =>
    intro before e after heq
    simp [runCalls] at heq
  | append_singleton calls c ih =>
    intro before e after heq hfailed
    rw [runCalls_concat, recordCall] at heq
    rcases List.eq_nil_or_concat' after with rfl | ⟨after, last, rfl⟩
    · -- The refused call is the last one.
      obtain ⟨rfl, hlast⟩ := List.append_inj' heq rfl
      obtain rfl := List.singleton_inj.mp hlast
      rw [fst_call_runCalls hrun, decide_eq_false_iff_not] at hfailed
      exact not_lt.mp hfailed
    · rw [← List.cons_append, ← List.append_assoc] at heq
      exact ih hrun.init before e after (List.append_inj' heq rfl).1 hfailed

/-- Token buckets enforce the quota per window. -/
theorem quota_enforced (token : DBToken) (start : Nat) (calls : List Call)
    (hrun : CallRun token start calls) : QuotaEnforced token start calls where
  bound := (counted_runCalls hrun).bound
  exhausted := exhausted_runCalls hrun
  independent := filter_runCalls hrun
  bucket_bounds := by
    intro kind
    have hcount := counted_runCalls hrun
    have hbound := hcount.bound kind (lastTime start calls / token.period)
    rw [hcount.left kind]
    omega

/-- Before it overflows the clock tells all windows apart. -/
theorem clockSeparates_of_lt {period : Nat} (hperiod : 1 ≤ period) {times : List Nat}
    (htimes : ∀ t ∈ times, t < 2 ^ 32) : ClockSeparates period times := by
  have hstart : ∀ t ∈ times, refillTime period t = period * (t / period) := by
    intro t ht
    have hdiv := Nat.div_add_mod t period
    rw [refillTime, Nat.mod_eq_of_lt (htimes t ht)]
    omega
  intro t ht t' ht'
  rw [hstart t ht, hstart t' ht']
  exact Nat.mul_right_inj (by omega)

/-- Two read tokens and a write token a minute, with three reads at the end of a minute. -/
def minuteCalls : List Call :=
  [⟨58, .read, true⟩, ⟨59, .read, true⟩, ⟨59, .read, true⟩, ⟨59, .write, true⟩, ⟨60, .write, false⟩,
    ⟨61, .read, true⟩]

theorem quota_enforced_minute : QuotaEnforced ⟨2, 1, 60⟩ 0 minuteCalls := by
  refine quota_enforced ⟨2, 1, 60⟩ 0 minuteCalls
    { period_pos := by decide, quota_nonneg := ?quota, ordered := by decide, separates := ?separates }
  case quota =>
    intro kind
    cases kind <;> decide
  case separates => exact clockSeparates_of_lt (by decide) (by decide)

/-- When the 32-bit clock overflows in the middle of a minute, the quota of the minute is given
twice; and a call exactly `2 ^ 32` seconds later is taken for one in the same window. -/
theorem quota_clock_overflow :
    (2 ^ 32 - 1) / 60 = 2 ^ 32 / 60 ∧
    used 60 .read (2 ^ 32 / 60)
      (runCalls ⟨1, 1, 60⟩ (2 ^ 32 - 1) [⟨2 ^ 32 - 1, .read, true⟩, ⟨2 ^ 32, .read, true⟩]).1 = 2 ∧
    5 / 64 ≠ (2 ^ 32 + 5) / 64 ∧
    (runCalls ⟨1, 1, 64⟩ 5 [⟨5, .read, true⟩, ⟨2 ^ 32 + 5, .read, true⟩]).1 =
      [(⟨5, .read, true⟩, true), (⟨2 ^ 32 + 5, .read, true⟩, false)] := by
  decide +kernel

end PhxSql.Proxy
