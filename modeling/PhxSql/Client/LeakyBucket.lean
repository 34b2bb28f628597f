import PhxSql.Lib.Bytes
import PhxSql.Lib.SortedMap
import PhxSql.Proto.Messages

/-!
# The choice of an endpoint

`PhxSQLClientDisasterStrategy_LeakyBucket` keeps a bucket for every endpoint, in a file that the
processes of a machine share; a failed connection takes a token out of it. `GetEndPoint` goes round
the list of endpoints from behind a random index and takes the first endpoint, other than the
previous one, whose bucket has a token. If it comes back to the random index it takes the endpoint
there.

The clock stands still during the call. The files are a parameter: what `Init` maps into memory for
a key, none where it fails. `HasToken` then answers with `-1`, which is `true`, and with a refill
period of 0 it divides by zero; both are visible in `endpoint_has_token_iff`.
-/

set_option autoImplicit false

namespace PhxSql.Client

open PhxSql.Proto PhxSql.Lib

/-! ## Buckets -/

/-- `Bucket_t`. -/
structure TokenBucket where
  tokenCount : Int := 0
  latestRefillTime : Nat := 0
  deriving DecidableEq, Repr

/-- `MmapLeakyBucket`; the bucket in memory is none where `Init` could not map it. -/
structure MmapLeakyBucket where
  bucketSize : Int
  refillPeriod : Nat
  bucket : Option TokenBucket
  deriving DecidableEq, Repr

/-- The bucket after the lazy refill of `HasToken`. -/
def TokenBucket.refilled (b : TokenBucket) (bucketSize : Int) (refillPeriod now : Nat) :
    TokenBucket :=
  let start := now % 2 ^ 32 - now % 2 ^ 32 % refillPeriod
  if b.latestRefillTime ≠ start then { tokenCount := bucketSize, latestRefillTime := start } else b

/-- `MmapLeakyBucket::HasToken`; none for a division by zero. -/
def MmapLeakyBucket.hasToken (b : MmapLeakyBucket) (now : Nat) : Option (Bool × MmapLeakyBucket) :=
  match b.bucket with
  | none => some (true, b)
  | some bucket =>
    if b.refillPeriod = 0 then none
    else
      let bucket := bucket.refilled b.bucketSize b.refillPeriod now
      some (decide (0 < bucket.tokenCount), { b with bucket := some bucket })

/-! ## The strategy -/

/-- `MySQLEndPoint_t`. -/
structure MySQLEndPoint where
  ip : Bytes := []
  port : Int := 0
  deriving DecidableEq, Repr

/-- `MySQLEndPoint_t::ToString`, which has room for 63 bytes. -/
def MySQLEndPoint.toString (e : MySQLEndPoint) : Bytes :=
  ((e.ip.takeWhile fun b => b ≠ 0) ++ 58 :: decimal (e.port % 2 ^ 32).toNat).take 63

/-- `PhxSQLClientDisasterStrategy_LeakyBucket`. -/
structure LeakyBucketStrategy where
  bucketSize : Int
  fillPeriod : Nat
  mapBucket : SortedMap Bytes MmapLeakyBucket byteRank := .empty

/-- The bucket of an endpoint: the one of the map, or a new one. -/
def LeakyBucketStrategy.bucketOf (s : LeakyBucketStrategy) (files : Bytes → Option TokenBucket)
    (e : MySQLEndPoint) : MmapLeakyBucket :=
  match s.mapBucket.find? e.toString with
  | some b => b
  | none =>
    { bucketSize := s.bucketSize
      refillPeriod := s.fillPeriod
      bucket := files e.toString }

/-- The strategy after the bucket of an endpoint was asked. -/
def LeakyBucketStrategy.keep (s : LeakyBucketStrategy) (e : MySQLEndPoint)
    (bucket : MmapLeakyBucket) : LeakyBucketStrategy :=
  { s with mapBucket := s.mapBucket.insert e.toString bucket }

/-- `RandomPicker(maxVal)` for the next random number. -/
def randomPicker (random maxVal : Nat) : Nat :=
  if maxVal = 0 then maxVal else random % maxVal

/-- What does not change during a call of `GetEndPoint`. -/
structure EndPointQuery where
  files : Bytes → Option TokenBucket
  now : Nat
  endpoints : List MySQLEndPoint
  previous : MySQLEndPoint

/-- The loop of `GetEndPoint` at the position `iCurrPos`, and the choice after it; none for a
division by zero, and where the given number of rounds is not enough. -/
def getEndPointLoop (q : EndPointQuery) (begIdx : Nat) :
    Nat → Nat → LeakyBucketStrategy → Option (MySQLEndPoint × LeakyBucketStrategy)
  | 0, _, _ => none
  | rounds + 1, currPos, s =>
    let e := q.endpoints.getD currPos {}
    let next := (currPos + 1) % q.endpoints.length
    if currPos = begIdx then
      -- No endpoint was found.
      some (e, s)
    else if e = q.previous then getEndPointLoop q begIdx rounds next s
    else
      match (s.bucketOf q.files e).hasToken q.now with
      | none => none
      | some (has, bucket) =>
        if has then some (e, s.keep e bucket)
        else getEndPointLoop q begIdx rounds next (s.keep e bucket)

/-- `PhxSQLClientDisasterStrategy_LeakyBucket::GetEndPoint`. -/
def getEndPoint (q : EndPointQuery) (s : LeakyBucketStrategy) (random : Nat) :
    Option (MySQLEndPoint × LeakyBucketStrategy) :=
  let begIdx := randomPicker random q.endpoints.length
  getEndPointLoop q begIdx q.endpoints.length ((begIdx + 1) % q.endpoints.length) s

/-! ## What the buckets say -/

/-- The bucket of an endpoint is in memory. -/
def Opened (q : EndPointQuery) (s : LeakyBucketStrategy) (e : MySQLEndPoint) : Prop :=
  (s.bucketOf q.files e).bucket.isSome = true

/-- The bucket of an endpoint is in memory, and after the refill for this time there is a token in
it. -/
def HasTokens (q : EndPointQuery) (s : LeakyBucketStrategy) (e : MySQLEndPoint) : Prop :=
  ∃ bucket, (s.bucketOf q.files e).bucket = some bucket ∧ (s.bucketOf q.files e).refillPeriod ≠ 0 ∧
    0 < (bucket.refilled (s.bucketOf q.files e).bucketSize (s.bucketOf q.files e).refillPeriod
      q.now).tokenCount

/-- The answer of `HasToken` for an endpoint. -/
def answer (q : EndPointQuery) (s : LeakyBucketStrategy) (e : MySQLEndPoint) : Option Bool :=
  ((s.bucketOf q.files e).hasToken q.now).map Prod.fst

theorem refilled_refilled (b : TokenBucket) (bucketSize : Int) (refillPeriod now : Nat) :
    (b.refilled bucketSize refillPeriod now).refilled bucketSize refillPeriod now =
      b.refilled bucketSize refillPeriod now := by
  simp only [TokenBucket.refilled]
  split
  · exact ite_self _
  · rfl

/-- A bucket that was asked gives the same answer again. -/
theorem MmapLeakyBucket.hasToken_again {b b' : MmapLeakyBucket} {now : Nat} {has : Bool}
    (hasked : b.hasToken now = some (has, b')) : b'.hasToken now = some (has, b') := by
  obtain ⟨bucketSize, refillPeriod, bucket⟩ := b
  cases bucket with
  | none =>
    cases hasked
    rfl
  | some bucket =>
    simp only [hasToken] at hasked
    split at hasked
    · cases hasked
    · rename_i hperiod
      cases hasked
      simp only [hasToken, hperiod, if_false, refilled_refilled]

/-- Asking one bucket changes the answer of none. -/
theorem answer_keep {q : EndPointQuery} {s : LeakyBucketStrategy} {e : MySQLEndPoint} {has : Bool}
    {bucket : MmapLeakyBucket} (hasked : (s.bucketOf q.files e).hasToken q.now = some (has, bucket))
    (e' : MySQLEndPoint) : answer q (s.keep e bucket) e' = answer q s e' := by
  unfold answer
  by_cases hkey : e'.toString = e.toString
  · have hsame : s.bucketOf q.files e' = s.bucketOf q.files e := by
      simp only [LeakyBucketStrategy.bucketOf, hkey]
    have hnew : (s.keep e bucket).bucketOf q.files e' = bucket := by
      simp only [LeakyBucketStrategy.bucketOf, LeakyBucketStrategy.keep, hkey,
        SortedMap.find?_insert_self]
    rw [hnew, hsame, hasked, MmapLeakyBucket.hasToken_again hasked]
  · have hother : (s.keep e bucket).bucketOf q.files e' = s.bucketOf q.files e' := by
      have hrank : byteRank e'.toString ≠ byteRank e.toString := mt byteRank_inj.mp hkey
      simp only [LeakyBucketStrategy.bucketOf, LeakyBucketStrategy.keep,
        SortedMap.find?_insert_of_ne hrank]
    rw [hother]

/-! ## The scan -/

variable {q : EndPointQuery} {begIdx : Nat}

/-- One round of the loop at another position than the random one. -/
theorem getEndPointLoop_cases (rounds currPos : Nat) (s : LeakyBucketStrategy)
    (hpos : currPos ≠ begIdx) :
    (q.endpoints.getD currPos {} ≠ q.previous ∧
      answer q s (q.endpoints.getD currPos {}) = none ∧
      getEndPointLoop q begIdx (rounds + 1) currPos s = none) ∨
    (q.endpoints.getD currPos {} ≠ q.previous ∧
      answer q s (q.endpoints.getD currPos {}) = some true ∧
      ∃ s', getEndPointLoop q begIdx (rounds + 1) currPos s =
        some (q.endpoints.getD currPos {}, s')) ∨
    ((q.endpoints.getD currPos {} = q.previous ∨
        answer q s (q.endpoints.getD currPos {}) = some false) ∧
      ∃ s', (∀ e, answer q s' e = answer q s e) ∧
        getEndPointLoop q begIdx (rounds + 1) currPos s =
          getEndPointLoop q begIdx rounds ((currPos + 1) % q.endpoints.length) s') := by
  generalize he : q.endpoints.getD currPos {} = e
  have hloop : getEndPointLoop q begIdx (rounds + 1) currPos s =
      if e = q.previous then
        getEndPointLoop q begIdx rounds ((currPos + 1) % q.endpoints.length) s
      else
        match (s.bucketOf q.files e).hasToken q.now with
        | none => none
        | some (has, bucket) =>
          if has then some (e, s.keep e bucket)
          else getEndPointLoop q begIdx rounds ((currPos + 1) % q.endpoints.length)
            (s.keep e bucket) := by
    rw [getEndPointLoop, if_neg hpos, he]
  by_cases hprevious : e = q.previous
  · rw [if_pos hprevious] at hloop
    exact .inr (.inr ⟨.inl hprevious, s, fun _ => rfl, hloop⟩)
  · rw [if_neg hprevious] at hloop
    cases hasked : (s.bucketOf q.files e).hasToken q.now with
    | none =>
      rw [hasked] at hloop
      exact .inl ⟨hprevious, by rw [answer, hasked]; rfl, hloop⟩
    | some asked =>
      obtain ⟨has, bucket⟩ := asked
      have hanswer : answer q s e = some has := by rw [answer, hasked]; rfl
      rw [hasked] at hloop
      cases has with
      | true => exact .inr (.inl ⟨hprevious, hanswer, s.keep e bucket, hloop⟩)
      | false =>
        exact .inr (.inr ⟨.inr hanswer, s.keep e bucket, answer_keep hasked, hloop⟩)

theorem getD_mem {endpoints : List MySQLEndPoint} {i : Nat} (hi : i < endpoints.length) :
    endpoints.getD i {} ∈ endpoints := by
  simp [List.getD_eq_getElem?_getD, hi]

/-- The position after another one. -/
theorem next_position {currPos n : Nat} (hlt : currPos < n) :
    (currPos + 1) % n = if currPos + 1 = n then 0 else currPos + 1 := by
  split
  · rename_i hend
    rw [hend, Nat.mod_self]
  · exact Nat.mod_eq_of_lt (by omega)

/-- What the loop does from a position on from which the random one is `left` steps away: it stops
at an endpoint whose bucket answers with `true` or divides by zero, or it comes back to the random
index past endpoints that are out of question. -/
theorem getEndPointLoop_spec (hbeg : begIdx < q.endpoints.length) (left rounds currPos : Nat)
    (s : LeakyBucketStrategy) (hrounds : left < rounds) (hleft : left < q.endpoints.length)
    (hpos : currPos + left = begIdx ∨ currPos + left = begIdx + q.endpoints.length)
    (hlt : currPos < q.endpoints.length) :
    (∃ e ∈ q.endpoints, e ≠ q.previous ∧ answer q s e = none ∧
      getEndPointLoop q begIdx rounds currPos s = none) ∨
    (∃ e ∈ q.endpoints, e ≠ q.previous ∧ answer q s e = some true ∧
      ∃ s', getEndPointLoop q begIdx rounds currPos s = some (e, s')) ∨
    ((∀ i < left, ∀ e, q.endpoints.getD ((currPos + i) % q.endpoints.length) {} = e →
        e = q.previous ∨ answer q s e = some false) ∧
      ∃ s', getEndPointLoop q begIdx rounds currPos s =
        some (q.endpoints.getD begIdx {}, s')) := by
  induction left generalizing rounds currPos s with
  | zero =>
    obtain ⟨rounds, rfl⟩ : ∃ r, rounds = r + 1 := ⟨rounds - 1, by omega⟩
    obtain rfl : currPos = begIdx := by omega
    refine .inr (.inr ⟨by simp, s, ?_⟩)
    rw [getEndPointLoop, if_pos rfl]
  | succ left ih =>
    obtain ⟨rounds, rfl⟩ : ∃ r, rounds = r + 1 := ⟨rounds - 1, by omega⟩
    have hother : currPos ≠ begIdx := by omega
    have hmem : q.endpoints.getD currPos {} ∈ q.endpoints := getD_mem hlt
    have hnext := next_position hlt
    rcases getEndPointLoop_cases rounds currPos s hother with
      ⟨hprevious, hanswer, hloop⟩ | ⟨hprevious, hanswer, hloop⟩ | ⟨hskip, s', hsame, hloop⟩
    · exact .inl ⟨_, hmem, hprevious, hanswer, hloop⟩
    · exact .inr (.inl ⟨_, hmem, hprevious, hanswer, hloop⟩)
    · have ih := ih rounds ((currPos + 1) % q.endpoints.length) s' (by omega) (by omega)
        (by split at hnext <;> omega) (by split at hnext <;> omega)
      simp only [hsame] at ih
      rw [hloop]
      refine ih.imp id (Or.imp id ?_)
      rintro ⟨hrest, hfound⟩
      refine ⟨?_, hfound⟩
      intro i hi e he
      cases i with
      | zero =>
        rw [Nat.add_zero, Nat.mod_eq_of_lt hlt] at he
        rw [← he]
        exact hskip
      | succ i =>
        apply hrest i (by omega)
        rw [Nat.mod_add_mod, ← he]
        congr 2
        omega

/-! ## The choice -/

variable {s : LeakyBucketStrategy} {e : MySQLEndPoint}

theorem answer_eq_none_iff :
    answer q s e = none ↔ Opened q s e ∧ (s.bucketOf q.files e).refillPeriod = 0 := by
  unfold answer Opened MmapLeakyBucket.hasToken
  cases (s.bucketOf q.files e).bucket with
  | none => simp
  | some bucket => by_cases hperiod : (s.bucketOf q.files e).refillPeriod = 0 <;> simp [hperiod]

theorem answer_eq_true_iff : answer q s e = some true ↔ ¬Opened q s e ∨ HasTokens q s e := by
  unfold answer Opened HasTokens MmapLeakyBucket.hasToken
  cases (s.bucketOf q.files e).bucket with
  | none => simp
  | some bucket => by_cases hperiod : (s.bucketOf q.files e).refillPeriod = 0 <;> simp [hperiod]

theorem HasTokens.opened (h : HasTokens q s e) : Opened q s e := by
  obtain ⟨bucket, hbucket, -⟩ := h
  rw [Opened, hbucket]
  rfl

/-- The scan from behind the random index: it stops at another endpoint than the previous one, or
every entry of the list but the one at the random index is out of question. -/
theorem getEndPoint_spec (random : Nat) (hpos : 0 < q.endpoints.length) :
    (∃ e ∈ q.endpoints, e ≠ q.previous ∧ answer q s e = none ∧ 2 ≤ q.endpoints.length) ∨
    (∃ e ∈ q.endpoints, e ≠ q.previous ∧ answer q s e = some true ∧
      ∃ s', getEndPoint q s random = some (e, s')) ∨
    (∃ last ∈ q.endpoints, (∃ s', getEndPoint q s random = some (last, s')) ∧
      ∀ e ∈ q.endpoints, e = last ∨ e = q.previous ∨ answer q s e = some false) := by
  have hbeg : random % q.endpoints.length < q.endpoints.length := Nat.mod_lt _ hpos
  have hstart : getEndPoint q s random = getEndPointLoop q (random % q.endpoints.length)
      q.endpoints.length ((random % q.endpoints.length + 1) % q.endpoints.length) s := by
    simp only [getEndPoint, randomPicker, hpos.ne', if_false]
  rw [hstart]
  generalize random % q.endpoints.length = begIdx at hbeg ⊢
  have hnext := next_position hbeg
  have hnext_lt : (begIdx + 1) % q.endpoints.length < q.endpoints.length := Nat.mod_lt _ hpos
  rcases getEndPointLoop_spec hbeg (q.endpoints.length - 1) q.endpoints.length
      ((begIdx + 1) % q.endpoints.length) s (by omega) (by omega)
      (by split at hnext <;> omega) hnext_lt with
    ⟨e, he, hprevious, hnone, hloop⟩ | hfound | ⟨hrest, hfound⟩
  · refine .inl ⟨e, he, hprevious, hnone, ?_⟩
    by_contra hlength
    -- In a list of one entry the scan begins at the random index.
    have hone : q.endpoints.length = 0 + 1 := by omega
    have hsame : (begIdx + 1) % q.endpoints.length = begIdx := by
      rw [hone, Nat.mod_one]
      omega
    rw [hsame, hone, getEndPointLoop, if_pos rfl] at hloop
    cases hloop
  · exact .inr (.inl hfound)
  · refine .inr (.inr ⟨_, getD_mem hbeg, hfound, ?_⟩)
    intro e he
    obtain ⟨j, hj, rfl⟩ := List.mem_iff_getElem.mp he
    have hentry : q.endpoints.getD j {} = q.endpoints[j] := by
      simp [List.getD_eq_getElem?_getD, hj]
    by_cases hsame : j = begIdx
    · rw [← hsame, hentry]
      exact .inl rfl
    · -- The position `j` lies `i` steps behind the first one.
      obtain ⟨i, hi, hposition⟩ : ∃ i < q.endpoints.length - 1,
          begIdx + 1 + i = j ∨ begIdx + 1 + i = j + q.endpoints.length := by
        rcases Nat.lt_or_gt_of_ne hsame with hlt | hgt
        · exact ⟨j + q.endpoints.length - (begIdx + 1), by omega, by omega⟩
        · exact ⟨j - (begIdx + 1), by omega, by omega⟩
      refine .inr (hrest i hi _ ?_)
      rw [Nat.mod_add_mod]
      rcases hposition with hposition | hposition
      · rw [hposition, Nat.mod_eq_of_lt hj, hentry]
      · rw [hposition, Nat.add_mod_right, Nat.mod_eq_of_lt hj, hentry]

variable (q s) in
/-- Whatever the random number is, `GetEndPoint` returns an endpoint of the list, and one other than
the previous one with a token if there is one. -/
def PrefersTokens : Prop :=
  ∀ random, ∃ e s', getEndPoint q s random = some (e, s') ∧ e ∈ q.endpoints ∧
    ((∃ x ∈ q.endpoints, x ≠ q.previous ∧ HasTokens q s x) → e ≠ q.previous ∧ HasTokens q s e)

/-- Every endpoint of a list with others can be the first one that is looked at. Its bucket then
decides, unless it is the previous endpoint. -/
theorem exists_first (hlength : 2 ≤ q.endpoints.length) (he : e ∈ q.endpoints)
    (hprevious : e ≠ q.previous) :
    ∃ random, (answer q s e = none → getEndPoint q s random = none) ∧
      (answer q s e = some true → ∃ s', getEndPoint q s random = some (e, s')) := by
  obtain ⟨j, hj, hentry⟩ := List.mem_iff_getElem.mp he
  have hcurr : q.endpoints.getD j {} = e := by
    simp [List.getD_eq_getElem?_getD, hj, hentry]
  -- The random index is the one before `j`.
  obtain ⟨begIdx, hbeg, hother, hnext⟩ : ∃ begIdx < q.endpoints.length, j ≠ begIdx ∧
      (begIdx + 1) % q.endpoints.length = j := by
    by_cases hzero : j = 0
    · refine ⟨q.endpoints.length - 1, by omega, by omega, ?_⟩
      rw [Nat.sub_add_cancel (by omega), Nat.mod_self, hzero]
    · refine ⟨j - 1, by omega, by omega, ?_⟩
      rw [Nat.sub_add_cancel (by omega), Nat.mod_eq_of_lt hj]
  have hstart : getEndPoint q s begIdx =
      getEndPointLoop q begIdx (q.endpoints.length - 1 + 1) j s := by
    have hne : q.endpoints.length ≠ 0 := by omega
    simp only [getEndPoint, randomPicker, hne, if_false, Nat.mod_eq_of_lt hbeg, hnext,
      Nat.sub_add_cancel (by omega : 1 ≤ q.endpoints.length)]
  refine ⟨begIdx, ?_⟩
  rw [hstart]
  rcases getEndPointLoop_cases (q.endpoints.length - 1) j s hother with
    ⟨-, hnone, hloop⟩ | ⟨-, htrue, hloop⟩ | ⟨hskip, -⟩
  · rw [hcurr] at hnone
    exact ⟨fun _ => hloop, fun htrue => nomatch hnone.symm.trans htrue⟩
  · rw [hcurr] at htrue hloop
    exact ⟨fun hnone => (nomatch htrue.symm.trans hnone), fun _ => hloop⟩
  · rw [hcurr] at hskip
    have hfalse := hskip.resolve_left hprevious
    exact ⟨fun hnone => (nomatch hfalse.symm.trans hnone),
      fun htrue => nomatch hfalse.symm.trans htrue⟩

/-- `GetEndPoint` prefers an endpoint with a token if and only if the list has one entry, or for the
listed endpoints other than the previous one: no bucket in memory has the refill period 0, and if
one of them has a token, the buckets of all of them are in memory. -/
theorem endpoint_has_token_iff (q : EndPointQuery) (s : LeakyBucketStrategy)
    (hne : q.endpoints ≠ []) :
    PrefersTokens q s ↔
      q.endpoints.length = 1 ∨
      ((∀ e ∈ q.endpoints, e ≠ q.previous → Opened q s e →
          (s.bucketOf q.files e).refillPeriod ≠ 0) ∧
        ((∃ e ∈ q.endpoints, e ≠ q.previous ∧ HasTokens q s e) →
          ∀ e ∈ q.endpoints, e ≠ q.previous → Opened q s e)) := by
  have hpos : 0 < q.endpoints.length := List.length_pos_iff.mpr hne
  constructor
  · intro hprefers
    by_cases hlength : q.endpoints.length = 1
    · exact .inl hlength
    · -- Each endpoint is taken as the first one of the scan.
      refine .inr ⟨?_, ?_⟩
      · intro e he hprevious hopened hzero
        obtain ⟨random, hcrash, -⟩ := exists_first (s := s) (by omega) he hprevious
        obtain ⟨e', s', hfound, -⟩ := hprefers random
        rw [hcrash (answer_eq_none_iff.mpr ⟨hopened, hzero⟩)] at hfound
        cases hfound
      · intro htoken e he hprevious
        by_contra hclosed
        obtain ⟨random, -, hchosen⟩ := exists_first (s := s) (by omega) he hprevious
        obtain ⟨s'', hloop⟩ := hchosen (answer_eq_true_iff.mpr (.inl hclosed))
        obtain ⟨e', s', hfound, -, hgood⟩ := hprefers random
        rw [hloop] at hfound
        cases hfound
        exact hclosed (hgood htoken).2.opened
  · intro hcondition random
    rcases getEndPoint_spec (s := s) random hpos with
      ⟨e, he, hprevious, hnone, hlength⟩ | ⟨e, he, hprevious, htrue, s', hfound⟩ |
        ⟨last, hlast, ⟨s', hfound⟩, hrest⟩
    · obtain ⟨hopened, hzero⟩ := answer_eq_none_iff.mp hnone
      rcases hcondition with hone | ⟨hperiod, -⟩
      · omega
      · exact absurd hzero (hperiod e he hprevious hopened)
    · refine ⟨e, s', hfound, he, ?_⟩
      rintro ⟨x, hx, hother, htoken⟩
      refine ⟨hprevious, ?_⟩
      rcases hcondition with hone | ⟨-, hopened⟩
      · obtain ⟨y, hy⟩ := List.length_eq_one_iff.mp hone
        obtain rfl : x = e := by
          rw [hy, List.mem_singleton] at hx he
          rw [hx, he]
        exact htoken
      · rcases answer_eq_true_iff.mp htrue with hclosed | htokens
        · exact absurd (hopened ⟨x, hx, hother, htoken⟩ e he hprevious) hclosed
        · exact htokens
    · refine ⟨last, s', hfound, hlast, ?_⟩
      rintro ⟨x, hx, hother, htoken⟩
      rcases hrest x hx with rfl | rfl | hfalse
      · exact ⟨hother, htoken⟩
      · exact absurd rfl hother
      · rw [answer_eq_true_iff.mpr (.inr htoken)] at hfalse
        cases hfalse

/-- The endpoints `a:3306` and `b:3306`. -/
def hostA : MySQLEndPoint :=
  { ip := [97], port := 3306 }

@[inherit_doc hostA]
def hostB : MySQLEndPoint :=
  { ip := [98], port := 3306 }

/-- Two endpoints with the buckets in the given files. -/
def twoHosts (files : Bytes → Option TokenBucket) : EndPointQuery :=
  { files := files, now := 100, endpoints := [hostA, hostB], previous := {} }

/-- Ten tokens a minute. -/
def tenTokens : LeakyBucketStrategy :=
  { bucketSize := 10, fillPeriod := 60 }

/-- Both buckets are in memory, and one of them has no token until the next minute. -/
def oneEmpty (key : Bytes) : Option TokenBucket :=
  some { tokenCount := if key = hostA.toString then 0 else 3, latestRefillTime := 60 }

theorem endpoint_has_token_oneEmpty : PrefersTokens (twoHosts oneEmpty) tenTokens := by
  have hbucket (e : MySQLEndPoint) :
      tenTokens.bucketOf oneEmpty e = ⟨10, 60, oneEmpty e.toString⟩ := rfl
  refine (endpoint_has_token_iff _ _ (by decide)).mpr (.inr ⟨?_, ?_⟩)
  · intro e _ _ _
    rw [twoHosts, hbucket]
    exact Nat.succ_ne_zero 59
  · intro _ e _ _
    rw [Opened, twoHosts, hbucket]
    rfl

/-- The file of the first endpoint cannot be mapped, and the second endpoint has tokens. -/
def oneClosed (key : Bytes) : Option TokenBucket :=
  if key = hostA.toString then none else some { tokenCount := 3, latestRefillTime := 60 }

/-- An endpoint without a bucket is chosen before one with tokens if the scan begins there; with a
refill period of 0 none is chosen. -/
theorem endpoint_without_token :
    (¬PrefersTokens (twoHosts oneClosed) tenTokens ∧
      (getEndPoint (twoHosts oneClosed) tenTokens 1).map Prod.fst = some hostA ∧
      HasTokens (twoHosts oneClosed) tenTokens hostB) ∧
    (¬PrefersTokens (twoHosts oneEmpty) { tenTokens with fillPeriod := 0 } ∧
      (getEndPoint (twoHosts oneEmpty) { tenTokens with fillPeriod := 0 } 1).isNone = true) := by
  have hfirst : (getEndPoint (twoHosts oneClosed) tenTokens 1).map Prod.fst = some hostA := by
    decide +kernel
  have htokens : HasTokens (twoHosts oneClosed) tenTokens hostB :=
    ⟨{ tokenCount := 3, latestRefillTime := 60 }, by decide +kernel, by decide +kernel,
      by decide +kernel⟩
  have hclosed : ¬Opened (twoHosts oneClosed) tenTokens hostA := by
    unfold Opened
    decide +kernel
  have hnone : (getEndPoint (twoHosts oneEmpty) { tenTokens with fillPeriod := 0 } 1).isNone =
      true := by
    decide +kernel
  refine ⟨⟨?_, hfirst, htokens⟩, ?_, hnone⟩
  · intro hprefers
    obtain ⟨e, s', hfound, -, hgood⟩ := hprefers 1
    rw [hfound] at hfirst
    obtain rfl : e = hostA := Option.some.inj hfirst
    exact hclosed (hgood ⟨hostB, by decide, by decide, htokens⟩).2.opened
  · intro hprefers
    obtain ⟨e, s', hfound, -⟩ := hprefers 1
    rw [hfound] at hnone
    cases hnone

end PhxSql.Client
