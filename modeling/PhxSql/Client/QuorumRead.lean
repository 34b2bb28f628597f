import Mathlib.Algebra.Order.Ring.Nat
import Mathlib.Algebra.Ring.Parity
import Mathlib.Data.Fintype.Card
import PhxSql.Client.PhxBinlogClient

/-!
# Two reads from the members share a member

A read that returns 0 has used the answers of at least half of the members. Half is not a majority:
with an even number of members two reads can use the answers of disjoint halves, and they do so for
every even number of members that fits the counter. With an odd number at least half is more than
half, so any two reads share a member. A read always shares a member with a strict majority, so the
version it returns is not below one that a strict majority has.
-/

set_option autoImplicit false

namespace PhxSql.Client

open PhxSql.Proto PhxSql.Gtid

variable {n : Nat} {α β : Type}

/-! ## The members whose answers are used -/

/-- The call succeeded and its answer can be decoded. -/
def Used (decode : Fin n → Bytes → Option β) (responses : Fin n → Bytes × Int) (i : Fin n) : Prop :=
  (responses i).2 = 0 ∧ (decode i (responses i).1).isSome = true

instance (decode : Fin n → Bytes → Option β) (responses : Fin n → Bytes × Int) :
    DecidablePred (Used decode responses) :=
  fun i => inferInstanceAs
    (Decidable ((responses i).2 = 0 ∧ (decode i (responses i).1).isSome = true))

def usedMembers (decode : Fin n → Bytes → Option β) (responses : Fin n → Bytes × Int) :
    Finset (Fin n) :=
  Finset.univ.filter (Used decode responses)

variable {decode : Fin n → Bytes → Option β} {keep : α → β → α} {responses : Fin n → Bytes × Int}

/-- What the loop body does: an answer is used, or the code becomes that of a failure. -/
theorem collectAnswer_cases (c : Collected α) (i : Fin n) :
    (∃ answer, decode i (responses i).1 = some answer ∧ Used decode responses i ∧
      collectAnswer decode keep responses c i =
        { c with okNum := (c.okNum + 1) % 2 ^ 32, found := keep c.found answer }) ∨
    ∃ ret, ret ≠ 0 ∧ ¬ Used decode responses i ∧
      collectAnswer decode keep responses c i = { c with ret := ret } := by
  unfold collectAnswer Used
  by_cases hret : (responses i).2 = 0
  · cases hdecode : decode i (responses i).1 with
    | none =>
      exact .inr ⟨RetCode.bufferFail.value, by decide, by simp, by simp [hret]⟩
    | some answer =>
      exact .inl ⟨answer, rfl, ⟨hret, rfl⟩, by simp [hret]⟩
  · exact .inr ⟨(responses i).2, hret, fun h => hret h.1, by simp [hret]⟩

/-- The code after the loop is 0 if it was so before and every answer was used. -/
theorem foldl_collectAnswer_ret (l : List (Fin n)) :
    ∀ c : Collected α, (l.foldl (collectAnswer decode keep responses) c).ret = 0 ↔
      c.ret = 0 ∧ ∀ i ∈ l, Used decode responses i := by
  induction l with
  | nil => simp
  | cons i l ih =>
    intro c
    rw [List.foldl_cons, ih, List.forall_mem_cons]
    obtain ⟨answer, -, hused, heq⟩ | ⟨ret, hret, hnot, heq⟩ :=
      @collectAnswer_cases n α β decode keep responses c i
    · simp [heq, hused]
    · simp [heq, hret, hnot]

/-- The counter after the loop. -/
theorem foldl_collectAnswer_okNum (l : List (Fin n)) :
    ∀ c : Collected α, c.okNum < 2 ^ 32 →
      (l.foldl (collectAnswer decode keep responses) c).okNum =
        (c.okNum + l.countP fun i => decide (Used decode responses i)) % 2 ^ 32 := by
  induction l with
  | nil =>
    intro c hc
    exact (Nat.mod_eq_of_lt hc).symm
  | cons i l ih =>
    intro c hc
    rw [List.foldl_cons]
    obtain ⟨answer, -, hused, heq⟩ | ⟨ret, -, hnot, heq⟩ :=
      @collectAnswer_cases n α β decode keep responses c i
    · rw [heq, ih _ (Nat.mod_lt _ (by decide)), List.countP_cons_of_pos (by simpa using hused)]
      simp only
      omega
    · have hrest := ih { c with ret := ret } hc
      rw [heq, hrest, List.countP_cons_of_neg (by simpa using hnot)]

theorem countP_finRange_used :
    (List.finRange n).countP (fun i => decide (Used decode responses i)) =
      (usedMembers decode responses).card := by
  have hset : usedMembers decode responses =
      ((List.finRange n).filter fun i => decide (Used decode responses i)).toFinset := by
    ext i
    simp [usedMembers]
  rw [List.countP_eq_length_filter, hset]
  exact (List.toFinset_card_of_nodup ((List.nodup_finRange n).filter _)).symm

/-- What a read with the code 0 has used: half of the members, if these can be counted, or all. -/
def HalfUsed (used : Finset (Fin n)) : Prop :=
  n ≤ 2 * used.card ∧ (n < 2 ^ 32 ∨ used = Finset.univ)

/-- The two ways in which a read ends with the code 0. -/
theorem halfUsed_of_ok {found : α}
    (h : enoughAnswers n (collectAnswers decode keep responses found).okNum ∨
      (collectAnswers decode keep responses found).ret = 0) :
    HalfUsed (usedMembers decode responses) := by
  rcases h with h | h
  · rw [collectAnswers, enoughAnswers, foldl_collectAnswer_okNum _ _ (by simp),
      countP_finRange_used] at h
    simp only at h
    exact ⟨by omega, .inl (by omega)⟩
  · -- Nothing failed, so every answer was used.
    have hall : usedMembers decode responses = Finset.univ := by
      rw [usedMembers, Finset.filter_eq_self]
      intro i _
      exact ((foldl_collectAnswer_ret _ _).mp h).2 i (List.mem_finRange i)
    refine ⟨?_, .inr hall⟩
    rw [hall, Finset.card_univ, Fintype.card_fin]
    omega

theorem enoughAnswers_of_half (hn : n < 2 ^ 32) {found : α}
    (hcard : 2 * (usedMembers decode responses).card = n) :
    enoughAnswers n (collectAnswers decode keep responses found).okNum := by
  rw [collectAnswers, enoughAnswers, foldl_collectAnswer_okNum _ _ (by simp), countP_finRange_used]
  simp only
  omega

/-- Of an odd number of members, or of more than can be counted, two reads share one. -/
theorem HalfUsed.inter_nonempty {used used' : Finset (Fin n)} (h : HalfUsed used)
    (h' : HalfUsed used') (hodd : Odd n ∨ 2 ^ 32 ≤ n) : (used ∩ used').Nonempty := by
  apply Finset.inter_nonempty_of_card_lt_card_add_card (Finset.subset_univ used)
    (Finset.subset_univ used')
  rw [Finset.card_univ, Fintype.card_fin]
  obtain ⟨hhalf, hfew⟩ := h
  obtain ⟨hhalf', hfew'⟩ := h'
  rcases hodd with ⟨k, hk⟩ | hmany
  · omega
  · -- All answers of both reads were used.
    have hall := hfew.resolve_left (Nat.not_lt.mpr hmany)
    have hall' := hfew'.resolve_left (Nat.not_lt.mpr hmany)
    rw [hall, hall', Finset.card_univ, Fintype.card_fin]
    omega

/-- Half of the members and a strict majority share one. -/
theorem HalfUsed.inter_majority {used majority : Finset (Fin n)} (h : HalfUsed used)
    (hmajority : n < 2 * majority.card) : (used ∩ majority).Nonempty := by
  apply Finset.inter_nonempty_of_card_lt_card_add_card (Finset.subset_univ used)
    (Finset.subset_univ majority)
  rw [Finset.card_univ, Fintype.card_fin]
  have hhalf := h.1
  omega

/-! ## Reads that use half of the members -/

/-- A run in which some members answer with one value and the others fail. -/
def answeringRun (l : List (Fin n)) (hl : l.Nodup) (value : Bytes) : RpcRun n where
  completions := l.map fun i => { index := i, value := value, ret := 0 }
  once := by simpa [List.map_map, Function.comp_def] using hl

/-- As long as no more than half of the members have answered, every answer is recorded. -/
theorem foldl_rpcComplete (value : Bytes) (l : List (Fin n)) :
    ∀ st : RpcState n, st.closed = false → 2 * (st.successCount + l.length) ≤ n →
      ∀ i, ((l.map fun i => (⟨i, value, 0⟩ : Completion n)).foldl rpcComplete st).responses i =
        if i ∈ l then (value, 0) else st.responses i := by
  induction l with
  | nil =>
    intro st _ _ i
    simp
  | cons j l ih =>
    intro st hopen hhalf i
    rw [List.length_cons] at hhalf
    have hstill : ¬ n < (st.successCount + 1) * 2 % 2 ^ 64 := by omega
    have hstep : rpcComplete st ⟨j, value, 0⟩ =
        { responses := Function.update st.responses j (value, 0)
          successCount := st.successCount + 1
          closed := false } := by
      simp only [rpcComplete, hopen, Bool.false_eq_true, if_false, if_true, hstill, decide_false]
    rw [List.map_cons, List.foldl_cons, hstep, ih _ rfl (by simp only; omega)]
    by_cases hl : i ∈ l
    · simp [hl]
    · by_cases hj : i = j
      · simp [hj]
      · simp [hl, hj]

/-- In such a run with half of the members, their answers are used and no others. -/
theorem used_answeringRun {l : List (Fin n)} (hl : l.Nodup) (hhalf : 2 * l.length ≤ n) {value : Bytes}
    (hvalue : ∀ i, (decode i value).isSome = true) (i : Fin n) :
    Used decode (rpcCallWithIPList (answeringRun l hl value)) i ↔ i ∈ l := by
  have hresponse := foldl_rpcComplete value l {} rfl (by simpa using hhalf) i
  rw [Used, rpcCallWithIPList, answeringRun, hresponse]
  by_cases hi : i ∈ l
  · simp [hi, hvalue]
  · simp [hi]

theorem card_answeringRun {l : List (Fin n)} (hl : l.Nodup) (hhalf : 2 * l.length ≤ n) {value : Bytes}
    (hvalue : ∀ i, (decode i value).isSome = true) :
    (usedMembers decode (rpcCallWithIPList (answeringRun l hl value))).card = l.length := by
  have hset : usedMembers decode (rpcCallWithIPList (answeringRun l hl value)) = l.toFinset := by
    ext i
    simp [usedMembers, used_answeringRun hl hhalf hvalue]
  rw [hset, List.toFinset_card_of_nodup hl]

/-- With an even number of members that can be counted, two reads use disjoint halves. -/
theorem exists_disjoint_halves (heven : Even n) (hn : n < 2 ^ 32) {value : Bytes}
    (hvalue : ∀ i, (decode i value).isSome = true) (found : α) :
    ∃ run run' : RpcRun n,
      enoughAnswers n (collectAnswers decode keep (rpcCallWithIPList run) found).okNum ∧
      enoughAnswers n (collectAnswers decode keep (rpcCallWithIPList run') found).okNum ∧
      ∀ i, Used decode (rpcCallWithIPList run) i → ¬ Used decode (rpcCallWithIPList run') i := by
  obtain ⟨k, hk⟩ := heven
  -- One read is answered by the first half of the members, the other by the second.
  have hnodup := List.nodup_finRange n
  have hlower : ((List.finRange n).take k).Nodup := hnodup.sublist (List.take_sublist _ _)
  have hupper : ((List.finRange n).drop k).Nodup := hnodup.sublist (List.drop_sublist _ _)
  have hlen : ((List.finRange n).take k).length = k := by
    rw [List.length_take, List.length_finRange]
    omega
  have hlen' : ((List.finRange n).drop k).length = k := by
    rw [List.length_drop, List.length_finRange]
    omega
  refine ⟨answeringRun _ hlower value, answeringRun _ hupper value, ?_, ?_, ?_⟩
  · apply enoughAnswers_of_half hn
    rw [card_answeringRun hlower (by omega) hvalue]
    omega
  · apply enoughAnswers_of_half hn
    rw [card_answeringRun hupper (by omega) hvalue]
    omega
  · intro i hi hi'
    rw [used_answeringRun hlower (by omega) hvalue] at hi
    rw [used_answeringRun hupper (by omega) hvalue] at hi'
    exact List.disjoint_take_drop hnodup le_rfl hi hi'

/-! ## The two functions of the client -/

variable (parse : Bytes → Option RpcMasterInfo)

/-- The answers of `GetMasterInfoFromLocal` that `GetGlobalMaster` uses. -/
def UsedMaster (responses : Fin n → Bytes × Int) (i : Fin n) : Prop :=
  (responses i).2 = 0 ∧ (parse (responses i).1).isSome = true

instance (responses : Fin n → Bytes × Int) : DecidablePred (UsedMaster parse responses) :=
  fun i => inferInstanceAs
    (Decidable ((responses i).2 = 0 ∧ (parse (responses i).1).isSome = true))

/-- The answers of `GetLastSendGtidFromLocal` that `GetGlobalLastSendGtid` uses. -/
def UsedGtid (responses : Fin n → Bytes × Int) (i : Fin n) : Prop :=
  (responses i).2 = 0

/-- Any two successful calls of `GetGlobalMaster` with `require_majority` share a member. -/
def MasterReadsIntersect (n : Nat) : Prop :=
  ∀ (run run' : RpcRun n) (now now' : Fin n → Nat × Nat) (found found' : GlobalMaster),
    (getGlobalMaster parse now (rpcCallWithIPList run) true found).1 = 0 →
    (getGlobalMaster parse now' (rpcCallWithIPList run') true found').1 = 0 →
    ∃ i, UsedMaster parse (rpcCallWithIPList run) i ∧ UsedMaster parse (rpcCallWithIPList run') i

/-- Any two successful calls of `GetGlobalLastSendGtid` share a member. -/
def GtidReadsIntersect (n : Nat) : Prop :=
  ∀ (run run' : RpcRun n) (gtid gtid' : Bytes),
    (getGlobalLastSendGtid (rpcCallWithIPList run) gtid).1 = 0 →
    (getGlobalLastSendGtid (rpcCallWithIPList run') gtid').1 = 0 →
    ∃ i, UsedGtid (rpcCallWithIPList run) i ∧ UsedGtid (rpcCallWithIPList run') i

/-- A successful call returns no version below one that a strict majority of the members has
applied, if the answers of the members tell what they have applied. -/
def VersionKept (n : Nat) : Prop :=
  ∀ (applied : Fin n → Nat) (version : Nat) (run : RpcRun n) (now : Fin n → Nat × Nat)
    (found : GlobalMaster),
    n < 2 * (Finset.univ.filter fun i => version ≤ applied i).card →
    (∀ i info, (rpcCallWithIPList run i).2 = 0 → parse (rpcCallWithIPList run i).1 = some info →
      applied i ≤ info.version) →
    (getGlobalMaster parse now (rpcCallWithIPList run) true found).1 = 0 →
    version ≤ (getGlobalMaster parse now (rpcCallWithIPList run) true found).2.version

variable {parse}

theorem isSome_decodeMasterInfo (now : Nat × Nat) (buffer : Bytes) :
    (decodeMasterInfo parse now buffer).isSome = (parse buffer).isSome :=
  Option.isSome_map

theorem used_decodeMasterInfo (now : Fin n → Nat × Nat) (responses : Fin n → Bytes × Int)
    (i : Fin n) : Used (fun i => decodeMasterInfo parse (now i)) responses i ↔
      UsedMaster parse responses i := by
  rw [Used, isSome_decodeMasterInfo, UsedMaster]

theorem used_some (responses : Fin n → Bytes × Int) (i : Fin n) :
    Used (fun _ => some) responses i ↔ UsedGtid responses i := by
  simp [Used, UsedGtid]

/-- The loop that reports the failures does not turn a failure into a success. -/
theorem eq_zero_of_foldl_ret (responses : Fin n → Bytes × Int) (l : List (Fin n)) :
    ∀ ret : Int,
      l.foldl (fun ret i => if (responses i).2 ≠ 0 then (responses i).2 else ret) ret = 0 →
        ret = 0 := by
  induction l with
  | nil => exact fun ret h => h
  | cons i l ih =>
    intro ret h
    have hnext := ih _ (by simpa only [List.foldl_cons] using h)
    by_cases hi : (responses i).2 = 0
    · simpa [hi] using hnext
    · simp [hi] at hnext

theorem halfUsed_of_getGlobalMaster {now : Fin n → Nat × Nat} {found : GlobalMaster}
    (h : (getGlobalMaster parse now responses true found).1 = 0) :
    HalfUsed (usedMembers (fun i => decodeMasterInfo parse (now i)) responses) := by
  apply @halfUsed_of_ok n GlobalMaster GlobalMaster _ newerMaster responses found
  simp only [getGlobalMaster, Bool.true_eq_false, false_and, false_or] at h
  split at h
  · next henough => exact .inl henough
  · exact .inr (eq_zero_of_foldl_ret responses _ _ h)

theorem halfUsed_of_getGlobalLastSendGtid {gtid : Bytes}
    (h : (getGlobalLastSendGtid responses gtid).1 = 0) :
    HalfUsed (usedMembers (fun _ => some) responses) := by
  apply @halfUsed_of_ok n Bytes Bytes _ laterGtid responses gtid
  simp only [getGlobalLastSendGtid] at h
  split at h
  · next henough => exact .inl henough
  · exact .inr h

/-- The version that is kept is at least that of each answer. -/
theorem le_version_newerMaster (found answer : GlobalMaster) :
    found.version ≤ (newerMaster found answer).version ∧
      answer.version ≤ (newerMaster found answer).version := by
  unfold newerMaster
  split
  · next h =>
    refine ⟨?_, le_rfl⟩
    rcases h with h | h
    · exact Nat.le_of_lt h
    · exact h.1.ge
  · next h => exact ⟨le_rfl, Nat.le_of_not_lt fun hlt => h (.inl hlt)⟩

theorem le_version_foldl {now : Fin n → Nat × Nat} (l : List (Fin n)) :
    ∀ c : Collected GlobalMaster,
      let c' := l.foldl
        (collectAnswer (fun i => decodeMasterInfo parse (now i)) newerMaster responses) c
      c.found.version ≤ c'.found.version ∧
        ∀ i ∈ l, ∀ info, (responses i).2 = 0 → parse (responses i).1 = some info →
          info.version ≤ c'.found.version := by
  induction l with
  | nil =>
    intro c
    exact ⟨le_rfl, fun i hi => by cases hi⟩
  | cons i l ih =>
    intro c
    simp only [List.foldl_cons, List.forall_mem_cons]
    obtain ⟨hfrom, hrest⟩ := ih
      (collectAnswer (fun i => decodeMasterInfo parse (now i)) newerMaster responses c i)
    obtain ⟨answer, hanswer, hused, heq⟩ | ⟨ret, -, hnot, heq⟩ :=
      @collectAnswer_cases n _ _ (fun i => decodeMasterInfo parse (now i)) newerMaster responses c i
    · rw [heq] at hfrom hrest ⊢
      obtain ⟨hkeep, hnew⟩ := le_version_newerMaster c.found answer
      refine ⟨hkeep.trans hfrom, ?_, hrest⟩
      intro info _ hinfo
      have hversion : answer.version = info.version := by
        simp only [decodeMasterInfo, hinfo, Option.map_some, Option.some.injEq] at hanswer
        rw [← hanswer]
      exact hversion ▸ hnew.trans hfrom
    · rw [heq] at hfrom hrest ⊢
      refine ⟨hfrom, ?_, hrest⟩
      intro info hret hinfo
      have hused : UsedMaster parse responses i := ⟨hret, by rw [hinfo]; rfl⟩
      exact absurd ((used_decodeMasterInfo now responses i).mpr hused) hnot

theorem versionKept (n : Nat) : VersionKept parse n := by
  intro applied version run now found hmajority hanswers hok
  obtain ⟨i, hi⟩ := (halfUsed_of_getGlobalMaster hok).inter_majority hmajority
  obtain ⟨hused, happlied⟩ := Finset.mem_inter.mp hi
  rw [usedMembers, Finset.mem_filter, used_decodeMasterInfo] at hused
  obtain ⟨-, hret, hsome⟩ := hused
  obtain ⟨info, hinfo⟩ := Option.isSome_iff_exists.mp hsome
  -- The answer of the shared member has at least that version, and so has what is kept.
  have hfound : (getGlobalMaster parse now (rpcCallWithIPList run) true found).2 =
      (collectAnswers (fun i => decodeMasterInfo parse (now i)) newerMaster
        (rpcCallWithIPList run) found).found := by
    simp only [getGlobalMaster]
    split <;> rfl
  rw [hfound]
  calc version ≤ applied i := (Finset.mem_filter.mp happlied).2
    _ ≤ info.version := hanswers i info hret hinfo
    _ ≤ _ := (le_version_foldl (List.finRange n) _).2 i (List.mem_finRange i) info hret hinfo

/-- Two reads share a member for exactly those numbers of members that are odd or exceed the
counter; the version is kept for every number. -/
theorem global_reads_intersect_iff (n : Nat) (parse : Bytes → Option RpcMasterInfo)
    (hparse : ∃ buffer, (parse buffer).isSome = true) :
    (MasterReadsIntersect parse n ∧ GtidReadsIntersect n ∧ VersionKept parse n) ↔
      (Odd n ∨ 2 ^ 32 ≤ n) := by
  constructor
  · -- With an even number the reads of the master alone can miss each other.
    rintro ⟨hmaster, -, -⟩
    by_contra hnot
    obtain ⟨heven, hfew⟩ := not_or.mp hnot
    rw [Nat.not_odd_iff_even] at heven
    obtain ⟨buffer, hbuffer⟩ := hparse
    let now : Fin n → Nat × Nat := fun _ => (0, 0)
    obtain ⟨run, run', henough, henough', hdisjoint⟩ :=
      @exists_disjoint_halves n _ _ (fun i => decodeMasterInfo parse (now i)) newerMaster heven
        (Nat.lt_of_not_le hfew) buffer (fun i => (isSome_decodeMasterInfo _ _).trans hbuffer) {}
    obtain ⟨i, hi, hi'⟩ := hmaster run run' now now {} {}
      (by simp only [getGlobalMaster, henough, or_true, if_true]; rfl)
      (by simp only [getGlobalMaster, henough', or_true, if_true]; rfl)
    exact hdisjoint i ((used_decodeMasterInfo now _ i).mpr hi)
      ((used_decodeMasterInfo now _ i).mpr hi')
  · intro hodd
    refine ⟨?_, ?_, versionKept n⟩
    · intro run run' now now' found found' hok hok'
      obtain ⟨i, hi⟩ := (halfUsed_of_getGlobalMaster hok).inter_nonempty
        (halfUsed_of_getGlobalMaster hok') hodd
      refine ⟨i, ?_⟩
      simpa only [usedMembers, Finset.mem_inter, Finset.mem_filter, Finset.mem_univ, true_and,
        used_decodeMasterInfo] using hi
    · intro run run' gtid gtid' hok hok'
      obtain ⟨i, hi⟩ := (halfUsed_of_getGlobalLastSendGtid hok).inter_nonempty
        (halfUsed_of_getGlobalLastSendGtid hok') hodd
      refine ⟨i, ?_⟩
      simpa only [usedMembers, Finset.mem_inter, Finset.mem_filter, Finset.mem_univ, true_and,
        used_some] using hi

/-- Three members share one between any two reads. -/
theorem global_reads_intersect_of_three :
    let parse : Bytes → Option RpcMasterInfo := fun _ => some ⟨[49], 0, 1, 0, 0⟩
    MasterReadsIntersect parse 3 ∧ GtidReadsIntersect 3 ∧ VersionKept parse 3 :=
  (global_reads_intersect_iff 3 (fun _ => some ⟨[49], 0, 1, 0, 0⟩) ⟨[], rfl⟩).mpr (.inl (by decide))

/-- Two members: each of two reads gets the answer of one member only, both return 0, and the
answers are those of different members. -/
theorem global_reads_of_two_disjoint :
    let parse : Bytes → Option RpcMasterInfo := fun _ => some ⟨[49], 0, 1, 0, 0⟩
    let run : RpcRun 2 := answeringRun [0] (by decide) []
    let run' : RpcRun 2 := answeringRun [1] (by decide) []
    (getGlobalMaster parse (fun _ => (0, 0)) (rpcCallWithIPList run) true {}).1 = 0 ∧
      (getGlobalMaster parse (fun _ => (0, 0)) (rpcCallWithIPList run') true {}).1 = 0 ∧
      ¬ ∃ i, UsedMaster parse (rpcCallWithIPList run) i ∧
        UsedMaster parse (rpcCallWithIPList run') i := by
  decide

end PhxSql.Client
