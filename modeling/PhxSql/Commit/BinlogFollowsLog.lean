import PhxSql.Commit.Startup

/-!
# The binlog of a server follows the log

A server's own transactions in its binlog are at any time those of its groups that the replicas
store, in their order, and behind them at most those of the group that was handed over last. A server
that has been started has no others, and neither has one that gets an answer: what is not stored is
cut off before the server recovers, and nothing that is stored ever is (`binlog_follows_log`).

The reason is that the empty value of `FlushData` is chosen after the server has asked, so whichever
node answers has executed everything that was accepted of this server.
-/

set_option autoImplicit false

namespace PhxSql.Commit

open PhxSql.Proto PhxSql.Lib PhxSql.Gtid PhxSql.Store PhxSql.Paxos PhxSql.Binlog

variable {cx : SendCodecs} {env : Nat → LocalEnv} {uuid : Nat → Bytes}

/-! ## Groups -/

/-- The transactions of a UUID in the bytes of a group. -/
def Group.numbers (u : Bytes) (g : Group) : List Nat :=
  numbersOf u (bufferGtids g.buffer)

def groupNumbers (u : Bytes) (gs : List Group) : List Nat :=
  gs.flatMap (Group.numbers u)

/-- The groups of a server, in the order in which they were handed over. -/
def Cluster.groupsOf (σ : Cluster) (n : Nat) : List Group :=
  σ.flushed.filter fun g => g.svr = n

/-- A group has transactions of its server only, and its GTID is that of the last one. -/
structure OwnGroup (uuid : Nat → Bytes) (g : Group) : Prop where
  own : ∀ t ∈ bufferGtids g.buffer, t.1 = uuid g.svr
  last : ∃ k, (bufferGtids g.buffer).getLast? = some (uuid g.svr, k) ∧ k < 2 ^ 64 ∧
    g.gtid = genGTID (uuid g.svr) k

theorem OwnGroup.uuid_eq {g : Group} (h : OwnGroup uuid g) (hcolon : colon ∉ uuid g.svr) :
    getUUIDByGTID g.gtid = uuid g.svr := by
  obtain ⟨k, -, hk, hgtid⟩ := h.last
  rw [hgtid, getUUIDByGTID_eq, parseGTID_genGTID hcolon hk]

theorem OwnGroup.numbers_eq {g : Group} (h : OwnGroup uuid g) :
    g.numbers (uuid g.svr) = (bufferGtids g.buffer).map Prod.snd := by
  rw [Group.numbers, numbersOf, List.filter_eq_self.mpr]
  intro t ht
  exact decide_eq_true (h.own t ht)

theorem OwnGroup.numbers_eq_nil {g : Group} (h : OwnGroup uuid g) {u : Bytes} (hu : uuid g.svr ≠ u) :
    g.numbers u = [] := by
  rw [List.eq_nil_iff_forall_not_mem]
  intro k hk
  exact hu (h.own _ (mem_numbersOf.mp hk)).symm

theorem groupNumbers_append (u : Bytes) (gs gs' : List Group) :
    groupNumbers u (gs ++ gs') = groupNumbers u gs ++ groupNumbers u gs' :=
  List.flatMap_append

theorem groupNumbers_singleton (u : Bytes) (g : Group) : groupNumbers u [g] = g.numbers u := by
  simp [groupNumbers]

theorem mem_groupNumbers {u : Bytes} {gs : List Group} {k : Nat} :
    k ∈ groupNumbers u gs ↔ ∃ g ∈ gs, k ∈ g.numbers u :=
  List.mem_flatMap

/-- The first groups have the first numbers. -/
theorem groupNumbers_isPrefix {u : Bytes} {gs gs' : List Group} (h : gs <+: gs') :
    groupNumbers u gs <+: groupNumbers u gs' := by
  obtain ⟨more, rfl⟩ := h
  rw [groupNumbers_append]
  exact List.prefix_append _ _

/-- If all groups but the last are kept, the first ones are. -/
theorem filter_isPrefix_of_dropLast {gs : List Group} {p : Group → Bool}
    (h : ∀ g ∈ gs.dropLast, p g = true) : gs.filter p <+: gs := by
  rcases List.eq_nil_or_concat' gs with rfl | ⟨first, g, rfl⟩
  · exact List.prefix_rfl
  · rw [List.dropLast_concat] at h
    rw [List.filter_append, List.filter_eq_self.mpr h]
    cases hg : p g with
    | true =>
      rw [List.filter_cons_of_pos hg]
      exact List.prefix_rfl
    | false =>
      rw [List.filter_cons_of_neg (by simp [hg]), List.filter_nil, List.append_nil]
      exact List.prefix_append _ _

/-! ### What is flushed -/

/-- `ParseEventList` finds the GTIDs that were assigned. -/
theorem Assigned.bufferGtids_eq {u : Bytes} {readOnly : Bool} {st : BinlogState} {buffer : Bytes}
    {events : List BinlogEvent} (h : Assigned u readOnly st buffer events) :
    bufferGtids buffer = gtids events := by
  obtain ⟨-, htexts, hassigned, -⟩ := h
  have hparsed : ∀ g ∈ gtids events, parseGTID (genGTID g.1 g.2) = g := by
    intro g hg
    obtain ⟨hcolon, hlt, -⟩ := hassigned g hg
    rw [parseGTID_genGTID hcolon hlt]
  rw [bufferGtids, htexts, List.map_map]
  exact (List.map_congr_left hparsed).trans (List.map_id' _)

/-- The last GTID of the bytes is the last one that was assigned. -/
theorem Assigned.maxGtid_eq {u : Bytes} {readOnly : Bool} {st : BinlogState} {buffer : Bytes}
    {events : List BinlogEvent} (h : Assigned u readOnly st buffer events) :
    maxGtid (parseEventList buffer).2 =
      (gtids events).getLast?.elim [] fun g => genGTID g.1 g.2 := by
  rw [Gtid.maxGtid_eq, h.2.1, List.getLast?_map]
  cases (gtids events).getLast? <;> rfl

/-- A server that sends has assigned at least one GTID, and all of them are its own. -/
theorem Assigned.ownGroup {n : Nat} {st : BinlogState} {buffer : Bytes} {events : List BinlogEvent}
    (h : Assigned (uuid n) false st buffer events) (current : Bytes)
    (hlen : ¬ (maxGtid (parseEventList buffer).2).length < (uuid n).length) (huuid : uuid n ≠ []) :
    OwnGroup uuid
      { svr := n, gtid := maxGtid (parseEventList buffer).2, current := current,
        buffer := buffer } := by
  have hown : ∀ g ∈ gtids events, g.1 = uuid n := fun g hg => (h.2.2.1 g hg).2.2.mpr rfl
  rw [h.maxGtid_eq] at hlen ⊢
  refine ⟨?_, ?_⟩
  · rw [h.bufferGtids_eq]
    exact hown
  · rw [h.bufferGtids_eq]
    cases hlast : (gtids events).getLast? with
    | none =>
      rw [hlast] at hlen
      exact absurd (List.length_pos_iff.mpr huuid) hlen
    | some g =>
      have hmem := List.mem_of_getLast? hlast
      have hg : g = (uuid n, g.2) := Prod.ext (hown g hmem) rfl
      refine ⟨g.2, by rw [hg], (h.2.2.1 g hmem).2.1, ?_⟩
      rw [← hown g hmem]
      rfl

/-- What a server does after a flush that MySQL has assigned GTIDs for: it sends a group of its own,
or there is no transaction of its own. -/
theorem afterFlush_assigned {m : Mysqld} {n : Nat} {st : BinlogState} {buffer : Bytes}
    {events : List BinlogEvent} (h : Assigned (uuid n) m.superReadOnly st buffer events)
    (hidle : m.sending = none) (huuid : uuid n ≠ []) :
    ((m.afterFlush n (uuid n) buffer).sending = none ∧
        numbersOf (uuid n) (gtids events) = [] ∧
        ((m.afterFlush n (uuid n) buffer).exited = false → m.exited = false)) ∨
      ∃ g, m.afterFlush n (uuid n) buffer = { m with sending := some g } ∧ g.svr = n ∧
        OwnGroup uuid g ∧ g.numbers (uuid n) = numbersOf (uuid n) (gtids events) := by
  simp only [Mysqld.afterFlush]
  split
  · next hexit =>
    refine .inl ⟨hidle, ?_, fun hrunning => by cases hrunning⟩
    -- The bytes parse, so the last GTID is too short: it is not one of this server.
    have hshort := hexit.resolve_left (not_not.mpr h.1)
    rw [h.maxGtid_eq] at hshort
    rw [List.eq_nil_iff_forall_not_mem]
    intro k hk
    have hmem := mem_numbersOf.mp hk
    have hwrites : m.superReadOnly = false := (h.2.2.1 _ hmem).2.2.mp rfl
    cases hlast : (gtids events).getLast? with
    | none =>
      rw [List.getLast?_eq_none_iff.mp hlast] at hmem
      cases hmem
    | some g =>
      have hown := (h.2.2.1 g (List.mem_of_getLast? hlast)).2.2.mpr hwrites
      rw [hlast, Option.elim_some, genGTID, List.length_append, hown] at hshort
      omega
  · next hexit =>
    obtain ⟨-, hlen⟩ := not_or.mp hexit
    split
    · next hreadOnly =>
      refine .inl ⟨hidle, ?_, id⟩
      rw [List.eq_nil_iff_forall_not_mem]
      intro k hk
      have hwrites := (h.2.2.1 _ (mem_numbersOf.mp hk)).2.2.mp rfl
      rw [hreadOnly] at hwrites
      cases hwrites
    · next hwrites =>
      rw [Bool.not_eq_true] at hwrites
      rw [hwrites] at h
      refine .inr ⟨_, rfl, rfl, h.ownGroup m.lastGtid hlen huuid, ?_⟩
      rw [Group.numbers, h.bufferGtids_eq]

/-! ## The files -/

/-- Writing adds events behind all others, in the newest file. -/
theorem writeEvents_spec {st st' : BinlogState} {events : List BinlogEvent}
    (hnodup : st.index.Nodup) (h : writeEvents st events = some st') :
    st'.index = st.index ∧
      allEvents st'.files st'.index = allEvents st.files st.index ++ events ∧
      (∀ before x, st.index = before ++ [x] →
        allEvents st'.files before = allEvents st.files before) ∧
      ∀ name, WellFormed (st.files name) → WellFormed (st'.files name) := by
  obtain ⟨x, hlast, rfl⟩ := Option.map_eq_some_iff.mp h
  obtain ⟨before, hindex⟩ := List.getLast?_eq_some_iff.mp hlast
  have hx : x ∉ before := by
    rw [hindex, List.nodup_append] at hnodup
    exact fun hx => hnodup.2.2 x hx x (List.mem_singleton_self x) rfl
  refine ⟨rfl, ?_, ?_, ?_⟩
  · simp only [hindex, allEvents_append, allEvents_update_of_not_mem hx]
    simp [allEvents]
  · intro before' x' hindex'
    obtain ⟨rfl, -⟩ := List.append_inj' (hindex.symm.trans hindex') rfl
    exact allEvents_update_of_not_mem hx
  · intro name hfile
    by_cases hname : name = x
    · subst hname
      obtain ⟨rest, hrest⟩ := hfile
      exact ⟨rest ++ events, by simp [hrest]⟩
    · simpa [Function.update_of_ne hname] using hfile

/-- A new file comes behind all others and has no GTID. -/
theorem openFile_spec {st st' : BinlogState} {name : Bytes} (hnodup : st.index.Nodup)
    (h : openFile st name = some st') :
    st'.index = st.index ++ [name] ∧ st'.index.Nodup ∧
      allEvents st'.files st.index = allEvents st.files st.index ∧ gtids (st'.files name) = [] ∧
      ((∀ file ∈ st.index, WellFormed (st.files file)) →
        ∀ file ∈ st'.index, WellFormed (st'.files file)) := by
  simp only [openFile, Option.ite_none_left_eq_some, Option.some.injEq] at h
  obtain ⟨hnew, rfl⟩ := h
  refine ⟨rfl, ?_, allEvents_update_of_not_mem hnew, by simp [gtids], ?_⟩
  · rw [List.nodup_append]
    refine ⟨hnodup, List.nodup_singleton _, ?_⟩
    intro a ha b hb heq
    rw [List.mem_singleton.mp hb] at heq
    exact hnew (heq ▸ ha)
  · intro hfiles file hfile
    by_cases hname : file = name
    · subst hname
      exact ⟨[], by simp⟩
    · simp only [Function.update_of_ne hname]
      refine hfiles file ?_
      simpa [hname] using hfile

theorem binlogNumbers_openFile {u : Bytes} {st st' : BinlogState} {name : Bytes}
    (hnodup : st.index.Nodup) (h : openFile st name = some st') :
    binlogNumbers u st' = binlogNumbers u st := by
  obtain ⟨hindex, -, hall, hname, -⟩ := openFile_spec hnodup h
  rw [binlogNumbers, hindex, allEvents_append, hall, gtids_append, allEvents_cons, gtids_append,
    hname, binlogNumbers]
  simp [allEvents, gtids]

/-! ## One server -/

variable (cx) in
/-- What holds of a server whose groups are `groups`. While it runs, its transactions in the binlog
are those of its groups; all groups but the last are accepted, and so is the last one if it is not
being sent. The transactions in older files are accepted. -/
structure ServerInv (u : Bytes) (chosen : List Entry) (groups : List Group) (m : Mysqld)
    (st : BinlogState) (asked : Option Nat) : Prop where
  index : st.index.Nodup
  files : ∀ name ∈ st.index, WellFormed (st.files name)
  increasing : (0 :: binlogNumbers u st).Pairwise (· < ·)
  live : groupNumbers u groups <+: binlogNumbers u st
  running : m.exited = false → binlogNumbers u st = groupNumbers u groups
  older : ∀ before x, st.index = before ++ [x] →
    ∀ k ∈ numbersOf u (gtids (allEvents st.files before)),
      ∃ g ∈ groups, g.gtid ∈ acceptedGtids cx.toCodecs chosen ∧ k ∈ g.numbers u
  decided : ∀ g ∈ groups.dropLast, g.gtid ∈ acceptedGtids cx.toCodecs chosen
  sending : ∀ g, m.sending = some g → groups.getLast? = some g
  idle : m.exited = false → m.sending = none →
    ∀ g ∈ groups, g.gtid ∈ acceptedGtids cx.toCodecs chosen
  asked : ∀ c, asked = some c → m.exited = true ∧
    ∀ g ∈ groups, g.gtid ∈ acceptedGtids cx.toCodecs (chosen.take c)

section Server

variable {u : Bytes} {chosen : List Entry} {groups : List Group} {m : Mysqld} {st : BinlogState}
  {asked : Option Nat}

theorem serverInv_init (u : Bytes) : ServerInv cx u [] [] {} { files := fun _ => [], index := [] } none where
  index := .nil
  files := by simp
  increasing := List.pairwise_singleton _ _
  live := List.prefix_rfl
  running := fun _ => rfl
  older := by
    intro before x hindex
    simp at hindex
  decided := by simp
  sending := by simp
  idle := by simp
  asked := by simp

/-- More instances do no harm. -/
theorem ServerInv.choose (h : ServerInv cx u chosen groups m st asked) (more : List Entry) :
    ServerInv cx u (chosen ++ more) groups m st asked :=
  have hmono := acceptedGtids_subset_append cx.toCodecs chosen more
  { h with
    older := by
      intro before x hindex k hk
      obtain ⟨g, hg, haccepted, hmem⟩ := h.older before x hindex k hk
      exact ⟨g, hg, hmono haccepted, hmem⟩
    decided := fun g hg => hmono (h.decided g hg)
    idle := fun hrunning hidle g hg => hmono (h.idle hrunning hidle g hg)
    asked := by
      intro c hc
      obtain ⟨hexited, hall⟩ := h.asked c hc
      refine ⟨hexited, fun g hg => ?_⟩
      rw [List.take_append]
      exact acceptedGtids_subset_append cx.toCodecs _ _ (hall g hg) }

/-- The server changes its state, but not its binlog. -/
theorem ServerInv.setMysqld (h : ServerInv cx u chosen groups m st asked) {m' : Mysqld}
    (hexited : m.exited = true → m'.exited = true)
    (hsending : ∀ g, m'.sending = some g → m.sending = some g)
    (hidle : m'.exited = false → m'.sending = none →
      ∀ g ∈ groups, g.gtid ∈ acceptedGtids cx.toCodecs chosen) :
    ServerInv cx u chosen groups m' st asked :=
  { h with
    running := by
      intro hrunning
      apply h.running
      rw [← Bool.not_eq_true]
      intro hm
      rw [hexited hm] at hrunning
      cases hrunning
    sending := fun g hg => h.sending g (hsending g hg)
    idle := hidle
    asked := fun c hc => ⟨hexited (h.asked c hc).1, (h.asked c hc).2⟩ }

/-- The call with the last group has returned. -/
theorem ServerInv.sent (h : ServerInv cx u chosen groups m st asked) {g : Group} {ret : Int}
    (hsending : m.sending = some g)
    (hacked : ∀ g' ∈ (m.sent g ret).acked, g'.gtid ∈ acceptedGtids cx.toCodecs chosen) :
    ServerInv cx u chosen groups (m.sent g ret) st asked := by
  rw [Mysqld.sent] at hacked ⊢
  split
  · exact h
  · rename_i code hcode
    rw [hcode] at hacked
    split
    · rename_i hzero
      simp only [hzero, if_true] at hacked
      refine h.setMysqld id (by simp) ?_
      intro _ _ g' hg'
      -- The group that was sent is the last one.
      obtain ⟨first, rfl⟩ := List.getLast?_eq_some_iff.mp (h.sending g hsending)
      rcases List.mem_append.mp hg' with hg' | hg'
      · exact h.decided g' (by rwa [List.dropLast_concat])
      · rw [List.mem_singleton.mp hg']
        exact hacked g (by simp)
    · exact h.setMysqld (fun _ => rfl) (by simp) (by simp)

/-- A running server writes events that have no transaction of its own. -/
theorem ServerInv.writeOther (h : ServerInv cx u chosen groups m st asked) {m' : Mysqld}
    {st' : BinlogState} {events : List BinlogEvent} (hwrite : writeEvents st events = some st')
    (hrunning : m.exited = false) (hidle : m.sending = none) (hsending : m'.sending = none)
    (hnone : numbersOf u (gtids events) = []) :
    ServerInv cx u chosen groups m' st' asked := by
  obtain ⟨hindex, hall, hbefore, hfiles⟩ := writeEvents_spec h.index hwrite
  have hnumbers : binlogNumbers u st' = binlogNumbers u st := by
    rw [binlogNumbers, hall, gtids_append, numbersOf_append, hnone, List.append_nil, binlogNumbers]
  exact {
    index := hindex ▸ h.index
    files := by
      rw [hindex]
      exact fun name hname => hfiles name (h.files name hname)
    increasing := hnumbers ▸ h.increasing
    live := hnumbers ▸ h.live
    running := fun _ => hnumbers.trans (h.running hrunning)
    older := by
      intro before x hsplit
      rw [hindex] at hsplit
      rw [hbefore before x hsplit]
      exact h.older before x hsplit
    decided := h.decided
    sending := by simp [hsending]
    idle := fun _ _ => h.idle hrunning hidle
    asked := by
      intro c hc
      have hexited := (h.asked c hc).1
      rw [hrunning] at hexited
      cases hexited }

/-- A running server writes a group and sends it. -/
theorem ServerInv.writeGroup (h : ServerInv cx u chosen groups m st asked) {st' : BinlogState}
    {events : List BinlogEvent} (hwrite : writeEvents st events = some st')
    (hrunning : m.exited = false) (hidle : m.sending = none) {g : Group}
    (hnumbers : g.numbers u = numbersOf u (gtids events))
    (hincreasing : (0 :: (binlogNumbers u st ++ numbersOf u (gtids events))).Pairwise (· < ·)) :
    ServerInv cx u chosen (groups ++ [g]) { m with sending := some g } st' asked := by
  obtain ⟨hindex, hall, hbefore, hfiles⟩ := writeEvents_spec h.index hwrite
  have hnew : binlogNumbers u st' = binlogNumbers u st ++ g.numbers u := by
    rw [binlogNumbers, hall, gtids_append, numbersOf_append, ← hnumbers, binlogNumbers]
  have hlive : binlogNumbers u st' = groupNumbers u (groups ++ [g]) := by
    rw [hnew, h.running hrunning, groupNumbers_append, groupNumbers_singleton]
  exact {
    index := hindex ▸ h.index
    files := by
      rw [hindex]
      exact fun name hname => hfiles name (h.files name hname)
    increasing := by
      rw [hnew, hnumbers]
      exact hincreasing
    live := by rw [hlive]
    running := fun _ => hlive
    older := by
      intro before x hsplit k hk
      rw [hindex] at hsplit
      rw [hbefore before x hsplit] at hk
      obtain ⟨g', hg', haccepted, hmem⟩ := h.older before x hsplit k hk
      exact ⟨g', List.mem_append_left _ hg', haccepted, hmem⟩
    decided := by
      rw [List.dropLast_concat]
      exact h.idle hrunning hidle
    sending := by
      intro g' hg'
      cases hg'
      exact List.getLast?_concat
    idle := by
      intro _ hnone
      cases hnone
    asked := by
      intro c hc
      have hexited := (h.asked c hc).1
      rw [hrunning] at hexited
      cases hexited }

/-- A running server opens a file when all its groups are accepted. -/
theorem ServerInv.openFile (h : ServerInv cx u chosen groups m st asked) {st' : BinlogState}
    {name : Bytes} (hopen : openFile st name = some st') (hrunning : m.exited = false)
    (hidle : m.sending = none) : ServerInv cx u chosen groups m st' asked := by
  obtain ⟨hindex, hnodup, hall, -, hfiles⟩ := openFile_spec h.index hopen
  have hnumbers := @binlogNumbers_openFile u st st' name h.index hopen
  exact { h with
    index := hnodup
    files := hfiles h.files
    increasing := hnumbers ▸ h.increasing
    live := hnumbers ▸ h.live
    running := fun hr => hnumbers.trans (h.running hr)
    older := by
      intro before x hsplit k hk
      obtain ⟨rfl, -⟩ := List.append_inj' (hindex.symm.trans hsplit) rfl
      rw [hall] at hk
      have hmem : k ∈ groupNumbers u groups := by
        rw [← h.running hrunning]
        exact hk
      obtain ⟨g, hg, hkg⟩ := mem_groupNumbers.mp hmem
      exact ⟨g, hg, h.idle hrunning hidle g hg, hkg⟩ }

/-- A server that has ended asks, and its groups that were not accepted are forgotten. -/
theorem ServerInv.ask (h : ServerInv cx u chosen groups m st asked) (hexited : m.exited = true)
    (hsending : m.sending = none) :
    ServerInv cx u chosen (groups.filter fun g => g.gtid ∈ acceptedGtids cx.toCodecs chosen) m st
      (some chosen.length) := by
  have haccepted : ∀ g ∈ groups.filter fun g => g.gtid ∈ acceptedGtids cx.toCodecs chosen,
      g.gtid ∈ acceptedGtids cx.toCodecs chosen :=
    fun g hg => of_decide_eq_true (List.mem_filter.mp hg).2
  exact { h with
    live := by
      refine (groupNumbers_isPrefix ?_).trans h.live
      exact filter_isPrefix_of_dropLast fun g hg => decide_eq_true (h.decided g hg)
    running := by simp [hexited]
    older := by
      intro before x hindex k hk
      obtain ⟨g, hg, hgtid, hmem⟩ := h.older before x hindex k hk
      exact ⟨g, List.mem_filter.mpr ⟨hg, decide_eq_true hgtid⟩, hgtid, hmem⟩
    decided := fun g hg => haccepted g (List.mem_of_mem_dropLast hg)
    sending := by simp [hsending]
    idle := by simp [hexited]
    asked := by
      intro c hc
      cases hc
      rw [List.take_length]
      exact ⟨hexited, haccepted⟩ }

end Server

/-! ## The answer -/

section Answer

variable {σ : Cluster} {es : List Entry} {n : Nat}

/-- The accepted events of a server are its groups that were accepted, in their order. -/
theorem CommitInv.ownEvents_eq (h : CommitInv cx σ) (hgroups : ∀ g ∈ σ.flushed, OwnGroup uuid g)
    (hinj : Function.Injective uuid) (hcolon : ∀ n, colon ∉ uuid n) (hes : es <+: σ.chosen) :
    ((accepted cx.toCodecs es).filter fun r => getUUIDByGTID r.gtid = uuid n).map
        (fun r => (r.gtid, r.data)) =
      ((σ.groupsOf n).filter fun g => g.gtid ∈ acceptedGtids cx.toCodecs es).map Group.event := by
  obtain ⟨more, hmore⟩ := hes
  have hfront := accepted_isPrefix_append cx.toCodecs es more
  rw [hmore] at hfront
  -- Both sides are subsequences of the groups that were handed over.
  have hevents := (hfront.sublist.map fun r => (r.gtid, r.data)).trans h.accepted_sublist
  have hleft := ((List.filter_sublist (p := fun r : EventData => getUUIDByGTID r.gtid = uuid n)).map
    fun r => (r.gtid, r.data)).trans hevents
  have hright := ((List.filter_sublist (p := fun g : Group =>
    g.gtid ∈ acceptedGtids cx.toCodecs es)).trans
      (List.filter_sublist (l := σ.flushed) (p := fun g => g.svr = n))).map Group.event
  apply List.Sublist.antisymm
  · apply Sublist.sublist_of_subset h.newGtids.nodup_event hleft hright
    intro x hx
    obtain ⟨r, hr, rfl⟩ := List.mem_map.mp hx
    obtain ⟨hr, huuid⟩ := List.mem_filter.mp hr
    obtain ⟨g, hg, hevent⟩ := List.mem_map.mp (hevents.subset (List.mem_map_of_mem hr))
    have hgtid : g.gtid = r.gtid := congrArg Prod.fst hevent
    have hsvr : g.svr = n := by
      apply hinj
      rw [← (hgroups g hg).uuid_eq (hcolon _), hgtid]
      exact of_decide_eq_true huuid
    refine List.mem_map.mpr ⟨g, List.mem_filter.mpr ⟨?_, decide_eq_true ?_⟩, hevent⟩
    · exact List.mem_filter.mpr ⟨hg, decide_eq_true hsvr⟩
    · rw [hgtid]
      exact List.mem_map_of_mem hr
  · apply Sublist.sublist_of_subset h.newGtids.nodup_event hright hleft
    intro x hx
    obtain ⟨g, hg, rfl⟩ := List.mem_map.mp hx
    obtain ⟨hg, haccepted⟩ := List.mem_filter.mp hg
    obtain ⟨hg, hsvr⟩ := List.mem_filter.mp hg
    obtain ⟨r, hr, hgtid⟩ := List.mem_map.mp (of_decide_eq_true haccepted)
    obtain ⟨g', hg', hevent⟩ := List.mem_map.mp (hevents.subset (List.mem_map_of_mem hr))
    -- A GTID stands for one group.
    have hsame : g' = g := h.newGtids.eq_of_gtid hg' hg ((congrArg Prod.fst hevent).trans hgtid)
    rw [← hsame, hevent]
    refine List.mem_map_of_mem (List.mem_filter.mpr ⟨hr, decide_eq_true ?_⟩)
    rw [hgtid, (hgroups g hg).uuid_eq (hcolon _), of_decide_eq_true hsvr]

/-- What a replica finds in its table. -/
theorem getLastSendGTID_eq (replica : LocalEnv) (es : List Entry) {u : Bytes} (hcolon : colon ∉ u) :
    getLastSendGTID (executeAll cx.toCodecs replica es).2.store u =
      ((accepted cx.toCodecs es).filter fun r => getUUIDByGTID r.gtid = u).getLast?.elim []
        EventData.gtid := by
  have huuid : getUUIDByGTID u = u := by
    rw [getUUIDByGTID, if_neg]
    simpa using hcolon
  have hlast := congrArg (Option.map EventDataInfo.gtid)
    ((@executeAll_agrees cx.toCodecs replica es).table.last u)
  rw [ReplicatedLog.lastOf, Option.map_map, Option.map_map] at hlast
  rw [getLastSendGTID, getLastestGTIDByGTID, huuid, getLastestGTIDByUUID]
  have helim : ∀ {α : Type} (o : Option α) (f : α → Bytes), o.elim [] f = (o.map f).getD [] := by
    intro α o f
    cases o <;> rfl
  rw [helim, helim]
  exact congrArg (Option.getD · []) hlast

/-- If all groups of a server are accepted, the answer is the GTID of its last one. -/
theorem CommitInv.getLastSendGTID_eq (h : CommitInv cx σ)
    (hgroups : ∀ g ∈ σ.flushed, OwnGroup uuid g) (hinj : Function.Injective uuid)
    (hcolon : ∀ n, colon ∉ uuid n) (hes : es <+: σ.chosen)
    (hall : ∀ g ∈ σ.groupsOf n, g.gtid ∈ acceptedGtids cx.toCodecs es) (replica : LocalEnv) :
    getLastSendGTID (executeAll cx.toCodecs replica es).2.store (uuid n) =
      (σ.groupsOf n).getLast?.elim [] Group.gtid := by
  have hown := h.ownEvents_eq (n := n) hgroups hinj hcolon hes
  rw [List.filter_eq_self.mpr fun g hg => decide_eq_true (hall g hg)] at hown
  have hlast := congrArg (fun l => l.getLast?.elim [] Prod.fst) hown
  simp only [List.getLast?_map, Option.elim_map] at hlast
  rw [Commit.getLastSendGTID_eq replica es (hcolon n)]
  exact hlast

/-- The number that the plugin reads from the answer is the last one of the groups. -/
theorem lastKnown_answered {gs : List Group} (hgroups : ∀ g ∈ gs, OwnGroup uuid g)
    (hsvr : ∀ g ∈ gs, g.svr = n) (hcolon : colon ∉ uuid n) (hlong : 1 < (uuid n).length)
    (init : InitEnv) :
    lastKnown (answered init (gs.getLast?.elim [] Group.gtid)) (uuid n) =
      (groupNumbers (uuid n) gs).getLast?.getD 0 := by
  rw [lastKnown, getLastGtidInBinlogsvr, if_neg (Nat.not_le.mpr hlong)]
  rcases List.eq_nil_or_concat' gs with rfl | ⟨first, g, rfl⟩
  · rfl
  · have hown := hgroups g (by simp)
    have hn : g.svr = n := hsvr g (by simp)
    obtain ⟨k, hlast, hk, hgtid⟩ := hown.last
    have hnumbers := hown.numbers_eq
    rw [hn] at hlast hgtid hnumbers
    have hgetLast : (g.numbers (uuid n)).getLast? = some k := by
      rw [hnumbers, List.getLast?_map, hlast]
      rfl
    rw [List.getLast?_concat, groupNumbers_append, groupNumbers_singleton, List.getLast?_append,
      hgetLast]
    simp [answered, hgtid, genGTID_ne_nil, parseGTID_genGTID hcolon hk]

end Answer

/-! ## The start -/

/-- In an increasing row of positive numbers the first ones are those up to the last of them. -/
theorem takeWhile_le_last {first rest : List Nat} (h : (0 :: (first ++ rest)).Pairwise (· < ·)) :
    (first ++ rest).takeWhile (fun k => k ≤ first.getLast?.getD 0) = first := by
  obtain ⟨hpos, hpair⟩ := List.pairwise_cons.mp h
  obtain ⟨hfirst, -, hcross⟩ := List.pairwise_append.mp hpair
  have hle : ∀ k ∈ first, k ≤ first.getLast?.getD 0 := by
    intro k hk
    rcases List.eq_nil_or_concat' first with rfl | ⟨init, l, rfl⟩
    · cases hk
    · rw [List.getLast?_concat, Option.getD_some]
      rcases List.mem_append.mp hk with hk | hk
      · exact ((List.pairwise_append.mp hfirst).2.2 k hk l (List.mem_singleton_self l)).le
      · exact (List.mem_singleton.mp hk).le
  have hlt : ∀ k ∈ rest, first.getLast?.getD 0 < k := by
    intro k hk
    cases hlast : first.getLast? with
    | none => exact hpos k (List.mem_append_right _ hk)
    | some l => exact hcross l (List.mem_of_getLast? hlast) k hk
  rw [List.takeWhile_append_of_pos fun k hk => decide_eq_true (hle k hk)]
  cases rest with
  | nil => exact List.append_nil _
  | cons k rest =>
    have hk := hlt k List.mem_cons_self
    rw [List.takeWhile_cons_of_neg (by simpa using hk), List.append_nil]

section Start

variable {u : Bytes} {chosen : List Entry} {groups : List Group} {m : Mysqld} {st st' : BinlogState}
  {asked : Option Nat} {init : InitEnv}

/-- A binlog with just the transactions of groups that are all accepted. -/
theorem serverInv_of_numbers (hindex : st.index.Nodup)
    (hfiles : ∀ name ∈ st.index, WellFormed (st.files name))
    (hincreasing : (0 :: groupNumbers u groups).Pairwise (· < ·))
    (hnumbers : binlogNumbers u st = groupNumbers u groups)
    (haccepted : ∀ g ∈ groups, g.gtid ∈ acceptedGtids cx.toCodecs chosen) (hidle : m.sending = none) :
    ServerInv cx u chosen groups m st none where
  index := hindex
  files := hfiles
  increasing := hnumbers ▸ hincreasing
  live := by rw [hnumbers]
  running := fun _ => hnumbers
  older := by
    intro before x hsplit k hk
    have hmem : k ∈ binlogNumbers u st := by
      rw [binlogNumbers, hsplit, allEvents_append, gtids_append, numbersOf_append]
      exact List.mem_append_left _ hk
    rw [hnumbers] at hmem
    obtain ⟨g, hg, hkg⟩ := mem_groupNumbers.mp hmem
    exact ⟨g, hg, haccepted g hg, hkg⟩
  decided := fun g hg => haccepted g (List.mem_of_mem_dropLast hg)
  sending := by simp [hidle]
  idle := fun _ _ => haccepted
  asked := by simp

/-- Cutting at the number of the last group leaves the groups. -/
theorem ServerInv.takeWhile_eq (h : ServerInv cx u chosen groups m st asked)
    (hlast : lastKnown init u = (groupNumbers u groups).getLast?.getD 0) :
    (binlogNumbers u st).takeWhile (fun k => k ≤ lastKnown init u) = groupNumbers u groups := by
  obtain ⟨extra, hextra⟩ := h.live
  have hincreasing := h.increasing
  rw [← hextra] at hincreasing ⊢
  rw [hlast]
  exact takeWhile_le_last hincreasing

/-- What is behind the last group is in the newest file. -/
theorem ServerInv.surplusNewest (h : ServerInv cx u chosen groups m st asked)
    (hlast : lastKnown init u = (groupNumbers u groups).getLast?.getD 0) :
    SurplusNewest u (lastKnown init u) { st with lastGtidInBinlog := [] } := by
  intro before x hindex
  rw [hasSurplus_eq_false_iff]
  intro k hk
  obtain ⟨g, hg, -, hmem⟩ := h.older before x hindex k hk
  have hkept : k ∈ (binlogNumbers u st).takeWhile (fun k => k ≤ lastKnown init u) := by
    rw [h.takeWhile_eq hlast]
    exact mem_groupNumbers.mpr ⟨g, hg, hmem⟩
  have hknown := List.mem_takeWhile_imp hkept
  exact of_decide_eq_true hknown

/-- A start that has cut the binlog at the number of the last group. -/
theorem ServerInv.started (h : ServerInv cx u chosen groups m st asked) (hu : u ≠ [])
    (hlast : lastKnown init u = (groupNumbers u groups).getLast?.getD 0)
    (htruncate : truncateWhileInit init u { st with lastGtidInBinlog := [] } = (0, st'))
    (haccepted : ∀ g ∈ groups, g.gtid ∈ acceptedGtids cx.toCodecs chosen) {m' : Mysqld}
    (hidle : m'.sending = none) : ServerInv cx u chosen groups m' st' none := by
  obtain ⟨hsub, hnumbers⟩ := @binlogNumbers_truncateWhileInit u init
    { st with lastGtidInBinlog := [] } st' hu h.index h.files (h.surplusNewest hlast) htruncate
  have hcut := (truncateWhileInit_cut init u { st with lastGtidInBinlog := [] }).1
  rw [htruncate] at hcut
  have hlive : binlogNumbers u st' = groupNumbers u groups := by
    rw [hnumbers]
    exact h.takeWhile_eq hlast
  refine serverInv_of_numbers (h.index.sublist hsub) ?_ ?_ hlive haccepted hidle
  · exact fun name hname => hcut.wellFormed (h.files name (hsub.subset hname))
  · exact h.increasing.sublist (h.live.sublist.cons_cons 0)

/-- A start that has failed: the server is not running, and its binlog may have been cut. -/
theorem ServerInv.aborted (h : ServerInv cx u chosen groups m st asked)
    (hlast : lastKnown init u = (groupNumbers u groups).getLast?.getD 0) {ret : Int}
    (htruncate : truncateWhileInit init u { st with lastGtidInBinlog := [] } = (ret, st'))
    (hret : ret ≠ 0) (hexited : m.exited = true) : ServerInv cx u chosen groups m st' none := by
  have hnewest := h.surplusNewest hlast
  obtain ⟨hcut, hindex⟩ := truncateWhileInit_cut init u { st with lastGtidInBinlog := [] }
  rw [htruncate] at hcut hindex
  have hsame : st'.index = st.index := hindex hret
  -- In both cases the groups are the first transactions.
  have hnumbers : binlogNumbers u st' = binlogNumbers u st ∨
      binlogNumbers u st' = groupNumbers u groups := by
    rw [← h.takeWhile_eq hlast]
    exact binlogNumbers_failed hnewest hsame hcut
  exact {
    index := hsame ▸ h.index
    files := by
      rw [hsame]
      exact fun name hname => hcut.wellFormed (h.files name hname)
    increasing := by
      rcases hnumbers with hnumbers | hnumbers
      · exact hnumbers ▸ h.increasing
      · rw [hnumbers]
        exact h.increasing.sublist (h.live.sublist.cons_cons 0)
    live := by
      rcases hnumbers with hnumbers | hnumbers
      · exact hnumbers ▸ h.live
      · rw [hnumbers]
    running := by simp [hexited]
    older := by
      intro before x hsplit
      rw [hsame] at hsplit
      rw [hnewest.allEvents_eq hcut hsplit]
      exact h.older before x hsplit
    decided := h.decided
    sending := h.sending
    idle := h.idle
    asked := by simp }

end Start

/-! ## All servers -/

variable (cx uuid) in
/-- What holds in every state. -/
structure SiteInv (σ : Site) : Prop where
  commit : CommitInv cx σ.cluster
  groups : ∀ g ∈ σ.cluster.flushed, OwnGroup uuid g
  servers : ∀ n, ServerInv cx (uuid n) σ.cluster.chosen (σ.cluster.groupsOf n) (σ.cluster.mysqld n)
    (σ.binlog n) (σ.asked n)

theorem siteInv_init : SiteInv cx uuid {} where
  commit := commitInv_init
  groups := by simp
  servers := fun n => serverInv_init (uuid n)

/-- What a step that leaves the binlogs does: a server changes its state, nothing changes that the
servers depend on, or an instance is chosen. -/
theorem commitStep_cases {σ c : Cluster} {a : CommitAction} (hleaves : a.leavesBinlog = true)
    (hstep : commitStep cx env uuid σ a = some c) :
    (∃ n m, c = σ.set n m ∧ ((σ.mysqld n).exited = true → m.exited = true) ∧
        ((∃ on, m = { σ.mysqld n with superReadOnly := on }) ∨
          m = { σ.mysqld n with sending := none, exited := true } ∨
          ∃ g ret, (σ.mysqld n).sending = some g ∧ m = (σ.mysqld n).sent g ret)) ∨
      (c.chosen = σ.chosen ∧ c.flushed = σ.flushed ∧ c.mysqld = σ.mysqld) ∨
      ∃ e, c = { σ with chosen := σ.chosen ++ [e] } := by
  have hsent : ∀ {n : Nat} {g : Group} {ret : Int}, (σ.mysqld n).exited = true →
      ((σ.mysqld n).sent g ret).exited = true := by
    intro n g ret hexited
    rw [Mysqld.sent]
    split
    · exact hexited
    · split
      · exact hexited
      · rfl
  cases a with
  | flush n buffer => cases hleaves
  | restart n lastGtid => cases hleaves
  | forget n => cases hleaves
  | setReadOnly n on =>
    cases hstep
    exact .inl ⟨n, _, rfl, id, .inl ⟨on, rfl⟩⟩
  | exit n =>
    cases hstep
    exact .inl ⟨n, _, rfl, fun _ => rfl, .inr (.inl rfl)⟩
  | send n executed now =>
    simp only [commitStep] at hstep
    split at hstep
    · cases hstep
    · rename_i g hsending
      split at hstep
      · cases hstep
        exact .inl ⟨n, _, rfl, hsent, .inr (.inr ⟨g, _, hsending, rfl⟩)⟩
      · cases hstep
        exact .inr (.inl ⟨rfl, rfl, rfl⟩)
  | drop value =>
    cases hstep
    exact .inr (.inl ⟨rfl, rfl, rfl⟩)
  | choose e =>
    simp only [commitStep, Option.ite_none_right_eq_some, Option.some.injEq] at hstep
    exact .inr (.inr ⟨e, hstep.2.symm⟩)
  | answer n i =>
    simp only [commitStep] at hstep
    split at hstep
    · rename_i g e hsending he
      simp only [Option.ite_none_right_eq_some, Option.some.injEq] at hstep
      exact .inl ⟨n, _, hstep.2.symm, hsent, .inr (.inr ⟨g, _, hsending, rfl⟩)⟩
    · cases hstep
  | fail n ret =>
    simp only [commitStep] at hstep
    split at hstep
    · rename_i g hsending
      simp only [Option.ite_none_right_eq_some, Option.some.injEq] at hstep
      exact .inl ⟨n, _, hstep.2.symm, hsent, .inr (.inr ⟨g, _, hsending, rfl⟩)⟩
    · cases hstep

/-- One server, its binlog and what it has asked change. -/
theorem servers_update {σ : Site} {chosen : List Entry} {flushed : List Group} {m : Mysqld}
    {st : BinlogState} {asked : Option Nat} {n : Nat}
    (h : ∀ k, k ≠ n → ServerInv cx (uuid k) chosen (flushed.filter fun g => g.svr = k)
      (σ.cluster.mysqld k) (σ.binlog k) (σ.asked k))
    (hn : ServerInv cx (uuid n) chosen (flushed.filter fun g => g.svr = n) m st asked) (k : Nat) :
    ServerInv cx (uuid k) chosen (flushed.filter fun g => g.svr = k)
      (Function.update σ.cluster.mysqld n m k) (Function.update σ.binlog n st k)
      (Function.update σ.asked n asked k) := by
  by_cases hk : k = n
  · subst hk
    rwa [Function.update_self, Function.update_self, Function.update_self]
  · rw [Function.update_of_ne hk, Function.update_of_ne hk, Function.update_of_ne hk]
    exact h k hk

theorem SiteInv.commitStep {σ : Site} {c : Cluster} {a : CommitAction} (h : SiteInv cx uuid σ)
    (hfresh : Fresh cx uuid σ.cluster a) (hleaves : a.leavesBinlog = true)
    (hstep : commitStep cx env uuid σ.cluster a = some c) :
    SiteInv cx uuid { σ with cluster := c } := by
  have hcommit := h.commit.step hfresh hstep
  rcases commitStep_cases hleaves hstep with ⟨n, m, rfl, hexited, hm⟩ | ⟨hchosen, hflushed, hmysqld⟩ |
    ⟨e, rfl⟩
  · refine ⟨hcommit, h.groups, ?_⟩
    have hn : ServerInv cx (uuid n) σ.cluster.chosen (σ.cluster.groupsOf n) m (σ.binlog n)
        (σ.asked n) := by
      rcases hm with ⟨on, rfl⟩ | rfl | ⟨g, ret, hsending, rfl⟩
      · exact (h.servers n).setMysqld hexited (fun g hg => hg) (h.servers n).idle
      · exact (h.servers n).setMysqld hexited (by simp) (by simp)
      · refine (h.servers n).sent hsending fun g' hg' => hcommit.acked n g' ?_
        simpa [Cluster.set] using hg'
    intro k
    have hk := servers_update (fun k _ => h.servers k) hn k
    rwa [Function.update_eq_self, Function.update_eq_self] at hk
  · refine ⟨hcommit, hflushed ▸ h.groups, ?_⟩
    intro n
    simp only [Cluster.groupsOf, hchosen, hflushed, hmysqld]
    exact h.servers n
  · exact ⟨hcommit, h.groups, fun n => (h.servers n).choose [e]⟩

theorem filter_svr_concat {flushed : List Group} {g : Group} {k : Nat} (hk : g.svr ≠ k) :
    (flushed ++ [g]).filter (fun g => g.svr = k) = flushed.filter fun g => g.svr = k := by
  rw [List.filter_append, List.filter_cons_of_neg (by simpa using hk), List.filter_nil,
    List.append_nil]

theorem SiteInv.flush {σ : Site} {c : Cluster} {n : Nat} {buffer : Bytes}
    {events : List BinlogEvent} {st : BinlogState} (h : SiteInv cx uuid σ) (huuid : uuid n ≠ [])
    (hfresh : Fresh cx uuid σ.cluster (.flush n buffer))
    (hassigned : Assigned (uuid n) (σ.cluster.mysqld n).superReadOnly (σ.binlog n) buffer events)
    (hstep : Commit.commitStep cx env uuid σ.cluster (.flush n buffer) = some c)
    (hwrite : writeEvents (σ.binlog n) events = some st) :
    SiteInv cx uuid { σ with cluster := c, binlog := Function.update σ.binlog n st } := by
  have hcommit := h.commit.step hfresh hstep
  simp only [Commit.commitStep, Option.ite_none_left_eq_some, not_or, Option.some.injEq] at hstep
  obtain ⟨⟨hrunning, hidle⟩, rfl⟩ := hstep
  rw [Bool.not_eq_true] at hrunning
  rw [Option.not_isSome_iff_eq_none] at hidle
  rcases afterFlush_assigned hassigned hidle huuid with ⟨hnone, hnumbers, -⟩ |
    ⟨g, hsend, hsvr, hown, hnumbers⟩
  · -- Nothing is handed over.
    rw [hnone, Option.toList_none, List.append_nil] at hcommit ⊢
    refine ⟨hcommit, h.groups, ?_⟩
    have hn := (h.servers n).writeOther hwrite hrunning hidle hnone hnumbers
    intro k
    have hk := servers_update (fun k _ => h.servers k) hn k
    rwa [Function.update_eq_self] at hk
  · rw [hsend, Option.toList_some] at hcommit ⊢
    refine ⟨hcommit, ?_, ?_⟩
    · intro g' hg'
      rcases List.mem_append.mp hg' with hg' | hg'
      · exact h.groups g' hg'
      · rw [List.mem_singleton.mp hg']
        exact hown
    · have hn := (h.servers n).writeGroup hwrite hrunning hidle hnumbers hassigned.2.2.2
      have hgroups : (σ.cluster.flushed ++ [g]).filter (fun g => g.svr = n) =
          σ.cluster.groupsOf n ++ [g] := by
        rw [List.filter_append, List.filter_cons_of_pos (by simpa using hsvr), List.filter_nil]
        rfl
      rw [← hgroups] at hn
      have hothers : ∀ k, k ≠ n → ServerInv cx (uuid k) σ.cluster.chosen
          ((σ.cluster.flushed ++ [g]).filter fun g => g.svr = k) (σ.cluster.mysqld k) (σ.binlog k)
          (σ.asked k) := by
        intro k hk
        rw [filter_svr_concat (hsvr.trans_ne (Ne.symm hk))]
        exact h.servers k
      intro k
      have hk := servers_update hothers hn k
      rwa [Function.update_eq_self] at hk

theorem SiteInv.rotate {σ : Site} {n : Nat} {name : Bytes} {st : BinlogState}
    (h : SiteInv cx uuid σ) (hrunning : (σ.cluster.mysqld n).exited = false)
    (hidle : (σ.cluster.mysqld n).sending = none) (hopen : openFile (σ.binlog n) name = some st) :
    SiteInv cx uuid { σ with binlog := Function.update σ.binlog n st } := by
  refine ⟨h.commit, h.groups, ?_⟩
  intro k
  have hk := servers_update (fun k _ => h.servers k) ((h.servers n).openFile hopen hrunning hidle) k
  rwa [Function.update_eq_self, Function.update_eq_self] at hk

theorem SiteInv.ask {σ : Site} {n : Nat} (h : SiteInv cx uuid σ)
    (hfresh : Fresh cx uuid σ.cluster (.forget n)) (hexited : (σ.cluster.mysqld n).exited = true) :
    SiteInv cx uuid { σ with
      cluster := { σ.cluster with
        flushed := σ.cluster.flushed.filter fun g =>
          g.svr ≠ n ∨ g.gtid ∈ acceptedGtids cx.toCodecs σ.cluster.chosen }
      asked := Function.update σ.asked n (some σ.cluster.chosen.length) } := by
  refine ⟨h.commit.forget hfresh, fun g hg => h.groups g (List.mem_of_mem_filter hg), ?_⟩
  -- The groups of the server that are left are those that were accepted.
  have hown : (σ.cluster.flushed.filter fun g =>
      g.svr ≠ n ∨ g.gtid ∈ acceptedGtids cx.toCodecs σ.cluster.chosen).filter (fun g => g.svr = n) =
        (σ.cluster.groupsOf n).filter fun g =>
          g.gtid ∈ acceptedGtids cx.toCodecs σ.cluster.chosen := by
    rw [Cluster.groupsOf, List.filter_filter, List.filter_filter]
    apply List.filter_congr
    intro g _
    by_cases hsvr : g.svr = n
    · simp [hsvr]
    · simp [hsvr]
  have hothers : ∀ k, k ≠ n → ServerInv cx (uuid k) σ.cluster.chosen
      ((σ.cluster.flushed.filter fun g =>
        g.svr ≠ n ∨ g.gtid ∈ acceptedGtids cx.toCodecs σ.cluster.chosen).filter fun g => g.svr = k)
      (σ.cluster.mysqld k) (σ.binlog k) (σ.asked k) := by
    intro k hk
    rw [List.filter_filter, List.filter_congr (q := fun g => g.svr = k)]
    · exact h.servers k
    · intro g _
      by_cases hsvr : g.svr = k
      · simp [hsvr, hk]
      · simp [hsvr]
  have hn := (h.servers n).ask hexited hfresh.1
  rw [← hown] at hn
  intro k
  have hk := servers_update hothers hn k
  rwa [Function.update_eq_self, Function.update_eq_self] at hk

/-- Whichever node answers, it has executed the empty value, which was chosen after the server had
asked; so the answer is the last group of the server. -/
theorem SiteInv.lastKnown_eq {σ : Site} {n own i executed asked : Nat} {gtid : Bytes}
    (h : SiteInv cx uuid σ) (hinj : Function.Injective uuid)
    (huuid : ∀ n, colon ∉ uuid n ∧ 1 < (uuid n).length) (hasked : σ.asked n = some asked)
    (hanswer : realGetLastSendGTID cx env own σ.cluster.chosen i executed (uuid n) = some gtid)
    (hafter : ¬ i < asked) (init : InitEnv) :
    lastKnown (answered init gtid) (uuid n) =
      (groupNumbers (uuid n) (σ.cluster.groupsOf n)).getLast?.getD 0 := by
  simp only [realGetLastSendGTID] at hanswer
  split at hanswer
  · simp only [Option.ite_none_right_eq_some, Option.some.injEq] at hanswer
    obtain ⟨⟨-, -, -, hexecuted⟩, rfl⟩ := hanswer
    have hall : ∀ g ∈ σ.cluster.groupsOf n,
        g.gtid ∈ acceptedGtids cx.toCodecs (σ.cluster.chosen.take executed) := by
      intro g hg
      have hmem := ((h.servers n).asked asked hasked).2 g hg
      -- What was chosen when the server asked comes before the empty value.
      have hfront : σ.cluster.chosen.take asked <+: σ.cluster.chosen.take executed := by
        have htake := List.take_prefix asked (σ.cluster.chosen.take executed)
        rwa [List.take_take, Nat.min_eq_left (by omega)] at htake
      obtain ⟨more, hmore⟩ := hfront
      rw [← hmore]
      exact acceptedGtids_subset_append cx.toCodecs _ more hmem
    have hes := List.take_prefix executed σ.cluster.chosen
    rw [h.commit.getLastSendGTID_eq h.groups hinj (fun k => (huuid k).1) hes hall]
    refine lastKnown_answered ?_ ?_ (huuid n).1 (huuid n).2 init
    · exact fun g hg => h.groups g (List.mem_of_mem_filter hg)
    · exact fun g hg => of_decide_eq_true (List.mem_filter.mp hg).2
  · cases hanswer

theorem SiteInv.start {σ σ' : Site} {n own i executed : Nat} {init : InitEnv}
    (h : SiteInv cx uuid σ) (hinj : Function.Injective uuid)
    (huuid : ∀ n, colon ∉ uuid n ∧ 1 < (uuid n).length)
    (hstep : siteStep cx env uuid σ (.start n own i executed init) = some σ') :
    SiteInv cx uuid σ' := by
  simp only [siteStep] at hstep
  split at hstep
  · rename_i asked gtid hasked hanswer
    have hserver := h.servers n
    obtain ⟨hexited, hchosen⟩ := hserver.asked asked hasked
    have haccepted : ∀ g ∈ σ.cluster.groupsOf n,
        g.gtid ∈ acceptedGtids cx.toCodecs σ.cluster.chosen := by
      intro g hg
      have hmem := acceptedGtids_subset_append cx.toCodecs (σ.cluster.chosen.take asked)
        (σ.cluster.chosen.drop asked) (hchosen g hg)
      rwa [List.take_append_drop] at hmem
    simp only [Option.ite_none_left_eq_some] at hstep
    obtain ⟨hafter, hstep⟩ := hstep
    have hlast := h.lastKnown_eq hinj huuid hasked hanswer hafter init
    have hne : uuid n ≠ [] := List.ne_nil_of_length_pos (by have := (huuid n).2; omega)
    cases htruncate : truncateWhileInit (answered init gtid) (uuid n)
        { σ.binlog n with lastGtidInBinlog := [] } with
    | mk ret st =>
      rw [htruncate] at hstep
      by_cases hret : ret = 0
      · subst hret
        simp only [if_true, Commit.commitStep, Option.map_some, Option.some.injEq] at hstep
        subst hstep
        refine ⟨h.commit.idle n rfl rfl, h.groups, ?_⟩
        exact servers_update (fun k _ => h.servers k)
          (hserver.started hne hlast htruncate haccepted rfl)
      · simp only [if_neg hret, Option.some.injEq] at hstep
        subst hstep
        refine ⟨h.commit, h.groups, ?_⟩
        intro k
        have hk := servers_update (fun k _ => h.servers k)
          (hserver.aborted hlast htruncate hret hexited) k
        rwa [Function.update_eq_self] at hk
  · cases hstep

theorem SiteInv.step {σ σ' : Site} {a : SiteAction} (h : SiteInv cx uuid σ)
    (hinj : Function.Injective uuid) (huuid : ∀ n, colon ∉ uuid n ∧ 1 < (uuid n).length)
    (horderly : Orderly cx uuid σ a) (hstep : siteStep cx env uuid σ a = some σ') :
    SiteInv cx uuid σ' := by
  cases a with
  | commit a =>
    simp only [siteStep, Option.ite_none_right_eq_some] at hstep
    obtain ⟨hleaves, hstep⟩ := hstep
    obtain ⟨c, hc, rfl⟩ := Option.map_eq_some_iff.mp hstep
    exact h.commitStep horderly hleaves hc
  | flush n buffer events =>
    simp only [siteStep] at hstep
    split at hstep
    · rename_i c st hc hwrite
      cases hstep
      have hne : uuid n ≠ [] := List.ne_nil_of_length_pos (by have := (huuid n).2; omega)
      exact h.flush hne horderly.1 horderly.2 hc hwrite
    · cases hstep
  | rotate n name =>
    simp only [siteStep, Option.ite_none_left_eq_some, not_or] at hstep
    obtain ⟨⟨hrunning, hidle⟩, hstep⟩ := hstep
    obtain ⟨st, hopen, rfl⟩ := Option.map_eq_some_iff.mp hstep
    exact h.rotate (Bool.not_eq_true _ ▸ hrunning) (Option.not_isSome_iff_eq_none.mp hidle) hopen
  | ask n =>
    simp only [siteStep, Option.ite_none_right_eq_some] at hstep
    obtain ⟨hexited, hstep⟩ := hstep
    cases hstep
    exact h.ask horderly hexited
  | start n own i executed init => exact h.start hinj huuid hstep

theorem siteInv_of_reachable (hinj : Function.Injective uuid)
    (huuid : ∀ n, colon ∉ uuid n ∧ 1 < (uuid n).length) {σ : Site}
    (h : Transition.ReachableBy (siteSystem cx env uuid) (Orderly cx uuid) σ) :
    SiteInv cx uuid σ :=
  h.invariant siteInv_init fun _ _ _ hinv hok hs => hinv.step hinj huuid hok hs

/-! ## What is stored -/

/-- The transactions of a UUID that a replica stores of the chosen instances. -/
def storedNumbers (cx : Codecs) (replica : LocalEnv) (chosen : List Entry) (u : Bytes) : List Nat :=
  (storedGroups cx replica chosen).flatMap fun e => numbersOf u (bufferGtids e.2)

/-- Elements that contribute nothing can be left out. -/
theorem flatMap_filter_of_nil {α β : Type} {p : α → Bool} {f : α → List β} {l : List α}
    (h : ∀ a ∈ l, p a = false → f a = []) : (l.filter p).flatMap f = l.flatMap f := by
  induction l with
  | nil => rfl
  | cons a l ih =>
    have hl := ih fun b hb => h b (List.mem_cons_of_mem _ hb)
    cases hp : p a with
    | true => rw [List.filter_cons_of_pos hp, List.flatMap_cons, List.flatMap_cons, hl]
    | false =>
      rw [List.filter_cons_of_neg (by simp [hp]), List.flatMap_cons, h a List.mem_cons_self hp, hl]
      rfl

/-- The stored transactions of a server are those of its groups that were accepted. -/
theorem SiteInv.storedNumbers_eq {σ : Site} (h : SiteInv cx uuid σ) (hinj : Function.Injective uuid)
    (hcolon : ∀ n, colon ∉ uuid n) (replica : LocalEnv) (n : Nat) :
    storedNumbers cx.toCodecs replica σ.cluster.chosen (uuid n) =
      groupNumbers (uuid n) ((σ.cluster.groupsOf n).filter fun g =>
        g.gtid ∈ acceptedGtids cx.toCodecs σ.cluster.chosen) := by
  have hown := h.commit.ownEvents_eq (n := n) h.groups hinj hcolon List.prefix_rfl
  have hnumbers := congrArg
    (fun events => events.flatMap fun e => numbersOf (uuid n) (bufferGtids e.2)) hown
  simp only [List.flatMap_map] at hnumbers
  rw [storedNumbers, storedGroups, h.commit.storedEvents_eq replica, List.flatMap_map]
  refine Eq.trans (Eq.symm (flatMap_filter_of_nil ?_)) hnumbers
  -- An event of another UUID is a group of another server.
  intro r hr hother
  obtain ⟨g, hg, hevent⟩ := List.mem_map.mp
    (h.commit.accepted_sublist.subset (List.mem_map_of_mem hr))
  have hgtid : g.gtid = r.gtid := congrArg Prod.fst hevent
  have hbuffer : g.buffer = r.data := congrArg Prod.snd hevent
  have hne : uuid g.svr ≠ uuid n := by
    rw [← (h.groups g hg).uuid_eq (hcolon _), hgtid]
    exact of_decide_eq_false hother
  rw [← hbuffer]
  exact (h.groups g hg).numbers_eq_nil hne

/-- A server's own transactions that a replica stores are the first ones in its binlog. The binlog
has no transaction twice, and while the server runs and has no group without an answer, it has no
others than the stored ones. -/
theorem binlog_follows_log (cx : SendCodecs) (env : Nat → LocalEnv) (uuid : Nat → Bytes)
    (hinj : Function.Injective uuid) (huuid : ∀ n, colon ∉ uuid n ∧ 1 < (uuid n).length) (σ : Site)
    (h : Transition.ReachableBy (siteSystem cx env uuid) (Orderly cx uuid) σ) (replica : LocalEnv)
    (n : Nat) :
    storedNumbers cx.toCodecs replica σ.cluster.chosen (uuid n) <+:
        binlogNumbers (uuid n) (σ.binlog n) ∧
      (binlogNumbers (uuid n) (σ.binlog n)).Pairwise (· < ·) ∧
      ((σ.cluster.mysqld n).exited = false → (σ.cluster.mysqld n).sending = none →
        binlogNumbers (uuid n) (σ.binlog n) =
          storedNumbers cx.toCodecs replica σ.cluster.chosen (uuid n)) := by
  have hinv : SiteInv cx uuid σ := siteInv_of_reachable hinj huuid h
  have hserver := hinv.servers n
  rw [hinv.storedNumbers_eq hinj (fun k => (huuid k).1) replica n]
  refine ⟨?_, (List.pairwise_cons.mp hserver.increasing).2, ?_⟩
  · refine (groupNumbers_isPrefix ?_).trans hserver.live
    exact filter_isPrefix_of_dropLast fun g hg => decide_eq_true (hserver.decided g hg)
  · intro hrunning hidle
    rw [List.filter_eq_self.mpr fun g hg => decide_eq_true (hserver.idle hrunning hidle g hg)]
    exact hserver.running hrunning

/-! ### A group that is lost -/

/-- The UUID of the groups of the server 7. -/
def groupUuid : Bytes :=
  genUUID (List.replicate 16 7)

def serverUuids (n : Nat) : Bytes :=
  groupUuid ++ List.replicate (if n = 7 then 0 else n + 1) 48

theorem serverUuids_injective : Function.Injective serverUuids := by
  intro a b h
  have hlength := congrArg List.length h
  simp only [serverUuids, List.length_append, List.length_replicate] at hlength
  split at hlength <;> split at hlength <;> omega

theorem serverUuids_valid (n : Nat) : colon ∉ serverUuids n ∧ 1 < (serverUuids n).length := by
  refine ⟨?_, ?_⟩
  · rw [serverUuids, List.mem_append, List.mem_replicate]
    rintro (hmem | ⟨-, heq⟩)
    · exact colon_not_mem_genUUID _ hmem
    · exact absurd heq (by decide)
  · have hbase : groupUuid.length = 36 := by decide
    rw [serverUuids, List.length_append, hbase]
    omega

def flushEntry : Entry where
  instanceId := 2
  sm := .event
  value := match flushData wireSendCodecs 7 with
    | .ok value => value
    | .error _ => []

/-- The first group is committed. The second one is in the binlog when the server ends, and its
proposal comes to nothing; it is cut off, and its number is assigned again. -/
def lostGroupRun : List SiteAction :=
  let second := groupEntry 3 (groupGtid 1) 2 (getCheckSum 0 (groupBytes 1))
  [.commit (.choose masterEntry), .rotate 7 [49], .commit (.setReadOnly 7 false),
    .flush 7 (groupBytes 1) [.gtid groupUuid 1], .commit (.send 7 1 1467000000),
    .commit (.choose (groupEntry 1 [] 1 0)), .commit (.answer 7 1),
    .flush 7 (groupBytes 2) [.gtid groupUuid 2], .commit (.send 7 2 1467000000), .commit (.exit 7),
    .commit (.drop second.value), .ask 7, .commit (.choose flushEntry), .start 7 7 2 3 {},
    .rotate 7 [50], .commit (.setReadOnly 7 false), .flush 7 (groupBytes 2) [.gtid groupUuid 2],
    .commit (.send 7 3 1467000000), .commit (.choose second), .commit (.answer 7 3)]

def lostGroupState (steps : Nat) : Option Site :=
  Transition.checkedRun (siteSystem wireSendCodecs (fun _ => resendEnv) serverUuids)
    (Orderly wireSendCodecs serverUuids) {} (lostGroupRun.take steps)

theorem binlog_follows_log_lostGroup :
    ∃ σ, lostGroupState 20 = some σ ∧
      binlogNumbers (serverUuids 7) (σ.binlog 7) = [1, 2] ∧
      storedNumbers wireCodecs resendEnv σ.cluster.chosen (serverUuids 7) = [1, 2] := by
  have hrun : (lostGroupState 20).map (fun σ =>
      (binlogNumbers (serverUuids 7) (σ.binlog 7), (σ.cluster.mysqld 7).exited,
        (σ.cluster.mysqld 7).sending)) = some ([1, 2], false, none) := by
    decide +kernel
  obtain ⟨σ, hσ, hvalues⟩ := Option.map_eq_some_iff.mp hrun
  obtain ⟨hbinlog, hserver⟩ := Prod.mk.inj hvalues
  obtain ⟨hrunning, hidle⟩ := Prod.mk.inj hserver
  refine ⟨σ, hσ, hbinlog, ?_⟩
  have hreach := Transition.ReachableBy.checkedRun (lostGroupRun.take 20) .init hσ
  have hsame := (binlog_follows_log _ _ _ serverUuids_injective serverUuids_valid σ hreach resendEnv
    7).2.2 hrunning hidle
  rw [← hbinlog, hsame]
  rfl

-- Before and after the start.
example : ((lostGroupState 12).map fun σ => binlogNumbers (serverUuids 7) (σ.binlog 7)) = some [1, 2] ∧
    ((lostGroupState 14).map fun σ => binlogNumbers (serverUuids 7) (σ.binlog 7)) = some [1] := by
  decide +kernel

end PhxSql.Commit
