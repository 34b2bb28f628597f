import PhxSql.Master.MasterLog

/-!
# How the records move along the log

The log only grows, and the record of a node that does not restart moves from a point of the log to
the same or a later point (`LogInv.moves`). A version belongs to one record of the log.
-/

set_option autoImplicit false

namespace PhxSql.Master

open PhxSql.Proto PhxSql.Lib.Transition

variable {cfg : Config}

/-- One version is that of one record. -/
theorem BuiltLog.eq_of_version {log L L' : List Instance} (h : BuiltLog log) (hL : L <+: log)
    (hL' : L' <+: log) (hver : (logState L).version = (logState L').version) :
    logState L = logState L' := by
  rcases List.prefix_or_prefix_of_prefix hL hL' with hle | hle
  · exact ((h.of_prefix hL').eq_or_version_lt hle).resolve_right
      (Nat.not_lt.mpr (Nat.le_of_eq hver.symm))
  · exact (((h.of_prefix hL).eq_or_version_lt hle).resolve_right
      (Nat.not_lt.mpr (Nat.le_of_eq hver))).symm

/-- The log only grows. -/
theorem log_prefix_of_step {c c' : Cluster} {a : Action} (h : step cfg c a = some c') :
    c.log <+: c'.log := by
  cases trans_of_step h with
  | choose p hget hfresh => exact List.prefix_append ..
  | chooseEvent hfresh => exact List.prefix_append ..
  | tick d => exact List.prefix_rfl
  | request r _ _ _ _ _ => exact List.prefix_rfl
  | leaseCheck r _ _ => exact List.prefix_rfl
  | send r _ _ => exact List.prefix_rfl
  | checkIsMaster => exact List.prefix_rfl
  | notify n => exact List.prefix_rfl
  | execute e _ _ => exact List.prefix_rfl
  | writeHeader _ => exact List.prefix_rfl
  | restart hd _ _ => exact List.prefix_rfl

/-- The record `m'` is that of the point of `m` or of a later one. -/
def Moves (log : List Instance) (m m' : MasterInfo) : Prop :=
  ∃ L L', L <+: L' ∧ L' <+: log ∧ erase m = logState L ∧ erase m' = logState L'

theorem Holds.moves_refl {log log' : List Instance} {m : MasterInfo} {k : Nat}
    (h : Holds log m k) (hle : log <+: log') : Moves log' m m := by
  obtain ⟨L, hL, -, hm⟩ := h
  exact ⟨L, L, List.prefix_rfl, hL.trans hle, hm, hm⟩

theorem Moves.version_le {log : List Instance} (hlog : BuiltLog log) {m m' : MasterInfo}
    (h : Moves log m m') : m.version ≤ m'.version := by
  obtain ⟨L, L', hle, hL', hm, hm'⟩ := h
  rw [← erase_version m, ← erase_version m', hm, hm']
  exact (hlog.of_prefix hL').version_mono hle

theorem Moves.userinfo {log : List Instance} (hlog : BuiltLog log) {m m' : MasterInfo}
    (h : Moves log m m') :
    m.adminUserinfo <+: m'.adminUserinfo ∧ m.replicaUserinfo <+: m'.replicaUserinfo := by
  obtain ⟨L, L', hle, hL', hm, hm'⟩ := h
  rw [← erase_adminUserinfo m, ← erase_adminUserinfo m', ← erase_replicaUserinfo m,
    ← erase_replicaUserinfo m', hm, hm']
  exact (hlog.of_prefix hL').userinfo_mono hle

/-- Executing the next entry moves the record on. -/
theorem Holds.moves_execute {log : List Instance} {m : MasterInfo} {k : Nat} {e : Instance}
    (hlog : BuiltLog log) (h : Holds log m k) (hget : log[k]? = some e) (now rand own : Nat) :
    Moves log m (executeInstance now rand own e m).2 := by
  obtain ⟨L, hL, hlen, hm⟩ := h
  have hexec := erase_executeInstance now rand own e hm
  rcases Nat.lt_or_eq_of_le hlen with hlt | rfl
  · -- The node has executed this entry before.
    have hmem : e ∈ L := by
      obtain ⟨t, rfl⟩ := hL
      rw [List.getElem?_append_left hlt] at hget
      exact List.mem_of_getElem? hget
    have hsame := logStep_of_not_accepted ((hlog.of_prefix hL).not_accepted_again hmem)
    exact ⟨L, L, List.prefix_rfl, hL, hm, hexec.trans hsame⟩
  · refine ⟨L, L ++ [e], List.prefix_append .., prefix_concat_of_getElem? hL hget, hm, ?_⟩
    rw [hexec, logState_concat]

/-- The node that an action restarts. -/
def Action.restarted : Action → Option Nat
  | .restart n _ _ => some n
  | _ => none

/-- A step moves the record of every node on, except that of a node it restarts. -/
theorem LogInv.moves {c c' : Cluster} (h : LogInv c) {a : Action}
    (hs : step cfg c a = some c') {n : Nat} (hn : a.restarted ≠ some n) :
    Moves c'.log (c.nodes n).master (c'.nodes n).master := by
  have hstay := (h.nodes n).moves_refl (log_prefix_of_step hs)
  cases trans_of_step hs with
  | @execute m rand e hget _ =>
    rcases eq_or_ne n m with rfl | hne
    · simp only [Function.update_self]
      exact (h.nodes n).moves_execute h.built hget ..
    · simp only [Function.update_of_ne hne]
      exact hstay
  | @restart m i rand hd _ _ =>
    rcases eq_or_ne n m with rfl | hne
    · exact absurd rfl hn
    · simp only [Function.update_of_ne hne]
      exact hstay
  | tick d => exact hstay
  | request r _ _ _ _ _ => exact hstay
  | leaseCheck r _ _ => exact hstay
  | send r _ _ => exact hstay
  | checkIsMaster => exact hstay
  | notify n => exact hstay
  | choose p _ _ => exact hstay
  | chooseEvent _ => exact hstay
  | writeHeader _ => exact hstay

end PhxSql.Master
