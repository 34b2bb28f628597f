import Mathlib.Logic.Function.Basic
import PhxSql.Gtid.GtidHandler

/-!
# Truncation of the MySQL binlog at startup

When MySQL starts, the plugin asks phxbinlogsvr for the last GTID of the server's own UUID and cuts
the binlog files off at the first transaction of that UUID with a larger number.
`BinlogGtidState::truncate_while_init` finds the newest file with a GTID event, truncates from there
on, and if no GTID event is left in what it has read, it goes back to the newest file that still has
one.

A file is the list of its events. The outcomes of system calls are given by `InitEnv`: each call of
`truncate_one` can fail to open the file and can fail to truncate it.
-/

set_option autoImplicit false

namespace PhxSql.Binlog

open PhxSql.Proto PhxSql.Gtid

inductive BinlogEvent
  | formatDescription
  | previousGtids
  | gtid (sid : Bytes) (gno : Nat)
  | other (data : Bytes)
  deriving DecidableEq, Repr

/-- The files by name, the names in the index file, and `m_last_gtid_in_binlog`. -/
structure BinlogState where
  files : Bytes → List BinlogEvent
  index : List Bytes
  lastGtidInBinlog : Bytes := []

/-- The outcome of the system calls of one `truncate_one`. -/
structure FileIo where
  opened : Bool := true
  truncated : Bool := true

/-- What the environment answers: whether the UUID can be parsed, the code and the last number from
phxbinlogsvr, and the outcomes of the system calls. -/
structure InitEnv where
  sidParses : Bool := true
  answerRet : Nat := 0
  answer : Option Nat := none
  listOk : Bool := true
  firstPass : Nat → FileIo := fun _ => {}
  secondPass : FileIo := {}
  indexOk : Bool := true

/-- A GTID event. -/
def BinlogEvent.isGtid : BinlogEvent → Bool
  | .gtid _ _ => true
  | _ => false

/-- `BinlogGtidState::is_gtid_in_binlog_file`: a `Previous_gtids` event and a GTID event after it.
-/
def isGtidInBinlogFile (events : List BinlogEvent) : Bool :=
  (events.dropWhile fun e => e ≠ .previousGtids).any BinlogEvent.isGtid

/-- The event loop of `truncate_one`: the events before the first GTID event of the UUID with a
number from `gno` on, whether there is one, and the last GTID before it. -/
def scanEvents (uuid : Bytes) (gno : Nat) :
    List BinlogEvent → Bytes → List BinlogEvent × Bool × Bytes
  | [], last => ([], false, last)
  | .gtid sid n :: events, last =>
    if sid = uuid ∧ gno ≤ n then ([], true, last)
    else
      let rest := scanEvents uuid gno events (genGTID sid n)
      (.gtid sid n :: rest.1, rest.2)
  | e :: events, last =>
    let rest := scanEvents uuid gno events last
    (e :: rest.1, rest.2)

/-- `BinlogGtidState::truncate_one`: 1 where the file is left as it is, 0 where it was truncated. -/
def truncateOne (uuid : Bytes) (gno : Nat) (io : FileIo) (name : Bytes) (st : BinlogState) :
    Int × BinlogState :=
  if io.opened = false then (-1, st)
  else
    let scan := scanEvents uuid gno (st.files name) st.lastGtidInBinlog
    let st := { st with lastGtidInBinlog := scan.2.2 }
    if scan.2.1 = false then (1, st)
    else if io.truncated then (0, { st with files := Function.update st.files name scan.1 })
    else (-1, st)

/-- The last name of a list for which `p` holds, with the names before and after it. -/
def splitAtLast (p : Bytes → Bool) : List Bytes → Option (List Bytes × Bytes × List Bytes)
  | [] => none
  | name :: names =>
    match splitAtLast p names with
    | some (before, found, after) => some (name :: before, found, after)
    | none => if p name then some ([], name, names) else none

/-- The first loop of `truncate_by_gtid`, from a file on: the code of the last `truncate_one` and
the names that were pushed. `ret` is the code before it. -/
def truncateLoop (uuid : Bytes) (gno : Nat) (io : Nat → FileIo) :
    List Bytes → Int → BinlogState → Int × List Bytes × BinlogState
  | [], ret, st => (ret, [], st)
  | name :: names, _, st =>
    let one := truncateOne uuid gno (io 0) name st
    if one.1 ≤ 0 then (one.1, [name], one.2)
    else
      let rest := truncateLoop uuid gno (fun i => io (i + 1)) names one.1 one.2
      (rest.1, name :: rest.2.1, rest.2.2)

/-- The second pass of `truncate_by_gtid`, made where no GTID was seen. The code of `truncate_one`
is not looked at. -/
def secondPass (uuid : Bytes) (gno : Nat) (io : FileIo) (names : List Bytes) (st : BinlogState) :
    BinlogState :=
  if st.lastGtidInBinlog = [] then
    match splitAtLast (fun name => isGtidInBinlogFile (st.files name)) names with
    | none => st
    | some (_, name, _) => (truncateOne uuid gno io name st).2
  else st

/-- `BinlogGtidState::truncate_by_gtid`: the code, the new list of names and the state. -/
def truncateByGtid (env : InitEnv) (uuid : Bytes) (gno : Nat) (before : List Bytes)
    (names : List Bytes) (st : BinlogState) : Int × List Bytes × BinlogState :=
  let loop := truncateLoop uuid gno env.firstPass names 0 st
  let newNames := before ++ loop.2.1
  (if 0 ≤ loop.1 then 0 else loop.1, newNames, secondPass uuid gno env.secondPass newNames loop.2.2)

/-- `BinlogGtidState::get_last_gtid_in_binlogsvr`: the code and the last number of the UUID. -/
def getLastGtidInBinlogsvr (env : InitEnv) (uuid : Bytes) : Nat × Option Nat :=
  if uuid.length ≤ 1 then (0, none) else (env.answerRet, env.answer)

/-- The number `truncate_while_init` truncates from: 1 where no GTID of the UUID is known, otherwise
the number after the last one. `Gtid::parse` takes numbers from 1 to below the largest `longlong`.
-/
def firstSurplus (env : InitEnv) (last : Option Nat) : Option Nat :=
  if env.sidParses = false then none
  else
    match last with
    | none => some 1
    | some last => if 0 < last ∧ last < 2 ^ 63 - 1 then some (last + 1) else none

/-- `BinlogGtidState::truncate_while_init`. -/
def truncateWhileInit (env : InitEnv) (uuid : Bytes) (st : BinlogState) : Int × BinlogState :=
  if uuid = [] then (0, st)
  else if (getLastGtidInBinlogsvr env uuid).1 ≠ 0 then (-1, st)
  else
    match firstSurplus env (getLastGtidInBinlogsvr env uuid).2 with
    | none => (-1, st)
    | some gno =>
      if env.listOk = false then (-1, st)
      else
        match splitAtLast (fun name => isGtidInBinlogFile (st.files name)) st.index with
        -- No file has a GTID: nothing is truncated, and the index stays as it is.
        | none => (0, st)
        | some (before, name, after) =>
          let done := truncateByGtid env uuid gno before (name :: after) st
          if done.1 ≠ 0 then (-1, done.2.2)
          else if done.2.1.length ≠ st.index.length ∧ done.2.1.length ≠ 0 then
            if env.indexOk then (0, { done.2.2 with index := done.2.1 }) else (1, done.2.2)
          else (0, done.2.2)

end PhxSql.Binlog
