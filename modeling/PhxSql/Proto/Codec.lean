import PhxSql.Proto.Messages

/-!
# Serialisation

Protobuf is not part of the repository. What the code relies on is stated as the fields of `Codec`:
parsing what was serialised gives the message back if all its required fields are set, and a
serialised message is shorter than two gigabytes, since a larger one is not serialised.
-/

set_option autoImplicit false

namespace PhxSql.Proto

/-- `SerializeToString` and `ParseFromString` of a message type. -/
structure Codec (M : Type) (initialized : M → Prop) where
  serialize : M → Option Bytes
  parse : Bytes → Option M
  parse_serialize : ∀ {m : M} {b : Bytes}, initialized m → serialize m = some b → parse b = some m
  length_lt : ∀ {m : M} {b : Bytes}, serialize m = some b → b.length < 2 ^ 31

/-- The message types that are stored in the event files or chosen by paxos. -/
structure Codecs where
  eventData : Codec EventData fun _ => True
  eventDataInfoList : Codec (List EventDataInfo) fun _ => True
  masterInfo : Codec MasterInfo fun m => m.port.isSome = true
  paxosEventData : Codec PaxosEventData fun _ => True

end PhxSql.Proto
