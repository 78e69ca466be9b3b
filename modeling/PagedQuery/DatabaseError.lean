import PagedQuery.Postgres.Login

/-!
# Errors of databases

What keeps a database from answering, and what is wrong with the shape of an
answer. A count is read from a column of integers, all other rows from columns
of texts, in which a cell may be empty.
-/
namespace PagedQuery

/-- What a database refuses or answers in the wrong shape. -/
inductive DatabaseError where
  | noRows
  | noColumns
  | notInteger
  | notText (column : Nat)
  | unexpectedNull
  | timedOut
  | configuration (fault : Postgres.LoginFault)
  | noEncryption
  | socket (fault : Postgres.SocketFault)
  | unknownHost
  | refused (message : Text)
  deriving DecidableEq, Repr

namespace DatabaseError

/-- The beginning of the message about a cell. -/
def decoding (column : Nat) : Text :=
  "error occurred while decoding column ".toList ++ Text.ofNat column ++ ": ".toList

/-- The beginning of the message about a server that cannot be talked to. -/
def communicating : Text := "error communicating with database: ".toList

def message : DatabaseError → Text
  | noRows => "no rows returned by a query that expected to return at least one row".toList
  | noColumns => "column index out of bounds: the len is 0, but the index is 0".toList
  | notInteger =>
    decoding 0 ++
      ("mismatched types; Rust type `i64` " ++
        "(as SQL type `INT8`) is not compatible with SQL type `TEXT`").toList
  | notText column =>
    decoding column ++
      ("mismatched types; Rust type `core::option::Option<alloc::string::String>` " ++
        "(as SQL type `TEXT`) is not compatible with SQL type `INT8`").toList
  | unexpectedNull => decoding 0 ++ "unexpected null; try decoding as an `Option`".toList
  | timedOut => "pool timed out while waiting for an open connection".toList
  | configuration fault => "error with configuration: ".toList ++ fault.message
  | noEncryption =>
    ("error occurred while attempting to establish a TLS connection: " ++
      "server does not support TLS").toList
  | socket fault => communicating ++ fault.message
  | unknownHost =>
    communicating ++ "failed to lookup address information: Name or service not known".toList
  | refused message => "error returned from database: ".toList ++ message

end DatabaseError

end PagedQuery
