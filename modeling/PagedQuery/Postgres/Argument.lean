import PagedQuery.Json.Compact

/-!
# Bound arguments

A value is bound in the form that the server knows for it: nothing, a truth
value, a signed 64-bit integer, a double, a text, or a JSON document for an
array or an object. An integer too large for 64 signed bits is bound as the
nearest double.
-/
namespace PagedQuery.Postgres

inductive Argument where
  | null
  | flag (b : Bool)
  | integer (n : Int64)
  | double (x : Double)
  | text (t : Text)
  | document (v : Value)
  deriving Repr, Inhabited

namespace Argument

def ofNumber : Number → Argument
  | .integer n _ =>
    if n < 0x8000000000000000 then integer (Int64.ofInt n) else double (.ofUInt64 (UInt64.ofNat n.toNat))
  | .double x => double x

def ofValue : Value → Argument
  | .null => null
  | .bool b => flag b
  | .number n => ofNumber n
  | .text t => text t
  | .array items => document (.array items)
  | .object fields => document (.object fields)

end Argument

end PagedQuery.Postgres
