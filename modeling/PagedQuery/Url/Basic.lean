import PagedQuery.Text.Basic

/-!
# URLs

The parts of a URL of a scheme that has no rules of its own, as they are
written: after the scheme and two slashes a user and a password, a host and a
port, then a path and a query. What the percent signs in them stand for is left
to those who use them. A URL that cannot be read has one of five faults.
-/
namespace PagedQuery

/-- User, password, host and port. Nothing stands for a part that is not written. -/
structure Authority where
  user : Text := []
  password : Text := []
  host : Text := []
  port : Option UInt16 := none
  deriving DecidableEq, Repr

/-- The parts of a URL after its scheme. What follows `#` is no part. -/
structure Url where
  authority : Authority := {}
  path : Text := []
  query : Text := []
  deriving DecidableEq, Repr

namespace Url

/-- Why a text is no URL. -/
inductive Fault where
  | relative
  | emptyHost
  | invalidPort
  | invalidIpv6
  | invalidHostCharacter
  deriving DecidableEq, Repr

def Fault.message : Fault → Text
  | relative => "relative URL without a base".toList
  | emptyHost => "empty host".toList
  | invalidPort => "invalid port number".toList
  | invalidIpv6 => "invalid IPv6 address".toList
  | invalidHostCharacter => "invalid domain character".toList

end Url

end PagedQuery
