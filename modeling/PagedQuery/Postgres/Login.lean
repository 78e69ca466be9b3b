import PagedQuery.Settings.Basic
import PagedQuery.Text.Number
import PagedQuery.Text.Quoted
import PagedQuery.Url.Host
import PagedQuery.Url.Query
import PagedQuery.Url.Reading

/-!
# Logins

A login says where a server is, who logs in, to which database, and whether what
is said may be overheard. It is read off the connection string, a URL: user,
password and database as the URL has them in front of the query, and then one
after another the parameters of the query, of which only some have a meaning. A
password is not kept, but it has to be a text.
-/
namespace PagedQuery.Postgres

/-- What is done about encryption. Only the last three refuse to go without it. -/
inductive SslMode where
  | disable | allow | prefer | require | verifyCa | verifyFull
  deriving DecidableEq, Repr

/-- The mode has no use for a server without encryption. -/
def SslMode.needsEncryption : SslMode → Bool
  | disable | allow | prefer => false
  | require | verifyCa | verifyFull => true

def SslMode.ofText? (t : Text) : Option SslMode :=
  match String.ofList (Text.lower t) with
  | "disable" => some disable
  | "allow" => some allow
  | "prefer" => some prefer
  | "require" => some require
  | "verify-ca" => some verifyCa
  | "verify-full" => some verifyFull
  | _ => none

/-- Who logs in where, and to which database. A server is at a socket file in the given
directory if there is one, and otherwise at a host by its name or address. Without a name
the server chooses the database. -/
structure Login where
  host : Text := "localhost".toList
  port : UInt16 := 5432
  socketDirectory : Option Text := none
  user : Text := "root".toList
  database : Option Text := none
  sslMode : SslMode := .prefer
  deriving DecidableEq, Repr

inductive SocketFault where
  | zeroByte
  | tooLong
  | absent
  deriving DecidableEq, Repr

def SocketFault.message : SocketFault → Text
  | zeroByte => "paths must not contain interior null bytes".toList
  | tooLong => "path must be shorter than SUN_LEN".toList
  | absent => "No such file or directory (os error 2)".toList

/-- What is wrong with a socket file that is not there. Its path has at most 107 bytes. -/
def SocketFault.of (path : Text) : SocketFault :=
  if path.any (· = '\x00') then .zeroByte
  else if 107 < Text.utf8Size path then .tooLong
  else .absent

/-- Why a connection string is none. -/
inductive LoginFault where
  | url (fault : Url.Fault)
  | encoding (fault : Text.Utf8Fault)
  | sslMode (written : Text)
  | number (fault : Text.NumberFault)
  | address
  deriving DecidableEq, Repr

/-- The message of a fault. A mode that does not exist is a fault within a fault. -/
def LoginFault.message : LoginFault → Text
  | url fault => fault.message
  | encoding fault => fault.message
  | sslMode written =>
    "error with configuration: unknown value ".toList ++ Text.shown written ++
      " for `ssl_mode`".toList
  | number fault => fault.message
  | address => "invalid IP address syntax".toList

namespace Login

def part (t : Text) : Except LoginFault Text :=
  match Url.decoded t with
  | .ok t => .ok t
  | .error fault => .error (.encoding fault)

/-- The socket file of the server; its name tells the port. -/
def socketFile? (l : Login) : Option Text :=
  l.socketDirectory.map (· ++ "/.s.PGSQL.".toList ++ Text.ofNat l.port.toNat)

/-- The login at a host, or at a socket file if the text begins with a slash. A host does
not take the place of a socket file. -/
def atPlace (l : Login) (t : Text) : Login :=
  if t.head? = some '/' then { l with socketDirectory := some t } else { l with host := t }

def number (greatest : Nat) (t : Text) : Except LoginFault Nat :=
  match Text.readNumber greatest t with
  | .ok n => .ok n
  | .error fault => .error (.number fault)

/-- The login with a parameter of the query. Certificates, the password and
options of the session make no difference to it; other names mean nothing. -/
def withParameter (l : Login) (parameter : Text × Text) : Except LoginFault Login :=
  let value := parameter.2
  match String.ofList parameter.1 with
  | "sslmode" | "ssl-mode" =>
    match SslMode.ofText? value with
    | some sslMode => .ok { l with sslMode }
    | none => .error (.sslMode value)
  | "statement-cache-capacity" => (number 0xFFFFFFFFFFFFFFFF value).map fun _ => l
  | "host" => .ok (l.atPlace value)
  | "hostaddr" =>
    if Url.isIpv4 value || Url.isIpv6 value then .ok { l with host := value }
    else .error .address
  | "port" => (number 0xFFFF value).map fun n => { l with port := UInt16.ofNat n }
  | "dbname" => .ok { l with database := some value }
  | "user" => .ok { l with user := value }
  | _ => .ok l

/-- The login at the place that a URL names. A host is taken as it is written. -/
def atUrlPlace (l : Login) (host : Text) : Except LoginFault Login :=
  if host = [] then .ok l
  else if (Url.bytes host).head? = some 0x2F then
    (part host).map fun directory => { l with socketDirectory := some directory }
  else .ok { l with host }

def ofUrl (u : Url) : Except LoginFault Login := do
  let standard : Login := {}
  let placed ← standard.atUrlPlace u.authority.host
  let user ← part u.authority.user
  let _ ← part u.authority.password
  let path := u.path.dropWhile (· = '/')
  let database ← part path
  (Url.parameters u.query).foldlM withParameter
    { placed with
      port := u.authority.port.getD standard.port
      user := if u.authority.user = [] then standard.user else user
      database := if path = [] then none else some database }

/-- The login that the connection string of the settings asks for. -/
def ofSettings (d : DatabaseSettings) : Except LoginFault Login :=
  match Url.ofText d.connectionString with
  | .ok url => ofUrl url
  | .error fault => .error (.url fault)

end Login

end PagedQuery.Postgres
