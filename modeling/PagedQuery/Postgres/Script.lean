import PagedQuery.Postgres.Session

/-!
# Scripted servers

A server for trying things out: it answers the ping, count statements and all
other statements as a script says, and keeps a record of who logged in and of
the statements it was given. It listens at one socket file and has no encryption;
there is no other server, at socket files, on the local host or elsewhere. A
refusal that may pass, because the server has no room or is still starting, is
waited out and ends as a timeout, and so is an address without a server.
-/
namespace PagedQuery.Postgres

structure Refusal where
  code : Text
  message : Text
  deriving DecidableEq, Repr

/-- What a server answers, and the port that names its socket file. Without a count the
count statement has no row. -/
structure Script where
  port : UInt16 := 5432
  loginRefusal : Option Refusal := none
  pingRefusal : Option Refusal := none
  countRefusal : Option Refusal := none
  queryRefusal : Option Refusal := none
  count : Option Cell := some .null
  rows : List Row := []
  deriving Repr

/-- What a server has seen: who logged in, and the statements in order. -/
structure Transcript where
  login : Option Login := none
  statements : List (Text × List Argument) := []
  deriving Repr

def Refusal.mayPass (r : Refusal) : Bool :=
  ["53300".toList, "57P03".toList].contains r.code

def countBeginning : Text := "SELECT COUNT(*)".toList

namespace Script

def answer (refusal : Option Refusal) (rows : List Row) : Except DatabaseError (List Row) :=
  match refusal with
  | some r => .error (.refused r.message)
  | none => .ok rows

/-- What the script says to a statement. -/
def reply (s : Script) (statement : Text) : Except DatabaseError (List Row) :=
  if statement = Server.pingStatement then answer s.pingRefusal [[.integer 1]]
  else if countBeginning.isPrefixOf statement then
    answer s.countRefusal (s.count.toList.map ([·]))
  else answer s.queryRefusal s.rows

def loginAnswer (s : Script) : Except DatabaseError Unit :=
  match s.loginRefusal with
  | none => .ok ()
  | some r => .error (if r.mayPass then .timedOut else .refused r.message)

/-- Directory of the socket file, and the host by which a URL means it. -/
def directory : Text := "/scripted".toList

def host : Text := "%2Fscripted".toList

/-- What keeps a login from being seen by the server. -/
def obstacle? (s : Script) (who : Login) : Option DatabaseError :=
  match who.socketFile? with
  | some path =>
    if some path ≠ ({ socketDirectory := some directory, port := s.port } : Login).socketFile? then
      some (.socket (.of path))
    else if who.sslMode.needsEncryption then some .noEncryption
    else none
  | none =>
    let name := Text.trimBy (fun c => c = '[' || c = ']') who.host
    if name = "localhost".toList ∨ Url.isIpv4 name ∨ Url.isIpv6 name then some .timedOut
    else some .unknownHost

def server (s : Script) : Server Transcript where
  login who := fun transcript =>
    match s.obstacle? who with
    | some error => (.error error, transcript)
    | none => (s.loginAnswer, { transcript with login := some who })
  run statement arguments := fun transcript =>
    (s.reply statement,
      { transcript with statements := transcript.statements ++ [(statement, arguments)] })

end Script

end PagedQuery.Postgres
