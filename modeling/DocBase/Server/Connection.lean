import DocBase.Server.Basic
import DocBase.Server.Response

/-! Connections: sessions of a server that take requests line by line. -/
namespace DocBase

structure Connection where
  id : Nat
  isClosed : Bool := false
  requests : Nat := 0
  failures : Nat := 0
  deriving DecidableEq

namespace Connection

/-- There are never more open connections than the server is configured for. -/
def connect : ServerAction Connection := do
  Server.ensureRunning
  let s ← get
  if s.config.maxConnections ≤ s.active then throw (.tooManyConnections s.config.maxConnections)
  set { s with active := s.active + 1, nextId := s.nextId + 1 }
  return { id := s.nextId }

/-- Tells whether it was open until now. -/
def close (c : Connection) (s : Server) : Bool × Connection × Server :=
  if c.isClosed then (false, c, s)
  else (true, { c with isClosed := true }, { s with active := s.active - 1 })

def dispatch (stamps : Nat → Stamp) (c : Connection) (r : Request) : ServerAction Json :=
  if c.isClosed then throw (.connectionClosed c.id) else Server.handle stamps r

/-- The response to a line. Whatever the line is, it counts as a request. -/
def respond (stamps : Nat → Stamp) (line : String) (c : Connection) (s : Server) :
    Response × Connection × Server :=
  let (result, s) : Except ServerError Json × Server :=
    match Request.decode line with
    | some r => dispatch stamps c r s
    | none => (.error .malformedRequest, s)
  let failed := match result with
    | .ok _ => 0
    | .error _ => 1
  (.ofResult result, { c with requests := c.requests + 1, failures := c.failures + failed }, s)

/-- As `respond`, with the response as a line. -/
def executeLine (stamps : Nat → Stamp) (line : String) (c : Connection) (s : Server) :
    String × Connection × Server :=
  let (response, c, s) := respond stamps line c s
  (response.encode, c, s)

def text (c : Connection) : String :=
  "Connection \x7b id: " ++ toString c.id ++ ", closed: " ++ toString c.isClosed
    ++ ", stats: ConnectionStats \x7b requests: " ++ toString c.requests
    ++ ", failures: " ++ toString c.failures ++ " \x7d \x7d"

end Connection
end DocBase
