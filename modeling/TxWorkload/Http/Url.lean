import TxWorkload.Text.Blank
import TxWorkload.Text.Decimal

/-!
# Url — where an envelope is posted

An address of plain HTTP: a host, an optional service number and an optional path.
-/

namespace TxWorkload
namespace Http

/-- A host, the number of a service on it and what is asked of it. -/
structure Url where
  host : String
  service : UInt16
  target : String
  deriving DecidableEq, Repr

namespace Url

/-- The service number of an address without one. -/
def defaultService : UInt16 := 80

/-- Whether a character ends the host and the service number. -/
def endsAuthority (c : Char) : Bool :=
  c == '/' || c == '?' || c == '#'

/-- The path of an address; there is always one, and a fragment is no part of it. -/
def targetOf (cs : List Char) : String :=
  let cs := cs.takeWhile (· != '#')
  match cs with
  | '/' :: _ => String.ofList cs
  | _ => String.ofList ('/' :: cs)

/-- The host and the service number of an address. -/
def authority? (cs : List Char) : Option (String × UInt16) :=
  match Text.splitList ':' cs with
  | [host] => if host.isEmpty then none else some (String.ofList host, defaultService)
  | [host, service] =>
      if host.isEmpty then none
      else if service.isEmpty then some (String.ofList host, defaultService)
      else
        match Text.unsignedNumeral? service with
        | some n => if n < 65536 then some (String.ofList host, UInt16.ofNat n) else none
        | none => none
  | _ => none

/-- Read an address. -/
def parse? (s : String) : Option Url :=
  let scheme := "http://".toList
  if scheme.isPrefixOf s.toList then
    let cs := s.toList.drop scheme.length
    (authority? (cs.takeWhile fun c => !endsAuthority c)).map fun (host, service) =>
      ⟨host, service, targetOf (cs.dropWhile fun c => !endsAuthority c)⟩
  else none

end Url
end Http
end TxWorkload
