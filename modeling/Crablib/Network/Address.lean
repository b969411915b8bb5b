import Crablib.Http.Types
import Crablib.IntegerCast

/-! `Address` of `network.hxx` and `network_posix_win.hxx`: the address and port of a
`sockaddr_storage`, and their texts. The system's `inet_pton` and `inet_ntop` are
parameters. -/
namespace Crablib

abbrev InAddr := { bytes : Bytes // bytes.length = 4 }

abbrev In6Addr := { bytes : Bytes // bytes.length = 16 }

/-- `inet_pton` and `inet_ntop` for `AF_INET` and for `AF_INET6`. -/
structure Inet where
  pton : Bytes → Option InAddr
  ntop : InAddr → Bytes
  pton6 : Bytes → Option In6Addr
  ntop6 : In6Addr → Bytes

inductive Address where
  | unspecified
  | inet (addr : InAddr) (port : UInt16)
  | inet6 (addr : In6Addr) (port : UInt16)
  deriving DecidableEq

namespace Address

/-- What a function that takes `c_str()` sees of a string. -/
def cString (text : Bytes) : Bytes := text.takeWhile (· ≠ 0)

/-- `parse(address, ip, port)`: the answer, and the address afterwards. -/
def parseIp (inet : Inet) (address : Address) (ip : Bytes) (port : UInt16) : Bool × Address :=
  match inet.pton6 (cString ip) with
  | some addr => (true, .inet6 addr port)
  | none =>
    match inet.pton (cString ip) with
    | some addr => (true, .inet addr port)
    | none => (false, address)

/-- `parse(address, ip_port)`, which splits at the first colon. -/
def parse (inet : Inet) (address : Address) (ipPort : Bytes) : Except Error (Bool × Address) :=
  match ipPort.findIdx? (· = ch ':') with
  | none => .ok (false, address)
  | some pos => do
    let port ← integerCast .uint16 (ipPort.drop (pos + 1))
    return parseIp inet address (ipPort.take pos) (UInt16.ofNat port.toNat)

def getAddress (inet : Inet) : Address → Bytes
  | .unspecified => str "<UnknownFamily0>"
  | .inet addr _ => inet.ntop addr
  | .inet6 addr _ => inet.ntop6 addr

def getPort : Address → UInt16
  | .unspecified => 0
  | .inet _ port => port
  | .inet6 _ port => port

def toText (inet : Inet) (address : Address) : Bytes :=
  address.getAddress inet ++ ch ':' :: Http.decimal address.getPort.toNat

end Address
end Crablib
