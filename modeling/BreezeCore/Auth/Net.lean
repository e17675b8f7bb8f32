import BreezeCore.Lib.Ip

/-!
# Is this request from the LAN?

Approval of a pairing is an admin action from the trusted network.  Behind a
reverse proxy the socket peer is the proxy, and the client is in the forwarded
header; of that only the last entry counts, the one the proxy itself saw.
-/

namespace BreezeAuth

open Text Net

/-- The address a forwarded entry stands for, and the peer if it is not one. -/
def entryAddress (peer : Option IpAddr) (entry : Str) : Option IpAddr :=
  match IpAddr.parse (trim entry) with
  | some ip => some ip
  | none => peer

/-- The best available client address. -/
def clientIp (peer : Option IpAddr) (forwardedFor : Option Str) (behindProxy : Bool) :
    Option IpAddr :=
  if behindProxy then
    match forwardedFor with
    | some xff => entryAddress peer (lastPiece ',' xff)
    | none => peer
  else peer

/-- True for "on my LAN or this machine" rather than the public internet. -/
def isPrivateIp (ip : Option IpAddr) : Bool :=
  match ip with
  | some (.v4 v4) => v4.isPrivate || v4.isLoopback || v4.isLinkLocal
  | some (.v6 v6) => v6.isLoopback || (v6.s0 &&& 0xFE00 == 0xFC00) || (v6.s0 &&& 0xFFC0 == 0xFE80)
  | none => false

example : isPrivateIp (clientIp (some (.v4 ⟨127, 0, 0, 1⟩))
    (some "192.168.1.5, 203.0.113.9".toList) true) = false := by decide +kernel

end BreezeAuth
