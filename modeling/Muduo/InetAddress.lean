import Muduo.Lib.Format

/-!
# InetAddress

The text of an IPv4 address and port.  `toIpPort` writes it to a buffer of 64 bytes with `sprintf`,
which does not look at the size; there is always room (`length_toIpPort`).
-/

namespace Muduo

/-- `sockaddr_in`: the bytes of `sin_addr` and `sin_port` as they lie in memory. -/
structure InetAddress where
  sin_addr : UInt8 × UInt8 × UInt8 × UInt8
  sin_port : UInt8 × UInt8
deriving DecidableEq, Repr

namespace InetAddress

/-- `inet_ntop(AF_INET, ..)`. -/
def toIp (addr : InetAddress) : List Char :=
  let (a, b, c, d) := addr.sin_addr
  Format.unsigned a.toNat ++ '.' :: (Format.unsigned b.toNat ++ '.' ::
    (Format.unsigned c.toNat ++ '.' :: Format.unsigned d.toNat))

/-- `ntohs`. -/
def toPort (addr : InetAddress) : Nat := addr.sin_port.1.toNat * 256 + addr.sin_port.2.toNat

def toIpPort (addr : InetAddress) : List Char := addr.toIp ++ ':' :: Format.unsigned addr.toPort

theorem length_unsigned_uint8 (a : UInt8) : (Format.unsigned a.toNat).length ≤ 3 := by
  apply Format.length_unsigned_le (by omega)
  have := a.toNat_lt
  omega

theorem length_toIp (addr : InetAddress) : addr.toIp.length ≤ 15 := by
  obtain ⟨⟨a, b, c, d⟩, port⟩ := addr
  have ha := length_unsigned_uint8 a
  have hb := length_unsigned_uint8 b
  have hc := length_unsigned_uint8 c
  have hd := length_unsigned_uint8 d
  simp only [toIp, List.length_append, List.length_cons]
  omega

theorem length_toIpPort (addr : InetAddress) : addr.toIpPort.length ≤ 21 := by
  have hip := addr.length_toIp
  have hport : (Format.unsigned addr.toPort).length ≤ 5 := by
    apply Format.length_unsigned_le (by omega)
    have h1 := addr.sin_port.1.toNat_lt
    have h2 := addr.sin_port.2.toNat_lt
    unfold toPort
    omega
  simp only [toIpPort, List.length_append, List.length_cons]
  omega

example : toIpPort ⟨(127, 0, 0, 1), (0x1f, 0x90)⟩ = "127.0.0.1:8080".toList := by decide

end InetAddress
end Muduo
