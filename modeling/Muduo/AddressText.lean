import Muduo.InetAddress
import Mathlib.Data.List.TakeWhile

/-!
# Addresses as text

`InetAddress(port, ip)` reads the text of an address with `inet_addr`, and the names of connections are
made from the texts that `toIpPort` writes.

* `toIp` and `toPort` give back what the constructor is given, and the constructor gives back the
  address (`new_toIp`, `toPort_new`).
* Different addresses have different texts (`toIpPort_injective`), and the connections of a client
  different names, not truncated, as long as they fit in the buffer (`clientName_injective`).
-/

namespace Muduo
namespace InetAddress

/-! ## Reading an address -/

/-- The bytes of a 32-bit number in network order. -/
def networkOrder (n : Nat) : UInt8 × UInt8 × UInt8 × UInt8 :=
  (UInt8.ofNat (n / 2 ^ 24), UInt8.ofNat (n / 2 ^ 16), UInt8.ofNat (n / 2 ^ 8), UInt8.ofNat n)

/-- The number of one to four parts: the last part fills what is left of the 32 bits. -/
def ofParts : List Nat → Option Nat
  | [a] => if a < 2 ^ 32 then some a else none
  | [a, b] => if a < 2 ^ 8 ∧ b < 2 ^ 24 then some (a * 2 ^ 24 + b) else none
  | [a, b, c] =>
    if a < 2 ^ 8 ∧ b < 2 ^ 8 ∧ c < 2 ^ 16 then some (a * 2 ^ 24 + b * 2 ^ 16 + c) else none
  | [a, b, c, d] =>
    if a < 2 ^ 8 ∧ b < 2 ^ 8 ∧ c < 2 ^ 8 ∧ d < 2 ^ 8 then
      some (a * 2 ^ 24 + b * 2 ^ 16 + c * 2 ^ 8 + d)
    else none
  | _ => none

/-- `INADDR_NONE`. -/
def inaddrNone : Nat := 0xffffffff

/-- What `inet_addr` reads of `ip.c_str()`: white space ends the address. -/
def addressOf (ip : List Char) : List Char :=
  (Format.cString ip).takeWhile fun c => !Format.isspace c

/-- `inet_addr(ip.c_str())`. -/
def inet_addr (ip : List Char) : UInt8 × UInt8 × UInt8 × UInt8 :=
  networkOrder (((((addressOf ip).splitOn '.').mapM Format.number).bind ofParts).getD inaddrNone)

def htons (port : UInt16) : UInt8 × UInt8 :=
  (UInt8.ofNat (port.toNat / 2 ^ 8), UInt8.ofNat port.toNat)

/-- `InetAddress(port, ip)`. -/
def new (port : UInt16) (ip : List Char) : InetAddress := ⟨inet_addr ip, htons port⟩

theorem toPort_new (port : UInt16) (ip : List Char) : (new port ip).toPort = port.toNat := by
  have hlt := port.toNat_lt
  simp only [toPort, new, htons, UInt8.toNat_ofNat']
  omega

theorem networkOrder_bytes (a b c d : UInt8) :
    networkOrder (a.toNat * 2 ^ 24 + b.toNat * 2 ^ 16 + c.toNat * 2 ^ 8 + d.toNat) = (a, b, c, d) := by
  have ha := a.toNat_lt
  have hb := b.toNat_lt
  have hc := c.toNat_lt
  have hd := d.toNat_lt
  simp only [networkOrder, Prod.mk.injEq, ← UInt8.toNat_inj, UInt8.toNat_ofNat']
  omega

/-- The text of an address has digits and dots. -/
theorem not_mem_toIp {c : Char} (hc : c.isDigit = false) (hdot : c ≠ '.') (addr : InetAddress) :
    c ∉ addr.toIp := by
  have hdigits := fun n => Format.not_mem_unsigned hc n
  simp [toIp, hdigits, hdot]

/-- It is read to its end. -/
theorem addressOf_toIp (addr : InetAddress) : addressOf addr.toIp = addr.toIp := by
  have hnull : Char.ofNat 0 ∉ addr.toIp := addr.not_mem_toIp (by decide) (by decide)
  have hcstr : Format.cString addr.toIp = addr.toIp := by
    rw [Format.cString, List.takeWhile_eq_self_iff]
    intro c hc
    simpa using ne_of_mem_of_not_mem hc hnull
  rw [addressOf, hcstr, List.takeWhile_eq_self_iff]
  intro c hc
  by_contra hspace
  replace hspace : Format.isspace c = true := by simpa using hspace
  refine addr.not_mem_toIp (Format.isDigit_of_isspace hspace) ?_ hc
  rintro rfl
  cases hspace

/-- The parts of the text of an address. -/
theorem splitOn_toIp (addr : InetAddress) :
    addr.toIp.splitOn '.' =
      [addr.sin_addr.1, addr.sin_addr.2.1, addr.sin_addr.2.2.1, addr.sin_addr.2.2.2].map
        fun byte => Format.unsigned byte.toNat := by
  have hdot : ∀ n, '.' ∉ Format.unsigned n := Format.not_mem_unsigned (by decide)
  simp only [toIp, List.splitOn_append_cons_self_of_not_mem (hdot _), List.splitOn_eq_singleton (hdot _),
    List.map_cons, List.map_nil]

theorem inet_addr_toIp (addr : InetAddress) : inet_addr addr.toIp = addr.sin_addr := by
  obtain ⟨⟨a, b, c, d⟩, port⟩ := addr
  have hparts : ofParts [a.toNat, b.toNat, c.toNat, d.toNat] =
      some (a.toNat * 2 ^ 24 + b.toNat * 2 ^ 16 + c.toNat * 2 ^ 8 + d.toNat) :=
    if_pos ⟨a.toNat_lt, b.toNat_lt, c.toNat_lt, d.toNat_lt⟩
  unfold inet_addr
  rw [addressOf_toIp, splitOn_toIp]
  simp only [List.map_cons, List.map_nil, List.mapM_cons, List.mapM_nil, Format.number_unsigned,
    Option.bind_eq_bind, Option.bind_some, Option.pure_def, hparts, Option.getD_some]
  exact networkOrder_bytes a b c d

/-- **Round trip.**  An address is rebuilt from its port and its text. -/
theorem new_toIp (addr : InetAddress) : new (UInt16.ofNat addr.toPort) addr.toIp = addr := by
  have hport : htons (UInt16.ofNat addr.toPort) = addr.sin_port := by
    obtain ⟨ip, hi, lo⟩ := addr
    have hhi := hi.toNat_lt
    have hlo := lo.toNat_lt
    simp only [htons, toPort, Prod.mk.injEq, ← UInt8.toNat_inj, UInt8.toNat_ofNat', UInt16.toNat_ofNat']
    omega
  rw [new, inet_addr_toIp, hport]

/-! ## Texts tell addresses apart -/

/-- What stands before the first separator is found again. -/
theorem append_cons_injective {c : Char} {xs xs' ys ys' : List Char} (h : c ∉ xs) (h' : c ∉ xs')
    (heq : xs ++ c :: ys = xs' ++ c :: ys') : xs = xs' ∧ ys = ys' := by
  have hsplit := congrArg (List.splitOn c) heq
  rw [List.splitOn_append_cons_self_of_not_mem h, List.splitOn_append_cons_self_of_not_mem h'] at hsplit
  obtain rfl := (List.cons.inj hsplit).1
  exact ⟨rfl, (List.cons.inj (List.append_cancel_left heq)).2⟩

theorem not_mem_toIpPort (addr : InetAddress) : '#' ∉ addr.toIpPort := by
  have hip := addr.not_mem_toIp (c := '#') (by decide) (by decide)
  have hport := Format.not_mem_unsigned (c := '#') (by decide) addr.toPort
  simp [toIpPort, hip, hport]

/-- **Different addresses have different texts.** -/
theorem toIpPort_injective : Function.Injective toIpPort := by
  intro addr addr' h
  have hcolon := fun addr : InetAddress => addr.not_mem_toIp (c := ':') (by decide) (by decide)
  obtain ⟨hip, hport⟩ := append_cons_injective (hcolon addr) (hcolon addr') h
  rw [← new_toIp addr, ← new_toIp addr', hip, Format.unsigned_injective hport]

/-- **The text of an address.**  An address is rebuilt from its port and its text, whatever the text the
port is kept, and different addresses have different texts. -/
theorem address_text :
    (∀ addr, new (UInt16.ofNat addr.toPort) addr.toIp = addr) ∧
      (∀ port ip, (new port ip).toPort = port.toNat) ∧ Function.Injective toIpPort :=
  ⟨new_toIp, toPort_new, toIpPort_injective⟩

/-- A text that is no address is read as the broadcast address; what follows a space is not read. -/
example : (new 80 "256.0.0.1".toList).toIp = "255.255.255.255".toList ∧
    (new 80 "10.0.0.1 port".toList).toIp = "10.0.0.1".toList := by decide

end InetAddress

/-! ## The names of a client's connections -/

namespace TcpClient

/-- The size of `buf` in `TcpClient::newConnection`. -/
def bufSize : Nat := 32

def buf (peerAddr : InetAddress) (nextConnId : Int) : List Char :=
  Format.snprintf bufSize (':' :: (peerAddr.toIpPort ++ '#' :: Format.signed nextConnId))

/-- `connName` of a connection to `peerAddr`. -/
def connName (nameArg : List Char) (peerAddr : InetAddress) (nextConnId : Int) : List Char :=
  nameArg ++ buf peerAddr nextConnId

/-- With eight digits at most no name is truncated. -/
theorem buf_eq (peerAddr : InetAddress) {n : Nat} (h : n < 10 ^ 8) :
    buf peerAddr n = ':' :: (peerAddr.toIpPort ++ '#' :: Format.unsigned n) := by
  have hip := peerAddr.length_toIpPort
  have hlen := Format.length_unsigned_le (n := n) (k := 8) (by decide) h
  unfold buf
  rw [Format.signed_natCast]
  apply Format.snprintf_of_length_lt
  simp only [List.length_cons, List.length_append, bufSize]
  omega

/-- **The names of a client's connections.**  Below 10^8 the name is written in full, and tells the peer's
address and the number of the connection. -/
theorem clientName_injective (nameArg : List Char) (peerAddr : InetAddress) (m : Nat) (hm : m < 10 ^ 8) :
    connName nameArg peerAddr m =
        nameArg ++ ':' :: (peerAddr.toIpPort ++ '#' :: Format.unsigned m) ∧
      ∀ (peerAddr' : InetAddress) (n : Nat), n < 10 ^ 8 →
        connName nameArg peerAddr m = connName nameArg peerAddr' n → peerAddr = peerAddr' ∧ m = n := by
  refine ⟨congrArg (nameArg ++ ·) (buf_eq peerAddr hm), fun peerAddr' n hn heq => ?_⟩
  have hbuf := List.append_cancel_left heq
  rw [buf_eq peerAddr hm, buf_eq peerAddr' hn] at hbuf
  obtain ⟨haddr, hid⟩ := InetAddress.append_cons_injective peerAddr.not_mem_toIpPort
    peerAddr'.not_mem_toIpPort (List.cons.inj hbuf).2
  exact ⟨InetAddress.toIpPort_injective haddr, Format.unsigned_injective hid⟩

theorem clientName_injective_seven :
    connName ['c'] ⟨(127, 0, 0, 1), (0x1f, 0x90)⟩ (7 : Nat) = "c:127.0.0.1:8080#7".toList ∧
      connName ['c'] ⟨(127, 0, 0, 1), (0x1f, 0x90)⟩ (7 : Nat) ≠
        connName ['c'] ⟨(127, 0, 0, 1), (0x1f, 0x90)⟩ (8 : Nat) := by
  obtain ⟨hname, hother⟩ :=
    clientName_injective ['c'] ⟨(127, 0, 0, 1), (0x1f, 0x90)⟩ 7 (by decide)
  refine ⟨hname.trans (by decide), fun heq => ?_⟩
  cases (hother _ 8 (by decide) heq).2

/-- From 10^8 on the last digit of a name can be cut off. -/
example : connName [] ⟨(192, 168, 100, 100), (0xff, 0xff)⟩ 100000000 =
    connName [] ⟨(192, 168, 100, 100), (0xff, 0xff)⟩ 100000001 := by
  decide

end TcpClient
end Muduo
