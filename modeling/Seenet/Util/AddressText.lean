import Seenet.Util.InetAddress

/-!
# An address made from its text

`InetAddress(ip, port, ipv6)` is made in memory that holds anything.  `inet_pton` is a parameter, of which nothing
is assumed but that it reads the text of an address as that address (`InetPton.Reads`).

* `create_holds` — the address and the port get to where they belong, in either family.
* `Holds.roundTrips_iff` — an address that holds these gives them back if and only if its family is right.
* **`create_roundTrips_iff`** — the family is right for an IPv4 address only: for the other, `fromIpPort` compares
  where it should assign.
-/

namespace Seenet

/-! ## Addresses -/

/-- An IPv4 or an IPv6 address, in network order. -/
inductive IpAddress
  | v4 (s_addr : BitVec (8 * 4))
  | v6 (s6_addr : Vector UInt8 16)

namespace IpAddress

def ipv6 : IpAddress → Bool
  | .v4 _ => false
  | .v6 _ => true

def family : IpAddress → BitVec 16
  | .v4 _ => sockets.AF_INET
  | .v6 _ => sockets.AF_INET6

def text : IpAddress → String
  | .v4 s_addr => sockets.inet_ntop4 (ByteOrder.memoryImage s_addr)
  | .v6 s6_addr => sockets.inet_ntop6 s6_addr

end IpAddress

/-- `inet_pton`, for either family: the address, if the text is one. -/
structure InetPton where
  inet : String → Option (BitVec (8 * 4))
  inet6 : String → Option (Vector UInt8 16)

/-- The text of the address is read as the address. -/
def InetPton.Reads (pton : InetPton) : IpAddress → Prop
  | .v4 s_addr => pton.inet (IpAddress.v4 s_addr).text = some s_addr
  | .v6 s6_addr => pton.inet6 (IpAddress.v6 s6_addr).text = some s6_addr

/-! ## The constructor -/

namespace sockets

/-- `fromIpPort` into a `sockaddr_in`.  What `inet_pton` does not read, it leaves as it is. -/
def fromIpPort (pton : InetPton) (ip : String) (port : BitVec (8 * 2)) (addr : InetAddress) : InetAddress :=
  { addr with
    sin_family := AF_INET
    sin_port := hostToNetwork16 port
    sin_addr := (pton.inet ip).getD addr.sin_addr }

/-- `fromIpPort` into a `sockaddr_in6`. -/
def fromIpPort6 (pton : InetPton) (ip : String) (port : BitVec (8 * 2)) (addr : InetAddress) : InetAddress :=
  -- `sin6_family == AF_INET6` is computed here, and is not used
  { addr with
    sin_port := hostToNetwork16 port
    sin6_addr := (pton.inet6 ip).getD addr.sin6_addr }

end sockets

namespace InetAddress

open sockets

/-- `memset(&m_addr, 0, sizeof(m_addr))`: the 16 bytes of it reach into the IPv6 address. -/
def clearAddr (addr : InetAddress) : InetAddress where
  sin_family := 0
  sin_port := 0
  sin_addr := 0
  sin6_addr := Vector.ofFn fun i => if i.val < 8 then 0 else addr.sin6_addr.get i

/-- `memset(&m_addr6, 0, sizeof(m_addr6))` -/
def clearAddr6 : InetAddress where
  sin_family := 0
  sin_port := 0
  sin_addr := 0
  sin6_addr := Vector.replicate 16 0

/-- `InetAddress(ip, port, ipv6)`, where there was `storage`. -/
def create (pton : InetPton) (storage : InetAddress) (ip : String) (port : BitVec (8 * 2)) (ipv6 : Bool) :
    InetAddress :=
  if ipv6 then fromIpPort6 pton ip port clearAddr6
  else fromIpPort pton ip port storage.clearAddr

def family (addr : InetAddress) : BitVec 16 := addr.sin_family
def portNetEndian (addr : InetAddress) : BitVec (8 * 2) := addr.sin_port
def toPort (addr : InetAddress) : BitVec (8 * 2) := networkToHost16 addr.portNetEndian

/-! ## There and back -/

variable {pton : InetPton} {storage addr : InetAddress} {a : IpAddress} {port : BitVec (8 * 2)}

/-- The address gives back what it was made from. -/
structure RoundTrips (addr : InetAddress) (a : IpAddress) (port : BitVec (8 * 2)) : Prop where
  family : addr.family = a.family
  toIp : addr.toIp = .ok a.text
  toPort : addr.toPort = port
  toIpPort : addr.toIpPort = .ok (a.text ++ (":" ++ toString port.toNat))

/-- The address and the port are where they belong. -/
structure Holds (addr : InetAddress) (a : IpAddress) (port : BitVec (8 * 2)) : Prop where
  sin_port : addr.sin_port = hostToNetwork16 port
  sin_addr : ∀ s_addr, a = .v4 s_addr → addr.sin_addr = s_addr
  sin6_addr : ∀ s6_addr, a = .v6 s6_addr → addr.sin6_addr = s6_addr

lemma create_holds (hreads : pton.Reads a) : (create pton storage a.text port a.ipv6).Holds a port := by
  cases a with
  | v4 s_addr =>
      have hread : pton.inet (IpAddress.v4 s_addr).text = some s_addr := hreads
      refine ⟨rfl, ?_, nofun⟩
      rintro _ ⟨⟩
      simp only [create, IpAddress.ipv6, Bool.false_eq_true, if_false, fromIpPort, hread, Option.getD_some]
  | v6 s6_addr =>
      have hread : pton.inet6 (IpAddress.v6 s6_addr).text = some s6_addr := hreads
      refine ⟨rfl, nofun, ?_⟩
      rintro _ ⟨⟩
      simp only [create, IpAddress.ipv6, if_true, fromIpPort6, hread, Option.getD_some]

lemma create_family (pton : InetPton) (storage : InetAddress) (ip : String) (port : BitVec (8 * 2))
    (ipv6 : Bool) : (create pton storage ip port ipv6).family = if ipv6 then 0 else AF_INET := by
  cases ipv6 <;> rfl

lemma Holds.toPort (h : addr.Holds a port) : addr.toPort = port := by
  rw [InetAddress.toPort, portNetEndian, h.sin_port]
  exact networkToHost_hostToNetwork port

lemma Holds.toIp (h : addr.Holds a port) (hfamily : addr.family = a.family) : addr.toIp = .ok a.text := by
  cases a with
  | v4 s_addr => rw [toIp_inet hfamily, h.sin_addr s_addr rfl, IpAddress.text]
  | v6 s6_addr => rw [toIp_inet6 hfamily, h.sin6_addr s6_addr rfl, IpAddress.text]

/-- **It depends on the family.** -/
lemma Holds.roundTrips_iff (h : addr.Holds a port) : addr.RoundTrips a port ↔ addr.family = a.family := by
  refine ⟨RoundTrips.family, fun hfamily => ⟨hfamily, h.toIp hfamily, h.toPort, ?_⟩⟩
  obtain ⟨ip, hip, -, hipPort⟩ := addr.toIpPort_spec
  obtain rfl := Except.ok.inj ((h.toIp hfamily).symm.trans hip)
  have hport : networkToHost16 addr.sin_port = port := h.toPort
  rw [hipPort, hport]

/-- **Address text round trip**: an address made from the text of `a` and a port gives back the family, the text,
the port, and the two together, if and only if `a` is an IPv4 address. -/
theorem create_roundTrips_iff (pton : InetPton) (storage : InetAddress) (a : IpAddress) (port : BitVec (8 * 2))
    (hreads : pton.Reads a) :
    (create pton storage a.text port a.ipv6).RoundTrips a port ↔ a.ipv6 = false := by
  rw [(create_holds hreads).roundTrips_iff, create_family]
  cases a with
  | v4 s_addr => exact iff_of_true rfl rfl
  | v6 s6_addr =>
      have hne : (0 : BitVec 16) ≠ AF_INET6 := by decide
      exact iff_of_false hne Bool.true_eq_false.mp

/-- What `inet_pton` makes of the texts of the loopback addresses. -/
def loopbackPton : InetPton where
  inet ip := if ip = "127.0.0.1" then some 0x0100007f else none
  inet6 ip := if ip = "::1" then some ⟨#[0, 0, 0, 0, 0, 0, 0, 0, 0, 0, 0, 0, 0, 0, 0, 1], rfl⟩ else none

/-- The loopback address, in memory that was cleared before. -/
theorem create_roundTrips_loopback :
    (create loopbackPton clearAddr6 "127.0.0.1" 2007 false).toIpPort = .ok "127.0.0.1:2007" := by
  have htext : (IpAddress.v4 0x0100007f).text = "127.0.0.1" := by decide +kernel
  have hreads : loopbackPton.Reads (.v4 0x0100007f) := by
    rw [InetPton.Reads, htext]
    decide
  have hroundTrips := (create_roundTrips_iff loopbackPton clearAddr6 (.v4 0x0100007f) 2007 hreads).mpr rfl
  have hipPort := hroundTrips.toIpPort
  rw [htext] at hipPort
  exact hipPort.trans (by decide +kernel)

/-- **No family.**  What is made from `"::1"` has no family and no text. -/
theorem create_not_roundTrips :
    let a : IpAddress := .v6 ⟨#[0, 0, 0, 0, 0, 0, 0, 0, 0, 0, 0, 0, 0, 0, 0, 1], rfl⟩
    let addr := create loopbackPton clearAddr6 a.text 2007 a.ipv6
    a.text = "::1" ∧ loopbackPton.Reads a ∧ addr.family = 0 ∧ addr.toIp = .ok "" ∧
      addr.toIpPort = .ok ":2007" ∧ ¬ addr.RoundTrips a 2007 := by
  intro a addr
  have htext : a.text = "::1" := by decide +kernel
  have hreads : loopbackPton.Reads a := by
    show loopbackPton.inet6 a.text = _
    rw [htext]
    rfl
  have hfamily : addr.family = 0 := rfl
  refine ⟨htext, hreads, hfamily, toIp_of_ne (by decide) (by decide), by decide +kernel, ?_⟩
  intro hroundTrips
  exact absurd (hfamily.symm.trans hroundTrips.family) (by decide)

end InetAddress

end Seenet
