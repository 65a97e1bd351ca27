import Mathlib.Data.Fin.VecNotation
import Mathlib.Data.Fintype.Basic
import Mathlib.Data.Nat.Notation

/-!
# 5-tuples and their keys

The keys of the hash engine (`engine_hash.c`) are 16 bytes that hold the protocol, the two
addresses and the two ports, as an IPv4 packet has them. A key is built in two ways: from a
5-tuple of the rule tables (`convertIpv4_5tuple`), and from the bytes of a packet, of which
one load of 128 bits takes 16 and a mask clears those that belong to no key. The keys for IPv6
are 48 bytes (`convertIpv6_5tuple`), in three registers.

A register of 128 bits is the 16 bytes it is loaded from or stored to. The machine is
little-endian.
-/

set_option autoImplicit false

namespace DdosFiltering.Engine

/-! ## Vector registers -/

/-- `__m128i`, as its bytes in memory. -/
abbrev M128i := Fin 16 → UInt8

/-- Byte `i` of a 32-bit number in memory. -/
def byte32 (x : UInt32) (i : ℕ) : UInt8 := (x >>> UInt32.ofNat (8 * i)).toUInt8

/-- Byte `i` of a 16-bit number in memory. -/
def byte16 (x : UInt16) (i : ℕ) : UInt8 := (x >>> UInt16.ofNat (8 * i)).toUInt8

/-- `_mm_set_epi32`. The last argument is the lowest lane. -/
def mmSetEpi32 (e3 e2 e1 e0 : UInt32) : M128i := fun i =>
  byte32 (![e0, e1, e2, e3] ⟨i / 4, by omega⟩) (i % 4)

/-- `_mm_and_si128`. -/
def mmAndSi128 (a b : M128i) : M128i := fun i => a i &&& b i

/-- `_mm_loadu_si128` of the 16 bytes from `off`. An mbuf has room for more bytes than a key
is loaded from, so the byte 0 beyond the end of `data` is never read. -/
def mmLoaduSi128 (data : List UInt8) (off : ℕ) : M128i := fun i => data.getD (off + i) 0

/-- `ALL_32_BITS`. -/
def all32Bits : UInt32 := 0xffffffff

/-- `BIT_8_TO_15`. -/
def bit8To15 : UInt32 := 0x0000ff00

/-! ## Keys -/

/-- `struct ipv4_5tuple`, in host order. -/
structure Ipv4_5tuple where
  ipDst : UInt32
  ipSrc : UInt32
  portDst : UInt16
  portSrc : UInt16
  proto : UInt8
deriving DecidableEq

/-- `union ipv4_5tuple_host`, as the `struct` in it. -/
structure Ipv4_5tupleHost where
  pad0 : UInt8
  proto : UInt8
  pad1 : UInt16
  ipSrc : UInt32
  ipDst : UInt32
  portSrc : UInt16
  portDst : UInt16
deriving DecidableEq

/-- `union ipv4_5tuple_host`, as the register `xmm`. -/
def Ipv4_5tupleHost.xmm (k : Ipv4_5tupleHost) : M128i :=
  ![k.pad0, k.proto, byte16 k.pad1 0, byte16 k.pad1 1,
    byte32 k.ipSrc 0, byte32 k.ipSrc 1, byte32 k.ipSrc 2, byte32 k.ipSrc 3,
    byte32 k.ipDst 0, byte32 k.ipDst 1, byte32 k.ipDst 2, byte32 k.ipDst 3,
    byte16 k.portSrc 0, byte16 k.portSrc 1, byte16 k.portDst 0, byte16 k.portDst 1]

/-- `rte_cpu_to_be_32`, on a little-endian machine. -/
def rteCpuToBe32 (x : UInt32) : UInt32 :=
  (x &&& 0x000000ff) <<< 24 ||| (x &&& 0x0000ff00) <<< 8 |||
    (x &&& 0x00ff0000) >>> 8 ||| (x &&& 0xff000000) >>> 24

/-- `rte_cpu_to_be_16`, on a little-endian machine. -/
def rteCpuToBe16 (x : UInt16) : UInt16 := (x &&& 0x00ff) <<< 8 ||| (x &&& 0xff00) >>> 8

/-- `convert_ipv4_5tuple`. -/
def convertIpv4_5tuple (key1 : Ipv4_5tuple) : Ipv4_5tupleHost where
  ipDst := rteCpuToBe32 key1.ipDst
  ipSrc := rteCpuToBe32 key1.ipSrc
  portDst := rteCpuToBe16 key1.portDst
  portSrc := rteCpuToBe16 key1.portSrc
  proto := key1.proto
  pad0 := 0
  pad1 := 0

/-- `BIT_16_TO_23`. -/
def bit16To23 : UInt32 := 0x00ff0000

/-- `struct ipv6_5tuple`, with the ports in host order. -/
structure Ipv6_5tuple where
  ipDst : Fin 16 → UInt8
  ipSrc : Fin 16 → UInt8
  portDst : UInt16
  portSrc : UInt16
  proto : UInt8
deriving DecidableEq

/-- `union ipv6_5tuple_host`, as the `struct` in it. -/
structure Ipv6_5tupleHost where
  pad0 : UInt16
  proto : UInt8
  pad1 : UInt8
  ipSrc : Fin 16 → UInt8
  ipDst : Fin 16 → UInt8
  portSrc : UInt16
  portDst : UInt16
  reserve : UInt64
deriving DecidableEq

/-- `union ipv6_5tuple_host`, as the three registers `xmm`. -/
abbrev Ipv6Xmm := Fin 3 → M128i

/-- Byte `i` of a 64-bit number in memory. -/
def byte64 (x : UInt64) (i : ℕ) : UInt8 := (x >>> UInt64.ofNat (8 * i)).toUInt8

/-- The bytes of the `struct` in memory. -/
def Ipv6_5tupleHost.bytes (k : Ipv6_5tupleHost) : List UInt8 :=
  [byte16 k.pad0 0, byte16 k.pad0 1, k.proto, k.pad1] ++ List.ofFn k.ipSrc ++
    List.ofFn k.ipDst ++
    [byte16 k.portSrc 0, byte16 k.portSrc 1, byte16 k.portDst 0, byte16 k.portDst 1] ++
    (List.range 8).map (byte64 k.reserve)

/-- The registers that the memory of the `struct` reads as. -/
def Ipv6_5tupleHost.xmm (k : Ipv6_5tupleHost) : Ipv6Xmm := fun j =>
  mmLoaduSi128 k.bytes (16 * j)

/-- `convert_ipv6_5tuple`. -/
def convertIpv6_5tuple (key1 : Ipv6_5tuple) : Ipv6_5tupleHost where
  ipDst := key1.ipDst
  ipSrc := key1.ipSrc
  portDst := rteCpuToBe16 key1.portDst
  portSrc := rteCpuToBe16 key1.portSrc
  proto := key1.proto
  pad0 := 0
  pad1 := 0
  reserve := 0

/-! ## The rules -/

/-- The macro `IPv4` of `rte_ip.h`. -/
def ipv4 (a b c d : UInt32) : UInt32 :=
  (a &&& 0xff) <<< 24 ||| (b &&& 0xff) <<< 16 ||| (c &&& 0xff) <<< 8 ||| d &&& 0xff

def ipprotoUdp : UInt8 := 17

def ipprotoTcp : UInt8 := 6

/-- `ipv4_bridge_route_array`, without the output interfaces, which nothing reads. The
initialisers are in the order of the fields of `struct ipv4_5tuple`. -/
def ipv4BridgeRouteArray : List Ipv4_5tuple :=
  [⟨ipv4 59 1 1 18, ipv4 19 168 2 1, 53, 54750, ipprotoUdp⟩,
    ⟨ipv4 201 0 0 0, ipv4 200 20 0 1, 102, 12, ipprotoTcp⟩,
    ⟨ipv4 111 0 0 0, ipv4 100 30 0 1, 101, 11, ipprotoTcp⟩,
    ⟨ipv4 211 0 0 0, ipv4 200 40 0 1, 102, 12, ipprotoTcp⟩]

/-- `ip_dsts` of `populate_ipv4_many_flow_into_table`. -/
def ipDsts : List UInt32 :=
  [ipv4 59 1 1 182, ipv4 59 1 1 97, ipv4 59 1 1 9, ipv4 59 1 1 148, ipv4 59 1 1 154,
    ipv4 59 1 1 122, ipv4 59 1 1 27, ipv4 59 1 1 235, ipv4 59 1 1 91, ipv4 59 1 1 18]

/-- The keys that `populate_ipv4_few_flow_into_table` inserts, in order. -/
def fewFlowKeys : List M128i := ipv4BridgeRouteArray.map fun key => (convertIpv4_5tuple key).xmm

/-- The keys that `populate_ipv4_many_flow_into_table` inserts, in order. They do not depend
on its argument `nr_flow`, which it only prints. -/
def manyFlowKeys : List M128i :=
  ipDsts.flatMap fun ipSrc => (List.range 65536).map fun i =>
    (convertIpv4_5tuple ⟨ipv4 192 168 2 1, ipSrc, UInt16.ofNat i, 53, ipprotoUdp⟩).xmm

end DdosFiltering.Engine
