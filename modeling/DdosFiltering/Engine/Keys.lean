import DdosFiltering.Engine.HashVerdicts
import Mathlib.Tactic.FinCases
import Mathlib.Tactic.IntervalCases

/-!
# Keys of packets and keys of rules

The key that is loaded from a packet and masked is, byte for byte, the key that is converted
from the 5-tuple the packet carries, for IPv4 and for IPv6, and the conversions keep 5-tuples
apart (`packet_key_eq_rule_key`).
-/

set_option autoImplicit false

namespace DdosFiltering.Engine

open Datapath

/-! ## Bytes of numbers -/

theorem getLsbD_byte32 (x : UInt32) {i b : ℕ} (inWord : i < 4) (inByte : b < 8) :
    (byte32 x i).toBitVec.getLsbD b = x.toBitVec.getLsbD (8 * i + b) := by
  have shift : 8 * i % 32 = 8 * i := by omega
  simp [byte32, inByte, shift]

theorem getLsbD_byte16 (x : UInt16) {i b : ℕ} (inWord : i < 2) (inByte : b < 8) :
    (byte16 x i).toBitVec.getLsbD b = x.toBitVec.getLsbD (8 * i + b) := by
  have shift : 8 * i % 16 = 8 * i := by omega
  simp [byte16, inByte, shift]

/-- A number in network order has its bytes in the other order. -/
theorem byte32_rteCpuToBe32 (x : UInt32) {i : ℕ} (inWord : i < 4) :
    byte32 (rteCpuToBe32 x) i = byte32 x (3 - i) := by
  refine UInt8.toBitVec_inj.mp (BitVec.eq_of_getLsbD_eq fun b inByte => ?_)
  rw [getLsbD_byte32 _ inWord inByte, getLsbD_byte32 _ (by omega) inByte]
  interval_cases i <;> interval_cases b <;> simp [rteCpuToBe32]

theorem byte16_rteCpuToBe16 (x : UInt16) {i : ℕ} (inWord : i < 2) :
    byte16 (rteCpuToBe16 x) i = byte16 x (1 - i) := by
  refine UInt8.toBitVec_inj.mp (BitVec.eq_of_getLsbD_eq fun b inByte => ?_)
  rw [getLsbD_byte16 _ inWord inByte, getLsbD_byte16 _ (by omega) inByte]
  interval_cases i <;> interval_cases b <;> simp [rteCpuToBe16]

/-- Numbers with the same bytes are the same. -/
theorem eq_of_byte32 {x y : UInt32} (same : ∀ i, i < 4 → byte32 x i = byte32 y i) : x = y := by
  refine UInt32.toBitVec_inj.mp (BitVec.eq_of_getLsbD_eq fun j inWord => ?_)
  have bit := congrArg (fun c => c.toBitVec.getLsbD (j % 8)) (same (j / 8) (by omega))
  simp only [getLsbD_byte32 _ (show j / 8 < 4 by omega) (show j % 8 < 8 by omega),
    Nat.div_add_mod] at bit
  exact bit

theorem eq_of_byte16 {x y : UInt16} (same : ∀ i, i < 2 → byte16 x i = byte16 y i) : x = y := by
  refine UInt16.toBitVec_inj.mp (BitVec.eq_of_getLsbD_eq fun j inWord => ?_)
  have bit := congrArg (fun c => c.toBitVec.getLsbD (j % 8)) (same (j / 8) (by omega))
  simp only [getLsbD_byte16 _ (show j / 8 < 2 by omega) (show j % 8 < 8 by omega),
    Nat.div_add_mod] at bit
  exact bit

theorem rteCpuToBe32_injective : Function.Injective rteCpuToBe32 := by
  intro x y same
  apply eq_of_byte32
  intro i inWord
  have byte := byte32_rteCpuToBe32 x (show 3 - i < 4 by omega)
  rw [same, byte32_rteCpuToBe32 y (by omega), show 3 - (3 - i) = i by omega] at byte
  exact byte.symm

theorem rteCpuToBe16_injective : Function.Injective rteCpuToBe16 := by
  intro x y same
  apply eq_of_byte16
  intro i inWord
  have byte := byte16_rteCpuToBe16 x (show 1 - i < 2 by omega)
  rw [same, byte16_rteCpuToBe16 y (by omega), show 1 - (1 - i) = i by omega] at byte
  exact byte.symm

/-- Numbers with the same bytes in network order are the same. -/
theorem eq_of_be32 {x y : UInt32} (byte0 : byte32 (rteCpuToBe32 x) 0 = byte32 (rteCpuToBe32 y) 0)
    (byte1 : byte32 (rteCpuToBe32 x) 1 = byte32 (rteCpuToBe32 y) 1)
    (byte2 : byte32 (rteCpuToBe32 x) 2 = byte32 (rteCpuToBe32 y) 2)
    (byte3 : byte32 (rteCpuToBe32 x) 3 = byte32 (rteCpuToBe32 y) 3) : x = y := by
  apply rteCpuToBe32_injective
  apply eq_of_byte32
  intro i inWord
  interval_cases i
  exacts [byte0, byte1, byte2, byte3]

theorem eq_of_be16 {x y : UInt16} (byte0 : byte16 (rteCpuToBe16 x) 0 = byte16 (rteCpuToBe16 y) 0)
    (byte1 : byte16 (rteCpuToBe16 x) 1 = byte16 (rteCpuToBe16 y) 1) : x = y := by
  apply rteCpuToBe16_injective
  apply eq_of_byte16
  intro i inWord
  interval_cases i
  exacts [byte0, byte1]

/-! ## Frames -/

/-- A 32-bit field in network order. -/
def be32 (x : UInt32) : List UInt8 := [byte32 x 3, byte32 x 2, byte32 x 1, byte32 x 0]

/-- A 16-bit field in network order. -/
def be16 (x : UInt16) : List UInt8 := [byte16 x 1, byte16 x 0]

/-- From the time to live on, an IPv4 header of 20 bytes and the ports. -/
def ipv4Fields (timeToLive : UInt8) (hdrChecksum : UInt16) (k : Ipv4_5tuple) : List UInt8 :=
  [timeToLive, k.proto] ++ be16 hdrChecksum ++ be32 k.ipSrc ++ be32 k.ipDst ++ be16 k.portSrc ++
    be16 k.portDst

/-- An Ethernet frame with an IPv4 header of 20 bytes and the ports. `front` is the Ethernet
header and the first 8 bytes of the IPv4 header. -/
def ipv4Frame (front : Fin timeToLiveOffset → UInt8) (timeToLive : UInt8) (hdrChecksum : UInt16)
    (k : Ipv4_5tuple) (payload : List UInt8) : List UInt8 :=
  List.ofFn front ++ (ipv4Fields timeToLive hdrChecksum k ++ payload)

/-- `sizeof(struct ether_hdr) + offsetof(struct ipv6_hdr, payload_len)`. -/
def payloadLenOffset : ℕ := 14 + 4

/-- From the payload length on, an IPv6 header and the ports. -/
def ipv6Fields (payloadLen : UInt16) (hopLimits : UInt8) (k : Ipv6_5tuple) : List UInt8 :=
  be16 payloadLen ++ [k.proto, hopLimits] ++ List.ofFn k.ipSrc ++ List.ofFn k.ipDst ++
    be16 k.portSrc ++ be16 k.portDst

/-- An Ethernet frame with an IPv6 header and the ports. `front` is the Ethernet header and the
first 4 bytes of the IPv6 header. -/
def ipv6Frame (front : Fin payloadLenOffset → UInt8) (payloadLen : UInt16) (hopLimits : UInt8)
    (k : Ipv6_5tuple) (payload : List UInt8) : List UInt8 :=
  List.ofFn front ++ (ipv6Fields payloadLen hopLimits k ++ payload)

/-! ## Keys of packets -/

/-- `mask1`, as the functions that fill an IPv6 table set it. -/
def ipv6Mask1 : M128i := mmSetEpi32 all32Bits all32Bits all32Bits bit16To23

/-- `mask2`, as the functions that fill an IPv6 table set it. -/
def ipv6Mask2 : M128i := mmSetEpi32 0 0 all32Bits all32Bits

/-- `get_ipv6_5tuple`. -/
def getIpv6_5tuple (m0 : RteMbuf) (mask0 mask1 : M128i) : Ipv6Xmm :=
  ![mmAndSi128 (mmLoaduSi128 m0.data payloadLenOffset) mask0,
    mmLoaduSi128 m0.data (payloadLenOffset + 16),
    mmAndSi128 (mmLoaduSi128 m0.data (payloadLenOffset + 16 + 16)) mask1]

theorem keyMask_eq : keyMask = ![0, 255, 0, 0, 255, 255, 255, 255, 255, 255, 255, 255, 255, 255,
    255, 255] := by
  decide

theorem ipv6Mask1_eq : ipv6Mask1 = ![0, 0, 255, 0, 255, 255, 255, 255, 255, 255, 255, 255, 255, 255,
    255, 255] := by
  decide

theorem ipv6Mask2_eq :
    ipv6Mask2 = ![255, 255, 255, 255, 255, 255, 255, 255, 0, 0, 0, 0, 0, 0, 0, 0] := by
  decide

/-- A load from behind `front`. -/
theorem mmLoaduSi128_ofFn_append {n : ℕ} (front : Fin n → UInt8) (l : List UInt8) (off : ℕ) :
    mmLoaduSi128 (List.ofFn front ++ l) (n + off) = mmLoaduSi128 l off := by
  funext i
  have behind : (List.ofFn front).length ≤ n + off + i := by
    rw [List.length_ofFn, Nat.add_assoc]
    exact Nat.le_add_right _ _
  rw [mmLoaduSi128, List.getD_eq_getElem?_getD, List.getElem?_append_right behind,
    List.length_ofFn, Nat.add_assoc, Nat.add_sub_cancel_left]
  rfl

theorem and_allBits (x : UInt8) : x &&& 255 = x := UInt8.and_neg_one

theorem byte16_zero : byte16 0 0 = 0 ∧ byte16 0 1 = 0 := by
  decide

theorem keyUnder_ipv4Frame (front : Fin timeToLiveOffset → UInt8) (timeToLive : UInt8)
    (hdrChecksum : UInt16) (k : Ipv4_5tuple) (payload : List UInt8) (m : RteMbuf) :
    keyUnder keyMask { m with data := ipv4Frame front timeToLive hdrChecksum k payload } =
      (convertIpv4_5tuple k).xmm := by
  have load := mmLoaduSi128_ofFn_append front (ipv4Fields timeToLive hdrChecksum k ++ payload) 0
  rw [keyUnder, ipv4Frame]
  change mmAndSi128 (mmLoaduSi128 _ (timeToLiveOffset + 0)) keyMask = _
  rw [load, keyMask_eq]
  funext i
  fin_cases i <;>
    simp [mmAndSi128, mmLoaduSi128, ipv4Fields, be16, be32, Ipv4_5tupleHost.xmm,
      convertIpv4_5tuple, byte32_rteCpuToBe32, byte16_rteCpuToBe16, byte16_zero,
      and_allBits]

theorem ofFn_address (a : Fin 16 → UInt8) :
    List.ofFn a = [a 0, a 1, a 2, a 3, a 4, a 5, a 6, a 7, a 8, a 9, a 10, a 11, a 12, a 13, a 14,
      a 15] := rfl

/-- The 40 bytes that a frame and a key have in common, between the two fields that are masked
in the frame and the end of the key. -/
theorem bytes_convertIpv6_5tuple (k : Ipv6_5tuple) :
    (convertIpv6_5tuple k).bytes =
      [0, 0, k.proto, 0] ++ List.ofFn k.ipSrc ++ List.ofFn k.ipDst ++ be16 k.portSrc ++
        be16 k.portDst ++ List.replicate 8 0 := by
  have zeros : (List.range 8).map (byte64 0) = List.replicate 8 0 := by decide
  simp only [Ipv6_5tupleHost.bytes, convertIpv6_5tuple, byte16_zero, be16, zeros,
    byte16_rteCpuToBe16 _ (show 0 < 2 by decide), byte16_rteCpuToBe16 _ (show 1 < 2 by decide)]
  rfl

theorem getIpv6_5tuple_ipv6Frame (front : Fin payloadLenOffset → UInt8) (payloadLen : UInt16)
    (hopLimits : UInt8) (k : Ipv6_5tuple) (payload : List UInt8) (m : RteMbuf) :
    getIpv6_5tuple { m with data := ipv6Frame front payloadLen hopLimits k payload } ipv6Mask1
        ipv6Mask2 = (convertIpv6_5tuple k).xmm := by
  have load := mmLoaduSi128_ofFn_append front (ipv6Fields payloadLen hopLimits k ++ payload)
  rw [getIpv6_5tuple, ipv6Frame]
  change ![mmAndSi128 (mmLoaduSi128 _ (payloadLenOffset + 0)) ipv6Mask1,
    mmLoaduSi128 _ (payloadLenOffset + 16), mmAndSi128 (mmLoaduSi128 _ (payloadLenOffset + 32))
      ipv6Mask2] = _
  rw [load, load, load, ipv6Mask1_eq, ipv6Mask2_eq]
  funext j
  simp only [Ipv6_5tupleHost.xmm, bytes_convertIpv6_5tuple, ipv6Fields, ofFn_address]
  funext i
  fin_cases j
  · fin_cases i <;> first | exact UInt8.and_zero | exact and_allBits _
  · fin_cases i <;> rfl
  · fin_cases i <;> first | exact UInt8.and_zero | exact and_allBits _

/-! ## Different 5-tuples -/

theorem convertIpv4_5tuple_xmm_injective :
    Function.Injective fun k : Ipv4_5tuple => (convertIpv4_5tuple k).xmm := by
  intro k k' same
  have byte (i : Fin 16) : (convertIpv4_5tuple k).xmm i = (convertIpv4_5tuple k').xmm i :=
    congrFun same i
  have ipSrc : k.ipSrc = k'.ipSrc := eq_of_be32 (byte 4) (byte 5) (byte 6) (byte 7)
  have ipDst : k.ipDst = k'.ipDst := eq_of_be32 (byte 8) (byte 9) (byte 10) (byte 11)
  have portSrc : k.portSrc = k'.portSrc := eq_of_be16 (byte 12) (byte 13)
  have portDst : k.portDst = k'.portDst := eq_of_be16 (byte 14) (byte 15)
  have proto : k.proto = k'.proto := byte 1
  cases k
  cases k'
  simp_all only

theorem convertIpv6_5tuple_xmm_injective :
    Function.Injective fun k : Ipv6_5tuple => (convertIpv6_5tuple k).xmm := by
  intro k k' same
  have byte (j : Fin 3) (i : Fin 16) :
      (convertIpv6_5tuple k).xmm j i = (convertIpv6_5tuple k').xmm j i :=
    congrFun (congrFun same j) i
  have ipSrc : k.ipSrc = k'.ipSrc := by
    funext i
    fin_cases i
    exacts [byte 0 4, byte 0 5, byte 0 6, byte 0 7, byte 0 8, byte 0 9, byte 0 10, byte 0 11,
      byte 0 12, byte 0 13, byte 0 14, byte 0 15, byte 1 0, byte 1 1, byte 1 2, byte 1 3]
  have ipDst : k.ipDst = k'.ipDst := by
    funext i
    fin_cases i
    exacts [byte 1 4, byte 1 5, byte 1 6, byte 1 7, byte 1 8, byte 1 9, byte 1 10, byte 1 11,
      byte 1 12, byte 1 13, byte 1 14, byte 1 15, byte 2 0, byte 2 1, byte 2 2, byte 2 3]
  have portSrc : k.portSrc = k'.portSrc := eq_of_be16 (byte 2 4) (byte 2 5)
  have portDst : k.portDst = k'.portDst := eq_of_be16 (byte 2 6) (byte 2 7)
  have proto : k.proto = k'.proto := byte 0 2
  cases k
  cases k'
  simp_all only

/-- **The key of a packet is the key of its 5-tuple**, for IPv4 and for IPv6, and different
5-tuples have different keys. -/
theorem packet_key_eq_rule_key :
    ((∀ front timeToLive hdrChecksum (k : Ipv4_5tuple) payload (m : RteMbuf),
        keyUnder keyMask { m with data := ipv4Frame front timeToLive hdrChecksum k payload } =
          (convertIpv4_5tuple k).xmm) ∧
      ∀ k k' : Ipv4_5tuple, k ≠ k' → (convertIpv4_5tuple k).xmm ≠ (convertIpv4_5tuple k').xmm) ∧
    (∀ front payloadLen hopLimits (k : Ipv6_5tuple) payload (m : RteMbuf),
        getIpv6_5tuple { m with data := ipv6Frame front payloadLen hopLimits k payload } ipv6Mask1
          ipv6Mask2 = (convertIpv6_5tuple k).xmm) ∧
      ∀ k k' : Ipv6_5tuple, k ≠ k' → (convertIpv6_5tuple k).xmm ≠ (convertIpv6_5tuple k').xmm :=
  ⟨⟨keyUnder_ipv4Frame, fun _ _ => convertIpv4_5tuple_xmm_injective.ne⟩, getIpv6_5tuple_ipv6Frame,
    fun _ _ => convertIpv6_5tuple_xmm_injective.ne⟩

end DdosFiltering.Engine
