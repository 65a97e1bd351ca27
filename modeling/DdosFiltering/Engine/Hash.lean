import DdosFiltering.Datapath.BridgeOptimized
import DdosFiltering.Engine.FiveTuple
import DdosFiltering.Foundation.Positions
import DdosFiltering.Libc

/-!
# The hash engine

`engine_hash.c`: `init_hash` creates a hash table on the socket of the slave and fills it with
the keys of the rules, and `hash_pkt_filter` and `hash_pkt_filter4` look up the keys of one
packet or of four. The two read the table through different globals: `lookup_struct`, which
`init_hash` sets to the table of its socket, and entry 0 of `ipv4_bridge_lookup_struct`.

The library `rte_hash` is a parameter (`RteHash`), and what its documentation says of it is a
property of the parameter (`RteHash.Documented`).

`ipv6` is 0 and nothing sets it, so only IPv4 tables are filled.
-/

set_option autoImplicit false

namespace DdosFiltering.Engine

open Datapath Foundation

/-- `NB_SOCKETS`. -/
def nbSockets : ℕ := 2

instance : NeZero nbSockets := ⟨by decide⟩

/-- `BRIDGE_HASH_ENTRIES`, on a 64-bit machine. -/
def bridgeHashEntries : ℕ := 1024 * 1024 * 4

/-- `HASH_ENTRY_NUMBER_DEFAULT`. -/
def hashEntryNumberDefault : UInt32 := 4

/-- `CONFIG_MAX_ARGS_LEN`. -/
def configMaxArgsLen : ℕ := 128

/-! ## The library -/

/-- What the program sets in a `struct rte_hash_parameters`. -/
structure RteHashParameters where
  name : List Char
  entries : ℕ
  keyLen : ℕ
  socketId : Fin nbSockets

/-- The functions of `rte_hash.h` that the engine calls. A null pointer is `none`.
`lookupMulti` gets the values that are in the array of results before the call. -/
structure RteHash (Table : Type) where
  create : RteHashParameters → Option Table
  addKey : Table → M128i → ℤ × Table
  lookup : Option Table → M128i → ℤ
  lookupMulti : Option Table → (Fin 4 → M128i) → (Fin 4 → ℤ) → Fin 4 → ℤ

/-- What the library documents of lookups: a lookup returns the position of a key that the
table holds, and a negative value for another key. A lookup of several keys does what the
lookups of the keys do, and nothing when there is no table. -/
structure RteHash.LooksUp {Table : Type} (lib : RteHash Table)
    (position : Table → M128i → Option ℕ) : Prop where
  lookup_present : ∀ t k p, position t k = some p → lib.lookup (some t) k = p
  lookup_absent : ∀ t k, position t k = none → lib.lookup (some t) k < 0
  lookupMulti_some : ∀ t keys ret i,
    lib.lookupMulti (some t) keys ret i = lib.lookup (some t) (keys i)
  lookupMulti_none : ∀ keys ret, lib.lookupMulti none keys ret = ret

/-- What the library documents: besides the lookups, that a new table is empty, and that an
insertion returns a position that no other key has. -/
structure RteHash.Documented {Table : Type} (lib : RteHash Table)
    (position : Table → M128i → Option ℕ) : Prop extends lib.LooksUp position where
  created : ∀ params t, lib.create params = some t → ∀ k, position t k = none
  numbers : Numbers position lib.addKey

/-! ## Initialisation -/

variable {Table : Type}

/-- The static variables of the engine. -/
structure HashState (Table : Type) where
  ipv4BridgeLookupStruct : Fin nbSockets → Option Table
  lookupStruct : Option Table
  mask0 : M128i
  hashEntryNumber : UInt32

/-- The static variables of a process that has not called `init_hash`. -/
def HashState.initial : HashState Table := ⟨fun _ => none, none, fun _ => 0, hashEntryNumberDefault⟩

/-- What the two functions that fill an IPv4 table share: set the mask, and insert keys. The
process exits (`none`) when an insertion fails, that is, returns a negative value. -/
def populate (lib : RteHash Table) (keys : List M128i) (g : HashState Table) (h : Table) :
    Option (HashState Table × Table) :=
  (insertAll lib.addKey h keys).map
    ({ g with mask0 := mmSetEpi32 all32Bits all32Bits all32Bits bit8To15 }, ·)

/-- `populate_ipv4_few_flow_into_table`. -/
def populateIpv4FewFlowIntoTable (lib : RteHash Table) (g : HashState Table) (h : Table) :
    Option (HashState Table × Table) :=
  populate lib fewFlowKeys g h

/-- `populate_ipv4_many_flow_into_table`, whose argument `nr_flow` is only printed. -/
def populateIpv4ManyFlowIntoTable (lib : RteHash Table) (g : HashState Table) (h : Table)
    (_nrFlow : UInt32) : Option (HashState Table × Table) :=
  populate lib manyFlowKeys g h

/-- The table is filled with many keys, unless the file asks for the default number. -/
def fillIpv4 (lib : RteHash Table) (g : HashState Table) (h : Table) :
    Option (HashState Table × Table) :=
  if g.hashEntryNumber ≠ hashEntryNumberDefault then
    populateIpv4ManyFlowIntoTable lib g h g.hashEntryNumber
  else
    populateIpv4FewFlowIntoTable lib g h

/-- The two pointers to the table that `init_hash` sets. -/
def HashState.install (g : HashState Table) (socketId : Fin nbSockets) (h : Table) :
    HashState Table :=
  { g with
    ipv4BridgeLookupStruct := Function.update g.ipv4BridgeLookupStruct socketId (some h)
    lookupStruct := some h }

/-- The parameters of the table. -/
def ipv4BridgeHashParams (procId : ℕ) (socketId : Fin nbSockets) : RteHashParameters where
  name := "ipv4_bridge_hash_".toList ++ decimal procId
  entries := bridgeHashEntries
  keyLen := 16
  socketId := socketId

/-- `init_hash`. `file` is `none` when it cannot be opened, and `keysNb` is what happens to be
in the variable of that name when `sscanf` does not set it. The process exits (`none`) when
the table cannot be created or filled. -/
def initHash (lib : RteHash Table) (file : Option (List UInt8)) (keysNb : UInt64) (procId : ℕ)
    (socketId : Fin nbSockets) (g : HashState Table) : Option (ℤ × HashState Table) :=
  match file.bind (fgets configMaxArgsLen) with
  | none => some (-1, g)
  | some (buff, _) =>
      match scanInteger (cString buff) with
      | .eof => some (-1, g)
      | conversion =>
          let keysNb := match conversion with
            | .value n => storedUnsignedLong n
            | _ => keysNb
          let g := { g with hashEntryNumber := keysNb.toUInt32 }
          (lib.create (ipv4BridgeHashParams procId socketId)).bind fun h =>
            (fillIpv4 lib g h).map fun (g, h) => (0, g.install socketId h)

/-! ## Filtering -/

/-- `sizeof(struct ether_hdr) + offsetof(struct ipv4_hdr, time_to_live)`. -/
def timeToLiveOffset : ℕ := 14 + 8

/-- The key of a packet, under a mask. -/
def keyUnder (mask : M128i) (m : RteMbuf) : M128i :=
  mmAndSi128 (mmLoaduSi128 m.data timeToLiveOffset) mask

/-- `hash_pkt_filter`. -/
def hashPktFilter (lib : RteHash Table) : Engine1 (HashState Table) := fun g m _ =>
  (lib.lookup g.lookupStruct (keyUnder g.mask0 m), g)

/-- `hash_pkt_filter4`. -/
def hashPktFilter4 (lib : RteHash Table) : Engine4 (HashState Table) := fun g m ret =>
  (lib.lookupMulti (g.ipv4BridgeLookupStruct 0) (fun i => keyUnder g.mask0 (m i)) ret, g)

end DdosFiltering.Engine
