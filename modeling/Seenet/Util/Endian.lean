import Seenet.Lib.ByteOrder

/-!
# Host and network byte order

The host is little-endian, where `htobe` and `betoh` are the swap of the bytes.  The functions of the
source differ in their width only.
-/

namespace Seenet

namespace sockets

open ByteOrder

/-- `htobe` of a word of `n` bytes. -/
def hostToNetwork {n : ℕ} (host : BitVec (8 * n)) : BitVec (8 * n) := byteSwap host

/-- `betoh` of a word of `n` bytes. -/
def networkToHost {n : ℕ} (network : BitVec (8 * n)) : BitVec (8 * n) := byteSwap network

def hostToNetwork64 (host64 : BitVec (8 * 8)) : BitVec (8 * 8) := hostToNetwork host64
def hostToNetwork32 (host32 : BitVec (8 * 4)) : BitVec (8 * 4) := hostToNetwork host32
def hostToNetwork16 (host16 : BitVec (8 * 2)) : BitVec (8 * 2) := hostToNetwork host16
def networkToHost64 (network64 : BitVec (8 * 8)) : BitVec (8 * 8) := networkToHost network64
def networkToHost32 (network32 : BitVec (8 * 4)) : BitVec (8 * 4) := networkToHost network32
def networkToHost16 (network16 : BitVec (8 * 2)) : BitVec (8 * 2) := networkToHost network16

variable {n : ℕ}

@[simp] lemma networkToHost_hostToNetwork (x : BitVec (8 * n)) :
    networkToHost (hostToNetwork x) = x := byteSwap_byteSwap x

/-- In memory, a word in network order is its big-endian text. -/
@[simp] lemma memoryImage_hostToNetwork (x : BitVec (8 * n)) :
    memoryImage (hostToNetwork x) = bigEndian x := memoryImage_byteSwap x

/-- The word in network order is what the big-endian text reads as. -/
lemma ofMemory_bigEndian (x : BitVec (8 * n)) : ofMemory n (bigEndian x) = hostToNetwork x := by
  rw [← memoryImage_hostToNetwork, ofMemory_memoryImage]

end sockets

end Seenet
