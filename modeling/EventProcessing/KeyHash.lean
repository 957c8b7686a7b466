/-!
A stable 32-bit hash of keys: FNV-1a over the bytes of the UTF-8 form. A key has the same hash in
every process and after every restart.
-/

namespace EventProcessing

namespace KeyHash

def offsetBasis : UInt32 := 0x811c9dc5

def prime : UInt32 := 0x01000193

def step (hash : UInt32) (byte : UInt8) : UInt32 := (hash ^^^ byte.toUInt32) * prime

def bytes (data : List UInt8) : UInt32 := data.foldl step offsetBasis

end KeyHash

def keyHash (key : String) : UInt32 := KeyHash.bytes key.toUTF8.toList

end EventProcessing
