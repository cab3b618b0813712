import UnionAtlas.Text.Bytes

/-!
# FNV-1a

The sixty-four bit hash of a name.
-/

namespace UnionAtlas

/-- The FNV-1a hash: from the offset basis on, each byte is mixed in and the result multiplied by
the prime, modulo `2^64`. -/
def fnv1a (bs : Bytes) : UInt64 :=
  bs.foldl (fun h b => (h ^^^ b.toUInt64) * 0x100000001b3) 0xcbf29ce484222325

end UnionAtlas
