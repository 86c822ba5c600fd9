import LinuxDvb.Framework.Lists

/-!
# CRC-32, most significant bit first

The kernel's `crc32_be`: generator `0x04c11db7`, no reflection, and neither initial nor final
inversion, which are left to the caller.
-/

namespace LinuxDvb

def crc32BeBit (crc : UInt32) : UInt32 :=
  if crc &&& 0x80000000 = 0 then crc <<< 1 else (crc <<< 1) ^^^ 0x04c11db7

def crc32BeByte (crc : UInt32) (b : UInt8) : UInt32 :=
  Nat.repeat crc32BeBit 8 (crc ^^^ (b.toUInt32 <<< 24))

/-- `crc32_be(crc, p, len)`. -/
def crc32Be (crc : UInt32) (bytes : List UInt8) : UInt32 :=
  bytes.foldl crc32BeByte crc

theorem crc32Be_append (crc : UInt32) (xs ys : List UInt8) : crc32Be crc (xs ++ ys) = crc32Be (crc32Be crc xs) ys := by
  simp only [crc32Be,foldl_append]

end LinuxDvb
