import LinuxDvb.Framework.Memory

/-!
# Kernel conventions

Error numbers returned as negative values, the arithmetic of `size_t` and of `u8`, and network byte
order. The build files of the drivers compile them for i686 (`-m32`), so `size_t` and `unsigned long`
have 32 bits.
-/

namespace LinuxDvb

def errAgain : Int := -11
def errNomem : Int := -12
def errIo : Int := -5
def errFault : Int := -14
def errBusy : Int := -16
def errNodev : Int := -19
def errInval : Int := -22
def errOverflow : Int := -75
def errTimedout : Int := -110
def errRestartsys : Int := -512

/-- Number of values of `size_t`. -/
def sizeModulus : Nat := 2 ^ 32

/-- `a - b` in `size_t`. -/
def sizeSub (a b : Nat) : Nat := (a + sizeModulus - b) % sizeModulus

theorem sizeSub_of_le {a b : Nat} (h : b ≤ a) (ha : a < sizeModulus) : sizeSub a b = a - b := by
  unfold sizeSub
  rw [show a + sizeModulus - b = a - b + sizeModulus by omega,Nat.add_mod_right,
    Nat.mod_eq_of_lt (by omega)]

theorem sizeSub_of_lt {a b : Nat} (h : a < b) (hb : b ≤ sizeModulus) : sizeSub a b = sizeModulus - (b - a) := by
  unfold sizeSub
  rw [show a + sizeModulus - b = sizeModulus - (b - a) by omega,Nat.mod_eq_of_lt (by omega)]

/-- `a - b` in `u8`. -/
def subU8 (a b : Nat) : Nat := (a + 256 - b % 256) % 256

theorem subU8_of_le {a b : Nat} (h : b ≤ a) (ha : a < 256) : subU8 a b = a - b := by
  unfold subU8
  omega

/-- The 16-bit value at `off`, in network byte order. -/
def ntohs (m : Mem UInt8) (off : Nat) : Nat := (m off).toNat * 256 + (m (off + 1)).toNat

/-- The 32-bit value at `off`, in network byte order. -/
def ntohl (m : Mem UInt8) (off : Nat) : Nat := ntohs m off * 65536 + ntohs m (off + 2)

def htons (n : Nat) : List UInt8 := [UInt8.ofNat (n / 256), UInt8.ofNat n]

def htonl (n : Nat) : List UInt8 := htons (n / 65536) ++ htons n

@[simp] theorem length_htons (n : Nat) : (htons n).length = 2 := rfl

@[simp] theorem length_htonl (n : Nat) : (htonl n).length = 4 := rfl

theorem ntohs_of_slice {m : Mem UInt8} {off n : Nat} (hn : n < 65536) (h : m.slice off 2 = htons n) :
    ntohs m off = n := by
  simp only [Mem.slice,htons,List.cons.injEq,and_true] at h
  rw [ntohs,h.1,h.2,UInt8.toNat_ofNat',UInt8.toNat_ofNat']
  omega

theorem ntohs_add_of_slice {m : Mem UInt8} {off i : Nat} {xs : List UInt8}
    (h : m.slice off xs.length = xs) (hi : i + 2 ≤ xs.length) :
    ntohs m (off + i) = ntohs (Mem.ofList xs) i := by
  rw [ntohs,ntohs,Mem.ofList_of_slice h (by omega),Nat.add_assoc,Mem.ofList_of_slice h (by omega)]

theorem ntohl_of_slice {m : Mem UInt8} {off n : Nat} (hn : n < 2 ^ 32)
    (h : m.slice off 4 = htonl n) : ntohl m off = n := by
  have hsplit : m.slice off 2 ++ m.slice (off + 2) 2 = htons (n / 65536) ++ htons n := by
    rw [← Mem.slice_add]
    exact h
  obtain ⟨hhi,hlo⟩ := append_inj hsplit (by simp)
  have hlo' : m.slice (off + 2) 2 = htons (n % 65536) := by
    rw [hlo]
    simp only [htons,List.cons.injEq,and_true,← UInt8.toNat_inj,UInt8.toNat_ofNat']
    omega
  rw [ntohl,ntohs_of_slice (by omega) hhi,ntohs_of_slice (by omega) hlo']
  omega

end LinuxDvb
