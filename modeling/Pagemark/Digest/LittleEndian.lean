/-
  Pagemark.Digest.LittleEndian — numbers as bytes, least significant byte first.

  Proved: `length_littleEndian` — `n` bytes are `n` bytes, whatever the number.
-/

namespace Pagemark.Digest

/-- The lowest `n` bytes of a number, least significant first. -/
def littleEndian : (n : Nat) → Nat → List UInt8
  | 0, _ => []
  | n + 1, value => UInt8.ofNat (value % 256) :: littleEndian n (value / 256)

@[simp] theorem length_littleEndian (n value : Nat) : (littleEndian n value).length = n := by
  induction n generalizing value with
  | zero => rfl
  | succ n ih => simp [littleEndian, ih]

end Pagemark.Digest
