/-!
# Bounds of machine numbers
-/
namespace Outline

/-- Numbers of 64 bits without a sign are below this. -/
def wordBound : Nat := 0x10000000000000000

/-- Numbers of 64 bits with a sign are below this, and not below its negative. -/
def signedBound : Nat := 0x8000000000000000

end Outline
