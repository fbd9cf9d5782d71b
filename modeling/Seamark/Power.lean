/-!
# Powers of two and ten

The units in which doubles and decimals count.
-/

namespace Seamark

/-- A power of two. -/
def twoTo (n : Nat) : Nat := Nat.pow 2 n

/-- A power of ten. -/
def tenTo (n : Nat) : Nat := Nat.pow 10 n

end Seamark
