/-!
# Words

Numbers that are read or counted in words of a fixed size are below the number
of such words.
-/

set_option autoImplicit false

namespace DeployCheck.Word

def count32 : Nat := 4294967296

def count64 : Nat := 18446744073709551616

end DeployCheck.Word
