/-!
# Version

The version of the library, as programs report it.
-/

namespace EntropySupply

def version : String := "0.1.0"

end EntropySupply
