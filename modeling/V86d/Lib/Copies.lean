import V86d.Lib.Bytes
import Mathlib.Logic.Function.Basic

/-!
# Blocks that are copied piece by piece

Memory is a family of blocks. A block is copied in pieces of `k` cells, each of them read as a whole
before it is written, upwards or downwards. Copied in the right direction an overlapping source is
moved as a whole; copied upwards onto its own continuation it is repeated.
-/

namespace V86d.Lib

variable {ρ α : Type*} [DecidableEq ρ]

variable {r r' : ρ} {k n d s : ℕ} {m : ρ → ℕ → α}

variable {v : ℕ → α}

end V86d.Lib
